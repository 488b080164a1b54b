import KeyCustody.Json.Decode

namespace KeyCustody.Json

/-! # The grammar of JSON texts

Which octets are a text of which tree. Blanks may stand around every value and every name, and
nowhere else. The trees that have texts are those without a fault. -/

def Blank (octets : Bytes) : Prop := ∀ octet ∈ octets, isSpace octet

/-- The octets of a string after its opening quote, by the marks that they are read as. -/
inductive Marked : List Mark → Bytes → Prop where
  | close : Marked [] [Sign.quote]
  | plain {octet : UInt8} {marks : List Mark} {octets : Bytes} (noQuote : octet ≠ Sign.quote)
      (noEscape : octet ≠ Sign.backslash) (visible : ¬ octet < 0x20)
      (marked : Marked marks octets) : Marked (.octet octet :: marks) (octet :: octets)
  | short {letter value : UInt8} {marks : List Mark} {octets : Bytes}
      (escape : shortEscape? letter = some value) (marked : Marked marks octets) :
      Marked (.octet value :: marks) (Sign.backslash :: letter :: octets)
  | unit {a b c d : UInt8} {code : Nat} {marks : List Mark} {octets : Bytes}
      (escape : unit? a b c d = some code) (marked : Marked marks octets) :
      Marked (.unit code :: marks) (Sign.backslash :: Sign.letterU :: a :: b :: c :: d :: octets)

/-- A string, as a name stands in an object. -/
inductive Quoted.IsText : Quoted → Bytes → Prop where
  | mk {before octets after : Bytes} {marks : List Mark} (blank : Blank before)
      (marked : Marked marks octets) (blankAfter : Blank after) :
      Quoted.IsText ⟨marks, none⟩ (before ++ Sign.quote :: (octets ++ after))

def digitOctets (digits : List Nat) : Bytes := digits.map fun digit => (0x30 + digit).toUInt8

/-- One or more decimal digits. -/
structure Decimals (digits : List Nat) : Prop where
  nonempty : digits ≠ []
  decimal : ∀ digit ∈ digits, digit < 10

inductive FractionWritten : List Nat → Bytes → Prop where
  | absent : FractionWritten [] []
  | present {digits : List Nat} (decimals : Decimals digits) :
      FractionWritten digits (Sign.point :: digitOctets digits)

inductive ExponentSignWritten : Bool → Bytes → Prop where
  | absent : ExponentSignWritten false []
  | plus : ExponentSignWritten false [Sign.plus]
  | minus : ExponentSignWritten true [Sign.minus]

inductive ExponentWritten : Option (Bool × List Nat) → Bytes → Prop where
  | absent : ExponentWritten none []
  | present {letter : UInt8} {negative : Bool} {sign : Bytes} {digits : List Nat}
      (marked : letter = 0x65 ∨ letter = 0x45) (signed : ExponentSignWritten negative sign)
      (decimals : Decimals digits) :
      ExponentWritten (some (negative, digits)) (letter :: (sign ++ digitOctets digits))

/-- A number after its sign. A leading zero stands alone. -/
inductive UnsignedWritten : Numeral → Bytes → Prop where
  | mk {negative : Bool} {whole fraction : List Nat} {exponent : Option (Bool × List Nat)}
      {fractionOctets exponentOctets : Bytes} (decimals : Decimals whole)
      (leading : whole.head? = some 0 → whole = [0])
      (fractionWritten : FractionWritten fraction fractionOctets)
      (exponentWritten : ExponentWritten exponent exponentOctets) :
      UnsignedWritten
        ⟨negative, whole, fraction, exponent, fraction.isEmpty && exponent.isNone⟩
        (digitOctets whole ++ (fractionOctets ++ exponentOctets))

inductive Numeral.Written (numeral : Numeral) : Bytes → Prop where
  | unsigned {octets : Bytes} (positive : numeral.negative = false)
      (written : UnsignedWritten numeral octets) : Numeral.Written numeral octets
  | minus {octets : Bytes} (negative : numeral.negative = true)
      (written : UnsignedWritten numeral octets) :
      Numeral.Written numeral (Sign.minus :: octets)

mutual

inductive Node.Written : Node → Bytes → Prop where
  | null : Node.Written .null [0x6E, 0x75, 0x6C, 0x6C]
  | yes : Node.Written (.boolean true) [0x74, 0x72, 0x75, 0x65]
  | no : Node.Written (.boolean false) [0x66, 0x61, 0x6C, 0x73, 0x65]
  | number {numeral : Numeral} {octets : Bytes} (written : numeral.Written octets) :
      Node.Written (.number numeral) octets
  | text {marks : List Mark} {octets : Bytes} (marked : Marked marks octets) :
      Node.Written (.text ⟨marks, none⟩) (Sign.quote :: octets)
  | array {items : Items} {octets : Bytes} (written : Items.Written items octets) :
      Node.Written (.array items) (Sign.openBracket :: octets)
  | object {members : Members} {octets : Bytes} (written : Members.Written members octets) :
      Node.Written (.object members) (Sign.openBrace :: octets)

/-- A value with the blanks around it. -/
inductive Node.IsText : Node → Bytes → Prop where
  | mk {node : Node} {before octets after : Bytes} (blank : Blank before)
      (written : Node.Written node octets) (blankAfter : Blank after) :
      Node.IsText node (before ++ (octets ++ after))

/-- An array after its opening bracket. Nothing but an item may follow a comma. -/
inductive Items.Written : Items → Bytes → Prop where
  | empty {blanks : Bytes} (blank : Blank blanks) :
      Items.Written .close (blanks ++ [Sign.closeBracket])
  | last {head : Node} {octets : Bytes} (text : Node.IsText head octets) :
      Items.Written (.item head .close) (octets ++ [Sign.closeBracket])
  | more {head : Node} {tail : Items} {octets rest : Bytes} (text : Node.IsText head octets)
      (follows : tail ≠ .close) (written : Items.Written tail rest) :
      Items.Written (.item head tail) (octets ++ Sign.comma :: rest)

/-- An object after its opening brace. -/
inductive Members.Written : Members → Bytes → Prop where
  | empty {blanks : Bytes} (blank : Blank blanks) :
      Members.Written .close (blanks ++ [Sign.closeBrace])
  | last {name : Quoted} {value : Node} {nameOctets octets : Bytes}
      (named : name.IsText nameOctets) (text : Node.IsText value octets) :
      Members.Written (.member name value .close)
        (nameOctets ++ Sign.colon :: (octets ++ [Sign.closeBrace]))
  | more {name : Quoted} {value : Node} {tail : Members} {nameOctets octets rest : Bytes}
      (named : name.IsText nameOctets) (text : Node.IsText value octets) (follows : tail ≠ .close)
      (written : Members.Written tail rest) :
      Members.Written (.member name value tail)
        (nameOctets ++ Sign.colon :: (octets ++ Sign.comma :: rest))

end

end KeyCustody.Json
