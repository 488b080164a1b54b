import KeyCustody.Text.Utf8

namespace KeyCustody.Json

/-! # JSON text as it stands

Reading never fails: where the text stops being JSON, the tree holds the fault and
nothing after it. What a text means depends on what is asked of it, since a part that
nobody asks for needs less than a part that is used (a skipped string may hold half a
surrogate pair, a skipped number may be of any size). So strings and numbers are kept as
written, and whoever walks the tree from left to right meets the first fault first. -/

/-- How a text or a value fails: it is not JSON, it ends early, or it is JSON of another
shape than asked. -/
inductive Fault where
  | malformed
  | truncated
  | mismatch
  deriving DecidableEq, Repr

/-- One step of a string as written: an octet that stands for itself or a short escape,
or a four-digit escape. -/
inductive Mark where
  | octet (value : UInt8)
  | unit (code : Nat)
  deriving DecidableEq, Repr

/-- A string as written, and the fault that it ends in, if it does not end in a quote. -/
structure Quoted where
  marks : List Mark
  fault : Option Fault
  deriving DecidableEq, Repr

/-- A number as written, which is whole if it has neither fraction nor exponent. -/
structure Numeral where
  negative : Bool
  whole : List Nat
  fraction : List Nat
  /-- The sign and the digits of the exponent, if there is one. -/
  exponent : Option (Bool × List Nat)
  isWhole : Bool
  deriving DecidableEq, Repr

mutual

inductive Node where
  | null
  | boolean (value : Bool)
  | number (numeral : Numeral)
  /-- A number that lacks a digit, with what follows it: nothing or something else. -/
  | brokenNumber (fault : Fault)
  | text (quoted : Quoted)
  | array (items : Items)
  | object (members : Members)
  | broken (fault : Fault)

inductive Items where
  | close
  | broken (fault : Fault)
  | item (head : Node) (tail : Items)

inductive Members where
  | close
  | broken (fault : Fault)
  | member (name : Quoted) (value : Node) (tail : Members)

end

/-- A text read as one value, and whether anything but blanks follows it. -/
structure Document where
  root : Node
  trailing : Bool

namespace Sign

def quote : UInt8 := 0x22
def backslash : UInt8 := 0x5C
def comma : UInt8 := 0x2C
def colon : UInt8 := 0x3A
def openBracket : UInt8 := 0x5B
def closeBracket : UInt8 := 0x5D
def openBrace : UInt8 := 0x7B
def closeBrace : UInt8 := 0x7D
def minus : UInt8 := 0x2D
def plus : UInt8 := 0x2B
def point : UInt8 := 0x2E
def letterU : UInt8 := 0x75

end Sign

def isSpace (octet : UInt8) : Bool :=
  octet = 0x20 || octet = 0x0A || octet = 0x09 || octet = 0x0D

def skipSpace (octets : Bytes) : Bytes := octets.dropWhile isSpace

def digit? (octet : UInt8) : Option Nat :=
  if 0x30 ≤ octet ∧ octet ≤ 0x39 then some (octet.toNat - 0x30) else none

def hexDigit? (octet : UInt8) : Option Nat :=
  if 0x30 ≤ octet ∧ octet ≤ 0x39 then some (octet.toNat - 0x30)
  else if 0x41 ≤ octet ∧ octet ≤ 0x46 then some (octet.toNat - 0x37)
  else if 0x61 ≤ octet ∧ octet ≤ 0x66 then some (octet.toNat - 0x57)
  else none

/-- The octet that a short escape stands for. -/
def shortEscape? (octet : UInt8) : Option UInt8 :=
  if octet = Sign.quote ∨ octet = Sign.backslash ∨ octet = 0x2F then some octet
  else if octet = 0x62 then some 0x08
  else if octet = 0x66 then some 0x0C
  else if octet = 0x6E then some 0x0A
  else if octet = 0x72 then some 0x0D
  else if octet = 0x74 then some 0x09
  else none

/-- The digits at the front, and the rest. -/
def digits : Bytes → List Nat × Bytes
  | [] => ([], [])
  | octet :: rest =>
      match digit? octet with
      | some value => let (values, after) := digits rest; (value :: values, after)
      | none => ([], octet :: rest)

/-- The fault of a text that breaks off or goes on with something else. -/
def faultAt : Bytes → Fault
  | [] => .truncated
  | _ :: _ => .malformed

/-- Adds a mark in front of a string read further on. -/
def Quoted.cons (mark : Mark) (read : Quoted × Bytes) : Quoted × Bytes :=
  ({ read.1 with marks := mark :: read.1.marks }, read.2)

/-- The code of a four-digit escape. -/
def unit? (a b c d : UInt8) : Option Nat := do
  pure ((((← hexDigit? a) * 16 + (← hexDigit? b)) * 16 + (← hexDigit? c)) * 16 + (← hexDigit? d))

/-- Reads a string after its opening quote. A four-digit escape needs four octets before
the text ends, whatever they are. -/
def readQuoted : Bytes → Quoted × Bytes
  | [] => (⟨[], some .truncated⟩, [])
  | octet :: rest =>
      if octet = Sign.quote then (⟨[], none⟩, rest)
      else if octet = Sign.backslash then
        match rest with
        | [] => (⟨[], some .truncated⟩, [])
        | letter :: rest =>
            if letter = Sign.letterU then
              match rest with
              | a :: b :: c :: d :: rest =>
                  match unit? a b c d with
                  | some code => Quoted.cons (.unit code) (readQuoted rest)
                  | none => (⟨[], some .malformed⟩, [])
              | _ => (⟨[], some .truncated⟩, [])
            else
              match shortEscape? letter with
              | some value => Quoted.cons (.octet value) (readQuoted rest)
              | none => (⟨[], some .malformed⟩, [])
      else if octet < 0x20 then (⟨[], some .malformed⟩, [])
      else Quoted.cons (.octet octet) (readQuoted rest)

/-- Whether an exponent is negative, and what follows its sign. -/
def exponentSign : Bytes → Bool × Bytes
  | [] => (false, [])
  | octet :: rest =>
      if octet = Sign.plus then (false, rest)
      else if octet = Sign.minus then (true, rest)
      else (false, octet :: rest)

/-- Reads the exponent of a number, from its letter on. -/
def readExponent (numeral : Numeral) (octets : Bytes) : Node × Bytes :=
  match octets with
  | [] => (.number numeral, [])
  | letter :: rest =>
      if letter = 0x65 ∨ letter = 0x45 then
        let (negative, unsigned) := exponentSign rest
        match digits unsigned with
        | ([], after) => (.brokenNumber (faultAt after), [])
        | (values, after) =>
            (.number { numeral with exponent := some (negative, values), isWhole := false },
              after)
      else (.number numeral, octets)

/-- Reads the fraction and the exponent of a number, from the point on. -/
def readFraction (numeral : Numeral) (octets : Bytes) : Node × Bytes :=
  match octets with
  | [] => readExponent numeral []
  | octet :: rest =>
      if octet = Sign.point then
        match digits rest with
        | ([], after) => (.brokenNumber (faultAt after), [])
        | (values, after) =>
            readExponent { numeral with fraction := values, isWhole := false } after
      else readExponent numeral octets

/-- Reads a number after its sign. A leading zero stands alone. -/
def readNumber (negative : Bool) (octets : Bytes) : Node × Bytes :=
  match digits octets with
  | ([], after) => (.brokenNumber (faultAt after), [])
  | (0 :: _ :: _, _) => (.broken .malformed, [])
  | (values, after) => readFraction ⟨negative, values, [], none, true⟩ after

/-- Reads the rest of a word such as `true`. -/
def readWord (word : Bytes) (node : Node) (octets : Bytes) : Node × Bytes :=
  match word, octets with
  | [], _ => (node, octets)
  | _ :: _, [] => (.broken .truncated, [])
  | expected :: word, octet :: rest =>
      if octet = expected then readWord word node rest else (.broken .malformed, [])

mutual

/-- Reads one value. The count bounds the nesting of the three readers; an octet is read
in every third of them at least, so three times the length of the text is enough. -/
def readNode : Nat → Bytes → Node × Bytes
  | 0, _ => (.broken .truncated, [])
  | fuel + 1, octets =>
      match skipSpace octets with
      | [] => (.broken .truncated, [])
      | octet :: rest =>
          if octet = Sign.quote then
            let (quoted, after) := readQuoted rest
            (.text quoted, after)
          else if octet = Sign.openBracket then
            let (items, after) := readArray fuel rest
            (.array items, after)
          else if octet = Sign.openBrace then
            let (members, after) := readObject fuel rest
            (.object members, after)
          else if octet = Sign.minus then readNumber true rest
          else if octet = 0x6E then readWord [0x75, 0x6C, 0x6C] .null rest
          else if octet = 0x74 then readWord [0x72, 0x75, 0x65] (.boolean true) rest
          else if octet = 0x66 then readWord [0x61, 0x6C, 0x73, 0x65] (.boolean false) rest
          else
            match digit? octet with
            | some _ => readNumber false (octet :: rest)
            | none => (.broken .malformed, [])

/-- Reads an array after its opening bracket. -/
def readArray : Nat → Bytes → Items × Bytes
  | 0, _ => (.broken .truncated, [])
  | fuel + 1, octets =>
      match skipSpace octets with
      | [] => (.broken .truncated, [])
      | octet :: rest =>
          if octet = Sign.closeBracket then (.close, rest) else readItems fuel (octet :: rest)

/-- Reads an item and what follows it in an array. -/
def readItems : Nat → Bytes → Items × Bytes
  | 0, _ => (.broken .truncated, [])
  | fuel + 1, octets =>
      let (head, after) := readNode fuel octets
      match skipSpace after with
      | [] => (.item head (.broken .truncated), [])
      | octet :: rest =>
          if octet = Sign.closeBracket then (.item head .close, rest)
          else if octet = Sign.comma then
            let (tail, after) := readItems fuel rest
            (.item head tail, after)
          else (.item head (.broken .malformed), [])

/-- Reads an object after its opening brace. -/
def readObject : Nat → Bytes → Members × Bytes
  | 0, _ => (.broken .truncated, [])
  | fuel + 1, octets =>
      match skipSpace octets with
      | [] => (.broken .truncated, [])
      | octet :: rest =>
          if octet = Sign.closeBrace then (.close, rest) else readMembers fuel (octet :: rest)

/-- Reads a member and what follows it in an object. -/
def readMembers : Nat → Bytes → Members × Bytes
  | 0, _ => (.broken .truncated, [])
  | fuel + 1, octets =>
      match skipSpace octets with
      | [] => (.broken .truncated, [])
      | octet :: rest =>
          if octet = Sign.quote then
            let (name, after) := readQuoted rest
            match skipSpace after with
            | [] => (.member name (.broken .truncated) (.broken .truncated), [])
            | octet :: rest =>
                if octet = Sign.colon then
                  let (value, after) := readNode fuel rest
                  match skipSpace after with
                  | [] => (.member name value (.broken .truncated), [])
                  | octet :: rest =>
                      if octet = Sign.closeBrace then (.member name value .close, rest)
                      else if octet = Sign.comma then
                        let (tail, after) := readMembers fuel rest
                        (.member name value tail, after)
                      else (.member name value (.broken .malformed), [])
                else (.member name (.broken .malformed) (.broken .malformed), [])
          else (.broken .malformed, [])

end

/-- Reads a text as one value. -/
def Document.read (octets : Bytes) : Document :=
  let (root, after) := readNode (3 * octets.length + 3) octets
  ⟨root, !(skipSpace after).isEmpty⟩

end KeyCustody.Json
