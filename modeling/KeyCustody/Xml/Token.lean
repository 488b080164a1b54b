import KeyCustody.Text.Split

namespace KeyCustody.Xml

/-! # XML as a list of tokens

A document is cut into the starts and ends of elements, the text between them, and the rest,
which has no bearing on the content. Where it stops being XML the list breaks off. That
elements nest is not asked of it here. -/

/-- A name with the part before its colon. -/
structure Name where
  space : String
  own : String
  deriving DecidableEq, Repr

inductive Token where
  /-- The start of an element. One that ends at once is complete. -/
  | element (name : Name) (complete : Bool)
  | close (name : Name)
  /-- Text as written. -/
  | text (raw : List Char)
  | other
  | broken
  deriving DecidableEq, Repr

def isSpace (c : Char) : Bool := c = ' ' || c = '\t' || c = '\n' || c = '\r'

def skipSpace (text : List Char) : List Char := text.dropWhile isSpace

/-- Characters that a document may hold. -/
def isChar (c : Char) : Bool :=
  isSpace c || (0x20 ≤ c.toNat && c.toNat != 0xFFFE && c.toNat != 0xFFFF)

def startsName (c : Char) : Bool := c.isAlpha || c = '_' || 0xBF < c.toNat

def isNameChar (c : Char) : Bool :=
  startsName c || c.isDigit || c = '-' || c = '.' || c.toNat = 0xB7

/-- A part of a name. -/
def namePart (text : List Char) : Option (String × List Char) :=
  match text with
  | [] => none
  | c :: _ =>
      if startsName c then
        some (String.ofList (text.takeWhile isNameChar), text.dropWhile isNameChar)
      else none

def name? (text : List Char) : Option (Name × List Char) := do
  let (first, rest) ← namePart text
  match rest with
  | ':' :: rest => do
      let (own, rest) ← namePart rest
      pure (⟨first, own⟩, rest)
  | rest => pure (⟨"", first⟩, rest)

/-- The text after a value in quotes, which holds no start of markup. -/
def afterValue (text : List Char) : Option (List Char) :=
  match text with
  | quote :: rest =>
      if quote = '"' ∨ quote = '\'' then
        let stops (c : Char) : Bool := c = quote || c = '<'
        let value := rest.takeWhile fun c => !stops c
        match rest.dropWhile fun c => !stops c with
        | c :: rest => if c = quote ∧ value.all isChar then some rest else none
        | [] => none
      else none
  | [] => none

/-- The rest of the start of an element: whether it is complete, and what follows. The count
bounds the number of attributes. -/
def afterAttributes : Nat → List Char → Option (Bool × List Char)
  | 0, _ => none
  | fuel + 1, text =>
      match skipSpace text with
      | '/' :: '>' :: rest => some (true, rest)
      | '>' :: rest => some (false, rest)
      | field => do
          if field.length = text.length then none
          else
            let (_, rest) ← name? field
            match skipSpace rest with
            | '=' :: rest => afterAttributes fuel (← afterValue (skipSpace rest))
            | _ => none

/-- The text after the sign that ends an inner part, which must hold characters only. -/
def afterMark (mark : String) (text : List Char) : Option (List Char × List Char) := do
  let (inner, rest) ← Text.breakAt mark.toList text
  if inner.all isChar then some (inner, rest) else none

/-- Where a document is: before its outermost element, within elements, or after them. -/
inductive Stage where
  | before
  | within (depth : Nat)
  | after
  deriving DecidableEq, Repr

/-- The stage after an element was opened. -/
def Stage.opened (stage : Stage) (complete : Bool) : Stage :=
  match stage, complete with
  | .within depth, false => .within (depth + 1)
  | .within depth, true => .within depth
  | _, false => .within 1
  | _, true => .after

def Stage.closed : Stage → Stage
  | .within depth => if depth ≤ 1 then .after else .within (depth - 1)
  | other => other

def isWithin : Stage → Bool
  | .within _ => true
  | _ => false

/-- A comment, a passage of plain characters, or an instruction. -/
def aside (stage : Stage) (text : List Char) : Option (List Char) :=
  match text with
  | '<' :: '!' :: '-' :: '-' :: rest => do
      let (inner, rest) ← afterMark "--" rest
      match rest with
      | '>' :: rest => if inner.getLast? = some '-' then none else some rest
      | _ => none
  | '<' :: '!' :: '[' :: 'C' :: 'D' :: 'A' :: 'T' :: 'A' :: '[' :: rest =>
      if isWithin stage then (afterMark "]]>" rest).map Prod.snd else none
  | '<' :: '?' :: rest => do
      let (target, _) ← name? rest
      if target.own = "xml" then none else (afterMark "?>" rest).map Prod.snd
  | _ => none

/-- One token at the front: the token, the stage after it and the rest. -/
def token? (stage : Stage) (text : List Char) : Option (Token × Stage × List Char) :=
  match text with
  | '<' :: '/' :: rest =>
      if isWithin stage then do
        let (name, rest) ← name? rest
        match skipSpace rest with
        | '>' :: rest => some (.close name, stage.closed, rest)
        | _ => none
      else none
  | '<' :: '!' :: _ => (aside stage text).map fun rest => (.other, stage, rest)
  | '<' :: '?' :: _ => (aside stage text).map fun rest => (.other, stage, rest)
  | '<' :: rest =>
      if stage = .after then none
      else do
        let (name, rest) ← name? rest
        let (complete, rest) ← afterAttributes rest.length rest
        some (.element name complete, stage.opened complete, rest)
  | text =>
      if isWithin stage then
        let raw := text.takeWhile (· ≠ '<')
        if raw.all isChar ∧ (Text.breakAt "]]>".toList raw).isNone then
          some (.text raw, stage, text.dropWhile (· ≠ '<'))
        else none
      else if (skipSpace text).length < text.length then some (.other, stage, skipSpace text)
      else none

/-- Reads tokens until the text ends or breaks. The count bounds their number. -/
def tokensFrom : Nat → Stage → List Char → List Token
  | 0, _, _ => []
  | _ + 1, _, [] => []
  | fuel + 1, stage, text =>
      match token? stage text with
      | none => [.broken]
      | some (token, stage, rest) => token :: tokensFrom fuel stage rest

/-- The text after the declaration at its front, if there is one. -/
def afterDeclaration (text : List Char) : Option (List Char) :=
  match "<?xml ".toList.isPrefixOf? text with
  | none => some text
  | some rest => do
      let (inner, rest) ← afterMark "?>" rest
      if "version".toList.isPrefixOf (skipSpace inner) then some rest else none

/-- The tokens of a document. -/
def tokens (text : List Char) : List Token :=
  let content := if text.head? = some '\uFEFF' then text.tail else text
  match afterDeclaration content with
  | none => [.broken]
  | some body => tokensFrom body.length .before body

end KeyCustody.Xml
