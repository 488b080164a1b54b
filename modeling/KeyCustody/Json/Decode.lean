import KeyCustody.Json.Number

namespace KeyCustody.Json

/-! # What a document means

A reader walks the tree from left to right, and the first fault that it meets is the
answer. Parts that nobody asks for are skipped: they have to be JSON, but their strings
need not be text and their numbers may be of any size. -/

def isLeadingSurrogate (code : Nat) : Bool := 0xD800 ≤ code && code ≤ 0xDBFF

def isTrailingSurrogate (code : Nat) : Bool := 0xDC00 ≤ code && code ≤ 0xDFFF

/-- The octets that the marks stand for. Surrogates have to come in pairs. -/
def markOctets (fault : Option Fault) : List Mark → Except Fault Bytes
  | [] => match fault with
      | none => .ok []
      | some fault => .error fault
  | .octet value :: rest => do pure (value :: (← markOctets fault rest))
  | .unit code :: rest =>
      if isTrailingSurrogate code then .error .malformed
      else if isLeadingSurrogate code then
        match rest with
        | .unit low :: rest =>
            if isTrailingSurrogate low then do
              let point := 0x10000 + (code - 0xD800) * 0x400 + (low - 0xDC00)
              pure (Text.Utf8.encodeChar (Char.ofNat point) ++ (← markOctets fault rest))
            else .error .malformed
        | .octet _ :: _ => .error .malformed
        | [] => .error (fault.getD .malformed)
      else do pure (Text.Utf8.encodeChar (Char.ofNat code) ++ (← markOctets fault rest))

/-- The text of a string. -/
def Quoted.text (quoted : Quoted) : Except Fault String := do
  match Text.ofOctets? (← markOctets quoted.fault quoted.marks) with
  | some text => pure text
  | none => .error .malformed

def Quoted.skip (quoted : Quoted) : Except Fault Unit :=
  match quoted.fault with
  | none => .ok ()
  | some fault => .error fault

mutual

/-- Passes over a value. A number that lacks a digit is no JSON, wherever it ends. -/
def Node.skip : Node → Except Fault Unit
  | .null => .ok ()
  | .boolean _ => .ok ()
  | .number _ => .ok ()
  | .brokenNumber _ => .error .malformed
  | .text quoted => quoted.skip
  | .array items => items.skip
  | .object members => members.skip
  | .broken fault => .error fault

def Items.skip : Items → Except Fault Unit
  | .close => .ok ()
  | .broken fault => .error fault
  | .item head tail => do head.skip; tail.skip

def Members.skip : Members → Except Fault Unit
  | .close => .ok ()
  | .broken fault => .error fault
  | .member name value tail => do name.skip; value.skip; tail.skip

end

mutual

/-- The value of a tree that holds at most `depth` arrays and objects within each other. -/
def Node.value (depth : Nat) : Node → Except Fault Json
  | .null => .ok .null
  | .boolean value => .ok (.boolean value)
  | .number numeral =>
      match numeral.value? with
      | some found => .ok (.number found)
      | none => .error .malformed
  | .brokenNumber fault => .error fault
  | .text quoted => do pure (.text (← quoted.text))
  | .array items =>
      match depth with
      | 0 => .error .malformed
      | depth + 1 => do pure (.array (← items.values depth))
  | .object members =>
      match depth with
      | 0 => .error .malformed
      | depth + 1 => do pure (sortedObject (← members.values depth))
  | .broken fault => .error fault

def Items.values (depth : Nat) : Items → Except Fault (List Json)
  | .close => .ok []
  | .broken fault => .error fault
  | .item head tail => do
      let value ← head.value depth
      pure (value :: (← tail.values depth))

def Members.values (depth : Nat) : Members → Except Fault (List (String × Json))
  | .close => .ok []
  | .broken fault => .error fault
  | .member name value tail => do
      let name ← name.text
      let value ← value.value depth
      pure ((name, value) :: (← tail.values depth))

end

/-- Arrays and objects may lie within each other this deep where a value is kept. -/
def depthLimit : Nat := 127

/-- A way of reading a tree. -/
abbrev Reader (α : Type) := Node → Except Fault α

/-- The fault of a tree that is not of the shape asked. A string or a number is read to its
end first; an array or an object is of another shape from its first octet on. -/
def Node.refusal : Node → Fault
  | .number numeral => if numeral.value?.isSome then .mismatch else .malformed
  | .brokenNumber fault => fault
  | .text quoted =>
      match quoted.text with
      | .ok _ => .mismatch
      | .error fault => fault
  | .broken fault => fault
  | _ => .mismatch

namespace Reader

def text : Reader String
  | .text quoted => quoted.text
  | other => .error other.refusal

/-- A whole number of 64 bits that is not negative. -/
def natural : Reader Nat
  | .number numeral =>
      match numeral.value? with
      | some (.integer value) => if 0 ≤ value then .ok value.toNat else .error .mismatch
      | some (.real _ _) => .error .mismatch
      | none => .error .malformed
  | other => .error other.refusal

/-- Nothing for `null`. -/
def optional (read : Reader α) : Reader (Option α)
  | .null => .ok none
  | other => (read other).map some

def Items.list (read : Reader α) : Items → Except Fault (List α)
  | .close => .ok []
  | .broken fault => .error fault
  | .item head tail => do
      let value ← read head
      pure (value :: (← Items.list read tail))

def list (read : Reader α) : Reader (List α)
  | .array items => Items.list read items
  | other => .error other.refusal

end Reader

/-- A member that a record may have: its name, whether it has to be there, and how its value
goes into a record of type `σ`. -/
structure Slot (σ : Type) where
  name : String
  required : Bool
  set : Node → σ → Except Fault σ

namespace Slot

/-- A member that takes the place of a default. -/
def may (name : String) (read : Reader α) (put : α → σ → σ) : Slot σ :=
  ⟨name, false, fun node record => (read node).map fun value => put value record⟩

/-- A member without which there is no record. -/
def must (name : String) (read : Reader α) (put : α → σ → σ) : Slot σ :=
  ⟨name, true, fun node record => (read node).map fun value => put value record⟩

end Slot

/-- Takes the members of an object into a record. A known member may come once; an unknown
one is skipped; the required ones have to be there at the end. -/
def Members.fill (fields : List (Slot σ)) (seen : List String) (record : σ) :
    Members → Except Fault σ
  | .close =>
      if fields.all fun field => !field.required || seen.contains field.name then .ok record
      else .error .mismatch
  | .broken fault => .error fault
  | .member name value tail => do
      let name ← name.text
      match fields.find? fun field => field.name == name with
      | none =>
          value.skip
          tail.fill fields seen record
      | some field =>
          if seen.contains name then .error .mismatch
          else
            let record ← field.set value record
            tail.fill fields (name :: seen) record

/-- Takes the items of an array into a record, one for each member in order. Members left
over at the end must not be required, and no item may be left over. -/
def Items.fill (record : σ) : List (Slot σ) → Items → Except Fault σ
  | [], .close => .ok record
  | [], .item _ _ => .error .malformed
  | fields@(_ :: _), .close =>
      if fields.any fun field => field.required then .error .mismatch else .ok record
  | field :: fields, .item head tail => do
      let record ← field.set head record
      tail.fill record fields
  | _, .broken fault => .error fault

/-- Reads a record, which starts as `blank`, from an object or from an array. -/
def Reader.record (fields : List (Slot σ)) (blank : σ) : Reader σ
  | .object members => members.fill fields [] blank
  | .array items => items.fill blank fields
  | other => .error other.refusal

/-- Reads a text that holds one value and nothing else. -/
def Reader.run (read : Reader α) (octets : Bytes) : Except Fault α := do
  let document := Document.read octets
  let value ← read document.root
  if document.trailing then .error .malformed else pure value

/-- The value of a text. -/
def parse (octets : Bytes) : Except Fault Json :=
  Reader.run (Node.value depthLimit) octets

end KeyCustody.Json
