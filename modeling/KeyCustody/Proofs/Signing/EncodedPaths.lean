import Mathlib.Data.List.Forall2
import KeyCustody.Proofs.Signing.Percent
import KeyCustody.Proofs.Text.Fields
import KeyCustody.Proofs.Url.Path

namespace KeyCustody.Signing.Percent

/-! # What stands in an encoded path

Unreserved characters and slashes stand for themselves, and all else is written in octets of two
uppercase digits. The slashes cut an encoded path into the encodings of the segments of the path. -/

variable {c : Char} {text other : List Char}

def isUpperHex (c : Char) : Bool := c.isDigit || ['A', 'B', 'C', 'D', 'E', 'F'].contains c

/-- The texts that an encoder may write. -/
inductive Encoded : List Char → Prop where
  | nil : Encoded []
  | plain {c : Char} {rest : List Char} (unreserved : Url.isUnreserved c) (encoded : Encoded rest) :
      Encoded (c :: rest)
  | slash {rest : List Char} (encoded : Encoded rest) : Encoded ('/' :: rest)
  | octet {high low : Char} {rest : List Char} (highDigit : isUpperHex high)
      (lowDigit : isUpperHex low) (encoded : Encoded rest) : Encoded ('%' :: high :: low :: rest)

theorem Encoded.append (encoded : Encoded text) (rest : Encoded other) : Encoded (text ++ other) := by
  induction encoded with
  | nil => exact rest
  | plain unreserved _ induction => exact .plain unreserved induction
  | slash _ induction => exact .slash induction
  | octet highDigit lowDigit _ induction => exact .octet highDigit lowDigit induction

theorem Encoded.flatMap {α : Type} {items : List α} {encode : α → List Char}
    (each : ∀ item ∈ items, Encoded (encode item)) : Encoded (items.flatMap encode) := by
  induction items with
  | nil => exact .nil
  | cons item items induction =>
      rw [List.forall_mem_cons] at each
      exact each.1.append (induction each.2)

theorem isUpperHex_digit {value : Nat} (bound : value < 16) : isUpperHex (digit value) := by
  have each : ∀ value < 16, isUpperHex (digit value) := by decide
  exact each value bound

theorem encoded_encodeOctet (octet : UInt8) : Encoded (encodeOctet octet) := by
  have bound := octet.toNat_lt
  rw [encodeOctet]
  split
  · rename_i unreserved
    have plain : Percent.isUnreserved octet → Url.isUnreserved (Char.ofNat octet.toNat) :=
      octet_cases (P := fun octet => Percent.isUnreserved octet →
        Url.isUnreserved (Char.ofNat octet.toNat)) (by decide +kernel) octet
    exact .plain (plain unreserved) .nil
  · exact .octet (isUpperHex_digit (by omega)) (isUpperHex_digit (by omega)) .nil

theorem encoded_encodeStep (c : Char) : Encoded (encodeStep c) := by
  rw [encodeStep]
  split
  · exact .slash .nil
  · exact .flatMap fun octet _ => encoded_encodeOctet octet

theorem encoded_encodePath (path : List Char) : Encoded (encodePath path) := by
  rw [encodePath_eq_flatMap]
  exact .flatMap fun c _ => encoded_encodeStep c

theorem decode?_encodeSegment (segment : List Char) :
    decode? (encodeSegment segment) = some (Text.Utf8.encode segment) := by
  have decoded := decode?_flatMap_append (Text.Utf8.encode segment) []
  rw [List.append_nil] at decoded
  rw [encodeSegment, decoded, decode?, Option.map_some, List.append_nil]

theorem fields_encodePath (path : List Char) :
    Text.fields '/' (encodePath path) = (Text.fields '/' path).map encodeSegment := by
  rw [encodePath, Text.fields_joinFields (mt List.map_eq_nil_iff.mp (Text.fields_ne_nil '/' path))]
  intro piece member slash
  obtain ⟨segment, -, rfl⟩ := List.mem_map.mp member
  exact (sign_of_mem_encodeSegment slash).1 rfl

theorem encodeStep_eq_self_iff : encodeStep c = [c] ↔ Url.isUnreserved c ∨ c = '/' := by
  constructor
  · intro same
    have encoded := encoded_encodeStep c
    rw [same] at encoded
    cases encoded with
    | plain unreserved _ => exact .inl unreserved
    | slash _ => exact .inr rfl
  · intro plain
    rw [encodeStep]
    split
    · rename_i slash
      rw [slash]
    · rename_i noSlash
      exact Url.unreserved_cases (P := fun c => encodeSegment [c] = [c])
        (plain.resolve_right noSlash) (by decide +kernel)

theorem encodeStep_ne_nil (c : Char) : encodeStep c ≠ [] := by
  rw [encodeStep]
  split
  · exact List.cons_ne_nil _ _
  · exact encodeSegment_ne_nil c

theorem encodePath_cons (c : Char) (rest : List Char) :
    encodePath (c :: rest) = encodeStep c ++ encodePath rest := by
  rw [encodePath_eq_flatMap, encodePath_eq_flatMap, List.flatMap_cons]

theorem length_le_encodePath (path : List Char) : path.length ≤ (encodePath path).length := by
  induction path with
  | nil => exact Nat.zero_le _
  | cons c rest induction =>
      have step := List.length_pos_iff.mpr (encodeStep_ne_nil c)
      rw [encodePath_cons, List.length_append, List.length_cons]
      omega

theorem encodePath_cons_eq_self_iff (c : Char) (rest : List Char) :
    encodePath (c :: rest) = c :: rest ↔ encodeStep c = [c] ∧ encodePath rest = rest := by
  rw [encodePath_cons]
  constructor
  · intro same
    -- Nothing is written shorter than it was, so nothing may be written longer.
    have lengths := congrArg List.length same
    have later := length_le_encodePath rest
    have step := List.length_pos_iff.mpr (encodeStep_ne_nil c)
    rw [List.length_append, List.length_cons] at lengths
    have one : (encodeStep c).length = 1 := by omega
    obtain ⟨d, single⟩ := List.length_eq_one_iff.mp one
    rw [single, List.singleton_append, List.cons.injEq] at same
    exact ⟨single.trans (by rw [same.1]), same.2⟩
  · rintro ⟨step, later⟩
    rw [step, later, List.singleton_append]

theorem encodePath_eq_self_iff (path : List Char) :
    encodePath path = path ↔ ∀ c ∈ path, Url.isUnreserved c ∨ c = '/' := by
  induction path with
  | nil => simp [show encodePath [] = [] from rfl]
  | cons c rest induction =>
      rw [encodePath_cons_eq_self_iff, encodeStep_eq_self_iff, induction, List.forall_mem_cons]

/-- An encoded path is made of nothing but unreserved characters, slashes and octets in two uppercase
digits, and is decoded to the octets of the path. Its pieces between slashes are decoded to the
segments of the path, one by one. No other paths stay as they are than those of unreserved
characters and slashes. -/
theorem encoding_reversible (path : List Char) :
    Encoded (encodePath path) ∧
    decode? (encodePath path) = some (Text.Utf8.encode path) ∧
    List.Forall₂ (fun piece segment => decode? piece = some (Text.Utf8.encode segment))
      (Text.fields '/' (encodePath path)) (Text.fields '/' path) ∧
    (encodePath path = path ↔ ∀ c ∈ path, Url.isUnreserved c ∨ c = '/') := by
  refine ⟨encoded_encodePath path, decode?_encodePath path, ?_, encodePath_eq_self_iff path⟩
  rw [fields_encodePath, List.forall₂_map_left_iff]
  exact List.forall₂_same.mpr fun segment _ => decode?_encodeSegment segment

end KeyCustody.Signing.Percent
