import KeyCustody.Proofs.Text.Order
import KeyCustody.Signing.Percent

namespace KeyCustody.Signing.Percent

/-! # Encoded paths

A path is encoded character by character, and its slashes alone are written as slashes. What is
encoded can be decoded, so no two paths are encoded alike. -/

theorem value?_digit {value : Nat} (bound : value < 16) :
    Text.Hex.value? (digit value) = some value := by
  have each : ∀ value < 16, Text.Hex.value? (digit value) = some value := by decide
  exact each value bound

/-- What holds of every number below 256 as an octet holds of all octets. -/
theorem octet_cases {P : UInt8 → Prop} (holds : ∀ code < 256, P code.toUInt8) (octet : UInt8) :
    P octet := by
  have found := holds octet.toNat octet.toNat_lt
  simpa using found

theorem encodeChar_of_unreserved (octet : UInt8) : isUnreserved octet →
    Char.ofNat octet.toNat ≠ '%' ∧ Text.Utf8.encodeChar (Char.ofNat octet.toNat) = [octet] :=
  octet_cases (P := fun octet => isUnreserved octet →
    Char.ofNat octet.toNat ≠ '%' ∧ Text.Utf8.encodeChar (Char.ofNat octet.toNat) = [octet])
    (by decide +kernel) octet

theorem decode?_cons {c : Char} (plain : c ≠ '%') (rest : List Char) :
    decode? (c :: rest) = (decode? rest).map (Text.Utf8.encodeChar c ++ ·) := by
  rw [decode?]
  · cases decode? rest <;> rfl
  · rintro high low later rfl
    exact absurd rfl plain
  · exact plain

theorem decode?_encodeOctet_append (octet : UInt8) (rest : List Char) :
    decode? (encodeOctet octet ++ rest) = (decode? rest).map (octet :: ·) := by
  rw [encodeOctet]
  split
  · rename_i unreserved
    obtain ⟨plain, itself⟩ := encodeChar_of_unreserved octet unreserved
    rw [List.singleton_append, decode?_cons plain, itself]
    rfl
  · have bound := octet.toNat_lt
    have whole : (octet.toNat / 16 * 16 + octet.toNat % 16).toUInt8 = octet := by
      rw [Nat.div_add_mod']
      simp
    rw [List.cons_append, List.cons_append, List.singleton_append, decode?,
      value?_digit (by omega), value?_digit (by omega)]
    simp only [Option.bind_eq_bind, Option.bind_some, whole]
    cases decode? rest <;> rfl

theorem decode?_flatMap_append (octets : Bytes) (rest : List Char) :
    decode? (octets.flatMap encodeOctet ++ rest) = (decode? rest).map (octets ++ ·) := by
  induction octets with
  | nil => simp
  | cons octet octets induction =>
      rw [List.flatMap_cons, List.append_assoc, decode?_encodeOctet_append, induction,
        Option.map_map]
      rfl

def encodeStep (c : Char) : List Char := if c = '/' then ['/'] else encodeSegment [c]

theorem joinFields_append (front piece : List Char) (pieces : List (List Char)) :
    Text.joinFields '/' ((front ++ piece) :: pieces) =
      front ++ Text.joinFields '/' (piece :: pieces) := by
  cases pieces with
  | nil => rfl
  | cons next others => simp [Text.joinFields]

theorem encodePath_eq_flatMap (path : List Char) : encodePath path = path.flatMap encodeStep := by
  induction path with
  | nil => rfl
  | cons c rest induction =>
      obtain ⟨piece, pieces, cut⟩ := List.exists_cons_of_ne_nil (Text.fields_ne_nil '/' rest)
      rw [List.flatMap_cons, ← induction, encodePath, encodePath, Text.fields, encodeStep, cut]
      split
      · rfl
      · have split : encodeSegment (c :: piece) = encodeSegment [c] ++ encodeSegment piece := by
          simp [encodeSegment, Text.Utf8.encode]
        rw [List.map_cons, split]
        exact joinFields_append _ _ _

theorem encodePath_append (front rest : List Char) :
    encodePath (front ++ rest) = encodePath front ++ encodePath rest := by
  simp [encodePath_eq_flatMap]

theorem decode?_encodePath (path : List Char) :
    decode? (encodePath path) = some (Text.Utf8.encode path) := by
  rw [encodePath_eq_flatMap]
  induction path with
  | nil => rfl
  | cons c rest induction =>
      rw [List.flatMap_cons, encodeStep]
      split
      · rename_i slash
        subst slash
        rw [List.singleton_append, decode?_cons (by decide), induction]
        rfl
      · rw [encodeSegment, decode?_flatMap_append, induction]
        simp [Text.Utf8.encode]

theorem encodePath_inj {path other : List Char} :
    encodePath path = encodePath other ↔ path = other := by
  refine ⟨fun same => ?_, congrArg encodePath⟩
  have decoded := congrArg decode? same
  rw [decode?_encodePath, decode?_encodePath, Option.some.injEq] at decoded
  exact Text.Utf8.encode_injective decoded

theorem encodeOctet_ne_nil (octet : UInt8) : encodeOctet octet ≠ [] := by
  rw [encodeOctet]
  split <;> exact List.cons_ne_nil _ _

/-- The encoding of an octet has neither slashes nor line feeds. -/
theorem sign_of_mem_encodeOctet {c : Char} {octet : UInt8} (member : c ∈ encodeOctet octet) :
    c ≠ '/' ∧ c ≠ '\n' := by
  rw [encodeOctet] at member
  split at member
  · rename_i unreserved
    have plain : isUnreserved octet →
        Char.ofNat octet.toNat ≠ '/' ∧ Char.ofNat octet.toNat ≠ '\n' :=
      octet_cases (P := fun octet => isUnreserved octet →
        Char.ofNat octet.toNat ≠ '/' ∧ Char.ofNat octet.toNat ≠ '\n') (by decide +kernel) octet
    rw [List.mem_singleton.mp member]
    exact plain unreserved
  · have digits : ∀ value < 16, digit value ≠ '/' ∧ digit value ≠ '\n' := by decide
    have bound := octet.toNat_lt
    simp only [List.mem_cons, List.not_mem_nil, or_false] at member
    rcases member with rfl | rfl | rfl
    · decide
    · exact digits _ (by omega)
    · exact digits _ (by omega)

theorem sign_of_mem_encodeSegment {c : Char} {segment : List Char}
    (member : c ∈ encodeSegment segment) : c ≠ '/' ∧ c ≠ '\n' := by
  obtain ⟨octet, -, inside⟩ := List.mem_flatMap.mp member
  exact sign_of_mem_encodeOctet inside

theorem encodeSegment_ne_nil (c : Char) : encodeSegment [c] ≠ [] := by
  obtain ⟨octet, octets, first⟩ := List.exists_cons_of_ne_nil (Text.Utf8.encodeChar_ne_nil c)
  simp [encodeSegment, Text.Utf8.encode, first, encodeOctet_ne_nil]

theorem newline_not_mem_encodePath (path : List Char) : '\n' ∉ encodePath path := by
  rw [encodePath_eq_flatMap]
  intro member
  obtain ⟨c, -, inside⟩ := List.mem_flatMap.mp member
  rw [encodeStep] at inside
  split at inside
  · simp at inside
  · exact (sign_of_mem_encodeSegment inside).2 rfl

theorem getLast?_encodePath (path : List Char) :
    (encodePath path).getLast? = some '/' ↔ path.getLast? = some '/' := by
  rcases List.eq_nil_or_concat path with rfl | ⟨front, c, rfl⟩
  · rfl
  · rw [List.concat_eq_append, List.getLast?_concat, encodePath_append, encodePath_eq_flatMap [c],
      List.flatMap_singleton, encodeStep]
    split
    · rename_i slash
      simp [slash]
    · rename_i solid
      obtain ⟨others, last, shape⟩ :=
        (List.eq_nil_or_concat (encodeSegment [c])).resolve_left (encodeSegment_ne_nil c)
      have sign : last ≠ '/' := by
        have member : last ∈ encodeSegment [c] := by simp [shape]
        exact (sign_of_mem_encodeSegment member).1
      rw [shape, List.concat_eq_append, ← List.append_assoc, List.getLast?_concat]
      simp [sign, solid]

end KeyCustody.Signing.Percent
