import KeyCustody.Text.Natural

namespace KeyCustody.Text

/-! # Numbers as they are written -/

/-- One or more decimal digits after at most one plus sign, with their value. -/
def Numeral (text : List Char) (value : Nat) : Prop :=
  ∃ digits ≠ [], (∀ c ∈ digits, c.isDigit) ∧ (text = digits ∨ text = '+' :: digits) ∧
    value = Nat.ofDigitChars 10 digits 0

theorem digitValue?_eq (c : Char) :
    digitValue? c = if c.isDigit then some (c.toNat - 48) else none := by
  have same : ('0' ≤ c ∧ c ≤ '9') ↔ c.isDigit = true := by
    rw [Char.isDigit, Bool.and_eq_true, decide_eq_true_iff, decide_eq_true_iff]
    exact Iff.rfl
  rw [digitValue?]
  by_cases digit : c.isDigit
  · rw [if_pos (same.mpr digit), if_pos digit]
  · rw [if_neg (mt same.mp digit), if_neg digit]

theorem digitsFrom_eq_some_iff {text : List Char} {start value : Nat} :
    digitsFrom start text = some value ↔
      (∀ c ∈ text, c.isDigit) ∧ value = Nat.ofDigitChars 10 text start := by
  induction text generalizing start with
  | nil =>
      simp only [digitsFrom, Option.some.injEq, List.not_mem_nil, false_imp_iff, implies_true,
        true_and, Nat.ofDigitChars_nil]
      exact eq_comm
  | cons c rest induction =>
      rw [digitsFrom, digitValue?_eq, List.forall_mem_cons, Nat.ofDigitChars_cons]
      by_cases digit : c.isDigit
      · have next : digitsFrom (start * 10 + (c.toNat - 48)) rest = some value ↔ _ := induction
        simpa [digit, Nat.mul_comm] using next
      · simp [digit]

theorem natural?_plus {rest : List Char} (digits : rest ≠ []) :
    natural? ('+' :: rest) = digitsFrom 0 rest := by
  obtain ⟨c, others, rfl⟩ := List.exists_cons_of_ne_nil digits
  rfl

theorem natural?_of_ne_plus {c : Char} (unsigned : c ≠ '+') (rest : List Char) :
    natural? (c :: rest) = digitsFrom 0 (c :: rest) := by
  unfold natural?
  split
  · rename_i empty
    cases empty
  · rename_i plus
    cases plus
    exact absurd rfl unsigned
  · rename_i plus
    cases plus
    exact absurd rfl unsigned
  · rfl

theorem natural?_eq_some_iff {text : List Char} {value : Nat} :
    natural? text = some value ↔ Numeral text value := by
  constructor
  · intro read
    cases text with
    | nil => cases read
    | cons c rest =>
        by_cases plus : c = '+'
        · subst plus
          cases rest with
          | nil => cases read
          | cons d others =>
              rw [natural?_plus (List.cons_ne_nil _ _), digitsFrom_eq_some_iff] at read
              exact ⟨d :: others, List.cons_ne_nil _ _, read.1, .inr rfl, read.2⟩
        · rw [natural?_of_ne_plus plus, digitsFrom_eq_some_iff] at read
          exact ⟨c :: rest, List.cons_ne_nil _ _, read.1, .inl rfl, read.2⟩
  · rintro ⟨digits, nonempty, decimal, rfl | rfl, rfl⟩
    · obtain ⟨c, rest, rfl⟩ := List.exists_cons_of_ne_nil nonempty
      have unsigned : c ≠ '+' := by
        rintro rfl
        exact absurd (decimal '+' List.mem_cons_self) (by decide)
      rw [natural?_of_ne_plus unsigned, digitsFrom_eq_some_iff]
      exact ⟨decimal, rfl⟩
    · rw [natural?_plus nonempty, digitsFrom_eq_some_iff]
      exact ⟨decimal, rfl⟩

theorem Numeral.dot_not_mem {text : List Char} {value : Nat} (numeral : Numeral text value) :
    '.' ∉ text := by
  obtain ⟨digits, -, decimal, form, -⟩ := numeral
  have absent : '.' ∉ digits := fun member => absurd (decimal '.' member) (by decide)
  rcases form with rfl | rfl
  · exact absent
  · simpa using absent

end KeyCustody.Text
