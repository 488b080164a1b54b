import Mathlib.Algebra.Group.Nat.Defs

namespace KeyCustody.Text

/-! # Numbers of a fixed width

Texts that start with as many digits are ordered as the numbers that the digits write, and as
what follows where the numbers are the same. -/

/-- A number in decimal digits of a given width. -/
structure DigitsOf (width number : Nat) (text : List Char) : Prop where
  length : text.length = width
  digits : ∀ c ∈ text, c.isDigit
  number : Nat.ofDigitChars 10 text 0 = number

variable {width number other : Nat} {c d : Char} {text left right after later : List Char}

theorem DigitsOf.append {widthLeft widthRight high low : Nat} (leading : DigitsOf widthLeft high left)
    (trailing : DigitsOf widthRight low right) :
    DigitsOf (widthLeft + widthRight) (high * 10 ^ widthRight + low) (left ++ right) where
  length := by rw [List.length_append, leading.length, trailing.length]
  digits c member := (List.mem_append.mp member).elim (leading.digits c) (trailing.digits c)
  number := by
    rw [Nat.ofDigitChars_append, leading.number, Nat.ofDigitChars_eq_ofDigitChars_zero,
      trailing.number, trailing.length, Nat.mul_comm]

theorem digitsOf_padded {width number : Nat} (positive : 0 < width) (fits : number < 10 ^ width) :
    DigitsOf width number
      (List.replicate (width - (Nat.toDigits 10 number).length) '0' ++ Nat.toDigits 10 number) where
  length := by
    have short := (Nat.length_toDigits_le_iff (by decide) positive).mpr fits
    rw [List.length_append, List.length_replicate]
    omega
  digits c member := by
    rcases List.mem_append.mp member with zero | digit
    · rw [List.eq_of_mem_replicate zero]
      rfl
    · exact Nat.isDigit_of_mem_toDigits (by decide) (by decide) digit
  number := by
    rw [Nat.ofDigitChars_append, Nat.ofDigitChars_replicate_zero, Nat.mul_zero,
      Nat.ofDigitChars_ten_toDigits]

theorem DigitsOf.tail (written : DigitsOf (width + 1) number (c :: text)) :
    ∃ rest, DigitsOf width rest text ∧ number = 10 ^ width * (c.toNat - 48) + rest := by
  have length : text.length = width := Nat.succ.inj written.length
  refine ⟨Nat.ofDigitChars 10 text 0,
    ⟨length, fun c member => written.digits c (List.mem_cons_of_mem _ member), rfl⟩, ?_⟩
  rw [← written.number, Nat.ofDigitChars_cons, Nat.ofDigitChars_eq_ofDigitChars_zero, length]
  simp

/-- A leading digit outweighs all that follow it. -/
theorem weighted_lt {weight leading greater rest : Nat} (less : leading < greater)
    (bound : rest < weight) (otherRest : Nat) :
    weight * leading + rest < weight * greater + otherRest := by
  calc weight * leading + rest
      < weight * leading + weight := Nat.add_lt_add_left bound _
    _ = weight * (leading + 1) := (Nat.mul_succ _ _).symm
    _ ≤ weight * greater := Nat.mul_le_mul_left _ less
    _ ≤ weight * greater + otherRest := Nat.le_add_right _ _

theorem DigitsOf.lt_pow (written : DigitsOf width number text) : number < 10 ^ width := by
  induction text generalizing width number with
  | nil =>
      obtain ⟨rfl, -, rfl⟩ := written
      decide
  | cons c text induction =>
      obtain rfl : text.length + 1 = width := written.length
      obtain ⟨rest, later, rfl⟩ := written.tail
      have digit := Char.isDigit_iff_toNat.mp (written.digits c List.mem_cons_self)
      have value : c.toNat - 48 ≤ 9 := Nat.sub_le_sub_right digit.2 48
      have outweighed := weighted_lt (Nat.lt_succ_of_le value) (induction later) 0
      rwa [Nat.add_zero, ← Nat.pow_succ] at outweighed

theorem DigitsOf.append_lt_append_iff (first : DigitsOf width number left)
    (second : DigitsOf width other right) :
    left ++ after < right ++ later ↔ number < other ∨ number = other ∧ after < later := by
  induction left generalizing width number other right with
  | nil =>
      obtain ⟨rfl, -, rfl⟩ := first
      obtain rfl : right = [] := List.length_eq_zero_iff.mp second.length
      obtain rfl := second.number
      simp
  | cons c left induction =>
      obtain rfl : left.length + 1 = width := first.length
      obtain ⟨d, right, rfl⟩ := List.exists_cons_of_length_eq_add_one second.length
      have lowC : 48 ≤ c.toNat := (Char.isDigit_iff_toNat.mp (first.digits c List.mem_cons_self)).1
      have lowD : 48 ≤ d.toNat := (Char.isDigit_iff_toNat.mp (second.digits d List.mem_cons_self)).1
      obtain ⟨rest, firstRest, rfl⟩ := first.tail
      obtain ⟨otherRest, secondRest, rfl⟩ := second.tail
      rw [List.cons_append, List.cons_append, List.cons_lt_cons_iff,
        induction firstRest secondRest]
      rcases Nat.lt_trichotomy c.toNat d.toNat with less | same | greater
      · have values := weighted_lt (Nat.sub_lt_sub_right lowC less) firstRest.lt_pow otherRest
        exact iff_of_true (.inl less) (.inl values)
      · obtain rfl : c = d := Char.toNat_inj.mp same
        have irreflexive : ¬ c < c := Nat.lt_irrefl c.toNat
        simp only [irreflexive, false_or, true_and, Nat.add_lt_add_iff_left,
          Nat.add_left_cancel_iff]
      · have values := weighted_lt (Nat.sub_lt_sub_right lowD greater) secondRest.lt_pow rest
        have notLess : ¬ c < d := Nat.lt_asymm greater
        have differ : c ≠ d := by
          rintro rfl
          exact Nat.lt_irrefl _ greater
        simp only [notLess, differ, false_and, or_false, false_iff]
        omega

end KeyCustody.Text
