namespace KeyCustody.Text

/-! # Whole numbers in text

A whole number is written in decimal digits after at most one minus sign. What is written tells the
number, also where other text follows. -/

variable {c : Char} {number other : Int} {rest after : List Char}

/-- Characters that the text of a whole number is made of. -/
def isNumeric (c : Char) : Bool := c.isDigit || c == '-'

theorem toDigits_injective {first second : Nat}
    (same : Nat.toDigits 10 first = Nat.toDigits 10 second) : first = second := by
  have values := congrArg (fun digits => Nat.ofDigitChars 10 digits 0) same
  simpa only [Nat.ofDigitChars_ten_toDigits] using values

theorem toList_integer (number : Int) : (toString number).toList =
    (if number < 0 then ['-'] else []) ++ Nat.toDigits 10 number.natAbs := by
  rw [Int.toString_eq_repr, Int.repr_eq_if]
  split
  · rename_i positive
    rw [if_neg (Int.not_lt.mpr positive), Nat.toList_repr, List.nil_append]
    congr 1
    omega
  · rename_i negative
    rw [if_pos (Int.not_le.mp negative), String.toList_append, Nat.toList_repr]
    congr 2
    omega

theorem toList_integer_ne_nil (number : Int) : (toString number).toList ≠ [] := by
  rw [toList_integer]
  exact List.append_ne_nil_of_right_ne_nil _ Nat.toDigits_ne_nil

theorem isNumeric_of_mem (member : c ∈ (toString number).toList) : isNumeric c := by
  rw [toList_integer, List.mem_append] at member
  rw [isNumeric, Bool.or_eq_true]
  rcases member with sign | digit
  · split at sign
    · exact .inr (beq_iff_eq.mpr (List.mem_singleton.mp sign))
    · cases sign
  · exact .inl (Nat.isDigit_of_mem_toDigits (by decide) (by decide) digit)

theorem toString_integer_injective (same : toString number = toString other) : number = other := by
  have texts := congrArg String.toList same
  have noSign (n : Nat) (digits : List Char) : '-' :: digits ≠ Nat.toDigits 10 n := by
    intro equal
    have sign : '-' ∈ Nat.toDigits 10 n := equal ▸ List.mem_cons_self
    exact absurd (Nat.isDigit_of_mem_toDigits (by decide) (by decide) sign) (by decide)
  rw [toList_integer, toList_integer] at texts
  split at texts <;> split at texts
  · have digits := toDigits_injective (List.cons.inj texts).2
    omega
  · exact absurd texts (noSign _ _)
  · exact absurd texts.symm (noSign _ _)
  · have digits := toDigits_injective texts
    omega

/-- Text that does not go on with a numeric character can follow a number. -/
theorem integer_append_inj (stops : ∀ c ∈ rest.head?, isNumeric c = false)
    (ends : ∀ c ∈ after.head?, isNumeric c = false)
    (same : (toString number).toList ++ rest = (toString other).toList ++ after) :
    number = other ∧ rest = after := by
  have taken (n : Int) (text : List Char) (stops : ∀ c ∈ text.head?, isNumeric c = false) :
      ((toString n).toList ++ text).takeWhile isNumeric = (toString n).toList := by
    rw [List.takeWhile_append_of_pos fun c member => isNumeric_of_mem member]
    cases text with
    | nil => simp
    | cons c text => simp [stops c rfl]
  have numbers : (toString number).toList = (toString other).toList := by
    rw [← taken number rest stops, same, taken other after ends]
  rw [numbers] at same
  exact ⟨toString_integer_injective (String.toList_injective numbers),
    List.append_cancel_left same⟩

end KeyCustody.Text
