namespace KeyCustody.Text

/-! # Cutting text at a separator or at a mark

`fields` cuts at every separator and `joinFields` puts the pieces together again;
`breakAt` and `breakAtLast` cut once, around the first or the last occurrence of a
mark; `replaceAll` reads a text from left to right and writes another text for each
occurrence of a mark. -/

/-- The pieces between separators. There is always one more piece than separators. -/
def fields (separator : Char) : List Char → List (List Char)
  | [] => [[]]
  | c :: rest =>
      if c = separator then [] :: fields separator rest
      else
        match fields separator rest with
        | [] => [[c]]
        | piece :: pieces => (c :: piece) :: pieces

def joinFields (separator : Char) : List (List Char) → List Char
  | [] => []
  | [piece] => piece
  | piece :: pieces => piece ++ separator :: joinFields separator pieces

theorem fields_ne_nil (separator : Char) (text : List Char) : fields separator text ≠ [] := by
  cases text with
  | nil => simp [fields]
  | cons c rest =>
      rw [fields]
      split
      · simp
      · split <;> simp

theorem joinFields_fields (separator : Char) (text : List Char) :
    joinFields separator (fields separator text) = text := by
  induction text with
  | nil => rfl
  | cons c rest induction =>
      cases tail : fields separator rest with
      | nil => exact absurd tail (fields_ne_nil separator rest)
      | cons piece pieces =>
          rw [tail] at induction
          by_cases cut : c = separator
          · simp only [fields, cut, if_true, tail, joinFields, List.nil_append, induction]
          · cases pieces with
            | nil => simp_all [fields, joinFields]
            | cons second others => simp_all [fields, joinFields]

/-- The text before and after the first occurrence of `mark`. -/
def breakAt (mark : List Char) : List Char → Option (List Char × List Char)
  | [] => if mark.isEmpty then some ([], []) else none
  | c :: rest =>
      match mark.isPrefixOf? (c :: rest) with
      | some after => some ([], after)
      | none => (breakAt mark rest).map fun halves => (c :: halves.1, halves.2)

/-- The text before and after the last occurrence of `mark`. -/
def breakAtLast (mark : List Char) : List Char → Option (List Char × List Char)
  | [] => if mark.isEmpty then some ([], []) else none
  | c :: rest =>
      match breakAtLast mark rest with
      | some halves => some (c :: halves.1, halves.2)
      | none => (mark.isPrefixOf? (c :: rest)).map fun after => ([], after)

/-- Every occurrence of `mark`, read from left to right, written as `replacement`.
The first argument counts the characters of an occurrence that are still to be dropped. -/
def replaceFrom (mark replacement : List Char) : Nat → List Char → List Char
  | _, [] => []
  | skipped + 1, _ :: rest => replaceFrom mark replacement skipped rest
  | 0, c :: rest =>
      if mark.isPrefixOf (c :: rest) then
        replacement ++ replaceFrom mark replacement (mark.length - 1) rest
      else c :: replaceFrom mark replacement 0 rest

/-- `mark` is taken to be non-empty. -/
def replaceAll (mark replacement text : List Char) : List Char :=
  replaceFrom mark replacement 0 text

/-- The texts one after another, with `between` between neighbours. -/
def joinWith (between : String) (texts : List String) : String :=
  between.intercalate texts

end KeyCustody.Text
