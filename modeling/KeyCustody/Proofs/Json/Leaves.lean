import KeyCustody.Proofs.Json.Grammar

namespace KeyCustody.Json

/-! # Strings, numbers and words read

Each reader takes off exactly what the grammar writes, whatever may follow it, and what it takes off
without a fault is so written. A number has no closing sign, so it is read to its end only where
nothing that could belong to it follows. -/

variable {marks : List Mark} {octets rest : Bytes} {values whole fraction : List Nat}
  {numeral : Numeral} {negative flag : Bool} {exponent : Option (Bool × List Nat)}

theorem readQuoted_append (marked : Marked marks octets) (rest : Bytes) :
    readQuoted (octets ++ rest) = (⟨marks, none⟩, rest) := by
  have noQuote : Sign.backslash ≠ Sign.quote := by decide
  induction marked with
  | close =>
      rw [readQuoted.eq_def]
      rfl
  | plain noQuote noEscape visible marked induction =>
      rw [List.cons_append, readQuoted.eq_def]
      simp [noQuote, noEscape, visible, induction, Quoted.cons]
  | @short letter value marks octets escape marked induction =>
      have plain : letter ≠ Sign.letterU := by
        rintro rfl
        exact absurd escape (by simp [shortEscape?, Sign.letterU, Sign.quote, Sign.backslash])
      rw [List.cons_append, List.cons_append, readQuoted.eq_def]
      simp [noQuote, plain, escape, induction, Quoted.cons]
  | unit escape marked induction =>
      simp only [List.cons_append]
      rw [readQuoted.eq_def]
      simp [noQuote, escape, induction, Quoted.cons]

theorem Quoted.cons_eq {mark : Mark} {found : Quoted × Bytes}
    (read : Quoted.cons mark found = (⟨marks, none⟩, rest)) :
    ∃ tail, marks = mark :: tail ∧ found = (⟨tail, none⟩, rest) := by
  obtain ⟨⟨tail, fault⟩, after⟩ := found
  simp only [Quoted.cons, Prod.mk.injEq, Quoted.mk.injEq] at read
  obtain ⟨⟨rfl, rfl⟩, rfl⟩ := read
  exact ⟨tail, rfl, rfl⟩

theorem marked_of_readQuoted (read : readQuoted octets = (⟨marks, none⟩, rest)) :
    ∃ used, octets = used ++ rest ∧ Marked marks used := by
  fun_induction readQuoted octets generalizing marks with
  | case2 after =>
      simp only [Prod.mk.injEq, Quoted.mk.injEq] at read
      obtain ⟨⟨rfl, -⟩, rfl⟩ := read
      exact ⟨[Sign.quote], rfl, .close⟩
  | case4 a b c d after value escape _ induction =>
      obtain ⟨tail, rfl, found⟩ := Quoted.cons_eq read
      obtain ⟨used, rfl, marked⟩ := induction found
      exact ⟨_, rfl, .unit escape marked⟩
  | case7 letter after _ value escape _ induction =>
      obtain ⟨tail, rfl, found⟩ := Quoted.cons_eq read
      obtain ⟨used, rfl, marked⟩ := induction found
      exact ⟨_, rfl, .short escape marked⟩
  | case10 octet after noQuote noEscape visible induction =>
      obtain ⟨tail, rfl, found⟩ := Quoted.cons_eq read
      obtain ⟨used, rfl, marked⟩ := induction found
      exact ⟨_, rfl, .plain noQuote noEscape visible marked⟩
  | _ => simp at read

theorem Quoted.skip_eq_ok {quoted : Quoted} : quoted.skip = .ok () ↔ quoted.fault = none := by
  obtain ⟨marks, _ | fault⟩ := quoted <;> simp [Quoted.skip]

/-- No digit is at the front. -/
def NoDigit (rest : Bytes) : Prop := ∀ octet ∈ rest.head?, digit? octet = none

/-- Nothing is at the front that a number could go on with. -/
def EndsNumber (rest : Bytes) : Prop :=
  ∀ octet ∈ rest.head?, digit? octet = none ∧ octet ≠ Sign.point ∧
    ¬ (octet = 0x65 ∨ octet = 0x45)

theorem EndsNumber.noDigit (ends : EndsNumber rest) : NoDigit rest :=
  fun octet head => (ends octet head).1

theorem digit?_eq_some {octet : UInt8} {value : Nat} :
    digit? octet = some value ↔ value < 10 ∧ octet = (0x30 + value).toUInt8 := by
  rw [digit?]
  constructor
  · intro read
    split at read
    · next bounds =>
      obtain ⟨lower, upper⟩ := bounds
      rw [UInt8.le_iff_toNat_le] at lower upper
      simp only [Option.some.injEq, UInt8.reduceToNat] at read lower upper
      refine ⟨by omega, UInt8.toNat_inj.mp ?_⟩
      simp only [Nat.toUInt8, UInt8.toNat_ofNat']
      omega
    · cases read
  · rintro ⟨small, rfl⟩
    have toNat : (0x30 + value).toUInt8.toNat = 0x30 + value := by
      simp only [Nat.toUInt8, UInt8.toNat_ofNat']
      omega
    rw [if_pos (by simp only [UInt8.le_iff_toNat_le, toNat, UInt8.reduceToNat]; omega), toNat]
    simp

@[simp]
theorem digitOctets_cons (value : Nat) (values : List Nat) :
    digitOctets (value :: values) = (0x30 + value).toUInt8 :: digitOctets values := rfl

theorem digits_append (decimal : ∀ digit ∈ values, digit < 10) (stops : NoDigit rest) :
    digits (digitOctets values ++ rest) = (values, rest) := by
  induction values with
  | nil =>
      cases rest with
      | nil => rfl
      | cons octet rest =>
          rw [digitOctets, List.map_nil, List.nil_append, digits, stops octet rfl]
  | cons value values induction =>
      have head : digit? (0x30 + value).toUInt8 = some value :=
        digit?_eq_some.mpr ⟨decimal value (by simp), rfl⟩
      rw [digitOctets_cons, List.cons_append, digits, head]
      simp only [induction fun digit held => decimal digit (by simp [held])]

theorem digits_sound (read : digits octets = (values, rest)) :
    octets = digitOctets values ++ rest ∧ (∀ digit ∈ values, digit < 10) := by
  fun_induction digits octets generalizing values with
  | case1 =>
      cases read
      exact ⟨rfl, by simp⟩
  | case2 octet after value head found remaining tail induction =>
      cases read
      obtain ⟨rfl, decimal⟩ := induction tail
      obtain ⟨small, rfl⟩ := digit?_eq_some.mp head
      exact ⟨rfl, by simpa [small] using decimal⟩
  | case3 octet after head =>
      cases read
      exact ⟨rfl, by simp⟩

theorem Decimals.cons (decimals : Decimals values) :
    ∃ first value tail, digitOctets values = first :: tail ∧ digit? first = some value := by
  obtain ⟨nonempty, decimal⟩ := decimals
  obtain ⟨value, values, rfl⟩ := List.exists_cons_of_ne_nil nonempty
  exact ⟨_, value, _, digitOctets_cons value values,
    digit?_eq_some.mpr ⟨decimal value (by simp), rfl⟩⟩

theorem digit_ne {octet other : UInt8} {value : Nat} (digit : digit? octet = some value)
    (noDigit : digit? other = none) : octet ≠ other := by
  rintro rfl
  rw [digit] at noDigit
  cases noDigit

theorem exponentSign_append {sign : Bytes} (signed : ExponentSignWritten negative sign)
    (decimals : Decimals values) (rest : Bytes) :
    exponentSign (sign ++ (digitOctets values ++ rest)) =
      (negative, digitOctets values ++ rest) := by
  cases signed with
  | absent =>
      obtain ⟨first, value, tail, spelled, digit⟩ := decimals.cons
      rw [spelled, List.nil_append, List.cons_append, exponentSign,
        if_neg (digit_ne digit (by decide)), if_neg (digit_ne digit (by decide))]
  | plus => rfl
  | minus => rfl

theorem exponentSign_sound (read : exponentSign octets = (negative, rest)) :
    ∃ sign, octets = sign ++ rest ∧ ExponentSignWritten negative sign := by
  rw [exponentSign.eq_def] at read
  split at read
  · cases read
    exact ⟨[], rfl, .absent⟩
  · split at read
    · next plus =>
      cases read
      exact ⟨[Sign.plus], by rw [plus]; rfl, .plus⟩
    · split at read
      · next minus =>
        cases read
        exact ⟨[Sign.minus], by rw [minus]; rfl, .minus⟩
      · cases read
        exact ⟨[], rfl, .absent⟩

theorem readExponent_append (written : ExponentWritten exponent octets) (ends : EndsNumber rest) :
    readExponent ⟨negative, whole, fraction, none, flag⟩ (octets ++ rest) =
      (.number ⟨negative, whole, fraction, exponent, flag && exponent.isNone⟩, rest) := by
  cases written with
  | absent =>
      cases rest with
      | nil => simp [readExponent]
      | cons octet rest =>
          rw [List.nil_append, readExponent, if_neg (ends octet rfl).2.2]
          simp
  | @present letter below sign values marked signed decimals =>
      rw [List.cons_append, List.append_assoc, readExponent, if_pos marked,
        exponentSign_append signed decimals]
      simp only [digits_append decimals.decimal ends.noDigit]
      obtain ⟨value, values, rfl⟩ := List.exists_cons_of_ne_nil decimals.nonempty
      simp

theorem readExponent_sound
    (read : readExponent ⟨negative, whole, fraction, none, flag⟩ octets = (.number numeral, rest)) :
    ∃ exponent used, octets = used ++ rest ∧ ExponentWritten exponent used ∧
      numeral = ⟨negative, whole, fraction, exponent, flag && exponent.isNone⟩ := by
  rw [readExponent.eq_def] at read
  split at read
  · cases read
    exact ⟨none, [], rfl, .absent, by simp⟩
  · split at read
    · next marked =>
      split at read
      next below unsigned sign =>
      obtain ⟨signOctets, rfl, signed⟩ := exponentSign_sound sign
      split at read
      · cases read
      · next values after nonempty found =>
        cases read
        obtain ⟨rfl, decimal⟩ := digits_sound found
        exact ⟨_, _, by simp, .present marked signed ⟨nonempty, decimal⟩, by simp⟩
    · cases read
      exact ⟨none, [], rfl, .absent, by simp⟩

theorem readFraction_noPoint (noPoint : ∀ octet ∈ octets.head?, octet ≠ Sign.point) :
    readFraction numeral octets = readExponent numeral octets := by
  cases octets with
  | nil => rfl
  | cons octet rest => rw [readFraction, if_neg (noPoint octet rfl)]

/-- What may follow the digits of a number and is no fraction. -/
theorem exponent_start (exponentWritten : ExponentWritten exponent octets)
    (ends : EndsNumber rest) :
    ∀ octet ∈ (octets ++ rest).head?, digit? octet = none ∧ octet ≠ Sign.point := by
  intro octet head
  cases exponentWritten with
  | absent => exact ⟨(ends octet head).1, (ends octet head).2.1⟩
  | present marked =>
      simp only [List.cons_append, List.head?_cons, Option.mem_some_iff] at head
      subst head
      obtain rfl | rfl := marked <;> decide

theorem readFraction_append {fractionOctets exponentOctets : Bytes}
    (fractionWritten : FractionWritten fraction fractionOctets)
    (exponentWritten : ExponentWritten exponent exponentOctets) (ends : EndsNumber rest) :
    readFraction ⟨negative, whole, [], none, true⟩ (fractionOctets ++ (exponentOctets ++ rest)) =
      (.number ⟨negative, whole, fraction, exponent, fraction.isEmpty && exponent.isNone⟩,
        rest) := by
  have starts := exponent_start exponentWritten ends
  cases fractionWritten with
  | absent =>
      rw [List.nil_append, readFraction_noPoint fun octet head => (starts octet head).2,
        readExponent_append exponentWritten ends]
      rfl
  | present decimals =>
      rw [List.cons_append, readFraction, if_pos rfl,
        digits_append decimals.decimal fun octet head => (starts octet head).1]
      obtain ⟨value, values, rfl⟩ := List.exists_cons_of_ne_nil decimals.nonempty
      simp [readExponent_append exponentWritten ends]

theorem readFraction_sound
    (read : readFraction ⟨negative, whole, [], none, true⟩ octets = (.number numeral, rest)) :
    ∃ fraction exponent fractionOctets exponentOctets,
      octets = fractionOctets ++ (exponentOctets ++ rest) ∧
      FractionWritten fraction fractionOctets ∧ ExponentWritten exponent exponentOctets ∧
      numeral =
        ⟨negative, whole, fraction, exponent, fraction.isEmpty && exponent.isNone⟩ := by
  by_cases noPoint : ∀ octet ∈ octets.head?, octet ≠ Sign.point
  · rw [readFraction_noPoint noPoint] at read
    obtain ⟨exponent, used, spelled, written, rfl⟩ := readExponent_sound read
    exact ⟨[], exponent, [], used, spelled, .absent, written, rfl⟩
  · obtain ⟨after, rfl⟩ : ∃ after, octets = Sign.point :: after := by
      cases octets <;> simp_all
    rw [readFraction, if_pos rfl] at read
    split at read
    · cases read
    · next values remaining nonempty found =>
      obtain ⟨rfl, decimal⟩ := digits_sound found
      obtain ⟨exponent, used, rfl, written, rfl⟩ := readExponent_sound read
      refine ⟨values, exponent, _, used, by simp, .present ⟨nonempty, decimal⟩, written, ?_⟩
      cases values <;> simp_all

theorem readNumber_append (written : UnsignedWritten numeral octets) (ends : EndsNumber rest) :
    readNumber numeral.negative (octets ++ rest) = (.number numeral, rest) := by
  obtain @⟨negative, whole, fraction, exponent, fractionOctets, exponentOctets, decimals, leading,
    fractionWritten, exponentWritten⟩ := written
  have stops : NoDigit (fractionOctets ++ (exponentOctets ++ rest)) := by
    cases fractionWritten with
    | absent => exact fun octet head => (exponent_start exponentWritten ends octet head).1
    | present =>
        rintro octet head
        cases head
        decide
  rw [readNumber, List.append_assoc, List.append_assoc, digits_append decimals.decimal stops]
  split
  · next empty => exact absurd (congrArg Prod.fst empty) decimals.nonempty
  · next zeros =>
    cases zeros
    exact absurd (leading rfl) (by simp)
  · next found =>
    cases found
    exact readFraction_append fractionWritten exponentWritten ends

theorem readNumber_sound (read : readNumber negative octets = (.number numeral, rest)) :
    numeral.negative = negative ∧ ∃ used, octets = used ++ rest ∧ UnsignedWritten numeral used := by
  rw [readNumber] at read
  split at read
  · cases read
  · cases read
  · next whole after nonempty leading found =>
    obtain ⟨rfl, decimal⟩ := digits_sound found
    obtain ⟨fraction, exponent, fractionOctets, exponentOctets, rfl, fractionWritten,
      exponentWritten, rfl⟩ := readFraction_sound read
    refine ⟨rfl, digitOctets whole ++ (fractionOctets ++ exponentOctets), by simp,
      ⟨nonempty, decimal⟩, ?_, fractionWritten, exponentWritten⟩
    rcases whole with _ | ⟨first, _ | ⟨second, others⟩⟩ <;> simp_all

/-- What the reader of numbers finds without a fault is a number. -/
theorem numeral_of_readNumber {node : Node} (read : readNumber negative octets = (node, rest))
    (whole : node.skip = .ok ()) : ∃ numeral, node = .number numeral := by
  have exponent {numeral : Numeral} {octets : Bytes}
      (read : readExponent numeral octets = (node, rest)) : ∃ numeral, node = .number numeral := by
    rw [readExponent.eq_def] at read
    repeat' split at read
    all_goals cases read; first | exact ⟨_, rfl⟩ | cases whole
  have fraction {numeral : Numeral} {octets : Bytes}
      (read : readFraction numeral octets = (node, rest)) : ∃ numeral, node = .number numeral := by
    rw [readFraction.eq_def] at read
    split at read
    · exact exponent read
    · split at read
      · split at read
        · cases read
          cases whole
        · exact exponent read
      · exact exponent read
  rw [readNumber] at read
  split at read
  · cases read
    cases whole
  · cases read
    cases whole
  · exact fraction read

theorem readWord_sound {word : Bytes} {node found : Node}
    (read : readWord word node octets = (found, rest)) (whole : found.skip = .ok ()) :
    found = node ∧ octets = word ++ rest := by
  induction word generalizing octets with
  | nil =>
      cases octets <;> cases read <;> exact ⟨rfl, rfl⟩
  | cons expected word induction =>
      cases octets with
      | nil =>
          cases read
          cases whole
      | cons octet after =>
          rw [readWord] at read
          split at read
          · next same =>
            obtain ⟨rfl, rfl⟩ := induction read
            exact ⟨rfl, by rw [same]; rfl⟩
          · cases read
            cases whole

end KeyCustody.Json
