import KeyCustody.Proofs.Json.Leaves
import Mathlib.Data.List.DropRight
import Mathlib.Tactic.IntervalCases

namespace KeyCustody.Json

/-! # Documents read

The readers of values, arrays and objects against the grammar. Both directions follow the data: that
a text is read as its tree is shown along the way in which the text is written, and that a tree
without a fault is so written along the bound on the nesting of the readers. -/

variable {octets before after rest : Bytes} {octet : UInt8} {fuel : Nat} {node : Node}
  {items : Items} {members : Members} {name : Quoted}

theorem skipSpace_append (blank : Blank before) (octets : Bytes) :
    skipSpace (before ++ octets) = skipSpace octets :=
  List.dropWhile_append_of_pos blank

theorem skipSpace_cons (visible : isSpace octet = false) (rest : Bytes) :
    skipSpace (octet :: rest) = octet :: rest :=
  List.dropWhile_cons_of_neg (by simp [visible])

theorem skipSpace_eq_nil_iff : skipSpace octets = [] ↔ Blank octets := List.dropWhile_eq_nil_iff

theorem skipSpace_split (octets : Bytes) :
    ∃ before, Blank before ∧ octets = before ++ skipSpace octets :=
  ⟨octets.takeWhile isSpace, fun _ member => List.mem_takeWhile_imp member,
    List.takeWhile_append_dropWhile.symm⟩

@[simp]
theorem skipSpace_skipSpace (octets : Bytes) : skipSpace (skipSpace octets) = skipSpace octets :=
  List.dropWhile_idempotent isSpace octets

theorem readNode_skipSpace (fuel : Nat) (octets : Bytes) :
    readNode fuel (skipSpace octets) = readNode fuel octets := by
  cases fuel with
  | zero => rfl
  | succ fuel => rw [readNode, readNode, skipSpace_skipSpace]

theorem readItems_skipSpace (fuel : Nat) (octets : Bytes) :
    readItems fuel (skipSpace octets) = readItems fuel octets := by
  cases fuel with
  | zero => rfl
  | succ fuel => rw [readItems, readItems, readNode_skipSpace]

theorem readMembers_skipSpace (fuel : Nat) (octets : Bytes) :
    readMembers fuel (skipSpace octets) = readMembers fuel octets := by
  cases fuel with
  | zero => rfl
  | succ fuel => rw [readMembers, readMembers, skipSpace_skipSpace]

theorem EndsNumber.blank (ends : EndsNumber rest) (blank : Blank after) :
    EndsNumber (after ++ rest) := by
  cases after with
  | nil => exact ends
  | cons octet after =>
      rintro head ⟨⟩
      have space : isSpace octet := blank octet (by simp)
      simp only [isSpace, Bool.or_eq_true, decide_eq_true_eq] at space
      obtain ((rfl | rfl) | rfl) | rfl := space <;> decide

theorem UnsignedWritten.start {numeral : Numeral} (written : UnsignedWritten numeral octets) :
    ∃ first value tail, octets = first :: tail ∧ digit? first = some value := by
  obtain ⟨decimals⟩ := written
  obtain ⟨first, value, tail, spelled, digit⟩ := decimals.cons
  exact ⟨first, value, _, by rw [spelled]; rfl, digit⟩

theorem isSpace_digit {value : Nat} (digit : digit? octet = some value) :
    isSpace octet = false := by
  obtain ⟨small, rfl⟩ := digit?_eq_some.mp digit
  interval_cases value <;> rfl

/-- A value starts with an octet that is no blank, and with none that closes an array. -/
theorem Node.Written.start (written : Node.Written node octets) :
    ∃ first tail, octets = first :: tail ∧ isSpace first = false ∧ first ≠ Sign.closeBracket := by
  cases written with
  | number written =>
      cases written with
      | minus => exact ⟨_, _, rfl, by decide, by decide⟩
      | unsigned _ written =>
          obtain ⟨first, value, tail, rfl, digit⟩ := written.start
          exact ⟨first, tail, rfl, isSpace_digit digit, digit_ne digit (by decide)⟩
  | _ => exact ⟨_, _, rfl, by decide, by decide⟩

theorem Node.IsText.start (text : Node.IsText node octets) (rest : Bytes) :
    ∃ first tail, skipSpace (octets ++ rest) = first :: tail ∧ first ≠ Sign.closeBracket := by
  obtain ⟨blank, written, blankAfter⟩ := text
  obtain ⟨first, tail, rfl, visible, opens⟩ := written.start
  rw [List.append_assoc, skipSpace_append blank]
  exact ⟨first, _, skipSpace_cons visible _, opens⟩

theorem Quoted.IsText.read (text : name.IsText octets) (rest : Bytes) :
    ∃ tail after, skipSpace (octets ++ rest) = Sign.quote :: tail ∧
      readQuoted tail = (name, after) ∧ skipSpace after = skipSpace rest := by
  obtain @⟨before, octets, after, marks, blank, marked, blankAfter⟩ := text
  refine ⟨octets ++ (after ++ rest), after ++ rest, ?_, readQuoted_append marked _,
    skipSpace_append blankAfter rest⟩
  rw [List.append_assoc, skipSpace_append blank, List.cons_append, List.append_assoc]
  exact skipSpace_cons (by decide) _

/-! ## From texts to trees -/

theorem readNode_quote : readNode (fuel + 1) (Sign.quote :: rest) =
    (.text (readQuoted rest).1, (readQuoted rest).2) := rfl

theorem readNode_bracket : readNode (fuel + 1) (Sign.openBracket :: rest) =
    (.array (readArray fuel rest).1, (readArray fuel rest).2) := rfl

theorem readNode_brace : readNode (fuel + 1) (Sign.openBrace :: rest) =
    (.object (readObject fuel rest).1, (readObject fuel rest).2) := rfl

theorem readNode_digit {value : Nat} (digit : digit? octet = some value) :
    readNode (fuel + 1) (octet :: rest) = readNumber false (octet :: rest) := by
  rw [readNode, skipSpace_cons (isSpace_digit digit)]
  obtain ⟨small, rfl⟩ := digit?_eq_some.mp digit
  interval_cases value <;> rfl

theorem readNode_number {numeral : Numeral} (written : numeral.Written octets)
    (ends : EndsNumber rest) :
    readNode (fuel + 1) (octets ++ rest) = (.number numeral, rest) := by
  cases written with
  | minus negative written =>
      have read := readNumber_append written ends
      rw [negative] at read
      rw [List.cons_append, readNode, skipSpace_cons (by decide)]
      exact read
  | unsigned positive written =>
      have read := readNumber_append written ends
      obtain ⟨first, value, tail, rfl, digit⟩ := written.start
      rw [positive] at read
      rw [List.cons_append, readNode_digit digit]
      exact read

/-- With that bound on the nesting, whatever is short enough is read as the tree that it is a text
of. -/
structure Complete (fuel : Nat) : Prop where
  node {node : Node} {octets rest : Bytes} (written : Node.Written node octets)
    (ends : EndsNumber rest) (enough : 3 * octets.length ≤ fuel) :
    readNode fuel (octets ++ rest) = (node, rest)
  items {items : Items} {octets : Bytes} (written : Items.Written items octets)
    (more : items ≠ .close) (rest : Bytes) (enough : 3 * octets.length ≤ fuel) :
    readItems fuel (octets ++ rest) = (items, rest)
  members {members : Members} {octets : Bytes} (written : Members.Written members octets)
    (more : members ≠ .close) (rest : Bytes) (enough : 3 * octets.length ≤ fuel) :
    readMembers fuel (octets ++ rest) = (members, rest)
  array {items : Items} {octets : Bytes} (written : Items.Written items octets) (rest : Bytes)
    (enough : 3 * octets.length + 1 ≤ fuel) : readArray fuel (octets ++ rest) = (items, rest)
  object {members : Members} {octets : Bytes} (written : Members.Written members octets)
    (rest : Bytes) (enough : 3 * octets.length + 1 ≤ fuel) :
    readObject fuel (octets ++ rest) = (members, rest)

/-- A value is read with the blanks before it, and those after it are left. -/
theorem Complete.text (complete : Complete fuel) (text : Node.IsText node octets)
    (ends : EndsNumber rest) (enough : 3 * octets.length ≤ fuel) :
    ∃ after, readNode fuel (octets ++ rest) = (node, after) ∧ skipSpace after = skipSpace rest := by
  obtain @⟨_, before, octets, after, blank, written, blankAfter⟩ := text
  have read := complete.node written (ends.blank blankAfter) (by simp at enough; omega)
  refine ⟨after ++ rest, ?_, skipSpace_append blankAfter rest⟩
  rw [← readNode_skipSpace, List.append_assoc, skipSpace_append blank, readNode_skipSpace,
    List.append_assoc, read]

theorem Complete.node_step (below : Complete fuel) (written : Node.Written node octets)
    (ends : EndsNumber rest) (enough : 3 * octets.length ≤ fuel + 1) :
    readNode (fuel + 1) (octets ++ rest) = (node, rest) := by
  cases written with
  | number written => exact readNode_number written ends
  | text marked => rw [List.cons_append, readNode_quote, readQuoted_append marked rest]
  | array written =>
      rw [List.cons_append, readNode_bracket, below.array written rest (by simp at enough; omega)]
  | object written =>
      rw [List.cons_append, readNode_brace, below.object written rest (by simp at enough; omega)]
  | null => rfl
  | yes => rfl
  | no => rfl

theorem endsNumber_sign (sign : UInt8)
    (closes : sign ∈ [Sign.comma, Sign.closeBracket, Sign.closeBrace]) (rest : Bytes) :
    EndsNumber (sign :: rest) := by
  rintro first ⟨⟩
  simp only [List.mem_cons, List.not_mem_nil, or_false] at closes
  obtain rfl | rfl | rfl := closes <;> decide

theorem Complete.items_step (below : Complete fuel) (written : Items.Written items octets)
    (more : items ≠ .close) (rest : Bytes) (enough : 3 * octets.length ≤ fuel + 1) :
    readItems (fuel + 1) (octets ++ rest) = (items, rest) := by
  cases written with
  | empty => exact absurd rfl more
  | @last head octets text =>
      obtain ⟨after, read, skipped⟩ := below.text text
        (endsNumber_sign Sign.closeBracket (by simp) rest) (by simp at enough; omega)
      rw [List.append_assoc, List.singleton_append, readItems, read]
      simp only [skipped, skipSpace_cons (by decide : isSpace Sign.closeBracket = false) rest]
      rfl
  | @more head tail octets others text follows written =>
      obtain ⟨after, read, skipped⟩ := below.text text
        (endsNumber_sign Sign.comma (by simp) (others ++ rest))
        (by simp at enough; omega)
      have readTail := below.items written follows rest (by simp at enough; omega)
      rw [List.append_assoc, List.cons_append, readItems, read]
      simp only [skipped, skipSpace_cons (by decide : isSpace Sign.comma = false) (others ++ rest),
        readTail]
      rfl

theorem Complete.members_step (below : Complete fuel) (written : Members.Written members octets)
    (more : members ≠ .close) (rest : Bytes) (enough : 3 * octets.length ≤ fuel + 1) :
    readMembers (fuel + 1) (octets ++ rest) = (members, rest) := by
  cases written with
  | empty => exact absurd rfl more
  | @last name value nameOctets octets named text =>
      obtain ⟨tail, after, opened, readName, colon⟩ :=
        named.read (Sign.colon :: (octets ++ Sign.closeBrace :: rest))
      obtain ⟨after, read, skipped⟩ := below.text text
        (endsNumber_sign Sign.closeBrace (by simp) rest) (by simp at enough; omega)
      rw [skipSpace_cons (by decide)] at colon skipped
      simp only [List.append_assoc, List.cons_append, List.nil_append]
      rw [readMembers, opened]
      simp [readName, colon, read, skipped]
  | @more name value tail nameOctets octets others named text follows written =>
      obtain ⟨front, after, opened, readName, colon⟩ :=
        named.read (Sign.colon :: (octets ++ Sign.comma :: (others ++ rest)))
      obtain ⟨after, read, skipped⟩ := below.text text
        (endsNumber_sign Sign.comma (by simp) (others ++ rest))
        (by simp at enough; omega)
      have readTail := below.members written follows rest (by simp at enough; omega)
      rw [skipSpace_cons (by decide)] at colon skipped
      have noClose : Sign.comma ≠ Sign.closeBrace := by decide
      simp only [List.append_assoc, List.cons_append]
      rw [readMembers, opened]
      simp [readName, colon, read, skipped, noClose, readTail]

theorem Complete.array_step (below : Complete fuel) (written : Items.Written items octets)
    (rest : Bytes) (enough : 3 * octets.length + 1 ≤ fuel + 1) :
    readArray (fuel + 1) (octets ++ rest) = (items, rest) := by
  have goesOn {first : UInt8} {tail : Bytes} (skipped : skipSpace (octets ++ rest) = first :: tail)
      (opens : first ≠ Sign.closeBracket) (more : items ≠ .close) :
      readArray (fuel + 1) (octets ++ rest) = (items, rest) := by
    rw [← below.items written more rest (by omega), ← readItems_skipSpace, readArray, skipped]
    exact if_neg opens
  cases written with
  | empty blank =>
      rw [List.append_assoc, readArray, skipSpace_append blank, List.singleton_append,
        skipSpace_cons (by decide)]
      rfl
  | last text =>
      obtain ⟨first, tail, skipped, opens⟩ := text.start ([Sign.closeBracket] ++ rest)
      exact goesOn (by rw [List.append_assoc, skipped]) opens (by simp)
  | @more head tail octets others text follows written =>
      obtain ⟨first, tail, skipped, opens⟩ := text.start (Sign.comma :: others ++ rest)
      exact goesOn (by rw [List.append_assoc, skipped]) opens (by simp)

theorem Complete.object_step (below : Complete fuel) (written : Members.Written members octets)
    (rest : Bytes) (enough : 3 * octets.length + 1 ≤ fuel + 1) :
    readObject (fuel + 1) (octets ++ rest) = (members, rest) := by
  have goesOn {tail : Bytes} (skipped : skipSpace (octets ++ rest) = Sign.quote :: tail)
      (more : members ≠ .close) : readObject (fuel + 1) (octets ++ rest) = (members, rest) := by
    rw [← below.members written more rest (by omega), ← readMembers_skipSpace, readObject, skipped]
    rfl
  cases written with
  | empty blank =>
      rw [List.append_assoc, readObject, skipSpace_append blank, List.singleton_append,
        skipSpace_cons (by decide)]
      rfl
  | last named text =>
      obtain ⟨tail, after, skipped, -⟩ := named.read _
      exact goesOn (by rw [List.append_assoc, skipped]) (by simp)
  | more named text follows written =>
      obtain ⟨tail, after, skipped, -⟩ := named.read _
      exact goesOn (by rw [List.append_assoc, skipped]) (by simp)

theorem complete (fuel : Nat) : Complete fuel := by
  induction fuel with
  | zero =>
      refine ⟨fun written ends enough => ?_, fun written _ _ enough => ?_,
        fun written _ _ enough => ?_, fun _ _ enough => ?_, fun _ _ enough => ?_⟩
      · obtain ⟨first, tail, rfl, -⟩ := written.start
        simp at enough
      · cases written <;> simp at enough
      · cases written <;> simp at enough
      · omega
      · omega
  | succ fuel below =>
      exact ⟨below.node_step, below.items_step, below.members_step, below.array_step,
        below.object_step⟩

theorem Items.skip_item {head : Node} {tail : Items} :
    (Items.item head tail).skip = .ok () ↔ head.skip = .ok () ∧ tail.skip = .ok () := by
  rw [Items.skip]
  cases head.skip <;> simp [bind, Except.bind]

theorem Members.skip_member {name : Quoted} {value : Node} {tail : Members} :
    (Members.member name value tail).skip = .ok () ↔
      name.skip = .ok () ∧ value.skip = .ok () ∧ tail.skip = .ok () := by
  rw [Members.skip]
  cases name.skip <;> cases value.skip <;> simp [bind, Except.bind]

theorem Quoted.IsText.skip (text : name.IsText octets) : name.skip = .ok () := by
  cases text
  rfl

mutual

theorem Node.Written.skip {node : Node} {octets : Bytes} :
    Node.Written node octets → node.skip = .ok ()
  | .null => rfl
  | .yes => rfl
  | .no => rfl
  | .number _ => rfl
  | .text _ => rfl
  | .array written => written.skip
  | .object written => written.skip

theorem Node.IsText.skip {node : Node} {octets : Bytes} :
    Node.IsText node octets → node.skip = .ok ()
  | .mk _ written _ => written.skip

theorem Items.Written.skip {items : Items} {octets : Bytes} :
    Items.Written items octets → items.skip = .ok ()
  | .empty _ => rfl
  | .last head => Items.skip_item.mpr ⟨head.skip, rfl⟩
  | .more head _ written => Items.skip_item.mpr ⟨head.skip, written.skip⟩

theorem Members.Written.skip {members : Members} {octets : Bytes} :
    Members.Written members octets → members.skip = .ok ()
  | .empty _ => rfl
  | .last named value => Members.skip_member.mpr ⟨named.skip, value.skip, rfl⟩
  | .more named value _ written => Members.skip_member.mpr ⟨named.skip, value.skip, written.skip⟩

end
/-! ## From trees to texts -/

/-- With that bound on the nesting, a tree without a fault is read off one of its texts. -/
structure Sound (fuel : Nat) : Prop where
  node {octets rest : Bytes} {node : Node} (read : readNode fuel octets = (node, rest))
    (whole : node.skip = .ok ()) :
    ∃ before used, octets = before ++ (used ++ rest) ∧ Blank before ∧ Node.Written node used
  items {octets rest : Bytes} {items : Items} (read : readItems fuel octets = (items, rest))
    (whole : items.skip = .ok ()) :
    ∃ used, octets = used ++ rest ∧ Items.Written items used ∧ items ≠ .close
  members {octets rest : Bytes} {members : Members}
    (read : readMembers fuel octets = (members, rest)) (whole : members.skip = .ok ()) :
    ∃ used, octets = used ++ rest ∧ Members.Written members used ∧ members ≠ .close
  array {octets rest : Bytes} {items : Items} (read : readArray fuel octets = (items, rest))
    (whole : items.skip = .ok ()) : ∃ used, octets = used ++ rest ∧ Items.Written items used
  object {octets rest : Bytes} {members : Members}
    (read : readObject fuel octets = (members, rest)) (whole : members.skip = .ok ()) :
    ∃ used, octets = used ++ rest ∧ Members.Written members used

theorem Sound.node_step (below : Sound fuel) (read : readNode (fuel + 1) octets = (node, rest))
    (whole : node.skip = .ok ()) :
    ∃ before used, octets = before ++ (used ++ rest) ∧ Blank before ∧ Node.Written node used := by
  obtain ⟨before, blank, split⟩ := skipSpace_split octets
  suffices ∃ used, skipSpace octets = used ++ rest ∧ Node.Written node used by
    obtain ⟨used, spelled, written⟩ := this
    exact ⟨before, used, by rw [← spelled]; exact split, blank, written⟩
  rw [readNode] at read
  split at read
  · cases read
    cases whole
  · next octet after skipped =>
    rw [skipped]
    split_ifs at read with quote bracket brace minus null yes no
    · rcases found : readQuoted after with ⟨⟨marks, fault⟩, tail⟩
      rw [found] at read
      cases read
      obtain rfl : fault = none := Quoted.skip_eq_ok.mp whole
      obtain ⟨used, rfl, marked⟩ := marked_of_readQuoted found
      exact ⟨Sign.quote :: used, by rw [quote]; rfl, .text marked⟩
    · rcases found : readArray fuel after with ⟨items, tail⟩
      rw [found] at read
      cases read
      obtain ⟨used, rfl, written⟩ := below.array found whole
      exact ⟨Sign.openBracket :: used, by rw [bracket]; rfl, .array written⟩
    · rcases found : readObject fuel after with ⟨members, tail⟩
      rw [found] at read
      cases read
      obtain ⟨used, rfl, written⟩ := below.object found whole
      exact ⟨Sign.openBrace :: used, by rw [brace]; rfl, .object written⟩
    · obtain ⟨numeral, rfl⟩ := numeral_of_readNumber read whole
      obtain ⟨negative, used, rfl, written⟩ := readNumber_sound read
      exact ⟨Sign.minus :: used, by rw [minus]; rfl, .number (.minus negative written)⟩
    · obtain ⟨rfl, rfl⟩ := readWord_sound read whole
      exact ⟨_, by rw [null]; rfl, .null⟩
    · obtain ⟨rfl, rfl⟩ := readWord_sound read whole
      exact ⟨_, by rw [yes]; rfl, .yes⟩
    · obtain ⟨rfl, rfl⟩ := readWord_sound read whole
      exact ⟨_, by rw [no]; rfl, .no⟩
    · split at read
      · obtain ⟨numeral, rfl⟩ := numeral_of_readNumber read whole
        obtain ⟨positive, used, spelled, written⟩ := readNumber_sound read
        exact ⟨used, spelled, .number (.unsigned positive written)⟩
      · cases read
        cases whole

/-- A value that is read and followed by a sign is a text of its own up to that sign. -/
theorem Sound.text (below : Sound fuel) (read : readNode fuel octets = (node, after))
    (whole : node.skip = .ok ()) (skipped : skipSpace after = octet :: rest) :
    ∃ used, octets = used ++ octet :: rest ∧ Node.IsText node used := by
  obtain ⟨before, used, rfl, blank, written⟩ := below.node read whole
  obtain ⟨blanks, blankAfter, split⟩ := skipSpace_split after
  rw [skipped] at split
  exact ⟨before ++ (used ++ blanks), by simp [split], .mk blank written blankAfter⟩

theorem Sound.items_step (below : Sound fuel) (read : readItems (fuel + 1) octets = (items, rest))
    (whole : items.skip = .ok ()) :
    ∃ used, octets = used ++ rest ∧ Items.Written items used ∧ items ≠ .close := by
  rcases found : readNode fuel octets with ⟨head, after⟩
  rw [readItems, found] at read
  dsimp only at read
  split at read
  · cases read
    cases (Items.skip_item.mp whole).2
  · next octet remaining skipped =>
    split_ifs at read with closes comma
    · cases read
      obtain ⟨used, rfl, text⟩ := below.text found (Items.skip_item.mp whole).1 skipped
      exact ⟨_, by simp [closes], .last text, by simp⟩
    · rcases readTail : readItems fuel remaining with ⟨tail, after⟩
      rw [readTail] at read
      cases read
      obtain ⟨wholeHead, wholeTail⟩ := Items.skip_item.mp whole
      obtain ⟨used, rfl, text⟩ := below.text found wholeHead skipped
      obtain ⟨others, rfl, written, follows⟩ := below.items readTail wholeTail
      exact ⟨_, by simp [comma], .more text follows written, by simp⟩
    · cases read
      cases (Items.skip_item.mp whole).2

theorem isText_of_readQuoted {front : Bytes} (opened : skipSpace octets = Sign.quote :: front)
    (read : readQuoted front = (name, after)) (whole : name.skip = .ok ())
    (skipped : skipSpace after = octet :: rest) :
    ∃ used, octets = used ++ octet :: rest ∧ name.IsText used := by
  obtain ⟨marks, fault⟩ := name
  obtain rfl : fault = none := Quoted.skip_eq_ok.mp whole
  obtain ⟨blanks, blank, split⟩ := skipSpace_split octets
  obtain ⟨between, blankBetween, splitAfter⟩ := skipSpace_split after
  obtain ⟨used, rfl, marked⟩ := marked_of_readQuoted read
  rw [opened] at split
  rw [skipped] at splitAfter
  exact ⟨_, by rw [split, splitAfter]; simp, .mk blank marked blankBetween⟩

theorem Sound.members_step (below : Sound fuel)
    (read : readMembers (fuel + 1) octets = (members, rest)) (whole : members.skip = .ok ()) :
    ∃ used, octets = used ++ rest ∧ Members.Written members used ∧ members ≠ .close := by
  rw [readMembers] at read
  split at read
  · cases read
    cases whole
  · next octet front opened =>
    split_ifs at read with quote
    · rcases readName : readQuoted front with ⟨name, after⟩
      rw [readName] at read
      dsimp only at read
      split at read
      · cases read
        cases (Members.skip_member.mp whole).2.1
      · next sign valueOctets separated =>
        split_ifs at read with colon
        · rcases readValue : readNode fuel valueOctets with ⟨value, after⟩
          rw [readValue] at read
          dsimp only at read
          split at read
          · cases read
            cases (Members.skip_member.mp whole).2.2
          · next octet remaining skipped =>
            split_ifs at read with closes comma
            · cases read
              obtain ⟨wholeName, wholeValue, -⟩ := Members.skip_member.mp whole
              obtain ⟨nameOctets, rfl, named⟩ :=
                isText_of_readQuoted (quote ▸ opened) readName wholeName separated
              obtain ⟨used, rfl, text⟩ := below.text readValue wholeValue skipped
              exact ⟨_, by simp [colon, closes], .last named text, by simp⟩
            · rcases readTail : readMembers fuel remaining with ⟨tail, after⟩
              rw [readTail] at read
              cases read
              obtain ⟨wholeName, wholeValue, wholeTail⟩ := Members.skip_member.mp whole
              obtain ⟨nameOctets, rfl, named⟩ :=
                isText_of_readQuoted (quote ▸ opened) readName wholeName separated
              obtain ⟨used, rfl, text⟩ := below.text readValue wholeValue skipped
              obtain ⟨others, rfl, written, follows⟩ := below.members readTail wholeTail
              exact ⟨_, by simp [colon, comma], .more named text follows written, by simp⟩
            · cases read
              cases (Members.skip_member.mp whole).2.2
        · cases read
          cases (Members.skip_member.mp whole).2.1
    · cases read
      cases whole

theorem Sound.array_step (below : Sound fuel) (read : readArray (fuel + 1) octets = (items, rest))
    (whole : items.skip = .ok ()) :
    ∃ used, octets = used ++ rest ∧ Items.Written items used := by
  rw [readArray] at read
  split at read
  · cases read
    cases whole
  · next octet after skipped =>
    split_ifs at read with closes
    · cases read
      obtain ⟨blanks, blank, split⟩ := skipSpace_split octets
      rw [skipped] at split
      exact ⟨_, by rw [split, closes]; simp, .empty blank⟩
    · rw [← skipped, readItems_skipSpace] at read
      obtain ⟨used, spelled, written, -⟩ := below.items read whole
      exact ⟨used, spelled, written⟩

theorem Sound.object_step (below : Sound fuel)
    (read : readObject (fuel + 1) octets = (members, rest)) (whole : members.skip = .ok ()) :
    ∃ used, octets = used ++ rest ∧ Members.Written members used := by
  rw [readObject] at read
  split at read
  · cases read
    cases whole
  · next octet after skipped =>
    split_ifs at read with closes
    · cases read
      obtain ⟨blanks, blank, split⟩ := skipSpace_split octets
      rw [skipped] at split
      exact ⟨_, by rw [split, closes]; simp, .empty blank⟩
    · rw [← skipped, readMembers_skipSpace] at read
      obtain ⟨used, spelled, written, -⟩ := below.members read whole
      exact ⟨used, spelled, written⟩

theorem sound (fuel : Nat) : Sound fuel := by
  induction fuel with
  | zero =>
      constructor <;>
      · intros _ _ _ read whole
        cases read
        cases whole
  | succ fuel below =>
      exact ⟨below.node_step, below.items_step, below.members_step, below.array_step,
        below.object_step⟩

theorem Node.IsText.read (text : Node.IsText node octets) :
    Document.read octets = ⟨node, false⟩ := by
  obtain ⟨after, read, skipped⟩ := (complete (3 * octets.length + 3)).text text
    (nofun : EndsNumber []) (by omega)
  rw [List.append_nil] at read
  rw [Document.read, read]
  dsimp only
  rw [skipped]
  rfl

theorem isText_of_read (read : Document.read octets = ⟨node, false⟩) (whole : node.skip = .ok ()) :
    Node.IsText node octets := by
  rcases found : readNode (3 * octets.length + 3) octets with ⟨root, after⟩
  simp only [Document.read, found, Document.mk.injEq, Bool.not_eq_false', List.isEmpty_iff] at read
  obtain ⟨rfl, rest⟩ := read
  obtain ⟨before, used, rfl, blank, written⟩ := (sound _).node found whole
  obtain ⟨blanks, blankAfter, split⟩ := skipSpace_split after
  rw [rest, List.append_nil] at split
  exact .mk blank written (split ▸ blankAfter)

/-- What follows a value that is no number does not change what is read. -/
theorem Node.IsText.read_append (text : Node.IsText node octets)
    (noNumber : ∀ numeral, node ≠ .number numeral) (rest : Bytes) :
    Document.read (octets ++ rest) = ⟨node, !(skipSpace rest).isEmpty⟩ := by
  obtain @⟨_, before, octets, after, blank, written, blankAfter⟩ := text
  have read : readNode (3 * (before ++ (octets ++ after) ++ rest).length + 3)
      (before ++ (octets ++ after) ++ rest) = (node, after ++ rest) := by
    rw [← readNode_skipSpace, List.append_assoc, skipSpace_append blank, readNode_skipSpace,
      List.append_assoc]
    cases written with
    | number written => exact absurd rfl (noNumber _)
    | text marked => rw [List.cons_append, readNode_quote, readQuoted_append marked]
    | array written =>
        rw [List.cons_append, readNode_bracket, (complete _).array written _ (by simp; omega)]
    | object written =>
        rw [List.cons_append, readNode_brace, (complete _).object written _ (by simp; omega)]
    | null => rfl
    | yes => rfl
    | no => rfl
  rw [Document.read, read]
  dsimp only
  rw [skipSpace_append blankAfter]

/-- A text is read as one tree. -/
theorem Node.IsText.unique {other : Node} (text : Node.IsText node octets)
    (otherText : Node.IsText other octets) : node = other := by
  simpa using text.read.symm.trans otherText.read

end KeyCustody.Json
