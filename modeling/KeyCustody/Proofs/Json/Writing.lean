import KeyCustody.Proofs.Json.Meaning
import KeyCustody.Proofs.Text.Decoding

namespace KeyCustody.Json

/-! # Values written

What is written on one line is a text of the value, if its numbers are. -/

variable {octets : Bytes} {marks later : List Mark} {value : Bytes}

/-- Marks that stand for some octets, with a spelling of them. -/
structure Spells (marks : List Mark) (spelled value : Bytes) : Prop where
  marked {later : List Mark} {octets : Bytes} (marked : Marked later octets) :
    Marked (marks ++ later) (spelled ++ octets)
  means {later : List Mark} {octets : Bytes} (means : markOctets none later = .ok octets) :
    markOctets none (marks ++ later) = .ok (value ++ octets)

theorem spells_short (letter : UInt8) {octet : UInt8} (escape : shortEscape? letter = some octet) :
    Spells [.octet octet] [Sign.backslash, letter] [octet] where
  marked marked := .short escape marked
  means means := by
    rw [List.singleton_append, markOctets, means]
    rfl

theorem spells_unit {a b c d : UInt8} {code : Nat} (escape : unit? a b c d = some code)
    (control : code < 32) :
    Spells [.unit code] [Sign.backslash, Sign.letterU, a, b, c, d]
      (Text.Utf8.encodeChar (Char.ofNat code)) where
  marked marked := .unit escape marked
  means means := by
    have noTrailing : isTrailingSurrogate code = false := by simp [isTrailingSurrogate]; omega
    have noLeading : isLeadingSurrogate code = false := by simp [isLeadingSurrogate]; omega
    rw [List.singleton_append, markOctets.eq_def]
    simp [noTrailing, noLeading, means, bind, Except.bind, pure, Except.pure]

theorem spells_plain (octets : Bytes) (plain : ∀ octet ∈ octets,
    octet ≠ Sign.quote ∧ octet ≠ Sign.backslash ∧ ¬ octet < 0x20) :
    Spells (octets.map Mark.octet) octets octets := by
  induction octets with
  | nil => exact ⟨fun marked => marked, fun means => means⟩
  | cons octet octets induction =>
      rw [List.forall_mem_cons] at plain
      obtain ⟨⟨noQuote, noEscape, visible⟩, plain⟩ := plain
      have rest := induction plain
      refine ⟨fun marked => .plain noQuote noEscape visible (rest.marked marked), fun means => ?_⟩
      rw [List.map_cons, List.cons_append, markOctets, rest.means means]
      rfl

theorem encodeChar_plain {c : Char} (noQuote : c ≠ '"') (noEscape : c ≠ '\\')
    (visible : 32 ≤ c.toNat) : ∀ octet ∈ Text.Utf8.encodeChar c,
      octet ≠ Sign.quote ∧ octet ≠ Sign.backslash ∧ ¬ octet < 0x20 := by
  intro octet member
  have noQuoteCode : c.toNat ≠ '"'.toNat := fun same => noQuote (Char.toNat_inj.mp same)
  have noEscapeCode : c.toNat ≠ '\\'.toNat := fun same => noEscape (Char.toNat_inj.mp same)
  have code := Text.Utf8.toNat_of_mem_encodeChar member
  simp only [ne_eq, UInt8.lt_iff_toNat_lt, ← UInt8.toNat_inj, Sign.quote, Sign.backslash,
    UInt8.reduceToNat, Char.reduceToNat] at *
  omega

/-- The digits of the escape of a control character. -/
theorem control_escape : ∀ code < 32, ∃ high low : UInt8,
    unit? 0x30 0x30 high low = some code ∧
      Text.Utf8.encode ['\\', 'u', '0', '0', Text.Hex.digit (code / 16),
        Text.Hex.digit (code % 16)] = [Sign.backslash, Sign.letterU, 0x30, 0x30, high, low] := by
  have each : ∀ code < 32,
      unit? 0x30 0x30 (Text.Hex.digit (code / 16)).toNat.toUInt8
          (Text.Hex.digit (code % 16)).toNat.toUInt8 = some code ∧
        Text.Utf8.encode ['\\', 'u', '0', '0', Text.Hex.digit (code / 16),
          Text.Hex.digit (code % 16)] = [Sign.backslash, Sign.letterU, 0x30, 0x30,
            (Text.Hex.digit (code / 16)).toNat.toUInt8,
            (Text.Hex.digit (code % 16)).toNat.toUInt8] := by decide
  exact fun code control => ⟨_, _, each code control⟩

theorem spells_escape (c : Char) :
    ∃ marks, Spells marks (Text.Utf8.encode (escape c)) (Text.Utf8.encodeChar c) := by
  unfold escape
  split_ifs with quote backslash newline carriage tab back feed control
  · subst quote
    exact ⟨_, spells_short Sign.quote rfl⟩
  · subst backslash
    exact ⟨_, spells_short Sign.backslash rfl⟩
  · subst newline
    exact ⟨_, spells_short 0x6E rfl⟩
  · subst carriage
    exact ⟨_, spells_short 0x72 rfl⟩
  · subst tab
    exact ⟨_, spells_short 0x74 rfl⟩
  · obtain rfl : c = Char.ofNat 8 := by rw [← back, Char.ofNat_toNat]
    exact ⟨_, spells_short 0x62 rfl⟩
  · obtain rfl : c = Char.ofNat 12 := by rw [← feed, Char.ofNat_toNat]
    exact ⟨_, spells_short 0x66 rfl⟩
  · obtain ⟨high, low, unit, spelled⟩ := control_escape c.toNat control
    have unitSpells := spells_unit unit control
    rw [Char.ofNat_toNat] at unitSpells
    exact ⟨_, spelled ▸ unitSpells⟩
  · refine ⟨(Text.Utf8.encodeChar c).map Mark.octet, ?_⟩
    rw [Text.Utf8.encode, List.flatMap_singleton]
    exact spells_plain _ (encodeChar_plain quote backslash (by omega))

theorem spells_flatMap_escape (text : List Char) :
    ∃ marks, Spells marks (Text.Utf8.encode (text.flatMap escape)) (Text.Utf8.encode text) := by
  induction text with
  | nil => exact ⟨[], fun marked => marked, fun means => means⟩
  | cons c text induction =>
      obtain ⟨first, head⟩ := spells_escape c
      obtain ⟨others, tail⟩ := induction
      refine ⟨first ++ others, fun marked => ?_, fun means => ?_⟩
      · simpa [Text.Utf8.encode] using head.marked (tail.marked marked)
      · simpa [Text.Utf8.encode] using head.means (tail.means means)

/-- A text in quotes is a string that says the text. -/
theorem quote_written (text : String) : ∃ marks octets,
    Text.octets (quote text) = Sign.quote :: octets ∧ Marked marks octets ∧
      Quoted.text ⟨marks, none⟩ = .ok text := by
  obtain ⟨marks, spells⟩ := spells_flatMap_escape text.toList
  have marked := spells.marked .close
  have means := spells.means (rfl : markOctets none [] = .ok [])
  rw [List.append_nil] at marked means
  rw [List.append_nil] at means
  refine ⟨marks, _, ?_, marked, ?_⟩
  · rw [Text.octets, quote, String.toList_ofList]
    simp [Text.Utf8.encode]
    rfl
  · rw [Quoted.text, means]
    simp [Text.ofOctets?_encode, bind, Except.bind, pure, Except.pure]

mutual

/-- The numbers of the value are written so that they are read back. -/
def ReadsBack : Json → Prop
  | .number value => ∃ numeral : Numeral,
      numeral.Written (Text.octets value.text) ∧ numeral.value? = some value
  | .array items => itemsReadBack items
  | .object members => membersReadBack members
  | _ => True

def itemsReadBack : List Json → Prop
  | [] => True
  | item :: rest => ReadsBack item ∧ itemsReadBack rest

def membersReadBack : List (String × Json) → Prop
  | [] => True
  | (_, value) :: rest => ReadsBack value ∧ membersReadBack rest

end

theorem octets_append (front rest : String) :
    Text.octets (front ++ rest) = Text.octets front ++ Text.octets rest := by
  simp [Text.octets, Text.Utf8.encode]

theorem Node.Written.isText {node : Node} (written : Node.Written node octets) :
    Node.IsText node octets := by
  have nothing : Blank [] := nofun
  simpa using Node.IsText.mk nothing written nothing

theorem quote_isText (text : String) : ∃ name : Quoted,
    name.IsText (Text.octets (quote text)) ∧ name.text = .ok text := by
  obtain ⟨marks, octets, spelled, marked, reads⟩ := quote_written text
  refine ⟨⟨marks, none⟩, ?_, reads⟩
  rw [spelled]
  have nothing : Blank [] := nofun
  simpa using Quoted.IsText.mk nothing marked nothing

mutual

theorem compact_written : ∀ {json : Json}, json.ReadsBack →
    ∃ node, Node.Written node (Text.octets json.compact) ∧ Node.Means node json
  | .null, _ => ⟨.null, .null, .null⟩
  | .boolean true, _ => ⟨_, .yes, .boolean true⟩
  | .boolean false, _ => ⟨_, .no, .boolean false⟩
  | .number value, readsBack => by
      rw [ReadsBack] at readsBack
      obtain ⟨numeral, written, reads⟩ := readsBack
      exact ⟨_, by rw [compact]; exact .number written, .number reads⟩
  | .text value, _ => by
      obtain ⟨marks, octets, spelled, marked, reads⟩ := quote_written value
      exact ⟨_, by rw [compact, spelled]; exact .text marked, .text reads⟩
  | .array items, readsBack => by
      rw [ReadsBack] at readsBack
      obtain ⟨nodes, written, means, -⟩ := compactItems_written readsBack
      refine ⟨_, ?_, .array means⟩
      rw [compact, octets_append, octets_append]
      exact .array written
  | .object members, readsBack => by
      rw [ReadsBack] at readsBack
      obtain ⟨nodes, written, means, -⟩ := compactMembers_written readsBack
      refine ⟨_, ?_, .object means⟩
      rw [compact, octets_append, octets_append]
      exact .object written

theorem compactItems_written : ∀ {items : List Json}, itemsReadBack items →
    ∃ nodes, Items.Written nodes (Text.octets (compactItems items) ++ Text.octets "]") ∧
      Items.Means nodes items ∧ (items ≠ [] → nodes ≠ .close)
  | [], _ => ⟨.close, .empty nofun, .close, fun more => absurd rfl more⟩
  | [item], readsBack => by
      rw [itemsReadBack] at readsBack
      obtain ⟨node, written, means⟩ := compact_written readsBack.1
      refine ⟨_, ?_, .item means .close, fun _ => nofun⟩
      rw [compactItems]
      exact .last written.isText
  | item :: next :: rest, readsBack => by
      rw [itemsReadBack] at readsBack
      obtain ⟨node, written, means⟩ := compact_written readsBack.1
      obtain ⟨nodes, others, othersMean, follows⟩ := compactItems_written readsBack.2
      refine ⟨_, ?_, .item means othersMean, fun _ => nofun⟩
      rw [compactItems, octets_append, octets_append, List.append_assoc, List.append_assoc]
      · exact .more written.isText (follows nofun) others
      · exact nofun

theorem compactMembers_written : ∀ {members : List (String × Json)}, membersReadBack members →
    ∃ nodes, Members.Written nodes (Text.octets (compactMembers members) ++ Text.octets "\x7d") ∧
      Members.Means nodes members ∧ (members ≠ [] → nodes ≠ .close)
  | [], _ => ⟨.close, .empty nofun, .close, fun more => absurd rfl more⟩
  | [(name, value)], readsBack => by
      rw [membersReadBack] at readsBack
      obtain ⟨quoted, named, reads⟩ := quote_isText name
      obtain ⟨node, written, means⟩ := compact_written readsBack.1
      refine ⟨_, ?_, .member reads means .close, fun _ => nofun⟩
      rw [compactMembers, octets_append, octets_append, List.append_assoc, List.append_assoc]
      exact .last named written.isText
  | (name, value) :: next :: rest, readsBack => by
      rw [membersReadBack] at readsBack
      obtain ⟨quoted, named, reads⟩ := quote_isText name
      obtain ⟨node, written, means⟩ := compact_written readsBack.1
      obtain ⟨nodes, others, othersMean, follows⟩ := compactMembers_written readsBack.2
      refine ⟨_, ?_, .member reads means othersMean, fun _ => nofun⟩
      rw [compactMembers, octets_append, octets_append, octets_append, octets_append]
      · simp only [List.append_assoc]
        exact .more named written.isText (follows nofun) others
      · exact nofun

end

/-- What is written on one line is a text of the value. -/
theorem writtenAs_compact {json : Json} (readsBack : json.ReadsBack) :
    json.WrittenAs (Text.octets json.compact) := by
  obtain ⟨node, written, means⟩ := compact_written readsBack
  exact ⟨node, written.isText, means⟩

end KeyCustody.Json
