import KeyCustody.Cloud.KeyService
import KeyCustody.Proofs.Text.Fields
import KeyCustody.Proofs.Url.Path
import Mathlib.Data.List.Infix

namespace KeyCustody

/-! # Values that headers may have

Everything that is written into a signed request is of visible characters, apart from what its
account and its address bring: the names of the headers, the digits of a date, the octets of a
signature. So only these can keep a request from being sent. -/

namespace Http

theorem isSendable_append (first second : String) :
    isSendable (first ++ second) = (isSendable first && isSendable second) := by
  rw [isSendable, String.toList_append, List.all_append]
  rfl

theorem isSendable_ofList_of_visible {text : List Char}
    (visible : ∀ c ∈ text, 0x20 ≤ c.toNat ∧ c.toNat < 0x7F) : isSendable (String.ofList text) := by
  rw [isSendable, String.toList_ofList, List.all_eq_true]
  intro c member
  have bounds := visible c member
  simp only [Bool.or_eq_true, Bool.and_eq_true, decide_eq_true_iff, bne_iff_ne]
  omega

theorem isSendable_natural (number : Nat) : isSendable (toString number) := by
  rw [Nat.toString_eq_ofList_toDigits]
  refine isSendable_ofList_of_visible fun c member => ?_
  have digit := Nat.isDigit_of_mem_toDigits (by decide) (by decide) member
  have zero : '0'.toNat = 0x30 := by decide
  have nine : '9'.toNat = 0x39 := by decide
  rw [Char.isDigit_iff_toNat, zero, nine] at digit
  omega

theorem isSendable_paddedNumber (width number : Nat) :
    isSendable (Calendar.paddedNumber width number) := by
  rw [Calendar.paddedNumber, isSendable_append, isSendable_natural, Bool.and_true]
  refine isSendable_ofList_of_visible fun c member => ?_
  rw [List.eq_of_mem_replicate member]
  decide

theorem isSendable_yearText (year : Int) : isSendable (Calendar.yearText year) := by
  have minus : isSendable "-" := by decide
  have plus : isSendable "+" := by decide
  rw [Calendar.yearText]
  split
  · rw [isSendable_append, minus, isSendable_paddedNumber, Bool.and_true]
  · split
    · rw [isSendable_append, plus, isSendable_paddedNumber, Bool.and_true]
    · exact isSendable_paddedNumber _ _

theorem isSendable_timestamp (seconds : Int) : isSendable (Calendar.timestamp seconds) := by
  have middle : isSendable "T" := by decide
  have final : isSendable "Z" := by decide
  simp only [Calendar.timestamp, Calendar.Moment.text, isSendable_append, isSendable_yearText,
    isSendable_paddedNumber, middle, final, Bool.and_true]

theorem isSendable_of_plainName {name : String} (plain : Url.PlainName name.toList) :
    isSendable name := by
  have visible {c : Char} (unreserved : Url.isUnreserved c) : 0x20 ≤ c.toNat ∧ c.toNat < 0x7F :=
    Url.unreserved_cases (P := fun c => 0x20 ≤ c.toNat ∧ c.toNat < 0x7F) unreserved (by decide)
  rw [← @String.ofList_toList name]
  exact isSendable_ofList_of_visible fun c member => visible (plain.unreserved c member)

theorem isSendable_encode (octets : Bytes) : isSendable (Text.Hex.encode octets) := by
  have digits : ∀ high < 16, ∀ low < 16,
      isSendable (String.ofList [Text.Hex.digit high, Text.Hex.digit low]) := by decide
  rw [isSendable, Text.Hex.encode, String.toList_ofList, List.all_flatMap, List.all_eq_true]
  intro octet member
  have bound := octet.toNat_lt
  have pair := digits (octet.toNat / 16) (by omega) (octet.toNat % 16) (by omega)
  rwa [isSendable, String.toList_ofList] at pair

theorem isSendable_joinWith {texts : List String} (sendable : ∀ text ∈ texts, isSendable text) :
    isSendable (Text.joinWith ";" texts) := by
  have joined : (Text.joinWith ";" texts).toList = [';'].intercalate (texts.map String.toList) :=
    Text.toList_joinWith ';' texts
  rw [isSendable, joined, List.all_eq_true]
  intro c member
  rcases Text.mem_intercalate member with separator | ⟨piece, found, inside⟩
  · rw [List.mem_singleton.mp separator]
    rfl
  · obtain ⟨text, given, rfl⟩ := List.mem_map.mp found
    exact List.all_eq_true.mp (sendable text given) c inside

end Http

namespace Cloud.KeyService

theorem isSendable_signedNames (account : Account) (host date : String) :
    Http.isSendable (Signing.signedNames (signedHeaders account host date)) := by
  refine Http.isSendable_joinWith fun name member => ?_
  obtain ⟨normal, sorted, rfl⟩ := List.mem_map.mp member
  obtain ⟨header, given, rfl⟩ := List.mem_map.mp (List.mem_mergeSort.mp sorted)
  have named : header.name ∈ ["host", "content-type", "X-Sdk-Date", "X-Project-Id"] :=
    List.mem_map_of_mem (f := Signing.Header.name) given
  have lower : ∀ name ∈ ["host", "content-type", "X-Sdk-Date", "X-Project-Id"],
      Http.isSendable (String.ofList (name.toList.map Char.toLower)) := by decide
  exact lower header.name named

/-- Nothing but the access key can keep a signature from being sent. -/
theorem isSendable_sign_iff (account : Account) (method path host date : String) (body : Bytes) :
    Http.isSendable
        (Signing.sign account.credentials method path (signedHeaders account host date) body
          date).text ↔
      Http.isSendable account.credentials.accessKey := by
  have algorithm : Http.isSendable Signing.algorithm := by decide
  have access : Http.isSendable " Access=" := by decide
  have headers : Http.isSendable ", SignedHeaders=" := by decide
  have signature : Http.isSendable ", Signature=" := by decide
  simp only [Signing.Authorization.text, Signing.sign, Http.isSendable_append, algorithm, access,
    headers, isSendable_signedNames, signature, Http.isSendable_encode, Bool.true_and,
    Bool.and_true]

theorem isSendable_signedHeaders_iff {account : Account} {host : String} (seconds : Int)
    (project : Url.PlainName account.cloud.projectId.toList) :
    (∀ header ∈ signedHeaders account host (Calendar.timestamp seconds),
        Http.isSendable header.value) ↔ Http.isSendable host := by
  have media : Http.isSendable mediaType := by decide
  simp [signedHeaders, media, Http.isSendable_timestamp, Http.isSendable_of_plainName project]

end Cloud.KeyService

end KeyCustody
