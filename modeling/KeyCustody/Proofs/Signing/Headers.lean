import KeyCustody.Proofs.Text.Trimming
import KeyCustody.Signing.Authorization
import Mathlib.Data.List.Forall2

namespace KeyCustody.Signing

/-! # Headers in normal form

The normal form of headers does not show in which order they were given, in which letter case their
names, and with which blanks their values. So a signature does not depend on these. -/

variable {header other : Header} {headers others : List Header}

/-- The name of a header in lowercase. -/
def Header.lowerName (header : Header) : String :=
  String.ofList (header.name.toList.map Char.toLower)

@[simp] theorem Header.normal_name (header : Header) : header.normal.name = header.lowerName := rfl

theorem normalHeaders_perm (headers : List Header) :
    (normalHeaders headers).Perm (headers.map Header.normal) :=
  List.mergeSort_perm _ _

theorem byName_trans (first second third : Header)
    (before : decide (first.name ≤ second.name)) (after : decide (second.name ≤ third.name)) :
    decide (first.name ≤ third.name) := by
  simp only [decide_eq_true_eq] at before after ⊢
  exact String.le_trans before after

theorem byName_total (first second : Header) :
    decide (first.name ≤ second.name) || decide (second.name ≤ first.name) := by
  simpa using String.le_total first.name second.name

theorem normalHeaders_ordered (headers : List Header) :
    (normalHeaders headers).Pairwise fun first second => first.name ≤ second.name := by
  have sorted :=
    List.pairwise_mergeSort byName_trans byName_total (headers.map Header.normal)
  simpa only [normalHeaders, decide_eq_true_eq] using sorted

/-- Headers by name, those of one name in the order they were given in. -/
structure Arranged (headers sorted : List Header) : Prop where
  ordered : sorted.Pairwise fun first second => first.name ≤ second.name
  kept : ∀ name, sorted.filter (·.name = name) =
    (headers.map Header.normal).filter (·.name = name)

theorem arranged_normalHeaders (headers : List Header) :
    Arranged headers (normalHeaders headers) := by
  refine ⟨normalHeaders_ordered headers, fun name => ?_⟩
  -- Headers of one name are in order as they stand, so sorting keeps them as they stand.
  have one : ((headers.map Header.normal).filter (·.name = name)).Pairwise
      fun first second => decide (first.name ≤ second.name) = true := by
    refine List.pairwise_of_forall_mem_list fun first member second other => ?_
    have firstNamed := List.of_mem_filter member
    have secondNamed := List.of_mem_filter other
    simp only [decide_eq_true_eq] at firstNamed secondNamed ⊢
    have same : first.name = second.name := firstNamed.trans secondNamed.symm
    exact same ▸ String.le_refl first.name
  have inside : ((headers.map Header.normal).filter (·.name = name)).Sublist
      (normalHeaders headers) :=
    List.sublist_mergeSort byName_trans byName_total one List.filter_sublist
  have lengths := ((normalHeaders_perm headers).filter (·.name = name)).length_eq
  have whole := inside.filter (·.name = name)
  rw [List.filter_filter] at whole
  simp only [Bool.and_self] at whole
  exact (whole.eq_of_length lengths.symm).symm

theorem eq_of_filter_eq {first second : List Header}
    (ordered : first.Pairwise fun a b => a.name ≤ b.name)
    (otherOrdered : second.Pairwise fun a b => a.name ≤ b.name)
    (same : ∀ name, first.filter (·.name = name) = second.filter (·.name = name)) :
    first = second := by
  have least {a b : Header} {front back : List Header}
      (sorted : (a :: front).Pairwise fun a b => a.name ≤ b.name)
      (alike : (a :: front).filter (·.name = b.name) = (b :: back).filter (·.name = b.name)) :
      a.name ≤ b.name := by
    have member : b ∈ (a :: front).filter (·.name = b.name) := by
      rw [alike]
      simp
    rcases List.mem_cons.mp (List.mem_of_mem_filter member) with rfl | later
    · exact String.le_refl _
    · exact (List.pairwise_cons.mp sorted).1 b later
  induction first generalizing second with
  | nil =>
      cases second with
      | nil => rfl
      | cons b back => simpa using same b.name
  | cons a front induction =>
      cases second with
      | nil => simpa using same a.name
      | cons b back =>
          have names : a.name = b.name :=
            String.le_antisymm (least ordered (same b.name)) (least otherOrdered (same a.name).symm)
          have heads := same b.name
          simp only [List.filter_cons, names, decide_true, if_true, List.cons.injEq] at heads
          obtain ⟨rfl, -⟩ := heads
          congr 1
          refine induction (List.pairwise_cons.mp ordered).2 (List.pairwise_cons.mp otherOrdered).2
            fun name => ?_
          have rest := same name
          by_cases named : a.name = name
          · simpa [List.filter_cons, named] using rest
          · simpa [List.filter_cons, named] using rest

theorem arranged_iff {sorted : List Header} :
    Arranged headers sorted ↔ sorted = normalHeaders headers := by
  refine ⟨fun arranged => ?_, fun same => same ▸ arranged_normalHeaders headers⟩
  have normal := arranged_normalHeaders headers
  exact eq_of_filter_eq arranged.ordered normal.ordered fun name =>
    (arranged.kept name).trans (normal.kept name).symm

theorem names_perm (headers : List Header) :
    ((normalHeaders headers).map Header.name).Perm (headers.map Header.lowerName) := by
  have named := (normalHeaders_perm headers).map Header.name
  rwa [List.map_map] at named

/-- Names that differ in more than letter case increase strictly. -/
theorem normalHeaders_increasing (distinct : (headers.map Header.lowerName).Nodup) :
    (normalHeaders headers).Pairwise fun first second => first.name < second.name := by
  have differ := List.pairwise_map.mp ((names_perm headers).nodup_iff.mpr distinct)
  refine (normalHeaders_ordered headers).imp₂ (fun first second before differs => ?_) differ
  exact String.not_le.mp fun after => differs (String.le_antisymm before after)

/-- Headers of distinct names are put into one order, however they are given. -/
theorem normalHeaders_congr (distinct : (headers.map Header.lowerName).Nodup)
    (same : (headers.map Header.normal).Perm (others.map Header.normal)) :
    normalHeaders headers = normalHeaders others := by
  have arranged : (normalHeaders headers).Perm (normalHeaders others) :=
    (normalHeaders_perm headers).trans (same.trans (normalHeaders_perm others).symm)
  have othersDistinct : (others.map Header.lowerName).Nodup := by
    have named := same.map Header.name
    rw [List.map_map, List.map_map] at named
    exact named.nodup_iff.mp distinct
  refine arranged.eq_of_pairwise (fun first second _ _ before after => ?_)
    (normalHeaders_increasing distinct) (normalHeaders_increasing othersDistinct)
  exact absurd (String.lt_trans before after) (String.lt_irrefl _)

/-- The same header with its name in other letter case and blanks around its value. -/
structure Header.Restyled (header other : Header) : Prop where
  name : other.name.toList.map Char.toLower = header.name.toList.map Char.toLower
  value : ∃ before after, Text.Blank before ∧ Text.Blank after ∧
    other.value.toList = before ++ (header.value.toList ++ after)

theorem Header.Restyled.normal_eq (restyled : header.Restyled other) :
    other.normal = header.normal := by
  obtain ⟨before, after, blank, blankAfter, value⟩ := restyled.value
  rw [Header.normal, Header.normal, restyled.name, value, Text.trim_padded blank blankAfter]

/-- The same headers in another order, each of them restyled. -/
def Represents (others headers : List Header) : Prop :=
  ∃ arranged, headers.Perm arranged ∧ List.Forall₂ Header.Restyled arranged others

theorem Represents.normal_perm (represents : Represents others headers) :
    (headers.map Header.normal).Perm (others.map Header.normal) := by
  obtain ⟨arranged, perm, restyled⟩ := represents
  have same : arranged.map Header.normal = others.map Header.normal := by
    induction restyled generalizing headers with
    | nil => rfl
    | cons first rest induction =>
        rw [List.map_cons, List.map_cons, first.normal_eq, induction (List.Perm.refl _)]
  rw [← same]
  exact perm.map Header.normal

/-- A signature and the text that it stands for are the same for every presentation of headers whose
names differ in more than letter case. The lowercase names are listed once each, in increasing
order, and the lines of the headers stand in the same order. -/
theorem signature_ignores_presentation (headers others : List Header)
    (distinct : (headers.map Header.lowerName).Nodup) (represents : Represents others headers) :
    signedNames others = signedNames headers ∧
    (∀ method path body, canonicalRequest method path others body =
      canonicalRequest method path headers body) ∧
    (∀ credentials method path body date,
      (sign credentials method path others body date).text =
        (sign credentials method path headers body date).text) ∧
    ∃ lines : List Header, lines.Perm (headers.map Header.normal) ∧
      (lines.map Header.name).Pairwise (· < ·) ∧
      (∀ header ∈ headers, (lines.map Header.name).count header.lowerName = 1) ∧
      signedNames headers = Text.joinWith ";" (lines.map Header.name) ∧
      ∀ method path body, canonicalRequest method path headers body =
        method ++ "\n" ++ canonicalPath path ++ "\n\n" ++ String.join (lines.map Header.line) ++
          "\n" ++ signedNames headers ++ "\n" ++ Digest.sha256Hex body := by
  have normal : normalHeaders others = normalHeaders headers :=
    (normalHeaders_congr distinct represents.normal_perm).symm
  have names : signedNames others = signedNames headers := by rw [signedNames, normal, signedNames]
  have requests (method path : String) (body : Bytes) :
      canonicalRequest method path others body = canonicalRequest method path headers body := by
    rw [canonicalRequest, normal, names, canonicalRequest]
  refine ⟨names, requests, fun credentials method path body date => ?_, normalHeaders headers,
    normalHeaders_perm headers, List.pairwise_map.mpr (normalHeaders_increasing distinct),
    fun header member => ?_, rfl, fun method path body => rfl⟩
  · simp only [sign, names, requests]
  · have named : header.lowerName ∈ headers.map Header.lowerName := List.mem_map_of_mem member
    rw [(names_perm headers).count_eq, distinct.count, if_pos named]

/-- Headers in two presentations. -/
def hostThenDate : List Header := [⟨"Host", "h"⟩, ⟨"X-Sdk-Date", "d"⟩]

def dateThenHost : List Header := [⟨"x-sdk-date", "\td "⟩, ⟨"HOST", "h"⟩]

theorem hostThenDate_distinct : (hostThenDate.map Header.lowerName).Nodup := by decide

theorem dateThenHost_represents : Represents dateThenHost hostThenDate := by
  refine ⟨hostThenDate.reverse, (List.reverse_perm hostThenDate).symm, ?_⟩
  refine .cons ⟨by decide, ['\t'], [' '], by decide, by decide, by decide⟩ ?_
  exact .cons ⟨by decide, [], [], .nil, .nil, by decide⟩ .nil

theorem dated_host_signed_alike :
    (hostThenDate.map Header.lowerName).Nodup ∧ Represents dateThenHost hostThenDate ∧
      signedNames dateThenHost = "host;x-sdk-date" ∧
      ∀ credentials method path body date,
        (sign credentials method path dateThenHost body date).text =
          (sign credentials method path hostThenDate body date).text := by
  have sorted : normalHeaders hostThenDate = hostThenDate.map Header.normal :=
    List.mergeSort_of_pairwise (by decide)
  have listed : signedNames hostThenDate = "host;x-sdk-date" := by
    rw [signedNames, sorted]
    decide
  obtain ⟨names, -, signatures, -⟩ := signature_ignores_presentation hostThenDate dateThenHost
    hostThenDate_distinct dateThenHost_represents
  exact ⟨hostThenDate_distinct, dateThenHost_represents, names.trans listed, signatures⟩

end KeyCustody.Signing
