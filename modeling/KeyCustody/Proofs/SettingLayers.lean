import KeyCustody.Proofs.Session
import KeyCustody.Proofs.Toml.Sections

namespace KeyCustody.Settings

/-! # Layers of settings

A setting is what a variable of the host puts in its place, or else what the file gives, or else
its default. The other settings have no part in it. -/

open Toml (Column Entries Fills Kind Lays Slot Spares Typed Value given? part?)

variable {σ : Type} {host : Host} {entries : Entries} {settings : Settings}

/-- A setting: what it is without a file, and the name of the variable that replaces it, if there
is one. -/
structure Known (σ : Type) extends Column σ where
  default : Option Value
  replacement : Option String

def cloudSettings : List (Known CloudSettings) :=
  [⟨⟨"region", .text, fun cloud => some (.text cloud.region)⟩, some (.text ""),
      some "HUAWEI_DEFAULT_REGION"⟩,
    ⟨⟨"project_id", .text, fun cloud => some (.text cloud.projectId)⟩, some (.text ""),
      some "HUAWEI_PROJECT_ID"⟩,
    ⟨⟨"domain", .text, fun cloud => some (.text cloud.domain)⟩, some (.text "myhuaweicloud.com"),
      none⟩,
    ⟨⟨"kms_endpoint", .text, fun cloud => cloud.kmsEndpoint.map .text⟩, none, none⟩,
    ⟨⟨"obs_endpoint", .text, fun cloud => cloud.obsEndpoint.map .text⟩, none, none⟩,
    ⟨⟨"timeout_secs", .natural, fun cloud => some (.integer cloud.timeout)⟩, some (.integer 30),
      none⟩]

def importSettings : List (Known ImportSettings) :=
  [⟨⟨"key_aliases", .texts, fun settings => some (.array (settings.names.map .text))⟩,
      some (.array []), none⟩,
    ⟨⟨"obs_url", .text, fun settings => settings.manifestUrl.map .text⟩, none, none⟩,
    ⟨⟨"pace_ms", .natural, fun settings => some (.integer settings.pace)⟩, some (.integer 1000),
      none⟩]

def cloudColumns : List (Column CloudSettings) := cloudSettings.map Known.toColumn

def importColumns : List (Column ImportSettings) := importSettings.map Known.toColumn

/-- What a variable of the host puts in the place of a setting. -/
def Known.replaced? (host : Host) (known : Known σ) : Option Value := do
  let value ← host.environment (← known.replacement)
  if value = "" then none else some (.text value)

theorem cloud_lays : Lays cloudFields cloudColumns where
  distinct := by decide
  fills := by
    refine .cons ?_ (.cons ?_ (.cons ?_ (.cons ?_ (.cons ?_ (.cons ?_ .nil)))))
    · exact Toml.fills_of .text fun _ _ => rfl
    · exact Toml.fills_of .text fun _ _ => rfl
    · exact Toml.fills_of .text fun _ _ => rfl
    · exact Toml.fills_of .text fun _ _ => rfl
    · exact Toml.fills_of .text fun _ _ => rfl
    · exact Toml.fills_of .natural fun _ _ => rfl
  spares := by
    simp only [cloudFields, cloudColumns, cloudSettings, List.map_cons, List.map_nil,
      List.forall_mem_cons, List.not_mem_nil, false_implies, implies_true, and_true]
    and_intros
    all_goals first
      | exact fun other => absurd rfl other
      | exact fun _ => Toml.spares_of fun _ _ => rfl

theorem import_lays : Lays importFields importColumns where
  distinct := by decide
  fills := by
    refine .cons ?_ (.cons ?_ (.cons ?_ .nil))
    · exact Toml.fills_of .texts fun _ _ => rfl
    · exact Toml.fills_of .text fun _ _ => rfl
    · exact Toml.fills_of .natural fun _ _ => rfl
  spares := by
    simp only [importFields, importColumns, importSettings, List.map_cons, List.map_nil,
      List.forall_mem_cons, List.not_mem_nil, false_implies, implies_true, and_true]
    and_intros
    all_goals first
      | exact fun other => absurd rfl other
      | exact fun _ => Toml.spares_of fun _ _ => rfl

theorem fill_cloud (settings : Settings) (value : Value) (entries : Entries) :
    Toml.fill fields settings (("cloud", value) :: entries) =
      (value.section? cloudFields {}).bind fun cloud =>
        Toml.fill fields { settings with cloud } entries :=
  (Toml.fill_cons_of_known (by decide) List.mem_cons_self).trans Option.bind_map

theorem fill_import (settings : Settings) (value : Value) (entries : Entries) :
    Toml.fill fields settings (("alias_import", value) :: entries) =
      (value.section? importFields {}).bind fun aliasImport =>
        Toml.fill fields { settings with aliasImport } entries :=
  (Toml.fill_cons_of_known (by decide) (List.mem_cons_of_mem _ List.mem_cons_self)).trans
    Option.bind_map

/-- The two sections are read apart, in whichever order they stand. -/
theorem fill_fields (keyed : entries.WellKeyed) (settings : Settings) :
    Toml.fill fields settings entries =
      (part? cloudFields {} settings.cloud (entries.lookup "cloud")).bind fun cloud =>
        (part? importFields {} settings.aliasImport (entries.lookup "alias_import")).map
          fun aliasImport => ⟨cloud, aliasImport⟩ := by
  -- Each section stands once at most, so what stands behind one leaves what it gave.
  induction entries generalizing settings with
  | nil => rfl
  | cons entry entries induction =>
      obtain ⟨name, value⟩ := entry
      have apart : "alias_import" ≠ "cloud" := by decide
      by_cases isCloud : name = "cloud"
      · subst isCloud
        rw [fill_cloud, Toml.lookup_cons_of_ne apart, List.lookup_cons_self]
        simp only [induction keyed.tail, keyed.lookup_tail, part?, Option.bind_some]
      · by_cases isImport : name = "alias_import"
        · subst isImport
          rw [fill_import, Toml.lookup_cons_of_ne apart.symm, List.lookup_cons_self]
          simp only [induction keyed.tail, keyed.lookup_tail, part?, Option.map_some]
          cases value.section? importFields {} <;> simp
        · have unknown : name ∉ fields.map Slot.name := by
            simpa [fields] using ⟨isCloud, isImport⟩
          rw [Toml.fill_cons_of_unknown unknown, induction keyed.tail,
            Toml.lookup_cons_of_ne (Ne.symm isCloud), Toml.lookup_cons_of_ne (Ne.symm isImport)]

theorem ofEntries_eq (keyed : entries.WellKeyed) : ofEntries entries =
    (part? cloudFields {} {} (entries.lookup "cloud")).bind fun cloud =>
      (part? importFields {} {} (entries.lookup "alias_import")).map fun aliasImport =>
        ⟨cloud, aliasImport⟩ := fill_fields keyed {}

theorem ofEntries_eq_some_iff (keyed : entries.WellKeyed) : ofEntries entries = some settings ↔
    part? cloudFields {} {} (entries.lookup "cloud") = some settings.cloud ∧
      part? importFields {} {} (entries.lookup "alias_import") = some settings.aliasImport := by
  rw [ofEntries_eq keyed]
  simp only [Option.bind_eq_some_iff, Option.map_eq_some_iff]
  constructor
  · intro ⟨cloud, cloudRead, aliasImport, importRead, same⟩
    subst same
    exact ⟨cloudRead, importRead⟩
  · intro ⟨cloudRead, importRead⟩
    exact ⟨_, cloudRead, _, importRead, rfl⟩

/-- Both sections give their settings nothing but values of their kinds. -/
structure Fits (entries : Entries) : Prop where
  cloud : Typed cloudColumns (entries.lookup "cloud")
  aliasImport : Typed importColumns (entries.lookup "alias_import")

theorem keyed_part (keyed : entries.WellKeyed) (name : String) :
    ∀ value ∈ entries.lookup name, value.WellKeyed := fun _ => keyed.of_lookup

theorem exists_ofEntries_iff (keyed : entries.WellKeyed) :
    (∃ settings, ofEntries entries = some settings) ↔ Fits entries := by
  have cloudIff := cloud_lays.part_iff (keyed_part keyed "cloud") {}
  have importIff := import_lays.part_iff (keyed_part keyed "alias_import") {}
  simp only [ofEntries_eq_some_iff keyed]
  constructor
  · intro ⟨settings, cloud, aliasImport⟩
    exact ⟨cloudIff.mp ⟨_, cloud⟩, importIff.mp ⟨_, aliasImport⟩⟩
  · intro fits
    obtain ⟨cloud, cloudRead⟩ := cloudIff.mpr fits.cloud
    obtain ⟨aliasImport, importRead⟩ := importIff.mpr fits.aliasImport
    exact ⟨⟨cloud, aliasImport⟩, cloudRead, importRead⟩

/-- What a setting is: what a variable of the host puts in its place, or else what the section
gives, or else the default. -/
def Known.layered (host : Host) (columns : List (Column σ)) (part : Option Value)
    (known : Known σ) : Option Value :=
  (known.replaced? host).or ((given? columns part known.toColumn).or known.default)

structure Layered (host : Host) (entries : Entries) (settings : Settings) : Prop where
  cloud : ∀ known ∈ cloudSettings,
    known.held settings.cloud = known.layered host cloudColumns (entries.lookup "cloud")
  aliasImport : ∀ known ∈ importSettings,
    known.held settings.aliasImport = known.layered host importColumns (entries.lookup "alias_import")

/-- One record of settings is the other with what variables of the host put in place of some. -/
structure Overrides (host : Host) (before after : Settings) : Prop where
  cloud : ∀ known ∈ cloudSettings,
    known.held after.cloud = (known.replaced? host).or (known.held before.cloud)
  aliasImport : ∀ known ∈ importSettings,
    known.held after.aliasImport = (known.replaced? host).or (known.held before.aliasImport)

theorem replaced?_eq (known : Known σ) :
    known.replaced? host = (known.replacement.bind host.setting?).map .text := by
  rw [Known.replaced?]
  cases known.replacement with
  | none => rfl
  | some name =>
      cases set : host.environment name with
      | none => simp [Host.setting?, set]
      | some value =>
          by_cases empty : value = ""
          · simp [Host.setting?, set, empty, Option.filter_some]
          · simp [Host.setting?, set, empty, Option.filter_some]

theorem override_overrides (host : Host) (settings : Settings) :
    Overrides host settings (override host settings) where
  cloud := by
    simp [cloudSettings, replaced?_eq, override, regionName, projectName]
  aliasImport := by
    simp [importSettings, replaced?_eq, override]

theorem override_idempotent (host : Host) (settings : Settings) :
    override host (override host settings) = override host settings := by
  cases region : host.setting? regionName <;> cases project : host.setting? projectName <;>
    simp [override, region, project]

theorem defaults_held : (∀ known ∈ cloudSettings, known.held {} = known.default) ∧
    ∀ known ∈ importSettings, known.held {} = known.default := by
  simp [cloudSettings, importSettings]

theorem text_injective : Function.Injective Value.text := fun _ _ same => Value.text.inj same

/-- The settings are all there is in a section. -/
theorem cloud_ext {one other : CloudSettings}
    (same : ∀ known ∈ cloudSettings, known.held one = known.held other) : one = other := by
  cases one
  cases other
  simpa [cloudSettings, (Option.map_injective text_injective).eq_iff, Int.natCast_inj] using
    same

theorem import_ext {one other : ImportSettings}
    (same : ∀ known ∈ importSettings, known.held one = known.held other) : one = other := by
  cases one
  cases other
  simpa [importSettings, (Option.map_injective text_injective).eq_iff,
    (List.map_injective_iff.mpr text_injective).eq_iff, Int.natCast_inj] using same

theorem layered_of_ofEntries (keyed : entries.WellKeyed)
    (read : ofEntries entries = some settings) (host : Host) :
    Layered host entries (override host settings) := by
  obtain ⟨cloudRead, importRead⟩ := (ofEntries_eq_some_iff keyed).mp read
  have overrides := override_overrides host settings
  constructor
  · intro known listed
    rw [overrides.cloud known listed, Known.layered, cloud_lays.held_part
      (keyed_part keyed "cloud") cloudRead (List.mem_map_of_mem listed), defaults_held.1 known listed]
  · intro known listed
    rw [overrides.aliasImport known listed, Known.layered, import_lays.held_part
      (keyed_part keyed "alias_import") importRead (List.mem_map_of_mem listed),
      defaults_held.2 known listed]

theorem Layered.unique {other : Settings} (layered : Layered host entries settings)
    (otherLayered : Layered host entries other) : settings = other := by
  have cloud : settings.cloud = other.cloud := cloud_ext fun known listed =>
    (layered.cloud known listed).trans (otherLayered.cloud known listed).symm
  have aliasImport : settings.aliasImport = other.aliasImport := import_ext fun known listed =>
    (layered.aliasImport known listed).trans (otherLayered.aliasImport known listed).symm
  cases settings
  cases other
  rw [mk.injEq]
  exact ⟨cloud, aliasImport⟩

/-- The file that the host is asked for is a text of a document with these entries. -/
inductive Supplies (host : Host) (path : Option String) (entries : Entries) : Prop where
  | mk (octets : Bytes) (text : String) (stored : host.files (path.getD defaultPath) = .file octets)
      (decoded : Text.ofOctets? octets = some text) (parsed : Toml.parse text = some entries) :
      Supplies host path entries

theorem Supplies.keyed {path : Option String} (supplied : Supplies host path entries) :
    entries.WellKeyed := by
  obtain ⟨octets, text, stored, decoded, parsed⟩ := supplied
  exact Toml.wellKeyed_of_parse parsed

theorem Supplies.load {path : Option String} (supplied : Supplies host path entries) :
    load host path = (ofEntries entries).elim
      (.error (.settings (.notToml "a setting is of another type")))
      fun settings => .ok (override host settings) := by
  obtain ⟨octets, text, stored, decoded, parsed⟩ := supplied
  have read : ofFile host path = (ofEntries entries).elim
      (.error (.settings (.notToml "a setting is of another type"))) .ok := by
    cases path with
    | none =>
        rw [Option.getD_none] at stored
        simp [ofFile, stored, ofStored, decoded, parse, parsed]
    | some path =>
        rw [Option.getD_some] at stored
        simp [ofFile, stored, ofStored, decoded, parse, parsed]
  rw [Settings.load, read]
  cases ofEntries entries <;> rfl

/-- A section that gives nothing, or none. -/
inductive Vacant : Option Value → Prop where
  | missing : Vacant none
  | inline : Vacant (some (.inline []))
  | table (origin : Toml.Origin) : Vacant (some (.table origin []))

def Alike (one other : Option Value) : Prop := one = other ∨ Vacant one ∧ Vacant other

theorem Vacant.part? {fields : List (Slot σ)} {record : σ} {part : Option Value}
    (vacant : Vacant part) : part? fields record record part = some record := by
  cases vacant <;> rfl

theorem Alike.part? {fields : List (Slot σ)} {record : σ} {one other : Option Value}
    (alike : Alike one other) :
    part? fields record record one = part? fields record record other := by
  obtain same | ⟨vacant, otherVacant⟩ := alike
  · rw [same]
  · rw [vacant.part?, otherVacant.part?]

/-- A file with settings of its own and one that is not known, under a host that replaces the
region. -/
def replacingHost : Host where
  environment name := if name = "HUAWEI_DEFAULT_REGION" then some "ap" else none
  files path :=
    if path = "keyward.toml" then
      .file (Text.octets "[cloud]\nregion = \"eu\"\nproject_id = \"p\"\nlabel = 1\n")
    else .absent

/-- Where the file that is asked for is a document, the settings are those with the three layers if
no value is of another kind than its setting, and an error otherwise. Sections that are missing and
sections that are empty make no difference. What the variables of the host replace stays as they
replaced it. -/
theorem loaded_in_layers (host : Host) (path : Option String) (entries : Entries)
    (supplied : Supplies host path entries) :
    (∀ settings, load host path = .ok settings ↔
      Fits entries ∧ Layered host entries settings) ∧
    (Fits entries → ∃ settings, load host path = .ok settings) ∧
    (¬ Fits entries →
      load host path = .error (.settings (.notToml "a setting is of another type"))) ∧
    (∀ other otherPath others, Supplies other otherPath others →
      other.environment = host.environment →
      Alike (entries.lookup "cloud") (others.lookup "cloud") →
      Alike (entries.lookup "alias_import") (others.lookup "alias_import") →
      load other otherPath = load host path) ∧
    ∀ settings, Overrides host settings (override host settings) ∧
      override host (override host settings) = override host settings := by
  have keyed := supplied.keyed
  have fits := exists_ofEntries_iff keyed
  rw [supplied.load]
  refine ⟨fun settings => ?_, fun given => ?_, fun unfit => ?_, ?_, fun settings =>
    ⟨override_overrides host settings, override_idempotent host settings⟩⟩
  · constructor
    · intro loaded
      cases read : ofEntries entries with
      | none => simp [read] at loaded
      | some found =>
          simp only [read, Option.elim_some, Except.ok.injEq] at loaded
          rw [← loaded]
          exact ⟨fits.mp ⟨found, read⟩, layered_of_ofEntries keyed read host⟩
    · intro ⟨given, layered⟩
      obtain ⟨found, read⟩ := fits.mpr given
      rw [read, layered.unique (layered_of_ofEntries keyed read host)]
      rfl
  · obtain ⟨found, read⟩ := fits.mpr given
    exact ⟨override host found, by rw [read]; rfl⟩
  · cases read : ofEntries entries with
    | none => rfl
    | some found => exact absurd (fits.mp ⟨found, read⟩) unfit
  · intro other otherPath others otherSupplied environment cloud aliasImport
    have sameEntries : ofEntries others = ofEntries entries := by
      rw [ofEntries_eq otherSupplied.keyed, ofEntries_eq keyed, cloud.part?, aliasImport.part?]
    have sameOverride (settings : Settings) : override other settings = override host settings := by
      simp [override, Host.setting?, environment]
    rw [otherSupplied.load, sameEntries]
    simp only [sameOverride]

theorem replacingHost_loaded : ∃ entries, Supplies replacingHost none entries ∧ Fits entries ∧
    Layered replacingHost entries ⟨{ region := "ap", projectId := "p" }, {}⟩ := by
  have isDocument :
      (Toml.parse "[cloud]\nregion = \"eu\"\nproject_id = \"p\"\nlabel = 1\n").isSome := by
    decide +kernel
  obtain ⟨entries, parsed⟩ := Option.isSome_iff_exists.mp isDocument
  have supplied : Supplies replacingHost none entries :=
    .mk _ _ rfl (by decide +kernel) parsed
  have loaded : load replacingHost none = .ok ⟨{ region := "ap", projectId := "p" }, {}⟩ := by
    decide +kernel
  obtain ⟨layers, -⟩ := loaded_in_layers replacingHost none entries supplied
  exact ⟨entries, supplied, (layers _).mp loaded⟩

end KeyCustody.Settings
