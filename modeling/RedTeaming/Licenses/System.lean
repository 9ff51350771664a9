import RedTeaming.Library.Records
import RedTeaming.Licenses.PlatformSettings

/-!
# `RedTeaming.Licenses.System`: licences and settings, statement by statement

Two requests on the licences span several statements whose order with those of others matters. A
delete locks its row, then reads the settings, then commits. A patch of the settings reads the
row, then checks the licence that it names, then upserts. Reads see what is committed.

A delete in flight is filed under the licence whose row it holds. `FOR UPDATE` lets no other
transaction write that row. It also holds off the foreign key check of an upsert that makes the
licence the default. `abort` and `abortDelete` end a request that failed or lost its connection.

The other requests read and write one row under its lock, and are one step. So is a sync.
-/

set_option autoImplicit false

namespace RedTeaming.Licenses

open RedTeaming.Auth
open RedTeaming.Library

/-- A database connection. -/
abbrev Tx := Nat

/-- A delete that holds the lock of its row. `checked` once it has read the settings. -/
structure Deletion where
  callerId : UserId
  checked : Bool := false

/-- A patch of the settings after its first read. `transient` when that read found no row, and
`validated` once its licence has been checked. -/
structure Patch where
  changes : Changes
  transient : Bool
  validated : Bool := false

/-- The committed rows, and the requests in flight. -/
structure State where
  licenses : Table DataLicense
  settings : Option PlatformSettings
  deletes : Records UUID Deletion
  patches : Records Tx Patch

/-- A step of a request. -/
inductive Label
  | create (caller : SessionUser) (id : UUID) (now : Time) (form : LicenseCreate)
  | update (caller : SessionUser) (licenseId : UUID) (changes : LicenseUpdate)
  | restore (caller : SessionUser) (licenseId : UUID) (now : Time)
  | sync (now : Time)
  | lockDelete (caller : SessionUser) (licenseId : UUID)
  | checkDelete (licenseId : UUID)
  | commitDelete (licenseId : UUID) (now : Time)
  | abortDelete (licenseId : UUID)
  | readPatch (tx : Tx) (caller : SessionUser) (payload : PlatformSettingsUpdate)
  | validatePatch (tx : Tx)
  | commitPatch (tx : Tx) (now : Time)
  | abort (tx : Tx)

/-- The licence that a row of settings names. -/
def PlatformSettings.defaultLicenseId (row : PlatformSettings) : UUID :=
  row.knobs .defaultLicenseId

/-- The licence that the changes name. -/
def Changes.defaultLicenseId (changes : Changes) : Option UUID := changes .defaultLicenseId

/-- `get_default_license`. -/
def getDefaultLicense (settings : Settings) (licenses : Table DataLicense)
    (row : Option PlatformSettings) : Except ApiError DataLicense :=
  let licenseId := (getPlatformSettings settings row).defaultLicenseId
  found (licenses.find? licenseId) (.runtimeError
    ("Platform default license " ++ toString licenseId ++ " is missing; run synclicenses."))

namespace State
variable (s : State)

/-- The licence that is the default now. -/
def defaultLicenseId (settings : Settings) : UUID :=
  (getPlatformSettings settings s.settings).defaultLicenseId

/-- The first part of `delete_license_endpoint`, up to the lock and the check of the caller. -/
def lockDelete (caller : SessionUser) (licenseId : UUID) : Except ApiError State := do
  requirePermission caller .licensesDelete
  let lic ← getDataLicense s.licenses licenseId false
  assertMayManageLicense lic caller
  return { s with deletes := s.deletes.set licenseId { callerId := caller.id } }

/-- `soft_delete_data_license` reads the default. -/
def checkDelete (settings : Settings) (licenseId : UUID) (d : Deletion) :
    Except ApiError State := do
  check (licenseId != s.defaultLicenseId settings)
    (.conflict "Cannot delete the platform default license; set another default first.")
  return { s with deletes := s.deletes.set licenseId { d with checked := true } }

/-- The first part of `update_platform_settings_endpoint`: the read, and the changes against it. A
patch that changes nothing ends here. -/
def readPatch (settings : Settings) (tx : Tx) (caller : SessionUser)
    (payload : PlatformSettingsUpdate) : Except ApiError State := do
  requirePermission caller .platformSettingsUpdate
  let current := getPlatformSettings settings s.settings
  let changes := payload.changes.against current.knobs
  return if changes.isEmpty then s else
    { s with patches := s.patches.set tx { changes, transient := current.updatedAt.isNone } }

/-- The check of the licence: the one that the patch names, or the shipped default, which the
first write stores. -/
def validatePatch (settings : Settings) (p : Patch) : Except ApiError Unit :=
  match p.changes.defaultLicenseId with
  | some licenseId => do
    check (licenseId != noLicenseId)
      (.badRequest "The 'No license' entry cannot be the platform default.")
    validateLicenseRef s.licenses licenseId
  | none =>
    if p.transient then
      validateLicenseRef s.licenses (curatedLicenseId settings.platformDefaultDataLicense)
    else .ok ()

/-- The foreign key of the settings. A row that keeps its licence is not checked again. A licence
that a delete holds makes the check wait. -/
def foreignKey (row : PlatformSettings) : Bool :=
  s.settings.any (fun old => old.defaultLicenseId == row.defaultLicenseId) ||
    ((s.licenses.find? row.defaultLicenseId).isSome && (s.deletes row.defaultLicenseId).isNone)

end State

/-- A step. A refusal and a wait are no step. -/
def step (settings : Settings) (s : State) : Label → Option State
  | .create caller id now form =>
    (createDataLicense s.licenses caller id now form).toOption.map ({ s with licenses := · })
  | .update caller licenseId changes =>
    if (s.deletes licenseId).isSome then none else
      (updateDataLicense settings.catalog s.licenses caller licenseId changes).toOption.map
        ({ s with licenses := · })
  | .restore caller licenseId now =>
    (restoreDataLicense s.licenses caller licenseId (settings.restoreCutoff now)).toOption.map
      ({ s with licenses := · })
  | .sync now =>
    if settings.catalog.entries.any fun e => (s.deletes e.rowId).isSome then none else
      (syncLicenses settings.catalog s.licenses now).map ({ s with licenses := · })
  | .lockDelete caller licenseId =>
    if (s.deletes licenseId).isSome then none else (s.lockDelete caller licenseId).toOption
  | .checkDelete licenseId => do
    let d ← s.deletes licenseId
    (s.checkDelete settings licenseId d).toOption
  | .commitDelete licenseId now => do
    let d ← s.deletes licenseId
    guard d.checked
    return { s with
      licenses := softDeleteRow s.licenses now d.callerId licenseId
      deletes := s.deletes.drop licenseId }
  | .abortDelete licenseId => some { s with deletes := s.deletes.drop licenseId }
  | .readPatch tx caller payload =>
    if (s.patches tx).isSome then none else (s.readPatch settings tx caller payload).toOption
  | .validatePatch tx => do
    let p ← s.patches tx
    let _ ← (s.validatePatch settings p).toOption
    return { s with patches := s.patches.set tx { p with validated := true } }
  | .commitPatch tx now => do
    let p ← s.patches tx
    guard p.validated
    let row := updatePlatformSettings settings s.settings p.changes now
    guard (s.foreignKey row)
    return { s with settings := some row, patches := s.patches.drop tx }
  | .abort tx => some { s with patches := s.patches.drop tx }

/-- A state between requests. -/
structure Quiet (s : State) : Prop where
  deletes : ∀ licenseId, s.deletes licenseId = none
  patches : ∀ tx, s.patches tx = none

/-! ### What a step does -/

/-- A request on one licence, or a sync: it writes the licences only. -/
def Label.writesLicenses : Label → Bool
  | .create .. | .update .. | .restore .. | .sync _ => true
  | _ => false

/-- The text that a request writes to a licence. -/
def Label.textWrite (licenseId : UUID) : Label → Option String
  | .update _ updated changes =>
    if updated = licenseId then changes.content.map Subtype.val else none
  | _ => none

/-- The licences after a step. A row that is deleted or restored has an author. A row without one
is updated only where the catalogue ships no text, and only its text. No row that a delete holds
is written, except by the commit of that delete. -/
inductive LicenseEffect (catalog : Catalog) (s : State) (l : Label) (rows' : Table DataLicense) :
    Prop
  | created (row : DataLicense) (hauthor : row.createdById ≠ none)
      (hlabel : ∀ licenseId, l.textWrite licenseId = none)
      (h : flush s.licenses [row] = .ok rows')
  | updated (caller : SessionUser) (lic : DataLicense) (changes : LicenseUpdate)
      (hlic : lic ∈ s.licenses) (hlive : live lic = true)
      (hgate : lic.createdById = none → changes.codeOwned = [] ∧
        catalog.curatedShipsContent lic.id = false ∧ canManage caller = true)
      (hfree : s.deletes (key lic) = none) (hlabel : l = .update caller (key lic) changes)
      (h : rows' = s.licenses.modify (key lic) changes.applyTo changes.key_applyTo)
  | restored (lic : DataLicense) (hlic : lic ∈ s.licenses) (hdead : live lic = false)
      (hauthor : lic.createdById ≠ none) (hlabel : ∀ licenseId, l.textWrite licenseId = none)
      (h : rows' = restoreRow s.licenses (key lic))
  | deleted (lic : DataLicense) (now : Time) (d : Deletion) (hlic : lic ∈ s.licenses)
      (hauthor : lic.createdById ≠ none) (hheld : s.deletes (key lic) = some d)
      (hchecked : d.checked = true) (hlabel : l = .commitDelete (key lic) now)
      (h : rows' = softDeleteRow s.licenses now d.callerId (key lic))
  | synced (now : Time) (hfree : ∀ e ∈ catalog.entries, s.deletes e.rowId = none)
      (hlabel : ∀ licenseId, l.textWrite licenseId = none)
      (h : syncLicenses catalog s.licenses now = some rows')
  | same (hlabel : ∀ licenseId, l.textWrite licenseId = none) (h : rows' = s.licenses)

section
variable {settings : Settings} {catalog : Catalog} {s s' : State} {caller : SessionUser}
  {licenses rows rows' : Table DataLicense} {lic : DataLicense} {changes : LicenseUpdate}
  {licenseId : UUID}

theorem findLive_of_getDataLicense (h : getDataLicense licenses licenseId false = .ok lic) :
    lic ∈ licenses ∧ key lic = licenseId ∧ live lic = true := by
  rw [getDataLicense, found_eq_ok] at h
  exact findLive_eq_some.mp h

theorem author_of_assertMayManageLicense (h : assertMayManageLicense lic caller = .ok ()) :
    lic.createdById ≠ none := by
  intro hnone
  rw [assertMayManageLicense, hnone] at h
  cases h

/-- What the gate of an update grants for a curated row. -/
theorem gate_of_assertMayUpdateLicense
    (h : assertMayUpdateLicense catalog lic changes caller = .ok ())
    (hcurated : lic.createdById = none) :
    changes.codeOwned = [] ∧ catalog.curatedShipsContent lic.id = false ∧
      canManage caller = true := by
  rw [assertMayUpdateLicense, hcurated] at h
  simp only [bind_eq_ok, exists_unit, check_eq_ok, List.isEmpty_iff, Bool.not_eq_true'] at h
  exact h.2

theorem createDataLicense_spec {id : UUID} {now : Time} {form : LicenseCreate}
    (h : createDataLicense rows caller id now form = .ok rows') :
    flush rows [form.row id now caller.id] = .ok rows' := by
  obtain ⟨-, -, hflush⟩ := bind_eq_ok.mp h
  exact hflush

theorem updateDataLicense_spec
    (h : updateDataLicense catalog rows caller licenseId changes = .ok rows') :
    ∃ lic ∈ rows, key lic = licenseId ∧ live lic = true ∧
      (lic.createdById = none → changes.codeOwned = [] ∧
        catalog.curatedShipsContent lic.id = false ∧ canManage caller = true) ∧
      rows' = rows.modify licenseId changes.applyTo changes.key_applyTo := by
  obtain ⟨-, -, h⟩ := bind_eq_ok.mp h
  obtain ⟨lic, hget, h⟩ := bind_eq_ok.mp h
  obtain ⟨⟨⟩, hgate, h⟩ := bind_eq_ok.mp h
  obtain ⟨hlic, hkey, hlive⟩ := findLive_of_getDataLicense hget
  cases h
  exact ⟨lic, hlic, hkey, hlive, gate_of_assertMayUpdateLicense hgate, rfl⟩

theorem restoreDataLicense_spec {cutoff : Time}
    (h : restoreDataLicense rows caller licenseId cutoff = .ok rows') :
    ∃ lic ∈ rows, key lic = licenseId ∧ live lic = false ∧ lic.createdById ≠ none ∧
      rows' = restoreRow rows licenseId := by
  obtain ⟨-, -, h⟩ := bind_eq_ok.mp h
  obtain ⟨lic, hget, h⟩ := bind_eq_ok.mp h
  obtain ⟨⟨⟩, hgate, h⟩ := bind_eq_ok.mp h
  obtain ⟨-, -, h⟩ := bind_eq_ok.mp h
  rw [getRestorableDataLicense, found_eq_ok] at hget
  obtain ⟨hlic, hkey, -⟩ := findRestorable_eq_some.mp hget
  cases h
  exact ⟨lic, hlic, hkey, not_live_of_findRestorable hget, author_of_assertMayManageLicense hgate,
    rfl⟩

end

/-! ### Steps -/

/-- Every delete in flight holds a live row with an author. -/
def Held (s : State) : Prop :=
  ∀ licenseId d, s.deletes licenseId = some d →
    ∃ lic ∈ s.licenses, key lic = licenseId ∧ live lic = true ∧ lic.createdById ≠ none

section
variable {settings : Settings} {s s' : State} {l : Label}

theorem held_of_quiet (h : Quiet s) : Held s := by
  intro licenseId d hd
  rw [h.deletes] at hd
  cases hd

/-- What a step can do. -/
inductive StepSpec (settings : Settings) (s : State) : Label → State → Prop
  | rows (l : Label) (rows : Table DataLicense) (hl : l.writesLicenses = true)
      (heffect : LicenseEffect settings.catalog s l rows) :
      StepSpec settings s l { s with licenses := rows }
  | lockDelete (caller : SessionUser) (lic : DataLicense) (hlic : lic ∈ s.licenses)
      (hlive : live lic = true) (hauthor : lic.createdById ≠ none) :
      StepSpec settings s (.lockDelete caller (key lic))
        { s with deletes := s.deletes.set (key lic) { callerId := caller.id } }
  | checkDelete (licenseId : UUID) (d : Deletion) (hd : s.deletes licenseId = some d)
      (hdefault : licenseId ≠ s.defaultLicenseId settings) :
      StepSpec settings s (.checkDelete licenseId)
        { s with deletes := s.deletes.set licenseId { d with checked := true } }
  | commitDelete (licenseId : UUID) (now : Time) (d : Deletion)
      (hd : s.deletes licenseId = some d)
      (hchecked : d.checked = true) :
      StepSpec settings s (.commitDelete licenseId now)
        { s with
          licenses := softDeleteRow s.licenses now d.callerId licenseId
          deletes := s.deletes.drop licenseId }
  | abortDelete (licenseId : UUID) :
      StepSpec settings s (.abortDelete licenseId) { s with deletes := s.deletes.drop licenseId }
  | readNothing (tx : Tx) (caller : SessionUser) (payload : PlatformSettingsUpdate) :
      StepSpec settings s (.readPatch tx caller payload) s
  | readPatch (tx : Tx) (caller : SessionUser) (payload : PlatformSettingsUpdate) (p : Patch)
      (hcaller : Permission.platformSettingsUpdate ∈ caller.permissions)
      (hchanges : p.changes =
        payload.changes.against (getPlatformSettings settings s.settings).knobs)
      (hvalid : p.validated = false) :
      StepSpec settings s (.readPatch tx caller payload) { s with patches := s.patches.set tx p }
  | validatePatch (tx : Tx) (p : Patch) (hp : s.patches tx = some p)
      (hvalid : s.validatePatch settings p = .ok ()) :
      StepSpec settings s (.validatePatch tx)
        { s with patches := s.patches.set tx { p with validated := true } }
  | commitPatch (tx : Tx) (now : Time) (p : Patch) (hp : s.patches tx = some p)
      (hvalid : p.validated = true)
      (hkey : s.foreignKey (updatePlatformSettings settings s.settings p.changes now) = true) :
      StepSpec settings s (.commitPatch tx now)
        { s with
          settings := some (updatePlatformSettings settings s.settings p.changes now)
          patches := s.patches.drop tx }
  | abort (tx : Tx) : StepSpec settings s (.abort tx) { s with patches := s.patches.drop tx }

/-- A step does one of these. -/
theorem step_spec (h : step settings s l = some s') : StepSpec settings s l s' := by
  cases l with
  | create caller id now form =>
    obtain ⟨rows, hrows, rfl⟩ := Option.map_eq_some_iff.mp h
    refine .rows _ _ rfl ?_
    exact .created _ (by rw [LicenseCreate.row]; exact Option.some_ne_none _) (fun _ => rfl)
      (createDataLicense_spec (toOption_eq_some.mp hrows))
  | update caller licenseId changes =>
    simp only [step] at h
    split at h
    · cases h
    · rename_i hfree
      obtain ⟨rows, hrows, rfl⟩ := Option.map_eq_some_iff.mp h
      obtain ⟨lic, hlic, rfl, hlive, hgate, hmodify⟩ :=
        updateDataLicense_spec (toOption_eq_some.mp hrows)
      refine .rows _ _ rfl ?_
      exact .updated caller lic changes hlic hlive hgate (by simpa using hfree) rfl hmodify
  | restore caller licenseId now =>
    obtain ⟨rows, hrows, rfl⟩ := Option.map_eq_some_iff.mp h
    obtain ⟨lic, hlic, rfl, hdead, hauthor, hrestore⟩ :=
      restoreDataLicense_spec (toOption_eq_some.mp hrows)
    refine .rows _ _ rfl ?_
    exact .restored lic hlic hdead hauthor (fun _ => rfl) hrestore
  | sync now =>
    simp only [step] at h
    split at h
    · cases h
    · rename_i hfree
      obtain ⟨rows, hrows, rfl⟩ := Option.map_eq_some_iff.mp h
      refine .rows _ _ rfl ?_
      exact .synced now (by simpa using hfree) (fun _ => rfl) hrows
  | lockDelete caller licenseId =>
    simp only [step] at h
    split at h
    · cases h
    · obtain ⟨-, -, h⟩ := bind_eq_ok.mp (toOption_eq_some.mp h)
      obtain ⟨lic, hget, h⟩ := bind_eq_ok.mp h
      obtain ⟨⟨⟩, hgate, h⟩ := bind_eq_ok.mp h
      obtain ⟨hlic, rfl, hlive⟩ := findLive_of_getDataLicense hget
      cases h
      exact .lockDelete caller lic hlic hlive (author_of_assertMayManageLicense hgate)
  | checkDelete licenseId =>
    obtain ⟨d, hd, h⟩ := Option.bind_eq_some_iff.mp h
    obtain ⟨⟨⟩, hcheck, h⟩ := bind_eq_ok.mp (toOption_eq_some.mp h)
    rw [check_eq_ok, bne_iff_ne] at hcheck
    cases h
    exact .checkDelete licenseId d hd hcheck
  | commitDelete licenseId now =>
    obtain ⟨d, hd, h⟩ := Option.bind_eq_some_iff.mp h
    obtain ⟨⟨⟩, hguard, h⟩ := Option.bind_eq_some_iff.mp h
    cases h
    exact .commitDelete licenseId now d hd (by simpa using hguard)
  | abortDelete licenseId =>
    cases h
    exact .abortDelete licenseId
  | readPatch tx caller payload =>
    simp only [step] at h
    split at h
    · cases h
    · obtain ⟨⟨⟩, hcaller, h⟩ := bind_eq_ok.mp (toOption_eq_some.mp h)
      rw [requirePermission, check_eq_ok, decide_eq_true_eq] at hcaller
      simp only [pure, Except.pure, Except.ok.injEq] at h
      split at h
      · subst h
        exact .readNothing tx caller payload
      · subst h
        exact .readPatch tx caller payload _ hcaller rfl rfl
  | validatePatch tx =>
    obtain ⟨p, hp, h⟩ := Option.bind_eq_some_iff.mp h
    obtain ⟨⟨⟩, hvalid, h⟩ := Option.bind_eq_some_iff.mp h
    cases h
    exact .validatePatch tx p hp (toOption_eq_some.mp hvalid)
  | commitPatch tx now =>
    obtain ⟨p, hp, h⟩ := Option.bind_eq_some_iff.mp h
    obtain ⟨⟨⟩, hguard, h⟩ := Option.bind_eq_some_iff.mp h
    obtain ⟨⟨⟩, hkey, h⟩ := Option.bind_eq_some_iff.mp h
    cases h
    exact .commitPatch tx now p hp (by simpa using hguard) (by simpa using hkey)
  | abort tx =>
    cases h
    exact .abort tx

/-- Every step writes the licences in one of the ways of `LicenseEffect`. -/
theorem step_effect (hheld : Held s) (h : step settings s l = some s') :
    LicenseEffect settings.catalog s l s'.licenses := by
  cases step_spec h with
  | rows _ rows _ heffect => exact heffect
  | commitDelete licenseId now d hd hchecked =>
    obtain ⟨lic, hlic, rfl, -, hauthor⟩ := hheld licenseId d hd
    exact .deleted lic now d hlic hauthor hd hchecked rfl rfl
  | _ => exact .same (fun _ => rfl) rfl

/-- The deletes in flight after a step: one that was there and does not commit, which may have
read the settings now, or a new one, on a row that it may hold. -/
theorem step_deletes {licenseId : UUID} {d : Deletion} (h : step settings s l = some s')
    (hd : s'.deletes licenseId = some d) :
    (∃ d', s.deletes licenseId = some d' ∧ (∀ now, l ≠ .commitDelete licenseId now) ∧
      (d.checked = d'.checked ∨ licenseId ≠ s.defaultLicenseId settings)) ∨
      (s'.licenses = s.licenses ∧ d.checked = false ∧
        ∃ lic ∈ s.licenses, key lic = licenseId ∧ live lic = true ∧ lic.createdById ≠ none) := by
  cases step_spec h with
  | rows _ rows hl _ =>
    exact Or.inl ⟨d, hd, fun now hcommit => (by subst hcommit; cases hl), Or.inl rfl⟩
  | lockDelete caller lic hlic hlive hauthor =>
    rcases Records.of_set hd with ⟨rfl, rfl⟩ | ⟨-, hd⟩
    · exact Or.inr ⟨rfl, rfl, lic, hlic, rfl, hlive, hauthor⟩
    · exact Or.inl ⟨d, hd, fun now hl => (by cases hl), Or.inl rfl⟩
  | checkDelete checked d₀ hd₀ hdefault =>
    rcases Records.of_set hd with ⟨rfl, -⟩ | ⟨-, hd⟩
    · exact Or.inl ⟨d₀, hd₀, fun now hl => (by cases hl), Or.inr hdefault⟩
    · exact Or.inl ⟨d, hd, fun now hl => (by cases hl), Or.inl rfl⟩
  | commitDelete deleted now d₀ _ _ =>
    obtain ⟨hne, hd⟩ := Records.of_drop hd
    exact Or.inl ⟨d, hd, fun now' hl => hne (by cases hl; rfl), Or.inl rfl⟩
  | abortDelete aborted =>
    exact Or.inl ⟨d, (Records.of_drop hd).2, fun now hl => (by cases hl), Or.inl rfl⟩
  | _ => exact Or.inl ⟨d, hd, fun now hl => (by cases hl), Or.inl rfl⟩

end

end RedTeaming.Licenses
