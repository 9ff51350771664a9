import RedTeaming.Licenses.System

/-!
# `RedTeaming.Licenses.Curated`: the curated rows follow the catalogue

A sync makes the row of each entry what the catalogue says (`matches_of_sync`). No request undoes
that: it may not delete a curated row, nor write a column that code owns
(`LicenseEffect.keepsSynced`). The text is the exception. Where the catalogue ships none, a
manager may write one, and a sync leaves it alone (`text_of_step`).

`catalog_survives` is the result for runs.
-/

set_option autoImplicit false

namespace RedTeaming.Licenses

open RedTeaming.Auth
open RedTeaming.Library

/-- The row is live and carries what the catalogue says of the entry. -/
structure CuratedLicense.Matches (e : CuratedLicense) (lic : DataLicense) : Prop where
  key : key lic = e.rowId
  live : live lic = true
  name : lic.name = e.name
  version : lic.version = e.version
  shortDescription : lic.shortDescription = e.shortDescription
  content : e.shipsContent = true → lic.content = e.content
  referenceUrl : lic.referenceUrl = e.referenceUrl
  protectsConversationData : lic.protectsConversationData = e.protectsConversationData
  spdxId : lic.spdxId = if e.publishesSpdx then some e.spdxId else none
  createdById : lic.createdById = none

/-- Each entry of the catalogue has its row. -/
def Synced (catalog : Catalog) (rows : Table DataLicense) : Prop :=
  ∀ e ∈ catalog.entries, ∃ lic ∈ rows, e.Matches lic

/-- The text of a licence. -/
def textOf (rows : Table DataLicense) (licenseId : UUID) : Option String :=
  (rows.find? licenseId).map DataLicense.content

/-- The row that a sync leaves of an entry: the old one, reconciled, or a new one. -/
def CuratedLicense.Reconciled (e : CuratedLicense) (now : Time) (rows : Table DataLicense)
    (lic : DataLicense) : Prop :=
  (∃ lic₀ ∈ rows, key lic₀ = e.rowId ∧ e.reconcile lic₀ = lic) ∨
    (lic = e.row now ∧ ∀ lic₀ ∈ rows, key lic₀ ≠ e.rowId)

section
variable {catalog : Catalog} {e : CuratedLicense} {es : List CuratedLicense} {now : Time}
  {rows rows' : Table DataLicense} {lic : DataLicense}

@[simp] theorem CuratedLicense.key_row (e : CuratedLicense) (now : Time) :
    key (e.row now) = e.rowId := rfl

theorem mem_upsertCurated (h : upsertCurated now rows e = some rows') :
    lic ∈ rows' ↔ e.Reconciled now rows lic ∨ (lic ∈ rows ∧ key lic ≠ e.rowId) := by
  simp only [upsertCurated] at h
  split at h
  · cases h
    rw [Table.mem_upsert, CuratedLicense.key_row, CuratedLicense.Reconciled, or_assoc]
  · cases h

theorem CuratedLicense.Reconciled.key_eq (h : e.Reconciled now rows lic) : key lic = e.rowId := by
  rcases h with ⟨lic₀, -, hkey, rfl⟩ | ⟨rfl, -⟩
  · exact hkey
  · exact CuratedLicense.key_row e now

/-- Whether a row is reconciled depends on the rows with its id. -/
theorem CuratedLicense.reconciled_congr
    (h : ∀ lic₀, key lic₀ = e.rowId → (lic₀ ∈ rows ↔ lic₀ ∈ rows')) :
    e.Reconciled now rows lic ↔ e.Reconciled now rows' lic := by
  have hexists : (∃ lic₀ ∈ rows, key lic₀ = e.rowId ∧ e.reconcile lic₀ = lic) ↔
      ∃ lic₀ ∈ rows', key lic₀ = e.rowId ∧ e.reconcile lic₀ = lic := by
    constructor
    · rintro ⟨lic₀, hlic₀, hkey, hsame⟩
      exact ⟨lic₀, (h lic₀ hkey).mp hlic₀, hkey, hsame⟩
    · rintro ⟨lic₀, hlic₀, hkey, hsame⟩
      exact ⟨lic₀, (h lic₀ hkey).mpr hlic₀, hkey, hsame⟩
  have hnone : (∀ lic₀ ∈ rows, key lic₀ ≠ e.rowId) ↔ ∀ lic₀ ∈ rows', key lic₀ ≠ e.rowId :=
    ⟨fun hno lic₀ hlic₀ hkey => hno lic₀ ((h lic₀ hkey).mpr hlic₀) hkey,
      fun hno lic₀ hlic₀ hkey => hno lic₀ ((h lic₀ hkey).mp hlic₀) hkey⟩
  rw [CuratedLicense.Reconciled, CuratedLicense.Reconciled, hexists, hnone]

/-- The rows after a sync of some entries: a reconciled one for each, and the rows of no entry. -/
theorem mem_foldlM_upsertCurated (hnodup : (es.map CuratedLicense.rowId).Nodup)
    (h : es.foldlM (upsertCurated now) rows = some rows') :
    lic ∈ rows' ↔ (∃ e ∈ es, e.Reconciled now rows lic) ∨
      (lic ∈ rows ∧ ∀ e ∈ es, key lic ≠ e.rowId) := by
  induction es generalizing rows with
  | nil =>
    cases h
    simp
  | cons e es ih =>
    rw [List.foldlM_cons] at h
    obtain ⟨rows₁, hupsert, h⟩ := Option.bind_eq_some_iff.mp h
    obtain ⟨hne, hnodup⟩ := List.nodup_cons.mp hnodup
    have hother (e' : CuratedLicense) (he' : e' ∈ es) : e'.rowId ≠ e.rowId := fun hsame =>
      hne (hsame ▸ List.mem_map_of_mem he')
    have hmem : ∀ lic, lic ∈ rows₁ ↔ e.Reconciled now rows lic ∨
        (lic ∈ rows ∧ key lic ≠ e.rowId) :=
      fun lic => mem_upsertCurated hupsert
    -- the upsert of `e` leaves the rows of the entries behind it
    have hrest (e' : CuratedLicense) (he' : e' ∈ es) (lic : DataLicense) :
        e'.Reconciled now rows₁ lic ↔ e'.Reconciled now rows lic := by
      refine CuratedLicense.reconciled_congr fun lic₀ hkey => ?_
      have hkey' : key lic₀ ≠ e.rowId := hkey ▸ hother e' he'
      rw [hmem]
      exact ⟨fun h => (h.resolve_left fun hrec => hkey' hrec.key_eq).1, fun h =>
        Or.inr ⟨h, hkey'⟩⟩
    rw [ih hnodup h, hmem]
    constructor
    · rintro (⟨e', he', hrec⟩ | ⟨hrec | ⟨hold, hkey⟩, hall⟩)
      · exact Or.inl ⟨e', List.mem_cons_of_mem _ he', (hrest e' he' lic).mp hrec⟩
      · exact Or.inl ⟨e, List.mem_cons_self, hrec⟩
      · exact Or.inr ⟨hold, List.forall_mem_cons.mpr ⟨hkey, hall⟩⟩
    · rintro (⟨e', he', hrec⟩ | ⟨hold, hall⟩)
      · rcases List.mem_cons.mp he' with rfl | he'
        · refine Or.inr ⟨Or.inl hrec, fun e' he' => ?_⟩
          rw [hrec.key_eq]
          exact (hother e' he').symm
        · exact Or.inl ⟨e', he', (hrest e' he' lic).mpr hrec⟩
      · obtain ⟨hkey, hall⟩ := List.forall_mem_cons.mp hall
        exact Or.inr ⟨Or.inr ⟨hold, hkey⟩, hall⟩

/-- The rows after a sync. -/
theorem mem_syncLicenses (h : syncLicenses catalog rows now = some rows') :
    lic ∈ rows' ↔ (∃ e ∈ catalog.entries, e.Reconciled now rows lic) ∨
      (lic ∈ rows ∧ ∀ e ∈ catalog.entries, key lic ≠ e.rowId) :=
  mem_foldlM_upsertCurated catalog.nodup h

/-- A reconciled row matches the entry. -/
theorem CuratedLicense.Reconciled.matches (h : e.Reconciled now rows lic) : e.Matches lic := by
  rcases h with ⟨lic₀, -, hkey, rfl⟩ | ⟨rfl, -⟩
  · exact
      { key := hkey
        live := rfl
        name := rfl
        version := rfl
        shortDescription := rfl
        content := fun hships => by rw [CuratedLicense.reconcile, if_pos hships]
        referenceUrl := rfl
        protectsConversationData := rfl
        spdxId := rfl
        createdById := rfl }
  · exact ⟨rfl, rfl, rfl, rfl, rfl, fun _ => rfl, rfl, rfl, rfl, rfl⟩

/-- Each entry has a reconciled row. -/
theorem CuratedLicense.exists_reconciled (e : CuratedLicense) (now : Time)
    (rows : Table DataLicense) : ∃ lic, e.Reconciled now rows lic := by
  by_cases hexists : ∃ lic₀ ∈ rows, Keyed.key lic₀ = e.rowId
  · obtain ⟨lic₀, hlic₀, hkey⟩ := hexists
    exact ⟨e.reconcile lic₀, Or.inl ⟨lic₀, hlic₀, hkey, rfl⟩⟩
  · push Not at hexists
    exact ⟨e.row now, Or.inr ⟨rfl, hexists⟩⟩

/-- After a sync, each entry has its row. -/
theorem matches_of_sync (h : syncLicenses catalog rows now = some rows') :
    Synced catalog rows' := by
  intro e he
  obtain ⟨lic, hrec⟩ := e.exists_reconciled now rows
  exact ⟨lic, (mem_syncLicenses h).mpr (Or.inl ⟨e, he, hrec⟩), hrec.matches⟩

/-- A payload that sets no column of the code changes at most the text. -/
theorem applyTo_of_codeOwned {changes : LicenseUpdate} (h : changes.codeOwned = []) :
    changes.applyTo lic =
      { lic with content := (changes.content.map Subtype.val).getD lic.content } := by
  obtain ⟨name, version, shortDescription, content, referenceUrl, protects⟩ := changes
  cases name <;> cases version <;> cases shortDescription <;> cases referenceUrl <;>
    cases protects <;> simp [LicenseUpdate.codeOwned, LicenseUpdate.applyTo] at h ⊢

/-- A permitted update of a row that matches an entry leaves it matching. -/
theorem CuratedLicense.Matches.applyTo {changes : LicenseUpdate} (h : e.Matches lic)
    (he : e ∈ catalog.entries)
    (howned : changes.codeOwned = []) (hcode : catalog.curatedShipsContent lic.id = false) :
    e.Matches (changes.applyTo lic) := by
  have hships : e.shipsContent = false := by
    rw [← Catalog.curatedShipsContent_rowId he, ← h.key]
    exact hcode
  rw [applyTo_of_codeOwned howned]
  exact
    { h with
      content := fun hcontra => by rw [hships] at hcontra; cases hcontra }

/-- Every write of the licences keeps the rows of the catalogue. -/
theorem LicenseEffect.keepsSynced {s : State} {l : Label} (h : LicenseEffect catalog s l rows')
    (hrows : Synced catalog s.licenses) : Synced catalog rows' := by
  intro e he
  obtain ⟨lic, hlic, hmatch⟩ := hrows e he
  -- a row with an author is another one
  have hother {lic' : DataLicense} (hlic' : lic' ∈ s.licenses)
      (hauthor : lic'.createdById ≠ none) :
      key lic ≠ key lic' := by
    intro hkey
    rw [← Table.eq_of_key_eq hlic hlic' hkey] at hauthor
    exact hauthor hmatch.createdById
  cases h with
  | created row _ _ hflush => exact ⟨lic, (mem_flush hflush).mpr (Or.inl hlic), hmatch⟩
  | updated caller lic' changes hlic' _ hgate _ _ hmodify =>
    subst hmodify
    by_cases hkey : key lic = key lic'
    · have hsame : lic' = lic := Table.eq_of_key_eq hlic' hlic hkey.symm
      subst hsame
      obtain ⟨howned, hships, -⟩ := hgate hmatch.createdById
      exact ⟨changes.applyTo lic', Table.mem_modify.mpr (Or.inl ⟨lic', hlic', rfl, rfl⟩),
        hmatch.applyTo he howned hships⟩
    · exact ⟨lic, Table.mem_modify.mpr (Or.inr ⟨hlic, hkey⟩), hmatch⟩
  | restored lic' hlic' _ hauthor _ hrestore =>
    subst hrestore
    exact ⟨lic, mem_restoreRow.mpr (Or.inr ⟨hlic, hother hlic' hauthor⟩), hmatch⟩
  | deleted lic' now d hlic' hauthor _ _ _ hdelete =>
    subst hdelete
    exact ⟨lic, (mem_softDeleteRow hmatch.live).mpr ⟨hlic, hother hlic' hauthor⟩, hmatch⟩
  | synced now _ _ hsync => exact matches_of_sync hsync e he
  | same _ hsame =>
    subst hsame
    exact ⟨lic, hlic, hmatch⟩

end

/-! ### Steps -/

section
variable {settings : Settings} {catalog : Catalog} {s s' : State} {l : Label} {e : CuratedLicense}
  {rows rows' : Table DataLicense} {lic : DataLicense} {licenseId : UUID}

/-- A row that a delete holds stays as it is, until that delete commits. -/
theorem LicenseEffect.mem_of_held {d : Deletion} (h : LicenseEffect catalog s l rows')
    (hlic : lic ∈ s.licenses) (hlive : live lic = true) (hheld : s.deletes (key lic) = some d)
    (hlabel : ∀ now, l ≠ .commitDelete (key lic) now) : lic ∈ rows' := by
  cases h with
  | created row _ _ hflush => exact (mem_flush hflush).mpr (Or.inl hlic)
  | updated caller lic' changes _ _ _ hfree _ hmodify =>
    subst hmodify
    refine Table.mem_modify.mpr (Or.inr ⟨hlic, fun hkey => ?_⟩)
    rw [hkey, hfree] at hheld
    cases hheld
  | restored lic' hlic' hdead _ _ hrestore =>
    subst hrestore
    refine mem_restoreRow.mpr (Or.inr ⟨hlic, fun hkey => ?_⟩)
    rw [Table.eq_of_key_eq hlic hlic' hkey, hdead] at hlive
    cases hlive
  | deleted lic' now d' _ _ _ _ hcommit hdelete =>
    subst hdelete
    refine (mem_softDeleteRow hlive).mpr ⟨hlic, fun hkey => hlabel now ?_⟩
    rw [hcommit, hkey]
  | synced now hfree _ hsync =>
    refine (mem_syncLicenses hsync).mpr (Or.inr ⟨hlic, fun e he hkey => ?_⟩)
    rw [hkey, hfree e he] at hheld
    cases hheld
  | same _ hsame =>
    subst hsame
    exact hlic

/-- The deletes in flight hold live rows with an author throughout. -/
theorem held_step (hheld : Held s) (h : step settings s l = some s') : Held s' := by
  intro licenseId d hd
  rcases step_deletes h hd with ⟨d', hd', hlabel, -⟩ | ⟨hsame, -, hlocked⟩
  · obtain ⟨lic, hlic, rfl, hlive, hauthor⟩ := hheld licenseId d' hd'
    exact ⟨lic, (step_effect hheld h).mem_of_held hlic hlive hd' hlabel, rfl, hlive, hauthor⟩
  · rw [hsame]
    exact hlocked

/-- The rows of the catalogue stay in place. -/
theorem synced_step (hheld : Held s) (hsynced : Synced settings.catalog s.licenses)
    (h : step settings s l = some s') : Synced settings.catalog s'.licenses :=
  (step_effect hheld h).keepsSynced hsynced

/-! ### Texts -/

theorem textOf_of_mem (h : lic ∈ rows) (hkey : key lic = licenseId) :
    textOf rows licenseId = some lic.content := by
  rw [textOf, Table.find?_eq_some.mpr ⟨h, hkey⟩, Option.map_some]

/-- A step writes the text of an entry that ships none as its request says, and leaves it
otherwise. -/
theorem LicenseEffect.text (h : LicenseEffect catalog s l rows') (he : e ∈ catalog.entries)
    (hships : e.shipsContent = false) (hlic : lic ∈ s.licenses) (hmatch : e.Matches lic) :
    textOf rows' e.rowId = some ((l.textWrite e.rowId).getD lic.content) := by
  -- a row with an author is another one
  have hother {lic' : DataLicense} (hlic' : lic' ∈ s.licenses)
      (hauthor : lic'.createdById ≠ none) :
      key lic ≠ key lic' := by
    intro hkey
    rw [← Table.eq_of_key_eq hlic hlic' hkey] at hauthor
    exact hauthor hmatch.createdById
  cases h with
  | created row _ hlabel hflush =>
    rw [hlabel]
    exact textOf_of_mem ((mem_flush hflush).mpr (Or.inl hlic)) hmatch.key
  | updated caller lic' changes hlic' _ _ _ hlabel hmodify =>
    subst hlabel hmodify
    rw [Label.textWrite]
    by_cases hkey : key lic' = e.rowId
    · have hsame : lic' = lic := Table.eq_of_key_eq hlic' hlic (hkey.trans hmatch.key.symm)
      subst hsame
      rw [if_pos hkey]
      exact textOf_of_mem (Table.mem_modify.mpr (Or.inl ⟨lic', hlic', rfl, rfl⟩)) hkey
    · rw [if_neg hkey]
      have hne : key lic ≠ key lic' := fun hsame => hkey (hsame.symm.trans hmatch.key)
      exact textOf_of_mem (Table.mem_modify.mpr (Or.inr ⟨hlic, hne⟩)) hmatch.key
  | restored lic' hlic' _ hauthor hlabel hrestore =>
    subst hrestore
    rw [hlabel]
    exact textOf_of_mem (mem_restoreRow.mpr (Or.inr ⟨hlic, hother hlic' hauthor⟩)) hmatch.key
  | deleted lic' now d hlic' hauthor _ _ hlabel hdelete =>
    subst hlabel hdelete
    exact textOf_of_mem
      ((mem_softDeleteRow hmatch.live).mpr ⟨hlic, hother hlic' hauthor⟩) hmatch.key
  | synced now _ hlabel hsync =>
    have hmem := (mem_syncLicenses hsync).mpr
      (Or.inl ⟨e, he, Or.inl ⟨lic, hlic, hmatch.key, rfl⟩⟩)
    rw [hlabel, textOf_of_mem hmem hmatch.key, CuratedLicense.reconcile, hships]
    rfl
  | same hlabel hsame =>
    subst hsame
    rw [hlabel]
    exact textOf_of_mem hlic hmatch.key

end

/-! ### Runs -/

section
variable {settings : Settings} {s s' : State} {ls : List Label} {e : CuratedLicense}

/-- What every state of a run keeps once the catalogue is in place. -/
theorem synced_of_run (hheld : Held s) (hsynced : Synced settings.catalog s.licenses)
    (hrun : run (step settings) s ls = some s') :
    Held s' ∧ Synced settings.catalog s'.licenses := by
  refine run_invariant (I := fun s => Held s ∧ Synced settings.catalog s.licenses) ?_
    ⟨hheld, hsynced⟩ hrun
  intro s l s' h hstep
  exact ⟨held_step h.1 hstep, synced_step h.1 h.2 hstep⟩

theorem held_of_run (hheld : Held s) (hrun : run (step settings) s ls = some s') : Held s' :=
  run_invariant (I := Held) (fun _ _ _ h hstep => held_step h hstep) hheld hrun

/-- The text of an entry that ships none is the last one that a request of the run wrote. -/
theorem text_of_run (he : e ∈ settings.catalog.entries) (hships : e.shipsContent = false)
    (hheld : Held s) (hsynced : Synced settings.catalog s.licenses) {text : String}
    (htext : textOf s.licenses e.rowId = some text) (hrun : run (step settings) s ls = some s') :
    textOf s'.licenses e.rowId =
      some ((ls.filterMap (Label.textWrite e.rowId)).getLast?.getD text) := by
  induction ls generalizing s text with
  | nil =>
    cases hrun
    exact htext
  | cons l ls ih =>
    obtain ⟨s₁, hstep, hrun⟩ := (run_cons_eq_some _).mp hrun
    obtain ⟨lic, hlic, hmatch⟩ := hsynced e he
    rw [textOf_of_mem hlic hmatch.key] at htext
    cases htext
    have hnext := (step_effect hheld hstep).text he hships hlic hmatch
    rw [ih (held_step hheld hstep) (synced_step hheld hsynced hstep) hnext hrun]
    cases hwrite : l.textWrite e.rowId with
    | none => rw [List.filterMap_cons_none hwrite, Option.getD_none]
    | some text =>
      rw [List.filterMap_cons_some hwrite, List.getLast?_cons, Option.getD_some, Option.getD_some]

/-- A request that updates the row of an entry in a run. -/
theorem update_of_run (he : e ∈ settings.catalog.entries) (hheld : Held s)
    (hsynced : Synced settings.catalog s.licenses) (hrun : run (step settings) s ls = some s')
    {caller : SessionUser} {changes : LicenseUpdate} (hl : .update caller e.rowId changes ∈ ls) :
    e.shipsContent = false ∧ changes.codeOwned = [] ∧ canManage caller = true := by
  induction ls generalizing s with
  | nil => cases hl
  | cons l ls ih =>
    obtain ⟨s₁, hstep, hrun⟩ := (run_cons_eq_some _).mp hrun
    rcases List.mem_cons.mp hl with rfl | hl
    · simp only [step] at hstep
      split at hstep
      · cases hstep
      · obtain ⟨rows, hrows, -⟩ := Option.map_eq_some_iff.mp hstep
        obtain ⟨lic, hlic, hkey, -, hgate, -⟩ :=
          updateDataLicense_spec (toOption_eq_some.mp hrows)
        obtain ⟨lic', hlic', hmatch⟩ := hsynced e he
        have hsame : lic = lic' := Table.eq_of_key_eq hlic hlic' (hkey.trans hmatch.key.symm)
        subst hsame
        obtain ⟨howned, hcode, hmanage⟩ := hgate hmatch.createdById
        refine ⟨?_, howned, hmanage⟩
        rw [← Catalog.curatedShipsContent_rowId he, ← hkey]
        exact hcode
    · exact ih (held_step hheld hstep) (synced_step hheld hsynced hstep) hrun hl

/-- The text that a sync leaves of an entry that ships none: the old one, or none. -/
theorem text_of_sync {rows rows' : Table DataLicense} {now : Time}
    (he : e ∈ settings.catalog.entries) (hships : e.shipsContent = false)
    (h : syncLicenses settings.catalog rows now = some rows') :
    textOf rows' e.rowId = some ((textOf rows e.rowId).getD "") := by
  obtain ⟨lic, hrec⟩ := e.exists_reconciled now rows
  have hmem := (mem_syncLicenses h).mpr (Or.inl ⟨e, he, hrec⟩)
  rw [textOf_of_mem hmem hrec.key_eq]
  rcases hrec with ⟨lic₀, hlic₀, hkey, rfl⟩ | ⟨rfl, hnone⟩
  · rw [textOf_of_mem hlic₀ hkey, CuratedLicense.reconcile, hships]
    rfl
  · have hmissing : rows.find? e.rowId = none := by
      cases hfind : rows.find? e.rowId with
      | none => rfl
      | some lic =>
        obtain ⟨hlic, hkey⟩ := Table.find?_eq_some.mp hfind
        exact absurd hkey (hnone lic hlic)
    rw [CuratedLicense.shipsContent, bne_eq_false_iff_eq] at hships
    rw [textOf, hmissing, CuratedLicense.row, hships]
    rfl

end

/-- After a sync, whatever requests and syncs follow, the row of each entry is live and says what
the catalogue says. A request updates it only where the catalogue ships no text, only the text,
and only for a manager. The text is then the last one written so, or the one before the sync. -/
theorem catalog_survives (settings : Settings) (s₀ s₁ s : State)
    (ls₀ ls : List Label) (now : Time) (h₀ : Quiet s₀)
    (hbefore : run (step settings) s₀ ls₀ = some s₁)
    (hrun : run (step settings) s₁ (.sync now :: ls) = some s) :
    ∀ e ∈ settings.catalog.entries,
      (∃ lic ∈ s.licenses, e.Matches lic) ∧
      (∀ caller changes, .update caller e.rowId changes ∈ ls →
        e.shipsContent = false ∧ changes.codeOwned = [] ∧ canManage caller = true) ∧
      (e.shipsContent = false → textOf s.licenses e.rowId =
        some ((ls.filterMap (Label.textWrite e.rowId)).getLast?.getD
          ((textOf s₁.licenses e.rowId).getD ""))) := by
  intro e he
  have hheld := held_of_run (held_of_quiet h₀) hbefore
  obtain ⟨s₂, hstep, hrun⟩ := (run_cons_eq_some _).mp hrun
  have hheld₂ := held_step hheld hstep
  simp only [step] at hstep
  split at hstep
  · cases hstep
  · obtain ⟨rows, hsync, rfl⟩ := Option.map_eq_some_iff.mp hstep
    have hsynced := matches_of_sync hsync
    exact ⟨(synced_of_run hheld₂ hsynced hrun).2 e he,
      fun caller changes hl => update_of_run he hheld₂ hsynced hrun hl,
      fun hships => text_of_run he hships hheld₂ hsynced (text_of_sync he hships hsync) hrun⟩

/-- A catalogue of the default licence and `NONE`. -/
def twoLicenses : Catalog where
  entries := curatedLicenses.filter fun e => e.spdxId == "CC-BY-4.0" || e.spdxId == "NONE"
  nodup := by decide +kernel
  noLicense := by decide +kernel

/-- A deployment with that catalogue. -/
def deployment : Settings where
  catalog := twoLicenses
  platformDefaultDataLicense := defaultDataLicenseSpdxId
  emailVerificationTtlHours := 24
  restoreWindowDays := 30
  selectable := by decide +kernel
  ttl := by decide

/-- A database without rows. -/
def State.initial : State where
  licenses := .empty
  settings := none
  deletes _ := none
  patches _ := none

theorem quiet_initial : Quiet .initial := ⟨fun _ => rfl, fun _ => rfl⟩

/-- The admin writes the text of a curated licence. It is there after the next sync. -/
theorem catalog_survives_resync :
    ∃ s, run (step deployment) .initial
        [.sync 0, .update Accounts.rootSession (curatedLicenseId "CC-BY-4.0")
          { content := some ⟨"Attribution 4.0 International", by decide +kernel⟩ }, .sync 1] =
            some s ∧
      textOf s.licenses (curatedLicenseId "CC-BY-4.0") =
        some "Attribution 4.0 International" := by
  have hany : (run (step deployment) .initial
      [.sync 0, .update Accounts.rootSession (curatedLicenseId "CC-BY-4.0")
        { content := some ⟨"Attribution 4.0 International", by decide +kernel⟩ }, .sync 1]).any
      (fun _ => true) = true := by decide +kernel
  obtain ⟨s, hrun, -⟩ := exists_run_of_any hany
  obtain ⟨e, he, hid, hships⟩ : ∃ e ∈ deployment.catalog.entries,
      e.rowId = curatedLicenseId "CC-BY-4.0" ∧ e.shipsContent = false := by decide +kernel
  obtain ⟨-, -, htext⟩ :=
    catalog_survives deployment .initial .initial s [] _ 0 quiet_initial rfl hrun e he
  refine ⟨s, hrun, ?_⟩
  rw [← hid, htext hships, hid]
  decide +kernel

end RedTeaming.Licenses
