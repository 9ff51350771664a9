import RedTeaming.Licenses.Curated

/-!
# `RedTeaming.Licenses.Default`: the platform default always resolves

The delete of a licence reads the settings while it holds the lock of its row, and refuses the
default. A patch checks the licence that it names before it writes the settings, in another
statement. A delete of that licence may commit in between. So the default can be a tombstone,
which `get_default_license` still loads.

`Resolves` is what no order of the statements breaks: the default is a row, it is not `NONE`, and
when it is curated it is live. `Undeleted` holds as long as no patch commits after a delete of its
licence (`Overtaken`). Then the default is live.

`default_license_resolves` is the result for runs.
-/

set_option autoImplicit false

namespace RedTeaming.Licenses

open RedTeaming.Auth
open RedTeaming.Library

/-- The licence is not `NONE` and has a row, which is live when it is curated. -/
def Resolves (rows : Table DataLicense) (licenseId : UUID) : Prop :=
  licenseId ≠ noLicenseId ∧
    ∃ lic ∈ rows, key lic = licenseId ∧ (lic.createdById = none → live lic = true)

/-- The row of the licence is live. -/
def Live (rows : Table DataLicense) (licenseId : UUID) : Prop :=
  ∃ lic ∈ rows, key lic = licenseId ∧ live lic = true

/-- The default resolves, and so does every licence that a checked patch makes the default. -/
structure Sound (settings : Settings) (s : State) : Prop where
  held : Held s
  synced : Synced settings.catalog s.licenses
  default : Resolves s.licenses (s.defaultLicenseId settings)
  checked : ∀ tx p licenseId, s.patches tx = some p → p.validated = true →
    p.changes.defaultLicenseId = some licenseId → Resolves s.licenses licenseId

/-- A delete commits over the checked patch of the connection, which names its licence. -/
def Crosses (tx : Tx) (s : State) (l : Label) : Prop :=
  ∃ licenseId now p, l = .commitDelete licenseId now ∧ s.patches tx = some p ∧
    p.validated = true ∧ p.changes.defaultLicenseId = some licenseId

/-- The step ends the patch of the connection. -/
def EndsPatch (tx : Tx) : Label → Prop
  | .commitPatch tx' _ | .abort tx' => tx' = tx
  | _ => False

/-- A delete has committed over the patch that the connection has in flight. -/
def Crossed (settings : Settings) (s₀ : State) (ls : List Label) (tx : Tx) : Prop :=
  Since (step settings) (Crosses tx) (EndsPatch tx) s₀ ls

/-- A patch commits in the run although the delete of its licence has committed since its
check. -/
def Overtaken (settings : Settings) (s₀ : State) (ls : List Label) : Prop :=
  ∃ ls₁ tx now ls₂, ls = ls₁ ++ .commitPatch tx now :: ls₂ ∧ Crossed settings s₀ ls₁ tx

/-- The default is live, and so is every licence that a checked patch makes the default, unless a
delete has crossed the patch. A delete that has read the settings is not one of the default. -/
structure Undeleted (settings : Settings) (s₀ : State) (ls : List Label) (s : State) : Prop where
  default : Live s.licenses (s.defaultLicenseId settings)
  checked : ∀ tx p licenseId, s.patches tx = some p → p.validated = true →
    p.changes.defaultLicenseId = some licenseId →
      Live s.licenses licenseId ∨ Crossed settings s₀ ls tx
  deletes : ∀ licenseId d, s.deletes licenseId = some d → d.checked = true →
    licenseId ≠ s.defaultLicenseId settings

section
variable {settings : Settings} {catalog : Catalog} {s s' : State} {l : Label}
  {rows' : Table DataLicense} {licenseId : UUID}

/-- What resolves goes on resolving: a row keeps its author, and a sync revives it. -/
theorem LicenseEffect.resolves (h : LicenseEffect catalog s l rows')
    (hres : Resolves s.licenses licenseId) : Resolves rows' licenseId := by
  obtain ⟨hne, lic, hlic, hkey, hcurated⟩ := hres
  refine ⟨hne, ?_⟩
  cases h with
  | created row _ _ hflush => exact ⟨lic, (mem_flush hflush).mpr (Or.inl hlic), hkey, hcurated⟩
  | updated caller lic' changes _ _ _ _ _ hmodify =>
    subst hmodify
    by_cases hsame : key lic = key lic'
    · exact ⟨changes.applyTo lic, Table.mem_modify.mpr (Or.inl ⟨lic, hlic, hsame, rfl⟩), hkey,
        hcurated⟩
    · exact ⟨lic, Table.mem_modify.mpr (Or.inr ⟨hlic, hsame⟩), hkey, hcurated⟩
  | restored lic' _ _ _ _ hrestore =>
    subst hrestore
    by_cases hsame : key lic = key lic'
    · refine ⟨restore lic, mem_restoreRow.mpr (Or.inl ⟨lic, hlic, hsame, rfl⟩), ?_, ?_⟩
      · rw [key_restore]
        exact hkey
      · exact fun _ => live_restore lic
    · exact ⟨lic, mem_restoreRow.mpr (Or.inr ⟨hlic, hsame⟩), hkey, hcurated⟩
  | deleted lic' now d hlic' hauthor _ _ _ hdelete =>
    subst hdelete
    by_cases hsame : key lic = key lic'
    · refine ⟨softDelete now d.callerId lic,
        Table.mem_modify.mpr (Or.inl ⟨lic, hlic, hsame, rfl⟩), ?_, fun hnone => ?_⟩
      · rw [key_softDelete]
        exact hkey
      · rw [Table.eq_of_key_eq hlic hlic' hsame] at hnone
        exact absurd hnone hauthor
    · exact ⟨lic, Table.mem_modify.mpr (Or.inr ⟨hlic, hsame⟩), hkey, hcurated⟩
  | synced now _ _ hsync =>
    by_cases hentry : ∃ e ∈ catalog.entries, key lic = e.rowId
    · obtain ⟨e, he, hrow⟩ := hentry
      have hrec : e.Reconciled now s.licenses (e.reconcile lic) := Or.inl ⟨lic, hlic, hrow, rfl⟩
      exact ⟨e.reconcile lic, (mem_syncLicenses hsync).mpr (Or.inl ⟨e, he, hrec⟩), hkey,
        fun _ => rfl⟩
    · push Not at hentry
      exact ⟨lic, (mem_syncLicenses hsync).mpr (Or.inr ⟨hlic, hentry⟩), hkey, hcurated⟩
  | same _ hsame =>
    subst hsame
    exact ⟨lic, hlic, hkey, hcurated⟩

/-- A live licence stays live, unless its delete commits. -/
theorem LicenseEffect.keepsLive (h : LicenseEffect catalog s l rows')
    (hlive : Live s.licenses licenseId) (hl : ∀ now, l ≠ .commitDelete licenseId now) :
    Live rows' licenseId := by
  obtain ⟨lic, hlic, rfl, hlicLive⟩ := hlive
  cases h with
  | created row _ _ hflush => exact ⟨lic, (mem_flush hflush).mpr (Or.inl hlic), rfl, hlicLive⟩
  | updated caller lic' changes _ _ _ _ _ hmodify =>
    subst hmodify
    by_cases hsame : key lic = key lic'
    · exact ⟨changes.applyTo lic, Table.mem_modify.mpr (Or.inl ⟨lic, hlic, hsame, rfl⟩), rfl,
        hlicLive⟩
    · exact ⟨lic, Table.mem_modify.mpr (Or.inr ⟨hlic, hsame⟩), rfl, hlicLive⟩
  | restored lic' hlic' hdead _ _ hrestore =>
    subst hrestore
    refine ⟨lic, mem_restoreRow.mpr (Or.inr ⟨hlic, fun hsame => ?_⟩), rfl, hlicLive⟩
    rw [Table.eq_of_key_eq hlic hlic' hsame, hdead] at hlicLive
    cases hlicLive
  | deleted lic' now d _ _ _ _ hlabel hdelete =>
    subst hdelete
    refine ⟨lic, (mem_softDeleteRow hlicLive).mpr ⟨hlic, fun hsame => hl now ?_⟩, rfl, hlicLive⟩
    rw [hlabel, hsame]
  | synced now _ _ hsync =>
    by_cases hentry : ∃ e ∈ catalog.entries, key lic = e.rowId
    · obtain ⟨e, he, hrow⟩ := hentry
      have hrec : e.Reconciled now s.licenses (e.reconcile lic) := Or.inl ⟨lic, hlic, hrow, rfl⟩
      exact ⟨e.reconcile lic, (mem_syncLicenses hsync).mpr (Or.inl ⟨e, he, hrec⟩), rfl, rfl⟩
    · push Not at hentry
      exact ⟨lic, (mem_syncLicenses hsync).mpr (Or.inr ⟨hlic, hentry⟩), rfl, hlicLive⟩
  | same _ hsame =>
    subst hsame
    exact ⟨lic, hlic, rfl, hlicLive⟩

/-- A patch that passes its check names no licence, or a live one other than `NONE`. -/
theorem validatePatch_spec {p : Patch} (h : s.validatePatch settings p = .ok ())
    (hp : p.changes.defaultLicenseId = some licenseId) :
    licenseId ≠ noLicenseId ∧ Live s.licenses licenseId := by
  rw [State.validatePatch, hp] at h
  obtain ⟨⟨⟩, hne, hlive⟩ := bind_eq_ok.mp h
  rw [check_eq_ok, bne_iff_ne] at hne
  rw [validateLicenseRef, check_eq_ok] at hlive
  exact ⟨hne, isSome_findLive.mp hlive⟩

/-- The default after an upsert: the one that the changes name, else the old one. -/
theorem defaultLicenseId_updatePlatformSettings (settings : Settings) (s : State)
    (changes : Changes) (now : Time) :
    (updatePlatformSettings settings s.settings changes now).defaultLicenseId =
      changes.defaultLicenseId.getD (s.defaultLicenseId settings) := by
  rw [PlatformSettings.defaultLicenseId, knobs_updatePlatformSettings]
  rfl

/-- The patches that a step leaves checked: those it found checked and does not end, and the one
it checks. -/
theorem step_validated {tx : Tx} {p : Patch} (h : step settings s l = some s')
    (hp : s'.patches tx = some p) (hvalid : p.validated = true) :
    (s.patches tx = some p ∧ ¬ EndsPatch tx l) ∨
      ∃ p₀, s.validatePatch settings p₀ = .ok () ∧ p.changes = p₀.changes ∧
        s'.licenses = s.licenses := by
  cases step_spec h with
  | rows _ rows hl _ =>
    refine Or.inl ⟨hp, fun hends => ?_⟩
    cases l with
    | commitPatch tx' now => cases hl
    | abort tx' => cases hl
    | _ => exact hends
  | readPatch tx' caller payload p' _ _ hfresh =>
    rcases Records.of_set hp with ⟨rfl, rfl⟩ | ⟨-, hp⟩
    · rw [hfresh] at hvalid
      cases hvalid
    · exact Or.inl ⟨hp, fun hends => hends⟩
  | validatePatch tx' p₀ _ hcheck =>
    rcases Records.of_set hp with ⟨rfl, rfl⟩ | ⟨-, hp⟩
    · exact Or.inr ⟨p₀, hcheck, rfl, rfl⟩
    · exact Or.inl ⟨hp, fun hends => hends⟩
  | commitPatch tx' now p' _ _ _ =>
    obtain ⟨hne, hp⟩ := Records.of_drop hp
    exact Or.inl ⟨hp, fun hends => hne hends.symm⟩
  | abort tx' =>
    obtain ⟨hne, hp⟩ := Records.of_drop hp
    exact Or.inl ⟨hp, fun hends => hne hends.symm⟩
  | _ => exact Or.inl ⟨hp, fun hends => hends⟩

/-- The default after a step: the old one, or the one that a checked patch names and commits. A
delete in flight holds off the second. -/
theorem step_default (h : step settings s l = some s') :
    s'.defaultLicenseId settings = s.defaultLicenseId settings ∨
      ∃ tx now p, l = .commitPatch tx now ∧ s.patches tx = some p ∧ p.validated = true ∧
        p.changes.defaultLicenseId = some (s'.defaultLicenseId settings) ∧
        s.deletes (s'.defaultLicenseId settings) = none ∧ s'.licenses = s.licenses ∧
        s'.deletes = s.deletes := by
  cases step_spec h with
  | commitPatch tx now p hp hvalid hkey =>
    have hdefault := defaultLicenseId_updatePlatformSettings settings s p.changes now
    show (updatePlatformSettings settings s.settings p.changes now).defaultLicenseId = _ ∨ _
    by_cases hsame : (updatePlatformSettings settings s.settings p.changes now).defaultLicenseId =
        s.defaultLicenseId settings
    · exact Or.inl hsame
    · refine Or.inr ⟨tx, now, p, rfl, hp, hvalid, ?_, ?_, rfl, rfl⟩
      · show p.changes.defaultLicenseId =
          some (updatePlatformSettings settings s.settings p.changes now).defaultLicenseId
        cases hnamed : p.changes.defaultLicenseId with
        | none =>
          rw [hnamed, Option.getD_none] at hdefault
          exact absurd hdefault hsame
        | some licenseId => rw [hdefault, hnamed, Option.getD_some]
      · -- the licence changed, so the foreign key was checked
        rw [State.foreignKey, Bool.or_eq_true, Bool.and_eq_true] at hkey
        rcases hkey with hkept | ⟨-, hfree⟩
        · obtain ⟨old, hold, hequal⟩ := (Option.any_eq_true _ _).mp hkept
          refine absurd ?_ hsame
          rw [← beq_iff_eq.mp hequal, State.defaultLicenseId, getPlatformSettings, hold,
            Option.getD_some]
        · exact Option.isNone_iff_eq_none.mp hfree
  | _ => exact Or.inl rfl

/-- One step keeps what resolves. -/
theorem sound_step (hs : Sound settings s) (h : step settings s l = some s') :
    Sound settings s' where
  held := held_step hs.held h
  synced := synced_step hs.held hs.synced h
  default := by
    have heffect := step_effect hs.held h
    rcases step_default h with hsame | ⟨tx, -, p, -, hp, hvalid, hnamed, -, -, -⟩
    · rw [hsame]
      exact heffect.resolves hs.default
    · exact heffect.resolves (hs.checked tx p _ hp hvalid hnamed)
  checked := by
    intro tx p licenseId hp hvalid hnamed
    rcases step_validated h hp hvalid with ⟨hp, -⟩ | ⟨p₀, hcheck, hchanges, hsame⟩
    · exact (step_effect hs.held h).resolves (hs.checked tx p licenseId hp hvalid hnamed)
    · obtain ⟨hne, lic, hlic, hkey, hlive⟩ := validatePatch_spec hcheck (hchanges ▸ hnamed)
      rw [hsame]
      exact ⟨hne, lic, hlic, hkey, fun _ => hlive⟩

/-- A run whose end overtakes no patch overtakes none before. -/
theorem not_overtaken_of_concat {s₀ : State} {ls : List Label}
    (h : ¬ Overtaken settings s₀ (ls ++ [l])) : ¬ Overtaken settings s₀ ls := by
  rintro ⟨ls₁, tx, now, ls₂, rfl, hcrossed⟩
  exact h ⟨ls₁, tx, now, ls₂ ++ [l], by rw [List.append_assoc, List.cons_append], hcrossed⟩

/-- The default stays live in a step that overtakes no patch. -/
theorem default_step {s₀ : State} {ls : List Label} (hs : Sound settings s)
    (hu : Undeleted settings s₀ ls s) (hl : ¬ Overtaken settings s₀ (ls ++ [l]))
    (h : step settings s l = some s') : Live s'.licenses (s'.defaultLicenseId settings) := by
  rcases step_default h with hsame | ⟨tx, now, p, rfl, hp, hvalid, hnamed, -, hrows, -⟩
  · rw [hsame]
    refine (step_effect hs.held h).keepsLive hu.default fun now hcommit => ?_
    -- a delete that has read the settings is not one of the default
    subst hcommit
    cases step_spec h with
    | rows _ rows hwrites _ => cases hwrites
    | commitDelete _ _ d hd hchecked => exact hu.deletes _ d hd hchecked rfl
  · rw [hrows]
    rcases hu.checked tx p _ hp hvalid hnamed with hlive | hcrossed
    · exact hlive
    · exact absurd ⟨ls, tx, now, [], rfl, hcrossed⟩ hl

/-- After a step a checked patch names a live licence, or a delete has crossed it. -/
theorem checked_step {s₀ : State} {ls : List Label} (hrun : run (step settings) s₀ ls = some s)
    (hs : Sound settings s) (hu : Undeleted settings s₀ ls s) (h : step settings s l = some s')
    {tx : Tx} {p : Patch} (hp : s'.patches tx = some p) (hvalid : p.validated = true)
    (hnamed : p.changes.defaultLicenseId = some licenseId) :
    Live s'.licenses licenseId ∨ Crossed settings s₀ (ls ++ [l]) tx := by
  rcases step_validated h hp hvalid with ⟨hp, hopen⟩ | ⟨p₀, hcheck, hchanges, hsame⟩
  · rcases hu.checked tx p licenseId hp hvalid hnamed with hlive | hcrossed
    · by_cases hcommit : ∃ now, l = .commitDelete licenseId now
      · obtain ⟨now, hcommit⟩ := hcommit
        exact Or.inr (since_concat hrun ⟨licenseId, now, p, hcommit, hp, hvalid, hnamed⟩)
      · exact Or.inl ((step_effect hs.held h).keepsLive hlive (not_exists.mp hcommit))
    · exact Or.inr (Since.concat hcrossed hopen)
  · rw [hsame]
    exact Or.inl (validatePatch_spec hcheck (hchanges ▸ hnamed)).2

/-- After a step a delete that has read the settings is not one of the default. -/
theorem deletes_step {s₀ : State} {ls : List Label} (hu : Undeleted settings s₀ ls s)
    (h : step settings s l = some s') {d : Deletion} (hd : s'.deletes licenseId = some d)
    (hchecked : d.checked = true) : licenseId ≠ s'.defaultLicenseId settings := by
  rcases step_default h with hsame | ⟨-, -, -, -, -, -, -, hfree, -, hdeletes⟩
  · rw [hsame]
    rcases step_deletes h hd with ⟨d', hd', -, hread | hread⟩ | ⟨-, hfresh, -⟩
    · exact hu.deletes licenseId d' hd' (hread ▸ hchecked)
    · exact hread
    · rw [hfresh] at hchecked
      cases hchecked
  · -- a licence that a delete holds does not become the default
    intro hdefault
    rw [hdeletes, hdefault, hfree] at hd
    cases hd

/-- One step that overtakes no patch keeps the default live. -/
theorem undeleted_step {s₀ : State} {ls : List Label} (hrun : run (step settings) s₀ ls = some s)
    (hs : Sound settings s) (hu : Undeleted settings s₀ ls s)
    (hl : ¬ Overtaken settings s₀ (ls ++ [l])) (h : step settings s l = some s') :
    Undeleted settings s₀ (ls ++ [l]) s' where
  default := default_step hs hu hl h
  checked _ _ _ hp hvalid hnamed := checked_step hrun hs hu h hp hvalid hnamed
  deletes _ _ hd hchecked := deletes_step hu h hd hchecked

/-- The shipped default of a synced deployment resolves, and is live. -/
theorem resolves_shipped (h : Synced settings.catalog s.licenses) :
    Resolves s.licenses (curatedLicenseId settings.platformDefaultDataLicense) ∧
      Live s.licenses (curatedLicenseId settings.platformDefaultDataLicense) := by
  obtain ⟨e, he, hid, hne⟩ := Catalog.exists_of_selectable settings.selectable
  obtain ⟨lic, hlic, hmatch⟩ := h e he
  have hkey := hmatch.key.trans hid
  exact ⟨⟨hid ▸ hne, lic, hlic, hkey, fun _ => hmatch.live⟩, lic, hlic, hkey, hmatch.live⟩

/-- A row that resolves is the one that `get_default_license` loads. -/
theorem getDefaultLicense_of_mem {lic : DataLicense} (hlic : lic ∈ s.licenses)
    (hkey : key lic = s.defaultLicenseId settings) :
    getDefaultLicense settings s.licenses s.settings = .ok lic := by
  rw [getDefaultLicense, found_eq_ok]
  exact Table.find?_eq_some.mpr ⟨hlic, hkey⟩

end

/-- From a deployment after its sync, with the shipped settings, whatever the order of the
statements: the platform default is a row, it is not `NONE`, and it is live when it is curated.
When no patch commits after a delete of the licence that it names has committed over it, the
default is live in any case. -/
theorem default_license_resolves (settings : Settings) (s₀ s : State) (ls : List Label)
    (h₀ : Quiet s₀) (hshipped : s₀.settings = none)
    (hsynced : Synced settings.catalog s₀.licenses) (hrun : run (step settings) s₀ ls = some s) :
    ∃ lic, getDefaultLicense settings s.licenses s.settings = .ok lic ∧
      lic.id ≠ noLicenseId ∧ (lic.createdById = none → live lic = true) ∧
      (¬ Overtaken settings s₀ ls → live lic = true) := by
  have hnone : s₀.defaultLicenseId settings =
      curatedLicenseId settings.platformDefaultDataLicense := by
    rw [State.defaultLicenseId, getPlatformSettings, hshipped]
    rfl
  obtain ⟨hresolves, hlive⟩ := resolves_shipped hsynced
  have hsound₀ : Sound settings s₀ :=
    { held := held_of_quiet h₀
      synced := hsynced
      default := hnone ▸ hresolves
      checked := fun tx p _ hp => by rw [h₀.patches] at hp; cases hp }
  have hundeleted₀ : Undeleted settings s₀ [] s₀ :=
    { default := hnone ▸ hlive
      checked := fun tx p _ hp => by rw [h₀.patches] at hp; cases hp
      deletes := fun licenseId d hd => by rw [h₀.deletes] at hd; cases hd }
  have hboth : Sound settings s ∧ (¬ Overtaken settings s₀ ls → Undeleted settings s₀ ls s) := by
    refine run_history (I := fun ls s => Sound settings s ∧
      (¬ Overtaken settings s₀ ls → Undeleted settings s₀ ls s)) ?_ ?_ hrun
    · exact ⟨hsound₀, fun _ => hundeleted₀⟩
    · rintro ls s l s' hrun ⟨hsound, hundeleted⟩ hstep
      refine ⟨sound_step hsound hstep, fun hl => ?_⟩
      exact undeleted_step hrun hsound (hundeleted (not_overtaken_of_concat hl)) hl hstep
  obtain ⟨hsound, hundeleted⟩ := hboth
  obtain ⟨hne, lic, hlic, hkey, hcurated⟩ := hsound.default
  have hid : lic.id = s.defaultLicenseId settings := hkey
  refine ⟨lic, getDefaultLicense_of_mem hlic hkey, hid ▸ hne, hcurated, fun hovertaken => ?_⟩
  obtain ⟨lic', hlic', hkey', hlive'⟩ := (hundeleted hovertaken).default
  rw [Table.eq_of_key_eq hlic hlic' (hkey.trans hkey'.symm)]
  exact hlive'

/-- The deployment after its first sync. -/
def State.deployed : State :=
  { State.initial with licenses := (syncLicenses twoLicenses .empty 0).getD .empty }

theorem synced_deployed : Synced deployment.catalog State.deployed.licenses := by
  have hsome : (syncLicenses twoLicenses .empty 0).isSome = true := by decide +kernel
  obtain ⟨rows, hrows⟩ := Option.isSome_iff_exists.mp hsome
  rw [State.deployed, hrows]
  exact matches_of_sync hrows

/-- A licence of the admin. -/
def ownLicense : LicenseCreate where
  name := ⟨"Acme", by decide⟩
  shortDescription := ⟨"Internal use", by decide⟩
  content := ⟨"Terms", by decide⟩

/-- A patch that makes the licence 50 the default. -/
def makeDefault : PlatformSettingsUpdate where
  changes
    | .defaultLicenseId => some (50 : Nat)
    | _ => none
  inBounds := by
    intro k v h
    cases k with
    | defaultLicenseId => trivial
    | _ => cases h

/-- The admin makes a licence of their own the default. -/
def ownDefault : List Label :=
  [.create Accounts.rootSession 50 1 ownLicense, .readPatch 0 Accounts.rootSession makeDefault,
    .validatePatch 0, .commitPatch 0 2]

/-- The licence is the default, and is live. -/
theorem default_license_resolves_own :
    ∃ s lic, run (step deployment) .deployed ownDefault = some s ∧
      getDefaultLicense deployment s.licenses s.settings = .ok lic ∧ live lic = true := by
  have hany : (run (step deployment) .deployed ownDefault).any (fun _ => true) = true := by
    decide +kernel
  obtain ⟨s, hrun, -⟩ := exists_run_of_any hany
  obtain ⟨lic, hdefault, -, -, hlive⟩ :=
    default_license_resolves deployment .deployed s ownDefault
    ⟨fun _ => rfl, fun _ => rfl⟩ rfl synced_deployed hrun
  refine ⟨s, lic, hrun, hdefault, hlive ?_⟩
  -- no delete is in the run
  rintro ⟨ls₁, tx, now, ls₂, hls, before, l, after, s₁, hbefore, -,
    ⟨licenseId, at', p, rfl, -⟩, -⟩
  have hmem : Label.commitDelete licenseId at' ∈ ownDefault := by
    rw [hls, hbefore]
    simp
  simp [ownDefault] at hmem

/-- A delete between the check of a patch and its commit leaves a tombstone as the default. -/
example : (run (step deployment) .deployed
    [.create Accounts.rootSession 50 1 ownLicense, .readPatch 0 Accounts.rootSession makeDefault,
      .validatePatch 0, .lockDelete Accounts.rootSession 50, .checkDelete 50, .commitDelete 50 2,
      .commitPatch 0 3]).any (fun s => s.defaultLicenseId deployment == 50 &&
        (findLive s.licenses 50).isNone) = true := by decide +kernel

end RedTeaming.Licenses
