import RedTeaming.Licenses.Default

/-!
# `RedTeaming.Licenses.LastWrite`: no patch of the settings is lost

Patches of the settings overlap. Each writes the knobs that differ from what it read, and the row
may have been made, or changed, since. `writes` lists the changes that the patches of a run
commit, in that order. `settings_last_write` says that every knob has the value of the last of
them that sets it, or the one it had at the start, and that each of them comes from a payload of a
permitted caller.
-/

set_option autoImplicit false

namespace RedTeaming.Licenses

open RedTeaming.Auth
open RedTeaming.Library

/-- The value of each knob in effect. -/
def State.knobs (settings : Settings) (s : State) : Knobs :=
  (getPlatformSettings settings s.settings).knobs

/-- The changes that a step commits. -/
def State.committed (s : State) : Label → Option Changes
  | .commitPatch tx _ => (s.patches tx).map Patch.changes
  | _ => none

/-- The changes that a run commits, in order. -/
def writes (settings : Settings) : State → List Label → List Changes
  | _, [] => []
  | s, l :: ls =>
    (s.committed l).toList ++ ((step settings s l).map fun s' => writes settings s' ls).getD []

/-- The changes come from the payload of a request of the run. -/
def FromPayload (ls : List Label) (changes : Changes) : Prop :=
  ∃ tx caller payload, .readPatch tx caller payload ∈ ls ∧
    Permission.platformSettingsUpdate ∈ caller.permissions ∧
    ∀ k v, changes k = some v → payload.changes k = some v

section
variable {settings : Settings} {s s' : State} {l : Label} {ls : List Label} {changes : Changes}

theorem writes_cons (h : step settings s l = some s') (ls : List Label) :
    writes settings s (l :: ls) = (s.committed l).toList ++ writes settings s' ls := by
  rw [writes, h, Option.map_some, Option.getD_some]

/-- A step applies what it commits to the knobs in effect. -/
theorem knobs_step (h : step settings s l = some s') :
    s'.knobs settings = ((s.committed l).map fun c => c.applyTo (s.knobs settings)).getD
      (s.knobs settings) := by
  cases step_spec h with
  | commitPatch tx now p hp _ _ =>
    rw [State.committed, hp, Option.map_some, Option.map_some, Option.getD_some]
    exact knobs_updatePlatformSettings settings s.settings p.changes now
  | rows _ rows hl _ =>
    have hnone : s.committed l = none := by
      cases l with
      | commitPatch tx now => cases hl
      | _ => rfl
    rw [hnone]
    rfl
  | _ => rfl

/-- A knob at the end of a run has the value of the last commit that sets it. -/
theorem knobs_of_run (hrun : run (step settings) s ls = some s') (k : Knob) :
    s'.knobs settings k =
      ((writes settings s ls).filterMap (· k)).getLast?.getD (s.knobs settings k) := by
  induction ls generalizing s with
  | nil =>
    cases hrun
    rfl
  | cons l ls ih =>
    obtain ⟨s₁, hstep, hrun⟩ := (run_cons_eq_some _).mp hrun
    rw [ih hrun, writes_cons hstep, knobs_step hstep]
    cases s.committed l with
    | none => rfl
    | some changes =>
      rw [Option.map_some, Option.getD_some, Option.toList_some, List.singleton_append]
      cases hset : changes k with
      | none => rw [List.filterMap_cons_none hset, Changes.applyTo_of_none hset]
      | some v =>
        rw [List.filterMap_cons_some hset, List.getLast?_cons, Changes.applyTo_of_some hset,
          Option.getD_some]

/-- Every patch in flight has its changes from a payload that was read. -/
def Read (ls : List Label) (s : State) : Prop :=
  ∀ tx p, s.patches tx = some p → FromPayload ls p.changes

theorem FromPayload.mono {ls' : List Label} (h : FromPayload ls changes) (hsub : ls ⊆ ls') :
    FromPayload ls' changes := by
  obtain ⟨tx, caller, payload, hl, hcaller, hset⟩ := h
  exact ⟨tx, caller, payload, hsub hl, hcaller, hset⟩

/-- A step starts a patch with changes from its payload, and leaves the changes of the others. -/
theorem read_step (hs : Read ls s) (h : step settings s l = some s') : Read (ls ++ [l]) s' := by
  have hold (tx : Tx) (p : Patch) (hp : s.patches tx = some p) :
      FromPayload (ls ++ [l]) p.changes :=
    (hs tx p hp).mono (List.subset_append_left ls [l])
  intro tx p hp
  cases step_spec h with
  | readPatch tx' caller payload p' hcaller hchanges _ =>
    rcases Records.of_set hp with ⟨rfl, rfl⟩ | ⟨-, hp⟩
    · refine ⟨tx, caller, payload, List.mem_append_right _ List.mem_cons_self, hcaller, ?_⟩
      intro k v hset
      rw [hchanges] at hset
      exact Changes.of_against hset
    · exact hold tx p hp
  | validatePatch tx' p₀ hp₀ _ =>
    rcases Records.of_set hp with ⟨rfl, rfl⟩ | ⟨-, hp⟩
    · exact hold tx p₀ hp₀
    · exact hold tx p hp
  | commitPatch tx' now p' _ _ _ => exact hold tx p (Records.of_drop hp).2
  | abort tx' => exact hold tx p (Records.of_drop hp).2
  | _ => exact hold tx p hp

/-- What a run commits comes from payloads of the run, and of the requests before it. -/
theorem fromPayload_of_mem_writes {ls₀ : List Label} (hs : Read ls₀ s)
    (hrun : run (step settings) s ls = some s') (hmem : changes ∈ writes settings s ls) :
    FromPayload (ls₀ ++ ls) changes := by
  induction ls generalizing s ls₀ with
  | nil => cases hmem
  | cons l ls ih =>
    obtain ⟨s₁, hstep, hrun⟩ := (run_cons_eq_some _).mp hrun
    rw [writes_cons hstep, List.mem_append, Option.mem_toList] at hmem
    rcases hmem with hnow | hlater
    · cases l with
      | commitPatch tx now =>
        obtain ⟨p, hp, rfl⟩ := Option.map_eq_some_iff.mp hnow
        exact (hs tx p hp).mono (List.subset_append_left _ _)
      | _ => cases hnow
    · have hrest := ih (read_step hs hstep) hrun hlater
      rwa [List.append_assoc, List.singleton_append] at hrest

end

/-- However the patches of the platform settings overlap, each knob has the value of the last
commit that sets it, or the one it had at the start. A patch sets the fields of its payload that
differ from what it read: one that repeats the value it read is not set, and does not win over a
commit in between. Each commit writes values of a payload that a caller with the permission sent.
So every knob stays within the bounds of the schema. -/
theorem settings_last_write (settings : Settings) (s₀ s : State) (ls : List Label) (h₀ : Quiet s₀)
    (hshipped : s₀.settings = none) (hrun : run (step settings) s₀ ls = some s) :
    (∀ k, s.knobs settings k =
      ((writes settings s₀ ls).filterMap (· k)).getLast?.getD (settings.shippedDefaults k)) ∧
    (∀ changes ∈ writes settings s₀ ls, FromPayload ls changes) ∧
    ∀ k : Knob, k.inBounds (s.knobs settings k) := by
  have hstart (k : Knob) : s₀.knobs settings k = settings.shippedDefaults k := by
    rw [State.knobs, getPlatformSettings, hshipped]
    rfl
  have hlast (k : Knob) : s.knobs settings k =
      ((writes settings s₀ ls).filterMap (· k)).getLast?.getD (settings.shippedDefaults k) := by
    rw [knobs_of_run hrun, hstart]
  have hread : Read [] s₀ := fun tx p hp => by rw [h₀.patches] at hp; cases hp
  have hpayload (changes : Changes) (hmem : changes ∈ writes settings s₀ ls) :
      FromPayload ls changes := fromPayload_of_mem_writes hread hrun hmem
  refine ⟨hlast, hpayload, fun k => ?_⟩
  rw [hlast]
  cases hwritten : ((writes settings s₀ ls).filterMap (· k)).getLast? with
  | none => exact inBounds_shippedDefaults settings k
  | some v =>
    obtain ⟨changes, hmem, hset⟩ := List.mem_filterMap.mp (List.mem_of_getLast? hwritten)
    obtain ⟨tx, caller, payload, -, -, hsame⟩ := hpayload changes hmem
    exact payload.inBounds k v (hsame k v hset)

/-- A patch that closes the signup. -/
def closeSignup : PlatformSettingsUpdate where
  changes
    | .inviteOnly => some true
    | _ => none
  inBounds := by
    intro k v h
    cases k with
    | inviteOnly => trivial
    | _ => cases h

/-- A patch that asks for a digit in passwords. -/
def requireDigit : PlatformSettingsUpdate where
  changes
    | .passwordRequireDigit => some true
    | _ => none
  inBounds := by
    intro k v h
    cases k with
    | passwordRequireDigit => trivial
    | _ => cases h

/-- Two patches that make the row at once. Neither takes the change of the other back. -/
theorem settings_last_write_overlap :
    ∃ s, run (step deployment) .deployed
        [.readPatch 0 Accounts.rootSession closeSignup,
          .readPatch 1 Accounts.rootSession requireDigit,
          .validatePatch 0, .validatePatch 1, .commitPatch 0 1, .commitPatch 1 2] = some s ∧
      (s.knobs deployment .inviteOnly && s.knobs deployment .passwordRequireDigit) = true := by
  have hany : (run (step deployment) .deployed
      [.readPatch 0 Accounts.rootSession closeSignup,
        .readPatch 1 Accounts.rootSession requireDigit,
        .validatePatch 0, .validatePatch 1, .commitPatch 0 1, .commitPatch 1 2]).any
      (fun _ => true) = true := by decide +kernel
  obtain ⟨s, hrun, -⟩ := exists_run_of_any hany
  obtain ⟨hlast, -, -⟩ := settings_last_write deployment .deployed s _
    ⟨fun _ => rfl, fun _ => rfl⟩ rfl hrun
  refine ⟨s, hrun, ?_⟩
  rw [hlast, hlast]
  decide +kernel

end RedTeaming.Licenses
