import RedTeaming.AiGateway.Health

/-!
# `RedTeaming.AiGateway.Findings`: a capability finding is never stale

`capability_mismatch` is an accusation against one call. `Founded` says that it has its evidence:
a conclusive image probe was made with the probed call of the row, and the row declares image
input.

Three writers touch the probed call or the finding. A patch holds the row from its read on, and
takes the finding away when it moves the call. A settle writes a finding only to a row with the
call of its snapshot, which is the call of its probe. Both write under the lock of the row, so no
version that is read stands beside an uncommitted one of another party (`Inv`).
`finding_is_current` says that the committed row is founded in every interleaving.
-/

set_option autoImplicit false

namespace RedTeaming.AiGateway

open RedTeaming.Library

/-- A finding of the row has its evidence in the probes. -/
def Founded (probes : List Probe) (model : AiModel) : Prop :=
  ∀ reason, model.capabilityMismatch = some reason →
    .image ∈ model.inputModalities ∧ ⟨model.probedCall, some reason⟩ ∈ probes

/-- No party is there, and the row was not probed yet. -/
structure Start (s : State) : Prop where
  parties : ∀ p, s.parties p = none
  pending : s.row.pending = none
  finding : s.row.committed.capabilityMismatch = none

/-- What a party knows where it is. A patch holds the row as it read it. A task that has a
conclusion made the probe, of a row that declared image input. -/
def PhaseOk (row : Versioned AiModel PartyId) (probes : List Probe) (p : PartyId) : Phase → Prop
  | .loaded model _ => row.pending = some (p, model)
  | .concluded model _ finding | .settling model finding => ∀ mismatch, finding = some mismatch →
      .image ∈ model.inputModalities ∧ ⟨model.probedCall, mismatch⟩ ∈ probes
  | _ => True

/-- What holds in every reachable state. -/
structure Inv (s : State) : Prop where
  committed : Founded s.probes s.row.committed
  pending : ∀ p model, s.row.pending = some (p, model) → Founded s.probes model
  phase : ∀ p phase, s.parties p = some phase → PhaseOk s.row s.probes p phase

section
variable {s s' : State} {p : PartyId} {phase phase' : Phase} {env : Env} {model model' : AiModel}
  {probes : List Probe}

/-- More probes leave a row founded. -/
theorem Founded.mono {probes' : List Probe} (h : Founded probes model) (hsub : probes ⊆ probes') :
    Founded probes' model := by
  intro reason hreason
  obtain ⟨himage, hprobe⟩ := h reason hreason
  exact ⟨himage, hsub hprobe⟩

/-- A row with the same call and the same finding. -/
theorem Founded.congr (h : Founded probes model) (hcall : model'.probedCall = model.probedCall)
    (hfinding : model'.capabilityMismatch = model.capabilityMismatch) :
    Founded probes model' := by
  intro reason hreason
  rw [hfinding] at hreason
  obtain ⟨himage, hprobe⟩ := h reason hreason
  have hinput : model'.inputModalities = model.inputModalities :=
    congrArg ProbedCall.inputModalities hcall
  rw [hinput, hcall]
  exact ⟨himage, hprobe⟩

/-- A patch keeps a row founded. -/
theorem Founded.updateModel {now : Time} {changes : AiModelUpdateChanges}
    (h : Founded probes model) (hupdate : updateModel env now model changes = .ok model') :
    Founded probes model' := by
  intro reason hreason
  have hsome : model'.capabilityMismatch.isSome := by rw [hreason]; rfl
  obtain ⟨hcall, hfinding⟩ := updateModel_capabilityMismatch hupdate hsome
  exact h.congr hcall hfinding reason hreason

/-- What a party sees of the row is founded. -/
theorem Inv.view (h : Inv s) (p : PartyId) : Founded s.probes (s.row.view p) :=
  Versioned.view_of_forall h.committed h.pending p

/-! ### Frames -/

/-- What a step of `p` leaves to the others: the version that they hold, and the probes. -/
structure Keeps (row row' : Versioned AiModel PartyId) (probes probes' : List Probe)
    (p : PartyId) : Prop where
  pending : ∀ p' model, p' ≠ p → row.pending = some (p', model) → row'.pending = some (p', model)
  probes : probes ⊆ probes'

section
variable {row row' : Versioned AiModel PartyId} {probes' : List Probe} {p' : PartyId}

theorem PhaseOk.keep (h : PhaseOk row probes p' phase) (hk : Keeps row row' probes probes' p)
    (hne : p' ≠ p) : PhaseOk row' probes' p' phase := by
  cases phase with
  | loaded model changes => exact hk.pending p' model hne h
  | concluded model liveness finding =>
    intro mismatch hfinding
    obtain ⟨himage, hprobe⟩ := h mismatch hfinding
    exact ⟨himage, hk.probes hprobe⟩
  | settling model finding =>
    intro mismatch hfinding
    obtain ⟨himage, hprobe⟩ := h mismatch hfinding
    exact ⟨himage, hk.probes hprobe⟩
  | _ => trivial

theorem Keeps.refl : Keeps row row probes probes p := ⟨fun _ _ _ h => h, fun _ h => h⟩

/-- Nobody else holds a row that was written. -/
theorem Keeps.of_rewrite (h : row.rewrite p model = some row') :
    Keeps row row' probes probes p where
  pending p' model' hne hpending := by
    obtain ⟨hholder, -⟩ := Versioned.rewrite_eq_some h
    exact absurd (hholder p' ⟨model', hpending⟩) hne
  probes _ h := h

/-- The commit of a transaction leaves what another one holds. -/
theorem Keeps.commit : Keeps row (row.commit p) probes probes p where
  pending p' model hne h := by
    have hnot : ¬ row.HeldBy p := fun hheld => hne (Versioned.HeldBy.unique ⟨model, h⟩ hheld)
    rw [Versioned.commit_of_not_held hnot]
    exact h
  probes _ h := h

/-- So does a rollback. -/
theorem Keeps.rollback : Keeps row (row.rollback p) probes probes p where
  pending _ _ hne h := Versioned.pending_rollback.mpr ⟨h, hne⟩
  probes _ h := h

end

/-! ### Steps -/

/-- What holds of the records when one is written. -/
theorem Inv.phase_set {row : Versioned AiModel PartyId} {probes' : List Probe} (h : Inv s)
    (hk : Keeps s.row row s.probes probes' p) (hok : PhaseOk row probes' p phase) :
    ∀ p' phase', s.parties.set p phase p' = some phase' → PhaseOk row probes' p' phase' :=
  Records.forall_set hok fun p' phase' hne hphase => (h.phase p' phase' hphase).keep hk hne

/-- What holds of the records when one goes. -/
theorem Inv.phase_drop {row : Versioned AiModel PartyId} (h : Inv s)
    (hk : Keeps s.row row s.probes s.probes p) :
    ∀ p' phase', s.parties.drop p p' = some phase' → PhaseOk row s.probes p' phase' :=
  Records.forall_drop fun p' phase' hne hphase => (h.phase p' phase' hphase).keep hk hne

/-- A step that writes the record of its party, and leaves the row. -/
theorem Inv.setPhase (h : Inv s) (hok : PhaseOk s.row s.probes p phase) :
    Inv (s.setPhase p phase) :=
  ⟨h.committed, h.pending, h.phase_set .refl hok⟩

/-- A step that takes its party away, and leaves the row. -/
theorem Inv.leave (h : Inv s) : Inv (s.leave p) := ⟨h.committed, h.pending, h.phase_drop .refl⟩

/-- A step that writes a founded version. -/
theorem Inv.rewrite {row : Versioned AiModel PartyId} (h : Inv s)
    (hrow : s.row.rewrite p model = some row) (hmodel : Founded s.probes model)
    (hok : PhaseOk row s.probes p phase) : Inv ({ s with row }.setPhase p phase) := by
  have hphase := h.phase_set (.of_rewrite hrow) hok
  obtain ⟨-, rfl⟩ := Versioned.rewrite_eq_some hrow
  refine ⟨h.committed, ?_, hphase⟩
  intro p' model' hpending
  cases hpending
  exact hmodel

/-- The committed version is locked. -/
theorem rewrite_of_write {row row' : Versioned AiModel PartyId}
    (h : row.write p model = some row') :
    row.rewrite p model = some row' := by
  obtain ⟨hfree, rfl⟩ := Versioned.write_eq_some h
  rw [Versioned.rewrite, hfree]

theorem inv_patch {changes : AiModelUpdateChanges} (h : Inv s)
    (hstep : s.patch p changes = some s') : Inv s' := by
  simp only [State.patch, Option.bind_eq_bind, Option.bind_eq_some_iff] at hstep
  obtain ⟨_, -, _, -, row, hrow, hstep⟩ := hstep
  cases hstep
  apply h.rewrite (rewrite_of_write hrow) h.committed
  obtain ⟨-, rfl⟩ := Versioned.write_eq_some hrow
  rfl

/-- `update_model` writes what it read under the lock, and takes a finding away that would be
stale. -/
theorem inv_apply (h : Inv s) (hp : s.parties p = some phase)
    (hstep : State.apply env s p phase = some s') : Inv s' := by
  have hok := h.phase p phase hp
  unfold State.apply at hstep
  split at hstep
  · rename_i model changes
    simp only [Option.bind_eq_bind, Option.bind_eq_some_iff] at hstep
    obtain ⟨model', hupdate, row, hrow, hstep⟩ := hstep
    cases hstep
    have hloaded : Founded s.probes model := h.pending p model hok
    have hupdated : updateModel env s.now model changes = .ok model' := by
      cases hresult : updateModel env s.now model changes with
      | error e =>
        rw [hresult] at hupdate
        cases hupdate
      | ok m =>
        rw [hresult] at hupdate
        cases hupdate
        rfl
    exact h.rewrite hrow (hloaded.updateModel hupdated) trivial
  · cases hstep

theorem inv_enqueue {sent : Bool} (h : Inv s) (hstep : s.enqueue p sent phase = some s') :
    Inv s' := by
  unfold State.enqueue at hstep
  split at hstep
  · split at hstep <;> cases hstep
    · exact h.setPhase trivial
    · exact h.leave
  · cases hstep

/-- A start stamp moves neither the call nor the finding. -/
theorem inv_stamp (h : Inv s) (hstep : s.stamp p phase = some s') : Inv s' := by
  unfold State.stamp at hstep
  split at hstep
  · simp only [Option.bind_eq_bind, Option.bind_eq_some_iff] at hstep
    obtain ⟨row, hrow, hstep⟩ := hstep
    cases hstep
    apply h.rewrite hrow
    · exact (h.view p).congr rfl rfl
    · trivial
  · cases hstep

theorem inv_checkNow (h : Inv s) (hstep : State.checkNow env s p = some s') : Inv s' := by
  simp only [State.checkNow, Option.bind_eq_bind, Option.bind_eq_some_iff] at hstep
  obtain ⟨_, -, _, -, _, -, row, hrow, hstep⟩ := hstep
  cases hstep
  exact h.rewrite (rewrite_of_write hrow) (h.committed.congr rfl rfl) trivial

theorem inv_start (h : Inv s) (hstep : s.start p = some s') : Inv s' := by
  simp only [State.start, Option.bind_eq_bind, Option.bind_eq_some_iff] at hstep
  obtain ⟨_, -, _, -, hstep⟩ := hstep
  cases hstep
  exact h.setPhase trivial

theorem inv_probe {status : WarmupStatus} {reason : Option String} {late : Bool} (h : Inv s)
    (hstep : s.probe p status reason late phase = some s') : Inv s' := by
  unfold State.probe at hstep
  split at hstep
  · split at hstep <;> cases hstep
    · exact h.setPhase trivial
    · exact h.setPhase trivial
    · exact h.setPhase trivial
    · exact h
  · cases hstep

/-- A conclusion is noted with the call that it is about. -/
theorem inv_probeImage {answer : ImageAnswer} (h : Inv s)
    (hstep : s.probeImage p answer phase = some s') : Inv s' := by
  unfold State.probeImage at hstep
  split at hstep
  · rename_i model liveness
    split at hstep
    · rename_i hasked
      cases hstep
      simp only [Bool.and_eq_true, List.contains_iff_mem] at hasked
      have hsub : s.probes ⊆ s.probes ++
          answer.finding.toList.map fun mismatch => ⟨model.probedCall, mismatch⟩ :=
        List.subset_append_left _ _
      refine ⟨h.committed.mono hsub, fun p' m hm => (h.pending p' m hm).mono hsub, ?_⟩
      apply h.phase_set ⟨fun _ _ _ h => h, hsub⟩
      intro mismatch hfinding
      refine ⟨hasked.2, List.mem_append_right _ ?_⟩
      rw [hfinding]
      exact List.mem_singleton.mpr rfl
    · cases hstep
      exact h.setPhase nofun
  · cases hstep

theorem inv_settle (h : Inv s) (hp : s.parties p = some phase)
    (hstep : s.settle p phase = some s') :
    Inv s' := by
  have hok := h.phase p phase hp
  unfold State.settle at hstep
  split at hstep
  · rename_i model liveness finding
    dsimp only at hstep
    split at hstep
    · simp only [Option.bind_eq_bind, Option.bind_eq_some_iff] at hstep
      obtain ⟨row, hrow, hstep⟩ := hstep
      cases hstep
      apply h.rewrite hrow
      · exact (h.view p).congr rfl rfl
      · exact hok
    · cases hstep
      exact h.setPhase hok
  · cases hstep

/-- The finding goes to a row with the call of the probe. -/
theorem inv_settleFinding (h : Inv s) (hp : s.parties p = some phase)
    (hstep : s.settleFinding p phase = some s') : Inv s' := by
  have hok := h.phase p phase hp
  unfold State.settleFinding at hstep
  split at hstep
  · cases hstep
    exact h.setPhase trivial
  · rename_i model mismatch
    dsimp only at hstep
    split at hstep
    · rename_i hguard
      simp only [Option.bind_eq_bind, Option.bind_eq_some_iff] at hstep
      obtain ⟨row, hrow, hstep⟩ := hstep
      cases hstep
      obtain ⟨himage, hprobe⟩ := hok mismatch rfl
      have hinput : (s.row.view p).inputModalities = model.inputModalities :=
        congrArg ProbedCall.inputModalities hguard.2
      apply h.rewrite hrow
      · intro reason hreason
        have hreason : mismatch = some reason := hreason
        subst hreason
        show .image ∈ (s.row.view p).inputModalities ∧
          ⟨(s.row.view p).probedCall, some reason⟩ ∈ s.probes
        rw [hinput, hguard.2]
        exact ⟨himage, hprobe⟩
      · trivial
    · cases hstep
      exact h.setPhase trivial
  · cases hstep

/-- A commit makes a founded version the committed one. -/
theorem Inv.commitRow (h : Inv s) : Founded s.probes (s.row.commit p).committed ∧
    ∀ p' model, (s.row.commit p).pending = some (p', model) → Founded s.probes model := by
  by_cases hheld : s.row.HeldBy p
  · obtain ⟨model, hmodel⟩ := hheld
    rw [Versioned.commit_of_pending hmodel]
    refine ⟨h.pending p model hmodel, ?_⟩
    intro p' model' hpending
    cases hpending
  · rw [Versioned.commit_of_not_held hheld]
    exact ⟨h.committed, h.pending⟩

theorem inv_commit (h : Inv s) (hstep : s.commit p phase = some s') : Inv s' := by
  obtain ⟨hcommitted, hpending⟩ := h.commitRow (p := p)
  have hleave : Inv ({ s with row := s.row.commit p }.leave p) :=
    ⟨hcommitted, hpending, h.phase_drop .commit⟩
  unfold State.commit at hstep
  split at hstep
  · cases hstep
    exact ⟨hcommitted, hpending, h.phase_set .commit trivial⟩
  · cases hstep
    exact hleave
  · cases hstep
    exact hleave
  · cases hstep
    exact hleave
  · cases hstep

theorem inv_abort (h : Inv s) : Inv (s.abort p) := by
  refine ⟨?_, ?_, h.phase_drop .rollback⟩
  · show Founded s.probes (s.row.rollback p).committed
    rw [Versioned.committed_rollback]
    exact h.committed
  · intro p' model hpending
    exact h.pending p' model (Versioned.pending_rollback.mp hpending).1

/-- The other services leave the call and the finding. -/
theorem inv_other (h : Inv s) (hstep : s.other model = some s') : Inv s' := by
  simp only [State.other, Option.bind_eq_bind, Option.bind_eq_some_iff, Option.guard_eq_some',
    Option.isNone_iff_eq_none] at hstep
  obtain ⟨_, hfree, _, ⟨hcall, hfinding⟩, hstep⟩ := hstep
  cases hstep
  refine ⟨h.committed.congr hcall hfinding, ?_, ?_⟩
  · intro p' model' hpending
    cases hpending
  · intro p' phase' hphase
    have hok := h.phase p' phase' hphase
    cases phase' with
    | loaded model changes =>
      have hheld : s.row.pending = some (p', model) := hok
      rw [hfree] at hheld
      cases hheld
    | _ => exact hok

/-- Every step keeps what holds in the reachable states. -/
theorem inv_step {l : Label} (h : Inv s) (hstep : step env s l = some s') : Inv s' := by
  cases l with
  | tick =>
    cases hstep
    exact ⟨h.committed, h.pending, h.phase⟩
  | other model => exact inv_other h hstep
  | patch p changes => exact inv_patch h hstep
  | checkNow p => exact inv_checkNow h hstep
  | start p => exact inv_start h hstep
  | apply p =>
    obtain ⟨phase, hp, hstep⟩ := Option.bind_eq_some_iff.mp hstep
    exact inv_apply h hp hstep
  | enqueue p sent =>
    obtain ⟨phase, -, hstep⟩ := Option.bind_eq_some_iff.mp hstep
    exact inv_enqueue h hstep
  | stamp p =>
    obtain ⟨phase, -, hstep⟩ := Option.bind_eq_some_iff.mp hstep
    exact inv_stamp h hstep
  | probe p status reason late =>
    obtain ⟨phase, -, hstep⟩ := Option.bind_eq_some_iff.mp hstep
    exact inv_probe h hstep
  | probeImage p answer =>
    obtain ⟨phase, -, hstep⟩ := Option.bind_eq_some_iff.mp hstep
    exact inv_probeImage h hstep
  | settle p =>
    obtain ⟨phase, hp, hstep⟩ := Option.bind_eq_some_iff.mp hstep
    exact inv_settle h hp hstep
  | settleFinding p =>
    obtain ⟨phase, hp, hstep⟩ := Option.bind_eq_some_iff.mp hstep
    exact inv_settleFinding h hp hstep
  | commit p =>
    obtain ⟨phase, -, hstep⟩ := Option.bind_eq_some_iff.mp hstep
    exact inv_commit h hstep
  | abort p =>
    obtain ⟨phase, -, hstep⟩ := Option.map_eq_some_iff.mp hstep
    cases hstep
    exact inv_abort h

end

/-! ### Runs -/

/-- In every interleaving a finding of the committed row has its evidence: a conclusive image
probe with that finding was made with the values that the probed fields have now, and the row
declares image input now. -/
theorem finding_is_current (env : Env) (s₀ s : State) (ls : List Label) (hstart : Start s₀)
    (hrun : run (step env) s₀ ls = some s) (reason : String)
    (hfinding : s.row.committed.capabilityMismatch = some reason) :
    .image ∈ s.row.committed.inputModalities ∧
      ∃ probe ∈ s.probes, probe.call = s.row.committed.probedCall ∧
        probe.mismatch = some reason := by
  have hinv₀ : Inv s₀ := by
    refine ⟨?_, ?_, ?_⟩
    · intro reason hreason
      rw [hstart.finding] at hreason
      cases hreason
    · intro p model hpending
      rw [hstart.pending] at hpending
      cases hpending
    · intro p phase hp
      rw [hstart.parties p] at hp
      cases hp
  have hinv := run_invariant (fun _ _ _ h hstep => inv_step h hstep) hinv₀ hrun
  obtain ⟨himage, hprobe⟩ := hinv.committed reason hfinding
  exact ⟨himage, ⟨s.row.committed.probedCall, some reason⟩, hprobe, rfl, rfl⟩

/-! ### Runs of a registry -/

/-- A deployment without litellm's map, whose strings are plain. -/
def plainEnv : Env where
  strip := id
  lower := id
  supportsWebSearch := fun _ => false
  hasPlatformKey := fun _ => true
  healthCheckTaskTimeLimitSeconds := 600

/-- A model that declares image input, and was not probed yet. -/
def registered : State where
  row := { committed :=
    { id := 1, createdAt := 0, name := "Model", modelAlias := "model", provider := .openai
      providerModelId := "gpt", inputModalities := [.text, .image] } }
  now := 1000

theorem start_registered : Start registered := ⟨fun _ => rfl, rfl, rfl⟩

/-- A manual check and its task, with a patch that leaves the probed call between the two settle
statements. -/
def checked : List Label :=
  [.checkNow 1, .commit 1, .start 2, .probe 2 .starting none false, .probe 2 .ready none false,
    .probeImage 2 (.refused "no image"), .settle 2, .settleFinding 2, .commit 2,
    .patch 3 { name := some "Renamed" }, .apply 3, .commit 3]

/-- The finding of a check stays over a patch that leaves the call. -/
theorem finding_is_current_checked : ∃ s, run (step plainEnv) registered checked = some s ∧
    s.row.committed.capabilityMismatch = some "no image" ∧
      .image ∈ s.row.committed.inputModalities := by
  have hany : (run (step plainEnv) registered checked).any
      (fun s => s.row.committed.capabilityMismatch == some "no image") = true := by decide +kernel
  obtain ⟨s, hrun, hcheck⟩ := exists_run_of_any hany
  have hfinding := beq_iff_eq.mp hcheck
  exact ⟨s, hrun, hfinding,
    (finding_is_current plainEnv registered s checked start_registered hrun
    "no image" hfinding).1⟩

end RedTeaming.AiGateway
