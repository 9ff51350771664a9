import Mathlib.Data.List.Basic

/-!
# `RedTeaming.Library.Transition`: labelled systems, runs, and what holds along them

A system is a partial step function `step : σ → ℓ → Option σ`: `none` when the label is not
enabled in the state. A run is a list of labels folded with `List.foldlM`, so it can be
evaluated.

`Along step Q s ls` says that every step of the run `ls` from `s` is taken in a state where
`Q` holds of the label. It has two uses: as a hypothesis, when a property needs the steps of
the run to meet a condition (`run_invariant_along`), and as a conclusion, when the property is
about the steps themselves (`along_of_invariant`).

Nothing here names a program. The step function, its states, and its labels are parameters.
-/

set_option autoImplicit false

namespace RedTeaming.Library

section
variable {σ ℓ : Type} (step : σ → ℓ → Option σ)

/-- The state after the labels `ls`, or `none` when one of them is not enabled. -/
def run (s : σ) (ls : List ℓ) : Option σ := ls.foldlM step s

/-- Every step of the run of `ls` from `s` is taken in a state where `Q` holds of its label.
The part of the run after a label that is not enabled is not constrained. -/
def Along (Q : σ → ℓ → Prop) : σ → List ℓ → Prop
  | _, [] => True
  | s, l :: ls => Q s l ∧ ∀ s', step s l = some s' → Along Q s' ls

@[simp] theorem run_nil (s : σ) : run step s [] = some s := rfl

theorem run_cons (s : σ) (l : ℓ) (ls : List ℓ) :
    run step s (l :: ls) = (step s l).bind fun s' => run step s' ls := by
  simp only [run, List.foldlM_cons]
  rfl

/-- A nonempty run is one step followed by a run. -/
theorem run_cons_eq_some {s s'' : σ} {l : ℓ} {ls : List ℓ} :
    run step s (l :: ls) = some s'' ↔ ∃ s', step s l = some s' ∧ run step s' ls = some s'' := by
  rw [run_cons, Option.bind_eq_some_iff]

/-- A run of `ls ++ ls'` is a run of `ls` followed by a run of `ls'`. -/
theorem run_append_eq_some {s s'' : σ} {ls ls' : List ℓ} :
    run step s (ls ++ ls') = some s'' ↔
      ∃ s', run step s ls = some s' ∧ run step s' ls' = some s'' := by
  simp only [run, List.foldlM_append]
  exact Option.bind_eq_some_iff

variable {step}

/-- A run that can be evaluated, with a check on its last state. -/
theorem exists_run_of_any {s : σ} {ls : List ℓ} {P : σ → Bool}
    (h : (run step s ls).any P = true) : ∃ s', run step s ls = some s' ∧ P s' = true := by
  cases hrun : run step s ls with
  | none => simp [hrun] at h
  | some s' => exact ⟨s', rfl, by simpa [hrun] using h⟩

/-- The rule of invariants: what holds at the start and is kept by each step holds at the
end of each run. -/
theorem run_invariant {I : σ → Prop} (hstep : ∀ s l s', I s → step s l = some s' → I s')
    {s s' : σ} {ls : List ℓ} (h : I s) (hrun : run step s ls = some s') : I s' := by
  induction ls generalizing s with
  | nil =>
    cases hrun
    exact h
  | cons l ls ih =>
    obtain ⟨s₁, h₁, h₂⟩ := (run_cons_eq_some step).mp hrun
    exact ih (hstep _ _ _ h h₁) h₂

/-- The rule of invariants for a run whose steps meet the condition `Q`: only those steps
have to keep the invariant. -/
theorem run_invariant_along {I : σ → Prop} {Q : σ → ℓ → Prop}
    (hstep : ∀ s l s', I s → Q s l → step s l = some s' → I s')
    {s s' : σ} {ls : List ℓ} (h : I s) (hQ : Along step Q s ls)
    (hrun : run step s ls = some s') : I s' := by
  induction ls generalizing s with
  | nil =>
    cases hrun
    exact h
  | cons l ls ih =>
    obtain ⟨s₁, h₁, h₂⟩ := (run_cons_eq_some step).mp hrun
    exact ih (hstep _ _ _ h hQ.1 h₁) (hQ.2 _ h₁) h₂

/-- A property of steps that every invariant state grants holds along every run from an
invariant state. -/
theorem along_of_invariant {I : σ → Prop} {Q : σ → ℓ → Prop}
    (hstep : ∀ s l s', I s → step s l = some s' → I s') (hQ : ∀ s l, I s → Q s l)
    {s : σ} {ls : List ℓ} (h : I s) : Along step Q s ls := by
  induction ls generalizing s with
  | nil => trivial
  | cons l ls ih => exact ⟨hQ s l h, fun _ h₁ => ih (hstep _ _ _ h h₁)⟩

/-- Two conditions that agree on enabled steps agree along every run. -/
theorem along_iff_of_run {Q Q' : σ → ℓ → Prop}
    (hQ : ∀ s l s', step s l = some s' → (Q s l ↔ Q' s l)) {s s' : σ} {ls : List ℓ}
    (hrun : run step s ls = some s') : Along step Q s ls ↔ Along step Q' s ls := by
  induction ls generalizing s with
  | nil => exact Iff.rfl
  | cons l ls ih =>
    obtain ⟨s₁, h₁, h₂⟩ := (run_cons_eq_some step).mp hrun
    refine and_congr (hQ s l s₁ h₁) (forall_congr' fun s₂ => ?_)
    constructor
    · intro hs hstep
      rw [h₁] at hstep
      cases hstep
      exact (ih h₂).mp (hs h₁)
    · intro hs hstep
      rw [h₁] at hstep
      cases hstep
      exact (ih h₂).mpr (hs h₁)

/-- A condition that can be decided at each step can be decided along a run. -/
instance Along.decidable {Q : σ → ℓ → Prop} [∀ s l, Decidable (Q s l)] :
    ∀ s ls, Decidable (Along step Q s ls)
  | _, [] => .isTrue trivial
  | s, l :: ls =>
    match hstep : step s l with
    | none =>
      decidable_of_iff (Q s l)
        ⟨fun hq => ⟨hq, fun _ h => absurd (hstep.symm.trans h) nofun⟩, And.left⟩
    | some s' =>
      have : Decidable (Along step Q s' ls) := Along.decidable s' ls
      decidable_of_iff (Q s l ∧ Along step Q s' ls)
        ⟨fun h => ⟨h.1, fun _ h' => Option.some.inj (hstep.symm.trans h') ▸ h.2⟩,
          fun h => ⟨h.1, h.2 s' hstep⟩⟩

/-- A condition that each of the labels meets in every state holds along them. -/
theorem along_of_forall {Q : σ → ℓ → Prop} {s : σ} {ls : List ℓ} (h : ∀ l ∈ ls, ∀ s, Q s l) :
    Along step Q s ls := by
  induction ls generalizing s with
  | nil => trivial
  | cons l ls ih =>
    refine ⟨h l List.mem_cons_self s, fun _ _ => ih fun l' hl' => ?_⟩
    exact h l' (List.mem_cons_of_mem _ hl')

/-- What holds along a list of labels holds of the label that a run of a prefix reaches. -/
theorem Along.of_run_append {Q : σ → ℓ → Prop} {s s' : σ} {ls ls' : List ℓ} {l : ℓ}
    (h : Along step Q s (ls ++ l :: ls')) (hrun : run step s ls = some s') : Q s' l := by
  induction ls generalizing s with
  | nil =>
    cases hrun
    exact h.1
  | cons l₁ ls ih =>
    obtain ⟨s₁, h₁, h₂⟩ := (run_cons_eq_some step).mp hrun
    exact ih (h.2 s₁ h₁) h₂

/-- What holds along a run, and of one more label in the state it reaches, holds along both. -/
theorem Along.concat {Q : σ → ℓ → Prop} {s s' : σ} {ls : List ℓ} {l : ℓ}
    (h : Along step Q s ls) (hrun : run step s ls = some s') (hl : Q s' l) :
    Along step Q s (ls ++ [l]) := by
  induction ls generalizing s with
  | nil =>
    cases hrun
    exact ⟨hl, fun _ _ => trivial⟩
  | cons l₁ ls ih =>
    obtain ⟨s₁, h₁, h₂⟩ := (run_cons_eq_some step).mp hrun
    refine ⟨h.1, fun s₂ hs₂ => ?_⟩
    rw [h₁] at hs₂
    cases hs₂
    exact ih (h.2 s₁ h₁) h₂

/-! ### What holds in every state of a run -/

variable (step) in
/-- `P` holds in every state that the run of `ls` from `s` passes, the first one included. -/
def Always (P : σ → Prop) : σ → List ℓ → Prop
  | s, [] => P s
  | s, l :: ls => P s ∧ ∀ s', step s l = some s' → Always P s' ls

/-- What holds always holds in the first state. -/
theorem Always.head {P : σ → Prop} {s : σ} {ls : List ℓ} (h : Always step P s ls) : P s := by
  cases ls with
  | nil => exact h
  | cons l ls => exact h.1

/-- What holds always holds in the state that a run of a prefix reaches. -/
theorem Always.of_run_append {P : σ → Prop} {s s' : σ} {ls ls' : List ℓ}
    (h : Always step P s (ls ++ ls')) (hrun : run step s ls = some s') : P s' := by
  induction ls generalizing s with
  | nil =>
    cases hrun
    exact h.head
  | cons l ls ih =>
    obtain ⟨s₁, h₁, h₂⟩ := (run_cons_eq_some step).mp hrun
    exact ih (h.2 s₁ h₁) h₂

/-- What holds always holds in the last state. -/
theorem Always.last {P : σ → Prop} {s s' : σ} {ls : List ℓ} (h : Always step P s ls)
    (hrun : run step s ls = some s') : P s' := by
  rw [← List.append_nil ls] at h
  exact h.of_run_append hrun

/-- Let a step from a state with `P` lead to a state with `P` exactly when its label meets `Q`.
Then a run from a state with `P` keeps `P` exactly when all its steps meet `Q`. The invariant `I`
is kept by every step from a state with `P`. -/
theorem always_iff_along {I P : σ → Prop} {Q : σ → ℓ → Prop}
    (hI : ∀ s l s', I s → P s → step s l = some s' → I s')
    (hstep : ∀ s l s', I s → P s → step s l = some s' → (P s' ↔ Q s l))
    {s s' : σ} {ls : List ℓ} (h : I s) (hP : P s) (hrun : run step s ls = some s') :
    Always step P s ls ↔ Along step Q s ls := by
  induction ls generalizing s with
  | nil => exact ⟨fun _ => trivial, fun _ => hP⟩
  | cons l ls ih =>
    obtain ⟨s₁, h₁, h₂⟩ := (run_cons_eq_some step).mp hrun
    have hiff : P s₁ ↔ Q s l := hstep s l s₁ h hP h₁
    have hrest (hP₁ : P s₁) := ih (hI s l s₁ h hP h₁) hP₁ h₂
    constructor
    · rintro ⟨-, hall⟩
      have hlater := hall s₁ h₁
      have hP₁ : P s₁ := hlater.head
      refine ⟨hiff.mp hP₁, fun s₂ hs₂ => ?_⟩
      rw [h₁] at hs₂
      cases hs₂
      exact (hrest hP₁).mp hlater
    · rintro ⟨hQ, hall⟩
      have hP₁ : P s₁ := hiff.mpr hQ
      refine ⟨hP, fun s₂ hs₂ => ?_⟩
      rw [h₁] at hs₂
      cases hs₂
      exact (hrest hP₁).mpr (hall s₁ h₁)

/-! ### What has happened in a run -/

/-- The rule of invariants with the history of the run: what holds at the start, and is kept by
each step from a state that the run reaches, holds of every run. -/
theorem run_history {I : List ℓ → σ → Prop} {s₀ : σ} (h₀ : I [] s₀)
    (hstep : ∀ ls s l s', run step s₀ ls = some s → I ls s → step s l = some s' →
      I (ls ++ [l]) s')
    {ls : List ℓ} {s : σ} (hrun : run step s₀ ls = some s) : I ls s := by
  -- the induction is on the labels still to come
  have hfrom (ls : List ℓ) : ∀ (before : List ℓ) (s₁ : σ), run step s₀ before = some s₁ →
      I before s₁ → run step s₁ ls = some s → I (before ++ ls) s := by
    induction ls with
    | nil =>
      intro before s₁ _ h hnil
      cases hnil
      rw [List.append_nil]
      exact h
    | cons l ls ih =>
      intro before s₁ hbefore h hlater
      obtain ⟨s₂, hl, hrest⟩ := (run_cons_eq_some step).mp hlater
      have hnow : run step s₀ (before ++ [l]) = some s₂ :=
        (run_append_eq_some step).mpr ⟨s₁, hbefore, (run_cons_eq_some step).mpr ⟨s₂, hl, rfl⟩⟩
      have hrestI := ih (before ++ [l]) s₂ hnow (hstep before s₁ l s₂ hbefore h hl) hrest
      rwa [List.append_assoc, List.singleton_append] at hrestI
  exact hfrom ls [] s₀ rfl h₀ hrun

variable (step) in
/-- Some step of the run of `ls` from `s` is taken in a state where `Q` holds of its label. -/
def Once (Q : σ → ℓ → Prop) (s : σ) (ls : List ℓ) : Prop :=
  ∃ ls₁ l ls₂ s₁, ls = ls₁ ++ l :: ls₂ ∧ run step s ls₁ = some s₁ ∧ Q s₁ l

/-- What has happened once has happened when more labels follow. -/
theorem Once.append {Q : σ → ℓ → Prop} {s : σ} {ls : List ℓ} (h : Once step Q s ls)
    (ls' : List ℓ) : Once step Q s (ls ++ ls') := by
  obtain ⟨ls₁, l, ls₂, s₁, rfl, hrun, hl⟩ := h
  exact ⟨ls₁, l, ls₂ ++ ls', s₁, by rw [List.append_assoc, List.cons_append], hrun, hl⟩

/-- The last step of a run happens in the state before it. -/
theorem once_concat {Q : σ → ℓ → Prop} {s s₁ : σ} {ls : List ℓ} {l : ℓ}
    (hrun : run step s ls = some s₁) (hl : Q s₁ l) : Once step Q s (ls ++ [l]) :=
  ⟨ls, l, [], s₁, rfl, hrun, hl⟩

variable (step) in
/-- Some step of the run of `ls` from `s` is taken in a state where `Q` holds of its label, and no
label after it meets `R`: what the step began is not over. -/
def Since (Q : σ → ℓ → Prop) (R : ℓ → Prop) (s : σ) (ls : List ℓ) : Prop :=
  ∃ ls₁ l ls₂ s₁, ls = ls₁ ++ l :: ls₂ ∧ run step s ls₁ = some s₁ ∧ Q s₁ l ∧ ∀ l' ∈ ls₂, ¬ R l'

/-- What has begun is not over after a label that does not end it. -/
theorem Since.concat {Q : σ → ℓ → Prop} {R : ℓ → Prop} {s : σ} {ls : List ℓ} {l : ℓ}
    (h : Since step Q R s ls) (hl : ¬ R l) : Since step Q R s (ls ++ [l]) := by
  obtain ⟨ls₁, l₁, ls₂, s₁, rfl, hrun, hQ, hopen⟩ := h
  refine ⟨ls₁, l₁, ls₂ ++ [l], s₁, by rw [List.append_assoc, List.cons_append], hrun, hQ, ?_⟩
  intro l' hl'
  rcases List.mem_append.mp hl' with hl' | hl'
  · exact hopen l' hl'
  · rw [List.mem_singleton.mp hl']
    exact hl

/-- What the last step of a run begins is not over. -/
theorem since_concat {Q : σ → ℓ → Prop} {R : ℓ → Prop} {s s₁ : σ} {ls : List ℓ} {l : ℓ}
    (hrun : run step s ls = some s₁) (hl : Q s₁ l) : Since step Q R s (ls ++ [l]) :=
  ⟨ls, l, [], s₁, rfl, hrun, hl, fun _ hnil => by cases hnil⟩

end

end RedTeaming.Library
