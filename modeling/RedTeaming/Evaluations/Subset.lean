import RedTeaming.Evaluations.EvaluationEffects

/-!
# `RedTeaming.Evaluations.Subset`: assignments stay in the subset, but for the restores

An assignment passes the subset gate, and a sync of the subset refuses to drop a model in use. A
tombstone is not in use. So the subset may lose a model while the assignment that names it, or its
evaluation, is deleted. `restoreEvaluation` and `restoreAssignment` then bring the assignment back
without the gate (`RestoresDisallowed`).

`subset_step_iff` says that this is the only way out, `subset_respected` is the theorem about
runs, and `restored_outside_subset` the run that breaks the unconditional statement.
-/

set_option autoImplicit false

namespace RedTeaming.Evaluations

open RedTeaming.Auth
open RedTeaming.Library

/-- Every live assignment of a live evaluation names a model in the subset of its group. -/
def SubsetRespected (db : Database) : Prop :=
  ∀ a ∈ db.assignments, live a = true → ∀ e ∈ db.evaluations, live e = true →
    key e = a.evaluationId → db.Allowed e.evaluationGroupId a.modelId

/-- A live assignment references an evaluation. -/
def Referenced (db : Database) : Prop :=
  ∀ a ∈ db.assignments, live a = true → ∃ e ∈ db.evaluations, key e = a.evaluationId

/-- The request restores an evaluation with a live assignment outside the subset of its group, or
restores an assignment outside the subset. -/
def RestoresDisallowed (db : Database) (l : Label) : Prop :=
  match l.request with
  | .restoreEvaluation evaluationId =>
    ∃ e ∈ db.evaluations, key e = evaluationId ∧
      ∃ a ∈ db.assignments, live a = true ∧ a.evaluationId = evaluationId ∧
        ¬ db.Allowed e.evaluationGroupId a.modelId
  | .restoreAssignment evaluationId assignmentId =>
    ∃ e ∈ db.evaluations, key e = evaluationId ∧
      ∃ a ∈ db.assignments, key a = assignmentId ∧ ¬ db.Allowed e.evaluationGroupId a.modelId
  | _ => False

section
variable {db db' : Database} {settings : Settings} {ctx : Context} {r : Request}

/-- The subset of a group holds every model that its evaluations use. -/
theorem subsetRespected_iff : SubsetRespected db ↔
    ∀ g m, db.modelUsedByGroupEvaluations g m = true → db.Allowed g m := by
  constructor
  · intro h g m hused
    obtain ⟨e, he, helive, rfl, a, ha, halive, hevaluation, rfl⟩ :=
      Database.modelUsedByGroupEvaluations_iff.mp hused
    exact h a ha halive e he helive hevaluation.symm
  · intro h a ha halive e he helive hkey
    apply h
    rw [Database.modelUsedByGroupEvaluations_iff]
    exact ⟨e, he, helive, rfl, a, ha, halive, hkey.symm, rfl⟩

/-! ### Requests that are no restore -/

/-- A request that is no restore keeps the assignments in the subsets. -/
theorem EvaluationEffect.subsetRespected (h : EvaluationEffect db db' r ctx)
    (href : Referenced db) (hdb : SubsetRespected db) : SubsetRespected db' := by
  cases h with
  | shrunk h =>
    rw [subsetRespected_iff] at hdb ⊢
    intro g m hused
    exact h.allowed g m (hdb g m (h.used hused)) hused
  | inserted new hinsert haccepts hgroups hallowed hassignments =>
    intro a ha halive e he helive hkey
    rcases hassignments a ha halive with hold | ⟨hevaluation, hused⟩
    · obtain ⟨e₀, he₀, hkey₀⟩ := href a hold halive
      have hsame : e = e₀ := mem_of_key_eq_flush hinsert he₀ he (hkey.trans hkey₀.symm)
      subst hsame
      exact (hdb a hold halive e he₀ helive hkey).of_eq hallowed
    · have hnew : new ∈ db'.evaluations := (mem_of_flush_singleton hinsert).mpr (Or.inr rfl)
      have hsame : e = new := Table.eq_of_key_eq he hnew (hkey.trans hevaluation)
      subst hsame
      exact (subsetRespected_iff.mp hdb _ _ hused).of_eq hallowed
  | copiedGroup groupId sourceId includeChildren new hinsert hnew hkept hallowed hassignments =>
    intro a ha halive e he helive hkey
    rcases hassignments a ha halive with hold | ⟨⟨copy, hcopy, hevaluation⟩, hused, hmodel⟩
    · obtain ⟨e₀, he₀, hkey₀⟩ := href a hold halive
      have hsame : e = e₀ := mem_of_key_eq_flush hinsert he₀ he (hkey.trans hkey₀.symm)
      subst hsame
      exact hkept _ _ (hdb a hold halive e he₀ helive hkey)
    · have hmem : copy ∈ db'.evaluations := (mem_flush hinsert).mpr (Or.inr hcopy)
      have hsame : e = copy := Table.eq_of_key_eq he hmem (hkey.trans hevaluation)
      subst hsame
      rw [hnew e hcopy]
      exact hallowed _ (subsetRespected_iff.mp hdb _ _ hused) hmodel
  | assigned hevaluations hallowed hassignments =>
    intro a ha halive e he helive hkey
    rw [hevaluations] at he
    rcases hassignments a ha halive with hold | ⟨e₀, he₀, hkey₀, hgate⟩
    · exact (hdb a hold halive e he helive hkey).of_eq hallowed
    · have hsame : e = e₀ := Table.eq_of_key_eq he he₀ (hkey.trans hkey₀.symm)
      subst hsame
      exact hgate.of_eq hallowed

/-- A request that is no restore keeps the references. -/
theorem EvaluationEffect.referenced (h : EvaluationEffect db db' r ctx) (href : Referenced db) :
    Referenced db' := by
  intro a ha halive
  cases h with
  | shrunk h =>
    obtain ⟨e, he, hkey⟩ := href a (h.assignments a ha halive) halive
    obtain ⟨e', he', hkey'⟩ := h.keys e he
    exact ⟨e', he', hkey'.trans hkey⟩
  | inserted new hinsert haccepts hgroups hallowed hassignments =>
    rcases hassignments a ha halive with hold | ⟨hevaluation, -⟩
    · obtain ⟨e, he, hkey⟩ := href a hold halive
      exact ⟨e, (mem_flush hinsert).mpr (Or.inl he), hkey⟩
    · exact ⟨new, (mem_of_flush_singleton hinsert).mpr (Or.inr rfl), hevaluation.symm⟩
  | copiedGroup groupId sourceId includeChildren new hinsert hnew hkept hallowed hassignments =>
    rcases hassignments a ha halive with hold | ⟨⟨copy, hcopy, hevaluation⟩, -⟩
    · obtain ⟨e, he, hkey⟩ := href a hold halive
      exact ⟨e, (mem_flush hinsert).mpr (Or.inl he), hkey⟩
    · exact ⟨copy, (mem_flush hinsert).mpr (Or.inr hcopy), hevaluation.symm⟩
  | assigned hevaluations hallowed hassignments =>
    rw [hevaluations]
    rcases hassignments a ha halive with hold | ⟨e, he, hkey, -⟩
    · exact href a hold halive
    · exact ⟨e, he, hkey⟩

/-! ### The restores -/

/-- A restored evaluation keeps the assignments in the subsets exactly when its live assignments
are in the subset. -/
theorem subsetRespected_restoreEvaluation_iff {e : Evaluation} (hdb : SubsetRespected db)
    (he : e ∈ db.evaluations) :
    SubsetRespected { db with evaluations := restoreRow db.evaluations (key e) } ↔
      ∀ a ∈ db.assignments, live a = true → a.evaluationId = key e →
        db.Allowed e.evaluationGroupId a.modelId := by
  constructor
  · intro h a ha halive hevaluation
    have hkey : key (restore e) = a.evaluationId := by rw [key_restore, hevaluation]
    exact h a ha halive (restore e) (restore_mem_restoreRow he) (live_restore e) hkey
  · intro h a ha halive e' he' helive hkey
    rcases live_of_mem_restoreRow he' helive with ⟨hold, -⟩ | ⟨e₀, he₀, hid, rfl⟩
    · exact hdb a ha halive e' hold helive hkey
    · have hsame : e₀ = e := Table.eq_of_key_eq he₀ he hid
      subst hsame
      rw [key_restore] at hkey
      exact h a ha halive hkey.symm

/-- A restored assignment of a live evaluation keeps the assignments in the subsets exactly when
its model is in the subset. -/
theorem subsetRespected_restoreAssignment_iff {e : Evaluation} {a : EvaluationAiModel}
    (hdb : SubsetRespected db) (he : e ∈ db.evaluations) (helive : live e = true)
    (ha : a ∈ db.assignments) (hevaluation : a.evaluationId = key e) :
    SubsetRespected { db with assignments := restoreRow db.assignments (key a) } ↔
      db.Allowed e.evaluationGroupId a.modelId := by
  constructor
  · intro h
    exact h (restore a) (restore_mem_restoreRow ha) (live_restore a) e he helive hevaluation.symm
  · intro h a' ha' halive e' he' helive' hkey
    rcases live_of_mem_restoreRow ha' halive with ⟨hold, -⟩ | ⟨a₀, ha₀, hid, rfl⟩
    · exact hdb a' hold halive e' he' helive' hkey
    · have hsame : a₀ = a := Table.eq_of_key_eq ha₀ ha hid
      subst hsame
      have hsame' : e' = e := Table.eq_of_key_eq he' he (hkey.trans hevaluation)
      subst hsame'
      exact h

/-- A request keeps the assignments in the subsets exactly when it restores none outside. -/
theorem subset_step_iff {l : Label} (href : Referenced db) (hdb : SubsetRespected db)
    (h : step settings db l = some db') : SubsetRespected db' ↔ ¬ RestoresDisallowed db l := by
  have hhandle := handle_of_step h
  unfold RestoresDisallowed
  split
  · rename_i evaluationId hrequest
    rw [hrequest] at hhandle
    obtain ⟨e, he, rfl, -, -, rfl⟩ := restoreEvaluation_spec hhandle
    rw [subsetRespected_restoreEvaluation_iff hdb he]
    constructor
    · rintro hall ⟨e', he', hkey, a, ha, halive, hevaluation, hnot⟩
      rw [Table.eq_of_key_eq he' he hkey] at hnot
      exact hnot (hall a ha halive hevaluation)
    · intro hnone a ha halive hevaluation
      by_contra hnot
      exact hnone ⟨e, he, rfl, a, ha, halive, hevaluation, hnot⟩
  · rename_i evaluationId assignmentId hrequest
    rw [hrequest] at hhandle
    obtain ⟨e, he, rfl, helive, a, ha, rfl, hevaluation, rfl⟩ := restoreAssignment_spec hhandle
    rw [subsetRespected_restoreAssignment_iff hdb he helive ha hevaluation]
    constructor
    · rintro hallowed ⟨e', he', hkey, a', ha', hkey', hnot⟩
      rw [Table.eq_of_key_eq he' he hkey, Table.eq_of_key_eq ha' ha hkey'] at hnot
      exact hnot hallowed
    · intro hnone
      by_contra hnot
      exact hnone ⟨e, he, rfl, a, ha, rfl, hnot⟩
  · rename_i hevaluation hassignment
    have hne : l.request.isRestore = false := by
      cases hrequest : l.request with
      | restoreEvaluation evaluationId => exact absurd hrequest (hevaluation evaluationId)
      | restoreAssignment evaluationId assignmentId =>
        exact absurd hrequest (hassignment evaluationId assignmentId)
      | _ => rfl
    have heffect := evaluationEffect_of_handle hne hhandle
    exact ⟨fun _ hfalse => hfalse, fun _ => heffect.subsetRespected href hdb⟩

/-- A live assignment references an evaluation, whatever the request. -/
theorem referenced_step {l : Label} (href : Referenced db)
    (h : step settings db l = some db') : Referenced db' := by
  have hhandle := handle_of_step h
  cases hrestore : l.request.isRestore with
  | false => exact (evaluationEffect_of_handle hrestore hhandle).referenced href
  | true =>
    cases hrequest : l.request with
    | restoreEvaluation evaluationId =>
      rw [hrequest] at hhandle
      obtain ⟨e, he, rfl, -, -, rfl⟩ := restoreEvaluation_spec hhandle
      intro a ha halive
      obtain ⟨e₀, he₀, hkey⟩ := href a ha halive
      by_cases hsame : key e₀ = key e
      · refine ⟨restore e, restore_mem_restoreRow he, ?_⟩
        rw [key_restore, ← hsame, hkey]
      · exact ⟨e₀, mem_restoreRow.mpr (Or.inr ⟨he₀, hsame⟩), hkey⟩
    | restoreAssignment evaluationId assignmentId =>
      rw [hrequest] at hhandle
      obtain ⟨e, he, rfl, -, a, ha, rfl, hevaluation, rfl⟩ := restoreAssignment_spec hhandle
      intro a' ha' halive
      rcases live_of_mem_restoreRow ha' halive with ⟨hold, -⟩ | ⟨a₀, ha₀, hid, rfl⟩
      · exact href a' hold halive
      · rw [Table.eq_of_key_eq ha₀ ha hid]
        exact ⟨e, he, hevaluation.symm⟩
    | _ =>
      rw [hrequest] at hrestore
      cases hrestore

end

/-! ### Runs -/

/-- In a run from a deployment without groups, every live assignment of a live evaluation is in
the subset of its group in every state exactly when no restore brings one back from outside. -/
theorem subset_respected (settings : Settings) (db db' : Database) (ls : List Label)
    (hfresh : NoGroups db) (hrun : run (step settings) db ls = some db') :
    Always (step settings) SubsetRespected db ls ↔
      Along (step settings) (fun db l => ¬ RestoresDisallowed db l) db ls := by
  have hnone (a : EvaluationAiModel) (ha : a ∈ db.assignments) : False := by
    rw [← Table.mem_rows, hfresh.assignments] at ha
    cases ha
  exact always_iff_along (fun _ _ _ h _ => referenced_step h) (fun _ _ _ => subset_step_iff)
    (fun a ha => (hnone a ha).elim) (fun a ha => (hnone a ha).elim) hrun

/-- A model is assigned to the evaluation of a new group. No label is a restore. -/
theorem subset_respected_assignment :
    Always (step thirtyDays) SubsetRespected deployed
      (opening ++ [.byRoot 32 (.assignModel 31 { modelId := 20 })]) := by
  have hany : (run (step thirtyDays) deployed
      (opening ++ [.byRoot 32 (.assignModel 31 { modelId := 20 })])).any
        (fun _ => true) = true := by
    decide +kernel
  obtain ⟨db', hrun, -⟩ := exists_run_of_any hany
  refine (subset_respected thirtyDays deployed db' _ noGroups_deployed hrun).mpr ?_
  refine along_of_forall fun l hl db hrestores => ?_
  simp only [opening, List.cons_append, List.nil_append, List.mem_cons, List.not_mem_nil,
    or_false] at hl
  rcases hl with rfl | rfl | rfl | rfl <;> exact hrestores

/-- An assignment is dropped, then its model leaves the subset, and the assignment is restored. -/
theorem restored_outside_subset :
    ¬ ∀ settings db db' ls, NoGroups db → run (step settings) db ls = some db' →
      Always (step settings) SubsetRespected db ls := by
  intro h
  have hany : (run (step thirtyDays) deployed (opening ++
      [.byRoot 32 (.assignModel 31 { modelId := 20 }), .byRoot 33 (.unassignModel 31 32),
        .byRoot 33 (.updateGroup 30 { allowedModelIds := some ⟨[21], by decide⟩ }),
        .byRoot 34 (.restoreAssignment 31 32)])).any (fun db =>
      db.modelUsedByGroupEvaluations 30 20 &&
        !(db.subsetRows 30).any fun row => row.modelId == 20) = true := by decide +kernel
  obtain ⟨db', hrun, houtside⟩ := exists_run_of_any hany
  rw [Bool.and_eq_true, Bool.not_eq_true'] at houtside
  obtain ⟨hused, hnone⟩ := houtside
  have hrespected : SubsetRespected db' :=
    (h thirtyDays deployed db' _ noGroups_deployed hrun).last hrun
  obtain ⟨row, hrow, hlive, hgroup, hmodel⟩ := subsetRespected_iff.mp hrespected 30 20 hused
  have hmem : row ∈ db'.subsetRows 30 := Database.mem_subsetRows.mpr ⟨hrow, hlive, hgroup⟩
  have hdiff := List.any_eq_false.mp hnone row hmem
  rw [hmodel] at hdiff
  exact hdiff rfl

end RedTeaming.Evaluations
