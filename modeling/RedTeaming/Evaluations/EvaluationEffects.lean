import RedTeaming.Evaluations.EvaluationSpecs
import RedTeaming.Evaluations.System

/-!
# `RedTeaming.Evaluations.EvaluationEffects`: what a request does to evaluations and assignments

A request that is no restore does one of four things. It makes neither a live evaluation nor a
live assignment (`Shrunk`). Or it inserts one evaluation, into a group that accepts evaluations.
Or it copies a group into a fresh one. Or it inserts one assignment, of a model in the subset of
the group. `evaluationEffect_of_handle` proves the list complete.

The two restores are outside the list. `restoreEvaluation` and `restoreAssignment` clear a
tombstone and ask neither for the status of the group nor for its subset. What follows from that
is in `RedTeaming.Evaluations.Subset` and `RedTeaming.Evaluations.Growth`.
-/

set_option autoImplicit false

namespace RedTeaming.Evaluations

open RedTeaming.Auth
open RedTeaming.Library

/-- The request makes no live evaluation and no live assignment. It keeps every evaluation row,
and a subset row whose model stays in use. -/
structure Shrunk (db db' : Database) : Prop where
  evaluations : ∀ e ∈ db'.evaluations, live e = true → e ∈ db.evaluations
  assignments : ∀ a ∈ db'.assignments, live a = true → a ∈ db.assignments
  keys : ∀ e ∈ db.evaluations, ∃ e' ∈ db'.evaluations, key e' = key e
  allowed : ∀ g m, db.Allowed g m → db'.modelUsedByGroupEvaluations g m = true → db'.Allowed g m

/-- What a request that is no restore does to the evaluations and the assignments. -/
inductive EvaluationEffect (db : Database) : Database → Request → Context → Prop
  | shrunk {db' : Database} {r : Request} {ctx : Context} (h : Shrunk db db') :
      EvaluationEffect db db' r ctx
  | inserted {db' : Database} {r : Request} {ctx : Context} (e : Evaluation)
      (hinsert : flush db.evaluations [e] = .ok db'.evaluations)
      (haccepts : ∃ g ∈ db.groups, key g = e.evaluationGroupId ∧
        g.status ∈ groupStatusesAcceptingEvaluations)
      (hgroups : db'.groups = db.groups) (hallowed : db'.allowedModels = db.allowedModels)
      (hassignments : ∀ a ∈ db'.assignments, live a = true → a ∈ db.assignments ∨
        a.evaluationId = key e ∧
          db.modelUsedByGroupEvaluations e.evaluationGroupId a.modelId = true) :
      EvaluationEffect db db' r ctx
  | copiedGroup {db' : Database} {ctx : Context} (groupId sourceId : UUID)
      (includeChildren : Bool) (new : List Evaluation)
      (hinsert : flush db.evaluations new = .ok db'.evaluations)
      (hnew : ∀ e ∈ new, e.evaluationGroupId = ctx.fresh.row)
      (hkept : ∀ g m, db.Allowed g m → db'.Allowed g m)
      (hallowed : ∀ m, db.Allowed sourceId m → modelNotDeleted db m = true →
        db'.Allowed ctx.fresh.row m)
      (hassignments : ∀ a ∈ db'.assignments, live a = true → a ∈ db.assignments ∨
        (∃ e ∈ new, a.evaluationId = key e) ∧
          db.modelUsedByGroupEvaluations sourceId a.modelId = true ∧
          modelNotDeleted db a.modelId = true) :
      EvaluationEffect db db' (.duplicateGroup groupId includeChildren) ctx
  | assigned {db' : Database} {r : Request} {ctx : Context}
      (hevaluations : db'.evaluations = db.evaluations)
      (hallowed : db'.allowedModels = db.allowedModels)
      (hassignments : ∀ a ∈ db'.assignments, live a = true → a ∈ db.assignments ∨
        ∃ e ∈ db.evaluations, key e = a.evaluationId ∧ db.Allowed e.evaluationGroupId a.modelId) :
      EvaluationEffect db db' r ctx

/-- A restore of an evaluation or of an assignment. -/
def Request.isRestore : Request → Bool
  | .restoreEvaluation _ | .restoreAssignment .. => true
  | _ => false

section
variable {db db₁ db' : Database} {settings : Settings} {ctx : Context}

/-! ### Requests that make nothing live -/

theorem Database.Allowed.of_eq {g m : UUID} (h : db.Allowed g m)
    (hallowed : db'.allowedModels = db.allowedModels) : db'.Allowed g m := by
  unfold Database.Allowed
  rw [hallowed]
  exact h

/-- A request that touches none of the three tables. -/
theorem Shrunk.frame (hevaluations : db'.evaluations = db.evaluations)
    (hassignments : db'.assignments = db.assignments)
    (hallowed : db'.allowedModels = db.allowedModels) : Shrunk db db' where
  evaluations e he _ := by rwa [hevaluations] at he
  assignments a ha _ := by rwa [hassignments] at ha
  keys e he := ⟨e, by rwa [hevaluations], rfl⟩
  allowed g m h _ := h.of_eq hallowed

/-- A model in use after the request was in use before it. -/
theorem Shrunk.used (h : Shrunk db db') {g m : UUID}
    (hused : db'.modelUsedByGroupEvaluations g m = true) :
    db.modelUsedByGroupEvaluations g m = true := by
  rw [Database.modelUsedByGroupEvaluations_iff] at hused ⊢
  obtain ⟨e, he, helive, hgroup, a, ha, halive, hevaluation, hmodel⟩ := hused
  exact ⟨e, h.evaluations e he helive, helive, hgroup, a, h.assignments a ha halive, halive,
    hevaluation, hmodel⟩

/-- Two such writes in a row. -/
theorem Shrunk.trans (h₁ : Shrunk db db₁) (h₂ : Shrunk db₁ db') : Shrunk db db' where
  evaluations e he hlive := h₁.evaluations e (h₂.evaluations e he hlive) hlive
  assignments a ha hlive := h₁.assignments a (h₂.assignments a ha hlive) hlive
  keys e he := by
    obtain ⟨e₁, he₁, hkey₁⟩ := h₁.keys e he
    obtain ⟨e₂, he₂, hkey₂⟩ := h₂.keys e₁ he₁
    exact ⟨e₂, he₂, hkey₂.trans hkey₁⟩
  allowed g m h hused := h₂.allowed g m (h₁.allowed g m h (h₂.used hused)) hused

/-- The sync refuses to drop a model in use. -/
theorem shrunk_of_syncGroupModels {groupId : UUID} {modelIds : List UUID}
    (h : syncGroupModels db ctx groupId modelIds = .ok db') : Shrunk db db' := by
  obtain ⟨hdb, hothers, htarget, hused⟩ := syncGroupModels_spec h
  have hevaluations : db'.evaluations = db.evaluations := by rw [hdb]
  have hassignments : db'.assignments = db.assignments := by rw [hdb]
  refine
    { evaluations := fun e he _ => by rwa [hevaluations] at he
      assignments := fun a ha _ => by rwa [hassignments] at ha
      keys := fun e he => ⟨e, by rwa [hevaluations], rfl⟩
      allowed := fun g m hallowed huse => ?_ }
  by_cases hg : g = groupId
  · subst hg
    have hbefore : db.modelUsedByGroupEvaluations g m = true := by
      rw [Database.modelUsedByGroupEvaluations_iff] at huse ⊢
      rwa [hevaluations, hassignments] at huse
    exact htarget m (hused m hallowed hbefore)
  · exact hothers g m hallowed hg

/-- A new group has no evaluation yet, and gets its subset. -/
theorem Inserted.shrunk {row : EvaluationGroup} {modelIds : List UUID}
    (h : Inserted db ctx row modelIds db') : Shrunk db db' := by
  obtain ⟨groups, roleAssignments, -, hsync⟩ := h
  have hinsert : Shrunk db { db with groups, roleAssignments } := .frame rfl rfl rfl
  exact hinsert.trans (shrunk_of_syncGroupModels hsync)

/-- A transition writes a status. -/
theorem Moved.shrunk (h : Moved db db') : Shrunk db db' := by
  obtain ⟨group, target, reason, -, -, -, rfl⟩ := h
  exact .frame rfl rfl rfl

/-- A patch writes one group and its subset. -/
theorem shrunk_of_updateEvaluationGroup {groupId : UUID} {changes : EvaluationGroupUpdate}
    (h : updateEvaluationGroup db settings ctx groupId changes = .ok db') : Shrunk db db' := by
  obtain ⟨group, db₁, -, hsync, -, -, rfl⟩ := updateEvaluationGroup_spec h
  have hfirst : Shrunk db db₁ := by
    cases hids : changes.allowedModelIds with
    | none =>
      rw [hids] at hsync
      cases hsync
      exact .frame rfl rfl rfl
    | some modelIds =>
      rw [hids] at hsync
      exact shrunk_of_syncGroupModels hsync
  exact hfirst.trans (.frame rfl rfl rfl)

/-- A delete of an evaluation takes its assignments out of use. -/
theorem shrunk_of_deleteEvaluation {evaluationId : UUID}
    (h : deleteEvaluation db ctx evaluationId = .ok db') : Shrunk db db' := by
  rw [deleteEvaluation_spec h]
  refine
    { evaluations := fun e he hlive => ((mem_softDeleteRow hlive).mp he).1
      assignments := fun a ha _ => ha
      keys := fun e he => exists_softDeleteRow he
      allowed := fun g m hallowed _ => hallowed }

/-- An unassign takes one assignment out of use. -/
theorem shrunk_of_unassignModel {evaluationId assignmentId : UUID}
    (h : unassignModel db ctx evaluationId assignmentId = .ok db') : Shrunk db db' := by
  rw [unassignModel_spec h]
  refine
    { evaluations := fun e he _ => he
      assignments := fun a ha hlive => ((mem_softDeleteRow hlive).mp ha).1
      keys := fun e he => ⟨e, he, rfl⟩
      allowed := fun g m hallowed _ => hallowed }

/-- A model delete drops the model from the subsets, and no live assignment names it then. -/
theorem shrunk_of_deleteModel {modelId : UUID} (h : deleteModel db ctx modelId = .ok db') :
    Shrunk db db' := by
  obtain ⟨deleted, models, rfl⟩ := deleteModel_spec h
  refine
    { evaluations := fun e he _ => he
      assignments := fun a ha hlive => ((mem_softDeleteWhere hlive).mp ha).1
      keys := fun e he => ⟨e, he, rfl⟩
      allowed := ?_ }
  rintro g m ⟨row, hrow, hlive, hgroup, rfl⟩ hused
  rw [Database.modelUsedByGroupEvaluations_iff] at hused
  obtain ⟨-, -, -, -, a, ha, halive, -, hmodel⟩ := hused
  have hother : row.modelId ≠ deleted := by
    have hspared := ((mem_softDeleteWhere halive).mp ha).2
    rw [← hmodel]
    simpa using hspared
  exact ⟨row, (mem_softDeleteWhere hlive).mpr ⟨hrow, by simpa using hother⟩, hlive, hgroup, rfl⟩

/-! ### Requests that insert -/

/-- A copied assignment names a model that the group of its source uses. -/
theorem CopiedAssignment.used {id sourceId : UUID} {source : Evaluation} {a : EvaluationAiModel}
    (h : CopiedAssignment db id sourceId a) (hsource : source ∈ db.evaluations)
    (hkey : key source = sourceId) (hlive : live source = true) :
    db.modelUsedByGroupEvaluations source.evaluationGroupId a.modelId = true := by
  obtain ⟨-, a₀, ha₀, ha₀live, hevaluation, hmodel, -⟩ := h
  rw [Database.modelUsedByGroupEvaluations_iff]
  exact ⟨source, hsource, hlive, rfl, a₀, ha₀, ha₀live, hevaluation.trans hkey.symm, hmodel⟩

/-- A copy of an evaluation goes to the group of its source. -/
theorem effect_of_duplicateEvaluation {evaluationId : UUID} {includeChildren : Bool} {r : Request}
    (h : duplicateEvaluation db ctx evaluationId includeChildren = .ok db') :
    EvaluationEffect db db' r ctx := by
  obtain ⟨source, hsource, hkey, hlive, haccepts, hinsert, hassignments, hsame⟩ :=
    duplicateEvaluation_spec h
  refine .inserted _ hinsert haccepts hsame.groups hsame.allowedModels fun a ha halive => ?_
  rcases hassignments with hold | ⟨new, hflush, hcopies⟩
  · rw [hold] at ha
    exact Or.inl ha
  · rcases (mem_flush hflush).mp ha with hold | hnew
    · exact Or.inl hold
    · have hused := (hcopies a hnew).used hsource hkey hlive
      exact Or.inr ⟨(hcopies a hnew).1, hused⟩

/-- A copy of a group has its own evaluations, and the subset of its source. -/
theorem effect_of_duplicateEvaluationGroup {groupId : UUID} {includeChildren : Bool}
    (h : duplicateEvaluationGroup db ctx groupId includeChildren = .ok db') :
    EvaluationEffect db db' (.duplicateGroup groupId includeChildren) ctx := by
  obtain ⟨source, -, -, -, hsubset, hchildren⟩ := duplicateEvaluationGroup_spec h
  have hkept (g m : UUID) (hallowed : db.Allowed g m) : db'.Allowed g m := by
    obtain ⟨row, hrow, hrest⟩ := hallowed
    exact ⟨row, (mem_flush hsubset).mpr (Or.inl hrow), hrest⟩
  have hallowed (m : UUID) (hsource : db.Allowed source.id m)
      (hmodel : modelNotDeleted db m = true) : db'.Allowed ctx.fresh.row m := by
    obtain ⟨row, hrow, hlive, hgroup, rfl⟩ := hsource
    have hcopied : row ∈ (db.subsetRows source.id).filter fun row =>
        modelNotDeleted db row.modelId :=
      List.mem_filter.mpr ⟨Database.mem_subsetRows.mpr ⟨hrow, hlive, hgroup⟩, hmodel⟩
    exact ⟨_, (mem_flush hsubset).mpr (Or.inr (List.mem_map_of_mem hcopied)), rfl, rfl, rfl⟩
  rcases hchildren with ⟨hevaluations, hassignments⟩ | ⟨hevaluations, hassignments⟩
  · refine .shrunk
      { evaluations := fun e he _ => by rwa [hevaluations] at he
        assignments := fun a ha _ => by rwa [hassignments] at ha
        keys := fun e he => ⟨e, by rwa [hevaluations], rfl⟩
        allowed := fun g m hold _ => hkept g m hold }
  · refine .copiedGroup groupId source.id includeChildren _ hevaluations ?_ hkept hallowed ?_
    · intro e he
      obtain ⟨e₀, -, rfl⟩ := List.mem_map.mp he
      rfl
    · intro a ha halive
      rcases (mem_flush hassignments).mp ha with hold | hnew
      · exact Or.inl hold
      · -- A copied assignment belongs to the copy of the evaluation of its source.
        obtain ⟨e₀, he₀, hcopy⟩ := List.mem_flatMap.mp hnew
        obtain ⟨hmem, hlive, hgroup⟩ := Database.mem_liveEvaluations.mp he₀
        have hcopied := copiedAssignment_of_mem hcopy
        have hused := hcopied.used hmem rfl hlive
        rw [hgroup] at hused
        refine Or.inr ⟨⟨_, List.mem_map_of_mem he₀, hcopied.1⟩, hused, ?_⟩
        obtain ⟨-, -, -, -, -, -, hmodel⟩ := hcopied
        exact hmodel

/-- What a request that is no restore does. -/
theorem evaluationEffect_of_handle {r : Request} (hne : r.isRestore = false)
    (h : r.handle settings ctx db = .ok db') : EvaluationEffect db db' r ctx := by
  cases r with
  | createGroup form =>
    obtain ⟨row, -, -, hinserted⟩ := createEvaluationGroup_spec h
    exact .shrunk hinserted.shrunk
  | createDraft form =>
    obtain ⟨row, -, -, hinserted⟩ := createEvaluationGroupDraft_spec h
    exact .shrunk hinserted.shrunk
  | duplicateGroup groupId includeChildren => exact effect_of_duplicateEvaluationGroup h
  | updateGroup groupId changes => exact .shrunk (shrunk_of_updateEvaluationGroup h)
  | submit groupId =>
    obtain ⟨x, hx, rfl⟩ := map_eq_ok.mp h
    exact .shrunk (submitEvaluationGroup_spec hx).shrunk
  | approve groupId =>
    obtain ⟨x, hx, rfl⟩ := map_eq_ok.mp h
    exact .shrunk (approveEvaluationGroup_spec hx).shrunk
  | requestChanges groupId =>
    obtain ⟨x, hx, rfl⟩ := map_eq_ok.mp h
    exact .shrunk (requestChangesForEvaluationGroup_spec hx).shrunk
  | reject groupId reason =>
    obtain ⟨x, hx, rfl⟩ := map_eq_ok.mp h
    exact .shrunk (rejectEvaluationGroup_spec hx).shrunk
  | publish groupId =>
    obtain ⟨x, hx, rfl⟩ := map_eq_ok.mp h
    exact .shrunk (publishEvaluationGroup_spec hx).shrunk
  | finish groupId =>
    obtain ⟨x, hx, rfl⟩ := map_eq_ok.mp h
    exact .shrunk (finishEvaluationGroup_spec hx).shrunk
  | createEvaluation form =>
    obtain ⟨g, hg, hkey, haccepts, evaluations, hflush, rfl⟩ := createEvaluation_spec h
    exact .inserted _ hflush ⟨g, hg, hkey, haccepts⟩ rfl rfl fun a ha _ => Or.inl ha
  | duplicateEvaluation evaluationId includeChildren => exact effect_of_duplicateEvaluation h
  | deleteEvaluation evaluationId => exact .shrunk (shrunk_of_deleteEvaluation h)
  | restoreEvaluation evaluationId => cases hne
  | assignModel evaluationId form =>
    obtain ⟨e, he, hkey, hallowed, a, hevaluation, hmodel, assignments, hinsert, rfl⟩ :=
      assignModelEndpoint_spec h
    refine .assigned rfl rfl fun a' ha' _ => ?_
    rcases (Table.mem_insertAll hinsert).mp ha' with hold | hnew
    · exact Or.inl hold
    · rw [List.mem_singleton] at hnew
      subst hnew
      exact Or.inr ⟨e, he, hkey.trans hevaluation.symm, hmodel ▸ hallowed⟩
  | unassignModel evaluationId assignmentId => exact .shrunk (shrunk_of_unassignModel h)
  | restoreAssignment evaluationId assignmentId => cases hne
  | createScenario evaluationId form =>
    obtain ⟨scenarios, rfl⟩ := createScenario_spec h
    exact .shrunk (.frame rfl rfl rfl)
  | deleteScenario evaluationId scenarioId =>
    obtain ⟨scenarios, rfl⟩ := deleteScenario_spec h
    exact .shrunk (.frame rfl rfl rfl)
  | restoreScenario evaluationId scenarioId =>
    obtain ⟨scenarios, rfl⟩ := restoreScenario_spec h
    exact .shrunk (.frame rfl rfl rfl)
  | deleteModel modelId => exact .shrunk (shrunk_of_deleteModel h)
  | restoreModel modelId =>
    obtain ⟨models, rfl⟩ := restoreModel_spec h
    exact .shrunk (.frame rfl rfl rfl)
  | createOrganization name description =>
    obtain ⟨row, organizations, -, rfl⟩ := createOrganization_spec h
    exact .shrunk (.frame rfl rfl rfl)
  | updateOrganization organizationId changes =>
    obtain ⟨id, rfl⟩ := updateOrganization_spec h
    exact .shrunk (.frame rfl rfl rfl)
  | deleteOrganization organizationId =>
    obtain ⟨id, -, rfl⟩ := softDeleteOrganization_spec h
    exact .shrunk (.frame rfl rfl rfl)
  | restoreOrganization organizationId =>
    obtain ⟨id, rfl⟩ := restoreOrganization_spec h
    exact .shrunk (.frame rfl rfl rfl)
  | assignMember organizationId userId =>
    obtain ⟨userOrganization, rfl⟩ := assignMember_spec h
    exact .shrunk (.frame rfl rfl rfl)
  | removeMember organizationId userId =>
    obtain ⟨userOrganization, rfl⟩ := removeOrganizationMember_spec h
    exact .shrunk (.frame rfl rfl rfl)
  | identity auth roleAssignments userOrganization =>
    cases h
    exact .shrunk (.frame rfl rfl rfl)

end

end RedTeaming.Evaluations
