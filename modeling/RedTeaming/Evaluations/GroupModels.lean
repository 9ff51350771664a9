import RedTeaming.Evaluations.Access

/-!
# `RedTeaming.Evaluations.GroupModels`: the allowed-model subset of a group

`core/evaluations/services/group_models.py`. The live rows of `evaluation_group_ai_models` of a
group are the models that its evaluations may be assigned. `syncGroupModels` writes the subset as
a whole. It refuses to drop a model that a live assignment of a live evaluation of the group uses.
`assertModelAssignableToGroup` gates an assignment on the subset. An empty subset allows nothing.

`Context` is what every service of this domain takes from its request: the caller, the clock, and
the ids that it draws.
-/

set_option autoImplicit false

namespace RedTeaming.Evaluations

open RedTeaming.Auth
open RedTeaming.Library

/-- The settings that the services read. `noLicenseId` is the id of the curated licence `NONE`. -/
structure Settings where
  restoreWindowDays : Nat
  noLicenseId : UUID

/-- The ids that a request draws. `row` is the id of the row that it makes. A subset row gets the
id drawn for its model, and a copied row the id drawn for the row that it copies. -/
structure Fresh where
  row : UUID
  allowedModel : UUID → UUID
  evaluation : UUID → UUID
  assignment : UUID → UUID
  tagKey : UUID → UUID
  scenario : UUID → UUID
  task : UUID → UUID

/-- The caller of a request, the clock, and the drawn ids. -/
structure Context where
  caller : SessionUser
  now : Time
  fresh : Fresh

namespace Context
variable (ctx : Context)

/-- The caller's id. -/
def callerId : UserId := ctx.caller.id

/-- The caller carries the break-glass permission. -/
def canManage : Bool := callerCanManageGroups ctx.caller

/-- Seconds in a day. -/
def day : Nat := 24 * 3600

/-- `datetime.now(UTC).date()`. -/
def today : Date := ctx.now / day

/-- `restore_cutoff`: the oldest `deleted_at` that can still be restored. -/
def restoreCutoff (settings : Settings) : Time := ctx.now - settings.restoreWindowDays * day

/-- The base columns of a new row. -/
def newRow (id : UUID) : BaseModel := { id, createdAt := ctx.now }

@[simp] theorem live_newRow (id : UUID) : (ctx.newRow id).live = true := rfl

end Context

/-- Ids in a message. -/
def listed (ids : List UUID) : String := ", ".intercalate (ids.mergeSort.map toString)

namespace Database
variable (db : Database)

/-- The live subset rows of a group. -/
def subsetRows (groupId : UUID) : List EvaluationGroupAiModel :=
  (liveSelect db.allowedModels).filter fun row => row.evaluationGroupId == groupId

/-- The live assignments of an evaluation. -/
def liveAssignments (evaluationId : UUID) : List EvaluationAiModel :=
  (liveSelect db.assignments).filter fun a => a.evaluationId == evaluationId

/-- The live evaluations of a group. -/
def liveEvaluations (groupId : UUID) : List Evaluation :=
  (liveSelect db.evaluations).filter fun e => e.evaluationGroupId == groupId

/-- A model is assigned to a live evaluation of the group. -/
def modelUsedByGroupEvaluations (groupId modelId : UUID) : Bool :=
  (db.liveEvaluations groupId).any fun e =>
    (db.liveAssignments e.id).any fun a => a.modelId == modelId

end Database

/-- Every id names a live model. -/
def assertModelsLive (db : Database) (modelIds : List UUID) : Except ApiError Unit :=
  let missing := modelIds.filter fun m => (findLive db.models m).isNone
  check missing.isEmpty
    (.badRequest ("allowed_model_ids contains unknown model id(s): " ++ listed missing ++ "."))

/-- Replace the subset of a group by the models `modelIds`. -/
def syncGroupModels (db : Database) (ctx : Context) (groupId : UUID) (modelIds : List UUID) :
    Except ApiError Database := do
  let target := modelIds.dedup
  assertModelsLive db target
  let current := db.subsetRows groupId
  let previous := current.map EvaluationGroupAiModel.modelId
  check (!(previous.any fun m => !target.contains m && db.modelUsedByGroupEvaluations groupId m))
    (.conflict "Cannot remove a model that is assigned to an evaluation in this group.")
  let kept := softDeleteWhere db.allowedModels ctx.now ctx.callerId fun row =>
    row.evaluationGroupId == groupId && !target.contains row.modelId
  let allowedModels ← flush kept <| (target.filter fun m => !previous.contains m).map fun m =>
    { toBaseModel := ctx.newRow (ctx.fresh.allowedModel m), evaluationGroupId := groupId
      modelId := m }
  return { db with allowedModels }

/-- The model is in the subset of the group. -/
def assertModelAssignableToGroup (db : Database) (groupId modelId : UUID) :
    Except ApiError Unit := do
  let rows := db.subsetRows groupId
  check (!rows.isEmpty) (.badRequest "The evaluation group has no allowed models configured.")
  check (rows.any fun row => row.modelId == modelId)
    (.badRequest "Model is not in the evaluation group's allowed-model subset.")

/-! ### What they do -/

namespace Database

/-- The model is in the live subset of the group. -/
def Allowed (db : Database) (groupId modelId : UUID) : Prop :=
  ∃ row ∈ db.allowedModels, live row = true ∧ row.evaluationGroupId = groupId ∧
    row.modelId = modelId

end Database

section
variable {db db' : Database} {ctx : Context} {groupId modelId : UUID}

@[simp] theorem Database.mem_subsetRows {row : EvaluationGroupAiModel} :
    row ∈ db.subsetRows groupId ↔
      row ∈ db.allowedModels ∧ live row = true ∧ row.evaluationGroupId = groupId := by
  rw [Database.subsetRows, List.mem_filter, mem_liveSelect, beq_iff_eq, and_assoc]

@[simp] theorem Database.mem_liveAssignments {a : EvaluationAiModel} {evaluationId : UUID} :
    a ∈ db.liveAssignments evaluationId ↔
      a ∈ db.assignments ∧ live a = true ∧ a.evaluationId = evaluationId := by
  rw [Database.liveAssignments, List.mem_filter, mem_liveSelect, beq_iff_eq, and_assoc]

@[simp] theorem Database.mem_liveEvaluations {e : Evaluation} :
    e ∈ db.liveEvaluations groupId ↔
      e ∈ db.evaluations ∧ live e = true ∧ e.evaluationGroupId = groupId := by
  rw [Database.liveEvaluations, List.mem_filter, mem_liveSelect, beq_iff_eq, and_assoc]

/-- What the in-use query finds. -/
theorem Database.modelUsedByGroupEvaluations_iff :
    db.modelUsedByGroupEvaluations groupId modelId = true ↔
      ∃ e ∈ db.evaluations, live e = true ∧ e.evaluationGroupId = groupId ∧
        ∃ a ∈ db.assignments, live a = true ∧ a.evaluationId = e.id ∧ a.modelId = modelId := by
  simp only [Database.modelUsedByGroupEvaluations, List.any_eq_true, Database.mem_liveEvaluations,
    Database.mem_liveAssignments, beq_iff_eq, and_assoc]

/-- The gate passes for the models of the subset. -/
theorem assertModelAssignableToGroup_eq_ok {u : Unit} :
    assertModelAssignableToGroup db groupId modelId = .ok u ↔ db.Allowed groupId modelId := by
  simp only [assertModelAssignableToGroup, bind_eq_ok, check_eq_ok, exists_const,
    Bool.not_eq_true', List.isEmpty_eq_false_iff_exists_mem, List.any_eq_true,
    Database.mem_subsetRows, beq_iff_eq, Database.Allowed, and_assoc]
  constructor
  · rintro ⟨-, row, h⟩
    exact ⟨row, h⟩
  · rintro ⟨row, hmem, hlive, hgroup, hmodel⟩
    exact ⟨⟨row, hmem, hlive, hgroup⟩, row, hmem, hlive, hgroup, hmodel⟩

/-- A sync writes the subset only. The other groups keep theirs, the group gets the target, and a
model that a live evaluation of the group uses stays. -/
theorem syncGroupModels_spec {modelIds : List UUID}
    (h : syncGroupModels db ctx groupId modelIds = .ok db') :
    db' = { db with allowedModels := db'.allowedModels } ∧
      (∀ g m, db.Allowed g m → g ≠ groupId → db'.Allowed g m) ∧
      (∀ m ∈ modelIds, db'.Allowed groupId m) ∧
      ∀ m, db.Allowed groupId m → db.modelUsedByGroupEvaluations groupId m = true →
        m ∈ modelIds := by
  simp only [syncGroupModels, bind_eq_ok, check_eq_ok] at h
  obtain ⟨-, -, -, hunused, allowedModels, hflush, h⟩ := h
  cases h
  refine ⟨rfl, ?_, ?_, ?_⟩
  · rintro g m ⟨row, hmem, hlive, rfl, rfl⟩ hne
    have hkept : row ∈ softDeleteWhere db.allowedModels ctx.now ctx.callerId fun row =>
        row.evaluationGroupId == groupId && !modelIds.dedup.contains row.modelId :=
      (mem_softDeleteWhere hlive).mpr ⟨hmem, by simp [hne]⟩
    exact ⟨row, (mem_flush hflush).mpr (Or.inl hkept), hlive, rfl, rfl⟩
  · intro m hm
    have htarget : m ∈ modelIds.dedup := List.mem_dedup.mpr hm
    by_cases hprevious : m ∈ (db.subsetRows groupId).map EvaluationGroupAiModel.modelId
    · -- The row was there, and the soft delete spares the models of the target.
      obtain ⟨row, hrow, rfl⟩ := List.mem_map.mp hprevious
      obtain ⟨hmem, hlive, hgroup⟩ := Database.mem_subsetRows.mp hrow
      have hkept : row ∈ softDeleteWhere db.allowedModels ctx.now ctx.callerId fun row =>
          row.evaluationGroupId == groupId && !modelIds.dedup.contains row.modelId :=
        (mem_softDeleteWhere hlive).mpr ⟨hmem, by simp [hm]⟩
      exact ⟨row, (mem_flush hflush).mpr (Or.inl hkept), hlive, hgroup, rfl⟩
    · have hnew : m ∈ modelIds.dedup.filter fun m =>
          !((db.subsetRows groupId).map EvaluationGroupAiModel.modelId).contains m :=
        List.mem_filter.mpr ⟨htarget, by simpa using hprevious⟩
      exact ⟨_, (mem_flush hflush).mpr (Or.inr (List.mem_map_of_mem hnew)), rfl, rfl, rfl⟩
  · rintro m ⟨row, hmem, hlive, hgroup, rfl⟩ hused
    have hprevious : row.modelId ∈ (db.subsetRows groupId).map EvaluationGroupAiModel.modelId :=
      List.mem_map_of_mem (Database.mem_subsetRows.mpr ⟨hmem, hlive, hgroup⟩)
    by_contra hne
    have hany : ((db.subsetRows groupId).map EvaluationGroupAiModel.modelId).any (fun m =>
        !modelIds.dedup.contains m && db.modelUsedByGroupEvaluations groupId m) = true :=
      List.any_eq_true.mpr ⟨_, hprevious, by simp [hne, hused]⟩
    rw [hany] at hunused
    cases hunused

end

end RedTeaming.Evaluations
