import Mathlib.Data.List.Forall2
import Mathlib.Data.List.Permutation
import Mathlib.Data.Multiset.MapFold
import RedTeaming.Evaluations.Access
import RedTeaming.Evaluations.EvaluationSpecs

/-!
# `RedTeaming.Evaluations.Duplication`: what a copy of a group has in common with its source

A shape is what is left of a group, of an evaluation, or of a scenario when the ids, the owners,
and the times are forgotten: the columns, and the collection of the shapes of the live rows below
it. Two groups with one shape are isomorphic. A scenario has its position in its shape. A task has
its name and its description only, since tasks are unordered by design.

`duplicate_preserves_structure` says that the copy of a group has the shape of its source, without
the models and the organization that are gone. `children_of_copies` is the common part of the
copies of groups and of evaluations.

`ForeignKeys` is what the schema asks of the rows.
-/

set_option autoImplicit false

namespace RedTeaming.Evaluations.Duplication

open RedTeaming.Auth
open RedTeaming.Library

/-! ### Shapes -/

/-- A task without its id. -/
structure TaskShape where
  name : String
  description : String

/-- A scenario without its id. -/
structure ScenarioShape where
  name : String
  description : String
  position : Nat
  requiredReviews : Nat
  tasks : Multiset TaskShape

/-- An assignment without its id. The model is shared. -/
structure AssignmentShape where
  modelId : UUID
  modelDisplayMask : Option String
  parameters : JsonObject

/-- What is under an evaluation. -/
structure Children where
  tagKeys : Multiset String
  assignments : Multiset AssignmentShape
  scenarios : Multiset ScenarioShape

/-- An evaluation without its id and its owner. -/
structure EvaluationShape where
  title : String
  description : Option String
  maskModelsEnabled : Bool
  tagsEnabled : Bool
  tagsRestricted : Bool
  coverImage : Option String
  dataLicenseId : Option UUID
  children : Children

/-- A group without its id, its owner, and its status. -/
structure GroupShape where
  title : Option String
  description : Option String
  accessLevel : EvaluationGroupAccessLevel
  metricsAccessDuring : MetricsAccessLevel
  metricsAccessAfter : MetricsAccessLevel
  organizationId : Option UUID
  startDate : Option Date
  endDate : Option Date
  dataLicenseId : Option UUID
  allowedModels : Multiset UUID
  evaluations : Multiset EvaluationShape

/-- The models and organizations that count. -/
structure Counted where
  model : UUID → Bool
  organization : UUID → Bool

/-- All of them. -/
def everything : Counted := ⟨fun _ => true, fun _ => true⟩

/-- Those that are still there. -/
def liveOnly (db : Database) : Counted :=
  ⟨modelNotDeleted db, fun o => (findLive db.organizations o).isSome⟩

section
variable (counted : Counted) (db : Database)

/-- The live tasks of a scenario. -/
def liveTasks (scenarioId : UUID) : List Task :=
  (liveSelect db.tasks).filter fun t => t.scenarioId == scenarioId

/-- The live tag keys of an evaluation. -/
def liveTagKeys (evaluationId : UUID) : List EvaluationTagKey :=
  (liveSelect db.tagKeys).filter fun k => k.evaluationId == evaluationId

/-- The shape of a task. -/
def taskShape (t : Task) : TaskShape := ⟨t.name, t.description⟩

/-- The shape of a scenario. -/
def scenarioShape (s : Scenario) : ScenarioShape where
  name := s.name
  description := s.description
  position := s.position
  requiredReviews := s.requiredReviews
  tasks := ((liveTasks db s.id).map taskShape : List TaskShape)

/-- The shape of an assignment. -/
def assignmentShape (a : EvaluationAiModel) : AssignmentShape :=
  ⟨a.modelId, a.modelDisplayMask, a.parameters⟩

/-- The shapes under an evaluation. -/
def childrenOf (evaluationId : UUID) : Children where
  tagKeys := ((liveTagKeys db evaluationId).map EvaluationTagKey.tagKey : List String)
  assignments := (((db.liveAssignments evaluationId).filter fun a => counted.model a.modelId).map
    assignmentShape : List AssignmentShape)
  scenarios := ((sourceScenarios db evaluationId).map (scenarioShape db) : List ScenarioShape)

/-- The shape of an evaluation. -/
def evaluationShape (e : Evaluation) : EvaluationShape where
  title := e.title
  description := e.description
  maskModelsEnabled := e.maskModelsEnabled
  tagsEnabled := e.tagsEnabled
  tagsRestricted := e.tagsRestricted
  coverImage := e.coverImage
  dataLicenseId := e.dataLicenseId
  children := childrenOf counted db e.id

/-- The shape of a group. -/
def groupShape (g : EvaluationGroup) : GroupShape where
  title := g.title
  description := g.description
  accessLevel := g.accessLevel
  metricsAccessDuring := g.metricsAccessDuring
  metricsAccessAfter := g.metricsAccessAfter
  organizationId := g.organizationId.filter counted.organization
  startDate := g.startDate
  endDate := g.endDate
  dataLicenseId := g.dataLicenseId
  allowedModels := (((db.subsetRows g.id).filter fun row => counted.model row.modelId).map
    EvaluationGroupAiModel.modelId : List UUID)
  evaluations := ((db.liveEvaluations g.id).map (evaluationShape counted db) :
    List EvaluationShape)

/-- What `ORDER BY position` over the live scenarios of an evaluation may return. -/
def OrderedScenarios (evaluationId : UUID) (shapes : List ScenarioShape) : Prop :=
  ∃ scenarios : List Scenario, scenarios.Perm (sourceScenarios db evaluationId) ∧
    scenarios.Pairwise (fun s s' => s.position ≤ s'.position) ∧
    scenarios.map (scenarioShape db) = shapes

end

/-! ### What the schema asks -/

/-- Each row under a group, an evaluation, or a scenario names a row that is there. -/
structure ForeignKeys (db : Database) : Prop where
  allowedModels : ∀ row ∈ db.allowedModels, ∃ g : EvaluationGroup, g ∈ db.groups ∧
    g.id = row.evaluationGroupId
  evaluations : ∀ e ∈ db.evaluations, ∃ g : EvaluationGroup, g ∈ db.groups ∧
    g.id = e.evaluationGroupId
  assignments : ∀ a ∈ db.assignments, ∃ e : Evaluation, e ∈ db.evaluations ∧ e.id = a.evaluationId
  tagKeys : ∀ k ∈ db.tagKeys, ∃ e : Evaluation, e ∈ db.evaluations ∧ e.id = k.evaluationId
  scenarios : ∀ s ∈ db.scenarios, ∃ e : Evaluation, e ∈ db.evaluations ∧ e.id = s.evaluationId
  tasks : ∀ t ∈ db.tasks, ∃ s : Scenario, s ∈ db.scenarios ∧ s.id = t.scenarioId

/-! ### The rows that a flush adds -/

section
variable {ρ : Type} [Entity ρ] {t t' : Table ρ} {new : List ρ}

/-- The rows of `t` are in `t'`, and the other rows of `t'` have ids that no row of `t` has. -/
def Extends (t t' : Table ρ) : Prop :=
  (∀ r ∈ t, r ∈ t') ∧ ∀ r ∈ t', r ∈ t ∨ ∀ r₀ ∈ t, key r₀ ≠ key r

theorem Extends.refl (t : Table ρ) : Extends t t := ⟨fun _ h => h, fun _ h => .inl h⟩

/-- A flush extends the table. -/
theorem extends_of_flush (h : flush t new = .ok t') : Extends t t' := by
  refine ⟨fun r hr => (mem_flush h).mpr (.inl hr), fun r hr => ?_⟩
  -- A flush refuses an id that is taken.
  rcases (mem_flush h).mp hr with hold | hnew
  · exact .inl hold
  · exact .inr fun r₀ hr₀ => key_ne_of_flush h hr₀ hnew

/-- A test that no old row passes selects among the new rows. -/
theorem filter_liveSelect_flush (h : flush t new = .ok t') (hnew : ∀ r ∈ new, live r = true)
    {p : ρ → Bool} (hold : ∀ r ∈ t, p r = false) : (liveSelect t').filter p = new.filter p := by
  have hlive : (new.filter fun r => live r) = new := List.filter_eq_self.mpr hnew
  have hnone : ((t.rows.filter fun r => live r).filter p) = [] := by
    rw [List.filter_eq_nil_iff]
    intro r hr hp
    rw [hold r (List.mem_of_mem_filter hr)] at hp
    cases hp
  rw [liveSelect, rows_of_flush h, List.filter_append, List.filter_append, hlive, hnone,
    List.nil_append]

end

/-- Of a joined list, a test that selects the part of one entry leaves that part. -/
theorem filter_flatMap_of_mem {α β : Type} {l : List α} {f : α → List β} {p : β → Bool} {a : α}
    (hl : l.Nodup) (ha : a ∈ l) (hself : ∀ b ∈ f a, p b = true)
    (hother : ∀ a' ∈ l, a' ≠ a → ∀ b ∈ f a', p b = false) : (l.flatMap f).filter p = f a := by
  induction l with
  | nil => exact absurd ha List.not_mem_nil
  | cons a' l ih =>
    rw [List.nodup_cons] at hl
    rw [List.flatMap_cons, List.filter_append]
    rcases List.mem_cons.mp ha with rfl | hmem
    · -- The part of the entry comes first, and the others have nothing.
      have hrest : (l.flatMap f).filter p = [] := by
        rw [List.filter_eq_nil_iff]
        intro b hb hp
        obtain ⟨a', ha', hb⟩ := List.mem_flatMap.mp hb
        have hne : a' ≠ a := fun heq => hl.1 (heq ▸ ha')
        rw [hother a' (List.mem_cons_of_mem a ha') hne b hb] at hp
        cases hp
      rw [List.filter_eq_self.mpr hself, hrest, List.append_nil]
    · have hne : a' ≠ a := fun heq => hl.1 (heq ▸ hmem)
      have hfirst : (f a').filter p = [] := by
        rw [List.filter_eq_nil_iff]
        intro b hb hp
        rw [hother a' List.mem_cons_self hne b hb] at hp
        cases hp
      rw [hfirst, List.nil_append]
      exact ih hl.2 hmem fun a'' ha'' => hother a'' (List.mem_cons_of_mem a' ha'')

/-- A list with the entries of an image is the image of a list with the same entries. -/
theorem exists_map_of_perm {α β : Type} {f : α → β} {l : List α} {l' : List β}
    (h : l'.Perm (l.map f)) :
    ∃ m : List α, m.Perm l ∧ m.map f = l' := by
  have himage : List.Forall₂ (fun b a => b = f a) (l.map f) l := by
    rw [List.forall₂_map_left_iff, List.forall₂_same]
    exact fun _ _ => rfl
  obtain ⟨m, hm, hperm⟩ := List.perm_comp_forall₂ h himage
  have heq : List.Forall₂ Eq l' (m.map f) := List.forall₂_map_right_iff.mpr hm
  exact ⟨m, hperm, (List.forall₂_eq_eq_eq ▸ heq : l' = m.map f).symm⟩

/-! ### Under the copies of evaluations -/

section
variable {ρ : Type} [Entity ρ] {t t' : Table ρ} {sources : List Evaluation}
  {newId : Evaluation → UUID} {copies : Evaluation → List ρ} {parent : ρ → UUID}

/-- The live rows of the copy of an evaluation are the copied ones. -/
theorem rows_of_copy (hflush : flush t (sources.flatMap copies) = .ok t')
    (hlive : ∀ e, ∀ r ∈ copies e, live r = true)
    (hparent : ∀ e, ∀ r ∈ copies e, parent r = newId e)
    (hids : (sources.map newId).Nodup) {e : Evaluation} (he : e ∈ sources)
    (hold : ∀ r ∈ t, parent r ≠ newId e) :
    ((liveSelect t').filter fun r => parent r == newId e) = copies e := by
  have hnew : ∀ r ∈ sources.flatMap copies, live r = true := by
    intro r hr
    obtain ⟨e', -, hr⟩ := List.mem_flatMap.mp hr
    exact hlive e' r hr
  rw [filter_liveSelect_flush hflush hnew fun r hr => beq_eq_false_iff_ne.mpr (hold r hr)]
  refine filter_flatMap_of_mem hids.of_map he ?_ ?_
  · intro r hr
    exact beq_iff_eq.mpr (hparent e r hr)
  · -- Two sources have two new ids.
    intro e' he' hne r hr
    rw [beq_eq_false_iff_ne, hparent e' r hr]
    exact fun heq => hne (List.inj_on_of_nodup_map hids he' he heq)

end

/-- The rows that a copy adds under evaluations. -/
structure CopiesChildren (db db' : Database) (ctx : Context) (sources : List Evaluation)
    (newId groupOf : Evaluation → UUID) : Prop where
  evaluations : flush db.evaluations
    (sources.map fun e => copyEvaluation ctx (newId e) (groupOf e) e) = .ok db'.evaluations
  tagKeys : flush db.tagKeys (sources.flatMap fun e => copyTagKeys db ctx (newId e) e.id) =
    .ok db'.tagKeys
  assignments : flush db.assignments
    (sources.flatMap fun e => copyAssignments db ctx (newId e) e.id) = .ok db'.assignments
  scenarios : flush db.scenarios
    (sources.flatMap fun e => copyScenarios db ctx (newId e) e.id) = .ok db'.scenarios
  tasks : flush db.tasks (sources.flatMap fun e => copyTasks db ctx e.id) = .ok db'.tasks

/-- The copy of a scenario. -/
def copyScenario (ctx : Context) (id : UUID) (s : Scenario) : Scenario :=
  { s with toBaseModel := ctx.newRow (ctx.fresh.scenario s.id), evaluationId := id }

/-- The copies of the tasks of a scenario. -/
def copyTasksOf (db : Database) (ctx : Context) (s : Scenario) : List Task :=
  (liveTasks db s.id).map fun t =>
    { t with toBaseModel := ctx.newRow (ctx.fresh.task t.id),
             scenarioId := ctx.fresh.scenario s.id }

namespace CopiesChildren

variable {db db' : Database} {ctx : Context} {sources : List Evaluation}
  {newId groupOf : Evaluation → UUID} {e : Evaluation} {s : Scenario}

/-- The new ids are distinct. -/
theorem nodup_newId (h : CopiesChildren db db' ctx sources newId groupOf) :
    (sources.map newId).Nodup := by
  have hnodup := nodup_of_flush h.evaluations
  rw [List.map_map] at hnodup
  exact hnodup

/-- No evaluation has a new id yet. -/
theorem newId_ne (h : CopiesChildren db db' ctx sources newId groupOf) (he : e ∈ sources)
    {e₀ : Evaluation} (he₀ : e₀ ∈ db.evaluations) : e₀.id ≠ newId e :=
  key_ne_of_flush h.evaluations he₀
    (List.mem_map_of_mem (f := fun e => copyEvaluation ctx (newId e) (groupOf e) e) he)

/-- A row that names an evaluation of before does not name a copy. -/
theorem parent_ne {ρ : Type} {t : List ρ} {parent : ρ → UUID}
    (h : CopiesChildren db db' ctx sources newId groupOf) (he : e ∈ sources)
    (hkeys : ∀ r ∈ t, ∃ e₀ : Evaluation, e₀ ∈ db.evaluations ∧ e₀.id = parent r) :
    ∀ r ∈ t, parent r ≠ newId e := by
  intro r hr
  obtain ⟨e₀, he₀, hid⟩ := hkeys r hr
  exact hid ▸ h.newId_ne he he₀

/-- The tag keys of a copy. -/
theorem liveTagKeys_eq (h : CopiesChildren db db' ctx sources newId groupOf)
    (hkeys : ForeignKeys db) (he : e ∈ sources) :
    liveTagKeys db' (newId e) = copyTagKeys db ctx (newId e) e.id := by
  refine rows_of_copy h.tagKeys ?_ ?_ h.nodup_newId he (h.parent_ne he hkeys.tagKeys)
  · intro e r hr
    obtain ⟨k, -, rfl⟩ := List.mem_map.mp hr
    rfl
  · intro e r hr
    obtain ⟨k, -, rfl⟩ := List.mem_map.mp hr
    rfl

/-- The assignments of a copy. -/
theorem liveAssignments_eq (h : CopiesChildren db db' ctx sources newId groupOf)
    (hkeys : ForeignKeys db) (he : e ∈ sources) :
    db'.liveAssignments (newId e) = copyAssignments db ctx (newId e) e.id := by
  refine rows_of_copy h.assignments ?_ ?_ h.nodup_newId he (h.parent_ne he hkeys.assignments)
  · intro e r hr
    obtain ⟨a, -, rfl⟩ := List.mem_map.mp hr
    rfl
  · intro e r hr
    obtain ⟨a, -, rfl⟩ := List.mem_map.mp hr
    rfl

/-- The scenarios of a copy. -/
theorem sourceScenarios_eq (h : CopiesChildren db db' ctx sources newId groupOf)
    (hkeys : ForeignKeys db) (he : e ∈ sources) :
    sourceScenarios db' (newId e) =
      (sourceScenarios db e.id).map (copyScenario ctx (newId e)) := by
  refine rows_of_copy h.scenarios ?_ ?_ h.nodup_newId he (h.parent_ne he hkeys.scenarios)
  · intro e r hr
    obtain ⟨s, -, rfl⟩ := List.mem_map.mp hr
    rfl
  · intro e r hr
    obtain ⟨s, -, rfl⟩ := List.mem_map.mp hr
    rfl

/-- The copied scenarios have distinct ids. -/
theorem nodup_scenario (h : CopiesChildren db db' ctx sources newId groupOf) :
    ((sources.flatMap fun e => sourceScenarios db e.id).map fun s =>
      ctx.fresh.scenario s.id).Nodup := by
  have hnodup := nodup_of_flush h.scenarios
  have hids : (sources.flatMap fun e => copyScenarios db ctx (newId e) e.id).map key =
      (sources.flatMap fun e => sourceScenarios db e.id).map fun s =>
        ctx.fresh.scenario s.id := by
    simp only [List.map_flatMap, copyScenarios, List.map_map]
    rfl
  rwa [hids] at hnodup

/-- The tasks of a copied scenario. -/
theorem liveTasks_eq (h : CopiesChildren db db' ctx sources newId groupOf)
    (hkeys : ForeignKeys db) (he : e ∈ sources) (hs : s ∈ sourceScenarios db e.id) :
    liveTasks db' (ctx.fresh.scenario s.id) = copyTasksOf db ctx s := by
  have hmem : s ∈ sources.flatMap fun e => sourceScenarios db e.id :=
    List.mem_flatMap.mpr ⟨e, he, hs⟩
  have hflush : flush db.tasks
      ((sources.flatMap fun e => sourceScenarios db e.id).flatMap (copyTasksOf db ctx)) =
        .ok db'.tasks := by
    rw [List.flatMap_assoc]
    exact h.tasks
  have hnew :
      ∀ r ∈ (sources.flatMap fun e => sourceScenarios db e.id).flatMap (copyTasksOf db ctx),
      live r = true := by
    intro r hr
    obtain ⟨s', -, hr⟩ := List.mem_flatMap.mp hr
    obtain ⟨t, -, rfl⟩ := List.mem_map.mp hr
    rfl
  have hold : ∀ r ∈ db.tasks, (r.scenarioId == ctx.fresh.scenario s.id) = false := by
    intro r hr
    obtain ⟨s₀, hs₀, hid⟩ := hkeys.tasks r hr
    have hcopy : copyScenario ctx (newId e) s ∈ sources.flatMap fun e =>
        copyScenarios db ctx (newId e) e.id :=
      List.mem_flatMap.mpr ⟨e, he, List.mem_map.mpr ⟨s, hs, rfl⟩⟩
    rw [beq_eq_false_iff_ne, ← hid]
    exact key_ne_of_flush h.scenarios hs₀ hcopy
  rw [liveTasks, filter_liveSelect_flush hflush hnew hold]
  refine filter_flatMap_of_mem h.nodup_scenario.of_map hmem ?_ ?_
  · intro r hr
    obtain ⟨t, -, rfl⟩ := List.mem_map.mp hr
    exact beq_self_eq_true _
  · intro s' hs' hne r hr
    obtain ⟨t, -, rfl⟩ := List.mem_map.mp hr
    rw [beq_eq_false_iff_ne]
    exact fun heq => hne (List.inj_on_of_nodup_map h.nodup_scenario hs' hmem heq)

/-- A copied scenario has the shape of its source. -/
theorem scenarioShape_eq (h : CopiesChildren db db' ctx sources newId groupOf)
    (hkeys : ForeignKeys db) (he : e ∈ sources) (hs : s ∈ sourceScenarios db e.id) :
    scenarioShape db' (copyScenario ctx (newId e) s) = scenarioShape db s := by
  have htasks : (liveTasks db' (ctx.fresh.scenario s.id)).map taskShape =
      (liveTasks db s.id).map taskShape := by
    rw [h.liveTasks_eq hkeys he hs, copyTasksOf, List.map_map]
    rfl
  have hunfold : scenarioShape db' (copyScenario ctx (newId e) s) =
      { scenarioShape db s with
        tasks := ((liveTasks db' (ctx.fresh.scenario s.id)).map taskShape : List TaskShape) } :=
          rfl
  rw [hunfold, htasks]
  rfl

/-- The scenarios of a copy have the shapes of their sources. -/
theorem map_scenarioShape_eq (h : CopiesChildren db db' ctx sources newId groupOf)
    (hkeys : ForeignKeys db) (he : e ∈ sources) {scenarios : List Scenario}
    (hsub : ∀ s ∈ scenarios, s ∈ sourceScenarios db e.id) :
    (scenarios.map (copyScenario ctx (newId e))).map (scenarioShape db') =
      scenarios.map (scenarioShape db) := by
  rw [List.map_map]
  exact List.map_congr_left fun s hs => h.scenarioShape_eq hkeys he (hsub s hs)

/-- A copy has the children of its source, without the assignments of models that are gone. -/
theorem childrenOf_eq (h : CopiesChildren db db' ctx sources newId groupOf)
    (hkeys : ForeignKeys db) (he : e ∈ sources) :
    childrenOf everything db' (newId e) = childrenOf (liveOnly db) db e.id := by
  have htags : (liveTagKeys db' (newId e)).map EvaluationTagKey.tagKey =
      (liveTagKeys db e.id).map EvaluationTagKey.tagKey := by
    rw [h.liveTagKeys_eq hkeys he, copyTagKeys, List.map_map]
    rfl
  have hassignments :
      ((db'.liveAssignments (newId e)).filter fun a => everything.model a.modelId).map
        assignmentShape =
        ((db.liveAssignments e.id).filter fun a => (liveOnly db).model a.modelId).map
          assignmentShape := by
    have hall : ((db'.liveAssignments (newId e)).filter fun a => everything.model a.modelId) =
        db'.liveAssignments (newId e) := List.filter_eq_self.mpr fun _ _ => rfl
    rw [hall, h.liveAssignments_eq hkeys he, copyAssignments, List.map_map]
    rfl
  have hscenarios : (sourceScenarios db' (newId e)).map (scenarioShape db') =
      (sourceScenarios db e.id).map (scenarioShape db) := by
    rw [h.sourceScenarios_eq hkeys he]
    exact h.map_scenarioShape_eq hkeys he fun _ hs => hs
  rw [childrenOf, htags, hassignments, hscenarios]
  rfl

/-- The scenarios of a copy are listed as those of its source. -/
theorem orderedScenarios_iff (h : CopiesChildren db db' ctx sources newId groupOf)
    (hkeys : ForeignKeys db) (he : e ∈ sources) {shapes : List ScenarioShape} :
    OrderedScenarios db' (newId e) shapes ↔ OrderedScenarios db e.id shapes := by
  constructor
  · rintro ⟨copied, hperm, hsorted, rfl⟩
    rw [h.sourceScenarios_eq hkeys he] at hperm
    obtain ⟨scenarios, hsource, rfl⟩ := exists_map_of_perm hperm
    have hmap := h.map_scenarioShape_eq hkeys he fun s hs => hsource.mem_iff.mp hs
    rw [List.pairwise_map] at hsorted
    exact ⟨scenarios, hsource, hsorted, hmap.symm⟩
  · rintro ⟨scenarios, hperm, hsorted, rfl⟩
    have hmap := h.map_scenarioShape_eq hkeys he fun s hs => hperm.mem_iff.mp hs
    refine ⟨scenarios.map (copyScenario ctx (newId e)), ?_, List.pairwise_map.mpr hsorted, hmap⟩
    rw [h.sourceScenarios_eq hkeys he]
    exact hperm.map _

/-- A copy has the shape of its source. -/
theorem evaluationShape_eq (h : CopiesChildren db db' ctx sources newId groupOf)
    (hkeys : ForeignKeys db) (he : e ∈ sources) (groupId : UUID) :
    evaluationShape everything db' (copyEvaluation ctx (newId e) groupId e) =
      evaluationShape (liveOnly db) db e := by
  have hunfold : evaluationShape everything db' (copyEvaluation ctx (newId e) groupId e) =
      { evaluationShape (liveOnly db) db e with
        children := childrenOf everything db' (newId e) } := rfl
  rw [hunfold, h.childrenOf_eq hkeys he]
  rfl

end CopiesChildren

/-! ### The two copies -/

section
variable {db db' : Database} {ctx : Context}

/-- A copy of an evaluation with its children copies one evaluation. -/
theorem copiesChildren_of_duplicateEvaluation {evaluationId : UUID}
    (h : duplicateEvaluation db ctx evaluationId true = .ok db') :
    ∃ source, findLive db.evaluations evaluationId = some source ∧
      CopiesChildren db db' ctx [source] (fun _ => ctx.fresh.row) fun e =>
        e.evaluationGroupId := by
  simp only [duplicateEvaluation, bind_eq_ok, getEvaluation_eq_ok] at h
  obtain ⟨-, -, source, hsource, -, -, evaluations, hevaluations, tagKeys, htagKeys, h⟩ := h
  rw [if_pos trivial] at h
  simp only [bind_eq_ok] at h
  obtain ⟨assignments, hassignments, scenarios, hscenarios, tasks, htasks, h⟩ := h
  cases h
  refine ⟨source, hsource, ?_⟩
  constructor <;> simpa only [List.map_singleton, List.flatMap_singleton]

/-- The rows that a copy of a group adds. -/
structure CopiesGroup (db db' : Database) (ctx : Context) (source : EvaluationGroup) : Prop where
  groups : flush db.groups [copyGroup db ctx source] = .ok db'.groups
  owner : grantOwner db ctx.fresh.row ctx.callerId = .ok db'.roleAssignments
  allowedModels : flush db.allowedModels (copyAllowedModels db ctx ctx.fresh.row source.id) =
    .ok db'.allowedModels
  children : CopiesChildren db db' ctx (db.liveEvaluations source.id)
    (fun e => ctx.fresh.evaluation e.id) fun _ => ctx.fresh.row
  rest : db' = { db with
    roleAssignments := db'.roleAssignments, groups := db'.groups,
    allowedModels := db'.allowedModels
    evaluations := db'.evaluations, assignments := db'.assignments, tagKeys := db'.tagKeys
    scenarios := db'.scenarios, tasks := db'.tasks }

/-- A copy of a group with its children adds the rows of the copy. -/
theorem copiesGroup_of_duplicateEvaluationGroup {groupId : UUID}
    (h : duplicateEvaluationGroup db ctx groupId true = .ok db') :
    ∃ source, findLive db.groups groupId = some source ∧ CopiesGroup db db' ctx source := by
  simp only [duplicateEvaluationGroup, persistNewGroup, bind_eq_ok] at h
  obtain ⟨source, hsource, copy, hcopy, allowedModels, hallowed, h⟩ := h
  obtain ⟨groups, hgroups, roleAssignments, howner, hcopy⟩ := hcopy
  cases hcopy
  rw [if_pos trivial] at h
  simp only [bind_eq_ok] at h
  obtain ⟨evaluations, hevaluations, tagKeys, htagKeys, assignments, hassignments,
    scenarios, hscenarios, tasks, htasks, h⟩ := h
  cases h
  exact ⟨source, findLive_of_writableGroup hsource, hgroups, howner, hallowed,
    ⟨hevaluations, htagKeys, hassignments, hscenarios, htasks⟩, rfl⟩

namespace CopiesGroup

variable {source : EvaluationGroup}

/-- The evaluations of the copy. -/
theorem liveEvaluations_eq (h : CopiesGroup db db' ctx source) (hkeys : ForeignKeys db) :
    db'.liveEvaluations ctx.fresh.row = (db.liveEvaluations source.id).map fun e =>
      copyEvaluation ctx (ctx.fresh.evaluation e.id) ctx.fresh.row e := by
  have hold : ∀ e ∈ db.evaluations, (e.evaluationGroupId == ctx.fresh.row) = false := by
    intro e he
    obtain ⟨g, hg, hid⟩ := hkeys.evaluations e he
    rw [beq_eq_false_iff_ne, ← hid]
    exact key_ne_of_flush h.groups hg (List.mem_singleton.mpr rfl)
  have hnew : ∀ e' ∈ (db.liveEvaluations source.id).map fun e =>
      copyEvaluation ctx (ctx.fresh.evaluation e.id) ctx.fresh.row e, live e' = true := by
    intro e' he'
    obtain ⟨e, -, rfl⟩ := List.mem_map.mp he'
    rfl
  rw [Database.liveEvaluations, filter_liveSelect_flush h.children.evaluations hnew hold,
    List.filter_eq_self]
  intro e' he'
  obtain ⟨e, -, rfl⟩ := List.mem_map.mp he'
  exact beq_self_eq_true _

/-- The subset of the copy. -/
theorem subsetRows_eq (h : CopiesGroup db db' ctx source) (hkeys : ForeignKeys db) :
    db'.subsetRows ctx.fresh.row = copyAllowedModels db ctx ctx.fresh.row source.id := by
  have hold : ∀ row ∈ db.allowedModels, (row.evaluationGroupId == ctx.fresh.row) = false := by
    intro row hrow
    obtain ⟨g, hg, hid⟩ := hkeys.allowedModels row hrow
    rw [beq_eq_false_iff_ne, ← hid]
    exact key_ne_of_flush h.groups hg (List.mem_singleton.mpr rfl)
  have hnew : ∀ row ∈ copyAllowedModels db ctx ctx.fresh.row source.id, live row = true := by
    intro row' hrow'
    obtain ⟨row, -, rfl⟩ := List.mem_map.mp hrow'
    rfl
  rw [Database.subsetRows, filter_liveSelect_flush h.allowedModels hnew hold, List.filter_eq_self]
  intro row' hrow'
  obtain ⟨row, -, rfl⟩ := List.mem_map.mp hrow'
  exact beq_self_eq_true _

/-- The copy has the shape of its source. -/
theorem groupShape_eq (h : CopiesGroup db db' ctx source) (hkeys : ForeignKeys db) :
    groupShape everything db' (copyGroup db ctx source) = groupShape (liveOnly db) db source := by
  have hallowed :
      ((db'.subsetRows ctx.fresh.row).filter fun row => everything.model row.modelId).map
          EvaluationGroupAiModel.modelId =
        ((db.subsetRows source.id).filter fun row => (liveOnly db).model row.modelId).map
          EvaluationGroupAiModel.modelId := by
    have hall : ((db'.subsetRows ctx.fresh.row).filter fun row => everything.model row.modelId) =
        db'.subsetRows ctx.fresh.row := List.filter_eq_self.mpr fun _ _ => rfl
    rw [hall, h.subsetRows_eq hkeys, copyAllowedModels, List.map_map]
    rfl
  have hevaluations : (db'.liveEvaluations ctx.fresh.row).map (evaluationShape everything db') =
      (db.liveEvaluations source.id).map (evaluationShape (liveOnly db) db) := by
    rw [h.liveEvaluations_eq hkeys, List.map_map]
    exact List.map_congr_left fun e he => h.children.evaluationShape_eq hkeys he ctx.fresh.row
  have horganization : (copyGroup db ctx source).organizationId.filter everything.organization =
      source.organizationId.filter (liveOnly db).organization := by
    cases hid : (copyGroup db ctx source).organizationId with
    | none => exact hid.symm
    | some id => exact hid.symm
  have hunfold : groupShape everything db' (copyGroup db ctx source) =
      { groupShape (liveOnly db) db source with
        organizationId := (copyGroup db ctx source).organizationId.filter everything.organization
        allowedModels := (((db'.subsetRows ctx.fresh.row).filter fun row =>
          everything.model row.modelId).map
          EvaluationGroupAiModel.modelId : List UUID)
        evaluations := ((db'.liveEvaluations ctx.fresh.row).map (evaluationShape everything db') :
          List EvaluationShape) } := rfl
  rw [hunfold, hallowed, hevaluations, horganization]
  rfl

end CopiesGroup

end

/-! ### What a copy of a group keeps -/

/-- The rows of `db` are still there as they were, and the rows that `db'` has besides are new:
they have ids that no row had. The roles that it adds are on the group `groupId`. -/
structure OnlyAdds (db db' : Database) (groupId : UUID) : Prop where
  groups : Extends db.groups db'.groups
  allowedModels : Extends db.allowedModels db'.allowedModels
  evaluations : Extends db.evaluations db'.evaluations
  assignments : Extends db.assignments db'.assignments
  tagKeys : Extends db.tagKeys db'.tagKeys
  scenarios : Extends db.scenarios db'.scenarios
  tasks : Extends db.tasks db'.tasks
  roleAssignments : ∃ granted, db'.roleAssignments = db.roleAssignments ++ granted ∧
    ∀ a ∈ granted, a.object = groupId
  rest : db' = { db with
    roleAssignments := db'.roleAssignments, groups := db'.groups,
    allowedModels := db'.allowedModels
    evaluations := db'.evaluations, assignments := db'.assignments, tagKeys := db'.tagKeys
    scenarios := db'.scenarios, tasks := db'.tasks }

/-- `e'` is the copy of `e`, with what a copy of `e` alone has under it. -/
structure IsCopy (db db' : Database) (ctx : Context) (e e' : Evaluation) : Prop where
  id : e'.id = ctx.fresh.evaluation e.id
  owner : e'.createdById = ctx.callerId
  shape : evaluationShape everything db' e' = evaluationShape (liveOnly db) db e
  scenarios : ∀ shapes, OrderedScenarios db' e'.id shapes ↔ OrderedScenarios db e.id shapes
  alone : ∀ ctx₁ db₁, duplicateEvaluation db ctx₁ e.id true = .ok db₁ →
    childrenOf everything db₁ ctx₁.fresh.row = childrenOf everything db' e'.id

section
variable {db db' : Database} {ctx : Context} {source : EvaluationGroup}

/-- The owner's role is on the new group. -/
theorem grantOwner_appends {groupId : UUID} {callerId : UserId} {rows : List Auth.Assignment}
    (h : grantOwner db groupId callerId = .ok rows) :
    ∃ granted, rows = db.roleAssignments ++ granted ∧ ∀ a ∈ granted, a.object = groupId := by
  unfold grantOwner at h
  split at h
  · split at h
    · rename_i hgrant
      cases h
      unfold grantRoles at hgrant
      split at hgrant
      · cases hgrant
        -- Each granted role is an assignment on the group.
        refine ⟨_, rfl, ?_⟩
        intro a ha
        obtain ⟨role, -, rfl⟩ := List.mem_map.mp ha
        rfl
      · cases hgrant
    · cases h
  · cases h

/-- A copy of a group changes no row. -/
theorem CopiesGroup.onlyAdds (h : CopiesGroup db db' ctx source) :
    OnlyAdds db db' ctx.fresh.row where
  groups := extends_of_flush h.groups
  allowedModels := extends_of_flush h.allowedModels
  evaluations := extends_of_flush h.children.evaluations
  assignments := extends_of_flush h.children.assignments
  tagKeys := extends_of_flush h.children.tagKeys
  scenarios := extends_of_flush h.children.scenarios
  tasks := extends_of_flush h.children.tasks
  roleAssignments := grantOwner_appends h.owner
  rest := h.rest

/-- The copy of an evaluation in the copy of its group. -/
theorem CopiesGroup.isCopy (h : CopiesGroup db db' ctx source) (hkeys : ForeignKeys db)
    {e : Evaluation} (he : e ∈ db.liveEvaluations source.id) :
    IsCopy db db' ctx e (copyEvaluation ctx (ctx.fresh.evaluation e.id) ctx.fresh.row e) where
  id := rfl
  owner := rfl
  shape := h.children.evaluationShape_eq hkeys he ctx.fresh.row
  scenarios := fun _ => h.children.orderedScenarios_iff hkeys he
  alone := by
    intro ctx₁ db₁ hcopy
    -- Both copies have the children of the source, so they have the same.
    obtain ⟨found, hfound, hchildren⟩ := copiesChildren_of_duplicateEvaluation hcopy
    obtain ⟨hmem, hid, -⟩ := findLive_eq_some.mp hfound
    -- The copy of the evaluation alone finds the same row.
    have hsame : found = e := Table.eq_of_key_eq hmem (Database.mem_liveEvaluations.mp he).1 hid
    subst hsame
    have halone := hchildren.childrenOf_eq hkeys List.mem_cons_self
    exact halone.trans (h.children.childrenOf_eq hkeys he).symm

end

/-- A copy of a group with its children is a draft of the caller, with a fresh id and the shape of
the source: the same columns, and under it the same evaluations, without the models and the
organization that are gone. Each evaluation has its scenarios in the same order, with the same
tasks, and what a copy of that evaluation alone has. No row changes. -/
theorem duplicate_preserves_structure {db db' : Database} {ctx : Context} {groupId : UUID}
    (hkeys : ForeignKeys db) (h : duplicateEvaluationGroup db ctx groupId true = .ok db') :
    ∃ source copy : EvaluationGroup, findLive db.groups groupId = some source ∧
      copy ∈ db'.groups ∧ copy.id = ctx.fresh.row ∧ live copy = true ∧ copy.status = .draft ∧
      copy.createdById = ctx.callerId ∧
      groupShape everything db' copy = groupShape (liveOnly db) db source ∧
      (∀ e ∈ db.liveEvaluations groupId, ∃ e' ∈ db'.liveEvaluations copy.id,
        IsCopy db db' ctx e e') ∧ OnlyAdds db db' copy.id := by
  obtain ⟨source, hsource, hcopy⟩ := copiesGroup_of_duplicateEvaluationGroup h
  have hid : source.id = groupId := (findLive_eq_some.mp hsource).2.1
  have hmem : copyGroup db ctx source ∈ db'.groups :=
    (mem_of_flush_singleton hcopy.groups).mpr (.inr rfl)
  refine ⟨source, copyGroup db ctx source, hsource, hmem, rfl, rfl, rfl, rfl,
    hcopy.groupShape_eq hkeys, ?_, hcopy.onlyAdds⟩
  -- The copy of an evaluation is the one with the id that was drawn for it.
  intro e he
  rw [← hid] at he
  refine ⟨copyEvaluation ctx (ctx.fresh.evaluation e.id) ctx.fresh.row e, ?_,
    hcopy.isCopy hkeys he⟩
  have hlist : db'.liveEvaluations (copyGroup db ctx source).id = _ :=
    hcopy.liveEvaluations_eq hkeys
  rw [hlist]
  exact List.mem_map.mpr ⟨e, he, rfl⟩

/-! ### A group with two tasks -/

/-- The tasks of the scenario. -/
def firstTask : Task :=
  { id := 33, createdAt := 1, name := "First", description := "Ask", scenarioId := 32 }

@[inherit_doc firstTask]
def secondTask : Task :=
  { id := 34, createdAt := 2, name := "Second", description := "Ask", scenarioId := 32 }

/-- The scenario of the evaluation. -/
def onlyScenario : Scenario :=
  { id := 32, createdAt := 0, name := "Break in", description := "", evaluationId := 31,
    position := 0 }

/-- The evaluation of the group. -/
def onlyEvaluation : Evaluation :=
  { id := 31, createdAt := 0, title := "Trial", createdById := 1, evaluationGroupId := 30 }

/-- A group with one evaluation, which has one scenario with two tasks. -/
def twoTasks : Database :=
  { deployed with
    groups := .single { id := 30, createdAt := 0, createdById := 1 }
    evaluations := .single onlyEvaluation
    scenarios := .single onlyScenario
    tasks := ⟨[firstTask, secondTask], by decide⟩ }

/-- A request that draws a larger id for the copy of the first task than for that of the
second. -/
def drawsReversed : Context where
  caller := Accounts.rootSession
  now := 1000
  fresh :=
    { row := 40
      allowedModel := (40 + ·)
      evaluation := (40 + ·)
      assignment := (40 + ·)
      tagKey := (40 + ·)
      scenario := (40 + ·)
      task := (100 - ·) }

theorem foreignKeys_twoTasks : ForeignKeys twoTasks where
  allowedModels := fun _ h => absurd h List.not_mem_nil
  evaluations := by
    intro e he
    rw [List.mem_singleton.mp he]
    exact ⟨_, List.mem_singleton.mpr rfl, rfl⟩
  assignments := fun _ h => absurd h List.not_mem_nil
  tagKeys := fun _ h => absurd h List.not_mem_nil
  scenarios := by
    intro s hs
    rw [List.mem_singleton.mp hs]
    exact ⟨_, List.mem_singleton.mpr rfl, rfl⟩
  tasks := by
    intro t ht
    refine ⟨onlyScenario, List.mem_singleton.mpr rfl, ?_⟩
    rcases List.mem_cons.mp ht with rfl | hsecond
    · rfl
    · rw [List.mem_singleton.mp hsecond]
      rfl

theorem exists_duplicate_twoTasks :
    ∃ db', duplicateEvaluationGroup twoTasks drawsReversed 30 true = .ok db' := by
  have hok :
      (duplicateEvaluationGroup twoTasks drawsReversed 30 true).toOption.isSome = true := by
    decide +kernel
  cases hcopy : duplicateEvaluationGroup twoTasks drawsReversed 30 true with
  | ok db' => exact ⟨db', rfl⟩
  | error e =>
    rw [hcopy] at hok
    cases hok

/-- The copy of that group has the shape of its source. -/
theorem duplicate_preserves_structure_twoTasks :
    ∃ db', duplicateEvaluationGroup twoTasks drawsReversed 30 true = .ok db' ∧
      ∃ source copy : EvaluationGroup, findLive twoTasks.groups 30 = some source ∧
        copy ∈ db'.groups ∧ copy.id = 40 ∧ live copy = true ∧ copy.status = .draft ∧
        copy.createdById = drawsReversed.callerId ∧
        groupShape everything db' copy = groupShape (liveOnly twoTasks) twoTasks source ∧
        (∀ e ∈ twoTasks.liveEvaluations 30, ∃ e' ∈ db'.liveEvaluations copy.id,
          IsCopy twoTasks db' drawsReversed e e') ∧
        OnlyAdds twoTasks db' copy.id := by
  obtain ⟨db', hcopy⟩ := exists_duplicate_twoTasks
  exact ⟨db', hcopy, duplicate_preserves_structure foreignKeys_twoTasks hcopy⟩

/-- What `ORDER BY created_at, id` over the live tasks of a scenario returns. -/
def OrderedTasks (db : Database) (scenarioId : UUID) (shapes : List TaskShape) : Prop :=
  ∃ tasks : List Task, tasks.Perm (liveTasks db scenarioId) ∧
    tasks.Pairwise
      (fun t t' => t.createdAt < t'.createdAt ∨ t.createdAt = t'.createdAt ∧ t.id < t'.id) ∧
    tasks.map taskShape = shapes

/-- A copy does not keep the order of the tasks. The copied tasks share their time, so their new
ids decide: here the copy of the second task comes first. -/
theorem copied_tasks_reordered :
    ¬ ∀ (db db' : Database) (ctx : Context) (groupId : UUID), ForeignKeys db →
      duplicateEvaluationGroup db ctx groupId true = .ok db' →
      ∀ e ∈ db.liveEvaluations groupId, ∀ s ∈ sourceScenarios db e.id,
        ∃ s' ∈ sourceScenarios db' (ctx.fresh.evaluation e.id),
          ∀ shapes, OrderedTasks db s.id shapes → OrderedTasks db' s'.id shapes := by
  intro hclaim
  obtain ⟨db', hcopy⟩ := exists_duplicate_twoTasks
  obtain ⟨source, hsource, hcopied⟩ := copiesGroup_of_duplicateEvaluationGroup hcopy
  have he : onlyEvaluation ∈ twoTasks.liveEvaluations 30 := by decide
  have hs : onlyScenario ∈ sourceScenarios twoTasks onlyEvaluation.id := by decide
  have hid : source.id = 30 := (findLive_eq_some.mp hsource).2.1
  have he' : onlyEvaluation ∈ twoTasks.liveEvaluations source.id := by rw [hid]; exact he
  obtain ⟨s', hs', hkeeps⟩ :=
    hclaim twoTasks db' drawsReversed 30 foreignKeys_twoTasks hcopy _ he _ hs
  -- The copy has one scenario, with the copies of the two tasks.
  have honly : s'.id = 72 := by
    rw [hcopied.children.sourceScenarios_eq foreignKeys_twoTasks he'] at hs'
    obtain ⟨s, hs, rfl⟩ := List.mem_map.mp hs'
    have hscenarios : sourceScenarios twoTasks onlyEvaluation.id = [onlyScenario] := by decide
    rw [hscenarios, List.mem_singleton] at hs
    subst hs
    rfl
  have htasks : liveTasks db' 72 =
      [{ toBaseModel := drawsReversed.newRow 67, name := "First", description := "Ask",
         scenarioId := 72 },
        { toBaseModel := drawsReversed.newRow 66, name := "Second", description := "Ask",
          scenarioId := 72 }] :=
    hcopied.children.liveTasks_eq foreignKeys_twoTasks he' hs
  have hlisted : OrderedTasks twoTasks onlyScenario.id [⟨"First", "Ask"⟩, ⟨"Second", "Ask"⟩] :=
    ⟨[firstTask, secondTask], List.Perm.refl _, by decide, rfl⟩
  obtain ⟨tasks, hperm, hsorted, hshapes⟩ := hkeeps _ hlisted
  rw [honly, htasks, List.perm_pair] at hperm
  rcases hperm with rfl | rfl
  · -- The ids of the copies are the other way round.
    revert hsorted
    decide
  · revert hshapes
    simp [taskShape]

end RedTeaming.Evaluations.Duplication
