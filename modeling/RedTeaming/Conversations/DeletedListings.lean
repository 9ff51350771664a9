import RedTeaming.Conversations.GroupInvariant
import RedTeaming.Evaluations.EvaluationSpecs

/-!
# `RedTeaming.Conversations.DeletedListings`: what the deleted views offer

The deleted view of a listing should show exactly what the caller can restore. For conversations
it does, but for the conflict of a full group. The view of the scenarios of one evaluation does
too: it passes the write gate of the restore.

The views of evaluations and of scenarios across evaluations span groups, and do not pass that
gate. They show what the caller deleted. A caller who lost the role on the group since then still
sees the tombstone, and the restore is refused. `deleted_listing_iff_may_write` says that this is
the only way in which the view and the restore differ, and `listed_and_refused` is such a caller.
-/

set_option autoImplicit false

namespace RedTeaming.Conversations.Services

open RedTeaming.Auth
open RedTeaming.Library
open RedTeaming.Evaluations

/-- A query of the deleted view shows the row. -/
def Listed {ρ : Type} (list : ListQuery ρ → Except ApiError (Page ρ)) (row : ρ) : Prop :=
  ∃ query page, query.deleted = true ∧ list query = .ok page ∧ row ∈ page.items

/-- The request succeeds. -/
def Accepted {α : Type} (x : Except ApiError α) : Prop := ∃ a, x = .ok a

/-- The write gate of a group lets the caller pass: by the break-glass, or by a role on the
group. -/
def MayWrite (db : Evaluations.Database) (ctx : Evaluations.Context) (p : Permission)
    (groupId : UUID) : Prop :=
  ctx.canManage = true ∨ p ∈ objectPermissions db.auth db.roleAssignments groupId ctx.callerId

/-- The row is a tombstone inside the restore window, of a delete that the caller may undo. -/
def OwnTombstone {ρ : Type} [Entity ρ] (settings : Evaluations.Settings)
    (ctx : Evaluations.Context) (row : ρ) : Prop :=
  (Entity.base row).restorable (ctx.restoreCutoff settings) ctx.deletedBy = true

section
variable (db : Evaluations.Database) (settings : Evaluations.Settings) (ctx : Evaluations.Context)

/-- The deleted view shows the evaluation exactly when the caller can restore it. -/
def EvaluationAgrees (row : Evaluation) : Prop :=
  Listed (listEvaluations db settings ctx) row ↔
    Accepted (restoreEvaluationEndpoint db settings ctx (key row))

/-- If the evaluation is a tombstone of the caller's in a group that the caller sees, the caller
may still write the group. -/
def EvaluationWritable (row : Evaluation) : Prop :=
  OwnTombstone settings ctx row →
    ∀ group, scopeToGroups db ctx.callerId ctx.canManage row = some group →
      MayWrite db ctx .evaluationsDelete group.id

/-- The deleted view `list` shows the scenario exactly when the caller can restore it. -/
def ScenarioAgrees (list : ListQuery Scenario → Except ApiError (Page Scenario))
    (row : Scenario) : Prop :=
  Listed list row ↔
    Accepted (restoreScenarioEndpoint db settings ctx row.evaluationId (key row))

/-- If the scenario is a tombstone of the caller's in a group that the caller sees, the caller may
still write the group. -/
def ScenarioWritable (row : Scenario) : Prop :=
  OwnTombstone settings ctx row →
    ∀ group, joinVisibleEvaluationGroup db ctx.callerId ctx.canManage row.evaluationId =
      some group → MayWrite db ctx .evaluationsUpdate group.id

end

/-- The deleted view `list` shows the conversation exactly when the caller can restore it, or is
refused only because the group is full. -/
def ConversationAgrees (db : Database) (settings : Settings) (ctx : Context)
    (list : ListQuery Conversation → Except ApiError (Page Conversation)) (row : Conversation) :
    Prop :=
  Listed list row ↔
    Accepted (restoreConversation db settings ctx row.evaluationId (key row)) ∨
      restoreConversation db settings ctx row.evaluationId (key row) =
        .error (groupFull settings row.conversationGroupId)

/-- The pages of a view show the rows that it selects. -/
theorem listed_iff {ρ : Type} {list : ListQuery ρ → Except ApiError (Page ρ)} {rows : List ρ}
    (h : ∀ query, query.deleted = true → list query = .ok (query.page rows)) {row : ρ} :
    Listed list row ↔ row ∈ rows := by
  constructor
  · rintro ⟨query, page, hdeleted, hlist, hrow⟩
    rw [h query hdeleted] at hlist
    cases hlist
    exact (ListQuery.mem_of_mem_page hrow).1
  · intro hrow
    obtain ⟨offset, hpage⟩ := ListQuery.exists_mem_page hrow true fun _ _ => true
    exact ⟨_, _, rfl, h _ rfl, hpage⟩

/-! ### The gates -/

section
variable {db : Evaluations.Database} {settings : Evaluations.Settings} {ctx : Evaluations.Context}
  {p : Permission} {groupId : UUID}

theorem assertGroupWriteAccess_eq_ok {missing : String} {u : Unit} :
    assertGroupWriteAccess db groupId ctx.callerId ctx.canManage p missing = .ok u ↔
      MayWrite db ctx p groupId := by
  unfold assertGroupWriteAccess MayWrite
  by_cases hmanage : ctx.canManage = true
  · rw [if_pos hmanage]
    exact iff_of_true rfl (Or.inl hmanage)
  · rw [if_neg hmanage]
    by_cases hgrants : p ∈ objectPermissions db.auth db.roleAssignments groupId ctx.callerId
    · exact iff_of_true (by simp [hgrants]; rfl) (Or.inr hgrants)
    · refine iff_of_false ?_ (not_or.mpr ⟨hmanage, hgrants⟩)
      simp only [hgrants, if_false]
      split
      · intro h
        cases h
      · intro h
        cases h

/-- Who may write a live group sees it. -/
theorem MayWrite.visible {group : EvaluationGroup} (h : MayWrite db ctx p group.id) :
    (ctx.canManage || Sql.selects (db.groupVisibleTo ctx.callerId group)) = true := by
  rw [Bool.or_eq_true]
  rcases h with hmanage | hgrants
  · exact Or.inl hmanage
  · -- a role on the group is membership
    obtain ⟨a, ha, hlive, hobject, huser, -⟩ := mem_objectPermissions.mp hgrants
    right
    rw [selects_groupVisibleTo]
    exact Or.inr (Or.inl (Database.mem_memberGroupIds.mpr ⟨a, ha, huser, hlive, hobject⟩))

theorem scopeToGroups_eq_some {evaluation : Evaluation} {group : EvaluationGroup} :
    scopeToGroups db ctx.callerId ctx.canManage evaluation = some group ↔
      findLive db.groups evaluation.evaluationGroupId = some group ∧
        (ctx.canManage || Sql.selects (db.groupVisibleTo ctx.callerId group)) = true :=
  Option.filter_eq_some_iff

/-- The write gate of an evaluation passes when the caller may write its live group. -/
theorem accepted_authorizeEvaluationMutation {evaluationId : UUID} {allowDeleted : Bool} :
    Accepted (authorizeEvaluationMutation db ctx evaluationId p allowDeleted) ↔
      ∃ e, db.evaluations.find? evaluationId = some e ∧ (allowDeleted || live e) = true ∧
        ∃ group, findLive db.groups e.evaluationGroupId = some group ∧
          MayWrite db ctx p group.id := by
  constructor
  · rintro ⟨x, h⟩
    simp only [authorizeEvaluationMutation] at h
    split at h
    · cases h
    · rename_i group hgroup
      obtain ⟨u, hwrite, -⟩ := bind_eq_ok.mp h
      obtain ⟨e, he, hfind⟩ := Option.bind_eq_some_iff.mp hgroup
      obtain ⟨hrow, hadmitted⟩ := Option.filter_eq_some_iff.mp he
      exact ⟨e, hrow, hadmitted, group, hfind, assertGroupWriteAccess_eq_ok.mp hwrite⟩
  · rintro ⟨e, hrow, hadmitted, group, hfind, hwrite⟩
    have hgroup :
        ((db.evaluations.find? evaluationId).filter fun e => allowDeleted || live e).bind
        (fun e => findLive db.groups e.evaluationGroupId) = some group :=
      Option.bind_eq_some_iff.mpr ⟨e, Option.filter_eq_some_iff.mpr ⟨hrow, hadmitted⟩, hfind⟩
    refine ⟨(group.id, group.status), ?_⟩
    simp only [authorizeEvaluationMutation, hgroup]
    exact bind_eq_ok.mpr ⟨(), assertGroupWriteAccess_eq_ok.mpr hwrite, rfl⟩

theorem requirePermission_eq_ok {caller : SessionUser} (h : p ∈ caller.permissions) :
    requirePermission caller p = .ok () := check_eq_ok.mpr (decide_eq_true h)

theorem assertMayListDeleted_eq_ok {caller : SessionUser} {deleted : Bool} {entity : String}
    (h : p ∈ caller.permissions) : assertMayListDeleted deleted caller p entity = .ok () := by
  apply check_eq_ok.mpr
  rw [decide_eq_true h, Bool.or_true]

/-! ### Evaluations -/

/-- The view shows the caller's tombstones in the groups that the caller sees. -/
theorem listed_evaluation_iff (hread : .evaluationsRead ∈ ctx.caller.permissions)
    (hdelete : .evaluationsDelete ∈ ctx.caller.permissions) {row : Evaluation}
    (hrow : row ∈ db.evaluations) :
    Listed (listEvaluations db settings ctx) row ↔
      OwnTombstone settings ctx row ∧
        (scopeToGroups db ctx.callerId ctx.canManage row).isSome := by
  have hlist : ∀ query : ListQuery Evaluation, query.deleted = true →
      listEvaluations db settings ctx query = .ok (query.page
        ((deletedSelect db.evaluations (ctx.restoreCutoff settings) ctx.deletedBy).filter
          fun evaluation =>
            (scopeToGroups db ctx.callerId ctx.canManage evaluation).isSome)) := by
    intro query hdeleted
    unfold listEvaluations listedRows
    rw [requirePermission_eq_ok hread, assertMayListDeleted_eq_ok hdelete, if_pos hdeleted]
    rfl
  rw [listed_iff hlist, List.mem_filter, mem_deletedSelect]
  exact ⟨fun h => ⟨h.1.2, h.2⟩, fun h => ⟨⟨hrow, h.1⟩, h.2⟩⟩

/-- The restore takes the caller's tombstones in the live groups that the caller may write. -/
theorem accepted_evaluation_iff (hdelete : .evaluationsDelete ∈ ctx.caller.permissions)
    {row : Evaluation} (hrow : row ∈ db.evaluations) :
    Accepted (restoreEvaluationEndpoint db settings ctx (key row)) ↔
      OwnTombstone settings ctx row ∧
        ∃ group, findLive db.groups row.evaluationGroupId = some group ∧
          MayWrite db ctx .evaluationsDelete group.id := by
  have hfind : db.evaluations.find? (key row) = some row := Table.find?_eq_some.mpr ⟨hrow, rfl⟩
  constructor
  · rintro ⟨db', h⟩
    obtain ⟨_, -, h⟩ := bind_eq_ok.mp h
    obtain ⟨db₁, hrestore, -⟩ := bind_eq_ok.mp h
    obtain ⟨x, hauthorize, hrestore⟩ := bind_eq_ok.mp hrestore
    obtain ⟨e, hget, -⟩ := bind_eq_ok.mp hrestore
    obtain ⟨e', he', -, hgroup⟩ := accepted_authorizeEvaluationMutation.mp ⟨x, hauthorize⟩
    have hsame : e' = row := Option.some.inj (he'.symm.trans hfind)
    rw [hsame] at hgroup
    refine ⟨?_, hgroup⟩
    unfold getRestorableEvaluation at hget
    split at hget
    · rename_i found hfound
      obtain ⟨hfound, -⟩ := Option.filter_eq_some_iff.mp hfound
      obtain ⟨hmem, hkey, hown⟩ := findRestorable_eq_some.mp hfound
      have hsame : found = row := Table.eq_of_key_eq hmem hrow hkey
      rw [hsame] at hown
      exact hown
    · cases hget
  · rintro ⟨hown, group, hgroup, hwrite⟩
    obtain ⟨x, hauthorize⟩ := accepted_authorizeEvaluationMutation.mpr
      ⟨row, hfind, Bool.true_or _, group, hgroup, hwrite⟩
    have hfound : (findRestorable db.evaluations (ctx.restoreCutoff settings) ctx.deletedBy
        (key row)).filter (fun e => (findLive db.groups e.evaluationGroupId).isSome) =
          some row := by
      refine Option.filter_eq_some_iff.mpr ⟨findRestorable_eq_some.mpr ⟨hrow, rfl, hown⟩, ?_⟩
      rw [hgroup]
      rfl
    have hget : getRestorableEvaluation db settings ctx (key row) = .ok row := by
      unfold getRestorableEvaluation
      rw [hfound]
    -- the restored evaluation is read again, and its writer sees it
    have hagain : getVisibleEvaluation { db with evaluations := restoreRow db.evaluations row.id }
        (key row) ctx.callerId ctx.canManage = .ok (RedTeaming.restore row) := by
      refine found_eq_ok.mpr (Option.filter_eq_some_iff.mpr ⟨?_, ?_⟩)
      · exact findLive_eq_some.mpr
          ⟨restore_mem_restoreRow hrow, key_restore row, live_restore row⟩
      · exact Option.isSome_iff_exists.mpr
          ⟨group, Option.filter_eq_some_iff.mpr ⟨hgroup, hwrite.visible⟩⟩
    refine ⟨_, bind_eq_ok.mpr ⟨(), requirePermission_eq_ok hdelete, bind_eq_ok.mpr ⟨_, ?_,
      bind_eq_ok.mpr ⟨_, hagain, rfl⟩⟩⟩⟩
    exact bind_eq_ok.mpr ⟨x, hauthorize, bind_eq_ok.mpr ⟨row, hget, rfl⟩⟩

theorem evaluationAgrees_iff (hread : .evaluationsRead ∈ ctx.caller.permissions)
    (hdelete : .evaluationsDelete ∈ ctx.caller.permissions) {row : Evaluation}
    (hrow : row ∈ db.evaluations) :
    EvaluationAgrees db settings ctx row ↔ EvaluationWritable db settings ctx row := by
  unfold EvaluationAgrees EvaluationWritable
  rw [listed_evaluation_iff hread hdelete hrow, accepted_evaluation_iff hdelete hrow]
  constructor
  · intro hagrees hown group hgroup
    obtain ⟨-, group', hgroup', hwrite⟩ :=
      hagrees.mp ⟨hown, Option.isSome_iff_exists.mpr ⟨group, hgroup⟩⟩
    have hsame : group' = group :=
      Option.some.inj (hgroup'.symm.trans (scopeToGroups_eq_some.mp hgroup).1)
    rw [hsame] at hwrite
    exact hwrite
  · intro hwritable
    constructor
    · rintro ⟨hown, hvisible⟩
      obtain ⟨group, hgroup⟩ := Option.isSome_iff_exists.mp hvisible
      exact ⟨hown, group, (scopeToGroups_eq_some.mp hgroup).1, hwritable hown group hgroup⟩
    · rintro ⟨hown, group, hgroup, hwrite⟩
      exact ⟨hown, Option.isSome_iff_exists.mpr
        ⟨group, scopeToGroups_eq_some.mpr ⟨hgroup, hwrite.visible⟩⟩⟩

/-! ### Scenarios -/

theorem joinVisibleEvaluationGroup_eq_some {evaluationId : UUID} {group : EvaluationGroup} :
    joinVisibleEvaluationGroup db ctx.callerId ctx.canManage evaluationId = some group ↔
      ∃ e, findLive db.evaluations evaluationId = some e ∧
        findLive db.groups e.evaluationGroupId = some group ∧
        (ctx.canManage || Sql.selects (db.groupVisibleTo ctx.callerId group)) = true := by
  unfold joinVisibleEvaluationGroup
  simp only [Option.bind_eq_some_iff, scopeToGroups_eq_some]

/-- The scenarios that the deleted views start from. -/
def deletedScenarios (db : Evaluations.Database) (settings : Evaluations.Settings)
    (ctx : Evaluations.Context) : List Scenario :=
  (deletedSelect db.scenarios (ctx.restoreCutoff settings) ctx.deletedBy).filter fun scenario =>
    (joinVisibleEvaluationGroup db ctx.callerId ctx.canManage scenario.evaluationId).isSome

theorem mem_deletedScenarios {row : Scenario} (hrow : row ∈ db.scenarios) :
    row ∈ deletedScenarios db settings ctx ↔ OwnTombstone settings ctx row ∧
      (joinVisibleEvaluationGroup db ctx.callerId ctx.canManage row.evaluationId).isSome := by
  rw [deletedScenarios, List.mem_filter, mem_deletedSelect]
  exact ⟨fun h => ⟨h.1.2, h.2⟩, fun h => ⟨⟨hrow, h.1⟩, h.2⟩⟩

theorem listScenarios_deleted {query : ListQuery Scenario} (hdeleted : query.deleted = true) :
    listScenarios db settings ctx query = query.page (deletedScenarios db settings ctx) := by
  unfold listScenarios listedRows
  rw [if_pos hdeleted]
  rfl

/-- The view across evaluations shows the caller's tombstones that the caller sees. -/
theorem listed_scenario_iff (hread : .evaluationsRead ∈ ctx.caller.permissions)
    (hupdate : .evaluationsUpdate ∈ ctx.caller.permissions) {row : Scenario} :
    Listed (listScenariosEndpoint db settings ctx) row ↔
      row ∈ deletedScenarios db settings ctx := by
  apply listed_iff
  intro query hdeleted
  unfold listScenariosEndpoint
  rw [requirePermission_eq_ok hread, assertMayListDeleted_eq_ok hupdate,
    listScenarios_deleted hdeleted]
  rfl

/-- The evaluation is live, and the caller may write its live group. -/
def MayWriteEvaluation (db : Evaluations.Database) (ctx : Evaluations.Context)
    (evaluationId : UUID) : Prop :=
  ∃ e, findLive db.evaluations evaluationId = some e ∧
    ∃ group, findLive db.groups e.evaluationGroupId = some group ∧
      MayWrite db ctx .evaluationsUpdate group.id

theorem accepted_authorize_live {evaluationId : UUID} :
    Accepted (authorizeEvaluationMutation db ctx evaluationId .evaluationsUpdate false) ↔
      MayWriteEvaluation db ctx evaluationId := by
  rw [accepted_authorizeEvaluationMutation]
  constructor
  · rintro ⟨e, hfind, hlive, hgroup⟩
    exact ⟨e, Option.filter_eq_some_iff.mpr ⟨hfind, hlive⟩, hgroup⟩
  · rintro ⟨e, hfind, hgroup⟩
    obtain ⟨hfind, hlive⟩ := Option.filter_eq_some_iff.mp hfind
    exact ⟨e, hfind, hlive, hgroup⟩

/-- Who may write the group of an evaluation sees it. -/
theorem MayWriteEvaluation.visible {evaluationId : UUID}
    (h : MayWriteEvaluation db ctx evaluationId) :
    (joinVisibleEvaluationGroup db ctx.callerId ctx.canManage evaluationId).isSome := by
  obtain ⟨e, he, group, hgroup, hwrite⟩ := h
  exact Option.isSome_iff_exists.mpr
    ⟨group, joinVisibleEvaluationGroup_eq_some.mpr ⟨e, he, hgroup, hwrite.visible⟩⟩

/-- The view of one evaluation shows the caller's tombstones to those who may write the group. -/
theorem listed_evaluation_scenario_iff (hread : .evaluationsRead ∈ ctx.caller.permissions)
    (hupdate : .evaluationsUpdate ∈ ctx.caller.permissions) {row : Scenario} :
    Listed (listEvaluationScenarios db settings ctx row.evaluationId) row ↔
      row ∈ deletedScenarios db settings ctx ∧ MayWriteEvaluation db ctx row.evaluationId := by
  by_cases hwrite : MayWriteEvaluation db ctx row.evaluationId
  · obtain ⟨x, hauthorize⟩ := accepted_authorize_live.mpr hwrite
    obtain ⟨e, he, group, hgroup, hmay⟩ := hwrite
    have hvisible : getVisibleEvaluation db row.evaluationId ctx.callerId ctx.canManage = .ok e :=
      found_eq_ok.mpr (Option.filter_eq_some_iff.mpr ⟨he, Option.isSome_iff_exists.mpr
        ⟨group, scopeToGroups_eq_some.mpr ⟨hgroup, hmay.visible⟩⟩⟩)
    have hlist : ∀ query : ListQuery Scenario, query.deleted = true →
        listEvaluationScenarios db settings ctx row.evaluationId query = .ok (query.page
          ((deletedScenarios db settings ctx).filter fun scenario =>
            scenario.evaluationId == row.evaluationId)) := by
      intro query hdeleted
      unfold listEvaluationScenarios
      rw [requirePermission_eq_ok hread, assertMayListDeleted_eq_ok hupdate, hvisible,
        if_pos hdeleted, hauthorize, ← ListQuery.page_keep]
      exact congrArg Except.ok (listScenarios_deleted hdeleted)
    rw [listed_iff hlist, List.mem_filter]
    exact ⟨fun h => ⟨h.1, e, he, group, hgroup, hmay⟩, fun h => ⟨h.1, beq_self_eq_true _⟩⟩
  · refine iff_of_false ?_ fun h => hwrite h.2
    rintro ⟨query, page, hdeleted, hlist, -⟩
    obtain ⟨_, -, hlist⟩ := bind_eq_ok.mp hlist
    obtain ⟨_, -, hlist⟩ := bind_eq_ok.mp hlist
    obtain ⟨_, -, hlist⟩ := bind_eq_ok.mp hlist
    rw [if_pos hdeleted] at hlist
    obtain ⟨x, hauthorize, -⟩ := bind_eq_ok.mp hlist
    exact hwrite (accepted_authorize_live.mp ⟨x, hauthorize⟩)

/-- The restore takes the caller's tombstones in the groups that the caller may write. -/
theorem accepted_scenario_iff (hupdate : .evaluationsUpdate ∈ ctx.caller.permissions)
    {row : Scenario} (hrow : row ∈ db.scenarios) :
    Accepted (restoreScenarioEndpoint db settings ctx row.evaluationId (key row)) ↔
      OwnTombstone settings ctx row ∧ MayWriteEvaluation db ctx row.evaluationId := by
  constructor
  · rintro ⟨db', h⟩
    obtain ⟨_, -, h⟩ := bind_eq_ok.mp h
    obtain ⟨x, hauthorize, h⟩ := bind_eq_ok.mp h
    refine ⟨?_, accepted_authorize_live.mp ⟨x, hauthorize⟩⟩
    split at h
    · rename_i found hfound
      obtain ⟨hfound, -⟩ := Option.filter_eq_some_iff.mp hfound
      obtain ⟨hmem, hkey, hown⟩ := findRestorable_eq_some.mp hfound
      have hsame : found = row := Table.eq_of_key_eq hmem hrow hkey
      rw [hsame] at hown
      exact hown
    · cases h
  · rintro ⟨hown, hwrite⟩
    obtain ⟨x, hauthorize⟩ := accepted_authorize_live.mpr hwrite
    obtain ⟨e, he, -⟩ := hwrite
    have hfound : (findRestorable db.scenarios (ctx.restoreCutoff settings) ctx.deletedBy
        (key row)).filter (fun s => s.evaluationId == row.evaluationId) = some row :=
      Option.filter_eq_some_iff.mpr
        ⟨findRestorable_eq_some.mpr ⟨hrow, rfl, hown⟩, beq_self_eq_true _⟩
    have hget : getEvaluation db row.evaluationId = .ok e := getEvaluation_eq_ok.mpr he
    have hrestore : Accepted (restoreScenario db settings ctx row.evaluationId (key row)) := by
      unfold restoreScenario
      simp only [hauthorize, hfound, hget]
      exact ⟨_, rfl⟩
    obtain ⟨db', hrestore⟩ := hrestore
    exact ⟨db', bind_eq_ok.mpr ⟨(), requirePermission_eq_ok hupdate, hrestore⟩⟩

theorem scenarioAgrees_iff (hread : .evaluationsRead ∈ ctx.caller.permissions)
    (hupdate : .evaluationsUpdate ∈ ctx.caller.permissions) {row : Scenario}
    (hrow : row ∈ db.scenarios) :
    ScenarioAgrees db settings ctx (listScenariosEndpoint db settings ctx) row ↔
      ScenarioWritable db settings ctx row := by
  unfold ScenarioAgrees ScenarioWritable
  rw [listed_scenario_iff hread hupdate, accepted_scenario_iff hupdate hrow,
    mem_deletedScenarios hrow]
  constructor
  · intro hagrees hown group hgroup
    obtain ⟨-, e', he', group', hgroup', hwrite⟩ :=
      hagrees.mp ⟨hown, Option.isSome_iff_exists.mpr ⟨group, hgroup⟩⟩
    obtain ⟨e, he, hgroup, -⟩ := joinVisibleEvaluationGroup_eq_some.mp hgroup
    have hsame : e' = e := Option.some.inj (he'.symm.trans he)
    rw [hsame] at hgroup'
    have hsame : group' = group := Option.some.inj (hgroup'.symm.trans hgroup)
    rw [hsame] at hwrite
    exact hwrite
  · intro hwritable
    constructor
    · rintro ⟨hown, hvisible⟩
      obtain ⟨group, hjoin⟩ := Option.isSome_iff_exists.mp hvisible
      obtain ⟨e, he, hgroup, -⟩ := joinVisibleEvaluationGroup_eq_some.mp hjoin
      exact ⟨hown, e, he, group, hgroup, hwritable hown group hjoin⟩
    · rintro ⟨hown, hwrite⟩
      exact ⟨hown, hwrite.visible⟩

/-- The view of one evaluation passes the gate of the restore, so the two agree. -/
theorem evaluationScenarioAgrees (hread : .evaluationsRead ∈ ctx.caller.permissions)
    (hupdate : .evaluationsUpdate ∈ ctx.caller.permissions) {row : Scenario}
    (hrow : row ∈ db.scenarios) :
    ScenarioAgrees db settings ctx (listEvaluationScenarios db settings ctx row.evaluationId)
      row := by
  unfold ScenarioAgrees
  rw [listed_evaluation_scenario_iff hread hupdate, accepted_scenario_iff hupdate hrow,
    mem_deletedScenarios hrow]
  exact ⟨fun h => ⟨h.1.1, h.2⟩, fun h => ⟨⟨h.1, h.2.visible⟩, h.2⟩⟩

end

/-! ### Conversations -/

section
variable {db : Database} {settings : Settings} {ctx : Context} {row : Conversation}

/-- The conversations that the deleted views start from. -/
def deletedConversations (db : Database) (settings : Settings) (ctx : Context) :
    List Conversation :=
  (deletedSelect db.conversations (ctx.restoreCutoff settings.toSettings) ctx.deletedBy).filter
    fun row => inListing db ctx false row && hasLiveAssignment db row

theorem mem_deletedConversations (hrow : row ∈ db.conversations) :
    row ∈ deletedConversations db settings ctx ↔
      OwnTombstone settings.toSettings ctx.toContext row ∧ inListing db ctx false row = true ∧
        hasLiveAssignment db row = true := by
  rw [deletedConversations, List.mem_filter, mem_deletedSelect, Bool.and_eq_true]
  exact ⟨fun h => ⟨h.1.2, h.2⟩, fun h => ⟨⟨hrow, h.1⟩, h.2⟩⟩

theorem listConversations_deleted {query : ListQuery Conversation}
    (hdeleted : query.deleted = true) :
    listConversations db settings ctx query =
      query.page (deletedConversations db settings ctx) := by
  unfold listConversations listedRows
  simp only [hdeleted, if_true]
  rfl

/-- The view across evaluations. -/
theorem listed_conversation_iff (hread : .conversationsRead ∈ ctx.caller.permissions) :
    Listed (listConversationsEndpoint db settings ctx) row ↔
      row ∈ deletedConversations db settings ctx := by
  apply listed_iff
  intro query hdeleted
  unfold listConversationsEndpoint
  rw [requirePermission_eq_ok hread, listConversations_deleted hdeleted]
  rfl

/-- A caller with the global permission passes the gate of a conversation route. -/
theorem requireConversationPermission_eq_ok {p : Permission} {evaluationId : UUID}
    (h : p ∈ ctx.caller.permissions) :
    requireConversationPermission db ctx p evaluationId = .ok () := by
  unfold requireConversationPermission requireObjectOrGlobal
  rw [if_pos h]
  rfl

/-- Who reads a row of the view sees the evaluation. -/
theorem visible_of_inListing {readAny : Bool} (h : inListing db ctx readAny row = true) :
    inScope db ctx row.evaluationId = true := by
  unfold inListing at h
  unfold inScope
  split at h
  · rename_i group hgroup
    rw [hgroup]
    rfl
  · cases h

/-- The view of one evaluation. -/
theorem listed_evaluation_conversation_iff
    (hread : .conversationsRead ∈ ctx.caller.permissions) :
    Listed (listEvaluationConversations db settings ctx row.evaluationId) row ↔
      row ∈ deletedConversations db settings ctx := by
  by_cases hscope : inScope db ctx row.evaluationId = true
  · obtain ⟨group, hgroup⟩ := Option.isSome_iff_exists.mp hscope
    obtain ⟨e, he, hgroup⟩ := Option.bind_eq_some_iff.mp hgroup
    have hvisible : getVisibleEvaluation db.toDatabase row.evaluationId ctx.callerId
        ctx.canManage = .ok e :=
      found_eq_ok.mpr
        (Option.filter_eq_some_iff.mpr ⟨he, Option.isSome_iff_exists.mpr ⟨group, hgroup⟩⟩)
    have hlist : ∀ query : ListQuery Conversation, query.deleted = true →
        listEvaluationConversations db settings ctx row.evaluationId query = .ok (query.page
          ((deletedConversations db settings ctx).filter fun row' =>
            row'.evaluationId == row.evaluationId)) := by
      intro query hdeleted
      unfold listEvaluationConversations
      rw [requireConversationPermission_eq_ok hread, hvisible, ← ListQuery.page_keep]
      exact congrArg Except.ok (listConversations_deleted hdeleted)
    rw [listed_iff hlist, List.mem_filter]
    exact and_iff_left (beq_self_eq_true _)
  · refine iff_of_false ?_ ?_
    · rintro ⟨query, page, -, hlist, -⟩
      obtain ⟨_, -, hlist⟩ := bind_eq_ok.mp hlist
      obtain ⟨e, hvisible, -⟩ := bind_eq_ok.mp hlist
      obtain ⟨he, hgroup⟩ := Option.filter_eq_some_iff.mp (found_eq_ok.mp hvisible)
      obtain ⟨group, hgroup⟩ := Option.isSome_iff_exists.mp hgroup
      exact hscope (Option.isSome_iff_exists.mpr
        ⟨group, Option.bind_eq_some_iff.mpr ⟨e, he, hgroup⟩⟩)
    · intro hrow
      have hlisted := (List.mem_filter.mp hrow).2
      rw [Bool.and_eq_true] at hlisted
      exact hscope (visible_of_inListing hlisted.1)

/-- The lookup of the restore finds what the view shows. -/
theorem getRestorableConversation_eq_ok (hrow : row ∈ db.conversations) :
    getRestorableConversation db settings ctx row.evaluationId (key row) = .ok row ↔
      row ∈ deletedConversations db settings ctx := by
  rw [mem_deletedConversations hrow, getRestorableConversation, found_eq_ok,
    Option.filter_eq_some_iff, restorableConversation, Option.filter_eq_some_iff,
    findRestorable_eq_some]
  have howner : inListing db ctx false row = true ↔
      (ctx.canManage || row.userId == ctx.callerId) = true ∧
        inScope db ctx row.evaluationId = true := by
    unfold inListing inScope
    cases joinVisibleEvaluationGroup db.toDatabase ctx.callerId ctx.canManage
      row.evaluationId with
    | none => simp
    | some group => simp
  rw [howner, Bool.and_eq_true, Bool.and_eq_true]
  constructor
  · rintro ⟨⟨⟨-, -, hown⟩, -, howned⟩, hscope, hassigned⟩
    exact ⟨hown, ⟨howned, hscope⟩, hassigned⟩
  · rintro ⟨hown, ⟨howned, hscope⟩, hassigned⟩
    exact ⟨⟨⟨hrow, rfl, hown⟩, beq_self_eq_true _, howned⟩, hscope, hassigned⟩

/-- What the lookup of the restore finds is the row with the id. -/
theorem eq_of_getRestorableConversation (hrow : row ∈ db.conversations) {found : Conversation}
    (h : getRestorableConversation db settings ctx row.evaluationId (key row) = .ok found) :
    found = row := by
  have hfound := (Option.filter_eq_some_iff.mp (found_eq_ok.mp h)).1
  obtain ⟨hmem, hkey, -⟩ := findRestorable_eq_some.mp (Option.filter_eq_some_iff.mp hfound).1
  exact Table.eq_of_key_eq hmem hrow hkey

/-- The restore takes what the view shows, unless the group is full. -/
theorem accepted_conversation_iff (hdelete : .conversationsDelete ∈ ctx.caller.permissions)
    (hrow : row ∈ db.conversations) :
    Accepted (restoreConversation db settings ctx row.evaluationId (key row)) ∨
        restoreConversation db settings ctx row.evaluationId (key row) =
          .error (groupFull settings row.conversationGroupId) ↔
      row ∈ deletedConversations db settings ctx := by
  rw [← getRestorableConversation_eq_ok hrow]
  unfold restoreConversation
  rw [requireConversationPermission_eq_ok hdelete]
  show Accepted (getRestorableConversation db settings ctx row.evaluationId (key row) >>= _) ∨
    (getRestorableConversation db settings ctx row.evaluationId (key row) >>= _) = _ ↔ _
  constructor
  · intro h
    cases hget : getRestorableConversation db settings ctx row.evaluationId (key row) with
    | ok found => rw [eq_of_getRestorableConversation hrow hget]
    | error e =>
      rw [hget] at h
      rcases h with ⟨db', h⟩ | h
      · cases h
      · -- the error of the lookup is not the one of a full group
        unfold getRestorableConversation found at hget
        split at hget
        · cases hget
        · cases hget
          cases h
  · intro hget
    rw [hget]
    show Accepted (assertGroupHasRoom db settings row.conversationGroupId >>= _) ∨
      (assertGroupHasRoom db settings row.conversationGroupId >>= _) = _
    unfold assertGroupHasRoom check
    split
    · exact Or.inl ⟨_, rfl⟩
    · exact Or.inr rfl

end

/-- For each evaluation and scenario, the deleted view across groups and the restore agree exactly
when the caller may still write the group of the own tombstone. For the scenarios of one
evaluation and for conversations they agree, but for the conflict of a full group. -/
theorem deleted_listing_iff_may_write (db : Database) (settings : Settings) (ctx : Context) :
    (.evaluationsRead ∈ ctx.caller.permissions → .evaluationsDelete ∈ ctx.caller.permissions →
      ∀ row ∈ db.evaluations,
        (EvaluationAgrees db.toDatabase settings.toSettings ctx.toContext row ↔
          EvaluationWritable db.toDatabase settings.toSettings ctx.toContext row)) ∧
    (.evaluationsRead ∈ ctx.caller.permissions → .evaluationsUpdate ∈ ctx.caller.permissions →
      ∀ row ∈ db.scenarios,
        (ScenarioAgrees db.toDatabase settings.toSettings ctx.toContext
            (listScenariosEndpoint db.toDatabase settings.toSettings ctx.toContext) row ↔
          ScenarioWritable db.toDatabase settings.toSettings ctx.toContext row) ∧
        ScenarioAgrees db.toDatabase settings.toSettings ctx.toContext
          (listEvaluationScenarios db.toDatabase settings.toSettings ctx.toContext
            row.evaluationId) row) ∧
    (.conversationsRead ∈ ctx.caller.permissions →
      .conversationsDelete ∈ ctx.caller.permissions → ∀ row ∈ db.conversations,
        ConversationAgrees db settings ctx (listConversationsEndpoint db settings ctx) row ∧
        ConversationAgrees db settings ctx
          (listEvaluationConversations db settings ctx row.evaluationId) row) := by
  refine ⟨?_, ?_, ?_⟩
  · intro hread hdelete row hrow
    exact evaluationAgrees_iff hread hdelete hrow
  · intro hread hupdate row hrow
    exact ⟨scenarioAgrees_iff hread hupdate hrow, evaluationScenarioAgrees hread hupdate hrow⟩
  · intro hread hdelete row hrow
    exact ⟨(listed_conversation_iff hread).trans (accepted_conversation_iff hdelete hrow).symm,
      (listed_evaluation_conversation_iff hread).trans
        (accepted_conversation_iff hdelete hrow).symm⟩

/-! ### A caller who lost the role -/

/-- The session of user 2, a global owner. -/
def ownerSession : SessionUser where
  id := 2
  provider := "local"
  permissions := SystemRole.owner.permissions
  authTime := none
  issuedAt := none

/-- The context of a request of user 2. -/
def ownerContext : Context :=
  { (Label.byRoot 50 (.deleteConversation 0 0)).context with caller := ownerSession }

/-- The membership service leaves these roles. -/
def withRoles (roleAssignments : List Auth.Assignment) : Label :=
  .byRoot 40 (.registry (.identity Evaluations.deployed.auth roleAssignments
    Evaluations.deployed.userOrganization))

/-- User 2 becomes an owner of the public group 30, and deletes its evaluation 31. -/
def deleted : List Label :=
  [.byRoot 30 (.registry (.createGroup challenge)), .byRoot 31 (.registry (.approve 30)),
    .byRoot 31 (.registry (.createEvaluation trial)),
    withRoles [{ object := 30, user := 2, role := Accounts.systemRoleId .owner }],
    { context := ownerContext, request := .registry (.deleteEvaluation 31) }]

/-- User 2 is still an owner, and the deleted view shows what the user can restore. -/
theorem deleted_listing_iff_may_write_deleted :
    ∃ db, run (step pairs) deployed deleted = some db ∧
      ∃ row ∈ db.evaluations, key row = 31 ∧ live row = false ∧
        EvaluationAgrees db.toDatabase pairs.toSettings ownerContext.toContext row := by
  have hany : (run (step pairs) deployed deleted).any (fun db =>
      (db.evaluations.rows.any fun row => key row == 31 && !live row) &&
        decide (.evaluationsDelete ∈
          objectPermissions db.auth db.roleAssignments 30 ownerContext.callerId) &&
        db.groups.rows.all fun group => group.id == 30) = true := by
    decide +kernel
  obtain ⟨db, hrun, hcheck⟩ := exists_run_of_any hany
  simp only [Bool.and_eq_true, List.any_eq_true, List.all_eq_true, beq_iff_eq, Bool.not_eq_true',
    decide_eq_true_eq] at hcheck
  obtain ⟨⟨⟨row, hrow, hkey, hdead⟩, hgrants⟩, hgroups⟩ := hcheck
  refine ⟨db, hrun, row, hrow, hkey, hdead, ?_⟩
  refine ((deleted_listing_iff_may_write db pairs ownerContext).1 (by decide) (by decide) row
    hrow).mpr ?_
  intro _ group hgroup
  have hmem : group ∈ db.groups := (findLive_eq_some.mp (scopeToGroups_eq_some.mp hgroup).1).1
  rw [hgroups group hmem]
  exact Or.inr hgrants

/-- Then user 2 loses the role. The evaluation is listed, and its restore is refused. -/
theorem listed_and_refused :
    ¬ ∀ (settings : Settings) (db db' : Database) (ls : List Label) (ctx : Context),
      NoConversations db → run (step settings) db ls = some db' →
      .evaluationsRead ∈ ctx.caller.permissions → .evaluationsDelete ∈ ctx.caller.permissions →
      ∀ row ∈ db'.evaluations,
        EvaluationAgrees db'.toDatabase settings.toSettings ctx.toContext row := by
  intro hall
  have hany : (run (step pairs) deployed (deleted ++ [withRoles []])).any (fun db =>
      (db.evaluations.rows.any fun row =>
        (Entity.base row).restorable (ownerContext.restoreCutoff pairs.toSettings)
            ownerContext.deletedBy &&
          (scopeToGroups db.toDatabase ownerContext.callerId ownerContext.canManage
            row).isSome) &&
        !ownerContext.canManage && db.roleAssignments.isEmpty) = true := by
    decide +kernel
  obtain ⟨db, hrun, hcheck⟩ := exists_run_of_any hany
  simp only [Bool.and_eq_true, List.any_eq_true, Bool.not_eq_true', List.isEmpty_iff] at hcheck
  obtain ⟨⟨⟨row, hrow, hown, hvisible⟩, hmanage⟩, hroles⟩ := hcheck
  obtain ⟨group, hgroup⟩ := Option.isSome_iff_exists.mp hvisible
  have hagrees := hall pairs deployed db _ ownerContext ⟨rfl, rfl⟩ hrun (by decide)
    (by decide) row hrow
  have hwritable := (evaluationAgrees_iff (by decide) (by decide) hrow).mp hagrees
  rcases hwritable hown group hgroup with hmanage' | hgrants
  · have hfalse : ownerContext.canManage = true := hmanage'
    rw [hmanage] at hfalse
    cases hfalse
  · -- there is no role left that could grant it
    obtain ⟨a, ha, -⟩ := mem_objectPermissions.mp hgrants
    rw [hroles] at ha
    cases ha

end RedTeaming.Conversations.Services
