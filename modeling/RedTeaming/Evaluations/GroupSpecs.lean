import RedTeaming.Evaluations.Groups

/-!
# `RedTeaming.Evaluations.GroupSpecs`: what the handlers of groups do

`Complete` is what a submission demands of a group's own fields and of its organization.
`collectSubmitBlockers` is empty only for a complete group, and a full create makes one.

One `_spec` lemma for each handler says which rows it wrote and what its guards have checked. A
create inserts a complete group (`createEvaluationGroup_spec`), and a draft one in `draft`. A
patch writes the merged row (`updateEvaluationGroup_spec`). The six transitions are `Moved`: along
the table, and to `pending_approval` with a complete group only. No later proof unfolds a handler.
-/

set_option autoImplicit false

namespace RedTeaming.Evaluations

open RedTeaming.Auth
open RedTeaming.Library

/-- The organization is live. -/
def Database.LiveOrganization (db : Database) (o : UUID) : Prop :=
  ∃ row ∈ db.organizations, key row = o ∧ live row = true

/-- `organization` access names an organization, and a named organization is live. -/
def OrganizationRule (db : Database) (accessLevel : EvaluationGroupAccessLevel)
    (organizationId : Option UUID) : Prop :=
  (accessLevel = .organization → organizationId ≠ none) ∧
    ∀ o, organizationId = some o → db.LiveOrganization o

/-- What a submission demands: a title, a description, a start date, a later end date when one is
set, and the organization rule. -/
structure Complete (db : Database) (group : EvaluationGroup) : Prop where
  title : ∃ title, group.title = some title ∧ title ≠ ""
  description : ∃ description, group.description = some description ∧ description ≠ ""
  startDate : group.startDate ≠ none
  endDate : ∀ startDate endDate, group.startDate = some startDate →
    group.endDate = some endDate → startDate < endDate
  organization : OrganizationRule db group.accessLevel group.organizationId

section
variable {db db' : Database} {settings : Settings} {ctx : Context} {group : EvaluationGroup}
  {groupId : UUID}

/-- A live lookup succeeds for a live organization. -/
theorem findLive_organization_isSome {o : UUID} :
    (findLive db.organizations o).isSome = true ↔ db.LiveOrganization o := by
  simp only [Option.isSome_iff_exists, findLive_eq_some, Database.LiveOrganization]

/-- The organization guard checks the organization rule. -/
theorem validateGroupOrg_eq_ok {accessLevel : EvaluationGroupAccessLevel}
    {organizationId : Option UUID} {u : Unit} :
    validateGroupOrg db accessLevel organizationId = .ok u ↔
      OrganizationRule db accessLevel organizationId := by
  unfold validateGroupOrg OrganizationRule
  cases organizationId with
  | none => simp [bind_eq_ok, pure, Except.pure]
  | some o => simp [bind_eq_ok, findLive_organization_isSome]

/-- The organization guard fails with a `badRequest`. -/
theorem validateGroupOrg_error {accessLevel : EvaluationGroupAccessLevel}
    {organizationId : Option UUID} {e : ApiError}
    (h : validateGroupOrg db accessLevel organizationId = .error e) :
    ∃ detail, e = .badRequest detail := by
  unfold validateGroupOrg check at h
  split at h
  · cases organizationId with
    | none => cases h
    | some o =>
      simp only [bind, Except.bind] at h
      split at h
      · cases h
      · cases h
        exact ⟨_, rfl⟩
  · cases h
    exact ⟨_, rfl⟩

/-- A date guard that passes leaves the end after the start. -/
theorem lt_of_datesOutOfOrder {startDate endDate : Date}
    (h : datesOutOfOrder startDate (some endDate) = false) : startDate < endDate := by
  simp only [datesOutOfOrder, decide_eq_false_iff_not] at h
  exact not_le.mp h

/-- `datesInOrder` says what its name says. -/
theorem lt_of_datesInOrder {startDate endDate : Option Date} {s e : Date}
    (h : datesInOrder startDate endDate = true) (hs : startDate = some s)
    (he : endDate = some e) : s < e := by
  subst hs he
  exact lt_of_datesOutOfOrder (by simpa [datesInOrder] using h)

/-- A text that is set and not empty. -/
theorem exists_of_not_isEmpty {text : Option String} (h : ¬ (text.getD "").isEmpty = true) :
    ∃ s, text = some s ∧ s ≠ "" := by
  cases text with
  | none => exact absurd rfl h
  | some s =>
    refine ⟨s, rfl, ?_⟩
    rintro rfl
    exact h rfl

/-- A group without submit blockers is complete. -/
theorem complete_of_submittable {today : Date}
    (h : assertGroupSubmittable db today group = .ok ()) : Complete db group := by
  simp only [assertGroupSubmittable, check_eq_ok, List.isEmpty_iff, collectSubmitBlockers,
    List.append_eq_nil_iff] at h
  obtain ⟨⟨⟨⟨hfields, hdates⟩, horganization⟩, -⟩, -⟩ := h
  have hmissing : missingFields group = [] := by
    by_contra hne
    rw [if_neg (by simpa using hne)] at hfields
    cases hfields
  simp only [missingFields, List.append_eq_nil_iff, ite_eq_right_iff, List.cons_ne_self,
    imp_false] at hmissing
  obtain ⟨⟨htitle, hdescription⟩, hstart⟩ := hmissing
  refine ⟨exists_of_not_isEmpty htitle, exists_of_not_isEmpty hdescription, ?_, ?_, ?_⟩
  · intro hnone
    exact hstart (by rw [hnone]; rfl)
  · intro startDate endDate hs he
    have horder : datesOutOfOrder startDate (some endDate) = false := by
      simp only [dateBlockers, hs, he, List.append_eq_nil_iff, ite_eq_right_iff, reduceCtorEq,
        imp_false] at hdates
      simpa using hdates.2
    exact lt_of_datesOutOfOrder horder
  · rw [← validateGroupOrg_eq_ok (u := ())]
    cases hguard : validateGroupOrg db group.accessLevel group.organizationId with
    | ok u => rfl
    | error e =>
      obtain ⟨detail, rfl⟩ := validateGroupOrg_error hguard
      simp [organizationBlocker, hguard] at horganization

/-! ### What the handlers of groups do -/

/-- The group that a request may see is live. -/
theorem findLive_of_getEvaluationGroup {callerId : UserId} {canManage : Bool}
    (h : getEvaluationGroup db groupId callerId canManage = .ok group) :
    findLive db.groups groupId = some group := by
  unfold getEvaluationGroup at h
  split at h
  · rename_i found hfound
    cases h
    exact (Option.filter_eq_some_iff.mp hfound).1
  · cases h

/-- The group that a request may write is live. -/
theorem findLive_of_writableGroup (h : writableGroup db ctx groupId = .ok group) :
    findLive db.groups groupId = some group := by
  simp only [writableGroup, bind_eq_ok] at h
  obtain ⟨found, hfound, -, -, h⟩ := h
  cases h
  exact findLive_of_getEvaluationGroup hfound

/-- A new group is one row of the table, and a role on it. -/
theorem persistNewGroup_spec (h : persistNewGroup db ctx group = .ok db') :
    ∃ groups roleAssignments, flush db.groups [group] = .ok groups ∧
      db' = { db with groups, roleAssignments } := by
  simp only [persistNewGroup, bind_eq_ok] at h
  obtain ⟨groups, hgroups, roleAssignments, -, h⟩ := h
  cases h
  exact ⟨groups, roleAssignments, hgroups, rfl⟩

/-- The tables after a group was inserted, with its subset. -/
def Inserted (db : Database) (ctx : Context) (row : EvaluationGroup) (modelIds : List UUID)
    (db' : Database) : Prop :=
  ∃ groups roleAssignments, flush db.groups [row] = .ok groups ∧
    syncGroupModels { db with groups, roleAssignments } ctx row.id modelIds = .ok db'

/-- A create inserts a complete group. -/
theorem createEvaluationGroup_spec {form : EvaluationGroupCreate}
    (h : createEvaluationGroup db settings ctx form = .ok db') :
    ∃ row, Complete db row ∧ live row = true ∧
      Inserted db ctx row form.allowedModelIds.val db' := by
  simp only [createEvaluationGroup, bind_eq_ok, check_eq_ok] at h
  obtain ⟨-, -, -, hdates, _, horganization, -, -, dataLicenseId, -, db₁, hpersist, hsync⟩ := h
  obtain ⟨groups, roleAssignments, hinsert, rfl⟩ := persistNewGroup_spec hpersist
  refine ⟨form.row ctx dataLicenseId, ?_, rfl, groups, roleAssignments, hinsert, hsync⟩
  refine ⟨⟨_, rfl, form.title.property.1⟩, ⟨_, rfl, form.description.property⟩, ?_, ?_, ?_⟩
  · intro hnone
    cases hnone
  · intro startDate endDate hs he
    have hs' : some form.startDate = some startDate := hs
    have he' : form.endDate = some endDate := he
    cases hs'
    rw [he'] at hdates
    exact lt_of_datesOutOfOrder (by simpa using hdates)
  · exact validateGroupOrg_eq_ok.mp horganization

/-- A draft is inserted in `draft`. -/
theorem createEvaluationGroupDraft_spec {form : EvaluationGroupDraftCreate}
    (h : createEvaluationGroupDraft db settings ctx form = .ok db') :
    ∃ row, row.status = .draft ∧ live row = true ∧
      Inserted db ctx row form.allowedModelIds db' := by
  simp only [createEvaluationGroupDraft, bind_eq_ok, check_eq_ok] at h
  obtain ⟨-, -, -, -, dataLicenseId, -, db₁, hpersist, hsync⟩ := h
  obtain ⟨groups, roleAssignments, hinsert, rfl⟩ := persistNewGroup_spec hpersist
  exact ⟨form.row ctx dataLicenseId, rfl, rfl, groups, roleAssignments, hinsert, hsync⟩

/-- The subset sync of a patch writes the subset only. -/
theorem syncModels?_spec {modelIds : Option NonEmptyIds}
    (h : syncModels? db ctx groupId modelIds = .ok db') :
    db' = { db with allowedModels := db'.allowedModels } := by
  cases modelIds with
  | none =>
    cases h
    rfl
  | some modelIds => exact (syncGroupModels_spec h).1

/-- A patch writes the merged row of a live group. The merged row keeps the date order and the
organization rule. -/
theorem updateEvaluationGroup_spec {changes : EvaluationGroupUpdate}
    (h : updateEvaluationGroup db settings ctx groupId changes = .ok db') :
    ∃ group db₁, findLive db.groups groupId = some group ∧
      syncModels? db ctx group.id changes.allowedModelIds = .ok db₁ ∧
      datesInOrder (changes.row settings group).startDate (changes.row settings group).endDate =
        true ∧
      OrganizationRule db (changes.row settings group).accessLevel
        (changes.row settings group).organizationId ∧
      db' = { db₁ with
        groups := db.groups.modify group.id (changes.row settings) fun _ => rfl } := by
  simp only [updateEvaluationGroup, bind_eq_ok, check_eq_ok] at h
  obtain ⟨group, hgroup, -, -, -, -, db₁, hsync, -, hdates, _, horganization, h⟩ := h
  have hdb₁ := syncModels?_spec hsync
  have hrule := validateGroupOrg_eq_ok.mp horganization
  rw [hdb₁] at hrule
  refine ⟨group, db₁, findLive_of_writableGroup hgroup, hsync, hdates, hrule, ?_⟩
  have hgroups : db₁.groups = db.groups := by rw [hdb₁]
  rw [← hgroups]
  split at h
  · obtain ⟨-, -, h⟩ := bind_eq_ok.mp h
    cases h
    rfl
  · cases h
    rfl

/-- A transition moves a live group along the table. A submission leaves a complete group. -/
def Moved (db db' : Database) : Prop :=
  ∃ group target reason, group ∈ db.groups ∧ target ∈ publicationTransitions group.status ∧
    (target = .pendingApproval → Complete db group) ∧
    db' = setStatus db group.id target reason

/-- The transition guard passes along the table. -/
theorem assertTransition_eq_ok {target : PublicationStatus} {u : Unit} :
    assertTransition group target = .ok u ↔ target ∈ publicationTransitions group.status := by
  rw [assertTransition, check_eq_ok, List.contains_iff_mem]

/-- The group that a lookup finds is in the table. -/
theorem mem_of_findLive (h : findLive db.groups groupId = some group) : group ∈ db.groups :=
  (findLive_eq_some.mp h).1

/-- The groups after a status write. -/
theorem mem_setStatus {status : PublicationStatus} {reason : Option String → Option String} :
    group ∈ (setStatus db groupId status reason).groups ↔
      (∃ g ∈ db.groups, key g = groupId ∧
        { g with status, rejectionReason := reason g.rejectionReason } = group) ∨
      group ∈ db.groups ∧ key group ≠ groupId := by
  rw [setStatus, Table.mem_modify]

/-- A status write after the transition guard is a transition. -/
theorem moved_of_assertTransition {target : PublicationStatus} {u : Unit}
    (hfind : findLive db.groups groupId = some group)
    (htarget : assertTransition group target = .ok u)
    (hsubmit : target = .pendingApproval → Complete db group)
    (reason : Option String → Option String) :
    Moved db (setStatus db group.id target reason) :=
  ⟨group, target, reason, mem_of_findLive hfind, assertTransition_eq_ok.mp htarget, hsubmit, rfl⟩

theorem submitEvaluationGroup_spec {x : Database × PublicationStatus}
    (h : submitEvaluationGroup db ctx groupId = .ok x) : Moved db x.1 := by
  simp only [submitEvaluationGroup, bind_eq_ok] at h
  obtain ⟨group, hgroup, _, htarget, _, hsubmit, h⟩ := h
  cases h
  exact moved_of_assertTransition (findLive_of_writableGroup hgroup) htarget
    (fun _ => complete_of_submittable hsubmit) _

theorem publishEvaluationGroup_spec {x : Database × PublicationStatus}
    (h : publishEvaluationGroup db ctx groupId = .ok x) : Moved db x.1 := by
  simp only [publishEvaluationGroup, bind_eq_ok] at h
  obtain ⟨group, hgroup, _, htarget, -, -, h⟩ := h
  cases h
  exact moved_of_assertTransition (findLive_of_writableGroup hgroup) htarget nofun _

theorem finishEvaluationGroup_spec {x : Database × PublicationStatus}
    (h : finishEvaluationGroup db ctx groupId = .ok x) : Moved db x.1 := by
  simp only [finishEvaluationGroup, bind_eq_ok] at h
  obtain ⟨group, hgroup, _, htarget, h⟩ := h
  cases h
  exact moved_of_assertTransition (findLive_of_writableGroup hgroup) htarget nofun _

theorem approveEvaluationGroup_spec {x : Database × PublicationStatus}
    (h : approveEvaluationGroup db ctx groupId = .ok x) : Moved db x.1 := by
  simp only [approveEvaluationGroup, bind_eq_ok] at h
  obtain ⟨group, hgroup, _, htarget, h⟩ := h
  cases h
  exact moved_of_assertTransition (findLive_of_writableGroup hgroup) htarget nofun
    fun _ => none

theorem requestChangesForEvaluationGroup_spec {x : Database × PublicationStatus}
    (h : requestChangesForEvaluationGroup db ctx groupId = .ok x) : Moved db x.1 := by
  simp only [requestChangesForEvaluationGroup, bind_eq_ok] at h
  obtain ⟨group, hgroup, _, htarget, h⟩ := h
  cases h
  exact moved_of_assertTransition (findLive_of_getEvaluationGroup hgroup) htarget nofun
    fun _ => none

theorem rejectEvaluationGroup_spec {reason : NonEmptyString} {x : Database × PublicationStatus}
    (h : rejectEvaluationGroup db ctx groupId reason = .ok x) : Moved db x.1 := by
  simp only [rejectEvaluationGroup, bind_eq_ok] at h
  obtain ⟨group, hgroup, _, htarget, h⟩ := h
  cases h
  exact moved_of_assertTransition (findLive_of_getEvaluationGroup hgroup) htarget nofun
    fun _ => some reason.val

end

end RedTeaming.Evaluations
