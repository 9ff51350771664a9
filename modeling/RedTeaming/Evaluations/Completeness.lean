import RedTeaming.Evaluations.EvaluationSpecs
import RedTeaming.Evaluations.System

/-!
# `RedTeaming.Evaluations.Completeness`: a submitted group stays complete, but for one edit

A group enters review complete: a submission checks it, and so does a full create. The
completeness is not checked again. `updateEvaluationGroup` accepts a patch in any status, and a
patch may send an explicit `null` for the description or the start date, as a draft may. So a
patch can blank a group in review, an approved group, or a published one (`Blanks`).

`submitted_step_iff` says that this is the only way out: a request leaves the submitted groups
complete exactly when it is no such patch. `completeness_survives` is the theorem about runs, and
`blanked_after_submission` the run that breaks the unconditional statement.

`GroupEffect` lists what a request other than a patch does to the groups and the organizations.
`groupEffect_of_handle` proves the list complete.
-/

set_option autoImplicit false

namespace RedTeaming.Evaluations

open RedTeaming.Auth
open RedTeaming.Library

/-- What a request that is no patch of a group does to the groups and the organizations. -/
inductive GroupEffect (db : Database) : Database → Prop
  | created {db' : Database} (row : EvaluationGroup)
      (hinsert : flush db.groups [row] = .ok db'.groups) (hlive : live row = true)
      (hstatus : row.status = .draft ∨ Complete db row)
      (horganizations : db'.organizations = db.organizations) : GroupEffect db db'
  | moved {db' : Database} (h : Moved db db') : GroupEffect db db'
  | organizationDeleted {db' : Database} (ctx : Context) (o : UUID)
      (hfree : referencingGroups db o = []) (hgroups : db'.groups = db.groups)
      (horganizations : db'.organizations =
        softDeleteRow db.organizations ctx.now ctx.callerId o) : GroupEffect db db'
  | other {db' : Database} (hgroups : db'.groups = db.groups)
      (horganizations : ∀ o, db.LiveOrganization o → db'.LiveOrganization o) :
      GroupEffect db db'

section
variable {db db' : Database} {settings : Settings} {ctx : Context} {group : EvaluationGroup}

/-! ### What one request does -/

/-- A request that touches neither table. -/
theorem GroupEffect.frame (hgroups : db'.groups = db.groups)
    (horganizations : db'.organizations = db.organizations) : GroupEffect db db' := by
  refine .other hgroups fun o ho => ?_
  unfold Database.LiveOrganization
  rw [horganizations]
  exact ho

/-- An inserted group, complete or a draft, is a created one. -/
theorem GroupEffect.of_inserted {row : EvaluationGroup} {modelIds : List UUID}
    (h : Inserted db ctx row modelIds db') (hlive : live row = true)
    (hstatus : row.status = .draft ∨ Complete db row) : GroupEffect db db' := by
  obtain ⟨groups, roleAssignments, hinsert, hsync⟩ := h
  have hdb := (syncGroupModels_spec hsync).1
  have hgroups : db'.groups = groups := by rw [hdb]
  have horganizations : db'.organizations = db.organizations := by rw [hdb]
  exact .created row (hgroups ▸ hinsert) hlive hstatus horganizations

/-- A live organization stays live when another row, or its own, is edited without a tombstone. -/
theorem liveOrganization_modify {o id : UUID} {f : Organization → Organization}
    (hf : ∀ r, key (f r) = key r) (hkeeps : ∀ r, live r = true → live (f r) = true)
    (horganizations : db'.organizations = db.organizations.modify id f hf)
    (h : db.LiveOrganization o) : db'.LiveOrganization o := by
  obtain ⟨row, hrow, hkey, hlive⟩ := h
  unfold Database.LiveOrganization
  rw [horganizations]
  by_cases hid : key row = id
  · have hmem : f row ∈ db.organizations.modify id f hf :=
      Table.mem_modify.mpr (Or.inl ⟨row, hrow, hid, rfl⟩)
    exact ⟨f row, hmem, (hf row).trans hkey, hkeeps row hlive⟩
  · exact ⟨row, Table.mem_modify.mpr (Or.inr ⟨hrow, hid⟩), hkey, hlive⟩

/-- What a handler other than the patch of a group does to the groups and the organizations. -/
theorem groupEffect_of_handle {r : Request}
    (hne : ∀ groupId changes, r ≠ .updateGroup groupId changes)
    (h : r.handle settings ctx db = .ok db') : GroupEffect db db' := by
  cases r with
  | createGroup form =>
    obtain ⟨row, hcomplete, hlive, hinserted⟩ := createEvaluationGroup_spec h
    exact .of_inserted hinserted hlive (Or.inr hcomplete)
  | createDraft form =>
    obtain ⟨row, hdraft, hlive, hinserted⟩ := createEvaluationGroupDraft_spec h
    exact .of_inserted hinserted hlive (Or.inl hdraft)
  | duplicateGroup groupId includeChildren =>
    obtain ⟨source, -, hgroups, horganizations, -⟩ := duplicateEvaluationGroup_spec h
    exact .created _ hgroups rfl (Or.inl rfl) horganizations
  | updateGroup groupId changes => exact absurd rfl (hne groupId changes)
  | submit groupId =>
    obtain ⟨x, hx, rfl⟩ := map_eq_ok.mp h
    exact .moved (submitEvaluationGroup_spec hx)
  | approve groupId =>
    obtain ⟨x, hx, rfl⟩ := map_eq_ok.mp h
    exact .moved (approveEvaluationGroup_spec hx)
  | requestChanges groupId =>
    obtain ⟨x, hx, rfl⟩ := map_eq_ok.mp h
    exact .moved (requestChangesForEvaluationGroup_spec hx)
  | reject groupId reason =>
    obtain ⟨x, hx, rfl⟩ := map_eq_ok.mp h
    exact .moved (rejectEvaluationGroup_spec hx)
  | publish groupId =>
    obtain ⟨x, hx, rfl⟩ := map_eq_ok.mp h
    exact .moved (publishEvaluationGroup_spec hx)
  | finish groupId =>
    obtain ⟨x, hx, rfl⟩ := map_eq_ok.mp h
    exact .moved (finishEvaluationGroup_spec hx)
  | createEvaluation form =>
    obtain ⟨-, -, -, -, evaluations, -, rfl⟩ := createEvaluation_spec h
    exact .frame rfl rfl
  | duplicateEvaluation evaluationId includeChildren =>
    obtain ⟨-, -, -, -, -, -, -, hsame⟩ := duplicateEvaluation_spec h
    exact .frame hsame.groups hsame.organizations
  | deleteEvaluation evaluationId =>
    rw [deleteEvaluation_spec h]
    exact .frame rfl rfl
  | restoreEvaluation evaluationId =>
    obtain ⟨-, -, -, -, -, rfl⟩ := restoreEvaluation_spec h
    exact .frame rfl rfl
  | assignModel evaluationId form =>
    obtain ⟨-, -, -, -, -, -, -, assignments, -, rfl⟩ := assignModelEndpoint_spec h
    exact .frame rfl rfl
  | unassignModel evaluationId assignmentId =>
    rw [unassignModel_spec h]
    exact .frame rfl rfl
  | restoreAssignment evaluationId assignmentId =>
    obtain ⟨-, -, -, -, -, -, -, -, rfl⟩ := restoreAssignment_spec h
    exact .frame rfl rfl
  | createScenario evaluationId form =>
    obtain ⟨scenarios, rfl⟩ := createScenario_spec h
    exact .frame rfl rfl
  | deleteScenario evaluationId scenarioId =>
    obtain ⟨scenarios, rfl⟩ := deleteScenario_spec h
    exact .frame rfl rfl
  | restoreScenario evaluationId scenarioId =>
    obtain ⟨scenarios, rfl⟩ := restoreScenario_spec h
    exact .frame rfl rfl
  | deleteModel modelId =>
    obtain ⟨m, models, rfl⟩ := deleteModel_spec h
    exact .frame rfl rfl
  | restoreModel modelId =>
    obtain ⟨models, rfl⟩ := restoreModel_spec h
    exact .frame rfl rfl
  | createOrganization name description =>
    obtain ⟨row, organizations, hflush, rfl⟩ := createOrganization_spec h
    refine .other rfl ?_
    rintro o ⟨row, hrow, hkey, hlive⟩
    exact ⟨row, (mem_flush hflush).mpr (Or.inl hrow), hkey, hlive⟩
  | updateOrganization organizationId changes =>
    obtain ⟨id, rfl⟩ := updateOrganization_spec h
    have hkey (r : Organization) : key (changes.applyTo r) = key r := rfl
    have hkeeps (r : Organization) (hlive : live r = true) : live (changes.applyTo r) = true :=
      hlive
    exact .other rfl fun o ho => liveOrganization_modify hkey hkeeps rfl ho
  | deleteOrganization organizationId =>
    obtain ⟨id, hfree, rfl⟩ := softDeleteOrganization_spec h
    exact .organizationDeleted ctx id hfree rfl rfl
  | restoreOrganization organizationId =>
    obtain ⟨id, rfl⟩ := restoreOrganization_spec h
    exact .other rfl fun o ho =>
      liveOrganization_modify key_restore (fun _ _ => live_restore _) rfl ho
  | assignMember organizationId userId =>
    obtain ⟨userOrganization, rfl⟩ := assignMember_spec h
    exact .frame rfl rfl
  | removeMember organizationId userId =>
    obtain ⟨userOrganization, rfl⟩ := removeOrganizationMember_spec h
    exact .frame rfl rfl
  | identity auth roleAssignments userOrganization =>
    cases h
    exact .frame rfl rfl

/-! ### What one request keeps -/

/-- The statuses of a group that was submitted, and neither bounced, rejected, nor finished. -/
def submittedStatuses : List PublicationStatus := [.pendingApproval, .approved, .published]

/-- Every group in review, approved, or published is complete. -/
def Submitted (db : Database) : Prop :=
  ∀ group ∈ db.groups, group.status ∈ submittedStatuses → Complete db group

/-- No operation deletes a group. -/
def AllGroupsLive (db : Database) : Prop := ∀ group ∈ db.groups, live group = true

/-- The request is a patch that sends `null` for the description or the start date of a group in
review, an approved group, or a published one. -/
def Blanks (db : Database) (l : Label) : Prop :=
  ∃ groupId changes group, l.request = .updateGroup groupId changes ∧
    findLive db.groups groupId = some group ∧ group.status ∈ submittedStatuses ∧
    (changes.description = some none ∨ changes.startDate = some none)

/-- Completeness reads the organizations only to find a live one. -/
theorem Complete.mono (h : Complete db group)
    (horganizations : ∀ o, db.LiveOrganization o → db'.LiveOrganization o) :
    Complete db' group :=
  ⟨h.title, h.description, h.startDate, h.endDate, h.organization.1,
    fun o ho => horganizations o (h.organization.2 o ho)⟩

/-- The status is no part of completeness. -/
theorem Complete.setStatus (h : Complete db group) (status : PublicationStatus)
    (rejectionReason : Option String) : Complete db { group with status, rejectionReason } :=
  ⟨h.title, h.description, h.startDate, h.endDate, h.organization⟩

/-- A group reaches a submitted status from another one, or by a submission. -/
theorem submitted_or_submission {status target : PublicationStatus}
    (htarget : target ∈ publicationTransitions status) (hsubmitted : target ∈ submittedStatuses) :
    target = .pendingApproval ∨ status ∈ submittedStatuses := by
  cases status <;> cases target <;> revert htarget hsubmitted <;> decide

/-- A group that references no deleted organization stays complete when one is deleted. -/
theorem Complete.of_organizationDeleted {o : UUID} (h : Complete db group)
    (hgroup : group ∈ db.groups) (hlive : live group = true)
    (hfree : referencingGroups db o = [])
    (horganizations : db'.organizations =
      softDeleteRow db.organizations ctx.now ctx.callerId o) : Complete db' group := by
  refine ⟨h.title, h.description, h.startDate, h.endDate, h.organization.1, fun o' ho' => ?_⟩
  obtain ⟨row, hrow, hkey, hrowLive⟩ := h.organization.2 o' ho'
  have hne : key row ≠ o := by
    intro hsame
    have href : group ∈ referencingGroups db o := by
      simp only [referencingGroups, List.mem_filter, mem_liveSelect, beq_iff_eq]
      exact ⟨⟨hgroup, hlive⟩, by rw [ho', ← hkey, hsame]⟩
    rw [hfree] at href
    cases href
  unfold Database.LiveOrganization
  rw [horganizations]
  exact ⟨row, (mem_softDeleteRow hrowLive).mpr ⟨hrow, hne⟩, hkey, hrowLive⟩

/-- A request other than a patch keeps the submitted groups complete. -/
theorem GroupEffect.submitted (h : GroupEffect db db') (hlive : AllGroupsLive db)
    (hdb : Submitted db) : Submitted db' := by
  intro group hgroup hstatus
  cases h with
  | created row hinsert hrowLive hrow horganizations =>
    have hmono (o : UUID) (ho : db.LiveOrganization o) : db'.LiveOrganization o := by
      unfold Database.LiveOrganization
      rw [horganizations]
      exact ho
    rcases (mem_flush hinsert).mp hgroup with hold | hnew
    · exact (hdb group hold hstatus).mono hmono
    · rw [List.mem_singleton] at hnew
      subst hnew
      rcases hrow with hdraft | hcomplete
      · rw [hdraft] at hstatus
        exact absurd hstatus (by decide)
      · exact hcomplete.mono hmono
  | moved h =>
    obtain ⟨source, target, reason, hsource, htarget, hsubmit, rfl⟩ := h
    rcases mem_setStatus.mp hgroup with ⟨g, hg, hkey, rfl⟩ | ⟨hold, -⟩
    · have hsame : g = source := Table.eq_of_key_eq hg hsource hkey
      subst hsame
      have hcomplete : Complete db g := by
        rcases submitted_or_submission htarget hstatus with hpending | hbefore
        · exact hsubmit hpending
        · exact hdb g hg hbefore
      exact (hcomplete.setStatus target (reason g.rejectionReason)).mono fun _ ho => ho
    · exact (hdb group hold hstatus).mono fun _ ho => ho
  | organizationDeleted ctx o hfree hgroups horganizations =>
    rw [hgroups] at hgroup
    exact (hdb group hgroup hstatus).of_organizationDeleted hgroup (hlive group hgroup) hfree
      horganizations
  | other hgroups horganizations =>
    rw [hgroups] at hgroup
    exact (hdb group hgroup hstatus).mono horganizations

/-- A patch that blanks neither field merges a complete group into a complete one. -/
theorem Complete.patch {changes : EvaluationGroupUpdate} (h : Complete db group)
    (hdescription : changes.description ≠ some none) (hstart : changes.startDate ≠ some none)
    (hdates : datesInOrder (changes.row settings group).startDate
      (changes.row settings group).endDate = true)
    (horganization : OrganizationRule db (changes.row settings group).accessLevel
      (changes.row settings group).organizationId) :
    Complete db (changes.row settings group) := by
  refine ⟨?_, ?_, ?_, fun _ _ => lt_of_datesInOrder hdates, horganization⟩
  · show ∃ title, (changes.title.map fun title => some title.val).getD group.title =
      some title ∧ _
    cases changes.title with
    | none => exact h.title
    | some title => exact ⟨title.val, rfl, title.property.1⟩
  · show ∃ d, (changes.description.map fun d => d.map Subtype.val).getD group.description =
      some d ∧ _
    rcases hsent : changes.description with _ | _ | d
    · exact h.description
    · exact absurd hsent hdescription
    · exact ⟨d.val, rfl, d.property⟩
  · show changes.startDate.getD group.startDate ≠ none
    rcases hsent : changes.startDate with _ | _ | d
    · exact h.startDate
    · exact absurd hsent hstart
    · exact nofun

/-- A patch that blanks a field leaves no complete group. -/
theorem not_complete_of_blanked {changes : EvaluationGroupUpdate}
    (hblank : changes.description = some none ∨ changes.startDate = some none) :
    ¬ Complete db (changes.row settings group) := by
  intro hcomplete
  rcases hblank with hdescription | hstart
  · obtain ⟨d, hd, -⟩ := hcomplete.description
    have hnone : (changes.row settings group).description = none := by
      simp [EvaluationGroupUpdate.row, EvaluationGroupUpdate.applyTo, hdescription]
    rw [hnone] at hd
    cases hd
  · refine hcomplete.startDate ?_
    simp [EvaluationGroupUpdate.row, EvaluationGroupUpdate.applyTo, hstart]

/-- A patch keeps the id. -/
theorem key_row (changes : EvaluationGroupUpdate) (g : EvaluationGroup) :
    key (changes.row settings g) = key g := rfl

/-- The groups after a patch: the merged row, and the other groups. -/
theorem mem_patched {changes : EvaluationGroupUpdate} {g : EvaluationGroup}
    (hgroup : group ∈ db.groups) :
    g ∈ db.groups.modify group.id (changes.row settings) (key_row changes) ↔
      changes.row settings group = g ∨ g ∈ db.groups ∧ key g ≠ group.id := by
  rw [Table.mem_modify]
  refine or_congr ⟨?_, ?_⟩ Iff.rfl
  · rintro ⟨g₀, hg₀, hkey, rfl⟩
    rw [Table.eq_of_key_eq hg₀ hgroup hkey]
  · intro hg
    exact ⟨group, hgroup, rfl, hg⟩

/-- A request leaves the submitted groups complete exactly when it blanks none of them. -/
theorem submitted_step_iff {l : Label} (hlive : AllGroupsLive db) (hdb : Submitted db)
    (h : step settings db l = some db') : Submitted db' ↔ ¬ Blanks db l := by
  have hhandle := handle_of_step h
  by_cases hne : ∀ groupId changes, l.request ≠ .updateGroup groupId changes
  · constructor
    · rintro - ⟨groupId, changes, -, hrequest, -⟩
      exact hne groupId changes hrequest
    · intro _
      exact (groupEffect_of_handle hne hhandle).submitted hlive hdb
  · push Not at hne
    obtain ⟨groupId, changes, hrequest⟩ := hne
    rw [hrequest] at hhandle
    obtain ⟨group, db₁, hfind, hsync, hdates, horganization, rfl⟩ :=
      updateEvaluationGroup_spec hhandle
    have hgroup := mem_of_findLive hfind
    have horganizations : db₁.organizations = db.organizations := by rw [syncModels?_spec hsync]
    have hmono (o : UUID) : db.LiveOrganization o ↔ db₁.LiveOrganization o := by
      rw [Database.LiveOrganization, Database.LiveOrganization, horganizations]
    constructor
    · rintro hafter ⟨groupId', changes', group', hrequest', hfind', hstatus, hblank⟩
      rw [hrequest] at hrequest'
      cases hrequest'
      rw [hfind] at hfind'
      cases hfind'
      have hrow := hafter (changes.row settings group)
        ((mem_patched hgroup).mpr (Or.inl rfl)) hstatus
      exact not_complete_of_blanked hblank hrow
    · intro hkeeps g hg hstatus
      rcases (mem_patched hgroup).mp hg with rfl | ⟨hold, -⟩
      · have hblank (hsent : changes.description = some none ∨ changes.startDate = some none) :
            False :=
          hkeeps ⟨groupId, changes, group, hrequest, hfind, hstatus, hsent⟩
        exact ((hdb group hgroup hstatus).patch (fun hsent => hblank (Or.inl hsent))
          (fun hsent => hblank (Or.inr hsent)) hdates horganization).mono fun o => (hmono o).mp
      · exact (hdb g hold hstatus).mono fun o => (hmono o).mp

/-- No request deletes a group. -/
theorem allGroupsLive_step {l : Label} (hlive : AllGroupsLive db)
    (h : step settings db l = some db') : AllGroupsLive db' := by
  have hhandle := handle_of_step h
  intro group hgroup
  by_cases hne : ∀ groupId changes, l.request ≠ .updateGroup groupId changes
  · cases groupEffect_of_handle hne hhandle with
    | created row hinsert hrowLive hstatus horganizations =>
      rcases (mem_flush hinsert).mp hgroup with hold | hnew
      · exact hlive group hold
      · rw [List.mem_singleton.mp hnew]
        exact hrowLive
    | moved h =>
      obtain ⟨source, target, reason, hsource, -, -, rfl⟩ := h
      rcases mem_setStatus.mp hgroup with ⟨g, hg, -, rfl⟩ | ⟨hold, -⟩
      · exact hlive g hg
      · exact hlive group hold
    | organizationDeleted ctx o hfree hgroups horganizations =>
      rw [hgroups] at hgroup
      exact hlive group hgroup
    | other hgroups horganizations =>
      rw [hgroups] at hgroup
      exact hlive group hgroup
  · push Not at hne
    obtain ⟨groupId, changes, hrequest⟩ := hne
    rw [hrequest] at hhandle
    obtain ⟨source, db₁, hfind, -, -, -, rfl⟩ := updateEvaluationGroup_spec hhandle
    rcases (mem_patched (mem_of_findLive hfind)).mp hgroup with rfl | ⟨hold, -⟩
    · exact hlive source (mem_of_findLive hfind)
    · exact hlive group hold

end

/-! ### Runs -/

/-- In a run from a deployment without groups, every submitted group is complete in every state
exactly when no request blanks a description or a start date of a submitted group. -/
theorem completeness_survives (settings : Settings) (db db' : Database) (ls : List Label)
    (hfresh : NoGroups db) (hrun : run (step settings) db ls = some db') :
    Always (step settings) Submitted db ls ↔
      Along (step settings) (fun db l => ¬ Blanks db l) db ls := by
  have hnone (group : EvaluationGroup) (hgroup : group ∈ db.groups) : False := by
    rw [← Table.mem_rows, hfresh.groups] at hgroup
    cases hgroup
  exact always_iff_along (I := AllGroupsLive) (fun _ _ _ h _ => allGroupsLive_step h)
    (fun _ _ _ => submitted_step_iff) (fun group hgroup => (hnone group hgroup).elim)
    (fun group hgroup => (hnone group hgroup).elim) hrun

/-- A group is created in review, and its title is edited. It is complete throughout. -/
theorem completeness_survives_rename :
    Always (step thirtyDays) Submitted deployed
      [.byRoot 30 (.createGroup challenge),
        .byRoot 31 (.updateGroup 30 { title := some ⟨"Renamed", by decide⟩ })] := by
  have hany : (run (step thirtyDays) deployed [.byRoot 30 (.createGroup challenge),
      .byRoot 31 (.updateGroup 30 { title := some ⟨"Renamed", by decide⟩ })]).any
        (fun _ => true) = true := by decide +kernel
  obtain ⟨db', hrun, -⟩ := exists_run_of_any hany
  refine (completeness_survives thirtyDays deployed db' _ noGroups_deployed hrun).mpr ?_
  refine along_of_forall fun l hl db => ?_
  rintro ⟨groupId, changes, group, hrequest, -, -, hblank⟩
  simp only [List.mem_cons, List.not_mem_nil, or_false] at hl
  rcases hl with rfl | rfl
  · cases hrequest
  · cases hrequest
    simp at hblank

/-- A group in review is patched to have no description. -/
theorem blanked_after_submission :
    ¬ ∀ settings db db' ls, NoGroups db → run (step settings) db ls = some db' →
      Always (step settings) Submitted db ls := by
  intro h
  have hany : (run (step thirtyDays) deployed [.byRoot 30 (.createGroup challenge),
      .byRoot 31 (.updateGroup 30 { description := some none })]).any (fun db =>
        db.groups.rows.any fun g => g.status == .pendingApproval && g.description.isNone) =
      true := by decide +kernel
  obtain ⟨db', hrun, hblank⟩ := exists_run_of_any hany
  simp only [List.any_eq_true, Bool.and_eq_true, beq_iff_eq, Option.isNone_iff_eq_none] at hblank
  obtain ⟨group, hgroup, hstatus, hnone⟩ := hblank
  have hsubmitted : Submitted db' :=
    (h thirtyDays deployed db' _ noGroups_deployed hrun).last hrun
  obtain ⟨d, hd, -⟩ := (hsubmitted group hgroup (hstatus ▸ by decide)).description
  rw [hnone] at hd
  cases hd

end RedTeaming.Evaluations
