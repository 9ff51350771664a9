import RedTeaming.Evaluations.Completeness
import RedTeaming.Evaluations.Visibility

/-!
# `RedTeaming.Evaluations.Organizations`: a group of an organization never goes dark

A group with `organization` access is visible to the members of a live organization only. A
tombstoned organization would hide it from everybody, and would block every later patch of it. So
`soft_delete_organization` refuses while a live group names the organization, and every write of a
group checks that the organization is live. A draft is the exception: a break-glass caller may
save one under any organization, and a submission checks it then.

`Ruled` says that every group past `draft` keeps the organization rule. `ruled_step` is its step
lemma, from the effects of `Completeness`. `organization_groups_visible` draws the conclusion for
runs: the members of the organization see the group, in both forms of the visibility rule.
-/

set_option autoImplicit false

namespace RedTeaming.Evaluations

open RedTeaming.Auth
open RedTeaming.Library

/-- Every group past `draft` keeps the organization rule. -/
def Ruled (db : Database) : Prop :=
  ∀ group ∈ db.groups, group.status ≠ .draft →
    OrganizationRule db group.accessLevel group.organizationId

section
variable {db db' : Database} {settings : Settings} {ctx : Context} {group : EvaluationGroup}

/-- The rule reads the organizations only to find a live one. -/
theorem OrganizationRule.mono {accessLevel : EvaluationGroupAccessLevel}
    {organizationId : Option UUID} (h : OrganizationRule db accessLevel organizationId)
    (hmono : ∀ o, organizationId = some o → db.LiveOrganization o → db'.LiveOrganization o) :
    OrganizationRule db' accessLevel organizationId :=
  ⟨h.1, fun o ho => hmono o ho (h.2 o ho)⟩

/-- An organization that a live group names survives the delete of one that no live group
names. -/
theorem liveOrganization_of_softDeleteRow {o o' : UUID} (h : db.LiveOrganization o')
    (hgroup : group ∈ db.groups) (hlive : live group = true)
    (ho' : group.organizationId = some o') (hfree : referencingGroups db o = [])
    (horganizations : db'.organizations =
      softDeleteRow db.organizations ctx.now ctx.callerId o) : db'.LiveOrganization o' := by
  obtain ⟨row, hrow, hkey, hrowLive⟩ := h
  have hne : key row ≠ o := by
    intro hsame
    have hnamed : group ∈ referencingGroups db o := by
      rw [referencingGroups, List.mem_filter, mem_liveSelect, beq_iff_eq, ho', ← hkey, hsame]
      exact ⟨⟨hgroup, hlive⟩, rfl⟩
    rw [hfree] at hnamed
    cases hnamed
  unfold Database.LiveOrganization
  rw [horganizations]
  exact ⟨row, (mem_softDeleteRow hrowLive).mpr ⟨hrow, hne⟩, hkey, hrowLive⟩

/-- A request other than a patch keeps the rule. -/
theorem GroupEffect.ruled (h : GroupEffect db db') (hlive : AllGroupsLive db) (hdb : Ruled db) :
    Ruled db' := by
  intro group hgroup hstatus
  cases h with
  | created row hinsert hrowLive hrow horganizations =>
    have hsame : ∀ o, db.LiveOrganization o → db'.LiveOrganization o := by
      intro o ho
      unfold Database.LiveOrganization
      rw [horganizations]
      exact ho
    rcases (mem_of_flush_singleton hinsert).mp hgroup with hold | rfl
    · exact (hdb group hold hstatus).mono fun o _ => hsame o
    · rcases hrow with hdraft | hcomplete
      · exact absurd hdraft hstatus
      · exact hcomplete.organization.mono fun o _ => hsame o
  | moved h =>
    obtain ⟨source, target, reason, hsource, htarget, hsubmit, rfl⟩ := h
    rcases mem_setStatus.mp hgroup with ⟨g, hg, hkey, rfl⟩ | ⟨hold, -⟩
    · have hsame : g = source := Table.eq_of_key_eq hg hsource hkey
      subst hsame
      -- a draft leaves only into review, and a submission checks the rule
      by_cases hdraft : g.status = .draft
      · rw [hdraft] at htarget
        have hpending : target = .pendingApproval := List.mem_singleton.mp htarget
        exact (hsubmit hpending).organization
      · exact hdb g hg hdraft
    · exact hdb group hold hstatus
  | organizationDeleted ctx o hfree hgroups horganizations =>
    rw [hgroups] at hgroup
    refine (hdb group hgroup hstatus).mono fun o' ho' hliveOrganization => ?_
    exact liveOrganization_of_softDeleteRow hliveOrganization hgroup
      (hlive group hgroup) ho' hfree horganizations
  | other hgroups horganizations =>
    rw [hgroups] at hgroup
    exact (hdb group hgroup hstatus).mono fun o _ => horganizations o

/-- One request keeps the rule. -/
theorem ruled_step {l : Label} (hlive : AllGroupsLive db) (hdb : Ruled db)
    (h : step settings db l = some db') : Ruled db' := by
  have hhandle := handle_of_step h
  by_cases hpatch : ∃ groupId changes, l.request = .updateGroup groupId changes
  · obtain ⟨groupId, changes, hrequest⟩ := hpatch
    rw [hrequest] at hhandle
    obtain ⟨group, db₁, hfind, hsync, -, hrule, rfl⟩ := updateEvaluationGroup_spec hhandle
    have horganizations : db₁.organizations = db.organizations := by rw [syncModels?_spec hsync]
    have hsame : ∀ o, db.LiveOrganization o → db₁.LiveOrganization o := by
      intro o ho
      unfold Database.LiveOrganization
      rw [horganizations]
      exact ho
    intro g hg hstatus
    rcases (mem_patched (mem_of_findLive hfind)).mp hg with rfl | ⟨hold, -⟩
    · exact hrule.mono fun o _ => hsame o
    · exact (hdb g hold hstatus).mono fun o _ => hsame o
  · exact (groupEffect_of_handle (fun groupId changes hsame => hpatch ⟨groupId, changes, hsame⟩)
      hhandle).ruled hlive hdb

/-- What holds of the groups in every state of a run from a deployment without groups. -/
theorem ruled_of_run {db₀ : Database} {ls : List Label} (h₀ : NoGroups db₀)
    (hrun : run (step settings) db₀ ls = some db) : AllGroupsLive db ∧ Ruled db := by
  have hnone (group : EvaluationGroup) (hgroup : group ∈ db₀.groups) : False := by
    rw [← Table.mem_rows, h₀.groups] at hgroup
    cases hgroup
  refine run_invariant (I := fun db => AllGroupsLive db ∧ Ruled db) ?_ ?_ hrun
  · intro db l db' h hstep
    exact ⟨allGroupsLive_step h.1 hstep, ruled_step h.1 h.2 hstep⟩
  · exact ⟨fun group hgroup => (hnone group hgroup).elim,
      fun group hgroup => (hnone group hgroup).elim⟩

/-- A live member of the live organization of a group with `organization` access sees the group,
in both forms of the visibility rule. -/
theorem visible_of_liveOrganization {o : UUID} {caller : SessionUser}
    (haccess : group.accessLevel = .organization) (ho : group.organizationId = some o)
    (hlive : db.LiveOrganization o) (huser : (db.auth.liveUser caller.id).isSome = true)
    (hmember : db.userOrganization caller.id = some o) :
    Sql.selects (db.groupVisibleTo caller.id group) = true ∧
      groupIsVisible (groupContext db caller group) caller = true := by
  have hcaller : db.callerLiveOrganization caller.id = some o :=
    Database.callerLiveOrganization_eq_some.mpr ⟨huser, hmember, hlive⟩
  refine ⟨selects_groupVisibleTo.mpr (Or.inr (Or.inr ⟨haccess, o, ho, hcaller⟩)), ?_⟩
  cases hmanage : callerCanManageGroups caller with
  | true => rw [groupIsVisible, if_pos hmanage]
  | false => exact (groupIsVisible_iff hmanage).mpr (Or.inr (Or.inr ⟨haccess, o, ho, hcaller⟩))

end

/-! ### Runs -/

/-- In every state of a run, an organization that a group past `draft` names is live. When such a
group has `organization` access, every live member of the organization finds it in listings, and
passes the check on it. -/
theorem organization_groups_visible (settings : Settings) (db₀ db : Database) (ls : List Label)
    (h₀ : NoGroups db₀) (hrun : run (step settings) db₀ ls = some db) :
    ∀ group ∈ db.groups, group.status ≠ .draft →
      (∀ o, group.organizationId = some o → db.LiveOrganization o) ∧
      (group.accessLevel = .organization → ∃ o, group.organizationId = some o ∧
        ∀ caller : SessionUser, (db.auth.liveUser caller.id).isSome = true →
          db.userOrganization caller.id = some o →
          Sql.selects (db.groupVisibleTo caller.id group) = true ∧
            groupIsVisible (groupContext db caller group) caller = true) := by
  intro group hgroup hstatus
  obtain ⟨hnamed, hlive⟩ := (ruled_of_run h₀ hrun).2 group hgroup hstatus
  refine ⟨hlive, fun haccess => ?_⟩
  obtain ⟨o, ho⟩ := Option.ne_none_iff_exists'.mp (hnamed haccess)
  exact ⟨o, ho, fun caller huser hmember =>
    visible_of_liveOrganization haccess ho (hlive o ho) huser hmember⟩

/-- A group for the organization 7. -/
def organizationChallenge : EvaluationGroupCreate :=
  { challenge with accessLevel := .organization, organizationId := some 7 }

/-- The group of the organization 7 is created in review. The admin, a member, finds it in
listings. -/
theorem organization_groups_visible_created :
    ∃ db, run (step thirtyDays) deployed [.byRoot 30 (.createGroup organizationChallenge)] =
        some db ∧
      ∃ group ∈ db.groups, group.status = .pendingApproval ∧
        Sql.selects (db.groupVisibleTo Accounts.rootSession.id group) = true := by
  have hany :
      (run (step thirtyDays) deployed [.byRoot 30 (.createGroup organizationChallenge)]).any
      (fun db => decide ((db.auth.liveUser Accounts.rootSession.id).isSome = true ∧
        db.userOrganization Accounts.rootSession.id = some 7) &&
        db.groups.rows.any fun g => decide (g.status = .pendingApproval ∧
          g.accessLevel = .organization ∧ g.organizationId = some 7)) = true := by decide +kernel
  obtain ⟨db, hrun, hcheck⟩ := exists_run_of_any hany
  simp only [Bool.and_eq_true, decide_eq_true_eq, List.any_eq_true] at hcheck
  obtain ⟨⟨huser, hmember⟩, group, hgroup, hstatus, haccess, horganization⟩ := hcheck
  obtain ⟨-, hseen⟩ := organization_groups_visible thirtyDays deployed db _ noGroups_deployed hrun
    group hgroup (by rw [hstatus]; decide)
  obtain ⟨o, ho, hmembers⟩ := hseen haccess
  rw [horganization] at ho
  cases ho
  exact ⟨db, hrun, group, hgroup, hstatus, (hmembers Accounts.rootSession huser hmember).1⟩

end RedTeaming.Evaluations
