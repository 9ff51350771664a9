import RedTeaming.Membership.RoleActivity

/-!
# `RedTeaming.Membership.Members`: every live member has a live, active role on the group

`MembersOk` says that a live user with an assignment on an object holds a live, active role there.
The member requests grant active roles only (`MemberWrite`), and the sole-role guard counts the
members that a deactivation or a deletion of a role would strand. The guard looks at live users. A
member that is a tombstone at that moment is not counted, and `restoreUser` looks at the global
roles only. So the restore of such a user breaks `MembersOk` (`RevivesStranded`), and nothing else
does: `members_hold_active_role`.

`restored_without_role` is a run that breaks it. Bob's only role on a group is deactivated while
Bob is deleted, and Bob is then restored.
-/

set_option autoImplicit false

namespace RedTeaming.Membership

open RedTeaming.Auth
open RedTeaming.Library

/-! ### The live assignments of a user on an object -/

section
variable {rows rows' : List Assignment} {o o' : ObjectId} {u u' : UserId}

theorem mem_liveAssignments {a : Assignment} :
    a ∈ liveAssignments rows o u ↔
      a ∈ rows ∧ a.live = true ∧ a.object = o ∧ a.user = u := by
  simp [liveAssignments, and_assoc]

/-- The rows that a grant inserts are those of its user on its object. -/
theorem liveAssignments_grant (roles : List RoleId) :
    liveAssignments (rows ++ roles.map fun r => { object := o, user := u, role := r }) o' u' =
      liveAssignments rows o' u' ++
        if o' = o ∧ u' = u then roles.map fun r =>
          { object := o, user := u, role := r } else [] := by
  simp only [liveAssignments, List.filter_append, List.append_cancel_left_eq]
  split
  · rename_i h
    obtain ⟨rfl, rfl⟩ := h
    rw [List.filter_eq_self]
    intro a ha
    obtain ⟨r, -, rfl⟩ := List.mem_map.mp ha
    simp [Assignment.live]
  · rename_i h
    rw [List.filter_eq_nil_iff]
    intro a ha
    obtain ⟨r, -, rfl⟩ := List.mem_map.mp ha
    simp only [Assignment.live, Bool.and_eq_true, beq_iff_eq]
    rintro ⟨⟨-, ho⟩, hu⟩
    exact h ⟨ho.symm, hu.symm⟩

/-- A tombstoned row is no live assignment any more. -/
theorem liveAssignments_drop (dropped : List Assignment) (now : Nat) :
    liveAssignments (rows.map fun a => if a ∈ dropped then a.softDelete now else a) o u =
      (liveAssignments rows o u).filter fun a => decide (a ∉ dropped) := by
  induction rows with
  | nil => rfl
  | cons a rows ih =>
    simp only [liveAssignments] at ih
    by_cases ha : a ∈ dropped
    · have hdead : (a.softDelete now).live = false := rfl
      simp only [liveAssignments, List.map_cons, ha, if_true, List.filter_cons, hdead,
        Bool.false_and, Bool.false_eq_true, if_false, ih]
      split <;> simp [ha]
    · simp only [liveAssignments, List.map_cons, ha, if_false, List.filter_cons, ih]
      split <;> simp [ha]

/-- A change of the roles of one user on one object. Each role of `roles` is held afterwards. -/
structure MemberWrite (rows rows' : List Assignment) (o : ObjectId) (u : UserId)
    (roles : List RoleId) : Prop where
  others : ∀ o' u', ¬ (o' = o ∧ u' = u) → liveAssignments rows' o' u' = liveAssignments rows o' u'
  unique : ((liveAssignments rows o u).map Assignment.role).Nodup →
    ((liveAssignments rows' o u).map Assignment.role).Nodup
  held : ∀ r ∈ roles, ∃ a ∈ liveAssignments rows' o u, a.role = r
  users : ∀ a ∈ rows', a.user = u ∨ ∃ b ∈ rows, b.user = a.user

/-- A grant adds roles that the user does not hold. -/
theorem memberWrite_grant {roles : List RoleId} (h : grantRoles rows o u roles = some rows') :
    MemberWrite rows rows' o u roles := by
  unfold grantRoles at h
  split at h
  · rename_i hok
    cases h
    have hown : ∀ r ∈ roles, ∃ a ∈ liveAssignments
        (rows ++ roles.map fun r => { object := o, user := u, role := r }) o u, a.role = r := by
      intro r hr
      refine ⟨{ object := o, user := u, role := r }, ?_, rfl⟩
      rw [liveAssignments_grant, if_pos ⟨rfl, rfl⟩]
      exact List.mem_append_right _ (List.mem_map_of_mem hr)
    refine ⟨?_, ?_, hown, ?_⟩
    · intro o' u' hne
      rw [liveAssignments_grant, if_neg hne, List.append_nil]
    · intro hnodup
      have hids : (roles.map fun r => ({ object := o, user := u, role := r } : Assignment)).map
          Assignment.role = roles := by
        rw [List.map_map]
        exact List.map_id roles
      rw [liveAssignments_grant, if_pos ⟨rfl, rfl⟩, List.map_append, hids]
      refine List.nodup_append.mpr ⟨hnodup, hok.1, ?_⟩
      rintro r hr r' hr' rfl
      obtain ⟨a, ha, rfl⟩ := List.mem_map.mp hr
      exact hok.2 a.role hr' a ha rfl
    · intro a ha
      rcases List.mem_append.mp ha with ha | ha
      · exact Or.inr ⟨a, ha, rfl⟩
      · obtain ⟨r, -, rfl⟩ := List.mem_map.mp ha
        exact Or.inl rfl
  · cases h

/-- A grant leaves the live assignments that are there. -/
theorem mem_of_grant {roles : List RoleId} (h : grantRoles rows o u roles = some rows')
    {a : Assignment} (ha : a ∈ liveAssignments rows o' u') : a ∈ liveAssignments rows' o' u' := by
  unfold grantRoles at h
  split at h
  · cases h
    rw [liveAssignments_grant]
    exact List.mem_append_left _ ha
  · cases h

theorem memberWrite_addMember {roles : List RoleId} (h : addMember rows o u roles = .ok rows') :
    MemberWrite rows rows' o u roles := by
  simp only [addMember, bind_eq_ok] at h
  obtain ⟨_, -, h⟩ := h
  split at h
  · rename_i hgrant
    cases h
    exact memberWrite_grant hgrant
  · cases h

/-- Tombstones of rows of one user on one object. -/
theorem liveAssignments_drop_of_ne {dropped : List Assignment} {now : Nat}
    (hdropped : ∀ a ∈ dropped, a.object = o ∧ a.user = u) (h : ¬ (o' = o ∧ u' = u)) :
    liveAssignments (rows.map fun a => if a ∈ dropped then a.softDelete now else a) o' u' =
      liveAssignments rows o' u' := by
  rw [liveAssignments_drop, List.filter_eq_self]
  intro a ha
  obtain ⟨-, -, ho, hu⟩ := mem_liveAssignments.mp ha
  rw [decide_eq_true_eq]
  intro hmem
  obtain ⟨ho', hu'⟩ := hdropped a hmem
  exact h ⟨ho.symm.trans ho', hu.symm.trans hu'⟩

/-- A drop gives no row another user. -/
theorem users_drop {dropped : List Assignment} {now : Nat} {a : Assignment}
    (ha : a ∈ rows.map fun a => if a ∈ dropped then a.softDelete now else a) :
    ∃ b ∈ rows, b.user = a.user := by
  obtain ⟨b, hb, rfl⟩ := List.mem_map.mp ha
  refine ⟨b, hb, ?_⟩
  split <;> rfl

/-- A removed member holds nothing on the object. -/
theorem memberWrite_removeMember {db : Directory} {now : Nat}
    (h : removeMember db now rows o u = .ok rows') :
    MemberWrite rows rows' o u [] ∧ liveAssignments rows' o u = [] := by
  simp only [removeMember, bind_eq_ok] at h
  obtain ⟨_, -, _, -, h⟩ := h
  cases h
  have hnone : liveAssignments (rows.map fun a =>
      if a ∈ liveAssignments rows o u then a.softDelete now else a) o u = [] := by
    rw [liveAssignments_drop, List.filter_eq_nil_iff]
    intro a ha
    simp [ha]
  refine ⟨⟨fun o' u' hne => ?_, fun _ => ?_, nofun, fun a ha => Or.inr (users_drop ha)⟩, hnone⟩
  · exact liveAssignments_drop_of_ne
      (fun a ha => (mem_liveAssignments.mp ha).2.2) hne
  · rw [hnone]
    exact List.nodup_nil

theorem memberWrite_setMemberRoles {db : Directory} {now : Nat} {roles : List RoleId}
    (h : setMemberRoles db now rows o u roles = .ok rows') :
    MemberWrite rows rows' o u roles := by
  simp only [setMemberRoles, bind_eq_ok] at h
  obtain ⟨_, -, _, -, h⟩ := h
  split at h
  · rename_i rows₁ hgrant
    cases h
    have hwrite := memberWrite_grant hgrant
    -- Only rows of the user on the object are dropped, and none of a role that is to be held.
    have hdropped : ∀ a ∈ (liveAssignments rows o u).filter fun a =>
        !(roles ++ hiddenRoles db (((liveAssignments rows o u).map Assignment.role).filter
          fun r => !roles.contains r)).contains a.role, a.object = o ∧ a.user = u := by
      intro a ha
      exact (mem_liveAssignments.mp (List.mem_of_mem_filter ha)).2.2
    refine ⟨fun o' u' hne => ?_, fun hnodup => ?_, fun r hr => ?_, fun a ha => ?_⟩
    · rw [hwrite.others o' u' hne, liveAssignments_drop_of_ne hdropped hne]
    · apply hwrite.unique
      rw [liveAssignments_drop]
      exact hnodup.sublist (List.filter_sublist.map _)
    · by_cases hheld : r ∈ (liveAssignments rows o u).map Assignment.role
      · obtain ⟨a, ha, rfl⟩ := List.mem_map.mp hheld
        refine ⟨a, mem_of_grant hgrant ?_, rfl⟩
        rw [liveAssignments_drop, List.mem_filter, decide_eq_true_eq]
        refine ⟨ha, fun hdrop => ?_⟩
        have hstays := (List.mem_filter.mp hdrop).2
        simp [hr] at hstays
      · exact hwrite.held r (List.mem_filter.mpr ⟨hr, by simpa using hheld⟩)
    · rcases hwrite.users a ha with hu | ⟨b, hb, hu⟩
      · exact Or.inl hu
      · obtain ⟨c, hc, hcu⟩ := users_drop hb
        exact Or.inr ⟨c, hc, hcu.trans hu⟩
  · cases h

theorem memberWrite_assignRoles {s : Accounts} {db : Directory} {roles : List RoleId}
    (h : s.assignRoles db rows o u roles = .ok rows') : MemberWrite rows rows' o u roles := by
  unfold Accounts.assignRoles at h
  split at h
  · exact memberWrite_addMember h
  · exact memberWrite_setMemberRoles h

end

/-! ### Members and their active roles -/

/-- Every live user with a live assignment on an object has one there whose role is live and
active. -/
def MembersOk (s : Accounts) : Prop :=
  ∀ o u row, s.db.liveUser u = some row → liveAssignments s.assignments o u ≠ [] →
    ∃ a ∈ liveAssignments s.assignments o u, s.db.activeRole a.role = true

/-- The keys of the assignments: a user holds a role on an object once, and the user exists. -/
structure AssignmentsOk (s : Accounts) : Prop where
  unique : ∀ o u, ((liveAssignments s.assignments o u).map Assignment.role).Nodup
  users : ∀ a ∈ s.assignments, ∃ row, s.db.user a.user = some row

section
variable {env : Env} {s s' : Accounts}

/-- Where the guard counts nobody, no live user has the role as its only active one on an
object. -/
theorem activeObjectRoles_ne_of_countMembers {db : Directory}
    {rows : List Assignment} {r : RoleId} (h : countMembersSolelyHolding db rows r = 0)
    {o : ObjectId} {u : UserId} {row : User} (hrow : db.liveUser u = some row) :
    activeObjectRoles db rows o u ≠ [r] := by
  intro hsole
  have hr : r ∈ activeObjectRoles db rows o u := by
    rw [hsole]
    exact List.mem_singleton_self r
  obtain ⟨a, ha, rfl⟩ := List.mem_map.mp (List.mem_of_mem_filter hr)
  obtain ⟨hmem, hlive, rfl, rfl⟩ := mem_liveAssignments.mp ha
  have hnone := List.filter_eq_nil_iff.mp (List.length_eq_zero_iff.mp h) a hmem
  simp [hlive, hrow, hsole] at hnone

/-- A role write keeps what holds of the members. Who loses a role on an object has another one
there. -/
theorem MembersOk.activityStep {s₁ s₂ : Accounts} (hmembers : MembersOk s₁)
    (hunique : ∀ o u, ((liveAssignments s₁.assignments o u).map Assignment.role).Nodup)
    (hrows : s₂.assignments = s₁.assignments)
    (h : ActivityStep s₁.assignments s₁.db s₂.db) : MembersOk s₂ := by
  have hliveUser (husers : s₂.db.user = s₁.db.user) (u : UserId) :
      s₂.db.liveUser u = s₁.db.liveUser u := by
    rw [Directory.liveUser, husers, Directory.liveUser]
  intro o u row hrow hne
  rw [hrows] at hne ⊢
  cases h with
  | keeps husers hkeeps =>
    rw [hliveUser husers] at hrow
    obtain ⟨a, ha, hactive⟩ := hmembers o u row hrow hne
    exact ⟨a, ha, hkeeps a.role hactive⟩
  | loses r husers hkeeps hsole hcount =>
    rw [hliveUser husers] at hrow
    obtain ⟨a, ha, hactive⟩ := hmembers o u row hrow hne
    have hactive' : a.role ∈ activeObjectRoles s₁.db s₁.assignments o u :=
      List.mem_filter.mpr ⟨List.mem_map_of_mem ha, hactive⟩
    obtain ⟨r₂, hr₂, hother⟩ := exists_ne_of_nodup ((hunique o u).filter _)
      (List.ne_nil_of_mem hactive') (activeObjectRoles_ne_of_countMembers hcount hrow)
    obtain ⟨hheld, hactive₂⟩ := List.mem_filter.mp hr₂
    obtain ⟨b, hb, rfl⟩ := List.mem_map.mp hheld
    exact ⟨b, hb, hkeeps b.role hother hactive₂⟩

/-- A sequence of role writes keeps what holds of the members. -/
theorem MembersOk.activitySteps {db' : Directory} (hmembers : MembersOk s)
    (hunique : ∀ o u, ((liveAssignments s.assignments o u).map Assignment.role).Nodup)
    (h : Relation.ReflTransGen (ActivityStep s.assignments) s.db db') :
    MembersOk { s with db := db' } := by
  induction h with
  | refl => exact hmembers
  | tail _ hstep ih =>
    rename_i db₁ db₂ _
    have hmembers₁ : MembersOk { s with db := db₁ } := ih
    exact hmembers₁.activityStep hunique rfl hstep

/-- A change of the roles of a member keeps what holds of the members, when the member is left
with nothing or with an active role. -/
theorem MembersOk.memberWrite {o : ObjectId} {u : UserId} {roles : List RoleId}
    {rows' : List Assignment} (hmembers : MembersOk s)
    (h : MemberWrite s.assignments rows' o u roles)
    (hown : liveAssignments rows' o u = [] ∨ Granted s.db roles) :
    MembersOk { s with assignments := rows' } := by
  intro o' u' row hrow hne
  show ∃ a ∈ liveAssignments rows' o' u', s.db.activeRole a.role = true
  by_cases hself : o' = o ∧ u' = u
  · obtain ⟨rfl, rfl⟩ := hself
    rcases hown with hnone | hgranted
    · exact absurd hnone hne
    · obtain ⟨r, hr, hactive⟩ := hgranted.active
      obtain ⟨a, ha, rfl⟩ := h.held r hr
      exact ⟨a, ha, hactive⟩
  · have hsame : liveAssignments rows' o' u' = liveAssignments s.assignments o' u' :=
      h.others o' u' hself
    have hne' : liveAssignments s.assignments o' u' ≠ [] := by
      rw [← hsame]
      exact hne
    rw [hsame]
    exact hmembers o' u' row hrow hne'

/-- A change of the roles of a member keeps the keys. -/
theorem AssignmentsOk.memberWrite {o : ObjectId} {u : UserId} {roles : List RoleId}
    {rows' : List Assignment} (hok : AssignmentsOk s)
    (h : MemberWrite s.assignments rows' o u roles) (hu : ∃ row, s.db.user u = some row) :
    AssignmentsOk { s with assignments := rows' } := by
  constructor
  · intro o' u'
    show ((liveAssignments rows' o' u').map Assignment.role).Nodup
    by_cases hself : o' = o ∧ u' = u
    · obtain ⟨rfl, rfl⟩ := hself
      exact h.unique (hok.unique o' u')
    · rw [h.others o' u' hself]
      exact hok.unique o' u'
  · intro a ha
    rcases h.users a ha with rfl | ⟨b, hb, hbu⟩
    · exact hu
    · rw [← hbu]
      exact hok.users b hb

/-- A write of a user row keeps the keys. -/
theorem AssignmentsOk.setUser (hok : AssignmentsOk s) (u : UserId) (new : User) :
    AssignmentsOk { s with db := s.db.setUser u new } := by
  refine ⟨hok.unique, fun a ha => ?_⟩
  show ∃ row, Function.update s.db.user u (some new) a.user = some row
  by_cases hu : a.user = u
  · rw [hu, Function.update_self]
    exact ⟨new, rfl⟩
  · rw [Function.update_of_ne hu]
    exact hok.users a ha

/-- A user without a row has no assignment. -/
theorem AssignmentsOk.none_of_user (hok : AssignmentsOk s) {u : UserId}
    (hnone : s.db.user u = none) (o : ObjectId) : liveAssignments s.assignments o u = [] := by
  rw [List.eq_nil_iff_forall_not_mem]
  intro a ha
  obtain ⟨hmem, -, -, hu⟩ := mem_liveAssignments.mp ha
  obtain ⟨row, hrow⟩ := hok.users a hmem
  rw [hu, hnone] at hrow
  cases hrow

/-- A write of a user row keeps what holds of the members, unless it makes a tombstone live. -/
theorem MembersOk.setUser (hmembers : MembersOk s) {u : UserId} {new : User}
    (h : (∃ old, s.db.liveUser u = some old) ∨
      ∀ o, liveAssignments s.assignments o u ≠ [] →
        ∃ a ∈ liveAssignments s.assignments o u, s.db.activeRole a.role = true) :
    MembersOk { s with db := s.db.setUser u new } := by
  intro o v row hrow hne
  show ∃ a ∈ liveAssignments s.assignments o v, s.db.activeRole a.role = true
  obtain ⟨hrow, hlive⟩ := Directory.liveUser_eq_some.mp hrow
  rcases update_some_eq_some.mp hrow with ⟨rfl, -⟩ | ⟨-, hrow⟩
  · rcases h with ⟨old, hold⟩ | hactive
    · exact hmembers o v old hold hne
    · exact hactive o hne
  · exact hmembers o v row (Directory.liveUser_eq_some.mpr ⟨hrow, hlive⟩) hne

/-- The participant default is a live, active role. -/
theorem getParticipantDefaultRole_spec {db : Directory} {x : RoleId × Role}
    (h : getParticipantDefaultRole db = .ok x) :
    db.liveRole x.1 = some x.2 ∧ x.2.isActive = true := by
  unfold getParticipantDefaultRole at h
  split at h
  · rename_i found hfound
    cases h
    obtain ⟨hlive, hflags⟩ := Directory.liveRole_of_findRole hfound
    simp only [Bool.and_eq_true] at hflags
    exact ⟨hlive, hflags.2⟩
  · cases h

/-- What a successful member request writes: the assignments of an existing user on one object.
The user is left with nothing there, or with active roles. -/
structure MemberEffect (s s' : Accounts) (o : ObjectId) (u : UserId) (roles : List RoleId) :
    Prop where
  state : s' = { s with assignments := s'.assignments }
  write : MemberWrite s.assignments s'.assignments o u roles
  own : liveAssignments s'.assignments o u = [] ∨ Granted s.db roles
  user : ∃ row, s.db.user u = some row

theorem perform_memberEffect {q : MemberRequest} (hok : AssignmentsOk s)
    (h : perform s q = .ok s') : ∃ o u roles, MemberEffect s s' o u roles := by
  cases q with
  | addMember caller o u roleIds =>
    simp only [perform, addGroupMember, bind_eq_ok, getUser_eq_ok] at h
    obtain ⟨_, -, row, hrow, roles, hroles, rows', hadd, h⟩ := h
    cases h
    exact ⟨o, u, _, rfl, memberWrite_addMember hadd,
      Or.inr (granted_of_resolveObjectRoles hroles), row, (Directory.liveUser_eq_some.mp hrow).1⟩
  | setMemberRoles caller o u roleIds =>
    simp only [perform, updateGroupMember, bind_eq_ok, getUser_eq_ok] at h
    obtain ⟨_, -, row, hrow, roles, hroles, rows', hset, h⟩ := h
    cases h
    exact ⟨o, u, _, rfl, memberWrite_setMemberRoles hset,
      Or.inr (granted_of_resolveObjectRoles hroles), row, (Directory.liveUser_eq_some.mp hrow).1⟩
  | removeMember caller o u =>
    simp only [perform, removeGroupMember, bind_eq_ok] at h
    obtain ⟨_, -, rows', hremove, h⟩ := h
    cases h
    obtain ⟨hwrite, hnone⟩ := memberWrite_removeMember hremove
    refine ⟨o, u, [], rfl, hwrite, Or.inl hnone, ?_⟩
    -- The user has an assignment to remove, so it exists.
    simp only [removeMember, bind_eq_ok, check_eq_ok, Bool.not_eq_true',
      List.isEmpty_eq_false_iff_exists_mem] at hremove
    obtain ⟨_, ⟨a, ha⟩, -⟩ := hremove
    obtain ⟨hmem, -, -, hu⟩ := mem_liveAssignments.mp ha
    rw [← hu]
    exact hok.users a hmem
  | join caller group visible =>
    simp only [perform, joinEvaluationGroup, bind_eq_ok, getUser_eq_ok] at h
    obtain ⟨_, -, _, -, _, -, _, -, row, hrow, x, hdefault, rows', hadd, h⟩ := h
    cases h
    obtain ⟨hrole, hactive⟩ := getParticipantDefaultRole_spec hdefault
    exact ⟨group.id, caller.id, [x.1], rfl, memberWrite_addMember hadd,
      Or.inr (granted_singleton hrole hactive), row, (Directory.liveUser_eq_some.mp hrow).1⟩

/-! ### Restores -/

/-- The guards of a restore: a tombstone inside the window, of an account that the caller may
manage, with a live, active global role and an e-mail that no live account has. -/
structure MayRestore (env : Env) (s : Accounts) (caller : SessionUser) (u : UserId) (row : User) :
    Prop where
  found : s.db.user u = some row
  window : restorable s.now (env.restoreWindowDays * Accounts.day) row.deletedAt = true
  permission : .usersDelete ∈ caller.permissions
  unblocked : blockedElevatedRoles caller (s.db.liveRoles row) = []
  active : (s.db.liveRoles row).any Role.isActive = true
  email : s.db.userByEmail row.email = none

/-- A restore goes through exactly when its guards pass. -/
theorem restoreUser_eq_ok {caller : SessionUser} {u : UserId} :
    s.restoreUser env caller u = .ok s' ↔
      ∃ row, MayRestore env s caller u row ∧
        s' = s.setUser u { row with deletedAt := none } := by
  unfold Accounts.restoreUser
  simp only [requirePermission, bind_eq_ok, check_eq_ok, decide_eq_true_eq]
  constructor
  · rintro ⟨_, hpermission, h⟩
    split at h
    · cases h
    · rename_i row hrow
      obtain ⟨hold, hwindow⟩ := Option.filter_eq_some_iff.mp hrow
      simp only [bind_eq_ok, check_eq_ok, Option.isNone_iff_eq_none] at h
      obtain ⟨_, hassert, _, hactive, _, hemail, h⟩ := h
      cases h
      exact ⟨row, ⟨hold, hwindow, hpermission, blocked_eq_nil_of_assert hassert, hactive, hemail⟩,
        rfl⟩
  · rintro ⟨row, ⟨hold, hwindow, hpermission, hunblocked, hactive, hemail⟩, rfl⟩
    refine ⟨(), hpermission, ?_⟩
    have hfilter : (s.db.user u).filter (fun row =>
        restorable s.now (env.restoreWindowDays * Accounts.day) row.deletedAt) = some row :=
      Option.filter_eq_some_iff.mpr ⟨hold, hwindow⟩
    have hassert : assertCanRestoreUser caller (s.db.liveRoles row) = .ok () := by
      simp [assertCanRestoreUser, assertUnblocked, hunblocked]
    rw [hfilter]
    simp only [bind_eq_ok, check_eq_ok, Option.isNone_iff_eq_none]
    exact ⟨(), hassert, (), hactive, (), hemail, rfl⟩

/-- The step restores a user who has a live assignment on an object, and no live, active role
there. -/
def RevivesStranded (env : Env) (s : Accounts) (l : Label) : Prop :=
  ∃ caller u fresh row o, l = .account { request := .restoreUser caller u, fresh } ∧
    MayRestore env s caller u row ∧ liveAssignments s.assignments o u ≠ [] ∧
    ∀ a ∈ liveAssignments s.assignments o u, s.db.activeRole a.role = false

/-- A request keeps the keys of the assignments. -/
theorem AssignmentsOk.requestWrites {q : Request} (hok : AssignmentsOk s)
    (h : s.RequestWrites env q s') : AssignmentsOk s' := by
  have hkeep (huser : s'.db.user = s.db.user) (hrows : s'.assignments = s.assignments) :
      AssignmentsOk s' := by
    refine ⟨?_, ?_⟩
    · rw [hrows]
      exact hok.unique
    · rw [hrows, huser]
      exact hok.users
  cases h with
  | untouched hdb hrows => exact hkeep (by rw [hdb]) hrows
  | @user u new hwrite hdb hrows =>
    have hset := hok.setUser u new
    refine ⟨?_, ?_⟩
    · rw [hrows]
      exact hset.unique
    · rw [hrows, hdb]
      exact hset.users
  | roles hwrite hrows =>
    exact hkeep (user_eq_of_activitySteps (Membership.activitySteps hwrite)) hrows
  | member hroles hdb hrow hassign =>
    have hwrite := memberWrite_assignRoles hassign
    have hset := hok.memberWrite hwrite ⟨_, (Directory.liveUser_eq_some.mp hrow).1⟩
    refine ⟨hset.unique, ?_⟩
    rw [hdb]
    exact hset.users
  | @newMember o u new roles hroles huser hdb hassign =>
    have hwrite := memberWrite_assignRoles hassign
    have hset := hok.setUser u new
    have hnew := hset.memberWrite hwrite ⟨_, Function.update_self _ _ _⟩
    refine ⟨hnew.unique, ?_⟩
    rw [hdb]
    exact hnew.users

/-- Each step keeps the keys of the assignments. -/
theorem AssignmentsOk.step {l : Label} (hok : AssignmentsOk s) (h : step env s l = some s') :
    AssignmentsOk s' := by
  rcases step_cases h with ⟨l', rfl, hunused, hperform⟩ | ⟨q, rfl, hperform⟩ |
    ⟨fresh, rfl, rfl⟩ | rfl
  · exact hok.requestWrites (Accounts.perform_writes hunused hperform)
  · obtain ⟨o, u, roles, heffect⟩ := perform_memberEffect hok hperform
    rw [heffect.state]
    exact hok.memberWrite heffect.write heffect.user
  · have hsync : Relation.ReflTransGen (ActivityStep s.assignments) s.db
        (syncSystemRoles fresh s.db) := activitySteps_sync fresh
    have huser : (syncSystemRoles fresh s.db).user = s.db.user := user_eq_of_activitySteps hsync
    refine ⟨hok.unique, ?_⟩
    show ∀ a ∈ s.assignments, ∃ row, (syncSystemRoles fresh s.db).user a.user = some row
    rw [huser]
    exact hok.users
  · exact hok

/-- What a request does to a user row keeps what holds of the members, unless it revives one
without an active role. -/
theorem MembersOk.userWrite {q : Request} {u : UserId} {new : User} (hmembers : MembersOk s)
    (hok : AssignmentsOk s)
    (hrestore : ∀ caller u, q = .restoreUser caller u → s.db.liveUser u = none →
      ∀ o, liveAssignments s.assignments o u ≠ [] →
        ∃ a ∈ liveAssignments s.assignments o u, s.db.activeRole a.role = true)
    (h : s.UserWrite env q u new) : MembersOk { s with db := s.db.setUser u new } := by
  apply hmembers.setUser
  cases h with
  | kept hold hroles => exact Or.inl ⟨_, hold⟩
  | created hnone hroles =>
    exact Or.inr fun o hne => absurd (hok.none_of_user hnone o) hne
  | updated hold hroles => exact Or.inl ⟨_, hold⟩
  | restored hq hold hroles hactive =>
    cases hlive : s.db.liveUser u with
    | some old => exact Or.inl ⟨old, rfl⟩
    | none => exact Or.inr (hrestore _ u hq hlive)

/-- A request keeps what holds of the members, unless it revives one without an active role. -/
theorem MembersOk.requestWrites {q : Request} (hmembers : MembersOk s) (hok : AssignmentsOk s)
    (hrestore : ∀ caller u, q = .restoreUser caller u → s.db.liveUser u = none →
      ∀ o, liveAssignments s.assignments o u ≠ [] →
        ∃ a ∈ liveAssignments s.assignments o u, s.db.activeRole a.role = true)
    (h : s.RequestWrites env q s') : MembersOk s' := by
  have hsame {s₁ : Accounts} (h₁ : MembersOk s₁) (hdb : s'.db = s₁.db)
      (hrows : s'.assignments = s₁.assignments) : MembersOk s' := by
    intro o u row hrow hne
    rw [hdb] at hrow ⊢
    rw [hrows] at hne ⊢
    exact h₁ o u row hrow hne
  cases h with
  | untouched hdb hrows => exact hsame hmembers hdb hrows
  | user hwrite hdb hrows => exact hsame (hmembers.userWrite hok hrestore hwrite) hdb hrows
  | roles hwrite hrows =>
    exact hsame (hmembers.activitySteps hok.unique (Membership.activitySteps hwrite)) rfl hrows
  | member hroles hdb hrow hassign =>
    have hset := hmembers.memberWrite (memberWrite_assignRoles hassign) (Or.inr hroles)
    exact hsame hset hdb rfl
  | @newMember o u new roles hroles huser hdb hassign =>
    have hcreated := hmembers.userWrite hok hrestore huser
    -- The roles are active in the directory with the new user too.
    have hgranted : Granted (s.db.setUser u new) roles := ⟨hroles.nodup, hroles.active⟩
    have hset := hcreated.memberWrite (memberWrite_assignRoles hassign) (Or.inr hgranted)
    exact hsame hset hdb rfl

/-- A step whose request succeeds leads to its result. -/
theorem eq_of_step {l : Accounts.Label} {s₁ : Accounts} (h : s.step env l = some s')
    (hperform : s.perform env l.fresh l.request = .ok s₁) : s' = s₁ := by
  unfold Accounts.step at h
  split at h
  · rw [hperform] at h
    cases h
    rfl
  · cases h

/-- A step from a state where each live member has an active role leads to another one exactly
when it does not revive a member without one. -/
theorem membersOk_step_iff {l : Label} (hok : AssignmentsOk s) (hmembers : MembersOk s)
    (h : step env s l = some s') : MembersOk s' ↔ ¬ RevivesStranded env s l := by
  constructor
  · rintro hmembers' ⟨caller, u, fresh, row, o, rfl, hmay, hne, hnone⟩
    have hrestored : s' = s.setUser u { row with deletedAt := none } :=
      eq_of_step h (restoreUser_eq_ok.mpr ⟨row, hmay, rfl⟩)
    obtain ⟨a, ha, hactive⟩ := hmembers' o u { row with deletedAt := none } (by
      rw [hrestored]
      refine Directory.liveUser_eq_some.mpr ⟨?_, rfl⟩
      exact Function.update_self _ _ _) (by
      rw [hrestored]
      exact hne)
    rw [hrestored] at ha hactive
    have hinactive : s.db.activeRole a.role = false := hnone a ha
    have hactive' : s.db.activeRole a.role = true := hactive
    rw [hinactive] at hactive'
    cases hactive'
  · intro hnot
    rcases step_cases h with ⟨l', rfl, hunused, hperform⟩ | ⟨q, rfl, hperform⟩ |
      ⟨fresh, rfl, rfl⟩ | rfl
    · refine hmembers.requestWrites hok ?_ (Accounts.perform_writes hunused hperform)
      intro caller u hq _ o hne
      rw [hq] at hperform
      obtain ⟨row, hmay, -⟩ := restoreUser_eq_ok.mp hperform
      by_contra hnone
      refine hnot ⟨caller, u, l'.fresh, row, o, ?_, hmay, hne, ?_⟩
      · rw [← hq]
      · intro a ha
        cases hactive : s.db.activeRole a.role with
        | false => rfl
        | true => exact absurd ⟨a, ha, hactive⟩ hnone
    · obtain ⟨o, u, roles, heffect⟩ := perform_memberEffect hok hperform
      rw [heffect.state]
      exact hmembers.memberWrite heffect.write heffect.own
    · exact hmembers.activitySteps hok.unique (activitySteps_sync fresh)
    · exact hmembers

/-- At the start each role is live and active. -/
theorem SyncedPlatform.membersOk (h : SyncedPlatform s) : MembersOk s := by
  intro o u row _ hne
  obtain ⟨a, ha⟩ := List.exists_mem_of_ne_nil _ hne
  exact ⟨a, ha, h.activeRole (h.foreign a (mem_liveAssignments.mp ha).1).2⟩

theorem SyncedPlatform.assignmentsOk (h : SyncedPlatform s) : AssignmentsOk s := by
  refine ⟨h.assignments, fun a ha => ?_⟩
  exact Option.isSome_iff_exists.mp (h.foreign a ha).1

/-- From a synced platform, a run passes only states where each live user with an assignment on an
object has a live, active role there, exactly when no step of it restores a user who has
assignments on an object, and no live, active role among them. -/
theorem members_hold_active_role {ls : List Label} (hstart : SyncedPlatform s)
    (hrun : run (step env) s ls = some s') :
    Always (step env) MembersOk s ls ↔
      Along (step env) (fun s l => ¬ RevivesStranded env s l) s ls :=
  always_iff_along (fun _ _ _ hok _ h => AssignmentsOk.step hok h)
    (fun _ _ _ hok hmembers h => membersOk_step_iff hok hmembers h) hstart.assignmentsOk
    hstart.membersOk hrun

end

/-! ### A run that breaks it -/

/-- The id of the group. -/
def seminar : ObjectId := 70

/-- Bob is an `annotator` of the platform, with a custom role on a group. -/
def inviteReviewer : List Label :=
  [.account
    { request := .createRole Accounts.rootSession
        { name := "reviewer", displayName := "Reviewer"
          permissions := ["evaluation_groups:read", "reviews:read"] }
      fresh := { user := 9, role := 6, token := "unused" } },
    byRoot (.updateRole Accounts.rootSession 6 { isObjectAssignable := some true }),
    .account
    { request := .inviteToPlatform Accounts.rootSession "bob@example.com" (RoleIds.single 4)
      fresh := { user := 2, role := 9, token := "link" } },
    .member (.addMember Accounts.rootSession seminar 2 (RoleIds.single 6))]

/-- The custom role is deactivated while Bob is deleted. -/
def deactivateReviewer : List Label :=
  [byRoot (.deleteUser Accounts.rootSession 2),
    byRoot (.updateRole Accounts.rootSession 6 { isActive := some false })]

/-- Bob is live, with an assignment on the group, and no role there is active. -/
def stranded (s : Accounts) : Bool :=
  (s.db.liveUser 2).isSome && !(liveAssignments s.assignments seminar 2).isEmpty &&
    (liveAssignments s.assignments seminar 2).all fun a => !s.db.activeRole a.role

/-- Bob is deleted. -/
def deleteReviewer : List Label :=
  inviteReviewer ++ [byRoot (.deleteUser Accounts.rootSession 2)]

/-- In a run that deletes and restores Bob while the role stays active, each live member keeps an
active role. -/
theorem members_hold_active_role_restored :
    ∃ s, run (step Accounts.plainEnv) Accounts.deployed
        (deleteReviewer ++ [byRoot (.restoreUser Accounts.rootSession 2)]) = some s ∧
      (s.db.liveUser 2).isSome = true ∧
      Always (step Accounts.plainEnv) MembersOk Accounts.deployed
        (deleteReviewer ++ [byRoot (.restoreUser Accounts.rootSession 2)]) := by
  have hdeleted : (run (step Accounts.plainEnv) Accounts.deployed deleteReviewer).any
      (fun s => s.assignments.all fun a => s.db.activeRole a.role) = true := by
    decide +kernel
  have hrestored : (run (step Accounts.plainEnv) Accounts.deployed
      (deleteReviewer ++ [byRoot (.restoreUser Accounts.rootSession 2)])).any
        (fun s => (s.db.liveUser 2).isSome) = true := by
    decide +kernel
  obtain ⟨s₁, hrun₁, hactive⟩ := exists_run_of_any hdeleted
  obtain ⟨s, hrun, hlive⟩ := exists_run_of_any hrestored
  refine ⟨s, hrun, hlive, (members_hold_active_role deployed_platform hrun).mpr ?_⟩
  have hbefore : Along (step Accounts.plainEnv)
      (fun s l => ¬ RevivesStranded Accounts.plainEnv s l) Accounts.deployed deleteReviewer := by
    refine along_of_forall ?_
    rintro l hl s ⟨caller, u, fresh, row, o, hrequest, -⟩
    simp only [deleteReviewer, inviteReviewer, byRoot, List.cons_append, List.nil_append,
      List.mem_cons, List.not_mem_nil, or_false] at hl
    rcases hl with rfl | rfl | rfl | rfl | rfl <;> cases hrequest
  refine hbefore.concat hrun₁ ?_
  -- The role of each assignment is active when Bob is restored.
  rintro ⟨caller, u, fresh, row, o, -, -, hne, hinactive⟩
  obtain ⟨a, ha⟩ := List.exists_mem_of_ne_nil _ hne
  have hrole := List.all_eq_true.mp hactive a (mem_liveAssignments.mp ha).1
  rw [hinactive a ha] at hrole
  cases hrole

/-- Not every run keeps it. Bob's role on the group is deactivated while Bob is deleted, and Bob
is then restored. -/
theorem restored_without_role :
    ¬ ∀ (env : Env) (s s' : Accounts) (ls : List Label), SyncedPlatform s →
      run (step env) s ls = some s' → MembersOk s' := by
  intro hall
  have hany : (run (step Accounts.plainEnv) Accounts.deployed (inviteReviewer ++
      deactivateReviewer ++ [byRoot (.restoreUser Accounts.rootSession 2)])).any stranded =
        true := by
    decide +kernel
  obtain ⟨s, hrun, hstranded⟩ := exists_run_of_any hany
  have hmembers := hall _ _ _ _ deployed_platform hrun
  simp only [stranded, Bool.and_eq_true, Bool.not_eq_true', List.all_eq_true,
    Option.isSome_iff_exists] at hstranded
  obtain ⟨⟨⟨row, hrow⟩, hne⟩, hinactive⟩ := hstranded
  obtain ⟨a, ha, hactive⟩ := hmembers seminar 2 row hrow (by simpa using hne)
  rw [hinactive a ha] at hactive
  cases hactive

end RedTeaming.Membership
