import RedTeaming.Membership.Members

/-!
# `RedTeaming.Membership.MemberRoles`: the role set of one member

`set_member_roles` replaces the roles that the API shows, which are the live and active ones. It
keeps an assignment whose role is hidden, because the caller never saw the role.

`setMemberRolesIn` is the function with the rows of its session, so that the rows are there after
an error, too. A row is told apart by its place: a tombstone stays where the row was, and a new
row comes last. `ReplacesVisible` says what a success does to each row, and
`set_member_roles_replaces_visible` is the main result.

A group invitation of somebody who has an account goes through `assignRoles`. It asks `held_roles`
whether the user is a member, and `add_member` asks the assignments. The two differ for a user
whose roles on the group are all tombstones (`OnlyTombstones`). For such a user the invitation
fails, and for nobody else: `invite_reconciles_iff`.
-/

set_option autoImplicit false

namespace RedTeaming.Membership

open RedTeaming.Auth
open RedTeaming.Library

/-- The roles that a group admits are active, and listed once. -/
theorem resolveObjectRoles_spec {db : Directory} {ids : List RoleId}
    {found : List (RoleId × Role)} (h : resolveObjectRoles db ids = .ok found) :
    (∀ r ∈ found.map Prod.fst, db.activeRole r = true) ∧ (found.map Prod.fst).Nodup := by
  simp only [resolveObjectRoles, bind_eq_ok] at h
  obtain ⟨roles, hroles, _, -, _, -, hfound⟩ := h
  cases hfound
  obtain ⟨hactive, hnodup, -⟩ := getRolesByIds_active hroles
  refine ⟨fun r hr => ?_, hnodup⟩
  obtain ⟨x, hx, rfl⟩ := List.mem_map.mp hr
  exact hactive x hx

/-- They are those of the payload. -/
theorem mem_resolveObjectRoles {db : Directory} {ids : List RoleId} {found : List (RoleId × Role)}
    (h : resolveObjectRoles db ids = .ok found) {r : RoleId} :
    r ∈ found.map Prod.fst ↔ r ∈ ids := by
  simp only [resolveObjectRoles, getRolesByIds, bind_eq_ok, check_eq_ok, List.isEmpty_iff,
    List.filter_eq_nil_iff] at h
  obtain ⟨roles, ⟨_, hknown, _, _, hroles⟩, _, _, _, _, hfound⟩ := h
  cases hfound
  cases hroles
  simp only [List.mem_map, List.mem_filterMap, List.mem_eraseDups]
  constructor
  · rintro ⟨x, ⟨r', hr', hrole⟩, rfl⟩
    obtain ⟨role, -, rfl⟩ := Option.map_eq_some_iff.mp hrole
    exact hr'
  · intro hr
    cases hrole : db.liveRole r with
    | none => exact absurd (by rw [hrole]; rfl) (hknown r (List.mem_eraseDups.mpr hr))
    | some role => exact ⟨(r, role), ⟨r, hr, by rw [hrole]; rfl⟩, rfl⟩

/-! ### The session of `set_member_roles` -/

/-- The hidden roles of the user that the new set leaves out. -/
def retainedRoles (db : Directory) (rows : List Assignment) (o : ObjectId) (u : UserId)
    (roles : List RoleId) : List RoleId :=
  hiddenRoles db (((liveAssignments rows o u).map Assignment.role).filter fun r =>
    !roles.contains r)

/-- The assignments that a new set of roles drops. -/
def droppedAssignments (db : Directory) (rows : List Assignment) (o : ObjectId) (u : UserId)
    (roles : List RoleId) : List Assignment :=
  (liveAssignments rows o u).filter fun a =>
    !(roles ++ retainedRoles db rows o u roles).contains a.role

/-- The roles of a new set that the user does not hold yet. -/
def addedRoles (rows : List Assignment) (o : ObjectId) (u : UserId) (roles : List RoleId) :
    List RoleId :=
  roles.filter fun r => !((liveAssignments rows o u).map Assignment.role).contains r

/-- The rows with some of them tombstoned. -/
def tombstone (now : Nat) (dropped rows : List Assignment) : List Assignment :=
  rows.map fun a => if a ∈ dropped then a.softDelete now else a

/-- `set_member_roles`: what it returns or raises, and the rows of its session at the end. -/
def setMemberRolesIn (db : Directory) (now : Nat) (rows : List Assignment) (o : ObjectId)
    (u : UserId) (roles : List RoleId) : Except ApiError (List RoleId) × List Assignment :=
  if (liveAssignments rows o u).isEmpty then
    (.error (.notFound "User has no role on this object."), rows)
  else
    let dropped := droppedAssignments db rows o u roles
    match assertProtectedRoleSurvives db rows o u dropped with
    | .error e => (.error e, rows)
    | .ok _ =>
      let kept := tombstone now dropped rows
      match grantRoles kept o u (addedRoles rows o u roles) with
      -- The tombstones are in the session when an insert fails.
      | none => (.error (.runtimeError "duplicate key value violates unique constraint"), kept)
      | some rows' => (.ok (roles ++ retainedRoles db rows o u roles), rows')

section
variable {db : Directory} {now : Nat} {rows rows' : List Assignment} {o : ObjectId} {u : UserId}
  {roles : List RoleId}

/-- The transaction commits the rows of a success, and nothing after an error. -/
theorem setMemberRoles_eq : setMemberRoles db now rows o u roles =
    (setMemberRolesIn db now rows o u roles).1.map fun _ =>
      (setMemberRolesIn db now rows o u roles).2 := by
  unfold setMemberRoles setMemberRolesIn tombstone addedRoles droppedAssignments retainedRoles
  dsimp only
  cases (liveAssignments rows o u).isEmpty with
  | true =>
    rw [if_pos rfl]
    rfl
  | false =>
    rw [if_neg Bool.false_ne_true]
    -- With the check and the grant decided, both sides are the same case.
    generalize assertProtectedRoleSurvives db rows o u _ = asserted
    generalize grantRoles _ o u _ = granted
    cases asserted with
    | error e => rfl
    | ok x =>
      cases granted with
      | none => rfl
      | some rows' => rfl

/-! ### The rows after it -/

/-- The API projection hides the role: it is inactive or a tombstone. -/
def IsHidden (db : Directory) (r : RoleId) : Prop :=
  ∃ role, db.role r = some role ∧ (role.isActive = false ∨ role.deleted = true)

theorem mem_hiddenRoles {ids : List RoleId} {r : RoleId} :
    r ∈ hiddenRoles db ids ↔ r ∈ ids ∧ IsHidden db r := by
  rw [hiddenRoles, List.mem_filter]
  refine and_congr_right fun _ => ?_
  unfold IsHidden
  cases db.role r with
  | none => simp
  | some role => simp

/-- An active role is not hidden. -/
theorem not_isHidden_of_active {r : RoleId} (h : db.activeRole r = true) : ¬ IsHidden db r := by
  rintro ⟨role, hrole, hhidden⟩
  obtain ⟨role', hlive, hactive⟩ := Directory.activeRole_eq_true.mp h
  obtain ⟨hrole', hnot⟩ := Directory.liveRole_eq_some.mp hlive
  rw [hrole] at hrole'
  cases hrole'
  rcases hhidden with hinactive | hdeleted
  · rw [hactive] at hinactive
    cases hinactive
  · rw [hnot] at hdeleted
    cases hdeleted

/-- The dropped assignments are the shown ones that the new set leaves out. -/
theorem mem_droppedAssignments {a : Assignment} :
    a ∈ droppedAssignments db rows o u roles ↔
      a ∈ liveAssignments rows o u ∧ a.role ∉ roles ∧ ¬ IsHidden db a.role := by
  simp only [droppedAssignments, retainedRoles, List.mem_filter, Bool.not_eq_true',
    List.contains_eq_mem, decide_eq_false_iff_not, List.mem_append, mem_hiddenRoles,
    not_or, not_and]
  constructor
  · rintro ⟨hlive, hnot, hhidden⟩
    exact ⟨hlive, hnot, hhidden ⟨List.mem_map_of_mem hlive, by simpa using hnot⟩⟩
  · rintro ⟨hlive, hnot, hhidden⟩
    exact ⟨hlive, hnot, fun _ => hhidden⟩

theorem mem_addedRoles {r : RoleId} :
    r ∈ addedRoles rows o u roles ↔
      r ∈ roles ∧ r ∉ (liveAssignments rows o u).map Assignment.role := by
  rw [addedRoles, List.mem_filter, Bool.not_eq_true', List.contains_eq_mem,
    decide_eq_false_iff_not]

/-- The new roles can be granted. -/
theorem grantRoles_added (hnodup : roles.Nodup) (dropped : List Assignment) :
    grantRoles (tombstone now dropped rows) o u (addedRoles rows o u roles) =
      some (tombstone now dropped rows ++
        (addedRoles rows o u roles).map fun r => { object := o, user := u, role := r }) := by
  rw [grantRoles, if_pos]
  refine ⟨hnodup.filter _, fun r hr a ha => ?_⟩
  rw [tombstone, liveAssignments_drop] at ha
  rintro rfl
  exact (mem_addedRoles.mp hr).2 (List.mem_map_of_mem (List.mem_of_mem_filter ha))

/-- How a new set of distinct roles ends. It writes rows only when it succeeds. -/
theorem setMemberRolesIn_cases (hnodup : roles.Nodup) :
    (liveAssignments rows o u = [] ∧ setMemberRolesIn db now rows o u roles =
      (.error (.notFound "User has no role on this object."), rows)) ∨
    (∃ e, liveAssignments rows o u ≠ [] ∧
      assertProtectedRoleSurvives db rows o u (droppedAssignments db rows o u roles) = .error e ∧
      setMemberRolesIn db now rows o u roles = (.error e, rows)) ∨
    (liveAssignments rows o u ≠ [] ∧
      assertProtectedRoleSurvives db rows o u (droppedAssignments db rows o u roles) = .ok () ∧
      setMemberRolesIn db now rows o u roles = (.ok (roles ++ retainedRoles db rows o u roles),
        tombstone now (droppedAssignments db rows o u roles) rows ++
          (addedRoles rows o u roles).map fun r => { object := o, user := u, role := r })) := by
  unfold setMemberRolesIn
  split
  · rename_i hempty
    exact .inl ⟨List.isEmpty_iff.mp hempty, rfl⟩
  · rename_i hsome
    have hne : liveAssignments rows o u ≠ [] := fun hnil => hsome (by rw [hnil]; rfl)
    dsimp only
    split
    · rename_i e hassert
      exact .inr (.inl ⟨e, hne, hassert, rfl⟩)
    · rename_i hassert
      refine .inr (.inr ⟨hne, hassert, ?_⟩)
      rw [grantRoles_added hnodup]

/-- What a new set of roles does to the rows. The rows of the user on the object are replaced as
far as their roles are shown. Every other row stays. -/
structure ReplacesVisible (db : Directory) (rows rows' : List Assignment)
    (o : ObjectId) (u : UserId) (roles : List RoleId) : Prop where
  visible : ∀ r, db.activeRole r = true →
    (r ∈ (liveAssignments rows' o u).map Assignment.role ↔ r ∈ roles)
  hidden : ∀ (i : Nat) a, rows[i]? = some a → a ∈ liveAssignments rows o u → IsHidden db a.role →
    rows'[i]? = some a
  same : ∀ (i : Nat) a, rows[i]? = some a → a ∈ liveAssignments rows o u → a.role ∈ roles →
    rows'[i]? = some a
  unique : ∀ o' u', ((liveAssignments rows' o' u').map Assignment.role).Nodup
  others : ∀ (i : Nat) a, ¬ (a.object = o ∧ a.user = u) → (rows[i]? = some a ↔ rows'[i]? = some a)

/-- The roles of the user after a new set: those of the rows that stay, and the new ones. -/
theorem mem_roles_replaced {dropped : List Assignment} {added : List RoleId} {r : RoleId} :
    r ∈ (liveAssignments (tombstone now dropped rows ++
        added.map fun r => { object := o, user := u, role := r }) o u).map Assignment.role ↔
      (∃ a ∈ liveAssignments rows o u, a ∉ dropped ∧ a.role = r) ∨ r ∈ added := by
  rw [liveAssignments_grant, if_pos ⟨rfl, rfl⟩, tombstone, liveAssignments_drop, List.map_append,
    List.mem_append, List.map_map]
  refine or_congr ?_ ?_
  · simp [and_assoc]
  · show r ∈ added.map id ↔ r ∈ added
    rw [List.map_id]

/-- A row that is not dropped stays where it is. -/
theorem getElem?_replaced {dropped new : List Assignment} {i : Nat} {a : Assignment}
    (ha : rows[i]? = some a) (hkept : a ∉ dropped) :
    (tombstone now dropped rows ++ new)[i]? = some a := by
  have hlt : i < (tombstone now dropped rows).length := by
    rw [tombstone, List.length_map]
    exact (List.getElem?_eq_some_iff.mp ha).1
  rw [List.getElem?_append_left hlt, tombstone, List.getElem?_map, ha,
    Option.map_some, if_neg hkept]

/-- A row of nobody else is written. -/
theorem getElem?_of_replaced {dropped : List Assignment} {added : List RoleId} {i : Nat}
    {a : Assignment} (hdropped : ∀ b ∈ dropped, b.object = o ∧ b.user = u)
    (hother : ¬ (a.object = o ∧ a.user = u)) (ha : (tombstone now dropped rows ++
      added.map fun r => { object := o, user := u, role := r })[i]? = some a) :
        rows[i]? = some a := by
  rcases Nat.lt_or_ge i (tombstone now dropped rows).length with hlt | hge
  · rw [List.getElem?_append_left hlt, tombstone, List.getElem?_map] at ha
    obtain ⟨b, hb, hba⟩ := Option.map_eq_some_iff.mp ha
    split at hba
    · rename_i hdrop
      rw [← hba] at hother
      exact absurd (hdropped b hdrop) hother
    · rw [hb, hba]
  · rw [List.getElem?_append_right hge] at ha
    obtain ⟨r, -, rfl⟩ := List.mem_map.mp (List.mem_of_getElem? ha)
    exact absurd ⟨rfl, rfl⟩ hother

/-- What the rows are after a new set of roles. -/
theorem replacesVisible (hunique : ∀ o u, ((liveAssignments rows o u).map Assignment.role).Nodup)
    (hnodup : roles.Nodup) :
    ReplacesVisible db rows (tombstone now (droppedAssignments db rows o u roles) rows ++
      (addedRoles rows o u roles).map fun r => { object := o, user := u, role := r })
        o u roles where
  visible r hr := by
    rw [mem_roles_replaced]
    constructor
    · rintro (⟨a, ha, hkept, rfl⟩ | hadded)
      · by_contra hnot
        exact hkept (mem_droppedAssignments.mpr ⟨ha, hnot, not_isHidden_of_active hr⟩)
      · exact (mem_addedRoles.mp hadded).1
    · intro hmem
      by_cases hheld : r ∈ (liveAssignments rows o u).map Assignment.role
      · obtain ⟨a, ha, rfl⟩ := List.mem_map.mp hheld
        exact .inl ⟨a, ha, fun hdrop => (mem_droppedAssignments.mp hdrop).2.1 hmem, rfl⟩
      · exact .inr (mem_addedRoles.mpr ⟨hmem, hheld⟩)
  hidden i a ha _ hhidden :=
    getElem?_replaced ha fun hdrop => (mem_droppedAssignments.mp hdrop).2.2 hhidden
  same i a ha _ hmem :=
    getElem?_replaced ha fun hdrop => (mem_droppedAssignments.mp hdrop).2.1 hmem
  unique o' u' := by
    have hkept :
        ∀ o' u', ((liveAssignments (tombstone now (droppedAssignments db rows o u roles) rows)
        o' u').map Assignment.role).Nodup := by
      intro o' u'
      rw [tombstone, liveAssignments_drop]
      exact (hunique o' u').sublist (List.filter_sublist.map _)
    by_cases hself : o' = o ∧ u' = u
    · obtain ⟨rfl, rfl⟩ := hself
      exact (memberWrite_grant (grantRoles_added hnodup _)).unique (hkept o' u')
    · rw [(memberWrite_grant (grantRoles_added hnodup _)).others o' u' hself]
      exact hkept o' u'
  others i a hother := by
    have hdropped : ∀ b ∈ droppedAssignments db rows o u roles, b.object = o ∧ b.user = u := by
      intro b hb
      exact (mem_liveAssignments.mp (mem_droppedAssignments.mp hb).1).2.2
    exact ⟨fun ha => getElem?_replaced ha fun hdrop => hother (hdropped a hdrop),
      fun ha => getElem?_of_replaced hdropped hother ha⟩

end

/-! ### Hidden roles over many calls -/

/-- A call of `set_member_roles`, with the roles and the users as they are then. -/
structure SetCall where
  db : Directory
  now : Nat
  object : ObjectId
  user : UserId
  roles : List RoleId

/-- The rows after some calls. -/
def setAll (rows : List Assignment) (calls : List SetCall) : List Assignment :=
  calls.foldl (fun rows c => (setMemberRolesIn c.db c.now rows c.object c.user c.roles).2) rows

section
variable {db : Directory} {now : Nat} {rows : List Assignment} {o : ObjectId} {u : UserId}
  {roles : List RoleId}

/-- An assignment to a hidden role stays, whoever the call is about, and however it ends. -/
theorem getElem?_setMemberRolesIn {i : Nat} {a : Assignment} (ha : rows[i]? = some a)
    (hhidden : IsHidden db a.role) : (setMemberRolesIn db now rows o u roles).2[i]? = some a := by
  have hkept : a ∉ droppedAssignments db rows o u roles := fun hdrop =>
    (mem_droppedAssignments.mp hdrop).2.2 hhidden
  unfold setMemberRolesIn
  split
  · exact ha
  · dsimp only
    split
    · exact ha
    · split
      · have hrows := @getElem?_replaced now rows (droppedAssignments db rows o u roles)
            [] i a ha hkept
        rw [List.append_nil] at hrows
        exact hrows
      · rename_i rows' hgrant
        unfold grantRoles at hgrant
        split at hgrant
        · cases hgrant
          exact getElem?_replaced ha hkept
        · cases hgrant

/-- It stays over any number of calls. -/
theorem getElem?_setAll {calls : List SetCall} {i : Nat} {a : Assignment} (ha : rows[i]? = some a)
    (hhidden : ∀ c ∈ calls, IsHidden c.db a.role) : (setAll rows calls)[i]? = some a := by
  induction calls generalizing rows with
  | nil => exact ha
  | cons c calls ih =>
    refine ih ?_ fun c' hc' => hhidden c' (List.mem_cons_of_mem _ hc')
    exact getElem?_setMemberRolesIn ha (hhidden c List.mem_cons_self)

/-- **A new set of roles replaces the shown ones.** A success leaves the user with exactly the new
roles among those that the API shows, and every other row as it was. An error changes no row. So
an assignment to a role that is hidden at each of some calls is there after them, and its role is
one of the member again once it is active. -/
theorem set_member_roles_replaces_visible
    (hunique : ∀ o u, ((liveAssignments rows o u).map Assignment.role).Nodup) {ids : List RoleId}
    {found : List (RoleId × Role)} (hfound : resolveObjectRoles db ids = .ok found) (now : Nat)
    (o : ObjectId) (u : UserId) :
    (∀ returned rows', setMemberRolesIn db now rows o u (found.map Prod.fst) =
      (.ok returned, rows') → ReplacesVisible db rows rows' o u (found.map Prod.fst)) ∧
    (∀ e rows', setMemberRolesIn db now rows o u (found.map Prod.fst) = (.error e, rows') →
      rows' = rows) ∧
    ∀ calls a, a ∈ rows → a.live = true → (∀ c ∈ calls, IsHidden c.db a.role) →
      ∀ db', db'.activeRole a.role = true →
        a.role ∈ activeObjectRoles db' (setAll rows calls) a.object a.user := by
  have hroles := resolveObjectRoles_spec hfound
  refine ⟨?_, ?_, ?_⟩
  · intro returned rows' hset
    rcases @setMemberRolesIn_cases db now rows o u _ hroles.2 with ⟨-, h⟩ |
      ⟨e, -, -, h⟩ | ⟨-, -, h⟩
    · rw [h] at hset
      cases hset
    · rw [h] at hset
      cases hset
    · rw [h] at hset
      cases hset
      exact replacesVisible hunique hroles.2
  · intro e rows' hset
    rcases @setMemberRolesIn_cases db now rows o u _ hroles.2 with ⟨-, h⟩ |
      ⟨e, -, -, h⟩ | ⟨-, -, h⟩
    · rw [h] at hset
      cases hset
      rfl
    · rw [h] at hset
      cases hset
      rfl
    · rw [h] at hset
      cases hset
  · intro calls a ha hlive hhidden db' hactive
    obtain ⟨i, hi⟩ := List.mem_iff_getElem?.mp ha
    have hmem := List.mem_of_getElem? (getElem?_setAll hi hhidden)
    refine List.mem_filter.mpr ⟨List.mem_map_of_mem ?_, hactive⟩
    exact mem_liveAssignments.mpr ⟨hmem, hlive, rfl, rfl⟩

end

/-- A custom role that was deactivated, beside the system roles. -/
def reviewerInactive : Directory :=
  Accounts.deployed.db.setRole 6 { name := "reviewer", permissions := ∅, isActive := false }

/-- Bob holds it on a group, beside `annotator`. -/
def seminarRows : List Assignment :=
  [{ object := seminar, user := 1, role := 2 }, { object := seminar, user := 2, role := 4 },
    { object := seminar, user := 2, role := 6 }]

/-- Bob becomes a `viewer` instead of an `annotator`. -/
theorem set_member_roles_replaces_visible_of_hidden : ∃ rows',
    setMemberRolesIn reviewerInactive 0 seminarRows seminar 2 [5] = (.ok [5, 6], rows') ∧
      rows'.length = 4 ∧ ReplacesVisible reviewerInactive seminarRows rows' seminar 2 [5] := by
  have hunique : ∀ o u, ((liveAssignments seminarRows o u).map Assignment.role).Nodup := by
    intro o u
    have hroles : (seminarRows.map Assignment.role).Nodup := by decide
    exact hroles.sublist (List.filter_sublist.map _)
  have hfound : ∃ found, resolveObjectRoles reviewerInactive [5] = .ok found ∧
      found.map Prod.fst = [5] := ⟨_, rfl, rfl⟩
  obtain ⟨found, hfound, hids⟩ := hfound
  have hreplaces := (set_member_roles_replaces_visible hunique hfound 0 seminar 2).1
  rw [hids] at hreplaces
  exact ⟨_, rfl, rfl, hreplaces _ _ rfl⟩

/-! ### A repeated invitation -/

/-- The user has assignments on the object, and each is to a tombstoned role. -/
def OnlyTombstones (db : Directory) (rows : List Assignment) (o : ObjectId) (u : UserId) : Prop :=
  liveAssignments rows o u ≠ [] ∧ ∀ a ∈ liveAssignments rows o u, db.liveRole a.role = none

/-- The new set takes the protected role from its last live holder on the object. -/
def RemovesLastOwner (db : Directory) (rows : List Assignment) (o : ObjectId) (u : UserId)
    (roles : List RoleId) : Prop :=
  ∃ r, protectedRoleId db = some r ∧ r ∈ activeObjectRoles db rows o u ∧ r ∉ roles ∧
    liveProtectedHolderExists db rows o r u = false

/-- The error for it. -/
def lastOwnerError : ApiError :=
  .conflict ("Cannot remove the last " ++ quoted protectedRole.value
    ++ "; assign another holder first.")

section
variable {db : Directory} {rows rows' : List Assignment} {o : ObjectId} {u : UserId}
  {roles : List RoleId}

theorem heldRoles_eq_nil_iff :
    heldRoles db rows o u = [] ↔ ∀ a ∈ liveAssignments rows o u, db.liveRole a.role = none := by
  simp [heldRoles, List.filterMap_eq_nil_iff]

/-- The roles that the API shows are the active ones. -/
theorem mem_activeObjectRoles {r : RoleId} :
    r ∈ activeObjectRoles db rows o u ↔
      r ∈ (liveAssignments rows o u).map Assignment.role ∧ db.activeRole r = true := by
  rw [activeObjectRoles, List.mem_filter]

/-- A live role that is not hidden is active. -/
theorem activeRole_of_not_isHidden {r : RoleId} {role : Role} (h : db.role r = some role)
    (hshown : ¬ IsHidden db r) : db.activeRole r = true := by
  have hdeleted : role.deleted = false := by
    cases hd : role.deleted with
    | false => rfl
    | true => exact absurd ⟨role, h, .inr hd⟩ hshown
  have hactive : role.isActive = true := by
    cases ha : role.isActive with
    | true => rfl
    | false => exact absurd ⟨role, h, .inl ha⟩ hshown
  exact Directory.activeRole_eq_true.mpr
    ⟨role, Directory.liveRole_eq_some.mpr ⟨h, hdeleted⟩, hactive⟩

/-- The guard of the protected role refuses just the removal of the last owner. -/
theorem removesLastOwner_of_error {e : ApiError}
    (h : assertProtectedRoleSurvives db rows o u (droppedAssignments db rows o u roles) =
      .error e) :
    e = lastOwnerError ∧ RemovesLastOwner db rows o u roles := by
  unfold assertProtectedRoleSurvives at h
  split at h
  · rename_i r hprotected
    unfold check at h
    split at h
    · cases h
    · rename_i hfails
      cases h
      simp only [Bool.or_eq_true, Bool.not_eq_true', List.any_eq_false, beq_iff_eq,
        not_or, not_forall, not_not, Bool.not_eq_true] at hfails
      obtain ⟨⟨a, hdropped, hrole⟩, hnobody⟩ := hfails
      obtain ⟨hlive, hnot, hshown⟩ := mem_droppedAssignments.mp hdropped
      obtain ⟨⟨r', row⟩, hname, hr'⟩ := Option.map_eq_some_iff.mp hprotected
      have hfound : db.liveRole r' = some row := (Directory.liveRole_of_findRole hname).1
      rw [hrole] at hnot hshown
      have hrow : db.role r = some row := by
        rw [← hr']
        exact (Directory.liveRole_eq_some.mp hfound).1
      refine ⟨rfl, r, hprotected, mem_activeObjectRoles.mpr ⟨?_, ?_⟩, hnot, hnobody⟩
      · rw [← hrole]
        exact List.mem_map_of_mem hlive
      · exact activeRole_of_not_isHidden hrow hshown
  · cases h

/-- How a user gets exactly some roles. Either the shown roles are those, or the last owner would
go. -/
theorem assignRoles_spec {s : Accounts}
    (hunique : ∀ o u, ((liveAssignments rows o u).map Assignment.role).Nodup)
    (hnodup : roles.Nodup) (hactive : ∀ r ∈ roles, db.activeRole r = true)
    (h : ¬ OnlyTombstones db rows o u) :
    (∃ rows', s.assignRoles db rows o u roles = .ok rows' ∧
      ∀ r, r ∈ activeObjectRoles db rows' o u ↔ r ∈ roles) ∨
    s.assignRoles db rows o u roles = .error lastOwnerError ∧
      RemovesLastOwner db rows o u roles := by
  unfold Accounts.assignRoles
  by_cases hnone : liveAssignments rows o u = []
  · -- The user is no member yet.
    have hheld : heldRoles db rows o u = [] := by
      rw [heldRoles_eq_nil_iff, hnone]
      nofun
    have hgrant : grantRoles rows o u roles =
        some (rows ++ roles.map fun r => { object := o, user := u, role := r }) := by
      rw [grantRoles, if_pos]
      rw [hnone]
      exact ⟨hnodup, nofun⟩
    rw [hheld, if_pos List.isEmpty_nil]
    refine .inl ⟨rows ++ roles.map fun r => { object := o, user := u, role := r },
      ?_, fun r => ?_⟩
    · unfold addMember
      rw [hnone, hgrant]
      rfl
    · rw [mem_activeObjectRoles, liveAssignments_grant, hnone, if_pos ⟨rfl, rfl⟩, List.nil_append,
        List.map_map]
      show r ∈ roles.map id ∧ _ ↔ _
      rw [List.map_id]
      exact ⟨And.left, fun hr => ⟨hr, hactive r hr⟩⟩
  · have hheld : (heldRoles db rows o u).isEmpty = false := by
      cases hempty : (heldRoles db rows o u).isEmpty with
      | false => rfl
      | true => exact absurd ⟨hnone, heldRoles_eq_nil_iff.mp (List.isEmpty_iff.mp hempty)⟩ h
    rw [hheld, if_neg Bool.false_ne_true, setMemberRoles_eq]
    rcases @setMemberRolesIn_cases db s.now rows o u roles hnodup with
      ⟨hnil, -⟩ | ⟨e, -, hassert, hset⟩ | ⟨-, -, hset⟩
    · exact absurd hnil hnone
    · obtain ⟨rfl, hlast⟩ := removesLastOwner_of_error hassert
      rw [hset]
      exact .inr ⟨rfl, hlast⟩
    · rw [hset]
      refine .inl ⟨_, rfl, fun r => ?_⟩
      rw [mem_activeObjectRoles]
      have hvisible := (@replacesVisible db s.now rows o u roles hunique hnodup).visible r
      constructor
      · rintro ⟨hmem, hr⟩
        exact (hvisible hr).mp hmem
      · intro hr
        exact ⟨(hvisible (hactive r hr)).mpr hr, hactive r hr⟩

/-- An invitation of a user leaves exactly the requested roles shown. Or it fails, and would
remove the last owner. -/
def Reconciles (env : Env) (s : Accounts) (fresh : Fresh) (inviter : SessionUser) (o : ObjectId)
    (email : String) (roleIds : RoleIds) (u : UserId) : Prop :=
  (∃ s', s.inviteToGroup env fresh inviter o email roleIds = .ok s' ∧
    ∀ r, r ∈ activeObjectRoles s'.db s'.assignments o u ↔ r ∈ roleIds.1) ∨
  s.inviteToGroup env fresh inviter o email roleIds = .error lastOwnerError ∧
    RemovesLastOwner s.db s.assignments o u roleIds.1

/-- An invitation of a user who is not inactive gives the roles, whatever it does beside that. -/
theorem inviteToGroup_eq {env : Env} {s : Accounts} {fresh : Fresh} {inviter : SessionUser}
    {email : String} {roleIds : RoleIds} {found : List (RoleId × Role)} {row : User}
    (hmay : mayManageMembers s.db s.assignments inviter o = true)
    (hfound : resolveObjectRoles s.db roleIds.1 = .ok found)
    (huser : s.db.userByEmail email = some (u, row)) (hstatus : row.status ≠ .inactive) :
    ∃ f : List Assignment → Accounts, (∀ rows, (f rows).db = s.db ∧ (f rows).assignments = rows) ∧
      s.inviteToGroup env fresh inviter o email roleIds =
        (s.assignRoles s.db s.assignments o u (found.map Prod.fst)).map f := by
  have honboarding : ∃ f : List Assignment → Accounts,
      (∀ rows, (f rows).db = s.db ∧ (f rows).assignments = rows) ∧
        s.inviteOnboarding env fresh inviter o u (found.map Prod.fst) =
          (s.assignRoles s.db s.assignments o u (found.map Prod.fst)).map f := by
    refine ⟨fun assignments =>
      ({ s with assignments }.revokeInvitations u (some o)).issueInvitation env
      u fresh.token (some inviter.id) (some o), fun _ => ⟨rfl, rfl⟩, ?_⟩
    unfold Accounts.inviteOnboarding
    cases s.assignRoles s.db s.assignments o u (found.map Prod.fst) with
    | error e => rfl
    | ok rows => rfl
  unfold Accounts.inviteToGroup
  rw [hmay, hfound, huser]
  cases hrow : row.status with
  | inactive => exact absurd hrow hstatus
  | active =>
    refine ⟨fun assignments => { s with assignments }, fun _ => ⟨rfl, rfl⟩, ?_⟩
    simp only [ok_bind, hrow]
    cases s.assignRoles s.db s.assignments o u (found.map Prod.fst) with
    | error e => rfl
    | ok rows => rfl
  | pending =>
    simp only [ok_bind, hrow]
    exact honboarding
  | invited =>
    simp only [ok_bind, hrow]
    exact honboarding

/-- **A repeated invitation.** In every reachable state, an invitation with valid roles, of a user
who is not inactive and by a caller who may manage the members, reconciles the roles of the user
exactly when the user is not left with tombstoned roles only. -/
theorem invite_reconciles_iff {env : Env} {s₀ s : Accounts} {ls : List Label}
    {inviter : SessionUser} {email : String} {roleIds : RoleIds}
    {found : List (RoleId × Role)} {row : User}
    (hstart : SyncedPlatform s₀) (hrun : run (step env) s₀ ls = some s)
    (hmay : mayManageMembers s.db s.assignments inviter o = true)
    (hfound : resolveObjectRoles s.db roleIds.1 = .ok found)
    (huser : s.db.userByEmail email = some (u, row)) (hstatus : row.status ≠ .inactive)
    (fresh : Fresh) :
    Reconciles env s fresh inviter o email roleIds u ↔
      ¬ OnlyTombstones s.db s.assignments o u := by
  have hok : AssignmentsOk s :=
    run_invariant (fun _ _ _ => AssignmentsOk.step) hstart.assignmentsOk hrun
  have hroles := resolveObjectRoles_spec hfound
  obtain ⟨f, hf, hinvite⟩ :=
    @inviteToGroup_eq o u env s fresh inviter email roleIds found row hmay hfound
    huser hstatus
  unfold Reconciles
  rw [hinvite]
  constructor
  · rintro hends ⟨hne, htombstones⟩
    have hheld : heldRoles s.db s.assignments o u = [] := heldRoles_eq_nil_iff.mpr htombstones
    rcases hends with ⟨s', hsome, -⟩ | ⟨-, r, -, hr, -⟩
    · -- The assignments are there, so the user cannot be added.
      unfold Accounts.assignRoles at hsome
      rw [hheld, if_pos List.isEmpty_nil, addMember] at hsome
      have hsomeRows : (liveAssignments s.assignments o u).isEmpty = false := by
        cases hempty : (liveAssignments s.assignments o u).isEmpty with
        | false => rfl
        | true => exact absurd (List.isEmpty_iff.mp hempty) hne
      rw [hsomeRows] at hsome
      cases hsome
    · obtain ⟨hmem, hactive⟩ := mem_activeObjectRoles.mp hr
      obtain ⟨a, ha, rfl⟩ := List.mem_map.mp hmem
      obtain ⟨role, hlive, -⟩ := Directory.activeRole_eq_true.mp hactive
      rw [htombstones a ha] at hlive
      cases hlive
  · intro hnot
    have hids : ∀ r, r ∈ found.map Prod.fst ↔ r ∈ roleIds.1 := fun r =>
        mem_resolveObjectRoles hfound
    rcases @assignRoles_spec s.db s.assignments o u _ s hok.unique hroles.2 hroles.1 hnot with
      ⟨rows', hassign, hshown⟩ | ⟨hassign, r, hprotected, hr, hout, hnobody⟩
    · refine .inl ⟨f rows', ?_, fun r => ?_⟩
      · rw [hassign]
        rfl
      · rw [(hf rows').1, (hf rows').2, hshown, hids]
    · refine .inr ⟨?_, r, hprotected, hr, fun hmem => hout ((hids r).mpr hmem), hnobody⟩
      rw [hassign]
      rfl

end

/-- The admin can invite Bob to the group as a `viewer`, and whether Bob has a live role there is
`isMember`. -/
def bobInvitable (isMember : Bool) (s : Accounts) : Bool :=
  mayManageMembers s.db s.assignments Accounts.rootSession seminar &&
    (resolveObjectRoles s.db [5]).toOption.isSome &&
    ((s.db.userByEmail "bob@example.com").any fun x => x.1 == 2 && x.2.status != .inactive) &&
    !(liveAssignments s.assignments seminar 2).isEmpty &&
    ((liveAssignments s.assignments seminar 2).any fun a => (s.db.liveRole a.role).isSome) ==
      isMember

/-- What the check says. -/
theorem bobInvitable_spec {isMember : Bool} {s : Accounts} (h : bobInvitable isMember s = true) :
    mayManageMembers s.db s.assignments Accounts.rootSession seminar = true ∧
      (∃ found, resolveObjectRoles s.db [5] = .ok found) ∧
      (∃ row, s.db.userByEmail "bob@example.com" = some (2, row) ∧ row.status ≠ .inactive) ∧
      (OnlyTombstones s.db s.assignments seminar 2 ↔ isMember = false) := by
  simp only [bobInvitable, Bool.and_eq_true, beq_iff_eq, bne_iff_ne, ne_eq, Bool.not_eq_true',
    Option.any_eq_true, Prod.exists, Option.isSome_iff_exists] at h
  obtain ⟨⟨⟨⟨hmay, found, hfound⟩, u, row, huser, rfl, hstatus⟩, hne⟩, hmember⟩ := h
  refine ⟨hmay, ?_, ⟨row, huser, hstatus⟩, ?_⟩
  · cases hresolve : resolveObjectRoles s.db [5] with
    | error e =>
      rw [hresolve] at hfound
      cases hfound
    | ok found' => exact ⟨found', rfl⟩
  · rw [← hmember, List.any_eq_false]
    constructor
    · rintro ⟨-, htombstones⟩ a ha hlive
      rw [htombstones a ha] at hlive
      cases hlive
    · intro hnone
      refine ⟨fun hnil => ?_, fun a ha => ?_⟩
      · rw [hnil] at hne
        cases hne
      · simpa using hnone a ha

/-- Bob, a reviewer of the group, is invited again as a viewer. -/
theorem invite_reconciles_of_reviewer : ∃ s,
    run (step Accounts.plainEnv) Accounts.deployed inviteReviewer = some s ∧
      Reconciles Accounts.plainEnv s
        { user := 9, role := 9, token := "again" } Accounts.rootSession
        seminar "bob@example.com" ⟨[5], by decide⟩ 2 := by
  have hany : (run (step Accounts.plainEnv) Accounts.deployed inviteReviewer).any
      (bobInvitable true) = true := by decide +kernel
  obtain ⟨s, hrun, hinvitable⟩ := exists_run_of_any hany
  obtain ⟨hmay, ⟨found, hfound⟩, ⟨row, huser, hstatus⟩, htombstones⟩ :=
    bobInvitable_spec hinvitable
  have hmember : ¬ OnlyTombstones s.db s.assignments seminar 2 := by
    rw [htombstones]
    nofun
  have hvalid : resolveObjectRoles s.db (⟨[5], by decide⟩ : RoleIds).1 = .ok found := hfound
  exact ⟨s, hrun,
    (invite_reconciles_iff deployed_platform hrun hmay hvalid huser hstatus _).mpr hmember⟩

/-- Bob's only role on the group is deleted while Bob is deleted, and Bob is then restored. -/
def deleteReviewerRole : List Label :=
  [byRoot (.deleteUser Accounts.rootSession 2), byRoot (.deleteRole Accounts.rootSession 6),
    byRoot (.restoreUser Accounts.rootSession 2)]

/-- The invitation fails because Bob has a role already. -/
def refusedAsMember (s : Accounts) : Bool :=
  match s.inviteToGroup Accounts.plainEnv { user := 9, role := 9, token := "again" }
    Accounts.rootSession seminar "bob@example.com" (RoleIds.single 5) with
  | .error e => e == .conflict "User already has a role on this object."
  | .ok _ => false

/-- Not every invitation reconciles. Bob has an assignment, and no live role. -/
theorem invite_refused_for_tombstones : ∃ s,
    run (step Accounts.plainEnv) Accounts.deployed (inviteReviewer ++ deleteReviewerRole) =
      some s ∧ mayManageMembers s.db s.assignments Accounts.rootSession seminar = true ∧
      (∃ found, resolveObjectRoles s.db [5] = .ok found) ∧
      (∃ row, s.db.userByEmail "bob@example.com" = some (2, row) ∧ row.status ≠ .inactive) ∧
      ¬ Reconciles Accounts.plainEnv s
        { user := 9, role := 9, token := "again" } Accounts.rootSession
        seminar "bob@example.com" ⟨[5], by decide⟩ 2 := by
  have hany :
      (run (step Accounts.plainEnv) Accounts.deployed (inviteReviewer ++ deleteReviewerRole)).any
      (fun s => bobInvitable false s && refusedAsMember s) = true := by decide +kernel
  obtain ⟨s, hrun, hs⟩ := exists_run_of_any hany
  obtain ⟨hinvitable, hrefused⟩ := (Bool.and_eq_true _ _).mp hs
  obtain ⟨hmay, hfound, huser, -⟩ := bobInvitable_spec hinvitable
  refine ⟨s, hrun, hmay, hfound, huser, ?_⟩
  unfold refusedAsMember at hrefused
  split at hrefused
  · rename_i e he
    rw [beq_iff_eq.mp hrefused] at he
    rintro (⟨s', hok, -⟩ | ⟨hlast, -⟩)
    · cases he.symm.trans hok
    · exact absurd (Except.error.inj (he.symm.trans hlast)) (by decide)
  · cases hrefused

end RedTeaming.Membership
