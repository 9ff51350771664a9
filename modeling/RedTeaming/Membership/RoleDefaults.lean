import RedTeaming.Membership.RoleActivity

/-!
# `RedTeaming.Membership.RoleDefaults`: the two default flags

One live role is the default of new accounts, and one is the default of self-joins. `SoleHolder`
says of a flag that one live row has it, and no other row. The move of a flag is two writes, so it
is kept by a whole request, not by each write: `SoleHolder.write` is for a write that leaves the
flag of its row, and `SoleHolder.moveFlag` for the move.

What a flagged role must be is a property of rows (`FlagsOk`). Each change of a row keeps it
(`FlagsOk.of_change`), because a guard looks at the flags before an edit, a deactivation, or a
deletion. That neither `admin` nor `owner` is the default is part of `RoleOk`.

A sync finds a live row for each system role (`Present`), so it creates none, and what it writes
is what the row has. `role_defaults` is the result.
-/

set_option autoImplicit false

namespace RedTeaming.Membership

open RedTeaming.Auth
open RedTeaming.Library

/-! ### Flagged rows -/

/-- What holds of the flags of a row. A system role is assignable in groups when its spec says so.
A flagged role is active, and a participant default can be granted in a group. -/
structure FlagsOk (role : Role) : Prop where
  system : role.isSystem = true → ∀ q : SystemRole, role.name = q.value →
    role.isObjectAssignable = objectAssignableSystemRoles.contains q
  newUser : role.isDefault = true → role.isActive = true
  participant : role.isParticipantDefault = true →
    role.isActive = true ∧ role.isObjectAssignable = true ∧ requiredPermission ∈ role.permissions

/-- A role that can be granted in a group. -/
theorem assertGrantableInGroup_eq_ok {role : Role} {x : Unit} :
    assertGrantableInGroup role = .ok x ↔
      role.isObjectAssignable = true ∧ requiredPermission ∈ role.permissions := by
  simp [assertGrantableInGroup, bind_eq_ok]

/-- An edit leaves a participant default assignable, and with the required permission. -/
theorem grantable_of_updateRole {groupHolders : Nat} {role role' : Role} {e : RoleEdits}
    (h : updateRole groupHolders role e = .ok role') (hflag : role.isParticipantDefault = true)
    (hassignable : role.isObjectAssignable = true) :
    role'.isObjectAssignable = true ∧ requiredPermission ∈ role'.permissions := by
  simp only [updateRole, bind_eq_ok] at h
  obtain ⟨_, -, _, -, _, hunassign, _, hgrantable, h⟩ := h
  cases h
  -- The flag is not cleared: the guard refuses that for the self-join default.
  have hkept : (e.applyTo role).isObjectAssignable = true := by
    show e.isObjectAssignable.getD role.isObjectAssignable = true
    cases hedit : e.isObjectAssignable with
    | none => exact hassignable
    | some b =>
      cases b with
      | true => rfl
      | false => simp [assertCanUnassign, hedit, hassignable, hflag, bind_eq_ok] at hunassign
  simp only [assertStillGrantable, hkept, if_true] at hgrantable
  exact assertGrantableInGroup_eq_ok.mp hgrantable

/-- Every change of a row keeps what holds of its flags. -/
theorem FlagsOk.of_change {old : Option Role} {new : Role} (hchange : RoleChange old new)
    (h : ∀ role, old = some role → FlagsOk role) : FlagsOk new := by
  cases hchange with
  | create form hperm hname => exact ⟨nofun, nofun, nofun⟩
  | @edit _ role _ e hedit =>
    have hok := h role rfl
    have hgrantable := grantable_of_updateRole hedit
    obtain ⟨hsystem, rfl, -⟩ := updateRole_spec hedit
    refine ⟨fun hsystem' => ?_, hok.newUser, fun hflag => ?_⟩
    · rw [show (e.applyTo role).isSystem = role.isSystem from rfl, hsystem] at hsystem'
      cases hsystem'
    · obtain ⟨hactive, hassignable, -⟩ := hok.participant hflag
      exact ⟨hactive, hgrantable hflag hassignable⟩
  | @activate _ _ role _ isActive hset =>
    have hok := h role rfl
    obtain ⟨rfl, hguard⟩ := setRoleActive_spec hset
    -- A flagged role is active, and the guard of a switch-off refuses it.
    have hstays (hflag : role.isDefault = true ∨ role.isParticipantDefault = true) :
        isActive = true := by
      have hactive : role.isActive = true := by
        rcases hflag with hflag | hflag
        · exact hok.newUser hflag
        · exact (hok.participant hflag).1
      cases isActive with
      | true => rfl
      | false =>
        obtain ⟨-, hdefault, hparticipant⟩ := assertDeactivatable_eq_ok.mp (hguard hactive rfl)
        simp [hdefault, hparticipant] at hflag
    refine ⟨hok.system, fun hflag => hstays (Or.inl hflag), fun hflag => ?_⟩
    exact ⟨hstays (Or.inr hflag), (hok.participant hflag).2⟩
  | clearDefault role => exact ⟨(h role rfl).system, nofun, (h role rfl).participant⟩
  | clearParticipant role => exact ⟨(h role rfl).system, (h role rfl).newUser, nofun⟩
  | @markDefault role hcan hactive =>
    exact ⟨(h role rfl).system, fun _ => hactive, (h role rfl).participant⟩
  | @markParticipant role hcan hactive hgrantable =>
    refine ⟨(h role rfl).system, (h role rfl).newUser, fun _ => ⟨hactive, ?_⟩⟩
    exact assertGrantableInGroup_eq_ok.mp hgrantable
  | @delete _ _ _ role _ hdelete =>
    obtain ⟨-, -, -, rfl⟩ := deleteRole_spec hdelete
    exact ⟨(h role rfl).system, (h role rfl).newUser, (h role rfl).participant⟩
  | @restore role hsystem =>
    exact ⟨(h role rfl).system, (h role rfl).newUser, (h role rfl).participant⟩

/-! ### The holder of a flag -/

/-- One live row has the flag, and no other row, live or not. -/
def SoleHolder (db : Directory) (flag : DefaultFlag) : Prop :=
  ∃ r role, db.liveRole r = some role ∧ flag.get role = true ∧
    ∀ r' role', db.role r' = some role' → flag.get role' = true → r' = r

section
variable {db db' : Directory} {flag : DefaultFlag} {r : RoleId}

/-- A write that leaves the flag of its row, and does not delete the holder. -/
theorem SoleHolder.write {old new : Role} (h : SoleHolder db flag) (hold : db.role r = some old)
    (hflag : flag.get new = flag.get old)
    (hlive : flag.get old = true → old.deleted = false → new.deleted = false) :
    SoleHolder (db.setRole r new) flag := by
  obtain ⟨c, role, hrole, hget, hsole⟩ := h
  obtain ⟨hrow, hrolelive⟩ := Directory.liveRole_eq_some.mp hrole
  have hothers : ∀ r' role', (db.setRole r new).role r' = some role' → flag.get role' = true →
      r' = c := by
    intro r' role' hrow' hget'
    rw [Directory.setRole_role, update_some_eq_some] at hrow'
    rcases hrow' with ⟨rfl, rfl⟩ | ⟨-, hrow'⟩
    · exact hsole r' old hold (hflag ▸ hget')
    · exact hsole r' role' hrow' hget'
  by_cases hc : c = r
  · subst hc
    rw [hold] at hrow
    cases hrow
    refine ⟨c, new, ?_, hflag.trans hget, hothers⟩
    rw [Directory.liveRole_eq_some, Directory.setRole_role, Function.update_self]
    exact ⟨rfl, hlive hget hrolelive⟩
  · refine ⟨c, role, ?_, hget, hothers⟩
    rw [Directory.liveRole_eq_some, Directory.setRole_role, Function.update_of_ne hc]
    exact ⟨hrow, hrolelive⟩

/-- A new row without the flag. -/
theorem SoleHolder.insert {new : Role} (h : SoleHolder db flag) (hfresh : db.role r = none)
    (hflag : flag.get new = false) : SoleHolder (db.setRole r new) flag := by
  obtain ⟨c, role, hrole, hget, hsole⟩ := h
  obtain ⟨hrow, hlive⟩ := Directory.liveRole_eq_some.mp hrole
  have hc : c ≠ r := by
    rintro rfl
    rw [hfresh] at hrow
    cases hrow
  refine ⟨c, role, ?_, hget, ?_⟩
  · rw [Directory.liveRole_eq_some, Directory.setRole_role, Function.update_of_ne hc]
    exact ⟨hrow, hlive⟩
  · intro r' role' hrow' hget'
    rw [Directory.setRole_role, update_some_eq_some] at hrow'
    rcases hrow' with ⟨rfl, rfl⟩ | ⟨-, hrow'⟩
    · rw [hflag] at hget'
      cases hget'
    · exact hsole r' role' hrow' hget'

/-- The move of the flag makes its target the sole holder. -/
theorem SoleHolder.moveFlag {role : Role} (h : SoleHolder db flag)
    (hset : ∀ b role, flag.get (flag.set b role) = b)
    (hdeleted : ∀ b role, (flag.set b role).deletedAt = role.deletedAt)
    (hrole : db.liveRole r = some role) : SoleHolder (moveFlag db flag r role) flag := by
  obtain ⟨hrow, hlive⟩ := Directory.liveRole_eq_some.mp hrole
  unfold Auth.moveFlag
  split
  · exact h
  · rename_i hnot
    obtain ⟨c, current, hcurrent, hget, hsole⟩ := h
    obtain ⟨hcrow, -⟩ := Directory.liveRole_eq_some.mp hcurrent
    have hclear : clearFlag db flag = db.setRole c (flag.set false current) := by
      unfold clearFlag
      cases hfind : db.findRole flag.get with
      | none =>
        have hnone := Directory.not_of_findRole_eq_none hfind hcurrent
        rw [hget] at hnone
        cases hnone
      | some found =>
        obtain ⟨c', current'⟩ := found
        obtain ⟨hcurrent', hget'⟩ := Directory.liveRole_of_findRole hfind
        have hcrow' := (Directory.liveRole_eq_some.mp hcurrent').1
        obtain rfl := hsole c' current' hcrow' hget'
        rw [hcrow] at hcrow'
        cases hcrow'
        rfl
    rw [hclear]
    refine ⟨r, flag.set true role, ?_, hset true role, ?_⟩
    · rw [Directory.liveRole_eq_some, Directory.setRole_role, Function.update_self]
      exact ⟨rfl, by rw [Role.deleted, hdeleted]; exact hlive⟩
    · intro r' role' hrow' hget'
      rw [Directory.setRole_role, update_some_eq_some] at hrow'
      rcases hrow' with ⟨rfl, -⟩ | ⟨-, hrow'⟩
      · rfl
      · rw [Directory.setRole_role, update_some_eq_some] at hrow'
        rcases hrow' with ⟨rfl, rfl⟩ | ⟨hne, hrow'⟩
        · rw [hset] at hget'
          cases hget'
        · exact absurd (hsole r' role' hrow' hget') hne

/-- The move of one flag leaves the holder of another. -/
theorem SoleHolder.moveOther {other : DefaultFlag} {role : Role} (h : SoleHolder db flag)
    (hother : ∀ b role, flag.get (other.set b role) = flag.get role)
    (hdeleted : ∀ b role, (other.set b role).deletedAt = role.deletedAt)
    (hrole : db.liveRole r = some role) : SoleHolder (Auth.moveFlag db other r role) flag := by
  have hlive (b : Bool) (role : Role) (h : role.deleted = false) :
      (other.set b role).deleted = false := by
    rw [Role.deleted, hdeleted]
    exact h
  unfold Auth.moveFlag
  split
  · exact h
  · rename_i hnot
    unfold clearFlag
    cases hfind : db.findRole other.get with
    | none =>
      exact h.write (Directory.liveRole_eq_some.mp hrole).1 (hother _ _) fun _ => hlive _ _
    | some found =>
      obtain ⟨c, current⟩ := found
      obtain ⟨hcurrent, hget⟩ := Directory.liveRole_of_findRole hfind
      have hne : r ≠ c := by
        rintro rfl
        rw [hrole] at hcurrent
        cases hcurrent
        exact hnot hget
      have hcleared : SoleHolder (db.setRole c (other.set false current)) flag :=
        h.write (Directory.liveRole_eq_some.mp hcurrent).1 (hother _ _) fun _ => hlive _ _
      refine hcleared.write ?_ (hother _ _) fun _ => hlive _ _
      rw [Directory.setRole_role, Function.update_of_ne hne]
      exact (Directory.liveRole_eq_some.mp hrole).1

/-! ### Requests on the role table -/

/-- The two flags. -/
def IsDefaultFlag (flag : DefaultFlag) : Prop := flag = .newUser ∨ flag = .participant

theorem SoleHolder.createRole {form : RoleCreate} (hflag : IsDefaultFlag flag)
    (h : SoleHolder db flag) (hfresh : db.role r = none)
    (hcreate : createRole db r form = .ok db') : SoleHolder db' flag := by
  simp only [Auth.createRole, bind_eq_ok] at hcreate
  obtain ⟨_, -, _, -, hcreate⟩ := hcreate
  cases hcreate
  refine h.insert hfresh ?_
  rcases hflag with rfl | rfl <;> rfl

theorem SoleHolder.patchFields {rows : List Assignment} {e : RoleEdits}
    (hflag : IsDefaultFlag flag) (h : SoleHolder db flag)
    (hpatch : patchFields db rows r e = .ok db') : SoleHolder db' flag := by
  simp only [Auth.patchFields, bind_eq_ok, getRole_eq_ok] at hpatch
  obtain ⟨role, hrole, hpatch⟩ := hpatch
  split at hpatch
  · cases hpatch
    exact h
  · simp only [bind_eq_ok] at hpatch
    obtain ⟨role', hupdate, hpatch⟩ := hpatch
    cases hpatch
    obtain ⟨-, rfl, -⟩ := updateRole_spec hupdate
    refine h.write (Directory.liveRole_eq_some.mp hrole).1 ?_ fun _ hlive => hlive
    rcases hflag with rfl | rfl <;> rfl

theorem SoleHolder.patchActive {rows : List Assignment} {isActive : Option Bool}
    (hflag : IsDefaultFlag flag) (h : SoleHolder db flag)
    (hpatch : patchActive db rows r isActive = .ok db') : SoleHolder db' flag := by
  match isActive with
  | none =>
    cases hpatch
    exact h
  | some isActive =>
    simp only [Auth.patchActive, bind_eq_ok, getRole_eq_ok] at hpatch
    obtain ⟨role, hrole, role', hset, hpatch⟩ := hpatch
    cases hpatch
    obtain ⟨rfl, -⟩ := setRoleActive_spec hset
    refine h.write (Directory.liveRole_eq_some.mp hrole).1 ?_ fun _ hlive => hlive
    rcases hflag with rfl | rfl <;> rfl

theorem SoleHolder.patchDefault {isDefault : Option Bool} (hflag : IsDefaultFlag flag)
    (h : SoleHolder db flag) (hpatch : patchDefault db r isDefault = .ok db') :
    SoleHolder db' flag := by
  match isDefault with
  | none =>
    cases hpatch
    exact h
  | some true =>
    simp only [Auth.patchDefault, setDefaultRole, bind_eq_ok, getRole_eq_ok] at hpatch
    obtain ⟨role, hrole, _, -, _, -, hpatch⟩ := hpatch
    cases hpatch
    rcases hflag with rfl | rfl
    · exact h.moveFlag (fun _ _ => rfl) (fun _ _ => rfl) hrole
    · exact h.moveOther (fun _ _ => rfl) (fun _ _ => rfl) hrole
  | some false =>
    simp only [Auth.patchDefault, bind_eq_ok] at hpatch
    obtain ⟨_, -, _, -, hpatch⟩ := hpatch
    cases hpatch
    exact h

theorem SoleHolder.patchParticipantDefault {isDefault : Option Bool}
    (hflag : IsDefaultFlag flag) (h : SoleHolder db flag)
    (hpatch : patchParticipantDefault db r isDefault = .ok db') : SoleHolder db' flag := by
  match isDefault with
  | none =>
    cases hpatch
    exact h
  | some true =>
    simp only [Auth.patchParticipantDefault, setParticipantDefaultRole, bind_eq_ok,
      getRole_eq_ok] at hpatch
    obtain ⟨role, hrole, _, -, _, -, _, -, hpatch⟩ := hpatch
    cases hpatch
    rcases hflag with rfl | rfl
    · exact h.moveOther (fun _ _ => rfl) (fun _ _ => rfl) hrole
    · exact h.moveFlag (fun _ _ => rfl) (fun _ _ => rfl) hrole
  | some false =>
    simp only [Auth.patchParticipantDefault, bind_eq_ok] at hpatch
    obtain ⟨_, -, _, -, hpatch⟩ := hpatch
    cases hpatch
    exact h

/-- A deletion refuses both defaults. -/
theorem SoleHolder.removeRole {now : Nat} {rows : List Assignment} (hflag : IsDefaultFlag flag)
    (h : SoleHolder db flag) (hremove : removeRole db now rows r = .ok db') :
    SoleHolder db' flag := by
  simp only [Auth.removeRole, bind_eq_ok, getRole_eq_ok] at hremove
  obtain ⟨role, hrole, role', hdelete, hremove⟩ := hremove
  cases hremove
  obtain ⟨-, hdefault, hparticipant, rfl⟩ := deleteRole_spec hdelete
  have hunflagged : flag.get role = false := by
    rcases hflag with rfl | rfl
    · exact hdefault
    · exact hparticipant
  refine h.write (Directory.liveRole_eq_some.mp hrole).1 ?_ fun hget => ?_
  · rcases hflag with rfl | rfl <;> rfl
  · rw [hunflagged] at hget
    cases hget

theorem SoleHolder.restoreRole {now window : Nat} (hflag : IsDefaultFlag flag)
    (h : SoleHolder db flag) (hrestore : restoreRole db now window r = .ok db') :
    SoleHolder db' flag := by
  unfold Auth.restoreRole at hrestore
  split at hrestore
  · cases hrestore
  · rename_i role hrole
    simp only [bind_eq_ok] at hrestore
    obtain ⟨_, -, _, -, hrestore⟩ := hrestore
    cases hrestore
    refine h.write (Option.filter_eq_some_iff.mp hrole).1 ?_ fun _ _ => rfl
    rcases hflag with rfl | rfl <;> rfl

/-- A request on the role table keeps each flag with one holder. -/
theorem SoleHolder.roleTableWrite {env : Env} {s : Accounts} (hflag : IsDefaultFlag flag)
    (h : SoleHolder s.db flag) (hwrite : s.RoleTableWrite env db') : SoleHolder db' flag := by
  cases hwrite with
  | create hfresh hcreate => exact h.createRole hflag hfresh hcreate
  | patch hpatch =>
    simp only [patchRole, bind_eq_ok] at hpatch
    obtain ⟨db₁, hfields, db₂, hactive, db₃, hdefault, hparticipant⟩ := hpatch
    have h₁ := h.patchFields hflag hfields
    have h₂ := h₁.patchActive hflag hactive
    have h₃ := h₂.patchDefault hflag hdefault
    exact h₃.patchParticipantDefault hflag hparticipant
  | remove hremove => exact h.removeRole hflag hremove
  | restore hrestore => exact h.restoreRole hflag hrestore

/-- A request on the role table is a sequence of row changes. -/
theorem roleWrites_of_roleTableWrite {env : Env} {s : Accounts}
    (h : s.RoleTableWrite env db') : RoleWrites s.db db' := by
  cases h with
  | create hfresh h => exact .createRole hfresh h
  | patch h => exact .patchRole h
  | remove h => exact .removeRole h
  | restore h => exact .restoreRole h

/-! ### The invariant of the role table -/

/-- There is a row with the name of each system role. -/
def Present (db : Directory) : Prop :=
  ∀ q : SystemRole, ∃ r role, db.role r = some role ∧ role.name = q.value

/-- A change of a row keeps its name. -/
theorem name_of_change {old new : Role} (h : RoleChange (some old) new) :
    new.name = old.name := by
  cases h with
  | edit hedit =>
    obtain ⟨-, rfl, -⟩ := updateRole_spec hedit
    rfl
  | activate hset =>
    obtain ⟨rfl, -⟩ := setRoleActive_spec hset
    rfl
  | clearDefault => rfl
  | clearParticipant => rfl
  | markDefault => rfl
  | markParticipant => rfl
  | delete hdelete =>
    obtain ⟨-, -, -, rfl⟩ := deleteRole_spec hdelete
    rfl
  | restore => rfl

/-- A row stays, with its name. -/
theorem name_of_writes (h : RoleWrites db db') {role : Role} (hrole : db.role r = some role) :
    ∃ role', db'.role r = some role' ∧ role'.name = role.name := by
  induction h with
  | refl => exact ⟨role, hrole, rfl⟩
  | @write db₁ r₁ new _ hchange ih =>
    obtain ⟨role₁, hrole₁, hname⟩ := ih
    by_cases hr : r = r₁
    · subst hr
      rw [hrole₁] at hchange
      exact ⟨new, Function.update_self _ _ _, (name_of_change hchange).trans hname⟩
    · exact ⟨role₁, by rw [Directory.setRole_role, Function.update_of_ne hr, hrole₁], hname⟩

/-- What holds of the role table in each reachable state. -/
structure RolesInv (db : Directory) : Prop where
  rows : RolesOk db
  flags : ∀ r role, db.role r = some role → FlagsOk role
  present : Present db
  newUser : SoleHolder db .newUser
  participant : SoleHolder db .participant

theorem RolesInv.roleTableWrite {env : Env} {s : Accounts} (h : RolesInv s.db)
    (hwrite : s.RoleTableWrite env db') : RolesInv db' := by
  have hwrites := roleWrites_of_roleTableWrite hwrite
  refine ⟨h.rows.of_writes hwrites, ?_, fun q => ?_, ?_, ?_⟩
  · exact hwrites.forall_role (fun _ _ => FlagsOk.of_change) h.flags
  · obtain ⟨r, role, hrole, hname⟩ := h.present q
    obtain ⟨role', hrole', hname'⟩ := name_of_writes hwrites hrole
    exact ⟨r, role', hrole', hname'.trans hname⟩
  · exact h.newUser.roleTableWrite (Or.inl rfl) hwrite
  · exact h.participant.roleTableWrite (Or.inr rfl) hwrite

/-- The sync of a system role finds its live row, and leaves what the invariant reads of it. -/
theorem RolesInv.syncRole (h : RolesInv db) (fresh : SystemRole → RoleId) (q : SystemRole) :
    RolesInv (syncRole fresh db q) := by
  have hrows := h.rows.syncRole fresh q
  unfold Auth.syncRole at hrows ⊢
  cases hfind : db.roleByName q.value with
  | none =>
    obtain ⟨r, role, hrole, hname⟩ := h.present q
    have hlive := ((h.rows r role hrole).of_name hname).2.2.1
    have hnot := Directory.not_of_findRole_eq_none hfind
      (Directory.liveRole_eq_some.mpr ⟨hrole, by rw [Role.deleted, hlive]; rfl⟩)
    simp [hname] at hnot
  | some found =>
    obtain ⟨id, role⟩ := found
    rw [hfind] at hrows
    obtain ⟨hlive, hname⟩ := Directory.liveRole_of_findRole hfind
    have hname : role.name = q.value := beq_iff_eq.mp hname
    have hrow := (Directory.liveRole_eq_some.mp hlive).1
    obtain ⟨hsystem, hpermissions, -, -⟩ := (h.rows id role hrow).of_name hname
    have hflags := h.flags id role hrow
    have hassignable := hflags.system hsystem q hname
    refine ⟨hrows, ?_, fun q' => ?_, ?_, ?_⟩
    · refine forall_update h.flags ⟨fun _ q' hq' => ?_, hflags.newUser, fun hparticipant => ?_⟩
      · have heq : q' = q := SystemRole.eq_of_value_eq (hq'.symm.trans hname)
        rw [heq]
      · obtain ⟨hactive, hassigned, hrequired⟩ := hflags.participant hparticipant
        refine ⟨hactive, ?_, ?_⟩
        · show objectAssignableSystemRoles.contains q = true
          rw [← hassignable]
          exact hassigned
        · show requiredPermission ∈ q.permissions
          rw [← hpermissions]
          exact hrequired
    · obtain ⟨r, role', hrole', hname'⟩ := h.present q'
      by_cases hr : r = id
      · subst hr
        rw [hrow] at hrole'
        cases hrole'
        exact ⟨r, _, Function.update_self _ _ _, hname'⟩
      · refine ⟨r, role', ?_, hname'⟩
        rw [Directory.setRole_role, Function.update_of_ne hr, hrole']
    · exact h.newUser.write hrow rfl fun _ hlive => hlive
    · exact h.participant.write hrow rfl fun _ hlive => hlive

theorem RolesInv.syncSystemRoles (h : RolesInv db) (fresh : SystemRole → RoleId) :
    RolesInv (syncSystemRoles fresh db) := by
  unfold Auth.syncSystemRoles
  generalize SystemRole.all = qs
  induction qs generalizing db with
  | nil => exact h
  | cons q qs ih => exact ih (h.syncRole fresh q)

end

/-! ### Runs -/

section
variable {env : Env} {s s' : Accounts}

/-- The invariant is about the role table. -/
theorem RolesInv.of_role_eq {db db' : Directory} (h : RolesInv db) (hrole : db'.role = db.role) :
    RolesInv db' := by
  have hliveRole (r : RoleId) : db'.liveRole r = db.liveRole r := by
    rw [Directory.liveRole, hrole, Directory.liveRole]
  have hsole {flag : DefaultFlag} (hflag : SoleHolder db flag) : SoleHolder db' flag := by
    obtain ⟨r, role, hlive, hget, hothers⟩ := hflag
    refine ⟨r, role, by rw [hliveRole, hlive], hget, ?_⟩
    rw [hrole]
    exact hothers
  refine ⟨?_, ?_, ?_, hsole h.newUser, hsole h.participant⟩
  · unfold RolesOk
    rw [hrole]
    exact h.rows
  · rw [hrole]
    exact h.flags
  · unfold Present
    rw [hrole]
    exact h.present

/-- Each step keeps the invariant. -/
theorem RolesInv.step {l : Label} (h : RolesInv s.db) (hstep : step env s l = some s') :
    RolesInv s'.db := by
  rcases step_cases hstep with ⟨l', rfl, hunused, hperform⟩ | ⟨q, rfl, hperform⟩ |
    ⟨fresh, rfl, rfl⟩ | rfl
  · cases Accounts.perform_writes hunused hperform with
    | untouched hdb hrows =>
      rw [hdb]
      exact h
    | user hwrite hdb hrows => exact h.of_role_eq (by rw [hdb]; rfl)
    | roles hwrite hrows => exact h.roleTableWrite hwrite
    | member hroles hdb hrow hassign =>
      rw [hdb]
      exact h
    | newMember hroles hwrite hdb hassign => exact h.of_role_eq (by rw [hdb]; rfl)
  · rw [perform_db hperform]
    exact h
  · exact h.syncSystemRoles fresh
  · exact h

/-- The row that the sync creates is as its flags ask. -/
theorem flagsOk_systemRoleRow (q : SystemRole) : FlagsOk (systemRoleRow q) where
  system _ q' hname := by
    have heq : q = q' := SystemRole.eq_of_value_eq hname
    rw [← heq]
    rfl
  newUser _ := rfl
  participant hflag := by
    have heq : q = defaultParticipantRole := of_decide_eq_true hflag
    rw [heq]
    exact ⟨rfl, by decide, by decide⟩

/-- After the first sync, the row of the default participant role is the sole holder of a flag
that the sync seeds onto it. -/
theorem soleHolder_synced {fresh : SystemRole → RoleId} (hinjective : Function.Injective fresh)
    {db : Directory} (hnone : ∀ r, db.role r = none) {flag : DefaultFlag}
    (hseed : ∀ q, flag.get (systemRoleRow q) = decide (q = defaultParticipantRole)) :
    SoleHolder (syncSystemRoles fresh db) flag := by
  refine ⟨fresh defaultParticipantRole, systemRoleRow defaultParticipantRole, ?_, ?_, ?_⟩
  · rw [Directory.liveRole_eq_some, role_syncSystemRoles hinjective hnone]
    exact ⟨⟨_, rfl, rfl⟩, rfl⟩
  · rw [hseed, decide_eq_true_eq]
  · intro r role hrole hget
    rw [role_syncSystemRoles hinjective hnone] at hrole
    obtain ⟨q, rfl, rfl⟩ := hrole
    rw [hseed, decide_eq_true_eq] at hget
    rw [hget]

/-- The synced role table. -/
theorem rolesInv_synced (h : s.Synced) : RolesInv s.db := by
  have hrows := h.rolesOk
  obtain ⟨fresh, db, hinjective, hnone, hdb⟩ := h
  rw [hdb] at hrows ⊢
  refine ⟨hrows, ?_, fun q => ⟨fresh q, systemRoleRow q, ?_, rfl⟩, ?_, ?_⟩
  · intro r role hrole
    rw [role_syncSystemRoles hinjective hnone] at hrole
    obtain ⟨q, -, rfl⟩ := hrole
    exact flagsOk_systemRoleRow q
  · rw [role_syncSystemRoles hinjective hnone]
    exact ⟨q, rfl, rfl⟩
  · exact soleHolder_synced hinjective hnone fun _ => rfl
  · exact soleHolder_synced hinjective hnone fun _ => rfl

/-- What the two defaults must be. Exactly one live role is the default of new accounts. It is
active, and neither `admin` nor `owner`. Exactly one live role is the default of self-joins. It is
active, can be assigned in groups, and grants `evaluation_groups:read`. -/
structure DefaultsSafe (db : Directory) : Prop where
  newUser_unique : ∃! r, ∃ role, db.liveRole r = some role ∧ role.isDefault = true
  newUser_safe : ∀ r role, db.liveRole r = some role → role.isDefault = true →
    role.isActive = true ∧ role.name ≠ SystemRole.admin.value ∧
      role.name ≠ SystemRole.owner.value
  participant_unique : ∃! r, ∃ role, db.liveRole r = some role ∧ role.isParticipantDefault = true
  participant_safe : ∀ r role, db.liveRole r = some role → role.isParticipantDefault = true →
    role.isActive = true ∧ role.isObjectAssignable = true ∧
      Permission.evaluationGroupsRead ∈ role.permissions

/-- A sole holder is the one live role with the flag. -/
theorem SoleHolder.existsUnique {db : Directory} {flag : DefaultFlag} (h : SoleHolder db flag) :
    ∃! r, ∃ role, db.liveRole r = some role ∧ flag.get role = true := by
  obtain ⟨r, role, hrole, hget, hsole⟩ := h
  refine ⟨r, ⟨role, hrole, hget⟩, ?_⟩
  rintro r' ⟨role', hrole', hget'⟩
  exact hsole r' role' (Directory.liveRole_eq_some.mp hrole').1 hget'

/-- The invariant gives what the defaults must be. -/
theorem RolesInv.defaultsSafe {db : Directory} (h : RolesInv db) : DefaultsSafe db where
  newUser_unique := h.newUser.existsUnique
  newUser_safe := by
    intro r role hrole hflag
    have hrow := (Directory.liveRole_eq_some.mp hrole).1
    -- A protected role is not the default, so the default has another name.
    have hname (q : SystemRole) (hq : q ∈ nonDeactivatableSystemRoles) : role.name ≠ q.value := by
      intro hname
      obtain ⟨-, -, -, hprotected⟩ := (h.rows r role hrow).of_name hname
      rw [(hprotected hq).2] at hflag
      cases hflag
    exact ⟨(h.flags r role hrow).newUser hflag, hname .admin (by decide),
      hname .owner (by decide)⟩
  participant_unique := h.participant.existsUnique
  participant_safe := by
    intro r role hrole hflag
    exact (h.flags r role (Directory.liveRole_eq_some.mp hrole).1).participant hflag

/-- From the synced roles, the defaults are unique and safe in every state that a run reaches. -/
theorem role_defaults {ls : List Label} (hsynced : s.Synced)
    (hrun : run (step env) s ls = some s') : DefaultsSafe s'.db := by
  have hstep : ∀ s l s', RolesInv s.db → step env s l = some s' → RolesInv s'.db :=
    fun _ _ _ h hstep => h.step hstep
  have hinv := run_invariant (I := fun s => RolesInv s.db) hstep (rolesInv_synced hsynced) hrun
  exact hinv.defaultsSafe

end

/-- The ids that a second sync would draw. -/
def laterRoleId (q : SystemRole) : RoleId := Accounts.systemRoleId q + 20

/-- A custom role becomes both defaults. The roles are synced again, and the admin tries to
deactivate and to delete the role. -/
def promoteMember : List Label :=
  [.account
    { request := .createRole Accounts.rootSession
        { name := "member", displayName := "Member", permissions := ["evaluation_groups:read"] }
      fresh := { user := 9, role := 6, token := "unused" } },
    byRoot (.updateRole Accounts.rootSession 6
      { isObjectAssignable := some true, isDefault := some true
        isParticipantDefault := some true }),
    .sync laterRoleId,
    byRoot (.updateRole Accounts.rootSession 6 { isActive := some false }),
    byRoot (.deleteRole Accounts.rootSession 6)]

/-- The custom role is still both defaults. -/
theorem role_defaults_promoteMember :
    ∃ s, run (step Accounts.plainEnv) Accounts.deployed promoteMember = some s ∧
      (s.db.liveRole 6).any (fun role => role.isDefault && role.isParticipantDefault) = true ∧
      DefaultsSafe s.db := by
  have hany : (run (step Accounts.plainEnv) Accounts.deployed promoteMember).any (fun s =>
      (s.db.liveRole 6).any fun role => role.isDefault && role.isParticipantDefault) = true := by
    decide +kernel
  obtain ⟨s, hrun, hflags⟩ := exists_run_of_any hany
  exact ⟨s, hrun, hflags, role_defaults Accounts.deployed_synced hrun⟩

end RedTeaming.Membership
