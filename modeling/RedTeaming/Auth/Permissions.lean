import Mathlib.Data.Finset.Union

/-!
# `RedTeaming.Auth.Permissions`: the RBAC vocabulary

The permission keys, the canonical system roles, and the maps that bound their assignment, as
in `core/auth/roles.py`. `Permission.value` is the string that the session token and the
`roles.permissions` column carry. `Permission.ofValue?` reads such a string back, and
`ofValue?_value` says that it does. `SystemRole.permissions` is the permission set of a role's
spec, which `sync_system_roles` writes to its row.

Two facts about the table carry the escalation argument. Each non-delegable permission is in the
spec of `admin` only (`eq_admin_of_nonDelegable`), and each elevated role asks for
`users:manage_admin` (`elevatedRolePermissions_eq`).
-/

set_option autoImplicit false

namespace RedTeaming.Auth

/-- Permission keys backing implemented functionality. -/
inductive Permission
  | usersRead | usersUpdate | usersDelete | usersInvite | usersManageAdmin
  | usersManageSessions | rolesRead | rolesManage | organizationsRead | organizationsCreate
  | organizationsUpdate | organizationsDelete | organizationsManageMembers | modelsRead
  | modelsCreate | modelsUpdate | modelsDelete | evaluationsRead | evaluationsCreate
  | evaluationsUpdate | evaluationsDelete | evaluationsApprove | evaluationGroupsRead
  | evaluationGroupsManageMembers | evaluationGroupsCreate | evaluationGroupsUpdate
  | evaluationGroupsViewMetrics | evaluationGroupsViewPersonalMetrics | evaluationGroupsExport
  | evaluationGroupsManage | conversationsRead | conversationsCreate | conversationsUpdate
  | conversationsDelete | conversationsReadAny | conversationsParticipate | flagsRead
  | flagsCreate | flagsUpdate | flagsDelete | notesRead | notesCreate | notesUpdate
  | notesDelete | annotationsRead | annotationsCreate | annotationsDelete | reviewsRead
  | reviewsCreate | reviewsUpdate | reviewsDelete | reviewsAnnotate | platformSettingsRead
  | platformSettingsUpdate | licensesCreate | licensesUpdate | licensesDelete | licensesManage
  | auditRead | savedViewsRead | savedViewsCreate | savedViewsUpdate | savedViewsDelete
  | notificationsRead | notificationsUpdate
deriving DecidableEq, Repr

namespace Permission

/-- The permission string. -/
def value : Permission → String
  | .usersRead => "users:read"
  | .usersUpdate => "users:update"
  | .usersDelete => "users:delete"
  | .usersInvite => "users:invite"
  | .usersManageAdmin => "users:manage_admin"
  | .usersManageSessions => "users:manage_sessions"
  | .rolesRead => "roles:read"
  | .rolesManage => "roles:manage"
  | .organizationsRead => "organizations:read"
  | .organizationsCreate => "organizations:create"
  | .organizationsUpdate => "organizations:update"
  | .organizationsDelete => "organizations:delete"
  | .organizationsManageMembers => "organizations:manage_members"
  | .modelsRead => "models:read"
  | .modelsCreate => "models:create"
  | .modelsUpdate => "models:update"
  | .modelsDelete => "models:delete"
  | .evaluationsRead => "evaluations:read"
  | .evaluationsCreate => "evaluations:create"
  | .evaluationsUpdate => "evaluations:update"
  | .evaluationsDelete => "evaluations:delete"
  | .evaluationsApprove => "evaluations:approve"
  | .evaluationGroupsRead => "evaluation_groups:read"
  | .evaluationGroupsManageMembers => "evaluation_groups:manage_members"
  | .evaluationGroupsCreate => "evaluation_groups:create"
  | .evaluationGroupsUpdate => "evaluation_groups:update"
  | .evaluationGroupsViewMetrics => "evaluation_groups:view_metrics"
  | .evaluationGroupsViewPersonalMetrics => "evaluation_groups:view_personal_metrics"
  | .evaluationGroupsExport => "evaluation_groups:export"
  | .evaluationGroupsManage => "evaluation_groups:manage"
  | .conversationsRead => "conversations:read"
  | .conversationsCreate => "conversations:create"
  | .conversationsUpdate => "conversations:update"
  | .conversationsDelete => "conversations:delete"
  | .conversationsReadAny => "conversations:read_any"
  | .conversationsParticipate => "conversations:participate"
  | .flagsRead => "flags:read"
  | .flagsCreate => "flags:create"
  | .flagsUpdate => "flags:update"
  | .flagsDelete => "flags:delete"
  | .notesRead => "notes:read"
  | .notesCreate => "notes:create"
  | .notesUpdate => "notes:update"
  | .notesDelete => "notes:delete"
  | .annotationsRead => "annotations:read"
  | .annotationsCreate => "annotations:create"
  | .annotationsDelete => "annotations:delete"
  | .reviewsRead => "reviews:read"
  | .reviewsCreate => "reviews:create"
  | .reviewsUpdate => "reviews:update"
  | .reviewsDelete => "reviews:delete"
  | .reviewsAnnotate => "reviews:annotate"
  | .platformSettingsRead => "platform_settings:read"
  | .platformSettingsUpdate => "platform_settings:update"
  | .licensesCreate => "licenses:create"
  | .licensesUpdate => "licenses:update"
  | .licensesDelete => "licenses:delete"
  | .licensesManage => "licenses:manage"
  | .auditRead => "audit:read"
  | .savedViewsRead => "saved_views:read"
  | .savedViewsCreate => "saved_views:create"
  | .savedViewsUpdate => "saved_views:update"
  | .savedViewsDelete => "saved_views:delete"
  | .notificationsRead => "notifications:read"
  | .notificationsUpdate => "notifications:update"

/-- Every permission, in declaration order. -/
def all : List Permission := [
    .usersRead, .usersUpdate, .usersDelete, .usersInvite, .usersManageAdmin,
    .usersManageSessions, .rolesRead, .rolesManage, .organizationsRead, .organizationsCreate,
    .organizationsUpdate, .organizationsDelete, .organizationsManageMembers, .modelsRead,
    .modelsCreate, .modelsUpdate, .modelsDelete, .evaluationsRead, .evaluationsCreate,
    .evaluationsUpdate, .evaluationsDelete, .evaluationsApprove, .evaluationGroupsRead,
    .evaluationGroupsManageMembers, .evaluationGroupsCreate, .evaluationGroupsUpdate,
    .evaluationGroupsViewMetrics, .evaluationGroupsViewPersonalMetrics, .evaluationGroupsExport,
    .evaluationGroupsManage, .conversationsRead, .conversationsCreate, .conversationsUpdate,
    .conversationsDelete, .conversationsReadAny, .conversationsParticipate, .flagsRead,
    .flagsCreate, .flagsUpdate, .flagsDelete, .notesRead, .notesCreate, .notesUpdate,
    .notesDelete, .annotationsRead, .annotationsCreate, .annotationsDelete, .reviewsRead,
    .reviewsCreate, .reviewsUpdate, .reviewsDelete, .reviewsAnnotate, .platformSettingsRead,
    .platformSettingsUpdate, .licensesCreate, .licensesUpdate, .licensesDelete, .licensesManage,
    .auditRead, .savedViewsRead, .savedViewsCreate, .savedViewsUpdate, .savedViewsDelete,
    .notificationsRead, .notificationsUpdate]

/-- The permission that a string names, if any. -/
def ofValue? (s : String) : Option Permission := all.find? fun p => p.value == s

end Permission

/-- Canonical platform roles. -/
inductive SystemRole
  | admin | owner | redTeamer | annotator | viewer
deriving DecidableEq, Repr

namespace SystemRole

/-- The stable slug stored in `roles.name`. -/
def value : SystemRole → String
  | .admin => "admin"
  | .owner => "owner"
  | .redTeamer => "red_teamer"
  | .annotator => "annotator"
  | .viewer => "viewer"

/-- Every system role, in declaration order. -/
def all : List SystemRole := [.admin, .owner, .redTeamer, .annotator, .viewer]

/-- The complete permission set that the role's spec grants. -/
def permissions : SystemRole → Finset Permission
  | .admin => List.toFinset [
      .usersRead, .usersUpdate, .usersDelete, .usersInvite, .usersManageAdmin,
      .usersManageSessions, .rolesRead, .rolesManage, .organizationsRead, .organizationsCreate,
      .organizationsUpdate, .organizationsDelete, .organizationsManageMembers, .modelsRead,
      .modelsCreate, .modelsUpdate, .modelsDelete, .evaluationsRead, .evaluationsCreate,
      .evaluationsUpdate, .evaluationsDelete, .evaluationsApprove, .evaluationGroupsRead,
      .evaluationGroupsCreate, .evaluationGroupsUpdate, .evaluationGroupsViewMetrics,
      .evaluationGroupsManage, .conversationsRead, .conversationsCreate, .conversationsUpdate,
      .conversationsDelete, .conversationsParticipate, .flagsRead, .flagsCreate, .flagsUpdate,
      .flagsDelete, .notesRead, .notesCreate, .notesUpdate, .notesDelete, .annotationsRead,
      .annotationsCreate, .annotationsDelete, .reviewsRead, .reviewsCreate, .reviewsUpdate,
      .reviewsDelete, .platformSettingsRead, .platformSettingsUpdate, .licensesCreate,
      .licensesUpdate, .licensesDelete, .licensesManage, .auditRead, .savedViewsRead,
      .savedViewsCreate, .savedViewsUpdate, .savedViewsDelete, .notificationsRead,
      .notificationsUpdate]
  | .owner => List.toFinset [
      .usersInvite, .rolesRead, .evaluationsRead, .evaluationsCreate, .evaluationsUpdate,
      .evaluationsDelete, .evaluationGroupsRead, .modelsRead, .organizationsRead,
      .evaluationGroupsCreate, .evaluationGroupsUpdate, .evaluationGroupsViewMetrics,
      .evaluationGroupsManageMembers, .evaluationGroupsExport, .licensesCreate, .licensesUpdate,
      .licensesDelete, .conversationsParticipate, .conversationsRead, .conversationsReadAny,
      .annotationsRead, .reviewsRead, .reviewsCreate, .reviewsUpdate, .reviewsDelete,
      .savedViewsRead, .savedViewsCreate, .savedViewsUpdate, .savedViewsDelete,
      .notificationsRead, .notificationsUpdate]
  | .redTeamer => List.toFinset [
      .evaluationsRead, .evaluationGroupsRead, .evaluationGroupsViewPersonalMetrics,
      .organizationsRead, .conversationsRead, .conversationsCreate, .conversationsUpdate,
      .conversationsDelete, .conversationsParticipate, .flagsRead, .flagsCreate, .flagsUpdate,
      .flagsDelete, .notesRead, .notesCreate, .notesUpdate, .notesDelete, .reviewsRead,
      .savedViewsRead, .savedViewsCreate, .savedViewsUpdate, .savedViewsDelete,
      .notificationsRead, .notificationsUpdate]
  | .annotator => List.toFinset [
      .evaluationsRead, .evaluationGroupsRead, .organizationsRead, .notesRead, .notesCreate,
      .notesUpdate, .notesDelete, .annotationsRead, .annotationsCreate, .annotationsDelete,
      .flagsRead, .reviewsRead, .reviewsCreate, .reviewsUpdate, .reviewsDelete, .reviewsAnnotate,
      .savedViewsRead, .savedViewsCreate, .savedViewsUpdate, .savedViewsDelete,
      .notificationsRead, .notificationsUpdate]
  | .viewer => List.toFinset [
      .evaluationsRead, .evaluationGroupsRead, .organizationsRead, .savedViewsRead,
      .savedViewsCreate, .savedViewsUpdate, .savedViewsDelete, .notificationsRead,
      .notificationsUpdate]

/-- The human-facing label of the role. -/
def displayName : SystemRole → String
  | .admin => "Admin"
  | .owner => "Owner"
  | .redTeamer => "Red Teamer"
  | .annotator => "Annotator"
  | .viewer => "Viewer"

/-- The purpose of the role. -/
def description : SystemRole → String
  | .admin => "Full administrative access: manage users and invite any role."
  | .owner =>
    "Manages a single instance and invites owners, red teamers, annotators, and viewers."
  | .redTeamer => "Participates as a red teamer in assigned evaluations."
  | .annotator => "Annotates conversations and evaluation outputs."
  | .viewer => "Views aggregated evaluation results and dashboards."

/-- The system role that a slug names, if any. -/
def ofValue? (s : String) : Option SystemRole := all.find? fun r => r.value == s

end SystemRole

/-- The base role of a new account. It seeds the `is_default` and `is_participant_default`
flags on the first sync. -/
def defaultParticipantRole : SystemRole := .redTeamer

/-- The permission that assigning or removing a role asks for. A role that the map does not
list is freely assignable. -/
def elevatedRolePermissions : SystemRole → Option Permission
  | .admin => some .usersManageAdmin
  | .owner => some .usersManageAdmin
  | _ => none

/-- Permissions that a custom role can never carry. -/
def nonDelegablePermissions : List Permission := [.rolesManage, .usersManageAdmin, .usersUpdate]

/-- System roles that can never be deactivated. -/
def nonDeactivatableSystemRoles : List SystemRole := [.admin, .owner]

/-- The system roles that can be held as an in-group role. -/
def objectAssignableSystemRoles : List SystemRole := [.owner, .redTeamer, .annotator, .viewer]

/-- The role that must keep a live holder on each evaluation group. -/
def protectedRole : SystemRole := .owner

/-- The permission that every role assignable in an evaluation group grants. -/
def requiredPermission : Permission := .evaluationGroupsRead

/-- The slugs of the system roles, which no custom role can take. -/
def reservedRoleNames : List String := SystemRole.all.map SystemRole.value

/-- Every permission is listed. -/
theorem Permission.mem_all (p : Permission) : p ∈ Permission.all := by
  cases p <;> decide

/-- Every system role is listed. -/
theorem SystemRole.mem_all (r : SystemRole) : r ∈ SystemRole.all := by
  cases r <;> decide

/-- Different permissions have different strings. -/
theorem Permission.ofValue?_value (p : Permission) : Permission.ofValue? p.value = some p := by
  cases p <;> decide

/-- Different system roles have different slugs. -/
theorem SystemRole.ofValue?_value (r : SystemRole) : SystemRole.ofValue? r.value = some r := by
  cases r <;> decide

/-- Each non-delegable permission is in the spec of `admin` only. -/
theorem eq_admin_of_nonDelegable {r : SystemRole} {p : Permission} (hp : p ∈ r.permissions)
    (hnd : p ∈ nonDelegablePermissions) : r = .admin := by
  revert hp
  simp only [nonDelegablePermissions, List.mem_cons, List.not_mem_nil, or_false] at hnd
  rcases hnd with rfl | rfl | rfl <;> cases r <;> decide

/-- The roles that cannot be deactivated are the elevated ones, and each asks for
`users:manage_admin`. -/
theorem elevatedRolePermissions_eq (r : SystemRole) :
    elevatedRolePermissions r
      = if r ∈ nonDeactivatableSystemRoles then some .usersManageAdmin else none := by
  cases r <;> decide

end RedTeaming.Auth
