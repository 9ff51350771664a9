import RedTeaming.Evaluations.Evaluations

/-!
# `RedTeaming.Evaluations.Registry`: organizations, and the delete and restore of models

`core/organizations/services/organizations.py`, and from the model registry the two operations
that touch the tables of this domain. A model delete unassigns the model from every evaluation and
drops it from every subset. A model restore brings back the registry row and nothing else.
-/

set_option autoImplicit false

namespace RedTeaming.Evaluations

open RedTeaming.Auth
open RedTeaming.Library

/-! ### Organizations -/

/-- `get_organization`: one live organization by id. -/
def getOrganization (db : Database) (organizationId : UUID) : Except ApiError Organization :=
  match findLive db.organizations organizationId with
  | some organization => .ok organization
  | none => .error (.notFound ("Organization " ++ toString organizationId ++ " not found."))

/-- A live organization other than `id` has the name. -/
def organizationNameTaken (db : Database) (id : UUID) (name : String) : Bool :=
  (liveSelect db.organizations).any fun o => o.id != id && o.name == name

/-- Create an organization under a name that no live one has. -/
def createOrganization (db : Database) (ctx : Context) (name : String)
    (description : Option String) : Except ApiError Database := do
  check (!organizationNameTaken db ctx.fresh.row name)
    (.conflict ("An organization named " ++ quoted name ++ " already exists."))
  let organizations ← flush db.organizations
    [{ toBaseModel := ctx.newRow ctx.fresh.row, name, description }]
  return { db with organizations }

/-- The payload of an organization patch. -/
structure OrganizationUpdate where
  name : Option String := none
  description : Option (Option String) := none

/-- The row after the fields that were sent are written. -/
def OrganizationUpdate.applyTo (changes : OrganizationUpdate) (o : Organization) : Organization :=
  { o with
      name := changes.name.getD o.name
      description := changes.description.getD o.description }

/-- Edit an organization. -/
def updateOrganization (db : Database) (organizationId : UUID) (changes : OrganizationUpdate) :
    Except ApiError Database := do
  let organization ← getOrganization db organizationId
  check (!organizationNameTaken db organization.id (changes.applyTo organization).name)
    (.conflict "Organization update violates the name uniqueness constraint.")
  return { db with
    organizations := db.organizations.modify organization.id changes.applyTo fun _ => rfl }

/-- The live groups that reference an organization. -/
def referencingGroups (db : Database) (organizationId : UUID) : List EvaluationGroup :=
  (liveSelect db.groups).filter fun g => g.organizationId == some organizationId

/-- Soft-delete an organization that no live group references. -/
def softDeleteOrganization (db : Database) (ctx : Context) (organizationId : UUID) :
    Except ApiError Database := do
  let organization ← getOrganization db organizationId
  let referencing := referencingGroups db organization.id
  check referencing.isEmpty
    (.conflict ("Organization is still referenced by " ++ toString referencing.length
      ++ " evaluation group(s); reassign or clear them before deleting."))
  return { db with
    organizations := softDeleteRow db.organizations ctx.now ctx.callerId organization.id }

/-- Restore an organization whose name is free. -/
def restoreOrganization (db : Database) (settings : Settings) (ctx : Context)
    (organizationId : UUID) : Except ApiError Database := do
  match findRestorable db.organizations (ctx.restoreCutoff settings) none organizationId with
  | none => throw (.notFound ("No restorable organization " ++ toString organizationId
      ++ " was deleted within the restore window."))
  | some organization =>
    check (!organizationNameTaken db organization.id organization.name)
      (.conflict ("An organization named " ++ quoted organization.name ++ " already exists."))
    return { db with organizations := restoreRow db.organizations organization.id }

/-- Move a live user into a live organization. -/
def assignMember (db : Database) (organizationId : UUID) (userId : UserId) :
    Except ApiError Database := do
  let organization ← getOrganization db organizationId
  let _ ← getUser db.auth userId
  return { db with
    userOrganization := Function.update db.userOrganization userId (some organization.id) }

/-- Detach a user from an organization. -/
def removeOrganizationMember (db : Database) (organizationId : UUID) (userId : UserId) :
    Except ApiError Database := do
  let organization ← getOrganization db organizationId
  let _ ← getUser db.auth userId
  check (db.userOrganization userId == some organization.id)
    (.notFound ("User " ++ toString userId ++ " is not a member of organization "
      ++ toString organization.id ++ "."))
  return { db with userOrganization := Function.update db.userOrganization userId none }

/-! ### Models -/

/-- Soft-delete a model, its live assignments, and its live subset rows. -/
def deleteModel (db : Database) (ctx : Context) (modelId : UUID) : Except ApiError Database := do
  let model ← getModel db modelId
  return { db with
    models := softDeleteRow db.models ctx.now ctx.callerId model.id
    assignments := softDeleteWhere db.assignments ctx.now ctx.callerId fun a =>
      a.modelId == model.id
    allowedModels := softDeleteWhere db.allowedModels ctx.now ctx.callerId fun row =>
      row.modelId == model.id }

/-- Restore a model whose name and alias are free. The rows that its delete cascaded to stay
deleted. -/
def restoreModel (db : Database) (settings : Settings) (ctx : Context) (modelId : UUID) :
    Except ApiError Database := do
  match findRestorable db.models (ctx.restoreCutoff settings) none modelId with
  | none => throw (.notFound ("No restorable model " ++ toString modelId
      ++ " was deleted within the restore window."))
  | some model =>
    check (!((liveSelect db.models).any fun m => m.name == model.name))
      (.conflict ("A live model already uses the name " ++ quoted model.name
        ++ "; rename it and retry."))
    check (!((liveSelect db.models).any fun m => m.modelAlias == model.modelAlias))
      (.conflict ("A live model already uses the model_alias " ++ quoted model.modelAlias
        ++ "; rename it and retry."))
    return { db with models := restoreRow db.models model.id }

end RedTeaming.Evaluations
