import RedTeaming.Auth.Accounts
import RedTeaming.Library.Text
import RedTeaming.Licenses.Catalog

/-!
# `RedTeaming.Licenses.Services`: the rows of `data_licenses`

`core/licenses/models.py`, `core/licenses/schemas.py`, and `core/licenses/service.py`, with the
permission checks of `api/v1/licenses.py`. A row without an author is curated: `sync_licenses`
writes it from the catalogue. Through the API it takes a text, where the catalogue ships none. A
row with an author is the author's, or a manager's, to change.

`has_text` is left out, it is computed from `content`. The fields of the payloads carry the checks
of their schemas.
-/

set_option autoImplicit false

namespace RedTeaming.Licenses

open RedTeaming.Auth
open RedTeaming.Library

/-- A row of `data_licenses`. -/
structure DataLicense extends BaseModel where
  name : String
  version : Option String := none
  shortDescription : String
  content : String
  referenceUrl : Option String := none
  protectsConversationData : Bool := false
  spdxId : Option String := none
  createdById : Option UserId := none
deriving DecidableEq

instance : Entity DataLicense where
  base := DataLicense.toBaseModel
  withBase r b := { r with toBaseModel := b }
  base_withBase _ _ := rfl

/-! ### Payloads -/

/-- A text of white space only. -/
def isBlank (text : String) : Bool := text.toList.all fun c => Text.isSpace c.toNat

/-- An ASCII letter. -/
def asciiAlpha (c : Char) : Bool := ('a' ≤ c && c ≤ 'z') || ('A' ≤ c && c ≤ 'Z')

/-- `scheme_chars`. -/
def schemeChar (c : Char) : Bool :=
  asciiAlpha c || ('0' ≤ c && c ≤ '9') || c == '+' || c == '-' || c == '.'

/-- `urlsplit(url).scheme`. The control characters and spaces in front go, and every tab and line
break. -/
def urlScheme (url : String) : List Char :=
  let text := (url.toList.dropWhile fun c => decide (c.toNat ≤ 0x20)).filter
    fun c => c != '\t' && c != '\r' && c != '\n'
  let scheme := text.takeWhile fun c => c != ':'
  if scheme.length < text.length && scheme.head?.any asciiAlpha && scheme.all schemeChar then
    scheme.map Char.toLower
  else []

/-- `_require_http_url`. -/
def requireHttpUrl (url : String) : Bool :=
  urlScheme url == "http".toList || urlScheme url == "https".toList

/-- A name of 1 to 255 characters. -/
abbrev LicenseName := { s : String // 1 ≤ s.length ∧ s.length ≤ 255 }

/-- A version of at most 64 characters. -/
abbrev LicenseVersion := { s : String // s.length ≤ 64 }

/-- A gist of at least one character. -/
abbrev ShortDescription := { s : String // 1 ≤ s.length }

/-- A legal text that is not blank (`_require_text`). -/
abbrev LicenseText := { s : String // isBlank s = false }

/-- An http(s) URL of at most 1024 characters. -/
abbrev ReferenceUrl := { s : String // s.length ≤ 1024 ∧ requireHttpUrl s = true }

/-- `LicenseCreate`. -/
structure LicenseCreate where
  name : LicenseName
  version : Option LicenseVersion := none
  shortDescription : ShortDescription
  content : LicenseText
  protectsConversationData : Bool := false
  referenceUrl : Option ReferenceUrl := none

/-- `LicenseUpdate`. `none` is a field that the payload omits. A `some none` clears the column. -/
structure LicenseUpdate where
  name : Option LicenseName := none
  version : Option (Option LicenseVersion) := none
  shortDescription : Option ShortDescription := none
  content : Option LicenseText := none
  referenceUrl : Option (Option ReferenceUrl) := none
  protectsConversationData : Option Bool := none

namespace LicenseUpdate
variable (changes : LicenseUpdate)

/-- `model_fields_set` without `CURATED_EDITABLE_FIELDS`, sorted. -/
def codeOwned : List String :=
  [("name", changes.name.isSome),
    ("protects_conversation_data", changes.protectsConversationData.isSome),
    ("reference_url", changes.referenceUrl.isSome),
    ("short_description", changes.shortDescription.isSome),
    ("version", changes.version.isSome)].filterMap fun field =>
      if field.2 then some field.1 else none

/-- `model_fields_set` is empty. -/
def isEmpty : Bool := changes.codeOwned.isEmpty && changes.content.isNone

/-- The row with the fields that the payload sets. -/
def applyTo (lic : DataLicense) : DataLicense :=
  { lic with
    name := (changes.name.map Subtype.val).getD lic.name
    version := (changes.version.map (·.map Subtype.val)).getD lic.version
    shortDescription := (changes.shortDescription.map Subtype.val).getD lic.shortDescription
    content := (changes.content.map Subtype.val).getD lic.content
    referenceUrl := (changes.referenceUrl.map (·.map Subtype.val)).getD lic.referenceUrl
    protectsConversationData :=
      changes.protectsConversationData.getD lic.protectsConversationData }

@[simp] theorem key_applyTo (lic : DataLicense) : key (changes.applyTo lic) = key lic := rfl

end LicenseUpdate

/-! ### Reads and gates -/

variable (catalog : Catalog) (licenses : Table DataLicense)

/-- `get_data_license`. -/
def getDataLicense (licenseId : UUID) (includeDeleted : Bool) : Except ApiError DataLicense :=
  found (if includeDeleted then licenses.find? licenseId else findLive licenses licenseId)
    (.notFound ("Data license " ++ toString licenseId ++ " not found."))

/-- `validate_license_ref`. -/
def validateLicenseRef (licenseId : UUID) : Except ApiError Unit :=
  check (findLive licenses licenseId).isSome
    (.badRequest ("Unknown data license id '" ++ toString licenseId ++ "'."))

/-- `licenses:manage` of the caller. -/
def canManage (caller : SessionUser) : Bool :=
  decide (Permission.licensesManage ∈ caller.permissions)

/-- `_assert_may_manage_license`. -/
def assertMayManageLicense (lic : DataLicense) (caller : SessionUser) : Except ApiError Unit :=
  match lic.createdById with
  | none => .error (.forbidden
      "Curated licenses are managed in code and cannot be deleted or restored via the API.")
  | some author =>
    check (canManage caller || author == caller.id)
      (.forbidden "You may only edit licenses you created.")

/-- `_assert_may_update_license`. -/
def assertMayUpdateLicense (lic : DataLicense) (changes : LicenseUpdate) (caller : SessionUser) :
    Except ApiError Unit :=
  match lic.createdById with
  | some _ => assertMayManageLicense lic caller
  | none => do
    check (!changes.isEmpty) (.badRequest
      "Nothing to update; 'content' is the only editable field of a curated license.")
    check changes.codeOwned.isEmpty (.forbidden
      ("Curated licenses are managed in code; only 'content' is editable (not " ++
        ", ".intercalate changes.codeOwned ++ ")."))
    check (!catalog.curatedShipsContent lic.id) (.forbidden
      ("This license's text is shipped in the catalog; editing it here would be reverted by " ++
        "the next resync. Change it in the catalog instead."))
    check (canManage caller)
      (.forbidden "Only licenses:manage holders may edit a curated license's text.")

/-! ### Writes -/

/-- The partial unique index: no two live rows carry one SPDX id. -/
def spdxUnique (rows : Table DataLicense) : Prop :=
  ((liveSelect rows).filterMap DataLicense.spdxId).Nodup

instance (rows : Table DataLicense) : Decidable (spdxUnique rows) :=
  inferInstanceAs (Decidable (List.Nodup _))

/-- The row of `create_data_license`. -/
def LicenseCreate.row (form : LicenseCreate) (id : UUID) (now : Time) (callerId : UserId) :
    DataLicense where
  id
  createdAt := now
  name := form.name
  version := form.version.map Subtype.val
  shortDescription := form.shortDescription
  content := form.content
  referenceUrl := form.referenceUrl.map Subtype.val
  protectsConversationData := form.protectsConversationData
  createdById := some callerId

/-- `create_license_endpoint`. -/
def createDataLicense (caller : SessionUser) (id : UUID) (now : Time) (form : LicenseCreate) :
    Except ApiError (Table DataLicense) := do
  requirePermission caller .licensesCreate
  flush licenses [form.row id now caller.id]

/-- `update_license_endpoint`. -/
def updateDataLicense (caller : SessionUser) (licenseId : UUID) (changes : LicenseUpdate) :
    Except ApiError (Table DataLicense) := do
  requirePermission caller .licensesUpdate
  let lic ← getDataLicense licenses licenseId false
  assertMayUpdateLicense catalog lic changes caller
  return licenses.modify licenseId changes.applyTo changes.key_applyTo

/-- `get_restorable_data_license`. -/
def getRestorableDataLicense (licenseId : UUID) (deletedCutoff : Time) :
    Except ApiError DataLicense :=
  found (findRestorable licenses deletedCutoff none licenseId)
    (.notFound ("No restorable data license " ++ toString licenseId ++
      " was deleted within the restore window."))

/-- `restore_license_endpoint`. -/
def restoreDataLicense (caller : SessionUser) (licenseId : UUID) (deletedCutoff : Time) :
    Except ApiError (Table DataLicense) := do
  requirePermission caller .licensesDelete
  let lic ← getRestorableDataLicense licenses licenseId deletedCutoff
  assertMayManageLicense lic caller
  check (decide (spdxUnique (restoreRow licenses licenseId)))
    (.conflict "Data license cannot be restored.")
  return restoreRow licenses licenseId

/-- `list_data_licenses` with `deleted`, for the caller of `list_licenses_endpoint`. -/
def listDeletedLicenses (caller : SessionUser) (deletedCutoff : Time) :
    Except ApiError (List DataLicense) := do
  check (decide (Permission.licensesDelete ∈ caller.permissions))
    (.forbidden "Listing deleted licenses requires the 'licenses:delete' permission.")
  return (deletedSelect licenses deletedCutoff none).filter fun lic =>
    canManage caller || lic.createdById == some caller.id

/-! ### The sync -/

/-- The values that `sync_licenses` inserts for an entry. -/
def CuratedLicense.row (e : CuratedLicense) (now : Time) : DataLicense where
  id := e.rowId
  createdAt := now
  name := e.name
  version := e.version
  shortDescription := e.shortDescription
  content := e.content
  referenceUrl := e.referenceUrl
  protectsConversationData := e.protectsConversationData
  spdxId := if e.publishesSpdx then some e.spdxId else none

/-- The update of a row that is there already. An entry without a text leaves the text alone. -/
def CuratedLicense.reconcile (e : CuratedLicense) (lic : DataLicense) : DataLicense :=
  { lic with
    deletedAt := none
    deletedById := none
    name := e.name
    version := e.version
    shortDescription := e.shortDescription
    content := if e.shipsContent then e.content else lic.content
    referenceUrl := e.referenceUrl
    protectsConversationData := e.protectsConversationData
    spdxId := if e.publishesSpdx then some e.spdxId else none
    createdById := none }

@[simp] theorem CuratedLicense.key_reconcile (e : CuratedLicense) (lic : DataLicense) :
    key (e.reconcile lic) = key lic := rfl

/-- The upsert of an entry. The unique index refuses an SPDX id that another live row carries. -/
def upsertCurated (now : Time) (rows : Table DataLicense) (e : CuratedLicense) :
    Option (Table DataLicense) :=
  let rows := rows.upsert (e.row now) e.reconcile e.key_reconcile
  if spdxUnique rows then some rows else none

/-- `sync_licenses`. -/
def syncLicenses (now : Time) : Option (Table DataLicense) :=
  catalog.entries.foldlM (upsertCurated now) licenses

end RedTeaming.Licenses
