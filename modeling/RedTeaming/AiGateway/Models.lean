import RedTeaming.Library.Json
import RedTeaming.SoftDelete

/-!
# `RedTeaming.AiGateway.Models`: the model registry

A row of `ai_models` and `update_model`, with the checks that a patch makes on the merged row. The
fields that the image verdict of a health check depends on are `PROBED_CALL_FIELDS` in the source.
Here they are the fields of `ProbedCall`, and `AiModel.probedCall` reads them off a row. A patch
that moves one of them clears `capability_mismatch` (`updateModel_capabilityMismatch`).
-/

set_option autoImplicit false

namespace RedTeaming.AiGateway

open RedTeaming.Library

/-- Vendor whose API a model routes to. -/
inductive ProviderVendor
  | huggingface | google | openai | anthropic | azure | generic | awsBedrock | cohere
deriving DecidableEq, Repr

/-- The vendor string. -/
def ProviderVendor.value : ProviderVendor → String
  | .huggingface => "huggingface"
  | .google => "google"
  | .openai => "openai"
  | .anthropic => "anthropic"
  | .azure => "azure"
  | .generic => "generic"
  | .awsBedrock => "aws_bedrock"
  | .cohere => "cohere"

/-- `LITELLM_PREFIX`: the routing prefix of a vendor. -/
def ProviderVendor.litellmPrefix : ProviderVendor → String
  | .openai => "openai"
  | .anthropic => "anthropic"
  | .google => "gemini"
  | .azure => "azure"
  | .awsBedrock => "bedrock"
  | .cohere => "cohere"
  | .huggingface => "huggingface"
  | .generic => "openai"

/-- A kind of content that a model takes in or gives back. -/
inductive Modality
  | text | image
deriving DecidableEq, Repr

/-- State of an endpoint health check. -/
inductive HealthCheckStatus
  | checking | alive | dead
deriving DecidableEq, Repr

/-- What the services take from libraries and from the settings: the string methods, litellm's
capability map, the vendors with a platform credential, and the time limit of a check in
seconds. -/
structure Env where
  strip : String → String
  lower : String → String
  supportsWebSearch : String → Bool
  hasPlatformKey : ProviderVendor → Bool
  healthCheckTaskTimeLimitSeconds : Nat

/-- A row of `ai_models`. `apiKeyEncrypted` is the ciphertext of the credential. -/
structure AiModel extends BaseModel where
  name : String
  description : Option String := none
  modelAlias : String
  provider : ProviderVendor
  inputModalities : List Modality := [.text]
  outputModalities : List Modality := [.text]
  providerModelId : String
  endpointName : Option String := none
  inferenceEndpoint : Option String := none
  iconFile : Option String := none
  labels : List String := []
  parameters : JsonObject := []
  extras : JsonObject := []
  apiKeyEncrypted : Option String := none
  warmupEnabled : Bool := false
  advancedParamsDisabled : Bool := false
  webAccess : Bool := false
  inactivityAlertHours : Option Nat := none
  lastUsedAt : Option Time := none
  lastWarmupAt : Option Time := none
  inactivityAlertedAt : Option Time := none
  disabledAt : Option Time := none
  healthCheckStatus : Option HealthCheckStatus := none
  lastHealthCheckAt : Option Time := none
  lastHealthReason : Option String := none
  lastHealthyAt : Option Time := none
  capabilityMismatch : Option String := none

instance : Entity AiModel :=
  ⟨(·.toBaseModel), fun r b => { r with toBaseModel := b }, fun _ _ => rfl⟩

namespace AiModel

/-- The model takes no calls. -/
def isDisabled (model : AiModel) : Bool := model.disabledAt.isSome

/-- Mark the model as disabled. -/
def disable (now : Time) (model : AiModel) : AiModel := { model with disabledAt := some now }

/-- Clear the disabled flag. A real transition re-arms the inactivity alert. -/
def enable (model : AiModel) : AiModel :=
  { model with
      inactivityAlertedAt :=
        if model.disabledAt.isSome then none else model.inactivityAlertedAt
      disabledAt := none }

/-- Clear the tombstone, and re-arm the inactivity alert. -/
def restore (model : AiModel) : AiModel :=
  { model with toBaseModel := model.toBaseModel.restore, inactivityAlertedAt := none }

end AiModel

/-- `PROBED_CALL_FIELDS`: the fields that the image verdict is a function of. -/
structure ProbedCall where
  inputModalities : List Modality
  inferenceEndpoint : Option String
  provider : ProviderVendor
  providerModelId : String
deriving DecidableEq

/-- `_probed_call`: the values that a capability finding is evidence about. -/
def AiModel.probedCall (model : AiModel) : ProbedCall where
  inputModalities := model.inputModalities
  inferenceEndpoint := model.inferenceEndpoint
  provider := model.provider
  providerModelId := model.providerModelId

/-! ### The rules of a save -/

/-- No vendor-hosted base URL stands behind the row, and it names none. -/
def missingInferenceEndpoint (env : Env) (provider : ProviderVendor)
    (inferenceEndpoint : Option String) : Bool :=
  provider == .generic && (env.strip (inferenceEndpoint.getD "")).isEmpty

/-- A generic row names its endpoint. -/
def requireInferenceEndpoint (env : Env) (provider : ProviderVendor)
    (inferenceEndpoint : Option String) : Except ApiError Unit :=
  check (!missingInferenceEndpoint env provider inferenceEndpoint) (.badRequest
    "A generic provider has no vendor-hosted base URL, so inference_endpoint is required.")

/-- The prefix that a vendor-hosted call would double. -/
def prefixedModelId (env : Env) (provider : ProviderVendor) (providerModelId : String)
    (inferenceEndpoint : Option String) : Option String :=
  if provider == .generic || !(env.strip (inferenceEndpoint.getD "")).isEmpty then none
  else
    [provider.litellmPrefix, provider.value].find? fun vendor =>
      (env.lower providerModelId).startsWith (vendor ++ "/")

/-- The id of a vendor-hosted row carries no routing prefix. -/
def requireUnprefixedModelId (env : Env) (provider : ProviderVendor) (providerModelId : String)
    (inferenceEndpoint : Option String) : Except ApiError Unit :=
  match prefixedModelId env provider providerModelId inferenceEndpoint with
  | some vendor => .error (.badRequest
      ("Drop the \"" ++ vendor ++ "/\" prefix — the Provider field adds it."))
  | none => .ok ()

/-- The vendors and models with a web option. -/
def supportsWebAccess (env : Env) (vendor : ProviderVendor) (providerModelId : String) : Bool :=
  match vendor with
  | .anthropic | .google => true
  | .openai => env.supportsWebSearch ("openai/" ++ providerModelId)
  | _ => false

/-- The web switch is on only where there is a web option. -/
def requireWebAccessSupported (env : Env) (provider : ProviderVendor) (providerModelId : String)
    (webAccess : Bool) : Except ApiError Unit :=
  check (!webAccess || supportsWebAccess env provider providerModelId)
    (.badRequest "This model has no internet access option at its provider.")

/-! ### `create_model` -/

/-- The payload of a create. `apiKeyEncrypted` is the ciphertext of its credential. -/
structure AiModelCreate where
  name : String
  description : Option String := none
  modelAlias : String
  provider : ProviderVendor
  providerModelId : String
  inputModalities : Option (List Modality) := none
  outputModalities : Option (List Modality) := none
  endpointName : Option String := none
  inferenceEndpoint : Option String := none
  iconFile : Option String := none
  labels : List String := []
  parameters : JsonObject := []
  extras : JsonObject := []
  isDisabled : Bool := false
  warmupEnabled : Bool := false
  advancedParamsDisabled : Bool := false
  webAccess : Bool := false
  inactivityAlertHours : Option Nat := none
  apiKeyEncrypted : Option String := none

/-- `input_modalities or [Modality.TEXT]`. -/
def modalitiesOrText : Option (List Modality) → List Modality
  | none | some [] => [.text]
  | some modalities => modalities

/-- The row that a create makes. -/
def AiModelCreate.newModel (payload : AiModelCreate) (modelId : UUID) (now : Time) : AiModel where
  id := modelId
  createdAt := now
  name := payload.name
  description := payload.description
  modelAlias := payload.modelAlias
  provider := payload.provider
  inputModalities := modalitiesOrText payload.inputModalities
  outputModalities := modalitiesOrText payload.outputModalities
  providerModelId := payload.providerModelId
  endpointName := payload.endpointName
  inferenceEndpoint := payload.inferenceEndpoint
  iconFile := payload.iconFile
  labels := payload.labels
  parameters := payload.parameters
  extras := payload.extras
  apiKeyEncrypted := payload.apiKeyEncrypted
  warmupEnabled := payload.warmupEnabled
  advancedParamsDisabled := payload.advancedParamsDisabled
  webAccess := payload.webAccess
  inactivityAlertHours := payload.inactivityAlertHours
  disabledAt := if payload.isDisabled then some now else none

/-- `create_model`, up to the insert. -/
def createModel (env : Env) (modelId : UUID) (now : Time) (payload : AiModelCreate) :
    Except ApiError AiModel := do
  requireInferenceEndpoint env payload.provider payload.inferenceEndpoint
  requireUnprefixedModelId env payload.provider payload.providerModelId payload.inferenceEndpoint
  requireWebAccessSupported env payload.provider payload.providerModelId payload.webAccess
  return payload.newModel modelId now

/-! ### `update_model` -/

/-- The payload of a patch. `none` is a field that the caller did not send. -/
structure AiModelUpdateChanges where
  name : Option String := none
  description : Option (Option String) := none
  modelAlias : Option String := none
  provider : Option ProviderVendor := none
  inputModalities : Option (List Modality) := none
  outputModalities : Option (List Modality) := none
  providerModelId : Option String := none
  endpointName : Option (Option String) := none
  inferenceEndpoint : Option (Option String) := none
  iconFile : Option (Option String) := none
  labels : Option (List String) := none
  parameters : Option JsonObject := none
  extras : Option JsonObject := none
  isDisabled : Option Bool := none
  warmupEnabled : Option Bool := none
  advancedParamsDisabled : Option Bool := none
  webAccess : Option Bool := none
  inactivityAlertHours : Option (Option Nat) := none

namespace AiModelUpdateChanges
variable (changes : AiModelUpdateChanges)

/-- The `is_disabled` of a patch, through `disable` and `enable`. -/
def applyDisabled (now : Time) (model : AiModel) : AiModel :=
  match changes.isDisabled with
  | some true => model.disable now
  | some false => model.enable
  | none => model

/-- The patch restores a knob that had silenced the inactivity alert. -/
def rearms (model : AiModel) : Bool :=
  model.inactivityAlertHours.isNone && changes.inactivityAlertHours.any Option.isSome ||
    !model.warmupEnabled && changes.warmupEnabled == some true

/-- Write the fields of the patch. -/
def apply (now : Time) (model : AiModel) : AiModel :=
  let model' := changes.applyDisabled now model
  { model' with
      name := changes.name.getD model.name
      description := changes.description.getD model.description
      modelAlias := changes.modelAlias.getD model.modelAlias
      provider := changes.provider.getD model.provider
      inputModalities := changes.inputModalities.getD model.inputModalities
      outputModalities := changes.outputModalities.getD model.outputModalities
      providerModelId := changes.providerModelId.getD model.providerModelId
      endpointName := changes.endpointName.getD model.endpointName
      inferenceEndpoint := changes.inferenceEndpoint.getD model.inferenceEndpoint
      iconFile := changes.iconFile.getD model.iconFile
      labels := changes.labels.getD model.labels
      parameters := changes.parameters.getD model.parameters
      extras := changes.extras.getD model.extras
      warmupEnabled := changes.warmupEnabled.getD model.warmupEnabled
      advancedParamsDisabled := changes.advancedParamsDisabled.getD model.advancedParamsDisabled
      webAccess := changes.webAccess.getD model.webAccess
      inactivityAlertHours := changes.inactivityAlertHours.getD model.inactivityAlertHours
      inactivityAlertedAt :=
        if changes.rearms model then none else model'.inactivityAlertedAt }

/-- The checks on the merged row, each only when the patch touches one of its fields. -/
def validate (env : Env) (merged : AiModel) : Except ApiError Unit := do
  if changes.provider.isSome || changes.inferenceEndpoint.isSome then
    requireInferenceEndpoint env merged.provider merged.inferenceEndpoint
  if changes.provider.isSome || changes.providerModelId.isSome ||
      changes.inferenceEndpoint.isSome then
    requireUnprefixedModelId env merged.provider merged.providerModelId merged.inferenceEndpoint
  if changes.provider.isSome || changes.providerModelId.isSome || changes.webAccess.isSome then
    requireWebAccessSupported env merged.provider merged.providerModelId merged.webAccess

end AiModelUpdateChanges

/-- `update_model`. The finding goes when a part of the probed call moves. -/
def updateModel (env : Env) (now : Time) (model : AiModel) (changes : AiModelUpdateChanges) :
    Except ApiError AiModel := do
  let merged := changes.apply now model
  changes.validate env merged
  return if merged.probedCall = model.probedCall then merged
    else { merged with capabilityMismatch := none }

/-- A patch leaves the finding to `update_model`. -/
@[simp] theorem AiModelUpdateChanges.apply_capabilityMismatch (changes : AiModelUpdateChanges)
    (now : Time) (model : AiModel) :
    (changes.apply now model).capabilityMismatch = model.capabilityMismatch := by
  unfold AiModelUpdateChanges.apply AiModelUpdateChanges.applyDisabled
  split <;> rfl

/-- A patch leaves the id, the times, and the tombstone. -/
@[simp] theorem AiModelUpdateChanges.apply_toBaseModel (changes : AiModelUpdateChanges)
    (now : Time) (model : AiModel) :
    (changes.apply now model).toBaseModel = model.toBaseModel := by
  unfold AiModelUpdateChanges.apply AiModelUpdateChanges.applyDisabled
  split <;> rfl

/-- A patch leaves the last use to the stamps. -/
@[simp] theorem AiModelUpdateChanges.apply_lastUsedAt (changes : AiModelUpdateChanges)
    (now : Time) (model : AiModel) : (changes.apply now model).lastUsedAt = model.lastUsedAt := by
  unfold AiModelUpdateChanges.apply AiModelUpdateChanges.applyDisabled
  split <;> rfl

/-- The flag after a patch. -/
theorem AiModelUpdateChanges.apply_disabledAt (changes : AiModelUpdateChanges) (now : Time)
    (model : AiModel) :
    (changes.apply now model).disabledAt =
      match changes.isDisabled with
      | some true => some now
      | some false => none
      | none => model.disabledAt := by
  unfold AiModelUpdateChanges.apply AiModelUpdateChanges.applyDisabled
  split <;> rfl

/-- The stamp of the alert after a patch. -/
theorem AiModelUpdateChanges.apply_inactivityAlertedAt (changes : AiModelUpdateChanges)
    (now : Time) (model : AiModel) :
    (changes.apply now model).inactivityAlertedAt =
      if changes.rearms model || model.disabledAt.isSome && changes.isDisabled ==
        some false then none
      else model.inactivityAlertedAt := by
  unfold AiModelUpdateChanges.apply AiModelUpdateChanges.applyDisabled AiModel.disable
    AiModel.enable
  cases changes.rearms model <;> cases hdisabled : model.disabledAt <;>
    rcases changes.isDisabled with _ | _ | _ <;> simp [*]

/-- A finding that is there after a patch was there before, for the same call. -/
theorem updateModel_capabilityMismatch {env : Env} {now : Time} {model model' : AiModel}
    {changes : AiModelUpdateChanges} (h : updateModel env now model changes = .ok model')
    (hfinding : model'.capabilityMismatch.isSome) :
    model'.probedCall = model.probedCall ∧
      model'.capabilityMismatch = model.capabilityMismatch := by
  simp only [updateModel, bind_eq_ok] at h
  obtain ⟨_, -, h⟩ := h
  cases h
  split at hfinding
  · rename_i hsame
    rw [if_pos hsame]
    exact ⟨hsame, changes.apply_capabilityMismatch now model⟩
  · cases hfinding

end RedTeaming.AiGateway
