import RedTeaming.AiGateway.InferenceParams
import RedTeaming.AiGateway.Models
import RedTeaming.ApiError

/-!
# `RedTeaming.AiGateway.Dispatch`: from a model row to the call of its provider

`core/ai_gateway/dispatch.py`, and the adapter in `providers/litellm.py`. Every path goes through
`buildCall`, which checks the row, merges the parameters, and renames two of them. What comes
after differs by path.

- A chat and a stream go through `applyWebAccess`.
- The probes (warm-up, health check, image probe) cap the reply at one token instead.

The opening of a stored credential is a parameter, and so are the keys of the platform
(`Secrets`). The timeouts, the usage stamps, and what the provider answers are left out.
-/

set_option autoImplicit false

namespace RedTeaming.AiGateway

open RedTeaming.Library

/-! ### Messages -/

/-- The role of a message. -/
inductive Role
  | system | user | assistant
deriving DecidableEq, Repr

/-- A part of a multi-modal message. -/
inductive ContentPart
  | text (text : String)
  | image (url : String)
deriving DecidableEq, Repr

/-- The content of a message: a text, or parts. -/
inductive Content
  | text (text : String)
  | parts (parts : List ContentPart)
deriving DecidableEq, Repr

/-- `ChatMessage`. -/
structure ChatMessage where
  role : Role
  content : Content
deriving DecidableEq, Repr

/-- The part is an image. -/
def ContentPart.isImage : ContentPart → Bool
  | .text _ => false
  | .image _ => true

/-- The message has an image in it. -/
def ChatMessage.hasImage (message : ChatMessage) : Bool :=
  match message.content with
  | .text _ => false
  | .parts parts => parts.any ContentPart.isImage

/-- `_has_image_content`. -/
def hasImageContent (messages : List ChatMessage) : Bool := messages.any ChatMessage.hasImage

/-- `_PROBE_MESSAGE`. -/
def probeMessage : ChatMessage := ⟨.user, .text "ping"⟩

/-- `_PROBE_PNG`. -/
def probePng : String :=
  "data:image/png;base64," ++
    "iVBORw0KGgoAAAANSUhEUgAAAAEAAAABCAYAAAAfFcSJAAAADUlEQVR42mNk" ++
    "YPhfDwAChwGA60e6kgAAAABJRU5ErkJggg=="

/-- `_PROBE_IMAGE_MESSAGE`. -/
def probeImageMessage : ChatMessage := ⟨.user, .parts [.text "ping", .image probePng]⟩

/-! ### The call of a provider -/

/-- Why the gateway makes no call. The last one is what `str.join` raises on a prompt that is no
text. -/
inductive DispatchError
  | notFound (detail : String)
  | badRequest (detail : String)
  | auth (detail : String)
  | typeError (detail : String)
deriving DecidableEq, Repr

/-- The arguments of a call. -/
structure ProviderCall where
  vendor : ProviderVendor
  providerModelId : String
  messages : List ChatMessage
  apiKey : Option String
  apiBase : Option String
  params : JsonObject

/-- `decrypt_secret` with the configured keys, and the platform key of each vendor. -/
structure Secrets where
  decryptSecret : String → Option String
  platformKey : ProviderVendor → Option String

/-- `raise e` unless `b` holds. -/
def require (b : Bool) (e : DispatchError) : Except DispatchError Unit :=
  if b then .ok () else .error e

/-- `resolve_api_key` and `_credential`: the stored credential of the row, or the key of the
platform. -/
def credential (secrets : Secrets) (model : AiModel) : Except DispatchError (Option String) :=
  match model.apiKeyEncrypted with
  | none => .ok (secrets.platformKey model.provider)
  | some ciphertext =>
    match secrets.decryptSecret ciphertext with
    | some key => .ok (some key)
    | none => .error (.auth ("Stored credential for model " ++ quoted model.modelAlias
        ++ " could not be decrypted."))

/-- The checks of `_build_call`. -/
def requireCallable (env : Env) (model : AiModel) (messages : List ChatMessage) :
    Except DispatchError Unit := do
  require (model.outputModalities.contains .text)
    (.badRequest ("Model " ++ quoted model.modelAlias ++ " does not produce text output."))
  require (model.inputModalities.contains .image || !hasImageContent messages)
    (.badRequest ("Model " ++ quoted model.modelAlias ++ " does not accept image input."))
  require (!missingInferenceEndpoint env model.provider model.inferenceEndpoint)
    (.badRequest
      ("Model " ++ quoted model.modelAlias ++ " is generic but carries no inference_endpoint"
      ++ " — there is no base URL to call."))

/-- The value is true in Python. -/
def truthy : Json → Bool
  | .null => false
  | .bool b => b
  | .num n => n != 0
  | .str s => !s.isEmpty
  | .arr items => !items.isEmpty
  | .obj fields => !fields.isEmpty

/-- An item of `str.join`. -/
def joined : Json → Except DispatchError String
  | .str s => .ok s
  | _ => .error (.typeError "sequence item 0: expected str instance")

/-- The system message: the prompt of the cascade, then the suffix of the gateway. -/
def systemContent (systemPrompt : Option Json) (systemSuffix : Option String) :
    Except DispatchError String := do
  let parts := (systemPrompt.toList ++ (systemSuffix.map Json.str).toList).filter truthy
  let texts ← parts.mapM joined
  return "\n\n".intercalate texts

/-- The messages with the system message in front, if there is one. -/
def withSystem (content : String) (messages : List ChatMessage) : List ChatMessage :=
  if content.isEmpty then messages else ⟨.system, .text content⟩ :: messages

/-- The merged parameters of a call. A row that opts out of the cascade has none. -/
def mergedParams (model : AiModel) (params : Option JsonObject) : JsonObject :=
  if model.advancedParamsDisabled then []
    else mergeInferenceParams [some model.parameters, params]

/-- `dict.pop(k, None)`, without the value. -/
def dropField (k : String) (fields : JsonObject) : JsonObject :=
  keepFields (fun key => key != k) fields

/-- `dict.setdefault(k, v)`. -/
def setDefault (k : String) (v : Json) (fields : JsonObject) : JsonObject :=
  if (fields.lookup k).isSome then fields else setField k v fields

/-- A value that is not `None`. -/
def notNull : Option Json → Option Json
  | none | some .null => none
  | some v => some v

/-- The registry names it `stop_sequences`, litellm's argument is `stop`. -/
def renameStop (merged : JsonObject) : JsonObject :=
  match notNull (merged.lookup "stop_sequences") with
  | none => dropField "stop_sequences" merged
  | some stop => setDefault "stop" stop (dropField "stop_sequences" merged)

/-- `_build_call`: the call of a row, before the web tools. -/
def buildCall (env : Env) (secrets : Secrets) (model : AiModel) (messages : List ChatMessage)
    (params : Option JsonObject) (systemSuffix : Option String) :
    Except DispatchError ProviderCall := do
  requireCallable env model messages
  let merged := mergedParams model params
  let content ← systemContent (merged.lookup "system_prompt") systemSuffix
  let apiKey ← credential secrets model
  return {
    vendor := model.provider
    providerModelId := model.providerModelId
    messages := withSystem content messages
    apiKey
    apiBase := model.inferenceEndpoint
    params := renameStop (dropField "system_prompt" merged) }

/-! ### The web tools -/

/-- `_WEB_TOOL_KEYS`. -/
def webToolKeys : List String := ["web_search_options", "tools"]

/-- `_WEB_SEARCH_OPTIONS`. -/
def webSearchOptions : Json := .obj [("search_context_size", .str "medium")]

/-- `_ANTHROPIC_WEB_FETCH_TOOL`. -/
def anthropicWebFetchTool : Json :=
  .obj [("type", .str "web_fetch_20250910"), ("name", .str "web_fetch"), ("max_uses", .num 5)]

/-- The web tools of a vendor. -/
def webTools (vendor : ProviderVendor) : JsonObject :=
  if vendor = .anthropic then
    [("web_search_options", webSearchOptions), ("tools", .arr [anthropicWebFetchTool])]
  else [("web_search_options", webSearchOptions)]

/-- `_apply_web_access`: the switch on adds the tools, the switch off drops them. -/
def applyWebAccess (env : Env) (params : JsonObject) (model : AiModel) :
    Except DispatchError JsonObject := do
  if model.webAccess then
    require (supportsWebAccess env model.provider model.providerModelId)
      (.badRequest ("Model " ++ quoted model.modelAlias
        ++ " has no internet access option at its provider, yet web_access is on."))
    return mergeFields params (webTools model.provider)
  else return keepFields (fun key => !webToolKeys.contains key) params

/-! ### The paths -/

/-- `_resolve_model`: the live, enabled row with an alias. -/
def resolveModel (models : Table AiModel) (modelAlias : String) : Except DispatchError AiModel :=
  match ((liveSelect models).find? fun row => row.modelAlias == modelAlias).filter fun row =>
      !row.isDisabled with
  | some model => .ok model
  | none => .error (.notFound ("Model " ++ quoted modelAlias ++ " is not available."))

/-- The call of a chat or of a stream on a row. -/
def chatCall (env : Env) (secrets : Secrets) (model : AiModel) (messages : List ChatMessage)
    (params : Option JsonObject) (systemSuffix : Option String) :
    Except DispatchError ProviderCall := do
  let call ← buildCall env secrets model messages params systemSuffix
  let params ← applyWebAccess env call.params model
  return { call with params }

/-- The call of a probe on a row, capped at one token. -/
def probeCall (env : Env) (secrets : Secrets) (model : AiModel) (message : ChatMessage) :
    Except DispatchError ProviderCall := do
  let call ← buildCall env secrets model [message] none none
  return { call with params := mergeFields call.params [("max_tokens", .num 1)] }

/-- `dispatch_chat`: the call that it makes. -/
def dispatchChat (env : Env) (secrets : Secrets) (models : Table AiModel) (modelAlias : String)
    (messages : List ChatMessage) (params : Option JsonObject) (systemSuffix : Option String) :
    Except DispatchError ProviderCall := do
  let model ← resolveModel models modelAlias
  chatCall env secrets model messages params systemSuffix

/-- `dispatch_stream`: the call that it makes. -/
def dispatchStream (env : Env) (secrets : Secrets) (models : Table AiModel) (modelAlias : String)
    (messages : List ChatMessage) (params : Option JsonObject) (systemSuffix : Option String) :
    Except DispatchError ProviderCall := do
  let model ← resolveModel models modelAlias
  chatCall env secrets model messages params systemSuffix

/-- `dispatch_health`: the call that it makes. -/
def dispatchHealth (env : Env) (secrets : Secrets) (model : AiModel) :
    Except DispatchError ProviderCall :=
  probeCall env secrets model probeMessage

/-- `dispatch_capability_probe`: the call that it makes. -/
def dispatchCapabilityProbe (env : Env) (secrets : Secrets) (model : AiModel) :
    Except DispatchError ProviderCall :=
  probeCall env secrets model probeImageMessage

/-- `dispatch_probe`, the warm-up: the call that it makes. -/
def dispatchProbe (env : Env) (secrets : Secrets) (models : Table AiModel) (modelAlias : String) :
    Except DispatchError ProviderCall := do
  let model ← resolveModel models modelAlias
  dispatchHealth env secrets model

/-! ### The adapter -/

/-- `_RESERVED_PARAMS`: the arguments that the adapter sets itself. -/
def reservedParams : List String :=
  ["model", "messages", "api_key", "api_base", "timeout", "stream"]

/-- `_safe_params`. -/
def safeParams (params : JsonObject) : JsonObject :=
  keepFields (fun key => !reservedParams.contains key) params

/-- `_USAGE_IN_STREAM_VENDORS`. -/
def usageInStream : ProviderVendor → Bool
  | .openai | .generic => true
  | _ => false

/-- The arguments of `litellm.acompletion`. -/
structure Acompletion where
  model : String
  messages : List ChatMessage
  apiKey : Option String
  apiBase : Option String
  stream : Bool
  params : JsonObject

/-- `_call_kwargs`. -/
def callKwargs (call : ProviderCall) (stream : Bool) : Acompletion where
  model := call.vendor.litellmPrefix ++ "/" ++ call.providerModelId
  messages := call.messages
  apiKey := call.apiKey
  apiBase := call.apiBase
  stream
  params := safeParams call.params

/-- `LiteLLMProvider.chat`. -/
def providerChat (call : ProviderCall) : Acompletion := callKwargs call false

/-- `LiteLLMProvider.stream`: some vendors report usage in a stream only when asked. -/
def providerStream (call : ProviderCall) : Acompletion :=
  let kwargs := callKwargs call true
  if usageInStream call.vendor then
    { kwargs with
        params := setDefault "stream_options" (.obj [("include_usage", .bool true)])
          kwargs.params }
  else kwargs

/-! ### What the functions return -/

section
variable {env : Env} {secrets : Secrets} {model : AiModel} {messages : List ChatMessage}
  {params : Option JsonObject} {systemSuffix : Option String} {call : ProviderCall}

@[simp] theorem require_eq_ok {b : Bool} {e : DispatchError} {u : Unit} :
    require b e = .ok u ↔ b = true := by
  cases b <;> simp [require]

/-- A built call is that of a row that passes the checks, with a prompt and a credential. -/
theorem buildCall_eq_ok :
    buildCall env secrets model messages params systemSuffix = .ok call ↔
      ∃ content apiKey, requireCallable env model messages = .ok () ∧
        systemContent ((mergedParams model params).lookup "system_prompt") systemSuffix =
          .ok content ∧
        credential secrets model = .ok apiKey ∧
        call =
          { vendor := model.provider
            providerModelId := model.providerModelId
            messages := withSystem content messages
            apiKey
            apiBase := model.inferenceEndpoint
            params := renameStop (dropField "system_prompt" (mergedParams model params)) } := by
  simp only [buildCall, bind_eq_ok]
  constructor
  · intro ⟨_, hcallable, content, hcontent, apiKey, hkey, hcall⟩
    cases hcall
    exact ⟨content, apiKey, hcallable, hcontent, hkey, rfl⟩
  · intro ⟨content, apiKey, hcallable, hcontent, hkey, hcall⟩
    exact ⟨(), hcallable, content, hcontent, apiKey, hkey, by rw [hcall]; rfl⟩

/-- A chat call is a built call with the web tools that the switch allows. -/
theorem chatCall_eq_ok :
    chatCall env secrets model messages params systemSuffix = .ok call ↔
      ∃ built web, buildCall env secrets model messages params systemSuffix = .ok built ∧
        applyWebAccess env built.params model = .ok web ∧
          call = { built with params := web } := by
  simp only [chatCall, bind_eq_ok]
  constructor
  · intro ⟨built, hbuilt, web, hweb, hcall⟩
    cases hcall
    exact ⟨built, web, hbuilt, hweb, rfl⟩
  · intro ⟨built, web, hbuilt, hweb, hcall⟩
    exact ⟨built, hbuilt, web, hweb, by rw [hcall]; rfl⟩

/-- A probe is a built call with the cap. -/
theorem probeCall_eq_ok {message : ChatMessage} :
    probeCall env secrets model message = .ok call ↔
      ∃ built, buildCall env secrets model [message] none none = .ok built ∧
        call = { built with params := setField "max_tokens" (.num 1) built.params } := by
  simp only [probeCall, bind_eq_ok]
  constructor
  · intro ⟨built, hbuilt, hcall⟩
    cases hcall
    exact ⟨built, hbuilt, rfl⟩
  · intro ⟨built, hbuilt, hcall⟩
    exact ⟨built, hbuilt, by rw [hcall]; rfl⟩

/-- The switch on adds the tools of the vendor, and off it drops what the row has of them. -/
theorem applyWebAccess_eq_ok {merged web : JsonObject} :
    applyWebAccess env merged model = .ok web ↔
      if model.webAccess then
        supportsWebAccess env model.provider model.providerModelId = true ∧
          web = mergeFields merged (webTools model.provider)
      else web = keepFields (fun key => !webToolKeys.contains key) merged := by
  unfold applyWebAccess
  split
  · rw [bind_eq_ok]
    constructor
    · intro ⟨_, hsupported, hweb⟩
      cases hweb
      exact ⟨require_eq_ok.mp hsupported, rfl⟩
    · intro ⟨hsupported, hweb⟩
      exact ⟨(), require_eq_ok.mpr hsupported, by rw [hweb]; rfl⟩
  · constructor
    · intro hweb
      cases hweb
      rfl
    · intro hweb
      rw [hweb]
      rfl

/-! ### The parameters of a call, field by field -/

/-- A default is read where nothing was written. -/
theorem lookup_setDefault (k : String) (v : Json) (fields : JsonObject) (k' : String) :
    (setDefault k v fields).lookup k' =
      if k' = k then some ((fields.lookup k).getD v) else fields.lookup k' := by
  unfold setDefault
  split
  · rename_i hsome
    obtain ⟨old, hold⟩ := Option.isSome_iff_exists.mp hsome
    split
    · rename_i hk
      rw [hk, hold]
      rfl
    · rfl
  · rename_i hnone
    rw [lookup_setField]
    split
    · rename_i hk
      rw [Option.not_isSome_iff_eq_none.mp hnone]
      rfl
    · rfl

/-- A dropped field is not there, and the others are. -/
theorem lookup_dropField (k : String) (fields : JsonObject) (k' : String) :
    (dropField k fields).lookup k' = if k' = k then none else fields.lookup k' := by
  rw [dropField, lookup_keepFields]
  by_cases hk : k' = k <;> simp [hk]

/-- The renaming moves `stop_sequences` to `stop`, unless `stop` is there, and leaves the other
fields. -/
theorem lookup_renameStop (merged : JsonObject) (k : String) :
    (renameStop merged).lookup k =
      if k = "stop_sequences" then none
      else if k = "stop" then
        (merged.lookup "stop").or (notNull (merged.lookup "stop_sequences"))
      else merged.lookup k := by
  unfold renameStop
  split
  · rename_i hstop
    rw [lookup_dropField, hstop, Option.or_none]
    split
    · rfl
    · split
      · rename_i hk
        rw [hk]
      · rfl
  · rename_i stop hstop
    rw [lookup_setDefault, hstop, lookup_dropField, lookup_dropField]
    by_cases hstops : k = "stop_sequences"
    · simp [hstops]
    · by_cases hk : k = "stop"
      · cases merged.lookup "stop" <;> simp [hk]
      · simp [hk, hstops]

end

end RedTeaming.AiGateway
