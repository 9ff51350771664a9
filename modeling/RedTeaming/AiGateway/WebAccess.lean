import RedTeaming.AiGateway.Dispatch

/-!
# `RedTeaming.AiGateway.WebAccess`: which calls go online

The switch `web_access` of a row should be the only way online. A chat and a stream drop the web
tools that an operator stored among the parameters of a row whose switch is off. A probe sends
them. `web_only_by_switch_iff` says for which dispatches the switch decides: all but the probes of
a row that stores web tools (`LeakyRow`).
-/

set_option autoImplicit false

namespace RedTeaming.AiGateway

open RedTeaming.Library

/-- The parameters carry web-search options or tools. The two keys are named here, whatever the
code strips. -/
def carriesWeb (params : JsonObject) : Bool :=
  (params.lookup "web_search_options").isSome || (params.lookup "tools").isSome

/-- What the gateway is asked for: a chat or a stream with an alias, the warm-up of an alias, or a
probe of a row that is at hand. -/
inductive Dispatch
  | chat (modelAlias : String) (messages : List ChatMessage) (params : Option JsonObject)
      (systemSuffix : Option String)
  | stream (modelAlias : String) (messages : List ChatMessage) (params : Option JsonObject)
      (systemSuffix : Option String)
  | warmup (modelAlias : String)
  | health (model : AiModel)
  | imageProbe (model : AiModel)

namespace Dispatch

/-- The row that is called. -/
def row (models : Table AiModel) : Dispatch → Except DispatchError AiModel
  | chat modelAlias _ _ _ | stream modelAlias _ _ _ | warmup modelAlias =>
    resolveModel models modelAlias
  | health model | imageProbe model => .ok model

/-- The call that the adapter is handed. -/
def call (env : Env) (secrets : Secrets) (models : Table AiModel) :
    Dispatch → Except DispatchError ProviderCall
  | chat modelAlias messages params systemSuffix =>
    dispatchChat env secrets models modelAlias messages params systemSuffix
  | stream modelAlias messages params systemSuffix =>
    dispatchStream env secrets models modelAlias messages params systemSuffix
  | warmup modelAlias => dispatchProbe env secrets models modelAlias
  | health model => dispatchHealth env secrets model
  | imageProbe model => dispatchCapabilityProbe env secrets model

/-- The message of a probe. -/
def probe? : Dispatch → Option ChatMessage
  | chat .. | stream .. => none
  | warmup _ | health _ => some probeMessage
  | imageProbe _ => some probeImageMessage

end Dispatch

/-- The switch of the row decides whether the call goes online. -/
def WebOnlyBySwitch (env : Env) (secrets : Secrets) (models : Table AiModel)
    (d : Dispatch) : Prop :=
  ∀ row call, d.row models = .ok row → d.call env secrets models = .ok call →
    carriesWeb call.params = true → row.webAccess = true

/-- A row with the switch off whose stored parameters carry web tools, and which can be called
with the message: it takes part in the cascade, it passes the checks, its prompt is a text, and
its credential opens. -/
structure LeakyRow (env : Env) (secrets : Secrets) (message : ChatMessage) (row : AiModel) :
    Prop where
  off : row.webAccess = false
  cascade : row.advancedParamsDisabled = false
  stored : carriesWeb row.parameters = true
  callable : requireCallable env row [message] = .ok ()
  prompt : ∃ content, systemContent ((mergedParams row none).lookup "system_prompt")
    none = .ok content
  credential : ∃ apiKey, credential secrets row = .ok apiKey

section
variable {env : Env} {secrets : Secrets} {models : Table AiModel} {row : AiModel}

/-! ### A chat -/

/-- With the switch off, a chat carries no web tools. -/
theorem chatCall_offline {messages : List ChatMessage} {params : Option JsonObject}
    {systemSuffix : Option String} {call : ProviderCall}
    (hcall : chatCall env secrets row messages params systemSuffix = .ok call)
    (hoff : row.webAccess = false) : carriesWeb call.params = false := by
  obtain ⟨built, web, -, hweb, rfl⟩ := chatCall_eq_ok.mp hcall
  rw [applyWebAccess_eq_ok, hoff] at hweb
  have hparams : web = keepFields (fun key => !webToolKeys.contains key) built.params := hweb
  show carriesWeb web = false
  -- What is dropped covers both keys.
  rw [hparams, carriesWeb, lookup_keepFields, lookup_keepFields]
  rfl

/-! ### A probe -/

/-- The cap, the renaming, and the prompt touch no web tool. -/
theorem carriesWeb_probe (row : AiModel) :
    carriesWeb (setField "max_tokens" (.num 1)
      (renameStop (dropField "system_prompt" (mergedParams row none)))) =
        (!row.advancedParamsDisabled && carriesWeb row.parameters) := by
  have hlookup : ∀ key : String,
      (key ≠ "max_tokens" ∧ key ≠ "stop_sequences" ∧ key ≠ "stop" ∧ key ≠ "system_prompt") →
      ((setField "max_tokens" (.num 1)
        (renameStop (dropField "system_prompt" (mergedParams row none)))).lookup key).isSome =
          (!row.advancedParamsDisabled && (row.parameters.lookup key).isSome) := by
    intro key hother
    rw [lookup_setField, if_neg hother.1, lookup_renameStop, if_neg hother.2.1,
      if_neg hother.2.2.1, lookup_dropField, if_neg hother.2.2.2, mergedParams]
    cases row.advancedParamsDisabled with
    | true => rfl
    | false =>
      show ((mergeFields (mergeFields [] row.parameters) []).lookup key).isSome = _
      rw [isSome_lookup_mergeFields, isSome_lookup_mergeFields]
      simp
  unfold carriesWeb
  rw [hlookup "web_search_options" (by decide), hlookup "tools" (by decide),
    Bool.and_or_distrib_left]

/-- The probe of a row with the switch off goes online when the row is leaky. -/
theorem probeCall_online_iff {message : ChatMessage} (hoff : row.webAccess = false) :
    (∃ call, probeCall env secrets row message = .ok call ∧ carriesWeb call.params = true) ↔
      LeakyRow env secrets message row := by
  constructor
  · intro ⟨call, hcall, hweb⟩
    obtain ⟨built, hbuilt, rfl⟩ := probeCall_eq_ok.mp hcall
    obtain ⟨content, apiKey, hcallable, hcontent, hkey, rfl⟩ := buildCall_eq_ok.mp hbuilt
    have hcarries := (carriesWeb_probe row).symm.trans hweb
    rw [Bool.and_eq_true, Bool.not_eq_true'] at hcarries
    exact
      { off := hoff
        cascade := hcarries.1
        stored := hcarries.2
        callable := hcallable
        prompt := ⟨content, hcontent⟩
        credential := ⟨apiKey, hkey⟩ }
  · intro h
    obtain ⟨content, hcontent⟩ := h.prompt
    obtain ⟨apiKey, hkey⟩ := h.credential
    refine ⟨_, probeCall_eq_ok.mpr
      ⟨_, buildCall_eq_ok.mpr ⟨content, apiKey, h.callable, hcontent, hkey, rfl⟩, rfl⟩, ?_⟩
    refine (carriesWeb_probe row).trans ?_
    rw [h.cascade, h.stored]
    rfl

/-! ### Every dispatch -/

/-- A chat or a stream calls its row. -/
theorem Dispatch.chatCall_of_call {d : Dispatch} {call : ProviderCall} (hprobe : d.probe? = none)
    (hrow : d.row models = .ok row) (hcall : d.call env secrets models = .ok call) :
    ∃ messages params systemSuffix,
      chatCall env secrets row messages params systemSuffix = .ok call := by
  cases d with
  | chat modelAlias messages params systemSuffix =>
    obtain ⟨model, hmodel, hcall⟩ := bind_eq_ok.mp hcall
    cases hmodel.symm.trans hrow
    exact ⟨messages, params, systemSuffix, hcall⟩
  | stream modelAlias messages params systemSuffix =>
    obtain ⟨model, hmodel, hcall⟩ := bind_eq_ok.mp hcall
    cases hmodel.symm.trans hrow
    exact ⟨messages, params, systemSuffix, hcall⟩
  | warmup modelAlias => cases hprobe
  | health model => cases hprobe
  | imageProbe model => cases hprobe

/-- A probe calls its row with its message. -/
theorem Dispatch.call_of_probe {d : Dispatch} {message : ChatMessage}
    (hprobe : d.probe? = some message) (hrow : d.row models = .ok row) :
    d.call env secrets models = probeCall env secrets row message := by
  cases d with
  | chat modelAlias messages params systemSuffix => cases hprobe
  | stream modelAlias messages params systemSuffix => cases hprobe
  | warmup modelAlias =>
    cases hprobe
    show resolveModel models modelAlias >>= _ = _
    rw [show resolveModel models modelAlias = .ok row from hrow]
    rfl
  | health model =>
    cases hprobe
    cases hrow
    rfl
  | imageProbe model =>
    cases hprobe
    cases hrow
    rfl

/-- The probe of a leaky row goes online with the switch off. -/
theorem not_webOnly_of_leaky {d : Dispatch} {message : ChatMessage}
    (hprobe : d.probe? = some message) (hrow : d.row models = .ok row)
    (hleaky : LeakyRow env secrets message row) :
    ¬ WebOnlyBySwitch env secrets models d := by
  intro honly
  obtain ⟨call, hcall, hweb⟩ := (probeCall_online_iff hleaky.off).mpr hleaky
  have hon := honly row call hrow (by rw [Dispatch.call_of_probe hprobe hrow, hcall]) hweb
  rw [hleaky.off] at hon
  cases hon

end

/-- The switch decides for every dispatch but the probe of a leaky row. -/
theorem web_only_by_switch_iff (env : Env) (secrets : Secrets) (models : Table AiModel)
    (d : Dispatch) :
    WebOnlyBySwitch env secrets models d ↔
      ¬ ∃ message row, d.probe? = some message ∧ d.row models = .ok row ∧
        LeakyRow env secrets message row := by
  constructor
  · intro honly ⟨message, row, hprobe, hrow, hleaky⟩
    exact not_webOnly_of_leaky hprobe hrow hleaky honly
  · intro hnone row call hrow hcall hweb
    by_contra hon
    rw [Bool.not_eq_true] at hon
    cases hprobe : d.probe? with
    | none =>
      obtain ⟨messages, params, systemSuffix, hchat⟩ :=
        Dispatch.chatCall_of_call hprobe hrow hcall
      rw [chatCall_offline hchat hon] at hweb
      cases hweb
    | some message =>
      rw [Dispatch.call_of_probe hprobe hrow] at hcall
      exact hnone ⟨message, row, hprobe, hrow, (probeCall_online_iff hon).mp ⟨call, hcall, hweb⟩⟩

/-! ### A row with stored web tools -/

/-- A row of Anthropic with the switch off, and with search options among its parameters. -/
def rawParamsModel : AiModel where
  id := 20
  createdAt := 0
  name := "Raw params"
  modelAlias := "raw-params"
  provider := .anthropic
  providerModelId := "claude-sonnet-4-5"
  parameters := [("temperature", .num (2 / 5)), ("web_search_options", .obj [])]

/-- No library, and no keys. -/
def bareEnv : Env where
  strip := id
  lower := id
  supportsWebSearch _ := false
  hasPlatformKey _ := false
  healthCheckTaskTimeLimitSeconds := 0

/-- The health check of the row searches the web. -/
theorem health_check_online :
    ¬ ∀ env secrets models d, WebOnlyBySwitch env secrets models d := by
  intro h
  let secrets : Secrets := ⟨fun _ => none, fun _ => none⟩
  have hleaky : LeakyRow bareEnv secrets probeMessage rawParamsModel :=
    { off := rfl
      cascade := rfl
      stored := by decide
      callable := rfl
      prompt := ⟨"", rfl⟩
      credential := ⟨none, rfl⟩ }
  have hrow : (Dispatch.health rawParamsModel).row .empty = .ok rawParamsModel := rfl
  exact not_webOnly_of_leaky rfl hrow hleaky
    (h bareEnv secrets .empty (.health rawParamsModel))

end RedTeaming.AiGateway
