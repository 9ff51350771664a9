import RedTeaming.AiGateway.SentParams
import RedTeaming.Conversations.Rows
import RedTeaming.Evaluations.ModelViews

/-!
# `RedTeaming.Conversations.Cascade`: the parameters of a reply

A reply has four levels of parameters: the model, its assignment, the conversation, and the
request. They are merged in `resolveDispatchTarget` and in the reply, then once more over the row
in the gateway. The gateway and the adapter then rename, withhold, and add some (`sentParam`).

`parameter_cascade` says that the value of each is that of the most specific level
(`mostSpecific`), and that the second merge over the row adds nothing. It takes the alias to find
the row that the target was read from. The levels are objects of a database, so their keys are
distinct.

The view of an assignment shows the parameters that a conversation without its own inherits. These
are the ones sent, but for the web tools that an operator stored: the switch `web_access` decides
about them, and the view shows them anyway (`effective_parameters_show_web_tools`).
-/

set_option autoImplicit false

namespace RedTeaming.Conversations

open RedTeaming.AiGateway
open RedTeaming.Evaluations
    (Evaluation EvaluationAiModel EvaluationAiModelView inheritedParameters)
open RedTeaming.Library

/-! ### The target of a reply -/

/-- What a reply is dispatched with. -/
structure DispatchTarget where
  modelAlias : String
  params : JsonObject
  mask : Bool

/-- `resolve_dispatch_target`: the alias of the model, the merged parameters, and the mask. -/
def resolveDispatchTarget (models : Table AiModel) (assignments : Table EvaluationAiModel)
    (evaluations : Table Evaluation) (conversation : Conversation) :
    Except ApiError DispatchTarget :=
  let row := do
    let assignment ← assignments.find? conversation.evaluationAiModelId
    let model ← models.find? assignment.modelId
    let evaluation ← evaluations.find? assignment.evaluationId
    return DispatchTarget.mk model.modelAlias
      (mergeInferenceParams
        [some model.parameters, some assignment.parameters, some conversation.parameters])
      evaluation.maskModelsEnabled
  found row (.notFound ("Model assignment for conversation " ++ toString conversation.id
    ++ " is unavailable."))

/-- The parameters of a reply: those of the target, and the overrides of the request over them. -/
def replyParams (params : JsonObject) (override : Option JsonObject) : JsonObject :=
  match override with
  | none => params
  | some request => mergeInferenceParams [some params, some request]

/-- `params or None`. -/
def orNone (params : JsonObject) : Option JsonObject := if params.isEmpty then none
    else some params

/-- The call of a reply, as the library gets it. -/
def dispatchReply (env : AiGateway.Env) (secrets : Secrets) (models : Table AiModel)
    (target : DispatchTarget) (override : Option JsonObject) (history : List ChatMessage)
    (tagBlock : Option String) : Except DispatchError Acompletion := do
  let call ← dispatchStream env secrets models target.modelAlias history
    (orNone (replyParams target.params override)) tagBlock
  return providerStream call

/-! ### What a reply sends -/

/-- The call sends the parameters whose values are `value`, and the prompt among them in front of
the messages. -/
structure Sends (row : AiModel) (stream : Bool) (value : String → Option Json)
    (messages : List ChatMessage) (systemSuffix : Option String) (kwargs : Acompletion) :
    Prop where
  fields : ∀ k, kwargs.params.lookup k = sentParam row stream value k
  plain : ∀ k, Plain k → kwargs.params.lookup k = value k
  system : ∀ prompt : Option String, value "system_prompt" = prompt.map .str →
    kwargs.messages = withSystem (joinedText prompt systemSuffix) messages

/-- The levels of a reply, the most specific one last. -/
def replyLevels (row : AiModel) (assignment : EvaluationAiModel) (conversation : Conversation)
    (override : Option JsonObject) : List JsonObject :=
  [row.parameters, assignment.parameters, conversation.parameters, override.getD []]

/-- The keys of each level are distinct. -/
def Distinct (levels : List JsonObject) : Prop := ∀ level ∈ levels, (level.map Prod.fst).Nodup

/-- What the call of a reply owes its levels. -/
structure ReplySends (row : AiModel) (assignment : EvaluationAiModel)
    (conversation : Conversation) (override : Option JsonObject) (history : List ChatMessage)
    (tagBlock : Option String) (params : JsonObject) (kwargs : Acompletion) : Prop where
  sends : row.advancedParamsDisabled = false →
    Sends row true (mostSpecific (replyLevels row assignment conversation override))
      history tagBlock kwargs
  stop : row.advancedParamsDisabled = false →
    StopsAgree (replyLevels row assignment conversation override) →
      kwargs.params.lookup "stop" =
        mostSpecificStop (replyLevels row assignment conversation override)
  remerge : ∀ k, (mergeInferenceParams [some row.parameters, orNone params]).lookup k =
    params.lookup k
  effective : conversation.parameters = [] → override.getD [] = [] →
    Sends row true
      (fun k =>
        (EvaluationAiModelView.fromAssignment false assignment row).effectiveParameters.lookup k)
      history tagBlock kwargs

section
variable {env : AiGateway.Env} {secrets : Secrets} {models : Table AiModel}
  {assignments : Table EvaluationAiModel} {evaluations : Table Evaluation} {row : AiModel}
  {assignment : EvaluationAiModel} {conversation : Conversation} {target : DispatchTarget}
  {override : Option JsonObject} {history messages : List ChatMessage}
  {params : Option JsonObject} {systemSuffix tagBlock : Option String} {call : ProviderCall}
  {kwargs : Acompletion}

/-- A chat sends the merged parameters. -/
theorem sends_chat {value : String → Option Json}
    (hvalue : ∀ k, (mergedParams row params).lookup k = value k)
    (hcall : chatCall env secrets row messages params systemSuffix = .ok call) :
    Sends row false value messages systemSuffix (providerChat call) := by
  have hsame : (fun k => (mergedParams row params).lookup k) = value := funext hvalue
  have hfields : ∀ k, (providerChat call).params.lookup k = sentParam row false value k := by
    intro k
    rw [lookup_providerChat hcall k, hsame]
  exact
    { fields := hfields
      plain := fun k hk => by rw [hfields, sentParam_plain hk]
      system := fun prompt hprompt => messages_chatCall hcall (by rw [hvalue, hprompt]) }

/-- A stream sends the merged parameters. -/
theorem sends_stream {value : String → Option Json}
    (hvalue : ∀ k, (mergedParams row params).lookup k = value k)
    (hcall : chatCall env secrets row messages params systemSuffix = .ok call) :
    Sends row true value messages systemSuffix (providerStream call) := by
  have hsame : (fun k => (mergedParams row params).lookup k) = value := funext hvalue
  have hfields : ∀ k, (providerStream call).params.lookup k = sentParam row true value k := by
    intro k
    rw [lookup_providerStream hcall k, hsame]
  have hmessages : (providerStream call).messages = call.messages := by
    unfold providerStream
    split <;> rfl
  exact
    { fields := hfields
      plain := fun k hk => by rw [hfields, sentParam_plain hk]
      system := fun prompt hprompt =>
        hmessages.trans (messages_chatCall hcall (by rw [hvalue, hprompt])) }

/-- The stop list of a call that sends the values of its levels. -/
theorem stop_of_sends {stream : Bool} {levels : List JsonObject}
    (h : Sends row stream (mostSpecific levels) messages systemSuffix kwargs)
    (hstops : StopsAgree levels) : kwargs.params.lookup "stop" = mostSpecificStop levels := by
  rw [h.fields, ← stop_of_stopsAgree hstops]
  rfl

/-- The merge of a chat over its row. -/
theorem lookup_mergedParams (henabled : row.advancedParamsDisabled = false)
    (hdict : Distinct [row.parameters, params.getD []]) (k : String) :
    (mergedParams row params).lookup k = mostSpecific [row.parameters, params.getD []] k := by
  rw [mergedParams, henabled]
  exact lookup_mergeInferenceParams hdict k

/-! ### The reply -/

/-- What the target of a reply is. -/
theorem resolveDispatchTarget_eq_ok
    (hassignment : assignments.find? conversation.evaluationAiModelId = some assignment)
    (hmodel : models.find? assignment.modelId = some row)
    (htarget : resolveDispatchTarget models assignments evaluations conversation = .ok target) :
    target.modelAlias = row.modelAlias ∧
      target.params = mergeInferenceParams
        [some row.parameters, some assignment.parameters, some conversation.parameters] := by
  rw [resolveDispatchTarget, found_eq_ok, hassignment] at htarget
  simp only [Option.bind_eq_bind, Option.bind_some, hmodel, Option.bind_eq_some_iff] at htarget
  obtain ⟨evaluation, -, htarget⟩ := htarget
  cases htarget
  exact ⟨rfl, rfl⟩

/-- The parameters of a reply have the values of its levels. -/
theorem lookup_replyParams
    (hdict : Distinct (replyLevels row assignment conversation override)) (k : String) :
    (replyParams (mergeInferenceParams
      [some row.parameters, some assignment.parameters, some conversation.parameters])
        override).lookup k =
      mostSpecific (replyLevels row assignment conversation override) k := by
  have htarget : ∀ k, (mergeInferenceParams
      [some row.parameters, some assignment.parameters, some conversation.parameters]).lookup k =
        mostSpecific [row.parameters, assignment.parameters, conversation.parameters] k := by
    have hthree : Distinct [row.parameters, assignment.parameters, conversation.parameters] := by
      intro level hlevel
      refine hdict level ?_
      simp only [replyLevels, List.mem_cons, List.not_mem_nil, or_false] at hlevel ⊢
      tauto
    exact fun k => lookup_mergeInferenceParams hthree k
  cases override with
  | none => exact htarget k
  | some request =>
    have hlevels : Distinct [mergeInferenceParams
        [some row.parameters, some assignment.parameters, some conversation.parameters],
        request] := by
      intro level hlevel
      rcases List.mem_pair.mp hlevel with rfl | rfl
      · exact nodup_keys_mergeInferenceParams _
      · exact hdict _ (by simp [replyLevels])
    have hmerge := lookup_mergeInferenceParams hlevels k
    refine hmerge.trans ?_
    show (none.or (request.lookup k)).or (List.lookup k (mergeInferenceParams _)) = _
    rw [htarget]
    simp [replyLevels, mostSpecific, Option.or_assoc]

/-- Merging the parameters of a reply over the row again changes nothing. -/
theorem lookup_remerge {params : JsonObject} (hdict : (params.map Prod.fst).Nodup)
    (hrow : (row.parameters.map Prod.fst).Nodup)
    (hcovers : ∀ k, (row.parameters.lookup k).isSome = true → (params.lookup k).isSome = true)
    (k : String) :
    (mergeInferenceParams [some row.parameters, orNone params]).lookup k = params.lookup k := by
  have hlevels : Distinct [row.parameters, params] := by
    intro level hlevel
    rcases List.mem_pair.mp hlevel with rfl | rfl
    · exact hrow
    · exact hdict
  have hsame : mergeInferenceParams [some row.parameters, orNone params] =
      mergeInferenceParams ([row.parameters, params].map some) := by
    unfold orNone
    cases params <;> rfl
  rw [hsame, lookup_mergeInferenceParams hlevels]
  show (none.or (params.lookup k)).or (row.parameters.lookup k) = _
  rw [Option.none_or]
  cases hk : params.lookup k with
  | some v => rfl
  | none =>
    have hnone : row.parameters.lookup k = none := by
      cases hset : row.parameters.lookup k with
      | none => rfl
      | some v =>
        have hsome := hcovers k (by rw [hset]; rfl)
        rw [hk] at hsome
        cases hsome
    rw [hnone]
    rfl

/-- What a reply sends. -/
theorem replySends
    (hassignment : assignments.find? conversation.evaluationAiModelId = some assignment)
    (hmodel : models.find? assignment.modelId = some row)
    (hresolve : resolveModel models row.modelAlias = .ok row)
    (hdict : Distinct (replyLevels row assignment conversation override))
    (htarget : resolveDispatchTarget models assignments evaluations conversation = .ok target)
    (hsent : dispatchReply env secrets models target override history tagBlock = .ok kwargs) :
    ReplySends row assignment conversation override history tagBlock
      (replyParams target.params override) kwargs := by
  obtain ⟨halias, hparams⟩ := resolveDispatchTarget_eq_ok hassignment hmodel htarget
  have hreply : ∀ k, (replyParams target.params override).lookup k =
      mostSpecific (replyLevels row assignment conversation override) k := by
    intro k
    rw [hparams]
    exact lookup_replyParams hdict k
  have hnodup : ((replyParams target.params override).map Prod.fst).Nodup := by
    rw [hparams]
    cases override with
    | none => exact nodup_keys_mergeInferenceParams _
    | some request => exact nodup_keys_mergeInferenceParams _
  have hremerge :=
      lookup_remerge hnodup (hdict row.parameters List.mem_cons_self) fun k hset => by
    rw [hreply]
    exact isSome_mostSpecific List.mem_cons_self hset
  obtain ⟨call, hcall, hkwargs⟩ := bind_eq_ok.mp hsent
  cases hkwargs
  obtain ⟨model, hmodel', hcall⟩ := bind_eq_ok.mp hcall
  rw [halias, hresolve] at hmodel'
  cases hmodel'
  have hsends : row.advancedParamsDisabled = false →
      Sends row true (mostSpecific (replyLevels row assignment conversation override)) history
        tagBlock (providerStream call) := by
    intro henabled
    refine sends_stream (fun k => ?_) hcall
    rw [mergedParams, henabled, ← hreply]
    exact hremerge k
  have heffective : conversation.parameters = [] → override.getD [] = [] →
      ∀ k, (mergedParams row (orNone (replyParams target.params override))).lookup k =
        (EvaluationAiModelView.fromAssignment false assignment row).effectiveParameters.lookup
          k := by
    intro hconversation hoverride k
    show _ = (inheritedParameters assignment row).lookup k
    unfold mergedParams inheritedParameters
    split
    · rfl
    · have hpair : Distinct [row.parameters, assignment.parameters] := by
        intro level hlevel
        refine hdict level ?_
        simp only [replyLevels, List.mem_cons, List.not_mem_nil, or_false] at hlevel ⊢
        tauto
      have hinherited := lookup_mergeInferenceParams hpair k
      refine (hremerge k).trans ((hreply k).trans (Eq.trans ?_ hinherited.symm))
      simp [replyLevels, mostSpecific, hconversation, hoverride]
  exact
    { sends := hsends
      stop := fun henabled hstops => stop_of_sends (hsends henabled) hstops
      remerge := hremerge
      effective := fun hconversation hoverride =>
        sends_stream (heffective hconversation hoverride) hcall }

end

/-- What the cascade of parameters owes its levels, on every path. -/
structure ParameterCascade (env : AiGateway.Env) (secrets : Secrets) (models : Table AiModel)
    (assignments : Table EvaluationAiModel) (evaluations : Table Evaluation) : Prop where
  reply : ∀ (conversation : Conversation) (assignment : EvaluationAiModel) (row : AiModel)
    (override : Option JsonObject) (history : List ChatMessage) (tagBlock : Option String)
    (target : DispatchTarget) (kwargs : Acompletion),
    assignments.find? conversation.evaluationAiModelId = some assignment →
    models.find? assignment.modelId = some row →
    resolveModel models row.modelAlias = .ok row →
    Distinct (replyLevels row assignment conversation override) →
    resolveDispatchTarget models assignments evaluations conversation = .ok target →
    dispatchReply env secrets models target override history tagBlock = .ok kwargs →
      ReplySends row assignment conversation override history tagBlock
        (replyParams target.params override) kwargs
  chat : ∀ (row : AiModel) (messages : List ChatMessage) (params : Option JsonObject)
    (systemSuffix : Option String) (call : ProviderCall),
    resolveModel models row.modelAlias = .ok row →
    Distinct [row.parameters, params.getD []] →
    row.advancedParamsDisabled = false →
    dispatchChat env secrets models row.modelAlias messages params systemSuffix = .ok call →
      Sends row false (mostSpecific [row.parameters, params.getD []]) messages systemSuffix
        (providerChat call)
  stream : ∀ (row : AiModel) (messages : List ChatMessage) (params : Option JsonObject)
    (systemSuffix : Option String) (call : ProviderCall),
    resolveModel models row.modelAlias = .ok row →
    Distinct [row.parameters, params.getD []] →
    row.advancedParamsDisabled = false →
    dispatchStream env secrets models row.modelAlias messages params systemSuffix = .ok call →
      Sends row true (mostSpecific [row.parameters, params.getD []]) messages systemSuffix
        (providerStream call)
  disabled : ∀ (d : Dispatch) (row : AiModel) (call : ProviderCall),
    d.row models = .ok row → row.advancedParamsDisabled = true →
    d.call env secrets models = .ok call →
      call.params = d.ownedParams row ∧ call.messages = d.ownMessages

/-- The most specific level wins, from the tables to the library. -/
theorem parameter_cascade (env : AiGateway.Env) (secrets : Secrets) (models : Table AiModel)
    (assignments : Table EvaluationAiModel) (evaluations : Table Evaluation) :
    ParameterCascade env secrets models assignments evaluations where
  reply _ _ _ _ _ _ _ _ hassignment hmodel hresolve hdict htarget hsent :=
    replySends hassignment hmodel hresolve hdict htarget hsent
  chat row _ params _ _ hresolve hdict henabled hcall := by
    rw [dispatchChat, hresolve] at hcall
    exact sends_chat (lookup_mergedParams henabled hdict) hcall
  stream row _ params _ _ hresolve hdict henabled hcall := by
    rw [dispatchStream, hresolve] at hcall
    exact sends_stream (lookup_mergedParams henabled hdict) hcall
  disabled _ _ _ hrow hdisabled hcall := Dispatch.call_of_disabled hrow hdisabled hcall

/-! ### A conversation with a model that stores web tools -/

/-- The assignment of the model that stores search options. -/
def rawAssignment : EvaluationAiModel where
  id := 32
  createdAt := 0
  modelId := 20
  evaluationId := 31
  parameters := [("temperature", .num 1)]

/-- A conversation without parameters of its own. -/
def rawConversation : Conversation where
  id := 40
  createdAt := 0
  userId := 1
  evaluationId := 31
  evaluationAiModelId := 32
  conversationGroupId := 41
  scenarioId := 42

/-- The registry with the model. -/
def rawModels : Table AiModel := ⟨[rawParamsModel], List.nodup_singleton _⟩

/-- What its conversation is dispatched with. -/
def rawTarget : DispatchTarget where
  modelAlias := "raw-params"
  params := [("temperature", .num 1), ("web_search_options", .obj [])]
  mask := false

/-- No keys. -/
def noSecrets : Secrets := ⟨fun _ => none, fun _ => none⟩

/-- What its reply sends: the temperature of the assignment, and no web tools. -/
def rawKwargs : Acompletion where
  model := "anthropic/claude-sonnet-4-5"
  messages := []
  apiKey := none
  apiBase := none
  stream := true
  params := [("temperature", .num 1)]

theorem distinct_rawLevels :
    Distinct (replyLevels rawParamsModel rawAssignment rawConversation none) := by
  intro level hlevel
  simp only [replyLevels, List.mem_cons, List.not_mem_nil, or_false] at hlevel
  rcases hlevel with rfl | rfl | rfl | rfl <;> decide

/-- The evaluation of the assignment. -/
def rawEvaluations : Table Evaluation where
  rows := [{ id := 31, createdAt := 0, title := "Round", maskModelsEnabled := false,
             createdById := 1
             evaluationGroupId := 30 }]
  nodup := List.nodup_singleton _

/-- The assignments. -/
def rawAssignments : Table EvaluationAiModel := ⟨[rawAssignment], List.nodup_singleton _⟩

/-- The reply of the conversation sends the values of its levels. -/
theorem parameter_cascade_raw :
    ReplySends rawParamsModel rawAssignment rawConversation none [] none
      (replyParams rawTarget.params none) rawKwargs :=
  (parameter_cascade bareEnv noSecrets rawModels rawAssignments rawEvaluations).reply
    rawConversation rawAssignment rawParamsModel none [] none rawTarget rawKwargs
    rfl rfl rfl distinct_rawLevels rfl rfl

/-- What a reply without parameters of its own sends is not always what the view of the assignment
shows, up to renames and the names of the adapter. The view shows the stored web tools of a row
whose switch is off. -/
theorem effective_parameters_show_web_tools :
    ¬ ∀ (env : AiGateway.Env) (secrets : Secrets) (models : Table AiModel)
      (assignments : Table EvaluationAiModel) (evaluations : Table Evaluation)
      (conversation : Conversation) (assignment : EvaluationAiModel) (row : AiModel)
      (history : List ChatMessage) (target : DispatchTarget) (kwargs : Acompletion),
      assignments.find? conversation.evaluationAiModelId = some assignment →
      models.find? assignment.modelId = some row →
      resolveModel models row.modelAlias = .ok row →
      Distinct (replyLevels row assignment conversation none) →
      conversation.parameters = [] →
      resolveDispatchTarget models assignments evaluations conversation = .ok target →
      dispatchReply env secrets models target none history none = .ok kwargs →
      ∀ k, k ∉ reservedParams → k ≠ "system_prompt" → k ≠ "stop_sequences" → k ≠ "stop" →
        k ≠ "stream_options" → kwargs.params.lookup k =
          (EvaluationAiModelView.fromAssignment false assignment row).effectiveParameters.lookup
          k := by
  intro h
  have hsame :=
    h bareEnv noSecrets rawModels rawAssignments rawEvaluations rawConversation rawAssignment
    rawParamsModel [] rawTarget rawKwargs rfl rfl rfl distinct_rawLevels rfl rfl rfl
    "web_search_options" (by decide) (by decide) (by decide) (by decide) (by decide)
  cases hsame

end RedTeaming.Conversations
