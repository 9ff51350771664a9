import RedTeaming.AiGateway.WebAccess

/-!
# `RedTeaming.AiGateway.SentParams`: what a call sends of its parameters

`sentParam` says what the provider gets of a parameter, given its value in the cascade: the prompt
and `stop_sequences` go elsewhere, the adapter keeps some names for itself, the web tools follow
the switch, and the rest is sent as it is. `lookup_sent` says so of every chat and stream.

The stop list has two names. `mostSpecificStop` is the list of the most specific level under
either. The call sends `stop` of any level before `stop_sequences` of any other, so the two agree
under `StopsAgree`.

A row that opts out of the cascade sends what the gateway owns (`call_of_disabled`).
-/

set_option autoImplicit false

namespace RedTeaming.AiGateway

open RedTeaming.Library

/-! ### Fields -/

/-- The usage option that the adapter sets for a stream. -/
def usageOption (row : AiModel) (stream : Bool) (k : String) : Option Json :=
  if stream && usageInStream row.provider && k == "stream_options" then
    some (.obj [("include_usage", .bool true)])
  else none

/-- The web tools that the switch adds. -/
def webOption (row : AiModel) (k : String) : Option Json :=
  if row.webAccess then (webTools row.provider).lookup k else none

/-- What the provider gets under the name `k`, where `value` is the value of each knob in the
cascade. -/
def sentParam (row : AiModel) (stream : Bool) (value : String → Option Json)
    (k : String) : Option Json :=
  if reservedParams.contains k || k == "system_prompt" || k == "stop_sequences" then none
  else if webToolKeys.contains k && !row.webAccess then none
  else if k = "stop" then (value "stop").or (notNull (value "stop_sequences"))
  else ((webOption row k).or (value k)).or (usageOption row stream k)

/-- A parameter that is neither renamed, nor kept by the adapter, nor owned by the gateway. -/
def Plain (k : String) : Prop :=
  k ∉ reservedParams ∧ k ∉ webToolKeys ∧
    k ≠ "system_prompt" ∧ k ≠ "stop_sequences" ∧ k ≠ "stop" ∧ k ≠ "stream_options"

/-- The prompt and the suffix, without the empty ones. -/
def joinedText (prompt systemSuffix : Option String) : String :=
  "\n\n".intercalate ((prompt.toList ++ systemSuffix.toList).filter fun s => !s.isEmpty)

/-- What the gateway owns of the parameters of a call. -/
def Dispatch.ownedParams (row : AiModel) : Dispatch → JsonObject
  | .chat .. | .stream .. => if row.webAccess then webTools row.provider else []
  | .warmup _ | .health _ | .imageProbe _ => [("max_tokens", .num 1)]

/-- The messages of a call without a prompt. -/
def Dispatch.ownMessages : Dispatch → List ChatMessage
  | .chat _ messages _ systemSuffix | .stream _ messages _ systemSuffix =>
    withSystem (joinedText none systemSuffix) messages
  | .warmup _ | .health _ => [probeMessage]
  | .imageProbe _ => [probeImageMessage]

section
variable {env : Env} {secrets : Secrets} {row : AiModel} {messages : List ChatMessage}
  {params : Option JsonObject} {systemSuffix : Option String} {call : ProviderCall}

/-! ### The parameters of a chat -/

/-- The switch adds nothing but web tools. -/
theorem webOption_of_notMem {k : String} (hk : k ∉ webToolKeys) : webOption row k = none := by
  simp only [webToolKeys, List.mem_cons, List.not_mem_nil, or_false, not_or] at hk
  unfold webOption webTools
  split
  · split <;> simp [hk]
  · rfl

/-- A plain parameter is sent as it is. -/
theorem sentParam_plain {k : String} (hk : Plain k) (stream : Bool)
    (value : String → Option Json) :
    sentParam row stream value k = value k := by
  obtain ⟨hreserved, hweb, hprompt, hstops, hstop, husage⟩ := hk
  simp [sentParam, usageOption, hreserved, hweb, hprompt, hstops, hstop, husage,
    webOption_of_notMem hweb]

/-- The fields of the call of a chat. -/
theorem lookup_chatCall (hcall : chatCall env secrets row messages params systemSuffix = .ok call)
    (k : String) :
    call.params.lookup k =
      if webToolKeys.contains k && !row.webAccess then none
      else (webOption row k).or
        ((renameStop (dropField "system_prompt" (mergedParams row params))).lookup k) := by
  obtain ⟨built, web, hbuilt, hweb, rfl⟩ := chatCall_eq_ok.mp hcall
  obtain ⟨content, apiKey, -, -, -, rfl⟩ := buildCall_eq_ok.mp hbuilt
  rw [applyWebAccess_eq_ok] at hweb
  cases hswitch : row.webAccess with
  | true =>
    rw [hswitch] at hweb
    obtain ⟨-, rfl⟩ := hweb
    have hdict : ((webTools row.provider).map Prod.fst).Nodup := by
      unfold webTools
      split <;> decide
    show (mergeFields _ (webTools row.provider)).lookup k = _
    rw [lookup_mergeFields hdict]
    simp [webOption, hswitch]
  | false =>
    rw [hswitch] at hweb
    have hparams : web = keepFields (fun key => !webToolKeys.contains key)
        (renameStop (dropField "system_prompt" (mergedParams row params))) := hweb
    show web.lookup k = _
    rw [hparams, lookup_keepFields]
    cases hk : webToolKeys.contains k <;> simp [webOption, hswitch]

/-- What the adapter passes on of a call. -/
theorem lookup_adapter (call : ProviderCall) (k : String) :
    (safeParams call.params).lookup k =
      if reservedParams.contains k then none else call.params.lookup k := by
  rw [safeParams, lookup_keepFields]
  cases reservedParams.contains k <;> rfl

/-- What the call of a chat passes to the library. -/
theorem lookup_safeParams
    (hcall : chatCall env secrets row messages params systemSuffix = .ok call) (k : String) :
    (safeParams call.params).lookup k =
      sentParam row false (fun key => (mergedParams row params).lookup key) k := by
  have husage : usageOption row false k = none := rfl
  rw [lookup_adapter, lookup_chatCall hcall, lookup_renameStop, lookup_dropField,
    lookup_dropField, lookup_dropField, sentParam, husage, Option.or_none]
  by_cases hreserved : reservedParams.contains k = true
  · simp only [hreserved, if_true, Bool.true_or]
  · by_cases hprompt : k = "system_prompt"
    · have hnoweb : webOption row "system_prompt" = none := webOption_of_notMem (by decide)
      subst hprompt
      rw [hnoweb]
      rfl
    · by_cases hstops : k = "stop_sequences"
      · have hnoweb : webOption row "stop_sequences" = none := webOption_of_notMem (by decide)
        subst hstops
        rw [hnoweb]
        rfl
      · by_cases hstop : k = "stop"
        · have hnoweb : webOption row "stop" = none := webOption_of_notMem (by decide)
          subst hstop
          rw [hnoweb, Option.none_or]
          rfl
        · simp [hprompt, hstops, hstop]

/-- What a chat sends. -/
theorem lookup_providerChat
    (hcall : chatCall env secrets row messages params systemSuffix = .ok call) (k : String) :
    (providerChat call).params.lookup k =
      sentParam row false (fun key => (mergedParams row params).lookup key) k :=
  lookup_safeParams hcall k

/-- The vendor of a call is that of its row. -/
theorem vendor_chatCall
    (hcall : chatCall env secrets row messages params systemSuffix = .ok call) :
    call.vendor = row.provider := by
  obtain ⟨built, web, hbuilt, -, rfl⟩ := chatCall_eq_ok.mp hcall
  obtain ⟨content, apiKey, -, -, -, rfl⟩ := buildCall_eq_ok.mp hbuilt
  rfl

/-- What a stream sends. -/
theorem lookup_providerStream
    (hcall : chatCall env secrets row messages params systemSuffix = .ok call) (k : String) :
    (providerStream call).params.lookup k =
      sentParam row true (fun key => (mergedParams row params).lookup key) k := by
  have hsent := lookup_safeParams hcall k
  have hvendor := vendor_chatCall hcall
  by_cases husage : usageInStream row.provider = true ∧ k = "stream_options"
  · obtain ⟨husage, rfl⟩ := husage
    have hnoweb : webOption row "stream_options" = none := webOption_of_notMem (by decide)
    have hstream : (providerStream call).params =
        setDefault "stream_options" (.obj [("include_usage", .bool true)])
          (safeParams call.params) := by
      unfold providerStream
      rw [hvendor, if_pos husage]
      rfl
    rw [hstream, lookup_setDefault, if_pos rfl, hsent]
    simp only [sentParam, usageOption, husage, hnoweb]
    cases (mergedParams row params).lookup "stream_options" <;> rfl
  · have hsame : (providerStream call).params.lookup k = (safeParams call.params).lookup k := by
      unfold providerStream
      rw [hvendor]
      split
      · rename_i hvendor
        have hk : k ≠ "stream_options" := fun hk => husage ⟨hvendor, hk⟩
        show (setDefault _ _ (safeParams call.params)).lookup k = _
        rw [lookup_setDefault, if_neg hk]
      · rfl
    have hnone : usageOption row true k = usageOption row false k := by
      simp only [usageOption, Bool.true_and, Bool.false_and, Bool.false_eq_true, if_false,
        Bool.and_eq_true, beq_iff_eq, if_neg husage]
    rw [hsame, hsent, sentParam, sentParam, hnone]

/-! ### The stop list -/

/-- The stop list of the most specific level that sets one, under either name. -/
def mostSpecificStop : List JsonObject → Option Json
  | [] => none
  | level :: levels =>
    (mostSpecificStop levels).or ((level.lookup "stop").or (level.lookup "stop_sequences"))

/-- No level names its stop list `stop`, or the most specific level with a stop list does. No
level stores `null`. -/
def StopsAgree (levels : List JsonObject) : Prop :=
  (∀ level ∈ levels, level.lookup "stop" = none ∧ level.lookup "stop_sequences" ≠ some .null) ∨
    ∃ before level after, levels = before ++ level :: after ∧
      (level.lookup "stop").isSome = true ∧
      ∀ l ∈ after, l.lookup "stop" = none ∧ l.lookup "stop_sequences" = none

/-- The levels of a second list are more specific. -/
theorem mostSpecificStop_append (levels levels' : List JsonObject) :
    mostSpecificStop (levels ++ levels') =
      (mostSpecificStop levels').or (mostSpecificStop levels) := by
  induction levels with
  | nil => simp [mostSpecificStop]
  | cons level levels ih =>
    rw [List.cons_append, mostSpecificStop, mostSpecificStop, ih, Option.or_assoc]

/-- Without `stop`, the stop lists are those of `stop_sequences`. -/
theorem mostSpecificStop_of_none {levels : List JsonObject}
    (h : ∀ level ∈ levels, level.lookup "stop" = none) :
    mostSpecificStop levels = mostSpecific levels "stop_sequences" := by
  induction levels with
  | nil => rfl
  | cons level levels ih =>
    have hrest := ih fun l hl => h l (List.mem_cons_of_mem _ hl)
    rw [mostSpecificStop, mostSpecific, hrest, h level List.mem_cons_self, Option.none_or]

/-- What is not `null` stays. -/
theorem notNull_of_ne {o : Option Json} (h : o ≠ some .null) : notNull o = o := by
  unfold notNull
  split
  · rfl
  · exact absurd rfl h
  · rfl

/-- A value of the cascade is one of a level. -/
theorem exists_of_mostSpecific {levels : List JsonObject} {k : String} {v : Json}
    (h : mostSpecific levels k = some v) : ∃ level ∈ levels, level.lookup k = some v := by
  induction levels with
  | nil => cases h
  | cons level levels ih =>
    rw [mostSpecific, Option.or_eq_some_iff] at h
    rcases h with hrest | ⟨-, hlevel⟩
    · obtain ⟨l, hl, hv⟩ := ih hrest
      exact ⟨l, List.mem_cons_of_mem _ hl, hv⟩
    · exact ⟨level, List.mem_cons_self, hlevel⟩

/-- Where the stops agree, the call sends the stop list of the most specific level. -/
theorem stop_of_stopsAgree {levels : List JsonObject} (h : StopsAgree levels) :
    (mostSpecific levels "stop").or (notNull (mostSpecific levels "stop_sequences")) =
      mostSpecificStop levels := by
  rcases h with hnone | ⟨before, level, after, rfl, hset, hafter⟩
  · have hnostop : mostSpecific levels "stop" = none :=
      mostSpecific_eq_none fun l hl => (hnone l hl).1
    have hnonull : mostSpecific levels "stop_sequences" ≠ some .null := by
      intro hnull
      obtain ⟨l, hl, hv⟩ := exists_of_mostSpecific hnull
      exact (hnone l hl).2 hv
    rw [hnostop, Option.none_or, notNull_of_ne hnonull,
      mostSpecificStop_of_none fun l hl => (hnone l hl).1]
  · obtain ⟨stop, hstop⟩ := Option.isSome_iff_exists.mp hset
    have hstops : mostSpecificStop after = none := by
      rw [mostSpecificStop_of_none fun l hl => (hafter l hl).1]
      exact mostSpecific_eq_none fun l hl => (hafter l hl).2
    have hafterStop : mostSpecific after "stop" = none :=
      mostSpecific_eq_none fun l hl => (hafter l hl).1
    rw [mostSpecific_append, mostSpecificStop_append, mostSpecific, mostSpecificStop, hafterStop,
      hstops, hstop]
    rfl

/-! ### The system message -/

/-- A prompt that is a text is joined with the suffix. -/
theorem systemContent_text (prompt systemSuffix : Option String) :
    systemContent (prompt.map .str) systemSuffix = .ok (joinedText prompt systemSuffix) := by
  have hpart : ∀ part : Option String,
      (part.map Json.str).toList.filter truthy =
        (part.toList.filter fun s => !s.isEmpty).map .str := by
    intro part
    cases part with
    | none => rfl
    | some s =>
      show [Json.str s].filter truthy = ([s].filter fun s => !s.isEmpty).map .str
      cases hs : s.isEmpty <;> simp [truthy, hs]
  have htexts : ∀ texts : List String, (texts.map Json.str).mapM joined = .ok texts := by
    intro texts
    induction texts with
    | nil => rfl
    | cons s texts ih =>
      rw [List.map_cons, List.mapM_cons]
      show (List.mapM joined (texts.map Json.str)) >>= (fun rest => pure (s :: rest)) = _
      rw [ih]
      rfl
  unfold systemContent joinedText
  dsimp only
  rw [List.filter_append, hpart, hpart, ← List.map_append, ← List.filter_append, htexts]
  rfl

/-- The messages of a call whose prompt is a text. -/
theorem messages_buildCall {prompt : Option String}
    (hcall : buildCall env secrets row messages params systemSuffix = .ok call)
    (hprompt : (mergedParams row params).lookup "system_prompt" = prompt.map .str) :
    call.messages = withSystem (joinedText prompt systemSuffix) messages := by
  obtain ⟨content, apiKey, -, hcontent, -, rfl⟩ := buildCall_eq_ok.mp hcall
  rw [hprompt, systemContent_text] at hcontent
  cases hcontent
  rfl

/-- The messages of a chat are those of the built call. -/
theorem messages_chatCall {prompt : Option String}
    (hcall : chatCall env secrets row messages params systemSuffix = .ok call)
    (hprompt : (mergedParams row params).lookup "system_prompt" = prompt.map .str) :
    call.messages = withSystem (joinedText prompt systemSuffix) messages := by
  obtain ⟨built, web, hbuilt, -, rfl⟩ := chatCall_eq_ok.mp hcall
  have hmessages : built.messages = withSystem (joinedText prompt systemSuffix) messages :=
    messages_buildCall hbuilt hprompt
  exact hmessages

/-! ### A row that opts out -/

/-- A row that opts out has no parameters. -/
theorem mergedParams_of_disabled (params : Option JsonObject)
    (hdisabled : row.advancedParamsDisabled = true) :
    mergedParams row params = [] := by
  rw [mergedParams, if_pos hdisabled]

/-- A chat of a row that opts out sends what the gateway owns, and the suffix. -/
theorem chatCall_of_disabled (hdisabled : row.advancedParamsDisabled = true)
    (hcall : chatCall env secrets row messages params systemSuffix = .ok call) :
    call.params = (if row.webAccess then webTools row.provider else []) ∧
      call.messages = withSystem (joinedText none systemSuffix) messages := by
  have hmerged := mergedParams_of_disabled params hdisabled
  have hmessages : call.messages = withSystem (joinedText none systemSuffix) messages :=
    messages_chatCall hcall (by rw [hmerged]; rfl)
  obtain ⟨built, web, hbuilt, hweb, rfl⟩ := chatCall_eq_ok.mp hcall
  obtain ⟨content, apiKey, -, -, -, rfl⟩ := buildCall_eq_ok.mp hbuilt
  rw [applyWebAccess_eq_ok, hmerged] at hweb
  refine ⟨?_, hmessages⟩
  cases hswitch : row.webAccess with
  | true =>
    rw [hswitch] at hweb
    obtain ⟨-, rfl⟩ := hweb
    show mergeFields [] (webTools row.provider) = webTools row.provider
    unfold webTools
    split <;> rfl
  | false =>
    rw [hswitch] at hweb
    exact hweb

/-- A probe of a row that opts out sends the cap. -/
theorem probeCall_of_disabled {message : ChatMessage}
    (hdisabled : row.advancedParamsDisabled = true)
    (hcall : probeCall env secrets row message = .ok call) :
    call.params = [("max_tokens", .num 1)] ∧ call.messages = [message] := by
  obtain ⟨built, hbuilt, rfl⟩ := probeCall_eq_ok.mp hcall
  have hmerged := mergedParams_of_disabled none hdisabled
  have hmessages : built.messages = withSystem (joinedText none none) [message] :=
    messages_buildCall hbuilt (by rw [hmerged]; rfl)
  obtain ⟨content, apiKey, -, -, -, rfl⟩ := buildCall_eq_ok.mp hbuilt
  refine ⟨?_, hmessages⟩
  show setField _ _ (renameStop (dropField "system_prompt" (mergedParams row none))) = _
  rw [hmerged]
  rfl

/-- On every path, a row that opts out sends what the gateway owns, and the suffix. -/
theorem Dispatch.call_of_disabled {models : Table AiModel} {d : Dispatch}
    (hrow : d.row models = .ok row) (hdisabled : row.advancedParamsDisabled = true)
    (hcall : d.call env secrets models = .ok call) :
    call.params = d.ownedParams row ∧ call.messages = d.ownMessages := by
  cases d with
  | chat modelAlias messages params systemSuffix =>
    obtain ⟨model, hmodel, hcall⟩ := bind_eq_ok.mp hcall
    cases hmodel.symm.trans hrow
    exact chatCall_of_disabled hdisabled hcall
  | stream modelAlias messages params systemSuffix =>
    obtain ⟨model, hmodel, hcall⟩ := bind_eq_ok.mp hcall
    cases hmodel.symm.trans hrow
    exact chatCall_of_disabled hdisabled hcall
  | warmup modelAlias =>
    obtain ⟨model, hmodel, hcall⟩ := bind_eq_ok.mp hcall
    cases hmodel.symm.trans hrow
    exact probeCall_of_disabled hdisabled hcall
  | health model =>
    cases hrow
    exact probeCall_of_disabled hdisabled hcall
  | imageProbe model =>
    cases hrow
    exact probeCall_of_disabled hdisabled hcall

end

end RedTeaming.AiGateway
