import RedTeaming.AiGateway.Dispatch
import RedTeaming.Conversations.Generation
import RedTeaming.Conversations.LiveMessages
import RedTeaming.Conversations.Settlement

/-!
# `RedTeaming.Conversations.Replay`: a repeated send gets the stored reply

A send whose `client_message_id` is taken does not call a model. It reads the live messages of its
turn, opens the stored reply, and streams the reply again: one `delta` with the whole text, and a
last event that `_replay_events` rebuilds from the status and the `extra` of the row.

An original ends in three ways. Its last event is `done`, or `error`, or it is cut off and has no
last event of its own. A replay always has a last event, so it tells a reply that was cut off by
the `finish_reason` of its `done`. `Ending` is what the two have in common.

`Original` is what became of the request that opened the reply. Two exceptions of
`dispatch_stream` pass the `except` clauses of `_stream_into`: the `NotFoundError` of a model that
is gone or disabled, and a `TypeError`. The client gets an error, and the placeholder is left to
the reaper.

The main result is `replay_matches_iff`, for every run and every reply of it that is live and has
ended: the replay matches the original exactly when the reaper has not ended the reply, or the
original was cut off.
-/

set_option autoImplicit false

namespace RedTeaming.Conversations

open RedTeaming.Library

/-! ### The replay -/

/-- `MessageStatus.value`. -/
def MessageStatus.value : MessageStatus → String
  | .streaming => "streaming"
  | .complete => "complete"
  | .interrupted => "interrupted"
  | .error => "error"

/-- The reply among the messages of a turn. -/
def firstReply (messages : List Message) : Option Message :=
  messages.find? fun m => m.role == .assistant

/-- The `error` event of a stored error. -/
def replayError (seq : Nat) (extra : JsonObject) : Option Event :=
  match (extra.lookup "error").getD (.obj []) with
  | .obj stored => some {
      name := .error
      id := seq
      data := [("type", .str "about:blank"),
        ("title", (stored.lookup "title").getD (.str HttpStatus.badGateway.phrase)),
        ("status", (stored.lookup "status").getD (.num HttpStatus.badGateway.code)),
        ("detail", .str maskedErrorDetail),
        ("retryable", (stored.lookup "retryable").getD (.bool true))] }
  | _ => none

/-- The `finish_reason` of a replay. -/
def finishReason (status : MessageStatus) : String :=
  if status = .complete then "replayed" else status.value

/-- The last event for a reply. -/
def replayLast (seq : Nat) (reply : Message) : Option Event :=
  match reply.status with
  | .error => replayError seq reply.extra
  | status => some (streamDone seq (some (finishReason status)) none)

/-- The events for a reply with the text `content`. -/
def replayReply (reply : Message) (content : String) : List Event :=
  let shown := if reply.content.isEmpty then [] else [streamDelta 1 content]
  shown ++ (replayLast (shown.length + 1) reply).toList

/-- `_replay_events`. -/
def replayEvents (messages : List Message) (content : String) : List Event :=
  match firstReply messages with
  | none => [streamDone 1 (some "replayed") none]
  | some reply => replayReply reply content

/-- The text of the stored reply, for the replay. -/
def storedText (env : Env) (reply : Option Message) : Except CryptoError String :=
  match reply with
  | none => .ok ""
  | some m => if m.content.isEmpty then .ok "" else env.text m

/-- The replay branch of `send_message`. -/
def replayTurn {κ : Type} [LinearOrder κ] (env : Env) (collate : String ↪ κ) (store : Store)
    (turn : TurnId) : Except CryptoError (List Event) := do
  let messages := store.liveTurnMessages collate turn
  let content ← storedText env (firstReply messages)
  return replayEvents messages content

/-! ### A failure before the stream -/

/-- What a response says of a failure. -/
structure Problem where
  status : Nat
  title : String
deriving DecidableEq

/-- What ends `_stream_into` before the stream, with the placeholder settled: the assignment or
the evaluation is gone, the history cannot be opened, or the model cannot take the call. What
passes the `except` clauses is an `Original.escaped`. -/
inductive PreStreamFailure
  | missing
  | undecryptable
  | badRequest
  | auth
deriving DecidableEq

/-- The problem that is stored, and whether a retry may help. -/
def PreStreamFailure.stored : PreStreamFailure → Problem × Bool
  | .missing => (⟨404, "Not Found"⟩, false)
  | .undecryptable => (⟨500, "Internal Server Error"⟩, false)
  | .badRequest => ofProvider .badRequest
  | .auth => ofProvider .auth
where
  /-- What `provider_error_to_status` makes of a provider's failure. -/
  ofProvider (kind : ProviderErrorKind) : Problem × Bool :=
    let (status, retryable) := providerErrorToStatus kind
    (⟨status.code, status.phrase⟩, retryable)

/-- The exception for a failed provider call: `BadRequestError` below 500, `BadGatewayError` from
there. -/
def providerProblem (code : Nat) : Problem :=
  if code < 500 then ⟨400, "Bad Request"⟩ else ⟨502, "Bad Gateway"⟩

/-- The response to the request that failed. -/
def PreStreamFailure.response : PreStreamFailure → Problem
  | .missing => ⟨404, "Not Found"⟩
  | .undecryptable => ⟨500, "Internal Server Error"⟩
  | .badRequest => providerProblem (providerErrorToStatus .badRequest).1.code
  | .auth => providerProblem (providerErrorToStatus .auth).1.code

/-- The `extra` that is stored. -/
def PreStreamFailure.extra (failure : PreStreamFailure) : JsonObject :=
  let (problem, retryable) := failure.stored
  [("error", .obj [("status", .num problem.status), ("title", .str problem.title),
    ("retryable", .bool retryable)])]

/-- `_settle_streaming_error`. -/
def settleStreamingError (store : Store) (placeholder : MessageId) (failure : PreStreamFailure) :
    Store :=
  (finalizeMessage store placeholder "" false ⟨.error, MessageStatus.noConfusion⟩
    (some failure.extra)).1

/-! ### Endings -/

/-- How a stream of events ends: with success, with an error, cut off, or with a reply that still
streams. -/
inductive Ending
  | finished
  | failed (status title retryable : Option Json)
  | cut
  | pending

/-- The ending that an `error` event tells. -/
def failedBy (data : JsonObject) : Ending :=
  .failed (data.lookup "status") (data.lookup "title") (data.lookup "retryable")

/-- The ending of an original. Without a last event of its own, it was cut off. -/
def originalEnding (events : List Event) : Ending :=
  match events.getLast? with
  | some ⟨.done, _, _⟩ => .finished
  | some ⟨.error, _, data⟩ => failedBy data
  | _ => .cut

/-- The ending that a `finish_reason` of a replay tells. -/
def endingOfReason (reason : String) : Ending :=
  if reason = MessageStatus.interrupted.value then .cut
  else if reason = MessageStatus.streaming.value then .pending
  else .finished

/-- The ending of a replay, or `none` where there is no last event. -/
def replayEnding (events : List Event) : Option Ending :=
  match events.getLast? with
  | some ⟨.done, _, data⟩ =>
    match data.lookup "finish_reason" with
    | some (.str reason) => some (endingOfReason reason)
    | _ => some .finished
  | some ⟨.error, _, data⟩ => some (failedBy data)
  | _ => none

/-! ### The original -/

/-- What became of the request that opened a reply: its stream has started, it failed and its
placeholder was settled, or an exception has passed both `try` blocks of `_stream_into`. A process
that dies is a stream that raises, or a consumer that closes, whose finalize does not commit. -/
inductive Original
  | streamed (nonce : Nonce) (gen : Generation) (closeAt : Option Nat)
  | refused (failure : PreStreamFailure)
  | escaped (problem : Problem)

namespace Original

/-- What `_stream_into` makes of an exception of `dispatch_stream`: the `ProviderError`s settle
the placeholder, the others pass. -/
def ofDispatch : AiGateway.DispatchError → Original
  | .badRequest _ => .refused .badRequest
  | .auth _ => .refused .auth
  | .notFound _ => .escaped ⟨404, "Not Found"⟩
  | .typeError _ => .escaped ⟨500, "Internal Server Error"⟩

/-- The finalize that the request begins, if it begins one. -/
def finalize (env : Env) (placeholder : MessageId) : Original → Option Request
  | .streamed nonce gen closeAt =>
    let g := (gen.loop closeAt).1
    match sealContent env.primitives env.settings nonce (String.join g.buffer)
      gen.isProtected with
    | .error _ => none
    | .ok (stored, encrypted) =>
      some (.finalize gen.placeholder stored encrypted g.status (some (gen.stamp g.extra)))
  | .refused failure => some (.finalize placeholder "" false ⟨.error, MessageStatus.noConfusion⟩
      (some failure.extra))
  | .escaped _ => none

/-- The text that the request stores. -/
def text : Original → String
  | .streamed _ gen closeAt => String.join (gen.loop closeAt).1.buffer
  | _ => ""

/-- The ending that the client of the request gets. -/
def ending : Original → Ending
  | .streamed _ gen closeAt => originalEnding (gen.loop closeAt).2
  | .refused failure =>
    .failed (some (.num failure.response.status)) (some (.str failure.response.title))
      (some (.bool failure.stored.2))
  | .escaped problem => .failed (some (.num problem.status)) (some (.str problem.title)) none

end Original

/-- The text of the events. -/
def eventText (events : List Event) : String := String.join (events.filterMap Event.content)

/-! ### What a replay says -/

section
variable {env : Env} {reply : Message} {content : String}

/-- A stored error is rebuilt to an `error` event, if at all. -/
theorem replayError_cases {seq : Nat} {extra : JsonObject} :
    replayError seq extra = none ∨ ∃ data, replayError seq extra = some ⟨.error, seq, data⟩ := by
  unfold replayError
  split
  · exact .inr ⟨_, rfl⟩
  · exact .inl rfl

/-- The last event has no text. -/
theorem content_replayLast {seq : Nat} {event : Event} (h : event ∈ replayLast seq reply) :
    event.content = none := by
  unfold replayLast at h
  split at h
  · rcases @replayError_cases seq reply.extra with hnone | ⟨data, hdata⟩
    · rw [hnone] at h
      cases h
    · rw [hdata] at h
      cases h
      rfl
  · cases h
    rfl

/-- The replay of a reply has its text. -/
theorem eventText_replayReply (h : reply.content.isEmpty = true → content = "") :
    eventText (replayReply reply content) = content := by
  have hlast : ∀ seq, (replayLast seq reply).toList.filterMap Event.content = [] := by
    intro seq
    rw [List.filterMap_eq_nil_iff]
    intro event hevent
    exact content_replayLast (Option.mem_toList.mp hevent)
  unfold eventText replayReply
  rw [List.filterMap_append, hlast, List.append_nil]
  split
  · rename_i hempty
    rw [h hempty]
    rfl
  · show String.join [content] = content
    rw [String.join_cons, String.join_nil, String.append_empty]

/-- The ending of a replay is that of its last event. -/
theorem replayEnding_replayReply {last : Nat → Event}
    (h : ∀ seq, replayLast seq reply = some (last seq))
    {ending : Ending} (hending : ∀ seq, replayEnding [last seq] = some ending) :
    replayEnding (replayReply reply content) = some ending := by
  unfold replayReply
  dsimp only
  rw [h, Option.toList_some, ← hending, replayEnding, List.getLast?_concat]
  rfl

/-- A reply without an error ends in a `done` that tells its status. -/
theorem replayEnding_of_not_error (h : reply.status ≠ .error) :
    replayEnding (replayReply reply content) =
      some (endingOfReason (finishReason reply.status)) := by
  apply @replayEnding_replayReply _ _ fun seq =>
    streamDone seq (some (finishReason reply.status)) none
  · intro seq
    unfold replayLast
    cases hstatus : reply.status with
    | error => exact absurd hstatus h
    | _ => rfl
  · exact fun _ => rfl

/-- A stored error ends in an `error` event with the stored fields. -/
theorem replayEnding_of_error (h : reply.status = .error) {status title retryable : Json}
    (hextra : reply.extra.lookup "error" =
      some (.obj [("status", status), ("title", title), ("retryable", retryable)])) :
    replayEnding (replayReply reply content) = some (.failed status title retryable) := by
  apply @replayEnding_replayReply _ _ fun seq =>
    ⟨.error, seq, [("type", .str "about:blank"), ("title", title), ("status", status),
      ("detail", .str maskedErrorDetail), ("retryable", retryable)]⟩
  · intro seq
    rw [replayLast, h]
    show replayError seq reply.extra = _
    rw [replayError, hextra]
    rfl
  · exact fun _ => rfl

/-- Only a complete reply is replayed as a success. -/
theorem complete_of_finished (h : replayEnding (replayReply reply content) = some .finished) :
    reply.status = .complete := by
  cases hstatus : reply.status with
  | complete => rfl
  | streaming =>
    rw [replayEnding_of_not_error (by rw [hstatus]; nofun), hstatus] at h
    cases h
  | interrupted =>
    rw [replayEnding_of_not_error (by rw [hstatus]; nofun), hstatus] at h
    cases h
  | error =>
    have hlast : ∀ seq, replayLast seq reply = replayError seq reply.extra := by
      intro seq
      rw [replayLast, hstatus]
    unfold replayReply at h
    dsimp only at h
    rw [hlast] at h
    rcases @replayError_cases ((if reply.content.isEmpty then [] else
      [streamDelta 1 content]).length + 1) reply.extra with hnone | ⟨data, hdata⟩
    · -- A stored error that is no object leaves the replay without a last event.
      rw [hnone, Option.toList_none, List.append_nil] at h
      split at h
      · cases h
      · cases h
    · rw [hdata, Option.toList_some, replayEnding, List.getLast?_concat] at h
      cases h

end

/-! ### The reply of a turn -/

section
variable {κ : Type} [LinearOrder κ] {env : Env} {collate : String ↪ κ}
  {store : Store} {m : Message}

/-- The live messages of a turn. -/
theorem mem_liveTurnMessages (h : StoreOk store) {turn : TurnId} :
    m ∈ store.liveTurnMessages collate turn ↔
      m ∈ store.messages ∧ m.turn = turn ∧ store.isSuperseded m.id = false := by
  rw [Store.liveTurnMessages, mem_orderBy, notSuperseded_messagesOf h, List.mem_filter,
    Store.messagesOf, List.mem_filter, beq_iff_eq, Bool.not_eq_true', and_assoc]

/-- The first reply among them is the live reply. -/
theorem firstReply_eq (h : StoreOk store) (hm : m ∈ store.messages) (hrole : m.role = .assistant)
    (hlive : store.isSuperseded m.id = false) :
    firstReply (store.liveTurnMessages collate m.turn) = some m := by
  have hmem : m ∈ store.liveTurnMessages collate m.turn :=
    (mem_liveTurnMessages h).mpr ⟨hm, rfl, hlive⟩
  cases hfound : firstReply (store.liveTurnMessages collate m.turn) with
  | none =>
    have hno := List.find?_eq_none.mp hfound m hmem
    exact absurd (beq_iff_eq.mpr hrole) hno
  | some other =>
    have hfind := List.find?_some hfound
    obtain ⟨hother, hturn, hotherLive⟩ :=
      (mem_liveTurnMessages h).mp (List.mem_of_find?_eq_some hfound)
    -- A turn has one live reply.
    obtain ⟨turn, hmemTurn, hid⟩ := h.message_turn m hm
    obtain ⟨reply, -, -, hunique, -⟩ := (h.linear hmemTurn).live
    have hotherReply : other ∈ store.replies turn.id :=
      mem_replies.mpr ⟨hother, hturn.trans hid.symm, beq_iff_eq.mp hfind⟩
    have hmReply : m ∈ store.replies turn.id := mem_replies.mpr ⟨hm, hid.symm, hrole⟩
    rw [hunique other hotherReply hotherLive, hunique m hmReply hlive]

/-- The replay of a turn is that of its live reply. -/
theorem replayTurn_eq (h : StoreOk store) (hm : m ∈ store.messages) (hrole : m.role = .assistant)
    (hlive : store.isSuperseded m.id = false) {text : String} (htext : env.text m = .ok text) :
    replayTurn env collate store m.turn = .ok (replayReply m text) ∧
      (m.content.isEmpty = true → text = "") := by
  have hempty : m.content.isEmpty = true → text = "" := by
    intro hempty
    have hcontent : m.content = "" := String.isEmpty_iff.mp hempty
    cases hflag : m.contentEncrypted with
    | false =>
      rw [Env.text, hflag, hcontent] at htext
      exact (Except.ok.inj htext).symm
    | true =>
      rw [Env.text, hflag] at htext
      exact absurd hcontent (ne_empty_of_unsealContent htext)
  refine ⟨?_, hempty⟩
  have hstored : storedText env (some m) = .ok text := by
    show (if m.content.isEmpty then Except.ok "" else env.text m) = _
    by_cases hblank : m.content.isEmpty = true
    · rw [if_pos hblank, hempty hblank]
    · rw [if_neg hblank, htext]
  unfold replayTurn
  dsimp only
  rw [firstReply_eq h hm hrole hlive, hstored]
  show Except.ok (replayEvents _ text) = _
  rw [replayEvents, firstReply_eq h hm hrole hlive]

end

/-! ### The originals -/

/-- The ending that a status and an `extra` stand for. -/
def StoredEnding (status : MessageStatus) (extra : JsonObject) (ending : Ending) : Prop :=
  match ending with
  | .finished => status = .complete
  | .failed (some code) (some title) (some retryable) => status = .error ∧ extra.lookup "error" =
      some (.obj [("status", code), ("title", title), ("retryable", retryable)])
  | .cut => status = .interrupted
  | _ => False

/-- A replay ends as the status and the `extra` of the row say. -/
theorem StoredEnding.replay {reply : Message} {content : String} {ending : Ending}
    (h : StoredEnding reply.status reply.extra ending) :
    replayEnding (replayReply reply content) = some ending := by
  unfold StoredEnding at h
  split at h
  · rw [replayEnding_of_not_error (by rw [h]; nofun), h]
    rfl
  · exact replayEnding_of_error h.1 h.2
  · rw [replayEnding_of_not_error (by rw [h]; nofun), h]
    rfl
  · exact h.elim

/-- The stamp leaves a stored error alone. -/
theorem lookup_error_stamp (gen : Generation) (extra : JsonObject) :
    (gen.stamp extra).lookup "error" = extra.lookup "error" := by
  have hcontext : "error" ≠ tagContextExtraKey := by decide
  have hpartial : "error" ≠ tagContextPartialExtraKey := by decide
  unfold Generation.stamp
  split
  · rfl
  · dsimp only
    split
    · exact lookup_setField_of_ne hcontext _ _
    · rw [lookup_setField_of_ne hpartial, lookup_setField_of_ne hcontext]

/-- The last of some deltas is a delta. -/
theorem originalEnding_deltas (seq : Nat) (texts : List String) :
    originalEnding (deltas seq texts) = .cut := by
  unfold originalEnding
  split
  · rename_i id data hlast
    cases name_of_mem_deltas (List.mem_of_getLast? hlast)
  · rename_i id data hlast
    cases name_of_mem_deltas (List.mem_of_getLast? hlast)
  · rfl

/-- What the loop gathers stands for the ending that the consumer saw. -/
theorem storedEnding_loop (gen : Generation) (closeAt : Option Nat) :
    StoredEnding (gen.loop closeAt).1.status (gen.stamp (gen.loop closeAt).1.extra)
      (originalEnding (gen.loop closeAt).2) := by
  by_cases hend : gen.ReachesEnd closeAt
  · rw [Generation.loop_end hend]
    cases hending : gen.ending with
    | exhausted =>
      have hlast : originalEnding (deltas 0 (gen.received closeAt) ++
          (StreamEnd.exhausted.shown gen.mask).events (SseState.chunks {} gen.chunks)) =
            .finished := by
        show originalEnding (_ ++ [_]) = _
        rw [originalEnding, List.getLast?_concat]
        rfl
      rw [hlast]
      rfl
    | providerError kind detail =>
      have hlast : originalEnding (deltas 0 (gen.received closeAt) ++
          ((StreamEnd.providerError kind detail).shown gen.mask).events
            (SseState.chunks {} gen.chunks)) =
          .failed (some (.num (providerErrorToStatus kind).1.code))
            (some (.str (providerErrorToStatus kind).1.phrase))
            (some (.bool (providerErrorToStatus kind).2)) := by
        show originalEnding (_ ++ [_]) = _
        rw [originalEnding, List.getLast?_concat]
        rfl
      rw [hlast]
      exact ⟨rfl, lookup_error_stamp gen _⟩
    | raised =>
      have hlast : originalEnding (deltas 0 (gen.received closeAt) ++
          (StreamEnd.raised.shown gen.mask).events (SseState.chunks {} gen.chunks)) = .cut := by
        show originalEnding (_ ++ []) = _
        rw [List.append_nil]
        exact originalEnding_deltas 0 _
      rw [hlast]
      rfl
  · rw [Generation.loop_closed hend, originalEnding_deltas]
    rfl

/-- The row that a finalize of a streaming placeholder leaves. -/
theorem finalized_row {store : Store} {id : MessageId} {m : Message} (h : StoreOk store)
    (hm : store.message? id = some m) (hstreaming : m.status = .streaming) (content : String)
    (encrypted : Bool) (status : TerminalStatus) (extra : JsonObject) :
    ∃ m', (finalizeMessage store id content encrypted status (some extra)).1.message?
      id = some m' ∧ m'.turn = m.turn ∧ m'.role = .assistant ∧ m'.content = content ∧
        m'.contentEncrypted = encrypted ∧ m'.status = status ∧ m'.extra = extra :=
  ⟨_, message?_write hm (beq_iff_eq.mpr hstreaming), rfl,
    (h.streaming m (message?_spec hm).1 hstreaming).role, rfl, rfl, rfl, rfl⟩

/-- The replay has the text that the reply is stored with, and the ending. -/
def ReplaysAs (env : Env) (reply : Message) (replay : Except CryptoError (List Event))
    (ending : Ending) : Prop :=
  ∃ events, replay = .ok events ∧ env.text reply = .ok (eventText events) ∧
    replayEnding events = some ending

section
variable {κ : Type} [LinearOrder κ] {collate : String ↪ κ} {env : Env} {store : Store}
  {reply : Message}

/-- The finalize of a request stores what `persist_stream`, or `_settle_streaming_error`,
stores. -/
theorem Original.finalize_stores {id : MessageId} {content : String} {encrypted : Bool}
    {status : TerminalStatus} {extra : Option JsonObject} {placeholder : MessageId}
    {original : Original}
    (h : original.finalize env placeholder = some (.finalize id content encrypted status extra)) :
    (∀ nonce gen closeAt, original = .streamed nonce gen closeAt →
      (persistStream env.primitives env.settings nonce store gen closeAt).2 =
        .ok (finalizeMessage store id content encrypted status extra).1) ∧
    ∀ failure, original = .refused failure →
      settleStreamingError store placeholder failure =
        (finalizeMessage store id content encrypted status extra).1 := by
  constructor
  · rintro nonce gen closeAt rfl
    simp only [Original.finalize] at h
    split at h
    · cases h
    · rename_i stored flag hseal
      cases h
      simp only [persistStream, hseal]
      rfl
  · rintro failure rfl
    cases h
    rfl

/-- A reply that its request has finalized has the text of the request, and the ending. -/
theorem Original.settles {original : Original} {request : Request} {placeholder : MessageId}
    (h : original.finalize env placeholder = some request)
    (hsettles : request.Settles env reply) :
    env.text reply = .ok original.text ∧
      StoredEnding reply.status reply.extra original.ending := by
  cases original with
  | streamed nonce gen closeAt =>
    simp only [Original.finalize] at h
    split at h
    · cases h
    · rename_i stored flag hseal
      cases h
      obtain ⟨-, hstatus, htext, hextra⟩ := hsettles
      refine ⟨htext.trans (unsealContent_sealContent hseal), ?_⟩
      rw [hstatus, hextra _ rfl]
      exact storedEnding_loop gen closeAt
  | refused failure =>
    cases h
    obtain ⟨-, hstatus, htext, hextra⟩ := hsettles
    refine ⟨htext, ?_⟩
    -- The response says what is stored, for each of the failures.
    have hresponse : failure.response = failure.stored.1 := by cases failure <;> rfl
    rw [hstatus, hextra _ rfl, Original.ending, hresponse]
    exact ⟨rfl, rfl⟩
  | escaped problem => cases h

/-- A row with a text, a status and an `extra` is replayed with them. -/
theorem replaysAs_of_stored (h : StoreOk store) (hreply : reply ∈ store.messages)
    (hrole : reply.role = .assistant) (hlive : store.isSuperseded reply.id = false)
    {text : String} (htext : env.text reply = .ok text) {ending : Ending}
    (hending : StoredEnding reply.status reply.extra ending) :
    ReplaysAs env reply (replayTurn env collate store reply.turn) ending := by
  obtain ⟨hreplay, hempty⟩ :=
    @replayTurn_eq κ _ env collate store reply h hreply hrole hlive text htext
  refine ⟨_, hreplay, ?_, hending.replay⟩
  rw [eventText_replayReply hempty, htext]

/-- The ending of a replay is that of its reply. -/
theorem ReplaysAs.ending_eq {ending ending' : Ending}
    (h : ReplaysAs env reply (replayTurn env collate store reply.turn) ending)
    (h' : ReplaysAs env reply (replayTurn env collate store reply.turn) ending') :
    ending = ending' := by
  obtain ⟨events, hreplay, -, hending⟩ := h
  obtain ⟨events', hreplay', -, hending'⟩ := h'
  rw [hreplay] at hreplay'
  cases hreplay'
  rw [hending] at hending'
  exact Option.some.inj hending'

/-- Only a complete reply is replayed as a success. -/
theorem complete_of_replayed (h : StoreOk store) (hreply : reply ∈ store.messages)
    (hrole : reply.role = .assistant) (hlive : store.isSuperseded reply.id = false)
    {events : List Event} (hreplay : replayTurn env collate store reply.turn = .ok events)
    (hfinished : replayEnding events = some .finished) : reply.status = .complete := by
  unfold replayTurn at hreplay
  dsimp only at hreplay
  rw [firstReply_eq h hreply hrole hlive] at hreplay
  cases hcontent : storedText env (some reply) with
  | error e =>
    rw [hcontent] at hreplay
    cases hreplay
  | ok content =>
    rw [hcontent] at hreplay
    cases hreplay
    rw [replayEvents, firstReply_eq h hreply hrole hlive] at hfinished
    exact complete_of_finished hfinished

end

section
variable {κ : Type} [LinearOrder κ] {env : Env} {s₀ s : State} {ls : List Label} {reply : Message}
  {original : Original}

/-- **A replay matches the original.** The reply has ended in the run, it is live, and the
finalizes of the run that are about it are that of its own request. Then its replay has the stored
text, and ends like the original, exactly when the reaper has not ended it, or the original was
cut off. Short of the reaper, the stored text is that of the request. Only a complete reply is
replayed as a success. -/
theorem replay_matches_iff (hstart : Start s₀) (hrun : run (step env) s₀ ls = some s)
    (hreply : reply ∈ s.store.messages) (hrole : reply.role = .assistant)
    (hended : reply.status ≠ .streaming) (hlive : s.store.isSuperseded reply.id = false)
    (hopened : ∀ m₀ ∈ s₀.store.messages, m₀.id = reply.id → m₀.status = .streaming)
    (hown : ∀ t request, .begin t request ∈ ls → request.finalizes = some reply.id →
      original.finalize env reply.id = some request) (collate : String ↪ κ) :
    (ReplaysAs env reply (replayTurn env collate s.store reply.turn) original.ending ↔
      ¬ Reaped env s₀ ls reply.id ∨ original.ending = .cut) ∧
    (¬ Reaped env s₀ ls reply.id → env.text reply = .ok original.text) ∧
    ∀ events, replayTurn env collate s.store reply.turn = .ok events →
      replayEnding events = some .finished → reply.status = .complete := by
  have hknown := settled_of_run hstart hrun
  have hok : StoreOk s.store := hknown.inv.store
  have hstored : ¬ Reaped env s₀ ls reply.id → env.text reply = .ok original.text ∧
      StoredEnding reply.status reply.extra original.ending := by
    intro hnot
    cases hknown.ended reply hreply hrole hended hlive with
    | before m₀ hm₀ hid hended₀ => exact absurd (hopened m₀ hm₀ hid) hended₀
    | reaped h => exact absurd h hnot
    | finalized t request hbegun hid hsettles =>
      exact Original.settles (hown t request hbegun hid) hsettles
  have hcut : Reaped env s₀ ls reply.id →
      ReplaysAs env reply (replayTurn env collate s.store reply.turn) .cut := by
    intro hreaped
    obtain ⟨hstatus, htext⟩ := interrupted_of_reaped hstart hrun hreply hreaped
    exact replaysAs_of_stored hok hreply hrole hlive htext hstatus
  refine ⟨⟨?_, ?_⟩, fun hnot => (hstored hnot).1, ?_⟩
  · intro hmatches
    by_cases hreaped : Reaped env s₀ ls reply.id
    · exact Or.inr (hmatches.ending_eq (hcut hreaped))
    · exact Or.inl hreaped
  · intro hwhen
    by_cases hreaped : Reaped env s₀ ls reply.id
    · rw [hwhen.resolve_left (not_not_intro hreaped)]
      exact hcut hreaped
    · obtain ⟨htext, hending⟩ := hstored hreaped
      exact replaysAs_of_stored hok hreply hrole hlive htext hending
  · exact fun events => complete_of_replayed hok hreply hrole hlive

end

/-- A send, up to its answer. -/
def sendOnce : List Label :=
  [.begin 0 (.send 1 5 9 "hi" (some 77) [] [] zeroNonce), .lock 0 true,
    .attach 0 [], .replay 0, .number 0, .insertTurn 0 100, .insertMessages 0 200 201,
    .insertImages 0, .allowTags 0 none, .commit 0]

/-- The end of the failing generation. -/
def failingFinalize : List Label :=
  [.begin 1 (.finalize 201 (String.join (failingGeneration.loop none).1.buffer) false
      (failingGeneration.loop none).1.status
      (some (failingGeneration.stamp (failingGeneration.loop none).1.extra))),
    .startJob 1, .update 1, .endJob 1, .commit 1]

/-- A reply whose provider failed after two pieces of text is replayed with them, and with its
error. -/
theorem replay_matches_iff_of_failing : ∃ s reply,
    run (step openEnv) emptyState (sendOnce ++ failingFinalize) = some s ∧
    s.store.message? 201 = some reply ∧ reply.status = .error ∧
    ReplaysAs openEnv reply
      (replayTurn openEnv (Function.Embedding.refl String) s.store reply.turn)
      (originalEnding (failingGeneration.loop none).2) := by
  have hany : (run (step openEnv) emptyState (sendOnce ++ failingFinalize)).any (fun s =>
      !s.store.isSuperseded 201 && (s.store.message? 201).any fun m =>
        m.role = .assistant && m.status = .error) = true := by decide +kernel
  obtain ⟨s, hrun, hs⟩ := exists_run_of_any hany
  rw [Bool.and_eq_true, Bool.not_eq_true', Option.any_eq_true] at hs
  obtain ⟨hlive, reply, hfound, hreply⟩ := hs
  rw [Bool.and_eq_true, decide_eq_true_iff, decide_eq_true_iff] at hreply
  obtain ⟨hrole, hstatus⟩ := hreply
  obtain ⟨hmem, hid⟩ := message?_spec hfound
  rw [← hid] at hlive
  have hown : ∀ t request, .begin t request ∈ sendOnce ++ failingFinalize →
      request.finalizes = some reply.id →
      (Original.streamed zeroNonce failingGeneration none).finalize openEnv reply.id =
        some request := by
    intro t request hbegun hfinalizes
    simp only [sendOnce, failingFinalize, List.cons_append, List.nil_append, List.mem_cons,
      Label.begin.injEq, reduceCtorEq, false_or, or_false, List.not_mem_nil] at hbegun
    rcases hbegun with ⟨-, rfl⟩ | ⟨-, rfl⟩
    · cases hfinalizes
    · rfl
  have hmatches := replay_matches_iff start_emptyState hrun hmem hrole
    (by rw [hstatus]; exact MessageStatus.noConfusion) hlive
      (fun _ h => absurd h List.not_mem_nil)
    hown (Function.Embedding.refl String)
  refine ⟨s, reply, hrun, hfound, hstatus, hmatches.1.mpr (Or.inl ?_)⟩
  intro hreaped
  rw [(interrupted_of_reaped start_emptyState hrun hmem hreaped).1] at hstatus
  cases hstatus

/-- The reaper, after a second. -/
def reapOnce : List Label :=
  [.tick, .begin 1 (.reap 1), .startJob 1, .update 1, .endJob 1, .commit 1]

/-- A model that was disabled between the send and its dispatch. -/
def disabledModel : AiGateway.AiModel where
  id := 1
  createdAt := 0
  name := "gpt"
  modelAlias := "gpt"
  provider := .openai
  providerModelId := "gpt"
  disabledAt := some 1

/-- A send to a disabled model is answered by a 404, stores nothing, and is replayed as a reply
that was cut off. -/
theorem replay_of_disabled_model : ∃ s reply,
    run (step openEnv) emptyState (sendOnce ++ reapOnce) = some s ∧
    s.store.message? 201 = some reply ∧ reply.role = .assistant ∧ reply.status = .interrupted ∧
    s.store.isSuperseded reply.id = false ∧
    (∀ t request, .begin t request ∈ sendOnce ++ reapOnce → request.finalizes ≠ some reply.id) ∧
    ∀ aiEnv secrets messages params suffix, ∃ e,
      AiGateway.dispatchStream aiEnv secrets (.single disabledModel) "gpt" messages
        params suffix = .error e ∧
      (Original.ofDispatch e).finalize openEnv reply.id = none ∧
      ¬ ReplaysAs openEnv reply
        (replayTurn openEnv (Function.Embedding.refl String) s.store reply.turn)
        (Original.ofDispatch e).ending := by
  have hany : (run (step openEnv) emptyState (sendOnce ++ reapOnce)).any (fun s =>
      !s.store.isSuperseded 201 && (s.store.message? 201).any fun m =>
        m.role = .assistant && m.status = .interrupted && m.content = "" &&
          !m.contentEncrypted) = true := by decide +kernel
  obtain ⟨s, hrun, hs⟩ := exists_run_of_any hany
  rw [Bool.and_eq_true, Bool.not_eq_true', Option.any_eq_true] at hs
  obtain ⟨hlive, reply, hfound, hreply⟩ := hs
  rw [Bool.and_eq_true, Bool.and_eq_true, Bool.and_eq_true, decide_eq_true_iff,
    decide_eq_true_iff, decide_eq_true_iff, Bool.not_eq_true'] at hreply
  obtain ⟨⟨⟨hrole, hstatus⟩, hcontent⟩, hplain⟩ := hreply
  obtain ⟨hmem, hid⟩ := message?_spec hfound
  rw [← hid] at hlive
  refine ⟨s, reply, hrun, hfound, hrole, hstatus, hlive, ?_, ?_⟩
  · intro t request hbegun hfinalizes
    simp only [sendOnce, reapOnce, List.cons_append, List.nil_append, List.mem_cons,
      Label.begin.injEq, reduceCtorEq, false_or, or_false, List.not_mem_nil] at hbegun
    rcases hbegun with ⟨-, rfl⟩ | ⟨-, rfl⟩
    · cases hfinalizes
    · cases hfinalizes
  · intro aiEnv secrets messages params suffix
    refine ⟨.notFound ("Model " ++ quoted "gpt" ++ " is not available."), rfl, rfl, ?_⟩
    intro hmatches
    have hok : StoreOk s.store :=
      (run_invariant (fun _ _ _ => Inv.step) start_emptyState.inv hrun).store
    have htext : openEnv.text reply = .ok "" := by
      rw [Env.text, hcontent, hplain]
      rfl
    have hcut : ReplaysAs openEnv reply
        (replayTurn openEnv (Function.Embedding.refl String) s.store reply.turn) .cut :=
      replaysAs_of_stored hok hmem hrole hlive htext hstatus
    cases hmatches.ending_eq hcut

end RedTeaming.Conversations
