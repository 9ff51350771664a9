import RedTeaming.Conversations.Messages

/-!
# `RedTeaming.Conversations.Streaming`: a reply as a stream of events

`core/conversations/streaming.py` and the pure part of `services/generation.py`. A provider sends
chunks until it ends or fails. `streamSse` makes events of them, with the ids 1, 2, …: a `delta`
for each piece of text, then `done`, or `error` after a `ProviderError`. Another exception passes
through without an event.

`persistStream` forwards the events to a consumer, and keeps the text, the status, and the `extra`
that the reply will be stored with. The consumer may close the generator at any event, so the run
is about a list of events and the number of the event at which the consumer closes.

The payload of an event is the JSON object that its `data` parses to. A Python exception is a
`none`.
-/

set_option autoImplicit false

namespace RedTeaming.Conversations

open RedTeaming.Library

/-! ### Chunks -/

/-- `Usage`. -/
structure Usage where
  promptTokens : Option Int := none
  completionTokens : Option Int := none
  totalTokens : Option Int := none
deriving DecidableEq

/-- A `ChunkChoice`: the text of its delta, and why generation stopped. -/
structure ChunkChoice where
  content : Option String := none
  finishReason : Option String := none
deriving DecidableEq

/-- A `ChatChunk`. -/
structure ChatChunk where
  choices : List ChunkChoice
  usage : Option Usage := none
deriving DecidableEq

/-- The class of a `ProviderError`. `plain` is the base class. -/
inductive ProviderErrorKind
  | plain
  | rateLimit
  | auth
  | timeout
  | badRequest
  | notFound
  | contextWindow
  | unavailable
deriving DecidableEq

/-- How a provider stream ends: it is exhausted, or a `ProviderError` or another exception comes
out of it. -/
inductive StreamEnd
  | exhausted
  | providerError (kind : ProviderErrorKind) (detail : String)
  | raised
deriving DecidableEq

/-! ### Events -/

/-- The `event` field. -/
inductive EventName
  | delta
  | done
  | error
deriving DecidableEq

/-- An SSE event. -/
structure Event where
  name : EventName
  id : Nat
  data : JsonObject

/-- The `HTTPStatus` members of the table below. -/
inductive HttpStatus
  | badRequest
  | tooManyRequests
  | badGateway
  | gatewayTimeout
deriving DecidableEq

/-- `HTTPStatus.value`. -/
def HttpStatus.code : HttpStatus → Nat
  | .badRequest => 400
  | .tooManyRequests => 429
  | .badGateway => 502
  | .gatewayTimeout => 504

/-- `HTTPStatus.phrase`. -/
def HttpStatus.phrase : HttpStatus → String
  | .badRequest => "Bad Request"
  | .tooManyRequests => "Too Many Requests"
  | .badGateway => "Bad Gateway"
  | .gatewayTimeout => "Gateway Timeout"

/-- `_PROVIDER_ERROR_STATUS`. -/
def providerErrorStatus : List (ProviderErrorKind × HttpStatus × Bool) :=
  [(.rateLimit, .tooManyRequests, true),
    (.timeout, .gatewayTimeout, true),
    (.unavailable, .badGateway, true),
    (.contextWindow, .badRequest, false),
    (.badRequest, .badRequest, false),
    (.notFound, .badRequest, false),
    (.auth, .badGateway, false)]

/-- `provider_error_to_status`. -/
def providerErrorToStatus (kind : ProviderErrorKind) : HttpStatus × Bool :=
  (providerErrorStatus.lookup kind).getD (.badGateway, false)

/-- A nullable field. -/
def dumpOption {α : Type} (f : α → Json) : Option α → Json
  | none => .null
  | some a => f a

/-- `Usage.model_dump()`. -/
def Usage.dump (usage : Usage) : Json := .obj
  [("prompt_tokens", dumpOption (fun n : Int => .num n) usage.promptTokens),
    ("completion_tokens", dumpOption (fun n : Int => .num n) usage.completionTokens),
    ("total_tokens", dumpOption (fun n : Int => .num n) usage.totalTokens)]

/-- A `delta` event. -/
def streamDelta (seq : Nat) (content : String) : Event :=
  { name := .delta, id := seq, data := [("content", .str content)] }

/-- A `done` event. -/
def streamDone (seq : Nat) (finishReason : Option String) (usage : Option Usage) : Event :=
  { name := .done, id := seq
    data := [("finish_reason", dumpOption .str finishReason),
      ("usage", dumpOption Usage.dump usage)] }

/-- An `error` event. -/
def streamError (seq : Nat) (kind : ProviderErrorKind) (detail : String) : Event :=
  let (status, retryable) := providerErrorToStatus kind
  { name := .error, id := seq
    data := [("type", .str "about:blank"), ("title", .str status.phrase),
      ("status", .num status.code), ("detail", .str detail), ("retryable", .bool retryable)] }

/-- The variables of `stream_sse`. -/
structure SseState where
  seq : Nat := 0
  finishReason : Option String := none
  usage : Option Usage := none

/-- One turn of the loop of `stream_sse`. -/
def SseState.chunk (st : SseState) (chunk : ChatChunk) : SseState × Option Event :=
  let usage := chunk.usage.or st.usage
  match chunk.choices.head? with
  | none => ({ st with usage }, none)
  | some choice =>
    let finishReason := choice.finishReason.or st.finishReason
    match choice.content with
    | none => ({ st with usage, finishReason }, none)
    | some content =>
      if content.isEmpty then ({ st with usage, finishReason }, none)
      else ({ seq := st.seq + 1, usage, finishReason }, some (streamDelta (st.seq + 1) content))

/-- `stream_sse`: the events of a provider stream. -/
def streamSse (st : SseState) : List ChatChunk → StreamEnd → List Event
  | [], .exhausted => [streamDone (st.seq + 1) st.finishReason st.usage]
  | [], .providerError kind detail => [streamError (st.seq + 1) kind detail]
  | [], .raised => []
  | chunk :: chunks, ending =>
    let (st', event) := st.chunk chunk
    event.toList ++ streamSse st' chunks ending

/-! ### `persist_stream` -/

/-- `MASKED_ERROR_DETAIL`. -/
def maskedErrorDetail : String := "The model could not complete the request."

mutual

/-- A value without nulls, or `none` when nothing of it is left. -/
def dropNullsValue : Json → Option Json
  | .null => none
  | .obj fields =>
    match dropNulls fields with
    | [] => none
    | kept => some (.obj kept)
  | v => some v

/-- `_drop_nulls`. -/
def dropNulls : JsonObject → JsonObject
  | [] => []
  | (key, value) :: fields =>
    match dropNullsValue value with
    | none => dropNulls fields
    | some kept => (key, kept) :: dropNulls fields

end

/-- What the loop of `persist_stream` has gathered. -/
structure Gathered where
  buffer : List String
  status : TerminalStatus
  extra : JsonObject

/-- `TAG_CONTEXT_EXTRA_KEY`. -/
def tagContextExtraKey : String := "tag_context"

/-- `TAG_CONTEXT_PARTIAL_EXTRA_KEY`. -/
def tagContextPartialExtraKey : String := "tag_context_partial"

/-- The fields of an `error` event that are stored. -/
def storedError (data : JsonObject) : Option JsonObject := do
  let status ← data.lookup "status"
  let title ← data.lookup "title"
  let retryable ← data.lookup "retryable"
  some [("error", .obj [("status", status), ("title", title), ("retryable", retryable)])]

/-- One turn of the loop: what is gathered after the event, and the event to yield. -/
def Gathered.event (mask : Bool) (g : Gathered) (event : Event) : Gathered × Option Event :=
  match event.name with
  | .delta =>
    match event.data.lookup "content" with
    | some (.str content) => ({ g with buffer := g.buffer ++ [content] }, some event)
    | _ => (g, none)
  | .done =>
    ({ g with status := ⟨.complete, MessageStatus.noConfusion⟩, extra := dropNulls event.data },
      some event)
  | .error =>
    let g := { g with status := ⟨.error, MessageStatus.noConfusion⟩ }
    match storedError event.data with
    | none => (g, none)
    | some extra =>
      let data := setField "detail" (.str maskedErrorDetail) event.data
      ({ g with extra }, some (if mask then { event with data } else event))

/-- The loop of `persist_stream`: what is gathered, and the events that the consumer gets. It
closes the generator at the event with the number `closeAt`. -/
def persistLoop (mask : Bool) (g : Gathered) : List Event → Option Nat → Gathered × List Event
  | [], _ => (g, [])
  | event :: events, closeAt =>
    match g.event mask event, closeAt with
    | (g', none), _ => (g', [])
    | (g', some out), some 0 => (g', [out])
    | (g', some out), some (n + 1) =>
      let (g'', outs) := persistLoop mask g' events (some n)
      (g'', out :: outs)
    | (g', some out), none =>
      let (g'', outs) := persistLoop mask g' events none
      (g'', out :: outs)

/-- The arguments of `persist_stream`, with the run of its provider stream. -/
structure Generation where
  chunks : List ChatChunk
  ending : StreamEnd
  placeholder : MessageId
  mask : Bool
  isProtected : Bool
  tagContext : List (String × String)
  prefixText : String

/-- The stamp of the `finally` block. -/
def Generation.stamp (gen : Generation) (extra : JsonObject) : JsonObject :=
  if gen.tagContext.isEmpty then extra
  else
    let tags := gen.tagContext.map fun tag => (tag.1, Json.str tag.2)
    let stamped := setField tagContextExtraKey (.obj tags) extra
    if gen.prefixText.isEmpty then stamped
    else setField tagContextPartialExtraKey (.bool true) stamped

/-- The loop over the stream of the generation. -/
def Generation.loop (gen : Generation) (closeAt : Option Nat) : Gathered × List Event :=
  let buffer := if gen.prefixText.isEmpty then [] else [gen.prefixText]
  persistLoop gen.mask
    { buffer, status := ⟨.interrupted, MessageStatus.noConfusion⟩, extra := [] }
    (streamSse {} gen.chunks gen.ending) closeAt

/-- `finalize_message`: whether a row was updated. -/
def finalizeMessage (store : Store) (id : MessageId) (content : String) (encrypted : Bool)
    (status : TerminalStatus) (extra : Option JsonObject) : Store × Bool :=
  store.write id (.finalize content encrypted status extra)

/-- `persist_stream`: the events that the consumer gets, and the store after the `finally` block.
The error is one of `seal_content`. -/
def persistStream (P : Primitives) (settings : Settings) (nonce : Nonce) (store : Store)
    (gen : Generation) (closeAt : Option Nat) : List Event × Except CryptoError Store :=
  let (g, events) := gen.loop closeAt
  let written := do
    let (stored, encrypted) ← sealContent P settings nonce (String.join g.buffer) gen.isProtected
    pure (finalizeMessage store gen.placeholder stored encrypted g.status
      (some (gen.stamp g.extra))).1
  (events, written)

end RedTeaming.Conversations
