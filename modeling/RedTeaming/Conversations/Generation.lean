import RedTeaming.Conversations.MessageHistory
import RedTeaming.Conversations.Streaming

/-!
# `RedTeaming.Conversations.Generation`: a reply is stored as it was streamed

`streamSse_eq` says what the stream of a provider is: one `delta` for each piece of text, and then
the events of its end. The loop of `persistStream` goes through these events up to the one at
which the consumer closes. `loop_closed` and `loop_end` are the two cases: the consumer closes at
a `delta`, or the loop comes to the end of the provider stream.

`persist_stream_faithful` puts them together, and says that a masked caller learns nothing about
the text of a provider error: two runs that differ in this text only do not differ for it.
-/

set_option autoImplicit false

namespace RedTeaming.Conversations

open RedTeaming.Library

/-! ### The events of a provider stream -/

/-- The piece of text that a chunk brings. -/
def ChatChunk.text (chunk : ChatChunk) : Option String :=
  (chunk.choices.head?.bind ChunkChoice.content).filter fun content => !content.isEmpty

/-- The `delta` events of pieces of text. -/
def deltas (seq : Nat) : List String → List Event
  | [] => []
  | text :: texts => streamDelta (seq + 1) text :: deltas (seq + 1) texts

/-- The variables of `stream_sse` after the chunks. -/
def SseState.chunks (st : SseState) (chunks : List ChatChunk) : SseState :=
  chunks.foldl (fun st chunk => (st.chunk chunk).1) st

/-- The events of the end of a provider stream. -/
def StreamEnd.events (st : SseState) : StreamEnd → List Event
  | .exhausted => [streamDone (st.seq + 1) st.finishReason st.usage]
  | .providerError kind detail => [streamError (st.seq + 1) kind detail]
  | .raised => []

section
variable {st : SseState} {chunk : ChatChunk} {seq : Nat} {mask : Bool} {g : Gathered}
  {texts : List String}

theorem chunk_of_text_none (st : SseState) (h : chunk.text = none) :
    (st.chunk chunk).2 = none ∧ (st.chunk chunk).1.seq = st.seq := by
  unfold SseState.chunk
  split
  · exact ⟨rfl, rfl⟩
  · rename_i choice hchoice
    split
    · exact ⟨rfl, rfl⟩
    · rename_i content hcontent
      have hempty : content.isEmpty = true := by
        simpa [ChatChunk.text, hchoice, hcontent] using h
      rw [if_pos hempty]
      exact ⟨rfl, rfl⟩

theorem chunk_of_text (st : SseState) {text : String} (h : chunk.text = some text) :
    (st.chunk chunk).2 = some (streamDelta (st.seq + 1) text) ∧
      (st.chunk chunk).1.seq = st.seq + 1 := by
  unfold SseState.chunk
  split
  · rename_i hnone
    rw [ChatChunk.text, hnone] at h
    cases h
  · rename_i choice hchoice
    split
    · rename_i hnone
      rw [ChatChunk.text, hchoice, Option.bind_some, hnone] at h
      cases h
    · rename_i content hcontent
      rw [ChatChunk.text, hchoice, Option.bind_some, hcontent, Option.filter_eq_some_iff] at h
      obtain ⟨hsame, hnonempty⟩ := h
      have htext : content = text := Option.some.inj hsame
      have hfalse : text.isEmpty = false := by simpa using hnonempty
      rw [htext, hfalse]
      exact ⟨rfl, rfl⟩

/-- Each piece of text has taken one id. -/
theorem seq_chunks (chunks : List ChatChunk) :
    (st.chunks chunks).seq = st.seq + (chunks.filterMap ChatChunk.text).length := by
  induction chunks generalizing st with
  | nil => rfl
  | cons chunk chunks ih =>
    rw [SseState.chunks, List.foldl_cons, ← SseState.chunks, ih]
    cases htext : chunk.text with
    | none => rw [List.filterMap_cons_none htext, (chunk_of_text_none st htext).2]
    | some text =>
      rw [List.filterMap_cons_some htext, (chunk_of_text st htext).2, List.length_cons]
      omega

/-- The stream is the deltas of the pieces of text, and then the events of its end. -/
theorem streamSse_eq (chunks : List ChatChunk) (ending : StreamEnd) :
    streamSse st chunks ending =
      deltas st.seq (chunks.filterMap ChatChunk.text) ++ ending.events (st.chunks chunks) := by
  induction chunks generalizing st with
  | nil => cases ending <;> rfl
  | cons chunk chunks ih =>
    show (st.chunk chunk).2.toList ++ streamSse (st.chunk chunk).1 chunks ending = _
    rw [ih]
    show _ = deltas st.seq _ ++ ending.events ((st.chunk chunk).1.chunks chunks)
    cases htext : chunk.text with
    | none =>
      obtain ⟨hnone, hseq⟩ := chunk_of_text_none st htext
      rw [List.filterMap_cons_none htext, hnone, hseq]
      rfl
    | some text =>
      obtain ⟨hsome, hseq⟩ := chunk_of_text st htext
      rw [List.filterMap_cons_some htext, hsome, hseq]
      rfl

/-! ### The loop over the events -/

/-- The status that the end of a provider stream gives. -/
def StreamEnd.status : StreamEnd → TerminalStatus
  | .exhausted => ⟨.complete, MessageStatus.noConfusion⟩
  | .providerError _ _ => ⟨.error, MessageStatus.noConfusion⟩
  | .raised => ⟨.interrupted, MessageStatus.noConfusion⟩

/-- The `extra` that the end of a provider stream gives, before the stamp. -/
def StreamEnd.extra (st : SseState) : StreamEnd → JsonObject
  | .exhausted => dropNulls (streamDone (st.seq + 1) st.finishReason st.usage).data
  | .providerError kind _ =>
    let (status, retryable) := providerErrorToStatus kind
    [("error", .obj [("status", .num status.code), ("title", .str status.phrase),
      ("retryable", .bool retryable)])]
  | .raised => []

/-- The end of the stream as a consumer sees it. -/
def StreamEnd.shown (mask : Bool) : StreamEnd → StreamEnd
  | .providerError kind detail => .providerError kind (if mask then maskedErrorDetail else detail)
  | ending => ending

/-- Text is added to the buffer. -/
def Gathered.add (g : Gathered) (texts : List String) : Gathered :=
  { g with buffer := g.buffer ++ texts }

@[simp] theorem add_nil (g : Gathered) : g.add [] = g := by
  rw [Gathered.add, List.append_nil]

theorem add_add (g : Gathered) (texts texts' : List String) :
    (g.add texts).add texts' = g.add (texts ++ texts') := by
  rw [Gathered.add, Gathered.add, Gathered.add, List.append_assoc]

/-- A `delta` adds its text, and the loop goes on. -/
theorem persistLoop_delta (text : String) (events : List Event) (closeAt : Option Nat)
    (hclose : closeAt ≠ some 0) :
    persistLoop mask g (streamDelta seq text :: events) closeAt =
      ((persistLoop mask (g.add [text]) events (closeAt.map Nat.pred)).1,
        streamDelta seq text ::
          (persistLoop mask (g.add [text]) events (closeAt.map Nat.pred)).2) := by
  cases closeAt with
  | none => rfl
  | some n =>
    cases n with
    | zero => exact absurd rfl hclose
    | succ n => rfl

/-- A consumer that closes at a `delta` gets the deltas so far. -/
theorem persistLoop_closed {n : Nat} (hn : n < texts.length) (rest : List Event) :
    persistLoop mask g (deltas seq texts ++ rest) (some n) =
      (g.add (texts.take (n + 1)), deltas seq (texts.take (n + 1))) := by
  induction texts generalizing g seq n with
  | nil => simp at hn
  | cons text texts ih =>
    cases n with
    | zero => rfl
    | succ n =>
      have hshort : n < texts.length := by simpa using hn
      rw [deltas, List.cons_append, persistLoop_delta _ _ _ (by simp), Option.map_some,
        Nat.pred_succ, ih hshort, add_add]
      rfl

/-- Otherwise the loop comes to what follows the deltas. -/
theorem persistLoop_through (mask : Bool) (g : Gathered) (seq : Nat) {closeAt : Option Nat}
    (hclose : ∀ n ∈ closeAt, texts.length ≤ n)
    (rest : List Event) : ∃ closeAt',
      persistLoop mask g (deltas seq texts ++ rest) closeAt =
        ((persistLoop mask (g.add texts) rest closeAt').1,
          deltas seq texts ++ (persistLoop mask (g.add texts) rest closeAt').2) := by
  induction texts generalizing g seq closeAt with
  | nil => exact ⟨closeAt, by rw [add_nil]; rfl⟩
  | cons text texts ih =>
    have hopen : closeAt ≠ some 0 := by
      intro hzero
      have hlong := hclose 0 hzero
      simp at hlong
    have hclose' : ∀ n ∈ closeAt.map Nat.pred, texts.length ≤ n := by
      intro n hn
      obtain ⟨k, hk, rfl⟩ := Option.map_eq_some_iff.mp hn
      have hlong : texts.length + 1 ≤ k := hclose k hk
      exact Nat.le_pred_of_lt hlong
    obtain ⟨closeAt', hloop⟩ := ih (g.add [text]) (seq + 1) hclose'
    refine ⟨closeAt', ?_⟩
    rw [deltas, List.cons_append, persistLoop_delta _ _ _ hopen, hloop, add_add]
    rfl

/-- At a last event it does not matter where the consumer closes. -/
theorem persistLoop_last {event out : Event} {g' : Gathered}
    (h : g.event mask event = (g', some out)) (closeAt : Option Nat) :
    persistLoop mask g [event] closeAt = (g', [out]) := by
  unfold persistLoop
  rw [h]
  cases closeAt with
  | none => rfl
  | some n => cases n <;> rfl

/-- The loop over the end of a provider stream. -/
theorem persistLoop_ending (mask : Bool) (st : SseState) (buffer : List String)
    (ending : StreamEnd) (closeAt : Option Nat) :
    persistLoop mask { buffer, status := ⟨.interrupted, MessageStatus.noConfusion⟩, extra := [] }
        (ending.events st) closeAt =
      ({ buffer, status := ending.status, extra := ending.extra st },
        (ending.shown mask).events st) := by
  cases ending with
  | exhausted => exact persistLoop_last rfl closeAt
  | providerError kind detail =>
    apply persistLoop_last
    cases mask <;> rfl
  | raised => rfl

end

/-! ### A generation -/

namespace Generation
variable (gen : Generation) (closeAt : Option Nat)

/-- The pieces of text of the provider stream. -/
def texts : List String := gen.chunks.filterMap ChatChunk.text

/-- The pieces of text that were received before the consumer closed. -/
def received : List String :=
  match closeAt with
  | none => gen.texts
  | some n => gen.texts.take (n + 1)

/-- The consumer does not close at a `delta`. -/
def ReachesEnd : Prop := ∀ n ∈ closeAt, gen.texts.length ≤ n

instance : Decidable (gen.ReachesEnd closeAt) :=
  inferInstanceAs (Decidable (∀ n ∈ closeAt, gen.texts.length ≤ n))

/-- The status in which the reply ends. -/
def outcome : MessageStatus := if gen.ReachesEnd closeAt then gen.ending.status else .interrupted

/-- What the buffer starts with. -/
def seed : List String := if gen.prefixText.isEmpty then [] else [gen.prefixText]

variable {gen closeAt}

theorem received_of_reachesEnd (h : gen.ReachesEnd closeAt) :
    gen.received closeAt = gen.texts := by
  cases closeAt with
  | none => rfl
  | some n =>
    have hlong : gen.texts.length ≤ n := h n rfl
    exact List.take_of_length_le (by omega)

/-- The consumer closes at a `delta`. -/
theorem loop_closed (h : ¬ gen.ReachesEnd closeAt) :
    gen.loop closeAt =
      ({ buffer := gen.seed ++ gen.received closeAt
         status := ⟨.interrupted, MessageStatus.noConfusion⟩, extra := [] },
        deltas 0 (gen.received closeAt)) := by
  cases closeAt with
  | none => exact absurd nofun h
  | some n =>
    have hn : n < gen.texts.length := by
      by_contra hlong
      apply h
      intro k hk
      cases hk
      omega
    rw [loop, streamSse_eq]
    exact persistLoop_closed hn _

/-- The loop comes to the end of the provider stream. -/
theorem loop_end (h : gen.ReachesEnd closeAt) :
    gen.loop closeAt =
      ({ buffer := gen.seed ++ gen.received closeAt, status := gen.ending.status
         extra := gen.ending.extra (SseState.chunks {} gen.chunks) },
        deltas 0 (gen.received closeAt) ++
          (gen.ending.shown gen.mask).events (SseState.chunks {} gen.chunks)) := by
  rw [received_of_reachesEnd h, loop, streamSse_eq]
  obtain ⟨closeAt', hloop⟩ := persistLoop_through gen.mask
    { buffer := gen.seed, status := ⟨.interrupted, MessageStatus.noConfusion⟩, extra := [] } 0 h
    (gen.ending.events (SseState.chunks {} gen.chunks))
  have hending := persistLoop_ending gen.mask (SseState.chunks {} gen.chunks)
    (gen.seed ++ gen.texts) gen.ending closeAt'
  rw [Gathered.add, hending] at hloop
  exact hloop

end Generation

/-! ### What the consumer gets -/

/-- The text of a `delta`. -/
def Event.content (event : Event) : Option String :=
  match event.name, event.data.lookup "content" with
  | .delta, some (.str content) => some content
  | _, _ => none

section
variable {st : SseState} {seq : Nat} {mask : Bool} {texts : List String} {ending : StreamEnd}

theorem filterMap_content_deltas : (deltas seq texts).filterMap Event.content = texts := by
  induction texts generalizing seq with
  | nil => rfl
  | cons text texts ih =>
    rw [deltas, List.filterMap_cons_some (b := text) (by rfl), ih]

theorem map_id_deltas (seq : Nat) (texts : List String) :
    (deltas seq texts).map Event.id = List.range' (seq + 1) texts.length := by
  induction texts generalizing seq with
  | nil => rfl
  | cons text texts ih =>
    rw [deltas, List.map_cons, ih]
    rfl

theorem length_deltas (seq : Nat) (texts : List String) :
    (deltas seq texts).length = texts.length := by
  have hlength := congrArg List.length (map_id_deltas seq texts)
  rwa [List.length_map, List.length_range'] at hlength

theorem name_of_mem_deltas {event : Event} (h : event ∈ deltas seq texts) :
    event.name = .delta := by
  induction texts generalizing seq with
  | nil => cases h
  | cons text texts ih =>
    rcases List.mem_cons.mp h with rfl | h
    · rfl
    · exact ih h

/-- The end of a stream has one event, with the next id, or none. -/
theorem events_shown (st : SseState) (mask : Bool) (ending : StreamEnd) :
    (ending.shown mask).events st = [] ∨
    ∃ event, (ending.shown mask).events st = [event] ∧ event.id = st.seq + 1 ∧
      event.content = none := by
  cases ending with
  | exhausted => exact Or.inr ⟨_, rfl, rfl, rfl⟩
  | providerError kind detail => exact Or.inr ⟨_, rfl, rfl, rfl⟩
  | raised => exact Or.inl rfl

theorem exists_done_iff : (∃ event ∈ (ending.shown mask).events st, event.name = .done) ↔
    ending.status.1 = .complete := by
  cases ending <;> simp [StreamEnd.shown, StreamEnd.events, StreamEnd.status,
    streamDone, streamError]

theorem exists_error_iff : (∃ event ∈ (ending.shown mask).events st, event.name = .error) ↔
    ending.status.1 = .error := by
  cases ending <;> simp [StreamEnd.shown, StreamEnd.events, StreamEnd.status,
    streamDone, streamError]

/-- With masking on, an error names no detail of the provider. -/
theorem detail_of_masked {event : Event} (h : event ∈ (ending.shown true).events st)
    (hname : event.name = .error) :
    event.data.lookup "detail" = some (.str maskedErrorDetail) := by
  cases ending with
  | exhausted =>
    rw [List.mem_singleton.mp h] at hname
    cases hname
  | providerError kind detail =>
    rw [List.mem_singleton.mp h]
    rfl
  | raised => cases h

/-- The end of a stream writes no tags into `extra`. -/
theorem lookup_extra : (ending.extra st).lookup tagContextExtraKey = none := by
  cases ending with
  | exhausted =>
    simp only [StreamEnd.extra, streamDone, dropNulls]
    cases dropNullsValue (dumpOption Json.str st.finishReason) <;>
      cases dropNullsValue (dumpOption Usage.dump st.usage) <;> rfl
  | providerError kind detail => rfl
  | raised => rfl

end

/-- The JSON object of a tag map. -/
def tagJson (tags : List (String × String)) : Json :=
  .obj (tags.map fun tag => (tag.1, .str tag.2))

/-- The stamp is there, with tags. -/
theorem lookup_stamp {gen : Generation} {extra : JsonObject}
    (h : extra.lookup tagContextExtraKey = none) :
    (gen.stamp extra).lookup tagContextExtraKey =
      if gen.tagContext.isEmpty then none else some (tagJson gen.tagContext) := by
  have hne : tagContextExtraKey ≠ tagContextPartialExtraKey := by decide
  unfold Generation.stamp
  split
  · exact h
  · dsimp only
    split
    · exact lookup_setField_self _ _ _
    · rw [lookup_setField_of_ne hne]
      exact lookup_setField_self _ _ _

/-! ### The stored row -/

/-- The detached transaction of a finalize, when nobody else has the row, does what
`finalizeMessage` does. -/
theorem store_of_finalize {env : Env} {s : State} {t : TxnId} {id : MessageId} {content : String}
    {encrypted : Bool} {status : TerminalStatus} {extra : Option JsonObject} (h : Inv env s)
    (ht : s.txns t = none) (ha : s.answers t = none) (hlock : s.rowLock.mayTake id t = true) :
    (run (step env) s [.begin t (.finalize id content encrypted status extra),
      .startJob t, .update t, .endJob t, .commit t]).map State.store =
      some (finalizeMessage s.store id content encrypted status extra).1 := by
  cases hfound : s.store.message? id with
  | none =>
    rw [finalizeMessage, write_of_none hfound]
    simp [run, step, State.begin, ht, ha, State.startJob, State.lockTarget, State.jobUpdates,
      State.update, Phase.isUpdating, hfound, State.endJob, State.commit]
    rw [written_of_no_inserts rfl rfl rfl]
    exact Store.mapMessages_of_forall fun _ _ => rfl
  | some m =>
    obtain ⟨hm, hid⟩ := message?_spec hfound
    rw [finalizeMessage, ← hid, write_eq h.store.ids hm, hid]
    by_cases hstreaming : m.status = .streaming
    · simp [run, step, State.begin, ht, ha, State.startJob, State.lockTarget, State.jobUpdates,
        State.update, Phase.isUpdating, hfound, State.endJob, State.commit, hlock, Txn.view,
        Write.guard, hstreaming]
      rw [written_of_no_inserts rfl rfl rfl]
      rfl
    · simp [run, step, State.begin, ht, ha, State.startJob, State.lockTarget, State.jobUpdates,
        State.update, Phase.isUpdating, hfound, State.endJob, State.commit, Txn.view, Write.guard,
        hstreaming]
      rw [written_of_no_inserts rfl rfl rfl]
      rfl

/-! ### The result -/

/-- A reply `m` is stored as it was streamed. `events` are what the consumer got. -/
structure Faithful (env : Env) (gen : Generation) (closeAt : Option Nat) (events : List Event)
    (m : Message) : Prop where
  text : env.text m = .ok (gen.prefixText ++ String.join (gen.received closeAt))
  deltas : events.filterMap Event.content = gen.received closeAt
  status : m.status = gen.outcome closeAt
  complete : m.status = .complete ↔ ∃ event ∈ events, event.name = .done
  error : m.status = .error ↔ ∃ event ∈ events, event.name = .error
  tags : m.extra.lookup tagContextExtraKey =
    if gen.tagContext.isEmpty then none else some (tagJson gen.tagContext)
  ids : events.map Event.id = List.range' 1 events.length
  last : ∀ event ∈ events.dropLast, event.name = .delta
  masked : gen.mask = true → ∀ event ∈ events, event.name = .error →
    event.data.lookup "detail" = some (.str maskedErrorDetail)

/-- The generation with another text of its provider error. -/
def Generation.withDetail (gen : Generation) (detail : String) : Generation :=
  match gen.ending with
  | .providerError kind _ => { gen with ending := .providerError kind detail }
  | _ => gen

section
variable {env : Env} {gen : Generation} {closeAt : Option Nat}

theorem join_seed (texts : List String) :
    String.join (gen.seed ++ texts) = gen.prefixText ++ String.join texts := by
  rw [String.join_append]
  congr 1
  unfold Generation.seed
  split
  · rename_i hempty
    rw [String.join_nil, String.isEmpty_iff.mp hempty]
  · rw [String.join_cons, String.join_nil, String.append_empty]

/-- What is gathered, and what the consumer gets, stored as a row. -/
theorem faithful_of_loop {m : Message}
    (htext : env.text m = .ok (String.join (gen.loop closeAt).1.buffer))
    (hstatus : m.status = (gen.loop closeAt).1.status)
    (hextra : m.extra = gen.stamp (gen.loop closeAt).1.extra) :
    Faithful env gen closeAt (gen.loop closeAt).2 m := by
  by_cases hend : gen.ReachesEnd closeAt
  · rw [Generation.loop_end hend] at htext hstatus hextra ⊢
    have hlength := length_deltas 0 (gen.received closeAt)
    have hseq : (SseState.chunks {} gen.chunks).seq = (gen.received closeAt).length := by
      rw [Generation.received_of_reachesEnd hend, seq_chunks]
      exact Nat.zero_add _
    have hdelta : ∀ event ∈ Conversations.deltas 0 (gen.received closeAt), event.name = .delta :=
      fun _ => name_of_mem_deltas
    have hmem :
        ∀ name, name ≠ .delta → ((∃ event ∈ Conversations.deltas 0 (gen.received closeAt) ++
        (gen.ending.shown gen.mask).events (SseState.chunks {} gen.chunks), event.name = name) ↔
        ∃ event ∈ (gen.ending.shown gen.mask).events (SseState.chunks {} gen.chunks),
          event.name = name) := by
      intro name hname
      constructor
      · rintro ⟨event, hevent, hsame⟩
        rcases List.mem_append.mp hevent with hold | hnew
        · exact absurd (hsame.symm.trans (hdelta event hold)) hname
        · exact ⟨event, hnew, hsame⟩
      · rintro ⟨event, hevent, hsame⟩
        exact ⟨event, List.mem_append_right _ hevent, hsame⟩
    refine
      { text := ?_, deltas := ?_, status := ?_, complete := ?_, error := ?_, tags := ?_, ids := ?_
        last := ?_, masked := ?_ }
    · rw [htext, join_seed]
    · rw [List.filterMap_append, filterMap_content_deltas]
      rcases events_shown (SseState.chunks {} gen.chunks) gen.mask gen.ending with hnone |
        ⟨event, hone, -, hcontent⟩
      · rw [hnone, List.filterMap_nil, List.append_nil]
      · rw [hone, List.filterMap_cons_none hcontent, List.filterMap_nil, List.append_nil]
    · rw [hstatus, Generation.outcome, if_pos hend]
    · rw [hmem .done nofun, exists_done_iff, hstatus]
    · rw [hmem .error nofun, exists_error_iff, hstatus]
    · rw [hextra]
      exact lookup_stamp lookup_extra
    · rw [List.map_append, map_id_deltas, List.length_append, hlength]
      rcases events_shown (SseState.chunks {} gen.chunks) gen.mask gen.ending with hnone |
        ⟨event, hone, hid, -⟩
      · rw [hnone]
        exact List.append_nil _
      · rw [hone, List.map_singleton, hid, hseq, List.length_singleton, List.range'_concat]
        simp [Nat.add_comm]
    · rcases events_shown (SseState.chunks {} gen.chunks) gen.mask gen.ending with hnone |
        ⟨event, hone, -, -⟩
      · rw [hnone, List.append_nil]
        exact fun event hevent => hdelta event (List.dropLast_subset _ hevent)
      · rw [hone, List.dropLast_concat]
        exact hdelta
    · intro hmask event hevent hname
      rw [hmask] at hevent
      rcases List.mem_append.mp hevent with hold | hnew
      · rw [hdelta event hold] at hname
        cases hname
      · exact detail_of_masked hnew hname
  · rw [Generation.loop_closed hend] at htext hstatus hextra ⊢
    have hdelta : ∀ event ∈ Conversations.deltas 0 (gen.received closeAt), event.name = .delta :=
      fun _ => name_of_mem_deltas
    have hnone : ∀ name, name ≠ .delta →
        ¬ ∃ event ∈ Conversations.deltas 0 (gen.received closeAt), event.name = name := by
      rintro name hname ⟨event, hevent, hsame⟩
      exact hname (hsame.symm.trans (hdelta event hevent))
    refine
      { text := ?_, deltas := filterMap_content_deltas, status := ?_, complete := ?_, error := ?_
        tags := ?_, ids := ?_, last := ?_, masked := ?_ }
    · rw [htext, join_seed]
    · rw [hstatus, Generation.outcome, if_neg hend]
    · rw [hstatus]
      exact iff_of_false nofun (hnone .done nofun)
    · rw [hstatus]
      exact iff_of_false nofun (hnone .error nofun)
    · rw [hextra]
      exact lookup_stamp rfl
    · rw [map_id_deltas, length_deltas]
    · exact fun event hevent => hdelta event (List.dropLast_subset _ hevent)
    · intro _ event hevent hname
      rw [hdelta event hevent] at hname
      cases hname

/-- What the loop gathers does not depend on the text of a provider error, nor does what a masked
consumer gets. -/
theorem loop_withDetail (gen : Generation) (closeAt : Option Nat) (detail : String) :
    ((gen.withDetail detail).loop closeAt).1 = (gen.loop closeAt).1 ∧
      (gen.mask = true → ((gen.withDetail detail).loop closeAt).2 = (gen.loop closeAt).2) := by
  cases hending : gen.ending with
  | providerError kind detail' =>
    have hwith : gen.withDetail detail = { gen with ending := .providerError kind detail } := by
      rw [Generation.withDetail, hending]
    by_cases hend : gen.ReachesEnd closeAt
    · have hend' : (gen.withDetail detail).ReachesEnd closeAt := by
        rw [hwith]
        exact hend
      rw [Generation.loop_end hend, Generation.loop_end hend', hwith, hending]
      refine ⟨rfl, ?_⟩
      intro hmask
      rw [hmask]
      rfl
    · have hend' : ¬ (gen.withDetail detail).ReachesEnd closeAt := by
        rw [hwith]
        exact hend
      rw [Generation.loop_closed hend, Generation.loop_closed hend', hwith]
      exact ⟨rfl, fun _ => rfl⟩
  | _ =>
    have hwith : gen.withDetail detail = gen := by
      rw [Generation.withDetail, hending]
    rw [hwith]
    exact ⟨rfl, fun _ => rfl⟩

end

/-- **A reply is stored as it was streamed**, for every provider stream and every consumer, when
the placeholder still streams. The text of a provider error does not reach the store, nor a masked
consumer. -/
theorem persist_stream_faithful (env : Env) (nonce : Nonce) (store : Store) (gen : Generation)
    (closeAt : Option Nat) {m : Message} (hm : store.message? gen.placeholder = some m)
    (hstreaming : m.status = .streaming) :
    let persist := persistStream env.primitives env.settings nonce store
    ∃ store' m', (persist gen closeAt).2 = .ok store' ∧
      store'.message? gen.placeholder = some m' ∧
      (∀ other ∈ store.messages, other.id ≠ gen.placeholder → other ∈ store'.messages) ∧
      Faithful env gen closeAt (persist gen closeAt).1 m' ∧
      ∀ detail, (persist (gen.withDetail detail) closeAt).2 = .ok store' ∧
        (gen.mask = true →
          (persist (gen.withDetail detail) closeAt).1 = (persist gen closeAt).1) := by
  obtain ⟨stored, encrypted, hseal⟩ := exists_seal env.ring_eq nonce
    (String.join (gen.loop closeAt).1.buffer) gen.isProtected
  have hpersist : ∀ gen' : Generation, gen'.placeholder = gen.placeholder →
      gen'.isProtected = gen.isProtected → gen'.tagContext = gen.tagContext →
      gen'.prefixText = gen.prefixText → (gen'.loop closeAt).1 = (gen.loop closeAt).1 →
      (persistStream env.primitives env.settings nonce store gen' closeAt).2 =
        .ok (finalizeMessage store gen.placeholder stored encrypted (gen.loop closeAt).1.status
          (some (gen.stamp (gen.loop closeAt).1.extra))).1 := by
    intro gen' hplaceholder hprotected htags hstarts hloop
    simp only [persistStream, hloop, hprotected, hplaceholder, hseal, Generation.stamp,
      htags, hstarts]
    rfl
  refine ⟨_, _, hpersist gen rfl rfl rfl rfl rfl, message?_write hm (beq_iff_eq.mpr hstreaming),
    fun _ => mem_write_of_ne, ?_, ?_⟩
  · apply faithful_of_loop
    · exact unsealContent_sealContent hseal
    · rfl
    · rfl
  · intro detail
    obtain ⟨hgathered, hevents⟩ := loop_withDetail gen closeAt detail
    have hfields : (gen.withDetail detail).placeholder = gen.placeholder ∧
        (gen.withDetail detail).isProtected = gen.isProtected ∧
        (gen.withDetail detail).tagContext = gen.tagContext ∧
        (gen.withDetail detail).prefixText = gen.prefixText := by
      unfold Generation.withDetail
      split
      · exact ⟨rfl, rfl, rfl, rfl⟩
      · exact ⟨rfl, rfl, rfl, rfl⟩
    obtain ⟨hplaceholder, hprotected, htags, hstarts⟩ := hfields
    exact ⟨hpersist _ hplaceholder hprotected htags hstarts hgathered, hevents⟩

/-- A store with one streaming placeholder. -/
def placeholderStore : Store where
  turns := [{ id := 100, conversation := 5, index := 0 }]
  messages := [{ id := 201, turn := 100, role := .assistant, status := .streaming,
                 createdAt := 0 }]
  images := []

/-- A continued reply, whose provider fails after two pieces of text. -/
def failingGeneration : Generation where
  chunks := [{ choices := [{ content := some "Hel" }] }, { choices := [] },
    { choices := [{ content := some "lo" }] }]
  ending := .providerError .rateLimit "upstream gpt-x: slow down"
  placeholder := 201
  mask := true
  isProtected := false
  tagContext := [("lang", "en")]
  prefixText := "Oh. "

theorem persist_stream_faithful_of_failing :
    let persist := persistStream openEnv.primitives openEnv.settings ⟨List.replicate 12 0, rfl⟩
      placeholderStore
    ∃ store' m', (persist failingGeneration none).2 = .ok store' ∧
      store'.message? 201 = some m' ∧
      (∀ other ∈ placeholderStore.messages, other.id ≠ 201 → other ∈ store'.messages) ∧
      Faithful openEnv failingGeneration none (persist failingGeneration none).1 m' ∧
      ∀ detail, (persist (failingGeneration.withDetail detail) none).2 = .ok store' ∧
        (failingGeneration.mask = true →
          (persist (failingGeneration.withDetail detail) none).1 =
            (persist failingGeneration none).1) :=
  persist_stream_faithful openEnv _ placeholderStore failingGeneration none rfl rfl

end RedTeaming.Conversations
