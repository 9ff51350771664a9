import RedTeaming.Conversations.Generation
import RedTeaming.Library.EventStream
import RedTeaming.Library.JsonWriter
import Mathlib.Data.List.ReduceOption

/-!
# `RedTeaming.Conversations.Wire`: the reply that the reader sees is the reply that is stored

The events of `persist_stream` leave as text: the name, the id and the data of an event are lines
of a block. The package that writes the blocks is a parameter, with what it documents
(`Framing.Documented`): the lines of a block in some order, one of three line ends, and blocks
that are comments in between. The client (`lib/api/stream.ts` and `use-conversation-stream.ts`)
gets the text in pieces of any size. It splits it at two line feeds in a row, and reads the data
as JSON.

`parseFrame_seen` is the round trip of one event. `reply_shown_as_stored` is about the whole
stream, and about a stream that breaks off anywhere. It needs the line feed as the line end. With
the two other line ends of the format the client finds no event.
-/

set_option autoImplicit false

namespace RedTeaming.Conversations

open RedTeaming.Library
open RedTeaming.Library.EventStream
open RedTeaming.Library.JsonText (Text)

/-- The line feed. -/
def lf : Char := Char.ofNat 0x0A

/-- The carriage return. -/
def cr : Char := Char.ofNat 0x0D

/-! ### The text of an event -/

/-- The `event` field as text. -/
def EventName.text : EventName → Text
  | .delta => "delta".toList
  | .done => "done".toList
  | .error => "error".toList

/-- The `data` of an event. A masked error is written again, by `json.dumps`, which puts blanks
after its separators. Its texts are ASCII. -/
def Event.dataText (mask : Bool) (event : Event) : Text :=
  if mask && event.name == .error then JsonText.write [',', ' '] [':', ' '] (.obj event.data)
  else JsonText.write [','] [':'] (.obj event.data)

/-- A line of a block. -/
def fieldLine (field : String) (value : Text) : Text := field.toList ++ ':' :: ' ' :: value

/-- The lines of an event. -/
def Event.lines (mask : Bool) (event : Event) : List Text :=
  [fieldLine "id" (Nat.toDigits 10 event.id), fieldLine "event" event.name.text,
    fieldLine "data" (event.dataText mask)]

/-- The package that writes the events to the response: an event from its lines, and a ping. -/
structure Framing where
  encode : List Text → Text
  ping : Text

/-- What the package documents. A line end in a value would split it, and there is none here. -/
structure Framing.Documented (F : Framing) (ending : Text) : Prop where
  lineEnd : ending ∈ [[lf], [cr, lf], [cr]]
  encode : ∀ lines : List Text, (∀ line ∈ lines, cr ∉ line ∧ lf ∉ line) →
    ∃ sent, sent.Perm lines ∧ F.encode lines = block ending sent
  ping : ∃ comment, cr ∉ comment ∧ lf ∉ comment ∧ F.ping = block ending [':' :: comment]

/-- The text of a response: the events, and pings in between. -/
def Framing.wire (F : Framing) (mask : Bool) (sends : List (Option Event)) : Text :=
  sends.flatMap fun
    | some event => F.encode (event.lines mask)
    | none => F.ping

/-! ### The client -/

/-- `StreamEvent`. -/
inductive StreamEvent
  | delta (content : String)
  | done (finishReason : Option String)
  | error (detail : String) (retryable : Option Bool)

/-- The white space of `String.prototype.trim`. -/
def isTrimmed (c : Char) : Bool :=
  Text.inRanges [(0x09, 0x0D), (0x20, 0x20), (0xA0, 0xA0), (0x1680, 0x1680), (0x2000, 0x200A),
    (0x2028, 0x2029), (0x202F, 0x202F), (0x205F, 0x205F), (0x3000, 0x3000),
    (0xFEFF, 0xFEFF)] c.toNat

/-- `safeJsonObject`. An array has none of the fields that are read. -/
def safeJsonObject (text : Text) : JsonObject :=
  match JsonText.parse text with
  | some (.obj fields) => fields
  | _ => []

/-- A property that is a string. Of two fields with one key the last one counts. -/
def stringProperty (data : JsonObject) (key : String) : Option String :=
  match data.reverse.lookup key with
  | some (.str s) => some s
  | _ => none

/-- A property that is a boolean. -/
def booleanProperty (data : JsonObject) (key : String) : Option Bool :=
  match data.reverse.lookup key with
  | some (.bool b) => some b
  | _ => none

/-- The variables of `parseFrame`. -/
structure ParsedFrame where
  name : Text := "message".toList
  dataLines : List Text := []

/-- The value of an `event:` line. -/
def eventValue (line : Text) : Option Text :=
  if "event:".toList.isPrefixOf line then some (Text.strip isTrimmed (line.drop 6)) else none

/-- The value of a `data:` line. One blank at its start is dropped. -/
def dataValue (line : Text) : Option Text :=
  if "data:".toList.isPrefixOf line then
    some (if (line.drop 5).head? = some ' ' then line.drop 6 else line.drop 5)
  else none

/-- One turn of the loop of `parseFrame`. -/
def ParsedFrame.line (frame : ParsedFrame) (line : Text) : ParsedFrame :=
  match eventValue line with
  | some name => { frame with name }
  | none =>
    match dataValue line with
    | some value => { frame with dataLines := frame.dataLines ++ [value] }
    | none => frame

/-- The event of a name and its data. -/
def toStreamEvent (name : Text) (data : JsonObject) : Option StreamEvent :=
  if name = "delta".toList then some (.delta ((stringProperty data "content").getD ""))
  else if name = "done".toList then some (.done (stringProperty data "finish_reason"))
  else if name = "error".toList then
    some (.error
      (((stringProperty data "detail").or (stringProperty data "title")).getD "Stream error")
      (booleanProperty data "retryable"))
  else none

/-- `parseFrame`. -/
def parseFrame (text : Text) : Option StreamEvent :=
  let frame := (text.splitOnP (· == lf)).foldl ParsedFrame.line {}
  if frame.dataLines.isEmpty then none
  else toStreamEvent frame.name (safeJsonObject ([lf].intercalate frame.dataLines))

/-- `streamSse`: the events that the callback gets, for the pieces of text that the decoder
gives. -/
def readStream (pieces : List Text) : List StreamEvent :=
  (readPieces lf [] pieces).filterMap parseFrame

/-- The variables of `run` in `useConversationStream`. -/
structure Shown where
  text : String := ""
  ok : Bool := true

/-- The callback of `run`. -/
def Shown.event (shown : Shown) : StreamEvent → Shown
  | .delta content => { shown with text := shown.text ++ content }
  | .error _ _ => { shown with ok := false }
  | .done _ => shown

/-- What is shown after the events. -/
def showEvents (events : List StreamEvent) : Shown := events.foldl Shown.event {}

/-! ### One event there and back -/

/-- An event as the client should see it. -/
def Event.seen (event : Event) : StreamEvent :=
  match event.name with
  | .delta => .delta (event.content.getD "")
  | .done => .done (stringProperty event.data "finish_reason")
  | .error =>
    .error ((stringProperty event.data "detail").getD "") (booleanProperty event.data "retryable")

/-- The events that a stream can have. -/
inductive Event.Sent : Event → Prop
  | delta (seq : Nat) (content : String) : Sent (streamDelta seq content)
  | done (seq : Nat) (finishReason : Option String) (usage : Option Usage) :
      Sent (streamDone seq finishReason usage)
  | error (seq : Nat) (kind : ProviderErrorKind) (detail : String) :
      Sent (streamError seq kind detail)

section
variable {event : Event} {mask : Bool} {F : Framing} {ending : Text}

/-- The loop of `parseFrame`: the last name counts, and the data lines add up. -/
theorem foldl_line (lines : List Text) (frame : ParsedFrame)
    (hlines : ∀ line ∈ lines, eventValue line = none ∨ dataValue line = none) :
    lines.foldl ParsedFrame.line frame =
      { name := ((lines.filterMap eventValue).getLast?).getD frame.name
        dataLines := frame.dataLines ++ lines.filterMap dataValue } := by
  induction lines generalizing frame with
  | nil => rw [List.foldl_nil, List.filterMap_nil, List.filterMap_nil, List.append_nil]; rfl
  | cons line lines ih =>
    rw [List.foldl_cons, ih _ fun l hl => hlines l (List.mem_cons_of_mem _ hl)]
    cases hname : eventValue line with
    | some name =>
      have hdata : dataValue line = none := by
        rcases hlines line List.mem_cons_self with h | h
        · rw [hname] at h
          cases h
        · exact h
      rw [List.filterMap_cons_some hname, List.filterMap_cons_none hdata, ParsedFrame.line, hname]
      cases lines.filterMap eventValue with
      | nil => rfl
      | cons next names =>
        rw [List.getLast?_cons_cons, List.getLast?_eq_some_getLast (List.cons_ne_nil next names)]
        simp
    | none =>
      rw [List.filterMap_cons_none hname, ParsedFrame.line, hname]
      cases hdata : dataValue line with
      | some value =>
        rw [List.filterMap_cons_some hdata]
        simp
      | none => rw [List.filterMap_cons_none hdata]

/-- Every usage has integers. -/
theorem integral_usage (usage : Option Usage) :
    JsonText.Integral (dumpOption Usage.dump usage) := by
  cases usage with
  | none => trivial
  | some usage =>
    obtain ⟨prompt, completion, total⟩ := usage
    refine ⟨?_, ?_, ?_, trivial⟩
    · cases prompt <;> trivial
    · cases completion <;> trivial
    · cases total <;> trivial

/-- The data of an event has only integers. -/
theorem Event.Sent.integral (h : event.Sent) : JsonText.Integral (.obj event.data) := by
  cases h with
  | delta seq content => exact ⟨trivial, trivial⟩
  | done seq finishReason usage =>
    refine ⟨?_, integral_usage usage, trivial⟩
    cases finishReason <;> trivial
  | error seq kind detail => exact ⟨trivial, trivial, rfl, trivial, trivial, trivial⟩

/-- The data comes back. -/
theorem safeJsonObject_dataText (h : event.Sent) :
    safeJsonObject (event.dataText mask) = event.data := by
  have hblank : ∀ b ∈ [' '], JsonText.isBlank b = true := List.forall_mem_singleton.mpr rfl
  have hparse : JsonText.parse (event.dataText mask) = some (.obj event.data) := by
    unfold Event.dataText
    split
    · exact JsonText.parse_of_reads
        (JsonText.reads_write ⟨[' '], rfl, hblank⟩ ⟨[' '], rfl, hblank⟩ _ h.integral)
    · exact JsonText.parse_of_reads (JsonText.reads_write
        ⟨[], rfl, fun _ h => absurd h List.not_mem_nil⟩
          ⟨[], rfl, fun _ h => absurd h List.not_mem_nil⟩
        _ h.integral)
  rw [safeJsonObject, hparse]

/-- The name and the data of an event make up the event that the client should see. -/
theorem toStreamEvent_seen (h : event.Sent) :
    toStreamEvent event.name.text event.data = some event.seen := by
  cases h with
  | delta seq content => rfl
  | done seq finishReason usage => cases finishReason <;> rfl
  | error seq kind detail => rfl

theorem eventValue_name (name : EventName) :
    eventValue (fieldLine "event" name.text) = some name.text := by
  cases name <;> decide

/-- Only the line of the name has a name, and only the line of the data has data. -/
theorem values_lines (event : Event) (mask : Bool) :
    (event.lines mask).filterMap eventValue = [event.name.text] ∧
      (event.lines mask).filterMap dataValue = [event.dataText mask] ∧
      ∀ line ∈ event.lines mask, eventValue line = none ∨ dataValue line = none := by
  have hid : eventValue (fieldLine "id" (Nat.toDigits 10 event.id)) = none ∧
      dataValue (fieldLine "id" (Nat.toDigits 10 event.id)) = none := ⟨rfl, rfl⟩
  have hname : dataValue (fieldLine "event" event.name.text) = none := rfl
  have hdata : eventValue (fieldLine "data" (event.dataText mask)) = none ∧
      dataValue (fieldLine "data" (event.dataText mask)) =
        some (event.dataText mask) := ⟨rfl, rfl⟩
  refine ⟨?_, ?_, ?_⟩
  · rw [Event.lines, List.filterMap_cons_none hid.1, List.filterMap_cons_some (eventValue_name _),
      List.filterMap_cons_none hdata.1, List.filterMap_nil]
  · rw [Event.lines, List.filterMap_cons_none hid.2, List.filterMap_cons_none hname,
      List.filterMap_cons_some hdata.2, List.filterMap_nil]
  · intro line hline
    simp only [Event.lines, List.mem_cons, List.not_mem_nil, or_false] at hline
    rcases hline with rfl | rfl | rfl
    · exact Or.inl hid.1
    · exact Or.inr hname
    · exact Or.inl hdata.1

/-- A line of an event has no line end. -/
theorem no_line_end (event : Event) (mask : Bool) :
    ∀ line ∈ event.lines mask, cr ∉ line ∧ lf ∉ line := by
  have hfield (start value : Text) (hstart : JsonText.Printed start)
      (hvalue : JsonText.Printed value) :
      JsonText.Printed (start ++ value) := hstart.append hvalue
  have hprinted : ∀ line ∈ event.lines mask, JsonText.Printed line := by
    intro line hline
    simp only [Event.lines, List.mem_cons, List.not_mem_nil, or_false] at hline
    rcases hline with rfl | rfl | rfl
    · exact hfield "id: ".toList _ (by decide) (JsonText.printed_digits _)
    · cases event.name <;> decide
    · apply hfield "data: ".toList _ (by decide)
      split
      · exact JsonText.printed_write (by decide) (by decide) _
      · exact JsonText.printed_write (by decide) (by decide) _
  intro line hline
  constructor
  · intro hcr
    exact absurd (hprinted line hline cr hcr) (by decide)
  · intro hlf
    exact absurd (hprinted line hline lf hlf) (by decide)

/-! ### The blocks of a response -/

/-- What the lines of an event look like to the reader of blocks, in any order. -/
theorem lines_of_perm {sent : List Text} (hperm : sent.Perm (event.lines mask)) :
    Lines lf sent := by
  constructor
  · intro hnil
    rw [hnil] at hperm
    cases hperm.nil_eq
  · intro line hline
    have hmem := hperm.mem_iff.mp hline
    refine ⟨?_, (no_line_end event mask line hmem).2⟩
    intro hempty
    rw [hempty] at hmem
    simp [Event.lines, fieldLine] at hmem

/-- An event comes back from its lines, in whatever order they are. -/
theorem parseFrame_seen (h : event.Sent) {sent : List Text}
    (hperm : sent.Perm (event.lines mask)) :
    parseFrame ([lf].intercalate sent) = some event.seen := by
  obtain ⟨hname, hdata, hone⟩ := values_lines event mask
  obtain ⟨hne, hsent⟩ := lines_of_perm hperm
  have hsplit : ([lf].intercalate sent).splitOnP (· == lf) = sent := by
    refine Text.splitOnP_intercalate (beq_self_eq_true lf) hne ?_
    intro line hline c hc
    rw [beq_eq_false_iff_ne]
    rintro rfl
    exact (hsent line hline).2 hc
  have hname' : sent.filterMap eventValue = [event.name.text] :=
    List.perm_singleton.mp (hname ▸ hperm.filterMap eventValue)
  have hdata' : sent.filterMap dataValue = [event.dataText mask] :=
    List.perm_singleton.mp (hdata ▸ hperm.filterMap dataValue)
  rw [parseFrame, hsplit, foldl_line sent {} fun line hline => hone line (hperm.mem_iff.mp hline),
    hname', hdata']
  show toStreamEvent event.name.text (safeJsonObject ([lf].intercalate [event.dataText mask])) = _
  rw [List.intercalate_singleton, safeJsonObject_dataText h, toStreamEvent_seen h]

/-- A comment is no event. -/
theorem parseFrame_comment {comment : Text} (h : lf ∉ comment) :
    parseFrame (':' :: comment) = none := by
  have hsplit : (':' :: comment).splitOnP (· == lf) = [':' :: comment] := by
    apply List.splitOnP_eq_singleton
    intro c hc
    rw [beq_eq_false_iff_ne]
    rintro rfl
    rcases List.mem_cons.mp hc with hc | hc
    · cases hc
    · exact h hc
  rw [parseFrame, hsplit]
  rfl

/-- Each send is a block, and the blocks are those of the events with comments in between. -/
theorem exists_blocks (mask : Bool) (hF : F.Documented ending) {sends : List (Option Event)}
    (hsends : ∀ event, some event ∈ sends → event.Sent) :
    ∃ blocks : List (List Text), F.wire mask sends = blocks.flatMap (block ending) ∧
      (∀ lines ∈ blocks, Lines lf lines) ∧
      (blocks.map [lf].intercalate).filterMap parseFrame = sends.reduceOption.map Event.seen := by
  induction sends with
  | nil => exact ⟨[], rfl, fun _ h => absurd h List.not_mem_nil, rfl⟩
  | cons send sends ih =>
    obtain ⟨blocks, hwire, hlines, hread⟩ := ih fun e he => hsends e (List.mem_cons_of_mem _ he)
    cases send with
    | none =>
      obtain ⟨comment, -, hlf, hping⟩ := hF.ping
      refine ⟨[':' :: comment] :: blocks, ?_, ?_, ?_⟩
      · rw [Framing.wire, List.flatMap_cons, List.flatMap_cons, ← hwire]
        exact congrArg (· ++ _) hping
      · intro lines hmem
        rcases List.mem_cons.mp hmem with rfl | hmem
        · refine ⟨List.cons_ne_nil _ _, ?_⟩
          intro line hline
          rw [List.mem_singleton.mp hline]
          refine ⟨List.cons_ne_nil _ _, ?_⟩
          intro hmem
          rcases List.mem_cons.mp hmem with hmem | hmem
          · cases hmem
          · exact hlf hmem
        · exact hlines lines hmem
      · rw [List.map_cons, List.intercalate_singleton,
          List.filterMap_cons_none (parseFrame_comment hlf), hread,
          List.reduceOption_cons_of_none]
    | some event =>
      have hsent := hsends event List.mem_cons_self
      obtain ⟨sent, hperm, hencode⟩ := hF.encode (event.lines mask) (no_line_end event mask)
      refine ⟨sent :: blocks, ?_, ?_, ?_⟩
      · rw [Framing.wire, List.flatMap_cons, List.flatMap_cons, ← hwire]
        exact congrArg (· ++ _) hencode
      · intro lines hmem
        rcases List.mem_cons.mp hmem with rfl | hmem
        · exact lines_of_perm hperm
        · exact hlines lines hmem
      · rw [List.map_cons, List.filterMap_cons_some (parseFrame_seen hsent hperm), hread,
          List.reduceOption_cons_of_some, List.map_cons]

/-- The text of a response with another line end has no two line feeds in a row. -/
theorem apart_wire (hF : F.Documented ending) (hending : ending ≠ [lf])
    {sends : List (Option Event)} (hsends : ∀ event, some event ∈ sends → event.Sent) :
    Apart lf (F.wire mask sends) := by
  have hend : Apart lf ending ∧ ending.head? ≠ some lf := by
    have hlineEnd := hF.lineEnd
    simp only [List.mem_cons, List.not_mem_nil, or_false] at hlineEnd
    rcases hlineEnd with rfl | rfl | rfl
    · exact absurd rfl hending
    · refine ⟨List.isChain_cons_cons.mpr ⟨by decide, List.IsChain.singleton lf⟩, by decide⟩
    · exact ⟨List.IsChain.singleton cr, by decide⟩
  obtain ⟨blocks, hwire, hlines, -⟩ := exists_blocks mask hF hsends
  rw [hwire, List.flatMap_def]
  refine (apart_flatten ?_).1
  intro part hpart
  obtain ⟨lines, hmem, rfl⟩ := List.mem_map.mp hpart
  exact apart_block hend fun line hline => ((hlines lines hmem).each line hline).2

/-! ### The stream of a generation -/

/-- The events of a generation are those that a stream can have. -/
theorem sent_of_loop (gen : Generation) (closeAt : Option Nat) :
    ∀ event ∈ (gen.loop closeAt).2, event.Sent := by
  have hdeltas : ∀ (seq : Nat) (texts : List String), ∀ event ∈ deltas seq texts, event.Sent := by
    intro seq texts
    induction texts generalizing seq with
    | nil => exact fun _ h => absurd h List.not_mem_nil
    | cons text texts ih =>
      intro event hevent
      rcases List.mem_cons.mp hevent with rfl | hevent
      · exact .delta (seq + 1) text
      · exact ih (seq + 1) event hevent
  intro event hevent
  by_cases hend : gen.ReachesEnd closeAt
  · rw [Generation.loop_end hend] at hevent
    rcases List.mem_append.mp hevent with hevent | hevent
    · exact hdeltas _ _ event hevent
    · cases hending : gen.ending with
      | exhausted =>
        rw [hending] at hevent
        rw [List.mem_singleton.mp hevent]
        exact .done _ _ _
      | providerError kind detail =>
        rw [hending] at hevent
        rw [List.mem_singleton.mp hevent]
        exact .error _ _ _
      | raised =>
        rw [hending] at hevent
        cases hevent
  · rw [Generation.loop_closed hend] at hevent
    exact hdeltas _ _ event hevent

/-- What the client shows after the events. -/
theorem showEvents_seen {events : List Event} (h : ∀ event ∈ events, event.Sent) (shown : Shown) :
    (events.map Event.seen).foldl Shown.event shown =
      { text := shown.text ++ String.join (events.filterMap Event.content)
        ok := shown.ok && events.all fun event => event.name != .error } := by
  induction events generalizing shown with
  | nil => simp
  | cons event events ih =>
    rw [List.map_cons, List.foldl_cons, ih fun e he => h e (List.mem_cons_of_mem _ he)]
    cases h event List.mem_cons_self with
    | delta seq content =>
      have hcontent : (streamDelta seq content).content = some content := rfl
      rw [List.filterMap_cons_some hcontent, String.join_cons, ← String.append_assoc]
      rfl
    | done seq finishReason usage => rfl
    | error seq kind detail =>
      rw [List.filterMap_cons_none rfl]
      show Shown.mk _ _ = Shown.mk _ _
      simp [Shown.event, Event.seen, streamError]

/-- A part of the events shows a part of the text. -/
theorem exists_rest_of_prefix {events : List Event} (h : ∀ event ∈ events, event.Sent)
    {seen : List StreamEvent} (hseen : seen <+: events.map Event.seen) :
    ∃ rest, (showEvents seen).text ++ rest = String.join (events.filterMap Event.content) ∧
      (seen = events.map Event.seen → rest = "") := by
  obtain ⟨more, hmore⟩ := hseen
  obtain ⟨first, last, rfl, hfirst, hlast⟩ := List.map_eq_append_iff.mp hmore.symm
  refine ⟨String.join (last.filterMap Event.content), ?_, ?_⟩
  · have hshown := showEvents_seen (fun e he => h e (List.mem_append_left _ he)) {}
    rw [← hfirst, showEvents, hshown, List.filterMap_append, String.join_append]
    exact congrArg (· ++ _) (String.empty_append)
  · intro hall
    rw [hall] at hmore
    have hnil : last = [] := by
      rw [List.append_right_eq_self, ← hlast] at hmore
      exact List.map_eq_nil_iff.mp hmore
    rw [hnil, List.filterMap_nil, String.join_nil]

end

/-- **The reply that is shown is the reply that is stored.** The placeholder still streams when
the stream is finalized, so nobody has settled the turn before (`hstreaming`). Then for every
provider stream, every consumer, every order of the lines of an event, pings anywhere, and every
cut of the text into pieces: with the line feed as the line end, the client gets the first of the
forwarded events, in order and unchanged, and what it shows after the text that it continues is
the start of the stored reply. When the whole text has arrived, that is all of the events and all
of the reply, and the client has seen an error exactly when the reply is stored as one. With
another line end the client gets no event. -/
theorem reply_shown_as_stored (env : Env) (nonce : Nonce) (store : Store) (gen : Generation)
    (closeAt : Option Nat) {m : Message} (hm : store.message? gen.placeholder = some m)
    (hstreaming : m.status = .streaming) (F : Framing) (ending : Text) (hF : F.Documented ending)
    (sends : List (Option Event))
    (hsends : sends.reduceOption =
      (persistStream env.primitives env.settings nonce store gen closeAt).1)
    (pieces : List Text) (hpieces : pieces.flatten <+: F.wire gen.mask sends) :
    ∃ store' m', (persistStream env.primitives env.settings nonce store gen closeAt).2 =
      .ok store' ∧ store'.message? gen.placeholder = some m' ∧
      (ending = [lf] →
        readStream pieces <+: sends.reduceOption.map Event.seen ∧
        ∃ rest, env.text m' =
            .ok (gen.prefixText ++ ((showEvents (readStream pieces)).text ++ rest)) ∧
          (pieces.flatten = F.wire gen.mask sends →
            readStream pieces = sends.reduceOption.map Event.seen ∧ rest = "" ∧
            ((showEvents (readStream pieces)).ok = false ↔ m'.status = .error))) ∧
      (ending ≠ [lf] → readStream pieces = []) := by
  obtain ⟨stored, encrypted, hseal⟩ := exists_seal env.ring_eq nonce
    (String.join (gen.loop closeAt).1.buffer) gen.isProtected
  have hevents : sends.reduceOption = (gen.loop closeAt).2 := hsends
  have hsent : ∀ event ∈ sends.reduceOption, event.Sent := by
    rw [hevents]
    exact sent_of_loop gen closeAt
  have hsent' : ∀ event, some event ∈ sends → event.Sent :=
    fun event hmem => hsent event (List.reduceOption_mem_iff.mpr hmem)
  have hpersist : (persistStream env.primitives env.settings nonce store gen closeAt).2 =
      .ok (finalizeMessage store gen.placeholder stored encrypted (gen.loop closeAt).1.status
        (some (gen.stamp (gen.loop closeAt).1.extra))).1 := by
    simp only [persistStream, hseal]
    rfl
  refine ⟨_, _, hpersist, message?_write hm (beq_iff_eq.mpr hstreaming), ?_, ?_⟩
  · rintro rfl
    have hfaithful : Faithful env gen closeAt (gen.loop closeAt).2
        (Write.apply (.finalize stored encrypted (gen.loop closeAt).1.status
          (some (gen.stamp (gen.loop closeAt).1.extra))) m) :=
      faithful_of_loop (unsealContent_sealContent hseal) rfl rfl
    obtain ⟨blocks, hwire, hlines, hread⟩ := exists_blocks gen.mask hF hsent'
    have hstart : readStream pieces <+: sends.reduceOption.map Event.seen := by
      rw [← hread, ← takeBlocks_blocks hlines, ← hwire]
      exact (readPieces_part hpieces).filterMap parseFrame
    obtain ⟨rest, hrest, hempty⟩ := exists_rest_of_prefix hsent hstart
    refine ⟨hstart, rest, ?_, ?_⟩
    · rw [hrest, hevents, hfaithful.deltas]
      exact hfaithful.text
    · intro hwhole
      have hall : readStream pieces = sends.reduceOption.map Event.seen := by
        rw [← hread, ← takeBlocks_blocks hlines, ← hwire, ← hwhole, readStream,
          readPieces_eq [] rfl]
        rfl
      refine ⟨hall, hempty hall, ?_⟩
      rw [hfaithful.error, hall, showEvents, showEvents_seen hsent, hevents]
      simp
  · exact fun hending => by
      rw [readStream, readPieces_eq_nil (apart_wire hF hending hsent') hpieces,
        List.filterMap_nil]

/-! ### A stream -/

/-- A package that writes the lines as they are, and a ping as a comment. -/
def plainFraming (ending : Text) : Framing where
  encode := block ending
  ping := block ending [": ping".toList]

theorem plainFraming_documented {ending : Text} (h : ending ∈ [[lf], [cr, lf], [cr]]) :
    (plainFraming ending).Documented ending where
  lineEnd := h
  encode lines _ := ⟨lines, List.Perm.refl lines, rfl⟩
  ping := ⟨" ping".toList, by decide, by decide, rfl⟩

/-- A ping, and then the events of a continued reply whose provider fails. -/
def failingSends : List (Option Event) :=
  none :: (failingGeneration.loop none).2.map some

/-- The text of the response, cut after its ninth character. -/
def failingPieces : List Text :=
  [((plainFraming [lf]).wire true failingSends).take 9,
    ((plainFraming [lf]).wire true failingSends).drop 9]

/-- The reader sees all of the text before the error, and that there was one. -/
theorem reply_shown_as_stored_failing : ∃ store' m',
    (persistStream openEnv.primitives openEnv.settings ⟨List.replicate 12 0, rfl⟩ placeholderStore
      failingGeneration none).2 = .ok store' ∧
    store'.message? 201 = some m' ∧
    openEnv.text m' = .ok ("Oh. " ++ (showEvents (readStream failingPieces)).text) ∧
    ((showEvents (readStream failingPieces)).ok = false ↔ m'.status = .error) := by
  have hwhole : failingPieces.flatten = (plainFraming [lf]).wire true failingSends := by
    rw [failingPieces, List.flatten_cons, List.flatten_cons, List.flatten_nil, List.append_nil,
      List.take_append_drop]
  have hsends : failingSends.reduceOption = (failingGeneration.loop none).2 := by
    simp [failingSends, List.reduceOption]
  obtain ⟨store', m', hpersist, hrow, hfeed, -⟩ :=
    reply_shown_as_stored openEnv ⟨List.replicate 12 0, rfl⟩ placeholderStore
      failingGeneration none rfl rfl
      (plainFraming [lf]) [lf] (plainFraming_documented List.mem_cons_self) failingSends hsends
      failingPieces (hwhole ▸ List.prefix_refl _)
  obtain ⟨-, rest, htext, hall⟩ := hfeed rfl
  obtain ⟨-, rfl, herror⟩ := hall hwhole
  rw [String.append_empty] at htext
  exact ⟨store', m', hpersist, hrow, htext, herror⟩

end RedTeaming.Conversations
