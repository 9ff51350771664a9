import RedTeaming.Conversations.Messages
import RedTeaming.Library.Locks
import RedTeaming.Library.Lookup
import RedTeaming.Library.Transition

/-!
# `RedTeaming.Conversations.MessageSystem`: the writers of the message store

The transactions that write turns and messages, side by side: `send_message` with `open_turn`,
`open_replacement` for regenerate and continue, `finalize_message` (the end of a stream, or an
error before it), the stale-stream reaper, and a chunk of the key-rotation sweep. A step is one
database statement of one transaction.

- A statement reads the committed store of its moment (READ COMMITTED).
- `get_conversation` with `for_update` waits for the conversation's row lock.
- A guarded `UPDATE` passes over a row that does not meet its guard. Otherwise it waits for the
  row's lock, and then looks at the row again.
- An `INSERT` takes the keys of its rows in the unique indexes. It fails on a key of a committed
  row, and waits for a key of an open insert.

The locks and keys are held to the end of the transaction. What the statements read of other
tables (the visibility of the conversation, the uploaded images, the tagging policy) is part of
the label: it can be anything at any time. A transaction can end by `abort` at any time.
-/

set_option autoImplicit false

namespace RedTeaming.Conversations

open RedTeaming.Library

abbrev TxnId := Nat

/-- What does not change while the system runs: the libraries, the secrets with a key ring that
was checked at startup, and the protection that each conversation was created with. -/
structure Env where
  primitives : Primitives
  settings : Settings
  contentProtected : ConversationId → Bool
  ring : String × List (String × Bytes)
  ring_eq : keyring primitives settings = .ok ring

/-- A request or a job. -/
inductive Request
  | send (evaluation : Nat) (conversation : ConversationId) (caller : Nat) (content : String)
      (clientMessageId : Option Nat) (imageKeys : List String) (tags : List (String × String))
      (nonce : Nonce)
  | replace (evaluation : Nat) (conversation : ConversationId) (message : MessageId)
  | finalize (message : MessageId) (content : String) (encrypted : Bool) (status : TerminalStatus)
      (extra : Option JsonObject)
  | reap (cutoff : Nat)
  | rewrap (rows : List (MessageId × Nonce))

/-- How a request ended. `lost` is a transaction that rolled back for no reason of its own. -/
inductive Response
  | opened (turn : TurnId)
  | replayed (turn : TurnId)
  | replaced (message : MessageId)
  | updated
  | refused (error : ApiError)
  | lost
deriving DecidableEq

/-- Where a transaction is. -/
inductive Phase
  | begun
  | locked
  | attached
  | fresh
  | numbered (index : Nat)
  | opened (turn : TurnId)
  | prompted (turn : TurnId) (message : MessageId)
  | illustrated (turn : TurnId)
  | target (m : Message)
  | latest (m : Message)
  | flipping (m : Message)
  | updating
  | ready (response : Response)
  | failed (error : ApiError)

/-- The transaction is at its guarded updates. -/
def Phase.isUpdating : Phase → Bool
  | .flipping _ => true
  | .updating => true
  | _ => false

/-- An open transaction: its guarded updates still to do, and its writes. -/
structure Txn where
  request : Request
  phase : Phase
  startedAt : Nat
  todo : List (MessageId × Write) := []
  updates : List (MessageId × Write) := []
  turns : List Turn := []
  messages : List Message := []
  images : List MessageImage := []

/-- A key of a unique index. -/
inductive Key
  | turn (id : TurnId)
  | turnIndex (c : ConversationId) (index : Nat)
  | message (id : MessageId)
  | clientMessageId (k : Nat)
  | replaces (id : MessageId)
deriving DecidableEq

/-- The keys of a turn. -/
def Turn.keys (turn : Turn) : List Key := [.turn turn.id, .turnIndex turn.conversation turn.index]

/-- The keys of a message. The indexes on `client_message_id` and `replaces_message_id` leave null
out. -/
def Message.keys (m : Message) : List Key :=
  .message m.id :: (m.clientMessageId.map Key.clientMessageId).toList
    ++ (m.replaces.map Key.replaces).toList

/-- The keys of the rows of a store. -/
def Store.keys (store : Store) : List Key :=
  store.turns.flatMap Turn.keys ++ store.messages.flatMap Message.keys

/-- The committed store, the open transactions with their locks, and how the others ended. -/
structure State where
  store : Store
  txns : TxnId → Option Txn
  answers : TxnId → Option (Request × Response)
  conversationLock : Locks ConversationId TxnId
  rowLock : Locks MessageId TxnId
  keyLock : Locks Key TxnId
  now : Nat

/-- The row as the transaction sees it, with its own updates. -/
def Txn.view (txn : Txn) (m : Message) : Message :=
  txn.updates.foldr (fun w m' => if w.1 = m.id then w.2.apply m' else m') m

/-- What inserting rows with these keys runs into. -/
inductive InsertOutcome
  | violates
  | waits
  | inserts
deriving DecidableEq

namespace State

/-- Write the record of a transaction. -/
def setTxn (s : State) (t : TxnId) (txn : Txn) : State :=
  { s with txns := Function.update s.txns t (some txn) }

@[simp, grind =] theorem setTxn_store (s : State) (t : TxnId) (txn : Txn) :
    (s.setTxn t txn).store = s.store := rfl

@[simp, grind =] theorem setTxn_answers (s : State) (t : TxnId) (txn : Txn) :
    (s.setTxn t txn).answers = s.answers := rfl

@[simp] theorem setTxn_rowLock (s : State) (t : TxnId) (txn : Txn) :
    (s.setTxn t txn).rowLock = s.rowLock := rfl

@[simp, grind =] theorem setTxn_txns_self (s : State) (t : TxnId) (txn : Txn) :
    (s.setTxn t txn).txns t = some txn := Function.update_self _ _ _

/-- The records of the other transactions stay. -/
@[simp, grind =] theorem setTxn_txns_of_ne {s : State} {t t' : TxnId} {txn : Txn} (h : t' ≠ t) :
    (s.setTxn t txn).txns t' = s.txns t' := Function.update_of_ne h _ _

/-- An exception leaves the transaction only its rollback. -/
def fail (s : State) (t : TxnId) (txn : Txn) (error : ApiError) : State :=
  s.setTxn t { txn with phase := .failed error }

/-- What an insert runs into. -/
def insertOutcome (s : State) (t : TxnId) (keys : List Key) : InsertOutcome :=
  if keys.any (fun k => s.store.keys.contains k) || !decide keys.Nodup then .violates
  else if keys.all fun k => s.keyLock.mayTake k t then .inserts
  else .waits

/-- The key locks after an insert. -/
def takeKeys (s : State) (t : TxnId) (keys : List Key) : State :=
  { s with keyLock := s.keyLock.takeAll keys t }

@[simp, grind =] theorem takeKeys_store (s : State) (t : TxnId) (keys : List Key) :
    (s.takeKeys t keys).store = s.store := rfl

@[simp, grind =] theorem takeKeys_answers (s : State) (t : TxnId) (keys : List Key) :
    (s.takeKeys t keys).answers = s.answers := rfl

@[simp, grind =] theorem takeKeys_txns (s : State) (t : TxnId) (keys : List Key) :
    (s.takeKeys t keys).txns = s.txns := rfl

/-- Start a request. A job has no lock to take first. -/
def begin (s : State) (t : TxnId) (request : Request) : Option State :=
  match s.txns t, s.answers t with
  | none, none => some (s.setTxn t { request, phase := .begun, startedAt := s.now })
  | _, _ => none

/-- The conversation that the request locks. -/
def lockTarget : Request → Option (Nat × ConversationId)
  | .send evaluation c _ _ _ _ _ _ => some (evaluation, c)
  | .replace evaluation c _ => some (evaluation, c)
  | _ => none

/-- `get_conversation` with `for_update`. A conversation that the caller may not see is a 404. -/
def lock (s : State) (t : TxnId) (txn : Txn) (visible : Bool) : Option State :=
  match txn.phase, lockTarget txn.request with
  | .begun, some (evaluation, c) =>
    if !visible then
      some (s.fail t txn (.notFound ("Conversation " ++ toString c ++ " not found in evaluation "
        ++ toString evaluation ++ ".")))
    else if s.conversationLock.mayTake c t then
      some ({ s with conversationLock := s.conversationLock.take c t }.setTxn t
        { txn with phase := .locked })
    else none
  | _, _ => none

/-! ### `send_message` and `open_turn` -/

/-- `_validate_attachments`. -/
def attach (s : State) (t : TxnId) (txn : Txn) (assets : List MediaAsset) : Option State :=
  match txn.phase, txn.request with
  | .locked, .send _ _ caller _ _ imageKeys _ _ =>
    match validateAttachments assets caller imageKeys with
    | .ok _ => some (s.setTxn t { txn with phase := .attached })
    | .error e => some (s.fail t txn e)
  | _, _ => none

/-- The check for a repeat: replay the turn, or refuse the key of another conversation. -/
def replay (s : State) (t : TxnId) (txn : Txn) : Option State :=
  match txn.phase, txn.request with
  | .attached, .send _ c _ _ clientMessageId _ _ _ =>
    match clientMessageId with
    | none => some (s.setTxn t { txn with phase := .fresh })
    | some k =>
      match s.store.replay c k with
      | .ok none => some (s.setTxn t { txn with phase := .fresh })
      | .ok (some turn) => some (s.setTxn t { txn with phase := .ready (.replayed turn) })
      | .error e => some (s.fail t txn e)
  | _, _ => none

/-- `max(turn_index) + 1`. -/
def number (s : State) (t : TxnId) (txn : Txn) : Option State :=
  match txn.phase, txn.request with
  | .fresh, .send _ c _ _ _ _ _ _ =>
    some (s.setTxn t { txn with phase := .numbered (s.store.nextIndex c) })
  | _, _ => none

/-- Insert the turn. -/
def insertTurn (s : State) (t : TxnId) (txn : Txn) (id : TurnId) : Option State :=
  match txn.phase, txn.request with
  | .numbered index, .send _ c _ _ _ _ _ _ =>
    let turn : Turn := { id, conversation := c, index }
    match s.insertOutcome t turn.keys with
    | .violates =>
      some (s.fail t txn (.conflict "Concurrent turn creation; retry the request."))
    | .waits => none
    | .inserts =>
      some ((s.takeKeys t turn.keys).setTxn t { txn with phase := .opened id, turns := [turn] })
  | _, _ => none

/-- Insert the user message and the placeholder of the reply. -/
def insertMessages (env : Env) (s : State) (t : TxnId) (txn : Txn)
    (promptId replyId : MessageId) : Option State :=
  match txn.phase, txn.request with
  | .opened turn, .send _ c _ content clientMessageId _ tags nonce =>
    match sealContent env.primitives env.settings nonce content (env.contentProtected c) with
    | .error e => some (s.fail t txn (.runtimeError e.detail))
    | .ok (stored, encrypted) =>
      let prompt : Message :=
        { id := promptId, turn, role := .user, status := .complete, content := stored
          contentEncrypted := encrypted, clientMessageId, tags, createdAt := txn.startedAt }
      let reply : Message :=
        { id := replyId, turn, role := .assistant, status := .streaming
          createdAt := txn.startedAt }
      match s.insertOutcome t (prompt.keys ++ reply.keys) with
      | .violates =>
        some (s.fail t txn (.conflict
          "Concurrent submission of the same client_message_id; retry the request."))
      | .waits => none
      | .inserts =>
        some ((s.takeKeys t (prompt.keys ++ reply.keys)).setTxn t
          { txn with phase := .prompted turn promptId, messages := [reply, prompt] })
  | _, _ => none

/-- Insert the attached images, in their order. -/
def insertImages (s : State) (t : TxnId) (txn : Txn) : Option State :=
  match txn.phase, txn.request with
  | .prompted turn message, .send _ _ _ _ _ imageKeys _ _ =>
    let images := imageKeys.mapIdx fun position imageKey => { message, position, imageKey }
    some (s.setTxn t { txn with phase := .illustrated turn, images })
  | _, _ => none

/-- `assert_tags_allowed`, for a turn that this request opened. -/
def allowTags (s : State) (t : TxnId) (txn : Txn) (policy : Option TagPolicy) : Option State :=
  match txn.phase, txn.request with
  | .illustrated turn, .send _ _ _ _ _ _ tags _ =>
    match assertTagsAllowed policy tags with
    | .ok _ => some (s.setTxn t { txn with phase := .ready (.opened turn) })
    | .error e => some (s.fail t txn e)
  | _, _ => none

/-! ### `open_replacement` -/

/-- Fetch the reply to supersede. -/
def readTarget (s : State) (t : TxnId) (txn : Txn) : Option State :=
  match txn.phase, txn.request with
  | .locked, .replace _ c id =>
    match s.store.conversationMessage c id with
    | .error e => some (s.fail t txn e)
    | .ok m =>
      if m.role ≠ .assistant then
        some (s.fail t txn
          (.badRequest ("Message " ++ toString id ++ " is not an assistant reply.")))
      else some (s.setTxn t { txn with phase := .target m })
  | _, _ => none

/-- The reply must be in the last turn of the conversation. -/
def readLatest (s : State) (t : TxnId) (txn : Txn) : Option State :=
  match txn.phase, txn.request with
  | .target m, .replace _ c id =>
    match s.store.turn? m.turn with
    | none => none
    | some turn =>
      if some turn.index ≠ ((s.store.turnsOf c).map Turn.index).max? then
        some (s.fail t txn (.conflict ("Message " ++ toString id
          ++ " is not in the conversation's last turn; "
          ++ "only the latest reply can be regenerated or continued.")))
      else some (s.setTxn t { txn with phase := .latest m })
  | _, _ => none

/-- Nothing may supersede the reply yet. One that still streams is flipped to `interrupted`. -/
def readSuccessor (s : State) (t : TxnId) (txn : Txn) : Option State :=
  match txn.phase, txn.request with
  | .latest m, .replace _ _ id =>
    if s.store.isSuperseded id then
      some (s.fail t txn
        (.conflict ("Message " ++ toString id ++ " has already been superseded.")))
    else
      let flip := Write.finalize m.content m.contentEncrypted
        ⟨.interrupted, MessageStatus.noConfusion⟩ none
      let todo := if m.status = .streaming then [(m.id, flip)] else []
      some (s.setTxn t { txn with phase := .flipping m, todo })
  | _, _ => none

/-- Insert the placeholder that supersedes the reply. -/
def insertReplacement (s : State) (t : TxnId) (txn : Txn) (id : MessageId) : Option State :=
  match txn.phase, txn.todo with
  | .flipping m, [] =>
    let placeholder : Message :=
      { id, turn := m.turn, role := .assistant, status := .streaming, slot := m.slot
        replaces := some m.id, createdAt := txn.startedAt }
    match s.insertOutcome t placeholder.keys with
    | .violates => some (s.fail t txn
        (.runtimeError "duplicate key value violates unique constraint"))
    | .waits => none
    | .inserts =>
      some ((s.takeKeys t placeholder.keys).setTxn t
        { txn with phase := .ready (.replaced id), messages := [placeholder] })
  | _, _ => none

/-! ### Guarded updates -/

/-- The updates of a job: one row for a finalize, the rows that the reaper finds, and the sealed
rows of a chunk of the sweep that a key opens. -/
def jobUpdates (env : Env) (store : Store) : Request → List (MessageId × Write)
  | .finalize id content encrypted status extra =>
    [(id, .finalize content encrypted status extra)]
  | .reap cutoff =>
    (store.messages.filter (Write.reap cutoff).guard).map fun m => (m.id, .reap cutoff)
  | .rewrap rows => rows.filterMap fun row =>
    (store.message? row.1).bind fun m =>
      if m.contentEncrypted then
        match unsealContent env.primitives env.settings m.content true with
        | .error _ => none
        | .ok opened =>
          match sealContent env.primitives env.settings row.2 opened true with
          | .error _ => none
          | .ok (fresh, encrypted) => some (m.id, .rewrap m.content fresh encrypted)
      else none
  | _ => []

/-- Start the updates of a job. -/
def startJob (env : Env) (s : State) (t : TxnId) (txn : Txn) : Option State :=
  match txn.phase, lockTarget txn.request with
  | .begun, none =>
    some (s.setTxn t { txn with phase := .updating, todo := jobUpdates env s.store txn.request })
  | _, _ => none

/-- Update the next row: pass over it, lock and write it, or wait. -/
def update (s : State) (t : TxnId) (txn : Txn) : Option State :=
  match txn.phase.isUpdating, txn.todo with
  | false, _ => none
  | true, [] => none
  | true, (id, w) :: todo =>
    match s.store.message? id with
    | none => some (s.setTxn t { txn with todo })
    | some m =>
      if w.guard (txn.view m) then
        if s.rowLock.mayTake id t then
          some ({ s with rowLock := s.rowLock.take id t }.setTxn t
            { txn with todo, updates := (id, w) :: txn.updates })
        else none
      else some (s.setTxn t { txn with todo })

/-- A job is done when no update is left. -/
def endJob (s : State) (t : TxnId) (txn : Txn) : Option State :=
  match txn.phase, txn.todo with
  | .updating, [] => some (s.setTxn t { txn with phase := .ready .updated })
  | _, _ => none

/-! ### The end of a transaction -/

/-- The committed store after the writes of a transaction. -/
def written (s : State) (txn : Txn) : Store where
  turns := txn.turns ++ s.store.turns
  messages := txn.messages ++ s.store.messages.map txn.view
  images := txn.images ++ s.store.images

/-- End a transaction: drop its record and its locks, and note how its request ended. -/
def finish (s : State) (t : TxnId) (answer : Request × Response) : State :=
  { s with
      txns := Function.update s.txns t none
      answers := Function.update s.answers t (some answer)
      conversationLock := s.conversationLock.release t
      rowLock := s.rowLock.release t
      keyLock := s.keyLock.release t }

@[simp] theorem finish_store (s : State) (t : TxnId) (answer : Request × Response) :
    (s.finish t answer).store = s.store := rfl

@[simp] theorem finish_txns_self (s : State) (t : TxnId) (answer : Request × Response) :
    (s.finish t answer).txns t = none := Function.update_self _ _ _

@[simp] theorem finish_answers_self (s : State) (t : TxnId) (answer : Request × Response) :
    (s.finish t answer).answers t = some answer := Function.update_self _ _ _

/-- The records of the other transactions stay. -/
@[simp] theorem finish_txns_of_ne {s : State} {t t' : TxnId} {answer : Request × Response}
    (h : t' ≠ t) : (s.finish t answer).txns t' = s.txns t' := Function.update_of_ne h _ _

/-- The answers to the other requests stay. -/
@[simp] theorem finish_answers_of_ne {s : State} {t t' : TxnId} {answer : Request × Response}
    (h : t' ≠ t) : (s.finish t answer).answers t' = s.answers t' := Function.update_of_ne h _ _

/-- Commit, when every statement is done. -/
def commit (s : State) (t : TxnId) (txn : Txn) : Option State :=
  match txn.phase with
  | .ready response => some ({ s with store := s.written txn }.finish t (txn.request, response))
  | _ => none

/-- Roll back. -/
def abort (s : State) (t : TxnId) (txn : Txn) : State :=
  match txn.phase with
  | .failed error => s.finish t (txn.request, .refused error)
  | _ => s.finish t (txn.request, .lost)

end State

/-- A label: a statement of a transaction with what it reads of other tables, or the passing of a
second. -/
inductive Label
  | tick
  | begin (t : TxnId) (request : Request)
  | lock (t : TxnId) (visible : Bool)
  | attach (t : TxnId) (assets : List MediaAsset)
  | replay (t : TxnId)
  | number (t : TxnId)
  | insertTurn (t : TxnId) (id : TurnId)
  | insertMessages (t : TxnId) (promptId replyId : MessageId)
  | insertImages (t : TxnId)
  | allowTags (t : TxnId) (policy : Option TagPolicy)
  | readTarget (t : TxnId)
  | readLatest (t : TxnId)
  | readSuccessor (t : TxnId)
  | insertReplacement (t : TxnId) (id : MessageId)
  | startJob (t : TxnId)
  | update (t : TxnId)
  | endJob (t : TxnId)
  | commit (t : TxnId)
  | abort (t : TxnId)

/-- One step of the system. -/
def step (env : Env) (s : State) : Label → Option State
  | .tick => some { s with now := s.now + 1 }
  | .begin t request => s.begin t request
  | .lock t visible => (s.txns t).bind (s.lock t · visible)
  | .attach t assets => (s.txns t).bind (s.attach t · assets)
  | .replay t => (s.txns t).bind (s.replay t)
  | .number t => (s.txns t).bind (s.number t)
  | .insertTurn t id => (s.txns t).bind (s.insertTurn t · id)
  | .insertMessages t promptId replyId =>
    (s.txns t).bind (s.insertMessages env t · promptId replyId)
  | .insertImages t => (s.txns t).bind (s.insertImages t)
  | .allowTags t policy => (s.txns t).bind (s.allowTags t · policy)
  | .readTarget t => (s.txns t).bind (s.readTarget t)
  | .readLatest t => (s.txns t).bind (s.readLatest t)
  | .readSuccessor t => (s.txns t).bind (s.readSuccessor t)
  | .insertReplacement t id => (s.txns t).bind (s.insertReplacement t · id)
  | .startJob t => (s.txns t).bind (s.startJob env t)
  | .update t => (s.txns t).bind (s.update t)
  | .endJob t => (s.txns t).bind (s.endJob t)
  | .commit t => (s.txns t).bind (s.commit t)
  | .abort t => (s.txns t).map (s.abort t)

end RedTeaming.Conversations
