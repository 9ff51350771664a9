import Mathlib.Data.List.Basic
import RedTeaming.ApiError
import RedTeaming.Conversations.ContentCrypto
import RedTeaming.Library.Json

/-!
# `RedTeaming.Conversations.Messages`: turns and messages

The rows of `core/conversations/models.py`, and the pure parts of `services/messages.py`. The
lists of the store are newest first.

An assistant message opens as a `streaming` placeholder. Every later write of a row is a `Write`
with a guard, the `WHERE` clause of its `UPDATE`: a finalize and the reaper want a streaming row,
and the key-rotation sweep wants the very ciphertext that it read.
-/

set_option autoImplicit false

namespace RedTeaming.Conversations

open RedTeaming.Library

abbrev ConversationId := Nat
abbrev TurnId := Nat
abbrev MessageId := Nat

/-- `MessageRole`. -/
inductive MessageRole
  | user
  | assistant
  | system
deriving DecidableEq

/-- `MESSAGE_ROLE_ORDER`. -/
def MessageRole.order : MessageRole → Nat
  | .user => 0
  | .system => 1
  | .assistant => 2

/-- `MessageStatus`. -/
inductive MessageStatus
  | streaming
  | complete
  | interrupted
  | error
deriving DecidableEq

/-- A status in which a reply has ended. -/
abbrev TerminalStatus := { status : MessageStatus // status ≠ .streaming }

/-- A row of `turns`. -/
structure Turn where
  id : TurnId
  conversation : ConversationId
  index : Nat
deriving DecidableEq

/-- A row of `messages`. -/
structure Message where
  id : MessageId
  turn : TurnId
  role : MessageRole
  status : MessageStatus
  content : String := ""
  contentEncrypted : Bool := false
  slot : Option String := none
  clientMessageId : Option Nat := none
  replaces : Option MessageId := none
  extra : JsonObject := []
  tags : List (String × String) := []
  createdAt : Nat

/-- A row of `message_images`. -/
structure MessageImage where
  message : MessageId
  position : Nat
  imageKey : String
deriving DecidableEq

/-- The three tables. -/
structure Store where
  turns : List Turn
  messages : List Message
  images : List MessageImage

namespace Store

/-- The turns of a conversation. -/
def turnsOf (store : Store) (c : ConversationId) : List Turn :=
  store.turns.filter fun turn => turn.conversation == c

/-- The messages of a turn. -/
def messagesOf (store : Store) (turn : TurnId) : List Message :=
  store.messages.filter fun m => m.turn == turn

/-- The user messages of a turn. -/
def prompts (store : Store) (turn : TurnId) : List Message :=
  (store.messagesOf turn).filter fun m => m.role == .user

/-- The assistant messages of a turn. -/
def replies (store : Store) (turn : TurnId) : List Message :=
  (store.messagesOf turn).filter fun m => m.role == .assistant

/-- The message of an id. -/
def message? (store : Store) (id : MessageId) : Option Message :=
  store.messages.find? fun m => m.id == id

/-- The turn of an id. -/
def turn? (store : Store) (id : TurnId) : Option Turn :=
  store.turns.find? fun turn => turn.id == id

/-- `max(turn_index) + 1`, or `0` in a conversation without turns. -/
def nextIndex (store : Store) (c : ConversationId) : Nat :=
  match ((store.turnsOf c).map Turn.index).max? with
  | some i => i + 1
  | none => 0

/-- Some message supersedes the one of the id. -/
def isSuperseded (store : Store) (id : MessageId) : Bool :=
  store.messages.any fun m => m.replaces == some id

/-- The message with a client message id. -/
def messageByClientId (store : Store) (k : Nat) : Option Message :=
  store.messages.find? fun m => m.clientMessageId == some k

/-- Fetch a message of a turn of the conversation. -/
def conversationMessage (store : Store) (c : ConversationId) (id : MessageId) :
    Except ApiError Message :=
  let found := store.messages.find? fun m =>
    m.id == id && store.turns.any fun turn => turn.id == m.turn && turn.conversation == c
  match found with
  | some m => .ok m
  | none => .error
    (.notFound ("Message " ++ toString id ++ " not found in conversation " ++ toString c ++ "."))

/-- `_replay`: the turn that a client message id has opened in the conversation. -/
def replay (store : Store) (c : ConversationId) (k : Nat) : Except ApiError (Option TurnId) :=
  match store.messageByClientId k with
  | none => .ok none
  | some m =>
    let own := (store.turn? m.turn).any fun turn => turn.conversation == c
    if own then .ok (some m.turn)
    else .error (.conflict ("client_message_id " ++ toString k
      ++ " already used in another conversation."))

end Store

/-! ### Guarded writes of a row -/

/-- An `UPDATE` of one message. -/
inductive Write
  | finalize (content : String) (encrypted : Bool) (status : TerminalStatus)
      (extra : Option JsonObject)
  | reap (cutoff : Nat)
  | rewrap (stale fresh : String) (encrypted : Bool)

/-- The `WHERE` clause. -/
def Write.guard : Write → Message → Bool
  | .finalize _ _ _ _, m => m.status == .streaming
  | .reap cutoff, m => m.status == .streaming && decide (m.createdAt < cutoff)
  | .rewrap stale _ _, m => m.content == stale

/-- `_REAPER_PROVENANCE`. -/
def reaperProvenance : JsonObject := [("interrupted_by", .str "reaper")]

/-- The `SET` clause. -/
def Write.apply : Write → Message → Message
  | .finalize content encrypted status extra, m =>
    { m with content, status, contentEncrypted := encrypted, extra := extra.getD m.extra }
  | .reap _, m => { m with status := .interrupted, extra := mergeFields m.extra reaperProvenance }
  | .rewrap _ fresh encrypted, m => { m with content := fresh, contentEncrypted := encrypted }

/-- An `UPDATE` of the row of an id, and whether a row was updated. -/
def Store.write (store : Store) (id : MessageId) (w : Write) : Store × Bool :=
  let hit := fun m : Message => m.id == id && w.guard m
  ({ store with messages := store.messages.map fun m => if hit m then w.apply m else m },
    store.messages.any hit)

/-! ### What a request is checked against -/

/-- An uploaded image. -/
structure MediaAsset where
  key : String
  createdBy : Nat
  isPrivate : Bool
deriving DecidableEq

/-- Reject an attachment that is not the caller's own private upload. -/
def validateAttachments (assets : List MediaAsset) (caller : Nat) :
    List String → Except ApiError Unit
  | [] => .ok ()
  | key :: keys =>
    match assets.find? fun asset => asset.key == key with
    | none => .error (.badRequest ("Unknown image_key " ++ quoted key ++ "."))
    | some asset =>
      if asset.createdBy ≠ caller then
        .error (.badRequest ("Unknown image_key " ++ quoted key ++ "."))
      else if !asset.isPrivate then
        .error (.badRequest
          ("Attachment " ++ quoted key ++ " must be uploaded with is_private=true."))
      else validateAttachments assets caller keys

/-- The tagging policy of an evaluation. -/
structure TagPolicy where
  enabled : Bool
  restricted : Bool
  allowedKeys : List String
deriving DecidableEq

/-- `assert_tags_allowed`: reject tags that the policy disallows. `none` is an evaluation that is
not live. -/
def assertTagsAllowed (policy : Option TagPolicy) (tags : List (String × String)) :
    Except ApiError Unit :=
  if tags.isEmpty then .ok ()
  else
    match policy with
    | none => .error (.notFound "Evaluation not found.")
    | some policy =>
      if !policy.enabled then .error (.badRequest "Tagging is disabled for this evaluation.")
      else if !policy.restricted then .ok ()
      else
        let disallowed := (tags.map Prod.fst).filter fun key => !policy.allowedKeys.contains key
        check disallowed.isEmpty
          (.badRequest ("Tag key(s) not allowed for this evaluation: "
            ++ ", ".intercalate disallowed.mergeSort ++ "."))

end RedTeaming.Conversations
