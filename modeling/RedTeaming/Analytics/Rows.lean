import RedTeaming.AiGateway.Models
import RedTeaming.Annotations.Rows
import RedTeaming.Conversations.Rows
import RedTeaming.Reviews.Rows

/-!
# `RedTeaming.Analytics.Rows`: the tables that the metrics read

The metrics of `core/analytics/services/metrics.py` join the tables of several domains. Here are
the columns of turns and messages that they read, the tables together, and the three joins that
the queries share: a submission with its conversation, a message with its turn and its
conversation, and the live messages that a submission selects. Every row of a join is live.
-/

set_option autoImplicit false

namespace RedTeaming.Analytics

open RedTeaming.Annotations RedTeaming.Auth RedTeaming.Conversations RedTeaming.Evaluations
open RedTeaming.Library RedTeaming.Reviews

/-- A row of `turns`. -/
structure Turn extends BaseModel where
  conversationId : UUID
  turnIndex : Nat
deriving DecidableEq

/-- A row of `messages`. `extra` is what the finalize of a reply stored, with the usage report of
the provider in it. -/
structure Message extends BaseModel where
  turnId : UUID
  extra : JsonObject := []

instance : Entity Turn :=
  ⟨(·.toBaseModel), fun r b => { r with toBaseModel := b }, fun _ _ => rfl⟩
instance : Entity Message :=
  ⟨(·.toBaseModel), fun r b => { r with toBaseModel := b }, fun _ _ => rfl⟩

/-- The tables. -/
structure Database where
  auth : Directory
  roleAssignments : List Auth.Assignment
  models : Table AiGateway.AiModel
  evaluations : Table Evaluation
  assignments : Table EvaluationAiModel
  scenarios : Table Scenario
  tasks : Table Task
  conversations : Table Conversation
  turns : Table Turn
  messages : Table Message
  flags : Table MessageFlag
  flaggedMessages : List FlaggedMessage
  reviews : Table Review

/-- A flag joined to its conversation. -/
structure Submission where
  flag : MessageFlag
  conversation : Conversation

/-- A message joined to its turn and its conversation. -/
structure LiveMessage where
  message : Message
  turn : Turn
  conversation : Conversation

/-- The user is the viewer, or no viewer narrows the read. -/
def seenBy (viewer : Option UserId) (user : UserId) : Bool := viewer.all (· == user)

namespace Database

/-- The join of a live flag with its live conversation. -/
def submission? (db : Database) (flag : MessageFlag) : Option Submission :=
  (findLive db.conversations flag.conversationId).map fun conversation => ⟨flag, conversation⟩

/-- The live submissions. -/
def submissions (db : Database) : List Submission :=
  (liveSelect db.flags).filterMap db.submission?

/-- The join of a live message with its live turn and its live conversation. -/
def liveMessage? (db : Database) (message : Message) : Option LiveMessage := do
  let turn ← findLive db.turns message.turnId
  let conversation ← findLive db.conversations turn.conversationId
  return ⟨message, turn, conversation⟩

/-- The live messages. -/
def liveMessages (db : Database) : List LiveMessage :=
  (liveSelect db.messages).filterMap db.liveMessage?

/-- The live submissions of the evaluations that the viewer sees. -/
def scopedSubmissions (db : Database) (evalIds : List UUID) (viewer : Option UserId) :
    List Submission :=
  db.submissions.filter fun s =>
    decide (s.flag.evaluationId ∈ evalIds) && seenBy viewer s.flag.createdById

/-- The live messages of the evaluations' conversations that the viewer sees. -/
def scopedMessages (db : Database) (evalIds : List UUID) (viewer : Option UserId) :
    List LiveMessage :=
  db.liveMessages.filter fun m =>
    decide (m.conversation.evaluationId ∈ evalIds) && seenBy viewer m.conversation.userId

end Database

/-! ### Scopes

The queries of a group range over its evaluations, and those of one evaluation over that one. -/

section
variable {db : Database} {evalIds : List UUID} {viewer : Option UserId} {evaluationId : UUID}

/-- What a query finds over one evaluation is the part of that evaluation in what it finds over
several. -/
theorem filter_scope_singleton {ρ : Type} (key : ρ → UUID) (q : ρ → Bool) (rows : List ρ)
    (h : evaluationId ∈ evalIds) :
    (rows.filter fun r => decide (key r ∈ [evaluationId]) && q r) =
      (rows.filter fun r => decide (key r ∈ evalIds) && q r).filter fun r =>
        key r = evaluationId := by
  rw [List.filter_filter]
  apply List.filter_congr
  intro r _
  by_cases hr : key r = evaluationId <;> simp [hr, h]

/-- The submissions of one evaluation are its part of the submissions of several. -/
theorem scopedSubmissions_singleton (h : evaluationId ∈ evalIds) :
    db.scopedSubmissions [evaluationId] viewer =
      (db.scopedSubmissions evalIds viewer).filter fun s => s.flag.evaluationId = evaluationId :=
  filter_scope_singleton (fun s : Submission => s.flag.evaluationId) _ _ h

/-- The messages of one evaluation are its part of the messages of several. -/
theorem scopedMessages_singleton (h : evaluationId ∈ evalIds) :
    db.scopedMessages [evaluationId] viewer =
      (db.scopedMessages evalIds viewer).filter fun m =>
        m.conversation.evaluationId = evaluationId :=
  filter_scope_singleton (fun m : LiveMessage => m.conversation.evaluationId) _ _ h

/-- A submission in scope is of one of the evaluations. -/
theorem evaluationId_mem_of_mem_scopedSubmissions {s : Submission}
    (h : s ∈ db.scopedSubmissions evalIds viewer) : s.flag.evaluationId ∈ evalIds := by
  have hscope := (List.mem_filter.mp h).2
  rw [Bool.and_eq_true] at hscope
  exact of_decide_eq_true hscope.1

/-- A message in scope is of a conversation of one of the evaluations. -/
theorem evaluationId_mem_of_mem_scopedMessages {m : LiveMessage}
    (h : m ∈ db.scopedMessages evalIds viewer) : m.conversation.evaluationId ∈ evalIds := by
  have hscope := (List.mem_filter.mp h).2
  rw [Bool.and_eq_true] at hscope
  exact of_decide_eq_true hscope.1

/-- A submission in scope is of a flag of the table. -/
theorem flag_mem_of_mem_scopedSubmissions {s : Submission}
    (h : s ∈ db.scopedSubmissions evalIds viewer) : s.flag ∈ db.flags := by
  obtain ⟨flag, hflag, hs⟩ := List.mem_filterMap.mp (List.mem_filter.mp h).1
  obtain ⟨conversation, -, rfl⟩ := Option.map_eq_some_iff.mp hs
  exact (mem_liveSelect.mp hflag).1

/-- A submission in scope is of a conversation of the table, the one that its flag names. -/
theorem conversation_of_mem_scopedSubmissions {s : Submission}
    (h : s ∈ db.scopedSubmissions evalIds viewer) :
    s.conversation ∈ db.conversations ∧ s.conversation.id = s.flag.conversationId := by
  obtain ⟨flag, -, hs⟩ := List.mem_filterMap.mp (List.mem_filter.mp h).1
  obtain ⟨conversation, hconversation, rfl⟩ := Option.map_eq_some_iff.mp hs
  have hrow := findLive_eq_some.mp hconversation
  exact ⟨hrow.1, hrow.2.1⟩

/-- A message in scope is of a conversation of the table. -/
theorem conversation_mem_of_mem_scopedMessages {m : LiveMessage}
    (h : m ∈ db.scopedMessages evalIds viewer) : m.conversation ∈ db.conversations := by
  obtain ⟨message, -, hm⟩ := List.mem_filterMap.mp (List.mem_filter.mp h).1
  obtain ⟨turn, -, hm⟩ := Option.bind_eq_some_iff.mp hm
  obtain ⟨conversation, hconversation, hm⟩ := Option.bind_eq_some_iff.mp hm
  cases hm
  exact (findLive_eq_some.mp hconversation).1

end

end RedTeaming.Analytics
