import Mathlib.Data.Rat.Floor
import RedTeaming.Analytics.Rows
import RedTeaming.Library.Grouping

/-!
# `RedTeaming.Analytics.Tokens`: token spend

The token aggregates of `core/analytics/services/metrics.py`. A provider reports its usage in the
`extra` of a reply, and nothing bounds the report. `usageInt` reads one field of it, as a `bigint`
or as NULL. `messageTotalTokens` is the total of one message: the reported total, or the sum of
the other two fields. The sum is computed as a `bigint`, so it raises past the width, and then the
whole query fails.

An average is the exact quotient here. The source rounds it to a float.
-/

set_option autoImplicit false

namespace RedTeaming.Analytics

open RedTeaming.Library

/-- The largest `bigint`: `2**63 - 1`. -/
def bigintMax : Nat := 2 ^ 63 - 1

/-- The sum of two values of type `bigint`. -/
def bigintAdd (a b : Nat) : Except ApiError Nat :=
  if a + b ≤ bigintMax then .ok (a + b) else .error (.runtimeError "bigint out of range")

/-- The cast of a number that is not negative from `numeric` to `bigint`: a half rounds up. -/
def numericToBigint (q : Rat) : Nat := ⌊q + 1 / 2⌋.toNat

/-- `_usage_int`: one field of the usage report. Anything but a number from 0 to `bigintMax` reads
as NULL. -/
def usageInt (field : String) (extra : JsonObject) : Option Nat :=
  match extra.lookup "usage" with
  | some (.obj usage) =>
    match usage.lookup field with
    | some (.num q) => if 0 ≤ q ∧ q ≤ bigintMax then some (numericToBigint q) else none
    | _ => none
  | _ => none

/-- `_has_usage`: some field of the report is usable. -/
def hasUsage (extra : JsonObject) : Bool :=
  (usageInt "prompt_tokens" extra).isSome || (usageInt "completion_tokens" extra).isSome
    || (usageInt "total_tokens" extra).isSome

/-- `_message_total_tokens`: the reported total unless it is missing or zero, else prompt and
completion together. -/
def messageTotalTokens (extra : JsonObject) : Except ApiError Nat :=
  match (usageInt "total_tokens" extra).filter (· ≠ 0) with
  | some total => .ok total
  | none =>
    bigintAdd ((usageInt "prompt_tokens" extra).getD 0)
      ((usageInt "completion_tokens" extra).getD 0)

/-- `TokenAggregates`: the columns of `_token_aggregates`. -/
structure TokenAggregates where
  promptTokens : Nat
  completionTokens : Nat
  totalTokens : Nat
  messagesWithUsage : Nat
  conversationsWithUsage : Nat
deriving DecidableEq

/-- `TokenMetrics`: the aggregates with their averages. -/
structure TokenMetrics extends TokenAggregates where
  avgTokensPerMessage : Rat
  avgTokensPerConversation : Rat
deriving DecidableEq

/-- A message with its total. -/
structure Measured where
  source : LiveMessage
  total : Nat

/-- Evaluate the total of a message. -/
def measure (row : LiveMessage) : Except ApiError Measured := do
  let total ← messageTotalTokens row.message.extra
  return ⟨row, total⟩

/-- `_token_aggregates` of one group of rows. Only rows with usage count. -/
def tokenAggregates (rows : List Measured) : TokenAggregates :=
  let used := rows.filter fun row => hasUsage row.source.message.extra
  { promptTokens :=
      (used.map fun row => (usageInt "prompt_tokens" row.source.message.extra).getD 0).sum
    completionTokens :=
      (used.map fun row => (usageInt "completion_tokens" row.source.message.extra).getD 0).sum
    totalTokens := (used.map fun row => row.total).sum
    messagesWithUsage := used.length
    conversationsWithUsage := (used.map fun row => row.source.conversation.id).dedup.length }

/-- `_live_message_tokens`: the aggregates of the messages of each key. A message without usage
has the total 0, so measuring every row fails exactly where the filtered aggregate does. -/
def liveMessageTokens {κ : Type} [DecidableEq κ] (key : LiveMessage → κ)
    (rows : List LiveMessage) : Except ApiError (List (κ × TokenAggregates)) := do
  let measured ← rows.mapM measure
  return (groupBy (fun row => key row.source) measured).map fun g => (g.1, tokenAggregates g.2)

/-- `_token_metrics`: the averages divide by the counts with usage. -/
def tokenMetrics (a : TokenAggregates) : TokenMetrics where
  toTokenAggregates := a
  avgTokensPerMessage :=
    if a.messagesWithUsage = 0 then 0 else (a.totalTokens : Rat) / a.messagesWithUsage
  avgTokensPerConversation :=
    if a.conversationsWithUsage = 0 then 0 else (a.totalTokens : Rat) / a.conversationsWithUsage

/-- `_ZERO_TOKENS`. -/
def zeroTokens : TokenMetrics where
  promptTokens := 0
  completionTokens := 0
  totalTokens := 0
  messagesWithUsage := 0
  conversationsWithUsage := 0
  avgTokensPerMessage := 0
  avgTokensPerConversation := 0

/-- `_token_breakdown`: the spend of each evaluation and of each scenario. -/
def tokenBreakdown (db : Database) (evalIds : List UUID) (viewer : Option Auth.UserId) :
    Except ApiError (List (UUID × TokenMetrics) × List (UUID × TokenMetrics)) := do
  let rows := db.scopedMessages evalIds viewer
  let evalRows ← liveMessageTokens (fun row => row.conversation.evaluationId) rows
  let scenarioRows ← liveMessageTokens (fun row => row.conversation.scenarioId) rows
  return (evalRows.map fun row => (row.1, tokenMetrics row.2),
    scenarioRows.map fun row => (row.1, tokenMetrics row.2))

/-! ### What the queries return -/

/-- A measured message is the message with its total. -/
theorem measure_eq_ok {row : LiveMessage} {m : Measured} :
    measure row = .ok m ↔ m.source = row ∧
      messageTotalTokens row.message.extra = .ok m.total := by
  unfold measure
  rw [bind_eq_ok]
  constructor
  · rintro ⟨total, htotal, hm⟩
    cases hm
    exact ⟨rfl, htotal⟩
  · rintro ⟨rfl, htotal⟩
    exact ⟨m.total, htotal, rfl⟩

/-- A query that returns has measured every message. -/
theorem liveMessageTokens_eq_ok {κ : Type} [DecidableEq κ] {key : LiveMessage → κ}
    {rows : List LiveMessage} {totals : List (κ × TokenAggregates)} :
    liveMessageTokens key rows = .ok totals ↔
      ∃ measured, rows.mapM measure = .ok measured ∧
        totals = (groupBy (fun row => key row.source) measured).map fun g =>
          (g.1, tokenAggregates g.2) := by
  unfold liveMessageTokens
  rw [bind_eq_ok]
  constructor
  · rintro ⟨measured, hmeasured, htotals⟩
    cases htotals
    exact ⟨measured, hmeasured, rfl⟩
  · rintro ⟨measured, hmeasured, rfl⟩
    exact ⟨measured, hmeasured, rfl⟩

end RedTeaming.Analytics
