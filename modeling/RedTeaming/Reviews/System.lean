import RedTeaming.Library.Transition
import RedTeaming.Reviews.Services

/-!
# `RedTeaming.Reviews.System`: runs of review requests

The requests that write `reviews` are assign, verdict, unassign, and restore. `elsewhere` stands
for what the rest of the application commits: users, roles, groups, conversations, and flags. It
removes no flag, and keeps the author and the evaluation of each.

`Inv` says that a review has a flag of its evaluation, of somebody else than its reviewer.
`inv_of_run` says that it holds in every state that a run reaches.
-/

set_option autoImplicit false

namespace RedTeaming.Reviews

open RedTeaming.Auth
open RedTeaming.Conversations (Conversation)
open RedTeaming.Evaluations (Context)
open RedTeaming.Library

/-- One step. -/
inductive Event
  | assign (ctx : Context) (flagId : UUID) (reviewerId : UserId)
  | verdict (ctx : Context) (reviewId : UUID) (payload : ReviewUpdate)
  | unassign (ctx : Context) (reviewId : UUID)
  | restore (ctx : Context) (reviewId : UUID)
  | elsewhere (base : Evaluations.Database) (conversations : Table Conversation)
      (flags : Table Submission)

/-- The author and the ancestry of a flag do not change, and no flag is removed. -/
def keepsFlags (flags flags' : Table Submission) : Bool :=
  flags.rows.all fun flag => flags'.rows.any fun flag' =>
    flag'.id == flag.id && flag'.createdById == flag.createdById &&
      flag'.evaluationId == flag.evaluationId

/-- One step. A request that is refused changes nothing, and has no step. -/
def step (settings : Evaluations.Settings) (db : Database) : Event → Option Database
  | .assign ctx flagId reviewerId => (assignReviewerEndpoint db ctx flagId reviewerId).toOption
  | .verdict ctx reviewId payload => (updateReviewEndpoint db ctx reviewId payload).toOption
  | .unassign ctx reviewId => (unassignReviewEndpoint db ctx reviewId).toOption
  | .restore ctx reviewId => (restoreReviewEndpoint db settings ctx reviewId).toOption
  | .elsewhere base conversations flags =>
    if keepsFlags db.flags flags then some { db with base, conversations, flags } else none

/-- The review has its flag. -/
structure HasFlag (flags : Table Submission) (review : Assignment) : Prop where
  flag : ∃ flag ∈ flags, key flag = review.messageFlagId ∧
    flag.evaluationId = review.evaluationId ∧
    flag.createdById ≠ review.reviewerId

/-- What holds in every state that a run reaches. -/
def Inv (db : Database) : Prop := ∀ review ∈ db.reviews, HasFlag db.flags review

section
variable {db db' : Database} {settings : Evaluations.Settings} {ctx : Context}
  {review review' : Assignment} {flagId reviewId : UUID} {reviewerId : UserId}

/-- A review that refers to the same flag has it too. -/
theorem HasFlag.of_eq {flags : Table Submission} (h : HasFlag flags review)
    (hflag : review'.messageFlagId = review.messageFlagId)
    (hevaluation : review'.evaluationId = review.evaluationId)
    (hreviewer : review'.reviewerId = review.reviewerId) : HasFlag flags review' := by
  obtain ⟨flag, hmem, hkey, hsame, hauthor⟩ := h.flag
  exact ⟨flag, hmem, hkey.trans hflag.symm, hsame.trans hevaluation.symm, by rwa [hreviewer]⟩

/-- What the lookup of an assignable flag finds. -/
theorem resolveAssignableFlag_eq_ok {flag : Submission} :
    resolveAssignableFlag db ctx flagId = .ok flag ↔
      (flag ∈ db.flags ∧ key flag = flagId ∧ live flag = true) ∧
        (Evaluations.joinVisibleEvaluationGroup db.base ctx.callerId ctx.canManage
          flag.evaluationId).isSome = true := by
  rw [resolveAssignableFlag, found_eq_ok, Option.filter_eq_some_iff, findLive_eq_some]

/-- An assignment adds a review of the flag, for somebody else than the author. -/
theorem assignReviewer_spec (h : assignReviewer db ctx flagId reviewerId = .ok db') :
    ∃ flag reviews, resolveAssignableFlag db ctx flagId = .ok flag ∧ flag.status = .pending ∧
      reviewerId ≠ flag.createdById ∧ (db.base.auth.liveUser reviewerId).isSome = true ∧
      inPoolOf db flag reviewerId = true ∧ liveReviewsOf db flagId reviewerId = [] ∧
      flush db.reviews [newReview ctx flag reviewerId] = .ok reviews ∧
        db' = { db with reviews } := by
  simp only [assignReviewer, bind_eq_ok, check_eq_ok, exists_unit] at h
  obtain ⟨flag, hflag, hpending, hauthor, hlive, hpool, h⟩ := h
  split at h
  · rename_i hnone
    obtain ⟨reviews, hflush, h⟩ := bind_eq_ok.mp h
    cases h
    exact ⟨flag, reviews, hflag, beq_iff_eq.mp hpending, by simpa using hauthor,
      hlive, hpool, hnone, hflush, rfl⟩
  · cases h
  · cases h

/-- A write of one row that keeps its references keeps the invariant. -/
theorem Inv.modify (h : Inv db) (id : UUID) (f : Assignment → Assignment)
    (hf : ∀ r, key (f r) = key r) (hflag : ∀ r, (f r).messageFlagId = r.messageFlagId)
    (hevaluation : ∀ r, (f r).evaluationId = r.evaluationId)
    (hreviewer : ∀ r, (f r).reviewerId = r.reviewerId) :
    Inv { db with reviews := db.reviews.modify id f hf } := by
  intro review hmem
  have hmem : review ∈ db.reviews.modify id f hf := hmem
  rw [Table.mem_modify] at hmem
  rcases hmem with ⟨old, hold, -, rfl⟩ | ⟨hold, -⟩
  · exact (h old hold).of_eq (hflag old) (hevaluation old) (hreviewer old)
  · exact h review hold

/-- One step keeps the invariant. -/
theorem Inv.step (hinv : Inv db) {event : Event} (hstep : step settings db event = some db') :
    Inv db' := by
  cases event with
  | assign ctx flagId reviewerId =>
    simp only [Reviews.step, toOption_eq_some, assignReviewerEndpoint, bind_eq_ok,
      exists_unit] at hstep
    obtain ⟨-, h⟩ := hstep
    obtain ⟨flag, reviews, hflag, -, hauthor, -, -, -, hflush, rfl⟩ := assignReviewer_spec h
    obtain ⟨⟨hmem, -, -⟩, -⟩ := resolveAssignableFlag_eq_ok.mp hflag
    intro review hreview
    rcases (mem_of_flush_singleton hflush).mp hreview with hold | rfl
    · exact hinv review hold
    · exact ⟨flag, hmem, rfl, rfl, hauthor.symm⟩
  | verdict ctx reviewId payload =>
    simp only [Reviews.step, toOption_eq_some, updateReviewEndpoint, bind_eq_ok,
      exists_unit] at hstep
    obtain ⟨-, -, review, -, -, h⟩ := hstep
    cases h
    exact hinv.modify review.id payload.apply (fun _ => rfl) (fun _ => rfl)
      (fun _ => rfl) fun _ => rfl
  | unassign ctx reviewId =>
    simp only [Reviews.step, toOption_eq_some, unassignReviewEndpoint, bind_eq_ok,
      exists_unit] at hstep
    obtain ⟨-, review, -, -, h⟩ := hstep
    cases h
    exact hinv.modify review.id (softDelete ctx.now ctx.callerId)
      (key_softDelete ctx.now ctx.callerId)
      (fun _ => rfl) (fun _ => rfl) fun _ => rfl
  | restore ctx reviewId =>
    simp only [Reviews.step, toOption_eq_some, restoreReviewEndpoint, bind_eq_ok, exists_unit,
      restoreReview] at hstep
    obtain ⟨-, review, -, -, -, -, h⟩ := hstep
    cases h
    exact hinv.modify review.id RedTeaming.restore key_restore (fun _ => rfl)
      (fun _ => rfl) fun _ => rfl
  | elsewhere base conversations flags =>
    simp only [Reviews.step] at hstep
    split at hstep
    · rename_i hkeeps
      cases hstep
      intro review hreview
      obtain ⟨flag, hmem, hkey, hevaluation, hauthor⟩ := (hinv review hreview).flag
      -- The flag of a review is still there, with its author and its evaluation.
      obtain ⟨flag', hmem', hsame⟩ := List.any_eq_true.mp (List.all_eq_true.mp hkeeps flag hmem)
      simp only [Bool.and_eq_true, beq_iff_eq] at hsame
      obtain ⟨⟨hid, hauthor'⟩, hevaluation'⟩ := hsame
      exact ⟨flag', hmem', Eq.trans hid hkey, hevaluation'.trans hevaluation, by rwa [hauthor']⟩
    · cases hstep

/-- The invariant holds in every state that a run reaches, from one without reviews. -/
theorem inv_of_run {events : List Event} (hstart : db.reviews = .empty)
    (hrun : run (step settings) db events = some db') : Inv db' := by
  have hinv : Inv db := by
    intro review hreview
    rw [hstart] at hreview
    exact absurd hreview Table.not_mem_empty
  exact run_invariant (fun _ _ _ hinv hstep => hinv.step hstep) hinv hrun

end

end RedTeaming.Reviews
