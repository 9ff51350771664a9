import RedTeaming.Conversations.Rows
import RedTeaming.Evaluations.Reads
import RedTeaming.Library.Listing
import RedTeaming.Reviews.Rows

/-!
# `RedTeaming.Reviews.Services`: assigning reviewers, and undoing it

`core/reviews/access.py`, `core/reviews/services/reviews.py`, the pool of reviewers in
`core/evaluations/services/annotators.py`, and the routes of `api/v1/reviews.py` that write. A
reviewer is assigned to a flag, records a verdict, and may be unassigned, which leaves a tombstone
that can be restored.

The pool of a group is one condition, which the picker and the gate share. The lookup of the flag
that a reviewer is assigned to reads the flag and its evaluation. Every other lookup goes through
`scopeReviews` or `scopeReviewFlags`, which read the conversation too.
-/

set_option autoImplicit false

namespace RedTeaming.Reviews

open RedTeaming.Annotations (FlagStatus)
open RedTeaming.Auth
open RedTeaming.Conversations (Conversation)
open RedTeaming.Evaluations
    (Context EvaluationGroup EvaluationGroupAccessLevel joinVisibleEvaluationGroup
  listedRows)
open RedTeaming.Library

/-- The tables. -/
structure Database where
  base : Evaluations.Database
  conversations : Table Conversation
  flags : Table Submission
  reviews : Table Assignment

/-- What the database decides about texts: the collation, and `ILIKE` of a text anywhere. -/
structure Texts where
  le : String → String → Bool
  contains : String → String → Bool

/-! ### The pool -/

section
variable (db : Evaluations.Database)

/-- A condition of `_reviewer_role_ids`: the role is live and active, and grants
`reviews:annotate`. -/
def isReviewerRole (r : RoleId) : Bool :=
  (db.auth.role r).any fun role =>
    !role.deleted && role.isActive && decide (.reviewsAnnotate ∈ role.permissions)

/-- `_global_reviewer_ids`: a platform-wide role of the user grants it. -/
def isGlobalReviewer (u : UserId) : Bool :=
  (db.auth.user u).any fun row => row.roleIds.any (isReviewerRole db)

/-- `_member_reviewer_ids`: a live role of the user on the group grants it. -/
def isMemberReviewer (groupId : UUID) (u : UserId) : Bool :=
  db.roleAssignments.any fun a =>
    a.user == u && a.object == groupId && isReviewerRole db a.role && a.live

/-- `_organization_pool_predicate`. -/
def inOrganizationPool (group : EvaluationGroup) (u : UserId) : Bool :=
  match group.organizationId with
  | none => isMemberReviewer db group.id u
  | some organizationId =>
    isMemberReviewer db group.id u ||
      db.userOrganization u == some organizationId && isGlobalReviewer db u

/-- `annotator_pool_predicate`: the user is in the pool of the group. -/
def annotatorPool (group : EvaluationGroup) (u : UserId) : Bool :=
  match group.accessLevel with
  | .public => isGlobalReviewer db u || isMemberReviewer db group.id u
  | .organization => inOrganizationPool db group u
  | .invitationOnly => isMemberReviewer db group.id u

/-- `is_assignable_annotator`: a live user of the pool. -/
def isAssignableAnnotator (group : EvaluationGroup) (u : UserId) : Bool :=
  (db.auth.liveUser u).isSome && annotatorPool db group u

/-- `User.live_select()`. -/
def liveUsers : List (UserId × User) :=
  db.auth.userIds.dedup.filterMap fun u => (db.auth.liveUser u).map fun row => (u, row)

end

/-! ### The scopes -/

/-- `caller_can_review`. -/
def callerCanReview (caller : SessionUser) : Bool := decide (.reviewsCreate ∈ caller.permissions)

section
variable (db : Database) (settings : Evaluations.Settings) (ctx : Context)

/-- The flag with the id is live, and so is its conversation, and the caller is a reviewer or its
author. -/
def flagInScope (flagId : UUID) : Bool :=
  (findLive db.flags flagId).any fun flag =>
    (findLive db.conversations flag.conversationId).isSome &&
      (ctx.canManage || callerCanReview ctx.caller || flag.createdById == ctx.callerId)

/-- `scope_reviews`: the review is one that the caller may read. -/
def scopeReviews (review : Assignment) : Bool :=
  (joinVisibleEvaluationGroup db.base ctx.callerId ctx.canManage review.evaluationId).isSome &&
    flagInScope db ctx review.messageFlagId

/-- `scope_review_flags`: the flag is one that the caller may review. -/
def scopeReviewFlags (flag : Submission) : Bool :=
  (joinVisibleEvaluationGroup db.base ctx.callerId ctx.canManage flag.evaluationId).isSome &&
    (findLive db.conversations flag.conversationId).isSome &&
      (ctx.canManage || callerCanReview ctx.caller || flag.createdById == ctx.callerId)

/-- A live review of the reviewer on the flag. -/
def liveReviewsOf (flagId : UUID) (reviewerId : UserId) : List Assignment :=
  (liveSelect db.reviews).filter fun review =>
    review.messageFlagId == flagId && review.reviewerId == reviewerId

/-! ### Assigning -/

/-- The message of a flag that the caller cannot see. -/
def flagNotFound (flagId : UUID) : ApiError :=
  .notFound ("Message flag " ++ toString flagId ++ " not found.")

/-- The message of a user who is not in the pool. -/
def notAssignable (reviewerId : UserId) : ApiError :=
  .notFound
    ("User " ++ toString reviewerId ++ " is not an assignable reviewer for this submission.")

/-- `_resolve_assignable_flag`: a live flag of a group that the caller sees. -/
def resolveAssignableFlag (flagId : UUID) : Except ApiError Submission :=
  found ((findLive db.flags flagId).filter fun flag =>
    (joinVisibleEvaluationGroup db.base ctx.callerId ctx.canManage flag.evaluationId).isSome)
    (flagNotFound flagId)

/-- The user is a live member of the pool of the flag's live group. -/
def inPoolOf (flag : Submission) (reviewerId : UserId) : Bool :=
  (findLive db.base.groups flag.evaluationGroupId).any fun group =>
    isAssignableAnnotator db.base group reviewerId

/-- The review that `assign_reviewer` makes. -/
def newReview (flag : Submission) (reviewerId : UserId) : Assignment where
  toBaseModel := ctx.newRow ctx.fresh.row
  messageFlagId := flag.id
  reviewerId
  assignedById := ctx.callerId
  evaluationId := flag.evaluationId

/-- `assign_reviewer`. -/
def assignReviewer (flagId : UUID) (reviewerId : UserId) : Except ApiError Database := do
  let flag ← resolveAssignableFlag db ctx flagId
  check (flag.status == .pending)
    (.conflict "Cannot assign a reviewer to an already-decided submission.")
  check (reviewerId != flag.createdById)
    (.conflict "A flag's author cannot review their own submission.")
  check (db.base.auth.liveUser reviewerId).isSome
    (.notFound ("User " ++ toString reviewerId ++ " not found."))
  check (inPoolOf db flag reviewerId) (notAssignable reviewerId)
  match liveReviewsOf db flagId reviewerId with
  | [] =>
    let reviews ← flush db.reviews [newReview ctx flag reviewerId]
    return { db with reviews }
  | [_] => .error (.conflict "Reviewer is already assigned to this submission.")
  | _ => .error (.runtimeError "Multiple rows were found when one or none was required")

/-- `ORDER BY email, id`. -/
def byEmail (texts : Texts) (user user' : UserId × User) : Bool :=
  if user.2.email = user'.2.email then decide (user.1 ≤ user'.1)
  else texts.le user.2.email user'.2.email

/-- The search of the picker: a substring of the e-mail or of a name. -/
def matchesSearch (texts : Texts) (search : Option String) (row : User) : Bool :=
  match search with
  | none => true
  | some text =>
    text.isEmpty || texts.contains row.email text || row.firstName.any (texts.contains · text) ||
      row.lastName.any (texts.contains · text)

/-- `list_assignable_reviewers`: the pool without the author and the reviewers of the flag. A
decided flag takes no reviewers. -/
def listAssignableReviewers (texts : Texts) (flagId : UUID) (search : Option String)
    (limit offset : Nat) : Except ApiError (Page (UserId × User)) := do
  let flag ← resolveAssignableFlag db ctx flagId
  if flag.status != .pending then return ⟨[], 0⟩
  else
    match findLive db.base.groups flag.evaluationGroupId with
    | none => return ⟨[], 0⟩
    | some group =>
      let candidates := (liveUsers db.base).filter fun user =>
        annotatorPool db.base group user.1 && user.1 != flag.createdById &&
          (liveReviewsOf db flagId user.1).isEmpty
      return ListQuery.page
        { keep := fun user => matchesSearch texts search user.2, le := byEmail texts,
          limit, offset }
        candidates

/-! ### Reviews -/

/-- The message of a review that the caller cannot see. -/
def reviewNotFound (reviewId : UUID) : ApiError :=
  .notFound ("Review " ++ toString reviewId ++ " not found.")

/-- `get_review`. -/
def getReview (reviewId : UUID) : Except ApiError Assignment :=
  found ((findLive db.reviews reviewId).filter (scopeReviews db ctx)) (reviewNotFound reviewId)

/-- A condition of the deleted view: a pending review can be worked on again. -/
def isActionable (review : Assignment) : Bool :=
  review.status != .pending ||
    ((findLive db.flags review.messageFlagId).any fun flag => flag.status == .pending) &&
      (db.base.auth.liveUser review.reviewerId).isSome

/-- `list_reviews`. The filters of the request are those of the query. -/
def listReviews (query : ListQuery Assignment) : Page Assignment :=
  query.page ((listedRows settings ctx query.deleted db.reviews).filter fun review =>
    scopeReviews db ctx review && (!query.deleted || isActionable db review))

/-- What a verdict sets. A field that is left out stays. -/
structure ReviewUpdate where
  status : Option ReviewStatus := none
  successfulExploit : Option (Option Bool) := none
  uniqueExploit : Option (Option Bool) := none
  validSubmission : Option (Option Bool) := none
  numberPrompts : Option (Option Nat) := none
  notes : Option (Option String) := none

/-- The validator of the payload: a verdict is not `pending`. -/
def ReviewUpdate.validate (payload : ReviewUpdate) : Except ApiError Unit :=
  check (payload.status != some .pending)
    (.validationError "verdict status must be 'approved' or 'rejected'")

/-- `update_review`, on the row. -/
def ReviewUpdate.apply (changes : ReviewUpdate) (review : Assignment) : Assignment :=
  { review with
    status := changes.status.getD review.status
    successfulExploit := changes.successfulExploit.getD review.successfulExploit
    uniqueExploit := changes.uniqueExploit.getD review.uniqueExploit
    validSubmission := changes.validSubmission.getD review.validSubmission
    numberPrompts := changes.numberPrompts.getD review.numberPrompts
    notes := changes.notes.getD review.notes }

/-- The message of a tombstone that the caller cannot restore. -/
def notRestorable (reviewId : UUID) : ApiError :=
  .notFound
    ("No restorable review " ++ toString reviewId ++ " was deleted within the restore window.")

/-- `get_restorable_review`. -/
def getRestorableReview (reviewId : UUID) : Except ApiError Assignment :=
  found ((findRestorable db.reviews (ctx.restoreCutoff settings) ctx.deletedBy reviewId).filter
    (scopeReviews db ctx)) (notRestorable reviewId)

/-- `assert_review_reassignable`: the checks of an assignment, for a pending review. -/
def assertReviewReassignable (review : Assignment) : Except ApiError Unit :=
  if review.status != .pending then .ok ()
  else do
    let flag ← found (findLive db.flags review.messageFlagId) (notRestorable review.id)
    check (flag.status == .pending)
      (.conflict "Cannot restore a pending review of an already-decided submission.")
    check (db.base.auth.liveUser review.reviewerId).isSome
      (.notFound ("Reviewer " ++ toString review.reviewerId ++ " is no longer a live user."))
    check (inPoolOf db flag review.reviewerId) (notAssignable review.reviewerId)

/-- The message of a reviewer who was assigned again. -/
def assignedAgain : ApiError :=
  .conflict
    "That reviewer is already assigned to this submission; unassign the live review first."

/-- `restore_review`. The unique index covers the live reviews of a reviewer on a flag. -/
def restoreReview (review : Assignment) : Except ApiError Database := do
  check (liveReviewsOf db review.messageFlagId review.reviewerId).isEmpty assignedAgain
  return { db with reviews := restoreRow db.reviews review.id }

/-- The gate of a decided review: its reviewer, or the break-glass. -/
def mayTouch (review : Assignment) : Bool :=
  review.status == .pending || ctx.canManage || review.reviewerId == ctx.callerId

/-! ### The routes -/

/-- The endpoint that assigns. -/
def assignReviewerEndpoint (flagId : UUID) (reviewerId : UserId) : Except ApiError Database := do
  requirePermission ctx.caller .reviewsCreate
  assignReviewer db ctx flagId reviewerId

/-- The endpoint of the picker. -/
def listAssignableReviewersEndpoint (texts : Texts) (flagId : UUID) (search : Option String)
    (limit offset : Nat) : Except ApiError (Page (UserId × User)) := do
  requirePermission ctx.caller .reviewsCreate
  listAssignableReviewers db ctx texts flagId search limit offset

/-- The endpoint that lists reviews. -/
def listReviewsEndpoint (query : ListQuery Assignment) : Except ApiError (Page Assignment) := do
  requirePermission ctx.caller .reviewsRead
  return listReviews db settings ctx query

/-- The endpoint that records a verdict. -/
def updateReviewEndpoint (reviewId : UUID)
    (payload : ReviewUpdate) : Except ApiError Database := do
  requirePermission ctx.caller .reviewsUpdate
  payload.validate
  let review ← getReview db ctx reviewId
  check (ctx.canManage || review.reviewerId == ctx.callerId)
    (.forbidden "Only the assigned reviewer can record this verdict.")
  return { db with reviews := db.reviews.modify review.id payload.apply fun _ => rfl }

/-- The endpoint that unassigns. -/
def unassignReviewEndpoint (reviewId : UUID) : Except ApiError Database := do
  requirePermission ctx.caller .reviewsDelete
  let review ← getReview db ctx reviewId
  check (mayTouch ctx review) (.forbidden
    "Only the reviewer who recorded a verdict (or a manager) can unassign a decided review.")
  return { db with reviews := softDeleteRow db.reviews ctx.now ctx.callerId review.id }

/-- The endpoint that restores. -/
def restoreReviewEndpoint (reviewId : UUID) : Except ApiError Database := do
  requirePermission ctx.caller .reviewsDelete
  let review ← getRestorableReview db settings ctx reviewId
  check (mayTouch ctx review) (.forbidden
    "Only the reviewer who recorded a verdict (or a manager) can restore a decided review.")
  assertReviewReassignable db review
  restoreReview db review

end

end RedTeaming.Reviews
