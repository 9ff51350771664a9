import RedTeaming.Conversations.DeletedListings
import RedTeaming.Reviews.System

/-!
# `RedTeaming.Reviews.Picker`: the reviewer picker, the assignment, and the restore

The picker of a flag, the assignment to it, and the restore of a review check the same things in
three ways. `Assignable` is what they have in common, and `assigns_iff`, `inPicker_iff`, and
`restores_iff` read each of them back.

The picker is the gate. The other two parts have an exception each. A flag whose conversation is
deleted takes new reviewers, and hides its reviews, so that none of them can be restored
(`Stranded`). And the deleted view shows a caller what that caller unassigned. A manager may
unassign a verdict of somebody else, and cannot restore it after losing the break-glass.
`reviewers_agree_iff` says that these are all the exceptions, in every state that a run reaches.
-/

set_option autoImplicit false

namespace RedTeaming.Reviews

open RedTeaming.Auth
open RedTeaming.Conversations (Conversation)
open RedTeaming.Conversations.Services
    (Accepted Listed OwnTombstone listed_iff requirePermission_eq_ok)
open RedTeaming.Evaluations (Context joinVisibleEvaluationGroup listedRows)
open RedTeaming.Library

section
variable (texts : Texts) (db : Database) (settings : Evaluations.Settings) (ctx : Context)

/-- The flag is one that the caller sees, and on which the caller may assign. -/
def MayAssign (flagId : UUID) : Prop :=
  .reviewsCreate ∈ ctx.caller.permissions ∧ Accepted (resolveAssignableFlag db ctx flagId)

/-- The picker of the flag has the user on a page, without a search. -/
def InPicker (flagId : UUID) (u : UserId) : Prop :=
  ∃ limit offset page row,
    listAssignableReviewersEndpoint db ctx texts flagId none limit offset = .ok page ∧
      (u, row) ∈ page.items

/-- The assignment of the user to the flag succeeds. -/
def Assigns (flagId : UUID) (u : UserId) : Prop :=
  Accepted (assignReviewerEndpoint db ctx flagId u)

/-- The restore of the review succeeds. -/
def Restores (reviewId : UUID) : Prop := Accepted (restoreReviewEndpoint db settings ctx reviewId)

/-- The restore of the review is refused, since its reviewer has left the pool or was assigned
again. -/
def Conflicts (review : Assignment) : Prop :=
  restoreReviewEndpoint db settings ctx review.id = .error (notAssignable review.reviewerId) ∨
    restoreReviewEndpoint db settings ctx review.id = .error assignedAgain

/-- The picker, the assignment, the restore, and the deleted view agree. -/
structure ReviewersAgree : Prop where
  /-- The picker offers those who can be assigned. -/
  picker : ∀ flagId, MayAssign db ctx flagId → ∀ u, InPicker texts db ctx flagId u ↔
    Assigns db ctx flagId u
  /-- A pending review is restored when its reviewer could be assigned. -/
  reassign : .reviewsCreate ∈ ctx.caller.permissions → .reviewsDelete ∈ ctx.caller.permissions →
    ∀ review ∈ db.reviews, OwnTombstone settings ctx review → review.status = .pending →
      (Restores db settings ctx review.id ↔ Assigns db ctx review.messageFlagId review.reviewerId)
  /-- What the deleted view shows can be restored, but for two conflicts. -/
  listed : .reviewsRead ∈ ctx.caller.permissions → ∀ review ∈ db.reviews,
    Listed (listReviewsEndpoint db settings ctx) review →
      Restores db settings ctx review.id ∨ Conflicts db settings ctx review
  /-- What can be restored is in the deleted view. -/
  complete : .reviewsRead ∈ ctx.caller.permissions → ∀ review ∈ db.reviews,
    Restores db settings ctx review.id → Listed (listReviewsEndpoint db settings ctx) review

/-- The user may review the flag: what the picker, the assignment, and the restore all ask. -/
structure Assignable (flag : Submission) (u : UserId) : Prop where
  pending : flag.status = .pending
  other : u ≠ flag.createdById
  live : (db.base.auth.liveUser u).isSome = true
  pool : inPoolOf db flag u = true
  unassigned : liveReviewsOf db flag.id u = []

/-- The review is in the deleted view of the caller: an own tombstone in scope, and actionable. -/
structure InDeletedView (review : Assignment) : Prop where
  own : OwnTombstone settings ctx review
  scope : scopeReviews db ctx review = true
  actionable : isActionable db review = true

/-- A pending tombstone on a live flag, whose reviewer may review the flag, and whose conversation
is deleted. -/
structure Stranded (review : Assignment) : Prop where
  own : OwnTombstone settings ctx review
  pending : review.status = .pending
  flag : ∃ flag ∈ db.flags, key flag = review.messageFlagId ∧ live flag = true ∧
    (joinVisibleEvaluationGroup db.base ctx.callerId ctx.canManage flag.evaluationId).isSome =
      true ∧
    Assignable db flag review.reviewerId ∧ findLive db.conversations flag.conversationId = none

/-- No tombstone is stranded, and the caller may touch what the deleted view shows. -/
structure Undisturbed : Prop where
  reassign : .reviewsCreate ∈ ctx.caller.permissions → .reviewsDelete ∈ ctx.caller.permissions →
    ∀ review ∈ db.reviews, ¬ Stranded db settings ctx review
  listed : .reviewsRead ∈ ctx.caller.permissions → ∀ review ∈ db.reviews,
    InDeletedView db settings ctx review →
      .reviewsDelete ∈ ctx.caller.permissions ∧ mayTouch ctx review = true

end

section
variable {texts : Texts} {db db' : Database} {settings : Evaluations.Settings} {ctx : Context}
  {review : Assignment} {flag : Submission} {flagId : UUID} {u : UserId}

/-! ### Three ways to ask -/

/-- The assignment asks for a flag that the caller sees, and a user who may review it. -/
theorem assigns_iff (hcreate : .reviewsCreate ∈ ctx.caller.permissions)
    (hfresh : ∀ review ∈ db.reviews, key review ≠ ctx.fresh.row) :
    Assigns db ctx flagId u ↔
      ∃ flag, resolveAssignableFlag db ctx flagId = .ok flag ∧ Assignable db flag u := by
  constructor
  · rintro ⟨db', h⟩
    obtain ⟨-, -, h⟩ := bind_eq_ok.mp h
    obtain ⟨flag, -, hflag, hpending, hother, hlive, hpool, hnone, -, -⟩ := assignReviewer_spec h
    have hid : flag.id = flagId := (resolveAssignableFlag_eq_ok.mp hflag).1.2.1
    rw [← hid] at hnone
    exact ⟨flag, hflag, hpending, hother, hlive, hpool, hnone⟩
  · rintro ⟨flag, hflag, hmay⟩
    have hid : flag.id = flagId := (resolveAssignableFlag_eq_ok.mp hflag).1.2.1
    have hnone : liveReviewsOf db flagId u = [] := by
      rw [← hid]
      exact hmay.unassigned
    obtain ⟨reviews, hflush⟩ : ∃ reviews, flush db.reviews [newReview ctx flag u] = .ok reviews :=
      exists_flush hfresh
    refine ⟨{ db with reviews }, ?_⟩
    simp only [assignReviewerEndpoint, assignReviewer, requirePermission_eq_ok hcreate, hflag,
      hmay.pending, hmay.live, hmay.pool, hnone, hflush, ok_bind, check, bne_iff_ne,
      ne_eq, hmay.other, not_false_eq_true, beq_self_eq_true, if_true]
    rfl

/-- The live users. -/
theorem mem_liveUsers {row : User} :
    (u, row) ∈ liveUsers db.base ↔ db.base.auth.liveUser u = some row := by
  rw [liveUsers, List.mem_filterMap]
  constructor
  · rintro ⟨u', -, h⟩
    obtain ⟨row', hrow, heq⟩ := Option.map_eq_some_iff.mp h
    cases heq
    exact hrow
  · intro h
    have hsome : (db.base.auth.user u).isSome = true := by
      rw [(Directory.liveUser_eq_some.mp h).1]
      rfl
    exact ⟨u, List.mem_dedup.mpr (db.base.auth.mem_userIds u hsome), by rw [h]; rfl⟩

/-- The pool of the flag is that of its live group. -/
theorem inPoolOf_iff (hlive : (db.base.auth.liveUser u).isSome = true) :
    inPoolOf db flag u = true ↔
    ∃ group, findLive db.base.groups flag.evaluationGroupId = some group ∧
      annotatorPool db.base group u = true := by
  simp [inPoolOf, Option.any_eq_true, isAssignableAnnotator, hlive]

/-- The picker offers the users who may review the flag. -/
theorem inPicker_iff (hcreate : .reviewsCreate ∈ ctx.caller.permissions) :
    InPicker texts db ctx flagId u ↔
      ∃ flag, resolveAssignableFlag db ctx flagId = .ok flag ∧ Assignable db flag u := by
  constructor
  · rintro ⟨limit, offset, page, row, h, hshown⟩
    obtain ⟨-, -, h⟩ := bind_eq_ok.mp h
    obtain ⟨flag, hflag, h⟩ := bind_eq_ok.mp h
    have hid : flag.id = flagId := (resolveAssignableFlag_eq_ok.mp hflag).1.2.1
    split at h
    · -- A decided flag has an empty page.
      cases h
      cases hshown
    · rename_i hpending
      split at h
      · cases h
        cases hshown
      · rename_i group hgroup
        cases h
        obtain ⟨hcandidate, -⟩ := ListQuery.mem_of_mem_page hshown
        rw [List.mem_filter, mem_liveUsers] at hcandidate
        simp only [Bool.and_eq_true, bne_iff_ne, ne_eq, List.isEmpty_iff] at hcandidate
        obtain ⟨hrow, ⟨hpool, hother⟩, hnone⟩ := hcandidate
        have hlive : (db.base.auth.liveUser u).isSome = true := by
          rw [hrow]
          rfl
        rw [← hid] at hnone
        refine ⟨flag, hflag, by simpa using hpending, hother, hlive, ?_, hnone⟩
        exact (inPoolOf_iff hlive).mpr ⟨group, hgroup, hpool⟩
  · rintro ⟨flag, hflag, hmay⟩
    have hid : flag.id = flagId := (resolveAssignableFlag_eq_ok.mp hflag).1.2.1
    obtain ⟨row, hrow⟩ := Option.isSome_iff_exists.mp hmay.live
    obtain ⟨group, hgroup, hpool⟩ := (inPoolOf_iff hmay.live).mp hmay.pool
    have hcandidate : (u, row) ∈ (liveUsers db.base).filter fun user =>
        annotatorPool db.base group user.1 && user.1 != flag.createdById &&
          (liveReviewsOf db flagId user.1).isEmpty := by
      rw [List.mem_filter, mem_liveUsers]
      simp only [Bool.and_eq_true, bne_iff_ne, ne_eq, List.isEmpty_iff, ← hid]
      exact ⟨hrow, ⟨hpool, hmay.other⟩, hmay.unassigned⟩
    obtain ⟨offset, hshown⟩ := ListQuery.exists_mem_page hcandidate false (byEmail texts)
    refine ⟨1, offset, _, row, ?_, hshown⟩
    have hpending : ¬ (flag.status != .pending) = true := by simp [hmay.pending]
    simp only [listAssignableReviewersEndpoint, listAssignableReviewers,
      requirePermission_eq_ok hcreate, hflag, hgroup, ok_bind, if_neg hpending]
    rfl

/-- The checks of a restore: a decided review passes, and a pending one as an assignment does. -/
theorem assertReviewReassignable_eq_ok : assertReviewReassignable db review = .ok () ↔
    review.status ≠ .pending ∨ ∃ flag, findLive db.flags review.messageFlagId = some flag ∧
      flag.status = .pending ∧ (db.base.auth.liveUser review.reviewerId).isSome = true ∧
        inPoolOf db flag review.reviewerId = true := by
  unfold assertReviewReassignable
  split
  · rename_i hdecided
    exact iff_of_true rfl (.inl (by simpa using hdecided))
  · rename_i hpending
    simp only [bind_eq_ok, found_eq_ok, check_eq_ok, exists_unit, beq_iff_eq]
    have hpending : ¬ review.status ≠ .pending := by simpa using hpending
    simp [hpending]

/-- The restore asks for an own tombstone in scope, the gate of a decided review, and the checks
of an assignment. -/
theorem restores_iff (hrow : review ∈ db.reviews) : Restores db settings ctx review.id ↔
    .reviewsDelete ∈ ctx.caller.permissions ∧ OwnTombstone settings ctx review ∧
      scopeReviews db ctx review = true ∧ mayTouch ctx review = true ∧
        assertReviewReassignable db review = .ok () ∧
          liveReviewsOf db review.messageFlagId review.reviewerId = [] := by
  constructor
  · rintro ⟨db', h⟩
    simp only [restoreReviewEndpoint, bind_eq_ok, check_eq_ok, exists_unit, requirePermission,
      decide_eq_true_eq] at h
    obtain ⟨hdelete, found, hfound, htouch, hreassignable, hrestore⟩ := h
    obtain ⟨hfound, hscope⟩ := Option.filter_eq_some_iff.mp (found_eq_ok.mp hfound)
    obtain ⟨hmem, hkey, hown⟩ := findRestorable_eq_some.mp hfound
    have hsame : found = review := Table.eq_of_key_eq hmem hrow hkey
    subst hsame
    obtain ⟨_, hnone, _⟩ := bind_eq_ok.mp hrestore
    rw [check_eq_ok, List.isEmpty_iff] at hnone
    exact ⟨hdelete, hown, hscope, htouch, hreassignable, hnone⟩
  · rintro ⟨hdelete, hown, hscope, htouch, hreassignable, hnone⟩
    have hget : getRestorableReview db settings ctx review.id = .ok review :=
      found_eq_ok.mpr (Option.filter_eq_some_iff.mpr
        ⟨findRestorable_eq_some.mpr ⟨hrow, rfl, hown⟩, hscope⟩)
    refine ⟨{ db with reviews := restoreRow db.reviews review.id }, ?_⟩
    simp only [restoreReviewEndpoint, requirePermission_eq_ok hdelete, hget, ok_bind,
      check, htouch, if_true, hreassignable, restoreReview, hnone, List.isEmpty_nil]
    rfl

/-- The pages of the deleted view show what the caller can read there. -/
theorem listed_review_iff (hread : .reviewsRead ∈ ctx.caller.permissions)
    (hrow : review ∈ db.reviews) :
    Listed (listReviewsEndpoint db settings ctx) review ↔
      InDeletedView db settings ctx review := by
  have hlist : ∀ query : ListQuery Assignment, query.deleted = true →
      listReviewsEndpoint db settings ctx query = .ok (query.page
        ((deletedSelect db.reviews (ctx.restoreCutoff settings) ctx.deletedBy).filter
          fun review => scopeReviews db ctx review && isActionable db review)) := by
    intro query hdeleted
    simp only [listReviewsEndpoint, requirePermission_eq_ok hread, listReviews,
      listedRows, hdeleted, if_true, Bool.not_true, Bool.false_or, ok_bind]
    rfl
  rw [listed_iff hlist, List.mem_filter, mem_deletedSelect, Bool.and_eq_true]
  exact ⟨fun ⟨⟨_, hown⟩, hscope, hactionable⟩ => ⟨hown, hscope, hactionable⟩,
    fun h => ⟨⟨hrow, h.own⟩, h.scope, h.actionable⟩⟩

/-- The restore of an own pending review checks what the assignment checks, and the
conversation. -/
theorem restores_pending_iff (hinv : Inv db) (hrow : review ∈ db.reviews)
    (hcreate : .reviewsCreate ∈ ctx.caller.permissions)
    (hdelete : .reviewsDelete ∈ ctx.caller.permissions)
    (hown : OwnTombstone settings ctx review) (hpending : review.status = .pending) :
    Restores db settings ctx review.id ↔
      ∃ flag, resolveAssignableFlag db ctx review.messageFlagId = .ok flag ∧
        Assignable db flag review.reviewerId ∧
          (findLive db.conversations flag.conversationId).isSome = true := by
  have hcan : callerCanReview ctx.caller = true := decide_eq_true hcreate
  rw [restores_iff hrow, assertReviewReassignable_eq_ok]
  constructor
  · rintro ⟨-, -, hscope, -, hchecks, hnone⟩
    have hchecks := hchecks.resolve_left (not_not.mpr hpending)
    obtain ⟨flag, hflag, hundecided, hlive, hpool⟩ := hchecks
    simp only [scopeReviews, flagInScope, hflag, Option.any_some, Bool.and_eq_true] at hscope
    obtain ⟨hvisible, hconversation, -⟩ := hscope
    have hflag := findLive_eq_some.mp hflag
    -- The flag of the review is the one that the invariant speaks of.
    obtain ⟨flag', hmem', hkey', hevaluation, hauthor⟩ := (hinv review hrow).flag
    have hsame : flag' = flag := Table.eq_of_key_eq hmem' hflag.1 (hkey'.trans hflag.2.1.symm)
    subst hsame
    rw [← hevaluation] at hvisible
    have hid : flag'.id = review.messageFlagId := hkey'
    rw [← hid] at hnone
    exact ⟨flag', resolveAssignableFlag_eq_ok.mpr ⟨hflag, hvisible⟩,
      ⟨hundecided, hauthor.symm, hlive, hpool, hnone⟩, hconversation⟩
  · rintro ⟨flag, hflag, hmay, hconversation⟩
    obtain ⟨hflag, hvisible⟩ := resolveAssignableFlag_eq_ok.mp hflag
    obtain ⟨flag', hmem', hkey', hevaluation, -⟩ := (hinv review hrow).flag
    have hsame : flag' = flag := Table.eq_of_key_eq hmem' hflag.1 (hkey'.trans hflag.2.1.symm)
    subst hsame
    have hfind := findLive_eq_some.mpr hflag
    rw [hevaluation] at hvisible
    have hscope : scopeReviews db ctx review = true := by
      simp [scopeReviews, flagInScope, hfind, hvisible, hconversation, hcan]
    have htouch : mayTouch ctx review = true := by simp [mayTouch, hpending]
    have hid : flag'.id = review.messageFlagId := hkey'
    have hnone := hmay.unassigned
    rw [hid] at hnone
    exact ⟨hdelete, hown, hscope, htouch,
      .inr ⟨flag', hfind, hmay.pending, hmay.live, hmay.pool⟩, hnone⟩

/-- The restore of a review of the deleted view is left with the gates. -/
theorem restore_of_view (hrow : review ∈ db.reviews)
    (hview : InDeletedView db settings ctx review) :
    restoreReviewEndpoint db settings ctx review.id = (do
      requirePermission ctx.caller .reviewsDelete
      check (mayTouch ctx review) (.forbidden
        "Only the reviewer who recorded a verdict (or a manager) can restore a decided review.")
      assertReviewReassignable db review
      restoreReview db review) := by
  have hget : getRestorableReview db settings ctx review.id = .ok review :=
    found_eq_ok.mpr (Option.filter_eq_some_iff.mpr
      ⟨findRestorable_eq_some.mpr ⟨hrow, rfl, hview.own⟩, hview.scope⟩)
  simp only [restoreReviewEndpoint, hget, ok_bind]

/-- An actionable review passes the checks of a restore, or its reviewer has left the pool. -/
theorem reassignable_of_actionable (h : isActionable db review = true) :
    assertReviewReassignable db review = .ok () ∨
      assertReviewReassignable db review = .error (notAssignable review.reviewerId) := by
  unfold assertReviewReassignable
  by_cases hdecided : (review.status != .pending) = true
  · rw [if_pos hdecided]
    exact .inl rfl
  · rw [if_neg hdecided]
    have hrest := (Bool.or_eq_true_iff.mp h).resolve_left hdecided
    rw [Bool.and_eq_true, Option.any_eq_true] at hrest
    obtain ⟨⟨flag, hflag, hpending⟩, hlive⟩ := hrest
    simp only [hflag, found, ok_bind, check, hpending, hlive, if_true]
    by_cases hpool : inPoolOf db flag review.reviewerId = true
    · rw [if_pos hpool]
      exact .inl rfl
    · rw [if_neg hpool]
      exact .inr rfl

/-- A review of the deleted view is restored or conflicts when the caller passes the two gates. -/
theorem restores_or_conflicts_iff (hrow : review ∈ db.reviews)
    (hview : InDeletedView db settings ctx review) :
    Restores db settings ctx review.id ∨ Conflicts db settings ctx review ↔
      .reviewsDelete ∈ ctx.caller.permissions ∧ mayTouch ctx review = true := by
  unfold Restores Conflicts
  rw [restore_of_view hrow hview]
  by_cases hdelete : .reviewsDelete ∈ ctx.caller.permissions
  · by_cases htouch : mayTouch ctx review = true
    · refine iff_of_true ?_ ⟨hdelete, htouch⟩
      simp only [requirePermission_eq_ok hdelete, htouch, check, if_true, ok_bind]
      rcases reassignable_of_actionable hview.actionable with hchecks | hchecks
      · rw [hchecks, ok_bind, restoreReview]
        by_cases hnone : (liveReviewsOf db review.messageFlagId review.reviewerId).isEmpty = true
        · left
          refine ⟨{ db with reviews := restoreRow db.reviews review.id }, ?_⟩
          simp only [hnone, check, if_true, ok_bind]
          rfl
        · right; right
          simp only [hnone, check]
          rfl
      · right; left
        rw [hchecks]
        rfl
    · -- A verdict of somebody else, without the break-glass.
      refine iff_of_false ?_ fun h => htouch h.2
      simp only [requirePermission_eq_ok hdelete, htouch, check, ok_bind]
      rintro (⟨db', h⟩ | h | h) <;> cases h
  · refine iff_of_false ?_ fun h => hdelete h.1
    simp only [requirePermission, hdelete, decide_false, check]
    rintro (⟨db', h⟩ | h | h) <;> cases h

/-! ### What they disagree about -/

/-- The restore of an own pending review agrees with the assignment unless the review is
stranded. -/
theorem reassign_iff (hinv : Inv db) (hrow : review ∈ db.reviews)
    (hcreate : .reviewsCreate ∈ ctx.caller.permissions)
    (hdelete : .reviewsDelete ∈ ctx.caller.permissions)
    (hfresh : ∀ review ∈ db.reviews, key review ≠ ctx.fresh.row)
    (hown : OwnTombstone settings ctx review) (hpending : review.status = .pending) :
    (Restores db settings ctx review.id ↔ Assigns db ctx review.messageFlagId review.reviewerId) ↔
      ¬ Stranded db settings ctx review := by
  rw [restores_pending_iff hinv hrow hcreate hdelete hown hpending, assigns_iff hcreate hfresh]
  constructor
  · rintro hagree ⟨-, -, flag, hmem, hkey, hlive, hvisible, hmay, hdead⟩
    have hflag := resolveAssignableFlag_eq_ok.mpr ⟨⟨hmem, hkey, hlive⟩, hvisible⟩
    obtain ⟨flag', hflag', -, hconversation⟩ := hagree.mpr ⟨flag, hflag, hmay⟩
    have hsame : flag = flag' := Except.ok.inj (hflag.symm.trans hflag')
    rw [← hsame, hdead] at hconversation
    cases hconversation
  · intro hnot
    constructor
    · rintro ⟨flag, hflag, hmay, -⟩
      exact ⟨flag, hflag, hmay⟩
    · rintro ⟨flag, hflag, hmay⟩
      refine ⟨flag, hflag, hmay, ?_⟩
      by_contra hdead
      obtain ⟨⟨hmem, hkey, hlive⟩, hvisible⟩ := resolveAssignableFlag_eq_ok.mp hflag
      exact hnot ⟨hown, hpending, flag, hmem, hkey, hlive, hvisible, hmay, by simpa using hdead⟩

/-- The four parts agree exactly when nothing disturbs the two that can fail. -/
theorem reviewersAgree_iff (hinv : Inv db)
    (hfresh : ∀ review ∈ db.reviews, key review ≠ ctx.fresh.row) :
    ReviewersAgree texts db settings ctx ↔ Undisturbed db settings ctx := by
  constructor
  · intro hagree
    exact
      { reassign := fun hcreate hdelete review hrow hstranded =>
          (reassign_iff hinv hrow hcreate hdelete hfresh hstranded.own hstranded.pending).mp
            (hagree.reassign hcreate hdelete review hrow hstranded.own hstranded.pending)
              hstranded
        listed := fun hread review hrow hview =>
          (restores_or_conflicts_iff hrow hview).mp
            (hagree.listed hread review hrow ((listed_review_iff hread hrow).mpr hview)) }
  · intro hundisturbed
    exact
      { picker := fun flagId hassign u =>
          (inPicker_iff hassign.1).trans (assigns_iff hassign.1 hfresh).symm
        reassign := fun hcreate hdelete review hrow hown hpending =>
          (reassign_iff hinv hrow hcreate hdelete hfresh hown hpending).mpr
            (hundisturbed.reassign hcreate hdelete review hrow)
        listed := fun hread review hrow hlisted =>
          have hview := (listed_review_iff hread hrow).mp hlisted
          (restores_or_conflicts_iff hrow hview).mpr (hundisturbed.listed hread review hrow hview)
        complete := by
          intro hread review hrow hrestores
          obtain ⟨-, hown, hscope, -, hchecks, -⟩ := (restores_iff hrow).mp hrestores
          refine (listed_review_iff hread hrow).mpr ⟨hown, hscope, ?_⟩
          rcases assertReviewReassignable_eq_ok.mp hchecks with hdecided | hpending
          · simp [isActionable, hdecided]
          · obtain ⟨flag, hflag, hundecided, hlive, -⟩ := hpending
            simp [isActionable, hflag, hundecided, hlive] }

/-- In every state that a run reaches, for every caller: the picker, the assignment, the restore,
and the deleted view agree exactly when no tombstone is stranded, and the caller may touch what
the view shows. -/
theorem reviewers_agree_iff {events : List Event} (hstart : db.reviews = .empty)
    (hrun : run (step settings) db events = some db')
    (hfresh : ∀ review ∈ db'.reviews, key review ≠ ctx.fresh.row) :
    ReviewersAgree texts db' settings ctx ↔ Undisturbed db' settings ctx :=
  reviewersAgree_iff (inv_of_run hstart hrun) hfresh

end

/-! ### A manager who was demoted -/

/-- User 2 has flagged the conversation 41 of a public group, and user 3 is an annotator. -/
def submitted : Database where
  base :=
    { Evaluations.deployed with
      auth := Evaluations.deployed.auth.setUser 3
        { email := "ann@acme.org", status := .active,
          roleIds := [Accounts.systemRoleId .annotator] }
      groups := .single { id := 30, createdAt := 0, createdById := 1, status := .approved,
                          accessLevel := .public }
      evaluations := .single { id := 31, createdAt := 0, title := "Trial", createdById := 1,
                               evaluationGroupId := 30 } }
  conversations := ⟨[{ id := 41, createdAt := 0, userId := 2, evaluationId := 31,
                       evaluationAiModelId := 32, conversationGroupId := 40,
                       scenarioId := 33 }], by simp⟩
  flags :=
    ⟨[{ id := 50, createdAt := 0, createdById := 2, conversationId := 41, evaluationId := 31,
               evaluationGroupId := 30 }], by simp⟩
  reviews := .empty

/-- A request that makes the row. -/
def requestOf (caller : SessionUser) (row : UUID) : Context :=
  { (Evaluations.Label.byRoot row (.deleteModel 0)).toContext with caller }

/-- The order of the code points, and `LIKE`. -/
def byCodePoint : Texts where
  le s t := decide (¬ t < s)
  contains s t := (s.splitOn t).length != 1

/-- The session of user 3. -/
def annotatorSession : SessionUser where
  id := 3
  provider := "local"
  permissions := SystemRole.annotator.permissions
  authTime := none
  issuedAt := none

/-- User 1, who is an annotator now. -/
def demoted : SessionUser :=
  { Accounts.rootSession with permissions := SystemRole.annotator.permissions }

/-- User 1 assigns user 3, and unassigns the pending review. -/
def unassigned : List Event :=
  [.assign (requestOf Accounts.rootSession 60) 50 3,
    .unassign (requestOf Accounts.rootSession 61) 60]

/-- User 1 is still a manager, and the four parts agree about the review. -/
theorem reviewers_agree_iff_unassigned :
    ∃ db, run (step Evaluations.thirtyDays) submitted unassigned = some db ∧
      (∃ review ∈ db.reviews, live review = false) ∧
      ReviewersAgree byCodePoint db Evaluations.thirtyDays
        (requestOf Accounts.rootSession 70) := by
  have hany : (run (step Evaluations.thirtyDays) submitted unassigned).any (fun db =>
      (db.reviews.rows.any fun review => !live review) &&
        (db.reviews.rows.all fun review => key review != 70) &&
        db.flags.rows.all fun flag => (findLive db.conversations flag.conversationId).isSome) =
          true := by
    decide +kernel
  obtain ⟨db, hrun, hcheck⟩ := exists_run_of_any hany
  simp only [Bool.and_eq_true, List.any_eq_true, List.all_eq_true, bne_iff_ne, ne_eq,
    Bool.not_eq_true'] at hcheck
  obtain ⟨⟨hdead, hfresh⟩, hconversations⟩ := hcheck
  refine ⟨db, hrun, hdead, (reviewers_agree_iff rfl hrun hfresh).mpr ⟨?_, ?_⟩⟩
  · rintro - - review - ⟨-, -, flag, hmem, -, -, -, -, hgone⟩
    have hconversation := hconversations flag hmem
    rw [hgone] at hconversation
    cases hconversation
  · intro _ review _ _
    have hmanage : (requestOf Accounts.rootSession 70).canManage = true := by decide
    exact ⟨by decide, by simp [mayTouch, hmanage]⟩

/-- User 1 assigns user 3, who approves the submission, and unassigns the verdict. -/
def verdictUnassigned : List Event :=
  [.assign (requestOf Accounts.rootSession 60) 50 3,
    .verdict (requestOf annotatorSession 61) 60 { status := some .approved },
    .unassign (requestOf Accounts.rootSession 62) 60]

/-- After that, user 1 is an annotator. The deleted view shows the verdict, and its restore is
refused. -/
theorem verdict_listed_and_refused :
    ¬ ∀ (texts : Texts) (settings : Evaluations.Settings) (db db' : Database)
      (events : List Event)
        (ctx : Context),
      db.reviews = .empty → run (step settings) db events = some db' →
      (∀ review ∈ db'.reviews, key review ≠ ctx.fresh.row) →
      ReviewersAgree texts db' settings ctx := by
  intro hall
  have hany : (run (step Evaluations.thirtyDays) submitted verdictUnassigned).any (fun db =>
      (db.reviews.rows.any fun review =>
        (Entity.base review).restorable
          ((requestOf demoted 70).restoreCutoff Evaluations.thirtyDays)
            (requestOf demoted 70).deletedBy &&
          scopeReviews db (requestOf demoted 70) review && isActionable db review &&
          !mayTouch (requestOf demoted 70) review) &&
        db.reviews.rows.all fun review => key review != 70) = true := by
    decide +kernel
  obtain ⟨db, hrun, hcheck⟩ := exists_run_of_any hany
  simp only [Bool.and_eq_true, List.any_eq_true, List.all_eq_true, bne_iff_ne, ne_eq,
    Bool.not_eq_true'] at hcheck
  obtain ⟨⟨review, hrow, ⟨⟨hown, hscope⟩, hactionable⟩, htouch⟩, hfresh⟩ := hcheck
  have hview : InDeletedView db Evaluations.thirtyDays (requestOf demoted 70) review :=
    ⟨hown, hscope, hactionable⟩
  have hread : .reviewsRead ∈ (requestOf demoted 70).caller.permissions := by decide
  have hagree := hall byCodePoint Evaluations.thirtyDays submitted db verdictUnassigned
    (requestOf demoted 70) rfl hrun hfresh
  have hlisted := (listed_review_iff hread hrow).mpr hview
  have hmay := (restores_or_conflicts_iff hrow hview).mp (hagree.listed hread review hrow hlisted)
  rw [htouch] at hmay
  cases hmay.2

end RedTeaming.Reviews
