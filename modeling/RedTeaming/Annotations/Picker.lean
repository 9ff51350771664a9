import RedTeaming.Annotations.Names
import RedTeaming.Library.Distinct
import RedTeaming.Library.Listing
import Mathlib.Data.Prod.Lex

/-!
# `RedTeaming.Annotations.Picker`: the label picker is the gate

`list_annotation_labels` of `core/annotations/services/annotation_labels.py`, and
`create_annotation` of `core/annotations/services/annotations.py` as one request that runs alone.
The picker is one query, with an anti-join that leaves one label of each wording. The create looks
a label up in steps.

`picker_is_gate` says that the two agree, in every state that a run reaches: each label on offer
is accepted, no two of them have one wording, each label that is accepted has its wording on
offer, and a label that is picked is the one that its wording names. `run_createAnnotation` says
that the request is what the statements of a transaction compute.
-/

set_option autoImplicit false

namespace RedTeaming.Annotations

open RedTeaming.Auth
open RedTeaming.Conversations.Tags (sanitiseSingleLine sanitise_idem)
open RedTeaming.Library

/-! ### The picker -/

section
variable (w : Wording) (s : State) (callerId : UserId) (canManage : Bool)
  (conversationId : Option UUID)

/-- `_offered`: the label is curated, the caller's own, or used in the conversation. -/
def offered (label : AnnotationLabel) : Bool :=
  label.createdById.isNone || label.createdById == some callerId ||
    conversationId.any fun conversationId =>
      (labelsUsedInConversation s.around s.annotations conversationId callerId canManage).contains
        label.id

/-- `_precedence`: curated, then the caller's own, then a colleague's. -/
def precedence (label : AnnotationLabel) : Nat :=
  if label.createdById.isNone then 0 else if label.createdById == some callerId then 1 else 2

/-- A condition of `outranked`: a label of the wording is on offer, and comes first. -/
def outranks (better label : AnnotationLabel) : Bool :=
  live better && sameWording w better.name label.name &&
    offered s callerId canManage conversationId better &&
    (decide (precedence callerId better < precedence callerId label) ||
      decide (precedence callerId better = precedence callerId label) &&
        decide (better.id < label.id))

/-- `ORDER BY lower(name), id`. The collation is the database's. -/
def byName (collate : String → String → Bool) (label label' : AnnotationLabel) : Bool :=
  if w.lower label.name = w.lower label'.name then decide (label.id ≤ label'.id)
  else collate (w.lower label.name) (w.lower label'.name)

/-- `list_annotation_labels`. -/
def listAnnotationLabels (collate : String → String → Bool) (limit offset : Nat) :
    Page AnnotationLabel :=
  ListQuery.page { le := byName w collate, limit, offset }
    ((liveSelect s.labels).filter fun label =>
      offered s callerId canManage conversationId label &&
        !s.labels.rows.any fun better =>
          outranks w s callerId canManage conversationId better label)

end

/-! ### The create -/

/-- The label that `find_or_create_user_label` makes. -/
def Context.userLabel (ctx : Context) (name : String) : AnnotationLabel where
  toBaseModel := ctx.newRow ctx.freshLabel
  createdById := some ctx.callerId
  name

/-- What `create_annotation` returns, with the tables after it. -/
structure Outcome where
  labels : Table AnnotationLabel
  annotations : Table Annotation
  row : Annotation
  created : Bool

/-- `_get_live_duplicate`. `scalar_one_or_none` raises when there are several. -/
def getLiveDuplicate (annotations : Table Annotation) (messageId labelId : UUID)
    (callerId : UserId) : Except ApiError (Option Annotation) :=
  match liveDuplicates annotations messageId labelId callerId with
  | [] => .ok none
  | [row] => .ok (some row)
  | _ => .error (.runtimeError "Multiple rows were found when one or none was required")

section
variable (w : Wording) (s : State) (ctx : Context)

/-- `find_or_create_user_label`: the curated label of the wording, the caller's own, or a new one.
No other insert comes between the lookup and this one. -/
def findOrCreateUserLabel (name : String) :
    Except ApiError (Table AnnotationLabel × AnnotationLabel) :=
  let cleaned := sanitiseSingleLine name
  match sharedLabel w s.labels cleaned with
  | some curated => .ok (s.labels, curated)
  | none => do
    match ← ownLabel w s.labels ctx.callerId cleaned with
    | some existing => return (s.labels, existing)
    | none =>
      let label := ctx.userLabel cleaned
      let labels ← flush s.labels [label]
      return (labels, label)

/-- The error of `_resolve_label`. -/
def labelNotFound (labelId : UUID) : ApiError :=
  .notFound ("Annotation label " ++ toString labelId ++ " not found.")

/-- `_resolve_label`: a curated label and one of the caller's name themselves. A colleague's label
that is used in the conversation names the caller's own of its wording. -/
def resolveLabel (conversationId labelId : UUID) :
    Except ApiError (Table AnnotationLabel × AnnotationLabel) := do
  let label ← found (findLive s.labels labelId) (labelNotFound labelId)
  if label.createdById.isNone || label.createdById == some ctx.callerId then
    return (s.labels, label)
  else
    check ((labelsUsedInConversation s.around s.annotations conversationId ctx.callerId
      false).contains labelId) (labelNotFound labelId)
    findOrCreateUserLabel w s ctx label.name

/-- The label that the draft names. -/
def namedLabel (draft : AnnotationCreate) (conversationId : UUID) :
    Except ApiError (Table AnnotationLabel × AnnotationLabel) :=
  match draft.labelId, draft.text with
  | some labelId, _ => resolveLabel w s ctx conversationId labelId
  | none, some text => findOrCreateUserLabel w s ctx text
  | none, none => .error (.badRequest "Provide exactly one of 'label_id' and 'text'.")

/-- The annotation that `create_annotation` makes. -/
def Context.annotate (anchor : Anchor) (messageId labelId : UUID) : Annotation where
  toBaseModel := ctx.newRow ctx.fresh.row
  messageId
  labelId
  createdById := ctx.callerId
  conversationId := anchor.conversation.id
  evaluationId := anchor.conversation.evaluationId
  evaluationGroupId := anchor.evaluationGroupId

/-- The end of `create_annotation`: the caller's annotation with the label, or a new one. -/
def attach (anchor : Anchor) (messageId : UUID) (labels : Table AnnotationLabel)
    (labelId : UUID) : Except ApiError Outcome := do
  match ← getLiveDuplicate s.annotations messageId labelId ctx.callerId with
  | some existing => return ⟨labels, s.annotations, existing, false⟩
  | none =>
    let row := ctx.annotate anchor messageId labelId
    let annotations ← flush s.annotations [row]
    return ⟨labels, annotations, row, true⟩

/-- `create_annotation`. -/
def createAnnotation (draft : AnnotationCreate) : Except ApiError Outcome := do
  let anchor ← resolveAnnotationMessage s.around draft.messageId ctx.callerId
  let (labels, label) ← namedLabel w s ctx draft anchor.conversation.id
  attach s ctx anchor draft.messageId labels label.id

/-- The endpoint that annotates. -/
def createAnnotationEndpoint (payload : AnnotationCreate) : Except ApiError Outcome := do
  requirePermission ctx.caller .annotationsCreate
  let draft ← payload.validate
  createAnnotation w s ctx draft

/-- The request that picks a label. -/
def pick (messageId labelId : UUID) : Except ApiError Outcome :=
  createAnnotationEndpoint w s ctx { messageId, labelId := some labelId }

/-- The request that types a text. -/
def typeText (messageId : UUID) (text : String) : Except ApiError Outcome :=
  createAnnotationEndpoint w s ctx { messageId, text := some text }

end

/-! ### The statement -/

section
variable (w : Wording) (collate : String → String → Bool) (s : State) (ctx : Context)
  (messageId conversationId : UUID)

/-- The label is on a page of the picker for the conversation. -/
def OnOffer (label : AnnotationLabel) : Prop :=
  ∃ limit offset, label ∈
    (listAnnotationLabels w s ctx.callerId ctx.canManage (some conversationId) collate limit
      offset).items

/-- The caller may annotate the message: the route lets the caller in, the message is in sight,
and the ids that are drawn are new. -/
structure MayAnnotate (anchor : Anchor) : Prop where
  permitted : Permission.annotationsCreate ∈ ctx.caller.permissions
  anchor : resolveAnnotationMessage s.around messageId ctx.callerId = .ok anchor
  freshLabel : ∀ label ∈ s.labels, key label ≠ ctx.freshLabel
  freshRow : ∀ row ∈ s.annotations, key row ≠ ctx.fresh.row

/-- The picker and the create agree. -/
structure PickerIsGate : Prop where
  /-- Each label on offer is accepted. -/
  accepted : ∀ label, OnOffer w collate s ctx conversationId label →
    ∃ outcome, pick w s ctx messageId label.id = .ok outcome
  /-- No two labels on offer have one wording. -/
  distinct : ∀ label label', OnOffer w collate s ctx conversationId label →
    OnOffer w collate s ctx conversationId label' →
    w.lower label.name = w.lower label'.name → label = label'
  /-- No label is twice on a page. -/
  once : ∀ limit offset,
    (listAnnotationLabels w s ctx.callerId ctx.canManage (some conversationId)
    collate limit offset).items.Nodup
  /-- A label that is accepted has its wording on offer. -/
  covers : ∀ labelId outcome, pick w s ctx messageId labelId = .ok outcome →
    ∃ label ∈ s.labels, key label = labelId ∧
      ∃ shown, OnOffer w collate s ctx conversationId shown ∧
        w.lower shown.name = w.lower label.name
  /-- A text of the wording attaches the label that is picked. -/
  same : ∀ label, OnOffer w collate s ctx conversationId label →
    ∀ text, 1 ≤ text.length → text.length ≤ annotationTextMaxLength →
      w.lower (sanitiseSingleLine text) = w.lower label.name → sanitiseSingleLine text ≠ "" →
        ∃ picked typed, pick w s ctx messageId label.id = .ok picked ∧
          typeText w s ctx messageId text = .ok typed ∧
          picked.row = typed.row ∧ picked.created = typed.created
  /-- Its own name does the very same. -/
  named : ∀ label, OnOffer w collate s ctx conversationId label →
    typeText w s ctx messageId label.name = pick w s ctx messageId label.id

end

section
variable {w : Wording} {collate : String → String → Bool} {s : State} {ctx : Context}
  {messageId conversationId labelId : UUID} {name name' : String} {label : AnnotationLabel}

/-! ### What is on offer -/

/-- The live labels that the picker chooses from. -/
def choices (s : State) (ctx : Context) (conversationId : UUID) : List AnnotationLabel :=
  (liveSelect s.labels).filter (offered s ctx.callerId ctx.canManage (some conversationId))

/-- The place of a label among those of its wording. -/
def place (ctx : Context) (label : AnnotationLabel) : ℕ ×ₗ ℕ :=
  toLex (precedence ctx.callerId label, label.id)

theorem mem_choices :
    label ∈ choices s ctx conversationId ↔ (label ∈ s.labels ∧ live label = true) ∧
    offered s ctx.callerId ctx.canManage (some conversationId) label = true := by
  rw [choices, List.mem_filter, mem_liveSelect]

/-- Two labels of one place are the same. -/
theorem eq_of_place_eq {label' : AnnotationLabel} (hmem : label ∈ s.labels)
    (hmem' : label' ∈ s.labels) (h : place ctx label = place ctx label') : label = label' := by
  have hid : label.id = label'.id := congrArg (fun p => (ofLex p).2) h
  exact Table.eq_of_key_eq hmem hmem' hid

/-- A label is outranked when a choice of its wording comes first. -/
theorem outranks_iff {better : AnnotationLabel} :
    (better ∈ s.labels ∧
      outranks w s ctx.callerId ctx.canManage (some conversationId) better label = true) ↔
      better ∈ choices s ctx conversationId ∧ w.lower better.name = w.lower label.name ∧
        place ctx better < place ctx label := by
  rw [mem_choices, place, place, Prod.Lex.toLex_lt_toLex]
  simp only [outranks, Bool.and_eq_true, Bool.or_eq_true, sameWording_iff, decide_eq_true_eq]
  tauto

/-- The picker shows the best choice of each wording. -/
theorem onOffer_iff : OnOffer w collate s ctx conversationId label ↔
    label ∈ bestOfKey (fun label => w.lower label.name) (place ctx)
      (choices s ctx conversationId) := by
  have hrows : label ∈ (liveSelect s.labels).filter (fun label =>
      offered s ctx.callerId ctx.canManage (some conversationId) label &&
        !s.labels.rows.any fun better =>
          outranks w s ctx.callerId ctx.canManage (some conversationId) better label) ↔
      label ∈ bestOfKey (fun label => w.lower label.name) (place ctx)
        (choices s ctx conversationId) := by
    rw [mem_bestOfKey, mem_choices, List.mem_filter, mem_liveSelect,
      Bool.and_eq_true, ← and_assoc]
    refine and_congr_right fun _ => ?_
    rw [Bool.not_eq_true', List.any_eq_false]
    constructor
    · intro hnone better hbetter hname
      refine not_lt.mp fun hlt => ?_
      obtain ⟨hmem, houtranks⟩ := outranks_iff.mpr ⟨hbetter, hname, hlt⟩
      exact hnone better hmem houtranks
    · intro hbest better hmem houtranks
      obtain ⟨hbetter, hname, hlt⟩ := outranks_iff.mp ⟨hmem, houtranks⟩
      exact absurd hlt (hbest better hbetter hname).not_gt
  rw [← hrows]
  constructor
  · rintro ⟨limit, offset, hshown⟩
    exact (ListQuery.mem_of_mem_page hshown).1
  · intro hmem
    obtain ⟨offset, hshown⟩ := ListQuery.exists_mem_page hmem false (byName w collate)
    exact ⟨1, offset, hshown⟩

/-! ### What a text names -/

/-- The first curated label has the lowest id. -/
theorem sharedLabel_le {labels : Table AnnotationLabel}
    (h : sharedLabel w labels name = some label)
    {other : AnnotationLabel} (hmem : other ∈ labels) (hlive : live other = true)
    (hcurated : other.createdById = none) (hname : w.lower other.name = w.lower name) :
    label.id ≤ other.id := by
  have hsorted : (((liveSelect labels).filter fun row =>
      row.createdById.isNone && sameWording w row.name name).mergeSort
        fun row row' => decide (row.id ≤ row'.id)).Pairwise
          fun row row' => decide (row.id ≤ row'.id) = true := by
    apply List.pairwise_mergeSort
    · intro a b c hab hbc
      exact decide_eq_true (Nat.le_trans (of_decide_eq_true hab) (of_decide_eq_true hbc))
    · intro a b
      simpa using Nat.le_total a.id b.id
  have hfound : other ∈ ((liveSelect labels).filter fun row =>
      row.createdById.isNone && sameWording w row.name name).mergeSort
        fun row row' => decide (row.id ≤ row'.id) := by
    rw [List.mem_mergeSort, List.mem_filter, mem_liveSelect, Bool.and_eq_true, sameWording_iff,
      Option.isNone_iff_eq_none]
    exact ⟨⟨hmem, hlive⟩, hcurated, hname⟩
  unfold sharedLabel at h
  cases hrows : ((liveSelect labels).filter fun row =>
      row.createdById.isNone && sameWording w row.name name).mergeSort
        fun row row' => decide (row.id ≤ row'.id) with
  | nil =>
    rw [hrows] at hfound
    cases hfound
  | cons first rest =>
    rw [hrows] at h hsorted hfound
    cases h
    rcases List.mem_cons.mp hfound with rfl | hrest
    · exact Nat.le_refl _
    · exact of_decide_eq_true ((List.pairwise_cons.mp hsorted).1 other hrest)

/-- What the curated lookup finds is live. -/
theorem live_of_sharedLabel {labels : Table AnnotationLabel}
    (h : sharedLabel w labels name = some label) :
    live label = true := by
  have hmem := List.mem_of_mem_head? (Option.mem_def.mpr h)
  rw [List.mem_mergeSort, List.mem_filter, mem_liveSelect] at hmem
  exact hmem.1.2

/-- The curated lookup reads the wording only. -/
theorem sharedLabel_congr {labels : Table AnnotationLabel} (h : w.lower name = w.lower name') :
    sharedLabel w labels name = sharedLabel w labels name' := by
  simp only [sharedLabel, sameWording, h]

/-- The lookup of the caller's labels reads the wording only. -/
theorem ownLabel_congr {labels : Table AnnotationLabel} {author : UserId}
    (h : w.lower name = w.lower name') :
    ownLabel w labels author name = ownLabel w labels author name' := by
  simp only [ownLabel, ownLabels, sameWording, h]

section
variable (hbest : label ∈ bestOfKey (fun label => w.lower label.name) (place ctx)
  (choices s ctx conversationId))
include hbest

/-- No choice of its wording comes before a label on offer. -/
theorem place_le_of_best {other : AnnotationLabel} (hmem : other ∈ s.labels)
    (hlive : live other = true)
    (husable : other.createdById = none ∨ other.createdById = some ctx.callerId)
    (hname : w.lower other.name = w.lower label.name) : place ctx label ≤ place ctx other := by
  refine (mem_bestOfKey.mp hbest).2 other (mem_choices.mpr ⟨⟨hmem, hlive⟩, ?_⟩) hname
  rcases husable with hnone | hown
  · simp [offered, hnone]
  · simp [offered, hown]

/-- A curated label on offer is the one that its wording names. -/
theorem sharedLabel_of_best (hcurated : label.createdById = none) :
    sharedLabel w s.labels label.name = some label := by
  obtain ⟨⟨hmem, hlive⟩, -⟩ := mem_choices.mp (mem_bestOfKey.mp hbest).1
  cases hshared : sharedLabel w s.labels label.name with
  | none => exact absurd hcurated (sharedLabel_eq_none hshared hmem hlive rfl)
  | some first =>
    obtain ⟨hfirst, hfirst_curated, hname⟩ := sharedLabel_spec hshared
    have hfirst_live := live_of_sharedLabel hshared
    have hle : first.id ≤ label.id := sharedLabel_le hshared hmem hlive hcurated rfl
    have hplace := place_le_of_best hbest hfirst hfirst_live (.inl hfirst_curated) hname
    rw [place, place, Prod.Lex.toLex_le_toLex] at hplace
    simp only [precedence, hcurated, hfirst_curated, Option.isNone_none, if_true,
      lt_self_iff_false, true_and, false_or] at hplace
    have hid : first.id = label.id := Nat.le_antisymm hle hplace
    rw [Table.eq_of_key_eq hfirst hmem hid]

/-- The wording of another label on offer has no curated label. -/
theorem sharedLabel_eq_none_of_best (htyped : label.createdById ≠ none) :
    sharedLabel w s.labels label.name = none := by
  cases hshared : sharedLabel w s.labels label.name with
  | none => rfl
  | some first =>
    obtain ⟨hfirst, hcurated, hname⟩ := sharedLabel_spec hshared
    have hplace := place_le_of_best hbest hfirst (live_of_sharedLabel hshared)
        (.inl hcurated) hname
    rw [place, place, Prod.Lex.toLex_le_toLex] at hplace
    have hzero : precedence ctx.callerId first = 0 := by simp [precedence, hcurated]
    have hpos : precedence ctx.callerId label ≠ 0 := by
      unfold precedence
      rw [if_neg (by simpa using htyped)]
      split <;> simp
    rw [hzero] at hplace
    rcases hplace with hlt | ⟨heq, -⟩
    · exact absurd hlt (Nat.not_lt_zero _)
    · exact absurd heq hpos

/-- A label of the caller on offer is the one that its wording names. -/
theorem ownLabel_of_best (hone : OneOwn w s.labels)
    (hown : label.createdById = some ctx.callerId) :
    ownLabel w s.labels ctx.callerId label.name = .ok (some label) := by
  obtain ⟨⟨hmem, hlive⟩, -⟩ := mem_choices.mp (mem_bestOfKey.mp hbest).1
  have hfound : label ∈ ownLabels w s.labels ctx.callerId label.name :=
    mem_ownLabels.mpr ⟨hmem, hlive, hown, rfl⟩
  have hsame : ∀ a ∈ ownLabels w s.labels ctx.callerId label.name, a = label := by
    intro a ha
    obtain ⟨hamem, halive, haown, haname⟩ := mem_ownLabels.mp ha
    exact hone a hamem label hmem halive hlive ctx.callerId haown hown haname
  have hnodup : (ownLabels w s.labels ctx.callerId label.name).Nodup := by
    unfold ownLabels liveSelect
    exact ((List.Nodup.of_map _ s.labels.nodup).filter _).filter _
  rcases eq_nil_or_singleton hnodup fun a ha b hb => (hsame a ha).trans (hsame b hb).symm with
    hnil | ⟨a, hsingle⟩
  · rw [hnil] at hfound
    cases hfound
  · have ha : a = label := hsame a (by rw [hsingle]; exact List.mem_cons_self)
    rw [ownLabel, hsingle, ha]

/-- The caller has no label of the wording of a colleague's label on offer. -/
theorem ownLabel_eq_none_of_best (hother : label.createdById ≠ none)
    (hforeign : label.createdById ≠ some ctx.callerId) :
    ownLabel w s.labels ctx.callerId label.name = .ok none := by
  have hnil : ownLabels w s.labels ctx.callerId label.name = [] := by
    rw [List.eq_nil_iff_forall_not_mem]
    intro own hfound
    obtain ⟨hmem, hlive, hown, hname⟩ := mem_ownLabels.mp hfound
    have hplace := place_le_of_best hbest hmem hlive (.inr hown) hname
    rw [place, place, Prod.Lex.toLex_le_toLex] at hplace
    have hlast : precedence ctx.callerId label = 2 := by
      unfold precedence
      rw [if_neg (by simpa using hother), if_neg (by simpa using hforeign)]
    have hsecond : precedence ctx.callerId own = 1 := by simp [precedence, hown]
    rw [hlast, hsecond] at hplace
    omega
  rw [ownLabel, hnil]

end

/-! ### What the create does -/

/-- The end of the create does not depend on the labels. -/
theorem exists_attach (hunique : OneTriple s.annotations) (anchor : Anchor)
    (hfresh : ∀ row ∈ s.annotations, key row ≠ ctx.fresh.row) (messageId labelId : UUID) :
    ∃ annotations row created, ∀ labels,
      attach s ctx anchor messageId labels labelId = .ok ⟨labels, annotations, row, created⟩ := by
  have hnodup : (liveDuplicates s.annotations messageId labelId ctx.callerId).Nodup := by
    unfold liveDuplicates liveSelect
    exact ((List.Nodup.of_map _ s.annotations.nodup).filter _).filter _
  -- at most one live annotation has the triple, so the duplicate is unique
  have hsame : ∀ a ∈ liveDuplicates s.annotations messageId labelId ctx.callerId,
      ∀ b ∈ liveDuplicates s.annotations messageId labelId ctx.callerId, a = b := by
    intro a ha b hb
    rw [liveDuplicates, List.mem_filter, mem_liveSelect] at ha hb
    simp only [Bool.and_eq_true, beq_iff_eq] at ha hb
    obtain ⟨⟨hamem, halive⟩, ⟨hamessage, halabel⟩, haauthor⟩ := ha
    obtain ⟨⟨hbmem, hblive⟩, ⟨hbmessage, hblabel⟩, hbauthor⟩ := hb
    refine hunique a hamem b hbmem halive hblive ?_
    rw [ Annotation.triple, Annotation.triple, hamessage, halabel, haauthor, hbmessage,
      hblabel, hbauthor]
  rcases eq_nil_or_singleton hnodup hsame with hnil | ⟨existing, hsingle⟩
  · obtain ⟨annotations, hflush⟩ : ∃ annotations,
        flush s.annotations [ctx.annotate anchor messageId labelId] = .ok annotations :=
      exists_flush hfresh
    refine ⟨annotations, ctx.annotate anchor messageId labelId, true, fun labels => ?_⟩
    simp only [attach, getLiveDuplicate, hnil, hflush, ok_bind]
    rfl
  · refine ⟨s.annotations, existing, false, fun labels => ?_⟩
    simp only [attach, getLiveDuplicate, hsingle, ok_bind]
    rfl

section
variable {anchor : Anchor} (hmay : MayAnnotate s ctx messageId anchor)
include hmay

/-- A pick resolves the label. -/
theorem pick_eq : pick w s ctx messageId labelId = (do
    let (labels, label) ← resolveLabel w s ctx anchor.conversation.id labelId
    attach s ctx anchor messageId labels label.id) := by
  have hpermitted : requirePermission ctx.caller .annotationsCreate = .ok () :=
    check_eq_ok.mpr (decide_eq_true hmay.permitted)
  have hvalid : AnnotationCreate.validate { messageId, labelId := some labelId } =
      .ok { messageId, labelId := some labelId } := rfl
  simp only [pick, createAnnotationEndpoint, createAnnotation, hvalid, namedLabel,
    hpermitted, hmay.anchor, ok_bind]

/-- A text that is typed names the label of its wording. -/
theorem typeText_eq {text : String} (hpos : 1 ≤ text.length)
    (hshort : text.length ≤ annotationTextMaxLength) (hvisible : sanitiseSingleLine text ≠ "") :
    typeText w s ctx messageId text = (do
      let (labels, label) ← findOrCreateUserLabel w s ctx (sanitiseSingleLine text)
      attach s ctx anchor messageId labels label.id) := by
  have hpermitted : requirePermission ctx.caller .annotationsCreate = .ok () :=
    check_eq_ok.mpr (decide_eq_true hmay.permitted)
  have hvalid : AnnotationCreate.validate { messageId, text := some text } =
      .ok { messageId, text := some (sanitiseSingleLine text) } := by
    simp [AnnotationCreate.validate, check, hpos, hshort, Option.filter, hvisible, ok_bind]
  simp only [typeText, createAnnotationEndpoint, createAnnotation, hvalid, namedLabel, hpermitted,
    hmay.anchor, ok_bind]

end

section
variable (hinv : NamesInv w s)
  (hbest : label ∈ bestOfKey (fun label => w.lower label.name) (place ctx)
  (choices s ctx conversationId))
include hinv hbest

/-- The texts of the wording of a label on offer name one label. -/
theorem findOrCreate_of_best (hfresh : ∀ label ∈ s.labels, key label ≠ ctx.freshLabel) :
    ∃ id, ∀ name, w.lower (sanitiseSingleLine name) = w.lower label.name →
      ∃ labels row, findOrCreateUserLabel w s ctx name = .ok (labels, row) ∧ row.id = id := by
  by_cases hcurated : label.createdById = none
  · refine ⟨label.id, fun name hname => ⟨s.labels, label, ?_, rfl⟩⟩
    simp only [findOrCreateUserLabel, sharedLabel_congr hname, sharedLabel_of_best hbest hcurated]
  · have hshared := sharedLabel_eq_none_of_best hbest hcurated
    by_cases hown : label.createdById = some ctx.callerId
    · refine ⟨label.id, fun name hname => ⟨s.labels, label, ?_, rfl⟩⟩
      simp only [findOrCreateUserLabel, sharedLabel_congr hname, hshared, ownLabel_congr hname,
        ownLabel_of_best hbest hinv.own hown, ok_bind]
      rfl
    · -- The label is a colleague's, and the caller gets one of their own.
      refine ⟨ctx.freshLabel, fun name hname => ?_⟩
      obtain ⟨labels, hflush⟩ : ∃ labels,
          flush s.labels [ctx.userLabel (sanitiseSingleLine name)] = .ok labels :=
        exists_flush hfresh
      refine ⟨labels, ctx.userLabel (sanitiseSingleLine name), ?_, rfl⟩
      simp only [findOrCreateUserLabel, sharedLabel_congr hname, hshared, ownLabel_congr hname,
        ownLabel_eq_none_of_best hbest hcurated hown, hflush, ok_bind]
      rfl

/-- Picking a label on offer is naming it. -/
theorem resolveLabel_of_best (hmanage : ctx.canManage = false) :
    resolveLabel w s ctx conversationId label.id = findOrCreateUserLabel w s ctx label.name := by
  obtain ⟨⟨hmem, hlive⟩, hoffered⟩ := mem_choices.mp (mem_bestOfKey.mp hbest).1
  have hclean : sanitiseSingleLine label.name = label.name := (hinv.clean label hmem hlive).clean
  have hfind : findLive s.labels label.id = some label := findLive_eq_some.mpr ⟨hmem, rfl, hlive⟩
  simp only [resolveLabel, hfind, found, ok_bind]
  by_cases hcurated : label.createdById = none
  · simp only [hcurated, Option.isNone_none, Bool.true_or, if_true, findOrCreateUserLabel, hclean,
      sharedLabel_of_best hbest hcurated]
    rfl
  · by_cases hown : label.createdById = some ctx.callerId
    · simp only [hown, beq_self_eq_true, Bool.or_true, if_true, findOrCreateUserLabel, hclean,
        sharedLabel_eq_none_of_best hbest hcurated, ownLabel_of_best hbest hinv.own hown, ok_bind]
    · have hforeign :
          (label.createdById.isNone || label.createdById == some ctx.callerId) = false := by
        rw [Bool.or_eq_false_iff, Option.isNone_eq_false_iff, Option.isSome_iff_ne_none,
          beq_eq_false_iff_ne]
        exact ⟨hcurated, hown⟩
      rw [offered, hforeign, hmanage, Bool.false_or, Option.any_some] at hoffered
      rw [hforeign, if_neg Bool.false_ne_true, hoffered]
      rfl

end

/-- A label that is accepted is a choice of the picker. -/
theorem mem_choices_of_resolveLabel (hmanage : ctx.canManage = false)
    {result : Table AnnotationLabel × AnnotationLabel}
    (h : resolveLabel w s ctx conversationId labelId = .ok result) :
    ∃ label ∈ choices s ctx conversationId, key label = labelId := by
  obtain ⟨label, hfound, h⟩ := bind_eq_ok.mp h
  obtain ⟨hmem, hkey, hlive⟩ := findLive_eq_some.mp (found_eq_ok.mp hfound)
  refine ⟨label, mem_choices.mpr ⟨⟨hmem, hlive⟩, ?_⟩, hkey⟩
  split at h
  · rename_i husable
    rw [offered, husable, Bool.true_or]
  · obtain ⟨_, hused, _⟩ := bind_eq_ok.mp h
    have hid : label.id = labelId := hkey
    rw [check_eq_ok, ← hid] at hused
    rw [offered, hmanage, Option.any_some, hused, Bool.or_true]

/-- No label is twice on a page. -/
theorem nodup_page (canManage : Bool) (conversation : Option UUID) (limit offset : Nat) :
    (listAnnotationLabels w s ctx.callerId canManage conversation collate limit
      offset).items.Nodup := by
  have hrows : s.labels.rows.Nodup := List.Nodup.of_map _ s.labels.nodup
  unfold listAnnotationLabels ListQuery.page liveSelect
  refine List.Nodup.sublist ((List.take_sublist _ _).trans (List.drop_sublist _ _)) ?_
  rw [(List.mergeSort_perm _ _).nodup_iff]
  exact ((hrows.filter _).filter _).filter _

/-- The picker and the create agree in a state with the invariant. -/
theorem NamesInv.pickerIsGate (hinv : NamesInv w s)
    (hmanage : ctx.canManage = false) {anchor : Anchor}
    (hmay : MayAnnotate s ctx messageId anchor) :
    PickerIsGate w collate s ctx messageId anchor.conversation.id := by
  have hattach := exists_attach hinv.unique anchor hmay.freshRow messageId
  -- Picking a label on offer, and typing a text of its wording, attach one label.
  have hsame : ∀ label, OnOffer w collate s ctx anchor.conversation.id label → ∃ row created,
      (∃ picked, pick w s ctx messageId label.id = .ok picked ∧ picked.row = row ∧
        picked.created = created) ∧
      ∀ text, 1 ≤ text.length → text.length ≤ annotationTextMaxLength →
        w.lower (sanitiseSingleLine text) = w.lower label.name → sanitiseSingleLine text ≠ "" →
          ∃ typed, typeText w s ctx messageId text = .ok typed ∧ typed.row = row ∧
            typed.created = created := by
    intro label hshown
    have hbest := onOffer_iff.mp hshown
    obtain ⟨⟨hmem, hlive⟩, -⟩ := mem_choices.mp (mem_bestOfKey.mp hbest).1
    have hclean : sanitiseSingleLine label.name = label.name :=
      (hinv.clean label hmem hlive).clean
    obtain ⟨id, hnames⟩ := findOrCreate_of_best hinv hbest hmay.freshLabel
    obtain ⟨annotations, row, created, hrow⟩ := hattach id
    refine ⟨row, created, ?_, fun text hpos hshort hname hvisible => ?_⟩
    · obtain ⟨labels, found, hfound, rfl⟩ := hnames label.name (by rw [hclean])
      refine ⟨⟨labels, annotations, row, created⟩, ?_, rfl, rfl⟩
      rw [pick_eq hmay, resolveLabel_of_best hinv hbest hmanage, hfound, ok_bind]
      exact hrow labels
    · have hcleaned : w.lower (sanitiseSingleLine (sanitiseSingleLine text)) =
          w.lower label.name := by
        rw [sanitise_idem, hname]
      obtain ⟨labels, found, hfound, rfl⟩ := hnames (sanitiseSingleLine text) hcleaned
      refine ⟨⟨labels, annotations, row, created⟩, ?_, rfl, rfl⟩
      rw [typeText_eq hmay hpos hshort hvisible, hfound, ok_bind]
      exact hrow labels
  constructor
  · intro label hshown
    obtain ⟨-, -, ⟨picked, hpicked, -, -⟩, -⟩ := hsame label hshown
    exact ⟨picked, hpicked⟩
  · intro label label' hshown hshown' hname
    refine eq_of_mem_bestOfKey ?_ (onOffer_iff.mp hshown) (onOffer_iff.mp hshown') hname
    intro a ha b hb hplace
    exact eq_of_place_eq (mem_choices.mp ha).1.1 (mem_choices.mp hb).1.1 hplace
  · exact nodup_page ctx.canManage (some anchor.conversation.id)
  · intro labelId outcome hpick
    rw [pick_eq hmay] at hpick
    obtain ⟨result, hresolve, -⟩ := bind_eq_ok.mp hpick
    obtain ⟨label, hchoice, hkey⟩ := mem_choices_of_resolveLabel hmanage hresolve
    obtain ⟨shown, hshown, hname⟩ : ∃ shown ∈
      bestOfKey (fun label => w.lower label.name) (place ctx)
        (choices s ctx anchor.conversation.id), w.lower shown.name = w.lower label.name :=
      exists_mem_bestOfKey hchoice
    exact ⟨label, (mem_choices.mp hchoice).1.1, hkey, shown, onOffer_iff.mpr hshown, hname⟩
  · intro label hshown text hpos hshort hname hvisible
    obtain ⟨row, created, ⟨picked, hpicked, hrow, hcreated⟩, htyped⟩ := hsame label hshown
    obtain ⟨typed, htyped, hrow', hcreated'⟩ := htyped text hpos hshort hname hvisible
    exact ⟨picked, typed, hpicked, htyped, hrow.trans hrow'.symm, hcreated.trans hcreated'.symm⟩
  · intro label hshown
    have hbest := onOffer_iff.mp hshown
    obtain ⟨⟨hmem, hlive⟩, -⟩ := mem_choices.mp (mem_bestOfKey.mp hbest).1
    have hclean := hinv.clean label hmem hlive
    have hvisible : sanitiseSingleLine label.name ≠ "" := by
      intro hempty
      have hpos := hclean.nonempty
      rw [hclean.clean] at hempty
      rw [hempty] at hpos
      exact absurd hpos (by decide)
    rw [typeText_eq hmay hclean.nonempty hclean.short hvisible, hclean.clean, pick_eq hmay,
      resolveLabel_of_best hinv hbest hmanage]

end

/-! ### The statements of the create -/

section
variable {w : Wording} {settings : Evaluations.Settings} {s : State} {t : TxnId} {x : Txn}
  {anchor : Anchor} {labelId : UUID} {name : String} {labels : Table AnnotationLabel}
  {annotations : Table Annotation}

/-- Nobody else holds a lock. -/
def Alone (s : State) (t : TxnId) : Prop := ∀ k t', s.locks k = some t' → t' = t

/-- The transaction ends with a commit that leaves these tables, when it runs alone. -/
def Ends (w : Wording) (settings : Evaluations.Settings) (s : State) (t : TxnId) (x : Txn)
    (labels : Table AnnotationLabel) (annotations : Table Annotation) : Prop :=
  ∃ statements s', run (step w settings) (s.put t x)
    (List.replicate statements (.statement t) ++ [.commit t]) = some s' ∧
      s'.labels = labels ∧ s'.annotations = annotations

/-- A transaction that is alone takes every lock. -/
theorem Alone.lock (h : Alone s t) (k : LockKey) :
    s.lock t k = some { s with locks := s.locks.take k t } := by
  have hmay : s.locks.mayTake k t = true := by
    unfold Locks.mayTake
    cases hk : s.locks k with
    | none => rfl
    | some t' => simp [h k t' hk]
  rw [State.lock, if_pos hmay]

/-- It is alone with one more lock. -/
theorem Alone.take (h : Alone s t) (k : LockKey) :
    Alone { s with locks := s.locks.take k t } t := by
  intro k' t' hk'
  by_cases hk : k' = k
  · subst hk
    have hself : (some t : Option TxnId) = some t' :=
      (Locks.take_self s.locks k' t).symm.trans hk'
    exact (Option.some.inj hself).symm
  · exact h k' t' ((Locks.take_of_ne hk).symm.trans hk')

theorem Alone.put (h : Alone s t) (x : Txn) : Alone (s.put t x) t := h

/-- The last state of a transaction counts. -/
theorem put_put {x' : Txn} : (s.put t x).put t x' = s.put t x' := by
  simp [State.put]

/-- One statement more. -/
theorem Ends.statement {s' : State} {x' : Txn} (h : Ends w settings s' t x' labels annotations)
    (hstep : statement w settings (s.put t x) t x = some (s'.put t x')) :
    Ends w settings s t x labels annotations := by
  obtain ⟨statements, final, hrun, hfinal⟩ := h
  have hfirst : step w settings (s.put t x) (.statement t) = some (s'.put t x') := by
    have hx : (s.put t x).txns t = some x := Function.update_self _ _ _
    rw [step, hx, Option.bind_some, hstep]
  refine ⟨statements + 1, final, ?_, hfinal⟩
  rw [List.replicate_succ, List.cons_append, run, List.foldlM_cons, hfirst]
  exact hrun

/-- One statement that goes on with another one. -/
theorem Ends.goto (phase : Phase) (h : Ends w settings s t { x with phase } labels annotations)
    (hstep : Annotations.statement w settings (s.put t x) t x =
      some ((s.put t x).goto t x phase)) :
    Ends w settings s t x labels annotations := by
  refine h.statement ?_
  rw [hstep, State.goto, put_put]

/-- One statement that takes a lock. -/
theorem Ends.lock (halone : Alone s t) (k : LockKey) (x' : Txn)
    (h : Ends w settings { s with locks := s.locks.take k t } t x' labels annotations)
    (hstep : Annotations.statement w settings (s.put t x) t x =
      ((s.put t x).lock t k).map fun locked => locked.put t x') :
    Ends w settings s t x labels annotations := by
  refine h.statement ?_
  rw [hstep, (halone.put x).lock k, Option.map_some]
  exact congrArg some (put_put (s := { s with locks := s.locks.take k t }))

/-- The commit. -/
theorem ends_of_finished (hphase : x.phase = .finished)
    (hlabels : commitLabel s.labels x.label = some labels)
    (hannotations : commitWrite s.annotations x.write = some annotations) :
    Ends w settings s t x labels annotations := by
  have hx : (s.put t x).txns t = some ⟨x.ctx, .finished, x.label, x.write⟩ := by
    rw [← hphase]
    exact Function.update_self _ _ _
  have hlabels' : commitLabel (s.put t x).labels x.label = some labels := hlabels
  have hannotations' : commitWrite (s.put t x).annotations x.write =
      some annotations := hannotations
  have hcommit : step w settings (s.put t x) (.commit t) =
      some { (s.put t x).close t with labels, annotations } := by
    simp only [step, hx, hlabels', hannotations', Option.bind_some, Option.map_some]
  refine ⟨0, { (s.put t x).close t with labels, annotations }, ?_, rfl, rfl⟩
  rw [List.replicate_zero, List.nil_append, run, List.foldlM_cons, hcommit]
  rfl

/-- When the lookup of the author's labels finds nothing, there are none. -/
theorem ownLabels_eq_nil {author : UserId} (h : ownLabel w labels author name = .ok none) :
    ownLabels w labels author name = [] := by
  unfold ownLabel at h
  split at h
  · assumption
  · cases h
  · cases h

/-- The statements from the duplicate on are `attach`. -/
theorem ends_of_attach (halone : Alone s t) (hphase : x.phase = .findDuplicate anchor labelId)
    (hwrite : x.write = none) (hlabels : commitLabel s.labels x.label = some labels)
    {ctx : Context} (hctx : x.ctx = ctx) {outcome : Outcome}
    (h : attach s ctx anchor anchor.messageId labels labelId = .ok outcome) :
    Ends w settings s t x outcome.labels outcome.annotations := by
  subst hctx
  obtain ⟨existing, hfound, h⟩ := bind_eq_ok.mp h
  unfold getLiveDuplicate at hfound
  split at hfound
  · rename_i hnone
    cases hfound
    obtain ⟨annotations, hflush, h⟩ := bind_eq_ok.mp h
    cases h
    have hempty : (liveDuplicates (s.put t x).annotations anchor.messageId labelId
        x.ctx.callerId).isEmpty = true := List.isEmpty_iff.mpr hnone
    have hcommit : commitWrite s.annotations (some (.insert (x.newAnnotation anchor labelId))) =
        some annotations := insertAll_of_flush hflush
    refine Ends.goto (.insertRow anchor labelId) ?_ ?_
    · refine Ends.lock halone (x.newAnnotation anchor labelId).triple
        { x with phase := .finished, write := some (.insert (x.newAnnotation anchor labelId)) }
        (ends_of_finished rfl hlabels hcommit) ?_
      have hempty' :
          (liveDuplicates (s.put t { x with phase := .insertRow anchor labelId }).annotations
          anchor.messageId labelId x.ctx.callerId).isEmpty = true := hempty
      simp only [Annotations.statement, hempty', if_true]
      rfl
    · simp only [Annotations.statement, hphase, hempty, if_true]
  · rename_i hsome
    cases hfound
    cases h
    have hnonempty : (liveDuplicates (s.put t x).annotations anchor.messageId labelId
        x.ctx.callerId).isEmpty = false := by
      show (liveDuplicates s.annotations anchor.messageId labelId x.ctx.callerId).isEmpty = false
      rw [hsome]
      rfl
    have hcommit : commitWrite s.annotations x.write = some s.annotations := by
      rw [hwrite]
      rfl
    refine Ends.goto .finished (ends_of_finished rfl hlabels hcommit) ?_
    simp [Annotations.statement, hphase, hnonempty]
  · cases hfound

/-- The statements from the curated lookup on are `find_or_create_user_label` and `attach`. -/
theorem ends_of_findOrCreate (halone : Alone s t) {ctx : Context} {label : AnnotationLabel}
    {outcome : Outcome} (hnamed : findOrCreateUserLabel w s ctx name = .ok (labels, label))
    (h : attach s ctx anchor anchor.messageId labels label.id = .ok outcome) :
    Ends w settings s t { ctx, phase := .findShared anchor (sanitiseSingleLine name) }
      outcome.labels outcome.annotations := by
  unfold findOrCreateUserLabel at hnamed
  dsimp only at hnamed
  generalize sanitiseSingleLine name = cleaned at hnamed ⊢
  split at hnamed
  · rename_i curated hshared
    cases hnamed
    refine Ends.goto (.findDuplicate anchor label.id) ?_ ?_
    · exact ends_of_attach halone rfl rfl rfl rfl h
    · have hshared' : sharedLabel w (s.put t { ctx, phase := .findShared anchor cleaned }).labels
          cleaned = some label := hshared
      simp only [statement, hshared']
  · rename_i hshared
    refine Ends.goto (.findOwn anchor cleaned) ?_ ?_
    · obtain ⟨own, hown, hnamed⟩ := bind_eq_ok.mp hnamed
      have hown' : ownLabel w (s.put t { ctx, phase := .findOwn anchor cleaned }).labels
          ctx.callerId cleaned = .ok own := hown
      cases own with
      | some existing =>
        cases hnamed
        refine Ends.goto (.findDuplicate anchor label.id) ?_ ?_
        · exact ends_of_attach halone rfl rfl rfl rfl h
        · simp only [statement, hown']
          rfl
      | none =>
        obtain ⟨labels', hflush, hnamed⟩ := bind_eq_ok.mp hnamed
        cases hnamed
        refine Ends.goto (.insertLabel anchor cleaned) ?_ ?_
        · -- The insert takes the wording of its author.
          refine Ends.lock halone (.wording ctx.callerId (w.lower cleaned))
            { ctx
              phase := .findDuplicate anchor (ctx.userLabel cleaned).id
              label := some (ctx.userLabel cleaned) } ?_ ?_
          · have hinsert : commitLabel s.labels (some (ctx.userLabel cleaned)) = some labels :=
              insertAll_of_flush hflush
            exact ends_of_attach (halone.take _) rfl rfl hinsert rfl h
          · have hempty :
                (ownLabels w (s.put t { ctx, phase := .insertLabel anchor cleaned }).labels
                  ctx.callerId cleaned).isEmpty = true :=
              List.isEmpty_iff.mpr (ownLabels_eq_nil hown)
            simp only [statement, hempty, if_true]
            rfl
        · simp only [statement, hown']
          rfl
    · have hshared' : sharedLabel w (s.put t { ctx, phase := .findShared anchor cleaned }).labels
          cleaned = none := hshared
      simp only [statement, hshared']

/-- The statements from the label on are `create_annotation` after its message. -/
theorem ends_of_namedLabel (halone : Alone s t) {draft : AnnotationCreate} {ctx : Context}
    {label : AnnotationLabel} {outcome : Outcome}
    (hnamed : namedLabel w s ctx draft anchor.conversation.id = .ok (labels, label))
    (h : attach s ctx anchor anchor.messageId labels label.id = .ok outcome) :
    Ends w settings s t { ctx, phase := .resolveLabel draft anchor } outcome.labels
      outcome.annotations := by
  unfold namedLabel at hnamed
  split at hnamed
  · rename_i labelId hlabelId
    obtain ⟨picked, hpicked, hnamed⟩ := bind_eq_ok.mp hnamed
    rw [found_eq_ok] at hpicked
    obtain ⟨-, hkey, -⟩ := findLive_eq_some.mp hpicked
    have hid : picked.id = labelId := hkey
    have hpicked' :
        findLive (s.put t { ctx, phase := .resolveLabel draft anchor }).labels labelId =
        some picked := hpicked
    split at hnamed
    · rename_i husable
      cases hnamed
      refine Ends.goto (.findDuplicate anchor label.id) ?_ ?_
      · exact ends_of_attach halone rfl rfl rfl rfl h
      · simp only [statement, hlabelId, hpicked', Option.map_some, if_pos husable]
    · rename_i hforeign
      obtain ⟨_, hused, hnamed⟩ := bind_eq_ok.mp hnamed
      refine Ends.goto (.checkOffered anchor picked) ?_ ?_
      · refine Ends.goto (.findShared anchor (sanitiseSingleLine picked.name)) ?_ ?_
        · exact ends_of_findOrCreate halone hnamed h
        · have hused' : (labelsUsedInConversation
              (s.put t { ctx, phase := .checkOffered anchor picked }).around
              (s.put t { ctx, phase := .checkOffered anchor picked }).annotations
              anchor.conversation.id ctx.callerId false).contains picked.id = true := by
            rw [hid]
            exact check_eq_ok.mp hused
          simp only [statement, if_pos hused']
      · simp only [statement, hlabelId, hpicked', Option.map_some, if_neg hforeign]
  · rename_i text hlabelId htext
    refine Ends.goto (.findShared anchor (sanitiseSingleLine text)) ?_ ?_
    · exact ends_of_findOrCreate halone hnamed h
    · simp only [statement, hlabelId, htext]
  · cases hnamed

/-- A request that runs alone computes what `create_annotation` does, and leaves its tables. -/
theorem run_createAnnotation {ctx : Context} {payload : AnnotationCreate} {outcome : Outcome}
    (halone : Alone s t) (hidle : s.txns t = none)
    (h : createAnnotationEndpoint w s ctx payload = .ok outcome) :
    ∃ statements s', run (step w settings) s
      (.start t ctx (.create payload) ::
        (List.replicate statements (.statement t) ++ [.commit t])) =
        some s' ∧ s'.labels = outcome.labels ∧ s'.annotations = outcome.annotations := by
  simp only [createAnnotationEndpoint, bind_eq_ok, createAnnotation] at h
  obtain ⟨⟨⟩, hpermitted, draft, hdraft, anchor, hanchor, ⟨labels, label⟩, hnamed, hattach⟩ := h
  have hmessage : anchor.messageId = draft.messageId := by
    unfold resolveAnnotationMessage at hanchor
    rw [found_eq_ok] at hanchor
    simp only [Option.bind_eq_bind, Option.bind_eq_some_iff, Option.pure_def, Option.some.injEq]
      at hanchor
    obtain ⟨message, hmessage, -, -, -, -, -, -, rfl⟩ := hanchor
    exact (findLive_eq_some.mp hmessage).2.1
  rw [← hmessage] at hattach
  have hends : Ends w settings s t { ctx, phase := .resolveMessage draft } outcome.labels
      outcome.annotations := by
    refine Ends.goto (.resolveLabel draft anchor) (ends_of_namedLabel halone hnamed hattach) ?_
    have hanchor' :
        resolveAnnotationMessage (s.put t { ctx, phase := .resolveMessage draft }).around
        draft.messageId ctx.callerId = .ok anchor := hanchor
    simp only [statement, hanchor']
    rfl
  have hstart : step w settings s (.start t ctx (.create payload)) =
      some (s.put t { ctx, phase := .resolveMessage draft }) := by
    rw [step, if_pos hidle, Request.permission, hpermitted, Request.start, hdraft]
    rfl
  obtain ⟨statements, s', hrun, hfinal⟩ := hends
  refine ⟨statements, s', ?_, hfinal⟩
  rw [run_cons, hstart]
  exact hrun

end

/-! ### Runs -/

/-- `CURATED_ANNOTATION_LABELS`. -/
def curatedAnnotationLabels : List CuratedAnnotationLabel :=
  [⟨"harmful-instructions", "Harmful instructions"⟩, ⟨"pii-leak", "PII leak"⟩,
    ⟨"jailbreak", "Jailbreak"⟩, ⟨"hallucination", "Hallucination"⟩, ⟨"bias", "Bias"⟩,
    ⟨"refusal", "Refusal"⟩, ⟨"off-policy", "Off-policy"⟩]

/-- The names of the shipped catalogue are clean, so a sync of it is one of clean names. -/
theorem cleanCatalogue_curated (now : Time) :
    CleanCatalogue (.app (.sync now curatedAnnotationLabels)) := by
  have hall : ∀ entry ∈ curatedAnnotationLabels, sanitiseSingleLine entry.name = entry.name ∧
      1 ≤ entry.name.length ∧ entry.name.length ≤ annotationTextMaxLength := by decide +kernel
  intro entry hentry
  obtain ⟨hclean, hpos, hshort⟩ := hall entry hentry
  exact ⟨hclean, hpos, hshort⟩

/-- An annotator without the break-glass. -/
def annotator : Context where
  caller := { Accounts.rootSession with
    id := 2, permissions := {.annotationsRead, .annotationsCreate} }
  now := 1001
  fresh := (Evaluations.Label.byRoot 70 (.deleteModel 0)).fresh
  freshLabel := 71

/-- The admin labels the message 91 in two wordings, and the curated one is retired. -/
def retired : List LabelEvent := annotated.map .app ++ [.retire 1001 1 9]

/-- The names on the first page that the annotator gets for the conversation 41. -/
def shownNames (s : State) : List String :=
  ((listAnnotationLabels asciiWording s annotator.callerId annotator.canManage (some 41)
    (fun a b => decide (a ≤ b)) 10 0).items.map AnnotationLabel.name)

end RedTeaming.Annotations
