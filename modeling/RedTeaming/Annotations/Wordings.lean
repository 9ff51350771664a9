import RedTeaming.Annotations.Annotate
import RedTeaming.Evaluations.System
import RedTeaming.Library.Transition

/-!
# `RedTeaming.Annotations.Wordings`: one wording once per author and message

The unique index of annotations sees the id of a label, and not its wording. `one_wording` says
that no author has two live annotations on one message whose labels have one wording, whatever
requests run interleaved. A sync has to run alone, and its entries have to be distinct wordings
(`Proviso`).

Two facts carry the result. An annotation has a curated label, or one of its author. And two
labels of one wording are typed ones of two authors (`LabelsOk`). So the labels that one author
can use have distinct wordings, and the index on ids is one on wordings.

`TxnOk` is what an open transaction has read and locked. Other transactions cannot take it away
(`TxnOk.stable`). Only a sync makes a curated label, and a sync runs alone, so that a wording that
was not curated stays so while a transaction is open.
-/

set_option autoImplicit false

namespace RedTeaming.Annotations

open RedTeaming.Auth
open RedTeaming.Conversations.Tags (sanitiseSingleLine)
open RedTeaming.Library

/-- The author may use the label: it is curated, or the author's own. -/
def UsableBy (author : UserId) (label : AnnotationLabel) : Prop :=
  label.createdById = none ∨ label.createdById = some author

/-- The labels are live, and two of one wording are typed ones of two authors. -/
structure LabelsOk (w : Wording) (labels : Table AnnotationLabel) : Prop where
  live : ∀ label ∈ labels, live label = true
  distinct : ∀ label ∈ labels, ∀ label' ∈ labels, w.lower label.name = w.lower label'.name →
    label = label' ∨ ∃ u u', label.createdById = some u ∧ label'.createdById = some u' ∧ u ≠ u'

/-- An annotation has a label that its author may use, and two live ones differ in message, label,
or author. -/
structure AnnotationsOk (labels : Table AnnotationLabel) (annotations : Table Annotation) :
    Prop where
  label : ∀ row ∈ annotations, ∃ label ∈ labels, key label = row.labelId ∧
    UsableBy row.createdById label
  unique : ∀ row ∈ annotations, ∀ row' ∈ annotations, live row = true → live row' = true →
    row.triple = row'.triple → row = row'

section
variable (w : Wording) (s : State) (t : TxnId) (x : Txn)

/-- The id is that of a label that the caller may use, or of the label that the transaction has
made. -/
def HasLabel (labelId : UUID) : Prop :=
  (∃ label ∈ s.labels, key label = labelId ∧ UsableBy x.ctx.callerId label) ∨
    ∃ label, x.label = some label ∧ key label = labelId

/-- No committed live annotation has the key of the row. -/
def Free (row : Annotation) : Prop :=
  ∀ other ∈ s.annotations, live other = true → other.triple ≠ row.triple

/-- No label of the wording is curated. -/
def Uncurated (name : String) : Prop :=
  ∀ label ∈ s.labels, w.lower label.name = w.lower name → label.createdById ≠ none

/-- What a transaction knows before its next statement. -/
def PhaseOk : Phase → Prop
  | .resolveMessage _ | .resolveLabel _ _ | .checkOffered _ _ | .findShared _ _ =>
    x.label = none ∧ x.write = none
  | .findOwn _ name | .insertLabel _ name | .rereadOwn _ name =>
    (x.label = none ∧ x.write = none) ∧ Uncurated w s name
  | .findDuplicate _ labelId | .insertRow _ labelId | .rereadDuplicate _ labelId =>
    HasLabel s x labelId
  | .delete row => s.locks (.row (key row)) = some t ∧ row ∈ s.annotations
  | .restore row => s.locks (.row (key row)) = some t ∧ row ∈ s.annotations ∧ live row = false
  | .lockLive _ | .lockTombstone _ | .finished => True

/-- What a transaction knows of an annotation that it has written. -/
def WriteOk : Write → Prop
  | .insert row => row.createdById = x.ctx.callerId ∧ HasLabel s x row.labelId ∧ Free s row
  | .update row => s.locks (.row (key row)) = some t ∧
      (∃ old ∈ s.annotations, key old = key row ∧ old.triple = row.triple) ∧
      (live row = true → Free s row)

/-- What a transaction knows of a label that it has made: it holds the caller's wording, and
another label of the wording is a typed one of somebody else. -/
structure LabelOk (label : AnnotationLabel) : Prop where
  live : live label = true
  own : label.createdById = some x.ctx.callerId
  locked : s.locks (.wording x.ctx.callerId (w.lower label.name)) = some t
  distinct : ∀ other ∈ s.labels, w.lower other.name = w.lower label.name →
    ∃ u, other.createdById = some u ∧ u ≠ x.ctx.callerId

/-- What an open transaction has read and locked. -/
structure TxnOk : Prop where
  label : ∀ label, x.label = some label → LabelOk w s t x label
  locked : ∀ write, x.write = some write → s.locks write.row.triple = some t
  write : ∀ write, x.write = some write → WriteOk s t x write
  phase : PhaseOk w s t x x.phase

end

/-- What another transaction cannot take away from `t`: its locks, the committed labels, and the
rows that it has locked. What is new was written under keys that `t` does not hold. -/
structure Stable (w : Wording) (s s' : State) (t : TxnId) : Prop where
  locks : ∀ k, s.locks k = some t → s'.locks k = some t
  labels : ∀ label ∈ s.labels, label ∈ s'.labels
  newLabels : ∀ label ∈ s'.labels, label ∈ s.labels ∨
    ∃ u, label.createdById = some u ∧ s.locks (.wording u (w.lower label.name)) ≠ some t
  rows : ∀ row ∈ s.annotations, s.locks (.row (key row)) = some t → row ∈ s'.annotations
  newRows : ∀ row ∈ s'.annotations, live row = true →
    (row ∈ s.annotations ∨ s.locks row.triple ≠ some t)

/-- A step that commits nothing takes nothing away. -/
theorem stable_of_locks {w : Wording} {s s' : State} {t : TxnId} (hlabels : s'.labels = s.labels)
    (hannotations : s'.annotations = s.annotations)
    (hlocks : ∀ k, s.locks k = some t → s'.locks k = some t) : Stable w s s' t where
  locks := hlocks
  labels := by
    rw [hlabels]
    exact fun _ h => h
  newLabels := by
    rw [hlabels]
    exact fun _ h => .inl h
  rows := by
    rw [hannotations]
    exact fun _ h _ => h
  newRows := by
    rw [hannotations]
    exact fun _ h _ => .inl h

section
variable {w : Wording} {settings : Evaluations.Settings} {s s' : State} {t : TxnId} {x : Txn}
  {labelId : UUID} {row : Annotation} {name : String}

theorem HasLabel.stable (h : HasLabel s x labelId) (hstable : Stable w s s' t) :
    HasLabel s' x labelId := by
  rcases h with ⟨label, hmem, hlabel⟩ | hown
  · exact .inl ⟨label, hstable.labels label hmem, hlabel⟩
  · exact .inr hown

/-- A key that the transaction holds stays free of committed rows. -/
theorem Free.stable (h : Free s row) (hstable : Stable w s s' t)
    (hlocked : s.locks row.triple = some t) : Free s' row := by
  intro other hother hlive hsame
  rcases hstable.newRows other hother hlive with hold | hnot
  · exact h other hold hlive hsame
  · rw [hsame] at hnot
    exact hnot hlocked

/-- A wording that is not curated stays so. -/
theorem Uncurated.stable (h : Uncurated w s name) (hstable : Stable w s s' t) :
    Uncurated w s' name := by
  intro label hlabel hname
  rcases hstable.newLabels label hlabel with hold | ⟨u, hauthor, -⟩
  · exact h label hold hname
  · rw [hauthor]
    nofun

theorem PhaseOk.stable {phase : Phase} (h : PhaseOk w s t x phase) (hstable : Stable w s s' t) :
    PhaseOk w s' t x phase := by
  cases phase with
  | resolveMessage | resolveLabel | checkOffered | findShared => exact h
  | findOwn | insertLabel | rereadOwn => exact ⟨h.1, h.2.stable hstable⟩
  | findDuplicate | insertRow | rereadDuplicate =>
    exact HasLabel.stable h hstable
  | lockLive | lockTombstone | finished => trivial
  | delete row => exact ⟨hstable.locks _ h.1, hstable.rows row h.2 h.1⟩
  | restore row => exact ⟨hstable.locks _ h.1, hstable.rows row h.2.1 h.1, h.2.2⟩

/-- What a transaction has read and locked stays. -/
theorem TxnOk.stable (h : TxnOk w s t x) (hstable : Stable w s s' t) : TxnOk w s' t x where
  label label hx :=
    { live := (h.label label hx).live
      own := (h.label label hx).own
      locked := hstable.locks _ (h.label label hx).locked
      distinct := by
        intro other hother hname
        have hlabel := h.label label hx
        rcases hstable.newLabels other hother with hold | ⟨u, hauthor, hnot⟩
        · exact hlabel.distinct other hold hname
        · refine ⟨u, hauthor, ?_⟩
          rintro rfl
          rw [hname] at hnot
          exact hnot hlabel.locked }
  locked write hx := hstable.locks _ (h.locked write hx)
  write write hx := by
    have hlocked := h.locked write hx
    have hwrite := h.write write hx
    cases write with
    | insert row => exact ⟨hwrite.1, hwrite.2.1.stable hstable, hwrite.2.2.stable hstable hlocked⟩
    | update row =>
      obtain ⟨hrow, ⟨old, hold, hkey, hsame⟩, hfree⟩ := hwrite
      have hkept : old ∈ s'.annotations := by
        refine hstable.rows old hold ?_
        rw [hkey]
        exact hrow
      exact ⟨hstable.locks _ hrow, ⟨old, hkept, hkey, hsame⟩,
        fun hlive => (hfree hlive).stable hstable hlocked⟩
  phase := h.phase.stable hstable

/-! ### One statement -/

/-- A lock that is taken is held, and nothing else changes. -/
theorem State.lock_spec {k : LockKey} (h : s.lock t k = some s') :
    s'.labels = s.labels ∧ s'.annotations = s.annotations ∧ s'.around = s.around ∧
      s'.txns = s.txns ∧ s'.locks k = some t ∧
        ∀ k' t', s.locks k' = some t' → s'.locks k' = some t' := by
  unfold State.lock at h
  split at h
  · rename_i hmay
    cases h
    exact ⟨rfl, rfl, rfl, rfl, Locks.take_self _ _ _, fun _ _ hheld => Locks.held_take hmay hheld⟩
  · cases h

/-- The transaction goes on as `x'`, and nothing is committed. -/
structure Goes (s : State) (t : TxnId) (x' : Txn) (s' : State) : Prop where
  labels : s'.labels = s.labels
  annotations : s'.annotations = s.annotations
  txns : s'.txns = Function.update s.txns t (some x')
  locks : ∀ k t', s.locks k = some t' → s'.locks k = some t'

theorem Goes.stable {x' : Txn} (h : Goes s t x' s') (t' : TxnId) : Stable w s s' t' :=
  stable_of_locks h.labels h.annotations fun k => h.locks k t'

/-- The transaction goes on with another statement. -/
theorem goes_goto (phase : Phase) : Goes s t { x with phase } (s.goto t x phase) :=
  ⟨rfl, rfl, rfl, fun _ _ h => h⟩

/-- The transaction goes on with a new lock. -/
theorem goes_put {k : LockKey} (x' : Txn) (h : s.lock t k = some s') :
    Goes s t x' (s'.put t x') := by
  obtain ⟨hlabels, hannotations, -, htxns, -, hlocks⟩ := State.lock_spec h
  refine ⟨hlabels, hannotations, ?_, hlocks⟩
  show Function.update s'.txns t (some x') = _
  rw [htxns]

/-- A transaction that knows what its next phase asks for goes on. -/
theorem TxnOk.goto (h : TxnOk w s t x) {phase : Phase} (hphase : PhaseOk w s t x phase) :
    ∃ x', Goes s t x' (s.goto t x phase) ∧ TxnOk w (s.goto t x phase) t x' := by
  have hgoes : Goes s t { x with phase } (s.goto t x phase) := goes_goto phase
  refine ⟨{ x with phase }, hgoes, TxnOk.stable ?_ (hgoes.stable t)⟩
  exact
    { label := fun label hx =>
        ⟨(h.label label hx).live, (h.label label hx).own, (h.label label hx).locked,
          (h.label label hx).distinct⟩
      locked := h.locked
      write := fun write hx => by
        have hwrite := h.write write hx
        cases write <;> exact hwrite
      phase := by cases phase <;> exact hphase }

/-- A row without a committed live row of its key is free. -/
theorem free_of_isEmpty {messageId : UUID} {author : UserId}
    (h : (liveDuplicates s.annotations messageId labelId author).isEmpty = true)
    (htriple : row.triple = .triple messageId labelId author) : Free s row := by
  intro other hother hlive hsame
  rw [htriple, Annotation.triple] at hsame
  injection hsame with hmessage hlabel hauthor
  have hfound : other ∈ liveDuplicates s.annotations messageId labelId author := by
    rw [liveDuplicates, List.mem_filter, mem_liveSelect]
    exact ⟨⟨hother, hlive⟩, by simp [hmessage, hlabel, hauthor]⟩
  rw [List.isEmpty_iff.mp h] at hfound
  cases hfound

/-- A tombstone whose key is not occupied is free. -/
theorem free_of_not_occupied (hmem : row ∈ s.annotations) (hdead : live row = false)
    (h : s.occupied row = false) : Free s row := by
  intro other hother hlive hsame
  injection hsame with hmessage hlabel hauthor
  have hfound :
      other ∈ liveDuplicates s.annotations row.messageId row.labelId row.createdById := by
    rw [liveDuplicates, List.mem_filter, mem_liveSelect]
    exact ⟨⟨hother, hlive⟩, by simp [hmessage, hlabel, hauthor]⟩
  rw [State.occupied, List.any_eq_false] at h
  have hid : other.id = row.id := by simpa using h other hfound
  have hkey : key other = key row := hid
  rw [Table.eq_of_key_eq hother hmem hkey, hdead] at hlive
  cases hlive

/-- The insert of a label: the transaction holds the wording, and nobody else has a committed
label of it that the caller could use. -/
theorem LabelOk.of_insert {locked : State} (hlabels : LabelsOk w s.labels)
    (huncurated : Uncurated w s name)
    (hnone : (ownLabels w s.labels x.ctx.callerId name).isEmpty = true)
    (hlock : s.lock t (.wording x.ctx.callerId (w.lower name)) = some locked) :
    LabelOk w locked t x (x.newLabel name) := by
  obtain ⟨hsame, -, -, -, hheld, -⟩ := State.lock_spec hlock
  refine ⟨rfl, rfl, hheld, fun other hother hname => ?_⟩
  rw [hsame] at hother
  cases hauthor : other.createdById with
  | none => exact absurd hauthor (huncurated other hother hname)
  | some u =>
    refine ⟨u, rfl, ?_⟩
    rintro rfl
    have hown : other ∈ ownLabels w s.labels x.ctx.callerId name :=
      mem_ownLabels.mpr ⟨hother, hlabels.live other hother, hauthor, hname⟩
    rw [List.isEmpty_iff.mp hnone] at hown
    cases hown

/-- A transaction that knows what its next phase asks for goes on, with a new lock. -/
theorem TxnOk.lock_goto (h : TxnOk w s t x) {k : LockKey} {locked : State} {phase : Phase}
    (hlock : s.lock t k = some locked) (hphase : PhaseOk w locked t x phase) :
    ∃ x', Goes s t x' (locked.goto t x phase) ∧ TxnOk w (locked.goto t x phase) t x' := by
  obtain ⟨hlabels, hannotations, -, htxns, -, hlocks⟩ := State.lock_spec hlock
  have hlocked : TxnOk w locked t x :=
    h.stable (stable_of_locks hlabels hannotations fun k => hlocks k t)
  obtain ⟨x', hgoes, hok⟩ := hlocked.goto hphase
  refine ⟨x', ⟨hgoes.labels.trans hlabels, hgoes.annotations.trans hannotations, ?_, ?_⟩, hok⟩
  · rw [hgoes.txns, htxns]
  · exact fun k t' hheld => hgoes.locks k t' (hlocks k t' hheld)

/-- What a transaction knows of its write does not depend on a step that commits nothing. -/
theorem WriteOk.goes {write : Write} {x' : Txn} (h : WriteOk s t x write) (hgoes : Goes s t x' s')
    (hctx : x'.ctx = x.ctx) (hlabel : x'.label = x.label) : WriteOk s' t x' write := by
  cases write with
  | insert row =>
    show row.createdById = x'.ctx.callerId ∧ HasLabel s' x' row.labelId ∧ Free s' row
    unfold HasLabel Free
    rw [hgoes.labels, hgoes.annotations, hctx, hlabel]
    exact h
  | update row =>
    obtain ⟨hrow, hold, hfree⟩ := h
    refine ⟨hgoes.locks _ t hrow, ?_, ?_⟩
    · rw [hgoes.annotations]
      exact hold
    · unfold Free
      rw [hgoes.annotations]
      exact hfree

/-- A transaction that knows what its write asks for finishes with it. The write takes the key of
its row. -/
theorem TxnOk.write_goes (h : TxnOk w s t x) {write : Write} {locked : State}
    (hlock : s.lock t write.row.triple = some locked) (hwrite : WriteOk s t x write) :
    ∃ x', Goes s t x' (locked.put t { x with phase := .finished, write := some write }) ∧
      TxnOk w (locked.put t { x with phase := .finished, write := some write }) t x' := by
  have hgoes := goes_put { x with phase := .finished, write := some write } hlock
  have hstable := hgoes.stable (w := w) t
  have hheld : locked.locks write.row.triple = some t := (State.lock_spec hlock).2.2.2.2.1
  -- What the transaction knew does not depend on its phase and its write.
  have hbefore : TxnOk w s t { x with phase := .finished, write := none } :=
    { label := fun label hx =>
        ⟨(h.label label hx).live, (h.label label hx).own, (h.label label hx).locked,
          (h.label label hx).distinct⟩
      locked := nofun
      write := nofun
      phase := trivial }
  have hafter := hbefore.stable hstable
  refine ⟨_, hgoes, ?_⟩
  exact
    { label := fun label hx =>
        ⟨(hafter.label label hx).live, (hafter.label label hx).own,
          (hafter.label label hx).locked, (hafter.label label hx).distinct⟩
      locked := fun write' hx => by
        cases hx
        exact hheld
      write := fun write' hx => by
        cases hx
        exact hwrite.goes hgoes rfl rfl
      phase := trivial }

/-! ### What one statement does -/

/-- One statement, with what it has read. -/
inductive Does (w : Wording) (s : State) (t : TxnId) (x : Txn) : State → Prop
  | resolveMessage {draft : AnnotationCreate}
      {anchor : Anchor} (hx : x.phase = .resolveMessage draft) :
    Does w s t x (s.goto t x (.resolveLabel draft anchor))
  | useLabel {draft : AnnotationCreate} {anchor : Anchor} {label : AnnotationLabel}
      (hx : x.phase = .resolveLabel draft anchor) (hmem : label ∈ s.labels)
      (husable : UsableBy x.ctx.callerId label) :
    Does w s t x (s.goto t x (.findDuplicate anchor label.id))
  | offerLabel {draft : AnnotationCreate} {anchor : Anchor} {label : AnnotationLabel}
      (hx : x.phase = .resolveLabel draft anchor) (hmem : label ∈ s.labels)
      (hlive : live label = true) :
    Does w s t x (s.goto t x (.checkOffered anchor label))
  | typeText {draft : AnnotationCreate} {anchor : Anchor} {text : String}
      (hx : x.phase = .resolveLabel draft anchor) (htext : draft.text = some text) :
    Does w s t x (s.goto t x (.findShared anchor (sanitiseSingleLine text)))
  | offered {anchor : Anchor}
      {label : AnnotationLabel} (hx : x.phase = .checkOffered anchor label) :
    Does w s t x (s.goto t x (.findShared anchor (sanitiseSingleLine label.name)))
  | shared {anchor : Anchor} {name : String} {label : AnnotationLabel}
      (hx : x.phase = .findShared anchor name) (hmem : label ∈ s.labels)
      (hcurated : label.createdById = none) :
    Does w s t x (s.goto t x (.findDuplicate anchor label.id))
  | notShared {anchor : Anchor} {name : String} (hx : x.phase = .findShared anchor name)
      (hnone : sharedLabel w s.labels name = none) :
    Does w s t x (s.goto t x (.findOwn anchor name))
  | own {anchor : Anchor} {name : String} {label : AnnotationLabel}
      (hx : x.phase = .findOwn anchor name ∨ x.phase = .rereadOwn anchor name)
      (hmem : label ∈ s.labels) (hauthor : label.createdById = some x.ctx.callerId) :
    Does w s t x (s.goto t x (.findDuplicate anchor label.id))
  | notOwn {anchor : Anchor} {name : String} (hx : x.phase = .findOwn anchor name) :
    Does w s t x (s.goto t x (.insertLabel anchor name))
  | makeLabel {anchor : Anchor} {name : String}
      {locked : State} (hx : x.phase = .insertLabel anchor name)
      (hlock : s.lock t (.wording x.ctx.callerId (w.lower name)) = some locked)
      (hnone : (ownLabels w s.labels x.ctx.callerId name).isEmpty = true) :
    Does w s t x (locked.put t { x with
      phase := .findDuplicate anchor (x.newLabel name).id
      label := some (x.newLabel name) })
  | labelTaken {anchor : Anchor} {name : String} (hx : x.phase = .insertLabel anchor name) :
    Does w s t x (s.goto t x (.rereadOwn anchor name))
  | notAnnotated {anchor : Anchor}
      {labelId : UUID} (hx : x.phase = .findDuplicate anchor labelId) :
    Does w s t x (s.goto t x (.insertRow anchor labelId))
  | annotated : Does w s t x (s.goto t x .finished)
  | makeRow {anchor : Anchor} {labelId : UUID}
      {locked : State} (hx : x.phase = .insertRow anchor labelId)
      (hlock : s.lock t (x.newAnnotation anchor labelId).triple = some locked)
      (hfree : Free s (x.newAnnotation anchor labelId)) :
    Does w s t x (locked.put t { x with
      phase := .finished
      write := some (.insert (x.newAnnotation anchor labelId)) })
  | rowTaken {anchor : Anchor} {labelId : UUID} (hx : x.phase = .insertRow anchor labelId) :
    Does w s t x (s.goto t x (.rereadDuplicate anchor labelId))
  | lockLive {row : Annotation} {locked : State} (hlock : s.lock t (.row (key row)) = some locked)
      (hmem : row ∈ s.annotations) :
    Does w s t x (locked.goto t x (.delete row))
  | delete {row : Annotation} {locked : State} (hx : x.phase = .delete row)
      (hlock : s.lock t row.triple = some locked) :
    Does w s t x (locked.put t { x with
      phase := .finished
      write := some (.update (softDelete x.ctx.now x.ctx.callerId row)) })
  | lockTombstone {row : Annotation}
      {locked : State} (hlock : s.lock t (.row (key row)) = some locked)
      (hmem : row ∈ s.annotations) (hdead : live row = false) :
    Does w s t x (locked.goto t x (.restore row))
  | restore {row : Annotation} {locked : State} (hx : x.phase = .restore row)
      (hlock : s.lock t row.triple = some locked) (hfree : s.occupied row = false) :
    Does w s t x (locked.put t { x with
      phase := .finished
      write := some (.update (RedTeaming.restore row)) })

/-- A statement does one of these. -/
theorem does_of_statement (hstep : statement w settings s t x = some s') : Does w s t x s' := by
  unfold statement at hstep
  cases hp : x.phase with
  | resolveMessage draft =>
    simp only [hp, Option.map_eq_some_iff] at hstep
    obtain ⟨anchor, -, rfl⟩ := hstep
    exact .resolveMessage hp
  | resolveLabel draft anchor =>
    simp only [hp] at hstep
    split at hstep
    · obtain ⟨label, hfound, rfl⟩ := Option.map_eq_some_iff.mp hstep
      obtain ⟨hmem, -, hlive⟩ := findLive_eq_some.mp hfound
      split
      · rename_i husable
        rw [Bool.or_eq_true, Option.isNone_iff_eq_none, beq_iff_eq] at husable
        exact .useLabel hp hmem husable
      · exact .offerLabel hp hmem hlive
    · rename_i text _ htext
      cases hstep
      exact .typeText hp htext
    · cases hstep
  | checkOffered anchor label =>
    simp only [hp] at hstep
    split at hstep
    · cases hstep
      exact .offered hp
    · cases hstep
  | findShared anchor name =>
    simp only [hp] at hstep
    split at hstep
    · rename_i label hfound
      obtain ⟨hmem, hcurated, -⟩ := sharedLabel_spec hfound
      cases hstep
      exact .shared hp hmem hcurated
    · rename_i hnone
      cases hstep
      exact .notShared hp hnone
  | findOwn anchor name =>
    simp only [hp, Option.map_eq_some_iff, toOption_eq_some] at hstep
    obtain ⟨found, hfound, rfl⟩ := hstep
    cases found with
    | none => exact .notOwn hp
    | some label =>
      obtain ⟨hmem, hauthor⟩ := ownLabel_spec hfound
      exact .own (.inl hp) hmem hauthor
  | insertLabel anchor name =>
    simp only [hp, Option.map_eq_some_iff] at hstep
    obtain ⟨locked, hlock, rfl⟩ := hstep
    split
    · rename_i hnone
      exact .makeLabel hp hlock hnone
    · exact .labelTaken hp
  | rereadOwn anchor name =>
    simp only [hp] at hstep
    split at hstep
    · rename_i label hfound
      obtain ⟨hmem, hauthor⟩ := ownLabel_spec hfound
      cases hstep
      exact .own (.inr hp) hmem hauthor
    · cases hstep
    · cases hstep
  | findDuplicate anchor labelId =>
    simp only [hp] at hstep
    split at hstep
    · cases hstep
      exact .notAnnotated hp
    · cases hstep
      exact .annotated
  | insertRow anchor labelId =>
    simp only [hp, Option.map_eq_some_iff] at hstep
    obtain ⟨locked, hlock, rfl⟩ := hstep
    split
    · rename_i hnone
      exact .makeRow hp hlock (free_of_isEmpty hnone rfl)
    · exact .rowTaken hp
  | rereadDuplicate anchor labelId =>
    simp only [hp] at hstep
    split at hstep
    · cases hstep
    · cases hstep
      exact .annotated
  | lockLive annotationId =>
    simp only [hp, Option.bind_eq_some_iff, Option.map_eq_some_iff, Option.filter_eq_some_iff,
      toOption_eq_some, getAnnotation, found_eq_ok] at hstep
    obtain ⟨locked, hlock, row, ⟨⟨hfound, -⟩, -⟩, rfl⟩ := hstep
    obtain ⟨hmem, hkey, -⟩ := findLive_eq_some.mp hfound
    rw [← hkey] at hlock
    exact .lockLive hlock hmem
  | delete row =>
    simp only [hp, Option.map_eq_some_iff] at hstep
    obtain ⟨locked, hlock, rfl⟩ := hstep
    exact .delete hp hlock
  | lockTombstone annotationId =>
    simp only [hp, Option.bind_eq_some_iff, Option.map_eq_some_iff, Option.filter_eq_some_iff,
      toOption_eq_some, getRestorableAnnotation, found_eq_ok] at hstep
    obtain ⟨locked, hlock, row, ⟨hfound, -⟩, rfl⟩ := hstep
    obtain ⟨hmem, hkey, -⟩ := findRestorable_eq_some.mp hfound
    rw [← hkey] at hlock
    exact .lockTombstone hlock hmem (not_live_of_findRestorable hfound)
  | restore row =>
    simp only [hp, Option.bind_eq_some_iff] at hstep
    obtain ⟨locked, hlock, hstep⟩ := hstep
    split at hstep
    · cases hstep
    · rename_i hfree
      cases hstep
      exact .restore hp hlock (Bool.not_eq_true _ ▸ hfree)
  | finished =>
    simp [hp] at hstep

/-- One statement commits nothing, and the transaction knows what its next statement asks for. -/
theorem statement_spec (hlabels : LabelsOk w s.labels) (h : TxnOk w s t x)
    (hstep : statement w settings s t x = some s') :
    ∃ x', Goes s t x' s' ∧ TxnOk w s' t x' := by
  have hphase := h.phase
  cases does_of_statement hstep with
  | resolveMessage hx =>
    rw [hx] at hphase
    exact h.goto hphase
  | useLabel hx hmem husable =>
    have hhas : HasLabel s x _ := .inl ⟨_, hmem, rfl, husable⟩
    exact h.goto hhas
  | offerLabel hx hmem hlive =>
    rw [hx] at hphase
    exact h.goto hphase
  | typeText hx htext =>
    rw [hx] at hphase
    exact h.goto hphase
  | offered hx =>
    rw [hx] at hphase
    exact h.goto hphase
  | shared hx hmem hcurated =>
    have hhas : HasLabel s x _ := .inl ⟨_, hmem, rfl, .inl hcurated⟩
    exact h.goto hhas
  | @notShared anchor name hx hnone =>
    rw [hx] at hphase
    have huncurated : Uncurated w s name := fun label hmem hname =>
      sharedLabel_eq_none hnone hmem (hlabels.live label hmem) hname
    exact h.goto ⟨hphase, huncurated⟩
  | own hx hmem hauthor =>
    have hhas : HasLabel s x _ := .inl ⟨_, hmem, rfl, .inr hauthor⟩
    exact h.goto hhas
  | notOwn hx =>
    rw [hx] at hphase
    exact h.goto hphase
  | @makeLabel anchor name locked hx hlock hnone =>
    rw [hx] at hphase
    obtain ⟨⟨hnolabel, hnowrite⟩, huncurated⟩ := hphase
    have hok := LabelOk.of_insert hlabels huncurated hnone hlock
    have hgoes := goes_put { x with
      phase := .findDuplicate anchor (x.newLabel name).id
      label := some (x.newLabel name) } hlock
    refine ⟨_, hgoes, ?_⟩
    exact
      { label := fun label hx => by
          cases hx
          exact ⟨hok.live, hok.own, hok.locked, hok.distinct⟩
        locked := fun write hx => by simp [hnowrite] at hx
        write := fun write hx => by simp [hnowrite] at hx
        phase := .inr ⟨_, rfl, rfl⟩ }
  | labelTaken hx =>
    rw [hx] at hphase
    exact h.goto hphase
  | notAnnotated hx =>
    rw [hx] at hphase
    exact h.goto hphase
  | annotated => exact h.goto trivial
  | makeRow hx hlock hfree =>
    rw [hx] at hphase
    exact h.write_goes hlock ⟨rfl, hphase, hfree⟩
  | rowTaken hx =>
    rw [hx] at hphase
    exact h.goto hphase
  | lockLive hlock hmem =>
    obtain ⟨-, hannotations, -, -, hheld, -⟩ := State.lock_spec hlock
    rw [← hannotations] at hmem
    exact h.lock_goto hlock ⟨hheld, hmem⟩
  | @delete row locked hx hlock =>
    rw [hx] at hphase
    exact h.write_goes hlock ⟨hphase.1, ⟨row, hphase.2, rfl, rfl⟩, fun hlive => by simp at hlive⟩
  | lockTombstone hlock hmem hdead =>
    obtain ⟨-, hannotations, -, -, hheld, -⟩ := State.lock_spec hlock
    rw [← hannotations] at hmem
    exact h.lock_goto hlock ⟨hheld, hmem, hdead⟩
  | @restore row locked hx hlock hfree =>
    rw [hx] at hphase
    obtain ⟨hheld, hmem, hdead⟩ := hphase
    have hfree : Free s row := free_of_not_occupied hmem hdead hfree
    exact h.write_goes hlock ⟨hheld, ⟨row, hmem, rfl, rfl⟩, fun _ => hfree⟩

end

/-! ### One step -/

/-- What holds between two steps. -/
structure Inv (w : Wording) (s : State) : Prop where
  labels : LabelsOk w s.labels
  annotations : AnnotationsOk s.labels s.annotations
  txns : ∀ t x, s.txns t = some x → TxnOk w s t x

section
variable {w : Wording} {settings : Evaluations.Settings} {s s' : State} {t t' : TxnId} {x : Txn}
  {labels : Table AnnotationLabel} {annotations : Table Annotation}

/-- A commit adds the label that the transaction has made. -/
theorem mem_commitLabel (h : commitLabel s.labels x.label = some labels)
    {label : AnnotationLabel} :
    label ∈ labels ↔ label ∈ s.labels ∨ x.label = some label := by
  cases hx : x.label with
  | none =>
    rw [hx] at h
    cases h
    simp
  | some made =>
    rw [hx] at h
    rw [Table.mem_insertAll h, List.mem_singleton, Option.some.injEq, eq_comm (a := label)]

/-- A commit puts the row that the transaction has written. -/
theorem TxnOk.puts (h : TxnOk w s t x) {write : Write} (hx : x.write = some write)
    (hcommit : commitWrite s.annotations x.write = some annotations) :
    Puts s.annotations annotations write.row := by
  rw [hx] at hcommit
  have hwrite := h.write write hx
  cases write with
  | insert row => exact puts_insert hcommit
  | update row =>
    obtain ⟨-, ⟨old, hold, hkey, -⟩, -⟩ := hwrite
    cases hcommit
    exact puts_overwrite ⟨old, hold, hkey⟩

/-- A commit leaves the rows that another transaction has locked. -/
theorem TxnOk.mem_commitWrite (h : TxnOk w s t x)
    (hcommit : commitWrite s.annotations x.write = some annotations) (hne : t' ≠ t)
    {row : Annotation} (hmem : row ∈ s.annotations)
    (hlocked : s.locks (.row (key row)) = some t') :
    row ∈ annotations := by
  cases hx : x.write with
  | none =>
    rw [hx] at hcommit
    cases hcommit
    exact hmem
  | some write =>
    rw [hx] at hcommit
    cases write with
    | insert new => exact (Table.mem_insertAll hcommit).mpr (.inl hmem)
    | update new =>
      cases hcommit
      refine Table.mem_overwrite_of_ne hmem fun new' hnew hkey => ?_
      obtain rfl := List.mem_singleton.mp hnew
      have hheld : s.locks (.row (key new')) = some t := (h.write _ hx).1
      rw [hkey, hlocked, Option.some.injEq] at hheld
      exact hne hheld

/-- A commit keeps what holds of the labels. -/
theorem TxnOk.labelsOk (h : TxnOk w s t x) (hlabels : LabelsOk w s.labels)
    (hcommit : commitLabel s.labels x.label = some labels) : LabelsOk w labels where
  live label hmem := by
    rcases (mem_commitLabel hcommit).mp hmem with hold | hnew
    · exact hlabels.live label hold
    · exact (h.label label hnew).live
  distinct label hmem label' hmem' hname := by
    rcases (mem_commitLabel hcommit).mp hmem with hold | hnew <;>
      rcases (mem_commitLabel hcommit).mp hmem' with hold' | hnew'
    · exact hlabels.distinct label hold label' hold' hname
    · have hok := h.label label' hnew'
      obtain ⟨u, hauthor, hne⟩ := hok.distinct label hold hname
      exact .inr ⟨u, _, hauthor, hok.own, hne⟩
    · have hok := h.label label hnew
      obtain ⟨u, hauthor, hne⟩ := hok.distinct label' hold' hname.symm
      exact .inr ⟨_, u, hok.own, hauthor, hne.symm⟩
    · rw [hnew] at hnew'
      cases hnew'
      exact .inl rfl

/-- The label that a transaction has found or made is there after its commit. -/
theorem HasLabel.commit {labelId : UUID} (h : HasLabel s x labelId) (hok : TxnOk w s t x)
    (hcommit : commitLabel s.labels x.label = some labels) :
    ∃ label ∈ labels, key label = labelId ∧ UsableBy x.ctx.callerId label := by
  rcases h with ⟨label, hmem, hlabel⟩ | ⟨label, hx, hkey⟩
  · exact ⟨label, (mem_commitLabel hcommit).mpr (.inl hmem), hlabel⟩
  · exact ⟨label, (mem_commitLabel hcommit).mpr (.inr hx), hkey, .inr (hok.label label hx).own⟩

/-- A commit keeps what holds of the annotations. -/
theorem TxnOk.annotationsOk (h : TxnOk w s t x) (hold : AnnotationsOk s.labels s.annotations)
    (hlabel : commitLabel s.labels x.label = some labels)
    (hcommit : commitWrite s.annotations x.write = some annotations) :
    AnnotationsOk labels annotations := by
  have hkept : ∀ row ∈ s.annotations,
      ∃ label ∈ labels, key label = row.labelId ∧ UsableBy row.createdById label := by
    intro row hrow
    obtain ⟨label, hmem, husable⟩ := hold.label row hrow
    exact ⟨label, (mem_commitLabel hlabel).mpr (.inl hmem), husable⟩
  cases hx : x.write with
  | none =>
    rw [hx] at hcommit
    cases hcommit
    exact ⟨hkept, hold.unique⟩
  | some write =>
    have hputs := h.puts hx hcommit
    have hwrite := h.write write hx
    have hfree : live write.row = true → Free s write.row := by
      cases write with
      | insert row => exact fun _ => hwrite.2.2
      | update row => exact hwrite.2.2
    constructor
    · intro row hrow
      rcases hputs.cases row hrow with rfl | hrow
      · cases write with
        | insert row =>
          obtain ⟨hauthor, hhas, -⟩ := hwrite
          show ∃ label ∈ labels, key label = row.labelId ∧ UsableBy row.createdById label
          rw [hauthor]
          exact hhas.commit h hlabel
        | update row =>
          obtain ⟨-, ⟨old, hmem, -, hsame⟩, -⟩ := hwrite
          injection hsame with hmessage hlabelId hauthor
          show ∃ label ∈ labels, key label = row.labelId ∧ UsableBy row.createdById label
          rw [← hlabelId, ← hauthor]
          exact hkept old hmem
      · exact hkept row hrow
    · intro row hrow row' hrow' hlive hlive' hsame
      rcases hputs.cases row hrow with rfl |
        hrow <;> rcases hputs.cases row' hrow' with rfl | hrow'
      · rfl
      · exact absurd hsame.symm (hfree hlive row' hrow' hlive')
      · exact absurd hsame (hfree hlive' row hrow hlive)
      · exact hold.unique row hrow row' hrow' hlive hlive' hsame

/-- A commit takes nothing away from another transaction. -/
theorem TxnOk.stable_commit (h : TxnOk w s t x)
    (hlabel : commitLabel s.labels x.label = some labels)
    (hcommit : commitWrite s.annotations x.write = some annotations) (hne : t' ≠ t) :
    Stable w s { s.close t with labels, annotations } t' where
  locks k hheld := Locks.held_release hne hheld
  labels label hmem := (mem_commitLabel hlabel).mpr (.inl hmem)
  newLabels label hmem := by
    rcases (mem_commitLabel hlabel).mp hmem with hold | hnew
    · exact .inl hold
    · have hok := h.label label hnew
      refine .inr ⟨_, hok.own, ?_⟩
      rw [hok.locked]
      exact fun hsame => hne (Option.some.inj hsame).symm
  rows row hmem hlocked := h.mem_commitWrite hcommit hne hmem hlocked
  newRows row hmem hlive := by
    cases hx : x.write with
    | none =>
      rw [hx] at hcommit
      cases hcommit
      exact .inl hmem
    | some write =>
      rcases (h.puts hx hcommit).cases row hmem with rfl | hold
      · refine .inr ?_
        rw [h.locked write hx]
        exact fun hsame => hne (Option.some.inj hsame).symm
      · exact .inl hold

/-- A sync of distinct wordings keeps what holds of the labels. -/
theorem labelsOk_sync {now : Time} {catalogue : List CuratedAnnotationLabel}
    (hlabels : LabelsOk w s.labels)
    (hnodup : (catalogue.map fun entry => w.lower entry.name).Nodup)
    (hsync : syncAnnotationLabels w now s.labels catalogue = .ok labels) : LabelsOk w labels where
  live label hmem := by
    rcases syncAnnotationLabels_spec hsync hmem with ⟨hold, -⟩ | ⟨-, -, -, -, -, hlive⟩
    · exact hlabels.live label hold
    · exact hlive
  distinct label hmem label' hmem' hname := by
    rcases syncAnnotationLabels_spec hsync hmem with
      ⟨hold, hother⟩ | ⟨entry, hentry, hkey, hwording, -, -⟩ <;>
      rcases syncAnnotationLabels_spec hsync hmem' with
        ⟨hold', hother'⟩ | ⟨entry', hentry', hkey', hwording', -, -⟩
    · exact hlabels.distinct label hold label' hold' hname
    -- The guard has refused the wording of a label that the catalogue does not write.
    · rw [hwording'] at hname
      exact absurd hname (hother (hlabels.live label hold) entry' hentry')
    · rw [hwording] at hname
      exact absurd hname.symm (hother' (hlabels.live label' hold') entry hentry)
    · rw [hwording, hwording'] at hname
      have hentries : entry = entry' := List.inj_on_of_nodup_map hnodup hentry hentry' hname
      subst hentries
      exact .inl (Table.eq_of_key_eq hmem hmem' (hkey.trans hkey'.symm))

/-- A sync keeps what holds of the annotations. -/
theorem annotationsOk_sync {now : Time} {catalogue : List CuratedAnnotationLabel}
    (hold : AnnotationsOk s.labels s.annotations)
    (hsync : syncAnnotationLabels w now s.labels catalogue = .ok labels) :
    AnnotationsOk labels s.annotations where
  label row hrow := by
    obtain ⟨label, hmem, hkey, husable⟩ := hold.label row hrow
    obtain ⟨label', hmem', hkey', hauthor⟩ := syncAnnotationLabels_keeps hsync hmem
    refine ⟨label', hmem', hkey'.trans hkey, ?_⟩
    rcases hauthor with hnone | hsame
    · exact .inl hnone
    · rw [UsableBy, hsame]
      exact husable
  unique := hold.unique

variable (w) in
/-- A sync runs alone, and its entries are distinct wordings. -/
def Proviso (s : State) : Event → Prop
  | .sync _ catalogue =>
    (∀ t, s.txns t = none) ∧ (catalogue.map fun entry => w.lower entry.name).Nodup
  | _ => True

/-- A new transaction knows nothing yet. -/
theorem txnOk_start {ctx : Context} {request : Request} {phase : Phase}
    (h : request.start = .ok phase) : TxnOk w s t { ctx, phase } where
  label := nofun
  locked := nofun
  write := nofun
  phase := by
    cases request with
    | create payload =>
      simp only [Request.start, bind_eq_ok] at h
      obtain ⟨draft, -, h⟩ := h
      cases h
      exact ⟨rfl, rfl⟩
    | delete annotationId =>
      cases h
      trivial
    | restore annotationId =>
      cases h
      trivial

/-- The steps of one transaction: the invariant holds when what is committed is kept, the
transaction knows what it should, and nothing is taken from the others. -/
theorem Inv.of_txn (hinv : Inv w s) {next : Option Txn} (hlabels : LabelsOk w s'.labels)
    (hannotations : AnnotationsOk s'.labels s'.annotations)
    (htxns : s'.txns = Function.update s.txns t next)
    (hnext : ∀ x, next = some x → TxnOk w s' t x) (hstable : ∀ t', t' ≠ t → Stable w s s' t') :
    Inv w s' := by
  refine ⟨hlabels, hannotations, fun t' x hx => ?_⟩
  rw [htxns] at hx
  by_cases hsame : t' = t
  · subst hsame
    rw [Function.update_self] at hx
    exact hnext x hx
  · rw [Function.update_of_ne hsame] at hx
    exact (hinv.txns t' x hx).stable (hstable t' hsame)

/-- One step keeps the invariant. -/
theorem Inv.step (hinv : Inv w s) {event : Event} (hproviso : Proviso w s event)
    (hstep : step w settings s event = some s') : Inv w s' := by
  cases event with
  | start t ctx request =>
    simp only [Annotations.step] at hstep
    split at hstep
    · simp only [Option.map_eq_some_iff, toOption_eq_some, bind_eq_ok] at hstep
      obtain ⟨phase, ⟨-, -, hphase⟩, rfl⟩ := hstep
      refine hinv.of_txn hinv.labels hinv.annotations rfl (fun x hx => ?_) fun t' _ =>
        stable_of_locks rfl rfl fun _ h => h
      cases hx
      exact txnOk_start hphase
    · cases hstep
  | statement t =>
    simp only [Annotations.step, Option.bind_eq_some_iff] at hstep
    obtain ⟨x, hx, hstatement⟩ := hstep
    obtain ⟨x', hgoes, hok⟩ := statement_spec hinv.labels (hinv.txns t x hx) hstatement
    refine hinv.of_txn ?_ ?_ hgoes.txns (fun y hy => ?_) fun t' _ => hgoes.stable t'
    · rw [hgoes.labels]
      exact hinv.labels
    · rw [hgoes.labels, hgoes.annotations]
      exact hinv.annotations
    · cases hy
      exact hok
  | commit t =>
    simp only [Annotations.step] at hstep
    split at hstep
    · rename_i ctx label write hx
      simp only [Option.bind_eq_some_iff, Option.map_eq_some_iff] at hstep
      obtain ⟨labels, hlabel, annotations, hcommit, rfl⟩ := hstep
      have hok := hinv.txns t _ hx
      exact hinv.of_txn (hok.labelsOk hinv.labels hlabel)
        (hok.annotationsOk hinv.annotations hlabel hcommit) rfl
          (fun x hx => absurd hx.symm (Option.some_ne_none x))
        fun t' hne => hok.stable_commit hlabel hcommit hne
    · cases hstep
  | abort t =>
    simp only [Annotations.step] at hstep
    split at hstep
    · cases hstep
      exact hinv.of_txn hinv.labels hinv.annotations rfl
        (fun x hx => absurd hx.symm (Option.some_ne_none x)) fun t' hne =>
        stable_of_locks rfl rfl fun _ hheld => Locks.held_release hne hheld
    · cases hstep
  | sync now catalogue =>
    obtain ⟨halone, hnodup⟩ := hproviso
    simp only [Annotations.step, Option.map_eq_some_iff, toOption_eq_some] at hstep
    obtain ⟨labels, hsync, rfl⟩ := hstep
    have hannotations : AnnotationsOk labels s.annotations :=
      annotationsOk_sync hinv.annotations hsync
    refine ⟨labelsOk_sync hinv.labels hnodup hsync, hannotations, fun t x hx => ?_⟩
    have hopen : s.txns t = some x := hx
    rw [halone t] at hopen
    cases hopen
  | elsewhere around =>
    cases hstep
    refine ⟨hinv.labels, hinv.annotations, fun t x hx => (hinv.txns t x hx).stable ?_⟩
    exact stable_of_locks rfl rfl fun _ h => h

/-! ### Runs -/

/-- The wording of an annotation, by its label. -/
def State.wordingOf (w : Wording) (s : State) (row : Annotation) : Option String :=
  (s.labels.find? row.labelId).map fun label => w.lower label.name

/-- Two live annotations of one author on one message with one wording are the same. -/
def OneWording (w : Wording) (s : State) : Prop :=
  ∀ row ∈ s.annotations, ∀ row' ∈ s.annotations, live row = true → live row' = true →
    row.messageId = row'.messageId → row.createdById = row'.createdById →
      s.wordingOf w row = s.wordingOf w row' → row = row'

/-- The state before the first label. -/
structure Start (s : State) : Prop where
  labels : s.labels = .empty
  annotations : s.annotations = .empty
  txns : ∀ t, s.txns t = none

theorem Start.inv (h : Start s) : Inv w s where
  labels := by
    rw [h.labels]
    exact ⟨nofun, nofun⟩
  annotations := by
    rw [h.annotations]
    exact ⟨nofun, nofun⟩
  txns t x hx := by
    rw [h.txns t] at hx
    cases hx

/-- Two labels of one wording that one author may use are the same. -/
theorem LabelsOk.eq_of_usable (h : LabelsOk w s.labels) {author : UserId}
    {label label' : AnnotationLabel} (hmem : label ∈ s.labels) (hmem' : label' ∈ s.labels)
    (hname : w.lower label.name = w.lower label'.name) (husable : UsableBy author label)
    (husable' : UsableBy author label') : label = label' := by
  rcases h.distinct label hmem label' hmem' hname with hsame | ⟨u, u', hu, hu', hne⟩
  · exact hsame
  · unfold UsableBy at husable husable'
    rw [hu] at husable
    rw [hu'] at husable'
    simp only [reduceCtorEq, false_or, Option.some.injEq] at husable husable'
    exact absurd (husable.trans husable'.symm) hne

/-- The invariant gives the wordings. -/
theorem Inv.oneWording (h : Inv w s) : OneWording w s := by
  intro row hrow row' hrow' hlive hlive' hmessage hauthor hwording
  obtain ⟨label, hmem, hkey, husable⟩ := h.annotations.label row hrow
  obtain ⟨label', hmem', hkey', husable'⟩ := h.annotations.label row' hrow'
  have hfind : s.labels.find? row.labelId = some label := Table.find?_eq_some.mpr ⟨hmem, hkey⟩
  have hfind' : s.labels.find? row'.labelId = some label' :=
    Table.find?_eq_some.mpr ⟨hmem', hkey'⟩
  rw [State.wordingOf, State.wordingOf, hfind, hfind', Option.map_some, Option.map_some,
    Option.some.injEq] at hwording
  rw [← hauthor] at husable'
  have hsame : label = label' := h.labels.eq_of_usable hmem hmem' hwording husable husable'
  have hlabel : row.labelId = row'.labelId := by
    rw [← hkey, ← hkey', hsame]
  refine h.annotations.unique row hrow row' hrow' hlive hlive' ?_
  rw [ Annotation.triple, Annotation.triple, hmessage, hlabel, hauthor]

/-- In every state that a run reaches, no author has two live annotations on one message whose
labels have one wording. -/
theorem one_wording {events : List Event} (hstart : Start s)
    (hproviso : Along (Annotations.step w settings) (Proviso w) s events)
    (hrun : run (Annotations.step w settings) s events = some s') : OneWording w s' := by
  have hinv : Inv w s' :=
    run_invariant_along (fun _ _ _ hinv hevent hstep => hinv.step hevent hstep)
      hstart.inv hproviso hrun
  exact hinv.oneWording

end

/-! ### A run -/

/-- ASCII wordings. The id of a curated label is the length of its key. -/
def asciiWording : Wording where
  lower := String.toLower
  curatedLabelId := String.length

/-- A published group with one evaluation, and the message 91 in the conversation 41. -/
def oneMessage : Surroundings where
  base :=
    { Evaluations.deployed with
      groups := .single { id := 30, createdAt := 0, createdById := 1, status := .approved,
                          accessLevel := .public }
      evaluations := .single { id := 31, createdAt := 0, title := "Trial", createdById := 1,
                               evaluationGroupId := 30 } }
  conversations := .single { id := 41, createdAt := 0, userId := 1, evaluationId := 31,
                             evaluationAiModelId := 32, conversationGroupId := 40,
                             scenarioId := 33 }
  turns := .single { id := 81, createdAt := 0, conversationId := 41, turnIndex := 0 }
  messages := .single { id := 91, createdAt := 0, turnId := 81 }

/-- The state before the first label. -/
def unlabelled : State where
  labels := .empty
  annotations := .empty
  around := oneMessage
  locks _ := none
  txns _ := none

/-- The admin annotates the message 91. -/
def annotate (t : TxnId) (row : UUID) (text : String) (statements : Nat) : List Event :=
  .start t
      { toContext := (Evaluations.Label.byRoot row (.deleteModel 0)).toContext,
        freshLabel := row + 1 }
      (.create { messageId := 91, text := some text }) ::
    (List.replicate statements (.statement t) ++ [.commit t])

/-- A catalogue of one label is written, and the admin types its wording, and another one. -/
def annotated : List Event :=
  .sync 1 [⟨"jailbreak", "Jailbreak"⟩] ::
    (annotate 1 50 "jailbreak" 5 ++ annotate 2 60 " Bias " 7)

/-- After that run, the admin has two annotations on the message, of two wordings. -/
theorem one_wording_of_annotated :
    ∃ s, run (step asciiWording Evaluations.thirtyDays) unlabelled annotated = some s ∧
      (liveSelect s.annotations).length = 2 ∧ OneWording asciiWording s := by
  have hany : (run (step asciiWording Evaluations.thirtyDays) unlabelled annotated).any
      (fun s => (liveSelect s.annotations).length == 2) = true := by decide +kernel
  obtain ⟨s, hrun, htwo⟩ := exists_run_of_any hany
  have hproviso :
      Along (step asciiWording Evaluations.thirtyDays) (Proviso asciiWording) unlabelled
        annotated := by
    refine ⟨⟨fun _ => rfl, by simp⟩, fun _ _ => along_of_forall fun event hevent _ => ?_⟩
    simp only [annotate, List.mem_append, List.mem_cons, List.mem_replicate, List.not_mem_nil,
      or_false] at hevent
    rcases hevent with (rfl | ⟨-, rfl⟩ | rfl) | rfl | ⟨-, rfl⟩ | rfl <;> trivial
  exact ⟨s, hrun, beq_iff_eq.mp htwo, one_wording ⟨rfl, rfl, fun _ => rfl⟩ hproviso hrun⟩

end RedTeaming.Annotations
