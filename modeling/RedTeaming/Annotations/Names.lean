import RedTeaming.Annotations.Wordings

/-!
# `RedTeaming.Annotations.Names`: the labels and the annotations, whatever runs interleaved

What holds without a proviso. Every name is clean, as long as the catalogues that are written have
clean names. An author has one live label of a wording, and one live annotation with a label on a
message: these are the two unique indexes. A sync may run at any time here, and a label may be
retired by hand, as nothing in the application does.

A curated label and a typed one can have one wording here: the guard of a sync does not see a
label that is not committed yet. `Known` is what a transaction knows of what it has read and
written.
-/

set_option autoImplicit false

namespace RedTeaming.Annotations

open RedTeaming.Auth
open RedTeaming.Conversations.Tags (length_sanitise_le sanitiseSingleLine sanitise_idem)
open RedTeaming.Library

/-- A step of the application, or a label that is retired by hand. -/
inductive LabelEvent
  | app (event : Event)
  | retire (now : Time) (byId : UserId) (labelId : UUID)

section
variable (w : Wording) (settings : Evaluations.Settings)

/-- A name that a payload can carry, and that cleaning leaves as it is. -/
structure CleanName (name : String) : Prop where
  clean : sanitiseSingleLine name = name
  nonempty : 1 ≤ name.length
  short : name.length ≤ annotationTextMaxLength

/-- One step. -/
def labelStep (s : State) : LabelEvent → Option State
  | .app event => step w settings s event
  | .retire now byId labelId => some { s with labels := softDeleteRow s.labels now byId labelId }

/-- The names of a catalogue that is written are clean. -/
def CleanCatalogue : LabelEvent → Prop
  | .app (.sync _ catalogue) => ∀ entry ∈ catalogue, CleanName entry.name
  | _ => True

/-- The names that a statement has read are clean. -/
def CleanPhase : Phase → Prop
  | .resolveMessage draft | .resolveLabel draft _ => ∀ text, draft.text = some text →
      CleanName text
  | .checkOffered _ label => CleanName label.name
  | .findShared _ name | .findOwn _ name | .insertLabel _ name | .rereadOwn _ name =>
    CleanName name
  | _ => True

end

/-- The row that a statement is about to write is locked and committed. -/
def RowPhase (s : State) (t : TxnId) : Phase → Prop
  | .delete row => s.locks (.row (key row)) = some t ∧ row ∈ s.annotations
  | .restore row =>
    s.locks (.row (key row)) = some t ∧ row ∈ s.annotations ∧ live row = false
  | _ => True

/-- What a transaction knows of a label that it has made: it holds the caller's wording, and the
caller has no committed label of it. -/
structure Made (w : Wording) (s : State) (t : TxnId) (x : Txn) (label : AnnotationLabel) :
    Prop where
  clean : CleanName label.name
  own : label.createdById = some x.ctx.callerId
  locked : s.locks (.wording x.ctx.callerId (w.lower label.name)) = some t
  new : ∀ other ∈ s.labels, live other = true → other.createdById = some x.ctx.callerId →
    w.lower other.name ≠ w.lower label.name

/-- What a transaction knows of an annotation that it has written: it holds the key, and nobody
else has a live row of it. -/
structure Written (s : State) (t : TxnId) (write : Write) : Prop where
  locked : s.locks write.row.triple = some t
  free : live write.row = true → Free s write.row
  old : ∀ row, write = .update row → s.locks (.row (key row)) = some t ∧
    ∃ old ∈ s.annotations, key old = key row ∧ old.triple = row.triple

/-- What a transaction knows of what it has read and written. -/
structure Known (w : Wording) (s : State) (t : TxnId) (x : Txn) : Prop where
  phase : CleanPhase x.phase
  rowPhase : RowPhase s t x.phase
  label : ∀ label, x.label = some label → Made w s t x label
  write : ∀ write, x.write = some write → Written s t write

/-- The live names are clean. -/
def CleanLabels (labels : Table AnnotationLabel) : Prop :=
  ∀ label ∈ labels, live label = true → CleanName label.name

/-- An author has one live label of a wording. -/
def OneOwn (w : Wording) (labels : Table AnnotationLabel) : Prop :=
  ∀ label ∈ labels, ∀ label' ∈ labels, live label = true → live label' = true →
    ∀ u, label.createdById = some u → label'.createdById = some u →
      w.lower label.name = w.lower label'.name → label = label'

/-- Two live annotations differ in message, label, or author. -/
def OneTriple (annotations : Table Annotation) : Prop :=
  ∀ row ∈ annotations, ∀ row' ∈ annotations, live row = true → live row' = true →
    row.triple = row'.triple → row = row'

/-- What holds between two steps. -/
structure NamesInv (w : Wording) (s : State) : Prop where
  clean : CleanLabels s.labels
  own : OneOwn w s.labels
  unique : OneTriple s.annotations
  txns : ∀ t x, s.txns t = some x → Known w s t x

/-- What another step cannot take away from `t`: its locks, and the rows that it has locked. What
is new was written under keys that `t` does not hold. -/
structure Keeps (w : Wording) (s s' : State) (t : TxnId) : Prop where
  locks : ∀ k, s.locks k = some t → s'.locks k = some t
  labels : ∀ label ∈ s'.labels, live label = true → ∀ u, label.createdById = some u →
    (label ∈ s.labels ∨ s.locks (.wording u (w.lower label.name)) ≠ some t)
  rows : ∀ row ∈ s.annotations, s.locks (.row (key row)) = some t → row ∈ s'.annotations
  newRows : ∀ row ∈ s'.annotations, live row = true →
    (row ∈ s.annotations ∨ s.locks row.triple ≠ some t)

section
variable {w : Wording} {settings : Evaluations.Settings} {s s' : State} {t t' : TxnId} {x : Txn}
  {phase : Phase}

/-! ### Cleaning -/

/-- What is left of a name stays clean. -/
theorem CleanName.sanitise {name : String} (h : CleanName name) :
    CleanName (sanitiseSingleLine name) := by
  rw [h.clean]
  exact h

/-- The text of a validated payload is clean. -/
theorem cleanName_of_validate {payload draft : AnnotationCreate}
    (h : payload.validate = .ok draft) {text : String} (htext : draft.text = some text) :
    CleanName text := by
  simp only [AnnotationCreate.validate, bind_eq_ok, check_eq_ok] at h
  obtain ⟨-, hlength, -, -, h⟩ := h
  cases h
  obtain ⟨hmap, hnonempty⟩ := Option.filter_eq_some_iff.mp htext
  obtain ⟨raw, hraw, rfl⟩ := Option.map_eq_some_iff.mp hmap
  have hne : sanitiseSingleLine raw ≠ "" := by simpa using hnonempty
  have hshort : raw.length ≤ annotationTextMaxLength := by
    simp only [hraw, Option.all_some, Bool.and_eq_true, decide_eq_true_eq] at hlength
    omega
  constructor
  · exact sanitise_idem raw
  · exact Nat.pos_of_ne_zero (by simpa using hne)
  · exact Nat.le_trans (length_sanitise_le raw) hshort

/-! ### What stays -/

/-- A step that commits nothing takes nothing away. -/
theorem keeps_of_locks (hlabels : s'.labels = s.labels)
    (hannotations : s'.annotations = s.annotations)
    (hlocks : ∀ k, s.locks k = some t → s'.locks k = some t) : Keeps w s s' t where
  locks := hlocks
  labels := by
    rw [hlabels]
    exact fun _ h _ _ _ => .inl h
  rows := by
    rw [hannotations]
    exact fun _ h _ => h
  newRows := by
    rw [hannotations]
    exact fun _ h _ => .inl h

theorem Goes.keeps {x' : Txn} (h : Goes s t x' s') (t' : TxnId) : Keeps w s s' t' :=
  keeps_of_locks h.labels h.annotations fun k => h.locks k t'

theorem RowPhase.keeps (h : RowPhase s t phase) (hkeeps : Keeps w s s' t) :
    RowPhase s' t phase := by
  cases phase with
  | delete row => exact ⟨hkeeps.locks _ h.1, hkeeps.rows row h.2 h.1⟩
  | restore row => exact ⟨hkeeps.locks _ h.1, hkeeps.rows row h.2.1 h.1, h.2.2⟩
  | _ => trivial

/-- A wording that the transaction holds stays free of committed labels of its author. -/
theorem Made.keeps {label : AnnotationLabel} (h : Made w s t x label) (hkeeps : Keeps w s s' t) :
    Made w s' t x label where
  clean := h.clean
  own := h.own
  locked := hkeeps.locks _ h.locked
  new other hother hlive hown hname := by
    rcases hkeeps.labels other hother hlive _ hown with hold | hnot
    · exact h.new other hold hlive hown hname
    · rw [hname] at hnot
      exact hnot h.locked

/-- A key that the transaction holds stays free of committed rows. -/
theorem Written.keeps {write : Write} (h : Written s t write) (hkeeps : Keeps w s s' t) :
    Written s' t write where
  locked := hkeeps.locks _ h.locked
  free hlive other hother hother_live hsame := by
    rcases hkeeps.newRows other hother hother_live with hold | hnot
    · exact h.free hlive other hold hother_live hsame
    · rw [hsame] at hnot
      exact hnot h.locked
  old row hrow := by
    obtain ⟨hlocked, old, hold, hkey, hsame⟩ := h.old row hrow
    have hold_locked : s.locks (.row (key old)) = some t := by
      rw [hkey]
      exact hlocked
    exact ⟨hkeeps.locks _ hlocked, old, hkeeps.rows old hold hold_locked, hkey, hsame⟩

/-- What a transaction knows stays. -/
theorem Known.keeps (h : Known w s t x) (hkeeps : Keeps w s s' t) : Known w s' t x where
  phase := h.phase
  rowPhase := h.rowPhase.keeps hkeeps
  label label hx := (h.label label hx).keeps hkeeps
  write write hx := (h.write write hx).keeps hkeeps

/-! ### One statement -/

/-- What is known of a label does not depend on the phase. -/
theorem Made.of_ctx {label : AnnotationLabel} (x' : Txn) (h : Made w s t x label)
    (hctx : x'.ctx = x.ctx) : Made w s t x' label := by
  have hcaller : x'.ctx.callerId = x.ctx.callerId := by rw [hctx]
  constructor
  · exact h.clean
  · rw [hcaller]
    exact h.own
  · rw [hcaller]
    exact h.locked
  · rw [hcaller]
    exact h.new

/-- A transaction goes on with another statement. -/
theorem Known.goto (h : Known w s t x) (hphase : CleanPhase phase) (hrow : RowPhase s t phase) :
    ∃ x', Goes s t x' (s.goto t x phase) ∧ Known w (s.goto t x phase) t x' := by
  have hgoes : Goes s t { x with phase } (s.goto t x phase) := goes_goto phase
  have hknown : Known w s t { x with phase } :=
    ⟨hphase, hrow, fun label hx => (h.label label hx).of_ctx _ rfl, h.write⟩
  exact ⟨{ x with phase }, hgoes, hknown.keeps (hgoes.keeps t)⟩

/-- A transaction goes on with another statement and a new lock. -/
theorem Known.lock_goto (h : Known w s t x) {k : LockKey} {locked : State}
    (hlock : s.lock t k = some locked) (hphase : CleanPhase phase)
    (hrow : RowPhase locked t phase) :
    ∃ x', Goes s t x' (locked.goto t x phase) ∧ Known w (locked.goto t x phase) t x' := by
  obtain ⟨hlabels, hannotations, -, htxns, -, hlocks⟩ := State.lock_spec hlock
  have hlocked : Known w locked t x :=
    h.keeps (keeps_of_locks hlabels hannotations fun k => hlocks k t)
  obtain ⟨x', hgoes, hknown⟩ := hlocked.goto hphase hrow
  refine ⟨x', ⟨hgoes.labels.trans hlabels, hgoes.annotations.trans hannotations, ?_, ?_⟩, hknown⟩
  · rw [hgoes.txns, htxns]
  · exact fun k t' hheld => hgoes.locks k t' (hlocks k t' hheld)

/-- A transaction finishes with a write. The write takes the key of its row. -/
theorem Known.write_goes (h : Known w s t x) {write : Write} {locked : State}
    (hlock : s.lock t write.row.triple = some locked)
    (hfree : live write.row = true → Free s write.row)
    (hold : ∀ row, write = .update row → s.locks (.row (key row)) = some t ∧
      ∃ old ∈ s.annotations, key old = key row ∧ old.triple = row.triple) :
    ∃ x', Goes s t x' (locked.put t { x with phase := .finished, write := some write }) ∧
      Known w (locked.put t { x with phase := .finished, write := some write }) t x' := by
  obtain ⟨hlabels, hannotations, -, -, hheld, hlocks⟩ := State.lock_spec hlock
  have hkeeps : Keeps w s locked t := keeps_of_locks hlabels hannotations fun k => hlocks k t
  have hgoes := goes_put { x with phase := .finished, write := some write } hlock
  have hwritten : Written locked t write := by
    constructor
    · exact hheld
    · unfold Free
      rw [hannotations]
      exact hfree
    · intro row hrow
      obtain ⟨hlocked, hsome⟩ := hold row hrow
      rw [hannotations]
      exact ⟨hlocks _ t hlocked, hsome⟩
  refine ⟨_, hgoes, trivial, trivial, fun label hx => ?_, fun write' hx => ?_⟩
  · have hmade : Made w locked t x label := (h.label label hx).keeps hkeeps
    have hput := hmade.of_ctx { x with phase := .finished, write := some write } rfl
    exact hput.keeps (keeps_of_locks rfl rfl fun _ hk => hk)
  · cases hx
    exact hwritten.keeps (w := w) (keeps_of_locks rfl rfl fun _ hk => hk)

/-- A transaction makes a label. The insert takes the wording of its author. -/
theorem Known.label_goes (h : Known w s t x) {anchor : Anchor} {name : String} {locked : State}
    (hname : CleanName name) (hnone : (ownLabels w s.labels x.ctx.callerId name).isEmpty = true)
    (hlock : s.lock t (.wording x.ctx.callerId (w.lower name)) = some locked) :
    let x' := { x with
      phase := .findDuplicate anchor (x.newLabel name).id
      label := some (x.newLabel name) }
    Goes s t x' (locked.put t x') ∧ Known w (locked.put t x') t x' := by
  intro x'
  obtain ⟨hlabels, hannotations, -, -, hheld, hlocks⟩ := State.lock_spec hlock
  have hgoes : Goes s t x' (locked.put t x') := goes_put x' hlock
  refine ⟨hgoes, trivial, trivial, fun label hx => ?_, fun write hx => ?_⟩
  · cases hx
    constructor
    · exact hname
    · rfl
    · exact hheld
    · intro other hother hlive hown hsame
      rw [hgoes.labels] at hother
      have hfound : other ∈ ownLabels w s.labels x.ctx.callerId name :=
        mem_ownLabels.mpr ⟨hother, hlive, hown, hsame⟩
      rw [List.isEmpty_iff.mp hnone] at hfound
      cases hfound
  · exact (h.write write hx).keeps (hgoes.keeps (w := w) t)

/-- One statement commits nothing, and the transaction knows what it has read and written. -/
theorem statement_known (hclean : CleanLabels s.labels) (h : Known w s t x)
    (hstep : statement w settings s t x = some s') :
    ∃ x', Goes s t x' s' ∧ Known w s' t x' := by
  have hphase := h.phase
  have hrow := h.rowPhase
  cases does_of_statement hstep with
  | resolveMessage hx =>
    rw [hx] at hphase
    exact h.goto hphase trivial
  | useLabel => exact h.goto trivial trivial
  | @offerLabel draft anchor label hx hmem hlive =>
    have hname : CleanPhase (.checkOffered anchor label) := hclean label hmem hlive
    exact h.goto hname trivial
  | @typeText draft anchor text hx htext =>
    rw [hx] at hphase
    have hname : CleanPhase (.findShared anchor (sanitiseSingleLine text)) :=
      (hphase text htext).sanitise
    exact h.goto hname trivial
  | @offered anchor label hx =>
    rw [hx] at hphase
    have hname : CleanPhase (.findShared anchor (sanitiseSingleLine label.name)) :=
      CleanName.sanitise hphase
    exact h.goto hname trivial
  | shared => exact h.goto trivial trivial
  | notShared hx =>
    rw [hx] at hphase
    exact h.goto hphase trivial
  | own => exact h.goto trivial trivial
  | notOwn hx =>
    rw [hx] at hphase
    exact h.goto hphase trivial
  | makeLabel hx hlock hnone =>
    rw [hx] at hphase
    exact ⟨_, h.label_goes hphase hnone hlock⟩
  | labelTaken hx =>
    rw [hx] at hphase
    exact h.goto hphase trivial
  | notAnnotated => exact h.goto trivial trivial
  | annotated => exact h.goto trivial trivial
  | makeRow hx hlock hfree => exact h.write_goes hlock (fun _ => hfree) nofun
  | rowTaken => exact h.goto trivial trivial
  | lockLive hlock hmem =>
    obtain ⟨-, hannotations, -, -, hheld, -⟩ := State.lock_spec hlock
    rw [← hannotations] at hmem
    exact h.lock_goto hlock trivial ⟨hheld, hmem⟩
  | @delete row locked hx hlock =>
    rw [hx] at hrow
    refine h.write_goes hlock (fun hlive => ?_) fun new hnew => ?_
    · simp [Write.row] at hlive
    · cases hnew
      exact ⟨hrow.1, row, hrow.2, rfl, rfl⟩
  | lockTombstone hlock hmem hdead =>
    obtain ⟨-, hannotations, -, -, hheld, -⟩ := State.lock_spec hlock
    rw [← hannotations] at hmem
    exact h.lock_goto hlock trivial ⟨hheld, hmem, hdead⟩
  | @restore row locked hx hlock hfree =>
    rw [hx] at hrow
    obtain ⟨hheld, hmem, hdead⟩ := hrow
    have hfree : Free s row := free_of_not_occupied hmem hdead hfree
    refine h.write_goes hlock (fun _ => hfree) fun new hnew => ?_
    cases hnew
    exact ⟨hheld, row, hmem, rfl, rfl⟩

/-! ### One step -/

variable {labels : Table AnnotationLabel} {annotations : Table Annotation}

/-- A commit keeps the names. -/
theorem Known.cleanLabels (h : Known w s t x) (hclean : CleanLabels s.labels)
    (hcommit : commitLabel s.labels x.label = some labels) : CleanLabels labels := by
  intro label hmem hlive
  rcases (mem_commitLabel hcommit).mp hmem with hold | hnew
  · exact hclean label hold hlive
  · exact (h.label label hnew).clean

/-- A commit keeps one live label of a wording for each author. -/
theorem Known.oneOwn (h : Known w s t x) (hown : OneOwn w s.labels)
    (hcommit : commitLabel s.labels x.label = some labels) : OneOwn w labels := by
  intro label hmem label' hmem' hlive hlive' u hauthor hauthor' hname
  rcases (mem_commitLabel hcommit).mp hmem with hold | hnew <;>
    rcases (mem_commitLabel hcommit).mp hmem' with hold' | hnew'
  · exact hown label hold label' hold' hlive hlive' u hauthor hauthor' hname
  · have hmade := h.label label' hnew'
    have hsame : label.createdById = some x.ctx.callerId := by
      rw [hauthor, ← hauthor', hmade.own]
    exact absurd hname (hmade.new label hold hlive hsame)
  · have hmade := h.label label hnew
    have hsame : label'.createdById = some x.ctx.callerId := by
      rw [hauthor', ← hauthor, hmade.own]
    exact absurd hname.symm (hmade.new label' hold' hlive' hsame)
  · rw [hnew] at hnew'
    cases hnew'
    rfl

/-- A commit puts the row that the transaction has written. -/
theorem Known.puts (h : Known w s t x) {write : Write} (hx : x.write = some write)
    (hcommit : commitWrite s.annotations x.write = some annotations) :
    Puts s.annotations annotations write.row := by
  rw [hx] at hcommit
  cases write with
  | insert row => exact puts_insert hcommit
  | update row =>
    obtain ⟨-, old, hold, hkey, -⟩ := (h.write _ hx).old row rfl
    cases hcommit
    exact puts_overwrite ⟨old, hold, hkey⟩

/-- A commit keeps one live annotation of a key. -/
theorem Known.oneTriple (h : Known w s t x) (hunique : OneTriple s.annotations)
    (hcommit : commitWrite s.annotations x.write = some annotations) : OneTriple annotations := by
  cases hx : x.write with
  | none =>
    rw [hx] at hcommit
    cases hcommit
    exact hunique
  | some write =>
    have hputs := h.puts hx hcommit
    have hfree := (h.write write hx).free
    intro row hrow row' hrow' hlive hlive' hsame
    rcases hputs.cases row hrow with rfl | hold <;> rcases hputs.cases row' hrow' with rfl | hold'
    · rfl
    · exact absurd hsame.symm (hfree hlive row' hold' hlive')
    · exact absurd hsame (hfree hlive' row hold hlive)
    · exact hunique row hold row' hold' hlive hlive' hsame

/-- A commit leaves the rows that another transaction has locked. -/
theorem Known.mem_commitWrite (h : Known w s t x)
    (hcommit : commitWrite s.annotations x.write = some annotations) (hne : t' ≠ t)
    {row : Annotation} (hmem : row ∈ s.annotations)
    (hlocked : s.locks (.row (key row)) = some t') :
    row ∈ annotations := by
  cases hx : x.write with
  | none =>
    rw [hx] at hcommit
    cases hcommit
    exact hmem
  | some write =>
    rw [hx] at hcommit
    cases write with
    | insert new => exact (Table.mem_insertAll hcommit).mpr (.inl hmem)
    | update new =>
      cases hcommit
      refine Table.mem_overwrite_of_ne hmem fun new' hnew hkey => ?_
      obtain rfl := List.mem_singleton.mp hnew
      have hheld : s.locks (.row (key new')) = some t := ((h.write _ hx).old new' rfl).1
      rw [hkey, hlocked, Option.some.injEq] at hheld
      exact hne hheld

/-- A commit takes nothing away from another transaction. -/
theorem Known.keeps_commit (h : Known w s t x)
    (hlabel : commitLabel s.labels x.label = some labels)
    (hcommit : commitWrite s.annotations x.write = some annotations) (hne : t' ≠ t) :
    Keeps w s { s.close t with labels, annotations } t' where
  locks k hheld := Locks.held_release hne hheld
  labels label hmem _ u hauthor := by
    rcases (mem_commitLabel hlabel).mp hmem with hold | hnew
    · exact .inl hold
    · have hmade := h.label label hnew
      rw [hmade.own, Option.some.injEq] at hauthor
      rw [← hauthor, hmade.locked]
      exact .inr fun hsame => hne (Option.some.inj hsame).symm
  rows row hmem hlocked := h.mem_commitWrite hcommit hne hmem hlocked
  newRows row hmem hlive := by
    cases hx : x.write with
    | none =>
      rw [hx] at hcommit
      cases hcommit
      exact .inl hmem
    | some write =>
      rcases (h.puts hx hcommit).cases row hmem with rfl | hold
      · rw [(h.write write hx).locked]
        exact .inr fun hsame => hne (Option.some.inj hsame).symm
      · exact .inl hold

/-- A sync of clean names keeps the names clean. -/
theorem cleanLabels_sync {now : Time} {catalogue : List CuratedAnnotationLabel}
    (hclean : CleanLabels s.labels) (hnames : ∀ entry ∈ catalogue, CleanName entry.name)
    (hsync : syncAnnotationLabels w now s.labels catalogue = .ok labels) :
    CleanLabels labels := by
  intro label hmem hlive
  rcases syncAnnotationLabels_spec hsync hmem with ⟨hold, -⟩ | ⟨entry, hentry, -, hname, -, -⟩
  · exact hclean label hold hlive
  · rw [hname]
    exact hnames entry hentry

/-- A sync makes no label with an author. -/
theorem mem_of_sync {now : Time} {catalogue : List CuratedAnnotationLabel}
    (hsync : syncAnnotationLabels w now s.labels catalogue = .ok labels) {label : AnnotationLabel}
    (hmem : label ∈ labels) {u : UserId} (hauthor : label.createdById = some u) :
    label ∈ s.labels := by
  rcases syncAnnotationLabels_spec hsync hmem with ⟨hold, -⟩ | ⟨-, -, -, -, hnone, -⟩
  · exact hold
  · rw [hnone] at hauthor
    cases hauthor

/-- A transaction that has made and written nothing knows what its phase says. -/
theorem known_of_phase {ctx : Context} (hphase : CleanPhase phase) (hrow : RowPhase s t phase) :
    Known w s t { ctx, phase } := by
  refine ⟨hphase, hrow, ?_, ?_⟩
  · intro label hlabel
    cases hlabel
  · intro write hwrite
    cases hwrite

/-- A new transaction knows nothing yet but its text. -/
theorem known_start {ctx : Context} {request : Request}
    (h : request.start = .ok phase) : Known w s t { ctx, phase } := by
  cases request with
  | create payload =>
    simp only [Request.start, bind_eq_ok] at h
    obtain ⟨draft, hdraft, h⟩ := h
    cases h
    have hphase : CleanPhase (.resolveMessage draft) := fun text htext =>
      cleanName_of_validate hdraft htext
    exact known_of_phase hphase trivial
  | delete annotationId =>
    cases h
    exact known_of_phase trivial trivial
  | restore annotationId =>
    cases h
    exact known_of_phase trivial trivial

/-- The steps of one transaction: the invariant holds when it holds of what is committed, the
transaction knows what it should, and nothing is taken from the others. -/
theorem NamesInv.of_txn (h : NamesInv w s) {next : Option Txn} (hclean : CleanLabels s'.labels)
    (hown : OneOwn w s'.labels) (hunique : OneTriple s'.annotations)
    (htxns : s'.txns = Function.update s.txns t next)
    (hnext : ∀ x, next = some x → Known w s' t x) (hkeeps : ∀ t', t' ≠ t → Keeps w s s' t') :
    NamesInv w s' := by
  refine ⟨hclean, hown, hunique, fun t' x hx => ?_⟩
  rw [htxns] at hx
  by_cases hsame : t' = t
  · subst hsame
    rw [Function.update_self] at hx
    exact hnext x hx
  · rw [Function.update_of_ne hsame] at hx
    exact (h.txns t' x hx).keeps (hkeeps t' hsame)

/-- The steps of no transaction: nothing is taken from any of them. -/
theorem NamesInv.of_keeps (h : NamesInv w s) (hclean : CleanLabels s'.labels)
    (hown : OneOwn w s'.labels) (hunique : OneTriple s'.annotations) (htxns : s'.txns = s.txns)
    (hkeeps : ∀ t, Keeps w s s' t) : NamesInv w s' := by
  refine ⟨hclean, hown, hunique, fun t x hx => ?_⟩
  rw [htxns] at hx
  exact (h.txns t x hx).keeps (hkeeps t)

/-- A step of the application keeps the invariant. -/
theorem NamesInv.step (hinv : NamesInv w s) {event : Event}
    (hnames : CleanCatalogue (.app event)) (hstep : step w settings s event = some s') :
    NamesInv w s' := by
  cases event with
  | start t ctx request =>
    simp only [Annotations.step] at hstep
    split at hstep
    · simp only [Option.map_eq_some_iff, toOption_eq_some, bind_eq_ok] at hstep
      obtain ⟨phase, ⟨-, -, hphase⟩, rfl⟩ := hstep
      refine hinv.of_txn hinv.clean hinv.own hinv.unique rfl (fun x hx => ?_) fun t' _ =>
        keeps_of_locks rfl rfl fun _ h => h
      cases hx
      exact known_start hphase
    · cases hstep
  | statement t =>
    simp only [Annotations.step, Option.bind_eq_some_iff] at hstep
    obtain ⟨x, hx, hstatement⟩ := hstep
    obtain ⟨x', hgoes, hknown⟩ := statement_known hinv.clean (hinv.txns t x hx) hstatement
    have hclean : CleanLabels s'.labels := by
      rw [hgoes.labels]
      exact hinv.clean
    have hown : OneOwn w s'.labels := by
      rw [hgoes.labels]
      exact hinv.own
    have hunique : OneTriple s'.annotations := by
      rw [hgoes.annotations]
      exact hinv.unique
    refine hinv.of_txn hclean hown hunique hgoes.txns (fun y hy => ?_) fun t' _ => hgoes.keeps t'
    cases hy
    exact hknown
  | commit t =>
    simp only [Annotations.step] at hstep
    split at hstep
    · rename_i ctx label write hx
      simp only [Option.bind_eq_some_iff, Option.map_eq_some_iff] at hstep
      obtain ⟨labels, hlabel, annotations, hcommit, rfl⟩ := hstep
      have hknown := hinv.txns t _ hx
      refine hinv.of_txn (hknown.cleanLabels hinv.clean hlabel) (hknown.oneOwn hinv.own hlabel)
        (hknown.oneTriple hinv.unique hcommit) rfl (fun y hy => ?_)
        fun t' hne => hknown.keeps_commit hlabel hcommit hne
      cases hy
    · cases hstep
  | abort t =>
    simp only [Annotations.step] at hstep
    split at hstep
    · cases hstep
      refine hinv.of_txn hinv.clean hinv.own hinv.unique rfl (fun y hy => ?_) fun t' hne =>
        keeps_of_locks rfl rfl fun _ hheld => Locks.held_release hne hheld
      cases hy
    · cases hstep
  | sync now catalogue =>
    simp only [Annotations.step, Option.map_eq_some_iff, toOption_eq_some] at hstep
    obtain ⟨labels, hsync, rfl⟩ := hstep
    have hown : OneOwn w labels :=
      fun label hmem label' hmem' hlive hlive' u hauthor hauthor' hname =>
      hinv.own label (mem_of_sync hsync hmem hauthor) label' (mem_of_sync hsync hmem' hauthor')
        hlive hlive' u hauthor hauthor' hname
    refine hinv.of_keeps (cleanLabels_sync hinv.clean hnames hsync) hown hinv.unique rfl fun t =>
      ?_
    constructor
    · exact fun _ hheld => hheld
    · exact fun label hmem _ u hauthor => .inl (mem_of_sync hsync hmem hauthor)
    · exact fun _ hmem _ => hmem
    · exact fun _ hmem _ => .inl hmem
  | elsewhere around =>
    cases hstep
    exact hinv.of_keeps hinv.clean hinv.own hinv.unique rfl fun t =>
      keeps_of_locks rfl rfl fun _ h => h

/-- One step keeps the invariant, also when it retires a label. -/
theorem NamesInv.labelStep (hinv : NamesInv w s) {event : LabelEvent}
    (hnames : CleanCatalogue event) (hstep : labelStep w settings s event = some s') :
    NamesInv w s' := by
  cases event with
  | app event => exact hinv.step hnames hstep
  | retire now byId labelId =>
    cases hstep
    -- The labels that are live afterwards were live before.
    have hold : ∀ label ∈ softDeleteRow s.labels now byId labelId, live label = true →
        label ∈ s.labels := fun label hmem hlive => ((mem_softDeleteRow hlive).mp hmem).1
    have hclean : CleanLabels (softDeleteRow s.labels now byId labelId) :=
      fun label hmem hlive => hinv.clean label (hold label hmem hlive) hlive
    have hown : OneOwn w (softDeleteRow s.labels now byId labelId) :=
      fun label hmem label' hmem' hlive hlive' =>
        hinv.own label (hold label hmem hlive) label' (hold label' hmem' hlive') hlive hlive'
    refine hinv.of_keeps hclean hown hinv.unique rfl fun t => ?_
    constructor
    · exact fun _ hheld => hheld
    · exact fun label hmem hlive u _ => .inl (hold label hmem hlive)
    · exact fun _ hmem _ => hmem
    · exact fun _ hmem _ => .inl hmem

theorem Start.namesInv (h : Start s) : NamesInv w s where
  clean := by
    rw [h.labels]
    nofun
  own := by
    rw [h.labels]
    nofun
  unique := by
    rw [h.annotations]
    nofun
  txns t x hx := by
    rw [h.txns t] at hx
    cases hx

/-- The invariant holds in every state that a run reaches. -/
theorem NamesInv.of_run {events : List LabelEvent} (hstart : Start s)
    (hnames : ∀ event ∈ events, CleanCatalogue event)
    (hrun : run (Annotations.labelStep w settings) s events = some s') : NamesInv w s' := by
  have halong : Along (Annotations.labelStep w settings) (fun _ => CleanCatalogue) s events :=
    along_of_forall fun event hevent _ => hnames event hevent
  exact run_invariant_along (fun _ _ _ hinv hevent hstep => hinv.labelStep hevent hstep)
    hstart.namesInv halong hrun

end

end RedTeaming.Annotations
