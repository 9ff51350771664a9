import RedTeaming.Auth.Roles
import RedTeaming.SoftDelete

/-!
# `RedTeaming.Annotations.Labels`: the annotation labels, and their curated catalogue

The rows of `annotation_labels`, and `core/annotations/services/annotation_labels.py`. A label is
curated when it has no author. `syncAnnotationLabels` writes the catalogue, a deploy step, and
refuses a wording that another live label has. `sharedLabel` and `ownLabel` are the two lookups by
which a typed text finds a label.

Two names are one wording when `lower` makes them equal. That function is the database's, so it is
a parameter (`Wording`), and so are the name-based ids.

`syncAnnotationLabels_spec` says which labels there are after a sync.
-/

set_option autoImplicit false

namespace RedTeaming.Annotations

open RedTeaming.Auth
open RedTeaming.Library

/-- A row of `annotation_labels`. A curated one has a key and no author, and a typed one an
author. -/
structure AnnotationLabel extends BaseModel where
  createdById : Option UserId := none
  labelKey : Option String := none
  name : String
deriving DecidableEq

instance : Entity AnnotationLabel :=
  ⟨(·.toBaseModel), fun r b => { r with toBaseModel := b }, fun _ _ => rfl⟩

/-- `lower()` of the database, and `curated_label_id`. -/
structure Wording where
  lower : String → String
  curatedLabelId : String → UUID

/-- One entry of the catalogue. -/
structure CuratedAnnotationLabel where
  key : String
  name : String
deriving DecidableEq

variable (w : Wording)

/-- The two names are one wording. -/
def sameWording (name name' : String) : Bool := w.lower name == w.lower name'

/-! ### The sync -/

/-- A live label, other than those of the catalogue, has the wording of an entry. -/
def clashes (catalogue : List CuratedAnnotationLabel) (row : AnnotationLabel) : Bool :=
  live row && catalogue.any (fun entry => sameWording w row.name entry.name) &&
    !(catalogue.map fun entry => w.curatedLabelId entry.key).contains row.id

/-- The message of the guard. -/
def collisionMessage (clashing : List AnnotationLabel) : String :=
  "Curated annotation labels collide with live rows: "
    ++ ", ".intercalate (clashing.map fun row =>
      quoted row.name ++ " (" ++ toString row.id ++ ")").mergeSort
    ++ ". Retire or rename those rows by hand (SQL — there is no write route), or change the "
    ++ "catalog wording, then re-run syncannotationlabels."

/-- What an upsert makes of the row of an entry. It clears a tombstone. -/
def reworded (entry : CuratedAnnotationLabel) (row : AnnotationLabel) : AnnotationLabel :=
  { row with
      deletedAt := none
      deletedById := none
      createdById := none
      labelKey := some entry.key
      name := entry.name }

/-- What an upsert inserts for an entry without a row. -/
def newCuratedLabel (now : Time) (entry : CuratedAnnotationLabel) : AnnotationLabel where
  id := w.curatedLabelId entry.key
  createdAt := now
  labelKey := some entry.key
  name := entry.name

/-- A live curated row, other than that of the entry, has its key. -/
def keyTaken (labels : Table AnnotationLabel) (entry : CuratedAnnotationLabel) : Bool :=
  labels.rows.any fun row => live row && row.createdById.isNone &&
    row.labelKey == some entry.key && row.id != w.curatedLabelId entry.key

/-- The upsert of one entry, under the id that its key gives. -/
def upsertLabel (now : Time) (labels : Table AnnotationLabel) (entry : CuratedAnnotationLabel) :
    Except ApiError (Table AnnotationLabel) := do
  check (!keyTaken w labels entry)
    (.runtimeError "duplicate key value violates unique constraint")
  match labels.find? (w.curatedLabelId entry.key) with
  | some row => return labels.modify row.id (reworded entry) fun _ => rfl
  | none => flush labels [newCuratedLabel w now entry]

/-- `sync_annotation_labels`: write the catalogue, unless another live label has one of its
wordings. -/
def syncAnnotationLabels (now : Time) (labels : Table AnnotationLabel)
    (catalogue : List CuratedAnnotationLabel) : Except ApiError (Table AnnotationLabel) := do
  let clashing := (liveSelect labels).filter (clashes w catalogue)
  check clashing.isEmpty (.runtimeError (collisionMessage clashing))
  catalogue.foldlM (upsertLabel w now) labels

/-! ### The lookups -/

/-- The curated label of a wording. The first id wins. -/
def sharedLabel (labels : Table AnnotationLabel) (name : String) : Option AnnotationLabel :=
  (((liveSelect labels).filter fun row =>
    row.createdById.isNone && sameWording w row.name name).mergeSort
      fun row row' => decide (row.id ≤ row'.id)).head?

/-- The labels of an author with a wording. -/
def ownLabels (labels : Table AnnotationLabel) (author : UserId) (name : String) :
    List AnnotationLabel :=
  (liveSelect labels).filter fun row =>
    row.createdById == some author && sameWording w row.name name

/-- The label of an author with a wording. `scalar_one_or_none` raises when there are several. -/
def ownLabel (labels : Table AnnotationLabel) (author : UserId) (name : String) :
    Except ApiError (Option AnnotationLabel) :=
  match ownLabels w labels author name with
  | [] => .ok none
  | [row] => .ok (some row)
  | _ => .error (.runtimeError "Multiple rows were found when one or none was required")

section
variable {w} {labels labels' : Table AnnotationLabel} {row : AnnotationLabel}
  {entry : CuratedAnnotationLabel} {catalogue : List CuratedAnnotationLabel} {now : Time}
  {author : UserId} {name : String}

theorem sameWording_iff {name' : String} :
    sameWording w name name' = true ↔ w.lower name = w.lower name' := by
  rw [sameWording, beq_iff_eq]

/-- What the curated lookup finds. -/
theorem sharedLabel_spec (h : sharedLabel w labels name = some row) :
    row ∈ labels ∧ row.createdById = none ∧ w.lower row.name = w.lower name := by
  have hmem := List.mem_of_mem_head? (Option.mem_def.mpr h)
  rw [List.mem_mergeSort, List.mem_filter, mem_liveSelect, Bool.and_eq_true, sameWording_iff,
    Option.isNone_iff_eq_none] at hmem
  exact ⟨hmem.1.1, hmem.2⟩

/-- When the curated lookup finds nothing, every live label of the wording has an author. -/
theorem sharedLabel_eq_none (h : sharedLabel w labels name = none) (hmem : row ∈ labels)
    (hlive : live row = true) (hname : w.lower row.name = w.lower name) :
    row.createdById ≠ none := by
  intro hcurated
  have hnil := List.head?_eq_none_iff.mp h
  have hfound : row ∈ ((liveSelect labels).filter fun row =>
      row.createdById.isNone && sameWording w row.name name).mergeSort
        fun row row' => decide (row.id ≤ row'.id) := by
    rw [List.mem_mergeSort, List.mem_filter, mem_liveSelect, Bool.and_eq_true, sameWording_iff,
      Option.isNone_iff_eq_none]
    exact ⟨⟨hmem, hlive⟩, hcurated, hname⟩
  rw [hnil] at hfound
  cases hfound

/-- A label of the author with the wording. -/
theorem mem_ownLabels :
    row ∈ ownLabels w labels author name ↔
      row ∈ labels ∧ live row = true ∧ row.createdById = some author ∧
        w.lower row.name = w.lower name := by
  rw [ownLabels, List.mem_filter, mem_liveSelect, Bool.and_eq_true, beq_iff_eq, sameWording_iff,
    and_assoc]

/-- What the lookup of the author's labels finds. -/
theorem ownLabel_spec (h : ownLabel w labels author name = .ok (some row)) :
    row ∈ labels ∧ row.createdById = some author := by
  have hmem : row ∈ ownLabels w labels author name := by
    unfold ownLabel at h
    split at h
    · cases h
    · rename_i row' hrows
      cases h
      rw [hrows]
      exact List.mem_cons_self
    · cases h
  obtain ⟨hrow, -, hauthor, -⟩ := mem_ownLabels.mp hmem
  exact ⟨hrow, hauthor⟩

/-- After an upsert, the row of the entry has its name and no author, and the others are as
before. -/
theorem upsertLabel_spec (h : upsertLabel w now labels entry = .ok labels')
    (hmem : row ∈ labels') :
    (row ∈ labels ∧ key row ≠ w.curatedLabelId entry.key) ∨
      (key row = w.curatedLabelId entry.key ∧ row.name = entry.name ∧ row.createdById = none ∧
        live row = true) := by
  simp only [upsertLabel, bind_eq_ok] at h
  obtain ⟨-, -, h⟩ := h
  split at h
  · rename_i old hold
    obtain ⟨-, hkey⟩ := Table.find?_eq_some.mp hold
    have hid : old.id = w.curatedLabelId entry.key := hkey
    cases h
    rcases Table.mem_modify.mp hmem with ⟨row₀, -, hkey₀, rfl⟩ | ⟨hrow, hne⟩
    · exact .inr ⟨hkey₀.trans hid, rfl, rfl, rfl⟩
    · rw [hid] at hne
      exact .inl ⟨hrow, hne⟩
  · rcases (mem_of_flush_singleton h).mp hmem with hrow | rfl
    · exact .inl ⟨hrow, key_ne_of_flush h hrow (List.mem_singleton.mpr rfl)⟩
    · exact .inr ⟨rfl, rfl, rfl, rfl⟩

/-- An upsert keeps every id, and gives no label an author. -/
theorem upsertLabel_keeps (h : upsertLabel w now labels entry = .ok labels')
    (hmem : row ∈ labels) :
    ∃ row' ∈ labels', key row' = key row ∧
      (row'.createdById = none ∨ row'.createdById = row.createdById) := by
  simp only [upsertLabel, bind_eq_ok] at h
  obtain ⟨-, -, h⟩ := h
  split at h
  · rename_i old hold
    cases h
    by_cases hkey : key row = old.id
    · exact ⟨reworded entry row, Table.mem_modify.mpr (.inl ⟨row, hmem, hkey, rfl⟩),
        rfl, .inl rfl⟩
    · exact ⟨row, Table.mem_modify.mpr (.inr ⟨hmem, hkey⟩), rfl, .inr rfl⟩
  · exact ⟨row, (mem_flush h).mpr (.inl hmem), rfl, .inr rfl⟩

/-- After the upserts of a catalogue, the row of an entry has the name of such an entry and no
author, and the others are as before. -/
theorem foldlM_upsertLabel_spec (h : catalogue.foldlM (upsertLabel w now) labels = .ok labels')
    (hmem : row ∈ labels') :
    (row ∈ labels ∧ ∀ entry ∈ catalogue, key row ≠ w.curatedLabelId entry.key) ∨
      ∃ entry ∈ catalogue, key row = w.curatedLabelId entry.key ∧ row.name = entry.name ∧
        row.createdById = none ∧ live row = true := by
  induction catalogue generalizing labels with
  | nil =>
    cases h
    exact .inl ⟨hmem, nofun⟩
  | cons entry catalogue ih =>
    rw [List.foldlM_cons] at h
    obtain ⟨labels₁, hfirst, hrest⟩ := bind_eq_ok.mp h
    rcases ih hrest with ⟨hmem₁, hother⟩ | ⟨entry', hentry', hrow⟩
    · rcases upsertLabel_spec hfirst hmem₁ with ⟨hold, hne⟩ | hrow
      · refine .inl ⟨hold, fun entry' hentry' => ?_⟩
        rcases List.mem_cons.mp hentry' with rfl | hentry'
        · exact hne
        · exact hother entry' hentry'
      · exact .inr ⟨entry, List.mem_cons_self, hrow⟩
    · exact .inr ⟨entry', List.mem_cons_of_mem _ hentry', hrow⟩

/-- The upserts of a catalogue keep every id, and give no label an author. -/
theorem foldlM_upsertLabel_keeps (h : catalogue.foldlM (upsertLabel w now) labels = .ok labels')
    (hmem : row ∈ labels) :
    ∃ row' ∈ labels', key row' = key row ∧
      (row'.createdById = none ∨ row'.createdById = row.createdById) := by
  induction catalogue generalizing labels row with
  | nil =>
    cases h
    exact ⟨row, hmem, rfl, .inr rfl⟩
  | cons entry catalogue ih =>
    rw [List.foldlM_cons] at h
    obtain ⟨labels₁, hfirst, hrest⟩ := bind_eq_ok.mp h
    obtain ⟨row₁, hmem₁, hkey₁, hauthor₁⟩ := upsertLabel_keeps hfirst hmem
    obtain ⟨row', hmem', hkey', hauthor'⟩ := ih hrest hmem₁
    refine ⟨row', hmem', hkey'.trans hkey₁, ?_⟩
    rcases hauthor' with hnone | hsame
    · exact .inl hnone
    · rw [hsame]
      exact hauthor₁

/-- After a sync, a label is one of an entry, with its name and without an author, or it is as
before, and no entry has its wording when it is live. -/
theorem syncAnnotationLabels_spec (h : syncAnnotationLabels w now labels catalogue = .ok labels')
    (hmem : row ∈ labels') :
    (row ∈ labels ∧
      (live row = true → ∀ entry ∈ catalogue, w.lower row.name ≠ w.lower entry.name)) ∨
      ∃ entry ∈ catalogue, key row = w.curatedLabelId entry.key ∧ row.name = entry.name ∧
        row.createdById = none ∧ live row = true := by
  simp only [syncAnnotationLabels, bind_eq_ok, check_eq_ok] at h
  obtain ⟨-, hguard, hfold⟩ := h
  rcases foldlM_upsertLabel_spec hfold hmem with ⟨hold, hother⟩ | hrow
  · refine .inl ⟨hold, fun hlive entry hentry hname => ?_⟩
    have hclash : clashes w catalogue row = true := by
      simp only [clashes, hlive, Bool.true_and, Bool.and_eq_true, Bool.not_eq_true',
        List.any_eq_true, sameWording_iff]
      refine ⟨⟨entry, hentry, hname⟩, ?_⟩
      rw [← Bool.not_eq_true, List.contains_iff_mem, List.mem_map]
      rintro ⟨entry', hentry', hid⟩
      exact hother entry' hentry' hid.symm
    have hfound : row ∈ (liveSelect labels).filter (clashes w catalogue) :=
      List.mem_filter.mpr ⟨mem_liveSelect.mpr ⟨hold, hlive⟩, hclash⟩
    rw [List.isEmpty_iff.mp hguard] at hfound
    cases hfound
  · exact .inr hrow

/-- A sync keeps every id, and gives no label an author. -/
theorem syncAnnotationLabels_keeps (h : syncAnnotationLabels w now labels catalogue = .ok labels')
    (hmem : row ∈ labels) :
    ∃ row' ∈ labels', key row' = key row ∧
      (row'.createdById = none ∨ row'.createdById = row.createdById) := by
  simp only [syncAnnotationLabels, bind_eq_ok] at h
  obtain ⟨-, -, hfold⟩ := h
  exact foldlM_upsertLabel_keeps hfold hmem

end

end RedTeaming.Annotations
