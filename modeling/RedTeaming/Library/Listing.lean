import Mathlib.Data.List.Forall2
import Mathlib.Data.List.Perm.Basic
import Mathlib.Data.List.Sort

/-!
# `RedTeaming.Library.Listing`: filtered, ordered pages of rows

A listing selects rows, narrows them by the filters of the request, orders them, and cuts one page
out. The page carries the number of all rows. `exists_mem_page` says that the pages of a listing
show what the filters leave, in whatever order, and no more.

`filter_orderBy` says that filtering and ordering commute. The sort is stable, so this needs no
comparison that tells all rows apart. `exists_mapM` is for a loop over the rows that may fail.
-/

set_option autoImplicit false

namespace RedTeaming.Library

/-- What a request asks of a listing: the deleted rows or the live ones, the filters, the order,
and the page. -/
structure ListQuery (ρ : Type) where
  deleted : Bool := false
  keep : ρ → Bool := fun _ => true
  le : ρ → ρ → Bool
  limit : Nat
  offset : Nat

/-- One page, with the number of all rows. -/
structure Page (ρ : Type) where
  items : List ρ
  total : Nat

section
variable {ρ : Type}

/-- The page of the rows that the query asks for. -/
def ListQuery.page (query : ListQuery ρ) (rows : List ρ) : Page ρ :=
  let sorted := (rows.filter query.keep).mergeSort query.le
  ⟨(sorted.drop query.offset).take query.limit, sorted.length⟩

/-- What a page shows are rows that the filters leave. -/
theorem ListQuery.mem_of_mem_page {query : ListQuery ρ} {rows : List ρ} {r : ρ}
    (h : r ∈ (query.page rows).items) : r ∈ rows ∧ query.keep r = true := by
  have hsorted := List.mem_of_mem_drop (List.mem_of_mem_take h)
  exact List.mem_filter.mp (List.mem_mergeSort.mp hsorted)

/-- Every row is on a page of the query without filters. -/
theorem ListQuery.exists_mem_page {rows : List ρ} {r : ρ} (h : r ∈ rows) (deleted : Bool)
    (le : ρ → ρ → Bool) :
    ∃ offset, r ∈ (ListQuery.page { deleted, le, limit := 1, offset } rows).items := by
  have hsorted : r ∈ (rows.filter fun _ => true).mergeSort le := by
    rw [List.mem_mergeSort, List.filter_true]
    exact h
  obtain ⟨index, hindex, hget⟩ := List.getElem_of_mem hsorted
  refine ⟨index, ?_⟩
  show r ∈ (((rows.filter fun _ => true).mergeSort le).drop index).take 1
  rw [List.drop_eq_getElem_cons hindex, hget]
  exact List.mem_cons_self

/-- A further filter narrows the rows. -/
theorem ListQuery.page_keep {query : ListQuery ρ} {rows : List ρ} {keep : ρ → Bool} :
    ListQuery.page { query with keep := fun r => keep r && query.keep r } rows =
      query.page (rows.filter keep) := by
  have hrows : rows.filter (fun r => keep r && query.keep r) =
      (rows.filter keep).filter query.keep := by
    rw [List.filter_filter]
    apply List.filter_congr
    intro r _
    exact Bool.and_comm _ _
  unfold ListQuery.page
  rw [hrows]

/-- A page of the images of its rows. -/
def Page.map {ρ' : Type} (f : ρ → ρ') (page : Page ρ) : Page ρ' := ⟨page.items.map f, page.total⟩

/-- When the query reads nothing but the image of a row, the page of the images is the image of
the page. -/
theorem ListQuery.map_page {query : ListQuery ρ} {rows : List ρ} (f : ρ → ρ)
    (hkeep : ∀ r, query.keep (f r) = query.keep r)
    (hle : ∀ a b, query.le (f a) (f b) = query.le a b) :
    (query.page rows).map f = query.page (rows.map f) := by
  have hfilter : (rows.filter query.keep).map f = (rows.map f).filter query.keep := by
    rw [List.filter_map]
    congr 1
    apply List.filter_congr
    intro r _
    exact (hkeep r).symm
  have hsorted : ((rows.filter query.keep).mergeSort query.le).map f =
      ((rows.map f).filter query.keep).mergeSort query.le := by
    rw [← hfilter]
    exact List.map_mergeSort fun a _ b _ => (hle a b).symm
  unfold ListQuery.page Page.map
  dsimp only
  rw [← hsorted, List.map_take, List.map_drop, List.length_map]

/-- `ORDER BY`: a stable sort. -/
def orderBy (le : ρ → ρ → Bool) (rows : List ρ) : List ρ := rows.insertionSort fun a b => le a b

theorem orderBy_perm (le : ρ → ρ → Bool) (rows : List ρ) : (orderBy le rows).Perm rows :=
  List.perm_insertionSort _ rows

@[simp] theorem mem_orderBy {le : ρ → ρ → Bool} {rows : List ρ} {r : ρ} :
    r ∈ orderBy le rows ↔ r ∈ rows := List.mem_insertionSort _

section
variable {le : ρ → ρ → Bool} (htrans : ∀ a b c, le a b → le b c → le a c)
  (htotal : ∀ a b, le a b || le b a)

/-- Inserting a row that the filter drops changes nothing. -/
theorem filter_orderedInsert_of_neg (p : ρ → Bool) {a : ρ} (hp : ¬ p a = true) (l : List ρ) :
    (l.orderedInsert (fun a b => le a b) a).filter p = l.filter p := by
  induction l with
  | nil => simp [hp]
  | cons b l ih =>
    by_cases hab : le a b = true
    · have hinsert : (b :: l).orderedInsert (fun a b => le a b) a = a :: b :: l := by simp [hab]
      rw [hinsert, List.filter_cons_of_neg hp]
    · have hinsert : (b :: l).orderedInsert (fun a b => le a b) a =
          b :: l.orderedInsert (fun a b => le a b) a := by simp [hab]
      rw [hinsert]
      by_cases hpb : p b = true
      · rw [List.filter_cons_of_pos hpb, List.filter_cons_of_pos hpb, ih]
      · rw [List.filter_cons_of_neg hpb, List.filter_cons_of_neg hpb, ih]

include htrans

/-- Inserting a row that the filter keeps commutes with the filter. -/
theorem filter_orderedInsert_of_pos (p : ρ → Bool) {a : ρ} (hp : p a = true) {l : List ρ}
    (hsorted : l.Pairwise fun a b => le a b) :
    (l.orderedInsert (fun a b => le a b) a).filter p =
      (l.filter p).orderedInsert (fun a b => le a b) a := by
  induction l with
  | nil => simp [hp]
  | cons b l ih =>
    rw [List.pairwise_cons] at hsorted
    by_cases hab : le a b = true
    · -- The row goes to the front on both sides, since it is below all that follows.
      have hall : ∀ c ∈ (b :: l).filter p, le a c = true := by
        intro c hc
        rcases List.mem_cons.mp (List.mem_filter.mp hc).1 with rfl | hc
        · exact hab
        · exact htrans a b c hab (hsorted.1 c hc)
      have hinsert : (b :: l).orderedInsert (fun a b => le a b) a = a :: b :: l := by simp [hab]
      rw [hinsert, List.filter_cons_of_pos hp]
      cases hrest : (b :: l).filter p with
      | nil => rfl
      | cons c rest =>
        have hac : le a c = true := hall c (by rw [hrest]; exact List.mem_cons_self)
        simp [hac]
    · have hinsert : ∀ rest : List ρ, (b :: rest).orderedInsert (fun a b => le a b) a =
          b :: rest.orderedInsert (fun a b => le a b) a := by simp [hab]
      rw [hinsert]
      by_cases hpb : p b = true
      · rw [List.filter_cons_of_pos hpb, List.filter_cons_of_pos hpb, hinsert, ih hsorted.2]
      · rw [List.filter_cons_of_neg hpb, List.filter_cons_of_neg hpb, ih hsorted.2]

include htotal

/-- An ordered list is sorted. -/
theorem pairwise_orderBy (rows : List ρ) : (orderBy le rows).Pairwise fun a b => le a b := by
  have : IsTrans ρ fun a b => le a b = true := ⟨fun a b c => htrans a b c⟩
  have : Std.Total fun a b : ρ => le a b = true := ⟨fun a b => by simpa using htotal a b⟩
  exact List.pairwise_insertionSort _ rows

/-- The first of the ordered rows comes before each. -/
theorem of_head?_orderBy {rows : List ρ} {r : ρ} (h : (orderBy le rows).head? = some r) :
    r ∈ rows ∧ ∀ r' ∈ rows, le r r' = true := by
  obtain ⟨rest, hrest⟩ := List.head?_eq_some_iff.mp h
  have hsorted := pairwise_orderBy htrans htotal rows
  rw [hrest, List.pairwise_cons] at hsorted
  have hmem (r' : ρ) : r' ∈ rows ↔ r' = r ∨ r' ∈ rest := by
    rw [← List.mem_cons, ← hrest, mem_orderBy]
  refine ⟨(hmem r).mpr (Or.inl rfl), fun r' hr' => ?_⟩
  rcases (hmem r').mp hr' with rfl | hlater
  · simpa using htotal r' r'
  · exact hsorted.1 r' hlater

/-- Filtering and ordering commute. -/
theorem filter_orderBy (p : ρ → Bool) (rows : List ρ) :
    (orderBy le rows).filter p = orderBy le (rows.filter p) := by
  induction rows with
  | nil => rfl
  | cons r rows ih =>
    by_cases hp : p r = true
    · have hsorted := pairwise_orderBy htrans htotal rows
      rw [List.filter_cons_of_pos hp]
      show ((orderBy le rows).orderedInsert (fun a b => le a b) r).filter p =
        (orderBy le (rows.filter p)).orderedInsert (fun a b => le a b) r
      rw [filter_orderedInsert_of_pos htrans p hp hsorted, ih]
    · rw [List.filter_cons_of_neg hp, ← ih]
      exact filter_orderedInsert_of_neg p hp (orderBy le rows)

/-- Where the comparison tells the rows apart, a sorted permutation of them is their `orderBy`. -/
theorem eq_orderBy {rows sorted : List ρ} (hperm : sorted.Perm rows)
    (hsorted : sorted.Pairwise fun a b => le a b)
    (hanti : ∀ a ∈ rows, ∀ b ∈ rows, le a b → le b a → a = b) : sorted = orderBy le rows := by
  apply List.Perm.eq_of_pairwise _ hsorted (pairwise_orderBy htrans htotal rows)
    (hperm.trans (orderBy_perm le rows).symm)
  intro a b ha hb
  exact hanti a (hperm.mem_iff.mp ha) b (mem_orderBy.mp hb)

end

/-- Ordering the images of rows is ordering the rows. -/
theorem map_orderBy {ρ' : Type} {le : ρ → ρ → Bool} {le' : ρ' → ρ' → Bool} (f : ρ → ρ')
    {rows : List ρ} (h : ∀ a ∈ rows, ∀ b ∈ rows, le a b = le' (f a) (f b)) :
    (orderBy le rows).map f = orderBy le' (rows.map f) :=
  List.map_insertionSort (r := fun a b => le a b) (s := fun a b => le' a b) f rows
    fun a ha b hb => by rw [h a ha b hb]

/-! ### Several keys -/

section
variable {κ : Type} [LinearOrder κ]

/-- `ORDER BY key, …`: compare the keys, and go on where they are equal. -/
def byKey (key : ρ → κ) (rest : ρ → ρ → Bool) (a b : ρ) : Bool :=
  decide (key a < key b) || decide (key a = key b) && rest a b

variable {key : ρ → κ} {rest : ρ → ρ → Bool}

theorem byKey_eq_true {a b : ρ} :
    byKey key rest a b = true ↔ key a < key b ∨ key a = key b ∧ rest a b = true := by
  simp [byKey]

theorem byKey_trans (hrest : ∀ a b c, rest a b → rest b c → rest a c) (a b c : ρ)
    (hab : byKey key rest a b) (hbc : byKey key rest b c) : byKey key rest a c := by
  rw [byKey_eq_true] at hab hbc ⊢
  rcases hab with hab | ⟨hab, hrestab⟩
  · rcases hbc with hbc | ⟨hbc, -⟩
    · exact .inl (hab.trans hbc)
    · exact .inl (hbc ▸ hab)
  · rcases hbc with hbc | ⟨hbc, hrestbc⟩
    · exact .inl (hab ▸ hbc)
    · exact .inr ⟨hab.trans hbc, hrest a b c hrestab hrestbc⟩

theorem byKey_total (hrest : ∀ a b, rest a b || rest b a) (a b : ρ) :
    byKey key rest a b || byKey key rest b a := by
  rw [Bool.or_eq_true, byKey_eq_true, byKey_eq_true]
  rcases lt_trichotomy (key a) (key b) with hlt | heq | hgt
  · exact .inl (.inl hlt)
  · rcases (Bool.or_eq_true _ _).mp (hrest a b) with hab | hba
    · exact .inl (.inr ⟨heq, hab⟩)
    · exact .inr (.inr ⟨heq.symm, hba⟩)
  · exact .inr (.inl hgt)

/-- Rows that compare both ways have equal keys. -/
theorem byKey_antisymm {a b : ρ} (hab : byKey key rest a b) (hba : byKey key rest b a) :
    key a = key b ∧ rest a b ∧ rest b a := by
  rw [byKey_eq_true] at hab hba
  rcases hab with hab | ⟨hab, hrestab⟩
  · rcases hba with hba | ⟨hba, -⟩
    · exact absurd hba hab.not_gt
    · exact absurd hba hab.ne'
  · rcases hba with hba | ⟨-, hrestba⟩
    · exact absurd hab hba.ne'
    · exact ⟨hab, hrestab, hrestba⟩

/-- Of the groups of some keys, one after the other, the rows of a key are its group. -/
theorem filter_flatMap_pair (f : κ → List ρ) {ks : List κ} (hnodup : ks.Nodup) {k : κ}
    (hk : k ∈ ks) :
    ((ks.flatMap fun k' => (f k').map fun r => (k', r)).filter fun row => row.1 = k).map
      Prod.snd = f k := by
  induction ks with
  | nil => cases hk
  | cons k' ks ih =>
    obtain ⟨hhead, hnodup⟩ := List.nodup_cons.mp hnodup
    rw [List.flatMap_cons, List.filter_append, List.map_append]
    rcases List.mem_cons.mp hk with rfl | hk
    · have hown : ((f k).map fun r => (k, r)).filter (fun row => row.1 = k) =
          (f k).map fun r => (k, r) := by simp
      have hothers : (ks.flatMap fun k' => (f k').map fun r => (k', r)).filter
          (fun row => row.1 = k) = [] := by
        rw [List.filter_eq_nil_iff]
        intro row hrow hkey
        obtain ⟨k', hk', hrow⟩ := List.mem_flatMap.mp hrow
        obtain ⟨r, -, rfl⟩ := List.mem_map.mp hrow
        exact hhead (of_decide_eq_true hkey ▸ hk')
      rw [hown, hothers, List.map_nil, List.append_nil, List.map_map]
      exact List.map_id _
    · have hne : k' ≠ k := fun h => hhead (h ▸ hk)
      have hnone : ((f k').map fun r => (k', r)).filter (fun row => row.1 = k) =
          [] := by simp [hne]
      rw [hnone, List.map_nil, List.nil_append]
      exact ih hnodup hk

/-- The rows of each of some keys, one after the other, are the rows with these keys. -/
theorem perm_flatMap_filter {ks : List κ} (hnodup : ks.Nodup) {rows : List ρ}
    (hcover : ∀ r ∈ rows, key r ∈ ks) :
    (ks.flatMap fun k => rows.filter fun r => key r = k).Perm rows := by
  induction ks generalizing rows with
  | nil =>
    cases rows with
    | nil => exact List.Perm.refl _
    | cons r rows => exact absurd (hcover r List.mem_cons_self) List.not_mem_nil
  | cons k ks ih =>
    obtain ⟨hk, hnodup⟩ := List.nodup_cons.mp hnodup
    have hothers : ∀ k' ∈ ks, (rows.filter fun r => decide (key r = k')) =
        (rows.filter fun r => !decide (key r = k)).filter fun r => decide (key r = k') := by
      intro k' hk'
      have hne : k' ≠ k := fun h => hk (h ▸ hk')
      rw [List.filter_filter]
      apply List.filter_congr
      intro r _
      by_cases hr : key r = k' <;> simp [hr, hne]
    have hothersCover : ∀ r ∈ rows.filter (fun r => !decide (key r = k)), key r ∈ ks := by
      intro r hr
      obtain ⟨hmem, hne⟩ := List.mem_filter.mp hr
      rcases List.mem_cons.mp (hcover r hmem) with heq | hin
      · simp [heq] at hne
      · exact hin
    rw [List.flatMap_cons, List.flatMap_congr hothers]
    exact ((ih hnodup hothersCover).append_left _).trans (List.filter_append_perm _ rows)

/-- `ORDER BY key, …` lists the rows of each key in turn. -/
theorem orderBy_byKey (htrans : ∀ a b c, rest a b → rest b c → rest a c)
    (htotal : ∀ a b, rest a b || rest b a) {ks : List κ} (hks : ks.Pairwise (· < ·))
    {rows : List ρ} (hcover : ∀ r ∈ rows, key r ∈ ks)
    (hanti : ∀ a ∈ rows, ∀ b ∈ rows, rest a b → rest b a → a = b) :
    orderBy (byKey key rest) rows =
      ks.flatMap fun k => orderBy rest (rows.filter fun r => key r = k) := by
  symm
  apply eq_orderBy (byKey_trans htrans) (byKey_total htotal)
  · have hperm := perm_flatMap_filter (hks.imp fun h => h.ne) hcover
    refine List.Perm.trans ?_ hperm
    exact List.Perm.flatMap_left ks fun k _ => orderBy_perm rest _
  · rw [List.pairwise_flatMap]
    constructor
    · intro k _
      have hsorted := pairwise_orderBy htrans htotal (rows.filter fun r => key r = k)
      refine hsorted.imp_of_mem ?_
      intro a b ha hb hab
      have hkey : ∀ r ∈ orderBy rest (rows.filter fun r => key r = k), key r = k :=
        fun r hr => of_decide_eq_true (List.mem_filter.mp (mem_orderBy.mp hr)).2
      exact byKey_eq_true.mpr (.inr ⟨(hkey a ha).trans (hkey b hb).symm, hab⟩)
    · refine hks.imp ?_
      intro k k' hlt a ha b hb
      have hka : key a = k := of_decide_eq_true (List.mem_filter.mp (mem_orderBy.mp ha)).2
      have hkb : key b = k' := of_decide_eq_true (List.mem_filter.mp (mem_orderBy.mp hb)).2
      exact byKey_eq_true.mpr (.inl (by rw [hka, hkb]; exact hlt))
  · intro a ha b hb hab hba
    obtain ⟨-, hrestab, hrestba⟩ := byKey_antisymm hab hba
    exact hanti a ha b hb hrestab hrestba

end

end

/-! ### A loop that may fail -/

/-- A loop in which no step fails has one result for each row, with what its step says of it. -/
theorem exists_mapM {α β : Type} {f : α → Option β} {R : α → β → Prop} {rows : List α}
    (h : ∀ a ∈ rows, ∃ b, f a = some b ∧ R a b) :
    ∃ results, rows.mapM f = some results ∧ List.Forall₂ R rows results := by
  induction rows with
  | nil => exact ⟨[], rfl, .nil⟩
  | cons a rows ih =>
    obtain ⟨b, hb, hR⟩ := h a List.mem_cons_self
    obtain ⟨results, hresults, hall⟩ := ih fun a' ha' => h a' (List.mem_cons_of_mem a ha')
    refine ⟨b :: results, ?_, .cons hR hall⟩
    rw [List.mapM_cons, hb, hresults]
    rfl

end RedTeaming.Library
