import Mathlib.Algebra.BigOperators.Group.List.Basic
import Mathlib.Algebra.Ring.Nat
import Mathlib.Data.List.Dedup

/-!
# `RedTeaming.Library.Grouping`: grouped rows and dictionaries of totals

`groupBy` is the `GROUP BY` of a query: the distinct keys, each with its rows. A dictionary is the
list of its items, `valueAt` reads an entry or the default, and `upsert` is `d[k] = f(d[k])` on a
dictionary with a default.

Two kinds of facts connect a total with its parts. A `WHERE` on the grouping key commutes with the
grouping (`groupBy_filter`), so one group of a wide query is the whole of a narrow query. And a
sum over the entries of a dictionary is the sum over any list of keys that covers them
(`sum_valueAt`), so a total over the entries is a total over the rows of a report.

Nothing here names a program.
-/

set_option autoImplicit false

namespace RedTeaming.Library

section
variable {ρ κ ν : Type} [DecidableEq κ]

/-! ### Grouped rows -/

/-- `GROUP BY key`: each key with its rows. -/
def groupBy (key : ρ → κ) (rows : List ρ) : List (κ × List ρ) :=
  (rows.map key).dedup.map fun k => (k, rows.filter fun r => key r = k)

/-- The groups have distinct keys. -/
theorem nodup_keys_groupBy (key : ρ → κ) (rows : List ρ) :
    ((groupBy key rows).map Prod.fst).Nodup := by
  have hkeys : (groupBy key rows).map Prod.fst = (rows.map key).dedup := by
    simp [groupBy, Function.comp_def]
  rw [hkeys]
  exact List.nodup_dedup _

/-- The keys of the groups are the keys of the rows. -/
theorem mem_keys_groupBy {key : ρ → κ} {rows : List ρ} {k : κ} :
    k ∈ (groupBy key rows).map Prod.fst ↔ ∃ r ∈ rows, key r = k := by
  simp [groupBy, Function.comp_def]

/-- The group of a row's key is the rows with the key. -/
theorem mem_groupBy {key : ρ → κ} {rows : List ρ} {k : κ} {group : List ρ}
    (h : (k, group) ∈ groupBy key rows) : group = rows.filter fun r => key r = k := by
  rw [groupBy, List.mem_map] at h
  obtain ⟨k', -, hpair⟩ := h
  cases hpair
  rfl

/-- Keeping what satisfies `p` commutes with dropping repetitions. -/
theorem dedup_filter {p : κ → Bool} (l : List κ) : (l.filter p).dedup = l.dedup.filter p := by
  induction l with
  | nil => rfl
  | cons a l ih =>
    by_cases hp : p a = true
    · by_cases ha : a ∈ l
      · have hmem : a ∈ l.filter p := List.mem_filter.mpr ⟨ha, hp⟩
        rw [List.filter_cons_of_pos hp, List.dedup_cons_of_mem hmem,
          List.dedup_cons_of_mem ha, ih]
      · have hmem : a ∉ l.filter p := fun h => ha (List.mem_filter.mp h).1
        rw [List.filter_cons_of_pos hp, List.dedup_cons_of_notMem hmem,
          List.dedup_cons_of_notMem ha, List.filter_cons_of_pos hp, ih]
    · rw [List.filter_cons_of_neg hp, ih]
      by_cases ha : a ∈ l
      · rw [List.dedup_cons_of_mem ha]
      · rw [List.dedup_cons_of_notMem ha, List.filter_cons_of_neg hp]

/-- A condition on the key keeps or drops whole groups. -/
theorem groupBy_filter (key : ρ → κ) (p : κ → Bool) (rows : List ρ) :
    groupBy key (rows.filter fun r => p (key r)) =
      (groupBy key rows).filter fun g => p g.1 := by
  have hkeys : (rows.filter fun r => p (key r)).map key = (rows.map key).filter p := by
    rw [List.filter_map]
    rfl
  unfold groupBy
  rw [hkeys, dedup_filter, List.filter_map]
  apply List.map_congr_left
  intro k hk
  have hp : p k = true := (List.mem_filter.mp hk).2
  rw [List.filter_filter]
  congr 1
  apply List.filter_congr
  intro r _
  by_cases hr : key r = k <;> simp [hr, hp]

/-! ### Sums over keys -/

section
variable {M : Type} [AddCommMonoid M]

/-- A row counts once among distinct keys that contain its key. -/
theorem sum_single {ks : List κ} (hnodup : ks.Nodup) {k : κ} (hk : k ∈ ks) (m : M) :
    (ks.map fun k' => if k = k' then m else 0).sum = m := by
  induction ks with
  | nil => exact absurd hk List.not_mem_nil
  | cons a ks ih =>
    rw [List.nodup_cons] at hnodup
    rw [List.map_cons, List.sum_cons]
    by_cases hka : k = a
    · have hzero : (ks.map fun k' => if k = k' then m else 0).sum = 0 := by
        apply List.sum_eq_zero
        intro x hx
        obtain ⟨k', hk', rfl⟩ := List.mem_map.mp hx
        have hne : k ≠ k' := fun h => hnodup.1 (hka ▸ h ▸ hk')
        rw [if_neg hne]
      rw [hzero, if_pos hka, add_zero]
    · have hks : k ∈ ks := (List.mem_cons.mp hk).resolve_left hka
      rw [if_neg hka, zero_add, ih hnodup.2 hks]

/-- The rows of each key together are all rows, over any distinct keys that cover them. -/
theorem sum_fibers (key : ρ → κ) (w : ρ → M) {ks : List κ} (hnodup : ks.Nodup) {rows : List ρ}
    (hcover : ∀ r ∈ rows, key r ∈ ks) :
    (ks.map fun k => ((rows.filter fun r => key r = k).map w).sum).sum = (rows.map w).sum := by
  induction rows with
  | nil => simp
  | cons r rows ih =>
    have hsplit : ∀ k, (((r :: rows).filter fun r => key r = k).map w).sum =
        (if key r = k then w r else 0) + ((rows.filter fun r => key r = k).map w).sum := by
      intro k
      by_cases hk : key r = k
      · simp [hk]
      · simp [hk]
    simp only [hsplit, List.sum_map_add]
    have hfirst : key r ∈ ks := hcover r List.mem_cons_self
    rw [sum_single hnodup hfirst, ih fun r hr => hcover r (List.mem_cons_of_mem _ hr),
      List.map_cons, List.sum_cons]

/-- The sum over the concatenation of lists is the sum of their sums. -/
theorem sum_flatMap {α : Type} (f : α → List ρ) (w : ρ → M) (l : List α) :
    ((l.flatMap f).map w).sum = (l.map fun a => ((f a).map w).sum).sum := by
  induction l with
  | nil => rfl
  | cons a l ih =>
    rw [List.flatMap_cons, List.map_append, List.sum_append, List.map_cons, List.sum_cons, ih]

/-- The groups together are all rows. -/
theorem sum_groupBy (key : ρ → κ) (w : ρ → M) (rows : List ρ) :
    ((groupBy key rows).map fun g => (g.2.map w).sum).sum = (rows.map w).sum := by
  have hcover : ∀ r ∈ rows, key r ∈ (rows.map key).dedup := by
    intro r hr
    rw [List.mem_dedup]
    exact List.mem_map_of_mem hr
  rw [groupBy, List.map_map]
  exact sum_fibers key w (List.nodup_dedup _) hcover

end

/-- Counting is adding up ones. -/
theorem countP_eq_sum (q : ρ → Bool) (rows : List ρ) :
    rows.countP q = (rows.map fun r => if q r then 1 else 0).sum := by
  induction rows with
  | nil => rfl
  | cons r rows ih =>
    rw [List.countP_cons, List.map_cons, List.sum_cons, ih]
    omega

/-- The counts of the groups together are the count of all rows whose key satisfies `p`. -/
theorem countP_groupBy (key : ρ → κ) (p : κ → Bool) (q : ρ → Bool) (rows : List ρ) :
    (((groupBy key rows).filter fun g => p g.1).map fun g => g.2.countP q).sum =
      (rows.filter fun r => p (key r)).countP q := by
  simp only [countP_eq_sum]
  rw [← groupBy_filter, sum_groupBy]

/-- The sizes of the groups together are the number of all rows whose key satisfies `p`. -/
theorem length_groupBy (key : ρ → κ) (p : κ → Bool) (rows : List ρ) :
    (((groupBy key rows).filter fun g => p g.1).map fun g => g.2.length).sum =
      (rows.filter fun r => p (key r)).length := by
  have hcount := countP_groupBy key p (fun _ => true) rows
  simpa only [List.countP_true] using hcount

/-- The counts over the rows of each key together are the count over all rows. -/
theorem countP_fibers (key : ρ → κ) (q : ρ → Bool) {ks : List κ} (hnodup : ks.Nodup)
    {rows : List ρ} (hcover : ∀ r ∈ rows, key r ∈ ks) :
    (ks.map fun k => (rows.filter fun r => key r = k).countP q).sum = rows.countP q := by
  simp only [countP_eq_sum]
  exact sum_fibers key _ hnodup hcover

/-- The numbers of rows of each key together are the number of all rows. -/
theorem length_fibers (key : ρ → κ) {ks : List κ} (hnodup : ks.Nodup) {rows : List ρ}
    (hcover : ∀ r ∈ rows, key r ∈ ks) :
    (ks.map fun k => (rows.filter fun r => key r = k).length).sum = rows.length := by
  have hcount := countP_fibers key (fun _ => true) hnodup hcover
  simpa only [List.countP_true] using hcount

/-! ### Dictionaries -/

/-- `d.get(k, dflt)`. -/
def valueAt (d : List (κ × ν)) (k : κ) (dflt : ν) : ν := (d.lookup k).getD dflt

/-- `d[k] = f(d[k])`, where a missing entry reads as `dflt`. -/
def upsert (d : List (κ × ν)) (k : κ) (dflt : ν) (f : ν → ν) : List (κ × ν) :=
  match d with
  | [] => [(k, f dflt)]
  | (k', v) :: d => if k' = k then (k', f v) :: d else (k', v) :: upsert d k dflt f

@[simp] theorem valueAt_nil (k : κ) (dflt : ν) : valueAt [] k dflt = dflt := rfl

theorem valueAt_cons (k' : κ) (v : ν) (d : List (κ × ν)) (k : κ) (dflt : ν) :
    valueAt ((k', v) :: d) k dflt = if k = k' then v else valueAt d k dflt := by
  by_cases h : k = k'
  · simp [valueAt, h]
  · have hkey : (k == k') = false := beq_eq_false_iff_ne.mpr h
    rw [if_neg h, valueAt, List.lookup_cons, hkey]
    rfl

/-- A missing key reads as the default. -/
theorem valueAt_of_notMem {d : List (κ × ν)} {k : κ} (h : k ∉ d.map Prod.fst) (dflt : ν) :
    valueAt d k dflt = dflt := by
  induction d with
  | nil => rfl
  | cons item d ih =>
    rw [List.map_cons, List.mem_cons, not_or] at h
    rw [valueAt_cons, if_neg h.1, ih h.2]

/-- The written entry reads as written, and the others stay. -/
theorem valueAt_upsert (d : List (κ × ν)) (k : κ) (dflt : ν) (f : ν → ν) (k' : κ) :
    valueAt (upsert d k dflt f) k' dflt =
      if k' = k then f (valueAt d k dflt) else valueAt d k' dflt := by
  induction d with
  | nil => rw [upsert, valueAt_cons, valueAt_nil, valueAt_nil]
  | cons item d ih =>
    obtain ⟨k₀, v⟩ := item
    rw [upsert]
    split
    · rename_i hk
      subst hk
      simp only [valueAt_cons]
      by_cases h : k' = k₀ <;> simp [h]
    · rename_i hk
      simp only [valueAt_cons, ih]
      by_cases h : k' = k₀
      · subst h
        simp [hk]
      · by_cases h' : k' = k <;> simp [h, h', Ne.symm hk]

/-- The keys after a write. -/
theorem mem_keys_upsert {d : List (κ × ν)} {k : κ} {dflt : ν} {f : ν → ν} {k' : κ} :
    k' ∈ (upsert d k dflt f).map Prod.fst ↔ k' = k ∨ k' ∈ d.map Prod.fst := by
  induction d with
  | nil => simp [upsert]
  | cons item d ih =>
    obtain ⟨k₀, v⟩ := item
    rw [upsert]
    split
    · rename_i hk
      subst hk
      simp
    · simp only [List.map_cons, List.mem_cons, ih]
      tauto

/-- A write keeps the keys distinct. -/
theorem nodup_keys_upsert {d : List (κ × ν)} (h : (d.map Prod.fst).Nodup) (k : κ) (dflt : ν)
    (f : ν → ν) : ((upsert d k dflt f).map Prod.fst).Nodup := by
  induction d with
  | nil => simp [upsert]
  | cons item d ih =>
    obtain ⟨k₀, v⟩ := item
    rw [List.map_cons, List.nodup_cons] at h
    rw [upsert]
    split
    · rw [List.map_cons, List.nodup_cons]
      exact h
    · rename_i hk
      rw [List.map_cons, List.nodup_cons, mem_keys_upsert]
      exact ⟨fun hmem => hmem.elim hk h.1, ih h.2⟩

/-- An item of a dictionary with distinct keys is what its key reads as. -/
theorem valueAt_of_mem {d : List (κ × ν)} (hnodup : (d.map Prod.fst).Nodup) {k : κ} {v : ν}
    (h : (k, v) ∈ d) (dflt : ν) : valueAt d k dflt = v := by
  induction d with
  | nil => exact absurd h List.not_mem_nil
  | cons item d ih =>
    rw [List.map_cons, List.nodup_cons] at hnodup
    rw [valueAt_cons]
    rcases List.mem_cons.mp h with rfl | h
    · rw [if_pos rfl]
    · have hne : k ≠ item.1 := fun hk => hnodup.1 (hk ▸ List.mem_map_of_mem h)
      rw [if_neg hne, ih hnodup.2 h]

/-- Reading a rewritten dictionary. -/
theorem valueAt_map {μ : Type} (d : List (κ × ν)) (f : ν → μ) (k : κ) (dflt : ν) :
    valueAt (d.map fun item => (item.1, f item.2)) k (f dflt) = f (valueAt d k dflt) := by
  induction d with
  | nil => rfl
  | cons item d ih =>
    rw [List.map_cons, valueAt_cons, valueAt_cons, ih]
    by_cases h : k = item.1 <;> simp [h]

/-- A group reads as the rows with its key. A key without a group has no rows. -/
theorem valueAt_groupBy (key : ρ → κ) (rows : List ρ) (k : κ) :
    valueAt (groupBy key rows) k [] = rows.filter fun r => key r = k := by
  by_cases hk : k ∈ (groupBy key rows).map Prod.fst
  · obtain ⟨⟨_, group⟩, hmem, rfl⟩ := List.mem_map.mp hk
    rw [valueAt_of_mem (nodup_keys_groupBy key rows) hmem, mem_groupBy hmem]
  · have hempty : (rows.filter fun r => key r = k) = [] := by
      rw [List.filter_eq_nil_iff]
      intro r hr hkey
      exact hk (mem_keys_groupBy.mpr ⟨r, hr, by simpa using hkey⟩)
    rw [valueAt_of_notMem hk, hempty]

/-- The aggregate of a group reads as the aggregate of the rows with its key. -/
theorem valueAt_aggregate {μ : Type} (key : ρ → κ) (rows : List ρ) (f : List ρ → μ) (k : κ) :
    valueAt ((groupBy key rows).map fun g => (g.1, f g.2)) k (f []) =
      f (rows.filter fun r => key r = k) := by
  rw [valueAt_map, valueAt_groupBy]

/-- A write under a missing key adds an item at the end. -/
theorem upsert_of_notMem {d : List (κ × ν)} {k : κ} (h : k ∉ d.map Prod.fst) (dflt : ν)
    (f : ν → ν) : upsert d k dflt f = d ++ [(k, f dflt)] := by
  induction d with
  | nil => rfl
  | cons item d ih =>
    rw [List.map_cons, List.mem_cons, not_or] at h
    rw [upsert, if_neg (Ne.symm h.1), ih h.2, List.cons_append]

/-- A loop that writes each row into a dictionary, under the key of the row if it has one. -/
def collect (key : ρ → Option κ) (dflt : ν) (step : ρ → ν → ν) (d : List (κ × ν))
    (rows : List ρ) : List (κ × ν) :=
  rows.foldl (fun d r => match key r with
    | some k => upsert d k dflt (step r)
    | none => d) d

section
variable (key : ρ → Option κ) (dflt : ν) (step : ρ → ν → ν)

theorem collect_cons (d : List (κ × ν)) (r : ρ) (rows : List ρ) :
    collect key dflt step d (r :: rows) =
      collect key dflt step (match key r with
        | some k => upsert d k dflt (step r)
        | none => d) rows := rfl

/-- After the loop an entry is what the rows with its key made of it. -/
theorem valueAt_collect (d : List (κ × ν)) (rows : List ρ) (k : κ) :
    valueAt (collect key dflt step d rows) k dflt =
      (rows.filter fun r => key r = some k).foldl (fun v r => step r v) (valueAt d k dflt) := by
  induction rows generalizing d with
  | nil => rfl
  | cons r rows ih =>
    rw [collect_cons, ih]
    cases hkey : key r with
    | none => simp [hkey]
    | some k' =>
      simp only [valueAt_upsert]
      by_cases hk : k' = k
      · subst hk
        simp [hkey]
      · have hk' : k ≠ k' := fun h => hk h.symm
        simp [hkey, hk, hk']

/-- The loop keeps the keys distinct. -/
theorem nodup_keys_collect {d : List (κ × ν)} (h : (d.map Prod.fst).Nodup) (rows : List ρ) :
    ((collect key dflt step d rows).map Prod.fst).Nodup := by
  induction rows generalizing d with
  | nil => exact h
  | cons r rows ih =>
    rw [collect_cons]
    apply ih
    cases key r with
    | none => exact h
    | some k => exact nodup_keys_upsert h k dflt (step r)

/-- The keys after the loop: the old ones and those of the rows. -/
theorem mem_keys_collect {d : List (κ × ν)} {rows : List ρ} {k : κ} :
    k ∈ (collect key dflt step d rows).map Prod.fst ↔
      k ∈ d.map Prod.fst ∨ ∃ r ∈ rows, key r = some k := by
  induction rows generalizing d with
  | nil => simp [collect]
  | cons r rows ih =>
    rw [collect_cons, ih]
    cases hkey : key r with
    | none => simp [hkey]
    | some k' =>
      simp only [mem_keys_upsert, List.mem_cons, exists_eq_or_imp, hkey, Option.some.injEq]
      constructor
      · rintro ((rfl | hk) | hrows)
        · exact Or.inr (Or.inl rfl)
        · exact Or.inl hk
        · exact Or.inr (Or.inr hrows)
      · rintro (hk | rfl | hrows)
        · exact Or.inl (Or.inr hk)
        · exact Or.inl (Or.inl rfl)
        · exact Or.inr hrows

/-- A loop over rows with distinct new keys adds the rows as items. -/
theorem collect_assign (at_ : ρ → κ) (value : ρ → ν) {rows : List ρ}
    (hnodup : (rows.map at_).Nodup) {d : List (κ × ν)}
    (hnew : ∀ r ∈ rows, at_ r ∉ d.map Prod.fst) :
    collect (fun r => some (at_ r)) dflt (fun r _ => value r) d rows =
      d ++ rows.map fun r => (at_ r, value r) := by
  induction rows generalizing d with
  | nil => simp [collect]
  | cons r rows ih =>
    rw [List.map_cons, List.nodup_cons] at hnodup
    have hr : at_ r ∉ d.map Prod.fst := hnew r List.mem_cons_self
    have hrest : ∀ r' ∈ rows, at_ r' ∉ (d ++ [(at_ r, value r)]).map Prod.fst := by
      intro r' hr'
      rw [List.map_append, List.mem_append, not_or]
      have hne : at_ r' ≠ at_ r := fun h => hnodup.1 (h ▸ List.mem_map_of_mem hr')
      exact ⟨hnew r' (List.mem_cons_of_mem _ hr'), by simpa using hne⟩
    rw [collect_cons]
    show collect _ dflt _ (upsert d (at_ r) dflt fun _ => value r) rows = _
    rw [upsert_of_notMem hr, ih hnodup.2 hrest, List.append_assoc]
    rfl

end

end

section
variable {κ ν M : Type} [DecidableEq κ] [AddCommMonoid M]

/-- Reading a dictionary at distinct keys that contain its own gives all its items. The other keys
read as the default, which counts nothing. -/
theorem sum_valueAt {d : List (κ × ν)} (hnodup : (d.map Prod.fst).Nodup) {ks : List κ}
    (hks : ks.Nodup) (hsub : ∀ k ∈ d.map Prod.fst, k ∈ ks) (w : ν → M) {dflt : ν}
    (hdflt : w dflt = 0) :
    (ks.map fun k => w (valueAt d k dflt)).sum = (d.map fun item => w item.2).sum := by
  have hfiber : ∀ k, w (valueAt d k dflt) =
      ((d.filter fun item => item.1 = k).map fun item => w item.2).sum := by
    intro k
    induction d with
    | nil => simp [hdflt]
    | cons item d ih =>
      rw [List.map_cons, List.nodup_cons] at hnodup
      rw [valueAt_cons]
      by_cases hk : k = item.1
      · have hrest : (d.filter fun item => item.1 = k) = [] := by
          rw [List.filter_eq_nil_iff]
          intro other hother hkey
          have hsame : other.1 = item.1 := by simpa [hk] using hkey
          exact hnodup.1 (hsame ▸ List.mem_map_of_mem hother)
        rw [if_pos hk, List.filter_cons_of_pos (by simp [hk]), hrest]
        simp
      · have hk' : ¬ item.1 = k := fun h => hk h.symm
        rw [if_neg hk, List.filter_cons_of_neg (by simpa using hk'),
          ih hnodup.2 fun k hk => hsub k (List.mem_cons_of_mem _ hk)]
  simp only [hfiber]
  exact sum_fibers Prod.fst (fun item => w item.2) hks fun item hitem =>
    hsub _ (List.mem_map_of_mem hitem)

/-- The aggregates of all groups add up to the aggregates read at any distinct keys that cover the
rows. -/
theorem sum_aggregate {ρ : Type} (key : ρ → κ) (f : List ρ → ν) (w : ν → M) (hw : w (f []) = 0)
    {ks : List κ} (hks : ks.Nodup) {rows : List ρ} (hcover : ∀ r ∈ rows, key r ∈ ks) :
    (((groupBy key rows).map fun g => (g.1, f g.2)).map fun item => w item.2).sum =
      (ks.map fun k =>
        w (valueAt ((groupBy key rows).map fun g => (g.1, f g.2)) k (f []))).sum := by
  have hkeys : ((groupBy key rows).map fun g => (g.1, f g.2)).map Prod.fst =
      (groupBy key rows).map Prod.fst := by
    rw [List.map_map]
    rfl
  have hnodup : (((groupBy key rows).map fun g => (g.1, f g.2)).map Prod.fst).Nodup := by
    rw [hkeys]
    exact nodup_keys_groupBy key rows
  refine (sum_valueAt hnodup hks ?_ w hw).symm
  intro k hk
  rw [hkeys] at hk
  obtain ⟨r, hr, rfl⟩ := mem_keys_groupBy.mp hk
  exact hcover r hr

/-- A write adds to the sum over the items what it adds to the entry. -/
theorem sum_upsert (w : ν → M) {dflt : ν} (hdflt : w dflt = 0) {f : ν → ν} {m : M}
    (hf : ∀ v, w (f v) = w v + m) (d : List (κ × ν)) (k : κ) :
    ((upsert d k dflt f).map fun item => w item.2).sum =
    (d.map fun item => w item.2).sum + m := by
  induction d with
  | nil => simp [upsert, hf, hdflt]
  | cons item d ih =>
    rw [upsert]
    split
    · simp only [List.map_cons, List.sum_cons, hf]
      rw [add_right_comm]
    · simp only [List.map_cons, List.sum_cons, ih]
      rw [add_assoc]

/-- The loop adds to the sum over the items what each row with a key adds to its entry. -/
theorem sum_collect {ρ : Type} (key : ρ → κ) (w : ν → M) {dflt : ν} (hdflt : w dflt = 0)
    (step : ρ → ν → ν) (m : ρ → M) (hstep : ∀ r v, w (step r v) = w v + m r)
    (d : List (κ × ν)) (rows : List ρ) :
    ((collect (fun r => some (key r)) dflt step d rows).map fun item => w item.2).sum =
      (d.map fun item => w item.2).sum + (rows.map m).sum := by
  induction rows generalizing d with
  | nil => simp [collect]
  | cons r rows ih =>
    rw [collect_cons, ih, sum_upsert w hdflt (hstep r), List.map_cons, List.sum_cons, add_assoc]

/-- A loop that adds each row's weight under its key, if it has one, leaves the weight of the rows
with the key. -/
theorem valueAt_collect_add {ρ : Type} (key : ρ → Option κ) (w : ρ → M) (rows : List ρ) (k : κ) :
    valueAt (collect key 0 (fun r total => total + w r) [] rows) k 0 =
      ((rows.filter fun r => key r = some k).map w).sum := by
  have hfold : ∀ (l : List ρ) (m : M), l.foldl (fun total r => total + w r) m =
      m + (l.map w).sum := by
    intro l
    induction l with
    | nil => simp
    | cons r l ih =>
      intro m
      rw [List.foldl_cons, ih, List.map_cons, List.sum_cons, add_assoc]
  rw [valueAt_collect, hfold, valueAt_nil, zero_add]

/-- A loop that appends each row to the list of its key leaves the rows with the key, in order. -/
theorem valueAt_collect_append {ρ : Type} (key : ρ → κ) (rows : List ρ) (k : κ) :
    valueAt (collect (fun r => some (key r)) [] (fun r group => group ++ [r]) [] rows) k [] =
      rows.filter fun r => key r = k := by
  have hfold : ∀ (l group : List ρ), l.foldl (fun group r => group ++ [r]) group =
      group ++ l := by
    intro l
    induction l with
    | nil => simp
    | cons r l ih =>
      intro group
      rw [List.foldl_cons, ih, List.append_assoc]
      rfl
  rw [valueAt_collect, hfold, valueAt_nil, List.nil_append]
  simp only [Option.some.injEq]

end

end RedTeaming.Library
