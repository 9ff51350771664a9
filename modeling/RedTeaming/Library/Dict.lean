import RedTeaming.Library.Lookup
import Mathlib.Algebra.Ring.Nat
import Mathlib.Data.List.Nodup

/-!
# `RedTeaming.Library.Dict`: maps that keep the order of insertion

`Dict` is the `dict` of Python: its entries in the order in which the keys came, and no key twice.
An `insert` writes a key in place, or at the end when it is new. `update` inserts entry by entry.
A finite map that forgets the order is `AList` of Mathlib.

`get?_update` says which entry a lookup finds after an update, and `entries_update_of_nodup` what
a loop of inserts leaves when the keys that it writes are distinct and new. `erase` takes a key
away.

Nothing here names a program.
-/

set_option autoImplicit false

namespace RedTeaming.Library

/-- A map, with its entries in order. -/
structure Dict (α β : Type) where
  entries : List (α × β)
  nodup : (entries.map Prod.fst).Nodup
deriving DecidableEq

namespace Dict

variable {α β γ : Type}

/-- The empty map. -/
def empty : Dict α β := ⟨[], List.nodup_nil⟩

/-- The keys, in order. -/
def keys (d : Dict α β) : List α := d.entries.map Prod.fst

/-- Keep the entries of a test. -/
def filter (p : α × β → Bool) (d : Dict α β) : Dict α β :=
  ⟨d.entries.filter p, d.nodup.sublist (List.filter_sublist.map Prod.fst)⟩

/-- Map the values. -/
def mapValues (f : β → γ) (d : Dict α β) : Dict α γ where
  entries := d.entries.map fun entry => (entry.1, f entry.2)
  nodup := by
    rw [List.map_map]
    exact d.nodup

@[simp] theorem entries_empty : (empty : Dict α β).entries = [] := rfl
@[simp] theorem keys_empty : (empty : Dict α β).keys = [] := rfl

@[simp] theorem entries_filter (p : α × β → Bool) (d : Dict α β) :
    (d.filter p).entries = d.entries.filter p := rfl

@[simp] theorem keys_mapValues (f : β → γ) (d : Dict α β) : (d.mapValues f).keys = d.keys := by
  show (d.entries.map fun entry => (entry.1, f entry.2)).map Prod.fst = d.entries.map Prod.fst
  rw [List.map_map]
  rfl

/-- Two maps with the same entries in the same order are equal. -/
@[ext] theorem ext {d e : Dict α β} (h : d.entries = e.entries) : d = e := by
  cases d
  cases e
  cases h
  rfl

variable [DecidableEq α]

/-- The value of a key. -/
def get? (d : Dict α β) (k : α) : Option β := d.entries.lookup k

/-- A lookup finds the value of the entry of the key. -/
theorem get?_eq_some {d : Dict α β} {k : α} {v : β} : d.get? k = some v ↔ (k, v) ∈ d.entries := by
  have hlist (l : List (α × β)) (hl : (l.map Prod.fst).Nodup) :
      l.lookup k = some v ↔ (k, v) ∈ l := by
    induction l with
    | nil => simp
    | cons entry l ih =>
      rw [List.map_cons, List.nodup_cons] at hl
      by_cases hk : k = entry.1
      · rw [List.lookup_cons, beq_iff_eq.mpr hk, List.mem_cons]
        constructor
        · intro h
          cases h
          exact .inl (Prod.ext hk rfl)
        · rintro (h | h)
          · rw [← h]
          · exact absurd (List.mem_map_of_mem (f := Prod.fst) h) (hk ▸ hl.1)
      · rw [List.lookup_cons, beq_eq_false_iff_ne.mpr hk, List.mem_cons]
        have hne : (k, v) ≠ entry := fun h => hk (congrArg Prod.fst h)
        simpa [hne] using ih hl.2
  exact hlist d.entries d.nodup

/-- A lookup finds nothing exactly at the other keys. -/
theorem get?_eq_none {d : Dict α β} {k : α} : d.get? k = none ↔ k ∉ d.keys := lookup_eq_none_iff

/-- Write an entry: in place when the key is there, at the end otherwise. -/
def insertEntry (k : α) (v : β) : List (α × β) → List (α × β)
  | [] => [(k, v)]
  | entry :: rest => if entry.1 = k then (k, v) :: rest else entry :: insertEntry k v rest

/-- A write in place keeps the keys, and one at the end adds its key. -/
theorem keys_insertEntry (k : α) (v : β) (l : List (α × β)) :
    (insertEntry k v l).map Prod.fst =
      if k ∈ l.map Prod.fst then l.map Prod.fst else l.map Prod.fst ++ [k] := by
  induction l with
  | nil => rfl
  | cons entry rest ih =>
    rw [insertEntry]
    by_cases hk : entry.1 = k
    · rw [if_pos hk, if_pos (by rw [List.map_cons, hk]; exact List.mem_cons_self)]
      simp [hk]
    · rw [if_neg hk, List.map_cons, ih]
      have hmem : k ∈ (entry :: rest).map Prod.fst ↔ k ∈ rest.map Prod.fst := by
        rw [List.map_cons, List.mem_cons]
        exact ⟨fun h => h.resolve_left fun heq => hk heq.symm, .inr⟩
      simp only [hmem]
      split <;> rfl

/-- `d[k] = v`. -/
def insert (d : Dict α β) (k : α) (v : β) : Dict α β where
  entries := insertEntry k v d.entries
  nodup := by
    rw [keys_insertEntry]
    split
    · exact d.nodup
    · rename_i hk
      rw [List.nodup_append]
      refine ⟨d.nodup, List.nodup_singleton k, ?_⟩
      intro a ha b hb heq
      rw [List.mem_singleton] at hb
      exact hk (hb ▸ heq ▸ ha)

/-- `d.update(items)`, and `{**d, **items}`. -/
def update (d : Dict α β) (items : List (α × β)) : Dict α β :=
  items.foldl (fun d item => d.insert item.1 item.2) d

@[simp] theorem update_nil (d : Dict α β) : d.update [] = d := rfl

@[simp] theorem update_cons (d : Dict α β) (item : α × β) (items : List (α × β)) :
    d.update (item :: items) = (d.insert item.1 item.2).update items := rfl

/-- An insert adds its key. -/
@[simp] theorem mem_keys_insert {d : Dict α β} {k k' : α} {v : β} :
    k' ∈ (d.insert k v).keys ↔ k' = k ∨ k' ∈ d.keys := by
  show k' ∈ (insertEntry k v d.entries).map Prod.fst ↔ k' = k ∨ k' ∈ d.entries.map Prod.fst
  rw [keys_insertEntry]
  split
  · rename_i hk
    exact ⟨.inr, fun h => h.elim (fun heq => heq ▸ hk) id⟩
  · rw [List.mem_append, List.mem_singleton]
    exact Or.comm

/-- A lookup after an insert. -/
theorem get?_insert (d : Dict α β) (k : α) (v : β) (k' : α) :
    (d.insert k v).get? k' = if k' = k then some v else d.get? k' := by
  show (insertEntry k v d.entries).lookup k' = if k' = k then some v else d.entries.lookup k'
  induction d.entries with
  | nil =>
    rw [insertEntry, List.lookup_cons, List.lookup_nil]
    split <;> simp_all
  | cons entry rest ih =>
    rw [insertEntry]
    by_cases hk : entry.1 = k
    · rw [if_pos hk, List.lookup_cons, List.lookup_cons, hk]
      split <;> simp_all
    · rw [if_neg hk, List.lookup_cons, List.lookup_cons, ih]
      by_cases hk' : k' = entry.1
      · have hne : k' ≠ k := fun heq => hk (hk' ▸ heq)
        rw [beq_iff_eq.mpr hk']
        exact (if_neg hne).symm
      · rw [beq_eq_false_iff_ne.mpr hk']

/-- A write of a new key is appended. -/
theorem entries_insert_of_not_mem {d : Dict α β} {k : α} (h : k ∉ d.keys) (v : β) :
    (d.insert k v).entries = d.entries ++ [(k, v)] := by
  have hlist (l : List (α × β)) (hl : k ∉ l.map Prod.fst) :
      insertEntry k v l = l ++ [(k, v)] := by
    induction l with
    | nil => rfl
    | cons entry rest ih =>
      rw [List.map_cons, List.mem_cons, not_or] at hl
      rw [insertEntry, if_neg fun heq => hl.1 heq.symm, ih hl.2]
      rfl
  exact hlist d.entries h

/-- An update adds the keys of its items. -/
@[simp] theorem mem_keys_update {d : Dict α β} {items : List (α × β)} {k : α} :
    k ∈ (d.update items).keys ↔ k ∈ items.map Prod.fst ∨ k ∈ d.keys := by
  induction items generalizing d with
  | nil => simp
  | cons item items ih =>
    rw [update_cons, ih, mem_keys_insert, List.map_cons, List.mem_cons]
    exact ⟨fun h =>
      h.elim (fun h => .inl (.inr h)) (fun h => h.elim (fun h => .inl (.inl h)) .inr),
      fun h => h.elim (fun h => h.elim (fun h => .inr (.inl h)) .inl) fun h => .inr (.inr h)⟩

/-- An entry after an update of the empty map is one of the items. -/
theorem mem_entries_update {items : List (α × β)} {entry : α × β}
    (h : entry ∈ ((empty : Dict α β).update items).entries) : entry ∈ items := by
  have hinsert (k : α) (v : β) (l : List (α × β)) :
      entry ∈ insertEntry k v l → entry = (k, v) ∨ entry ∈ l := by
    induction l with
    | nil => exact fun h => .inl (List.mem_singleton.mp h)
    | cons old rest ih =>
      rw [insertEntry]
      split
      · exact fun h => (List.mem_cons.mp h).imp_right (List.mem_cons_of_mem _)
      · intro h
        rcases List.mem_cons.mp h with h | h
        · exact .inr (h ▸ List.mem_cons_self)
        · exact (ih h).imp_right (List.mem_cons_of_mem _)
  have hall (l : List (α × β)) (d : Dict α β) (hl : entry ∈ (d.update l).entries) :
      entry ∈ l ∨ entry ∈ d.entries := by
    induction l generalizing d with
    | nil => exact .inr hl
    | cons item l ih =>
      rcases ih (d.insert item.1 item.2) hl with h | h
      · exact .inl (List.mem_cons_of_mem _ h)
      · rcases hinsert item.1 item.2 d.entries h with heq | h
        · rw [heq]
          exact .inl List.mem_cons_self
        · exact .inr h
  exact (hall items .empty h).resolve_right List.not_mem_nil

/-- A lookup after an update with a map finds the entry of that map, or else the old one. -/
theorem get?_update (d e : Dict α β) (k : α) :
    (d.update e.entries).get? k = (e.get? k).or (d.get? k) := by
  have hlist (l : List (α × β)) (hl : (l.map Prod.fst).Nodup) (d : Dict α β) :
      (d.update l).get? k = (l.lookup k).or (d.get? k) := by
    induction l generalizing d with
    | nil => rfl
    | cons item l ih =>
      rw [List.map_cons, List.nodup_cons] at hl
      rw [update_cons, ih hl.2, get?_insert, List.lookup_cons]
      by_cases hk : k = item.1
      · rw [if_pos hk, beq_iff_eq.mpr hk, lookup_eq_none_iff.mpr (hk ▸ hl.1)]
        rfl
      · rw [if_neg hk, beq_eq_false_iff_ne.mpr hk]
  exact hlist e.entries e.nodup d

/-- A loop of inserts with distinct new keys appends its entries. -/
theorem entries_update_of_nodup {d : Dict α β} {items : List (α × β)}
    (hitems : (items.map Prod.fst).Nodup) (hnew : ∀ item ∈ items, item.1 ∉ d.keys) :
    (d.update items).entries = d.entries ++ items := by
  induction items generalizing d with
  | nil => simp
  | cons item items ih =>
    rw [List.map_cons, List.nodup_cons] at hitems
    have hinserted : ∀ item' ∈ items, item'.1 ∉ (d.insert item.1 item.2).keys := by
      intro item' hmem hkey
      rcases mem_keys_insert.mp hkey with heq | hold
      · exact hitems.1 (heq ▸ List.mem_map_of_mem hmem)
      · exact hnew item' (List.mem_cons_of_mem _ hmem) hold
    rw [update_cons, ih hitems.2 hinserted,
      entries_insert_of_not_mem (hnew item List.mem_cons_self), List.append_assoc]
    rfl

/-! ### Taking an entry away -/

/-- `d.pop(k, None)`: the map without the key. -/
def erase (d : Dict α β) (k : α) : Dict α β := d.filter fun entry => entry.1 != k

/-- The entries of the other keys stay. -/
@[simp] theorem mem_entries_erase {d : Dict α β} {k : α} {entry : α × β} :
    entry ∈ (d.erase k).entries ↔ entry ∈ d.entries ∧ entry.1 ≠ k := by
  simp [erase]

/-- Without the oldest key, the other entries are left. -/
theorem entries_erase_of_cons {d : Dict α β} {entry : α × β} {rest : List (α × β)}
    (h : d.entries = entry :: rest) : (d.erase entry.1).entries = rest := by
  have hnodup := d.nodup
  rw [h, List.map_cons, List.nodup_cons] at hnodup
  have hne : ∀ other ∈ rest, (other.1 != entry.1) = true := by
    intro other hother
    rw [bne_iff_ne]
    intro hsame
    exact hnodup.1 (List.mem_map.mpr ⟨other, hother, hsame⟩)
  show d.entries.filter _ = rest
  rw [h, List.filter_cons, bne_self_eq_false, if_neg Bool.false_ne_true,
    List.filter_eq_self.mpr hne]

/-- A sum over the entries loses the share of the key. -/
theorem sum_erase (w : α × β → Nat) (d : Dict α β) (k : α) : (d.entries.map w).sum =
    ((d.get? k).elim 0 fun v => w (k, v)) + ((d.erase k).entries.map w).sum := by
  have hlist (l : List (α × β)) (hl : (l.map Prod.fst).Nodup) : (l.map w).sum =
      ((l.lookup k).elim 0 fun v => w (k, v)) +
        ((l.filter fun entry => entry.1 != k).map w).sum := by
    induction l with
    | nil => rfl
    | cons entry rest ih =>
      rw [List.map_cons, List.nodup_cons] at hl
      rw [List.map_cons, List.sum_cons, ih hl.2, List.lookup_cons, List.filter_cons]
      by_cases hk : k = entry.1
      · have hnone : rest.lookup k = none := lookup_eq_none_iff.mpr (hk ▸ hl.1)
        subst hk
        rw [hnone, beq_self_eq_true, bne_self_eq_false, if_neg Bool.false_ne_true]
        simp
      · have hne : (entry.1 != k) = true := bne_iff_ne.mpr fun h => hk h.symm
        rw [beq_eq_false_iff_ne.mpr hk, if_pos hne, List.map_cons, List.sum_cons]
        exact Nat.add_left_comm _ _ _
  exact hlist d.entries d.nodup

end Dict

end RedTeaming.Library
