import Mathlib.Data.List.Basic

/-!
# `RedTeaming.Library.Json`: JSON values and the fields of an object

An object is the list of its fields in order, as a Python `dict` or a JSONB object read in key
order. `setField` writes one field in place or at the end, and `mergeFields` writes all fields of
a second object over a first one: `{**a, **b}`, and `a || b` of JSONB. `keepFields` drops the
fields of other keys, which commutes with a merge.

Nothing here names a program.
-/

set_option autoImplicit false

namespace RedTeaming.Library

/-- A JSON value. -/
inductive Json
  | null
  | bool (b : Bool)
  | num (n : Rat)
  | str (s : String)
  | arr (items : List Json)
  | obj (fields : List (String × Json))

/-- The fields of an object. -/
abbrev JsonObject := List (String × Json)

/-- Write a field: in place when the key is there, at the end otherwise. -/
def setField (k : String) (v : Json) : JsonObject → JsonObject
  | [] => [(k, v)]
  | (k', v') :: fields => if k' = k then (k, v) :: fields else (k', v') :: setField k v fields

/-- Write the fields of the second object over the first. -/
def mergeFields (a b : JsonObject) : JsonObject := b.foldl (fun acc f => setField f.1 f.2 acc) a

/-- A written field is read back. -/
@[simp] theorem lookup_setField_self (k : String) (v : Json) (fields : JsonObject) :
    (setField k v fields).lookup k = some v := by
  induction fields with
  | nil => simp [setField]
  | cons f fields ih =>
    rw [setField]
    split
    · exact List.lookup_cons_self
    · rename_i hne
      have hkey : (k == f.1) = false := by
        rw [beq_eq_false_iff_ne]
        exact fun h => hne h.symm
      rw [List.lookup_cons, hkey]
      exact ih

/-- The other fields stay. -/
theorem lookup_setField_of_ne {k k' : String} (h : k' ≠ k) (v : Json) (fields : JsonObject) :
    (setField k v fields).lookup k' = fields.lookup k' := by
  induction fields with
  | nil =>
    have hkey : (k' == k) = false := beq_eq_false_iff_ne.mpr h
    rw [setField, List.lookup_cons, hkey]
  | cons f fields ih =>
    rw [setField]
    split
    · rename_i heq
      have hkey : (k' == k) = false := beq_eq_false_iff_ne.mpr h
      rw [List.lookup_cons, List.lookup_cons, heq, hkey]
    · rw [List.lookup_cons, List.lookup_cons, ih]

/-- A field reads as it was written, and the others as before. -/
theorem lookup_setField (k : String) (v : Json) (fields : JsonObject) (k' : String) :
    (setField k v fields).lookup k' = if k' = k then some v else fields.lookup k' := by
  split
  · rename_i h
    rw [h, lookup_setField_self]
  · rename_i h
    exact lookup_setField_of_ne h v fields

/-- The keys after a write. -/
theorem mem_keys_setField {k : String} {v : Json} {fields : JsonObject} {k' : String} :
    k' ∈ (setField k v fields).map Prod.fst ↔ k' = k ∨ k' ∈ fields.map Prod.fst := by
  induction fields with
  | nil => simp [setField]
  | cons f fields ih =>
    rw [setField]
    split
    · rename_i hk
      simp [hk]
    · simp only [List.map_cons, List.mem_cons, ih]
      tauto

/-- A write keeps the keys distinct. -/
theorem nodup_keys_setField {fields : JsonObject} (h : (fields.map Prod.fst).Nodup) (k : String)
    (v : Json) : ((setField k v fields).map Prod.fst).Nodup := by
  induction fields with
  | nil => simp [setField]
  | cons f fields ih =>
    rw [List.map_cons, List.nodup_cons] at h
    rw [setField]
    split
    · rename_i hk
      rw [List.map_cons, List.nodup_cons, ← hk]
      exact h
    · rename_i hk
      rw [List.map_cons, List.nodup_cons, mem_keys_setField]
      exact ⟨fun hmem => hmem.elim hk h.1, ih h.2⟩

/-- A merge keeps the keys distinct. -/
theorem nodup_keys_mergeFields {a : JsonObject} (h : (a.map Prod.fst).Nodup) (b : JsonObject) :
    ((mergeFields a b).map Prod.fst).Nodup := by
  induction b generalizing a with
  | nil => exact h
  | cons f b ih => exact ih (nodup_keys_setField h f.1 f.2)

/-- A merge has the fields of both objects. -/
theorem isSome_lookup_mergeFields (a b : JsonObject) (k : String) :
    ((mergeFields a b).lookup k).isSome = ((a.lookup k).isSome || (b.lookup k).isSome) := by
  induction b generalizing a with
  | nil => simp [mergeFields]
  | cons f b ih =>
    show ((mergeFields (setField f.1 f.2 a) b).lookup k).isSome = _
    rw [ih, lookup_setField, List.lookup_cons]
    by_cases hk : k = f.1
    · simp [hk]
    · have hkey : (k == f.1) = false := beq_eq_false_iff_ne.mpr hk
      simp [hk, hkey]

/-- The fields of the second object come first in a merge. Its keys are distinct, as in a
`dict`. -/
theorem lookup_mergeFields {b : JsonObject} (hb : (b.map Prod.fst).Nodup) (a : JsonObject)
    (k : String) : (mergeFields a b).lookup k = (b.lookup k).or (a.lookup k) := by
  induction b generalizing a with
  | nil => rfl
  | cons f b ih =>
    rw [List.map_cons, List.nodup_cons] at hb
    show (mergeFields (setField f.1 f.2 a) b).lookup k = _
    rw [ih hb.2, lookup_setField, List.lookup_cons]
    by_cases hk : k = f.1
    · have hnone : b.lookup k = none := by
        rw [List.lookup_eq_none_iff]
        intro other hother
        rw [bne_iff_ne]
        intro hsame
        exact hb.1 (hk ▸ hsame ▸ List.mem_map_of_mem hother)
      simp [hk, hk ▸ hnone]
    · have hkey : (k == f.1) = false := beq_eq_false_iff_ne.mpr hk
      simp [hk, hkey]

/-! ### Some of the fields -/

/-- The fields with a key that `p` admits. -/
def keepFields (p : String → Bool) (fields : JsonObject) : JsonObject :=
  fields.filter fun f => p f.1

section
variable {p : String → Bool} {k : String} {v : Json} {fields : JsonObject}

/-- A kept field reads as before, and a dropped one is not there. -/
theorem lookup_keepFields (p : String → Bool) (fields : JsonObject) (k : String) :
    (keepFields p fields).lookup k = if p k then fields.lookup k else none := by
  induction fields with
  | nil => simp [keepFields]
  | cons f fields ih =>
    by_cases hf : p f.1 = true
    · rw [keepFields, List.filter_cons, if_pos hf, List.lookup_cons, List.lookup_cons]
      by_cases hk : k = f.1
      · simp [hk, hf]
      · have hkey : (k == f.1) = false := beq_eq_false_iff_ne.mpr hk
        simp only [hkey]
        exact ih
    · rw [keepFields, List.filter_cons, if_neg hf, List.lookup_cons]
      by_cases hk : k = f.1
      · rw [← keepFields, ih, hk, if_neg hf, if_neg hf]
      · have hkey : (k == f.1) = false := beq_eq_false_iff_ne.mpr hk
        simp only [hkey]
        exact ih

/-- A written field that is kept is written into the kept ones. -/
theorem keepFields_setField_of_pos (h : p k = true) :
    keepFields p (setField k v fields) = setField k v (keepFields p fields) := by
  induction fields with
  | nil => simp [keepFields, setField, h]
  | cons f fields ih =>
    by_cases hsame : f.1 = k
    · simp [keepFields, setField, hsame, h]
    · by_cases hf : p f.1 = true
      · simpa [keepFields, setField, hsame, hf] using ih
      · simpa [keepFields, setField, hsame, hf] using ih

/-- A written field that is dropped leaves the kept ones. -/
theorem keepFields_setField_of_neg (h : p k = false) :
    keepFields p (setField k v fields) = keepFields p fields := by
  induction fields with
  | nil => simp [keepFields, setField, h]
  | cons f fields ih =>
    by_cases hsame : f.1 = k
    · simp [keepFields, setField, hsame, h]
    · by_cases hf : p f.1 = true
      · simpa [keepFields, setField, hsame, hf] using ih
      · simpa [keepFields, setField, hsame, hf] using ih

/-- What a merge keeps is the merge of what is kept. -/
theorem keepFields_mergeFields (p : String → Bool) (a b : JsonObject) :
    keepFields p (mergeFields a b) = mergeFields (keepFields p a) (keepFields p b) := by
  induction b generalizing a with
  | nil => rfl
  | cons f b ih =>
    show keepFields p (mergeFields (setField f.1 f.2 a) b) = _
    rw [ih]
    cases hf : p f.1 with
    | true =>
      rw [keepFields_setField_of_pos hf]
      simp [keepFields, mergeFields, hf]
    | false =>
      rw [keepFields_setField_of_neg hf]
      simp [keepFields, hf]

/-- Keeping twice is keeping once. -/
@[simp] theorem keepFields_keepFields (p : String → Bool) (fields : JsonObject) :
    keepFields p (keepFields p fields) = keepFields p fields := by
  simp [keepFields, List.filter_filter]

end

end RedTeaming.Library
