import Mathlib.Data.List.Basic

/-!
# `RedTeaming.Exports.Paging`: draining a paginated list

`iter_pages` and `drain_pages` of `core/exports/base.py`. A list service gives one page of its
rows, and how many rows there are in all. The loop asks for page after page until one of them is
short, and stops early when the reported total is reached.

The service is a parameter, and so is the page size, which is `_PAGE` in the source. `Serves` says
that it cuts its pages out of one list, and that the total is no less than what is there. A loop
has fuel, since it need not end for another service. `export_paging_lossless` says that it ends,
and that the pages together are the list.
-/

set_option autoImplicit false

namespace RedTeaming.Exports

section
variable {α : Type}

/-- `iter_pages` from `offset` on: the batches that it yields, or `none` when it is not done
yet. -/
def iterPages (size : Nat) (page : Nat → Nat → List α × Nat) : Nat → Nat → Option (List (List α))
  | 0, _ => none
  | fuel + 1, offset =>
    let (batch, total) := page size offset
    let yielded := if batch.isEmpty then [] else [batch]
    let offset := offset + batch.length
    if batch.isEmpty || decide (batch.length < size) || decide (offset ≥ total) then some yielded
    else (iterPages size page fuel offset).map (yielded ++ ·)

/-- `drain_pages`: the rows of all batches. -/
def drainPages (size : Nat) (page : Nat → Nat → List α × Nat) (fuel : Nat) : Option (List α) :=
  (iterPages size page fuel 0).map fun batches => batches.foldl (· ++ ·) []

/-- The service cuts its pages out of `items`, and reports no fewer rows than there are. -/
def Serves (page : Nat → Nat → List α × Nat) (items : List α) : Prop :=
  ∀ limit offset, (page limit offset).1 = (items.drop offset).take limit ∧
    items.length ≤ (page limit offset).2

variable {size fuel offset : Nat} {page : Nat → Nat → List α × Nat} {items : List α}
  {batches : List (List α)}

/-- An empty page yields nothing. -/
theorem nil_notMem_yielded (batch : List α) : [] ∉ if batch.isEmpty then [] else [batch] := by
  cases batch <;> simp

/-- What a page yields are its rows. -/
theorem flatten_yielded (batch : List α) :
    (if batch.isEmpty then [] else [batch]).flatten = batch := by
  cases batch <;> simp

/-- More fuel changes nothing about a loop that is done. -/
theorem iterPages_mono (h : iterPages size page fuel offset = some batches) :
    iterPages size page (fuel + 1) offset = some batches := by
  induction fuel generalizing offset batches with
  | zero => cases h
  | succ fuel ih =>
    rw [iterPages] at h ⊢
    dsimp only at h ⊢
    split
    · rename_i hstop
      rw [if_pos hstop] at h
      exact h
    · rename_i hgo
      rw [if_neg hgo, Option.map_eq_some_iff] at h
      obtain ⟨rest, hrest, hbatches⟩ := h
      rw [ih hrest, Option.map_some, hbatches]

/-- A loop that is done with some fuel is done with more. -/
theorem iterPages_of_le {fuel' : Nat} (hle : fuel ≤ fuel')
    (h : iterPages size page fuel offset = some batches) :
    iterPages size page fuel' offset = some batches := by
  obtain ⟨more, rfl⟩ := Nat.exists_eq_add_of_le hle
  induction more with
  | zero => exact h
  | succ more ih => exact iterPages_mono (ih (Nat.le_add_right fuel more))

/-- From an offset on, the batches are the rest of the list. A page that is not the last one is
full, so each turn of the loop leaves fewer rows. -/
theorem iterPages_spec (offset : Nat) (hsize : 0 < size) (h : Serves page items)
    (hfuel : items.length - offset < fuel) :
    ∃ batches, iterPages size page fuel offset = some batches ∧ [] ∉ batches ∧
      batches.flatten = items.drop offset := by
  induction fuel generalizing offset with
  | zero => omega
  | succ fuel ih =>
    -- The induction is on the fuel, and each turn moves the offset by a full page.
    obtain ⟨hslice, htotal⟩ := h size offset
    have hlength : (page size offset).1.length = min size (items.length - offset) := by
      rw [hslice, List.length_take, List.length_drop]
    rw [iterPages]
    dsimp only
    split
    · rename_i hstop
      -- Each of the three stops is at the end of the list.
      have hend : items.length - offset ≤ size := by
        simp only [Bool.or_eq_true, List.isEmpty_iff_length_eq_zero, decide_eq_true_eq] at hstop
        omega
      have hrest : (page size offset).1 = items.drop offset := by
        rw [hslice, List.take_of_length_le]
        rw [List.length_drop]
        exact hend
      refine ⟨_, rfl, nil_notMem_yielded _, ?_⟩
      rw [flatten_yielded, hrest]
    · rename_i hgo
      simp only [Bool.or_eq_true, List.isEmpty_iff_length_eq_zero, decide_eq_true_eq,
        not_or] at hgo
      obtain ⟨⟨hnonempty, hfull⟩, -⟩ := hgo
      obtain ⟨rest, hrest, hnone, hflat⟩ := @ih (offset + (page size offset).1.length) (by omega)
      -- The page is full, and the batches after it are the rest of the list.
      have hne : (page size offset).1.isEmpty = false := by
        rw [List.isEmpty_eq_false_iff]
        exact List.ne_nil_of_length_pos (Nat.pos_of_ne_zero hnonempty)
      refine ⟨(page size offset).1 :: rest, ?_, ?_, ?_⟩
      · rw [hrest, hne]
        rfl
      · rw [List.mem_cons, not_or]
        refine ⟨?_, hnone⟩
        intro hnil
        rw [← hnil] at hnonempty
        exact hnonempty rfl
      · have hwhole : (page size offset).1.length = size := by omega
        rw [List.flatten_cons, hflat, hwhole, hslice, ← List.drop_drop, List.take_append_drop]

end

/-- Over a service that cuts its pages out of one list, the loop ends. It yields no empty batch,
and the batches together are the list, which is what `drain_pages` returns. The total may be too
large. -/
theorem export_paging_lossless {α : Type} {size : Nat} {page : Nat → Nat → List α × Nat}
    {items : List α} (hsize : 0 < size) (h : Serves page items) :
    ∃ batches, (∀ fuel, items.length < fuel →
        iterPages size page fuel 0 = some batches ∧ drainPages size page fuel = some items) ∧
      [] ∉ batches ∧ batches.flatten = items := by
  obtain ⟨batches, hbatches, hnone, hflat⟩ :=
    iterPages_spec 0 hsize h (Nat.lt_succ_self items.length)
  rw [List.drop_zero] at hflat
  refine ⟨batches, fun fuel hfuel => ?_, hnone, hflat⟩
  have hrun : iterPages size page fuel 0 = some batches := iterPages_of_le hfuel hbatches
  refine ⟨hrun, ?_⟩
  -- Draining appends batch after batch, which is the concatenation.
  have hfold : batches.foldl (fun rows batch => rows ++ id batch) [] = [] ++
      (batches.map id).flatten :=
    List.foldl_append_eq_append
  rw [List.map_id, List.nil_append, hflat] at hfold
  rw [drainPages, hrun, Option.map_some]
  exact congrArg some hfold

/-- A service over four rows that reports nine of them, at a page size that divides their
number. -/
theorem export_paging_lossless_overcount :
    ∃ batches, (∀ fuel, [1, 2, 3, 4].length < fuel →
        iterPages 2 (fun limit offset => (([1, 2, 3, 4].drop offset).take limit, 9)) fuel 0 =
          some batches ∧
        drainPages 2 (fun limit offset => (([1, 2, 3, 4].drop offset).take limit, 9)) fuel =
          some [1, 2, 3, 4]) ∧
      [] ∉ batches ∧ batches.flatten = [1, 2, 3, 4] :=
  export_paging_lossless (by decide) fun _ _ => ⟨rfl, by simp⟩

end RedTeaming.Exports
