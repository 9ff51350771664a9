import RedTeaming.ApiError
import RedTeaming.Library.Table

/-!
# `RedTeaming.SoftDelete`: rows with a tombstone

The columns that `core/base_model.py` gives every table, and the reads and writes that follow from
them: `soft_delete`, `restore`, `live_select`, `live_update`, and from `core/restore.py` the
tombstones inside the restore window. An `Entity` is a row type with these columns. Its key is the
`id`, so a table of entities is a `Table` of the library.

`updated_at` is not modelled. No modelled function reads it.
-/

set_option autoImplicit false

namespace RedTeaming

open RedTeaming.Library

/-- A client-side UUID. -/
abbrev UUID := Nat

/-- Seconds since the epoch. -/
abbrev Time := Nat

/-- The columns of every row. -/
structure BaseModel where
  id : UUID
  createdAt : Time
  deletedAt : Option Time := none
  deletedById : Option UUID := none
deriving DecidableEq

namespace BaseModel

/-- The row carries no tombstone. -/
def live (b : BaseModel) : Bool := b.deletedAt.isNone

/-- Mark the row as deleted by `byId`. -/
def softDelete (now : Time) (byId : UUID) (b : BaseModel) : BaseModel :=
  { b with deletedAt := some now, deletedById := some byId }

/-- Clear the tombstone. -/
def restore (b : BaseModel) : BaseModel := { b with deletedAt := none, deletedById := none }

/-- A tombstone not older than `cutoff`, made by `deletedBy` when that is given. -/
def restorable (cutoff : Time) (deletedBy : Option UUID) (b : BaseModel) : Bool :=
  match b.deletedAt with
  | some at_ => decide (cutoff ≤ at_) && deletedBy.all fun u => b.deletedById == some u
  | none => false

@[simp] theorem softDelete_id (now : Time) (byId : UUID) (b : BaseModel) :
    (b.softDelete now byId).id = b.id := rfl

@[simp] theorem restore_id (b : BaseModel) : b.restore.id = b.id := rfl

@[simp] theorem live_softDelete (now : Time) (byId : UUID) (b : BaseModel) :
    (b.softDelete now byId).live = false := rfl

@[simp] theorem live_restore (b : BaseModel) : b.restore.live = true := rfl

/-- A row made without a tombstone is live. -/
@[simp] theorem live_mk (id : UUID) (createdAt : Time) (byId : Option UUID) :
    (BaseModel.mk id createdAt none byId).live = true := rfl

/-- A restorable row is not live. -/
theorem not_live_of_restorable {cutoff : Time} {deletedBy : Option UUID} {b : BaseModel}
    (h : b.restorable cutoff deletedBy = true) : b.live = false := by
  unfold restorable at h
  unfold live
  cases hdeleted : b.deletedAt with
  | none => simp [hdeleted] at h
  | some at_ => rfl

end BaseModel

/-- A row type with the base columns. -/
class Entity (ρ : Type) where
  base : ρ → BaseModel
  withBase : ρ → BaseModel → ρ
  base_withBase : ∀ r b, base (withBase r b) = b

instance {ρ : Type} [Entity ρ] : Keyed ρ UUID := ⟨fun r => (Entity.base r).id⟩

section
variable {ρ : Type} [Entity ρ]

/-- The row carries no tombstone. -/
def live (r : ρ) : Bool := (Entity.base r).live

/-- `row.soft_delete(by_id)`. -/
def softDelete (now : Time) (byId : UUID) (r : ρ) : ρ :=
  Entity.withBase r ((Entity.base r).softDelete now byId)

/-- `row.restore()`. -/
def restore (r : ρ) : ρ := Entity.withBase r (Entity.base r).restore

theorem key_eq (r : ρ) : key r = (Entity.base r).id := rfl

@[simp] theorem key_softDelete (now : Time) (byId : UUID) (r : ρ) :
    key (softDelete now byId r) = key r := by
  rw [key_eq, key_eq, softDelete, Entity.base_withBase, BaseModel.softDelete_id]

@[simp] theorem key_restore (r : ρ) : key (restore r) = key r := by
  rw [key_eq, key_eq, restore, Entity.base_withBase, BaseModel.restore_id]

@[simp] theorem live_softDelete (now : Time) (byId : UUID) (r : ρ) :
    live (softDelete now byId r) = false := by
  rw [live, softDelete, Entity.base_withBase, BaseModel.live_softDelete]

@[simp] theorem live_restore (r : ρ) : live (restore r) = true := by
  rw [live, restore, Entity.base_withBase, BaseModel.live_restore]

/-- `live_select()`: the rows without a tombstone. -/
def liveSelect (t : Table ρ) : List ρ := t.rows.filter fun r => live r

/-- `live_select()` by id. -/
def findLive (t : Table ρ) (id : UUID) : Option ρ := (t.find? id).filter fun r => live r

/-- `deleted_select()` by id: the tombstone inside the restore window. -/
def findRestorable (t : Table ρ) (cutoff : Time) (deletedBy : Option UUID) (id : UUID) :
    Option ρ :=
  (t.find? id).filter fun r => (Entity.base r).restorable cutoff deletedBy

/-- `deleted_select()`: the tombstones inside the restore window. -/
def deletedSelect (t : Table ρ) (cutoff : Time) (deletedBy : Option UUID) : List ρ :=
  t.rows.filter fun r => (Entity.base r).restorable cutoff deletedBy

/-- The bulk soft delete of `live_update()`: the live rows that `p` selects. -/
def softDeleteWhere (t : Table ρ) (now : Time) (byId : UUID) (p : ρ → Bool) : Table ρ :=
  t.mapRows (fun r => if live r && p r then softDelete now byId r else r) fun r => by
    split
    · exact key_softDelete now byId r
    · rfl

/-- The soft delete of one row. -/
def softDeleteRow (t : Table ρ) (now : Time) (byId : UUID) (id : UUID) : Table ρ :=
  t.modify id (softDelete now byId) (key_softDelete now byId)

/-- `restore_row`: the restore of one row. -/
def restoreRow (t : Table ρ) (id : UUID) : Table ρ := t.modify id restore key_restore

/-- The flush of new rows. Two rows with one id violate the primary key. -/
def flush (t : Table ρ) (new : List ρ) : Except ApiError (Table ρ) :=
  match t.insertAll new with
  | some t => .ok t
  | none => .error (.runtimeError "duplicate key value violates unique constraint")

@[simp] theorem mem_liveSelect {t : Table ρ} {r : ρ} :
    r ∈ liveSelect t ↔ r ∈ t ∧ live r = true := List.mem_filter

theorem mem_deletedSelect {t : Table ρ} {cutoff : Time} {deletedBy : Option UUID} {r : ρ} :
    r ∈ deletedSelect t cutoff deletedBy ↔
      r ∈ t ∧ (Entity.base r).restorable cutoff deletedBy = true := List.mem_filter

/-- A live lookup finds the live row of the table with the id. -/
theorem findLive_eq_some {t : Table ρ} {id : UUID} {r : ρ} :
    findLive t id = some r ↔ r ∈ t ∧ key r = id ∧ live r = true := by
  rw [findLive, Option.filter_eq_some_iff, Table.find?_eq_some, and_assoc]

/-- A lookup among the tombstones finds a deleted row of the table with the id. -/
theorem findRestorable_eq_some {t : Table ρ} {cutoff : Time} {deletedBy : Option UUID}
    {id : UUID} {r : ρ} :
    findRestorable t cutoff deletedBy id = some r ↔
      r ∈ t ∧ key r = id ∧ (Entity.base r).restorable cutoff deletedBy = true := by
  rw [findRestorable, Option.filter_eq_some_iff, Table.find?_eq_some, and_assoc]

/-- What a restore finds is not live. -/
theorem not_live_of_findRestorable {t : Table ρ} {cutoff : Time} {deletedBy : Option UUID}
    {id : UUID} {r : ρ} (h : findRestorable t cutoff deletedBy id = some r) : live r = false :=
  BaseModel.not_live_of_restorable (findRestorable_eq_some.mp h).2.2

/-- The live rows after a bulk soft delete: the live rows that it does not select. -/
theorem mem_softDeleteWhere {t : Table ρ} {now : Time} {byId : UUID} {p : ρ → Bool} {r : ρ}
    (hlive : live r = true) : r ∈ softDeleteWhere t now byId p ↔ r ∈ t ∧ p r = false := by
  rw [softDeleteWhere, Table.mem_mapRows]
  constructor
  · rintro ⟨r₀, hr₀, rfl⟩
    split at hlive
    · simp at hlive
    · rename_i hsel
      rw [if_neg hsel]
      exact ⟨hr₀, by simpa [hlive] using hsel⟩
  · rintro ⟨hr, hp⟩
    exact ⟨r, hr, by simp [hp]⟩

/-- The live rows after the soft delete of one row: the other live rows. -/
theorem mem_softDeleteRow {t : Table ρ} {now : Time} {byId id : UUID} {r : ρ}
    (hlive : live r = true) : r ∈ softDeleteRow t now byId id ↔ r ∈ t ∧ key r ≠ id := by
  rw [softDeleteRow, Table.mem_modify]
  constructor
  · rintro (⟨r₀, -, -, rfl⟩ | h)
    · simp at hlive
    · exact h
  · exact Or.inr

/-- A tombstone keeps the key of its row. -/
theorem exists_softDeleteRow {t : Table ρ} {now : Time} {byId id : UUID} {r : ρ}
    (h : r ∈ t) : ∃ r' ∈ softDeleteRow t now byId id, key r' = key r := by
  by_cases hid : key r = id
  · refine ⟨softDelete now byId r, ?_, key_softDelete now byId r⟩
    rw [softDeleteRow, Table.mem_modify]
    exact Or.inl ⟨r, h, hid, rfl⟩
  · refine ⟨r, ?_, rfl⟩
    rw [softDeleteRow, Table.mem_modify]
    exact Or.inr ⟨h, hid⟩

/-- The rows after a restore: the restored row, and the other rows. -/
theorem mem_restoreRow {t : Table ρ} {id : UUID} {r : ρ} :
    r ∈ restoreRow t id ↔ (∃ r₀ ∈ t, key r₀ = id ∧ restore r₀ = r) ∨ r ∈ t ∧ key r ≠ id :=
  Table.mem_modify

/-- A live row after a restore is live before it, or the restored one. -/
theorem live_of_mem_restoreRow {t : Table ρ} {id : UUID} {r : ρ}
    (h : r ∈ restoreRow t id) (hlive : live r = true) :
    (r ∈ t ∧ live r = true) ∨ ∃ r₀ ∈ t, key r₀ = id ∧ restore r₀ = r := by
  rcases mem_restoreRow.mp h with hrestored | ⟨hold, -⟩
  · exact Or.inr hrestored
  · exact Or.inl ⟨hold, hlive⟩

/-- The restored row is a live row. -/
theorem restore_mem_restoreRow {t : Table ρ} {r : ρ} (h : r ∈ t) :
    restore r ∈ restoreRow t (key r) :=
  mem_restoreRow.mpr (Or.inl ⟨r, h, rfl, rfl⟩)

/-- A flush adds the new rows. -/
theorem mem_flush {t t' : Table ρ} {new : List ρ} (h : flush t new = .ok t') {r : ρ} :
    r ∈ t' ↔ r ∈ t ∨ r ∈ new := by
  unfold flush at h
  split at h
  · rename_i hinsert
    cases h
    exact Table.mem_insertAll hinsert
  · cases h

/-- A flushed row has an id that no row of the table had. -/
theorem key_ne_of_flush {t t' : Table ρ} {new : List ρ} (h : flush t new = .ok t') {r r' : ρ}
    (hr : r ∈ t) (hr' : r' ∈ new) : key r ≠ key r' := by
  unfold flush at h
  split at h
  · rename_i hinsert
    exact Table.key_ne_of_insertAll hinsert hr hr'
  · cases h

/-- A flush of one row adds it. -/
theorem mem_of_flush_singleton {t t' : Table ρ} {new r : ρ} (h : flush t [new] = .ok t') :
    r ∈ t' ↔ r ∈ t ∨ r = new := by
  rw [mem_flush h, List.mem_singleton]

/-- A flush is an insert. -/
theorem insertAll_of_flush {t t' : Table ρ} {new : List ρ} (h : flush t new = .ok t') :
    t.insertAll new = some t' := by
  unfold flush at h
  split at h
  · rename_i hinsert
    cases h
    exact hinsert
  · cases h

/-- A flush puts the new rows after the old ones. -/
theorem rows_of_flush {t t' : Table ρ} {new : List ρ} (h : flush t new = .ok t') :
    t'.rows = t.rows ++ new := by
  have hinsert := insertAll_of_flush h
  unfold Table.insertAll at hinsert
  split at hinsert
  · cases hinsert
    rfl
  · cases hinsert

/-- Flushed rows have distinct ids. -/
theorem nodup_of_flush {t t' : Table ρ} {new : List ρ} (h : flush t new = .ok t') :
    (new.map key).Nodup := by
  have hnodup := t'.nodup
  rw [rows_of_flush h, List.map_append] at hnodup
  exact (List.nodup_append.mp hnodup).2.1

/-- A row with a new key can be flushed. -/
theorem exists_flush {t : Table ρ} {new : ρ} (h : ∀ r ∈ t, key r ≠ key new) :
    ∃ t', flush t [new] = .ok t' := by
  have hnodup : ((t.rows ++ [new]).map key).Nodup := by
    rw [List.map_append, List.map_singleton, List.nodup_append]
    refine ⟨t.nodup, List.nodup_singleton _, ?_⟩
    intro k hk k' hk' hsame
    obtain ⟨r, hr, rfl⟩ := List.mem_map.mp hk
    exact h r hr (hsame.trans (List.mem_singleton.mp hk'))
  refine ⟨⟨t.rows ++ [new], hnodup⟩, ?_⟩
  rw [flush, Table.insertAll, dif_pos hnodup]

/-- A flush adds rows under new keys, so a reference to an old row still finds the old row. -/
theorem mem_of_key_eq_flush {t t' : Table ρ} {new : List ρ} {r r' : ρ}
    (hflush : flush t new = .ok t') (hr : r ∈ t) (hr' : r' ∈ t') (hkey : key r' = key r) :
    r' = r :=
  Table.eq_of_key_eq hr' ((mem_flush hflush).mpr (Or.inl hr)) hkey

/-! ### Rows that are written at a commit -/

/-- A live lookup finds something when there is a live row with the id. -/
theorem isSome_findLive {rows : Table ρ} {id : UUID} :
    (findLive rows id).isSome ↔ ∃ r ∈ rows, key r = id ∧ live r = true := by
  simp only [Option.isSome_iff_exists, findLive_eq_some]

section
variable {rows rows' : Table ρ} {row : ρ} {new : List ρ}

/-- The table `rows'` is `rows` with the row written. -/
structure Puts (rows rows' : Table ρ) (row : ρ) : Prop where
  mem : row ∈ rows'
  cases : ∀ r ∈ rows', r = row ∨ r ∈ rows
  keys : ∀ r ∈ rows, ∃ r' ∈ rows', key r' = key r

theorem puts_insert (h : rows.insertAll [row] = some rows') : Puts rows rows' row where
  mem := (Table.mem_insertAll h).mpr (Or.inr List.mem_cons_self)
  cases r hr := by
    rcases (Table.mem_insertAll h).mp hr with hold | hnew
    · exact Or.inr hold
    · exact Or.inl (List.mem_singleton.mp hnew)
  keys r hr := ⟨r, (Table.mem_insertAll h).mpr (Or.inl hr), rfl⟩

theorem puts_overwrite (h : ∃ r ∈ rows, key r = key row) :
    Puts rows (rows.overwrite [row]) row where
  mem := by
    have hnodup : ([row].map key).Nodup := List.nodup_singleton _
    exact (Table.mem_overwrite hnodup).mpr (Or.inl ⟨List.mem_cons_self, h⟩)
  cases r hr := by
    rcases Table.overwrite_cases hr with hnew | ⟨hold, -⟩
    · exact Or.inl (List.mem_singleton.mp hnew)
    · exact Or.inr hold
  keys r hr := Table.exists_overwrite _ hr

/-- What was found live is found after a live row was written. -/
theorem Puts.isSome (h : Puts rows rows' row) (hlive : live row = true) {id : UUID}
    (hfound : (findLive rows id).isSome) : (findLive rows' id).isSome := by
  obtain ⟨r, hr, hid, hrlive⟩ := isSome_findLive.mp hfound
  obtain ⟨r', hr', hkey⟩ := h.keys r hr
  rcases h.cases r' hr' with rfl | hold
  · exact isSome_findLive.mpr ⟨r', hr', hkey.trans hid, hlive⟩
  · have hsame : r' = r := Table.eq_of_key_eq hold hr hkey
    subst hsame
    exact isSome_findLive.mpr ⟨r', hr', hid, hrlive⟩

/-- Tombstones make no row live. -/
theorem live_of_overwrite {r : ρ} (hdead : ∀ n ∈ new, live n = false)
    (hr : r ∈ rows.overwrite new) (hlive : live r = true) :
    r ∈ rows ∧ ∀ n ∈ new, key n ≠ key r := by
  rcases Table.overwrite_cases hr with hnew | hold
  · rw [hdead r hnew] at hlive
    cases hlive
  · exact hold

end

end

end RedTeaming
