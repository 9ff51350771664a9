import RedTeaming.Evaluations.Scenarios

/-!
# `RedTeaming.Evaluations.ScenarioOrder`: when positions stay distinct

`positions_distinct_iff`: a run keeps the positions of the live scenarios of an evaluation
distinct exactly when no reorder commits beside a live scenario that it does not list, and whose
position is one of those that it gives out.

A create and a restore always keep them distinct. Both read the last position under the lock of
the evaluation, so nobody else appends before they commit. A reorder can still commit in between.
It gives out positions below the number of its rows, and those are all live, so the position read
stays the last one (`Appends`).

A reorder locks the rows that were live when its statement started. A scenario that commits after
that is not among them. It is no harm as long as it stays behind them. But another reorder, or a
restore of the others after it, moves it to the front.

`reorder_alone` is the second part: a reorder that nobody interrupts gives each id its index.
-/

set_option autoImplicit false

namespace RedTeaming.Evaluations.Scenarios

open RedTeaming.Library

/-- Two live scenarios of one evaluation have two positions. -/
def PositionsDistinct (rows : Table Scenario) : Prop :=
  ∀ r ∈ rows, ∀ r' ∈ rows, live r = true → live r' = true → r.evaluationId = r'.evaluationId →
    r.position = r'.position → r = r'

instance (rows : Table Scenario) : Decidable (PositionsDistinct rows) :=
  inferInstanceAs (Decidable (∀ r ∈ rows, ∀ r' ∈ rows, live r = true → live r' = true →
    r.evaluationId = r'.evaluationId → r.position = r'.position → r = r'))

/-- The reorder that commits with this label lists each live scenario of its evaluation, but for
those with a position behind the ones that it gives out. -/
def ListsFront (s : State) : Label → Prop
  | .commit t => ∀ evaluationId payload rows,
      s.txns t = some ⟨.reorder evaluationId payload, .reordered rows⟩ →
        ∀ r ∈ s.rows, live r = true → r.evaluationId = evaluationId →
          key r ∉ payload.scenarioIds → payload.scenarioIds.length ≤ r.position
  | _ => True

/-- Nothing is open, and the positions are distinct. -/
structure Start (s : State) : Prop where
  txns : ∀ t, s.txns t = none
  distinct : PositionsDistinct s.rows

/-! ### Positions -/

section
variable {rows rows' : Table Scenario} {row r : Scenario} {evaluationId : UUID} {p : Nat}

theorem mem_liveOf :
    r ∈ liveOf rows evaluationId ↔ r ∈ rows ∧ live r = true ∧ r.evaluationId = evaluationId := by
  simp only [liveOf, List.mem_filter, mem_liveSelect, beq_iff_eq, and_assoc]

/-- The ids of the live scenarios of an evaluation. -/
def liveIds (rows : Table Scenario) (evaluationId : UUID) : List UUID :=
  (liveOf rows evaluationId).map key

theorem mem_liveIds {id : UUID} :
    id ∈ liveIds rows evaluationId ↔
      ∃ r ∈ rows, live r = true ∧ r.evaluationId = evaluationId ∧ key r = id := by
  simp only [liveIds, List.mem_map, mem_liveOf, and_assoc]

/-- No id is listed twice. -/
theorem nodup_liveIds : (liveIds rows evaluationId).Nodup := by
  have hsub : (liveOf rows evaluationId).Sublist rows.rows :=
    List.filter_sublist.trans List.filter_sublist
  exact (hsub.map key).nodup rows.nodup

/-- A position behind those of the live scenarios, of which there are no more. -/
structure Appends (rows : Table Scenario) (evaluationId : UUID) (p : Nat) : Prop where
  last : ∀ r ∈ rows, live r = true → r.evaluationId = evaluationId → r.position < p
  room : (liveIds rows evaluationId).length ≤ p

/-- The next position is behind every live one. -/
theorem lt_nextPosition (hr : r ∈ rows) (hlive : live r = true)
    (hevaluation : r.evaluationId = evaluationId) :
    r.position < nextPosition rows evaluationId := by
  have hmem : r.position ∈ (liveOf rows evaluationId).map Scenario.position :=
    List.mem_map_of_mem (mem_liveOf.mpr ⟨hr, hlive, hevaluation⟩)
  unfold nextPosition
  cases hmax : ((liveOf rows evaluationId).map Scenario.position).max? with
  | none =>
    rw [List.max?_eq_none_iff] at hmax
    rw [hmax] at hmem
    cases hmem
  | some m =>
    have hle : r.position ≤ m := (List.max?_eq_some_iff.mp hmax).2 _ hmem
    show r.position < m + 1
    omega

/-- Distinct positions below a bound are no more than the bound. -/
theorem appends_nextPosition (h : PositionsDistinct rows) :
    Appends rows evaluationId (nextPosition rows evaluationId) where
  last _ hr hlive hevaluation := lt_nextPosition hr hlive hevaluation
  room := by
    have hnodup : ((liveOf rows evaluationId).map Scenario.position).Nodup := by
      apply List.Nodup.map_on
      · intro r hr r' hr' hsame
        obtain ⟨hr, hlive, hevaluation⟩ := mem_liveOf.mp hr
        obtain ⟨hr', hlive', hevaluation'⟩ := mem_liveOf.mp hr'
        exact h r hr r' hr' hlive hlive' (hevaluation.trans hevaluation'.symm) hsame
      · exact List.Nodup.of_map key nodup_liveIds
    have hsub : (liveOf rows evaluationId).map Scenario.position ⊆
        List.range (nextPosition rows evaluationId) := by
      intro p hp
      obtain ⟨r, hr, rfl⟩ := List.mem_map.mp hp
      obtain ⟨hr, hlive, hevaluation⟩ := mem_liveOf.mp hr
      exact List.mem_range.mpr (lt_nextPosition hr hlive hevaluation)
    have hle := (hnodup.subperm hsub).length_le
    rw [List.length_map, List.length_range] at hle
    rw [liveIds, List.length_map]
    exact hle

/-- A position stays the last one while no live scenario moves behind it, and none is added. -/
theorem Appends.of_subset (h : Appends rows evaluationId p)
    (hsub : liveIds rows' evaluationId ⊆ liveIds rows evaluationId)
    (hlast : ∀ r ∈ rows', live r = true → r.evaluationId = evaluationId → r.position < p) :
    Appends rows' evaluationId p where
  last := hlast
  room := ((nodup_liveIds.subperm hsub).length_le).trans h.room

/-! ### One row is written -/

theorem mem_insert (h : rows.insertAll [row] = some rows') : r ∈ rows' ↔ r ∈ rows ∨ r = row := by
  rw [Table.mem_insertAll h, List.mem_singleton]

/-- The rows after one was overwritten. -/
theorem mem_overwrite_one :
    r ∈ rows.overwrite [row] ↔
      (r = row ∧ ∃ r₀ ∈ rows, key r₀ = key r) ∨ (r ∈ rows ∧ key row ≠ key r) := by
  have hnodup : ([row].map key).Nodup := List.nodup_singleton _
  rw [Table.mem_overwrite hnodup]
  simp only [List.mem_singleton, forall_eq]

/-- What was written is the row, and the other rows were there before. -/
def Adds (rows rows' : Table Scenario) (row : Scenario) : Prop :=
  ∀ r ∈ rows', r = row ∨ r ∈ rows

theorem adds_insert (h : rows.insertAll [row] = some rows') : Adds rows rows' row := by
  intro r hr
  exact ((mem_insert h).mp hr).symm

theorem adds_overwrite : Adds rows (rows.overwrite [row]) row := by
  intro r hr
  rcases mem_overwrite_one.mp hr with ⟨hrow, -⟩ | ⟨hold, -⟩
  · exact Or.inl hrow
  · exact Or.inr hold

/-- A row that is last, or not live, keeps the positions distinct. -/
theorem PositionsDistinct.adds (h : PositionsDistinct rows) (hadds : Adds rows rows' row)
    (hlast : live row = true → Appends rows row.evaluationId row.position) :
    PositionsDistinct rows' := by
  intro r hr r' hr' hlive hlive' hevaluation hposition
  rcases hadds r hr with rfl | hold
  · rcases hadds r' hr' with rfl | hold'
    · rfl
    · have hlt := (hlast hlive).last r' hold' hlive' hevaluation.symm
      omega
  · rcases hadds r' hr' with rfl | hold'
    · have hlt := (hlast hlive').last r hold hlive hevaluation
      omega
    · exact h r hold r' hold' hlive hlive' hevaluation hposition

/-- A row of another evaluation, or one that is not live, leaves the last position. -/
theorem Appends.adds (h : Appends rows evaluationId p) (hadds : Adds rows rows' row)
    (hother : live row = true → row.evaluationId ≠ evaluationId) :
    Appends rows' evaluationId p := by
  have hold : ∀ r ∈ rows', live r = true → r.evaluationId = evaluationId → r ∈ rows := by
    intro r hr hlive hevaluation
    rcases hadds r hr with rfl | hold
    · exact absurd hevaluation (hother hlive)
    · exact hold
  apply h.of_subset
  · intro id hid
    obtain ⟨r, hr, hlive, hevaluation, hkey⟩ := mem_liveIds.mp hid
    exact mem_liveIds.mpr ⟨r, hold r hr hlive hevaluation, hlive, hevaluation, hkey⟩
  · intro r hr hlive hevaluation
    exact h.last r (hold r hr hlive hevaluation) hlive hevaluation

end

/-! ### A reorder is written -/

section
variable {rows : Table Scenario} {got new : List Scenario} {ids : List UUID} {r : Scenario}
  {evaluationId : UUID} {p : Nat}

/-- The new version of a row that is reordered. -/
def placed (ids : List UUID) (r : Scenario) : Scenario := { r with position := ids.idxOf (key r) }

theorem key_placed : key (placed ids r) = key r := rfl

/-- A reorder is accepted when the rows that it holds are the ones that it lists. -/
theorem reorderScenarios_eq_ok :
    reorderScenarios evaluationId ids got = .ok new ↔
      (∀ id ∈ ids, id ∈ got.map key) ∧ (∀ r ∈ got, key r ∈ ids) ∧ new = got.map (placed ids) := by
  simp only [reorderScenarios, bind_eq_ok, check_eq_ok, exists_const, List.isEmpty_iff,
    List.filter_eq_nil_iff, Bool.not_eq_true', Bool.not_eq_false, List.contains_iff_mem,
    List.all_eq_true]
  constructor
  · rintro ⟨hknown, hlisted, hnew⟩
    cases hnew
    exact ⟨hknown, hlisted, rfl⟩
  · rintro ⟨hknown, hlisted, rfl⟩
    exact ⟨hknown, hlisted, rfl⟩

/-- What a reorder writes: new versions of live rows of the evaluation, which it lists. -/
structure Ordered (rows : Table Scenario) (evaluationId : UUID) (ids : List UUID)
    (got new : List Scenario) : Prop where
  nodup : (got.map key).Nodup
  source : ∀ r ∈ got, r ∈ rows ∧ live r = true ∧ r.evaluationId = evaluationId
  accepted : reorderScenarios evaluationId ids got = .ok new

theorem Ordered.mem_got (h : Ordered rows evaluationId ids got new) (hr : r ∈ rows)
    (hid : key r ∈ ids) : r ∈ got := by
  obtain ⟨hknown, -, -⟩ := reorderScenarios_eq_ok.mp h.accepted
  obtain ⟨r', hr', hkey⟩ := List.mem_map.mp (hknown _ hid)
  have hsame : r' = r := Table.eq_of_key_eq (h.source r' hr').1 hr hkey
  rw [← hsame]
  exact hr'

/-- The rows after a reorder: the listed ones at their index, and the other ones. -/
theorem Ordered.mem_overwrite (h : Ordered rows evaluationId ids got new) :
    r ∈ rows.overwrite new ↔
      (∃ r₀ ∈ got, r = placed ids r₀) ∨ (r ∈ rows ∧ key r ∉ ids) := by
  obtain ⟨hknown, hlisted, rfl⟩ := reorderScenarios_eq_ok.mp h.accepted
  have hkeys : (got.map (placed ids)).map key = got.map key := by
    rw [List.map_map]
    exact List.map_congr_left fun _ _ => key_placed
  rw [Table.mem_overwrite (by rw [hkeys]; exact h.nodup)]
  constructor
  · rintro (⟨hr, -⟩ | ⟨hr, hnone⟩)
    · obtain ⟨r₀, hr₀, rfl⟩ := List.mem_map.mp hr
      exact Or.inl ⟨r₀, hr₀, rfl⟩
    · refine Or.inr ⟨hr, fun hid => ?_⟩
      exact hnone _ (List.mem_map_of_mem (h.mem_got hr hid)) key_placed
  · rintro (⟨r₀, hr₀, rfl⟩ | ⟨hr, hid⟩)
    · exact Or.inl ⟨List.mem_map_of_mem hr₀, r₀, (h.source r₀ hr₀).1, rfl⟩
    · refine Or.inr ⟨hr, fun n hn hkey => hid ?_⟩
      obtain ⟨r₀, hr₀, rfl⟩ := List.mem_map.mp hn
      rw [← hkey]
      exact hlisted r₀ hr₀

theorem Ordered.key_mem (h : Ordered rows evaluationId ids got new) (hr : r ∈ got) :
    key r ∈ ids :=
  (reorderScenarios_eq_ok.mp h.accepted).2.1 r hr

/-- Two rows at one index are one row. -/
theorem placed_inj (h : Ordered rows evaluationId ids got new) {r' : Scenario} (hr : r ∈ got)
    (hr' : r' ∈ got) (hposition : (placed ids r).position = (placed ids r').position) :
    r = r' := by
  have hkey : key r = key r' := (List.idxOf_inj (h.key_mem hr)).mp hposition
  exact Table.eq_of_key_eq (h.source r hr).1 (h.source r' hr').1 hkey

/-- A reorder leaves the positions distinct exactly when it lists each live scenario with a
position that it gives out. -/
theorem Ordered.distinct_iff (h : Ordered rows evaluationId ids got new) (hids : ids.Nodup)
    (hdistinct : PositionsDistinct rows) :
    PositionsDistinct (rows.overwrite new) ↔
      ∀ r ∈ rows, live r = true → r.evaluationId = evaluationId → key r ∉ ids →
        ids.length ≤ r.position := by
  constructor
  · intro hafter r hr hlive hevaluation hmissed
    apply Nat.le_of_not_lt
    intro hlt
    -- the row that gets the position of `r`
    obtain ⟨hknown, -, -⟩ := reorderScenarios_eq_ok.mp h.accepted
    obtain ⟨r₀, hr₀, hkey⟩ := List.mem_map.mp (hknown _ (List.getElem_mem hlt))
    have hposition : (placed ids r₀).position = r.position := by
      show ids.idxOf (key r₀) = r.position
      rw [hkey]
      exact hids.idxOf_getElem _ hlt
    obtain ⟨-, hlive₀, hevaluation₀⟩ := h.source r₀ hr₀
    have hsame : placed ids r₀ = r := hafter _ (h.mem_overwrite.mpr (Or.inl ⟨r₀, hr₀, rfl⟩)) r
      (h.mem_overwrite.mpr (Or.inr ⟨hr, hmissed⟩)) hlive₀ hlive
      (hevaluation₀.trans hevaluation.symm) hposition
    apply hmissed
    rw [← hsame, key_placed]
    exact h.key_mem hr₀
  · intro hfront r hr r' hr' hlive hlive' hevaluation hposition
    -- a listed row has a position below the number of the rows, and another one has not
    have hapart : ∀ r₁ ∈ got, ∀ r₂ ∈ rows, key r₂ ∉ ids → live r₂ = true →
        r₂.evaluationId = (placed ids r₁).evaluationId →
          (placed ids r₁).position ≠ r₂.position := by
      intro r₁ hr₁ r₂ hr₂ hmissed hlive₂ hevaluation₂ hsame
      have hle := hfront r₂ hr₂ hlive₂ (hevaluation₂.trans (h.source r₁ hr₁).2.2) hmissed
      have hlt : (placed ids r₁).position < ids.length :=
        List.idxOf_lt_length_iff.mpr (h.key_mem hr₁)
      omega
    rcases h.mem_overwrite.mp hr with ⟨r₁, hr₁, rfl⟩ | ⟨hold, hmissed⟩
    · rcases h.mem_overwrite.mp hr' with ⟨r₂, hr₂, rfl⟩ | ⟨hold', hmissed'⟩
      · rw [placed_inj h hr₁ hr₂ hposition]
      · exact absurd hposition (hapart r₁ hr₁ r' hold' hmissed' hlive' hevaluation.symm)
    · rcases h.mem_overwrite.mp hr' with ⟨r₂, hr₂, rfl⟩ | ⟨hold', hmissed'⟩
      · exact absurd hposition.symm (hapart r₂ hr₂ r hold hmissed hlive hevaluation)
      · exact hdistinct r hold r' hold' hlive hlive' hevaluation hposition

/-- A reorder of all the live scenarios leaves its ids, in their order, as the live scenarios. -/
theorem Ordered.mem_iff (h : Ordered rows evaluationId ids got new) (hids : ids.Nodup)
    (hall : ∀ id ∈ liveIds rows evaluationId, id ∈ got.map key) (i : Nat) (id : UUID) :
    ids[i]? = some id ↔
      ∃ r ∈ rows.overwrite new, live r = true ∧ r.evaluationId = evaluationId ∧ key r = id ∧
        r.position = i := by
  obtain ⟨hknown, -, -⟩ := reorderScenarios_eq_ok.mp h.accepted
  constructor
  · intro hi
    obtain ⟨hlt, hget⟩ := List.getElem?_eq_some_iff.mp hi
    obtain ⟨r₀, hr₀, hkey⟩ := List.mem_map.mp (hknown id (List.mem_of_getElem? hi))
    obtain ⟨-, hlive, hevaluation⟩ := h.source r₀ hr₀
    refine ⟨placed ids r₀, h.mem_overwrite.mpr (Or.inl ⟨r₀, hr₀, rfl⟩), hlive,
      hevaluation, hkey, ?_⟩
    show ids.idxOf (key r₀) = i
    rw [hkey, ← hget]
    exact hids.idxOf_getElem i hlt
  · rintro ⟨r, hr, hlive, hevaluation, rfl, rfl⟩
    rcases h.mem_overwrite.mp hr with ⟨r₀, hr₀, rfl⟩ | ⟨hold, hmissed⟩
    · exact List.getElem?_idxOf (h.key_mem hr₀)
    · obtain ⟨r₀, hr₀, hkey⟩ :=
        List.mem_map.mp (hall _ (mem_liveIds.mpr ⟨r, hold, hlive, hevaluation, rfl⟩))
      rw [← hkey] at hmissed
      exact absurd (h.key_mem hr₀) hmissed

/-- A position behind every live one stays so in a reorder. -/
theorem Appends.order {e : UUID} (happ : Appends rows e p)
    (h : Ordered rows evaluationId ids got new)
    (hids : ids.Nodup) : Appends (rows.overwrite new) e p := by
  apply happ.of_subset
  · intro id hid
    obtain ⟨r, hr, hlive, hevaluation, hkey⟩ := mem_liveIds.mp hid
    rcases h.mem_overwrite.mp hr with ⟨r₀, hr₀, rfl⟩ | ⟨hold, -⟩
    · exact mem_liveIds.mpr ⟨r₀, (h.source r₀ hr₀).1, hlive, hevaluation, hkey⟩
    · exact mem_liveIds.mpr ⟨r, hold, hlive, hevaluation, hkey⟩
  · intro r hr hlive hevaluation
    rcases h.mem_overwrite.mp hr with ⟨r₀, hr₀, rfl⟩ | ⟨hold, -⟩
    · -- the listed rows are live rows of the evaluation
      have hsub : ids ⊆ liveIds rows e := by
        intro id hid
        obtain ⟨hknown, -, -⟩ := reorderScenarios_eq_ok.mp h.accepted
        obtain ⟨r₁, hr₁, hkey⟩ := List.mem_map.mp (hknown id hid)
        obtain ⟨hmem, hlive₁, hevaluation₁⟩ := h.source r₁ hr₁
        have he : evaluationId = e := (h.source r₀ hr₀).2.2.symm.trans hevaluation
        exact mem_liveIds.mpr ⟨r₁, hmem, hlive₁, hevaluation₁.trans he, hkey⟩
      have hlt : (placed ids r₀).position < ids.length :=
        List.idxOf_lt_length_iff.mpr (h.key_mem hr₀)
      have hle : ids.length ≤ p := ((hids.subperm hsub).length_le).trans happ.room
      omega
    · exact happ.last r hold hlive hevaluation

end

/-! ### What a transaction knows where it is -/

/-- The row is the committed one, and locked. -/
structure Holds (s : State) (t : TxnId) (r : Scenario) : Prop where
  mem : r ∈ s.rows
  lock : s.scenarioLock (key r) = some t

/-- What holds of a transaction where it is. A create and a restore hold the evaluation from their
read of the last position on. -/
def PhaseOk (s : State) (t : TxnId) (request : Request) : Phase → Prop
  | .begun => True
  | .evaluationLocked => ∀ evaluationId payload, request = .create evaluationId payload →
      s.evaluationLock evaluationId = some t
  | .inserted row => s.evaluationLock row.evaluationId = some t ∧
      Appends s.rows row.evaluationId row.position
  | .found row | .tombstoneFound row => s.scenarioLock (key row) = some t
  | .deleted row => s.scenarioLock (key row) = some t ∧ live row = false
  | .appending row => s.scenarioLock (key row) = some t ∧
      s.evaluationLock row.evaluationId = some t
  | .restored row => s.scenarioLock (key row) = some t ∧
      s.evaluationLock row.evaluationId = some t ∧ Appends s.rows row.evaluationId row.position
  | .selecting wanted got => (wanted ++ got.map key).Nodup ∧
      ∀ r ∈ got, Holds s t r ∧ live r = true ∧ ∀ evaluationId payload,
        request = .reorder evaluationId payload → r.evaluationId = evaluationId
  | .reordered new => ∃ evaluationId payload got, request = .reorder evaluationId payload ∧
      (∀ r ∈ got, Holds s t r) ∧ Ordered s.rows evaluationId payload.scenarioIds got new

/-- Every open transaction is where it says. -/
def Inv (s : State) : Prop :=
  ∀ t txn, s.txns t = some txn → PhaseOk s t txn.request txn.phase

section
variable {s s' : State} {t t' : TxnId} {txn txn' : Txn} {env : Env}

/-- What a step leaves to a transaction: its locks, the rows that it holds, and the last position
of an evaluation that it holds. -/
structure Keeps (s s' : State) (t : TxnId) : Prop where
  evaluationLock : ∀ e, s.evaluationLock e = some t → s'.evaluationLock e = some t
  scenarioLock : ∀ id, s.scenarioLock id = some t → s'.scenarioLock id = some t
  rows : ∀ r, Holds s t r → r ∈ s'.rows
  last : ∀ e p, s.evaluationLock e = some t → Appends s.rows e p → Appends s'.rows e p

theorem Holds.keep {r : Scenario} (h : Holds s t r) (hk : Keeps s s' t) : Holds s' t r :=
  ⟨hk.rows r h, hk.scenarioLock _ h.lock⟩

theorem PhaseOk.keep {request : Request} {phase : Phase} (h : PhaseOk s t request phase)
    (hk : Keeps s s' t) : PhaseOk s' t request phase := by
  -- The locks of the transaction are kept, and what it knows is behind them.
  cases phase with
  | begun => trivial
  | evaluationLocked =>
    intro evaluationId payload hrequest
    exact hk.evaluationLock _ (h evaluationId payload hrequest)
  | inserted row => exact ⟨hk.evaluationLock _ h.1, hk.last _ _ h.1 h.2⟩
  | found row => exact hk.scenarioLock _ h
  | deleted row => exact ⟨hk.scenarioLock _ h.1, h.2⟩
  | tombstoneFound row => exact hk.scenarioLock _ h
  | appending row => exact ⟨hk.scenarioLock _ h.1, hk.evaluationLock _ h.2⟩
  | restored row =>
    obtain ⟨hlock, hevaluation, happ⟩ := h
    exact ⟨hk.scenarioLock _ hlock, hk.evaluationLock _ hevaluation, hk.last _ _ hevaluation happ⟩
  | selecting wanted got =>
    obtain ⟨hnodup, hgot⟩ := h
    refine ⟨hnodup, fun r hr => ?_⟩
    obtain ⟨hheld, hrest⟩ := hgot r hr
    exact ⟨hheld.keep hk, hrest⟩
  | reordered new =>
    obtain ⟨evaluationId, payload, got, hrequest, hgot, hordered⟩ := h
    refine ⟨evaluationId, payload, got, hrequest, fun r hr => (hgot r hr).keep hk, ?_⟩
    exact {
      nodup := hordered.nodup
      accepted := hordered.accepted
      source := fun r hr => ⟨((hgot r hr).keep hk).mem, (hordered.source r hr).2⟩ }

/-- A step that leaves the rows, and takes no lock away, leaves everything. -/
theorem Keeps.of_rows (hrows : s'.rows = s.rows)
    (hevaluation : ∀ e, s.evaluationLock e = some t → s'.evaluationLock e = some t)
    (hscenario : ∀ id, s.scenarioLock id = some t → s'.scenarioLock id = some t) :
    Keeps s s' t where
  evaluationLock := hevaluation
  scenarioLock := hscenario
  rows r h := by
    rw [hrows]
    exact h.mem
  last e p _ h := by
    rw [hrows]
    exact h

/-- A step of `t` that leaves the rows to the others. -/
theorem Inv.of_setTxn (h : Inv s) (hk : ∀ t', Keeps s (s'.setTxn t txn) t')
    (htxns : s'.txns = s.txns) (hok : PhaseOk (s'.setTxn t txn) t txn.request txn.phase) :
    Inv (s'.setTxn t txn) := by
  have hother : ∀ t' txn', t' ≠ t → s.txns t' = some txn' →
      PhaseOk (s'.setTxn t txn) t' txn'.request txn'.phase :=
    fun t' txn' _ ht' => (h t' txn' ht').keep (hk t')
  rw [← htxns] at hother
  exact Records.forall_set hok hother

/-- A step that only moves `t` on. -/
theorem Inv.setPhase (h : Inv s) (hok : PhaseOk s t txn.request txn.phase) :
    Inv (s.setTxn t txn) := by
  have hk (t' : TxnId) : Keeps s (s.setTxn t txn) t' :=
    .of_rows rfl (fun _ h => h) (fun _ h => h)
  exact h.of_setTxn hk rfl (hok.keep (hk t))

theorem inv_begin {request : Request} (h : Inv s) (hstep : s.begin t request = some s') :
    Inv s' := by
  unfold State.begin at hstep
  split at hstep
  · cases hstep
    exact h.setPhase trivial
  · cases hstep

/-- The evaluation is locked. -/
theorem Keeps.takeEvaluation {e : UUID} (h : s.evaluationLock.mayTake e t = true) :
    Keeps s ({ s with evaluationLock := s.evaluationLock.take e t }.setTxn t txn) t' :=
  .of_rows rfl (fun _ hheld => Locks.held_take h hheld) fun _ h => h

/-- A scenario is locked. -/
theorem Keeps.takeScenario {id : UUID} (h : s.scenarioLock.mayTake id t = true) :
    Keeps s ({ s with scenarioLock := s.scenarioLock.take id t }.setTxn t txn) t' :=
  .of_rows rfl (fun _ h => h) fun _ hheld => Locks.held_take h hheld

theorem inv_lockEvaluation (h : Inv s) (ht : s.txns t = some txn)
    (hstep : State.lockEvaluation env s t txn = some s') : Inv s' := by
  have hok := h t txn ht
  unfold State.lockEvaluation at hstep
  split at hstep
  · rename_i evaluationId payload hphase hrequest
    split at hstep
    · rename_i hfree
      cases hstep
      apply h.of_setTxn (fun t' => .takeEvaluation hfree.2) rfl
      intro e payload' hsame
      rw [hrequest] at hsame
      cases hsame
      exact Locks.take_self _ _ _
    · cases hstep
  · rename_i row _ _ _ _ _ hphase hrequest
    rw [hphase] at hok
    split at hstep
    · rename_i hfree
      cases hstep
      apply h.of_setTxn (fun t' => .takeEvaluation hfree.2) rfl
      exact ⟨hok, Locks.take_self _ _ _⟩
    · cases hstep
  · cases hstep

theorem inv_lockScenario (h : Inv s)
    (hstep : State.lockScenario env s t txn = some s') : Inv s' := by
  unfold State.lockScenario at hstep
  split at hstep
  · split at hstep
    · split at hstep
      · rename_i hfree
        cases hstep
        exact h.of_setTxn (fun t' => .takeScenario hfree) rfl (Locks.take_self _ _ _)
      · cases hstep
    · cases hstep
  · split at hstep
    · split at hstep
      · rename_i hfree
        cases hstep
        exact h.of_setTxn (fun t' => .takeScenario hfree) rfl (Locks.take_self _ _ _)
      · cases hstep
    · cases hstep
  · cases hstep

theorem inv_select (h : Inv s) (hstep : s.select t txn = some s') : Inv s' := by
  unfold State.select at hstep
  split at hstep
  · cases hstep
    apply h.setPhase
    refine ⟨?_, fun r hr => by cases hr⟩
    rw [List.map_nil, List.append_nil]
    exact nodup_liveIds
  · cases hstep

/-- What `get_scenario` finds. -/
theorem getScenario_eq_some {rows : Table Scenario} {evaluationId id : UUID} {r : Scenario} :
    getScenario rows evaluationId id = some r ↔
      r ∈ rows ∧ key r = id ∧ live r = true ∧ r.evaluationId = evaluationId := by
  rw [getScenario, Option.filter_eq_some_iff, findLive_eq_some, beq_iff_eq]
  simp only [and_assoc]

/-- The next row of a reorder is locked, and taken when it is still live. -/
theorem inv_lockNext {id : UUID} (h : Inv s) (ht : s.txns t = some txn)
    (hstep : s.lockNext id t txn = some s') : Inv s' := by
  have hok := h t txn ht
  unfold State.lockNext at hstep
  split at hstep
  · rename_i wanted got evaluationId payload hphase hrequest
    rw [hphase] at hok
    obtain ⟨hnodup, hgot⟩ := hok
    split at hstep
    · rename_i hfree
      obtain ⟨hwanted, hfree⟩ := hfree
      -- The row that is locked leaves the wanted ids, and joins the taken ones.
      have hperm : (id :: wanted.erase id).Perm wanted := (List.perm_cons_erase hwanted).symm
      have hnodup' : (id :: (wanted.erase id ++ got.map key)).Nodup :=
        (hperm.append_right (got.map key)).nodup_iff.mpr hnodup
      split at hstep
      · rename_i row hrow
        obtain ⟨hmem, hkey, hlive, hevaluation⟩ := getScenario_eq_some.mp hrow
        cases hstep
        apply h.of_setTxn (fun t' => .takeScenario hfree) rfl
        constructor
        · show (wanted.erase id ++ key row :: got.map key).Nodup
          rw [hkey]
          exact List.perm_middle.nodup_iff.mpr hnodup'
        · intro r hr
          rcases List.mem_cons.mp hr with rfl | hr
          · refine ⟨⟨hmem, ?_⟩, hlive, ?_⟩
            · rw [hkey]
              exact Locks.take_self _ _ _
            · intro e payload' hsame
              rw [hrequest] at hsame
              cases hsame
              exact hevaluation
          · obtain ⟨hheld, hrest⟩ := hgot r hr
            exact ⟨hheld.keep (.takeScenario hfree), hrest⟩
      · cases hstep
        apply h.setPhase
        -- The row is gone by now, and the reorder goes on without it.
        exact ⟨hnodup'.of_cons, hgot⟩
    · cases hstep
  · cases hstep

/-- The next position is read under the lock of the evaluation. A reorder checks the rows that it
holds. -/
theorem inv_write {now : Time} {id : UUID} (h : Inv s) (hdistinct : PositionsDistinct s.rows)
    (ht : s.txns t = some txn) (hstep : s.write now id t txn = some s') : Inv s' := by
  have hok := h t txn ht
  unfold State.write at hstep
  split at hstep
  · -- A create.
    rename_i evaluationId payload hphase hrequest
    rw [hphase] at hok
    cases hstep
    apply h.setPhase
    exact ⟨hok evaluationId payload hrequest, appends_nextPosition hdistinct⟩
  · -- A delete, which reads no position.
    rename_i row _ _ _ hphase hrequest
    rw [hphase] at hok
    cases hstep
    apply h.setPhase
    exact ⟨hok, live_softDelete _ _ _⟩
  · -- A restore, which goes to the end.
    rename_i row _ _ _ _ _ hphase hrequest
    rw [hphase] at hok
    cases hstep
    apply h.setPhase
    exact ⟨hok.1, hok.2, appends_nextPosition hdistinct⟩
  · -- A reorder has taken all its rows, and checks them.
    rename_i got evaluationId payload hphase hrequest
    rw [hphase] at hok
    obtain ⟨hnodup, hgot⟩ := hok
    split at hstep
    · rename_i rows haccepted
      cases hstep
      apply h.setPhase
      refine ⟨evaluationId, payload, got, hrequest, fun r hr => (hgot r hr).1, ?_⟩
      refine ⟨hnodup, ?_, haccepted⟩
      intro r hr
      obtain ⟨hheld, hlive, hevaluation⟩ := hgot r hr
      exact ⟨hheld.mem, hlive, hevaluation evaluationId payload hrequest⟩
    · cases hstep
  · cases hstep

/-- The commit of `t` leaves the others what they hold, when it writes only rows that nobody else
holds, and leaves the last positions of the evaluations of the others. -/
theorem Inv.of_commit {rows : Table Scenario} (h : Inv s)
    (hrows : ∀ t' r, t' ≠ t → Holds s t' r → r ∈ rows)
    (hlast : ∀ t' e p, t' ≠ t → s.evaluationLock e = some t' → Appends s.rows e p →
      Appends rows e p) :
    Inv (State.finish { s with rows } t) := by
  apply Records.forall_drop
  intro t' txn' hne ht'
  have hk : Keeps s (State.finish { s with rows } t) t' := {
    evaluationLock := fun _ hheld => Locks.held_release hne hheld
    scenarioLock := fun _ hheld => Locks.held_release hne hheld
    rows := fun r hr => hrows t' r hne hr
    last := fun e p hheld happ => hlast t' e p hne hheld happ }
  exact (h t' txn' ht').keep hk

/-- Two transactions do not hold one lock. -/
theorem lock_ne {locks : Locks UUID TxnId} {k k' : UUID} (hne : t' ≠ t) (h : locks k = some t)
    (h' : locks k' = some t') : k ≠ k' := by
  rintro rfl
  rw [h] at h'
  exact hne (Option.some.inj h').symm

/-- The row that `t` writes is not one that another transaction holds. -/
theorem mem_overwrite_held {row r : Scenario} (hne : t' ≠ t)
    (hlock : s.scenarioLock (key row) = some t) (hr : Holds s t' r) :
    r ∈ s.rows.overwrite [row] :=
  mem_overwrite_one.mpr (Or.inr ⟨hr.mem, lock_ne hne hlock hr.lock⟩)

theorem inv_commit (h : Inv s) (ht : s.txns t = some txn) (hstep : s.commit t txn = some s') :
    Inv s' := by
  have hok := h t txn ht
  unfold State.commit at hstep
  split at hstep
  · -- A create. Whoever holds the same evaluation would have waited.
    rename_i row hphase
    rw [hphase] at hok
    obtain ⟨rows, hinsert, rfl⟩ := Option.map_eq_some_iff.mp hstep
    apply h.of_commit
    · intro t' r hne hr
      exact (mem_insert hinsert).mpr (Or.inl hr.mem)
    · intro t' e p hne hheld happ
      exact happ.adds (adds_insert hinsert) fun _ => lock_ne hne hok.1 hheld
  · -- A delete adds no live row.
    rename_i row hphase
    rw [hphase] at hok
    cases hstep
    apply h.of_commit
    · intro t' r hne hr
      exact mem_overwrite_held hne hok.1 hr
    · intro t' e p hne hheld happ
      apply happ.adds adds_overwrite
      intro hlive
      rw [hok.2] at hlive
      cases hlive
  · -- A restore, behind the lock of its evaluation.
    rename_i row hphase
    rw [hphase] at hok
    cases hstep
    apply h.of_commit
    · intro t' r hne hr
      exact mem_overwrite_held hne hok.1 hr
    · intro t' e p hne hheld happ
      exact happ.adds adds_overwrite fun _ => lock_ne hne hok.2.1 hheld
  · -- A reorder writes over rows that it has locked.
    rename_i new hphase
    rw [hphase] at hok
    obtain ⟨evaluationId, payload, got, -, hgot, hordered⟩ := hok
    cases hstep
    apply h.of_commit
    · intro t' r hne hr
      apply hordered.mem_overwrite.mpr
      refine Or.inr ⟨hr.mem, fun hid => ?_⟩
      have hmine := hgot r (hordered.mem_got hr.mem hid)
      exact lock_ne hne hmine.lock hr.lock rfl
    · intro t' e p _ _ happ
      exact happ.order hordered payload.nodup
  · cases hstep

theorem inv_abort (h : Inv s) : Inv (s.finish t) := by
  exact h.of_commit (fun _ _ _ hr => hr.mem) fun _ _ _ _ _ happ => happ

/-- What a step with distinct positions keeps. -/
theorem Inv.of_step {l : Label} (h : Inv s) (hdistinct : PositionsDistinct s.rows)
    (hstep : step env s l = some s') : Inv s' := by
  cases l with
  | begin t request => exact inv_begin h hstep
  | lockEvaluation t =>
    obtain ⟨txn, ht, hstep⟩ := Option.bind_eq_some_iff.mp hstep
    exact inv_lockEvaluation h ht hstep
  | lockScenario t =>
    obtain ⟨txn, ht, hstep⟩ := Option.bind_eq_some_iff.mp hstep
    exact inv_lockScenario h hstep
  | select t =>
    obtain ⟨txn, ht, hstep⟩ := Option.bind_eq_some_iff.mp hstep
    exact inv_select h hstep
  | lockNext t id =>
    obtain ⟨txn, ht, hstep⟩ := Option.bind_eq_some_iff.mp hstep
    exact inv_lockNext h ht hstep
  | write t now id =>
    obtain ⟨txn, ht, hstep⟩ := Option.bind_eq_some_iff.mp hstep
    exact inv_write h hdistinct ht hstep
  | commit t =>
    obtain ⟨txn, ht, hstep⟩ := Option.bind_eq_some_iff.mp hstep
    exact inv_commit h ht hstep
  | abort t =>
    obtain ⟨txn, -, hstep⟩ := Option.map_eq_some_iff.mp hstep
    subst hstep
    exact inv_abort h

/-! ### A step, and the positions -/

/-- Only a commit writes the committed rows. -/
theorem rows_of_step {l : Label} (hcommit : ∀ t, l ≠ .commit t) (hstep : step env s l = some s') :
    s'.rows = s.rows := by
  cases l with
  | begin t request =>
    simp only [step, State.begin] at hstep
    split at hstep <;> cases hstep
    rfl
  | lockEvaluation t =>
    obtain ⟨txn, -, hstep⟩ := Option.bind_eq_some_iff.mp hstep
    unfold State.lockEvaluation at hstep
    split at hstep
    · split at hstep <;> cases hstep
      rfl
    · split at hstep <;> cases hstep
      rfl
    · cases hstep
  | lockScenario t =>
    obtain ⟨txn, -, hstep⟩ := Option.bind_eq_some_iff.mp hstep
    unfold State.lockScenario at hstep
    split at hstep
    · split at hstep
      · split at hstep <;> cases hstep
        rfl
      · cases hstep
    · split at hstep
      · split at hstep <;> cases hstep
        rfl
      · cases hstep
    · cases hstep
  | select t =>
    obtain ⟨txn, -, hstep⟩ := Option.bind_eq_some_iff.mp hstep
    unfold State.select at hstep
    split at hstep <;> cases hstep
    rfl
  | lockNext t id =>
    obtain ⟨txn, -, hstep⟩ := Option.bind_eq_some_iff.mp hstep
    unfold State.lockNext at hstep
    split at hstep
    · split at hstep
      · split at hstep <;> cases hstep <;> rfl
      · cases hstep
    · cases hstep
  | write t now id =>
    obtain ⟨txn, -, hstep⟩ := Option.bind_eq_some_iff.mp hstep
    unfold State.write at hstep
    split at hstep
    · cases hstep
      rfl
    · cases hstep
      rfl
    · cases hstep
      rfl
    · split at hstep <;> cases hstep
      rfl
    · cases hstep
  | commit t => exact absurd rfl (hcommit t)
  | abort t =>
    obtain ⟨txn, -, hstep⟩ := Option.map_eq_some_iff.mp hstep
    subst hstep
    rfl

/-- What a commit does to the positions. -/
theorem distinct_commit_iff (h : Inv s) (hdistinct : PositionsDistinct s.rows)
    (ht : s.txns t = some txn) (hstep : s.commit t txn = some s') :
    PositionsDistinct s'.rows ↔ ListsFront s (.commit t) := by
  have hok := h t txn ht
  -- a commit of another phase than `reordered` is not restricted
  have hother : ∀ P : Prop, P → (∀ new, txn.phase ≠ .reordered new) →
      (P ↔ ListsFront s (.commit t)) := by
    intro P hP hphase
    refine ⟨fun _ => ?_, fun _ => hP⟩
    intro evaluationId payload new hreorder
    rw [ht] at hreorder
    cases hreorder
    exact absurd rfl (hphase new)
  unfold State.commit at hstep
  split at hstep
  · rename_i row hphase
    rw [hphase] at hok
    obtain ⟨rows, hinsert, rfl⟩ := Option.map_eq_some_iff.mp hstep
    apply hother
    · exact hdistinct.adds (adds_insert hinsert) fun _ => hok.2
    · simp [hphase]
  · rename_i row hphase
    rw [hphase] at hok
    cases hstep
    apply hother
    · apply hdistinct.adds adds_overwrite
      intro hlive
      rw [hok.2] at hlive
      cases hlive
    · simp [hphase]
  · rename_i row hphase
    rw [hphase] at hok
    cases hstep
    apply hother
    · exact hdistinct.adds adds_overwrite fun _ => hok.2.2
    · simp [hphase]
  · rename_i new hphase
    rw [hphase] at hok
    obtain ⟨evaluationId, payload, got, hrequest, -, hordered⟩ := hok
    cases hstep
    have hiff := hordered.distinct_iff payload.nodup hdistinct
    have htxn : s.txns t = some ⟨.reorder evaluationId payload, .reordered new⟩ := by
      rw [ht, ← hrequest, ← hphase]
    refine hiff.trans ⟨fun hfront => ?_, fun hlists => ?_⟩
    · intro e payload' new' hsame
      rw [htxn] at hsame
      cases hsame
      exact hfront
    · exact hlists evaluationId payload new htxn
  · cases hstep

/-- A step keeps the positions distinct exactly when it does not commit a reorder that misses a
scenario at the front. -/
theorem distinct_step_iff {l : Label} (h : Inv s) (hdistinct : PositionsDistinct s.rows)
    (hstep : step env s l = some s') : PositionsDistinct s'.rows ↔ ListsFront s l := by
  by_cases hcommit : ∀ t, l ≠ .commit t
  · rw [rows_of_step hcommit hstep]
    refine iff_of_true hdistinct ?_
    cases l with
    | commit t => exact absurd rfl (hcommit t)
    | _ => trivial
  · obtain ⟨t, hl⟩ := not_forall.mp hcommit
    have hl : l = .commit t := not_not.mp hl
    subst hl
    obtain ⟨txn, ht, hstep⟩ := Option.bind_eq_some_iff.mp hstep
    exact distinct_commit_iff h hdistinct ht hstep

end

/-! ### A reorder that runs alone -/

/-- A step of the open transaction `t`. -/
def Label.continues (t : TxnId) : Label → Prop
  | .begin _ _ => False
  | .lockEvaluation t' | .lockScenario t' | .select t' | .lockNext t' _ | .write t' _ _
  | .commit t' | .abort t' => t' = t

/-- Where a reorder is that runs alone, on these rows. It holds all that it found, or wants it. -/
def AlonePhase (rows : Table Scenario) (evaluationId : UUID) (payload : ScenarioReorderRequest) :
    Phase → Prop
  | .begun => True
  | .selecting wanted got => (wanted ++ got.map key).Nodup ∧
      (∀ r ∈ got, r ∈ rows ∧ live r = true ∧ r.evaluationId = evaluationId) ∧
      ∀ id ∈ liveIds rows evaluationId, id ∈ wanted ∨ id ∈ got.map key
  | .reordered new => ∃ got, Ordered rows evaluationId payload.scenarioIds got new ∧
      ∀ id ∈ liveIds rows evaluationId, id ∈ got.map key
  | _ => False

/-- The rows are as they were, and the transaction is the reorder, if it is still open. -/
structure Alone (before : Table Scenario) (evaluationId : UUID) (payload : ScenarioReorderRequest)
    (t : TxnId) (s : State) : Prop where
  rows : s.rows = before
  txn : ∀ txn, s.txns t = some txn →
    txn.request = .reorder evaluationId payload ∧ AlonePhase before evaluationId payload txn.phase

section
variable {env : Env} {s s' : State} {t : TxnId} {before : Table Scenario} {evaluationId : UUID}
  {payload : ScenarioReorderRequest} {txn : Txn}

/-- A step that only moves the reorder on, and may take a lock. -/
theorem Alone.setPhase {scenarioLock : Locks UUID TxnId} {phase : Phase}
    (h : Alone before evaluationId payload t s)
    (hrequest : txn.request = .reorder evaluationId payload)
    (hphase : AlonePhase before evaluationId payload phase) :
    Alone before evaluationId payload t
      (State.setTxn { s with scenarioLock } t { txn with phase }) where
  rows := h.rows
  txn txn' ht' := by
    have hself : (State.setTxn { s with scenarioLock } t { txn with phase }).txns t =
      some { txn with phase } := Records.set_self
    rw [hself] at ht'
    cases ht'
    exact ⟨hrequest, hphase⟩

theorem alone_select (h : Alone before evaluationId payload t s) (ht : s.txns t = some txn)
    (hstep : s.select t txn = some s') : Alone before evaluationId payload t s' := by
  obtain ⟨hrequest, -⟩ := h.txn txn ht
  unfold State.select at hstep
  split at hstep
  · rename_i e payload' hphase hreorder
    rw [hrequest] at hreorder
    cases hreorder
    cases hstep
    apply h.setPhase hrequest
    rw [h.rows]
    refine ⟨?_, ?_, fun id hid => Or.inl hid⟩
    · rw [List.map_nil, List.append_nil]
      exact nodup_liveIds
    · intro r hr
      cases hr
  · cases hstep

theorem alone_lockNext {id : UUID} (h : Alone before evaluationId payload t s)
    (ht : s.txns t = some txn) (hstep : s.lockNext id t txn = some s') :
    Alone before evaluationId payload t s' := by
  obtain ⟨hrequest, hok⟩ := h.txn txn ht
  unfold State.lockNext at hstep
  split at hstep
  · rename_i wanted got e payload' hphase hreorder
    rw [hrequest] at hreorder
    cases hreorder
    rw [hphase] at hok
    obtain ⟨hnodup, hgot, hall⟩ := hok
    split at hstep
    · rename_i hfree
      have hperm : (id :: wanted.erase id).Perm wanted := (List.perm_cons_erase hfree.1).symm
      have hnodup' : (id :: (wanted.erase id ++ got.map key)).Nodup :=
        (hperm.append_right (got.map key)).nodup_iff.mpr hnodup
      have hwanted (id' : UUID) (hid' : id' ∈ wanted) : id' = id ∨ id' ∈ wanted.erase id :=
        List.mem_cons.mp (hperm.mem_iff.mpr hid')
      split at hstep
      · rename_i row hrow
        obtain ⟨hmem, hkey, hlive, hevaluation⟩ := getScenario_eq_some.mp hrow
        rw [h.rows] at hmem
        cases hstep
        apply h.setPhase hrequest
        refine ⟨?_, ?_, ?_⟩
        · show (wanted.erase id ++ key row :: got.map key).Nodup
          rw [hkey]
          exact List.perm_middle.nodup_iff.mpr hnodup'
        · intro r hr
          rcases List.mem_cons.mp hr with rfl | hr
          · exact ⟨hmem, hlive, hevaluation⟩
          · exact hgot r hr
        · intro id' hid'
          rw [List.map_cons, List.mem_cons, hkey]
          rcases hall id' hid' with hin | hin
          · rcases hwanted id' hin with rfl | hin
            · exact Or.inr (Or.inl rfl)
            · exact Or.inl hin
          · exact Or.inr (Or.inr hin)
      · rename_i hnone
        cases hstep
        apply h.setPhase hrequest
        refine ⟨hnodup'.of_cons, hgot, ?_⟩
        intro id' hid'
        rcases hall id' hid' with hin | hin
        · rcases hwanted id' hin with rfl | hin
          · -- nobody deletes a scenario that the reorder wants
            obtain ⟨r, hr, hlive, hevaluation, hkey⟩ := mem_liveIds.mp hid'
            rw [← h.rows] at hr
            rw [getScenario_eq_some.mpr ⟨hr, hkey, hlive, hevaluation⟩] at hnone
            cases hnone
          · exact Or.inl hin
        · exact Or.inr hin
    · cases hstep
  · cases hstep

theorem alone_write {now : Time} {id : UUID} (h : Alone before evaluationId payload t s)
    (ht : s.txns t = some txn) (hstep : s.write now id t txn = some s') :
    Alone before evaluationId payload t s' := by
  obtain ⟨hrequest, hok⟩ := h.txn txn ht
  unfold State.write at hstep
  split at hstep
  · -- The first three writes are those of other requests.
    rename_i hreorder
    rw [hrequest] at hreorder
    cases hreorder
  · rename_i hreorder
    rw [hrequest] at hreorder
    cases hreorder
  · rename_i hreorder
    rw [hrequest] at hreorder
    cases hreorder
  · rename_i got e payload' hphase hreorder
    rw [hrequest] at hreorder
    cases hreorder
    rw [hphase] at hok
    obtain ⟨hnodup, hgot, hall⟩ := hok
    split at hstep
    · rename_i new haccepted
      cases hstep
      apply h.setPhase hrequest
      refine ⟨got, ⟨hnodup, hgot, haccepted⟩, fun id' hid' => ?_⟩
      -- No id is wanted any more, so all of them are taken.
      rcases hall id' hid' with hin | hin
      · cases hin
      · exact hin
    · cases hstep
  · cases hstep

/-- A reorder that runs alone stays so, up to its commit. -/
theorem alone_step {l : Label} (hl : l.continues t) (h : Alone before evaluationId payload t s)
    (hstep : step env s l = some s') :
    Alone before evaluationId payload t s' ∨ s'.txns t = none := by
  cases l with
  | begin t' request => exact hl.elim
  | lockEvaluation t' =>
    cases hl
    obtain ⟨txn, ht, hstep⟩ := Option.bind_eq_some_iff.mp hstep
    obtain ⟨hrequest, hok⟩ := h.txn txn ht
    unfold State.lockEvaluation at hstep
    split at hstep
    · -- A reorder does not lock its evaluation, and no single scenario.
      rename_i hreorder
      rw [hrequest] at hreorder
      cases hreorder
    · rename_i hreorder
      rw [hrequest] at hreorder
      cases hreorder
    · cases hstep
  | lockScenario t' =>
    cases hl
    obtain ⟨txn, ht, hstep⟩ := Option.bind_eq_some_iff.mp hstep
    obtain ⟨hrequest, hok⟩ := h.txn txn ht
    unfold State.lockScenario at hstep
    split at hstep
    · rename_i hreorder
      rw [hrequest] at hreorder
      cases hreorder
    · rename_i hreorder
      rw [hrequest] at hreorder
      cases hreorder
    · cases hstep
  | select t' =>
    cases hl
    obtain ⟨txn, ht, hstep⟩ := Option.bind_eq_some_iff.mp hstep
    exact Or.inl (alone_select h ht hstep)
  | lockNext t' id =>
    cases hl
    obtain ⟨txn, ht, hstep⟩ := Option.bind_eq_some_iff.mp hstep
    exact Or.inl (alone_lockNext h ht hstep)
  | write t' now id =>
    cases hl
    obtain ⟨txn, ht, hstep⟩ := Option.bind_eq_some_iff.mp hstep
    exact Or.inl (alone_write h ht hstep)
  | commit t' =>
    cases hl
    obtain ⟨txn, ht, hstep⟩ := Option.bind_eq_some_iff.mp hstep
    right
    unfold State.commit at hstep
    split at hstep
    · obtain ⟨rows, -, rfl⟩ := Option.map_eq_some_iff.mp hstep
      exact Records.drop_self
    · cases hstep
      exact Records.drop_self
    · cases hstep
      exact Records.drop_self
    · cases hstep
      exact Records.drop_self
    · cases hstep
  | abort t' =>
    cases hl
    obtain ⟨txn, -, hstep⟩ := Option.map_eq_some_iff.mp hstep
    subst hstep
    exact Or.inr Records.drop_self

/-- A transaction that is not open takes no step. -/
theorem closed_step {l : Label} (hl : l.continues t) (hclosed : s.txns t = none) :
    step env s l = none := by
  cases l with
  | begin t' request => exact hl.elim
  | abort t' =>
    cases hl
    simp only [step, hclosed, Option.map_none]
  | _ =>
    cases hl
    simp only [step, hclosed, Option.bind_none]

/-- A run of steps of the reorder, up to its commit. -/
theorem alone_run {ls : List Label} (hls : ∀ l ∈ ls, l.continues t)
    (h : Alone before evaluationId payload t s) (hrun : run (step env) s ls = some s') :
    Alone before evaluationId payload t s' ∨ s'.txns t = none := by
  induction ls generalizing s with
  | nil =>
    cases hrun
    exact Or.inl h
  | cons l ls ih =>
    obtain ⟨s₁, h₁, h₂⟩ := (run_cons_eq_some (step env)).mp hrun
    have hl : l.continues t := hls l List.mem_cons_self
    have hls' : ∀ l' ∈ ls, l'.continues t := fun l' hl' => hls l' (List.mem_cons_of_mem _ hl')
    rcases alone_step hl h h₁ with halone | hclosed
    · exact ih hls' halone h₂
    · cases ls with
      | nil =>
        cases h₂
        exact Or.inr hclosed
      | cons l' ls =>
        rw [run_cons, closed_step (hls' l' List.mem_cons_self) hclosed, Option.bind_none] at h₂
        cases h₂

/-- A reorder that runs alone leaves its ids, in their order, as the live scenarios. -/
theorem reorder_alone {ls : List Label} (hls : ∀ l ∈ ls, l.continues t)
    (hrun : run (step env) s (.begin t (.reorder evaluationId payload) :: (ls ++ [.commit t])) =
      some s') (i : Nat) (id : UUID) :
    payload.scenarioIds[i]? = some id ↔
      ∃ r ∈ s'.rows, live r = true ∧ r.evaluationId = evaluationId ∧ key r = id ∧
        r.position = i := by
  obtain ⟨s₁, hbegin, hrun⟩ := (run_cons_eq_some (step env)).mp hrun
  obtain ⟨s₂, hrun, hcommit⟩ := (run_append_eq_some (step env)).mp hrun
  obtain ⟨s₃, hcommit, hnil⟩ := (run_cons_eq_some (step env)).mp hcommit
  cases hnil
  -- The run is a begin, the steps in between, and the commit.
  have hstart : Alone s.rows evaluationId payload t s₁ := by
    simp only [step, State.begin] at hbegin
    split at hbegin
    · cases hbegin
      refine ⟨rfl, fun txn ht => ?_⟩
      have hself : (s.setTxn t { request := .reorder evaluationId payload }).txns t =
        some { request := .reorder evaluationId payload } := Records.set_self
      rw [hself] at ht
      cases ht
      exact ⟨rfl, trivial⟩
    · cases hbegin
  obtain ⟨txn, ht, hcommit⟩ := Option.bind_eq_some_iff.mp hcommit
  rcases alone_run hls hstart hrun with halone | hclosed
  · obtain ⟨hrequest, hok⟩ := halone.txn txn ht
    unfold State.commit at hcommit
    split at hcommit
    · rename_i hphase
      rw [hphase] at hok
      exact hok.elim
    · rename_i hphase
      rw [hphase] at hok
      exact hok.elim
    · rename_i hphase
      rw [hphase] at hok
      exact hok.elim
    · -- The commit is that of a reorder, and the rows are still those of the beginning.
      rename_i new hphase
      rw [hphase] at hok
      obtain ⟨got, hordered, hall⟩ := hok
      cases hcommit
      show _ ↔ ∃ r ∈ s₂.rows.overwrite new, _
      rw [halone.rows]
      exact hordered.mem_iff payload.nodup hall i id
    · cases hcommit
  · rw [hclosed] at ht
    cases ht

end

/-! ### Over all runs -/

/-- A run from distinct positions keeps them distinct exactly when each reorder that commits lists
every live scenario at the front. A reorder that runs alone leaves the live scenarios of its
evaluation at the positions `0..n-1`, in the submitted order. -/
theorem positions_distinct_iff (env : Env) :
    (∀ (s s' : State) (ls : List Label), Start s → run (step env) s ls = some s' →
      (Always (step env) (fun s => PositionsDistinct s.rows) s ls ↔
        Along (step env) ListsFront s ls)) ∧
    ∀ (s s' : State) (t : TxnId) (evaluationId : UUID) (payload : ScenarioReorderRequest)
      (ls : List Label), (∀ l ∈ ls, l.continues t) →
      run (step env) s (.begin t (.reorder evaluationId payload) :: (ls ++ [.commit t])) =
        some s' → ∀ (i : Nat) (id : UUID), payload.scenarioIds[i]? = some id ↔
        ∃ r ∈ s'.rows, live r = true ∧ r.evaluationId = evaluationId ∧ key r = id ∧
          r.position = i := by
  constructor
  · intro s s' ls hstart hrun
    have hinv : Inv s := by
      intro t txn ht
      rw [hstart.txns t] at ht
      cases ht
    exact always_iff_along (I := Inv) (fun _ _ _ h hdistinct hstep => h.of_step hdistinct hstep)
      (fun _ _ _ h hdistinct hstep => distinct_step_iff h hdistinct hstep) hinv
        hstart.distinct hrun
  · intro s s' t evaluationId payload ls hls hrun i id
    exact reorder_alone hls hrun i id

/-! ### A reorder that misses a scenario -/

/-- One live evaluation, 10, in the group 5. -/
def oneEvaluation : Env where
  groups := ⟨[{ id := 5, createdAt := 0, createdById := 1 }], by decide⟩
  evaluations :=
    ⟨[{ id := 10, createdAt := 0, title := "Pilot", createdById := 1, evaluationGroupId := 5 }],
      by decide⟩

/-- Two scenarios in order. -/
def twoScenarios : State where
  rows :=
    ⟨[{ id := 1, createdAt := 0, name := "A", description := "a", evaluationId := 10,
        position := 0 },
      { id := 2, createdAt := 0, name := "B", description := "b", evaluationId := 10,
        position := 1 }], by decide⟩

theorem start_twoScenarios : Start twoScenarios where
  txns _ := rfl
  distinct := by decide

/-- The order of the two scenarios. -/
def bothInOrder : ScenarioReorderRequest where
  scenarioIds := [1, 2]
  nonempty := by decide
  nodup := by decide

/-- The order with a third scenario before them. -/
def newFirst : ScenarioReorderRequest where
  scenarioIds := [3, 1, 2]
  nonempty := by decide
  nodup := by decide

/-- A reorder starts its statement. Before it comes to the first row, a scenario is created, and
another reorder moves it to the front. -/
def overtaken : List Label :=
  [.begin 1 (.reorder 10 bothInOrder), .select 1,
    .begin 2 (.create 10 { name := "C", description := "c" }), .lockEvaluation 2, .write 2 0 3,
    .commit 2,
    .begin 3 (.reorder 10 newFirst), .select 3, .lockNext 3 1, .lockNext 3 2, .lockNext 3 3,
    .write 3 0 0, .commit 3,
    .lockNext 1 1, .lockNext 1 2, .write 1 0 0, .commit 1]

/-- The first reorder misses the new scenario. Both the new one and the first one of its list are
at position 0. -/
theorem positions_collide :
    ¬ ∀ (env : Env) (s s' : State) (ls : List Label), Start s → run (step env) s ls = some s' →
      PositionsDistinct s'.rows := by
  intro hall
  have hany : (run (step oneEvaluation) twoScenarios overtaken).any
      (fun s => !decide (PositionsDistinct s.rows)) = true := by
    decide +kernel
  obtain ⟨s', hrun, hcollide⟩ := exists_run_of_any hany
  have hdistinct := hall oneEvaluation twoScenarios s' overtaken start_twoScenarios hrun
  simp [hdistinct] at hcollide

/-- A reorder of the two scenarios. -/
def secondFirst : List Label :=
  .begin 1 (.reorder 10 ⟨[2, 1], by decide, by decide⟩) ::
    ([.select 1, .lockNext 1 1, .lockNext 1 2, .write 1 0 0] ++ [.commit 1])

/-- It runs alone, and the second scenario comes first. -/
theorem positions_distinct_iff_reordered :
    ∃ s', run (step oneEvaluation) twoScenarios secondFirst = some s' ∧
      (Always (step oneEvaluation) (fun s => PositionsDistinct s.rows) twoScenarios secondFirst ↔
        Along (step oneEvaluation) ListsFront twoScenarios secondFirst) ∧
      ∃ r ∈ s'.rows, live r = true ∧ r.evaluationId = 10 ∧ key r = 2 ∧ r.position = 0 := by
  have hany : (run (step oneEvaluation) twoScenarios secondFirst).any (fun _ => true) = true := by
    decide +kernel
  obtain ⟨s', hrun, -⟩ := exists_run_of_any hany
  obtain ⟨hiff, halone⟩ := positions_distinct_iff oneEvaluation
  have hcontinues : ∀ l ∈ [Label.select 1, .lockNext 1 1, .lockNext 1 2, .write 1 0 0],
      l.continues 1 := by
    simp [Label.continues]
  have hplaced := (halone twoScenarios s' 1 10 _ _ hcontinues hrun 0 2).mp rfl
  exact ⟨s', hrun, hiff _ _ _ start_twoScenarios hrun, hplaced⟩

end RedTeaming.Evaluations.Scenarios
