import Mathlib.Data.List.Sort
import RedTeaming.Conversations.KeyRotation
import RedTeaming.Conversations.MessageHistory

/-!
# `RedTeaming.Conversations.Rewrap`: the sweep of a key rotation

`services/rewrap.py`. The sweep reads the stale rows in chunks, by a cursor on the id, and seals
each row again under the active key. A row that no key opens is counted and stepped over.

`Sweep` is the loop's state. Before each statement the other writers may do anything to the store,
which is the parameter `others`. A sweep that runs alone has `others` do nothing. Two lists of
facts follow: what the loop does against any others (it ends, and its counts add up), and what it
does alone (every text stays, and the rows that are left stale are the ones that no key opens).
-/

set_option autoImplicit false

namespace RedTeaming.Conversations

open RedTeaming.Library

/-- `_stale_predicate`: a sealed row that is not in the current format under the active key. -/
def isStale (kid : String) (m : Message) : Bool :=
  m.contentEncrypted && !(kid ++ ":" ++ envelope).toList.isPrefixOf m.content.toList

/-- `stale_message_count`. -/
def staleMessageCount (kid : String) (store : Store) : Nat :=
  (store.messages.filter (isStale kid)).length

/-- `_rewrap_row`: whether the write landed. -/
def rewrapRow (env : Env) (nonce : Nonce) (store : Store) (id : MessageId) (stale : String) :
    Except CryptoError (Store × Bool) := do
  let opened ← unsealContent env.primitives env.settings stale true
  let (fresh, encrypted) ← sealContent env.primitives env.settings nonce opened true
  return store.write id (.rewrap stale fresh encrypted)

/-- The order of a chunk. -/
def rowLe (a b : MessageId × String) : Prop := a.1 ≤ b.1

instance : DecidableRel rowLe := fun a b => Nat.decLe a.1 b.1

instance : Std.Total rowLe := ⟨fun a b => Nat.le_total a.1 b.1⟩

instance : IsTrans (MessageId × String) rowLe := ⟨fun _ _ _ hab hbc => Nat.le_trans hab hbc⟩

/-- The row is behind the cursor. -/
def isPast (cursor : Option MessageId) (id : MessageId) : Bool := cursor.all fun c => c < id

/-- The stale rows behind the cursor, by id. -/
def staleRows (kid : String) (cursor : Option MessageId) (store : Store) :
    List (MessageId × String) :=
  ((store.messages.filter fun m => isStale kid m && isPast cursor m.id).map
    fun m => (m.id, m.content)).insertionSort rowLe

/-- `RewrapResult`. -/
structure RewrapResult where
  moved : Nat := 0
  unreadable : Nat := 0
  skipped : Nat := 0
deriving DecidableEq

/-- The state of the loop. `clock` counts its statements, and `examined` has the rows that it
read. -/
structure Sweep where
  store : Store
  result : RewrapResult := {}
  clock : Nat := 0
  examined : List (MessageId × String) := []

/-- The next statement of the sweep. The others were there before it. -/
def Sweep.next (others : Nat → Store → Store) (sweep : Sweep) : Sweep :=
  { sweep with store := others sweep.clock sweep.store, clock := sweep.clock + 1 }

/-- One row of a chunk. -/
def Sweep.row (env : Env) (nonces : Nat → Nonce) (others : Nat → Store → Store) (sweep : Sweep)
    (row : MessageId × String) : Except CryptoError Sweep :=
  let sweep := sweep.next others
  let result := sweep.result
  let examined := row :: sweep.examined
  match rewrapRow env (nonces sweep.clock) sweep.store row.1 row.2 with
  | .ok (store, true) =>
    .ok { sweep with store, examined, result := { result with moved := result.moved + 1 } }
  | .ok (store, false) =>
    .ok { sweep with store, examined, result := { result with skipped := result.skipped + 1 } }
  | .error (.contentDecrypt _) =>
    .ok { sweep with examined, result := { result with unreadable := result.unreadable + 1 } }
  | .error e => .error e

/-- The loop of `rewrap_message_content`. `none` is out of fuel. -/
def rewrapLoop (env : Env) (nonces : Nat → Nonce) (others : Nat → Store → Store)
    (chunkSize : Nat) :
    Nat → Option MessageId → Sweep → Option (Except CryptoError Sweep)
  | 0, _, _ => none
  | fuel + 1, cursor, sweep =>
    let sweep := sweep.next others
    let rows := (staleRows env.ring.1 cursor sweep.store).take chunkSize
    match rows.getLast? with
    | none => some (.ok sweep)
    | some last =>
      match rows.foldlM (Sweep.row env nonces others) sweep with
      | .error e => some (.error e)
      | .ok sweep => rewrapLoop env nonces others chunkSize fuel (some last.1) sweep

/-- `rewrap_message_content`. -/
def rewrapMessageContent (env : Env) (nonces : Nat → Nonce) (others : Nat → Store → Store)
    (chunkSize fuel : Nat) (store : Store) : Option (Except CryptoError Sweep) :=
  rewrapLoop env nonces others chunkSize fuel none { store }

/-- What `seal_content` writes is not stale. -/
theorem fresh_of_seal {env : Env} {nonce : Nonce} {plaintext fresh : String} {encrypted : Bool}
    {m : Message} (h : sealContent env.primitives env.settings nonce plaintext true =
      .ok (fresh, encrypted)) :
    isStale env.ring.1 { m with content := fresh, contentEncrypted := encrypted } = false := by
  cases encrypted with
  | false => rfl
  | true =>
    have hkid := (lookup_active env.ring_eq).1
    have hstarts : (env.ring.1 ++ ":" ++ envelope).toList.isPrefixOf fresh.toList = true := by
      rw [List.isPrefixOf_iff_prefix, sealContent_true h, ← hkid, ← String.append_assoc]
      exact ⟨_, (String.toList_append).symm⟩
    rw [isStale, hstarts]
    rfl

/-! ### The rows of a chunk -/

section
variable {env : Env} {nonces : Nat → Nonce} {others : Nat → Store → Store} {chunkSize : Nat}
  {kid : String} {cursor : Option MessageId} {store store' : Store} {sweep sweep' : Sweep}
  {m m' : Message}

theorem mem_staleRows {row : MessageId × String} : row ∈ staleRows kid cursor store ↔
    ∃ m ∈ store.messages, isStale kid m = true ∧ isPast cursor m.id = true ∧
      row = (m.id, m.content) := by
  rw [staleRows, List.mem_insertionSort, List.mem_map]
  constructor
  · rintro ⟨m, hm, rfl⟩
    obtain ⟨hmem, hboth⟩ := List.mem_filter.mp hm
    obtain ⟨hstale, hpast⟩ := (Bool.and_eq_true _ _).mp hboth
    exact ⟨m, hmem, hstale, hpast, rfl⟩
  · rintro ⟨m, hm, hstale, hpast, rfl⟩
    refine ⟨m, List.mem_filter.mpr ⟨hm, ?_⟩, rfl⟩
    rw [hstale, hpast]
    rfl

/-- The rows of a chunk have distinct ids. -/
theorem nodup_staleRows (kid : String) (cursor : Option MessageId)
    (hids : (store.messages.map Message.id).Nodup) :
    ((staleRows kid cursor store).map Prod.fst).Nodup := by
  have hperm := (List.perm_insertionSort rowLe
    ((store.messages.filter fun m => isStale kid m && isPast cursor m.id).map
      fun m => (m.id, m.content))).map Prod.fst
  rw [staleRows, hperm.nodup_iff, List.map_map]
  exact hids.sublist (List.filter_sublist.map Message.id)

/-- The chunk has every stale row up to its last one. -/
theorem mem_take_of_le {rows : List (MessageId × String)} (hsorted : rows.Pairwise rowLe)
    (hnodup : (rows.map Prod.fst).Nodup) {n : Nat} {last row : MessageId × String}
    (hlast : (rows.take n).getLast? = some last) (hrow : row ∈ rows) (hle : row.1 ≤ last.1) :
    row ∈ rows.take n := by
  have hmem : last ∈ rows.take n := List.mem_of_getLast? hlast
  rw [← List.take_append_drop n rows] at hrow hsorted
  rcases List.mem_append.mp hrow with htake | hdrop
  · exact htake
  · have hge : last.1 ≤ row.1 := (List.pairwise_append.mp hsorted).2.2 last hmem row hdrop
    have heq : row.1 = last.1 := Nat.le_antisymm hle hge
    have hrows : row ∈ rows := List.mem_of_mem_drop hdrop
    have hsame := List.inj_on_of_nodup_map hnodup hrows (List.mem_of_mem_take hmem) heq
    rw [hsame]
    exact hmem

/-- What a write of the sweep is. -/
theorem rewrapRow_ok {nonce : Nonce} {id : MessageId} {stale : String} {r : Store × Bool}
    (h : rewrapRow env nonce store id stale = .ok r) : ∃ fresh encrypted,
      unsealContent env.primitives env.settings fresh encrypted =
        unsealContent env.primitives env.settings stale true ∧
      (∀ m : Message,
        isStale env.ring.1 { m with content := fresh, contentEncrypted := encrypted } = false) ∧
      r = store.write id (.rewrap stale fresh encrypted) := by
  unfold rewrapRow at h
  cases hopen : unsealContent env.primitives env.settings stale true with
  | error e =>
    rw [hopen] at h
    cases h
  | ok opened =>
    rw [hopen] at h
    cases hseal : sealContent env.primitives env.settings nonce opened true with
    | error e =>
      have hbind : (sealContent env.primitives env.settings nonce opened true >>=
          fun x => pure (store.write id (.rewrap stale x.1 x.2))) = Except.ok r := h
      rw [hseal] at hbind
      cases hbind
    | ok sealed =>
      obtain ⟨fresh, encrypted⟩ := sealed
      have hbind : (sealContent env.primitives env.settings nonce opened true >>=
          fun x => pure (store.write id (.rewrap stale x.1 x.2))) = Except.ok r := h
      rw [hseal] at hbind
      cases hbind
      exact ⟨fresh, encrypted, unsealContent_sealContent hseal, fun _ => fresh_of_seal hseal, rfl⟩

/-! ### Against any others -/

theorem Sweep.row_examined {row : MessageId × String}
    (h : sweep.row env nonces others row = .ok sweep') :
    sweep'.examined = row :: sweep.examined ∧
      sweep'.result.moved + sweep'.result.unreadable + sweep'.result.skipped =
        sweep.result.moved + sweep.result.unreadable + sweep.result.skipped + 1 := by
  unfold Sweep.row at h
  dsimp only at h
  split at h
  · cases h
    refine ⟨rfl, ?_⟩
    simp only [Sweep.next]
    omega
  · cases h
    refine ⟨rfl, ?_⟩
    simp only [Sweep.next]
    omega
  · cases h
    refine ⟨rfl, ?_⟩
    simp only [Sweep.next]
    omega
  · cases h

/-- The counts of the sweep add up to the rows that it examined. -/
def Sweep.Counted (sweep : Sweep) : Prop :=
  sweep.result.moved + sweep.result.unreadable + sweep.result.skipped = sweep.examined.length

theorem Sweep.Counted.rows {rows : List (MessageId × String)} (h : sweep.Counted)
    (hrows : rows.foldlM (Sweep.row env nonces others) sweep = .ok sweep') : sweep'.Counted := by
  induction rows generalizing sweep with
  | nil =>
    cases hrows
    exact h
  | cons row rows ih =>
    rw [List.foldlM_cons] at hrows
    cases hrow : sweep.row env nonces others row with
    | error e =>
      rw [hrow] at hrows
      cases hrows
    | ok next =>
      rw [hrow] at hrows
      obtain ⟨hexamined, hresult⟩ := sweep.row_examined hrow
      have hnext : next.Counted := by
        rw [Sweep.Counted, hexamined, hresult, List.length_cons, h]
      exact ih hnext hrows

theorem Sweep.Counted.loop {fuel : Nat} (h : sweep.Counted)
    (hloop : rewrapLoop env nonces others chunkSize fuel cursor sweep = some (.ok sweep')) :
    sweep'.Counted := by
  induction fuel generalizing cursor sweep with
  | zero => cases hloop
  | succ fuel ih =>
    rw [rewrapLoop] at hloop
    split at hloop
    · cases hloop
      exact h
    · split at hloop
      · cases hloop
      · rename_i hrows
        have hnext : (sweep.next others).Counted := h
        exact ih (hnext.rows hrows) hloop

/-- Every id of the store is below the bound. -/
def Below (bound : Nat) (store : Store) : Prop := ∀ m ∈ store.messages, m.id < bound

theorem Below.write {bound : Nat} (h : Below bound store) (id : MessageId) (w : Write) :
    Below bound (store.write id w).1 := by
  intro m hm
  have hid : m.id ∈ (store.write id w).1.messages.map Message.id := List.mem_map_of_mem hm
  rw [map_id_write] at hid
  obtain ⟨m₀, hm₀, hsame⟩ := List.mem_map.mp hid
  rw [← hsame]
  exact h m₀ hm₀

theorem Below.row {bound : Nat}
    (hothers : ∀ n store, Below bound store → Below bound (others n store))
    (h : Below bound sweep.store) {row : MessageId × String}
    (hrow : sweep.row env nonces others row = .ok sweep') : Below bound sweep'.store := by
  have hstore : Below bound (sweep.next others).store := hothers sweep.clock sweep.store h
  have hwrite : ∀ {r : Store × Bool}, rewrapRow env (nonces (sweep.next others).clock)
      (sweep.next others).store row.1 row.2 = .ok r → Below bound r.1 := by
    intro r hr
    obtain ⟨fresh, encrypted, -, -, hsame⟩ := rewrapRow_ok hr
    rw [hsame]
    exact hstore.write _ _
  unfold Sweep.row at hrow
  dsimp only at hrow
  split at hrow
  · rename_i hr
    cases hrow
    exact hwrite hr
  · rename_i hr
    cases hrow
    exact hwrite hr
  · cases hrow
    exact hstore
  · cases hrow

theorem Below.rows {bound : Nat}
    (hothers : ∀ n store, Below bound store → Below bound (others n store))
    {rows : List (MessageId × String)} (h : Below bound sweep.store)
    (hrows : rows.foldlM (Sweep.row env nonces others) sweep = .ok sweep') :
    Below bound sweep'.store := by
  induction rows generalizing sweep with
  | nil =>
    cases hrows
    exact h
  | cons row rows ih =>
    rw [List.foldlM_cons] at hrows
    cases hrow : sweep.row env nonces others row with
    | error e =>
      rw [hrow] at hrows
      cases hrows
    | ok next =>
      rw [hrow] at hrows
      exact ih (h.row hothers hrow) hrows

/-- The loop ends, as its cursor moves up to the last id. -/
theorem exists_rewrapLoop {bound : Nat}
    (hothers : ∀ n store, Below bound store → Below bound (others n store)) {fuel : Nat}
    (h : Below bound sweep.store) (hfuel : bound < fuel + cursor.elim 0 Nat.succ)
    (hpos : 0 < fuel) :
    ∃ r, rewrapLoop env nonces others chunkSize fuel cursor sweep = some r := by
  induction fuel generalizing cursor sweep with
  | zero => omega
  | succ fuel ih =>
    have hstore := hothers sweep.clock sweep.store h
    rw [rewrapLoop]
    split
    · exact ⟨_, rfl⟩
    · rename_i last hlast
      split
      · exact ⟨_, rfl⟩
      · rename_i next hrows
        obtain ⟨m, hm, -, hpast, hlast'⟩ :=
          mem_staleRows.mp (List.mem_of_mem_take (List.mem_of_getLast? hlast))
        -- the cursor moves past the last row of the chunk, so one step of fuel is paid by one id
        have hlt : Nat.succ last.1 ≤ bound := by
          rw [hlast']
          exact hstore m hm
        have hcursor : cursor.elim 0 Nat.succ ≤ last.1 := by
          rw [hlast']
          cases cursor with
          | none => exact Nat.zero_le _
          | some c => exact Nat.succ_le_of_lt (by simpa [isPast] using hpast)
        have hnext : Below bound (sweep.next others).store := hstore
        apply ih (Below.rows hothers hnext hrows)
        · show bound < fuel + (last.1 + 1)
          omega
        · omega

/-! ### Alone -/

/-- Nobody else writes. -/
def alone : Nat → Store → Store := fun _ store => store

/-- No key opens the row. -/
def Unreadable (env : Env) (m : Message) : Prop := ∃ msg, env.text m =
    .error (.contentDecrypt msg)

/-- A ciphertext that opens under a held key was sealed as text. -/
def OnlyText (env : Env) (store : Store) : Prop :=
  ∀ m ∈ store.messages, env.text m ≠ .error .unicodeDecode

/-- What a part of the sweep does, that has examined the rows with the given ids. -/
structure Moved (env : Env) (store store' : Store) (ids : List MessageId) : Prop where
  map_id : store'.messages.map Message.id = store.messages.map Message.id
  text : ∀ m ∈ store.messages, ∃ m' ∈ store'.messages, m'.id = m.id ∧ env.text m' = env.text m
  stale : ∀ m' ∈ store'.messages, isStale env.ring.1 m' = true →
    m' ∈ store.messages ∧ (m'.id ∈ ids → Unreadable env m')
  kept : ∀ m ∈ store.messages, m.id ∉ ids ∨ Unreadable env m → m ∈ store'.messages

theorem Moved.refl (env : Env) (store : Store) : Moved env store store [] where
  map_id := rfl
  text m hm := ⟨m, hm, rfl, rfl⟩
  stale _ hm' _ := ⟨hm', nofun⟩
  kept _ hm _ := hm

theorem Moved.trans {store'' : Store} {ids ids' : List MessageId} (h : Moved env store store' ids)
    (h' : Moved env store' store'' ids') : Moved env store store'' (ids ++ ids') where
  map_id := h'.map_id.trans h.map_id
  text m hm := by
    obtain ⟨m', hm', hid, htext⟩ := h.text m hm
    obtain ⟨m'', hm'', hid', htext'⟩ := h'.text m' hm'
    exact ⟨m'', hm'', hid'.trans hid, htext'.trans htext⟩
  stale m hm hstale := by
    obtain ⟨hmem', hsecond⟩ := h'.stale m hm hstale
    obtain ⟨hmem, hfirst⟩ := h.stale m hmem' hstale
    refine ⟨hmem, fun hid => ?_⟩
    rcases List.mem_append.mp hid with hid | hid
    · exact hfirst hid
    · exact hsecond hid
  kept m hm hcause := by
    apply h'.kept m
    · exact h.kept m hm (hcause.imp_left fun hid hmem => hid (List.mem_append_left _ hmem))
    · exact hcause.imp_left fun hid hmem => hid (List.mem_append_right _ hmem)

theorem Moved.onlyText {ids : List MessageId} (h : Moved env store store' ids)
    (hids : (store.messages.map Message.id).Nodup) (htext : OnlyText env store) :
    OnlyText env store' := by
  intro m' hm' hunicode
  have hid : m'.id ∈ store.messages.map Message.id := by
    rw [← h.map_id]
    exact List.mem_map_of_mem hm'
  obtain ⟨m, hm, hsame⟩ := List.mem_map.mp hid
  obtain ⟨m'', hm'', hid'', htext''⟩ := h.text m hm
  have hnodup : (store'.messages.map Message.id).Nodup := by
    rw [h.map_id]
    exact hids
  have heq : m'' = m' := List.inj_on_of_nodup_map hnodup hm'' hm' (hid''.trans hsame)
  apply htext m hm
  rw [← htext'', heq]
  exact hunicode

theorem Moved.ids_nodup {ids : List MessageId} (h : Moved env store store' ids)
    (hids : (store.messages.map Message.id).Nodup) : (store'.messages.map Message.id).Nodup := by
  rw [h.map_id]
  exact hids

/-- A stale row is sealed. -/
theorem contentEncrypted_of_isStale (h : isStale kid m = true) : m.contentEncrypted = true :=
  ((Bool.and_eq_true _ _).mp h).1

/-- With a key ring, opening fails in one of two ways. -/
theorem openWith_error {P : Primitives} {nonce ciphertext : Bytes} {keys : List Bytes}
    {e : CryptoError} (h : openWith P nonce ciphertext keys = .error e) :
    (∃ msg, e = .contentDecrypt msg) ∨ e = .unicodeDecode := by
  induction keys with
  | nil =>
    cases h
    exact Or.inl ⟨_, rfl⟩
  | cons key keys ih =>
    rw [openWith] at h
    split at h
    · split at h
      · cases h
      · cases h
        exact Or.inr rfl
    · exact ih h

theorem unsealContent_error {stored : String} {e : CryptoError}
    (h : unsealContent env.primitives env.settings stored true = .error e) :
    (∃ msg, e = .contentDecrypt msg) ∨ e = .unicodeDecode := by
  have hopen : openEnvelope env.primitives env.ring.2 (split stored).1 (split stored).2 =
      .error e := by
    rw [unsealContent_of_keyring env.ring_eq] at h
    exact h
  unfold openEnvelope at hopen
  split at hopen
  · cases hopen
    exact Or.inl ⟨_, rfl⟩
  · change (if (candidates env.ring.2 (split stored).1).isEmpty then _ else _) = _ at hopen
    split at hopen
    · cases hopen
      exact Or.inl ⟨_, rfl⟩
    · split at hopen
      · cases hopen
        exact Or.inl ⟨_, rfl⟩
      · split at hopen
        · cases hopen
          exact Or.inl ⟨_, rfl⟩
        · exact openWith_error hopen

/-- The sweep fails at a row only where opening it fails. -/
theorem rewrapRow_error {nonce : Nonce} {id : MessageId} {stale : String} {e : CryptoError}
    (h : rewrapRow env nonce store id stale = .error e) :
    unsealContent env.primitives env.settings stale true = .error e := by
  unfold rewrapRow at h
  cases hopen : unsealContent env.primitives env.settings stale true with
  | error e' =>
    rw [hopen] at h
    cases h
    rfl
  | ok opened =>
    rw [hopen] at h
    obtain ⟨fresh, encrypted, hseal⟩ := exists_seal env.ring_eq nonce opened true
    have hbind : (sealContent env.primitives env.settings nonce opened true >>=
        fun x => pure (store.write id (.rewrap stale x.1 x.2))) = Except.error e := h
    rw [hseal] at hbind
    cases hbind

/-- The write of a row moves it. -/
theorem Moved.of_rewrapRow (hids : (store.messages.map Message.id).Nodup) {nonce : Nonce}
    {r : Store × Bool} (hm : m ∈ store.messages) (hstale : isStale env.ring.1 m = true)
    (h : rewrapRow env nonce store m.id m.content = .ok r) : Moved env store r.1 [m.id] := by
  obtain ⟨fresh, encrypted, htext, hfresh, rfl⟩ := rewrapRow_ok h
  have hguard : (Write.rewrap m.content fresh encrypted).guard m = true := by simp [Write.guard]
  have hflag := contentEncrypted_of_isStale hstale
  have hstore := write_eq (w := .rewrap m.content fresh encrypted) hids hm
  have hopens : ∀ m' ∈ store.messages, m.id = m'.id → m' = m := fun m' hm' hid =>
    List.inj_on_of_nodup_map hids hm' hm hid.symm
  have hmem : ∀ m' ∈ (store.write m.id (.rewrap m.content fresh encrypted)).1.messages,
      (m' ∈ store.messages ∧ m'.id ≠ m.id) ∨
        m' = (Write.rewrap m.content fresh encrypted).apply m := by
    intro m' hm'
    rw [hstore] at hm'
    obtain ⟨m₀, hm₀, hsame⟩ := List.mem_map.mp hm'
    by_cases hid : m.id = m₀.id
    · rw [if_pos ⟨hid, hguard⟩, hopens m₀ hm₀ hid] at hsame
      exact Or.inr hsame.symm
    · rw [if_neg fun hboth => hid hboth.1] at hsame
      rw [← hsame]
      exact Or.inl ⟨hm₀, fun heq => hid heq.symm⟩
  refine { map_id := map_id_write _ _ _, text := ?_, stale := ?_, kept := ?_ }
  · intro m' hm'
    by_cases hid : m.id = m'.id
    · rw [hopens m' hm' hid]
      refine ⟨(Write.rewrap m.content fresh encrypted).apply m, ?_, rfl, ?_⟩
      · rw [hstore]
        refine List.mem_map.mpr ⟨m, hm, ?_⟩
        rw [if_pos ⟨rfl, hguard⟩]
      · show unsealContent env.primitives env.settings fresh encrypted = env.text m
        rw [htext, Env.text, hflag]
    · exact ⟨m', mem_write_of_ne hm' (fun heq => hid heq.symm), rfl, rfl⟩
  · intro m' hm' hstale'
    rcases hmem m' hm' with ⟨hold, hne⟩ | rfl
    · exact ⟨hold, fun hid => absurd (List.mem_singleton.mp hid) hne⟩
    · rw [show isStale env.ring.1 ((Write.rewrap m.content fresh encrypted).apply m) = false from
        hfresh m] at hstale'
      cases hstale'
  · rintro m' hm' (hid | ⟨msg, hunreadable⟩)
    · exact mem_write_of_ne hm' fun heq => hid (List.mem_singleton.mpr heq)
    · by_cases hid : m.id = m'.id
      · -- The row was opened.
        rw [hopens m' hm' hid, Env.text, hflag] at hunreadable
        unfold rewrapRow at h
        rw [hunreadable] at h
        cases h
      · exact mem_write_of_ne hm' fun heq => hid heq.symm

/-- What one row of a chunk does. -/
theorem Moved.row (nonces : Nat → Nonce) (hids : (sweep.store.messages.map Message.id).Nodup)
    (htext : OnlyText env sweep.store) (hm : m ∈ sweep.store.messages)
    (hstale : isStale env.ring.1 m = true) :
    ∃ next, sweep.row env nonces alone (m.id, m.content) = .ok next ∧
      Moved env sweep.store next.store [m.id] := by
  have hflag := contentEncrypted_of_isStale hstale
  unfold Sweep.row
  dsimp only
  split
  · rename_i store' hrow
    exact ⟨_, rfl, Moved.of_rewrapRow hids hm hstale hrow⟩
  · rename_i store' hrow
    exact ⟨_, rfl, Moved.of_rewrapRow hids hm hstale hrow⟩
  · rename_i msg hrow
    -- the row cannot be opened: it is counted and stays as it was
    refine ⟨_, rfl, ?_⟩
    have hunreadable : Unreadable env m := by
      refine ⟨msg, ?_⟩
      rw [Env.text, hflag]
      exact rewrapRow_error hrow
    exact
      { map_id := rfl, text := fun m' hm' => ⟨m', hm', rfl, rfl⟩
        stale := fun m' hm' _ => ⟨hm', fun hid => by
          rw [List.inj_on_of_nodup_map hids hm' hm (List.mem_singleton.mp hid)]
          exact hunreadable⟩
        kept := fun m' hm' _ => hm' }
  · rename_i e hother hrow
    -- another error of the opening would end the sweep; a sealed text has none
    exfalso
    rcases unsealContent_error (rewrapRow_error hrow) with ⟨msg, rfl⟩ | rfl
    · exact hother msg rfl
    · apply htext m hm
      rw [Env.text, hflag]
      exact rewrapRow_error hrow

/-- What a chunk does. -/
theorem Moved.rows {rows : List (MessageId × String)}
    (hids : (sweep.store.messages.map Message.id).Nodup) (htext : OnlyText env sweep.store)
    (hnodup : (rows.map Prod.fst).Nodup)
    (hrows : ∀ row ∈ rows, ∃ m ∈ sweep.store.messages, isStale env.ring.1 m = true ∧
      row = (m.id, m.content)) :
    ∃ next, rows.foldlM (Sweep.row env nonces alone) sweep = .ok next ∧
      Moved env sweep.store next.store (rows.map Prod.fst) := by
  induction rows generalizing sweep with
  | nil => exact ⟨sweep, rfl, .refl env sweep.store⟩
  | cons row rows ih =>
    obtain ⟨m, hm, hstale, rfl⟩ := hrows row List.mem_cons_self
    obtain ⟨next, hrow, hmoved⟩ := Moved.row nonces hids htext hm hstale
    rw [List.map_cons, List.nodup_cons] at hnodup
    have hrest : ∀ row ∈ rows, ∃ m ∈ next.store.messages, isStale env.ring.1 m = true ∧
        row = (m.id, m.content) := by
      intro row hmem
      obtain ⟨m', hm', hstale', rfl⟩ := hrows row (List.mem_cons_of_mem _ hmem)
      refine ⟨m', hmoved.kept m' hm' (Or.inl fun hid => ?_), hstale', rfl⟩
      -- Each id is in the chunk once.
      apply hnodup.1
      have hsame : m'.id = m.id := List.mem_singleton.mp hid
      show m.id ∈ rows.map Prod.fst
      rw [← hsame]
      exact List.mem_map_of_mem (f := Prod.fst) hmem
    obtain ⟨final, hfold, hmoved'⟩ :=
      ih (hmoved.ids_nodup hids) (hmoved.onlyText hids htext) hnodup.2 hrest
    refine ⟨final, ?_, hmoved.trans hmoved'⟩
    rw [List.foldlM_cons, hrow]
    exact hfold

/-- What the loop does when it runs alone. Every row that is still stale behind it was
examined. -/
theorem Moved.loop {fuel : Nat} {ids : List MessageId} {r : Except CryptoError Sweep}
    (hids : (store.messages.map Message.id).Nodup) (htext : OnlyText env store)
    (hchunk : 0 < chunkSize) (hmoved : Moved env store sweep.store ids)
    (hdone : ∀ m ∈ sweep.store.messages, isStale env.ring.1 m = true →
      isPast cursor m.id = false → m.id ∈ ids)
    (hloop : rewrapLoop env nonces alone chunkSize fuel cursor sweep = some r) :
    ∃ final ids', r = .ok final ∧ Moved env store final.store ids' ∧
      ∀ m ∈ final.store.messages, isStale env.ring.1 m = true → m.id ∈ ids' := by
  induction fuel generalizing cursor sweep ids with
  | zero => cases hloop
  | succ fuel ih =>
    have hnodup := nodup_staleRows env.ring.1 cursor (hmoved.ids_nodup hids)
    have hsublist :=
      (List.take_sublist chunkSize (staleRows env.ring.1 cursor sweep.store)).map Prod.fst
    obtain ⟨next, hfold, hrows⟩ : ∃ next,
        ((staleRows env.ring.1 cursor sweep.store).take chunkSize).foldlM
          (Sweep.row env nonces alone) (sweep.next alone) = .ok next ∧
        Moved env (sweep.next alone).store next.store _ := Moved.rows
      (hmoved.ids_nodup hids) (hmoved.onlyText hids htext) (hnodup.sublist hsublist) (by
        intro row hrow
        obtain ⟨m, hm, hstale, -, hsame⟩ := mem_staleRows.mp (List.mem_of_mem_take hrow)
        exact ⟨m, hm, hstale, hsame⟩)
    rw [rewrapLoop] at hloop
    split at hloop
    · -- no stale row is left behind the cursor
      rename_i hnone
      cases hloop
      refine ⟨_, ids, rfl, hmoved, ?_⟩
      intro m hm hstale
      cases hpast : isPast cursor m.id with
      | false => exact hdone m hm hstale hpast
      | true =>
        have hrow : (m.id, m.content) ∈ staleRows env.ring.1 cursor sweep.store :=
          mem_staleRows.mpr ⟨m, hm, hstale, hpast, rfl⟩
        have hempty := List.getLast?_eq_none_iff.mp hnone
        rcases List.take_eq_nil_iff.mp hempty with hzero | hnil
        · omega
        · change staleRows env.ring.1 cursor sweep.store = [] at hnil
          rw [hnil] at hrow
          cases hrow
    · rename_i last hlast
      change (staleRows env.ring.1 cursor sweep.store |>.take chunkSize).getLast? =
        some last at hlast
      change (match ((staleRows env.ring.1 cursor sweep.store).take chunkSize).foldlM
          (Sweep.row env nonces alone) (sweep.next alone) with
        | .error e => some (.error e)
        | .ok sweep => rewrapLoop env nonces alone chunkSize fuel (some last.1) sweep) =
            some r at hloop
      rw [hfold] at hloop
      refine ih (hmoved.trans hrows) ?_ hloop
      intro m hm hstale hpast
      have hold := (hrows.stale m hm hstale).1
      cases hbefore : isPast cursor m.id with
      | false => exact List.mem_append_left _ (hdone m hold hstale hbefore)
      | true =>
        have hrow : (m.id, m.content) ∈ staleRows env.ring.1 cursor sweep.store :=
          mem_staleRows.mpr ⟨m, hold, hstale, hbefore, rfl⟩
        -- a stale row up to the new cursor was in the chunk
        have hle : m.id ≤ last.1 := by simpa [isPast] using hpast
        have hmem := mem_take_of_le (List.pairwise_insertionSort rowLe _) hnodup hlast hrow hle
        exact List.mem_append_right _ (List.mem_map_of_mem (f := Prod.fst) hmem)

/-- The ids of a store have a bound. -/
theorem exists_below (ms : List Message) : ∃ bound, ∀ m ∈ ms, m.id < bound := by
  induction ms with
  | nil => exact ⟨0, fun _ hm => absurd hm List.not_mem_nil⟩
  | cons m ms ih =>
    obtain ⟨bound, hbound⟩ := ih
    refine ⟨max bound (m.id + 1), ?_⟩
    intro m' hm'
    rcases List.mem_cons.mp hm' with rfl | hold
    · exact Nat.lt_of_lt_of_le (Nat.lt_succ_self _) (Nat.le_max_right _ _)
    · exact Nat.lt_of_lt_of_le (hbound m' hold) (Nat.le_max_left _ _)

end

/-! ### The result -/

/-- The settings after the rotation: the retired secret is dropped. -/
def Settings.dropRetired (settings : Settings) : Settings :=
  { settings with secretsKeyRetired := none }

/-- A sealed value under the active key does not need the retired one. -/
theorem unsealContent_dropRetired {env : Env} {m : Message} (hflag : m.contentEncrypted = true)
    (hstale : isStale env.ring.1 m = false) :
    unsealContent env.primitives env.settings.dropRetired m.content true =
      unsealContent env.primitives env.settings m.content true := by
  obtain ⟨hkid, hlookup⟩ := lookup_active env.ring_eq
  obtain ⟨c, d, hc, hd, htwo⟩ := resolve_kid env.primitives env.settings.secretsKey
  rw [isStale, hflag, Bool.true_and, Bool.not_eq_false', List.isPrefixOf_iff_prefix] at hstale
  obtain ⟨rest, hrest⟩ := hstale
  have hcontent : m.content = env.ring.1 ++ ":" ++ (envelope ++ String.ofList rest) := by
    rw [← String.toList_inj, ← hrest]
    simp [String.toList_append]
  have hsplit : split m.content = (some env.ring.1, envelope ++ String.ofList rest) := by
    rw [hcontent]
    exact split_kid (hkid ▸ htwo) hc hd
  -- the keyring without the retired keys has the active key alone, which names the envelope
  have hdropped : keyring env.primitives env.settings.dropRetired =
      .ok (env.ring.1, [resolve env.primitives env.settings.secretsKey]) := by
    rw [hkid]
    rfl
  have hactive : [resolve env.primitives env.settings.secretsKey].lookup env.ring.1 =
      env.ring.2.lookup env.ring.1 := by
    rw [hlookup, hkid]
    exact List.lookup_cons_self
  unfold unsealContent
  rw [hdropped, env.ring_eq, hsplit]
  show openEnvelope env.primitives [resolve env.primitives env.settings.secretsKey]
    (some env.ring.1) _ = openEnvelope env.primitives env.ring.2 (some env.ring.1) _
  simp only [openEnvelope, hactive]

/-- The updates of a chunk in the system of the writers are the writes of `_rewrap_row`. -/
theorem rewrapRow_of_mem_jobUpdates {env : Env} {store : Store} {rows : List (MessageId × Nonce)}
    {u : MessageId × Write} (h : u ∈ State.jobUpdates env store (.rewrap rows)) :
    ∃ row ∈ rows, ∃ m, store.message? row.1 = some m ∧ m.contentEncrypted = true ∧ u.1 = m.id ∧
      ∀ now : Store, rewrapRow env row.2 now m.id m.content = .ok (now.write m.id u.2) := by
  obtain ⟨row, hrow, hu⟩ := List.mem_filterMap.mp h
  obtain ⟨m, hm, hu⟩ := Option.bind_eq_some_iff.mp hu
  refine ⟨row, hrow, m, hm, ?_⟩
  split at hu
  · rename_i hflag
    split at hu
    · cases hu
    · rename_i opened hopen
      split at hu
      · cases hu
      · rename_i fresh encrypted hseal
        cases hu
        refine ⟨hflag, rfl, fun now => ?_⟩
        unfold rewrapRow
        rw [hopen]
        show (sealContent env.primitives env.settings row.2 opened true >>=
          fun x => pure (now.write m.id (.rewrap m.content x.1 x.2))) = _
        rw [hseal]
        rfl
  · cases hu

/-- What a sweep has done that ran alone. -/
structure SweptAlone (env : Env) (store : Store) (final : Sweep) : Prop where
  counted : final.Counted
  text : ∀ m ∈ store.messages, ∀ text, env.text m = .ok text →
    ∃ m' ∈ final.store.messages, m'.id = m.id ∧ env.text m' = .ok text
  stale : ∀ m, m ∈ final.store.messages ∧ isStale env.ring.1 m = true ↔
    m ∈ store.messages ∧ isStale env.ring.1 m = true ∧ Unreadable env m

theorem sweptAlone (env : Env) (nonces : Nat → Nonce) {chunkSize : Nat} (hchunk : 0 < chunkSize)
    {store : Store} (hids : (store.messages.map Message.id).Nodup) (htext : OnlyText env store) :
    ∃ fuel final, rewrapMessageContent env nonces alone chunkSize fuel store = some (.ok final) ∧
      SweptAlone env store final := by
  obtain ⟨bound, hbound⟩ := exists_below store.messages
  obtain ⟨r, hloop⟩ : ∃ r, rewrapLoop env nonces alone chunkSize (bound + 1) none
    { store } = some r :=
    exists_rewrapLoop (fun _ _ h => h) hbound (Nat.lt_succ_self bound) (Nat.succ_pos bound)
  have hstart : Sweep.Counted { store } := rfl
  obtain ⟨final, ids, rfl, hmoved, hexamined⟩ := Moved.loop hids htext hchunk (.refl env store)
    (fun m _ _ hpast => by cases hpast) hloop
  refine ⟨bound + 1, final, hloop, hstart.loop hloop, ?_, ?_⟩
  · intro m hm text hopen
    obtain ⟨m', hm', hid, hsame⟩ := hmoved.text m hm
    exact ⟨m', hm', hid, hsame.trans hopen⟩
  · intro m
    constructor
    · rintro ⟨hm, hstale⟩
      obtain ⟨hold, hunreadable⟩ := hmoved.stale m hm hstale
      exact ⟨hold, hstale, hunreadable (hexamined m hm hstale)⟩
    · rintro ⟨hm, hstale, hunreadable⟩
      exact ⟨hmoved.kept m hm (Or.inr hunreadable), hstale⟩

/-- **The sweep is lossless.** Alone it ends, its counts add up, it keeps every text, and it
leaves the rows stale that no key opens. Against any others its counts add up, too, and it ends
while the ids stay below a bound. When nothing is stale, the retired secret can go. And no
interleaving of sweeps with the other writers changes the text of a message that has ended. -/
theorem rewrap_lossless (env : Env) (nonces : Nat → Nonce) (chunkSize : Nat)
    (hchunk : 0 < chunkSize) :
    (∀ store : Store, (store.messages.map Message.id).Nodup → OnlyText env store →
      ∃ fuel final, rewrapMessageContent env nonces alone chunkSize fuel store =
        some (.ok final) ∧ SweptAlone env store final) ∧
    (∀ others store bound, (∀ n store, Below bound store → Below bound (others n store)) →
      Below bound store →
      ∃ fuel r, rewrapMessageContent env nonces others chunkSize fuel store = some r) ∧
    (∀ others store fuel final,
      rewrapMessageContent env nonces others chunkSize fuel store = some (.ok final) →
      final.Counted) ∧
    (∀ store, staleMessageCount env.ring.1 store = 0 → ∀ m ∈ store.messages,
      m.contentEncrypted = true → ∀ text, env.text m = .ok text →
      unsealContent env.primitives env.settings.dropRetired m.content true = .ok text) ∧
    ∀ s₀ s s' ls ls', Start s₀ → run (step env) s₀ ls = some s → run (step env) s ls' = some s' →
      ∀ m ∈ s.store.messages, m.status ≠ .streaming →
        ∃ m' ∈ s'.store.messages, m'.id = m.id ∧ env.text m' = env.text m := by
  refine ⟨fun _ => sweptAlone env nonces hchunk, ?_, ?_, ?_, ?_⟩
  · intro others store bound hothers hstore
    have hloop : ∃ r, rewrapLoop env nonces others chunkSize (bound + 1) none
        { store } = some r :=
      exists_rewrapLoop hothers hstore (Nat.lt_succ_self bound) (Nat.succ_pos bound)
    exact ⟨bound + 1, hloop⟩
  · intro others store fuel final hloop
    have hstart : Sweep.Counted { store } := rfl
    exact hstart.loop hloop
  · intro store hzero m hm hflag text hopen
    have hnone := List.length_eq_zero_iff.mp hzero
    have hstale : isStale env.ring.1 m = false := by
      have hno := List.filter_eq_nil_iff.mp hnone m hm
      simpa using hno
    rw [unsealContent_dropRetired hflag hstale, ← hopen, Env.text, hflag]
  · intro s₀ s s' ls ls' hstart hrun hrun' m hm hended
    have hinv : Inv env s := run_invariant (fun _ _ _ => Inv.step) hstart.inv hrun
    obtain ⟨m', hm', hevolves⟩ := hinv.evolves_run hrun' hm
    exact ⟨m', hm', hevolves.id, hevolves.text hended⟩

/-- A deployment with one secret. -/
def rotationEnv : Env where
  primitives := recordedPrimitives
  settings := beforeRotation
  contentProtected _ := true
  ring := ("b5", [("b5", recordedOld)])
  ring_eq := by decide +kernel

/-- A store with a sealed row that has no key id. -/
def untaggedStore : Store where
  turns := [{ id := 100, conversation := 5, index := 0 }]
  messages := [{ id := 200, turn := 100, role := .user, status := .complete
                 content := "v2:AAAAAAAAAAAAAAAATaYgky2St89GcTLQuTnRfwrP",
                 contentEncrypted := true
                 createdAt := 0 }]
  images := []

theorem rewrap_lossless_untagged : ∃ fuel final,
    rewrapMessageContent rotationEnv (fun _ => recordedNonce) alone 1 fuel untaggedStore =
      some (.ok final) ∧ SweptAlone rotationEnv untaggedStore final := by
  apply (rewrap_lossless rotationEnv (fun _ => recordedNonce) 1 (by decide)).1 untaggedStore
  · exact List.nodup_singleton _
  · intro m hm
    rw [List.mem_singleton.mp hm]
    have hopen : unsealContent recordedPrimitives beforeRotation
        "v2:AAAAAAAAAAAAAAAATaYgky2St89GcTLQuTnRfwrP" true = .ok "hi" := by decide +kernel
    show unsealContent recordedPrimitives beforeRotation
      "v2:AAAAAAAAAAAAAAAATaYgky2St89GcTLQuTnRfwrP" true ≠ .error .unicodeDecode
    rw [hopen]
    exact nofun

end RedTeaming.Conversations
