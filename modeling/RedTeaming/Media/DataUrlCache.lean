import Mathlib.Data.List.Induction
import RedTeaming.Library.Dict

/-!
# `RedTeaming.Media.DataUrlCache`: the cache of encoded images

`_DataUrlCache` of `core/media/services/images.py`. The entries are in the order of their
insertion, and `put` drops the oldest ones until the new value fits the budget. `_bytes` is
counted along, and an entry expires.

`Books` says that the counter is the sum of the lengths, and within the budget. `Stored` says of
an entry which `put` it comes from, and that nothing has dropped it since. Both hold after any
sequence of calls. The readings of the clock come with the calls, and need no order.
-/

set_option autoImplicit false

namespace RedTeaming.Media

open RedTeaming.Library

/-- A reading of the clock, in microseconds. -/
abbrev Instant := Int

/-- `_DataUrlCache`. An entry is a value and the instant when it expires. -/
structure DataUrlCache where
  budgetBytes : Nat
  ttlSeconds : Int
  entries : Dict String (String × Instant) := .empty
  bytes : Int := 0

namespace DataUrlCache

/-- `evict`. -/
def evict (c : DataUrlCache) (key : String) : DataUrlCache :=
  match c.entries.get? key with
  | some entry =>
    { c with entries := c.entries.erase key, bytes := c.bytes - entry.1.length }
  | none => c

/-- `get`: the value, and the cache after the call. -/
def get (c : DataUrlCache) (now : Instant) (key : String) : Option String × DataUrlCache :=
  match c.entries.get? key with
  | none => (none, c)
  | some (dataUrl, expiresAt) =>
    if now ≥ expiresAt then (none, c.evict key) else (some dataUrl, c)

/-- The loop of `put`. A turn drops an entry, so there are no more turns than entries. -/
def makeRoom (size : Nat) : Nat → DataUrlCache → DataUrlCache
  | 0, c => c
  | turns + 1, c =>
    match c.entries.keys with
    | oldest :: _ =>
      if c.bytes + size > c.budgetBytes then makeRoom size turns (c.evict oldest) else c
    | [] => c

/-- The instant when a value expires that is put at `now`. -/
def expiresAt (ttlSeconds : Int) (now : Instant) : Instant := now + ttlSeconds * 1000000

/-- `put`. -/
def put (c : DataUrlCache) (now : Instant) (key dataUrl : String) : DataUrlCache :=
  let size := dataUrl.length
  if size > c.budgetBytes then c
  else
    let c := c.evict key
    let c := makeRoom size c.entries.entries.length c
    { c with
      entries := c.entries.insert key (dataUrl, expiresAt c.ttlSeconds now)
      bytes := c.bytes + size }

/-- `clear`. -/
def clear (c : DataUrlCache) : DataUrlCache := { c with entries := .empty, bytes := 0 }

end DataUrlCache

/-- A call of the cache, with the reading of the clock that it makes. -/
inductive Call
  | get (now : Instant) (key : String)
  | put (now : Instant) (key dataUrl : String)
  | evict (key : String)
  | clear

/-- The cache after a call. -/
def step (c : DataUrlCache) : Call → DataUrlCache
  | .get now key => (c.get now key).2
  | .put now key dataUrl => c.put now key dataUrl
  | .evict key => c.evict key
  | .clear => c.clear

/-- The cache after some calls. -/
def run (budgetBytes : Nat) (ttlSeconds : Int) (calls : List Call) : DataUrlCache :=
  calls.foldl step { budgetBytes, ttlSeconds }

/-- An entry of a cache. -/
abbrev Entry := String × String × Instant

/-- The sum of the lengths of the values. -/
def totalLength (entries : List Entry) : Nat := (entries.map fun entry => entry.2.1.length).sum

/-- The counter is the sum of the lengths, and within the budget. -/
structure Books (c : DataUrlCache) : Prop where
  counted : c.bytes = totalLength c.entries.entries
  within : c.bytes ≤ c.budgetBytes

/-- The entry that a call inserts: that of a `put` that fits the budget. -/
def inserted (budgetBytes : Nat) (ttlSeconds : Int) : Call → Option Entry
  | .put now key dataUrl =>
    if dataUrl.length ≤ budgetBytes then
      some (key, dataUrl, DataUrlCache.expiresAt ttlSeconds now)
    else none
  | _ => none

/-- A call that ends an entry of the key: it evicts the key, clears the cache, or puts a new value
that fits the budget. -/
def Ends (budgetBytes : Nat) (key : String) : Call → Prop
  | .evict key' => key' = key
  | .clear => True
  | .put _ key' dataUrl => key' = key ∧ dataUrl.length ≤ budgetBytes
  | .get _ _ => False

/-- The entry was put by a call that fitted the budget. No later call ended it, and it was there
after each of them, so that nothing has evicted it. -/
def Stored (budgetBytes : Nat) (ttlSeconds : Int) (calls : List Call) (entry : Entry) : Prop :=
  ∃ (before : List Call) (now : Instant) (after : List Call),
    calls = before ++ .put now entry.1 entry.2.1 :: after ∧
    entry.2.1.length ≤ budgetBytes ∧
    entry.2.2 = DataUrlCache.expiresAt ttlSeconds now ∧
    (∀ call ∈ after, ¬ Ends budgetBytes entry.1 call) ∧
    ∀ first rest, after = first ++ rest → entry ∈
      (run budgetBytes ttlSeconds (before ++ .put now entry.1 entry.2.1 :: first)).entries.entries

section
variable {c : DataUrlCache} {key dataUrl : String} {now : Instant} {size turns : Nat}
  {entry : Entry} {budgetBytes : Nat} {ttlSeconds : Int} {calls : List Call} {call : Call}

/-! ### The parts of a call -/

@[simp] theorem evict_budgetBytes : (c.evict key).budgetBytes = c.budgetBytes := by
  unfold DataUrlCache.evict
  split <;> rfl

@[simp] theorem evict_ttlSeconds : (c.evict key).ttlSeconds = c.ttlSeconds := by
  unfold DataUrlCache.evict
  split <;> rfl

/-- An eviction leaves the entries of the other keys. -/
theorem evict_entries : (c.evict key).entries = c.entries.erase key := by
  unfold DataUrlCache.evict
  split
  · rfl
  · rename_i hnone
    have hkey : key ∉ c.entries.keys := Dict.get?_eq_none.mp hnone
    refine Dict.ext (List.filter_eq_self.mpr fun entry hentry => ?_).symm
    rw [bne_iff_ne]
    intro hsame
    exact hkey (List.mem_map.mpr ⟨entry, hentry, hsame⟩)

/-- An eviction takes the length of its value off the counter. -/
theorem evict_counted (key : String) (h : c.bytes = totalLength c.entries.entries) :
    (c.evict key).bytes = totalLength (c.evict key).entries.entries := by
  have hsum := Dict.sum_erase (fun entry : Entry => entry.2.1.length) c.entries key
  rw [evict_entries]
  unfold DataUrlCache.evict
  unfold totalLength at h ⊢
  -- The sum of the lengths loses the same term as the counter.
  cases hentry : c.entries.get? key with
  | none =>
    rw [hentry, Option.elim_none] at hsum
    show c.bytes = _
    omega
  | some entry =>
    rw [hentry, Option.elim_some] at hsum
    dsimp only at hsum
    show c.bytes - entry.1.length = _
    omega

/-- The loop drops the oldest entries, as many as the new value needs and no more. -/
theorem makeRoom_spec (hcounted : c.bytes = totalLength c.entries.entries)
    (hsize : size ≤ c.budgetBytes) (hturns : c.entries.entries.length ≤ turns) :
    let room := DataUrlCache.makeRoom size turns c
    (room.budgetBytes = c.budgetBytes ∧ room.ttlSeconds = c.ttlSeconds) ∧
      room.bytes = totalLength room.entries.entries ∧
      room.bytes + size ≤ c.budgetBytes ∧
      ∃ n, room.entries.entries = c.entries.entries.drop n ∧
        ∀ m < n, totalLength (c.entries.entries.drop m) + size > c.budgetBytes := by
  induction turns generalizing c with
  | zero =>
    -- Without turns left there are no entries, so the counter is zero.
    have hnil : c.entries.entries = [] := List.length_eq_zero_iff.mp (Nat.le_zero.mp hturns)
    have hzero : totalLength c.entries.entries = 0 := by rw [hnil]; rfl
    refine ⟨⟨rfl, rfl⟩, hcounted, ?_, 0, rfl, fun m hm => absurd hm (Nat.not_lt_zero m)⟩
    show c.bytes + size ≤ c.budgetBytes
    omega
  | succ turns ih =>
    cases hentries : c.entries.entries with
    | nil =>
      -- The cache is empty, and an empty cache has room for what fits the budget.
      have hkeys : c.entries.keys = [] := by rw [Dict.keys, hentries]; rfl
      have hzero : totalLength c.entries.entries = 0 := by rw [hentries]; rfl
      have hroom : DataUrlCache.makeRoom size (turns + 1) c = c := by
        rw [DataUrlCache.makeRoom, hkeys]
      rw [hroom]
      refine ⟨⟨rfl, rfl⟩, hcounted, by omega, 0, hentries, fun m hm =>
        absurd hm (Nat.not_lt_zero m)⟩
    | cons oldest rest =>
      have hkeys : c.entries.keys = oldest.1 :: rest.map Prod.fst := by
        rw [Dict.keys, hentries]
        rfl
      rw [DataUrlCache.makeRoom, hkeys]
      dsimp only
      split
      · rename_i hfull
        -- The oldest entry is dropped, and the loop goes on with one entry less.
        have hrest : (c.evict oldest.1).entries.entries = rest := by
          rw [evict_entries]
          exact Dict.entries_erase_of_cons hentries
        have hlength : rest.length ≤ turns := by
          rw [hentries, List.length_cons] at hturns
          omega
        obtain ⟨⟨hbudget, httl⟩, hcount, hroom, n, hdrop, hneeded⟩ := @ih (c.evict oldest.1)
          (evict_counted _ hcounted) (by rw [evict_budgetBytes]; exact hsize)
          (by rw [hrest]; exact hlength)
        rw [evict_budgetBytes] at hbudget hroom hneeded
        rw [evict_ttlSeconds] at httl
        rw [hrest] at hdrop hneeded
        refine ⟨⟨hbudget, httl⟩, hcount, hroom, n + 1, hdrop, fun m hm => ?_⟩
        cases m with
        | zero =>
          -- The first entry was dropped because there was no room with it.
          rw [← hentries, List.drop_zero]
          omega
        | succ m => exact hneeded m (Nat.lt_of_succ_lt_succ hm)
      · rename_i hfits
        refine ⟨⟨rfl, rfl⟩, hcounted, by omega, 0, hentries, fun m hm =>
          absurd hm (Nat.not_lt_zero m)⟩

/-- A `put` that fits drops the old entry of its key and some of the oldest ones, and adds the new
entry at the end. -/
theorem put_of_le (now : Instant) (key : String)
    (hcounted : c.bytes = totalLength c.entries.entries) (h : dataUrl.length ≤ c.budgetBytes) :
    ((c.put now key dataUrl).budgetBytes = c.budgetBytes ∧
      (c.put now key dataUrl).ttlSeconds = c.ttlSeconds) ∧
      Books (c.put now key dataUrl) ∧
      ∃ n, (c.put now key dataUrl).entries.entries = (c.entries.erase key).entries.drop n ++
        [(key, dataUrl, DataUrlCache.expiresAt c.ttlSeconds now)] := by
  let room :=
    DataUrlCache.makeRoom dataUrl.length (c.evict key).entries.entries.length (c.evict key)
  have hput : c.put now key dataUrl = { room with
      entries := room.entries.insert key (dataUrl, DataUrlCache.expiresAt room.ttlSeconds now)
      bytes := room.bytes + dataUrl.length } := if_neg (Nat.not_lt.mpr h)
  obtain ⟨⟨hbudget, httl⟩, hcount, hroom, n, hdrop, -⟩ := @makeRoom_spec (c.evict key)
    dataUrl.length _ (evict_counted _ hcounted) (by rw [evict_budgetBytes]; exact h)
      (Nat.le_refl _)
  have hbudget : room.budgetBytes = c.budgetBytes := hbudget.trans evict_budgetBytes
  have httl : room.ttlSeconds = c.ttlSeconds := httl.trans evict_ttlSeconds
  have hdrop : room.entries.entries = (c.entries.erase key).entries.drop n := by
    rw [← evict_entries]
    exact hdrop
  -- The old entry of the key is gone, so the insert appends.
  have hnew : key ∉ room.entries.keys := by
    intro hkey
    obtain ⟨entry, hentry, hsame⟩ := List.mem_map.mp hkey
    rw [hdrop] at hentry
    exact (Dict.mem_entries_erase.mp (List.mem_of_mem_drop hentry)).2 hsame
  have hentries := Dict.entries_insert_of_not_mem hnew
    (dataUrl, DataUrlCache.expiresAt room.ttlSeconds now)
  rw [hput]
  refine ⟨⟨hbudget, httl⟩, ⟨?_, ?_⟩, n, ?_⟩
  · show room.bytes + dataUrl.length = _
    rw [hentries, hcount]
    simp [totalLength, room]
  · show room.bytes + dataUrl.length ≤ room.budgetBytes
    rw [hbudget, ← evict_budgetBytes]
    exact hroom
  · show (room.entries.insert key _).entries = _
    rw [hentries, hdrop, httl]

/-- A `get` that finds a value finds an entry that has not expired. -/
theorem get_eq_some (h : (c.get now key).1 = some dataUrl) :
    ∃ expires, c.entries.get? key = some (dataUrl, expires) ∧ now < expires := by
  unfold DataUrlCache.get at h
  split at h
  · cases h
  · rename_i value expires hentry
    split at h
    · cases h
    · rename_i hfresh
      cases h
      exact ⟨expires, hentry, Int.not_le.mp hfresh⟩

/-- A `get` leaves the cache, or evicts the key. -/
theorem get_cache (c : DataUrlCache) (now : Instant) (key : String) :
    (c.get now key).2 = c ∨ (c.get now key).2 = c.evict key := by
  unfold DataUrlCache.get
  split
  · exact .inl rfl
  · split
    · exact .inr rfl
    · exact .inl rfl

/-! ### One call -/

/-- What a call may do: nothing, an eviction, a new start, or a `put` that fits. -/
theorem step_cases (c : DataUrlCache) (call : Call) :
    (step c call = c ∧ inserted c.budgetBytes c.ttlSeconds call = none ∧
        ∀ key, ¬ Ends c.budgetBytes key call) ∨
      (∃ key, step c call = c.evict key ∧ inserted c.budgetBytes c.ttlSeconds call = none ∧
        ∀ key', Ends c.budgetBytes key' call → key' = key) ∨
      (step c call = c.clear ∧ inserted c.budgetBytes c.ttlSeconds call = none) ∨
      ∃ now key dataUrl, call = .put now key dataUrl ∧ dataUrl.length ≤ c.budgetBytes := by
  cases call with
  | get now key =>
    rcases get_cache c now key with hsame | hevicted
    · exact .inl ⟨hsame, rfl, fun _ h => h⟩
    · exact .inr (.inl ⟨key, hevicted, rfl, fun _ h => h.elim⟩)
  | put now key dataUrl =>
    by_cases hfits : dataUrl.length ≤ c.budgetBytes
    · exact .inr (.inr (.inr ⟨now, key, dataUrl, rfl, hfits⟩))
    · exact .inl ⟨if_pos (Nat.not_le.mp hfits), if_neg hfits, fun _ h => hfits h.2⟩
  | evict key => exact .inr (.inl ⟨key, rfl, rfl, fun _ h => h.symm⟩)
  | clear => exact .inr (.inr (.inl ⟨rfl, rfl⟩))

/-- An eviction leaves less to count. -/
theorem totalLength_erase_le (d : Dict String (String × Instant)) (key : String) :
    totalLength (d.erase key).entries ≤ totalLength d.entries := by
  have hsum := Dict.sum_erase (fun entry : Entry => entry.2.1.length) d key
  unfold totalLength
  omega

/-- The settings stay. -/
theorem step_settings (h : Books c) (call : Call) :
    (step c call).budgetBytes = c.budgetBytes ∧ (step c call).ttlSeconds = c.ttlSeconds := by
  rcases step_cases c call with ⟨heq, -⟩ | ⟨key, heq, -⟩ | ⟨heq, -⟩ |
    ⟨now, key, dataUrl, rfl, hfits⟩
  · rw [heq]
    exact ⟨rfl, rfl⟩
  · rw [heq]
    exact ⟨evict_budgetBytes, evict_ttlSeconds⟩
  · rw [heq]
    exact ⟨rfl, rfl⟩
  · exact (put_of_le _ _ h.counted hfits).1

/-- A call keeps the books. -/
theorem step_books (h : Books c) (call : Call) : Books (step c call) := by
  rcases step_cases c call with ⟨heq, -⟩ | ⟨key, heq, -⟩ | ⟨heq, -⟩ |
    ⟨now, key, dataUrl, rfl, hfits⟩
  · rw [heq]
    exact h
  · rw [heq]
    -- An eviction only lowers the counter.
    have hcounted := evict_counted key h.counted
    refine ⟨hcounted, ?_⟩
    have hle := totalLength_erase_le c.entries key
    have hcount := h.counted
    have hwithin := h.within
    rw [hcounted, evict_entries, evict_budgetBytes]
    omega
  · rw [heq]
    exact ⟨rfl, Int.natCast_nonneg _⟩
  · exact (put_of_le _ _ h.counted hfits).2.1

/-- The entries after a call are old ones in their order, and then the one that the call
inserts. -/
theorem step_entries (h : Books c) (call : Call) : (step c call).entries.entries.Sublist
    (c.entries.entries ++ (inserted c.budgetBytes c.ttlSeconds call).toList) := by
  rcases step_cases c call with ⟨heq, hnone, -⟩ | ⟨key, heq, hnone, -⟩ | ⟨heq, hnone⟩ |
    ⟨now, key, dataUrl, rfl, hfits⟩
  · rw [heq, hnone, Option.toList_none, List.append_nil]
  · rw [heq, hnone, Option.toList_none, List.append_nil, evict_entries]
    exact List.filter_sublist
  · rw [heq]
    exact List.nil_sublist _
  · -- Dropping from the front and from the middle keeps the order of the others.
    obtain ⟨-, -, n, hentries⟩ := put_of_le now key h.counted hfits
    have hsome : inserted c.budgetBytes c.ttlSeconds (.put now key dataUrl) =
        some (key, dataUrl, DataUrlCache.expiresAt c.ttlSeconds now) := if_pos hfits
    show (c.put now key dataUrl).entries.entries.Sublist _
    rw [hentries, hsome]
    exact ((List.drop_sublist n _).trans List.filter_sublist).append (List.Sublist.refl _)

/-- An entry after a call is the one that the call inserts, or an old one that the call does not
end. -/
theorem mem_step_entries (h : Books c) (hentry : entry ∈ (step c call).entries.entries) :
    (∃ now, call = .put now entry.1 entry.2.1 ∧ entry.2.1.length ≤ c.budgetBytes ∧
      entry.2.2 = DataUrlCache.expiresAt c.ttlSeconds now) ∨
    (entry ∈ c.entries.entries ∧ ¬ Ends c.budgetBytes entry.1 call) := by
  rcases step_cases c call with ⟨heq, -, hends⟩ | ⟨key, heq, -, hends⟩ | ⟨heq, -⟩ |
    ⟨now, key, dataUrl, rfl, hfits⟩
  · rw [heq] at hentry
    exact .inr ⟨hentry, hends entry.1⟩
  · rw [heq, evict_entries, Dict.mem_entries_erase] at hentry
    exact .inr ⟨hentry.1, fun hend => hentry.2 (hends entry.1 hend)⟩
  · rw [heq] at hentry
    cases hentry
  · obtain ⟨-, -, n, hentries⟩ := put_of_le now key h.counted hfits
    have hmem : entry ∈ (c.put now key dataUrl).entries.entries := hentry
    rw [hentries, List.mem_append, List.mem_singleton] at hmem
    -- An old entry has another key, so the call does not end it.
    rcases hmem with hold | rfl
    · obtain ⟨hold, hne⟩ := Dict.mem_entries_erase.mp (List.mem_of_mem_drop hold)
      exact .inr ⟨hold, fun hend => hne hend.1.symm⟩
    · exact .inl ⟨now, rfl, hfits, rfl⟩

/-! ### A whole run -/

@[simp] theorem run_concat (calls : List Call) (call : Call) :
    run budgetBytes ttlSeconds (calls ++ [call]) =
      step (run budgetBytes ttlSeconds calls) call := by
  simp [run]

/-- The books are kept over a run, and the settings stay. -/
theorem run_books (budgetBytes : Nat) (ttlSeconds : Int) (calls : List Call) :
    Books (run budgetBytes ttlSeconds calls) ∧
      (run budgetBytes ttlSeconds calls).budgetBytes = budgetBytes ∧
      (run budgetBytes ttlSeconds calls).ttlSeconds = ttlSeconds := by
  induction calls using List.reverseRecOn with
  | nil => exact ⟨⟨rfl, Int.natCast_nonneg _⟩, rfl, rfl⟩
  | append_singleton calls call ih =>
    obtain ⟨hbooks, hbudget, httl⟩ := ih
    rw [run_concat]
    obtain ⟨hbudget', httl'⟩ := step_settings hbooks call
    exact ⟨step_books hbooks call, hbudget'.trans hbudget, httl'.trans httl⟩

/-- The entries are in the order of their insertion. -/
theorem run_entries (budgetBytes : Nat) (ttlSeconds : Int) (calls : List Call) :
    (run budgetBytes ttlSeconds calls).entries.entries.Sublist
      (calls.filterMap (inserted budgetBytes ttlSeconds)) := by
  induction calls using List.reverseRecOn with
  | nil => exact List.Sublist.refl _
  | append_singleton calls call ih =>
    obtain ⟨hbooks, hbudget, httl⟩ := run_books budgetBytes ttlSeconds calls
    have hstep := step_entries hbooks call
    rw [hbudget, httl] at hstep
    rw [run_concat, List.filterMap_append]
    have hlast : [call].filterMap (inserted budgetBytes ttlSeconds) =
        (inserted budgetBytes ttlSeconds call).toList := by
      cases hcall : inserted budgetBytes ttlSeconds call <;> simp [hcall]
    rw [hlast]
    exact hstep.trans (ih.append (List.Sublist.refl _))

/-- Each entry comes from a `put`, and nothing has ended it since. -/
theorem run_stored (hentry : entry ∈ (run budgetBytes ttlSeconds calls).entries.entries) :
    Stored budgetBytes ttlSeconds calls entry := by
  induction calls using List.reverseRecOn with
  | nil => cases hentry
  | append_singleton calls call ih =>
    -- The last call put the entry, or left it, and then the calls before it tell where it is
    -- from.
    obtain ⟨hbooks, hbudget, httl⟩ := run_books budgetBytes ttlSeconds calls
    have hafter := hentry
    rw [run_concat] at hentry
    rcases mem_step_entries hbooks hentry with ⟨now, rfl, hfits, hexpires⟩ | ⟨hold, hend⟩
    · rw [hbudget] at hfits
      rw [httl] at hexpires
      refine ⟨calls, now, [], rfl, hfits, hexpires, fun call hcall =>
        absurd hcall List.not_mem_nil, ?_⟩
      intro first rest hsplit
      obtain ⟨rfl, rfl⟩ := List.append_eq_nil_iff.mp hsplit.symm
      exact hafter
    · rw [hbudget] at hend
      obtain ⟨before, now, after, rfl, hfits, hexpires, hends, hthere⟩ := ih hold
      refine ⟨before, now, after ++ [call], by simp, hfits, hexpires, ?_, ?_⟩
      · intro other hother
        rcases List.mem_append.mp hother with hother | hother
        · exact hends other hother
        · rw [List.mem_singleton.mp hother]
          exact hend
      · intro first rest hsplit
        -- The entry is there after the last call, and after each call before it by the induction.
        rcases List.eq_nil_or_concat rest with rfl | ⟨rest, last, rfl⟩
        · rw [List.append_nil] at hsplit
          rw [← hsplit]
          simpa using hafter
        · rw [List.concat_eq_append, ← List.append_assoc] at hsplit
          exact hthere first rest (List.append_inj_left' hsplit rfl)

end

/-- After any calls, the counter is the sum of the lengths of the cached values, and within the
budget. A `put` that fits drops the oldest entries until it has room, and no more of them than it
needs. A `get` returns nothing, or the value of the last `put` of its key that fitted, when it has
neither expired nor been dropped. -/
theorem data_url_cache_books (budgetBytes : Nat) (ttlSeconds : Int) (calls : List Call) :
    let c := run budgetBytes ttlSeconds calls
    (c.bytes = totalLength c.entries.entries ∧ c.bytes ≤ budgetBytes) ∧
    c.entries.entries.Sublist (calls.filterMap (inserted budgetBytes ttlSeconds)) ∧
    (∀ key dataUrl : String, dataUrl.length ≤ budgetBytes →
      let evicted := c.evict key
      let room := DataUrlCache.makeRoom dataUrl.length evicted.entries.entries.length evicted
      room.bytes + dataUrl.length ≤ budgetBytes ∧
        ∃ n, room.entries.entries = evicted.entries.entries.drop n ∧
          ∀ m < n, totalLength (evicted.entries.entries.drop m) + dataUrl.length > budgetBytes) ∧
    ∀ now key dataUrl, (c.get now key).1 = some dataUrl →
      ∃ expires, now < expires ∧ Stored budgetBytes ttlSeconds calls (key, dataUrl, expires) := by
  intro c
  obtain ⟨hbooks, hbudget, httl⟩ := run_books budgetBytes ttlSeconds calls
  refine ⟨⟨hbooks.counted, ?_⟩, run_entries budgetBytes ttlSeconds calls, ?_, ?_⟩
  · rw [← hbudget]
    exact hbooks.within
  · intro key dataUrl hfits
    have hfits : dataUrl.length ≤ (c.evict key).budgetBytes := by
      rw [evict_budgetBytes, hbudget]
      exact hfits
    obtain ⟨-, -, hroom, hdrop⟩ :=
      makeRoom_spec (evict_counted _ hbooks.counted) hfits (Nat.le_refl _)
    rw [evict_budgetBytes, hbudget] at hroom hdrop
    exact ⟨hroom, hdrop⟩
  · intro now key dataUrl hget
    obtain ⟨expires, hentry, hfresh⟩ := get_eq_some hget
    exact ⟨expires, hfresh, run_stored (Dict.get?_eq_some.mp hentry)⟩

end RedTeaming.Media
