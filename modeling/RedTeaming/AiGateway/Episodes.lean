import RedTeaming.AiGateway.Inactivity

/-!
# `RedTeaming.AiGateway.Episodes`: one alert for each quiet episode

`inactivity_episodes` is about every interleaving of sweeps, stamps, saves, deletes, and restores.
A claim finds its model quiet for the threshold, counted from the last use before it. Between two
claims of a model there is a write that re-arms the alert. And the stamp that a model carries was
claimed after the last such write.

The column `inactivity_alerted_at` is a latch: a claim sets it, and each write that re-arms the
alert resets it. `Valid` says so of one write. `Recorded` says that a write starts from the row
that the history before it has left, which the lock of the row gives. The rest is read off the
latch.
-/

set_option autoImplicit false

namespace RedTeaming.AiGateway.Inactivity

open RedTeaming.Library

/-! ### One write -/

/-- What a write does to the latch of its model. -/
def Entry.signal (e : Entry) : Signal Time :=
  if e.rearms then .reset
  else
    match e.cause with
    | .claim now => .set now
    | _ => .keep

/-- What a write does to the latch of a model. -/
def Entry.signalFor (modelId : UUID) (e : Entry) : Signal Time :=
  if e.before.id = modelId then e.signal else .keep

/-- What a write does to the columns of the alert. -/
structure Valid (e : Entry) : Prop where
  id : e.after.id = e.before.id
  createdAt : e.after.createdAt = e.before.createdAt
  used : e.after.lastUsedAt = (e.usedAt e.before.id).or e.before.lastUsedAt
  alerted : e.after.inactivityAlertedAt = e.signal.apply e.before.inactivityAlertedAt
  claims : ∀ now, e.cause = .claim now →
    e.rearms = false ∧ e.before.live = true ∧ inactivePredicate now e.before = true

section
variable {env : Env} {now : Time} {before after : AiModel} {e : Entry} {models : Table AiModel}
  {cause : Cause} {stamp : Stamp} {action : Action} {modelId : UUID}

/-- A write that leaves the knobs restores none. -/
theorem restoresKnob_eq_false (hlive : after.live = before.live)
    (hdisabled : after.disabledAt = before.disabledAt)
    (hwarmup : after.warmupEnabled = before.warmupEnabled)
    (hhours : after.inactivityAlertHours = before.inactivityAlertHours) :
    restoresKnob before after = false := by
  rw [restoresKnob, hlive, hdisabled, hwarmup, hhours]
  cases before.disabledAt <;> cases before.warmupEnabled <;> cases before.inactivityAlertHours <;>
    cases before.live <;> rfl

/-- A usage stamp is real traffic, so it re-arms the alert. A warm-up stamp leaves it. -/
theorem valid_stamp (h : stamp.apply before = some after) :
    Valid ⟨.stamp stamp, before, after⟩ := by
  cases stamp with
  | usage now =>
    cases h
    exact
      { id := rfl
        createdAt := rfl
        used := by simp [Entry.usedAt]
        alerted := rfl
        claims := nofun }
  | warmup now =>
    simp only [Stamp.apply] at h
    split at h
    · cases h
      have hknob : restoresKnob before { before with lastWarmupAt := some now } = false :=
        restoresKnob_eq_false rfl rfl rfl rfl
      exact
        { id := rfl
          createdAt := rfl
          used := by simp [Entry.usedAt]
          alerted := by simp [Entry.signal, Entry.rearms, Cause.isUsage, hknob, Signal.apply]
          claims := nofun }
    · cases h

/-- A claim sets the latch of a quiet model, and restores no knob. -/
theorem valid_claim (h : claim now before = some after) : Valid ⟨.claim now, before, after⟩ := by
  unfold claim at h
  split at h
  · rename_i hquiet
    rw [Bool.and_eq_true] at hquiet
    cases h
    have hknob : restoresKnob before { before with inactivityAlertedAt := some now } = false :=
      restoresKnob_eq_false rfl rfl rfl rfl
    have hrearms : Entry.rearms
        ⟨.claim now, before, { before with inactivityAlertedAt := some now }⟩ = false := hknob
    exact
      { id := rfl
        createdAt := rfl
        used := by simp [Entry.usedAt]
        alerted := by simp [Entry.signal, hrearms, Signal.apply]
        claims := fun now' hcause => by
          cases hcause
          exact ⟨hrearms, hquiet⟩ }
  · cases h

/-- A patch restores a knob when it writes one that was off, or enables the model. -/
theorem restoresKnob_apply (changes : AiModelUpdateChanges) (now : Time) (before : AiModel) :
    restoresKnob before (changes.apply now before) =
      (changes.rearms before || before.disabledAt.isSome && changes.isDisabled ==
        some false) := by
  have hwarmup : (changes.apply now before).warmupEnabled =
      changes.warmupEnabled.getD before.warmupEnabled := rfl
  have hhours : (changes.apply now before).inactivityAlertHours =
      changes.inactivityAlertHours.getD before.inactivityAlertHours := rfl
  rw [restoresKnob, changes.apply_disabledAt, changes.apply_toBaseModel, hwarmup, hhours,
    AiModelUpdateChanges.rearms]
  cases before.disabledAt <;> cases before.warmupEnabled <;> cases before.inactivityAlertHours <;>
    rcases changes.isDisabled with _ | _ | _ <;> rcases changes.warmupEnabled with _ | _ | _ <;>
    rcases changes.inactivityAlertHours with _ | _ | _ <;> simp

/-- A save leaves the times, and clears the stamp when it restores a knob. -/
theorem updateModel_alert {changes : AiModelUpdateChanges}
    (h : updateModel env now before changes = .ok after) :
    after.toBaseModel = before.toBaseModel ∧ after.lastUsedAt = before.lastUsedAt ∧
      after.inactivityAlertedAt =
        if restoresKnob before after then none else before.inactivityAlertedAt := by
  simp only [updateModel, bind_eq_ok] at h
  obtain ⟨_, -, h⟩ := h
  have hbase := changes.apply_toBaseModel now before
  have hused := changes.apply_lastUsedAt now before
  have hstamp : (changes.apply now before).inactivityAlertedAt =
      if restoresKnob before (changes.apply now before) then none
        else before.inactivityAlertedAt := by
    rw [restoresKnob_apply]
    exact changes.apply_inactivityAlertedAt now before
  cases h
  split
  · exact ⟨hbase, hused, hstamp⟩
  · exact ⟨hbase, hused, hstamp⟩

/-- What the locked read of a request has found: a live row, or a tombstone for a restore. -/
def Action.Found (model : AiModel) : Action → Prop
  | .update .. | .delete .. => model.live = true
  | .restore _ => model.live = false

theorem Action.found_of_load (h : action.load models modelId = some before) :
    before ∈ models ∧ key before = modelId ∧ action.Found before := by
  cases action with
  | update now changes => exact findLive_eq_some.mp h
  | delete now byId => exact findLive_eq_some.mp h
  | restore cutoff =>
    obtain ⟨hmem, hkey, -⟩ := findRestorable_eq_some.mp h
    exact ⟨hmem, hkey, not_live_of_findRestorable h⟩

/-- A request re-arms the alert when it restores a knob, and leaves it otherwise. -/
theorem valid_action (hfound : action.Found before)
    (h : action.apply env models before = .ok after) :
    Valid ⟨.action action, before, after⟩ := by
  have hvalid : ∀ {after : AiModel}, after.id = before.id → after.createdAt = before.createdAt →
      after.lastUsedAt = before.lastUsedAt →
      after.inactivityAlertedAt =
        (if restoresKnob before after then none else before.inactivityAlertedAt) →
      Valid ⟨.action action, before, after⟩ := by
    intro after hid hcreated hused halert
    refine ⟨hid, hcreated, ?_, ?_, nofun⟩
    · simpa [Entry.usedAt] using hused
    · rw [halert]
      cases hknob : restoresKnob before after <;>
        simp [Entry.signal, Entry.rearms, Cause.isUsage, hknob, Signal.apply]
  cases action with
  | update now changes =>
    simp only [Action.apply, bind_eq_ok] at h
    obtain ⟨updated, hupdate, _, -, h⟩ := h
    cases h
    obtain ⟨hbase, hused, halert⟩ := updateModel_alert hupdate
    exact hvalid (congrArg BaseModel.id hbase) (congrArg BaseModel.createdAt hbase) hused halert
  | delete now byId =>
    cases h
    have hknob : restoresKnob before (softDelete now byId before) = false := by
      have hdead : (softDelete now byId before).live = false := live_softDelete now byId before
      have hdisabled : (softDelete now byId before).disabledAt = before.disabledAt := rfl
      have hwarmup : (softDelete now byId before).warmupEnabled = before.warmupEnabled := rfl
      have hhours : (softDelete now byId before).inactivityAlertHours =
          before.inactivityAlertHours :=
        rfl
      rw [restoresKnob, hdead, hdisabled, hwarmup, hhours]
      cases before.disabledAt <;> cases before.warmupEnabled <;>
        cases before.inactivityAlertHours <;> simp
    refine hvalid rfl rfl rfl ?_
    rw [hknob]
    rfl
  | restore cutoff =>
    simp only [Action.apply, bind_eq_ok] at h
    obtain ⟨_, -, _, -, h⟩ := h
    cases h
    have hdead : before.live = false := hfound
    have hknob : restoresKnob before before.restore = true := by
      have hlive : before.restore.live = true := rfl
      rw [restoresKnob, hdead, hlive]
      simp
    refine hvalid rfl rfl rfl ?_
    rw [hknob]
    rfl

/-- A write of other columns leaves the alert. -/
theorem valid_other (h : leavesAlert before after = true) : Valid ⟨.other, before, after⟩ := by
  simp only [leavesAlert, Bool.and_eq_true, decide_eq_true_eq, beq_iff_eq] at h
  obtain ⟨⟨⟨⟨⟨⟨hbase, hdisabled⟩, hwarmup⟩, hhours⟩, hused⟩, -⟩, halert⟩ := h
  have hlive : after.live = before.live := congrArg BaseModel.live hbase
  have hknob : restoresKnob before after = false :=
    restoresKnob_eq_false hlive hdisabled hwarmup hhours
  exact
    { id := congrArg BaseModel.id hbase
      createdAt := congrArg BaseModel.createdAt hbase
      used := by simpa [Entry.usedAt] using hused
      alerted := by
        simpa [Entry.signal, Entry.rearms, Cause.isUsage, hknob, Signal.apply] using halert
      claims := nofun }

/-! ### The history -/

/-- The write starts from the row that the history before it has left. -/
structure Recorded (log : List Entry) (e : Entry) : Prop where
  valid : Valid e
  alerted : e.before.inactivityAlertedAt = latch (log.map (Entry.signalFor e.before.id))
  used : e.before.lastUsedAt = lastUse log e.before.id

/-- Each write of the history starts from what the writes before it have left. -/
def History (log : List Entry) : Prop :=
  ∀ before e after, log = before ++ e :: after → Recorded before e

/-- The row is what the history has left. -/
structure Left (log : List Entry) (row : AiModel) : Prop where
  alerted : row.inactivityAlertedAt = latch (log.map (Entry.signalFor row.id))
  used : row.lastUsedAt = lastUse log row.id

variable {log : List Entry} {row : AiModel}

/-- One more write. -/
theorem History.concat (h : History log) (hrecorded : Recorded log e) : History (log ++ [e]) := by
  intro before e' after hsplit
  rcases List.eq_nil_or_concat after with rfl | ⟨after, last, rfl⟩
  · obtain ⟨rfl, hlast⟩ := List.append_inj' hsplit rfl
    cases hlast
    exact hrecorded
  · rw [List.concat_eq_append, ← List.cons_append, ← List.append_assoc] at hsplit
    obtain ⟨hlog, -⟩ := List.append_inj' hsplit rfl
    exact h before e' after hlog

/-- The last use after one more write. -/
theorem lastUse_concat (log : List Entry) (e : Entry) (modelId : UUID) :
    lastUse (log ++ [e]) modelId = (e.usedAt modelId).or (lastUse log modelId) := by
  unfold lastUse
  rw [List.filterMap_append, List.getLast?_append]
  cases h : e.usedAt modelId <;> simp [h]

/-- The row that a write makes is what the history has left with it. -/
theorem Recorded.left (h : Recorded log e) : Left (log ++ [e]) e.after where
  alerted := by
    rw [h.valid.alerted, List.map_append, List.map_singleton, latch_concat,
      h.valid.id, ← h.alerted, Entry.signalFor, if_pos rfl]
  used := by
    rw [lastUse_concat, h.valid.used, h.valid.id, ← h.used]

/-- A write of another row leaves this one. -/
theorem Left.concat (h : Left log row) (hne : e.before.id ≠ row.id) : Left (log ++ [e]) row where
  alerted := by
    rw [h.alerted, List.map_append, List.map_singleton, latch_concat, Entry.signalFor, if_neg hne]
    rfl
  used := by
    rw [h.used, lastUse_concat, Entry.usedAt, if_neg hne]
    rfl

/-- A row without stamps is what a history without its model has left. -/
theorem left_of_forall_ne (halerted : row.inactivityAlertedAt = none)
    (hused : row.lastUsedAt = none) (h : ∀ e ∈ log, e.before.id ≠ row.id) : Left log row := by
  induction log using List.reverseRecOn with
  | nil => exact ⟨halerted, hused⟩
  | append_singleton log e ih =>
    have hlog : Left log row := ih fun e' he' => h e' (List.mem_append_left _ he')
    exact hlog.concat (h e (List.mem_append_right _ (List.mem_singleton.mpr rfl)))

end

/-! ### One step -/

/-- What a party knows where it is: it holds the lock of the row that it has read or written. -/
def PhaseOk (s : State) (p : PartyId) : Phase → Prop
  | .loaded model action =>
    s.locks (key model) = some p ∧ model ∈ s.models ∧ action.Found model
  | .written cause after _ =>
    s.locks (key after) = some p ∧
      ∃ before ∈ s.models, key before = key after ∧ Valid ⟨cause, before, after⟩
  | .stamping .. | .selecting .. | .sweeping .. => True

/-- What holds in every reachable state. -/
structure Inv (s : State) : Prop where
  history : History s.log
  rows : ∀ row ∈ s.models, Left s.log row
  known : ∀ e ∈ s.log, ∃ row ∈ s.models, key row = key e.before
  parties : ∀ p phase, s.parties p = some phase → PhaseOk s p phase

/-- What a step of others leaves to a party: its locks, and the rows that it has locked. -/
structure Keeps (s s' : State) (p : PartyId) : Prop where
  locks : ∀ k, s.locks k = some p → s'.locks k = some p
  rows : ∀ row ∈ s.models, s.locks (key row) = some p → row ∈ s'.models

section
variable {env : Env} {s s' : State} {p : PartyId} {phase : Phase}
  {before after : AiModel} {e : Entry}

theorem PhaseOk.keep (h : PhaseOk s p phase) (hk : Keeps s s' p) : PhaseOk s' p phase := by
  cases phase with
  | loaded model action => exact ⟨hk.locks _ h.1, hk.rows model h.2.1 h.1, h.2.2⟩
  | written cause after rest =>
    obtain ⟨hlock, before, hmem, hkey, hvalid⟩ := h
    have hheld : s.locks (key before) = some p := by
      rw [hkey]
      exact hlock
    exact ⟨hk.locks _ hlock, before, hk.rows before hmem hheld, hkey, hvalid⟩
  | stamping | selecting | sweeping => trivial

/-- A step that commits nothing: the records of the others stay, and so do their locks. -/
theorem Inv.idle (h : Inv s) (hmodels : s'.models = s.models) (hlog : s'.log = s.log)
    (hlocks : ∀ p' k, p' ≠ p → s.locks k = some p' → s'.locks k = some p')
    (hothers : ∀ p', p' ≠ p → s'.parties p' = s.parties p')
    (hself : ∀ phase, s'.parties p = some phase → PhaseOk s' p phase) : Inv s' := by
  refine ⟨?_, ?_, ?_, fun p' phase hphase => ?_⟩
  · rw [hlog]
    exact h.history
  · rw [hlog, hmodels]
    exact h.rows
  · rw [hlog, hmodels]
    exact h.known
  · by_cases hsame : p' = p
    · subst hsame
      exact hself phase hphase
    · rw [hothers p' hsame] at hphase
      refine (h.parties p' phase hphase).keep ⟨fun k => hlocks p' k hsame, fun row hrow _ => ?_⟩
      rw [hmodels]
      exact hrow

/-- A party goes on, without a new lock. -/
theorem Inv.setPhase (h : Inv s) (hphase : PhaseOk s p phase) : Inv (s.setPhase p phase) := by
  refine h.idle rfl rfl (fun _ _ _ hheld => hheld) (fun p' hne => Records.set_of_ne hne) ?_
  intro phase' hset
  have hself : s.parties.set p phase p = some phase' := hset
  rw [Records.set_self] at hself
  cases hself
  cases phase <;> exact hphase

/-- A party is done. -/
theorem Inv.leave (h : Inv s) : Inv (s.leave p) := by
  refine h.idle rfl rfl (fun p' k hne hheld => Locks.held_release hne hheld)
    (fun p' hne => Records.drop_of_ne hne) ?_
  intro phase' hdrop
  have hself : s.parties.drop p p = some phase' := hdrop
  rw [Records.drop_self] at hself
  cases hself

/-- A lock that is taken is held, and nothing else changes. -/
theorem lock_spec {modelId : UUID} (hlock : s.lock p modelId = some s') :
    s'.models = s.models ∧ s'.log = s.log ∧ s'.parties = s.parties ∧ s'.locks modelId = some p ∧
      ∀ p' k, s.locks k = some p' → s'.locks k = some p' := by
  unfold State.lock at hlock
  split at hlock
  · rename_i hmay
    cases hlock
    exact ⟨rfl, rfl, rfl, Locks.take_self _ _ _, fun _ _ hheld => Locks.held_take hmay hheld⟩
  · cases hlock

/-- A party takes a lock. -/
theorem Inv.lock {modelId : UUID} (h : Inv s) (hlock : s.lock p modelId = some s') : Inv s' := by
  obtain ⟨hmodels, hlog, hparties, -, hlocks⟩ := lock_spec hlock
  refine ⟨by rw [hlog]; exact h.history, by rw [hlog, hmodels]; exact h.rows,
    by rw [hlog, hmodels]; exact h.known, fun p' phase hphase => ?_⟩
  rw [hparties] at hphase
  refine (h.parties p' phase hphase).keep ⟨fun k => hlocks p' k, fun row hrow _ => ?_⟩
  rw [hmodels]
  exact hrow

/-- An update under the lock of its row. -/
theorem Inv.update {locked : State} {cause : Cause} {rest : Option (Time × List UUID)}
    {modelId : UUID} (h : Inv s) (hfind : s.models.find? modelId = some before)
    (hvalid : Valid ⟨cause, before, after⟩) (hlock : s.lock p modelId = some locked) :
    Inv (locked.setPhase p (.written cause after rest)) := by
  obtain ⟨hmodels, -, -, hheld, -⟩ := lock_spec hlock
  obtain ⟨hmem, hkey⟩ := Table.find?_eq_some.mp hfind
  have hid : key after = modelId := hvalid.id.trans hkey
  refine (h.lock hlock).setPhase ⟨?_, before, ?_, hkey.trans hid.symm, hvalid⟩
  · rw [hid]
    exact hheld
  · rw [hmodels]
    exact hmem

/-- One statement of a party commits nothing. -/
theorem inv_statement (h : Inv s) (hphase : PhaseOk s p phase)
    (hstep : statement env s p phase = some s') : Inv s' := by
  unfold statement at hstep
  split at hstep
  · rename_i modelId stamp
    split at hstep
    · rename_i after hafter
      obtain ⟨before, hfind, happly⟩ := Option.bind_eq_some_iff.mp hafter
      obtain ⟨locked, hlock, rfl⟩ := Option.map_eq_some_iff.mp hstep
      exact h.update hfind (valid_stamp happly) hlock
    · cases hstep
      exact h.leave
  · rename_i model action
    obtain ⟨hheld, hmem, hfound⟩ := hphase
    obtain ⟨after, happly, rfl⟩ := Option.map_eq_some_iff.mp hstep
    have hvalid := valid_action hfound (toOption_eq_some.mp happly)
    have hkey : key after = key model := hvalid.id
    refine h.setPhase ⟨?_, model, hmem, hkey.symm, hvalid⟩
    rw [hkey]
    exact hheld
  · rename_i now recipients
    cases hstep
    split
    · exact h.setPhase trivial
    · exact h.leave
  · cases hstep
    exact h.leave
  · rename_i now modelId rest
    split at hstep
    · rename_i after hafter
      obtain ⟨before, hfind, hclaim⟩ := Option.bind_eq_some_iff.mp hafter
      obtain ⟨locked, hlock, rfl⟩ := Option.map_eq_some_iff.mp hstep
      exact h.update hfind (valid_claim hclaim) hlock
    · cases hstep
      exact h.setPhase trivial
  · cases hstep

/-- A committed write starts from the row that the history has left. -/
theorem Inv.recorded (h : Inv s) (hmem : e.before ∈ s.models) (hvalid : Valid e) :
    Recorded s.log e :=
  ⟨hvalid, (h.rows e.before hmem).alerted, (h.rows e.before hmem).used⟩

/-- What the history has left after one more write. -/
theorem Inv.rows_overwrite (h : Inv s) (hmem : e.before ∈ s.models) (hvalid : Valid e) :
    ∀ row ∈ s.models.overwrite [e.after], Left (s.log ++ [e]) row := by
  intro row hrow
  rcases Table.overwrite_cases hrow with hnew | ⟨hold, hother⟩
  · obtain rfl := List.mem_singleton.mp hnew
    exact (h.recorded hmem hvalid).left
  · refine (h.rows row hold).concat fun hsame => ?_
    have hkey : key e.after = key row := hvalid.id.trans hsame
    exact hother e.after (List.mem_singleton.mpr rfl) hkey

/-- Every written model is still there after one more write. -/
theorem Inv.known_overwrite (h : Inv s) (hmem : e.before ∈ s.models) :
    ∀ e' ∈ s.log ++ [e], ∃ row ∈ s.models.overwrite [e.after], key row = key e'.before := by
  intro e' he'
  rcases List.mem_append.mp he' with hold | hnew
  · obtain ⟨row, hrow, hkey⟩ := h.known e' hold
    obtain ⟨row', hrow', hkey'⟩ := Table.exists_overwrite [e.after] hrow
    exact ⟨row', hrow', hkey'.trans hkey⟩
  · obtain rfl := List.mem_singleton.mp hnew
    exact Table.exists_overwrite [e'.after] hmem

/-- A write leaves the rows that another party has locked. -/
theorem mem_overwrite_of_locked {row : AiModel} (hrow : row ∈ s.models)
    (hlocked : s.locks (key row) = some p) (hfree : s.locks (key after) ≠ some p) :
    row ∈ s.models.overwrite [after] := by
  refine Table.mem_overwrite_of_ne hrow fun new hnew hkey => ?_
  obtain rfl := List.mem_singleton.mp hnew
  rw [hkey] at hfree
  exact hfree hlocked

/-- The commit of a write. -/
theorem inv_commit (h : Inv s) (hphase : PhaseOk s p phase) (hstep : commit s p phase = some s') :
    Inv s' := by
  unfold commit at hstep
  split at hstep
  · rename_i cause after rest
    obtain ⟨hheld, before, hmem, hkey, hvalid⟩ := hphase
    obtain ⟨found, hfind, rfl⟩ := Option.map_eq_some_iff.mp hstep
    obtain ⟨hfound, hkey'⟩ := Table.find?_eq_some.mp hfind
    obtain rfl : found = before := Table.eq_of_key_eq hfound hmem (hkey'.trans hkey.symm)
    have hcommitted : Inv { s.leave p with
        models := s.models.overwrite [after]
        log := s.log ++ [⟨cause, found, after⟩] } := by
      refine ⟨h.history.concat (h.recorded hmem hvalid), h.rows_overwrite hmem hvalid,
        h.known_overwrite hmem, fun p' phase' hphase' => ?_⟩
      obtain ⟨hne, hold⟩ := Records.of_drop hphase'
      refine (h.parties p' phase' hold).keep
        ⟨fun k hk => Locks.held_release hne hk, fun row hrow hlocked => ?_⟩
      -- the row is locked by the party that commits, so no other party has it in its hands
      refine mem_overwrite_of_locked hrow hlocked fun hother => ?_
      rw [hheld] at hother
      exact hne (Option.some.inj hother).symm
    cases rest with
    | none => exact hcommitted
    | some next => exact hcommitted.setPhase trivial
  · cases hstep

/-- A write of other columns, to a row that nobody has locked. -/
theorem inv_other {model : AiModel} (h : Inv s) (hstep : step env s (.other model) = some s') :
    Inv s' := by
  simp only [step, Option.bind_eq_some_iff] at hstep
  obtain ⟨before, hfind, hstep⟩ := hstep
  split at hstep
  · rename_i hguard
    rw [Bool.and_eq_true, Option.isNone_iff_eq_none] at hguard
    obtain ⟨hfree, hleaves⟩ := hguard
    obtain ⟨hmem, -⟩ := Table.find?_eq_some.mp hfind
    have hvalid : Valid ⟨.other, before, model⟩ := valid_other hleaves
    cases hstep
    refine ⟨h.history.concat (h.recorded hmem hvalid), h.rows_overwrite hmem hvalid,
      h.known_overwrite hmem, fun p' phase' hphase' => ?_⟩
    refine (h.parties p' phase' hphase').keep ⟨fun _ hk => hk, fun row hrow hlocked => ?_⟩
    refine mem_overwrite_of_locked hrow hlocked ?_
    rw [hfree]
    exact Option.some_ne_none _ ∘ Eq.symm
  · cases hstep

/-- A new model has no history. -/
theorem inv_create {modelId : UUID} {now : Time} {payload : AiModelCreate} (h : Inv s)
    (hstep : step env s (.create modelId now payload) = some s') : Inv s' := by
  simp only [step, Option.map_eq_some_iff, toOption_eq_some, bind_eq_ok] at hstep
  obtain ⟨models, ⟨model, hcreate, _, -, hflush⟩, rfl⟩ := hstep
  simp only [createModel, bind_eq_ok] at hcreate
  obtain ⟨_, -, _, -, _, -, hcreate⟩ := hcreate
  cases hcreate
  refine ⟨h.history, fun row hrow => ?_, fun e he => ?_, fun p phase hphase => ?_⟩
  · rcases (mem_of_flush_singleton hflush).mp hrow with hold | rfl
    · exact h.rows row hold
    · -- No write of the history is about the new id.
      have hnone : ∀ e ∈ s.log, e.before.id ≠ modelId := by
        intro e he hsame
        obtain ⟨row, hrow, hkey⟩ := h.known e he
        exact key_ne_of_flush hflush hrow (List.mem_singleton.mpr rfl) (hkey.trans hsame)
      exact left_of_forall_ne rfl rfl hnone
  · obtain ⟨row, hrow, hkey⟩ := h.known e he
    exact ⟨row, (mem_flush hflush).mpr (.inl hrow), hkey⟩
  · refine (h.parties p phase hphase).keep ⟨fun _ hk => hk, fun row hrow _ => ?_⟩
    exact (mem_flush hflush).mpr (.inl hrow)

/-- One step keeps the invariant. -/
theorem inv_step {event : Event} (h : Inv s) (hstep : step env s event = some s') : Inv s' := by
  cases event with
  | create modelId now payload => exact inv_create h hstep
  | stamp p modelId stamp =>
    simp only [step] at hstep
    split at hstep
    · cases hstep
      exact h.setPhase trivial
    · cases hstep
  | load p modelId action =>
    simp only [step] at hstep
    split at hstep
    · simp only [Option.bind_eq_some_iff, Option.map_eq_some_iff] at hstep
      obtain ⟨locked, hlock, model, hload, rfl⟩ := hstep
      obtain ⟨hmodels, -, -, hheld, -⟩ := lock_spec hlock
      obtain ⟨hmem, hkey, hfound⟩ := Action.found_of_load hload
      rw [← hkey] at hheld
      rw [← hmodels] at hmem
      exact (h.lock hlock).setPhase ⟨hheld, hmem, hfound⟩
    · cases hstep
  | sweep p now recipients =>
    simp only [step] at hstep
    split at hstep
    · cases hstep
      exact h.setPhase trivial
    · cases hstep
  | statement p =>
    simp only [step, Option.bind_eq_some_iff] at hstep
    obtain ⟨phase, hphase, hstep⟩ := hstep
    exact inv_statement h (h.parties p phase hphase) hstep
  | commit p =>
    simp only [step, Option.bind_eq_some_iff] at hstep
    obtain ⟨phase, hphase, hstep⟩ := hstep
    exact inv_commit h (h.parties p phase hphase) hstep
  | abort p =>
    simp only [step, Option.map_eq_some_iff] at hstep
    obtain ⟨phase, -, rfl⟩ := hstep
    exact h.leave
  | other model => exact inv_other h hstep

end

/-! ### Episodes -/

/-- A claim finds a live model that is kept warm and takes calls, and the threshold has elapsed
since the last use before it. A model without a use counts from its creation. -/
structure Quiet (before : List Entry) (now : Time) (model : AiModel) : Prop where
  live : model.live = true
  warmup : model.warmupEnabled = true
  enabled : model.disabledAt = none
  elapsed : ∃ hours, model.inactivityAlertHours = some hours ∧
    (lastUse before model.id).getD model.createdAt + hours * secondsPerHour ≤ now

/-- What a history says of the alerts. -/
structure Episodes (s : State) : Prop where
  quiet : ∀ before e after modelId now, s.log = before ++ e :: after → e.Claims modelId now →
    Quiet before now e.before
  once : ∀ before e between e' after modelId now now',
    s.log = before ++ e :: (between ++ e' :: after) → e.Claims modelId now →
      e'.Claims modelId now' → ∃ r ∈ between, r.Rearms modelId
  rearmed : ∀ e ∈ s.log, e.rearms = true → e.after.inactivityAlertedAt = none
  stamped : ∀ row ∈ s.models, ∀ now, row.inactivityAlertedAt = some now →
    ∃ before e after, s.log = before ++ e :: after ∧ e.Claims row.id now ∧
      ∀ r ∈ after, ¬ r.Rearms row.id

/-- Nobody is there, and nothing was stamped yet. -/
structure Start (s : State) : Prop where
  parties : ∀ p, s.parties p = none
  log : s.log = []
  models : ∀ row ∈ s.models, row.inactivityAlertedAt = none ∧ row.lastUsedAt = none

section
variable {s s₀ : State} {log before between after : List Entry} {e e' : Entry} {modelId : UUID}
  {now now' : Time} {model : AiModel}

theorem Start.inv (h : Start s) : Inv s := by
  refine ⟨?_, fun row hrow => ?_, ?_, fun p phase hphase => ?_⟩
  · rw [h.log]
    intro before e after hsplit
    simp at hsplit
  · rw [h.log]
    exact ⟨(h.models row hrow).1, (h.models row hrow).2⟩
  · rw [h.log]
    exact fun e he => absurd he List.not_mem_nil
  · rw [h.parties p] at hphase
    cases hphase

/-- A claim starts at an open latch, and sets it. -/
theorem Recorded.claim (h : Recorded log e) (hclaims : e.Claims modelId now) :
    Quiet log now e.before ∧ latch (log.map (Entry.signalFor modelId)) = none ∧
      e.signalFor modelId = .set now := by
  obtain ⟨rfl, hcause⟩ := hclaims
  obtain ⟨hrearms, hlive, hquiet⟩ := h.valid.claims now hcause
  simp only [inactivePredicate, Bool.and_eq_true, Option.isNone_iff_eq_none, Option.any_eq_true,
    decide_eq_true_eq] at hquiet
  obtain ⟨⟨⟨hwarmup, henabled⟩, hopen⟩, hours, hhours, helapsed⟩ := hquiet
  rw [idleSince, h.used] at helapsed
  refine ⟨⟨hlive, hwarmup, henabled, hours, hhours, helapsed⟩, ?_, ?_⟩
  · rw [← h.alerted]
    exact hopen
  · rw [Entry.signalFor, if_pos rfl, Entry.signal, if_neg (by rw [hrearms]; nofun), hcause]

/-- The writes that reset the latch of a model are those that re-arm its alert. -/
theorem signalFor_eq_reset : e.signalFor modelId = .reset ↔ e.Rearms modelId := by
  unfold Entry.signalFor Entry.Rearms Entry.signal
  by_cases hid : e.before.id = modelId
  · rw [if_pos hid]
    cases e.rearms
    · cases e.cause <;> simp
    · simp [hid]
  · simp [hid]

/-- The writes that set the latch of a model are its claims. -/
theorem claims_of_signalFor (h : e.signalFor modelId = .set now) : e.Claims modelId now := by
  unfold Entry.signalFor Entry.signal at h
  split at h
  · rename_i hid
    split at h
    · cases h
    · split at h
      · rename_i hcause
        cases h
        exact ⟨hid, hcause⟩
      · cases h
  · cases h

/-- The invariant gives the episodes. -/
theorem Inv.episodes (h : Inv s) : Episodes s where
  quiet before e after modelId now hsplit hclaims :=
    ((h.history before e after hsplit).claim hclaims).1
  once before e between e' after modelId now now' hsplit hclaims hclaims' := by
    -- The latch is set by the first claim, and the second one has found it open.
    have hfirst := (h.history before e (between ++ e' :: after) hsplit).claim hclaims
    have hsplit' : s.log = (before ++ e :: between) ++ e' :: after := by
      rw [hsplit]
      simp
    have hopen := ((h.history (before ++ e :: between) e' after hsplit').claim hclaims').2.1
    rw [List.map_append, List.map_cons, hfirst.2.2] at hopen
    obtain ⟨r, hr, hreset⟩ := List.mem_map.mp (reset_mem_of_latch hopen)
    exact ⟨r, hr, signalFor_eq_reset.mp hreset⟩
  rearmed e he hrearms := by
    obtain ⟨before, after, hsplit⟩ := List.append_of_mem he
    rw [(h.history before e after hsplit).valid.alerted, Entry.signal, if_pos hrearms]
    rfl
  stamped row hrow now hstamp := by
    rw [(h.rows row hrow).alerted] at hstamp
    obtain ⟨before, after, hsplit, hno⟩ := exists_of_latch hstamp
    obtain ⟨log₁, log₂, hlog, rfl, hrest⟩ := List.map_eq_append_iff.mp hsplit
    obtain ⟨e, log₃, rfl, hset, rfl⟩ := List.map_eq_cons_iff.mp hrest
    refine ⟨log₁, e, log₃, hlog, claims_of_signalFor hset, fun r hr hrearms => ?_⟩
    exact hno (List.mem_map.mpr ⟨r, hr, signalFor_eq_reset.mpr hrearms⟩)

/-- In every interleaving of sweeps, stamps, saves, deletes, and restores: each claim finds its
model quiet for the threshold, between two claims of a model its alert was re-armed, and no stamp
outlives the write that re-arms the alert. -/
theorem inactivity_episodes (env : Env) (events : List Event) (hstart : Start s₀)
    (hrun : run (step env) s₀ events = some s) : Episodes s := by
  have hinv : Inv s := run_invariant (fun _ _ _ h hstep => inv_step h hstep) hstart.inv hrun
  exact hinv.episodes

/-- When the usage stamps were committed in the order of their readings, a claim is quiet since
every one of them. -/
theorem Quiet.since_every_use (h : Quiet before now model)
    (hordered : (before.filterMap (Entry.usedAt model.id)).Pairwise (· ≤ ·)) :
    ∃ hours, model.inactivityAlertHours = some hours ∧
      ∀ used ∈ before.filterMap (Entry.usedAt model.id), used + hours * secondsPerHour ≤ now := by
  obtain ⟨hours, hhours, helapsed⟩ := h.elapsed
  refine ⟨hours, hhours, fun used hused => ?_⟩
  obtain ⟨last, hlast⟩ : ∃ last,
      (before.filterMap (Entry.usedAt model.id)).getLast? = some last :=
    ⟨_, List.getLast?_eq_some_getLast (List.ne_nil_of_mem hused)⟩
  rw [lastUse, hlast, Option.getD_some] at helapsed
  have hle : used ≤ last := by
    obtain ⟨init, hinit⟩ := List.getLast?_eq_some_iff.mp hlast
    rw [hinit] at hused hordered
    rw [List.pairwise_append] at hordered
    rcases List.mem_append.mp hused with hearlier | hself
    · exact hordered.2.2 used hearlier last (List.mem_singleton.mpr rfl)
    · exact Nat.le_of_eq (List.mem_singleton.mp hself)
  exact Nat.le_trans (Nat.add_le_add_right hle _) helapsed

end

/-! ### A run -/

/-- A deployment without litellm's map, whose strings are plain. -/
def plainStrings : Env where
  strip := id
  lower := id
  supportsWebSearch := fun _ => false
  hasPlatformKey := fun _ => true
  healthCheckTaskTimeLimitSeconds := 600

/-- A sweep of one candidate, from its clock on. -/
def sweepOne (p : PartyId) (now : Time) : List Event :=
  [.sweep p now true, .statement p, .statement p, .commit p, .statement p]

/-- A model that is kept warm alerts after an hour. A second sweep has selected it too, and claims
nothing. Then the model is used, disabled, and enabled, and goes quiet again. -/
def twoEpisodes : List Event :=
  [.create 1 0
    { name := "Model", modelAlias := "model", provider := .openai, providerModelId := "gpt",
                 warmupEnabled := true, inactivityAlertHours := some 1 },
    .sweep 8 3600 true, .statement 8] ++ sweepOne 9 3700 ++ [.statement 8, .statement 8] ++
  [.stamp 2 1 (.usage 4000), .statement 2, .commit 2,
    .load 3 1 (.update 4100 { isDisabled := some true }), .statement 3, .commit 3,
    .load 4 1 (.update 4200 { isDisabled := some false }), .statement 4, .commit 4] ++
  sweepOne 5 7600

/-- The two alerts of that run. -/
theorem inactivity_episodes_of_twoEpisodes :
    ∃ s, run (step plainStrings) { models := .empty } twoEpisodes = some s ∧
      (s.models.rows.map AiModel.inactivityAlertedAt = [some 7600] ∧ s.log.length = 5) ∧
      Episodes s := by
  have hany : (run (step plainStrings) { models := .empty } twoEpisodes).any (fun s =>
      s.models.rows.map AiModel.inactivityAlertedAt == [some 7600] && s.log.length == 5) =
        true := by
    decide +kernel
  obtain ⟨s, hrun, hcheck⟩ := exists_run_of_any hany
  rw [Bool.and_eq_true, beq_iff_eq, beq_iff_eq] at hcheck
  have hstart : Start { models := .empty } :=
    ⟨fun _ => rfl, rfl, fun row hrow => absurd hrow Table.not_mem_empty⟩
  exact ⟨s, hrun, hcheck, inactivity_episodes plainStrings twoEpisodes hstart hrun⟩

end RedTeaming.AiGateway.Inactivity
