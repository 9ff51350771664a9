import RedTeaming.Conversations.Idempotence
import RedTeaming.Conversations.Replay

/-!
# `RedTeaming.Conversations.Continuation`: what a continued reply starts with

`continue_message` loads the reply that it supersedes, flips it to `interrupted` if it still
streams, inserts the placeholder of the continuation, and commits. The text that it streams into
the placeholder starts with the text of the reply as it was loaded.

Between the load and the flip the stream of the reply may end. Its finalize lands, the guarded
flip passes over the row, and the loaded row is stale: the continuation starts with the empty text
of a placeholder, and the reply that it supersedes keeps its own text. `Overtaken` is this case.
The main result is `continue_extends_iff`: the continuation extends the final text of the reply
exactly when it was not overtaken.
-/

set_option autoImplicit false

namespace RedTeaming.Conversations

open RedTeaming.Library

/-- The flip of a reply, as `open_replacement` writes it from the row that it loaded. -/
def Message.flip (m : Message) : MessageId × Write :=
  (m.id, .finalize m.content m.contentEncrypted ⟨.interrupted, MessageStatus.noConfusion⟩ none)

/-- The row was committed as it is here, and has evolved since. -/
structure WasCommitted (env : Env) (store : Store) (m : Message) : Prop where
  row : ∃ row ∈ store.messages, Evolves env m row
  streaming : m.status = .streaming → IsPlaceholder m

/-- A reply that still streams has no text. -/
theorem WasCommitted.text_eq {env : Env} {store : Store} {m : Message}
    (h : WasCommitted env store m) (hstreaming : m.status = .streaming) :
    env.text m = .ok "" := by
  have hplaceholder := h.streaming hstreaming
  rw [Env.text, hplaceholder.content, hplaceholder.plain]
  rfl

/-- The committed row of the reply still streams. -/
def StillStreams (store : Store) (m : Message) : Prop :=
  ∀ row ∈ store.messages, row.id = m.id → row.status = .streaming

/-- Where the flip stands: not needed, still to do, passed over, or done to a row that still
streams. -/
def FlipOk (store : Store) (txn : Txn) (m : Message) : Prop :=
  txn.updates = [] ∧ (txn.todo = [] ∨ m.status = .streaming ∧ txn.todo = [m.flip]) ∨
    m.status = .streaming ∧ txn.updates = [m.flip] ∧ txn.todo = [] ∧ StillStreams store m

/-- What a replacement knows of the reply that it loaded. -/
def LoadedOk (env : Env) (store : Store) (txn : Txn) : Prop :=
  match txn.phase with
  | .begun | .locked => txn.todo = [] ∧ txn.updates = []
  | .target m | .latest m => txn.todo = [] ∧ txn.updates = [] ∧ WasCommitted env store m
  | .flipping m => FlipOk store txn m ∧ WasCommitted env store m
  | _ => True

/-- It holds of every open transaction. -/
def Loads (env : Env) (s : State) : Prop :=
  ∀ t txn, s.txns t = some txn → LoadedOk env s.store txn

section
variable {env : Env} {s s' : State} {t : TxnId} {txn txn' : Txn} {l : Label}

/-! ### The loaded reply -/

/-- The step of another transaction keeps what is known. -/
theorem LoadedOk.frame (h : LoadedOk env s.store txn) (hok : TxnOk env s t txn)
    (hf : Frame env s s' t) : LoadedOk env s'.store txn := by
  have hcommitted : ∀ m, WasCommitted env s.store m → WasCommitted env s'.store m := by
    rintro m ⟨⟨row, hrow, hevolves⟩, hstreaming⟩
    obtain ⟨row', hrow', hnext⟩ := hf.old row hrow
    exact ⟨⟨row', hrow', hevolves.trans hnext⟩, hstreaming⟩
  cases hphase : txn.phase with
  | target m =>
    simp only [LoadedOk, hphase] at h ⊢
    exact ⟨h.1, h.2.1, hcommitted m h.2.2⟩
  | latest m =>
    simp only [LoadedOk, hphase] at h ⊢
    exact ⟨h.1, h.2.1, hcommitted m h.2.2⟩
  | flipping m =>
    simp only [LoadedOk, hphase] at h ⊢
    obtain ⟨hflip, hm⟩ := h
    refine ⟨?_, hcommitted m hm⟩
    rcases hflip with hnone | ⟨hstreaming, hupdates, htodo, hstill⟩
    · exact .inl hnone
    · -- The flipped row is locked, so nobody else writes it.
      refine .inr ⟨hstreaming, hupdates, htodo, ?_⟩
      intro row' hrow' hid
      obtain ⟨old, hold, hevolves⟩ := hm.row
      obtain ⟨row, hrow, hrowId, -, hlocked⟩ :=
        hf.old_of_id hrow' hid ⟨old, hold, hevolves.id⟩
      have hlock : s.rowLock row.id = some t := by
        have hheld := (hok.updates m.flip (by rw [hupdates]; exact List.mem_cons_self)).1
        rw [hrowId]
        exact hheld
      rw [hlocked hlock]
      exact hstill row hrow hrowId
  | begun =>
    simp only [LoadedOk, hphase] at h ⊢
    exact h
  | locked =>
    simp only [LoadedOk, hphase] at h ⊢
    exact h
  | _ =>
    rw [LoadedOk, hphase]
    trivial

/-- A write of its own record keeps the others. -/
theorem Loads.own (h : Loads env s) (hstatement : Statement s s' t)
    (hown : ∀ txn', s'.txns t = some txn' → LoadedOk env s.store txn') : Loads env s' := by
  intro t' txn' ht'
  rw [hstatement.store]
  by_cases hsame : t' = t
  · rw [hsame] at ht'
    exact hown txn' ht'
  · rw [hstatement.others t' hsame] at ht'
    exact h t' txn' ht'

/-- The guarded flip keeps what is known. -/
theorem loadedOk_update (hinv : Inv env s) (hok : LoadedOk env s.store txn)
    (hdone : s.update t txn = some s') (ht' : s'.txns t = some txn') :
    LoadedOk env s.store txn' := by
  unfold State.update at hdone
  split at hdone
  · cases hdone
  · cases hdone
  · rename_i id w todo hphase htodo
    cases hp : txn.phase with
    | flipping m =>
      simp only [LoadedOk, hp] at hok
      obtain ⟨hflip, hm⟩ := hok
      rcases hflip with ⟨hupdates, hnone | ⟨hstreaming, hone⟩⟩ | ⟨-, -, hnone, -⟩
      · rw [htodo] at hnone
        cases hnone
      · rw [htodo] at hone
        obtain ⟨hhead, rfl⟩ := List.cons.inj hone
        cases hhead
        -- Nothing was updated before, so the guard looks at the committed row.
        have hview : ∀ row, txn.view row = row := by
          intro row
          rw [Txn.view, hupdates]
          rfl
        split at hdone
        · cases hdone
          rw [State.setTxn_txns_self] at ht'
          cases ht'
          simp only [LoadedOk, hp]
          exact ⟨.inl ⟨hupdates, .inl rfl⟩, hm⟩
        · rename_i row hfound
          obtain ⟨hrow, hid⟩ := message?_spec hfound
          split at hdone
          · rename_i hguard
            split at hdone
            · cases hdone
              rw [State.setTxn_txns_self] at ht'
              cases ht'
              simp only [LoadedOk, hp]
              refine ⟨.inr ⟨hstreaming, by rw [hupdates]; rfl, rfl, ?_⟩, hm⟩
              intro other hother hotherId
              rw [hinv.store.eq_of_id hother hrow (hotherId.trans hid.symm)]
              rw [hview] at hguard
              exact beq_iff_eq.mp hguard
            · cases hdone
          · cases hdone
            rw [State.setTxn_txns_self] at ht'
            cases ht'
            simp only [LoadedOk, hp]
            exact ⟨.inl ⟨hupdates, .inl rfl⟩, hm⟩
      · rw [htodo] at hnone
        cases hnone
    | updating =>
      have hstay : txn'.phase = .updating := by
        grind
      rw [LoadedOk, hstay]
      trivial
    | _ =>
      rw [hp] at hphase
      cases hphase

/-- What a transaction knows after one of its own statements. -/
theorem loadedOk_of_statement (hinv : Inv env s) (hok : LoadedOk env s.store txn)
    (ht : s.txns t = some txn) (hl : l.statement = some t) (hstep : step env s l = some s')
    (ht' : s'.txns t = some txn') : LoadedOk env s.store txn' := by
  have hopen : ∀ {f : Txn → Option State}, (s.txns t).bind f = some s' → f txn = some s' := by
    intro f hf
    rw [ht, Option.bind_some] at hf
    exact hf
  cases l with
  | lock t visible =>
    cases hl
    have hdone := hopen hstep
    grind [State.lock, State.fail, LoadedOk]
  | attach t assets =>
    cases hl
    have hdone := hopen hstep
    grind [State.attach, State.fail, LoadedOk]
  | replay t =>
    cases hl
    have hdone : s.replay t txn = some s' := hopen hstep
    unfold State.replay at hdone
    have hgo : ∀ phase, some (s.setTxn t { txn with phase }) = some s' →
        txn' = { txn with phase } := by
      intro phase hsame
      cases hsame
      rw [State.setTxn_txns_self] at ht'
      exact (Option.some.inj ht').symm
    split at hdone
    · split at hdone
      · rw [hgo .fresh hdone]
        trivial
      · split at hdone
        · rw [hgo .fresh hdone]
          trivial
        · rename_i turn _
          rw [hgo (.ready (.replayed turn)) hdone]
          trivial
        · rename_i e _
          rw [hgo (.failed e) hdone]
          trivial
    · cases hdone
  | number t =>
    cases hl
    have hdone := hopen hstep
    grind [State.number, State.fail, LoadedOk]
  | insertTurn t id =>
    cases hl
    have hdone := hopen hstep
    grind [State.insertTurn, State.fail, LoadedOk]
  | insertMessages t promptId replyId =>
    cases hl
    have hdone := hopen hstep
    grind [State.insertMessages, State.fail, LoadedOk]
  | insertImages t =>
    cases hl
    have hdone := hopen hstep
    grind [State.insertImages, State.fail, LoadedOk]
  | allowTags t policy =>
    cases hl
    have hdone := hopen hstep
    grind [State.allowTags, State.fail, LoadedOk]
  | readTarget t =>
    cases hl
    have hdone := hopen hstep
    have hloaded : ∀ c id m, s.store.conversationMessage c id = .ok m →
        WasCommitted env s.store m := by
      intro c id m hm
      have hmem := (conversationMessage_spec hm).1
      exact ⟨⟨m, hmem, .refl env m⟩, hinv.store.streaming m hmem⟩
    grind [State.readTarget, State.fail, LoadedOk]
  | readLatest t =>
    cases hl
    have hdone := hopen hstep
    grind [State.readLatest, State.fail, LoadedOk]
  | readSuccessor t =>
    cases hl
    have hdone := hopen hstep
    grind [State.readSuccessor, State.fail, LoadedOk, FlipOk, Message.flip]
  | insertReplacement t id =>
    cases hl
    have hdone := hopen hstep
    grind [State.insertReplacement, State.fail, LoadedOk]
  | startJob t =>
    cases hl
    have hdone := hopen hstep
    grind [State.startJob, State.fail, LoadedOk]
  | update t =>
    cases hl
    exact loadedOk_update hinv hok (hopen hstep) ht'
  | endJob t =>
    cases hl
    have hdone := hopen hstep
    grind [State.endJob, State.fail, LoadedOk]
  | _ => cases hl

/-- The end of a transaction keeps what the others know. -/
theorem Loads.finish {store : Store} {answer : Request × Response} (h : Loads env s)
    (hinv : Inv env s)
    (hframe : ∀ t₁, t₁ ≠ t → Frame env s ({ s with store }.finish t answer) t₁) :
    Loads env ({ s with store }.finish t answer) := by
  intro t₁ txn₁ ht₁
  obtain ⟨hne, ht₁⟩ := update_none_eq_some.mp ht₁
  exact (h t₁ txn₁ ht₁).frame (hinv.txn t₁ txn₁ ht₁) (hframe t₁ hne)

/-- An abort commits nothing. -/
theorem frame_abort (answer : Request × Response) {t₁ : TxnId} (hne : t₁ ≠ t) :
    Frame env s (s.finish t answer) t₁ :=
  .of_store rfl (fun _ hheld => Locks.held_release hne hheld)
    (fun _ hheld => Locks.held_release hne hheld) (fun _ hheld => Locks.held_release hne hheld)

theorem Loads.step (h : Loads env s) (hinv : Inv env s)
    (hstep : Conversations.step env s l = some s') :
    Loads env s' := by
  cases move_of_step hstep with
  | tick => exact h
  | statement l t s' hl hstatement =>
    refine h.own hstatement fun txn' ht' => ?_
    have hrequest := hstatement.request
    rw [ht', Option.map_some] at hrequest
    obtain ⟨txn, ht, -⟩ := Option.map_eq_some_iff.mp hrequest.symm
    exact loadedOk_of_statement hinv (h t txn ht) ht hl hstep ht'
  | begin t request ht ha =>
    intro t₁ txn₁ ht₁
    by_cases hsame : t₁ = t
    · rw [hsame, State.setTxn_txns_self] at ht₁
      cases ht₁
      exact ⟨rfl, rfl⟩
    · rw [State.setTxn_txns_of_ne hsame] at ht₁
      exact h t₁ txn₁ ht₁
  | commit t txn r ht hphase =>
    exact h.finish hinv fun t₁ hne => (hinv.txn t txn ht).frame_commit hphase _ hne
  | abort t txn r ht hr => exact h.finish hinv fun t₁ hne => frame_abort _ hne

/-- In every reachable state, the replacements know what they loaded. -/
theorem Start.loads_run {s₀ : State} {ls : List Label} (hstart : Start s₀)
    (hrun : run (Conversations.step env) s₀ ls = some s) : Inv env s ∧ Loads env s := by
  have hkeep : ∀ s₁ l s₂, Inv env s₁ ∧ Loads env s₁ → Conversations.step env s₁ l = some s₂ →
      Inv env s₂ ∧ Loads env s₂ := by
    rintro s₁ l s₂ ⟨hinv, hloads⟩ hstep
    exact ⟨hinv.step hstep, hloads.step hinv hstep⟩
  have hnone : Loads env s₀ := by
    intro t txn ht
    rw [hstart.txns t] at ht
    cases ht
  exact run_invariant hkeep ⟨hstart.inv, hnone⟩ hrun

/-! ### The superseded reply -/

/-- The reply still streamed when it was loaded, and has ended since, with a text. -/
def Overtaken (env : Env) (store : Store) (m : Message) : Prop :=
  m.status = .streaming ∧
    ∃ row ∈ store.messages, row.id = m.id ∧ row.status ≠ .streaming ∧ env.text row ≠ .ok ""

/-- The row of the id has ended, with this text. -/
def EndedWith (env : Env) (store : Store) (id : MessageId)
    (text : Except CryptoError String) : Prop :=
  ∃ row ∈ store.messages, row.id = id ∧ row.status ≠ .streaming ∧ env.text row = text

/-- The transaction sees it so. -/
def Shows (env : Env) (store : Store) (txn : Txn) (id : MessageId)
    (text : Except CryptoError String) : Prop :=
  ∃ row ∈ store.messages, row.id = id ∧ (txn.view row).status ≠ .streaming ∧
    env.text (txn.view row) = text

/-- With its flip behind it, a replacement sees the reply with the text that it loaded, unless it
was overtaken. -/
theorem shows_of_flipped {m : Message} (hinv : Inv env s) (hloads : Loads env s)
    (ht : s.txns t = some txn) (hphase : txn.phase = .flipping m) (htodo : txn.todo = []) :
    ∃ text, Shows env s.store txn m.id text ∧
      (text = env.text m ↔ ¬ Overtaken env s.store m) := by
  have hok := hloads t txn ht
  simp only [LoadedOk, hphase] at hok
  obtain ⟨hflip, hm⟩ := hok
  obtain ⟨row, hrow, hevolves⟩ := hm.row
  have honly : ∀ other ∈ s.store.messages, other.id = m.id → other = row :=
    fun other hother hid => hinv.store.eq_of_id hother hrow (hid.trans hevolves.id.symm)
  have hended : (txn.view row).status ≠ .streaming := by
    have hinserts := (hinv.txn t txn ht).inserts
    simp only [InsertsOk, hphase] at hinserts
    rcases hinserts.2.2 with ⟨-, hflipped⟩ | ⟨_, _, _, _, hone⟩
    · exact hflipped row hrow hevolves.id
    · rw [htodo] at hone
      cases hone
  refine ⟨_, ⟨row, hrow, hevolves.id, hended, rfl⟩, ?_⟩
  rcases hflip with ⟨hupdates, -⟩ | ⟨-, hupdates, -, hstill⟩
  · -- The flip was not needed, or it passed over the row.
    have hview : txn.view row = row := by
      rw [Txn.view, hupdates]
      rfl
    rw [hview] at hended ⊢
    by_cases hstreaming : m.status = .streaming
    · have hplaceholder := hm.streaming hstreaming
      have htext : env.text m = .ok "" := by
        rw [Env.text, hplaceholder.content, hplaceholder.plain]
        rfl
      rw [htext]
      constructor
      · rintro hsame ⟨-, other, hother, hid, -, hne⟩
        rw [honly other hother hid] at hne
        exact hne hsame
      · intro hnot
        by_contra hne
        exact hnot ⟨hstreaming, row, hrow, hevolves.id, hended, hne⟩
    · exact iff_of_true (hevolves.text hstreaming) fun hover => hstreaming hover.1
  · -- The flip writes the text of the loaded row.
    have hview : env.text (txn.view row) = env.text m := by
      rw [Txn.view, hupdates, List.foldr_cons, List.foldr_nil]
      show env.text (if m.id = row.id then _ else _) = _
      rw [if_pos hevolves.id.symm]
      rfl
    refine iff_of_true hview ?_
    rintro ⟨-, other, hother, hid, hterminal, -⟩
    exact hterminal (hstill other hother hid)

/-- The step of another transaction keeps what a transaction sees. -/
theorem Shows.frame {id : MessageId} {text : Except CryptoError String}
    (h : Shows env s.store txn id text) (hinv : Inv env s) (hok : TxnOk env s t txn)
    (hf : Frame env s s' t) : Shows env s'.store txn id text := by
  obtain ⟨row, hrow, hid, hended, htext⟩ := h
  obtain ⟨row', hrow', hevolves⟩ := hf.old row hrow
  by_cases hlock : s.rowLock row.id = some t
  · obtain ⟨old, hold, holdId, -, hsame⟩ := hf.old_of_id hrow' hevolves.id ⟨row, hrow, rfl⟩
    have hrowOld : old = row := hinv.store.eq_of_id hold hrow holdId
    have hrowSame : row' = row := (hsame (by rw [holdId]; exact hlock)).trans hrowOld
    rw [hrowSame] at hrow'
    exact ⟨row, hrow', hid, hended, htext⟩
  · rw [hok.view_of_not_locked hlock] at hended htext
    have hlock' : s.rowLock row'.id ≠ some t := by
      rw [hevolves.id]
      exact hlock
    refine ⟨row', hrow', hevolves.id.trans hid, ?_, ?_⟩
    · rw [hok.view_of_not_locked hlock']
      exact hevolves.terminal hended
    · rw [hok.view_of_not_locked hlock', hevolves.text hended]
      exact htext

/-- A row that has ended keeps its text. -/
theorem EndedWith.run {id : MessageId} {text : Except CryptoError String} {ls : List Label}
    (h : EndedWith env s.store id text) (hinv : Inv env s)
    (hrun : Library.run (Conversations.step env) s ls = some s') :
    EndedWith env s'.store id text := by
  obtain ⟨row, hrow, hid, hended, htext⟩ := h
  obtain ⟨row', hrow', hevolves⟩ := hinv.evolves_run hrun hrow
  exact ⟨row', hrow', hevolves.id.trans hid, hevolves.terminal hended,
    (hevolves.text hended).trans htext⟩

/-- A replacement with its flip behind it. -/
def Txn.pastFlip (txn : Txn) : Prop :=
  match txn.phase with
  | .flipping _ => txn.todo = []
  | .ready _ | .failed _ => True
  | _ => False

/-- What such a replacement still does updates no row. -/
theorem pastFlip_statement (hpast : txn.pastFlip) (ht : s.txns t = some txn)
    (hl : l.statement = some t) (hstep : Conversations.step env s l = some s')
    (ht' : s'.txns t = some txn') : txn'.pastFlip ∧ txn'.updates = txn.updates := by
  have hopen : ∀ {f : Txn → Option State}, (s.txns t).bind f = some s' → f txn = some s' := by
    intro f hf
    rw [ht, Option.bind_some] at hf
    exact hf
  cases l with
  | lock t visible =>
    cases hl
    have hdone := hopen hstep
    grind [State.lock, Txn.pastFlip]
  | attach t assets =>
    cases hl
    have hdone := hopen hstep
    grind [State.attach, Txn.pastFlip]
  | replay t =>
    cases hl
    have hdone := hopen hstep
    grind [State.replay, Txn.pastFlip]
  | number t =>
    cases hl
    have hdone := hopen hstep
    grind [State.number, Txn.pastFlip]
  | insertTurn t id =>
    cases hl
    have hdone := hopen hstep
    grind [State.insertTurn, Txn.pastFlip]
  | insertMessages t promptId replyId =>
    cases hl
    have hdone := hopen hstep
    grind [State.insertMessages, Txn.pastFlip]
  | insertImages t =>
    cases hl
    have hdone := hopen hstep
    grind [State.insertImages, Txn.pastFlip]
  | allowTags t policy =>
    cases hl
    have hdone := hopen hstep
    grind [State.allowTags, Txn.pastFlip]
  | readTarget t =>
    cases hl
    have hdone := hopen hstep
    grind [State.readTarget, Txn.pastFlip]
  | readLatest t =>
    cases hl
    have hdone := hopen hstep
    grind [State.readLatest, Txn.pastFlip]
  | readSuccessor t =>
    cases hl
    have hdone := hopen hstep
    grind [State.readSuccessor, Txn.pastFlip]
  | insertReplacement t id =>
    cases hl
    have hdone := hopen hstep
    grind [State.insertReplacement, State.fail, Txn.pastFlip]
  | startJob t =>
    cases hl
    have hdone := hopen hstep
    grind [State.startJob, Txn.pastFlip]
  | update t =>
    cases hl
    have hdone := hopen hstep
    grind [State.update, Phase.isUpdating, Txn.pastFlip]
  | endJob t =>
    cases hl
    have hdone := hopen hstep
    grind [State.endJob, Txn.pastFlip]
  | _ => cases hl

/-- Where a replacement of the reply stands with its flip behind it. It is open, and sees the
reply with the text. Or it has ended, and if it superseded the reply, the reply has ended with the
text. -/
def Tracks (env : Env) (t : TxnId) (id : MessageId) (text : Except CryptoError String)
    (s : State) : Prop :=
  (∃ txn, s.txns t = some txn ∧ txn.pastFlip ∧ Shows env s.store txn id text) ∨
    s.txns t = none ∧ ∃ request r, s.answers t = some (request, r) ∧
      ∀ new, r = .replaced new → EndedWith env s.store id text

theorem Tracks.step {id : MessageId} {text : Except CryptoError String}
    (h : Tracks env t id text s) (hinv : Inv env s)
    (hstep : Conversations.step env s l = some s') : Tracks env t id text s' := by
  have hended : EndedWith env s.store id text → EndedWith env s'.store id text := by
    intro hrow
    have hone : Library.run (Conversations.step env) s [l] = some s' := by
      rw [run_cons_eq_some]
      exact ⟨s', hstep, rfl⟩
    exact hrow.run hinv hone
  cases move_of_step hstep with
  | tick => exact h
  | statement l t₁ s' hl hstatement =>
    by_cases hsame : t₁ = t
    · subst hsame
      rcases h with ⟨txn, ht, hpast, row, hrow, hshows⟩ | ⟨hnone, -⟩
      · have hrequest := hstatement.request
        rw [ht, Option.map_some] at hrequest
        obtain ⟨txn', ht', -⟩ := Option.map_eq_some_iff.mp hrequest
        obtain ⟨hpast', hupdates⟩ := pastFlip_statement hpast ht hl hstep ht'
        have hview : txn'.view row = txn.view row := by rw [Txn.view, Txn.view, hupdates]
        refine .inl ⟨txn', ht', hpast', row, ?_, ?_⟩
        · rw [hstatement.store]
          exact hrow
        · rw [hview]
          exact hshows
      · -- A statement is one of an open transaction.
        have hrequest := hstatement.request
        rw [hnone, Option.map_none, Option.map_eq_none_iff] at hrequest
        cases l <;> cases hl <;>
          (obtain ⟨txn, ht, -⟩ := exists_txn hstep
           rw [hnone] at ht
           cases ht)
    · unfold Tracks
      rw [hstatement.others t (Ne.symm hsame), hstatement.answers, hstatement.store]
      exact h
  | begin t₁ request ht ha =>
    have hne : t ≠ t₁ := by
      rintro rfl
      rcases h with ⟨txn, hopen, -⟩ | ⟨-, request', r, hanswer, -⟩
      · rw [ht] at hopen
        cases hopen
      · rw [ha] at hanswer
        cases hanswer
    unfold Tracks
    rw [State.setTxn_txns_of_ne hne]
    exact h
  | commit t₁ txn₁ r ht hphase =>
    by_cases hsame : t = t₁
    · subst hsame
      refine .inr ⟨State.finish_txns_self _ _ _, _, _, State.finish_answers_self _ _ _, ?_⟩
      intro new _
      rcases h with ⟨txn, hopen, -, row, hrow, hid, hterminal, htext⟩ | ⟨hnone, -⟩
      · rw [ht] at hopen
        cases hopen
        refine ⟨txn₁.view row, List.mem_append_right _ (List.mem_map_of_mem hrow), ?_,
          hterminal, htext⟩
        exact ((hinv.txn t txn₁ ht).view row hrow).id.trans hid
      · rw [ht] at hnone
        cases hnone
    · rcases h with ⟨txn, hopen, hpast, hshows⟩ | ⟨hnone, request, r', hanswer, hreplaced⟩
      · refine .inl ⟨txn, (State.finish_txns_of_ne hsame).trans hopen, hpast, ?_⟩
        exact hshows.frame hinv (hinv.txn t txn hopen)
          ((hinv.txn t₁ txn₁ ht).frame_commit hphase _ hsame)
      · exact .inr ⟨(State.finish_txns_of_ne hsame).trans hnone, request, r',
          (State.finish_answers_of_ne hsame).trans hanswer,
          fun new hr => hended (hreplaced new hr)⟩
  | abort t₁ txn₁ r ht hr =>
    by_cases hsame : t = t₁
    · subst hsame
      refine .inr ⟨State.finish_txns_self _ _ _, _, _, State.finish_answers_self _ _ _, ?_⟩
      rintro new rfl
      rcases hr with hlost | ⟨e, -, hrefused⟩
      · cases hlost
      · cases hrefused
    · unfold Tracks
      rw [State.finish_txns_of_ne hsame, State.finish_answers_of_ne hsame]
      exact h

/-- What becomes of the superseded reply: it has ended with the text that the replacement saw. -/
theorem endedWith_of_replaced {m : Message} {s₁ : State} {ls : List Label} {request : Request}
    {id : MessageId} (hsend : SendInv env s) (hloads : Loads env s) (ht : s.txns t = some txn)
    (hphase : txn.phase = .flipping m) (htodo : txn.todo = [])
    (hrun : Library.run (Conversations.step env) s ls = some s₁)
    (hanswer : s₁.answers t = some (request, .replaced id)) :
    ∃ text, EndedWith env s₁.store m.id text ∧
      (text = env.text m ↔ ¬ Overtaken env s.store m) := by
  obtain ⟨text, hshows, htext⟩ := shows_of_flipped hsend.inv hloads ht hphase htodo
  have hstart : Tracks env t m.id text s := by
    refine .inl ⟨txn, ht, ?_, hshows⟩
    rw [Txn.pastFlip, hphase]
    exact htodo
  have hkeep : ∀ s l s', Inv env s ∧ Tracks env t m.id text s →
      Conversations.step env s l = some s' → Inv env s' ∧ Tracks env t m.id text s' := by
    rintro s l s' ⟨hinv, htracks⟩ hstep
    exact ⟨hinv.step hstep, htracks.step hinv hstep⟩
  refine ⟨text, ?_, htext⟩
  rcases (run_invariant hkeep ⟨hsend.inv, hstart⟩ hrun).2 with
    ⟨txn', hopen, -⟩ | ⟨-, request', r, ha, hr⟩
  · rw [(hsend.run hrun).1.unanswered t txn' hopen] at hanswer
    cases hanswer
  · rw [hanswer] at ha
    cases ha
    exact hr id rfl

end

/-! ### The continuation -/

/-- The continuation has the text of the reply that it supersedes, and then the pieces of its
own. -/
def Extends (env : Env) (store : Store) (superseded continuation : MessageId)
    (pieces : List String) : Prop :=
  ∃ old new text, store.message? superseded = some old ∧ store.message? continuation = some new ∧
    env.text old = .ok text ∧ env.text new = .ok (text ++ String.join pieces)

/-- The row of an id. -/
theorem StoreOk.message?_eq {store : Store} (h : StoreOk store) {m : Message}
    (hm : m ∈ store.messages) :
    store.message? m.id = some m := by
  cases hfound : store.message? m.id with
  | none => exact absurd (beq_self_eq_true m.id) (List.find?_eq_none.mp hfound m hm)
  | some other =>
    obtain ⟨hother, hid⟩ := message?_spec hfound
    rw [h.eq_of_id hother hm hid]

section
variable {env : Env} {s s₀ s₁ s₂ s₃ s' : State} {t : TxnId} {txn : Txn}

/-- The row of the id has this text, and no other. -/
theorem EndedWith.text_eq {id : MessageId} {text : Except CryptoError String} {row : Message}
    (h : EndedWith env s.store id text) (hstore : StoreOk s.store)
    (hrow : s.store.message? id = some row) : env.text row = text := by
  obtain ⟨other, hother, hid, -, htext⟩ := h
  obtain ⟨hmem, hrowId⟩ := message?_spec hrow
  rw [hstore.eq_of_id hmem hother (hrowId.trans hid.symm)]
  exact htext

/-- Two ended rows, by their texts. -/
theorem extends_iff {old new : MessageId} {text : Except CryptoError String} {stored : String}
    {pieces : List String} (h : StoreOk s.store) (hold : EndedWith env s.store old text)
    (hnew : EndedWith env s.store new (.ok stored)) :
    Extends env s.store old new pieces ↔ ∃ start, text = .ok start ∧
      stored = start ++ String.join pieces := by
  constructor
  · rintro ⟨oldRow, newRow, start, holdRow, hnewRow, holdText, hnewText⟩
    rw [hold.text_eq h holdRow] at holdText
    rw [hnew.text_eq h hnewRow] at hnewText
    exact ⟨start, holdText, Except.ok.inj hnewText⟩
  · rintro ⟨start, rfl, rfl⟩
    obtain ⟨oldRow, holdRow, rfl, -, holdText⟩ := hold
    obtain ⟨newRow, hnewRow, rfl, -, hnewText⟩ := hnew
    exact ⟨oldRow, newRow, start, h.message?_eq holdRow, h.message?_eq hnewRow,
      holdText, hnewText⟩

/-- **What a continuation starts with.** A replacement has loaded the reply `m`, and is past its
flip. It commits its placeholder, and its stream stores a text that starts with that of `m`.
Whatever runs beside it, the stored text extends the final text of the reply exactly when the
reply was not overtaken. A continuation that fails before its stream stores no text, so the
superseded reply must have none. -/
theorem continue_extends_iff {m p : Message} {ls₀ ls ls₁ ls₂ ls' : List Label} {request : Request}
    {id : MessageId} {start : String} (hstart : Start s₀) (hrun₀ : run (step env) s₀ ls₀ = some s)
    (ht : s.txns t = some txn) (hphase : txn.phase = .flipping m) (htodo : txn.todo = [])
    (hbefore : env.text m = .ok start) (hrun : run (step env) s ls = some s₁)
    (hanswer : s₁.answers t = some (request, .replaced id))
    (hrun₁ : run (step env) s₁ ls₁ = some s₂) (hp : s₂.store.message? id = some p)
    (hstreaming : p.status = .streaming) (hrun₂ : run (step env) s₂ ls₂ = some s₃)
    (hrun' : run (step env) s₃ ls' = some s') :
    (∀ nonce gen closeAt, gen.placeholder = id → gen.prefixText = start →
      (persistStream env.primitives env.settings nonce s₂.store gen closeAt).2 = .ok s₃.store →
      (Extends env s'.store m.id id (gen.received closeAt) ↔ ¬ Overtaken env s.store m)) ∧
    ∀ failure, settleStreamingError s₂.store id failure = s₃.store →
      (Extends env s'.store m.id id [] ↔ start = "" ∧ ¬ Overtaken env s.store m) := by
  have hinv : Inv env s ∧ Loads env s := hstart.loads_run hrun₀
  have hsend : SendInv env s := (hstart.sendInv.run hrun₀).1
  have hinv₁ : Inv env s₁ := (hsend.run hrun).1.inv
  have hinv₂ : Inv env s₂ := run_invariant (fun _ _ _ => Inv.step) hinv₁ hrun₁
  have hinv₃ : Inv env s₃ := run_invariant (fun _ _ _ => Inv.step) hinv₂ hrun₂
  have hinv' : Inv env s' := run_invariant (fun _ _ _ => Inv.step) hinv₃ hrun'
  obtain ⟨text, hold, htext⟩ := endedWith_of_replaced hsend hinv.2 ht hphase htodo hrun hanswer
  rw [hbefore] at htext
  have hold' : EndedWith env s'.store m.id text :=
    ((hold.run hinv₁ hrun₁).run hinv₂ hrun₂).run hinv₃ hrun'
  refine ⟨?_, ?_⟩
  · intro nonce gen closeAt hid hstarts hstored
    rw [← hid] at hp
    obtain ⟨store', row, hstored', hrow, -, hfaithful, -⟩ :=
      persist_stream_faithful env nonce s₂.store gen closeAt hp hstreaming
    rw [hstored] at hstored'
    rw [← Except.ok.inj hstored', hid] at hrow
    obtain ⟨hmem, hrowId⟩ := message?_spec hrow
    have hended : row.status ≠ .streaming := by
      rw [hfaithful.status, Generation.outcome]
      split
      · exact gen.ending.status.2
      · intro hsame
        cases hsame
    have hnew :
        EndedWith env s₃.store id (.ok (start ++ String.join (gen.received closeAt))) := by
      rw [← hstarts]
      exact ⟨row, hmem, hrowId, hended, hfaithful.text⟩
    rw [extends_iff hinv'.store hold' (hnew.run hinv₃ hrun'), ← htext]
    constructor
    · rintro ⟨start', rfl, hsame⟩
      rw [(String.append_left_inj _).mp hsame]
    · rintro rfl
      exact ⟨start, rfl, rfl⟩
  · intro failure hstored
    obtain ⟨row, hrow, -, -, hcontent, hflag, hstatus, -⟩ :=
      finalized_row hinv₂.store hp hstreaming "" false ⟨.error, MessageStatus.noConfusion⟩
        [("error", .obj [("status", .num failure.stored.1.status),
          ("title", .str failure.stored.1.title), ("retryable", .bool failure.stored.2)])]
    have hstoredRow : s₃.store.message? id = some row := by
      rw [← hstored]
      exact hrow
    obtain ⟨hmem, hrowId⟩ := message?_spec hstoredRow
    have hnew : EndedWith env s₃.store id (.ok "") := by
      refine ⟨row, hmem, hrowId, ?_, ?_⟩
      · rw [hstatus]
        exact MessageStatus.noConfusion
      · rw [Env.text, hcontent, hflag]
        rfl
    rw [extends_iff hinv'.store hold' (hnew.run hinv₃ hrun'), ← htext]
    constructor
    · rintro ⟨start', rfl, hsame⟩
      rw [String.join_nil, String.append_empty] at hsame
      subst hsame
      by_cases hover : Overtaken env s.store m
      · -- A reply that still streamed was loaded without a text.
        have hloaded := hinv.2 t txn ht
        simp only [LoadedOk, hphase] at hloaded
        have hempty := hloaded.2.text_eq hover.1
        rw [hbefore] at hempty
        exact absurd hover (htext.mp hempty.symm)
      · exact ⟨(Except.ok.inj (htext.mpr hover)).symm, htext.mpr hover⟩
    · rintro ⟨rfl, rfl⟩
      exact ⟨"", rfl, rfl⟩

end

/-! ### Samples -/

/-- A stream of one piece of text. -/
def onePiece (placeholder : MessageId) (start text : String) : Generation where
  chunks := [{ choices := [{ content := some text }] }]
  ending := .exhausted
  placeholder := placeholder
  mask := false
  isProtected := false
  tagContext := []
  prefixText := start

/-- The end of a stream. -/
def streamEnds (t : TxnId) (gen : Generation) : List Label :=
  [.begin t (.finalize gen.placeholder (String.join (gen.loop none).1.buffer) false
      (gen.loop none).1.status (some (gen.stamp (gen.loop none).1.extra))),
    .startJob t, .update t, .endJob t, .commit t]

/-- The end of the reply, which says hello. -/
def sayHello : List Label := streamEnds 2 (onePiece 201 "" "Hello")

/-- The reply has ended when the request loads it. -/
def loadAfterEnd : List Label :=
  sendOnce ++ sayHello ++
    [.begin 1 (.replace 1 5 201), .lock 1 true, .readTarget 1, .readLatest 1, .readSuccessor 1]

/-- The reply ends when the request has loaded it. -/
def loadBeforeEnd : List Label :=
  sendOnce ++ [.begin 1 (.replace 1 5 201), .lock 1 true, .readTarget 1] ++ sayHello ++
    [.readLatest 1, .readSuccessor 1, .update 1]

/-- The rest of the request. -/
def supersede : List Label := [.insertReplacement 1 202, .commit 1]

/-- The run gets to a continuation that starts with the text. -/
def continues (ls : List Label) (start : String) : Bool :=
  (run (step openEnv) emptyState ls).any fun s =>
    ((s.txns 1).any fun txn =>
      match txn.phase with
      | .flipping m => txn.todo.isEmpty && m.id == 201 && (openEnv.text m).toOption == some start
      | _ => false) &&
    (run (step openEnv) s supersede).any fun s₁ =>
      ((s₁.answers 1).any fun answer => answer.2 == .replaced 202) &&
      ((s₁.store.message? 202).any fun p => p.status == .streaming) &&
      (s₁.txns 3).isNone && (s₁.answers 3).isNone && s₁.rowLock.mayTake 202 3 &&
      (run (step openEnv) s₁ (streamEnds 3 (onePiece 202 start " world"))).isSome

/-- The continuation of such a run, as it is stored. -/
theorem exists_continuation {ls : List Label} {start : String} (h : continues ls start = true) :
    ∃ s s₁ s₃ txn m p request, run (step openEnv) emptyState ls = some s ∧ s.txns 1 = some txn ∧
      txn.phase = .flipping m ∧ txn.todo = [] ∧ m.id = 201 ∧ openEnv.text m = .ok start ∧
      run (step openEnv) s supersede = some s₁ ∧ s₁.answers 1 = some (request, .replaced 202) ∧
      s₁.store.message? 202 = some p ∧ p.status = .streaming ∧
      run (step openEnv) s₁ (streamEnds 3 (onePiece 202 start " world")) = some s₃ ∧
      (persistStream openEnv.primitives openEnv.settings ⟨List.replicate 12 0, rfl⟩ s₁.store
        (onePiece 202 start " world") none).2 = .ok s₃.store := by
  unfold continues at h
  obtain ⟨s, hrun, hs⟩ := (Option.any_eq_true _ _).mp h
  obtain ⟨htxn, hrest⟩ := (Bool.and_eq_true _ _).mp hs
  obtain ⟨txn, ht, hflip⟩ := (Option.any_eq_true _ _).mp htxn
  obtain ⟨s₁, hrun₁, hs₁⟩ := (Option.any_eq_true _ _).mp hrest
  simp only [Bool.and_eq_true, Option.isNone_iff_eq_none, Option.any_eq_true, beq_iff_eq,
    Option.isSome_iff_exists] at hs₁
  obtain ⟨⟨⟨⟨⟨⟨answer, hanswer, hreplaced⟩, p, hp, hstreaming⟩, hfree⟩, hunanswered⟩, hlock⟩, s₃,
    hrun₃⟩ := hs₁
  split at hflip
  · rename_i m hphase
    simp only [Bool.and_eq_true, List.isEmpty_iff, beq_iff_eq] at hflip
    obtain ⟨⟨htodo, hid⟩, htext⟩ := hflip
    have hinv : Inv openEnv s₁ := run_invariant (fun _ _ _ => Inv.step)
      (run_invariant (fun _ _ _ => Inv.step) start_emptyState.inv hrun) hrun₁
    have hstore :
        (run (step openEnv) s₁ (streamEnds 3 (onePiece 202 start " world"))).map State.store =
        some _ := store_of_finalize hinv hfree hunanswered hlock
    rw [hrun₃, Option.map_some] at hstore
    have hstored : openEnv.text m = .ok start := by
      cases hm : openEnv.text m with
      | error e =>
        rw [hm] at htext
        cases htext
      | ok text =>
        rw [hm] at htext
        cases htext
        rfl
    have hanswered : s₁.answers 1 = some (answer.1, .replaced 202) := by
      rw [hanswer, ← hreplaced]
    refine ⟨s, s₁, s₃, txn, m, p, answer.1, hrun, ht, hphase, htodo, hid, hstored, hrun₁,
      hanswered, hp, hstreaming, hrun₃, ?_⟩
    rw [Option.some.inj hstore]
    rfl
  · cases hflip

/-- A reply that had ended is extended. -/
theorem continue_extends_of_ended :
    ∃ s s₁ s₃, run (step openEnv) emptyState loadAfterEnd = some s ∧
    run (step openEnv) s supersede = some s₁ ∧
    run (step openEnv) s₁ (streamEnds 3 (onePiece 202 "Hello" " world")) = some s₃ ∧
    Extends openEnv s₃.store 201 202 ((onePiece 202 "Hello" " world").received none) := by
  have hcontinues : continues loadAfterEnd "Hello" = true := by decide +kernel
  obtain ⟨s, s₁, s₃, txn, m, p, request, hrun, ht, hphase, htodo, hid, htext, hrun₁, hanswer, hp,
    hstreaming, hrun₃, hstored⟩ := exists_continuation hcontinues
  have hlater : ∀ s : State, run (step openEnv) s [] = some s := fun _ => rfl
  have hmatches := continue_extends_iff start_emptyState hrun ht hphase htodo htext hrun₁ hanswer
    (hlater s₁) hp hstreaming hrun₃ (hlater s₃)
  -- The reply has a text, so it had ended when it was loaded.
  have hnot : ¬ Overtaken openEnv s.store m := by
    intro hover
    have hloaded := (start_emptyState.loads_run hrun).2 1 txn ht
    simp only [LoadedOk, hphase] at hloaded
    rw [hloaded.2.text_eq hover.1] at htext
    exact absurd (Except.ok.inj htext) (by decide)
  rw [hid] at hmatches
  exact ⟨s, s₁, s₃, hrun, hrun₁, hrun₃, (hmatches.1 _ _ none rfl rfl hstored).mpr hnot⟩

/-- A reply that ends between its load and its flip is not. The continuation starts with the empty
text of the placeholder. -/
theorem stale_prefix : ∃ s s₁ s₃ txn m, run (step openEnv) emptyState loadBeforeEnd = some s ∧
    s.txns 1 = some txn ∧ txn.phase = .flipping m ∧ m.id = 201 ∧ openEnv.text m = .ok "" ∧
    run (step openEnv) s supersede = some s₁ ∧
    run (step openEnv) s₁ (streamEnds 3 (onePiece 202 "" " world")) = some s₃ ∧
    (persistStream openEnv.primitives openEnv.settings ⟨List.replicate 12 0, rfl⟩ s₁.store
      (onePiece 202 "" " world") none).2 = .ok s₃.store ∧
    ¬ Extends openEnv s₃.store 201 202 ((onePiece 202 "" " world").received none) := by
  have hcontinues : continues loadBeforeEnd "" = true := by decide +kernel
  obtain ⟨s, s₁, s₃, txn, m, p, request, hrun, ht, hphase, htodo, hid, htext, hrun₁, hanswer, hp,
    hstreaming, hrun₃, hstored⟩ := exists_continuation hcontinues
  have htexts : (run (step openEnv) emptyState (loadBeforeEnd ++ supersede ++
      streamEnds 3 (onePiece 202 "" " world"))).any (fun s =>
        (s.store.message? 201).any (fun old => (openEnv.text old).toOption == some "Hello") &&
          (s.store.message? 202).any fun new => (openEnv.text new).toOption == some " world") =
            true := by
    decide +kernel
  have hall : run (step openEnv) emptyState (loadBeforeEnd ++ supersede ++
      streamEnds 3 (onePiece 202 "" " world")) = some s₃ := by
    rw [List.append_assoc]
    exact (run_append_eq_some (step openEnv)).mpr
      ⟨s, hrun, (run_append_eq_some (step openEnv)).mpr ⟨s₁, hrun₁, hrun₃⟩⟩
  rw [hall, Option.any_some, Bool.and_eq_true] at htexts
  refine ⟨s, s₁, s₃, txn, m, hrun, ht, hphase, hid, htext, hrun₁, hrun₃, hstored, ?_⟩
  rintro ⟨old, new, text, hold, hnew, holdText, hnewText⟩
  rw [hold, hnew, Option.any_some, Option.any_some, holdText, hnewText] at htexts
  have hhello : text = "Hello" := by simpa [Except.toOption] using htexts.1
  rw [hhello] at htexts
  exact absurd htexts.2 (by decide +kernel)

end RedTeaming.Conversations
