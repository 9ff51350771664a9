import RedTeaming.Conversations.MessageHistory

/-!
# `RedTeaming.Conversations.Settlement`: who ended a reply

A reply opens as a placeholder that streams. Four writers can end it: the finalize of its own
request, the reaper, and the flip of a regenerate or a continue. The flip supersedes the reply
with the same commit, so a reply that is live and has ended was either finalized or reaped.

`Fits` says which rows the writes of an open transaction are about, and `Fits.settles` what its
commit leaves of a placeholder. The main result is `settled_of_run`: a live reply that has ended
had ended before the run, or the reaper has ended it, or it is as a finalize of the run has left
it.
-/

set_option autoImplicit false

namespace RedTeaming.Conversations

open RedTeaming.Library

/-! ### The writes of a transaction -/

/-- The update may come from the request. -/
def Request.Writes : Request → MessageId × Write → Prop
  | .send _ _ _ _ _ _ _ _, _ => False
  | .replace _ _ id, u => u.1 = id
  | .finalize id content encrypted status extra, u =>
    u = (id, .finalize content encrypted status extra)
  | .reap cutoff, u => u.2 = .reap cutoff
  | .rewrap _, u => ∃ stale fresh encrypted, u.2 = .rewrap stale fresh encrypted

/-- A replacement is about the reply that its request names. Once it may commit, it has inserted
the placeholder that supersedes this reply. -/
def ReplaceFits (id : MessageId) (txn : Txn) : Prop :=
  match txn.phase with
  | .target m | .latest m | .flipping m => m.id = id
  | .ready _ => ∃ p ∈ txn.messages, p.replaces = some id
  | .begun | .locked | .failed _ => True
  | _ => False

/-- What an open transaction writes fits its request. The replies that it inserts still stream. -/
structure Fits (txn : Txn) : Prop where
  writes : ∀ u, u ∈ txn.todo ∨ u ∈ txn.updates → txn.request.Writes u
  replaces : ∀ e c id, txn.request = .replace e c id → ReplaceFits id txn
  fresh : ∀ m ∈ txn.messages, m.role = .assistant → m.status = .streaming

section
variable {env : Env} {s s' : State} {t : TxnId} {txn txn' : Txn}

/-- The updates of a job fit its request. -/
theorem writes_jobUpdates {store : Store} {request : Request} {u : MessageId × Write}
    (h : u ∈ State.jobUpdates env store request) : request.Writes u := by
  cases request with
  | send => cases h
  | replace => cases h
  | finalize => exact List.mem_singleton.mp h
  | reap cutoff =>
    obtain ⟨m, -, rfl⟩ := List.mem_map.mp h
    rfl
  | rewrap rows =>
    obtain ⟨row, -, hrow⟩ := List.mem_filterMap.mp h
    obtain ⟨m, -, hm⟩ := Option.bind_eq_some_iff.mp hrow
    split at hm
    · split at hm
      · cases hm
      · split at hm
        · cases hm
        · cases hm
          exact ⟨_, _, _, rfl⟩
    · cases hm

/-- A statement that inserts no message, and leaves no update that was not to do. -/
theorem Fits.goOn (h : Fits txn) (hrequest : txn'.request = txn.request)
    (hupdates : ∀ u, u ∈ txn'.todo ∨ u ∈ txn'.updates → u ∈ txn.todo ∨ u ∈ txn.updates)
    (hmessages : txn'.messages = txn.messages)
    (hreplaces : ∀ e c id, txn.request = .replace e c id → ReplaceFits id txn') : Fits txn' where
  writes u hu := by
    rw [hrequest]
    exact h.writes u (hupdates u hu)
  replaces e c id hreplace := hreplaces e c id (hrequest ▸ hreplace)
  fresh := hmessages ▸ h.fresh

/-- The placeholder of a replacement supersedes the reply that was fetched, which is the one of
the request. -/
theorem Fits.insertReplacement {id : MessageId} (h : Fits txn)
    (hstep : s.insertReplacement t txn id = some s') (ht' : s'.txns t = some txn') :
    Fits txn' := by
  have hreplaces := h.replaces
  unfold State.insertReplacement at hstep
  split at hstep
  · rename_i m hphase _
    dsimp only at hstep
    split at hstep
    · apply h.goOn <;> grind [State.fail, ReplaceFits]
    · cases hstep
    · cases hstep
      rw [State.setTxn_txns_self] at ht'
      cases ht'
      refine ⟨h.writes, ?_, ?_⟩
      · intro e c target hreplace
        have hfits := hreplaces e c target hreplace
        rw [ReplaceFits, hphase] at hfits
        exact ⟨_, List.mem_singleton_self _, congrArg some hfits⟩
      · intro p hp _
        rw [List.mem_singleton.mp hp]
  · cases hstep

/-- A statement of a transaction. Most insert no message and plan no update. -/
theorem fits_of_statement {l : Label} (hl : l.statement = some t)
    (hstep : step env s l = some s') (ht : s.txns t = some txn) (h : Fits txn)
    (ht' : s'.txns t = some txn') : Fits txn' := by
  have hreplaces := h.replaces
  cases l with
  | lock t visible =>
    cases hl
    obtain ⟨txn₁, ht₁, hlock⟩ := exists_txn hstep
    apply h.goOn <;> grind [State.lock, State.fail, ReplaceFits]
  | attach t assets =>
    cases hl
    obtain ⟨txn₁, ht₁, hattach⟩ := exists_txn hstep
    apply h.goOn <;> grind [State.attach, State.fail, ReplaceFits]
  | replay t =>
    cases hl
    obtain ⟨txn₁, ht₁, hreplay⟩ := exists_txn hstep
    unfold State.replay at hreplay
    apply h.goOn <;> grind [State.fail, ReplaceFits]
  | number t =>
    cases hl
    obtain ⟨txn₁, ht₁, hnumber⟩ := exists_txn hstep
    apply h.goOn <;> grind [State.number, ReplaceFits]
  | insertTurn t id =>
    cases hl
    obtain ⟨txn₁, ht₁, hinsert⟩ := exists_txn hstep
    apply h.goOn <;> grind [State.insertTurn, State.fail, ReplaceFits]
  | insertMessages t promptId replyId =>
    cases hl
    obtain ⟨txn₁, ht₁, hinsert⟩ := exists_txn hstep
    unfold State.insertMessages at hinsert
    constructor <;> grind [State.fail, ReplaceFits, Fits]
  | insertImages t =>
    cases hl
    obtain ⟨txn₁, ht₁, hinsert⟩ := exists_txn hstep
    apply h.goOn <;> grind [State.insertImages, ReplaceFits]
  | allowTags t policy =>
    cases hl
    obtain ⟨txn₁, ht₁, hallow⟩ := exists_txn hstep
    apply h.goOn <;> grind [State.allowTags, State.fail, ReplaceFits]
  | readTarget t =>
    cases hl
    obtain ⟨txn₁, ht₁, hread⟩ := exists_txn hstep
    have hid : ∀ c id m, s.store.conversationMessage c id = .ok m → m.id = id :=
      fun _ _ _ hfound => (conversationMessage_spec hfound).2
    unfold State.readTarget at hread
    apply h.goOn <;> grind [State.fail, ReplaceFits]
  | readLatest t =>
    cases hl
    obtain ⟨txn₁, ht₁, hread⟩ := exists_txn hstep
    unfold State.readLatest at hread
    apply h.goOn <;> grind [State.fail, ReplaceFits]
  | readSuccessor t =>
    cases hl
    obtain ⟨txn₁, ht₁, hread⟩ := exists_txn hstep
    unfold State.readSuccessor at hread
    constructor <;> grind [State.fail, ReplaceFits, Fits, Request.Writes]
  | insertReplacement t id =>
    cases hl
    obtain ⟨txn₁, ht₁, hinsert⟩ := exists_txn hstep
    rw [ht] at ht₁
    cases ht₁
    exact h.insertReplacement hinsert ht'
  | startJob t =>
    cases hl
    obtain ⟨txn₁, ht₁, hstart⟩ := exists_txn hstep
    unfold State.startJob at hstart
    constructor <;> grind [ReplaceFits, Fits, writes_jobUpdates, State.lockTarget]
  | update t =>
    cases hl
    obtain ⟨txn₁, ht₁, hupdate⟩ := exists_txn hstep
    unfold State.update at hupdate
    apply h.goOn <;> grind [ReplaceFits]
  | endJob t =>
    cases hl
    obtain ⟨txn₁, ht₁, hend⟩ := exists_txn hstep
    apply h.goOn <;> grind [State.endJob, ReplaceFits]
  | _ => cases hl

/-- A transaction that is open after a step was open before it, or the step has begun it. -/
theorem origin_of_step {l : Label} (hstep : step env s l = some s') (ht : s'.txns t = some txn) :
    (∃ txn₀, s.txns t = some txn₀ ∧ txn₀.request = txn.request ∧ (Fits txn₀ → Fits txn)) ∨
      l = .begin t txn.request ∧ Fits txn := by
  have hold (h : s.txns t = some txn) : (∃ txn₀, s.txns t = some txn₀ ∧
      txn₀.request = txn.request ∧ (Fits txn₀ → Fits txn)) ∨
        l = .begin t txn.request ∧ Fits txn :=
    Or.inl ⟨txn, h, rfl, id⟩
  cases hl : l.statement with
  | some t₁ =>
    have hstatement := statement_of_step hl hstep
    by_cases hne : t = t₁
    · rw [← hne] at hl hstatement
      have hrequest := hstatement.request
      rw [ht, Option.map_some, eq_comm, Option.map_eq_some_iff] at hrequest
      obtain ⟨txn₀, ht₀, hsame⟩ := hrequest
      exact Or.inl ⟨txn₀, ht₀, hsame, fun h => fits_of_statement hl hstep ht₀ h ht⟩
    · rw [hstatement.others t hne] at ht
      exact hold ht
  | none =>
    cases l with
    | tick =>
      cases hstep
      exact hold ht
    | begin t₁ request =>
      change s.begin t₁ request = some s' at hstep
      unfold State.begin at hstep
      split at hstep
      · cases hstep
        by_cases hne : t = t₁
        · rw [hne, State.setTxn_txns_self] at ht
          cases ht
          rw [hne]
          exact Or.inr ⟨rfl, fun u hu => by simp at hu, fun _ _ _ _ =>
            trivial, fun m hm => by cases hm⟩
        · rw [State.setTxn_txns_of_ne hne] at ht
          exact hold ht
      · cases hstep
    | commit t₁ =>
      obtain ⟨txn₁, -, hcommit⟩ := exists_txn hstep
      unfold State.commit at hcommit
      split at hcommit
      · cases hcommit
        exact hold (update_none_eq_some.mp ht).2
      · cases hcommit
    | abort t₁ =>
      obtain ⟨txn₁, -, rfl⟩ := Option.map_eq_some_iff.mp hstep
      unfold State.abort at ht
      split at ht
      · exact hold (update_none_eq_some.mp ht).2
      · exact hold (update_none_eq_some.mp ht).2
    | _ => cases hl

/-! ### What a commit leaves of a row -/

/-- The row is as a finalize, or the reaper, leaves it. -/
def Request.Settles (env : Env) : Request → Message → Prop
  | .finalize id content encrypted status extra, m =>
    m.id = id ∧ m.status = status ∧
      env.text m = unsealContent env.primitives env.settings content encrypted ∧
      ∀ fields ∈ extra, m.extra = fields
  | .reap _, m => m.status = .interrupted ∧ env.text m = .ok ""
  | _, _ => False

/-- What has ended stays as it was settled. -/
theorem Request.Settles.evolves {request : Request} {m m' : Message} (h : request.Settles env m)
    (hended : m.status ≠ .streaming) (hevolves : Evolves env m m') : request.Settles env m' := by
  cases request with
  | finalize id content encrypted status extra =>
    obtain ⟨hid, hstatus, htext, hextra⟩ := h
    refine ⟨hevolves.id.trans hid, (hevolves.status hended).trans hstatus,
      (hevolves.text hended).trans htext, ?_⟩
    intro fields hfields
    rw [hevolves.extra hended, hextra fields hfields]
  | reap cutoff => exact ⟨(hevolves.status hended).trans h.1, (hevolves.text hended).trans h.2⟩
  | _ => exact h.elim

/-- What each update of the row keeps is true of the row as the transaction sees it. -/
theorem view_induction {P : Message → Prop} {m : Message} (h : P m)
    (hupdate : ∀ u ∈ txn.updates, u.1 = m.id → ∀ m', P m' → P (u.2.apply m')) :
    P (txn.view m) := by
  rw [Txn.view]
  revert hupdate
  induction txn.updates with
  | nil => exact fun _ => h
  | cons u us ih =>
    intro hupdate
    rw [List.foldr_cons]
    have hrest := ih fun u' hu' => hupdate u' (List.mem_cons_of_mem _ hu')
    split
    · rename_i hid
      exact hupdate u List.mem_cons_self hid _ hrest
    · exact hrest

/-- The reaper leaves a placeholder interrupted, and without a text. -/
theorem Fits.settles_of_reap (h : Fits txn) {cutoff : Nat} (hrequest : txn.request = .reap cutoff)
    {m : Message} (hplaceholder : IsPlaceholder m) (hstreaming : m.status = .streaming)
    (hended : (txn.view m).status ≠ .streaming) :
    Request.Settles env (.reap cutoff) (txn.view m) := by
  have hview : (txn.view m).content = "" ∧ (txn.view m).contentEncrypted = false ∧
      ((txn.view m).status = .streaming ∨ (txn.view m).status = .interrupted) := by
    refine view_induction (P := fun m' => m'.content = "" ∧ m'.contentEncrypted = false ∧
      (m'.status = .streaming ∨ m'.status = .interrupted))
      ⟨hplaceholder.content, hplaceholder.plain, Or.inl hstreaming⟩ ?_
    rintro u hu - m' ⟨hcontent, hplain, -⟩
    have hwrite := h.writes u (Or.inr hu)
    rw [hrequest] at hwrite
    rw [show u.2 = .reap cutoff from hwrite]
    exact ⟨hcontent, hplain, Or.inr rfl⟩
  obtain ⟨hcontent, hplain, hstatus⟩ := hview
  refine ⟨hstatus.resolve_left hended, ?_⟩
  rw [Env.text, hcontent, hplain]
  rfl

/-- A placeholder that a commit ends is settled by its request, or superseded by the same
commit. -/
theorem Fits.settles (h : Fits txn) {response : Response} (hphase : txn.phase = .ready response)
    {m : Message} (hplaceholder : IsPlaceholder m) (hstreaming : m.status = .streaming)
    (hended : (txn.view m).status ≠ .streaming) :
    txn.request.Settles env (txn.view m) ∨ ∃ p ∈ txn.messages, p.replaces = some m.id := by
  have hwrites : ∀ u ∈ txn.updates, txn.request.Writes u := fun u hu => h.writes u (Or.inr hu)
  have hsame : (∀ u ∈ txn.updates, u.1 ≠ m.id) → False := by
    intro hnone
    rw [view_eq_self hnone] at hended
    exact hended hstreaming
  cases hrequest : txn.request with
  | send =>
    rw [hrequest] at hwrites
    exact (hsame fun u hu _ => hwrites u hu).elim
  | replace e c target =>
    rw [hrequest] at hwrites
    have hfits := h.replaces e c target hrequest
    rw [ReplaceFits, hphase] at hfits
    obtain ⟨p, hp, hreplaces⟩ := hfits
    by_cases htarget : target = m.id
    · exact Or.inr ⟨p, hp, htarget ▸ hreplaces⟩
    · exact (hsame fun u hu hid => htarget ((hwrites u hu).symm.trans hid)).elim
  | finalize id content encrypted status extra =>
    rw [hrequest] at hwrites
    have hview : (txn.view m).id = m.id ∧ ((txn.view m).status = .streaming ∨
        Request.Settles env (.finalize id content encrypted status extra) (txn.view m)) := by
      refine view_induction (P := fun m' => m'.id = m.id ∧ (m'.status = .streaming ∨
        Request.Settles env (.finalize id content encrypted status extra) m'))
        ⟨rfl, Or.inl hstreaming⟩ ?_
      rintro u hu hid m' ⟨hm', -⟩
      obtain rfl := hwrites u hu
      refine ⟨hm', Or.inr ⟨hm'.trans hid.symm, rfl, rfl, ?_⟩⟩
      rintro fields hfields
      cases hfields
      rfl
    exact Or.inl (hview.2.resolve_left hended)
  | reap cutoff => exact Or.inl (h.settles_of_reap hrequest hplaceholder hstreaming hended)
  | rewrap rows =>
    rw [hrequest] at hwrites
    have hview : (txn.view m).status = .streaming := by
      refine view_induction (P := fun m' => m'.status = .streaming) hstreaming ?_
      intro u hu _ m' hm'
      obtain ⟨stale, fresh, encrypted, hwrite⟩ := hwrites u hu
      rw [hwrite]
      exact hm'
    exact absurd hview hended

end

/-! ### Runs -/

/-- The message that a finalize is about. -/
def Request.finalizes : Request → Option MessageId
  | .finalize id _ _ _ _ => some id
  | _ => none

/-- The label is a commit of the reaper, and ends the reply of the id. -/
def Reaps (id : MessageId) (s : State) (l : Label) : Prop :=
  ∃ t txn cutoff, l = .commit t ∧ s.txns t = some txn ∧ txn.request = .reap cutoff ∧
    ∃ m ∈ s.store.messages, m.id = id ∧ m.status = .streaming ∧
      (txn.view m).status ≠ .streaming

/-- The reaper has ended the reply of the id in the run. -/
def Reaped (env : Env) (s : State) (ls : List Label) (id : MessageId) : Prop :=
  Once (step env) (Reaps id) s ls

/-- How a reply came to its end: it had ended before the run, the reaper has ended it, or it is as
a finalize of the run has left it. -/
inductive Ended (env : Env) (s₀ : State) (ls : List Label) (m : Message) : Prop
  | before (m₀ : Message) (hm₀ : m₀ ∈ s₀.store.messages) (hid : m₀.id = m.id)
      (hended : m₀.status ≠ .streaming)
  | reaped (h : Reaped env s₀ ls m.id)
  | finalized (t : TxnId) (request : Request) (hbegun : .begin t request ∈ ls)
      (hid : request.finalizes = some m.id) (hsettles : request.Settles env m)

/-- What is known of the writers after a run: whose requests the open transactions are, and how
the live replies came to their ends. -/
structure Settlement (env : Env) (s₀ : State) (ls : List Label) (s : State) : Prop where
  inv : Inv env s
  fits : ∀ t txn, s.txns t = some txn → Fits txn
  begun : ∀ t txn, s.txns t = some txn → .begin t txn.request ∈ ls
  ended : ∀ m ∈ s.store.messages, m.role = .assistant → m.status ≠ .streaming →
    s.store.isSuperseded m.id = false → Ended env s₀ ls m

section
variable {env : Env} {s₀ s s' : State} {t : TxnId} {txn : Txn} {ls : List Label} {l : Label}
  {m m' : Message}

/-- More labels, and updates of the ended row, leave the end what it is. -/
theorem Ended.evolves (h : Ended env s₀ ls m) (hended : m.status ≠ .streaming)
    (hevolves : Evolves env m m') (ls' : List Label) : Ended env s₀ (ls ++ ls') m' := by
  cases h with
  | before m₀ hm₀ hid hended₀ => exact .before m₀ hm₀ (hid.trans hevolves.id.symm) hended₀
  | reaped h =>
    apply Ended.reaped
    rw [hevolves.id]
    exact h.append ls'
  | finalized t request hbegun hid hsettles =>
    refine .finalized t request (List.mem_append_left _ hbegun) ?_
      (hsettles.evolves hended hevolves)
    rw [hevolves.id]
    exact hid

/-- A row that is superseded stays so. -/
theorem not_superseded_of_step (h : Inv env s) (hstep : step env s l = some s') {id : MessageId}
    (hlive : s'.store.isSuperseded id = false) : s.store.isSuperseded id = false := by
  rw [Store.isSuperseded, List.any_eq_false] at hlive ⊢
  intro x hx hreplaces
  obtain ⟨x', hx', hevolves⟩ := h.evolves_step hstep hx
  apply hlive x' hx'
  rw [hevolves.replaces]
  exact hreplaces

/-- A commit says how the replies that it ends came to their ends. -/
theorem Settlement.commit (h : Settlement env s₀ ls s) (hrun : run (step env) s₀ ls = some s)
    (hstep : step env s (.commit t) = some s') (hm' : m' ∈ s'.store.messages)
    (hrole : m'.role = .assistant) (hended : m'.status ≠ .streaming)
    (hlive : s'.store.isSuperseded m'.id = false) : Ended env s₀ (ls ++ [.commit t]) m' := by
  have hliveBefore := not_superseded_of_step h.inv hstep hlive
  obtain ⟨txn, ht, hcommit⟩ := exists_txn hstep
  unfold State.commit at hcommit
  split at hcommit
  · rename_i response hphase
    cases hcommit
    have hfits := h.fits t txn ht
    rcases List.mem_append.mp hm' with hnew | hold
    · exact absurd (hfits.fresh m' hnew hrole) hended
    · obtain ⟨m, hm, rfl⟩ := List.mem_map.mp hold
      have hview := (h.inv.txn t txn ht).view m hm
      by_cases hstreaming : m.status = .streaming
      · have hplaceholder := h.inv.store.streaming m hm hstreaming
        have hends : txn.request.Settles env (txn.view m) ∨
            ∃ p ∈ txn.messages, p.replaces = some m.id :=
          hfits.settles hphase hplaceholder hstreaming hended
        rcases hends with hsettles | ⟨p, hp, hreplaces⟩
        · cases hrequest : txn.request with
          | finalize id content encrypted status extra =>
            have hbegun := h.begun t txn ht
            rw [hrequest] at hsettles hbegun
            refine .finalized t _ (List.mem_append_left _ hbegun) ?_ hsettles
            rw [hsettles.1]
            rfl
          | reap cutoff =>
            refine .reaped (once_concat hrun ?_)
            exact ⟨t, txn, cutoff, rfl, ht, hrequest, m, hm, hview.id.symm, hstreaming, hended⟩
          | _ =>
            rw [hrequest] at hsettles
            exact hsettles.elim
        · -- The same commit supersedes the reply, so it is not live.
          have hno := List.any_eq_false.mp hlive p (List.mem_append_left _ hp)
          rw [hview.id, hreplaces] at hno
          exact absurd (beq_self_eq_true _) hno
      · rw [hview.id] at hliveBefore
        refine (h.ended m hm (hview.role.symm.trans hrole) hstreaming hliveBefore).evolves
          hstreaming hview _
  · cases hcommit

/-- A step keeps what is known. -/
theorem Settlement.step (h : Settlement env s₀ ls s) (hrun : run (step env) s₀ ls = some s)
    (hstep : Conversations.step env s l = some s') : Settlement env s₀ (ls ++ [l]) s' where
  inv := h.inv.step hstep
  fits t txn ht := by
    rcases origin_of_step hstep ht with ⟨txn₀, ht₀, -, hfits⟩ | ⟨-, hfits⟩
    · exact hfits (h.fits t txn₀ ht₀)
    · exact hfits
  begun t txn ht := by
    rcases origin_of_step hstep ht with ⟨txn₀, ht₀, hrequest, -⟩ | ⟨rfl, -⟩
    · rw [← hrequest]
      exact List.mem_append_left _ (h.begun t txn₀ ht₀)
    · exact List.mem_append_right _ List.mem_cons_self
  ended m' hm' hrole hended hlive := by
    by_cases hl : ∃ t, l = .commit t
    · obtain ⟨t, rfl⟩ := hl
      exact h.commit hrun hstep hm' hrole hended hlive
    · rw [store_of_step hstep fun t ht => hl ⟨t, ht⟩] at hm' hlive
      exact (h.ended m' hm' hrole hended hlive).evolves hended (.refl env m') _

/-- **Who ended a reply.** Every run knows how its live replies came to their ends: before the
run, by the reaper, or by a finalize that the run has begun. -/
theorem settled_of_run (hstart : Start s₀) (hrun : run (step env) s₀ ls = some s) :
    Settlement env s₀ ls s := by
  refine run_history (I := Settlement env s₀) ?_
    (fun _ _ _ _ hrun h hstep => h.step hrun hstep) hrun
  exact
    { inv := hstart.inv
      fits := fun t txn ht => by
        rw [hstart.txns t] at ht
        cases ht
      begun := fun t txn ht => by
        rw [hstart.txns t] at ht
        cases ht
      ended := fun m hm _ hended _ => .before m hm rfl hended }

/-- A reply that the reaper has ended is interrupted, and has no text. -/
theorem interrupted_of_reaped (hstart : Start s₀) (hrun : run (step env) s₀ ls = some s)
    (hm : m ∈ s.store.messages) (h : Reaped env s₀ ls m.id) :
    m.status = .interrupted ∧ env.text m = .ok "" := by
  obtain ⟨ls₁, l, ls₂, s₁, rfl, hbefore, t, txn, cutoff, rfl, ht, hrequest, m₁, hm₁,
    hid, hstreaming, hended⟩ := h
  obtain ⟨s₁', hbefore', hlater⟩ := (run_append_eq_some (step env)).mp hrun
  rw [hbefore] at hbefore'
  cases hbefore'
  obtain ⟨s₂, hcommit, hrest⟩ := (run_cons_eq_some (step env)).mp hlater
  have hknown := settled_of_run hstart hbefore
  have hinv₂ : Inv env s₂ := hknown.inv.step hcommit
  have hview := (hknown.inv.txn t txn ht).view m₁ hm₁
  obtain ⟨txn', ht', hstep⟩ := exists_txn hcommit
  rw [ht] at ht'
  cases ht'
  unfold State.commit at hstep
  split at hstep
  · rename_i response hphase
    cases hstep
    have hmem : txn.view m₁ ∈ (s₁.written txn).messages :=
      List.mem_append_right _ (List.mem_map_of_mem hm₁)
    obtain ⟨m₂, hm₂, hevolves⟩ := hinv₂.evolves_run hrest hmem
    have hinv : Inv env s := run_invariant (fun _ _ _ => Inv.step) hinv₂ hrest
    have hsame : m₂ = m := hinv.store.eq_of_id hm₂ hm (by rw [hevolves.id, hview.id, hid])
    have hplaceholder := hknown.inv.store.streaming m₁ hm₁ hstreaming
    have hsettles : Request.Settles env (.reap cutoff) (txn.view m₁) :=
      (hknown.fits t txn ht).settles_of_reap hrequest hplaceholder hstreaming hended
    have hlast := hsettles.evolves hended hevolves
    rw [hsame] at hlast
    exact hlast
  · cases hstep

end

end RedTeaming.Conversations
