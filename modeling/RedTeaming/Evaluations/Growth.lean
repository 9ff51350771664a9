import RedTeaming.Evaluations.EvaluationEffects

/-!
# `RedTeaming.Evaluations.Growth`: which requests add an evaluation to a closed group

A group accepts evaluations while it is approved or published. `createEvaluation` and
`duplicateEvaluation` ask for that. `restoreEvaluation` does not, so a finished group, or one that
was copied and still is a draft, gains the evaluations that were deleted before
(`RestoresIntoClosed`).

`noGrowth_step_iff` says that this is the only request that adds one, `closed_groups_do_not_grow`
is the theorem about runs, and `finished_group_grows` the run that breaks the unconditional
statement.
-/

set_option autoImplicit false

namespace RedTeaming.Evaluations

open RedTeaming.Auth
open RedTeaming.Library

/-- The evaluation is a live one of the group. -/
def LiveIn (db : Database) (groupId evaluationId : UUID) : Prop :=
  ∃ e ∈ db.evaluations, live e = true ∧ key e = evaluationId ∧ e.evaluationGroupId = groupId

/-- The group has a status other than approved and published. -/
def Closed (db : Database) (groupId : UUID) : Prop :=
  ∃ g ∈ db.groups, key g = groupId ∧ g.status ∉ groupStatusesAcceptingEvaluations

/-- The request adds no live evaluation to a group that is closed before or after it, unless it
copies a group, and adds it to the copy. -/
def NoGrowth (settings : Settings) (db : Database) (l : Label) : Prop :=
  ∀ db', step settings db l = some db' → ∀ g e, LiveIn db' g e → ¬ LiveIn db g e →
    Closed db g ∨ Closed db' g →
    ∃ sourceGroupId includeChildren,
      l.request = .duplicateGroup sourceGroupId includeChildren ∧ g = l.fresh.row

/-- The request restores an evaluation of a closed group. -/
def RestoresIntoClosed (db : Database) (l : Label) : Prop :=
  ∃ e ∈ db.evaluations, l.request = .restoreEvaluation (key e) ∧ Closed db e.evaluationGroupId

section
variable {db db' : Database} {settings : Settings} {l : Label}

theorem Closed.of_eq {g : UUID} (h : Closed db g) (hgroups : db'.groups = db.groups) :
    Closed db' g := by
  unfold Closed
  rw [hgroups]
  exact h

/-- A group that accepts evaluations is not closed. -/
theorem not_closed_of_accepts {groupId : UUID} {g : EvaluationGroup} (hg : g ∈ db.groups)
    (hkey : key g = groupId) (haccepts : g.status ∈ groupStatusesAcceptingEvaluations) :
    ¬ Closed db groupId := by
  rintro ⟨g', hg', hkey', hclosed⟩
  have hsame : g' = g := Table.eq_of_key_eq hg' hg (hkey'.trans hkey.symm)
  rw [hsame] at hclosed
  exact hclosed haccepts

/-- A request that is no restore adds a live evaluation to an open group, or to the copy that it
makes. -/
theorem EvaluationEffect.growth {r : Request} {ctx : Context} (h : EvaluationEffect db db' r ctx)
    {g e : UUID} (hafter : LiveIn db' g e) (hbefore : ¬ LiveIn db g e)
    (hclosed : Closed db g ∨ Closed db' g) :
    ∃ sourceGroupId includeChildren,
      r = .duplicateGroup sourceGroupId includeChildren ∧ g = ctx.fresh.row := by
  obtain ⟨row, hrow, hlive, hkey, hgroup⟩ := hafter
  have hnew : row ∉ db.evaluations := fun hold => hbefore ⟨row, hold, hlive, hkey, hgroup⟩
  cases h with
  | shrunk h => exact absurd (h.evaluations row hrow hlive) hnew
  | inserted new hinsert haccepts hgroups hallowed hassignments =>
    rcases (mem_of_flush_singleton hinsert).mp hrow with hold | rfl
    · exact absurd hold hnew
    · obtain ⟨g', hg', hgkey, hstatus⟩ := haccepts
      have hopen : ¬ Closed db g := not_closed_of_accepts hg' (hgkey.trans hgroup) hstatus
      rcases hclosed with hclosed | hclosed
      · exact absurd hclosed hopen
      · exact absurd (hclosed.of_eq hgroups.symm) hopen
  | copiedGroup groupId sourceId includeChildren new hinsert hcopies hkept hallowed
      hassignments =>
    rcases (mem_flush hinsert).mp hrow with hold | hcopy
    · exact absurd hold hnew
    · exact ⟨groupId, includeChildren, rfl, hgroup.symm.trans (hcopies row hcopy)⟩
  | assigned hevaluations hallowed hassignments =>
    rw [hevaluations] at hrow
    exact absurd hrow hnew

/-- A restored evaluation is a new live one of its group, and the only one. -/
theorem liveIn_restore_iff {row : Evaluation} {g e : UUID} (hrow : row ∈ db.evaluations)
    (hdead : live row = false) :
    LiveIn { db with evaluations := restoreRow db.evaluations (key row) } g e ∧ ¬ LiveIn db g e ↔
      e = key row ∧ g = row.evaluationGroupId := by
  constructor
  · rintro ⟨⟨row', hrow', hlive, hkey, hgroup⟩, hbefore⟩
    rcases mem_restoreRow.mp hrow' with ⟨row₀, hrow₀, hid, rfl⟩ | ⟨hold, -⟩
    · rw [Table.eq_of_key_eq hrow₀ hrow hid] at hkey hgroup
      rw [key_restore] at hkey
      exact ⟨hkey.symm, hgroup.symm⟩
    · exact absurd ⟨row', hold, hlive, hkey, hgroup⟩ hbefore
  · rintro ⟨rfl, rfl⟩
    constructor
    · exact ⟨restore row, restore_mem_restoreRow hrow, live_restore row, key_restore row, rfl⟩
    · rintro ⟨row', hrow', hlive, hkey, -⟩
      rw [Table.eq_of_key_eq hrow' hrow hkey, hdead] at hlive
      cases hlive

/-- A committed request adds no evaluation to a closed group exactly when it restores none into
one. -/
theorem noGrowth_step_iff (h : step settings db l = some db') :
    NoGrowth settings db l ↔ ¬ RestoresIntoClosed db l := by
  have hhandle := handle_of_step h
  have hgrowth : NoGrowth settings db l ↔ ∀ g e, LiveIn db' g e → ¬ LiveIn db g e →
      Closed db g ∨ Closed db' g → ∃ sourceGroupId includeChildren,
        l.request = .duplicateGroup sourceGroupId includeChildren ∧ g = l.fresh.row := by
    constructor
    · intro hall
      exact hall db' h
    · intro hall db'' hstep
      rw [h] at hstep
      cases hstep
      exact hall
  rw [hgrowth]
  cases hrequest : l.request with
  | restoreEvaluation evaluationId =>
    rw [hrequest] at hhandle
    obtain ⟨row, hrow, rfl, hdead, -, rfl⟩ := restoreEvaluation_spec hhandle
    constructor
    · rintro hall ⟨row', hrow', hrequest', hclosed⟩
      rw [hrequest, Request.restoreEvaluation.injEq] at hrequest'
      have hsame : row' = row := Table.eq_of_key_eq hrow' hrow hrequest'.symm
      subst hsame
      obtain ⟨hafter, hbefore⟩ := (liveIn_restore_iff hrow hdead).mpr ⟨rfl, rfl⟩
      obtain ⟨_, _, hcopy, -⟩ := hall _ _ hafter hbefore (Or.inl hclosed)
      cases hcopy
    · intro hopen g e hafter hbefore hclosed
      obtain ⟨rfl, rfl⟩ := (liveIn_restore_iff hrow hdead).mp ⟨hafter, hbefore⟩
      refine absurd ⟨row, hrow, hrequest, ?_⟩ hopen
      rcases hclosed with hclosed | hclosed
      · exact hclosed
      · exact hclosed.of_eq rfl
  | restoreAssignment evaluationId assignmentId =>
    rw [hrequest] at hhandle
    obtain ⟨_, _, _, _, _, _, _, _, rfl⟩ := restoreAssignment_spec hhandle
    constructor
    · rintro _ ⟨_, _, hrequest', _⟩
      rw [hrequest] at hrequest'
      cases hrequest'
    · intro _ g e hafter hbefore
      exact absurd hafter hbefore
  | _ =>
    have hne : l.request.isRestore = false := by rw [hrequest]; rfl
    have heffect := evaluationEffect_of_handle hne hhandle
    constructor
    · rintro _ ⟨_, _, hrequest', _⟩
      rw [hrequest] at hrequest'
      cases hrequest'
    · intro _ g e hafter hbefore hclosed
      rw [← hrequest]
      exact heffect.growth hafter hbefore hclosed

end

/-! ### Runs -/

/-- In every run, no request adds a live evaluation to a closed group exactly when none restores
an evaluation of a closed group. -/
theorem closed_groups_do_not_grow (settings : Settings) (db db' : Database) (ls : List Label)
    (hrun : run (step settings) db ls = some db') :
    Along (step settings) (NoGrowth settings) db ls ↔
      Along (step settings) (fun db l => ¬ RestoresIntoClosed db l) db ls :=
  along_iff_of_run (fun _ _ _ h => noGrowth_step_iff h) hrun

/-- An evaluation is created in an approved group. No label is a restore. -/
theorem closed_groups_do_not_grow_opening :
    Along (step thirtyDays) (NoGrowth thirtyDays) deployed opening := by
  have hany : (run (step thirtyDays) deployed opening).any (fun _ => true) = true := by
    decide +kernel
  obtain ⟨db', hrun, -⟩ := exists_run_of_any hany
  refine (closed_groups_do_not_grow thirtyDays deployed db' opening hrun).mpr ?_
  refine along_of_forall fun l hl db => ?_
  rintro ⟨_, _, hrequest, _⟩
  simp only [opening, List.mem_cons, List.not_mem_nil, or_false] at hl
  rcases hl with rfl | rfl | rfl <;> cases hrequest

/-- The group is published, its evaluation is deleted, and the group is finished. -/
def closing : List Label :=
  [.byRoot 32 (.createScenario 31 { name := "Leak", description := "Make it leak" }),
    .byRoot 33 (.publish 30), .byRoot 33 (.deleteEvaluation 31), .byRoot 33 (.finish 30)]

/-- The deleted evaluation is restored. -/
def reopening : Label := .byRoot 33 (.restoreEvaluation 31)

/-- The evaluation of a finished group is restored. -/
theorem finished_group_grows :
    ¬ ∀ settings db db' ls, run (step settings) db ls = some db' →
      Along (step settings) (NoGrowth settings) db ls := by
  intro h
  have hany : (run (step thirtyDays) deployed (opening ++ closing)).any (fun db =>
      (db.evaluations.rows.any fun e => key e == 31 && e.evaluationGroupId == 30) &&
        (db.groups.rows.any fun g => key g == 30 && g.status == .inactive) &&
        (step thirtyDays db reopening).isSome) = true := by decide +kernel
  obtain ⟨db, hrun, hcheck⟩ := exists_run_of_any hany
  simp only [Bool.and_eq_true, List.any_eq_true, beq_iff_eq] at hcheck
  obtain ⟨⟨⟨e, he, hkey, hgroup⟩, g, hg, hgkey, hstatus⟩, hsome⟩ := hcheck
  obtain ⟨db', hstep⟩ := Option.isSome_iff_exists.mp hsome
  have hfull : run (step thirtyDays) deployed ((opening ++ closing) ++ [reopening]) = some db' :=
    (run_append_eq_some _).mpr ⟨db, hrun, (run_cons_eq_some _).mpr ⟨db', hstep, rfl⟩⟩
  have hgrowth := (h thirtyDays deployed db' _ hfull).of_run_append hrun
  refine (noGrowth_step_iff hstep).mp hgrowth ⟨e, he, ?_, g, hg, ?_, ?_⟩
  · rw [hkey]
    rfl
  · rw [hgkey, hgroup]
  · rw [hstatus]
    decide

end RedTeaming.Evaluations
