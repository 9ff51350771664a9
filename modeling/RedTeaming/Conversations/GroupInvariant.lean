import RedTeaming.Conversations.Services

/-!
# `RedTeaming.Conversations.GroupInvariant`: groups over runs of requests

When one request runs after the other, the conversations and their groups fit each other in every
state. `groups_sound_of_run` is the main result: a live conversation has a live group with its own
scenario and evaluation, and a live group has at least one live conversation and at most
`max_conversation_group_size`.

The invariant of the proof is `Sound`, about the two tables. It counts the members of every group,
live or not, and compares every conversation with its group, live or not: a restore makes a
tombstone live without a look at its scenario. `Linked` is the part of it that a prune does not
need, and `Linked.prune` says that `soft_delete_empty_groups` brings back the rest.
-/

set_option autoImplicit false

namespace RedTeaming.Conversations.Services

open RedTeaming.Auth
open RedTeaming.Library
open RedTeaming.Evaluations

/-- A live conversation has a live group with its own scenario and evaluation, and a live group
has at least one live conversation and at most as many as it may. -/
structure GroupsSound (settings : Settings) (db : Database) : Prop where
  grouped : ∀ row ∈ db.conversations, live row = true →
    ∃ group, findLive db.conversationGroups row.conversationGroupId = some group ∧
      row.scenarioId = group.scenarioId ∧ row.evaluationId = group.evaluationId
  sized : ∀ group ∈ db.conversationGroups, live group = true →
    1 ≤ (liveMembers db.conversations (key group)).length ∧
      (liveMembers db.conversations (key group)).length ≤ settings.maxConversationGroupSize

/-- There is no conversation yet, and no group of conversations. -/
structure NoConversations (db : Database) : Prop where
  groups : db.conversationGroups.rows = []
  conversations : db.conversations.rows = []

/-- The conversation names the group, and has its scenario and evaluation. -/
structure BelongsTo (row : Conversation) (group : ConversationGroup) : Prop where
  group_eq : row.conversationGroupId = key group
  scenario_eq : row.scenarioId = group.scenarioId
  evaluation_eq : row.evaluationId = group.evaluationId

/-- The conversations have fitting groups. A group may be empty. -/
structure Linked (cap : Nat) (groups : Table ConversationGroup) (rows : Table Conversation) :
    Prop where
  grouped : ∀ row ∈ rows, live row = true → (findLive groups row.conversationGroupId).isSome
  room : ∀ id, (liveMembers rows id).length ≤ cap
  belongs : ∀ row ∈ rows, ∃ group ∈ groups, BelongsTo row group

/-- The group has a live conversation. -/
def HasMember (rows : Table Conversation) (groupId : UUID) : Prop :=
  ∃ row ∈ rows, live row = true ∧ row.conversationGroupId = groupId

/-- The conversations have fitting groups, and no live group is empty. -/
structure Sound (cap : Nat) (groups : Table ConversationGroup) (rows : Table Conversation) : Prop
    extends Linked cap groups rows where
  nonempty : ∀ group ∈ groups, live group = true → HasMember rows (key group)

section
variable {cap : Nat} {groups groups' : Table ConversationGroup} {rows rows' : Table Conversation}
  {row new : Conversation} {group : ConversationGroup} {now : Time} {byId id : UUID}

/-! ### How many members a group has -/

/-- A live conversation of a group. -/
def isMember (groupId : UUID) (row : Conversation) : Bool :=
  live row && row.conversationGroupId == groupId

theorem isMember_iff {groupId : UUID} :
    isMember groupId row = true ↔ live row = true ∧ row.conversationGroupId = groupId := by
  rw [isMember, Bool.and_eq_true, beq_iff_eq]

theorem length_liveMembers {groupId : UUID} :
    (liveMembers rows groupId).length = rows.rows.countP (isMember groupId) := by
  rw [liveMembers, liveSelect, List.filter_filter, ← List.countP_eq_length_filter]
  congr 1
  funext row
  exact Bool.and_comm _ _

/-- A group has a member exactly when the list of its members is not empty. -/
theorem hasMember_iff {groupId : UUID} :
    HasMember rows groupId ↔ liveMembers rows groupId ≠ [] := by
  rw [← List.length_pos_iff_ne_nil, List.length_pos_iff_exists_mem]
  simp only [HasMember, mem_liveMembers]

/-! ### What the invariant gives -/

theorem Sound.groupsSound {settings : Settings} {db : Database}
    (h : Sound settings.maxConversationGroupSize db.conversationGroups db.conversations) :
    GroupsSound settings db where
  grouped row hrow hlive := by
    obtain ⟨group, hgroup, hbelongs⟩ := h.belongs row hrow
    obtain ⟨found, hfound, hkey, hfoundLive⟩ := isSome_findLive.mp (h.grouped row hrow hlive)
    have hsame : found = group := Table.eq_of_key_eq hfound hgroup (hkey.trans hbelongs.group_eq)
    rw [hsame] at hfoundLive
    exact ⟨group, findLive_eq_some.mpr ⟨hgroup, hbelongs.group_eq.symm, hfoundLive⟩,
      hbelongs.scenario_eq, hbelongs.evaluation_eq⟩
  sized group hgroup hlive := by
    refine ⟨?_, h.room (key group)⟩
    exact List.length_pos_iff_ne_nil.mpr (hasMember_iff.mp (h.nonempty group hgroup hlive))

/-- The first state. -/
theorem sound_of_noConversations {db : Database} (h : NoConversations db) :
    Sound cap db.conversationGroups db.conversations where
  grouped row hrow _ := by
    rw [← Table.mem_rows, h.conversations] at hrow
    cases hrow
  room id := by
    rw [length_liveMembers, h.conversations]
    exact Nat.zero_le _
  belongs row hrow := by
    rw [← Table.mem_rows, h.conversations] at hrow
    cases hrow
  nonempty group hgroup _ := by
    rw [← Table.mem_rows, h.groups] at hgroup
    cases hgroup

/-! ### What the writes leave -/

/-- A write keeps the link between a conversation and its group. -/
structure SameLink (row row' : Conversation) : Prop where
  group_eq : row'.conversationGroupId = row.conversationGroupId
  scenario_eq : row'.scenarioId = row.scenarioId
  evaluation_eq : row'.evaluationId = row.evaluationId

/-- The groups keep their ids, scenarios, and evaluations. -/
def KeepsGroups (groups groups' : Table ConversationGroup) : Prop :=
  ∀ group ∈ groups, ∃ group' ∈ groups', key group' = key group ∧
    group'.scenarioId = group.scenarioId ∧ group'.evaluationId = group.evaluationId

/-- A conversation belongs to a group of the new table when it belonged to one of the old
table. -/
theorem KeepsGroups.belongs (h : KeepsGroups groups groups')
    (hbelongs : ∃ group ∈ groups, BelongsTo row group) :
    ∃ group ∈ groups', BelongsTo row group := by
  obtain ⟨group, hgroup, hrow⟩ := hbelongs
  obtain ⟨group', hgroup', hkey, hscenario, hevaluation⟩ := h group hgroup
  exact ⟨group', hgroup', hrow.group_eq.trans hkey.symm, hrow.scenario_eq.trans hscenario.symm,
    hrow.evaluation_eq.trans hevaluation.symm⟩

theorem keepsGroups_mapRows {f : ConversationGroup → ConversationGroup}
    {hf : ∀ group, key (f group) = key group}
    (hfields : ∀ group, (f group).scenarioId = group.scenarioId ∧
      (f group).evaluationId = group.evaluationId) :
    KeepsGroups groups (groups.mapRows f hf) := by
  intro group hgroup
  exact ⟨f group, Table.mem_mapRows.mpr ⟨group, hgroup, rfl⟩, hf group, hfields group⟩

theorem keepsGroups_softDeleteWhere {p : ConversationGroup → Bool} :
    KeepsGroups groups (softDeleteWhere groups now byId p) := by
  apply keepsGroups_mapRows
  intro group
  split
  · exact ⟨rfl, rfl⟩
  · exact ⟨rfl, rfl⟩

theorem keepsGroups_modify {f : ConversationGroup → ConversationGroup}
    {hf : ∀ group, key (f group) = key group}
    (hfields : ∀ group, (f group).scenarioId = group.scenarioId ∧
      (f group).evaluationId = group.evaluationId) :
    KeepsGroups groups (groups.modify id f hf) := by
  apply keepsGroups_mapRows
  intro group
  split
  · exact hfields group
  · exact ⟨rfl, rfl⟩

/-- The conversations `rows'` are `rows` after some got a tombstone. -/
structure Thins (rows rows' : Table Conversation) : Prop where
  live_mem : ∀ row ∈ rows', live row = true → row ∈ rows
  room : ∀ id, (liveMembers rows' id).length ≤ (liveMembers rows id).length
  links : ∀ row' ∈ rows', ∃ row ∈ rows, SameLink row row'

theorem thins_mapRows {f : Conversation → Conversation} {hf : ∀ row, key (f row) = key row}
    (h : ∀ row, f row = row ∨ f row = softDelete now byId row) :
    Thins rows (rows.mapRows f hf) where
  live_mem row hrow hlive := by
    obtain ⟨row₀, hrow₀, rfl⟩ := Table.mem_mapRows.mp hrow
    rcases h row₀ with hsame | hdead
    · rw [hsame]
      exact hrow₀
    · rw [hdead, live_softDelete] at hlive
      cases hlive
  room id := by
    rw [length_liveMembers, length_liveMembers]
    apply Table.countP_mapRows_le
    intro row _ hmember
    rcases h row with hsame | hdead
    · rw [hsame] at hmember
      exact hmember
    · rw [hdead, isMember_iff, live_softDelete] at hmember
      cases hmember.1
  links row' hrow' := by
    obtain ⟨row, hrow, rfl⟩ := Table.mem_mapRows.mp hrow'
    refine ⟨row, hrow, ?_⟩
    rcases h row with hsame | hdead
    · rw [hsame]
      exact ⟨rfl, rfl, rfl⟩
    · rw [hdead]
      exact ⟨rfl, rfl, rfl⟩

theorem thins_softDeleteWhere {p : Conversation → Bool} :
    Thins rows (softDeleteWhere rows now byId p) := by
  apply thins_mapRows
  intro row
  split
  · exact Or.inr rfl
  · exact Or.inl rfl

theorem thins_softDeleteRow : Thins rows (softDeleteRow rows now byId id) := by
  unfold softDeleteRow Table.modify
  have h : ∀ row : Conversation, (if key row = id then softDelete now byId row else row) = row ∨
      (if key row = id then softDelete now byId row else row) = softDelete now byId row := by
    intro row
    split
    · exact Or.inr rfl
    · exact Or.inl rfl
  exact thins_mapRows h

/-- Conversations that got a tombstone stay linked. -/
theorem Linked.thin (h : Linked cap groups rows) (hthins : Thins rows rows') :
    Linked cap groups rows' where
  grouped row hrow hlive := h.grouped row (hthins.live_mem row hrow hlive) hlive
  room id := (hthins.room id).trans (h.room id)
  belongs row hrow := by
    obtain ⟨row₀, hrow₀, hlink⟩ := hthins.links row hrow
    obtain ⟨group, hgroup, hbelongs⟩ := h.belongs row₀ hrow₀
    exact ⟨group, hgroup, hlink.group_eq.trans hbelongs.group_eq,
      hlink.scenario_eq.trans hbelongs.scenario_eq,
      hlink.evaluation_eq.trans hbelongs.evaluation_eq⟩

/-- `soft_delete_empty_groups`: when every live group without a member is named, the groups are
sound after the prune. -/
theorem Linked.prune {groupIds : List UUID} (h : Linked cap groups rows)
    (hnamed : ∀ group ∈ groups, live group = true → key group ∈ groupIds ∨
      HasMember rows (key group)) :
    Sound cap
      (softDeleteWhere groups now byId fun group =>
        groupIds.contains (key group) && (liveMembers rows (key group)).isEmpty)
      rows where
  grouped row hrow hlive := by
    obtain ⟨group, hgroup, hkey, hgroupLive⟩ := isSome_findLive.mp (h.grouped row hrow hlive)
    refine isSome_findLive.mpr ⟨group, (mem_softDeleteWhere hgroupLive).mpr ⟨hgroup, ?_⟩, hkey,
      hgroupLive⟩
    -- the group has this member, so the prune spares it
    have hmember : HasMember rows (key group) := ⟨row, hrow, hlive, hkey.symm⟩
    have hnonempty : (liveMembers rows (key group)).isEmpty = false :=
      List.isEmpty_eq_false_iff.mpr (hasMember_iff.mp hmember)
    rw [hnonempty, Bool.and_false]
  room := h.room
  belongs row hrow := keepsGroups_softDeleteWhere.belongs (h.belongs row hrow)
  nonempty group hgroup hlive := by
    obtain ⟨hmem, hspared⟩ := (mem_softDeleteWhere hlive).mp hgroup
    rcases hnamed group hmem hlive with hin | hmember
    · have hcontains : groupIds.contains (key group) = true := List.contains_iff_mem.mpr hin
      rw [hcontains, Bool.true_and] at hspared
      exact hasMember_iff.mpr (List.isEmpty_eq_false_iff.mp hspared)
    · exact hmember

/-! ### The operations -/

/-- New members of one live group. The group is an old or a new one. -/
theorem Sound.add {new : List Conversation} (h : Sound cap groups rows)
    (hflush : flush rows new = .ok rows') (hgroups : ∀ g ∈ groups, g ∈ groups')
    (hcases : ∀ g ∈ groups', g ∈ groups ∨ g = group) (hgroup : group ∈ groups')
    (hlive : live group = true) (hnew : ∀ row ∈ new, live row = true ∧ BelongsTo row group)
    (hne : new ≠ []) (hroom : (liveMembers rows (key group)).length + new.length ≤ cap) :
    Sound cap groups' rows' where
  grouped row hrow hrowLive := by
    rcases (mem_flush hflush).mp hrow with hold | hin
    · obtain ⟨g, hg, hkey, hglive⟩ := isSome_findLive.mp (h.grouped row hold hrowLive)
      exact isSome_findLive.mpr ⟨g, hgroups g hg, hkey, hglive⟩
    · exact isSome_findLive.mpr ⟨group, hgroup, (hnew row hin).2.group_eq.symm, hlive⟩
  room id := by
    rw [length_liveMembers, rows_of_flush hflush, List.countP_append, ← length_liveMembers]
    by_cases hid : id = key group
    · have hle : new.countP (isMember id) ≤ new.length := List.countP_le_length
      rw [hid] at hle ⊢
      omega
    · -- the new members are members of one group only
      have hzero : new.countP (isMember id) = 0 := by
        rw [List.countP_eq_zero]
        intro row hrow hmember
        have hkey := (hnew row hrow).2.group_eq
        rw [(isMember_iff.mp hmember).2] at hkey
        exact hid hkey
      rw [hzero, Nat.add_zero]
      exact h.room id
  belongs row hrow := by
    rcases (mem_flush hflush).mp hrow with hold | hin
    · obtain ⟨g, hg, hbelongs⟩ := h.belongs row hold
      exact ⟨g, hgroups g hg, hbelongs⟩
    · exact ⟨group, hgroup, (hnew row hin).2⟩
  nonempty g hg hglive := by
    rcases hcases g hg with hold | rfl
    · obtain ⟨row, hrow, hrest⟩ := h.nonempty g hold hglive
      exact ⟨row, (mem_flush hflush).mpr (Or.inl hrow), hrest⟩
    · obtain ⟨row, hrow⟩ := List.exists_mem_of_ne_nil new hne
      obtain ⟨hrowLive, hbelongs⟩ := hnew row hrow
      exact ⟨row, (mem_flush hflush).mpr (Or.inr hrow), hrowLive, hbelongs.group_eq⟩

/-- A new group has no conversation yet. -/
theorem Linked.liveMembers_new (h : Linked cap groups rows)
    (hflush : flush groups [group] = .ok groups') : liveMembers rows (key group) = [] := by
  by_contra hne
  obtain ⟨row, hrow, -, hkey⟩ := hasMember_iff.mpr hne
  obtain ⟨g, hg, hbelongs⟩ := h.belongs row hrow
  exact key_ne_of_flush hflush hg List.mem_cons_self (hbelongs.group_eq.symm.trans hkey)

/-- The rewrite of one conversation that keeps its link and its liveness. -/
theorem Sound.rewrite (h : Sound cap groups rows) (f : Conversation → Conversation)
    (hf : ∀ row, key (f row) = key row) (hlink : ∀ row, SameLink row (f row))
    (hlive : ∀ row, live (f row) = live row) : Sound cap groups (rows.modify id f hf) := by
  -- each row of the new table stands for a row of the old one, with the same link and liveness
  have hsame : ∀ row ∈ rows.modify id f hf, ∃ row₀ ∈ rows, SameLink row₀ row ∧
      live row₀ = live row := by
    intro row hrow
    rcases Table.mem_modify.mp hrow with ⟨row₀, hrow₀, -, rfl⟩ | ⟨hold, -⟩
    · exact ⟨row₀, hrow₀, hlink row₀, (hlive row₀).symm⟩
    · exact ⟨row, hold, ⟨rfl, rfl, rfl⟩, rfl⟩
  constructor
  · constructor
    · intro row hrow hrowLive
      obtain ⟨row₀, hrow₀, hrowLink, hliveEq⟩ := hsame row hrow
      rw [hrowLink.group_eq]
      exact h.grouped row₀ hrow₀ (hliveEq.trans hrowLive)
    · intro groupId
      refine le_trans ?_ (h.room groupId)
      rw [length_liveMembers, length_liveMembers]
      apply Table.countP_mapRows_le
      intro row _ hmember
      split at hmember
      · rw [isMember_iff, hlive, (hlink row).group_eq] at hmember
        exact isMember_iff.mpr hmember
      · exact hmember
    · intro row hrow
      obtain ⟨row₀, hrow₀, hrowLink, -⟩ := hsame row hrow
      obtain ⟨g, hg, hbelongs⟩ := h.belongs row₀ hrow₀
      exact ⟨g, hg, hrowLink.group_eq.trans hbelongs.group_eq,
        hrowLink.scenario_eq.trans hbelongs.scenario_eq,
        hrowLink.evaluation_eq.trans hbelongs.evaluation_eq⟩
  · intro g hg hglive
    obtain ⟨row, hrow, hrowLive, hmember⟩ := h.nonempty g hg hglive
    by_cases hid : key row = id
    · refine ⟨f row, Table.mem_modify.mpr (Or.inl ⟨row, hrow, hid, rfl⟩), ?_, ?_⟩
      · rw [hlive]
        exact hrowLive
      · rw [(hlink row).group_eq]
        exact hmember
    · exact ⟨row, Table.mem_modify.mpr (Or.inr ⟨hrow, hid⟩), hrowLive, hmember⟩

/-- A rewrite of one conversation that puts it into a group with room. -/
theorem room_modify {f : Conversation → Conversation} {hf : ∀ row, key (f row) = key row}
    (hroom : ∀ id, (liveMembers rows id).length ≤ cap) (hrow : row ∈ rows)
    (hin : (liveMembers rows (f row).conversationGroupId).length < cap) :
    ∀ id, (liveMembers (rows.modify (key row) f hf) id).length ≤ cap := by
  intro id
  by_cases hid : id = (f row).conversationGroupId
  · have hle : (rows.modify (key row) f hf).rows.countP (isMember id) ≤
        rows.rows.countP (isMember id) + 1 := Table.countP_modify_le
    rw [← length_liveMembers, ← length_liveMembers] at hle
    rw [← hid] at hin
    omega
  · -- a group that the conversation does not enter gets no member
    refine le_trans ?_ (hroom id)
    rw [length_liveMembers, length_liveMembers]
    apply Table.countP_mapRows_le
    intro row' hrow' hmember
    split at hmember
    · rename_i hkey
      have hsame : row' = row := Table.eq_of_key_eq hrow' hrow hkey
      rw [hsame] at hmember
      exact absurd (isMember_iff.mp hmember).2.symm hid
    · exact hmember

/-- A move of a conversation to a live group with room. Only the group that it leaves may be
empty now. -/
theorem Sound.move (h : Sound cap groups rows) (f : Conversation → Conversation)
    (hf : ∀ row, key (f row) = key row) (hrow : row ∈ rows) (hgroup : group ∈ groups)
    (hgroupLive : live group = true) (hbelongs : BelongsTo (f row) group)
    (hroom : (liveMembers rows (key group)).length < cap) :
    Linked cap groups (rows.modify (key row) f hf) ∧
      ∀ g ∈ groups, live g = true → key g ∈ [row.conversationGroupId] ∨
        HasMember (rows.modify (key row) f hf) (key g) := by
  have hcases : ∀ row' ∈ rows.modify (key row) f hf, row' = f row ∨ row' ∈ rows :=
    fun _ hrow' => Table.eq_or_mem_of_mem_modify hrow hrow'
  constructor
  · constructor
    · intro row' hrow' hrowLive'
      rcases hcases row' hrow' with rfl | hold
      · exact isSome_findLive.mpr ⟨group, hgroup, hbelongs.group_eq.symm, hgroupLive⟩
      · exact h.grouped row' hold hrowLive'
    · apply room_modify h.room hrow
      rw [hbelongs.group_eq]
      exact hroom
    · intro row' hrow'
      rcases hcases row' hrow' with rfl | hold
      · exact ⟨group, hgroup, hbelongs⟩
      · exact h.belongs row' hold
  · intro g hg hglive
    obtain ⟨m, hm, hmlive, hmember⟩ := h.nonempty g hg hglive
    by_cases hkey : key m = key row
    · -- the conversation that left
      have hsame : m = row := Table.eq_of_key_eq hm hrow hkey
      left
      rw [← hmember, hsame]
      exact List.mem_cons_self
    · exact Or.inr ⟨m, Table.mem_modify.mpr (Or.inr ⟨hm, hkey⟩), hmlive, hmember⟩

/-- After conversations got a tombstone, a live group has a member, or lost one. -/
theorem Sound.named {groupIds : List UUID} (h : Sound cap groups rows)
    (hgone : ∀ row ∈ rows, live row = true → row ∈ rows' ∨ row.conversationGroupId ∈ groupIds) :
    ∀ g ∈ groups, live g = true → key g ∈ groupIds ∨ HasMember rows' (key g) := by
  intro g hg hglive
  obtain ⟨m, hm, hmlive, hmember⟩ := h.nonempty g hg hglive
  rcases hgone m hm hmlive with hstays | hin
  · exact Or.inr ⟨m, hstays, hmlive, hmember⟩
  · left
    rw [← hmember]
    exact hin

/-- A restore of a conversation, with its group. -/
theorem Sound.restore (h : Sound cap groups rows) (hrow : row ∈ rows)
    (hroom : (liveMembers rows row.conversationGroupId).length < cap) :
    Sound cap (groups.modify row.conversationGroupId revived key_revived)
      (restoreRow rows (key row)) := by
  have hlink : SameLink row (RedTeaming.restore row) := ⟨rfl, rfl, rfl⟩
  have hkeeps :
      KeepsGroups groups (groups.modify row.conversationGroupId revived key_revived) := by
    apply keepsGroups_modify
    intro group
    unfold revived
    split
    · exact ⟨rfl, rfl⟩
    · exact ⟨rfl, rfl⟩
  -- the restore brings the group back with its conversation, so the group is live afterwards in
  -- either case
  have hrevived : ∀ group, live (revived group) = true := by
    intro group
    unfold revived
    split
    · assumption
    · exact live_restore group
  have hcases : ∀ row' ∈ restoreRow rows (key row),
      row' = RedTeaming.restore row ∨ row' ∈ rows :=
    fun _ hrow' => Table.eq_or_mem_of_mem_modify hrow hrow'
  constructor
  · constructor
    · intro row' hrow' hlive'
      rcases hcases row' hrow' with rfl | hold
      · obtain ⟨group, hgroup, hbelongs⟩ := h.belongs row hrow
        refine isSome_findLive.mpr ⟨revived group, ?_, ?_, hrevived group⟩
        · exact Table.mem_modify.mpr (Or.inl ⟨group, hgroup, hbelongs.group_eq.symm, rfl⟩)
        · rw [key_revived, ← hbelongs.group_eq]
          rfl
      · obtain ⟨g, hg, hkey, hglive⟩ := isSome_findLive.mp (h.grouped row' hold hlive')
        by_cases hid : key g = row.conversationGroupId
        · refine isSome_findLive.mpr ⟨revived g, ?_, (key_revived g).trans hkey, hrevived g⟩
          exact Table.mem_modify.mpr (Or.inl ⟨g, hg, hid, rfl⟩)
        · exact isSome_findLive.mpr ⟨g, Table.mem_modify.mpr (Or.inr ⟨hg, hid⟩), hkey, hglive⟩
    · apply room_modify h.room hrow
      rw [hlink.group_eq]
      exact hroom
    · intro row' hrow'
      rcases hcases row' hrow' with rfl | hold
      · obtain ⟨group, hgroup, hbelongs⟩ := hkeeps.belongs (h.belongs row hrow)
        exact ⟨group, hgroup, hlink.group_eq.trans hbelongs.group_eq,
          hlink.scenario_eq.trans hbelongs.scenario_eq,
          hlink.evaluation_eq.trans hbelongs.evaluation_eq⟩
      · exact hkeeps.belongs (h.belongs row' hold)
  · intro g hg hglive
    -- the restored row is the member that keeps its own group from being empty
    have hself : HasMember (restoreRow rows (key row)) row.conversationGroupId :=
      ⟨RedTeaming.restore row, restore_mem_restoreRow hrow, live_restore row, rfl⟩
    rcases Table.mem_modify.mp hg with ⟨g₀, -, hkey, rfl⟩ | ⟨hold, -⟩
    · rw [key_revived, hkey]
      exact hself
    · obtain ⟨m, hm, hmlive, hmember⟩ := h.nonempty g hold hglive
      by_cases hkey : key m = key row
      · have hsame : m = row := Table.eq_of_key_eq hm hrow hkey
        rw [hsame] at hmember
        rw [← hmember]
        exact hself
      · exact ⟨m, mem_restoreRow.mpr (Or.inr ⟨hm, hkey⟩), hmlive, hmember⟩

/-- The delete of a group, with its conversations. -/
theorem Sound.deleteGroup (h : Sound cap groups rows) :
    Sound cap (softDeleteRow groups now byId id)
      (softDeleteWhere rows now byId fun row => row.conversationGroupId == id) where
  grouped row hrow hlive := by
    obtain ⟨hold, hother⟩ := (mem_softDeleteWhere hlive).mp hrow
    obtain ⟨g, hg, hkey, hglive⟩ := isSome_findLive.mp (h.grouped row hold hlive)
    refine isSome_findLive.mpr ⟨g, (mem_softDeleteRow hglive).mpr ⟨hg, ?_⟩, hkey, hglive⟩
    rw [hkey]
    exact beq_eq_false_iff_ne.mp hother
  room := (h.toLinked.thin thins_softDeleteWhere).room
  belongs row hrow := by
    have hkeeps : KeepsGroups groups (softDeleteRow groups now byId id) :=
      keepsGroups_modify fun _ => ⟨rfl, rfl⟩
    exact hkeeps.belongs ((h.toLinked.thin thins_softDeleteWhere).belongs row hrow)
  nonempty g hg hglive := by
    obtain ⟨hold, hne⟩ := (mem_softDeleteRow hglive).mp hg
    obtain ⟨m, hm, hmlive, hmember⟩ := h.nonempty g hold hglive
    refine ⟨m, (mem_softDeleteWhere hmlive).mpr ⟨hm, ?_⟩, hmlive, hmember⟩
    rw [hmember]
    exact beq_eq_false_iff_ne.mpr hne

/-- A new name of a group. -/
theorem Sound.rename (h : Sound cap groups rows) (f : ConversationGroup → ConversationGroup)
    (hf : ∀ group, key (f group) = key group) (hlive : ∀ group, live (f group) = live group)
    (hfields : ∀ group, (f group).scenarioId = group.scenarioId ∧
      (f group).evaluationId = group.evaluationId) : Sound cap (groups.modify id f hf) rows where
  grouped row hrow hrowLive := by
    obtain ⟨g, hg, hkey, hglive⟩ := isSome_findLive.mp (h.grouped row hrow hrowLive)
    by_cases hid : key g = id
    · refine isSome_findLive.mpr ⟨f g, ?_, (hf g).trans hkey, (hlive g).trans hglive⟩
      exact Table.mem_modify.mpr (Or.inl ⟨g, hg, hid, rfl⟩)
    · exact isSome_findLive.mpr ⟨g, Table.mem_modify.mpr (Or.inr ⟨hg, hid⟩), hkey, hglive⟩
  room := h.room
  belongs row hrow := (keepsGroups_modify hfields).belongs (h.belongs row hrow)
  nonempty g hg hglive := by
    rcases Table.mem_modify.mp hg with ⟨g₀, hg₀, -, rfl⟩ | ⟨hold, -⟩
    · rw [hf]
      exact h.nonempty g₀ hg₀ ((hlive g₀).symm.trans hglive)
    · exact h.nonempty g hold hglive

/-! ### The requests -/

section
variable {settings : Settings} {ctx : Context} {db db' : Database}

/-- The invariant of a state. -/
def Inv (settings : Settings) (db : Database) : Prop :=
  Sound settings.maxConversationGroupSize db.conversationGroups db.conversations

/-- What `get_conversation_group` finds is a live group of the evaluation. -/
theorem fetchConversationGroup_eq_ok {evaluationId groupId : UUID} {group : ConversationGroup}
    (h : fetchConversationGroup db ctx evaluationId groupId = .ok group) :
    group ∈ db.conversationGroups ∧ key group = groupId ∧ live group = true ∧
      group.evaluationId = evaluationId := by
  have hfound := (Option.filter_eq_some_iff.mp (found_eq_ok.mp h)).1
  obtain ⟨hlive, hscope⟩ := Option.filter_eq_some_iff.mp hfound
  obtain ⟨hmem, hkey, hlive⟩ := findLive_eq_some.mp hlive
  rw [Bool.and_eq_true, beq_iff_eq] at hscope
  exact ⟨hmem, hkey, hlive, hscope.1⟩

/-- What `get_conversation` finds is a live conversation of the evaluation. -/
theorem fetchConversation_eq_ok {evaluationId conversationId : UUID} {row : Conversation}
    (h : fetchConversation db ctx evaluationId conversationId = .ok row) :
    row ∈ db.conversations ∧ live row = true ∧ row.evaluationId = evaluationId := by
  have hfound := (Option.filter_eq_some_iff.mp (found_eq_ok.mp h)).1
  obtain ⟨hlive, hscope⟩ := Option.filter_eq_some_iff.mp hfound
  obtain ⟨hmem, -, hlive⟩ := findLive_eq_some.mp hlive
  rw [Bool.and_eq_true, beq_iff_eq] at hscope
  exact ⟨hmem, hlive, hscope.1⟩

/-- The group that is acquired is a live group of the evaluation with room. -/
theorem acquireGroupForConversation_eq_ok {evaluationId groupId : UUID}
    {group : ConversationGroup}
    (h : acquireGroupForConversation db settings ctx evaluationId groupId = .ok group) :
    (group ∈ db.conversationGroups ∧ key group = groupId ∧ live group = true ∧
      group.evaluationId = evaluationId) ∧
    (liveMembers db.conversations (key group)).length < settings.maxConversationGroupSize := by
  obtain ⟨found, hfound, h⟩ := bind_eq_ok.mp h
  obtain ⟨_, hroom, h⟩ := bind_eq_ok.mp h
  cases h
  have hgroup := fetchConversationGroup_eq_ok hfound
  refine ⟨hgroup, ?_⟩
  rw [hgroup.2.1]
  exact of_decide_eq_true (check_eq_ok.mp hroom)

theorem inv_createConversationGroup {scenarioId : UUID} {form : ConversationGroupCreate}
    (h : Inv settings db)
    (hdb : createConversationGroup db settings ctx scenarioId form = .ok db') :
    Inv settings db' := by
  obtain ⟨_, hvalidate, hdb⟩ := bind_eq_ok.mp hdb
  obtain ⟨_, hleast, hmost⟩ := bind_eq_ok.mp hvalidate
  have hleast : 1 ≤ form.models.length := of_decide_eq_true (check_eq_ok.mp hleast)
  have hmost : form.models.length ≤ settings.maxConversationGroupSize :=
    of_decide_eq_true (check_eq_ok.mp hmost)
  obtain ⟨-, -, hdb⟩ := bind_eq_ok.mp hdb
  obtain ⟨scenario, -, hdb⟩ := bind_eq_ok.mp hdb
  obtain ⟨-, -, hdb⟩ := bind_eq_ok.mp hdb
  obtain ⟨-, -, hdb⟩ := bind_eq_ok.mp hdb
  obtain ⟨-, -, hdb⟩ := bind_eq_ok.mp hdb
  obtain ⟨groups, hgroups, hdb⟩ := bind_eq_ok.mp hdb
  obtain ⟨rows, hrows, hdb⟩ := bind_eq_ok.mp hdb
  cases hdb
  -- the group is new, so no stored conversation names it and its size is that of the form
  have hempty := h.toLinked.liveMembers_new hgroups
  have hlive : live (newConversationGroup ctx scenario.evaluationId scenarioId form.name.val) =
      true := rfl
  refine h.add hrows ?_ ?_ ?_ hlive ?_ ?_ ?_
  · intro g hg
    exact (mem_of_flush_singleton hgroups).mpr (Or.inl hg)
  · intro g hg
    exact (mem_of_flush_singleton hgroups).mp hg
  · exact (mem_of_flush_singleton hgroups).mpr (Or.inr rfl)
  · intro row hrow
    obtain ⟨index, hindex, rfl⟩ := List.mem_mapIdx.mp hrow
    exact ⟨rfl, rfl, rfl, rfl⟩
  · intro hnil
    rw [List.mapIdx_eq_nil_iff] at hnil
    rw [hnil] at hleast
    cases hleast
  · rw [hempty, List.length_mapIdx, List.length_nil, Nat.zero_add]
    exact hmost

theorem inv_createConversation {scenarioId : UUID} {form : ConversationForm}
    (h : Inv settings db)
    (hdb : createConversation db settings ctx scenarioId form = .ok db') : Inv settings db' := by
  obtain ⟨-, -, hdb⟩ := bind_eq_ok.mp hdb
  obtain ⟨scenario, -, hdb⟩ := bind_eq_ok.mp hdb
  obtain ⟨-, -, hdb⟩ := bind_eq_ok.mp hdb
  obtain ⟨-, -, hdb⟩ := bind_eq_ok.mp hdb
  obtain ⟨-, -, hdb⟩ := bind_eq_ok.mp hdb
  obtain ⟨group, hgroup, hdb⟩ := bind_eq_ok.mp hdb
  obtain ⟨_, hscenario, hdb⟩ := bind_eq_ok.mp hdb
  obtain ⟨-, -, hdb⟩ := bind_eq_ok.mp hdb
  obtain ⟨rows, hrows, hdb⟩ := bind_eq_ok.mp hdb
  cases hdb
  obtain ⟨⟨hmem, hkey, hlive, hevaluation⟩, hroom⟩ := acquireGroupForConversation_eq_ok hgroup
  have hscenario : scenarioId = group.scenarioId := beq_iff_eq.mp (check_eq_ok.mp hscenario)
  refine h.add hrows (fun _ hg => hg) (fun _ hg => Or.inl hg) hmem hlive ?_ (by simp) hroom
  intro row hrow
  rw [List.mem_singleton.mp hrow]
  exact ⟨rfl, hkey.symm, hscenario, hevaluation.symm⟩

theorem inv_renameConversationGroup {evaluationId groupId : UUID} {name : Title}
    (h : Inv settings db)
    (hdb : renameConversationGroup db ctx evaluationId groupId name = .ok db') :
    Inv settings db' := by
  obtain ⟨-, -, hdb⟩ := bind_eq_ok.mp hdb
  obtain ⟨group, -, hdb⟩ := bind_eq_ok.mp hdb
  cases hdb
  exact h.rename (fun group => { group with name := name.val }) (fun _ => rfl)
    (fun _ => rfl) fun _ => ⟨rfl, rfl⟩

theorem inv_deleteConversationGroup {evaluationId groupId : UUID} (h : Inv settings db)
    (hdb : deleteConversationGroup db ctx evaluationId groupId = .ok db') : Inv settings db' := by
  obtain ⟨-, -, hdb⟩ := bind_eq_ok.mp hdb
  obtain ⟨group, -, hdb⟩ := bind_eq_ok.mp hdb
  cases hdb
  exact h.deleteGroup

/-- A move has a live target with room, of the evaluation that the path names and of the scenario
of the conversation. -/
theorem moveTarget_eq_ok {conversation : Conversation} {evaluationId : UUID}
    {target newGroup : Option UUID}
    (h : moveTarget db settings ctx conversation evaluationId target = .ok newGroup) :
    newGroup = none ∨ ∃ group, newGroup = some (key group) ∧ group ∈ db.conversationGroups ∧
      live group = true ∧ group.evaluationId = evaluationId ∧
      group.scenarioId = conversation.scenarioId ∧
      (liveMembers db.conversations (key group)).length < settings.maxConversationGroupSize := by
  unfold moveTarget at h
  split at h
  · cases h
    exact Or.inl rfl
  · split at h
    · cases h
      exact Or.inl rfl
    · obtain ⟨group, hgroup, h⟩ := bind_eq_ok.mp h
      obtain ⟨_, hscenario, h⟩ := bind_eq_ok.mp h
      cases h
      obtain ⟨⟨hmem, hkey, hlive, hevaluation⟩, hroom⟩ := acquireGroupForConversation_eq_ok hgroup
      rw [← hkey]
      exact Or.inr ⟨group, rfl, hmem, hlive, hevaluation,
        beq_iff_eq.mp (check_eq_ok.mp hscenario), hroom⟩

theorem inv_updateConversation {evaluationId conversationId : UUID} {changes : ConversationUpdate}
    (h : Inv settings db)
    (hdb : updateConversation db settings ctx evaluationId conversationId changes = .ok db') :
    Inv settings db' := by
  obtain ⟨-, -, hdb⟩ := bind_eq_ok.mp hdb
  obtain ⟨row, hrow, hdb⟩ := bind_eq_ok.mp hdb
  obtain ⟨newGroup, hnew, hdb⟩ := bind_eq_ok.mp hdb
  obtain ⟨-, -, hdb⟩ := bind_eq_ok.mp hdb
  cases hdb
  obtain ⟨hmem, -, hevaluation⟩ := fetchConversation_eq_ok hrow
  rcases moveTarget_eq_ok hnew with rfl | ⟨group, rfl, hgroup, hlive, hgroupEvaluation, hscenario,
    hroom⟩
  · exact h.rewrite (changes.applyTo none) (fun _ => rfl) (fun _ => ⟨rfl, rfl, rfl⟩) fun _ => rfl
  · have hbelongs : BelongsTo (changes.applyTo (some (key group)) row) group :=
      ⟨rfl, hscenario.symm, hevaluation.trans hgroupEvaluation.symm⟩
    obtain ⟨hlinked, hnamed⟩ := h.move (changes.applyTo (some (key group))) (fun _ => rfl) hmem
      hgroup hlive hbelongs hroom
    exact hlinked.prune hnamed

theorem inv_deleteConversation {evaluationId conversationId : UUID} (h : Inv settings db)
    (hdb : deleteConversation db ctx evaluationId conversationId = .ok db') :
    Inv settings db' := by
  obtain ⟨-, -, hdb⟩ := bind_eq_ok.mp hdb
  obtain ⟨row, hrow, hdb⟩ := bind_eq_ok.mp hdb
  cases hdb
  apply (h.toLinked.thin thins_softDeleteRow).prune
  apply h.named
  intro row' hrow' hlive
  by_cases hkey : key row' = key row
  · have hsame : row' = row := Table.eq_of_key_eq hrow' (fetchConversation_eq_ok hrow).1 hkey
    rw [hsame]
    exact Or.inr List.mem_cons_self
  · exact Or.inl ((mem_softDeleteRow hlive).mpr ⟨hrow', hkey⟩)

theorem inv_restoreConversation {evaluationId conversationId : UUID} (h : Inv settings db)
    (hdb : restoreConversation db settings ctx evaluationId conversationId = .ok db') :
    Inv settings db' := by
  obtain ⟨-, -, hdb⟩ := bind_eq_ok.mp hdb
  obtain ⟨row, hrow, hdb⟩ := bind_eq_ok.mp hdb
  obtain ⟨_, hroom, hdb⟩ := bind_eq_ok.mp hdb
  cases hdb
  have hfound := (Option.filter_eq_some_iff.mp (found_eq_ok.mp hrow)).1
  have hmem := (findRestorable_eq_some.mp (Option.filter_eq_some_iff.mp hfound).1).1
  exact h.restore hmem (of_decide_eq_true (check_eq_ok.mp hroom))

/-- A cascade looks at the group of each conversation that it deletes. -/
theorem inv_softDeleteConversationsWith {selects : UUID → Bool} (h : Inv settings db) :
    Inv settings (softDeleteConversationsWith db ctx selects) := by
  apply (h.toLinked.thin thins_softDeleteWhere).prune
  apply h.named
  intro row hrow hlive
  by_cases hselected : selects row.evaluationAiModelId = true
  · right
    exact List.mem_map_of_mem (List.mem_filter.mpr ⟨hrow, hselected⟩)
  · exact Or.inl ((mem_softDeleteWhere hlive).mpr ⟨hrow, Bool.not_eq_true _ ▸ hselected⟩)

theorem inv_cascade {request : Evaluations.Request} (h : Inv settings db) :
    Inv settings (cascade db ctx request) := by
  unfold cascade
  split
  · exact inv_softDeleteConversationsWith h
  · exact inv_softDeleteConversationsWith h
  · exact h

/-! ### Runs -/

/-- A committed request keeps the invariant. -/
theorem Inv.of_step {l : Label} (h : Inv settings db) (hstep : step settings db l = some db') :
    Inv settings db' := by
  have hdb : l.request.handle settings l.context db = .ok db' := by
    unfold step at hstep
    cases hhandle : l.request.handle settings l.context db with
    | error e =>
      rw [hhandle] at hstep
      cases hstep
    | ok db₁ =>
      rw [hhandle] at hstep
      cases hstep
      rfl
  cases hrequest : l.request with
  | registry request =>
    rw [hrequest] at hdb
    obtain ⟨tables, -, hdb⟩ := bind_eq_ok.mp hdb
    cases hdb
    have hsame : Inv settings { db with toDatabase := tables } := h
    exact inv_cascade hsame
  | createConversationGroup scenarioId form =>
    rw [hrequest] at hdb
    exact inv_createConversationGroup h hdb
  | renameConversationGroup evaluationId groupId name =>
    rw [hrequest] at hdb
    exact inv_renameConversationGroup h hdb
  | deleteConversationGroup evaluationId groupId =>
    rw [hrequest] at hdb
    exact inv_deleteConversationGroup h hdb
  | createConversation scenarioId form =>
    rw [hrequest] at hdb
    exact inv_createConversation h hdb
  | updateConversation evaluationId conversationId changes =>
    rw [hrequest] at hdb
    exact inv_updateConversation h hdb
  | deleteConversation evaluationId conversationId =>
    rw [hrequest] at hdb
    exact inv_deleteConversation h hdb
  | restoreConversation evaluationId conversationId =>
    rw [hrequest] at hdb
    exact inv_restoreConversation h hdb

/-- In every state that requests reach from a state without conversations, the groups are
sound. -/
theorem groups_sound_of_run {ls : List Label} (hstart : NoConversations db)
    (hrun : run (step settings) db ls = some db') : GroupsSound settings db' := by
  have hinv : Inv settings db' :=
    run_invariant (fun _ _ _ h hstep => h.of_step hstep) (sound_of_noConversations hstart) hrun
  exact hinv.groupsSound

end

end

/-! ### A run -/

/-- The deployment before its first conversation. -/
def deployed : Database where
  toDatabase := Evaluations.deployed
  conversationGroups := .empty
  conversations := .empty

/-- Groups of at most two conversations. -/
def pairs : Settings where
  toSettings := thirtyDays
  maxConversationGroupSize := 2

/-- A request of the admin. The conversations of a new group get ids after `row`. -/
def Label.byRoot (row : UUID) (request : Request) : Label where
  context :=
    { toContext := (Evaluations.Label.byRoot row (.deleteModel 0)).toContext
      conversation := (row + 1 + ·)
      contentProtected := false }
  request

/-- The evaluation 31 gets the model 20 by the assignment 32, and the scenario 33. A group of one
conversation is created. The conversation is deleted and restored, and its model unassigned. -/
def emptied : List Label :=
  [.byRoot 30 (.registry (.createGroup challenge)), .byRoot 31 (.registry (.approve 30)),
    .byRoot 31 (.registry (.createEvaluation trial)),
    .byRoot 32 (.registry (.assignModel 31 { modelId := 20 })),
    .byRoot 33 (.registry (.createScenario 31 { name := "Leak", description := "Get the key" })),
    .byRoot 40 (.createConversationGroup 33
      { name := ⟨"Attempts", by decide⟩, models := [{ assignmentId := 32 }] }),
    .byRoot 50 (.deleteConversation 31 41), .byRoot 51 (.restoreConversation 31 41),
    .byRoot 52 (.registry (.unassignModel 31 32))]

/-- The groups are sound after that run. -/
theorem groups_sound_of_run_emptied :
    ∃ db', run (step pairs) deployed emptied = some db' ∧ GroupsSound pairs db' := by
  have hany : (run (step pairs) deployed emptied).any (fun _ => true) = true := by decide +kernel
  obtain ⟨db', hrun, -⟩ := exists_run_of_any hany
  exact ⟨db', hrun, groups_sound_of_run ⟨rfl, rfl⟩ hrun⟩

end RedTeaming.Conversations.Services
