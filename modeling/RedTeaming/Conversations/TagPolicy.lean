import RedTeaming.Conversations.Streaming
import RedTeaming.Conversations.Tags

/-!
# `RedTeaming.Conversations.TagPolicy`: which tags a policy sends

`core/evaluations/services/tag_keys.py`. A write of tags is refused by `assertTagsAllowed`
(`Conversations.Messages`). The map of a prompt is filtered by `allowedTagsOnly`, and rendered
after that. An export predicts the result without a query, from a `TagFoldPolicy`: `unsent` for
the policy as it stands, and `unsentForMessage` from what a reply has recorded.

A policy is the row that `_tagging_policy` and `allowed_tag_keys` read, `none` for an evaluation
that is not live. `Services.taggingPolicy` reads it from the tables.

All of them rest on one test of a key (`TagFoldPolicy.lets`), and `allowedTagsOnly_eq` and
`unsent_eq` say so. The main result is `tag_preview_is_sent`.
-/

set_option autoImplicit false

namespace RedTeaming.Conversations.Tags

open RedTeaming.Library

/-- `TagFoldPolicy`. -/
structure TagFoldPolicy where
  enabled : Bool
  restricted : Bool
  allowed : List String
deriving DecidableEq

/-- `_tagging_policy`: a policy, or a 404. -/
def fetchPolicy (policy : Option TagPolicy) : Except ApiError TagPolicy :=
  found policy (.notFound "Evaluation not found.")

/-- `load_tag_fold_policy`. The key set is read only where it restricts. -/
def loadTagFoldPolicy (policy : Option TagPolicy) : Except ApiError TagFoldPolicy := do
  let policy ← fetchPolicy policy
  return { enabled := policy.enabled
           restricted := policy.restricted
           allowed := if policy.restricted then policy.allowedKeys else [] }

section
variable {ν : Type}

/-- `allowed_tags_only`: the tags that the policy lets reach the model. -/
def allowedTagsOnly (policy : Option TagPolicy) (tags : Dict String ν) :
    Except ApiError (Dict String ν) :=
  if tags.entries.isEmpty then .ok .empty
  else do
    let policy ← fetchPolicy policy
    if !policy.enabled then return .empty
    else if policy.restricted then return tags.filter fun tag => policy.allowedKeys.contains tag.1
    else return tags

/-- `sorted(keys)`. -/
def sortedKeys (keys : List String) : List String := keys.mergeSort

variable [ToString ν]

/-- `TagFoldPolicy.unsent`: the keys that the policy keeps out of the prompt. -/
def TagFoldPolicy.unsent (fold : TagFoldPolicy) (tags : Dict String ν) : List String :=
  if tags.entries.isEmpty then []
  else if !fold.enabled then sortedKeys tags.keys
  else sortedKeys ((tags.entries.filter fun tag =>
    sanitiseSingleLine (toString tag.2) == "" ||
      fold.restricted && !fold.allowed.contains tag.1).map Prod.fst)

/-- `recorded_tag_context`: the map that a reply has recorded. Only objects are written there. -/
def recordedTagContext (message : Message) : Option JsonObject :=
  match message.extra.lookup tagContextExtraKey with
  | some (.obj record) => some record
  | _ => none

/-- The record that a reply keeps of the rendered map. -/
def recordOf (sent : Dict String String) : JsonObject :=
  sent.entries.map fun tag => (tag.1, .str tag.2)

/-- The record of a reply has a key, up to cleaning. -/
def shows (record : JsonObject) (key : String) : Bool :=
  (record.map fun field => sanitiseSingleLine field.1).contains (sanitiseSingleLine key)

/-- `TagFoldPolicy.unsent_for_message`: the record of the reply decides, where there is one. -/
def TagFoldPolicy.unsentForMessage (fold : TagFoldPolicy) (message : Message)
    (tags : Dict String ν) : List String :=
  match recordedTagContext message with
  | none => fold.unsent tags
  | some record => sortedKeys (tags.keys.filter fun key => !shows record key)

end

/-- The policy lets a key reach the model. -/
def TagFoldPolicy.lets (fold : TagFoldPolicy) (key : String) : Bool :=
  fold.enabled && (!fold.restricted || fold.allowed.contains key)

section
variable {ν : Type} {policy : Option TagPolicy} {fold : TagFoldPolicy} {tags : Dict String ν}

/-- What a loaded policy lets through, in the words of the row. -/
theorem lets_of_load (h : loadTagFoldPolicy policy = .ok fold) :
    ∃ row, policy = some row ∧ fold.enabled = row.enabled ∧ fold.restricted = row.restricted ∧
      ∀ key, fold.lets key =
        (row.enabled && (!row.restricted || row.allowedKeys.contains key)) := by
  have ⟨row, hrow, hfold⟩ := bind_eq_ok.mp h
  cases hfold
  refine ⟨row, found_eq_ok.mp hrow, rfl, rfl, ?_⟩
  intro key
  by_cases hrestricted : row.restricted = true <;> simp [TagFoldPolicy.lets, hrestricted]

/-- The map of a prompt is what the loaded policy lets through. -/
theorem allowedTagsOnly_eq (h : loadTagFoldPolicy policy = .ok fold) (tags : Dict String ν) :
    allowedTagsOnly policy tags = .ok (tags.filter fun tag => fold.lets tag.1) := by
  have ⟨row, hpolicy, _, _, hlets⟩ := lets_of_load h
  simp only [hlets, allowedTagsOnly, hpolicy]
  by_cases hempty : tags.entries = []
  · rw [if_pos (by simp [hempty])]
    exact congrArg Except.ok (Dict.ext (by simp [hempty]))
  · rw [if_neg (by simpa using hempty)]
    show (if !row.enabled then Except.ok Dict.empty else if row.restricted then _ else _) = _
    by_cases henabled : row.enabled = true
    · by_cases hrestricted : row.restricted = true
      · simp [henabled, hrestricted]
        rfl
      · have hall : tags.filter (fun _ => true) = tags :=
          Dict.ext (List.filter_eq_self.mpr fun _ _ => rfl)
        simp [henabled, hrestricted, hall]
        rfl
    · have hnone : tags.filter (fun _ => false) = .empty :=
        Dict.ext (List.filter_eq_nil_iff.mpr fun _ _ => Bool.false_ne_true)
      simp [henabled, hnone]

variable [ToString ν]

/-- A tag of the map is sent. -/
def TagFoldPolicy.sends (fold : TagFoldPolicy) (tag : String × ν) : Bool :=
  fold.lets tag.1 && sanitiseSingleLine (toString tag.2) != ""

/-- The unsent keys are the sorted keys of the tags that are not sent. -/
theorem unsent_eq (fold : TagFoldPolicy) (tags : Dict String ν) :
    fold.unsent tags =
      sortedKeys ((tags.entries.filter fun tag => !fold.sends tag).map Prod.fst) := by
  rw [TagFoldPolicy.unsent]
  by_cases hempty : tags.entries = []
  · rw [if_pos (by simp [hempty]), hempty]
    simp [sortedKeys]
  · rw [if_neg (by simpa using hempty)]
    by_cases henabled : fold.enabled = true
    · rw [if_neg (by simp [henabled])]
      refine congrArg (fun kept => sortedKeys (List.map Prod.fst kept)) (List.filter_congr ?_)
      intro tag _
      simp only [TagFoldPolicy.sends, TagFoldPolicy.lets, henabled, Bool.true_and]
      by_cases htext : sanitiseSingleLine (toString tag.2) = ""
      · simp [htext]
      · have hbeq : (sanitiseSingleLine (toString tag.2) == "") = false :=
          beq_eq_false_iff_ne.mpr htext
        simp [bne, hbeq]
    · have hall : (tags.entries.filter fun tag => !fold.sends tag) = tags.entries := by
        rw [List.filter_eq_self]
        intro tag _
        simp [TagFoldPolicy.sends, TagFoldPolicy.lets, henabled]
      rw [if_pos (by simp [henabled]), hall]
      rfl

/-- A key is unsent when it is the key of a tag that is not sent. -/
theorem mem_unsent {key : String} :
    key ∈ fold.unsent tags ↔ ∃ tag ∈ tags.entries, fold.sends tag = false ∧ tag.1 = key := by
  rw [unsent_eq, sortedKeys, List.mem_mergeSort, List.mem_map]
  simp only [List.mem_filter, Bool.not_eq_true', and_assoc]

/-- The keys of a map that are not unsent are those of the tags that are sent. -/
theorem mem_keys_not_unsent {key : String} :
    key ∈ tags.keys ∧ key ∉ fold.unsent tags ↔
      ∃ tag ∈ tags.entries, fold.sends tag = true ∧ tag.1 = key := by
  rw [mem_unsent]
  constructor
  · intro ⟨hkey, hunsent⟩
    have ⟨tag, htag, heq⟩ := List.mem_map.mp hkey
    refine ⟨tag, htag, ?_, heq⟩
    by_contra hsends
    exact hunsent ⟨tag, htag, by simpa using hsends, heq⟩
  · rintro ⟨tag, htag, hsends, rfl⟩
    refine ⟨List.mem_map_of_mem htag, ?_⟩
    rintro ⟨tag', htag', hnot, hkey⟩
    -- One key has one tag.
    have hsame : tag' = tag := List.inj_on_of_nodup_map tags.nodup htag' htag hkey
    rw [hsame, hsends] at hnot
    exact Bool.noConfusion hnot

/-- The keys of the rendered map, for valid keys. -/
theorem mem_keys_sent_filter (hkeys : ∀ key ∈ tags.keys, isValidTagKey key = true)
    {key : String} :
    key ∈ (sentTagContext (tags.filter fun tag => fold.lets tag.1)).keys ↔
      ∃ tag ∈ tags.entries, fold.sends tag = true ∧ tag.1 = key := by
  rw [mem_keys_sent]
  simp only [Dict.entries_filter, List.mem_filter, TagFoldPolicy.sends, Bool.and_eq_true,
    bne_iff_ne]
  constructor
  · intro ⟨tag, ⟨htag, hlets⟩, hne, hkey⟩
    rw [sanitise_validKey (hkeys tag.1 (List.mem_map_of_mem htag))] at hkey
    exact ⟨tag, htag, ⟨hlets, hne⟩, hkey⟩
  · intro ⟨tag, htag, ⟨hlets, hne⟩, hkey⟩
    rw [← sanitise_validKey (hkeys tag.1 (List.mem_map_of_mem htag))] at hkey
    exact ⟨tag, ⟨htag, hlets⟩, hne, hkey⟩

/-- A valid key is shown by the record of a map exactly when it is a key of the map. -/
theorem shows_sent {sent : Dict String String}
    (hsent : ∀ key ∈ sent.keys, isValidTagKey key = true) {key : String}
    (hkey : isValidTagKey key = true) :
    shows (recordOf sent) key = true ↔ key ∈ sent.keys := by
  simp only [shows, recordOf, List.contains_iff_mem, List.mem_map, List.map_map]
  constructor
  · intro ⟨tag, htag, heq⟩
    have hmem : tag.1 ∈ sent.keys := List.mem_map_of_mem htag
    have hsame : tag.1 = key := by
      rw [← sanitise_validKey (hsent tag.1 hmem), ← sanitise_validKey hkey]
      exact heq
    exact hsame ▸ hmem
  · intro hmem
    have ⟨tag, htag, heq⟩ := List.mem_map.mp hmem
    refine ⟨tag, htag, ?_⟩
    show sanitiseSingleLine tag.1 = sanitiseSingleLine key
    rw [heq]

/-- The order of a record does not matter. -/
theorem shows_perm {record record' : JsonObject} (h : record.Perm record') (key : String) :
    shows record key = shows record' key := by
  rw [Bool.eq_iff_iff, shows, shows, List.contains_iff_mem, List.contains_iff_mem]
  exact (h.map _).mem_iff

/-- A reply that has recorded the rendered map is judged as the policy judged at the fold,
whatever the policy is later. -/
theorem unsentForMessage_eq (hkeys : ∀ key ∈ tags.keys, isValidTagKey key = true)
    {reply : Message} {record : JsonObject} (hreply : recordedTagContext reply = some record)
    (hrecord : record.Perm (recordOf (sentTagContext (tags.filter fun tag => fold.lets tag.1))))
    (later : TagFoldPolicy) : later.unsentForMessage reply tags = fold.unsent tags := by
  let sent := sentTagContext (tags.filter fun tag => fold.lets tag.1)
  have hsent : ∀ key ∈ sent.keys, isValidTagKey key = true := by
    intro key hkey
    obtain ⟨tag, htag, -, heq⟩ := (mem_keys_sent_filter hkeys).mp hkey
    exact hkeys key (heq ▸ List.mem_map_of_mem htag)
  simp only [TagFoldPolicy.unsentForMessage, hreply]
  rw [unsent_eq, Dict.keys, List.filter_map]
  congr 2
  apply List.filter_congr
  intro tag htag
  have hvalid := hkeys tag.1 (List.mem_map_of_mem htag)
  have hsends : shows record tag.1 = true ↔ fold.sends tag = true := by
    rw [shows_perm hrecord, shows_sent hsent hvalid, mem_keys_sent_filter hkeys]
    constructor
    · rintro ⟨tag', htag', hsends, hkey⟩
      have hsame : tag' = tag := List.inj_on_of_nodup_map tags.nodup htag' htag hkey
      exact hsame ▸ hsends
    · exact fun hsends => ⟨tag, htag, hsends, rfl⟩
  exact congrArg _ (Bool.eq_iff_iff.mpr hsends)

end

/-- Authored tags that the policy allows have keys that it lets through. -/
theorem lets_of_allowed {policy : Option TagPolicy} {fold : TagFoldPolicy}
    (h : loadTagFoldPolicy policy = .ok fold) {authored : Dict String String}
    (hallowed : assertTagsAllowed policy authored.entries = .ok ()) {tag : String × String}
    (htag : tag ∈ authored.entries) : fold.lets tag.1 = true := by
  have ⟨row, hpolicy, _, _, hlets⟩ := lets_of_load h
  have hne : authored.entries.isEmpty = false := by
    rw [List.isEmpty_eq_false_iff]
    exact List.ne_nil_of_mem htag
  rw [hlets]
  simp only [assertTagsAllowed, hpolicy, hne, Bool.false_eq_true, if_false] at hallowed
  by_cases henabled : row.enabled = true
  · by_cases hrestricted : row.restricted = true
    · simp only [henabled, hrestricted, Bool.not_true, Bool.false_eq_true, if_false, check_eq_ok,
        List.isEmpty_iff, List.filter_eq_nil_iff] at hallowed
      have hkey := hallowed tag.1 (List.mem_map_of_mem htag)
      simpa [henabled, hrestricted] using hkey
    · simp [henabled, hrestricted]
  · simp [henabled] at hallowed

/-- What the prompt carries of a tag map under a policy, against what the policy predicts. -/
structure Predicted {ν : Type} [ToString ν] (policy : Option TagPolicy) (fold : TagFoldPolicy)
    (tags : Dict String ν) (kept : Dict String ν) : Prop where
  /-- The filter lets these tags through. -/
  filtered : allowedTagsOnly policy tags = .ok kept
  /-- The keys of the rendered map are the keys that are not unsent. -/
  keys : ∀ key, key ∈ (foldTagContext kept).1.keys ↔ key ∈ tags.keys ∧ key ∉ fold.unsent tags
  /-- A reply that has recorded the rendered map tells the unsent keys, under every later
  policy. -/
  recorded : ∀ (reply : Message) (record : JsonObject), recordedTagContext reply = some record →
    record.Perm (recordOf (foldTagContext kept).1) →
    ∀ later : TagFoldPolicy, later.unsentForMessage reply tags = fold.unsent tags

/-- What becomes of authored tags in the prompt of a conversation. -/
structure Survives (policy : Option TagPolicy) (conversationTags authored : Dict String String)
    (kept : Dict String String) : Prop where
  /-- The filter lets these tags through. -/
  filtered : allowedTagsOnly policy (conversationTags.update authored.entries) = .ok kept
  /-- Each authored key is in the rendered map. -/
  keys : ∀ tag ∈ authored.entries, tag.1 ∈ (foldTagContext kept).1.keys
  /-- Each authored tag is in the rendered map, when the conversation has valid keys too. -/
  tags : (∀ key ∈ conversationTags.keys, isValidTagKey key = true) →
    ∀ tag ∈ authored.entries, tag ∈ (foldTagContext kept).1.entries

/-- A loaded policy predicts the prompt. -/
theorem predicted {ν : Type} [ToString ν] {policy : Option TagPolicy} {fold : TagFoldPolicy}
    (h : loadTagFoldPolicy policy = .ok fold) {tags : Dict String ν}
    (hkeys : ∀ key ∈ tags.keys, isValidTagKey key = true) :
    Predicted policy fold tags (tags.filter fun tag => fold.lets tag.1) := by
  constructor
  · exact allowedTagsOnly_eq h tags
  · intro key
    rw [mem_keys_not_unsent]
    exact mem_keys_sent_filter hkeys
  · intro reply record hreply hrecord later
    exact unsentForMessage_eq hkeys hreply hrecord later

/-- Authored tags survive. -/
theorem survives {policy : Option TagPolicy} {fold : TagFoldPolicy}
    (h : loadTagFoldPolicy policy = .ok fold) (conversationTags : Dict String String)
    {value authored : Dict String String} (hvalid : Validated value authored)
    (hallowed : assertTagsAllowed policy authored.entries = .ok ())
    (hvalues : ∀ tag ∈ authored.entries, tag.2 ≠ "") :
    Survives policy conversationTags authored
      ((conversationTags.update authored.entries).filter fun tag => fold.lets tag.1) := by
  let merged := conversationTags.update authored.entries
  have hmerged :
      ∀ tag ∈ authored.entries, tag ∈ (merged.filter fun tag => fold.lets tag.1).entries := by
    intro tag htag
    have hget : merged.get? tag.1 = some tag.2 := by
      rw [Dict.get?_update, Dict.get?_eq_some.mpr htag]
      rfl
    exact List.mem_filter.mpr ⟨Dict.get?_eq_some.mp hget, lets_of_allowed h hallowed htag⟩
  constructor
  · exact allowedTagsOnly_eq h merged
  · intro tag htag
    have htext : sanitiseSingleLine (toString tag.2) ≠ "" := by
      show sanitiseSingleLine tag.2 ≠ ""
      rw [hvalid.clean tag htag]
      exact hvalues tag htag
    exact mem_keys_sent.mpr
      ⟨tag, hmerged tag htag, htext, sanitise_validKey (hvalid.key tag htag)⟩
  · intro hkeys tag htag
    have hall : ∀ key ∈ (merged.filter fun tag => fold.lets tag.1).keys,
        sanitiseSingleLine key = key := by
      intro key hkey
      have hkey' : key ∈ merged.keys := List.filter_sublist.map Prod.fst |>.subset hkey
      rcases Dict.mem_keys_update.mp hkey' with hkey' | hkey'
      · have ⟨tag', htag', heq⟩ := List.mem_map.mp hkey'
        exact sanitise_validKey (heq ▸ hvalid.key tag' htag')
      · exact sanitise_validKey (hkeys key hkey')
    show tag ∈ (sentTagContext _).entries
    rw [entries_sent hall, List.mem_filterMap]
    refine ⟨tag, mem_sortedByKey.mpr (hmerged tag htag),
      sentPair_eq_some.mpr ⟨hvalues tag htag, ?_⟩⟩
    rw [sanitise_validKey (hvalid.key tag htag)]
    exact Prod.ext rfl (hvalid.clean tag htag).symm

/-- The keys that a policy does not report as unsent are the keys of the prompt. A reply that has
recorded its prompt is judged as the policy judged then. Tags that the write edge accepted with
values are all in the prompt, whatever the conversation has. -/
theorem tag_preview_is_sent (policy : Option TagPolicy) (fold : TagFoldPolicy)
    (h : loadTagFoldPolicy policy = .ok fold) :
    (∀ (ν : Type) [ToString ν] (tags : Dict String ν),
      (∀ key ∈ tags.keys, isValidTagKey key = true) → ∃ kept, Predicted policy fold tags kept) ∧
    ∀ conversationTags value authored : Dict String String, validateTags value = .ok authored →
      assertTagsAllowed policy authored.entries = .ok () →
      (∀ tag ∈ authored.entries, tag.2 ≠ "") →
      ∃ kept, Survives policy conversationTags authored kept := by
  constructor
  · intro ν _ tags hkeys
    exact ⟨_, predicted h hkeys⟩
  · intro conversationTags value authored hvalid hallowed hvalues
    exact ⟨_, survives h conversationTags (validateTags_eq_ok.mp hvalid) hallowed hvalues⟩

/-- A policy that allows `env` and `role`. -/
def restrictedPolicy : TagPolicy where
  enabled := true
  restricted := true
  allowedKeys := ["env", "role"]

/-- The tags of a conversation, with a key that is not allowed and a blank value. -/
def staleTags : Dict String String :=
  ⟨[("env", "prod"), ("team", "red"), ("role", " ")], by decide⟩

/-- What a request sends, and what is stored of it. -/
def requestTags : Dict String String := ⟨[("env", "staging\n")], by decide⟩

def authoredTags : Dict String String := ⟨[("env", "staging")], by decide⟩

/-- The prompt of that conversation, and of the request in it. -/
theorem tag_preview_is_sent_restricted :
    (∃ kept, Predicted (some restrictedPolicy) ⟨true, true, ["env", "role"]⟩ staleTags kept) ∧
      ∃ kept, Survives (some restrictedPolicy) staleTags authoredTags kept :=
  have h := tag_preview_is_sent (some restrictedPolicy) ⟨true, true, ["env", "role"]⟩ rfl
  ⟨h.1 String staleTags (by decide),
    h.2 staleTags requestTags authoredTags (by decide +kernel) (by decide) (by decide)⟩

end RedTeaming.Conversations.Tags
