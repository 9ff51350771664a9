import RedTeaming.ApiError
import RedTeaming.Library.Dict
import RedTeaming.Library.Distinct
import RedTeaming.Library.Text
import Mathlib.Data.String.Basic

/-!
# `RedTeaming.Conversations.Tags`: from a tag map to the lines of a prompt

`sanitise_single_line` of `core/helpers.py`, `core/conversations/tags.py`, and the validation of a
tag map in `core/conversations/schemas.py`. A value is cleaned at the write edge (`validateTags`)
and again at the prompt (`sentTagContext`), and `foldTagContext` renders what is left under a
preamble.

A `String` has no surrogate, as no text of a request or of the database has one. `sanitisePoints`
is the cleaning on every `str` of Python, and `codePoints_sanitiseSingleLine` ties the two
together. A value of a tag map can be of any type that `str(...)` prints, since a stored row need
not come from the schema.

The main result is `one_line_per_tag`.
-/

set_option autoImplicit false

namespace RedTeaming.Conversations.Tags

open RedTeaming.Library
open RedTeaming.Library.Text

/-! ### Cleaning -/

/-- `_INVISIBLE_CATEGORIES`. -/
def invisible (c : Nat) : Bool := isControl c || isFormat c || isPrivateUse c || isSurrogate c

/-- A code point is a space. -/
def pointSpace (c : CodePoint) : Bool := isSpace c.val

/-- A code point is dropped. -/
def pointInvisible (c : CodePoint) : Bool := invisible c.val

/-- A character is a space. -/
def charSpace (c : Char) : Bool := isSpace c.toNat

/-- A character is dropped. -/
def charInvisible (c : Char) : Bool := invisible c.toNat

/-- `sanitise_single_line`, on code points. -/
def sanitisePoints (text : List CodePoint) : List CodePoint :=
  singleLine pointSpace pointInvisible 0x20 text

/-- `sanitise_single_line`. -/
def sanitiseSingleLine (text : String) : String :=
  String.ofList (singleLine charSpace charInvisible ' ' text.toList)

/-- The code point of a character. -/
def codePoint (c : Char) : CodePoint :=
  ⟨c.toNat, by
    have hvalid := c.valid
    simp only [UInt32.isValidChar, Nat.isValidChar] at hvalid
    show c.val.toNat < 0x110000
    omega⟩

/-- The code points of a text. -/
def codePoints (text : String) : List CodePoint := text.toList.map codePoint

/-- The blank is a space, and neither a line break nor invisible. -/
theorem blank_spec : isSpace 0x20 = true ∧ breaksLine 0x20 = false ∧ invisible 0x20 = false := by
  decide

/-- Cleaning a text is cleaning its code points. -/
theorem codePoints_sanitiseSingleLine (text : String) :
    codePoints (sanitiseSingleLine text) = sanitisePoints (codePoints text) := by
  have hspace : ∀ c, pointSpace (codePoint c) = charSpace c := fun _ => rfl
  have hinvisible : ∀ c, pointInvisible (codePoint c) = charInvisible c := fun _ => rfl
  rw [codePoints, sanitiseSingleLine, String.toList_ofList]
  exact map_singleLine codePoint hspace hinvisible text.toList

/-- Cleaning twice is cleaning once. -/
theorem sanitisePoints_idem (text : List CodePoint) :
    sanitisePoints (sanitisePoints text) = sanitisePoints text := by
  have hblank : pointSpace 0x20 = true := blank_spec.1
  exact singleLine_idem hblank text

/-- A cleaned text has no line break, and nothing invisible. -/
theorem sanitisePoints_clean {text : List CodePoint} {c : CodePoint}
    (h : c ∈ sanitisePoints text) :
    breaksLine c.val = false ∧ invisible c.val = false := by
  rcases mem_singleLine h with rfl | ⟨-, hspace, hvisible⟩
  · exact blank_spec.2
  · have hbreak : breaksLine c = false := by
      rw [Bool.eq_false_iff]
      intro hbreak
      have hspace' : pointSpace c = true := isSpace_of_breaksLine hbreak
      rw [hspace] at hspace'
      exact Bool.noConfusion hspace'
    exact ⟨hbreak, hvisible⟩

/-- Cleaning twice is cleaning once. -/
@[simp] theorem sanitise_idem (text : String) :
    sanitiseSingleLine (sanitiseSingleLine text) = sanitiseSingleLine text := by
  have hblank : charSpace ' ' = true := blank_spec.1
  rw [sanitiseSingleLine, sanitiseSingleLine, String.toList_ofList, singleLine_idem hblank]

/-- A cleaned text has no line break, and nothing invisible. -/
theorem sanitise_clean {text : String} {c : Char} (h : c ∈ (sanitiseSingleLine text).toList) :
    breaksLine c.toNat = false ∧ invisible c.toNat = false := by
  have hpoint : codePoint c ∈ sanitisePoints (codePoints text) := by
    rw [← codePoints_sanitiseSingleLine]
    exact List.mem_map_of_mem h
  exact sanitisePoints_clean hpoint

/-- Cleaning makes no text longer. -/
theorem length_sanitise_le (text : String) : (sanitiseSingleLine text).length ≤ text.length := by
  rw [← String.length_toList, ← String.length_toList, sanitiseSingleLine, String.toList_ofList]
  exact length_singleLine_le text.toList

/-- The empty text is clean. -/
@[simp] theorem sanitise_empty : sanitiseSingleLine "" = "" := by decide

/-! ### Keys -/

/-- A character of `TAG_KEY_PATTERN`. -/
def isKeyChar (c : Char) : Bool := c.isAlphanum || c == '_' || c == '.' || c == '-'

/-- `is_valid_tag_key`. -/
def isValidTagKey (key : String) : Bool :=
  key.toList.all isKeyChar && decide (1 ≤ key.length) && decide (key.length ≤ 64) &&
    !(strip (fun c => c == '.') key.toList).isEmpty

/-- A letter is in one of the two ranges. -/
theorem isAlpha_eq (c : Char) :
    c.isAlpha =
      (decide (c.val ≥ 65 ∧ c.val ≤ 90) || (decide (c.val ≥ 97) && decide (c.val ≤ 122))) := rfl

/-- The characters of a key are ASCII, and none is a space, invisible, or a colon. -/
theorem isKeyChar_spec {c : Char} (h : isKeyChar c = true) :
    isSpace c.toNat = false ∧ invisible c.toNat = false ∧ c ≠ ':' ∧ c ≠ ' ' := by
  have hascii : c.toNat < 128 := by
    simp only [isKeyChar, Char.isAlphanum, isAlpha_eq, Char.isDigit, Bool.or_eq_true,
      Bool.and_eq_true, decide_eq_true_eq, beq_iff_eq] at h
    rcases h with ((((h | h) | h) | rfl) | rfl) | rfl
    · exact Nat.lt_of_le_of_lt (UInt32.le_iff_toNat_le.mp h.2) (by decide)
    · exact Nat.lt_of_le_of_lt (UInt32.le_iff_toNat_le.mp h.2) (by decide)
    · exact Nat.lt_of_le_of_lt (UInt32.le_iff_toNat_le.mp h.2) (by decide)
    all_goals decide
  have hall : ∀ n < 128, isKeyChar (Char.ofNat n) = true →
      isSpace n = false ∧ invisible n = false ∧ Char.ofNat n ≠ ':' ∧ Char.ofNat n ≠ ' ' := by
    decide
  have hc := hall c.toNat hascii
  rw [Char.ofNat_toNat] at hc
  exact hc h

/-- The characters of a valid key. -/
theorem isKeyChar_of_mem {key : String} (h : isValidTagKey key = true) {c : Char}
    (hc : c ∈ key.toList) : isKeyChar c = true := by
  simp only [isValidTagKey, Bool.and_eq_true, List.all_eq_true] at h
  exact h.1.1.1 c hc

/-- Cleaning leaves a valid key as it is. -/
theorem sanitise_validKey {key : String} (h : isValidTagKey key = true) :
    sanitiseSingleLine key = key := by
  have hvisible : ∀ c ∈ key.toList, charSpace c = false ∧ charInvisible c = false := by
    intro c hc
    have hspec := isKeyChar_spec (isKeyChar_of_mem h hc)
    exact ⟨hspec.1, hspec.2.1⟩
  rw [sanitiseSingleLine, singleLine_eq_self hvisible, String.ofList_toList]

/-! ### The prompt -/

/-- `TAG_CONTEXT_PREAMBLE`. -/
def tagContextPreamble : String :=
  "Context tags for this request — take them into account when responding:"

/-- The tags in the order of `sorted(tags)`. -/
def sortedByKey {ν : Type} (tags : Dict String ν) : List (String × ν) :=
  tags.entries.mergeSort fun a b => decide (a.1 ≤ b.1)

/-- A sorted tag is a tag. -/
@[simp] theorem mem_sortedByKey {ν : Type} {tags : Dict String ν} {tag : String × ν} :
    tag ∈ sortedByKey tags ↔ tag ∈ tags.entries := List.mem_mergeSort

section
variable {ν : Type} [ToString ν]

/-- `sent_tag_context`: the cleaned pairs, without the values that carry no text. -/
def sentTagContext (tags : Dict String ν) : Dict String String :=
  (sortedByKey tags).foldl (fun sent tag =>
    let value := sanitiseSingleLine (toString tag.2)
    if value = "" then sent else sent.insert (sanitiseSingleLine tag.1) value) .empty

/-- The line of a pair. -/
def tagLine (tag : String × String) : String := tag.1 ++ ": " ++ tag.2

/-- `_render_pairs`. -/
def renderPairs (sent : Dict String String) : String :=
  "\n".intercalate (tagContextPreamble :: sent.entries.map tagLine)

/-- `fold_tag_context`: the pairs of the prompt, and the block that renders them. -/
def foldTagContext (tags : Dict String ν) : Dict String String × Option String :=
  let sent := sentTagContext tags
  (sent, if sent.entries.isEmpty then none else some (renderPairs sent))

/-- `render_tag_context`. -/
def renderTagContext (tags : Dict String ν) : Option String := (foldTagContext tags).2

/-- The pair that a tag adds to the prompt. -/
def sentPair (tag : String × ν) : Option (String × String) :=
  let value := sanitiseSingleLine (toString tag.2)
  if value = "" then none else some (sanitiseSingleLine tag.1, value)

/-- The pair of a tag with text. -/
theorem sentPair_eq_some {tag : String × ν} {pair : String × String} :
    sentPair tag = some pair ↔ pair.2 ≠ "" ∧
      pair = (sanitiseSingleLine tag.1, sanitiseSingleLine (toString tag.2)) := by
  rw [sentPair]
  split
  · rename_i hempty
    constructor
    · intro h
      exact nomatch h
    · intro ⟨hne, heq⟩
      rw [heq] at hne
      exact absurd hempty hne
  · rename_i hempty
    rw [Option.some_inj]
    constructor
    · intro h
      rw [← h]
      exact ⟨hempty, rfl⟩
    · exact fun h => h.2.symm

/-- The loop inserts the pairs one by one. -/
theorem sentTagContext_eq (tags : Dict String ν) :
    sentTagContext tags = Dict.empty.update ((sortedByKey tags).filterMap sentPair) := by
  have hloop (l : List (String × ν)) (sent : Dict String String) :
      l.foldl (fun sent tag =>
        let value := sanitiseSingleLine (toString tag.2)
        if value = "" then sent else sent.insert (sanitiseSingleLine tag.1) value) sent =
      sent.update (l.filterMap sentPair) := by
    induction l generalizing sent with
    | nil => rfl
    | cons tag l ih =>
      rw [List.foldl_cons, ih, List.filterMap_cons]
      by_cases hempty : sanitiseSingleLine (toString tag.2) = ""
      · simp only [sentPair, if_pos hempty]
      · simp only [sentPair, if_neg hempty, Dict.update_cons]
  exact hloop (sortedByKey tags) .empty

/-- A key is sent when it is the cleaned key of a tag with text. -/
theorem mem_keys_sent {tags : Dict String ν} {key : String} :
    key ∈ (sentTagContext tags).keys ↔ ∃ tag ∈ tags.entries,
      sanitiseSingleLine (toString tag.2) ≠ "" ∧ sanitiseSingleLine tag.1 = key := by
  rw [sentTagContext_eq, Dict.mem_keys_update, Dict.keys_empty, List.mem_map]
  constructor
  · rintro (⟨pair, hpair, rfl⟩ | h)
    · have ⟨tag, htag, heq⟩ := List.mem_filterMap.mp hpair
      have ⟨hne, hpair⟩ := sentPair_eq_some.mp heq
      rw [hpair] at hne ⊢
      exact ⟨tag, mem_sortedByKey.mp htag, hne, rfl⟩
    · exact absurd h List.not_mem_nil
  · intro ⟨tag, htag, hne, hkey⟩
    have hpair :
        sentPair tag = some (sanitiseSingleLine tag.1, sanitiseSingleLine (toString tag.2)) :=
      sentPair_eq_some.mpr ⟨hne, rfl⟩
    exact .inl ⟨_, List.mem_filterMap.mpr ⟨tag, mem_sortedByKey.mpr htag, hpair⟩, hkey⟩

/-- With keys that cleaning leaves as they are, the pairs of the tags with text are sent, in
order. -/
theorem entries_sent {tags : Dict String ν}
    (hkeys : ∀ key ∈ tags.keys, sanitiseSingleLine key = key) :
    (sentTagContext tags).entries = (sortedByKey tags).filterMap sentPair := by
  have hlabel : ∀ tag ∈ sortedByKey tags, ∀ pair, sentPair tag = some pair → pair.1 = tag.1 := by
    intro tag htag pair hpair
    rw [(sentPair_eq_some.mp hpair).2]
    exact hkeys tag.1 (List.mem_map_of_mem (mem_sortedByKey.mp htag))
  have hsorted : ((sortedByKey tags).map Prod.fst).Nodup :=
    ((List.mergeSort_perm _ _).map Prod.fst).nodup_iff.mpr tags.nodup
  rw [sentTagContext_eq, Dict.entries_update_of_nodup (nodup_map_filterMap_of_mem hlabel hsorted)
    fun _ _ => List.not_mem_nil]
  rfl

/-- A check of the characters of a text for line breaks. -/
theorem unbroken_of_all {cs : List Char} (h : (cs.all fun c => !breaksLine c.toNat) = true) :
    ∀ c ∈ cs, breaksLine c.toNat = false := by
  intro c hc
  simpa using List.all_eq_true.mp h c hc

/-- Each line of the block is not empty, and has no line break. -/
theorem block_lines (tags : Dict String ν) :
    ∀ line ∈ tagContextPreamble :: (sentTagContext tags).entries.map tagLine,
      line.toList ≠ [] ∧ ∀ c ∈ line.toList, breaksLine c.toNat = false := by
  intro line hline
  rcases List.mem_cons.mp hline with rfl | hline
  · exact ⟨by decide, unbroken_of_all (by decide)⟩
  · have ⟨pair, hpair, hline⟩ := List.mem_map.mp hline
    rw [sentTagContext_eq] at hpair
    have ⟨tag, _, heq⟩ := List.mem_filterMap.mp (Dict.mem_entries_update hpair)
    have hclean := (sentPair_eq_some.mp heq).2
    rw [← hline, tagLine, hclean]
    simp only [String.toList_append, ne_eq, List.append_eq_nil_iff, List.mem_append]
    constructor
    · intro h
      exact absurd h.1.2 (by decide)
    · rintro c ((hc | hc) | hc)
      · exact (sanitise_clean hc).1
      · exact unbroken_of_all (by decide) c hc
      · exact (sanitise_clean hc).1

end

/-- `str.splitlines`. -/
def splitlines (text : String) : List String :=
  (splitLines (fun c => breaksLine c.toNat) '\r' '\n' text.toList).map String.ofList

/-- Lines that are not empty and have no break are read back from their join. -/
theorem splitlines_intercalate {lines : List String}
    (h : ∀ line ∈ lines, line.toList ≠ [] ∧ ∀ c ∈ line.toList, breaksLine c.toNat = false) :
    splitlines ("\n".intercalate lines) = lines := by
  have hlines : ∀ line ∈ lines.map String.toList,
      line ≠ [] ∧ ∀ c ∈ line, (fun c : Char => breaksLine c.toNat) c = false := by
    intro line hline
    have ⟨line', hmem, heq⟩ := List.mem_map.mp hline
    rw [← heq]
    exact h line' hmem
  rw [splitlines, String.toList_intercalate]
  show (splitLines _ '\r' '\n' (List.intercalate ['\n'] (lines.map String.toList))).map _ = lines
  rw [splitLines_intercalate (by decide) (by decide) (by decide) hlines, List.map_map]
  simp [Function.comp_def]

/-- The lines of the block are the preamble and the lines of the pairs. -/
theorem splitlines_block {ν : Type} [ToString ν] {tags : Dict String ν} {block : String}
    (h : renderTagContext tags = some block) :
    splitlines block = tagContextPreamble :: (sentTagContext tags).entries.map tagLine := by
  have hblock : block = renderPairs (sentTagContext tags) := by
    simp only [renderTagContext, foldTagContext] at h
    split at h
    · exact nomatch h
    · exact (Option.some_inj.mp h).symm
  rw [hblock, renderPairs]
  exact splitlines_intercalate (block_lines tags)

/-- The key of a line is what stands before the first colon. -/
theorem takeWhile_tagLine {tag : String × String} (h : isValidTagKey tag.1 = true) :
    (tagLine tag).toList.takeWhile (· ≠ ':') = tag.1.toList := by
  have hkey : ∀ c ∈ tag.1.toList, (c ≠ ':' : Bool) = true := by
    intro c hc
    simpa using (isKeyChar_spec (isKeyChar_of_mem h hc)).2.2.1
  rw [tagLine, String.toList_append, String.toList_append, List.append_assoc,
    List.takeWhile_append_of_pos hkey]
  simp

/-- Two tags with valid keys and the same line are one tag. -/
theorem tagLine_inj {tag tag' : String × String} (h : isValidTagKey tag.1 = true)
    (h' : isValidTagKey tag'.1 = true) (hline : tagLine tag = tagLine tag') : tag = tag' := by
  have hkey : tag.1 = tag'.1 := by
    rw [← String.toList_inj, ← takeWhile_tagLine h, ← takeWhile_tagLine h', hline]
  have hvalue : tag.2 = tag'.2 := by
    rw [← String.toList_inj] at hline ⊢
    rw [tagLine, tagLine, hkey] at hline
    simpa [String.toList_append] using hline
  exact Prod.ext hkey hvalue

/-- No tag with a valid key has the preamble as its line. -/
theorem tagLine_ne_preamble {tag : String × String} (h : isValidTagKey tag.1 = true) :
    tagLine tag ≠ tagContextPreamble := by
  intro hline
  have hkey := takeWhile_tagLine h
  rw [hline] at hkey
  have hblank : ' ' ∈ tag.1.toList := by
    rw [← hkey]
    decide
  exact (isKeyChar_spec (isKeyChar_of_mem h hblank)).2.2.2 rfl

/-! ### The write edge -/

/-- `MAX_TAGS`. -/
def maxTags : Nat := 16

/-- `_MAX_TAG_VALUE_LEN`. -/
def maxTagValueLen : Nat := 512

/-- `_MAX_TAGS_BYTES`. -/
def maxTagsBytes : Nat := 10 * 1024

/-- One character of a JSON text, as `json.dumps` of `ensure_ascii=False` writes it. -/
def jsonChar (c : Char) : String :=
  if c.toNat = 34 then "\\\""
  else if c.toNat = 92 then "\\\\"
  else if c.toNat = 10 then "\\n"
  else if c.toNat = 13 then "\\r"
  else if c.toNat = 9 then "\\t"
  else if c.toNat = 8 then "\\b"
  else if c.toNat = 12 then "\\f"
  else if c.toNat < 32 then
    "\\u00" ++ String.ofList [Nat.digitChar (c.toNat / 16), Nat.digitChar (c.toNat % 16)]
  else String.singleton c

/-- A JSON text. -/
def jsonText (text : String) : String := "\"" ++ String.join (text.toList.map jsonChar) ++ "\""

/-- `json.dumps` of a tag map. -/
def jsonDumps (tags : Dict String String) : String :=
  "\x7b" ++
    ", ".intercalate (tags.entries.map fun tag => jsonText tag.1 ++ ": " ++ jsonText tag.2)
    ++ "\x7d"

/-- A text has nothing but spaces: `not text.strip()`. -/
def isBlank (text : String) : Bool := (strip charSpace text.toList).isEmpty

/-- The checks of `_validate_tags` on one tag. -/
def checkTag (tag : String × String) : Except ApiError Unit := do
  check (isValidTagKey tag.1)
    (.validationError ("invalid tag key " ++ quoted tag.1
      ++ ": letters, digits and `_.-` only, 1-64 chars, not dots alone"))
  check (decide (tag.2.length ≤ maxTagValueLen))
    (.validationError ("tag value for " ++ quoted tag.1 ++ " exceeds " ++ toString maxTagValueLen
      ++ " characters"))
  check (isBlank tag.2 || sanitiseSingleLine tag.2 != "")
    (.validationError ("tag value for " ++ quoted tag.1
      ++ " carries no text (only invisible characters)"))

/-- `_validate_tags`: check a map, and return it with cleaned values. -/
def validateTags (value : Dict String String) : Except ApiError (Dict String String) := do
  check (decide (value.entries.length ≤ maxTags))
    (.validationError ("at most " ++ toString maxTags ++ " tags allowed"))
  value.entries.forM checkTag
  let cleaned := value.mapValues sanitiseSingleLine
  check (decide ((jsonDumps cleaned).utf8ByteSize ≤ maxTagsBytes))
    (.validationError ("tags exceed the " ++ toString (maxTagsBytes / 1024) ++ " KiB limit"))
  return cleaned

/-- A tag passes the checks. -/
structure TagOk (tag : String × String) : Prop where
  /-- Its key is valid. -/
  key : isValidTagKey tag.1 = true
  /-- Its value is not too long. -/
  length : tag.2.length ≤ maxTagValueLen
  /-- Its value is blank, or carries text. -/
  text : isBlank tag.2 = true ∨ sanitiseSingleLine tag.2 ≠ ""

/-- The checks on one tag pass. -/
theorem checkTag_eq_ok {tag : String × String} {u : Unit} : checkTag tag = .ok u ↔ TagOk tag := by
  simp only [checkTag, bind_eq_ok, exists_unit, check_eq_ok, decide_eq_true_eq, Bool.or_eq_true,
    bne_iff_ne]
  constructor
  · rintro ⟨hkey, hlength, htext⟩
    exact ⟨hkey, hlength, htext⟩
  · intro h
    exact ⟨h.key, h.length, h.text⟩

/-- A map passes the validation, and what it stores. -/
structure Validated (value stored : Dict String String) : Prop where
  /-- There are not too many tags. -/
  count : value.entries.length ≤ maxTags
  /-- Each tag passes its checks. -/
  tags : ∀ tag ∈ value.entries, TagOk tag
  /-- The cleaned map is not too large. -/
  size : (jsonDumps stored).utf8ByteSize ≤ maxTagsBytes
  /-- The stored values are the cleaned ones. -/
  stored : stored = value.mapValues sanitiseSingleLine

/-- A validation returns the cleaned map when every check passes. -/
theorem validateTags_eq_ok {value stored : Dict String String} :
    validateTags value = .ok stored ↔ Validated value stored := by
  simp only [validateTags, bind_eq_ok, exists_unit, check_eq_ok, decide_eq_true_eq, forM_eq_ok,
    checkTag_eq_ok]
  constructor
  · rintro ⟨hcount, htags, hsize, hstored⟩
    cases hstored
    exact ⟨hcount, htags, hsize, rfl⟩
  · intro h
    have hsize := h.size
    rw [h.stored] at hsize ⊢
    exact ⟨h.count, h.tags, hsize, rfl⟩

/-- A stored value is a clean one. -/
theorem Validated.clean {value stored : Dict String String} (h : Validated value stored) :
    ∀ tag ∈ stored.entries, sanitiseSingleLine tag.2 = tag.2 := by
  intro tag htag
  rw [h.stored] at htag
  have ⟨tag', _, heq⟩ := List.mem_map.mp htag
  rw [← heq]
  exact sanitise_idem tag'.2

/-- A stored key is a valid one. -/
theorem Validated.key {value stored : Dict String String} (h : Validated value stored) :
    ∀ tag ∈ stored.entries, isValidTagKey tag.1 = true := by
  intro tag htag
  rw [h.stored] at htag
  have ⟨tag', hmem, heq⟩ := List.mem_map.mp htag
  rw [← heq]
  exact (h.tags tag' hmem).key

/-- A stored map passes the validation, and is stored as it is. -/
theorem Validated.again {value stored : Dict String String} (h : Validated value stored) :
    Validated stored stored := by
  have hself : stored = stored.mapValues sanitiseSingleLine := by
    apply Dict.ext
    show stored.entries = stored.entries.map fun tag => (tag.1, sanitiseSingleLine tag.2)
    conv_lhs => rw [← List.map_id stored.entries]
    apply List.map_congr_left
    intro tag htag
    rw [h.clean tag htag]
    rfl
  have hlength : stored.entries.length = value.entries.length := by
    rw [h.stored]
    exact List.length_map _
  have htags : ∀ tag ∈ stored.entries, TagOk tag := by
    intro tag htag
    have hcleaned := htag
    rw [h.stored] at hcleaned
    have ⟨tag', hmem, heq⟩ := List.mem_map.mp hcleaned
    have hok := h.tags tag' hmem
    constructor
    · exact h.key tag htag
    · rw [← heq]
      exact Nat.le_trans (length_sanitise_le tag'.2) hok.length
    · -- What is left of a value is empty, and then blank, or text.
      rw [h.clean tag htag]
      by_cases hempty : tag.2 = ""
      · rw [hempty]
        exact .inl rfl
      · exact .inr hempty
  exact ⟨hlength ▸ h.count, htags, h.size, hself⟩

/-- Validating twice is validating once. -/
theorem validateTags_validateTags (value : Dict String String) :
    (validateTags value >>= validateTags) = validateTags value := by
  cases h : validateTags value with
  | error e => rfl
  | ok stored =>
    have hagain := (validateTags_eq_ok.mp h).again
    exact validateTags_eq_ok.mpr hagain

/-- Of a stored map, exactly the tags with a value are sent, as they are. -/
theorem Validated.entries_sent {value stored : Dict String String} (h : Validated value stored) :
    (sentTagContext stored).entries = (sortedByKey stored).filter fun tag => tag.2 ≠ "" := by
  have hkeys : ∀ key ∈ stored.keys, sanitiseSingleLine key = key := by
    intro key hkey
    have ⟨tag, htag, heq⟩ := List.mem_map.mp hkey
    rw [← heq]
    exact sanitise_validKey (h.key tag htag)
  rw [Tags.entries_sent hkeys, ← List.filterMap_eq_filter]
  apply List.filterMap_congr
  intro tag htag
  have hmem := mem_sortedByKey.mp htag
  have hvalue : sanitiseSingleLine (toString tag.2) = tag.2 := h.clean tag hmem
  rw [sentPair, hvalue, sanitise_validKey (h.key tag hmem)]
  by_cases hempty : tag.2 = ""
  · simp [hempty, Option.guard]
  · simp [hempty, Option.guard]

/-! ### One line per tag -/

/-- What the prompt shows of a tag map. -/
structure Rendered (tags : Dict String String) : Prop where
  /-- The lines of the block are the preamble, and one line for each pair that is sent. -/
  lines : ∀ block, renderTagContext tags = some block →
    splitlines block = tagContextPreamble :: (sentTagContext tags).entries.map tagLine
  /-- There is no block exactly when nothing is sent. -/
  silent : renderTagContext tags = none ↔ (sentTagContext tags).entries = []
  /-- What is sent is the cleaned key of each tag that carries text. -/
  kept : ∀ key, key ∈ (sentTagContext tags).keys ↔ ∃ tag ∈ tags.entries,
    sanitiseSingleLine tag.2 ≠ "" ∧ sanitiseSingleLine tag.1 = key

/-- No tag of a map can pass for another one in the prompt. -/
structure Unforged (stored : Dict String String) : Prop where
  /-- The pairs that are sent are the tags with a value. -/
  sent : (sentTagContext stored).entries = (sortedByKey stored).filter fun tag => tag.2 ≠ ""
  /-- Two tags have two lines. -/
  lines : ∀ tag ∈ stored.entries, ∀ tag' ∈ stored.entries, tagLine tag = tagLine tag' → tag = tag'
  /-- No tag has the preamble as its line. -/
  preamble : ∀ tag ∈ stored.entries, tagLine tag ≠ tagContextPreamble

/-- The block of a map. -/
theorem rendered (tags : Dict String String) : Rendered tags := by
  constructor
  · exact fun _ h => splitlines_block h
  · simp [renderTagContext, foldTagContext]
  · exact fun _ => mem_keys_sent

/-- The lines of a stored map. -/
theorem Validated.unforged {value stored : Dict String String} (h : Validated value stored) :
    Unforged stored := by
  constructor
  · exact h.entries_sent
  · intro tag htag tag' htag' hline
    exact tagLine_inj (h.key tag htag) (h.key tag' htag') hline
  · intro tag htag
    exact tagLine_ne_preamble (h.key tag htag)

/-- A cleaned text is one visible line, and cleaning it again changes nothing. The block of a tag
map has one line for each pair. What passes the validation passes it again as it is, and is what
the prompt carries, so that no tag can forge the line of another one. -/
theorem one_line_per_tag :
    (∀ text : List CodePoint, sanitisePoints (sanitisePoints text) = sanitisePoints text ∧
      ∀ c ∈ sanitisePoints text, breaksLine c.val = false ∧ invisible c.val = false) ∧
    (∀ text : String, sanitiseSingleLine (sanitiseSingleLine text) = sanitiseSingleLine text ∧
      codePoints (sanitiseSingleLine text) = sanitisePoints (codePoints text)) ∧
    (∀ tags : Dict String String, Rendered tags) ∧
    (∀ value : Dict String String, (validateTags value >>= validateTags) = validateTags value) ∧
    ∀ value stored : Dict String String, validateTags value = .ok stored → Unforged stored := by
  refine ⟨fun text => ⟨sanitisePoints_idem text, fun _ => sanitisePoints_clean⟩,
    fun text => ⟨sanitise_idem text, codePoints_sanitiseSingleLine text⟩, rendered,
    validateTags_validateTags, ?_⟩
  intro value stored h
  exact (validateTags_eq_ok.mp h).unforged

end RedTeaming.Conversations.Tags
