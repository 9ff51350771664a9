import Mathlib.Data.List.Basic

/-!
# `RedTeaming.Library.Text`: words, lines and character classes

A text is a list of characters, of any type. `words` is `str.split()`, `strip` takes the
characters of a class off both ends, and `splitLines` is `str.splitlines()`. What is a space or a
line break is a parameter. `singleLine` keeps the spaces and the characters that are not hidden,
and puts one blank between the words. `singleLine_idem` says that a second pass changes nothing,
`mem_singleLine` what the result is made of, and `splitLines_intercalate` that joined lines are
read back.

The second part gives the classes of Python on code points. The ranges are those of Unicode 16.

Nothing here names a program.
-/

set_option autoImplicit false

namespace RedTeaming.Library.Text

section classes
variable {α : Type} {p : α → Bool} {sep : α} {parts : List (List α)}

/-- A joined text is made of the separator and of the parts. -/
theorem mem_intercalate {c : α} (h : c ∈ [sep].intercalate parts) :
    c = sep ∨ ∃ part ∈ parts, c ∈ part := by
  induction parts with
  | nil => exact absurd h List.not_mem_nil
  | cons part rest ih =>
    cases rest with
    | nil =>
      rw [List.intercalate_singleton] at h
      exact .inr ⟨part, List.mem_cons_self, h⟩
    | cons next rest =>
      rw [List.intercalate_cons_cons, List.mem_append, List.mem_append, List.mem_singleton] at h
      rcases h with (h | h) | h
      · exact .inr ⟨part, List.mem_cons_self, h⟩
      · exact .inl h
      · rcases ih h with h | ⟨part', hpart', hc⟩
        · exact .inl h
        · exact .inr ⟨part', List.mem_cons_of_mem _ hpart', hc⟩

/-- A piece of a split is made of characters of the text outside the class. -/
theorem of_mem_splitOnP {text piece : List α} (h : piece ∈ text.splitOnP p) :
    ∀ c ∈ piece, p c = false ∧ c ∈ text := by
  induction text generalizing piece with
  | nil =>
    rw [List.splitOnP_nil, List.mem_singleton] at h
    rw [h]
    intro c hc
    exact absurd hc List.not_mem_nil
  | cons d text ih =>
    intro c hc
    rw [List.splitOnP_cons_eq_if_modifyHead] at h
    split at h
    · rcases List.mem_cons.mp h with rfl | h
      · exact absurd hc List.not_mem_nil
      · exact ⟨(ih h c hc).1, List.mem_cons_of_mem _ (ih h c hc).2⟩
    · rename_i hd
      -- The first piece of the tail grows by the character, and the others stay.
      have hne : text.splitOnP p ≠ [] := List.splitOnP_ne_nil p text
      have ⟨first, rest, hsplit⟩ := List.exists_cons_of_ne_nil hne
      rw [hsplit] at h ih
      rcases List.mem_cons.mp h with rfl | h
      · rcases List.mem_cons.mp hc with rfl | hc
        · exact ⟨by simpa using hd, List.mem_cons_self⟩
        · have hfirst := ih List.mem_cons_self c hc
          exact ⟨hfirst.1, List.mem_cons_of_mem _ hfirst.2⟩
      · have hrest := ih (List.mem_cons_of_mem _ h) c hc
        exact ⟨hrest.1, List.mem_cons_of_mem _ hrest.2⟩

/-- Parts without the class, joined by a character of it, are split again. -/
theorem splitOnP_intercalate (hsep : p sep = true) (hne : parts ≠ [])
    (hparts : ∀ part ∈ parts, ∀ c ∈ part, p c = false) :
    ([sep].intercalate parts).splitOnP p = parts := by
  induction parts with
  | nil => exact absurd rfl hne
  | cons part rest ih =>
    have hpart := hparts part List.mem_cons_self
    cases rest with
    | nil => rw [List.intercalate_singleton, List.splitOnP_eq_singleton hpart]
    | cons next rest =>
      rw [List.intercalate_cons_cons, List.append_assoc, List.singleton_append,
        List.splitOnP_append_cons_of_forall_mem hpart sep hsep,
        ih (List.cons_ne_nil _ _) fun q hq => hparts q (List.mem_cons_of_mem _ hq)]

/-- A text is as long as its pieces with the separators between them. -/
theorem length_intercalate_splitOnP (text : List α) :
    ([sep].intercalate (text.splitOnP p)).length = text.length := by
  induction text with
  | nil => simp
  | cons d text ih =>
    rw [List.splitOnP_cons_eq_if_modifyHead]
    have hne : text.splitOnP p ≠ [] := List.splitOnP_ne_nil p text
    have ⟨first, rest, hsplit⟩ := List.exists_cons_of_ne_nil hne
    rw [hsplit] at ih ⊢
    split
    · rw [List.intercalate_cons_cons]
      simp only [List.length_append, List.length_nil, List.length_cons, ih]
      omega
    · cases rest with
      | nil =>
        rw [List.intercalate_singleton] at ih
        simp [ih]
      | cons next rest =>
        rw [List.intercalate_cons_cons] at ih
        simp only [List.modifyHead_cons, List.intercalate_cons_cons, List.length_append,
          List.length_cons] at ih ⊢
        omega

/-- A join gets no longer when the empty parts go. -/
theorem length_intercalate_filter_le (parts : List (List α)) :
    ([sep].intercalate (parts.filter fun part => !part.isEmpty)).length ≤
      ([sep].intercalate parts).length := by
  induction parts with
  | nil => exact Nat.le_refl _
  | cons part rest ih =>
    have hcons (l : List (List α)) : ([sep].intercalate (part :: l)).length =
        part.length + if l = [] then 0 else 1 + ([sep].intercalate l).length := by
      cases l with
      | nil => simp
      | cons next l => simp [List.intercalate_cons_cons, Nat.add_comm]
    rw [List.filter_cons]
    split
    · rw [hcons, hcons]
      have hempty : rest = [] → (rest.filter fun part => !part.isEmpty) = [] :=
        fun h => by rw [h]; rfl
      split <;> split <;> first | omega | exact absurd (hempty ‹_›) ‹_›
    · rw [hcons]
      split
      · rename_i hrest
        rw [hrest]
        exact Nat.zero_le _
      · omega

end classes

section last
variable {α : Type} [DecidableEq α]

/-- The part behind the last of a character: `text.rsplit(c, 1)[-1]`. -/
def afterLast (c : α) (text : List α) : List α := (text.reverse.takeWhile fun d => d != c).reverse

/-- What comes without the character behind it is the last part. -/
theorem afterLast_append {c : α} {last : List α} (h : c ∉ last) (first : List α) :
    afterLast c (first ++ c :: last) = last := by
  have hall : ∀ d ∈ last.reverse, (d != c) = true := by
    intro d hd
    rw [bne_iff_ne]
    rintro rfl
    exact h (List.mem_reverse.mp hd)
  rw [afterLast, List.reverse_append, List.reverse_cons, List.append_assoc,
    List.takeWhile_append_of_pos hall, List.singleton_append,
    List.takeWhile_cons_of_neg (by simp), List.append_nil, List.reverse_reverse]

end last

section lines
variable {α : Type} (space hidden : α → Bool) (blank : α)

/-- `str.split()`: the words between the spaces. -/
def words (text : List α) : List (List α) :=
  (text.splitOnP space).filter fun word => !word.isEmpty

/-- Keep the spaces and what is not hidden, and put one blank between the words. -/
def singleLine (text : List α) : List α :=
  [blank].intercalate (words space (text.filter fun c => space c || !hidden c))

variable {space hidden blank}

/-- A word is not empty, and has no space. -/
theorem mem_words {text word : List α} (h : word ∈ words space text) :
    word ≠ [] ∧ ∀ c ∈ word, space c = false ∧ c ∈ text := by
  rw [words, List.mem_filter] at h
  exact ⟨by simpa using h.2, of_mem_splitOnP h.1⟩

/-- The words of joined words are these words. -/
theorem words_intercalate (hblank : space blank = true) {parts : List (List α)}
    (hparts : ∀ part ∈ parts, part ≠ [] ∧ ∀ c ∈ part, space c = false) :
    words space ([blank].intercalate parts) = parts := by
  by_cases hne : parts = []
  · rw [hne]
    rfl
  · rw [words, splitOnP_intercalate hblank hne fun part hpart => (hparts part hpart).2,
      List.filter_eq_self]
    intro part hpart
    simpa using (hparts part hpart).1

/-- A character of the result is the blank, or a visible one that is not a space. -/
theorem mem_singleLine {text : List α} {c : α} (h : c ∈ singleLine space hidden blank text) :
    c = blank ∨ (c ∈ text ∧ space c = false ∧ hidden c = false) := by
  rcases mem_intercalate h with h | ⟨word, hword, hc⟩
  · exact .inl h
  · have ⟨hspace, hmem⟩ := (mem_words hword).2 c hc
    rw [List.mem_filter] at hmem
    refine .inr ⟨hmem.1, hspace, ?_⟩
    simpa [hspace] using hmem.2

/-- A second pass changes nothing. -/
theorem singleLine_idem (hblank : space blank = true) (text : List α) :
    singleLine space hidden blank (singleLine space hidden blank text) =
      singleLine space hidden blank text := by
  have hkept : ((singleLine space hidden blank text).filter fun c => space c || !hidden c) =
      singleLine space hidden blank text := by
    rw [List.filter_eq_self]
    intro c hc
    rcases mem_singleLine hc with rfl | ⟨-, -, hvisible⟩
    · simp [hblank]
    · simp [hvisible]
  have hwords : words space (singleLine space hidden blank text) =
      words space (text.filter fun c => space c || !hidden c) :=
    words_intercalate hblank fun word hword =>
      ⟨(mem_words hword).1, fun c hc => ((mem_words hword).2 c hc).1⟩
  show [blank].intercalate (words space (List.filter _ (singleLine space hidden blank text))) = _
  rw [hkept, hwords]
  rfl

/-- One visible word stays as it is. -/
theorem singleLine_eq_self {text : List α} (h : ∀ c ∈ text, space c = false ∧ hidden c = false) :
    singleLine space hidden blank text = text := by
  have hkept : (text.filter fun c => space c || !hidden c) = text := by
    rw [List.filter_eq_self]
    intro c hc
    simp [(h c hc).2]
  rw [singleLine, hkept, words, List.splitOnP_eq_singleton fun c hc => (h c hc).1]
  cases text with
  | nil => rfl
  | cons c text => simp

/-- The result is no longer than the text. -/
theorem length_singleLine_le (text : List α) :
    (singleLine space hidden blank text).length ≤ text.length :=
  calc (singleLine space hidden blank text).length
      ≤ ([blank].intercalate
        ((text.filter fun c => space c || !hidden c).splitOnP space)).length :=
        length_intercalate_filter_le _
    _ = (text.filter fun c => space c || !hidden c).length := length_intercalate_splitOnP _
    _ ≤ text.length := List.length_filter_le _ _

/-- The pass goes over to an encoding of the characters that keeps their classes. -/
theorem map_singleLine {β : Type} {space' hidden' : β → Bool} (f : α → β)
    (hspace : ∀ c, space' (f c) = space c) (hhidden : ∀ c, hidden' (f c) = hidden c)
    (text : List α) : (singleLine space hidden blank text).map f =
      singleLine space' hidden' (f blank) (text.map f) := by
  have hjoin (parts : List (List α)) : ([blank].intercalate parts).map f =
      [f blank].intercalate (parts.map (List.map f)) := by
    induction parts with
    | nil => rfl
    | cons part rest ih =>
      cases rest with
      | nil => simp
      | cons next rest =>
        rw [List.map_cons, List.map_cons, List.intercalate_cons_cons, List.intercalate_cons_cons,
          List.map_append, List.map_append, ih]
        rfl
  have hsplit (text : List α) : (text.map f).splitOnP space' =
      (text.splitOnP space).map (List.map f) := by
    induction text with
    | nil => simp
    | cons c text ih =>
      rw [List.map_cons, List.splitOnP_cons_eq_if_modifyHead, List.splitOnP_cons_eq_if_modifyHead,
        hspace, ih]
      split
      · rfl
      · cases text.splitOnP space <;> rfl
  have hkept : (text.map f).filter (fun c => space' c || !hidden' c) =
      (text.filter fun c => space c || !hidden c).map f := by
    rw [List.filter_map]
    congr 1
    apply List.filter_congr
    intro c _
    show (space' (f c) || !hidden' (f c)) = _
    rw [hspace, hhidden]
  rw [singleLine, singleLine, hjoin, hkept, words, words, hsplit, List.filter_map]
  congr 2
  apply List.filter_congr
  intro word _
  simp

end lines

section breaks
variable {α : Type} (p : α → Bool)

/-- `str.strip(chars)`: drop the characters of the class at both ends. -/
def strip (text : List α) : List α := ((text.dropWhile p).reverse.dropWhile p).reverse

variable [DecidableEq α] (breaks : α → Bool) (cr lf : α)

/-- A carriage return and a line feed are one break. -/
def joinCrlf : List α → List α
  | [] => []
  | [c] => [c]
  | c :: c' :: text => if c = cr ∧ c' = lf then lf :: joinCrlf text else c ::
      joinCrlf (c' :: text)

/-- `str.splitlines()`. A break at the end of the text starts no line. -/
def splitLines (text : List α) : List (List α) :=
  let lines := (joinCrlf cr lf text).splitOnP breaks
  if lines.getLast? = some [] then lines.dropLast else lines

variable {breaks cr lf}

/-- There is nothing to join without a carriage return. -/
theorem joinCrlf_of_not_mem {text : List α} (h : cr ∉ text) : joinCrlf cr lf text = text := by
  induction text with
  | nil => rfl
  | cons c text ih =>
    have hc : c ≠ cr := fun heq => h (heq ▸ List.mem_cons_self)
    have htext := ih fun hmem => h (List.mem_cons_of_mem _ hmem)
    cases text with
    | nil => rfl
    | cons c' text => rw [joinCrlf, if_neg fun heq => hc heq.1, htext]

/-- Lines that are not empty and have no break are read back from their join. -/
theorem splitLines_intercalate (hcr : breaks cr = true) (hlf : breaks lf = true) (hne : cr ≠ lf)
    {lines : List (List α)}
    (hlines : ∀ line ∈ lines, line ≠ [] ∧ ∀ c ∈ line, breaks c = false) :
    splitLines breaks cr lf ([lf].intercalate lines) = lines := by
  by_cases hnil : lines = []
  · rw [hnil]
    simp [splitLines, joinCrlf]
  · have hmem : cr ∉ [lf].intercalate lines := by
      intro h
      rcases mem_intercalate h with h | ⟨line, hline, h⟩
      · exact hne h
      · exact absurd hcr (by simp [(hlines line hline).2 cr h])
    have hlast : lines.getLast? ≠ some [] := fun h =>
      (hlines [] (List.mem_of_getLast? h)).1 rfl
    rw [splitLines, joinCrlf_of_not_mem hmem,
      splitOnP_intercalate hlf hnil fun line hline => (hlines line hline).2]
    exact if_neg hlast

end breaks

/-! ### The classes of Python -/

/-- A code point of `str`, a surrogate included. -/
abbrev CodePoint := Fin 0x110000

/-- The code point is in one of the ranges. -/
def inRanges (ranges : List (Nat × Nat)) (c : Nat) : Bool :=
  ranges.any fun r => decide (r.1 ≤ c) && decide (c ≤ r.2)

/-- `str.isspace`. -/
def isSpace : Nat → Bool :=
  inRanges [(0x9, 0xD), (0x1C, 0x20), (0x85, 0x85), (0xA0, 0xA0), (0x1680, 0x1680),
    (0x2000, 0x200A), (0x2028, 0x2029), (0x202F, 0x202F), (0x205F, 0x205F), (0x3000, 0x3000)]

/-- Where `str.splitlines` breaks a line. -/
def breaksLine : Nat → Bool :=
  inRanges [(0xA, 0xD), (0x1C, 0x1E), (0x85, 0x85), (0x2028, 0x2029)]

/-- The category `Cc`. -/
def isControl : Nat → Bool := inRanges [(0x0, 0x1F), (0x7F, 0x9F)]

/-- The category `Cf`. -/
def isFormat : Nat → Bool :=
  inRanges [(0xAD, 0xAD), (0x600, 0x605), (0x61C, 0x61C), (0x6DD, 0x6DD), (0x70F, 0x70F),
    (0x890, 0x891), (0x8E2, 0x8E2), (0x180E, 0x180E), (0x200B, 0x200F), (0x202A, 0x202E),
    (0x2060, 0x2064), (0x2066, 0x206F), (0xFEFF, 0xFEFF), (0xFFF9, 0xFFFB), (0x110BD, 0x110BD),
    (0x110CD, 0x110CD), (0x13430, 0x1343F), (0x1BCA0, 0x1BCA3), (0x1D173, 0x1D17A),
    (0xE0001, 0xE0001), (0xE0020, 0xE007F)]

/-- The category `Co`. -/
def isPrivateUse : Nat → Bool :=
  inRanges [(0xE000, 0xF8FF), (0xF0000, 0xFFFFD), (0x100000, 0x10FFFD)]

/-- The category `Cs`. -/
def isSurrogate : Nat → Bool := inRanges [(0xD800, 0xDFFF)]

/-- A line break is a space. -/
theorem isSpace_of_breaksLine {c : Nat} (h : breaksLine c = true) : isSpace c = true := by
  simp only [breaksLine, isSpace, inRanges, List.any_cons, List.any_nil, Bool.or_eq_true,
    Bool.and_eq_true, decide_eq_true_eq, Bool.or_false] at h ⊢
  omega

end RedTeaming.Library.Text
