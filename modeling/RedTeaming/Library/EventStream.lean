import RedTeaming.Library.Text
import Mathlib.Data.List.Chain

/-!
# `RedTeaming.Library.EventStream`: blocks of lines that arrive in pieces

A block is its lines, each with a line end, and then one more line end. A reader keeps a buffer.
It adds each piece that arrives, and takes the blocks that two line feeds in a row end.

`readPieces_eq` says that the pieces do not matter: the reader takes the blocks of the whole text.
So a part of a text gives the first of its blocks (`readPieces_part`). Blocks with the line feed
as their line end come out as they went in (`takeBlocks_blocks`). Of a text without two line feeds
in a row, no block is taken (`readPieces_eq_nil`), and blocks with other line ends are such a text
(`apart_block`).

Nothing here names a program.
-/

set_option autoImplicit false

namespace RedTeaming.Library.EventStream

variable {α : Type} [DecidableEq α]

/-- A block: the lines, each with the line end, and an empty line. -/
def block (ending : List α) (lines : List (List α)) : List α :=
  lines.flatMap (fun line => line ++ ending) ++ ending

/-- The text before the first two line feeds in a row, and the text after them. -/
def takeBlock (lf : α) : List α → Option (List α × List α)
  | [] => none
  | [_] => none
  | a :: b :: text =>
    if a = lf ∧ b = lf then some ([], text)
    else (takeBlock lf (b :: text)).map fun read => (a :: read.1, read.2)

section
variable {lf : α} {text rest frame : List α}

/-- What is taken, two line feeds, and what is left make up the text. -/
theorem takeBlock_spec (h : takeBlock lf text = some (frame, rest)) :
    text = frame ++ lf :: lf :: rest := by
  fun_induction takeBlock lf text generalizing frame with
  | case1 => cases h
  | case2 => cases h
  | case3 a b text hlf =>
    obtain ⟨rfl, rfl⟩ := hlf
    cases h
    rfl
  | case4 a b text hlf ih =>
    obtain ⟨⟨frame', rest'⟩, hread, heq⟩ := Option.map_eq_some_iff.mp h
    cases heq
    rw [ih hread, List.cons_append]

/-- More text does not change the first block. -/
theorem takeBlock_append (h : takeBlock lf text = some (frame, rest)) (more : List α) :
    takeBlock lf (text ++ more) = some (frame, rest ++ more) := by
  fun_induction takeBlock lf text generalizing frame with
  | case1 => cases h
  | case2 => cases h
  | case3 a b text hlf =>
    cases h
    show takeBlock lf (a :: b :: (rest ++ more)) = _
    rw [takeBlock, if_pos hlf]
  | case4 a b text hlf ih =>
    obtain ⟨⟨frame', rest'⟩, hread, heq⟩ := Option.map_eq_some_iff.mp h
    cases heq
    show takeBlock lf (a :: b :: (text ++ more)) = _
    rw [takeBlock, if_neg hlf, ← List.cons_append, ih hread]
    rfl

end

/-- The complete blocks of a text, and the text after them. -/
def takeBlocks (lf : α) (text : List α) : List (List α) × List α :=
  match h : takeBlock lf text with
  | none => ([], text)
  | some (frame, rest) =>
    have : rest.length < text.length := by
      rw [takeBlock_spec h, List.length_append, List.length_cons, List.length_cons]
      omega
    let (frames, left) := takeBlocks lf rest
    (frame :: frames, left)
termination_by text.length

/-- The reader: the blocks that it takes as the pieces arrive. -/
def readPieces (lf : α) (buffer : List α) : List (List α) → List (List α)
  | [] => []
  | piece :: pieces =>
    let (frames, left) := takeBlocks lf (buffer ++ piece)
    frames ++ readPieces lf left pieces

section
variable {lf : α} {text rest frame : List α}

theorem takeBlocks_none (h : takeBlock lf text = none) : takeBlocks lf text = ([], text) := by
  rw [takeBlocks]
  split
  · rfl
  · rename_i hsome
    rw [h] at hsome
    cases hsome

theorem takeBlocks_some (h : takeBlock lf text = some (frame, rest)) :
    takeBlocks lf text = (frame :: (takeBlocks lf rest).1, (takeBlocks lf rest).2) := by
  rw [takeBlocks]
  split
  · rename_i hnone
    rw [h] at hnone
    cases hnone
  · rename_i hsome
    rw [h] at hsome
    cases hsome
    rfl

/-- The blocks of a text with more text after it: first its own, then those from what they
leave. -/
theorem takeBlocks_append (text more : List α) :
    takeBlocks lf (text ++ more) =
      ((takeBlocks lf text).1 ++ (takeBlocks lf ((takeBlocks lf text).2 ++ more)).1,
        (takeBlocks lf ((takeBlocks lf text).2 ++ more)).2) := by
  induction hlength : text.length using Nat.strong_induction_on generalizing text with
  | h n ih =>
    cases hfirst : takeBlock lf text with
    | none =>
      rw [takeBlocks_none hfirst]
      rfl
    | some read =>
      obtain ⟨frame, rest⟩ := read
      have hshorter : rest.length < n := by
        rw [← hlength, takeBlock_spec hfirst, List.length_append, List.length_cons,
          List.length_cons]
        omega
      rw [takeBlocks_some hfirst, takeBlocks_some (takeBlock_append hfirst more),
        ih rest.length hshorter rest rfl]
      rfl

/-- The reader takes the blocks of the whole text, however it is cut. -/
theorem readPieces_eq (buffer : List α) (hbuffer : takeBlock lf buffer = none)
    (pieces : List (List α)) :
    readPieces lf buffer pieces = (takeBlocks lf (buffer ++ pieces.flatten)).1 := by
  -- what is left of a text has no block
  have hleft : ∀ text : List α, takeBlock lf (takeBlocks lf text).2 = none := by
    intro text
    induction hlength : text.length using Nat.strong_induction_on generalizing text with
    | h n ih =>
      cases hfirst : takeBlock lf text with
      | none =>
        rw [takeBlocks_none hfirst]
        exact hfirst
      | some read =>
        obtain ⟨frame, rest⟩ := read
        rw [takeBlocks_some hfirst]
        apply ih rest.length _ rest rfl
        rw [← hlength, takeBlock_spec hfirst, List.length_append, List.length_cons,
          List.length_cons]
        omega
  induction pieces generalizing buffer with
  | nil =>
    rw [List.flatten_nil, List.append_nil, takeBlocks_none hbuffer]
    rfl
  | cons piece pieces ih =>
    show (takeBlocks lf (buffer ++ piece)).1 ++
      readPieces lf (takeBlocks lf (buffer ++ piece)).2 pieces = _
    rw [ih _ (hleft _), List.flatten_cons, ← List.append_assoc,
      takeBlocks_append (buffer ++ piece)]

/-- Of a part of the text, the reader takes the first of its blocks. -/
theorem readPieces_part {pieces : List (List α)} (h : pieces.flatten <+: text) :
    readPieces lf [] pieces <+: (takeBlocks lf text).1 := by
  obtain ⟨more, rfl⟩ := h
  rw [readPieces_eq [] rfl, List.nil_append, takeBlocks_append]
  exact List.prefix_append _ _

/-! ### Blocks that are read as they were written -/

/-- Lines that a block keeps: there is one, and none is empty or has a line feed. -/
structure Lines (lf : α) (lines : List (List α)) : Prop where
  nonempty : lines ≠ []
  each : ∀ line ∈ lines, line ≠ [] ∧ lf ∉ line

/-- A text without line feeds is skipped up to its last character. -/
theorem takeBlock_line {line : List α} (hne : line ≠ []) (hlf : lf ∉ line) (text : List α) :
    takeBlock lf (line ++ lf :: text) =
      (takeBlock lf (lf :: text)).map fun read => (line ++ read.1, read.2) := by
  induction line with
  | nil => exact absurd rfl hne
  | cons a line ih =>
    have ha : a ≠ lf := fun h => hlf (h ▸ List.mem_cons_self)
    cases line with
    | nil =>
      show takeBlock lf (a :: lf :: text) = _
      rw [takeBlock, if_neg fun h => ha h.1]
      rfl
    | cons b line =>
      show takeBlock lf (a :: b :: (line ++ lf :: text)) = _
      rw [takeBlock, if_neg fun h => ha h.1, ← List.cons_append,
        ih (List.cons_ne_nil _ _) fun h => hlf (List.mem_cons_of_mem _ h), Option.map_map]
      rfl

/-- A block is taken as its lines, with a line feed between two of them. -/
theorem takeBlock_block {lines : List (List α)} (h : Lines lf lines) (text : List α) :
    takeBlock lf (block [lf] lines ++ text) = some ([lf].intercalate lines, text) := by
  obtain ⟨hne, heach⟩ := h
  induction lines with
  | nil => exact absurd rfl hne
  | cons line lines ih =>
    obtain ⟨hline, hlf⟩ := heach line List.mem_cons_self
    have hstart : block [lf] (line :: lines) ++ text = line ++
        lf :: (block [lf] lines ++ text) := by
      simp [block]
    rw [hstart, takeBlock_line hline hlf]
    cases lines with
    | nil =>
      rw [List.intercalate_singleton]
      show (takeBlock lf (lf :: lf :: text)).map _ = _
      rw [takeBlock, if_pos ⟨rfl, rfl⟩]
      show some (line ++ [], text) = _
      rw [List.append_nil]
    | cons next lines =>
      have hrest := ih (List.cons_ne_nil _ _) fun l hl => heach l (List.mem_cons_of_mem _ hl)
      obtain ⟨hnext, hlf'⟩ := heach next (List.mem_cons_of_mem _ List.mem_cons_self)
      -- the line feed is followed by the next line, which is not empty
      have hskip : takeBlock lf (lf :: (block [lf] (next :: lines) ++ text)) =
          (takeBlock lf (block [lf] (next :: lines) ++ text)).map fun read =>
            (lf :: read.1, read.2) := by
        obtain ⟨b, tail, rfl⟩ := List.exists_cons_of_ne_nil hnext
        have hb : b ≠ lf := fun h => hlf' (h ▸ List.mem_cons_self)
        show takeBlock lf (lf :: b :: _) = _
        rw [takeBlock, if_neg fun h => hb h.2]
        rfl
      rw [hskip, hrest, List.intercalate_cons_cons]
      simp

/-- Blocks are taken as they were written. -/
theorem takeBlocks_blocks {blocks : List (List (List α))} (h : ∀ lines ∈ blocks, Lines lf lines) :
    (takeBlocks lf (blocks.flatMap (block [lf]))).1 = blocks.map [lf].intercalate := by
  induction blocks with
  | nil => rw [List.flatMap_nil, takeBlocks_none rfl]; rfl
  | cons lines blocks ih =>
    rw [List.flatMap_cons, takeBlocks_some (takeBlock_block (h lines List.mem_cons_self) _),
      List.map_cons, ih fun l hl => h l (List.mem_cons_of_mem _ hl)]

/-! ### Blocks that are never read -/

/-- No two line feeds in a row. -/
def Apart (lf : α) (text : List α) : Prop := text.IsChain fun a b => ¬ (a = lf ∧ b = lf)

/-- Without two line feeds in a row no block is taken. -/
theorem takeBlock_apart (h : Apart lf text) : takeBlock lf text = none := by
  fun_induction takeBlock lf text with
  | case1 => rfl
  | case2 => rfl
  | case3 a b text hlf => exact absurd hlf (List.isChain_cons_cons.mp h).1
  | case4 a b text hlf ih =>
    rw [ih (List.isChain_cons_cons.mp h).2]
    rfl

theorem readPieces_eq_nil (h : Apart lf text) {pieces : List (List α)}
    (hp : pieces.flatten <+: text) :
    readPieces lf [] pieces = [] := by
  have hstart : readPieces lf [] pieces <+: (takeBlocks lf text).1 := readPieces_part hp
  rw [takeBlocks_none (takeBlock_apart h)] at hstart
  exact List.prefix_nil.mp hstart

omit [DecidableEq α] in
/-- A text without line feeds keeps them apart. -/
theorem apart_of_not_mem (h : lf ∉ text) : Apart lf text := by
  induction text with
  | nil => exact List.IsChain.nil
  | cons a text ih =>
    cases text with
    | nil => exact List.IsChain.singleton a
    | cons b text =>
      refine List.isChain_cons_cons.mpr ⟨?_, ih fun hb => h (List.mem_cons_of_mem _ hb)⟩
      exact fun hlf => h (hlf.1 ▸ List.mem_cons_self)

omit [DecidableEq α] in
/-- Parts that keep them apart, none of which begins with a line feed, do so together. -/
theorem apart_flatten {parts : List (List α)}
    (h : ∀ part ∈ parts, Apart lf part ∧ part.head? ≠ some lf) :
    Apart lf parts.flatten ∧ parts.flatten.head? ≠ some lf := by
  induction parts with
  | nil =>
    refine ⟨List.IsChain.nil, ?_⟩
    intro hnil
    cases hnil
  | cons part parts ih =>
    obtain ⟨hpart, hhead⟩ := h part List.mem_cons_self
    obtain ⟨hrest, hhead'⟩ := ih fun p hp => h p (List.mem_cons_of_mem _ hp)
    rw [List.flatten_cons]
    constructor
    · refine List.IsChain.append hpart hrest ?_
      intro a _ b hb hlf
      exact hhead' (hlf.2 ▸ hb)
    · cases part with
      | nil => exact hhead'
      | cons a part => exact hhead

omit [DecidableEq α] in
/-- The lines of a block with another line end keep the line feeds apart. -/
theorem apart_block {ending : List α} (hending : Apart lf ending ∧ ending.head? ≠ some lf)
    {lines : List (List α)} (hlines : ∀ line ∈ lines, lf ∉ line) :
    Apart lf (block ending lines) ∧ (block ending lines).head? ≠ some lf := by
  have hblock : block ending lines =
      (lines.map (fun line => [line, ending].flatten) ++ [ending]).flatten := by
    simp [block, List.flatMap_def]
  rw [hblock]
  apply apart_flatten
  intro part hpart
  rcases List.mem_append.mp hpart with hpart | hpart
  · obtain ⟨line, hline, rfl⟩ := List.mem_map.mp hpart
    apply apart_flatten
    intro part hpart
    rcases List.mem_pair.mp hpart with rfl | rfl
    · refine ⟨apart_of_not_mem (hlines part hline), ?_⟩
      exact fun hhead => hlines part hline (List.mem_of_mem_head? hhead)
    · exact hending
  · rw [List.mem_singleton.mp hpart]
    exact hending

end

end RedTeaming.Library.EventStream
