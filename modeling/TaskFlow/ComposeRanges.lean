import Mathlib.Algebra.GroupWithZero.Nat
import TaskFlow.ComposeRoundTrip
import TaskFlow.FilterEvaluate

/-! # The lines of a block

`parseBlocksWithLineRanges` returns for each block the lines that it is made from, and a selection
in the composer is brought to a block by its line.  Every block takes the line that it begins with
and leaves the rest as they are (`nextBlock_suffix`), so the ranges follow one another up to the
last line.
-/
namespace TaskFlow
namespace RichTextCompose
open RichTextSchema
open RichText (Text)
open Filter (codeUnits)

structure ParsedBlocks where
  blocks : List Node
  lineRanges : List (ℕ × ℕ)

/-- The loop, from the line of number `index` on: the blocks, each with its lines. -/
def blocksFrom (mentions : List PendingMention) : ℕ → ℕ → List Text → List (Node × ℕ × ℕ)
  | fuel + 1, index, line :: lines =>
    let found := nextBlock mentions line lines
    let next := index + (lines.length + 1 - found.2.length)
    (found.1, index, next) :: blocksFrom mentions fuel next found.2
  | _, _, _ => []

def parseBlocksWithLineRanges (text : Text) (mentions : List PendingMention) : ParsedBlocks :=
  let lines := text.splitOn '\n'
  let found := blocksFrom mentions lines.length 0 lines
  if found.length = 0 then ⟨[block .paragraph []], [(0, 0)]⟩
  else ⟨found.map Prod.fst, found.map Prod.snd⟩

/-- The first range that the line is in. -/
def blockIndexForLine (lineRanges : List (ℕ × ℕ)) (line : ℕ) : Option ℕ :=
  lineRanges.findIdx? fun range => decide (range.1 ≤ line ∧ line < range.2)

/-- An offset into the text, brought inside it. -/
def bounded (text : Text) (offset : ℤ) : ℕ := (max 0 (min offset (codeUnits text).length)).toNat

def lineOfOffset (text : Text) (offset : ℤ) : ℕ :=
  ((codeUnits text).take (bounded text offset)).count 10

/-- The ranges are not empty, and each begins where the one before it ends. -/
def Consecutive : ℕ → ℕ → List (ℕ × ℕ) → Prop
  | start, stop, [] => start = stop
  | start, stop, range :: ranges =>
    range.1 = start ∧ start < range.2 ∧ Consecutive range.2 stop ranges

/-- The block is what is read at the lines of the range, and nothing of the lines behind it. -/
def ReadAt (mentions : List PendingMention) (lines : List Text) (node : Node) (range : ℕ × ℕ) :
    Prop :=
  ∃ line, lines[range.1]? = some line ∧
    nextBlock mentions line (lines.drop (range.1 + 1)) = (node, lines.drop range.2)

/-- Where a line begins, in code units. -/
def lineStart (lines : List Text) (line : ℕ) : ℕ :=
  ((lines.take line).map fun text => (codeUnits text).length + 1).sum

/-- The position is in the line, or at its end. -/
def InLine (lines : List Text) (line position : ℕ) : Prop :=
  ∃ text ∈ lines[line]?, lineStart lines line ≤ position ∧
    position ≤ lineStart lines line + (codeUnits text).length

/-! ### Blocks -/

theorem collect_suffix {γ : Type} {match? : Text → Option γ} {line : Text}
    (h : (match? line).isSome) (lines : List Text) :
    (collect match? (line :: lines)).2 <:+ lines := by
  obtain ⟨found, hfound⟩ := Option.isSome_iff_exists.mp h
  obtain ⟨taken, hlines, -⟩ := collect_spec match? lines
  rw [collect, hfound]
  exact ⟨taken, hlines.symm⟩

/-- A block leaves lines behind the one that it begins with. -/
theorem nextBlock_suffix (mentions : List PendingMention) (line : Text) (lines : List Text) :
    (nextBlock mentions line lines).2 <:+ lines := by
  rw [nextBlock_eq_blockOf]
  have hgroup : ∀ type ∈ GROUPS, lineType line = type → continues type line := fun _ hmem htype =>
    continues_of_lineType htype hmem
  cases htype : lineType line with
  | codeBlock => exact (List.drop_suffix _ _).trans (List.dropWhile_suffix _)
  | taskList => exact collect_suffix (hgroup _ (by decide) htype) lines
  | bulletList => exact collect_suffix (hgroup _ (by decide) htype) lines
  | orderedList => exact collect_suffix (hgroup _ (by decide) htype) lines
  | blockquote => exact collect_suffix (hgroup _ (by decide) htype) lines
  | _ => exact List.suffix_refl lines

theorem fst_blocksFrom (mentions : List PendingMention) (fuel index : ℕ) (lines : List Text) :
    (blocksFrom mentions fuel index lines).map Prod.fst = parseBlocks mentions fuel lines := by
  induction fuel generalizing index lines with
  | zero => rfl
  | succ fuel ih =>
    cases lines with
    | nil => rfl
    | cons line lines => exact congrArg _ (ih _ _)

/-- The loop ends where there are no more lines, and has read each block at its own. -/
theorem blocksFrom_spec (mentions : List PendingMention) (before lines : List Text) {fuel : ℕ}
    (hfuel : lines.length ≤ fuel) :
    Consecutive before.length (before ++ lines).length
        ((blocksFrom mentions fuel before.length lines).map Prod.snd) ∧
      ∀ entry ∈ blocksFrom mentions fuel before.length lines,
        ReadAt mentions (before ++ lines) entry.1 entry.2 := by
  induction fuel generalizing before lines with
  | zero =>
    obtain rfl := List.length_eq_zero_iff.mp (Nat.le_zero.mp hfuel)
    exact ⟨by simp [blocksFrom, Consecutive], fun _ h => absurd h List.not_mem_nil⟩
  | succ fuel ih =>
    cases lines with
    | nil => exact ⟨by simp [blocksFrom, Consecutive], fun _ h => absurd h List.not_mem_nil⟩
    | cons line lines =>
      obtain ⟨taken, htaken⟩ := nextBlock_suffix mentions line lines
      generalize hnext : nextBlock mentions line lines = found at htaken
      obtain ⟨node, rest⟩ := found
      obtain rfl : taken ++ rest = lines := htaken
      have hafter : before.length + ((taken ++ rest).length + 1 - rest.length) =
          (before ++ line :: taken).length := by
        simp only [List.length_append, List.length_cons]
        omega
      have hlines : before ++ line :: (taken ++ rest) = (before ++ line :: taken) ++ rest := by simp
      have hrest : rest.length ≤ fuel := by
        simp only [List.length_cons, List.length_append] at hfuel
        omega
      obtain ⟨hconsecutive, hread⟩ := ih (before ++ line :: taken) rest hrest
      have hfirst : ReadAt mentions (before ++ line :: (taken ++ rest)) node
          (before.length, (before ++ line :: taken).length) := by
        refine ⟨line, by simp, ?_⟩
        rw [show (before ++ line :: (taken ++ rest)).drop (before.length + 1) = taken ++ rest by
          simp, hnext, hlines, List.drop_left]
      rw [← hlines] at hconsecutive hread
      rw [blocksFrom, hnext]
      dsimp only
      rw [hafter]
      exact ⟨⟨rfl, by simp, hconsecutive⟩, List.forall_mem_cons.mpr ⟨hfirst, hread⟩⟩

/-! ### Lines -/

theorem newline_codeUnits {text : Text} (h : '\n' ∉ text) : 10 ∉ codeUnits text := by
  intro hmem
  obtain ⟨c, hc, hunit⟩ := List.mem_flatMap.mp hmem
  split at hunit
  · obtain rfl : c = '\n' := Char.toNat_inj.mp (List.mem_singleton.mp hunit).symm
    exact h hc
  · simp only [List.mem_cons, List.not_mem_nil, or_false] at hunit
    omega

theorem codeUnits_append (text text' : Text) :
    codeUnits (text ++ text') = codeUnits text ++ codeUnits text' := List.flatMap_append

/-- Behind the first line and its newline. -/
theorem InLine.cons {lines : List Text} {line position : ℕ} (h : InLine lines line position)
    (first : Text) :
    InLine (first :: lines) (line + 1) ((codeUnits first).length + 1 + position) := by
  obtain ⟨text, htext, hstart, hend⟩ := h
  have hsum : lineStart (first :: lines) (line + 1) =
      (codeUnits first).length + 1 + lineStart lines line := by simp [lineStart]
  exact ⟨text, htext, by omega, by omega⟩

/-- A position in the text is in the line with as many newlines before it. -/
theorem inLine_count {lines : List Text} (hne : lines ≠ []) (hlines : ∀ line ∈ lines, '\n' ∉ line)
    {position : ℕ} (h : position ≤ (codeUnits (['\n'].intercalate lines)).length) :
    InLine lines (((codeUnits (['\n'].intercalate lines)).take position).count 10) position := by
  induction lines generalizing position with
  | nil => exact absurd rfl hne
  | cons line lines ih =>
    obtain ⟨hline, hlines⟩ := List.forall_mem_cons.mp hlines
    have hnone : ∀ n, ((codeUnits line).take n).count 10 = 0 := fun n =>
      List.count_eq_zero.mpr fun hmem => newline_codeUnits hline (List.mem_of_mem_take hmem)
    have hfirst : position ≤ (codeUnits line).length → InLine (line :: lines) 0 position := fun h =>
      ⟨line, rfl, Nat.zero_le _, by simpa [lineStart] using h⟩
    by_cases hrest : lines = []
    · subst hrest
      rw [List.intercalate_singleton] at h ⊢
      rw [hnone]
      exact hfirst h
    · have hunits : codeUnits (['\n'].intercalate (line :: lines)) =
          codeUnits line ++ 10 :: codeUnits (['\n'].intercalate lines) := by
        rw [List.intercalate_cons_of_ne_nil hrest, codeUnits_append, codeUnits_append]
        simp [codeUnits]
      rw [hunits] at h ⊢
      by_cases hinside : position ≤ (codeUnits line).length
      · rw [List.take_append_of_le_length hinside, hnone]
        exact hfirst hinside
      · obtain ⟨rest, rfl⟩ := Nat.exists_eq_add_of_le (Nat.lt_of_not_le hinside)
        have hposition : rest ≤ (codeUnits (['\n'].intercalate lines)).length := by
          rw [List.length_append, List.length_cons] at h
          omega
        have hcount := (ih hrest hlines hposition).cons line
        rw [List.take_append, List.count_append, hnone, Nat.zero_add,
          show (codeUnits line).length.succ + rest - (codeUnits line).length = rest + 1 by omega,
          List.take_succ_cons, List.count_cons_self]
        exact hcount

theorem inLine_lineOfOffset (text : Text) (offset : ℤ) :
    InLine (text.splitOn '\n') (lineOfOffset text offset) (bounded text offset) := by
  have hposition : bounded text offset ≤ (codeUnits text).length := by
    rw [bounded]
    omega
  have hjoined : ['\n'].intercalate (text.splitOn '\n') = text := List.intercalate_splitOn '\n'
  rw [← hjoined] at hposition
  have h := inLine_count (List.splitOn_ne_nil '\n' text) not_mem_of_mem_splitOn hposition
  rwa [hjoined] at h

theorem InLine.lt_length {lines : List Text} {line position : ℕ} (h : InLine lines line position) :
    line < lines.length := by
  obtain ⟨text, htext, -⟩ := h
  exact (List.getElem?_eq_some_iff.mp htext).1

/-- Of consecutive ranges one has the line, and it is the one that is found. -/
theorem blockIndexForLine_of_consecutive {start stop line : ℕ} {ranges : List (ℕ × ℕ)}
    (h : Consecutive start stop ranges) (hstart : start ≤ line) (hstop : line < stop) :
    ∃ index range, blockIndexForLine ranges line = some index ∧ ranges[index]? = some range ∧
      range.1 ≤ line ∧ line < range.2 := by
  induction ranges generalizing start with
  | nil =>
    obtain rfl : start = stop := h
    omega
  | cons range ranges ih =>
    obtain ⟨rfl, -, hrest⟩ := h
    by_cases hline : line < range.2
    · refine ⟨0, range, ?_, rfl, hstart, hline⟩
      rw [blockIndexForLine, List.findIdx?_cons, if_pos (decide_eq_true ⟨hstart, hline⟩)]
    · obtain ⟨index, found, hindex, hfound, hin⟩ := ih hrest (Nat.le_of_not_lt hline)
      refine ⟨index + 1, found, ?_, hfound, hin⟩
      rw [blockIndexForLine] at hindex ⊢
      rw [List.findIdx?_cons, if_neg (by simp [hline]), hindex]
      rfl

/-- **The ranges partition the draft**: each block is read at its range, the ranges follow one
another through all lines, and the block that is found for an offset is the one read at its line. -/
theorem lineRanges_partition (text : Text) (mentions : List PendingMention) :
    parseFormattedText text mentions =
        block .doc (parseBlocksWithLineRanges text mentions).blocks ∧
      List.Forall₂ (ReadAt mentions (text.splitOn '\n'))
        (parseBlocksWithLineRanges text mentions).blocks
        (parseBlocksWithLineRanges text mentions).lineRanges ∧
      Consecutive 0 (text.splitOn '\n').length
        (parseBlocksWithLineRanges text mentions).lineRanges ∧
      ∀ offset : ℤ, InLine (text.splitOn '\n') (lineOfOffset text offset) (bounded text offset) ∧
        ∃ index range,
          blockIndexForLine (parseBlocksWithLineRanges text mentions).lineRanges
            (lineOfOffset text offset) = some index ∧
          (parseBlocksWithLineRanges text mentions).lineRanges[index]? = some range ∧
          range.1 ≤ lineOfOffset text offset ∧ lineOfOffset text offset < range.2 := by
  obtain ⟨hconsecutive, hread⟩ := blocksFrom_spec mentions [] (text.splitOn '\n')
    le_rfl
  have hfst := fst_blocksFrom mentions (text.splitOn '\n').length 0 (text.splitOn '\n')
  rw [List.nil_append, List.length_nil] at hconsecutive hread
  have hne : ¬(blocksFrom mentions (text.splitOn '\n').length 0 (text.splitOn '\n')).length =
      0 := by
    intro h
    rw [List.length_eq_zero_iff.mp h] at hconsecutive
    exact List.splitOn_ne_nil '\n' text (List.length_eq_zero_iff.mp hconsecutive.symm)
  rw [parseBlocksWithLineRanges, if_neg hne]
  refine ⟨congrArg _ hfst.symm, ?_, hconsecutive, fun offset => ?_⟩
  · rw [List.forall₂_map_left_iff, List.forall₂_map_right_iff, List.forall₂_same]
    exact hread
  · have hin := inLine_lineOfOffset text offset
    exact ⟨hin, blockIndexForLine_of_consecutive hconsecutive (Nat.zero_le _) hin.lt_length⟩

/-- A fence that is never closed, behind a list with a task in it. -/
example : (parseBlocksWithLineRanges "- a\n- [x] b\n```\nc\n".toList []).lineRanges =
    [(0, 1), (1, 2), (2, 5)] := by decide +kernel

end RichTextCompose
end TaskFlow
