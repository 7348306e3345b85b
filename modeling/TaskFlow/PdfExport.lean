import Mathlib.Data.List.SplitBy
import TaskFlow.FragmentReaders
import TaskFlow.NumberText
import TaskFlow.Throwing

/-! # The export of a page as PDF

`layoutDocument` makes lines of a rendered tree, and `renderPdf` draws the title, the lines and a
footer.  The fonts are standard ones of the library, which share an encoding: to measure or to draw
a text throws where a character is outside it.  A computation that throws returns nothing.

Coordinates are exact, and colors are left out.
-/
namespace TaskFlow
namespace PdfExport
open FragmentReaders (Entries PlainMark PlainNode Value knownNodeType renderFragment valueAt)
open RichText (Text isSpace)
open Binary64 (Number)
open Throwing

inductive FontVariant where
  | regular
  | bold
  | italic
  | boldItalic
  | code
  deriving DecidableEq

/-- The characters of the fonts' encoding, and how wide a text of these is. -/
structure Fonts where
  encodes : Char → Bool
  width : Text → FontVariant → ℕ → ℚ

/-- What is relied on: the encoding has the printable characters of ASCII, the bullet and the dash,
and it has no ballot box. -/
structure WinAnsi (encodes : Char → Bool) : Prop where
  printable : ∀ c, ' ' ≤ c → c ≤ '~' → encodes c = true
  bullet : encodes '•' = true
  dash : encodes '—' = true
  ballotBox : encodes '☐' = false
  checkedBox : encodes '☑' = false

def PAGE_WIDTH : ℚ := 595.28
def PAGE_HEIGHT : ℚ := 841.89
def MARGIN : ℚ := 56
def CONTENT_WIDTH : ℚ := PAGE_WIDTH - MARGIN * 2

structure InlineRun where
  text : Text
  variant : FontVariant
  underline : Bool
  strike : Bool

structure LayoutRun extends InlineRun where
  size : ℕ

structure LayoutLine where
  indent : ℕ
  runs : List LayoutRun
  spaceAfter : ℕ

def HEADING_SIZE : List (ℚ × ℕ) := [(1, 24), (2, 20), (3, 17), (4, 15), (5, 13), (6, 12)]

def BODY_SIZE : ℕ := 11

def variantOf (marks : List Text) : FontVariant :=
  if "code".toList ∈ marks then .code
  else if "bold".toList ∈ marks then if "italic".toList ∈ marks then .boldItalic else .bold
  else if "italic".toList ∈ marks then .italic
  else .regular

/-- `typeof value === 'string' ? value : otherwise` -/
def stringOr (otherwise : Text) : Value → Text
  | .string value => value
  | _ => otherwise

/-- `typeof value === 'number' ? value : otherwise` -/
def numberOr (otherwise : Number) : Value → Number
  | .number value => value
  | _ => otherwise

def inlineRunOf : PlainNode → Option InlineRun
  | .node type attrs text marks _ =>
    match knownNodeType type with
    | some .text =>
      let marks := marks.map PlainMark.type
      text.map (⟨·, variantOf marks, decide ("underline".toList ∈ marks ∨ "link".toList ∈ marks),
        decide ("strike".toList ∈ marks)⟩)
    | some .hardBreak => some ⟨['\n'], .regular, false, false⟩
    | some .mention =>
      some ⟨'@' :: stringOr "mention".toList (valueAt attrs "label".toList), .bold, false, false⟩
    | some .pageLink =>
      some ⟨'[' :: '[' :: (stringOr "page".toList (valueAt attrs "label".toList) ++ [']', ']']),
        .italic, true, false⟩
    | _ => none

/-- The runs of a block's content. -/
def inlineRunsOf (content : List PlainNode) : List InlineRun := content.filterMap inlineRunOf

section
variable (fonts : Fonts)

def widthOfTextAtSize (text : Text) (variant : FontVariant) (size : ℕ) : Option ℚ :=
  if text.all fonts.encodes then some (fonts.width text variant size) else none

/-! ### Wrapping -/

structure Wrapping where
  lines : List (List LayoutRun) := []
  current : List LayoutRun := []
  currentWidth : ℚ := 0

def Wrapping.endLine (state : Wrapping) : Wrapping := { lines := state.lines ++ [state.current] }

def pushWord (run : InlineRun) (size : ℕ) (maxWidth : ℚ) (state : Wrapping) (word : Text) :
    Option Wrapping := do
  let wordWidth ← widthOfTextAtSize fonts word run.variant size
  let state :=
    if state.current ≠ [] ∧ maxWidth < state.currentWidth + wordWidth then state.endLine else state
  return { state with
    current := state.current ++ [{ run with text := word, size }]
    currentWidth := state.currentWidth + wordWidth }

/-- `segment.split(/(\s+)/)` without what is empty. -/
def wordsOf (segment : Text) : List Text := segment.splitBy fun a b => isSpace a == isSpace b

/-- A run's segments.  A line ends between two of them. -/
def pushSegments (run : InlineRun) (size : ℕ) (maxWidth : ℚ) :
    List Text → Wrapping → Option Wrapping
  | [], state => some state
  | [segment], state => (wordsOf segment).foldlM (pushWord fonts run size maxWidth) state
  | segment :: segments, state => do
    let state ← (wordsOf segment).foldlM (pushWord fonts run size maxWidth) state
    pushSegments run size maxWidth segments state.endLine

/-- The lines, of which there is at least one. -/
def Wrapping.finish (state : Wrapping) : List (List LayoutRun) :=
  let lines := if state.current ≠ [] then state.lines ++ [state.current] else state.lines
  if lines ≠ [] then lines else [[]]

def wrapRuns (runs : List InlineRun) (size : ℕ) (maxWidth : ℚ) :
    Option (List (List LayoutRun)) := do
  let state ← runs.foldlM
    (fun state run => pushSegments fonts run size maxWidth (run.text.splitOn '\n') state) {}
  return state.finish

/-! ### Layout -/

/-- Runs that are wrapped, and the space below them. -/
def layoutRuns (runs : List InlineRun) (size indent spaceAfter spaceBelow : ℕ) :
    Option (List LayoutLine) := do
  let wrapped ← wrapRuns fonts runs size (CONTENT_WIDTH - indent)
  return wrapped.map (⟨indent, ·, spaceAfter⟩) ++ [⟨indent, [], spaceBelow⟩]

def headingSize (level : Value) : ℕ :=
  match numberOr (Number.ofRat 1) level with
  | .finite level => (HEADING_SIZE.lookup level.value).getD BODY_SIZE
  | _ => BODY_SIZE

/-- A heading's run is bold unless it is code. -/
def boldRun (run : InlineRun) : InlineRun :=
  { run with variant := if run.variant = .code then .code else .bold }

/-- A text as it stands. -/
def plainRun (text : Text) (variant : FontVariant) : LayoutRun :=
  ⟨⟨text, variant, false, false⟩, BODY_SIZE⟩

def codeText (content : List PlainNode) : Text :=
  content.flatMap fun | .node _ _ text _ _ => text.getD []

def layoutCode (indent : ℕ) (content : List PlainNode) : List LayoutLine :=
  ((codeText content).splitOn '\n').map (fun line => ⟨indent + 12, [plainRun line .code], 0⟩) ++
    [⟨indent, [], 6⟩]

/-- `start + index`, in double precision. -/
def plus : Number → ℕ → Number
  | .finite start, index => Number.ofRat (start.value + index)
  | start, _ => start

def orderedMarker (start : Value) (index : ℕ) : Text :=
  NumberText.toText (plus (numberOr (Number.ofRat 1) start) index) ++ ['.', ' ']

def taskMarker : PlainNode → Text
  | .node _ attrs _ _ _ =>
    [if valueAt attrs "checked".toList = .boolean true then '☑' else '☐', ' ']

/-- The marker is put before an item's first line, or makes its only one. -/
def withMarker (indent : ℕ) (marker : Text) : List LayoutLine → List LayoutLine
  | first :: rest => { first with runs := plainRun marker .regular :: first.runs } :: rest
  | [] => [⟨indent + 16, [plainRun marker .regular], 2⟩]

mutual

def layoutBlock (indent : ℕ) : PlainNode → Option (List LayoutLine)
  | .node type attrs _ _ content =>
    match knownNodeType type with
    | some .heading =>
      layoutRuns fonts ((inlineRunsOf content).map boldRun)
        (headingSize (valueAt attrs "level".toList)) indent 4 8
    | some .paragraph => layoutRuns fonts (inlineRunsOf content) BODY_SIZE indent 2 6
    | some .blockquote => layoutBlocks (indent + 20) content
    | some .codeBlock => some (layoutCode indent content)
    | some .bulletList => layoutListItems indent (fun _ _ => ['•', ' ']) 0 content
    | some .orderedList =>
      layoutListItems indent (fun _ => orderedMarker (valueAt attrs "start".toList)) 0 content
    | some .taskList => layoutListItems indent (fun item _ => taskMarker item) 0 content
    | some .horizontalRule =>
      some [⟨indent, [plainRun (List.replicate 8 '—') .regular], 8⟩]
    | _ => layoutBlocks indent content

def layoutBlocks (indent : ℕ) : List PlainNode → Option (List LayoutLine)
  | [] => some []
  | node :: nodes => do
    let lines ← layoutBlock indent node
    return lines ++ (← layoutBlocks indent nodes)

def layoutListItem (indent : ℕ) (marker : Text) : PlainNode → Option (List LayoutLine)
  | .node _ _ _ _ content => (layoutBlocks (indent + 16) content).map (withMarker indent marker)

def layoutListItems (indent : ℕ) (marker : PlainNode → ℕ → Text) (index : ℕ) :
    List PlainNode → Option (List LayoutLine)
  | [] => some []
  | item :: items => do
    let lines ← layoutListItem indent (marker item index) item
    return lines ++ (← layoutListItems indent marker (index + 1) items)

end

def layoutDocument (document : PlainNode) : Option (List LayoutLine) := layoutBlock fonts 0 document

/-! ### Drawing -/

inductive Drawing where
  | text (text : Text) (x y : ℚ) (size : ℕ) (font : FontVariant)
  | line (x y width : ℚ)

def drawText (text : Text) (x y : ℚ) (size : ℕ) (font : FontVariant) : Option Drawing :=
  if text.all fonts.encodes then some (.text text x y size font) else none

/-- The pages before the last one, what is on that, and where its next line is. -/
structure Canvas where
  pages : List (List Drawing)
  page : List Drawing
  y : ℚ

def lineHeight (size : ℕ) : ℚ := size * 1.35

/-- One run at `x`, and where the next one is. -/
def drawRun (y : ℚ) (state : List Drawing × ℚ) (run : LayoutRun) : Option (List Drawing × ℚ) := do
  let x := state.2
  let text ← drawText fonts run.text x y run.size run.variant
  let width ← widthOfTextAtSize fonts run.text run.variant run.size
  let rule : List Drawing :=
    if run.underline ∨ run.strike then
      [.line x (if run.underline then y - 1 else y + run.size * 0.3) width]
    else []
  return (state.1 ++ text :: rule, x + width)

def drawLine (canvas : Canvas) (line : LayoutLine) : Option Canvas := do
  let size := (line.runs.head?.map LayoutRun.size).getD BODY_SIZE
  let canvas : Canvas :=
    if canvas.y - lineHeight size < MARGIN then
      ⟨canvas.pages ++ [canvas.page], [], PAGE_HEIGHT - MARGIN⟩
    else canvas
  let drawn ← line.runs.foldlM (drawRun fonts canvas.y) (canvas.page, MARGIN + line.indent)
  return { canvas with page := drawn.1, y := canvas.y - (lineHeight size + line.spaceAfter) }

def FOOTER_PREFIX : Text := "Exported from ".toList

def footerText (productName : Text) : Text := FOOTER_PREFIX ++ productName

/-- The title, the lines, and a footer on each page. -/
def drawPages (title productName : Text) (lines : List LayoutLine) :
    Option (List (List Drawing)) := do
  let heading ← drawText fonts title MARGIN (PAGE_HEIGHT - MARGIN) 20 .bold
  let canvas ← lines.foldlM (drawLine fonts) ⟨[], [heading], PAGE_HEIGHT - MARGIN - 32⟩
  let footerWidth ← widthOfTextAtSize fonts (footerText productName) .regular 8
  let footer ←
    drawText fonts (footerText productName) ((PAGE_WIDTH - footerWidth) / 2) (MARGIN / 2) 8 .regular
  return (canvas.pages ++ [canvas.page]).map (· ++ [footer])

def renderPdf (title : Text) (document : PlainNode) (productName : Text) :
    Option (List (List Drawing)) :=
  layoutDocument fonts document >>= drawPages fonts title productName

end

/-! ### When it succeeds -/

section
variable (encodes : Char → Bool)

/-- A text that is wrapped or split at its line breaks, which are not drawn. -/
def Encoded (text : Text) : Prop := ∀ c ∈ text, c ≠ '\n' → encodes c = true

/-- What of a node in a line is the user's: its text, or the label of what it links to. -/
def shownText : PlainNode → Text
  | .node type attrs text _ _ =>
    match knownNodeType type with
    | some .text => text.getD []
    | some .mention | some .pageLink => stringOr [] (valueAt attrs "label".toList)
    | _ => []

def nodeText : PlainNode → Text
  | .node _ _ text _ _ => text.getD []

mutual

/-- **What the encoding has to have of a node**: the texts in its lines and in its code, and there
is no item in a list of tasks. -/
def Printable : PlainNode → Prop
  | .node type _ _ _ content =>
    match knownNodeType type with
    | some .heading | some .paragraph => ∀ child ∈ content, Encoded encodes (shownText child)
    | some .codeBlock => ∀ child ∈ content, Encoded encodes (nodeText child)
    | some .bulletList | some .orderedList => PrintableItems content
    | some .taskList => content = []
    | some .horizontalRule => True
    | _ => PrintableAll content

def PrintableAll : List PlainNode → Prop
  | [] => True
  | node :: nodes => Printable node ∧ PrintableAll nodes

def PrintableItem : PlainNode → Prop
  | .node _ _ _ _ content => PrintableAll content

def PrintableItems : List PlainNode → Prop
  | [] => True
  | item :: items => PrintableItem item ∧ PrintableItems items

end

end

/-! ### Measuring and wrapping -/

section
variable {fonts : Fonts}

/-- Every text that is drawn is in the encoding. -/
def RunsEncoded (encodes : Char → Bool) (runs : List LayoutRun) : Prop :=
  ∀ run ∈ runs, run.text.all encodes = true

def LinesEncoded (encodes : Char → Bool) (lines : List LayoutLine) : Prop :=
  ∀ line ∈ lines, RunsEncoded encodes line.runs

def Wrapping.Encoded (encodes : Char → Bool) (state : Wrapping) : Prop :=
  (∀ line ∈ state.lines, RunsEncoded encodes line) ∧ RunsEncoded encodes state.current

theorem returns_widthOfTextAtSize {text : Text} {variant : FontVariant} {size : ℕ} {P : ℚ → Prop} :
    Returns (widthOfTextAtSize fonts text variant size) P ↔
      text.all fonts.encodes = true ∧ P (fonts.width text variant size) := by
  rw [widthOfTextAtSize]
  split <;> simp_all

theorem endLine_encoded {state : Wrapping} :
    state.endLine.Encoded fonts.encodes ↔ state.Encoded fonts.encodes := by
  simp only [Wrapping.Encoded, Wrapping.endLine, List.forall_mem_append, List.forall_mem_singleton]
  exact and_iff_left (List.forall_mem_nil _)

theorem returns_pushWord (run : InlineRun) (size : ℕ) (maxWidth : ℚ) (state : Wrapping)
    (word : Text) :
    Returns (pushWord fonts run size maxWidth state word) (Wrapping.Encoded fonts.encodes) ↔
      state.Encoded fonts.encodes ∧ word.all fonts.encodes = true := by
  rw [pushWord, returns_bind, returns_widthOfTextAtSize, and_comm]
  refine and_congr_left fun hword => ?_
  have hpush (s : Wrapping) (run : LayoutRun) (width : ℚ) (hrun : run.text = word) :
      Wrapping.Encoded fonts.encodes ⟨s.lines, s.current ++ [run], width⟩ ↔
        s.Encoded fonts.encodes := by
    rw [Wrapping.Encoded, RunsEncoded, List.forall_mem_append, List.forall_mem_singleton, hrun,
      and_iff_left hword]
    rfl
  split
  · rw [returns_pure, hpush _ _ _ rfl, endLine_encoded]
  · rw [returns_pure, hpush _ _ _ rfl]

/-- The words of a segment are its characters. -/
theorem words_encoded (segment : Text) :
    (∀ word ∈ wordsOf segment, word.all fonts.encodes = true) ↔
      segment.all fonts.encodes = true := by
  conv_rhs => rw [← List.flatten_splitBy (fun a b => isSpace a == isSpace b) segment]
  rw [List.all_flatten, List.all_eq_true, wordsOf]

theorem returns_pushSegments (run : InlineRun) (size : ℕ) (maxWidth : ℚ) (segments : List Text)
    (state : Wrapping) :
    Returns (pushSegments fonts run size maxWidth segments state)
        (Wrapping.Encoded fonts.encodes) ↔
      state.Encoded fonts.encodes ∧ ∀ segment ∈ segments, segment.all fonts.encodes = true := by
  have hwords (segment : Text) (state : Wrapping) :=
    returns_foldlM (@returns_pushWord fonts run size maxWidth) (wordsOf segment) state
  simp only [words_encoded] at hwords
  fun_induction pushSegments fonts run size maxWidth segments state with
  | case1 state => simp
  | case2 segment state => rw [hwords, List.forall_mem_singleton]
  | case3 segment segments state hne ih =>
    rw [returns_bind, returns_congr ih, returns_and,
      returns_congr (@endLine_encoded fonts), hwords, List.forall_mem_cons,
      and_assoc]

theorem encoded_append {encodes : Char → Bool} {text text' : Text} :
    Encoded encodes (text ++ text') ↔ Encoded encodes text ∧ Encoded encodes text' :=
  List.forall_mem_append

/-- A text's characters other than line breaks are those of its segments. -/
theorem encoded_iff_segments {encodes : Char → Bool} (text : Text) :
    Encoded encodes text ↔ ∀ segment ∈ text.splitOn '\n', segment.all encodes = true := by
  induction text with
  | nil => simp [Encoded]
  | cons c text ih =>
    have hcons : Encoded encodes (c :: text) ↔
        (c ≠ '\n' → encodes c = true) ∧ Encoded encodes text := List.forall_mem_cons
    rw [hcons, ih, List.splitOn_cons_eq_if_modifyHead]
    obtain ⟨segment, segments, hsplit⟩ :=
      List.exists_cons_of_ne_nil (List.splitOn_ne_nil '\n' text)
    rw [hsplit]
    by_cases hc : c = '\n'
    · rw [if_pos (beq_iff_eq.mpr hc), List.forall_mem_cons (a := [])]
      simp [hc]
    · rw [if_neg (by simpa using hc), List.modifyHead_cons, List.forall_mem_cons,
        List.forall_mem_cons, List.all_cons, Bool.and_eq_true, and_assoc, forall_prop_of_true hc]

theorem finish_encoded {state : Wrapping} :
    (∀ line ∈ state.finish, RunsEncoded fonts.encodes line) ↔ state.Encoded fonts.encodes := by
  rw [Wrapping.Encoded, Wrapping.finish]
  by_cases hcurrent : state.current = []
  · by_cases hempty : state.lines = [] <;> simp [hcurrent, hempty, RunsEncoded]
  · simp [hcurrent, or_imp, forall_and]

theorem returns_wrapRuns (runs : List InlineRun) (size : ℕ) (maxWidth : ℚ) :
    Returns (wrapRuns fonts runs size maxWidth) (∀ line ∈ ·, RunsEncoded fonts.encodes line) ↔
      ∀ run ∈ runs, Encoded fonts.encodes run.text := by
  rw [wrapRuns, returns_bind,
    returns_congr (fun _ => returns_pure.trans finish_encoded),
    returns_foldlM fun state run =>
      returns_pushSegments run size maxWidth (run.text.splitOn '\n') state]
  simp only [← encoded_iff_segments]
  exact and_iff_right ⟨List.forall_mem_nil _, List.forall_mem_nil _⟩

/-! ### Lines -/

theorem linesEncoded_append {encodes : Char → Bool} {lines lines' : List LayoutLine} :
    LinesEncoded encodes (lines ++ lines') ↔
      LinesEncoded encodes lines ∧ LinesEncoded encodes lines' := List.forall_mem_append

theorem linesEncoded_space {encodes : Char → Bool} {indent space : ℕ} :
    LinesEncoded encodes [⟨indent, [], space⟩] := by simp [LinesEncoded, RunsEncoded]

theorem returns_layoutRuns (runs : List InlineRun) (size indent spaceAfter spaceBelow : ℕ) :
    Returns (layoutRuns fonts runs size indent spaceAfter spaceBelow)
        (LinesEncoded fonts.encodes) ↔ ∀ run ∈ runs, Encoded fonts.encodes run.text := by
  rw [layoutRuns, returns_bind, ← returns_wrapRuns runs size (CONTENT_WIDTH - indent)]
  refine returns_congr fun wrapped => ?_
  rw [returns_pure, linesEncoded_append, and_iff_left linesEncoded_space, LinesEncoded,
    List.forall_mem_map]

theorem layoutCode_encoded {encodes : Char → Bool} (indent : ℕ) (content : List PlainNode) :
    LinesEncoded encodes (layoutCode indent content) ↔
      ∀ child ∈ content, Encoded encodes (nodeText child) := by
  have htext : codeText content = content.flatMap nodeText :=
    congrArg content.flatMap (funext fun | .node _ _ _ _ _ => rfl)
  rw [layoutCode, linesEncoded_append, and_iff_left linesEncoded_space, LinesEncoded,
    List.forall_mem_map]
  simp only [RunsEncoded, List.forall_mem_singleton, plainRun]
  rw [← encoded_iff_segments, htext]
  simp only [Encoded, List.mem_flatMap]
  grind

theorem withMarker_encoded {encodes : Char → Bool} (indent : ℕ) (marker : Text)
    (lines : List LayoutLine) :
    LinesEncoded encodes (withMarker indent marker lines) ↔
      LinesEncoded encodes lines ∧ marker.all encodes = true := by
  cases lines with
  | nil => simp [withMarker, LinesEncoded, RunsEncoded, plainRun]
  | cons first rest =>
    simp only [withMarker, LinesEncoded, RunsEncoded, List.forall_mem_cons, plainRun]
    tauto

theorem returns_lines {x y : Option (List LayoutLine)} {encodes : Char → Bool} :
    (Returns (x >>= fun lines => y >>= fun lines' => pure (lines ++ lines'))
        (LinesEncoded encodes)) ↔
      Returns x (LinesEncoded encodes) ∧ Returns y (LinesEncoded encodes) := by
  have hy (lines : List LayoutLine) :
      (Returns (y >>= fun lines' => pure (lines ++ lines')) (LinesEncoded encodes)) ↔
        LinesEncoded encodes lines ∧ Returns y (LinesEncoded encodes) := by
    rw [returns_bind, and_comm, ← returns_and]
    exact returns_congr fun lines' => returns_pure.trans (linesEncoded_append.trans and_comm)
  rw [returns_bind, returns_congr hy, returns_and]

/-! ### Texts that the code adds -/

/-- The printable characters of ASCII. -/
def isPrintable (c : Char) : Bool := ' ' ≤ c && c ≤ '~'

theorem isPrintable_of_isDigit {c : Char} (h : c.isDigit = true) : isPrintable c = true := by
  simp only [Char.isDigit, isPrintable, Bool.and_eq_true, decide_eq_true_eq, Char.le_def,
    ge_iff_le, UInt32.le_iff_toNat_le, UInt32.reduceToNat, Char.reduceVal] at *
  omega

theorem toDigits_printable (n : ℕ) : (Nat.toDigits 10 n).all isPrintable = true :=
  List.all_eq_true.mpr fun _ hc => isPrintable_of_isDigit (NumberText.isDigit_toDigits n _ hc)

theorem decimalText_printable (d : Binary64.Decimal) :
    (NumberText.decimalText d).all isPrintable = true := by
  have hdigits := toDigits_printable d.digits
  have hexponent : (NumberText.exponentText d).all isPrintable = true := by
    rw [NumberText.exponentText, List.all_cons, toDigits_printable, Bool.and_true]
    split <;> rfl
  have hzeros (n : ℕ) : (List.replicate n '0').all isPrintable = true :=
    List.all_eq_true.mpr fun _ hc => isPrintable_of_isDigit (NumberText.isDigit_zeros n _ hc)
  rw [NumberText.decimalText]
  split
  · rw [NumberText.plainText]
    split
    · rw [List.all_append, hdigits, hzeros, Bool.and_true]
    · split
      · have hparts := hdigits
        rw [← List.take_append_drop d.point.toNat (Nat.toDigits 10 d.digits), List.all_append,
          Bool.and_eq_true] at hparts
        rw [List.all_append, List.all_cons, hparts.1, hparts.2]
        rfl
      · rw [List.all_cons, List.all_cons, List.all_append, hdigits, hzeros]
        rfl
  · rw [NumberText.scientificText]
    split
    · rfl
    · rename_i c heq
      rw [heq, List.all_cons, Bool.and_eq_true] at hdigits
      rw [List.all_cons, List.all_cons, hexponent, hdigits.1]
      rfl
    · rename_i c cs _ heq
      rw [heq, List.all_cons, Bool.and_eq_true] at hdigits
      rw [List.all_cons, List.all_cons, List.all_append, List.all_cons, hexponent, hdigits.1,
        hdigits.2]
      rfl

theorem toText_printable (x : Number) : (NumberText.toText x).all isPrintable = true := by
  cases x with
  | nan => rfl
  | infinity negative => cases negative <;> rfl
  | finite x =>
    rw [NumberText.toText]
    split
    · rfl
    · split
      · rw [List.all_cons, decimalText_printable]
        rfl
      · exact decimalText_printable _

theorem orderedMarker_printable (start : Value) (index : ℕ) :
    (orderedMarker start index).all isPrintable = true := by
  have hend : ['.', ' '].all isPrintable = true := rfl
  rw [orderedMarker, List.all_append, hend, Bool.and_true, toText_printable]

section
variable (ansi : WinAnsi fonts.encodes)
include ansi

theorem WinAnsi.encodes_of_printable {text : Text} (h : text.all isPrintable = true) :
    text.all fonts.encodes = true := by
  refine List.all_eq_true.mpr fun c hc => ?_
  have hprintable := List.all_eq_true.mp h c hc
  simp only [isPrintable, Bool.and_eq_true, decide_eq_true_eq] at hprintable
  exact ansi.printable c hprintable.1 hprintable.2

theorem WinAnsi.encoded_of_printable {text : Text} (h : text.all isPrintable = true) :
    Encoded fonts.encodes text :=
  fun c hc _ => List.all_eq_true.mp (ansi.encodes_of_printable h) c hc

/-- A label, or what stands for one that is missing. -/
theorem WinAnsi.encoded_stringOr {otherwise : Text} (h : otherwise.all isPrintable = true)
    (value : Value) :
    Encoded fonts.encodes (stringOr otherwise value) ↔
      Encoded fonts.encodes (stringOr [] value) := by
  have hotherwise : Encoded fonts.encodes otherwise ↔ Encoded fonts.encodes [] :=
    ⟨fun _ => List.forall_mem_nil _, fun _ => ansi.encoded_of_printable h⟩
  cases value <;> first | exact hotherwise | rfl

/-- **The runs of a block are encoded if and only if what its nodes show is.** -/
theorem WinAnsi.inlineRunsOf_encoded (content : List PlainNode) :
    (∀ run ∈ inlineRunsOf content, Encoded fonts.encodes run.text) ↔
      ∀ child ∈ content, Encoded fonts.encodes (shownText child) := by
  have hat : Encoded fonts.encodes ['@'] := ansi.encoded_of_printable rfl
  have hopen : Encoded fonts.encodes ['[', '['] := ansi.encoded_of_printable rfl
  have hclose : Encoded fonts.encodes [']', ']'] := ansi.encoded_of_printable rfl
  have hchild (child : PlainNode) :
      (∀ run, inlineRunOf child = some run → Encoded fonts.encodes run.text) ↔
        Encoded fonts.encodes (shownText child) := by
    obtain ⟨type, attrs, text, marks, content⟩ := child
    rw [inlineRunOf, shownText]
    cases knownNodeType type with
    | none => simp [Encoded]
    | some known =>
      cases known with
      | text => cases text <;> simp [Encoded]
      | mention =>
        simp only [Option.some.injEq, forall_eq']
        rw [← List.singleton_append, encoded_append, and_iff_right hat, ansi.encoded_stringOr rfl]
      | pageLink =>
        simp only [Option.some.injEq, forall_eq']
        rw [← List.cons_append, ← List.cons_append, encoded_append, and_iff_left hclose]
        rw [show ∀ label : Text, '[' :: '[' :: label = ['[', '['] ++ label from fun _ => rfl,
          encoded_append, and_iff_right hopen, ansi.encoded_stringOr rfl]
      | _ => simp [Encoded]
  simp only [inlineRunsOf, List.mem_filterMap, ← hchild]
  exact ⟨fun h child hc run hrun => h run ⟨child, hc, hrun⟩,
    fun h run ⟨child, hc, hrun⟩ => h child hc run hrun⟩

/-! ### Blocks -/

/-- No font has what is put before a task. -/
theorem WinAnsi.not_returns_tasks (indent index : ℕ) (item : PlainNode) (items : List PlainNode) :
    ¬Returns (layoutListItems fonts indent (fun item _ => taskMarker item) index (item :: items))
      (LinesEncoded fonts.encodes) := by
  obtain ⟨type, attrs, text, marks, content⟩ := item
  rw [layoutListItems, returns_lines, layoutListItem, returns_map]
  rintro ⟨⟨lines, -, hlines⟩, -⟩
  have hmarker := ((withMarker_encoded indent _ lines).mp hlines).2
  rw [taskMarker, List.all_cons, Bool.and_eq_true] at hmarker
  have hbox := hmarker.1
  split at hbox
  · rw [ansi.checkedBox] at hbox
    cases hbox
  · rw [ansi.ballotBox] at hbox
    cases hbox

end

mutual

/-- **A block's lines are laid out and encoded if and only if it is printable.** -/
theorem WinAnsi.returns_layoutBlock (ansi : WinAnsi fonts.encodes) (indent : ℕ) :
    ∀ node : PlainNode,
    Returns (layoutBlock fonts indent node) (LinesEncoded fonts.encodes) ↔
      Printable fonts.encodes node
  | .node type attrs text marks content => by
    have hbold : (∀ run ∈ (inlineRunsOf content).map boldRun, Encoded fonts.encodes run.text) ↔
        ∀ run ∈ inlineRunsOf content, Encoded fonts.encodes run.text := List.forall_mem_map
    rw [layoutBlock, Printable]
    cases knownNodeType type with
    | none => exact ansi.returns_layoutBlocks indent content
    | some known =>
      cases known with
      | heading =>
        exact (returns_layoutRuns ..).trans (hbold.trans (ansi.inlineRunsOf_encoded content))
      | paragraph => exact (returns_layoutRuns ..).trans (ansi.inlineRunsOf_encoded content)
      | blockquote => exact ansi.returns_layoutBlocks (indent + 20) content
      | codeBlock => exact returns_some.trans (layoutCode_encoded indent content)
      | bulletList =>
        refine ansi.returns_layoutListItems indent 0 (fun _ _ => ?_) content
        simp [ansi.bullet, ansi.printable ' ']
      | orderedList =>
        exact ansi.returns_layoutListItems indent 0
          (fun _ index => ansi.encodes_of_printable (orderedMarker_printable _ index)) content
      | taskList =>
        cases content with
        | nil => simp [layoutListItems, LinesEncoded]
        | cons item items =>
          exact iff_of_false (ansi.not_returns_tasks indent 0 item items) (by simp)
      | horizontalRule => simp [LinesEncoded, RunsEncoded, plainRun, ansi.dash]
      | _ => exact ansi.returns_layoutBlocks indent content

theorem WinAnsi.returns_layoutBlocks (ansi : WinAnsi fonts.encodes) (indent : ℕ) :
    ∀ nodes : List PlainNode,
    Returns (layoutBlocks fonts indent nodes) (LinesEncoded fonts.encodes) ↔
      PrintableAll fonts.encodes nodes
  | [] => by simp [layoutBlocks, PrintableAll, LinesEncoded]
  | node :: nodes => by
    rw [layoutBlocks, PrintableAll, ← ansi.returns_layoutBlock indent node,
      ← ansi.returns_layoutBlocks indent nodes, returns_lines]

theorem WinAnsi.returns_layoutListItem (ansi : WinAnsi fonts.encodes) (indent : ℕ) {marker : Text}
    (hmarker : marker.all fonts.encodes = true) : ∀ item : PlainNode,
    Returns (layoutListItem fonts indent marker item) (LinesEncoded fonts.encodes) ↔
      PrintableItem fonts.encodes item
  | .node _ _ _ _ content => by
    rw [layoutListItem, returns_map, PrintableItem,
      ← ansi.returns_layoutBlocks (indent + 16) content]
    exact returns_congr fun lines =>
      (withMarker_encoded indent marker lines).trans (and_iff_left hmarker)

theorem WinAnsi.returns_layoutListItems (ansi : WinAnsi fonts.encodes) (indent index : ℕ)
    {marker : PlainNode → ℕ → Text}
    (hmarker : ∀ item index, (marker item index).all fonts.encodes = true) :
    ∀ items : List PlainNode,
    Returns (layoutListItems fonts indent marker index items) (LinesEncoded fonts.encodes) ↔
      PrintableItems fonts.encodes items
  | [] => by simp [layoutListItems, PrintableItems, LinesEncoded]
  | item :: items => by
    rw [layoutListItems, PrintableItems,
      ← ansi.returns_layoutListItem indent (hmarker item index) item,
      ← ansi.returns_layoutListItems indent (index + 1) hmarker items, returns_lines]

end

/-! ### Pages -/

theorem returns_drawText {text : Text} {x y : ℚ} {size : ℕ} {font : FontVariant}
    {P : Drawing → Prop} :
    Returns (drawText fonts text x y size font) P ↔
      text.all fonts.encodes = true ∧ P (.text text x y size font) := by
  rw [drawText]
  split <;> simp_all

/-- What a loop over what is drawn keeps is nothing: a run is drawn if it is encoded. -/
theorem returns_drawRun (y : ℚ) (state : List Drawing × ℚ) (run : LayoutRun) :
    Returns (drawRun fonts y state run) (fun _ => True) ↔
      True ∧ run.text.all fonts.encodes = true := by
  rw [drawRun, returns_bind, returns_drawText, returns_bind, returns_widthOfTextAtSize,
    returns_pure]
  tauto

theorem returns_drawLine (canvas : Canvas) (line : LayoutLine) :
    Returns (drawLine fonts canvas line) (fun _ => True) ↔
      True ∧ RunsEncoded fonts.encodes line.runs := by
  rw [drawLine, returns_bind]
  exact (returns_congr fun _ => returns_pure).trans
    (returns_foldlM (fun state run => returns_drawRun _ state run) _ _)

theorem returns_drawPages (title productName : Text) (lines : List LayoutLine) :
    Returns (drawPages fonts title productName lines) (fun _ => True) ↔
      LinesEncoded fonts.encodes lines ∧ title.all fonts.encodes = true ∧
        (footerText productName).all fonts.encodes = true := by
  have hfooter (canvas : Canvas) :
      (Returns (widthOfTextAtSize fonts (footerText productName) .regular 8 >>= fun footerWidth =>
          drawText fonts (footerText productName) ((PAGE_WIDTH - footerWidth) / 2) (MARGIN / 2) 8
            .regular >>= fun footer =>
          pure ((canvas.pages ++ [canvas.page]).map (· ++ [footer]))) fun _ => True) ↔
        True ∧ (footerText productName).all fonts.encodes = true := by
    rw [returns_bind, returns_widthOfTextAtSize, returns_bind, returns_drawText, returns_pure]
    tauto
  rw [drawPages, returns_bind, returns_drawText, returns_bind, returns_congr hfooter, returns_and,
    returns_foldlM returns_drawLine, LinesEncoded]
  tauto

/-- **A page is exported if and only if its title and the product's name are in the fonts' encoding
and its tree is printable.** -/
theorem renderPdf_isSome_iff (ansi : WinAnsi fonts.encodes) (title : Text) (document : PlainNode)
    (productName : Text) :
    (renderPdf fonts title document productName).isSome ↔
      title.all fonts.encodes = true ∧ productName.all fonts.encodes = true ∧
        Printable fonts.encodes document := by
  have hprefix : FOOTER_PREFIX.all fonts.encodes = true := ansi.encodes_of_printable (by decide)
  rw [isSome_iff_returns, renderPdf, returns_bind,
    returns_congr (returns_drawPages title productName), returns_and, layoutDocument,
    ansi.returns_layoutBlock 0 document, footerText, List.all_append, hprefix, Bool.true_and,
    and_comm, and_assoc]

end

/-! ### Two pages -/

/-- The library's encoding is Windows-1252. -/
def windows1252 (c : Char) : Bool :=
  isPrintable c || (0xA0 ≤ c.toNat && c.toNat ≤ 0xFF) ||
    c ∈ ['€', '‚', 'ƒ', '„', '…', '†', '‡', 'ˆ', '‰', 'Š', '‹', 'Œ', 'Ž', '‘', '’', '“', '”', '•',
      '–', '—', '˜', '™', 'š', '›', 'œ', 'ž', 'Ÿ']

theorem winAnsi_windows1252 : WinAnsi windows1252 where
  printable c hlow hhigh := by simp [windows1252, isPrintable, hlow, hhigh]
  bullet := by decide
  dash := by decide
  ballotBox := by decide
  checkedBox := by decide

def sampleFonts : Fonts := ⟨windows1252, fun text _ size => text.length * size / 2⟩

/-- A paragraph of one text. -/
def samplePage (text : Text) : FragmentReaders.Child :=
  .element "paragraph".toList [] [.text [⟨text, []⟩]]

/-- An accented letter is in the encoding. -/
theorem renderPdf_isSome_accent :
    (renderPdf sampleFonts ['C', 'a', 'f', 'é'] (renderFragment (fun _ => true) [samplePage ['é']])
      "Rinavai".toList).isSome :=
  (renderPdf_isSome_iff winAnsi_windows1252 _ _ _).mpr
    ⟨by decide, by decide, ⟨fun child hchild c hc _ => by
      rw [List.mem_singleton.mp hchild] at hc
      rw [List.mem_singleton.mp hc]
      decide, trivial⟩⟩

/-- A list with one task. -/
theorem renderPdf_taskList :
    ¬∀ (fonts : Fonts), WinAnsi fonts.encodes → ∀ isSafe title fragment productName,
      (renderPdf fonts title (renderFragment isSafe fragment) productName).isSome := by
  intro h
  have htask := h sampleFonts winAnsi_windows1252 (fun _ => true) "Groceries".toList
    [.element "taskList".toList [] [.element "taskItem".toList
      [("checked".toList, .boolean false)] [samplePage "Milk".toList]]] "Rinavai".toList
  exact absurd htask (by decide +kernel)

end PdfExport
end TaskFlow
