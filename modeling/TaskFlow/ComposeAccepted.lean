import Mathlib.Data.List.Flatten
import TaskFlow.ComposeRanges

/-! # What of a draft the server accepts

The link pattern takes a target of any length, whatever follows its scheme, and a fence takes a word
of any length as its language.  The schema bounds both.  A draft is accepted if and only if it is
`Accepted`, line by line; all else that `parseFormattedText` makes is as the schema wants it.
-/
namespace TaskFlow
namespace RichTextCompose
open LeftmostLexer RichTextSchema
open RichText (MAX_TEXT_LENGTH Text isSpace)
open ImportRows (utf16Length)

/-- What is behind the marks that a line begins its block with. -/
def lineText (line : Text) : Text :=
  match lineType line with
  | .horizontalRule => []
  | .taskList => ((TASK_LIST_LINE line).map Prod.snd).getD []
  | .bulletList => (bulletLine line).getD []
  | .orderedList => (ORDERED_LIST_LINE line).getD []
  | .heading => ((HEADING_LINE line).map Prod.snd).getD []
  | .blockquote => (BLOCKQUOTE_LINE line).getD []
  | _ => line

section
variable (isSafe : Text → Bool) (mentions : List PendingMention)

/-- Where a link is what is taken of a text, its target is one that the schema accepts. -/
def LinksAccepted (text : Text) : Prop :=
  ∀ rest n label href target, Reaches (patterns mentions) text rest →
    anyOf (patterns mentions) rest = some (n, textRun label [.link href target]) →
    utf16Length href ≤ 2048 ∧ isSafe href = true

/-- Lines that are in a code block or not: every other fence begins one, with its language. -/
def Accepted : (inCode : Bool) → List Text → Prop
  | _, [] => True
  | true, line :: lines => Accepted (CODE_FENCE_LINE line).isNone lines
  | false, line :: lines =>
    match CODE_FENCE_LINE line with
    | some language => utf16Length language ≤ 40 ∧ Accepted true lines
    | none => LinksAccepted isSafe mentions (lineText line) ∧ Accepted false lines

end

/-! ### Lengths -/

theorem utf16Length_cons (c : Char) (text : Text) :
    utf16Length (c :: text) = (if c.toNat < 0x10000 then 1 else 2) + utf16Length text := rfl

theorem utf16Length_mono {text text' : Text} (h : text.Sublist text') :
    utf16Length text ≤ utf16Length text' := by
  induction h with
  | slnil => exact Nat.le_refl _
  | cons c _ ih =>
    rw [utf16Length_cons]
    omega
  | cons_cons c _ ih =>
    rw [utf16Length_cons, utf16Length_cons]
    omega

theorem afterSpaces_sublist {line text : Text} (h : afterSpaces line = some text) :
    text.Sublist line := by
  unfold afterSpaces at h
  split at h
  · cases h
  · split at h
    · obtain ⟨-, htext⟩ := Option.ite_none_left_eq_some.mp h
      rw [← Option.some.inj htext]
      exact (List.dropWhile_sublist _).trans (List.sublist_cons_self _ _)
    · cases h

theorem task_sublist {line text : Text} {checked : Bool}
    (h : TASK_LIST_LINE line = some (checked, text)) : text.Sublist line := by
  unfold TASK_LIST_LINE at h
  split at h
  · next c d rest =>
    split at h
    · split at h
      · next x inner hinner =>
        split at h
        · obtain ⟨found, hfound, heq⟩ := Option.map_eq_some_iff.mp h
          obtain ⟨-, rfl⟩ := Prod.mk.inj heq
          have hrest : ('[' :: x :: ']' :: inner).Sublist rest :=
            hinner ▸ List.dropWhile_sublist _
          exact ((((afterSpaces_sublist hfound).cons _).cons _).cons _).trans
            ((hrest.cons _).cons _)
        · cases h
      · cases h
    · cases h
  · cases h

theorem bullet_sublist {line text : Text} (h : bulletLine line = some text) :
    text.Sublist line := by
  unfold bulletLine BULLET_LIST_LINE at h
  split at h
  · cases h
  · split at h
    · split at h
      · exact (afterSpaces_sublist h).cons _
      · cases h
    · cases h

theorem ordered_sublist {line text : Text} (h : ORDERED_LIST_LINE line = some text) :
    text.Sublist line := by
  unfold ORDERED_LIST_LINE at h
  split at h
  · cases h
  · split at h
    · next rest hrest =>
      have hline : ('.' :: rest).Sublist line := hrest ▸ List.dropWhile_sublist _
      exact ((afterSpaces_sublist h).cons _).trans hline
    · cases h

theorem heading_sublist {line text : Text} {level : Nat}
    (h : HEADING_LINE line = some (level, text)) : text.Sublist line := by
  unfold HEADING_LINE at h
  simp only [] at h
  split at h
  · obtain ⟨found, hfound, heq⟩ := Option.map_eq_some_iff.mp h
    obtain ⟨-, rfl⟩ := Prod.mk.inj heq
    exact (afterSpaces_sublist hfound).trans (List.dropWhile_sublist _)
  · cases h

theorem quote_sublist {line text : Text} (h : BLOCKQUOTE_LINE line = some text) :
    text.Sublist line := by
  unfold BLOCKQUOTE_LINE at h
  split at h
  · next rest =>
    obtain ⟨-, hrest⟩ := Option.ite_none_left_eq_some.mp h
    rw [← Option.some.inj hrest]
    refine .cons _ ?_
    split
    · exact List.drop_sublist 1 rest
    · exact .refl rest
  · cases h

theorem lineText_sublist (line : Text) : (lineText line).Sublist line := by
  have hgetD {found : Option Text} (h : ∀ text, found = some text → text.Sublist line) :
      (found.getD []).Sublist line := by
    cases found with
    | none => exact List.nil_sublist line
    | some text => exact h text rfl
  unfold lineText
  split
  · exact List.nil_sublist line
  · exact hgetD fun text h => by
      obtain ⟨⟨checked, text⟩, hfound, rfl⟩ := Option.map_eq_some_iff.mp h
      exact task_sublist hfound
  · exact hgetD fun _ h => bullet_sublist h
  · exact hgetD fun _ h => ordered_sublist h
  · exact hgetD fun text h => by
      obtain ⟨⟨level, text⟩, hfound, rfl⟩ := Option.map_eq_some_iff.mp h
      exact heading_sublist hfound
  · exact hgetD fun _ h => quote_sublist h
  · exact .refl line

/-! ### The runs of a line -/

section
variable {isSafe : Text → Bool} {mentions : List PendingMention}

/-- A mention, or a text with one mark at most. -/
def IsRun (mentions : List PendingMention) (run : Node) : Prop :=
  (∃ mention ∈ mentions, run = mentionRun mention) ∨
    ∃ text marks, run = textRun text marks ∧ marks.length ≤ 1

theorem isRun_of_delimited {delimiter text : Text} {mark : Mark} {n : Nat} {run : Node}
    (h : delimited delimiter mark text = some (n, run)) : IsRun mentions run := by
  unfold delimited at h
  split at h
  · split at h
    · cases h
    · split at h
      · cases h
      · obtain ⟨captured, -, heq⟩ := Option.map_eq_some_iff.mp h
        obtain ⟨-, rfl⟩ := Prod.mk.inj heq
        exact .inr ⟨_, [mark], rfl, Nat.le_refl 1⟩
  · cases h

theorem isRun_of_mem {p : Pattern Char Node} (hp : p ∈ patterns mentions) {text : Text} {n : Nat}
    {run : Node} (h : p text = some (n, run)) : IsRun mentions run := by
  rcases List.mem_append.mp hp with hp | hp
  · obtain ⟨mention, hmention, rfl⟩ := List.mem_map.mp hp
    unfold mentionAt at h
    obtain ⟨-, heq⟩ := Option.ite_none_right_eq_some.mp h
    obtain ⟨-, rfl⟩ := Prod.mk.inj (Option.some.inj heq)
    exact .inl ⟨mention, hmention, rfl⟩
  · simp only [List.mem_cons, List.not_mem_nil, or_false] at hp
    rcases hp with rfl | rfl | rfl | rfl | rfl | rfl
    · exact isRun_of_delimited h
    · exact isRun_of_delimited h
    · exact isRun_of_delimited h
    · unfold CODE_PATTERN at h
      split at h
      · simp only [] at h
        split at h
        · obtain ⟨-, heq⟩ := Option.ite_none_left_eq_some.mp h
          obtain ⟨-, rfl⟩ := Prod.mk.inj (Option.some.inj heq)
          exact .inr ⟨_, [.code], rfl, Nat.le_refl 1⟩
        · cases h
      · cases h
    · exact isRun_of_delimited h
    · unfold LINK_PATTERN at h
      split at h
      · simp only [] at h
        obtain ⟨-, heq⟩ := Option.ite_none_left_eq_some.mp h
        split at heq
        · split at heq
          · obtain ⟨-, rfl⟩ := Prod.mk.inj (Option.some.inj heq)
            exact .inr ⟨_, [.link _ none], rfl, Nat.le_refl 1⟩
          · cases heq
        · cases heq
      · cases h

theorem isRun_of_anyOf {text : Text} {n : Nat} {run : Node}
    (h : anyOf (patterns mentions) text = some (n, run)) : IsRun mentions run := by
  obtain ⟨p, hp, htaken⟩ := List.exists_of_findSome?_eq_some h
  exact isRun_of_mem hp htaken

theorem isRun_plain (text : Text) : IsRun mentions (textRun text []) :=
  .inr ⟨text, [], rfl, Nat.zero_le 1⟩

theorem isRun_of_parseInline (text : Text) : ∀ run ∈ parseInline text mentions,
    IsRun mentions run := by
  have hlex := ((lawful mentions).forall_lex_iff (P := IsRun mentions) isRun_plain text).mpr
    fun _ _ _ _ => isRun_of_anyOf
  unfold parseInline
  simp only []
  split
  · exact List.forall_mem_singleton.mpr (isRun_plain [])
  · exact hlex

/-- No run is longer than its line. -/
theorem length_of_parseInline {text : Text} : ∀ run ∈ parseInline text mentions,
    utf16Length (serializeRun run) ≤ utf16Length text := by
  intro run hrun
  refine utf16Length_mono ?_
  conv_rhs => rw [← serializeInline_parseInline text mentions]
  exact List.sublist_flatten_of_mem (List.mem_map_of_mem hrun)

/-! ### What the schema makes of them -/

theorem BaseNodeSchemas_iff {nodes : List Node} :
    BaseNodeSchemas isSafe nodes = true ↔ ∀ node ∈ nodes, BaseNodeSchema isSafe node = true := by
  induction nodes with
  | nil => exact iff_of_true rfl (List.forall_mem_nil _)
  | cons node nodes ih => rw [BaseNodeSchemas, Bool.and_eq_true, ih, List.forall_mem_cons]

/-- A node that is no text and has no marks. -/
theorem BaseNodeSchema_block {type : NodeType} {attrs : Attributes} {content : List Node}
    (htype : type ≠ .text) (hattrs : validAttributes type attrs = true) :
    BaseNodeSchema isSafe (.node type attrs none [] content) = true ↔
      BaseNodeSchemas isSafe content = true := by
  simp [BaseNodeSchema, validText, htype, hattrs]

section
variable (hmentions : ∀ mention ∈ mentions,
  Backlinks.isValidId mention.userId = true ∧ validLabel 120 mention.label = true)
include hmentions

theorem BaseNodeSchema_run {run : Node} (hrun : IsRun mentions run)
    (hlength : utf16Length (serializeRun run) ≤ MAX_TEXT_LENGTH) :
    BaseNodeSchema isSafe run = true ↔ ∀ mark ∈ run.marks, validMark isSafe mark = true := by
  rcases hrun with ⟨mention, hmention, rfl⟩ | ⟨text, marks, rfl, hmarks⟩
  · obtain ⟨hid, hlabel⟩ := hmentions mention hmention
    refine iff_of_true ?_ (List.forall_mem_nil _)
    simp [mentionRun, BaseNodeSchema, BaseNodeSchemas, validAttributes, validText, hid, hlabel]
  · have htext : utf16Length text ≤ MAX_TEXT_LENGTH := by
      refine Nat.le_trans (utf16Length_mono ?_) hlength
      match marks, hmarks with
      | [], _ => exact .refl text
      | [mark], _ =>
        rw [serializeRun_textRun]
        cases mark with
        | link href target =>
          exact List.IsInfix.sublist ⟨['['], [']', '('] ++ href ++ [')'], by simp [wrapForMark]⟩
        | bold | italic | strike | code | underline => exact List.IsInfix.sublist ⟨_, _, rfl⟩
    have hcount : marks.length ≤ 16 := by omega
    simp [textRun, BaseNodeSchema, BaseNodeSchemas, validAttributes, validText, htext, hcount,
      Node.marks]

/-- **A line's runs are accepted if and only if its links are.** -/
theorem BaseNodeSchemas_parseInline {text : Text} (hlength : utf16Length text ≤ MAX_TEXT_LENGTH) :
    BaseNodeSchemas isSafe (parseInline text mentions) = true ↔
      LinksAccepted isSafe mentions text := by
  have hruns : BaseNodeSchemas isSafe (parseInline text mentions) = true ↔
      ∀ run ∈ parseInline text mentions, ∀ mark ∈ run.marks, validMark isSafe mark = true := by
    rw [BaseNodeSchemas_iff]
    exact forall₂_congr fun run hrun =>
      BaseNodeSchema_run hmentions (isRun_of_parseInline _ run hrun)
        (Nat.le_trans (length_of_parseInline run hrun) hlength)
  have hlex := (lawful mentions).forall_lex_iff
    (P := fun run => ∀ mark ∈ run.marks, validMark isSafe mark = true)
    (fun _ => List.forall_mem_nil _) text
  have hinline : (∀ run ∈ parseInline text mentions, ∀ mark ∈ run.marks,
      validMark isSafe mark = true) ↔ ∀ run ∈ lex (patterns mentions) (textRun · []) text,
        ∀ mark ∈ run.marks, validMark isSafe mark = true := by
    unfold parseInline
    simp only []
    split
    · next hnil => rw [hnil]; simp [textRun, Node.marks]
    · rfl
  rw [hruns, hinline, hlex]
  constructor
  · intro h rest n label href target hreach htaken
    have hmark := h rest n _ hreach htaken (.link href target) (List.mem_singleton.mpr rfl)
    simpa [validMark] using hmark
  · intro h rest n run hreach htaken
    rcases isRun_of_anyOf htaken with ⟨mention, -, rfl⟩ | ⟨label, marks, rfl, hmarks⟩
    · exact List.forall_mem_nil _
    · cases marks with
      | nil => exact List.forall_mem_nil _
      | cons mark rest' =>
        obtain rfl : rest' = [] := by simpa using hmarks
        refine List.forall_mem_singleton.mpr ?_
        cases mark with
        | link href target =>
          simpa [validMark] using h rest n label href target hreach htaken
        | _ => rfl

theorem BaseNodeSchema_paragraphOf {text : Text} (hlength : utf16Length text ≤ MAX_TEXT_LENGTH) :
    BaseNodeSchema isSafe (paragraphOf text mentions) = true ↔
      LinksAccepted isSafe mentions text :=
  (BaseNodeSchema_block (by decide) rfl).trans (BaseNodeSchemas_parseInline hmentions hlength)

/-- An item of a list. -/
theorem BaseNodeSchema_item {type : NodeType} {attrs : Attributes} {text : Text}
    (htype : type ≠ .text) (hattrs : validAttributes type attrs = true)
    (hlength : utf16Length text ≤ MAX_TEXT_LENGTH) :
    BaseNodeSchema isSafe (.node type attrs none [] [paragraphOf text mentions]) = true ↔
      LinksAccepted isSafe mentions text := by
  rw [BaseNodeSchema_block htype hattrs, BaseNodeSchemas_iff, List.forall_mem_singleton,
    BaseNodeSchema_paragraphOf hmentions hlength]

end

/-! ### Lines that are collected -/

theorem accepted_cons {line : Text} {lines : List Text} (h : CODE_FENCE_LINE line = none) :
    Accepted isSafe mentions false (line :: lines) ↔
      LinksAccepted isSafe mentions (lineText line) ∧ Accepted isSafe mentions false lines := by
  rw [Accepted, h]

theorem fence_of_lineType_ne {line : Text} (h : lineType line ≠ .codeBlock) :
    CODE_FENCE_LINE line = none := by
  unfold lineType at h
  split at h
  · exact absurd rfl h
  · next hfence => simpa using hfence

/-- The lines of a block, if each of them is one that the block goes on with. -/
theorem accepted_collect {γ : Type} {match? : Text → Option γ} {textOf : γ → Text}
    (hline : ∀ line found, match? line = some found →
      lineType line ≠ .codeBlock ∧ lineText line = textOf found) (lines : List Text) :
    Accepted isSafe mentions false lines ↔
      (∀ found ∈ (collect match? lines).1, LinksAccepted isSafe mentions (textOf found)) ∧
        Accepted isSafe mentions false (collect match? lines).2 := by
  induction lines with
  | nil => simp [collect]
  | cons line lines ih =>
    rw [collect]
    cases hmatch : match? line with
    | none => simp
    | some found =>
      obtain ⟨htype, htext⟩ := hline line found hmatch
      rw [accepted_cons (fence_of_lineType_ne htype), ih, htext, List.forall_mem_cons, and_assoc]

/-- The lines behind the code. -/
theorem accepted_inCode (lines : List Text) :
    Accepted isSafe mentions true lines ↔ Accepted isSafe mentions false
      ((lines.dropWhile fun line => (CODE_FENCE_LINE line).isNone).drop 1) := by
  induction lines with
  | nil => rfl
  | cons line lines ih =>
    rw [Accepted]
    cases h : (CODE_FENCE_LINE line).isNone with
    | true => rw [ih, List.dropWhile_cons, if_pos h]
    | false => rw [List.dropWhile_cons, if_neg (by simp [h]), List.drop_succ_cons, List.drop_zero]

theorem mem_collect {γ : Type} {match? : Text → Option γ} {lines : List Text} :
    ∀ found ∈ (collect match? lines).1, ∃ line ∈ lines, match? line = some found := by
  intro found hfound
  obtain ⟨taken, hlines, hmap, -⟩ := collect_spec match? lines
  have hmem : some found ∈ taken.map match? := hmap ▸ List.mem_map_of_mem hfound
  obtain ⟨line, hline, hmatch⟩ := List.mem_map.mp hmem
  exact ⟨line, hlines ▸ List.mem_append_left _ hline, hmatch⟩

/-! ### Blocks -/

/-- The draft that lines are of, with one more newline. -/
def joined (lines : List Text) : Text := lines.flatMap (· ++ ['\n'])

theorem length_of_mem {lines : List Text} (h : utf16Length (joined lines) ≤ MAX_TEXT_LENGTH + 1) :
    ∀ line ∈ lines, utf16Length line ≤ MAX_TEXT_LENGTH := by
  intro line hline
  have hle := utf16Length_mono (List.sublist_flatten_of_mem
    (List.mem_map_of_mem (f := (· ++ ['\n'])) hline))
  have hsucc : utf16Length line + 1 = utf16Length (line ++ ['\n']) := by
    simp [utf16Length]
  have hjoined : joined lines = (lines.map (· ++ ['\n'])).flatten := rfl
  rw [← hjoined] at hle
  omega

theorem joined_mono {lines lines' : List Text} (h : lines.Sublist lines') :
    utf16Length (joined lines) ≤ utf16Length (joined lines') :=
  utf16Length_mono (h.flatMap _)

theorem joined_eq {lines : List Text} (h : lines ≠ []) :
    joined lines = ['\n'].intercalate lines ++ ['\n'] := by
  induction lines with
  | nil => exact absurd rfl h
  | cons line lines ih =>
    rw [joined, List.flatMap_cons]
    by_cases hnil : lines = []
    · subst hnil
      simp
    · rw [List.intercalate_cons_of_ne_nil hnil, List.append_assoc, List.append_assoc, ← ih hnil,
        ← List.append_assoc]
      rfl

theorem length_intercalate {lines : List Text} {n : Nat}
    (h : utf16Length (joined lines) ≤ n + 1) : utf16Length (['\n'].intercalate lines) ≤ n := by
  by_cases hnil : lines = []
  · subst hnil
    exact Nat.zero_le n
  · rw [joined_eq hnil] at h
    simp only [utf16Length, List.map_append, List.sum_append] at h ⊢
    simpa using h

theorem linksAccepted_nil : LinksAccepted isSafe mentions [] := by
  intro rest n label href target hreach htaken
  cases hreach with
  | here => cases (lawful mentions).anyOf_nil.symm.trans htaken
  | take hother => cases (lawful mentions).anyOf_nil.symm.trans hother

/-- A block of items, each of which is accepted if and only if the text of its line is. -/
theorem accepted_group {γ : Type} {type : NodeType} {match? : Text → Option γ} {item : γ → Node}
    (textOf : γ → Text) (htype : type ≠ .text) (hattrs : validAttributes type {} = true)
    (hline : ∀ line found, match? line = some found →
      lineType line ≠ .codeBlock ∧ lineText line = textOf found)
    (hitem : ∀ found, utf16Length (textOf found) ≤ MAX_TEXT_LENGTH →
      (BaseNodeSchema isSafe (item found) = true ↔ LinksAccepted isSafe mentions (textOf found)))
    {lines : List Text} (hlength : utf16Length (joined lines) ≤ MAX_TEXT_LENGTH + 1) :
    Accepted isSafe mentions false lines ↔
      BaseNodeSchema isSafe (block type ((collect match? lines).1.map item)) = true ∧
        Accepted isSafe mentions false (collect match? lines).2 := by
  rw [accepted_collect hline, block, BaseNodeSchema_block htype hattrs, BaseNodeSchemas_iff,
    List.forall_mem_map]
  refine and_congr_left' (forall₂_congr fun found hfound => (hitem found ?_).symm)
  obtain ⟨line, hmem, hmatch⟩ := mem_collect found hfound
  rw [← (hline line found hmatch).2]
  exact Nat.le_trans (utf16Length_mono (lineText_sublist line)) (length_of_mem hlength line hmem)

/-- The code is no longer than the draft. -/
theorem BaseNodeSchema_codeBlock {language : Text} {lines : List Text}
    (hlength : utf16Length (joined lines) ≤ MAX_TEXT_LENGTH + 1) :
    BaseNodeSchema isSafe (codeBlock language lines).1 = true ↔ utf16Length language ≤ 40 := by
  have htext : utf16Length (['\n'].intercalate
      (lines.takeWhile fun line => (CODE_FENCE_LINE line).isNone)) ≤ MAX_TEXT_LENGTH :=
    length_intercalate (Nat.le_trans (joined_mono (List.takeWhile_sublist _)) hlength)
  have hnil : utf16Length [] = 0 := rfl
  by_cases hlanguage : language = []
  · subst hlanguage
    simp [codeBlock, BaseNodeSchema, BaseNodeSchemas, validAttributes, validText, textRun, htext,
      hnil]
  · simp [codeBlock, BaseNodeSchema, BaseNodeSchemas, validAttributes, validText, textRun, htext,
      hlanguage]

section
variable (hmentions : ∀ mention ∈ mentions,
  Backlinks.isValidId mention.userId = true ∧ validLabel 120 mention.label = true)
include hmentions

/-- **One block**: it is accepted, and the lines behind it are. -/
theorem accepted_nextBlock {line : Text} {lines : List Text}
    (hlength : utf16Length (joined (line :: lines)) ≤ MAX_TEXT_LENGTH + 1) :
    Accepted isSafe mentions false (line :: lines) ↔
      BaseNodeSchema isSafe (nextBlock mentions line lines).1 = true ∧
        Accepted isSafe mentions false (nextBlock mentions line lines).2 := by
  have hline : utf16Length (lineText line) ≤ MAX_TEXT_LENGTH :=
    Nat.le_trans (utf16Length_mono (lineText_sublist line))
      (length_of_mem hlength line List.mem_cons_self)
  have hitem {type : NodeType} {attrs : Attributes} (htype : type ≠ .text)
      (hattrs : validAttributes type attrs = true) {text : Text}
      (h : utf16Length text ≤ MAX_TEXT_LENGTH) :
      BaseNodeSchema isSafe (.node type attrs none [] [paragraphOf text mentions]) = true ↔
        LinksAccepted isSafe mentions text :=
    BaseNodeSchema_item hmentions htype hattrs h
  have hmem := lineType_mem line
  simp only [List.mem_cons, List.not_mem_nil, or_false] at hmem
  rw [nextBlock_eq_blockOf]
  rcases hmem with htype | htype | htype | htype | htype | htype | htype | htype
  · obtain ⟨language, hlanguage⟩ := Option.isSome_iff_exists.mp (fence_of_lineType htype)
    rw [Accepted, hlanguage, htype, blockOf, hlanguage, Option.getD_some, BaseNodeSchema_codeBlock
      (Nat.le_trans (joined_mono (List.sublist_cons_self _ _)) hlength), accepted_inCode]
    rfl
  · rw [accepted_cons (fence_of_lineType_ne (by rw [htype]; decide)), lineText, htype]
    exact and_congr_left' (iff_of_true (linksAccepted_nil) rfl)
  · rw [htype]
    refine accepted_group Prod.snd (by decide) rfl (fun other found h => ?_)
      (fun found h => hitem (by decide) (by simp [validAttributes]) h) hlength
    rw [lineText, lineType_of_task (Option.isSome_iff_exists.mpr ⟨_, h⟩), h]
    exact ⟨by decide, rfl⟩
  · rw [htype]
    refine accepted_group id (by decide) rfl (fun other found h => ?_)
      (fun found h => hitem (by decide) rfl h) hlength
    rw [lineText, lineType_of_bullet (Option.isSome_iff_exists.mpr ⟨_, h⟩), h]
    exact ⟨by decide, rfl⟩
  · rw [htype]
    refine accepted_group id (by decide) rfl (fun other found h => ?_)
      (fun found h => hitem (by decide) rfl h) hlength
    rw [lineText, lineType_of_ordered (Option.isSome_iff_exists.mpr ⟨_, h⟩), h]
    exact ⟨by decide, rfl⟩
  · obtain ⟨⟨level, text⟩, hheading⟩ := Option.isSome_iff_exists.mp (heading_of_lineType htype)
    obtain ⟨hlevel, -⟩ := of_heading hheading
    have htext : lineText line = text := by
      rw [lineText, htype, hheading]
      rfl
    rw [accepted_cons (fence_of_lineType_ne (by rw [htype]; decide)), htext, htype, blockOf,
      hheading]
    rw [htext] at hline
    refine and_congr_left' ?_
    rw [← BaseNodeSchemas_parseInline hmentions hline]
    exact (BaseNodeSchema_block (by decide) (by simp [validAttributes, hlevel])).symm
  · rw [htype]
    refine accepted_group id (by decide) rfl (fun other found h => ?_)
      (fun found h => BaseNodeSchema_paragraphOf hmentions h) hlength
    rw [lineText, lineType_of_quote (Option.isSome_iff_exists.mpr ⟨_, h⟩), h]
    exact ⟨by decide, rfl⟩
  · have htext : lineText line = line := by rw [lineText, htype]
    rw [accepted_cons (fence_of_lineType_ne (by rw [htype]; decide)), htext, htype]
    rw [htext] at hline
    exact and_congr_left' (BaseNodeSchema_paragraphOf hmentions hline).symm

theorem accepted_parseBlocks {fuel : Nat} {lines : List Text} (hfuel : lines.length ≤ fuel)
    (hlength : utf16Length (joined lines) ≤ MAX_TEXT_LENGTH + 1) :
    Accepted isSafe mentions false lines ↔
      ∀ node ∈ parseBlocks mentions fuel lines, BaseNodeSchema isSafe node = true := by
  induction fuel generalizing lines with
  | zero =>
    rw [List.length_eq_zero_iff.mp (Nat.le_zero.mp hfuel)]
    exact iff_of_true trivial (List.forall_mem_nil _)
  | succ fuel ih =>
    cases lines with
    | nil => exact iff_of_true trivial (List.forall_mem_nil _)
    | cons line lines =>
      have hsuffix : (nextBlock mentions line lines).2.Sublist lines :=
        (nextBlock_suffix mentions line lines).sublist
      rw [accepted_nextBlock hmentions hlength, parseBlocks, List.forall_mem_cons,
        ih (Nat.le_trans hsuffix.length_le (Nat.le_of_succ_le_succ hfuel))
          (Nat.le_trans (joined_mono (hsuffix.cons line)) hlength)]

end

/-! ### Depth -/

theorem depth_le_iff {nodes : List Node} {d : Nat} :
    (measures nodes).2 ≤ d ↔ ∀ node ∈ nodes, (RichTextSchema.measure node).2 ≤ d := by
  induction nodes with
  | nil => exact iff_of_true (Nat.zero_le d) (List.forall_mem_nil _)
  | cons node nodes ih => rw [measures, List.forall_mem_cons, ← ih, Nat.max_le]

theorem depth_node {type : NodeType} {attrs : Attributes} {content : List Node} {d : Nat}
    (h : ∀ node ∈ content, (RichTextSchema.measure node).2 ≤ d) :
    (RichTextSchema.measure (.node type attrs none [] content)).2 ≤ d + 1 :=
  Nat.succ_le_succ (depth_le_iff.mpr h)

theorem depth_parseInline (text : Text) : ∀ run ∈ parseInline text mentions,
    (RichTextSchema.measure run).2 ≤ 1 := by
  intro run hrun
  rcases isRun_of_parseInline text run hrun with ⟨mention, -, rfl⟩ | ⟨text, marks, rfl, -⟩
  · exact Nat.le_refl 1
  · exact Nat.le_refl 1

/-- A list has items, these paragraphs, and these runs. -/
theorem depth_nextBlock (line : Text) (lines : List Text) :
    (RichTextSchema.measure (nextBlock mentions line lines).1).2 ≤ 4 := by
  have hparagraph (text : Text) : (RichTextSchema.measure (paragraphOf text mentions)).2 ≤ 2 :=
    depth_node (depth_parseInline text)
  have hitem {type : NodeType} {attrs : Attributes} (text : Text) :
      (RichTextSchema.measure (.node type attrs none [] [paragraphOf text mentions])).2 ≤ 3 :=
    depth_node (List.forall_mem_singleton.mpr (hparagraph text))
  rw [nextBlock_eq_blockOf]
  cases lineType line
  case codeBlock => exact Nat.le_of_ble_eq_true rfl
  case horizontalRule => exact Nat.le_of_ble_eq_true rfl
  case taskList | bulletList | orderedList =>
    exact depth_node (List.forall_mem_map.mpr fun found _ => hitem _)
  case blockquote =>
    exact Nat.le_succ_of_le (depth_node (List.forall_mem_map.mpr fun text _ => hparagraph text))
  case heading => exact Nat.le_trans (depth_node (depth_parseInline _)) (by decide)
  all_goals exact Nat.le_trans (hparagraph line) (by decide)

theorem depth_parseBlocks (fuel : Nat) (lines : List Text) :
    ∀ node ∈ parseBlocks mentions fuel lines, (RichTextSchema.measure node).2 ≤ 4 := by
  induction fuel generalizing lines with
  | zero => exact List.forall_mem_nil _
  | succ fuel ih =>
    cases lines with
    | nil => exact List.forall_mem_nil _
    | cons line lines => exact List.forall_mem_cons.mpr ⟨depth_nextBlock line lines, ih _⟩

end

/-- **A draft within the limits is accepted if and only if its links and its languages are.** -/
theorem RichTextDocument_parseFormattedText_iff {isSafe : Text → Bool}
    {mentions : List PendingMention} {text : Text}
    (hmentions : ∀ mention ∈ mentions,
      Backlinks.isValidId mention.userId = true ∧ validLabel 120 mention.label = true)
    (htext : utf16Length text ≤ MAX_TEXT_LENGTH)
    (hnodes : (RichTextSchema.measure (parseFormattedText text mentions)).1 ≤ MAX_NODES) :
    RichTextDocument isSafe (parseFormattedText text mentions) = true ↔
      Accepted isSafe mentions false (text.splitOn '\n') := by
  have hlength : utf16Length (joined (text.splitOn '\n')) ≤ MAX_TEXT_LENGTH + 1 := by
    rw [joined_eq (List.splitOn_ne_nil '\n' text), List.intercalate_splitOn]
    simp only [utf16Length, List.map_append, List.sum_append] at htext ⊢
    simpa using htext
  have hdepth : (RichTextSchema.measure (parseFormattedText text mentions)).2 ≤ MAX_DEPTH :=
    Nat.le_trans (depth_node (depth_parseBlocks _ _)) (by decide)
  have hdoc : (parseFormattedText text mentions).type = .doc := rfl
  rw [accepted_parseBlocks hmentions (Nat.le_refl _) hlength, ← BaseNodeSchemas_iff,
    RichTextDocument, hdoc]
  simp only [hdepth, hnodes, decide_true, Bool.and_true]
  exact BaseNodeSchema_block (by decide) rfl

/-- A link in a list, a mention behind it, and a fence. -/
def sampleDraft : Text := "- [mail](mailto:a@b.c) @Ann\n```ts\n1. x".toList

theorem accepted_sampleDraft :
    Accepted (fun _ => true) [⟨"01890a5d-ac96-774b-bcce-b302099a8057", ['A', 'n', 'n']⟩] false
      (sampleDraft.splitOn '\n') :=
  (RichTextDocument_parseFormattedText_iff (by decide +kernel) (by decide +kernel)
    (by decide +kernel)).mp (by decide +kernel)

/-- A fence whose language has a character too many. -/
def longFence : Text := ['`', '`', '`'] ++ List.replicate 41 'a'

theorem parseFormattedText_rejected :
    ¬∀ (isSafe : Text → Bool) (text : Text) (mentions : List PendingMention),
      (∀ mention ∈ mentions,
        Backlinks.isValidId mention.userId = true ∧ validLabel 120 mention.label = true) →
      utf16Length text ≤ MAX_TEXT_LENGTH →
      (RichTextSchema.measure (parseFormattedText text mentions)).1 ≤ MAX_NODES →
      RichTextDocument isSafe (parseFormattedText text mentions) = true :=
  fun h => absurd (h (fun _ => true) longFence [] (List.forall_mem_nil _) (by decide +kernel)
    (by decide +kernel)) (by decide +kernel)

end RichTextCompose
end TaskFlow
