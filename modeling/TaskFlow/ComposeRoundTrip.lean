import Mathlib.Data.List.Chain
import Mathlib.Data.List.TakeWhile
import TaskFlow.ComposeLines

/-! # Editing a page without changing its text

A block is `Readable` if its text is that of a block of its kind: each of its lines begins like one
and is read back, and there is nothing in it that is not written.  What `parseFormattedText` reads
is made of such blocks, of which no two that follow each other would be one
(`readableDocument_parseFormattedText`), and it is read again from what it is written as.  So a page
is saved as it was if and only if it is a `ReadableDocument` (`saved_eq_iff`).
-/
namespace TaskFlow
namespace RichTextCompose
open LeftmostLexer RichTextSchema
open RichText (Text isSpace)

def listItemOf (runs : List Node) : Node := block .listItem [block .paragraph runs]

def taskItemOf (item : Bool × List Node) : Node :=
  .node .taskItem { checked := some item.1 } none [] [block .paragraph item.2]

inductive Readable (mentions : List PendingMention) : Node → Prop where
  /-- The line is one, and no line of another block. -/
  | paragraph (runs : List Node) (hread : ReadBack mentions runs)
      (hline : '\n' ∉ serializeInline runs)
      (htype : lineType (serializeInline runs) = .paragraph) :
      Readable mentions (block .paragraph runs)
  | heading (level : Nat) (runs : List Node) (hlevel : 1 ≤ level ∧ level ≤ 6)
      (hread : ReadBack mentions runs) (htight : Tight (serializeInline runs)) :
      Readable mentions (.node .heading { level := some level } none [] runs)
  | blockquote (paragraphs : List (List Node)) (hne : paragraphs ≠ [])
      (hparagraphs : ∀ runs ∈ paragraphs,
        ReadBack mentions runs ∧ (serializeInline runs).any isLineTerminator = false) :
      Readable mentions (block .blockquote (paragraphs.map (block .paragraph)))
  /-- The language is a word, and no line of the code a fence. -/
  | codeBlock (language : Option Text) (text : Text)
      (hlanguage : ∀ name ∈ language, name ≠ [] ∧ name.all isLanguageChar)
      (hfence : ∀ line ∈ text.splitOn '\n', CODE_FENCE_LINE line = none) :
      Readable mentions (.node .codeBlock { language := language } none [] [textRun text []])
  | horizontalRule : Readable mentions (block .horizontalRule [])
  /-- No item is written as a task is. -/
  | bulletList (items : List (List Node)) (hne : items ≠ [])
      (hitems : ∀ runs ∈ items, ReadBack mentions runs ∧ Tight (serializeInline runs) ∧
        TASK_LIST_LINE ('-' :: ' ' :: serializeInline runs) = none) :
      Readable mentions (block .bulletList (items.map listItemOf))
  | orderedList (items : List (List Node)) (hne : items ≠ [])
      (hitems : ∀ runs ∈ items, ReadBack mentions runs ∧ Tight (serializeInline runs)) :
      Readable mentions (block .orderedList (items.map listItemOf))
  | taskList (items : List (Bool × List Node)) (hne : items ≠ [])
      (hitems : ∀ item ∈ items, ReadBack mentions item.2 ∧ Tight (serializeInline item.2)) :
      Readable mentions (block .taskList (items.map taskItemOf))

/-- Nothing but readable blocks, of which no two lists of one kind and no two quotes follow each
other. -/
structure ReadableDocument (mentions : List PendingMention) (document : Node) : Prop where
  doc : document = block .doc document.content
  nonempty : document.content ≠ []
  blocks : ∀ node ∈ document.content, Readable mentions node
  apart : document.content.IsChain fun a b => ¬(a.type ∈ GROUPS ∧ b.type = a.type)

/-! ### What is read is readable -/

section
variable {mentions : List PendingMention} {line text : Text} {lines rest : List Text} {node : Node}

theorem readBack_parseInline (text : Text) (mentions : List PendingMention) :
    ReadBack mentions (parseInline text mentions) := by
  rw [← parseInline_serializeInline_iff, serializeInline_parseInline]

theorem tight_of_task {item : Bool × Text} (h : TASK_LIST_LINE line = some item) :
    Tight item.2 := by
  unfold TASK_LIST_LINE at h
  split at h
  · split at h
    · split at h
      · split at h
        · obtain ⟨text, htext, rfl⟩ := Option.map_eq_some_iff.mp h
          exact tight_of_afterSpaces htext
        · cases h
      · cases h
    · cases h
  · cases h

/-- A bullet that is no task is none when it is written again. -/
theorem of_bulletLine (h : bulletLine line = some text) :
    Tight text ∧ TASK_LIST_LINE ('-' :: ' ' :: text) = none := by
  unfold bulletLine at h
  split at h
  · cases h
  · next htask =>
    rw [Bool.not_eq_true, Option.isSome_eq_false_iff, Option.isNone_iff_eq_none] at htask
    unfold BULLET_LIST_LINE at h
    split at h
    · next c line =>
      split at h
      · next hc =>
        have htight := tight_of_afterSpaces h
        refine ⟨htight, ?_⟩
        unfold afterSpaces at h
        split at h
        · cases h
        · next d line =>
          split at h
          · next hd =>
            simp only [] at h
            split at h
            · cases h
            · obtain rfl := Option.some.inj h
              unfold TASK_LIST_LINE at htask ⊢
              simp only [] at htask ⊢
              rw [if_pos ⟨hc, hd⟩] at htask
              rw [if_pos ⟨.inl trivial, by decide⟩, dropWhile_of_first htight.first]
              exact htask
          · cases h
      · cases h
    · cases h

theorem tight_of_ordered (h : ORDERED_LIST_LINE line = some text) : Tight text := by
  unfold ORDERED_LIST_LINE at h
  split at h
  · cases h
  · split at h
    · exact tight_of_afterSpaces h
    · cases h

theorem inLine_of_quote (h : BLOCKQUOTE_LINE line = some text) :
    text.any isLineTerminator = false := by
  unfold BLOCKQUOTE_LINE at h
  split at h
  · obtain ⟨hline, hrest⟩ := Option.ite_none_left_eq_some.mp h
    rw [← Option.some.inj hrest]
    simpa using hline
  · cases h

theorem of_heading {level : Nat} (h : HEADING_LINE line = some (level, text)) :
    (1 ≤ level ∧ level ≤ 6) ∧ Tight text := by
  unfold HEADING_LINE at h
  simp only [] at h
  split at h
  · next hlevel =>
    obtain ⟨text', htext, hpair⟩ := Option.map_eq_some_iff.mp h
    obtain ⟨rfl, rfl⟩ := Prod.mk.inj hpair
    exact ⟨hlevel, tight_of_afterSpaces htext⟩
  · cases h

theorem languageChars_of_fence (h : CODE_FENCE_LINE line = some text) :
    text.all isLanguageChar := by
  unfold CODE_FENCE_LINE at h
  split at h
  · simp only [] at h
    split at h
    · obtain rfl := Option.some.inj h
      exact List.all_takeWhile
    · cases h
  · cases h

theorem lineType_mem (line : Text) : lineType line ∈ [NodeType.codeBlock, .horizontalRule,
    .taskList, .bulletList, .orderedList, .heading, .blockquote, .paragraph] := by
  unfold lineType
  split_ifs <;> simp

/-- A block is of the type of its first line. -/
theorem type_nextBlock (mentions : List PendingMention) (line : Text) (lines : List Text) :
    (nextBlock mentions line lines).1.type = lineType line := by
  have hmem := lineType_mem line
  rw [nextBlock_eq_blockOf]
  generalize lineType line = type at hmem ⊢
  simp only [List.mem_cons, List.not_mem_nil, or_false] at hmem
  rcases hmem with rfl | rfl | rfl | rfl | rfl | rfl | rfl | rfl <;> rfl

theorem forall_collect {γ : Type} {match? : Text → Option γ} {P : γ → Prop}
    (h : ∀ line value, match? line = some value → P value) :
    ∀ value ∈ (collect match? lines).1, P value := by
  intro value hvalue
  obtain ⟨taken, -, hmap, -⟩ := collect_spec match? lines
  have hmem : some value ∈ taken.map match? := hmap ▸ List.mem_map_of_mem hvalue
  obtain ⟨line, -, hline⟩ := List.mem_map.mp hmem
  exact h line value hline

theorem mem_of_collect {γ : Type} {match? : Text → Option γ} :
    ∀ line ∈ (collect match? lines).2, line ∈ lines := by
  obtain ⟨taken, hlines, -, -⟩ := collect_spec match? lines
  intro line hline
  rw [hlines]
  exact List.mem_append_right _ hline

theorem head_of_collect {γ : Type} {match? : Text → Option γ} :
    ∀ line ∈ (collect match? lines).2.head?, match? line = none := by
  obtain ⟨-, -, -, hhead⟩ := collect_spec match? lines
  exact hhead

/-- The line that a block begins with is one of its lines. -/
theorem ne_nil_of_collect {γ : Type} {match? : Text → Option γ} (h : (match? line).isSome) :
    (collect match? (line :: lines)).1 ≠ [] := by
  obtain ⟨value, hvalue⟩ := Option.isSome_iff_exists.mp h
  rw [collect, hvalue]
  exact List.cons_ne_nil _ _

theorem mem_of_nextBlock : ∀ other ∈ (nextBlock mentions line lines).2, other ∈ line :: lines := by
  rw [nextBlock_eq_blockOf]
  intro other hother
  cases htype : lineType line <;> rw [htype] at hother
  case codeBlock =>
    exact List.mem_cons_of_mem _
      ((List.dropWhile_sublist _).subset (List.mem_of_mem_drop hother))
  case taskList | bulletList | orderedList | blockquote => exact mem_of_collect other hother
  all_goals exact List.mem_cons_of_mem _ hother

/-- A block does not end before a line that it goes on with. -/
theorem not_continues_of_nextBlock :
    ∀ other ∈ (nextBlock mentions line lines).2.head?, continues (lineType line) other = false := by
  rw [nextBlock_eq_blockOf]
  intro other hother
  cases htype : lineType line <;> rw [htype] at hother
  case taskList | bulletList | orderedList | blockquote =>
    simp [continues, head_of_collect other hother]
  all_goals rfl

theorem readable_codeBlock {language : Text} (hlanguage : language.all isLanguageChar)
    (hlines : ∀ line ∈ lines, '\n' ∉ line) : Readable mentions (codeBlock language lines).1 := by
  refine .codeBlock _ _ (fun name hname => ?_) fun line hline => ?_
  · split at hname
    · cases hname
    · next hne =>
      obtain rfl := Option.some.inj hname
      exact ⟨hne, hlanguage⟩
  · generalize hcode : (lines.takeWhile fun line => (CODE_FENCE_LINE line).isNone) = code at hline
    by_cases hnil : code = []
    · rw [hnil] at hline
      obtain rfl := List.mem_singleton.mp hline
      rfl
    · have hmem : ∀ line ∈ code, line ∈ lines := fun line h =>
        (List.takeWhile_sublist _).subset (hcode ▸ h)
      rw [List.splitOn_intercalate _ (fun line h => hlines line (hmem line h)) hnil,
        ← hcode] at hline
      simpa using List.all_eq_true.mp List.all_takeWhile line hline

theorem fence_of_lineType (h : lineType line = .codeBlock) : (CODE_FENCE_LINE line).isSome := by
  unfold lineType at h
  split_ifs at h with hfence
  exact hfence

theorem heading_of_lineType (h : lineType line = .heading) : (HEADING_LINE line).isSome := by
  unfold lineType at h
  split_ifs at h with _ _ _ _ _ hheading
  exact hheading

theorem map_taskItemOf (items : List (Bool × Text)) :
    (items.map fun item => (item.1, parseInline item.2 mentions)).map taskItemOf =
      items.map (taskItem mentions) :=
  List.map_map

theorem map_listItemOf (texts : List Text) :
    (texts.map (parseInline · mentions)).map listItemOf = texts.map (listItem mentions) :=
  List.map_map

theorem map_paragraph (texts : List Text) :
    (texts.map (parseInline · mentions)).map (block .paragraph) =
      texts.map (paragraphOf · mentions) :=
  List.map_map

theorem forall_parseInline {P : Text → Prop} {texts : List Text} (h : ∀ text ∈ texts, P text) :
    ∀ runs ∈ texts.map (parseInline · mentions),
      ReadBack mentions runs ∧ P (serializeInline runs) := by
  refine List.forall_mem_map.mpr fun text htext => ⟨readBack_parseInline text mentions, ?_⟩
  rw [serializeInline_parseInline]
  exact h text htext

/-- What is read is readable. -/
theorem readable_nextBlock (hnewline : ∀ other ∈ line :: lines, '\n' ∉ other) :
    Readable mentions (nextBlock mentions line lines).1 := by
  have hmem := lineType_mem line
  rw [nextBlock_eq_blockOf]
  simp only [List.mem_cons, List.not_mem_nil, or_false] at hmem
  rcases hmem with htype | htype | htype | htype | htype | htype | htype | htype <;> rw [htype]
  · obtain ⟨language, hlanguage⟩ := Option.isSome_iff_exists.mp (fence_of_lineType htype)
    refine readable_codeBlock ?_ fun other h => hnewline other (List.mem_cons_of_mem _ h)
    rw [hlanguage]
    exact languageChars_of_fence hlanguage
  · exact .horizontalRule
  · rw [blockOf, ← map_taskItemOf]
    refine .taskList _ ?_ fun item hitem => ?_
    · simpa using ne_nil_of_collect (continues_of_lineType htype (by decide))
    · obtain ⟨found, hfound, rfl⟩ := List.mem_map.mp hitem
      refine ⟨readBack_parseInline _ _, ?_⟩
      rw [serializeInline_parseInline]
      exact forall_collect (fun _ _ h => tight_of_task h) found hfound
  · rw [blockOf, ← map_listItemOf]
    refine .bulletList _ ?_ (forall_parseInline
      (P := fun text => Tight text ∧ TASK_LIST_LINE ('-' :: ' ' :: text) = none)
      (forall_collect fun _ _ h => of_bulletLine h))
    simpa using ne_nil_of_collect (continues_of_lineType htype (by decide))
  · rw [blockOf, ← map_listItemOf]
    refine .orderedList _ ?_ (forall_parseInline (P := Tight)
      (forall_collect fun _ _ h => tight_of_ordered h))
    simpa using ne_nil_of_collect (continues_of_lineType htype (by decide))
  · obtain ⟨⟨level, text⟩, hheading⟩ := Option.isSome_iff_exists.mp (heading_of_lineType htype)
    obtain ⟨hlevel, htight⟩ := of_heading hheading
    rw [blockOf, hheading]
    refine .heading level _ hlevel (readBack_parseInline _ _) ?_
    rw [serializeInline_parseInline]
    exact htight
  · rw [blockOf, ← map_paragraph]
    refine .blockquote _ ?_ (forall_parseInline (P := fun text => text.any isLineTerminator = false)
      (forall_collect fun _ _ h => inLine_of_quote h))
    simpa using ne_nil_of_collect (continues_of_lineType htype (by decide))
  · refine .paragraph _ (readBack_parseInline line mentions) ?_ ?_
    · rw [serializeInline_parseInline]
      exact hnewline line List.mem_cons_self
    · rw [serializeInline_parseInline, htype]

/-- Of what is read, no two blocks that follow each other would be one. -/
theorem readable_parseBlocks (mentions : List PendingMention) (fuel : Nat) (lines : List Text)
    (hnewline : ∀ line ∈ lines, '\n' ∉ line) :
    (∀ node ∈ parseBlocks mentions fuel lines, Readable mentions node) ∧
      ((parseBlocks mentions fuel lines).IsChain fun a b => ¬(a.type ∈ GROUPS ∧ b.type = a.type)) ∧
      ∀ node ∈ (parseBlocks mentions fuel lines).head?, ∃ line ∈ lines.head?,
        node.type = lineType line := by
  induction fuel generalizing lines with
  | zero => exact ⟨by simp [parseBlocks], by simp [parseBlocks], by simp [parseBlocks]⟩
  | succ fuel ih =>
    cases lines with
    | nil => exact ⟨by simp [parseBlocks], by simp [parseBlocks], by simp [parseBlocks]⟩
    | cons line lines =>
      obtain ⟨hreadable, hchain, hhead⟩ := ih (nextBlock mentions line lines).2
        fun other hother => hnewline other (mem_of_nextBlock other hother)
      rw [parseBlocks]
      refine ⟨List.forall_mem_cons.mpr ⟨readable_nextBlock hnewline, hreadable⟩, ?_, ?_⟩
      · refine List.isChain_cons.mpr ⟨fun node hnode => ?_, hchain⟩
        rintro ⟨hgroup, hsame⟩
        obtain ⟨other, hother, htype⟩ := hhead node hnode
        rw [type_nextBlock] at hgroup hsame
        have hnot := not_continues_of_nextBlock other hother
        rw [continues_of_lineType (htype.symm.trans hsame) hgroup] at hnot
        cases hnot
      · intro node hnode
        obtain rfl := Option.some.inj hnode
        exact ⟨line, rfl, type_nextBlock mentions line lines⟩

/-! ### What is readable is read from what it is written as -/

theorem task_written (checked : Bool) (h : Tight text) :
    TASK_LIST_LINE ('-' :: ' ' :: '[' :: (if checked then 'x' else ' ') :: ']' :: ' ' :: text) =
      some (checked, text) := by
  have hspaces : ('[' :: (if checked then 'x' else ' ') :: ']' :: ' ' :: text).dropWhile isSpace =
      '[' :: (if checked then 'x' else ' ') :: ']' :: ' ' :: text :=
    List.dropWhile_cons_of_neg (by decide)
  have hmark : (if checked then 'x' else ' ') ∈ [' ', 'x', 'X'] := by
    cases checked <;> decide
  rw [TASK_LIST_LINE, if_pos ⟨.inl rfl, by decide⟩, hspaces]
  simp only []
  rw [if_pos hmark, afterSpaces_space h]
  cases checked <;> rfl

theorem bullet_written (h : Tight text) (htask : TASK_LIST_LINE ('-' :: ' ' :: text) = none) :
    bulletLine ('-' :: ' ' :: text) = some text := by
  rw [bulletLine, htask, if_neg (by decide), BULLET_LIST_LINE, if_pos (.inl rfl),
    afterSpaces_space h]

theorem ordered_written (n : Nat) (h : Tight text) :
    ORDERED_LIST_LINE (Nat.toDigits 10 n ++ '.' :: ' ' :: text) = some text := by
  have hdigits : ∀ c ∈ Nat.toDigits 10 n, c.isDigit = true := fun c hc =>
    Nat.isDigit_of_mem_toDigits (by decide) (by decide) hc
  have hpoint : Char.isDigit '.' = false := by decide
  unfold ORDERED_LIST_LINE
  rw [List.takeWhile_append_of_pos hdigits, List.dropWhile_append_of_pos hdigits,
    List.takeWhile_cons_of_neg (by simp [hpoint]), List.dropWhile_cons_of_neg (by simp [hpoint]),
    List.append_nil, if_neg Nat.toDigits_ne_nil]
  exact afterSpaces_space h

theorem quote_written (h : text.any isLineTerminator = false) :
    BLOCKQUOTE_LINE ('>' :: ' ' :: text) = some text := by
  have hspace : (List.take 1 (' ' :: text)).any isSpace = true := by
    rw [List.take_succ_cons, List.any_cons]
    exact Bool.or_eq_true_iff.mpr (.inl (by decide))
  rw [BLOCKQUOTE_LINE, if_pos hspace, List.drop_succ_cons, List.drop_zero, if_neg (by simp [h])]

theorem heading_written {level : Nat} (hlevel : 1 ≤ level ∧ level ≤ 6) (h : Tight text) :
    HEADING_LINE (List.replicate level '#' ++ ' ' :: text) = some (level, text) := by
  have hhashes : ∀ c ∈ List.replicate level '#', decide (c = '#') = true := fun c hc => by
    simp [List.eq_of_mem_replicate hc]
  unfold HEADING_LINE
  rw [List.takeWhile_append_of_pos hhashes, List.dropWhile_append_of_pos hhashes,
    List.takeWhile_cons_of_neg (by decide), List.dropWhile_cons_of_neg (by decide),
    List.append_nil, List.length_replicate, if_pos hlevel, afterSpaces_space h]
  rfl

theorem not_isSpace_of_isLanguageChar {c : Char} (h : isLanguageChar c) : isSpace c = false := by
  have hcode : (48 ≤ c.toNat ∧ c.toNat ≤ 122) ∨ c.toNat = 45 := by
    unfold isLanguageChar Char.isAlphanum Char.isAlpha Char.isUpper Char.isLower at h
    simp only [Char.isDigit, Bool.or_eq_true, Bool.and_eq_true, decide_eq_true_eq, ge_iff_le,
      UInt32.le_iff_toNat_le] at h
    rcases h with (((⟨hmin, hmax⟩ | ⟨hmin, hmax⟩) | ⟨hmin, hmax⟩) | rfl) | rfl
    · change 65 ≤ c.toNat at hmin
      change c.toNat ≤ 90 at hmax
      omega
    · change 97 ≤ c.toNat at hmin
      change c.toNat ≤ 122 at hmax
      omega
    · change 48 ≤ c.toNat at hmin
      change c.toNat ≤ 57 at hmax
      omega
    · exact .inl (by decide)
    · exact .inr rfl
  simp only [isSpace, List.mem_cons, List.not_mem_nil, or_false, decide_eq_false_iff_not]
  omega

theorem fence_written {language : Text} (h : language.all isLanguageChar) :
    CODE_FENCE_LINE ('`' :: '`' :: '`' :: language) = some language := by
  have hall : ∀ c ∈ language, isLanguageChar c = true := List.all_eq_true.mp h
  have hspaces : language.dropWhile isSpace = language := dropWhile_of_first fun c hc =>
    not_isSpace_of_isLanguageChar (hall c (List.mem_of_head? hc))
  unfold CODE_FENCE_LINE
  simp only []
  rw [hspaces, List.takeWhile_eq_self_iff.mpr hall, List.dropWhile_eq_nil_iff.mpr hall]
  rfl

theorem listItem_serializeInline {runs : List Node} (h : ReadBack mentions runs) :
    listItem mentions (serializeInline runs) = listItemOf runs := by
  rw [listItem, paragraphOf, parseInline_serializeInline_iff.mpr h, listItemOf]

theorem taskItem_serializeInline {item : Bool × List Node} (h : ReadBack mentions item.2) :
    taskItem mentions (item.1, serializeInline item.2) = taskItemOf item := by
  rw [taskItem, paragraphOf, parseInline_serializeInline_iff.mpr h, taskItemOf]

theorem paragraphOf_serializeInline {runs : List Node} (h : ReadBack mentions runs) :
    paragraphOf (serializeInline runs) mentions = block .paragraph runs := by
  rw [paragraphOf, parseInline_serializeInline_iff.mpr h]

theorem serializeBlock_heading {level : Nat} {runs : List Node} (hlevel : 1 ≤ level ∧ level ≤ 6) :
    serializeBlock (.node .heading { level := some level } none [] runs) =
      [List.replicate level '#' ++ ' ' :: serializeInline runs] := by
  have hclamp : min (max level 1) 6 = level := by omega
  simp [serializeBlock, Node.type, Node.attrs, Node.content, hclamp]

theorem serializeBlock_blockquote (paragraphs : List (List Node)) :
    serializeBlock (block .blockquote (paragraphs.map (block .paragraph))) =
      paragraphs.map fun runs => '>' :: ' ' :: serializeInline runs :=
  List.map_map

theorem serializeBlock_codeBlock (language : Option Text) (text : Text) :
    serializeBlock (.node .codeBlock { language := language } none [] [textRun text []]) =
      ('`' :: '`' :: '`' :: language.getD []) :: (text.splitOn '\n' ++ [['`', '`', '`']]) := by
  simp [serializeBlock, Node.type, Node.attrs, Node.content, Node.text, textRun]

theorem serializeBlock_bulletList (items : List (List Node)) :
    serializeBlock (block .bulletList (items.map listItemOf)) =
      items.map fun runs => '-' :: ' ' :: serializeInline runs :=
  List.map_map

theorem serializeBlock_orderedList (items : List (List Node)) :
    serializeBlock (block .orderedList (items.map listItemOf)) = items.mapIdx fun index runs =>
      Nat.toDigits 10 (index + 1) ++ '.' :: ' ' :: serializeInline runs := by
  change (items.map listItemOf).mapIdx _ = _
  refine List.ext_getElem (by simp) fun index _ _ => ?_
  simp only [List.getElem_mapIdx, List.getElem_map]
  rfl

theorem serializeBlock_taskList (items : List (Bool × List Node)) :
    serializeBlock (block .taskList (items.map taskItemOf)) = items.map fun item =>
      '-' :: ' ' :: '[' :: (if item.1 then 'x' else ' ') :: ']' :: ' ' ::
        serializeInline item.2 := by
  refine List.map_map.trans (List.map_congr_left fun item _ => ?_)
  obtain ⟨checked, runs⟩ := item
  cases checked <;> rfl

/-- A block is read from its lines, if what follows begins another one. -/
def Reads (mentions : List PendingMention) (node : Node) : Prop :=
  ∃ line lines, serializeBlock node = line :: lines ∧ ∀ rest : List Text,
    (∀ other ∈ rest.head?, continues node.type other = false) →
      nextBlock mentions line (lines ++ rest) = (node, rest)

/-- A block that collects its lines, each of which matches. -/
theorem reads_group {γ : Type} {type : NodeType} {match? : Text → Option γ} {item : γ → Node}
    {texts : List Text} {values : List γ} (hcontinues : ∀ line,
      continues type line = (match? line).isSome)
    (hblock : ∀ line lines, blockOf mentions line lines type =
      (block type ((collect match? (line :: lines)).1.map item),
        (collect match? (line :: lines)).2))
    (hlines : serializeBlock (block type (values.map item)) = texts) (hne : values ≠ [])
    (hmatch : texts.map match? = values.map some) :
    Reads mentions (block type (values.map item)) := by
  obtain ⟨value, values', rfl⟩ := List.exists_cons_of_ne_nil hne
  cases texts with
  | nil => cases hmatch
  | cons line lines =>
    refine ⟨line, lines, hlines, fun rest hrest => ?_⟩
    have hline : match? line = some value := (List.cons.inj hmatch).1
    have htype : lineType line = type := lineType_of_continues (by
      rw [hcontinues, hline]
      rfl)
    have hcollect : collect match? (line :: (lines ++ rest)) = (value :: values', rest) :=
      collect_append hmatch fun other hother => by
        have hother := hrest other hother
        change continues type other = false at hother
        rw [hcontinues] at hother
        simpa using hother
    rw [nextBlock_eq_blockOf, htype, hblock, hcollect]

theorem reads_bulletList {items : List (List Node)} (hne : items ≠ [])
    (hitems : ∀ runs ∈ items, ReadBack mentions runs ∧ Tight (serializeInline runs) ∧
      TASK_LIST_LINE ('-' :: ' ' :: serializeInline runs) = none) :
    Reads mentions (block .bulletList (items.map listItemOf)) := by
  have hvalues : items.map listItemOf = (items.map serializeInline).map (listItem mentions) := by
    rw [List.map_map]
    exact List.map_congr_left fun runs hruns =>
      (listItem_serializeInline (hitems runs hruns).1).symm
  have hlines := serializeBlock_bulletList items
  rw [hvalues] at hlines ⊢
  refine reads_group (fun _ => rfl) (fun _ _ => rfl) hlines (by simpa using hne) ?_
  rw [List.map_map, List.map_map]
  exact List.map_congr_left fun runs hruns =>
    bullet_written (hitems runs hruns).2.1 (hitems runs hruns).2.2

theorem reads_orderedList {items : List (List Node)} (hne : items ≠ [])
    (hitems : ∀ runs ∈ items, ReadBack mentions runs ∧ Tight (serializeInline runs)) :
    Reads mentions (block .orderedList (items.map listItemOf)) := by
  have hvalues : items.map listItemOf = (items.map serializeInline).map (listItem mentions) := by
    rw [List.map_map]
    exact List.map_congr_left fun runs hruns =>
      (listItem_serializeInline (hitems runs hruns).1).symm
  have hlines := serializeBlock_orderedList items
  rw [hvalues] at hlines ⊢
  refine reads_group (fun _ => rfl) (fun _ _ => rfl) hlines (by simpa using hne) ?_
  refine List.ext_getElem (by simp) fun index hindex _ => ?_
  simp only [List.getElem_map, List.getElem_mapIdx]
  exact ordered_written _ (hitems _ (List.getElem_mem _)).2

theorem reads_taskList {items : List (Bool × List Node)} (hne : items ≠ [])
    (hitems : ∀ item ∈ items, ReadBack mentions item.2 ∧ Tight (serializeInline item.2)) :
    Reads mentions (block .taskList (items.map taskItemOf)) := by
  have hvalues : items.map taskItemOf = (items.map fun item =>
      (item.1, serializeInline item.2)).map (taskItem mentions) := by
    rw [List.map_map]
    exact List.map_congr_left fun item hitem =>
      (taskItem_serializeInline (hitems item hitem).1).symm
  have hlines := serializeBlock_taskList items
  rw [hvalues] at hlines ⊢
  refine reads_group (fun _ => rfl) (fun _ _ => rfl) hlines (by simpa using hne) ?_
  rw [List.map_map, List.map_map]
  exact List.map_congr_left fun item hitem => task_written item.1 (hitems item hitem).2

theorem reads_blockquote {paragraphs : List (List Node)} (hne : paragraphs ≠ [])
    (hparagraphs : ∀ runs ∈ paragraphs,
      ReadBack mentions runs ∧ (serializeInline runs).any isLineTerminator = false) :
    Reads mentions (block .blockquote (paragraphs.map (block .paragraph))) := by
  have hvalues : paragraphs.map (block .paragraph) =
      (paragraphs.map serializeInline).map (paragraphOf · mentions) := by
    rw [List.map_map]
    exact List.map_congr_left fun runs hruns =>
      (paragraphOf_serializeInline (hparagraphs runs hruns).1).symm
  have hlines := serializeBlock_blockquote paragraphs
  rw [hvalues] at hlines ⊢
  refine reads_group (fun _ => rfl) (fun _ _ => rfl) hlines (by simpa using hne) ?_
  rw [List.map_map, List.map_map]
  exact List.map_congr_left fun runs hruns => quote_written (hparagraphs runs hruns).2

theorem reads_codeBlock {language : Option Text}
    (hlanguage : ∀ name ∈ language, name ≠ [] ∧ name.all isLanguageChar)
    (hfence : ∀ line ∈ text.splitOn '\n', CODE_FENCE_LINE line = none) :
    Reads mentions (.node .codeBlock { language := language } none [] [textRun text []]) := by
  have hname : (language.getD []).all isLanguageChar = true ∧
      (if language.getD [] = [] then none else some (language.getD [])) = language := by
    cases language with
    | none => exact ⟨rfl, rfl⟩
    | some name =>
      obtain ⟨hne, hall⟩ := hlanguage name rfl
      exact ⟨hall, if_neg hne⟩
  refine ⟨'`' :: '`' :: '`' :: language.getD [], text.splitOn '\n' ++ [['`', '`', '`']],
    serializeBlock_codeBlock language text, fun rest _ => ?_⟩
  have hopen := fence_written hname.1
  have htype : lineType ('`' :: '`' :: '`' :: language.getD []) = .codeBlock := by
    rw [lineType, hopen, Option.isSome_some, if_pos rfl]
  have hcode : ∀ line ∈ text.splitOn '\n', (CODE_FENCE_LINE line).isNone = true :=
    fun line hline => by rw [hfence line hline]; rfl
  have hclose : CODE_FENCE_LINE ['`', '`', '`'] = some [] := fence_written rfl
  rw [nextBlock_eq_blockOf, htype, blockOf, hopen, Option.getD_some, codeBlock,
    List.append_assoc]
  rw [List.takeWhile_append_of_pos hcode, List.dropWhile_append_of_pos hcode]
  simp only [List.singleton_append, List.takeWhile_cons, List.dropWhile_cons, hclose,
    Option.isNone_some, Bool.false_eq_true, if_false, List.append_nil,
    List.intercalate_splitOn, hname.2, List.drop_succ_cons, List.drop_zero]

theorem reads_heading {level : Nat} {runs : List Node} (hlevel : 1 ≤ level ∧ level ≤ 6)
    (hread : ReadBack mentions runs) (htight : Tight (serializeInline runs)) :
    Reads mentions (.node .heading { level := some level } none [] runs) := by
  have hline := heading_written hlevel htight
  have htype : lineType (List.replicate level '#' ++ ' ' :: serializeInline runs) = .heading :=
    lineType_of_heading (by rw [hline]; rfl)
  refine ⟨_, [], serializeBlock_heading hlevel, fun rest _ => ?_⟩
  rw [nextBlock_eq_blockOf, htype, blockOf, hline]
  simp only [Option.map_some, Option.getD_some, List.nil_append,
    parseInline_serializeInline_iff.mpr hread]

theorem reads_paragraph {runs : List Node} (hread : ReadBack mentions runs)
    (htype : lineType (serializeInline runs) = .paragraph) :
    Reads mentions (block .paragraph runs) := by
  refine ⟨serializeInline runs, [], rfl, fun rest _ => ?_⟩
  rw [nextBlock_eq_blockOf, htype]
  change (paragraphOf (serializeInline runs) mentions, rest) = _
  rw [paragraphOf_serializeInline hread]

theorem reads_of_readable (h : Readable mentions node) : Reads mentions node := by
  cases h with
  | paragraph runs hread _ htype => exact reads_paragraph hread htype
  | heading level runs hlevel hread htight => exact reads_heading hlevel hread htight
  | blockquote paragraphs hne hparagraphs => exact reads_blockquote hne hparagraphs
  | codeBlock language text hlanguage hfence => exact reads_codeBlock hlanguage hfence
  | horizontalRule => exact ⟨['-', '-', '-'], [], rfl, fun rest _ => rfl⟩
  | bulletList items hne hitems => exact reads_bulletList hne hitems
  | orderedList items hne hitems => exact reads_orderedList hne hitems
  | taskList items hne hitems => exact reads_taskList hne hitems

/-- The first line of a block begins one of its type. -/
theorem Reads.lineType {first : Text} (h : Reads mentions node)
    (hfirst : first ∈ (serializeBlock node).head?) :
    RichTextCompose.lineType first = node.type := by
  obtain ⟨line, lines, hlines, hread⟩ := h
  rw [hlines] at hfirst
  obtain rfl := Option.some.inj hfirst
  rw [← type_nextBlock mentions line (lines ++ []), hread [] fun _ h => by cases h]

/-- Readable blocks are read from their lines, if no two that follow each other would be one. -/
theorem parseBlocks_of_readable {nodes : List Node}
    (hnodes : ∀ node ∈ nodes, Readable mentions node)
    (hapart : nodes.IsChain fun a b => ¬(a.type ∈ GROUPS ∧ b.type = a.type)) (fuel : Nat)
    (hfuel : (nodes.flatMap serializeBlock).length ≤ fuel) :
    parseBlocks mentions fuel (nodes.flatMap serializeBlock) = nodes := by
  induction nodes generalizing fuel with
  | nil => cases fuel <;> rfl
  | cons node nodes ih =>
    obtain ⟨hnode, hnodes⟩ := List.forall_mem_cons.mp hnodes
    obtain ⟨hnext, hapart⟩ := List.isChain_cons.mp hapart
    obtain ⟨line, lines, hlines, hread⟩ := reads_of_readable hnode
    rw [List.flatMap_cons, hlines] at hfuel ⊢
    have hrest : ∀ other ∈ (nodes.flatMap serializeBlock).head?,
        continues node.type other = false := by
      intro other hother
      cases nodes with
      | nil => cases hother
      | cons next nodes =>
        have hreads := reads_of_readable (hnodes next List.mem_cons_self)
        obtain ⟨first, firsts, hfirsts, -⟩ := hreads
        have hmem : other ∈ (serializeBlock next).head? := by
          rw [List.flatMap_cons, hfirsts] at hother
          rw [hfirsts]
          exact hother
        have htype := (reads_of_readable (hnodes next List.mem_cons_self)).lineType hmem
        rw [Bool.eq_false_iff]
        intro hcontinues
        refine hnext next rfl ⟨?_, htype.symm.trans (lineType_of_continues hcontinues)⟩
        generalize node.type = type at hcontinues
        cases type <;> first | decide | cases hcontinues
    cases fuel with
    | zero => cases hfuel
    | succ fuel =>
      rw [List.cons_append, parseBlocks, hread _ hrest, ih hnodes hapart]
      rw [List.cons_append, List.length_cons, List.length_append] at hfuel
      omega

/-! ### Lines of a text -/

theorem not_mem_of_mem_splitOn {c : Char} : ∀ piece ∈ text.splitOn c, c ∉ piece := by
  induction text with
  | nil => simp
  | cons d text ih =>
    rw [List.splitOn_cons_eq_if_modifyHead]
    split
    · exact List.forall_mem_cons.mpr ⟨List.not_mem_nil, ih⟩
    · next hne =>
      obtain ⟨piece, pieces, hpieces⟩ :=
        List.exists_cons_of_ne_nil (List.splitOn_ne_nil c text)
      rw [hpieces] at ih
      obtain ⟨hpiece, hrest⟩ := List.forall_mem_cons.mp ih
      rw [hpieces, List.modifyHead_cons]
      refine List.forall_mem_cons.mpr ⟨fun h => ?_, hrest⟩
      rcases List.mem_cons.mp h with rfl | h
      · exact hne (beq_self_eq_true c)
      · exact hpiece h

theorem newline_of_inLine (h : text.any isLineTerminator = false) : '\n' ∉ text := fun hmem => by
  have hterminator : isLineTerminator '\n' = false := by simpa using List.any_eq_false.mp h _ hmem
  cases hterminator

theorem newline_of_languageChars (h : text.all isLanguageChar) : '\n' ∉ text := fun hmem => by
  have hchar := List.all_eq_true.mp h _ hmem
  cases hchar

/-- What is written before the runs of a line has no newline in it. -/
theorem newline_append (marker : Text) (hmarker : marker.all (· ≠ '\n')) (h : '\n' ∉ text) :
    '\n' ∉ marker ++ text := by
  rw [List.mem_append, not_or]
  exact ⟨fun hmem => by simpa using List.all_eq_true.mp hmarker _ hmem, h⟩

/-- No line that a readable block is written as has a newline in it. -/
theorem newline_serializeBlock (h : Readable mentions node) :
    ∀ line ∈ serializeBlock node, '\n' ∉ line := by
  cases h with
  | paragraph runs _ hline _ => exact List.forall_mem_singleton.mpr hline
  | heading level runs hlevel _ htight =>
    rw [serializeBlock_heading hlevel]
    refine List.forall_mem_singleton.mpr (newline_append _ ?_
      (newline_append [' '] rfl (newline_of_inLine htight.inLine)))
    rw [List.all_eq_true]
    intro c hc
    rw [List.eq_of_mem_replicate hc]
    rfl
  | blockquote paragraphs _ hparagraphs =>
    rw [serializeBlock_blockquote]
    exact List.forall_mem_map.mpr fun runs hruns =>
      newline_append ['>', ' '] rfl (newline_of_inLine (hparagraphs runs hruns).2)
  | codeBlock language text hlanguage _ =>
    rw [serializeBlock_codeBlock]
    have hname : (language.getD []).all isLanguageChar = true := by
      cases language with
      | none => rfl
      | some name => exact (hlanguage name rfl).2
    refine List.forall_mem_cons.mpr ⟨newline_append ['`', '`', '`'] rfl
      (newline_of_languageChars hname), fun line hline => ?_⟩
    rcases List.mem_append.mp hline with hline | hline
    · exact not_mem_of_mem_splitOn line hline
    · rw [List.mem_singleton.mp hline]
      decide
  | horizontalRule => exact List.forall_mem_singleton.mpr (by decide)
  | bulletList items _ hitems =>
    rw [serializeBlock_bulletList]
    exact List.forall_mem_map.mpr fun runs hruns =>
      newline_append ['-', ' '] rfl (newline_of_inLine (hitems runs hruns).2.1.inLine)
  | orderedList items _ hitems =>
    rw [serializeBlock_orderedList]
    intro line hline
    obtain ⟨index, hindex, rfl⟩ := List.mem_mapIdx.mp hline
    refine newline_append _ ?_ (newline_append ['.', ' '] rfl
      (newline_of_inLine (hitems _ (List.getElem_mem hindex)).2.inLine))
    rw [List.all_eq_true]
    intro c hc
    have hdigit := Nat.isDigit_of_mem_toDigits (by decide) (by decide) hc
    exact decide_eq_true fun h => by
      rw [h] at hdigit
      cases hdigit
  | taskList items _ hitems =>
    rw [serializeBlock_taskList]
    refine List.forall_mem_map.mpr fun item hitem => ?_
    refine newline_append ['-', ' ', '[', if item.1 then 'x' else ' ', ']', ' '] ?_
      (newline_of_inLine (hitems item hitem).2.inLine)
    cases item.1 <;> rfl

/-! ### Documents -/

theorem readableDocument_parseFormattedText (text : Text) (mentions : List PendingMention) :
    ReadableDocument mentions (parseFormattedText text mentions) := by
  obtain ⟨hreadable, hapart, -⟩ :=
    readable_parseBlocks mentions (text.splitOn '\n').length _ not_mem_of_mem_splitOn
  refine ⟨rfl, ?_, hreadable, hapart⟩
  obtain ⟨line, lines, hlines⟩ := List.exists_cons_of_ne_nil (List.splitOn_ne_nil '\n' text)
  change parseBlocks mentions (text.splitOn '\n').length (text.splitOn '\n') ≠ []
  rw [hlines, List.length_cons, parseBlocks]
  exact List.cons_ne_nil _ _

theorem parseFormattedText_serializeToText {document : Node}
    (h : ReadableDocument mentions document) :
    parseFormattedText (serializeToText document) mentions = document := by
  have hnewline : ∀ line ∈ document.content.flatMap serializeBlock, '\n' ∉ line := by
    intro line hline
    obtain ⟨node, hnode, hline⟩ := List.mem_flatMap.mp hline
    exact newline_serializeBlock (h.blocks node hnode) line hline
  have hne : document.content.flatMap serializeBlock ≠ [] := by
    obtain ⟨node, nodes, hnodes⟩ := List.exists_cons_of_ne_nil h.nonempty
    obtain ⟨line, lines, hlines, -⟩ := reads_of_readable (h.blocks node (by rw [hnodes]; simp))
    rw [hnodes, List.flatMap_cons, hlines]
    exact List.cons_ne_nil _ _
  conv_rhs => rw [h.doc]
  unfold parseFormattedText serializeToText
  rw [List.splitOn_intercalate _ hnewline hne]
  exact congrArg (block .doc) (parseBlocks_of_readable h.blocks h.apart _ le_rfl)

/-- A page is saved as it was if and only if it is readable. -/
theorem saved_eq_iff (document : Node) :
    saved document = document ↔ ReadableDocument (extractMentions document) document := by
  constructor
  · intro h
    have hread := readableDocument_parseFormattedText (serializeToText document)
      (extractMentions document)
    change ReadableDocument _ (saved document) at hread
    rwa [h] at hread
  · exact parseFormattedText_serializeToText

end

/-- A paragraph with the text of an item. -/
def numberedPage : Node :=
  block .doc [block .paragraph [textRun "2024. A year".toList []]]

/-- A list in an item of another. -/
def nestedPage : Node :=
  block .doc [block .bulletList [block .listItem [block .paragraph [textRun ['a'] []],
    block .bulletList [listItemOf [textRun ['b'] []]]]]]

def blankPage : Node := block .doc [block .paragraph []]

/-- The paragraph is saved as a list, the list in the item is gone, and the blank line has a run of
text. -/
theorem saved_numbered_nested_blank :
    (∀ document ∈ [numberedPage, nestedPage, blankPage],
      (∀ isSafe, RichTextDocument isSafe document = true) ∧ hasPageLink document = false ∧
        separate document = true ∧ saved document ≠ document) ∧
    saved numberedPage = block .doc [block .orderedList [listItemOf [textRun "A year".toList []]]] ∧
    saved nestedPage = block .doc [block .bulletList [listItemOf [textRun ['a'] []]]] ∧
    saved blankPage = block .doc [block .paragraph [textRun [] []]] := by
  refine ⟨?_, rfl, rfl, rfl⟩
  simp only [List.forall_mem_cons]
  have hmeasure : ∀ document, RichTextSchema.measure (saved document) ≠
      RichTextSchema.measure document → saved document ≠ document :=
    fun _ h heq => h (congrArg RichTextSchema.measure heq)
  refine ⟨⟨fun _ => rfl, rfl, rfl, hmeasure _ (by decide +kernel)⟩,
    ⟨fun _ => rfl, rfl, rfl, hmeasure _ (by decide +kernel)⟩,
    ⟨fun _ => rfl, rfl, rfl, hmeasure _ (by decide +kernel)⟩, fun _ h => by cases h⟩

end RichTextCompose
end TaskFlow
