import TaskFlow.ComposeInline

/-! # What a line begins

The patterns of lines are told apart by their first characters, but for bullets and tasks, so a line
that one of them matches begins the block that the pattern is of (`lineType_of_continues`).
-/
namespace TaskFlow
namespace RichTextCompose
open LeftmostLexer RichTextSchema
open RichText (Text isSpace)

/-- The type of the block that a line begins. -/
def lineType (line : Text) : NodeType :=
  if (CODE_FENCE_LINE line).isSome then .codeBlock
  else if HORIZONTAL_RULE_LINE line then .horizontalRule
  else if (TASK_LIST_LINE line).isSome then .taskList
  else if (BULLET_LIST_LINE line).isSome then .bulletList
  else if (ORDERED_LIST_LINE line).isSome then .orderedList
  else if (HEADING_LINE line).isSome then .heading
  else if (BLOCKQUOTE_LINE line).isSome then .blockquote
  else .paragraph

/-- Whether a block of the type goes on with the line. -/
def continues (type : NodeType) (line : Text) : Bool :=
  match type with
  | .taskList => (TASK_LIST_LINE line).isSome
  | .bulletList => (bulletLine line).isSome
  | .orderedList => (ORDERED_LIST_LINE line).isSome
  | .blockquote => (BLOCKQUOTE_LINE line).isSome
  | _ => false

/-- The blocks that have lines as long as these match. -/
def GROUPS : List NodeType := [.taskList, .bulletList, .orderedList, .blockquote]

/-! ### First characters -/

section
variable {line text : Text}

/-- Begins with no space, and is matched by `.*`. -/
structure Tight (text : Text) : Prop where
  first : ∀ c ∈ text.head?, isSpace c = false
  inLine : text.any isLineTerminator = false

theorem dropWhile_of_first (h : ∀ c ∈ text.head?, isSpace c = false) :
    text.dropWhile isSpace = text := by
  cases text with
  | nil => rfl
  | cons c text =>
    rw [List.dropWhile_cons_of_neg]
    simp [h c rfl]

theorem first_dropWhile (text : Text) :
    ∀ c ∈ (text.dropWhile isSpace).head?, isSpace c = false := by
  intro c hc
  have hnot := List.head?_dropWhile_not isSpace text
  rw [Option.mem_def.mp hc] at hnot
  simpa using hnot

theorem tight_of_afterSpaces (h : afterSpaces line = some text) : Tight text := by
  unfold afterSpaces at h
  split at h
  · cases h
  · split at h
    · simp only [] at h
      split at h
      · cases h
      · next hline =>
        obtain rfl := Option.some.inj h
        exact ⟨first_dropWhile _, by simpa using hline⟩
    · cases h

theorem afterSpaces_space (h : Tight text) : afterSpaces (' ' :: text) = some text := by
  have hspace : isSpace ' ' = true := by decide
  rw [afterSpaces, if_pos hspace]
  simp only []
  rw [dropWhile_of_first h.first, if_neg (by simp [h.inLine])]

theorem space_of_afterSpaces (h : (afterSpaces line).isSome) :
    ∃ c ∈ line.head?, isSpace c = true := by
  unfold afterSpaces at h
  split at h
  · cases h
  · split at h
    · next hspace => exact ⟨_, rfl, hspace⟩
    · cases h

theorem head_of_CODE_FENCE_LINE (h : (CODE_FENCE_LINE line).isSome) : line.head? = some '`' := by
  unfold CODE_FENCE_LINE at h
  split at h
  · rfl
  · cases h

theorem head_of_HORIZONTAL_RULE_LINE (h : HORIZONTAL_RULE_LINE line) :
    line.head? = some '-' ∧ line.tail.head? = some '-' := by
  unfold HORIZONTAL_RULE_LINE at h
  rw [Bool.and_eq_true, decide_eq_true_eq, List.all_eq_true] at h
  obtain ⟨hlength, hall⟩ := h
  match line with
  | [] | [_] => simp at hlength
  | c :: d :: text =>
    have hc : c = '-' := by simpa using hall c (by simp)
    have hd : d = '-' := by simpa using hall d (by simp)
    exact ⟨congrArg some hc, congrArg some hd⟩

theorem head_of_TASK_LIST_LINE (h : (TASK_LIST_LINE line).isSome) :
    (line.head? = some '-' ∨ line.head? = some '*') ∧ ∃ c ∈ line.tail.head?, isSpace c = true := by
  unfold TASK_LIST_LINE at h
  split at h
  · next c d text =>
    split at h
    · next hboth => exact ⟨hboth.1.imp (congrArg some) (congrArg some), d, rfl, hboth.2⟩
    · cases h
  · cases h

theorem head_of_BULLET_LIST_LINE (h : (BULLET_LIST_LINE line).isSome) :
    (line.head? = some '-' ∨ line.head? = some '*') ∧ ∃ c ∈ line.tail.head?, isSpace c = true := by
  unfold BULLET_LIST_LINE at h
  split at h
  · split at h
    · next hc => exact ⟨hc.imp (congrArg some) (congrArg some), space_of_afterSpaces h⟩
    · cases h
  · cases h

theorem head_of_ORDERED_LIST_LINE (h : (ORDERED_LIST_LINE line).isSome) :
    ∃ c ∈ line.head?, c.isDigit = true := by
  unfold ORDERED_LIST_LINE at h
  split at h
  · cases h
  · next hne =>
    cases line with
    | nil => exact absurd rfl hne
    | cons c text =>
      refine ⟨c, rfl, ?_⟩
      by_contra hc
      exact hne (List.takeWhile_cons_of_neg hc)

theorem head_of_HEADING_LINE (h : (HEADING_LINE line).isSome) : line.head? = some '#' := by
  unfold HEADING_LINE at h
  simp only [] at h
  split at h
  · next hlevel =>
    cases line with
    | nil => simp at hlevel
    | cons c text =>
      by_cases hc : c = '#'
      · exact congrArg some hc
      · rw [List.takeWhile_cons_of_neg (by simpa using hc)] at hlevel
        simp at hlevel
  · cases h

theorem head_of_BLOCKQUOTE_LINE (h : (BLOCKQUOTE_LINE line).isSome) : line.head? = some '>' := by
  unfold BLOCKQUOTE_LINE at h
  split at h
  · rfl
  · cases h

/-! ### Which pattern matches first -/

theorem lineType_of_task (h : (TASK_LIST_LINE line).isSome) : lineType line = .taskList := by
  obtain ⟨hhead, c, hc, hspace⟩ := head_of_TASK_LIST_LINE h
  have hfence : ¬(CODE_FENCE_LINE line).isSome := fun hfence => by
    simp [head_of_CODE_FENCE_LINE hfence] at hhead
  have hrule : ¬HORIZONTAL_RULE_LINE line := fun hrule => by
    obtain rfl := Option.some.inj ((head_of_HORIZONTAL_RULE_LINE hrule).2.symm.trans hc)
    exact absurd hspace (by decide)
  rw [lineType, if_neg hfence, if_neg hrule, if_pos h]

theorem lineType_of_bullet (h : (bulletLine line).isSome) : lineType line = .bulletList := by
  unfold bulletLine at h
  split at h
  · cases h
  · next htask =>
    obtain ⟨hhead, c, hc, hspace⟩ := head_of_BULLET_LIST_LINE h
    have hfence : ¬(CODE_FENCE_LINE line).isSome := fun hfence => by
      simp [head_of_CODE_FENCE_LINE hfence] at hhead
    have hrule : ¬HORIZONTAL_RULE_LINE line := fun hrule => by
      obtain rfl := Option.some.inj ((head_of_HORIZONTAL_RULE_LINE hrule).2.symm.trans hc)
      exact absurd hspace (by decide)
    rw [lineType, if_neg hfence, if_neg hrule, if_neg htask, if_pos h]

/-- A line with another first character than fences, rules, bullets and tasks have. -/
theorem lineType_of_head {c : Char} (hhead : line.head? = some c) (hfence : c ≠ '`')
    (hdash : c ≠ '-') (hstar : c ≠ '*') :
    lineType line =
      if (ORDERED_LIST_LINE line).isSome then .orderedList
      else if (HEADING_LINE line).isSome then .heading
      else if (BLOCKQUOTE_LINE line).isSome then .blockquote
      else .paragraph := by
  have hne : ∀ d, d ≠ c → line.head? ≠ some d := fun d hd h =>
    hd (Option.some.inj (h.symm.trans hhead))
  have hnone : ¬(line.head? = some '-' ∨ line.head? = some '*') :=
    not_or.mpr ⟨hne _ hdash.symm, hne _ hstar.symm⟩
  rw [lineType, if_neg fun h => hne _ hfence.symm (head_of_CODE_FENCE_LINE h),
    if_neg fun h => hne _ hdash.symm (head_of_HORIZONTAL_RULE_LINE h).1,
    if_neg fun h => hnone (head_of_TASK_LIST_LINE h).1,
    if_neg fun h => hnone (head_of_BULLET_LIST_LINE h).1]

theorem lineType_of_ordered (h : (ORDERED_LIST_LINE line).isSome) :
    lineType line = .orderedList := by
  obtain ⟨c, hc, hdigit⟩ := head_of_ORDERED_LIST_LINE h
  have hne : ∀ d : Char, d.isDigit = false → c ≠ d := by
    rintro d hd rfl
    exact Bool.false_ne_true (hd.symm.trans hdigit)
  rw [lineType_of_head hc (hne _ rfl) (hne _ rfl) (hne _ rfl), if_pos h]

theorem lineType_of_heading (h : (HEADING_LINE line).isSome) : lineType line = .heading := by
  have hhead := head_of_HEADING_LINE h
  have hordered : ¬(ORDERED_LIST_LINE line).isSome := fun hordered => by
    obtain ⟨c, hc, hdigit⟩ := head_of_ORDERED_LIST_LINE hordered
    obtain rfl := Option.some.inj (hhead.symm.trans hc)
    exact absurd hdigit (by decide)
  rw [lineType_of_head hhead (by decide) (by decide) (by decide), if_neg hordered, if_pos h]

theorem lineType_of_quote (h : (BLOCKQUOTE_LINE line).isSome) : lineType line = .blockquote := by
  have hhead := head_of_BLOCKQUOTE_LINE h
  have hordered : ¬(ORDERED_LIST_LINE line).isSome := fun hordered => by
    obtain ⟨c, hc, hdigit⟩ := head_of_ORDERED_LIST_LINE hordered
    obtain rfl := Option.some.inj (hhead.symm.trans hc)
    exact absurd hdigit (by decide)
  have hheading : ¬(HEADING_LINE line).isSome := fun hheading => by
    simp [head_of_HEADING_LINE hheading] at hhead
  rw [lineType_of_head hhead (by decide) (by decide) (by decide), if_neg hordered,
    if_neg hheading, if_pos h]

/-- A line that a block goes on with begins a block of the type. -/
theorem lineType_of_continues {type : NodeType} (h : continues type line) :
    lineType line = type := by
  unfold continues at h
  split at h
  · exact lineType_of_task h
  · exact lineType_of_bullet h
  · exact lineType_of_ordered h
  · exact lineType_of_quote h
  · cases h

/-- And a line that begins a block of a type that has such lines is one of them. -/
theorem continues_of_lineType {type : NodeType} (h : lineType line = type)
    (hgroup : type ∈ GROUPS) : continues type line := by
  subst h
  unfold lineType at hgroup ⊢
  split
  · next hfence => simp [hfence, GROUPS] at hgroup
  · split
    · next hfence hrule => simp [hfence, hrule, GROUPS] at hgroup
    · split
      · next htask => exact htask
      · split
        · next htask hbullet =>
          unfold continues bulletLine
          simp only []
          rw [if_neg htask]
          exact hbullet
        · split
          · next hordered => exact hordered
          · split
            · next hfence hrule htask hbullet hordered hheading =>
              simp [hfence, hrule, htask, hbullet, hordered, hheading, GROUPS] at hgroup
            · split
              · next hquote => exact hquote
              · next hfence hrule htask hbullet hordered hheading hquote =>
                simp [hfence, hrule, htask, hbullet, hordered, hheading, hquote, GROUPS] at hgroup

end

/-! ### The block of a line -/

/-- The block of the type that a line begins, and the lines that are left. -/
def blockOf (mentions : List PendingMention) (line : Text) (lines : List Text) :
    NodeType → Node × List Text
  | .codeBlock => codeBlock ((CODE_FENCE_LINE line).getD []) lines
  | .horizontalRule => (block .horizontalRule [], lines)
  | .taskList =>
    (block .taskList ((collect TASK_LIST_LINE (line :: lines)).1.map (taskItem mentions)),
      (collect TASK_LIST_LINE (line :: lines)).2)
  | .bulletList =>
    (block .bulletList ((collect bulletLine (line :: lines)).1.map (listItem mentions)),
      (collect bulletLine (line :: lines)).2)
  | .orderedList =>
    (block .orderedList ((collect ORDERED_LIST_LINE (line :: lines)).1.map (listItem mentions)),
      (collect ORDERED_LIST_LINE (line :: lines)).2)
  | .heading =>
    (.node .heading { level := (HEADING_LINE line).map Prod.fst } none []
      (parseInline (((HEADING_LINE line).map Prod.snd).getD []) mentions), lines)
  | .blockquote =>
    (block .blockquote ((collect BLOCKQUOTE_LINE (line :: lines)).1.map (paragraphOf · mentions)),
      (collect BLOCKQUOTE_LINE (line :: lines)).2)
  | _ => (paragraphOf line mentions, lines)

theorem nextBlock_eq_blockOf (mentions : List PendingMention) (line : Text) (lines : List Text) :
    nextBlock mentions line lines = blockOf mentions line lines (lineType line) := by
  unfold nextBlock lineType
  cases hfence : CODE_FENCE_LINE line with
  | some language => simp [blockOf, hfence]
  | none =>
    cases hheading : HEADING_LINE line with
    | some found =>
      simp only [Option.isSome_none, Bool.false_eq_true, if_false, Option.isSome_some, if_true]
      split_ifs <;> simp [blockOf, hheading]
    | none =>
      simp only [Option.isSome_none, Bool.false_eq_true, if_false]
      split_ifs <;> rfl

/-- The lines that are collected, and the one that they end before. -/
theorem collect_spec {γ : Type} (match? : Text → Option γ) (lines : List Text) :
    ∃ taken, lines = taken ++ (collect match? lines).2 ∧
      taken.map match? = (collect match? lines).1.map some ∧
      ∀ line ∈ (collect match? lines).2.head?, match? line = none := by
  induction lines with
  | nil => exact ⟨[], rfl, rfl, fun _ h => by cases h⟩
  | cons line lines ih =>
    rw [collect]
    cases hline : match? line with
    | none =>
      refine ⟨[], rfl, rfl, fun first hfirst => ?_⟩
      obtain rfl := Option.some.inj hfirst
      exact hline
    | some value =>
      obtain ⟨taken, hlines, hmap, hhead⟩ := ih
      refine ⟨line :: taken, congrArg _ hlines, ?_, hhead⟩
      rw [List.map_cons, hline, hmap]
      rfl

theorem collect_append {γ : Type} {match? : Text → Option γ} {taken rest : List Text}
    {found : List γ} (htaken : taken.map match? = found.map some)
    (hrest : ∀ line ∈ rest.head?, match? line = none) :
    collect match? (taken ++ rest) = (found, rest) := by
  induction taken generalizing found with
  | nil =>
    rw [List.map_nil, eq_comm, List.map_eq_nil_iff] at htaken
    rw [htaken, List.nil_append]
    cases rest with
    | nil => rfl
    | cons line rest => rw [collect, hrest line rfl]
  | cons line taken ih =>
    cases found with
    | nil => cases htaken
    | cons value found =>
      obtain ⟨hline, htaken⟩ := List.cons.inj htaken
      rw [List.cons_append, collect, hline, ih htaken]

end RichTextCompose
end TaskFlow
