import TaskFlow.DateMonotone
import TaskFlow.FilterTemplate

/-! # Filters that return

An offset is checked for its form and not for its amount, so a valid tree may name a date beyond the
range of dates, which `toISOString` refuses with a throw.  Short of that a valid tree is evaluated,
and compiled where its field set has a table (`backends_total_iff`).
-/
namespace TaskFlow.Filter

/-! ### Symbolic dates -/

/-- The date a symbolic text names is in the range of dates. -/
def InRange (now : Date) (value : Text) : Prop :=
  ∃ time, now = some time ∧ ∀ sign amount unit, relativeOffset value = some (sign, amount, unit) →
    |offsetInstant time sign amount unit| ≤ 8640000000000000

/-- The clock holds a date. -/
def Valid (now : Date) : Prop := ∀ time, now = some time → timeClip time = some time

theorem map_some_ok {α : Type} {result : Except Thrown α} :
    (∃ a, (some <$> result : Except Thrown (Option α)) = .ok a) ↔ ∃ a, result = .ok a := by
  cases result with
  | error thrown => exact iff_of_false (fun ⟨_, h⟩ => by cases h) (fun ⟨_, h⟩ => by cases h)
  | ok a => exact iff_of_true ⟨_, rfl⟩ ⟨_, rfl⟩

theorem toISOString_ok (date : Date) :
    (∃ text, toISOString date = .ok text) ↔ ∃ time, date = some time := by
  cases date with
  | none => exact iff_of_false (fun ⟨_, h⟩ => by cases h) (fun ⟨_, h⟩ => by cases h)
  | some time => exact iff_of_true ⟨_, toISOString_clock time⟩ ⟨_, rfl⟩

theorem timeClip_ok (time : ℤ) :
    (∃ instant, timeClip time = some instant) ↔ |time| ≤ 8640000000000000 := by
  rw [timeClip]
  split
  next h => exact iff_of_true ⟨_, rfl⟩ h
  next h => exact iff_of_false (fun ⟨_, h⟩ => by cases h) h

theorem startOfDay_ok {time : ℤ} (h : timeClip time = some time) :
    ∃ instant, startOfDay time = some instant := by
  obtain ⟨hlow, hhigh⟩ := timeClip_bounds h
  rw [startOfDay, timeClip_ok, abs_le, msPerDay]
  omega

/-- **A symbolic date is resolved exactly when it is in range.** -/
theorem resolveSymbolicDate_ok_iff {now : Date} {value : Text} (hnow : Valid now)
    (hvalue : isSymbolicDate value = true) :
    (∃ resolved, resolveSymbolicDate value now = .ok resolved) ↔ InRange now value := by
  have hnone : now = none → ¬InRange now value := fun h ⟨time, htime, _⟩ => by
    rw [h] at htime
    cases htime
  rcases isSymbolicDate_cases hvalue with rfl | rfl | ⟨sign, amount, unit, hoffset⟩
  · have htoday : resolveSymbolicDate TODAY now = some <$> toISOString (now.bind startOfDay) :=
      if_pos rfl
    rw [htoday, map_some_ok, toISOString_ok]
    cases now with
    | none => exact iff_of_false (fun ⟨_, h⟩ => by cases h) (hnone rfl)
    | some time =>
      refine iff_of_true (startOfDay_ok (hnow time rfl)) ⟨time, rfl, ?_⟩
      exact fun _ _ _ h => by cases h
  · rw [resolveSymbolicDate_now, map_some_ok, toISOString_ok]
    cases now with
    | none => exact iff_of_false (fun ⟨_, h⟩ => by cases h) (hnone rfl)
    | some time => exact iff_of_true ⟨time, rfl⟩ ⟨time, rfl, fun _ _ _ h => by cases h⟩
  · rw [resolveSymbolicDate_offset hoffset, map_some_ok, toISOString_ok]
    cases now with
    | none =>
      refine iff_of_false (fun ⟨_, h⟩ => ?_) (hnone rfl)
      cases unit <;> cases h
    | some time =>
      rw [applyOffset_eq, timeClip_ok]
      constructor
      · intro h
        refine ⟨time, rfl, fun sign' amount' unit' hoffset' => ?_⟩
        rw [hoffset] at hoffset'
        cases hoffset'
        exact h
      · rintro ⟨time', htime, h⟩
        cases htime
        exact h sign amount unit hoffset

/-! ### Evaluating -/

/-- Every symbolic date that the tree gives to a date field is in range. -/
def DatesInRange (now : Date) (resource : Resource) (t : FilterNode) : Prop :=
  ∀ c, .comparison c ∈ t.subtrees → ∀ field, findField resource c.field = some field →
    field.type = .date → ∀ text, .string text ∈ c.values → isSymbolicDate text = true →
      InRange now text

/-- A text that is no symbolic date is resolved to nothing. -/
theorem resolveSymbolicDate_ok {now : Date} {text : Text} (hnow : Valid now)
    (h : isSymbolicDate text = true → InRange now text) :
    ∃ resolved, resolveSymbolicDate text now = .ok resolved := by
  by_cases hsymbolic : isSymbolicDate text = true
  · exact (resolveSymbolicDate_ok_iff hnow hsymbolic).mpr (h hsymbolic)
  · exact ⟨none, (resolveSymbolicDate_eq_none_iff text now).mpr (Bool.eq_false_iff.mpr hsymbolic)⟩

section
variable {engine : Engine} {options : EvaluateOptions}

theorem resolve_ok {field : FieldDefinition} {value : FilterValue} (hnow : Valid options.now)
    (h : field.type = .date → ∀ text, value = .string text → isSymbolicDate text = true →
      InRange options.now text) : ∃ resolved, resolve options field value = .ok resolved := by
  unfold resolve
  by_cases hme : value = .string ME
  · rw [if_pos hme]
    split <;> exact ⟨_, rfl⟩
  · rw [if_neg hme]
    split
    next htype =>
      obtain ⟨resolved, hresolved⟩ := resolveSymbolicDate_ok hnow (h htype _ rfl)
      rw [hresolved]
      cases resolved <;> exact ⟨_, rfl⟩
    · exact ⟨_, rfl⟩

theorem mapM_ok {field : FieldDefinition} : ∀ {values : List FilterValue},
    (∀ value ∈ values, ∃ resolved, resolve options field value = .ok resolved) →
      ∃ resolved, values.mapM (resolve options field) = .ok resolved
  | [], _ => ⟨[], rfl⟩
  | value :: values, h => by
    obtain ⟨⟨first, hfirst⟩, hrest⟩ := List.forall_mem_cons.mp h
    obtain ⟨rest, hvalues⟩ := mapM_ok hrest
    exact ⟨first :: rest, by rw [List.mapM_cons, hfirst, hvalues]; rfl⟩

theorem compareOrder_ok {field : FieldDefinition} {value : FilterValue} (operator : Operator)
    (actual : Value) (h : ∃ resolved, resolve options field value = .ok resolved) :
    ∃ b, compareOrder engine options field operator value actual = .ok b := by
  obtain ⟨resolved, hresolved⟩ := h
  simp only [compareOrder, hresolved, bind, Except.bind]
  split
  · exact ⟨_, rfl⟩
  split
  · exact ⟨_, rfl⟩
  split <;> exact ⟨_, rfl⟩

theorem compareMembers_ok {field : FieldDefinition} {values : List FilterValue} (negated : Bool)
    (actual : Value)
    (h : ∀ value ∈ values, ∃ resolved, resolve options field value = .ok resolved) :
    ∃ b, compareMembers options field negated values actual = .ok b := by
  obtain ⟨resolved, hresolved⟩ := mapM_ok h
  simp only [compareMembers, hresolved, bind, Except.bind]
  split <;> exact ⟨_, rfl⟩

theorem compareContains_ok {field : FieldDefinition} {value : FilterValue} (actual : Value)
    (h : ∃ resolved, resolve options field value = .ok resolved) :
    ∃ b, compareContains engine options field value actual = .ok b := by
  obtain ⟨resolved, hresolved⟩ := h
  unfold compareContains
  split
  · rw [hresolved]
    exact ⟨_, rfl⟩
  · exact ⟨_, rfl⟩

theorem compareRow_ok {field : FieldDefinition} {c : Comparison} (row : EvaluableRow)
    (h : ∀ value ∈ c.values, ∃ resolved, resolve options field value = .ok resolved) :
    ∃ b, compareRow engine options field row c = .ok b := by
  obtain ⟨name, operator, operand⟩ := c
  have hscalar {value : FilterValue}
      (hvalues : Comparison.values ⟨name, operator, operand⟩ = [value]) :
      ∃ resolved, resolve options field value = .ok resolved :=
    h value (hvalues ▸ List.mem_singleton_self _)
  cases operator with
  | isEmpty | isNotEmpty => exact ⟨_, rfl⟩
  | in_ | notIn => exact compareMembers_ok _ _ h
  | contains => exact compareContains_ok _ (hscalar rfl)
  | eq | neq | lt | lte | gt | gte => exact compareOrder_ok _ _ (hscalar rfl)

theorem every_ok {resource : Resource} {row : EvaluableRow} : ∀ {children : List FilterNode},
    (∀ child ∈ children, ∃ b, evaluate engine options resource row child = .ok b) →
      ∃ b, every engine options resource row children = .ok b
  | [], _ => ⟨_, rfl⟩
  | child :: rest, h => by
    obtain ⟨⟨b, hchild⟩, hrest⟩ := List.forall_mem_cons.mp h
    rw [every, hchild]
    cases b with
    | true => exact every_ok hrest
    | false => exact ⟨_, rfl⟩

theorem some_ok {resource : Resource} {row : EvaluableRow} : ∀ {children : List FilterNode},
    (∀ child ∈ children, ∃ b, evaluate engine options resource row child = .ok b) →
      ∃ b, some_ engine options resource row children = .ok b
  | [], _ => ⟨_, rfl⟩
  | child :: rest, h => by
    obtain ⟨⟨b, hchild⟩, hrest⟩ := List.forall_mem_cons.mp h
    rw [some_, hchild]
    cases b with
    | true => exact ⟨_, rfl⟩
    | false => exact some_ok hrest

/-- A tree whose dates are in range is evaluated, whatever the row. -/
theorem evaluate_ok {resource : Resource} (row : EvaluableRow) {t : FilterNode}
    (hnow : Valid options.now) (h : DatesInRange options.now resource t) :
    ∃ b, evaluate engine options resource row t = .ok b := by
  induction t with
  | comparison c =>
    rw [evaluate]
    split
    · exact ⟨_, rfl⟩
    next field hfield =>
      refine compareRow_ok row fun value hvalue => resolve_ok hnow fun htype text heq => ?_
      subst heq
      exact h c (FilterNode.mem_subtrees_self _) field hfield htype text hvalue
  | group combinator children ih =>
    have hchildren : ∀ child ∈ children, ∃ b, evaluate engine options resource row child = .ok b :=
      fun child hchild => ih child hchild fun c hc =>
        h c (FilterNode.mem_subtrees_group.mpr (.inr ⟨child, hchild, hc⟩))
    cases children with
    | nil => exact ⟨_, by rw [evaluate]⟩
    | cons first rest =>
      cases combinator with
      | and =>
        rw [evaluate]
        · exact every_ok hchildren
        · exact List.cons_ne_nil _ _
      | or =>
        rw [evaluate]
        · exact some_ok hchildren
        · exact List.cons_ne_nil _ _
  | not child ih =>
    obtain ⟨b, hb⟩ := ih fun c hc => h c (FilterNode.mem_subtrees_not.mpr (.inr hc))
    rw [evaluate, hb]
    exact ⟨_, rfl⟩

end

/-! ### Compiling -/

namespace Sql

theorem columns_exist {resource : Resource} (h : resource ∈ COMPILABLE_RESOURCES) :
    ∀ field ∈ fieldsOf resource, field.sql.isSome = true := by
  cases resource with
  | card => decide
  | search => decide
  | connector => cases h with
    | tail _ h => cases h with
      | tail _ h => cases h

section
variable {options : CompileOptions} {field : FieldDefinition} {value : FilterValue}
  {dateParse : Text → Date}

theorem resolve_text_ok {text : Text} (hdate : field.type = .date) (hme : text ≠ ME) :
    (∃ resolved, resolve options (.string text) field = .ok resolved) ↔
      ∃ resolved, resolveSymbolicDate text options.now = .ok resolved := by
  unfold resolve
  rw [if_neg fun h => hme (FilterValue.string.inj h)]
  simp only [hdate]
  cases hresolved : resolveSymbolicDate text options.now with
  | error thrown =>
    simp only
    exact iff_of_false (fun ⟨_, h⟩ => by cases h) (fun ⟨_, h⟩ => by cases h)
  | ok resolved =>
    cases resolved <;> exact iff_of_true ⟨_, rfl⟩ ⟨_, rfl⟩

/-- A value that fits its field is resolved for a viewer if its date is in range. -/
theorem resolve_ok_iff (hviewer : options.viewerId.isSome = true) (hnow : Valid options.now)
    (hvalue : checkValue dateParse field value = none) :
    (∃ resolved, resolve options value field = .ok resolved) ↔
      (field.type = .date → ∀ text, value = .string text → isSymbolicDate text = true →
        InRange options.now text) := by
  by_cases hme : value = .string ME
  · subst hme
    have haccepts : field.acceptsMe = true := by
      by_contra hnot
      rw [checkValue, if_neg (by decide), if_pos rfl, if_neg hnot] at hvalue
      cases hvalue
    obtain ⟨viewerId, hviewerId⟩ := Option.isSome_iff_exists.mp hviewer
    refine iff_of_true ⟨.string viewerId, ?_⟩ fun _ text htext hsymbolic => ?_
    · unfold resolve
      rw [if_pos rfl, if_pos haccepts, hviewerId]
    · cases htext
      cases hsymbolic
  by_cases hdate : field.type = .date ∧ ∃ text, value = .string text
  · obtain ⟨hdate, text, rfl⟩ := hdate
    rw [resolve_text_ok hdate fun h => hme (by rw [h])]
    constructor
    · intro hresolved _ text' htext hsymbolic
      cases htext
      exact (resolveSymbolicDate_ok_iff hnow hsymbolic).mp hresolved
    · exact fun h => resolveSymbolicDate_ok hnow fun hsymbolic => h hdate text rfl hsymbolic
  · refine iff_of_true ⟨value, ?_⟩ fun htype text htext => absurd ⟨htype, text, htext⟩ hdate
    unfold resolve
    rw [if_neg hme]
    split
    next htype => exact absurd ⟨htype, _, rfl⟩ hdate
    · rfl

end

/-- A valid tree is compiled for a viewer exactly when it has a table behind it and its dates are in
range. -/
theorem compile_ok_iff {resource : Resource} {options : CompileOptions} {t : FilterNode}
    {dateParse : Text → Date} (hvalid : validate dateParse resource t = [])
    (hviewer : options.viewerId.isSome = true) (hnow : Valid options.now) :
    (∃ compiled, compile options resource dateParse t = .ok compiled) ↔
      resource ∈ COMPILABLE_RESOURCES ∧ DatesInRange options.now resource t := by
  have hvalues {c : Comparison} (hc : .comparison c ∈ t.subtrees) :
      ∃ field, findField resource c.field = some field ∧
        ∀ value ∈ c.values, checkValue dateParse field value = none := by
    obtain ⟨field, hfield, -, hvalues⟩ := checkComparison_eq_nil (validate_ok_iff.mp hvalid c hc)
    exact ⟨field, hfield, hvalues⟩
  constructor
  · rintro ⟨compiled, hcompiled⟩
    obtain ⟨hresource, -, hemit⟩ := compile_ok hcompiled
    refine ⟨hresource, fun c hc field hfield hdate text htext hsymbolic => ?_⟩
    obtain ⟨field', hfield', hcheck⟩ := hvalues hc
    obtain ⟨field'', column, hcolumn, hresolved⟩ := resolvable_of_emit hemit c hc
    rw [hfield] at hfield'
    cases hfield'
    have hfield'' := (columnOf_eq_some hcolumn).1
    rw [hfield] at hfield''
    cases hfield''
    exact (resolve_ok_iff hviewer hnow (hcheck _ htext)).mp (hresolved _ htext) hdate text rfl
      hsymbolic
  · rintro ⟨hresource, hdates⟩
    have hresolvable : ∀ c, .comparison c ∈ t.subtrees → Resolvable options resource c := by
      intro c hc
      obtain ⟨field, hfield, hcheck⟩ := hvalues hc
      obtain ⟨sql, hsql⟩ := Option.isSome_iff_exists.mp
        (columns_exist hresource field (findField_spec hfield).1)
      refine ⟨field, sql.toList, ?_, fun value hvalue => ?_⟩
      · rw [columnOf, hfield, Option.bind_some, hsql, Option.map_some]
      · refine (resolve_ok_iff hviewer hnow (hcheck value hvalue)).mpr ?_
        rintro hdate text rfl hsymbolic
        exact hdates c hc field hfield hdate text hvalue hsymbolic
    obtain ⟨⟨sql, params⟩, hrun⟩ : ∃ result, emit options resource t [] = .ok result := by
      obtain ⟨more, hrun, -⟩ := emit_emits hresolvable []
      exact ⟨_, hrun⟩
    refine ⟨⟨sql, params⟩, ?_⟩
    rw [compile, if_neg (not_not.mpr hresource), hvalid]
    simp only [hrun]

end Sql

section
variable {engine : Engine} {resource : Resource} {t : FilterNode} {now : Date}
  (hvalid : validate engine.dateParse resource t = []) (hnow : Valid now)
include hvalid hnow

/-- **A valid tree is compiled for every viewer and evaluated on every row** exactly when its field
set has a table behind it and its dates are in range. -/
theorem backends_total_iff :
    ((∀ viewerId startIndex, ∃ compiled,
        Sql.compile ⟨some viewerId, startIndex, now⟩ resource engine.dateParse t = .ok compiled) ∧
      ∀ viewerId row, ∃ b, evaluate engine ⟨viewerId, now⟩ resource row t = .ok b) ↔
      resource ∈ Sql.COMPILABLE_RESOURCES ∧ DatesInRange now resource t := by
  constructor
  · rintro ⟨hcompile, -⟩
    exact (Sql.compile_ok_iff hvalid rfl hnow).mp (hcompile [] none)
  · intro h
    exact ⟨fun viewerId startIndex => (Sql.compile_ok_iff hvalid rfl hnow).mpr h,
      fun viewerId row => evaluate_ok row hnow h.2⟩

end

/-- An engine for ASCII texts and for dates as `toISOString` writes them. -/
def isoEngine : Engine where
  dateParse := isoTime
  toLowerCase := List.map Char.toLower
  stringOf := fun _ => "[object Object]".toList

def dueBefore (text : Text) : FilterNode := .comparison ⟨"due".toList, .lt, .string text⟩

theorem dueBefore_week_valid :
    validate isoEngine.dateParse .card (dueBefore "-7d".toList) = [] := rfl

/-- What is due before last week, at an instant of 2026. -/
theorem dueBefore_week : ∃ b,
    evaluate isoEngine ⟨none, some 1785283200000⟩ .card (fun _ => .null)
      (dueBefore "-7d".toList) = .ok b := by
  have hnow : Valid (some 1785283200000) := by
    intro time htime
    cases htime
    rfl
  refine ((backends_total_iff dueBefore_week_valid hnow).mpr ⟨by decide, ?_⟩).2 none _
  intro c hc field hfield _ text htext _
  cases List.mem_singleton.mp hc
  cases List.mem_singleton.mp htext
  refine ⟨1785283200000, rfl, fun sign amount unit hoffset => ?_⟩
  cases hoffset
  decide

/-- An offset of a hundred billion days is accepted, and neither compiled nor evaluated. -/
theorem dueBefore_throws :
    FilterTree.accepts (dueBefore "-99999999999d".toList) = true ∧
    validate isoEngine.dateParse .card (dueBefore "-99999999999d".toList) = [] ∧
    Sql.compile ⟨some "u".toList, none, some 1785283200000⟩ .card isoEngine.dateParse
      (dueBefore "-99999999999d".toList) = .error (.thrown .rangeError) ∧
    evaluate isoEngine ⟨some "u".toList, some 1785283200000⟩ .card (fun _ => .null)
      (dueBefore "-99999999999d".toList) = .error .rangeError :=
  ⟨rfl, rfl, rfl, rfl⟩

end TaskFlow.Filter
