import TaskFlow.FilterCompile
import TaskFlow.NumberedTemplate

/-! # The template of a filter

What `emit` writes is a template with its holes numbered, and the template depends on the tree
without its values, but for where one is null (`template_masked`).
-/
namespace TaskFlow.Filter.Sql

open Template

/-! ### Templates -/

/-- Holes with commas between them. -/
def listTemplate (values : List FilterValue) : List Piece :=
  [.text ", ".toList].intercalate (values.map fun _ => [.hole])

def membersTemplate (field : FieldDefinition) (column : Text) (negated : Bool)
    (values : List FilterValue) : List Piece :=
  if values.isEmpty then [.text (if negated then "TRUE" else "FALSE").toList]
  else
    let before := column ++ (if field.type = .uuidArray then " && ARRAY[" else " IN (").toList
    let behind := (if field.type = .uuidArray then "]::uuid[]" else ")").toList
    if negated then
      .text ("(NOT COALESCE(".toList ++ before) :: listTemplate values ++
        [.text (behind ++ ", FALSE))".toList)]
    else if field.type = .uuidArray then
      .text ("(".toList ++ before) :: listTemplate values ++ [.text (behind ++ ")".toList)]
    else .text before :: listTemplate values ++ [.text behind]

/-- A hole, and its cast if the type of the field has one. -/
def castTemplate (field : FieldDefinition) : List Piece :=
  match castOf field with
  | [] => [.hole]
  | c :: cast => [.hole, .text (c :: cast)]

def orderTemplate (field : FieldDefinition) (column : Text) (operator : Operator)
    (value : FilterValue) : List Piece :=
  if value = .null then
    [.text (column ++ (if operator = .neq then " IS NOT NULL" else " IS NULL").toList)]
  else
    .text (column ++ " ".toList ++ ((COMPARISON_TOKENS operator).getD "").toList ++ " ".toList) ::
      castTemplate field

def comparisonTemplate (field : FieldDefinition) (column : Text) : Comparison → List Piece
  | ⟨_, .isEmpty, ()⟩ => [.text (emitEmpty field column)]
  | ⟨_, .isNotEmpty, ()⟩ => [.text (emitNotEmpty field column)]
  | ⟨_, .in_, values⟩ => membersTemplate field column false values
  | ⟨_, .notIn, values⟩ => membersTemplate field column true values
  | ⟨_, .contains, _⟩ => [.text (column ++ " ILIKE ".toList), .hole, .text " ESCAPE '\\'".toList]
  | ⟨_, .eq, value⟩ => orderTemplate field column .eq value
  | ⟨_, .neq, value⟩ => orderTemplate field column .neq value
  | ⟨_, .lt, value⟩ => orderTemplate field column .lt value
  | ⟨_, .lte, value⟩ => orderTemplate field column .lte value
  | ⟨_, .gt, value⟩ => orderTemplate field column .gt value
  | ⟨_, .gte, value⟩ => orderTemplate field column .gte value

section
variable (resource : Resource)

/-- The field of a comparison and its column, where it has one. -/
def columnOf (c : Comparison) : Option (FieldDefinition × Text) :=
  (findField resource c.field).bind fun field =>
    field.sql.map fun column => (field, column.toList)

mutual

def template : FilterNode → List Piece
  | .group combinator [] => [.text (if combinator = .and then "TRUE" else "FALSE").toList]
  | .group combinator children =>
    .text "(".toList ::
      [.text (if combinator = .and then " AND " else " OR ").toList].intercalate
        (templates children) ++ [.text ")".toList]
  | .not child => .text "(NOT COALESCE(".toList :: template child ++ [.text ", FALSE))".toList]
  | .comparison c =>
    match columnOf resource c with
    | some (field, column) => comparisonTemplate field column c
    | none => []

def templates : List FilterNode → List (List Piece)
  | [] => []
  | child :: rest => template child :: templates rest

end

end

/-! ### What is emitted -/

section
variable {options : CompileOptions} {resource : Resource}

theorem placeholder_emits (value : FilterValue) :
    Emits (offset options) (placeholder options value) [.hole] := by
  intro pushed
  refine ⟨[value], ?_, rfl⟩
  have hnumber : (pushed ++ [value]).length + offset options - 1 =
      offset options + pushed.length := by
    rw [List.length_append, List.length_singleton]
    omega
  rw [placeholder, fill, fill, List.append_nil, hnumber]
  rfl

/-- What is resolved is null where the value is. -/
theorem resolve_eq_null {value resolved : FilterValue} {field : FieldDefinition}
    (h : resolve options value field = .ok resolved) : resolved = .null ↔ value = .null := by
  unfold resolve at h
  split at h
  next hme =>
    subst hme
    split at h
    · split at h
      · cases h
        exact iff_of_false nofun nofun
      · cases h
    · cases h
  · split at h
    · split at h <;> cases h
      · exact iff_of_false nofun nofun
      · exact Iff.rfl
    · cases h
      exact Iff.rfl

/-- The values of a list that can be resolved, resolved. -/
theorem mapM_resolve {field : FieldDefinition} : ∀ {values : List FilterValue},
    (∀ value ∈ values, ∃ resolved, resolve options value field = .ok resolved) →
      ∃ resolved : List FilterValue, resolved.length = values.length ∧
        (values.mapM fun entry => (liftM (resolve options entry field) : Emit FilterValue)) =
          pure resolved
  | [], _ => ⟨[], rfl, rfl⟩
  | value :: values, h => by
    obtain ⟨⟨first, hfirst⟩, hrest⟩ := List.forall_mem_cons.mp h
    obtain ⟨rest, hlength, hvalues⟩ := mapM_resolve hrest
    refine ⟨first :: rest, congrArg (· + 1) hlength, ?_⟩
    rw [List.mapM_cons, hfirst, hvalues]
    rfl

theorem emitMembers_emits {field : FieldDefinition} {values : List FilterValue}
    (column : Text) (negated : Bool)
    (h : ∀ value ∈ values, ∃ resolved, resolve options value field = .ok resolved) :
    Emits (offset options) (emitMembers options field column negated values)
      (membersTemplate field column negated values) := by
  obtain ⟨resolved, hlength, hresolved⟩ := mapM_resolve h
  have hempty : resolved.isEmpty = values.isEmpty := by
    rw [Bool.eq_iff_iff, List.isEmpty_iff_length_eq_zero, List.isEmpty_iff_length_eq_zero, hlength]
  have hplaces : EmitsAll (offset options) (resolved.mapM (placeholder options))
      (values.map fun _ => [.hole]) := by
    have hsame : (values.map fun _ => [Piece.hole]) = resolved.map fun _ => [Piece.hole] := by
      rw [List.map_const', List.map_const', hlength]
    rw [hsame]
    exact .mapM fun value _ => placeholder_emits value
  have hjoined (before behind : Text) := hplaces.joined before ", ".toList behind
  rw [emitMembers, hresolved, pure_bind, membersTemplate, hempty, listTemplate]
  by_cases hnone : values.isEmpty = true
  · rw [if_pos hnone, if_pos hnone]
    exact .text _
  rw [if_neg hnone, if_neg hnone]
  by_cases harray : field.type = .uuidArray
  · simp only [if_pos harray]
    cases negated with
    | true =>
      have h := hjoined ("(NOT COALESCE(".toList ++ (column ++ " && ARRAY[".toList))
        ("]::uuid[]".toList ++ ", FALSE))".toList)
      simp only [List.append_assoc, if_true] at h ⊢
      exact h
    | false =>
      have h := hjoined ("(".toList ++ (column ++ " && ARRAY[".toList))
        ("]::uuid[]".toList ++ ")".toList)
      simp only [List.append_assoc, if_neg Bool.false_ne_true] at h ⊢
      exact h
  · simp only [if_neg harray]
    cases negated with
    | true =>
      have h := hjoined ("(NOT COALESCE(".toList ++ (column ++ " IN (".toList))
        (")".toList ++ ", FALSE))".toList)
      simp only [List.append_assoc, if_true] at h ⊢
      exact h
    | false =>
      have h := hjoined (column ++ " IN (".toList) ")".toList
      simp only [List.append_assoc, if_neg Bool.false_ne_true] at h ⊢
      exact h

theorem emitContains_emits {field : FieldDefinition} {value resolved : FilterValue}
    (column : Text) (h : resolve options value field = .ok resolved) :
    Emits (offset options) (emitContains options field column value)
      [.text (column ++ " ILIKE ".toList), .hole, .text " ESCAPE '\\'".toList] :=
  .lift h ((placeholder_emits _).around (column ++ " ILIKE ".toList) " ESCAPE '\\'".toList)

theorem emitOrder_emits {field : FieldDefinition} {value resolved : FilterValue}
    (column : Text) {operator : Operator} {token : String}
    (htoken : COMPARISON_TOKENS operator = some token)
    (h : resolve options value field = .ok resolved) :
    Emits (offset options) (emitOrder options field column operator value)
      (orderTemplate field column operator value) := by
  refine .lift h ?_
  rw [orderTemplate]
  by_cases hnull : value = .null
  · rw [if_pos hnull, if_pos ((resolve_eq_null h).mpr hnull)]
    exact .text _
  · rw [if_neg hnull, if_neg fun hresolved => hnull ((resolve_eq_null h).mp hresolved)]
    simp only [htoken, Option.getD_some]
    have hhole : Emits (offset options) (placeholder options resolved) [.hole] :=
      placeholder_emits resolved
    have hplace := hhole.around
      (column ++ " ".toList ++ token.toList ++ " ".toList) (castOf field)
    refine hplace.of_fill (fun n => ?_) ?_
    · rw [castTemplate]
      split
      next hcast => simp only [hcast, fill, List.cons_append, List.nil_append, List.append_nil]
      next c cast hcast => simp only [hcast, fill, List.cons_append, List.nil_append]
    · rw [castTemplate]
      split <;> rfl

theorem emitComparison_emits {field : FieldDefinition} {column : String} {c : Comparison}
    (hcolumn : field.sql = some column)
    (h : ∀ value ∈ c.values, ∃ resolved, resolve options value field = .ok resolved) :
    Emits (offset options) (emitComparison options field c)
      (comparisonTemplate field column.toList c) := by
  rw [emitComparison, hcolumn]
  obtain ⟨name, operator, operand⟩ := c
  have hscalar {value : FilterValue}
      (hvalues : Comparison.values ⟨name, operator, operand⟩ = [value]) :
      ∃ resolved, resolve options value field = .ok resolved :=
    h value (hvalues ▸ List.mem_singleton_self _)
  cases operator with
  | isEmpty => exact .text _
  | isNotEmpty => exact .text _
  | in_ => exact emitMembers_emits column.toList false h
  | notIn => exact emitMembers_emits column.toList true h
  | contains =>
    obtain ⟨resolved, hresolved⟩ := hscalar rfl
    exact emitContains_emits column.toList hresolved
  | eq | neq | lt | lte | gt | gte =>
    obtain ⟨resolved, hresolved⟩ := hscalar rfl
    exact emitOrder_emits column.toList rfl hresolved

/-- The comparison has a column, and each of its values can be resolved. -/
def Resolvable (options : CompileOptions) (resource : Resource) (c : Comparison) : Prop :=
  ∃ field column, columnOf resource c = some (field, column) ∧
    ∀ value ∈ c.values, ∃ resolved, resolve options value field = .ok resolved

theorem columnOf_eq_some {c : Comparison} {field : FieldDefinition} {column : Text}
    (h : columnOf resource c = some (field, column)) :
    findField resource c.field = some field ∧
      ∃ sql, field.sql = some sql ∧ sql.toList = column := by
  obtain ⟨field', hfield, h⟩ := Option.bind_eq_some_iff.mp h
  obtain ⟨sql, hsql, heq⟩ := Option.map_eq_some_iff.mp h
  cases heq
  exact ⟨hfield, sql, hsql, rfl⟩

theorem emitAll_emits : ∀ {children : List FilterNode},
    (∀ child ∈ children, Emits (offset options) (emit options resource child)
      (template resource child)) →
      EmitsAll (offset options) (emitAll options resource children) (templates resource children)
  | [], _ => .nil
  | child :: rest, h => by
    obtain ⟨hchild, hrest⟩ := List.forall_mem_cons.mp h
    rw [emitAll, templates]
    exact .cons hchild (emitAll_emits hrest)

/-- **A tree is emitted as its template.** -/
theorem emit_emits {t : FilterNode}
    (h : ∀ c, .comparison c ∈ t.subtrees → Resolvable options resource c) :
    Emits (offset options) (emit options resource t) (template resource t) := by
  induction t with
  | comparison c =>
    obtain ⟨field, column, hcolumn, hvalues⟩ := h c (FilterNode.mem_subtrees_self _)
    obtain ⟨hfield, sql, hsql, rfl⟩ := columnOf_eq_some hcolumn
    rw [emit, template, hfield, hcolumn]
    exact emitComparison_emits hsql hvalues
  | group combinator children ih =>
    have hchildren : EmitsAll (offset options) (emitAll options resource children)
        (templates resource children) :=
      emitAll_emits fun child hchild => ih child hchild fun c hc =>
        h c (FilterNode.mem_subtrees_group.mpr (.inr ⟨child, hchild, hc⟩))
    cases children with
    | nil =>
      rw [emit, template]
      exact .text _
    | cons child rest =>
      rw [emit, template]
      · exact hchildren.joined "(".toList
          (if combinator = .and then " AND " else " OR ").toList ")".toList
      · exact List.cons_ne_nil _ _
      · exact List.cons_ne_nil _ _
  | not child ih =>
    have hchild := ih fun c hc => h c (FilterNode.mem_subtrees_not.mpr (.inr hc))
    rw [emit, template]
    exact hchild.around "(NOT COALESCE(".toList ", FALSE))".toList

/-! ### What can be emitted -/

theorem run_bind {α β : Type} {first : Emit α} {next : α → Emit β} {pushed : List FilterValue}
    {result : β × List FilterValue} (h : (first >>= next) pushed = .ok result) :
    ∃ a pushed', first pushed = .ok (a, pushed') ∧ next a pushed' = .ok result := by
  change (first pushed >>= fun (a, pushed') => next a pushed') = .ok result at h
  cases hfirst : first pushed with
  | error thrown =>
    rw [hfirst] at h
    cases h
  | ok pair =>
    rw [hfirst] at h
    exact ⟨pair.1, pair.2, rfl, h⟩

theorem run_lift {α β : Type} {value : Except CompileThrown α} {next : α → Emit β}
    {pushed : List FilterValue} {result : β × List FilterValue}
    (h : ((liftM value : Emit α) >>= next) pushed = .ok result) : ∃ a, value = .ok a := by
  cases value with
  | error thrown => cases h
  | ok a => exact ⟨a, rfl⟩

theorem mapM_resolve_ok {field : FieldDefinition} : ∀ {values : List FilterValue}
    {pushed : List FilterValue} {result : List FilterValue × List FilterValue},
    (values.mapM fun entry => (liftM (resolve options entry field) : Emit FilterValue)) pushed =
      .ok result → ∀ value ∈ values, ∃ resolved, resolve options value field = .ok resolved
  | [], _, _, _ => fun _ hvalue => by cases hvalue
  | value :: values, pushed, result, h => by
    rw [List.mapM_cons] at h
    obtain ⟨first, hfirst⟩ := run_lift h
    obtain ⟨_, pushed', -, hrest⟩ := run_bind h
    obtain ⟨_, _, hrest, -⟩ := run_bind hrest
    exact List.forall_mem_cons.mpr ⟨⟨first, hfirst⟩, mapM_resolve_ok hrest⟩

theorem emitComparison_ok {field : FieldDefinition} {c : Comparison} {pushed : List FilterValue}
    {result : Text × List FilterValue}
    (h : emitComparison options field c pushed = .ok result) :
    (∃ column, field.sql = some column) ∧
      ∀ value ∈ c.values, ∃ resolved, resolve options value field = .ok resolved := by
  rw [emitComparison] at h
  cases hsql : field.sql with
  | none =>
    rw [hsql] at h
    cases h
  | some column =>
    rw [hsql] at h
    refine ⟨⟨column, rfl⟩, ?_⟩
    obtain ⟨name, operator, operand⟩ := c
    cases operator with
    | isEmpty | isNotEmpty => exact fun value hvalue => by cases hvalue
    | in_ | notIn =>
      obtain ⟨_, _, hvalues, -⟩ := run_bind h
      exact mapM_resolve_ok hvalues
    | contains | eq | neq | lt | lte | gt | gte =>
      exact fun value hvalue => List.mem_singleton.mp hvalue ▸ run_lift h

theorem emitAll_ok : ∀ {children : List FilterNode} {pushed : List FilterValue}
    {result : List Text × List FilterValue},
    emitAll options resource children pushed = .ok result →
      ∀ child ∈ children, ∃ pushed' result', emit options resource child pushed' = .ok result'
  | [], _, _, _ => fun _ hchild => by cases hchild
  | child :: rest, pushed, result, h => by
    rw [emitAll] at h
    obtain ⟨part, pushed', hpart, hrest⟩ := run_bind h
    obtain ⟨_, _, hrest, -⟩ := run_bind hrest
    exact List.forall_mem_cons.mpr ⟨⟨pushed, _, hpart⟩, emitAll_ok hrest⟩

/-- Of a tree that is emitted each comparison can be resolved. -/
theorem resolvable_of_emit {t : FilterNode} : ∀ {pushed : List FilterValue}
    {result : Text × List FilterValue}, emit options resource t pushed = .ok result →
      ∀ c, .comparison c ∈ t.subtrees → Resolvable options resource c := by
  induction t with
  | comparison c =>
    intro pushed result h c' hc'
    cases List.mem_singleton.mp hc'
    rw [emit] at h
    cases hfield : findField resource c.field with
    | none =>
      rw [hfield] at h
      cases h
    | some field =>
      rw [hfield] at h
      obtain ⟨⟨column, hcolumn⟩, hvalues⟩ := emitComparison_ok h
      refine ⟨field, column.toList, ?_, hvalues⟩
      rw [columnOf, hfield, Option.bind_some, hcolumn, Option.map_some]
  | group combinator children ih =>
    intro pushed result h c hc
    rcases FilterNode.mem_subtrees_group.mp hc with heq | ⟨child, hchild, hmem⟩
    · cases heq
    cases children with
    | nil => cases hchild
    | cons first rest =>
      rw [emit] at h
      · obtain ⟨_, _, hall, -⟩ := run_bind h
        obtain ⟨pushed', result', hrun⟩ := emitAll_ok hall child hchild
        exact ih child hchild hrun c hmem
      · exact List.cons_ne_nil _ _
  | not child ih =>
    intro pushed result h c hc
    rcases FilterNode.mem_subtrees_not.mp hc with heq | hmem
    · cases heq
    rw [emit] at h
    obtain ⟨_, _, hchild, -⟩ := run_bind h
    exact ih hchild c hmem

theorem compile_ok {dateParse : Text → Date} {t : FilterNode}
    {compiled : CompiledFilter} (h : compile options resource dateParse t = .ok compiled) :
    resource ∈ COMPILABLE_RESOURCES ∧ validate dateParse resource t = [] ∧
      emit options resource t [] = .ok (compiled.sql, compiled.params) := by
  unfold compile at h
  split at h
  · cases h
  next hresource =>
    split at h
    next hvalid =>
      split at h
      next hemit =>
        cases h
        exact ⟨not_not.mp hresource, hvalid, hemit⟩
      · cases h
    · cases h

end

end TaskFlow.Filter.Sql
