import TaskFlow.FilterTemplate

/-! # SQL that depends on no value

The SQL of a compiled tree is its template with the holes numbered, so the values leave it alone,
but for where one is null, and its placeholders are numbered in order, each once
(`compile_parametric`).
-/
namespace TaskFlow.Filter

/-- A value without what it is, but for whether it is null. -/
def FilterValue.masked (value : FilterValue) : FilterValue :=
  if value = .null then .null else .boolean true

def Operand.masked : (arity : Arity) → Operand arity → Operand arity
  | .none, () => ()
  | .scalar, value => FilterValue.masked value
  | .list, values => values.map FilterValue.masked

def Comparison.masked (c : Comparison) : Comparison :=
  ⟨c.field, c.operator, Operand.masked _ c.value⟩

namespace FilterNode

mutual

/-- The shape of a tree: its fields, its operators, how long its lists are and where it is null. -/
def masked : FilterNode → FilterNode
  | .comparison c => .comparison c.masked
  | .group combinator children => .group combinator (maskedAll children)
  | .not child => .not child.masked

def maskedAll : List FilterNode → List FilterNode
  | [] => []
  | child :: rest => child.masked :: maskedAll rest

end

end FilterNode

namespace Sql

open Template

variable {resource : Resource}

/-! ### Templates of masked trees -/

theorem masked_eq_null (value : FilterValue) : value.masked = .null ↔ value = .null := by
  rw [FilterValue.masked]
  split
  next h => exact iff_of_true rfl h
  next h => exact iff_of_false nofun h

theorem membersTemplate_masked (field : FieldDefinition) (column : Text) (negated : Bool)
    (values : List FilterValue) :
    membersTemplate field column negated (values.map FilterValue.masked) =
      membersTemplate field column negated values := by
  rw [membersTemplate, membersTemplate, listTemplate, listTemplate, List.isEmpty_map, List.map_map]
  rfl

theorem orderTemplate_masked (field : FieldDefinition) (column : Text) (operator : Operator)
    (value : FilterValue) :
    orderTemplate field column operator value.masked =
      orderTemplate field column operator value := by
  simp only [orderTemplate, masked_eq_null]

theorem comparisonTemplate_masked (field : FieldDefinition) (column : Text) (c : Comparison) :
    comparisonTemplate field column c.masked = comparisonTemplate field column c := by
  obtain ⟨name, operator, operand⟩ := c
  cases operator with
  | isEmpty | isNotEmpty => rfl
  | contains => rfl
  | in_ => exact membersTemplate_masked field column false operand
  | notIn => exact membersTemplate_masked field column true operand
  | eq | neq | lt | lte | gt | gte => exact orderTemplate_masked field column _ operand

theorem templates_masked : ∀ {children : List FilterNode},
    (∀ child ∈ children, template resource child.masked = template resource child) →
      templates resource (FilterNode.maskedAll children) = templates resource children
  | [], _ => rfl
  | child :: rest, h => by
    obtain ⟨hchild, hrest⟩ := List.forall_mem_cons.mp h
    rw [FilterNode.maskedAll, templates, templates, hchild, templates_masked hrest]

/-- **The template is that of the shape.** -/
theorem template_masked (t : FilterNode) : template resource t.masked = template resource t := by
  induction t with
  | comparison c =>
    rw [FilterNode.masked, template, template]
    have hcolumn : columnOf resource c.masked = columnOf resource c := rfl
    rw [hcolumn]
    split
    · exact comparisonTemplate_masked _ _ c
    · rfl
  | group combinator children ih =>
    cases children with
    | nil => rfl
    | cons first rest =>
      have hchildren := templates_masked ih
      rw [FilterNode.masked, FilterNode.maskedAll] at *
      rw [template, template, hchildren]
      · exact List.cons_ne_nil _ _
      · exact List.cons_ne_nil _ _
  | not child ih => rw [FilterNode.masked, template, template, ih]

/-! ### Templates are clean -/

/-- A text with no dollar sign. -/
def Plain (text : Text) : Prop := '$' ∉ text

theorem Plain.append {a b : Text} (ha : Plain a) (hb : Plain b) : Plain (a ++ b) :=
  fun h => (List.mem_append.mp h).elim ha hb

/-- The characters of a literal are compared one by one, and not decoded. -/
theorem plain_literal {chars : List Char} (h : (chars.all fun c => c != '$') = true) :
    Plain (String.ofList chars).toList := by
  rw [Plain, String.toList_ofList]
  intro hmem
  cases List.all_eq_true.mp h _ hmem

theorem plain_concat {a b : String} (ha : Plain a.toList) (hb : Plain b.toList) :
    Plain (a ++ b).toList := by
  rw [String.toList_append]
  exact ha.append hb

/-- No column has a dollar sign. -/
theorem columns_plain (resource : Resource) :
    ∀ field ∈ fieldsOf resource, ∀ sql ∈ field.sql, Plain sql.toList := by
  cases resource with
  | card =>
    simp only [fieldsOf, cardFields, List.forall_mem_cons, Option.mem_some_iff, forall_eq']
    iterate 18 refine ⟨plain_literal rfl, ?_⟩
    exact ⟨plain_concat (plain_literal rfl) (plain_literal rfl), by simp⟩
  | search =>
    simp only [fieldsOf, searchFields, List.forall_mem_cons, Option.mem_some_iff, forall_eq']
    iterate 2 refine ⟨plain_literal rfl, ?_⟩
    refine ⟨plain_concat (plain_literal rfl) (plain_literal rfl), ?_⟩
    iterate 4 refine ⟨plain_literal rfl, ?_⟩
    simp
  | connector => simp [fieldsOf, connectorFields]

theorem columnOf_plain {c : Comparison} {field : FieldDefinition} {column : Text}
    (h : columnOf resource c = some (field, column)) : Plain column := by
  obtain ⟨hfield, sql, hsql, rfl⟩ := columnOf_eq_some h
  exact columns_plain resource field (findField_spec hfield).1 sql hsql

theorem clean_text {text : Text} (h : Plain text) : Clean [.text text] := .text h .nil

/-- Text around a clean template. -/
theorem clean_around {before behind : Text} {pieces : List Piece} (hbefore : Plain before)
    (h : Clean pieces) (hplain : Plain behind)
    (hbehind : ∃ c tail, behind = c :: tail ∧ c.isDigit = false) :
    Clean (.text before :: pieces ++ [.text behind]) := by
  obtain ⟨c, tail, rfl, hc⟩ := hbehind
  exact .text hbefore (h.append hc (clean_text hplain))

theorem clean_hole {behind : Text} (hplain : Plain behind)
    (hbehind : ∃ c tail, behind = c :: tail ∧ c.isDigit = false) : Clean [.hole, .text behind] := by
  obtain ⟨c, tail, rfl, hc⟩ := hbehind
  exact .hole hc (clean_text hplain)

theorem clean_cast (field : FieldDefinition) : Clean (castTemplate field) := by
  have hcast : castOf field = [] ∨
      Plain (castOf field) ∧ ∃ tail, castOf field = ':' :: tail := by
    rw [castOf]
    split
    · exact .inr ⟨plain_literal rfl, _, rfl⟩
    · exact .inr ⟨plain_literal rfl, _, rfl⟩
    · exact .inl rfl
  rw [castTemplate]
  rcases hcast with hnone | ⟨hplain, tail, hcons⟩
  · rw [hnone]
    exact .last
  · rw [hcons] at hplain ⊢
    exact clean_hole hplain ⟨_, _, rfl, rfl⟩

/-- Clean templates with text between them. -/
theorem clean_joined {separator : Text} {parts : List (List Piece)} (hplain : Plain separator)
    (hseparator : ∃ c tail, separator = c :: tail ∧ c.isDigit = false)
    (h : ∀ pieces ∈ parts, Clean pieces) : Clean ([.text separator].intercalate parts) := by
  obtain ⟨c, tail, rfl, hc⟩ := hseparator
  exact .intercalate hc hplain h

theorem clean_list (values : List FilterValue) : Clean (listTemplate values) := by
  have hcomma : Plain ", ".toList := plain_literal rfl
  refine clean_joined hcomma ⟨_, _, rfl, rfl⟩ fun pieces hpieces => ?_
  obtain ⟨_, -, rfl⟩ := List.mem_map.mp hpieces
  exact .last

section
variable {field : FieldDefinition} {column : Text} (hcolumn : Plain column)
include hcolumn

theorem clean_members (negated : Bool) (values : List FilterValue) :
    Clean (membersTemplate field column negated values) := by
  have hlist := clean_list values
  have hnot : Plain "(NOT COALESCE(".toList := plain_literal rfl
  have hopen : Plain "(".toList := plain_literal rfl
  have hfalse : Plain ", FALSE))".toList := plain_literal rfl
  have hclose : Plain ")".toList := plain_literal rfl
  rw [membersTemplate]
  split
  · cases negated <;> exact clean_text (plain_literal rfl)
  by_cases harray : field.type = .uuidArray
  · have hbefore : Plain (column ++ " && ARRAY[".toList) := hcolumn.append (plain_literal rfl)
    have hbehind : Plain "]::uuid[]".toList := plain_literal rfl
    simp only [if_pos harray]
    cases negated with
    | true =>
      exact clean_around (hnot.append hbefore) hlist (hbehind.append hfalse) ⟨_, _, rfl, rfl⟩
    | false =>
      exact clean_around (hopen.append hbefore) hlist (hbehind.append hclose) ⟨_, _, rfl, rfl⟩
  · have hbefore : Plain (column ++ " IN (".toList) := hcolumn.append (plain_literal rfl)
    simp only [if_neg harray]
    cases negated with
    | true =>
      exact clean_around (hnot.append hbefore) hlist (hclose.append hfalse) ⟨_, _, rfl, rfl⟩
    | false => exact clean_around hbefore hlist hclose ⟨_, _, rfl, rfl⟩

theorem clean_order (operator : Operator) (value : FilterValue) :
    Clean (orderTemplate field column operator value) := by
  rw [orderTemplate]
  split
  · refine clean_text (hcolumn.append ?_)
    split <;> exact plain_literal rfl
  · refine .text ?_ (clean_cast field)
    refine ((hcolumn.append (plain_literal rfl)).append ?_).append (plain_literal rfl)
    cases operator <;> exact plain_literal rfl

theorem clean_comparison (c : Comparison) : Clean (comparisonTemplate field column c) := by
  have hempty : Plain (emitEmpty field column) := by
    rw [emitEmpty]
    split
    · exact ((((Plain.append (plain_literal rfl) hcolumn).append (plain_literal rfl)).append
        hcolumn).append (plain_literal rfl))
    · exact hcolumn.append (plain_literal rfl)
  have hnotEmpty : Plain (emitNotEmpty field column) := by
    rw [emitNotEmpty]
    split
    · exact ((((Plain.append (plain_literal rfl) hcolumn).append (plain_literal rfl)).append
        hcolumn).append (plain_literal rfl))
    · exact hcolumn.append (plain_literal rfl)
  obtain ⟨name, operator, operand⟩ := c
  cases operator with
  | isEmpty => exact clean_text hempty
  | isNotEmpty => exact clean_text hnotEmpty
  | in_ => exact clean_members hcolumn false operand
  | notIn => exact clean_members hcolumn true operand
  | contains =>
    have hescape : Plain " ESCAPE '\\'".toList := plain_literal rfl
    exact .text (hcolumn.append (plain_literal rfl)) (clean_hole hescape ⟨_, _, rfl, rfl⟩)
  | eq | neq | lt | lte | gt | gte => exact clean_order hcolumn _ operand

end

theorem clean_templates : ∀ {children : List FilterNode},
    (∀ child ∈ children, Clean (template resource child)) →
      ∀ pieces ∈ templates resource children, Clean pieces
  | [], _ => fun _ hmem => by cases hmem
  | child :: rest, h => by
    obtain ⟨hchild, hrest⟩ := List.forall_mem_cons.mp h
    rw [templates]
    exact List.forall_mem_cons.mpr ⟨hchild, clean_templates hrest⟩

theorem clean_template (t : FilterNode) : Clean (template resource t) := by
  induction t with
  | comparison c =>
    rw [template]
    split
    next hcolumn => exact clean_comparison (columnOf_plain hcolumn) c
    · exact .nil
  | group combinator children ih =>
    cases children with
    | nil =>
      rw [template]
      cases combinator <;> exact clean_text (plain_literal rfl)
    | cons first rest =>
      have hparts := clean_templates ih
      rw [template]
      · refine clean_around (plain_literal rfl) ?_ (plain_literal rfl) ⟨_, _, rfl, rfl⟩
        have hand : Plain " AND ".toList := plain_literal rfl
        have hor : Plain " OR ".toList := plain_literal rfl
        split
        · exact clean_joined hand ⟨_, _, rfl, rfl⟩ hparts
        · exact clean_joined hor ⟨_, _, rfl, rfl⟩ hparts
      · exact List.cons_ne_nil _ _
  | not child ih =>
    rw [template]
    exact clean_around (plain_literal rfl) ih (plain_literal rfl) ⟨_, _, rfl, rfl⟩

/-! ### Compiled trees -/

/-- What is compiled is the template, with a parameter for each hole. -/
theorem compile_template {dateParse : Text → Date} {options : CompileOptions} {t : FilterNode}
    {compiled : CompiledFilter} (h : compile options resource dateParse t = .ok compiled) :
    compiled.sql = fill (offset options) (template resource t) ∧
      compiled.params.length = holes (template resource t) := by
  obtain ⟨-, -, hemit⟩ := compile_ok h
  obtain ⟨more, hrun, hmore⟩ := emit_emits (resolvable_of_emit hemit) []
  rw [hrun] at hemit
  obtain ⟨hsql, hparams⟩ := Prod.mk.inj (Except.ok.inj hemit)
  rw [← hsql, ← hparams]
  exact ⟨rfl, hmore⟩

/-- **The SQL depends on no value but null**, and its placeholders are numbered one after another,
each once. -/
theorem compile_parametric {dateParse : Text → Date} {options : CompileOptions} {t : FilterNode}
    {compiled : CompiledFilter} (h : compile options resource dateParse t = .ok compiled) :
    placeholders compiled.sql = List.range' (offset options) compiled.params.length ∧
      ∀ options' t' compiled', options'.startIndex = options.startIndex →
        t'.masked = t.masked → compile options' resource dateParse t' = .ok compiled' →
          compiled'.sql = compiled.sql := by
  obtain ⟨hsql, hparams⟩ := compile_template h
  refine ⟨by rw [hsql, hparams, placeholders_fill (clean_template t)], ?_⟩
  intro options' t' compiled' hstart hmasked h'
  rw [hsql, (compile_template h').1, offset, offset, hstart, ← template_masked t', hmasked,
    template_masked]

def urgentFilter : FilterNode :=
  .group .and
    [.comparison ⟨"priority".toList, .in_, [.string "urgent".toList, .string "high".toList]⟩,
      .not (.comparison ⟨"title".toList, .contains, .string "50%".toList⟩)]

def urgentCompiled : CompiledFilter where
  sql := ("(work.cards.priority IN ($4, $5) AND " ++
    "(NOT COALESCE(work.cards.title ILIKE $6 ESCAPE '\\', FALSE)))").toList
  params := [.string "urgent".toList, .string "high".toList, .string "%50\\%%".toList]

theorem urgentFilter_compiles :
    compile ⟨none, some 4, none⟩ .card (fun _ => none) urgentFilter = .ok urgentCompiled := by
  decide

theorem placeholders_urgentFilter : placeholders urgentCompiled.sql = [4, 5, 6] :=
  (compile_parametric urgentFilter_compiles).1

end Sql

end TaskFlow.Filter
