import TaskFlow.TqlExponent
import TaskFlow.FilterEvaluate

/-! # What formatting keeps of the meaning

The text of an accepted tree is parsed as a tree of the same meaning, if no number
of it is written with an exponent and no OR group of it is empty: `reparsed`
changes groups, but only groups that are the child they hold.

The other trees hold a part that is changed.  An empty OR, which nothing matches,
comes back as an empty AND, which everything does; and `1e+21` comes back as the
number 1 beside two words that no field of a card is searched for, or is no number
at all.  So `keepsMeaning_subtrees_iff`: every part of a tree keeps its meaning
exactly when the tree is `Printable`.
-/
namespace TaskFlow.Tql

open Binary64 TaskFlow.Filter NumberText

/-! ### The meaning of what is parsed -/

section

variable {engine : Engine} {options : EvaluateOptions} {resource : Resource} {row : EvaluableRow}

theorem evaluate_and (children : List FilterNode) :
    evaluate engine options resource row (.group .and children) =
      every engine options resource row children := by
  cases children with
  | nil => rw [evaluate, every]; rfl
  | cons first rest => rw [evaluate]; nofun

theorem evaluate_or (children : List FilterNode) :
    evaluate engine options resource row (.group .or children) =
      some_ engine options resource row children := by
  cases children with
  | nil => rw [evaluate, some_]; rfl
  | cons first rest => rw [evaluate]; nofun

/-- A group of one child means what the child does. -/
theorem evaluate_singleton (combinator : Combinator) (t : FilterNode) :
    evaluate engine options resource row (.group combinator [t]) =
      evaluate engine options resource row t := by
  cases combinator with
  | and =>
    rw [evaluate_and, every, every]
    rcases evaluate engine options resource row t with _ | b
    · rfl
    · cases b <;> rfl
  | or =>
    rw [evaluate_or, some_, some_]
    rcases evaluate engine options resource row t with _ | b
    · rfl
    · cases b <;> rfl

theorem evaluate_parenthesized (t : FilterNode) :
    evaluate engine options resource row (parenthesized t) =
      evaluate engine options resource row t := by
  cases t with
  | group _ _ => rfl
  | comparison _ => exact evaluate_singleton _ _
  | not _ => exact evaluate_singleton _ _

theorem evaluate_joined (combinator : Combinator) (first : FilterNode) (rest : List FilterNode) :
    evaluate engine options resource row (joined combinator first rest) =
      evaluate engine options resource row (.group combinator (first :: rest)) := by
  cases rest with
  | nil => exact (evaluate_singleton combinator first).symm
  | cons _ _ => rfl

/-- Children of the same meaning make groups of the same meaning. -/
theorem evaluate_group_congr (combinator : Combinator) {f : FilterNode → FilterNode} :
    ∀ {children : List FilterNode},
      (∀ child ∈ children, evaluate engine options resource row (f child) =
        evaluate engine options resource row child) →
      evaluate engine options resource row (.group combinator (children.map f)) =
        evaluate engine options resource row (.group combinator children)
  | [], _ => rfl
  | child :: rest, h => by
    have hchild := h child List.mem_cons_self
    have hrest := evaluate_group_congr combinator
      fun c hc => h c (List.mem_cons_of_mem _ hc)
    cases combinator with
    | and =>
      rw [evaluate_and, evaluate_and] at hrest
      rw [evaluate_and, evaluate_and, List.map_cons, every, every, hchild, hrest]
    | or =>
      rw [evaluate_or, evaluate_or] at hrest
      rw [evaluate_or, evaluate_or, List.map_cons, some_, some_, hchild, hrest]

theorem reparsedAll_eq_map (children : List FilterNode) :
    reparsedAll children = children.map reparsed := by
  induction children with
  | nil => rfl
  | cons child rest ih => rw [reparsedAll, ih, List.map_cons]

/-- **What is parsed means the same**, unless an OR of nothing is in the tree. -/
theorem evaluate_reparsed {t : FilterNode} (h : .group .or [] ∉ t.subtrees) :
    evaluate engine options resource row (reparsed t) =
      evaluate engine options resource row t := by
  induction t with
  | comparison c => rfl
  | group combinator children ih =>
    have hchildren : ∀ child ∈ children, evaluate engine options resource row (reparsed child) =
        evaluate engine options resource row child := fun child hchild =>
      ih child hchild fun hor => h (FilterNode.mem_subtrees_group.mpr (Or.inr ⟨child, hchild, hor⟩))
    cases children with
    | nil =>
      cases combinator with
      | and => rfl
      | or => exact absurd (FilterNode.mem_subtrees_self _) h
    | cons first rest =>
      rw [reparsed, evaluate_parenthesized, evaluate_joined, reparsedAll_eq_map, ← List.map_cons]
      exact evaluate_group_congr combinator hchildren
  | not child ih =>
    rw [reparsed, evaluate, evaluate,
      ih fun hor => h (FilterNode.mem_subtrees_not.mpr (Or.inr hor))]

end

/-! ### Printable trees -/

/-- The numbers are written without an exponent, and an OR has children. -/
def PrintableNode : FilterNode → Prop
  | .comparison c => ∀ value ∈ c.values, PlainValue value
  | .group .or [] => False
  | .group _ _ => True
  | .not _ => True

instance : DecidablePred PrintableNode
  | .comparison c => inferInstanceAs (Decidable (∀ value ∈ c.values, PlainValue value))
  | .group .or [] => inferInstanceAs (Decidable False)
  | .group .or (_ :: _) => inferInstanceAs (Decidable True)
  | .group .and _ => inferInstanceAs (Decidable True)
  | .not _ => inferInstanceAs (Decidable True)

def Printable (t : FilterNode) : Prop := ∀ s ∈ t.subtrees, PrintableNode s

instance : DecidablePred Printable := fun t => List.decidableBAll _ t.subtrees

/-- The tree passes the wire schema and the validation for the resource. -/
structure Accepted (engine : Engine) (resource : Resource) (t : FilterNode) : Prop where
  tree : FilterTree.accepts t = true
  valid : validate engine.dateParse resource t = []

/-- The text of the tree is parsed as a tree that matches the same rows, or throws
on the same. -/
def KeepsMeaning (engine : Engine) (resource : Resource) (t : FilterNode) : Prop :=
  ∃ t', parse (format (some t)) = .ok (some t') none ∧
    ∀ options row, evaluate engine options resource row t' =
      evaluate engine options resource row t

variable {engine : Engine} {resource : Resource}

theorem writable_of_checkComparison {c : Comparison} {dateParse : Text → Date}
    (hvalid : checkComparison dateParse resource c = [])
    (hplain : ∀ value ∈ c.values, PlainValue value) : Writable c := by
  obtain ⟨field, hfield, -, -⟩ := checkComparison_eq_nil hvalid
  obtain ⟨hword, hkind⟩ := isWord_of_findField hfield
  exact ⟨hword, hkind, hplain⟩

/-- **A printable tree keeps its meaning.** -/
theorem keepsMeaning_of_printable {t : FilterNode}
    (hvalid : validate engine.dateParse resource t = []) (h : Printable t) :
    KeepsMeaning engine resource t := by
  refine ⟨reparsed t, parse_emit fun c hc => ?_, fun options row => evaluate_reparsed fun hor => ?_⟩
  · exact writable_of_checkComparison (validate_ok_iff.mp hvalid c hc) (h _ hc)
  · exact h _ hor

/-! ### The other trees -/

/-- An empty OR comes back as an empty AND. -/
theorem not_keepsMeaning_or_nil : ¬KeepsMeaning engine resource (.group .or []) := by
  rintro ⟨t', hparse, hmeaning⟩
  have hor := parse_emit (t := .group .or []) fun c hc => by
    cases List.mem_singleton.mp hc
  rw [format, hor] at hparse
  cases hparse
  have h := hmeaning ⟨none, none⟩ fun _ => .undefined
  rw [reparsed, evaluate, evaluate] at h
  cases h

theorem number_field : ∀ {resource : Resource}, ∀ field ∈ fieldsOf resource,
    field.type = .number → resource = .card ∧ field.operators = none := by
  intro resource
  cases resource <;> decide

theorem findField_text : findField .card "text".toList = none :=
  Option.isNone_iff_eq_none.mp (by decide)

/-- No card has a text to search. -/
theorem evaluate_searched (options : EvaluateOptions) (row : EvaluableRow) (term : Text) :
    evaluate engine options .card row (searched term) = .ok false := by
  rw [searched, compare, evaluate, findField_text]

theorem evaluate_searched_ne {options : EvaluateOptions} {row : EvaluableRow} {t : FilterNode}
    {terms : List FilterNode} {term : Text} :
    evaluate engine options .card row (.group .and (t :: searched term :: terms)) ≠ .ok true := by
  rw [evaluate_and, every, every, evaluate_searched]
  rcases evaluate engine options .card row t with _ | b
  · nofun
  · cases b <;> nofun

/-- The operator of the tree, and its text. -/
def ScalarOperator.operator : ScalarOperator → Operator × Text
  | eq => (.eq, "=".toList)
  | neq => (.neq, "!=".toList)
  | lt => (.lt, "<".toList)
  | lte => (.lte, "<=".toList)
  | gt => (.gt, ">".toList)
  | gte => (.gte, ">=".toList)
  | contains => (.contains, "CONTAINS".toList)

section

variable {operator : ScalarOperator} (hoperator : operator ≠ .contains)

include hoperator

theorem lookup_operator : scalarOperators.lookup operator.operator.2 = some operator := by
  cases operator with
  | contains => exact absurd rfl hoperator
  | eq | neq | lt | lte | gt | gte => rfl

theorem Lexes.scalarOperator : Lexes operator.operator.2 [opShape operator.operator.2] := by
  cases operator with
  | contains => exact absurd rfl hoperator
  | eq => exact .eq
  | neq => exact .neq
  | lt => exact .lt
  | lte => exact .lte
  | gt => exact .gt
  | gte => exact .gte

theorem evaluate_compare {options : EvaluateOptions} {row : EvaluableRow} {name : Text}
    {field : FieldDefinition} (hfield : findField resource name = some field)
    (value : FilterValue) :
    evaluate engine options resource row (compare name operator value) =
      compareOrder engine options field operator.operator.1 value (row field.name) := by
  cases operator with
  | contains => exact absurd rfl hoperator
  | eq | neq | lt | lte | gt | gte => rw [compare, evaluate, hfield]; rfl

end

theorem emit_compare (field : Text) (operator : ScalarOperator) (value : FilterValue) :
    emit (compare field operator value) =
      field ++ ' ' :: (operator.operator.2 ++ ' ' :: emitValue value) := by
  cases operator <;> rw [compare, emit, emitComparison, List.append_assoc] <;> rfl

/-- A comparison of a number field with a number. -/
theorem exists_compare {c : Comparison} {x : Number} (hop : c.operator ∈ operatorsByType .number)
    (hx : .number x ∈ c.values) :
    ∃ operator, operator ≠ .contains ∧
      FilterNode.comparison c = compare c.field operator (.number x) := by
  obtain ⟨field, operator, value⟩ := c
  cases operator with
  | in_ | notIn | contains => simp [operatorsByType] at hop
  | isEmpty | isNotEmpty => cases hx
  | eq =>
    cases List.mem_singleton.mp hx
    exact ⟨.eq, nofun, rfl⟩
  | neq =>
    cases List.mem_singleton.mp hx
    exact ⟨.neq, nofun, rfl⟩
  | lt =>
    cases List.mem_singleton.mp hx
    exact ⟨.lt, nofun, rfl⟩
  | lte =>
    cases List.mem_singleton.mp hx
    exact ⟨.lte, nofun, rfl⟩
  | gt =>
    cases List.mem_singleton.mp hx
    exact ⟨.gt, nofun, rfl⟩
  | gte =>
    cases List.mem_singleton.mp hx
    exact ⟨.gte, nofun, rfl⟩

theorem compareOrder_number {options : EvaluateOptions} {field : FieldDefinition}
    (htype : field.type = .number) (operator : Operator) (x : Finite) (y : Number) :
    compareOrder engine options field operator (.number (.finite x)) (.number y) =
      .ok (operator.holds (Filter.orderBy (y.eq (.finite x)) (y.lt (.finite x)))) := by
  simp [compareOrder, resolve, htype, isNullish, Filter.orderOf, bind, Except.bind, pure, Except.pure]

theorem finite_eq (x : Finite) : Number.eq (.finite x) (.finite x) = true := beq_self_eq_true _

/-- Some row matches a comparison of a number field with a finite number. -/
theorem exists_row {operator : ScalarOperator} (hoperator : operator ≠ .contains) (x : Finite) :
    ∃ y : Number, operator.operator.1.holds
      (Filter.orderBy (y.eq (.finite x)) (y.lt (.finite x))) = true := by
  cases operator with
  | contains => exact absurd rfl hoperator
  | eq | lte | gte =>
    refine ⟨.finite x, ?_⟩
    rw [finite_eq]
    rfl
  | neq | lt => exact ⟨.infinity true, rfl⟩
  | gt => exact ⟨.infinity false, rfl⟩

/-- A comparison with a number that is written with an exponent does not keep its meaning. -/
theorem not_keepsMeaning_exponent {c : Comparison} {x : Finite}
    (hvalid : checkComparison engine.dateParse resource c = [])
    (hx : .number (.finite x) ∈ c.values) (hplain : ¬Plain x) :
    ¬KeepsMeaning engine resource (.comparison c) := by
  obtain ⟨field, hfield, hop, hvalues⟩ := checkComparison_eq_nil hvalid
  -- only a number field takes a number, and only a card has one
  have htype : field.type = .number := by
    have hcheck := hvalues _ hx
    unfold checkValue checkTyped at hcheck
    cases htype : field.type <;> simp [htype] at hcheck ⊢
  obtain ⟨rfl, hoperators⟩ := number_field field (findField_spec hfield).1 htype
  rw [operatorsFor, hoperators, Option.getD_none, htype] at hop
  obtain ⟨operator, hoperator, hcompare⟩ := exists_compare hop hx
  obtain ⟨hword, hkind⟩ := isWord_of_findField hfield
  have hlex := Lexes.word hword
  rw [hkind] at hlex
  rw [hcompare]
  rintro ⟨t', hparse, hmeaning⟩
  rw [format, emit_compare] at hparse
  rcases parse_exponent hlex (.scalarOperator hoperator) (lookup_operator hoperator) hplain with
    ⟨errors, hfailed⟩ | ⟨y, term, hok⟩
  · rw [emitValue, hfailed] at hparse
    cases hparse
  · rw [emitValue, hok] at hparse
    cases hparse
    -- some row matches the comparison, and no card matches the words behind it
    obtain ⟨z, hz⟩ := exists_row hoperator x
    have h := hmeaning ⟨none, none⟩ fun _ => .number z
    rw [evaluate_compare hoperator hfield, compareOrder_number htype, hz] at h
    exact evaluate_searched_ne h

/-- A value of an accepted comparison that is not plain is a finite number. -/
theorem exists_finite {c : Comparison} {value : FilterValue}
    (haccepts : (FilterNode.comparison c).shapeOk = true) (hvalue : value ∈ c.values)
    (hplain : ¬PlainValue value) : ∃ x, value = .number (.finite x) ∧ ¬Plain x := by
  simp only [FilterNode.shapeOk, Comparison.accepts, Bool.and_eq_true, List.all_eq_true]
    at haccepts
  have hvalue := haccepts.2 value hvalue
  cases value with
  | number n =>
    cases n with
    | finite x => exact ⟨x, rfl, hplain⟩
    | nan => cases hvalue
    | infinity _ => cases hvalue
  | string _ => exact absurd trivial hplain
  | boolean _ => exact absurd trivial hplain
  | null => exact absurd trivial hplain

/-- **The parts of an accepted tree keep their meanings exactly if it is printable**, and
then so does the tree. -/
theorem keepsMeaning_subtrees_iff {t : FilterNode} (h : Accepted engine resource t) :
    (Printable t → KeepsMeaning engine resource t) ∧
      ((∀ s ∈ t.subtrees, KeepsMeaning engine resource s) ↔ Printable t) := by
  have hcomparison := validate_ok_iff.mp h.valid
  have hparts : ∀ s ∈ t.subtrees, validate engine.dateParse resource s = [] := fun s hs =>
    validate_ok_iff.mpr fun c hc => hcomparison c (FilterNode.subtrees_trans hc hs)
  refine ⟨keepsMeaning_of_printable h.valid, fun hkeeps s hs => ?_, fun hprintable s hs => ?_⟩
  · match s, hs, hkeeps s hs with
    | .comparison c, hs, hkeep =>
      -- a number that is not plain would change the comparison itself
      intro value hvalue
      by_contra hplain
      obtain ⟨x, rfl, hx⟩ := exists_finite (FilterTree.shapeOk_of_accepts h.tree hs) hvalue hplain
      exact not_keepsMeaning_exponent (hcomparison c hs) hvalue hx hkeep
    | .group .or [], hs, hkeep => exact absurd hkeep not_keepsMeaning_or_nil
    | .group .or (_ :: _), _, _ => trivial
    | .group .and _, _, _ => trivial
    | .not _, _, _ => trivial
  · exact keepsMeaning_of_printable (hparts s hs) fun r hr =>
      hprintable r (FilterNode.subtrees_trans hr hs)

/-! ### Examples of both -/

/-- An engine that reads no dates and knows ASCII. -/
def asciiEngine : Engine := ⟨fun _ => none, List.map Char.toLower, fun _ => "object".toList⟩

/-- Cards with the number `10 ^ 21`. -/
def largeNumberFilter : FilterNode :=
  .comparison ⟨"number".toList, .eq,
    .number (.finite ⟨10 ^ 21, by decide +kernel, by decide +kernel⟩)⟩

example : format (some largeNumberFilter) = "number = 1e+21".toList := by decide +kernel

theorem largeNumberFilter_loses_meaning :
    Accepted asciiEngine .card largeNumberFilter ∧
      ¬KeepsMeaning asciiEngine .card largeNumberFilter :=
  ⟨⟨by decide, by decide⟩,
    not_keepsMeaning_exponent (by decide +kernel) List.mem_cons_self (by decide +kernel)⟩

/-- Groups of one child and of none, and a number with a point. -/
def looseFilter : FilterNode :=
  .group .or [.group .and [], .group .or [
    .comparison ⟨"number".toList, .lt,
      .number (.finite ⟨1 / 2, by decide +kernel, by decide +kernel⟩)⟩]]

theorem looseFilter_keeps_meaning :
    Printable looseFilter ∧ KeepsMeaning asciiEngine .card looseFilter ∧
      ∀ s ∈ looseFilter.subtrees, KeepsMeaning asciiEngine .card s := by
  have hprintable : Printable looseFilter := by decide +kernel
  have haccepted : Accepted asciiEngine .card looseFilter :=
    ⟨by decide, by decide⟩
  have h := keepsMeaning_subtrees_iff haccepted
  exact ⟨hprintable, h.1 hprintable, h.2.mpr hprintable⟩

end TaskFlow.Tql
