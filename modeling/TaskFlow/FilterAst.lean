import TaskFlow.Binary64
import Mathlib.Data.List.Basic

/-! # The filter tree

A filter is a tree of comparisons under NOT and AND/OR groups.  An operator takes
no value, one value or a list; `Operand` gives each operator the operand it takes,
which is what `ComparisonSchema` checks, so a comparison with a spare or a missing
value cannot be built.

`FilterTree.accepts` is the rest of the wire schema: the lengths, the finite
numbers, and the budget of nodes and levels that `measure` counts.
-/
namespace TaskFlow.Filter

open Binary64

/-- A text, as its characters. -/
abbrev Text := List Char

inductive Operator where
  | eq | neq | lt | lte | gt | gte | in_ | notIn | contains | isEmpty | isNotEmpty
  deriving DecidableEq

/-- The operator on the wire. -/
def Operator.text : Operator → String
  | eq => "eq"
  | neq => "neq"
  | lt => "lt"
  | lte => "lte"
  | gt => "gt"
  | gte => "gte"
  | in_ => "in"
  | notIn => "not_in"
  | contains => "contains"
  | isEmpty => "is_empty"
  | isNotEmpty => "is_not_empty"

def nullaryOperators : List Operator := [.isEmpty, .isNotEmpty]

def listOperators : List Operator := [.in_, .notIn]

inductive FilterValue where
  | string (text : Text)
  | number (x : Number)
  | boolean (b : Bool)
  | null
  deriving DecidableEq

/-- Whoever is running the query. -/
def ME : Text := "@me".toList

inductive Arity where
  | none | scalar | list
  deriving DecidableEq

/-- What `ComparisonSchema` asks of the value of an operator. -/
@[reducible] def Operator.arity : Operator → Arity
  | isEmpty | isNotEmpty => .none
  | in_ | notIn => .list
  | eq | neq | lt | lte | gt | gte | contains => .scalar

@[reducible] def Operand : Arity → Type
  | .none => Unit
  | .scalar => FilterValue
  | .list => List FilterValue

/-- The values of an operand, in order. -/
def Operand.values : (arity : Arity) → Operand arity → List FilterValue
  | .none, () => []
  | .scalar, value => [value]
  | .list, values => values

structure Comparison where
  field : Text
  operator : Operator
  value : Operand operator.arity

def Comparison.values (c : Comparison) : List FilterValue := Operand.values _ c.value

inductive Combinator where
  | and | or
  deriving DecidableEq

inductive FilterNode where
  | comparison (c : Comparison)
  | group (combinator : Combinator) (children : List FilterNode)
  | not (child : FilterNode)

namespace FilterNode

/-- What holds of a tree whenever it holds of its children holds of every tree. -/
@[elab_as_elim, induction_eliminator]
theorem induct {P : FilterNode → Prop} (comparison : ∀ c, P (.comparison c))
    (group : ∀ combinator children, (∀ child ∈ children, P child) → P (.group combinator children))
    (not : ∀ child, P child → P (.not child)) (t : FilterNode) : P t :=
  @FilterNode.rec P (fun children => ∀ child ∈ children, P child) comparison
    (fun combinator children ih => group combinator children ih) not
    (fun _ h => nomatch h) (fun _ _ hfirst hrest => List.forall_mem_cons.mpr ⟨hfirst, hrest⟩) t

mutual

/-- A tree and everything below it. -/
def subtrees : FilterNode → List FilterNode
  | .comparison c => [.comparison c]
  | .group combinator children => .group combinator children :: subtreesOf children
  | .not child => .not child :: child.subtrees

def subtreesOf : List FilterNode → List FilterNode
  | [] => []
  | child :: rest => child.subtrees ++ subtreesOf rest

end

theorem mem_subtreesOf {s : FilterNode} :
    ∀ {children : List FilterNode}, s ∈ subtreesOf children ↔ ∃ child ∈ children, s ∈ child.subtrees
  | [] => by simp [subtreesOf]
  | child :: rest => by
    rw [subtreesOf, List.mem_append, mem_subtreesOf, List.exists_mem_cons_iff]

theorem mem_subtrees_self (t : FilterNode) : t ∈ t.subtrees := by
  cases t <;> exact List.mem_cons_self

theorem mem_subtrees_group {s : FilterNode} {combinator : Combinator}
    {children : List FilterNode} :
    s ∈ (FilterNode.group combinator children).subtrees ↔
      s = .group combinator children ∨ ∃ child ∈ children, s ∈ child.subtrees := by
  rw [subtrees, List.mem_cons, mem_subtreesOf]

theorem mem_subtrees_not {s child : FilterNode} :
    s ∈ (FilterNode.not child).subtrees ↔ s = .not child ∨ s ∈ child.subtrees := by
  rw [subtrees, List.mem_cons]

theorem subtrees_trans {r s t : FilterNode} (hr : r ∈ s.subtrees) (hs : s ∈ t.subtrees) :
    r ∈ t.subtrees := by
  induction t with
  | comparison c =>
    rw [List.mem_singleton.mp hs] at hr
    exact hr
  | group combinator children ih =>
    rcases (mem_subtrees_group).mp hs with rfl | ⟨child, hchild, h⟩
    · exact hr
    · exact (mem_subtrees_group).mpr (Or.inr ⟨child, hchild, ih child hchild h⟩)
  | not child ih =>
    rcases (mem_subtrees_not).mp hs with rfl | h
    · exact hr
    · exact (mem_subtrees_not).mpr (Or.inr (ih h))

end FilterNode

/-! ### The wire schema -/

def MAX_DEPTH : ℕ := 12

def MAX_NODES : ℕ := 200

def MAX_LIST_LENGTH : ℕ := 200

def FilterValue.accepts : FilterValue → Bool
  | .string text => decide (text.length ≤ 500)
  | .number (.finite _) => true
  | .number _ => false
  | .boolean _ => true
  | .null => true

def Comparison.accepts (c : Comparison) : Bool :=
  decide (1 ≤ c.field.length) && decide (c.field.length ≤ 80) &&
    decide (c.values.length ≤ MAX_LIST_LENGTH) && c.values.all FilterValue.accepts

/-- The schema of one node. -/
def FilterNode.shapeOk : FilterNode → Bool
  | .comparison c => c.accepts
  | .group _ children => decide (children.length ≤ MAX_NODES)
  | .not _ => true

/-- The children that `measure` still has to visit, each a level below its parent. -/
def FilterNode.toVisit (level : ℕ) : FilterNode → List (FilterNode × ℕ)
  | .comparison _ => []
  | .group _ children => children.reverse.map fun child => (child, level + 1)
  | .not child => [(child, level + 1)]

/-- Counts nodes and levels until the stack is empty or a limit is passed.  Every
round counts a node, so one round more than `MAX_NODES` is enough. -/
def measureLoop : (rounds : ℕ) → List (FilterNode × ℕ) → (nodes depth : ℕ) → ℕ × ℕ
  | 0, _, nodes, depth => (nodes, depth)
  | _ + 1, [], nodes, depth => (nodes, depth)
  | rounds + 1, (node, level) :: stack, nodes, depth =>
    if MAX_NODES < nodes + 1 ∨ MAX_DEPTH < max depth level then (nodes + 1, max depth level)
    else measureLoop rounds (node.toVisit level ++ stack) (nodes + 1) (max depth level)

def measure (root : FilterNode) : ℕ × ℕ := measureLoop (MAX_NODES + 1) [(root, 1)] 0 0

/-- The tree passes the wire schema. -/
def FilterTree.accepts (t : FilterNode) : Bool :=
  t.subtrees.all FilterNode.shapeOk && decide ((measure t).2 ≤ MAX_DEPTH) &&
    decide ((measure t).1 ≤ MAX_NODES)

theorem FilterTree.shapeOk_of_accepts {t s : FilterNode} (h : FilterTree.accepts t = true)
    (hs : s ∈ t.subtrees) : s.shapeOk = true := by
  unfold FilterTree.accepts at h
  simp only [Bool.and_eq_true, List.all_eq_true] at h
  exact h.1.1 s hs

end TaskFlow.Filter
