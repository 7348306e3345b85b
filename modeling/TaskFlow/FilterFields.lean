import TaskFlow.RelativeDate

/-! # The field whitelist and validation

A field binds a name to a type, and the type to the operators that make sense for
it.  The three field sets are closed: a name outside them is refused by
`validate`, and so is an operator or a value that the field does not take.

`validate_ok_iff` reduces validation to the comparisons of the tree: the walk
finds no error exactly when each of them passes `checkComparison`.
-/
namespace TaskFlow.Filter

open Binary64

inductive FieldType where
  | text | number | date | boolean | uuid | uuidArray | enum
  deriving DecidableEq

def FieldType.name : FieldType → String
  | text => "text"
  | number => "number"
  | date => "date"
  | boolean => "boolean"
  | uuid => "uuid"
  | uuidArray => "uuid_array"
  | enum => "enum"

structure FieldDefinition where
  name : String
  type : FieldType
  /-- The column it compiles to; none for a field that has no table behind it. -/
  sql : Option String
  /-- The operators it takes, when they are not those of its type. -/
  operators : Option (List Operator) := none
  options : Option (List String) := none
  acceptsMe : Bool := false

def operatorsByType : FieldType → List Operator
  | .text => [.eq, .neq, .contains, .isEmpty, .isNotEmpty]
  | .number => [.eq, .neq, .lt, .lte, .gt, .gte, .isEmpty, .isNotEmpty]
  | .date => [.eq, .neq, .lt, .lte, .gt, .gte, .isEmpty, .isNotEmpty]
  | .boolean => [.eq, .neq]
  | .uuid => [.eq, .neq, .in_, .notIn, .isEmpty, .isNotEmpty]
  | .uuidArray => [.in_, .notIn, .isEmpty, .isNotEmpty]
  | .enum => [.eq, .neq, .in_, .notIn, .isEmpty, .isNotEmpty]

def cardFields : List FieldDefinition :=
  [{ name := "title", type := .text, sql := some "work.cards.title" },
    { name := "description", type := .text, sql := some "work.cards.description_text" },
    { name := "list", type := .uuid, sql := some "work.cards.list_id" },
    { name := "status", type := .uuid, sql := some "work.cards.status_id" },
    { name := "priority", type := .enum, sql := some "work.cards.priority",
      options := some ["urgent", "high", "normal", "low"] },
    { name := "board", type := .uuid, sql := some "work.cards.board_id" },
    { name := "project", type := .uuid, sql := some "work.cards.project_id" },
    { name := "number", type := .number, sql := some "work.cards.number" },
    { name := "assignee", type := .uuidArray, sql := some "work.cards.assignee_ids",
      acceptsMe := true },
    { name := "creator", type := .uuid, sql := some "work.cards.created_by", acceptsMe := true },
    { name := "due", type := .date, sql := some "work.cards.due_date" },
    { name := "start", type := .date, sql := some "work.cards.start_date" },
    { name := "created", type := .date, sql := some "work.cards.created_at" },
    { name := "updated", type := .date, sql := some "work.cards.updated_at" },
    { name := "comments", type := .number, sql := some "work.cards.comment_count" },
    { name := "checklistDone", type := .number, sql := some "work.cards.checklist_done" },
    { name := "checklistTotal", type := .number, sql := some "work.cards.checklist_total" },
    { name := "archived", type := .boolean, sql := some "(work.cards.archived_at IS NOT NULL)" },
    { name := "label", type := .uuidArray,
      sql := some ("(SELECT array_agg(cl.label_id) FROM work.card_labels cl " ++
        "WHERE cl.card_id = work.cards.id)") }]

def searchFields : List FieldDefinition :=
  [{ name := "type", type := .enum, sql := some "search.documents.entity_type",
      options := some ["card", "message", "page", "comment", "transcript"] },
    { name := "title", type := .text, sql := some "search.documents.title" },
    { name := "text", type := .text,
      sql := some ("coalesce(search.documents.title, '') || ' ' || " ++
        "coalesce(search.documents.body, '')") },
    { name := "author", type := .uuid, sql := some "search.documents.author_id",
      acceptsMe := true },
    { name := "updated", type := .date, sql := some "search.documents.updated_at" },
    { name := "created", type := .date, sql := some "search.documents.created_at" },
    { name := "archived", type := .boolean, sql := some "search.documents.archived" }]

def connectorOperators : List Operator := [.eq, .neq, .in_, .notIn, .contains]

def connectorFields : List FieldDefinition :=
  [{ name := "provider_event", type := .text, sql := none, operators := some connectorOperators },
    { name := "provider_scope", type := .text, sql := none, operators := some connectorOperators }]

inductive Resource where
  | card | search | connector
  deriving DecidableEq

def fieldsOf : Resource → List FieldDefinition
  | .card => cardFields
  | .search => searchFields
  | .connector => connectorFields

def findField (resource : Resource) (name : Text) : Option FieldDefinition :=
  (fieldsOf resource).find? fun field => field.name.toList == name

def operatorsFor (field : FieldDefinition) : List Operator :=
  field.operators.getD (operatorsByType field.type)

def supportsOperator (field : FieldDefinition) (operator : Operator) : Bool :=
  decide (operator ∈ operatorsFor field)

/-- The field found has the name asked for, and is one of the resource's. -/
theorem findField_spec {resource : Resource} {name : Text} {field : FieldDefinition}
    (h : findField resource name = some field) :
    field ∈ fieldsOf resource ∧ field.name.toList = name :=
  ⟨List.mem_of_find?_eq_some h, by simpa using List.find?_some h⟩

/-! ### Values -/

def isHex (c : Char) : Bool :=
  c.isDigit || ('a' ≤ c && c ≤ 'f') || ('A' ≤ c && c ≤ 'F')

/-- What each character of a uuid is tested for, in either case. -/
def uuidShape : List (Char → Bool) :=
  List.replicate 8 isHex ++ (· == '-') :: List.replicate 4 isHex ++
    (· == '-') :: (fun c => '1' ≤ c && c ≤ '8') :: List.replicate 3 isHex ++
    (· == '-') :: (fun c => c ∈ ['8', '9', 'a', 'b', 'A', 'B']) :: List.replicate 3 isHex ++
    (· == '-') :: List.replicate 12 isHex

def isUuid (text : Text) : Bool :=
  text.length == uuidShape.length && (List.zipWith (fun test c => test c) uuidShape text).all id

structure FilterError where
  path : List ℕ
  message : String
  deriving DecidableEq

def quoted (text : Text) : String := "\"" ++ String.ofList text ++ "\""

section

-- `Date.parse`: beyond the ISO format it is up to the engine
variable (dateParse : Text → Date)

/-- Checks a value other than null and `@me` against the type of its field. -/
def checkTyped (field : FieldDefinition) (value : FilterValue) : Option String :=
  let name := "Field " ++ quoted field.name.toList
  match field.type, value with
  | .text, .string _ => none
  | .text, _ => some (name ++ " expects text.")
  | .number, .number _ => none
  | .number, _ => some (name ++ " expects a number.")
  | .boolean, .boolean _ => none
  | .boolean, _ => some (name ++ " expects true or false.")
  | .date, .string text =>
    if isSymbolicDate text || (dateParse text).isSome then none
    else some (name ++ " expects an ISO date.")
  | .date, _ => some (name ++ " expects an ISO date.")
  | .uuid, .string text | .uuidArray, .string text =>
    if isUuid text then none else some (name ++ " expects an id.")
  | .uuid, _ | .uuidArray, _ => some (name ++ " expects an id.")
  | .enum, .string text =>
    if (field.options.getD []).any (·.toList == text) then none
    else some (quoted text ++ " is not a valid value for " ++ quoted field.name.toList ++ ".")
  | .enum, _ => some (name ++ " expects one of its options.")

def checkValue (field : FieldDefinition) (value : FilterValue) : Option String :=
  if value = .null then none
  else if value = .string ME then
    if field.acceptsMe then none
    else some ("Field " ++ quoted field.name.toList ++ " is not a user field, so " ++ quoted ME ++
      " has no meaning for it.")
  else checkTyped dateParse field value

/-- The problems of one comparison: an unknown field or operator alone, and else
each value that does not fit. -/
def checkComparison (resource : Resource) (c : Comparison) : List String :=
  match findField resource c.field with
  | none => ["Unknown field " ++ quoted c.field ++ "."]
  | some field =>
    if supportsOperator field c.operator then
      c.values.filterMap (checkValue dateParse field)
    else
      ["Operator \"" ++ c.operator.text ++ "\" cannot be used with " ++ field.type.name ++
        " field " ++ quoted field.name.toList ++ "."]

mutual

def walk (resource : Resource) (path : List ℕ) : FilterNode → List FilterError
  | .comparison c => (checkComparison dateParse resource c).map fun message => ⟨path, message⟩
  | .group _ children => walkChildren resource path 0 children
  | .not child => walk resource (path ++ [0]) child

def walkChildren (resource : Resource) (path : List ℕ) (index : ℕ) :
    List FilterNode → List FilterError
  | [] => []
  | child :: rest =>
    walk resource (path ++ [index]) child ++ walkChildren resource path (index + 1) rest

end

def validate (resource : Resource) (t : FilterNode) : List FilterError :=
  walk dateParse resource [] t

variable {dateParse} {resource : Resource}

theorem walkChildren_cons {path : List ℕ} {index : ℕ} {child : FilterNode}
    {rest : List FilterNode} :
    walkChildren dateParse resource path index (child :: rest) =
      walk dateParse resource (path ++ [index]) child ++
        walkChildren dateParse resource path (index + 1) rest := rfl

theorem walkChildren_eq_nil {path : List ℕ} :
    ∀ {children : List FilterNode} {index : ℕ},
      (∀ child ∈ children, ∀ path, walk dateParse resource path child = []) →
        walkChildren dateParse resource path index children = []
  | [], _, _ => rfl
  | child :: rest, index, h => by
    rw [walkChildren_cons, h child List.mem_cons_self,
      walkChildren_eq_nil fun c hc => h c (List.mem_cons_of_mem _ hc), List.append_nil]

theorem walk_eq_nil_of_mem_walkChildren {path : List ℕ} {child : FilterNode} :
    ∀ {children : List FilterNode} {index : ℕ},
      walkChildren dateParse resource path index children = [] → child ∈ children →
        ∃ path', walk dateParse resource path' child = []
  | [], _, _, hmem => nomatch hmem
  | first :: rest, index, h, hmem => by
    rw [walkChildren_cons, List.append_eq_nil_iff] at h
    rcases List.mem_cons.mp hmem with rfl | hmem
    · exact ⟨_, h.1⟩
    · exact walk_eq_nil_of_mem_walkChildren h.2 hmem

/-- A comparison below a node that has no errors has none. -/
theorem checkComparison_of_walk {c : Comparison} {t : FilterNode} :
    ∀ {path : List ℕ}, walk dateParse resource path t = [] →
      .comparison c ∈ t.subtrees → checkComparison dateParse resource c = [] := by
  induction t with
  | comparison c' =>
    intro path h hmem
    cases List.mem_singleton.mp hmem
    exact List.map_eq_nil_iff.mp h
  | group combinator children ih =>
    intro path h hmem
    rcases FilterNode.mem_subtrees_group.mp hmem with heq | ⟨child, hchild, hmem⟩
    · cases heq
    · obtain ⟨path', h'⟩ := walk_eq_nil_of_mem_walkChildren h hchild
      exact ih child hchild h' hmem
  | not child ih =>
    intro path h hmem
    rcases FilterNode.mem_subtrees_not.mp hmem with heq | hmem
    · cases heq
    · exact ih h hmem

theorem walk_eq_nil {t : FilterNode}
    (h : ∀ c, .comparison c ∈ t.subtrees → checkComparison dateParse resource c = []) :
    ∀ path, walk dateParse resource path t = [] := by
  induction t with
  | comparison c =>
    intro path
    exact List.map_eq_nil_iff.mpr (h c (FilterNode.mem_subtrees_self _))
  | group combinator children ih =>
    intro path
    refine walkChildren_eq_nil fun child hchild => ih child hchild fun c hc => ?_
    exact h c (FilterNode.mem_subtrees_group.mpr (Or.inr ⟨child, hchild, hc⟩))
  | not child ih =>
    intro path
    exact ih (fun c hc => h c (FilterNode.mem_subtrees_not.mpr (Or.inr hc))) _

/-- **A tree is valid exactly when each of its comparisons is.** -/
theorem validate_ok_iff {t : FilterNode} :
    validate dateParse resource t = [] ↔
      ∀ c, .comparison c ∈ t.subtrees → checkComparison dateParse resource c = [] :=
  ⟨fun h _ hc => checkComparison_of_walk h hc, fun h => walk_eq_nil h []⟩

/-- A valid comparison names a field that takes its operator and its values. -/
theorem checkComparison_eq_nil {c : Comparison} (h : checkComparison dateParse resource c = []) :
    ∃ field, findField resource c.field = some field ∧ c.operator ∈ operatorsFor field ∧
      ∀ value ∈ c.values, checkValue dateParse field value = none := by
  unfold checkComparison at h
  split at h
  · cases h
  · next field hfield =>
    split_ifs at h with hop
    refine ⟨field, hfield, by simpa [supportsOperator] using hop, fun value hvalue => ?_⟩
    exact List.filterMap_eq_nil_iff.mp h value hvalue

end

end TaskFlow.Filter
