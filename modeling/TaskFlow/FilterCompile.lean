import TaskFlow.FilterEvaluate

/-! # Compiling a filter to SQL

`compile` turns a valid tree into a boolean expression of SQL with numbered placeholders and the
values they stand for.  A column comes from the field sets and an operator from a fixed token, and
every value is a placeholder.  The parameters that have been pushed are the state of an `Emit`, and
a placeholder's number is the number of the parameters.
-/
namespace TaskFlow.Filter.Sql

/-- What `compile` throws. -/
inductive CompileThrown where
  | filterCompileError (message : String)
  | thrown (thrown : Thrown)
  deriving DecidableEq

structure CompiledFilter where
  sql : Text
  params : List FilterValue
  deriving DecidableEq

structure CompileOptions where
  viewerId : Option Text
  /-- The number of the first placeholder. -/
  startIndex : Option ℕ := none
  now : Date

/-- Emitting pushes parameters, and may throw. -/
abbrev Emit (α : Type) := StateT (List FilterValue) (Except CompileThrown) α

/-- The field sets that have a table behind them. -/
def COMPILABLE_RESOURCES : List Resource := [.card, .search]

def nameOf : Resource → String
  | .card => "card"
  | .search => "search"
  | .connector => "connector"

def compileError {α : Type} (message : String) : Emit α :=
  throw (.filterCompileError message)

/-- Each occurrence of a character, replaced. -/
def replaceAll (c : Char) (by_ : Text) (text : Text) : Text :=
  text.flatMap fun d => if d = c then by_ else [d]

/-- Escapes what has a meaning in a pattern. -/
def escapeLike (value : Text) : Text :=
  replaceAll '_' ['\\', '_'] (replaceAll '%' ['\\', '%'] (replaceAll '\\' ['\\', '\\'] value))

section

variable (options : CompileOptions)

/-- Substitutes `@me` and symbolic dates. -/
def resolve (value : FilterValue) (field : FieldDefinition) :
    Except CompileThrown FilterValue :=
  if value = .string ME then
    if field.acceptsMe then
      match options.viewerId with
      | some viewerId => .ok (.string viewerId)
      | none => .error (.filterCompileError
          ("This filter uses " ++ quoted ME ++ " but no viewer was supplied."))
    else
      .error (.filterCompileError
        (quoted ME ++ " has no meaning for field " ++ quoted field.name.toList ++ "."))
  else
    match field.type, value with
    | .date, .string text =>
      match resolveSymbolicDate text options.now with
      | .ok (some resolved) => .ok (.string resolved)
      | .ok none => .ok value
      | .error thrown => .error (.thrown thrown)
    | _, _ => .ok value

def offset : ℕ := options.startIndex.getD 1

/-- Pushes a parameter. -/
def placeholder (value : FilterValue) : Emit Text := fun params =>
  let params := params ++ [value]
  .ok ('$' :: Nat.toDigits 10 (params.length + offset options - 1), params)

/-- The tokens of the operators that compare by order. -/
def COMPARISON_TOKENS : Operator → Option String
  | .eq => some "="
  | .neq => some "<>"
  | .lt => some "<"
  | .lte => some "<="
  | .gt => some ">"
  | .gte => some ">="
  | _ => none

def castOf (field : FieldDefinition) : Text :=
  match field.type with
  | .uuid => "::uuid".toList
  | .date => "::timestamptz".toList
  | _ => []

def emitEmpty (field : FieldDefinition) (column : Text) : Text :=
  if field.type = .uuidArray then
    "(".toList ++ column ++ " IS NULL OR cardinality(".toList ++ column ++ ") = 0)".toList
  else column ++ " IS NULL".toList

def emitNotEmpty (field : FieldDefinition) (column : Text) : Text :=
  if field.type = .uuidArray then
    "(".toList ++ column ++ " IS NOT NULL AND cardinality(".toList ++ column ++ ") > 0)".toList
  else column ++ " IS NOT NULL".toList

/-- `in` and, negated, `not_in`. -/
def emitMembers (field : FieldDefinition) (column : Text) (negated : Bool)
    (values : List FilterValue) : Emit Text := do
  let values ← values.mapM fun entry => liftM (resolve options entry field)
  -- a list of nothing is decided without the column
  if values.isEmpty then return (if negated then "TRUE" else "FALSE").toList
  let places ← values.mapM (placeholder options)
  let list := ", ".toList.intercalate places
  if field.type = .uuidArray then
    let expression := column ++ " && ARRAY[".toList ++ list ++ "]::uuid[]".toList
    return if negated then "(NOT COALESCE(".toList ++ expression ++ ", FALSE))".toList
      else "(".toList ++ expression ++ ")".toList
  return if negated then
      "(NOT COALESCE(".toList ++ (column ++ " IN (".toList ++ list ++ ")".toList) ++
        ", FALSE))".toList
    else column ++ " IN (".toList ++ list ++ ")".toList

def emitContains (field : FieldDefinition) (column : Text) (value : FilterValue) : Emit Text := do
  let resolved ← liftM (resolve options value field)
  let place ← placeholder options
    (.string ('%' :: escapeLike resolved.toText ++ ['%']))
  return column ++ " ILIKE ".toList ++ place ++ " ESCAPE '\\'".toList

/-- A comparison by order; against null only the emptiness of the column counts. -/
def emitOrder (field : FieldDefinition) (column : Text) (operator : Operator)
    (value : FilterValue) : Emit Text := do
  let resolved ← liftM (resolve options value field)
  if resolved = .null then
    return column ++ (if operator = .neq then " IS NOT NULL" else " IS NULL").toList
  match COMPARISON_TOKENS operator with
  | some token =>
    let place ← placeholder options resolved
    return column ++ " ".toList ++ token.toList ++ " ".toList ++ place ++ castOf field
  | none => compileError ("Operator \"" ++ operator.text ++ "\" has no SQL form.")

def emitComparison (field : FieldDefinition) (c : Comparison) : Emit Text :=
  match field.sql with
  | none => compileError
      ("Field " ++ quoted field.name.toList ++ " has no SQL form and cannot be compiled.")
  | some column =>
    match c with
    | ⟨_, .isEmpty, ()⟩ => return emitEmpty field column.toList
    | ⟨_, .isNotEmpty, ()⟩ => return emitNotEmpty field column.toList
    | ⟨_, .in_, values⟩ => emitMembers options field column.toList false values
    | ⟨_, .notIn, values⟩ => emitMembers options field column.toList true values
    | ⟨_, .contains, value⟩ => emitContains options field column.toList value
    | ⟨_, .eq, value⟩ => emitOrder options field column.toList .eq value
    | ⟨_, .neq, value⟩ => emitOrder options field column.toList .neq value
    | ⟨_, .lt, value⟩ => emitOrder options field column.toList .lt value
    | ⟨_, .lte, value⟩ => emitOrder options field column.toList .lte value
    | ⟨_, .gt, value⟩ => emitOrder options field column.toList .gt value
    | ⟨_, .gte, value⟩ => emitOrder options field column.toList .gte value

variable (resource : Resource)

mutual

def emit : FilterNode → Emit Text
  | .group combinator [] => return (if combinator = .and then "TRUE" else "FALSE").toList
  | .group combinator children => do
    let parts ← emitAll children
    -- always in parentheses, whatever is around it
    return "(".toList ++ (if combinator = .and then " AND " else " OR ").toList.intercalate parts ++
      ")".toList
  | .not child => do
    -- an unknown is no match, so its negation is one
    return "(NOT COALESCE(".toList ++ (← emit child) ++ ", FALSE))".toList
  | .comparison c =>
    match findField resource c.field with
    | none => compileError ("Unknown field " ++ quoted c.field ++ ".")
    | some field => emitComparison options field c

def emitAll : List FilterNode → Emit (List Text)
  | [] => return []
  | child :: rest => do
    let part ← emit child
    let parts ← emitAll rest
    return part :: parts

end

/-- Compiles a tree, and validates it first. -/
def compile (dateParse : Text → Date) (t : FilterNode) : Except CompileThrown CompiledFilter :=
  if resource ∉ COMPILABLE_RESOURCES then
    .error (.filterCompileError ("The \"" ++ nameOf resource ++
      "\" field set has no SQL form — it is evaluated in memory, never compiled."))
  else
    match validate dateParse resource t with
    | [] =>
      match emit options resource t [] with
      | .ok (sql, params) => .ok ⟨sql, params⟩
      | .error thrown => .error thrown
    | errors => .error (.filterCompileError ("Refusing to compile an invalid filter: " ++
        "; ".intercalate (errors.map (·.message))))

end

end TaskFlow.Filter.Sql
