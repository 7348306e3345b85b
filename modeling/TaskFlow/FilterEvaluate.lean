import TaskFlow.FilterFields
import TaskFlow.NumberText

/-! # The in-memory evaluator

`evaluate` decides whether a row satisfies a tree, in two-valued logic: a group
stops at the first child that settles it, a comparison against a missing value is
no match, and NOT turns a match into none.  Resolving a symbolic date may throw,
so a run ends in a boolean or in what was thrown.

An `Engine` is what the language leaves open or takes from the Unicode tables.
-/
namespace TaskFlow.Filter

open Binary64

/-- A value of a row. -/
inductive Value where
  | undefined
  | null
  | string (text : Text)
  | number (x : Number)
  | boolean (b : Bool)
  | date (d : Date)
  | array (entries : List Value)
  | object

abbrev EvaluableRow := String → Value

structure Engine where
  /-- `Date.parse`, none for what it cannot read. -/
  dateParse : Text → Date
  toLowerCase : Text → Text
  /-- `String(value)` of a value that is no primitive. -/
  stringOf : Value → Text

structure EvaluateOptions where
  viewerId : Option Text
  now : Date

def isNullish : Value → Bool
  | .undefined | .null => true
  | _ => false

/-- The UTF-16 code units, by which texts are ordered. -/
def codeUnits (text : Text) : List ℕ :=
  text.flatMap fun c =>
    if c.toNat < 0x10000 then [c.toNat]
    else [0xd800 + (c.toNat - 0x10000) / 0x400, 0xdc00 + (c.toNat - 0x10000) % 0x400]

/-- `includes` compares a wanted value with an entry: not a number is itself. -/
def sameValue : FilterValue → Value → Bool
  | .string text, .string text' => text == text'
  | .number .nan, .number .nan => true
  | .number x, .number y => x.eq y
  | .boolean b, .boolean b' => b == b'
  | .null, .null => true
  | _, _ => false

def FilterValue.toText : FilterValue → Text
  | .string text => text
  | .number x => NumberText.toText x
  | .boolean true => "true".toList
  | .boolean false => "false".toList
  | .null => "null".toList

/-- `left < right ? -1 : 1`, once the two are not equal. -/
def orderBy (equal less : Bool) : Ordering := if equal then .eq else if less then .lt else .gt

/-- What an operator asks of the order; an operator that asks nothing holds of none. -/
def Operator.holds : Operator → Ordering → Bool
  | eq, order => order == .eq
  | neq, order => order != .eq
  | lt, order => order == .lt
  | lte, order => order != .gt
  | gt, order => order == .gt
  | gte, order => order != .lt
  | _, _ => false

section

variable (engine : Engine)

def Value.toText : Value → Text
  | .undefined => "undefined".toList
  | .null => "null".toList
  | .string text => text
  | .number x => NumberText.toText x
  | .boolean true => "true".toList
  | .boolean false => "false".toList
  | value => engine.stringOf value

/-- The instant of a value of a row; an invalid date is one that is not a number. -/
def toInstant : Value → Option Date
  | .date d => some d
  | .string text => (engine.dateParse text).map some
  | _ => none

/-- An invalid date is neither equal to an instant nor before it. -/
def instantOrder (left : Date) (right : ℤ) : Ordering :=
  match left with
  | none => .gt
  | some left => orderBy (left == right) (left < right)

def orderOf (field : FieldDefinition) (actual : Value) (expected : FilterValue) :
    Option Ordering :=
  match field.type with
  | .date =>
    match toInstant engine actual, expected with
    | some left, .string text => (engine.dateParse text).map (instantOrder left)
    | _, _ => none
  | .number =>
    match actual, expected with
    | .number x, .number y => some (orderBy (x.eq y) (x.lt y))
    | _, _ => none
  | .boolean =>
    match actual, expected with
    | .boolean b, .boolean b' => some (if b = b' then .eq else if b then .gt else .lt)
    | _, _ => none
  | _ =>
    let left := actual.toText engine
    let right := expected.toText
    some (orderBy (left == right) (decide (codeUnits left < codeUnits right)))

variable (options : EvaluateOptions)

/-- Substitutes the viewer and the symbolic dates. -/
def resolve (field : FieldDefinition) (value : FilterValue) : Except Thrown FilterValue :=
  if value = .string ME then
    match field.acceptsMe, options.viewerId with
    | true, some viewerId => .ok (.string viewerId)
    -- the viewer is unknown, or the field names nobody
    | _, _ => .ok .null
  else
    match field.type, value with
    | .date, .string text => do
      match ← resolveSymbolicDate text options.now with
      | some resolved => return .string resolved
      | none => return value
    | _, _ => .ok value

/-- Whether one of the wanted values is the value, or one of its entries. -/
def matchesAny (field : FieldDefinition) (wanted : List FilterValue) (actual : Value) : Bool :=
  if field.type = .uuidArray then
    match actual with
    | .array entries => entries.any fun entry => wanted.any fun value => sameValue value entry
    | _ => false
  else wanted.any fun value => sameValue value actual

def isEmptyValue (field : FieldDefinition) (actual : Value) : Bool :=
  if field.type = .uuidArray then
    match actual with
    | .array entries => entries.isEmpty
    | _ => true
  else isNullish actual

/-- The texts that are part of a text. -/
def includesText : Text → Text → Bool
  | [], needle => needle.isEmpty
  | c :: rest, needle => needle.isPrefixOf (c :: rest) || includesText rest needle

def compareContains (field : FieldDefinition) (value : FilterValue) (actual : Value) :
    Except Thrown Bool :=
  match actual with
  | .string text => do
    let needle ← resolve options field value
    return includesText (engine.toLowerCase text) (engine.toLowerCase needle.toText)
  -- any other type is compared as text, by code units
  | _ => .ok false

def compareOrder (field : FieldDefinition) (operator : Operator) (value : FilterValue)
    (actual : Value) : Except Thrown Bool := do
  let expected ← resolve options field value
  -- against null only the emptiness of the row counts, whatever the operator
  if expected = .null then
    return if operator = .neq then !isNullish actual else isNullish actual
  if isNullish actual then return false
  match orderOf engine field actual expected with
  | none => return false
  | some order => return operator.holds order

def compareMembers (field : FieldDefinition) (negated : Bool) (values : List FilterValue)
    (actual : Value) : Except Thrown Bool := do
  let wanted ← values.mapM (resolve options field)
  -- a list of nothing is decided without the row
  if wanted.isEmpty then return negated
  return matchesAny field wanted actual != negated

/-- One comparison against its field of a row. -/
def compareRow (field : FieldDefinition) (row : EvaluableRow) : Comparison → Except Thrown Bool
  | ⟨_, .isEmpty, ()⟩ => .ok (isEmptyValue field (row field.name))
  | ⟨_, .isNotEmpty, ()⟩ => .ok (!isEmptyValue field (row field.name))
  | ⟨_, .in_, values⟩ => compareMembers options field false values (row field.name)
  | ⟨_, .notIn, values⟩ => compareMembers options field true values (row field.name)
  | ⟨_, .contains, value⟩ => compareContains engine options field value (row field.name)
  | ⟨_, .eq, value⟩ => compareOrder engine options field .eq value (row field.name)
  | ⟨_, .neq, value⟩ => compareOrder engine options field .neq value (row field.name)
  | ⟨_, .lt, value⟩ => compareOrder engine options field .lt value (row field.name)
  | ⟨_, .lte, value⟩ => compareOrder engine options field .lte value (row field.name)
  | ⟨_, .gt, value⟩ => compareOrder engine options field .gt value (row field.name)
  | ⟨_, .gte, value⟩ => compareOrder engine options field .gte value (row field.name)

variable (resource : Resource) (row : EvaluableRow)

mutual

def evaluate : FilterNode → Except Thrown Bool
  | .group combinator [] => .ok (combinator == .and)
  | .group .and children => every children
  | .group .or children => some_ children
  | .not child => do return !(← evaluate child)
  | .comparison c =>
    match findField resource c.field with
    | none => .ok false
    | some field => compareRow engine options field row c

def every : List FilterNode → Except Thrown Bool
  | [] => .ok true
  | child :: rest => do
    if ← evaluate child then every rest else return false

def some_ : List FilterNode → Except Thrown Bool
  | [] => .ok false
  | child :: rest => do
    if ← evaluate child then return true else some_ rest

end

end

end TaskFlow.Filter
