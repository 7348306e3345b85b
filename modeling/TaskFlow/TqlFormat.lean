import TaskFlow.TqlParse

/-! # The TQL formatter

`format` renders a tree as text: every group in parentheses, its children under
its connective, and a string bare where a bare word would be read as that string.
-/
namespace TaskFlow.Tql

open TaskFlow.Filter

/-- Bare words that are read as something other than the string. -/
def reserved : List Text :=
  ["and".toList, "or".toList, "not".toList, "in".toList, "is".toList, "empty".toList,
    "contains".toList, "order".toList, "by".toList, "asc".toList, "desc".toList, "null".toList,
    "me".toList, "true".toList, "false".toList]

def isWord : Text → Bool
  | [] => false
  | c :: rest => isIdentStart c && rest.all isIdentCont

def isSafeBare (value : Text) : Bool := isWord value && !reserved.contains (value.map Char.toLower)

/-- A backslash before a backslash or a double quote. -/
def escape (c : Char) : Text := if c = '\\' ∨ c = '"' then ['\\', c] else [c]

def quote (value : Text) : Text := '"' :: value.flatMap escape ++ ['"']

def emitValue : FilterValue → Text
  | .null => "null".toList
  | .boolean true => "true".toList
  | .boolean false => "false".toList
  | .number x => NumberText.toText x
  | .string value =>
    if value = ME then ME else if isSafeBare value then value else quote value

def emitList (values : List FilterValue) : Text :=
  '(' :: List.intercalate ", ".toList (values.map emitValue) ++ [')']

def emitComparison : Comparison → Text
  | ⟨field, .eq, value⟩ => field ++ " = ".toList ++ emitValue value
  | ⟨field, .neq, value⟩ => field ++ " != ".toList ++ emitValue value
  | ⟨field, .lt, value⟩ => field ++ " < ".toList ++ emitValue value
  | ⟨field, .lte, value⟩ => field ++ " <= ".toList ++ emitValue value
  | ⟨field, .gt, value⟩ => field ++ " > ".toList ++ emitValue value
  | ⟨field, .gte, value⟩ => field ++ " >= ".toList ++ emitValue value
  | ⟨field, .in_, values⟩ => field ++ " IN ".toList ++ emitList values
  | ⟨field, .notIn, values⟩ => field ++ " NOT IN ".toList ++ emitList values
  | ⟨field, .contains, value⟩ => field ++ " CONTAINS ".toList ++ emitValue value
  | ⟨field, .isEmpty, ()⟩ => field ++ " IS EMPTY".toList
  | ⟨field, .isNotEmpty, ()⟩ => field ++ " IS NOT EMPTY".toList

def joiner : Combinator → Text
  | .and => " AND ".toList
  | .or => " OR ".toList

mutual

@[grind =] def emit : FilterNode → Text
  | .comparison c => emitComparison c
  | .group combinator children =>
    '(' :: List.intercalate (joiner combinator) (emitAll children) ++ [')']
  | .not child => "NOT ".toList ++ emit child

@[grind =] def emitAll : List FilterNode → List Text
  | [] => []
  | child :: rest => emit child :: emitAll rest

end

/-- No filter is the empty text. -/
def format : Option FilterNode → Text
  | none => []
  | some t => emit t

end TaskFlow.Tql
