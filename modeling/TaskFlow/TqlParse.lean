import TaskFlow.TqlTokenize

/-! # The TQL parser

The grammar binds NOT before AND before OR, and a term that follows another
without a keyword is an implicit AND.  A parenthesised term comes back as a group:
a group as it is, anything else as an AND group around it.

The parser holds the tokens it has not read; the last one is the sentinel for the
end, which no rule consumes.  `parseOr` and `parseTerm` call each other through
the parentheses, so the rules take fuel, a multiple of the number of tokens.
-/
namespace TaskFlow.Tql

open TaskFlow.Filter

structure TqlError where
  offset : ℕ
  length : ℕ
  message : String
  deriving DecidableEq

inductive Direction where
  | asc | desc
  deriving DecidableEq

structure OrderBy where
  field : Text
  direction : Direction
  deriving DecidableEq

/-- What the parser throws: a positioned failure, or an error that is no failure of
the query. -/
inductive Failure where
  | parse (error : TqlError)
  | unreachable
  deriving DecidableEq

inductive ParseResult where
  | ok (filter : Option FilterNode) (orderBy : Option OrderBy)
  | failed (errors : List TqlError)
  | thrown

/-- A rule reads a value off the tokens and leaves the rest. -/
abbrev Rule (α : Type) := List Token → Except Failure (α × List Token)

def peek : List Token → Except Failure Token
  | [] => .error .unreachable
  | token :: _ => .ok token

def fail {α : Type} (token : Token) (message : String) : Except Failure α :=
  .error (.parse ⟨token.offset, token.length, message⟩)

def showText (text : Text) : String := "\"" ++ String.ofList text ++ "\""

def describe (token : Token) : String :=
  match token.kind with
  | .eof => "the end of the query"
  | .string _ => "the string " ++ String.ofList token.text
  | .keyword _ => showText (token.text.map Char.toUpper)
  | _ => showText token.text

def Token.isKeyword (token : Token) (keyword : Keyword) : Bool := token.kind == .keyword keyword

/-! ### Values -/

/-- The word `me` and the booleans, in any case; any other word is itself. -/
def wordValue (word : Text) : FilterValue :=
  let lower := word.map Char.toLower
  if lower = "me".toList then .string ME
  else if lower = "true".toList then .boolean true
  else if lower = "false".toList then .boolean false
  else .string word

def tokenValue (token : Token) : Except Failure FilterValue :=
  match token.kind with
  | .string value => .ok (.string value)
  | .number value => .ok (.number value)
  | .relative => .ok (.string token.text)
  | .at name => .ok (.string (if name = "me".toList then ME else '@' :: name))
  | .ident => .ok (wordValue token.text)
  | .keyword .null => .ok .null
  | .keyword _ => fail token ("Unexpected " ++ describe token ++ " — expected a value.")
  | _ => fail token "Expected a value."

def parseValue : Rule FilterValue := fun tokens => do
  let token ← peek tokens
  let value ← tokenValue token
  return (value, tokens.tail)

/-- The values of a list up to its closing parenthesis; a comma may precede it. -/
def parseItems : ℕ → Rule (List FilterValue)
  | 0, _ => .error .unreachable
  | fuel + 1, tokens => do
    let token ← peek tokens
    if token.kind = .rparen then return ([], tokens.tail)
    if token.kind = .eof then fail token "Unclosed list — expected \")\"."
    let (value, tokens) ← parseValue tokens
    let after ← peek tokens
    match after.kind with
    | .rparen => return ([value], tokens.tail)
    | .comma =>
      let (values, tokens) ← parseItems fuel tokens.tail
      return (value :: values, tokens)
    | _ => fail after "Expected \",\" or \")\" in the list."

def parseList : Rule (List FilterValue) := fun tokens => do
  let token ← peek tokens
  if token.kind = .lparen then parseItems tokens.length tokens.tail
  else fail token "Expected \"(\" to start the list."

/-! ### Comparisons -/

/-- The operators whose operand is one value. -/
inductive ScalarOperator where
  | eq | neq | lt | lte | gt | gte | contains

def compare (field : Text) (operator : ScalarOperator) (value : FilterValue) : FilterNode :=
  match operator with
  | .eq => .comparison ⟨field, .eq, value⟩
  | .neq => .comparison ⟨field, .neq, value⟩
  | .lt => .comparison ⟨field, .lt, value⟩
  | .lte => .comparison ⟨field, .lte, value⟩
  | .gt => .comparison ⟨field, .gt, value⟩
  | .gte => .comparison ⟨field, .gte, value⟩
  | .contains => .comparison ⟨field, .contains, value⟩

/-- The operator that an operator token stands for. -/
def scalarOperators : List (Text × ScalarOperator) :=
  [(['='], .eq), (['!', '='], .neq), (['<', '>'], .neq), (['<'], .lt), (['<', '='], .lte),
    (['>'], .gt), (['>', '='], .gte)]

def compareValue (field : Text) (operator : ScalarOperator) : Rule FilterNode := fun tokens => do
  let (value, tokens) ← parseValue tokens
  return (compare field operator value, tokens)

/-- `IS EMPTY` and `IS NOT EMPTY`, behind the `IS`. -/
def parseEmpty (field : Text) : Rule FilterNode := fun tokens => do
  let after ← peek tokens
  if after.isKeyword .empty then return (.comparison ⟨field, .isEmpty, ()⟩, tokens.tail)
  if after.isKeyword .not then
    let rest ← peek tokens.tail
    if rest.isKeyword .empty then
      return (.comparison ⟨field, .isNotEmpty, ()⟩, tokens.tail.tail)
    fail rest "Expected EMPTY after NOT."
  fail after "Expected EMPTY after IS."

/-- A comparison behind its field. -/
def parseComparison (field : Text) : Rule FilterNode := fun tokens => do
  let op ← peek tokens
  match op.kind with
  -- a colon is read as an equals sign
  | .colon => compareValue field .eq tokens.tail
  | .op =>
    match scalarOperators.lookup op.text with
    | some operator => compareValue field operator tokens.tail
    | none => fail op ("Unknown operator " ++ showText op.text ++ ".")
  | .keyword .contains => compareValue field .contains tokens.tail
  | .keyword .in_ =>
    let (values, tokens) ← parseList tokens.tail
    return (.comparison ⟨field, .in_, values⟩, tokens)
  | .keyword .not =>
    let after ← peek tokens.tail
    if after.isKeyword .in_ then
      let (values, tokens) ← parseList tokens.tail.tail
      return (.comparison ⟨field, .notIn, values⟩, tokens)
    fail after "Expected IN after NOT."
  | .keyword .is => parseEmpty field tokens.tail
  | _ => fail op ("Unexpected " ++ describe op ++ " after " ++ showText field ++ ".")

/-- The token behind a word that makes the word a field. -/
def startsComparison : List Token → Bool
  | [] => false
  | next :: _ =>
    match next.kind with
    | .op | .colon => true
    | .keyword .contains | .keyword .in_ | .keyword .is | .keyword .not => true
    | _ => false

/-- A bare term searches the text. -/
def freeText (token : Token) : Except Failure FilterNode :=
  match token.kind with
  | .string value => .ok (compare "text".toList .contains (.string value))
  | .number value =>
    .ok (compare "text".toList .contains (.string (NumberText.toText value)))
  | .at name => .ok (compare "text".toList .contains (.string ('@' :: name)))
  | .ident | .relative => .ok (compare "text".toList .contains (.string token.text))
  | _ => fail token ("Unexpected " ++ describe token ++ " — expected free text.")

def parseAtom : Rule FilterNode := fun tokens => do
  let token ← peek tokens
  -- a word is a field only where what follows it makes it one
  if token.kind = .ident ∧ startsComparison tokens.tail = true then
    parseComparison token.text tokens.tail
  else
    match token.kind with
    | .ident | .string _ | .number _ | .relative | .at _ =>
      let node ← freeText token
      return (node, tokens.tail)
    | .op => fail token ("Unexpected " ++ showText token.text ++
        " — a comparison needs a field name first.")
    | _ => fail token ("Unexpected " ++ describe token ++ ".")

/-! ### Terms -/

/-- Parts under a connective; one part alone stands for itself. -/
def joined (combinator : Combinator) (first : FilterNode) : List FilterNode → FilterNode
  | [] => first
  | rest => .group combinator (first :: rest)

/-- What a pair of parentheses makes of the expression inside. -/
def parenthesized : FilterNode → FilterNode
  | .group combinator children => .group combinator children
  | inner => .group .and [inner]

/-- Whether an AND ends before this token. -/
def endsAnd (token : Token) : Bool :=
  token.isKeyword .or || token.kind == .eof || token.kind == .rparen || token.isKeyword .order

def orderByMisplaced : String := "ORDER BY is only allowed at the end of the query."

mutual

def parseOr : ℕ → Rule FilterNode
  | 0, _ => .error .unreachable
  | fuel + 1, tokens => do
    let (first, tokens) ← parseAnd fuel tokens
    let (rest, tokens) ← parseOrRest fuel tokens
    return (joined .or first rest, tokens)

def parseOrRest : ℕ → Rule (List FilterNode)
  | 0, _ => .error .unreachable
  | fuel + 1, tokens => do
    let token ← peek tokens
    if token.isKeyword .or then
      let (part, tokens) ← parseAnd fuel tokens.tail
      let (parts, tokens) ← parseOrRest fuel tokens
      return (part :: parts, tokens)
    return ([], tokens)

def parseAnd : ℕ → Rule FilterNode
  | 0, _ => .error .unreachable
  | fuel + 1, tokens => do
    let (first, tokens) ← parseTerm fuel tokens
    let (rest, tokens) ← parseAndRest fuel tokens
    return (joined .and first rest, tokens)

def parseAndRest : ℕ → Rule (List FilterNode)
  | 0, _ => .error .unreachable
  | fuel + 1, tokens => do
    let token ← peek tokens
    if endsAnd token then return ([], tokens)
    -- AND may be left out between two terms
    let (term, tokens) ← parseTerm fuel (if token.isKeyword .and then tokens.tail else tokens)
    let (terms, tokens) ← parseAndRest fuel tokens
    return (term :: terms, tokens)

def parseTerm : ℕ → Rule FilterNode
  | 0, _ => .error .unreachable
  | fuel + 1, tokens => do
    let token ← peek tokens
    if token.isKeyword .not then
      let (child, tokens) ← parseTerm fuel tokens.tail
      return (.not child, tokens)
    if token.isKeyword .order then fail token orderByMisplaced
    if token.kind = .lparen then
      let next ← peek tokens.tail
      -- () is a group of nothing, which every row matches
      if next.kind = .rparen then return (.group .and [], tokens.tail.tail)
      let (inner, tokens) ← parseOr fuel tokens.tail
      let close ← peek tokens
      if close.isKeyword .order then fail close orderByMisplaced
      if close.kind ≠ .rparen then fail close "Unclosed group — expected \")\"."
      return (parenthesized inner, tokens.tail)
    parseAtom tokens

end

/-! ### Queries -/

def parseDirection (tokens : List Token) (token : Token) : Direction × List Token :=
  if token.isKeyword .asc then (.asc, tokens.tail)
  else if token.isKeyword .desc then (.desc, tokens.tail)
  else (.asc, tokens)

/-- `ORDER BY` and a field, ascending unless it says otherwise. -/
def parseOrderBy : Rule (Option OrderBy) := fun tokens => do
  let token ← peek tokens
  if token.isKeyword .order then
    let by_ ← peek tokens.tail
    if by_.isKeyword .by_ then
      let field ← peek tokens.tail.tail
      if field.kind = .ident then
        let next ← peek tokens.tail.tail.tail
        let (direction, tokens) := parseDirection tokens.tail.tail.tail next
        return (some ⟨field.text, direction⟩, tokens)
      fail field "Expected a field name after ORDER BY."
    fail by_ "Expected BY after ORDER."
  return (none, tokens)

/-- Each rule below a parenthesis takes four steps at most for a token. -/
def fuelFor (tokens : List Token) : ℕ := 4 * tokens.length + 4

def parseTokens (tokens : List Token) :
    Except Failure (Option FilterNode × Option OrderBy) := do
  let first ← peek tokens
  let (filter, tokens) ←
    if first.kind = .eof ∨ first.isKeyword .order then pure (none, tokens)
    else do
      let (filter, tokens) ← parseOr (fuelFor tokens) tokens
      pure (some filter, tokens)
  let (orderBy, tokens) ← parseOrderBy tokens
  let trailing ← peek tokens
  if trailing.kind = .eof then return (filter, orderBy)
  fail trailing ("Unexpected " ++ describe trailing ++ ".")

def parse (input : Text) : ParseResult :=
  let result := tokenize input
  if result.errors = [] then
    match parseTokens result.tokens with
    | .ok (filter, orderBy) => .ok filter orderBy
    | .error (.parse error) => .failed [error]
    | .error .unreachable => .thrown
  else .failed (result.errors.map fun error => ⟨error.offset, error.length, error.message⟩)

end TaskFlow.Tql
