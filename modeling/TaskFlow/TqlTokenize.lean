import TaskFlow.FilterAst
import TaskFlow.NumberText

/-! # The TQL tokenizer

`tokenize` turns a query into positioned tokens and positioned errors, and decides
nothing about which token names a field.  It never stops at an error: the error
token covers the bad characters and the scan goes on behind it.

`tokenizeFrom` walks over the characters once.  Where the scan has read a token of
`n` characters, the next `n - 1` steps skip them.
-/
namespace TaskFlow.Tql

open Binary64 TaskFlow.Filter

inductive Keyword where
  | and | or | not | in_ | is | empty | contains | order | by_ | asc | desc | null
  deriving DecidableEq

def keywords : List (Text × Keyword) :=
  [("AND".toList, .and), ("OR".toList, .or), ("NOT".toList, .not), ("IN".toList, .in_),
    ("IS".toList, .is), ("EMPTY".toList, .empty), ("CONTAINS".toList, .contains),
    ("ORDER".toList, .order), ("BY".toList, .by_), ("ASC".toList, .asc), ("DESC".toList, .desc),
    ("NULL".toList, .null)]

/-- The keyword a word is, in any case. -/
def keywordOf (word : Text) : Option Keyword := keywords.lookup (word.map Char.toUpper)

/-- The kind of a token, with its decoded payload. -/
inductive TokenKind where
  | ident
  | string (value : Text)
  | number (value : Number)
  | relative
  | at (name : Text)
  | op
  | keyword (keyword : Keyword)
  | lparen
  | rparen
  | comma
  | colon
  | eof
  | error
  deriving DecidableEq

structure Token where
  kind : TokenKind
  /-- The characters of the source it covers. -/
  text : Text
  offset : ℕ
  deriving DecidableEq

def Token.length (token : Token) : ℕ := token.text.length

structure LexError where
  offset : ℕ
  length : ℕ
  message : String
  deriving DecidableEq

/-! ### Characters -/

def isIdentStart (c : Char) : Bool := c.isAlpha || c == '_'

def isIdentCont (c : Char) : Bool := c.isAlphanum || c == '_'

/-- The characters that `\\s` matches. -/
def isSpace (c : Char) : Bool :=
  let n := c.toNat
  (9 ≤ n && n ≤ 13) || n == 32 || n == 160 || n == 0x1680 || (0x2000 ≤ n && n ≤ 0x200a) ||
    n == 0x2028 || n == 0x2029 || n == 0x202f || n == 0x205f || n == 0x3000 || n == 0xfeff

/-! ### One token -/

/-- A token of the source, before it has its place, and what is wrong with it. -/
structure Lexeme where
  kind : TokenKind
  text : Text
  error : Option String := none

def Lexeme.unexpected (c : Char) : Lexeme :=
  ⟨.error, [c], some ("Unexpected \"" ++ String.ofList [c] ++ "\".")⟩

/-- The operators, and the exclamation mark that is none. -/
def scanOperator : Char → Text → Option Lexeme
  | '=', _ => some ⟨.op, ['='], none⟩
  | '!', '=' :: _ => some ⟨.op, ['!', '='], none⟩
  | '!', _ => some ⟨.error, ['!'], some "Unexpected \"!\". Did you mean \"!=\"?"⟩
  | '<', '=' :: _ => some ⟨.op, ['<', '='], none⟩
  | '<', '>' :: _ => some ⟨.op, ['<', '>'], none⟩
  | '<', _ => some ⟨.op, ['<'], none⟩
  | '>', '=' :: _ => some ⟨.op, ['>', '='], none⟩
  | '>', _ => some ⟨.op, ['>'], none⟩
  | _, _ => none

def punctuation : Char → Option TokenKind
  | '(' => some .lparen
  | ')' => some .rparen
  | ',' => some .comma
  | ':' => some .colon
  | _ => none

/-- The sign a number begins with. -/
def signOf : Text → Text
  | '+' :: _ => ['+']
  | '-' :: _ => ['-']
  | _ => []

/-- A point and the digits after it, if a digit follows the point. -/
def scanFraction : Text → Text
  | '.' :: d :: rest => if d.isDigit then '.' :: (d :: rest).takeWhile Char.isDigit else []
  | _ => []

/-- The token of a number whose digits are `text`, by what follows them. -/
def numberLexeme (text : Text) (hasDecimal : Bool) : Text → Lexeme
  | 'm' :: 'o' :: _ => ⟨.relative, text ++ ['m', 'o'], none⟩
  | unit :: _ =>
    if (unit = 'd' ∨ unit = 'w') ∧ hasDecimal = false then ⟨.relative, text ++ [unit], none⟩
    else if hasDecimal && unit.isAlpha then
      ⟨.error, text, some ("\"" ++ String.ofList text ++ "\" cannot be followed by a unit — " ++
        "relative dates are whole days, weeks or months.")⟩
    else ⟨.number (NumberText.toNumber text), text, none⟩
  | [] => ⟨.number (NumberText.toNumber text), text, none⟩

/-- A number with or without a sign, or a relative date. -/
def scanNumber (input : Text) : Lexeme :=
  let sign := signOf input
  let body := input.drop sign.length
  let whole := body.takeWhile Char.isDigit
  let behind := body.dropWhile Char.isDigit
  let fraction := scanFraction behind
  numberLexeme (sign ++ whole ++ fraction) (!fraction.isEmpty) (behind.drop fraction.length)

/-- Only these two escapes are defined; any other keeps its backslash. -/
def unescape (next : Char) : Text := if next = '"' ∨ next = '\\' then [next] else ['\\', next]

/-- The contents of a string up to its quote, and what is behind the quote. -/
def scanQuoted (quote : Char) : Text → Text × Option Text
  | [] => ([], none)
  | ['\\'] => ([], none)
  | '\\' :: next :: rest =>
    let (decoded, behind) := scanQuoted quote rest
    (unescape next ++ decoded, behind)
  | c :: rest =>
    if c = quote then ([], some rest)
    else
      let (decoded, behind) := scanQuoted quote rest
      (c :: decoded, behind)

@[grind =] def scanString (quote : Char) (rest : Text) : Lexeme :=
  match scanQuoted quote rest with
  | (decoded, some behind) =>
    ⟨.string decoded, quote :: rest.take (rest.length - behind.length), none⟩
  | (_, none) =>
    ⟨.error, quote :: rest, some ("Unterminated string — the closing " ++ String.ofList [quote] ++
      " is missing.")⟩

@[grind =] def scanAt : Text → Lexeme
  | c :: rest =>
    if isIdentStart c then
      let name := c :: rest.takeWhile isIdentCont
      ⟨.at name, '@' :: name, none⟩
    else ⟨.error, ['@'], some "Unexpected \"@\" — expected a name after it, like @me."⟩
  | [] => ⟨.error, ['@'], some "Unexpected \"@\" — expected a name after it, like @me."⟩

def wordKind (word : Text) : TokenKind :=
  match keywordOf word with
  | some keyword => .keyword keyword
  | none => .ident

def scanWord (c : Char) (rest : Text) : Lexeme :=
  let word := c :: rest.takeWhile isIdentCont
  ⟨wordKind word, word, none⟩

/-- The token at a character that is no space. -/
def scanToken (c : Char) (rest : Text) : Lexeme :=
  match scanOperator c rest, punctuation c with
  | some lexeme, _ => lexeme
  | none, some kind => ⟨kind, [c], none⟩
  | none, none =>
    if c = '+' ∨ c = '-' then
      if rest.head?.any Char.isDigit then scanNumber (c :: rest) else Lexeme.unexpected c
    else if c.isDigit then scanNumber (c :: rest)
    else if c = '"' ∨ c = '\'' then scanString c rest
    else if c = '@' then scanAt rest
    else if isIdentStart c then scanWord c rest
    else ⟨.error, [c], some ("Unexpected character \"" ++ String.ofList [c] ++ "\".")⟩

/-! ### The scan -/

structure TokenizeResult where
  tokens : List Token
  errors : List LexError
  deriving DecidableEq

def Lexeme.errorsAt (lexeme : Lexeme) (offset : ℕ) : List LexError :=
  lexeme.error.toList.map fun message => ⟨offset, lexeme.text.length, message⟩

/-- A token, and its error if it has one, before what is behind it. -/
def TokenizeResult.push (lexeme : Lexeme) (offset : ℕ) (result : TokenizeResult) :
    TokenizeResult :=
  ⟨⟨lexeme.kind, lexeme.text, offset⟩ :: result.tokens, lexeme.errorsAt offset ++ result.errors⟩

def tokenizeFrom : (skip offset : ℕ) → Text → TokenizeResult
  | _, offset, [] => ⟨[⟨.eof, [], offset⟩], []⟩
  | skip + 1, offset, _ :: rest => tokenizeFrom skip (offset + 1) rest
  | 0, offset, c :: rest =>
    if isSpace c then tokenizeFrom 0 (offset + 1) rest
    else
      let lexeme := scanToken c rest
      (tokenizeFrom (lexeme.text.length - 1) (offset + 1) rest).push lexeme offset

def tokenize (input : Text) : TokenizeResult := tokenizeFrom 0 0 input

/-- Skipping the characters of a token gets behind it. -/
theorem tokenizeFrom_skip (rest : Text) :
    ∀ (word : Text) (offset : ℕ),
      tokenizeFrom word.length offset (word ++ rest) =
        tokenizeFrom 0 (offset + word.length) rest
  | [], offset => rfl
  | _ :: word, offset => by
    rw [List.cons_append, List.length_cons, tokenizeFrom, tokenizeFrom_skip rest word]
    congr 1
    omega

theorem tokenizeFrom_space (offset : ℕ) (rest : Text) :
    tokenizeFrom 0 offset (' ' :: rest) = tokenizeFrom 0 (offset + 1) rest := by
  rw [tokenizeFrom, if_pos (by decide)]

/-- A token read at a character is pushed, and the scan goes on behind it. -/
theorem tokenizeFrom_token {c : Char} {word rest : Text} {kind : TokenKind} {error : Option String}
    (hspace : isSpace c = false) (h : scanToken c (word ++ rest) = ⟨kind, c :: word, error⟩)
    (offset : ℕ) :
    tokenizeFrom 0 offset (c :: word ++ rest) =
      (tokenizeFrom 0 (offset + (word.length + 1)) rest).push ⟨kind, c :: word, error⟩ offset := by
  rw [List.cons_append, tokenizeFrom, hspace, if_neg Bool.false_ne_true, h]
  simp only [List.length_cons, Nat.add_sub_cancel]
  rw [tokenizeFrom_skip]
  congr 2
  omega

example : (tokenize "due < -7d".toList).tokens.map (·.kind) = [.ident, .op, .relative, .eof] := by
  decide +kernel

end TaskFlow.Tql
