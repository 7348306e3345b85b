import TaskFlow.TqlRoundTrip

/-! # Numbers with an exponent

`String(x)` writes numbers from `10 ^ 21` on, and those close to zero, with an
exponent, which the tokenizer does not know.  With a point among the digits the
text is no query (`parse_exponent_decimal`); without one the digit, the letter and
the exponent are read as three terms (`parse_exponent`).
-/
namespace TaskFlow.Tql

open Binary64 TaskFlow.Filter NumberText

/-! ### Tokens -/

theorem numberLexeme_exponent (text more : Text) :
    numberLexeme text false ('e' :: more) = ⟨.number (toNumber text), text, none⟩ := rfl

/-- After a point, a letter is refused. -/
theorem numberLexeme_exponent_decimal (text more : Text) :
    ∃ message, numberLexeme text true ('e' :: more) = ⟨.error, text, some message⟩ := ⟨_, rfl⟩

theorem scanNumber_signed {sign : Char} {digits : Text} (hsign : sign = '+' ∨ sign = '-')
    (hdigits : ∀ c ∈ digits, c.isDigit = true) :
    scanNumber (sign :: digits) =
      ⟨.number (toNumber (sign :: digits)), sign :: digits, none⟩ := by
  have hhead : ∀ c ∈ ([] : Text).head?, c.isDigit = false := nofun
  have htake := takeWhile_append hdigits hhead
  have hdrop := dropWhile_append hdigits hhead
  rw [List.append_nil] at htake hdrop
  have hsignOf : signOf (sign :: digits) = [sign] := by
    rcases hsign with rfl | rfl <;> rfl
  rw [scanNumber, hsignOf]
  simp only [List.length_singleton, List.drop_succ_cons, List.drop_zero]
  rw [htake, hdrop]
  simp [scanFraction, numberLexeme]

theorem scanToken_signed {sign : Char} {digits : Text} (hsign : sign = '+' ∨ sign = '-')
    (hne : digits ≠ []) (hdigits : ∀ c ∈ digits, c.isDigit = true) :
    scanToken sign digits = ⟨.number (toNumber (sign :: digits)), sign :: digits, none⟩ := by
  obtain ⟨d, ds, rfl⟩ := List.exists_cons_of_ne_nil hne
  rw [← scanNumber_signed hsign hdigits]
  have hd := hdigits d List.mem_cons_self
  rcases hsign with rfl | rfl
  · change (if (some d).any Char.isDigit then _ else _) = _
    rw [if_pos (by simpa using hd)]
  · exact scanToken_minus (by simpa using hd)

/-- The tokens of the letter and the exponent, at the end of a text. -/
theorem tokenizeFrom_exponent {sign : Char} {digits : Text} (hsign : sign = '+' ∨ sign = '-')
    (hne : digits ≠ []) (hdigits : ∀ c ∈ digits, c.isDigit = true) (offset : ℕ) :
    ∃ word number last : Token, word.shape = (.ident, ['e']) ∧
      number.shape = (.number (toNumber (sign :: digits)), sign :: digits) ∧ last.kind = .eof ∧
      tokenizeFrom 0 offset ('e' :: sign :: digits) = ⟨[word, number, last], []⟩ := by
  have hword : scanToken 'e' ([] ++ sign :: digits) = ⟨.ident, ['e'], none⟩ := by
    rcases hsign with rfl | rfl <;> rfl
  have hnumber : scanToken sign (digits ++ []) =
      ⟨.number (toNumber (sign :: digits)), sign :: digits, none⟩ := by
    rw [List.append_nil, scanToken_signed hsign hne hdigits]
  have hspace : isSpace sign = false := by rcases hsign with rfl | rfl <;> rfl
  have hfirst := tokenizeFrom_token (by decide) hword offset
  have hsecond := tokenizeFrom_token hspace hnumber (offset + 1)
  rw [List.append_nil] at hsecond
  refine ⟨⟨.ident, ['e'], offset⟩, ⟨.number (toNumber (sign :: digits)), sign :: digits,
    offset + 1⟩, ⟨.eof, [], offset + 1 + (digits.length + 1)⟩, rfl, rfl, rfl, ?_⟩
  rw [List.cons_append, List.nil_append] at hfirst
  rw [hfirst, List.length_nil, Nat.zero_add, hsecond]
  rfl

section

variable {field text : Text} (hfield : Lexes field [(.ident, field)])
  (htext : Lexes text [opShape text])

include hfield htext

/-- A field and an operator before anything. -/
theorem tokenize_scalar (behind : Text) :
    ∃ (tokens : List Token) (offset : ℕ),
      tokens.map Token.shape = [(.ident, field), opShape text] ∧
        tokenize (field ++ ' ' :: (text ++ ' ' :: behind)) =
          (tokenizeFrom 0 offset behind).prepend tokens := by
  obtain ⟨tokens, htokens, hresult⟩ :=
    hfield.append_space htext 0 (' ' :: behind) (boundary_cons (Or.inl rfl) _)
  rw [tokenizeFrom_space, List.append_assoc, List.cons_append] at hresult
  exact ⟨tokens, _, htokens, hresult⟩

variable {l : Literal} {sign : Char} {digits : Text} (hsign : sign = '+' ∨ sign = '-')
  (hne : digits ≠ []) (hdigits : ∀ c ∈ digits, c.isDigit = true)

omit hfield htext in
/-- The number before an exponent, and what is behind it. -/
theorem tokenizeFrom_literal (offset : ℕ) (more : Text) {kind : TokenKind} {error : Option String}
    (h : numberLexeme l.text (!l.fraction.isEmpty) ('e' :: more) = ⟨kind, l.text, error⟩) :
    tokenizeFrom 0 offset (l.text ++ 'e' :: more) =
      (tokenizeFrom 0 (offset + l.text.length) ('e' :: more)).push ⟨kind, l.text, error⟩
        offset := by
  obtain ⟨c, word, hl, hspace, hscan⟩ := scanToken_text l
  have hhead : ∀ d ∈ ('e' :: more).head?, d.isDigit = false ∧ d ≠ '.' := by
    intro d hd
    cases hd
    decide
  have hlex := hscan ('e' :: more)
  rw [scanNumber_text l hhead, h] at hlex
  rw [hl] at hlex ⊢
  rw [tokenizeFrom_token hspace hlex]
  rfl

include hsign hne hdigits

/-- The five tokens of a comparison with a number such as `1e+21`. -/
theorem tokenize_exponent (hl : l.fraction = []) :
    ∃ (tokens : List Token) (last : Token), last.kind = .eof ∧
      tokens.map Token.shape = [(.ident, field), opShape text, (.number (toNumber l.text), l.text),
        (.ident, ['e']), (.number (toNumber (sign :: digits)), sign :: digits)] ∧
      tokenize (field ++ ' ' :: (text ++ ' ' :: (l.text ++ 'e' :: sign :: digits))) =
        ⟨tokens ++ [last], []⟩ := by
  obtain ⟨tokens, offset, htokens, hresult⟩ :=
    tokenize_scalar hfield htext (l.text ++ 'e' :: sign :: digits)
  -- the number ends at the letter, which is the unit of no relative date
  have hlexeme : numberLexeme l.text (!l.fraction.isEmpty) ('e' :: sign :: digits) =
      ⟨.number (toNumber l.text), l.text, none⟩ := by
    rw [hl]
    exact numberLexeme_exponent l.text (sign :: digits)
  obtain ⟨word, number, last, hword, hnumber, hlast, hend⟩ :=
    tokenizeFrom_exponent hsign hne hdigits (offset + l.text.length)
  rw [tokenizeFrom_literal offset _ hlexeme, hend] at hresult
  refine ⟨tokens ++ [⟨.number (toNumber l.text), l.text, offset⟩, word, number], last, hlast, ?_, ?_⟩
  · rw [List.map_append, htokens]
    simp only [List.map_cons, List.map_nil, hword, hnumber]
    rfl
  · rw [hresult]
    simp [TokenizeResult.prepend, TokenizeResult.push, Lexeme.errorsAt]

omit hsign hne hdigits in
/-- With a point before the exponent, the text is refused. -/
theorem tokenize_exponent_decimal (hl : l.fraction ≠ []) (more : Text) :
    (tokenize (field ++ ' ' :: (text ++ ' ' :: (l.text ++ 'e' :: more)))).errors ≠ [] := by
  obtain ⟨tokens, offset, htokens, hresult⟩ := tokenize_scalar hfield htext (l.text ++ 'e' :: more)
  obtain ⟨message, hlexeme⟩ : ∃ message, numberLexeme l.text (!l.fraction.isEmpty) ('e' :: more) =
      ⟨.error, l.text, some message⟩ := by
    rw [List.isEmpty_eq_false_iff.mpr hl]
    exact numberLexeme_exponent_decimal l.text more
  rw [hresult, tokenizeFrom_literal offset more hlexeme]
  nofun

end

/-! ### Terms -/

variable {tokens rest rest' rest'' : List Token} {token : Token}

/-- A term that follows another without a keyword. -/
theorem parseAndRest_implicit {term : FilterNode} {terms : List FilterNode} {fuel : ℕ}
    (hends : endsAnd token = false) (hand : token.isKeyword .and = false)
    (hterm : parseTerm fuel (token :: rest) = .ok (term, rest'))
    (hrest : parseAndRest fuel rest' = .ok (terms, rest'')) :
    parseAndRest (fuel + 1) (token :: rest) = .ok (term :: terms, rest'') := by
  rw [parseAndRest, peek_cons]
  change (if endsAnd token = true then _ else _) = _
  rw [hends, if_neg Bool.false_ne_true, hand, if_neg Bool.false_ne_true, hterm]
  change (parseAndRest fuel rest' >>= _) = _
  rw [hrest]
  rfl

/-- A term that is searched for. -/
def searched (term : Text) : FilterNode := compare "text".toList .contains (.string term)

theorem parseTerm_number {x : Number} {fuel : ℕ} (h : token.kind = .number x) :
    parseTerm (fuel + 1) (token :: rest) = .ok (searched (toText x), rest) := by
  rw [parseTerm, peek_cons]
  simp [Token.isKeyword, h, parseAtom, freeText, bind, Except.bind, pure, Except.pure, searched]

theorem parseTerm_word {next : Token} {x : Number} {fuel : ℕ} (h : token.kind = .ident)
    (hnext : next.kind = .number x) :
    parseTerm (fuel + 1) (token :: next :: rest) =
      .ok (searched token.text, next :: rest) := by
  rw [parseTerm_ident h, parseAtom, peek_cons]
  simp [h, hnext, startsComparison, freeText, bind, Except.bind, pure, Except.pure, searched]

theorem parseTerm_scalar {field op value : Token} {text : Text} {operator : ScalarOperator}
    {x : Number} {fuel : ℕ} (hfield : field.kind = .ident) (hop : op.shape = opShape text)
    (hlookup : scalarOperators.lookup text = some operator) (hvalue : value.kind = .number x) :
    parseTerm (fuel + 1) (field :: op :: value :: rest) =
      .ok (compare field.text operator (.number x), rest) := by
  have hkind : op.kind = .op := (Token.shape_eq hop).1
  have hstarts : startsComparison (op :: value :: rest) = true := by
    rw [startsComparison, hkind]
  rw [parseTerm_ident hfield, parseAtom, peek_cons]
  change (if field.kind = .ident ∧ startsComparison (op :: value :: rest) = true then _ else _) = _
  rw [if_pos ⟨hfield, hstarts⟩]
  apply parseComparison_op hop hlookup
  rw [tokenValue, hvalue]

/-- The five tokens are a comparison with the number before the exponent, and two
words that are searched for. -/
theorem parseTokens_exponent {field text w w' : Text} {operator : ScalarOperator} {x y : Number}
    {last : Token} (hlookup : scalarOperators.lookup text = some operator)
    (hlast : last.kind = .eof)
    (h : tokens.map Token.shape = [(.ident, field), opShape text, (.number x, w), (.ident, ['e']),
      (.number y, w')]) :
    parseTokens (tokens ++ [last]) =
      .ok (some (.group .and [compare field operator (.number x), searched ['e'],
        searched (toText y)]), none) := by
  obtain ⟨t₁, tokens, rfl, h₁, h⟩ := List.map_eq_cons_iff.mp h
  obtain ⟨t₂, tokens, rfl, h₂, h⟩ := List.map_eq_cons_iff.mp h
  obtain ⟨t₃, tokens, rfl, h₃, h⟩ := List.map_eq_cons_iff.mp h
  obtain ⟨t₄, t₅, rfl, h₄, h₅⟩ := exists_two h
  have hkind₁ : t₁.kind = .ident := (Token.shape_eq h₁).1
  have hkind₄ : t₄.kind = .ident := (Token.shape_eq h₄).1
  have hkind₅ : t₅.kind = .number y := (Token.shape_eq h₅).1
  have hword : ∀ {token : Token}, token.kind = .ident → endsAnd token = false ∧
      token.isKeyword .and = false := fun h => by simp [endsAnd, Token.isKeyword, h]
  have hnumber : endsAnd t₅ = false ∧ t₅.isKeyword .and = false := by
    simp [endsAnd, Token.isKeyword, hkind₅]
  -- six tokens make a fuel of 28, and each level of the grammar takes one
  have hfirst : parseTerm 26 [t₁, t₂, t₃, t₄, t₅, last] =
      .ok (compare field operator (.number x), [t₄, t₅, last]) := by
    rw [← (Token.shape_eq h₁).2]
    exact parseTerm_scalar hkind₁ h₂ hlookup (Token.shape_eq h₃).1
  have hend : parseAndRest 24 [last] = .ok ([], [last]) :=
    parseAndRest_ends 23 (by simp [endsAnd, hlast])
  have hrest : parseAndRest 26 [t₄, t₅, last] =
      .ok ([searched t₄.text, searched (toText y)], [last]) :=
    parseAndRest_implicit (hword hkind₄).1 (hword hkind₄).2 (parseTerm_word hkind₄ hkind₅)
      (parseAndRest_implicit hnumber.1 hnumber.2 (parseTerm_number hkind₅) hend)
  have hand : parseAnd 27 [t₁, t₂, t₃, t₄, t₅, last] =
      .ok (.group .and [compare field operator (.number x), searched t₄.text,
        searched (toText y)], [last]) := by
    rw [parseAnd, hfirst]
    change (parseAndRest 26 [t₄, t₅, last] >>= _) = _
    rw [hrest]
    rfl
  have hor : parseOr 28 [t₁, t₂, t₃, t₄, t₅, last] =
      .ok (.group .and [compare field operator (.number x), searched t₄.text,
        searched (toText y)], [last]) := by
    rw [parseOr, hand]
    change (parseOrRest 27 [last] >>= _) = _
    rw [parseOrRest_ends 26 (by simp [Token.isKeyword, hlast])]
    rfl
  change parseTokens [t₁, t₂, t₃, t₄, t₅, last] = _
  rw [parseTokens, peek_cons, show fuelFor [t₁, t₂, t₃, t₄, t₅, last] = 28 from rfl, hor,
    (Token.shape_eq h₄).2]
  simp [hkind₁, Token.isKeyword, parseOrderBy, hlast, bind, Except.bind, pure, Except.pure]

/-! ### Texts -/

/-- **A comparison with a number that is written with an exponent is no query, or one
for a word `e` besides.** -/
theorem parse_exponent {field text : Text} {operator : ScalarOperator} {x : Finite}
    (hfield : Lexes field [(.ident, field)]) (htext : Lexes text [opShape text])
    (hlookup : scalarOperators.lookup text = some operator) (hx : ¬Plain x) :
    (∃ errors, parse (field ++ ' ' :: (text ++ ' ' :: toText (.finite x))) = .failed errors) ∨
      ∃ y term, parse (field ++ ' ' :: (text ++ ' ' :: toText (.finite x))) =
        .ok (some (.group .and [compare field operator (.number y), searched ['e'],
          searched term])) none := by
  obtain ⟨l, sign, digits, htoText, hsign, hne, hdigits⟩ := exists_exponent hx
  rw [htoText]
  by_cases hl : l.fraction = []
  · obtain ⟨tokens, last, hlast, hshapes, hresult⟩ :=
      tokenize_exponent hfield htext hsign hne hdigits hl
    refine Or.inr ⟨toNumber l.text, toText (toNumber (sign :: digits)), ?_⟩
    rw [parse, hresult]
    simp only [if_true, parseTokens_exponent hlookup hlast hshapes]
  · have herrors := tokenize_exponent_decimal hfield htext hl (sign :: digits)
    unfold parse
    simp only [if_neg herrors]
    exact Or.inl ⟨_, rfl⟩

end TaskFlow.Tql
