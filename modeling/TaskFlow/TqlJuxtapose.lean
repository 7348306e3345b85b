import TaskFlow.TqlReadings

/-! # Terms side by side

A text without errors is read the same with a space and more text behind it.  So two terms side by
side are what they are with `AND` between them, unless the first ends as a bare word and the second
begins with `NOT`, which makes a field of the word (`juxtaposed_eq_iff`).
-/
namespace TaskFlow.Tql

open TaskFlow.Filter

/-! ### The tokens of texts side by side -/

section
variable {p : Char → Bool} (hp : p ' ' = false) (text more : Text)
include hp

theorem takeWhile_append_space : (text ++ ' ' :: more).takeWhile p = text.takeWhile p := by
  induction text with
  | nil => rw [List.nil_append, List.takeWhile_cons_of_neg (by rw [hp]; decide), List.takeWhile_nil]
  | cons c text ih =>
    rw [List.cons_append]
    by_cases hc : p c = true
    · rw [List.takeWhile_cons_of_pos hc, List.takeWhile_cons_of_pos hc, ih]
    · rw [List.takeWhile_cons_of_neg hc, List.takeWhile_cons_of_neg hc]

theorem dropWhile_append_space :
    (text ++ ' ' :: more).dropWhile p = text.dropWhile p ++ ' ' :: more := by
  induction text with
  | nil => rw [List.nil_append, List.dropWhile_cons_of_neg (by rw [hp]; decide)]; rfl
  | cons c text ih =>
    rw [List.cons_append]
    by_cases hc : p c = true
    · rw [List.dropWhile_cons_of_pos hc, List.dropWhile_cons_of_pos hc, ih]
    · rw [List.dropWhile_cons_of_neg hc, List.dropWhile_cons_of_neg hc, List.cons_append]

end

theorem scanOperator_space (c : Char) (rest more : Text) :
    scanOperator c (rest ++ ' ' :: more) = scanOperator c rest := by
  cases rest with
  | nil => unfold scanOperator; split <;> simp_all
  | cons d rest => unfold scanOperator; split <;> simp_all

theorem scanFraction_space (behind more : Text) :
    scanFraction (behind ++ ' ' :: more) = scanFraction behind := by
  cases behind with
  | nil => rfl
  | cons c behind =>
    by_cases hc : c = '.'
    · subst hc
      cases behind with
      | nil => rfl
      | cons d rest =>
        rw [List.cons_append, List.cons_append, scanFraction, scanFraction, ← List.cons_append,
          takeWhile_append_space (by decide)]
    · rw [List.cons_append, scanFraction_of_ne hc, scanFraction_of_ne hc]

/-- What is no `mo` behind a number. -/
theorem numberLexeme_unit {unit : Char} {behind : Text} (text : Text) (hasDecimal : Bool)
    (h : unit = 'm' → behind.head? ≠ some 'o') :
    numberLexeme text hasDecimal (unit :: behind) =
      if (unit = 'd' ∨ unit = 'w') ∧ hasDecimal = false then ⟨.relative, text ++ [unit], none⟩
      else if hasDecimal && unit.isAlpha then
        ⟨.error, text, some ("\"" ++ String.ofList text ++ "\" cannot be followed by a unit — " ++
          "relative dates are whole days, weeks or months.")⟩
      else ⟨.number (NumberText.toNumber text), text, none⟩ := by
  conv_lhs => unfold numberLexeme
  split
  next heq =>
    obtain ⟨rfl, rfl⟩ := List.cons.inj heq
    exact absurd rfl (h rfl)
  next heq =>
    obtain ⟨rfl, rfl⟩ := List.cons.inj heq
    rfl
  next heq => cases heq

theorem numberLexeme_space (text : Text) (hasDecimal : Bool) (behind more : Text) :
    numberLexeme text hasDecimal (behind ++ ' ' :: more) = numberLexeme text hasDecimal behind := by
  cases behind with
  | nil => simp [numberLexeme]
  | cons unit behind =>
    by_cases h : unit = 'm' ∧ behind.head? = some 'o'
    · obtain ⟨rfl, hhead⟩ := h
      cases behind with
      | nil => cases hhead
      | cons o behind =>
        cases hhead
        rfl
    · have hunit : unit = 'm' → behind.head? ≠ some 'o' := fun hm ho => h ⟨hm, ho⟩
      rw [List.cons_append, numberLexeme_unit text hasDecimal hunit, numberLexeme_unit]
      intro hm ho
      cases behind with
      | nil => cases ho
      | cons o behind => exact hunit hm ho

theorem signOf_space (c : Char) (rest more : Text) :
    signOf (c :: rest ++ ' ' :: more) = signOf (c :: rest) := by
  rw [List.cons_append]
  unfold signOf
  split <;> split <;> simp_all

theorem scanNumber_space (c : Char) (rest more : Text) :
    scanNumber (c :: rest ++ ' ' :: more) = scanNumber (c :: rest) := by
  have hsign : (signOf (c :: rest)).length ≤ (c :: rest).length := by
    conv_rhs => rw [← signOf_append_drop (c :: rest), List.length_append]
    exact Nat.le_add_right _ _
  unfold scanNumber
  simp only [signOf_space, List.drop_append_of_le_length hsign]
  rw [takeWhile_append_space (by decide), dropWhile_append_space (by decide), scanFraction_space,
    List.drop_append_of_le_length (isPrefix_scanFraction _).length_le, numberLexeme_space]

/-- A character that begins neither the last backslash nor an escape is no backslash. -/
theorem ne_backslash {c : Char} {rest : Text} (hend : c = '\\' → rest = [] → False)
    (hescape : ∀ (next : Char) (tail : Text), c = '\\' → rest = next :: tail → False) :
    c ≠ '\\' := by
  rintro rfl
  cases rest with
  | nil => exact hend rfl rfl
  | cons next tail => exact hescape next tail rfl rfl

theorem scanQuoted_cons {quote c : Char} (hc : c ≠ '\\') (rest : Text) :
    scanQuoted quote (c :: rest) =
      if c = quote then ([], some rest)
      else (c :: (scanQuoted quote rest).1, (scanQuoted quote rest).2) := by
  rw [scanQuoted]
  · exact fun h => absurd h hc
  · exact fun _ _ h => absurd h hc

theorem scanQuoted_append {quote : Char} (more rest : Text) {decoded behind : Text}
    (h : scanQuoted quote rest = (decoded, some behind)) :
    scanQuoted quote (rest ++ more) = (decoded, some (behind ++ more)) ∧
      behind.length ≤ rest.length := by
  fun_induction scanQuoted quote rest generalizing decoded behind with
  | case1 => cases h
  | case2 => cases h
  | case3 next rest decoded' behind' heq ih =>
    cases h
    obtain ⟨hread, hlength⟩ := ih heq
    rw [List.cons_append, List.cons_append, scanQuoted, hread]
    exact ⟨rfl, by simp only [List.length_cons]; omega⟩
  | case4 rest hend hescape =>
    cases h
    rw [List.cons_append, scanQuoted_cons (ne_backslash hend hescape), if_pos rfl]
    exact ⟨rfl, by simp only [List.length_cons]; omega⟩
  | case5 c rest hend hescape hne decoded' behind' heq ih =>
    cases h
    obtain ⟨hread, hlength⟩ := ih heq
    rw [List.cons_append, scanQuoted_cons (ne_backslash hend hescape), if_neg hne, hread]
    exact ⟨rfl, by simp only [List.length_cons]; omega⟩

theorem scanString_space {quote : Char} {rest : Text} (more : Text)
    (h : (scanString quote rest).error = none) :
    scanString quote (rest ++ more) = scanString quote rest := by
  rw [scanString] at h
  split at h
  next decoded behind heq =>
    obtain ⟨hread, hlength⟩ := scanQuoted_append more rest heq
    have hle : rest.length - behind.length ≤ rest.length := Nat.sub_le _ _
    rw [scanString, scanString, hread, heq]
    simp only [List.length_append, Nat.add_sub_add_right, List.take_append_of_le_length hle]
  · cases h

theorem scanAt_space (rest more : Text) : scanAt (rest ++ ' ' :: more) = scanAt rest := by
  cases rest with
  | nil => rfl
  | cons c rest =>
    rw [List.cons_append, scanAt, scanAt, takeWhile_append_space (by decide)]

theorem head?_append_space (rest more : Text) :
    (rest ++ ' ' :: more).head?.any Char.isDigit = rest.head?.any Char.isDigit := by
  cases rest <;> rfl

/-- A token that is no error is read the same with a space behind the text. -/
theorem scanToken_space {c : Char} {rest : Text} (more : Text)
    (h : (scanToken c rest).error = none) :
    scanToken c (rest ++ ' ' :: more) = scanToken c rest := by
  unfold scanToken at h ⊢
  rw [scanOperator_space, head?_append_space, ← List.cons_append, scanNumber_space, scanAt_space,
    scanWord, scanWord, takeWhile_append_space (by decide)]
  by_cases hquote : c = '"' ∨ c = '\''
  · have hscan : scanOperator c rest = none := by
      rcases hquote with rfl | rfl <;> rfl
    have hpunctuation : punctuation c = none := by
      rcases hquote with rfl | rfl <;> rfl
    have hsign : ¬(c = '+' ∨ c = '-') := by
      rcases hquote with rfl | rfl <;> decide
    have hdigit : ¬c.isDigit = true := by
      rcases hquote with rfl | rfl <;> decide
    simp only [hscan, hpunctuation, if_neg hsign, if_neg hdigit, if_pos hquote] at h ⊢
    exact scanString_space _ h
  · simp only [if_neg hquote]

/-- Without errors, the tokens of a text are what they were with a space and more text behind it,
but for the sentinel. -/
theorem tokenizeFrom_append (more : Text) : ∀ (input : Text) (skip offset : ℕ),
    skip ≤ input.length → (tokenizeFrom skip offset input).errors = [] →
      ∃ front, (tokenizeFrom skip offset input).tokens =
          front ++ [⟨.eof, [], offset + input.length⟩] ∧
        tokenizeFrom skip offset (input ++ ' ' :: more) =
          (tokenizeFrom 0 (offset + input.length + 1) more).prepend front
  | [], 0, offset, _, _ => ⟨[], rfl, tokenizeFrom_space offset more⟩
  | [], skip + 1, _, hskip, _ => by cases hskip
  | c :: rest, skip + 1, offset, hskip, herrors => by
    obtain ⟨front, htokens, hresult⟩ := tokenizeFrom_append more rest skip (offset + 1)
      (Nat.le_of_succ_le_succ hskip) herrors
    rw [List.length_cons, Nat.add_comm rest.length, ← Nat.add_assoc]
    exact ⟨front, htokens, hresult⟩
  | c :: rest, 0, offset, _, herrors => by
    rw [List.length_cons, Nat.add_comm rest.length, ← Nat.add_assoc, List.cons_append]
    by_cases hspace : isSpace c = true
    · rw [tokenizeFrom, if_pos hspace] at herrors ⊢
      rw [tokenizeFrom, if_pos hspace]
      exact tokenizeFrom_append more rest 0 (offset + 1) (Nat.zero_le _) herrors
    · rw [tokenizeFrom, if_neg hspace] at herrors ⊢
      rw [tokenizeFrom, if_neg hspace]
      obtain ⟨herror, herrors⟩ := List.append_eq_nil_iff.mp herrors
      have hnone : (scanToken c rest).error = none :=
        Option.toList_eq_nil_iff.mp (List.map_eq_nil_iff.mp herror)
      have hlength : (scanToken c rest).text.length - 1 ≤ rest.length := by
        have h := (isPrefix_scanToken c rest).1.length_le
        rw [List.length_cons] at h
        omega
      obtain ⟨front, htokens, hresult⟩ := tokenizeFrom_append more rest _ (offset + 1) hlength
        herrors
      refine ⟨⟨(scanToken c rest).kind, (scanToken c rest).text, offset⟩ :: front, ?_, ?_⟩
      · rw [TokenizeResult.push, htokens]
        rfl
      · simp only [scanToken_space more hnone, hresult]
        simp only [TokenizeResult.push, TokenizeResult.prepend, herror, List.nil_append,
          List.cons_append]

/-- Where a text begins makes no difference to the shapes of its tokens and to its errors. -/
theorem tokenizeFrom_offset : ∀ (input : Text) (skip offset offset' : ℕ),
    (tokenizeFrom skip offset input).tokens.map Token.shape =
        (tokenizeFrom skip offset' input).tokens.map Token.shape ∧
      (tokenizeFrom skip offset input).errors.map LexError.message =
        (tokenizeFrom skip offset' input).errors.map LexError.message
  | [], 0, _, _ => ⟨rfl, rfl⟩
  | [], _ + 1, _, _ => ⟨rfl, rfl⟩
  | _ :: rest, skip + 1, offset, offset' =>
    tokenizeFrom_offset rest skip (offset + 1) (offset' + 1)
  | c :: rest, 0, offset, offset' => by
    rw [tokenizeFrom, tokenizeFrom]
    by_cases hspace : isSpace c = true
    · rw [if_pos hspace, if_pos hspace]
      exact tokenizeFrom_offset rest 0 (offset + 1) (offset' + 1)
    · rw [if_neg hspace, if_neg hspace]
      obtain ⟨htokens, herrors⟩ := tokenizeFrom_offset rest
        ((scanToken c rest).text.length - 1) (offset + 1) (offset' + 1)
      constructor
      · simp only [TokenizeResult.push, List.map_cons, htokens, Token.shape]
      · simp only [TokenizeResult.push, List.map_append, herrors, Lexeme.errorsAt, List.map_map]
        rfl

/-! ### Queries of two terms -/

/-- The text without its sentinel. -/
def written (text : Text) : List Token := (tokenize text).tokens.dropLast

/-- The parser accepts the text on its own, as a single term. -/
def IsTerm (text : Text) : Prop :=
  (tokenize text).errors = [] ∧ ∃ node last,
    parseTerm (fuelFor (tokenize text).tokens) (tokenize text).tokens = .ok (node, [last])

def endsAsBareWord (text : Text) : Bool := isBareWord (written text)

def beginsWithNot (text : Text) : Bool :=
  (written text).head?.any fun token => token.isKeyword .not

/-- What a term begins with. -/
def beginsTerm (token : Token) : Bool :=
  match token.kind with
  | .ident | .string _ | .number _ | .relative | .at _ | .lparen | .keyword .not => true
  | _ => false

theorem parseTerm_begins {fuel : ℕ} {token : Token} {tail : List Token}
    {result : FilterNode × List Token} (h : parseTerm fuel (token :: tail) = .ok result) :
    beginsTerm token = true := by
  cases fuel with
  | zero => cases h
  | succ fuel =>
    rw [parseTerm, peek_bind] at h
    by_cases hnot : token.isKeyword .not = true
    · rw [beginsTerm, eq_of_beq hnot]
    simp only [if_neg hnot] at h
    by_cases horder : token.isKeyword .order = true
    · simp only [if_pos horder] at h
      cases h
    simp only [if_neg horder] at h
    by_cases hopen : token.kind = .lparen
    · rw [beginsTerm, hopen]
    rw [if_neg hopen, parseAtom, peek_bind] at h
    by_cases hfield : token.kind = .ident ∧ startsComparison (token :: tail).tail = true
    · rw [beginsTerm, hfield.1]
    rw [if_neg hfield] at h
    split at h
    iterate 5 next hkind => rw [beginsTerm, hkind]
    · cases h
    · cases h

/-- A term neither ends an AND nor makes a list or, but for its `NOT`, a field. -/
theorem beginsTerm_cases {token : Token} (tail : List Token) (h : beginsTerm token = true) :
    endsAnd token = false ∧ token.isKeyword .and = false ∧ token.isKeyword .in_ = false ∧
      startsComparison (token :: tail) = token.isKeyword .not := by
  unfold beginsTerm at h
  unfold endsAnd startsComparison Token.isKeyword
  split at h
  iterate 7 next hkind => simp only [hkind]; exact ⟨rfl, rfl, rfl, rfl⟩
  · cases h

theorem not_endsAnd {token : Token} (h : endsAnd token = false) :
    ¬(token.kind = .eof ∨ token.isKeyword .order = true) := by
  simp only [endsAnd, Bool.or_eq_false_iff, beq_eq_false_iff_ne] at h
  rintro (heof | horder)
  · exact h.1.1.2 heof
  · rw [h.2] at horder
    cases horder

/-- A term and the terms behind it are the whole query. -/
theorem parseTokens_terms {token : Token} {tail : List Token} (behind : List Token) {last : Token}
    {first : FilterNode} {others : List FilterNode} (hbegins : beginsTerm token = true)
    (hlast : last.kind = .eof)
    (hfirst : parseTerm (4 * (token :: tail).length + 2) (token :: tail) = .ok (first, behind))
    (hothers : parseAndRest (4 * (token :: tail).length + 2) behind = .ok (others, [last])) :
    parseTokens (token :: tail) = .ok (some (joined .and first others), none) := by
  have hor : last.isKeyword .or = false := by rw [Token.isKeyword, hlast]; rfl
  have horder : ¬last.isKeyword .order = true := by
    rw [Token.isKeyword, hlast]
    decide
  rw [parseTokens, peek_bind, if_neg (not_endsAnd (beginsTerm_cases tail hbegins).1), fuelFor,
    parseOr, parseAnd, hfirst]
  simp only [bind, Except.bind, hothers, pure, Except.pure]
  rw [parseOrRest_ends _ hor]
  simp only [parseOrderBy, peek, bind, Except.bind, if_neg horder, pure, Except.pure,
    if_pos hlast]
  rfl

theorem parseAndRest_term {fuel : ℕ} {token : Token} {tail : List Token} {last : Token}
    {node : FilterNode} (hends : endsAnd token = false) (hlast : last.kind = .eof)
    (h : parseTerm (fuel + 1) (if token.isKeyword .and then tail else token :: tail) =
      .ok (node, [last])) :
    parseAndRest (fuel + 2) (token :: tail) = .ok ([node], [last]) := by
  have hlast' : endsAnd last = true := by
    rw [endsAnd, hlast]
    simp
  rw [parseAndRest, peek_bind, if_neg (Bool.eq_false_iff.mp hends)]
  simp only [List.tail_cons, h, bind, Except.bind, parseAndRest_ends fuel hlast']
  rfl

/-- The tokens of a text behind another. -/
theorem tokenize_behind {text : Text} (h : (tokenize text).errors = []) (more : Text) :
    tokenize (text ++ ' ' :: more) =
      (tokenizeFrom 0 (text.length + 1) more).prepend (written text) := by
  obtain ⟨front, htokens, hresult⟩ := tokenizeFrom_append more text 0 0 (Nat.zero_le _) h
  have hwritten : written text = front := by
    rw [written, tokenize, htokens, List.dropLast_concat]
  rw [hwritten, tokenize, hresult, Nat.zero_add]

theorem tokens_eq_written {text : Text} (h : (tokenize text).errors = []) :
    ∃ last : Token, last.kind = .eof ∧ (tokenize text).tokens = written text ++ [last] := by
  obtain ⟨front, htokens, -⟩ := tokenizeFrom_append [] text 0 0 (Nat.zero_le _) h
  refine ⟨⟨.eof, [], 0 + text.length⟩, rfl, ?_⟩
  rw [written, tokenize, htokens, List.dropLast_concat]

/-- The tokens of a text wherever it begins. -/
theorem tokenizeFrom_written {text : Text} (h : (tokenize text).errors = []) (offset : ℕ) :
    ∃ (tokens : List Token) (last : Token), tokenizeFrom 0 offset text = ⟨tokens ++ [last], []⟩ ∧
      tokens.map Token.shape = (written text).map Token.shape ∧ last.kind = .eof := by
  obtain ⟨eof, heof, htokens⟩ := tokens_eq_written h
  obtain ⟨hshapes, herrors⟩ := tokenizeFrom_offset text 0 offset 0
  rw [← tokenize, htokens, List.map_append] at hshapes
  rw [← tokenize, h, List.map_nil, List.map_eq_nil_iff] at herrors
  obtain ⟨tokens, rest, hsplit, htokens', hrest⟩ := List.map_eq_append_iff.mp hshapes
  obtain ⟨last, others, rfl, hlast, hnil⟩ := eq_cons_of_shapes hrest
  rw [List.map_eq_nil_iff.mp hnil] at hsplit
  refine ⟨tokens, last, ?_, htokens', hlast.1.trans heof⟩
  rw [← hsplit, ← herrors]

theorem tokenizeFrom_and (text : Text) (offset : ℕ) : ∃ token : Token,
    token.kind = .keyword .and ∧ tokenizeFrom 0 offset ("AND ".toList ++ text) =
      (tokenizeFrom 0 (offset + 4) text).prepend [token] := by
  have hlexes : Lexes "AND".toList [word "AND".toList] := .keyword (by decide)
  obtain ⟨tokens, hshapes, hresult⟩ :=
    hlexes offset (' ' :: text) (boundary_cons (Or.inl rfl) _)
  obtain ⟨token, others, rfl, htoken, hnil⟩ := List.map_eq_cons_iff.mp hshapes
  rw [List.map_eq_nil_iff.mp hnil] at hresult
  refine ⟨token, (Token.shape_eq htoken).1, ?_⟩
  rw [tokenizeFrom_space] at hresult
  exact hresult

theorem parse_of_parseTokens {text : Text} {tokens : List Token} {filter : Option FilterNode}
    {orderBy : Option OrderBy} (h : tokenize text = ⟨tokens, []⟩) :
    parse text = .ok filter orderBy ↔ parseTokens tokens = .ok (filter, orderBy) := by
  rw [parse, h]
  simp only [if_true]
  split
  next heq => rw [heq]; simp
  next heq => rw [heq]; simp
  next heq => rw [heq]; simp

namespace IsTerm

variable {text : Text} (h : IsTerm text)
include h

/-- A term is read off its tokens wherever they stand. -/
theorem read : ∃ node, written text ≠ [] ∧
    ∀ (fuel : ℕ) (tokens rest : List Token),
      tokens.map Token.shape = (written text).map Token.shape →
        4 * (written text).length ≤ fuel →
          (endsAsBareWord text = true → startsComparison rest = false) →
            parseTerm fuel (tokens ++ rest) = .ok (node, rest) := by
  obtain ⟨herrors, node, last, hparse⟩ := h
  obtain ⟨eof, heof, htokens⟩ := tokens_eq_written herrors
  obtain ⟨used, hne, hused, -, hread⟩ := (readings _).term hparse
  rw [htokens] at hused
  obtain ⟨rfl, -⟩ := List.append_inj' hused rfl
  exact ⟨node, hne, hread⟩

theorem begins : ∃ token tail, written text = token :: tail ∧ beginsTerm token = true := by
  obtain ⟨herrors, node, last, hparse⟩ := id h
  obtain ⟨node', hne, -⟩ := h.read
  obtain ⟨eof, heof, htokens⟩ := tokens_eq_written herrors
  obtain ⟨token, tail, hwritten⟩ := List.exists_cons_of_ne_nil hne
  rw [htokens, hwritten, List.cons_append] at hparse
  exact ⟨token, tail, hwritten, parseTerm_begins hparse⟩

/-- Behind a `NOT` a term begins. -/
theorem begins_not (hnot : beginsWithNot text = true) : ∃ token next tail,
    written text = token :: next :: tail ∧ token.isKeyword .not = true ∧
      beginsTerm next = true := by
  obtain ⟨herrors, node, last, hparse⟩ := id h
  obtain ⟨token, tail, hwritten, -⟩ := h.begins
  obtain ⟨eof, heof, htokens⟩ := tokens_eq_written herrors
  rw [beginsWithNot, hwritten] at hnot
  have hnot : token.isKeyword .not = true := hnot
  rw [htokens, hwritten, List.cons_append, fuelFor, parseTerm, peek_bind, if_pos hnot] at hparse
  obtain ⟨⟨child, behind⟩, hchild, -⟩ := bind_eq_ok hparse
  cases tail with
  | nil =>
    have hbegins := parseTerm_begins hchild
    rw [beginsTerm, heof] at hbegins
    cases hbegins
  | cons next tail => exact ⟨token, next, tail, hwritten, hnot, parseTerm_begins hchild⟩

end IsTerm

/-- Before a `NOT` a bare word is a field, and no operator is there. -/
theorem parseTerm_bareWord {not next : Token} {tail : List Token}
    (hnot : not.isKeyword .not = true) (hnext : next.isKeyword .in_ = false) :
    ∀ (front : List Token) (fuel : ℕ) (result : FilterNode × List Token),
      isBareWord front = true → parseTerm fuel (front ++ not :: next :: tail) ≠ .ok result
  | [], _, _, hbare => by cases hbare
  | _ :: _, 0, _, _ => fun h => by cases h
  | [token], fuel + 1, result, hbare => by
    have hident : token.kind = .ident := eq_of_beq hbare
    have hstarts : startsComparison (not :: next :: tail) = true := by
      rw [startsComparison, eq_of_beq hnot]
    intro h
    rw [List.singleton_append, parseTerm_ident hident, parseAtom, peek_bind,
      if_pos ⟨hident, hstarts⟩, List.tail_cons, parseComparison, peek_bind, eq_of_beq hnot] at h
    simp only [List.tail_cons, peek_bind, hnext] at h
    cases h
  | token :: second :: front, fuel + 1, result, hbare => by
    obtain ⟨htoken, hfront⟩ : token.isKeyword .not = true ∧ isBareWord (second :: front) = true :=
      Bool.and_eq_true_iff.mp hbare
    intro h
    rw [List.cons_append, parseTerm, peek_bind, if_pos htoken] at h
    obtain ⟨⟨child, behind⟩, hchild, -⟩ := bind_eq_ok h
    exact parseTerm_bareWord hnot hnext (second :: front) fuel _ hfront hchild

section
variable {t1 t2 : Text} (h1 : IsTerm t1) (h2 : IsTerm t2)
include h1 h2

/-- Two terms with `AND` between them, or with nothing that the second makes a field of. -/
theorem parseTokens_written : ∃ first second, ∀ between tokens last,
    tokens.map Token.shape = (written t2).map Token.shape → last.kind = .eof →
      (between = [] ∧ ¬(endsAsBareWord t1 = true ∧ beginsWithNot t2 = true) ∨
        ∃ token : Token, between = [token] ∧ token.kind = .keyword .and) →
        parseTokens (written t1 ++ (between ++ (tokens ++ [last]))) =
          .ok (some (.group .and [first, second]), none) := by
  obtain ⟨first, -, hfirst⟩ := h1.read
  obtain ⟨second, -, hsecond⟩ := h2.read
  obtain ⟨token1, tail1, hwritten1, hbegins1⟩ := h1.begins
  obtain ⟨token2, tail2, hwritten2, hbegins2⟩ := h2.begins
  refine ⟨first, second, fun between tokens last htokens hlast hbetween => ?_⟩
  obtain ⟨token, tail, rfl, htoken, htail⟩ := eq_cons_of_shapes (hwritten2 ▸ htokens)
  have hbegins : beginsTerm token = true := by
    rwa [beginsTerm, htoken.1]
  obtain ⟨hends, hand, -, hstarts⟩ := beginsTerm_cases (tail ++ [last]) hbegins
  have hlength := congrArg List.length htokens
  rw [List.length_map, List.length_map] at hlength
  have hread {fuel : ℕ} (hfuel : 4 * (written t2).length ≤ fuel) :
      parseTerm fuel (token :: tail ++ [last]) = .ok (second, [last]) :=
    hsecond fuel (token :: tail) [last] htokens hfuel fun _ => by rw [startsComparison, hlast]
  have hcons : written t1 ++ (between ++ (token :: tail ++ [last])) =
      token1 :: (tail1 ++ (between ++ (token :: tail ++ [last]))) := by
    rw [hwritten1, List.cons_append]
  have hcount : (written t1).length + (between.length + ((written t2).length + 1)) =
      (token1 :: (tail1 ++ (between ++ (token :: tail ++ [last])))).length := by
    rw [← hcons, List.length_append, List.length_append, List.length_append, hlength]
    rfl
  rw [hcons]
  show parseTokens _ = .ok (some (joined .and first [second]), none)
  refine parseTokens_terms (between ++ (token :: tail ++ [last])) hbegins1 hlast ?_ ?_
  · rw [← hcons]
    refine hfirst _ _ _ rfl (by rw [hcons]; omega) fun hbare => ?_
    rcases hbetween with ⟨rfl, hnot⟩ | ⟨and, rfl, hkind⟩
    · have hword : beginsWithNot t2 = token.isKeyword .not := by
        rw [beginsWithNot, hwritten2, List.head?_cons, Option.any_some,
          isKeyword_congr htoken.1]
      rw [List.nil_append, List.cons_append, hstarts, ← hword]
      exact Bool.eq_false_iff.mpr fun h => hnot ⟨hbare, h⟩
    · rw [List.singleton_append, startsComparison, hkind]
  · rcases hbetween with ⟨rfl, -⟩ | ⟨and, rfl, hkind⟩
    · refine parseAndRest_term hends hlast ?_
      rw [if_neg (Bool.eq_false_iff.mp hand)]
      exact hread (by omega)
    · have hand : and.isKeyword .and = true := beq_iff_eq.mpr hkind
      refine parseAndRest_term (by rw [endsAnd, Token.isKeyword, Token.isKeyword, hkind]; rfl)
        hlast ?_
      rw [if_pos hand]
      exact hread (by omega)

theorem tokenize_juxtaposed : ∃ tokens last,
    tokens.map Token.shape = (written t2).map Token.shape ∧ last.kind = .eof ∧
      tokenize (t1 ++ ' ' :: t2) = ⟨written t1 ++ (tokens ++ [last]), []⟩ := by
  obtain ⟨tokens, last, hresult, htokens, hlast⟩ := tokenizeFrom_written h2.1 (t1.length + 1)
  refine ⟨tokens, last, htokens, hlast, ?_⟩
  rw [tokenize_behind h1.1, hresult]
  rfl

theorem tokenize_joined : ∃ token tokens last,
    token.kind = .keyword .and ∧ tokens.map Token.shape = (written t2).map Token.shape ∧
      last.kind = .eof ∧ tokenize (t1 ++ " AND ".toList ++ t2) =
        ⟨written t1 ++ ([token] ++ (tokens ++ [last])), []⟩ := by
  obtain ⟨token, htoken, hand⟩ := tokenizeFrom_and t2 (t1.length + 1)
  obtain ⟨tokens, last, hresult, htokens, hlast⟩ := tokenizeFrom_written h2.1 (t1.length + 1 + 4)
  refine ⟨token, tokens, last, htoken, htokens, hlast, ?_⟩
  have htext : t1 ++ " AND ".toList ++ t2 = t1 ++ ' ' :: ("AND ".toList ++ t2) := by
    rw [List.append_assoc]
    rfl
  rw [htext, tokenize_behind h1.1, hand, hresult]
  rfl

/-- A bare word before a `NOT` is taken for a field, and the query fails. -/
theorem parse_bareWord_not (hbare : endsAsBareWord t1 = true) (hnot : beginsWithNot t2 = true)
    (filter : Option FilterNode) (orderBy : Option OrderBy) :
    parse (t1 ++ ' ' :: t2) ≠ .ok filter orderBy := by
  obtain ⟨tokens, last, htokens, -, htokenize⟩ := tokenize_juxtaposed h1 h2
  obtain ⟨token1, tail1, hwritten1, hbegins1⟩ := h1.begins
  obtain ⟨not, next, tail, hwritten2, hnot, hnext⟩ := h2.begins_not hnot
  rw [hwritten2] at htokens
  obtain ⟨not', tokens, rfl, hnot', htokens⟩ := eq_cons_of_shapes htokens
  obtain ⟨next', tokens, rfl, hnext', -⟩ := eq_cons_of_shapes htokens
  have hin : next'.isKeyword .in_ = false := by
    rw [isKeyword_congr hnext'.1, (beginsTerm_cases [] hnext).2.2.1]
  rw [← isKeyword_congr hnot'.1] at hnot
  rw [Ne, parse_of_parseTokens htokenize, hwritten1, List.cons_append]
  intro h
  rw [parseTokens, peek_bind, if_neg (not_endsAnd (beginsTerm_cases [] hbegins1).1), fuelFor,
    parseOr, parseAnd] at h
  obtain ⟨_, hor, -⟩ := bind_eq_ok h
  obtain ⟨_, hand, -⟩ := bind_eq_ok hor
  obtain ⟨_, hterm, -⟩ := bind_eq_ok hand
  rw [← List.cons_append, ← hwritten1] at hterm
  exact parseTerm_bareWord hnot hin (written t1) _ _ hbare hterm

/-- **Terms side by side** are what they are with `AND` between them, unless the first ends as a
bare word and the second begins with `NOT`. -/
theorem juxtaposed_eq_iff : parse (t1 ++ ' ' :: t2) = parse (t1 ++ " AND ".toList ++ t2) ↔
    ¬(endsAsBareWord t1 = true ∧ beginsWithNot t2 = true) := by
  obtain ⟨first, second, hparse⟩ := parseTokens_written h1 h2
  obtain ⟨token, tokens, last, htoken, htokens, hlast, htokenize⟩ := tokenize_joined h1 h2
  have hjoined : parse (t1 ++ " AND ".toList ++ t2) =
      .ok (some (.group .and [first, second])) none :=
    (parse_of_parseTokens htokenize).mpr
      (hparse [token] tokens last htokens hlast (.inr ⟨token, rfl, htoken⟩))
  rw [hjoined]
  constructor
  · rintro h ⟨hbare, hnot⟩
    exact parse_bareWord_not h1 h2 hbare hnot _ _ h
  · intro hnot
    obtain ⟨tokens, last, htokens, hlast, htokenize⟩ := tokenize_juxtaposed h1 h2
    exact (parse_of_parseTokens htokenize).mpr
      (hparse [] tokens last htokens hlast (.inl ⟨rfl, hnot⟩))

end

theorem report_isTerm : IsTerm "report".toList := ⟨rfl, _, _, rfl⟩

theorem status_isTerm : IsTerm "status = Done".toList := ⟨rfl, _, _, rfl⟩

theorem not_status_isTerm : IsTerm "NOT status = Done".toList := ⟨rfl, _, _, rfl⟩

theorem juxtaposed_status : parse "report status = Done".toList =
    parse "report AND status = Done".toList :=
  (juxtaposed_eq_iff report_isTerm status_isTerm).mpr fun h => by cases h.2

/-- The word before the `NOT` is taken for a field. -/
theorem report_not_fails : IsTerm "report".toList ∧ IsTerm "NOT status = Done".toList ∧
    parse "report NOT status = Done".toList = .failed [⟨11, 6, "Expected IN after NOT."⟩] ∧
      parse "report AND NOT status = Done".toList =
        .ok (some (.group .and [compare "text".toList .contains (.string "report".toList),
          .not (compare "status".toList .eq (.string "Done".toList))])) none :=
  ⟨report_isTerm, not_status_isTerm, rfl, rfl⟩

end TaskFlow.Tql
