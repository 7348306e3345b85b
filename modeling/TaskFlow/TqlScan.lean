import TaskFlow.TqlFormat

/-! # How formatted text is read

A piece of text `Lexes` to a list of shapes when the tokenizer reads tokens of
these shapes off it and goes on behind it, whatever boundary follows: the end of
the text, a space, a closing parenthesis or a comma.  Pieces that lex compose, so
`Lexes.emit` follows the formatter: the text of a tree lexes to `shapes` of the
tree, as long as its fields are words and its numbers are written without an
exponent.
-/
namespace TaskFlow.Tql

open Binary64 TaskFlow.Filter NumberText

/-- A token without its place. -/
abbrev Shape := TokenKind × Text

def Token.shape (token : Token) : Shape := (token.kind, token.text)

/-- What may follow a token. -/
def Boundary (rest : Text) : Prop := ∀ c ∈ rest.head?, c = ' ' ∨ c = ')' ∨ c = ','

theorem boundary_nil : Boundary [] := fun _ h => by cases h

theorem boundary_cons {c : Char} (hc : c = ' ' ∨ c = ')' ∨ c = ',') (rest : Text) :
    Boundary (c :: rest) := fun _ h => by
  cases h
  exact hc

/-- Tokens in front of a result. -/
def TokenizeResult.prepend (tokens : List Token) (result : TokenizeResult) : TokenizeResult :=
  ⟨tokens ++ result.tokens, result.errors⟩

def Lexes (text : Text) (shapes : List Shape) : Prop :=
  ∀ (offset : ℕ) (rest : Text), Boundary rest →
    ∃ tokens : List Token, tokens.map Token.shape = shapes ∧
      tokenizeFrom 0 offset (text ++ rest) =
        (tokenizeFrom 0 (offset + text.length) rest).prepend tokens

/-- A token that is read the same whatever boundary follows. -/
theorem Lexes.token {c : Char} {word : Text} {kind : TokenKind} (hspace : isSpace c = false)
    (h : ∀ rest, Boundary rest → scanToken c (word ++ rest) = ⟨kind, c :: word, none⟩) :
    Lexes (c :: word) [(kind, c :: word)] := by
  intro offset rest hrest
  refine ⟨[⟨kind, c :: word, offset⟩], rfl, ?_⟩
  rw [tokenizeFrom_token hspace (h rest hrest)]
  rfl

theorem Lexes.nil : Lexes [] [] := fun _ _ _ => ⟨[], rfl, rfl⟩

theorem Lexes.space {text : Text} {shapes : List Shape} (h : Lexes text shapes) :
    Lexes (' ' :: text) shapes := by
  intro offset rest hrest
  obtain ⟨tokens, htokens, hresult⟩ := h (offset + 1) rest hrest
  refine ⟨tokens, htokens, ?_⟩
  rw [List.cons_append, tokenizeFrom_space, hresult, List.length_cons]
  congr 2
  omega

/-- **Pieces compose** when the second begins at a boundary. -/
theorem Lexes.append {a b : Text} {shapes shapes' : List Shape} (ha : Lexes a shapes)
    (hb : Lexes b shapes') (hbound : ∀ rest, Boundary (b ++ rest)) :
    Lexes (a ++ b) (shapes ++ shapes') := by
  intro offset rest hrest
  obtain ⟨tokens, htokens, hresult⟩ := ha offset (b ++ rest) (hbound rest)
  obtain ⟨tokens', htokens', hresult'⟩ := hb (offset + a.length) rest hrest
  refine ⟨tokens ++ tokens', by rw [List.map_append, htokens, htokens'], ?_⟩
  rw [List.append_assoc, hresult, hresult', List.length_append, Nat.add_assoc]
  simp only [TokenizeResult.prepend, List.append_assoc]

theorem Lexes.append_space {a b : Text} {shapes shapes' : List Shape} (ha : Lexes a shapes)
    (hb : Lexes b shapes') : Lexes (a ++ ' ' :: b) (shapes ++ shapes') :=
  ha.append hb.space fun _ => boundary_cons (Or.inl rfl) _

def lparen : Shape := (.lparen, ['('])

def rparen : Shape := (.rparen, [')'])

def comma : Shape := (.comma, [','])

theorem Lexes.rparen : Lexes [')'] [Tql.rparen] :=
  .token (by decide) fun _ _ => rfl

theorem Lexes.comma : Lexes [','] [Tql.comma] :=
  .token (by decide) fun _ _ => rfl

/-- A text in parentheses. -/
theorem Lexes.parens {text : Text} {shapes : List Shape} (h : Lexes text shapes) :
    Lexes ('(' :: text ++ [')']) (lparen :: shapes ++ [Tql.rparen]) := by
  have hclosed : Lexes (text ++ [')']) (shapes ++ [Tql.rparen]) :=
    h.append .rparen fun _ => boundary_cons (Or.inr (Or.inl rfl)) _
  intro offset rest hrest
  -- anything may follow the opening parenthesis, so it is read by hand
  obtain ⟨tokens, htokens, hresult⟩ := hclosed (offset + 1) rest hrest
  refine ⟨⟨.lparen, ['('], offset⟩ :: tokens, by rw [List.map_cons, htokens]; rfl, ?_⟩
  have hopen : scanToken '(' ([] ++ (text ++ [')'] ++ rest)) = ⟨.lparen, ['('], none⟩ := rfl
  have hlength : offset + ('(' :: (text ++ [')'])).length =
      offset + 1 + (text ++ [')']).length := by
    rw [List.length_cons]
    omega
  have h := tokenizeFrom_token (by decide) hopen offset
  rw [List.cons_append, List.nil_append, List.length_nil, Nat.zero_add, hresult] at h
  rw [List.cons_append, List.cons_append, h, hlength]
  rfl

/-! ### Words -/

theorem scanOperator_eq_none {c : Char} (rest : Text)
    (hc : c ≠ '=' ∧ c ≠ '!' ∧ c ≠ '<' ∧ c ≠ '>') : scanOperator c rest = none := by
  obtain ⟨h₁, h₂, h₃, h₄⟩ := hc
  unfold scanOperator
  split <;> first | rfl | contradiction

theorem punctuation_eq_none {c : Char} (hc : c ≠ '(' ∧ c ≠ ')' ∧ c ≠ ',' ∧ c ≠ ':') :
    punctuation c = none := by
  obtain ⟨h₁, h₂, h₃, h₄⟩ := hc
  unfold punctuation
  split <;> first | rfl | contradiction

/-- A character of a class is none of those the class leaves out. -/
theorem ne_of_class {p : Char → Bool} {c d : Char} (hc : p c = true) (hd : p d = false) :
    c ≠ d := by
  rintro rfl
  rw [hc] at hd
  cases hd

theorem isIdentStart_toNat {c : Char} (hc : isIdentStart c = true) :
    (65 ≤ c.toNat ∧ c.toNat ≤ 90) ∨ (97 ≤ c.toNat ∧ c.toNat ≤ 122) ∨ c.toNat = 95 := by
  rw [isIdentStart, Bool.or_eq_true, beq_iff_eq] at hc
  rcases hc with hletter | rfl
  · rcases (Bool.or_eq_true _ _).mp hletter with hupper | hlower
    · exact Or.inl (of_decide_eq_true hupper)
    · obtain ⟨hfirst, hlast⟩ := (Bool.and_eq_true _ _).mp hlower
      exact Or.inr (Or.inl ⟨of_decide_eq_true hfirst, of_decide_eq_true hlast⟩)
  · exact Or.inr (Or.inr rfl)

theorem isDigit_toNat {c : Char} (hc : c.isDigit = true) : 48 ≤ c.toNat ∧ c.toNat ≤ 57 := by
  simp only [Char.isDigit, Bool.and_eq_true, decide_eq_true_eq, ge_iff_le,
    UInt32.le_iff_toNat_le] at hc
  exact hc

theorem scanToken_word {c : Char} (rest : Text) (hc : isIdentStart c = true) :
    scanToken c rest = scanWord c rest := by
  have hne : ∀ {d : Char}, isIdentStart d = false → c ≠ d := fun hd => ne_of_class hc hd
  have hdigit : c.isDigit = false := by
    by_contra h
    have := isDigit_toNat (Bool.not_eq_false _ ▸ h)
    have := isIdentStart_toNat hc
    omega
  unfold scanToken
  rw [scanOperator_eq_none rest ⟨hne (by decide), hne (by decide), hne (by decide),
    hne (by decide)⟩, punctuation_eq_none ⟨hne (by decide), hne (by decide), hne (by decide),
    hne (by decide)⟩]
  simp only
  rw [if_neg (not_or.mpr ⟨hne (by decide), hne (by decide)⟩), hdigit,
    if_neg Bool.false_ne_true, if_neg (not_or.mpr ⟨hne (by decide), hne (by decide)⟩),
    if_neg (hne (by decide)), if_pos hc]

theorem isSpace_of_isIdentStart {c : Char} (hc : isIdentStart c = true) : isSpace c = false := by
  have := isIdentStart_toNat hc
  simp only [isSpace, Bool.or_eq_false_iff, Bool.and_eq_false_iff, decide_eq_false_iff_not,
    beq_eq_false_iff_ne]
  omega

/-- Characters of a class up to the first that is not of it. -/
theorem takeWhile_append {p : Char → Bool} {word rest : Text} (hword : ∀ c ∈ word, p c = true)
    (hrest : ∀ c ∈ rest.head?, p c = false) : (word ++ rest).takeWhile p = word := by
  rw [List.takeWhile_append_of_pos hword]
  cases rest with
  | nil => simp
  | cons c rest => rw [List.takeWhile_cons_of_neg (by simp [hrest c rfl]), List.append_nil]

theorem dropWhile_append {p : Char → Bool} {word rest : Text} (hword : ∀ c ∈ word, p c = true)
    (hrest : ∀ c ∈ rest.head?, p c = false) : (word ++ rest).dropWhile p = rest := by
  rw [List.dropWhile_append_of_pos hword]
  cases rest with
  | nil => rfl
  | cons c rest => rw [List.dropWhile_cons_of_neg (by simp [hrest c rfl])]

theorem Boundary.head {rest : Text} (h : Boundary rest) {p : Char → Bool} (hspace : p ' ' = false)
    (hparen : p ')' = false) (hcomma : p ',' = false) : ∀ c ∈ rest.head?, p c = false := by
  intro c hc
  rcases h c hc with rfl | rfl | rfl
  · exact hspace
  · exact hparen
  · exact hcomma

theorem Lexes.word {word : Text} (h : isWord word = true) :
    Lexes word [(wordKind word, word)] := by
  match word, h with
  | c :: rest, h =>
    rw [isWord, Bool.and_eq_true, List.all_eq_true] at h
    refine .token (isSpace_of_isIdentStart h.1) fun tail htail => ?_
    rw [scanToken_word _ h.1, scanWord,
      takeWhile_append h.2 (htail.head (by decide) (by decide) (by decide))]

/-! ### Strings -/

theorem scanQuoted_escape (value rest : Text) :
    scanQuoted '"' (value.flatMap escape ++ '"' :: rest) = (value, some rest) := by
  induction value with
  | nil =>
    rw [List.flatMap_nil, List.nil_append, scanQuoted]
    · rw [if_pos rfl]
    · rintro ⟨⟩
    · rintro _ _ ⟨⟩
  | cons c value ih =>
    rw [List.flatMap_cons, escape]
    split_ifs with hc
    -- an escaped character is read behind its backslash
    · have hunescape : unescape c = [c] := if_pos (Or.symm hc)
      simp only [List.cons_append, List.nil_append]
      rw [scanQuoted, ih]
      simp only [hunescape, List.cons_append, List.nil_append]
    · obtain ⟨hslash, hquote⟩ := not_or.mp hc
      simp only [List.cons_append, List.nil_append]
      rw [scanQuoted]
      · rw [if_neg hquote, ih]
      · exact fun h _ => hslash h
      · exact fun _ _ h _ => hslash h

theorem Lexes.quote (value : Text) : Lexes (quote value) [(.string value, Tql.quote value)] := by
  refine .token (by decide) fun rest _ => ?_
  change scanString '"' ((value.flatMap escape ++ ['"']) ++ rest) = _
  rw [scanString, List.append_assoc, List.singleton_append, scanQuoted_escape]
  simp only [List.length_append, List.length_cons]
  rw [show (value.flatMap escape).length + (rest.length + 1) - rest.length =
    (value.flatMap escape ++ ['"']).length by simp; omega, ← List.singleton_append (l := rest),
    ← List.append_assoc, List.take_left]
  rfl

/-! ### Operators -/

theorem Lexes.op {c : Char} {word : Text} (hspace : isSpace c = false)
    (h : ∀ rest, Boundary rest → scanOperator c (word ++ rest) = some ⟨.op, c :: word, none⟩) :
    Lexes (c :: word) [(.op, c :: word)] :=
  .token hspace fun rest hrest => by rw [scanToken, h rest hrest]

theorem scanOperator_lt {rest : Text} (h : Boundary rest) :
    scanOperator '<' rest = some ⟨.op, ['<'], none⟩ := by
  cases rest with
  | nil => rfl
  | cons c rest => rcases h c rfl with rfl | rfl | rfl <;> rfl

theorem scanOperator_gt {rest : Text} (h : Boundary rest) :
    scanOperator '>' rest = some ⟨.op, ['>'], none⟩ := by
  cases rest with
  | nil => rfl
  | cons c rest => rcases h c rfl with rfl | rfl | rfl <;> rfl

/-! ### Numbers -/

/-- The point and the digits after it. -/
def pointed (l : Literal) : Text := if l.fraction = [] then [] else '.' :: l.fraction

theorem signOf_text (l : Literal) (rest : Text) :
    signOf (l.text ++ rest) = if l.negative then ['-'] else [] := by
  rw [Literal.text]
  split_ifs
  · rfl
  · obtain ⟨c, tail, hl, hc⟩ := l.exists_cons
    rw [hl, List.cons_append]
    unfold signOf
    split
    · next heq => exact absurd ((List.cons.inj heq).1 ▸ hc) (by decide)
    · next heq => exact absurd ((List.cons.inj heq).1 ▸ hc) (by decide)
    · rfl

theorem drop_signOf_text (l : Literal) (rest : Text) :
    (l.text ++ rest).drop (signOf (l.text ++ rest)).length = l.whole ++ (pointed l ++ rest) := by
  rw [signOf_text, Literal.text, ← List.append_assoc]
  split_ifs <;> rfl

theorem scanFraction_pointed (l : Literal) {rest : Text}
    (hrest : ∀ c ∈ rest.head?, c.isDigit = false ∧ c ≠ '.') :
    scanFraction (pointed l ++ rest) = pointed l := by
  unfold pointed
  split_ifs with h
  · rw [List.nil_append]
    unfold scanFraction
    split
    · exact absurd rfl (hrest '.' rfl).2
    · rfl
  · obtain ⟨d, ds, hf⟩ := List.exists_cons_of_ne_nil h
    have hdigits := l.isDigit_fraction
    have htake := takeWhile_append hdigits fun c hc => (hrest c hc).1
    rw [hf] at hdigits htake ⊢
    simp only [List.cons_append] at htake ⊢
    rw [scanFraction, if_pos (hdigits d List.mem_cons_self), htake]

/-- A literal is scanned as far as it goes; what follows decides what it is. -/
theorem scanNumber_text (l : Literal) {rest : Text}
    (hrest : ∀ c ∈ rest.head?, c.isDigit = false ∧ c ≠ '.') :
    scanNumber (l.text ++ rest) = numberLexeme l.text (!l.fraction.isEmpty) rest := by
  have hhead : ∀ c ∈ (pointed l ++ rest).head?, c.isDigit = false := by
    intro c hc
    unfold pointed at hc
    split_ifs at hc
    · exact (hrest c hc).1
    · cases hc
      rfl
  have htext : signOf (l.text ++ rest) ++ l.whole ++ pointed l = l.text := by
    rw [signOf_text, Literal.text, List.append_assoc]
    split_ifs <;> rfl
  have hempty : (pointed l).isEmpty = l.fraction.isEmpty := by
    unfold pointed
    split_ifs with h
    · rw [h]
    · rw [List.isEmpty_eq_false_iff.mpr h]
      rfl
  rw [scanNumber, drop_signOf_text, takeWhile_append l.isDigit_whole hhead,
    dropWhile_append l.isDigit_whole hhead, scanFraction_pointed l hrest, htext, hempty,
    List.drop_left]

theorem numberLexeme_boundary (text : Text) (hasDecimal : Bool) {rest : Text} (h : Boundary rest) :
    numberLexeme text hasDecimal rest = ⟨.number (toNumber text), text, none⟩ := by
  cases rest with
  | nil => rfl
  | cons c rest => rcases h c rfl with rfl | rfl | rfl <;> cases hasDecimal <;> rfl

theorem scanToken_digit {c : Char} (rest : Text) (hc : c.isDigit = true) :
    scanToken c rest = scanNumber (c :: rest) := by
  have hne : ∀ {d : Char}, d.isDigit = false → c ≠ d := fun hd => ne_of_class hc hd
  unfold scanToken
  rw [scanOperator_eq_none rest ⟨hne (by decide), hne (by decide), hne (by decide),
    hne (by decide)⟩, punctuation_eq_none ⟨hne (by decide), hne (by decide), hne (by decide),
    hne (by decide)⟩]
  simp only
  rw [if_neg (not_or.mpr ⟨hne (by decide), hne (by decide)⟩), if_pos hc]

theorem scanToken_minus {rest : Text} (h : rest.head?.any Char.isDigit = true) :
    scanToken '-' rest = scanNumber ('-' :: rest) := by
  change (if rest.head?.any Char.isDigit then _ else _) = _
  rw [if_pos h]

/-- The first character of a literal starts a number. -/
theorem scanToken_text (l : Literal) :
    ∃ c word, l.text = c :: word ∧ isSpace c = false ∧
      ∀ rest, scanToken c (word ++ rest) = scanNumber (l.text ++ rest) := by
  obtain ⟨c, tail, hl, hc⟩ := l.exists_cons
  rw [Literal.text, hl]
  split_ifs
  · refine ⟨'-', c :: tail, rfl, by decide, fun rest => ?_⟩
    exact scanToken_minus (by simpa using hc)
  · refine ⟨c, tail, rfl, ?_, fun rest => scanToken_digit _ hc⟩
    have := isDigit_toNat hc
    simp only [isSpace, Bool.or_eq_false_iff, Bool.and_eq_false_iff, decide_eq_false_iff_not,
      beq_eq_false_iff_ne]
    omega

theorem Lexes.literal (l : Literal) : Lexes l.text [(.number (toNumber l.text), l.text)] := by
  obtain ⟨c, word, htext, hspace, hscan⟩ := scanToken_text l
  have hlexeme : ∀ rest, Boundary rest →
      scanToken c (word ++ rest) = ⟨.number (toNumber l.text), c :: word, none⟩ := by
    intro rest hrest
    have hhead : ∀ d ∈ rest.head?, d.isDigit = false ∧ d ≠ '.' := by
      intro d hd
      rcases hrest d hd with rfl | rfl | rfl <;> decide
    rw [hscan rest, scanNumber_text l hhead, numberLexeme_boundary _ _ hrest, htext]
  rw [htext] at hlexeme ⊢
  exact .token hspace hlexeme

/-! ### Values -/

/-- A number of the value is written without an exponent. -/
def PlainValue : FilterValue → Prop
  | .number (.finite x) => Plain x
  | .number _ => False
  | _ => True

instance : DecidablePred PlainValue
  | .string _ => inferInstanceAs (Decidable True)
  | .boolean _ => inferInstanceAs (Decidable True)
  | .null => inferInstanceAs (Decidable True)
  | .number .nan => inferInstanceAs (Decidable False)
  | .number (.infinity _) => inferInstanceAs (Decidable False)
  | .number (.finite x) => inferInstanceAs (Decidable (Plain x))

def valueShape : FilterValue → Shape
  | .null => (.keyword .null, "null".toList)
  | .boolean true => (.ident, "true".toList)
  | .boolean false => (.ident, "false".toList)
  | .number x => (.number x, toText x)
  | .string value =>
    if value = ME then (.at "me".toList, ME)
    else if isSafeBare value then (.ident, value) else (.string value, quote value)

theorem valueShape_string (value : Text) : valueShape (.string value) =
    if value = ME then (.at "me".toList, ME)
    else if isSafeBare value then (.ident, value) else (.string value, quote value) := rfl

theorem emitValue_string (value : Text) : emitValue (.string value) =
    if value = ME then ME else if isSafeBare value then value else quote value := rfl

/-- The lower-case letters, by their codes. -/
theorem toLower_toUpper_of_lower : ∀ n < 123, 97 ≤ n →
    (Char.ofNat n).toUpper.toLower = (Char.ofNat n).toLower := by
  decide

theorem toLower_toUpper (c : Char) : c.toUpper.toLower = c.toLower := by
  by_cases h : 97 ≤ c.toNat ∧ c.toNat < 123
  · have hlower := toLower_toUpper_of_lower c.toNat h.2 h.1
    rwa [Char.ofNat_toNat] at hlower
  · have hupper : c.toUpper = c := by
      unfold Char.toUpper
      refine dif_neg fun hc => h ?_
      simp only [UInt32.le_iff_toNat_le] at hc
      exact ⟨hc.1, Nat.lt_succ_of_le hc.2⟩
    rw [hupper]

/-- A keyword is reserved, in any case. -/
theorem reserved_of_keywordOf {word : Text} (h : (keywordOf word).isSome) :
    reserved.contains (word.map Char.toLower) = true := by
  have hlower : word.map Char.toLower = (word.map Char.toUpper).map Char.toLower := by
    rw [List.map_map]
    exact List.map_congr_left fun c _ => (toLower_toUpper c).symm
  have hkeywords : ∀ entry ∈ keywords, reserved.contains (entry.1.map Char.toLower) = true := by
    decide
  rw [keywordOf, List.lookup_isSome_iff] at h
  obtain ⟨entry, hmem, heq⟩ := h
  rw [hlower, beq_iff_eq.mp heq]
  exact hkeywords entry hmem

theorem wordKind_of_isSafeBare {word : Text} (h : isSafeBare word = true) :
    wordKind word = .ident := by
  rw [isSafeBare, Bool.and_eq_true, Bool.not_eq_true'] at h
  unfold wordKind
  cases hk : keywordOf word with
  | none => rfl
  | some keyword =>
    have hreserved : reserved.contains (word.map Char.toLower) = true :=
      reserved_of_keywordOf (by rw [hk]; rfl)
    rw [h.2] at hreserved
    cases hreserved

theorem Lexes.me : Lexes ME [(.at "me".toList, ME)] := by
  have hscan : ∀ rest, Boundary rest →
      scanToken '@' (['m', 'e'] ++ rest) = ⟨.at ['m', 'e'], ['@', 'm', 'e'], none⟩ := by
    intro rest hrest
    change scanAt ('m' :: (['e'] ++ rest)) = _
    rw [scanAt, if_pos (by decide),
      takeWhile_append (List.all_eq_true.mp rfl)
        (hrest.head (by decide) (by decide) (by decide))]
  exact .token (by decide) hscan

theorem Lexes.value {value : FilterValue} (h : PlainValue value) :
    Lexes (emitValue value) [valueShape value] := by
  cases value with
  | null => exact .word (by decide)
  | boolean b => cases b <;> exact .word (by decide)
  | number x =>
    cases x with
    | nan => cases h
    | infinity negative => cases h
    | finite x =>
      obtain ⟨l, htext, hnumber⟩ := Plain.exists_literal h
      have hlex := Lexes.literal l
      rw [hnumber, ← htext] at hlex
      exact hlex
  | string value =>
    rw [emitValue_string, valueShape_string]
    split_ifs with hme hsafe
    · exact .me
    · rw [← wordKind_of_isSafeBare hsafe]
      rw [isSafeBare, Bool.and_eq_true] at hsafe
      exact .word hsafe.1
    · exact .quote value

/-- The values of a list, each with the comma before it. -/
@[grind =] def itemShapes : List FilterValue → List Shape
  | [] => []
  | value :: values => comma :: valueShape value :: itemShapes values

def listShapes : List FilterValue → List Shape
  | [] => [lparen, rparen]
  | value :: values => lparen :: valueShape value :: itemShapes values ++ [rparen]

theorem Lexes.items {text : Text} {shapes : List Shape} (htext : Lexes text shapes) :
    ∀ {values : List FilterValue}, (∀ value ∈ values, PlainValue value) →
      Lexes (text ++ values.flatMap fun value => ", ".toList ++ emitValue value)
        (shapes ++ itemShapes values)
  | [], _ => by
    rw [List.flatMap_nil, List.append_nil, itemShapes, List.append_nil]
    exact htext
  | value :: values, h => by
    have hvalue : Lexes (", ".toList ++ emitValue value) ([Tql.comma] ++ [valueShape value]) :=
      (Lexes.comma).append_space (.value (h value List.mem_cons_self))
    have hfirst : Lexes (text ++ (", ".toList ++ emitValue value))
        (shapes ++ ([Tql.comma] ++ [valueShape value])) :=
      htext.append hvalue fun _ => boundary_cons (Or.inr (Or.inr rfl)) _
    have hrest := Lexes.items hfirst fun v hv => h v (List.mem_cons_of_mem _ hv)
    rw [List.flatMap_cons, ← List.append_assoc, itemShapes,
      show shapes ++ Tql.comma :: valueShape value :: itemShapes values =
        shapes ++ ([Tql.comma] ++ [valueShape value]) ++ itemShapes values by simp]
    exact hrest

theorem intercalate_cons {α : Type} (separator first : List α) (rest : List (List α)) :
    List.intercalate separator (first :: rest) =
      first ++ rest.flatMap fun part => separator ++ part := by
  induction rest generalizing first with
  | nil => simp [List.intercalate]
  | cons second rest ih =>
    rw [List.intercalate_cons_cons, ih, List.flatMap_cons, List.append_assoc, List.append_assoc]

theorem Lexes.list {values : List FilterValue} (h : ∀ value ∈ values, PlainValue value) :
    Lexes (emitList values) (listShapes values) := by
  cases values with
  | nil => exact (Lexes.nil).parens
  | cons value values =>
    have hitems := Lexes.items (.value (h value List.mem_cons_self))
      fun v hv => h v (List.mem_cons_of_mem _ hv)
    rw [emitList, List.map_cons, intercalate_cons, List.flatMap_map]
    exact hitems.parens

/-! ### Comparisons and trees -/

def word (text : Text) : Shape := (wordKind text, text)

def opShape (text : Text) : Shape := (.op, text)

def comparisonShapes : Comparison → List Shape
  | ⟨field, .eq, value⟩ => [(.ident, field), opShape "=".toList, valueShape value]
  | ⟨field, .neq, value⟩ => [(.ident, field), opShape "!=".toList, valueShape value]
  | ⟨field, .lt, value⟩ => [(.ident, field), opShape "<".toList, valueShape value]
  | ⟨field, .lte, value⟩ => [(.ident, field), opShape "<=".toList, valueShape value]
  | ⟨field, .gt, value⟩ => [(.ident, field), opShape ">".toList, valueShape value]
  | ⟨field, .gte, value⟩ => [(.ident, field), opShape ">=".toList, valueShape value]
  | ⟨field, .in_, values⟩ => [(.ident, field), word "IN".toList] ++ listShapes values
  | ⟨field, .notIn, values⟩ =>
    [(.ident, field), word "NOT".toList, word "IN".toList] ++ listShapes values
  | ⟨field, .contains, value⟩ => [(.ident, field), word "CONTAINS".toList, valueShape value]
  | ⟨field, .isEmpty, ()⟩ => [(.ident, field), word "IS".toList, word "EMPTY".toList]
  | ⟨field, .isNotEmpty, ()⟩ =>
    [(.ident, field), word "IS".toList, word "NOT".toList, word "EMPTY".toList]

/-- The keyword of a connective. -/
def connective : Combinator → Shape
  | .and => word "AND".toList
  | .or => word "OR".toList

mutual

@[grind =] def shapes : FilterNode → List Shape
  | .comparison c => comparisonShapes c
  | .group _ [] => [lparen, rparen]
  | .group combinator (first :: rest) =>
    lparen :: (shapes first ++ restShapes combinator rest) ++ [rparen]
  | .not child => word "NOT".toList :: shapes child

/-- Trees, each with the connective before it. -/
def restShapes (combinator : Combinator) : List FilterNode → List Shape
  | [] => []
  | child :: rest => connective combinator :: shapes child ++ restShapes combinator rest

end

/-- The field is a word and no keyword, and every number is written without an exponent. -/
structure Writable (c : Comparison) : Prop where
  isWord : isWord c.field = true
  wordKind : wordKind c.field = .ident
  plain : ∀ value ∈ c.values, PlainValue value

theorem Lexes.field {c : Comparison} (h : Writable c) : Lexes c.field [(.ident, c.field)] := by
  have hlex := Lexes.word h.isWord
  rwa [h.wordKind] at hlex

theorem Lexes.keyword {text : Text} (h : isWord text = true) : Lexes text [Tql.word text] :=
  .word h

/-- A field, an operator between spaces, and what the operator takes. -/
theorem Lexes.operation {field operator operand : Text} {before after : List Shape}
    (hfield : Lexes field [(.ident, field)]) (hoperator : Lexes operator before)
    (hoperand : Lexes operand after) :
    Lexes (field ++ (' ' :: (operator ++ [' '])) ++ operand)
      ([(.ident, field)] ++ (before ++ after)) := by
  rw [List.append_assoc, List.cons_append, List.append_assoc]
  exact hfield.append_space (hoperator.append_space hoperand)

theorem Lexes.eq : Lexes "=".toList [opShape "=".toList] := .op (by decide) fun _ _ => rfl

theorem Lexes.neq : Lexes "!=".toList [opShape "!=".toList] := .op (by decide) fun _ _ => rfl

theorem Lexes.lt : Lexes "<".toList [opShape "<".toList] :=
  .op (by decide) fun _ h => scanOperator_lt h

theorem Lexes.lte : Lexes "<=".toList [opShape "<=".toList] := .op (by decide) fun _ _ => rfl

theorem Lexes.gt : Lexes ">".toList [opShape ">".toList] :=
  .op (by decide) fun _ h => scanOperator_gt h

theorem Lexes.gte : Lexes ">=".toList [opShape ">=".toList] := .op (by decide) fun _ _ => rfl

theorem Lexes.contains : Lexes "CONTAINS".toList [Tql.word "CONTAINS".toList] :=
  .word (by decide)

theorem Lexes.comparison {c : Comparison} (h : Writable c) :
    Lexes (emitComparison c) (comparisonShapes c) := by
  have hfield := Lexes.field h
  obtain ⟨field, operator, value⟩ := c
  have hplain := h.plain
  have hone : ∀ {v : FilterValue}, (∀ value ∈ [v], PlainValue value) → PlainValue v :=
    fun h => h _ List.mem_cons_self
  cases operator with
  | eq => exact hfield.operation .eq (.value (hone hplain))
  | neq => exact hfield.operation .neq (.value (hone hplain))
  | lt => exact hfield.operation .lt (.value (hone hplain))
  | lte => exact hfield.operation .lte (.value (hone hplain))
  | gt => exact hfield.operation .gt (.value (hone hplain))
  | gte => exact hfield.operation .gte (.value (hone hplain))
  | contains => exact hfield.operation .contains (.value (hone hplain))
  | in_ => exact hfield.operation (.keyword (by decide)) (.list hplain)
  | notIn =>
    exact hfield.operation ((Lexes.keyword (by decide)).append_space (.keyword (by decide)))
      (.list hplain)
  | isEmpty =>
    exact hfield.append_space ((Lexes.keyword (by decide)).append_space
      (.keyword (by decide)))
  | isNotEmpty =>
    exact hfield.append_space ((Lexes.keyword (by decide)).append_space
      ((Lexes.keyword (by decide)).append_space (.keyword (by decide))))

theorem Lexes.rest (combinator : Combinator) {text : Text} {before : List Shape}
    (htext : Lexes text before) :
    ∀ {children : List FilterNode}, (∀ child ∈ children, Lexes (emit child) (shapes child)) →
      Lexes (text ++ (emitAll children).flatMap fun part => joiner combinator ++ part)
        (before ++ restShapes combinator children)
  | [], _ => by
    rw [emitAll, List.flatMap_nil, List.append_nil, restShapes, List.append_nil]
    exact htext
  | child :: children, h => by
    have hchild := h child List.mem_cons_self
    have hfirst : Lexes (text ++ (joiner combinator ++ emit child))
        (before ++ ([connective combinator] ++ shapes child)) := by
      cases combinator with
      | and => exact htext.append_space ((Lexes.keyword (by decide)).append_space hchild)
      | or => exact htext.append_space ((Lexes.keyword (by decide)).append_space hchild)
    have hrest := Lexes.rest combinator hfirst fun c hc => h c (List.mem_cons_of_mem _ hc)
    rw [emitAll, List.flatMap_cons, ← List.append_assoc, restShapes,
      show before ++ (connective combinator :: shapes child ++ restShapes combinator children) =
        before ++ ([connective combinator] ++ shapes child) ++ restShapes combinator children
        by simp]
    exact hrest

/-- **The text of a tree lexes to its shapes.** -/
theorem Lexes.emit {t : FilterNode} (h : ∀ c, .comparison c ∈ t.subtrees → Writable c) :
    Lexes (emit t) (shapes t) := by
  induction t with
  | comparison c => exact .comparison (h c (FilterNode.mem_subtrees_self _))
  | group combinator children ih =>
    have hchildren : ∀ child ∈ children, Lexes (Tql.emit child) (shapes child) :=
      fun child hchild => ih child hchild fun c hc =>
        h c (FilterNode.mem_subtrees_group.mpr (Or.inr ⟨child, hchild, hc⟩))
    cases children with
    | nil => exact (Lexes.nil).parens
    | cons first rest =>
      rw [Tql.emit, emitAll, intercalate_cons, shapes]
      exact (Lexes.rest combinator (hchildren first List.mem_cons_self) fun child hchild =>
        hchildren child (List.mem_cons_of_mem _ hchild)).parens
  | not child ih =>
    have hchild := ih fun c hc => h c (FilterNode.mem_subtrees_not.mpr (Or.inr hc))
    exact (Lexes.keyword (by decide)).append_space hchild

/-- The tokens of a tree, and the sentinel. -/
theorem tokenize_emit {t : FilterNode} (h : ∀ c, .comparison c ∈ t.subtrees → Writable c) :
    ∃ (tokens : List Token) (last : Token), tokens.map Token.shape = shapes t ∧
      last.kind = .eof ∧ tokenize (emit t) = ⟨tokens ++ [last], []⟩ := by
  obtain ⟨tokens, htokens, hresult⟩ := Lexes.emit h 0 [] boundary_nil
  refine ⟨tokens, ⟨.eof, [], 0 + (emit t).length⟩, htokens, rfl, ?_⟩
  rw [List.append_nil] at hresult
  exact hresult

end TaskFlow.Tql
