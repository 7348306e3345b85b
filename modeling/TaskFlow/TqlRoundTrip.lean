import TaskFlow.TqlScan
import TaskFlow.FilterFields

/-! # Formatting and parsing back

`parse_format` says what a formatted tree is parsed as: `reparsed` of the tree,
in which an empty group is an AND group, and a group of one child is the child,
or an AND group around a child that is no group.  A canonical tree has neither,
so it comes back as it was (`parse_format_canonical`).

The proof follows the parser over tokens of the shapes of a tree: one lemma for
each rule, and for the two loops that read the children of a group.
-/
namespace TaskFlow.Tql

open TaskFlow.Filter

variable {tokens rest : List Token} {token : Token}

theorem Token.shape_eq {kind : TokenKind} {text : Text} (h : token.shape = (kind, text)) :
    token.kind = kind ∧ token.text = text :=
  ⟨congrArg Prod.fst h, congrArg Prod.snd h⟩

@[simp] theorem peek_cons : peek (token :: rest) = .ok token := rfl

/-! ### Values -/

theorem wordValue_of_isSafeBare {word : Text} (h : isSafeBare word = true) :
    wordValue word = .string word := by
  rw [isSafeBare, Bool.and_eq_true, Bool.not_eq_true'] at h
  have hne : ∀ text ∈ reserved, word.map Char.toLower ≠ text := by
    intro text htext heq
    rw [← heq] at htext
    rw [List.contains_iff_mem.mpr htext] at h
    cases h.2
  unfold wordValue
  rw [if_neg (hne _ (by decide)), if_neg (hne _ (by decide)), if_neg (hne _ (by decide))]

theorem tokenValue_shape {value : FilterValue} (h : token.shape = valueShape value) :
    tokenValue token = .ok value := by
  unfold tokenValue
  cases value with
  | null => rw [(Token.shape_eq h).1]
  | boolean b =>
    cases b <;> rw [(Token.shape_eq h).1, (Token.shape_eq h).2] <;> rfl
  | number x => rw [(Token.shape_eq h).1]
  | string value =>
    rw [valueShape] at h
    split_ifs at h with hme hsafe
    · rw [(Token.shape_eq h).1, hme]
      rfl
    · rw [(Token.shape_eq h).1, (Token.shape_eq h).2]
      simp only
      rw [wordValue_of_isSafeBare hsafe]
    · rw [(Token.shape_eq h).1]

theorem parseValue_token {value : FilterValue} (h : tokenValue token = .ok value) :
    parseValue (token :: rest) = .ok (value, rest) := by
  rw [parseValue, peek_cons]
  change (tokenValue token >>= _) = _
  rw [h]
  rfl

/-- A value is neither the end of a list nor the end of the text. -/
theorem valueShape_kind (value : FilterValue) :
    (valueShape value).1 ≠ .rparen ∧ (valueShape value).1 ≠ .eof := by
  cases value with
  | null => decide
  | boolean b => cases b <;> decide
  | number x => constructor <;> (intro h; cases h)
  | string value =>
    rw [valueShape_string]
    split_ifs
    · decide
    · constructor <;> (intro h; cases h)
    · constructor <;> (intro h; cases h)

/-- One value of a list, up to what follows it. -/
theorem parseItems_value {value : FilterValue} {after : Token} (fuel : ℕ)
    (h : token.shape = valueShape value) :
    parseItems (fuel + 1) (token :: after :: rest) =
      match after.kind with
      | .rparen => .ok ([value], rest)
      | .comma => do
        let (values, rest) ← parseItems fuel rest
        return (value :: values, rest)
      | _ => fail after "Expected \",\" or \")\" in the list." := by
  obtain ⟨hparen, heof⟩ := valueShape_kind value
  rw [← h] at hparen heof
  change token.kind ≠ _ at hparen heof
  rw [parseItems, peek_cons]
  change (if token.kind = .rparen then _ else _) = _
  rw [if_neg hparen, if_neg heof]
  change (parseValue _ >>= _) = _
  rw [parseValue_token (tokenValue_shape h)]
  rfl

theorem parseItems_shapes {values : List FilterValue} :
    ∀ {value : FilterValue} {tokens : List Token} {fuel : ℕ},
      tokens.map Token.shape = valueShape value :: itemShapes values ++ [rparen] →
        tokens.length ≤ fuel → parseItems fuel (tokens ++ rest) = .ok (value :: values, rest) := by
  induction values with
  | nil =>
    intro value tokens fuel h hfuel
    obtain ⟨token, tokens, rfl, htoken, h⟩ := List.map_eq_cons_iff.mp h
    obtain ⟨close, tokens, rfl, hclose, h⟩ := List.map_eq_cons_iff.mp h
    rw [List.map_eq_nil_iff.mp h] at hfuel ⊢
    obtain ⟨fuel, rfl⟩ := Nat.exists_eq_add_one.mpr (Nat.lt_of_lt_of_le Nat.two_pos hfuel)
    rw [List.cons_append, List.cons_append, parseItems_value fuel htoken,
      (Token.shape_eq hclose).1]
    rfl
  | cons next values ih =>
    intro value tokens fuel h hfuel
    obtain ⟨token, tokens, rfl, htoken, h⟩ := List.map_eq_cons_iff.mp h
    obtain ⟨sep, tokens, rfl, hsep, h⟩ := List.map_eq_cons_iff.mp h
    simp only [List.length_cons] at hfuel
    obtain ⟨fuel, rfl⟩ : ∃ n, fuel = n + 1 := ⟨fuel - 1, by omega⟩
    rw [List.cons_append, List.cons_append, parseItems_value fuel htoken,
      (Token.shape_eq hsep).1]
    simp only
    rw [ih h (by omega)]
    rfl

theorem parseList_shapes {values : List FilterValue}
    (h : tokens.map Token.shape = listShapes values) :
    parseList (tokens ++ rest) = .ok (values, rest) := by
  cases values with
  | nil =>
    obtain ⟨first, tokens, rfl, hfirst, h⟩ := List.map_eq_cons_iff.mp h
    obtain ⟨close, tokens, rfl, hclose, h⟩ := List.map_eq_cons_iff.mp h
    rw [List.map_eq_nil_iff.mp h]
    rw [parseList, List.cons_append, peek_cons]
    change (if first.kind = .lparen then _ else _) = _
    rw [if_pos (Token.shape_eq hfirst).1]
    change parseItems (_ + 1) (close :: rest) = _
    rw [parseItems, peek_cons]
    change (if close.kind = .rparen then _ else _) = _
    rw [if_pos (Token.shape_eq hclose).1]
    rfl
  | cons value values =>
    obtain ⟨first, tokens, rfl, hfirst, h⟩ := List.map_eq_cons_iff.mp h
    rw [parseList, List.cons_append, peek_cons]
    change (if first.kind = .lparen then _ else _) = _
    rw [if_pos (Token.shape_eq hfirst).1]
    exact parseItems_shapes h (by simp only [List.length_cons, List.length_append]; omega)

/-! ### Comparisons -/

theorem compareValue_token {field : Text} {operator : ScalarOperator} {value : FilterValue}
    (h : tokenValue token = .ok value) :
    compareValue field operator (token :: rest) = .ok (compare field operator value, rest) := by
  rw [compareValue, parseValue_token h]
  rfl

theorem isKeyword_of_shape {keyword : Keyword} {text : Text}
    (h : token.shape = (.keyword keyword, text)) : token.isKeyword keyword = true := by
  rw [Token.isKeyword, (Token.shape_eq h).1, beq_self_eq_true]

/-- An operator token, and the value behind it. -/
theorem parseComparison_op {field text : Text} {operator : ScalarOperator} {value : FilterValue}
    {op : Token} (hop : op.shape = opShape text)
    (hlookup : scalarOperators.lookup text = some operator) (h : tokenValue token = .ok value) :
    parseComparison field (op :: token :: rest) = .ok (compare field operator value, rest) := by
  rw [parseComparison, peek_cons]
  simp only [bind, Except.bind]
  rw [(Token.shape_eq hop).1]
  simp only
  rw [(Token.shape_eq hop).2, hlookup]
  exact compareValue_token h

theorem parseComparison_contains {field : Text} {value : FilterValue} {op : Token}
    (hop : op.shape = word "CONTAINS".toList) (h : token.shape = valueShape value) :
    parseComparison field (op :: token :: rest) =
      .ok (.comparison ⟨field, .contains, value⟩, rest) := by
  have hkind : op.kind = .keyword .contains := (Token.shape_eq hop).1
  rw [parseComparison, peek_cons]
  simp only [bind, Except.bind]
  rw [hkind]
  exact compareValue_token (tokenValue_shape h)

theorem parseComparison_in {field : Text} {values : List FilterValue} {op : Token}
    (hop : op.shape = word "IN".toList) (h : tokens.map Token.shape = listShapes values) :
    parseComparison field (op :: tokens ++ rest) =
      .ok (.comparison ⟨field, .in_, values⟩, rest) := by
  have hkind : op.kind = .keyword .in_ := (Token.shape_eq hop).1
  rw [parseComparison, List.cons_append, peek_cons]
  simp only [bind, Except.bind]
  rw [hkind]
  simp only [List.tail_cons]
  rw [parseList_shapes h]
  rfl

theorem parseComparison_notIn {field : Text} {values : List FilterValue} {op after : Token}
    (hop : op.shape = word "NOT".toList) (hafter : after.shape = word "IN".toList)
    (h : tokens.map Token.shape = listShapes values) :
    parseComparison field (op :: after :: tokens ++ rest) =
      .ok (.comparison ⟨field, .notIn, values⟩, rest) := by
  have hkind : op.kind = .keyword .not := (Token.shape_eq hop).1
  rw [parseComparison, List.cons_append, peek_cons]
  simp only [bind, Except.bind]
  rw [hkind]
  simp only [List.tail_cons, List.cons_append, peek_cons]
  rw [if_pos (isKeyword_of_shape hafter), parseList_shapes h]
  rfl

theorem parseComparison_isEmpty {field : Text} {op after : Token}
    (hop : op.shape = word "IS".toList) (hafter : after.shape = word "EMPTY".toList) :
    parseComparison field (op :: after :: rest) =
      .ok (.comparison ⟨field, .isEmpty, ()⟩, rest) := by
  have hkind : op.kind = .keyword .is := (Token.shape_eq hop).1
  rw [parseComparison, peek_cons]
  simp only [bind, Except.bind]
  rw [hkind]
  simp only [List.tail_cons, parseEmpty, peek_cons, bind, Except.bind]
  rw [if_pos (isKeyword_of_shape hafter)]
  rfl

theorem parseComparison_isNotEmpty {field : Text} {op not after : Token}
    (hop : op.shape = word "IS".toList) (hnot : not.shape = word "NOT".toList)
    (hafter : after.shape = word "EMPTY".toList) :
    parseComparison field (op :: not :: after :: rest) =
      .ok (.comparison ⟨field, .isNotEmpty, ()⟩, rest) := by
  have hkind : op.kind = .keyword .is := (Token.shape_eq hop).1
  have hne : not.isKeyword .empty = false := by
    rw [Token.isKeyword, (Token.shape_eq hnot).1]
    rfl
  rw [parseComparison, peek_cons]
  simp only [bind, Except.bind]
  rw [hkind]
  simp only [List.tail_cons, parseEmpty, peek_cons, bind, Except.bind]
  rw [hne, if_neg Bool.false_ne_true, if_pos (isKeyword_of_shape hnot),
    if_pos (isKeyword_of_shape hafter)]
  rfl

theorem exists_two {first second : Shape} (h : tokens.map Token.shape = [first, second]) :
    ∃ a b, tokens = [a, b] ∧ a.shape = first ∧ b.shape = second := by
  obtain ⟨a, tokens, rfl, ha, h⟩ := List.map_eq_cons_iff.mp h
  obtain ⟨b, tokens, rfl, hb, h⟩ := List.map_eq_cons_iff.mp h
  exact ⟨a, b, by rw [List.map_eq_nil_iff.mp h], ha, hb⟩

/-- The tokens behind the field of a comparison are read as the comparison. -/
theorem parseComparison_shapes {c : Comparison} {field : Shape}
    (h : field :: tokens.map Token.shape = comparisonShapes c) :
    parseComparison c.field (tokens ++ rest) = .ok (.comparison c, rest) := by
  obtain ⟨name, operator, value⟩ := c
  cases operator with
  | eq | neq | lt | lte | gt | gte =>
    obtain ⟨op, token, rfl, hop, htoken⟩ := exists_two (List.cons.inj h).2
    exact parseComparison_op hop rfl (tokenValue_shape htoken)
  | contains =>
    obtain ⟨op, token, rfl, hop, htoken⟩ := exists_two (List.cons.inj h).2
    exact parseComparison_contains hop htoken
  | isEmpty =>
    obtain ⟨op, token, rfl, hop, htoken⟩ := exists_two (List.cons.inj h).2
    exact parseComparison_isEmpty hop htoken
  | isNotEmpty =>
    obtain ⟨op, tokens, rfl, hop, h⟩ := List.map_eq_cons_iff.mp (List.cons.inj h).2
    obtain ⟨not, token, rfl, hnot, htoken⟩ := exists_two h
    exact parseComparison_isNotEmpty hop hnot htoken
  | in_ =>
    obtain ⟨op, tokens, rfl, hop, h⟩ := List.map_eq_cons_iff.mp (List.cons.inj h).2
    exact parseComparison_in hop h
  | notIn =>
    obtain ⟨op, tokens, rfl, hop, h⟩ := List.map_eq_cons_iff.mp (List.cons.inj h).2
    obtain ⟨after, tokens, rfl, hafter, h⟩ := List.map_eq_cons_iff.mp h
    exact parseComparison_notIn hop hafter h

/-- The second token of a comparison makes its first a field. -/
theorem startsComparison_shapes {c : Comparison} {field : Shape}
    (h : field :: tokens.map Token.shape = comparisonShapes c) :
    startsComparison (tokens ++ rest) = true := by
  obtain ⟨name, operator, value⟩ := c
  have hkind : ∀ {op : Token} {more : List Token} {shape : Shape}, op.shape = shape →
      startsComparison (⟨shape.1, [], 0⟩ :: more) = true →
      startsComparison (op :: more) = true := by
    rintro op more shape rfl hstarts
    exact hstarts
  cases operator <;>
    obtain ⟨op, tokens, rfl, hop, -⟩ := List.map_eq_cons_iff.mp (List.cons.inj h).2 <;>
    exact hkind hop rfl

theorem parseAtom_shapes {c : Comparison} (h : tokens.map Token.shape = comparisonShapes c) :
    parseAtom (tokens ++ rest) = .ok (.comparison c, rest) := by
  obtain ⟨field, tokens, rfl, hfield⟩ : ∃ field more, tokens = field :: more ∧
      field.shape = (.ident, c.field) := by
    obtain ⟨name, operator, value⟩ := c
    cases operator <;>
      obtain ⟨field, tokens, rfl, hfield, -⟩ := List.map_eq_cons_iff.mp h <;>
      exact ⟨field, tokens, rfl, hfield⟩
  obtain ⟨hkind, htext⟩ := Token.shape_eq hfield
  have hstarts : startsComparison (tokens ++ rest) = true := startsComparison_shapes h
  rw [parseAtom, List.cons_append, peek_cons]
  change (if field.kind = .ident ∧ startsComparison (tokens ++ rest) = true then _ else _) = _
  rw [if_pos ⟨hkind, hstarts⟩, htext]
  exact parseComparison_shapes h

/-! ### Trees -/

mutual

/-- What the text of a tree is parsed as. -/
def reparsed : FilterNode → FilterNode
  | .comparison c => .comparison c
  | .group _ [] => .group .and []
  | .group combinator (first :: rest) =>
    parenthesized (joined combinator (reparsed first) (reparsedAll rest))
  | .not child => .not (reparsed child)

def reparsedAll : List FilterNode → List FilterNode
  | [] => []
  | child :: rest => reparsed child :: reparsedAll rest

end

/-- The parser reads a tree off tokens of its shapes. -/
def ReadsTerm (t : FilterNode) : Prop :=
  ∀ (fuel : ℕ) (tokens rest : List Token), tokens.map Token.shape = shapes t →
    4 * tokens.length ≤ fuel → parseTerm fuel (tokens ++ rest) = .ok (reparsed t, rest)

theorem endsAnd_of_or {next : Token} (h : next.shape = word "OR".toList) : endsAnd next = true := by
  rw [endsAnd, isKeyword_of_shape h]
  rfl

theorem endsAnd_of_and {next : Token} (h : next.shape = word "AND".toList) :
    endsAnd next = false := by
  have hkind : next.kind = .keyword .and := (Token.shape_eq h).1
  simp only [endsAnd, Token.isKeyword, hkind]
  rfl

theorem parseAndRest_ends {close : Token} (fuel : ℕ) (h : endsAnd close = true) :
    parseAndRest (fuel + 1) (close :: rest) = .ok ([], close :: rest) := by
  rw [parseAndRest, peek_cons]
  change (if endsAnd close = true then _ else _) = _
  rw [if_pos h]
  rfl

/-- The terms behind the first of an AND. -/
theorem parseAndRest_shapes {close : Token} (hclose : endsAnd close = true) :
    ∀ {children : List FilterNode}, (∀ child ∈ children, ReadsTerm child) →
      ∀ {tokens : List Token} {fuel : ℕ}, tokens.map Token.shape = restShapes .and children →
        4 * tokens.length + 1 ≤ fuel →
          parseAndRest fuel (tokens ++ close :: rest) = .ok (reparsedAll children, close :: rest)
  | [], _, tokens, fuel, h, hfuel => by
    rw [List.map_eq_nil_iff.mp h] at hfuel ⊢
    obtain ⟨fuel, rfl⟩ := Nat.exists_eq_add_one.mpr hfuel
    exact parseAndRest_ends fuel hclose
  | child :: children, ih, tokens, fuel, h, hfuel => by
    rw [restShapes, List.cons_append] at h
    obtain ⟨next, tokens, rfl, hnext, h⟩ := List.map_eq_cons_iff.mp h
    obtain ⟨terms, more, rfl, hterms, hmore⟩ := List.map_eq_append_iff.mp h
    simp only [List.length_cons, List.length_append] at hfuel
    obtain ⟨fuel, rfl⟩ : ∃ n, fuel = n + 1 := ⟨fuel - 1, by omega⟩
    have hterm := ih child List.mem_cons_self fuel terms (more ++ close :: rest) hterms (by omega)
    have hrest : parseAndRest fuel (more ++ close :: rest) = _ :=
      parseAndRest_shapes hclose (fun c hc => ih c (List.mem_cons_of_mem _ hc)) hmore (by omega)
    rw [parseAndRest, List.cons_append, peek_cons]
    change (if endsAnd next = true then _ else _) = _
    rw [endsAnd_of_and hnext, if_neg Bool.false_ne_true, if_pos (isKeyword_of_shape hnext),
      List.tail_cons, List.append_assoc, hterm]
    change (parseAndRest fuel (more ++ close :: rest) >>= _) = _
    rw [hrest]
    rfl

/-- One term alone is read as an AND. -/
theorem parseAnd_shapes {t : FilterNode} {close : Token} {fuel : ℕ} (ih : ReadsTerm t)
    (hclose : endsAnd close = true) (h : tokens.map Token.shape = shapes t)
    (hfuel : 4 * tokens.length + 2 ≤ fuel) :
    parseAnd fuel (tokens ++ close :: rest) = .ok (reparsed t, close :: rest) := by
  obtain ⟨fuel, rfl⟩ : ∃ n, fuel = n + 1 + 1 := ⟨fuel - 2, by omega⟩
  rw [parseAnd, ih (fuel + 1) tokens (close :: rest) h (by omega)]
  change (parseAndRest (fuel + 1) (close :: rest) >>= _) = _
  rw [parseAndRest_ends fuel hclose]
  rfl

theorem parseOrRest_ends {close : Token} (fuel : ℕ) (h : close.isKeyword .or = false) :
    parseOrRest (fuel + 1) (close :: rest) = .ok ([], close :: rest) := by
  rw [parseOrRest, peek_cons]
  change (if close.isKeyword .or = true then _ else _) = _
  rw [h, if_neg Bool.false_ne_true]
  rfl

/-- The tokens of what follows the first part of an OR begin where an AND ends. -/
theorem exists_endsAnd {close : Token} {children : List FilterNode} (rest : List Token)
    (hclose : endsAnd close = true) (h : tokens.map Token.shape = restShapes .or children) :
    ∃ next more, tokens ++ close :: rest = next :: more ∧ endsAnd next = true := by
  cases children with
  | nil => exact ⟨close, rest, by rw [List.map_eq_nil_iff.mp h]; rfl, hclose⟩
  | cons child children =>
    rw [restShapes, List.cons_append] at h
    obtain ⟨next, tokens, rfl, hnext, -⟩ := List.map_eq_cons_iff.mp h
    exact ⟨next, _, List.cons_append, endsAnd_of_or hnext⟩

/-- The parts behind the first of an OR. -/
theorem parseOrRest_shapes {close : Token} (hclose : endsAnd close = true)
    (hor : close.isKeyword .or = false) :
    ∀ {children : List FilterNode}, (∀ child ∈ children, ReadsTerm child) →
      ∀ {tokens : List Token} {fuel : ℕ}, tokens.map Token.shape = restShapes .or children →
        4 * tokens.length + 1 ≤ fuel →
          parseOrRest fuel (tokens ++ close :: rest) = .ok (reparsedAll children, close :: rest)
  | [], _, tokens, fuel, h, hfuel => by
    rw [List.map_eq_nil_iff.mp h] at hfuel ⊢
    obtain ⟨fuel, rfl⟩ := Nat.exists_eq_add_one.mpr hfuel
    exact parseOrRest_ends fuel hor
  | child :: children, ih, tokens, fuel, h, hfuel => by
    rw [restShapes, List.cons_append] at h
    obtain ⟨next, tokens, rfl, hnext, h⟩ := List.map_eq_cons_iff.mp h
    obtain ⟨terms, more, rfl, hterms, hmore⟩ := List.map_eq_append_iff.mp h
    simp only [List.length_cons, List.length_append] at hfuel
    obtain ⟨fuel, rfl⟩ : ∃ n, fuel = n + 1 := ⟨fuel - 1, by omega⟩
    have hrest : parseOrRest fuel (more ++ close :: rest) = _ :=
      parseOrRest_shapes hclose hor (fun c hc => ih c (List.mem_cons_of_mem _ hc)) hmore (by omega)
    obtain ⟨first, behind, heq, hfirst⟩ := exists_endsAnd rest hclose hmore
    have hpart : parseAnd fuel (terms ++ first :: behind) = _ :=
      parseAnd_shapes (ih child List.mem_cons_self) hfirst hterms (by omega)
    rw [parseOrRest, List.cons_append, peek_cons]
    change (if next.isKeyword .or = true then _ else _) = _
    rw [if_pos (isKeyword_of_shape hnext), List.tail_cons, List.append_assoc, heq, hpart, ← heq]
    change (parseOrRest fuel (more ++ close :: rest) >>= _) = _
    rw [hrest]
    rfl

/-- The children of a group under their connective, up to the token that closes them. -/
theorem parseOr_shapes {combinator : Combinator} {first : FilterNode} {children : List FilterNode}
    {close : Token} {fuel : ℕ} (ih : ∀ child ∈ first :: children, ReadsTerm child)
    (hclose : endsAnd close = true) (hor : close.isKeyword .or = false)
    (h : tokens.map Token.shape = shapes first ++ restShapes combinator children)
    (hfuel : 4 * tokens.length + 3 ≤ fuel) :
    parseOr fuel (tokens ++ close :: rest) =
      .ok (joined combinator (reparsed first) (reparsedAll children), close :: rest) := by
  have hfirst := ih first List.mem_cons_self
  have hchildren := fun child hc => ih child (List.mem_cons_of_mem first hc)
  obtain ⟨terms, more, rfl, hterms, hmore⟩ := List.map_eq_append_iff.mp h
  rw [List.length_append] at hfuel
  obtain ⟨fuel, rfl⟩ : ∃ n, fuel = n + 1 + 1 + 1 := ⟨fuel - 3, by omega⟩
  rw [parseOr]
  cases combinator with
  -- one AND takes all the children, and no OR follows it
  | and =>
    have hand : parseAnd (fuel + 1 + 1) (terms ++ more ++ close :: rest) =
        .ok (joined .and (reparsed first) (reparsedAll children), close :: rest) := by
      rw [parseAnd, List.append_assoc, hfirst (fuel + 1) terms _ hterms (by omega)]
      change (parseAndRest (fuel + 1) (more ++ close :: rest) >>= _) = _
      rw [parseAndRest_shapes hclose hchildren hmore (by omega)]
      rfl
    rw [hand]
    change (parseOrRest (fuel + 1 + 1) (close :: rest) >>= _) = _
    rw [parseOrRest_ends _ hor]
    rfl
  -- each child is an AND of its own, up to the OR behind it
  | or =>
    obtain ⟨next, behind, heq, hnext⟩ := exists_endsAnd rest hclose hmore
    have hpart : parseAnd (fuel + 1 + 1) (terms ++ next :: behind) = _ :=
      parseAnd_shapes hfirst hnext hterms (by omega)
    rw [List.append_assoc, heq, hpart, ← heq]
    change (parseOrRest (fuel + 1 + 1) (more ++ close :: rest) >>= _) = _
    rw [parseOrRest_shapes hclose hor hchildren hmore (by omega)]
    rfl

theorem parseTerm_not {child : FilterNode} {next : Token} {fuel : ℕ}
    (hnext : next.shape = word "NOT".toList)
    (h : parseTerm fuel (tokens ++ rest) = .ok (reparsed child, rest)) :
    parseTerm (fuel + 1) (next :: tokens ++ rest) = .ok (reparsed (.not child), rest) := by
  rw [parseTerm, List.cons_append, peek_cons]
  change (if next.isKeyword .not = true then _ else _) = _
  rw [if_pos (isKeyword_of_shape hnext), List.tail_cons, h]
  rfl

/-- A word is read as an atom. -/
theorem parseTerm_ident {fuel : ℕ} (h : token.kind = .ident) :
    parseTerm (fuel + 1) (token :: rest) = parseAtom (token :: rest) := by
  rw [parseTerm, peek_cons]
  simp [Token.isKeyword, h, bind, Except.bind]

theorem parseTerm_paren_nil {first close : Token} {fuel : ℕ} (hfirst : first.shape = lparen)
    (hclose : close.shape = rparen) :
    parseTerm (fuel + 1) (first :: close :: rest) = .ok (.group .and [], rest) := by
  have hkind : first.kind = .lparen := (Token.shape_eq hfirst).1
  have hkind' : close.kind = .rparen := (Token.shape_eq hclose).1
  rw [parseTerm, peek_cons]
  simp [Token.isKeyword, hkind, hkind', bind, Except.bind, pure, Except.pure]

theorem parseTerm_paren {first next close : Token} {inner : FilterNode} {more : List Token}
    {fuel : ℕ} (hfirst : first.shape = lparen) (hnext : next.kind ≠ .rparen)
    (hclose : close.shape = rparen)
    (h : parseOr fuel (next :: more) = .ok (inner, close :: rest)) :
    parseTerm (fuel + 1) (first :: next :: more) = .ok (parenthesized inner, rest) := by
  have hkind : first.kind = .lparen := (Token.shape_eq hfirst).1
  have hkind' : close.kind = .rparen := (Token.shape_eq hclose).1
  rw [parseTerm, peek_cons]
  simp [Token.isKeyword, hkind, hkind', hnext, h, bind, Except.bind, pure, Except.pure]

/-- The shapes of a tree begin with a word, a parenthesis or NOT. -/
theorem shapes_head (t : FilterNode) :
    ∃ shape more, shapes t = shape :: more ∧
      (shape.1 = .ident ∨ shape.1 = .lparen ∨ shape.1 = .keyword .not) := by
  cases t with
  | comparison c =>
    obtain ⟨field, operator, value⟩ := c
    cases operator <;> exact ⟨_, _, rfl, Or.inl rfl⟩
  | group combinator children =>
    cases children <;> exact ⟨_, _, rfl, Or.inr (Or.inl rfl)⟩
  | not child => exact ⟨_, _, rfl, Or.inr (Or.inr rfl)⟩

/-- **The parser reads every tree off tokens of its shapes.** -/
theorem readsTerm (t : FilterNode) : ReadsTerm t := by
  induction t with
  | comparison c =>
    intro fuel tokens rest h hfuel
    -- every comparison begins with its field
    obtain ⟨field, tokens, rfl, hkind⟩ : ∃ field more, tokens = field :: more ∧
        field.kind = .ident := by
      obtain ⟨name, operator, value⟩ := c
      cases operator <;>
        obtain ⟨field, tokens, rfl, hfield, -⟩ := List.map_eq_cons_iff.mp h <;>
        exact ⟨field, tokens, rfl, (Token.shape_eq hfield).1⟩
    simp only [List.length_cons] at hfuel
    obtain ⟨fuel, rfl⟩ : ∃ n, fuel = n + 1 := ⟨fuel - 1, by omega⟩
    rw [List.cons_append, parseTerm_ident hkind]
    exact parseAtom_shapes h
  | group combinator children ih =>
    intro fuel tokens rest h hfuel
    cases children with
    | nil =>
      obtain ⟨first, close, rfl, hfirst, hclose⟩ := exists_two h
      simp only [List.length_cons] at hfuel
      obtain ⟨fuel, rfl⟩ : ∃ n, fuel = n + 1 := ⟨fuel - 1, by omega⟩
      exact parseTerm_paren_nil hfirst hclose
    | cons child children =>
      rw [shapes, List.cons_append] at h
      obtain ⟨first, tokens, rfl, hfirst, h⟩ := List.map_eq_cons_iff.mp h
      obtain ⟨inner, more, rfl, hinner, hmore⟩ := List.map_eq_append_iff.mp h
      obtain ⟨close, tokens, rfl, hclose, hnil⟩ := List.map_eq_cons_iff.mp hmore
      cases List.map_eq_nil_iff.mp hnil
      simp only [List.length_cons, List.length_append, List.length_nil] at hfuel
      obtain ⟨fuel, rfl⟩ : ∃ n, fuel = n + 1 := ⟨fuel - 1, by omega⟩
      have hkind : close.kind = .rparen := (Token.shape_eq hclose).1
      -- what is inside is one OR, which ends at the closing parenthesis
      have hor : parseOr fuel (inner ++ close :: rest) = _ :=
        parseOr_shapes ih (by simp [endsAnd, hkind]) (by simp [Token.isKeyword, hkind]) hinner
          (by omega)
      obtain ⟨shape, tail, hshape, hhead⟩ := shapes_head child
      rw [hshape, List.cons_append] at hinner
      obtain ⟨next, inner, rfl, hnext, -⟩ := List.map_eq_cons_iff.mp hinner
      have hne : next.kind ≠ .rparen := by
        rw [(Token.shape_eq hnext).1]
        rcases hhead with heq | heq | heq <;> rw [heq] <;> decide
      rw [List.cons_append, List.append_assoc]
      exact parseTerm_paren hfirst hne hclose hor
  | not child ih =>
    intro fuel tokens rest h hfuel
    obtain ⟨next, tokens, rfl, hnext, h⟩ := List.map_eq_cons_iff.mp h
    simp only [List.length_cons] at hfuel
    obtain ⟨fuel, rfl⟩ : ∃ n, fuel = n + 1 := ⟨fuel - 1, by omega⟩
    exact parseTerm_not hnext (ih fuel tokens rest h (by omega))

/-! ### Queries -/

theorem parseTokens_shapes {t : FilterNode} {last : Token} (h : tokens.map Token.shape = shapes t)
    (hlast : last.kind = .eof) : parseTokens (tokens ++ [last]) = .ok (some (reparsed t), none) := by
  have hor : parseOr (fuelFor (tokens ++ [last])) (tokens ++ [last]) =
      .ok (joined .and (reparsed t) (reparsedAll []), [last]) := by
    have hshapes : tokens.map Token.shape = shapes t ++ restShapes .and [] := by
      rw [h, restShapes, List.append_nil]
    refine parseOr_shapes (fun child _ => readsTerm child) ?_ ?_ hshapes ?_
    · simp [endsAnd, hlast]
    · simp [Token.isKeyword, hlast]
    · rw [fuelFor, List.length_append]
      omega
  obtain ⟨shape, tail, hshape, hhead⟩ := shapes_head t
  rw [hshape] at h
  obtain ⟨first, tokens, rfl, hfirst, -⟩ := List.map_eq_cons_iff.mp h
  have hstart : ¬(first.kind = .eof ∨ first.isKeyword .order = true) := by
    rw [Token.isKeyword, (Token.shape_eq hfirst).1]
    rcases hhead with heq | heq | heq <;> rw [heq] <;> decide
  rw [List.cons_append] at hor ⊢
  rw [parseTokens, peek_cons]
  change (if first.kind = .eof ∨ first.isKeyword .order = true then _ else _) = _
  rw [if_neg hstart]
  simp [hor, parseOrderBy, Token.isKeyword, hlast, bind, Except.bind, pure, Except.pure, joined,
    reparsedAll]

/-- **What a formatted tree is parsed as**, if it is writable. -/
theorem parse_emit {t : FilterNode} (h : ∀ c, .comparison c ∈ t.subtrees → Writable c) :
    parse (emit t) = .ok (some (reparsed t)) none := by
  obtain ⟨tokens, last, htokens, hlast, hresult⟩ := tokenize_emit h
  rw [parse, hresult]
  simp only [if_true, parseTokens_shapes htokens hlast]

/-! ### Canonical trees -/

/-- The field is one of those of a resource. -/
def Registered (field : Text) : Prop :=
  ∃ resource ∈ [Resource.card, .search, .connector], (findField resource field).isSome

instance (field : Text) : Decidable (Registered field) := List.decidableBEx _ _

/-- Any text, boolean or null, and integers below `10 ^ 21`. -/
def CanonicalValue : FilterValue → Prop
  | .number (.finite x) => x.value.den = 1 ∧ |x.value| < 10 ^ 21
  | .number _ => False
  | _ => True

instance : DecidablePred CanonicalValue
  | .string _ => inferInstanceAs (Decidable True)
  | .boolean _ => inferInstanceAs (Decidable True)
  | .null => inferInstanceAs (Decidable True)
  | .number .nan => inferInstanceAs (Decidable False)
  | .number (.infinity _) => inferInstanceAs (Decidable False)
  | .number (.finite _) => inferInstanceAs (Decidable (_ ∧ _))

/-- A comparison over a registered field, a NOT, or a group of two children or more. -/
def CanonicalNode : FilterNode → Prop
  | .comparison c => Registered c.field ∧ ∀ value ∈ c.values, CanonicalValue value
  | .group _ children => 2 ≤ children.length
  | .not _ => True

instance : DecidablePred CanonicalNode
  | .comparison _ => inferInstanceAs (Decidable (_ ∧ _))
  | .group _ _ => inferInstanceAs (Decidable (_ ≤ _))
  | .not _ => inferInstanceAs (Decidable True)

/-- The trees that the round trip is for. -/
def Canonical (t : FilterNode) : Prop := ∀ s ∈ t.subtrees, CanonicalNode s

instance : DecidablePred Canonical := fun t => List.decidableBAll _ t.subtrees

theorem field_is_word (resource : Resource) :
    ∀ field ∈ fieldsOf resource, isWord field.name.toList = true ∧
      wordKind field.name.toList = .ident := by
  cases resource <;> decide

theorem isWord_of_findField {resource : Resource} {name : Text} {field : FieldDefinition}
    (h : findField resource name = some field) : isWord name = true ∧ wordKind name = .ident := by
  obtain ⟨hmem, rfl⟩ := findField_spec h
  exact field_is_word resource field hmem

theorem CanonicalValue.plain {value : FilterValue} (h : CanonicalValue value) :
    PlainValue value := by
  match value, h with
  | .string _, _ => trivial
  | .boolean _, _ => trivial
  | .null, _ => trivial
  | .number (.finite x), ⟨hden, hlt⟩ =>
    have hx : x.value = x.value.num := ((Rat.den_eq_one_iff x.value).mp hden).symm
    rw [hx] at hlt
    exact NumberText.plain_of_integer hx (by exact_mod_cast hlt)

theorem Canonical.writable {t : FilterNode} (h : Canonical t) :
    ∀ c, .comparison c ∈ t.subtrees → Writable c := by
  intro c hc
  obtain ⟨⟨resource, -, hsome⟩, hvalues⟩ := h _ hc
  obtain ⟨field, hfield⟩ := Option.isSome_iff_exists.mp hsome
  obtain ⟨hword, hkind⟩ := isWord_of_findField hfield
  exact ⟨hword, hkind, fun value hvalue => (hvalues value hvalue).plain⟩

theorem reparsedAll_eq {children : List FilterNode}
    (h : ∀ child ∈ children, reparsed child = child) : reparsedAll children = children := by
  induction children with
  | nil => rfl
  | cons child children ih =>
    rw [reparsedAll, h child List.mem_cons_self, ih fun c hc => h c (List.mem_cons_of_mem _ hc)]

/-- A canonical tree is parsed as itself. -/
theorem Canonical.reparsed_eq {t : FilterNode} (h : Canonical t) : reparsed t = t := by
  induction t with
  | comparison _ => rfl
  | group combinator children ih =>
    have hchildren : ∀ child ∈ children, reparsed child = child := fun child hchild =>
      ih child hchild fun s hs => h s (FilterNode.mem_subtrees_group.mpr (Or.inr ⟨child, hchild, hs⟩))
    have htwo : 2 ≤ children.length := h _ (FilterNode.mem_subtrees_self _)
    match children, htwo with
    | first :: second :: rest, _ =>
      have hrest := reparsedAll_eq fun c hc => hchildren c (List.mem_cons_of_mem first hc)
      rw [reparsed, hchildren first List.mem_cons_self, hrest]
      rfl
  | not child ih =>
    rw [reparsed, ih fun s hs => h s (FilterNode.mem_subtrees_not.mpr (Or.inr hs))]

/-- **Parsing the text of a canonical tree gives the tree back.** -/
theorem parse_format_canonical {t : FilterNode} (h : Canonical t) :
    parse (format (some t)) = .ok (some t) none := by
  have hparse := parse_emit h.writable
  rw [h.reparsed_eq] at hparse
  exact hparse

/-- A filter with every connective, and values that need quoting. -/
def nestedFilter : FilterNode :=
  .group .or [
    .not (.comparison ⟨"title".toList, .contains, .string "NOT \"me\" \\".toList⟩),
    .group .and [
      .comparison ⟨"due".toList, .lt, .string "-7d".toList⟩,
      .comparison ⟨"assignee".toList, .notIn, [.string ME, .null]⟩,
      .comparison ⟨"number".toList, .gte,
        .number (.finite ⟨-7, by decide +kernel, by decide +kernel⟩)⟩]]

theorem parse_format_nestedFilter :
    parse (format (some nestedFilter)) = .ok (some nestedFilter) none :=
  parse_format_canonical (by decide)

end TaskFlow.Tql
