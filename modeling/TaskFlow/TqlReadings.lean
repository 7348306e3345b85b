import TaskFlow.TqlRoundTrip
import TaskFlow.TqlTiles

/-! # What the TQL rules read

What a rule reads off some tokens it reads off tokens of the same shapes whatever is behind them
(`readings`), but for a bare word: that is a field where the next token makes it one.
-/
namespace TaskFlow.Tql

open TaskFlow.Filter

/-! ### What a rule reads -/

theorem bind_eq_ok {α β : Type} {result : Except Failure α} {next : α → Except Failure β} {b : β}
    (h : (result >>= next) = .ok b) : ∃ a, result = .ok a ∧ next a = .ok b := by
  cases result with
  | error failure => cases h
  | ok a => exact ⟨a, rfl, h⟩

theorem exists_cons_of_peek {α : Type} {tokens : List Token} {next : Token → Except Failure α}
    {a : α} (h : (peek tokens >>= next) = .ok a) : ∃ token tail, tokens = token :: tail := by
  cases tokens with
  | nil => cases h
  | cons token tail => exact ⟨token, tail, rfl⟩

/-- The rule has read some tokens, and it reads the value off any of the same shapes. -/
def Read {α : Type} (rule : Rule α) (value : α) (tokens rest : List Token) : Prop :=
  ∃ used, used ++ rest = tokens ∧ ∀ tokens' rest' : List Token,
    tokens'.map Token.shape = used.map Token.shape → rule (tokens' ++ rest') = .ok (value, rest')

theorem eq_cons_of_shapes {tokens used : List Token} {token : Token}
    (h : tokens.map Token.shape = (token :: used).map Token.shape) :
    ∃ token' tokens', tokens = token' :: tokens' ∧ (token'.kind = token.kind ∧
      token'.text = token.text) ∧ tokens'.map Token.shape = used.map Token.shape := by
  obtain ⟨token', tokens', rfl, htoken, htokens⟩ := List.map_eq_cons_iff.mp h
  exact ⟨token', tokens', rfl, Token.shape_eq htoken, htokens⟩

theorem isKeyword_congr {token token' : Token} (h : token'.kind = token.kind) (keyword : Keyword) :
    token'.isKeyword keyword = token.isKeyword keyword := by
  rw [Token.isKeyword, Token.isKeyword, h]

theorem tokenValue_congr {token token' : Token} {value : FilterValue}
    (hshape : token'.kind = token.kind ∧ token'.text = token.text)
    (h : tokenValue token = .ok value) : tokenValue token' = .ok value := by
  unfold tokenValue at h ⊢
  rw [hshape.1, hshape.2]
  split at h <;> cases h <;> rfl

/-! ### Values and comparisons -/

theorem parseValue_read {tokens rest : List Token} {value : FilterValue}
    (h : parseValue tokens = .ok (value, rest)) :
    ∃ token, tokens = token :: rest ∧ tokenValue token = .ok value := by
  obtain ⟨token, tail, rfl⟩ := exists_cons_of_peek h
  rw [parseValue, peek_bind] at h
  obtain ⟨value, hvalue, h⟩ := bind_eq_ok h
  cases h
  exact ⟨token, rfl, hvalue⟩

/-- A list is read with a fuel of one for each token. -/
theorem parseItems_reading : ∀ (fuel : ℕ) {tokens rest : List Token} {values : List FilterValue},
    parseItems fuel tokens = .ok (values, rest) →
      ∃ used, used ++ rest = tokens ∧ ∀ (fuel' : ℕ) (tokens' rest' : List Token),
        tokens'.map Token.shape = used.map Token.shape → used.length ≤ fuel' →
          parseItems fuel' (tokens' ++ rest') = .ok (values, rest')
  | 0, _, _, _, h => by cases h
  | fuel + 1, tokens, rest, values, h => by
    obtain ⟨token, tail, rfl⟩ := exists_cons_of_peek h
    rw [parseItems, peek_bind] at h
    by_cases hclose : token.kind = .rparen
    · rw [if_pos hclose] at h
      cases h
      refine ⟨[token], rfl, fun fuel' tokens' rest' hshapes hfuel => ?_⟩
      obtain ⟨token', tokens', rfl, htoken, hnil⟩ := eq_cons_of_shapes hshapes
      obtain ⟨fuel', rfl⟩ := Nat.exists_eq_add_one.mpr (Nat.lt_of_lt_of_le Nat.one_pos hfuel)
      rw [List.map_eq_nil_iff.mp hnil, List.singleton_append, parseItems, peek_bind,
        if_pos (htoken.1.trans hclose)]
      rfl
    rw [if_neg hclose] at h
    by_cases heof : token.kind = .eof
    · simp only [if_pos heof] at h
      cases h
    simp only [if_neg heof] at h
    obtain ⟨⟨value, behind⟩, hparse, h⟩ := bind_eq_ok h
    obtain ⟨_, hcons, hvalue⟩ := parseValue_read hparse
    cases hcons
    obtain ⟨after, tail, rfl⟩ := exists_cons_of_peek h
    simp only [peek_bind] at h
    -- the value is read, and what is behind it
    have hlast {fuel' : ℕ} {token' after' : Token} {rest' : List Token}
        (htoken : token'.kind = token.kind ∧ token'.text = token.text)
        (hafter : after'.kind = .rparen) :
        parseItems (fuel' + 1) (token' :: after' :: rest') = .ok ([value], rest') := by
      rw [parseItems, peek_bind, if_neg (by rwa [htoken.1])]
      simp only [if_neg (show ¬token'.kind = .eof by rwa [htoken.1])]
      rw [parseValue_token (tokenValue_congr htoken hvalue)]
      cases after'
      cases hafter
      rfl
    have hnext {fuel' : ℕ} {token' after' : Token} {rest' : List Token}
        (htoken : token'.kind = token.kind ∧ token'.text = token.text)
        (hafter : after'.kind = .comma) :
        parseItems (fuel' + 1) (token' :: after' :: rest') =
          (parseItems fuel' rest' >>= fun others => pure (value :: others.1, others.2)) := by
      rw [parseItems, peek_bind, if_neg (by rwa [htoken.1])]
      simp only [if_neg (show ¬token'.kind = .eof by rwa [htoken.1])]
      rw [parseValue_token (tokenValue_congr htoken hvalue)]
      cases after'
      cases hafter
      rfl
    split at h
    next hafter =>
      cases h
      refine ⟨[token, after], rfl, fun fuel' tokens' rest' hshapes hfuel => ?_⟩
      obtain ⟨token', tokens', rfl, htoken, hshapes⟩ := eq_cons_of_shapes hshapes
      obtain ⟨after', tokens', rfl, hafter', hnil⟩ := eq_cons_of_shapes hshapes
      obtain ⟨fuel', rfl⟩ := Nat.exists_eq_add_one.mpr (Nat.lt_of_lt_of_le Nat.two_pos hfuel)
      rw [List.map_eq_nil_iff.mp hnil, List.cons_append, List.singleton_append,
        hlast htoken (hafter'.1.trans hafter)]
    next hafter =>
      obtain ⟨⟨values, behind⟩, hitems, h⟩ := bind_eq_ok h
      cases h
      obtain ⟨used, rfl, hread⟩ := parseItems_reading fuel hitems
      refine ⟨token :: after :: used, rfl, fun fuel' tokens' rest' hshapes hfuel => ?_⟩
      obtain ⟨token', tokens', rfl, htoken, hshapes⟩ := eq_cons_of_shapes hshapes
      obtain ⟨after', tokens', rfl, hafter', hshapes⟩ := eq_cons_of_shapes hshapes
      simp only [List.length_cons] at hfuel
      obtain ⟨fuel', rfl⟩ : ∃ n, fuel' = n + 1 := ⟨fuel' - 1, by omega⟩
      rw [List.cons_append, List.cons_append, hnext htoken (hafter'.1.trans hafter),
        hread fuel' tokens' rest' hshapes (by omega)]
      rfl
    · cases h

/-- A rule that reads one token. -/
theorem Read.one {α : Type} {rule : Rule α} {value : α} {token : Token} {rest : List Token}
    (hrule : ∀ token' rest', token'.kind = token.kind ∧ token'.text = token.text →
      rule (token' :: rest') = .ok (value, rest')) : Read rule value (token :: rest) rest := by
  refine ⟨[token], rfl, fun tokens' rest' hshapes => ?_⟩
  obtain ⟨token', tokens', rfl, htoken, hnil⟩ := eq_cons_of_shapes hshapes
  rw [List.map_eq_nil_iff.mp hnil]
  exact hrule token' rest' htoken

/-- A rule that reads one token and then what another rule reads. -/
theorem Read.next {α β : Type} {rule : Rule α} {rule' : Rule β} {value : α} {value' : β}
    {token : Token} {tail rest : List Token} (h : Read rule value tail rest)
    (hrule : ∀ token' tail' rest', token'.kind = token.kind ∧ token'.text = token.text →
      rule tail' = .ok (value, rest') → rule' (token' :: tail') = .ok (value', rest')) :
    Read rule' value' (token :: tail) rest := by
  obtain ⟨used, rfl, hread⟩ := h
  refine ⟨token :: used, rfl, fun tokens' rest' hshapes => ?_⟩
  obtain ⟨token', tokens', rfl, htoken, hshapes⟩ := eq_cons_of_shapes hshapes
  exact hrule token' _ rest' htoken (hread tokens' rest' hshapes)

theorem compareValue_reading {field : Text} {operator : ScalarOperator} {tokens rest : List Token}
    {node : FilterNode} (h : compareValue field operator tokens = .ok (node, rest)) :
    Read (compareValue field operator) node tokens rest := by
  obtain ⟨⟨value, behind⟩, hparse, h⟩ := bind_eq_ok h
  cases h
  obtain ⟨token, rfl, hvalue⟩ := parseValue_read hparse
  exact .one fun token' rest' htoken => compareValue_token (tokenValue_congr htoken hvalue)

theorem parseList_reading {tokens rest : List Token} {values : List FilterValue}
    (h : parseList tokens = .ok (values, rest)) : Read parseList values tokens rest := by
  obtain ⟨token, tail, rfl⟩ := exists_cons_of_peek h
  rw [parseList, peek_bind] at h
  by_cases hopen : token.kind = .lparen
  · rw [if_pos hopen] at h
    obtain ⟨used, hused, hread⟩ := parseItems_reading _ h
    refine ⟨token :: used, by rw [List.cons_append, hused]; rfl, fun tokens' rest' hshapes => ?_⟩
    obtain ⟨token', tokens', rfl, htoken, hshapes⟩ := eq_cons_of_shapes hshapes
    rw [List.cons_append, parseList, peek_bind, if_pos (htoken.1.trans hopen), List.tail_cons]
    refine hread _ tokens' rest' hshapes ?_
    have hlength := congrArg List.length hshapes
    simp only [List.length_map] at hlength
    simp only [List.length_cons, List.length_append]
    omega
  · rw [if_neg hopen] at h
    cases h

theorem parseEmpty_reading {field : Text} {tokens rest : List Token} {node : FilterNode}
    (h : parseEmpty field tokens = .ok (node, rest)) :
    Read (parseEmpty field) node tokens rest := by
  obtain ⟨after, tail, rfl⟩ := exists_cons_of_peek h
  rw [parseEmpty, peek_bind] at h
  by_cases hempty : after.isKeyword .empty = true
  · rw [if_pos hempty] at h
    cases h
    refine .one fun after' rest' hafter => ?_
    rw [parseEmpty, peek_bind, if_pos (by rw [isKeyword_congr hafter.1, hempty])]
    rfl
  simp only [if_neg hempty] at h
  by_cases hnot : after.isKeyword .not = true
  · simp only [if_pos hnot, List.tail_cons] at h
    obtain ⟨next, tail, rfl⟩ := exists_cons_of_peek h
    rw [peek_bind] at h
    by_cases hnext : next.isKeyword .empty = true
    · rw [if_pos hnext] at h
      cases h
      refine ⟨[after, next], rfl, fun tokens' rest' hshapes => ?_⟩
      obtain ⟨after', tokens', rfl, hafter, hshapes⟩ := eq_cons_of_shapes hshapes
      obtain ⟨next', tokens', rfl, hnext', hnil⟩ := eq_cons_of_shapes hshapes
      rw [List.map_eq_nil_iff.mp hnil, parseEmpty, List.cons_append, peek_bind,
        isKeyword_congr hafter.1, if_neg hempty]
      simp only [isKeyword_congr hafter.1, if_pos hnot, List.tail_cons, List.singleton_append,
        peek_bind, isKeyword_congr hnext'.1, if_pos hnext]
      rfl
    · simp only [if_neg hnext] at h
      cases h
  · simp only [if_neg hnot] at h
    cases h

theorem parseComparison_reading {field : Text} {tokens rest : List Token} {node : FilterNode}
    (h : parseComparison field tokens = .ok (node, rest)) :
    Read (parseComparison field) node tokens rest := by
  obtain ⟨op, tail, rfl⟩ := exists_cons_of_peek h
  rw [parseComparison, peek_bind] at h
  split at h
  next hkind =>
    refine (compareValue_reading h).next fun op' tail' rest' hop h => ?_
    rw [parseComparison, peek_bind, hop.1, hkind]
    exact h
  next hkind =>
    split at h
    next operator hoperator =>
      refine (compareValue_reading h).next fun op' tail' rest' hop h => ?_
      rw [parseComparison, peek_bind, hop.1, hkind]
      simp only [hop.2, hoperator]
      exact h
    · cases h
  next hkind =>
    refine (compareValue_reading h).next fun op' tail' rest' hop h => ?_
    rw [parseComparison, peek_bind, hop.1, hkind]
    exact h
  next hkind =>
    obtain ⟨⟨values, behind⟩, hlist, h⟩ := bind_eq_ok h
    cases h
    refine (parseList_reading hlist).next fun op' tail' rest' hop h => ?_
    rw [parseComparison, peek_bind, hop.1, hkind]
    simp only [List.tail_cons, h]
    rfl
  next hkind =>
    obtain ⟨after, tail, rfl⟩ := exists_cons_of_peek h
    rw [List.tail_cons, peek_bind] at h
    by_cases hin : after.isKeyword .in_ = true
    · rw [if_pos hin] at h
      obtain ⟨⟨values, behind⟩, hlist, h⟩ := bind_eq_ok h
      cases h
      obtain ⟨used, rfl, hread⟩ := parseList_reading hlist
      refine ⟨op :: after :: used, rfl, fun tokens' rest' hshapes => ?_⟩
      obtain ⟨op', tokens', rfl, hop, hshapes⟩ := eq_cons_of_shapes hshapes
      obtain ⟨after', tokens', rfl, hafter, hshapes⟩ := eq_cons_of_shapes hshapes
      rw [parseComparison, List.cons_append, peek_bind, hop.1, hkind]
      simp only [List.tail_cons, List.cons_append, peek_bind, isKeyword_congr hafter.1,
        if_pos hin, hread tokens' rest' hshapes]
      rfl
    · simp only [if_neg hin] at h
      cases h
  next hkind =>
    refine (parseEmpty_reading h).next fun op' tail' rest' hop h => ?_
    rw [parseComparison, peek_bind, hop.1, hkind]
    exact h
  · cases h

/-! ### Atoms -/

/-- A word that is not a field, under any number of `NOT`s. -/
def isBareWord : List Token → Bool
  | [] => false
  | [token] => token.kind == .ident
  | token :: tokens => token.isKeyword .not && isBareWord tokens

/-- What a rule looks at behind what it has read. -/
def nextKind (tokens : List Token) : Option TokenKind := tokens.head?.map Token.kind

theorem startsComparison_congr {tokens tokens' : List Token}
    (h : nextKind tokens' = nextKind tokens) :
    startsComparison tokens' = startsComparison tokens := by
  cases tokens with
  | nil =>
    cases tokens' with
    | nil => rfl
    | cons token' tail' => cases h
  | cons token tail =>
    cases tokens' with
    | nil => cases h
    | cons token' tail' =>
      have hkind : token'.kind = token.kind := Option.some_inj.mp h
      rw [startsComparison, startsComparison, hkind]

theorem nextKind_append {used tokens rest rest' : List Token}
    (hshapes : tokens.map Token.shape = used.map Token.shape)
    (hnext : nextKind rest' = nextKind rest) :
    nextKind (tokens ++ rest') = nextKind (used ++ rest) := by
  cases used with
  | nil =>
    rw [List.map_eq_nil_iff.mp hshapes]
    exact hnext
  | cons token used =>
    obtain ⟨token', tokens', rfl, htoken, -⟩ := eq_cons_of_shapes hshapes
    exact congrArg some htoken.1

theorem exists_cons_of_nextKind {token : Token} {tail rest : List Token}
    (h : nextKind rest = nextKind (token :: tail)) :
    ∃ token' tail', rest = token' :: tail' ∧ token'.kind = token.kind := by
  cases rest with
  | nil => cases h
  | cons token' tail' => exact ⟨token', tail', rfl, Option.some_inj.mp h⟩

/-- A term has been read, and is read off any tokens of the same shapes; if it is a bare word, then
where nothing makes a field of it. -/
def TermRead (rule : ℕ → Rule FilterNode) (node : FilterNode) (tokens rest : List Token) : Prop :=
  ∃ used, used ≠ [] ∧ used ++ rest = tokens ∧
    (isBareWord used = true → startsComparison rest = false) ∧
    ∀ (fuel : ℕ) (tokens' rest' : List Token), tokens'.map Token.shape = used.map Token.shape →
      4 * used.length ≤ fuel → (isBareWord used = true → startsComparison rest' = false) →
        rule fuel (tokens' ++ rest') = .ok (node, rest')

theorem freeText_congr {token token' : Token} {node : FilterNode}
    (hshape : token'.kind = token.kind ∧ token'.text = token.text)
    (h : freeText token = .ok node) : freeText token' = .ok node := by
  unfold freeText at h ⊢
  rw [hshape.1, hshape.2]
  split at h <;> cases h <;> rfl

theorem parseAtom_read {tokens rest : List Token} {node : FilterNode}
    (h : parseAtom tokens = .ok (node, rest)) :
    TermRead (fun _ => parseAtom) node tokens rest := by
  obtain ⟨token, tail, rfl⟩ := exists_cons_of_peek h
  rw [parseAtom, peek_bind] at h
  by_cases hfield : token.kind = .ident ∧ startsComparison tail = true
  · rw [List.tail_cons, if_pos hfield] at h
    obtain ⟨used, rfl, hread⟩ := parseComparison_reading h
    have hused : used ≠ [] := by
      rintro rfl
      cases hread [] [] rfl
    have hbare : isBareWord (token :: used) = false := by
      obtain ⟨op, used, rfl⟩ := List.exists_cons_of_ne_nil hused
      rw [isBareWord, Token.isKeyword, hfield.1]
      · rfl
      · exact List.cons_ne_nil _ _
    refine ⟨token :: used, List.cons_ne_nil _ _, rfl, fun h => absurd h (by rw [hbare]; decide),
      fun fuel tokens' rest' hshapes hfuel hnext => ?_⟩
    obtain ⟨token', tokens', rfl, htoken, hshapes⟩ := eq_cons_of_shapes hshapes
    have hstarts : startsComparison (tokens' ++ rest') = true := by
      obtain ⟨op, used, rfl⟩ := List.exists_cons_of_ne_nil hused
      obtain ⟨op', tokens', rfl, hop, -⟩ := eq_cons_of_shapes hshapes
      rw [← hfield.2]
      exact startsComparison_congr (congrArg some hop.1)
    show parseAtom _ = _
    rw [List.cons_append, parseAtom, peek_bind, List.tail_cons,
      if_pos ⟨htoken.1.trans hfield.1, hstarts⟩, htoken.2]
    exact hread tokens' rest' hshapes
  · rw [List.tail_cons, if_neg hfield] at h
    have hfree : ∃ node', freeText token = .ok node' ∧ (node', tail) = (node, rest) ∧
        ∀ (token' : Token) (rest' : List Token), token'.kind = token.kind →
          ¬(token'.kind = .ident ∧ startsComparison rest' = true) →
            parseAtom (token' :: rest') = (freeText token' >>= fun node => pure (node, rest')) := by
      split at h
      iterate 5 next hkind =>
        obtain ⟨node', hnode, h⟩ := bind_eq_ok h
        cases h
        refine ⟨_, hnode, rfl, fun token' rest' hkind' hnot => ?_⟩
        rw [parseAtom, peek_bind, List.tail_cons, if_neg hnot, hkind', hkind]
      · cases h
      · cases h
    obtain ⟨node', hnode, heq, hatom⟩ := hfree
    cases heq
    refine ⟨[token], List.cons_ne_nil _ _, rfl, fun hbare => ?_,
      fun fuel tokens' rest' hshapes hfuel hnext => ?_⟩
    · have hident : token.kind = .ident := eq_of_beq hbare
      exact Bool.eq_false_iff.mpr fun hstarts => hfield ⟨hident, hstarts⟩
    · obtain ⟨token', tokens', rfl, htoken, hnil⟩ := eq_cons_of_shapes hshapes
      rw [List.map_eq_nil_iff.mp hnil]
      show parseAtom (token' :: rest') = _
      rw [hatom token' rest' htoken.1, freeText_congr htoken hnode]
      · rfl
      · rintro ⟨hident, hstarts⟩
        rw [hnext (beq_iff_eq.mpr (htoken.1.symm.trans hident))] at hstarts
        cases hstarts

/-! ### Terms -/

/-- The rule has read some tokens, and it reads the value off any of the same shapes with a token
of the same kind behind them, with a fuel of four for each and some more. -/
def Reading {α : Type} (rule : ℕ → Rule α) (more : ℕ) (value : α) (tokens rest : List Token) :
    Prop :=
  ∃ used, used ++ rest = tokens ∧
    ∀ (fuel : ℕ) (tokens' rest' : List Token), tokens'.map Token.shape = used.map Token.shape →
      4 * used.length + more ≤ fuel → nextKind rest' = nextKind rest →
        rule fuel (tokens' ++ rest') = .ok (value, rest')

/-- What the rules that call each other read. -/
structure Readings (fuel : ℕ) : Prop where
  term : ∀ {tokens rest node}, parseTerm fuel tokens = .ok (node, rest) →
    TermRead parseTerm node tokens rest
  and : ∀ {tokens rest node}, parseAnd fuel tokens = .ok (node, rest) →
    Reading parseAnd 1 node tokens rest
  andRest : ∀ {tokens rest nodes}, parseAndRest fuel tokens = .ok (nodes, rest) →
    Reading parseAndRest 1 nodes tokens rest
  or : ∀ {tokens rest node}, parseOr fuel tokens = .ok (node, rest) →
    Reading parseOr 2 node tokens rest
  orRest : ∀ {tokens rest nodes}, parseOrRest fuel tokens = .ok (nodes, rest) →
    Reading parseOrRest 1 nodes tokens rest

section
variable {fuel : ℕ} {tokens rest : List Token} {node : FilterNode} {nodes : List FilterNode}

/-- A term and the terms behind it. -/
theorem terms_reading {α : Type} (f : FilterNode → List FilterNode → α) {value : α}
    (ih : Readings fuel)
    (h : (do
      let (term, tokens) ← parseTerm fuel tokens
      let (terms, tokens) ← parseAndRest fuel tokens
      return (f term terms, tokens)) = .ok (value, rest)) :
    ∃ used, used ≠ [] ∧ used ++ rest = tokens ∧
      ∀ (fuel' : ℕ) (tokens' rest' : List Token), tokens'.map Token.shape = used.map Token.shape →
        4 * used.length ≤ fuel' → nextKind rest' = nextKind rest →
          (do
            let (term, tokens) ← parseTerm fuel' (tokens' ++ rest')
            let (terms, tokens) ← parseAndRest fuel' tokens
            return (f term terms, tokens)) = .ok (value, rest') := by
  obtain ⟨⟨term, behind⟩, hterm, h⟩ := bind_eq_ok h
  obtain ⟨⟨terms, behind'⟩, hterms, h⟩ := bind_eq_ok h
  cases h
  obtain ⟨first, hfirst, rfl, hbare, hread⟩ := ih.term hterm
  obtain ⟨others, rfl, hreads⟩ := ih.andRest hterms
  refine ⟨first ++ others, fun h => hfirst (List.append_eq_nil_iff.mp h).1, List.append_assoc _ _ _,
    fun fuel' tokens' rest' hshapes hfuel hnext => ?_⟩
  rw [List.map_append] at hshapes
  obtain ⟨first', others', rfl, hshapes, hshapes'⟩ := List.map_eq_append_iff.mp hshapes
  rw [List.length_append] at hfuel
  have hpos := List.length_pos_iff.mpr hfirst
  rw [List.append_assoc, hread fuel' first' (others' ++ rest') hshapes (by omega) fun h => by
    rw [startsComparison_congr (nextKind_append hshapes' hnext), hbare h]]
  show (parseAndRest fuel' (others' ++ rest') >>= _) = _
  rw [hreads fuel' others' rest' hshapes' (by omega) hnext]
  rfl

/-- An AND and the ones behind it. -/
theorem ands_reading {α : Type} (f : FilterNode → List FilterNode → α) {value : α}
    (ih : Readings fuel)
    (h : (do
      let (part, tokens) ← parseAnd fuel tokens
      let (parts, tokens) ← parseOrRest fuel tokens
      return (f part parts, tokens)) = .ok (value, rest)) :
    ∃ used, used ++ rest = tokens ∧
      ∀ (fuel' : ℕ) (tokens' rest' : List Token), tokens'.map Token.shape = used.map Token.shape →
        4 * used.length + 1 ≤ fuel' → nextKind rest' = nextKind rest →
          (do
            let (part, tokens) ← parseAnd fuel' (tokens' ++ rest')
            let (parts, tokens) ← parseOrRest fuel' tokens
            return (f part parts, tokens)) = .ok (value, rest') := by
  obtain ⟨⟨part, behind⟩, hpart, h⟩ := bind_eq_ok h
  obtain ⟨⟨parts, behind'⟩, hparts, h⟩ := bind_eq_ok h
  cases h
  obtain ⟨first, rfl, hread⟩ := ih.and hpart
  obtain ⟨others, rfl, hreads⟩ := ih.orRest hparts
  refine ⟨first ++ others, List.append_assoc _ _ _,
    fun fuel' tokens' rest' hshapes hfuel hnext => ?_⟩
  rw [List.map_append] at hshapes
  obtain ⟨first', others', rfl, hshapes, hshapes'⟩ := List.map_eq_append_iff.mp hshapes
  rw [List.length_append] at hfuel
  rw [List.append_assoc, hread fuel' first' (others' ++ rest') hshapes (by omega)
    (nextKind_append hshapes' hnext)]
  show (parseOrRest fuel' (others' ++ rest') >>= _) = _
  rw [hreads fuel' others' rest' hshapes' (by omega) hnext]
  rfl

theorem parseAnd_reading (ih : Readings fuel)
    (h : parseAnd (fuel + 1) tokens = .ok (node, rest)) : Reading parseAnd 1 node tokens rest := by
  rw [parseAnd] at h
  obtain ⟨used, -, hused, hread⟩ := terms_reading (joined .and) ih h
  refine ⟨used, hused, fun fuel' tokens' rest' hshapes hfuel hnext => ?_⟩
  obtain ⟨fuel', rfl⟩ : ∃ n, fuel' = n + 1 := ⟨fuel' - 1, by omega⟩
  rw [parseAnd]
  exact hread fuel' tokens' rest' hshapes (by omega) hnext

theorem parseOr_reading (ih : Readings fuel)
    (h : parseOr (fuel + 1) tokens = .ok (node, rest)) : Reading parseOr 2 node tokens rest := by
  rw [parseOr] at h
  obtain ⟨used, hused, hread⟩ := ands_reading (joined .or) ih h
  refine ⟨used, hused, fun fuel' tokens' rest' hshapes hfuel hnext => ?_⟩
  obtain ⟨fuel', rfl⟩ : ∃ n, fuel' = n + 1 := ⟨fuel' - 1, by omega⟩
  rw [parseOr]
  exact hread fuel' tokens' rest' hshapes (by omega) hnext

theorem endsAnd_congr {token token' : Token} (h : token'.kind = token.kind) :
    endsAnd token' = endsAnd token := by
  rw [endsAnd, endsAnd, isKeyword_congr h, isKeyword_congr h, h]

theorem parseAndRest_reading (ih : Readings fuel)
    (h : parseAndRest (fuel + 1) tokens = .ok (nodes, rest)) :
    Reading parseAndRest 1 nodes tokens rest := by
  obtain ⟨token, tail, rfl⟩ := exists_cons_of_peek h
  rw [parseAndRest, peek_bind] at h
  by_cases hends : endsAnd token = true
  · rw [if_pos hends] at h
    cases h
    refine ⟨[], rfl, fun fuel' tokens' rest' hshapes hfuel hnext => ?_⟩
    obtain ⟨token', tail', rfl, hkind⟩ := exists_cons_of_nextKind hnext
    obtain ⟨fuel', rfl⟩ : ∃ n, fuel' = n + 1 := ⟨fuel' - 1, by omega⟩
    rw [List.map_eq_nil_iff.mp hshapes]
    exact parseAndRest_ends fuel' (by rw [endsAnd_congr hkind, hends])
  simp only [if_neg hends] at h
  by_cases hand : token.isKeyword .and = true
  · rw [if_pos hand] at h
    obtain ⟨used, -, rfl, hread⟩ := terms_reading List.cons ih h
    refine ⟨token :: used, rfl, fun fuel' tokens' rest' hshapes hfuel hnext => ?_⟩
    obtain ⟨token', tokens', rfl, htoken, hshapes⟩ := eq_cons_of_shapes hshapes
    rw [List.length_cons] at hfuel
    obtain ⟨fuel', rfl⟩ : ∃ n, fuel' = n + 1 := ⟨fuel' - 1, by omega⟩
    rw [parseAndRest, List.cons_append, peek_bind, endsAnd_congr htoken.1]
    simp only [if_neg hends, isKeyword_congr htoken.1, if_pos hand, List.tail_cons]
    exact hread fuel' tokens' rest' hshapes (by omega) hnext
  · rw [if_neg hand] at h
    obtain ⟨used, hne, hused, hread⟩ := terms_reading List.cons ih h
    refine ⟨used, hused, fun fuel' tokens' rest' hshapes hfuel hnext => ?_⟩
    obtain ⟨first, used, rfl⟩ := List.exists_cons_of_ne_nil hne
    cases hused
    obtain ⟨token', tokens', rfl, htoken, hshapes'⟩ := eq_cons_of_shapes hshapes
    obtain ⟨fuel', rfl⟩ : ∃ n, fuel' = n + 1 := ⟨fuel' - 1, by omega⟩
    rw [parseAndRest, List.cons_append, peek_bind, endsAnd_congr htoken.1]
    simp only [if_neg hends, isKeyword_congr htoken.1, if_neg hand]
    exact hread fuel' (token' :: tokens') rest' hshapes (by omega) hnext

theorem parseOrRest_reading (ih : Readings fuel)
    (h : parseOrRest (fuel + 1) tokens = .ok (nodes, rest)) :
    Reading parseOrRest 1 nodes tokens rest := by
  obtain ⟨token, tail, rfl⟩ := exists_cons_of_peek h
  rw [parseOrRest, peek_bind] at h
  by_cases hor : token.isKeyword .or = true
  · rw [if_pos hor] at h
    obtain ⟨used, rfl, hread⟩ := ands_reading List.cons ih h
    refine ⟨token :: used, rfl, fun fuel' tokens' rest' hshapes hfuel hnext => ?_⟩
    obtain ⟨token', tokens', rfl, htoken, hshapes⟩ := eq_cons_of_shapes hshapes
    rw [List.length_cons] at hfuel
    obtain ⟨fuel', rfl⟩ : ∃ n, fuel' = n + 1 := ⟨fuel' - 1, by omega⟩
    rw [parseOrRest, List.cons_append, peek_bind, isKeyword_congr htoken.1, if_pos hor,
      List.tail_cons]
    exact hread fuel' tokens' rest' hshapes (by omega) hnext
  · simp only [if_neg hor] at h
    cases h
    refine ⟨[], rfl, fun fuel' tokens' rest' hshapes hfuel hnext => ?_⟩
    obtain ⟨token', tail', rfl, hkind⟩ := exists_cons_of_nextKind hnext
    obtain ⟨fuel', rfl⟩ : ∃ n, fuel' = n + 1 := ⟨fuel' - 1, by omega⟩
    rw [List.map_eq_nil_iff.mp hshapes]
    exact parseOrRest_ends fuel' (by rw [isKeyword_congr hkind, Bool.eq_false_iff.mpr hor])

/-- A token that is no word is no bare word, nor are tokens that it begins. -/
theorem isBareWord_of_kind {token : Token} (used : List Token) (hident : token.kind ≠ .ident)
    (hnot : token.kind ≠ .keyword .not) : isBareWord (token :: used) = false := by
  cases used with
  | nil => exact beq_eq_false_iff_ne.mpr hident
  | cons next used =>
    rw [isBareWord, Token.isKeyword, beq_eq_false_iff_ne.mpr hnot, Bool.false_and]
    exact List.cons_ne_nil _ _

theorem isBareWord_not {token : Token} {used : List Token} (hused : used ≠ [])
    (hnot : token.isKeyword .not = true) : isBareWord (token :: used) = isBareWord used := by
  rw [isBareWord, hnot, Bool.true_and]
  exact hused

/-- An expression in parentheses. -/
theorem parseTerm_open {token : Token} {tail : List Token} (hopen : token.kind = .lparen)
    (fuel : ℕ) :
    parseTerm (fuel + 1) (token :: tail) = (do
      let next ← peek tail
      if next.kind = .rparen then return (.group .and [], tail.tail)
      let (inner, tokens) ← parseOr fuel tail
      let close ← peek tokens
      if close.isKeyword .order then fail close orderByMisplaced
      if close.kind ≠ .rparen then fail close "Unclosed group — expected \")\"."
      return (parenthesized inner, tokens.tail)) := by
  have hkeyword (keyword : Keyword) : ¬token.isKeyword keyword = true := by
    rw [Token.isKeyword, hopen, beq_iff_eq]
    exact TokenKind.noConfusion
  rw [parseTerm, peek_bind, if_neg (hkeyword .not)]
  simp only [if_neg (hkeyword .order), if_pos hopen, List.tail_cons]

/-- A term in parentheses. -/
theorem parseParens_read {token : Token} {tail : List Token} (ih : Readings fuel)
    (hopen : token.kind = .lparen)
    (h : parseTerm (fuel + 1) (token :: tail) = .ok (node, rest)) :
    TermRead parseTerm node (token :: tail) rest := by
  rw [parseTerm_open hopen] at h
  obtain ⟨next, tail, rfl⟩ := exists_cons_of_peek h
  have hbare (used : List Token) : ¬isBareWord (token :: used) = true :=
    Bool.eq_false_iff.mp (isBareWord_of_kind used (by rw [hopen]; decide) (by rw [hopen]; decide))
  rw [peek_bind] at h
  by_cases hempty : next.kind = .rparen
  · rw [if_pos hempty] at h
    cases h
    refine ⟨[token, next], List.cons_ne_nil _ _, rfl, fun h => absurd h (hbare _),
      fun fuel' tokens' rest' hshapes hfuel _ => ?_⟩
    obtain ⟨token', tokens', rfl, htoken, hshapes⟩ := eq_cons_of_shapes hshapes
    obtain ⟨next', tokens', rfl, hnext, hnil⟩ := eq_cons_of_shapes hshapes
    obtain ⟨fuel', rfl⟩ : ∃ n, fuel' = n + 1 :=
      ⟨fuel' - 1, by rw [List.length_cons] at hfuel; omega⟩
    rw [List.map_eq_nil_iff.mp hnil, List.cons_append, parseTerm_open (htoken.1.trans hopen),
      List.singleton_append, peek_bind, if_pos (hnext.1.trans hempty)]
    rfl
  simp only [if_neg hempty] at h
  obtain ⟨⟨inner, behind⟩, hinner, h⟩ := bind_eq_ok h
  obtain ⟨close, behind, rfl⟩ := exists_cons_of_peek h
  simp only [peek_bind] at h
  by_cases horder : close.isKeyword .order = true
  · simp only [if_pos horder] at h
    cases h
  simp only [if_neg horder] at h
  by_cases hclose : close.kind = .rparen
  · rw [if_neg (not_not.mpr hclose)] at h
    cases h
    obtain ⟨used, hused, hread⟩ := ih.or hinner
    refine ⟨token :: (used ++ [close]), List.cons_ne_nil _ _, ?_, fun h => absurd h (hbare _),
      fun fuel' tokens' rest' hshapes hfuel _ => ?_⟩
    · rw [List.cons_append, List.append_assoc, List.singleton_append, List.tail_cons, hused]
    obtain ⟨token', tokens', rfl, htoken, hshapes⟩ := eq_cons_of_shapes hshapes
    rw [List.map_append] at hshapes
    obtain ⟨used', last', rfl, hshapes', hlast⟩ := List.map_eq_append_iff.mp hshapes
    obtain ⟨close', nil', rfl, hclose', hnil⟩ := eq_cons_of_shapes hlast
    rw [List.map_eq_nil_iff.mp hnil]
    simp only [List.length_append, List.length_cons, List.length_nil] at hfuel
    obtain ⟨fuel', rfl⟩ : ∃ n, fuel' = n + 1 := ⟨fuel' - 1, by omega⟩
    have hinner' := hread fuel' used' (close' :: rest') hshapes' (by omega)
      (congrArg some hclose'.1)
    have hkind : nextKind (used' ++ close' :: rest') = nextKind (next :: tail) := by
      rw [← hused]
      exact nextKind_append hshapes' (congrArg some hclose'.1)
    obtain ⟨next', tail', hcons, hnext⟩ := exists_cons_of_nextKind hkind
    rw [List.cons_append, parseTerm_open (htoken.1.trans hopen), List.append_assoc,
      List.singleton_append, hinner', hcons, peek_bind, if_neg (by rwa [hnext])]
    simp only [bind, Except.bind, peek_cons, isKeyword_congr hclose'.1, if_neg horder, hclose'.1,
      hclose]
    rfl
  · rw [if_pos hclose] at h
    cases h

theorem parseNot_read {token : Token} {tail : List Token} (ih : Readings fuel)
    (hnot : token.isKeyword .not = true)
    (h : parseTerm (fuel + 1) (token :: tail) = .ok (node, rest)) :
    TermRead parseTerm node (token :: tail) rest := by
  rw [parseTerm, peek_bind, if_pos hnot] at h
  obtain ⟨⟨child, behind⟩, hchild, h⟩ := bind_eq_ok h
  cases h
  obtain ⟨used, hne, rfl, hbare, hread⟩ := ih.term hchild
  refine ⟨token :: used, List.cons_ne_nil _ _, rfl, ?_,
    fun fuel' tokens' rest' hshapes hfuel hnext => ?_⟩
  · rw [isBareWord_not hne hnot]
    exact hbare
  · rw [isBareWord_not hne hnot] at hnext
    obtain ⟨token', tokens', rfl, htoken, hshapes⟩ := eq_cons_of_shapes hshapes
    rw [List.length_cons] at hfuel
    obtain ⟨fuel', rfl⟩ : ∃ n, fuel' = n + 1 := ⟨fuel' - 1, by omega⟩
    rw [List.cons_append, parseTerm, peek_bind, isKeyword_congr htoken.1, if_pos hnot,
      List.tail_cons, hread fuel' tokens' rest' hshapes (by omega) hnext]
    rfl

theorem parseTerm_read (ih : Readings fuel)
    (h : parseTerm (fuel + 1) tokens = .ok (node, rest)) : TermRead parseTerm node tokens rest := by
  obtain ⟨token, tail, rfl⟩ := exists_cons_of_peek h
  by_cases hopen : token.kind = .lparen
  · exact parseParens_read ih hopen h
  by_cases hnot : token.isKeyword .not = true
  · exact parseNot_read ih hnot h
  rw [parseTerm, peek_bind, if_neg hnot] at h
  by_cases horder : token.isKeyword .order = true
  · simp only [if_pos horder] at h
    cases h
  simp only [if_neg horder, if_neg hopen] at h
  obtain ⟨used, hne, hused, hbare, hread⟩ := parseAtom_read h
  refine ⟨used, hne, hused, hbare, fun fuel' tokens' rest' hshapes hfuel hnext => ?_⟩
  obtain ⟨first, used, rfl⟩ := List.exists_cons_of_ne_nil hne
  cases hused
  have hatom := hread fuel' tokens' rest' hshapes hfuel hnext
  obtain ⟨token', tokens', rfl, htoken, -⟩ := eq_cons_of_shapes hshapes
  obtain ⟨fuel', rfl⟩ : ∃ n, fuel' = n + 1 :=
    ⟨fuel' - 1, by rw [List.length_cons] at hfuel; omega⟩
  rw [List.cons_append, parseTerm, peek_bind, isKeyword_congr htoken.1, if_neg hnot]
  simp only [isKeyword_congr htoken.1, if_neg horder, htoken.1, if_neg hopen]
  exact hatom

end

theorem readings : ∀ fuel : ℕ, Readings fuel
  | 0 =>
    { term := fun h => by cases h
      and := fun h => by cases h
      andRest := fun h => by cases h
      or := fun h => by cases h
      orRest := fun h => by cases h }
  | fuel + 1 =>
    { term := parseTerm_read (readings fuel)
      and := parseAnd_reading (readings fuel)
      andRest := parseAndRest_reading (readings fuel)
      or := parseOr_reading (readings fuel)
      orRest := parseOrRest_reading (readings fuel) }

end TaskFlow.Tql
