import TaskFlow.TqlParse

/-! # Tokens tile the query, and the parser ends

* `tokenize_tiles`: the tokens lie one behind another with spaces between them, up to the sentinel
  at the end of the query, and what is wrong with the query is at one of them;
* `parseTokens_reported`: no rule reads past the sentinel or is short of fuel, and a rule that fails
  does so at one of its tokens.

The two give `tokens_tile`, for strings of UTF-16 code units.
-/
namespace TaskFlow.Tql

open TaskFlow.Filter

/-! ### One token -/

theorem scanOperator_prefix {c : Char} {rest : Text} {lexeme : Lexeme}
    (h : scanOperator c rest = some lexeme) : lexeme.text <+: c :: rest ∧ lexeme.text ≠ [] := by
  unfold scanOperator at h
  split at h <;> cases h <;> simp

theorem isPrefix_scanFraction (behind : Text) : scanFraction behind <+: behind := by
  unfold scanFraction
  split
  · split
    · exact List.cons_prefix_cons.mpr ⟨rfl, List.takeWhile_prefix _⟩
    · exact List.nil_prefix
  · exact List.nil_prefix

theorem scanFraction_of_ne {c : Char} (hc : c ≠ '.') (rest : Text) :
    scanFraction (c :: rest) = [] := by
  unfold scanFraction
  split
  next heq => exact absurd (List.cons.inj heq).1 hc
  · rfl

theorem signOf_append_drop (input : Text) :
    signOf input ++ input.drop (signOf input).length = input := by
  unfold signOf
  split <;> rfl

theorem drop_of_append {front behind text : Text} (h : front ++ behind = text) :
    text.drop front.length = behind := by
  rw [← h, List.drop_left]

/-- A number is its sign, its digits and its fraction. -/
theorem scanNumber_parts (input : Text) : ∃ whole fraction behind,
    signOf input ++ whole ++ fraction ++ behind = input ∧
    whole = (input.drop (signOf input).length).takeWhile Char.isDigit ∧
    fraction = scanFraction ((input.drop (signOf input).length).dropWhile Char.isDigit) ∧
    scanNumber input =
      numberLexeme (signOf input ++ whole ++ fraction) (!fraction.isEmpty) behind := by
  obtain ⟨behind, hbehind⟩ := isPrefix_scanFraction
    ((input.drop (signOf input).length).dropWhile Char.isDigit)
  refine ⟨_, _, behind, ?_, rfl, rfl, ?_⟩
  · rw [List.append_assoc, List.append_assoc, hbehind, List.takeWhile_append_dropWhile,
      signOf_append_drop]
  · rw [scanNumber, drop_of_append hbehind]

/-- The token of a number is the number, and its unit if it has one. -/
theorem numberLexeme_text (text : Text) (hasDecimal : Bool) (behind : Text) :
    ∃ unit, (numberLexeme text hasDecimal behind).text = text ++ unit ∧ unit <+: behind := by
  unfold numberLexeme
  split
  · exact ⟨['m', 'o'], rfl, by simp⟩
  · split
    · exact ⟨[_], rfl, by simp⟩
    · split <;> exact ⟨[], (List.append_nil _).symm, List.nil_prefix⟩
  · exact ⟨[], (List.append_nil _).symm, List.nil_prefix⟩

theorem isPrefix_scanNumber (input : Text) : (scanNumber input).text <+: input := by
  obtain ⟨whole, fraction, behind, hinput, -, -, hscan⟩ := scanNumber_parts input
  obtain ⟨unit, htext, tail, htail⟩ :=
    numberLexeme_text (signOf input ++ whole ++ fraction) (!fraction.isEmpty) behind
  exact ⟨tail, by rw [hscan, htext, List.append_assoc _ unit, htail, hinput]⟩

/-- A number that begins with a sign or a digit is not empty. -/
theorem scanNumber_ne_nil {c : Char} {rest : Text}
    (h : c = '+' ∨ c = '-' ∨ c.isDigit = true) : (scanNumber (c :: rest)).text ≠ [] := by
  obtain ⟨whole, fraction, behind, -, hwhole, -, hscan⟩ := scanNumber_parts (c :: rest)
  obtain ⟨unit, htext, -⟩ :=
    numberLexeme_text (signOf (c :: rest) ++ whole ++ fraction) (!fraction.isEmpty) behind
  rw [hscan, htext]
  rcases h with rfl | rfl | hdigit
  · exact List.cons_ne_nil _ _
  · exact List.cons_ne_nil _ _
  · have hsign : signOf (c :: rest) = [] := by
      unfold signOf
      split <;> first | rfl | simp_all
    rw [hsign] at hwhole ⊢
    rw [hwhole, List.length_nil, List.drop_zero, List.takeWhile_cons_of_pos hdigit]
    exact List.cons_ne_nil _ _

theorem scanString_prefix (quote : Char) (rest : Text) :
    (scanString quote rest).text <+: quote :: rest ∧ (scanString quote rest).text ≠ [] := by
  unfold scanString
  split
  · exact ⟨List.cons_prefix_cons.mpr ⟨rfl, List.take_prefix _ _⟩, List.cons_ne_nil _ _⟩
  · exact ⟨List.prefix_rfl, List.cons_ne_nil _ _⟩

theorem scanAt_prefix (rest : Text) :
    (scanAt rest).text <+: '@' :: rest ∧ (scanAt rest).text ≠ [] := by
  unfold scanAt
  split
  · split
    · exact ⟨List.cons_prefix_cons.mpr ⟨rfl, List.cons_prefix_cons.mpr
        ⟨rfl, List.takeWhile_prefix _⟩⟩, List.cons_ne_nil _ _⟩
    · exact ⟨by simp, List.cons_ne_nil _ _⟩
  · exact ⟨by simp, List.cons_ne_nil _ _⟩

theorem singleton_prefix (c : Char) (rest : Text) : [c] <+: c :: rest ∧ [c] ≠ [] :=
  ⟨List.cons_prefix_cons.mpr ⟨rfl, List.nil_prefix⟩, List.cons_ne_nil _ _⟩

/-- **A token is what stands at its place**, and is not empty. -/
theorem isPrefix_scanToken (c : Char) (rest : Text) :
    (scanToken c rest).text <+: c :: rest ∧ (scanToken c rest).text ≠ [] := by
  unfold scanToken
  split
  · exact scanOperator_prefix ‹_›
  · exact singleton_prefix c rest
  split
  · split
    · refine ⟨isPrefix_scanNumber _, scanNumber_ne_nil ?_⟩
      exact (‹c = '+' ∨ c = '-'›).imp_right .inl
    · exact singleton_prefix c rest
  split
  · exact ⟨isPrefix_scanNumber _, scanNumber_ne_nil (.inr (.inr ‹_›))⟩
  split
  · exact scanString_prefix c rest
  split
  · subst c
    exact scanAt_prefix rest
  split
  · exact ⟨List.cons_prefix_cons.mpr ⟨rfl, List.takeWhile_prefix _⟩, List.cons_ne_nil _ _⟩
  · exact singleton_prefix c rest

/-! ### The tokens of a text -/

/-- The tokens of a text that begins at a place: each where the one before it ends, or behind some
spaces, and the sentinel at the end. -/
inductive Tiles : ℕ → Text → List Token → Prop
  | eof (offset : ℕ) : Tiles offset [] [⟨.eof, [], offset⟩]
  | space {offset : ℕ} {c : Char} {rest : Text} {tokens : List Token} (hspace : isSpace c = true)
      (htiles : Tiles (offset + 1) rest tokens) : Tiles offset (c :: rest) tokens
  | token {offset : ℕ} {text rest : Text} {tokens : List Token} (kind : TokenKind)
      (htext : text ≠ [])
      (htiles : Tiles (offset + text.length) rest tokens) :
      Tiles offset (text ++ rest) (⟨kind, text, offset⟩ :: tokens)

theorem tokenizeFrom_tiles : ∀ (input : Text) (skip offset : ℕ), skip ≤ input.length →
    Tiles (offset + skip) (input.drop skip) (tokenizeFrom skip offset input).tokens
  | [], 0, offset, _ => .eof offset
  | [], _ + 1, _, hskip => absurd hskip (Nat.not_succ_le_zero _)
  | _ :: rest, skip + 1, offset, hskip => by
    have h := tokenizeFrom_tiles rest skip (offset + 1) (Nat.le_of_succ_le_succ hskip)
    rw [tokenizeFrom, List.drop_succ_cons]
    rwa [Nat.add_assoc, Nat.add_comm 1] at h
  | c :: rest, 0, offset, _ => by
    rw [tokenizeFrom, Nat.add_zero, List.drop_zero]
    by_cases hspace : isSpace c = true
    · rw [if_pos hspace]
      exact .space hspace (tokenizeFrom_tiles rest 0 (offset + 1) (Nat.zero_le _))
    · rw [if_neg hspace]
      obtain ⟨⟨behind, hbehind⟩, hne⟩ := isPrefix_scanToken c rest
      obtain ⟨d, word, hword⟩ := List.exists_cons_of_ne_nil hne
      rw [hword, List.cons_append, List.cons.injEq] at hbehind
      have hlength : word.length ≤ rest.length := by
        rw [← hbehind.2, List.length_append]
        exact Nat.le_add_right _ _
      have h := tokenizeFrom_tiles rest word.length (offset + 1) hlength
      rw [← hbehind.2, List.drop_left, hbehind.2, Nat.add_assoc, Nat.add_comm 1] at h
      simp only [TokenizeResult.push, hword, List.length_cons, Nat.add_sub_cancel]
      rw [← hbehind.1, ← hbehind.2, ← List.cons_append]
      rw [← hbehind.2] at h
      exact .token _ (List.cons_ne_nil _ _) h

theorem tokenize_tiles (input : Text) : Tiles 0 input (tokenize input).tokens :=
  tokenizeFrom_tiles input 0 0 (Nat.zero_le _)

namespace Tiles
variable {offset : ℕ} {input : Text} {tokens : List Token}

theorem within (h : Tiles offset input tokens) : ∀ token ∈ tokens,
    offset ≤ token.offset ∧ token.offset + token.length ≤ offset + input.length := by
  induction h with
  | eof offset =>
    intro token htoken
    cases List.mem_singleton.mp htoken
    exact ⟨le_rfl, le_rfl⟩
  | space hspace htiles ih =>
    intro token htoken
    have := ih token htoken
    rw [List.length_cons]
    omega
  | token kind htext htiles ih =>
    intro token htoken
    rw [List.length_append]
    rcases List.mem_cons.mp htoken with rfl | htoken
    · simp only [Token.length]
      omega
    · have := ih token htoken
      omega

theorem slice (h : Tiles offset input tokens) : ∀ token ∈ tokens,
    token.text = (input.drop (token.offset - offset)).take token.length := by
  induction h with
  | eof offset =>
    intro token htoken
    cases List.mem_singleton.mp htoken
    rfl
  | space hspace htiles ih =>
    intro token htoken
    have := htiles.within token htoken
    rw [ih token htoken]
    obtain ⟨ahead, hahead⟩ := Nat.exists_eq_add_of_le this.1
    rw [hahead, Nat.add_sub_cancel_left, Nat.add_assoc, Nat.add_sub_cancel_left, Nat.add_comm 1,
      List.drop_succ_cons]
  | token kind htext htiles ih =>
    intro token htoken
    rcases List.mem_cons.mp htoken with rfl | htoken
    · simp only [Nat.sub_self, List.drop_zero, Token.length, List.take_left]
    · have := htiles.within token htoken
      rw [ih token htoken]
      obtain ⟨ahead, hahead⟩ := Nat.exists_eq_add_of_le this.1
      rw [hahead, Nat.add_sub_cancel_left, Nat.add_assoc, Nat.add_sub_cancel_left,
        List.drop_append, List.drop_of_length_le (Nat.le_add_right _ _), Nat.add_sub_cancel_left,
        List.nil_append]

/-- No token begins before the one in front of it has ended. -/
theorem ordered (h : Tiles offset input tokens) : tokens.Pairwise fun token later =>
    token.offset < later.offset ∧ token.offset + token.length ≤ later.offset := by
  induction h with
  | eof offset => exact List.pairwise_singleton _ _
  | space hspace htiles ih => exact ih
  | token kind htext htiles ih =>
    refine List.pairwise_cons.mpr ⟨fun later hlater => ?_, ih⟩
    have hpos := List.length_pos_iff.mpr htext
    have := htiles.within later hlater
    simp only [Token.length]
    omega

theorem covered (h : Tiles offset input tokens) : ∀ (i : ℕ) (c : Char), input[i]? = some c →
    isSpace c = false →
    ∃! token, token ∈ tokens ∧ token.offset ≤ offset + i ∧
      offset + i < token.offset + token.length := by
  induction h with
  | eof offset => exact fun i c hc => absurd hc (by simp)
  | @space offset _ rest tokens hspace htiles ih =>
    intro i c hc hblank
    cases i with
    | zero =>
      cases hc
      rw [hspace] at hblank
      cases hblank
    | succ i =>
      rw [Nat.add_comm i, ← Nat.add_assoc]
      exact ih i c hc hblank
  | @token offset text rest tokens kind htext htiles ih =>
    intro i c hc hblank
    by_cases hi : i < text.length
    · refine ⟨_, ⟨List.mem_cons_self, Nat.le_add_right _ _, Nat.add_lt_add_left hi _⟩, ?_⟩
      rintro other ⟨hother, hle, hlt⟩
      rcases List.mem_cons.mp hother with rfl | hother
      · rfl
      · have := htiles.within other hother
        omega
    · rw [List.getElem?_append_right (Nat.le_of_not_lt hi)] at hc
      obtain ⟨token, ⟨htoken, hle, hlt⟩, huniq⟩ := ih _ c hc hblank
      refine ⟨token, ⟨List.mem_cons_of_mem _ htoken, by omega, by omega⟩, ?_⟩
      rintro other ⟨hother, hole, holt⟩
      rcases List.mem_cons.mp hother with rfl | hother
      · simp only [Token.length] at holt
        omega
      · exact huniq other ⟨hother, by omega, by omega⟩

end Tiles

/-- What is wrong with a text is at one of its tokens. -/
theorem tokenizeFrom_errors : ∀ (input : Text) (skip offset : ℕ),
    ∀ error ∈ (tokenizeFrom skip offset input).errors,
      ∃ token ∈ (tokenizeFrom skip offset input).tokens,
        token.offset = error.offset ∧ token.length = error.length
  | [], skip, offset, error, herror => by
    cases skip <;> exact absurd herror List.not_mem_nil
  | _ :: rest, skip + 1, offset, error, herror => tokenizeFrom_errors rest skip _ error herror
  | c :: rest, 0, offset, error, herror => by
    rw [tokenizeFrom] at herror ⊢
    split_ifs at herror ⊢ with hspace
    · exact tokenizeFrom_errors rest 0 _ error herror
    · rcases List.mem_append.mp herror with hhere | hbehind
      · obtain ⟨message, -, rfl⟩ := List.mem_map.mp hhere
        exact ⟨_, List.mem_cons_self, rfl, rfl⟩
      · obtain ⟨token, htoken, hat⟩ := tokenizeFrom_errors rest _ _ error hbehind
        exact ⟨token, List.mem_cons_of_mem _ htoken, hat⟩

/-! ### What a rule does -/

/-- Tokens with the sentinel at their end. -/
def Ended (tokens : List Token) : Prop := ∃ last ∈ tokens.getLast?, last.kind = .eof

theorem Ended.exists_cons {tokens : List Token} (h : Ended tokens) :
    ∃ token tail, tokens = token :: tail := by
  obtain ⟨last, hlast, -⟩ := h
  cases tokens with
  | nil => cases hlast
  | cons token tail => exact ⟨token, tail, rfl⟩

/-- What is behind a token other than the sentinel. -/
theorem Ended.tail {token : Token} {tail : List Token} (h : Ended (token :: tail))
    (hkind : token.kind ≠ .eof) : Ended tail := by
  obtain ⟨last, hlast, heof⟩ := h
  cases tail with
  | nil =>
    cases hlast
    exact absurd heof hkind
  | cons next tail => exact ⟨last, by rwa [List.getLast?_cons_cons] at hlast, heof⟩

theorem Tiles.ended {offset : ℕ} {input : Text} {tokens : List Token}
    (h : Tiles offset input tokens) : Ended tokens := by
  induction h with
  | eof offset => exact ⟨_, rfl, rfl⟩
  | space hspace htiles ih => exact ih
  | token kind htext htiles ih =>
    obtain ⟨last, hlast, hkind⟩ := ih
    exact ⟨last, by rw [List.getLast?_cons, hlast]; rfl, hkind⟩

/-- What a rule may do with tokens: it reads some, `count` at least, and leaves the others with the
sentinel, or it fails at one of them. -/
inductive Outcome {α : Type} (count : ℕ) (tokens : List Token) :
    Except Failure (α × List Token) → Prop
  | ok (value : α) {used rest : List Token} (htokens : used ++ rest = tokens)
      (hused : count ≤ used.length) (hrest : Ended rest) : Outcome count tokens (.ok (value, rest))
  | failed {token : Token} (htoken : token ∈ tokens) (message : String) :
      Outcome count tokens (.error (.parse ⟨token.offset, token.length, message⟩))

namespace Outcome
variable {α β : Type} {count count' : ℕ} {tokens rest : List Token}

theorem leave (h : Ended tokens) (value : α) : Outcome 0 tokens (pure (value, tokens)) :=
  .ok value (List.nil_append _) le_rfl h

/-- The rule reads what another rule left. -/
theorem behind {result : Except Failure (α × List Token)} (h : Outcome count rest result)
    {used : List Token} (htokens : used ++ rest = tokens)
    (hcount : count' ≤ used.length + count) : Outcome count' tokens result := by
  cases h with
  | ok value hused hle hrest =>
    refine .ok value (by rw [← htokens, ← hused, List.append_assoc]) ?_ hrest
    rw [List.length_append]
    omega
  | failed htoken message =>
    exact .failed (htokens ▸ List.mem_append_right used htoken) message

theorem mono {result : Except Failure (α × List Token)} (h : Outcome count tokens result)
    (hle : count' ≤ count) : Outcome count' tokens result :=
  h.behind (List.nil_append _) (by rw [List.length_nil]; omega)

theorem bind {result : Except Failure (α × List Token)}
    {next : α × List Token → Except Failure (β × List Token)} (h : Outcome count tokens result)
    (hnext : ∀ value rest, rest.length + count ≤ tokens.length → Ended rest →
      Outcome count' rest (next (value, rest))) :
    Outcome (count' + count) tokens (result >>= next) := by
  cases h with
  | ok value hused hle hrest =>
    refine (hnext value _ ?_ hrest).behind hused (by omega)
    rw [← hused, List.length_append]
    omega
  | failed htoken message => exact .failed htoken message

/-- A token is read, which is not the sentinel. -/
theorem next {token : Token} {result : Except Failure (α × List Token)}
    (h : Ended (token :: rest)) (hkind : token.kind ≠ .eof)
    (hrest : Ended rest → Outcome count rest result) :
    Outcome (count + 1) (token :: rest) result :=
  (hrest (h.tail hkind)).behind List.singleton_append (by rw [List.length_singleton]; omega)

theorem skip {token : Token} {result : Except Failure (α × List Token)}
    (h : Ended (token :: rest)) (hkind : token.kind ≠ .eof)
    (hrest : Ended rest → Outcome count rest result) : Outcome count (token :: rest) result :=
  (next h hkind hrest).mono (Nat.le_succ count)

end Outcome

theorem outcome_fail {α : Type} {count : ℕ} {tokens : List Token} {token : Token}
    (htoken : token ∈ tokens) (message : String) :
    Outcome count tokens (fail token message : Except Failure (α × List Token)) :=
  .failed htoken message

theorem peek_bind {α : Type} (token : Token) (tail : List Token) (next : Token → Except Failure α) :
    (peek (token :: tail) >>= next) = next token := rfl

/-! ### Values and comparisons -/

theorem tokenValue_cases (token : Token) :
    (token.kind ≠ .eof ∧ ∃ value, tokenValue token = .ok value) ∨
      ∃ message, tokenValue token = fail token message := by
  unfold tokenValue
  split <;> first
    | exact .inr ⟨_, rfl⟩
    | exact .inl ⟨by simp_all, _, rfl⟩

theorem parseValue_outcome {tokens : List Token} (h : Ended tokens) :
    Outcome 1 tokens (parseValue tokens) := by
  obtain ⟨token, tail, rfl⟩ := h.exists_cons
  rw [parseValue, peek_bind]
  rcases tokenValue_cases token with ⟨hkind, value, hvalue⟩ | ⟨message, hfail⟩
  · rw [hvalue]
    exact .next h hkind fun htail => .leave htail value
  · rw [hfail]
    exact outcome_fail List.mem_cons_self message

theorem parseItems_outcome : ∀ (fuel : ℕ) {tokens : List Token}, Ended tokens →
    tokens.length ≤ fuel → Outcome 1 tokens (parseItems fuel tokens)
  | 0, tokens, h, hfuel => by
    obtain ⟨token, tail, rfl⟩ := h.exists_cons
    exact absurd hfuel (Nat.not_succ_le_zero _)
  | fuel + 1, tokens, h, hfuel => by
    obtain ⟨token, tail, rfl⟩ := h.exists_cons
    rw [parseItems, peek_bind]
    split_ifs with hclose heof
    · exact .next h (by rw [hclose]; decide) fun htail => .leave htail []
    · exact outcome_fail List.mem_cons_self _
    refine (parseValue_outcome h).bind fun value rest hlength hrest => ?_
    obtain ⟨after, rest, rfl⟩ := hrest.exists_cons
    simp only [peek_bind]
    split
    next hkind => exact .skip hrest (by rw [hkind]; decide) fun htail => .leave htail _
    next hkind =>
      refine .skip hrest (by rw [hkind]; decide) fun htail => ?_
      simp only [List.length_cons] at hlength hfuel
      refine ((parseItems_outcome fuel htail (by omega)).mono (Nat.zero_le 1)).bind
        fun values rest _ hrest => ?_
      exact .leave hrest _
    · exact outcome_fail List.mem_cons_self _

theorem parseList_outcome {tokens : List Token} (h : Ended tokens) :
    Outcome 1 tokens (parseList tokens) := by
  obtain ⟨token, tail, rfl⟩ := h.exists_cons
  rw [parseList, peek_bind]
  split_ifs with hopen
  · exact .skip h (by rw [hopen]; decide) fun htail =>
      parseItems_outcome _ htail (Nat.le_succ tail.length)
  · exact outcome_fail List.mem_cons_self _

theorem compareValue_outcome {tokens : List Token} (h : Ended tokens) (field : Text)
    (operator : ScalarOperator) : Outcome 1 tokens (compareValue field operator tokens) :=
  (parseValue_outcome h).bind fun _ _ _ hrest => .leave hrest _

theorem ne_eof_of_isKeyword {token : Token} {keyword : Keyword}
    (h : token.isKeyword keyword = true) : token.kind ≠ .eof := by
  rw [Token.isKeyword, beq_iff_eq] at h
  rw [h]
  exact TokenKind.noConfusion

theorem parseEmpty_outcome {tokens : List Token} (h : Ended tokens) (field : Text) :
    Outcome 1 tokens (parseEmpty field tokens) := by
  obtain ⟨after, tail, rfl⟩ := h.exists_cons
  rw [parseEmpty, peek_bind]
  split_ifs with hempty hnot
  · exact .next h (ne_eof_of_isKeyword hempty) fun htail => .leave htail _
  · refine .next h (ne_eof_of_isKeyword hnot) fun htail => ?_
    obtain ⟨rest, tail, rfl⟩ := htail.exists_cons
    rw [List.tail_cons, peek_bind]
    split_ifs with hrest
    · exact .skip htail (ne_eof_of_isKeyword hrest) fun htail => .leave htail _
    · exact outcome_fail List.mem_cons_self _
  · exact outcome_fail List.mem_cons_self _

theorem parseComparison_outcome {tokens : List Token} (h : Ended tokens) (field : Text) :
    Outcome 1 tokens (parseComparison field tokens) := by
  obtain ⟨op, tail, rfl⟩ := h.exists_cons
  rw [parseComparison, peek_bind]
  split
  next hkind =>
    exact .skip h (by rw [hkind]; decide) fun htail => compareValue_outcome htail field _
  next hkind =>
    split
    · exact .skip h (by rw [hkind]; decide) fun htail => compareValue_outcome htail field _
    · exact outcome_fail List.mem_cons_self _
  next hkind =>
    exact .skip h (by rw [hkind]; decide) fun htail => compareValue_outcome htail field _
  next hkind =>
    refine .skip h (by rw [hkind]; decide) fun htail => ?_
    exact (parseList_outcome htail).bind fun _ _ _ hrest => .leave hrest _
  next hkind =>
    refine .skip h (by rw [hkind]; decide) fun htail => ?_
    obtain ⟨after, tail, rfl⟩ := htail.exists_cons
    rw [List.tail_cons, peek_bind]
    split_ifs with hin
    · refine .skip htail (ne_eof_of_isKeyword hin) fun htail => ?_
      exact (parseList_outcome htail).bind fun _ _ _ hrest => .leave hrest _
    · exact outcome_fail List.mem_cons_self _
  next hkind =>
    exact .skip h (by rw [hkind]; decide) fun htail => parseEmpty_outcome htail field
  · exact outcome_fail List.mem_cons_self _

theorem freeText_cases (token : Token) :
    (∃ node, freeText token = .ok node) ∨ ∃ message, freeText token = fail token message := by
  unfold freeText
  split <;> first
    | exact .inl ⟨_, rfl⟩
    | exact .inr ⟨_, rfl⟩

theorem parseAtom_outcome {tokens : List Token} (h : Ended tokens) :
    Outcome 1 tokens (parseAtom tokens) := by
  obtain ⟨token, tail, rfl⟩ := h.exists_cons
  rw [parseAtom, peek_bind]
  split_ifs with hfield
  · exact .skip h (by rw [hfield.1]; decide) fun htail => parseComparison_outcome htail _
  have hfree (hkind : token.kind ≠ .eof) : Outcome 1 (token :: tail)
      (freeText token >>= fun node => pure (node, tail)) := by
    rcases freeText_cases token with ⟨node, hnode⟩ | ⟨message, hfail⟩
    · rw [hnode]
      exact .next h hkind fun htail => .leave htail node
    · rw [hfail]
      exact outcome_fail List.mem_cons_self message
  split
  iterate 5 next hkind => exact hfree (by rw [hkind]; exact TokenKind.noConfusion)
  · exact outcome_fail List.mem_cons_self _
  · exact outcome_fail List.mem_cons_self _

/-! ### Terms -/

/-- What the rules that call each other do with enough fuel for the tokens. -/
structure Outcomes (fuel : ℕ) : Prop where
  term : ∀ {tokens}, Ended tokens → 4 * tokens.length ≤ fuel →
    Outcome 1 tokens (parseTerm fuel tokens)
  and : ∀ {tokens}, Ended tokens → 4 * tokens.length + 1 ≤ fuel →
    Outcome 1 tokens (parseAnd fuel tokens)
  andRest : ∀ {tokens}, Ended tokens → 4 * tokens.length + 1 ≤ fuel →
    Outcome 0 tokens (parseAndRest fuel tokens)
  or : ∀ {tokens}, Ended tokens → 4 * tokens.length + 2 ≤ fuel →
    Outcome 1 tokens (parseOr fuel tokens)
  orRest : ∀ {tokens}, Ended tokens → 4 * tokens.length ≤ fuel →
    Outcome 0 tokens (parseOrRest fuel tokens)

section
variable {fuel : ℕ} {tokens : List Token}

/-- The closing parenthesis behind an expression. -/
theorem parseClose_outcome (h : Ended tokens) (inner : FilterNode) :
    Outcome 0 tokens (do
      let close ← peek tokens
      if close.isKeyword .order then fail close orderByMisplaced
      if close.kind ≠ .rparen then fail close "Unclosed group — expected \")\"."
      return (parenthesized inner, tokens.tail)) := by
  obtain ⟨close, rest, rfl⟩ := h.exists_cons
  rw [peek_bind]
  by_cases horder : close.isKeyword .order = true
  · simp only [if_pos horder]
    exact outcome_fail List.mem_cons_self _
  simp only [if_neg horder]
  by_cases hkind : close.kind = .rparen
  · rw [if_neg (not_not.mpr hkind)]
    exact .skip h (by rw [hkind]; decide) fun htail => .leave htail _
  · rw [if_pos hkind]
    exact outcome_fail List.mem_cons_self _

theorem parseTerm_outcome (ih : Outcomes fuel) (h : Ended tokens)
    (hfuel : 4 * tokens.length ≤ fuel + 1) : Outcome 1 tokens (parseTerm (fuel + 1) tokens) := by
  obtain ⟨token, tail, rfl⟩ := h.exists_cons
  rw [List.length_cons] at hfuel
  rw [parseTerm, peek_bind]
  by_cases hnot : token.isKeyword .not = true
  · rw [if_pos hnot]
    refine .skip h (ne_eof_of_isKeyword hnot) fun htail => ?_
    exact (ih.term htail (by omega)).bind fun _ _ _ hrest => .leave hrest _
  rw [if_neg hnot]
  by_cases horder : token.isKeyword .order = true
  · simp only [if_pos horder]
    exact outcome_fail List.mem_cons_self _
  simp only [if_neg horder]
  by_cases hopen : token.kind = .lparen
  · rw [if_pos hopen]
    refine .next h (by rw [hopen]; decide) fun htail => ?_
    obtain ⟨next, tail, rfl⟩ := htail.exists_cons
    rw [List.tail_cons, peek_bind]
    rw [List.length_cons] at hfuel
    by_cases hclose : (next).kind = .rparen
    · rw [if_pos hclose]
      exact .skip htail (by rw [hclose]; decide) fun htail => .leave htail _
    rw [if_neg hclose]
    refine ((ih.or htail (by rw [List.length_cons]; omega)).mono (Nat.zero_le 1)).bind
      fun inner rest _ hrest => ?_
    exact parseClose_outcome hrest inner
  · rw [if_neg hopen]
    exact parseAtom_outcome h

theorem parseAnd_outcome (ih : Outcomes fuel) (h : Ended tokens)
    (hfuel : 4 * tokens.length + 1 ≤ fuel + 1) :
    Outcome 1 tokens (parseAnd (fuel + 1) tokens) := by
  rw [parseAnd]
  refine (ih.term h (by omega)).bind fun first rest hlength hrest => ?_
  exact (ih.andRest hrest (by omega)).bind fun parts rest _ hrest => .leave hrest _

theorem parseAndRest_outcome (ih : Outcomes fuel) (h : Ended tokens)
    (hfuel : 4 * tokens.length + 1 ≤ fuel + 1) :
    Outcome 0 tokens (parseAndRest (fuel + 1) tokens) := by
  obtain ⟨token, tail, rfl⟩ := h.exists_cons
  rw [List.length_cons] at hfuel
  rw [parseAndRest, peek_bind]
  have hterms {rest : List Token} (hrest : Ended rest) (hlength : rest.length ≤ tail.length + 1) :
      Outcome 0 rest (parseTerm fuel rest >>= fun first =>
        parseAndRest fuel first.2 >>= fun others => pure (first.1 :: others.1, others.2)) := by
    have hread : Outcome 1 rest (parseTerm fuel rest) := ih.term hrest (by omega)
    refine Outcome.mono (hread.bind fun term rest' hlength' hrest' => ?_) (Nat.zero_le 1)
    exact (ih.andRest hrest' (by omega)).bind fun _ _ _ hrest => .leave hrest _
  split_ifs with hends hand
  · exact .leave h _
  · exact .skip h (ne_eof_of_isKeyword hand) fun htail => hterms htail (Nat.le_succ _)
  · exact hterms h le_rfl

theorem parseOr_outcome (ih : Outcomes fuel) (h : Ended tokens)
    (hfuel : 4 * tokens.length + 2 ≤ fuel + 1) :
    Outcome 1 tokens (parseOr (fuel + 1) tokens) := by
  rw [parseOr]
  refine (ih.and h (by omega)).bind fun first rest hlength hrest => ?_
  exact (ih.orRest hrest (by omega)).bind fun parts rest _ hrest => .leave hrest _

theorem parseOrRest_outcome (ih : Outcomes fuel) (h : Ended tokens)
    (hfuel : 4 * tokens.length ≤ fuel + 1) :
    Outcome 0 tokens (parseOrRest (fuel + 1) tokens) := by
  obtain ⟨token, tail, rfl⟩ := h.exists_cons
  rw [List.length_cons] at hfuel
  rw [parseOrRest, peek_bind]
  split_ifs with hor
  · refine .skip h (ne_eof_of_isKeyword hor) fun htail => ?_
    refine ((ih.and htail (by omega)).mono (Nat.zero_le 1)).bind fun part rest hlength hrest => ?_
    exact (ih.orRest hrest (by omega)).bind fun _ _ _ hrest => .leave hrest _
  · exact .leave h _

end

theorem outcomes : ∀ fuel : ℕ, Outcomes fuel
  | 0 =>
    have hpos {tokens : List Token} (h : Ended tokens) : 0 < tokens.length := by
      obtain ⟨token, tail, rfl⟩ := h.exists_cons
      exact Nat.succ_pos _
    { term := fun h hfuel => absurd hfuel (by have := hpos h; omega)
      and := fun h hfuel => absurd hfuel (by omega)
      andRest := fun h hfuel => absurd hfuel (by omega)
      or := fun h hfuel => absurd hfuel (by omega)
      orRest := fun h hfuel => absurd hfuel (by have := hpos h; omega) }
  | fuel + 1 =>
    { term := parseTerm_outcome (outcomes fuel)
      and := parseAnd_outcome (outcomes fuel)
      andRest := parseAndRest_outcome (outcomes fuel)
      or := parseOr_outcome (outcomes fuel)
      orRest := parseOrRest_outcome (outcomes fuel) }

/-! ### Queries -/

theorem parseOrderBy_outcome {tokens : List Token} (h : Ended tokens) :
    Outcome 0 tokens (parseOrderBy tokens) := by
  obtain ⟨token, tail, rfl⟩ := h.exists_cons
  rw [parseOrderBy, peek_bind]
  split_ifs with horder
  · refine .skip h (ne_eof_of_isKeyword horder) fun htail => ?_
    obtain ⟨by_, tail, rfl⟩ := htail.exists_cons
    rw [List.tail_cons, peek_bind]
    split_ifs with hby
    · refine .skip htail (ne_eof_of_isKeyword hby) fun htail => ?_
      obtain ⟨field, tail, rfl⟩ := htail.exists_cons
      rw [List.tail_cons, peek_bind]
      split_ifs with hfield
      · refine .skip htail (by rw [hfield]; decide) fun htail => ?_
        obtain ⟨next, tail, rfl⟩ := htail.exists_cons
        rw [List.tail_cons, peek_bind, parseDirection]
        split_ifs with hasc hdesc
        · exact .skip htail (ne_eof_of_isKeyword hasc) fun htail => .leave htail _
        · exact .skip htail (ne_eof_of_isKeyword hdesc) fun htail => .leave htail _
        · exact .leave htail _
      · exact outcome_fail List.mem_cons_self _
    · exact outcome_fail List.mem_cons_self _
  · exact .leave h _

/-- A result, or a failure at one of the tokens. -/
def Reported {α : Type} (tokens : List Token) (result : Except Failure α) : Prop :=
  (∃ value, result = .ok value) ∨ ∃ token ∈ tokens, ∃ message, result = fail token message

theorem Outcome.reported {α β : Type} {count : ℕ} {tokens : List Token}
    {result : Except Failure (α × List Token)} {next : α × List Token → Except Failure β}
    (h : Outcome count tokens result)
    (hnext : ∀ value rest, Ended rest → Reported rest (next (value, rest))) :
    Reported tokens (result >>= next) := by
  cases h with
  | @ok value used rest htokens hused hrest =>
    rcases hnext value rest hrest with hok | ⟨token, htoken, message, hfail⟩
    · exact .inl hok
    · exact .inr ⟨token, htokens ▸ List.mem_append_right used htoken, message, hfail⟩
  | @failed token htoken message => exact .inr ⟨token, htoken, message, rfl⟩

/-- Behind the filter there may be an order, and nothing else. -/
theorem parseEnd_reported {tokens : List Token} (h : Ended tokens) (filter : Option FilterNode) :
    Reported tokens (do
      let (orderBy, tokens) ← parseOrderBy tokens
      let trailing ← peek tokens
      if trailing.kind = .eof then return (filter, orderBy)
      fail trailing ("Unexpected " ++ describe trailing ++ ".")) := by
  refine (parseOrderBy_outcome h).reported fun orderBy rest hrest => ?_
  obtain ⟨trailing, tail, rfl⟩ := hrest.exists_cons
  simp only [peek_bind]
  split_ifs
  · exact .inl ⟨_, rfl⟩
  · exact .inr ⟨trailing, List.mem_cons_self, _, rfl⟩

/-- **A query is read, or fails at one of its tokens.** -/
theorem parseTokens_reported {tokens : List Token} (h : Ended tokens) :
    Reported tokens (parseTokens tokens) := by
  obtain ⟨first, tail, rfl⟩ := h.exists_cons
  rw [parseTokens, peek_bind]
  by_cases hempty : first.kind = .eof ∨ first.isKeyword .order
  · simp only [if_pos hempty]
    exact parseEnd_reported h none
  · simp only [if_neg hempty]
    have hfuel : 4 * (first :: tail).length + 2 ≤ fuelFor (first :: tail) := by
      rw [fuelFor]
      omega
    exact ((outcomes _).or h hfuel).reported fun filter rest hrest =>
      parseEnd_reported hrest (some filter)

theorem parse_reported (input : Text) :
    (∃ filter orderBy, parse input = .ok filter orderBy) ∨
      ∃ errors, parse input = .failed errors ∧ errors ≠ [] ∧
        ∀ error ∈ errors, error.offset + error.length ≤ input.length := by
  have htiles := tokenize_tiles input
  rw [parse]
  split_ifs with herrors
  · rcases parseTokens_reported htiles.ended with ⟨query, hquery⟩ | ⟨token, htoken, message, hfail⟩
    · exact .inl ⟨query.1, query.2, by simp only [hquery]⟩
    · refine .inr ⟨[⟨token.offset, token.length, message⟩], by simp only [hfail, fail],
        List.cons_ne_nil _ _, fun error herror => ?_⟩
      cases List.mem_singleton.mp herror
      exact (htiles.within token htoken).2.trans (Nat.zero_add _).le
  · refine .inr ⟨_, rfl, fun h => herrors (List.map_eq_nil_iff.mp h), fun error herror => ?_⟩
    obtain ⟨lexError, hlexError, rfl⟩ := List.mem_map.mp herror
    obtain ⟨token, htoken, hoffset, hlength⟩ := tokenizeFrom_errors input 0 0 lexError hlexError
    have := (htiles.within token htoken).2
    simp only
    omega

/-! ### Strings -/

/-- A code unit as a character: a surrogate, which is none, is one beyond the first plane. -/
def ofCodeUnit (unit : UInt16) : Char :=
  if unit.toNat.isValidChar then Char.ofNat unit.toNat else Char.ofNat (0x10000 + unit.toNat)

/-- How tokens lie in a string. -/
structure Tiling (units : List UInt16) (tokens : List Token) : Prop where
  /-- They are in order, and do not overlap. -/
  ordered : tokens.Pairwise fun token later =>
    token.offset < later.offset ∧ token.offset + token.length ≤ later.offset
  /-- Each is the string's part at its place. -/
  slice : ∀ token ∈ tokens, token.offset + token.length ≤ units.length ∧
    token.text = ((units.drop token.offset).take token.length).map ofCodeUnit
  /-- What is no space is in one of them, and in no other. -/
  covered : ∀ i unit, units[i]? = some unit → isSpace (ofCodeUnit unit) = false →
    ∃! token, token ∈ tokens ∧ token.offset ≤ i ∧ i < token.offset + token.length

/-- **The tokens tile the string; and it is parsed, or fails at places within it.** -/
theorem tokens_tile (units : List UInt16) :
    Tiling units (tokenize (units.map ofCodeUnit)).tokens ∧
      ((∃ filter orderBy, parse (units.map ofCodeUnit) = .ok filter orderBy) ∨
        ∃ errors, parse (units.map ofCodeUnit) = .failed errors ∧ errors ≠ [] ∧
          ∀ error ∈ errors, error.offset + error.length ≤ units.length) := by
  have htiles := tokenize_tiles (units.map ofCodeUnit)
  have hparse := parse_reported (units.map ofCodeUnit)
  rw [List.length_map] at hparse
  refine ⟨⟨htiles.ordered, fun token htoken => ⟨?_, ?_⟩, fun i unit hunit hspace => ?_⟩, hparse⟩
  · have := (htiles.within token htoken).2
    rw [List.length_map] at this
    omega
  · rw [List.map_take, List.map_drop]
    exact htiles.slice token htoken
  · have h := htiles.covered i (ofCodeUnit unit) (by rw [List.getElem?_map, hunit]; rfl) hspace
    simpa only [Nat.zero_add] using h

end TaskFlow.Tql
