import TaskFlow.RelativeDate
import TaskFlow.TqlScan
import TaskFlow.TqlTiles

/-! # Relative tokens and symbolic dates

The tokenizer has a date offset of its own: a number and a unit, where `isSymbolicDate` wants a
sign, digits and a unit.  A relative token is a symbolic date unless the number has no sign, or has
a fraction and `mo` behind it, which the scan does not refuse as it refuses other units
(`relative_symbolic_iff`).  What `isSymbolicDate` accepts is one token (`symbolic_token`).
-/
namespace TaskFlow.Tql

open TaskFlow.Filter

/-! ### Where tokens begin -/

/-- The input from each place on where a token begins. -/
def tokenStarts : (skip : ℕ) → Text → List Text
  | _, [] => []
  | skip + 1, _ :: rest => tokenStarts skip rest
  | 0, c :: rest =>
    if isSpace c then tokenStarts 0 rest
    else (c :: rest) :: tokenStarts ((scanToken c rest).text.length - 1) rest

/-- Each token but the sentinel is scanned at its start. -/
theorem tokenizeFrom_starts (P : TokenKind → Text → Prop) (heof : P .eof []) :
    ∀ (input : Text) (skip offset : ℕ),
      (∀ token ∈ (tokenizeFrom skip offset input).tokens, P token.kind token.text) ↔
        ∀ c rest, c :: rest ∈ tokenStarts skip input →
          P (scanToken c rest).kind (scanToken c rest).text
  | [], 0, _ => by simp [tokenizeFrom, tokenStarts, heof]
  | [], _ + 1, _ => by simp [tokenizeFrom, tokenStarts, heof]
  | _ :: rest, skip + 1, offset => tokenizeFrom_starts P heof rest skip (offset + 1)
  | c :: rest, 0, offset => by
    rw [tokenizeFrom, tokenStarts]
    by_cases hspace : isSpace c = true
    · rw [if_pos hspace, if_pos hspace]
      exact tokenizeFrom_starts P heof rest 0 (offset + 1)
    · have ih := tokenizeFrom_starts P heof rest ((scanToken c rest).text.length - 1) (offset + 1)
      rw [if_neg hspace, if_neg hspace]
      rw [TokenizeResult.push, List.forall_mem_cons, ih]
      simp only [List.mem_cons, List.cons.injEq]
      constructor
      · rintro ⟨hfirst, hrest⟩ d tail (⟨rfl, rfl⟩ | hmem)
        · exact hfirst
        · exact hrest d tail hmem
      · exact fun h => ⟨h c rest (.inl ⟨rfl, rfl⟩), fun d tail hmem => h d tail (.inr hmem)⟩

/-! ### Numbers with a unit -/

/-- What is behind the sign of a number. -/
def unsigned (start : Text) : Text := start.drop (signOf start).length

/-- What is behind the digits of a number. -/
def behindDigits (start : Text) : Text := (unsigned start).dropWhile Char.isDigit

def startsNumber (start : Text) : Bool := (unsigned start).head?.any Char.isDigit

/-- The units of a date offset. -/
def units : List Text := [['d'], ['w'], ['m', 'o']]

/-- Digits and a unit, without a sign. -/
def UnsignedOffset (start : Text) : Prop :=
  startsNumber start = true ∧ signOf start = [] ∧ ∃ unit ∈ units, unit <+: behindDigits start

/-- A number with a fraction, and `mo`. -/
def FractionalMonths (start : Text) : Prop :=
  startsNumber start = true ∧ scanFraction (behindDigits start) ≠ [] ∧
    ['m', 'o'] <+: (behindDigits start).drop (scanFraction (behindDigits start)).length

theorem signOf_cases (c : Char) (rest : Text) :
    ((c = '+' ∨ c = '-') ∧ signOf (c :: rest) = [c]) ∨
      (¬(c = '+' ∨ c = '-') ∧ signOf (c :: rest) = []) := by
  unfold signOf
  split
  · simp_all
  · simp_all
  next h1 h2 =>
    refine .inr ⟨?_, rfl⟩
    rintro (rfl | rfl)
    · exact h1 rest rfl
    · exact h2 rest rfl

/-- A token is scanned as a number where a number starts. -/
theorem scanToken_number {c : Char} {rest : Text} (h : startsNumber (c :: rest) = true) :
    scanToken c rest = scanNumber (c :: rest) := by
  rw [startsNumber, unsigned] at h
  rcases signOf_cases c rest with ⟨hc, hsign⟩ | ⟨-, hsign⟩
  · rw [hsign, List.length_singleton, List.drop_one, List.tail_cons] at h
    have hscan : scanOperator c rest = none ∧ punctuation c = none := by
      rcases hc with rfl | rfl <;> exact ⟨rfl, rfl⟩
    rw [scanToken, hscan.1, hscan.2]
    simp only [if_pos hc, if_pos h]
  · rw [hsign, List.length_nil, List.drop_zero] at h
    exact scanToken_digit rest h

theorem scanOperator_kind {c : Char} {rest : Text} {lexeme : Lexeme}
    (h : scanOperator c rest = some lexeme) : lexeme.kind ≠ .relative := by
  unfold scanOperator at h
  split at h <;> cases h <;> exact TokenKind.noConfusion

theorem punctuation_kind {c : Char} {kind : TokenKind} (h : punctuation c = some kind) :
    kind ≠ .relative := by
  unfold punctuation at h
  split at h <;> cases h <;> exact TokenKind.noConfusion

theorem startsNumber_of_relative {c : Char} {rest : Text}
    (h : (scanToken c rest).kind = .relative) : startsNumber (c :: rest) = true := by
  rw [startsNumber, unsigned]
  unfold scanToken at h
  split at h
  next hoperator => exact absurd h (scanOperator_kind hoperator)
  next hkind => exact absurd h (punctuation_kind hkind)
  rcases signOf_cases c rest with ⟨hc, hsign⟩ | ⟨hc, hsign⟩
  · rw [if_pos hc] at h
    rw [hsign]
    split at h
    next hdigit => exact hdigit
    · cases h
  rw [if_neg hc] at h
  rw [hsign]
  split at h
  next hdigit => exact hdigit
  split at h
  · unfold scanString at h
    split at h <;> cases h
  split at h
  · unfold scanAt at h
    split at h
    · split at h <;> cases h
    · cases h
  split at h
  · change wordKind _ = _ at h
    unfold wordKind at h
    split at h <;> cases h
  · cases h

/-- The text of a relative token. -/
theorem numberLexeme_relative {text behind unit : Text} {hasDecimal : Bool} (hunit : unit ∈ units)
    (hbehind : unit <+: behind) (h : hasDecimal = true → unit = ['m', 'o']) :
    numberLexeme text hasDecimal behind = ⟨.relative, text ++ unit, none⟩ := by
  obtain ⟨tail, rfl⟩ := hbehind
  simp only [units, List.mem_cons, List.not_mem_nil, or_false] at hunit
  rcases hunit with rfl | rfl | rfl
  · cases hasDecimal
    · rfl
    · cases h rfl
  · cases hasDecimal
    · rfl
    · cases h rfl
  · rfl

/-- A number is a relative token where a unit follows it; behind a fraction that is `mo`. -/
theorem numberLexeme_relative_iff (text : Text) (hasDecimal : Bool) (behind : Text) :
    (numberLexeme text hasDecimal behind).kind = .relative ↔
      ∃ unit ∈ units, unit <+: behind ∧ (hasDecimal = true → unit = ['m', 'o']) := by
  constructor
  · intro h
    unfold numberLexeme at h
    split at h
    next tail => exact ⟨['m', 'o'], by simp [units], ⟨tail, rfl⟩, fun _ => rfl⟩
    next unit tail _ =>
      split at h
      next hunit =>
        refine ⟨[unit], ?_, ⟨tail, rfl⟩, fun hdecimal => ?_⟩
        · rcases hunit.1 with rfl | rfl <;> simp [units]
        · rw [hunit.2] at hdecimal
          cases hdecimal
      · split at h <;> cases h
    · cases h
  · rintro ⟨unit, hunit, hbehind, hdecimal⟩
    rw [numberLexeme_relative hunit hbehind hdecimal]

/-! ### Symbolic dates -/

/-- A unit begins with no digit and no point. -/
theorem unit_head {unit : Text} (h : unit ∈ units) :
    ∃ c tail, unit = c :: tail ∧ c.isDigit = false ∧ c ≠ '.' ∧ (OffsetUnit.ofText unit).isSome := by
  simp only [units, List.mem_cons, List.not_mem_nil, or_false] at h
  rcases h with rfl | rfl | rfl <;> exact ⟨_, _, rfl, rfl, by decide, rfl⟩

theorem relativeOffset_unit {c : Char} {whole unit : Text} (hc : c = '+' ∨ c = '-')
    (hne : whole ≠ []) (hwhole : ∀ d ∈ whole, d.isDigit = true) (hunit : unit ∈ units) :
    (relativeOffset (c :: (whole ++ unit))).isSome = true := by
  obtain ⟨u, tail, rfl, hu, -, hsome⟩ := unit_head hunit
  have hhead : ∀ d ∈ (u :: tail).head?, d.isDigit = false := by
    intro d hd
    cases hd
    exact hu
  obtain ⟨d, ds, rfl⟩ := List.exists_cons_of_ne_nil hne
  obtain ⟨offsetUnit, hofText⟩ := Option.isSome_iff_exists.mp hsome
  rw [relativeOffset, takeWhile_append hwhole hhead, dropWhile_append hwhole hhead, hofText]
  rcases hc with rfl | rfl <;> rfl

theorem isSymbolicDate_of_ne_at {c : Char} (hc : c ≠ '@') (rest : Text) :
    isSymbolicDate (c :: rest) = (relativeOffset (c :: rest)).isSome := by
  have htoday : c :: rest ≠ TODAY := fun h => hc (List.cons.inj h).1
  have hnow : c :: rest ≠ NOW := fun h => hc (List.cons.inj h).1
  rw [isSymbolicDate, beq_eq_false_iff_ne.mpr htoday, beq_eq_false_iff_ne.mpr hnow,
    Bool.false_or, Bool.false_or]

/-- A text that is symbolic begins with an at sign or with a sign. -/
theorem isSymbolicDate_digit {c : Char} (hc : c.isDigit = true) (rest : Text) :
    isSymbolicDate (c :: rest) = false := by
  have hat : c ≠ '@' := ne_of_class hc (by decide)
  have hsign : offsetSign c = none := by
    unfold offsetSign
    split
    · cases hc
    · cases hc
    · rfl
  rw [isSymbolicDate_of_ne_at hat, relativeOffset, hsign]
  rfl

theorem isSymbolicDate_fraction {c : Char} {whole : Text} (hc : c = '+' ∨ c = '-')
    (hwhole : ∀ d ∈ whole, d.isDigit = true) (tail : Text) :
    isSymbolicDate (c :: (whole ++ '.' :: tail)) = false := by
  have hat : c ≠ '@' := by rcases hc with rfl | rfl <;> decide
  have hhead : ∀ d ∈ ('.' :: tail).head?, d.isDigit = false := by
    intro d hd
    cases hd
    rfl
  have hunit : OffsetUnit.ofText ('.' :: tail) = none := by
    unfold OffsetUnit.ofText
    split <;> simp_all
  rw [isSymbolicDate_of_ne_at hat, relativeOffset, takeWhile_append hwhole hhead,
    dropWhile_append hwhole hhead, hunit]
  split <;> first | rfl | simp_all

theorem scanFraction_cases (behind : Text) :
    scanFraction behind = [] ∨ ∃ tail, scanFraction behind = '.' :: tail := by
  unfold scanFraction
  split
  · split
    · exact .inr ⟨_, rfl⟩
    · exact .inl rfl
  · exact .inl rfl

/-- A relative token is symbolic if its number has a sign and no fraction. -/
theorem scanNumber_symbolic_iff {c : Char} {rest : Text} (hnumber : startsNumber (c :: rest) = true)
    (hrelative : (scanNumber (c :: rest)).kind = .relative) :
    isSymbolicDate (scanNumber (c :: rest)).text = true ↔
      signOf (c :: rest) ≠ [] ∧ scanFraction (behindDigits (c :: rest)) = [] := by
  obtain ⟨whole, fraction, behind, hstart, hwhole, hfraction, hscan⟩ := scanNumber_parts (c :: rest)
  rw [hscan, numberLexeme_relative_iff] at hrelative
  obtain ⟨unit, hunit, hbehind, hdecimal⟩ := hrelative
  rw [hscan, numberLexeme_relative hunit hbehind hdecimal]
  have hdigits : ∀ d ∈ whole, d.isDigit = true := by
    rw [hwhole]
    exact fun d hd => List.mem_takeWhile_imp hd
  obtain ⟨d, ds, rfl⟩ : ∃ d ds, whole = d :: ds := by
    rw [startsNumber, unsigned, Option.any_eq_true] at hnumber
    obtain ⟨d, hd, hdigit⟩ := hnumber
    obtain ⟨tail, htail⟩ := List.head?_eq_some_iff.mp hd
    rw [htail, List.takeWhile_cons_of_pos hdigit] at hwhole
    exact ⟨d, _, hwhole⟩
  rw [behindDigits, unsigned, ← hfraction]
  rcases signOf_cases c rest with ⟨hc, hsign⟩ | ⟨-, hsign⟩
  · rw [hsign, List.singleton_append, List.cons_append, List.cons_append, List.append_assoc]
    rcases scanFraction_cases ((List.drop (signOf (c :: rest)).length (c :: rest)).dropWhile
      Char.isDigit) with hnone | ⟨tail, hsome⟩
    · have hat : c ≠ '@' := by rcases hc with rfl | rfl <;> decide
      rw [hfraction, hnone, List.nil_append, isSymbolicDate_of_ne_at hat]
      have h := relativeOffset_unit hc (List.cons_ne_nil d ds) hdigits hunit
      exact iff_of_true h ⟨List.cons_ne_nil _ _, rfl⟩
    · rw [hfraction, hsome]
      have h := isSymbolicDate_fraction hc hdigits (tail ++ unit)
      rw [← List.cons_append] at h
      exact iff_of_false (Bool.eq_false_iff.mp h) fun h => List.cons_ne_nil _ _ h.2
  · rw [hsign, List.nil_append, List.cons_append, List.cons_append]
    have h := isSymbolicDate_digit (hdigits d List.mem_cons_self) (ds ++ fraction ++ unit)
    exact iff_of_false (Bool.eq_false_iff.mp h) fun h => h.1 rfl

theorem scanNumber_relative_iff (start : Text) : (scanNumber start).kind = .relative ↔
    ∃ unit ∈ units,
      unit <+: (behindDigits start).drop (scanFraction (behindDigits start)).length ∧
        (scanFraction (behindDigits start) ≠ [] → unit = ['m', 'o']) := by
  refine (numberLexeme_relative_iff _ _ _).trans ?_
  simp only [Bool.not_eq_true', List.isEmpty_eq_false_iff]
  exact Iff.rfl

/-- What the scan takes for an offset and `isSymbolicDate` does not. -/
theorem loose_iff {c : Char} {rest : Text} :
    UnsignedOffset (c :: rest) ∨ FractionalMonths (c :: rest) ↔
      (scanToken c rest).kind = .relative ∧ isSymbolicDate (scanToken c rest).text = false := by
  have hscan (hnumber : startsNumber (c :: rest) = true)
      (hrelative : (scanNumber (c :: rest)).kind = .relative)
      (h : signOf (c :: rest) = [] ∨ scanFraction (behindDigits (c :: rest)) ≠ []) :
      (scanToken c rest).kind = .relative ∧
        isSymbolicDate (scanToken c rest).text = false := by
    rw [scanToken_number hnumber]
    refine ⟨hrelative, Bool.eq_false_iff.mpr fun hsymbolic => ?_⟩
    obtain ⟨hsign, hfraction⟩ := (scanNumber_symbolic_iff hnumber hrelative).mp hsymbolic
    rcases h with h | h
    · exact hsign h
    · exact h hfraction
  constructor
  · rintro (⟨hnumber, hsign, unit, hunit, hbehind⟩ | ⟨hnumber, hfraction, hbehind⟩)
    · have hnone : scanFraction (behindDigits (c :: rest)) = [] := by
        obtain ⟨d, tail, rfl, -, hpoint, -⟩ := unit_head hunit
        obtain ⟨more, hmore⟩ := hbehind
        rw [← hmore]
        exact scanFraction_of_ne hpoint _
      refine hscan hnumber ((scanNumber_relative_iff _).mpr ⟨unit, hunit, ?_, ?_⟩) (.inl hsign)
      · rwa [hnone]
      · exact fun h => absurd hnone h
    · exact hscan hnumber ((scanNumber_relative_iff _).mpr
        ⟨_, by simp [units], hbehind, fun _ => rfl⟩) (.inr hfraction)
  · rintro ⟨hrelative, hsymbolic⟩
    have hnumber := startsNumber_of_relative hrelative
    rw [scanToken_number hnumber] at hrelative hsymbolic
    obtain ⟨unit, hunit, hbehind, hdecimal⟩ := (scanNumber_relative_iff _).mp hrelative
    by_cases hfraction : scanFraction (behindDigits (c :: rest)) = []
    · refine .inl ⟨hnumber, ?_, unit, hunit, by rwa [hfraction] at hbehind⟩
      by_contra hsign
      rw [(scanNumber_symbolic_iff hnumber hrelative).mpr ⟨hsign, hfraction⟩] at hsymbolic
      cases hsymbolic
    · exact .inr ⟨hnumber, hfraction, hdecimal hfraction ▸ hbehind⟩

theorem mem_tokenStarts_ne_nil : ∀ {input : Text} {skip : ℕ} {start : Text},
    start ∈ tokenStarts skip input → ∃ c rest, start = c :: rest
  | [], 0, _, h => by cases h
  | [], _ + 1, _, h => by cases h
  | _ :: rest, skip + 1, _, h => @mem_tokenStarts_ne_nil rest skip _ h
  | c :: rest, 0, start, h => by
    rw [tokenStarts] at h
    split at h
    · exact mem_tokenStarts_ne_nil h
    · rcases List.mem_cons.mp h with rfl | h
      · exact ⟨c, rest, rfl⟩
      · exact mem_tokenStarts_ne_nil h

theorem relative_symbolic_iff (input : Text) :
    (∀ token ∈ (tokenize input).tokens, token.kind = .relative →
        isSymbolicDate token.text = true) ↔
      ∀ start ∈ tokenStarts 0 input, ¬UnsignedOffset start ∧ ¬FractionalMonths start := by
  refine (tokenizeFrom_starts (fun kind text => kind = .relative → isSymbolicDate text = true)
    (fun h => by cases h) input 0 0).trans ?_
  have hone (c : Char) (rest : Text) :
      ((scanToken c rest).kind = .relative → isSymbolicDate (scanToken c rest).text = true) ↔
        ¬UnsignedOffset (c :: rest) ∧ ¬FractionalMonths (c :: rest) := by
    rw [← not_or, loose_iff, not_and, Bool.not_eq_false]
  constructor
  · intro h start hstart
    obtain ⟨c, rest, rfl⟩ := mem_tokenStarts_ne_nil hstart
    exact (hone c rest).mp (h c rest hstart)
  · exact fun h c rest hstart => (hone c rest).mpr (h _ hstart)

theorem offsetSign_some {c : Char} {sign : ℤ} (h : offsetSign c = some sign) :
    c = '+' ∨ c = '-' := by
  unfold offsetSign at h
  split at h
  · exact .inl rfl
  · exact .inr rfl
  · cases h

theorem ofText_some {text : Text} {unit : OffsetUnit} (h : OffsetUnit.ofText text = some unit) :
    text ∈ units := by
  unfold OffsetUnit.ofText at h
  split at h <;> first | cases h; simp [units] | cases h

/-- An offset is a sign, digits and a unit. -/
theorem relativeOffset_parts {input : Text} (h : (relativeOffset input).isSome = true) :
    ∃ c whole unit, input = c :: (whole ++ unit) ∧ (c = '+' ∨ c = '-') ∧ whole ≠ [] ∧
      (∀ d ∈ whole, d.isDigit = true) ∧ unit ∈ units := by
  unfold relativeOffset at h
  split at h
  · cases h
  next c rest =>
    split at h
    next hsign hdigits hunit =>
      refine ⟨c, rest.takeWhile Char.isDigit, rest.dropWhile Char.isDigit, ?_,
        offsetSign_some hsign, ?_, fun d hd => List.mem_takeWhile_imp hd, ofText_some hunit⟩
      · rw [List.takeWhile_append_dropWhile]
      · rw [hdigits]
        exact List.cons_ne_nil _ _
    · cases h

theorem scanNumber_offset {c : Char} {whole unit : Text} (hc : c = '+' ∨ c = '-')
    (hwhole : ∀ d ∈ whole, d.isDigit = true) (hunit : unit ∈ units) :
    scanNumber (c :: (whole ++ unit)) = ⟨.relative, c :: (whole ++ unit), none⟩ := by
  obtain ⟨u, tail, hcons, hu, hpoint, -⟩ := unit_head hunit
  have hhead : ∀ d ∈ unit.head?, d.isDigit = false := by
    rw [hcons]
    intro d hd
    cases hd
    exact hu
  have hsign : signOf (c :: (whole ++ unit)) = [c] := by
    rcases hc with rfl | rfl <;> rfl
  have hfraction : scanFraction unit = [] := by
    rw [hcons, scanFraction_of_ne hpoint]
  rw [scanNumber, hsign, List.length_singleton, List.drop_one, List.tail_cons,
    takeWhile_append hwhole hhead, dropWhile_append hwhole hhead, hfraction]
  simp only [List.append_nil, List.length_nil, List.drop_zero]
  rw [numberLexeme_relative hunit List.prefix_rfl fun h => by cases h]
  rfl

/-- What is symbolic is one token, and the token's value is the text. -/
theorem symbolic_token {input : Text} (h : isSymbolicDate input = true) :
    ∃ token last, tokenize input = ⟨[token, last], []⟩ ∧ last.kind = .eof ∧
      tokenValue token = .ok (.string input) := by
  rw [isSymbolicDate, Bool.or_eq_true, Bool.or_eq_true, beq_iff_eq, beq_iff_eq] at h
  rcases h with (rfl | rfl) | h
  · exact ⟨_, _, rfl, rfl, rfl⟩
  · exact ⟨_, _, rfl, rfl, rfl⟩
  obtain ⟨c, whole, unit, rfl, hc, hne, hwhole, hunit⟩ := relativeOffset_parts h
  have hspace : isSpace c = false := by rcases hc with rfl | rfl <;> rfl
  have hnumber : startsNumber (c :: (whole ++ unit)) = true := by
    obtain ⟨d, ds, rfl⟩ := List.exists_cons_of_ne_nil hne
    have hd := hwhole d List.mem_cons_self
    rcases hc with rfl | rfl <;> exact hd
  have hscan : scanToken c (whole ++ unit ++ []) = ⟨.relative, c :: (whole ++ unit), none⟩ := by
    rw [List.append_nil, scanToken_number hnumber, scanNumber_offset hc hwhole hunit]
  have htokens := tokenizeFrom_token hspace hscan 0
  rw [List.append_nil] at htokens
  exact ⟨_, _, htokens, rfl, rfl⟩

/-- **Relative tokens and symbolic dates** agree where no token begins with an unsigned offset or
with months that have a fraction; and each symbolic date is one token. -/
theorem vocabulary (input : Text) :
    ((∀ token ∈ (tokenize input).tokens, token.kind = .relative →
        isSymbolicDate token.text = true) ↔
      ∀ start ∈ tokenStarts 0 input, ¬UnsignedOffset start ∧ ¬FractionalMonths start) ∧
    (isSymbolicDate input = true →
      ∃ token last, tokenize input = ⟨[token, last], []⟩ ∧ last.kind = .eof ∧
        tokenValue token = .ok (.string input)) :=
  ⟨relative_symbolic_iff input, symbolic_token⟩

/-- Neither an unsigned offset nor months with a fraction are in the vocabulary. -/
theorem loose_tokens :
    (∃ token ∈ (tokenize "7d".toList).tokens,
      token.kind = .relative ∧ isSymbolicDate token.text = false) ∧
    ∃ token ∈ (tokenize "-7.5mo".toList).tokens,
      token.kind = .relative ∧ isSymbolicDate token.text = false :=
  ⟨⟨_, List.mem_cons_self, rfl, rfl⟩, ⟨_, List.mem_cons_self, rfl, rfl⟩⟩

end TaskFlow.Tql
