import TaskFlow.Binary64
import Mathlib.Data.List.TakeWhile

/-! # Numbers written as text

`toText` writes a double-precision number the way ECMAScript's `String(x)` does:
the shortest decimal, with a point among its digits or zeros around them when the
point is near (`Plain`), and with an exponent otherwise.  `toNumber` reads the
text of a decimal literal back.

`Plain.exists_literal` says that a plain number is written as a literal that
reads back as itself, and `exists_exponent` what the others look like.
-/
namespace NumberText

open Binary64

/-! ### Literals -/

/-- An unsigned or negative decimal: digits, and perhaps a point and more digits. -/
structure Literal where
  negative : Bool
  whole : List Char
  fraction : List Char
  whole_ne_nil : whole ≠ []
  isDigit_whole : ∀ c ∈ whole, c.isDigit = true
  isDigit_fraction : ∀ c ∈ fraction, c.isDigit = true

def Literal.unsigned (l : Literal) : List Char :=
  l.whole ++ if l.fraction = [] then [] else '.' :: l.fraction

def Literal.text (l : Literal) : List Char :=
  if l.negative then '-' :: l.unsigned else l.unsigned

/-- The value of the digits around a decimal point. -/
def decimalValue (whole fraction : List Char) : ℚ :=
  (Nat.ofDigitChars 10 (whole ++ fraction) 0 : ℚ) / 10 ^ fraction.length

def signed (negative : Bool) (q : ℚ) : ℚ := if negative then -q else q

def Literal.value (l : Literal) : ℚ := signed l.negative (decimalValue l.whole l.fraction)

/-- The digits after the point, if one follows the whole digits. -/
def fractionOf : List Char → List Char
  | '.' :: rest => rest.takeWhile Char.isDigit
  | _ => []

def unsignedValue (text : List Char) : ℚ :=
  decimalValue (text.takeWhile Char.isDigit) (fractionOf (text.dropWhile Char.isDigit))

/-- `Number(text)` of a decimal literal with or without a sign. -/
def toNumber : List Char → Number
  | '-' :: text => Number.ofRat (-unsignedValue text)
  | '+' :: text => Number.ofRat (unsignedValue text)
  | text => Number.ofRat (unsignedValue text)

theorem isDigit_point : Char.isDigit '.' = false := rfl

theorem takeWhile_whole (l : Literal) : l.unsigned.takeWhile Char.isDigit = l.whole := by
  rw [Literal.unsigned, List.takeWhile_append_of_pos l.isDigit_whole]
  split_ifs <;> simp [isDigit_point]

theorem dropWhile_whole (l : Literal) :
    l.unsigned.dropWhile Char.isDigit = if l.fraction = [] then [] else '.' :: l.fraction := by
  rw [Literal.unsigned, List.dropWhile_append_of_pos l.isDigit_whole]
  split_ifs <;> simp [isDigit_point]

theorem unsignedValue_unsigned (l : Literal) :
    unsignedValue l.unsigned = decimalValue l.whole l.fraction := by
  rw [unsignedValue, takeWhile_whole, dropWhile_whole]
  split_ifs with h
  · rw [h, fractionOf]
    simp
  · rw [fractionOf, List.takeWhile_eq_self_iff.mpr l.isDigit_fraction]

/-- A literal does not begin with a sign once its own is taken off. -/
theorem Literal.exists_cons (l : Literal) :
    ∃ c rest, l.unsigned = c :: rest ∧ c.isDigit = true := by
  obtain ⟨c, rest, h⟩ := List.exists_cons_of_ne_nil l.whole_ne_nil
  exact ⟨c, rest ++ _, by rw [Literal.unsigned, h]; rfl, l.isDigit_whole c (by simp [h])⟩

/-- **A literal is read as the number next to its value.** -/
theorem toNumber_text (l : Literal) : toNumber l.text = Number.ofRat l.value := by
  rw [Literal.text, Literal.value, signed, ← unsignedValue_unsigned]
  split_ifs with h
  · rfl
  · obtain ⟨c, rest, hl, hc⟩ := l.exists_cons
    rw [hl]
    unfold toNumber
    split
    · next heq =>
      rw [(List.cons.inj heq).1] at hc
      exact absurd hc (by decide)
    · next heq =>
      rw [(List.cons.inj heq).1] at hc
      exact absurd hc (by decide)
    · rfl

/-! ### Digits -/

theorem isDigit_toDigits (n : ℕ) : ∀ c ∈ Nat.toDigits 10 n, c.isDigit = true :=
  fun _ hc => Nat.isDigit_of_mem_toDigits (by norm_num) (by norm_num) hc

theorem isDigit_zeros (n : ℕ) : ∀ c ∈ List.replicate n '0', c.isDigit = true :=
  fun _ hc => List.eq_of_mem_replicate hc ▸ rfl

theorem length_digits {d : Decimal} (hd : d.Normal) :
    (Nat.toDigits 10 d.digits).length = d.count := by
  apply le_antisymm ((Nat.length_toDigits_le_iff (by norm_num) hd.count_pos).mpr hd.high)
  by_contra hlt
  rcases Nat.eq_zero_or_pos (d.count - 1) with hzero | hpos
  · have := @Nat.length_toDigits_pos 10 d.digits
    omega
  · have hle := (Nat.length_toDigits_le_iff (b := 10) (n := d.digits) (by norm_num) hpos).mp
      (by omega)
    have := hd.low
    omega

/-! ### `String(x)` -/

/-- A positive decimal without an exponent. -/
def plainText (d : Decimal) : List Char :=
  let digits := Nat.toDigits 10 d.digits
  if (d.count : ℤ) ≤ d.point then digits ++ List.replicate (d.point - d.count).toNat '0'
  else if 0 < d.point then digits.take d.point.toNat ++ '.' :: digits.drop d.point.toNat
  else '0' :: '.' :: (List.replicate (-d.point).toNat '0' ++ digits)

/-- The sign and the digits of the exponent. -/
def exponentText (d : Decimal) : List Char :=
  (if d.point < 0 then '-' else '+') :: Nat.toDigits 10 (d.point - 1).natAbs

/-- A positive decimal with an exponent. -/
def scientificText (d : Decimal) : List Char :=
  match Nat.toDigits 10 d.digits with
  | [] => []
  | [c] => c :: 'e' :: exponentText d
  | c :: cs => c :: '.' :: (cs ++ 'e' :: exponentText d)

/-- The point is among the digits, or not far from them. -/
def Near (d : Decimal) : Prop := -6 < d.point ∧ d.point ≤ 21

instance (d : Decimal) : Decidable (Near d) := inferInstanceAs (Decidable (_ ∧ _))

def decimalText (d : Decimal) : List Char :=
  if Near d then plainText d else scientificText d

/-- `String(x)`. -/
def toText : Number → List Char
  | .nan => ['N', 'a', 'N']
  | .infinity negative =>
    (if negative then ['-'] else []) ++ ['I', 'n', 'f', 'i', 'n', 'i', 't', 'y']
  | .finite x =>
    if x.value = 0 then ['0']
    else if x.value < 0 then '-' :: decimalText (shortest (-x.value))
    else decimalText (shortest x.value)

/-- The number is written without an exponent. -/
def Plain (x : Finite) : Prop := x.value = 0 ∨ Near (shortest |x.value|)

instance (x : Finite) : Decidable (Plain x) := inferInstanceAs (Decidable (_ ∨ _))

/-! ### Plain numbers -/

section

variable {d : Decimal} (negative : Bool)

/-- Zeros after the digits. -/
theorem exists_literal_of_count_le (h : (d.count : ℤ) ≤ d.point) :
    ∃ l : Literal, l.negative = negative ∧ l.unsigned = plainText d ∧
      decimalValue l.whole l.fraction = d.value := by
  have hzeros : ∀ c ∈ Nat.toDigits 10 d.digits ++ List.replicate (d.point - d.count).toNat '0',
      c.isDigit = true := by
    intro c hc
    rcases List.mem_append.mp hc with hc | hc
    · exact isDigit_toDigits _ c hc
    · exact isDigit_zeros _ c hc
  have hpow : (10 : ℚ) ^ (d.point - d.count) = 10 ^ (d.point - d.count).toNat := by
    rw [← zpow_natCast, Int.toNat_of_nonneg (by omega)]
  refine ⟨⟨negative, _, [], List.append_ne_nil_of_left_ne_nil Nat.toDigits_ne_nil _, hzeros,
    by simp⟩, rfl, ?_, ?_⟩
  · rw [Literal.unsigned, if_pos rfl, List.append_nil, plainText, if_pos h]
  · rw [decimalValue, Decimal.value, List.append_nil, Nat.ofDigitChars_append,
      Nat.ofDigitChars_ten_toDigits, Nat.ofDigitChars_replicate_zero, hpow]
    push_cast
    simp [mul_comm]

/-- A decimal with an exponent is a literal of its digits, and the exponent. -/
theorem scientificText_eq :
    ∃ l : Literal, l.negative = negative ∧
      scientificText d = l.unsigned ++ 'e' :: exponentText d := by
  have hdigits := isDigit_toDigits d.digits
  unfold scientificText
  match h : Nat.toDigits 10 d.digits with
  | [] => exact absurd h Nat.toDigits_ne_nil
  | [c] =>
    rw [h] at hdigits
    exact ⟨⟨negative, [c], [], by simp, hdigits, by simp⟩, rfl, by simp [Literal.unsigned]⟩
  | c :: c' :: cs =>
    rw [h] at hdigits
    refine ⟨⟨negative, [c], c' :: cs, by simp, ?_, ?_⟩, rfl, by simp [Literal.unsigned]⟩
    · exact fun a ha => hdigits a (List.mem_cons.mpr (Or.inl (List.mem_singleton.mp ha)))
    · exact fun a ha => hdigits a (List.mem_cons_of_mem _ ha)

variable (hd : d.Normal)

include hd

/-- A point among the digits. -/
theorem exists_literal_of_point_pos (h : ¬(d.count : ℤ) ≤ d.point) (hpos : 0 < d.point) :
    ∃ l : Literal, l.negative = negative ∧ l.unsigned = plainText d ∧
      decimalValue l.whole l.fraction = d.value := by
  have hlen := length_digits hd
  have htake : (Nat.toDigits 10 d.digits).take d.point.toNat ≠ [] := by
    rw [Ne, List.take_eq_nil_iff, not_or]
    exact ⟨by omega, Nat.toDigits_ne_nil⟩
  have hdrop : (Nat.toDigits 10 d.digits).drop d.point.toNat ≠ [] := by
    rw [Ne, List.drop_eq_nil_iff]
    omega
  have hfrac : (((Nat.toDigits 10 d.digits).drop d.point.toNat).length : ℤ) =
      d.count - d.point := by
    rw [List.length_drop, hlen]
    omega
  refine ⟨⟨negative, (Nat.toDigits 10 d.digits).take d.point.toNat,
    (Nat.toDigits 10 d.digits).drop d.point.toNat, htake,
    fun c hc => isDigit_toDigits _ c (List.mem_of_mem_take hc),
    fun c hc => isDigit_toDigits _ c (List.mem_of_mem_drop hc)⟩, rfl, ?_, ?_⟩
  · rw [Literal.unsigned, if_neg hdrop, plainText, if_neg h, if_pos hpos]
  · rw [decimalValue, Decimal.value, List.take_append_drop, Nat.ofDigitChars_ten_toDigits,
      ← zpow_natCast, hfrac, div_eq_mul_inv, ← zpow_neg, neg_sub]

/-- Zeros between the point and the digits. -/
theorem exists_literal_of_point_nonpos (hpos : ¬0 < d.point) :
    ∃ l : Literal, l.negative = negative ∧ l.unsigned = plainText d ∧
      decimalValue l.whole l.fraction = d.value := by
  have hcount := hd.count_pos
  have hfrac : ∀ c ∈ List.replicate (-d.point).toNat '0' ++ Nat.toDigits 10 d.digits,
      c.isDigit = true := by
    intro c hc
    rcases List.mem_append.mp hc with hc | hc
    · exact isDigit_zeros _ c hc
    · exact isDigit_toDigits _ c hc
  have hlength : ((List.replicate (-d.point).toNat '0' ++ Nat.toDigits 10 d.digits).length : ℤ) =
      d.count - d.point := by
    rw [List.length_append, List.length_replicate, length_digits hd]
    omega
  have hdigits : Nat.ofDigitChars 10
      (['0'] ++ (List.replicate (-d.point).toNat '0' ++ Nat.toDigits 10 d.digits)) 0 =
        d.digits := by
    rw [Nat.ofDigitChars_append, Nat.ofDigitChars_append]
    simp [Nat.ofDigitChars_replicate_zero, Nat.ofDigitChars_ten_toDigits, Nat.ofDigitChars_cons,
      Nat.ofDigitChars_nil]
  refine ⟨⟨negative, ['0'], _, by simp, by simp, hfrac⟩, rfl, ?_, ?_⟩
  · rw [Literal.unsigned, if_neg (List.append_ne_nil_of_right_ne_nil _ Nat.toDigits_ne_nil),
      plainText, if_neg (by omega), if_neg hpos]
    rfl
  · rw [decimalValue, hdigits, ← zpow_natCast, hlength, Decimal.value, div_eq_mul_inv,
      ← zpow_neg, neg_sub]

/-- A decimal without an exponent is a literal of its value. -/
theorem plainText_eq :
    ∃ l : Literal, l.negative = negative ∧ l.unsigned = plainText d ∧
      decimalValue l.whole l.fraction = d.value := by
  by_cases hcount : (d.count : ℤ) ≤ d.point
  · exact exists_literal_of_count_le negative hcount
  by_cases hpos : 0 < d.point
  · exact exists_literal_of_point_pos negative hd hcount hpos
  · exact exists_literal_of_point_nonpos negative hd hpos

end

/-- The text of zero. -/
def zeroLiteral : Literal := ⟨false, ['0'], [], by simp, by simp, by simp⟩

theorem zeroLiteral_value : zeroLiteral.value = 0 := by
  have h : Nat.ofDigitChars 10 ['0'] 0 = 0 := by decide
  simp [Literal.value, zeroLiteral, signed, decimalValue, h]

/-- **A plain number is written as a literal that reads back as the number.** -/
theorem Plain.exists_literal {x : Finite} (hx : Plain x) :
    ∃ l : Literal, toText (.finite x) = l.text ∧ toNumber l.text = .finite x := by
  rcases lt_trichotomy x.value 0 with hneg | hzero | hpos
  -- a negative number is a sign before the text of its absolute value
  · have hnear : Near (shortest (-x.value)) := by
      rcases hx with h | h
      · exact absurd h hneg.ne
      · rwa [abs_of_neg hneg] at h
    have hexact : Binary64.round (-x.value) = -x.value := by rw [round_neg, x.exact]
    obtain ⟨hnormal, hround⟩ := shortest_spec (neg_pos.mpr hneg) hexact
    obtain ⟨l, hl, htext, hvalue⟩ := plainText_eq true hnormal
    refine ⟨l, ?_, ?_⟩
    · rw [toText, if_neg hneg.ne, if_pos hneg, decimalText, if_pos hnear, Literal.text, hl,
        if_pos rfl, htext]
    · rw [toNumber_text, Literal.value, hl, hvalue, signed, if_pos rfl]
      exact Number.ofRat_of_round_eq (by rw [round_neg, hround, neg_neg])
  -- zero is written without a sign
  · refine ⟨zeroLiteral, by rw [toText, if_pos hzero]; rfl, ?_⟩
    rw [toNumber_text]
    apply Number.ofRat_of_round_eq
    rw [zeroLiteral_value, Binary64.round_zero, hzero]
  · have hnear : Near (shortest x.value) := by
      rcases hx with h | h
      · exact absurd h hpos.ne'
      · rwa [abs_of_pos hpos] at h
    obtain ⟨hnormal, hround⟩ := shortest_spec hpos x.exact
    obtain ⟨l, hl, htext, hvalue⟩ := plainText_eq false hnormal
    refine ⟨l, ?_, ?_⟩
    · rw [toText, if_neg hpos.ne', if_neg hpos.not_gt, decimalText, if_pos hnear, Literal.text,
        hl, if_neg Bool.false_ne_true, htext]
    · rw [toNumber_text, Literal.value, hl, hvalue, signed, if_neg Bool.false_ne_true]
      exact Number.ofRat_of_round_eq hround

theorem exponentText_eq (d : Decimal) :
    ∃ sign exponent, exponentText d = sign :: exponent ∧ (sign = '+' ∨ sign = '-') ∧
      exponent ≠ [] ∧ ∀ c ∈ exponent, c.isDigit = true := by
  refine ⟨_, _, rfl, ?_, Nat.toDigits_ne_nil, isDigit_toDigits _⟩
  split_ifs
  · exact Or.inr rfl
  · exact Or.inl rfl

/-- **The other numbers are written as a literal, the letter `e` and a signed exponent.** -/
theorem exists_exponent {x : Finite} (hx : ¬Plain x) :
    ∃ (l : Literal) (sign : Char) (exponent : List Char),
      toText (.finite x) = l.text ++ 'e' :: sign :: exponent ∧ (sign = '+' ∨ sign = '-') ∧
        exponent ≠ [] ∧ ∀ c ∈ exponent, c.isDigit = true := by
  obtain ⟨hzero, hfar⟩ := not_or.mp hx
  rcases lt_or_gt_of_ne hzero with hneg | hpos
  · rw [abs_of_neg hneg] at hfar
    obtain ⟨l, hl, htext⟩ := scientificText_eq (d := shortest (-x.value)) true
    obtain ⟨sign, exponent, hexp, hrest⟩ := exponentText_eq (shortest (-x.value))
    refine ⟨l, sign, exponent, ?_, hrest⟩
    rw [toText, if_neg hzero, if_pos hneg, decimalText, if_neg hfar, htext, hexp, Literal.text,
      hl, if_pos rfl, List.cons_append]
  · rw [abs_of_pos hpos] at hfar
    obtain ⟨l, hl, htext⟩ := scientificText_eq (d := shortest x.value) false
    obtain ⟨sign, exponent, hexp, hrest⟩ := exponentText_eq (shortest x.value)
    refine ⟨l, sign, exponent, ?_, hrest⟩
    rw [toText, if_neg hzero, if_neg hpos.not_gt, decimalText, if_neg hfar, htext, hexp,
      Literal.text, hl, if_neg Bool.false_ne_true]

/-! ### Integers -/

theorem round_ten_pow : Binary64.round (10 ^ (21 : ℤ)) = 10 ^ (21 : ℤ) := by
  have h := round_scaled (m := 5 ^ 21) (e := 21) (by norm_num) (by norm_num)
  norm_num at h ⊢
  exact h

theorem round_half : Binary64.round (1 / 2) = 1 / 2 := by
  have h := round_scaled (m := 1) (e := -1) (by norm_num) (by norm_num)
  norm_num at h ⊢
  exact h

/-- From one on and below `10 ^ 21`, no exponent is written. -/
theorem near_of_bounds {y : ℚ} (hround : Binary64.round y = y) (hone : 1 ≤ y)
    (hlt : y < 10 ^ (21 : ℤ)) : Near (shortest y) := by
  obtain ⟨hnormal, hdecimal⟩ := shortest_spec (one_pos.trans_le hone) hround
  have hten : (1 : ℚ) ≤ 10 := by norm_num
  constructor
  · by_contra hle
    have hsmall : (shortest y).value ≤ 1 / 2 := by
      calc (shortest y).value ≤ 10 ^ (shortest y).point := hnormal.value_le
        _ ≤ 10 ^ (-1 : ℤ) := zpow_le_zpow_right₀ hten (by omega)
        _ ≤ 1 / 2 := by norm_num
    have h := round_mono hsmall
    rw [hdecimal, round_half] at h
    linarith
  · by_contra hgt
    have hlarge : (10 : ℚ) ^ (21 : ℤ) ≤ (shortest y).value :=
      (zpow_le_zpow_right₀ hten (by omega)).trans hnormal.le_value
    have h := round_mono hlarge
    rw [hdecimal, round_ten_pow] at h
    exact absurd h (not_le.mpr hlt)

/-- **An integer below `10 ^ 21` is plain.** -/
theorem plain_of_integer {x : Finite} {i : ℤ} (hx : x.value = i) (hlt : |i| < 10 ^ 21) :
    Plain x := by
  rcases eq_or_ne x.value 0 with h | h
  · exact Or.inl h
  refine Or.inr (near_of_bounds ?_ ?_ ?_)
  · rcases abs_choice x.value with ha | ha
    · rw [ha, x.exact]
    · rw [ha, round_neg, x.exact]
  · have hi : i ≠ 0 := by
      rintro rfl
      exact h (by rw [hx, Int.cast_zero])
    rw [hx]
    exact_mod_cast Int.one_le_abs hi
  · rw [hx]
    exact_mod_cast hlt

end NumberText
