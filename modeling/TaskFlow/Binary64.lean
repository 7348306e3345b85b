import Mathlib.Data.Int.Log
import Mathlib.Data.Rat.Floor
import Mathlib.Algebra.Order.Round
import Mathlib.Tactic.Linarith
import Mathlib.Tactic.Ring
import Mathlib.Tactic.FieldSimp

/-! # Double-precision numbers and their shortest decimals

The finite numbers of the format are the rationals that `round` leaves alone:
the multiples of a power of two, at least `2 ^ -1074`, with 53 binary digits.
`round` takes any rational to the nearest of them, an even multiple on a tie.

* `round_mono`, `round_neg`: rounding keeps the order and the sign;
* `round_scaled`: a number with at most 53 binary digits is exact;
* `round_round`: so a rounded number is a number of the format;
* `shortest_spec`: the decimal with the fewest digits that rounds to a positive
  number of the format is found, and rounds to it.
-/
namespace Binary64

/-! ### Rounding to an integer -/

/-- The integer next to a rational, the even one of two. -/
def roundEven (q : ℚ) : ℤ :=
  if q - ⌊q⌋ < 1 / 2 then ⌊q⌋
  else if 1 / 2 < q - ⌊q⌋ then ⌊q⌋ + 1
  else if Even ⌊q⌋ then ⌊q⌋ else ⌊q⌋ + 1

@[simp] theorem roundEven_intCast (m : ℤ) : roundEven m = m := by
  simp [roundEven]

theorem floor_le_roundEven (q : ℚ) : ⌊q⌋ ≤ roundEven q := by
  unfold roundEven
  split_ifs <;> omega

theorem roundEven_le_floor_add_one (q : ℚ) : roundEven q ≤ ⌊q⌋ + 1 := by
  unfold roundEven
  split_ifs <;> omega

theorem roundEven_mono {q q' : ℚ} (h : q ≤ q') : roundEven q ≤ roundEven q' := by
  rcases (Int.floor_le_floor h).lt_or_eq with hlt | heq
  · have := roundEven_le_floor_add_one q
    have := floor_le_roundEven q'
    omega
  · unfold roundEven
    rw [heq]
    have hsub : q - ⌊q'⌋ ≤ q' - ⌊q'⌋ := by linarith
    split_ifs <;> first | omega | linarith

theorem roundEven_neg (q : ℚ) : roundEven (-q) = -roundEven q := by
  by_cases hq : (⌊q⌋ : ℚ) = q
  · rw [← hq, ← Int.cast_neg, roundEven_intCast, roundEven_intCast]
  · have hlt : (⌊q⌋ : ℚ) < q := lt_of_le_of_ne (Int.floor_le q) hq
    have hfloor : ⌊-q⌋ = -⌊q⌋ - 1 := by
      rw [Int.floor_eq_iff]
      have := Int.lt_floor_add_one q
      push_cast
      constructor <;> linarith
    have heven : Even (-⌊q⌋ - 1) ↔ ¬Even ⌊q⌋ := by
      rw [Int.even_sub_one, even_neg]
    unfold roundEven
    rw [hfloor]
    simp only [heven]
    push_cast
    split_ifs <;> first | omega | (exfalso; linarith)

/-! ### Rounding to a number of the format -/

/-- The exponent of the distance between the numbers of the format around `q`. -/
def spacing (q : ℚ) : ℤ := max (Int.log 2 |q| - 52) (-1074)

/-- The number of the format next to a rational. -/
def round (q : ℚ) : ℚ := roundEven (q / 2 ^ spacing q) * 2 ^ spacing q

theorem two_zpow_pos (e : ℤ) : (0 : ℚ) < 2 ^ e := zpow_pos two_pos e

@[simp] theorem round_zero : round 0 = 0 := by
  have h := roundEven_intCast 0
  rw [Int.cast_zero] at h
  simp [round, h]

theorem spacing_neg (q : ℚ) : spacing (-q) = spacing q := by
  rw [spacing, spacing, abs_neg]

theorem round_neg (q : ℚ) : round (-q) = -round q := by
  rw [round, round, spacing_neg, neg_div, roundEven_neg, Int.cast_neg, neg_mul]

theorem spacing_mono {q q' : ℚ} (hq : 0 < q) (h : q ≤ q') : spacing q ≤ spacing q' := by
  have hlog := Int.log_mono_right (b := 2) hq h
  rw [spacing, spacing, abs_of_pos hq, abs_of_pos (hq.trans_le h)]
  omega

theorem round_nonneg {q : ℚ} (hq : 0 ≤ q) : 0 ≤ round q := by
  have hdiv : ((0 : ℤ) : ℚ) ≤ q / 2 ^ spacing q := by
    rw [Int.cast_zero]
    exact div_nonneg hq (two_zpow_pos _).le
  have h := roundEven_mono hdiv
  rw [roundEven_intCast] at h
  exact mul_nonneg (Int.cast_nonneg h) (two_zpow_pos _).le

/-- A positive rational has at most 53 binary digits before its spacing. -/
theorem div_spacing_lt (q : ℚ) : |q| / 2 ^ spacing q < 2 ^ 53 := by
  rw [div_lt_iff₀ (two_zpow_pos _)]
  have hlt := Int.lt_zpow_succ_log_self (b := 2) one_lt_two |q|
  have hle : Int.log 2 |q| + 1 ≤ 53 + spacing q := by
    unfold spacing
    omega
  calc |q| < 2 ^ (Int.log 2 |q| + 1) := by exact_mod_cast hlt
    _ ≤ 2 ^ (53 + spacing q) := zpow_le_zpow_right₀ one_le_two hle
    _ = 2 ^ 53 * 2 ^ spacing q := zpow_add₀ two_ne_zero _ _

theorem roundEven_le_of_lt {q : ℚ} {m : ℤ} (h : q ≤ m) : roundEven q ≤ m := by
  have := roundEven_mono h
  rwa [roundEven_intCast] at this

theorem le_roundEven_of_le {q : ℚ} {m : ℤ} (h : (m : ℚ) ≤ q) : m ≤ roundEven q := by
  have := roundEven_mono h
  rwa [roundEven_intCast] at this

/-- The rounded number is below the spacing's next binade. -/
theorem round_le_binade {q : ℚ} (hq : 0 < q) : round q ≤ 2 ^ (53 + spacing q) := by
  have hlt := div_spacing_lt q
  rw [abs_of_pos hq] at hlt
  have hm : roundEven (q / 2 ^ spacing q) ≤ 2 ^ 53 := by
    apply roundEven_le_of_lt
    push_cast
    exact hlt.le
  rw [zpow_add₀ two_ne_zero]
  refine mul_le_mul_of_nonneg_right ?_ (two_zpow_pos _).le
  exact_mod_cast hm

theorem binade_le_round {q : ℚ} (hq : 0 < q) (hs : -1074 < spacing q) :
    2 ^ (52 + spacing q) ≤ round q := by
  have hle := Int.zpow_log_le_self (b := 2) one_lt_two hq
  have heq : Int.log 2 q = 52 + spacing q := by
    rw [spacing, abs_of_pos hq] at hs ⊢
    omega
  have hm : (2 ^ 52 : ℤ) ≤ roundEven (q / 2 ^ spacing q) := by
    apply le_roundEven_of_le
    rw [le_div_iff₀ (two_zpow_pos _)]
    calc ((2 ^ 52 : ℤ) : ℚ) * 2 ^ spacing q = 2 ^ (52 + spacing q) := by
          rw [zpow_add₀ two_ne_zero]
          norm_num
      _ ≤ q := by
          rw [← heq]
          exact_mod_cast hle
  rw [zpow_add₀ two_ne_zero]
  refine mul_le_mul_of_nonneg_right ?_ (two_zpow_pos _).le
  exact_mod_cast hm

theorem round_mono_of_pos {q q' : ℚ} (hq : 0 < q) (h : q ≤ q') : round q ≤ round q' := by
  rcases (spacing_mono hq h).lt_or_eq with hlt | heq
  · -- the two lie in different binades, which rounding does not leave downwards
    have hs : -1074 < spacing q' := by
      have : -1074 ≤ spacing q := le_max_right _ _
      omega
    calc round q ≤ 2 ^ (53 + spacing q) := round_le_binade hq
      _ ≤ 2 ^ (52 + spacing q') := zpow_le_zpow_right₀ one_le_two (by omega)
      _ ≤ round q' := binade_le_round (hq.trans_le h) hs
  · rw [round, round, heq]
    refine mul_le_mul_of_nonneg_right ?_ (two_zpow_pos _).le
    exact_mod_cast roundEven_mono (div_le_div_of_nonneg_right h (two_zpow_pos _).le)

/-- **Rounding keeps the order.** -/
theorem round_mono {q q' : ℚ} (h : q ≤ q') : round q ≤ round q' := by
  rcases lt_or_ge 0 q with hq | hq
  · exact round_mono_of_pos hq h
  rcases lt_or_ge q' 0 with hq' | hq'
  · have hneg := round_mono_of_pos (neg_pos.mpr hq') (neg_le_neg h)
    rw [round_neg, round_neg] at hneg
    exact neg_le_neg_iff.mp hneg
  · have hleft := round_nonneg (neg_nonneg.mpr hq)
    rw [round_neg] at hleft
    exact (neg_nonneg.mp hleft).trans (round_nonneg hq')

/-- **A number with at most 53 binary digits is exact.** -/
theorem round_scaled {m e : ℤ} (hm : |m| ≤ 2 ^ 53) (he : -1074 ≤ e) :
    round (m * 2 ^ e) = m * 2 ^ e := by
  rcases eq_or_ne m 0 with rfl | hne
  · simp
  have habs : |(m * 2 ^ e : ℚ)| = |m| * 2 ^ e := by
    rw [abs_mul, abs_of_pos (two_zpow_pos e), Int.cast_abs]
  have hpos : (0 : ℚ) < |m| * 2 ^ e :=
    mul_pos (by exact_mod_cast abs_pos.mpr hne) (two_zpow_pos e)
  -- the quotient by the spacing is an integer
  obtain ⟨k, hk⟩ : ∃ k : ℤ, (m * 2 ^ e : ℚ) / 2 ^ spacing (m * 2 ^ e) = k := by
    rcases hm.lt_or_eq with hlt | heq
    · have hlog : Int.log 2 (|m| * 2 ^ e : ℚ) < 53 + e := by
        rw [← Int.lt_zpow_iff_log_lt (b := 2) one_lt_two hpos]
        push_cast
        rw [zpow_add₀ two_ne_zero]
        exact mul_lt_mul_of_pos_right (by exact_mod_cast hlt) (two_zpow_pos e)
      have hs : spacing (m * 2 ^ e) ≤ e := by
        rw [spacing, habs]
        omega
      refine ⟨m * 2 ^ (e - spacing (m * 2 ^ e)).toNat, ?_⟩
      rw [mul_div_assoc, ← zpow_sub₀ two_ne_zero]
      push_cast
      rw [← zpow_natCast, Int.toNat_of_nonneg (by omega)]
    · have hlog : Int.log 2 (|m| * 2 ^ e : ℚ) = 53 + e := by
        have hpow : (|m| * 2 ^ e : ℚ) = ((2 : ℕ) : ℚ) ^ (53 + e) := by
          have : (|m| : ℚ) = 2 ^ 53 := by exact_mod_cast heq
          push_cast
          rw [this, zpow_add₀ two_ne_zero]
          norm_num
        rw [hpow, Int.log_zpow one_lt_two]
      have hs : spacing (m * 2 ^ e) = e + 1 := by
        rw [spacing, habs, hlog]
        omega
      have hsign : (m : ℚ) = 2 ^ 53 ∨ (m : ℚ) = -2 ^ 53 := by
        rcases abs_eq (by norm_num : (0 : ℤ) ≤ 2 ^ 53) |>.mp heq with h | h
        · exact Or.inl (by exact_mod_cast h)
        · exact Or.inr (by exact_mod_cast h)
      have hne2 : (2 : ℚ) ^ e ≠ 0 := (two_zpow_pos e).ne'
      rcases hsign with h | h
      · refine ⟨2 ^ 52, ?_⟩
        rw [hs, h, zpow_add_one₀ two_ne_zero]
        field_simp
        norm_num
      · refine ⟨-2 ^ 52, ?_⟩
        rw [hs, h, zpow_add_one₀ two_ne_zero]
        field_simp
        norm_num
  rw [round, hk, roundEven_intCast, ← hk, div_mul_cancel₀ _ (two_zpow_pos _).ne']

/-- A rounded number has at most 53 binary digits. -/
theorem round_eq_scaled (q : ℚ) :
    ∃ m e : ℤ, |m| ≤ 2 ^ 53 ∧ -1074 ≤ e ∧ round q = m * 2 ^ e := by
  refine ⟨roundEven (q / 2 ^ spacing q), spacing q, ?_, le_max_right _ _, rfl⟩
  have hlt := div_spacing_lt q
  rw [← abs_of_pos (two_zpow_pos (spacing q)), ← abs_div, abs_lt] at hlt
  rw [abs_le]
  constructor
  · apply le_roundEven_of_le
    push_cast
    exact hlt.1.le
  · apply roundEven_le_of_lt
    push_cast
    exact hlt.2.le

/-- **A rounded number is a number of the format.** -/
@[simp] theorem round_round (q : ℚ) : round (round q) = round q := by
  obtain ⟨m, e, hm, he, h⟩ := round_eq_scaled q
  rw [h, round_scaled hm he]

/-! ### The finite numbers -/

/-- A finite number of the format; the two zeros are one. -/
structure Finite where
  value : ℚ
  exact : round value = value
  small : |value| < 2 ^ 1024
  deriving DecidableEq

inductive Number where
  | nan
  | infinity (negative : Bool)
  | finite (x : Finite)
  deriving DecidableEq

namespace Number

/-- The number next to a rational; beyond the largest, an infinity. -/
def ofRat (q : ℚ) : Number :=
  if h : |round q| < 2 ^ 1024 then .finite ⟨round q, round_round q, h⟩
  else .infinity (decide (q < 0))

theorem ofRat_of_round_eq {q : ℚ} {x : Finite} (h : round q = x.value) :
    ofRat q = .finite x := by
  obtain ⟨value, exact, small⟩ := x
  subst h
  exact dif_pos small

/-- `x = y`: not a number is equal to nothing. -/
def eq : Number → Number → Bool
  | nan, _ => false
  | _, nan => false
  | infinity s, infinity s' => s == s'
  | finite x, finite y => x.value == y.value
  | _, _ => false

/-- `x < y`. -/
def lt : Number → Number → Bool
  | nan, _ => false
  | _, nan => false
  | infinity s, infinity s' => s && !s'
  | infinity s, finite _ => s
  | finite _, infinity s => !s
  | finite x, finite y => decide (x.value < y.value)

end Number

/-! ### The shortest decimal -/

/-- The number `0.d₁d₂…dₖ` with `k = count` digits, times `10 ^ point`. -/
structure Decimal where
  digits : ℕ
  count : ℕ
  point : ℤ
  deriving DecidableEq

def Decimal.value (d : Decimal) : ℚ := d.digits * 10 ^ (d.point - d.count)

/-- The first digit is not zero. -/
structure Decimal.Normal (d : Decimal) : Prop where
  count_pos : 0 < d.count
  low : 10 ^ (d.count - 1) ≤ d.digits
  high : d.digits < 10 ^ d.count

theorem ten_zpow_pos (e : ℤ) : (0 : ℚ) < 10 ^ e := zpow_pos (by norm_num) e

theorem Decimal.Normal.le_value {d : Decimal} (hd : d.Normal) :
    (10 : ℚ) ^ (d.point - 1) ≤ d.value := by
  have hlow : ((10 ^ (d.count - 1) : ℕ) : ℚ) ≤ d.digits := by exact_mod_cast hd.low
  have hcount := hd.count_pos
  calc (10 : ℚ) ^ (d.point - 1) = (10 ^ (d.count - 1) : ℕ) * 10 ^ (d.point - d.count) := by
        push_cast
        rw [← zpow_natCast, ← zpow_add₀ (by norm_num)]
        congr 1
        omega
    _ ≤ d.value := mul_le_mul_of_nonneg_right hlow (ten_zpow_pos _).le

theorem Decimal.Normal.value_le {d : Decimal} (hd : d.Normal) : d.value ≤ (10 : ℚ) ^ d.point := by
  have hhigh : (d.digits : ℚ) ≤ (10 ^ d.count : ℕ) := by exact_mod_cast hd.high.le
  calc d.value ≤ (10 ^ d.count : ℕ) * 10 ^ (d.point - d.count) :=
        mul_le_mul_of_nonneg_right hhigh (ten_zpow_pos _).le
    _ = (10 : ℚ) ^ d.point := by
        push_cast
        rw [← zpow_natCast, ← zpow_add₀ (by norm_num)]
        congr 1
        omega

/-- The place of the decimal point of a positive rational. -/
def magnitude (x : ℚ) : ℤ := Int.log 10 x + 1

/-- The two numbers of `k` digits around `x`, the nearer one first. -/
def candidates (x : ℚ) (k : ℕ) : List ℕ :=
  let scaled := x * 10 ^ ((k : ℤ) - magnitude x)
  let low := ⌊scaled⌋.toNat
  if scaled - low ≤ 1 / 2 then [low, low + 1] else [low + 1, low]

/-- `digits` in `k` places with the point of `x`, with one place more if it has overflowed. -/
def placed (x : ℚ) (k digits : ℕ) : Decimal :=
  if digits = 10 ^ k then ⟨1, 1, magnitude x + 1⟩ else ⟨digits, k, magnitude x⟩

/-- A decimal of `k` digits that rounds to `x`. -/
def withDigits (x : ℚ) (k : ℕ) : Option Decimal :=
  ((candidates x k).map (placed x k)).find? fun d => round d.value == x

/-- The first decimal that rounds to `x`, with `k` digits or more. -/
def search (x : ℚ) : (fuel k : ℕ) → Decimal
  | 0, _ => ⟨0, 0, 0⟩
  | fuel + 1, k => (withDigits x k).getD (search x fuel (k + 1))

/-- The decimal with the fewest digits that rounds to `x`. -/
def shortest (x : ℚ) : Decimal := search x (magnitude x + 1074).toNat 1

theorem zpow_magnitude_le {x : ℚ} (hx : 0 < x) : (10 : ℚ) ^ (magnitude x - 1) ≤ x := by
  have h := Int.zpow_log_le_self (b := 10) (by norm_num) hx
  rw [magnitude, add_sub_cancel_right]
  exact_mod_cast h

theorem lt_zpow_magnitude (x : ℚ) : x < (10 : ℚ) ^ magnitude x := by
  have h := Int.lt_zpow_succ_log_self (b := 10) (by norm_num) x
  exact_mod_cast h

/-- The scaled number has `k` digits before its point. -/
theorem scaled_bounds {x : ℚ} (hx : 0 < x) {k : ℕ} (hk : 0 < k) :
    (10 ^ (k - 1) : ℕ) ≤ x * 10 ^ ((k : ℤ) - magnitude x) ∧
      x * 10 ^ ((k : ℤ) - magnitude x) < (10 ^ k : ℕ) := by
  have hten : (10 : ℚ) ≠ 0 := by norm_num
  constructor
  · calc ((10 ^ (k - 1) : ℕ) : ℚ) = 10 ^ (magnitude x - 1) * 10 ^ ((k : ℤ) - magnitude x) := by
          rw [← zpow_add₀ hten]
          push_cast
          rw [← zpow_natCast]
          congr 1
          omega
      _ ≤ x * 10 ^ ((k : ℤ) - magnitude x) :=
          mul_le_mul_of_nonneg_right (zpow_magnitude_le hx) (ten_zpow_pos _).le
  · calc x * 10 ^ ((k : ℤ) - magnitude x)
        < 10 ^ magnitude x * 10 ^ ((k : ℤ) - magnitude x) :=
          mul_lt_mul_of_pos_right (lt_zpow_magnitude x) (ten_zpow_pos _)
      _ = (10 ^ k : ℕ) := by
          rw [← zpow_add₀ hten]
          push_cast
          rw [← zpow_natCast]
          congr 1
          omega

theorem mem_candidates_bounds {x : ℚ} (hx : 0 < x) {k s : ℕ} (hk : 0 < k)
    (hs : s ∈ candidates x k) : 10 ^ (k - 1) ≤ s ∧ s ≤ 10 ^ k := by
  obtain ⟨hlow, hhigh⟩ := scaled_bounds hx hk
  have hfloor : 10 ^ (k - 1) ≤ ⌊x * 10 ^ ((k : ℤ) - magnitude x)⌋.toNat := by
    have : ((10 ^ (k - 1) : ℕ) : ℤ) ≤ ⌊x * 10 ^ ((k : ℤ) - magnitude x)⌋ := by
      rw [Int.le_floor]
      exact_mod_cast hlow
    omega
  have hceil : ⌊x * 10 ^ ((k : ℤ) - magnitude x)⌋.toNat < 10 ^ k := by
    rw [Int.toNat_lt' (by positivity), Int.floor_lt]
    exact_mod_cast hhigh
  unfold candidates at hs
  simp only at hs
  split_ifs at hs <;> simp only [List.mem_cons, List.not_mem_nil, or_false] at hs <;>
    rcases hs with rfl | rfl <;> omega

theorem placed_normal {x : ℚ} (hx : 0 < x) {k s : ℕ} (hk : 0 < k) (hs : s ∈ candidates x k) :
    (placed x k s).Normal := by
  obtain ⟨hlow, hhigh⟩ := mem_candidates_bounds hx hk hs
  unfold placed
  split_ifs with h
  · exact ⟨one_pos, by simp, by norm_num⟩
  · exact ⟨hk, hlow, lt_of_le_of_ne hhigh h⟩

theorem withDigits_spec {x : ℚ} (hx : 0 < x) {k : ℕ} (hk : 0 < k) {d : Decimal}
    (h : withDigits x k = some d) : d.Normal ∧ round d.value = x := by
  have hround := List.find?_some h
  obtain ⟨s, hs, rfl⟩ := List.mem_map.mp (List.mem_of_find?_eq_some h)
  exact ⟨placed_normal hx hk hs, by simpa using hround⟩

theorem search_spec {x : ℚ} (hx : 0 < x) {k' : ℕ} (hfound : (withDigits x k').isSome) :
    ∀ (fuel k : ℕ), 0 < k → k ≤ k' → k' < k + fuel →
      (search x fuel k).Normal ∧ round (search x fuel k).value = x
  | 0, k, _, hle, hlt => by omega
  | fuel + 1, k, hk, hle, hlt => by
    rw [search]
    cases h : withDigits x k with
    | some d => exact withDigits_spec hx hk h
    | none =>
      have hne : k ≠ k' := by
        rintro rfl
        simp [h] at hfound
      exact search_spec hx hfound fuel (k + 1) k.succ_pos (by omega) (by omega)

/-- A multiple of `2 ^ (-p)` has an exact decimal with `p` places. -/
theorem exists_nat_eq_mul_ten_zpow {m e : ℤ} {p : ℕ} (hm : 0 < m) (he : -p ≤ e) :
    ∃ n : ℕ, 0 < n ∧ (m * 2 ^ e : ℚ) * 10 ^ (p : ℤ) = n := by
  refine ⟨m.toNat * 2 ^ (e + p).toNat * 5 ^ p, ?_, ?_⟩
  · have : 0 < m.toNat := by omega
    positivity
  have hcast : ((m.toNat : ℕ) : ℚ) = m := by
    exact_mod_cast Int.toNat_of_nonneg hm.le
  have hpow : (2 : ℚ) ^ (e + p).toNat = 2 ^ e * 2 ^ p := by
    rw [← zpow_natCast, Int.toNat_of_nonneg (by omega), zpow_add₀ two_ne_zero, zpow_natCast]
  push_cast
  rw [hcast, hpow, zpow_natCast, show (10 : ℚ) = 2 * 5 by norm_num, mul_pow]
  ring

theorem exists_scaled_eq {x : ℚ} (hx : 0 < x) (hround : round x = x) :
    ∃ n : ℕ, 0 < n ∧ x * 10 ^ (1074 : ℤ) = n := by
  obtain ⟨m, e, -, he, h⟩ := round_eq_scaled x
  rw [hround] at h
  have hm : 0 < m := by
    rw [h] at hx
    exact_mod_cast pos_of_mul_pos_left hx (two_zpow_pos e).le
  obtain ⟨n, hn, heq⟩ := exists_nat_eq_mul_ten_zpow (p := 1074) hm he
  exact ⟨n, hn, by rw [h]; exact heq⟩

theorem magnitude_gt {x : ℚ} (hx : 0 < x) (hround : round x = x) : -1074 < magnitude x := by
  obtain ⟨n, hn, h⟩ := exists_scaled_eq hx hround
  have hle : ((10 : ℕ) : ℚ) ^ (-1074 : ℤ) ≤ x := by
    rw [zpow_neg, inv_le_iff_one_le_mul₀ (zpow_pos (by norm_num) _), Nat.cast_ofNat, h]
    exact_mod_cast hn
  have hlog := (Int.zpow_le_iff_le_log (b := 10) (by norm_num) hx).mp hle
  unfold magnitude
  omega

theorem withDigits_isSome {x : ℚ} (hx : 0 < x) (hround : round x = x) :
    (withDigits x (magnitude x + 1074).toNat).isSome := by
  have hmag := magnitude_gt hx hround
  obtain ⟨m, -, hm⟩ := exists_scaled_eq hx hround
  have hk : (((magnitude x + 1074).toNat : ℕ) : ℤ) = magnitude x + 1074 :=
    Int.toNat_of_nonneg (by omega)
  have hscaled : x * 10 ^ ((((magnitude x + 1074).toNat : ℕ) : ℤ) - magnitude x) = m := by
    rw [hk, add_sub_cancel_left, ← hm]
  -- the exact decimal is the lower candidate, and below the next power of ten
  have hmem : m ∈ candidates x (magnitude x + 1074).toNat := by
    unfold candidates
    simp only [hscaled, Int.floor_natCast, Int.toNat_natCast, sub_self]
    rw [if_pos (by norm_num)]
    exact List.mem_cons_self
  have hlt : m < 10 ^ (magnitude x + 1074).toNat := by
    have h := (scaled_bounds hx (k := (magnitude x + 1074).toNat) (by omega)).2
    rw [hscaled] at h
    exact_mod_cast h
  have hvalue : (placed x (magnitude x + 1074).toNat m).value = x := by
    rw [placed, if_neg hlt.ne, Decimal.value, hk, ← hm, mul_assoc, ← zpow_add₀ (by norm_num)]
    simp
  rw [withDigits, List.find?_isSome]
  exact ⟨_, List.mem_map_of_mem hmem, by rw [hvalue, hround, beq_self_eq_true]⟩

/-- **The shortest decimal of a positive number of the format rounds to it.** -/
theorem shortest_spec {x : ℚ} (hx : 0 < x) (hround : round x = x) :
    (shortest x).Normal ∧ round (shortest x).value = x := by
  have hmag := magnitude_gt hx hround
  exact search_spec hx (withDigits_isSome hx hround) _ 1 one_pos (by omega) (by omega)

end Binary64
