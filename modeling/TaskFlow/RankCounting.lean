import TaskFlow.BigEndian
import TaskFlow.RankBetween

/-! # Counting in integer parts

The integer parts from `ZERO_INTEGER` up are numbers: `ordinal` is the number
that one stands for, and the step from an integer part to the next raises it by
one (`Next.ordinal_eq`), through every carry and every change of the head.  Read
this way `rankSequence` counts: its ranks are the integer parts of `0`, `1` and so
on up to the last that 26 digits can express, and fractions of that one from then
on.
-/
namespace TaskFlow
namespace Rank
open LexOrder

variable {x y z : List Char}

/-! ### One step up and one step down -/

/-- `x` is the integer part of a rank. -/
def IsIntegerPart (x : List Char) : Prop := ∃ r, isRank r = true ∧ integerPartOf r = .ok x

theorem isIntegerPart_iff : IsIntegerPart x ↔ IsInteger x := by
  constructor
  · rintro ⟨r, hr, hx⟩
    obtain ⟨y, f, rfl, hy, -⟩ := (isRank_iff).mp hr
    rw [integerPartOf_append hy] at hx
    exact Except.ok.inj hx ▸ hy
  · exact fun hx => ⟨x, hx.isRank, by simpa using integerPartOf_append hx []⟩

theorem smallest_le (hx : IsInteger x) : SMALLEST_INTEGER ≤ x := by
  obtain ⟨h, ds, rfl, hh, hlen, hds⟩ := hx
  have hA : 'A' ≤ h := by
    have := (isHead_iff).mp hh
    show 65 ≤ h.toNat
    omega
  rcases hA.lt_or_eq with hlt | rfl
  · exact (List.cons_lt_cons_iff.mpr (Or.inl hlt)).le
  · have hwidth : ds.length = 26 := hlen.trans (by decide)
    exact List.cons_le_cons _ (hwidth ▸ replicate_zero_le hds)

theorem Next.eq_right (h : Next x y) (h' : Next x z) (hx : IsInteger x) : y = z :=
  le_antisymm (h.le_of_lt hx (h'.isInteger_right hx) h'.below.lt)
    (h'.le_of_lt hx (h.isInteger_right hx) h.below.lt)

theorem Next.eq_left (h : Next x z) (h' : Next y z) (hz : IsInteger z) : x = y := by
  have hx := h.isInteger_left hz
  have hy := h'.isInteger_left hz
  rcases lt_trichotomy x y with hlt | heq | hlt
  · exact absurd (h.le_of_lt hx hy hlt) (not_le_of_gt h'.below.lt)
  · exact heq
  · exact absurd (h'.le_of_lt hy hx hlt) (not_le_of_gt h.below.lt)

theorem incrementInteger_eq_some_iff (hx : IsInteger x) :
    incrementInteger x = some y ↔ Next x y := by
  rcases incrementInteger_cases hx with ⟨y', heq, hnext⟩ | ⟨heq, rfl⟩
  · rw [heq, Option.some_inj]
    exact ⟨fun h => h ▸ hnext, fun h => hnext.eq_right h hx⟩
  · rw [heq]
    refine ⟨fun h => absurd h (by simp), fun h => ?_⟩
    exact absurd (le_largest (h.isInteger_right hx)) (not_le_of_gt h.below.lt)

theorem decrementInteger_eq_some_iff (hy : IsInteger y) :
    decrementInteger y = some x ↔ Next x y := by
  rcases decrementInteger_cases hy with ⟨x', heq, hnext⟩ | ⟨heq, rfl⟩
  · rw [heq, Option.some_inj]
    exact ⟨fun h => h ▸ hnext, fun h => hnext.eq_left h hy⟩
  · rw [heq]
    refine ⟨fun h => absurd h (by simp), fun h => ?_⟩
    exact absurd (smallest_le (h.isInteger_left hy)) (not_le_of_gt h.below.lt)

/-- There is a next integer part but for the largest one. -/
theorem incrementInteger_eq_none_iff (hx : IsInteger x) :
    incrementInteger x = none ↔ ∀ z, IsIntegerPart z → z ≤ x := by
  constructor
  · intro hnone z hz
    rcases incrementInteger_cases hx with ⟨y, heq, -⟩ | ⟨-, rfl⟩
    · cases hnone.symm.trans heq
    · exact le_largest ((isIntegerPart_iff).mp hz)
  · intro hmax
    rcases incrementInteger_cases hx with ⟨y, -, hnext⟩ | ⟨heq, -⟩
    · exact absurd (hmax y ((isIntegerPart_iff).mpr (hnext.isInteger_right hx)))
        (not_le_of_gt hnext.below.lt)
    · exact heq

/-- There is a previous integer part but for the smallest one. -/
theorem decrementInteger_eq_none_iff (hy : IsInteger y) :
    decrementInteger y = none ↔ ∀ z, IsIntegerPart z → y ≤ z := by
  constructor
  · intro hnone z hz
    rcases decrementInteger_cases hy with ⟨x, heq, -⟩ | ⟨-, rfl⟩
    · cases hnone.symm.trans heq
    · exact smallest_le ((isIntegerPart_iff).mp hz)
  · intro hmin
    rcases decrementInteger_cases hy with ⟨x, -, hnext⟩ | ⟨heq, -⟩
    · exact absurd (hmin x ((isIntegerPart_iff).mpr (hnext.isInteger_left hy)))
        (not_le_of_gt hnext.below.lt)
    · exact heq

/-- **The steps undo each other**: each leads from an integer part to another, is
undone by the other, stops only at the end of the integer parts and leaves none
of them out. -/
theorem integer_steps (hx : IsIntegerPart x) :
    (incrementInteger x = none ↔ ∀ z, IsIntegerPart z → z ≤ x) ∧
    (decrementInteger x = none ↔ ∀ z, IsIntegerPart z → x ≤ z) ∧
    (∀ y, incrementInteger x = some y → IsIntegerPart y ∧ decrementInteger y = some x ∧
      x < y ∧ ∀ z, IsIntegerPart z → ¬(x < z ∧ z < y)) ∧
    ∀ y, decrementInteger x = some y → IsIntegerPart y ∧ incrementInteger y = some x := by
  have hx := (isIntegerPart_iff).mp hx
  refine ⟨incrementInteger_eq_none_iff hx, decrementInteger_eq_none_iff hx, ?_, ?_⟩
  · intro y hy
    have hnext := (incrementInteger_eq_some_iff hx).mp hy
    have hvalid := hnext.isInteger_right hx
    refine ⟨(isIntegerPart_iff).mpr hvalid, (decrementInteger_eq_some_iff hvalid).mpr hnext,
      hnext.below.lt, fun z hz hbetween => ?_⟩
    exact absurd (hnext.le_of_lt hx ((isIntegerPart_iff).mp hz) hbetween.1)
      (not_le_of_gt hbetween.2)
  · intro y hy
    have hnext := (decrementInteger_eq_some_iff hx).mp hy
    have hvalid := hnext.isInteger_left hx
    exact ⟨(isIntegerPart_iff).mpr hvalid, (incrementInteger_eq_some_iff hvalid).mpr hnext⟩

/-- The step from the last integer of one digit to the first of two. -/
theorem integer_steps_carry : IsIntegerPart ['a', LAST] ∧
    decrementInteger ['b', ZERO, ZERO] = some ['a', LAST] := by
  have hz : IsIntegerPart ['a', LAST] := ⟨['a', LAST], by decide, by decide⟩
  have hincrement : incrementInteger ['a', LAST] = some ['b', ZERO, ZERO] := by decide
  exact ⟨hz, ((integer_steps hz).2.2.1 _ hincrement).2.1⟩

/-! ### The number of an integer part -/

/-- The number that the digits `ds` spell. -/
def digitsValue (ds : List Char) : ℕ := BigEndian.value 62 (ds.map fun c => RANK_DIGITS.idxOf c)

/-- How many numbers are written with at most `k` digits, none of them with none. -/
def integersUpTo : ℕ → ℕ
  | 0 => 0
  | k + 1 => integersUpTo k + 62 ^ (k + 1)

/-- How many integer parts there are from `ZERO_INTEGER` up to `x`. -/
def ordinal : List Char → ℕ
  | [] => 0
  | h :: ds => integersUpTo (width h - 1) + digitsValue ds

theorem integersUpTo_succ (k : ℕ) : integersUpTo (k + 1) = integersUpTo k + 62 ^ (k + 1) := rfl

theorem integersUpTo_mono : Monotone integersUpTo :=
  monotone_nat_of_le_succ fun _ => Nat.le_add_right _ _

theorem ordinal_cons (h : Char) (ds : List Char) :
    ordinal (h :: ds) = integersUpTo (width h - 1) + digitsValue ds := rfl

theorem idxOf_zero : RANK_DIGITS.idxOf ZERO = 0 := by
  have := digitValue_of_mem zero_mem
  rw [digitValue_zero] at this
  omega

theorem idxOf_last : RANK_DIGITS.idxOf LAST = 61 := by
  have := digitValue_of_mem last_mem
  rw [digitValue_last] at this
  omega

theorem digitsValue_zeros (n : ℕ) : digitsValue (List.replicate n ZERO) = 0 := by
  rw [digitsValue, List.map_replicate, idxOf_zero, BigEndian.value_zeros]

theorem digitsValue_lasts (n : ℕ) : digitsValue (List.replicate n LAST) + 1 = 62 ^ n := by
  rw [digitsValue, List.map_replicate, idxOf_last]
  exact BigEndian.value_lasts n

theorem digitsValue_append_cons (p : List Char) (c : Char) (ds : List Char) :
    digitsValue (p ++ c :: ds) = digitsValue p * 62 ^ (ds.length + 1) +
      (RANK_DIGITS.idxOf c * 62 ^ ds.length + digitsValue ds) := by
  simp only [digitsValue, List.map_append, List.map_cons, BigEndian.value_append,
    BigEndian.value_cons, List.length_cons, List.length_map]

theorem digitsValue_lt {ds : List Char} (hds : Digits ds) :
    digitsValue ds < 62 ^ ds.length := by
  rw [← List.length_map (f := fun c => RANK_DIGITS.idxOf c), digitsValue]
  refine BigEndian.value_lt (by decide) fun d hd => ?_
  obtain ⟨c, hc, rfl⟩ := List.mem_map.mp hd
  have := List.idxOf_lt_length_of_mem (hds c hc)
  rwa [rankDigits_length] at this

/-- The carry raises the number by one. -/
theorem NextDigits.digitsValue_eq {ds es : List Char} (h : NextDigits ds es) :
    digitsValue es = digitsValue ds + 1 := by
  obtain ⟨p, d, e, n, rfl, rfl, -, hd, he, hde⟩ := h
  have hraised : RANK_DIGITS.idxOf e = RANK_DIGITS.idxOf d + 1 := by
    rw [digitValue_of_mem he, digitValue_of_mem hd] at hde
    omega
  have hlasts := digitsValue_lasts n
  rw [digitsValue_append_cons, digitsValue_append_cons, List.length_replicate,
    List.length_replicate, digitsValue_zeros, hraised, add_mul, one_mul]
  omega

/-- The head of a number, and the head after it. -/
theorem NextHead.width_eq {h k : Char} (hk : NextHead h k) (hpos : 'a' ≤ h) :
    width k = width h + 1 ∧ 0 < width h := by
  have ha : 97 ≤ h.toNat := hpos
  have hletter := (isHead_iff).mp hk.1
  have hbelow : h.toNat < k.toNat := hk.2.2.1
  have hk' := (isHead_iff).mp hk.2.1
  have hZ : h ≠ 'Z' := fun heq => absurd ha (heq ▸ by decide)
  have hz : h ≠ 'z' := fun heq => by
    have hlast : h.toNat = 122 := congrArg Char.toNat heq
    omega
  obtain ⟨hnext, hwidth⟩ := nextHead_up hk.1 hZ hz
  -- The next head is the letter after `h`.
  obtain rfl : k = Char.ofNat (h.toNat + 1) :=
    le_antisymm (hk.2.2.2 _ hnext.2.1.1 hnext.2.1 hnext.2.2.1)
      (hnext.2.2.2 k hk.2.1.1 hk.2.1 hk.2.2.1)
  rw [if_pos (lt_of_le_of_lt hpos hk.2.2.1)] at hwidth
  refine ⟨hwidth, ?_⟩
  rw [width_lower (by omega)]
  omega

theorem le_head_of_zero_le {h : Char} {ds : List Char} (hpos : ZERO_INTEGER ≤ h :: ds) :
    'a' ≤ h := by
  rcases hpos.lt_or_eq with hlt | heq
  · exact head_le_head hlt
  · exact (List.cons.inj heq).1.le

/-- The step to the next integer part raises the number by one. -/
theorem Next.ordinal_eq (h : Next x y) (hpos : ZERO_INTEGER ≤ x) : ordinal y = ordinal x + 1 := by
  cases h with
  | digits hd => rw [ordinal_cons, ordinal_cons, hd.digitsValue_eq, add_assoc]
  | @head h k hk =>
    obtain ⟨hwidth, hpositive⟩ := hk.width_eq (le_head_of_zero_le hpos)
    have hlasts := digitsValue_lasts (width h)
    have hsucc : width h - 1 + 1 = width h := Nat.sub_add_cancel hpositive
    have hup := integersUpTo_succ (width h - 1)
    rw [hsucc] at hup
    rw [ordinal_cons, ordinal_cons, digitsValue_zeros, hwidth, Nat.add_sub_cancel]
    omega

theorem ordinal_lt (hx : IsInteger x) : ordinal x < integersUpTo 26 := by
  obtain ⟨h, ds, rfl, hh, hlen, hds⟩ := hx
  have hwidth : 0 < width h ∧ width h ≤ 26 := by
    rcases (isHead_iff).mp hh with hlower | hupper
    · rw [width_lower hlower]
      omega
    · rw [width_upper hupper]
      omega
  have hup := integersUpTo_succ (width h - 1)
  rw [Nat.sub_add_cancel hwidth.1] at hup
  have hlt := digitsValue_lt hds
  rw [hlen] at hlt
  have := integersUpTo_mono hwidth.2
  rw [ordinal_cons]
  omega

/-- An integer part is as long as its number takes. -/
theorem length_le_of_ordinal_lt {k : ℕ} (hx : IsInteger x) (h : ordinal x < integersUpTo k) :
    x.length ≤ k + 1 := by
  obtain ⟨c, ds, rfl, -, hlen, -⟩ := hx
  by_contra hlong
  rw [List.length_cons, hlen] at hlong
  have := integersUpTo_mono (show k ≤ width c - 1 by omega)
  rw [ordinal_cons] at h
  omega

theorem ordinal_largest : ordinal LARGEST_INTEGER + 1 = integersUpTo 26 := by
  have hwidth : width 'z' - 1 = 25 := by decide
  have hlasts := digitsValue_lasts 26
  have hup : integersUpTo 26 = integersUpTo 25 + 62 ^ 26 := integersUpTo_succ 25
  rw [LARGEST_INTEGER, ordinal_cons, hwidth]
  omega

/-! ### Counting -/

/-- After the largest integer part come its fractions. -/
theorem afterRank_cases (hx : IsInteger x) :
    (∃ y, afterRank x = .ok y ∧ Next x y) ∨
      x = LARGEST_INTEGER ∧ afterRank x = .ok (LARGEST_INTEGER ++ ['V']) := by
  have hpart : integerPartOf x = .ok x := by simpa using integerPartOf_append hx []
  rcases incrementInteger_cases hx with ⟨y, heq, hnext⟩ | ⟨heq, rfl⟩
  · exact Or.inl ⟨y, by simp [afterRank, hpart, heq, bind, Except.bind, pure, Except.pure], hnext⟩
  · have hmidpoint : midpoint [] none = ['V'] := by decide +kernel
    exact Or.inr ⟨rfl, by
      simp [afterRank, hpart, heq, hmidpoint, bind, Except.bind, pure, Except.pure]⟩

theorem not_isIntegerPart_fraction : ¬IsIntegerPart (LARGEST_INTEGER ++ ['V']) := fun h =>
  (le_largest ((isIntegerPart_iff).mp h)).not_gt (lt_append_of_ne_nil _ (by simp))

theorem rankSequenceFrom_succ {cursor : Option (List Char)} {r : List Char} {count : ℕ}
    {ranks : List (List Char)} (hr : between cursor none = .ok r) :
    rankSequenceFrom cursor (count + 1) = .ok ranks ↔
      ∃ rest, rankSequenceFrom (some r) count = .ok rest ∧ ranks = r :: rest := by
  rw [rankSequenceFrom, hr]
  cases hrest : rankSequenceFrom (some r) count with
  | error e => simp [hrest, bind, Except.bind]
  | ok rest => simp [hrest, bind, Except.bind, pure, Except.pure, eq_comm]

/-- The ranks after an integer part are the integer parts that follow it, as long as
there are any. -/
theorem rankSequenceFrom_counts {count : ℕ} {ranks : List (List Char)} (hx : IsInteger x)
    (hpos : ZERO_INTEGER ≤ x) (h : rankSequenceFrom (some x) count = .ok ranks) :
    ((∀ r ∈ ranks, IsIntegerPart r) ↔ ordinal x + count < integersUpTo 26) ∧
      ∀ r ∈ ranks, IsIntegerPart r → ordinal r ≤ ordinal x + count := by
  induction count generalizing x ranks with
  | zero =>
    obtain rfl := Except.ok.inj h
    exact ⟨iff_of_true (by simp) (ordinal_lt hx), by simp⟩
  | succ count ih =>
    rcases afterRank_cases hx with ⟨y, hafter, hnext⟩ | ⟨rfl, hafter⟩
    · obtain ⟨rest, hrest, rfl⟩ := (rankSequenceFrom_succ
        ((between_some_none hx.isRank).trans hafter)).mp h
      have hy := hnext.isInteger_right hx
      obtain ⟨hbare, hordinals⟩ := ih hy (hpos.trans hnext.below.lt.le) hrest
      have hone := hnext.ordinal_eq hpos
      refine ⟨?_, fun r hr hpart => ?_⟩
      · rw [List.forall_mem_cons, hbare, hone]
        exact ⟨fun ⟨_, hlt⟩ => by omega, fun hlt => ⟨(isIntegerPart_iff).mpr hy, by omega⟩⟩
      · rcases List.mem_cons.mp hr with rfl | hr
        · omega
        · have := hordinals r hr hpart
          omega
    · obtain ⟨rest, hrest, rfl⟩ := (rankSequenceFrom_succ
        ((between_some_none hx.isRank).trans hafter)).mp h
      have hfull := ordinal_largest
      refine ⟨iff_of_false (fun hbare => not_isIntegerPart_fraction
        (hbare _ List.mem_cons_self)) (by omega), fun r hr hpart => ?_⟩
      have := ordinal_lt ((isIntegerPart_iff).mp hpart)
      omega

/-- The ranks of a sequence are bare integer parts up to the last there is, and as long as
their numbers take. -/
theorem rankSequence_bare {count : ℕ} {ranks : List (List Char)}
    (h : rankSequence count = .ok ranks) :
    ((∀ r ∈ ranks, IsIntegerPart r) ↔ count ≤ integersUpTo 26) ∧
      ∀ k, count ≤ integersUpTo k → ∀ r ∈ ranks, IsIntegerPart r → r.length ≤ k + 1 := by
  cases count with
  | zero =>
    obtain rfl := Except.ok.inj h
    simp
  | succ count =>
    obtain ⟨rest, hrest, rfl⟩ := (rankSequenceFrom_succ (r := ZERO_INTEGER) rfl).mp h
    have hzero : ordinal ZERO_INTEGER = 0 := digitsValue_zeros 1
    obtain ⟨hbare, hordinals⟩ := rankSequenceFrom_counts isInteger_zero le_rfl hrest
    rw [hzero, zero_add] at hbare hordinals
    refine ⟨?_, fun k hk r hr hpart => ?_⟩
    · rw [List.forall_mem_cons, hbare]
      exact ⟨fun h => h.2, fun h => ⟨(isIntegerPart_iff).mpr isInteger_zero, h⟩⟩
    · refine length_le_of_ordinal_lt ((isIntegerPart_iff).mp hpart) ?_
      rcases List.mem_cons.mp hr with rfl | hr
      · omega
      · have := hordinals r hr hpart
        omega

end Rank
end TaskFlow
