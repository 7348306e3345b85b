import Mathlib.Data.Bool.AllAny
import TaskFlow.Rank

/-! # The integer part of a rank

`incrementInteger` and `decrementInteger` step through the well-formed integer
parts in string order.  Both are read off one relation, `Next x y`: `y` is `x`
with its last digit that is not the last one raised and everything after it
wrapped to zero, or, when every digit of `x` has wrapped, the first integer of
the next head.  `Next` preserves validity, goes up in a way that no fraction can
undo, and skips no integer.
-/
namespace TaskFlow
namespace Rank
open LexOrder

/-! ### The alphabet -/

/-- The digits, read off the text once. -/
theorem rankDigits_eq : RANK_DIGITS =
    ['0', '1', '2', '3', '4', '5', '6', '7', '8', '9', 'A', 'B', 'C', 'D', 'E', 'F', 'G', 'H',
      'I', 'J', 'K', 'L', 'M', 'N', 'O', 'P', 'Q', 'R', 'S', 'T', 'U', 'V', 'W', 'X', 'Y', 'Z',
      'a', 'b', 'c', 'd', 'e', 'f', 'g', 'h', 'i', 'j', 'k', 'l', 'm', 'n', 'o', 'p', 'q', 'r',
      's', 't', 'u', 'v', 'w', 'x', 'y', 'z'] := by
  rfl

theorem rankDigits_sorted : RANK_DIGITS.Pairwise (· < ·) := by
  rw [rankDigits_eq, ← List.isChain_iff_pairwise]
  simp only [List.isChain_cons_cons, List.IsChain.singleton]
  decide

theorem rankDigits_length : RANK_DIGITS.length = 62 := by
  rw [rankDigits_eq]
  rfl

theorem zero_mem : ZERO ∈ RANK_DIGITS := by
  rw [rankDigits_eq]
  exact List.mem_cons_self

theorem last_mem : LAST ∈ RANK_DIGITS := by
  rw [rankDigits_eq]
  exact List.mem_of_getLast? rfl

theorem digitValue_of_mem {c : Char} (hc : c ∈ RANK_DIGITS) :
    digitValue (some c) = RANK_DIGITS.idxOf c := by
  simp [digitValue, hc]

theorem digitValue_nonneg {c : Char} (hc : c ∈ RANK_DIGITS) : 0 ≤ digitValue (some c) := by
  rw [digitValue_of_mem hc]
  exact Int.natCast_nonneg _

theorem digitValue_lt {c : Char} (hc : c ∈ RANK_DIGITS) : digitValue (some c) < BASE := by
  have h := List.idxOf_lt_length_of_mem hc
  rw [rankDigits_length] at h
  rw [digitValue_of_mem hc, BASE]
  omega

theorem not_mem_iff_digitValue_neg (c : Char) : digitValue (some c) < 0 ↔ c ∉ RANK_DIGITS := by
  constructor
  · intro h hc
    exact absurd (digitValue_nonneg hc) (by omega)
  · intro hc
    simp [digitValue, hc]

/-- Digits compare as their values do. -/
theorem digitValue_lt_iff {c d : Char} (hc : c ∈ RANK_DIGITS) (hd : d ∈ RANK_DIGITS) :
    digitValue (some c) < digitValue (some d) ↔ c < d := by
  rw [digitValue_of_mem hc, digitValue_of_mem hd, Int.ofNat_lt]
  exact idxOf_lt_idxOf_iff rankDigits_sorted hc hd

theorem digitValue_inj {c d : Char} (hc : c ∈ RANK_DIGITS) (hd : d ∈ RANK_DIGITS)
    (h : digitValue (some c) = digitValue (some d)) : c = d := by
  rcases lt_trichotomy c d with hlt | heq | hlt
  · exact absurd ((digitValue_lt_iff hc hd).mpr hlt) (by omega)
  · exact heq
  · exact absurd ((digitValue_lt_iff hd hc).mpr hlt) (by omega)

/-- Every value below the base is the value of one digit. -/
theorem exists_digitAt (value : Int) (h0 : 0 ≤ value) (h : value < BASE) :
    ∃ c ∈ RANK_DIGITS, digitAt value = [c] ∧ digitValue (some c) = value := by
  have hlen : value.toNat < RANK_DIGITS.length := by
    rw [rankDigits_length]
    simp only [BASE] at h
    omega
  have hmem : RANK_DIGITS[value.toNat] ∈ RANK_DIGITS := List.getElem_mem hlen
  refine ⟨RANK_DIGITS[value.toNat], hmem, ?_, ?_⟩
  · simp [digitAt, h0, List.getElem?_eq_getElem hlen]
  · have hnd : RANK_DIGITS.Nodup := (rankDigits_sorted).imp ne_of_lt
    rw [digitValue_of_mem hmem, hnd.idxOf_getElem _ hlen, Int.toNat_of_nonneg h0]

theorem digitAt_digitValue {c : Char} (hc : c ∈ RANK_DIGITS) :
    digitAt (digitValue (some c)) = [c] := by
  obtain ⟨d, hd, hat, hval⟩ := exists_digitAt _ (digitValue_nonneg hc) (digitValue_lt hc)
  rw [hat, digitValue_inj hd hc hval]

theorem digitValue_zero : digitValue (some ZERO) = 0 := by
  rw [digitValue, if_pos zero_mem, rankDigits_eq]
  rfl

theorem digitValue_last : digitValue (some LAST) = 61 := by
  rw [digitValue, if_pos last_mem, rankDigits_eq]
  rfl

theorem zero_le {c : Char} (hc : c ∈ RANK_DIGITS) : ZERO ≤ c := by
  by_contra h
  have := (digitValue_lt_iff hc zero_mem).mpr (not_le.mp h)
  have := digitValue_nonneg hc
  have := digitValue_zero
  omega

theorem le_last {c : Char} (hc : c ∈ RANK_DIGITS) : c ≤ LAST := by
  by_contra h
  have := (digitValue_lt_iff last_mem hc).mpr (not_le.mp h)
  have := digitValue_lt hc
  have := digitValue_last
  simp only [BASE] at *
  omega

/-- Every character of `ds` is a digit. -/
def Digits (ds : List Char) : Prop := ∀ c ∈ ds, c ∈ RANK_DIGITS

@[simp] theorem digits_nil : Digits [] := fun _ h => absurd h List.not_mem_nil

@[simp] theorem digits_cons {c : Char} {ds : List Char} :
    Digits (c :: ds) ↔ c ∈ RANK_DIGITS ∧ Digits ds := List.forall_mem_cons

@[simp] theorem digits_append {ds es : List Char} :
    Digits (ds ++ es) ↔ Digits ds ∧ Digits es := List.forall_mem_append

theorem digits_replicate {c : Char} (hc : c ∈ RANK_DIGITS) (n : Nat) :
    Digits (List.replicate n c) := fun d hd => by rwa [List.eq_of_mem_replicate hd]

theorem Digits.take {ds : List Char} (h : Digits ds) (n : Nat) : Digits (ds.take n) :=
  fun c hc => h c (List.mem_of_mem_take hc)

theorem Digits.drop {ds : List Char} (h : Digits ds) (n : Nat) : Digits (ds.drop n) :=
  fun c hc => h c (List.mem_of_mem_drop hc)

theorem replicate_zero_le : ∀ {ds : List Char}, Digits ds → List.replicate ds.length ZERO ≤ ds
  | [], _ => le_rfl
  | c :: ds, h => by
      rcases (zero_le ((digits_cons).mp h).1).lt_or_eq with hlt | heq
      · exact (List.cons_lt_cons_iff.mpr (Or.inl hlt)).le
      · rw [← heq]
        exact List.cons_le_cons _ (replicate_zero_le ((digits_cons).mp h).2)

theorem le_replicate_last : ∀ {ds : List Char}, Digits ds → ds ≤ List.replicate ds.length LAST
  | [], _ => le_rfl
  | c :: ds, h => by
      rcases (le_last ((digits_cons).mp h).1).lt_or_eq with hlt | heq
      · exact (List.cons_lt_cons_iff.mpr (Or.inl hlt)).le
      · rw [heq]
        exact List.cons_le_cons _ (le_replicate_last ((digits_cons).mp h).2)

/-! ### Stepping the digits -/

/-- `e` is the digit after `d`. -/
def NextDigit (d e : Char) : Prop :=
  d ∈ RANK_DIGITS ∧ e ∈ RANK_DIGITS ∧ digitValue (some e) = digitValue (some d) + 1

theorem NextDigit.lt {d e : Char} (h : NextDigit d e) : d < e :=
  (digitValue_lt_iff h.1 h.2.1).mp (by have := h.2.2; omega)

theorem NextDigit.le_of_lt {d e c : Char} (h : NextDigit d e) (hc : c ∈ RANK_DIGITS)
    (hdc : d < c) : e ≤ c := by
  by_contra hec
  have h1 := (digitValue_lt_iff hc h.2.1).mpr (not_le.mp hec)
  have h2 := (digitValue_lt_iff h.1 hc).mpr hdc
  have h3 := h.2.2
  omega

/-- `es` is `ds` with its last digit that is not `LAST` raised by one and the
`LAST`s after it wrapped to `ZERO`. -/
def NextDigits (ds es : List Char) : Prop :=
  ∃ p d e n, ds = p ++ d :: List.replicate n LAST ∧ es = p ++ e :: List.replicate n ZERO ∧
    Digits p ∧ NextDigit d e

theorem NextDigits.cons {ds es : List Char} (h : NextDigits ds es) {c : Char}
    (hc : c ∈ RANK_DIGITS) : NextDigits (c :: ds) (c :: es) := by
  obtain ⟨p, d, e, n, rfl, rfl, hp, hde⟩ := h
  exact ⟨c :: p, d, e, n, rfl, rfl, (digits_cons).mpr ⟨hc, hp⟩, hde⟩

theorem NextDigits.length_eq {ds es : List Char} (h : NextDigits ds es) :
    es.length = ds.length := by
  obtain ⟨p, d, e, n, rfl, rfl, _, _⟩ := h
  simp

theorem NextDigits.digits_left {ds es : List Char} (h : NextDigits ds es) : Digits ds := by
  obtain ⟨p, d, e, n, rfl, rfl, hp, hde⟩ := h
  simp [hp, hde.1, digits_replicate last_mem]

theorem NextDigits.digits_right {ds es : List Char} (h : NextDigits ds es) : Digits es := by
  obtain ⟨p, d, e, n, rfl, rfl, hp, hde⟩ := h
  simp [hp, hde.2.1, digits_replicate zero_mem]

theorem NextDigits.below {ds es : List Char} (h : NextDigits ds es) : Below ds es := by
  obtain ⟨p, d, e, n, rfl, rfl, _, hde⟩ := h
  exact ⟨p, d, e, _, _, rfl, rfl, hde.lt⟩

/-- No digit string of the same length lies strictly between. -/
theorem NextDigits.le_of_lt {ds es fs : List Char} (h : NextDigits ds es) (hf : Digits fs)
    (hlen : fs.length = ds.length) (hlt : ds < fs) : es ≤ fs := by
  obtain ⟨p, d, e, n, rfl, rfl, hp, hde⟩ := h
  clear hp
  induction p generalizing fs with
  | nil =>
    cases fs with
    | nil => simp at hlen
    | cons c t =>
      have hlen' : t.length = n := by simpa using hlen
      obtain ⟨hc, ht⟩ := (digits_cons).mp hf
      rcases List.cons_lt_cons_iff.mp hlt with hdc | ⟨rfl, hlast⟩
      · rcases (hde.le_of_lt hc hdc).lt_or_eq with hec | rfl
        · exact (List.cons_lt_cons_iff.mpr (Or.inl hec)).le
        · apply List.cons_le_cons _
          rw [← hlen']
          exact replicate_zero_le ht
      · rw [← hlen'] at hlast
        exact absurd hlast (not_lt_of_ge (le_replicate_last ht))
  | cons a p ih =>
    cases fs with
    | nil => simp at hlen
    | cons c t =>
      have hlen' : t.length = (p ++ d :: List.replicate n LAST).length := by simpa using hlen
      rcases List.cons_lt_cons_iff.mp hlt with hac | ⟨rfl, hrest⟩
      · exact (List.cons_lt_cons_iff.mpr (Or.inl hac)).le
      · exact List.cons_le_cons _ (ih ((digits_cons).mp hf).2 hlen' hrest)

/-- What the carry loop does: it raises the digits, or wraps them all. -/
theorem incrementDigits_cases : ∀ {ds : List Char}, Digits ds →
    (∃ es, incrementDigits ds = (es, false) ∧ NextDigits ds es) ∨
    (incrementDigits ds = (List.replicate ds.length ZERO, true) ∧
      ds = List.replicate ds.length LAST)
  | [], _ => Or.inr ⟨rfl, rfl⟩
  | d :: ds, h => by
      obtain ⟨hd, hds⟩ := (digits_cons).mp h
      rcases incrementDigits_cases hds with ⟨es, heq, hnext⟩ | ⟨heq, hlast⟩
      · exact Or.inl ⟨d :: es, by simp [incrementDigits, heq], hnext.cons hd⟩
      · by_cases hbase : digitValue (some d) + 1 = BASE
        · have hdl : d = LAST := digitValue_inj hd last_mem (by
            rw [digitValue_last]
            simp only [BASE] at hbase
            omega)
          refine Or.inr ⟨by simp [incrementDigits, heq, hbase, List.replicate_succ], ?_⟩
          rw [hdl, List.length_cons, List.replicate_succ, ← hlast]
        · have hlt := digitValue_lt hd
          have hnonneg := digitValue_nonneg hd
          obtain ⟨e, he, hat, hval⟩ :=
            exists_digitAt (digitValue (some d) + 1) (by omega) (by omega)
          refine Or.inl ⟨e :: List.replicate ds.length ZERO,
            by simp [incrementDigits, heq, hbase, hat], ?_⟩
          exact ⟨[], d, e, ds.length, congrArg (d :: ·) hlast, rfl, digits_nil, hd, he, hval⟩

/-- What the borrow loop does: it lowers the digits, or wraps them all. -/
theorem decrementDigits_cases : ∀ {es : List Char}, Digits es →
    (∃ ds, decrementDigits es = (ds, false) ∧ NextDigits ds es) ∨
    (decrementDigits es = (List.replicate es.length LAST, true) ∧
      es = List.replicate es.length ZERO)
  | [], _ => Or.inr ⟨rfl, rfl⟩
  | e :: es, h => by
      obtain ⟨he, hes⟩ := (digits_cons).mp h
      rcases decrementDigits_cases hes with ⟨ds, heq, hnext⟩ | ⟨heq, hzero⟩
      · exact Or.inl ⟨e :: ds, by simp [decrementDigits, heq], hnext.cons he⟩
      · by_cases hneg : digitValue (some e) - 1 = -1
        · have hez : e = ZERO := digitValue_inj he zero_mem (by
            rw [digitValue_zero]
            omega)
          refine Or.inr ⟨by simp [decrementDigits, heq, hneg, List.replicate_succ], ?_⟩
          rw [hez, List.length_cons, List.replicate_succ, ← hzero]
        · have hlt := digitValue_lt he
          have hnonneg := digitValue_nonneg he
          obtain ⟨d, hd, hat, hval⟩ :=
            exists_digitAt (digitValue (some e) - 1) (by omega) (by omega)
          refine Or.inl ⟨d :: List.replicate es.length LAST,
            by simp [decrementDigits, heq, hneg, hat], ?_⟩
          exact ⟨[], d, e, es.length, rfl, congrArg (e :: ·) hzero, digits_nil, hd, he,
            by omega⟩

/-! ### Heads -/

/-- `h` describes the length of an integer. -/
def IsHead (h : Char) : Prop := h ∈ RANK_DIGITS ∧ 0 ≤ integerLength (some h)

instance : DecidablePred IsHead := fun _ => instDecidableAnd

/-- How many digits follow the head `h`. -/
def width (h : Char) : Nat := (integerLength (some h)).toNat - 1

/-- `k` is the head after `h`. -/
def NextHead (h k : Char) : Prop :=
  IsHead h ∧ IsHead k ∧ h < k ∧ ∀ c ∈ RANK_DIGITS, IsHead c → h < c → k ≤ c

instance (h k : Char) : Decidable (NextHead h k) :=
  have : Decidable (∀ c ∈ RANK_DIGITS, IsHead c → h < c → k ≤ c) := List.decidableBAll _ _
  instDecidableAnd

theorem integerLength_lower {h : Char} (hh : 97 ≤ h.toNat ∧ h.toNat ≤ 122) :
    integerLength (some h) = h.toNat - 97 + 2 := if_pos hh

theorem integerLength_upper {h : Char} (hh : 65 ≤ h.toNat ∧ h.toNat ≤ 90) :
    integerLength (some h) = 90 - h.toNat + 2 := by
  have hlower : ¬ ('a' ≤ h ∧ h ≤ 'z') := fun hlower => by
    have : 97 ≤ h.toNat := hlower.1
    omega
  exact (if_neg hlower).trans (if_pos hh)

/-- The heads are the letters. -/
theorem isHead_iff {h : Char} : IsHead h ↔
    (97 ≤ h.toNat ∧ h.toNat ≤ 122) ∨ (65 ≤ h.toNat ∧ h.toNat ≤ 90) := by
  constructor
  · rintro ⟨-, hpos⟩
    simp only [integerLength] at hpos
    split_ifs at hpos with hlower hupper
    · exact .inl hlower
    · exact .inr hupper
    · omega
  · intro hh
    have hmem : ∀ n < 123, (97 ≤ n ∨ 65 ≤ n ∧ n ≤ 90) → Char.ofNat n ∈ RANK_DIGITS := by
      rw [rankDigits_eq]
      decide
    refine ⟨?_, ?_⟩
    · rw [← Char.ofNat_toNat h]
      exact hmem h.toNat (by omega) (by omega)
    · rcases hh with hlower | hupper
      · rw [integerLength_lower hlower]
        omega
      · rw [integerLength_upper hupper]
        omega

theorem IsHead.integerLength_eq {h : Char} (hh : IsHead h) :
    integerLength (some h) = width h + 1 := by
  unfold width
  rcases (isHead_iff).mp hh with hlower | hupper
  · rw [integerLength_lower hlower]
    omega
  · rw [integerLength_upper hupper]
    omega

theorem width_lower {h : Char} (hh : 97 ≤ h.toNat ∧ h.toNat ≤ 122) :
    width h = h.toNat - 96 := by
  rw [width, integerLength_lower hh]
  omega

theorem width_upper {h : Char} (hh : 65 ≤ h.toNat ∧ h.toNat ≤ 90) :
    width h = 91 - h.toNat := by
  rw [width, integerLength_upper hh]
  omega

/-- No character lies between two neighbours. -/
theorem nextHead_of_succ {h k : Char} (hh : IsHead h) (hk : IsHead k)
    (hsucc : k.toNat = h.toNat + 1) : NextHead h k := by
  refine ⟨hh, hk, ?_, fun c _ _ hc => ?_⟩
  · show h.toNat < k.toNat
    omega
  · have hlt : h.toNat < c.toNat := hc
    show k.toNat ≤ c.toNat
    omega

/-- No letter lies between the upper and the lower case. -/
theorem nextHead_Z_a : NextHead 'Z' 'a' := by
  refine ⟨(isHead_iff).mpr (by decide), (isHead_iff).mpr (by decide), by decide, ?_⟩
  intro c _ hc hlt
  have hlt : 90 < c.toNat := hlt
  show 97 ≤ c.toNat
  have := (isHead_iff).mp hc
  omega

theorem toNat_ofNat_ascii : ∀ n < 128, (Char.ofNat n).toNat = n := by decide

theorem ne_toNat {h : Char} {n : Nat} (hn : n < 128) (hne : h ≠ Char.ofNat n) : h.toNat ≠ n := by
  rintro rfl
  exact hne (Char.ofNat_toNat h).symm

/-- Incrementing a head other than the two at the ends of the ranges. -/
theorem nextHead_up {h : Char} (hh : IsHead h) (hZ : h ≠ 'Z') (hz : h ≠ 'z') :
    NextHead h (Char.ofNat (h.toNat + 1)) ∧
      (if 'a' < Char.ofNat (h.toNat + 1) then width (Char.ofNat (h.toNat + 1)) = width h + 1
        else width h = width (Char.ofNat (h.toNat + 1)) + 1) := by
  have hletter := (isHead_iff).mp hh
  have hZ' : h.toNat ≠ 90 := ne_toNat (by omega) hZ
  have hz' : h.toNat ≠ 122 := ne_toNat (by omega) hz
  have hsucc := toNat_ofNat_ascii (h.toNat + 1) (by omega)
  set k := Char.ofNat (h.toNat + 1)
  refine ⟨nextHead_of_succ hh ((isHead_iff).mpr (by omega)) hsucc, ?_⟩
  split_ifs with ha
  · have ha : 97 < k.toNat := ha
    rw [width_lower (by omega), width_lower (by omega)]
    omega
  · have ha : ¬ 97 < k.toNat := ha
    rw [width_upper (by omega), width_upper (by omega)]
    omega

/-- Decrementing a head other than the two at the ends of the ranges. -/
theorem nextHead_down {k : Char} (hk : IsHead k) (ha : k ≠ 'a') (hA : k ≠ 'A') :
    NextHead (Char.ofNat (k.toNat - 1)) k ∧
      (if Char.ofNat (k.toNat - 1) < 'Z' then width (Char.ofNat (k.toNat - 1)) = width k + 1
        else width k = width (Char.ofNat (k.toNat - 1)) + 1) := by
  have hletter := (isHead_iff).mp hk
  have ha' : k.toNat ≠ 97 := ne_toNat (by omega) ha
  have hA' : k.toNat ≠ 65 := ne_toNat (by omega) hA
  have hpred := toNat_ofNat_ascii (k.toNat - 1) (by omega)
  set h := Char.ofNat (k.toNat - 1)
  refine ⟨nextHead_of_succ ((isHead_iff).mpr (by omega)) hk (by omega), ?_⟩
  split_ifs with hZ
  · have hZ : h.toNat < 90 := hZ
    rw [width_upper (by omega), width_upper (by omega)]
    omega
  · have hZ : ¬ h.toNat < 90 := hZ
    rw [width_lower (by omega), width_lower (by omega)]
    omega

/-! ### Integers -/

/-- A well-formed integer part: a head and as many digits as it announces. -/
def IsInteger (x : List Char) : Prop :=
  ∃ h ds, x = h :: ds ∧ IsHead h ∧ ds.length = width h ∧ Digits ds

theorem IsInteger.digits {x : List Char} (hx : IsInteger x) : Digits x := by
  obtain ⟨h, ds, rfl, hh, _, hds⟩ := hx
  exact (digits_cons).mpr ⟨hh.1, hds⟩

theorem IsInteger.ne_nil {x : List Char} (hx : IsInteger x) : x ≠ [] := by
  obtain ⟨h, ds, rfl, _⟩ := hx
  exact List.cons_ne_nil h ds

/-- The head of a rank announces the length of its integer part. -/
theorem IsInteger.integerLength_append {x : List Char} (hx : IsInteger x) (f : List Char) :
    integerLength (x ++ f)[0]? = x.length := by
  obtain ⟨h, ds, rfl, hh, hlen, _⟩ := hx
  simp [hh.integerLength_eq, hlen]

theorem isInteger_zero : IsInteger ZERO_INTEGER := ⟨'a', [ZERO], rfl, by decide, by decide, by
  simp [zero_mem]⟩

theorem isInteger_smallest : IsInteger SMALLEST_INTEGER :=
  ⟨'A', List.replicate 26 ZERO, rfl, by decide, by decide, digits_replicate zero_mem 26⟩

/-- Integers in order differ at a position, so their extensions are in order. -/
theorem IsInteger.below_of_lt {x y : List Char} (hx : IsInteger x) (hy : IsInteger y)
    (hlt : x < y) : Below x y := by
  obtain ⟨h, ds, rfl, hh, hds, _⟩ := hx
  obtain ⟨k, es, rfl, hk, hes, _⟩ := hy
  rcases (head_le_head hlt).lt_or_eq with hhk | rfl
  · exact below_of_head hhk ds es
  · exact below_of_length_eq (by simp [hds, hes]) hlt

/-- The largest integer the encoding can express. -/
def LARGEST_INTEGER : List Char := 'z' :: List.replicate 26 LAST

/-- `y` is the integer after `x`. -/
inductive Next : List Char → List Char → Prop where
  | digits {h : Char} {ds es : List Char} : NextDigits ds es → Next (h :: ds) (h :: es)
  | head {h k : Char} : NextHead h k →
      Next (h :: List.replicate (width h) LAST) (k :: List.replicate (width k) ZERO)

theorem Next.isInteger_right {x y : List Char} (h : Next x y) (hx : IsInteger x) :
    IsInteger y := by
  cases h with
  | digits hd =>
    obtain ⟨k, ds, heq, hk, hlen, _⟩ := hx
    obtain ⟨rfl, rfl⟩ := List.cons.inj heq
    exact ⟨_, _, rfl, hk, hd.length_eq.trans hlen, hd.digits_right⟩
  | head hk =>
    exact ⟨_, _, rfl, hk.2.1, List.length_replicate, digits_replicate zero_mem _⟩

theorem Next.isInteger_left {x y : List Char} (h : Next x y) (hy : IsInteger y) :
    IsInteger x := by
  cases h with
  | digits hd =>
    obtain ⟨k, ds, heq, hk, hlen, _⟩ := hy
    obtain ⟨rfl, rfl⟩ := List.cons.inj heq
    exact ⟨_, _, rfl, hk, hd.length_eq.symm.trans hlen, hd.digits_left⟩
  | head hk =>
    exact ⟨_, _, rfl, hk.1, List.length_replicate, digits_replicate last_mem _⟩

theorem Next.below {x y : List Char} (h : Next x y) : Below x y := by
  cases h with
  | digits hd => exact hd.below.cons _
  | head hk => exact below_of_head hk.2.2.1 _ _

/-- No integer lies strictly between one and the next. -/
theorem Next.le_of_lt {x y z : List Char} (h : Next x y) (hx : IsInteger x) (hz : IsInteger z)
    (hlt : x < z) : y ≤ z := by
  obtain ⟨c, t, rfl, hc, hlen, ht⟩ := hz
  cases h with
  | @digits h ds es hd =>
    obtain ⟨k, ds', heq, hk, hlen', _⟩ := hx
    obtain ⟨rfl, rfl⟩ := List.cons.inj heq
    rcases List.cons_lt_cons_iff.mp hlt with hhc | ⟨rfl, hdt⟩
    · exact (List.cons_lt_cons_iff.mpr (Or.inl hhc)).le
    · exact List.cons_le_cons _ (hd.le_of_lt ht (hlen.trans hlen'.symm) hdt)
  | @head h k hk =>
    rcases List.cons_lt_cons_iff.mp hlt with hhc | ⟨rfl, hdt⟩
    · rcases (hk.2.2.2 c hc.1 hc hhc).lt_or_eq with hkc | rfl
      · exact (List.cons_lt_cons_iff.mpr (Or.inl hkc)).le
      · apply List.cons_le_cons _
        rw [← hlen]
        exact replicate_zero_le ht
    · rw [← hlen] at hdt
      exact absurd hdt (not_lt_of_ge (le_replicate_last ht))

/-- What `incrementInteger` does: the next integer, or `none` at the largest. -/
theorem incrementInteger_cases {x : List Char} (hx : IsInteger x) :
    (∃ y, incrementInteger x = some y ∧ Next x y) ∨
    (incrementInteger x = none ∧ x = LARGEST_INTEGER) := by
  obtain ⟨h, ds, rfl, hh, hlen, hds⟩ := hx
  rcases incrementDigits_cases hds with ⟨es, heq, hnext⟩ | ⟨heq, hlast⟩
  · exact Or.inl ⟨h :: es, by simp [incrementInteger, heq], .digits hnext⟩
  · rw [hlen] at heq hlast
    by_cases hZ : h = 'Z'
    · subst hZ
      refine Or.inl ⟨ZERO_INTEGER, by simp [incrementInteger, heq], ?_⟩
      rw [hlast]
      exact .head nextHead_Z_a
    by_cases hz : h = 'z'
    · subst hz
      refine Or.inr ⟨by simp [incrementInteger, heq], ?_⟩
      rw [hlast]
      rfl
    obtain ⟨hnext, hwidth⟩ := nextHead_up hh hZ hz
    refine Or.inl ⟨_, ?_, hlast ▸ Next.head hnext⟩
    by_cases hlt : 'a' < Char.ofNat (h.toNat + 1)
    · rw [if_pos hlt] at hwidth
      simp [incrementInteger, heq, hZ, hz, hlt, hwidth, List.replicate_succ']
    · rw [if_neg hlt] at hwidth
      simp [incrementInteger, heq, hZ, hz, hlt, hwidth]

/-- What `decrementInteger` does: the previous integer, or `none` at the
smallest. -/
theorem decrementInteger_cases {y : List Char} (hy : IsInteger y) :
    (∃ x, decrementInteger y = some x ∧ Next x y) ∨
    (decrementInteger y = none ∧ y = SMALLEST_INTEGER) := by
  obtain ⟨k, es, rfl, hk, hlen, hes⟩ := hy
  rcases decrementDigits_cases hes with ⟨ds, heq, hnext⟩ | ⟨heq, hzero⟩
  · exact Or.inl ⟨k :: ds, by simp [decrementInteger, heq], .digits hnext⟩
  · rw [hlen] at heq hzero
    by_cases ha : k = 'a'
    · subst ha
      refine Or.inl ⟨['Z', LAST], by simp [decrementInteger, heq], ?_⟩
      rw [hzero]
      exact .head nextHead_Z_a
    by_cases hA : k = 'A'
    · subst hA
      refine Or.inr ⟨by simp [decrementInteger, heq], ?_⟩
      rw [hzero]
      rfl
    obtain ⟨hnext, hwidth⟩ := nextHead_down hk ha hA
    refine Or.inl ⟨_, ?_, hzero ▸ Next.head hnext⟩
    by_cases hlt : Char.ofNat (k.toNat - 1) < 'Z'
    · rw [if_pos hlt] at hwidth
      simp [decrementInteger, heq, ha, hA, hlt, hwidth, List.replicate_succ']
    · rw [if_neg hlt] at hwidth
      simp [decrementInteger, heq, ha, hA, hlt, hwidth]

end Rank
end TaskFlow
