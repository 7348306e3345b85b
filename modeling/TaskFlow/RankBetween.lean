import TaskFlow.RankInteger

/-! # `between` generates a rank between its neighbours

A rank is an integer part followed by a fraction, `isRank_iff`.  The proof
follows the code: `midpoint` lies between two fractions, an integer step clears
every fraction, and `between` puts the two together.  The one pair of ends it
fails on is the start of a list whose first rank is `SMALLEST_INTEGER` itself:
nothing sorts below that rank, and instead of refusing, `beforeRank` returns a
rank above it.
-/
namespace TaskFlow
namespace Rank
open LexOrder

/-! ### Fractions -/

/-- Digits that do not end in `ZERO`. -/
def IsFraction (f : List Char) : Prop := Digits f ∧ f.getLast? ≠ some ZERO

theorem isFraction_nil : IsFraction [] := ⟨digits_nil, by simp⟩

theorem IsFraction.tail {c : Char} {f : List Char} (h : IsFraction (c :: f)) : IsFraction f := by
  refine ⟨(digits_cons.mp h.1).2, fun hlast => h.2 ?_⟩
  cases f with
  | nil => simp at hlast
  | cons d f => rw [← hlast, List.getLast?_cons_cons]

theorem IsFraction.cons {f : List Char} (h : IsFraction f) (hne : f ≠ []) {c : Char}
    (hc : c ∈ RANK_DIGITS) : IsFraction (c :: f) := by
  refine ⟨digits_cons.mpr ⟨hc, h.1⟩, ?_⟩
  obtain ⟨d, f, rfl⟩ := List.exists_cons_of_ne_nil hne
  rw [List.getLast?_cons_cons]
  exact h.2

theorem isFraction_singleton {c : Char} (hc : c ∈ RANK_DIGITS) (hz : ZERO < c) :
    IsFraction [c] :=
  ⟨by simpa using hc, by simpa using ne_of_gt hz⟩

theorem IsFraction.ne_zero {f : List Char} (h : IsFraction (ZERO :: f)) : f ≠ [] := by
  rintro rfl
  exact h.2 rfl

/-! ### The shape of a rank -/

/-- A rank is an integer part followed by a fraction. -/
theorem isRank_iff {r : List Char} :
    isRank r = true ↔ ∃ x f, r = x ++ f ∧ IsInteger x ∧ IsFraction f := by
  constructor
  · intro h
    cases r with
    | nil => simp [isRank] at h
    | cons k t =>
      simp only [isRank, List.length_cons, Nat.succ_ne_zero, if_false, List.getElem?_cons_zero,
        Bool.if_false_left, Bool.and_eq_true, Bool.not_eq_true', decide_eq_false_iff_not,
        not_or, List.any_eq_true, not_exists, not_and, decide_eq_true_eq] at h
      obtain ⟨⟨hlen, hle⟩, hdigits, hlast⟩ := h
      have hds : Digits (k :: t) := fun c hc => by
        by_contra hmem
        exact hdigits c hc ((not_mem_iff_digitValue_neg c).mpr hmem)
      have hk : IsHead k := ⟨hds k List.mem_cons_self, Int.not_lt.mp hlen⟩
      have hw := hk.integerLength_eq
      have htw : width k ≤ t.length := by omega
      refine ⟨k :: t.take (width k), t.drop (width k), by simp, ⟨k, _, rfl, hk, ?_, ?_⟩, ?_, ?_⟩
      · rw [List.length_take, Nat.min_eq_left htw]
      · exact (digits_cons.mp hds).2.take _
      · exact (digits_cons.mp hds).2.drop _
      · have hnat : (integerLength (some k)).toNat = width k + 1 := by omega
        rwa [hnat, List.drop_succ_cons] at hlast
  · rintro ⟨x, f, rfl, hx, hf⟩
    have hlen := hx.integerLength_append f
    have hpos := List.length_pos_iff.mpr hx.ne_nil
    have hdigits : ¬(x ++ f).any (fun char => digitValue (some char) < 0) = true := by
      simp only [List.any_eq_true, decide_eq_true_eq, not_exists, not_and, Int.not_lt]
      exact fun c hc => digitValue_nonneg (digits_append.mpr ⟨hx.digits, hf.1⟩ c hc)
    simp only [isRank, hlen]
    rw [if_neg (by rw [List.length_append]; omega),
      if_neg (by rw [List.length_append]; omega), if_neg hdigits]
    simpa using hf.2

theorem isRank_append {x f : List Char} (hx : IsInteger x) (hf : IsFraction f) :
    isRank (x ++ f) = true := (isRank_iff).mpr ⟨x, f, rfl, hx, hf⟩

theorem IsInteger.isRank {x : List Char} (hx : IsInteger x) : isRank x = true :=
  (isRank_iff).mpr ⟨x, [], (List.append_nil x).symm, hx, isFraction_nil⟩

/-- `integerPartOf` splits a rank where its integer ends. -/
theorem integerPartOf_append {x : List Char} (hx : IsInteger x) (f : List Char) :
    integerPartOf (x ++ f) = .ok x := by
  have hlen := hx.integerLength_append f
  simp only [integerPartOf, hlen]
  rw [if_neg (by rw [List.length_append]; omega)]
  simp

/-- Ranks with the same integer compare as their fractions do, and ranks with
different ones as their integers do. -/
theorem append_lt_append_cases {x y f g : List Char} (hx : IsInteger x) (hy : IsInteger y)
    (hlt : x ++ f < y ++ g) : (x = y ∧ f < g) ∨ Below x y := by
  rcases lt_trichotomy x y with hxy | rfl | hyx
  · exact Or.inr (hx.below_of_lt hy hxy)
  · exact Or.inl ⟨rfl, (append_lt_append_iff x f g).mp hlt⟩
  · exact absurd hlt (((hy.below_of_lt hx hyx).append g f).lt.not_gt)

theorem le_largest {x : List Char} (hx : IsInteger x) : x ≤ LARGEST_INTEGER := by
  obtain ⟨h, ds, rfl, hh, hlen, hds⟩ := hx
  rcases (le_last hh.1).lt_or_eq with hlt | rfl
  · exact (List.cons_lt_cons_iff.mpr (Or.inl hlt)).le
  · apply List.cons_le_cons _
    have hwidth : width LAST = 26 := by decide
    rw [← hwidth, ← hlen]
    exact le_replicate_last hds

/-! ### The midpoint of two fractions -/

/-- A midpoint against 1 lies above the fraction it starts from. -/
theorem midpoint_above : ∀ {a : List Char}, IsFraction a →
    IsFraction (midpoint a none) ∧ a < midpoint a none
  | [], _ => by
      have h : midpoint [] none = ['V'] := by decide +kernel
      rw [h]
      exact ⟨isFraction_singleton (by decide) (by decide), List.nil_lt_cons _ _⟩
  | c :: a, hf => by
      have hc := (digits_cons.mp hf.1).1
      have h0 := digitValue_nonneg hc
      have h61 := digitValue_lt hc
      rw [midpoint]
      simp only [Option.elim, List.getElem?_cons_zero, lt_irrefl, if_false, Option.any,
        Bool.false_eq_true, List.drop_succ_cons, List.drop_zero, reduceCtorEq]
      by_cases hroom : 1 < BASE - digitValue (some c)
      · rw [if_pos hroom]
        simp only [BASE] at hroom h61 ⊢
        obtain ⟨d, hd, hat, hval⟩ :=
          exists_digitAt ((digitValue (some c) + 62 + 1) / 2) (by omega)
            (by simp only [BASE]; omega)
        have hcd : c < d := (digitValue_lt_iff hc hd).mp (by omega)
        rw [hat]
        exact ⟨isFraction_singleton hd ((zero_le hc).trans_lt hcd),
          List.cons_lt_cons_iff.mpr (Or.inl hcd)⟩
      · rw [if_neg hroom, digitAt_digitValue hc]
        obtain ⟨ihf, ihlt⟩ := midpoint_above hf.tail
        exact ⟨ihf.cons (List.ne_nil_of_length_pos (by
            cases h : midpoint a none with
            | nil => rw [h] at ihlt; exact absurd ihlt (List.not_lt_nil a)
            | cons => simp)) hc,
          List.cons_lt_cons_iff.mpr (Or.inr ⟨rfl, ihlt⟩)⟩

theorem ne_nil_of_lt {a m : List Char} (h : a < m) : m ≠ [] := by
  rintro rfl
  exact List.not_lt_nil a h

/-- A shared digit is copied. -/
theorem midpoint_cons_of_eq {a b : List Char} {d : Char} (h : a.headD ZERO = d) :
    midpoint a (some (d :: b)) = d :: midpoint a.tail (some b) := by
  have hs : sharedLength a (d :: b) = sharedLength a.tail b + 1 := by rw [sharedLength, if_pos h]
  rw [midpoint]
  simp only [Option.elim, hs, Nat.succ_pos, if_true, Option.getD_some, Option.map_some,
    List.take_succ_cons, List.drop_succ_cons, List.cons_append, List.cons.injEq, true_and]
  rw [← List.drop_one]
  by_cases hpos : 0 < sharedLength (a.drop 1) b
  · conv_rhs => rw [midpoint]
    simp only [Option.elim, if_pos hpos, Option.getD_some, Option.map_some, List.drop_drop,
      Nat.add_comm]
  · rw [Nat.eq_zero_of_not_pos hpos]
    simp

/-- A digit above `a`'s first one, where the two fractions part. -/
theorem midpoint_cons_of_lt {a b : List Char} {d : Char} (ha : IsFraction a)
    (hb : IsFraction (d :: b)) (h : a.headD ZERO < d) :
    IsFraction (midpoint a (some (d :: b))) ∧ a < midpoint a (some (d :: b)) ∧
      midpoint a (some (d :: b)) < d :: b := by
  have hd := (digits_cons.mp hb.1).1
  have hlow : (if a = [] then 0 else digitValue a[0]?) = digitValue (some (a.headD ZERO)) ∧
      a.headD ZERO ∈ RANK_DIGITS := by
    cases a with
    | nil => exact ⟨digitValue_zero.symm, zero_mem⟩
    | cons c a => exact ⟨rfl, (digits_cons.mp ha.1).1⟩
  have above : ∀ {m : Char} (t : List Char), a.headD ZERO < m → a < m :: t := by
    intro m t hm
    cases a with
    | nil => exact List.nil_lt_cons m t
    | cons c a => exact List.cons_lt_cons_iff.mpr (Or.inl hm)
  have hs : sharedLength a (d :: b) = 0 := by rw [sharedLength, if_neg (ne_of_lt h)]
  have hz : ZERO < d := (zero_le hlow.2).trans_lt h
  have h0 := digitValue_nonneg hlow.2
  have h61 := digitValue_lt hd
  have hval := (digitValue_lt_iff hlow.2 hd).mpr h
  rw [midpoint]
  simp only [Option.elim, hs, lt_irrefl, if_false, hlow.1, List.getElem?_cons_zero, Option.any,
    Option.getD_some, List.length_cons, decide_eq_true_eq]
  by_cases hroom : 1 < digitValue (some d) - digitValue (some (a.headD ZERO))
  · rw [if_pos hroom]
    obtain ⟨m, hm, hat, hmval⟩ := exists_digitAt
      ((digitValue (some (a.headD ZERO)) + digitValue (some d) + 1) / 2)
      (by omega) (by omega)
    have hlm : a.headD ZERO < m := (digitValue_lt_iff hlow.2 hm).mp (by omega)
    have hmd : m < d := (digitValue_lt_iff hm hd).mp (by omega)
    rw [hat]
    exact ⟨isFraction_singleton hm ((zero_le hlow.2).trans_lt hlm), above [] hlm,
      List.cons_lt_cons_iff.mpr (Or.inl hmd)⟩
  rw [if_neg hroom]
  by_cases hlen : 1 < b.length + 1
  · rw [if_pos hlen]
    refine ⟨isFraction_singleton hd hz, above [] h, ?_⟩
    exact lt_append_of_ne_nil [d] (List.ne_nil_of_length_pos (by omega))
  · rw [if_neg hlen, digitAt_digitValue hlow.2]
    have htail : IsFraction (a.drop 1) := by
      cases a with
      | nil => exact isFraction_nil
      | cons c a => exact ha.tail
    obtain ⟨hf, hlt⟩ := midpoint_above htail
    refine ⟨hf.cons (ne_nil_of_lt hlt) hlow.2, ?_, List.cons_lt_cons_iff.mpr (Or.inl h)⟩
    cases a with
    | nil => exact List.nil_lt_cons _ _
    | cons c a => exact List.cons_lt_cons_iff.mpr (Or.inr ⟨rfl, hlt⟩)

/-- The midpoint of two fractions in order is a fraction strictly between. -/
theorem midpoint_between : ∀ {b a : List Char}, IsFraction a → IsFraction b → a < b →
    IsFraction (midpoint a (some b)) ∧ a < midpoint a (some b) ∧ midpoint a (some b) < b
  | [], a, _, _, hlt => absurd hlt (List.not_lt_nil a)
  | d :: b, a, ha, hb, hlt => by
      have hd := (digits_cons.mp hb.1).1
      have hle : a.headD ZERO ≤ d := by
        cases a with
        | nil => exact zero_le hd
        | cons c a => exact head_le_head hlt
      rcases hle.lt_or_eq with hcd | heq
      · exact midpoint_cons_of_lt ha hb hcd
      -- The digit is shared: the tails are in order and the recursion is on them.
      have htail : IsFraction a.tail ∧ a.tail < b := by
        cases a with
        | nil =>
          subst heq
          obtain ⟨e, b, rfl⟩ := List.exists_cons_of_ne_nil hb.ne_zero
          exact ⟨isFraction_nil, List.nil_lt_cons e b⟩
        | cons c a =>
          subst heq
          exact ⟨ha.tail, by simpa using hlt⟩
      obtain ⟨ihf, iha, ihb⟩ := midpoint_between htail.1 hb.tail htail.2
      rw [midpoint_cons_of_eq heq]
      refine ⟨ihf.cons (ne_nil_of_lt iha) hd, ?_, List.cons_lt_cons_iff.mpr (Or.inr ⟨rfl, ihb⟩)⟩
      cases a with
      | nil => exact List.nil_lt_cons _ _
      | cons c a =>
        subst heq
        exact List.cons_lt_cons_iff.mpr (Or.inr ⟨rfl, iha⟩)

/-! ### `between` -/

theorem between_none_some {after : List Char} (h : isRank after = true) :
    between none (some after) = beforeRank after := by
  change (requireRank after "after" >>= fun _ => beforeRank after) = _
  rw [requireRank, if_pos h]
  rfl

theorem between_some_none {before : List Char} (h : isRank before = true) :
    between (some before) none = afterRank before := by
  change (requireRank before "before" >>= fun _ => afterRank before) = _
  rw [requireRank, if_pos h]
  rfl

/-- `between` of two ranks in order, by their integers and fractions. -/
theorem between_some_some {x y f g : List Char} (hx : IsInteger x) (hy : IsInteger y)
    (hf : IsFraction f) (hg : IsFraction g) (hlt : x ++ f < y ++ g) :
    between (some (x ++ f)) (some (y ++ g)) =
      if x = y then .ok (x ++ midpoint f (some g))
      else match incrementInteger x with
        | none => .error .exhaustedAbove
        | some incremented =>
          if incremented < y ++ g then .ok incremented else .ok (x ++ midpoint f none) := by
  unfold between
  simp only [requireRank, isRank_append hx hf, isRank_append hy hg, if_true,
    integerPartOf_append hx, integerPartOf_append hy, bind, Except.bind, pure, Except.pure,
    if_neg (not_le.mpr hlt), List.drop_left]
  rfl

/-- `r` is a rank strictly inside the two ends. -/
def StrictlyInside (before after : Option (List Char)) (r : List Char) : Prop :=
  isRank r = true ∧ (∀ a ∈ before, a < r) ∧ ∀ b ∈ after, r < b

theorem afterRank_spec {before : List Char} (h : isRank before = true) :
    ∃ r, afterRank before = .ok r ∧ isRank r = true ∧ before < r := by
  obtain ⟨x, f, rfl, hx, hf⟩ := (isRank_iff).mp h
  simp only [afterRank, integerPartOf_append hx]
  rcases incrementInteger_cases hx with ⟨y, hinc, hnext⟩ | ⟨hinc, _⟩
  · refine ⟨y, by simp [hinc, bind, Except.bind, pure, Except.pure], ?_, ?_⟩
    · exact (hnext.isInteger_right hx).isRank
    · simpa using (hnext.below.append f []).lt
  · obtain ⟨hm, hlt⟩ := midpoint_above hf
    refine ⟨x ++ midpoint f none, by simp [hinc, bind, Except.bind, pure, Except.pure], ?_, ?_⟩
    · exact isRank_append hx hm
    · simpa using hlt

theorem beforeRank_spec {after : List Char} (h : isRank after = true)
    (hne : after ≠ SMALLEST_INTEGER) :
    ∃ r, beforeRank after = .ok r ∧ isRank r = true ∧ r < after := by
  obtain ⟨y, g, rfl, hy, hg⟩ := (isRank_iff).mp h
  simp only [beforeRank, integerPartOf_append hy, bind, Except.bind, pure, Except.pure,
    List.drop_left]
  by_cases hsmall : y = SMALLEST_INTEGER
  · have hgne : g ≠ [] := by
      rintro rfl
      exact hne (by simpa using hsmall)
    obtain ⟨hm, _, hlt⟩ := midpoint_between isFraction_nil hg
      (by simpa using lt_append_of_ne_nil [] hgne)
    exact ⟨_, if_pos hsmall, isRank_append hy hm, by simpa using hlt⟩
  rw [if_neg hsmall]
  by_cases hfrac : y < y ++ g
  · exact ⟨y, if_pos hfrac, hy.isRank, hfrac⟩
  rw [if_neg hfrac]
  rcases decrementInteger_cases hy with ⟨x, hdec, hnext⟩ | ⟨_, heq⟩
  · exact ⟨x, by simp [hdec], (hnext.isInteger_left hy).isRank, by
      simpa using (hnext.below.append [] g).lt⟩
  · exact absurd heq hsmall

/-- Between two ranks in order `between` finds a rank. -/
theorem between_some_spec {before after : List Char} (hb : isRank before = true)
    (ha : isRank after = true) (hlt : before < after) :
    ∃ r, between (some before) (some after) = .ok r ∧ isRank r = true ∧
      before < r ∧ r < after := by
  obtain ⟨x, f, rfl, hx, hf⟩ := (isRank_iff).mp hb
  obtain ⟨y, g, rfl, hy, hg⟩ := (isRank_iff).mp ha
  rw [between_some_some hx hy hf hg hlt]
  rcases append_lt_append_cases hx hy hlt with ⟨rfl, hfg⟩ | hbelow
  · obtain ⟨hm, h1, h2⟩ := midpoint_between hf hg hfg
    exact ⟨_, if_pos rfl, isRank_append hx hm, by simpa using h1, by simpa using h2⟩
  rw [if_neg hbelow.lt.ne]
  rcases incrementInteger_cases hx with ⟨z, hinc, hnext⟩ | ⟨_, hlargest⟩
  · simp only [hinc]
    by_cases hz : z < y ++ g
    · exact ⟨z, if_pos hz, (hnext.isInteger_right hx).isRank,
        by simpa using (hnext.below.append f []).lt, hz⟩
    · obtain ⟨hm, hup⟩ := midpoint_above hf
      exact ⟨_, if_neg hz, isRank_append hx hm, by simpa using hup, (hbelow.append _ g).lt⟩
  · exact absurd (hlargest ▸ le_largest hy) (not_le.mpr hbelow.lt)

/-- `between` returns a rank strictly inside any two ends in order, unless they
are the start of a list and the smallest integer. -/
theorem between_spec {before after : Option (List Char)}
    (hb : ∀ a ∈ before, isRank a = true) (ha : ∀ b ∈ after, isRank b = true)
    (hlt : ∀ a ∈ before, ∀ b ∈ after, a < b)
    (hend : ¬(before = none ∧ after = some SMALLEST_INTEGER)) :
    ∃ r, between before after = .ok r ∧ StrictlyInside before after r := by
  cases before with
  | none =>
    cases after with
    | none => exact ⟨ZERO_INTEGER, rfl, isInteger_zero.isRank, by simp, by simp⟩
    | some after =>
      have hr := ha after rfl
      obtain ⟨r, heq, hrank, hbelow⟩ := beforeRank_spec hr (fun h => hend ⟨rfl, h ▸ rfl⟩)
      exact ⟨r, (between_none_some hr).trans heq, hrank, by simp, by simpa using hbelow⟩
  | some before =>
    have hr := hb before rfl
    cases after with
    | none =>
      obtain ⟨r, heq, hrank, habove⟩ := afterRank_spec hr
      exact ⟨r, (between_some_none hr).trans heq, hrank, by simpa using habove, by simp⟩
    | some after =>
      obtain ⟨r, heq, hrank, h1, h2⟩ :=
        between_some_spec hr (ha after rfl) (hlt before rfl after rfl)
      exact ⟨r, heq, hrank, by simpa using h1, by simpa using h2⟩

/-- What `between` has checked when it returns. -/
theorem args_of_between_eq_ok {before after : Option (List Char)} {r : List Char}
    (h : between before after = .ok r) :
    (∀ a ∈ before, isRank a = true) ∧ (∀ b ∈ after, isRank b = true) ∧
      ∀ a ∈ before, ∀ b ∈ after, a < b := by
  have check : ∀ {value label}, isRank value = false →
      requireRank value label = .error (.notARank label value) := by
    intro value label hv
    simp [requireRank, hv]
  cases before with
  | none =>
    cases after with
    | none => simp
    | some after =>
      cases ha : isRank after with
      | true => simp [ha]
      | false =>
        change (requireRank after "after" >>= fun _ => beforeRank after) = _ at h
        rw [check ha] at h
        cases h
  | some before =>
    cases hb : isRank before with
    | false =>
      cases after <;>
        (unfold between at h
         simp only [check hb, bind, Except.bind] at h
         cases h)
    | true =>
      cases after with
      | none => simp [hb]
      | some after =>
        unfold between at h
        cases ha : isRank after with
        | false =>
          simp only [requireRank, hb, ha, bind, Except.bind, pure, Except.pure, if_true] at h
          cases h
        | true =>
          simp only [requireRank, hb, ha, bind, Except.bind, pure, Except.pure, if_true] at h
          by_cases hle : after ≤ before
          · rw [if_pos hle] at h
            cases h
          · simpa [hb, ha] using not_le.mp hle

/-- What `between` returns is strictly inside its ends, but for the start of a
list and the smallest integer. -/
theorem strictlyInside_of_between_eq_ok {before after : Option (List Char)} {r : List Char}
    (h : between before after = .ok r)
    (hend : ¬(before = none ∧ after = some SMALLEST_INTEGER)) : StrictlyInside before after r := by
  obtain ⟨hb, ha, hlt⟩ := args_of_between_eq_ok h
  obtain ⟨r', heq, hr'⟩ := between_spec hb ha hlt hend
  rw [h] at heq
  exact Except.ok.inj heq ▸ hr'

/-- The ranks of a sequence ascend from the cursor. -/
theorem rankSequenceFrom_spec : ∀ (count : Nat) (cursor : Option (List Char)),
    (∀ c ∈ cursor, isRank c = true) →
    ∃ ranks, rankSequenceFrom cursor count = .ok ranks ∧ ranks.length = count ∧
      ranks.Pairwise (· < ·) ∧ ∀ r ∈ ranks, isRank r = true ∧ ∀ c ∈ cursor, c < r
  | 0, _, _ => ⟨[], rfl, rfl, .nil, by simp⟩
  | count + 1, cursor, hc => by
      obtain ⟨r, hr, hrank, habove, _⟩ : ∃ r, between cursor none = .ok r ∧
          StrictlyInside cursor none r := between_spec hc (by simp) (by simp) (by simp)
      obtain ⟨ranks, hranks, hlen, hpair, hall⟩ :=
        rankSequenceFrom_spec count (some r) (by simpa using hrank)
      refine ⟨r :: ranks, ?_, by simp [hlen], ?_, ?_⟩
      · simp [rankSequenceFrom, hr, hranks, bind, Except.bind, pure, Except.pure]
      · exact List.pairwise_cons.mpr ⟨fun r' hr' => (hall r' hr').2 r rfl, hpair⟩
      · intro r' hr'
        rcases List.mem_cons.mp hr' with rfl | hr'
        · exact ⟨hrank, habove⟩
        · exact ⟨(hall r' hr').1, fun c hcc => (habove c hcc).trans ((hall r' hr').2 r rfl)⟩

theorem rankSequence_spec (count : Nat) :
    ∃ ranks, rankSequence count = .ok ranks ∧ ranks.length = count ∧ ranks.Pairwise (· < ·) := by
  obtain ⟨ranks, hranks, hlen, hpair, _⟩ :=
    rankSequenceFrom_spec count none (by simp)
  exact ⟨ranks, hranks, hlen, hpair⟩

/-- Below the smallest integer `between` returns a rank above it. -/
theorem between_none_smallest :
    between none (some SMALLEST_INTEGER) = .ok (SMALLEST_INTEGER ++ [ZERO, 'V']) := by
  decide +kernel

/-- **`between` returns a rank strictly inside its ends exactly when there is
room**: everywhere but before the smallest integer at the start of a list. -/
theorem between_strictly_inside_iff {before after : Option (List Char)}
    (hb : ∀ a ∈ before, isRank a = true) (ha : ∀ b ∈ after, isRank b = true)
    (hlt : ∀ a ∈ before, ∀ b ∈ after, a < b) :
    (∃ r, between before after = .ok r ∧ isRank r = true ∧ (∀ a ∈ before, a < r) ∧
      ∀ b ∈ after, r < b) ↔ ¬(before = none ∧ after = some SMALLEST_INTEGER) := by
  constructor
  · rintro ⟨r, heq, _, _, hbelow⟩ ⟨rfl, rfl⟩
    rw [between_none_smallest] at heq
    obtain rfl := Except.ok.inj heq
    exact absurd (hbelow _ rfl) (lt_append_of_ne_nil SMALLEST_INTEGER (by simp)).not_gt
  · exact between_spec hb ha hlt

theorem between_strictly_inside_a0_a1 :
    ∃ r, between (some "a0".toList) (some "a1".toList) = .ok r ∧ isRank r = true ∧
      (∀ a ∈ some "a0".toList, a < r) ∧ ∀ b ∈ some "a1".toList, r < b :=
  (between_strictly_inside_iff (by decide) (by decide) (by decide)).mpr (by decide)

/-- The smallest integer is a rank, and what `between` returns for the place
before it does not sort before it. -/
theorem between_not_below_smallest :
    isRank SMALLEST_INTEGER = true ∧
      between none (some SMALLEST_INTEGER) = .ok (SMALLEST_INTEGER ++ [ZERO, 'V']) ∧
      ¬SMALLEST_INTEGER ++ [ZERO, 'V'] < SMALLEST_INTEGER :=
  ⟨isInteger_smallest.isRank, between_none_smallest,
    (lt_append_of_ne_nil SMALLEST_INTEGER (by simp)).not_gt⟩

end Rank
end TaskFlow
