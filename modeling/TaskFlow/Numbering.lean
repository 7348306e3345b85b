import Mathlib.Data.List.Nodup
import Mathlib.Logic.Function.Basic

/-! # Numbers without gaps

Every owner has a counter, and every item an owner and a number.  The numbering is gapless
if the numbers of an owner's items are the positive ones below its counter, each of one
item only.

Taking the next number keeps it gapless, and so does a new owner whose items are numbered
from 1 (`Gapless.take`, `Gapless.fork`).
-/

/-- The counters of owners, and the owners and numbers of items. -/
@[ext]
structure Numeration (P C : Type) where
  next : P → Option Nat
  number : C → Option (P × Nat)

namespace Numeration
variable {P C : Type}

structure Gapless (a : Numeration P C) : Prop where
  positive : ∀ p next, a.next p = some next → 1 ≤ next
  numbers : ∀ p n, (∃ c, a.number c = some (p, n)) ↔
    ∃ next, a.next p = some next ∧ 1 ≤ n ∧ n < next
  once : ∀ c c' x, a.number c = some x → a.number c' = some x → c = c'

variable [DecidableEq P] [DecidableEq C]

/-- A new owner, without items. -/
def start (a : Numeration P C) (p : P) : Numeration P C :=
  { a with next := Function.update a.next p (some 1) }

/-- An item takes the number `n`, and the counter moves on. -/
def take (a : Numeration P C) (p : P) (n : Nat) (c : C) : Numeration P C where
  next := Function.update a.next p (some (n + 1))
  number := Function.update a.number c (some (p, n))

/-- Items take the numbers from `n` on, one after another. -/
def takeAll (a : Numeration P C) (p : P) : Nat → List C → Numeration P C
  | _, [] => a
  | n, c :: cs => takeAll (a.take p n c) p (n + 1) cs

/-- A new owner with these items. -/
def fork (a : Numeration P C) (p : P) (cs : List C) : Numeration P C := (a.start p).takeAll p 1 cs

section
variable {a : Numeration P C} {p : P} {n : Nat} {c : C} {cs : List C}

theorem takeAll_cons : a.takeAll p n (c :: cs) = (a.take p n c).takeAll p (n + 1) cs := rfl

@[simp] theorem take_number_self : (a.take p n c).number c = some (p, n) :=
  Function.update_self ..

theorem take_number_of_ne {d : C} (h : d ≠ c) : (a.take p n c).number d = a.number d :=
  Function.update_of_ne h ..

@[simp] theorem take_next_self : (a.take p n c).next p = some (n + 1) := Function.update_self ..

theorem take_next_of_ne {q : P} (h : q ≠ p) : (a.take p n c).next q = a.next q :=
  Function.update_of_ne h ..

omit [DecidableEq C] in
@[simp] theorem start_next_self : (a.start p).next p = some 1 := Function.update_self ..

omit [DecidableEq C] in
theorem start_next_of_ne {q : P} (h : q ≠ p) : (a.start p).next q = a.next q :=
  Function.update_of_ne h ..

omit [DecidableEq C] in
theorem Gapless.start (h : a.Gapless) (hp : a.next p = none) : (a.start p).Gapless where
  positive := by
    intro q next hnext
    by_cases hq : q = p
    · subst hq
      rw [start_next_self] at hnext
      have hone := Option.some.inj hnext
      omega
    · rw [start_next_of_ne hq] at hnext
      exact h.positive q next hnext
  numbers := by
    intro q n
    rw [show (a.start p).number = a.number from rfl, h.numbers]
    by_cases hq : q = p
    · subst hq
      simp only [start_next_self, hp, reduceCtorEq, false_and, exists_false,
        Option.some.injEq, exists_eq_left', false_iff]
      omega
    · simp only [start_next_of_ne hq]
  once := h.once

theorem Gapless.take (h : a.Gapless) (hp : a.next p = some n) (hc : a.number c = none) :
    (a.take p n c).Gapless where
  positive := by
    intro q next hnext
    by_cases hq : q = p
    · subst hq
      rw [take_next_self] at hnext
      have hsucc := Option.some.inj hnext
      omega
    · rw [take_next_of_ne hq] at hnext
      exact h.positive q next hnext
  numbers := by
    intro q m
    have hold : (∃ d, (a.take p n c).number d = some (q, m)) ↔
        (q = p ∧ m = n) ∨ ∃ d, a.number d = some (q, m) := by
      constructor
      · rintro ⟨d, hd⟩
        by_cases hdc : d = c
        · subst hdc
          rw [take_number_self] at hd
          obtain ⟨rfl, rfl⟩ := Prod.mk.inj (Option.some.inj hd)
          exact .inl ⟨rfl, rfl⟩
        · rw [take_number_of_ne hdc] at hd
          exact .inr ⟨d, hd⟩
      · rintro (⟨rfl, rfl⟩ | ⟨d, hd⟩)
        · exact ⟨c, take_number_self⟩
        · refine ⟨d, ?_⟩
          have hdc : d ≠ c := by
            rintro rfl
            rw [hc] at hd
            exact absurd hd (by simp)
          rw [take_number_of_ne hdc]
          exact hd
    rw [hold, h.numbers]
    have hpos := h.positive p n hp
    by_cases hq : q = p
    · subst hq
      simp only [take_next_self, hp, Option.some.injEq, exists_eq_left', true_and]
      omega
    · simp only [take_next_of_ne hq, hq, false_and, false_or]
  once := by
    -- the taken number is the counter's, so no item has it already
    have hnew : ∀ d, a.number d ≠ some (p, n) := by
      intro d hd
      obtain ⟨next, hnext, -, hlt⟩ := (h.numbers p n).mp ⟨d, hd⟩
      rw [hp] at hnext
      exact absurd (Option.some.inj hnext) (Nat.ne_of_lt hlt)
    intro d d' x hd hd'
    by_cases hdc : d = c
    · by_cases hdc' : d' = c
      · rw [hdc, hdc']
      · rw [hdc, take_number_self] at hd
        rw [take_number_of_ne hdc', ← hd] at hd'
        exact absurd hd' (hnew d')
    · by_cases hdc' : d' = c
      · rw [hdc', take_number_self] at hd'
        rw [take_number_of_ne hdc, ← hd'] at hd
        exact absurd hd (hnew d)
      · rw [take_number_of_ne hdc] at hd
        rw [take_number_of_ne hdc'] at hd'
        exact h.once d d' x hd hd'

theorem Gapless.takeAll (h : a.Gapless) (hp : a.next p = some n)
    (hcs : ∀ c ∈ cs, a.number c = none) (hnodup : cs.Nodup) : (a.takeAll p n cs).Gapless := by
  induction cs generalizing a n with
  | nil => exact h
  | cons c cs ih =>
    obtain ⟨hc, hnodup⟩ := List.nodup_cons.mp hnodup
    refine ih (h.take hp (hcs c List.mem_cons_self)) take_next_self ?_ hnodup
    intro d hd
    have hdc : d ≠ c := by
      rintro rfl
      exact hc hd
    rw [take_number_of_ne hdc]
    exact hcs d (List.mem_cons_of_mem c hd)

/-- **A new owner keeps the numbering gapless**, with its items numbered from 1. -/
theorem Gapless.fork (h : a.Gapless) (hp : a.next p = none) (hcs : ∀ c ∈ cs, a.number c = none)
    (hnodup : cs.Nodup) : (a.fork p cs).Gapless :=
  (h.start hp).takeAll start_next_self hcs hnodup

theorem takeAll_next (hp : a.next p = some n) (q : P) :
    (a.takeAll p n cs).next q = if q = p then some (n + cs.length) else a.next q := by
  induction cs generalizing a n with
  | nil =>
    by_cases hq : q = p
    · rw [if_pos hq, hq]
      exact hp
    · rw [if_neg hq]
      rfl
  | cons c cs ih =>
    rw [takeAll_cons, ih take_next_self, List.length_cons]
    by_cases hq : q = p
    · rw [if_pos hq, if_pos hq, Nat.add_right_comm, Nat.add_assoc]
    · rw [if_neg hq, if_neg hq, take_next_of_ne hq]

theorem takeAll_number_of_notMem (hc : c ∉ cs) : (a.takeAll p n cs).number c = a.number c := by
  induction cs generalizing a n with
  | nil => rfl
  | cons d cs ih =>
    rw [List.mem_cons, not_or] at hc
    rw [takeAll_cons, ih hc.2, take_number_of_ne hc.1]

theorem takeAll_number (hnodup : cs.Nodup) {i : Nat} (hi : cs[i]? = some c) :
    (a.takeAll p n cs).number c = some (p, n + i) := by
  induction cs generalizing a n i with
  | nil => exact absurd hi (by simp)
  | cons d cs ih =>
    obtain ⟨hd, hnodup⟩ := List.nodup_cons.mp hnodup
    cases i with
    | zero =>
      obtain rfl := Option.some.inj hi
      rw [takeAll_cons, takeAll_number_of_notMem hd]
      exact take_number_self
    | succ i =>
      rw [takeAll_cons, ih hnodup hi, Nat.add_right_comm, Nat.add_assoc]

/-- A numbering is a fork where its counters and numbers are. -/
theorem eq_fork {b : Numeration P C} (hnodup : cs.Nodup)
    (hnext : b.next p = some (cs.length + 1)) (hother : ∀ q, q ≠ p → b.next q = a.next q)
    (hnumber : ∀ i c, cs[i]? = some c → b.number c = some (p, i + 1))
    (hrest : ∀ c, c ∉ cs → b.number c = a.number c) : b = a.fork p cs := by
  ext q : 2
  · rw [fork, takeAll_next start_next_self]
    by_cases hq : q = p
    · rw [if_pos hq, hq, hnext, Nat.add_comm]
    · rw [if_neg hq, hother q hq, start_next_of_ne hq]
  · rw [fork]
    by_cases hmem : q ∈ cs
    · obtain ⟨i, hi⟩ := List.getElem?_of_mem hmem
      rw [takeAll_number hnodup hi, hnumber i q hi, Nat.add_comm]
    · rw [takeAll_number_of_notMem hmem, hrest q hmem]
      rfl

end

end Numeration
