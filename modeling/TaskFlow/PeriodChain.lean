import Mathlib.Logic.Function.Basic
import Mathlib.Order.Lattice

/-! # Half-open periods that tile

Periods are given by their starts: `endOf a` is the end of the period that starts
at `a`, if there is one.  They tile if each ends where the next begins.  The main
result is `Tiled.extend`: a tiling is extended by a period that starts where one of
the others ends, if none starts there yet.
-/
namespace PeriodChain
variable {T : Type} [LinearOrder T]

structure Tiled (endOf : T → Option T) : Prop where
  nonempty : ∀ {a b}, endOf a = some b → a < b
  disjoint : ∀ {a b a' b'}, endOf a = some b → endOf a' = some b' → a < a' → b ≤ a'
  /-- Whatever has a later period is followed by one at once. -/
  next : ∀ {a b a' b'}, endOf a = some b → endOf a' = some b' → a < a' → endOf b ≠ none
  /-- Whatever has an earlier period follows one at once. -/
  previous : ∀ {a b a' b'}, endOf a = some b → endOf a' = some b' → a < a' →
    ∃ c, endOf c = some a'

section
variable {endOf : T → Option T} {a b a' b' start stop x : T}

theorem tiled_none : Tiled (fun _ : T => none) := by
  constructor <;> intros <;> contradiction

/-- A point is in one period at most. -/
theorem Tiled.unique (h : Tiled endOf) (ha : endOf a = some b) (ha' : endOf a' = some b')
    (hx : a ≤ x ∧ x < b) (hx' : a' ≤ x ∧ x < b') : a = a' := by
  rcases lt_trichotomy a a' with hlt | heq | hlt
  · exact absurd (lt_of_lt_of_le hx.2 (h.disjoint ha ha' hlt)) (not_lt_of_ge hx'.1)
  · exact heq
  · exact absurd (lt_of_lt_of_le hx'.2 (h.disjoint ha' ha hlt)) (not_lt_of_ge hx.1)

/-- Where no period starts at the end of one, that is the last. -/
theorem Tiled.le_of_open (h : Tiled endOf) (hlast : endOf a' = some start)
    (hopen : endOf start = none) (ha : endOf a = some b) : b ≤ start := by
  rcases lt_trichotomy a a' with hlt | rfl | hlt
  · exact le_of_lt (lt_of_le_of_lt (h.disjoint ha hlast hlt) (h.nonempty hlast))
  · rw [hlast] at ha
    exact le_of_eq (Option.some.inj ha).symm
  · exact absurd hopen (h.next hlast ha hlt)

/-- **A tiling is extended** at its end, or begun. -/
theorem Tiled.extend (h : Tiled endOf) (hlt : start < stop) (hopen : endOf start = none)
    (hstart : (∀ a, endOf a = none) ∨ ∃ a, endOf a = some start) :
    Tiled (Function.update endOf start (some stop)) := by
  have hbefore : ∀ {a b}, endOf a = some b → b ≤ start := by
    intro a b ha
    rcases hstart with hnone | ⟨a', ha'⟩
    · rw [hnone a] at ha
      cases ha
    · exact h.le_of_open ha' hopen ha
  have hnew {a b : T} (ha : Function.update endOf start (some stop) a = some b) :
      (a = start ∧ b = stop) ∨ endOf a = some b := by
    by_cases hs : a = start
    · subst hs
      rw [Function.update_self] at ha
      exact Or.inl ⟨rfl, (Option.some.inj ha).symm⟩
    · rw [Function.update_of_ne hs] at ha
      exact Or.inr ha
  have hkept {a b : T} (ha : endOf a = some b) :
      Function.update endOf start (some stop) a = some b := by
    rw [Function.update_of_ne (by rintro rfl; rw [hopen] at ha; cases ha), ha]
  -- of two periods the earlier one was there before
  have hearlier {a b a' b' : T} (ha : Function.update endOf start (some stop) a = some b)
      (ha' : Function.update endOf start (some stop) a' = some b') (haa' : a < a') :
      endOf a = some b := by
    rcases hnew ha with ⟨rfl, rfl⟩ | hold
    · rcases hnew ha' with ⟨rfl, rfl⟩ | hold'
      · exact absurd haa' (lt_irrefl _)
      · have hbound := lt_of_lt_of_le (h.nonempty hold') (hbefore hold')
        exact absurd (lt_trans haa' hbound) (lt_irrefl _)
    · exact hold
  constructor
  · intro a b ha
    rcases hnew ha with ⟨rfl, rfl⟩ | hold
    · exact hlt
    · exact h.nonempty hold
  · intro a b a' b' ha ha' haa'
    have hold := hearlier ha ha' haa'
    rcases hnew ha' with ⟨rfl, rfl⟩ | hold'
    · exact hbefore hold
    · exact h.disjoint hold hold' haa'
  · intro a b a' b' ha ha' haa'
    have hold := hearlier ha ha' haa'
    by_cases hb : b = start
    · subst hb
      simp
    rw [Function.update_of_ne hb]
    rcases hnew ha' with ⟨rfl, rfl⟩ | hold'
    · rcases hstart with hnone | ⟨c, hc⟩
      · rw [hnone a] at hold
        cases hold
      · rcases lt_trichotomy a c with hac | rfl | hca
        · exact h.next hold hc hac
        · rw [hc] at hold
          exact absurd (Option.some.inj hold).symm hb
        · exact absurd hopen (h.next hc hold hca)
    · exact h.next hold hold' haa'
  · intro a b a' b' ha ha' haa'
    have hold := hearlier ha ha' haa'
    rcases hnew ha' with ⟨rfl, rfl⟩ | hold'
    · rcases hstart with hnone | ⟨c, hc⟩
      · rw [hnone a] at hold
        cases hold
      · exact ⟨c, hkept hc⟩
    · obtain ⟨c, hc⟩ := h.previous hold hold' haa'
      exact ⟨c, hkept hc⟩

end

end PeriodChain
