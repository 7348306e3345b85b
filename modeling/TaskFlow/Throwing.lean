import Mathlib.Data.Option.Basic

/-! # Computations that throw

A computation that throws where it returns nothing.  `Returns` is what it takes for it to return
something with a property: through a sequence, and through a loop that keeps an invariant.
-/
namespace TaskFlow
namespace Throwing

variable {α β σ : Type}

def Returns (x : Option α) (P : α → Prop) : Prop := ∃ a, x = some a ∧ P a

@[simp] theorem returns_some {a : α} {P : α → Prop} : Returns (some a) P ↔ P a := by
  simp [Returns]

@[simp] theorem returns_none {P : α → Prop} : ¬Returns none P := by simp [Returns]

@[simp] theorem returns_pure {a : α} {P : α → Prop} : Returns (pure a) P ↔ P a := returns_some

theorem returns_congr {x : Option α} {P Q : α → Prop} (h : ∀ a, P a ↔ Q a) :
    Returns x P ↔ Returns x Q := by simp only [Returns, h]

theorem returns_bind {x : Option α} {f : α → Option β} {P : β → Prop} :
    Returns (x >>= f) P ↔ Returns x fun a => Returns (f a) P := by
  cases x with
  | none => exact ⟨fun h => (returns_none h).elim, fun h => (returns_none h).elim⟩
  | some a => rw [returns_some]; rfl

theorem returns_map {x : Option α} {f : α → β} {P : β → Prop} :
    Returns (x.map f) P ↔ Returns x fun a => P (f a) := by
  cases x with
  | none => exact ⟨fun h => (returns_none h).elim, fun h => (returns_none h).elim⟩
  | some a => rw [returns_some, Option.map_some, returns_some]

/-- A condition that is not about the value. -/
theorem returns_and {x : Option α} {p : Prop} {P : α → Prop} :
    (Returns x fun a => P a ∧ p) ↔ Returns x P ∧ p := by
  constructor
  · rintro ⟨a, ha, hP, hp⟩
    exact ⟨⟨a, ha, hP⟩, hp⟩
  · rintro ⟨⟨a, ha, hP⟩, hp⟩
    exact ⟨a, ha, hP, hp⟩

theorem isSome_iff_returns {x : Option α} : x.isSome ↔ Returns x fun _ => True := by
  cases x with
  | none => exact ⟨fun h => absurd h (by simp), fun h => (returns_none h).elim⟩
  | some a => simp

/-- **A loop whose steps keep an invariant if and only if what they are given is right.** -/
theorem returns_foldlM {f : σ → α → Option σ} {I : σ → Prop} {Q : α → Prop}
    (step : ∀ s a, Returns (f s a) I ↔ I s ∧ Q a) (xs : List α) (s : σ) :
    Returns (xs.foldlM f s) I ↔ I s ∧ ∀ a ∈ xs, Q a := by
  induction xs generalizing s with
  | nil => simp [returns_some (a := s)]
  | cons a xs ih =>
    rw [List.foldlM_cons, returns_bind, returns_congr ih, returns_and, step, and_assoc,
      List.forall_mem_cons]

end Throwing
end TaskFlow
