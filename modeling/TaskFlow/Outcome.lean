import Mathlib.Data.List.Basic

/-! # Computations that write and may fail

A computation of type `Outcome E α` appends events of type `E` to a log and
then either returns a value or fails.  A failure keeps what was written before
it: each transaction that has committed stays committed.
-/

/-- What a computation wrote, and the value it returned unless it failed. -/
structure Outcome (E α : Type) where
  written : List E
  result : Option α
  deriving DecidableEq, Repr

namespace Outcome
variable {E α β : Type}

instance : Monad (Outcome E) where
  pure a := ⟨[], some a⟩
  bind o f :=
    match o.result with
    | none => ⟨o.written, none⟩
    | some a => ⟨o.written ++ (f a).written, (f a).result⟩

/-- The computation that fails. -/
def fail : Outcome E α := ⟨[], none⟩

/-- One transaction: its events are written only if it commits. -/
def transaction (commits : Bool) (body : Option (α × List E)) : Outcome E α :=
  if commits then
    match body with
    | some (a, events) => ⟨events, some a⟩
    | none => fail
  else fail

/-- A value, or a failure where there is none. -/
def ofOption (a : Option α) : Outcome E α := ⟨[], a⟩

/-- The computation with its failure ignored. -/
def swallow (o : Outcome E α) : Outcome E Unit := ⟨o.written, some ()⟩

@[simp] theorem pure_written (a : α) : (pure a : Outcome E α).written = [] := rfl

@[simp] theorem pure_result (a : α) : (pure a : Outcome E α).result = some a := rfl

@[simp] theorem fail_written : (fail : Outcome E α).written = [] := rfl

@[simp] theorem fail_result : (fail : Outcome E α).result = none := rfl

@[simp] theorem ofOption_written (a : Option α) : (ofOption a : Outcome E α).written = [] := rfl

@[simp] theorem ofOption_result (a : Option α) : (ofOption a : Outcome E α).result = a := rfl

@[simp] theorem swallow_written (o : Outcome E α) : o.swallow.written = o.written := rfl

/-- Something is written by one part or, once that has returned, by the other. -/
theorem bind_written_eq_nil {o : Outcome E α} {f : α → Outcome E β} :
    (o >>= f).written = [] ↔ o.written = [] ∧ ∀ a, o.result = some a → (f a).written = [] := by
  obtain ⟨written, result⟩ := o
  cases result with
  | none => simp [bind]
  | some a => simp [bind]

/-! ### What every event satisfies -/

/-- Every event that is written satisfies `p`. -/
def Writes (p : E → Prop) (o : Outcome E α) : Prop :=
  ∀ e ∈ o.written, p e

section
variable {p : E → Prop}

theorem writes_of_written_eq_nil {o : Outcome E α} (h : o.written = []) : o.Writes p := by
  intro e he
  rw [h] at he
  cases he

theorem written_eq_nil_of_writes_false {o : Outcome E α} (h : o.Writes fun _ => False) :
    o.written = [] :=
  List.eq_nil_iff_forall_not_mem.mpr h

theorem writes_pure (a : α) : (pure a : Outcome E α).Writes p :=
  writes_of_written_eq_nil rfl

theorem writes_fail : (fail : Outcome E α).Writes p :=
  writes_of_written_eq_nil rfl

theorem writes_ofOption (a : Option α) : (ofOption a : Outcome E α).Writes p :=
  writes_of_written_eq_nil rfl

theorem Writes.bind {o : Outcome E α} {f : α → Outcome E β} (h : o.Writes p)
    (hf : ∀ a, (f a).Writes p) : (o >>= f).Writes p := by
  obtain ⟨written, result⟩ := o
  cases result with
  | none => exact h
  | some a =>
    intro e he
    rcases List.mem_append.mp he with he | he
    · exact h e he
    · exact hf a e he

theorem Writes.ite {c : Prop} [Decidable c] {t f : Outcome E α} (ht : t.Writes p)
    (hf : f.Writes p) : (if c then t else f).Writes p := by
  split
  · exact ht
  · exact hf

theorem Writes.swallow {o : Outcome E α} (h : o.Writes p) : o.swallow.Writes p := h

/-- Every event of a transaction's body satisfies `p`. -/
def Body (p : E → Prop) (body : Option (α × List E)) : Prop :=
  ∀ a events, body = some (a, events) → ∀ e ∈ events, p e

theorem Body.transaction {commits : Bool} {body : Option (α × List E)} (h : Body p body) :
    (Outcome.transaction commits body).Writes p := by
  intro e he
  unfold Outcome.transaction at he
  split at he
  · split at he
    · rename_i a events
      exact h a events rfl e he
    · cases he
  · cases he

theorem body_none : Body (α := α) p none := by
  intro a events h
  cases h

theorem body_some {a : α} {events : List E} (h : ∀ e ∈ events, p e) :
    Body p (some (a, events)) := by
  intro a events hb e he
  cases hb
  exact h e he

theorem body_nil (a : α) : Body p (some (a, [])) :=
  body_some fun _ he => nomatch he

theorem body_singleton (a : α) {e : E} (h : p e) : Body p (some (a, [e])) :=
  body_some fun _ he => List.mem_singleton.mp he ▸ h

theorem Body.bind {γ : Type} {x : Option γ} {f : γ → Option (α × List E)}
    (h : ∀ c, Body p (f c)) : Body p (x >>= f) := by
  cases x with
  | none => exact body_none
  | some c => exact h c

theorem Body.ite {c : Prop} [Decidable c] {t f : Option (α × List E)} (ht : Body p t)
    (hf : Body p f) : Body p (if c then t else f) := by
  split
  · exact ht
  · exact hf

end

end Outcome
