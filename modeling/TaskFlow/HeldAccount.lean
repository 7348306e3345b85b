import Mathlib.Algebra.GroupWithZero.Nat
import Mathlib.Data.List.Basic

/-! # Accounts with holds

Clients spend from one account with a limit.  A client first asks whether there is
room, and spends later; in between it holds what it has asked for.  The limit is
kept if a client is let through only where there is room for its amount beside
everything held, and then spends no more than it holds or than there is room for.
-/
namespace HeldAccount

/-- What has been spent, and what each client holds.  There may be no limit. -/
structure Account where
  limit : Option Nat
  spent : Nat
  holds : List (Option Nat)

namespace Account
variable {a : Account} {i n : Nat}

/-- Everything held. -/
def held (a : Account) : Nat := (a.holds.map fun hold => hold.getD 0).sum

/-- No more than the limit has been spent. -/
def Within (a : Account) : Prop := ∀ limit ∈ a.limit, a.spent ≤ limit

/-- There is room for `n` beside everything spent and held. -/
def Room (a : Account) (n : Nat) : Prop := ∀ limit ∈ a.limit, a.spent + a.held + n ≤ limit

/-- If anything is held, there is room for all of it. -/
def Covered (a : Account) : Prop := ∀ hold ∈ a.holds, hold.isSome → a.Room 0

instance : Decidable a.Within := inferInstanceAs (Decidable (∀ limit ∈ a.limit, a.spent ≤ limit))

instance : Decidable (a.Room n) :=
  inferInstanceAs (Decidable (∀ limit ∈ a.limit, a.spent + a.held + n ≤ limit))

instance : Decidable a.Covered :=
  inferInstanceAs (Decidable (∀ hold ∈ a.holds, hold.isSome → a.Room 0))

/-- The account once client `i` holds `hold`, and `spent` has been spent. -/
def put (a : Account) (i : Nat) (hold : Option Nat) (spent : Nat) : Account :=
  ⟨a.limit, spent, a.holds.set i hold⟩

theorem sum_set {holds : List (Option Nat)} {i : Nat} {hold hold' : Option Nat}
    (h : holds[i]? = some hold) :
    ((holds.set i hold').map fun hold => hold.getD 0).sum + hold.getD 0 =
      (holds.map fun hold => hold.getD 0).sum + hold'.getD 0 := by
  induction holds generalizing i with
  | nil => cases h
  | cons first holds ih =>
    cases i with
    | zero =>
      obtain rfl := Option.some.inj h
      simp only [List.set_cons_zero, List.map_cons, List.sum_cons]
      omega
    | succ i =>
      have hrest := ih (i := i) h
      simp only [List.set_cons_succ, List.map_cons, List.sum_cons]
      omega

/-- What is held once one client's hold has changed. -/
theorem held_put {hold hold' : Option Nat} {spent : Nat} (h : a.holds[i]? = some hold) :
    (a.put i hold' spent).held + hold.getD 0 = a.held + hold'.getD 0 :=
  sum_set h

/-- Nobody holds anything new, and no more has been spent. -/
theorem Covered.lower (h : a.Covered) {spent : Nat} (hspent : spent ≤ a.spent) :
    Covered ⟨a.limit, spent, a.holds⟩ := by
  intro hold hhold hsome limit hlimit
  have := h hold hhold hsome limit hlimit
  simp only [held] at this ⊢
  omega

/-- A client joins that holds nothing. -/
theorem Covered.join (h : a.Covered) : Covered ⟨a.limit, a.spent, a.holds ++ [none]⟩ := by
  intro hold hhold hsome limit hlimit
  have hmem : hold ∈ a.holds := by
    rcases List.mem_append.mp hhold with hmem | hnew
    · exact hmem
    · obtain rfl := List.mem_singleton.mp hnew
      cases hsome
  have := h hold hmem hsome limit hlimit
  simp only [held, List.map_append, List.sum_append] at this ⊢
  simpa using this

/-- A client is let through where there is room for what it asks for. -/
theorem Covered.take (hfree : a.holds[i]? = some none) (hroom : a.Room n) :
    (a.put i (some n) a.spent).Covered := by
  intro _ _ _ limit hlimit
  have := hroom limit hlimit
  have hheld : (a.put i (some n) a.spent).held + 0 = a.held + n := held_put hfree
  simp only [put] at hheld ⊢
  omega

/-- A client gives up what it holds, or keeps it. -/
theorem Covered.release (h : a.Covered) {old new : Option Nat} (hi : a.holds[i]? = some old)
    (hnew : new = old ∨ new = none) {spent : Nat} (hspent : spent ≤ a.spent) :
    (a.put i new spent).Covered := by
  intro hold hhold hsome limit hlimit
  have hmem : hold ∈ a.holds := by
    rcases List.mem_or_eq_of_mem_set hhold with hmem | heq
    · exact hmem
    · rcases hnew with rfl | rfl
      · exact heq ▸ List.mem_of_getElem? hi
      · rw [heq] at hsome
        cases hsome
  have := h hold hmem hsome limit hlimit
  have hheld : (a.put i new spent).held + old.getD 0 = a.held + new.getD 0 := held_put hi
  have hle : new.getD 0 ≤ old.getD 0 := by
    rcases hnew with rfl | rfl
    · exact Nat.le_refl _
    · exact Nat.zero_le _
  simp only [put] at hheld ⊢
  omega

/-- The cost of a client that holds `n` stays in the hold, or there is room for
what exceeds it. -/
def Affords (a : Account) (n cost : Nat) : Prop := cost ≤ n ∨ a.Room (cost - n)

instance {cost : Nat} : Decidable (a.Affords n cost) :=
  inferInstanceAs (Decidable (cost ≤ n ∨ a.Room (cost - n)))

/-- What has been spent and what the others hold, once a client has spent. -/
theorem Covered.settled (h : a.Covered) (hi : a.holds[i]? = some (some n)) {cost spent : Nat}
    (hcost : a.Affords n cost) (hspent : spent ≤ a.spent + cost) :
    ∀ limit ∈ a.limit, spent + (a.put i none spent).held ≤ limit := by
  intro limit hlimit
  have hcover := h _ (List.mem_of_getElem? hi) rfl limit hlimit
  have hheld : (a.put i none spent).held + n = a.held + 0 := held_put hi
  rcases hcost with hle | hroom
  · omega
  · have := hroom limit hlimit
    omega

/-- A client spends and holds nothing more. -/
theorem Covered.settle (h : a.Covered) (hi : a.holds[i]? = some (some n)) {cost spent : Nat}
    (hcost : a.Affords n cost) (hspent : spent ≤ a.spent + cost) :
    (a.put i none spent).Covered :=
  fun _ _ _ limit hlimit => h.settled hi hcost hspent limit hlimit

/-- **What a client spends keeps the limit**, where the holds were covered. -/
theorem Covered.within (h : a.Covered) (hi : a.holds[i]? = some (some n)) {cost spent : Nat}
    (hcost : a.Affords n cost) (hspent : spent ≤ a.spent + cost) :
    (a.put i none spent).Within := by
  intro limit hlimit
  exact Nat.le_trans (Nat.le_add_right _ _) (h.settled hi hcost hspent limit hlimit)

end Account

end HeldAccount
