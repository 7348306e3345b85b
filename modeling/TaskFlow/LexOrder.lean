import Mathlib.Data.List.Lex
import Mathlib.Order.Lattice

/-! # Lexicographic order on lists, and when extending keeps it

A list is smaller than another either because it is a proper prefix of it or
because the two differ at some position, the first one downwards.  Only the
second kind of difference survives extending both lists, whatever is appended:
`Below` is that kind.  Codes whose words have a length fixed by their first
letter differ in this way, so a comparison of two words decides the comparison
of all their extensions.
-/
namespace LexOrder

variable {α : Type} [LinearOrder α]

/-- `x` and `y` share a prefix and then differ, `x` downwards. -/
def Below (x y : List α) : Prop :=
  ∃ p c d s t, x = p ++ c :: s ∧ y = p ++ d :: t ∧ c < d

theorem below_of_head {c d : α} (h : c < d) (s t : List α) : Below (c :: s) (d :: t) :=
  ⟨[], c, d, s, t, rfl, rfl, h⟩

theorem Below.cons {x y : List α} (h : Below x y) (a : α) : Below (a :: x) (a :: y) := by
  obtain ⟨p, c, d, s, t, rfl, rfl, hcd⟩ := h
  exact ⟨a :: p, c, d, s, t, rfl, rfl, hcd⟩

/-- A difference at a position survives extending both lists. -/
theorem Below.append {x y : List α} (h : Below x y) (s t : List α) : Below (x ++ s) (y ++ t) := by
  obtain ⟨p, c, d, u, v, rfl, rfl, hcd⟩ := h
  exact ⟨p, c, d, u ++ s, v ++ t, by simp, by simp, hcd⟩

theorem Below.lt {x y : List α} (h : Below x y) : x < y := by
  obtain ⟨p, c, d, s, t, rfl, rfl, hcd⟩ := h
  exact List.append_left_lt (List.cons_lt_cons_iff.mpr (Or.inl hcd))

/-- Two lists of one length in order differ at a position. -/
theorem below_of_length_eq : ∀ {x y : List α}, x.length = y.length → x < y → Below x y
  | [], _, hlen, hlt => by
      rw [List.length_nil, eq_comm, List.length_eq_zero_iff] at hlen
      subst hlen
      exact absurd hlt (lt_irrefl _)
  | c :: s, [], hlen, _ => by simp at hlen
  | c :: s, d :: t, hlen, hlt => by
      rcases List.cons_lt_cons_iff.mp hlt with hcd | ⟨rfl, hst⟩
      · exact below_of_head hcd s t
      · exact (below_of_length_eq (by simpa using hlen) hst).cons c

/-- A list is smaller than any proper extension of it. -/
theorem lt_append_of_ne_nil (x : List α) {y : List α} (h : y ≠ []) : x < x ++ y := by
  obtain ⟨c, t, rfl⟩ := List.exists_cons_of_ne_nil h
  induction x with
  | nil => exact List.nil_lt_cons c t
  | cons a x ih => exact List.cons_lt_cons_iff.mpr (Or.inr ⟨rfl, ih⟩)

@[simp] theorem append_lt_append_iff (p x y : List α) : p ++ x < p ++ y ↔ x < y := by
  induction p with
  | nil => rfl
  | cons a p ih => simp [ih]

/-- Nothing below a nonempty list's first letter can be appended to reach it:
lists in order have their first letters in order. -/
theorem head_le_head {c d : α} {s t : List α} (h : c :: s < d :: t) : c ≤ d := by
  rcases List.cons_lt_cons_iff.mp h with hcd | ⟨rfl, _⟩
  · exact hcd.le
  · exact le_rfl

/-! ### Positions in a sorted list

The letters of an alphabet written in increasing order compare as their
positions do. -/

section Positions
variable {l : List α} (hl : l.Pairwise (· < ·))
include hl

theorem getElem_lt_getElem_iff {i j : Nat} (hi : i < l.length) (hj : j < l.length) :
    l[i] < l[j] ↔ i < j := by
  have mono : ∀ {i j : Nat} (hi : i < l.length) (hj : j < l.length), i < j → l[i] < l[j] :=
    fun hi hj hij => List.pairwise_iff_getElem.mp hl _ _ hi hj hij
  constructor
  · intro h
    rcases Nat.lt_trichotomy i j with hij | rfl | hij
    · exact hij
    · exact absurd h (lt_irrefl _)
    · exact absurd h (not_lt_of_gt (mono hj hi hij))
  · exact mono hi hj

theorem idxOf_lt_idxOf_iff {a b : α} (ha : a ∈ l) (hb : b ∈ l) :
    l.idxOf a < l.idxOf b ↔ a < b := by
  have h := getElem_lt_getElem_iff hl (List.idxOf_lt_length_of_mem ha)
    (List.idxOf_lt_length_of_mem hb)
  rw [List.getElem_idxOf, List.getElem_idxOf] at h
  exact h.symm

end Positions

end LexOrder
