import Mathlib.Data.List.Basic
import Mathlib.Data.List.Perm.Basic

/-! # The nearest entries on a chain

Entries lie on keys, and a chain lists keys with the nearest first.  The nearest
entries are those of the first key of the chain that has any.
-/
namespace Nearest

variable {κ τ : Type} [DecidableEq κ] (key : τ → κ)

/-- The entries of the first key of the chain that has any. -/
def nearest (entries : List τ) : List κ → List τ
  | [] => []
  | k :: rest =>
    let found := entries.filter fun x => key x = k
    if found.length > 0 then found else nearest entries rest

/-- Two lists have the same entries on every key of the chain, up to the first
that has any. -/
def Agree (entries entries' : List τ) : List κ → Prop
  | [] => True
  | k :: rest =>
    (∀ x, key x = k → (x ∈ entries ↔ x ∈ entries')) ∧
      ((∀ x ∈ entries, key x ≠ k) → Agree entries entries' rest)

variable {key} {entries entries' : List τ} {k : κ} {chain : List κ} {x y : τ}

theorem filter_length_pos :
    (entries.filter fun x => key x = k).length > 0 ↔ ∃ x ∈ entries, key x = k := by
  rw [gt_iff_lt, List.length_pos_iff_exists_mem]
  simp

/-- A key with an entry is where the search ends. -/
theorem nearest_here (h : ∃ x ∈ entries, key x = k) (rest : List κ) :
    nearest key entries (k :: rest) = entries.filter fun x => key x = k :=
  if_pos ((filter_length_pos).mpr h)

/-- A key without an entry is passed over. -/
theorem nearest_further (h : ∀ x ∈ entries, key x ≠ k) (rest : List κ) :
    nearest key entries (k :: rest) = nearest key entries rest :=
  if_neg fun hpos => by
    obtain ⟨x, hx, hk⟩ := (filter_length_pos).mp hpos
    exact h x hx hk

theorem mem_nearest_here (hx : x ∈ entries) (hk : key x = k) (rest : List κ) :
    y ∈ nearest key entries (k :: rest) ↔ y ∈ entries ∧ key y = k := by
  rw [nearest_here ⟨x, hx, hk⟩]
  simp

theorem has_or_not (key : τ → κ) (entries : List τ) (k : κ) :
    (∃ x ∈ entries, key x = k) ∨ ∀ x ∈ entries, key x ≠ k := by
  by_cases h : ∃ x ∈ entries, key x = k
  · exact .inl h
  · exact .inr fun x hx hk => h ⟨x, hx, hk⟩

theorem mem_entries : y ∈ nearest key entries chain → y ∈ entries := by
  induction chain with
  | nil => intro h; exact absurd h List.not_mem_nil
  | cons k rest ih =>
    intro h
    rcases has_or_not key entries k with hhas | hnot
    · rw [nearest_here hhas] at h
      exact List.mem_of_mem_filter h
    · rw [nearest_further hnot] at h
      exact ih h

/-- Nothing is found exactly when the chain has no entry on it. -/
theorem nearest_eq_nil_iff :
    nearest key entries chain = [] ↔ ∀ x ∈ entries, key x ∉ chain := by
  induction chain with
  | nil => simp [nearest]
  | cons k rest ih =>
    rcases has_or_not key entries k with hhas | hnot
    · obtain ⟨x, hx, hk⟩ := hhas
      constructor
      · intro h
        have hmem := (mem_nearest_here hx hk rest).mpr ⟨hx, hk⟩
        rw [h] at hmem
        exact absurd hmem List.not_mem_nil
      · intro h
        exact absurd (hk ▸ List.mem_cons_self) (h x hx)
    · rw [nearest_further hnot, ih]
      constructor
      · intro h x hx hmem
        rcases List.mem_cons.mp hmem with heq | hrest
        · exact hnot x hx heq
        · exact h x hx hrest
      · exact fun h x hx hrest => h x hx (List.mem_cons_of_mem k hrest)

/-- **Lists that agree up to the nearest key have the same nearest entries.** -/
theorem mem_nearest_congr (h : Agree key entries entries' chain) :
    y ∈ nearest key entries chain ↔ y ∈ nearest key entries' chain := by
  induction chain with
  | nil => exact Iff.rfl
  | cons k rest ih =>
    obtain ⟨hhere, hfurther⟩ := h
    rcases has_or_not key entries k with ⟨x, hx, hk⟩ | hnot
    · rw [mem_nearest_here hx hk, mem_nearest_here ((hhere x hk).mp hx) hk]
      constructor
      · exact fun ⟨hy, hyk⟩ => ⟨(hhere y hyk).mp hy, hyk⟩
      · exact fun ⟨hy, hyk⟩ => ⟨(hhere y hyk).mpr hy, hyk⟩
    · have hnot' : ∀ x ∈ entries', key x ≠ k := fun x hx hk => hnot x ((hhere x hk).mpr hx) hk
      rw [nearest_further hnot, nearest_further hnot']
      exact ih (hfurther hnot)

/-- An entry beside a nearest one joins it, and no other entry comes or goes. -/
theorem mem_nearest_insert {left right : List τ}
    (hy : y ∈ nearest key (left ++ right) chain) (hxy : key x = key y) {z : τ} :
    z ∈ nearest key (left ++ x :: right) chain ↔
      z = x ∨ z ∈ nearest key (left ++ right) chain := by
  have hsplit : ∀ z, z ∈ left ++ x :: right ↔ z = x ∨ z ∈ left ++ right := by
    intro z
    simp only [List.mem_append, List.mem_cons]
    tauto
  induction chain with
  | nil => exact absurd hy List.not_mem_nil
  | cons k rest ih =>
    rcases has_or_not key (left ++ right) k with ⟨w, hw, hk⟩ | hnot
    · have hyk := ((mem_nearest_here hw hk rest).mp hy).2
      rw [mem_nearest_here hw hk, mem_nearest_here ((hsplit w).mpr (.inr hw)) hk, hsplit]
      constructor
      · rintro ⟨rfl | hz, hzk⟩
        · exact .inl rfl
        · exact .inr ⟨hz, hzk⟩
      · rintro (rfl | ⟨hz, hzk⟩)
        · exact ⟨.inl rfl, hxy.trans hyk⟩
        · exact ⟨.inr hz, hzk⟩
    · rw [nearest_further hnot] at hy
      have hnot' : ∀ z ∈ left ++ x :: right, key z ≠ k := by
        intro z hz
        rcases (hsplit z).mp hz with rfl | hz
        · rw [hxy]
          exact hnot y (mem_entries hy)
        · exact hnot z hz
      rw [nearest_further hnot, nearest_further hnot']
      exact ih hy

end Nearest
