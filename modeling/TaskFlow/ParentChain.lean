import Mathlib.Logic.Function.Basic

/-! # Parents of parents

Nodes with at most one parent each.  A chain lists a node, its parent and so on to a node that
has none.  Giving one node another parent makes a cycle just when the new parent is below it
(`acyclic_update_iff`); and it changes the chains through that node only, from there on
(`Chain.splice`).
-/
namespace ParentChain
variable {α : Type}

/-- The node `n` parents up. -/
def climb (parent : α → Option α) : Nat → α → Option α
  | 0, a => some a
  | n + 1, a => (parent a).bind (climb parent n)

/-- `b` is `a`, or a parent of its parents. -/
def Above (parent : α → Option α) (a b : α) : Prop := ∃ n, climb parent n a = some b

/-- Every walk upward ends. -/
def Founded (parent : α → Option α) : Prop := ∀ a, ∃ n, climb parent n a = none

/-- No node is above its own parent. -/
def Acyclic (parent : α → Option α) : Prop := ∀ a n, climb parent (n + 1) a ≠ some a

/-- The list starts at `start` and goes from parent to parent until there is none. -/
def Chain (parent : α → Option α) : Option α → List α → Prop
  | none, [] => True
  | some a, b :: l => a = b ∧ Chain parent (parent b) l
  | _, _ => False

variable {parent : α → Option α} {a b c : α} {start : Option α} {l l' : List α}

/-! ### Chains -/

theorem climb_add (m n : Nat) (a : α) :
    climb parent (m + n) a = (climb parent m a).bind (climb parent n) := by
  induction m generalizing a with
  | zero => simp [climb]
  | succ m ih =>
    rw [Nat.succ_add]
    cases hp : parent a with
    | none => simp [climb, hp]
    | some p => simpa [climb, hp] using ih p

theorem climb_succ (h : parent a = some b) (n : Nat) :
    climb parent (n + 1) a = climb parent n b := by
  simp [climb, h]

/-- There is one chain from a node. -/
theorem Chain.unique (h : Chain parent start l) (h' : Chain parent start l') : l = l' := by
  induction l generalizing start l' with
  | nil =>
    cases start with
    | none =>
      cases l' with
      | nil => rfl
      | cons b l' => exact h'.elim
    | some a => exact h.elim
  | cons b l ih =>
    cases start with
    | none => exact h.elim
    | some a =>
      cases l' with
      | nil => exact h'.elim
      | cons b' l' =>
        obtain ⟨rfl, h⟩ := h
        obtain ⟨rfl, h'⟩ := h'
        rw [ih h h']

/-- What is left of a chain is a chain. -/
theorem Chain.drop (h : Chain parent (some a) l) {n : Nat} (hn : climb parent n a = some b) :
    Chain parent (some b) (l.drop n) := by
  induction n generalizing a l with
  | zero =>
    obtain rfl := Option.some.inj hn
    exact h
  | succ n ih =>
    cases l with
    | nil => exact h.elim
    | cons a' l =>
      obtain ⟨rfl, h⟩ := h
      obtain ⟨p, hp, hn⟩ := Option.bind_eq_some_iff.mp hn
      rw [hp] at h
      exact ih h hn

/-- A chain from a node lists what is above it. -/
theorem Chain.mem_iff (h : Chain parent (some a) l) : b ∈ l ↔ Above parent a b := by
  constructor
  · intro hb
    induction l generalizing a with
    | nil => exact absurd hb List.not_mem_nil
    | cons a' l ih =>
      obtain ⟨rfl, h⟩ := h
      rcases List.mem_cons.mp hb with rfl | hb
      · exact ⟨0, rfl⟩
      · cases hp : parent a with
        | none =>
          rw [hp] at h
          cases l with
          | nil => exact absurd hb List.not_mem_nil
          | cons => exact h.elim
        | some p =>
          rw [hp] at h
          obtain ⟨n, hn⟩ := ih h hb
          exact ⟨n + 1, (climb_succ hp n).trans hn⟩
  · rintro ⟨n, hn⟩
    have hdrop := h.drop hn
    cases hl : l.drop n with
    | nil =>
      rw [hl] at hdrop
      exact hdrop.elim
    | cons b' rest =>
      rw [hl] at hdrop
      obtain ⟨rfl, -⟩ := hdrop
      exact List.mem_of_mem_drop (hl ▸ List.mem_cons_self)

/-- Where every node has a chain there is no cycle. -/
theorem acyclic_of_chains (h : ∀ a, ∃ l, Chain parent (some a) l) : Acyclic parent := by
  intro a n hn
  obtain ⟨l, hl⟩ := h a
  have hsame := (hl.drop hn).unique hl
  cases l with
  | nil => exact hl.elim
  | cons b l =>
    have hlength := congrArg List.length hsame
    simp only [List.length_drop, List.length_cons] at hlength
    omega

/-- A node is not in the chain of its parent. -/
theorem Acyclic.notMem (h : Acyclic parent) (hl : Chain parent (parent a) l) : a ∉ l := by
  intro ha
  cases hp : parent a with
  | none =>
    rw [hp] at hl
    cases l with
    | nil => exact absurd ha List.not_mem_nil
    | cons => exact hl.elim
  | some p =>
    rw [hp] at hl
    obtain ⟨n, hn⟩ := hl.mem_iff.mp ha
    exact h a n ((climb_succ hp n).trans hn)

/-- A node that is not met on the way up to a node without parent. -/
theorem not_above_of_climb {n : Nat} (hend : climb parent n a = none)
    (hnot : ∀ m < n, climb parent m a ≠ some b) : ¬Above parent a b := by
  rintro ⟨m, hm⟩
  rcases Nat.lt_or_ge m n with hlt | hge
  · exact hnot m hlt hm
  · obtain ⟨k, rfl⟩ := Nat.exists_eq_add_of_le hge
    rw [climb_add, hend] at hm
    cases hm

/-- A walk that has ended does not go on. -/
theorem climb_none_of_le {m n : Nat} (h : climb parent m a = none) (hle : m ≤ n) :
    climb parent n a = none := by
  obtain ⟨k, rfl⟩ := Nat.exists_eq_add_of_le hle
  rw [climb_add, h]
  rfl

/-- Where every walk ends there is no cycle. -/
theorem Founded.acyclic (h : Founded parent) : Acyclic parent := by
  intro a n hn
  have hround (k : Nat) : climb parent (k * (n + 1)) a = some a := by
    induction k with
    | zero => rw [Nat.zero_mul]; rfl
    | succ k ih =>
      rw [Nat.succ_mul, climb_add, ih]
      exact hn
  obtain ⟨m, hm⟩ := h a
  have hend := climb_none_of_le hm (Nat.le_mul_of_pos_right m n.succ_pos)
  rw [hround m] at hend
  cases hend

/-! ### Another parent -/

section
variable [DecidableEq α] {new : Option α}

/-- The parents of a node that is not below `c` stay. -/
theorem climb_update (h : ¬Above parent a c) (n : Nat) :
    climb (Function.update parent c new) n a = climb parent n a := by
  induction n generalizing a with
  | zero => rfl
  | succ n ih =>
    have hne : a ≠ c := fun heq => h ⟨0, congrArg some heq⟩
    rw [climb, climb, Function.update_of_ne hne]
    cases hp : parent a with
    | none => rfl
    | some p => exact ih fun ⟨m, hm⟩ => h ⟨m + 1, (climb_succ hp m).trans hm⟩

/-- What is below `c` does not depend on the parent of `c`. -/
theorem above_update_iff : Above (Function.update parent c new) a c ↔ Above parent a c := by
  have hsub (parent : α → Option α) (new : Option α)
      (h : Above (Function.update parent c new) a c) : Above parent a c := by
    by_contra hnot
    obtain ⟨n, hn⟩ := h
    rw [climb_update hnot] at hn
    exact hnot ⟨n, hn⟩
  refine ⟨hsub parent new, fun h => hsub _ (parent c) ?_⟩
  rwa [Function.update_idem, Function.update_eq_self]

/-- **A new parent makes a cycle just when it is below the node that gets it.** -/
theorem acyclic_update_iff (h : Acyclic parent) :
    Acyclic (Function.update parent c new) ↔ ∀ b ∈ new, ¬Above parent b c := by
  constructor
  · rintro hacyclic b hb habove
    obtain rfl : new = some b := hb
    obtain ⟨n, hn⟩ : Above (Function.update parent c (some b)) b c :=
      above_update_iff.mpr habove
    exact hacyclic c n ((climb_succ (Function.update_self ..) n).trans hn)
  · intro hnew a n hn
    by_cases habove : Above (Function.update parent c new) a c
    · -- the node `c` is on the cycle, and so above its new parent
      obtain ⟨m, hm⟩ := habove
      have hcycle : climb (Function.update parent c new) (n + 1) c = some c := by
        have hsum : climb (Function.update parent c new) (m + (n + 1)) a = _ :=
          climb_add m (n + 1) a
        rw [Nat.add_comm, climb_add, hn, hm] at hsum
        exact hsum.symm.trans hm
      rw [climb, Function.update_self] at hcycle
      obtain ⟨b, hb, hcycle⟩ := Option.bind_eq_some_iff.mp hcycle
      exact hnew b hb (above_update_iff.mp ⟨n, hcycle⟩)
    · rw [climb_update (fun h => habove (above_update_iff.mpr h))] at hn
      exact h a n hn

/-- **Under a new parent every walk still ends just when the parent is not below the node.** -/
theorem founded_update_iff (h : Founded parent) :
    Founded (Function.update parent c new) ↔ ∀ b ∈ new, ¬Above parent b c := by
  refine ⟨fun hnew => (acyclic_update_iff h.acyclic).mp hnew.acyclic, fun hnew => ?_⟩
  have hself : ∃ n, climb (Function.update parent c new) n c = none := by
    cases hb : new with
    | none => exact ⟨1, by simp [climb]⟩
    | some b =>
      obtain ⟨n, hn⟩ := h b
      refine ⟨n + 1, ?_⟩
      rw [climb_succ (Function.update_self ..), climb_update (hnew b hb), hn]
  intro a
  by_cases habove : Above parent a c
  · -- from `a` up to `c`, and on from there
    obtain ⟨m, hm⟩ := above_update_iff.mpr habove
    obtain ⟨n, hn⟩ := hself
    exact ⟨m + n, by rw [climb_add, hm]; exact hn⟩
  · obtain ⟨n, hn⟩ := h a
    exact ⟨n, by rw [climb_update habove, hn]⟩

/-- A chain without `c` stays. -/
theorem Chain.update (h : Chain parent start l) (hc : c ∉ l) :
    Chain (Function.update parent c new) start l := by
  induction l generalizing start with
  | nil => cases start <;> exact h
  | cons b l ih =>
    cases start with
    | none => exact h
    | some a =>
      obtain ⟨rfl, h⟩ := h
      refine ⟨rfl, ?_⟩
      rw [Function.update_of_ne (List.ne_of_not_mem_cons hc).symm]
      exact ih h fun hmem => hc (List.mem_cons_of_mem _ hmem)

/-- **A chain through `c` goes on from its new parent.** -/
theorem Chain.splice {before old : List α} (h : Chain parent start (before ++ c :: old))
    (hc : c ∉ before) (hnew : Chain (Function.update parent c new) new l') :
    Chain (Function.update parent c new) start (before ++ c :: l') := by
  induction before generalizing start with
  | nil =>
    cases start with
    | none => exact h
    | some a =>
      obtain ⟨rfl, -⟩ := h
      exact ⟨rfl, by rwa [Function.update_self]⟩
  | cons b before ih =>
    cases start with
    | none => exact h
    | some a =>
      obtain ⟨rfl, h⟩ := h
      refine ⟨rfl, ?_⟩
      rw [Function.update_of_ne (List.ne_of_not_mem_cons hc).symm]
      exact ih h fun hmem => hc (List.mem_cons_of_mem _ hmem)

end

end ParentChain
