import Mathlib.Data.Nat.Digits.Lemmas

/-! # Numbers written with the most significant digit first

Mathlib's `Nat.digits` and `Nat.ofDigits` put the least significant digit first.
What is read from a string or a byte buffer comes in the other order: `value` is
the number that such a list of digits spells, and `digits` spells a number in a
given width.
-/
namespace BigEndian
variable {b width n : ℕ} {ds : List ℕ}

/-- The number that `ds` spells in base `b`. -/
def value (b : ℕ) (ds : List ℕ) : ℕ := Nat.ofDigits b ds.reverse

@[simp] theorem value_nil : value b [] = 0 := rfl

theorem value_append (ds es : List ℕ) :
    value b (ds ++ es) = value b ds * b ^ es.length + value b es := by
  rw [value, List.reverse_append, Nat.ofDigits_append, List.length_reverse, add_comm, mul_comm,
    value, value]

theorem value_cons (d : ℕ) (ds : List ℕ) : value b (d :: ds) = d * b ^ ds.length + value b ds := by
  have hd : value b [d] = d := Nat.ofDigits_singleton
  rw [← List.singleton_append, value_append, hd]

/-- Zeros in front do not count. -/
theorem value_zeros_append (n : ℕ) (ds : List ℕ) :
    value b (List.replicate n 0 ++ ds) = value b ds := by
  rw [value, List.reverse_append, List.reverse_replicate, Nat.ofDigits_append_replicate_zero, value]

theorem value_zeros (n : ℕ) : value b (List.replicate n 0) = 0 := by
  simpa using value_zeros_append n []

/-- The largest number of a width. -/
theorem value_lasts (n : ℕ) : value (b + 1) (List.replicate n b) + 1 = (b + 1) ^ n := by
  induction n with
  | zero => rfl
  | succ n ih =>
    rw [List.replicate_succ, value_cons, List.length_replicate, add_assoc, ih, pow_succ]
    ring

theorem value_lt (hb : 1 < b) (hds : ∀ d ∈ ds, d < b) : value b ds < b ^ ds.length := by
  rw [← List.length_reverse, value]
  exact Nat.ofDigits_lt_base_pow_length hb fun d hd => hds d (List.mem_reverse.mp hd)

/-- `n` in `width` digits. -/
def digits (b width n : ℕ) : List ℕ := (Nat.digitsAppend b width n).reverse

/-- The digits in a width are those in no width with zeros in front. -/
theorem digits_eq (b width n : ℕ) : digits b width n =
    List.replicate (width - (Nat.digits b n).length) 0 ++ (Nat.digits b n).reverse := by
  rw [digits, Nat.digitsAppend, List.reverse_append, List.reverse_replicate]

end BigEndian
