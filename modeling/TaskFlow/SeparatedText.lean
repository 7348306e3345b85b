import Mathlib.Data.List.DropRight

/-! # Stripped and separated lists

`strip` takes the blanks off both ends of a list, and `entries` cuts a list at its marks into the
stripped pieces that are not empty.  Blanks around a list add no entry, and a join by a mark and
blanks has the entries of what it joins (`entries_intercalate`).
-/
namespace TaskFlow
namespace SeparatedText

variable {α : Type} {blank mark : α → Bool}

/-! ### Stripping -/

/-- Without the blanks at its ends. -/
def strip (blank : α → Bool) (xs : List α) : List α := (xs.dropWhile blank).rdropWhile blank

theorem rdropWhile_cons (x : α) (xs : List α) :
    (x :: xs).rdropWhile blank =
      if xs.rdropWhile blank = [] then if blank x then [] else [x]
      else x :: xs.rdropWhile blank := by
  induction xs using List.reverseRecOn with
  | nil => rw [List.rdropWhile_nil, if_pos rfl, List.rdropWhile_singleton]
  | append_singleton xs y ih =>
    rw [← List.cons_append]
    by_cases hy : blank y
    · rw [List.rdropWhile_concat_pos _ _ _ hy, List.rdropWhile_concat_pos _ _ _ hy, ih]
    · rw [List.rdropWhile_concat_neg _ _ _ hy, List.rdropWhile_concat_neg _ _ _ hy,
        if_neg (by simp), List.cons_append]

theorem rdropWhile_cons_of_not {x : α} (hx : blank x = false) (xs : List α) :
    (x :: xs).rdropWhile blank = x :: xs.rdropWhile blank := by
  rw [rdropWhile_cons]
  by_cases hxs : xs.rdropWhile blank = []
  · rw [if_pos hxs, hx, hxs]
    rfl
  · rw [if_neg hxs]

theorem strip_cons_of_blank {x : α} (hx : blank x = true) (xs : List α) :
    strip blank (x :: xs) = strip blank xs := by
  rw [strip, List.dropWhile_cons_of_pos hx, strip]

theorem strip_cons_of_not {x : α} (hx : blank x = false) (xs : List α) :
    strip blank (x :: xs) = x :: xs.rdropWhile blank := by
  rw [strip, List.dropWhile_cons_of_neg (by simp [hx]), rdropWhile_cons_of_not hx]

/-- The two ends may be stripped in either order. -/
theorem dropWhile_rdropWhile (xs : List α) :
    (xs.rdropWhile blank).dropWhile blank = strip blank xs := by
  induction xs with
  | nil => rfl
  | cons x xs ih =>
    cases hx : blank x with
    | true =>
      rw [strip_cons_of_blank hx, ← ih, rdropWhile_cons, if_pos hx]
      split
      · rename_i hnil
        rw [hnil]
      · rw [List.dropWhile_cons_of_pos hx]
    | false =>
      rw [strip_cons_of_not hx, rdropWhile_cons_of_not hx,
        List.dropWhile_cons_of_neg (by simp [hx])]

@[simp] theorem strip_strip (xs : List α) : strip blank (strip blank xs) = strip blank xs := by
  rw [← dropWhile_rdropWhile, strip, List.rdropWhile_idempotent, dropWhile_rdropWhile, strip,
    List.dropWhile_idempotent]

/-- A list ends with what is blank there. -/
theorem exists_append_blanks (blank : α → Bool) (xs : List α) :
    ∃ blanks : List α, xs = xs.rdropWhile blank ++ blanks ∧ ∀ x ∈ blanks, blank x = true :=
  ⟨xs.rtakeWhile blank, List.rdropWhile_append_rtakeWhile.symm,
    fun _ hx => List.mem_rtakeWhile_imp hx⟩

theorem strip_sublist (xs : List α) : (strip blank xs).Sublist xs :=
  (List.rdropWhile_prefix _ _).sublist.trans (List.dropWhile_sublist _)

theorem strip_of_length {xs : List α} (h : xs.length ≤ (strip blank xs).length) :
    strip blank xs = xs :=
  (strip_sublist xs).eq_of_length_le h

/-! ### Entries -/

def entries (blank mark : α → Bool) (xs : List α) : List (List α) :=
  ((xs.splitOnP mark).map (strip blank)).filter (· ≠ [])

theorem strip_entry {xs entry : List α} (h : entry ∈ entries blank mark xs) :
    strip blank entry = entry ∧ entry ≠ [] := by
  rw [entries, List.mem_filter, List.mem_map] at h
  obtain ⟨⟨piece, -, rfl⟩, hne⟩ := h
  exact ⟨strip_strip piece, by simpa using hne⟩

/-- Entries on both sides of a mark. -/
theorem entries_append_mark (xs ys : List α) {m : α} (hm : mark m = true) :
    entries blank mark (xs ++ m :: ys) = entries blank mark xs ++ entries blank mark ys := by
  rw [entries, List.splitOnP_append_cons xs ys hm, List.map_append, List.filter_append]
  rfl

section
variable (quiet : ∀ x, blank x = true → mark x = false)
include quiet

theorem entries_cons_blank {x : α} (hx : blank x = true) (xs : List α) :
    entries blank mark (x :: xs) = entries blank mark xs := by
  rw [entries, List.splitOnP_cons_eq_if_modifyHead, if_neg (by simp [quiet x hx]), entries]
  obtain ⟨piece, pieces, hpieces⟩ := List.exists_cons_of_ne_nil (List.splitOnP_ne_nil mark xs)
  rw [hpieces, List.modifyHead_cons, List.map_cons, List.map_cons, strip_cons_of_blank hx]

/-- The ends of the pieces, of a list that one more blank ends. -/
theorem map_rdropWhile_splitOnP {y : α} (hy : blank y = true) (xs : List α) :
    ((xs ++ [y]).splitOnP mark).map (List.rdropWhile blank) =
      (xs.splitOnP mark).map (List.rdropWhile blank) := by
  induction xs with
  | nil =>
    rw [List.nil_append, List.splitOnP_eq_singleton (by simpa using quiet y hy)]
    simp [List.rdropWhile_singleton, hy]
  | cons x xs ih =>
    rw [List.cons_append, List.splitOnP_cons_eq_if_modifyHead,
      List.splitOnP_cons_eq_if_modifyHead]
    split
    · rw [List.map_cons, List.map_cons, ih]
    · obtain ⟨piece, pieces, hpieces⟩ := List.exists_cons_of_ne_nil
        (List.splitOnP_ne_nil mark xs)
      obtain ⟨piece', pieces', hpieces'⟩ := List.exists_cons_of_ne_nil
        (List.splitOnP_ne_nil mark (xs ++ [y]))
      rw [hpieces, hpieces', List.map_cons, List.map_cons] at ih
      obtain ⟨hpiece, hrest⟩ := List.cons.inj ih
      rw [hpieces, hpieces', List.modifyHead_cons, List.modifyHead_cons, List.map_cons,
        List.map_cons, hrest, rdropWhile_cons, rdropWhile_cons, hpiece]

theorem entries_append_blank {y : α} (hy : blank y = true) (xs : List α) :
    entries blank mark (xs ++ [y]) = entries blank mark xs := by
  have hstrip : strip blank = List.dropWhile blank ∘ List.rdropWhile blank :=
    funext fun piece => (dropWhile_rdropWhile piece).symm
  rw [entries, entries, hstrip, ← List.map_map, ← List.map_map,
    map_rdropWhile_splitOnP quiet hy]

theorem entries_append_blanks (xs : List α) {blanks : List α}
    (hblanks : ∀ x ∈ blanks, blank x = true) :
    entries blank mark (xs ++ blanks) = entries blank mark xs := by
  induction blanks using List.reverseRecOn with
  | nil => rw [List.append_nil]
  | append_singleton blanks y ih =>
    rw [← List.append_assoc, entries_append_blank quiet (hblanks y (by simp)),
      ih fun x hx => hblanks x (by simp [hx])]

theorem entries_blanks_append (xs : List α) {blanks : List α}
    (hblanks : ∀ x ∈ blanks, blank x = true) :
    entries blank mark (blanks ++ xs) = entries blank mark xs := by
  induction blanks with
  | nil => rfl
  | cons y blanks ih =>
    rw [List.cons_append, entries_cons_blank quiet (hblanks y (by simp)),
      ih fun x hx => hblanks x (by simp [hx])]

/-- Stripping a list leaves its entries. -/
theorem entries_strip (xs : List α) :
    entries blank mark (strip blank xs) = entries blank mark xs := by
  obtain ⟨blanks, hends, hblanks⟩ := exists_append_blanks blank (xs.dropWhile blank)
  calc entries blank mark (strip blank xs)
      = entries blank mark (strip blank xs ++ blanks) :=
        (entries_append_blanks quiet _ hblanks).symm
    _ = entries blank mark (xs.dropWhile blank) := by rw [strip, ← hends]
    _ = entries blank mark (xs.takeWhile blank ++ xs.dropWhile blank) :=
        (entries_blanks_append quiet _ fun x hx => List.mem_takeWhile_imp hx).symm
    _ = entries blank mark xs := by rw [List.takeWhile_append_dropWhile]

/-- **A join has the entries of what it joins.** -/
theorem entries_intercalate {m : α} (hm : mark m = true) {blanks : List α}
    (hblanks : ∀ x ∈ blanks, blank x = true) (pieces : List (List α)) :
    entries blank mark (List.intercalate (m :: blanks) pieces) =
      pieces.flatMap (entries blank mark) := by
  induction pieces with
  | nil => rfl
  | cons piece pieces ih =>
    cases pieces with
    | nil => simp
    | cons piece' pieces =>
      rw [List.intercalate_cons_cons, List.append_assoc, List.cons_append,
        entries_append_mark _ _ hm, entries_blanks_append quiet _ hblanks, ih]
      rfl

end

end SeparatedText
end TaskFlow
