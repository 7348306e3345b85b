import Mathlib.Data.List.Induction

/-! # Hash chains

Each entry of a chain is hashed with the head before it, and the digest is the
new head.  So the head commits to every entry: `eq_of_head_eq` says that two
chains from one start with the same head are the same chain, when no two
different links of theirs have one digest and no digest is the start.
-/
namespace HashChain
variable {Digest Entry : Type} (digest : Digest → Entry → Digest)

/-- The head after more entries. -/
def head (start : Digest) (entries : List Entry) : Digest := entries.foldl digest start

/-- What is hashed along a chain: each entry with the head before it. -/
def links (start : Digest) : List Entry → List (Digest × Entry)
  | [] => []
  | entry :: entries => (start, entry) :: links (digest start entry) entries

variable {digest} {start : Digest} {entries entries' : List Entry} {entry : Entry}

@[simp] theorem head_nil : head digest start [] = start := rfl

@[simp] theorem head_cons :
    head digest start (entry :: entries) = head digest (digest start entry) entries := rfl

theorem head_append : head digest start (entries ++ entries') =
    head digest (head digest start entries) entries' := List.foldl_append

theorem links_concat : links digest start (entries ++ [entry]) =
    links digest start entries ++ [(head digest start entries, entry)] := by
  induction entries generalizing start with
  | nil => rfl
  | cons e entries ih => rw [List.cons_append, links, ih]; rfl

variable (digest) in
/-- A property of the start that every digest has holds of all heads. -/
theorem links_fst {P : Digest → Prop} (hstart : P start) (hdigest : ∀ d e, P (digest d e)) :
    ∀ p ∈ links digest start entries, P p.1 := by
  induction entries generalizing start with
  | nil => exact fun _ h => absurd h List.not_mem_nil
  | cons e entries ih => exact List.forall_mem_cons.mpr ⟨hstart, ih (hdigest start e)⟩

theorem mem_of_mem_links {p : Digest × Entry} (h : p ∈ links digest start entries) :
    p.2 ∈ entries := by
  induction entries generalizing start with
  | nil => exact absurd h List.not_mem_nil
  | cons e entries ih =>
    rcases List.mem_cons.mp h with rfl | h
    · exact List.mem_cons_self
    · exact List.mem_cons_of_mem _ (ih h)

variable (digest start) in
/-- **The head binds the chain.** -/
theorem eq_of_head_eq (hstart : ∀ d e, digest d e ≠ start)
    (hinj : ∀ p ∈ links digest start entries, ∀ p' ∈ links digest start entries',
      digest p.1 p.2 = digest p'.1 p'.2 → p = p')
    (h : head digest start entries = head digest start entries') : entries = entries' := by
  induction entries using List.reverseRecOn generalizing entries' with
  | nil =>
    rcases List.eq_nil_or_concat entries' with rfl | ⟨init, e, rfl⟩
    · rfl
    · rw [List.concat_eq_append, head_append] at h
      exact absurd h.symm (hstart _ _)
  | append_singleton entries e ih =>
    rcases List.eq_nil_or_concat entries' with rfl | ⟨init, e', rfl⟩
    · rw [head_append] at h
      exact absurd h (hstart _ _)
    · rw [List.concat_eq_append] at h hinj ⊢
      rw [links_concat, links_concat] at hinj
      rw [head_append, head_append] at h
      have hlast := hinj _ (List.mem_append_right _ List.mem_cons_self) _
        (List.mem_append_right _ List.mem_cons_self) h
      obtain ⟨hhead, rfl⟩ := Prod.mk.inj hlast
      rw [ih (fun p hp p' hp' => hinj p (List.mem_append_left _ hp) p'
        (List.mem_append_left _ hp')) hhead]

end HashChain
