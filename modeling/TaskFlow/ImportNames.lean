import TaskFlow.ImportRows

/-! # What a name stands for

An import resolves names by `NameLookup`, built in one pass over the rows of a table.  Said of
the rows: a name stands for the last of exactly this name, and else for the one row it names
regardless of case (`resolve_ofEntries`).
-/
namespace TaskFlow
namespace ImportRows
open RichText (Text)

variable (engine : Engine)

/-- The last entry of exactly this name. -/
def exactId (entries : List Entry) (name : Text) : Option Id :=
  (entries.reverse.find? fun entry => entry.name = name).map (·.id)

/-- The first entry whose name folds so. -/
def firstId (entries : List Entry) (lower : Text) : Option Id :=
  (entries.find? fun entry => engine.toLowerCase entry.name = lower).map (·.id)

/-- What a name stands for: the last entry of exactly this name; where there is none, the entry
of this name regardless of case, if all such are one. -/
def Named (entries : List Entry) (name : Text) (id : Id) : Prop :=
  exactId entries name = some id ∨
    exactId entries name = none ∧
      (∃ entry ∈ entries, engine.toLowerCase entry.name = engine.toLowerCase name ∧
        entry.id = id) ∧
      ∀ entry ∈ entries, engine.toLowerCase entry.name = engine.toLowerCase name →
        entry.id = id

instance (entries : List Entry) (name : Text) (id : Id) :
    Decidable (Named engine entries name id) :=
  inferInstanceAs (Decidable (_ ∨ _))

/-- Some entry whose name folds so is another than the first. -/
def Ambiguous (entries : List Entry) (lower : Text) : Prop :=
  ∃ entry ∈ entries, engine.toLowerCase entry.name = lower ∧
    firstId engine entries lower ≠ some entry.id

/-- What the loop of the constructor knows after these entries. -/
structure Scanned (entries : List Entry) (scan : Scan) : Prop where
  byExact : ∀ name, scan.byExact.get name = exactId entries name
  seen : ∀ lower, scan.seen.get lower = firstId engine entries lower
  ambiguous : ∀ lower, lower ∈ scan.ambiguous ↔ Ambiguous engine entries lower

theorem TextMap.get_set (map : TextMap) (key name : Text) (id : Id) :
    (TextMap.set map key id).get name = if name = key then some id else map.get name := by
  by_cases hname : name = key
  · subst hname
    simp [TextMap.get, TextMap.set]
  · rw [if_neg hname, TextMap.get, TextMap.set, List.lookup_cons, beq_false_of_ne hname]
    rfl

theorem TextMap.get_filter (map : TextMap) (p : Text → Bool) (name : Text) :
    TextMap.get (map.filter fun entry => p entry.1) name =
      if p name then map.get name else none := by
  induction map with
  | nil => simp [TextMap.get]
  | cons entry map ih =>
    obtain ⟨key, id⟩ := entry
    have hcons : TextMap.get ((key, id) :: map) name =
        if name = key then some id else TextMap.get map name := TextMap.get_set map key name id
    rw [List.filter_cons]
    by_cases hp : p key
    · rw [if_pos hp, hcons]
      refine (TextMap.get_set _ key name id).trans ?_
      by_cases hname : name = key
      · rw [if_pos hname, if_pos hname, if_pos (hname ▸ hp)]
      · rw [if_neg hname, if_neg hname, ih]
    · rw [if_neg hp, ih, hcons]
      by_cases hname : name = key
      · rw [if_neg (hname ▸ hp), if_neg (hname ▸ hp)]
      · rw [if_neg hname]

variable {engine}

theorem exactId_append (entries : List Entry) (entry : Entry) (name : Text) :
    exactId (entries ++ [entry]) name =
      if name = entry.name then some entry.id else exactId entries name := by
  rw [exactId, List.reverse_append, List.reverse_singleton, List.singleton_append,
    List.find?_cons]
  by_cases hname : name = entry.name
  · rw [if_pos hname, decide_eq_true hname.symm]
    rfl
  · rw [if_neg hname, decide_eq_false (Ne.symm hname)]
    rfl

theorem firstId_append (entries : List Entry) (entry : Entry) (lower : Text) :
    firstId engine (entries ++ [entry]) lower =
      (firstId engine entries lower).or
        (if engine.toLowerCase entry.name = lower then some entry.id else none) := by
  rw [firstId, List.find?_append, Option.map_or, ← firstId]
  by_cases hlower : engine.toLowerCase entry.name = lower <;> simp [hlower]

theorem firstId_eq_none {entries : List Entry} {lower : Text} :
    firstId engine entries lower = none ↔
      ∀ entry ∈ entries, engine.toLowerCase entry.name ≠ lower := by
  simp [firstId]

theorem firstId_eq_some {entries : List Entry} {lower : Text} {id : Id}
    (h : firstId engine entries lower = some id) :
    ∃ entry ∈ entries, engine.toLowerCase entry.name = lower ∧ entry.id = id := by
  obtain ⟨entry, hfind, hid⟩ := Option.map_eq_some_iff.mp h
  exact ⟨entry, List.mem_of_find?_eq_some hfind, by simpa using List.find?_some hfind, hid⟩

/-- One more entry makes its folded name ambiguous, if that was another's. -/
theorem ambiguous_append (entries : List Entry) (entry : Entry) (lower : Text) :
    Ambiguous engine (entries ++ [entry]) lower ↔
      Ambiguous engine entries lower ∨ engine.toLowerCase entry.name = lower ∧
        ∃ prior, firstId engine entries lower = some prior ∧ prior ≠ entry.id := by
  rw [Ambiguous, Ambiguous, firstId_append]
  cases hfirst : firstId engine entries lower with
  | none =>
    have hnone := (firstId_eq_none).mp hfirst
    simp only [List.mem_append, List.mem_singleton]
    grind
  | some prior =>
    simp only [List.mem_append, List.mem_singleton]
    grind

/-- The loop learns of one more entry. -/
theorem Scanned.add {entries : List Entry} {scan : Scan} (h : Scanned engine entries scan)
    (entry : Entry) : Scanned engine (entries ++ [entry]) (scan.add engine entry) := by
  have hexact : ∀ name, (TextMap.set scan.byExact entry.name entry.id).get name =
      exactId (entries ++ [entry]) name := fun name => by
    rw [TextMap.get_set, exactId_append, h.byExact]
  have hprior := h.seen (engine.toLowerCase entry.name)
  rw [Scan.add]
  split
  · rename_i prior hseen
    rw [hprior] at hseen
    have hkept : ∀ lower, firstId engine (entries ++ [entry]) lower =
        firstId engine entries lower := fun lower => by
      rw [firstId_append]
      by_cases hlower : engine.toLowerCase entry.name = lower
      · rw [← hlower, hseen, Option.some_or]
      · rw [if_neg hlower, Option.or_none]
    split
    · rename_i hother
      refine ⟨hexact, fun lower => (h.seen lower).trans (hkept lower).symm, fun lower => ?_⟩
      rw [ambiguous_append, ← h.ambiguous, List.mem_cons]
      grind
    · rename_i hsame
      refine ⟨hexact, fun lower => ?_, fun lower => ?_⟩
      · rw [hkept, TextMap.get_set, h.seen]
        grind
      · rw [ambiguous_append, ← h.ambiguous]
        grind
  · rename_i hseen
    rw [hprior] at hseen
    refine ⟨hexact, fun lower => ?_, fun lower => ?_⟩
    · rw [TextMap.get_set, firstId_append, h.seen]
      grind
    · rw [ambiguous_append, ← h.ambiguous]
      grind

theorem Scanned.foldl {entries : List Entry} {scan : Scan} (h : Scanned engine entries scan)
    (rest : List Entry) :
    Scanned engine (entries ++ rest) (rest.foldl (Scan.add engine) scan) := by
  induction rest generalizing entries scan with
  | nil => rwa [List.append_nil]
  | cons entry rest ih =>
    rw [List.append_cons]
    exact ih (h.add entry)

theorem scanned (entries : List Entry) :
    Scanned engine entries (entries.foldl (Scan.add engine) ⟨[], [], []⟩) := by
  have hstart : Scanned engine [] ⟨[], [], []⟩ :=
    ⟨fun _ => rfl, fun _ => rfl, fun lower => by simp [Ambiguous]⟩
  exact hstart.foldl entries

/-- A folded name that is not ambiguous is that of one entry. -/
theorem sole_iff {entries : List Entry} {lower : Text} {id : Id} :
    ¬Ambiguous engine entries lower ∧ firstId engine entries lower = some id ↔
      (∃ entry ∈ entries, engine.toLowerCase entry.name = lower ∧ entry.id = id) ∧
        ∀ entry ∈ entries, engine.toLowerCase entry.name = lower → entry.id = id := by
  constructor
  · rintro ⟨hsole, hfirst⟩
    refine ⟨firstId_eq_some hfirst, fun entry hentry hlower => ?_⟩
    by_contra hother
    exact hsole ⟨entry, hentry, hlower, fun h => hother (Option.some.inj (h.symm.trans hfirst))⟩
  · rintro ⟨⟨entry, hentry, hlower, -⟩, hall⟩
    have hfirst : firstId engine entries lower = some id := by
      cases hfirst : firstId engine entries lower with
      | none => exact absurd hlower ((firstId_eq_none).mp hfirst entry hentry)
      | some first =>
        obtain ⟨entry', hentry', hlower', rfl⟩ := firstId_eq_some hfirst
        rw [hall entry' hentry' hlower']
    refine ⟨?_, hfirst⟩
    rintro ⟨other, hother, hfold, hne⟩
    rw [hfirst, hall other hother hfold] at hne
    exact hne rfl

/-- **A lookup resolves a name to what it stands for.** -/
theorem resolve_ofEntries (entries : List Entry) (name : Text) (id : Id) :
    (NameLookup.ofEntries engine entries).resolve engine name = some id ↔
      Named engine entries name id := by
  have h := (scanned entries : Scanned engine entries _)
  rw [NameLookup.resolve, NameLookup.ofEntries, Option.or_eq_some_iff, h.byExact, Named]
  refine or_congr_right (and_congr_right fun _ => ?_)
  rw [TextMap.get_filter _ fun lower => decide (lower ∉ _), h.seen,
    Option.ite_none_right_eq_some, decide_eq_true_eq, h.ambiguous]
  exact sole_iff

end ImportRows
end TaskFlow
