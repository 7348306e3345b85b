import Mathlib.Data.List.Dedup
import Mathlib.Data.List.Nodup

/-! # Inserting under a unique key

A row goes into a table unless a row with its key is there, in which case nothing
happens.  Inserting a list of rows leaves the first row of each key, so doing it
again changes nothing.  What is inserted may stand for something else, some
entries more than once: the table is then one row for each entry if and only if
the key tells the entries apart.
-/
namespace TaskFlow
namespace UniqueInsert

variable {α κ : Type} [DecidableEq κ] (key : α → κ)

/-- Inserts a row unless its key is taken. -/
def insertNew (table : List α) (row : α) : List α :=
  if key row ∈ table.map key then table else table ++ [row]

def insertAll (table rows : List α) : List α := rows.foldl (insertNew key) table

variable {key} {table rows : List α} {row row' : α}

@[simp] theorem insertAll_nil : insertAll key table [] = table := rfl

@[simp] theorem insertAll_cons :
    insertAll key table (row :: rows) = insertAll key (insertNew key table row) rows := rfl

theorem insertAll_append (rows rows' : List α) :
    insertAll key table (rows ++ rows') = insertAll key (insertAll key table rows) rows' :=
  List.foldl_append

theorem mem_insertNew (h : row' ∈ insertNew key table row) : row' ∈ table ∨ row' = row := by
  unfold insertNew at h
  split at h
  · exact .inl h
  · simpa using h

theorem subset_insertNew : table ⊆ insertNew key table row := by
  unfold insertNew
  split
  · exact List.Subset.refl _
  · exact List.subset_append_left _ _

theorem key_mem_insertNew (table : List α) : key row ∈ (insertNew key table row).map key := by
  unfold insertNew
  split
  · assumption
  · simp

theorem nodup_insertNew (h : (table.map key).Nodup) :
    ((insertNew key table row).map key).Nodup := by
  unfold insertNew
  split
  · exact h
  · rename_i hnew
    rw [List.map_append, List.map_singleton]
    exact h.append (List.nodup_singleton _) (List.disjoint_singleton.mpr hnew)

/-- Only rows that were inserted are there. -/
theorem mem_insertAll (h : row ∈ insertAll key table rows) : row ∈ table ∨ row ∈ rows := by
  induction rows generalizing table with
  | nil => exact .inl h
  | cons row' rows ih =>
    rcases ih h with h | h
    · rcases mem_insertNew h with h | rfl
      · exact .inl h
      · exact .inr List.mem_cons_self
    · exact .inr (List.mem_cons_of_mem _ h)

theorem subset_insertAll : table ⊆ insertAll key table rows := by
  induction rows generalizing table with
  | nil => exact List.Subset.refl _
  | cons row rows ih => exact List.Subset.trans subset_insertNew ih

/-- Every key that was inserted is there. -/
theorem key_mem_insertAll (h : row ∈ rows) : key row ∈ (insertAll key table rows).map key := by
  induction rows generalizing table with
  | nil => cases h
  | cons row' rows ih =>
    rw [insertAll_cons]
    rcases List.mem_cons.mp h with rfl | h
    · have hnew : key row ∈ (insertNew key table row).map key := key_mem_insertNew table
      obtain ⟨taken, htaken, hkey⟩ := List.mem_map.mp hnew
      exact List.mem_map.mpr ⟨taken, subset_insertAll htaken, hkey⟩
    · exact ih h

/-- No key is there twice. -/
theorem nodup_insertAll (h : (table.map key).Nodup) :
    ((insertAll key table rows).map key).Nodup := by
  induction rows generalizing table with
  | nil => exact h
  | cons row rows ih => exact ih (nodup_insertNew h)

theorem nodup_insertAll_nil : ((insertAll key [] rows).map key).Nodup :=
  nodup_insertAll (by simp)

/-- Rows whose keys are there already change nothing. -/
theorem insertAll_of_taken (h : ∀ row ∈ rows, key row ∈ table.map key) :
    insertAll key table rows = table := by
  induction rows with
  | nil => rfl
  | cons row rows ih =>
    obtain ⟨hrow, hrows⟩ := List.forall_mem_cons.mp h
    rw [insertAll_cons, insertNew, if_pos hrow, ih hrows]

theorem insertAll_idem : insertAll key (insertAll key table rows) rows = insertAll key table rows :=
  insertAll_of_taken fun _ => key_mem_insertAll

variable {β : Type} [DecidableEq β] {rowOf : β → α} {entries : List β}

theorem insertAll_perm_of_injective
    (h : ∀ p ∈ entries, ∀ q ∈ entries, key (rowOf p) = key (rowOf q) → p = q) :
    (insertAll key [] (entries.map rowOf)).Perm (entries.dedup.map rowOf) := by
  have hrows : (entries.dedup.map rowOf).Nodup :=
    (List.nodup_dedup entries).map_on fun p hp q hq heq =>
      h p (List.mem_dedup.mp hp) q (List.mem_dedup.mp hq) (congrArg key heq)
  have htable : (insertAll key [] (entries.map rowOf)).Nodup :=
    nodup_insertAll_nil.of_map
  refine (List.perm_ext_iff_of_nodup htable hrows).mpr fun row => ?_
  constructor
  · intro hrow
    obtain ⟨p, hp, rfl⟩ := List.mem_map.mp ((mem_insertAll hrow).resolve_left List.not_mem_nil)
    exact List.mem_map_of_mem (List.mem_dedup.mpr hp)
  · intro hrow
    obtain ⟨p, hp, rfl⟩ := List.mem_map.mp hrow
    have hp := List.mem_dedup.mp hp
    -- the row with p's key stands for some entry, which is p
    have hpRow : rowOf p ∈ entries.map rowOf := List.mem_map_of_mem hp
    have hkey : key (rowOf p) ∈ (insertAll key [] (entries.map rowOf)).map key :=
      key_mem_insertAll hpRow
    obtain ⟨row, hrow, hkey⟩ := List.mem_map.mp hkey
    obtain ⟨q, hq, rfl⟩ := List.mem_map.mp ((mem_insertAll hrow).resolve_left List.not_mem_nil)
    rwa [h p hp q hq hkey.symm]

theorem injective_of_insertAll_perm
    (h : (insertAll key [] (entries.map rowOf)).Perm (entries.dedup.map rowOf)) :
    ∀ p ∈ entries, ∀ q ∈ entries, key (rowOf p) = key (rowOf q) → p = q := by
  intro p hp q hq hkey
  have hkeys : ((entries.dedup.map rowOf).map key).Nodup :=
    (h.map key).nodup_iff.mp nodup_insertAll_nil
  rw [List.map_map] at hkeys
  exact List.inj_on_of_nodup_map hkeys (List.mem_dedup.mpr hp) (List.mem_dedup.mpr hq) hkey

/-- The table is one row for each entry if and only if the key tells the entries
apart. -/
theorem insertAll_perm_iff :
    (insertAll key [] (entries.map rowOf)).Perm (entries.dedup.map rowOf) ↔
      ∀ p ∈ entries, ∀ q ∈ entries, key (rowOf p) = key (rowOf q) → p = q :=
  ⟨injective_of_insertAll_perm, insertAll_perm_of_injective⟩

end UniqueInsert
end TaskFlow
