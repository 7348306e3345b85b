import Mathlib.Data.List.Basic

/-! # Patches of a store

A store is looked at entry by entry, through `view`.  A `Patch` changes it, and reads and writes
none but its own entries.  Patches that leave a region of the store alone do the same outside it
whatever is in it, so that one that stays inside the region can be taken out of a list of them
(`view_without`).
-/

/-- A change of a store that reads and writes only these entries. -/
structure LocalPatch {Store Key Value : Type} (view : Store → Key → Value) where
  run : Store → Store
  entries : Key → Prop
  frame : ∀ store key, ¬entries key → view (run store) key = view store key
  reads : ∀ store store', (∀ key, entries key → view store key = view store' key) →
    ∀ key, entries key → view (run store) key = view (run store') key

namespace LocalPatch
variable {Store Key Value : Type} {view : Store → Key → Value} {patch : LocalPatch view}
  {patches before after : List (LocalPatch view)} {region : Key → Prop} {store store' : Store}
  {key : Key}

/-- The patch has nothing to do with the region. -/
def Avoids (patch : LocalPatch view) (region : Key → Prop) : Prop :=
  ∀ key, patch.entries key → ¬region key

/-- The patches in their order. -/
def runAll (patches : List (LocalPatch view)) (store : Store) : Store :=
  patches.foldl (fun store patch => patch.run store) store

@[simp] theorem runAll_nil (store : Store) :
    runAll ([] : List (LocalPatch view)) store = store := rfl

@[simp] theorem runAll_cons (patch : LocalPatch view) (patches : List (LocalPatch view))
    (store : Store) : runAll (patch :: patches) store = runAll patches (patch.run store) := rfl

theorem runAll_append (patches patches' : List (LocalPatch view)) (store : Store) :
    runAll (patches ++ patches') store = runAll patches' (runAll patches store) :=
  List.foldl_append

/-- Stores that agree outside a region go on to. -/
theorem Avoids.agree (h : patch.Avoids region)
    (hagree : ∀ key, ¬region key → view store key = view store' key) (hkey : ¬region key) :
    view (patch.run store) key = view (patch.run store') key := by
  by_cases hentry : patch.entries key
  · exact patch.reads store store' (fun key' hentry' => hagree key' (h key' hentry')) key hentry
  · rw [patch.frame store key hentry, patch.frame store' key hentry, hagree key hkey]

theorem runAll_agree (h : ∀ patch ∈ patches, patch.Avoids region)
    (hagree : ∀ key, ¬region key → view store key = view store' key) (hkey : ¬region key) :
    view (runAll patches store) key = view (runAll patches store') key := by
  induction patches generalizing store store' with
  | nil => exact hagree key hkey
  | cons patch patches ih =>
    exact ih (fun patch' hpatch' => h patch' (List.mem_cons_of_mem _ hpatch'))
      fun _ hkey' => (h patch List.mem_cons_self).agree hagree hkey'

/-- Patches do the same to stores that look the same. -/
theorem run_congr (patch : LocalPatch view) (h : ∀ key, view store key = view store' key)
    (key : Key) : view (patch.run store) key = view (patch.run store') key := by
  have havoids : patch.Avoids fun _ => False := fun _ _ => not_false
  exact havoids.agree (fun key _ => h key) not_false

/-- What is in a region that the patches leave alone stays. -/
theorem view_runAll (h : ∀ patch ∈ patches, patch.Avoids region) (hkey : region key) :
    view (runAll patches store) key = view store key := by
  induction patches generalizing store with
  | nil => rfl
  | cons patch patches ih =>
    rw [runAll_cons, ih fun patch' hpatch' => h patch' (List.mem_cons_of_mem _ hpatch')]
    exact patch.frame store key fun hentry => h patch List.mem_cons_self key hentry hkey

/-- **A patch inside a region taken out** before patches that leave the region alone: nothing
changes but what it has written. -/
theorem view_without (hpatch : ∀ key, patch.entries key → region key)
    (hafter : ∀ patch ∈ after, patch.Avoids region) (hkey : ¬patch.entries key) :
    view (runAll (before ++ after) store) key =
      view (runAll (before ++ patch :: after) store) key := by
  rw [runAll_append, runAll_append, runAll_cons]
  have hagree : ∀ key, ¬region key →
      view (runAll before store) key = view (patch.run (runAll before store)) key :=
    fun key' hkey' => (patch.frame _ key' fun hentry => hkey' (hpatch key' hentry)).symm
  by_cases hregion : region key
  · rw [view_runAll hafter hregion, view_runAll hafter hregion, patch.frame _ key hkey]
  · exact runAll_agree hafter hagree hregion

end LocalPatch
