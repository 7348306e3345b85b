import Mathlib.Logic.Function.Basic
import Mathlib.Data.List.Basic

/-! # Transactions under READ COMMITTED

Sessions run transactions against one table of rows.  A statement sees the
committed rows overlaid with its own transaction's writes, so two statements of
one transaction can see different commits of others.  Writing or locking a row
takes its lock, which is held to the end of the transaction, and a statement
that needs a row another session has locked cannot run until it is released.

A statement that first selects rows and then writes or locks them is two steps
of a program: the rows are selected in one view, and each is locked and looked
at again in a later one.  A statement can also ask which rows others have
locked and pass over them.

The main result is `SessionInvariant.step`: what a session knows about the rows
it has locked stays true whatever the other sessions do.
-/
namespace ReadCommitted
variable {S K V L I : Type} [DecidableEq S] [DecidableEq K]

/-- What one statement does: lock and write rows and go on, or end the
transaction. -/
inductive Effect (K V L : Type) where
  | run (locks : List K) (writes : List (K × V)) (next : L)
  | commit (next : L)
  | rollback (next : L)

/-- The next statement of a session: from its local state, an input and what it
sees (the rows, and which rows others have locked). -/
abbrev Program (K V L I : Type) := L → I → (K → V) → (K → Bool) → Option (Effect K V L)

/-- Rows with writes applied to them, the most recent write first. -/
def overlay (writes : List (K × V)) (rows : K → V) : K → V :=
  writes.foldr (fun write rows => Function.update rows write.1 write.2) rows

/-- The committed rows, who has locked a row, and each session's uncommitted
writes and local state. -/
structure World (S K V L : Type) where
  committed : K → V
  owner : K → Option S
  pending : S → List (K × V)
  locals : S → L

namespace World

/-- No transaction has begun. -/
def initial (rows : K → V) (locals : S → L) : World S K V L :=
  ⟨rows, fun _ => none, fun _ => [], locals⟩

/-- What a statement of `s` sees. -/
def view (w : World S K V L) (s : S) : K → V := overlay (w.pending s) w.committed

/-- Whether a session other than `s` has locked row `k`. -/
def held (w : World S K V L) (s : S) (k : K) : Bool := (w.owner k).any (· ≠ s)

/-- `s` has locked row `k`. -/
def Owns (w : World S K V L) (s : S) (k : K) : Prop := w.owner k = some s

/-- The locks of `s` released. -/
def released (w : World S K V L) (s : S) : K → Option S :=
  fun k => if w.owner k = some s then none else w.owner k

/-- `s` locks and writes rows. -/
def run (w : World S K V L) (s : S) (locks : List K) (writes : List (K × V)) (next : L) :
    World S K V L :=
  { w with
    owner := fun k => if k ∈ locks ++ writes.map Prod.fst then some s else w.owner k
    pending := Function.update w.pending s (writes ++ w.pending s)
    locals := Function.update w.locals s next }

/-- `s` commits. -/
def commit (w : World S K V L) (s : S) (next : L) : World S K V L :=
  { committed := w.view s
    owner := w.released s
    pending := Function.update w.pending s []
    locals := Function.update w.locals s next }

/-- `s` rolls back. -/
def rollback (w : World S K V L) (s : S) (next : L) : World S K V L :=
  { w with
    owner := w.released s
    pending := Function.update w.pending s []
    locals := Function.update w.locals s next }

end World

/-- Session `s` takes its next statement, on input `i`. -/
def step (program : Program K V L I) (w : World S K V L) (a : S × I) :
    Option (World S K V L) :=
  match program (w.locals a.1) a.2 (w.view a.1) (w.held a.1) with
  | none => none
  | some (.run locks writes next) =>
    if (locks ++ writes.map Prod.fst).any (w.held a.1) then none
    else some (w.run a.1 locks writes next)
  | some (.commit next) => some (w.commit a.1 next)
  | some (.rollback next) => some (w.rollback a.1 next)

variable {program : Program K V L I} {w w' : World S K V L} {s t : S} {i : I}

/-- What a step does. -/
theorem step_cases (h : step program w (s, i) = some w') :
    (∃ locks writes next,
      program (w.locals s) i (w.view s) (w.held s) = some (.run locks writes next) ∧
      (∀ k ∈ locks ++ writes.map Prod.fst, w.held s k = false) ∧
      w' = w.run s locks writes next) ∨
    (∃ next, program (w.locals s) i (w.view s) (w.held s) = some (.commit next) ∧
      w' = w.commit s next) ∨
    (∃ next, program (w.locals s) i (w.view s) (w.held s) = some (.rollback next) ∧
      w' = w.rollback s next) := by
  simp only [step] at h
  split at h
  · cases h
  · rename_i locks writes next heq
    by_cases hheld : (locks ++ writes.map Prod.fst).any (w.held s)
    · simp [hheld] at h
    · rw [if_neg hheld] at h
      refine Or.inl ⟨locks, writes, next, heq, fun k hk => ?_, (Option.some.inj h).symm⟩
      by_contra hk'
      exact hheld (List.any_eq_true.mpr ⟨k, hk, by simpa using hk'⟩)
  · rename_i next heq
    exact Or.inr (Or.inl ⟨next, heq, (Option.some.inj h).symm⟩)
  · rename_i next heq
    exact Or.inr (Or.inr ⟨next, heq, (Option.some.inj h).symm⟩)

/-! ### Writes and locks -/

@[simp] theorem overlay_nil (rows : K → V) : overlay [] rows = rows := rfl

@[simp] theorem overlay_cons (k : K) (v : V) (writes : List (K × V)) (rows : K → V) :
    overlay ((k, v) :: writes) rows = Function.update (overlay writes rows) k v := rfl

theorem overlay_append (ws ws' : List (K × V)) (rows : K → V) :
    overlay (ws ++ ws') rows = overlay ws (overlay ws' rows) := List.foldr_append

theorem overlay_of_notMem {writes : List (K × V)} {k : K} (h : k ∉ writes.map Prod.fst)
    (rows : K → V) : overlay writes rows k = rows k := by
  induction writes with
  | nil => rfl
  | cons write writes ih =>
    obtain ⟨k', v⟩ := write
    simp only [List.map_cons, List.mem_cons, not_or] at h
    rw [overlay_cons, Function.update_of_ne h.1, ih h.2]

theorem overlay_mem {writes : List (K × V)} {k : K} (h : k ∈ writes.map Prod.fst) (rows : K → V) :
    (k, overlay writes rows k) ∈ writes := by
  induction writes with
  | nil => exact absurd h List.not_mem_nil
  | cons write writes ih =>
    obtain ⟨k', v⟩ := write
    by_cases hk : k = k'
    · subst hk
      rw [overlay_cons, Function.update_self]
      exact List.mem_cons_self
    · rw [overlay_cons, Function.update_of_ne hk]
      exact List.mem_cons_of_mem _ (ih ((List.mem_cons.mp h).resolve_left hk))

theorem overlay_congr {writes : List (K × V)} {k : K} {rows rows' : K → V}
    (h : rows k = rows' k) : overlay writes rows k = overlay writes rows' k := by
  induction writes with
  | nil => exact h
  | cons write writes ih =>
    obtain ⟨k', v⟩ := write
    by_cases hk : k = k'
    · simp [hk]
    · simp [Function.update_of_ne hk, ih]

omit [DecidableEq K] in
theorem held_eq_false_iff {k : K} :
    w.held s k = false ↔ ∀ t, w.owner k = some t → t = s := by
  cases h : w.owner k with
  | none => simp [World.held, h]
  | some t => simp [World.held, h]

omit [DecidableEq S] in
@[simp] theorem view_initial (rows : K → V) (locals : S → L) :
    (World.initial rows locals).view s = rows := rfl

/-- Uncommitted writes are to rows the writer has locked. -/
def Locked (w : World S K V L) : Prop :=
  ∀ s, ∀ k ∈ (w.pending s).map Prod.fst, w.Owns s k

omit [DecidableEq S] [DecidableEq K] in
theorem locked_initial (rows : K → V) (locals : S → L) :
    Locked (World.initial rows locals) := fun _ _ h => absurd h List.not_mem_nil

theorem owns_run {locks : List K} {writes : List (K × V)} {next : L} {k : K} :
    (w.run s locks writes next).Owns s k ↔ w.Owns s k ∨ k ∈ locks ++ writes.map Prod.fst := by
  by_cases hk : k ∈ locks ++ writes.map Prod.fst <;> simp [World.run, World.Owns, hk]

theorem owns_run_other {locks : List K} {writes : List (K × V)} {next : L} {k : K} (hne : t ≠ s)
    (hfree : ∀ k ∈ locks ++ writes.map Prod.fst, w.held s k = false) :
    (w.run s locks writes next).Owns t k ↔ w.Owns t k := by
  by_cases hk : k ∈ locks ++ writes.map Prod.fst
  · have hown : ¬w.Owns t k := fun h => hne ((held_eq_false_iff).mp (hfree k hk) t h)
    simp only [World.Owns] at hown
    simp [World.run, World.Owns, hk, hown, hne.symm]
  · simp [World.run, World.Owns, hk]

omit [DecidableEq K] in
theorem released_self {k : K} : w.released s k ≠ some s := by
  by_cases hk : w.owner k = some s <;> simp [World.released, hk]

omit [DecidableEq K] in
theorem released_other {k : K} (hne : t ≠ s) : w.released s k = some t ↔ w.Owns t k := by
  by_cases hk : w.owner k = some s
  · simp [World.released, World.Owns, hk, hne.symm]
  · simp [World.released, World.Owns, hk]

theorem locked_step (hw : Locked w) (h : step program w (s, i) = some w') : Locked w' := by
  rcases step_cases h with ⟨locks, writes, next, _, hfree, rfl⟩ | ⟨next, _, rfl⟩ | ⟨next, _, rfl⟩
  -- a session locks what it writes
  · intro t k hk
    by_cases hts : t = s
    · subst hts
      simp only [World.run, Function.update_self, List.map_append, List.mem_append] at hk
      apply (owns_run).mpr
      rcases hk with hk | hk
      · exact Or.inr (List.mem_append_right _ hk)
      · exact Or.inl (hw t k hk)
    · simp only [World.run, Function.update_of_ne hts] at hk
      exact (owns_run_other hts hfree).mpr (hw t k hk)
  -- the end of a transaction releases its own locks and no other
  all_goals
    intro t k hk
    by_cases hts : t = s
    · subst hts
      simp [World.commit, World.rollback] at hk
    · simp only [World.commit, World.rollback, Function.update_of_ne hts] at hk
      exact (released_other hts).mpr (hw t k hk)

omit [DecidableEq S] in
/-- A commit changes only rows the committing session has locked. -/
theorem view_of_not_owns (hw : Locked w) {k : K} (hk : ¬w.Owns s k) :
    w.view s k = w.committed k :=
  overlay_of_notMem (fun h => hk (hw s k h)) _

/-! ### What a session knows -/

/-- `J` is kept by the statements of a session, and depends on the committed
rows only where the session has locked them.  Its arguments are the session's
local state, its uncommitted writes, the rows it has locked and the committed
rows. -/
structure SessionInvariant (program : Program K V L I)
    (J : L → List (K × V) → (K → Prop) → (K → V) → Prop) : Prop where
  frame : ∀ {l p own c c'}, (∀ k, own k → c k = c' k) → J l p own c → J l p own c'
  run : ∀ {l i p own c held locks writes next}, J l p own c →
    program l i (overlay p c) held = some (.run locks writes next) →
    J next (writes ++ p) (fun k => own k ∨ k ∈ locks ++ writes.map Prod.fst) c
  commit : ∀ {l i p own c held next}, J l p own c →
    program l i (overlay p c) held = some (.commit next) →
    J next [] (fun _ => False) (overlay p c)
  rollback : ∀ {l i p own c held next}, J l p own c →
    program l i (overlay p c) held = some (.rollback next) → J next [] (fun _ => False) c

/-- **What a session knows about the rows it has locked stays true** through
every step of every session. -/
theorem SessionInvariant.step {J : L → List (K × V) → (K → Prop) → (K → V) → Prop}
    (hJ : SessionInvariant program J) (hw : Locked w)
    (hall : ∀ t, J (w.locals t) (w.pending t) (w.Owns t) w.committed)
    (h : step program w (s, i) = some w') (t : S) :
    J (w'.locals t) (w'.pending t) (w'.Owns t) w'.committed := by
  rcases step_cases h with ⟨locks, writes, next, heq, hfree, rfl⟩ | ⟨next, heq, rfl⟩ |
    ⟨next, heq, rfl⟩
  · by_cases hts : t = s
    · subst hts
      have howns : (w.run t locks writes next).Owns t =
          fun k => w.Owns t k ∨ k ∈ locks ++ writes.map Prod.fst := by
        funext k
        exact propext owns_run
      rw [howns]
      simpa [World.run] using hJ.run (hall t) heq
    · have howns : (w.run s locks writes next).Owns t = w.Owns t := by
        funext k
        exact propext (owns_run_other hts hfree)
      rw [howns]
      simpa [World.run, Function.update_of_ne hts] using hall t
  · by_cases hts : t = s
    · subst hts
      have howns : (w.commit t next).Owns t = fun _ => False := by
        funext k
        exact eq_false released_self
      rw [howns]
      simpa [World.commit, World.view] using hJ.commit (hall t) heq
    · have howns : (w.commit s next).Owns t = w.Owns t := by
        funext k
        exact propext (released_other hts)
      rw [howns]
      refine hJ.frame (fun k hk => ?_)
        (by simpa [World.commit, Function.update_of_ne hts] using hall t)
      refine (view_of_not_owns hw fun hs => hts ?_).symm
      exact Option.some.inj (hk.symm.trans hs)
  · by_cases hts : t = s
    · subst hts
      have howns : (w.rollback t next).Owns t = fun _ => False := by
        funext k
        exact eq_false released_self
      rw [howns]
      simpa [World.rollback] using hJ.rollback (hall t) heq
    · have howns : (w.rollback s next).Owns t = w.Owns t := by
        funext k
        exact propext (released_other hts)
      rw [howns]
      simpa [World.rollback, Function.update_of_ne hts] using hall t

end ReadCommitted
