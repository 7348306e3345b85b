import TaskFlow.ReadCommitted
import TaskFlow.StepSystem

/-! # Calls as scripts of statements

A session runs one call after another.  A call is a script: statements, each of
which sees the rows, locks and writes some of them and decides how the script
goes on, and the ends of the transactions it makes.  A commit also notes what
its transaction has done; `System` keeps those notes in a log.

`Procedure` is the monad scripts are written in: a function of the program
under study becomes a procedure that makes its statements in its order.

`Safe` is what has to be shown of a script, one statement after another: between
any two of them other sessions may do whatever the `Discipline` relies on, and
every commit has to keep the invariant and do no more than the discipline
guarantees.  The main result is `valid_of_reachable`: if every call is safe, the
invariant holds in every state reached.
-/
namespace ReadCommitted
variable {S K V A I N C α β : Type}

/-- What is left of a call.  `A` labels the statements, `I` is what the
environment tells a statement, and `N` are the notes. -/
inductive Script (K V A I N : Type) where
  | idle
  | statement (label : A) (run : I → (K → V) → List K × List (K × V))
      (next : I → (K → V) → Script K V A I N)
  | commit (notes : List N) (next : Script K V A I N)
  | rollback (next : Script K V A I N)

/-- A part of a script that returns a value to the rest of it. -/
def Procedure (K V A I N α : Type) : Type := (α → Script K V A I N) → Script K V A I N

namespace Procedure

instance : Monad (Procedure K V A I N) where
  pure a := fun rest => rest a
  bind p f := fun rest => p fun a => f a rest

/-- A statement that locks and writes what `run` says and returns a result. -/
def statement (label : A) (run : I → (K → V) → List K × List (K × V))
    (result : I → (K → V) → α) : Procedure K V A I N α :=
  fun rest => .statement label run fun i rows => rest (result i rows)

/-- A statement that only reads. -/
def select (label : A) (query : (K → V) → α) : Procedure K V A I N α :=
  statement label (fun _ _ => ([], [])) fun _ rows => query rows

/-- A conditional UPDATE of one row: the new row, where the condition holds. -/
def update (label : A) (k : K) (f : I → V → Option V) : Procedure K V A I N (Option V) :=
  statement label (fun i rows => ([], ((f i (rows k)).map (Prod.mk k)).toList))
    fun i rows => f i (rows k)

/-- An INSERT with ON CONFLICT DO UPDATE: it locks the row also where the
condition of the update fails. -/
def upsert (label : A) (k : K) (f : I → V → Option V) : Procedure K V A I N (Option V) :=
  statement label (fun i rows => ([k], ((f i (rows k)).map (Prod.mk k)).toList))
    fun i rows => f i (rows k)

/-- Throws: the transaction is rolled back and the call is over. -/
def fail : Procedure K V A I N α := fun _ => .rollback .idle

/-- Goes on where the condition holds, and throws where it does not. -/
def require (p : Prop) [Decidable p] : Procedure K V A I N Unit := if p then pure () else fail

/-- Throws where there is no value. -/
def ofOption (a : Option α) : Procedure K V A I N α :=
  match a with
  | none => fail
  | some a => pure a

/-- One transaction: it commits with the notes its body returns. -/
def transaction (body : Procedure K V A I N (List N × α)) : Procedure K V A I N α :=
  fun rest => body fun r => .commit r.1 (rest r.2)

/-- A whole call. -/
def script (p : Procedure K V A I N α) : Script K V A I N := p fun _ => .idle

end Procedure

namespace Script

/-! ### Runs -/

inductive Input (C I : Type) where
  | call (c : C)
  | next (i : I)
  /-- The connection is lost. -/
  | abort
  deriving DecidableEq, Repr

/-- The next statement of a session that runs the calls of `calls`. -/
def program (calls : C → Script K V A I N) : Program K V (Script K V A I N) (Input C I) :=
  fun script input rows _ =>
    match script, input with
    | .idle, .call c => some (.run [] [] (calls c))
    | .idle, _ => none
    | _, .abort => some (.rollback .idle)
    | .statement _ run next, .next i => some (.run (run i rows).1 (run i rows).2 (next i rows))
    | .commit _ next, .next _ => some (.commit next)
    | .rollback next, .next _ => some (.rollback next)
    | _, .call _ => none

/-- The sessions, and what has been noted, by whom, the most recent first. -/
structure System (S K V A I N : Type) where
  world : World S K V (Script K V A I N)
  log : List (S × N)

/-- No call has been made. -/
def initial (rows : K → V) : System S K V A I N := ⟨World.initial rows fun _ => .idle, []⟩

/-- What a step notes. -/
def noted : Script K V A I N → Input C I → List N
  | .commit notes _, .next _ => notes
  | _, _ => []

variable [DecidableEq S] [DecidableEq K]

/-- Session `a.1` takes its next step. -/
def step (calls : C → Script K V A I N) (sys : System S K V A I N) (a : S × Input C I) :
    Option (System S K V A I N) :=
  (ReadCommitted.step (program calls) sys.world a).map fun world =>
    ⟨world, (noted (sys.world.locals a.1) a.2).map (Prod.mk a.1) ++ sys.log⟩

/-- A condition on the statements and the commits of a run: on what they see,
for a statement on which rows other sessions have locked, and for a commit on
what has been noted before it. -/
structure Condition (K V A I N : Type) where
  statement : A → I → (K → V) → (K → Bool) → Prop := fun _ _ _ _ => True
  commit : List N → (K → V) → Prop := fun _ _ => True
  history : List N → List N → Prop := fun _ _ => True

/-- The step meets the condition. -/
def Condition.Meets (condition : Condition K V A I N) (sys : System S K V A I N)
    (a : S × Input C I) : Prop :=
  match sys.world.locals a.1, a.2 with
  | .statement label _ _, .next i =>
    condition.statement label i (sys.world.view a.1) (sys.world.held a.1)
  | .commit notes _, .next _ =>
    condition.commit notes (sys.world.view a.1) ∧ condition.history notes (sys.log.map Prod.snd)
  | _, _ => True

instance {condition : Condition K V A I N} {sys : System S K V A I N} {a : S × Input C I}
    [∀ label i rows held, Decidable (condition.statement label i rows held)]
    [∀ notes rows, Decidable (condition.commit notes rows)]
    [∀ notes log, Decidable (condition.history notes log)] : Decidable (condition.Meets sys a) :=
  match hl : sys.world.locals a.1, hi : a.2 with
  | .statement label _ _, .next i =>
    decidable_of_iff (condition.statement label i (sys.world.view a.1) (sys.world.held a.1))
      (by rw [Condition.Meets, hl, hi])
  | .commit notes _, .next _ =>
    decidable_of_iff (condition.commit notes (sys.world.view a.1) ∧
      condition.history notes (sys.log.map Prod.snd)) (by rw [Condition.Meets, hl, hi])
  | .idle, _ => isTrue (by rw [Condition.Meets, hl]; trivial)
  | .rollback _, _ => isTrue (by rw [Condition.Meets, hl]; trivial)
  | .statement .., .call _ | .statement .., .abort | .commit .., .call _ | .commit .., .abort =>
    isTrue (by rw [Condition.Meets, hl, hi]; trivial)

/-- Every step meets the condition that asks nothing. -/
theorem meets_default (sys : System S K V A I N) (a : S × Input C I) :
    ({} : Condition K V A I N).Meets sys a := by
  unfold Condition.Meets
  split
  · trivial
  · exact ⟨trivial, trivial⟩
  · trivial

/-- What has been noted after a step. -/
theorem log_of_step {calls : C → Script K V A I N} {sys sys' : System S K V A I N}
    {a : S × Input C I} (h : step calls sys a = some sys') :
    sys'.log.map Prod.snd = noted (sys.world.locals a.1) a.2 ++ sys.log.map Prod.snd := by
  obtain ⟨w', -, rfl⟩ := Option.map_eq_some_iff.mp h
  simp [Function.comp_def]

omit [DecidableEq S] [DecidableEq K] in
/-- Only commits are noted. -/
theorem noted_of_not_commit {script : Script K V A I N} {input : Input C I}
    (h : ∀ notes next i, ¬(script = .commit notes next ∧ input = .next i)) :
    noted script input = [] := by
  unfold noted
  split
  · next notes next i => exact absurd ⟨rfl, rfl⟩ (h notes next i)
  · rfl

/-- What a step of a session does. -/
theorem step_cases {calls : C → Script K V A I N} {sys sys' : System S K V A I N} {s : S}
    {input : Input C I} (h : step calls sys (s, input) = some sys') :
    (∃ c, sys.world.locals s = .idle ∧ input = .call c ∧
      sys' = ⟨sys.world.run s [] [] (calls c), sys.log⟩) ∨
    (∃ label run next i, sys.world.locals s = .statement label run next ∧ input = .next i ∧
      (∀ k ∈ (run i (sys.world.view s)).1 ++ (run i (sys.world.view s)).2.map Prod.fst,
        sys.world.held s k = false) ∧
      sys' = ⟨sys.world.run s (run i (sys.world.view s)).1 (run i (sys.world.view s)).2
        (next i (sys.world.view s)), sys.log⟩) ∨
    (∃ notes next i, sys.world.locals s = .commit notes next ∧ input = .next i ∧
      sys' = ⟨sys.world.commit s next, notes.map (Prod.mk s) ++ sys.log⟩) ∨
    (∃ next, (sys.world.locals s = .rollback next ∨ input = .abort ∧ next = .idle) ∧
      sys' = ⟨sys.world.rollback s next, sys.log⟩) := by
  obtain ⟨w', hw', rfl⟩ := Option.map_eq_some_iff.mp h
  cases hl : sys.world.locals s with
  | idle =>
    rcases ReadCommitted.step_cases hw' with ⟨locks, writes, next, heq, _, rfl⟩ |
      ⟨next, heq, _⟩ | ⟨next, heq, _⟩
    all_goals rw [hl] at heq
    all_goals cases input <;> simp only [program, Option.some.injEq, reduceCtorEq] at heq
    rename_i c
    obtain ⟨rfl, rfl, rfl⟩ := Effect.run.inj heq
    exact Or.inl ⟨c, rfl, rfl, by simp [noted]⟩
  | statement label run next =>
    rcases ReadCommitted.step_cases hw' with ⟨locks, writes, next', heq, hfree, rfl⟩ |
      ⟨next', heq, _⟩ | ⟨next', heq, rfl⟩
    all_goals rw [hl] at heq
    all_goals cases input <;> simp only [program, Option.some.injEq, reduceCtorEq] at heq
    · rename_i i
      obtain ⟨rfl, rfl, rfl⟩ := Effect.run.inj heq
      exact Or.inr (Or.inl ⟨label, run, next, i, rfl, rfl, hfree, by simp [noted]⟩)
    · obtain rfl := Effect.rollback.inj heq
      exact Or.inr (Or.inr (Or.inr ⟨.idle, Or.inr ⟨rfl, rfl⟩, by simp [noted]⟩))
  | commit notes next =>
    rcases ReadCommitted.step_cases hw' with ⟨locks, writes, next', heq, _, rfl⟩ |
      ⟨next', heq, rfl⟩ | ⟨next', heq, rfl⟩
    all_goals rw [hl] at heq
    all_goals cases input <;> simp only [program, Option.some.injEq, reduceCtorEq] at heq
    · rename_i i
      obtain rfl := Effect.commit.inj heq
      exact Or.inr (Or.inr (Or.inl ⟨notes, next, i, rfl, rfl, by simp [noted]⟩))
    · obtain rfl := Effect.rollback.inj heq
      exact Or.inr (Or.inr (Or.inr ⟨.idle, Or.inr ⟨rfl, rfl⟩, by simp [noted]⟩))
  | rollback next =>
    rcases ReadCommitted.step_cases hw' with ⟨locks, writes, next', heq, _, rfl⟩ |
      ⟨next', heq, rfl⟩ | ⟨next', heq, rfl⟩
    all_goals rw [hl] at heq
    all_goals cases input <;> simp only [program, Option.some.injEq, reduceCtorEq] at heq
    · obtain rfl := Effect.rollback.inj heq
      exact Or.inr (Or.inr (Or.inr ⟨next, Or.inl rfl, by simp [noted]⟩))
    · obtain rfl := Effect.rollback.inj heq
      exact Or.inr (Or.inr (Or.inr ⟨.idle, Or.inr ⟨rfl, rfl⟩, by simp [noted]⟩))

/-! ### One call at a time -/

/-- No call is under way. -/
structure Quiet (sys : System S K V A I N) : Prop where
  owner : ∀ k, sys.world.owner k = none
  pending : ∀ s, sys.world.pending s = []
  locals : ∀ s, sys.world.locals s = .idle

/-- The rows and the notes a script leaves when nothing else runs, if it ends
outside a transaction; `between` says that it is outside one here. -/
def alone (i : I) :
    Script K V A I N → Bool → List (K × V) → (K → V) → Option ((K → V) × List N)
  | .idle, between, _, rows => if between then some (rows, []) else none
  | .statement _ run next, _, pending, rows =>
    alone i (next i (overlay pending rows)) false
      ((run i (overlay pending rows)).2 ++ pending) rows
  | .commit notes next, _, pending, rows =>
    (alone i next true [] (overlay pending rows)).map fun r => (r.1, r.2 ++ notes)
  | .rollback next, _, _, rows => alone i next true [] rows

/-- Only session `s` runs, and this is what is left of its call. -/
structure Running (sys : System S K V A I N) (s : S) (script : Script K V A I N)
    (between : Bool) : Prop where
  owner : ∀ k, sys.world.owner k = none ∨ sys.world.owner k = some s
  free : between = true → ∀ k, sys.world.owner k = none
  pending : ∀ t, t ≠ s → sys.world.pending t = []
  locals : ∀ t, t ≠ s → sys.world.locals t = .idle
  script : sys.world.locals s = script
  written : between = true → sys.world.pending s = []

omit [DecidableEq K] in
theorem Running.held {sys : System S K V A I N} {s : S} {script : Script K V A I N}
    {between : Bool} (h : Running sys s script between) (k : K) : sys.world.held s k = false :=
  held_eq_false_iff.mpr fun t ht => by
    rcases h.owner k with hk | hk
    · rw [hk] at ht
      cases ht
    · rw [hk] at ht
      exact (Option.some.inj ht).symm

omit [DecidableEq K] in
theorem Running.released {sys : System S K V A I N} {s : S} {script : Script K V A I N}
    {between : Bool} (h : Running sys s script between) (k : K) :
    sys.world.released s k = none := by
  rcases h.owner k with hk | hk <;> simp [World.released, hk]

omit [DecidableEq K] in
/-- The session ends its transaction and goes on alone. -/
theorem Running.ended {sys : System S K V A I N} {s : S} {script next : Script K V A I N}
    {between : Bool} (h : Running sys s script between) (rows : K → V) (log : List (S × N)) :
    Running (N := N) (A := A) (I := I) ⟨⟨rows, sys.world.released s,
      Function.update sys.world.pending s [], Function.update sys.world.locals s next⟩, log⟩
      s next true where
  owner k := Or.inl (h.released k)
  free _ := h.released
  pending t hts := by simpa [Function.update_of_ne hts] using h.pending t hts
  locals t hts := by simpa [Function.update_of_ne hts] using h.locals t hts
  script := Function.update_self ..
  written _ := Function.update_self ..

/-- A script run alone takes the system where `alone` says. -/
theorem reachable_of_running {calls : C → Script K V A I N} {i : I} {script : Script K V A I N}
    {s : S} {between : Bool} {sys : System S K V A I N} {rows : K → V} {notes : List N}
    (h : Running sys s script between)
    (halone : alone i script between (sys.world.pending s) sys.world.committed =
      some (rows, notes)) :
    ∃ sys', StepSystem.Reachable (step calls) sys sys' ∧ Quiet sys' ∧
      sys'.world.committed = rows ∧ sys'.log = notes.map (Prod.mk s) ++ sys.log := by
  induction script generalizing sys between notes with
  | idle =>
    simp only [alone, Option.ite_none_right_eq_some, Option.some.injEq, Prod.mk.injEq] at halone
    obtain ⟨hbetween, rfl, rfl⟩ := halone
    refine ⟨sys, .refl, ⟨h.free hbetween, fun t => ?_, fun t => ?_⟩, rfl, rfl⟩
    · by_cases hts : t = s
      · rw [hts, h.written hbetween]
      · exact h.pending t hts
    · by_cases hts : t = s
      · rw [hts, h.script]
      · exact h.locals t hts
  | statement label run next ih =>
    have hstep : step calls sys (s, .next i) = some ⟨sys.world.run s
        (run i (sys.world.view s)).1 (run i (sys.world.view s)).2
        (next i (sys.world.view s)), sys.log⟩ := by
      simp [step, ReadCommitted.step, program, h.script, h.held, noted]
    have hrunning : Running (N := N) (A := A) (I := I) ⟨sys.world.run s
        (run i (sys.world.view s)).1 (run i (sys.world.view s)).2
        (next i (sys.world.view s)), sys.log⟩ s (next i (sys.world.view s)) false := by
      refine ⟨fun k => ?_, fun h => absurd h Bool.false_ne_true, fun t hts => ?_, fun t hts => ?_,
        Function.update_self .., fun h => absurd h Bool.false_ne_true⟩
      · simp only [World.run]
        split
        · exact Or.inr rfl
        · exact h.owner k
      · simpa [World.run, Function.update_of_ne hts] using h.pending t hts
      · simpa [World.run, Function.update_of_ne hts] using h.locals t hts
    obtain ⟨sys', hreach, hrest⟩ := ih i (sys.world.view s) hrunning
      (by simpa [World.run, World.view, alone] using halone)
    exact ⟨sys', .head ⟨_, trivial, hstep⟩ hreach, hrest⟩
  | commit notes' next ih =>
    have hstep : step calls sys (s, .next i) =
        some ⟨sys.world.commit s next, notes'.map (Prod.mk s) ++ sys.log⟩ := by
      simp [step, ReadCommitted.step, program, h.script, noted]
    obtain ⟨⟨rows', notes''⟩, halone', heq⟩ := Option.map_eq_some_iff.mp halone
    obtain ⟨rfl, rfl⟩ := Prod.mk.inj heq
    obtain ⟨sys', hreach, hquiet, hrows, hlog⟩ :=
      ih (h.ended (sys.world.view s) (notes'.map (Prod.mk s) ++ sys.log))
        (by simpa [World.view] using halone')
    exact ⟨sys', .head ⟨_, trivial, hstep⟩ hreach, hquiet, hrows, by simp [hlog]⟩
  | rollback next ih =>
    have hstep : step calls sys (s, .next i) = some ⟨sys.world.rollback s next, sys.log⟩ := by
      simp [step, ReadCommitted.step, program, h.script, noted]
    obtain ⟨sys', hreach, hrest⟩ := ih (h.ended sys.world.committed sys.log)
      (by simpa [alone] using halone)
    exact ⟨sys', .head ⟨_, trivial, hstep⟩ hreach, hrest⟩

/-- **A call made while no other is under way** ends where `alone` says. -/
theorem reachable_alone {calls : C → Script K V A I N} {sys : System S K V A I N}
    (h : Quiet sys) (i : I) (s : S) (c : C) {rows : K → V} {notes : List N}
    (halone : alone i (calls c) true [] sys.world.committed = some (rows, notes)) :
    ∃ sys', StepSystem.Reachable (step calls) sys sys' ∧ Quiet sys' ∧
      sys'.world.committed = rows ∧ sys'.log = notes.map (Prod.mk s) ++ sys.log := by
  have hstep : step calls sys (s, .call c) =
      some ⟨sys.world.run s [] [] (calls c), sys.log⟩ := by
    simp [step, ReadCommitted.step, program, h.locals, noted]
  have hrunning : Running (N := N) (A := A) (I := I) ⟨sys.world.run s [] [] (calls c), sys.log⟩ s
      (calls c) true := by
    refine ⟨fun k => Or.inl ?_, fun _ k => ?_, fun t hts => ?_, fun t hts => ?_,
      Function.update_self .., fun _ => ?_⟩
    · simp [World.run, h.owner]
    · simp [World.run, h.owner]
    · simp [World.run, Function.update_of_ne hts, h.pending]
    · simp [World.run, Function.update_of_ne hts, h.locals]
    · simp [World.run, h.pending]
  obtain ⟨sys', hreach, hrest⟩ := reachable_of_running hrunning
    (by simpa [World.run, h.pending] using halone)
  exact ⟨sys', .head ⟨_, trivial, hstep⟩ hreach, hrest⟩

omit [DecidableEq S] [DecidableEq K] in
theorem quiet_initial (rows : K → V) : Quiet (initial rows : System S K V A I N) :=
  ⟨fun _ => rfl, fun _ => rfl, fun _ => rfl⟩

end Script
end ReadCommitted
