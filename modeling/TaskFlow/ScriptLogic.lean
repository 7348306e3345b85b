import TaskFlow.Script

/-! # What every run of safe calls keeps

A `Discipline` says what the sessions of a system keep to: an invariant of the
committed rows and the log, what a commit guarantees the other sessions, and
what a session in the middle of a transaction relies on, given the rows it has
locked.  `Safe` asks of a script that it keeps to the discipline from some point
of a transaction on; it holds the script against every state the other sessions
can bring about between two of its statements.

`Triple` is the rule of pre- and postconditions for procedures that goes with
it.  An assertion is about a transaction under way and the shared state, and has
to survive what the session relies on.
-/
namespace ReadCommitted
namespace Script
variable {S K V A I N C α β : Type}

/-- The committed rows, and what has been noted. -/
structure Shared (S K V N : Type) where
  rows : K → V
  log : List (S × N)

/-- A transaction under way: its uncommitted writes and the rows it has locked. -/
@[ext]
structure Transaction (K V : Type) where
  pending : List (K × V)
  own : K → Prop

namespace Transaction

/-- Nothing is written and nothing locked. -/
def none : Transaction K V := ⟨[], fun _ => False⟩

/-- The transaction after a statement. -/
def run (t : Transaction K V) (locks : List K) (writes : List (K × V)) : Transaction K V :=
  ⟨writes ++ t.pending, fun k => t.own k ∨ k ∈ locks ++ writes.map Prod.fst⟩

theorem run_nil (t : Transaction K V) : t.run [] [] = t := by
  simp [run]

@[simp] theorem run_own {t : Transaction K V} {locks : List K} {writes : List (K × V)} {k : K} :
    (t.run locks writes).own k ↔ t.own k ∨ k ∈ locks ++ writes.map Prod.fst := Iff.rfl

@[simp] theorem run_pending (t : Transaction K V) (locks : List K) (writes : List (K × V)) :
    (t.run locks writes).pending = writes ++ t.pending := rfl

theorem run_none : (none : Transaction K V).run [] [] = none := run_nil none

/-- What a statement of the transaction sees. -/
def view [DecidableEq K] (t : Transaction K V) (σ : Shared S K V N) : K → V :=
  overlay t.pending σ.rows

@[simp] theorem view_none [DecidableEq K] (σ : Shared S K V N) :
    (none : Transaction K V).view σ = σ.rows := rfl

@[simp] theorem view_run [DecidableEq K] (t : Transaction K V) (locks : List K)
    (writes : List (K × V)) (σ : Shared S K V N) :
    (t.run locks writes).view σ = overlay writes (t.view σ) :=
  overlay_append writes t.pending σ.rows

theorem view_of_notMem [DecidableEq K] {t : Transaction K V} {k : K}
    (h : k ∉ t.pending.map Prod.fst) (σ : Shared S K V N) : t.view σ k = σ.rows k :=
  overlay_of_notMem h _

/-- What a transaction has written it goes on to see. -/
theorem view_of_mem [DecidableEq K] {t : Transaction K V} {k : K}
    (h : k ∈ t.pending.map Prod.fst) (σ σ' : Shared S K V N) : t.view σ' k = t.view σ k := by
  obtain ⟨pending, own⟩ := t
  simp only [view] at h ⊢
  induction pending with
  | nil => exact absurd h List.not_mem_nil
  | cons write pending ih =>
    obtain ⟨k', v⟩ := write
    by_cases hk : k = k'
    · simp [hk]
    · simpa [Function.update_of_ne hk] using ih ((List.mem_cons.mp h).resolve_left hk)

/-- A row that a transaction sees the same in both states. -/
theorem view_congr [DecidableEq K] {t : Transaction K V} {k : K} {σ σ' : Shared S K V N}
    (h : k ∉ t.pending.map Prod.fst → σ'.rows k = σ.rows k) : t.view σ' k = t.view σ k := by
  by_cases hk : k ∈ t.pending.map Prod.fst
  · exact view_of_mem hk σ σ'
  · rw [view_of_notMem hk, view_of_notMem hk, h hk]

end Transaction

/-- The shared state after a commit. -/
def Shared.commit [DecidableEq K] (σ : Shared S K V N) (s : S) (t : Transaction K V)
    (notes : List N) : Shared S K V N :=
  ⟨t.view σ, notes.map (Prod.mk s) ++ σ.log⟩

/-- What the sessions keep to, in runs whose steps meet the condition. -/
structure Discipline (S K V A I N : Type) where
  inv : Shared S K V N → Prop
  /-- What a commit of a session that has locked these rows does. -/
  guarantee : S → List N → (K → Prop) → Shared S K V N → Shared S K V N → Prop
  /-- What a session that has locked these rows leaves to the others. -/
  rely : S → (K → Prop) → Shared S K V N → Shared S K V N → Prop
  condition : Condition K V A I N

/-- The discipline fits together: what one session guarantees is what another
relies on, as no row is locked by both. -/
structure Discipline.Lawful [DecidableEq K] (D : Discipline S K V A I N) : Prop where
  refl : ∀ s own σ, D.rely s own σ σ
  trans : ∀ {s own σ σ' σ''}, D.rely s own σ σ' → D.rely s own σ' σ'' → D.rely s own σ σ''
  rely : ∀ {s s' own notes t σ}, s ≠ s' → (∀ k, own k → ¬Transaction.own t k) →
    (∀ k, own k → (σ.commit s' t notes).rows k = σ.rows k) → D.inv σ →
    D.inv (σ.commit s' t notes) → D.guarantee s' notes t.own σ (σ.commit s' t notes) →
    D.rely s own σ (σ.commit s' t notes)

variable [DecidableEq K] (D : Discipline S K V A I N) (s : S)

/-- The script keeps to the discipline from here on. -/
def Safe : Script K V A I N → Transaction K V → Shared S K V N → Prop
  | .idle, t, _ => t = .none
  | .statement label run next, t, σ => ∀ σ', D.rely s t.own σ σ' → D.inv σ' → ∀ i held,
      (∀ k ∈ (run i (t.view σ')).1 ++ (run i (t.view σ')).2.map Prod.fst, held k = false) →
      D.condition.statement label i (t.view σ') held →
      Safe (next i (t.view σ')) (t.run (run i (t.view σ')).1 (run i (t.view σ')).2) σ'
  | .commit notes next, t, σ => ∀ σ', D.rely s t.own σ σ' → D.inv σ' →
      D.condition.commit notes (t.view σ') → D.condition.history notes (σ'.log.map Prod.snd) →
      D.inv (σ'.commit s t notes) ∧ D.guarantee s notes t.own σ' (σ'.commit s t notes) ∧
        Safe next .none (σ'.commit s t notes)
  | .rollback next, _, σ => ∀ σ', D.rely s (fun _ => False) σ σ' → D.inv σ' → Safe next .none σ'

variable {D s}

/-- A safe script stays safe while others do what it relies on. -/
theorem Safe.mono (hD : D.Lawful) {script : Script K V A I N} {t : Transaction K V}
    {σ σ' : Shared S K V N} (h : Safe D s script t σ) (hrely : D.rely s t.own σ σ')
    (hnone : D.rely s (fun _ => False) σ σ') : Safe D s script t σ' := by
  cases script with
  | idle => exact h
  | statement label run next =>
    exact fun σ'' hσ'' hinv => h σ'' (hD.trans hrely hσ'') hinv
  | commit notes next => exact fun σ'' hσ'' hinv => h σ'' (hD.trans hrely hσ'') hinv
  | rollback next => exact fun σ'' hσ'' hinv => h σ'' (hD.trans hnone hσ'') hinv

/-! ### Runs -/

variable [DecidableEq S] {calls : C → Script K V A I N} {sys sys' : System S K V A I N}

/-- The part of the state that sessions share. -/
def System.shared (sys : System S K V A I N) : Shared S K V N :=
  ⟨sys.world.committed, sys.log⟩

omit [DecidableEq S] [DecidableEq K] in
@[simp] theorem System.shared_rows (sys : System S K V A I N) :
    sys.shared.rows = sys.world.committed := rfl

/-- The transaction a session is in. -/
def System.transaction (sys : System S K V A I N) (s : S) : Transaction K V :=
  ⟨sys.world.pending s, sys.world.Owns s⟩

/-- What holds of every state reached. -/
structure Valid (D : Discipline S K V A I N) (sys : System S K V A I N) : Prop where
  locked : Locked sys.world
  inv : D.inv sys.shared
  safe : ∀ s, Safe D s (sys.world.locals s) (sys.transaction s) sys.shared

omit [DecidableEq S] in
theorem valid_initial {rows : K → V} (h : D.inv ⟨rows, []⟩) :
    Valid D (initial rows : System S K V A I N) where
  locked := locked_initial rows _
  inv := h
  safe := fun _ => by
    refine Transaction.ext rfl (funext fun k => ?_)
    simp [System.transaction, initial, World.initial, World.Owns, Transaction.none]

theorem transaction_commit (sys : System S K V A I N) (s : S) (next : Script K V A I N)
    (log : List (S × N)) :
    System.transaction ⟨sys.world.commit s next, log⟩ s = .none := by
  refine Transaction.ext ?_ (funext fun k => eq_false released_self)
  simp [System.transaction, World.commit, Transaction.none]

omit [DecidableEq K] in
theorem transaction_rollback (sys : System S K V A I N) (s : S) (next : Script K V A I N)
    (log : List (S × N)) :
    System.transaction ⟨sys.world.rollback s next, log⟩ s = .none := by
  refine Transaction.ext ?_ (funext fun k => eq_false released_self)
  simp [System.transaction, World.rollback, Transaction.none]

theorem transaction_run (sys : System S K V A I N) (s : S) (locks : List K)
    (writes : List (K × V)) (next : Script K V A I N) :
    System.transaction ⟨sys.world.run s locks writes next, sys.log⟩ s =
      (sys.transaction s).run locks writes := by
  refine Transaction.ext ?_ (funext fun k => propext owns_run)
  simp [System.transaction, World.run, Transaction.run]

omit [DecidableEq K] in
/-- The end of its transaction leaves the transactions of other sessions alone. -/
theorem transaction_other {w : World S K V (Script K V A I N)} {s t : S} (hts : t ≠ s)
    (log : List (S × N)) (hpending : w.pending t = sys.world.pending t)
    (howner : w.owner = sys.world.released s) :
    System.transaction ⟨w, log⟩ t = sys.transaction t := by
  refine Transaction.ext hpending (funext fun k => propext ?_)
  simp only [System.transaction, World.Owns, howner]
  exact released_other hts

/-- A statement leaves the transactions of other sessions alone. -/
theorem transaction_run_other {s t : S} (hts : t ≠ s) {locks : List K} {writes : List (K × V)}
    {next : Script K V A I N} (log : List (S × N))
    (hfree : ∀ k ∈ locks ++ writes.map Prod.fst, sys.world.held s k = false) :
    System.transaction ⟨sys.world.run s locks writes next, log⟩ t = sys.transaction t := by
  refine Transaction.ext ?_ (funext fun k => propext (owns_run_other hts hfree))
  exact Function.update_of_ne hts _ _

omit [DecidableEq S] in
/-- What a session relies on is kept by the commit of another. -/
theorem Valid.rely_commit (hD : D.Lawful) (hv : Valid D sys) {s t : S} {notes : List N}
    (hts : t ≠ s) (hinv : D.inv (sys.shared.commit s (sys.transaction s) notes))
    (hguar : D.guarantee s notes (sys.transaction s).own sys.shared
      (sys.shared.commit s (sys.transaction s) notes)) {own : K → Prop}
    (hown : ∀ k, own k → sys.world.Owns t k) :
    D.rely t own sys.shared (sys.shared.commit s (sys.transaction s) notes) := by
  have hdisjoint : ∀ k, own k → ¬sys.world.Owns s k := fun k hk hs =>
    hts (Option.some.inj ((hown k hk).symm.trans hs))
  exact hD.rely hts hdisjoint (fun k hk => view_of_not_owns hv.locked (hdisjoint k hk)) hv.inv
    hinv hguar

/-- One session moves: its script has to be safe in its new transaction, and the
others' in what theirs have become. -/
theorem valid_of_moved {next : Script K V A I N} (hlocked : Locked sys'.world)
    (hinv : D.inv sys'.shared) (hlocals : sys'.world.locals =
      Function.update sys.world.locals s next)
    (hself : Safe D s next (sys'.transaction s) sys'.shared)
    (hother : ∀ t, t ≠ s → Safe D t (sys.world.locals t) (sys'.transaction t) sys'.shared) :
    Valid D sys' := by
  refine ⟨hlocked, hinv, fun t => ?_⟩
  rw [hlocals]
  by_cases hts : t = s
  · subst hts
    rwa [Function.update_self]
  · rw [Function.update_of_ne hts]
    exact hother t hts

theorem valid_step (hD : D.Lawful) (hcalls : ∀ c s σ, D.inv σ → Safe D s (calls c) .none σ)
    {a : S × Input C I} (hv : Valid D sys) (hc : D.condition.Meets sys a)
    (h : step calls sys a = some sys') : Valid D sys' := by
  obtain ⟨s, input⟩ := a
  have hlocked : Locked sys'.world := by
    obtain ⟨w', hw', rfl⟩ := Option.map_eq_some_iff.mp h
    exact locked_step hv.locked hw'
  have hsafe := hv.safe s
  rcases step_cases h with ⟨c, hl, rfl, rfl⟩ | ⟨label, run, next, i, hl, rfl, hfree, rfl⟩ |
    ⟨notes, next, i, hl, rfl, rfl⟩ | ⟨next, hl, rfl⟩
  -- a call begins: the session has no transaction yet
  · rw [hl] at hsafe
    refine valid_of_moved hlocked hv.inv rfl ?_ fun t hts => ?_
    · rw [transaction_run, show sys.transaction s = .none from hsafe, Transaction.run_none]
      exact hcalls c s _ hv.inv
    · rw [transaction_run_other hts _ (by simp)]
      exact hv.safe t
  · rw [hl] at hsafe
    simp only [Condition.Meets, hl] at hc
    refine valid_of_moved hlocked hv.inv rfl ?_ fun t hts => ?_
    · rw [transaction_run]
      exact hsafe _ (hD.refl _ _ _) hv.inv i (sys.world.held s) hfree hc
    · rw [transaction_run_other hts _ hfree]
      exact hv.safe t
  -- a commit: the others rely on what it guarantees
  · rw [hl] at hsafe
    simp only [Condition.Meets, hl] at hc
    obtain ⟨hinv, hguar, hnext⟩ := hsafe _ (hD.refl _ _ _) hv.inv hc.1 hc.2
    refine valid_of_moved hlocked hinv rfl ?_ fun t hts => ?_
    · rw [transaction_commit]
      exact hnext
    · rw [transaction_other hts _ (Function.update_of_ne hts _ _) rfl]
      exact (hv.safe t).mono hD (hv.rely_commit hD hts hinv hguar fun _ hk => hk)
        (hv.rely_commit hD hts hinv hguar fun _ hk => hk.elim)
  -- a transaction is rolled back: it has changed nothing
  · refine valid_of_moved hlocked hv.inv rfl ?_ fun t hts => ?_
    · rw [transaction_rollback]
      rcases hl with hl | ⟨_, rfl⟩
      · rw [hl] at hsafe
        exact hsafe _ (hD.refl _ _ _) hv.inv
      · rfl
    · rw [transaction_other hts _ (Function.update_of_ne hts _ _) rfl]
      exact hv.safe t

/-- **Safe calls keep the invariant** in every run whose steps meet the
condition. -/
theorem valid_of_reachable (hD : D.Lawful)
    (hcalls : ∀ c s σ, D.inv σ → Safe D s (calls c) .none σ) {rows : K → V}
    (h0 : D.inv ⟨rows, []⟩)
    (h : StepSystem.ReachableWhen (step calls) D.condition.Meets (initial rows) sys) :
    Valid D sys :=
  h.invariant (valid_initial h0) fun hv hc hs => valid_step hD hcalls hv hc hs

omit [DecidableEq S] in
/-- A safe script that runs alone leaves the invariant, where a session relies on nothing but
what is so already. -/
theorem inv_of_alone (hrefl : ∀ own σ, D.rely s own σ σ) (hcondition : D.condition = {}) {i : I}
    {script : Script K V A I N} {between : Bool} {t : Transaction K V} {σ : Shared S K V N}
    {rows : K → V} {notes : List N} (h : Safe D s script t σ) (hinv : D.inv σ)
    (halone : alone i script between t.pending σ.rows = some (rows, notes)) :
    D.inv ⟨rows, notes.map (Prod.mk s) ++ σ.log⟩ := by
  induction script generalizing between t σ notes with
  | idle =>
    simp only [alone, Option.ite_none_right_eq_some, Option.some.injEq, Prod.mk.injEq] at halone
    obtain ⟨-, rfl, rfl⟩ := halone
    exact hinv
  | statement label run next ih =>
    refine ih i (t.view σ) (h σ (hrefl _ σ) hinv i (fun _ => false) (fun _ _ => rfl) ?_) hinv
      halone
    rw [hcondition]
    trivial
  | commit notes' next ih =>
    obtain ⟨⟨rows', notes''⟩, halone', heq⟩ := Option.map_eq_some_iff.mp halone
    obtain ⟨rfl, rfl⟩ := Prod.mk.inj heq
    obtain ⟨hinv', -, hnext⟩ := h σ (hrefl _ σ) hinv (by rw [hcondition]; trivial)
      (by rw [hcondition]; trivial)
    have hrest := ih hnext hinv' halone'
    rw [Shared.commit, ← List.append_assoc, ← List.map_append] at hrest
    exact hrest
  | rollback next ih => exact ih (h σ (hrefl _ σ) hinv) hinv halone

/-- A step that makes one note is a commit, and does what the discipline
guarantees. -/
theorem Valid.guarantee_of_note (hD : D.Lawful) (hv : Valid D sys) {input : Input C I} {note : N}
    (hc : D.condition.commit [note] (sys.world.view s))
    (hhistory : D.condition.history [note] (sys.log.map Prod.snd))
    (h : step calls sys (s, input) = some sys') (hlog : sys'.log = (s, note) :: sys.log) :
    D.guarantee s [note] (sys.world.Owns s) sys.shared sys'.shared := by
  have hnoted : sys'.log ≠ sys.log := by simp [hlog]
  rcases step_cases h with ⟨c, hl, rfl, rfl⟩ | ⟨label, run, next, i, hl, rfl, hfree, rfl⟩ |
    ⟨notes, next, i, hl, rfl, rfl⟩ | ⟨next, hl, rfl⟩
  · exact absurd rfl hnoted
  · exact absurd rfl hnoted
  · have hlog : notes.map (Prod.mk s) ++ sys.log = [(s, note)] ++ sys.log := hlog
    obtain ⟨a, rfl, heq⟩ := List.map_eq_singleton_iff.mp (List.append_cancel_right hlog)
    obtain rfl := (Prod.mk.inj heq).2
    have hsafe := hv.safe s
    rw [hl] at hsafe
    exact (hsafe _ (hD.refl _ _ _) hv.inv hc hhistory).2.1
  · exact absurd rfl hnoted

/-- A step leaves the committed rows as they are, or is a commit of these notes and does what
the discipline guarantees. -/
theorem Valid.committed_or_commit (hD : D.Lawful) (hv : Valid D sys) {input : Input C I}
    (hc : D.condition.Meets sys (s, input)) (h : step calls sys (s, input) = some sys') :
    sys'.world.committed = sys.world.committed ∧
        (∀ notes next i, ¬(sys.world.locals s = .commit notes next ∧ input = .next i)) ∨
      ∃ notes next i, sys.world.locals s = .commit notes next ∧ input = .next i ∧
        D.guarantee s notes (sys.world.Owns s) sys.shared sys'.shared := by
  rcases step_cases h with ⟨c, hl, rfl, rfl⟩ | ⟨label, run, next, i, hl, rfl, hfree, rfl⟩ |
    ⟨notes, next, i, hl, rfl, rfl⟩ | ⟨next, hl, rfl⟩
  · exact Or.inl ⟨rfl, fun _ _ _ heq => by simp at heq⟩
  · exact Or.inl ⟨rfl, fun _ _ _ heq => by simp [hl] at heq⟩
  · have hsafe := hv.safe s
    rw [hl] at hsafe
    simp only [Condition.Meets, hl] at hc
    exact Or.inr ⟨notes, next, i, hl, rfl, (hsafe _ (hD.refl _ _ _) hv.inv hc.1 hc.2).2.1⟩
  · refine Or.inl ⟨rfl, fun notes next' i heq => ?_⟩
    rcases hl with hl | ⟨rfl, -⟩
    · simp [hl] at heq
    · simp at heq

/-- A step leaves the committed rows as they are, or is a commit and does what
the discipline guarantees. -/
theorem Valid.committed_or_guarantee (hD : D.Lawful) (hv : Valid D sys) {input : Input C I}
    (hc : D.condition.Meets sys (s, input)) (h : step calls sys (s, input) = some sys') :
    sys'.world.committed = sys.world.committed ∨
      ∃ notes, D.guarantee s notes (sys.world.Owns s) sys.shared sys'.shared := by
  rcases hv.committed_or_commit hD hc h with ⟨hsame, -⟩ | ⟨notes, _, _, -, -, hguarantee⟩
  · exact Or.inl hsame
  · exact Or.inr ⟨notes, hguarantee⟩

/-! ### The statement before a commit -/

/-- `P` holds of the notes of every commit in the script, given the statement
right before it in the transaction and the rows which that statement saw. -/
def Notes (P : Option (A × (K → V)) → List N → Prop) :
    Script K V A I N → Option (A × (K → V)) → Prop
  | .idle, _ => True
  | .statement label _ next, _ => ∀ i rows, Notes P (next i rows) (some (label, rows))
  | .commit notes next, last => P last notes ∧ Notes P next none
  | .rollback next, _ => Notes P next none

/-- Every session is at some point of a script whose notes are as they should be. -/
def Noted (P : Option (A × (K → V)) → List N → Prop) (sys : System S K V A I N) : Prop :=
  ∀ s, ∃ last, Notes P (sys.world.locals s) last

theorem noted_step {P : Option (A × (K → V)) → List N → Prop}
    (hcalls : ∀ c, Notes P (calls c) none) {a : S × Input C I} (hn : Noted P sys)
    (h : step calls sys a = some sys') : Noted P sys' := by
  obtain ⟨s, input⟩ := a
  have hlocals {next : Script K V A I N} {last : Option (A × (K → V))} (hnext : Notes P next last)
      (t : S) : ∃ last, Notes P (Function.update sys.world.locals s next t) last := by
    by_cases hts : t = s
    · subst hts
      exact ⟨last, by rwa [Function.update_self]⟩
    · rw [Function.update_of_ne hts]
      exact hn t
  obtain ⟨last, hs⟩ := hn s
  rcases step_cases h with ⟨c, hl, rfl, rfl⟩ | ⟨label, run, next, i, hl, rfl, hfree, rfl⟩ |
    ⟨notes, next, i, hl, rfl, rfl⟩ | ⟨next, hl, rfl⟩
  · exact hlocals (hcalls c)
  · rw [hl] at hs
    exact hlocals (hs i _)
  · rw [hl] at hs
    exact hlocals hs.2
  · rcases hl with hl | ⟨_, rfl⟩
    · rw [hl] at hs
      exact hlocals (show Notes P next none from hs)
    · exact hlocals (show Notes P .idle none from trivial)

omit [DecidableEq S] [DecidableEq K] in
theorem noted_initial {P : Option (A × (K → V)) → List N → Prop} (rows : K → V) :
    Noted P (initial rows : System S K V A I N) :=
  fun _ => ⟨none, trivial⟩

end Script

/-! ### Pre- and postconditions -/

namespace Procedure
open Script
variable {S K V A I N α β : Type} [DecidableEq K]

/-- An assertion about a transaction under way. -/
abbrev Assertion (S K V N : Type) := Transaction K V → Shared S K V N → Prop

/-- The assertion survives what the session relies on. -/
def Stable (D : Discipline S K V A I N) (s : S) (P : Assertion S K V N) : Prop :=
  ∀ t σ σ', P t σ → D.rely s t.own σ σ' → D.inv σ' → P t σ'

omit [DecidableEq K] in
theorem Stable.and {D : Discipline S K V A I N} {s : S} {P Q : Assertion S K V N}
    (hP : Stable D s P) (hQ : Stable D s Q) : Stable D s fun t σ => P t σ ∧ Q t σ :=
  fun t σ σ' h hrely hinv => ⟨hP t σ σ' h.1 hrely hinv, hQ t σ σ' h.2 hrely hinv⟩

/-- From `P` on, the procedure is safe in front of everything that is safe from
`Q` on. -/
def Triple (D : Discipline S K V A I N) (s : S) (P : Assertion S K V N)
    (p : Procedure K V A I N α) (Q : α → Assertion S K V N) : Prop :=
  ∀ rest, (∀ a t σ, Q a t σ → Safe D s (rest a) t σ) → ∀ t σ, P t σ → Safe D s (p rest) t σ

variable {D : Discipline S K V A I N} {s : S} {P P' : Assertion S K V N}
  {Q Q' : α → Assertion S K V N}

theorem triple_pure {a : α} (h : ∀ t σ, P t σ → Q a t σ) :
    Triple D s P (pure a : Procedure K V A I N α) Q :=
  fun _ hrest t σ hP => hrest a t σ (h t σ hP)

theorem Triple.bind {p : Procedure K V A I N α} {f : α → Procedure K V A I N β}
    {R : β → Assertion S K V N} (hp : Triple D s P p Q)
    (hf : ∀ a, Triple D s (Q a) (f a) R) : Triple D s P (p >>= f) R :=
  fun rest hrest => hp _ fun a t σ hQ => hf a rest hrest t σ hQ

theorem Triple.conseq {p : Procedure K V A I N α} (h : Triple D s P p Q)
    (hP : ∀ t σ, P' t σ → P t σ) (hQ : ∀ a t σ, Q a t σ → Q' a t σ) : Triple D s P' p Q' :=
  fun rest hrest t σ hP' => h rest (fun a t σ hQa => hrest a t σ (hQ a t σ hQa)) t σ (hP t σ hP')

theorem Triple.ite {c : Prop} [Decidable c] {p q : Procedure K V A I N α}
    (hp : c → Triple D s P p Q) (hq : ¬c → Triple D s P q Q) :
    Triple D s P (if c then p else q) Q := by
  split
  · exact hp ‹c›
  · exact hq ‹¬c›

/-- A statement: what held before it still holds when it runs. -/
theorem triple_statement {label : A} {run : I → (K → V) → List K × List (K × V)}
    {result : I → (K → V) → α} (hP : Stable D s P)
    (h : ∀ t σ i held, P t σ → D.inv σ →
      (∀ k ∈ (run i (t.view σ)).1 ++ (run i (t.view σ)).2.map Prod.fst, held k = false) →
      D.condition.statement label i (t.view σ) held →
      Q (result i (t.view σ)) (t.run (run i (t.view σ)).1 (run i (t.view σ)).2) σ) :
    Triple D s P (statement label run result) Q :=
  fun _ hrest t σ hPt σ' hrely hinv i held hfree hc =>
    hrest _ _ _ (h t σ' i held (hP t σ σ' hPt hrely hinv) hinv hfree hc)

theorem triple_select {label : A} {query : (K → V) → α} (hP : Stable D s P)
    (h : ∀ t σ, P t σ → D.inv σ → (∀ i held, D.condition.statement label i (t.view σ) held →
      Q (query (t.view σ)) t σ)) :
    Triple D s P (select label query) Q := by
  apply triple_statement hP
  intro t σ i held hPt hinv _ hc
  rw [Transaction.run_nil]
  exact h t σ hPt hinv i held hc

/-- An update of one row. -/
theorem triple_update {label : A} {k : K} {f : I → V → Option V}
    {Q : Option V → Assertion S K V N} (hP : Stable D s P)
    (hwrite : ∀ t σ i held v, P t σ → D.inv σ → f i (t.view σ k) = some v → held k = false →
      D.condition.statement label i (t.view σ) held → Q (some v) (t.run [] [(k, v)]) σ)
    (hskip : ∀ t σ i held, P t σ → D.inv σ → f i (t.view σ k) = none →
      D.condition.statement label i (t.view σ) held → Q none t σ) :
    Triple D s P (update label k f) Q := by
  apply triple_statement hP
  intro t σ i held hPt hinv hfree hc
  cases hf : f i (t.view σ k) with
  | none =>
    rw [Option.map_none, Option.toList_none, Transaction.run_nil]
    exact hskip t σ i held hPt hinv hf hc
  | some v => exact hwrite t σ i held v hPt hinv hf (hfree k (by simp [hf])) hc

/-- An upsert of one row. -/
theorem triple_upsert {label : A} {k : K} {f : I → V → Option V}
    {Q : Option V → Assertion S K V N} (hP : Stable D s P)
    (hwrite : ∀ t σ i held v, P t σ → D.inv σ → f i (t.view σ k) = some v → held k = false →
      D.condition.statement label i (t.view σ) held → Q (some v) (t.run [k] [(k, v)]) σ)
    (hskip : ∀ t σ i held, P t σ → D.inv σ → f i (t.view σ k) = none →
      D.condition.statement label i (t.view σ) held → Q none (t.run [k] []) σ) :
    Triple D s P (upsert label k f) Q := by
  apply triple_statement hP
  intro t σ i held hPt hinv hfree hc
  cases hf : f i (t.view σ k) with
  | none => exact hskip t σ i held hPt hinv hf hc
  | some v => exact hwrite t σ i held v hPt hinv hf (hfree k (by simp)) hc

theorem triple_fail : Triple D s P (fail : Procedure K V A I N α) Q :=
  fun _ _ _ _ _ _ _ _ => rfl

theorem triple_require {p : Prop} [Decidable p] {Q : Unit → Assertion S K V N}
    (h : ∀ t σ, P t σ → p → Q () t σ) :
    Triple D s P (require p : Procedure K V A I N Unit) Q := by
  unfold require
  split
  · rename_i hp
    exact triple_pure fun t σ hP => h t σ hP hp
  · exact triple_fail

theorem triple_ofOption {a : Option α} (h : ∀ v t σ, a = some v → P t σ → Q v t σ) :
    Triple D s P (ofOption a : Procedure K V A I N α) Q := by
  cases a with
  | none => exact triple_fail
  | some v => exact triple_pure fun t σ hP => h v t σ rfl hP

/-- A fact that the assertion holds of. -/
theorem Triple.of_fact {fact : Prop} {p : Procedure K V A I N α}
    (h : fact → Triple D s P p Q) : Triple D s (fun t σ => fact ∧ P t σ) p Q :=
  fun rest hrest t σ hPt => h hPt.1 rest hrest t σ hPt.2

/-- What comes after a condition may rest on it. -/
theorem Triple.require {c : Prop} [Decidable c] {p : Procedure K V A I N α}
    (h : c → Triple D s P p Q) : Triple D s P (Procedure.require c >>= fun _ => p) Q :=
  Triple.bind (Q := fun _ t σ => c ∧ P t σ) (triple_require fun _ _ hP hc => ⟨hc, hP⟩)
    fun _ => Triple.of_fact h

theorem Triple.ofOption {a : Option β} {p : β → Procedure K V A I N α}
    (h : ∀ b, a = some b → Triple D s P (p b) Q) :
    Triple D s P (Procedure.ofOption a >>= p) Q :=
  Triple.bind (Q := fun b t σ => a = some b ∧ P t σ)
    (triple_ofOption fun _ _ _ hb hP => ⟨hb, hP⟩) fun b => Triple.of_fact (h b)

/-- A transaction: where its body ends, the commit has to keep to the
discipline, given what has been noted before it. -/
theorem triple_transaction_history {body : Procedure K V A I N (List N × α)}
    {R : List N × α → Assertion S K V N} (hbody : Triple D s P body R)
    (hR : ∀ r, Stable D s (R r))
    (h : ∀ r t σ, R r t σ → D.inv σ → D.condition.commit r.1 (t.view σ) →
      D.condition.history r.1 (σ.log.map Prod.snd) →
      D.inv (σ.commit s t r.1) ∧ D.guarantee s r.1 t.own σ (σ.commit s t r.1) ∧
        Q r.2 .none (σ.commit s t r.1)) :
    Triple D s P (transaction body) Q :=
  fun _ hrest => hbody _ fun r t σ hRt σ' hrely hinv hc hhistory =>
    have ⟨hinv', hguar, hQ⟩ := h r t σ' (hR r t σ σ' hRt hrely hinv) hinv hc hhistory
    ⟨hinv', hguar, hrest r.2 _ _ hQ⟩

/-- A transaction whose commit keeps to the discipline whatever has been noted. -/
theorem triple_transaction {body : Procedure K V A I N (List N × α)}
    {R : List N × α → Assertion S K V N} (hbody : Triple D s P body R)
    (hR : ∀ r, Stable D s (R r))
    (h : ∀ r t σ, R r t σ → D.inv σ → D.condition.commit r.1 (t.view σ) →
      D.inv (σ.commit s t r.1) ∧ D.guarantee s r.1 t.own σ (σ.commit s t r.1) ∧
        Q r.2 .none (σ.commit s t r.1)) :
    Triple D s P (transaction body) Q :=
  triple_transaction_history hbody hR fun r t σ hRt hinv hc _ => h r t σ hRt hinv hc

/-- A transaction that ends with its notes, by the result of its last part. -/
theorem triple_transaction_noted {p : Procedure K V A I N β} {note : β → List N × α}
    {R : β → Assertion S K V N} (hp : Triple D s P p R) (hR : ∀ b, Stable D s (R b))
    (h : ∀ b t σ, R b t σ → D.inv σ → D.condition.commit (note b).1 (t.view σ) →
      D.inv (σ.commit s t (note b).1) ∧
        D.guarantee s (note b).1 t.own σ (σ.commit s t (note b).1) ∧
        Q (note b).2 .none (σ.commit s t (note b).1)) :
    Triple D s P (transaction (do let b ← p; pure (note b))) Q :=
  fun _ hrest => hp _ fun b t σ hRt σ' hrely hinv hc _ =>
    have ⟨hinv', hguar, hQ⟩ := h b t σ' (hR b t σ σ' hRt hrely hinv) hinv hc
    ⟨hinv', hguar, hrest (note b).2 _ _ hQ⟩

/-- A call that keeps to the discipline from the start. -/
theorem Triple.safe {p : Procedure K V A I N α}
    (h : Triple D s (fun t _ => t = .none) p fun _ t _ => t = .none)
    (σ : Shared S K V N) : Safe D s p.script .none σ :=
  h (fun _ => .idle) (fun _ _ _ ht => ht) _ _ rfl

/-! ### One row rewritten -/

/-- The transaction has locked row `k`, which is as it was when `f` rewrote it,
and has written nothing else. -/
structure Rewritten (k : K) (f : V → Option V) (result : Option V) (t : Transaction K V)
    (σ : Shared S K V N) : Prop where
  own : t.own k
  pending : t.pending = (result.map (Prod.mk k)).toList
  row : f (σ.rows k) = result

omit [DecidableEq K] in
theorem stable_none : Stable D s fun t _ => t = .none := fun _ _ _ h _ _ => h

theorem Rewritten.view {k : K} {f : V → Option V} {v : V} {t : Transaction K V}
    {σ : Shared S K V N} (h : Rewritten k f (some v) t σ) :
    t.view σ = Function.update σ.rows k v := by
  simp [Transaction.view, h.pending]

theorem Rewritten.view_none {k : K} {f : V → Option V} {t : Transaction K V}
    {σ : Shared S K V N} (h : Rewritten k f none t σ) : t.view σ = σ.rows := by
  simp [Transaction.view, h.pending]

omit [DecidableEq K] in
theorem rewritten_stable {k : K} {f : V → Option V} {result : Option V}
    (hD : ∀ own σ σ', own k → D.rely s own σ σ' → σ'.rows k = σ.rows k) :
    Stable D s (Rewritten k f result) := by
  intro t σ σ' h hrely _
  exact ⟨h.own, h.pending, by rw [hD _ _ _ h.own hrely, h.row]⟩

/-- An upsert at the start of a transaction. -/
theorem triple_upsert_first {label : A} {k : K} {f : V → Option V} :
    Triple D s (fun t _ => t = .none) (upsert label k fun _ row => f row) (Rewritten k f) := by
  refine triple_upsert stable_none ?_ ?_
  · rintro t σ i held v rfl _ hf _ _
    exact ⟨by simp, rfl, hf⟩
  · rintro t σ i held rfl _ hf _
    exact ⟨by simp, rfl, hf⟩

/-! ### Rows replaced -/

/-- The transaction has written these rows, the last first: the key, the row as it is committed,
and what it has made of it. -/
structure Replaced (changes : List (K × V × V)) (t : Transaction K V) (σ : Shared S K V N) :
    Prop where
  pending : t.pending = changes.map fun change => (change.1, change.2.2)
  own : ∀ change ∈ changes, t.own change.1
  row : ∀ change ∈ changes, σ.rows change.1 = change.2.1

section
variable {changes : List (K × V × V)} {t : Transaction K V} {σ : Shared S K V N}

omit [DecidableEq K] in
theorem replaced_nil : Replaced [] .none σ :=
  ⟨rfl, fun _ h => absurd h List.not_mem_nil, fun _ h => absurd h List.not_mem_nil⟩

omit [DecidableEq K] in
theorem replaced_stable (hD : ∀ own σ σ', D.rely s own σ σ' → ∀ k, own k → σ'.rows k = σ.rows k) :
    Stable D s (Replaced changes) := by
  intro t σ σ' h hrely _
  exact ⟨h.pending, h.own, fun change hchange =>
    (hD _ _ _ hrely _ (h.own change hchange)).trans (h.row change hchange)⟩

omit [DecidableEq K] in
theorem Replaced.run (h : Replaced changes t σ) (locks : List K) (writes : List (K × V)) :
    Replaced (writes.map (fun write => (write.1, σ.rows write.1, write.2)) ++ changes)
      (t.run locks writes) σ := by
  refine ⟨by simp [h.pending, Function.comp_def], ?_, ?_⟩
  · intro change hchange
    rcases List.mem_append.mp hchange with hchange | hchange
    · obtain ⟨write, hwrite, rfl⟩ := List.mem_map.mp hchange
      exact .inr (List.mem_append_right _ (List.mem_map_of_mem hwrite))
    · exact .inl (h.own change hchange)
  · intro change hchange
    rcases List.mem_append.mp hchange with hchange | hchange
    · obtain ⟨write, -, rfl⟩ := List.mem_map.mp hchange
      rfl
    · exact h.row change hchange

omit [DecidableEq K] in
theorem Replaced.cons (h : Replaced changes t σ) (k : K) (v : V) :
    Replaced ((k, σ.rows k, v) :: changes) (t.run [] [(k, v)]) σ :=
  h.run [] [(k, v)]

theorem Replaced.view (h : Replaced changes t σ) :
    t.view σ = overlay (changes.map fun change => (change.1, change.2.2)) σ.rows := by
  rw [Transaction.view, h.pending]

/-- What the transaction sees of a row is what is committed, or what a change has made of it. -/
theorem Replaced.view_cases (h : Replaced changes t σ) (k : K) :
    t.view σ k = σ.rows k ∨ (k, σ.rows k, t.view σ k) ∈ changes := by
  by_cases hk : k ∈ (changes.map fun change => (change.1, change.2.2)).map Prod.fst
  · obtain ⟨change, hchange, heq⟩ := List.mem_map.mp (overlay_mem hk σ.rows)
    obtain ⟨rfl, hnew⟩ := Prod.mk.inj heq
    refine .inr ?_
    rw [h.view, ← hnew, h.row change hchange]
    exact hchange
  · rw [h.view]
    exact .inl (overlay_of_notMem hk _)

/-- A row the transaction has not written. -/
theorem Replaced.view_of_notMem (h : Replaced changes t σ) {k : K}
    (hk : k ∉ changes.map Prod.fst) : t.view σ k = σ.rows k := by
  refine Transaction.view_of_notMem ?_ σ
  rw [h.pending]
  simpa [Function.comp_def] using hk

end

/-! ### Rows that evolve -/

/-- The transaction has locked what it has written, and what it has made of each
row is `R`-related to the committed row. -/
structure Evolved (R : K → V → V → Prop) (t : Transaction K V) (σ : Shared S K V N) : Prop where
  locked : ∀ k ∈ t.pending.map Prod.fst, t.own k
  row : ∀ k, R k (σ.rows k) (t.view σ k)

section
variable {R : K → V → V → Prop} {t : Transaction K V} {σ : Shared S K V N}

theorem evolved_none (hrefl : ∀ k v, R k v v) : Evolved R .none σ :=
  ⟨fun _ hk => absurd hk List.not_mem_nil, fun k => hrefl k _⟩

theorem Evolved.run (h : Evolved R t σ) (htrans : ∀ {k u v w}, R k u v → R k v w → R k u w)
    {locks : List K} {writes : List (K × V)} (hw : ∀ k v, (k, v) ∈ writes → R k (t.view σ k) v) :
    Evolved R (t.run locks writes) σ := by
  refine ⟨fun k hk => ?_, fun k => ?_⟩
  · rw [Transaction.run_pending, List.map_append, List.mem_append] at hk
    rcases hk with hk | hk
    · exact Or.inr (List.mem_append_right _ hk)
    · exact Or.inl (h.locked k hk)
  · rw [Transaction.view_run]
    by_cases hk : k ∈ writes.map Prod.fst
    · exact htrans (h.row k) (hw k _ (overlay_mem hk _))
    · rw [overlay_of_notMem hk]
      exact h.row k

/-- A row the transaction has written is locked, and another it sees as it is. -/
theorem evolved_stable (hrefl : ∀ k v, R k v v)
    (hD : ∀ own σ σ', D.rely s own σ σ' → ∀ k, own k → σ'.rows k = σ.rows k) :
    Stable D s (Evolved R) := by
  intro t σ σ' h hrely _
  refine ⟨h.locked, fun k => ?_⟩
  by_cases hk : k ∈ t.pending.map Prod.fst
  · rw [hD _ _ _ hrely k (h.locked k hk), Transaction.view_of_mem hk σ σ']
    exact h.row k
  · rw [Transaction.view_of_notMem hk]
    exact hrefl k _

end

/-! ### The statement before a commit, by procedures -/

section Noting
variable {P : Option (A × (K → V)) → List N → Prop} {R : Option (A × (K → V)) → Prop}
  {Q : α → Option (A × (K → V)) → Prop}

/-- Where `R` holds of the last statement, the notes of the procedure's commits
are as they should be, in front of everything that goes on from `Q`. -/
def Noting (P : Option (A × (K → V)) → List N → Prop) (R : Option (A × (K → V)) → Prop)
    (p : Procedure K V A I N α) (Q : α → Option (A × (K → V)) → Prop) : Prop :=
  ∀ rest, (∀ a last, Q a last → Notes P (rest a) last) → ∀ last, R last → Notes P (p rest) last

/-- The procedure makes no commit of which `P` asks anything. -/
abbrev Silent (P : Option (A × (K → V)) → List N → Prop) (p : Procedure K V A I N α) : Prop :=
  Noting P (fun _ => True) p fun _ _ => True

omit [DecidableEq K] in
theorem noting_pure {a : α} (h : ∀ last, R last → Q a last) :
    Noting P R (pure a : Procedure K V A I N α) Q :=
  fun _ hrest last hR => hrest a last (h last hR)

omit [DecidableEq K] in
theorem Noting.bind {p : Procedure K V A I N α} {f : α → Procedure K V A I N β}
    {T : β → Option (A × (K → V)) → Prop} (hp : Noting P R p Q)
    (hf : ∀ a, Noting P (Q a) (f a) T) : Noting P R (p >>= f) T :=
  fun rest hrest last hR => hp _ (fun a last hQ => hf a rest hrest last hQ) last hR

omit [DecidableEq K] in
theorem Noting.ite {c : Prop} [Decidable c] {p q : Procedure K V A I N α}
    (hp : c → Noting P R p Q) (hq : ¬c → Noting P R q Q) : Noting P R (if c then p else q) Q := by
  split
  · exact hp ‹c›
  · exact hq ‹¬c›

omit [DecidableEq K] in
theorem noting_statement {label : A} {run : I → (K → V) → List K × List (K × V)}
    {result : I → (K → V) → α} (h : ∀ i rows, Q (result i rows) (some (label, rows))) :
    Noting P R (statement label run result) Q :=
  fun _ hrest _ _ i rows => hrest _ _ (h i rows)

omit [DecidableEq K] in
theorem silent_statement {label : A} {run : I → (K → V) → List K × List (K × V)}
    {result : I → (K → V) → α} : Silent P (statement label run result) :=
  noting_statement fun _ _ => trivial

omit [DecidableEq K] in
theorem silent_require {p : Prop} [Decidable p] :
    Silent P (require p : Procedure K V A I N Unit) := by
  unfold require
  split
  · exact noting_pure fun _ _ => trivial
  · exact fun _ _ _ _ => trivial

omit [DecidableEq K] in
theorem silent_ofOption {a : Option α} : Silent P (ofOption a : Procedure K V A I N α) := by
  cases a with
  | none => exact fun _ _ _ _ => trivial
  | some v => exact noting_pure fun _ _ => trivial

omit [DecidableEq K] in
/-- A transaction, with the notes that its body returns. -/
theorem silent_transaction {body : Procedure K V A I N (List N × α)}
    (h : Noting P (fun _ => True) body fun r last => P last r.1) : Silent P (transaction body) :=
  fun _ hrest => h _ fun r _ hP => ⟨hP, hrest r.2 none trivial⟩

omit [DecidableEq K] in
theorem Silent.script {p : Procedure K V A I N α} (h : Silent P p) : Notes P p.script none :=
  h (fun _ => .idle) (fun _ _ _ => trivial) none trivial

end Noting

/-! ### Calls that end -/

section Closing

/-- However the script goes on, its last transaction ends. -/
def Whole : Script K V A I N → Prop
  | .idle => False
  | .statement _ _ next => ∀ i rows, Whole (next i rows)
  | .commit _ next | .rollback next => next = .idle ∨ Whole next

theorem Whole.alone {i : I} {script : Script K V A I N} (h : Whole script) (between : Bool)
    (pending : List (K × V)) (rows : K → V) :
    ∃ result, alone i script between pending rows = some result := by
  induction script generalizing between pending rows with
  | idle => exact h.elim
  | statement label run next ih => exact ih i _ (h i _) ..
  | commit notes next ih =>
    have hnext : ∃ result, Script.alone i next true [] (overlay pending rows) = some result := by
      rcases h with rfl | h
      · exact ⟨_, rfl⟩
      · exact ih h ..
    obtain ⟨result, hresult⟩ := hnext
    exact ⟨_, congrArg (Option.map _) hresult⟩
  | rollback next ih =>
    rcases h with rfl | h
    · exact ⟨_, rfl⟩
    · exact ih h ..

/-- What comes after the procedure is all that can be left open. -/
def Closes (p : Procedure K V A I N α) : Prop :=
  ∀ rest, (∀ a, Whole (rest a)) → Whole (p rest)

omit [DecidableEq K] in
theorem closes_pure {a : α} : Closes (pure a : Procedure K V A I N α) :=
  fun _ hrest => hrest a

omit [DecidableEq K] in
theorem Closes.bind {p : Procedure K V A I N α} {f : α → Procedure K V A I N β} (hp : Closes p)
    (hf : ∀ a, Closes (f a)) : Closes (p >>= f) :=
  fun rest hrest => hp _ fun a => hf a rest hrest

omit [DecidableEq K] in
theorem closes_statement {label : A} {run : I → (K → V) → List K × List (K × V)}
    {result : I → (K → V) → α} :
    Closes (statement label run result : Procedure K V A I N α) :=
  fun _ hrest _ _ => hrest _

omit [DecidableEq K] in
theorem closes_fail : Closes (fail : Procedure K V A I N α) := fun _ _ => .inl rfl

omit [DecidableEq K] in
theorem closes_require {p : Prop} [Decidable p] :
    Closes (Procedure.require p : Procedure K V A I N Unit) := by
  unfold Procedure.require
  split
  · exact closes_pure
  · exact closes_fail

omit [DecidableEq K] in
theorem closes_ofOption {a : Option α} :
    Closes (Procedure.ofOption a : Procedure K V A I N α) := by
  cases a with
  | none => exact closes_fail
  | some a => exact closes_pure

omit [DecidableEq K] in
/-- A call that is one transaction. -/
theorem Closes.transaction {body : Procedure K V A I N (List N × α)} (h : Closes body) :
    Whole (Procedure.transaction body).script :=
  h _ fun _ => .inl rfl

end Closing

end Procedure
end ReadCommitted
