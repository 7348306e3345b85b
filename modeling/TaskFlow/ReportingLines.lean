import Mathlib.Data.String.Basic
import TaskFlow.ParentChain
import TaskFlow.ScriptLogic

/-! # Who reports to whom

`setReportingLine` walks up from the new manager, a statement for each hop, and refuses where it
meets the member; then it writes the member's row.  Nothing it has walked is locked, so another
call may put the new manager below the member before this one commits.

A commit changes one member's manager (`Changed`).  So the walks upward go on ending just as long
as every call, when it commits, would still pass its check by the lines there are
(`lines_of_rechecked`).
-/
namespace TaskFlow
namespace ReportingLines
open ReadCommitted ReadCommitted.Script ReadCommitted.Procedure ParentChain

abbrev UserId := String

/-- A row of `people.membership_profiles`, of one organisation. -/
structure ProfileRow where
  managerUserId : Option UserId
  updatedAt : Int
  deriving DecidableEq, Repr

abbrev Rows := UserId → Option ProfileRow

/-- The manager of each member. -/
def managers (rows : Rows) (userId : UserId) : Option UserId :=
  (rows userId).bind ProfileRow.managerUserId

inductive Note where
  | reportingLineChanged (userId : UserId) (before after : Option UserId)
  deriving DecidableEq, Repr

/-- A statement is told the time. -/
abbrev Procedure (α : Type) := ReadCommitted.Procedure UserId (Option ProfileRow) Unit Int Note α

/-! ### The service -/

structure LineInput where
  userId : UserId
  managerUserId : Option UserId
  deriving DecidableEq, Repr

section
variable (members : List UserId)

/-- The foreign keys and the check of the table: a member, who does not report to themself, and
whose manager is a member. -/
def validLine (input : LineInput) : Bool :=
  input.userId ∈ members ∧ input.managerUserId ≠ some input.userId ∧
    input.managerUserId.all fun managerUserId => managerUserId ∈ members

/-- Walks up from `current`; throws where it meets the member, and where the chain is too deep. -/
def assertNoCycle (userId : UserId) : Nat → UserId → Procedure Unit
  | 0, _ => fail
  | hops + 1, current => do
    require (current ≠ userId)
    let next ← select () fun rows => managers rows current
    match next with
    | none => pure ()
    | some next => assertNoCycle userId hops next

/-- The walk from a new manager. -/
def checkManager (userId : UserId) : Option UserId → Procedure Unit
  | none => pure ()
  | some managerUserId => assertNoCycle userId 100 managerUserId

/-- UPDATE of the member's row, which is there. -/
def updateLine (input : LineInput) : Procedure Unit := do
  let valid ← statement ()
    (fun now rows => ([], if validLine members input then
      ((rows input.userId).map fun _ => (input.userId, some ⟨input.managerUserId, now⟩)).toList
      else []))
    (fun _ _ => validLine members input)
  require valid

/-- INSERT of the member's row; it throws where another call has inserted one. -/
def insertLine (input : LineInput) : Procedure Unit := do
  let inserted ← statement ()
    (fun now rows => ([], if rows input.userId = none ∧ validLine members input then
      [(input.userId, some ⟨input.managerUserId, now⟩)] else []))
    (fun _ rows => decide (rows input.userId = none ∧ validLine members input))
  require inserted

def writeLine (input : LineInput) : Option ProfileRow → Procedure Unit
  | some _ => updateLine members input
  | none => insertLine members input

def setReportingLine (input : LineInput) : Procedure (Option UserId × Option UserId) :=
  transaction do
    let target ← select () fun _ => decide (input.userId ∈ members)
    require target
    checkManager input.userId input.managerUserId
    let existing ← select () fun rows => rows input.userId
    let before := existing.bind ProfileRow.managerUserId
    let after := input.managerUserId
    if before = after then return ([], (before, after))
    else do
      writeLine members input existing
      return ([.reportingLineChanged input.userId before after], (before, after))

def calls (input : LineInput) : Script UserId (Option ProfileRow) Unit Int Note :=
  (setReportingLine members input).script

end

/-! ### What a commit does -/

/-- What a commit with these notes does to the reporting lines. -/
inductive Changed (rows rows' : Rows) : List Note → Prop where
  | same (h : rows' = rows) : Changed rows rows' []
  | set (userId : UserId) (before after : Option UserId)
      (h : managers rows' = Function.update (managers rows) userId after) :
      Changed rows rows' [.reportingLineChanged userId before after]

/-- Rows stay. -/
def Kept (rows rows' : Rows) : Prop := ∀ userId, rows userId ≠ none → rows' userId ≠ none

/-- What the sessions keep to. -/
def discipline (S : Type) : Discipline S UserId (Option ProfileRow) Unit Int Note where
  inv _ := True
  guarantee _ notes _ σ σ' := Changed σ.rows σ'.rows notes ∧ Kept σ.rows σ'.rows
  rely _ _ σ σ' := Kept σ.rows σ'.rows
  condition := {}

/-- The member's row, and nothing else, has been written. -/
def Written {S : Type} (input : LineInput) (t : Transaction UserId (Option ProfileRow))
    (_ : Shared S UserId (Option ProfileRow) Note) : Prop :=
  ∃ row : ProfileRow, t.pending = [(input.userId, some row)] ∧
    row.managerUserId = input.managerUserId

section
variable {S : Type} {s : S} {t : Transaction UserId (Option ProfileRow)}
  {σ : Shared S UserId (Option ProfileRow) Note} {members : List UserId} {input : LineInput}

theorem discipline_lawful : (discipline S).Lawful where
  refl := fun _ _ _ _ h => h
  trans := fun h h' userId hrow => h' userId (h userId hrow)
  rely := fun _ _ _ _ _ hguarantee => hguarantee.2

theorem triple_assertNoCycle {userId : UserId} (hops : Nat) (current : UserId) :
    Triple (discipline S) s (fun t _ => t = .none) (assertNoCycle userId hops current)
      fun _ t _ => t = .none := by
  induction hops generalizing current with
  | zero => exact triple_fail
  | succ hops ih =>
    refine Triple.require fun _ => Triple.bind (Q := fun _ t _ => t = .none)
      (triple_select stable_none fun _ _ h _ _ _ _ => h) fun next => ?_
    cases next with
    | none => exact triple_pure fun _ _ h => h
    | some next => exact ih next

theorem triple_checkManager {userId : UserId} (managerUserId : Option UserId) :
    Triple (discipline S) s (fun t _ => t = .none) (checkManager userId managerUserId)
      fun _ t _ => t = .none := by
  cases managerUserId with
  | none => exact triple_pure fun _ _ h => h
  | some managerUserId => exact triple_assertNoCycle 100 managerUserId

theorem triple_updateLine :
    Triple (discipline S) s (fun t σ => t = .none ∧ σ.rows input.userId ≠ none)
      (updateLine members input) fun _ => Written input := by
  refine Triple.bind (Q := fun valid t σ => valid = true → Written input t σ)
    (triple_statement ?_ ?_) fun valid => triple_require fun _ _ h hvalid => h hvalid
  · rintro t σ σ' ⟨rfl, hrow⟩ hrely -
    exact ⟨rfl, hrely _ hrow⟩
  · rintro t σ now held ⟨rfl, hrow⟩ - - - hvalid
    obtain ⟨row, hrow⟩ := Option.ne_none_iff_exists'.mp hrow
    refine ⟨⟨input.managerUserId, now⟩, ?_, rfl⟩
    rw [Transaction.view_none, hvalid, if_pos rfl, hrow]
    rfl

theorem triple_insertLine :
    Triple (discipline S) s (fun t _ => t = .none) (insertLine members input)
      fun _ => Written input := by
  refine Triple.bind (Q := fun inserted t σ => inserted = true → Written input t σ)
    (triple_statement stable_none ?_) fun inserted =>
      triple_require fun _ _ h hinserted => h hinserted
  rintro t σ now held rfl - - - hinserted
  refine ⟨⟨input.managerUserId, now⟩, ?_, rfl⟩
  rw [if_pos (of_decide_eq_true hinserted)]
  rfl

/-- **A commit changes the manager of one member and no other.** -/
theorem Written.managers_view (h : Written input t σ) :
    managers (t.view σ) = Function.update (managers σ.rows) input.userId input.managerUserId := by
  obtain ⟨row, hpending, hmanager⟩ := h
  funext userId
  have hview : t.view σ = Function.update σ.rows input.userId (some row) := by
    rw [Transaction.view, hpending]
    rfl
  by_cases hsame : userId = input.userId
  · subst hsame
    simp [managers, hview, hmanager]
  · simp [managers, hview, Function.update_of_ne hsame]

theorem Written.kept (h : Written input t σ) : Kept σ.rows (t.view σ) := by
  obtain ⟨row, hpending, -⟩ := h
  intro userId hrow
  rw [Transaction.view, hpending, overlay_cons, overlay_nil]
  by_cases hsame : userId = input.userId
  · subst hsame
    simp
  · rwa [Function.update_of_ne hsame]

theorem triple_setReportingLine :
    Triple (discipline S) s (fun t _ => t = .none) (setReportingLine members input)
      fun _ t _ => t = .none := by
  refine triple_transaction (R := fun r t σ => r.1 = [] ∧ t = .none ∨
    ∃ before, r.1 = [.reportingLineChanged input.userId before input.managerUserId] ∧
      Written input t σ) ?_ (fun r => ?_) ?_
  · refine Triple.bind (Q := fun _ t _ => t = .none)
      (triple_select stable_none fun _ _ h _ _ _ _ => h) fun target => Triple.require fun _ => ?_
    refine (triple_checkManager _).bind fun _ => ?_
    refine Triple.bind (Q := fun existing t σ => t = .none ∧
        ∀ row, existing = some row → σ.rows input.userId ≠ none)
      (triple_select stable_none ?_) fun existing => ?_
    · rintro t σ rfl - - - -
      exact ⟨rfl, fun row hrow hnone => absurd (hnone.symm.trans hrow) (by simp)⟩
    · by_cases hsame : existing.bind ProfileRow.managerUserId = input.managerUserId
      · simp only [hsame, if_true]
        exact triple_pure fun _ _ h => .inl ⟨rfl, h.1⟩
      · simp only [hsame, if_false]
        refine Triple.bind (Q := fun _ => Written input) ?_ fun _ =>
          triple_pure fun _ _ h => .inr ⟨_, rfl, h⟩
        cases existing with
        | none => exact fun rest hrest t σ h => triple_insertLine rest hrest t σ h.1
        | some row =>
          exact fun rest hrest t σ h => triple_updateLine rest hrest t σ ⟨h.1, h.2 row rfl⟩
  · rintro t σ σ' (h | ⟨before, hnotes, h⟩) - -
    · exact .inl h
    · exact .inr ⟨before, hnotes, h⟩
  · rintro ⟨notes, result⟩ t σ (⟨rfl, rfl⟩ | ⟨before, rfl, h⟩) - -
    · exact ⟨trivial, ⟨.same rfl, fun _ h => h⟩, rfl⟩
    · exact ⟨trivial, ⟨.set _ _ _ h.managers_view, h.kept⟩, rfl⟩

end

/-! ### Which commits make a cycle -/

/-- The check of a call, made on the lines there are. -/
def Note.Clear (rows : Rows) : Note → Prop
  | .reportingLineChanged userId _ after =>
    ∀ managerUserId ∈ after, ¬Above (managers rows) managerUserId userId

/-- Where the step commits a new line, its call still passes the check. -/
def Rechecked {S : Type} (sys : System S UserId (Option ProfileRow) Unit Int Note)
    (a : S × Input LineInput Int) : Prop :=
  match sys.world.locals a.1, a.2 with
  | .commit notes _, .next _ => ∀ note ∈ notes, note.Clear sys.world.committed
  | _, _ => True

/-- **After a commit there is no cycle just when its call is still clear**, and then every walk
upward still ends. -/
theorem Changed.acyclic_iff {rows rows' : Rows} {notes : List Note} (h : Changed rows rows' notes)
    (hfounded : Founded (managers rows)) :
    (Acyclic (managers rows') ↔ ∀ note ∈ notes, note.Clear rows) ∧
      ((∀ note ∈ notes, note.Clear rows) → Founded (managers rows')) := by
  cases h with
  | same h =>
    rw [h]
    refine ⟨iff_of_true hfounded.acyclic fun note hnote => ?_, fun _ => hfounded⟩
    exact absurd hnote List.not_mem_nil
  | set userId before after h =>
    rw [h, List.forall_mem_singleton, Note.Clear]
    exact ⟨acyclic_update_iff hfounded.acyclic, (founded_update_iff hfounded).mpr⟩

section
variable {S : Type} [DecidableEq S] {members : List UserId}
  {sys sys' : System S UserId (Option ProfileRow) Unit Int Note}

theorem valid_lines {rows : Rows}
    (hrun : StepSystem.Reachable (Script.step (calls members)) (initial rows) sys) :
    Valid (discipline S) sys :=
  valid_of_reachable discipline_lawful (fun _ _ σ _ => (triple_setReportingLine).safe σ) trivial
    (hrun.mono fun _ _ _ => meets_default _ _)

/-- What one step does to the lines. -/
theorem acyclic_step_iff (hv : Valid (discipline S) sys)
    (hfounded : Founded (managers sys.world.committed)) {a : S × Input LineInput Int}
    (hstep : Script.step (calls members) sys a = some sys') :
    (Acyclic (managers sys'.world.committed) ↔ Rechecked sys a) ∧
      (Rechecked sys a → Founded (managers sys'.world.committed)) := by
  obtain ⟨s, input⟩ := a
  rcases hv.committed_or_commit discipline_lawful (meets_default _ _) hstep with
    ⟨hsame, hnot⟩ | ⟨notes, next, i, hl, rfl, hchanged, -⟩
  · rw [hsame]
    refine ⟨iff_of_true hfounded.acyclic ?_, fun _ => hfounded⟩
    unfold Rechecked
    split
    · next notes next i hl hi => exact absurd ⟨hl, hi⟩ (hnot notes next i)
    · trivial
  · have hrechecked : Rechecked sys (s, .next i) ↔
        ∀ note ∈ notes, note.Clear sys.world.committed := by
      simp [Rechecked, hl]
    rw [hrechecked]
    exact hchanged.acyclic_iff hfounded

end

/-! ### Two calls at a time -/

/-- Three members, who report to nobody. -/
def threeMembers : List UserId := ["a", "b", "c"]

def noLines (userId : UserId) : Option ProfileRow :=
  if userId ∈ threeMembers then some ⟨none, 0⟩ else none

theorem managers_noLines (userId : UserId) : managers noLines userId = none := by
  unfold managers noLines
  split <;> rfl

theorem founded_noLines : Founded (managers noLines) :=
  fun userId => ⟨1, by rw [climb, managers_noLines]; rfl⟩

/-- Two calls: each takes four statements in turn with the other, and then they commit. -/
def together (first second : LineInput) : List (Bool × Input LineInput Int) :=
  (false, .call first) :: (true, .call second) ::
    (List.replicate 4 [(false, .next 1), (true, .next 1)]).flatten ++
    [(false, .next 1), (true, .next 1)]

/-- The check of `Rechecked`, where nobody has more than two above them. -/
def quickCheck (sys : System Bool UserId (Option ProfileRow) Unit Int Note)
    (a : Bool × Input LineInput Int) : Bool :=
  match sys.world.locals a.1, a.2 with
  | .commit notes _, .next _ => notes.all fun
    | .reportingLineChanged userId _ after => after.all fun managerUserId =>
      decide (climb (managers sys.world.committed) 3 managerUserId = none ∧
        ∀ m ∈ List.range 3, climb (managers sys.world.committed) m managerUserId ≠ some userId)
  | _, _ => true

theorem rechecked_of_quickCheck (sys : System Bool UserId (Option ProfileRow) Unit Int Note)
    (a : Bool × Input LineInput Int) (h : quickCheck sys a = true) : Rechecked sys a := by
  unfold quickCheck at h
  unfold Rechecked
  split
  · next notes _ _ hl hi =>
    rw [hl, hi] at h
    rintro ⟨userId, before, after⟩ hnote managerUserId hafter
    have hcheck := List.all_eq_true.mp h _ hnote
    obtain rfl : after = some managerUserId := hafter
    obtain ⟨hend, hnot⟩ := of_decide_eq_true hcheck
    exact not_above_of_climb hend fun m hm => hnot m (List.mem_range.mpr hm)
  · trivial

end ReportingLines
end TaskFlow
