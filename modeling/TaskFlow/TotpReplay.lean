import Mathlib.Data.List.Basic
import Mathlib.Order.Lattice
import TaskFlow.SecondFactor

/-! # One code, one use

`claimTotpStep` retires the step that `verifyTotpCode` reports: the step of its own reading of the
clock, and what the library adds to it.  But the library reads the clock itself.  Where the two
readings are in different steps, the step that is retired is not the one of the code.

Where they are in one step, the steps of the codes accepted for an account increase
(`accepted_increasing`).
-/
namespace TaskFlow
namespace SecondFactor
open ReadCommitted ReadCommitted.Script ReadCommitted.Procedure

/-- Nothing but answers to challenges. -/
def verifications (checkDelta : Int → Code → Secret → Option Int) (call : UserId × Code) :
    Script UserId (Option TotpCredential) Label Int Note :=
  calls checkDelta (.verifyLogin call.1 call.2)

def lastUsed (rows : Rows) (userId : UserId) : Option Int :=
  (rows userId).bind TotpCredential.lastUsedStep

/-- The step of a code accepted for the account: the library answers by how many steps it is off
its own reading of the clock. -/
def Note.acceptedStep (userId : UserId) : Note → Option Int
  | .codeAccepted other _ checked delta =>
    if other = userId then some (stepOf checked + delta) else none
  | _ => none

/-- The steps of the codes accepted for the account, the most recent first, and before them the
last one that had been used. -/
def history (start : Rows) (userId : UserId) (log : List Note) : List Int :=
  log.filterMap (Note.acceptedStep userId) ++ (lastUsed start userId).toList

/-- The two readings of an accepted code are in one step. -/
def Note.SameStep : Note → Prop
  | .codeAccepted _ read checked _ => stepOf read = stepOf checked
  | _ => True

instance : (note : Note) → Decidable note.SameStep
  | .codeAccepted _ read checked _ => inferInstanceAs (Decidable (stepOf read = stepOf checked))
  | .userLoggedIn .. | .totpEnrolled _ | .totpDisabled _ => isTrue trivial

def sameStep : Condition UserId (Option TotpCredential) Label Int Note where
  commit notes _ := ∀ note ∈ notes, note.SameStep

/-- The steps have increased, to the one in the row. -/
def Increasing (start rows : Rows) (log : List Note) : Prop :=
  ∀ userId, (history start userId log).Pairwise (· > ·) ∧
    (history start userId log).head? = lastUsed rows userId

section
variable {S : Type} {s : S} {start : Rows} {userId : UserId}

theorem history_cons_none {note : Note} {log : List Note}
    (h : note.acceptedStep userId = none) :
    history start userId (note :: log) = history start userId log := by
  simp [history, h]

theorem history_cons_some {note : Note} {log : List Note} {step : Int}
    (h : note.acceptedStep userId = some step) :
    history start userId (note :: log) = step :: history start userId log := by
  simp [history, h]

/-- What is above the first of a decreasing list is above all of it. -/
theorem pairwise_cons_of_head {l : List Int} {a : Int} (h : l.Pairwise (· > ·))
    (hhead : ∀ b ∈ l.head?, a > b) : (a :: l).Pairwise (· > ·) := by
  refine List.pairwise_cons.mpr ⟨fun b hb => ?_, h⟩
  cases l with
  | nil => cases hb
  | cons c l =>
    have hc : a > c := hhead c rfl
    rcases List.mem_cons.mp hb with rfl | hb
    · exact hc
    · exact lt_trans ((List.pairwise_cons.mp h).1 b hb) hc

theorem triple_claimTotpStep_increasing {step read checked delta : Int}
    (hstep : step = stepOf read + delta) :
    Triple (rowDiscipline S (Increasing start) sameStep) s (fun t _ => t = .none)
      (claimTotpStep userId step (.codeAccepted userId read checked delta))
      fun _ t _ => t = .none := by
  refine triple_writeRow (fun written row row' => if written then
      (∀ last ∈ row.bind TotpCredential.lastUsedStep, step > last) ∧
        row'.bind TotpCredential.lastUsedStep = some step
    else row' = row) (fun _ _ _ _ _ _ => rfl) ?_ ?_
  · intro now rows held _ row h
    obtain ⟨credential, hfilter, rfl⟩ := Option.map_eq_some_iff.mp h
    obtain ⟨hrow, hlast⟩ := Option.filter_eq_some_iff.mp hfilter
    rw [hrow]
    refine ⟨fun last hmem => ?_, rfl⟩
    have hmem : credential.lastUsedStep = some last := hmem
    simpa [hmem] using hlast
  · intro written rows rows' log h hother hrow hsame other
    obtain ⟨hdescends, hhead⟩ := h other
    by_cases hne : other = userId
    · subst hne
      cases written with
      | false =>
        have hrow : rows' other = rows other := hrow
        exact ⟨hdescends, by rw [lastUsed, hrow]; exact hhead⟩
      | true =>
        obtain ⟨hlast, hnow⟩ := hrow
        have hread : stepOf read = stepOf checked := hsame _ (List.mem_singleton_self _)
        have hstep : Note.acceptedStep other (.codeAccepted other read checked delta) =
            some step := by
          simp [Note.acceptedStep, hstep, hread]
        refine ⟨?_, ?_⟩
        · refine (history_cons_some hstep).symm ▸ pairwise_cons_of_head hdescends fun last hmem => ?_
          have hmem : last ∈ (history start other log).head? := hmem
          rw [hhead] at hmem
          exact hlast last hmem
        · exact (congrArg List.head? (history_cons_some hstep)).trans hnow.symm
    · have hnone : history start other ((if written then
          [Note.codeAccepted userId read checked delta] else []) ++ log) =
          history start other log := by
        cases written with
        | false => rfl
        | true => exact history_cons_none (if_neg (Ne.symm hne))
      exact ⟨hnone.symm ▸ hdescends, by rw [hnone, hhead, lastUsed, lastUsed, hother other hne]⟩

theorem triple_createSession_increasing {method : Method} :
    Triple (rowDiscipline S (Increasing start) sameStep) s (fun t _ => t = .none)
      (createSession userId method) fun _ t _ => t = .none := by
  refine triple_transaction_noted (R := fun _ t _ => t = .none)
    (triple_select stable_none fun _ _ h _ _ _ _ => h) (fun _ => stable_none) ?_
  rintro - t σ rfl hinv -
  refine ⟨fun other => ?_, trivial, rfl⟩
  have hnone : history start other (.userLoggedIn userId method :: σ.log.map Prod.snd) =
      history start other (σ.log.map Prod.snd) :=
    history_cons_none rfl
  exact hnone.symm ▸ hinv other

theorem safe_verifications {checkDelta : Int → Code → Secret → Option Int} (call : UserId × Code)
    (σ : Shared S UserId (Option TotpCredential) Note) :
    Safe (rowDiscipline S (Increasing start) sameStep) s (verifications checkDelta call) .none σ :=
  (triple_getTotpCredential.bind fun _ => Triple.ofOption fun _ _ => Triple.require fun _ =>
    triple_verifyTotpCode.bind fun _ => Triple.of_fact fun hstep => Triple.require fun hvalid =>
      (triple_claimTotpStep_increasing (hstep hvalid)).bind fun _ => Triple.require fun _ =>
        triple_createSession_increasing).safe σ

/-- Before the first call. -/
theorem increasing_nil : Increasing start start [] := by
  intro userId
  have hstart : history start userId [] = (lastUsed start userId).toList := rfl
  rw [hstart]
  cases lastUsed start userId with
  | none => exact ⟨.nil, rfl⟩
  | some last => exact ⟨List.pairwise_singleton _ _, rfl⟩

end

/-- **Where the two readings of each accepted code are in one step, the steps of the codes that an
account accepts increase**, in any interleaving of the answers: no step is accepted twice, and none
after a later one. -/
theorem accepted_increasing {S : Type} [DecidableEq S]
    {checkDelta : Int → Code → Secret → Option Int} {rows : Rows}
    {sys : System S UserId (Option TotpCredential) Label Int Note}
    (hrun : StepSystem.ReachableWhen (Script.step (verifications checkDelta)) sameStep.Meets
      (initial rows) sys) (userId : UserId) :
    (history rows userId (sys.log.map Prod.snd)).Pairwise (· > ·) :=
  ((valid_of_reachable (D := rowDiscipline S (Increasing rows) sameStep) discipline_lawful
    (fun call _ σ _ => safe_verifications call σ) increasing_nil hrun).inv userId).1

/-! ### A step boundary -/

instance (label : Label) (now : Int) (rows : Rows) (held : UserId → Bool) :
    Decidable (sameStep.statement label now rows held) :=
  isTrue trivial

instance (notes : List Note) (rows : Rows) : Decidable (sameStep.commit notes rows) :=
  inferInstanceAs (Decidable (∀ note ∈ notes, note.SameStep))

instance (notes log : List Note) : Decidable (sameStep.history notes log) :=
  isTrue trivial

def codeOf (step : Int) : Code :=
  if step % 3 = 0 then "000000" else if step % 3 = 1 then "111111" else "222222"

/-- A library that takes the codes of three steps, the newest first. -/
def checkWindow (checked : Int) (code : Code) (_ : Secret) : Option Int :=
  [1, 0, -1].find? fun delta => codeOf (stepOf checked + delta) = code

/-- An answer to a challenge: the time at each of its statements. -/
def answered (code : Code) (times : List Int) : List (Unit × Input (UserId × Code) Int) :=
  ((), .call ("u", code)) :: times.map fun now => ((), .next now)

theorem accepted_increasing_inside :
    ∃ sys : System Unit UserId (Option TotpCredential) Label Int Note,
      StepSystem.Reachable (Script.step (verifications checkWindow)) (initial secured) sys ∧
      history secured "u" (sys.log.map Prod.snd) = [2, 1] ∧
      (history secured "u" (sys.log.map Prod.snd)).Pairwise (· > ·) := by
  have hsome : ((StepSystem.runWhen (Script.step (verifications checkWindow)) sameStep.Meets
      (initial secured) (answered "111111" (List.replicate 8 30000) ++
        answered "222222" (List.replicate 8 60000))).map fun sys =>
          history secured "u" (sys.log.map Prod.snd)) = some [2, 1] := by decide
  obtain ⟨sys, hrun, hhistory⟩ := Option.map_eq_some_iff.mp hsome
  have hreach := StepSystem.reachableWhen_of_runWhen hrun
  exact ⟨sys, hreach.mono fun _ _ _ => trivial, hhistory, accepted_increasing hreach "u"⟩

/-- The times of an answer that is at the end of a step when it reads the clock, and at the start
of the next when the library does, and of one after it. -/
def boundary : List Int × List Int :=
  ([59999, 59999, 59999, 60000, 60000, 60000, 60000, 60000], List.replicate 8 60000)

/-- **Across the end of a step one code is accepted twice.** -/
theorem accepted_twice_across_boundary :
    (boundary.1 ++ boundary.2).Pairwise (· ≤ ·) ∧
    ∃ sys : System Unit UserId (Option TotpCredential) Label Int Note,
      StepSystem.run (Script.step (verifications checkWindow)) (initial secured)
        (answered "222222" boundary.1 ++ answered "222222" boundary.2) = some sys ∧
      history secured "u" (sys.log.map Prod.snd) = [2, 2] ∧
      ¬(history secured "u" (sys.log.map Prod.snd)).Pairwise (· > ·) := by
  have hsome : ((StepSystem.run (Script.step (verifications checkWindow)) (initial secured)
      (answered "222222" boundary.1 ++ answered "222222" boundary.2)).map fun sys =>
        history secured "u" (sys.log.map Prod.snd)) = some [2, 2] := by decide
  obtain ⟨sys, hrun, hhistory⟩ := Option.map_eq_some_iff.mp hsome
  exact ⟨by decide, sys, hrun, hhistory, by rw [hhistory]; decide⟩

end SecondFactor
end TaskFlow
