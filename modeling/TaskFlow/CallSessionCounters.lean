import TaskFlow.CallSessionCalls
import Mathlib.Data.Fintype.Basic

/-! # The counters of a call, and who has agreed to be recorded

Whatever the operations do at the same time, `joined_count` is the number of
people in the call.  With the condition that a join counts nobody in a call that
has ended, an ended call has nobody in it, and never again.  With the condition
that recording needs, a recording runs only where everybody in the call has
agreed to it.

Neither condition can be left out: the runs that show it stand right after the
theorems.
-/
namespace TaskFlow
namespace CallSession
open ReadCommitted ReadCommitted.Script ReadCommitted.Procedure

section
variable {U : Type} [DecidableEq U] {users : List U} {e c : Prop} {S : Type}

omit [DecidableEq U] in
theorem sound_noSession : Sound users e c (summary (noSession : Rows U)) where
  seated := { started := by simp, known := by simp, joined := by simp, ended := by simp }
  recorded := { consents := by simp, closed := by simp, request := by simp }
  everyone := by simp

variable [DecidableEq S] {sys sys' : System S (Key U) (Row U) (Label U) Unit (Event U)}

theorem valid_of_run (hnodup : users.Nodup)
    (h : StepSystem.ReachableWhen (Script.step (calls users)) (condition e c).Meets
      (Script.initial noSession) sys) : Valid (discipline S users e c) sys :=
  valid_of_reachable discipline_lawful (fun operation _ σ _ => safe_calls hnodup operation σ)
    ⟨sound_noSession, fun _ hrow => by cases hrow⟩ h

/-- The end of a call is final. -/
theorem ended_of_run (hv : Valid (discipline S users e c) sys) (hnodup : users.Nodup)
    (h : StepSystem.ReachableWhen (Script.step (calls users)) (condition e c).Meets sys sys')
    {row : SessionRow U} (hrow : sessionOf sys.world.committed = some row)
    (hended : row.status = .ended) :
    Valid (discipline S users e c) sys' ∧
      ∃ row', sessionOf sys'.world.committed = some row' ∧ row'.status = .ended := by
  refine h.invariant (I := fun sys => Valid (discipline S users e c) sys ∧
    ∃ row', sessionOf sys.world.committed = some row' ∧ row'.status = .ended)
    ⟨hv, row, hrow, hended⟩ ?_
  rintro sys ⟨s, input⟩ sys' ⟨hv, row, hrow, hended⟩ hc hstep
  refine ⟨valid_step discipline_lawful (fun operation _ σ _ => safe_calls hnodup operation σ)
    hv hc hstep, ?_⟩
  rcases hv.committed_or_guarantee discipline_lawful hc hstep with hsame | ⟨notes, hguar⟩
  · exact ⟨row, hsame ▸ hrow, hended⟩
  · obtain ⟨row', hrow', hfollow⟩ := hguar.follows row hrow
    exact ⟨row', hrow', hfollow.ended hended⟩

/-- A join counts its participant in a call that has not ended. -/
abbrev joinsBeforeTheEnd : Condition (Key U) (Row U) (Label U) Unit (Event U) :=
  condition True False

/-- Where joins count nobody in a call that has ended, **the counter of a call is
the number of people in it**, and a call that has ended has nobody in it from
then on. -/
theorem counters_consistent (hnodup : users.Nodup)
    (h : StepSystem.ReachableWhen (Script.step (calls users)) joinsBeforeTheEnd.Meets
      (Script.initial noSession) sys)
    (hlater : StepSystem.ReachableWhen (Script.step (calls users)) joinsBeforeTheEnd.Meets
      sys sys') :
    (∀ u, (participantOf sys.world.committed u).isSome → u ∈ users) ∧
    ∀ row, sessionOf sys.world.committed = some row →
      (row.joinedCount = users.countP fun u =>
        (participantOf sys.world.committed u).any (·.state = .joined)) ∧
      (row.status = .ended → ∀ u p, participantOf sys'.world.committed u = some p →
        p.state ≠ .joined) := by
  have hv := valid_of_run hnodup h
  refine ⟨fun u hu => hv.inv.1.seated.known u (by simpa using hu), fun row hrow => ⟨?_, ?_⟩⟩
  · rw [hv.inv.1.seated.joined row hrow, joinedIn]
    refine congrArg Nat.cast (List.countP_congr fun u _ => ?_)
    simp [Option.any_map, Participant.mark]
  · intro hended u p hp hjoined
    obtain ⟨hv', row', hrow', hended'⟩ := ended_of_run hv hnodup hlater hrow hended
    have := hv'.inv.1.seated.ended trivial row' hrow' hended' u p.mark (by simp [hp])
    simp [mark_joined.mpr hjoined] at this

end

/-! ### Runs of three people -/

instance {U : Type} [DecidableEq U] [Fintype U] {e c : Prop} [Decidable e] [Decidable c]
    {label : Label U} {i : Unit} {rows : Rows U} {held : Key U → Bool} :
    Decidable ((condition e c).statement label i rows held) :=
  match label with
  | .countJoin userId recordingState => inferInstanceAs (Decidable
      ((e → ∀ row ∈ sessionOf rows, row.status ≠ .ended) ∧
      (c → ∀ row ∈ sessionOf rows, row.recordingState = .active →
        recordingState = .active ∨ ∃ p ∈ participantOf rows userId,
          p.recordingConsentAt.isSome = true)))
  | .agree request => inferInstanceAs (Decidable
      (c → ∀ row ∈ sessionOf rows, (row.recordingState = .pending ∨ row.recordingState = .active) ∧
        row.request = request))
  | .request => inferInstanceAs (Decidable
      (c → ∀ row ∈ sessionOf rows, ¬(row.recordingState = .pending ∨
        row.recordingState = .active)))
  | .startRecording => inferInstanceAs (Decidable
      (c → (∀ u, ∀ p ∈ participantOf rows u, p.state = .joined →
        p.recordingConsentAt.isSome = true) ∨
        ∀ u, ∀ p ∈ participantOf rows u, p.recordingConsentAt.isSome = true →
          p.state = .joined))
  | .read | .write | .stillInvited _ => isTrue trivial

instance {U : Type} {e c : Prop} {notes : List (Event U)} {rows : Rows U} :
    Decidable ((condition e c).commit notes rows) :=
  isTrue trivial

instance {U : Type} {e c : Prop} {notes log : List (Event U)} :
    Decidable ((condition e c).history notes log) :=
  isTrue trivial

/-- The people of the organization. -/
def people : List (Fin 3) := [0, 1, 2]

/-- A call of session `s`, with so many statements and commits. -/
def whole {S : Type} (s : S) (operation : Operation (Fin 3)) (steps : Nat) :
    List (S × Input (Operation (Fin 3)) Unit) :=
  (s, .call operation) :: List.replicate steps (s, .next ())

/-- Who is in the call, whether it has ended, and its counter. -/
def seats (sys : System Bool (Key (Fin 3)) (Row (Fin 3)) (Label (Fin 3)) Unit (Event (Fin 3))) :
    List Bool × Option (Bool × Int) :=
  (people.map fun u => (participantOf sys.world.committed u).any (·.state = .joined),
    (sessionOf sys.world.committed).map fun row => (decide (row.status = .ended), row.joinedCount))

example : seats (Script.initial noSession) = ([false, false, false], none) := by decide +kernel

/-- Somebody is called, answers and hangs up. -/
theorem counters_consistent_hung_up :
    ∃ sys, seats sys = ([false, false, false], some (true, 0)) ∧
      ∀ row, sessionOf sys.world.committed = some row →
        row.joinedCount = people.countP fun u =>
          (participantOf sys.world.committed u).any (·.state = .joined) := by
  have hrun : (StepSystem.runWhen (Script.step (S := Bool) (calls people)) joinsBeforeTheEnd.Meets
      (Script.initial noSession) (whole false (.start 0 [0, 1] true true 5) 3 ++
        whole true (.join 1 true 6) 7 ++ whole true (.leave 1 7) 10)).map seats =
      some ([false, false, false], some (true, 0)) := by
    decide +kernel
  obtain ⟨sys, hsys, hseats⟩ := Option.map_eq_some_iff.mp hrun
  obtain ⟨_, hcount⟩ := counters_consistent (by decide)
    (StepSystem.reachableWhen_of_runWhen hsys) .refl
  exact ⟨sys, hseats, fun row hrow => (hcount row hrow).1⟩

/-- The callee's join has loaded the session when the caller cancels it: the
callee is then alone in a call that has ended. -/
theorem joined_after_the_end :
    ∃ sys : System Bool (Key (Fin 3)) (Row (Fin 3)) (Label (Fin 3)) Unit (Event (Fin 3)),
      StepSystem.Reachable (Script.step (calls people)) (Script.initial noSession) sys ∧
      ∃ row p, sessionOf sys.world.committed = some row ∧ row.status = .ended ∧
        participantOf sys.world.committed 1 = some p ∧ p.state = .joined := by
  have hrun : (StepSystem.run (Script.step (S := Bool) (calls people)) (Script.initial noSession)
      (whole false (.start 0 [0, 1] true true 5) 3 ++ whole true (.join 1 true 6) 1 ++
        whole false (.cancel 0 7) 8 ++ List.replicate 6 (true, .next ()))).map
      (fun sys => ((sessionOf sys.world.committed).map (·.status),
        (participantOf sys.world.committed 1).map (·.state))) =
      some (some .ended, some .joined) := by
    decide +kernel
  obtain ⟨sys, hsys, hmap⟩ := Option.map_eq_some_iff.mp hrun
  obtain ⟨hsession, hparticipant⟩ := Prod.mk.inj hmap
  obtain ⟨row, hrow, hended⟩ := Option.map_eq_some_iff.mp hsession
  obtain ⟨p, hp, hjoined⟩ := Option.map_eq_some_iff.mp hparticipant
  exact ⟨sys, StepSystem.reachable_of_run hsys, row, p, hrow, hended, hp, hjoined⟩

/-! ### Recording -/

section
variable {U : Type} [DecidableEq U] {users : List U} {S : Type} [DecidableEq S]
  {sys : System S (Key U) (Row U) (Label U) Unit (Event U)}

/-- Joins and requests do not take a consent for another than it was given for:
see `condition`. -/
abbrev consentsCurrent : Condition (Key U) (Row U) (Label U) Unit (Event U) :=
  condition False True

/-- Where consents are taken for what they are, **a recording runs only where
everybody in the call has agreed to it**. -/
theorem recording_consented (hnodup : users.Nodup)
    (h : StepSystem.ReachableWhen (Script.step (calls users)) consentsCurrent.Meets
      (Script.initial noSession) sys) {row : SessionRow U}
    (hrow : sessionOf sys.world.committed = some row) (hactive : row.recordingState = .active)
    {u : U} {p : Participant} (hp : participantOf sys.world.committed u = some p)
    (hjoined : p.state = .joined) :
    p.recordingConsentAt.isSome = true ∧ p.consentFor = row.request := by
  have hv := valid_of_run hnodup h
  have hm : (summary sys.world.committed).marks u = some p.mark := by simp [hp]
  have hconsent := mark_consent.mp
    (hv.inv.1.everyone trivial row hrow hactive u p.mark hm (mark_joined.mpr hjoined))
  refine ⟨hconsent, hv.inv.1.recorded.request trivial row hrow u p.mark p.consentFor hm ?_⟩
  simp [Participant.mark, hconsent]

end

/-- The calls of one session, one after another. -/
def sequence (operations : List (Operation (Fin 3) × Nat)) :
    List (Unit × Input (Operation (Fin 3)) Unit) :=
  operations.flatMap fun operation => whole () operation.1 operation.2

/-- The recording state, and of each in the call whether they have agreed. -/
def consents (sys : System Unit (Key (Fin 3)) (Row (Fin 3)) (Label (Fin 3)) Unit (Event (Fin 3))) :
    Option RecordingState × List (Option Bool) :=
  ((sessionOf sys.world.committed).map (·.recordingState),
    people.map fun u => ((participantOf sys.world.committed u).filter (·.state = .joined)).map
      (·.recordingConsentAt.isSome))

/-- Both in the call agree, and the recording starts. -/
theorem recording_consented_two :
    ∃ (sys : System Unit (Key (Fin 3)) (Row (Fin 3)) (Label (Fin 3)) Unit (Event (Fin 3)))
      (row : SessionRow (Fin 3)) (p : Participant),
      (sessionOf sys.world.committed = some row ∧ row.recordingState = .active) ∧
      (participantOf sys.world.committed 1 = some p ∧ p.state = .joined) ∧
      p.recordingConsentAt.isSome = true ∧ p.consentFor = row.request := by
  have hrun : (StepSystem.runWhen (Script.step (S := Unit) (calls people)) consentsCurrent.Meets
      (Script.initial noSession) (sequence [(.start 0 [0, 1, 2] true true 5, 3),
        (.join 1 true 6, 7), (.requestRecording 0 true 7, 6), (.answerRecording 1 true true 8, 5),
        (.startRecording true 9, 5)])).map (fun sys =>
          ((sessionOf sys.world.committed).map (·.recordingState),
            (participantOf sys.world.committed 1).map (·.state))) =
      some (some .active, some .joined) := by
    decide +kernel
  obtain ⟨sys, hsys, hmap⟩ := Option.map_eq_some_iff.mp hrun
  obtain ⟨hsession, hparticipant⟩ := Prod.mk.inj hmap
  obtain ⟨row, hrow, hactive⟩ := Option.map_eq_some_iff.mp hsession
  obtain ⟨p, hp, hjoined⟩ := Option.map_eq_some_iff.mp hparticipant
  exact ⟨sys, row, p, ⟨hrow, hactive⟩, ⟨hp, hjoined⟩, recording_consented (by decide)
    (StepSystem.reachableWhen_of_runWhen hsys) hrow hactive hp hjoined⟩

/-- One call after another: somebody agrees and leaves, and somebody else joins.
The counter still has the agreement of the first, and the recording starts
without that of the second. -/
theorem recorded_without_consent :
    ∃ sys : System Unit (Key (Fin 3)) (Row (Fin 3)) (Label (Fin 3)) Unit (Event (Fin 3)),
      StepSystem.Reachable (Script.step (calls people)) (Script.initial noSession) sys ∧
      consents sys = (some .active, [some true, none, some false]) := by
  have hrun : (StepSystem.run (Script.step (S := Unit) (calls people)) (Script.initial noSession)
      (sequence [(.start 0 [0, 1, 2] true true 5, 3), (.join 1 true 6, 7),
        (.requestRecording 0 true 7, 6), (.answerRecording 1 true true 8, 5), (.leave 1 9, 5),
        (.join 2 true 10, 7), (.startRecording true 11, 5)])).map consents =
      some (some .active, [some true, none, some false]) := by
    decide +kernel
  obtain ⟨sys, hsys, hconsents⟩ := Option.map_eq_some_iff.mp hrun
  exact ⟨sys, StepSystem.reachable_of_run hsys, hconsents⟩

end CallSession
end TaskFlow
