import TaskFlow.CallSessionCounters

/-! # Somebody can still answer

A decline ends the call when it finds nobody else being rung.  Two declines can
each find the other, whose own decline is not committed, and leave the call to
it.  Where a decline's look finds somebody whose decline is not about to commit,
a call that rings is rung somewhere: this follows one such person from commit to
commit.

What a decline has found matters only until its commit, which comes right after
its look; so the scripts are followed here by the statement that precedes each
commit.
-/
namespace TaskFlow
namespace CallSession
open ReadCommitted ReadCommitted.Script ReadCommitted.Procedure

section
variable {U : Type} {users : List U} {userId : U} {now : Int}
  {last : Option (Label U × Rows U)} {notes : List (Event U)}

/-! ### Who has looked -/

/-- A decline that leaves the call to somebody has just looked, and found
somebody being rung. -/
def LooksFirst (last : Option (Label U × Rows U)) (notes : List (Event U)) : Prop :=
  ∀ u, .declined u true ∈ notes →
    ∃ rows, last = some (.stillInvited u, rows) ∧ ∃ w, Invited rows w

theorem looksFirst_of_quiet (h : ∀ u, .declined u true ∉ notes) : LooksFirst last notes :=
  fun u hu => absurd hu (h u)

/-- A transaction that is no decline. -/
theorem silent_quiet {α : Type} {body : Procedure U (List (Event U) × α)}
    (h : Noting LooksFirst (fun _ => True) body fun r _ => ∀ u, .declined u true ∉ r.1) :
    Silent LooksFirst (transaction body) :=
  silent_transaction fun rest hrest =>
    h rest fun r last hquiet => hrest r last (looksFirst_of_quiet hquiet)

theorem silent_loadSession : Silent LooksFirst (loadSession : Procedure U (SessionRow U)) :=
  silent_statement.bind fun _ => silent_ofOption

theorem silent_updateSession {label : Label U} {set : SessionRow U → Option (SessionRow U)} :
    Silent LooksFirst (updateSession label set) :=
  silent_statement.bind fun _ => silent_require.bind fun _ => noting_pure fun _ _ => trivial

theorem silent_updateParticipant {label : Label U} {set : Participant → Option Participant} :
    Silent LooksFirst (updateParticipant label userId set) :=
  silent_statement.bind fun _ => noting_pure fun _ _ => trivial

theorem silent_updateEach {set : Participant → Option Participant} (list : List U) :
    Silent LooksFirst (updateEach set list) := by
  induction list with
  | nil => exact noting_pure fun _ _ => trivial
  | cons u list ih => exact silent_updateParticipant.bind fun _ => ih

theorem silent_updateParticipants {set : Participant → Option Participant} :
    Silent LooksFirst (updateParticipants users set) :=
  silent_statement.bind fun list => silent_updateEach list

theorem silent_endSessionRow {session : SessionRow U} {reason : EndReason} :
    Silent LooksFirst (endSessionRow users session reason now) :=
  silent_statement.bind fun _ => silent_updateSession.bind fun _ =>
    silent_updateParticipants.bind fun _ => silent_updateParticipants.bind fun _ =>
      noting_pure fun _ _ => trivial

theorem silent_resetRecordingConsent : Silent LooksFirst (resetRecordingConsent users) :=
  silent_updateParticipants.bind fun _ => silent_updateSession.bind fun _ =>
    noting_pure fun _ _ => trivial

theorem silent_isLastLegOut {joinedCount : Int} :
    Silent LooksFirst (isLastLegOut users joinedCount) := by
  refine Noting.ite (fun _ => noting_pure fun _ _ => trivial) fun _ => ?_
  refine Noting.ite (fun _ => noting_pure fun _ _ => trivial) fun _ => ?_
  exact silent_statement.bind fun _ => noting_pure fun _ _ => trivial

theorem silent_answerRecordingConsent {agreed : Bool} {request : Nat} :
    Silent LooksFirst (answerRecordingConsent userId agreed request now) := by
  apply silent_updateParticipant.bind
  intro claimed
  refine Noting.ite (fun _ => ?_) fun _ => noting_pure fun _ _ => trivial
  refine Noting.ite (fun _ => ?_) fun _ => noting_pure fun _ _ => trivial
  exact silent_updateSession.bind fun _ => noting_pure fun _ _ => trivial

theorem quiet_leaveLoaded {session : SessionRow U} :
    Noting LooksFirst (fun _ => True) (leaveLoaded users session userId now)
      fun r _ => ∀ u, .declined u true ∉ r.1 := by
  apply silent_updateParticipant.bind
  intro left
  refine Noting.ite (fun _ => ?_) fun _ => noting_pure fun _ _ => by simp
  apply silent_updateSession.bind
  intro remaining
  apply silent_isLastLegOut.bind
  intro shouldEnd
  refine Noting.ite (fun _ => ?_) fun _ => noting_pure fun _ _ => by simp
  exact silent_endSessionRow.bind fun ended => noting_pure fun _ _ => by simp

theorem silent_authorizedSession {authorized : Bool} :
    Silent LooksFirst (authorizedSession authorized : Procedure U (SessionRow U)) :=
  silent_quiet <| silent_loadSession.bind fun _ => silent_require.bind fun _ =>
    noting_pure fun _ _ => by simp

variable [DecidableEq U]

theorem silent_joinParticipant : Silent LooksFirst (joinParticipant userId now) := by
  apply silent_updateParticipant.bind
  intro claimed
  refine Noting.ite (fun _ => noting_pure fun _ _ => trivial) fun _ => ?_
  apply silent_statement.bind
  intro existing
  refine Noting.ite (fun _ => noting_pure fun _ _ => trivial) fun _ => ?_
  exact silent_statement.bind fun inserted => silent_require.bind fun _ =>
    noting_pure fun _ _ => trivial

theorem silent_startSession {roster : List U} {authorized channelFree : Bool} :
    Silent LooksFirst (startSession users userId roster authorized channelFree now) :=
  silent_quiet <| silent_require.bind fun _ => silent_require.bind fun _ =>
    silent_require.bind fun _ => silent_statement.bind fun _ => silent_require.bind fun _ =>
    silent_require.bind fun _ => silent_statement.bind fun _ => noting_pure fun _ _ => by simp

omit [DecidableEq U] in
theorem silent_readSessionView : Silent LooksFirst (readSessionView users) :=
  silent_loadSession.bind fun _ => silent_statement.bind fun _ => noting_pure fun _ _ => trivial

omit [DecidableEq U] in
/-- A part that is left out in one branch. -/
theorem noting_unless {α β : Type} {p : Prop} [Decidable p] {first : Procedure U α}
    {f : α → Procedure U β} {a : α} {Q : β → Option (Label U × Rows U) → Prop}
    (hfirst : Silent LooksFirst first) (hf : ∀ a, Noting LooksFirst (fun _ => True) (f a) Q) :
    Noting LooksFirst (fun _ => True) (if p then pure a >>= f else first >>= f) Q :=
  Noting.ite (fun _ => hf a) fun _ => hfirst.bind hf

omit [DecidableEq U] in
theorem noting_when {α β : Type} {p : Prop} [Decidable p] {first : Procedure U α}
    {f : α → Procedure U β} {a : α} {Q : β → Option (Label U × Rows U) → Prop}
    (hfirst : Silent LooksFirst first) (hf : ∀ a, Noting LooksFirst (fun _ => True) (f a) Q) :
    Noting LooksFirst (fun _ => True) (if p then first >>= f else pure a >>= f) Q :=
  Noting.ite (fun _ => hfirst.bind hf) fun _ => hf a

theorem silent_joinSession {authorized : Bool} :
    Silent LooksFirst (joinSession users userId authorized now) := by
  refine silent_quiet <| silent_loadSession.bind fun session => silent_require.bind fun _ =>
    silent_require.bind fun _ => ?_
  apply noting_unless silent_updateSession
  intro answered
  apply silent_joinParticipant.bind
  intro transitioned
  apply noting_when silent_updateSession
  intro _
  refine silent_readSessionView.bind fun view => noting_pure fun _ _ u => ?_
  cases answered <;> cases transitioned <;> simp

omit [DecidableEq U] in
theorem silent_leaveSession : Silent LooksFirst (leaveSession users userId now) :=
  silent_quiet <| silent_loadSession.bind fun _ =>
    Noting.ite (fun _ => noting_pure fun _ _ => by simp) fun _ => quiet_leaveLoaded

omit [DecidableEq U] in
theorem silent_leaveAllActiveSessionsFor :
    Silent LooksFirst (leaveAllActiveSessionsFor users userId now) :=
  silent_quiet <| silent_statement.bind fun _ =>
    Noting.ite (fun _ => silent_loadSession.bind fun _ =>
      Noting.ite (fun _ => noting_pure fun _ _ => by simp) fun _ => quiet_leaveLoaded)
    fun _ => noting_pure fun _ _ => by simp

theorem silent_cancelSession : Silent LooksFirst (cancelSession users userId now) :=
  silent_quiet <| silent_loadSession.bind fun _ =>
    Noting.ite (fun _ => noting_pure fun _ _ => by simp) fun _ =>
      silent_require.bind fun _ => silent_endSessionRow.bind fun _ =>
        noting_pure fun _ _ => by simp

/-- A decline leaves the call to somebody only where it found somebody. -/
theorem silent_declineSession : Silent LooksFirst (declineSession users userId now) := by
  refine silent_transaction <| silent_loadSession.bind fun session => ?_
  refine Noting.ite (fun _ => noting_pure fun _ _ => looksFirst_of_quiet (by simp)) fun _ => ?_
  apply silent_updateParticipant.bind
  intro declined
  refine Noting.ite (fun _ => ?_) fun _ => noting_pure fun _ _ => looksFirst_of_quiet (by simp)
  refine Noting.bind (Q := fun stillInvited last => stillInvited = true → ∃ rows,
    last = some (.stillInvited userId, rows) ∧ ∃ w, Invited rows w)
    (noting_statement fun _ rows hfound => ⟨rows, rfl, ?_⟩) fun stillInvited => ?_
  · obtain ⟨w, _, hw⟩ := List.any_eq_true.mp hfound
    obtain ⟨p, hp, hstate⟩ := (Option.any_eq_true _ _).mp hw
    exact ⟨w, p, hp, by simpa using hstate⟩
  cases stillInvited with
  | false =>
    refine Noting.ite (fun _ rest hrest last _ => ?_) fun _ =>
      noting_pure fun _ _ => looksFirst_of_quiet (by simp)
    exact (silent_endSessionRow.bind fun _ => noting_pure fun _ _ =>
      looksFirst_of_quiet (by simp)) rest hrest last trivial
  | true =>
    refine Noting.ite (fun h => absurd h.1 (by simp)) fun _ => noting_pure fun last hfound u hu => ?_
    obtain rfl : u = userId := by simpa using hu
    exact hfound rfl

omit [DecidableEq U] in
theorem silent_requestRecording {authorized : Bool} :
    Silent LooksFirst (requestRecording userId authorized now) :=
  silent_authorizedSession.bind fun _ => silent_require.bind fun _ => silent_require.bind fun _ =>
    silent_quiet <| silent_updateSession.bind fun _ => silent_answerRecordingConsent.bind fun _ =>
      noting_pure fun _ _ => by simp

omit [DecidableEq U] in
theorem silent_answerRecording {agreed authorized : Bool} :
    Silent LooksFirst (answerRecording users userId agreed authorized now) := by
  refine silent_authorizedSession.bind fun _ => silent_require.bind fun _ => silent_quiet ?_
  apply silent_answerRecordingConsent.bind
  intro answered
  refine Noting.ite (fun _ => ?_) fun _ => noting_pure fun _ _ => by simp
  refine Noting.ite (fun _ => noting_pure fun _ _ => by simp) fun _ => ?_
  exact silent_updateSession.bind fun _ => silent_resetRecordingConsent.bind fun _ =>
    noting_pure fun _ _ => by simp

omit [DecidableEq U] in
theorem silent_startRecording {authorized : Bool} :
    Silent LooksFirst (startRecording authorized now : Procedure U Unit) :=
  silent_authorizedSession.bind fun _ => silent_require.bind fun _ => silent_quiet <|
    silent_loadSession.bind fun _ => silent_require.bind fun _ =>
      silent_updateSession.bind fun _ => noting_pure fun _ _ => by simp

omit [DecidableEq U] in
theorem silent_stopRecording {authorized : Bool} :
    Silent LooksFirst (stopRecording users authorized now) := by
  apply silent_authorizedSession.bind
  intro _
  refine Noting.ite (fun _ => noting_pure fun _ _ => trivial) fun _ => silent_quiet ?_
  exact silent_updateSession.bind fun _ => silent_resetRecordingConsent.bind fun _ =>
    noting_pure fun _ _ => by simp

theorem notes_calls (operation : Operation U) : Notes LooksFirst (calls users operation) none := by
  cases operation with
  | start => exact silent_startSession.script
  | join => exact silent_joinSession.script
  | leave => exact silent_leaveSession.script
  | removeMember => exact silent_leaveAllActiveSessionsFor.script
  | decline => exact silent_declineSession.script
  | cancel => exact silent_cancelSession.script
  | requestRecording => exact silent_requestRecording.script
  | answerRecording => exact silent_answerRecording.script
  | startRecording => exact silent_startRecording.script
  | stopRecording => exact silent_stopRecording.script

end

/-! ### From commit to commit -/

section
variable {U : Type} [DecidableEq U] {users : List U} {S : Type} [DecidableEq S]
  {sys sys' : System S (Key U) (Row U) (Label U) Unit (Event U)} {s : S}

/-- No transaction is about to commit a decline of `w` that leaves the call to
somebody else. -/
def Undeclined (sys : System S (Key U) (Row U) (Label U) Unit (Event U)) (w : U) : Prop :=
  ∀ s, .declined w true ∉ noted (sys.world.locals s) (.next () : Input (Operation U) Unit)

/-- A decline's look, in a call that rings, that finds somebody being rung: there
is somebody other than the decliner who is being rung, and for whom no decline is
about to commit. -/
def looksAtTheRung (sys : System S (Key U) (Row U) (Label U) Unit (Event U))
    (a : S × Input (Operation U) Unit) : Prop :=
  match sys.world.locals a.1, a.2 with
  | .statement (.stillInvited u) _ _, .next _ =>
    (∀ row, sessionOf sys.world.committed = some row → row.status = .ringing) →
    (∃ w, Invited (sys.world.view a.1) w) →
    ∃ w, w ≠ u ∧ Invited sys.world.committed w ∧ Undeclined sys w
  | _, _ => True

/-- A call that rings is rung by somebody who is not about to have declined, and
before the call nobody declines. -/
structure Answerable (sys : System S (Key U) (Row U) (Label U) Unit (Event U)) : Prop where
  unstarted : sessionOf sys.world.committed = none → ∀ w, Undeclined sys w
  ringing : ∀ row, sessionOf sys.world.committed = some row → row.status = .ringing →
    ∃ w, Invited sys.world.committed w ∧ Undeclined sys w

omit [DecidableEq U] in
/-- The session that moves is not about to leave the call to anybody. -/
theorem Undeclined.moved {w : U} (h : Undeclined sys w) {next : Script (Key U) (Row U) (Label U) Unit (Event U)}
    (hlocals : sys'.world.locals = Function.update sys.world.locals s next)
    (hnext : .declined w true ∉ noted next (.next () : Input (Operation U) Unit)) :
    Undeclined sys' w := by
  intro t
  rw [hlocals]
  by_cases hts : t = s
  · rwa [hts, Function.update_self]
  · rw [Function.update_of_ne hts]
    exact h t

omit [DecidableEq U] in
/-- A script that begins with a commit leaves the call to nobody. -/
theorem quiet_of_notes {script : Script (Key U) (Row U) (Label U) Unit (Event U)}
    (h : Notes LooksFirst script none) (w : U) :
    .declined w true ∉ noted script (.next () : Input (Operation U) Unit) := by
  intro hw
  cases script with
  | commit notes next =>
    obtain ⟨_, hlast, _⟩ := h.1 w hw
    cases hlast
  | idle => exact absurd hw List.not_mem_nil
  | statement => exact absurd hw List.not_mem_nil
  | rollback => exact absurd hw List.not_mem_nil

omit [DecidableEq U] in
/-- The committed rows stay, and the session that moves leaves the call to
nobody. -/
theorem Answerable.moved (h : Answerable sys) (hsame : sys'.world.committed = sys.world.committed)
    {next : Script (Key U) (Row U) (Label U) Unit (Event U)}
    (hlocals : sys'.world.locals = Function.update sys.world.locals s next)
    (hnext : ∀ w, .declined w true ∉ noted next (.next () : Input (Operation U) Unit)) :
    Answerable sys' := by
  refine ⟨fun hnone w => ?_, fun row hrow hring => ?_⟩
  · exact (h.unstarted (hsame ▸ hnone) w).moved hlocals (hnext w)
  · obtain ⟨w, hw, hundeclined⟩ := h.ringing row (hsame ▸ hrow) hring
    exact ⟨w, hsame ▸ hw, hundeclined.moved hlocals (hnext w)⟩

theorem answerable_step (hv : Valid (discipline S users False False) sys)
    (hn : Noted LooksFirst sys) (h : Answerable sys) {input : Input (Operation U) Unit}
    (hc : looksAtTheRung sys (s, input))
    (hmeets : (condition False False).Meets sys (s, input))
    (hstep : Script.step (calls users) sys (s, input) = some sys') : Answerable sys' := by
  obtain ⟨last, hs⟩ := hn s
  rcases step_cases hstep with ⟨c, hl, rfl, rfl⟩ | ⟨label, run, next, i, hl, rfl, hfree, rfl⟩ |
    ⟨notes, next, i, hl, rfl, rfl⟩ | ⟨next, hl, rfl⟩
  · exact h.moved rfl rfl (quiet_of_notes (notes_calls c))
  · rw [hl] at hs
    by_cases hquiet : ∀ w, .declined w true ∉ noted (next i (sys.world.view s))
        (.next () : Input (Operation U) Unit)
    · exact h.moved rfl rfl hquiet
    -- a decline has looked, and leaves the call to somebody
    obtain ⟨u, hu⟩ := not_forall_not.mp hquiet
    have hlooked (w : U) (hw : .declined w true ∈ noted (next i (sys.world.view s))
        (.next () : Input (Operation U) Unit)) :
        label = .stillInvited w ∧ ∃ v, Invited (sys.world.view s) v := by
      have hnotes := hs i (sys.world.view s)
      cases hnext : next i (sys.world.view s) with
      | commit notes rest =>
        rw [hnext] at hnotes hw
        obtain ⟨rows, hlast, hinvited⟩ := hnotes.1 w hw
        obtain ⟨rfl, rfl⟩ := Prod.mk.inj (Option.some.inj hlast)
        exact ⟨rfl, hinvited⟩
      | idle => simp [hnext, noted] at hw
      | statement => simp [hnext, noted] at hw
      | rollback => simp [hnext, noted] at hw
    obtain ⟨rfl, hinvited⟩ := hlooked u hu
    simp only [looksAtTheRung, hl] at hc
    have hmoved {w : U} (hne : w ≠ u) (hw : Undeclined sys w) :
        Undeclined (S := S) ⟨sys.world.run s (run i (sys.world.view s)).1
          (run i (sys.world.view s)).2 (next i (sys.world.view s)), sys.log⟩ w := by
      refine hw.moved rfl fun hdeclined => hne ?_
      exact (Label.stillInvited.inj (hlooked w hdeclined).1).symm
    refine ⟨fun hnone => ?_, fun row hrow hring => ?_⟩
    · obtain ⟨w, _, ⟨p, hp, _⟩, _⟩ := hc (fun row hrow => absurd (hnone.symm.trans hrow) (by simp))
        hinvited
      have := hv.inv.1.seated.started hnone w
      simp [hp] at this
    · obtain ⟨w, hne, hw, hundeclined⟩ := hc (fun row' hrow' => by
        rwa [Option.some.inj (hrow'.symm.trans hrow)]) hinvited
      exact ⟨w, hw, hmoved hne hundeclined⟩
  · rw [hl] at hs
    have hquiet := quiet_of_notes hs.2
    have hsafe := hv.safe s
    rw [hl] at hsafe
    simp only [Condition.Meets, hl] at hmeets
    have hguar : Commits False notes (sys.world.Owns s) sys.world.committed (sys.world.view s) :=
      (hsafe _ (discipline_lawful.refl _ _ _) hv.inv hmeets.1 hmeets.2).2.1
    refine ⟨fun hnone w => ?_, fun row' hrow' hring => ?_⟩
    · refine (h.unstarted ?_ w).moved rfl (hquiet w)
      cases hrow : sessionOf sys.world.committed with
      | none => rfl
      | some row =>
        obtain ⟨row', hrow', _⟩ := hguar.follows row hrow
        exact absurd (hnone.symm.trans hrow') (by simp)
    cases hrow : sessionOf sys.world.committed with
    -- the call has been started, and rings
    | none =>
      obtain ⟨w, _, hw⟩ := hguar.begins hrow row' hrow'
      exact ⟨w, hw, (h.unstarted hrow w).moved rfl (hquiet w)⟩
    | some row =>
      obtain ⟨row'', hrow'', hfollow⟩ := hguar.follows row hrow
      obtain rfl := Option.some.inj (hrow'.symm.trans hrow'')
      have hrang : row.status = .ringing := by
        by_contra hnot
        exact hfollow.ringing hnot hring
      obtain ⟨w, hw, hundeclined⟩ := h.ringing row hrow hrang
      refine ⟨w, ?_, hundeclined.moved rfl (hquiet w)⟩
      rcases hguar.rings w hw with hw' | hquiet' | hdeclined
      · exact hw'
      · exact absurd hring (hquiet' row' hrow')
      · have := hundeclined s
        rw [hl] at this
        exact absurd hdeclined this
  · refine h.moved rfl rfl ?_
    rcases hl with hl | ⟨_, rfl⟩
    · rw [hl] at hs
      exact quiet_of_notes hs
    · exact fun w => List.not_mem_nil

theorem meets_nothing (sys : System S (Key U) (Row U) (Label U) Unit (Event U))
    (a : S × Input (Operation U) Unit) : (condition False False).Meets sys a := by
  unfold Condition.Meets
  split
  · rename_i label _ _ _ _ _
    cases label <;> simp [condition]
  · exact ⟨trivial, trivial⟩
  · trivial

/-- Where every decline that looks finds somebody being rung who is not about to
have declined, or nobody, **a call that rings is rung by somebody**: whatever has
committed, somebody can still answer, or the call has been answered or ended. -/
theorem ringing_answerable (hnodup : users.Nodup)
    (h : StepSystem.ReachableWhen (Script.step (calls users)) looksAtTheRung
      (Script.initial noSession) sys) {row : SessionRow U}
    (hrow : sessionOf sys.world.committed = some row) (hring : row.status = .ringing) :
    ∃ u p, participantOf sys.world.committed u = some p ∧ p.state = .invited := by
  have hinv : Valid (discipline S users False False) sys ∧ Noted LooksFirst sys ∧
      Answerable sys := by
    refine h.invariant (I := fun sys => Valid (discipline S users False False) sys ∧
      Noted LooksFirst sys ∧ Answerable sys) ⟨valid_of_run hnodup .refl, noted_initial _, ?_⟩ ?_
    · exact ⟨fun _ _ _ => List.not_mem_nil, fun _ hrow => by cases hrow⟩
    · rintro sys ⟨s, input⟩ sys' ⟨hv, hn, hans⟩ hc hstep
      exact ⟨valid_step discipline_lawful (fun operation _ σ _ => safe_calls hnodup operation σ)
        hv (meets_nothing _ _) hstep, noted_step notes_calls hn hstep,
        answerable_step hv hn hans hc (meets_nothing _ _) hstep⟩
  obtain ⟨w, ⟨p, hp, hstate⟩, _⟩ := hinv.2.2.ringing row hrow hring
  exact ⟨w, p, hp, hstate⟩

end

/-! ### Runs of three people -/

instance {U : Type} {rows : Rows U} {u : U} : Decidable (Invited rows u) :=
  inferInstanceAs (Decidable (∃ p ∈ participantOf rows u, p.state = .invited))

instance {S U : Type} [DecidableEq S] [Fintype S] [DecidableEq U] [Fintype U]
    {sys : System S (Key U) (Row U) (Label U) Unit (Event U)}
    {a : S × Input (Operation U) Unit} : Decidable (looksAtTheRung sys a) := by
  unfold looksAtTheRung Undeclined
  split
  · exact inferInstanceAs (Decidable ((∀ row ∈ sessionOf sys.world.committed,
      row.status = .ringing) → _))
  · exact isTrue trivial

/-- The status of the call, what has become of each, and whether every session is
done with its calls. -/
def answers (sys : System Bool (Key (Fin 3)) (Row (Fin 3)) (Label (Fin 3)) Unit (Event (Fin 3))) :
    Option SessionStatus × List (Option ParticipantState) × Bool :=
  ((sessionOf sys.world.committed).map (·.status),
    people.map fun u => (participantOf sys.world.committed u).map (·.state),
    [false, true].all fun s => people.all fun u =>
      (Script.step (calls people) sys (s, .call (.leave u 0))).isSome)

/-- One of two who are rung declines, and the other can still answer. -/
theorem ringing_answerable_other :
    ∃ (sys : System Bool (Key (Fin 3)) (Row (Fin 3)) (Label (Fin 3)) Unit (Event (Fin 3)))
      (row : SessionRow (Fin 3)),
      sessionOf sys.world.committed = some row ∧ row.status = .ringing ∧
      ∃ u p, participantOf sys.world.committed u = some p ∧ p.state = .invited := by
  have hrun : (StepSystem.runWhen (Script.step (S := Bool) (calls people)) looksAtTheRung
      (Script.initial noSession) (whole false (.start 0 [0, 1, 2] true true 5) 3 ++
        whole true (.decline 1 6) 4)).map (fun sys =>
          (sessionOf sys.world.committed).map (·.status)) = some (some .ringing) := by
    decide
  obtain ⟨sys, hsys, hmap⟩ := Option.map_eq_some_iff.mp hrun
  obtain ⟨row, hrow, hring⟩ := Option.map_eq_some_iff.mp hmap
  exact ⟨sys, row, hrow, hring, ringing_answerable (by decide)
    (StepSystem.reachableWhen_of_runWhen hsys) hrow hring⟩

/-- Both who are rung decline, and each look finds the other: when all is
committed the call rings on for nobody. -/
theorem rings_for_nobody :
    ∃ sys : System Bool (Key (Fin 3)) (Row (Fin 3)) (Label (Fin 3)) Unit (Event (Fin 3)),
      StepSystem.Reachable (Script.step (calls people)) (Script.initial noSession) sys ∧
      answers sys = (some .ringing, [some .joined, some .declined, some .declined], true) := by
  have hrun : (StepSystem.run (Script.step (S := Bool) (calls people)) (Script.initial noSession)
      (whole false (.start 0 [0, 1, 2] true true 5) 3 ++ whole false (.decline 1 6) 3 ++
        whole true (.decline 2 7) 4 ++ [(false, .next ())])).map answers =
      some (some .ringing, [some .joined, some .declined, some .declined], true) := by
    decide
  obtain ⟨sys, hsys, hanswers⟩ := Option.map_eq_some_iff.mp hrun
  exact ⟨sys, StepSystem.reachable_of_run hsys, hanswers⟩

end CallSession
end TaskFlow
