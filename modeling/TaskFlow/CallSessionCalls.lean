import TaskFlow.CallSessionOperations

/-! # The operations of a call keep to the discipline

One operation after another: what a transaction knows between its statements,
and that it may commit at the end.  A transaction knows little until it has
claimed its participant, and only from its first write of the session row does
it know where the counters stand.
-/
namespace TaskFlow
namespace CallSession
open ReadCommitted ReadCommitted.Script ReadCommitted.Procedure

section
variable {U : Type} [DecidableEq U] {users : List U} {e c : Prop} {userId : U} {now : Int}
  {S : Type} {s : S} {session : SessionRow U} {A : Assertion S (Key U) (Row U) (Event U)}
  {notes : List (Event U)} {t : Transaction (Key U) (Row U)}
  {σ : Shared S (Key U) (Row U) (Event U)}

/-! ### Parts that operations share -/

omit [DecidableEq U] in
theorem loaded_stable : Stable (discipline S users e c) s (Loaded (Follows session)) :=
  Loaded.stable fun _ _ hfollow h => h.trans hfollow

theorem triple_loadSession : Triple (discipline S users e c) s (fun t _ => t = .none)
    loadSession fun session => Loaded (Follows session) := by
  refine Triple.bind (Q := fun session t σ => t = .none ∧ sessionOf σ.rows = session)
    (triple_select stable_none ?_) fun session => triple_ofOption ?_
  · rintro t σ rfl _ _ _ _
    exact ⟨rfl, rfl⟩
  · rintro row t σ rfl ⟨rfl, hrow⟩
    exact ⟨rfl, row, hrow, .refl row⟩

theorem settled_of_loaded {L : SessionRow U → Prop} (h : Loaded L t σ) :
    Settled users e c notes t σ := by
  obtain ⟨rfl, _⟩ := h
  exact Or.inl rfl

theorem settled_of_kept (h : Holding (fun _ => Kept users e c) t σ) :
    Settled users e c notes t σ :=
  Or.inr (Or.inr (Or.inl { h with know := h.know.final }))

theorem settled_of_final (h : Holding (Final users e c) t σ) : Settled users e c notes t σ :=
  Or.inr (Or.inr (Or.inl h))

/-- A whole call that is one transaction. -/
theorem triple_call {α : Type} {body : Procedure U (List (Event U) × α)}
    (h : Triple (discipline S users e c) s (fun t _ => t = .none) body fun r =>
      Settled users e c r.1) :
    Triple (discipline S users e c) s (fun t _ => t = .none) (transaction body)
      fun _ t _ => t = .none :=
  triple_transaction h (fun _ => settled_stable) fun _ _ _ hsettled hinv _ =>
    have ⟨hinv', hguar⟩ := settled_commit hsettled hinv
    ⟨hinv', hguar, rfl⟩

theorem kept_of_loaded {L : SessionRow U → Prop} (h : Loaded L t σ)
    (hinv : (discipline S users e c).inv σ) :
    Kept users e c (summary σ.rows) (summary (t.view σ)) := by
  obtain ⟨rfl, row, hrow, _⟩ := h
  exact .refl hinv.1 hrow

theorem tame_of_loaded {L : SessionRow U → Prop} (h : Loaded L t σ) : Tame t σ := by
  obtain ⟨rfl, _⟩ := h
  exact tame_none

/-! ### Leaving, declining, cancelling -/

theorem triple_isLastLegOut (hA : Stable (discipline S users e c) s A) (joinedCount : Int) :
    Triple (discipline S users e c) s A (isLastLegOut users joinedCount) fun _ => A := by
  unfold isLastLegOut
  refine Triple.ite (fun _ => triple_pure fun _ _ h => h) fun _ => ?_
  refine Triple.ite (fun _ => triple_pure fun _ _ h => h) fun _ => ?_
  exact Triple.bind (Q := fun _ => A) (triple_select hA fun _ _ h _ _ _ _ => h) fun _ =>
    triple_pure fun _ _ h => h

/-- The row of somebody who was in the call has been claimed by a leave. -/
def Leaving (userId : U) (now : Int) : Assertion S (Key U) (Row U) (Event U) := fun t σ =>
  ∃ p : Participant, p.state = .joined ∧
    Claimed userId (some p) { p with state := .left, leftAt := some now } (fun _ => True) t σ

omit [DecidableEq U] in
theorem leaving_stable :
    Stable (discipline S users e c) s (Leaving userId now) := by
  rintro t σ σ' ⟨p, hp, h⟩ hrely hinv
  exact ⟨p, hp, Claimed.stable (fun _ _ _ _ _ => trivial) t σ σ' h hrely hinv⟩

theorem triple_leaveLoaded (hnodup : users.Nodup) (loaded : SessionRow U) :
    Triple (discipline S users e c) s (Loaded (Follows session))
      (leaveLoaded users loaded userId now) fun r => Settled users e c r.1 := by
  have hkept : Stable (discipline S users e c) s (Holding fun _ => Kept users e c) :=
    Holding.stable
  refine Triple.bind (Q := fun left => if left then Leaving userId now else
    Loaded (Follows session)) (triple_updateParticipant loaded_stable ?_ ?_) fun left => ?_
  · intro t σ _ p p' h hinv _ hp hset
    split_ifs at hset with hstate
    obtain rfl := Option.some.inj hset
    obtain ⟨rfl, row, hrow, _⟩ := h
    exact ⟨p, hstate, claimed_of_loaded ⟨rfl, row, hrow, trivial⟩ hp (by simp)⟩
  · exact fun t σ h _ _ => h
  cases left with
  | false => exact triple_pure fun t σ h => settled_of_loaded h
  | true =>
    refine Triple.bind (Q := fun _ => Holding fun _ => Kept users e c)
      (triple_updateSession (P := fun _ _ => Kept users e c) leaving_stable
        (fun _ _ ⟨_, _, h⟩ => h.tame) (by simp) ?_ ?_ fun _ _ _ h => h) fun remaining => ?_
    · rintro t σ _ row _ ⟨p, hp, h⟩ hinv _ hrow ⟨rfl⟩ _
      refine ⟨Or.inl (h.keeps fun p' hp' => ?_), ?_⟩
      · rw [← Option.some.inj hp', hp]
        simp
      · rw [h.summary]
        rw [h.view_session] at hrow
        refine hinv.1.leave hnodup hrow ?_ ?_ ?_ <;> simp [h.old, hp, Participant.mark]
    · rintro t σ ⟨p, _, h⟩ _ hnone
      obtain ⟨row, hrow, _⟩ := h.session
      exact absurd (hnone row (h.view_session.trans hrow)) (by simp)
    refine Triple.bind (Q := fun _ => Holding fun _ => Kept users e c)
      (triple_isLastLegOut hkept _) fun shouldEnd => ?_
    cases shouldEnd with
    | false => exact triple_pure fun t σ h => settled_of_kept h
    | true =>
      refine Triple.bind (Q := fun _ => Holding fun _ => Kept users e c)
        (triple_endSessionRow hnodup hkept (fun _ _ h => h.toTame) fun _ _ h _ => h.know)
        fun ended => triple_pure fun t σ h => settled_of_kept h

theorem triple_leaveSession (hnodup : users.Nodup) :
    Triple (discipline S users e c) s (fun t _ => t = .none) (leaveSession users userId now)
      fun _ t _ => t = .none := by
  refine triple_call (Triple.bind (Q := fun session => Loaded (Follows session))
    triple_loadSession fun session => ?_)
  exact Triple.ite (fun _ => triple_pure fun _ _ h => settled_of_loaded h) fun _ =>
    triple_leaveLoaded hnodup session

theorem triple_leaveAllActiveSessionsFor (hnodup : users.Nodup) :
    Triple (discipline S users e c) s (fun t _ => t = .none)
      (leaveAllActiveSessionsFor users userId now) fun _ t _ => t = .none := by
  refine triple_call (Triple.bind (Q := fun _ t _ => t = .none)
    (triple_select stable_none fun _ _ h _ _ _ _ => h) fun joined => ?_)
  refine Triple.ite (fun _ => Triple.bind (Q := fun session => Loaded (Follows session))
    triple_loadSession fun session => ?_) fun _ => triple_pure fun _ _ h => Or.inl (h ▸ rfl)
  exact Triple.ite (fun _ => triple_pure fun _ _ h => settled_of_loaded h) fun _ =>
    triple_leaveLoaded hnodup session

/-- Somebody who was being rung declines, in a transaction that loaded `session`. -/
def Declining (session : SessionRow U) (userId : U) : Assertion S (Key U) (Row U) (Event U) :=
  fun t σ => ∃ p : Participant, p.state = .invited ∧
    Claimed userId (some p) { p with state := .declined } (Follows session) t σ

omit [DecidableEq U] in
theorem declining_stable : Stable (discipline S users e c) s (Declining session userId) := by
  rintro t σ σ' ⟨p, hp, h⟩ hrely hinv
  exact ⟨p, hp, Claimed.stable (fun _ _ hfollow _ h => h.trans hfollow) t σ σ' h hrely hinv⟩

theorem Declining.mark {p : Participant} (hp : p.state = .invited) :
    ({ p with state := .declined } : Participant).mark = p.mark := by
  simp [Participant.mark, hp]

theorem Declining.kept (h : Declining session userId t σ) (hinv : (discipline S users e c).inv σ) :
    Kept users e c (summary σ.rows) (summary (t.view σ)) := by
  obtain ⟨p, hp, h⟩ := h
  obtain ⟨row, hrow, _⟩ := h.session
  have hsummary : summary (t.view σ) = summary σ.rows := by
    rw [h.summary, mark hp]
    refine Summary.ext rfl (Function.update_eq_self_iff.mpr ?_)
    simp [h.old]
  rw [hsummary]
  exact .refl hinv.1 hrow

theorem triple_declineSession (hnodup : users.Nodup) :
    Triple (discipline S users e c) s (fun t _ => t = .none) (declineSession users userId now)
      fun _ t _ => t = .none := by
  refine triple_call (Triple.bind (Q := fun session => Loaded (Follows session))
    triple_loadSession fun session => ?_)
  refine Triple.ite (fun _ => triple_pure fun _ _ h => settled_of_loaded h) fun _ => ?_
  refine Triple.bind (Q := fun declined => if declined then Declining session userId else
    Loaded (Follows session)) (triple_updateParticipant loaded_stable ?_ ?_) fun declined => ?_
  · intro t σ _ p p' h _ _ hp hset
    split_ifs at hset with hstate
    obtain rfl := Option.some.inj hset
    exact ⟨p, hstate, claimed_of_loaded h hp (by simp)⟩
  · exact fun t σ h _ _ => h
  cases declined with
  | false => exact triple_pure fun t σ h => settled_of_loaded h
  | true =>
    refine Triple.bind (Q := fun _ => Declining session userId)
      (triple_select declining_stable fun _ _ h _ _ _ _ => h) fun stillInvited => ?_
    refine Triple.ite (fun _ => ?_) fun hnot => triple_pure fun t σ h => ?_
    · refine Triple.bind (Q := fun _ => Holding fun _ => Kept users e c)
        (triple_endSessionRow hnodup declining_stable (fun _ _ ⟨_, _, h⟩ => h.tame)
          fun _ _ h hinv => h.kept hinv) fun ended => triple_pure fun t σ h => settled_of_kept h
    -- the decline stands alone: somebody can still answer, or the call does not ring
    · obtain ⟨p, hp, h⟩ := h
      obtain ⟨row, hrow, hfollow⟩ := h.session
      refine Or.inr (Or.inl ⟨userId, p, _, { h with session := ⟨row, hrow, ?_⟩ },
        Declining.mark hp⟩)
      cases stillInvited with
      | true => exact Or.inl (List.mem_singleton_self _)
      | false => exact Or.inr (hfollow.ringing fun hring => hnot ⟨rfl, hring⟩)

theorem triple_cancelSession (hnodup : users.Nodup) :
    Triple (discipline S users e c) s (fun t _ => t = .none) (cancelSession users userId now)
      fun _ t _ => t = .none := by
  refine triple_call (Triple.bind (Q := fun session => Loaded (Follows session))
    triple_loadSession fun session => ?_)
  refine Triple.ite (fun _ => triple_pure fun _ _ h => settled_of_loaded h) fun _ => ?_
  refine Triple.bind (Q := fun _ => Loaded (Follows session))
    (triple_require fun _ _ h _ => h) fun _ => ?_
  exact Triple.bind (Q := fun _ => Holding fun _ => Kept users e c)
    (triple_endSessionRow hnodup loaded_stable (fun _ _ h => tame_of_loaded h)
      fun _ _ h hinv => kept_of_loaded h hinv) fun ended =>
    triple_pure fun t σ h => settled_of_kept h

/-! ### Joining -/

/-- The call has been answered by the transaction. -/
def Answered (users : List U) (e c : Prop) (a a' : Summary U) : Prop :=
  Kept users e c a a' ∧ ∃ row row', a.session = some row ∧ a' = ⟨some row', a.marks⟩ ∧
    Answers row row' ∧ row'.status ≠ .ringing

/-- The call no longer rings, or it is the caller who joins. -/
def Answering (users : List U) (e c : Prop) (userId : U) : Assertion S (Key U) (Row U) (Event U) :=
  fun t σ => Loaded (fun row => row.status ≠ .ringing ∨ row.initiatedBy = userId) t σ ∨
    Holding (fun _ => Answered users e c) t σ

theorem answering_stable :
    Stable (discipline S users e c) s (Answering users e c userId) := by
  rintro t σ σ' (h | h) hrely hinv
  · refine Or.inl (Loaded.stable (fun row row' hfollow h => ?_) t σ σ' h hrely hinv)
    exact h.imp hfollow.ringing hfollow.initiatedBy.trans
  · exact Or.inr (Holding.stable t σ σ' h hrely hinv)

/-- A row that a join makes of another, or of none. -/
structure Joins (old : Option Participant) (new : Participant) : Prop where
  before : old.any (·.mark.joined) = false
  state : new.state = .joined
  consent : new.mark.consent = old.bind (·.mark.consent)

/-- The joiner is in the call, and not yet counted. -/
structure Uncounted (userId : U) (a a' : Summary U) (row row' : SessionRow U) (m : Mark) :
    Prop where
  session : a.session = some row
  after : a' = ⟨some row', Function.update a.marks userId (some m)⟩
  answers : Answers row row'
  before : (a.marks userId).any (·.joined) = false
  joined : m.joined = true
  consent : m.consent = (a.marks userId).bind (·.consent)

/-- The joiner's row has been claimed. -/
def Joining (userId : U) : Assertion S (Key U) (Row U) (Event U) := fun t σ =>
  (∃ old new, Joins old new ∧ Claimed userId old new
    (fun row => row.status ≠ .ringing ∨ row.initiatedBy = userId) t σ) ∨
  Holding (fun _ a a' => ∃ row row' m, Uncounted userId a a' row row' m ∧
    row'.status ≠ .ringing) t σ

theorem joining_stable : Stable (discipline S users e c) s (Joining userId) := by
  rintro t σ σ' (⟨old, new, hjoins, h⟩ | h) hrely hinv
  · refine Or.inl ⟨old, new, hjoins, Claimed.stable (fun row row' hfollow _ h => ?_)
      t σ σ' h hrely hinv⟩
    exact h.imp hfollow.ringing hfollow.initiatedBy.trans
  · exact Or.inr (Holding.stable t σ σ' h hrely hinv)

theorem Joining.tame (h : Joining userId t σ) : Tame t σ := by
  rcases h with ⟨_, _, _, h⟩ | h
  · exact h.tame
  · exact h.toTame

/-- Nobody stops being rung by the join but in a call that no longer rings: the
caller was not being rung. -/
theorem Joining.uncounted (h : Joining userId t σ) (hinv : (discipline S users e c).inv σ) :
    ∃ row row' m, Uncounted userId (summary σ.rows) (summary (t.view σ)) row row' m ∧
      (Keeps t σ ∨ row'.status ≠ .ringing) := by
  rcases h with ⟨old, new, hjoins, h⟩ | h
  · obtain ⟨row, hrow, hquiet⟩ := h.session
    refine ⟨row, row, new.mark, ⟨hrow, ?_, .refl row, ?_, ?_, ?_⟩, ?_⟩
    · rw [h.summary]
      exact Summary.ext hrow rfl
    · rw [summary_marks, h.old, Option.any_map]
      exact hjoins.before
    · simp [Participant.mark, hjoins.state]
    · rw [summary_marks, h.old, hjoins.consent, Option.bind_map]
      rfl
    · rcases hquiet with hquiet | rfl
      · exact Or.inr hquiet
      · refine Or.inl (h.keeps fun p hp hstate => hinv.2 row hrow ⟨p, ?_, hstate⟩)
        exact h.old.trans hp
  · obtain ⟨row, row', m, hun, hquiet⟩ := h.know
    exact ⟨row, row', m, hun, Or.inr hquiet⟩

/-- The joiner's row is written. -/
theorem Answering.write {old : Option Participant} {new : Participant}
    (h : Answering users e c userId t σ) (hp : participantOf (t.view σ) userId = old)
    (hjoins : Joins old new) :
    Joining userId (t.run [] [(.participant userId, .participant (some new))]) σ := by
  have hstate : new.state ≠ .invited := by simp [hjoins.state]
  rcases h with h | h
  · exact Or.inl ⟨old, new, hjoins, claimed_of_loaded h hp hstate⟩
  · obtain ⟨_, row, row', hrow, hview, hans, hquiet⟩ := h.know
    have hmark : ((summary σ.rows).marks userId) = old.map Participant.mark := by
      have := congrArg (fun a => a.marks userId) hview
      simpa [hp] using this.symm
    refine Or.inr (h.write_participant (fun hinvited => absurd hinvited hstate) (Or.inr ?_)
      ⟨row, row', new.mark, ⟨hrow, ?_, hans, ?_, ?_, ?_⟩, hquiet⟩)
    · intro row'' hrow''
      have := congrArg Summary.session hview
      simp only [summary_session] at this
      exact Option.some.inj (this.symm.trans hrow'') ▸ hquiet
    · rw [hview]
    · rw [hmark, Option.any_map]
      exact hjoins.before
    · simp [Participant.mark, hjoins.state]
    · rw [hmark, hjoins.consent, Option.bind_map]
      rfl

theorem triple_joinParticipant :
    Triple (discipline S users e c) s (Answering users e c userId) (joinParticipant userId now)
      fun transitioned => if transitioned then Joining userId else Answering users e c userId := by
  refine Triple.bind (Q := fun claimed => if claimed then Joining userId else
    Answering users e c userId) (triple_updateParticipant answering_stable ?_ ?_) fun claimed => ?_
  · intro t σ _ p p' h _ _ hp hset
    split_ifs at hset with hstate
    obtain rfl := Option.some.inj hset
    exact h.write hp ⟨by simpa [Participant.mark] using hstate, rfl, rfl⟩
  · exact fun t σ h _ _ => h
  cases claimed with
  | true => exact triple_pure fun _ _ h => h
  | false =>
    refine Triple.bind (Q := fun _ => Answering users e c userId)
      (triple_select answering_stable fun _ _ h _ _ _ _ => h) fun existing => ?_
    refine Triple.ite (fun _ => triple_pure fun _ _ h => h) fun _ => ?_
    refine Triple.bind (Q := fun inserted t σ => inserted = true → Joining userId t σ)
      (triple_statement answering_stable ?_) fun inserted =>
        Triple.bind (Q := fun _ => Joining userId) (triple_require fun _ _ h hins => h hins)
          fun _ => triple_pure fun _ _ h => h
    intro t σ _ _ h _ _ _ hnone
    simp only [hnone, if_true]
    have hp : participantOf (t.view σ) userId = none := by simpa using hnone
    exact h.write hp ⟨rfl, rfl, rfl⟩

/-- The join is over. -/
def JoinDone (users : List U) (e c : Prop) (userId : U) : Assertion S (Key U) (Row U) (Event U) :=
  fun t σ => Answering users e c userId t σ ∨ Holding (fun _ => Kept users e c) t σ

theorem joinDone_stable : Stable (discipline S users e c) s (JoinDone users e c userId) := by
  rintro t σ σ' (h | h) hrely hinv
  · exact Or.inl (answering_stable t σ σ' h hrely hinv)
  · exact Or.inr (Holding.stable t σ σ' h hrely hinv)

theorem JoinDone.settled (h : JoinDone users e c userId t σ) : Settled users e c notes t σ := by
  rcases h with (h | h) | h
  · exact settled_of_loaded h
  · exact settled_of_kept { h with know := h.know.1 }
  · exact settled_of_kept h

/-- The joiner is counted. -/
theorem triple_countJoin (hnodup : users.Nodup) (hu : userId ∈ users) (state : RecordingState) :
    Triple (discipline S users e c) s (Joining userId)
      (updateSession (.countJoin userId state) fun row => some { row with
        joinedCount := row.joinedCount + 1
        recordingState := if state = .active then .pending else row.recordingState })
      fun _ => JoinDone users e c userId := by
  refine triple_updateSession (P := fun _ _ => Kept users e c) joining_stable
    (fun _ _ h => h.tame) (by simp) ?_ ?_ fun _ _ _ h => Or.inr h
  · rintro t σ _ row _ h hinv ⟨hended, hactive⟩ hrow ⟨rfl⟩ _
    obtain ⟨row₀, row', m, hun, hkeeps⟩ := h.uncounted hinv
    have hview := hun.after
    obtain rfl : row = row' := Option.some.inj
      (hrow.symm.trans (congrArg Summary.session hview))
    refine ⟨hkeeps, ?_⟩
    rw [hview]
    refine hinv.1.join hnodup hu hun.session hun.answers hun.before hun.joined hun.consent
      (fun he => hended he row hrow) fun hc hrec => (hactive hc row hrow hrec).imp_right ?_
    rintro ⟨p, hp, hconsent⟩
    have hm := congrFun (congrArg Summary.marks hview) userId
    simp only [summary_marks, hp, Option.map_some, Function.update_self, Option.some.injEq] at hm
    simp [← hm, Participant.mark, hconsent]
  · intro t σ h hinv hnone
    obtain ⟨_, row', _, hun, _⟩ := h.uncounted hinv
    exact absurd (hnone row' (congrArg Summary.session hun.after)) (by simp)

theorem triple_readSessionView (hA : Stable (discipline S users e c) s A) :
    Triple (discipline S users e c) s A (readSessionView users) fun _ => A := by
  refine Triple.bind (Q := fun _ => A) (Triple.bind (Q := fun _ => A)
    (triple_select hA fun _ _ h _ _ _ _ => h) fun _ => triple_ofOption fun _ _ _ _ h => h)
    fun session => ?_
  exact Triple.bind (Q := fun _ => A) (triple_select hA fun _ _ h _ _ _ _ => h) fun _ =>
    triple_pure fun _ _ h => h

/-- The call is answered, unless the caller joins it. -/
theorem triple_answer {β : Type} {f : Option (SessionRow U) → Procedure U β}
    {R : β → Assertion S (Key U) (Row U) (Event U)}
    (hf : ∀ answered, Triple (discipline S users e c) s (Answering users e c userId) (f answered) R) :
    Triple (discipline S users e c) s (Loaded (Follows session))
      (if userId = session.initiatedBy then f none
        else (updateSession .write fun row =>
          if row.status = .ringing then some { row with status := .active, startedAt := some now }
          else none) >>= f) R := by
  refine Triple.ite (fun huser => (hf none).conseq ?_ fun _ _ _ h => h) fun _ => ?_
  · rintro t σ ⟨hfresh, row, hrow, hfollow⟩
    exact Or.inl ⟨hfresh, row, hrow, Or.inr (hfollow.initiatedBy.trans huser.symm)⟩
  refine Triple.bind (Q := fun _ => Answering users e c userId)
    (triple_updateSession (P := fun _ _ => Answered users e c) loaded_stable
      (fun _ _ h => tame_of_loaded h) ?_ ?_ ?_ fun _ _ _ h => Or.inr h) hf
  · intro row row' hset hring
    simp [hring] at hset
  · intro t σ _ row row' h hinv _ hrow hset _
    split_ifs at hset with hring
    obtain rfl := Option.some.inj hset
    obtain ⟨rfl, _⟩ := h
    have hans : Answers row { row with status := .active, startedAt := some now } :=
      ⟨⟨rfl, by simp, by simp [hring]⟩, by simp, rfl, rfl, rfl, rfl⟩
    have hrow : (summary σ.rows).session = some row := hrow
    refine ⟨Or.inr (by simp), ⟨hinv.1.answers hrow hans, row, _, hrow, rfl, hans.follows,
      fun hopen => ⟨hans.open_iff.mpr hopen, rfl⟩⟩, row, _, hrow, rfl, hans, by simp⟩
  · rintro t σ ⟨rfl, row, hrow, _⟩ _ hnone
    refine Or.inl ⟨rfl, row, hrow, Or.inl fun hring => ?_⟩
    simpa [hring] using hnone row hrow

theorem triple_joinSession (hnodup : users.Nodup) {authorized : Bool} :
    Triple (discipline S users e c) s (fun t _ => t = .none)
      (joinSession users userId authorized now) fun _ t _ => t = .none := by
  refine triple_call (Triple.bind (Q := fun session => Loaded (Follows session))
    triple_loadSession fun session => ?_)
  by_cases hu : userId ∈ users
  · refine Triple.bind (Q := fun _ => Loaded (Follows session))
      (triple_require fun _ _ h _ => h) fun _ => ?_
    refine Triple.bind (Q := fun _ => Loaded (Follows session))
      (triple_require fun _ _ h _ => h) fun _ => ?_
    apply triple_answer
    intro answered
    refine Triple.bind (Q := fun transitioned => if transitioned then Joining userId else
      Answering users e c userId) triple_joinParticipant fun transitioned => ?_
    have hview (notes : List (Event U)) : Triple (discipline S users e c) s
        (JoinDone users e c userId) (do let view ← readSessionView users; pure (notes, view))
        fun r => Settled users e c r.1 :=
      Triple.bind (Q := fun _ => JoinDone users e c userId)
        (triple_readSessionView joinDone_stable) fun view => triple_pure fun _ _ h => h.settled
    cases transitioned with
    | true => exact Triple.bind (triple_countJoin hnodup hu _) fun _ => hview _
    | false => exact (hview _).conseq (fun _ _ h => Or.inl h) fun _ _ _ h => h
  -- only people of the organization get in
  · exact Triple.bind (Q := fun _ _ _ => False) (triple_require fun _ _ _ hp => hu hp.2) fun _ =>
      fun _ _ _ _ h => h.elim

/-! ### Recording -/

/-- The session is loaded in a transaction that is over before the next begins. -/
theorem triple_authorizedSession {authorized : Bool} :
    Triple (discipline S users e c) s (fun t _ => t = .none) (authorizedSession authorized)
      fun session => Loaded (Follows session) := by
  refine triple_transaction (R := fun r => Loaded (Follows r.2))
    (Triple.bind (Q := fun session => Loaded (Follows session)) triple_loadSession fun session =>
      Triple.bind (Q := fun _ => Loaded (Follows session)) (triple_require fun _ _ h _ => h)
        fun _ => triple_pure fun _ _ h => h) (fun _ => loaded_stable) ?_
  rintro ⟨notes, session⟩ t σ h hinv _
  have hsettled : Settled users e c notes t σ := settled_of_loaded h
  obtain ⟨hinv', hguar⟩ := settled_commit (s := s) hsettled hinv
  obtain ⟨rfl, hsession⟩ := h
  exact ⟨hinv', hguar, rfl, hsession⟩

/-- The second transaction of an operation on the recording. -/
theorem triple_second {α : Type} {body : Procedure U (List (Event U) × α)}
    (h : Triple (discipline S users e c) s (Loaded (Follows session)) body fun r =>
      Settled users e c r.1) :
    Triple (discipline S users e c) s (Loaded (Follows session)) (transaction body)
      fun _ t _ => t = .none :=
  triple_transaction h (fun _ => settled_stable) fun _ _ _ hsettled hinv _ =>
    have ⟨hinv', hguar⟩ := settled_commit hsettled hinv
    ⟨hinv', hguar, rfl⟩

omit [DecidableEq U] in
theorem Seated.resetting (h : Seated users e (summary σ.rows)) {row row' : SessionRow U}
    (hrow : sessionOf σ.rows = some row) (hfollow : Follows row row')
    (hjoined : row'.joinedCount = row.joinedCount)
    (hended : row'.status = .ended → row.status = .ended) (hclosed : ¬row'.Open) :
    Resetting users e (summary σ.rows) { summary σ.rows with session := some row' } :=
  ⟨h.session hrow hjoined hended, fun _ h => h, row, row', hrow, rfl, hfollow, hclosed⟩

theorem triple_stopRecording (hnodup : users.Nodup) {authorized : Bool} :
    Triple (discipline S users e c) s (fun t _ => t = .none)
      (stopRecording users authorized now) fun _ t _ => t = .none := by
  refine Triple.bind (Q := fun session => Loaded (Follows session)) triple_authorizedSession
    fun session => ?_
  refine Triple.ite (fun _ => triple_pure fun _ _ h => h.fresh) fun _ => triple_second ?_
  refine Triple.bind (Q := fun _ => Holding fun _ => Resetting users e)
    (triple_updateSession (P := fun _ _ => Resetting users e) loaded_stable
      (fun _ _ h => tame_of_loaded h) (by simp) ?_ ?_ fun _ _ _ h => h) fun _ => ?_
  · rintro t σ _ row _ ⟨rfl, _⟩ hinv _ hrow ⟨rfl⟩ _
    refine ⟨Or.inl keeps_none, hinv.1.seated.resetting hrow ⟨rfl, id, id⟩ rfl id ?_⟩
    simp only [SessionRow.Open]
    split <;> simp
  · rintro t σ ⟨rfl, row, hrow, _⟩ _ hnone
    exact absurd (hnone row hrow) (by simp)
  exact Triple.bind (Q := fun _ => Holding (Final users e c)) (triple_resetRecordingConsent hnodup)
    fun _ => triple_pure fun _ _ h => settled_of_final h

theorem triple_startRecording (hnodup : users.Nodup) {authorized : Bool} :
    Triple (discipline S users e c) s (fun t _ => t = .none) (startRecording authorized now)
      fun _ t _ => t = .none := by
  refine Triple.bind (Q := fun session => Loaded (Follows session)) triple_authorizedSession
    fun session => ?_
  refine Triple.bind (Q := fun _ => Loaded (Follows session))
    (triple_require fun _ _ h _ => h) fun _ => triple_second ?_
  refine Triple.bind (Q := fun current => Loaded (Follows current))
    ((triple_loadSession).conseq (fun _ _ h => h.fresh) fun _ _ _ h => h) fun current => ?_
  refine Triple.bind (Q := fun _ => Loaded (Follows current))
    (triple_require fun _ _ h _ => h) fun _ => ?_
  refine Triple.bind (Q := fun _ t σ => Loaded (Follows current) t σ ∨
      Holding (fun _ => Kept users e c) t σ)
    (triple_updateSession (P := fun _ _ => Kept users e c) loaded_stable
      (fun _ _ h => tame_of_loaded h) ?_ ?_ ?_ fun _ _ _ h => Or.inr h) fun _ =>
    triple_pure fun _ _ h => h.elim settled_of_loaded settled_of_kept
  · intro row row' hset hring
    split_ifs at hset
    exact Option.some.inj hset ▸ hring
  -- the CHECK compares the counters of the row it starts
  · rintro t σ _ row row' ⟨rfl, _⟩ hinv hall hrow hset hchecked
    split_ifs at hset with hpending
    obtain rfl := Option.some.inj hset
    have hcount : row.joinedCount ≤ row.consentCount := by
      simpa using hchecked.2.2.2.2.2.1
    have hrow : (summary σ.rows).session = some row := hrow
    refine ⟨Or.inl keeps_none, hinv.1.start hnodup hrow _ hcount fun hc => ?_,
      row, _, hrow, rfl, ⟨rfl, id, id⟩, fun _ => ⟨Or.inr rfl, rfl⟩⟩
    refine (hall hc).imp (fun hall v m hm hjoined => ?_) fun hall v m hm hconsent => ?_
    all_goals obtain ⟨p, hp, rfl⟩ := Option.map_eq_some_iff.mp hm
    · rw [mark_joined] at hjoined
      exact mark_consent.mpr (hall v p hp hjoined)
    · exact mark_joined.mpr (hall v p hp (mark_consent.mp hconsent))
  · exact fun t σ h _ _ => Or.inl h

/-- Somebody in the call who had given no answer gives one. -/
structure Answer (old new : Participant) (consent : Option Nat) : Prop where
  before : old.mark = ⟨true, none⟩
  after : new.mark = ⟨true, consent⟩
  rung : old.state ≠ .invited
  state : new.state ≠ .invited

omit [DecidableEq U] in
theorem answer_of_set {agreed : Bool} {request : Nat} {p p' : Participant}
    (h : (if p.state = .joined ∧ p.recordingConsentAt = none ∧ p.recordingDeclinedAt = none then
      some (if agreed then { p with recordingConsentAt := some now, consentFor := request }
        else { p with recordingDeclinedAt := some now }) else none) = some p') :
    Answer p p' (if agreed then some request else none) := by
  split_ifs at h with hp hagreed
  all_goals
    obtain rfl := Option.some.inj h
    constructor <;> simp [Participant.mark, hp.1, hp.2.1, hagreed]

/-- An answer has been written, in a transaction that has not reached the session. -/
def AnswerWritten (c : Prop) (userId : U) (agreed : Bool) (request : Nat) :
    Assertion S (Key U) (Row U) (Event U) := fun t σ =>
  ∃ old new, Answer old new (if agreed then some request else none) ∧
    Claimed userId (some old) new (fun row => agreed = true → c → row.Open ∧ row.request = request)
      t σ

omit [DecidableEq U] in
theorem answerWritten_stable {agreed : Bool} {request : Nat} :
    Stable (discipline S users e c) s (AnswerWritten c userId agreed request) := by
  rintro t σ σ' ⟨old, new, hanswer, h⟩ hrely hinv
  refine ⟨old, new, hanswer, Claimed.stable (fun row row' _ hkeeps h hagreed hc => ?_)
    t σ σ' h hrely hinv⟩
  obtain ⟨hopen, hrequest⟩ := h hagreed hc
  obtain ⟨hopen', hrequest'⟩ := hkeeps rfl hc hopen
  exact ⟨hopen', hrequest'.trans hrequest⟩

theorem AnswerWritten.keeps {agreed : Bool} {request : Nat}
    (h : AnswerWritten c userId agreed request t σ) : Keeps t σ := by
  obtain ⟨old, new, hanswer, h⟩ := h
  exact h.keeps fun p hp => Option.some.inj hp ▸ hanswer.rung

theorem triple_answerRecordingConsent (hnodup : users.Nodup) (agreed : Bool) (request : Nat) :
    Triple (discipline S users e c) s (Loaded (Follows session))
      (answerRecordingConsent userId agreed request now) fun answered =>
        if answered then if agreed then Holding fun _ => Kept users e c
          else AnswerWritten c userId false request
        else Loaded (Follows session) := by
  refine Triple.bind (Q := fun claimed => if claimed then AnswerWritten c userId agreed request
    else Loaded (Follows session)) (triple_updateParticipant loaded_stable ?_ ?_) fun claimed => ?_
  · rintro t σ _ p p' ⟨rfl, row, hrow, _⟩ _ hcond hp hset
    refine ⟨p, p', answer_of_set hset, claimed_of_loaded ⟨rfl, row, hrow, fun hagreed hc => ?_⟩ hp
      (answer_of_set hset).state⟩
    rw [hagreed, if_pos rfl] at hcond
    exact hcond hc row hrow
  · exact fun t σ h _ _ => h
  cases claimed with
  | false => exact triple_pure fun _ _ h => h
  | true =>
    cases agreed with
    | false => exact triple_pure fun _ _ h => h
    | true =>
      refine Triple.bind (Q := fun _ => Holding fun _ => Kept users e c)
        (triple_updateSession (P := fun _ _ => Kept users e c) answerWritten_stable
          (fun _ _ ⟨_, _, _, h⟩ => h.tame) (by simp) ?_ ?_ fun _ _ _ h => h) fun _ =>
        triple_pure fun _ _ h => h
      · rintro t σ _ row _ hwritten hinv _ hrow ⟨rfl⟩ _
        refine ⟨Or.inl hwritten.keeps, ?_⟩
        obtain ⟨old, new, hanswer, h⟩ := hwritten
        rw [h.view_session] at hrow
        rw [h.summary]
        have hold : (summary σ.rows).marks userId = some old.mark := by simp [h.old]
        refine hinv.1.agree hnodup hrow (.refl row) hold (n := request) ?_ ?_ fun hc => ?_
        · simp [hanswer.before]
        · rw [hanswer.after, hanswer.before]
          rfl
        · obtain ⟨row', hrow', hopen⟩ := h.session
          exact Option.some.inj (hrow'.symm.trans hrow) ▸ hopen rfl hc
      · rintro t σ ⟨_, _, _, h⟩ _ hnone
        obtain ⟨row, hrow, _⟩ := h.session
        exact absurd (hnone row (h.view_session.trans hrow)) (by simp)

theorem triple_answerRecording (hnodup : users.Nodup) {agreed authorized : Bool} :
    Triple (discipline S users e c) s (fun t _ => t = .none)
      (answerRecording users userId agreed authorized now) fun _ t _ => t = .none := by
  refine Triple.bind (Q := fun session => Loaded (Follows session)) triple_authorizedSession
    fun session => ?_
  refine Triple.bind (Q := fun _ => Loaded (Follows session))
    (triple_require fun _ _ h _ => h) fun _ => triple_second ?_
  refine Triple.bind (triple_answerRecordingConsent hnodup agreed session.request)
    fun answered => ?_
  cases answered with
  | false => exact triple_pure fun _ _ h => settled_of_loaded h
  | true =>
    cases agreed with
    | true => exact triple_pure fun _ _ h => settled_of_kept h
    -- a refusal stops the recording, and clears everybody's answer
    | false =>
      refine Triple.bind (Q := fun _ => Holding fun _ => Resetting users e)
        (triple_updateSession (P := fun _ _ => Resetting users e) answerWritten_stable
          (fun _ _ ⟨_, _, _, h⟩ => h.tame) (by simp) ?_ ?_ fun _ _ _ h => h) fun _ => ?_
      · rintro t σ _ row _ hwritten hinv _ hrow ⟨rfl⟩ _
        refine ⟨Or.inl hwritten.keeps, ?_⟩
        obtain ⟨old, new, hanswer, h⟩ := hwritten
        have hsame : summary (t.view σ) = summary σ.rows := by
          rw [h.summary]
          refine Summary.ext rfl (Function.update_eq_self_iff.mpr ?_)
          rw [summary_marks, h.old, Option.map_some, hanswer.before, hanswer.after]
          rfl
        rw [h.view_session] at hrow
        rw [hsame]
        exact hinv.1.seated.resetting hrow ⟨rfl, id, id⟩ rfl id (by simp [SessionRow.Open])
      · rintro t σ ⟨_, _, _, h⟩ _ hnone
        obtain ⟨row, hrow, _⟩ := h.session
        exact absurd (hnone row (h.view_session.trans hrow)) (by simp)
      exact Triple.bind (Q := fun _ => Holding (Final users e c))
        (triple_resetRecordingConsent hnodup) fun _ => triple_pure fun _ _ h => settled_of_final h

/-- The recording has been requested by the transaction, and nobody was asking
for one before. -/
structure Requested (users : List U) (e c : Prop) (row' : SessionRow U) (a a' : Summary U) :
    Prop where
  sound : Sound users e c a'
  session : a'.session = some row'
  pending : row'.recordingState = .pending
  before : ∃ row, a.session = some row ∧ Follows row row' ∧ (c → ¬row.Open)

omit [DecidableEq U] in
theorem Requested.final {row' : SessionRow U} {a a₁ a' : Summary U} {own : Key U → Prop}
    (h : Requested users e c row' a a₁) (hkept : Kept users e c a₁ a') :
    Final users e c own a a' := by
  obtain ⟨row, hrow, hfollow, hclosed⟩ := h.before
  obtain ⟨hsound, row₁, row₂, h₁, h₂, hfollow', _⟩ := hkept
  obtain rfl := Option.some.inj (h₁.symm.trans h.session)
  refine ⟨hsound, by simp [hrow], fun row₃ h₃ => ?_, fun hc row₃ row₄ h₃ _ => ?_⟩
  · obtain rfl := Option.some.inj (hrow.symm.trans h₃)
    exact ⟨row₂, h₂, hfollow.trans hfollow'⟩
  · obtain rfl := Option.some.inj (hrow.symm.trans h₃)
    exact Or.inl fun hopen => absurd hopen (hclosed hc)

/-- Who asks for the recording agrees to it. -/
theorem triple_requesterConsents (hnodup : users.Nodup) {row' : SessionRow U} :
    Triple (discipline S users e c) s (Holding fun _ => Requested users e c row')
      (answerRecordingConsent userId true row'.request now)
      fun _ => Holding (Final users e c) := by
  have hfinal {a a₁ : Summary U} {own : Key U → Prop} (h : Requested users e c row' a a₁) :
      Final users e c own a a₁ := h.final (.refl h.sound h.session)
  -- the agreement is on top of rows where the request is right
  let P (_ : Key U → Prop) (a a' : Summary U) : Prop := ∃ a₁ m, Requested users e c row' a a₁ ∧
    a' = ⟨some row', Function.update a₁.marks userId (some m)⟩ ∧
    a₁.marks userId = some ⟨true, none⟩ ∧ m = ⟨true, some row'.request⟩
  refine Triple.bind (Q := fun claimed => if claimed then Holding P else
    Holding fun _ => Requested users e c row')
    (triple_updateParticipant Holding.stable ?_ ?_) fun claimed => ?_
  · intro t σ _ p p' h _ _ hp hset
    have hanswer : Answer p p' (if true then some row'.request else none) :=
      answer_of_set hset
    refine h.write_participant (fun hstate => absurd hstate hanswer.state) (Or.inl ?_) ?_
    · rintro ⟨p'', hp'', hstate⟩
      obtain rfl := Option.some.inj (hp.symm.trans hp'')
      exact absurd hstate hanswer.rung
    · refine ⟨_, p'.mark, h.know, ?_, ?_, hanswer.after⟩
      · exact Summary.ext h.know.session rfl
      · simp [hp, hanswer.before]
  · exact fun t σ h _ _ => h
  cases claimed with
  | false => exact triple_pure fun _ _ h => { h with know := hfinal h.know }
  | true =>
    refine Triple.bind (Q := fun _ => Holding (Final users e c))
      (triple_updateSession (P := fun _ => Final users e c) Holding.stable
        (fun _ _ h => h.toTame) (by simp) ?_ ?_ fun _ _ _ h => h) fun _ =>
      triple_pure fun _ _ h => h
    · rintro t σ _ row _ h _ _ hrow ⟨rfl⟩ _
      obtain ⟨a₁, m, hreq, hview, hold, hm⟩ := h.know
      have hsession : row' = row := Option.some.inj
        ((congrArg Summary.session hview).symm.trans hrow)
      subst hsession
      refine ⟨Or.inl h.keeps, ?_⟩
      rw [hview]
      exact hreq.final (hreq.sound.agree hnodup hreq.session (.refl row') hold rfl hm
        fun _ => ⟨Or.inl hreq.pending, rfl⟩)
    · rintro t σ h _ hnone
      obtain ⟨a₁, m, _, hview, _⟩ := h.know
      exact absurd (hnone row' (congrArg Summary.session hview)) (by simp)

theorem triple_requestRecording (hnodup : users.Nodup) {authorized : Bool} :
    Triple (discipline S users e c) s (fun t _ => t = .none)
      (requestRecording userId authorized now) fun _ t _ => t = .none := by
  refine Triple.bind (Q := fun session => Loaded (Follows session)) triple_authorizedSession
    fun session => ?_
  refine Triple.bind (Q := fun _ => Loaded (Follows session))
    (triple_require fun _ _ h _ => h) fun _ => ?_
  refine Triple.bind (Q := fun _ => Loaded (Follows session))
    (triple_require fun _ _ h _ => h) fun _ => triple_second ?_
  refine Triple.bind (Q := fun requested t σ => ∃ row', requested = some row' ∧
      Holding (fun _ => Requested users e c row') t σ)
    (triple_updateSession (P := fun row' _ => Requested users e c row') loaded_stable
      (fun _ _ h => tame_of_loaded h) (by simp) ?_ ?_ fun row' _ _ h => ⟨row', rfl, h⟩)
    fun requested => ?_
  · rintro t σ _ row _ ⟨rfl, _⟩ hinv hclosed hrow ⟨rfl⟩ _
    have hsession : (summary σ.rows).session = some row := hrow
    refine ⟨Or.inl keeps_none, hinv.1.request hsession rfl rfl rfl id
      (fun hc => hclosed hc row hrow), rfl, rfl, row, hrow, ⟨rfl, id, id⟩,
      fun hc => hclosed hc row hrow⟩
  · rintro t σ ⟨rfl, row, hrow, _⟩ _ hnone
    exact absurd (hnone row hrow) (by simp)
  cases requested with
  | none => exact fun _ _ _ _ ⟨_, h, _⟩ => absurd h (by simp)
  | some row' =>
    refine Triple.bind (Q := fun _ => Holding (Final users e c))
      ((triple_requesterConsents hnodup).conseq ?_ fun _ _ _ h => h) fun _ =>
      triple_pure fun _ _ h => settled_of_final h
    rintro t σ ⟨_, ⟨rfl⟩, h⟩
    exact h

/-! ### Starting -/

/-- The rows of those who are rung. -/
theorem summary_write_invited (list : List U) (rows : Rows U) (p : Participant) :
    summary (overlay (list.map fun v => (Key.participant v, Row.participant (some p))) rows) =
      { summary rows with marks := fun v => if v ∈ list then some p.mark
        else (summary rows).marks v } := by
  induction list with
  | nil => exact Summary.ext rfl (funext fun v => by simp)
  | cons u list ih =>
    rw [List.map_cons, overlay_cons, summary_write_participant, ih]
    refine Summary.ext rfl (funext fun v => ?_)
    by_cases hv : v = u
    · simp [hv]
    · simp [hv]

/-- The session row has been inserted. -/
structure Starting (row : SessionRow U) (t : Transaction (Key U) (Row U))
    (σ : Shared S (Key U) (Row U) (Event U)) : Prop where
  own : t.own .session
  pending : t.pending = [(.session, .session (some row))]
  before : sessionOf σ.rows = none

omit [DecidableEq U] in
theorem starting_stable {row : SessionRow U} :
    Stable (discipline S users e c) s (Starting row) := by
  rintro t σ σ' h ⟨_, hsession, _⟩ _
  exact ⟨h.own, h.pending, (congrArg Summary.session (hsession h.own)).trans h.before⟩

/-- A call that rings: its starter is in it, and the invited are not. -/
theorem sound_started (hnodup : users.Nodup) {row : SessionRow U} {invited : List U}
    (hstatus : row.status = .ringing) (hjoined : row.joinedCount = 1)
    (hrecording : row.recordingState = .none) (hconsent : row.consentCount = 0)
    (hu : userId ∈ users) (hinvited : ∀ u ∈ invited, u ∈ users) :
    Sound users e c ⟨some row, Function.update
      (fun v => if v ∈ invited then some (Mark.mk false none) else none) userId
      (some ⟨true, none⟩)⟩ := by
  let base : U → Option Mark := fun v => if v ∈ invited then some ⟨false, none⟩ else none
  have hcase {v : U} {m : Mark} (hm : Function.update base userId (some ⟨true, none⟩) v = some m) :
      v ∈ users ∧ m.consent = none := by
    by_cases hv : v = userId
    · subst hv
      rw [Function.update_self, Option.some.injEq] at hm
      exact ⟨hu, hm ▸ rfl⟩
    · rw [Function.update_of_ne hv] at hm
      obtain ⟨hmem, hm⟩ := Option.ite_none_right_eq_some.mp hm
      exact ⟨hinvited v hmem, Option.some.inj hm ▸ rfl⟩
  have hone : joinedIn users (Function.update base userId (some ⟨true, none⟩)) = 1 := by
    have hbase (v : U) : (base v).any (·.joined) = false := by
      simp only [base]
      split <;> rfl
    have hzero : joinedIn users base = 0 := List.countP_eq_zero.mpr fun v _ => by simp [hbase v]
    have := joinedIn_update hnodup hu base (some ⟨true, none⟩)
    simpa [hbase, hzero] using this
  have hnone : consentedIn users (Function.update base userId (some ⟨true, none⟩)) = 0 := by
    apply List.countP_eq_zero.mpr
    intro v _ hv
    obtain ⟨m, hm, hconsent⟩ := (Option.any_eq_true _ _).mp hv
    simp [(hcase hm).2] at hconsent
  refine ⟨{ started := by simp, known := fun v hv => ?_, joined := ?_, ended := ?_ },
    { consents := ?_, closed := ?_, request := ?_ }, ?_⟩
  · obtain ⟨m, hm⟩ := Option.isSome_iff_exists.mp hv
    exact (hcase hm).1
  · rintro _ ⟨rfl⟩
    rw [hjoined]
    exact congrArg Nat.cast hone.symm
  · rintro _ _ ⟨rfl⟩ hended
    simp [hstatus] at hended
  · rintro _ ⟨rfl⟩
    rw [hconsent]
    exact congrArg Nat.cast hnone.symm
  · exact fun _ _ _ _ v m hm => (hcase hm).2
  · intro _ _ _ v m n hm hn
    simp [(hcase hm).2] at hn
  · rintro _ _ ⟨rfl⟩ hactive
    simp [hrecording] at hactive

theorem participantOf_write_invited {list : List U} {v : U} (hv : v ∈ list) (rows : Rows U)
    (p : Participant) :
    participantOf (overlay (list.map fun v => (Key.participant v, Row.participant (some p))) rows)
      v = some p := by
  induction list with
  | nil => exact absurd hv List.not_mem_nil
  | cons u list ih =>
    rw [List.map_cons, overlay_cons]
    by_cases hvu : v = u
    · simp [hvu, participantOf, Row.participant?]
    · simpa [participantOf, hvu] using ih ((List.mem_cons.mp hv).resolve_left hvu)

/-- The starter and those who are rung get their rows. -/
theorem Starting.begun (hnodup : users.Nodup) {row : SessionRow U} (h : Starting row t σ)
    (hinv : (discipline S users e c).inv σ) {invited : List U} {p q : Participant}
    (hstatus : row.status = .ringing) (hjoined : row.joinedCount = 1)
    (hrecording : row.recordingState = .none) (hconsent : row.consentCount = 0)
    (hinitiator : row.initiatedBy = userId) (hp : p.mark = ⟨true, none⟩)
    (hq : q.mark = ⟨false, none⟩) (hring : q.state = .invited) (hothers : invited ≠ [])
    (hnot : userId ∉ invited) (hknown : ∀ u ∈ userId :: invited, u ∈ users) :
    Begun users e c (t.run [] ((.participant userId, .participant (some p)) ::
      invited.map fun v => (.participant v, .participant (some q)))) σ := by
  have hview : t.view σ = Function.update σ.rows .session (.session (some row)) := by
    simp [Transaction.view, h.pending]
  have hmarks (v : U) : (summary σ.rows).marks v = none := hinv.1.seated.started h.before v
  have hsummary : summary ((t.run [] ((.participant userId, .participant (some p)) ::
      invited.map fun v => (.participant v, .participant (some q)))).view σ) =
      ⟨some row, Function.update (fun v => if v ∈ invited then some (Mark.mk false none) else none)
        userId (some ⟨true, none⟩)⟩ := by
    rw [Transaction.view_run, overlay_cons, summary_write_participant, summary_write_invited, hp,
      hq, hview, summary_write_session]
    simp only [hmarks]
  refine ⟨fun k hk => ?_, Or.inl h.own, h.before, ?_, ?_, ?_⟩
  · rw [Transaction.run_pending, List.map_append] at hk
    rcases List.mem_append.mp hk with hk | hk
    · exact Or.inr hk
    · rw [h.pending] at hk
      exact Or.inl (List.mem_singleton.mp hk ▸ h.own)
  · rw [hsummary]
    exact sound_started hnodup hstatus hjoined hrecording hconsent (hknown _ List.mem_cons_self)
      fun v hv => hknown v (List.mem_cons_of_mem _ hv)
  · intro row' m hrow' hm
    obtain rfl : row = row' := Option.some.inj
      ((congrArg Summary.session hsummary).symm.trans hrow')
    rw [hsummary] at hm
    simp only [hinitiator, Function.update_self, Option.some.injEq] at hm
    exact hm ▸ rfl
  · obtain ⟨v, hv⟩ := List.exists_mem_of_ne_nil _ hothers
    have hvu : v ≠ userId := fun h => hnot (h ▸ hv)
    refine ⟨v, by simp [hv], q, ?_, hring⟩
    have := participantOf_write_invited hv (t.view σ) q
    simpa [Transaction.view_run, participantOf, hvu] using this

theorem triple_startSession (hnodup : users.Nodup) {roster : List U}
    {authorized channelFree : Bool} :
    Triple (discipline S users e c) s (fun t _ => t = .none)
      (startSession users userId roster authorized channelFree now) fun _ t _ => t = .none := by
  refine triple_call (Triple.bind (Q := fun _ t _ => t = .none)
    (triple_require fun _ _ h _ => h) fun _ => ?_)
  by_cases hothers : roster.filter (· ≠ userId) = []
  -- nobody else to call
  · exact Triple.bind (Q := fun _ _ _ => False) (triple_require fun _ _ _ hp => hp hothers)
      fun _ => fun _ _ _ _ h => h.elim
  refine Triple.bind (Q := fun _ t _ => t = .none) (triple_require fun _ _ h _ => h) fun _ => ?_
  refine Triple.bind (Q := fun _ t _ => t = .none) (triple_require fun _ _ h _ => h) fun _ => ?_
  let row : SessionRow U :=
    { status := .ringing, initiatedBy := userId, maxParticipants := MESH_PARTICIPANT_CAP,
      joinedCount := 1, startedAt := none, endedAt := none, endReason := none,
      recordingState := .none, recordingRequestedBy := none, recordingStartedAt := none,
      consentCount := 0, request := 0 }
  refine Triple.bind (Q := fun inserted t σ => inserted = true → Starting row t σ)
    (triple_statement stable_none ?_) fun inserted => ?_
  · rintro t σ _ _ rfl _ _ _ hnone
    simp only [hnone, if_true]
    exact ⟨Or.inr (by simp), rfl, by simpa using hnone⟩
  refine Triple.bind (Q := fun _ => Starting row)
    (triple_require fun _ _ h hp => h hp.1) fun _ => ?_
  refine Triple.bind (Q := fun _ t σ => Starting row t σ ∧
      (userId :: roster.filter (· ≠ userId)).Nodup ∧
        ∀ u ∈ userId :: roster.filter (· ≠ userId), u ∈ users)
    (triple_require fun _ _ h hp => ⟨h, hp⟩) fun _ => ?_
  refine Triple.bind (Q := fun _ => Begun users e c) (triple_statement ?_ ?_) fun _ =>
    triple_pure fun _ _ h => Or.inr (Or.inr (Or.inr h))
  · exact fun t σ σ' h hrely hinv => ⟨starting_stable t σ σ' h.1 hrely hinv, h.2⟩
  · rintro t σ _ _ ⟨h, hpeople, hknown⟩ hinv _ _
    exact h.begun hnodup hinv rfl rfl rfl rfl rfl rfl rfl rfl hothers
      (List.nodup_cons.mp hpeople).1 hknown

/-- Every operation keeps to the discipline. -/
theorem safe_calls (hnodup : users.Nodup) (operation : Operation U)
    (σ : Shared S (Key U) (Row U) (Event U)) :
    Safe (discipline S users e c) s (calls users operation) .none σ := by
  cases operation with
  | start => exact (triple_startSession hnodup).safe σ
  | join => exact (triple_joinSession hnodup).safe σ
  | leave => exact (triple_leaveSession hnodup).safe σ
  | removeMember => exact (triple_leaveAllActiveSessionsFor hnodup).safe σ
  | decline => exact (triple_declineSession hnodup).safe σ
  | cancel => exact (triple_cancelSession hnodup).safe σ
  | requestRecording => exact (triple_requestRecording hnodup).safe σ
  | answerRecording => exact (triple_answerRecording hnodup).safe σ
  | startRecording => exact (triple_startRecording hnodup).safe σ
  | stopRecording => exact (triple_stopRecording hnodup).safe σ

end

end CallSession
end TaskFlow
