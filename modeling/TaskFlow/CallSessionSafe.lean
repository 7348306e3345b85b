import TaskFlow.CallSession
import TaskFlow.ScriptLogic

/-! # What the operations of a call keep

Of the participants only two things matter to the counters: whether a row is in
the call, and which recording request it has agreed to.  A transaction that
changes either of them for anybody also writes the session row, so while a
transaction has the session row locked they stand still, and it can be followed
on this `Summary` alone (`Holding`).  Before that it has locked at most its own
participant (`Claimed`).

Two conditions are carried as propositions: `e` asks that no join counts its
participant in a session that has ended, `c` asks what recording needs.  The
counters are right without either.
-/
namespace TaskFlow
namespace CallSession
open ReadCommitted ReadCommitted.Script ReadCommitted.Procedure

variable {U : Type}

/-! ### Summaries -/

/-- What the counters count of a participant. -/
structure Mark where
  joined : Bool
  /-- The request the participant has agreed to. -/
  consent : Option Nat
  deriving DecidableEq, Repr

def Participant.mark (row : Participant) : Mark where
  joined := row.state = .joined
  consent := if row.recordingConsentAt.isSome then some row.consentFor else none

theorem mark_joined {row : Participant} : row.mark.joined = true ↔ row.state = .joined := by
  simp [Participant.mark]

theorem mark_consent {row : Participant} :
    row.mark.consent.isSome = true ↔ row.recordingConsentAt.isSome = true := by
  simp [Participant.mark, apply_ite Option.isSome]

@[ext]
structure Summary (U : Type) where
  session : Option (SessionRow U)
  marks : U → Option Mark

def summary (rows : Rows U) : Summary U where
  session := sessionOf rows
  marks userId := (participantOf rows userId).map Participant.mark

@[simp] theorem summary_session (rows : Rows U) : (summary rows).session = sessionOf rows := rfl

@[simp] theorem summary_marks (rows : Rows U) (userId : U) :
    (summary rows).marks userId = (participantOf rows userId).map Participant.mark := rfl

@[simp] theorem sessionOf_noSession : sessionOf (noSession : Rows U) = none := rfl

@[simp] theorem participantOf_noSession (userId : U) :
    participantOf (noSession : Rows U) userId = none := rfl

/-- How many of the people are in the call. -/
def joinedIn (users : List U) (marks : U → Option Mark) : Nat :=
  users.countP fun userId => (marks userId).any (·.joined)

/-- How many have agreed to be recorded. -/
def consentedIn (users : List U) (marks : U → Option Mark) : Nat :=
  users.countP fun userId => (marks userId).any (·.consent.isSome)

/-- A recording has been requested, and nobody has refused or stopped it. -/
def SessionRow.Open (row : SessionRow U) : Prop :=
  row.recordingState = .pending ∨ row.recordingState = .active

/-- Participants are people, and there are none before the call is started. -/
structure Listed (users : List U) (a : Summary U) : Prop where
  started : a.session = none → ∀ u, a.marks u = none
  known : ∀ u, (a.marks u).isSome → u ∈ users

/-- The session counts the people in the call. -/
structure Seated (users : List U) (e : Prop) (a : Summary U) : Prop extends Listed users a where
  joined : ∀ row, a.session = some row → row.joinedCount = joinedIn users a.marks
  ended : e → ∀ row, a.session = some row → row.status = .ended →
    ∀ u m, a.marks u = some m → m.joined = false

/-- The session counts the agreements, and all are to its request. -/
structure Recorded (users : List U) (c : Prop) (a : Summary U) : Prop where
  consents : ∀ row, a.session = some row → row.consentCount = consentedIn users a.marks
  closed : c → ∀ row, a.session = some row → ¬row.Open →
    ∀ u m, a.marks u = some m → m.consent = none
  request : c → ∀ row, a.session = some row →
    ∀ u m n, a.marks u = some m → m.consent = some n → n = row.request

structure Sound (users : List U) (e c : Prop) (a : Summary U) : Prop where
  seated : Seated users e a
  recorded : Recorded users c a
  /-- Who hears a running recording has agreed to it. -/
  everyone : c → ∀ row, a.session = some row → row.recordingState = .active →
    ∀ u m, a.marks u = some m → m.joined = true → m.consent.isSome = true

/-! ### Counting -/

section
variable [DecidableEq U]

omit [DecidableEq U] in
/-- One value changes, and the count with it. -/
theorem countP_update {p q : U → Bool} {u : U} {users : List U} (hnodup : users.Nodup)
    (hu : u ∈ users) (hpq : ∀ v, v ≠ u → p v = q v) :
    users.countP p + (q u).toNat = users.countP q + (p u).toNat := by
  induction users with
  | nil => exact absurd hu List.not_mem_nil
  | cons v users ih =>
    obtain ⟨hv, hnodup⟩ := List.nodup_cons.mp hnodup
    rw [List.countP_cons, List.countP_cons]
    rcases List.mem_cons.mp hu with rfl | hu
    · have hsame : users.countP p = users.countP q :=
        List.countP_congr fun w hw => by rw [hpq w fun h => hv (h ▸ hw)]
      cases p u <;> cases q u <;> simp <;> omega
    · have hne : v ≠ u := fun h => hv (h ▸ hu)
      have := ih hnodup hu
      rw [hpq v hne]
      omega

theorem joinedIn_update {users : List U} (hnodup : users.Nodup) {u : U} (hu : u ∈ users)
    (marks : U → Option Mark) (m : Option Mark) :
    joinedIn users (Function.update marks u m) + ((marks u).any (·.joined)).toNat =
      joinedIn users marks + (m.any (·.joined)).toNat := by
  have := countP_update (p := fun v => (Function.update marks u m v).any (·.joined))
    (q := fun v => (marks v).any (·.joined)) hnodup hu fun v hv => by
      simp [Function.update_of_ne hv]
  simpa [joinedIn] using this

theorem consentedIn_update {users : List U} (hnodup : users.Nodup) {u : U} (hu : u ∈ users)
    (marks : U → Option Mark) (m : Option Mark) :
    consentedIn users (Function.update marks u m) + ((marks u).any (·.consent.isSome)).toNat =
      consentedIn users marks + (m.any (·.consent.isSome)).toNat := by
  have := countP_update (p := fun v => (Function.update marks u m v).any (·.consent.isSome))
    (q := fun v => (marks v).any (·.consent.isSome)) hnodup hu fun v hv => by
      simp [Function.update_of_ne hv]
  simpa [consentedIn] using this

end

/-! ### The discipline -/

/-- What stays of a session row: nobody rings it again, and its end is final. -/
structure Follows (row row' : SessionRow U) : Prop where
  initiatedBy : row'.initiatedBy = row.initiatedBy
  ringing : row.status ≠ .ringing → row'.status ≠ .ringing
  ended : row.status = .ended → row'.status = .ended

theorem Follows.refl (row : SessionRow U) : Follows row row := ⟨rfl, id, id⟩

theorem Follows.trans {row row' row'' : SessionRow U} (h : Follows row row')
    (h' : Follows row' row'') : Follows row row'' :=
  ⟨h'.initiatedBy.trans h.initiatedBy, h'.ringing ∘ h.ringing, h'.ended ∘ h.ended⟩

/-- A request that is open stays open. -/
def KeepsRequest (row row' : SessionRow U) : Prop :=
  row.Open → row'.Open ∧ row'.request = row.request

/-- A participant is still being rung. -/
def Invited (rows : Rows U) (u : U) : Prop :=
  ∃ p, participantOf rows u = some p ∧ p.state = .invited

/-- The conditions on the statements. -/
def condition (e c : Prop) : Condition (Key U) (Row U) (Label U) Unit (Event U) where
  statement label _ rows _ :=
    match label with
    | .countJoin userId recordingState =>
      (e → ∀ row, sessionOf rows = some row → row.status ≠ .ended) ∧
      (c → ∀ row, sessionOf rows = some row → row.recordingState = .active →
        recordingState = .active ∨ ∃ p, participantOf rows userId = some p ∧
          p.recordingConsentAt.isSome = true)
    | .agree request =>
      c → ∀ row, sessionOf rows = some row → row.Open ∧ row.request = request
    | .request => c → ∀ row, sessionOf rows = some row → ¬row.Open
    | .startRecording =>
      c → (∀ u p, participantOf rows u = some p → p.state = .joined →
        p.recordingConsentAt.isSome = true) ∨
        ∀ u p, participantOf rows u = some p → p.recordingConsentAt.isSome = true →
          p.state = .joined
    | _ => True

/-- What a commit does, from the rows before it to the rows after. -/
structure Commits (c : Prop) (notes : List (Event U)) (own : Key U → Prop) (rows rows' : Rows U) :
    Prop where
  locks : ¬own .session → summary rows' = summary rows
  follows : ∀ row, sessionOf rows = some row → ∃ row', sessionOf rows' = some row' ∧ Follows row row'
  closes : c → ∀ row row', sessionOf rows = some row → sessionOf rows' = some row' →
    KeepsRequest row row' ∨ ∀ u, (participantOf rows u).isSome → own (.participant u)
  /-- Where the call rings on, nobody stops being rung but one who declines. -/
  rings : ∀ u, Invited rows u → Invited rows' u ∨
    (∀ row', sessionOf rows' = some row' → row'.status ≠ .ringing) ∨ .declined u true ∈ notes
  begins : sessionOf rows = none → ∀ row', sessionOf rows' = some row' →
    ∃ u, own (.participant u) ∧ Invited rows' u

def discipline (S : Type) (users : List U) (e c : Prop) :
    Discipline S (Key U) (Row U) (Label U) Unit (Event U) where
  inv σ := Sound users e c (summary σ.rows) ∧
    ∀ row, sessionOf σ.rows = some row → ¬Invited σ.rows row.initiatedBy
  guarantee _ notes own σ σ' := Commits c notes own σ.rows σ'.rows
  rely _ own σ σ' :=
    (∀ k, own k → σ'.rows k = σ.rows k) ∧
    (own .session → summary σ'.rows = summary σ.rows) ∧
    (∀ row, sessionOf σ.rows = some row →
      ∃ row', sessionOf σ'.rows = some row' ∧ Follows row row') ∧
    (c → ∀ row row' u, sessionOf σ.rows = some row → sessionOf σ'.rows = some row' →
      own (.participant u) → (participantOf σ.rows u).isSome → KeepsRequest row row')
  condition := condition e c

theorem discipline_lawful [DecidableEq U] {S : Type} {users : List U} {e c : Prop} :
    (discipline S users e c).Lawful where
  refl _ _ _ := by
    refine ⟨fun _ _ => rfl, fun _ => rfl, fun row hrow => ⟨row, hrow, .refl row⟩, ?_⟩
    intro _ row row' _ hrow hrow' _ _ hopen
    obtain rfl := Option.some.inj (hrow.symm.trans hrow')
    exact ⟨hopen, rfl⟩
  trans := by
    rintro s own σ σ' σ'' ⟨hown, hsession, hfollows, hkeeps⟩ ⟨hown', hsession', hfollows', hkeeps'⟩
    refine ⟨fun k hk => (hown' k hk).trans (hown k hk),
      fun hk => (hsession' hk).trans (hsession hk), fun row hrow => ?_, ?_⟩
    · obtain ⟨row', hrow', hfollow⟩ := hfollows row hrow
      obtain ⟨row'', hrow'', hfollow'⟩ := hfollows' row' hrow'
      exact ⟨row'', hrow'', hfollow.trans hfollow'⟩
    · intro hc row row'' u hrow hrow'' hu hp hopen
      obtain ⟨row', hrow', _⟩ := hfollows row hrow
      obtain ⟨hopen', hrequest⟩ := hkeeps hc row row' u hrow hrow' hu hp hopen
      have hp' : (participantOf σ'.rows u).isSome := by
        rwa [participantOf, hown _ hu]
      obtain ⟨hopen'', hrequest'⟩ := hkeeps' hc row' row'' u hrow' hrow'' hu hp' hopen'
      exact ⟨hopen'', hrequest'.trans hrequest⟩
  rely := by
    intro s s' own notes t σ _ hdisjoint hrows _ _ hguar
    refine ⟨hrows, fun hk => hguar.locks (hdisjoint _ hk), hguar.follows, ?_⟩
    intro hc row row' u hrow hrow' hu hp
    exact (hguar.closes hc row row' hrow hrow').resolve_right fun hall => hdisjoint _ hu (hall u hp)

/-! ### A transaction that has locked the session row -/

section
variable [DecidableEq U] {S : Type} {users : List U} {e c : Prop} {s : S} {u : U}
  {t : Transaction (Key U) (Row U)} {σ σ' : Shared S (Key U) (Row U) (Event U)}
  {row row' : SessionRow U} {p p' : Participant}

/-- The transaction rings nobody, and has locked what it has written. -/
structure Tame (t : Transaction (Key U) (Row U)) (σ : Shared S (Key U) (Row U) (Event U)) :
    Prop where
  locked : ∀ k ∈ t.pending.map Prod.fst, t.own k
  fades : ∀ u, Invited (t.view σ) u → Invited σ.rows u

/-- The transaction stops nobody's ringing, unless it stops the call's. -/
def Keeps (t : Transaction (Key U) (Row U)) (σ : Shared S (Key U) (Row U) (Event U)) : Prop :=
  (∀ u, Invited σ.rows u → Invited (t.view σ) u) ∨
    ∀ row, sessionOf (t.view σ) = some row → row.status ≠ .ringing

/-- The transaction has locked the session row.  `P` is what is known of its
locks, of the committed rows and of the rows it sees. -/
structure Holding (P : (Key U → Prop) → Summary U → Summary U → Prop)
    (t : Transaction (Key U) (Row U)) (σ : Shared S (Key U) (Row U) (Event U)) : Prop
    extends Tame t σ where
  keeps : Keeps t σ
  session : t.own .session
  know : P t.own (summary σ.rows) (summary (t.view σ))

theorem tame_none : Tame .none σ := ⟨by simp [Transaction.none], fun _ h => h⟩

theorem keeps_none : Keeps .none σ := Or.inl fun _ h => h

/-- A relation between the committed row of each participant and the row the
transaction sees stays as it is. -/
theorem participants_stable {R : Row U → Row U → Prop} (hrefl : ∀ r, R r r)
    (hlocked : ∀ k ∈ t.pending.map Prod.fst, t.own k)
    (hown : ∀ k, t.own k → σ'.rows k = σ.rows k)
    (h : ∀ u, R (σ.rows (.participant u)) (t.view σ (.participant u))) (u : U) :
    R (σ'.rows (.participant u)) (t.view σ' (.participant u)) := by
  by_cases hu : .participant u ∈ t.pending.map Prod.fst
  · rw [hown _ (hlocked _ hu), Transaction.view_of_mem hu σ σ']
    exact h u
  · rw [Transaction.view_of_notMem hu]
    exact hrefl _

theorem summary_view_congr (hsummary : summary σ'.rows = summary σ.rows) (hown : ∀ k, t.own k → σ'.rows k = σ.rows k)
    (hsession : t.own .session) :
    summary (t.view σ') = summary (t.view σ) := by
  refine Summary.ext ?_ (funext fun u => ?_)
  · simp [sessionOf, Transaction.view_congr (t := t) fun _ => hown _ hsession]
  · by_cases hu : .participant u ∈ t.pending.map Prod.fst
    · simp [participantOf, Transaction.view_of_mem hu σ σ']
    · have := congrFun (congrArg Summary.marks hsummary) u
      simpa [participantOf, Transaction.view_of_notMem hu] using this

theorem Holding.stable {P : (Key U → Prop) → Summary U → Summary U → Prop} :
    Stable (discipline S users e c) s (Holding P) := by
  rintro t σ σ' h ⟨hown, hsession, _, _⟩ _
  have hsummary := hsession h.session
  have hview := summary_view_congr hsummary hown h.session
  refine { locked := h.locked, fades := ?_, keeps := ?_, session := h.session, know := ?_ }
  · exact participants_stable (R := fun r r' => (∃ p, r'.participant? = some p ∧ p.state = .invited) →
      ∃ p, r.participant? = some p ∧ p.state = .invited) (fun _ => id) h.locked hown h.fades
  · refine h.keeps.imp (fun hkeeps => ?_) fun hquiet row hrow => hquiet row ?_
    · exact participants_stable (R := fun r r' => (∃ p, r.participant? = some p ∧
        p.state = .invited) → ∃ p, r'.participant? = some p ∧ p.state = .invited) (fun _ => id)
        h.locked hown hkeeps
    · exact (congrArg Summary.session hview).symm.trans hrow
  · rw [hsummary, hview]
    exact h.know

@[simp] theorem summary_write_session (rows : Rows U) :
    summary (Function.update rows .session (.session (some row))) =
      { summary rows with session := some row } := by
  refine Summary.ext (by simp [sessionOf, Row.session?]) (funext fun u => ?_)
  simp [participantOf]

@[simp] theorem summary_write_participant (rows : Rows U) :
    summary (Function.update rows (.participant u) (.participant (some p))) =
      { summary rows with marks := Function.update (summary rows).marks u (some p.mark) } := by
  refine Summary.ext (by simp [sessionOf]) (funext fun v => ?_)
  by_cases hv : v = u
  · subst hv
    simp [participantOf, Row.participant?]
  · simp [participantOf, hv]

theorem invited_write_session (rows : Rows U) {r : Row U} :
    Invited (Function.update rows .session r) u ↔ Invited rows u := by
  simp [Invited, participantOf]

theorem invited_write_participant (rows : Rows U) {v : U} :
    Invited (Function.update rows (.participant u) (.participant (some p))) v ↔
      if v = u then p.state = .invited else Invited rows v := by
  by_cases hv : v = u
  · subst hv
    simp [Invited, participantOf, Row.participant?]
  · simp [Invited, participantOf, hv]

theorem Tame.write_session (h : Tame t σ) {r : Row U} :
    Tame (t.run [] [(.session, r)]) σ := by
  refine ⟨fun k hk => ?_, fun u hu => h.fades u ?_⟩
  · rcases List.mem_cons.mp hk with rfl | hk
    · exact Or.inr (by simp)
    · exact Or.inl (h.locked k hk)
  · rwa [Transaction.view_run, overlay_cons, overlay_nil, invited_write_session] at hu

theorem Tame.write_participant (h : Tame t σ)
    (hstate : p'.state = .invited → Invited (t.view σ) u) :
    Tame (t.run [] [(.participant u, .participant (some p'))]) σ := by
  refine ⟨fun k hk => ?_, fun v hv => h.fades v ?_⟩
  · rcases List.mem_cons.mp hk with rfl | hk
    · exact Or.inr (by simp)
    · exact Or.inl (h.locked k hk)
  · rw [Transaction.view_run, overlay_cons, overlay_nil, invited_write_participant] at hv
    split at hv
    · rename_i hvu
      exact hvu ▸ hstate hv
    · exact hv

theorem Keeps.write_session (h : Keeps t σ ∨ row'.status ≠ .ringing)
    (hrow : sessionOf (t.view σ) = some row) (hring : row.status ≠ .ringing → row'.status ≠ .ringing) :
    Keeps (t.run [] [(.session, .session (some row'))]) σ := by
  have hquiet (hne : row'.status ≠ .ringing) :
      Keeps (t.run [] [(.session, .session (some row'))]) σ := by
    apply Or.inr
    intro row'' hrow''
    simp only [Transaction.view_run, overlay_cons, overlay_nil, sessionOf, Function.update_self,
      Row.session?, Option.some.injEq] at hrow''
    exact hrow'' ▸ hne
  rcases h with (h | h) | h
  · apply Or.inl
    intro u hu
    rw [Transaction.view_run, overlay_cons, overlay_nil, invited_write_session]
    exact h u hu
  · exact hquiet (hring (h row hrow))
  · exact hquiet h

theorem Keeps.write_participant (h : Keeps t σ)
    (hstate : (Invited (t.view σ) u → p'.state = .invited) ∨
      ∀ row, sessionOf (t.view σ) = some row → row.status ≠ .ringing) :
    Keeps (t.run [] [(.participant u, .participant (some p'))]) σ := by
  have hquiet (hne : ∀ row, sessionOf (t.view σ) = some row → row.status ≠ .ringing) :
      Keeps (t.run [] [(.participant u, .participant (some p'))]) σ :=
    Or.inr (by simpa [sessionOf] using hne)
  rcases h, hstate with ⟨h | h, hstate | hstate⟩
  · apply Or.inl
    intro v hv
    rw [Transaction.view_run, overlay_cons, overlay_nil, invited_write_participant]
    split
    · rename_i hvu
      subst hvu
      exact hstate (h v hv)
    · exact h v hv
  · exact hquiet hstate
  · exact hquiet h
  · exact hquiet h

/-! ### Statements on the session and on participants -/

/-- An UPDATE of the session row takes hold of it. -/
theorem triple_updateSession {A : Assertion S (Key U) (Row U) (Event U)} {label : Label U}
    {set : SessionRow U → Option (SessionRow U)}
    {P : SessionRow U → (Key U → Prop) → Summary U → Summary U → Prop}
    {Q : Option (SessionRow U) → Assertion S (Key U) (Row U) (Event U)}
    (hA : Stable (discipline S users e c) s A) (htame : ∀ t σ, A t σ → Tame t σ)
    (hring : ∀ row row', set row = some row' → row.status ≠ .ringing → row'.status ≠ .ringing)
    (hwrite : ∀ t σ held row row', A t σ → (discipline S users e c).inv σ →
      (condition e c).statement label () (t.view σ) held → sessionOf (t.view σ) = some row →
      set row = some row' → row'.Checked → (Keeps t σ ∨ row'.status ≠ .ringing) ∧
      P row' (fun k => t.own k ∨ k = .session) (summary σ.rows)
        { summary (t.view σ) with session := some row' })
    (hskip : ∀ t σ, A t σ → (discipline S users e c).inv σ →
      (∀ row, sessionOf (t.view σ) = some row → set row = none) → Q none t σ)
    (hQ : ∀ row' t σ, Holding (P row') t σ → Q (some row') t σ) :
    Triple (discipline S users e c) s A (updateSession label set) Q := by
  refine Triple.bind (Q := fun result t σ => (∀ row ∈ result, row.Checked) → Q result t σ)
    (triple_statement hA fun t σ i held hAt hinv _ hc => ?_) fun result =>
      Triple.bind (Q := fun _ => Q result) (triple_require fun t σ h hchecked => h hchecked)
        fun _ => triple_pure fun t σ h => h
  intro hchecked
  cases hrow : sessionOf (t.view σ) with
  | none =>
    rw [Option.bind_none, Transaction.run_nil]
    exact hskip t σ hAt hinv fun row h => by rw [hrow] at h; cases h
  | some row =>
    cases hset : set row with
    | none =>
      simp only [Option.bind_some, hset, Transaction.run_nil]
      exact hskip t σ hAt hinv fun row'' h => by rwa [Option.some.inj (h.symm.trans hrow)]
    | some row' =>
      have hcheck : row'.Checked := hchecked row' (by simp [hrow, hset])
      obtain ⟨hkeeps, hknow⟩ := hwrite t σ held row row' hAt hinv hc hrow hset hcheck
      simp only [Option.bind_some, hset, hcheck, if_true]
      refine hQ row' _ σ { (htame t σ hAt).write_session with
        keeps := Keeps.write_session hkeeps hrow (hring row row' hset)
        session := Or.inr (by simp)
        know := ?_ }
      rw [Transaction.view_run, overlay_cons, overlay_nil, summary_write_session]
      have hown : (t.run [] [(.session, Row.session (some row'))]).own =
          fun k => t.own k ∨ k = .session := by
        funext k
        simp
      rw [hown]
      exact hknow

/-- An UPDATE of one participant. -/
theorem triple_updateParticipant {A : Assertion S (Key U) (Row U) (Event U)} {label : Label U}
    {set : Participant → Option Participant}
    {Q : Bool → Assertion S (Key U) (Row U) (Event U)}
    (hA : Stable (discipline S users e c) s A)
    (hwrite : ∀ t σ held p p', A t σ → (discipline S users e c).inv σ →
      (condition e c).statement label () (t.view σ) held → participantOf (t.view σ) u = some p →
      set p = some p' → Q true (t.run [] [(.participant u, .participant (some p'))]) σ)
    (hskip : ∀ t σ, A t σ → (discipline S users e c).inv σ →
      (∀ p, participantOf (t.view σ) u = some p → set p = none) → Q false t σ) :
    Triple (discipline S users e c) s A (updateParticipant label u set) Q := by
  refine Triple.bind (Q := fun result => Q result.isSome) (triple_update hA ?_ ?_) fun result =>
    triple_pure fun t σ h => h
  · intro t σ i held v hAt hinv hf _ hc
    obtain ⟨p', hp', rfl⟩ := Option.map_eq_some_iff.mp hf
    obtain ⟨p, hp, hset⟩ := Option.bind_eq_some_iff.mp hp'
    exact hwrite t σ held p p' hAt hinv hc hp hset
  · intro t σ i held hAt hinv hf _
    apply hskip t σ hAt hinv
    intro p hp
    have hnone := Option.map_eq_none_iff.mp hf
    rwa [show (t.view σ (.participant u)).participant? = some p from hp, Option.bind_some] at hnone

/-- A participant is written by a transaction that holds the session. -/
theorem Holding.write_participant {P P' : (Key U → Prop) → Summary U → Summary U → Prop}
    (h : Holding P t σ) (hfades : p'.state = .invited → Invited (t.view σ) u)
    (hkeeps : (Invited (t.view σ) u → p'.state = .invited) ∨
      ∀ row, sessionOf (t.view σ) = some row → row.status ≠ .ringing)
    (hknow : P' (fun k => t.own k ∨ k = .participant u) (summary σ.rows)
      { summary (t.view σ) with
        marks := Function.update (summary (t.view σ)).marks u (some p'.mark) }) :
    Holding P' (t.run [] [(.participant u, .participant (some p'))]) σ where
  toTame := h.toTame.write_participant hfades
  keeps := h.keeps.write_participant hkeeps
  session := Or.inl h.session
  know := by
    rw [Transaction.view_run, overlay_cons, overlay_nil, summary_write_participant]
    have hown : (t.run [] [(.participant u, Row.participant (some p'))]).own =
        fun k => t.own k ∨ k = .participant u := by
      funext k
      simp
    rw [hown]
    exact hknow

/-! ### A transaction that has not -/

/-- The transaction has only read; `L` is known of the session row. -/
structure Loaded (L : SessionRow U → Prop) (t : Transaction (Key U) (Row U))
    (σ : Shared S (Key U) (Row U) (Event U)) : Prop where
  fresh : t = .none
  session : ∃ row, sessionOf σ.rows = some row ∧ L row

omit [DecidableEq U] in
theorem Loaded.stable {L : SessionRow U → Prop}
    (hL : ∀ row row', Follows row row' → L row → L row') :
    Stable (discipline S users e c) s (Loaded L) := by
  rintro t σ σ' ⟨hfresh, row, hrow, hLrow⟩ hrely _
  obtain ⟨row', hrow', hfollow⟩ := hrely.2.2.1 row hrow
  exact ⟨hfresh, row', hrow', hL row row' hfollow hLrow⟩

/-- The transaction has written one participant and nothing else. -/
structure Claimed (u : U) (old : Option Participant) (new : Participant) (L : SessionRow U → Prop)
    (t : Transaction (Key U) (Row U)) (σ : Shared S (Key U) (Row U) (Event U)) : Prop where
  own : t.own (.participant u)
  pending : t.pending = [(.participant u, .participant (some new))]
  old : participantOf σ.rows u = old
  state : new.state ≠ .invited
  session : ∃ row, sessionOf σ.rows = some row ∧ L row

variable {old : Option Participant} {new : Participant} {L : SessionRow U → Prop}

omit [DecidableEq U] in
theorem Claimed.stable (hL : ∀ row row', Follows row row' →
      (old.isSome → c → KeepsRequest row row') → L row → L row') :
    Stable (discipline S users e c) s (Claimed u old new L) := by
  rintro t σ σ' h ⟨hown, _, hfollows, hkeeps⟩ _
  obtain ⟨row, hrow, hLrow⟩ := h.session
  obtain ⟨row', hrow', hfollow⟩ := hfollows row hrow
  have hsame := hown _ h.own
  refine ⟨h.own, h.pending, ?_, h.state, row', hrow', hL row row' hfollow (fun hold hc => ?_) hLrow⟩
  · rw [participantOf, hsame]
    exact h.old
  · exact hkeeps hc row row' u hrow hrow' h.own (by rwa [h.old])

theorem Claimed.view (h : Claimed u old new L t σ) :
    t.view σ = Function.update σ.rows (.participant u) (.participant (some new)) := by
  simp [Transaction.view, h.pending]

theorem Claimed.view_session (h : Claimed u old new L t σ) :
    sessionOf (t.view σ) = sessionOf σ.rows := by
  simp [h.view, sessionOf]

theorem Claimed.summary (h : Claimed u old new L t σ) :
    CallSession.summary (t.view σ) = { CallSession.summary σ.rows with
      marks := Function.update (CallSession.summary σ.rows).marks u (some new.mark) } := by
  rw [h.view, summary_write_participant]

theorem Claimed.tame (h : Claimed u old new L t σ) : Tame t σ := by
  refine ⟨fun k hk => ?_, fun v hv => ?_⟩
  · rw [h.pending] at hk
    obtain rfl := List.mem_singleton.mp hk
    exact h.own
  · rw [h.view, invited_write_participant] at hv
    split at hv
    · exact absurd hv h.state
    · exact hv

theorem Claimed.keeps (h : Claimed u old new L t σ)
    (hold : ∀ p, old = some p → p.state ≠ .invited) : Keeps t σ := by
  apply Or.inl
  intro v hv
  rw [h.view, invited_write_participant]
  split
  · rename_i hvu
    obtain ⟨p, hp, hstate⟩ := hv
    exact absurd hstate (hold p ((hvu ▸ h.old).symm.trans hp))
  · exact hv

/-- The first write of a transaction. -/
theorem claimed_of_loaded (h : Loaded L t σ) (hp : participantOf (t.view σ) u = old)
    (hstate : new.state ≠ .invited) :
    Claimed u old new L (t.run [] [(.participant u, .participant (some new))]) σ := by
  obtain ⟨rfl, hsession⟩ := h
  exact ⟨Or.inr (by simp), rfl, hp, hstate, hsession⟩

/-! ### Commits -/

/-- A transaction that holds the session has it right again. -/
structure Final (users : List U) (e c : Prop) (own : Key U → Prop) (a a' : Summary U) : Prop where
  sound : Sound users e c a'
  begun : a.session.isSome
  follows : ∀ row, a.session = some row → ∃ row', a'.session = some row' ∧ Follows row row'
  closes : c → ∀ row row', a.session = some row → a'.session = some row' →
    KeepsRequest row row' ∨ ∀ u, (a.marks u).isSome → own (.participant u)

/-- The transaction has started the call. -/
structure Begun (users : List U) (e c : Prop) (t : Transaction (Key U) (Row U))
    (σ : Shared S (Key U) (Row U) (Event U)) : Prop where
  locked : ∀ k ∈ t.pending.map Prod.fst, t.own k
  session : t.own .session
  before : sessionOf σ.rows = none
  sound : Sound users e c (summary (t.view σ))
  initiator : ∀ row m, sessionOf (t.view σ) = some row →
    (summary (t.view σ)).marks row.initiatedBy = some m → m.joined = true
  rings : ∃ u, .participant u ∈ t.pending.map Prod.fst ∧ Invited (t.view σ) u

theorem Begun.stable : Stable (discipline S users e c) s (Begun users e c) := by
  rintro t σ σ' h ⟨hown, hsession, _, _⟩ _
  have hsummary := hsession h.session
  have hview := summary_view_congr hsummary hown h.session
  have hviewSession : sessionOf (t.view σ') = sessionOf (t.view σ) :=
    congrArg Summary.session hview
  refine ⟨h.locked, h.session, (congrArg Summary.session hsummary).trans h.before,
    hview ▸ h.sound, ?_, ?_⟩
  · rw [hviewSession, hview]
    exact h.initiator
  · obtain ⟨v, hv, p, hp, hstate⟩ := h.rings
    exact ⟨v, hv, p, by rwa [participantOf, Transaction.view_of_mem hv σ σ'], hstate⟩

/-- A transaction that may commit with these notes. -/
def Settled (users : List U) (e c : Prop) (notes : List (Event U))
    (t : Transaction (Key U) (Row U)) (σ : Shared S (Key U) (Row U) (Event U)) : Prop :=
  t.pending = [] ∨
  (∃ u old new, Claimed u (some old) new
    (fun row => .declined u true ∈ notes ∨ row.status ≠ .ringing) t σ ∧ new.mark = old.mark) ∨
  Holding (Final users e c) t σ ∨ Begun users e c t σ

theorem settled_stable {notes : List (Event U)} :
    Stable (discipline S users e c) s (Settled users e c notes) := by
  rintro t σ σ' (h | ⟨u, old, new, h, hmark⟩ | h | h) hrely hinv
  · exact Or.inl h
  · refine Or.inr (Or.inl ⟨u, old, new, Claimed.stable (fun row row' hfollow _ hL => ?_)
      t σ σ' h hrely hinv, hmark⟩)
    exact hL.imp_right hfollow.ringing
  · exact Or.inr (Or.inr (Or.inl (Holding.stable t σ σ' h hrely hinv)))
  · exact Or.inr (Or.inr (Or.inr (Begun.stable t σ σ' h hrely hinv)))

omit [DecidableEq U] in
theorem commits_refl (notes : List (Event U)) (own : Key U → Prop) (rows : Rows U) :
    Commits c notes own rows rows where
  locks _ := rfl
  follows row hrow := ⟨row, hrow, .refl row⟩
  closes _ row row' hrow hrow' := Or.inl fun hopen => by
    obtain rfl := Option.some.inj (hrow.symm.trans hrow')
    exact ⟨hopen, rfl⟩
  rings _ hu := Or.inl hu
  begins hnone row' hrow' := by
    rw [hnone] at hrow'
    cases hrow'

theorem settled_commit {notes : List (Event U)} (h : Settled users e c notes t σ)
    (hinv : (discipline S users e c).inv σ) :
    (discipline S users e c).inv (σ.commit s t notes) ∧
      (discipline S users e c).guarantee s notes t.own σ (σ.commit s t notes) := by
  obtain ⟨hsound, hinitiator⟩ := hinv
  change (Sound users e c (summary (t.view σ)) ∧ ∀ row, sessionOf (t.view σ) = some row →
    ¬Invited (t.view σ) row.initiatedBy) ∧ Commits c notes t.own σ.rows (t.view σ)
  rcases h with h | ⟨u, old, new, h, hmark⟩ | h | h
  · have hview : t.view σ = σ.rows := by
      simp [Transaction.view, h]
    rw [hview]
    exact ⟨⟨hsound, hinitiator⟩, commits_refl _ _ _⟩
  -- one participant has stopped being rung, and the counters count nothing else
  · have hsummary : summary (t.view σ) = summary σ.rows := by
      rw [h.summary, hmark]
      refine Summary.ext rfl (Function.update_eq_self_iff.mpr ?_)
      simp [h.old]
    obtain ⟨row, hrow, hquiet⟩ := h.session
    refine ⟨⟨hsummary ▸ hsound, fun row' hrow' hinvited => ?_⟩, fun _ => hsummary, ?_, ?_, ?_, ?_⟩
    · exact hinitiator row' (h.view_session ▸ hrow') (h.tame.fades _ hinvited)
    · exact fun row' hrow' => ⟨row', h.view_session.trans hrow', .refl row'⟩
    · intro _ row' row'' hrow' hrow'' 
      apply Or.inl
      intro hopen
      obtain rfl := Option.some.inj (hrow'.symm.trans (h.view_session.symm.trans hrow''))
      exact ⟨hopen, rfl⟩
    · intro v hv
      by_cases hvu : v = u
      · subst hvu
        rcases hquiet with hnote | hquiet
        · exact Or.inr (Or.inr hnote)
        · refine Or.inr (Or.inl fun row' hrow' => ?_)
          rw [h.view_session, hrow] at hrow'
          exact Option.some.inj hrow' ▸ hquiet
      · apply Or.inl
        rw [h.view, invited_write_participant, if_neg hvu]
        exact hv
    · intro hnone
      rw [hrow] at hnone
      cases hnone
  · obtain ⟨hfinal, hbegun, hfollows, hcloses⟩ := h.know
    obtain ⟨row, hrow⟩ := Option.isSome_iff_exists.mp hbegun
    refine ⟨⟨hfinal, fun row' hrow' hinvited => ?_⟩, fun hnot => absurd h.session hnot, hfollows,
      fun hc row row' hrow hrow' => ?_, fun v hv => ?_, fun hnone => ?_⟩
    · obtain ⟨row'', hrow'', hfollow⟩ := hfollows row hrow
      obtain rfl := Option.some.inj (hrow'.symm.trans hrow'')
      exact hinitiator row hrow (hfollow.initiatedBy ▸ h.fades _ hinvited)
    · refine (hcloses hc row row' hrow hrow').imp_right fun hall v hv => hall v ?_
      simpa using hv
    · rcases h.keeps with hkeeps | hquiet
      · exact Or.inl (hkeeps v hv)
      · exact Or.inr (Or.inl hquiet)
    · exact absurd (hrow.symm.trans hnone) (Option.some_ne_none row)
  · refine ⟨⟨h.sound, fun row hrow hinvited => ?_⟩, fun hnot => absurd h.session hnot,
      fun row hrow => ?_, fun _ row _ hrow => ?_, fun v hinvited => ?_, fun _ _ _ => ?_⟩
    · obtain ⟨p, hp, hstate⟩ := hinvited
      have := h.initiator row p.mark hrow (by simp [hp])
      simp [Participant.mark, hstate] at this
    · rw [h.before] at hrow
      cases hrow
    · rw [h.before] at hrow
      cases hrow
    · obtain ⟨p, hp, _⟩ := hinvited
      have := hsound.seated.started h.before v
      simp [hp] at this
    · obtain ⟨v, hv, hinvited⟩ := h.rings
      exact ⟨v, h.locked _ hv, hinvited⟩

end

end CallSession
end TaskFlow
