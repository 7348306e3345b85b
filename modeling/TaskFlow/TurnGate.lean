import TaskFlow.CallSession
import TaskFlow.ScriptLogic
import TaskFlow.Tenancy

/-! # The gate in front of relay credentials

One transaction decides whether a caller gets a credential for the relay, and
records it: it looks at the organization, at the caller's place in the call, and
at the number of credentials the organization was issued in the last day.  The
number is read by a statement of its own and the credential recorded by another,
and neither locks what the other reads.

A refusal is announced in a transaction of its own, after the one that decided
it.
-/
namespace TaskFlow
namespace TurnGate
open ReadCommitted ReadCommitted.Script ReadCommitted.Procedure
open CallSession (SessionStatus ParticipantState)
open Tenancy (OrgStatus)

variable {Session U Id : Type}

/-! ### Rows -/

/-- The rows of one organization. -/
inductive Key (Session U Id : Type) where
  | org
  | session (sessionId : Session)
  | participant (sessionId : Session) (userId : U)
  | issuance (id : Id)
  deriving DecidableEq, Repr

/-- A row of `rtc.turn_issuance`.  Instants are in milliseconds. -/
structure Issuance (Session U : Type) where
  sessionId : Session
  userId : U
  ttlSeconds : Int
  issuedAt : Int
  deriving DecidableEq, Repr

inductive Row (Session U : Type) where
  | org (status : Option OrgStatus)
  | session (status : Option SessionStatus)
  | participant (state : Option ParticipantState)
  | issuance (row : Option (Issuance Session U))

def Row.orgStatus? : Row Session U → Option OrgStatus
  | .org status => status
  | _ => none

def Row.sessionStatus? : Row Session U → Option SessionStatus
  | .session status => status
  | _ => none

def Row.participantState? : Row Session U → Option ParticipantState
  | .participant state => state
  | _ => none

def Row.issuance? : Row Session U → Option (Issuance Session U)
  | .issuance row => row
  | _ => none

abbrev Rows (Session U Id : Type) := Key Session U Id → Row Session U

def issuanceOf (rows : Rows Session U Id) (id : Id) : Option (Issuance Session U) :=
  (rows (.issuance id)).issuance?

def WINDOW_MS : Int := 24 * 60 * 60 * 1000

/-- How many credentials have been issued from `since` on; `ids` are the ids that
rows get. -/
def issuedSince (ids : List Id) (rows : Rows Session U Id) (since : Int) : Nat :=
  ids.countP fun id => (issuanceOf rows id).any fun row => since ≤ row.issuedAt

/-- How many were issued in the window that begins at `since`. -/
def issuedWithin (ids : List Id) (rows : Rows Session U Id) (since : Int) : Nat :=
  ids.countP fun id => (issuanceOf rows id).any fun row =>
    since ≤ row.issuedAt ∧ row.issuedAt ≤ since + WINDOW_MS

/-! ### The gate -/

inductive TurnRefusalReason where
  | org_suspended
  | not_a_participant
  | session_over
  | issuance_cap
  deriving DecidableEq, Repr

inductive TurnDecision where
  | allowed (issuedInWindow capPerWindow : Nat)
  | refused (reason : TurnRefusalReason) (issuedInWindow capPerWindow : Nat)
  deriving DecidableEq, Repr

structure TurnGateConfig where
  capPerWindow : Nat
  ttlSeconds : Int

inductive Label where
  | read
  | write
  deriving DecidableEq, Repr

inductive Note (Session Id : Type) where
  /-- The verdict of the gate, for the credential that would get this id and
  instant. -/
  | decided (id : Id) (issuedAt : Int) (decision : TurnDecision)
  | turnCredentialRefused (reason : TurnRefusalReason) (issuedInWindow capPerWindow : Nat)
  | turnCredentialIssued (sessionId : Session) (ttlSeconds : Int)
  deriving DecidableEq, Repr

abbrev Procedure (Session U Id α : Type) :=
  ReadCommitted.Procedure (Key Session U Id) (Row Session U) Label Unit (Note Session Id) α

/-- A request for a credential.  `beganAt` is when the gate's transaction begins,
by the database's clock, and `now` when it counts, by the caller's; `id` is the
id drawn for the row, and `authorized` what the channel says about the caller. -/
structure Request (Session U Id : Type) where
  sessionId : Session
  userId : U
  id : Id
  beganAt : Int
  now : Int
  authorized : Bool
  relayConfigured : Bool

/-- Decides, and records the credential where the answer is yes. -/
def checkTurnAllowed [DecidableEq Id] (ids : List Id) (config : TurnGateConfig)
    (request : Request Session U Id) : Procedure Session U Id TurnDecision :=
  transaction do
    let orgStatus ← select .read fun rows => (rows .org).orgStatus?
    let issuedInWindow ← select .read fun rows => issuedSince ids rows (request.now - WINDOW_MS)
    let verdict (decision : TurnDecision) : List (Note Session Id) × TurnDecision :=
      ([.decided request.id request.beganAt decision], decision)
    let refuse (reason : TurnRefusalReason) :=
      verdict (.refused reason issuedInWindow config.capPerWindow)
    if orgStatus ≠ some .active then return refuse .org_suspended
    else
      let participant ← select .read fun rows => do
        let state ← (rows (.participant request.sessionId request.userId)).participantState?
        let sessionStatus ← (rows (.session request.sessionId)).sessionStatus?
        return (state, sessionStatus)
      match participant with
      | none => return refuse .not_a_participant
      | some (state, sessionStatus) =>
        if sessionStatus = .ended then return refuse .session_over
        else if state ≠ .invited ∧ state ≠ .joined then return refuse .not_a_participant
        else if config.capPerWindow ≤ issuedInWindow then return refuse .issuance_cap
        else
          -- the CHECK on `ttl_seconds`
          require (30 ≤ config.ttlSeconds ∧ config.ttlSeconds ≤ 86400)
          let inserted ← statement .write
            (fun _ rows =>
              if (issuanceOf rows request.id).isNone then
                ([], [(.issuance request.id, .issuance (some
                  { sessionId := request.sessionId, userId := request.userId,
                    ttlSeconds := config.ttlSeconds, issuedAt := request.beganAt }))])
              else ([], []))
            (fun _ rows => (issuanceOf rows request.id).isNone)
          -- the primary key
          require (inserted ∧ request.id ∈ ids)
          return verdict (.allowed (issuedInWindow + 1) config.capPerWindow)

/-- Announces a refusal, in a transaction of its own. -/
def emitTurnRefusal (reason : TurnRefusalReason) (issuedInWindow capPerWindow : Nat) :
    Procedure Session U Id Unit :=
  transaction (return ([.turnCredentialRefused reason issuedInWindow capPerWindow], ()))

/-- Whether the caller got a credential. -/
def issueIceServers [DecidableEq Id] (ids : List Id) (config : TurnGateConfig)
    (request : Request Session U Id) : Procedure Session U Id Bool := do
  -- only who may join the call
  require request.authorized
  if request.relayConfigured = false then return false
  else
    let decision ← checkTurnAllowed ids config request
    match decision with
    | .refused reason issuedInWindow capPerWindow =>
      emitTurnRefusal reason issuedInWindow capPerWindow
      fail
    | .allowed _ _ =>
      transaction (return ([.turnCredentialIssued request.sessionId config.ttlSeconds], ()))
      return true

/-- What other parts of the program do to the rows the gate reads. -/
inductive Change (Session U : Type) where
  | org (status : OrgStatus)
  | session (sessionId : Session) (status : SessionStatus)
  | participant (sessionId : Session) (userId : U) (state : ParticipantState)

def Change.write : Change Session U → Key Session U Id × Row Session U
  | .org status => (.org, .org (some status))
  | .session sessionId status => (.session sessionId, .session (some status))
  | .participant sessionId userId state =>
    (.participant sessionId userId, .participant (some state))

def change (c : Change Session U) : Procedure Session U Id Unit :=
  transaction do
    statement .write (fun _ _ => ([], [c.write])) (fun _ _ => ())
    return ([], ())

inductive Call (Session U Id : Type) where
  | request (r : Request Session U Id)
  | change (c : Change Session U)

def calls [DecidableEq Id] (ids : List Id) (config : TurnGateConfig) :
    Call Session U Id → Script (Key Session U Id) (Row Session U) Label Unit (Note Session Id)
  | .request r => (issueIceServers ids config r).script
  | .change c => (TurnGate.change c).script

/-- A credential is not one too many: counted again from a window before its own
instant, the issued ones are no more than the cap. -/
def Note.WithinCap (ids : List Id) (capPerWindow : Nat) (rows : Rows Session U Id) :
    Note Session Id → Prop
  | .decided _ issuedAt (.allowed _ _) => issuedSince ids rows (issuedAt - WINDOW_MS) ≤ capPerWindow
  | _ => True

/-- What the gate has checked still holds when it commits. -/
def stillBelowCap (ids : List Id) (capPerWindow : Nat) :
    Condition (Key Session U Id) (Row Session U) Label Unit (Note Session Id) where
  commit notes rows := ∀ note ∈ notes, note.WithinCap ids capPerWindow rows

/-- The note of a request that is refused. -/
def Note.Refuses : Note Session Id → Prop
  | .decided _ _ (.refused _ _ _) => True
  | .turnCredentialRefused _ _ _ => True
  | _ => False

theorem Note.Refuses.withinCap {note : Note Session Id} (h : note.Refuses) (ids : List Id)
    (capPerWindow : Nat) (rows : Rows Session U Id) : note.WithinCap ids capPerWindow rows := by
  cases note with
  | decided id issuedAt decision =>
    cases decision with
    | allowed => exact h.elim
    | refused => trivial
  | turnCredentialRefused => trivial
  | turnCredentialIssued => trivial

/-! ### The discipline -/

section
variable [DecidableEq Session] [DecidableEq U] [DecidableEq Id] {S : Type} {ids : List Id}
  {config : TurnGateConfig} {s : S} {t : Transaction (Key Session U Id) (Row Session U)}
  {σ : Shared S (Key Session U Id) (Row Session U) (Note Session Id)}

/-- No window holds more credentials than the cap, and a refusal writes nothing. -/
def discipline (S Session U : Type) {Id : Type} (ids : List Id) (capPerWindow : Nat) :
    Discipline S (Key Session U Id) (Row Session U) Label Unit (Note Session Id) where
  inv σ := ∀ since, issuedWithin ids σ.rows since ≤ capPerWindow
  guarantee _ notes _ σ σ' := ∀ note ∈ notes, note.Refuses → σ'.rows = σ.rows
  rely _ _ _ _ := True
  condition := stillBelowCap ids capPerWindow

omit [DecidableEq Session] [DecidableEq U] [DecidableEq Id] in
theorem stable_any {P : Transaction (Key Session U Id) (Row Session U) → Prop} {cap : Nat} :
    Stable (discipline S Session U ids cap) s fun t _ => P t :=
  fun _ _ _ h _ _ => h

theorem discipline_lawful {cap : Nat} : (discipline S Session U ids cap).Lawful where
  refl _ _ _ := trivial
  trans _ _ := trivial
  rely _ _ _ _ _ _ := trivial

/-- A row is added, and counted in the windows it is in. -/
theorem issuedWithin_update {rows : Rows Session U Id} {id : Id} {row : Issuance Session U}
    {cap : Nat} (hinv : ∀ since, issuedWithin ids rows since ≤ cap)
    (hagain : issuedSince ids (Function.update rows (.issuance id) (.issuance (some row)))
      (row.issuedAt - WINDOW_MS) ≤ cap) (since : Int) :
    issuedWithin ids (Function.update rows (.issuance id) (.issuance (some row))) since ≤ cap := by
  by_cases hin : since ≤ row.issuedAt ∧ row.issuedAt ≤ since + WINDOW_MS
  -- the window begins no earlier than the count that was made again
  · refine Nat.le_trans (List.countP_mono_left fun other _ hother => ?_) hagain
    obtain ⟨found, hfound, hwithin⟩ := (Option.any_eq_true _ _).mp hother
    rw [hfound, Option.any_some]
    simp only [decide_eq_true_eq] at hwithin ⊢
    omega
  · refine Nat.le_trans (List.countP_mono_left fun other _ hother => ?_) (hinv since)
    obtain ⟨found, hfound, hwithin⟩ := (Option.any_eq_true _ _).mp hother
    by_cases hother : other = id
    · subst hother
      simp only [issuanceOf, Function.update_self, Row.issuance?, Option.some.injEq] at hfound
      subst hfound
      exact absurd (by simpa using hwithin) hin
    · rw [issuanceOf, Function.update_of_ne (by simpa using hother)] at hfound
      rw [issuanceOf, hfound]
      exact hwithin

/-- The end of the gate's transaction: it has refused and written nothing, or
recorded the credential. -/
def Decides (request : Request Session U Id) (r : List (Note Session Id) × TurnDecision) :
    Transaction (Key Session U Id) (Row Session U) → Prop := fun t =>
  (∃ reason n cap, r.1 = [.decided request.id request.beganAt (.refused reason n cap)] ∧
    t.pending = []) ∨
  ∃ n cap row, r.1 = [.decided request.id request.beganAt (.allowed n cap)] ∧
    t.pending = [(.issuance request.id, .issuance (some row))] ∧ row.issuedAt = request.beganAt

theorem Decides.commit {request : Request Session U Id}
    {r : List (Note Session Id) × TurnDecision} {cap : Nat} (h : Decides request r t)
    (hinv : (discipline S Session U ids cap).inv σ)
    (hc : (stillBelowCap ids cap).commit r.1 (t.view σ)) :
    (discipline S Session U ids cap).inv (σ.commit s t r.1) ∧
      (discipline S Session U ids cap).guarantee s r.1 t.own σ (σ.commit s t r.1) := by
  rcases h with ⟨reason, n, cap', hr, hpending⟩ | ⟨n, cap', row, hr, hpending, hissued⟩
  · have hrows : (σ.commit s t r.1).rows = σ.rows := by
      simp [Shared.commit, Transaction.view, hpending]
    refine ⟨fun since => ?_, fun _ _ _ => hrows⟩
    rw [hrows]
    exact hinv since
  · have hrows : t.view σ = Function.update σ.rows (.issuance request.id) (.issuance (some row)) := by
      simp [Transaction.view, hpending]
    refine ⟨fun since => ?_, fun note hnote hrefuses => ?_⟩
    · have hagain := hc _ (by rw [hr]; exact List.mem_singleton_self _)
      simp only [Note.WithinCap, hrows, ← hissued] at hagain
      change issuedWithin ids (t.view σ) since ≤ cap
      rw [hrows]
      exact issuedWithin_update hinv hagain since
    · rw [hr, List.mem_singleton] at hnote
      subst hnote
      exact hrefuses.elim

theorem triple_checkTurnAllowed {request : Request Session U Id} {cap : Nat} :
    Triple (discipline S Session U ids cap) s (fun t _ => t = .none)
      (checkTurnAllowed ids config request) fun _ t _ => t = .none := by
  refine triple_transaction (R := fun r t _ => Decides request r t) ?_ (fun r => stable_any) ?_
  · refine Triple.bind (Q := fun _ t _ => t = .none)
      (triple_select stable_none fun _ _ h _ _ _ _ => h) fun orgStatus => ?_
    refine Triple.bind (Q := fun _ t _ => t = .none)
      (triple_select stable_none fun _ _ h _ _ _ _ => h) fun issuedInWindow => ?_
    have hrefuse (reason : TurnRefusalReason) : Triple (discipline S Session U ids cap) s
        (fun t _ => t = .none)
        (pure ([.decided request.id request.beganAt (.refused reason issuedInWindow
          config.capPerWindow)], .refused reason issuedInWindow config.capPerWindow))
        fun r t _ => Decides request r t :=
      triple_pure fun t _ h => Or.inl ⟨reason, issuedInWindow, config.capPerWindow, rfl, h ▸ rfl⟩
    apply Triple.ite (fun _ => hrefuse _)
    intro _
    refine Triple.bind (Q := fun _ t _ => t = .none)
      (triple_select stable_none fun _ _ h _ _ _ _ => h) fun participant => ?_
    cases participant with
    | none => exact hrefuse _
    | some participant =>
      apply Triple.ite (fun _ => hrefuse _)
      intro _
      apply Triple.ite (fun _ => hrefuse _)
      intro _
      apply Triple.ite (fun _ => hrefuse _)
      intro _
      refine Triple.bind (Q := fun _ t _ => t = .none) (triple_require fun _ _ h _ => h) fun _ => ?_
      refine Triple.bind (Q := fun inserted t _ => inserted = true → ∃ row,
        t.pending = [(.issuance request.id, .issuance (some row))] ∧
          row.issuedAt = request.beganAt) (triple_statement stable_none ?_) fun inserted => ?_
      · rintro t σ _ _ rfl _ _ _ hnone
        simp only [hnone, if_true]
        exact ⟨_, rfl, rfl⟩
      · refine Triple.bind (Q := fun _ t _ => ∃ row,
          t.pending = [(.issuance request.id, .issuance (some row))] ∧
            row.issuedAt = request.beganAt) (triple_require fun _ _ h hp => h hp.1) fun _ => ?_
        apply triple_pure
        intro t _ h
        obtain ⟨row, hpending, hissued⟩ := h
        exact Or.inr ⟨_, _, row, rfl, hpending, hissued⟩
  · intro r t σ h hinv hc
    obtain ⟨hinv', hguar⟩ := h.commit (s := s) hinv hc
    exact ⟨hinv', hguar, rfl⟩

/-- A transaction that only appends an event. -/
theorem triple_emit {note : Note Session Id} {cap : Nat} :
    Triple (discipline S Session U ids cap) s (fun t _ => t = .none)
      (transaction (pure ([note], ()))) fun _ t _ => t = .none := by
  refine triple_transaction (R := fun _ t _ => t = .none) (triple_pure fun _ _ h => h)
    (fun _ => stable_any) ?_
  rintro r t σ rfl hinv _
  exact ⟨hinv, fun _ _ _ => rfl, rfl⟩

theorem triple_issueIceServers {request : Request Session U Id} {cap : Nat} :
    Triple (discipline S Session U ids cap) s (fun t _ => t = .none)
      (issueIceServers ids config request) fun _ t _ => t = .none := by
  refine Triple.bind (Q := fun _ t _ => t = .none) (triple_require fun _ _ h _ => h) fun _ => ?_
  refine Triple.ite (fun _ => triple_pure fun _ _ h => h) fun _ => ?_
  apply (triple_checkTurnAllowed).bind
  intro decision
  cases decision with
  | refused => exact (triple_emit).bind fun _ => triple_fail
  | allowed => exact (triple_emit).bind fun _ => triple_pure fun _ _ h => h

/-- What the rest of the program changes are not the issued credentials. -/
theorem triple_change {c : Change Session U} {cap : Nat} :
    Triple (discipline S Session U ids cap) s (fun t _ => t = .none) (change c)
      fun _ t _ => t = .none := by
  refine triple_transaction (R := fun r t _ => r.1 = [] ∧ t.pending = [c.write])
    (Triple.bind (Q := fun _ t _ => t.pending = [c.write])
      (triple_statement stable_none ?_) fun _ => triple_pure fun _ _ h => ⟨rfl, h⟩)
    (fun _ => stable_any) ?_
  · rintro t σ _ _ rfl _ _ _
    rfl
  · rintro ⟨_, _⟩ t σ ⟨rfl, hpending⟩ hinv _
    refine ⟨fun since => ?_, by simp [discipline], rfl⟩
    have hsame (id : Id) : issuanceOf (σ.commit s t []).rows id = issuanceOf σ.rows id := by
      cases c <;> simp [Shared.commit, Transaction.view, hpending, Change.write, issuanceOf]
    simpa only [issuedWithin, hsame] using hinv since

end

/-! ### Runs -/

/-- Nothing has been issued yet. -/
def noIssuances (org : Option OrgStatus) (session : Session → Option SessionStatus)
    (participant : Session → U → Option ParticipantState) : Rows Session U Id
  | .org => .org org
  | .session sessionId => .session (session sessionId)
  | .participant sessionId userId => .participant (participant sessionId userId)
  | .issuance _ => .issuance none

instance {ids : List Id} {cap : Nat} {note : Note Session Id} {rows : Rows Session U Id} :
    Decidable (note.WithinCap ids cap rows) :=
  match note with
  | .decided _ issuedAt (.allowed _ _) =>
    inferInstanceAs (Decidable (issuedSince ids rows (issuedAt - WINDOW_MS) ≤ cap))
  | .decided _ _ (.refused _ _ _) => isTrue trivial
  | .turnCredentialRefused _ _ _ => isTrue trivial
  | .turnCredentialIssued _ _ => isTrue trivial

instance {ids : List Id} {cap : Nat} {notes : List (Note Session Id)} {rows : Rows Session U Id} :
    Decidable ((stillBelowCap ids cap).commit notes rows) :=
  inferInstanceAs (Decidable (∀ note ∈ notes, note.WithinCap ids cap rows))

instance {ids : List Id} {cap : Nat} {notes log : List (Note Session Id)} :
    Decidable ((stillBelowCap ids cap : Condition _ (Row Session U) _ _ _).history notes log) :=
  isTrue trivial

instance {ids : List Id} {cap : Nat} {label : Label} {i : Unit} {rows : Rows Session U Id}
    {held : Key Session U Id → Bool} :
    Decidable
      ((stillBelowCap ids cap : Condition _ (Row Session U) _ _ _).statement label i rows held) :=
  isTrue trivial

/-- Two people in a call. -/
def twoInCall : Rows String String Nat :=
  noIssuances (some .active) (fun _ => some .active) fun _ userId =>
    if userId = "ada" ∨ userId = "bob" then some .joined else none

/-- One credential a day. -/
def oneADay : TurnGateConfig where
  capPerWindow := 1
  ttlSeconds := 3600

/-- The request of one of them at an instant. -/
def requestOf (userId : String) (id : Nat) (now : Int) : Call String String Nat :=
  .request
    { sessionId := "call", userId := userId, id := id, beganAt := now, now := now,
      authorized := true, relayConfigured := true }

end TurnGate
end TaskFlow
