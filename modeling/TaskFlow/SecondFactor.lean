import Mathlib.Data.String.Basic
import TaskFlow.ScriptLogic

/-! # The second factor

Whether `login` asks for a second factor depends on `confirmed_at` of the account's row in
`identity.totp_credentials`.  `confirmEnrollment` sets it and `disable` deletes the row; but
`startEnrollment` clears it as well, on whatever row there is.

From a confirmed enrolment to the next `disable` a login with the password alone fails in every
run in which enrolments start on rows that are not confirmed and end on rows that are there, and
in which a login's check still holds when its session is committed (`closed_of_kept`).
-/
namespace TaskFlow
namespace SecondFactor
open ReadCommitted ReadCommitted.Script ReadCommitted.Procedure

abbrev UserId := String

abbrev Secret := String

abbrev Code := String

/-- A row of `identity.totp_credentials` but for its key.  The secret is as it is decrypted. -/
structure TotpCredential where
  secret : Secret
  confirmedAt : Option Int
  lastUsedStep : Option Int
  deriving DecidableEq, Repr

abbrev Rows := UserId → Option TotpCredential

def isConfirmed (credential : Option TotpCredential) : Bool :=
  (credential.bind TotpCredential.confirmedAt).isSome

/-- The account has a confirmed credential. -/
def confirmed (rows : Rows) (userId : UserId) : Bool := isConfirmed (rows userId)

inductive Method where
  | password
  | totp
  deriving DecidableEq, Repr

inductive Note where
  | totpEnrolled (userId : UserId)
  | totpDisabled (userId : UserId)
  /-- A code is accepted: the time as it was read, the time the library checked the code at, and
  the library's answer. -/
  | codeAccepted (userId : UserId) (read checked delta : Int)
  | userLoggedIn (userId : UserId) (method : Method)
  deriving DecidableEq, Repr

/-- The statements, and the readings of the clock. -/
inductive Label where
  | clock
  | getTotpCredential
  | upsertPendingTotp (userId : UserId)
  | confirmTotp (userId : UserId)
  | deleteTotp
  | claimTotpStep
  | createSession
  deriving DecidableEq, Repr

/-- A statement is told the time, in milliseconds. -/
abbrev Procedure (α : Type) :=
  ReadCommitted.Procedure UserId (Option TotpCredential) Label Int Note α

/-! ### The repository -/

def getTotpCredential (userId : UserId) : Procedure (Option TotpCredential) :=
  transaction do
    let found ← select .getTotpCredential fun rows => rows userId
    return ([], found)

/-- A statement on the account's row, in a transaction of its own, with notes by whether it wrote
the row; says whether it did. -/
def writeRow (label : Label) (userId : UserId)
    (f : Int → Option TotpCredential → Option (Option TotpCredential))
    (notes : Bool → List Note) : Procedure Bool :=
  transaction do
    let written ← update label userId f
    return (notes written.isSome, written.isSome)

/-- INSERT of an unconfirmed credential, ON CONFLICT DO UPDATE. -/
def upsertPendingTotp (userId : UserId) (secret : Secret) : Procedure Bool :=
  writeRow (.upsertPendingTotp userId) userId (fun _ credential =>
    some (some ⟨secret, none, credential.bind TotpCredential.lastUsedStep⟩)) fun _ => []

def confirmTotp (userId : UserId) : Procedure Bool :=
  writeRow (.confirmTotp userId) userId (fun now credential =>
    credential.map fun credential => some { credential with confirmedAt := some now })
    fun _ => [.totpEnrolled userId]

def deleteTotp (userId : UserId) : Procedure Bool :=
  writeRow .deleteTotp userId (fun _ credential => credential.map fun _ => none)
    fun _ => [.totpDisabled userId]

/-- Retires a step; says whether it had not been retired. -/
def claimTotpStep (userId : UserId) (step : Int) (accepted : Note) : Procedure Bool :=
  writeRow .claimTotpStep userId (fun _ credential =>
    (credential.filter fun credential => credential.lastUsedStep.all (· < step)).map
      fun credential => some { credential with lastUsedStep := some step })
    fun claimed => if claimed then [accepted] else []

/-- The session of a login. -/
def createSession (userId : UserId) (method : Method) : Procedure Unit :=
  transaction do
    select .createSession fun _ => ()
    return ([.userLoggedIn userId method], ())

/-! ### The services -/

section
-- the library: by how many steps the code is off the time, if it is in the window
variable (checkDelta : Int → Code → Secret → Option Int)

/-- The 30-second step a time is in. -/
def stepOf (now : Int) : Int := now / 1000 / 30

structure TotpVerification where
  valid : Bool
  step : Int
  /-- What the step was computed from. -/
  read : Int
  checked : Int
  delta : Int
  deriving DecidableEq, Repr

/-- The clock is read, and then the library reads it again. -/
def verifyTotpCode (code : Code) (secret : Secret) : Procedure TotpVerification := do
  let read ← statement .clock (fun _ _ => ([], [])) fun now _ => now
  let checked ← statement .clock (fun _ _ => ([], [])) fun now _ => now
  match checkDelta checked code secret with
  | none => return ⟨false, stepOf read, read, checked, 0⟩
  | some delta => return ⟨true, stepOf read + delta, read, checked, delta⟩

def startEnrollment (userId : UserId) (secret : Secret) : Procedure Unit := do
  let _ ← upsertPendingTotp userId secret

def confirmEnrollment (userId : UserId) (code : Code) : Procedure Unit := do
  let found ← getTotpCredential userId
  let credential ← ofOption found
  let verification ← verifyTotpCode checkDelta code credential.secret
  require verification.valid
  let _ ← confirmTotp userId

def disable (userId : UserId) : Procedure Unit := do
  let _ ← deleteTotp userId

/-- A login by the password, of an account that may log in; it ends with a challenge where the
second factor is confirmed. -/
def login (userId : UserId) (correct : Bool) : Procedure Unit := do
  require correct
  let totp ← getTotpCredential userId
  require (isConfirmed totp = false)
  createSession userId .password

/-- Answers a challenge. -/
def verifyLogin (userId : UserId) (code : Code) : Procedure Unit := do
  let found ← getTotpCredential userId
  let credential ← ofOption found
  require credential.confirmedAt.isSome
  let verification ← verifyTotpCode checkDelta code credential.secret
  require verification.valid
  let claimed ← claimTotpStep userId verification.step
    (.codeAccepted userId verification.read verification.checked verification.delta)
  require claimed
  createSession userId .totp

inductive Call where
  | startEnrollment (userId : UserId) (secret : Secret)
  | confirmEnrollment (userId : UserId) (code : Code)
  | disable (userId : UserId)
  | login (userId : UserId) (correct : Bool)
  | verifyLogin (userId : UserId) (code : Code)
  deriving DecidableEq, Repr

def calls : Call → Script UserId (Option TotpCredential) Label Int Note
  | .startEnrollment userId secret => (startEnrollment userId secret).script
  | .confirmEnrollment userId code => (confirmEnrollment checkDelta userId code).script
  | .disable userId => (disable userId).script
  | .login userId correct => (login userId correct).script
  | .verifyLogin userId code => (verifyLogin checkDelta userId code).script

end

/-! ### Closed to the password alone -/

/-- Whether an enrolment is in force after these notes, the most recent first; `start` says
whether it is before them. -/
def enrolled (start : UserId → Bool) (userId : UserId) : List Note → Bool
  | [] => start userId
  | .totpEnrolled other :: notes => other = userId || enrolled start userId notes
  | .totpDisabled other :: notes => other ≠ userId && enrolled start userId notes
  | .codeAccepted .. :: notes | .userLoggedIn _ _ :: notes => enrolled start userId notes

/-- No login by the password alone comes while an enrolment is in force. -/
def Closed (start : UserId → Bool) (notes : List Note) : Prop :=
  ∀ later userId earlier, notes = later ++ .userLoggedIn userId .password :: earlier →
    enrolled start userId earlier = false

/-- A login by the password that is noted would still be let in. -/
def Note.StillOpen (rows : Rows) : Note → Prop
  | .userLoggedIn userId .password => confirmed rows userId = false
  | _ => True

instance (rows : Rows) : (note : Note) → Decidable (note.StillOpen rows)
  | .userLoggedIn userId .password => inferInstanceAs (Decidable (confirmed rows userId = false))
  | .userLoggedIn _ .totp | .totpEnrolled _ | .totpDisabled _ | .codeAccepted .. => isTrue trivial

/-- What a run has to keep to: an enrolment starts on a row that is not confirmed and ends on a
row that is there; and where the session of a login is committed, the row it was let in for is
still not confirmed. -/
def keeping : Condition UserId (Option TotpCredential) Label Int Note where
  statement label _ rows _ :=
    match label with
    | .upsertPendingTotp userId => confirmed rows userId = false
    | .confirmTotp userId => rows userId ≠ none
    | _ => True
  commit notes rows := ∀ note ∈ notes, note.StillOpen rows

/-- An enrolment that is in force is in its row, and the logins so far were as they should be. -/
structure InForce (start : UserId → Bool) (rows : Rows) (notes : List Note) : Prop where
  row : ∀ userId, enrolled start userId notes = true → confirmed rows userId = true
  closed : Closed start notes

/-- Sessions that keep an invariant of the rows and the notes, and rely on the rows they have
locked. -/
def rowDiscipline (S : Type) (inv : Rows → List Note → Prop)
    (condition : Condition UserId (Option TotpCredential) Label Int Note) :
    Discipline S UserId (Option TotpCredential) Label Int Note where
  inv σ := inv σ.rows (σ.log.map Prod.snd)
  guarantee _ _ _ _ _ := True
  rely _ own σ σ' := ∀ userId, own userId → σ'.rows userId = σ.rows userId
  condition := condition

abbrev discipline (S : Type) (start : UserId → Bool) :
    Discipline S UserId (Option TotpCredential) Label Int Note :=
  rowDiscipline S (InForce start) keeping

/-- The account's row may have been written: it was locked then, and has been changed by `R`. -/
def Wrote {S : Type} (userId : UserId)
    (R : Option TotpCredential → Option TotpCredential → Prop)
    (t : Transaction UserId (Option TotpCredential))
    (σ : Shared S UserId (Option TotpCredential) Note) : Prop :=
  (t = .none ∧ ∀ row, R row row) ∨
    t.own userId ∧ ∃ row, t.pending = [(userId, row)] ∧ R (σ.rows userId) row

section
variable {S : Type} {s : S} {start : UserId → Bool} {userId : UserId} {log : List Note}
  {R : Option TotpCredential → Option TotpCredential → Prop}
  {t : Transaction UserId (Option TotpCredential)}
  {σ : Shared S UserId (Option TotpCredential) Note} {inv : Rows → List Note → Prop}
  {condition : Condition UserId (Option TotpCredential) Label Int Note}

/-! ### Statements -/

theorem discipline_lawful : (rowDiscipline S inv condition).Lawful where
  refl := fun _ _ _ _ _ => rfl
  trans := fun h h' userId hown => (h' userId hown).trans (h userId hown)
  rely := fun _ _ hown _ _ _ => hown

theorem wrote_stable : Stable (rowDiscipline S inv condition) s (Wrote userId R) := by
  rintro t σ σ' (h | ⟨hown, row, hpending, hrow⟩) hrely -
  · exact .inl h
  · exact .inr ⟨hown, row, hpending, by rwa [hrely userId hown]⟩

/-- What the row is after the commit. -/
theorem Wrote.view (h : Wrote userId R t σ) :
    (∀ other, other ≠ userId → t.view σ other = σ.rows other) ∧
      R (σ.rows userId) (t.view σ userId) := by
  rcases h with ⟨rfl, hrefl⟩ | ⟨-, row, hpending, hrow⟩
  · exact ⟨fun _ _ => rfl, hrefl _⟩
  · rw [Transaction.view, hpending, overlay_cons, overlay_nil]
    exact ⟨fun other hne => Function.update_of_ne hne _ _, by rwa [Function.update_self]⟩

/-- A write keeps to the discipline if what it makes of the row, and notes, keeps the
invariant; `R` says what it makes of the row, where it writes it and where it does not. -/
theorem triple_writeRow {label : Label} {notes : Bool → List Note}
    {f : Int → Option TotpCredential → Option (Option TotpCredential)}
    (R : Bool → Option TotpCredential → Option TotpCredential → Prop)
    (hskip : ∀ now rows held, condition.statement label now rows held →
      f now (rows userId) = none → ∀ row, R false row row)
    (hwrite : ∀ now rows held, condition.statement label now rows held → ∀ row,
      f now (rows userId) = some row → R true (rows userId) row)
    (hcommit : ∀ (written : Bool) (rows rows' : Rows) (log : List Note), inv rows log →
      (∀ other, other ≠ userId → rows' other = rows other) →
      R written (rows userId) (rows' userId) → condition.commit (notes written) rows' →
      inv rows' (notes written ++ log)) :
    Triple (rowDiscipline S inv condition) s (fun t _ => t = .none)
      (writeRow label userId f notes) fun _ t _ => t = .none := by
  refine triple_transaction_noted (R := fun written => Wrote userId (R written.isSome))
    (triple_update stable_none ?_ ?_) (fun _ => wrote_stable) ?_
  · rintro t σ now held row rfl - hf - hcondition
    exact .inr ⟨.inr (by simp), row, rfl, hwrite now σ.rows held hcondition row hf⟩
  · rintro t σ now held rfl - hf hcondition
    exact .inl ⟨rfl, hskip now σ.rows held hcondition hf⟩
  · intro written t σ h hinv hcondition
    obtain ⟨hother, hrow⟩ := h.view
    have hafter := hcommit _ σ.rows (t.view σ) _ hinv hother hrow hcondition
    have hlog : (σ.commit s t (notes written.isSome)).log.map Prod.snd =
        notes written.isSome ++ σ.log.map Prod.snd := by
      simp [Shared.commit]
    rw [← hlog] at hafter
    exact ⟨hafter, trivial, rfl⟩

theorem triple_getTotpCredential :
    Triple (rowDiscipline S inv condition) s (fun t _ => t = .none) (getTotpCredential userId)
      fun _ t _ => t = .none :=
  triple_transaction_noted (R := fun _ t _ => t = .none)
    (triple_select stable_none fun _ _ h _ _ _ _ => h) (fun _ => stable_none)
    fun _ t σ h hinv _ => by
      obtain rfl : t = .none := h
      exact ⟨hinv, trivial, rfl⟩

/-- What the check of a code finds. -/
theorem triple_verifyTotpCode {checkDelta : Int → Code → Secret → Option Int} {code : Code}
    {secret : Secret} :
    Triple (rowDiscipline S inv condition) s (fun t _ => t = .none)
      (verifyTotpCode checkDelta code secret) fun verification t _ =>
        (verification.valid = true →
          verification.step = stepOf verification.read + verification.delta) ∧ t = .none := by
  have hclock : Triple (rowDiscipline S inv condition) s (fun t _ => t = .none)
      (statement .clock (fun _ _ => ([], [])) fun now _ => now) fun _ t _ => t = .none :=
    triple_statement stable_none fun t σ _ _ h _ _ _ => by
      obtain rfl : t = .none := h
      exact Transaction.run_none
  refine hclock.bind fun read => hclock.bind fun checked => ?_
  cases checkDelta checked code secret with
  | none => exact triple_pure fun _ _ h => ⟨fun hvalid => absurd hvalid Bool.false_ne_true, h⟩
  | some delta => exact triple_pure fun _ _ h => ⟨fun _ => rfl, h⟩

/-! ### Runs -/

theorem closed_nil : Closed start [] := by
  intro later userId earlier h
  cases later <;> cases h

theorem closed_cons_iff {note : Note} : Closed start (note :: log) ↔
    (∀ userId, note = .userLoggedIn userId .password → enrolled start userId log = false) ∧
      Closed start log := by
  constructor
  · intro h
    refine ⟨fun userId hnote => h [] userId log (by rw [hnote]; rfl), ?_⟩
    rintro later userId earlier rfl
    exact h (note :: later) userId earlier rfl
  · rintro ⟨hnote, hrest⟩ later userId earlier heq
    cases later with
    | nil =>
      obtain ⟨rfl, rfl⟩ := List.cons.inj heq
      exact hnote userId rfl
    | cons other later => exact hrest later userId earlier (List.cons.inj heq).2

theorem triple_upsertPendingTotp {secret : Secret} :
    Triple (discipline S start) s (fun t _ => t = .none) (upsertPendingTotp userId secret)
      fun _ t _ => t = .none := by
  refine triple_writeRow
    (fun _ row row' => isConfirmed row = false ∧ isConfirmed row' = false)
    (fun _ _ _ _ h => by cases h) ?_ ?_
  · rintro now rows held hkeeping row h
    obtain rfl := Option.some.inj h
    exact ⟨hkeeping, rfl⟩
  · rintro - rows rows' log h hother ⟨hbefore, -⟩ -
    refine ⟨fun other henrolled => ?_, h.closed⟩
    have hconfirmed := h.row other henrolled
    by_cases hsame : other = userId
    · subst hsame
      rw [confirmed, hbefore] at hconfirmed
      cases hconfirmed
    · rwa [confirmed, hother other hsame]

theorem triple_confirmTotp :
    Triple (discipline S start) s (fun t _ => t = .none) (confirmTotp userId)
      fun _ t _ => t = .none := by
  refine triple_writeRow (fun _ _ row => isConfirmed row = true) ?_ ?_ ?_
  · intro now rows held hkeeping h
    exact absurd (Option.map_eq_none_iff.mp h) hkeeping
  · intro now rows held _ row h
    obtain ⟨credential, -, rfl⟩ := Option.map_eq_some_iff.mp h
    rfl
  · intro _ rows rows' log h hother hrow _
    refine ⟨fun other henrolled => ?_, (closed_cons_iff).mpr ⟨fun _ hnote => ?_, h.closed⟩⟩
    · by_cases hsame : other = userId
      · rwa [hsame]
      · have henrolled : enrolled start other log = true := by
          simpa [enrolled, Ne.symm hsame] using henrolled
        rw [confirmed, hother other hsame]
        exact h.row other henrolled
    · cases hnote

theorem triple_deleteTotp :
    Triple (discipline S start) s (fun t _ => t = .none) (deleteTotp userId)
      fun _ t _ => t = .none := by
  refine triple_writeRow (fun _ _ _ => True) (fun _ _ _ _ _ _ => trivial)
    (fun _ _ _ _ _ _ => trivial) ?_
  intro _ rows rows' log h hother _ _
  refine ⟨fun other henrolled => ?_, (closed_cons_iff).mpr ⟨fun _ hnote => ?_, h.closed⟩⟩
  · have henrolled : userId ≠ other ∧ enrolled start other log = true := by
      simpa [enrolled] using henrolled
    rw [confirmed, hother other henrolled.1.symm]
    exact h.row other henrolled.2
  · cases hnote

theorem triple_claimTotpStep {step read checked delta : Int} :
    Triple (discipline S start) s (fun t _ => t = .none)
      (claimTotpStep userId step (.codeAccepted userId read checked delta))
      fun _ t _ => t = .none := by
  refine triple_writeRow (fun _ row row' => isConfirmed row' = isConfirmed row)
    (fun _ _ _ _ _ _ => rfl) ?_ ?_
  · intro now rows held _ row h
    obtain ⟨credential, hfilter, rfl⟩ := Option.map_eq_some_iff.mp h
    rw [(Option.filter_eq_some_iff.mp hfilter).1]
    rfl
  · intro written rows rows' log h hother hrow _
    have hrows : ∀ other, confirmed rows' other = confirmed rows other := by
      intro other
      by_cases hsame : other = userId
      · rw [hsame]
        exact hrow
      · rw [confirmed, confirmed, hother other hsame]
    cases written with
    | false => exact ⟨fun other henrolled => (hrows other).trans (h.row other henrolled), h.closed⟩
    | true =>
      refine ⟨fun other henrolled => (hrows other).trans (h.row other henrolled),
        (closed_cons_iff).mpr ⟨fun _ hnote => ?_, h.closed⟩⟩
      cases hnote

/-- A session is committed where the condition lets it. -/
theorem triple_createSession {method : Method} :
    Triple (discipline S start) s (fun t _ => t = .none) (createSession userId method)
      fun _ t _ => t = .none := by
  refine triple_transaction_noted (R := fun _ t _ => t = .none)
    (triple_select stable_none fun _ _ h _ _ _ _ => h) (fun _ => stable_none) ?_
  rintro - t σ rfl hinv hkeeping
  refine ⟨⟨hinv.row, (closed_cons_iff).mpr ⟨fun other hnote => ?_, hinv.closed⟩⟩, trivial, rfl⟩
  obtain ⟨rfl, rfl⟩ := Note.userLoggedIn.inj hnote
  have hnot : confirmed σ.rows userId = false := hkeeping _ (List.mem_singleton_self _)
  by_contra henrolled
  have hconfirmed := hinv.row userId (Bool.eq_true_of_not_eq_false henrolled)
  rw [hnot] at hconfirmed
  cases hconfirmed

theorem safe_calls {checkDelta : Int → Code → Secret → Option Int} (call : Call)
    (σ : Shared S UserId (Option TotpCredential) Note) :
    Safe (discipline S start) s (calls checkDelta call) .none σ := by
  cases call with
  | startEnrollment userId secret =>
    exact ((triple_upsertPendingTotp).bind fun _ => triple_pure fun _ _ h => h).safe σ
  | confirmEnrollment userId code =>
    exact ((triple_getTotpCredential).bind fun _ => Triple.ofOption fun _ _ =>
      (triple_verifyTotpCode).bind fun _ => Triple.of_fact fun _ => Triple.require fun _ =>
        (triple_confirmTotp).bind fun _ => triple_pure fun _ _ h => h).safe σ
  | disable userId => exact ((triple_deleteTotp).bind fun _ => triple_pure fun _ _ h => h).safe σ
  | login userId correct =>
    exact (Triple.require fun _ => (triple_getTotpCredential).bind fun _ => Triple.require fun _ =>
      triple_createSession).safe σ
  | verifyLogin userId code =>
    exact ((triple_getTotpCredential).bind fun _ => Triple.ofOption fun _ _ =>
      Triple.require fun _ => (triple_verifyTotpCode).bind fun _ => Triple.of_fact fun _ =>
        Triple.require fun _ => (triple_claimTotpStep).bind fun _ => Triple.require fun _ =>
          triple_createSession).safe σ

end

instance (label : Label) (now : Int) (rows : Rows) (held : UserId → Bool) :
    Decidable (keeping.statement label now rows held) :=
  match label with
  | .upsertPendingTotp userId => inferInstanceAs (Decidable (confirmed rows userId = false))
  | .confirmTotp userId => inferInstanceAs (Decidable (rows userId ≠ none))
  | .clock | .getTotpCredential | .deleteTotp | .claimTotpStep | .createSession => isTrue trivial

instance (notes : List Note) (rows : Rows) : Decidable (keeping.commit notes rows) :=
  inferInstanceAs (Decidable (∀ note ∈ notes, note.StillOpen rows))

instance (notes log : List Note) : Decidable (keeping.history notes log) :=
  isTrue trivial

/-- Every code is right, for the step the time is in. -/
def anyCode (_ : Int) (_ : Code) (_ : Secret) : Option Int := some 0

/-- A call, and its steps. -/
def made (call : Call) (steps : Nat) (now : Int) : List (Unit × Input Call Int) :=
  ((), .call call) :: List.replicate steps ((), .next now)

/-- An enrolment, a login that is refused, and one with both factors. -/
def enrolledAndBack : List (Unit × Input Call Int) :=
  made (.startEnrollment "u" "s") 2 0 ++ made (.confirmEnrollment "u" "123456") 6 30000 ++
    made (.login "u" true) 3 60000 ++ made (.verifyLogin "u" "123456") 8 60000

/-- An account with a confirmed second factor. -/
def secured (userId : UserId) : Option TotpCredential :=
  if userId = "u" then some ⟨"s", some 0, none⟩ else none

end SecondFactor
end TaskFlow
