import Mathlib.Data.List.Count
import Mathlib.Order.Lattice
import TaskFlow.ScriptLogic

/-! # The lockout of a login

`login` looks whether the account is locked, evaluates the password, and then, in another
transaction, counts the failure and locks the account when there are `lockThreshold` of them.  The
database adds the failures up, so none is lost; but between the look and the count other attempts
are let in.

Where no more passwords are waiting to be counted than there is room for, and a lock that is set
is neither looked past, nor cleared, nor put back, at most `lockThreshold` wrong passwords are
evaluated before the account is locked, and none while it is (`bounded_of_kept`).
-/
namespace TaskFlow
namespace LoginLockout
open ReadCommitted ReadCommitted.Script ReadCommitted.Procedure

abbrev UserId := String

inductive UserStatus where
  | active
  | suspended
  deriving DecidableEq, Repr

/-- A row of `identity.users` as far as it matters to a login, with the second factor of the
account. -/
structure User where
  passwordHash : Option String
  status : UserStatus
  emailVerifiedAt : Option Int
  totpConfirmedAt : Option Int
  failedLoginCount : Nat
  lockedUntil : Option Int
  deriving DecidableEq, Repr

abbrev Rows := UserId → Option User

/-- What attempts do: when their login read the clock, and when they do it. -/
inductive Note where
  | evaluated (userId : UserId) (correct : Bool) (read time : Int)
  | failed (userId : UserId) (read time : Int) (locks : Bool)
  | cleared (userId : UserId) (read time : Int)
  deriving DecidableEq, Repr

def Note.time : Note → Int
  | .evaluated _ _ _ time | .failed _ _ time _ | .cleared _ _ time => time

/-- The UPDATEs that lock an account and that clear its failures, and every other statement. -/
inductive Label where
  | query
  | lock (userId : UserId) (read : Int)
  | clear (userId : UserId) (read : Int)
  deriving DecidableEq, Repr

/-- A statement is told the time, in milliseconds. -/
abbrev Procedure (α : Type) := ReadCommitted.Procedure UserId (Option User) Label Int Note α

structure Config where
  lockThreshold : Nat
  lockDurationMs : Int
  verifyPassword : String → String → Bool

variable (config : Config)

/-! ### The repository -/

def clock : Procedure Int :=
  statement .query (fun _ _ => ([], [])) fun now _ => now

def findUser (userId : UserId) : Procedure (Option User) :=
  transaction do
    let found ← select .query fun rows => rows userId
    return ([], found)

def updateUser (label : Label) (userId : UserId) (f : User → User) :
    Procedure (Option (Option User)) :=
  update label userId fun _ row => row.map fun user => some (f user)

/-- Locks the account where there are failures enough; says whether it does. -/
def lockAccount (userId : UserId) (failedLoginCount : Nat) (now : Int) : Procedure Bool :=
  if failedLoginCount < config.lockThreshold then
    pure false
  else do
    let _ ← updateUser (.lock userId now) userId fun user =>
      { user with lockedUntil := some (now + config.lockDurationMs) }
    return true

def recordFailedLogin (userId : UserId) (now : Int) : Procedure Unit :=
  transaction do
    let updated ← updateUser .query userId fun user =>
      { user with failedLoginCount := user.failedLoginCount + 1 }
    match updated.join with
    | none => return ([], ())
    | some user =>
      let locks ← lockAccount config userId user.failedLoginCount now
      let time ← clock
      return ([.failed userId now time locks], ())

def clearLoginFailures (userId : UserId) (now : Int) : Procedure Unit :=
  transaction do
    let updated ← updateUser (.clear userId now) userId fun user =>
      { user with failedLoginCount := 0, lockedUntil := none }
    let time ← clock
    return (if updated.isSome then [.cleared userId now time] else [], ())

/-! ### The service -/

/-- The password is evaluated, which no table shows. -/
def evaluate (userId : UserId) (correct : Bool) (now : Int) : Procedure Unit :=
  transaction do
    let time ← clock
    return ([.evaluated userId correct now time], ())

def login (userId : UserId) (password : String) : Procedure Unit := do
  let now ← clock
  let found ← findUser userId
  let user ← ofOption found
  require (user.lockedUntil.all (· ≤ now))
  require (user.status = .active)
  let correct := user.passwordHash.any (config.verifyPassword password)
  evaluate userId correct now
  if correct then
    require user.emailVerifiedAt.isSome
    let account ← findUser userId
    -- with a second factor it ends with a challenge
    require ((account.bind User.totpConfirmedAt).isNone)
    clearLoginFailures userId now
  else
    recordFailedLogin config userId now
    fail

def calls (call : UserId × String) : Script UserId (Option User) Label Int Note :=
  (login config call.1 call.2).script

/-! ### What attempts have done -/

/-- Whether the note is of a wrong password. -/
def guessed (userId : UserId) : Note → Bool
  | .evaluated other correct _ _ => other = userId ∧ correct = false
  | .failed .. | .cleared .. => false

/-- Whether the note is of a failure that is counted. -/
def recorded (userId : UserId) : Note → Bool
  | .failed other _ _ _ => other = userId
  | .evaluated .. | .cleared .. => false

/-- The wrong passwords since the failures were cleared or the account was locked. -/
def guesses (userId : UserId) : List Note → Nat
  | [] => 0
  | .evaluated other correct _ _ :: log =>
    if other = userId ∧ correct = false then guesses userId log + 1 else guesses userId log
  | .failed other _ _ locks :: log =>
    if other = userId ∧ locks then 0 else guesses userId log
  | .cleared other _ _ :: log => if other = userId then 0 else guesses userId log

/-- The failures counted since then. -/
def failures (userId : UserId) : List Note → Nat
  | [] => 0
  | .evaluated .. :: log => failures userId log
  | .failed other _ _ locks :: log =>
    if other = userId then if locks then 0 else failures userId log + 1 else failures userId log
  | .cleared other _ _ :: log => if other = userId then 0 else failures userId log

/-- The wrong passwords that are still to be counted. -/
def waiting (userId : UserId) (log : List Note) : Nat :=
  log.countP (guessed userId) - log.countP (recorded userId)

/-- No password is evaluated within `lockDurationMs` of a failure that locks the account, but for
`slack`. -/
def Refused (slack : Int) (log : List Note) : Prop :=
  ∀ later earlier userId correct read time,
    log = later ++ .evaluated userId correct read time :: earlier →
    ∀ read' time', .failed userId read' time' true ∈ earlier →
      time' + config.lockDurationMs ≤ time + slack

/-! ### What a run keeps to -/

/-- A lock that is in the row is over at this time. -/
def OpenAt (rows : Rows) (userId : UserId) (now : Int) : Prop :=
  ∀ user, rows userId = some user → ∀ lockedUntil ∈ user.lockedUntil, lockedUntil ≤ now

/-- Where a password is evaluated, the account is still open to the login. -/
def Note.Open (rows : Rows) : Note → Prop
  | .evaluated userId _ read _ => OpenAt rows userId read
  | .failed .. | .cleared .. => True

/-- Where a wrong password is evaluated, either none is waiting to be counted or, with those that
are counted, fewer than `lockThreshold`.  The clock does not run backwards, and a failure that
locks the account is counted within `slack` of its login. -/
def Note.InTime (slack : Int) (log : List Note) : Note → Prop
  | .evaluated userId correct read time => read ≤ time ∧ (∀ note ∈ log, note.time ≤ time) ∧
      (correct = false → waiting userId log = 0 ∨
        failures userId log + waiting userId log < config.lockThreshold)
  | .failed _ read time locks => locks = true → time ≤ read + slack
  | .cleared _ read time => read ≤ time

/-- What a run has to keep to; no lock is cleared before it is over, or put back. -/
def keeping (slack : Int) : Condition UserId (Option User) Label Int Note where
  statement label _ rows _ :=
    match label with
    | .query => True
    | .clear userId read => OpenAt rows userId read
    | .lock userId read => OpenAt rows userId (read + config.lockDurationMs)
  commit notes rows := ∀ note ∈ notes, note.Open rows
  history notes log := ∀ note ∈ notes, note.InTime config slack log

/-- What a session has noted. -/
def ownNotes {S : Type} [DecidableEq S] (s : S) (log : List (S × Note)) : List Note :=
  (log.filter fun entry => entry.1 = s).map Prod.snd

/-- No session counts more failures than it has evaluated wrong passwords, the failures since the
last lock are in the row, and a lock is in the row until it is cleared. -/
structure Bounded {S : Type} [DecidableEq S] (slack : Int) (rows : Rows) (log : List (S × Note)) :
    Prop where
  own : ∀ s userId, (ownNotes s log).countP (recorded userId) ≤
    (ownNotes s log).countP (guessed userId)
  bounded : ∀ userId, guesses userId (log.map Prod.snd) ≤ config.lockThreshold
  covered : ∀ userId, guesses userId (log.map Prod.snd) +
      (log.map Prod.snd).countP (recorded userId) ≤
    failures userId (log.map Prod.snd) + (log.map Prod.snd).countP (guessed userId)
  counted : ∀ userId, failures userId (log.map Prod.snd) ≠ 0 → ∃ user, rows userId = some user ∧
    failures userId (log.map Prod.snd) ≤ user.failedLoginCount ∧
    user.failedLoginCount < config.lockThreshold
  locked : ∀ userId read time, .failed userId read time true ∈ log.map Prod.snd →
    (∃ user, rows userId = some user ∧ ∃ lockedUntil ∈ user.lockedUntil,
      time + config.lockDurationMs ≤ lockedUntil + slack) ∨
    ∃ read' time', .cleared userId read' time' ∈ log.map Prod.snd ∧
      time + config.lockDurationMs ≤ time' + slack
  refused : Refused config slack (log.map Prod.snd)

section
variable {config : Config} {slack : Int} {S : Type} [DecidableEq S] {s : S} {rows rows' : Rows}
  {log : List (S × Note)} {userId : UserId}

/-- Counts that are right for each session are right for all. -/
theorem countP_le_of_own {p q : Note → Bool}
    (h : ∀ s, (ownNotes s log).countP p ≤ (ownNotes s log).countP q) :
    (log.map Prod.snd).countP p ≤ (log.map Prod.snd).countP q := by
  -- by the sessions that have noted something
  obtain ⟨sessions, hsessions⟩ : ∃ sessions : List S, ∀ entry ∈ log, entry.1 ∈ sessions :=
    ⟨log.map Prod.fst, fun entry hentry => List.mem_map_of_mem hentry⟩
  induction sessions generalizing log with
  | nil =>
    cases log with
    | nil => exact Nat.le_refl _
    | cons entry log => exact absurd (hsessions entry List.mem_cons_self) List.not_mem_nil
  | cons s sessions ih =>
    let others := log.filter fun entry => ¬entry.1 = s
    have hsplit (r : Note → Bool) : (log.map Prod.snd).countP r =
        (ownNotes s log).countP r + (others.map Prod.snd).countP r := by
      rw [ownNotes, List.countP_map, List.countP_map, List.countP_map,
        List.countP_eq_countP_filter_add log (r ∘ Prod.snd) fun entry => entry.1 = s]
      simp [others]
    have hothers : (others.map Prod.snd).countP p ≤ (others.map Prod.snd).countP q := by
      refine ih (fun s' => ?_) fun entry hentry => ?_
      · by_cases hs : s' = s
        · have hnone : ownNotes s' others = [] := by
            simp [ownNotes, others, hs]
          rw [hnone]
          exact Nat.le_refl _
        · have hsame : ownNotes s' others = ownNotes s' log := by
            rw [ownNotes, ownNotes, List.filter_filter]
            congr 1
            refine List.filter_congr fun entry _ => ?_
            by_cases hentry : entry.1 = s' <;> simp [hentry, hs]
          rw [hsame]
          exact h s'
      · obtain ⟨hmem, hne⟩ := List.mem_filter.mp hentry
        exact (List.mem_cons.mp (hsessions entry hmem)).resolve_left (by simpa using hne)
    rw [hsplit p, hsplit q]
    exact Nat.add_le_add (h s) hothers

/-- Every failure that is counted was a wrong password. -/
theorem Bounded.recorded_le (h : Bounded config slack rows log) (userId : UserId) :
    (log.map Prod.snd).countP (recorded userId) ≤ (log.map Prod.snd).countP (guessed userId) :=
  countP_le_of_own fun s => h.own s userId

theorem ownNotes_cons_self (note : Note) :
    ownNotes s ((s, note) :: log) = note :: ownNotes s log := by
  simp [ownNotes]

theorem ownNotes_cons_other {s' : S} (note : Note) (h : s ≠ s') :
    ownNotes s ((s', note) :: log) = ownNotes s log := by
  simp [ownNotes, Ne.symm h]

theorem refused_nil : Refused config slack [] := by
  intro later earlier userId correct read time h
  cases later <;> cases h

theorem refused_cons_iff {note : Note} {notes : List Note} : Refused config slack (note :: notes) ↔
    (∀ userId correct read time, note = .evaluated userId correct read time →
      ∀ read' time', .failed userId read' time' true ∈ notes →
        time' + config.lockDurationMs ≤ time + slack) ∧ Refused config slack notes := by
  constructor
  · intro h
    refine ⟨fun userId correct read time hnote => h [] notes userId correct read time (by
      rw [hnote]
      rfl), ?_⟩
    rintro later earlier userId correct read time rfl
    exact h (note :: later) earlier userId correct read time rfl
  · rintro ⟨hnote, hrest⟩ later earlier userId correct read time heq
    cases later with
    | nil =>
      obtain ⟨rfl, rfl⟩ := List.cons.inj heq
      exact hnote userId correct read time rfl
    | cons other later =>
      exact hrest later earlier userId correct read time (List.cons.inj heq).2

/-- A session that notes what is no failure. -/
theorem Bounded.own_cons (h : Bounded config slack rows log) (note : Note) (s' : S)
    (hnote : ∀ userId, recorded userId note = true →
      (ownNotes s' log).countP (recorded userId) + 1 ≤
        (ownNotes s' log).countP (guessed userId)) (s : S) (userId : UserId) :
    (ownNotes s ((s', note) :: log)).countP (recorded userId) ≤
      (ownNotes s ((s', note) :: log)).countP (guessed userId) := by
  by_cases hs : s = s'
  · subst hs
    rw [ownNotes_cons_self, List.countP_cons, List.countP_cons]
    by_cases hrecorded : recorded userId note = true
    · rw [if_pos hrecorded]
      exact (hnote userId hrecorded).trans (Nat.le_add_right _ _)
    · rw [if_neg hrecorded]
      exact (h.own s userId).trans (Nat.le_add_right _ _)
  · rw [ownNotes_cons_other note hs]
    exact h.own s userId

/-- **A password that is evaluated in time leaves the guesses bounded, and is not too early.** -/
theorem Bounded.evaluated (hthreshold : 0 < config.lockThreshold)
    (h : Bounded config slack rows log) {correct : Bool} {read time : Int}
    (hopen : OpenAt rows userId read)
    (htime : (Note.evaluated userId correct read time).InTime config slack (log.map Prod.snd)) :
    Bounded config slack rows ((s, .evaluated userId correct read time) :: log) := by
  obtain ⟨hread, hclock, hroom⟩ := htime
  have hguesses (other : UserId) :
      guesses other (.evaluated userId correct read time :: log.map Prod.snd) =
        guesses other (log.map Prod.snd) +
          if guessed other (.evaluated userId correct read time) then 1 else 0 := by
    by_cases hsame : userId = other ∧ correct = false <;> simp [guesses, guessed, hsame]
  refine ⟨h.own_cons _ s fun _ hnote => absurd hnote Bool.false_ne_true, fun other => ?_,
    fun other => ?_, h.counted, fun other read' time' hmem => ?_,
    (refused_cons_iff).mpr ⟨?_, h.refused⟩⟩
  · rw [List.map_cons, hguesses]
    split
    · next hguess =>
      obtain ⟨rfl, hwrong⟩ : userId = other ∧ correct = false := of_decide_eq_true hguess
      have hcovered := h.covered userId
      have hcounted := h.counted userId
      have hroom := hroom hwrong
      unfold waiting at hroom
      by_cases hnone : failures userId (log.map Prod.snd) = 0
      · have hle := h.recorded_le userId
        omega
      · obtain ⟨user, -, hcount, hbelow⟩ := hcounted hnone
        have hle := h.recorded_le userId
        omega
    · exact h.bounded other
  · have hcovered := h.covered other
    rw [List.map_cons, hguesses, List.countP_cons, List.countP_cons]
    have hnot : recorded other (.evaluated userId correct read time) = false := rfl
    rw [hnot, failures]
    simp only [Bool.false_eq_true, if_false]
    omega
  · rw [List.map_cons, List.mem_cons] at hmem
    rcases h.locked other read' time' (hmem.resolve_left fun heq => by cases heq) with
      hrow | ⟨read'', time'', hcleared, hle⟩
    · exact .inl hrow
    · exact .inr ⟨read'', time'', List.mem_cons_of_mem _ hcleared, hle⟩
  · intro other correct' read' time' heq read'' time'' hmem
    obtain ⟨rfl, rfl, rfl, rfl⟩ := Note.evaluated.inj heq
    rcases h.locked userId read'' time'' hmem with
      ⟨user, hrow, lockedUntil, huntil, hle⟩ | ⟨_, time', hcleared, hle⟩
    · have hover : lockedUntil ≤ read := hopen user hrow lockedUntil huntil
      omega
    · have hbefore : time' ≤ time := hclock _ hcleared
      omega

/-- What a failure makes of the account. -/
inductive Counted (config : Config) (read : Int) (user user' : User) : Bool → Prop where
  | below (hcount : user'.failedLoginCount = user.failedLoginCount + 1)
    (hbelow : user'.failedLoginCount < config.lockThreshold)
    (huntil : user'.lockedUntil = user.lockedUntil) : Counted config read user user' false
  | locks (huntil : user'.lockedUntil = some (read + config.lockDurationMs))
    (hover : ∀ lockedUntil ∈ user.lockedUntil, lockedUntil ≤ read + config.lockDurationMs) :
    Counted config read user user' true

/-- Where a row is written, a lock that it keeps or prolongs is still in it. -/
theorem Bounded.locked_update (h : Bounded config slack rows log) {user : User} (user' : User)
    (hrow : rows userId = some user)
    (hkeep : ∀ lockedUntil ∈ user.lockedUntil, ∃ lockedUntil' ∈ user'.lockedUntil,
      lockedUntil ≤ lockedUntil') {other : UserId} {read time : Int}
    (hmem : .failed other read time true ∈ log.map Prod.snd) :
    (∃ user, Function.update rows userId (some user') other = some user ∧
      ∃ lockedUntil ∈ user.lockedUntil, time + config.lockDurationMs ≤ lockedUntil + slack) ∨
    ∃ read' time', .cleared other read' time' ∈ log.map Prod.snd ∧
      time + config.lockDurationMs ≤ time' + slack := by
  rcases h.locked other read time hmem with ⟨found, hfound, lockedUntil, huntil, hle⟩ | hcleared
  · left
    by_cases hsame : other = userId
    · subst hsame
      rw [hrow] at hfound
      obtain rfl := Option.some.inj hfound
      obtain ⟨lockedUntil', huntil', hle'⟩ := hkeep lockedUntil huntil
      exact ⟨user', Function.update_self .., lockedUntil', huntil', by omega⟩
    · exact ⟨found, by rwa [Function.update_of_ne hsame], lockedUntil, huntil, hle⟩
  · exact .inr hcleared

/-- What a failure adds to the counts. -/
theorem countP_failed (userId other : UserId) (read time : Int) (locks : Bool) (notes : List Note) :
    (Note.failed userId read time locks :: notes).countP (recorded other) =
        notes.countP (recorded other) + (if userId = other then 1 else 0) ∧
      (Note.failed userId read time locks :: notes).countP (guessed other) =
        notes.countP (guessed other) := by
  rw [List.countP_cons, List.countP_cons]
  simp [recorded, guessed]

/-- A failure that takes the place of a guess leaves each session's counts right. -/
theorem Bounded.own_failed (h : Bounded config slack rows log) (read time : Int) (locks : Bool)
    (hown : (ownNotes s log).countP (recorded userId) + 1 ≤
      (ownNotes s log).countP (guessed userId)) (s' : S) (other : UserId) :
    (ownNotes s' ((s, .failed userId read time locks) :: log)).countP (recorded other) ≤
      (ownNotes s' ((s, .failed userId read time locks) :: log)).countP (guessed other) :=
  h.own_cons _ s (fun other hnote => by
    obtain rfl : userId = other := of_decide_eq_true hnote
    exact hown) s' other

/-- A failure refuses no password. -/
theorem Bounded.refused_failed (h : Bounded config slack rows log) (read time : Int)
    (locks : Bool) :
    Refused config slack (.failed userId read time locks :: log.map Prod.snd) :=
  (refused_cons_iff).mpr ⟨fun _ _ _ _ heq => (by cases heq), h.refused⟩

/-- A failure of another account leaves the count of this one. -/
theorem Bounded.counted_failed (h : Bounded config slack rows log) {read time : Int}
    {locks : Bool} {user' : User} {other : UserId} (hother : userId ≠ other)
    (hne : failures other (.failed userId read time locks :: log.map Prod.snd) ≠ 0) :
    ∃ user, Function.update rows userId (some user') other = some user ∧
      failures other (.failed userId read time locks :: log.map Prod.snd) ≤
        user.failedLoginCount ∧ user.failedLoginCount < config.lockThreshold := by
  simp only [failures, hother, if_false] at hne ⊢
  rw [Function.update_of_ne (Ne.symm hother)]
  exact h.counted other hne

/-- A failure below the threshold. -/
theorem Bounded.failed_below (h : Bounded config slack rows log) {read time : Int}
    {user user' : User} (hrow : rows userId = some user)
    (hown : (ownNotes s log).countP (recorded userId) + 1 ≤
      (ownNotes s log).countP (guessed userId))
    (hcount : user'.failedLoginCount = user.failedLoginCount + 1)
    (hbelow : user'.failedLoginCount < config.lockThreshold)
    (huntil : user'.lockedUntil = user.lockedUntil) :
    Bounded config slack (Function.update rows userId (some user'))
      ((s, .failed userId read time false) :: log) := by
  refine ⟨h.own_failed read time false hown, fun other => ?_, fun other => ?_,
    fun other hne => ?_, fun other read' time' hmem => ?_, h.refused_failed read time false⟩
  · have hbounded := h.bounded other
    rw [List.map_cons]
    simpa [guesses] using hbounded
  · have hcovered := h.covered other
    obtain ⟨hrecorded, hguessed⟩ :=
      countP_failed userId other read time false (log.map Prod.snd)
    rw [List.map_cons, hrecorded, hguessed]
    by_cases hsame : userId = other
    · simp only [guesses, failures, hsame, if_true, Bool.false_eq_true, and_false, if_false]
      omega
    · simp only [guesses, failures, hsame, if_false, false_and]
      omega
  · by_cases hsame : userId = other
    · subst hsame
      refine ⟨user', Function.update_self .., ?_, hbelow⟩
      rw [List.map_cons]
      simp only [failures, if_true, Bool.false_eq_true, if_false]
      by_cases hnone : failures userId (log.map Prod.snd) = 0
      · omega
      · obtain ⟨found, hfound, hle, -⟩ := h.counted userId hnone
        obtain rfl := Option.some.inj (hrow.symm.trans hfound)
        omega
    · exact h.counted_failed hsame hne
  · rw [List.map_cons, List.mem_cons] at hmem
    rcases h.locked_update user' hrow (fun lockedUntil hmem =>
      ⟨lockedUntil, huntil ▸ hmem, le_refl _⟩) (hmem.resolve_left fun heq => by cases heq) with
      hkept | ⟨read'', time'', hcleared, hafter⟩
    · exact .inl hkept
    · exact .inr ⟨read'', time'', List.mem_cons_of_mem _ hcleared, hafter⟩

/-- A failure that locks the account. -/
theorem Bounded.failed_locks (h : Bounded config slack rows log) {read time : Int}
    {user user' : User} (hrow : rows userId = some user)
    (hown : (ownNotes s log).countP (recorded userId) + 1 ≤
      (ownNotes s log).countP (guessed userId))
    (huntil : user'.lockedUntil = some (read + config.lockDurationMs))
    (hover : ∀ lockedUntil ∈ user.lockedUntil, lockedUntil ≤ read + config.lockDurationMs)
    (htime : time ≤ read + slack) :
    Bounded config slack (Function.update rows userId (some user'))
      ((s, .failed userId read time true) :: log) := by
  refine ⟨h.own_failed read time true hown, fun other => ?_, fun other => ?_,
    fun other hne => ?_, fun other read' time' hmem => ?_, h.refused_failed read time true⟩
  · have hbounded := h.bounded other
    rw [List.map_cons, guesses]
    split
    · exact Nat.zero_le _
    · exact hbounded
  · have hcovered := h.covered other
    have hle := countP_le_of_own fun s' => h.own_failed read time true hown s' other
    obtain ⟨hrecorded, hguessed⟩ :=
      countP_failed userId other read time true (log.map Prod.snd)
    rw [List.map_cons, hrecorded, hguessed] at hle
    rw [List.map_cons, hrecorded, hguessed]
    by_cases hsame : userId = other
    · simp only [guesses, failures, hsame, if_true, and_self] at hle ⊢
      omega
    · simp only [guesses, failures, hsame, if_false, false_and]
      omega
  · by_cases hsame : userId = other
    · rw [List.map_cons] at hne
      simp [failures, hsame] at hne
    · exact h.counted_failed hsame hne
  · rw [List.map_cons, List.mem_cons] at hmem
    rcases hmem with heq | hmem
    · obtain ⟨rfl, rfl, rfl, -⟩ := Note.failed.inj heq
      exact .inl ⟨user', Function.update_self .., read' + config.lockDurationMs, huntil, by omega⟩
    · rcases h.locked_update user' hrow (fun lockedUntil hmem =>
        ⟨_, huntil, hover lockedUntil hmem⟩) hmem with
        hkept | ⟨read'', time'', hcleared, hafter⟩
      · exact .inl hkept
      · exact .inr ⟨read'', time'', List.mem_cons_of_mem _ hcleared, hafter⟩

/-- **A failure that is counted takes the place of a wrong password that was waiting.** -/
theorem Bounded.failed (h : Bounded config slack rows log) {read time : Int} {locks : Bool}
    {user user' : User} (hrow : rows userId = some user)
    (hown : (ownNotes s log).countP (recorded userId) + 1 ≤
      (ownNotes s log).countP (guessed userId))
    (hcounted : Counted config read user user' locks)
    (htime : locks = true → time ≤ read + slack) :
    Bounded config slack (Function.update rows userId (some user'))
      ((s, .failed userId read time locks) :: log) := by
  cases hcounted with
  | below hcount hbelow huntil => exact h.failed_below hrow hown hcount hbelow huntil
  | locks huntil hover => exact h.failed_locks hrow hown huntil hover (htime rfl)

/-- **A clear of an account that is not locked.** -/
theorem Bounded.cleared (h : Bounded config slack rows log) {read time : Int}
    (hopen : OpenAt rows userId read) (htime : read ≤ time)
    (hother : ∀ other, other ≠ userId → rows' other = rows other) :
    Bounded config slack rows' ((s, .cleared userId read time) :: log) := by
  have hrecorded (other : UserId) : (Note.cleared userId read time ::
      log.map Prod.snd).countP (recorded other) = (log.map Prod.snd).countP (recorded other) :=
    List.countP_cons_of_neg Bool.false_ne_true
  have hguessed (other : UserId) : (Note.cleared userId read time ::
      log.map Prod.snd).countP (guessed other) = (log.map Prod.snd).countP (guessed other) :=
    List.countP_cons_of_neg Bool.false_ne_true
  refine ⟨h.own_cons _ s fun _ hnote => absurd hnote Bool.false_ne_true, fun other => ?_,
    fun other => ?_, fun other hne => ?_, fun other read' time' hmem => ?_,
    (refused_cons_iff).mpr ⟨fun _ _ _ _ heq => (by cases heq), h.refused⟩⟩
  · have hbounded := h.bounded other
    rw [List.map_cons, guesses]
    split
    · exact Nat.zero_le _
    · exact hbounded
  · have hcovered := h.covered other
    have hle := h.recorded_le other
    rw [List.map_cons, hrecorded, hguessed, guesses, failures]
    split <;> omega
  · rw [List.map_cons, failures] at hne ⊢
    split at hne
    · exact absurd rfl hne
    · next hsame =>
      rw [if_neg hsame, hother other (Ne.symm hsame)]
      exact h.counted other hne
  · rw [List.map_cons, List.mem_cons] at hmem
    rcases h.locked other read' time' (hmem.resolve_left fun heq => by cases heq) with
      ⟨user, hrow, lockedUntil, huntil, hle⟩ | ⟨read'', time'', hcleared, hafter⟩
    · by_cases hsame : other = userId
      · subst hsame
        have hover : lockedUntil ≤ read := hopen user hrow lockedUntil huntil
        exact .inr ⟨read, time, List.mem_cons_self, by omega⟩
      · exact .inl ⟨user, by rwa [hother other hsame], lockedUntil, huntil, hle⟩
    · exact .inr ⟨read'', time'', List.mem_cons_of_mem _ hcleared, hafter⟩

end

/-! ### Statements -/

def discipline (S : Type) [DecidableEq S] (config : Config) (slack : Int) :
    Discipline S UserId (Option User) Label Int Note where
  inv σ := Bounded config slack σ.rows σ.log
  guarantee _ _ _ _ _ := True
  rely s own σ σ' := (∀ userId, own userId → σ'.rows userId = σ.rows userId) ∧
    ownNotes s σ'.log = ownNotes s σ.log
  condition := keeping config slack

/-- The session has evaluated a wrong password that it has not counted. -/
def Waiting {S : Type} [DecidableEq S] (s : S) (userId : UserId) (log : List (S × Note)) : Prop :=
  (ownNotes s log).countP (recorded userId) + 1 ≤ (ownNotes s log).countP (guessed userId)

/-- The transaction has counted a failure, and locked the account if `locks`. -/
def Failing {S : Type} (config : Config) (userId : UserId) (read : Int) (locks : Bool)
    (t : Transaction UserId (Option User)) (σ : Shared S UserId (Option User) Note) : Prop :=
  ∃ user user' changes, σ.rows userId = some user ∧ t.own userId ∧ Replaced changes t σ ∧
    (∀ rows : Rows, overlay (changes.map fun change => (change.1, change.2.2)) rows =
      Function.update rows userId (some user')) ∧ Counted config read user user' locks

section
variable {config : Config} {slack : Int} {S : Type} [DecidableEq S] {s : S} {userId : UserId}
  {read : Int} {t : Transaction UserId (Option User)} {σ : Shared S UserId (Option User) Note}

theorem discipline_lawful : (discipline S config slack).Lawful where
  refl := fun _ _ _ => ⟨fun _ _ => rfl, rfl⟩
  trans := fun h h' => ⟨fun userId hown => (h'.1 userId hown).trans (h.1 userId hown),
    h'.2.trans h.2⟩
  rely := by
    intro s s' own notes t σ hne _ hown _ _ _
    refine ⟨hown, ?_⟩
    simp only [ownNotes, Shared.commit, List.filter_append, List.map_append]
    have hnone : (notes.map (Prod.mk s')).filter (fun entry => decide (entry.1 = s)) = [] := by
      simp [List.filter_eq_nil_iff, Ne.symm hne]
    rw [hnone]
    rfl

theorem waiting_stable {P : Assertion S UserId (Option User) Note}
    (hP : Stable (discipline S config slack) s P) :
    Stable (discipline S config slack) s fun t σ => Waiting s userId σ.log ∧ P t σ := by
  rintro t σ σ' ⟨hwaiting, h⟩ hrely hinv
  refine ⟨?_, hP t σ σ' h hrely hinv⟩
  rwa [Waiting, hrely.2]

theorem changes_stable {changes : List (UserId × Option User × Option User)} :
    Stable (discipline S config slack) s (Replaced changes) :=
  replaced_stable fun _ _ _ hrely => hrely.1

theorem failing_stable {locks : Bool} :
    Stable (discipline S config slack) s (Failing config userId read locks) := by
  rintro t σ σ' ⟨user, user', changes, hrow, hown, hreplaced, hview, hcounted⟩ hrely hinv
  exact ⟨user, user', changes, (hrely.1 userId hown).trans hrow, hown,
    changes_stable t σ σ' hreplaced hrely hinv, hview, hcounted⟩

theorem triple_clock {P : Assertion S UserId (Option User) Note}
    (hP : Stable (discipline S config slack) s P) :
    Triple (discipline S config slack) s P clock fun _ => P :=
  triple_statement hP fun t σ _ _ h _ _ _ => by
    rw [Transaction.run_nil]
    exact h

theorem triple_findUser :
    Triple (discipline S config slack) s (fun t _ => t = .none) (findUser userId)
      fun _ t _ => t = .none :=
  triple_transaction_noted (R := fun _ t _ => t = .none)
    (triple_select stable_none fun _ _ h _ _ _ _ => h) (fun _ => stable_none)
    fun _ t σ h hinv _ => by
      obtain rfl : t = .none := h
      exact ⟨hinv, trivial, rfl⟩

/-- A wrong password is waiting to be counted once it is evaluated. -/
theorem triple_evaluate (hthreshold : 0 < config.lockThreshold) {correct : Bool} :
    Triple (discipline S config slack) s (fun t _ => t = .none) (evaluate userId correct read)
      fun _ t σ => (correct = false → Waiting s userId σ.log) ∧ t = .none := by
  refine triple_transaction_history (R := fun r t _ => t = .none ∧
    ∃ time, r.1 = [.evaluated userId correct read time])
    ((triple_clock stable_none).bind fun time => triple_pure fun _ _ h => ⟨h, time, rfl⟩)
    (fun _ _ _ _ h _ _ => h) ?_
  rintro ⟨-, _⟩ t σ ⟨rfl, time, rfl⟩ hinv hopen htime
  refine ⟨?_, trivial, fun hwrong => ?_, rfl⟩
  · exact Bounded.evaluated hthreshold hinv (hopen _ List.mem_cons_self)
      (htime _ List.mem_cons_self)
  · have hown := Bounded.own hinv s userId
    have hlog : ownNotes s (σ.commit s .none [.evaluated userId correct read time]).log =
        .evaluated userId correct read time :: ownNotes s σ.log := ownNotes_cons_self _
    rw [Waiting, hlog, List.countP_cons_of_neg Bool.false_ne_true,
      List.countP_cons_of_pos (by simp [guessed, hwrong])]
    exact Nat.succ_le_succ hown

/-- The failure is in the row; the account is locked where there are enough. -/
theorem triple_lockAccount {user' : User} :
    Triple (discipline S config slack) s (fun t σ => Waiting s userId σ.log ∧
      ∃ user, Replaced [(userId, some user, some user')] t σ ∧
        user'.failedLoginCount = user.failedLoginCount + 1 ∧
        user'.lockedUntil = user.lockedUntil)
      (lockAccount config userId user'.failedLoginCount read) fun locks t σ =>
        Waiting s userId σ.log ∧ Failing config userId read locks t σ := by
  have hstable : Stable (discipline S config slack) s (fun t σ => Waiting s userId σ.log ∧
      ∃ user, Replaced [(userId, some user, some user')] t σ ∧
        user'.failedLoginCount = user.failedLoginCount + 1 ∧
        user'.lockedUntil = user.lockedUntil) := by
    refine waiting_stable ?_
    rintro t σ σ' ⟨user, hreplaced, hrest⟩ hrely hinv
    exact ⟨user, changes_stable t σ σ' hreplaced hrely hinv, hrest⟩
  refine Triple.ite (fun hbelow => triple_pure ?_) fun _ => Triple.bind
    (triple_update hstable ?_ ?_) fun _ => triple_pure fun _ _ h => h
  · rintro t σ ⟨hwaiting, user, hreplaced, hcount, huntil⟩
    exact ⟨hwaiting, user, user', _, hreplaced.row _ List.mem_cons_self,
      hreplaced.own _ List.mem_cons_self, hreplaced, fun rows => rfl,
      .below hcount hbelow huntil⟩
  · rintro t σ _ _ v ⟨hwaiting, user, hreplaced, hcount, huntil⟩ - hf - hopen
    have hrow : σ.rows userId = some user := hreplaced.row _ List.mem_cons_self
    have hview : t.view σ userId = some user' := by
      rw [hreplaced.view]
      simp
    rw [hview] at hf
    obtain rfl := Option.some.inj hf
    refine ⟨hwaiting, user, { user' with lockedUntil := some (read + config.lockDurationMs) }, _,
      hrow, .inl (hreplaced.own _ List.mem_cons_self), hreplaced.cons _ _, fun rows => ?_,
      .locks rfl ?_⟩
    · simp
    · intro lockedUntil hmem
      exact hopen user' hview lockedUntil (huntil ▸ hmem)
  · rintro t σ _ _ ⟨hwaiting, user, hreplaced, hcount, huntil⟩ - hf -
    have hview : t.view σ userId = some user' := by
      rw [hreplaced.view]
      simp
    rw [hview] at hf
    cases hf

theorem triple_recordFailedLogin :
    Triple (discipline S config slack) s (fun t σ => Waiting s userId σ.log ∧ t = .none)
      (recordFailedLogin config userId read) fun _ t _ => t = .none := by
  refine triple_transaction_history (R := fun r t σ => r.1 = [] ∧ t = .none ∨
    ∃ time locks, r.1 = [.failed userId read time locks] ∧ Waiting s userId σ.log ∧
      Failing config userId read locks t σ)
    (Triple.bind (triple_update (Q := fun updated t σ => Waiting s userId σ.log ∧
      match updated.join with
      | none => t = .none
      | some user' => ∃ user, Replaced [(userId, some user, some user')] t σ ∧
          user'.failedLoginCount = user.failedLoginCount + 1 ∧
          user'.lockedUntil = user.lockedUntil) (waiting_stable stable_none) ?_ ?_)
      fun updated => ?_) ?_ ?_
  · rintro t σ _ _ v ⟨hwaiting, rfl⟩ - hf - -
    obtain ⟨user, hrow, rfl⟩ := Option.map_eq_some_iff.mp hf
    have hrow : σ.rows userId = some user := hrow
    have hreplaced := (replaced_nil (σ := σ)).cons userId
      (some { user with failedLoginCount := user.failedLoginCount + 1 })
    rw [hrow] at hreplaced
    exact ⟨hwaiting, user, hreplaced, rfl, rfl⟩
  · rintro t σ _ _ ⟨hwaiting, rfl⟩ - - -
    exact ⟨hwaiting, rfl⟩
  · cases updated.join with
    | none => exact triple_pure fun _ _ h => .inl ⟨rfl, h.2⟩
    | some user' =>
      exact (triple_lockAccount).bind fun locks =>
        (triple_clock (waiting_stable failing_stable)).bind fun time =>
          triple_pure fun _ _ h => .inr ⟨time, locks, rfl, h.1, h.2⟩
  · rintro r t σ σ' (h | ⟨time, locks, hr, h⟩) hrely hinv
    · exact .inl h
    · exact .inr ⟨time, locks, hr, waiting_stable failing_stable t σ σ' h hrely hinv⟩
  · rintro ⟨notes, _⟩ t σ (⟨hr, rfl⟩ | ⟨time, locks, hr, hwaiting, user, user', changes, hrow, hown,
      hreplaced, hview, hcounted⟩) hinv - htime
    · obtain rfl : notes = [] := hr
      exact ⟨hinv, trivial, rfl⟩
    · obtain rfl : notes = [.failed userId read time locks] := hr
      have hrows : t.view σ = Function.update σ.rows userId (some user') := by
        rw [hreplaced.view, hview]
      refine ⟨?_, trivial, rfl⟩
      have hafter := Bounded.failed hinv hrow hwaiting hcounted (htime _ List.mem_cons_self)
      rwa [← hrows] at hafter

theorem triple_clearLoginFailures :
    Triple (discipline S config slack) s (fun t _ => t = .none) (clearLoginFailures userId read)
      fun _ t _ => t = .none := by
  let P (updated : Option (Option User)) : Assertion S UserId (Option User) Note := fun t σ =>
    if updated.isSome then OpenAt σ.rows userId read ∧
      ∃ row row', Replaced [(userId, row, row')] t σ
    else t = .none
  have hstable (updated : Option (Option User)) :
      Stable (discipline S config slack) s (P updated) := by
    cases updated with
    | none => exact stable_none
    | some row =>
      rintro t σ σ' ⟨hopen, row, row', hreplaced⟩ hrely hinv
      have hsame := hrely.1 userId (hreplaced.own _ List.mem_cons_self)
      exact ⟨by rwa [OpenAt, hsame], row, row', changes_stable t σ σ' hreplaced hrely hinv⟩
  refine triple_transaction_history (R := fun r t σ => ∃ updated time,
    r.1 = (if updated.isSome then [.cleared userId read time] else []) ∧ P updated t σ)
    (Triple.bind (triple_update stable_none ?_ ?_) fun updated =>
      (triple_clock (hstable updated)).bind fun time =>
        triple_pure fun _ _ h => ⟨updated, time, rfl, h⟩) ?_ ?_
  · rintro t σ _ _ v rfl - - - hopen
    exact ⟨hopen, _, _, replaced_nil.cons userId _⟩
  · rintro t σ _ _ rfl - - -
    rfl
  · rintro r t σ σ' ⟨updated, time, hr, h⟩ hrely hinv
    exact ⟨updated, time, hr, hstable updated t σ σ' h hrely hinv⟩
  · rintro ⟨notes, _⟩ t σ ⟨updated, time, hr, h⟩ hinv - htime
    cases updated with
    | none =>
      obtain rfl : notes = [] := hr
      obtain rfl : t = .none := h
      exact ⟨hinv, trivial, rfl⟩
    | some row =>
      obtain rfl : notes = [.cleared userId read time] := hr
      obtain ⟨hopen, row, row', hreplaced⟩ := h
      refine ⟨?_, trivial, rfl⟩
      refine Bounded.cleared hinv hopen (htime _ List.mem_cons_self) fun other hne => ?_
      exact hreplaced.view_of_notMem (by simpa using hne)

theorem safe_calls (hthreshold : 0 < config.lockThreshold) (call : UserId × String)
    (σ : Shared S UserId (Option User) Note) :
    Safe (discipline S config slack) s (calls config call) .none σ := by
  refine Triple.safe ((triple_clock stable_none).bind fun now => (triple_findUser).bind fun found =>
    Triple.ofOption fun user _ => Triple.require fun _ => Triple.require fun _ =>
      (triple_evaluate hthreshold).bind fun _ => Triple.ite (fun hcorrect => ?_)
        fun hwrong => ?_) σ
  · refine Triple.conseq (Triple.require fun _ => (triple_findUser).bind fun _ =>
      Triple.require fun _ => triple_clearLoginFailures) (fun t σ h => h.2) fun _ _ _ h => h
  · exact Triple.conseq ((triple_recordFailedLogin).bind fun _ => triple_fail)
      (fun t σ h => ⟨h.1 (Bool.eq_false_of_not_eq_true hwrong), h.2⟩) fun _ _ _ h => h

end

/-- Before the first attempt. -/
theorem bounded_nil {config : Config} {slack : Int} {S : Type} [DecidableEq S] (rows : Rows) :
    Bounded config slack rows ([] : List (S × Note)) where
  own := fun _ _ => Nat.le_refl _
  bounded := fun _ => Nat.zero_le _
  covered := fun _ => Nat.le_refl _
  counted := fun _ h => absurd rfl h
  locked := fun _ _ _ h => absurd h List.not_mem_nil
  refused := refused_nil

instance (rows : Rows) (userId : UserId) (now : Int) : Decidable (OpenAt rows userId now) :=
  decidable_of_iff (((rows userId).bind User.lockedUntil).all (· ≤ now) = true) <| by
    simp only [OpenAt, Option.all_eq_true, Option.bind_eq_some_iff, decide_eq_true_eq,
      Option.mem_def, forall_exists_index, and_imp]
    exact ⟨fun h user hrow until' huntil => h until' user hrow huntil,
      fun h until' user hrow huntil => h user hrow until' huntil⟩

instance (config : Config) (slack : Int) (label : Label) (now : Int) (rows : Rows)
    (held : UserId → Bool) : Decidable ((keeping config slack).statement label now rows held) :=
  match label with
  | .query => isTrue trivial
  | .clear userId read => inferInstanceAs (Decidable (OpenAt rows userId read))
  | .lock userId read =>
    inferInstanceAs (Decidable (OpenAt rows userId (read + config.lockDurationMs)))

instance (rows : Rows) : (note : Note) → Decidable (note.Open rows)
  | .evaluated userId _ read _ => inferInstanceAs (Decidable (OpenAt rows userId read))
  | .failed .. | .cleared .. => isTrue trivial

instance (config : Config) (slack : Int) (log : List Note) :
    (note : Note) → Decidable (note.InTime config slack log)
  | .evaluated .. => inferInstanceAs (Decidable (_ ∧ _ ∧ (_ → _)))
  | .failed .. => inferInstanceAs (Decidable (_ → _))
  | .cleared .. => inferInstanceAs (Decidable (_ ≤ _))

instance (config : Config) (slack : Int) (notes : List Note) (rows : Rows) :
    Decidable ((keeping config slack).commit notes rows) :=
  inferInstanceAs (Decidable (∀ note ∈ notes, note.Open rows))

instance (config : Config) (slack : Int) (notes log : List Note) :
    Decidable ((keeping config slack).history notes log) :=
  inferInstanceAs (Decidable (∀ note ∈ notes, note.InTime config slack log))

/-- The bounds of the service, and passwords that are their own hashes. -/
def deployed : Config := ⟨5, 900000, fun password hash => password = hash⟩

def account : Rows
  | "u" => some ⟨some "secret", .active, some 0, none, 0, none⟩
  | _ => none

/-- An attempt, and its next steps. -/
def attempt (s : Nat) (password : String) (steps : Nat) (now : Int) :
    List (Nat × Input (UserId × String) Int) :=
  (s, .call ("u", password)) :: List.replicate steps (s, .next now)

/-- Five guesses, an attempt that is refused, and one when the lock is over. -/
def inTurn : List (Nat × Input (UserId × String) Int) :=
  (List.range 4).flatMap (fun s => attempt s "guess" 9 0) ++ attempt 4 "guess" 10 0 ++
    attempt 5 "secret" 4 1 ++ attempt 6 "secret" 10 900000

end LoginLockout
end TaskFlow
