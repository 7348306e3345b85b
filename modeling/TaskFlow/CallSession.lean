import TaskFlow.Script

/-! # Call sessions

One in-app call: its row in `rtc.sessions` and a row in `rtc.participants` for
everyone who was rung or joined.  Each operation loads the session, then writes
participants and the session in statements of their own.  What keeps the two
together are WHERE clauses on the participant's state, increments of the
counters in place, and the CHECK constraints of the session row.

Recording is part of the session row: a request, everyone's answer in their own
row, and a counter of the agreements that a CHECK compares with the number of
people in the call.
-/
namespace TaskFlow
namespace CallSession
open ReadCommitted ReadCommitted.Procedure

/-! ### Rows -/

inductive SessionStatus where
  | ringing
  | active
  | ended
  deriving DecidableEq, Repr

inductive ParticipantState where
  | invited
  | joined
  | left
  | declined
  | missed
  deriving DecidableEq, Repr

inductive RecordingState where
  | none
  | pending
  | active
  | stopped
  deriving DecidableEq, Repr

inductive EndReason where
  | hung_up
  | declined
  | no_answer
  | empty
  | org_suspended
  deriving DecidableEq, Repr

variable {U : Type}

/-- What the operations read or write of a row of `rtc.sessions`.  Instants are
in milliseconds.  `request` is not a column: it counts the recording requests
made so far. -/
structure SessionRow (U : Type) where
  status : SessionStatus
  initiatedBy : U
  maxParticipants : Int
  joinedCount : Int
  startedAt : Option Int
  endedAt : Option Int
  endReason : Option EndReason
  recordingState : RecordingState
  recordingRequestedBy : Option U
  recordingStartedAt : Option Int
  consentCount : Int
  request : Nat
  deriving DecidableEq, Repr

/-- A row of `rtc.participants`.  `consentFor` is not a column: it is the request
the consent was given for. -/
structure Participant where
  state : ParticipantState
  joinedAt : Option Int
  leftAt : Option Int
  recordingConsentAt : Option Int
  recordingDeclinedAt : Option Int
  consentFor : Nat
  deriving DecidableEq, Repr

inductive Key (U : Type) where
  | session
  | participant (userId : U)
  deriving DecidableEq, Repr

inductive Row (U : Type) where
  | session (row : Option (SessionRow U))
  | participant (row : Option Participant)
  deriving DecidableEq, Repr

def Row.session? : Row U → Option (SessionRow U)
  | .session row => row
  | .participant _ => none

def Row.participant? : Row U → Option Participant
  | .session _ => none
  | .participant row => row

abbrev Rows (U : Type) := Key U → Row U

/-- The session, once it has been started. -/
def sessionOf (rows : Rows U) : Option (SessionRow U) := (rows .session).session?

/-- The row of a participant, if there is one. -/
def participantOf (rows : Rows U) (userId : U) : Option Participant :=
  (rows (.participant userId)).participant?

/-- Nobody has started the call. -/
def noSession : Rows U
  | .session => .session none
  | .participant _ => .participant none

/-- The CHECK constraints of `rtc.sessions`. -/
def SessionRow.Checked (row : SessionRow U) : Prop :=
  (2 ≤ row.maxParticipants ∧ row.maxParticipants ≤ 8) ∧
  (0 ≤ row.joinedCount ∧ row.joinedCount ≤ row.maxParticipants) ∧
  (row.status ≠ .active ∨ row.startedAt.isSome) ∧
  (row.status ≠ .ended ∨ row.endedAt.isSome ∧ row.endReason.isSome) ∧
  (0 ≤ row.consentCount ∧ row.consentCount ≤ row.maxParticipants) ∧
  (row.recordingState ≠ .active ∨ row.joinedCount ≤ row.consentCount) ∧
  (row.recordingState ≠ .active ∨ row.recordingStartedAt.isSome)

instance (row : SessionRow U) : Decidable row.Checked := by
  unfold SessionRow.Checked
  infer_instance

/-! ### Statements -/

/-- What the end of a call announces. -/
structure Ended (U : Type) where
  reason : EndReason
  durationSeconds : Int
  notifyUserIds : List U
  missedUserIds : List U
  deriving DecidableEq, Repr

/-- The events that the operations append. -/
inductive Event (U : Type) where
  | started (invitedUserIds : List U)
  | answered
  | joined (participantCount : Int)
  | left
  /-- `stillInvited` is not in the payload: the decline found somebody else who
  could still answer. -/
  | declined (userId : U) (stillInvited : Bool)
  | ended (details : Ended U)
  | recordingRequested
  | recordingConsented
  | recordingDeclined
  | recordingStarted
  | recordingStopped (durationSeconds : Int)
  deriving DecidableEq, Repr

inductive Label (U : Type) where
  | read
  | write
  /-- A join counts its participant; it loaded this recording state. -/
  | countJoin (userId : U) (recordingState : RecordingState)
  | stillInvited (userId : U)
  | request
  /-- An agreement to the request of this number. -/
  | agree (request : Nat)
  | startRecording
  deriving DecidableEq, Repr

abbrev Procedure (U α : Type) := ReadCommitted.Procedure (Key U) (Row U) (Label U) Unit (Event U) α

def loadSession : Procedure U (SessionRow U) := do
  -- not found
  ofOption (← select .read sessionOf)

/-- An UPDATE of the session row, where `set` has a new row for it.  A row that
fails a CHECK is an error. -/
def updateSession (label : Label U) (set : SessionRow U → Option (SessionRow U)) :
    Procedure U (Option (SessionRow U)) := do
  let result ← statement label
    (fun _ rows =>
      match (sessionOf rows).bind set with
      | none => ([], [])
      | some row => if row.Checked then ([], [(.session, .session (some row))]) else ([.session], []))
    (fun _ rows => (sessionOf rows).bind set)
  require (∀ row ∈ result, row.Checked)
  return result

/-- An UPDATE of one participant, where `set` has a new row; whether it wrote. -/
def updateParticipant (label : Label U) (userId : U) (set : Participant → Option Participant) :
    Procedure U Bool := do
  let result ← update label (.participant userId) fun _ row =>
    (row.participant?.bind set).map fun row => .participant (some row)
  return result.isSome

/-- The rows that an UPDATE selected, one after another: each is looked at again
once it is locked. -/
def updateEach (set : Participant → Option Participant) : List U → Procedure U Unit
  | [] => return ()
  | userId :: rest => do
    let _ ← updateParticipant .write userId set
    updateEach set rest

/-- An UPDATE of all participants for whom `set` has a new row; `users` are the
people there are. -/
def updateParticipants (users : List U) (set : Participant → Option Participant) :
    Procedure U Unit := do
  let selected ← select .read fun rows =>
    users.filter fun userId => ((participantOf rows userId).bind set).isSome
  updateEach set selected

/-! ### Participants -/

/-- Moves a caller into the call; whether that was a transition. -/
def joinParticipant [DecidableEq U] (userId : U) (now : Int) : Procedure U Bool := do
  let claimed ← updateParticipant .write userId fun row =>
    if row.state ≠ .joined then
      some { row with state := .joined, joinedAt := some now, leftAt := none }
    else none
  if claimed then return true
  else
    let existing ← select .read fun rows => participantOf rows userId
    if existing.isSome then return false
    else
      let inserted ← statement .write
        (fun _ rows =>
          if (participantOf rows userId).isNone then
            ([], [(.participant userId, .participant (some
              { state := .joined, joinedAt := some now, leftAt := none,
                recordingConsentAt := none, recordingDeclinedAt := none, consentFor := 0 }))])
          else ([], []))
        (fun _ rows => (participantOf rows userId).isNone)
      -- the primary key
      require inserted
      return true

/-- A participant's own answer to a recording request; whether it was one. -/
def answerRecordingConsent (userId : U) (agreed : Bool) (request : Nat) (now : Int) :
    Procedure U Bool := do
  let claimed ← updateParticipant (if agreed then .agree request else .write) userId fun row =>
    if row.state = .joined ∧ row.recordingConsentAt = none ∧ row.recordingDeclinedAt = none then
      some (if agreed then { row with recordingConsentAt := some now, consentFor := request }
        else { row with recordingDeclinedAt := some now })
    else none
  if claimed then
    if agreed then
      let _ ← updateSession .write fun row => some { row with consentCount := row.consentCount + 1 }
      return true
    else return true
  else return false

/-- Clears every answer, and then the counter. -/
def resetRecordingConsent (users : List U) : Procedure U Unit := do
  updateParticipants users fun row =>
    some { row with recordingConsentAt := none, recordingDeclinedAt := none }
  let _ ← updateSession .write fun row => some { row with consentCount := 0 }
  return ()

def durationSecondsOf (startedAt endedAt : Option Int) : Int :=
  match startedAt, endedAt with
  | some startedAt, some endedAt =>
    if 0 < endedAt - startedAt then (endedAt - startedAt) / 1000 else 0
  | _, _ => 0

/-- Ends the session, and settles everyone still in it or invited to it. -/
def endSessionRow (users : List U) (session : SessionRow U) (reason : EndReason) (now : Int) :
    Procedure U (Ended U) := do
  let audience ← select .read fun rows =>
    users.filterMap fun userId => (participantOf rows userId).map fun row => (userId, row.state)
  let _ ← updateSession .write fun row => some { row with
    status := .ended, endedAt := some now, endReason := some reason, joinedCount := 0 }
  updateParticipants users fun row =>
    if row.state = .invited then some { row with state := .missed } else none
  updateParticipants users fun row =>
    if row.state = .joined then some { row with state := .left, leftAt := some now } else none
  return {
    reason := reason
    durationSeconds := durationSecondsOf session.startedAt (some now)
    notifyUserIds := audience.map Prod.fst
    missedUserIds := (audience.filter fun row => row.2 = .invited).map Prod.fst }

/-- Whether nobody is left, or one of the two people of a call with no other. -/
def isLastLegOut (users : List U) (joinedCount : Int) : Procedure U Bool := do
  if joinedCount ≤ 0 then return true
  else if joinedCount ≠ 1 then return false
  else
    let participants ← select .read fun rows =>
      users.filter fun userId => (participantOf rows userId).isSome
    return participants.length = 2

/-! ### Starting, joining, leaving -/

def MESH_PARTICIPANT_CAP : Nat := 4

/-- Rings the roster of a channel.  `authorized` is what the channel says about
the caller, `channelFree` whether no other session of it is live. -/
def startSession [DecidableEq U] (users : List U) (userId : U) (roster : List U)
    (authorized channelFree : Bool) (now : Int) : Procedure U (List U) :=
  transaction do
    -- forbidden, archived or public
    require authorized
    let invited := roster.filter (· ≠ userId)
    -- nobody else in this conversation
    require (invited ≠ [])
    -- limited to so many people
    require (roster.length ≤ MESH_PARTICIPANT_CAP)
    let inserted ← statement .write
      (fun _ rows =>
        if (sessionOf rows).isNone then
          ([], [(.session, .session (some
            { status := .ringing, initiatedBy := userId, maxParticipants := MESH_PARTICIPANT_CAP,
              joinedCount := 1, startedAt := none, endedAt := none, endReason := none,
              recordingState := .none, recordingRequestedBy := none, recordingStartedAt := none,
              consentCount := 0, request := 0 }))])
        else ([], []))
      (fun _ rows => (sessionOf rows).isNone)
    -- a call is already in progress
    require (inserted ∧ channelFree)
    -- a roster names people of the organization, each once
    require ((userId :: invited).Nodup ∧ ∀ u ∈ userId :: invited, u ∈ users)
    statement .write
      (fun _ _ => ([],
        (.participant userId, .participant (some
          { state := .joined, joinedAt := some now, leftAt := none, recordingConsentAt := none,
            recordingDeclinedAt := none, consentFor := 0 })) ::
        invited.map fun invitee => (.participant invitee, .participant (some
          { state := .invited, joinedAt := none, leftAt := none, recordingConsentAt := none,
            recordingDeclinedAt := none, consentFor := 0 }))))
      (fun _ _ => ())
    return ([.started invited], invited)

def readSessionView (users : List U) : Procedure U (SessionRow U × List (U × Participant)) := do
  let session ← loadSession
  let participants ← select .read fun rows =>
    users.filterMap fun userId => (participantOf rows userId).map fun row => (userId, row)
  return (session, participants)

/-- Joins the call, and answers it if nobody has. -/
def joinSession [DecidableEq U] (users : List U) (userId : U) (authorized : Bool) (now : Int) :
    Procedure U (SessionRow U × List (U × Participant)) :=
  transaction do
    let session ← loadSession
    -- forbidden; only people of the organization can read the channel
    require (authorized ∧ userId ∈ users)
    -- this call has ended
    require (session.status ≠ .ended)
    let answered ←
      if userId = session.initiatedBy then pure none
      else updateSession .write fun row =>
        if row.status = .ringing then some { row with status := .active, startedAt := some now }
        else none
    let transitioned ← joinParticipant userId now
    let _ ←
      if transitioned then
        -- this call is full
        updateSession (.countJoin userId session.recordingState) fun row => some { row with
          joinedCount := row.joinedCount + 1
          recordingState :=
            if session.recordingState = .active then .pending else row.recordingState }
      else pure none
    let view ← readSessionView users
    return ((if answered.isSome then [.answered] else []) ++
      (if transitioned then [.joined (session.joinedCount + 1)] else []), view)

/-- Takes one person out of a session that was loaded, and ends it if nobody is
left to talk to. -/
def leaveLoaded (users : List U) (session : SessionRow U) (userId : U) (now : Int) :
    Procedure U (List (Event U) × Unit) := do
  let left ← updateParticipant .write userId fun row =>
    if row.state = .joined then some { row with state := .left, leftAt := some now } else none
  if left then
    let remaining ← updateSession .write fun row =>
      some { row with joinedCount := row.joinedCount - 1 }
    let shouldEnd ← isLastLegOut users ((remaining.map (·.joinedCount)).getD 0)
    if shouldEnd then
      let ended ← endSessionRow users session .empty now
      return ([.left, .ended ended], ())
    else return ([.left], ())
  else return ([], ())

def leaveSession (users : List U) (userId : U) (now : Int) : Procedure U Unit :=
  transaction do
    let session ← loadSession
    if session.status = .ended then return ([], ())
    else leaveLoaded users session userId now

/-- What the removal of a member does to this session. -/
def leaveAllActiveSessionsFor (users : List U) (userId : U) (now : Int) : Procedure U Unit :=
  transaction do
    let joined ← select .read fun rows =>
      (participantOf rows userId).any (·.state = .joined) &&
        (sessionOf rows).any (·.status ≠ .ended)
    if joined then
      let session ← loadSession
      if session.status = .ended then return ([], ())
      else leaveLoaded users session userId now
    else return ([], ())

/-- Refuses an incoming call, and ends it if nobody is left to answer. -/
def declineSession [DecidableEq U] (users : List U) (userId : U) (now : Int) : Procedure U Unit :=
  transaction do
    let session ← loadSession
    if session.status = .ended then return ([], ())
    else
      let declined ← updateParticipant .write userId fun row =>
        if row.state = .invited then some { row with state := .declined } else none
      if declined then
        let stillInvited ← select (.stillInvited userId) fun rows =>
          users.any fun other => (participantOf rows other).any (·.state = .invited)
        if stillInvited = false ∧ session.status = .ringing then
          let ended ← endSessionRow users session .declined now
          return ([.declined userId stillInvited, .ended ended], ())
        else return ([.declined userId stillInvited], ())
      else return ([], ())

/-- The caller hangs up for everyone. -/
def cancelSession [DecidableEq U] (users : List U) (userId : U) (now : Int) : Procedure U Unit :=
  transaction do
    let session ← loadSession
    if session.status = .ended then return ([], ())
    else
      -- only the person who started this call
      require (session.initiatedBy = userId)
      let ended ← endSessionRow users session
        (if session.status = .ringing then .no_answer else .hung_up) now
      return ([.ended ended], ())

/-! ### Recording -/

/-- The session, in a transaction of its own. -/
def authorizedSession (authorized : Bool) : Procedure U (SessionRow U) :=
  transaction do
    let session ← loadSession
    require authorized
    return ([], session)

def requestRecording (userId : U) (authorized : Bool) (now : Int) : Procedure U Unit := do
  let session ← authorizedSession authorized
  -- only once the call is connected
  require (session.status = .active)
  -- already requested
  require (session.recordingState ≠ .active ∧ session.recordingState ≠ .pending)
  transaction do
    let requested ← updateSession .request fun row => some { row with
      recordingState := .pending
      recordingRequestedBy := some userId
      request := row.request + 1 }
    let _ ← answerRecordingConsent userId true ((requested.map (·.request)).getD 0) now
    return ([.recordingRequested], ())

def answerRecording (users : List U) (userId : U) (agreed authorized : Bool) (now : Int) :
    Procedure U Unit := do
  let session ← authorizedSession authorized
  -- nobody is asking to record this call
  require (session.recordingState = .pending)
  transaction do
    let answered ← answerRecordingConsent userId agreed session.request now
    if answered then
      if agreed then return ([.recordingConsented], ())
      else
        let _ ← updateSession .write fun row => some { row with
          recordingState := .none, recordingRequestedBy := none }
        resetRecordingConsent users
        return ([.recordingDeclined], ())
    else return ([], ())

def startRecording (authorized : Bool) (now : Int) : Procedure U Unit := do
  let session ← authorizedSession authorized
  -- not requested
  require (session.recordingState = .pending)
  transaction do
    let current ← loadSession
    -- everyone has to agree
    require (¬current.consentCount < current.joinedCount)
    let _ ← updateSession .startRecording fun row =>
      if row.recordingState = .pending then
        some { row with recordingState := .active, recordingStartedAt := some now }
      else none
    return ([.recordingStarted], ())

def stopRecording (users : List U) (authorized : Bool) (now : Int) : Procedure U Unit := do
  let session ← authorizedSession authorized
  if session.recordingState ≠ .active ∧ session.recordingState ≠ .pending then return ()
  else
    transaction do
      let seconds := match session.recordingStartedAt with
        | none => 0
        | some startedAt => max 0 ((now - startedAt) / 1000)
      let _ ← updateSession .write fun row => some { row with
        recordingState := if session.recordingState = .active then .stopped else .none
        recordingRequestedBy := none }
      resetRecordingConsent users
      return ([.recordingStopped seconds], ())

/-! ### Calls -/

inductive Operation (U : Type) where
  | start (userId : U) (roster : List U) (authorized channelFree : Bool) (now : Int)
  | join (userId : U) (authorized : Bool) (now : Int)
  | leave (userId : U) (now : Int)
  | removeMember (userId : U) (now : Int)
  | decline (userId : U) (now : Int)
  | cancel (userId : U) (now : Int)
  | requestRecording (userId : U) (authorized : Bool) (now : Int)
  | answerRecording (userId : U) (agreed authorized : Bool) (now : Int)
  | startRecording (authorized : Bool) (now : Int)
  | stopRecording (authorized : Bool) (now : Int)
  deriving DecidableEq, Repr

def calls [DecidableEq U] (users : List U) :
    Operation U → Script (Key U) (Row U) (Label U) Unit (Event U)
  | .start userId roster authorized channelFree now =>
    (startSession users userId roster authorized channelFree now).script
  | .join userId authorized now => (joinSession users userId authorized now).script
  | .leave userId now => (leaveSession users userId now).script
  | .removeMember userId now => (leaveAllActiveSessionsFor users userId now).script
  | .decline userId now => (declineSession users userId now).script
  | .cancel userId now => (cancelSession users userId now).script
  | .requestRecording userId authorized now => (requestRecording userId authorized now).script
  | .answerRecording userId agreed authorized now =>
    (answerRecording users userId agreed authorized now).script
  | .startRecording authorized now => (startRecording authorized now).script
  | .stopRecording authorized now => (stopRecording users authorized now).script

end CallSession
end TaskFlow
