import TaskFlow.RevocationReach
import TaskFlow.StepSystem
import Mathlib.Logic.Function.Basic

/-! # Joins beside revocations

A join of a board or a channel is three steps: the decision is read, the socket
enters the room, the room is put on the socket's record.  A change commits with
its events, and for each event that asks for something a sweep of each socket
takes a snapshot of the record, then looks at the entries one by one and leaves
what is refused.  Steps of joins, changes and sweeps come in any order.  Time
stands still: no relation lapses while they run.
-/
namespace TaskFlow
namespace JoinRace
open Policy Tenancy Rooms Gateway AccessChanges StepSystem

/-- A request to join a board or a channel, by the namespace of its socket. -/
structure JoinRequest (S : Type) where
  socket : S
  orgId : OrgId
  id : String

/-- Where a join is. -/
inductive JoinPhase where
  | asked
  | authorized
  | entered
  | recorded
  | refused
  deriving DecidableEq, Repr

/-- Where the sweep of a socket is. -/
inductive SweepPhase where
  | waiting
  /-- The entries of the snapshot that are still to be looked at. -/
  | sweeping (rest : List (String × OrgId))
  /-- The room of an id is about to be left. -/
  | leaving (id : String) (rest : List (String × OrgId))
  deriving DecidableEq, Repr

variable {S J : Type}

/-- What is fixed in a run: sockets and joins, and who there is. -/
structure Setup (S J : Type) where
  ns : S → Namespace
  identity : S → Identity
  join : J → JoinRequest S
  users : List UserId
  now : Int

/-- The room a join asks for. -/
def Setup.room (setup : Setup S J) (j : J) : Room :=
  (setup.ns (setup.join j).socket).room (setup.join j).id

structure State (S J : Type) where
  db : Db
  sockets : S → Socket
  joins : J → JoinPhase
  /-- The events of the changes committed so far. -/
  outbox : List OutboxRow
  /-- The sweep of a socket for the event at an index. -/
  sweeps : Nat → S → SweepPhase

inductive Action (S J : Type) where
  | authorize (j : J)
  | enter (j : J)
  | record (j : J)
  | commit (request : Request)
  | snapshot (index : Nat) (s : S)
  /-- `reads` is false where the database cannot be read. -/
  | recheck (index : Nat) (s : S) (reads : Bool)
  | leave (index : Nat) (s : S)

/-- The sockets are connected and in no room. -/
def initial (setup : Setup S J) (db : Db) : State S J where
  db := db
  sockets s := { identity := setup.identity s }
  joins _ := .asked
  outbox := []
  sweeps _ _ := .waiting

/-- What the event at an index asks for. -/
def State.message (state : State S J) (index : Nat) : Option RevocationMessage :=
  state.outbox[index]?.bind revocationOf

/-- The entries of a socket that a sweep for the message looks at. -/
def entriesOf (message : RevocationMessage) (socket : Socket) : List (String × OrgId) :=
  match message with
  -- no change here ends a session
  | .session _ _ => []
  | .member_removed orgId userId | .recheck_user orgId userId =>
    if socket.identity.userId = userId then socket.rooms.filter fun entry => entry.2 = orgId
    else []
  | .recheck_org orgId => socket.rooms.filter fun entry => entry.2 = orgId

/-- A removed member is not asked about again. -/
def keepsRoom (message : RevocationMessage) (allowed : Bool) : Bool :=
  match message with
  | .member_removed _ _ => false
  | _ => allowed

section
variable [DecidableEq S]

def State.setSocket (state : State S J) (s : S) (socket : Socket) : State S J :=
  { state with sockets := Function.update state.sockets s socket }

def State.setSweep (state : State S J) (index : Nat) (s : S) (phase : SweepPhase) : State S J :=
  { state with
    sweeps := Function.update state.sweeps index (Function.update (state.sweeps index) s phase) }

theorem setSocket_sockets (state : State S J) (s t : S) (socket : Socket) :
    (state.setSocket s socket).sockets t = if t = s then socket else state.sockets t := by
  simp [State.setSocket, Function.update_apply]

@[simp] theorem setSweep_self (state : State S J) (index : Nat) (s : S) (phase : SweepPhase) :
    (state.setSweep index s phase).sweeps index s = phase := by
  simp [State.setSweep]

theorem setSweep_of_ne {state : State S J} {index other : Nat} {s t : S} {phase : SweepPhase}
    (h : ¬ (other = index ∧ t = s)) :
    (state.setSweep index s phase).sweeps other t = state.sweeps other t := by
  by_cases hindex : other = index
  · subst hindex
    simp [State.setSweep, Function.update_of_ne fun hs => h ⟨rfl, hs⟩]
  · simp [State.setSweep, Function.update_of_ne hindex]

end

section
variable [DecidableEq J]

def State.setJoin (state : State S J) (j : J) (phase : JoinPhase) : State S J :=
  { state with joins := Function.update state.joins j phase }

@[simp] theorem setJoin_self (state : State S J) (j : J) (phase : JoinPhase) :
    (state.setJoin j phase).joins j = phase := by
  simp [State.setJoin]

theorem setJoin_of_ne {state : State S J} {j k : J} {phase : JoinPhase} (h : k ≠ j) :
    (state.setJoin j phase).joins k = state.joins k := by
  simp [State.setJoin, Function.update_of_ne h]

end

variable [DecidableEq S] [DecidableEq J]

/-- The decision of a join, as the database is now. -/
def State.allows (setup : Setup S J) (state : State S J) (s : S) (orgId : OrgId) (id : String) :
    Bool :=
  stillAllowed state.db setup.now (setup.ns s) (state.sockets s).identity.userId orgId id

def step (setup : Setup S J) (state : State S J) : Action S J → Option (State S J)
  | .authorize j =>
    let join := setup.join j
    if state.joins j = .asked then
      some (state.setJoin j
        (if state.allows setup join.socket join.orgId join.id then .authorized else .refused))
    else none
  | .enter j =>
    let join := setup.join j
    if state.joins j = .authorized then
      some ((state.setSocket join.socket
        ((state.sockets join.socket).enter (setup.room j))).setJoin j .entered)
    else none
  | .record j =>
    let join := setup.join j
    if state.joins j = .entered then
      some ((state.setSocket join.socket ((state.sockets join.socket).record join.id
        join.orgId)).setJoin j .recorded)
    else none
  | .commit request =>
    match commit setup.users state.db request with
    -- a request that fails is no step
    | .error _ => none
    | .ok change => some { state with
        db := change.db
        outbox := state.outbox ++ change.events }
  | .snapshot index s =>
    match state.message index, state.sweeps index s with
    | some message, .waiting =>
      some (state.setSweep index s (.sweeping (entriesOf message (state.sockets s))))
    | _, _ => none
  | .recheck index s reads =>
    match state.message index, state.sweeps index s with
    | some message, .sweeping (entry :: rest) =>
      -- a read that fails counts as a refusal
      if keepsRoom message (reads && state.allows setup s entry.2 entry.1) then
        some (state.setSweep index s (.sweeping rest))
      else some (state.setSweep index s (.leaving entry.1 rest))
    | _, _ => none
  | .leave index s =>
    match state.message index, state.sweeps index s with
    | some _, .leaving id rest =>
      some ((state.setSocket s ((state.sockets s).leave (setup.ns s) id)).setSweep index s
        (.sweeping rest))
    | _, _ => none

/-- The join has been allowed and is not on the record yet. -/
def JoinPhase.InFlight (phase : JoinPhase) : Prop := phase = .authorized ∨ phase = .entered

/-- No join and no sweep is under way, and every event has been handled. -/
structure Finished (state : State S J) : Prop where
  joins : ∀ j, ¬ (state.joins j).InFlight
  sweeps : ∀ index message, state.message index = some message →
    ∀ s, state.sweeps index s = .sweeping []

/-- The user of the socket may join the room under the organization. -/
def MayStay (setup : Setup S J) (state : State S J) (s : S) (orgId : OrgId) (room : Room) : Prop :=
  MayJoin state.db setup.now (setup.identity s).userId orgId room

/-- No socket is in a room that its user may not join. -/
def NoStale (setup : Setup S J) (state : State S J) : Prop :=
  ∀ s, ∀ room ∈ (state.sockets s).joined, ∃ orgId, MayStay setup state s orgId room

/-- An event about the user of the socket, other than the one at `except`, is
still to be handled for the socket. -/
def PendingBut (setup : Setup S J) (state : State S J) (except : Option Nat) (s : S)
    (orgId : OrgId) : Prop :=
  ∃ index message, some index ≠ except ∧ state.message index = some message ∧
    Covers message orgId (setup.identity s).userId ∧ state.sweeps index s = .waiting

/-- What the code does not see to: a change that takes a room from anyone is an
announced one, and no snapshot of a socket is taken while a join of it is in
flight that is refused by now, unless another sweep of it is still to come. -/
def SnapshotsSettled (setup : Setup S J) (state : State S J) : Action S J → Prop
  | .commit request => ∀ change, commit setup.users state.db request = .ok change →
      request.announced = true ∨
        ∀ orgId userId room, ¬ Closes state.db setup.now change orgId userId room
  | .snapshot index s => ∀ j, (setup.join j).socket = s → (state.joins j).InFlight →
      MayStay setup state s (setup.join j).orgId (setup.room j) ∨
        PendingBut setup state (some index) s (setup.join j).orgId
  | _ => True

end JoinRace
end TaskFlow
