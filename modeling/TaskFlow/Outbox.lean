import Mathlib.Data.String.Basic
import TaskFlow.ReadCommitted
import TaskFlow.StepSystem

/-! # The outbox and its consumers

A mutation appends its events to `platform.outbox` in its own transaction.  Each
consumer drains them: `claimPending` selects the events it has not dispatched
and locks their outbox rows, passing over locked ones; the batch is handled; and
`markDispatched` records it in `platform.outbox_dispatch`, one row per event and
consumer, in the transaction that claimed it.

The claim is one statement, but not one instant.  Its snapshot decides which
events are owed, and then the rows are locked one after another.  Marking an
event writes its dispatch row and never its outbox row, so locking an outbox row
does not look at the dispatch row again.
-/
namespace TaskFlow
namespace Outbox
open ReadCommitted

abbrev EventId := String

/-- An event as a service emits it. -/
structure DomainEvent where
  id : EventId
  orgId : String
  name : String
  version : Int
  actorId : Option String
  occurredAt : Int
  requestId : Option String
  causationDepth : Option Nat
  payload : String
  deriving DecidableEq, Repr

/-- A row of `platform.outbox` but for its id. -/
structure OutboxRecord where
  orgId : String
  name : String
  version : Int
  actorId : Option String
  occurredAt : Int
  requestId : Option String
  causationDepth : Int
  payload : String
  deriving DecidableEq, Repr

/-- A row of `platform.outbox_dispatch` but for its key. -/
structure Dispatch where
  attempts : Nat
  lastError : Option String
  dispatchedAt : Option Int
  deriving DecidableEq, Repr

/-- An outbox row as a consumer reads it back. -/
structure OutboxRow where
  id : EventId
  orgId : String
  name : String
  version : Int
  actorId : Option String
  occurredAt : Int
  requestId : Option String
  causationDepth : Nat
  payload : String
  attempts : Nat
  deriving DecidableEq, Repr

/-- The primary keys of the two tables. -/
inductive Key where
  | outbox (id : EventId)
  | outboxDispatch (eventId : EventId) (consumer : String)
  deriving DecidableEq, Repr

inductive Row where
  | outbox (record : OutboxRecord)
  | outboxDispatch (dispatch : Dispatch)
  deriving DecidableEq, Repr

abbrev Rows := Key → Option Row

def outboxAt (rows : Rows) (id : EventId) : Option OutboxRecord :=
  match rows (.outbox id) with
  | some (.outbox record) => some record
  | _ => none

@[grind =] def dispatchAt (rows : Rows) (id : EventId) (consumer : String) : Option Dispatch :=
  match rows (.outboxDispatch id consumer) with
  | some (.outboxDispatch dispatch) => some dispatch
  | _ => none

/-- The event has been dispatched to the consumer. -/
def Dispatched (rows : Rows) (id : EventId) (consumer : String) : Prop :=
  (dispatchAt rows id consumer).bind Dispatch.dispatchedAt ≠ none

instance (rows : Rows) (id : EventId) (consumer : String) :
    Decidable (Dispatched rows id consumer) :=
  inferInstanceAs (Decidable (_ ≠ none))

/-! ### The statements -/

/-- The row `appendToOutbox` inserts. -/
def appendToOutbox (event : DomainEvent) : Key × Option Row :=
  (.outbox event.id, some (.outbox
    { orgId := event.orgId, name := event.name, version := event.version,
      actorId := event.actorId, occurredAt := event.occurredAt, requestId := event.requestId,
      causationDepth := event.causationDepth.getD 0, payload := event.payload }))

/-- Narrows the causation depth, a negative one to 0. -/
def depth (parsed : Int) : Nat := if parsed < 0 then 0 else parsed.toNat

/-- One row of the claim's query: the event joined with the consumer's dispatch
row, where that row is missing or has no `dispatched_at`. -/
def owed (rows : Rows) (consumer : String) (id : EventId) : Option OutboxRow :=
  (outboxAt rows id).bind fun record =>
    let dispatch := dispatchAt rows id consumer
    if dispatch.bind Dispatch.dispatchedAt = none then
      some { id := id, orgId := record.orgId, name := record.name, version := record.version,
             actorId := record.actorId, occurredAt := record.occurredAt,
             requestId := record.requestId, causationDepth := depth record.causationDepth,
             payload := record.payload, attempts := (dispatch.map Dispatch.attempts).getD 0 }
    else none

/-- `ORDER BY o.occurred_at, o.id`. -/
def occursBefore (a b : OutboxRow) : Bool :=
  a.occurredAt < b.occurredAt || (a.occurredAt == b.occurredAt && decide (a.id ≤ b.id))

/-- What the claim's snapshot matches, in order, before locks and the limit. -/
def pendingRows (ids : List EventId) (rows : Rows) (consumer : String) : List OutboxRow :=
  (ids.filterMap (owed rows consumer)).mergeSort occursBefore

/-- The row marking leaves: an existing one keeps its other columns. -/
def Dispatch.marked (now : Int) : Option Dispatch → Dispatch
  | none => { attempts := 0, lastError := none, dispatchedAt := some now }
  | some dispatch => { dispatch with dispatchedAt := some now }

def markDispatched (rows : Rows) (consumer : String) (now : Int) (id : EventId) :
    Key × Option Row :=
  (.outboxDispatch id consumer,
    some (.outboxDispatch (Dispatch.marked now (dispatchAt rows id consumer))))

/-- The row a failed attempt leaves. -/
def Dispatch.failed (error : String) : Option Dispatch → Dispatch
  | none => { attempts := 1, lastError := some error, dispatchedAt := none }
  | some dispatch => { dispatch with attempts := dispatch.attempts + 1, lastError := some error }

def recordFailure (rows : Rows) (consumer : String) (id : EventId) (error : String) :
    Key × Option Row :=
  (.outboxDispatch id consumer, some (.outboxDispatch
    (Dispatch.failed (String.ofList (error.toList.take 1000)) (dispatchAt rows id consumer))))

/-! ### The sessions -/

/-- Where a session is: between transactions, having appended events, or at a
stage of draining a batch. -/
inductive Phase where
  | idle
  | appended
  /-- The claim has matched `candidates` and locked `claimed`. -/
  | locking (consumer : String) (limit : Nat) (candidates claimed : List OutboxRow)
  /-- `rest` is still to be handled, `done` was. -/
  | handling (consumer : String) (rest : List OutboxRow) (done : List EventId)
  | marked (consumer : String) (batch : List EventId)
  deriving DecidableEq, Repr

/-- What makes a session take its next step. -/
inductive Input where
  | append (events : List DomainEvent)
  | claim (consumer : String) (limit : Nat)
  | lockNext
  | handled
  | failed (error : String)
  | mark (now : Int)
  | commit
  /-- The handler threw, the process died or the connection was lost. -/
  | abort
  deriving DecidableEq, Repr

/-- The next statement of a session.  `ids` are the events that exist at any
time. -/
@[grind =] def statement (ids : List EventId) : Program Key (Option Row) Phase Input :=
  fun phase input rows held =>
    match phase, input with
    | _, .abort => some (.rollback .idle)
    | .idle, .append events =>
      if (events.map DomainEvent.id).Nodup ∧ ∀ event ∈ events, outboxAt rows event.id = none then
        some (.run [] (events.map appendToOutbox) .appended)
      else some (.rollback .idle)
    | .appended, .commit => some (.commit .idle)
    | .idle, .claim consumer limit =>
      some (.run [] [] (.locking consumer limit (pendingRows ids rows consumer) []))
    | .locking consumer limit candidates claimed, .lockNext =>
      match candidates with
      | [] => some (.run [] [] (.handling consumer claimed []))
      | row :: candidates =>
        if limit ≤ claimed.length then some (.run [] [] (.handling consumer claimed []))
        -- SKIP LOCKED
        else if held (.outbox row.id) then
          some (.run [] [] (.locking consumer limit candidates claimed))
        else some (.run [.outbox row.id] []
          (.locking consumer limit candidates (claimed ++ [row])))
    | .handling consumer (row :: rest) done, .handled =>
      some (.run [] [] (.handling consumer rest (done ++ [row.id])))
    | .handling consumer (row :: rest) done, .failed error =>
      some (.run [] [recordFailure rows consumer row.id error] (.handling consumer rest done))
    | .handling consumer [] done, .mark now =>
      some (.run [] (done.map (markDispatched rows consumer now)) (.marked consumer done))
    | .marked _ _, .commit => some (.commit .idle)
    | _, _ => none

/-- The sessions and the batches they have committed, the most recent first. -/
structure System (S : Type) where
  world : World S Key (Option Row) Phase
  batches : List (String × List EventId)

variable {S : Type} [DecidableEq S]

def initial (rows : Rows) : System S := ⟨World.initial rows (fun _ => .idle), []⟩

/-- The batch this step commits. -/
def committing : Phase → Input → List (String × List EventId)
  | .marked consumer batch, .commit => [(consumer, batch)]
  | _, _ => []

/-- One session takes its next statement. -/
def step (ids : List EventId) (sys : System S) (a : S × Input) : Option (System S) :=
  (ReadCommitted.step (statement ids) sys.world a).map fun world =>
    ⟨world, committing (sys.world.locals a.1) a.2 ++ sys.batches⟩

/-! ### What a session holds -/

/-- The events a session has locked and not given up on. -/
def Phase.claimed : Phase → List (String × EventId)
  | .idle | .appended => []
  | .locking consumer _ _ claimed => claimed.map fun row => (consumer, row.id)
  | .handling consumer rest done => (done ++ rest.map OutboxRow.id).map (consumer, ·)
  | .marked consumer batch => batch.map (consumer, ·)

/-- The events a claim has still to lock. -/
def Phase.candidates : Phase → List (String × EventId)
  | .locking consumer _ candidates _ => candidates.map fun row => (consumer, row.id)
  | _ => []

/-- The step locks no event that is already dispatched to its consumer: the
claim's snapshot is still right about the row it locks. -/
def LocksOwed (sys : System S) (a : S × Input) : Prop :=
  match sys.world.locals a.1, a.2 with
  | .locking consumer limit (row :: _) claimed, .lockNext =>
    claimed.length < limit → sys.world.held a.1 (.outbox row.id) = false →
      ¬Dispatched sys.world.committed row.id consumer
  | _, _ => True

instance (sys : System S) (a : S × Input) : Decidable (LocksOwed sys a) := by
  unfold LocksOwed
  split <;> infer_instance

end Outbox
end TaskFlow
