import Mathlib.Algebra.Ring.Int.Defs
import Mathlib.Data.Fintype.Basic
import Mathlib.Data.String.Basic
import TaskFlow.ReadCommitted
import TaskFlow.StepSystem

/-! # Outbound webhook deliveries

`platform.webhook_deliveries` is a queue.  A rule enqueues a delivery; a worker
claims a batch of due ones by incrementing `attempts`, makes the requests one
after another, and marks each with its outcome.  The claim and each mark are
transactions of their own, and the request is outside of any.

`attempts` is the retry budget and the claim's concurrency token: the claim
takes a row only while it has the value the claim read.  A mark goes by the id
alone.
-/
namespace TaskFlow
namespace WebhookDelivery
open ReadCommitted

/-- Rows per tick. -/
def BATCH : Nat := 10

/-- Retries per delivery. -/
def MAX_ATTEMPTS : Nat := 6

def BACKOFF_BASE_MS : Int := 30000

def BACKOFF_MAX_MS : Int := 30 * 60000

def MAX_ERROR_LENGTH : Nat := 500

abbrev DeliveryId := String

inductive Status where
  | pending
  | succeeded
  | dead
  deriving DecidableEq, Repr

/-- A row of `platform.webhook_deliveries` but for its id. -/
structure Delivery where
  orgId : String
  webhookId : String
  eventId : String
  eventName : String
  payload : String
  status : Status
  attempts : Nat
  nextAttemptAt : Int
  lastStatusCode : Option Int
  lastError : Option String
  createdAt : Int
  updatedAt : Int
  deriving DecidableEq, Repr

abbrev Rows := DeliveryId → Option Delivery

inductive DeliveryOutcome where
  | succeeded (statusCode : Int)
  | failed (statusCode : Option Int) (error : String)
  /-- The endpoint was disabled between enqueue and delivery. -/
  | endpoint_disabled
  deriving DecidableEq, Repr

/-- What a worker keeps of a row it has claimed. -/
structure ClaimedRow where
  id : DeliveryId
  orgId : String
  webhookId : String
  /-- In a claimed row, the number of this attempt; in a candidate, the number
  of attempts so far. -/
  attempts : Nat
  deriving DecidableEq, Repr

/-! ### The statements -/

/-- What a caller enqueues. -/
structure EnqueueEvent where
  id : DeliveryId
  orgId : String
  webhookId : String
  eventId : String
  eventName : String
  payload : String
  deriving DecidableEq, Repr

/-- The row an enqueue inserts. -/
def enqueued (event : EnqueueEvent) (now : Int) : Delivery :=
  { orgId := event.orgId, webhookId := event.webhookId, eventId := event.eventId,
    eventName := event.eventName, payload := event.payload, status := .pending, attempts := 0,
    nextAttemptAt := now, lastStatusCode := none, lastError := none, createdAt := now,
    updatedAt := now }

/-- The insert conflicts with a row of the same id or the same event and
webhook. -/
def conflicts (ids : List DeliveryId) (rows : Rows) (event : EnqueueEvent) : Bool :=
  (rows event.id).isSome || ids.any fun id => (rows id).any fun row =>
    row.orgId = event.orgId ∧ row.webhookId = event.webhookId ∧ row.eventId = event.eventId

/-- The claim's conditions on a row. -/
def Due (now : Int) (row : Delivery) : Prop :=
  row.status = .pending ∧ row.nextAttemptAt < now ∧ row.attempts < MAX_ATTEMPTS

instance (now : Int) (row : Delivery) : Decidable (Due now row) :=
  inferInstanceAs (Decidable (_ ∧ _))

/-- The rows a claim considers, oldest first. -/
def candidates (ids : List DeliveryId) (rows : Rows) (now : Int) (limit : Nat) :
    List ClaimedRow :=
  let due := ids.filterMap fun id => (rows id).bind fun row =>
    if Due now row then some (id, row) else none
  ((due.mergeSort fun a b => a.2.createdAt ≤ b.2.createdAt).take limit).map fun (id, row) =>
    { id := id, orgId := row.orgId, webhookId := row.webhookId, attempts := row.attempts }

/-- The claim's update of a row it has read as `candidate`, where the row still
is as it was read. -/
def claim (rows : Rows) (candidate : ClaimedRow) (now : Int) : Option Delivery :=
  (rows candidate.id).bind fun row =>
    if row.attempts = candidate.attempts ∧ row.status = .pending then
      some { row with attempts := candidate.attempts + 1, updatedAt := now }
    else none

/-- Exponential backoff, capped. -/
def backoffFor (attempt : Nat) (now : Int) : Int :=
  now + min BACKOFF_MAX_MS (BACKOFF_BASE_MS * 2 ^ (attempt - 1))

/-- The row `markOutcome` leaves. -/
@[grind =] def markOutcome (row : Delivery) (outcome : DeliveryOutcome) (attempt : Nat) (now : Int) :
    Delivery :=
  match outcome with
  | .succeeded statusCode =>
    { row with status := .succeeded, lastStatusCode := some statusCode, lastError := none,
               updatedAt := now }
  | .failed statusCode error =>
    let row := { row with lastStatusCode := statusCode, updatedAt := now,
                          lastError := some (String.ofList (error.toList.take MAX_ERROR_LENGTH)) }
    if MAX_ATTEMPTS ≤ attempt then { row with status := .dead }
    else { row with status := .pending, nextAttemptAt := backoffFor attempt now }
  | .endpoint_disabled =>
    { row with status := .dead, lastStatusCode := none, updatedAt := now,
               lastError := some "endpoint disabled before delivery" }

/-! ### The workers -/

/-- Where a session is. -/
inductive Phase where
  | idle
  | enqueued
  /-- The claim has read `candidates` and taken `claimed`. -/
  | claiming (candidates claimed : List ClaimedRow)
  /-- The claim has committed; the first row of the batch is next. -/
  | draining (batch : List ClaimedRow)
  | attempting (row : ClaimedRow) (batch : List ClaimedRow)
  | attempted (row : ClaimedRow) (outcome : DeliveryOutcome) (batch : List ClaimedRow)
  /-- The mark of `row` is written, not committed. -/
  | marking (row : ClaimedRow) (batch : List ClaimedRow)
  deriving DecidableEq, Repr

inductive Input where
  | enqueue (event : EnqueueEvent) (now : Int)
  | claimDue (now : Int) (limit : Nat)
  | claimNext (now : Int)
  | deliver
  | respond (outcome : DeliveryOutcome)
  | mark (now : Int)
  | commit
  | finish
  /-- The worker dies, or a statement throws. -/
  | crash
  deriving DecidableEq, Repr

/-- The next statement of a session.  `ids` are the deliveries that exist at any
time. -/
@[grind =] def statement (ids : List DeliveryId) : Program DeliveryId (Option Delivery) Phase Input :=
  fun phase input rows _ =>
    match phase, input with
    | _, .crash => some (.rollback .idle)
    | .idle, .enqueue event now =>
      if conflicts ids rows event then some (.run [] [] .enqueued)
      else some (.run [] [(event.id, some (enqueued event now))] .enqueued)
    | .enqueued, .commit => some (.commit .idle)
    | .idle, .claimDue now limit =>
      some (.run [] [] (.claiming (candidates ids rows now limit) []))
    | .claiming (candidate :: candidates) claimed, .claimNext now =>
      match claim rows candidate now with
      | none => some (.run [] [] (.claiming candidates claimed))
      | some row => some (.run [] [(candidate.id, some row)] (.claiming candidates
          (claimed ++ [{ candidate with attempts := candidate.attempts + 1 }])))
    | .claiming [] claimed, .commit => some (.commit (.draining claimed))
    | .draining [], .finish => some (.run [] [] .idle)
    | .draining (row :: batch), .deliver => some (.run [] [] (.attempting row batch))
    | .attempting row batch, .respond outcome =>
      some (.run [] [] (.attempted row outcome batch))
    | .attempted row outcome batch, .mark now =>
      match rows row.id with
      | none => some (.run [] [] (.marking row batch))
      | some delivery => some (.run []
          [(row.id, some (markOutcome delivery outcome row.attempts now))] (.marking row batch))
    | .marking _ batch, .commit => some (.commit (.draining batch))
    | _, _ => none

/-- The rows a worker has claimed and whose mark has not committed. -/
def Phase.claimed : Phase → List ClaimedRow
  | .idle | .enqueued => []
  | .claiming _ claimed => claimed
  | .draining batch => batch
  | .attempting row batch | .attempted row _ batch | .marking row batch => row :: batch

/-- The rows a claim has still to take. -/
def Phase.candidates : Phase → List ClaimedRow
  | .claiming candidates _ => candidates
  | _ => []

/-- The claim of what a worker holds has committed. -/
def Phase.Settled : Phase → Prop
  | .claiming _ _ => False
  | _ => True

instance : DecidablePred Phase.Settled := fun phase => by
  cases phase <;> unfold Phase.Settled <;> infer_instance

/-- The delivery a worker is attempting. -/
def Phase.current : Phase → Option DeliveryId
  | .attempting row _ | .attempted row _ _ => some row.id
  | _ => none

/-- The row the next step of a worker takes, as it was read. -/
def taken (phase : Phase) (input : Input) (rows : Rows) : Option ClaimedRow :=
  match phase, input with
  | .claiming (candidate :: _) _, .claimNext now =>
    (claim rows candidate now).map fun _ => candidate
  | _, _ => none

variable {S : Type} [DecidableEq S]

abbrev State (S : Type) := World S DeliveryId (Option Delivery) Phase

/-- No delivery yet, and no worker at work. -/
def initial : State S := World.initial (fun _ => none) (fun _ => .idle)

def step (ids : List DeliveryId) : State S → S × Input → Option (State S) :=
  ReadCommitted.step (statement ids)

/-- The step takes no row that another worker has claimed and not marked. -/
def TakesUnclaimed (w : State S) (a : S × Input) : Prop :=
  ∀ row ∈ taken (w.locals a.1) a.2 (w.view a.1), ∀ t, t ≠ a.1 →
    row.id ∉ (w.locals t).claimed.map ClaimedRow.id

instance [Fintype S] (w : State S) (a : S × Input) : Decidable (TakesUnclaimed w a) :=
  inferInstanceAs (Decidable (∀ row ∈ taken _ _ _, ∀ t, t ≠ a.1 → _))

/-- The step commits no claim of a delivery's last attempt. -/
def ClaimsSpare (w : State S) (a : S × Input) : Prop :=
  match w.locals a.1, a.2 with
  | .claiming _ claimed, .commit => ∀ row ∈ claimed, row.attempts < MAX_ATTEMPTS
  | _, _ => True

instance (w : State S) (a : S × Input) : Decidable (ClaimsSpare w a) := by
  unfold ClaimsSpare
  split <;> infer_instance

/-- The step does not kill a worker that has committed the claim of a delivery's
last attempt and not its mark. -/
def CrashesSpare (w : State S) (a : S × Input) : Prop :=
  a.2 = .crash → (w.locals a.1).Settled → ∀ row ∈ (w.locals a.1).claimed,
    row.attempts < MAX_ATTEMPTS

instance (w : State S) (a : S × Input) : Decidable (CrashesSpare w a) :=
  inferInstanceAs (Decidable (a.2 = .crash → _ → _))

end WebhookDelivery
end TaskFlow
