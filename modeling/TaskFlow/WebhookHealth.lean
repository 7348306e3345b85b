import TaskFlow.ScriptLogic
import TaskFlow.WebhookDelivery

/-! # The health of a webhook endpoint

`failure_count` of a row of `platform.webhooks` counts the deliveries that died
of failure.  Where it reaches the threshold the endpoint is disabled, for having
failed so many deliveries in a row.

The worker marks a delivery in one transaction and counts its death in another,
and the counter is read by one statement and written by the next.  What resets
the counter is that somebody enables the endpoint again; a delivery that
succeeds leaves it as it is.
-/
namespace TaskFlow
namespace WebhookHealth
open ReadCommitted ReadCommitted.Script ReadCommitted.Procedure
open WebhookDelivery (BATCH MAX_ATTEMPTS ClaimedRow Delivery DeliveryId DeliveryOutcome
  EnqueueEvent Status)

/-- Consecutive dead deliveries after which the endpoint is auto-disabled. -/
def DISABLE_AFTER_FAILURES : Nat := 5

abbrev WebhookId := String

/-- A row of `platform.webhooks` but for its id and its signing key. -/
structure Webhook where
  orgId : String
  name : String
  url : String
  enabled : Bool
  disabledAt : Option Int
  failureCount : Nat
  createdBy : String
  updatedAt : Int
  deriving DecidableEq, Repr

/-- A row of `platform.notifications`. -/
structure Notification where
  orgId : String
  userId : String
  kind : String
  subjectType : String
  subjectId : String
  title : String
  excerpt : String
  actorId : Option String
  deriving DecidableEq, Repr

/-- A notification goes by its unique index. -/
inductive Key where
  | webhook (id : WebhookId)
  | delivery (id : DeliveryId)
  | notification (orgId subjectId userId kind : String)
  deriving DecidableEq, Repr

inductive Row where
  | webhook (row : Option Webhook)
  | delivery (row : Option Delivery)
  | notification (row : Option Notification)
  /-- There was a row.  Its id is not drawn again. -/
  | deleted
  deriving DecidableEq, Repr

def Row.webhook? : Row → Option Webhook
  | .webhook row => row
  | _ => none

def Row.delivery? : Row → Option Delivery
  | .delivery row => row
  | _ => none

abbrev Rows := Key → Row

/-- The webhook, to a transaction in the scope of an organization. -/
def Row.inOrg (row : Row) (orgId : String) : Option Webhook :=
  row.webhook?.filter fun webhook => webhook.orgId = orgId

def deliveriesOf (rows : Rows) : WebhookDelivery.Rows := fun id => (rows (.delivery id)).delivery?

/-- What a receiver answers, or how the request failed. -/
inductive Response where
  | succeeded (statusCode : Int)
  | failed (statusCode : Option Int) (error : String)
  deriving DecidableEq, Repr

def Response.outcome : Response → DeliveryOutcome
  | .succeeded statusCode => .succeeded statusCode
  | .failed statusCode error => .failed statusCode error

/-- What the environment tells a statement: the time, and for a request how it
went. -/
structure Env where
  now : Int
  response : Response
  deriving DecidableEq, Repr

inductive Label where
  | read
  | write
  deriving DecidableEq, Repr

inductive Note where
  | webhookCreated (webhookId name : String) (enabled : Bool)
  | webhookUpdated (webhookId name : String) (wasEnabled enabled : Bool)
  | webhookDeleted (webhookId name : String)
  | webhookDeliveryQueued (webhookId deliveryId eventId eventName : String)
  | webhookAutoDisabled (webhookId name : String) (failedDeliveries : Nat)
  /-- An attempt has been claimed. -/
  | claimed (deliveryId : DeliveryId) (attempt : Nat)
  /-- The mark of an attempt has left the delivery succeeded or dead. -/
  | finished (webhookId : WebhookId) (deliveryId : DeliveryId) (attempt : Nat) (status : Status)
  /-- The death of a delivery has been counted. -/
  | counted (webhookId : WebhookId) (deliveryId : DeliveryId)
  deriving DecidableEq, Repr

abbrev Procedure (α : Type) := ReadCommitted.Procedure Key Row Label Env Note α

/-! ### The registry -/

/-- Another webhook of the organization has the name. -/
def nameTaken (webhookIds : List WebhookId) (rows : Rows) (orgId : String) (id : WebhookId)
    (name : String) : Bool :=
  webhookIds.any fun other => other ≠ id ∧
    ((rows (.webhook other)).inOrg orgId).any fun webhook => webhook.name.toLower = name.toLower

/-- `id` is the id drawn for the row, and `urlAllowed` the verdict on the URL. -/
def createWebhook (webhookIds : List WebhookId) (orgId userId : String) (id : WebhookId)
    (name url : String) (urlAllowed : Bool) : Procedure WebhookId := do
  require urlAllowed
  transaction do
    let free (rows : Rows) : Bool :=
      id ∈ webhookIds ∧ rows (.webhook id) = .webhook none ∧ !nameTaken webhookIds rows orgId id name
    let inserted ← statement .write
      (fun env rows =>
        if free rows then
          ([], [(.webhook id, .webhook (some
            { orgId := orgId, name := name, url := url, enabled := true, disabledAt := none,
              failureCount := 0, createdBy := userId, updatedAt := env.now }))])
        else ([], []))
      (fun _ rows => free rows)
    require inserted
    return ([.webhookCreated id name true], id)

/-- The webhook, or not found. -/
def loadWebhook (orgId : String) (id : WebhookId) : Procedure Webhook := do
  let webhook ← select .read fun rows => (rows (.webhook id)).inOrg orgId
  ofOption webhook

def updateWebhook (webhookIds : List WebhookId) (orgId : String) (id : WebhookId)
    (name url : String) (urlAllowed : Bool) : Procedure String := do
  require urlAllowed
  transaction do
    let existing ← loadWebhook orgId id
    let taken ← statement .write
      (fun env rows =>
        if nameTaken webhookIds rows orgId id name then ([], [])
        else ([], (((rows (.webhook id)).inOrg orgId).map fun webhook =>
          (.webhook id, .webhook (some
            { webhook with name := name, url := url, updatedAt := env.now }))).toList))
      (fun _ rows => nameTaken webhookIds rows orgId id name)
    -- the unique index
    require (taken = false)
    return ([.webhookUpdated id name existing.enabled existing.enabled], name)

/-- The endpoint kill switch.  Enabling clears what the worker left. -/
def setWebhookEnabled (orgId : String) (id : WebhookId) (enabled : Bool) : Procedure Bool :=
  transaction do
    let existing ← loadWebhook orgId id
    let _ ← update .write (.webhook id) fun env row => (row.inOrg orgId).map fun webhook =>
      .webhook (some (if enabled then
        { webhook with enabled := true, disabledAt := none, failureCount := 0,
                       updatedAt := env.now }
      else { webhook with enabled := false, updatedAt := env.now }))
    return ([.webhookUpdated id existing.name existing.enabled enabled], enabled)

/-- The deliveries go with their webhook. -/
def cascade (ids : List DeliveryId) (rows : Rows) (orgId : String) (id : WebhookId) :
    List (Key × Row) :=
  ids.filterMap fun deliveryId => (deliveriesOf rows deliveryId).bind fun delivery =>
    if delivery.orgId = orgId ∧ delivery.webhookId = id then some (.delivery deliveryId, .deleted)
    else none

def deleteWebhook (ids : List DeliveryId) (orgId : String) (id : WebhookId) : Procedure Unit :=
  transaction do
    let existing ← loadWebhook orgId id
    statement .write
      (fun _ rows =>
        if ((rows (.webhook id)).inOrg orgId).isSome then
          ([], (.webhook id, .deleted) :: cascade ids rows orgId id)
        else ([], []))
      (fun _ _ => ())
    return ([.webhookDeleted id existing.name], ())

/-! ### The queue -/

/-- `authorized` is what `webhook:manage` says about the caller, and `event.id`
the id drawn for the row. -/
def enqueueWebhookDelivery (ids : List DeliveryId) (authorized : Bool) (event : EnqueueEvent) :
    Procedure (Option DeliveryId) := do
  require authorized
  transaction do
    let webhook ← loadWebhook event.orgId event.webhookId
    require webhook.enabled
    let free (rows : Rows) : Bool :=
      event.id ∈ ids ∧ rows (.delivery event.id) = .delivery none ∧
        !WebhookDelivery.conflicts ids (deliveriesOf rows) event
    let inserted ← statement .write
      (fun env rows =>
        if free rows then
          ([], [(.delivery event.id, .delivery (some (WebhookDelivery.enqueued event env.now)))])
        else ([], []))
      (fun _ rows => free rows)
    if inserted then
      return ([.webhookDeliveryQueued event.webhookId event.id event.eventId event.eventName],
        some event.id)
    else return ([], none)

/-- The claims of a batch, one conditional UPDATE after another. -/
def claimEach : List ClaimedRow → Procedure (List ClaimedRow)
  | [] => return []
  | row :: candidates => do
    let won ← update .write (.delivery row.id) fun env stored =>
      (WebhookDelivery.claim (fun _ => stored.delivery?) row env.now).map fun delivery =>
        .delivery (some delivery)
    let claimed ← claimEach candidates
    return if won.isSome then { row with attempts := row.attempts + 1 } :: claimed else claimed

def claimDue (ids : List DeliveryId) (limit : Nat) : Procedure (List ClaimedRow) :=
  transaction do
    let candidates ← statement .read (fun _ _ => ([], [])) fun env rows =>
      WebhookDelivery.candidates ids (deliveriesOf rows) env.now limit
    let claimed ← claimEach candidates
    return (claimed.map fun row => .claimed row.id row.attempts, claimed)

/-- The outcome of one attempt; the request itself is the environment's. -/
def deliverOne (row : ClaimedRow) : Procedure DeliveryOutcome :=
  transaction do
    let webhook ← select .read fun rows => (rows (.webhook row.webhookId)).inOrg row.orgId
    if webhook.all fun webhook => !webhook.enabled then return ([], .endpoint_disabled)
    else
      let delivery ← select .read fun rows => deliveriesOf rows row.id
      if delivery.isNone then return ([], .endpoint_disabled)
      else
        let outcome ← statement .read (fun _ _ => ([], [])) fun env _ => env.response.outcome
        return ([], outcome)

/-- What the mark of a row has finished. -/
def finishedBy (row : ClaimedRow) (marked : Option Row) : List Note :=
  match marked.bind Row.delivery? with
  | none => []
  | some delivery =>
    if delivery.status = .pending then []
    else [.finished row.webhookId row.id row.attempts delivery.status]

/-- Records the outcome of one attempt. -/
def markOutcome (row : ClaimedRow) (outcome : DeliveryOutcome) : Procedure Unit :=
  transaction do
    let marked ← update .write (.delivery row.id) fun env stored =>
      stored.delivery?.map fun delivery =>
        .delivery (some (WebhookDelivery.markOutcome delivery outcome row.attempts env.now))
    return (finishedBy row marked, ())

/-- The notification to the person who created the endpoint. -/
def disabledNotification (row : ClaimedRow) (webhook : Webhook) (failureCount : Nat) :
    Notification where
  orgId := row.orgId
  userId := webhook.createdBy
  kind := "webhook.disabled"
  subjectType := "webhook"
  subjectId := row.webhookId
  title := "Webhook disabled: " ++ webhook.name
  excerpt := "It failed " ++ toString failureCount ++ " deliveries in a row."
  actorId := none

/-- Counts a death against the endpoint, and disables the endpoint once it has
failed enough. -/
def registerFailureAndMaybeDisable (row : ClaimedRow) : Procedure Bool :=
  transaction do
    let webhook ← select .read fun rows => (rows (.webhook row.webhookId)).inOrg row.orgId
    match webhook with
    | none => return ([], false)
    | some webhook =>
      if webhook.enabled = false then return ([], false)
      else
        let failureCount := webhook.failureCount + 1
        let _ ← update .write (.webhook row.webhookId) fun env stored =>
          (stored.inOrg row.orgId).map fun stored =>
            .webhook (some { stored with failureCount := failureCount, updatedAt := env.now })
        if failureCount < DISABLE_AFTER_FAILURES then
          return ([.counted row.webhookId row.id], false)
        else
          let _ ← update .write (.webhook row.webhookId) fun env stored =>
            (stored.inOrg row.orgId).bind fun stored =>
              if stored.enabled then
                some (.webhook (some { stored with enabled := false, disabledAt := some env.now,
                                                   updatedAt := env.now }))
              else none
          let _ ← update .write
            (.notification row.orgId row.webhookId webhook.createdBy "webhook.disabled")
            fun _ stored =>
              if stored = .notification none then
                some (.notification (some (disabledNotification row webhook failureCount)))
              else none
          return ([.counted row.webhookId row.id,
            .webhookAutoDisabled row.webhookId webhook.name failureCount], true)

structure WebhookDrainResult where
  processed : Nat
  delivered : Nat
  failed : Nat
  disabled : Nat
  deriving DecidableEq, Repr

/-- Only the last attempt's failure counts against the endpoint. -/
def registerLast (row : ClaimedRow) (outcome : DeliveryOutcome) : Procedure Bool :=
  match outcome with
  | .failed _ _ =>
    if MAX_ATTEMPTS ≤ row.attempts then registerFailureAndMaybeDisable row else return false
  | _ => return false

/-- The claimed rows, one after another. -/
def deliverEach : List ClaimedRow → WebhookDrainResult → Procedure WebhookDrainResult
  | [], result => return result
  | row :: rows, result => do
    let outcome ← deliverOne row
    markOutcome row outcome
    let disabled ← registerLast row outcome
    deliverEach rows {
      processed := result.processed
      delivered := match outcome with
        | .succeeded _ => result.delivered + 1
        | _ => result.delivered
      failed := match outcome with
        | .failed _ _ => result.failed + 1
        | _ => result.failed
      disabled := if disabled then result.disabled + 1 else result.disabled }

def drainWebhookDeliveries (ids : List DeliveryId) : Procedure WebhookDrainResult := do
  let claimed ← claimDue ids BATCH
  deliverEach claimed ⟨claimed.length, 0, 0, 0⟩

/-! ### Runs -/

inductive Call where
  | createWebhook (orgId userId : String) (id : WebhookId) (name url : String) (urlAllowed : Bool)
  | updateWebhook (orgId : String) (id : WebhookId) (name url : String) (urlAllowed : Bool)
  | setWebhookEnabled (orgId : String) (id : WebhookId) (enabled : Bool)
  | deleteWebhook (orgId : String) (id : WebhookId)
  | enqueueWebhookDelivery (authorized : Bool) (event : EnqueueEvent)
  | drainWebhookDeliveries

/-- `webhookIds` and `ids` are the ids that webhooks and deliveries get. -/
def calls (webhookIds : List WebhookId) (ids : List DeliveryId) :
    Call → Script Key Row Label Env Note
  | .createWebhook orgId userId id name url urlAllowed =>
    (createWebhook webhookIds orgId userId id name url urlAllowed).script
  | .updateWebhook orgId id name url urlAllowed =>
    (updateWebhook webhookIds orgId id name url urlAllowed).script
  | .setWebhookEnabled orgId id enabled => (setWebhookEnabled orgId id enabled).script
  | .deleteWebhook orgId id => (deleteWebhook ids orgId id).script
  | .enqueueWebhookDelivery authorized event => (enqueueWebhookDelivery ids authorized event).script
  | .drainWebhookDeliveries => (drainWebhookDeliveries ids).script

/-- The tables are empty. -/
def noWebhooks : Rows
  | .webhook _ => .webhook none
  | .delivery _ => .delivery none
  | .notification _ _ _ _ => .notification none

/-! ### What has been delivered -/

/-- A delivery to the endpoint has succeeded. -/
def Note.isSuccess (webhookId : WebhookId) : Note → Bool
  | .finished other _ _ .succeeded => other = webhookId
  | _ => false

/-- What has been noted since a delivery to the endpoint last succeeded, the most
recent first. -/
def sinceSuccess (log : List Note) (webhookId : WebhookId) : List Note :=
  log.takeWhile fun note => !note.isSuccess webhookId

/-- The delivery, if the note is that one to the endpoint has died. -/
def Note.death? (webhookId : WebhookId) : Note → Option DeliveryId
  | .finished other deliveryId _ .dead => if other = webhookId then some deliveryId else none
  | _ => none

/-- The deliveries to the endpoint that have ended since one last succeeded: they
have all ended dead. -/
def deadSince (log : List Note) (webhookId : WebhookId) : List DeliveryId :=
  (sinceSuccess log webhookId).filterMap fun note => note.death? webhookId

/-- A success finds the endpoint's counter at zero. -/
def Note.FindsZero (rows : Rows) : Note → Prop
  | .finished webhookId _ _ .succeeded =>
    ∀ webhook ∈ (rows (.webhook webhookId)).webhook?, webhook.failureCount = 0
  | _ => True

/-- A death is counted before another delivery to the endpoint succeeds. -/
def Note.InTime (log : List Note) : Note → Prop
  | .counted webhookId deliveryId =>
    .finished webhookId deliveryId MAX_ATTEMPTS .dead ∈ sinceSuccess log webhookId
  | _ => True

/-- No success comes between two deaths that the counter counts together. -/
def unbrokenStreaks : Condition Key Row Label Env Note where
  commit notes rows := ∀ note ∈ notes, note.FindsZero rows
  history notes log := ∀ note ∈ notes, note.InTime log

instance {rows : Rows} : DecidablePred (Note.FindsZero rows) := fun note => by
  unfold Note.FindsZero
  split <;> infer_instance

instance {log : List Note} : DecidablePred (Note.InTime log) := fun note => by
  unfold Note.InTime
  split <;> infer_instance

instance {label : Label} {i : Env} {rows : Rows} {held : Key → Bool} :
    Decidable (unbrokenStreaks.statement label i rows held) := isTrue trivial

instance {notes : List Note} {rows : Rows} : Decidable (unbrokenStreaks.commit notes rows) :=
  inferInstanceAs (Decidable (∀ note ∈ notes, note.FindsZero rows))

instance {notes log : List Note} : Decidable (unbrokenStreaks.history notes log) :=
  inferInstanceAs (Decidable (∀ note ∈ notes, note.InTime log))

end WebhookHealth
end TaskFlow
