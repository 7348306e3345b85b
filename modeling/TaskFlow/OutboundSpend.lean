import TaskFlow.HeldAccount
import TaskFlow.StepSystem
import TaskFlow.Tenancy

/-! # Spending on calls and messages

Every outbound action passes one gate, which sums the ledger of the organization and
refuses what would cross the cap.  The action's own row is inserted later, in a
transaction of its own: for a call before the carrier is asked to place it, with the
estimate, and for a message after the carrier has sent it, with its price.  Nothing
holds the amount in between.
-/
namespace TaskFlow
namespace OutboundSpend
open Tenancy (OrgStatus)
open HeldAccount

/-! ### Destinations -/

structure GeoRule where
  /-- Digits after the `+`. -/
  prefixDigits : String
  region : String
  allow : Bool
  deriving DecidableEq, Repr

def GEO_RULES : List GeoRule := [
  ⟨"1", "US/CA", true⟩,
  ⟨"1242", "BS", false⟩, ⟨"1246", "BB", false⟩, ⟨"1264", "AI", false⟩, ⟨"1268", "AG", false⟩,
  ⟨"1284", "VG", false⟩, ⟨"1345", "KY", false⟩, ⟨"1441", "BM", false⟩, ⟨"1473", "GD", false⟩,
  ⟨"1649", "TC", false⟩, ⟨"1658", "JM", false⟩, ⟨"1664", "MS", false⟩, ⟨"1721", "SX", false⟩,
  ⟨"1758", "LC", false⟩, ⟨"1767", "DM", false⟩, ⟨"1784", "VC", false⟩, ⟨"1809", "DO", false⟩,
  ⟨"1829", "DO", false⟩, ⟨"1849", "DO", false⟩, ⟨"1868", "TT", false⟩, ⟨"1869", "KN", false⟩,
  ⟨"1876", "JM", false⟩,
  ⟨"1900", "US-PREMIUM", false⟩, ⟨"1976", "US-PREMIUM", false⟩,
  ⟨"30", "GR", true⟩, ⟨"31", "NL", true⟩, ⟨"32", "BE", true⟩, ⟨"33", "FR", true⟩,
  ⟨"34", "ES", true⟩, ⟨"39", "IT", true⟩, ⟨"41", "CH", true⟩, ⟨"43", "AT", true⟩,
  ⟨"44", "GB", true⟩, ⟨"45", "DK", true⟩, ⟨"46", "SE", true⟩, ⟨"47", "NO", true⟩,
  ⟨"48", "PL", true⟩, ⟨"49", "DE", true⟩, ⟨"351", "PT", true⟩, ⟨"353", "IE", true⟩,
  ⟨"354", "IS", true⟩, ⟨"358", "FI", true⟩, ⟨"372", "EE", true⟩, ⟨"420", "CZ", true⟩,
  ⟨"4470", "GB-PERSONAL", false⟩, ⟨"4490", "GB-PREMIUM", false⟩, ⟨"4491", "GB-PREMIUM", false⟩,
  ⟨"61", "AU", true⟩, ⟨"64", "NZ", true⟩, ⟨"65", "SG", true⟩, ⟨"81", "JP", true⟩,
  ⟨"882", "INTL-NETWORK", false⟩, ⟨"883", "INTL-NETWORK", false⟩,
  ⟨"870", "SATELLITE", false⟩, ⟨"881", "SATELLITE", false⟩]

/-- The longer of two matching rules, the first of equally long ones. -/
def GeoRule.better (rule : GeoRule) : Option GeoRule → Option GeoRule
  | none => some rule
  | some best =>
    if best.prefixDigits.toList.length < rule.prefixDigits.toList.length then some rule
    else some best

structure GeoVerdict where
  allowed : Bool
  rule : Option GeoRule
  deriving DecidableEq, Repr

/-- Whether a destination may be dialled or messaged: the longest rule decides, and
without one the destination is denied. -/
def checkDestination (destination : String) (rules : List GeoRule) : GeoVerdict :=
  let digits := destination.toList.drop 1
  let best := rules.foldl (fun best rule =>
    if rule.prefixDigits.toList.isPrefixOf digits then rule.better best else best) none
  ⟨(best.map (·.allow)).getD false, best⟩

/-! ### The ledger -/

inductive OutboundKind where
  | call
  | sms
  | number_purchase
  | verification
  | automation_call
  | automation_sms
  deriving DecidableEq, Repr

def OutboundKind.isAutomation : OutboundKind → Bool
  | .automation_call | .automation_sms => true
  | _ => false

/-- Calls are recorded before the carrier is asked, everything else after. -/
def OutboundKind.isCall : OutboundKind → Bool
  | .call | .automation_call => true
  | _ => false

/-- A row of `comms.spend_ledger`.  Instants are in milliseconds. -/
structure SpendRow where
  id : String
  kind : OutboundKind
  estimatedCents : Nat
  actualCents : Option Nat
  providerSid : Option String
  occurredAt : Int
  deriving DecidableEq, Repr

/-- `COALESCE(actual_cents, estimated_cents)`. -/
def SpendRow.cents (row : SpendRow) : Nat := row.actualCents.getD row.estimatedCents

def sumWithFallback (since : Int) (kinds : OutboundKind → Bool) (rows : List SpendRow) : Nat :=
  ((rows.filter fun row => since ≤ row.occurredAt ∧ kinds row.kind).map (·.cents)).sum

inductive SubaccountStatus where
  | active
  | suspended
  | closed
  deriving DecidableEq, Repr

structure Subaccount where
  sid : String
  status : SubaccountStatus
  deriving DecidableEq, Repr

/-- A row of `comms.spend_policy`. -/
structure SpendPolicy where
  capCents : Nat
  windowDays : Nat
  automationCapCents : Option Nat
  deriving DecidableEq, Repr

inductive TelephonyRefusal where
  | destination_not_allowed
  | org_suspended
  | no_subaccount
  | spend_cap_exceeded
  | automation_budget_exceeded
  | velocity_exceeded
  deriving DecidableEq, Repr

inductive Event where
  | spendCapReached (spentCents capCents thresholdPercent : Nat)
  | spendLimitExceeded (reason : TelephonyRefusal) (kind : OutboundKind)
      (estimatedCents spentCents capCents : Nat)
  deriving DecidableEq, Repr

/-- What has been committed of one organization. -/
structure Database where
  orgStatus : Option OrgStatus
  subaccount : Option Subaccount
  spendPolicy : Option SpendPolicy
  spendLedger : List SpendRow
  outbox : List Event
  deriving DecidableEq, Repr

def DAY_MS : Int := 24 * 60 * 60 * 1000

structure GateConfig where
  defaultCapCents : Nat

def Database.capCents (db : Database) (config : GateConfig) : Nat :=
  (db.spendPolicy.map (·.capCents)).getD config.defaultCapCents

def Database.windowDays (db : Database) : Nat := (db.spendPolicy.map (·.windowDays)).getD 30

def Database.automationCapCents (db : Database) : Option Nat :=
  db.spendPolicy.bind (·.automationCapCents)

/-- The start of the rolling window. -/
def Database.since (db : Database) (now : Int) : Int := now - db.windowDays * DAY_MS

/-! ### The gate -/

structure OutboundRequest where
  kind : OutboundKind
  destination : String
  estimatedCents : Nat
  deriving DecidableEq, Repr

structure SpendState where
  orgStatus : Option OrgStatus
  subaccount : Option Subaccount
  capCents : Nat
  windowDays : Nat
  spentCents : Nat
  automationSpentCents : Nat
  automationCapCents : Option Nat
  deriving DecidableEq, Repr

structure GateAllowed where
  subaccountSid : String
  spentCents : Nat
  capCents : Nat
  warnThresholdPercent : Option Nat
  windowDays : Nat
  automationSpentCents : Nat
  automationCapCents : Option Nat
  deriving DecidableEq, Repr

structure GateRefused where
  reason : TelephonyRefusal
  spentCents : Nat
  capCents : Nat
  retryAfterSeconds : Option Nat
  deriving DecidableEq, Repr

inductive GateDecision where
  | allowed (decision : GateAllowed)
  | refused (decision : GateRefused)
  deriving DecidableEq, Repr

def GateDecision.isAllowed : GateDecision → Bool
  | .allowed _ => true
  | .refused _ => false

/-- Warn at 80% of the cap. -/
def WARN_PERCENT : Nat := 80

/-- The action would cross the cap. -/
def SpendState.exceedsCap (state : SpendState) (request : OutboundRequest) : Bool :=
  state.capCents < state.spentCents + request.estimatedCents

/-- The action is automated and would cross the separate cap for these. -/
def SpendState.exceedsAutomationCap (state : SpendState) (request : OutboundRequest) : Bool :=
  request.kind.isAutomation &&
    state.automationCapCents.any (· < state.automationSpentCents + request.estimatedCents)

def SpendState.crossesWarning (state : SpendState) (request : OutboundRequest) : Bool :=
  let after := state.spentCents + request.estimatedCents
  0 < state.capCents ∧ state.capCents * WARN_PERCENT ≤ after * 100 ∧
    state.spentCents * 100 < state.capCents * WARN_PERCENT

/-- What `checkOutboundAllowed` decides on what it has read.  The rate limiters of the
process refuse with the seconds to wait. -/
def checkOutboundAllowed (request : OutboundRequest) (state : SpendState)
    (perUser perOrg : Option Nat) : GateDecision :=
  let refused (reason : TelephonyRefusal) (retryAfterSeconds : Option Nat) : GateDecision :=
    .refused ⟨reason, state.spentCents, state.capCents, retryAfterSeconds⟩
  if state.orgStatus ≠ some .active then refused .org_suspended none
  else match state.subaccount.filter (·.status = .active) with
  | none => refused .no_subaccount none
  | some subaccount =>
    if state.exceedsCap request then refused .spend_cap_exceeded none
    else if state.exceedsAutomationCap request then
      -- the figures that refused the action, not the organization's
      .refused ⟨.automation_budget_exceeded, state.automationSpentCents,
        state.automationCapCents.getD 0, none⟩
    else if perUser.isSome then refused .velocity_exceeded perUser
    else if perOrg.isSome then refused .velocity_exceeded perOrg
    else .allowed
      { subaccountSid := subaccount.sid
        spentCents := state.spentCents
        capCents := state.capCents
        warnThresholdPercent :=
          if state.crossesWarning request then some WARN_PERCENT else none
        windowDays := state.windowDays
        automationSpentCents := state.automationSpentCents
        automationCapCents := state.automationCapCents }

/-! ### Requests -/

/-- What the request does next. -/
inductive Phase where
  | checkDestination
  | selectOrg
  | selectSubaccount (orgStatus : Option OrgStatus)
  | selectPolicy (orgStatus : Option OrgStatus) (subaccount : Option Subaccount)
  /-- The sums of what has been read are 0 until they have been. -/
  | sumSpend (read : SpendState) (since : Int)
  | sumAutomationSpend (read : SpendState) (since : Int)
  | decide (state : SpendState)
  | emitRefusal (decision : GateRefused)
  /-- A call's row and its ledger entry. -/
  | insertCall (decision : GateAllowed)
  | placeCall (spendId : String)
  | attachSid (spendId providerSid : String)
  | releaseUnplacedCall (spendId : String)
  /-- The carrier is asked for anything but a call. -/
  | send (decision : GateAllowed)
  | recordSent (decision : GateAllowed) (costCents : Nat) (providerSid : String)
  | finished
  deriving DecidableEq, Repr

structure Request where
  request : OutboundRequest
  phase : Phase
  deriving DecidableEq, Repr

inductive Input where
  | next
  /-- The seconds to wait, where a rate limiter refuses. -/
  | velocity (perUser perOrg : Option Nat)
  /-- The new row's id, and the start of the transaction by the database's clock. -/
  | insert (id : String) (occurredAt : Int)
  | accepted (sid : String) (costCents : Nat)
  | carrierRefused
  /-- Something throws, or the process is gone. -/
  | abort
  deriving DecidableEq, Repr

/-- No row has this key yet. -/
def Database.accepts (db : Database) (row : SpendRow) : Bool :=
  db.spendLedger.all fun old =>
    old.id ≠ row.id ∧ (row.providerSid.isSome → old.providerSid ≠ row.providerSid)

/-- Appends a ledger row, and warns of the crossing the gate has seen. -/
def recordSpend (db : Database) (row : SpendRow) (decision : GateAllowed) : Database :=
  { db with
    spendLedger := db.spendLedger ++ [row]
    outbox := db.outbox ++ match decision.warnThresholdPercent with
      | none => []
      | some percent =>
        [.spendCapReached (decision.spentCents + row.estimatedCents) decision.capCents percent] }

def Database.updateRows (db : Database) (f : SpendRow → SpendRow) : Database :=
  { db with spendLedger := db.spendLedger.map f }

/-- A call that the carrier has refused has cost nothing. -/
def SpendRow.release (spendId : String) (row : SpendRow) : SpendRow :=
  if row.id = spendId then { row with actualCents := some 0 } else row

def SpendRow.attach (spendId providerSid : String) (row : SpendRow) : SpendRow :=
  if row.id = spendId then { row with providerSid := some providerSid } else row

/-- What the carrier has billed. -/
def SpendRow.reconcile (providerSid : String) (actualCents : Nat) (row : SpendRow) : SpendRow :=
  if row.providerSid = some providerSid then { row with actualCents := some actualCents } else row

/-- The next statement of a request, at `now` by the server's clock. -/
def requestStep (config : GateConfig) (now : Int) (db : Database) (request : OutboundRequest) :
    Phase → Input → Option (Database × Phase)
  | .finished, _ => none
  | _, .abort => some (db, .finished)
  | .checkDestination, .next =>
    if (checkDestination request.destination GEO_RULES).allowed then some (db, .selectOrg)
    else some (db, .emitRefusal ⟨.destination_not_allowed, 0, 0, none⟩)
  | .selectOrg, .next => some (db, .selectSubaccount db.orgStatus)
  | .selectSubaccount orgStatus, .next => some (db, .selectPolicy orgStatus db.subaccount)
  | .selectPolicy orgStatus subaccount, .next =>
    some (db, .sumSpend ⟨orgStatus, subaccount, db.capCents config, db.windowDays, 0, 0,
      db.automationCapCents⟩ (db.since now))
  | .sumSpend read since, .next =>
    some (db, .sumAutomationSpend
      { read with spentCents := sumWithFallback since (fun _ => true) db.spendLedger } since)
  | .sumAutomationSpend read since, .next =>
    some (db, .decide { read with
      automationSpentCents := sumWithFallback since OutboundKind.isAutomation db.spendLedger })
  | .decide state, .velocity perUser perOrg =>
    match checkOutboundAllowed request state perUser perOrg with
    | .refused decision => some (db, .emitRefusal decision)
    | .allowed decision =>
      some (db, if request.kind.isCall then .insertCall decision else .send decision)
  | .emitRefusal decision, .next =>
    some ({ db with outbox := db.outbox ++ [.spendLimitExceeded decision.reason request.kind
      request.estimatedCents decision.spentCents decision.capCents] }, .finished)
  | .insertCall decision, .insert id occurredAt =>
    let row : SpendRow := ⟨id, request.kind, request.estimatedCents, none, none, occurredAt⟩
    if db.accepts row then some (recordSpend db row decision, .placeCall id)
    else some (db, .finished)
  | .placeCall spendId, .accepted sid _ => some (db, .attachSid spendId sid)
  | .placeCall spendId, .carrierRefused => some (db, .releaseUnplacedCall spendId)
  | .attachSid spendId sid, .next =>
    -- another row may have the carrier's id already
    if db.spendLedger.all fun row => row.id = spendId ∨ row.providerSid ≠ some sid then
      some (db.updateRows (SpendRow.attach spendId sid), .finished)
    else some (db, .finished)
  | .releaseUnplacedCall spendId, .next =>
    some (db.updateRows (SpendRow.release spendId), .finished)
  | .send decision, .accepted sid costCents => some (db, .recordSent decision costCents sid)
  | .send _, .carrierRefused => some (db, .finished)
  | .recordSent decision costCents sid, .insert id occurredAt =>
    -- the estimate of the row is the price of the whole message
    let row : SpendRow := ⟨id, request.kind, costCents, none, some sid, occurredAt⟩
    if db.accepts row then some (recordSpend db row decision, .finished)
    else some (db, .finished)
  | _, _ => none

/-! ### Runs -/

structure State where
  now : Int
  db : Database
  requests : List Request
  deriving DecidableEq, Repr

inductive Action where
  | arrive (request : OutboundRequest)
  | request (i : Nat) (input : Input)
  | tick (now : Int)
  /-- Other parts of the program write these rows. -/
  | changeOrg (orgStatus : Option OrgStatus) (subaccount : Option Subaccount)
  | changePolicy (spendPolicy : Option SpendPolicy)
  | reconcileSpend (providerSid : String) (actualCents : Nat)
  deriving DecidableEq, Repr

def step (config : GateConfig) (s : State) : Action → Option State
  | .arrive request =>
    some { s with requests := s.requests ++ [⟨request, .checkDestination⟩] }
  | .request i input => do
    let r ← s.requests[i]?
    let (db, phase) ← requestStep config s.now s.db r.request r.phase input
    return { s with db := db, requests := s.requests.set i ⟨r.request, phase⟩ }
  | .tick now => if s.now ≤ now then some { s with now := now } else none
  | .changeOrg orgStatus subaccount =>
    some { s with db := { s.db with orgStatus := orgStatus, subaccount := subaccount } }
  | .changePolicy spendPolicy => some { s with db := { s.db with spendPolicy := spendPolicy } }
  | .reconcileSpend providerSid actualCents =>
    some { s with db := s.db.updateRows (SpendRow.reconcile providerSid actualCents) }

/-! ### The two caps -/

inductive Cap where
  | organization
  | automation
  deriving DecidableEq, Repr

/-- Whether an action of this kind counts against the cap. -/
def Cap.counts : Cap → OutboundKind → Bool
  | .organization, _ => true
  | .automation, kind => kind.isAutomation

def Cap.limit (config : GateConfig) (db : Database) : Cap → Option Nat
  | .organization => some (db.capCents config)
  | .automation => db.automationCapCents

/-- What the ledger's window counts against the cap. -/
def State.spent (s : State) (cap : Cap) : Nat :=
  sumWithFallback (s.db.since s.now) cap.counts s.db.spendLedger

/-- The gate has let the request through, and its row is not in the ledger. -/
def Phase.inFlight : Phase → Bool
  | .insertCall _ | .send _ | .recordSent _ _ _ => true
  | _ => false

def Request.hold (cap : Cap) (r : Request) : Option Nat :=
  if r.phase.inFlight && cap.counts r.request.kind then some r.request.estimatedCents else none

/-- The cap as an account: what the ledger counts is spent, and a request in flight
holds its estimate. -/
def State.account (config : GateConfig) (s : State) (cap : Cap) : Account :=
  ⟨cap.limit config s.db, s.spent cap, s.requests.map (Request.hold cap)⟩

/-! ### The condition -/

/-- Where the gate lets an action through, it would also do so if it counted what is
in flight; and a price is in the estimate, or there is room for what exceeds it. -/
def Request.Fits (config : GateConfig) (s : State) (r : Request) (input : Input) : Prop :=
  match r.phase, input with
  | .decide state, .velocity perUser perOrg => ∀ cap : Cap, cap.counts r.request.kind →
    (checkOutboundAllowed r.request state perUser perOrg).isAllowed →
      (s.account config cap).Room r.request.estimatedCents
  | .recordSent _ costCents _, .insert _ _ => ∀ cap : Cap, cap.counts r.request.kind →
    (s.account config cap).Affords r.request.estimatedCents costCents
  | _, _ => True

/-- The requests fit, and what changes a cap or a billed amount leaves room for what is
in flight. -/
def LeavesRoom (config : GateConfig) (s : State) : Action → Prop
  | .request i input => ∀ r ∈ s.requests[i]?, r.Fits config s input
  | .changePolicy spendPolicy => ∀ cap : Cap, (State.account config
      { s with db := { s.db with spendPolicy := spendPolicy } } cap).Covered
  | .reconcileSpend providerSid actualCents => ∀ cap : Cap, (State.account config
      { s with db := s.db.updateRows (SpendRow.reconcile providerSid actualCents) } cap).Covered
  | _ => True

instance {p : Cap → Prop} [DecidablePred p] : Decidable (∀ cap, p cap) :=
  decidable_of_iff (p .organization ∧ p .automation)
    ⟨fun h cap => by cases cap; exacts [h.1, h.2], fun h => ⟨h _, h _⟩⟩

instance {config : GateConfig} {s : State} {r : Request} {input : Input} :
    Decidable (r.Fits config s input) := by
  unfold Request.Fits
  split <;> infer_instance

instance {config : GateConfig} {s : State} {a : Action} : Decidable (LeavesRoom config s a) := by
  unfold LeavesRoom
  split <;> infer_instance

section
variable {config : GateConfig} {s s' : State} {a : Action} {cap : Cap} {now since : Int}
  {db db' : Database} {request : OutboundRequest} {phase phase' : Phase} {input : Input}

/-! ### What one statement does -/

/-- Rows may have changed, but none counts for more. -/
def Lowers (db db' : Database) : Prop :=
  db'.spendPolicy = db.spendPolicy ∧ ∃ f : SpendRow → SpendRow,
    db'.spendLedger = db.spendLedger.map f ∧ ∀ row, (f row).kind = row.kind ∧
      (f row).occurredAt = row.occurredAt ∧ (f row).cents ≤ row.cents

theorem Lowers.of_eq (hpolicy : db'.spendPolicy = db.spendPolicy)
    (hledger : db'.spendLedger = db.spendLedger) : Lowers db db' :=
  ⟨hpolicy, id, by rw [hledger, List.map_id], fun _ => ⟨rfl, rfl, Nat.le_refl _⟩⟩

theorem lowers_release (spendId : String) :
    Lowers db (db.updateRows (SpendRow.release spendId)) := by
  refine ⟨rfl, _, rfl, fun row => ?_⟩
  rw [SpendRow.release]
  split
  · exact ⟨rfl, rfl, Nat.zero_le _⟩
  · exact ⟨rfl, rfl, Nat.le_refl _⟩

theorem lowers_attach (spendId providerSid : String) :
    Lowers db (db.updateRows (SpendRow.attach spendId providerSid)) := by
  refine ⟨rfl, _, rfl, fun row => ?_⟩
  rw [SpendRow.attach]
  split <;> exact ⟨rfl, rfl, Nat.le_refl _⟩

theorem since_congr (h : db'.spendPolicy = db.spendPolicy) : db'.since now = db.since now := by
  rw [Database.since, Database.since, Database.windowDays, Database.windowDays, h]

theorem sumWithFallback_map_le {kinds : OutboundKind → Bool} {f : SpendRow → SpendRow}
    (hf : ∀ row, (f row).kind = row.kind ∧ (f row).occurredAt = row.occurredAt ∧
      (f row).cents ≤ row.cents) (rows : List SpendRow) :
    sumWithFallback since kinds (rows.map f) ≤ sumWithFallback since kinds rows := by
  induction rows with
  | nil => exact Nat.le_refl _
  | cons row rows ih =>
    obtain ⟨hkind, hat, hcents⟩ := hf row
    simp only [sumWithFallback, List.map_cons, List.filter_cons, hkind, hat] at ih ⊢
    split
    · simp only [List.map_cons, List.sum_cons]
      omega
    · exact ih

theorem sumWithFallback_append (kinds : OutboundKind → Bool) (rows : List SpendRow)
    (row : SpendRow) : sumWithFallback since kinds (rows ++ [row]) ≤
      sumWithFallback since kinds rows + if kinds row.kind then row.cents else 0 := by
  simp only [sumWithFallback, List.filter_append, List.map_append, List.sum_append]
  refine Nat.add_le_add_left ?_ _
  by_cases hkind : kinds row.kind <;> by_cases hsince : since ≤ row.occurredAt <;>
    simp [hkind, hsince]

/-- A later window counts no more. -/
theorem sumWithFallback_anti {since' : Int} (kinds : OutboundKind → Bool) (h : since ≤ since')
    (rows : List SpendRow) :
    sumWithFallback since' kinds rows ≤ sumWithFallback since kinds rows := by
  induction rows with
  | nil => exact Nat.le_refl _
  | cons row rows ih =>
    simp only [sumWithFallback, List.filter_cons] at ih ⊢
    by_cases hlater : since' ≤ row.occurredAt
    · have hsince : since ≤ row.occurredAt := Int.le_trans h hlater
      simp only [hlater, hsince]
      split
      · simp only [List.map_cons, List.sum_cons]
        omega
      · exact ih
    · rw [if_neg (by simp [hlater])]
      split
      · simp only [List.map_cons, List.sum_cons]
        omega
      · exact ih

/-- What a statement of a request comes to: it counts for nothing, or the gate lets the
request through, or it inserts the request's row. -/
theorem requestStep_cases
    (h : requestStep config now db request phase input = some (db', phase')) :
    (Lowers db db' ∧ (phase'.inFlight = phase.inFlight ∨ phase'.inFlight = false)) ∨
    (∃ state perUser perOrg, phase = .decide state ∧ input = .velocity perUser perOrg ∧
      (checkOutboundAllowed request state perUser perOrg).isAllowed ∧ db' = db) ∨
    (∃ row id occurredAt, input = .insert id occurredAt ∧ phase.inFlight ∧
      phase'.inFlight = false ∧ row.kind = request.kind ∧
      db'.spendPolicy = db.spendPolicy ∧ db'.spendLedger = db.spendLedger ++ [row] ∧
      (row.cents = request.estimatedCents ∨
        ∃ decision sid, phase = .recordSent decision row.cents sid)) := by
  -- a step that only reads, and one that ends the request without a row
  have hread : Lowers db db := .of_eq rfl rfl
  have hend : Phase.inFlight .finished = false := rfl
  unfold requestStep at h
  split at h
  case h_1 => cases h
  case h_2 =>
    cases h
    exact Or.inl ⟨hread, Or.inr hend⟩
  case h_3 =>
    split at h <;> cases h <;> exact Or.inl ⟨hread, Or.inl rfl⟩
  case h_4 | h_5 | h_6 | h_7 | h_8 =>
    cases h
    exact Or.inl ⟨hread, Or.inl rfl⟩
  case h_9 state perUser perOrg =>
    split at h
    next decision _ =>
      cases h
      exact Or.inl ⟨hread, Or.inl rfl⟩
    next decision hdecision =>
      cases h
      exact Or.inr (Or.inl ⟨state, perUser, perOrg, rfl, rfl, by rw [hdecision]; rfl, rfl⟩)
  case h_10 decision =>
    cases h
    exact Or.inl ⟨.of_eq rfl rfl, Or.inl rfl⟩
  case h_11 decision id occurredAt =>
    dsimp only at h
    split at h
    · cases h
      exact Or.inr (Or.inr ⟨_, id, occurredAt, rfl, rfl, rfl, rfl, rfl, rfl, Or.inl rfl⟩)
    · cases h
      exact Or.inl ⟨hread, Or.inr hend⟩
  case h_12 | h_13 =>
    cases h
    exact Or.inl ⟨hread, Or.inl rfl⟩
  case h_14 spendId sid =>
    split at h
    · cases h
      exact Or.inl ⟨lowers_attach spendId sid, Or.inl rfl⟩
    · cases h
      exact Or.inl ⟨hread, Or.inl rfl⟩
  case h_15 spendId =>
    cases h
    exact Or.inl ⟨lowers_release spendId, Or.inl rfl⟩
  case h_16 =>
    cases h
    exact Or.inl ⟨hread, Or.inl rfl⟩
  case h_17 =>
    cases h
    exact Or.inl ⟨hread, Or.inr hend⟩
  case h_18 decision costCents sid id occurredAt =>
    dsimp only at h
    split at h
    · cases h
      exact Or.inr (Or.inr ⟨_, id, occurredAt, rfl, rfl, rfl, rfl, rfl, rfl,
        Or.inr ⟨decision, sid, rfl⟩⟩)
    · cases h
      exact Or.inl ⟨hread, Or.inr hend⟩
  case h_19 => cases h

/-! ### The accounts -/

theorem Lowers.spent_le (h : Lowers db db') (cap : Cap) (requests requests' : List Request) :
    State.spent ⟨now, db', requests'⟩ cap ≤ State.spent ⟨now, db, requests⟩ cap := by
  obtain ⟨hpolicy, f, hledger, hf⟩ := h
  rw [State.spent, State.spent, since_congr hpolicy, hledger]
  exact sumWithFallback_map_le hf _

theorem spent_append_le {row : SpendRow} (hpolicy : db'.spendPolicy = db.spendPolicy)
    (hledger : db'.spendLedger = db.spendLedger ++ [row]) (cap : Cap)
    (requests requests' : List Request) :
    State.spent ⟨now, db', requests'⟩ cap ≤
      State.spent ⟨now, db, requests⟩ cap + if cap.counts row.kind then row.cents else 0 := by
  rw [State.spent, State.spent, since_congr hpolicy, hledger]
  exact sumWithFallback_append cap.counts db.spendLedger row

theorem limit_congr (h : db'.spendPolicy = db.spendPolicy) (cap : Cap) :
    cap.limit config db' = cap.limit config db := by
  cases cap
  · rw [Cap.limit, Cap.limit, Database.capCents, Database.capCents, h]
  · rw [Cap.limit, Cap.limit, Database.automationCapCents, Database.automationCapCents, h]

/-- The account after a statement of request `i`. -/
theorem account_set {i : Nat} {r : Request} (hpolicy : db'.spendPolicy = s.db.spendPolicy) :
    State.account config { s with db := db', requests := s.requests.set i r } cap =
      (s.account config cap).put i (r.hold cap)
        (State.spent { s with db := db', requests := s.requests.set i r } cap) := by
  rw [State.account, State.account, Account.put, List.map_set]
  exact congrArg (Account.mk · _ _) (limit_congr hpolicy cap)

/-- The requests in flight hold their estimates, and there is room for these. -/
def Covered (config : GateConfig) (s : State) : Prop := ∀ cap, (s.account config cap).Covered

theorem holds_getElem {i : Nat} {r : Request} (hr : s.requests[i]? = some r) :
    (s.account config cap).holds[i]? = some (r.hold cap) := by
  rw [State.account, List.getElem?_map, hr, Option.map_some]

theorem hold_of_not_inFlight {r : Request} (h : r.phase.inFlight = false) :
    r.hold cap = none := by
  rw [Request.hold, h, Bool.false_and, if_neg Bool.false_ne_true]

/-- No row has been appended to rows that have only been changed. -/
theorem Lowers.not_append (h : Lowers db db') (row : SpendRow) :
    db'.spendLedger ≠ db.spendLedger ++ [row] := by
  obtain ⟨-, f, hledger, -⟩ := h
  intro heq
  have hlength := congrArg List.length (hledger.symm.trans heq)
  simp at hlength

/-- What the condition says of a request that inserts its row. -/
theorem Request.Fits.affords {r : Request} {row : SpendRow} {id : String} {occurredAt : Int}
    (h : r.Fits config s (.insert id occurredAt)) (hcounts : cap.counts r.request.kind)
    (hrow : row.cents = r.request.estimatedCents ∨
      ∃ decision sid, r.phase = .recordSent decision row.cents sid) :
    (s.account config cap).Affords r.request.estimatedCents row.cents := by
  rcases hrow with heq | ⟨decision, sid, hphase⟩
  · exact Or.inl (Nat.le_of_eq heq)
  · unfold Request.Fits at h
    rw [hphase] at h
    exact h cap hcounts

/-- The holds are covered after a step from `s`, and where it has inserted a row, the
cap is kept if it counts the row. -/
structure Keeps (config : GateConfig) (s s' : State) (cap : Cap) : Prop where
  covered : (s'.account config cap).Covered
  within : ∀ row, s'.db.spendLedger = s.db.spendLedger ++ [row] → cap.counts row.kind →
    (s'.account config cap).Within

section
variable {i : Nat} {r : Request} (hi : (s.account config cap).holds[i]? = some (r.hold cap))
include hi

/-- A statement that counts for nothing. -/
theorem Covered.keeps_lowered (h : Covered config s) (hlowers : Lowers s.db db')
    (hphase : phase'.inFlight = r.phase.inFlight ∨ phase'.inFlight = false) :
    Keeps config s { s with db := db', requests := s.requests.set i ⟨r.request, phase'⟩ } cap := by
  have hnew : Request.hold cap ⟨r.request, phase'⟩ = r.hold cap ∨
      Request.hold cap ⟨r.request, phase'⟩ = none := by
    rcases hphase with heq | hfalse
    · rw [Request.hold, Request.hold, heq]
      exact Or.inl rfl
    · exact Or.inr (hold_of_not_inFlight hfalse)
  constructor
  · rw [account_set hlowers.1]
    exact (h cap).release hi hnew (hlowers.spent_le cap _ _)
  · intro row heq
    exact absurd heq (hlowers.not_append row)

/-- The gate lets the request through. -/
theorem Covered.keeps_admitted (h : Covered config s) (hphase : r.phase.inFlight = false)
    (hroom : cap.counts r.request.kind → (s.account config cap).Room r.request.estimatedCents) :
    Keeps config s { s with requests := s.requests.set i ⟨r.request, phase'⟩ } cap := by
  have hnone : r.hold cap = none := hold_of_not_inFlight hphase
  constructor
  · rw [account_set rfl]
    cases hnew : Request.hold cap ⟨r.request, phase'⟩ with
    | none => exact (h cap).release hi (Or.inr rfl) (Nat.le_refl _)
    | some n =>
      -- the request now holds its estimate, and the gate has seen that it fits
      simp only [Request.hold, Option.ite_none_right_eq_some, Option.some.injEq,
        Bool.and_eq_true] at hnew
      obtain ⟨⟨-, hcounts⟩, rfl⟩ := hnew
      exact Account.Covered.take (hnone ▸ hi) (hroom hcounts)
  · intro row heq
    exact absurd heq ((Lowers.of_eq rfl rfl).not_append row)

/-- The request's row is inserted. -/
theorem Covered.keeps_recorded (h : Covered config s) {row : SpendRow}
    (hphase : r.phase.inFlight) (hphase' : phase'.inFlight = false)
    (hkind : row.kind = r.request.kind) (hpolicy : db'.spendPolicy = s.db.spendPolicy)
    (hledger : db'.spendLedger = s.db.spendLedger ++ [row])
    (hcost : cap.counts r.request.kind →
      (s.account config cap).Affords r.request.estimatedCents row.cents) :
    Keeps config s { s with db := db', requests := s.requests.set i ⟨r.request, phase'⟩ } cap := by
  have hspent : State.spent ⟨s.now, db', s.requests.set i ⟨r.request, phase'⟩⟩ cap ≤
      s.spent cap + if cap.counts row.kind then row.cents else 0 :=
    spent_append_le hpolicy hledger cap _ _
  have hnone : Request.hold cap ⟨r.request, phase'⟩ = none := hold_of_not_inFlight hphase'
  rw [hkind] at hspent
  by_cases hcounts : cap.counts r.request.kind
  · have hhold : r.hold cap = some r.request.estimatedCents := by
      rw [Request.hold, hphase, hcounts, Bool.and_self, if_pos rfl]
    rw [hhold] at hi
    rw [if_pos hcounts] at hspent
    constructor
    · rw [account_set hpolicy, hnone]
      exact (h cap).settle hi (hcost hcounts) hspent
    · intro _ _ _
      rw [account_set hpolicy, hnone]
      exact (h cap).within hi (hcost hcounts) hspent
  · rw [if_neg hcounts] at hspent
    constructor
    · rw [account_set hpolicy, hnone]
      exact (h cap).release hi (Or.inr rfl) hspent
    · intro row' heq hcounts'
      obtain rfl := List.singleton_inj.mp (List.append_cancel_left (hledger.symm.trans heq))
      exact absurd (hkind ▸ hcounts') hcounts

end

/-- A statement of a request that fits. -/
theorem Covered.keeps_statement (h : Covered config s) {i : Nat} {r : Request}
    (hr : s.requests[i]? = some r) (hfits : r.Fits config s input)
    (hs : requestStep config s.now s.db r.request r.phase input = some (db', phase')) :
    Keeps config s { s with db := db', requests := s.requests.set i ⟨r.request, phase'⟩ } cap := by
  have hi : (s.account config cap).holds[i]? = some (r.hold cap) := holds_getElem hr
  rcases requestStep_cases hs with ⟨hlowers, hphase⟩ |
    ⟨state, perUser, perOrg, hphase, rfl, hallowed, rfl⟩ |
    ⟨row, id, occurredAt, rfl, hphase, hphase', hkind, hpolicy, hledger, hrow⟩
  · exact h.keeps_lowered hi hlowers hphase
  · unfold Request.Fits at hfits
    rw [hphase] at hfits
    apply h.keeps_admitted hi (by rw [hphase]; rfl)
    intro hcounts
    exact hfits cap hcounts hallowed
  · apply h.keeps_recorded hi hphase hphase' hkind hpolicy hledger
    intro hcounts
    exact hfits.affords hcounts hrow

/-- A step that meets the condition. -/
theorem Covered.keeps_step (h : Covered config s) (hg : LeavesRoom config s a)
    (hs : step config s a = some s') (cap : Cap) : Keeps config s s' cap := by
  have hsame (row : SpendRow) : s.db.spendLedger ≠ s.db.spendLedger ++ [row] :=
    (Lowers.of_eq rfl rfl).not_append row
  cases a with
  | arrive request =>
    obtain rfl := Option.some.inj hs
    refine ⟨?_, fun row heq => absurd heq (hsame row)⟩
    have hjoin := (h cap).join
    rw [State.account, List.map_append]
    exact hjoin
  | request i input =>
    obtain ⟨r, hr, hs⟩ := Option.bind_eq_some_iff.mp hs
    obtain ⟨⟨db', phase'⟩, hstep, hs⟩ := Option.bind_eq_some_iff.mp hs
    obtain rfl := Option.some.inj hs
    exact h.keeps_statement hr (hg r hr) hstep
  | tick now =>
    rw [OutboundSpend.step] at hs
    split at hs
    next hle =>
      obtain rfl := Option.some.inj hs
      refine ⟨(h cap).lower ?_, fun row heq => absurd heq (hsame row)⟩
      exact sumWithFallback_anti cap.counts (Int.sub_le_sub_right hle _) s.db.spendLedger
    next => cases hs
  | changeOrg orgStatus subaccount =>
    obtain rfl := Option.some.inj hs
    exact ⟨h cap, fun row heq => absurd heq (hsame row)⟩
  | changePolicy spendPolicy =>
    obtain rfl := Option.some.inj hs
    exact ⟨hg cap, fun row heq => absurd heq (hsame row)⟩
  | reconcileSpend providerSid actualCents =>
    obtain rfl := Option.some.inj hs
    refine ⟨hg cap, fun row heq => ?_⟩
    have hlength := congrArg List.length heq
    simp [Database.updateRows] at hlength

/-- Nothing is in flight before any request has come. -/
theorem covered_of_no_requests (h : s.requests = []) : Covered config s := by
  intro cap hold hhold
  rw [State.account, h] at hhold
  cases hhold

end

/-! ### Runs of one organization -/

def config : GateConfig := ⟨2500⟩

/-- Eight cents in a day, three of them by automations. -/
def start : State where
  now := 0
  db :=
    { orgStatus := some .active
      subaccount := some ⟨"AC1", .active⟩
      spendPolicy := some ⟨8, 1, some 3⟩
      spendLedger := []
      outbox := [] }
  requests := []

/-- Request `i` asks the gate, and no rate limiter refuses. -/
def gate (i : Nat) : List Action :=
  List.replicate 6 (.request i .next) ++ [.request i (.velocity none none)]

def phoneCall : OutboundRequest := ⟨.call, "+4930123456", 5⟩

def automatedMessage : OutboundRequest := ⟨.automation_sms, "+4930123456", 2⟩

/-- A call, and then an automated message, up to its record. -/
def callThenMessage : List Action :=
  .arrive phoneCall :: gate 0 ++ [.request 0 (.insert "1" 0), .arrive automatedMessage] ++
    gate 1 ++ [.request 1 (.accepted "SM1" 2)]

end OutboundSpend
end TaskFlow
