import Mathlib.Data.List.Basic

/-! # The billing state of an organization

One row of `identity.orgs` says what an organization pays for and until when.  It
is written from four sides: by webhooks of the payment processor, by what its
owner does, by the platform's operator, and by a sweep that looks for deadlines
that have passed.  The processor's own state is mirrored in part, and a plan is
also read back from the price a subscription has there.

Each function here is one call on one organization, with nothing else under way.
Instants are in milliseconds.
-/
namespace TaskFlow
namespace Billing

/-! ### Rows -/

inductive BillingStatus where
  | trialing
  | active
  | past_due
  | canceled
  deriving DecidableEq, Repr

inductive PlanInterval where
  | month
  | year
  deriving DecidableEq, Repr

/-- `pending_plan_id` and `pending_plan_effective_at`: a CHECK makes them null
together. -/
structure PendingPlan where
  planId : String
  effectiveAt : Int
  deriving DecidableEq, Repr

structure Org where
  billingStatus : BillingStatus
  planId : Option String
  trialEndsAt : Option Int
  billingGraceEndsAt : Option Int
  stripeCustomerId : Option String
  stripeSubscriptionId : Option String
  currentPeriodEnd : Option Int
  currentPriceCents : Option Nat
  currentPriceInterval : Option PlanInterval
  cancelAtPeriodEnd : Bool
  pending : Option PendingPlan
  deriving DecidableEq, Repr

/-- A row of `billing.plans`. -/
structure Plan where
  id : String
  isActive : Bool
  isDefault : Bool
  deriving DecidableEq, Repr

/-- A row of `billing.plan_prices`. -/
structure PlanPrice where
  planId : String
  interval : PlanInterval
  amountCents : Nat
  currency : String
  stripePriceId : Option String
  isCurrent : Bool
  deriving DecidableEq, Repr

structure Catalog where
  plans : List Plan
  planPrices : List PlanPrice
  deriving DecidableEq, Repr

inductive InvoiceStatus where
  | draft
  | open
  | paid
  | uncollectible
  | void
  deriving DecidableEq, Repr

structure BillingInvoice where
  providerInvoiceId : String
  number : Option String
  status : InvoiceStatus
  amountDueCents : Nat
  amountPaidCents : Nat
  currency : String
  periodStart : Option Int
  periodEnd : Option Int
  hostedInvoiceUrl : Option String
  invoicePdfUrl : Option String
  issuedAt : Int
  deriving DecidableEq, Repr

/-! ### What is told and answered -/

inductive Effective where
  | now
  | period_end
  deriving DecidableEq, Repr

/-- Every event also has the id of the organization. -/
inductive Event where
  | subscriptionActivated (planId stripeSubscriptionId : String)
  | paymentFailed
  | subscriptionCanceled
  | subscriptionCancelScheduled (scheduled : Bool) (endsAt : Option Int)
  | planChanged (fromPlan : Option String) (toPlan : String) (effective : Effective)
      (effectiveAt : Option Int)
  | orgSuspendedForNonpayment
  | invoiceRecorded (providerInvoiceId : String) (status : InvoiceStatus)
  | graceExtended (extendedToDate : Int)
  | orgPlanChanged (fromPlan : Option String) (toPlan : String)
  deriving DecidableEq, Repr

inductive Error where
  | notFound
  | validation (fields : List (String × String)) (message : String)
  /-- The processor refuses, or does not answer. -/
  | provider
  deriving DecidableEq, Repr

inductive BillingWebhookEventKind where
  | subscription_activated
  | payment_failed
  | payment_recovered
  | subscription_canceled
  deriving DecidableEq, Repr

structure BillingWebhookEvent where
  kind : BillingWebhookEventKind
  providerEventId : String
  customerId : String
  subscriptionId : Option String
  priceId : Option String
  invoice : Option BillingInvoice
  deriving DecidableEq, Repr

/-- Throws where the condition holds. -/
def throwIf (p : Prop) [Decidable p] (error : Error) : Except Error Unit :=
  if p then .error error else .ok ()

/-- What the processor answers about a customer's subscription. -/
structure ActiveSubscription where
  subscriptionId : String
  priceId : Option String
  currentPeriodEnd : Option Int
  cancelAtPeriodEnd : Bool
  amountCents : Option Nat
  interval : Option PlanInterval
  deriving DecidableEq, Repr

def DAY_MS : Int := 24 * 60 * 60 * 1000

/-! ### The catalog -/

/-- Over every price row, retired ones too. -/
def resolvePlanFromPrice (catalog : Catalog) (priceId : Option String) : Option String :=
  priceId.bind fun priceId =>
    (catalog.planPrices.find? fun price => price.stripePriceId = some priceId).map PlanPrice.planId

/-- The current price of a plan, and whether the plan is sold. -/
def currentPrice (catalog : Catalog) (planId : String) (interval : PlanInterval) :
    Option (PlanPrice × Bool) := do
  let price ← catalog.planPrices.find? fun price =>
    price.planId = planId ∧ price.interval = interval ∧ price.isCurrent
  let plan ← catalog.plans.find? fun plan => plan.id = price.planId
  return (price, plan.isActive)

/-- Where an expiring trial or a lapsed subscription lands. -/
def defaultPlanId (catalog : Catalog) : Option String :=
  (catalog.plans.find? fun plan => plan.isDefault && plan.isActive).map Plan.id

/-! ### Webhooks -/

/-- What `subscription_activated` writes. -/
def Org.subscriptionActivated (org : Org) (planId subscriptionId : Option String) : Org :=
  { org with
    billingStatus := .active
    planId := planId
    stripeSubscriptionId := subscriptionId
    billingGraceEndsAt := none }

/-- What `payment_failed` writes, where its condition holds. -/
def Org.paymentFailed (org : Org) (graceEndsAt : Int) : Option Org :=
  if org.billingStatus = .trialing ∨ org.billingStatus = .active then
    some { org with billingStatus := .past_due, billingGraceEndsAt := some graceEndsAt }
  else none

/-- What `payment_recovered` writes, where its condition holds. -/
def Org.paymentRecovered (org : Org) : Option Org :=
  if org.billingStatus = .past_due then
    some { org with billingStatus := .active, billingGraceEndsAt := none }
  else none

/-- What `subscription_canceled` writes. -/
def Org.subscriptionCanceled (org : Org) : Org :=
  { org with billingStatus := .canceled, billingGraceEndsAt := none, cancelAtPeriodEnd := false }

/-- The events of an invoice that is recorded. -/
def recordInvoice (invoice : Option BillingInvoice) : List Event :=
  (invoice.map fun invoice => .invoiceRecorded invoice.providerInvoiceId invoice.status).toList

/-- A verified event, with the row it leaves and what it appends to the outbox. -/
@[grind =] def applyBillingWebhookEvent (catalog : Catalog) (pastDueGraceDays : Nat) (now : Int)
    (event : BillingWebhookEvent) (org : Org) : Org × List Event :=
  let recorded := recordInvoice event.invoice
  match event.kind with
  | .subscription_activated =>
    let planId := (resolvePlanFromPrice catalog event.priceId).or org.planId
    (org.subscriptionActivated planId event.subscriptionId, recorded ++
      [.subscriptionActivated (planId.getD "") (event.subscriptionId.getD "")])
  | .payment_failed =>
    match org.paymentFailed (now + pastDueGraceDays * DAY_MS) with
    | some org => (org, recorded ++ [.paymentFailed])
    | none => (org, recorded)
  | .payment_recovered => ((org.paymentRecovered).getD org, recorded)
  | .subscription_canceled => (org.subscriptionCanceled, recorded ++ [.subscriptionCanceled])

/-! ### The owner -/

/-- The processor's subscription, applied without a webhook. -/
def reconcileSubscription (catalog : Catalog) (subscription : Option ActiveSubscription)
    (org : Org) : Org × List Event :=
  match org.stripeCustomerId, subscription with
  | some _, some subscription =>
    let resolved := (resolvePlanFromPrice catalog subscription.priceId).or org.planId
    ({ org with
      billingStatus := .active
      planId := resolved
      stripeSubscriptionId := some subscription.subscriptionId
      billingGraceEndsAt := none
      currentPeriodEnd := subscription.currentPeriodEnd
      cancelAtPeriodEnd := subscription.cancelAtPeriodEnd
      currentPriceCents := subscription.amountCents
      currentPriceInterval := subscription.interval },
      [.subscriptionActivated (resolved.getD "") subscription.subscriptionId])
  | _, _ => (org, [])

structure PlanInput where
  planId : String
  interval : PlanInterval
  deriving DecidableEq, Repr

def PlanInterval.ly : PlanInterval → String
  | .month => "monthly"
  | .year => "yearly"

/-- The plan is not sold at the interval. -/
def noCurrentPrice (input : PlanInput) (advice : String) : Error :=
  .validation [("planId", "No current " ++ input.interval.ly ++ " price exists for plan \"" ++
    input.planId ++ "\"." ++ advice)] "This plan is not available."

/-- The price a plan is sold at, if it is, and its id at the processor. -/
def soldPrice (catalog : Catalog) (input : PlanInput) (advice : String) :
    Except Error (PlanPrice × String) :=
  match currentPrice catalog input.planId input.interval with
  | some (price, true) =>
    match price.stripePriceId with
    | some stripePriceId => .ok (price, stripePriceId)
    | none => .error (noCurrentPrice input advice)
  | _ => .error (noCurrentPrice input advice)

/-- `accepted` is whether the processor changes the subscription's price. -/
@[grind =] def changePlan (catalog : Catalog) (input : PlanInput) (accepted : Bool) (org : Org) :
    Except Error (Org × List Event) := do
  throwIf (org.stripeSubscriptionId = none) (.validation
    [("planId", "This organization has no subscription to change. Start one with checkout.")]
    "No subscription to change.")
  let (price, _) ← soldPrice catalog input ""
  throwIf (org.planId = some input.planId) (.validation
    [("planId", "This organization is already on that plan.")] "Already on this plan.")
  let isUpgrade := org.currentPriceCents.getD 0 < price.amountCents
  throwIf (accepted = false) .provider
  match if isUpgrade then none else org.currentPeriodEnd with
  | none =>
    return ({ org with
      planId := some input.planId
      currentPriceCents := some price.amountCents
      currentPriceInterval := some input.interval
      pending := none }, [.planChanged org.planId input.planId .now none])
  | some effectiveAt =>
    return ({ org with pending := some ⟨input.planId, effectiveAt⟩ },
      [.planChanged org.planId input.planId .period_end (some effectiveAt)])

def noSubscription (purpose message : String) : Error :=
  .validation [("subscription", "This organization has no subscription to " ++ purpose ++ ".")]
    message

/-- The schedule of a cancellation, set or cleared. -/
def scheduleCancel (scheduled accepted : Bool) (refusal : Error) (org : Org) :
    Except Error (Org × List Event) := do
  throwIf (org.stripeSubscriptionId = none) refusal
  throwIf (accepted = false) .provider
  return ({ org with cancelAtPeriodEnd := scheduled },
    [.subscriptionCancelScheduled scheduled org.currentPeriodEnd])

def cancelPlan (accepted : Bool) (org : Org) : Except Error (Org × List Event) :=
  scheduleCancel true accepted (noSubscription "cancel" "Nothing to cancel.") org

def resumePlan (accepted : Bool) (org : Org) : Except Error (Org × List Event) :=
  scheduleCancel false accepted (noSubscription "resume" "Nothing to resume.") org

/-- The refusal of a checkout where there is a subscription. -/
def alreadySubscribed : Error :=
  .validation
    [("planId", "This organization already has a subscription. Switching plans updates the " ++
      "existing one rather than starting a second — use the change-plan action, not checkout.")]
    "You already have a subscription."

/-- The price of the checkout, for the customer the processor ensures. -/
def createCheckoutSession (catalog : Catalog) (input : PlanInput) (customerId : String)
    (org : Org) : Except Error (Org × String) := do
  throwIf (org.stripeSubscriptionId ≠ none) alreadySubscribed
  let (_, stripePriceId) ← soldPrice catalog input
    " Set one in the platform console, or choose a different plan."
  return ({ org with stripeCustomerId := org.stripeCustomerId.or (some customerId) }, stripePriceId)

/-! ### The operator -/

def setOrgPlan (catalog : Catalog) (planId : String) (org : Org) :
    Except Error (Org × List Event) := do
  let plan ← (catalog.plans.find? fun plan => plan.id = planId).elim (.error .notFound) .ok
  throwIf (plan.isActive = false) (.validation
    [("planId", "Plan \"" ++ planId ++ "\" is retired. Orgs already on it keep it, but moving " ++
      "one onto it now would put a tenant on a tier that is no longer sold or priced.")]
    "That plan is retired.")
  return ({ org with planId := some planId }, [.orgPlanChanged org.planId planId])

def grantExtension (now : Int) (extendByDays : Nat) (org : Org) :
    Except Error (Org × List Event) := do
  throwIf (org.billingStatus ≠ .past_due) (.validation
    [("billingStatus", "This org is not currently past due.")]
    "This org has no grace period running to extend.")
  let base := match org.billingGraceEndsAt with
    | some billingGraceEndsAt => if now < billingGraceEndsAt then billingGraceEndsAt else now
    | none => now
  let graceEndsAt := base + extendByDays * DAY_MS
  return ({ org with billingGraceEndsAt := some graceEndsAt }, [.graceExtended graceEndsAt])

/-! ### The sweep -/

/-- The deadline is set, and has passed. -/
def passed (deadline : Option Int) (now : Int) : Bool := deadline.any (· < now)

/-- What `scanExpiredTrials` looks for. -/
def Org.expiredTrial (org : Org) (now : Int) : Bool :=
  org.billingStatus = .trialing && passed org.trialEndsAt now

/-- What `scanExpiredGracePeriods` looks for. -/
def Org.expiredGrace (org : Org) (now : Int) : Bool :=
  org.billingStatus = .past_due && passed org.billingGraceEndsAt now

def expireTrial (landOn : Option String) (org : Org) : Option (Org × List Event) :=
  if org.billingStatus = .trialing then
    some ({ org with
      billingStatus := .active
      planId := landOn
      trialEndsAt := none
      billingGraceEndsAt := none }, [.planChanged none (landOn.getD "") .now none])
  else none

def applyPendingPlanChange (now : Int) (org : Org) : Option (Org × List Event) :=
  match org.pending with
  | some pending =>
    if pending.effectiveAt ≤ now then
      some ({ org with planId := some pending.planId, pending := none },
        [.planChanged org.planId pending.planId .now none])
    else none
  | none => none

def expireGracePeriod (landOn : Option String) (org : Org) : Option (Org × List Event) :=
  if org.billingStatus = .past_due then
    some ({ org with billingStatus := .active, planId := landOn, billingGraceEndsAt := none },
      [.orgSuspendedForNonpayment])
  else none

/-- One write of the sweep, where a scan has found the organization and the write's
own condition holds. -/
@[grind =] def sweepWrite (scanned : Bool) (f : Org → Option (Org × List Event))
    (written : Org × List Event) : Org × List Event :=
  match if scanned then f written.1 else none with
  | some next => (next.1, written.2 ++ next.2)
  | none => written

/-- One organization in a tick of the sweep.  Both scans come first; a parked plan
change is looked for where a trial has run out. -/
def tick (catalog : Catalog) (now : Int) (org : Org) : Org × List Event :=
  sweepWrite (org.expiredGrace now) (expireGracePeriod (defaultPlanId catalog))
    (sweepWrite (org.expiredTrial now) (expireTrial (defaultPlanId catalog))
      (sweepWrite (org.expiredTrial now) (applyPendingPlanChange now) (org, [])))

/-! ### Usage periods -/

/-- `INTERVAL_MS`, for a cadence that may be unknown. -/
def intervalMs (interval : Option PlanInterval) : Int :=
  if interval = some .year then 365 * DAY_MS else 30 * DAY_MS

/-- The oldest period of a subscription that is not billed, if it has ended. -/
def duePeriod (org : Org) (lastPeriodEnd : Option Int) (now : Int) : Option (Int × Int) := do
  let _ ← org.stripeCustomerId
  let _ ← org.stripeSubscriptionId
  let interval := intervalMs org.currentPriceInterval
  let periodStart ← lastPeriodEnd.or (org.currentPeriodEnd.map (· - interval))
  let periodEnd := periodStart + interval
  if now < periodEnd then none else some (periodStart, periodEnd)

end Billing
end TaskFlow
