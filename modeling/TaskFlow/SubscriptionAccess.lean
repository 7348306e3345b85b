import TaskFlow.Billing

/-! # Access follows the subscription

The processor's events come in any order, each at most once.  `parseWebhookEvent` translates their
types to four kinds and reads neither the status of a subscription nor whether a checkout is paid,
and what activates a subscription writes `active` over whatever is there.

What brings an organization back from `past_due` says that something is paid, and nothing about a
deleted subscription activates it again, if and only if every event that activates it is one that
may (`follows_iff`).
-/
namespace TaskFlow
namespace Billing

/-! ### Events of the processor -/

/-- What the payload of an event is about, as far as it is read. -/
structure StripeObject where
  id : Option String := none
  /-- The id, also where the customer is expanded. -/
  customer : Option String := none
  subscription : Option String := none
  status : Option String := none
  paymentStatus : Option String := none
  /-- `items.data[0].price.id` and `lines.data[0].price.id`. -/
  itemPrice : Option String := none
  linePrice : Option String := none
  number : Option String := none
  amountDue : Option Nat := none
  amountPaid : Option Nat := none
  currency : Option String := none
  periodStart : Option Int := none
  periodEnd : Option Int := none
  hostedInvoiceUrl : Option String := none
  invoicePdf : Option String := none
  created : Option Int := none
  deriving DecidableEq, Repr

/-- An event whose signature is right. -/
structure StripeEvent where
  id : String
  type : String
  object : StripeObject
  deriving DecidableEq, Repr

inductive ParseError where
  | unrecognizedBillingEvent (stripeType eventId : String)
  /-- The event carries no customer id. -/
  | noCustomer (eventId stripeType : String)
  deriving DecidableEq, Repr

def translateEventType (stripeType : String) : Option BillingWebhookEventKind :=
  if stripeType = "checkout.session.completed" ∨ stripeType = "customer.subscription.updated" then
    some .subscription_activated
  else if stripeType = "invoice.payment_failed" then some .payment_failed
  else if stripeType = "invoice.payment_succeeded" then some .payment_recovered
  else if stripeType = "customer.subscription.deleted" then some .subscription_canceled
  else none

def subscriptionIdOf (event : StripeEvent) : Option String :=
  event.object.subscription.or event.object.id

/-- The first line item only. -/
def priceIdOf (event : StripeEvent) : Option String :=
  event.object.itemPrice.or event.object.linePrice

/-- Anything unrecognized is treated as a draft. -/
def invoiceStatusOf (status : Option String) : InvoiceStatus :=
  if status = some "open" then .open
  else if status = some "paid" then .paid
  else if status = some "uncollectible" then .uncollectible
  else if status = some "void" then .void
  else .draft

/-- Unix seconds, in milliseconds. -/
def seconds (value : Option Int) : Option Int := value.map (· * 1000)

/-- The invoice an event carries. -/
def invoiceOf (now : Int) (event : StripeEvent) : Option BillingInvoice :=
  if "invoice.".toList.isPrefixOf event.type.toList then
    match event.object.id, event.object.currency with
    | some id, some currency => some
      { providerInvoiceId := id
        number := event.object.number
        status := invoiceStatusOf event.object.status
        amountDueCents := event.object.amountDue.getD 0
        amountPaidCents := event.object.amountPaid.getD 0
        currency := currency
        periodStart := seconds event.object.periodStart
        periodEnd := seconds event.object.periodEnd
        hostedInvoiceUrl := event.object.hostedInvoiceUrl
        invoicePdfUrl := event.object.invoicePdf
        issuedAt := (seconds event.object.created).getD now }
    | _, _ => none
  else none

def parseWebhookEvent (now : Int) (event : StripeEvent) :
    Except ParseError BillingWebhookEvent :=
  match translateEventType event.type with
  | none => .error (.unrecognizedBillingEvent event.type event.id)
  | some kind =>
    match event.object.customer with
    | none => .error (.noCustomer event.id event.type)
    | some customerId => .ok
      { kind := kind
        providerEventId := event.id
        customerId := customerId
        subscriptionId :=
          if kind = .subscription_activated then subscriptionIdOf event else none
        priceId := priceIdOf event
        invoice := invoiceOf now event }

/-! ### Deliveries -/

/-- The organization, the ids of the events that were processed, and those events, the most recent
first. -/
structure Account where
  org : Org
  webhookEvents : List String
  applied : List StripeEvent
  deriving DecidableEq, Repr

/-- An event that arrives, and what the database and the clock say then. -/
structure Delivery where
  catalog : Catalog
  now : Int
  event : StripeEvent
  deriving DecidableEq, Repr

/-- The event as it is applied: it can be parsed, is of this organization's customer, and is no
replay. -/
def Account.accepts (account : Account) (delivery : Delivery) : Option BillingWebhookEvent :=
  match parseWebhookEvent delivery.now delivery.event with
  | .error _ => none
  | .ok event =>
    if account.org.stripeCustomerId = some event.customerId ∧
      event.providerEventId ∉ account.webhookEvents then some event
    else none

def Account.receive (pastDueGraceDays : Nat) (account : Account) (delivery : Delivery) : Account :=
  match account.accepts delivery with
  | none => account
  | some event =>
    { org := (applyBillingWebhookEvent delivery.catalog pastDueGraceDays delivery.now event
        account.org).1
      webhookEvents := event.providerEventId :: account.webhookEvents
      applied := delivery.event :: account.applied }

/-! ### What an event may do -/

section
-- the statuses in which a subscription is paid
variable (paid : String → Bool)

/-- The event says that a payment succeeded or that the subscription is in a paid state. -/
def StripeEvent.saysPaid (event : StripeEvent) : Bool :=
  event.type = "invoice.payment_succeeded" ||
    (event.type = "checkout.session.completed" && event.object.paymentStatus = some "paid") ||
    (event.type = "customer.subscription.updated" && event.object.status.any paid)

/-- The deletion of the subscription has been applied. -/
def Account.deleted (account : Account) (subscriptionId : Option String) : Bool :=
  subscriptionId.isSome && account.applied.any fun event =>
    event.type = "customer.subscription.deleted" && subscriptionIdOf event = subscriptionId

/-- The organization does not pay, and has some time left to. -/
def Account.inGrace (account : Account) : Bool :=
  account.org.billingStatus = .past_due && account.org.billingGraceEndsAt.isSome

/-- Access follows the subscription in one delivery. -/
structure FollowsIn (account account' : Account) (event : StripeEvent) : Prop where
  recovers : account.inGrace = true → account'.org.billingStatus = .active →
    event.saysPaid paid = true
  ended : account.deleted (subscriptionIdOf event) = true →
    account.org.billingStatus ≠ .active → account'.org.billingStatus ≠ .active

/-- Access follows the subscription in a sequence of deliveries. -/
def Follows (pastDueGraceDays : Nat) : Account → List Delivery → Prop
  | _, [] => True
  | account, delivery :: rest =>
    FollowsIn paid account (account.receive pastDueGraceDays delivery) delivery.event ∧
      Follows pastDueGraceDays (account.receive pastDueGraceDays delivery) rest

/-- The event is one that activates an organization in this status. -/
def BillingWebhookEvent.activates (event : BillingWebhookEvent) (status : BillingStatus) : Bool :=
  event.kind = .subscription_activated || (event.kind = .payment_recovered && status = .past_due)

/-- An event that would activate the organization, which is not active, may do so: it says that
something is paid, where there is time left, and is about no deleted subscription. -/
def MayActivate (account : Account) (delivery : Delivery) : Prop :=
  ∀ event ∈ account.accepts delivery, event.activates account.org.billingStatus = true →
    account.org.billingStatus ≠ .active →
    (account.inGrace = true → delivery.event.saysPaid paid = true) ∧
      account.deleted (subscriptionIdOf delivery.event) = false

/-- Each delivery of a sequence is one that may. -/
def AllMayActivate (pastDueGraceDays : Nat) : Account → List Delivery → Prop
  | _, [] => True
  | account, delivery :: rest => MayActivate paid account delivery ∧
      AllMayActivate pastDueGraceDays (account.receive pastDueGraceDays delivery) rest

end

section
variable {paid : String → Bool} {pastDueGraceDays : Nat} {account : Account} {delivery : Delivery}
  {catalog : Catalog} {now : Int} {org : Org}

/-- Which events leave an organization active. -/
theorem apply_active_iff (event : BillingWebhookEvent) :
    (applyBillingWebhookEvent catalog pastDueGraceDays now event org).1.billingStatus = .active ↔
      event.activates org.billingStatus = true ∨
        (event.kind = .payment_recovered ∧ org.billingStatus = .active) := by
  unfold applyBillingWebhookEvent BillingWebhookEvent.activates
  cases event.kind with
  | subscription_activated => simp [Org.subscriptionActivated]
  | payment_failed =>
    unfold Org.paymentFailed
    by_cases h : org.billingStatus = .trialing ∨ org.billingStatus = .active
    · simp [h]
    · simp only [h, if_false]
      simp_all
  | payment_recovered =>
    unfold Org.paymentRecovered
    by_cases h : org.billingStatus = .past_due <;> simp [h]
  | subscription_canceled => simp [Org.subscriptionCanceled]

/-- A delivery makes an organization active, that is not, exactly where an activating event is
accepted. -/
theorem receive_active_iff (hstatus : account.org.billingStatus ≠ .active) :
    (account.receive pastDueGraceDays delivery).org.billingStatus = .active ↔
      ∃ event, account.accepts delivery = some event ∧
        event.activates account.org.billingStatus = true := by
  unfold Account.receive
  cases account.accepts delivery with
  | none => simp [hstatus]
  | some event =>
    simp only [apply_active_iff, hstatus, and_false, or_false, Option.some.injEq,
      exists_eq_left']

theorem followsIn_iff :
    FollowsIn paid account (account.receive pastDueGraceDays delivery) delivery.event ↔
      MayActivate paid account delivery := by
  constructor
  · intro h event hevent hactivates hstatus
    have hactive : (account.receive pastDueGraceDays delivery).org.billingStatus = .active :=
      (receive_active_iff hstatus).mpr ⟨event, hevent, hactivates⟩
    refine ⟨fun hgrace => h.recovers hgrace hactive, ?_⟩
    by_contra hdeleted
    exact h.ended (by simpa using hdeleted) hstatus hactive
  · intro h
    refine ⟨fun hgrace hactive => ?_, fun hdeleted hstatus hactive => ?_⟩
    · have hstatus : account.org.billingStatus ≠ .active := by
        intro hactive
        simp [Account.inGrace, hactive] at hgrace
      obtain ⟨event, hevent, hactivates⟩ := (receive_active_iff hstatus).mp hactive
      exact (h event hevent hactivates hstatus).1 hgrace
    · obtain ⟨event, hevent, hactivates⟩ := (receive_active_iff hstatus).mp hactive
      rw [(h event hevent hactivates hstatus).2] at hdeleted
      cases hdeleted

end

/-- **Access follows the subscription in a sequence of deliveries if and only if** each event that
activates an organization, which is not active, says that something is paid, where there is a
deadline, and is about no deleted subscription. -/
theorem follows_iff (paid : String → Bool) (pastDueGraceDays : Nat) (account : Account)
    (deliveries : List Delivery) :
    Follows paid pastDueGraceDays account deliveries ↔
      AllMayActivate paid pastDueGraceDays account deliveries := by
  induction deliveries generalizing account with
  | nil => exact Iff.rfl
  | cons delivery rest ih => exact and_congr followsIn_iff (ih _)

/-! ### Late events -/

def noCatalog : Catalog := ⟨[], []⟩

/-- An organization that pays for a subscription. -/
def subscribedAccount : Account where
  org := ⟨.active, none, none, none, some "cus", some "sub", none, none, none, false, none⟩
  webhookEvents := []
  applied := []

/-- An event about the subscription, with its status. -/
def aboutSub (eventId type status : String) : Delivery where
  catalog := noCatalog
  now := 0
  event := ⟨eventId, type, { id := some "sub", customer := some "cus", status := some status }⟩

/-- An event about an invoice of the subscription. -/
def aboutInvoice (eventId type : String) : Delivery where
  catalog := noCatalog
  now := 0
  event := ⟨eventId, type, { id := some "in", customer := some "cus", subscription := some "sub" }⟩

/-- The payment fails, and the processor says that the subscription is past due. -/
def pastDueUpdate : List Delivery :=
  [aboutInvoice "e1" "invoice.payment_failed",
    aboutSub "e2" "customer.subscription.updated" "past_due"]

/-- The deletion overtakes an update. -/
def lateUpdate : List Delivery :=
  [aboutSub "e2" "customer.subscription.deleted" "canceled",
    aboutSub "e1" "customer.subscription.updated" "active"]

/-- **An update that says `past_due` ends the time left, and an update that comes after the deletion
of its subscription activates it again.** -/
theorem activated_unpaid :
    ¬Follows (fun status => status = "active") 7 subscribedAccount pastDueUpdate ∧
    ¬Follows (fun status => status = "active") 7 subscribedAccount lateUpdate := by
  constructor
  · rintro ⟨-, ⟨hrecovers, -⟩, -⟩
    have hpaid := hrecovers (by decide) (by decide)
    exact absurd hpaid (by decide)
  · rintro ⟨-, ⟨-, hended⟩, -⟩
    exact hended (by decide) (by decide) (by decide)

end Billing
end TaskFlow
