import TaskFlow.Billing
import TaskFlow.ScriptLogic

/-! # Deliveries of billing webhooks

The processor delivers an event again until it hears that it was handled, so a
delivery first looks whether the event's id is recorded.  If it is not, a second
transaction inserts the id and applies the event.  The insert does nothing where the
id is there by then, and nobody asks whether it did.
-/
namespace TaskFlow
namespace BillingWebhook
open ReadCommitted ReadCommitted.Script ReadCommitted.Procedure
open Billing (Org Catalog Event BillingInvoice BillingWebhookEvent)

/-! ### Rows -/

/-- The rows of one organization, and the catalog. -/
inductive Key where
  | org
  | planPrices
  | webhookEvent (providerEventId : String)
  | invoice (providerInvoiceId : String)
  deriving DecidableEq, Repr

inductive Row where
  | org (row : Option Org)
  | planPrices (catalog : Catalog)
  | webhookEvent (recorded : Bool)
  | invoice (row : Option BillingInvoice)
  deriving DecidableEq, Repr

def Row.org? : Row → Option Org
  | .org row => row
  | _ => none

def Row.catalog : Row → Catalog
  | .planPrices catalog => catalog
  | _ => ⟨[], []⟩

def Row.recorded : Row → Bool
  | .webhookEvent recorded => recorded
  | _ => false

def Row.invoice? : Row → Option BillingInvoice
  | .invoice row => row
  | _ => none

abbrev Rows := Key → Row

/-- The event has a row in `billing.webhook_events`. -/
def recorded (rows : Rows) (providerEventId : String) : Bool :=
  (rows (.webhookEvent providerEventId)).recorded

/-! ### A delivery -/

inductive Label where
  | read
  | write
  | insert (providerEventId : String)
  deriving DecidableEq, Repr

/-- A delivery's second transaction has committed, with these events in the
outbox. -/
inductive Note where
  | applied (event : BillingWebhookEvent) (outbox : List Event)
  deriving DecidableEq, Repr

/-- A statement may be told the instant by its process's clock. -/
abbrev Procedure (α : Type) := ReadCommitted.Procedure Key Row Label Int Note α

def isReplay (providerEventId : String) : Procedure Bool :=
  transaction do
    let rows ← select .read fun rows => recorded rows providerEventId
    return ([], rows)

/-- INSERT with ON CONFLICT DO NOTHING. -/
def commitWebhookEvent (providerEventId : String) : Procedure Unit :=
  statement (.insert providerEventId)
    (fun _ rows => if recorded rows providerEventId then ([], [])
      else ([], [(.webhookEvent providerEventId, .webhookEvent true)]))
    (fun _ _ => ())

/-- What the upsert makes of an invoice: it keeps the date of issue. -/
def upserted (invoice : BillingInvoice) (row : Option BillingInvoice) : BillingInvoice :=
  match row with
  | some row => { invoice with issuedAt := row.issuedAt }
  | none => invoice

def recordInvoice (invoice : Option BillingInvoice) : Procedure (List Event) :=
  match invoice with
  | none => pure []
  | some invoice => do
    statement .write
      (fun _ rows => ([], [(.invoice invoice.providerInvoiceId,
        .invoice (some (upserted invoice (rows (.invoice invoice.providerInvoiceId)).invoice?)))]))
      (fun _ _ => ())
    return [.invoiceRecorded invoice.providerInvoiceId invoice.status]

def resolvePlanFromPrice (priceId : Option String) : Procedure (Option String) :=
  match priceId with
  | none => pure none
  | some priceId => select .read fun rows =>
    Billing.resolvePlanFromPrice (rows .planPrices).catalog (some priceId)

def currentPlanId : Procedure (Option String) :=
  select .read fun rows => (rows .org).org?.bind Org.planId

/-- The plan of an event that activates a subscription. -/
def activatedPlanId (priceId : Option String) : Procedure (Option String) := do
  let resolved ← resolvePlanFromPrice priceId
  if resolved.isSome then return resolved else currentPlanId

/-- A conditional UPDATE of the organization, and whether it found a row. -/
def updateOrg (f : Int → Org → Option Org) : Procedure Bool := do
  let updated ← update .write .org fun now row =>
    (row.org?.bind (f now)).map fun org => .org (some org)
  return updated.isSome

/-- The statements of `applyBillingWebhookEvent`, and what they append to the
outbox. -/
def applyBillingWebhookEvent (pastDueGraceDays : Nat) (event : BillingWebhookEvent) :
    Procedure (List Event) := do
  let outbox ← recordInvoice event.invoice
  match event.kind with
  | .subscription_activated =>
    let planId ← activatedPlanId event.priceId
    let _ ← updateOrg fun _ org => some (org.subscriptionActivated planId event.subscriptionId)
    return outbox ++ [.subscriptionActivated (planId.getD "") (event.subscriptionId.getD "")]
  | .payment_failed =>
    let updated ← updateOrg fun now org =>
      org.paymentFailed (now + pastDueGraceDays * Billing.DAY_MS)
    return if updated then outbox ++ [.paymentFailed] else outbox
  | .payment_recovered =>
    let _ ← updateOrg fun _ org => org.paymentRecovered
    return outbox
  | .subscription_canceled =>
    let _ ← updateOrg fun _ org => some org.subscriptionCanceled
    return outbox ++ [.subscriptionCanceled]

/-- A delivery whose signature is right and whose customer is known.  The answer is
whether it is accepted. -/
def receive (pastDueGraceDays : Nat) (event : BillingWebhookEvent) : Procedure Bool := do
  let replayed ← isReplay event.providerEventId
  if replayed then return false
  else
    transaction do
      commitWebhookEvent event.providerEventId
      let outbox ← applyBillingWebhookEvent pastDueGraceDays event
      return ([.applied event outbox], ())
    return true

inductive Call where
  | delivery (event : BillingWebhookEvent)
  /-- Another part of the program writes the organization's row. -/
  | change (f : Org → Option Org)
  | editCatalog (catalog : Catalog)

def calls (pastDueGraceDays : Nat) : Call → Script Key Row Label Int Note
  | .delivery event => (receive pastDueGraceDays event).script
  | .change f => (transaction (do
      let _ ← updateOrg fun _ => f
      return ([], ()))).script
  | .editCatalog catalog => (transaction (do
      statement .write (fun _ _ => ([], [(.planPrices, .planPrices catalog)])) fun _ _ => ()
      return ([], ()))).script

/-- The note is of this event id. -/
def Note.Of (providerEventId : String) : Note → Prop
  | .applied event _ => event.providerEventId = providerEventId

instance {providerEventId : String} : DecidablePred (Note.Of providerEventId) := fun note =>
  match note with
  | .applied event _ => inferInstanceAs (Decidable (event.providerEventId = providerEventId))

/-- How often an event has been applied. -/
def applied {S : Type} (log : List (S × Note)) (providerEventId : String) : Nat :=
  log.countP fun note => decide (note.2.Of providerEventId)

/-- The insert of an event's id finds it not there. -/
def insertsFirst : Condition Key Row Label Int Note where
  statement label _ rows _ := match label with
    | .insert providerEventId => recorded rows providerEventId = false
    | _ => True

/-! ### The discipline -/

section
variable {S : Type} {s : S} {t : Transaction Key Row} {σ : Shared S Key Row Note} {id : String}

/-- An event's row is there where it has been applied, and it has been applied
once. -/
def discipline (S : Type) : Discipline S Key Row Label Int Note where
  inv σ := ∀ id, applied σ.log id = if recorded σ.rows id then 1 else 0
  guarantee _ _ _ _ _ := True
  rely _ own σ σ' := ∀ k, own k → σ'.rows k = σ.rows k
  condition := insertsFirst

theorem discipline_lawful : (discipline S).Lawful where
  refl _ _ _ _ _ := rfl
  trans h h' k hk := (h' k hk).trans (h k hk)
  rely _ _ hkept _ _ _ := hkept

/-- The transaction writes no event's row. -/
def Unrecording (t : Transaction Key Row) : Prop :=
  ∀ id, .webhookEvent id ∉ t.pending.map Prod.fst

/-- The transaction has inserted the row of this event, and no other. -/
structure Claimed (id : String) (t : Transaction Key Row) (σ : Shared S Key Row Note) : Prop where
  own : t.own (.webhookEvent id)
  fresh : recorded σ.rows id = false
  mine : .webhookEvent id ∈ t.pending.map Prod.fst
  row : t.view σ (.webhookEvent id) = .webhookEvent true
  other : ∀ id', id' ≠ id → .webhookEvent id' ∉ t.pending.map Prod.fst

theorem claimed_stable : Stable (discipline S) s (Claimed id) := by
  intro t σ σ' h hrely _
  refine ⟨h.own, ?_, h.mine, ?_, h.other⟩
  · rw [recorded, hrely _ h.own]
    exact h.fresh
  · rw [Transaction.view_of_mem h.mine σ σ', h.row]

theorem Claimed.run (h : Claimed id t σ) {locks : List Key} {writes : List (Key × Row)}
    (hw : ∀ id', .webhookEvent id' ∉ writes.map Prod.fst) : Claimed id (t.run locks writes) σ := by
  refine ⟨Or.inl h.own, h.fresh, ?_, ?_, fun id' hid => ?_⟩
  · rw [Transaction.run_pending, List.map_append]
    exact List.mem_append_right _ h.mine
  · rw [Transaction.view_run, overlay_of_notMem (hw id), h.row]
  · rw [Transaction.run_pending, List.map_append, List.mem_append, not_or]
    exact ⟨hw id', h.other id' hid⟩

theorem stable_unrecording : Stable (discipline S) s fun t _ => Unrecording t :=
  fun _ _ _ h _ _ => h

theorem unrecording_none : Unrecording .none := fun _ => List.not_mem_nil

theorem Unrecording.run (h : Unrecording t) {locks : List Key} {writes : List (Key × Row)}
    (hw : ∀ id, .webhookEvent id ∉ writes.map Prod.fst) : Unrecording (t.run locks writes) := by
  intro id
  rw [Transaction.run_pending, List.map_append, List.mem_append, not_or]
  exact ⟨hw id, h id⟩

/-- What the claim of an event has to survive is what every statement keeps that
writes no event's row. -/
def Survives (P : Assertion S Key Row Note) : Prop :=
  ∀ t σ locks writes, P t σ → (∀ id, .webhookEvent id ∉ writes.map Prod.fst) →
    P (t.run locks writes) σ

section
variable {P : Assertion S Key Row Note}

theorem triple_updateOrg {f : Int → Org → Option Org} (hP : Stable (discipline S) s P)
    (hkeep : Survives P) : Triple (discipline S) s P (updateOrg f) fun _ => P := by
  refine Triple.bind (Q := fun _ => P) (triple_update hP ?_ ?_) fun _ => triple_pure fun _ _ h => h
  · intro t σ i held v h _ _ _ _
    exact hkeep t σ _ _ h (by simp)
  · intro t σ i held h _ _ _
    exact h

theorem triple_recordInvoice {invoice : Option BillingInvoice} (hP : Stable (discipline S) s P)
    (hkeep : Survives P) : Triple (discipline S) s P (recordInvoice invoice) fun _ => P := by
  cases invoice with
  | none => exact triple_pure fun _ _ h => h
  | some invoice =>
    refine Triple.bind (Q := fun _ => P) (triple_statement hP ?_)
      fun _ => triple_pure fun _ _ h => h
    intro t σ i held h _ _ _
    exact hkeep t σ _ _ h (by simp)

theorem triple_activatedPlanId {priceId : Option String} (hP : Stable (discipline S) s P) :
    Triple (discipline S) s P (activatedPlanId priceId) fun _ => P := by
  have hresolve : Triple (discipline S) s P (resolvePlanFromPrice priceId) fun _ => P := by
    cases priceId with
    | none => exact triple_pure fun _ _ h => h
    | some priceId => exact triple_select hP fun _ _ h _ _ _ _ => h
  apply hresolve.bind
  intro resolved
  exact Triple.ite (fun _ => triple_pure fun _ _ h => h)
    fun _ => triple_select hP fun _ _ h _ _ _ _ => h

theorem triple_applyBillingWebhookEvent {pastDueGraceDays : Nat} {event : BillingWebhookEvent}
    (hP : Stable (discipline S) s P) (hkeep : Survives P) :
    Triple (discipline S) s P (applyBillingWebhookEvent pastDueGraceDays event) fun _ => P := by
  have hupdate (f : Int → Org → Option Org) := triple_updateOrg (f := f) hP hkeep
  apply (triple_recordInvoice hP hkeep).bind
  intro outbox
  cases event.kind with
  | subscription_activated =>
    apply (triple_activatedPlanId hP).bind
    intro planId
    exact (hupdate _).bind fun _ => triple_pure fun _ _ h => h
  | payment_failed =>
    exact (hupdate _).bind fun _ => triple_pure fun _ _ h => h
  | payment_recovered =>
    exact (hupdate _).bind fun _ => triple_pure fun _ _ h => h
  | subscription_canceled =>
    exact (hupdate _).bind fun _ => triple_pure fun _ _ h => h

end

theorem Claimed.recorded_view (h : Claimed id t σ) (id' : String) :
    recorded (t.view σ) id' = (decide (id' = id) || recorded σ.rows id') := by
  by_cases hid : id' = id
  · subst hid
    simp [recorded, h.row, Row.recorded]
  · rw [recorded, Transaction.view_of_notMem (h.other id' hid)]
    simp [recorded, hid]

/-- The commit of a delivery that has claimed its event. -/
theorem Claimed.commit {event : BillingWebhookEvent} {outbox : List Event}
    (h : Claimed event.providerEventId t σ) (hinv : (discipline S).inv σ) :
    (discipline S).inv (σ.commit s t [.applied event outbox]) := by
  intro id
  have hrows : recorded (σ.commit s t [.applied event outbox]).rows id =
      (decide (id = event.providerEventId) || recorded σ.rows id) := h.recorded_view id
  have hlog : applied (σ.commit s t [.applied event outbox]).log id =
      applied σ.log id + if event.providerEventId = id then 1 else 0 := by
    by_cases hid : event.providerEventId = id <;>
      simp [Shared.commit, applied, Note.Of, hid]
  rw [hrows, hlog, hinv id]
  by_cases hid : id = event.providerEventId
  · subst hid
    simp [h.fresh]
  · simp [hid, Ne.symm hid]

/-- The commit of a transaction that writes no event's row and notes nothing. -/
theorem Unrecording.commit (h : Unrecording t) (hinv : (discipline S).inv σ) :
    (discipline S).inv (σ.commit s t []) := by
  intro id
  have hrows : recorded (σ.commit s t []).rows id = recorded σ.rows id := by
    simp only [recorded, Shared.commit, Transaction.view_of_notMem (h id)]
  rw [hrows]
  exact hinv id

theorem triple_receive {pastDueGraceDays : Nat} {event : BillingWebhookEvent} :
    Triple (discipline S) s (fun t _ => t = .none) (receive pastDueGraceDays event)
      fun _ t _ => t = .none := by
  have hlook : Triple (discipline S) s (fun t _ => t = .none) (isReplay event.providerEventId)
      fun _ t _ => t = .none := by
    refine triple_transaction (R := fun r t _ => r.1 = [] ∧ t = .none)
      (Triple.bind (Q := fun _ t _ => t = .none) (triple_select stable_none fun _ _ h _ _ _ _ => h)
        fun _ => triple_pure fun _ _ h => ⟨rfl, h⟩) (fun _ _ _ _ h _ _ => h) ?_
    rintro ⟨_, _⟩ t σ ⟨rfl, rfl⟩ hinv _
    exact ⟨(unrecording_none).commit hinv, trivial, rfl⟩
  apply hlook.bind
  intro replayed
  refine Triple.ite (fun _ => triple_pure fun _ _ h => h) fun _ => ?_
  refine Triple.bind (Q := fun _ t _ => t = .none) ?_ fun _ => triple_pure fun _ _ h => h
  refine triple_transaction (R := fun r t σ => (∃ outbox, r.1 = [.applied event outbox]) ∧
    Claimed event.providerEventId t σ) ?_ (fun r => ?_) ?_
  · refine Triple.bind (Q := fun _ => Claimed event.providerEventId)
      (triple_statement stable_none ?_) fun _ => ?_
    · rintro t σ i held rfl _ _ hfirst
      have hfresh : recorded σ.rows event.providerEventId = false := hfirst
      simp only [Transaction.view_none, hfresh, Bool.false_eq_true, if_false]
      exact ⟨by simp, hfresh, by simp, by simp,
        fun id' hid => by simpa [Transaction.none] using hid⟩
    · refine (triple_applyBillingWebhookEvent claimed_stable fun _ _ _ _ h hw => h.run hw).bind
        fun outbox => ?_
      exact triple_pure fun _ _ h => ⟨⟨outbox, rfl⟩, h⟩
  · intro t σ σ' h hrely hinv
    exact ⟨h.1, claimed_stable t σ σ' h.2 hrely hinv⟩
  · rintro ⟨_, _⟩ t σ ⟨⟨outbox, rfl⟩, hclaimed⟩ hinv _
    exact ⟨hclaimed.commit hinv, trivial, rfl⟩

/-- What the rest of the program writes is no event's row. -/
theorem triple_unrecording {α : Type} {p : Procedure α}
    (h : Triple (discipline S) s (fun t _ => Unrecording t) p fun _ t _ => Unrecording t) :
    Triple (discipline S) s (fun t _ => t = .none) (transaction do
      let _ ← p
      return ([], ())) fun _ t _ => t = .none := by
  refine triple_transaction (R := fun r t _ => r.1 = [] ∧ Unrecording t)
    (Triple.bind (h.conseq (fun _ _ ht => ht ▸ unrecording_none) fun _ _ _ h => h) fun _ =>
      triple_pure fun _ _ h => ⟨rfl, h⟩) (fun _ _ _ _ h _ _ => h) ?_
  rintro ⟨_, _⟩ t σ ⟨rfl, hunrecording⟩ hinv _
  exact ⟨hunrecording.commit hinv, trivial, rfl⟩

end

/-! ### Runs -/

/-- No event has been recorded yet. -/
def noWebhookEvents (org : Option Org) (catalog : Catalog)
    (invoices : String → Option BillingInvoice) : Rows
  | .org => .org org
  | .planPrices => .planPrices catalog
  | .webhookEvent _ => .webhookEvent false
  | .invoice providerInvoiceId => .invoice (invoices providerInvoiceId)

instance {label : Label} {i : Int} {rows : Rows} {held : Key → Bool} :
    Decidable (insertsFirst.statement label i rows held) :=
  match label with
  | .insert providerEventId => inferInstanceAs (Decidable (recorded rows providerEventId = false))
  | .read | .write => isTrue trivial

instance {notes : List Note} {rows : Rows} : Decidable (insertsFirst.commit notes rows) :=
  isTrue trivial

instance {notes log : List Note} : Decidable (insertsFirst.history notes log) := isTrue trivial

/-- An organization with a subscription. -/
def paying : Rows :=
  noWebhookEvents (some
    { billingStatus := .active, planId := some "team", trialEndsAt := none,
      billingGraceEndsAt := none, stripeCustomerId := some "cus_1",
      stripeSubscriptionId := some "sub_1", currentPeriodEnd := none, currentPriceCents := none,
      currentPriceInterval := none, cancelAtPeriodEnd := false, pending := none })
    ⟨[], []⟩ fun _ => none

def paymentFailed : BillingWebhookEvent := ⟨.payment_failed, "evt_1", "cus_1", none, none, none⟩

def paymentRecovered : BillingWebhookEvent :=
  ⟨.payment_recovered, "evt_2", "cus_1", none, none, none⟩

/-- A session goes on for so many steps, at the instant 0. -/
def proceed (s n : Nat) : List (Nat × Script.Input Call Int) := List.replicate n (s, .next 0)

end BillingWebhook
end TaskFlow
