import TaskFlow.Billing
import TaskFlow.StepSystem

/-! # Which plan an organization is on

A downgrade is parked: the processor charges the new price at once, while the
organization keeps the plan it has paid for until a date.  Everything that reads
the plan back from the processor's price undoes this, and the sweep looks for
parked plans only where a trial has run out.

A canceled subscription leaves its id behind, and with it all that asks whether
there is a subscription.
-/
namespace TaskFlow
namespace Billing

/-! ### Calls one after another -/

/-- One organization, the catalog and the clock. -/
structure State where
  now : Int
  catalog : Catalog
  org : Org
  deriving DecidableEq, Repr

inductive Action where
  | wait (ms : Nat)
  | editCatalog (catalog : Catalog)
  | applyBillingWebhookEvent (pastDueGraceDays : Nat) (event : BillingWebhookEvent)
  | reconcileSubscription (subscription : Option ActiveSubscription)
  | changePlan (input : PlanInput) (accepted : Bool)
  | cancelPlan (accepted : Bool)
  | resumePlan (accepted : Bool)
  | createCheckoutSession (input : PlanInput) (customerId : String)
  | setOrgPlan (planId : String)
  | grantExtension (extendByDays : Nat)
  | tick
  deriving DecidableEq, Repr

/-- A call that throws leaves the row as it is. -/
def State.after {α : Type} (s : State) : Except Error (Org × α) → State
  | .ok (org, _) => { s with org := org }
  | .error _ => s

@[grind =] def step (s : State) : Action → Option State
  | .wait ms => some { s with now := s.now + ms }
  | .editCatalog catalog => some { s with catalog := catalog }
  | .applyBillingWebhookEvent pastDueGraceDays event =>
    some { s with
      org := (Billing.applyBillingWebhookEvent s.catalog pastDueGraceDays s.now event s.org).1 }
  | .reconcileSubscription subscription =>
    some { s with org := (Billing.reconcileSubscription s.catalog subscription s.org).1 }
  | .changePlan input accepted => some (s.after (Billing.changePlan s.catalog input accepted s.org))
  | .cancelPlan accepted => some (s.after (Billing.cancelPlan accepted s.org))
  | .resumePlan accepted => some (s.after (Billing.resumePlan accepted s.org))
  | .createCheckoutSession input customerId =>
    some (s.after (Billing.createCheckoutSession s.catalog input customerId s.org))
  | .setOrgPlan planId => some (s.after (Billing.setOrgPlan s.catalog planId s.org))
  | .grantExtension extendByDays => some (s.after (Billing.grantExtension s.now extendByDays s.org))
  | .tick => some { s with org := (Billing.tick s.catalog s.now s.org).1 }

/-! ### What each call writes -/

theorem bind_eq_ok {α β : Type} {x : Except Error α} {f : α → Except Error β} {b : β} :
    x >>= f = .ok b ↔ ∃ a, x = .ok a ∧ f a = .ok b := by
  cases x <;> simp [bind, Except.bind]

theorem throwIf_eq_ok {p : Prop} [Decidable p] {error : Error} {u : Unit} :
    throwIf p error = .ok u ↔ ¬p := by
  unfold throwIf
  split <;> simp_all

section
variable {catalog : Catalog} {org org' : Org} {events : List Event} {now : Int}

theorem changePlan_ok {input : PlanInput} {accepted : Bool}
    (h : changePlan catalog input accepted org = .ok (org', events)) :
    org.stripeSubscriptionId ≠ none ∧ org.planId ≠ some input.planId ∧
      ((∃ price : PlanPrice, org' = { org with
          planId := some input.planId
          currentPriceCents := some price.amountCents
          currentPriceInterval := some input.interval
          pending := none }) ∨
        ∃ effectiveAt, org.currentPeriodEnd = some effectiveAt ∧
          org' = { org with pending := some ⟨input.planId, effectiveAt⟩ }) := by
  simp only [changePlan, bind_eq_ok, throwIf_eq_ok, Prod.exists] at h
  obtain ⟨_, hsubscribed, price, _, _, _, hother, _, _, h⟩ := h
  refine ⟨hsubscribed, hother, ?_⟩
  split at h
  · exact Or.inl ⟨price, (Prod.mk.inj (Except.ok.inj h)).1.symm⟩
  · rename_i effectiveAt hperiod
    refine Or.inr ⟨effectiveAt, ?_, (Prod.mk.inj (Except.ok.inj h)).1.symm⟩
    split at hperiod
    · cases hperiod
    · exact hperiod

theorem scheduleCancel_ok {scheduled accepted : Bool} {refusal : Error}
    (h : scheduleCancel scheduled accepted refusal org = .ok (org', events)) :
    org' = { org with cancelAtPeriodEnd := scheduled } := by
  simp only [scheduleCancel, bind_eq_ok, throwIf_eq_ok] at h
  obtain ⟨_, _, _, _, h⟩ := h
  exact (Prod.mk.inj (Except.ok.inj h)).1.symm

theorem createCheckoutSession_ok {input : PlanInput} {customerId priceId : String}
    (h : createCheckoutSession catalog input customerId org = .ok (org', priceId)) :
    org' = { org with stripeCustomerId := org.stripeCustomerId.or (some customerId) } := by
  simp only [createCheckoutSession, bind_eq_ok, throwIf_eq_ok, Prod.exists] at h
  obtain ⟨_, _, _, _, _, h⟩ := h
  exact (Prod.mk.inj (Except.ok.inj h)).1.symm

/-- A checkout that is refused for a subscription finds one. -/
theorem not_alreadySubscribed {input : PlanInput} {customerId : String}
    (h : org.stripeSubscriptionId = none) :
    createCheckoutSession catalog input customerId org ≠ .error alreadySubscribed := by
  have hother (advice : String) : noCurrentPrice input advice ≠ alreadySubscribed := by
    simp [noCurrentPrice, alreadySubscribed]
  simp only [createCheckoutSession, throwIf, h, ne_eq, not_true_eq_false, if_false]
  cases hsold : soldPrice catalog input
    " Set one in the platform console, or choose a different plan." with
  | ok price => exact nofun
  | error error =>
    have herror : error = noCurrentPrice input
        " Set one in the platform console, or choose a different plan." := by
      unfold soldPrice at hsold
      split at hsold
      · split at hsold
        · cases hsold
        · exact (Except.error.inj hsold).symm
      · exact (Except.error.inj hsold).symm
    intro hrefused
    exact hother _ (herror ▸ Except.error.inj hrefused)

theorem setOrgPlan_ok {planId : String}
    (h : setOrgPlan catalog planId org = .ok (org', events)) :
    org' = { org with planId := some planId } := by
  simp only [setOrgPlan, bind_eq_ok, throwIf_eq_ok] at h
  obtain ⟨_, _, _, _, h⟩ := h
  exact (Prod.mk.inj (Except.ok.inj h)).1.symm

theorem grantExtension_ok {extendByDays : Nat}
    (h : grantExtension now extendByDays org = .ok (org', events)) :
    org.billingStatus = .past_due ∧
      ∃ graceEndsAt, org' = { org with billingGraceEndsAt := some graceEndsAt } := by
  simp only [grantExtension, bind_eq_ok, throwIf_eq_ok, not_not] at h
  obtain ⟨_, hpast, h⟩ := h
  exact ⟨hpast, _, (Prod.mk.inj (Except.ok.inj h)).1.symm⟩

theorem expireTrial_some {landOn : Option String}
    (h : expireTrial landOn org = some (org', events)) :
    org.billingStatus = .trialing ∧ org' = { org with
      billingStatus := .active
      planId := landOn
      trialEndsAt := none
      billingGraceEndsAt := none } := by
  obtain ⟨hstatus, h⟩ := Option.ite_none_right_eq_some.mp h
  exact ⟨hstatus, (Prod.mk.inj (Option.some.inj h)).1.symm⟩

theorem applyPendingPlanChange_some (h : applyPendingPlanChange now org = some (org', events)) :
    ∃ pending, org.pending = some pending ∧ pending.effectiveAt ≤ now ∧
      org' = { org with planId := some pending.planId, pending := none } := by
  unfold applyPendingPlanChange at h
  split at h
  next pending hpending =>
    obtain ⟨hdue, h⟩ := Option.ite_none_right_eq_some.mp h
    exact ⟨pending, hpending, hdue, (Prod.mk.inj (Option.some.inj h)).1.symm⟩
  next => cases h

theorem expireGracePeriod_some {landOn : Option String}
    (h : expireGracePeriod landOn org = some (org', events)) :
    org.billingStatus = .past_due ∧ org' = { org with
      billingStatus := .active, planId := landOn, billingGraceEndsAt := none } := by
  obtain ⟨hstatus, h⟩ := Option.ite_none_right_eq_some.mp h
  exact ⟨hstatus, (Prod.mk.inj (Option.some.inj h)).1.symm⟩

/-- The row after the sweep.  A parked plan is gone where a trial has run out, and
the plan is the default one then. -/
theorem tick_eq : (tick catalog now org).1 =
    if org.expiredTrial now then
      { org with
        billingStatus := .active
        planId := defaultPlanId catalog
        trialEndsAt := none
        billingGraceEndsAt := none
        pending := if org.pending.any fun pending => pending.effectiveAt ≤ now then none
          else org.pending }
    else if org.expiredGrace now then
      { org with
        billingStatus := .active
        planId := defaultPlanId catalog
        billingGraceEndsAt := none }
    else org := by
  by_cases htrial : org.expiredTrial now = true
  · have hstatus : org.billingStatus = .trialing := by simp_all [Org.expiredTrial]
    have hgrace : org.expiredGrace now = false := by simp [Org.expiredGrace, hstatus]
    cases hpending : org.pending with
    | none =>
      simp [tick, sweepWrite, htrial, hgrace, applyPendingPlanChange, hpending, expireTrial,
        hstatus]
    | some pending =>
      by_cases hdue : pending.effectiveAt ≤ now
      · simp [tick, sweepWrite, htrial, hgrace, applyPendingPlanChange, hpending, hdue, expireTrial,
          hstatus]
      · simp [tick, sweepWrite, htrial, hgrace, applyPendingPlanChange, hpending, hdue, expireTrial,
          hstatus]
  · by_cases hgrace : org.expiredGrace now = true
    · have hstatus : org.billingStatus = .past_due := by simp_all [Org.expiredGrace]
      simp [tick, sweepWrite, htrial, hgrace, expireGracePeriod, hstatus]
    · simp [tick, sweepWrite, htrial, hgrace]

theorem paymentFailed_some {graceEndsAt : Int} (h : org.paymentFailed graceEndsAt = some org') :
    (org.billingStatus = .trialing ∨ org.billingStatus = .active) ∧ org' = { org with
      billingStatus := .past_due, billingGraceEndsAt := some graceEndsAt } := by
  unfold Org.paymentFailed at h
  split at h
  · exact ⟨‹_›, (Option.some.inj h).symm⟩
  · cases h

theorem paymentRecovered_some (h : org.paymentRecovered = some org') :
    org.billingStatus = .past_due ∧
      org' = { org with billingStatus := .active, billingGraceEndsAt := none } := by
  unfold Org.paymentRecovered at h
  split at h
  · exact ⟨‹_›, (Option.some.inj h).symm⟩
  · cases h

/-- The row after a webhook. -/
theorem applyBillingWebhookEvent_cases (catalog : Catalog) (pastDueGraceDays : Nat) (now : Int)
    (event : BillingWebhookEvent) (org : Org) :
    let written := (applyBillingWebhookEvent catalog pastDueGraceDays now event org).1
    (event.kind = .subscription_activated ∧ written = org.subscriptionActivated
      ((resolvePlanFromPrice catalog event.priceId).or org.planId) event.subscriptionId) ∨
    event.kind ≠ .subscription_activated ∧
      (written = org ∨
        (event.kind = .payment_failed ∧
          (org.billingStatus = .trialing ∨ org.billingStatus = .active) ∧ written = { org with
            billingStatus := .past_due
            billingGraceEndsAt := some (now + pastDueGraceDays * DAY_MS) }) ∨
        org.billingStatus = .past_due ∧
          written = { org with billingStatus := .active, billingGraceEndsAt := none } ∨
        written = org.subscriptionCanceled) := by
  unfold applyBillingWebhookEvent
  cases hkind : event.kind with
  | subscription_activated => exact Or.inl ⟨rfl, rfl⟩
  | payment_failed =>
    refine Or.inr ⟨nofun, ?_⟩
    dsimp only
    split
    · rename_i written hfailed
      exact Or.inr (Or.inl ⟨rfl, paymentFailed_some hfailed⟩)
    · exact Or.inl rfl
  | payment_recovered =>
    refine Or.inr ⟨nofun, ?_⟩
    cases hrecovered : org.paymentRecovered with
    | none => exact Or.inl rfl
    | some written => exact Or.inr (Or.inr (Or.inl (paymentRecovered_some hrecovered)))
  | subscription_canceled => exact Or.inr ⟨nofun, Or.inr (Or.inr (Or.inr rfl))⟩

@[simp] theorem applyBillingWebhookEvent_pending {pastDueGraceDays : Nat}
    {event : BillingWebhookEvent} :
    (applyBillingWebhookEvent catalog pastDueGraceDays now event org).1.pending = org.pending := by
  rcases applyBillingWebhookEvent_cases catalog pastDueGraceDays now event org with
    ⟨_, hwritten⟩ | ⟨_, hwritten | ⟨_, _, hwritten⟩ | ⟨_, hwritten⟩ | hwritten⟩
  all_goals exact (congrArg Org.pending hwritten).trans rfl

theorem applyBillingWebhookEvent_planId {pastDueGraceDays : Nat} {event : BillingWebhookEvent} :
    (applyBillingWebhookEvent catalog pastDueGraceDays now event org).1.planId =
      if event.kind = .subscription_activated then
        (resolvePlanFromPrice catalog event.priceId).or org.planId
      else org.planId := by
  rcases applyBillingWebhookEvent_cases catalog pastDueGraceDays now event org with
    ⟨hkind, hwritten⟩ | ⟨hkind, hwritten | ⟨_, _, hwritten⟩ | ⟨_, hwritten⟩ | hwritten⟩
  · rw [if_pos hkind]
    exact (congrArg Org.planId hwritten).trans rfl
  all_goals
    rw [if_neg hkind]
    exact (congrArg Org.planId hwritten).trans rfl

/-- The row after a reconciliation. -/
theorem reconcileSubscription_cases (catalog : Catalog) (subscription : Option ActiveSubscription)
    (org : Org) :
    ((org.stripeCustomerId = none ∨ subscription = none) ∧
      (reconcileSubscription catalog subscription org).1 = org) ∨
    org.stripeCustomerId ≠ none ∧ ∃ active, subscription = some active ∧
      (reconcileSubscription catalog subscription org).1 = { org with
        billingStatus := .active
        planId := (resolvePlanFromPrice catalog active.priceId).or org.planId
        stripeSubscriptionId := some active.subscriptionId
        billingGraceEndsAt := none
        currentPeriodEnd := active.currentPeriodEnd
        cancelAtPeriodEnd := active.cancelAtPeriodEnd
        currentPriceCents := active.amountCents
        currentPriceInterval := active.interval } := by
  unfold reconcileSubscription
  cases hcustomer : org.stripeCustomerId with
  | none => exact Or.inl ⟨Or.inl rfl, rfl⟩
  | some customerId =>
    cases subscription with
    | none => exact Or.inl ⟨Or.inr rfl, rfl⟩
    | some active => exact Or.inr ⟨nofun, active, rfl, rfl⟩

theorem or_eq_iff {a planId : Option String} :
    a.or planId = planId ↔ ∀ other ∈ a, planId = some other := by
  cases a with
  | none => simp
  | some other => simp [eq_comm]

end

/-! ### A parked downgrade -/

/-- No plan is chosen by the owner or the operator. -/
def Unchanged (s : State) : Action → Prop
  | .changePlan input accepted => ¬(Billing.changePlan s.catalog input accepted s.org).isOk
  | .setOrgPlan planId => ¬(Billing.setOrgPlan s.catalog planId s.org).isOk
  | _ => True

/-- Where the plan is read back from a price, or the sweep resets it, it is the one
the organization is on. -/
def KeepsPlan (s : State) : Action → Prop
  | .applyBillingWebhookEvent _ event => event.kind = .subscription_activated →
    ∀ planId ∈ resolvePlanFromPrice s.catalog event.priceId, s.org.planId = some planId
  | .reconcileSubscription subscription => s.org.stripeCustomerId ≠ none →
    ∀ planId ∈ subscription.bind fun subscription =>
      resolvePlanFromPrice s.catalog subscription.priceId, s.org.planId = some planId
  | .tick => s.org.expiredTrial s.now ∨ s.org.expiredGrace s.now →
    defaultPlanId s.catalog = s.org.planId
  | _ => True

/-- Up to the date nothing moves the plan, and no tick comes later. -/
def Undisturbed (effectiveAt : Int) (s : State) (a : Action) : Prop :=
  Unchanged s a ∧ (a = .tick → s.now < effectiveAt) ∧ (s.now < effectiveAt → KeepsPlan s a)

section
variable {s s' : State} {a : Action} {pending : PendingPlan}

/-- What no answer of the call changes is as it was. -/
theorem after_eq {α β : Type} {result : Except Error (Org × α)} (f : Org → β)
    (hok : ∀ org a, result = .ok (org, a) → f org = f s.org) :
    f (s.after result).org = f s.org := by
  cases result with
  | error error => rfl
  | ok r => exact hok r.1 r.2 rfl

theorem after_of_not_isOk {α : Type} {result : Except Error (Org × α)} (h : ¬result.isOk) :
    s.after result = s := by
  cases result with
  | error error => rfl
  | ok r => exact absurd rfl h

/-- Only the sweep takes a parked plan away. -/
theorem pending_step (hunchanged : Unchanged s a) (hdue : a = .tick → s.now < pending.effectiveAt)
    (hpending : s.org.pending = some pending) (h : step s a = some s') :
    s'.org.pending = some pending := by
  cases a with
  | wait ms | editCatalog catalog =>
    obtain rfl := Option.some.inj h
    exact hpending
  | applyBillingWebhookEvent days event =>
    obtain rfl := Option.some.inj h
    simpa using hpending
  | reconcileSubscription subscription =>
    obtain rfl := Option.some.inj h
    rcases reconcileSubscription_cases s.catalog subscription s.org with
      ⟨_, hwritten⟩ | ⟨_, active, _, hwritten⟩
    all_goals
      rw [hwritten]
      exact hpending
  | changePlan input accepted | setOrgPlan planId =>
    rw [step, after_of_not_isOk hunchanged] at h
    obtain rfl := Option.some.inj h
    exact hpending
  | cancelPlan accepted | resumePlan accepted =>
    obtain rfl := Option.some.inj h
    exact (after_eq Org.pending fun _ _ hok => by rw [scheduleCancel_ok hok]).trans hpending
  | createCheckoutSession input customerId =>
    obtain rfl := Option.some.inj h
    exact (after_eq Org.pending fun _ _ hok => by rw [createCheckoutSession_ok hok]).trans hpending
  | grantExtension days =>
    obtain rfl := Option.some.inj h
    refine (after_eq Org.pending fun _ _ hok => ?_).trans hpending
    obtain ⟨_, graceEndsAt, rfl⟩ := grantExtension_ok hok
    rfl
  | tick =>
    obtain rfl := Option.some.inj h
    have hnotDue : ¬pending.effectiveAt ≤ s.now := Int.not_le.mpr (hdue rfl)
    simp only [tick_eq]
    split
    · simp [hpending, hnotDue]
    · split <;> exact hpending

/-- **When a call leaves the plan alone**: just where what it reads the plan back
from gives the same one. -/
theorem planId_step_iff (hunchanged : Unchanged s a) (h : step s a = some s') :
    s'.org.planId = s.org.planId ↔ KeepsPlan s a := by
  cases a with
  | wait ms | editCatalog catalog =>
    obtain rfl := Option.some.inj h
    simp [KeepsPlan]
  | applyBillingWebhookEvent days event =>
    obtain rfl := Option.some.inj h
    simp only [KeepsPlan, applyBillingWebhookEvent_planId]
    split
    · rw [or_eq_iff]
      simp_all
    · simp_all
  | reconcileSubscription subscription =>
    obtain rfl := Option.some.inj h
    rcases reconcileSubscription_cases s.catalog subscription s.org with
      ⟨hnone, hwritten⟩ | ⟨hcustomer, active, rfl, hwritten⟩
    · simp only [hwritten, KeepsPlan, true_iff]
      rintro hcustomer planId hplan
      obtain rfl := hnone.resolve_left hcustomer
      cases hplan
    · simp [hwritten, KeepsPlan, or_eq_iff, hcustomer]
  | changePlan input accepted | setOrgPlan planId =>
    rw [step, after_of_not_isOk hunchanged] at h
    obtain rfl := Option.some.inj h
    simp [KeepsPlan]
  | cancelPlan accepted | resumePlan accepted =>
    obtain rfl := Option.some.inj h
    exact iff_of_true (after_eq Org.planId fun _ _ hok => by rw [scheduleCancel_ok hok]) trivial
  | createCheckoutSession input customerId =>
    obtain rfl := Option.some.inj h
    exact iff_of_true (after_eq Org.planId fun _ _ hok => by rw [createCheckoutSession_ok hok])
      trivial
  | grantExtension days =>
    obtain rfl := Option.some.inj h
    refine iff_of_true (after_eq Org.planId fun _ _ hok => ?_) trivial
    obtain ⟨_, graceEndsAt, rfl⟩ := grantExtension_ok hok
    rfl
  | tick =>
    obtain rfl := Option.some.inj h
    simp only [tick_eq, KeepsPlan]
    split
    · simp_all
    · split <;> simp_all

theorem now_step (h : step s a = some s') : s.now ≤ s'.now := by
  have hafter {α : Type} (result : Except Error (Org × α)) : s.now ≤ (s.after result).now := by
    cases result <;> exact Int.le_refl _
  cases a with
  | wait ms =>
    obtain rfl := Option.some.inj h
    dsimp only
    omega
  | editCatalog | applyBillingWebhookEvent | reconcileSubscription | tick =>
    obtain rfl := Option.some.inj h
    exact Int.le_refl _
  | changePlan | cancelPlan | resumePlan | createCheckoutSession | setOrgPlan | grantExtension =>
    obtain rfl := Option.some.inj h
    exact hafter _

/-- A parked plan stays parked, and the organization on the plan it has. -/
theorem parked_of_reachable (hpending : s.org.pending = some pending)
    (h : StepSystem.ReachableWhen step (Undisturbed pending.effectiveAt) s s') :
    s'.org.pending = some pending ∧
      (s'.now < pending.effectiveAt → s'.org.planId = s.org.planId) := by
  refine h.invariant (I := fun s' => s'.org.pending = some pending ∧
    (s'.now < pending.effectiveAt → s'.org.planId = s.org.planId)) ⟨hpending, fun _ => rfl⟩ ?_
  rintro s₁ a s₂ ⟨hparked, hplan⟩ ⟨hunchanged, hdue, hkeeps⟩ hstep
  refine ⟨pending_step hunchanged hdue hparked hstep, fun hearly => ?_⟩
  have hearly₁ : s₁.now < pending.effectiveAt := Int.lt_of_le_of_lt (now_step hstep) hearly
  rw [(planId_step_iff hunchanged hstep).mpr (hkeeps hearly₁)]
  exact hplan hearly₁

/-- What a tick does to a parked plan that has come due: it is looked at where a
trial has run out, and overwritten with the default plan at once. -/
theorem tick_lands_iff {catalog : Catalog} {now : Int} {org : Org}
    (hpending : org.pending = some pending) (hdue : pending.effectiveAt ≤ now) :
    ((tick catalog now org).1.planId = some pending.planId ∧
        (tick catalog now org).1.pending = none) ↔
      org.expiredTrial now ∧ defaultPlanId catalog = some pending.planId := by
  rw [tick_eq]
  split
  · rename_i htrial
    simp [hpending, hdue, htrial]
  · rename_i htrial
    have hparked : ∀ org' : Org, org'.pending = org.pending → org'.pending ≠ none := by
      rintro org' heq hnone
      rw [heq, hpending] at hnone
      cases hnone
    split <;> simp [hpending, htrial]

end

/-- **A parked downgrade** leaves the plan alone up to its date where nothing that
is read back from a price, or reset by the sweep, is another plan, and lands with a
tick where that finds a trial that has run out and the plan to be the default one. -/
theorem parked_downgrade_lands {s s' : State} {input : PlanInput} {accepted : Bool} {org : Org}
    {events : List Event} {pending : PendingPlan}
    (hchange : changePlan s.catalog input accepted s.org = .ok (org, events))
    (hpending : org.pending = some pending)
    (h : StepSystem.ReachableWhen step (Undisturbed pending.effectiveAt) { s with org := org } s') :
    (s'.now < pending.effectiveAt → s'.org.planId = s.org.planId) ∧
    (∀ a s'', s'.now < pending.effectiveAt → Unchanged s' a → step s' a = some s'' →
      (s''.org.planId = s.org.planId ↔ KeepsPlan s' a)) ∧
    (pending.effectiveAt ≤ s'.now →
      ((tick s'.catalog s'.now s'.org).1.planId = some input.planId ∧
          (tick s'.catalog s'.now s'.org).1.pending = none ↔
        s'.org.expiredTrial s'.now ∧ defaultPlanId s'.catalog = some input.planId)) := by
  obtain ⟨_, _, ⟨price, rfl⟩ | ⟨effectiveAt, _, rfl⟩⟩ := changePlan_ok hchange
  · cases hpending
  obtain rfl := Option.some.inj hpending
  obtain ⟨hparked, hplan⟩ := parked_of_reachable rfl h
  refine ⟨hplan, fun a s'' hearly hunchanged hstep => ?_, fun hdue => tick_lands_iff hparked hdue⟩
  rw [← planId_step_iff hunchanged hstep, hplan hearly]

/-! ### Runs of one organization -/

def catalog : Catalog where
  plans := [⟨"free", true, true⟩, ⟨"team", true, false⟩, ⟨"business", true, false⟩]
  planPrices := [⟨"free", .month, 0, "usd", some "price_free", true⟩,
    ⟨"team", .month, 1000, "usd", some "price_team", true⟩,
    ⟨"business", .month, 5000, "usd", some "price_business", true⟩]

/-- An organization that pays for a plan until the instant 10. -/
def subscribed (billingStatus : BillingStatus) : State where
  now := 0
  catalog := catalog
  org := {
    billingStatus := billingStatus
    planId := some "team"
    trialEndsAt := some 5
    billingGraceEndsAt := none
    stripeCustomerId := some "cus_1"
    stripeSubscriptionId := some "sub_1"
    currentPeriodEnd := some 10
    currentPriceCents := some 1000
    currentPriceInterval := some .month
    cancelAtPeriodEnd := false
    pending := none }

/-- The processor tells of a subscription at this price. -/
def activated (priceId : String) : BillingWebhookEvent :=
  ⟨.subscription_activated, "evt_1", "cus_1", some "sub_1", some priceId, none⟩

/-- The same during a trial, with the free plan parked. -/
def parked : Org := { (subscribed .trialing).org with pending := some ⟨"free", 10⟩ }

/-- A downgrade that lands after the end of a trial. -/
theorem parked_downgrade_lands_trial :
    (tick catalog 20 parked).1.planId = some "free" ∧
      (tick catalog 20 parked).1.pending = none := by
  have hchange : changePlan catalog ⟨"free", .month⟩ true (subscribed .trialing).org =
      .ok (parked, [.planChanged (some "team") "free" .period_end (some 10)]) := by
    decide
  have hwait : StepSystem.ReachableWhen step (Undisturbed 10) ⟨0, catalog, parked⟩
      ⟨20, catalog, parked⟩ :=
    .tail .refl ⟨.wait 20, ⟨trivial, nofun, fun _ => trivial⟩, rfl⟩
  have hpending : parked.pending = some ⟨"free", 10⟩ := rfl
  have hlands := (parked_downgrade_lands (s := subscribed .trialing) hchange hpending hwait).2.2
    (by decide)
  exact hlands.mpr (by decide)

/-- With the subscription active, the first tick from the date on does nothing; and
what the processor tells of the new price moves the plan before it. -/
theorem parked_downgrade_missed :
    (∃ s, StepSystem.run step (subscribed .active)
        [.changePlan ⟨"free", .month⟩ true, .wait 10, .tick] = some s ∧
      s.org.planId = some "team" ∧ s.org.pending = some ⟨"free", 10⟩) ∧
    ∃ s, StepSystem.run step (subscribed .active)
        [.changePlan ⟨"free", .month⟩ true,
          .applyBillingWebhookEvent 7 (activated "price_free")] = some s ∧
      s.now < 10 ∧ s.org.planId = some "free" := by
  have hmissed : (StepSystem.run step (subscribed .active)
      [.changePlan ⟨"free", .month⟩ true, .wait 10, .tick]).map
        (fun s => (s.org.planId, s.org.pending)) =
      some (some "team", some ⟨"free", 10⟩) := by
    decide
  have hearly : (StepSystem.run step (subscribed .active)
      [.changePlan ⟨"free", .month⟩ true,
        .applyBillingWebhookEvent 7 (activated "price_free")]).map
        (fun s => (decide (s.now < 10), s.org.planId)) = some (true, some "free") := by
    decide
  obtain ⟨s₁, hrun₁, heq₁⟩ := Option.map_eq_some_iff.mp hmissed
  obtain ⟨s₂, hrun₂, heq₂⟩ := Option.map_eq_some_iff.mp hearly
  obtain ⟨hplan₁, hpending⟩ := Prod.mk.inj heq₁
  obtain ⟨hnow, hplan₂⟩ := Prod.mk.inj heq₂
  exact ⟨⟨s₁, hrun₁, hplan₁, hpending⟩, s₂, hrun₂, of_decide_eq_true hnow, hplan₂⟩

/-! ### A canceled subscription -/

/-- A subscription becomes active, by the processor's word. -/
def Activates (s : State) : Action → Prop
  | .applyBillingWebhookEvent _ event => event.kind = .subscription_activated
  | .reconcileSubscription subscription => s.org.stripeCustomerId ≠ none ∧ subscription ≠ none
  | _ => False

/-- What identifies the subscription, and the billing status. -/
def Org.standing (org : Org) : Option String × BillingStatus :=
  (org.stripeSubscriptionId, org.billingStatus)

/-- The organization's standing changes only so. -/
def Org.Moves (org org' : Org) : Prop :=
  org'.standing = org.standing ∨ org'.stripeSubscriptionId = org.stripeSubscriptionId ∧
    (org'.billingStatus = .canceled ∨
      org.billingStatus ≠ .canceled ∧
        (org'.billingStatus = .past_due ∨ org'.billingStatus = .active))

section
variable {s s' : State} {a : Action}

theorem standing_step (h : step s a = some s') :
    (Activates s a ∧ s'.org.billingStatus = .active) ∨ s.org.Moves s'.org := by
  cases a with
  | wait ms | editCatalog catalog =>
    obtain rfl := Option.some.inj h
    exact Or.inr (Or.inl rfl)
  | applyBillingWebhookEvent days event =>
    obtain rfl := Option.some.inj h
    rcases applyBillingWebhookEvent_cases s.catalog days s.now event s.org with
      ⟨hkind, hwritten⟩ | ⟨_, hwritten | ⟨_, hstatus, hwritten⟩ | ⟨hstatus, hwritten⟩ | hwritten⟩
    · exact Or.inl ⟨hkind, (congrArg Org.billingStatus hwritten).trans rfl⟩
    · exact Or.inr (Or.inl (congrArg Org.standing hwritten))
    · have hlive : s.org.billingStatus ≠ .canceled := by
        rcases hstatus with hstatus | hstatus <;> simp [hstatus]
      refine Or.inr (Or.inr ?_)
      dsimp only
      rw [hwritten]
      exact ⟨rfl, Or.inr ⟨hlive, Or.inl rfl⟩⟩
    · refine Or.inr (Or.inr ?_)
      dsimp only
      rw [hwritten]
      exact ⟨rfl, Or.inr ⟨by simp [hstatus], Or.inr rfl⟩⟩
    · refine Or.inr (Or.inr ?_)
      dsimp only
      rw [hwritten]
      exact ⟨rfl, Or.inl rfl⟩
  | reconcileSubscription subscription =>
    obtain rfl := Option.some.inj h
    rcases reconcileSubscription_cases s.catalog subscription s.org with
      ⟨_, hwritten⟩ | ⟨hcustomer, active, rfl, hwritten⟩
    · exact Or.inr (Or.inl (congrArg Org.standing hwritten))
    · exact Or.inl ⟨⟨hcustomer, nofun⟩, (congrArg Org.billingStatus hwritten).trans rfl⟩
  | changePlan input accepted =>
    obtain rfl := Option.some.inj h
    refine Or.inr (Or.inl (after_eq Org.standing fun _ _ hok => ?_))
    obtain ⟨_, _, ⟨price, rfl⟩ | ⟨effectiveAt, _, rfl⟩⟩ := changePlan_ok hok <;> rfl
  | cancelPlan accepted | resumePlan accepted =>
    obtain rfl := Option.some.inj h
    refine Or.inr (Or.inl (after_eq Org.standing fun _ _ hok => ?_))
    rw [scheduleCancel_ok hok]
    rfl
  | createCheckoutSession input customerId =>
    obtain rfl := Option.some.inj h
    refine Or.inr (Or.inl (after_eq Org.standing fun _ _ hok => ?_))
    rw [createCheckoutSession_ok hok]
    rfl
  | setOrgPlan planId =>
    obtain rfl := Option.some.inj h
    refine Or.inr (Or.inl (after_eq Org.standing fun _ _ hok => ?_))
    rw [setOrgPlan_ok hok]
    rfl
  | grantExtension days =>
    obtain rfl := Option.some.inj h
    refine Or.inr (Or.inl (after_eq Org.standing fun _ _ hok => ?_))
    obtain ⟨_, graceEndsAt, rfl⟩ := grantExtension_ok hok
    rfl
  | tick =>
    obtain rfl := Option.some.inj h
    apply Or.inr
    simp only [tick_eq]
    split
    · rename_i htrial
      have hstatus : s.org.billingStatus = .trialing := by simp_all [Org.expiredTrial]
      exact Or.inr ⟨rfl, Or.inr ⟨by simp [hstatus], Or.inr rfl⟩⟩
    · split
      · rename_i hgrace
        have hstatus : s.org.billingStatus = .past_due := by simp_all [Org.expiredGrace]
        exact Or.inr ⟨rfl, Or.inr ⟨by simp [hstatus], Or.inr rfl⟩⟩
      · exact Or.inl rfl

/-- Nothing sets a trial, and what starts a subscription ends one. -/
theorem unsubscribed_trial
    (h0 : s.org.billingStatus = .trialing → s.org.stripeSubscriptionId = none)
    (h : StepSystem.Reachable step s s') :
    s'.org.billingStatus = .trialing → s'.org.stripeSubscriptionId = none := by
  refine h.invariant (I := fun s => s.org.billingStatus = .trialing →
    s.org.stripeSubscriptionId = none) h0 ?_
  intro s a s' hs _ hstep htrial
  rcases standing_step hstep with ⟨_, hactive⟩ | hsame | ⟨_, hother | ⟨_, hother | hother⟩⟩
  · simp [hactive] at htrial
  · obtain ⟨hid, hstatus⟩ := Prod.mk.inj hsame
    rw [hid]
    exact hs (hstatus ▸ htrial)
  all_goals simp [hother] at htrial

/-- The trial is over for good. -/
theorem trial_over (h0 : s.org.billingStatus ≠ .trialing) (h : StepSystem.Reachable step s s') :
    s'.org.billingStatus ≠ .trialing := by
  refine h.invariant (I := fun s => s.org.billingStatus ≠ .trialing) h0 ?_
  intro s a s' hs _ hstep htrial
  rcases standing_step hstep with ⟨_, hactive⟩ | hsame | ⟨_, hother | ⟨_, hother | hother⟩⟩
  · simp [hactive] at htrial
  · exact hs ((Prod.mk.inj hsame).2 ▸ htrial)
  all_goals simp [hother] at htrial

/-- No downgrade lands by a tick where the organization had no subscription during
its trial, as the calls leave it. -/
theorem parked_never_lands {s₀ : State} {input : PlanInput} {accepted : Bool} {org : Org}
    {events : List Event} {pending : PendingPlan}
    (h0 : s₀.org.billingStatus = .trialing → s₀.org.stripeSubscriptionId = none)
    (hbefore : StepSystem.Reachable step s₀ s)
    (hchange : changePlan s.catalog input accepted s.org = .ok (org, events))
    (hpending : org.pending = some pending)
    (h : StepSystem.ReachableWhen step (Undisturbed pending.effectiveAt) { s with org := org } s')
    (hdue : pending.effectiveAt ≤ s'.now) :
    ¬((tick s'.catalog s'.now s'.org).1.planId = some pending.planId ∧
      (tick s'.catalog s'.now s'.org).1.pending = none) := by
  rw [tick_lands_iff (parked_of_reachable hpending h).1 hdue]
  rintro ⟨htrial, _⟩
  have hsubscribed := (changePlan_ok hchange).1
  have hover : s.org.billingStatus ≠ .trialing := fun htrial =>
    hsubscribed (unsubscribed_trial h0 hbefore htrial)
  have hover' : org.billingStatus ≠ .trialing := by
    obtain ⟨_, _, ⟨price, rfl⟩ | ⟨effectiveAt, _, rfl⟩⟩ := changePlan_ok hchange <;> exact hover
  refine trial_over (s := { s with org := org }) hover' (h.mono fun _ _ _ => trivial) ?_
  simpa [Org.expiredTrial] using (Bool.and_eq_true_iff.mp htrial).1

def parkedActive : Org := { (subscribed .active).org with pending := some ⟨"free", 10⟩ }

theorem parked_stays_active :
    ¬((tick catalog 20 parkedActive).1.planId = some "free" ∧
      (tick catalog 20 parkedActive).1.pending = none) := by
  have hchange : changePlan catalog ⟨"free", .month⟩ true (subscribed .active).org =
      .ok (parkedActive, [.planChanged (some "team") "free" .period_end (some 10)]) := by
    decide
  exact parked_never_lands (s := subscribed .active) (by decide) .refl hchange rfl
    (.tail .refl ⟨.wait 20, ⟨trivial, nofun, fun _ => trivial⟩, rfl⟩) (by decide)

/-- The subscription is gone. -/
def Org.Ended (org : Org) : Prop :=
  org.billingStatus = .canceled ∧ org.stripeSubscriptionId = none

theorem ended_step (hended : s.org.Ended) (hquiet : ¬Activates s a) (h : step s a = some s') :
    s'.org.Ended := by
  obtain ⟨hstatus, hnone⟩ := hended
  rcases standing_step h with ⟨hactivates, _⟩ | hsame | ⟨hid, hcanceled | ⟨hlive, _⟩⟩
  · exact absurd hactivates hquiet
  · obtain ⟨hid, hkept⟩ := Prod.mk.inj hsame
    exact ⟨hkept.trans hstatus, hid.trans hnone⟩
  · exact ⟨hcanceled, hid.trans hnone⟩
  · exact absurd hstatus hlive

/-- Nothing is left of a subscription: only the default plan is landed on, a new
checkout is not refused for it, and no usage period is due. -/
structure LeavesNothing (s : State) : Prop where
  tick : (tick s.catalog s.now s.org).1.planId = s.org.planId ∨
    (tick s.catalog s.now s.org).1.planId = defaultPlanId s.catalog
  changePlan : ∀ input accepted org events,
    changePlan s.catalog input accepted s.org = .ok (org, events) →
      org.planId = s.org.planId ∨ org.planId = defaultPlanId s.catalog
  checkout : ∀ input customerId,
    createCheckoutSession s.catalog input customerId s.org ≠ .error alreadySubscribed
  usage : ∀ lastPeriodEnd now, duePeriod s.org lastPeriodEnd now = none

theorem leavesNothing_of_ended (h : s.org.Ended) : LeavesNothing s where
  tick := by
    have htrial : s.org.expiredTrial s.now = false := by simp [Org.expiredTrial, h.1]
    have hgrace : s.org.expiredGrace s.now = false := by simp [Org.expiredGrace, h.1]
    simp [tick_eq, htrial, hgrace]
  changePlan input accepted org events hok := absurd h.2 (changePlan_ok hok).1
  checkout input customerId := not_alreadySubscribed h.2
  usage lastPeriodEnd now := by
    simp [duePeriod, h.2]

end

/-- **When a canceled subscription leaves nothing behind**: just where there was
none.  The event ends the billing status and keeps the id of the subscription,
which the checkout, a change of plan and the usage periods go by. -/
theorem canceled_leaves_nothing_iff (s : State) (pastDueGraceDays : Nat)
    (event : BillingWebhookEvent) :
    (∀ s', StepSystem.ReachableWhen step (fun s a => ¬Activates s a)
        { s with org := (applyBillingWebhookEvent s.catalog pastDueGraceDays s.now
          { event with kind := .subscription_canceled } s.org).1 } s' → LeavesNothing s') ↔
      s.org.stripeSubscriptionId = none := by
  constructor
  · intro hnothing
    by_contra hsome
    apply (hnothing _ .refl).checkout ⟨"", .month⟩ ""
    simp [createCheckoutSession, throwIf, applyBillingWebhookEvent, Org.subscriptionCanceled, hsome,
      bind, Except.bind]
  · intro hnone s' hreach
    refine leavesNothing_of_ended (hreach.invariant (I := fun s => s.org.Ended) ⟨rfl, hnone⟩ ?_)
    intro s a s' hended hquiet hstep
    exact ended_step hended hquiet hstep

/-- After the cancellation a checkout is refused, the plan can be changed to one that
is not the default, and a usage period is due. -/
theorem canceled_leaves_subscription :
    ∃ s, StepSystem.run step (subscribed .active) [.applyBillingWebhookEvent 7
        { activated "price_team" with kind := .subscription_canceled }] = some s ∧
      createCheckoutSession s.catalog ⟨"team", .month⟩ "cus_1" s.org = .error alreadySubscribed ∧
      (∃ org events, changePlan s.catalog ⟨"business", .month⟩ true s.org = .ok (org, events) ∧
        org.planId = some "business") ∧
      duePeriod s.org none 10 = some (10 - 30 * DAY_MS, 10) :=
  ⟨_, rfl, by decide +kernel, ⟨_, _, rfl, by decide +kernel⟩, by decide +kernel⟩

end Billing
end TaskFlow
