import Mathlib.Data.Fintype.Basic
import TaskFlow.BillingPlans

/-! # The sweep among other writers

A tick scans all organizations for deadlines that have passed and then goes through
what it has found, with one update for each.  The update checks the billing status
again and not the deadline, so between the two the deadline has to stay passed.

Webhooks, reconciliations and extensions by the operator come at any point in
between, and so do the ticks of other workers.  There is one clock; the instant
that a scan or a webhook goes by may have been read from it earlier.
-/
namespace TaskFlow
namespace BillingSweep
open Billing (Org BillingStatus Catalog Event BillingWebhookEvent ActiveSubscription passed)

/-! ### Ticks -/

/-- How far a tick is with the next organization. -/
inductive Phase where
  | found
  | parkedApplied
  | landing (landOn : Option String)
  deriving DecidableEq, Repr

/-- What is left of a worker's tick: the organizations of either scan, once it has
been made. -/
structure Tick (O : Type) where
  expiredTrials : Option (List O)
  expiredGraces : Option (List O)
  phase : Phase
  deriving DecidableEq, Repr

def Tick.idle {O : Type} : Tick O := ⟨none, none, .found⟩

structure State (O W : Type) where
  now : Int
  catalog : Catalog
  orgIds : List O
  orgs : O → Org
  ticks : W → Tick O

inductive Statement where
  | scanExpiredTrials (asOf : Int)
  | scanExpiredGracePeriods (asOf : Int)
  | applyPendingPlanChange (asOf : Int)
  | defaultPlanId
  | expireTrial
  | expireGracePeriod
  /-- The tick is over, or has thrown, or its worker has crashed. -/
  | finish
  deriving DecidableEq, Repr

/-- The writes of `grantExtension` and of an extended trial are taken alone: what
they go by may have been read at any time before. -/
inductive Action (O W : Type) where
  | wait (ms : Nat)
  | editCatalog (catalog : Catalog)
  | sweep (w : W) (statement : Statement)
  | applyBillingWebhookEvent (o : O) (pastDueGraceDays : Nat) (asOf : Int)
      (event : BillingWebhookEvent)
  | reconcileSubscription (o : O) (subscription : Option ActiveSubscription)
  | grantExtension (o : O) (graceEndsAt : Int)
  | extendTrial (o : O) (trialEndsAt : Int)
  deriving DecidableEq, Repr

variable {O W : Type} [DecidableEq O] [DecidableEq W]

def State.write (s : State O W) (o : O) (org : Org) : State O W :=
  { s with orgs := Function.update s.orgs o org }

/-- A conditional update of one organization. -/
def State.update (s : State O W) (o : O) (f : Org → Option (Org × List Event)) : State O W :=
  match f (s.orgs o) with
  | some (org, _) => s.write o org
  | none => s

def State.set (s : State O W) (w : W) (tick : Tick O) : State O W :=
  { s with ticks := Function.update s.ticks w tick }

/-- The next statement of a worker's tick.  The second scan need not wait for the
first; all trials are gone through before the grace periods. -/
def tick (s : State O W) (w : W) (statement : Statement) : Option (State O W) :=
  match statement, s.ticks w with
  | .scanExpiredTrials asOf, ⟨none, graces, phase⟩ =>
    if asOf ≤ s.now then
      some (s.set w ⟨some (s.orgIds.filter fun o => (s.orgs o).expiredTrial asOf), graces, phase⟩)
    else none
  | .scanExpiredGracePeriods asOf, ⟨trials, none, phase⟩ =>
    if asOf ≤ s.now then
      some (s.set w ⟨trials, some (s.orgIds.filter fun o => (s.orgs o).expiredGrace asOf), phase⟩)
    else none
  | .applyPendingPlanChange asOf, ⟨some (o :: trials), some graces, .found⟩ =>
    some ((s.update o (Billing.applyPendingPlanChange asOf)).set w
      ⟨some (o :: trials), some graces, .parkedApplied⟩)
  | .defaultPlanId, ⟨some (o :: trials), some graces, .parkedApplied⟩ =>
    some (s.set w ⟨some (o :: trials), some graces, .landing (Billing.defaultPlanId s.catalog)⟩)
  | .expireTrial, ⟨some (o :: trials), some graces, .landing landOn⟩ =>
    some ((s.update o (Billing.expireTrial landOn)).set w ⟨some trials, some graces, .found⟩)
  | .defaultPlanId, ⟨some [], some (o :: graces), .found⟩ =>
    some (s.set w ⟨some [], some (o :: graces), .landing (Billing.defaultPlanId s.catalog)⟩)
  | .expireGracePeriod, ⟨some [], some (o :: graces), .landing landOn⟩ =>
    some ((s.update o (Billing.expireGracePeriod landOn)).set w ⟨some [], some graces, .found⟩)
  | .finish, _ => some (s.set w .idle)
  | _, _ => none

example (s : State O W) (w : W) : tick s w .finish = some (s.set w .idle) := by simp [tick]

def step (s : State O W) : Action O W → Option (State O W)
  | .wait ms => some { s with now := s.now + ms }
  | .editCatalog catalog => some { s with catalog := catalog }
  | .sweep w statement => tick s w statement
  | .applyBillingWebhookEvent o pastDueGraceDays asOf event =>
    some (s.write o (Billing.applyBillingWebhookEvent s.catalog pastDueGraceDays asOf event
      (s.orgs o)).1)
  | .reconcileSubscription o subscription =>
    some (s.write o (Billing.reconcileSubscription s.catalog subscription (s.orgs o)).1)
  | .grantExtension o graceEndsAt =>
    some (s.write o { s.orgs o with billingGraceEndsAt := some graceEndsAt })
  | .extendTrial o trialEndsAt =>
    some (s.write o { s.orgs o with trialEndsAt := some trialEndsAt })

/-! ### What a tick relies on -/

/-- A scan has found the organization, and the tick has not got past it. -/
def Held (found : Option (List O)) (o : O) : Prop := ∃ os ∈ found, o ∈ os

instance {found : Option (List O)} {o : O} : Decidable (Held found o) :=
  decidable_of_iff (o ∈ found.getD []) (by cases found <;> simp [Held])

/-- What the ticks have in hand of a scan is overdue, as long as its status is what
was looked for. -/
def OverdueIn (s : State O W) (found : Tick O → Option (List O)) (status : BillingStatus)
    (deadline : Org → Option Int) : Prop :=
  ∀ w o, Held (found (s.ticks w)) o → (s.orgs o).billingStatus = status →
    passed (deadline (s.orgs o)) s.now

structure Overdue (s : State O W) : Prop where
  trials : OverdueIn s Tick.expiredTrials .trialing Org.trialEndsAt
  graces : OverdueIn s Tick.expiredGraces .past_due Org.billingGraceEndsAt

/-- No organization gets a deadline that has not passed, in the status that the
deadline is of, while a tick has it in hand. -/
def Undeferred (s : State O W) : Action O W → Prop
  | .applyBillingWebhookEvent o pastDueGraceDays asOf event => event.kind = .payment_failed →
    (s.orgs o).billingStatus = .trialing ∨ (s.orgs o).billingStatus = .active →
      asOf + pastDueGraceDays * Billing.DAY_MS < s.now ∨ ∀ w, ¬Held (s.ticks w).expiredGraces o
  | .grantExtension o graceEndsAt => (s.orgs o).billingStatus = .past_due →
    graceEndsAt < s.now ∨ ∀ w, ¬Held (s.ticks w).expiredGraces o
  | .extendTrial o trialEndsAt => (s.orgs o).billingStatus = .trialing →
    trialEndsAt < s.now ∨ ∀ w, ¬Held (s.ticks w).expiredTrials o
  | _ => True

instance [Fintype W] {s : State O W} {a : Action O W} : Decidable (Undeferred s a) := by
  cases a <;> unfold Undeferred <;> infer_instance

section
variable {s s' : State O W} {w : W} {o : O} {org : Org}

theorem passed_mono {deadline : Option Int} {a b : Int} (h : passed deadline a) (hab : a ≤ b) :
    passed deadline b := by
  cases deadline with
  | none => cases h
  | some deadline =>
    simp only [passed, Option.any_some, decide_eq_true_eq] at h ⊢
    omega

section
variable {found : Tick O → Option (List O)} {status : BillingStatus} {deadline : Org → Option Int}

omit [DecidableEq W] in
/-- A row is written: it has to be as overdue as it was, or nobody has the
organization in hand. -/
theorem OverdueIn.write (h : OverdueIn s found status deadline)
    (horg : org.billingStatus = status → passed (deadline org) s.now ∨
      (∀ w, ¬Held (found (s.ticks w)) o) ∨
      (s.orgs o).billingStatus = status ∧ deadline org = deadline (s.orgs o)) :
    OverdueIn (s.write o org) found status deadline := by
  intro w o' hheld hstatus
  by_cases ho : o' = o
  · subst ho
    simp only [State.write, Function.update_self] at hstatus ⊢
    rcases horg hstatus with hpassed | hnone | ⟨hbefore, hsame⟩
    · exact hpassed
    · exact absurd hheld (hnone w)
    · rw [hsame]
      exact h w o' hheld hbefore
  · simp only [State.write, Function.update_of_ne ho] at hstatus ⊢
    exact h w o' hheld hstatus

omit [DecidableEq O] in
/-- A worker has something else in hand, which is overdue. -/
theorem OverdueIn.set (h : OverdueIn s found status deadline) {next : Tick O}
    (hnext : ∀ o, Held (found next) o → Held (found (s.ticks w)) o ∨
      passed (deadline (s.orgs o)) s.now) : OverdueIn (s.set w next) found status deadline := by
  intro w' o hheld hstatus
  by_cases hw : w' = w
  · subst hw
    simp only [State.set, Function.update_self] at hheld
    rcases hnext o hheld with hheld | hpassed
    · exact h w' o hheld hstatus
    · exact hpassed
  · simp only [State.set, Function.update_of_ne hw] at hheld
    exact h w' o hheld hstatus

end

omit [DecidableEq O] in
theorem Overdue.set (h : Overdue s) {next : Tick O}
    (htrials : ∀ o, Held next.expiredTrials o → Held (s.ticks w).expiredTrials o ∨
      passed (s.orgs o).trialEndsAt s.now)
    (hgraces : ∀ o, Held next.expiredGraces o → Held (s.ticks w).expiredGraces o ∨
      passed (s.orgs o).billingGraceEndsAt s.now) : Overdue (s.set w next) :=
  ⟨h.trials.set htrials, h.graces.set hgraces⟩

omit [DecidableEq W] in
/-- A conditional update that leaves the organization active, or leaves its status
and deadlines as they are. -/
theorem Overdue.update (h : Overdue s) {f : Org → Option (Org × List Event)}
    (hf : ∀ org org' events, f org = some (org', events) → org'.billingStatus = .active ∨
      org'.billingStatus = org.billingStatus ∧ org'.trialEndsAt = org.trialEndsAt ∧
        org'.billingGraceEndsAt = org.billingGraceEndsAt) :
    Overdue (s.update o f) := by
  unfold State.update
  split
  · rename_i org events heq
    rcases hf _ _ _ heq with hactive | ⟨hstatus, htrial, hgrace⟩
    · refine ⟨h.trials.write fun hother => ?_, h.graces.write fun hother => ?_⟩ <;>
        simp [hactive] at hother
    · exact ⟨h.trials.write fun hsame => Or.inr (Or.inr ⟨hstatus ▸ hsame, htrial⟩),
        h.graces.write fun hsame => Or.inr (Or.inr ⟨hstatus ▸ hsame, hgrace⟩)⟩
  · exact h

omit [DecidableEq O] in
theorem held_some {os : List O} : Held (some os) o ↔ o ∈ os := by
  simp [Held]

omit [DecidableEq O] in
theorem held_tail {o' : O} {os : List O} (h : Held (some os) o) : Held (some (o' :: os)) o :=
  (held_some).mpr (List.mem_cons_of_mem o' ((held_some).mp h))

omit [DecidableEq O] in
theorem not_held_none : ¬Held none o := by
  rintro ⟨_, hnone, _⟩
  cases hnone

omit [DecidableEq W] in
@[simp] theorem update_ticks {f : Org → Option (Org × List Event)} :
    (s.update o f).ticks = s.ticks := by
  unfold State.update
  split <;> rfl

theorem overdue_tick {statement : Statement} (h : Overdue s)
    (hstep : tick s w statement = some s') : Overdue s' := by
  unfold tick at hstep
  split at hstep
  -- the scans
  · rename_i asOf graces phase hw
    split at hstep
    · rename_i hasOf
      obtain rfl := Option.some.inj hstep
      refine h.set (fun o hheld => Or.inr ?_) fun o hheld => Or.inl (by rwa [hw])
      have hexpired : (s.orgs o).expiredTrial asOf :=
        (List.mem_filter.mp ((held_some).mp hheld)).2
      exact passed_mono (Bool.and_eq_true_iff.mp hexpired).2 hasOf
    · cases hstep
  · rename_i asOf trials phase hw
    split at hstep
    · rename_i hasOf
      obtain rfl := Option.some.inj hstep
      refine h.set (fun o hheld => Or.inl (by rwa [hw])) fun o hheld => Or.inr ?_
      have hexpired : (s.orgs o).expiredGrace asOf :=
        (List.mem_filter.mp ((held_some).mp hheld)).2
      exact passed_mono (Bool.and_eq_true_iff.mp hexpired).2 hasOf
    · cases hstep
  -- an organization whose trial has run out
  · rename_i asOf o trials graces hw
    obtain rfl := Option.some.inj hstep
    have hupdated : Overdue (s.update o (Billing.applyPendingPlanChange asOf)) := by
      apply h.update
      intro org org' events heq
      obtain ⟨_, _, _, rfl⟩ := Billing.applyPendingPlanChange_some heq
      exact Or.inr ⟨rfl, rfl, rfl⟩
    exact hupdated.set (fun o hheld => Or.inl (by rwa [update_ticks, hw]))
      fun o hheld => Or.inl (by rwa [update_ticks, hw])
  · rename_i o trials graces hw
    obtain rfl := Option.some.inj hstep
    exact h.set (fun o hheld => Or.inl (by rwa [hw])) fun o hheld => Or.inl (by rwa [hw])
  · rename_i o trials graces landOn hw
    obtain rfl := Option.some.inj hstep
    have hupdated : Overdue (s.update o (Billing.expireTrial landOn)) := by
      apply h.update
      intro org org' events heq
      obtain ⟨_, rfl⟩ := Billing.expireTrial_some heq
      exact Or.inl rfl
    refine hupdated.set (fun o hheld => Or.inl ?_) fun o hheld => Or.inl (by rwa [update_ticks, hw])
    rw [update_ticks, hw]
    exact held_tail hheld
  -- one whose grace period has
  · rename_i o graces hw
    obtain rfl := Option.some.inj hstep
    exact h.set (fun o hheld => Or.inl (by rwa [hw])) fun o hheld => Or.inl (by rwa [hw])
  · rename_i o graces landOn hw
    obtain rfl := Option.some.inj hstep
    have hupdated : Overdue (s.update o (Billing.expireGracePeriod landOn)) := by
      apply h.update
      intro org org' events heq
      obtain ⟨_, rfl⟩ := Billing.expireGracePeriod_some heq
      exact Or.inl rfl
    refine hupdated.set (fun o hheld => Or.inl (by rwa [update_ticks, hw])) fun o hheld =>
      Or.inl ?_
    rw [update_ticks, hw]
    exact held_tail hheld
  · obtain rfl := Option.some.inj hstep
    exact h.set (fun o hheld => absurd hheld not_held_none) fun o hheld =>
      absurd hheld not_held_none
  · cases hstep

theorem overdue_step {a : Action O W} (h : Overdue s) (hu : Undeferred s a)
    (hstep : step s a = some s') : Overdue s' := by
  cases a with
  | wait ms =>
    obtain rfl := Option.some.inj hstep
    have hlater : s.now ≤ s.now + ms := by omega
    exact ⟨fun w o hheld hstatus => passed_mono (h.trials w o hheld hstatus) hlater,
      fun w o hheld hstatus => passed_mono (h.graces w o hheld hstatus) hlater⟩
  | editCatalog catalog =>
    obtain rfl := Option.some.inj hstep
    exact ⟨h.trials, h.graces⟩
  | sweep w statement => exact overdue_tick h hstep
  | applyBillingWebhookEvent o days asOf event =>
    obtain rfl := Option.some.inj hstep
    rcases Billing.applyBillingWebhookEvent_cases s.catalog days asOf event (s.orgs o) with
      ⟨_, hwritten⟩ | ⟨_, hwritten | ⟨hkind, hstatus, hwritten⟩ | ⟨_, hwritten⟩ | hwritten⟩
    all_goals rw [hwritten]
    · exact ⟨h.trials.write nofun, h.graces.write nofun⟩
    · exact ⟨h.trials.write fun hsame => Or.inr (Or.inr ⟨hsame, rfl⟩),
        h.graces.write fun hsame => Or.inr (Or.inr ⟨hsame, rfl⟩)⟩
    -- a payment has failed: the one event that sets a deadline
    · refine ⟨h.trials.write nofun, h.graces.write fun _ => ?_⟩
      rcases hu hkind hstatus with hpassed | hnone
      · exact Or.inl (by simpa [passed] using hpassed)
      · exact Or.inr (Or.inl hnone)
    · exact ⟨h.trials.write nofun, h.graces.write nofun⟩
    · exact ⟨h.trials.write nofun, h.graces.write nofun⟩
  | reconcileSubscription o subscription =>
    obtain rfl := Option.some.inj hstep
    rcases Billing.reconcileSubscription_cases s.catalog subscription (s.orgs o) with
      ⟨_, hwritten⟩ | ⟨_, active, _, hwritten⟩
    · rw [hwritten]
      exact ⟨h.trials.write fun hsame => Or.inr (Or.inr ⟨hsame, rfl⟩),
        h.graces.write fun hsame => Or.inr (Or.inr ⟨hsame, rfl⟩)⟩
    · rw [hwritten]
      exact ⟨h.trials.write nofun, h.graces.write nofun⟩
  | grantExtension o graceEndsAt =>
    obtain rfl := Option.some.inj hstep
    refine ⟨h.trials.write fun hsame => Or.inr (Or.inr ⟨hsame, rfl⟩),
      h.graces.write fun hsame => ?_⟩
    rcases hu hsame with hpassed | hnone
    · exact Or.inl (by simpa [passed] using hpassed)
    · exact Or.inr (Or.inl hnone)
  | extendTrial o trialEndsAt =>
    obtain rfl := Option.some.inj hstep
    refine ⟨h.trials.write fun hsame => ?_,
      h.graces.write fun hsame => Or.inr (Or.inr ⟨hsame, rfl⟩)⟩
    rcases hu hsame with hpassed | hnone
    · exact Or.inl (by simpa [passed] using hpassed)
    · exact Or.inr (Or.inl hnone)

omit [DecidableEq W] in
/-- An update that changes an organization is of that organization. -/
theorem update_changes {o' : O} {f : Org → Option (Org × List Event)}
    (h : (s.update o f).orgs o' ≠ s.orgs o') :
    o' = o ∧ ∃ next, f (s.orgs o) = some next := by
  unfold State.update at h
  split at h
  · rename_i org events heq
    by_cases ho : o' = o
    · exact ⟨ho, _, heq⟩
    · exact absurd (Function.update_of_ne ho _ _) h
  · exact absurd rfl h

/-- What the sweep changes with a grace period that it takes to be over. -/
theorem expireGracePeriod_changes (hstep : step s (.sweep w .expireGracePeriod) = some s')
    (h : s'.orgs o ≠ s.orgs o) :
    Held (s.ticks w).expiredGraces o ∧ (s.orgs o).billingStatus = .past_due := by
  simp only [step, tick] at hstep
  split at hstep
  case h_7 o' graces landOn _ hw =>
    obtain rfl := Option.some.inj hstep
    obtain ⟨rfl, _, hsome⟩ := update_changes (f := Billing.expireGracePeriod landOn) h
    exact ⟨hw ▸ (held_some).mpr List.mem_cons_self, (Billing.expireGracePeriod_some hsome).1⟩
  all_goals simp_all

/-- What it changes with a trial that it takes to be over. -/
theorem expireTrial_changes (hstep : step s (.sweep w .expireTrial) = some s')
    (h : s'.orgs o ≠ s.orgs o) :
    Held (s.ticks w).expiredTrials o ∧ (s.orgs o).billingStatus = .trialing := by
  simp only [step, tick] at hstep
  split at hstep
  case h_5 o' trials graces landOn _ hw =>
    obtain rfl := Option.some.inj hstep
    obtain ⟨rfl, _, hsome⟩ := update_changes (f := Billing.expireTrial landOn) h
    exact ⟨hw ▸ (held_some).mpr List.mem_cons_self, (Billing.expireTrial_some hsome).1⟩
  all_goals simp_all

end

/-- No tick is under way. -/
def Idle (s : State O W) : Prop := ∀ w, s.ticks w = .idle

/-- **No plan is taken away early** in a run in which no deadline moves while a tick
has its organization in hand: an update of the sweep that changes an organization
finds it in the status that it looks for, past its own deadline. -/
theorem expired_past_deadline {O W : Type} [DecidableEq O] [DecidableEq W] {s₀ s s' : State O W}
    (h0 : Idle s₀) (h : StepSystem.ReachableWhen step Undeferred s₀ s) {w : W} {o : O}
    (hchanged : s'.orgs o ≠ s.orgs o) :
    (step s (.sweep w .expireGracePeriod) = some s' →
      (s.orgs o).billingStatus = .past_due ∧ passed (s.orgs o).billingGraceEndsAt s.now) ∧
    (step s (.sweep w .expireTrial) = some s' →
      (s.orgs o).billingStatus = .trialing ∧ passed (s.orgs o).trialEndsAt s.now) := by
  have hnone (w : W) : (s₀.ticks w).expiredTrials = none ∧ (s₀.ticks w).expiredGraces = none := by
    rw [h0 w]
    exact ⟨rfl, rfl⟩
  have hstart : Overdue s₀ :=
    ⟨fun w o hheld => absurd ((hnone w).1 ▸ hheld) not_held_none,
      fun w o hheld => absurd ((hnone w).2 ▸ hheld) not_held_none⟩
  have hoverdue : Overdue s := h.invariant hstart overdue_step
  constructor
  · intro hstep
    obtain ⟨hheld, hstatus⟩ := expireGracePeriod_changes hstep hchanged
    exact ⟨hstatus, hoverdue.graces w o hheld hstatus⟩
  · intro hstep
    obtain ⟨hheld, hstatus⟩ := expireTrial_changes hstep hchanged
    exact ⟨hstatus, hoverdue.trials w o hheld hstatus⟩

/-! ### Runs of one organization and one worker -/

def start (org : Org) : State Unit Unit where
  now := 0
  catalog := Billing.catalog
  orgIds := [()]
  orgs := fun _ => org
  ticks := fun _ => .idle

/-- An organization that has failed to pay, with a deadline at the instant 10. -/
def pastDue : Org :=
  { (Billing.subscribed .past_due).org with billingGraceEndsAt := some 10 }

def webhook (kind : Billing.BillingWebhookEventKind) (asOf : Int) : Action Unit Unit :=
  .applyBillingWebhookEvent () 7 asOf { Billing.activated "price_team" with kind := kind }

/-- A tick at the instant 20, up to its update of the organization. -/
def scanned : List (Action Unit Unit) :=
  [.wait 20, .sweep () (.scanExpiredTrials 20), .sweep () (.scanExpiredGracePeriods 20)]

example : (StepSystem.run step (start pastDue) scanned).map (fun s => (s.ticks ()).expiredGraces) =
    some (some [()]) := by decide +kernel

/-- A grace period that is over. -/
theorem expired_past_deadline_over :
    ∃ s : State Unit Unit, (s.orgs ()).billingStatus = .past_due ∧
      passed (s.orgs ()).billingGraceEndsAt s.now := by
  have hrun : ((StepSystem.runWhen step Undeferred (start pastDue)
      (scanned ++ [Action.sweep () .defaultPlanId])).map fun s =>
        (step s (.sweep () .expireGracePeriod)).map fun s' =>
          decide (s'.orgs () ≠ s.orgs ())) = some (some true) := by
    decide
  obtain ⟨s, hs, heq⟩ := Option.map_eq_some_iff.mp hrun
  obtain ⟨s', hs', hchanged⟩ := Option.map_eq_some_iff.mp heq
  have hidle : Idle (start pastDue) := fun _ => rfl
  exact ⟨s, (expired_past_deadline hidle (StepSystem.reachableWhen_of_runWhen hs)
    (of_decide_eq_true hchanged)).1 hs'⟩

/-- The organization pays and then fails to again, or its trial is extended, between
the scan and the update: either is taken for over long before its deadline. -/
theorem expired_early :
    (∃ s s' : State Unit Unit, StepSystem.run step (start pastDue) (scanned ++
        [webhook .payment_recovered 20, webhook .payment_failed 20,
          .sweep () .defaultPlanId]) = some s ∧
      step s (.sweep () .expireGracePeriod) = some s' ∧
      (s.orgs ()).billingGraceEndsAt = some (20 + 7 * Billing.DAY_MS) ∧ s.now = 20 ∧
      (s.orgs ()).planId = some "team" ∧ (s'.orgs ()).planId = some "free") ∧
    ∃ s s' : State Unit Unit, StepSystem.run step (start (Billing.subscribed .trialing).org)
        (scanned ++ [.extendTrial () 1000, .sweep () (.applyPendingPlanChange 20),
          .sweep () .defaultPlanId]) = some s ∧
      step s (.sweep () .expireTrial) = some s' ∧
      (s.orgs ()).trialEndsAt = some 1000 ∧ s.now = 20 ∧
      (s.orgs ()).planId = some "team" ∧ (s'.orgs ()).planId = some "free" :=
  ⟨⟨_, _, rfl, rfl, by decide, rfl, rfl, rfl⟩,
    ⟨_, _, rfl, rfl, by decide, rfl, rfl, rfl⟩⟩

end BillingSweep
end TaskFlow
