import TaskFlow.RelativeDate
import TaskFlow.Tenancy

/-! # The budget for AI completions

Every completion adds a row to `ai.usage_ledger`, and the spend of a calendar
month is the sum of its rows.  `ai_budget.reached` is meant to be emitted once,
by the entry with which the spend reaches 80% of the budget.

The entry is inserted in its caller's transaction.  Whether it reaches the
threshold is decided on a spend that is read in a transaction of its own, which
does not see the entry: the read is of the spend before it, and is taken for the
spend after it.
-/
namespace TaskFlow
namespace AiSpendGate
open Tenancy (OrgStatus)

/-- Warn at 80% of the budget. -/
def WARN_PERCENT : Nat := 80

structure AiUsageEntry where
  id : String
  membershipId : Option String
  feature : String
  provider : String
  model : String
  inputTokens : Nat
  outputTokens : Nat
  costCents : Nat
  deriving DecidableEq, Repr

/-- A row of `ai.usage_ledger`.  Instants are in milliseconds. -/
structure UsageRow where
  entry : AiUsageEntry
  occurredAt : Int
  deriving DecidableEq, Repr

inductive Event where
  | aiUsageRecorded (feature provider model : String) (inputTokens outputTokens costCents : Nat)
  | aiBudgetReached (spentCents budgetCents thresholdPercent : Nat)
  deriving DecidableEq, Repr

/-- What has been committed of one organization.  `budgetCents` is what the
entitlements resolve to, without a value for an unlimited budget. -/
structure Database where
  orgStatus : Option OrgStatus
  budgetCents : Option Nat
  usageLedger : List UsageRow
  outbox : List Event

/-- What a transaction has written. -/
structure Tx where
  usageLedger : List UsageRow
  outbox : List Event

def Tx.none : Tx := ⟨[], []⟩

def Database.commit (db : Database) (tx : Tx) : Database :=
  { db with
    usageLedger := db.usageLedger ++ tx.usageLedger
    outbox := db.outbox ++ tx.outbox }

structure AiSpendState where
  orgStatus : Option OrgStatus
  budgetCents : Option Nat
  spentCents : Nat
  deriving DecidableEq, Repr

/-- `Date.UTC(now.getUTCFullYear(), now.getUTCMonth(), 1)`. -/
def startOfCurrentMonth (now : Int) : Int :=
  let (year, month, _) := Filter.civilFromDays (now / Filter.msPerDay)
  Filter.daysFromCivil year month 1 * Filter.msPerDay

/-- The cost of the rows from `since` on. -/
def sumSince (since : Int) (rows : List UsageRow) : Nat :=
  ((rows.filter fun row => since ≤ row.occurredAt).map (·.entry.costCents)).sum

/-- The state a gate decides on; its transaction sees what has been committed. -/
def readAiSpendState (db : Database) (now : Int) : AiSpendState where
  orgStatus := db.orgStatus
  budgetCents := db.budgetCents
  spentCents := sumSince (startOfCurrentMonth now) db.usageLedger

inductive AiGateRefusalReason where
  | org_suspended
  | budget_exceeded
  deriving DecidableEq, Repr

inductive AiGateDecision where
  | allowed (spentCents : Nat) (budgetCents : Option Nat) (warnThresholdPercent : Option Nat)
  | refused (reason : AiGateRefusalReason) (spentCents : Nat) (budgetCents : Option Nat)
  deriving DecidableEq, Repr

/-- Whether one completion may proceed. -/
def checkAiCompletionAllowed (db : Database) (now : Int) : AiGateDecision :=
  let state := readAiSpendState db now
  if state.orgStatus ≠ some .active then
    .refused .org_suspended state.spentCents state.budgetCents
  else if state.budgetCents.any (· ≤ state.spentCents) then
    .refused .budget_exceeded state.spentCents state.budgetCents
  else
    let crossesWarning := state.budgetCents.any fun budgetCents =>
      0 < budgetCents ∧ budgetCents * WARN_PERCENT ≤ state.spentCents * 100
    .allowed state.spentCents state.budgetCents (if crossesWarning then some WARN_PERCENT else none)

/-- An entry to record: when its transaction begins by the database's clock, and
when the spend is read by the caller's. -/
structure Recording where
  entry : AiUsageEntry
  occurredAt : Int
  now : Int
  /-- Whether the caller gives an envelope for events. -/
  envelope : Bool

/-- The spend has reached the threshold, and had not before an entry of this
cost. -/
def crossesWarning (after : AiSpendState) (costCents : Nat) : Bool :=
  after.budgetCents.any fun budgetCents =>
    0 < budgetCents ∧ budgetCents * WARN_PERCENT ≤ after.spentCents * 100 ∧
      ((after.spentCents : Int) - costCents) * 100 < budgetCents * WARN_PERCENT

/-- Appends a row in the caller's transaction, and the events with it. -/
def recordAiUsage (db : Database) (tx : Tx) (r : Recording) : Tx :=
  let tx := { tx with usageLedger := tx.usageLedger ++ [⟨r.entry, r.occurredAt⟩] }
  if r.envelope = false then tx
  else
    -- in a transaction of its own: `tx` is not part of what it reads
    let after := readAiSpendState db r.now
    { tx with
      outbox := tx.outbox ++
        .aiUsageRecorded r.entry.feature r.entry.provider r.entry.model r.entry.inputTokens
          r.entry.outputTokens r.entry.costCents ::
        if crossesWarning after r.entry.costCents then
          [.aiBudgetReached after.spentCents (after.budgetCents.getD 0) WARN_PERCENT]
        else [] }

/-- One entry, in a transaction with nothing else. -/
def record (db : Database) (r : Recording) : Database := db.commit (recordAiUsage db .none r)

/-- Entries recorded one after another. -/
def recordAll (db : Database) (rs : List Recording) : Database := rs.foldl record db

def Event.isBudgetReached : Event → Bool
  | .aiBudgetReached _ _ _ => true
  | .aiUsageRecorded .. => false

/-- How often the threshold has been announced. -/
def announced (db : Database) : Nat := db.outbox.countP Event.isBudgetReached

/-! ### What a sequence of entries announces -/

def spent (rs : List Recording) : Nat := (rs.map (·.entry.costCents)).sum

/-- The spend before an entry is past the threshold, by less than the entry
costs. -/
def Overshoots (budgetCents before : Nat) (r : Recording) : Prop :=
  r.envelope = true ∧ budgetCents * WARN_PERCENT ≤ before * 100 ∧
    before * 100 < budgetCents * WARN_PERCENT + r.entry.costCents * 100

instance {budgetCents before : Nat} {r : Recording} : Decidable (Overshoots budgetCents before r) := by
  unfold Overshoots
  infer_instance

/-- Entry `i` overshoots, when `before` has been spent before all of them. -/
def OvershootsAt (budgetCents before : Nat) (rs : List Recording) (i : Nat) : Prop :=
  ∃ r, rs[i]? = some r ∧ Overshoots budgetCents (before + spent (rs.take i)) r

/-- How many of the entries overshoot. -/
@[grind =] def overshooting (budgetCents : Nat) : Nat → List Recording → Nat
  | _, [] => 0
  | before, r :: rs => (if Overshoots budgetCents before r then 1 else 0) +
      overshooting budgetCents (before + r.entry.costCents) rs

/-- The recordings are of one month. -/
def InPeriod (start : Int) (r : Recording) : Prop :=
  startOfCurrentMonth r.now = start ∧ start ≤ r.occurredAt

section
variable {budgetCents before : Nat} {r : Recording} {rs : List Recording} {db : Database}
  {start : Int}

theorem overshooting_cons : overshooting budgetCents before (r :: rs) =
    (if Overshoots budgetCents before r then 1 else 0) +
      overshooting budgetCents (before + r.entry.costCents) rs := rfl

theorem overshootsAt_zero : OvershootsAt budgetCents before (r :: rs) 0 ↔
    Overshoots budgetCents before r := by
  simp [OvershootsAt, spent]

theorem overshootsAt_succ {i : Nat} : OvershootsAt budgetCents before (r :: rs) (i + 1) ↔
    OvershootsAt budgetCents (before + r.entry.costCents) rs i := by
  simp [OvershootsAt, spent, Nat.add_assoc]

theorem overshooting_eq_zero : overshooting budgetCents before rs = 0 ↔
    ∀ i, ¬OvershootsAt budgetCents before rs i := by
  induction rs generalizing before with
  | nil => simp [overshooting, OvershootsAt]
  | cons r rs ih =>
    rw [overshooting_cons, Nat.add_eq_zero_iff, ih]
    constructor
    · rintro ⟨hfirst, hrest⟩ i
      cases i with
      | zero =>
        rw [overshootsAt_zero]
        intro h
        simp [h] at hfirst
      | succ i =>
        rw [overshootsAt_succ]
        exact hrest i
    · intro h
      refine ⟨if_neg ((overshootsAt_zero).not.mp (h 0)), fun i => ?_⟩
      exact (overshootsAt_succ).not.mp (h (i + 1))

/-- One of the entries overshoots, and no other. -/
theorem overshooting_eq_one : overshooting budgetCents before rs = 1 ↔
    ∃! i, OvershootsAt budgetCents before rs i := by
  induction rs generalizing before with
  | nil => simp [overshooting, OvershootsAt, ExistsUnique]
  | cons r rs ih =>
    rw [overshooting_cons]
    by_cases hfirst : Overshoots budgetCents before r
    · rw [if_pos hfirst, Nat.add_eq_left, overshooting_eq_zero]
      constructor
      · intro hrest
        refine ⟨0, (overshootsAt_zero).mpr hfirst, fun i hi => ?_⟩
        cases i with
        | zero => rfl
        | succ i => exact absurd ((overshootsAt_succ).mp hi) (hrest i)
      · intro hunique i hi
        have := hunique.unique ((overshootsAt_zero).mpr hfirst) ((overshootsAt_succ).mpr hi)
        exact absurd this (Nat.succ_ne_zero i).symm
    · rw [if_neg hfirst, Nat.zero_add, ih]
      constructor
      · rintro ⟨i, hi, hunique⟩
        refine ⟨i + 1, (overshootsAt_succ).mpr hi, fun j hj => ?_⟩
        cases j with
        | zero => exact absurd ((overshootsAt_zero).mp hj) hfirst
        | succ j => rw [hunique j ((overshootsAt_succ).mp hj)]
      · rintro ⟨i, hi, hunique⟩
        cases i with
        | zero => exact absurd ((overshootsAt_zero).mp hi) hfirst
        | succ i =>
          refine ⟨i, (overshootsAt_succ).mp hi, fun j hj => ?_⟩
          exact Nat.succ.inj (hunique (j + 1) ((overshootsAt_succ).mpr hj))

theorem spent_take_le (rs : List Recording) (i : Nat) : spent (rs.take i) ≤ spent rs := by
  have hsplit : spent rs = spent (rs.take i) + spent (rs.drop i) := by
    rw [spent, spent, spent, ← List.sum_append, ← List.map_append, List.take_append_drop]
  exact hsplit ▸ Nat.le_add_right _ _

/-- The first entries have reached the threshold only if all of them have. -/
theorem not_overshootsAt_of_below
    (h : (before + spent rs) * 100 < budgetCents * WARN_PERCENT) (i : Nat) :
    ¬OvershootsAt budgetCents before rs i := by
  rintro ⟨r, _, _, hreached, _⟩
  have := spent_take_le rs i
  omega

/-! ### What the code announces -/

/-- The budget, and what has been spent of it in the month from `start`. -/
structure Spends (budgetCents : Nat) (start : Int) (before : Nat) (db : Database) : Prop where
  budget : db.budgetCents = some budgetCents
  spent : sumSince start db.usageLedger = before

/-- The row is inserted, and read by the entries after it. -/
theorem Spends.record (h : Spends budgetCents start before db) (hperiod : InPeriod start r) :
    Spends budgetCents start (before + r.entry.costCents) (record db r) := by
  have hledger : (AiSpendGate.record db r).usageLedger =
      db.usageLedger ++ [⟨r.entry, r.occurredAt⟩] := by
    simp only [AiSpendGate.record, Database.commit, recordAiUsage, Tx.none]
    split <;> rfl
  refine ⟨h.budget, ?_⟩
  rw [hledger, ← h.spent]
  simp [sumSince, List.filter_append, hperiod.2]

/-- The decision on an entry is about the spend before it. -/
theorem Spends.crossesWarning (h : Spends budgetCents start before db) (hpos : 0 < budgetCents)
    (hperiod : InPeriod start r) :
    (r.envelope && crossesWarning (readAiSpendState db r.now) r.entry.costCents) =
      decide (Overshoots budgetCents before r) := by
  have hspent : (readAiSpendState db r.now).spentCents = before := by
    rw [readAiSpendState, hperiod.1]
    exact h.spent
  have hbudget : (readAiSpendState db r.now).budgetCents = some budgetCents := h.budget
  rw [Bool.eq_iff_iff, Bool.and_eq_true, decide_eq_true_eq, AiSpendGate.crossesWarning, hbudget,
    Option.any_some, decide_eq_true_eq, hspent, Overshoots]
  apply and_congr_right
  intro _
  omega

theorem Spends.announced (h : Spends budgetCents start before db) (hpos : 0 < budgetCents)
    (hperiod : InPeriod start r) :
    announced (AiSpendGate.record db r) =
      announced db + if Overshoots budgetCents before r then 1 else 0 := by
  have hcrosses := h.crossesWarning hpos hperiod
  cases henvelope : r.envelope with
  | false =>
    rw [henvelope, Bool.false_and, eq_comm, decide_eq_false_iff_not] at hcrosses
    simp [AiSpendGate.record, recordAiUsage, henvelope, Database.commit, Tx.none,
      AiSpendGate.announced, hcrosses]
  | true =>
    rw [henvelope, Bool.true_and] at hcrosses
    simp only [AiSpendGate.record, recordAiUsage, henvelope, Database.commit, Tx.none,
      AiSpendGate.announced, hcrosses, Bool.true_eq_false, if_false, List.nil_append,
      List.countP_append, List.countP_cons, decide_eq_true_eq]
    split <;> simp [Event.isBudgetReached]

/-- Entries of one month announce the threshold as often as they overshoot it. -/
theorem announced_recordAll (hpos : 0 < budgetCents) (h : Spends budgetCents start before db)
    (hperiod : ∀ r ∈ rs, InPeriod start r) :
    announced (recordAll db rs) = announced db + overshooting budgetCents before rs := by
  induction rs generalizing db before with
  | nil => rfl
  | cons r rs ih =>
    have hr := hperiod r List.mem_cons_self
    have hrest := ih (h.record hr) fun r' hr' => hperiod r' (List.mem_cons_of_mem r hr')
    rw [recordAll, List.foldl_cons, ← recordAll, hrest, h.announced hpos hr, overshooting_cons,
      Nat.add_assoc]

/-- **When the threshold is announced as it should be**: the entries of a month
announce it once if they reach it, and not if they do not, just where they do not
reach it or exactly one of them costs more than what the spend before it was past
it. -/
theorem announced_once_iff (hbudget : db.budgetCents = some budgetCents) (hpos : 0 < budgetCents)
    (hbefore : ∀ row ∈ db.usageLedger, row.occurredAt < start)
    (hperiod : ∀ r ∈ rs, InPeriod start r) :
    announced (recordAll db rs) = announced db +
        (if budgetCents * WARN_PERCENT ≤ spent rs * 100 then 1 else 0) ↔
      spent rs * 100 < budgetCents * WARN_PERCENT ∨ ∃! i, OvershootsAt budgetCents 0 rs i := by
  have hnone : sumSince start db.usageLedger = 0 := by
    rw [sumSince, List.filter_eq_nil_iff.mpr fun row hrow => by simpa using hbefore row hrow]
    rfl
  rw [announced_recordAll hpos ⟨hbudget, hnone⟩ hperiod, Nat.add_left_cancel_iff]
  by_cases hreached : budgetCents * WARN_PERCENT ≤ spent rs * 100
  · rw [if_pos hreached, overshooting_eq_one]
    exact (or_iff_right (Nat.not_lt.mpr hreached)).symm
  · have hbelow := Nat.lt_of_not_le hreached
    rw [if_neg hreached, overshooting_eq_zero]
    exact iff_of_true (not_overshootsAt_of_below (by omega)) (Or.inl hbelow)

end

/-! ### Entries of one month -/

/-- A budget of a dollar, and nothing spent. -/
def aDollar : Database where
  orgStatus := some .active
  budgetCents := some 100
  usageLedger := []
  outbox := []

/-- An entry of this cost, on the second of January 1970. -/
def costing (costCents : Nat) : Recording where
  entry := ⟨"e", none, "standup", "anthropic", "claude-sonnet-4", 1, 1, costCents⟩
  occurredAt := 86400000
  now := 86400000
  envelope := true

/-- The entry after the one that reaches the threshold announces it. -/
theorem announced_once_late :
    announced (recordAll aDollar [costing 80, costing 10]) = 1 ∧
      (spent [costing 80, costing 10] * 100 < 100 * WARN_PERCENT ∨
        ∃! i, OvershootsAt 100 0 [costing 80, costing 10] i) := by
  have honce : announced (recordAll aDollar [costing 80, costing 10]) = 1 := by decide
  have hbefore : ∀ row ∈ aDollar.usageLedger, row.occurredAt < 0 :=
    fun _ hrow => absurd hrow List.not_mem_nil
  have hperiod : ∀ r ∈ [costing 80, costing 10], InPeriod 0 r := by
    intro r hr
    rcases List.mem_pair.mp hr with rfl | rfl
    all_goals exact ⟨rfl, by decide⟩
  exact ⟨honce, (announced_once_iff rfl (by decide) hbefore hperiod).mp honce⟩

/-- One entry reaches the threshold and nothing is announced; the next two, each
with some of its cost past the threshold, announce it twice. -/
theorem announced_never_and_twice :
    announced (recordAll aDollar [costing 80]) = 0 ∧
      announced (recordAll aDollar [costing 80, costing 5, costing 10]) = 2 := by
  decide

end AiSpendGate
end TaskFlow
