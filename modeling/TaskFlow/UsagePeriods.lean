import Mathlib.Algebra.GroupWithZero.Nat
import Mathlib.Data.Int.Order.Basic
import TaskFlow.Billing
import TaskFlow.PeriodChain
import TaskFlow.ScriptLogic

/-! # Closing usage periods

A usage period begins where the last one of its organization ended; the first one
is taken from the end of the subscription's current period.  The period is worked
out in one transaction and claimed in another, whose insert does nothing where a
period with that start is there.  Only who has inserted it asks the processor for
an invoice item, and then records what came of it.

Two workers that both find no period may work out different first ones, and insert
both.
-/
namespace TaskFlow
namespace UsagePeriods
open ReadCommitted ReadCommitted.Script ReadCommitted.Procedure
open Billing (Org Catalog DAY_MS)

variable {Id : Type}

/-! ### Rows -/

/-- The rows of one organization, and the catalog. -/
inductive Key (Id : Type) where
  | org
  | planPrices
  | usageCharge (periodStart : Int)
  | spend (id : Id)
  deriving DecidableEq, Repr

/-- A row of `billing.usage_charges`. -/
structure UsageCharge where
  periodEnd : Int
  usageCents : Nat
  includedCents : Nat
  markupPct : Nat
  billableCents : Nat
  providerInvoiceItemId : Option String
  failedReason : Option String
  chargedAt : Option Int
  deriving DecidableEq, Repr

/-- A row of `comms.spend_ledger`. -/
structure SpendRow where
  occurredAt : Int
  estimatedCents : Nat
  actualCents : Option Nat
  deriving DecidableEq, Repr

/-- `COALESCE(actual, estimated)`. -/
def SpendRow.cents (row : SpendRow) : Nat := row.actualCents.getD row.estimatedCents

inductive Row where
  | org (row : Option Org)
  | planPrices (catalog : Catalog)
  | usageCharge (row : Option UsageCharge)
  | spend (row : Option SpendRow)
  deriving DecidableEq, Repr

def Row.org? : Row → Option Org
  | .org row => row
  | _ => none

def Row.catalog : Row → Catalog
  | .planPrices catalog => catalog
  | _ => ⟨[], []⟩

def Row.usageCharge? : Row → Option UsageCharge
  | .usageCharge row => row
  | _ => none

def Row.spend? : Row → Option SpendRow
  | .spend row => row
  | _ => none

abbrev Rows (Id : Type) := Key Id → Row

def chargeOf (rows : Rows Id) (periodStart : Int) : Option UsageCharge :=
  (rows (.usageCharge periodStart)).usageCharge?

def spendOf (rows : Rows Id) (id : Id) : Option SpendRow := (rows (.spend id)).spend?

/-- The end of the period with that start. -/
def endOf (rows : Rows Id) (periodStart : Int) : Option Int :=
  (chargeOf rows periodStart).map UsageCharge.periodEnd

/-! ### Closing a period -/

/-- The starts that periods get, and the ids that rows of the ledger do; and the
charge for a usage, which is computed in floating point. -/
structure Setting (Id : Type) where
  starts : List Int
  ids : List Id
  computeBillableCents : (usageCents includedCents markupPct : Nat) → Nat

inductive Label where
  | read
  | write
  | claim
  deriving DecidableEq, Repr

/-- What the processor answers, and when. -/
structure Answer where
  now : Int
  invoiceItem : Except String String

inductive Note (Id : Type) where
  /-- The period is claimed, with these rows of the ledger summed up;
  `bootstrapped` is whether no period had been found. -/
  | usagePeriodClosed (bootstrapped : Bool) (periodStart periodEnd : Int) (hadOverage : Bool)
      (summed : List Id)
  | createInvoiceItem (customerId : String) (amountCents : Nat) (currency : String)
      (periodStart : Int)
  | usageCharged (periodStart : Int) (charged : Bool)
  deriving DecidableEq, Repr

abbrev Procedure (Id α : Type) :=
  ReadCommitted.Procedure (Key Id) Row Label Answer (Note Id) α

/-- The end of the latest period. -/
def lastPeriodEnd (starts : List Int) (rows : Rows Id) : Option Int :=
  (starts.filterMap (endOf rows)).max?

/-- The currency of a plan's current price. -/
def currencyOf (planId : Option String) : Procedure Id String :=
  match planId with
  | none => pure "usd"
  | some planId => select .read fun rows =>
    (((rows .planPrices).catalog.planPrices.find? fun price =>
      price.planId = planId ∧ price.isCurrent).map (·.currency)).getD "usd"

/-- What a period is worked out from. -/
structure Context where
  org : Org
  lastPeriodEnd : Option Int
  currency : String

def readContext (starts : List Int) : Procedure Id (Option Context) :=
  transaction do
    let org ← select .read fun rows => (rows .org).org?
    match org with
    | none => return ([], none)
    | some org =>
      let lastPeriodEnd ← select .read (lastPeriodEnd starts)
      let currency ← currencyOf org.planId
      return ([], some ⟨org, lastPeriodEnd, currency⟩)

/-- The rows of the ledger in a period: the end is not part of it. -/
def spentWithin (ids : List Id) (rows : Rows Id) (periodStart periodEnd : Int) : List Id :=
  ids.filter fun id => (spendOf rows id).any fun row =>
    periodStart ≤ row.occurredAt ∧ row.occurredAt < periodEnd

/-- Claims the period, and says what is to be charged for it if nobody else has. -/
def claimPeriod (setting : Setting Id) (includedCents markupPct : Nat) (bootstrapped : Bool)
    (periodStart periodEnd : Int) : Procedure Id (Option Nat) :=
  transaction do
    let (summed, usageCents) ← select .read fun rows =>
      let summed := spentWithin setting.ids rows periodStart periodEnd
      (summed, (summed.map fun id => ((spendOf rows id).map SpendRow.cents).getD 0).sum)
    let billableCents := setting.computeBillableCents usageCents includedCents markupPct
    require (periodStart ∈ setting.starts)
    let inserted ← statement .claim
      (fun _ rows =>
        if (chargeOf rows periodStart).isNone then
          ([], [(.usageCharge periodStart, .usageCharge (some
            { periodEnd := periodEnd, usageCents := usageCents, includedCents := includedCents,
              markupPct := markupPct, billableCents := billableCents,
              providerInvoiceItemId := none, failedReason := none, chargedAt := none }))])
        else ([], []))
      (fun _ rows => (chargeOf rows periodStart).isNone)
    if inserted then
      return ([.usagePeriodClosed bootstrapped periodStart periodEnd (decide (0 < billableCents))
        summed], some billableCents)
    else return ([], none)

/-- The call of the processor.  No row is involved. -/
def createInvoiceItem (customerId : String) (amountCents : Nat) (currency : String)
    (periodStart : Int) : Procedure Id Unit :=
  transaction (return ([.createInvoiceItem customerId amountCents currency periodStart], ()))

def UsageCharge.answered (row : UsageCharge) (answer : Answer) : UsageCharge :=
  match answer.invoiceItem with
  | .ok invoiceItemId =>
    { row with providerInvoiceItemId := some invoiceItemId, chargedAt := some answer.now }
  | .error reason => { row with failedReason := some reason }

/-- Records what the processor answered. -/
def recordOutcome (periodStart : Int) : Procedure Id Unit :=
  transaction do
    let charged ← statement .write
      (fun answer rows => ([], ((chargeOf rows periodStart).map fun row =>
        (.usageCharge periodStart, .usageCharge (some (row.answered answer)))).toList))
      (fun answer _ => answer.invoiceItem.isOk)
    return ([.usageCharged periodStart charged], ())

/-- A call of `closeUsagePeriod`: the worker's clock, and what the entitlements
resolve to. -/
structure Closing where
  now : Int
  telephonyIncludedCents : Nat
  telephonyMarkupPct : Nat

/-- The answer is whether a period was closed. -/
def closeUsagePeriod (setting : Setting Id) (closing : Closing) : Procedure Id Bool := do
  let context ← readContext setting.starts
  match context.bind fun context =>
      (Billing.duePeriod context.org context.lastPeriodEnd closing.now).map (context, ·) with
  | none => return false
  | some (context, periodStart, periodEnd) =>
    let claim ← claimPeriod setting closing.telephonyIncludedCents closing.telephonyMarkupPct
      context.lastPeriodEnd.isNone periodStart periodEnd
    match claim with
    | none => return false
    | some 0 => return true
    | some billableCents =>
      createInvoiceItem (context.org.stripeCustomerId.getD "") billableCents context.currency
        periodStart
      recordOutcome periodStart
      return true

/-! ### Calls -/

inductive Call (Id : Type) where
  | closeUsagePeriod (closing : Closing)
  /-- A row is added to the ledger. -/
  | recordSpend (id : Id) (row : SpendRow)
  /-- The carrier has told what something cost. -/
  | reconcile (id : Id) (actualCents : Nat)
  /-- Another part of the program writes the organization's row. -/
  | change (f : Org → Option Org)
  | editCatalog (catalog : Catalog)

/-- What the rest of the program writes, by one statement. -/
def Call.write : Call Id → Rows Id → Option (Key Id × Row)
  | .closeUsagePeriod _, _ => none
  | .recordSpend id row, rows =>
    if (spendOf rows id).isNone then some (.spend id, .spend (some row)) else none
  | .reconcile id actualCents, rows => (spendOf rows id).map fun row =>
    (.spend id, .spend (some { row with actualCents := some actualCents }))
  | .change f, rows => ((rows .org).org?.bind f).map fun org => (.org, .org (some org))
  | .editCatalog catalog, _ => some (.planPrices, .planPrices catalog)

def writeOther (call : Call Id) : Procedure Id Unit :=
  transaction do
    statement .write (fun _ rows => ([], (call.write rows).toList)) (fun _ _ => ())
    return ([], ())

def calls (setting : Setting Id) : Call Id → Script (Key Id) Row Label Answer (Note Id)
  | .closeUsagePeriod closing => (closeUsagePeriod setting closing).script
  | call => (writeOther call).script

/-- A first period is claimed where there is no other, or where one ends at its
start. -/
def Note.Continues (starts : List Int) (rows : Rows Id) : Note Id → Prop
  | .usagePeriodClosed true periodStart _ _ _ =>
    (∀ start ∈ starts, start ≠ periodStart → endOf rows start = none) ∨
      ∃ start ∈ starts, endOf rows start = some periodStart
  | _ => True

def continues (starts : List Int) : Condition (Key Id) Row Label Answer (Note Id) where
  commit notes rows := ∀ note ∈ notes, note.Continues starts rows

/-! ### What is kept -/

/-- The period with that start is claimed. -/
def Note.closes (start : Int) : Note Id → Bool
  | .usagePeriodClosed _ periodStart _ _ _ => decide (periodStart = start)
  | _ => false

/-- An invoice item is asked for, for the period with that start. -/
def Note.requests (start : Int) : Note Id → Bool
  | .createInvoiceItem _ _ _ periodStart => decide (periodStart = start)
  | _ => false

/-- The row of the ledger is summed up. -/
def Note.sums [DecidableEq Id] (id : Id) : Note Id → Bool
  | .usagePeriodClosed _ _ _ _ summed => decide (id ∈ summed)
  | _ => false

variable {S : Type}

def closed (log : List (S × Note Id)) (start : Int) : Nat :=
  log.countP fun note => note.2.closes start

def requested (log : List (S × Note Id)) (start : Int) : Nat :=
  log.countP fun note => note.2.requests start

/-- The session has claimed the period. -/
def ClosedBy (s : S) (start : Int) (log : List (S × Note Id)) : Prop :=
  ∃ note, (s, note) ∈ log ∧ note.closes start

/-- The row of the ledger falls into the period. -/
def Within (rows : Rows Id) (start stop : Int) (id : Id) : Prop :=
  ∃ row, spendOf rows id = some row ∧ start ≤ row.occurredAt ∧ row.occurredAt < stop

/-- The periods tile, and the notes are about them. -/
structure Consistent (starts : List Int) (σ : Shared S (Key Id) Row (Note Id)) : Prop where
  starts : ∀ start, endOf σ.rows start ≠ none → start ∈ starts
  tiled : PeriodChain.Tiled (endOf σ.rows)
  noted : ∀ s bootstrapped start stop hadOverage summed,
    (s, .usagePeriodClosed bootstrapped start stop hadOverage summed) ∈ σ.log →
      endOf σ.rows start = some stop ∧ ∀ id ∈ summed, Within σ.rows start stop id
  closed : ∀ start, closed σ.log start ≤ 1
  requested : ∀ start, requested σ.log start ≤ UsagePeriods.closed σ.log start

/-- Periods stay, and the rows of the ledger stay where they are in time. -/
structure Grows (rows rows' : Rows Id) : Prop where
  ends : ∀ start stop, endOf rows start = some stop → endOf rows' start = some stop
  spends : ∀ id row, spendOf rows id = some row →
    ∃ row', spendOf rows' id = some row' ∧ row'.occurredAt = row.occurredAt

theorem Grows.refl (rows : Rows Id) : Grows rows rows :=
  ⟨fun _ _ h => h, fun _ row h => ⟨row, h, rfl⟩⟩

theorem Grows.trans {rows rows' rows'' : Rows Id} (h : Grows rows rows') (h' : Grows rows' rows'') :
    Grows rows rows'' := by
  refine ⟨fun start stop hstop => h'.ends _ _ (h.ends _ _ hstop), fun id row hrow => ?_⟩
  obtain ⟨row', hrow', hsame⟩ := h.spends id row hrow
  obtain ⟨row'', hrow'', hsame'⟩ := h'.spends id row' hrow'
  exact ⟨row'', hrow'', hsame'.trans hsame⟩

theorem Within.grows {rows rows' : Rows Id} {start stop : Int} {id : Id}
    (h : Within rows start stop id) (hgrows : Grows rows rows') : Within rows' start stop id := by
  obtain ⟨row, hrow, hin⟩ := h
  obtain ⟨row', hrow', hsame⟩ := hgrows.spends id row hrow
  exact ⟨row', hrow', hsame ▸ hin⟩

/-- Only who has claimed a period asks for its invoice item. -/
structure Leaves (s : S) (σ σ' : Shared S (Key Id) Row (Note Id)) : Prop where
  grows : Grows σ.rows σ'.rows
  requests : ∀ start, ClosedBy s start σ.log →
    ClosedBy s start σ'.log ∧ requested σ'.log start = requested σ.log start

def discipline (S Id : Type) (starts : List Int) :
    Discipline S (Key Id) Row Label Answer (Note Id) where
  inv := Consistent starts
  guarantee s notes _ σ σ' := Grows σ.rows σ'.rows ∧
    ∀ note ∈ notes, ∀ start, note.requests start → ClosedBy s start σ.log
  rely s own σ σ' := (∀ k, own k → σ'.rows k = σ.rows k) ∧ Leaves s σ σ'
  condition := continues starts

theorem eq_of_countP_le_one {α : Type} {p : α → Bool} {l : List α} (h : l.countP p ≤ 1) {a b : α}
    (ha : a ∈ l) (hb : b ∈ l) (hpa : p a) (hpb : p b) : a = b := by
  induction l with
  | nil => cases ha
  | cons c l ih =>
    rw [List.countP_cons] at h
    have hrest {d : α} (hd : d ∈ l) (hpd : p d) : 0 < l.countP p :=
      List.countP_pos_iff.mpr ⟨d, hd, hpd⟩
    rcases List.mem_cons.mp ha with rfl | hal <;> rcases List.mem_cons.mp hb with hba | hbl
    · exact hba.symm
    · have := hrest hbl hpb
      rw [if_pos hpa] at h
      omega
    · have := hrest hal hpa
      rw [if_pos (hba ▸ hpb)] at h
      omega
    · exact ih (by omega) hal hbl

section
variable [DecidableEq Id] {starts : List Int} {s : S} {t : Transaction (Key Id) Row}
  {σ : Shared S (Key Id) Row (Note Id)}

theorem discipline_lawful : (discipline S Id starts).Lawful where
  refl s own σ := ⟨fun _ _ => rfl, Grows.refl _, fun _ h => ⟨h, rfl⟩⟩
  trans h h' := by
    refine ⟨fun k hk => (h'.1 k hk).trans (h.1 k hk), h.2.grows.trans h'.2.grows,
      fun start hclosed => ?_⟩
    obtain ⟨hclosed', hsame⟩ := h.2.requests start hclosed
    obtain ⟨hclosed'', hsame'⟩ := h'.2.requests start hclosed'
    exact ⟨hclosed'', hsame'.trans hsame⟩
  rely := by
    intro s s' own notes t σ hs _ hkept hinv _ hguar
    refine ⟨hkept, hguar.1, fun start hclosed => ?_⟩
    obtain ⟨note, hnote, hcloses⟩ := hclosed
    refine ⟨⟨note, List.mem_append_right _ hnote, hcloses⟩, ?_⟩
    -- whoever else asks for it would have claimed it too
    have hnone : (notes.map (Prod.mk s')).countP (fun note => note.2.requests start) = 0 := by
      rw [List.countP_eq_zero]
      intro other hother hrequests
      obtain ⟨note', hnote', rfl⟩ := List.mem_map.mp hother
      obtain ⟨claim, hclaim, hcloses'⟩ := hguar.2 note' hnote' start hrequests
      have := eq_of_countP_le_one (hinv.closed start) hnote hclaim hcloses hcloses'
      exact hs (Prod.mk.inj this).1
    simp only [UsagePeriods.requested, Shared.commit, List.countP_append, hnone, Nat.zero_add]

/-! ### Statements that leave the periods as they are -/

/-- The new row has the old one's period, and its place in time. -/
def Keeps (k : Key Id) (v v' : Row) : Prop :=
  match k with
  | .usageCharge _ => v'.usageCharge?.map UsageCharge.periodEnd =
      v.usageCharge?.map UsageCharge.periodEnd
  | .spend _ => ∀ row ∈ v.spend?, ∃ row' ∈ v'.spend?, row'.occurredAt = row.occurredAt
  | _ => True

/-- The transaction has written one row at most, and kept what counts of it. -/
def Kept (t : Transaction (Key Id) Row) (σ : Shared S (Key Id) Row (Note Id)) : Prop :=
  t.pending = [] ∨ ∃ k v, t.pending = [(k, v)] ∧ t.own k ∧ Keeps k (σ.rows k) v

omit [DecidableEq Id] in
theorem kept_none : Kept .none σ := Or.inl rfl

omit [DecidableEq Id] in
theorem kept_stable : Stable (discipline S Id starts) s Kept := by
  intro t σ σ' h hrely _
  rcases h with hnone | ⟨k, v, hpending, hown, hkeeps⟩
  · exact Or.inl hnone
  · refine Or.inr ⟨k, v, hpending, hown, ?_⟩
    rw [hrely.1 k hown]
    exact hkeeps

theorem Kept.ends (h : Kept t σ) (start : Int) :
    endOf (t.view σ) start = endOf σ.rows start := by
  rcases h with hnone | ⟨k, v, hpending, _, hkeeps⟩
  · simp [Transaction.view, hnone]
  · by_cases hk : k = .usageCharge start
    · subst hk
      simpa [Transaction.view, hpending, endOf, chargeOf, Keeps] using hkeeps
    · simp [Transaction.view, hpending, endOf, chargeOf, Function.update_of_ne (Ne.symm hk)]

theorem Kept.grows (h : Kept t σ) : Grows σ.rows (t.view σ) := by
  refine ⟨fun start stop hstop => (h.ends start).trans hstop, fun id row hrow => ?_⟩
  rcases h with hnone | ⟨k, v, hpending, _, hkeeps⟩
  · exact ⟨row, by simpa [Transaction.view, hnone] using hrow, rfl⟩
  · by_cases hk : k = .spend id
    · subst hk
      obtain ⟨row', hrow', hsame⟩ := hkeeps row hrow
      exact ⟨row', by simpa [Transaction.view, hpending, spendOf] using hrow', hsame⟩
    · refine ⟨row, ?_, rfl⟩
      simpa [Transaction.view, hpending, spendOf, Function.update_of_ne (Ne.symm hk)] using hrow

/-- The commit of a transaction that keeps the periods and claims none. -/
theorem Kept.commit {notes : List (Note Id)} (h : Kept t σ)
    (hinv : (discipline S Id starts).inv σ)
    (hnotes : ∀ note ∈ notes, ∀ start, note.closes start = false)
    (hrequests : ∀ start, notes.countP (Note.requests start) + requested σ.log start ≤
      closed σ.log start) :
    (discipline S Id starts).inv (σ.commit s t notes) := by
  have hclosed (start : Int) : closed (σ.commit s t notes).log start = closed σ.log start := by
    have hnone : (notes.map (Prod.mk s)).countP (fun note => note.2.closes start) = 0 := by
      rw [List.countP_eq_zero]
      intro note hnote
      obtain ⟨note', hnote', rfl⟩ := List.mem_map.mp hnote
      simp [hnotes note' hnote' start]
    simp only [UsagePeriods.closed, Shared.commit, List.countP_append, hnone, Nat.zero_add]
  have hends : endOf (σ.commit s t notes).rows = endOf σ.rows := funext h.ends
  refine ⟨fun start => ?_, ?_, fun s' bootstrapped start stop hadOverage summed hmem => ?_,
    fun start => ?_, fun start => ?_⟩
  · rw [hends]
    exact hinv.starts start
  · rw [hends]
    exact hinv.tiled
  · rcases List.mem_append.mp hmem with hnew | hold
    · obtain ⟨note, hnote, heq⟩ := List.mem_map.mp hnew
      obtain ⟨rfl, rfl⟩ := Prod.mk.inj heq
      simpa [Note.closes] using hnotes _ hnote start
    · obtain ⟨hstop, hwithin⟩ := hinv.noted _ _ _ _ _ _ hold
      rw [hends]
      exact ⟨hstop, fun id hid => (hwithin id hid).grows h.grows⟩
  · rw [hclosed]
    exact hinv.closed start
  · rw [hclosed]
    refine Nat.le_trans (Nat.le_of_eq ?_) (hrequests start)
    simp only [UsagePeriods.requested, Shared.commit, List.countP_append, List.countP_map]
    rfl

/-! ### The claim of a period -/

/-- The period is not a first one, unless no period had been found. -/
def Chained (bootstrapped : Bool) (start : Int) (rows : Rows Id) : Prop :=
  bootstrapped = false → ∃ a, endOf rows a = some start

/-- The transaction has inserted the period, and nothing else. -/
structure Claims (starts : List Int) (bootstrapped : Bool) (start stop : Int) (summed : List Id)
    (t : Transaction (Key Id) Row) (σ : Shared S (Key Id) Row (Note Id)) : Prop where
  own : t.own (.usageCharge start)
  pending : ∃ row, t.pending = [(.usageCharge start, .usageCharge (some row))] ∧
    row.periodEnd = stop
  vacant : endOf σ.rows start = none
  mem : start ∈ starts
  lt : start < stop
  chained : Chained bootstrapped start σ.rows
  within : ∀ id ∈ summed, Within σ.rows start stop id

section
variable {bootstrapped : Bool} {start stop : Int} {summed : List Id}

omit [DecidableEq Id] in
theorem Chained.grows {rows rows' : Rows Id} (h : Chained bootstrapped start rows)
    (hgrows : Grows rows rows') : Chained bootstrapped start rows' := fun hb =>
  let ⟨a, ha⟩ := h hb
  ⟨a, hgrows.ends a start ha⟩

omit [DecidableEq Id] in
theorem claims_stable :
    Stable (discipline S Id starts) s (Claims starts bootstrapped start stop summed) := by
  intro t σ σ' h hrely _
  refine ⟨h.own, h.pending, ?_, h.mem, h.lt, h.chained.grows hrely.2.grows,
    fun id hid => (h.within id hid).grows hrely.2.grows⟩
  rw [endOf, chargeOf, hrely.1 _ h.own]
  exact h.vacant

theorem Claims.ends (h : Claims starts bootstrapped start stop summed t σ) :
    endOf (t.view σ) = Function.update (endOf σ.rows) start (some stop) := by
  obtain ⟨row, hpending, hstop⟩ := h.pending
  funext a
  by_cases ha : a = start
  · subst ha
    simp [Transaction.view, hpending, endOf, chargeOf, Row.usageCharge?, hstop]
  · simp [Transaction.view, hpending, endOf, chargeOf, ha]

theorem Claims.grows (h : Claims starts bootstrapped start stop summed t σ) :
    Grows σ.rows (t.view σ) := by
  refine ⟨fun a b hab => ?_, fun id row hrow => ⟨row, ?_, rfl⟩⟩
  · rw [h.ends, Function.update_of_ne (by rintro rfl; rw [h.vacant] at hab; cases hab), hab]
  · obtain ⟨charge, hpending, _⟩ := h.pending
    simpa [Transaction.view, hpending, spendOf] using hrow

omit [DecidableEq Id] in
theorem closed_of_vacant (h : Consistent starts σ) (hvacant : endOf σ.rows start = none) :
    closed σ.log start = 0 := by
  rw [UsagePeriods.closed, List.countP_eq_zero]
  rintro ⟨s', note⟩ hnote hcloses
  cases note with
  | usagePeriodClosed b start' stop' hadOverage summed' =>
    obtain rfl : start' = start := by simpa [Note.closes] using hcloses
    rw [(h.noted _ _ _ _ _ _ hnote).1] at hvacant
    cases hvacant
  | createInvoiceItem => cases hcloses
  | usageCharged => cases hcloses

/-- Where the claim of a period begins: where another ends, or there is none. -/
theorem Claims.begins {hadOverage : Bool} (h : Claims starts bootstrapped start stop summed t σ)
    (hinv : Consistent starts σ)
    (hc : (continues starts).commit
      [.usagePeriodClosed bootstrapped start stop hadOverage summed] (t.view σ)) :
    (∀ a, endOf σ.rows a = none) ∨ ∃ a, endOf σ.rows a = some start := by
  cases hb : bootstrapped with
  | false => exact Or.inr (h.chained hb)
  | true =>
    subst hb
    rcases hc _ (List.mem_singleton_self _) with hnone | ⟨a, _, ha⟩
    · left
      intro a
      by_contra hsome
      have hne : a ≠ start := by
        rintro rfl
        exact hsome h.vacant
      have hview := hnone a (hinv.starts a hsome) hne
      rw [h.ends, Function.update_of_ne hne] at hview
      exact hsome hview
    · have hne : a ≠ start := by
        rintro rfl
        rw [h.ends, Function.update_self] at ha
        exact absurd (Option.some.inj ha ▸ h.lt) (lt_irrefl _)
      rw [h.ends, Function.update_of_ne hne] at ha
      exact Or.inr ⟨a, ha⟩

/-- The commit of a claim. -/
theorem Claims.commit {hadOverage : Bool} (h : Claims starts bootstrapped start stop summed t σ)
    (hinv : (discipline S Id starts).inv σ)
    (hc : (continues starts).commit
      [.usagePeriodClosed bootstrapped start stop hadOverage summed] (t.view σ)) :
    (discipline S Id starts).inv
      (σ.commit s t [.usagePeriodClosed bootstrapped start stop hadOverage summed]) := by
  have hunclosed : closed σ.log start = 0 := closed_of_vacant hinv h.vacant
  have hends : endOf (σ.commit s t [.usagePeriodClosed bootstrapped start stop hadOverage
      summed]).rows = Function.update (endOf σ.rows) start (some stop) := h.ends
  have hclosed (a : Int) : closed (σ.commit s t [.usagePeriodClosed bootstrapped start stop
      hadOverage summed]).log a = closed σ.log a + if start = a then 1 else 0 := by
    by_cases ha : start = a <;> simp [Shared.commit, UsagePeriods.closed, Note.closes, ha]
  refine ⟨fun a ha => ?_, ?_, fun s' b start' stop' hadOverage' summed' hmem => ?_,
    fun a => ?_, fun a => ?_⟩
  · by_cases hne : a = start
    · exact hne ▸ h.mem
    · rw [hends, Function.update_of_ne hne] at ha
      exact hinv.starts a ha
  · rw [hends]
    exact hinv.tiled.extend h.lt h.vacant (h.begins hinv hc)
  · rcases List.mem_cons.mp hmem with heq | hold
    · obtain ⟨rfl, hnote⟩ := Prod.mk.inj heq
      obtain ⟨rfl, rfl, rfl, rfl, rfl⟩ := Note.usagePeriodClosed.inj hnote
      refine ⟨?_, fun id hid => (h.within id hid).grows h.grows⟩
      rw [hends, Function.update_self]
    · obtain ⟨hstop, hwithin⟩ := hinv.noted _ _ _ _ _ _ hold
      exact ⟨h.grows.ends _ _ hstop, fun id hid => (hwithin id hid).grows h.grows⟩
  · rw [hclosed]
    by_cases ha : start = a
    · subst ha
      simp [hunclosed]
    · simpa [ha] using hinv.closed a
  · rw [hclosed]
    exact Nat.le_trans
      (Nat.le_of_eq (by simp [Shared.commit, UsagePeriods.requested, Note.requests]))
      (Nat.le_trans (hinv.requested a) (Nat.le_add_right _ _))

/-- Who has claimed the period, and asked for nothing yet. -/
def Unrequested (s : S) (start : Int) (σ : Shared S (Key Id) Row (Note Id)) : Prop :=
  ClosedBy s start σ.log ∧ requested σ.log start = 0

omit [DecidableEq Id] in
theorem unrequested_stable : Stable (discipline S Id starts) s fun t σ =>
    t = .none ∧ Unrequested s start σ := by
  intro t σ σ' ⟨ht, hclosed, hzero⟩ hrely _
  obtain ⟨hclosed', hsame⟩ := hrely.2.requests start hclosed
  exact ⟨ht, hclosed', hsame.trans hzero⟩

theorem triple_claimPeriod {setting : Setting Id} {includedCents markupPct : Nat}
    (hlt : start < stop) :
    Triple (discipline S Id setting.starts) s
      (fun t σ => t = .none ∧ Chained bootstrapped start σ.rows)
      (claimPeriod setting includedCents markupPct bootstrapped start stop)
      fun r t σ => t = .none ∧ (r ≠ none → Unrequested s start σ) := by
  refine triple_transaction (R := fun r t σ =>
    (r = ([], none) ∧ t.pending = []) ∨ ∃ hadOverage summed, r.1 =
      [.usagePeriodClosed bootstrapped start stop hadOverage summed] ∧
      Claims setting.starts bootstrapped start stop summed t σ) ?_ (fun r => ?_) ?_
  · have hstable (summed : List Id) : Stable (discipline S Id setting.starts) s fun t σ =>
        t = .none ∧ Chained bootstrapped start σ.rows ∧
          ∀ id ∈ summed, Within σ.rows start stop id := by
      intro t σ σ' ⟨ht, hchained, hwithin⟩ hrely _
      exact ⟨ht, hchained.grows hrely.2.grows, fun id hid => (hwithin id hid).grows hrely.2.grows⟩
    refine Triple.bind (Q := fun r t σ => t = .none ∧ Chained bootstrapped start σ.rows ∧
      ∀ id ∈ r.1, Within σ.rows start stop id) (triple_select ?_ ?_) fun r => ?_
    · intro t σ σ' ⟨ht, hchained⟩ hrely _
      exact ⟨ht, hchained.grows hrely.2.grows⟩
    · rintro t σ ⟨rfl, hchained⟩ _ _ _ _
      refine ⟨rfl, hchained, fun id hid => ?_⟩
      obtain ⟨_, hin⟩ := List.mem_filter.mp hid
      obtain ⟨row, hrow, hbounds⟩ := (Option.any_eq_true _ _).mp hin
      exact ⟨row, hrow, of_decide_eq_true hbounds⟩
    · obtain ⟨summed, usageCents⟩ := r
      refine Triple.bind (Q := fun _ t σ => start ∈ setting.starts ∧ t = .none ∧
        Chained bootstrapped start σ.rows ∧ ∀ id ∈ summed, Within σ.rows start stop id)
        (triple_require fun _ _ h hmem => ⟨hmem, h⟩) fun _ => ?_
      refine Triple.bind (Q := fun inserted t σ =>
        (inserted = false ∧ t.pending = []) ∨
          inserted = true ∧ Claims setting.starts bootstrapped start stop summed t σ)
        (triple_statement ?_ ?_) fun inserted => ?_
      · intro t σ σ' ⟨hmem, h⟩ hrely hinv
        exact ⟨hmem, hstable summed t σ σ' h hrely hinv⟩
      · rintro t σ i held ⟨hmem, rfl, hchained, hwithin⟩ _ _ _
        cases hcharge : chargeOf σ.rows start with
        | some row =>
          left
          simp only [Transaction.view_none, hcharge]
          exact ⟨rfl, rfl⟩
        | none =>
          right
          refine ⟨by simp [hcharge], ?_⟩
          simp only [Transaction.view_none, hcharge, Option.isNone_none, if_true]
          exact ⟨by simp, ⟨_, rfl, rfl⟩, by simp [endOf, hcharge], hmem, hlt, hchained, hwithin⟩
      · cases inserted with
        | false => exact triple_pure fun t σ h => Or.inl ⟨rfl, (h.resolve_right (by simp)).2⟩
        | true =>
          exact triple_pure fun t σ h => Or.inr ⟨_, summed, rfl, (h.resolve_left (by simp)).2⟩
  · intro t σ σ' h hrely hinv
    rcases h with hnone | ⟨hadOverage, summed, hr, hclaims⟩
    · exact Or.inl hnone
    · exact Or.inr ⟨hadOverage, summed, hr, claims_stable t σ σ' hclaims hrely hinv⟩
  · rintro ⟨notes, billable⟩ t σ h hinv hc
    rcases h with ⟨hr, hpending⟩ | ⟨hadOverage, summed, hr, hclaims⟩
    · obtain ⟨rfl, rfl⟩ := Prod.mk.inj hr
      have hkept : Kept t σ := Or.inl hpending
      refine ⟨hkept.commit hinv (by simp) fun a => by simpa using hinv.requested a,
        ⟨hkept.grows, by simp⟩, rfl, fun h => absurd rfl h⟩
    · obtain rfl : notes = _ := hr
      refine ⟨hclaims.commit hinv hc, ⟨hclaims.grows, ?_⟩, rfl,
        fun _ => ⟨⟨_, List.mem_cons_self, ?_⟩, ?_⟩⟩
      · intro note hnote a hrequests
        rw [List.mem_singleton.mp hnote] at hrequests
        cases hrequests
      · simp [Note.closes]
      · have hzero : requested σ.log start = 0 :=
          Nat.le_zero.mp (closed_of_vacant hinv hclaims.vacant ▸ hinv.requested start)
        simpa [Shared.commit, UsagePeriods.requested, Note.requests] using hzero

end

/-! ### The rest of a call -/

/-- A transaction that only reads. -/
theorem triple_readContext {setting : Setting Id} :
    Triple (discipline S Id setting.starts) s (fun t _ => t = .none) (readContext setting.starts)
      fun context t σ => t = .none ∧ ∀ found ∈ context, ∀ start ∈ found.lastPeriodEnd,
        ∃ a, endOf σ.rows a = some start := by
  have hseen (last : Option Int) : Stable (discipline S Id setting.starts) s
      fun t (σ : Shared S (Key Id) Row (Note Id)) => t = .none ∧
        ∀ start ∈ last, ∃ a, endOf σ.rows a = some start := by
    intro t σ σ' ⟨ht, h⟩ hrely _
    refine ⟨ht, fun start hstart => ?_⟩
    obtain ⟨a, ha⟩ := h start hstart
    exact ⟨a, hrely.2.grows.ends a start ha⟩
  refine triple_transaction (R := fun (r : List (Note Id) × Option Context) t σ => r.1 = [] ∧
    t = .none ∧ ∀ found ∈ r.2, ∀ start ∈ found.lastPeriodEnd, ∃ a, endOf σ.rows a = some start)
    ?_ (fun r => ?_) ?_
  · refine Triple.bind (Q := fun _ t _ => t = .none)
      (triple_select stable_none fun _ _ h _ _ _ _ => h) fun org => ?_
    cases org with
    | none => exact triple_pure fun _ _ h => ⟨rfl, h, fun _ hfound => by cases hfound⟩
    | some org =>
      refine Triple.bind (Q := fun last t σ => t = .none ∧
        ∀ start ∈ last, ∃ a, endOf σ.rows a = some start)
        (triple_select stable_none ?_) fun last => ?_
      · rintro t σ rfl _ _ _ _
        refine ⟨rfl, fun start hstart => ?_⟩
        obtain ⟨a, _, ha⟩ := List.mem_filterMap.mp (List.max?_mem hstart)
        exact ⟨a, ha⟩
      · refine Triple.bind (Q := fun _ t σ => t = .none ∧
          ∀ start ∈ last, ∃ a, endOf σ.rows a = some start) ?_ fun currency => ?_
        · cases org.planId with
          | none => exact triple_pure fun _ _ h => h
          | some planId => exact triple_select (hseen last) fun _ _ h _ _ _ _ => h
        · refine triple_pure fun t σ ⟨ht, h⟩ => ⟨rfl, ht, fun found hfound => ?_⟩
          obtain rfl := Option.some.inj hfound
          exact h
  · obtain ⟨notes, context⟩ := r
    intro t σ σ' ⟨hr, ht, h⟩ hrely hinv
    refine ⟨hr, ht, fun found hfound => ?_⟩
    exact (hseen found.lastPeriodEnd t σ σ' ⟨ht, h found hfound⟩ hrely hinv).2
  · rintro ⟨_, context⟩ t σ ⟨rfl, rfl, h⟩ hinv _
    have hkept : Kept Transaction.none σ := kept_none
    exact ⟨hkept.commit hinv (by simp) fun a => by simpa using hinv.requested a,
      ⟨hkept.grows, by simp⟩, rfl, fun found hfound start hstart => h found hfound start hstart⟩

theorem triple_createInvoiceItem {start : Int} {customerId currency : String} {amountCents : Nat} :
    Triple (discipline S Id starts) s (fun t σ => t = .none ∧ Unrequested s start σ)
      (createInvoiceItem customerId amountCents currency start) fun _ t _ => t = .none := by
  refine triple_transaction (R := fun (r : List (Note Id) × Unit) t σ =>
    r.1 = [.createInvoiceItem customerId amountCents currency start] ∧ t = .none ∧
      Unrequested s start σ) (triple_pure fun _ _ h => ⟨rfl, h⟩) (fun r => ?_) ?_
  · intro t σ σ' ⟨hr, h⟩ hrely hinv
    exact ⟨hr, unrequested_stable t σ σ' h hrely hinv⟩
  · rintro ⟨_, _⟩ t σ ⟨rfl, rfl, hclosed, hzero⟩ hinv _
    refine ⟨(kept_none).commit hinv (by simp [Note.closes]) fun a => ?_,
      ⟨(kept_none).grows, ?_⟩, rfl⟩
    · by_cases ha : start = a
      · subst ha
        obtain ⟨note, hnote, hcloses⟩ := hclosed
        have hpos : 1 ≤ closed σ.log start := List.countP_pos_iff.mpr ⟨_, hnote, hcloses⟩
        simpa [Note.requests, hzero] using hpos
      · simpa [Note.requests, ha] using hinv.requested a
    · intro note hnote a hrequests
      rw [List.mem_singleton.mp hnote] at hrequests
      obtain rfl : start = a := by simpa [Note.requests] using hrequests
      exact hclosed

/-- A transaction with a single write that keeps what counts. -/
theorem triple_write {α : Type} {run : Answer → Rows Id → List (Key Id) × List (Key Id × Row)}
    {result : Answer → Rows Id → α} (note : α → List (Note Id))
    (hkept : ∀ i (σ : Shared S (Key Id) Row (Note Id)),
      Kept ((.none : Transaction (Key Id) Row).run (run i σ.rows).1 (run i σ.rows).2) σ)
    (hnote : ∀ a, ∀ n ∈ note a, ∀ start,
      Note.closes start n = false ∧ Note.requests start n = false) :
    Triple (discipline S Id starts) s (fun t _ => t = .none) (transaction do
      let a ← statement .write run result
      return (note a, ())) fun _ t _ => t = .none := by
  refine triple_transaction (R := fun r t σ => (∃ a, r.1 = note a) ∧ Kept t σ)
    (Triple.bind (Q := fun _ => Kept) (triple_statement stable_none ?_) fun a =>
      triple_pure fun _ _ h => ⟨⟨a, rfl⟩, h⟩) (fun r => ?_) ?_
  · rintro t σ i held rfl _ _ _
    exact hkept i σ
  · intro t σ σ' ⟨hr, h⟩ hrely hinv
    exact ⟨hr, kept_stable t σ σ' h hrely hinv⟩
  · rintro ⟨_, _⟩ t σ ⟨⟨a, rfl⟩, h⟩ hinv _
    refine ⟨h.commit hinv (fun n hn start => (hnote a n hn start).1) fun start => ?_,
      ⟨h.grows, fun n hn start hrequests => ?_⟩, rfl⟩
    · have hnone : (note a).countP (Note.requests start) = 0 :=
        List.countP_eq_zero.mpr fun n hn => by simp [(hnote a n hn start).2]
      rw [hnone, Nat.zero_add]
      exact hinv.requested start
    · rw [(hnote a n hn start).2] at hrequests
      cases hrequests

omit [DecidableEq Id] in
theorem duePeriod_some {org : Org} {last : Option Int} {now start stop : Int}
    (h : Billing.duePeriod org last now = some (start, stop)) :
    start < stop ∧ ∀ e ∈ last, e = start := by
  have hpos : 0 < Billing.intervalMs org.currentPriceInterval := by
    unfold Billing.intervalMs Billing.DAY_MS
    split <;> decide
  simp only [Billing.duePeriod, Option.bind_eq_bind, Option.bind_eq_some_iff] at h
  obtain ⟨_, _, _, _, periodStart, hstart, h⟩ := h
  split at h
  · cases h
  · obtain ⟨rfl, rfl⟩ := Prod.mk.inj (Option.some.inj h)
    refine ⟨by omega, fun e he => ?_⟩
    obtain rfl : last = some e := he
    exact Option.some.inj hstart

omit [DecidableEq Id] in
/-- What is written to one row that is locked keeps it. -/
theorem kept_run {σ : Shared S (Key Id) Row (Note Id)} {write : Option (Key Id × Row)}
    (h : ∀ k v, write = some (k, v) → Keeps k (σ.rows k) v) :
    Kept ((.none : Transaction (Key Id) Row).run [] write.toList) σ := by
  cases write with
  | none => exact Or.inl rfl
  | some write => exact Or.inr ⟨write.1, write.2, rfl, by simp, h _ _ rfl⟩

theorem triple_recordOutcome {start : Int} :
    Triple (discipline S Id starts) s (fun t _ => t = .none) (recordOutcome start)
      fun _ t _ => t = .none := by
  refine triple_write _ (fun i σ => kept_run fun k v hwrite => ?_) fun charged note hnote a => ?_
  · obtain ⟨row, hrow, heq⟩ := Option.map_eq_some_iff.mp hwrite
    obtain ⟨rfl, rfl⟩ := Prod.mk.inj heq
    have hanswered : (row.answered i).periodEnd = row.periodEnd := by
      unfold UsageCharge.answered
      split <;> rfl
    rw [chargeOf] at hrow
    rw [Keeps, hrow]
    exact congrArg some hanswered
  · rw [List.mem_singleton.mp hnote]
    exact ⟨rfl, rfl⟩

theorem triple_closeUsagePeriod {setting : Setting Id} {closing : Closing} :
    Triple (discipline S Id setting.starts) s (fun t _ => t = .none)
      (closeUsagePeriod setting closing) fun _ t _ => t = .none := by
  apply (triple_readContext).bind
  intro context
  split
  · exact triple_pure fun _ _ h => h.1
  · rename_i found start stop hdue
    obtain ⟨context, rfl, hdue⟩ := Option.bind_eq_some_iff.mp hdue
    obtain ⟨period, hdue, heq⟩ := Option.map_eq_some_iff.mp hdue
    cases heq
    obtain ⟨hlt, hlast⟩ := duePeriod_some hdue
    refine Triple.bind ((triple_claimPeriod hlt).conseq (fun t σ h => ⟨h.1, fun hbootstrap => ?_⟩)
      fun _ _ _ h => h) fun claim => ?_
    · cases hend : found.lastPeriodEnd with
      | none => simp [hend] at hbootstrap
      | some e =>
        obtain ⟨a, ha⟩ := h.2 found rfl e hend
        exact ⟨a, hlast e hend ▸ ha⟩
    · split
      · exact triple_pure fun _ _ h => h.1
      · exact triple_pure fun _ _ h => h.1
      · refine Triple.bind (Q := fun _ t _ => t = .none)
          ((triple_createInvoiceItem).conseq
            (fun _ _ h => ⟨h.1, h.2 (Option.some_ne_none _)⟩) fun _ _ _ h => h)
          fun _ => ?_
        exact (triple_recordOutcome).bind fun _ => triple_pure fun _ _ h => h

omit [DecidableEq Id] in
theorem keeps_write {call : Call Id} {rows : Rows Id} {k : Key Id} {v : Row}
    (h : call.write rows = some (k, v)) : Keeps k (rows k) v := by
  cases call with
  | closeUsagePeriod closing => cases h
  | recordSpend id row =>
    simp only [Call.write, Option.ite_none_right_eq_some] at h
    obtain ⟨hnone, h⟩ := h
    obtain ⟨rfl, rfl⟩ := Prod.mk.inj (Option.some.inj h)
    intro row' hrow'
    rw [spendOf, Option.isNone_iff_eq_none] at hnone
    rw [hnone] at hrow'
    cases hrow'
  | reconcile id actualCents =>
    obtain ⟨row, hrow, h⟩ := Option.map_eq_some_iff.mp h
    obtain ⟨rfl, rfl⟩ := Prod.mk.inj h
    intro row' hrow'
    obtain rfl : row = row' := Option.some.inj (hrow.symm.trans hrow')
    exact ⟨_, rfl, rfl⟩
  | change f =>
    obtain ⟨org, _, h⟩ := Option.map_eq_some_iff.mp h
    obtain ⟨rfl, rfl⟩ := Prod.mk.inj h
    trivial
  | editCatalog catalog =>
    obtain ⟨rfl, rfl⟩ := Prod.mk.inj (Option.some.inj h)
    trivial

theorem triple_writeOther {call : Call Id} :
    Triple (discipline S Id starts) s (fun t _ => t = .none) (writeOther call)
      fun _ t _ => t = .none :=
  triple_write (fun _ => []) (fun _ _ => kept_run fun _ _ h => keeps_write h)
    fun _ _ hnote => absurd hnote List.not_mem_nil

/-- Two periods that a row of the ledger was summed up for are one. -/
theorem sums_le_one (h : Consistent starts σ) (id : Id) :
    (σ.log.countP fun note => note.2.sums id) ≤ 1 := by
  by_cases hany : ∃ note ∈ σ.log, note.2.sums id
  · obtain ⟨⟨s', note⟩, hnote, hsums⟩ := hany
    cases note with
    | usagePeriodClosed bootstrapped start stop hadOverage summed =>
      obtain ⟨hstop, hwithin⟩ := h.noted _ _ _ _ _ _ hnote
      obtain ⟨row, hrow, hin⟩ := hwithin id (of_decide_eq_true hsums)
      refine Nat.le_trans (List.countP_mono_left ?_) (h.closed start)
      rintro ⟨s'', other⟩ hother hsums'
      cases other with
      | usagePeriodClosed bootstrapped' start' stop' hadOverage' summed' =>
        obtain ⟨hstop', hwithin'⟩ := h.noted _ _ _ _ _ _ hother
        obtain ⟨row', hrow', hin'⟩ := hwithin' id (of_decide_eq_true hsums')
        obtain rfl : row = row' := Option.some.inj (hrow.symm.trans hrow')
        exact decide_eq_true (h.tiled.unique hstop' hstop hin' hin)
      | createInvoiceItem => cases hsums'
      | usageCharged => cases hsums'
    | createInvoiceItem => cases hsums
    | usageCharged => cases hsums
  · rw [List.countP_eq_zero.mpr fun note hnote hsums => hany ⟨note, hnote, hsums⟩]
    exact Nat.zero_le _

end

/-! ### Runs -/

/-- No period has been closed yet. -/
def noCharges (org : Option Org) (catalog : Catalog) (spend : Id → Option SpendRow) : Rows Id
  | .org => .org org
  | .planPrices => .planPrices catalog
  | .usageCharge _ => .usageCharge none
  | .spend id => .spend (spend id)

/-- **Usage periods tile time and are billed once** where a first period is claimed
only if there is no other, or one ends at its start: each other period begins where
the one before it ends, no two overlap, each row of the ledger is summed up for one
period at most, and one invoice item at most is asked for each. -/
theorem periods_tile {S Id : Type} [DecidableEq S] [DecidableEq Id] {setting : Setting Id}
    {org : Option Org} {catalog : Catalog} {spend : Id → Option SpendRow}
    {sys : System S (Key Id) Row Label Answer (Note Id)}
    (h : StepSystem.ReachableWhen (Script.step (calls setting)) (continues setting.starts).Meets
      (Script.initial (noCharges org catalog spend)) sys) :
    (∀ a b a' b', endOf sys.world.committed a = some b → endOf sys.world.committed a' = some b' →
      a < a' → b ≤ a' ∧ ∃ c, endOf sys.world.committed c = some a') ∧
    (∀ id, (sys.log.countP fun note => note.2.sums id) ≤ 1) ∧
    ∀ start, (sys.log.countP fun note => note.2.requests start) ≤ 1 := by
  have hcalls (c : Call Id) (s : S) (σ : Shared S (Key Id) Row (Note Id)) :
      Safe (discipline S Id setting.starts) s (calls setting c) .none σ := by
    cases c with
    | closeUsagePeriod closing => exact (triple_closeUsagePeriod).safe σ
    | recordSpend | reconcile | change | editCatalog => exact (triple_writeOther).safe σ
  have hnone : endOf (noCharges org catalog spend : Rows Id) = fun _ => none := rfl
  have h0 : Consistent setting.starts (⟨noCharges org catalog spend, []⟩ :
      Shared S (Key Id) Row (Note Id)) := by
    refine ⟨fun a ha => absurd rfl ha, ?_, nofun, fun _ => Nat.zero_le _, fun _ => Nat.le_refl _⟩
    rw [hnone]
    exact PeriodChain.tiled_none
  have hv := (valid_of_reachable discipline_lawful (fun c s σ _ => hcalls c s σ) h0 h).inv
  refine ⟨fun a b a' b' hab hab' haa' => ?_, fun id => ?_, fun start => ?_⟩
  · exact ⟨hv.tiled.disjoint hab hab' haa', hv.tiled.previous hab hab' haa'⟩
  · exact sums_le_one hv id
  · exact Nat.le_trans (hv.requested start) (hv.closed start)

instance {starts : List Int} {rows : Rows Id} {note : Note Id} :
    Decidable (note.Continues starts rows) := by
  unfold Note.Continues
  split <;> infer_instance

instance {starts : List Int} {notes : List (Note Id)} {rows : Rows Id} :
    Decidable ((continues starts).commit notes rows) :=
  inferInstanceAs (Decidable (∀ note ∈ notes, note.Continues starts rows))

instance {starts : List Int} {notes log : List (Note Id)} :
    Decidable ((continues starts).history notes log) :=
  isTrue trivial

instance {starts : List Int} {label : Label} {answer : Answer} {rows : Rows Id}
    {held : Key Id → Bool} : Decidable ((continues starts).statement label answer rows held) :=
  isTrue trivial

/-- An organization whose month ends at `currentPeriodEnd`. -/
def monthly (currentPeriodEnd : Int) : Org where
  billingStatus := .active
  planId := none
  trialEndsAt := none
  billingGraceEndsAt := none
  stripeCustomerId := some "cus_1"
  stripeSubscriptionId := some "sub_1"
  currentPeriodEnd := some currentPeriodEnd
  currentPriceCents := some 1000
  currentPriceInterval := some .month
  cancelAtPeriodEnd := false
  pending := none

/-- Periods that begin on the days 0, 10, 30 and 60, one row of the ledger, and what
exceeds the allowance is charged. -/
def setting : Setting Nat where
  starts := [0, 10 * DAY_MS, 30 * DAY_MS, 60 * DAY_MS]
  ids := [7]
  computeBillableCents usageCents includedCents _ := usageCents - includedCents

def spent : Rows Nat :=
  noCharges (some (monthly (30 * DAY_MS))) ⟨[], []⟩ fun id =>
    if id = 7 then some ⟨20 * DAY_MS, 50, none⟩ else none

def closeAt (now : Int) : Call Nat := .closeUsagePeriod ⟨now, 0, 0⟩

def proceed (s n : Nat) : List (Nat × Script.Input (Call Nat) Answer) :=
  List.replicate n (s, .next ⟨0, .ok "ii_1"⟩)

def monthEnds (sys : System Nat (Key Nat) Row Label Answer (Note Nat)) : List (Option Int) :=
  [0, 10 * DAY_MS, 30 * DAY_MS].map (endOf sys.world.committed)

/-- How many periods the row of the ledger was summed up for. -/
def summedFor (sys : System Nat (Key Nat) Row Label Answer (Note Nat)) : Nat :=
  sys.log.countP fun note => note.2.sums 7

/-- Two workers close two periods, one after the other. -/
theorem periods_tile_two :
    ∃ sys : System Nat (Key Nat) Row Label Answer (Note Nat),
      monthEnds sys = [some (30 * DAY_MS), none, some (60 * DAY_MS)] ∧ summedFor sys ≤ 1 := by
  have hrun : (StepSystem.runWhen (Script.step (calls setting)) (continues setting.starts).Meets
      (Script.initial spent) ((0, .call (closeAt (70 * DAY_MS))) :: proceed 0 9 ++
        (1, .call (closeAt (70 * DAY_MS))) :: proceed 1 6)).map monthEnds =
      some [some (30 * DAY_MS), none, some (60 * DAY_MS)] := by
    decide +kernel
  obtain ⟨sys, hsys, hends⟩ := Option.map_eq_some_iff.mp hrun
  exact ⟨sys, hends, (periods_tile (StepSystem.reachableWhen_of_runWhen hsys)).2.1 7⟩

/-- The current period's end moves between the looks of two workers: two periods
overlap, and what was spent in both is charged twice. -/
theorem periods_overlap :
    ∃ sys : System Nat (Key Nat) Row Label Answer (Note Nat),
      StepSystem.Reachable (Script.step (calls setting)) (Script.initial spent) sys ∧
      monthEnds sys = [some (30 * DAY_MS), some (40 * DAY_MS), none] ∧ summedFor sys = 2 := by
  have hrun : (StepSystem.run (Script.step (calls setting)) (Script.initial spent)
      ((0, .call (closeAt (70 * DAY_MS))) :: proceed 0 3 ++
        (2, .call (.change fun _ => some (monthly (40 * DAY_MS)))) :: proceed 2 2 ++
        (1, .call (closeAt (70 * DAY_MS))) :: proceed 1 9 ++ proceed 0 6)).map
          (fun sys => (monthEnds sys, summedFor sys)) =
      some ([some (30 * DAY_MS), some (40 * DAY_MS), none], 2) := by
    decide +kernel
  obtain ⟨sys, hsys, heq⟩ := Option.map_eq_some_iff.mp hrun
  obtain ⟨hends, hsummed⟩ := Prod.mk.inj heq
  exact ⟨sys, StepSystem.reachable_of_run hsys, hends, hsummed⟩

end UsagePeriods
end TaskFlow
