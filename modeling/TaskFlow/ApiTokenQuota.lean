import TaskFlow.ScriptLogic

/-! # The daily quota of an API token

A token has one row in `api_token_quota`: the day its counters are of, and how
many requests of that day it has admitted, in all and of the expensive class.
One upsert decides a request.  A row of another day starts over with this
request; a row of the same day is incremented below the ceilings.  A request
that was admitted also moves `last_used_at` of the token's row in `api_tokens`,
at most once a minute.

The day of a request is stamped where the request is handled, so requests can
reach the row in another order than that of their days.
-/
namespace TaskFlow
namespace ApiTokenQuota
open ReadCommitted ReadCommitted.Script ReadCommitted.Procedure

variable {Token : Type}

/-- The rows of the two tables. -/
inductive Key (Token : Type) where
  | quota (tokenId : Token)
  | apiToken (tokenId : Token)
  deriving DecidableEq, Repr

structure Quota where
  /-- In days. -/
  quotaDate : Nat
  usedCount : Nat
  expensiveCount : Nat
  deriving DecidableEq, Repr

structure ApiToken where
  /-- In seconds. -/
  lastUsedAt : Option Nat
  deriving DecidableEq, Repr

inductive Row where
  | quota (row : Option Quota)
  | apiToken (row : Option ApiToken)
  deriving DecidableEq, Repr

/-- The row of `api_token_quota`, if there is one. -/
def Row.quota? : Row → Option Quota
  | .quota row => row
  | .apiToken _ => none

inductive QuotaClass where
  | normal
  | expensive
  deriving DecidableEq, Repr

inductive Label (Token : Type) where
  | upsert (tokenId : Token) (today : Nat)
  | touch
  deriving DecidableEq, Repr

/-- How a request ended. -/
inductive Note (Token : Type) where
  | admitted (tokenId : Token) (day : Nat) (quotaClass : QuotaClass)
  | refused (tokenId : Token)
  deriving DecidableEq, Repr

abbrev Procedure (Token α : Type) := ReadCommitted.Procedure (Key Token) Row (Label Token) Unit
  (Note Token) α

def API_TOKEN_DAILY_QUOTA : Nat := 100000

def API_TOKEN_EXPENSIVE_DAILY_QUOTA : Nat := 2000

/-- What the upsert makes of a row. -/
def Quota.consumed (today : Nat) (quotaClass : QuotaClass) : Option Quota → Option Quota
  | none => some ⟨today, 1, if quotaClass = .expensive then 1 else 0⟩
  | some row =>
    if row.quotaDate ≠ today ∨ (row.usedCount < API_TOKEN_DAILY_QUOTA ∧
        (quotaClass ≠ .expensive ∨ row.expensiveCount < API_TOKEN_EXPENSIVE_DAILY_QUOTA)) then
      some {
        usedCount := if row.quotaDate ≠ today then 1 else row.usedCount + 1
        expensiveCount :=
          if row.quotaDate ≠ today then (if quotaClass = .expensive then 1 else 0)
          else if quotaClass = .expensive then row.expensiveCount + 1
          else row.expensiveCount
        quotaDate := today }
    else none

def Row.consumed (today : Nat) (quotaClass : QuotaClass) : Row → Option Row
  | .quota row => (Quota.consumed today quotaClass row).map fun row => .quota (some row)
  | .apiToken _ => none

/-- What the throttled update makes of a row. -/
def Row.touched (now : Nat) : Row → Option Row
  | .apiToken (some row) =>
    if row.lastUsedAt.all (fun lastUsedAt => lastUsedAt + 60 < now) then
      some (.apiToken (some { row with lastUsedAt := some now }))
    else none
  | _ => none

/-- `today` is the day the request is stamped with, `now` the instant at which
its transaction begins. -/
def consumeApiTokenQuota (tokenId : Token) (quotaClass : QuotaClass) (today now : Nat) :
    Procedure Token Bool :=
  transaction do
    let result ← upsert (.upsert tokenId today) (.quota tokenId) fun _ row =>
      row.consumed today quotaClass
    if result.isSome then
      let _ ← update .touch (.apiToken tokenId) fun _ row => row.touched now
      return ([.admitted tokenId today quotaClass], true)
    else
      return ([.refused tokenId], false)

/-- A request. -/
structure Call (Token : Type) where
  tokenId : Token
  quotaClass : QuotaClass
  today : Nat
  now : Nat

def calls (c : Call Token) : Script (Key Token) Row (Label Token) Unit (Note Token) :=
  (consumeApiTokenQuota c.tokenId c.quotaClass c.today c.now).script

/-- No request has been made; `tokens` are the rows of `api_tokens`. -/
def noRequests (tokens : Token → Option ApiToken) : Key Token → Row
  | .quota _ => .quota none
  | .apiToken tokenId => .apiToken (tokens tokenId)

/-- The row an upsert finds is not of a later day than its request. -/
def stampedInOrder : Condition (Key Token) Row (Label Token) Unit (Note Token) where
  statement
    | .upsert tokenId today, _, rows, _ =>
      ∀ row ∈ (rows (.quota tokenId)).quota?, row.quotaDate ≤ today
    | .touch, _, _, _ => True

instance (label : Label Token) (i : Unit) (rows : Key Token → Row) (held : Key Token → Bool) :
    Decidable (stampedInOrder.statement label i rows held) :=
  match label with
  | .upsert tokenId today =>
    inferInstanceAs (Decidable (∀ row ∈ (rows (.quota tokenId)).quota?, row.quotaDate ≤ today))
  | .touch => inferInstanceAs (Decidable True)

instance (notes : List (Note Token)) (rows : Key Token → Row) :
    Decidable (stampedInOrder.commit notes rows) := inferInstanceAs (Decidable True)

instance (notes log : List (Note Token)) :
    Decidable (stampedInOrder.history notes log) := inferInstanceAs (Decidable True)

variable [DecidableEq Token] {S : Type}

/-- How many requests of the token have been admitted for a day. -/
def admitted (log : List (S × Note Token)) (tokenId : Token) (day : Nat) : Nat :=
  (log.map Prod.snd).count (.admitted tokenId day .normal) +
    (log.map Prod.snd).count (.admitted tokenId day .expensive)

/-- How many of them were expensive. -/
def admittedExpensive (log : List (S × Note Token)) (tokenId : Token) (day : Nat) : Nat :=
  (log.map Prod.snd).count (.admitted tokenId day .expensive)

theorem admitted_cons (log : List (S × Note Token)) (s : S) (tokenId other : Token)
    (today day : Nat) (quotaClass : QuotaClass) :
    admitted ((s, .admitted tokenId today quotaClass) :: log) other day =
      admitted log other day + if tokenId = other ∧ today = day then 1 else 0 := by
  cases quotaClass <;> simp [admitted, List.count_cons] <;> split <;> omega

theorem admittedExpensive_cons (log : List (S × Note Token)) (s : S) (tokenId other : Token)
    (today day : Nat) (quotaClass : QuotaClass) :
    admittedExpensive ((s, .admitted tokenId today quotaClass) :: log) other day =
      admittedExpensive log other day +
        if (tokenId = other ∧ today = day) ∧ quotaClass = .expensive then 1 else 0 := by
  cases quotaClass <;> simp [admittedExpensive, List.count_cons]

@[simp] theorem admitted_refused (log : List (S × Note Token)) (s : S) (tokenId other : Token)
    (day : Nat) : admitted ((s, .refused tokenId) :: log) other day = admitted log other day := by
  simp [admitted]

@[simp] theorem admittedExpensive_refused (log : List (S × Note Token)) (s : S)
    (tokenId other : Token) (day : Nat) :
    admittedExpensive ((s, .refused tokenId) :: log) other day =
      admittedExpensive log other day := by
  simp [admittedExpensive]

theorem admittedExpensive_le (log : List (S × Note Token)) (tokenId : Token) (day : Nat) :
    admittedExpensive log tokenId day ≤ admitted log tokenId day := Nat.le_add_left _ _

/-! ### What a row counts -/

/-- A row counts what was admitted for its day; nothing was admitted for a
later one. -/
structure Counts (log : List (S × Note Token)) (tokenId : Token) (row : Option Quota) : Prop where
  used : ∀ q, row = some q → q.usedCount = admitted log tokenId q.quotaDate
  expensive : ∀ q, row = some q → q.expensiveCount = admittedExpensive log tokenId q.quotaDate
  later : ∀ day, (∀ q, row = some q → q.quotaDate < day) → admitted log tokenId day = 0
  within : ∀ day, admitted log tokenId day ≤ API_TOKEN_DAILY_QUOTA
  withinExpensive : ∀ day, admittedExpensive log tokenId day ≤ API_TOKEN_EXPENSIVE_DAILY_QUOTA

variable {log : List (S × Note Token)} {tokenId : Token} {row : Option Quota} {today : Nat}
  {quotaClass : QuotaClass}

theorem Counts.of_eq {log' : List (S × Note Token)} (h : Counts log tokenId row)
    (hall : ∀ day, admitted log' tokenId day = admitted log tokenId day)
    (hexpensive : ∀ day, admittedExpensive log' tokenId day = admittedExpensive log tokenId day) :
    Counts log' tokenId row where
  used q hq := by rw [hall, h.used q hq]
  expensive q hq := by rw [hexpensive, h.expensive q hq]
  later day hday := by rw [hall, h.later day hday]
  within day := by rw [hall]; exact h.within day
  withinExpensive day := by rw [hexpensive]; exact h.withinExpensive day

omit [DecidableEq Token] in
/-- A row is begun anew on another day, and incremented on the same. -/
theorem Quota.consumed_cases {row' : Quota} (h : Quota.consumed today quotaClass row = some row') :
    ((∀ q, row = some q → q.quotaDate ≠ today) ∧
      row' = ⟨today, 1, if quotaClass = .expensive then 1 else 0⟩) ∨
    ∃ q, row = some q ∧ q.quotaDate = today ∧ q.usedCount < API_TOKEN_DAILY_QUOTA ∧
      (quotaClass = .expensive → q.expensiveCount < API_TOKEN_EXPENSIVE_DAILY_QUOTA) ∧
      row' = ⟨today, q.usedCount + 1,
        q.expensiveCount + if quotaClass = .expensive then 1 else 0⟩ := by
  cases row with
  | none => exact Or.inl ⟨by simp, (Option.some.inj h).symm⟩
  | some q =>
    simp only [Quota.consumed, Option.ite_none_right_eq_some, Option.some.injEq] at h
    obtain ⟨hcase, rfl⟩ := h
    by_cases hsame : q.quotaDate = today
    · obtain ⟨hlt, hclass⟩ := hcase.resolve_left (by simp [hsame])
      refine Or.inr ⟨q, rfl, hsame, hlt, fun h => hclass.resolve_left (by simp [h]), ?_⟩
      cases quotaClass <;> simp [hsame]
    · exact Or.inl ⟨by simpa using hsame, by simp [hsame]⟩

/-- The counters that a request of the row's day or a later one leaves are those
of its day, and within the ceilings. -/
theorem Counts.consumed (h : Counts log tokenId row) {row' : Quota}
    (horder : ∀ q, row = some q → q.quotaDate ≤ today)
    (hrow : Quota.consumed today quotaClass row = some row') :
    row'.quotaDate = today ∧ row'.usedCount = admitted log tokenId today + 1 ∧
      row'.expensiveCount = admittedExpensive log tokenId today +
        (if quotaClass = .expensive then 1 else 0) ∧
      row'.usedCount ≤ API_TOKEN_DAILY_QUOTA ∧
      row'.expensiveCount ≤ API_TOKEN_EXPENSIVE_DAILY_QUOTA := by
  rcases Quota.consumed_cases hrow with ⟨hother, rfl⟩ | ⟨q, rfl, rfl, hlt, hexpensive, rfl⟩
  · have hnone := h.later today fun q hq => Nat.lt_of_le_of_ne (horder q hq) (hother q hq)
    have hnoneExpensive : admittedExpensive log tokenId today = 0 :=
      Nat.le_zero.mp (hnone ▸ admittedExpensive_le log tokenId today)
    rw [hnone, hnoneExpensive]
    have hone : 1 ≤ API_TOKEN_DAILY_QUOTA ∧ 1 ≤ API_TOKEN_EXPENSIVE_DAILY_QUOTA := by decide
    refine ⟨rfl, rfl, (Nat.zero_add _).symm, hone.1, ?_⟩
    cases quotaClass with
    | normal => exact Nat.zero_le _
    | expensive => exact hone.2
  · have hwithin := h.withinExpensive q.quotaDate
    rw [← h.expensive q rfl] at hwithin ⊢
    rw [← h.used q rfl]
    refine ⟨rfl, rfl, rfl, Nat.succ_le_of_lt hlt, ?_⟩
    cases quotaClass with
    | normal => exact hwithin
    | expensive => exact Nat.succ_le_of_lt (hexpensive rfl)

theorem Counts.admit (h : Counts log tokenId row) {row' : Quota} (s : S)
    (horder : ∀ q, row = some q → q.quotaDate ≤ today)
    (hrow : Quota.consumed today quotaClass row = some row') :
    Counts ((s, .admitted tokenId today quotaClass) :: log) tokenId (some row') := by
  obtain ⟨hdate, hused, hexpensive, hlimit, hlimitExpensive⟩ := h.consumed horder hrow
  refine ⟨fun q hq => ?_, fun q hq => ?_, fun day hday => ?_, fun day => ?_, fun day => ?_⟩
  · obtain rfl := Option.some.inj hq
    simp [admitted_cons, hdate, hused]
  · obtain rfl := Option.some.inj hq
    simp [admittedExpensive_cons, hdate, hexpensive]
  · have hlt := hday row' rfl
    rw [hdate] at hlt
    have hnone := h.later day fun q hq => Nat.lt_of_le_of_lt (horder q hq) hlt
    simp [admitted_cons, hnone, Nat.ne_of_lt hlt]
  · rw [admitted_cons]
    by_cases hday : today = day
    · subst hday
      simpa [← hused] using hlimit
    · simpa [hday] using h.within day
  · rw [admittedExpensive_cons]
    by_cases hday : today = day
    · subst hday
      simpa [← hexpensive] using hlimitExpensive
    · simpa [hday] using h.withinExpensive day

/-! ### The discipline -/

/-- Each token's row counts what was admitted, and a refusal writes nothing. -/
def discipline (S : Type) :
    Discipline S (Key Token) Row (Label Token) Unit (Note Token) where
  inv σ := ∀ tokenId, ∃ row, σ.rows (.quota tokenId) = .quota row ∧ Counts σ.log tokenId row
  guarantee _ notes _ σ σ' := ∀ tokenId, .refused tokenId ∈ notes → σ'.rows = σ.rows
  rely _ own σ σ' := ∀ k, own k → σ'.rows k = σ.rows k
  condition := stampedInOrder

theorem discipline_lawful : (discipline S : Discipline S (Key Token) _ _ _ _).Lawful where
  refl _ _ _ _ _ := rfl
  trans h h' k hk := (h' k hk).trans (h k hk)
  rely _ _ hrows _ _ _ := hrows

variable {s : S} {t : Transaction (Key Token) Row} {σ : Shared S (Key Token) Row (Note Token)}

/-- The upsert has admitted the request and no other row of `api_token_quota`
has been written. -/
structure Admitted (tokenId : Token) (today : Nat) (quotaClass : QuotaClass)
    (t : Transaction (Key Token) Row) (σ : Shared S (Key Token) Row (Note Token)) : Prop where
  own : t.own (.quota tokenId)
  row : ∃ row row', σ.rows (.quota tokenId) = .quota row ∧
    (∀ q, row = some q → q.quotaDate ≤ today) ∧
    Quota.consumed today quotaClass row = some row' ∧
    t.view σ (.quota tokenId) = .quota (some row')
  other : ∀ other, other ≠ tokenId → .quota other ∉ t.pending.map Prod.fst

theorem Admitted.stable : Stable (discipline S) s (Admitted tokenId today quotaClass) := by
  intro t σ σ' h hrely _
  refine ⟨h.own, ?_, h.other⟩
  obtain ⟨row, row', hrow, hrest⟩ := h.row
  have hsame := hrely _ h.own
  exact ⟨row, row', hsame.trans hrow, hrest.1, hrest.2.1,
    (overlay_congr hsame).trans hrest.2.2⟩

theorem Admitted.inv (h : Admitted tokenId today quotaClass t σ) (hinv : (discipline S).inv σ) :
    (discipline S).inv (σ.commit s t [.admitted tokenId today quotaClass]) := by
  intro other
  obtain ⟨row, hrow, hcounts⟩ := hinv other
  by_cases hother : other = tokenId
  · subst hother
    obtain ⟨row', row'', hrow', horder, hconsumed, hview⟩ := h.row
    obtain rfl := Row.quota.inj (hrow.symm.trans hrow')
    exact ⟨some row'', hview, hcounts.admit s horder hconsumed⟩
  · refine ⟨row, (overlay_of_notMem (h.other other hother) _).trans hrow, ?_⟩
    refine hcounts.of_eq (fun day => ?_) fun day => ?_
    · exact (admitted_cons ..).trans (by simp [Ne.symm hother])
    · exact (admittedExpensive_cons ..).trans (by simp [Ne.symm hother])

theorem inv_refused {f : Row → Option Row} (hinv : (discipline S).inv σ)
    (h : Rewritten (.quota tokenId) f none t σ) :
    (discipline S).inv (σ.commit s t [.refused tokenId]) := by
  intro other
  obtain ⟨row, hrow, hcounts⟩ := hinv other
  refine ⟨row, (congrFun h.view_none _).trans hrow, ?_⟩
  exact hcounts.of_eq (fun day => admitted_refused ..) fun day => admittedExpensive_refused ..

/-- A decided request, before its transaction commits. -/
def Decided (tokenId : Token) (today : Nat) (quotaClass : QuotaClass) :
    List (Note Token) × Bool → Assertion S (Key Token) Row (Note Token) := fun r t σ =>
  (r.1 = [.admitted tokenId today quotaClass] ∧ Admitted tokenId today quotaClass t σ) ∨
  (r.1 = [.refused tokenId] ∧
    Rewritten (.quota tokenId) (Row.consumed today quotaClass) none t σ)

theorem decided_stable (r : List (Note Token) × Bool) :
    Stable (discipline S) s (Decided tokenId today quotaClass r) := by
  have hrefused : Stable (discipline S) s
      (Rewritten (.quota tokenId) (Row.consumed today quotaClass) none) :=
    rewritten_stable fun own σ σ' hown h => h _ hown
  rintro t σ σ' (⟨hr, h⟩ | ⟨hr, h⟩) hrely hinv'
  · exact Or.inl ⟨hr, Admitted.stable t σ σ' h hrely hinv'⟩
  · exact Or.inr ⟨hr, hrefused t σ σ' h hrely hinv'⟩

theorem triple_admit :
    Triple (discipline S) s (fun t _ => t = .none)
      (upsert (.upsert tokenId today) (.quota tokenId) fun _ row => row.consumed today quotaClass)
      fun result t σ => match result with
        | some _ => Admitted tokenId today quotaClass t σ
        | none => Rewritten (.quota tokenId) (Row.consumed today quotaClass) none t σ := by
  refine triple_upsert stable_none ?_ ?_
  · rintro t σ i held v rfl hinv hf _ horder
    obtain ⟨row, hrow, _⟩ := hinv tokenId
    rw [Transaction.view_none, hrow] at hf
    obtain ⟨row', hconsumed, rfl⟩ := Option.map_eq_some_iff.mp hf
    refine ⟨by simp, ⟨row, row', hrow, fun q hq => horder q ?_, hconsumed, ?_⟩, fun other hother => ?_⟩
    · rw [Transaction.view_none, hrow, hq]
      rfl
    · simp
    · simp [Transaction.none, hother]
  · rintro t σ i held rfl _ hf _
    exact ⟨by simp, rfl, hf⟩

theorem triple_touch {now : Nat} :
    Triple (discipline S) s (Admitted tokenId today quotaClass)
      (update .touch (.apiToken tokenId) fun _ row => row.touched now)
      fun _ => Admitted tokenId today quotaClass := by
  refine triple_update Admitted.stable ?_ fun t σ i held h _ _ _ => h
  intro t σ i held v h _ _ _ _
  obtain ⟨row, row', hrow, horder, hconsumed, hview⟩ := h.row
  refine ⟨Or.inl h.own, ⟨row, row', hrow, horder, hconsumed, ?_⟩, fun other hother => ?_⟩
  · rw [Transaction.view_run, overlay_of_notMem (by simp), hview]
  · simpa using h.other other hother

theorem triple_consume {now : Nat} :
    Triple (discipline S) s (fun t _ => t = .none)
      (consumeApiTokenQuota tokenId quotaClass today now) fun _ t _ => t = .none := by
  refine triple_transaction (R := Decided tokenId today quotaClass) ?_ decided_stable ?_
  · apply ( triple_admit).bind
    intro result
    cases result with
    | some row =>
      exact (triple_touch).bind fun _ => triple_pure fun t σ h => Or.inl ⟨rfl, h⟩
    | none => exact triple_pure fun t σ h => Or.inr ⟨rfl, h⟩
  · rintro ⟨notes, consumed⟩ t σ (⟨rfl, h⟩ | ⟨rfl, h⟩) hinv _
    · exact ⟨h.inv hinv, fun other hmem => by simp at hmem, rfl⟩
    · exact ⟨inv_refused hinv h, fun _ _ => h.view_none, rfl⟩

/-! ### Runs -/

theorem valid [DecidableEq S] {tokens : Token → Option ApiToken}
    {sys : System S (Key Token) Row (Label Token) Unit (Note Token)}
    (h : StepSystem.ReachableWhen (Script.step calls) stampedInOrder.Meets
      (Script.initial (noRequests tokens)) sys) : Valid (discipline S) sys := by
  have hcalls (c : Call Token) (s : S) (σ : Shared S (Key Token) Row (Note Token)) :
      Safe (discipline S) s (calls c) .none σ := (triple_consume).safe σ
  refine valid_of_reachable discipline_lawful (fun c s σ _ => hcalls c s σ)
    (fun tokenId => ⟨none, rfl, ?_⟩) h
  exact ⟨by simp, by simp, by simp [admitted], by simp [admitted],
    by simp [admittedExpensive]⟩

/-- **A day's requests never exceed the ceilings** where no upsert finds the row
of a later day, and a refused request writes nothing. -/
theorem admitted_le_quota {S Token : Type} [DecidableEq S] [DecidableEq Token]
    {tokens : Token → Option ApiToken}
    {sys : System S (Key Token) Row (Label Token) Unit (Note Token)}
    (h : StepSystem.ReachableWhen (Script.step calls) stampedInOrder.Meets
      (Script.initial (noRequests tokens)) sys) :
    (∀ tokenId day, admitted sys.log tokenId day ≤ API_TOKEN_DAILY_QUOTA ∧
      admittedExpensive sys.log tokenId day ≤ API_TOKEN_EXPENSIVE_DAILY_QUOTA) ∧
    ∀ s input sys' tokenId, Script.step calls sys (s, input) = some sys' →
      sys'.log = (s, .refused tokenId) :: sys.log →
      sys'.world.committed = sys.world.committed := by
  have hv := valid h
  refine ⟨fun tokenId day => ?_, fun s input sys' tokenId hstep hlog => ?_⟩
  · obtain ⟨row, _, hcounts⟩ := hv.inv tokenId
    exact ⟨hcounts.within day, hcounts.withinExpensive day⟩
  · exact hv.guarantee_of_note discipline_lawful trivial trivial hstep hlog tokenId
      (List.mem_singleton_self _)

/-- Two requests of one day, the second before the first has committed. -/
theorem admitted_le_quota_two :
    ∃ sys : System Bool (Key String) Row (Label String) Unit (Note String),
      sys.log = [(false, .admitted "t1" 20000 .expensive), (true, .admitted "t1" 20000 .normal)] ∧
      admitted sys.log "t1" 20000 ≤ API_TOKEN_DAILY_QUOTA := by
  have hrun : (StepSystem.runWhen (Script.step (S := Bool) (@calls String))
      stampedInOrder.Meets (Script.initial (noRequests fun _ => some ⟨none⟩))
      [(true, .call ⟨"t1", .normal, 20000, 5⟩), (true, .next ()),
        (false, .call ⟨"t1", .expensive, 20000, 5⟩), (true, .next ()), (true, .next ()),
        (false, .next ()), (false, .next ()), (false, .next ())]).map (·.log) =
      some [(false, .admitted "t1" 20000 .expensive), (true, .admitted "t1" 20000 .normal)] := by
    decide
  obtain ⟨sys, hsys, hlog⟩ := Option.map_eq_some_iff.mp hrun
  obtain ⟨hwithin, _⟩ := admitted_le_quota (StepSystem.reachableWhen_of_runWhen hsys)
  exact ⟨sys, hlog, (hwithin _ _).1⟩

/-! ### A request of the day before -/

/-- A request made while no other is under way, of a token without a row in
`api_tokens`. -/
theorem alone_admitted {rows : Key Token → Row} {c : Call Token} {row' : Quota}
    (hrow : rows (.quota c.tokenId) = .quota row)
    (htoken : rows (.apiToken c.tokenId) = .apiToken none)
    (hconsumed : Quota.consumed c.today c.quotaClass row = some row') :
    (calls c).alone () true [] rows =
      some (Function.update rows (.quota c.tokenId) (.quota (some row')),
        [.admitted c.tokenId c.today c.quotaClass]) := by
  have hfirst : (rows (.quota c.tokenId)).consumed c.today c.quotaClass =
      some (.quota (some row')) := by
    simp [Row.consumed, hrow, hconsumed]
  have hsecond : (rows (.apiToken c.tokenId)).touched c.now = none := by
    simp [htoken, Row.touched]
  simp only [calls, consumeApiTokenQuota, Procedure.script, transaction, bind, upsert, update,
    Procedure.statement, alone, overlay_nil, hfirst]
  simp [alone, pure, hfirst, hsecond]

/-- What is left when requests of one token have come one after another. -/
structure After (sys : System S (Key Token) Row (Label Token) Unit (Note Token))
    (tokenId : Token) (row : Option Quota) (day count : Nat) : Prop where
  quiet : Quiet sys
  row : sys.world.committed (.quota tokenId) = .quota row
  token : sys.world.committed (.apiToken tokenId) = .apiToken none
  admitted : admitted sys.log tokenId day = count

theorem After.request [DecidableEq S] (s : S) {c : Call Token} {row' : Quota} {day count : Nat}
    {sys : System S (Key Token) Row (Label Token) Unit (Note Token)}
    (h : After sys c.tokenId row day count)
    (hconsumed : Quota.consumed c.today c.quotaClass row = some row') :
    ∃ sys', StepSystem.Reachable (Script.step calls) sys sys' ∧
      After sys' c.tokenId (some row') day (count + if c.today = day then 1 else 0) := by
  obtain ⟨sys', hreach, hquiet, hrows, hlog⟩ :=
    reachable_alone h.quiet () s c (alone_admitted h.row h.token hconsumed)
  refine ⟨sys', hreach, hquiet, ?_, ?_, ?_⟩
  · simp [hrows]
  · simp [hrows, h.token]
  · simp [hlog, admitted_cons, h.admitted]

/-- As many requests of a day as the quota allows, and one of the next. -/
theorem exists_after_full [DecidableEq S] (s : S) (tokenId : Token) (n : Nat)
    (hn : n < API_TOKEN_DAILY_QUOTA) :
    ∃ sys : System S (Key Token) Row (Label Token) Unit (Note Token),
      StepSystem.Reachable (Script.step calls) (Script.initial (noRequests fun _ => none)) sys ∧
      After sys tokenId (some ⟨0, n + 1, 0⟩) 0 (n + 1) := by
  induction n with
  | zero =>
    have hinitial : After (S := S) (Script.initial (noRequests fun _ => none)) tokenId none 0 0 :=
      ⟨quiet_initial _, rfl, rfl, rfl⟩
    exact hinitial.request s (c := ⟨tokenId, .normal, 0, 0⟩) rfl
  | succ n ih =>
    obtain ⟨sys, hreach, hafter⟩ := ih (Nat.lt_of_succ_lt hn)
    have hconsumed : Quota.consumed 0 .normal (some ⟨0, n + 1, 0⟩) = some ⟨0, n + 1 + 1, 0⟩ := by
      simp [Quota.consumed, hn]
    obtain ⟨sys', hreach', hafter'⟩ :=
      After.request s (c := ⟨tokenId, .normal, 0, 0⟩) hafter hconsumed
    exact ⟨sys', hreach.trans hreach', hafter'⟩

/-- A request of the next day starts the row over, and a late one of the full day
starts it over once more: the day has admitted one request too many. -/
theorem quota_exceeded :
    ∃ sys : System Unit (Key String) Row (Label String) Unit (Note String),
      StepSystem.Reachable (Script.step calls) (Script.initial (noRequests fun _ => none)) sys ∧
      admitted sys.log "t1" 0 = API_TOKEN_DAILY_QUOTA + 1 := by
  obtain ⟨full, hreach, hfull⟩ := exists_after_full () "t1" 99999 (by decide)
  obtain ⟨next, hreach', hnext⟩ := hfull.request () (c := ⟨"t1", .normal, 1, 0⟩) rfl
  obtain ⟨late, hreach'', hlate⟩ := hnext.request () (c := ⟨"t1", .normal, 0, 0⟩) rfl
  exact ⟨late, (hreach.trans hreach').trans hreach'', hlate.admitted⟩

end ApiTokenQuota
end TaskFlow
