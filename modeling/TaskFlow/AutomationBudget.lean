import TaskFlow.ScriptLogic

/-! # The hourly execution budget of automations

Rows of `automation_budget`, one for each organization and hour.  A consumption
is one upsert: the insert grants the first execution of the hour, the conflict
branch increments below the limit, and where its WHERE fails no row is returned
and the execution is refused.  Either way the row stays locked to the end of
the transaction.
-/
namespace TaskFlow
namespace AutomationBudget
open ReadCommitted ReadCommitted.Script ReadCommitted.Procedure

variable {Org : Type}

/-- The key of a row: the organization and the truncated hour. -/
structure Bucket (Org : Type) where
  orgId : Org
  windowHour : Nat
  deriving DecidableEq, Repr

inductive Label where
  | upsert
  deriving DecidableEq, Repr

/-- How a consumption ended. -/
inductive Note (Org : Type) where
  | granted (bucket : Bucket Org)
  | refused (bucket : Bucket Org)
  deriving DecidableEq, Repr

abbrev Procedure (Org α : Type) := ReadCommitted.Procedure (Bucket Org) (Option Nat) Label Unit
  (Note Org) α

def HOURLY_EXECUTION_BUDGET : Nat := 1000

/-- `date_trunc('hour', now())`, in hours; `now` is in seconds. -/
def windowHour (now : Nat) : Nat := now / 3600

/-- What the upsert makes of a row. -/
def incremented (limit : Nat) : Option Nat → Option (Option Nat)
  | none => some (some 1)
  | some executions => if executions < limit then some (some (executions + 1)) else none

def consumeAutomationBudget (orgId : Org) (limit : Nat) (now : Nat) : Procedure Org Bool :=
  transaction do
    let result ← upsert .upsert ⟨orgId, windowHour now⟩ fun _ row => incremented limit row
    return ([if result.isSome then .granted ⟨orgId, windowHour now⟩
      else .refused ⟨orgId, windowHour now⟩], result.isSome)

/-- The engine's check before it executes a rule. -/
def consumeExecutionBudget (orgId : Org) (now : Nat) : Procedure Org Bool :=
  consumeAutomationBudget orgId HOURLY_EXECUTION_BUDGET now

/-- A consumption: by which organization, and when its transaction begins. -/
structure Call (Org : Type) where
  orgId : Org
  now : Nat

/-- Consumptions under a limit. -/
def calls (limit : Nat) (c : Call Org) : Script (Bucket Org) (Option Nat) Label Unit (Note Org) :=
  (consumeAutomationBudget c.orgId limit c.now).script

variable [DecidableEq Org]

/-- How many executions of the bucket have been granted. -/
def grants {S : Type} (log : List (S × Note Org)) (bucket : Bucket Org) : Nat :=
  (log.map Prod.snd).count (.granted bucket)

/-! ### The discipline -/

section
variable {S : Type}

/-- A bucket counts its grants, and a refusal finds the limit reached. -/
def discipline (S : Type) (limit : Nat) :
    Discipline S (Bucket Org) (Option Nat) Label Unit (Note Org) where
  inv σ := ∀ bucket, (σ.rows bucket).getD 0 = grants σ.log bucket ∧ grants σ.log bucket ≤ limit
  guarantee _ notes _ σ σ' := ∀ bucket, .refused bucket ∈ notes →
    σ'.rows = σ.rows ∧ limit ≤ grants σ.log bucket
  rely _ own σ σ' := ∀ bucket, own bucket → σ'.rows bucket = σ.rows bucket
  condition := {}

theorem discipline_lawful (limit : Nat) :
    (discipline S limit : Discipline S (Bucket Org) _ _ _ _).Lawful where
  refl _ _ _ _ _ := rfl
  trans h h' bucket hown := (h' bucket hown).trans (h bucket hown)
  rely _ _ hrows _ _ _ := hrows

variable {limit : Nat}

@[simp] theorem grants_granted (log : List (S × Note Org)) (s : S) (bucket other : Bucket Org) :
    grants ((s, .granted bucket) :: log) other =
      grants log other + if bucket = other then 1 else 0 := by
  simp [grants, List.count_cons]

@[simp] theorem grants_refused (log : List (S × Note Org)) (s : S) (bucket other : Bucket Org) :
    grants ((s, .refused bucket) :: log) other = grants log other := by
  simp [grants]

omit [DecidableEq Org] in
/-- A row is incremented where it counts fewer executions than the limit. -/
theorem incremented_eq_some (hlimit : 0 < limit) {row row' : Option Nat}
    (h : incremented limit row = some row') :
    row' = some (row.getD 0 + 1) ∧ row.getD 0 < limit := by
  cases row with
  | none =>
    obtain rfl := Option.some.inj h
    exact ⟨rfl, hlimit⟩
  | some executions =>
    simp only [incremented, Option.ite_none_right_eq_some, Option.some.injEq] at h
    obtain ⟨hlt, rfl⟩ := h
    exact ⟨rfl, hlt⟩

omit [DecidableEq Org] in
theorem incremented_eq_none {row : Option Nat} (h : incremented limit row = none) :
    limit ≤ row.getD 0 := by
  cases row with
  | none => cases h
  | some executions => simpa [incremented] using h

variable {s : S} {bucket : Bucket Org} {t : Transaction (Bucket Org) (Option Nat)}
  {σ : Shared S (Bucket Org) (Option Nat) (Note Org)}

theorem inv_granted {row : Option Nat} (hlimit : 0 < limit) (hinv : (discipline S limit).inv σ)
    (h : Rewritten bucket (incremented limit) (some row) t σ) :
    (discipline S limit).inv (σ.commit s t [.granted bucket]) := by
  obtain ⟨rfl, hlt⟩ := incremented_eq_some hlimit h.row
  intro other
  change ((t.view σ) other).getD 0 = grants ((s, .granted bucket) :: σ.log) other ∧
    grants ((s, .granted bucket) :: σ.log) other ≤ limit
  rw [grants_granted, h.view]
  by_cases hb : other = bucket
  · subst hb
    rw [(hinv other).1] at hlt
    simpa [(hinv other).1] using Nat.succ_le_of_lt hlt
  · simpa [hb, Ne.symm hb] using hinv other

theorem inv_refused (hinv : (discipline S limit).inv σ)
    (h : Rewritten bucket (incremented limit) none t σ) :
    (discipline S limit).inv (σ.commit s t [.refused bucket]) := by
  intro other
  change ((t.view σ) other).getD 0 = grants ((s, .refused bucket) :: σ.log) other ∧
    grants ((s, .refused bucket) :: σ.log) other ≤ limit
  rw [grants_refused, h.view_none]
  exact hinv other

theorem triple_consume (hlimit : 0 < limit) (orgId : Org) (now : Nat) :
    Triple (discipline S limit) s (fun t _ => t = .none)
      (consumeAutomationBudget orgId limit now) fun _ t _ => t = .none := by
  refine triple_transaction_noted (R := Rewritten ⟨orgId, windowHour now⟩ (incremented limit))
    triple_upsert_first (fun _ => rewritten_stable fun own σ σ' hown h => h _ hown) ?_
  rintro (_ | row) t σ h hinv _
  · refine ⟨inv_refused hinv h, fun other hmem => ⟨h.view_none, ?_⟩, rfl⟩
    obtain rfl : other = _ := by simpa using hmem
    rw [← (hinv _).1]
    exact incremented_eq_none h.row
  · exact ⟨inv_granted hlimit hinv h, fun other hmem => by simp at hmem, rfl⟩

end

/-! ### Runs -/

section
variable {S : Type} [DecidableEq S] {limit : Nat}
  {sys : System S (Bucket Org) (Option Nat) Label Unit (Note Org)}

theorem valid (hlimit : 0 < limit)
    (h : StepSystem.Reachable (Script.step (calls limit)) (Script.initial fun _ => none) sys) :
    Valid (discipline S limit) sys := by
  have hcalls (c : Call Org) (s : S) (σ : Shared S (Bucket Org) (Option Nat) (Note Org)) :
      Safe (discipline S limit) s (calls limit c) .none σ :=
    (triple_consume hlimit c.orgId c.now).safe σ
  refine valid_of_reachable (discipline_lawful limit) (fun c s σ _ => hcalls c s σ)
    (fun bucket => ?_) (h.mono fun sys a _ => meets_default sys a)
  exact ⟨rfl, Nat.zero_le _⟩

end

/-- **An hour's executions never exceed the limit**, a refusal changes no row,
and it finds as many executions granted as the limit allows. -/
theorem grants_le_limit {S Org : Type} [DecidableEq S] [DecidableEq Org] {limit : Nat}
    (hlimit : 0 < limit) {sys : System S (Bucket Org) (Option Nat) Label Unit (Note Org)}
    (h : StepSystem.Reachable (Script.step (calls limit)) (Script.initial fun _ => none) sys) :
    (∀ bucket, grants sys.log bucket ≤ limit) ∧
    ∀ s input sys' bucket, Script.step (calls limit) sys (s, input) = some sys' →
      sys'.log = (s, .refused bucket) :: sys.log →
      sys'.world.committed = sys.world.committed ∧ limit ≤ grants sys.log bucket := by
  have hv := valid hlimit h
  refine ⟨fun bucket => (hv.inv bucket).2, fun s input sys' bucket hstep hlog => ?_⟩
  exact hv.guarantee_of_note (discipline_lawful limit) trivial trivial hstep hlog bucket
    (List.mem_singleton_self _)

/-- Two rules of one organization ask in one hour with a limit of one. -/
theorem grants_le_limit_one :
    ∃ sys sys' : System Bool (Bucket String) (Option Nat) Label Unit (Note String),
      sys.log = [(true, .granted ⟨"o1", 0⟩)] ∧ grants sys.log ⟨"o1", 0⟩ ≤ 1 ∧
      sys'.log = (false, .refused ⟨"o1", 0⟩) :: sys.log ∧
      sys'.world.committed = sys.world.committed ∧ 1 ≤ grants sys.log ⟨"o1", 0⟩ := by
  have hrun : (StepSystem.run (Script.step (S := Bool) (@calls String 1))
      (Script.initial fun _ => none)
      [(true, .call ⟨"o1", 60⟩), (false, .call ⟨"o1", 90⟩), (true, .next ()), (true, .next ()),
        (false, .next ())]).map
      (fun sys => (sys.log, (Script.step (calls 1) sys (false, .next ())).map (·.log))) =
      some ([(true, .granted ⟨"o1", 0⟩)],
        some [(false, .refused ⟨"o1", 0⟩), (true, .granted ⟨"o1", 0⟩)]) := by
    decide
  obtain ⟨sys, hsys, hpair⟩ := Option.map_eq_some_iff.mp hrun
  obtain ⟨hlog, hnext⟩ := Prod.mk.inj hpair
  obtain ⟨sys', hsys', hlog'⟩ := Option.map_eq_some_iff.mp hnext
  rw [← hlog] at hlog'
  obtain ⟨hgrants, hrefused⟩ := grants_le_limit Nat.one_pos (StepSystem.reachable_of_run hsys)
  obtain ⟨hrows, hle⟩ := hrefused _ _ _ _ hsys' hlog'
  exact ⟨sys, sys', hlog, hgrants _, hlog', hrows, hle⟩

end AutomationBudget
end TaskFlow
