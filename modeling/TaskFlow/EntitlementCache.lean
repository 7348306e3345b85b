import Mathlib.Logic.Function.Basic
import Mathlib.Order.Lattice
import TaskFlow.StepSystem

/-! # The cache of entitlements

`getEntitlements` keeps what an organization's plan and override come to for `CACHE_TTL_MS`, and
lets calls that come while it is being loaded share one load.  Whoever changes the plan or the
override drops the organization's entry; but a load that is under way is not dropped, and puts what
it has read into the cache when it is done.

Where no load that has begun to read before a change is under way when the entry is dropped, no call
that begins after it gets anything from before the change (`coherent_of_quiet`).
-/
namespace TaskFlow
namespace EntitlementCache

abbrev OrgId := String

abbrev PlanId := String

abbrev FlagName := String

/-! ### What an organization is entitled to -/

/-- Ceilings: `none` is no opinion, `some none` is unlimited. -/
structure Limits where
  telephonyCapCents : Option (Option Int)
  automationRunsPerHour : Option (Option Int)
  turnIssuancePerDay : Option (Option Int)
  telephonyIncludedCents : Option Int
  telephonyMarkupPct : Option Int
  aiTokenBudgetMonthlyCents : Option (Option Int)
  deriving DecidableEq, Repr

inductive Source where
  | plan
  | override
  deriving DecidableEq, Repr

/-- What is granted or taken away, the last first, and by what. -/
structure Entitlements where
  features : List (FlagName × Bool × Source)
  limits : Limits
  deriving DecidableEq, Repr

/-- The ceilings of a plan or an override; null is no opinion of theirs. -/
structure Ceilings where
  telephonyCapCents : Option Int
  automationRunsPerHour : Option Int
  turnIssuancePerDay : Option Int
  telephonyIncludedCents : Option Int
  telephonyMarkupPct : Option Int
  aiTokenBudgetMonthlyCents : Option Int
  deriving DecidableEq, Repr

structure Plan where
  features : List FlagName
  ceilings : Ceilings
  deriving DecidableEq, Repr

structure OrgEntitlement where
  featuresAdd : List FlagName
  featuresRemove : List FlagName
  ceilings : Ceilings
  expiresAt : Option Int
  deriving DecidableEq, Repr

def EMPTY : Entitlements := ⟨[], ⟨none, none, none, none, none, none⟩⟩

/-- `a ?? b`, of a column of two rows that may not be there. -/
def pick (override : Option OrgEntitlement) (plan : Option Plan) (column : Ceilings → Option Int) :
    Option (Option Int) :=
  match override.bind fun row => column row.ceilings with
  | some value => some (some value)
  | none => plan.map fun row => column row.ceilings

/-- An override that has expired is not an override. -/
def inForce (now : Int) (override : Option OrgEntitlement) : Option OrgEntitlement :=
  override.filter fun row => row.expiresAt.all (now < ·)

/-- What one list of names says; a name that the registry does not define is left out. -/
def grants (known : FlagName → Bool) (names : List FlagName) (value : Bool) (source : Source) :
    List (FlagName × Bool × Source) :=
  (names.filter known).reverse.map fun name => (name, value, source)

/-- What the rows come to. -/
def resolve (known : FlagName → Bool) (now : Int) (plan : Option Plan)
    (rawOverride : Option OrgEntitlement) : Entitlements :=
  let override := inForce now rawOverride
  if plan = none ∧ override = none then EMPTY
  else
    { features :=
        grants known ((override.map OrgEntitlement.featuresRemove).getD []) false .override ++
        grants known ((override.map OrgEntitlement.featuresAdd).getD []) true .override ++
        grants known ((plan.map Plan.features).getD []) true .plan
      limits :=
        { telephonyCapCents := pick override plan Ceilings.telephonyCapCents
          automationRunsPerHour := pick override plan Ceilings.automationRunsPerHour
          turnIssuancePerDay := pick override plan Ceilings.turnIssuancePerDay
          telephonyIncludedCents := (pick override plan Ceilings.telephonyIncludedCents).join
          telephonyMarkupPct := (pick override plan Ceilings.telephonyMarkupPct).join
          aiTokenBudgetMonthlyCents := pick override plan Ceilings.aiTokenBudgetMonthlyCents } }

/-- What is decided about a feature, and by what. -/
def Entitlements.feature (entitlements : Entitlements) (name : FlagName) :
    Option (Bool × Source) :=
  entitlements.features.lookup name

/-- What one list of names says about a feature. -/
theorem lookup_grants {known : FlagName → Bool} {names : List FlagName} {value : Bool}
    {source : Source} (name : FlagName) : (grants known names value source).lookup name =
      if name ∈ names ∧ known name then some (value, source) else none := by
  rw [grants]
  have hmem : name ∈ (names.filter known).reverse ↔ name ∈ names ∧ known name := by
    rw [List.mem_reverse, List.mem_filter]
  simp only [← hmem]
  induction (names.filter known).reverse with
  | nil => rfl
  | cons other names ih =>
    by_cases hsame : name = other
    · simp [hsame]
    · have hbeq : (name == other) = false := by simpa using hsame
      simpa [List.lookup_cons, hsame, hbeq] using ih

/-- **An override in force outranks the plan, and what neither lists is left open.** -/
theorem feature_resolve {known : FlagName → Bool} {now : Int} {plan : Option Plan}
    {override : Option OrgEntitlement} {name : FlagName} (hknown : known name = true) :
    (resolve known now plan override).feature name =
      if (inForce now override).any fun row => name ∈ row.featuresRemove then
        some (false, .override)
      else if (inForce now override).any fun row => name ∈ row.featuresAdd then
        some (true, .override)
      else if plan.any fun row => name ∈ row.features then some (true, .plan)
      else none := by
  unfold resolve Entitlements.feature
  cases inForce now override with
  | none =>
    cases plan with
    | none => rfl
    | some plan => simp [List.lookup_append, lookup_grants, hknown]
  | some row =>
    cases plan with
    | none =>
      simp only [reduceCtorEq, and_false, if_false, Option.map_some, Option.getD_some,
        Option.map_none, Option.getD_none, List.append_assoc, List.lookup_append, lookup_grants,
        hknown, and_true, List.not_mem_nil, Option.or_none, Option.any_some, decide_eq_true_eq,
        Option.any_none, Bool.false_eq_true]
      grind
    | some plan =>
      simp only [reduceCtorEq, and_self, if_false, Option.map_some, Option.getD_some,
        List.append_assoc, List.lookup_append, lookup_grants, hknown, and_true, Option.any_some,
        decide_eq_true_eq]
      grind

/-! ### One process -/

structure Tables where
  planId : OrgId → Option PlanId
  plans : PlanId → Option Plan
  orgEntitlements : OrgId → Option OrgEntitlement

/-- Entitlements, and how many changes for the organization had been committed when they began to
be read. -/
structure Reading where
  since : Nat
  value : Entitlements
  deriving DecidableEq, Repr

/-- How far a load is: it reads the organization, its plan and its override, and then puts what
they come to into the cache. -/
inductive Progress where
  | started
  | orgRead (since : Nat) (planId : PlanId)
  | planRead (since : Nat) (plan : Option Plan)
  | loaded (reading : Reading)
  | cached (reading : Reading)
  | failed
  | settled (result : Option Reading)
  deriving DecidableEq, Repr

structure Load where
  orgId : OrgId
  progress : Progress
  deriving DecidableEq, Repr

/-- When the load began to read. -/
def Progress.since : Progress → Option Nat
  | .orgRead since _ | .planRead since _ => some since
  | .loaded reading | .cached reading => some reading.since
  | .settled result => result.map Reading.since
  | .started | .failed => none

structure Hit where
  time : Int
  reading : Reading
  deriving DecidableEq, Repr

abbrev LoadId := Nat

abbrev CallId := Nat

/-- A call that waits for a load, and how many changes had been announced when it began. -/
structure Waiting where
  orgId : OrgId
  announced : Nat
  load : LoadId
  deriving DecidableEq, Repr

/-- What a call has returned. -/
structure Answer where
  orgId : OrgId
  announced : Nat
  reading : Reading
  deriving DecidableEq, Repr

/-- The database, and the state of the module.  `changes` counts the changes that are committed,
and `announced` those that were when `invalidateEntitlements` last returned. -/
structure Process where
  tables : Tables
  changes : OrgId → Nat
  announced : OrgId → Nat
  cache : OrgId → Option Hit
  loading : OrgId → Option LoadId
  loads : LoadId → Option Load
  waiting : CallId → Option Waiting
  answers : List Answer

def initial (tables : Tables) : Process :=
  ⟨tables, fun _ => 0, fun _ => 0, fun _ => none, fun _ => none, fun _ => none, fun _ => none, []⟩

def CACHE_TTL_MS : Int := 30000

/-- A call, until it first waits: `call` and `load` are new. -/
def getEntitlements (s : Process) (call : CallId) (load : LoadId) (orgId : OrgId) (now : Int) :
    Option Process :=
  if (s.waiting call).isSome then none
  else
    let wait (load : LoadId) : Process := { s with
      waiting := Function.update s.waiting call (some ⟨orgId, s.announced orgId, load⟩) }
    match (s.cache orgId).filter fun hit => now - hit.time < CACHE_TTL_MS with
    | some hit => some { s with answers := ⟨orgId, s.announced orgId, hit.reading⟩ :: s.answers }
    | none =>
      match s.loading orgId with
      | some inFlight => some (wait inFlight)
      | none =>
        if (s.loads load).isSome then none
        else some { wait load with
          loads := Function.update s.loads load (some ⟨orgId, .started⟩)
          loading := Function.update s.loading orgId (some load) }

def setProgress (s : Process) (id : LoadId) (load : Load) (progress : Progress) : Process :=
  { s with loads := Function.update s.loads id (some { load with progress }) }

/-- The next part of a load, at the time `now`. -/
def next (known : FlagName → Bool) (s : Process) (id : LoadId) (now : Int) : Option Process :=
  (s.loads id).bind fun load =>
    match load.progress with
    | .started =>
      some (setProgress s id load
        (match s.tables.planId load.orgId with
        | none => .planRead (s.changes load.orgId) none
        | some planId => .orgRead (s.changes load.orgId) planId))
    | .orgRead since planId =>
      some (setProgress s id load (.planRead since (s.tables.plans planId)))
    | .planRead since plan =>
      some (setProgress s id load
        (.loaded ⟨since, resolve known now plan (s.tables.orgEntitlements load.orgId)⟩))
    | .loaded reading =>
      some { setProgress s id load (.cached reading) with
        cache := Function.update s.cache load.orgId (some ⟨now, reading⟩) }
    | .cached reading =>
      some { setProgress s id load (.settled (some reading)) with
        loading := Function.update s.loading load.orgId none }
    | .failed =>
      some { setProgress s id load (.settled none) with
        loading := Function.update s.loading load.orgId none }
    | .settled _ => none

/-- The database fails a load. -/
def fail (s : Process) (id : LoadId) : Option Process :=
  (s.loads id).bind fun load =>
    match load.progress with
    | .started | .orgRead _ _ | .planRead _ _ => some (setProgress s id load .failed)
    | .loaded _ | .cached _ | .failed | .settled _ => none

/-- A call that has waited returns, or throws. -/
def deliver (s : Process) (call : CallId) : Option Process :=
  (s.waiting call).bind fun waiting =>
    match (s.loads waiting.load).map Load.progress with
    | some (.settled result) => some { s with
        waiting := Function.update s.waiting call none
        answers := (result.map fun reading =>
          ⟨waiting.orgId, waiting.announced, reading⟩).toList ++ s.answers }
    | _ => none

/-- A change of an organization's plan or override, or of other tables with it. -/
def commit (s : Process) (orgId : OrgId) (tables : Tables) : Process :=
  { s with tables, changes := Function.update s.changes orgId (s.changes orgId + 1) }

def invalidateEntitlements (s : Process) (orgId : OrgId) : Process :=
  { s with
    cache := Function.update s.cache orgId none
    announced := Function.update s.announced orgId (s.changes orgId) }

inductive Action where
  | getEntitlements (call : CallId) (load : LoadId) (orgId : OrgId) (now : Int)
  | next (load : LoadId) (now : Int)
  | fail (load : LoadId)
  | deliver (call : CallId)
  | commit (orgId : OrgId) (tables : Tables)
  | invalidateEntitlements (orgId : OrgId)

def step (known : FlagName → Bool) (s : Process) : Action → Option Process
  | .getEntitlements call load orgId now => getEntitlements s call load orgId now
  | .next load now => next known s load now
  | .fail load => fail s load
  | .deliver call => deliver s call
  | .commit orgId tables => some (commit s orgId tables)
  | .invalidateEntitlements orgId => some (invalidateEntitlements s orgId)

/-! ### What is fresh -/

/-- Where an entry is dropped, a load of the organization that is under way has not begun to read
before the last change. -/
def Quiet (s : Process) : Action → Prop
  | .invalidateEntitlements orgId => ∀ id ∈ s.loading orgId, ∀ load ∈ s.loads id,
      ∀ since ∈ load.progress.since, since = s.changes orgId
  | _ => True

/-- A call that begins now gets nothing from before a change that is announced. -/
structure Fresh (s : Process) : Prop where
  cache : ∀ orgId, ∀ hit ∈ s.cache orgId, s.announced orgId ≤ hit.reading.since
  loading : ∀ orgId, ∀ id ∈ s.loading orgId, ∀ load ∈ s.loads id, ∀ since ∈ load.progress.since,
    s.announced orgId ≤ since

/-- There is one load at a time of an organization, it has begun to read at some time, and so has
the load that a call waits for; and no answer is from before a change announced when its call
began. -/
structure Coherent (s : Process) : Prop where
  fresh : Fresh s
  loads : ∀ id, ∀ load ∈ s.loads id, ∀ since ∈ load.progress.since, since ≤ s.changes load.orgId
  inFlight : ∀ id, ∀ load ∈ s.loads id, (∀ result, load.progress ≠ .settled result) →
    s.loading load.orgId = some id
  loading : ∀ orgId, ∀ id ∈ s.loading orgId, ∃ load, s.loads id = some load ∧ load.orgId = orgId
  announced : ∀ orgId, s.announced orgId ≤ s.changes orgId
  waiting : ∀ call, ∀ waiting ∈ s.waiting call, waiting.announced ≤ s.changes waiting.orgId ∧
    ∃ load, s.loads waiting.load = some load ∧ load.orgId = waiting.orgId ∧
      ∀ since ∈ load.progress.since, waiting.announced ≤ since
  answers : ∀ answer ∈ s.answers, answer.announced ≤ answer.reading.since

section
variable {known : FlagName → Bool} {s s' : Process} {id : LoadId} {load : Load} {orgId : OrgId}
  {progress : Progress}

theorem coherent_initial (tables : Tables) : Coherent (initial tables) where
  fresh := ⟨fun _ _ h => (by cases h), fun _ _ h => by cases h⟩
  loads := fun _ _ h => by cases h
  inFlight := fun _ _ h => by cases h
  loading := fun _ _ h => by cases h
  announced := fun _ => Nat.le_refl 0
  waiting := fun _ _ h => by cases h
  answers := fun _ h => by cases h

theorem loads_setProgress (other : LoadId) : (setProgress s id load progress).loads other =
    if other = id then some { load with progress } else s.loads other :=
  Function.update_apply ..

/-- What a load that goes on has read it has read before, or reads now. -/
theorem since_setProgress (hload : s.loads id = some load)
    (hsince : ∀ since ∈ progress.since, since ∈ load.progress.since ∨
      since = s.changes load.orgId) {other : LoadId} {found : Load}
    (hfound : (setProgress s id load progress).loads other = some found) {since : Nat}
    (hmem : since ∈ found.progress.since) : ∃ before, s.loads other = some before ∧
      found.orgId = before.orgId ∧ (since ∈ before.progress.since ∨
        since = s.changes before.orgId) := by
  rw [loads_setProgress] at hfound
  split at hfound
  · next hsame =>
    obtain rfl := Option.some.inj hfound
    exact ⟨load, hsame ▸ hload, rfl, hsince since hmem⟩
  · exact ⟨found, hfound, rfl, .inl hmem⟩

/-- **A load that goes on.** -/
theorem Coherent.setProgress (h : Coherent s) (progress : Progress)
    (hload : s.loads id = some load)
    (hactive : ∀ result, load.progress ≠ .settled result)
    (hsince : ∀ since ∈ progress.since, since ∈ load.progress.since ∨
      since = s.changes load.orgId) : Coherent (setProgress s id load progress) where
  fresh := by
    refine ⟨h.fresh.cache, fun orgId other hother found hfound since hmem => ?_⟩
    obtain ⟨before, hbefore, horg, hsame | hnow⟩ := since_setProgress hload hsince hfound hmem
    · exact h.fresh.loading orgId other hother before hbefore since hsame
    · obtain ⟨load', hload', horg'⟩ := h.loading orgId other hother
      obtain rfl := Option.some.inj (hbefore.symm.trans hload')
      rw [hnow, horg']
      exact h.announced orgId
  loads := by
    intro other found hfound since hmem
    obtain ⟨before, hbefore, horg, hsame | hnow⟩ := since_setProgress hload hsince hfound hmem
    · rw [horg]
      exact h.loads other before hbefore since hsame
    · rw [horg, hnow]
      exact Nat.le_refl _
  inFlight := by
    intro other found hfound hnot
    rw [Option.mem_def, loads_setProgress] at hfound
    split at hfound
    · next hsame =>
      obtain rfl := Option.some.inj hfound
      exact hsame ▸ h.inFlight id load hload hactive
    · exact h.inFlight other found hfound hnot
  loading := by
    intro orgId other hother
    obtain ⟨found, hfound, horg⟩ := h.loading orgId other hother
    rw [loads_setProgress]
    split
    · next hsame =>
      rw [hsame, hload] at hfound
      exact ⟨_, rfl, (Option.some.inj hfound).symm ▸ horg⟩
    · exact ⟨found, hfound, horg⟩
  announced := h.announced
  waiting := by
    intro call waiting hwaiting
    obtain ⟨hle, found, hfound, horg, hafter⟩ := h.waiting call waiting hwaiting
    refine ⟨hle, ?_⟩
    rw [loads_setProgress]
    split
    · next hsame =>
      rw [hsame, hload] at hfound
      obtain rfl := Option.some.inj hfound
      refine ⟨_, rfl, horg, fun since hmem => ?_⟩
      rcases hsince since hmem with hbefore | rfl
      · exact hafter since hbefore
      · exact horg ▸ hle
    · exact ⟨found, hfound, horg, hafter⟩
  answers := h.answers

/-- What is put into the cache is not from before a change that is announced. -/
theorem Coherent.store (h : Coherent s) {hit : Hit}
    (hfresh : s.announced orgId ≤ hit.reading.since) :
    Coherent { s with cache := Function.update s.cache orgId (some hit) } := by
  refine ⟨⟨fun other found hfound => ?_, h.fresh.loading⟩, h.loads, h.inFlight, h.loading,
    h.announced, h.waiting, h.answers⟩
  have hfound : Function.update s.cache orgId (some hit) other = some found := hfound
  rw [Function.update_apply] at hfound
  split at hfound
  · next hsame =>
    obtain rfl := Option.some.inj hfound
    exact hsame ▸ hfresh
  · exact h.fresh.cache other found hfound

/-- What is no longer under way. -/
theorem mem_loading_erase {other : OrgId}
    (h : id ∈ Function.update s.loading orgId none other) :
    other ≠ orgId ∧ id ∈ s.loading other := by
  rw [Option.mem_def, Function.update_apply] at h
  split at h
  · cases h
  · exact ⟨‹_›, h⟩

/-- A load that is done is no longer under way. -/
theorem Coherent.settle (h : Coherent s) {result : Option Reading}
    (hload : s.loads id = some ⟨orgId, .settled result⟩) (hloading : s.loading orgId = some id) :
    Coherent { s with loading := Function.update s.loading orgId none } where
  fresh := ⟨h.fresh.cache, fun other found hfound =>
    h.fresh.loading other found (mem_loading_erase hfound).2⟩
  loads := h.loads
  inFlight := by
    intro other found hfound hnot
    have hother := h.inFlight other found hfound hnot
    have hne : found.orgId ≠ orgId := by
      intro heq
      rw [heq, hloading] at hother
      obtain rfl := Option.some.inj hother
      rw [Option.mem_def, hload] at hfound
      obtain rfl := Option.some.inj hfound
      exact hnot result rfl
    exact (Function.update_of_ne hne _ _).trans hother
  loading := fun other found hfound => h.loading other found (mem_loading_erase hfound).2
  announced := h.announced
  waiting := h.waiting
  answers := h.answers

theorem Coherent.next (h : Coherent s) {now : Int} (hstep : next known s id now = some s') :
    Coherent s' := by
  obtain ⟨load, hload, hstep⟩ := Option.bind_eq_some_iff.mp hstep
  obtain ⟨orgId, progress⟩ := load
  cases progress with
  | started =>
    obtain rfl := Option.some.inj hstep
    refine h.setProgress _ hload (fun _ heq => by cases heq) fun since hmem => .inr ?_
    dsimp only at hmem
    split at hmem <;> exact (Option.some.inj hmem).symm
  | orgRead since planId =>
    obtain rfl := Option.some.inj hstep
    exact h.setProgress _ hload (fun _ heq => by cases heq) fun _ hmem => .inl hmem
  | planRead since plan =>
    obtain rfl := Option.some.inj hstep
    exact h.setProgress _ hload (fun _ heq => by cases heq) fun _ hmem => .inl hmem
  | loaded reading =>
    obtain rfl := Option.some.inj hstep
    have hnot : ∀ result, Progress.loaded reading ≠ .settled result := fun _ heq => by cases heq
    have hafter := h.setProgress (.cached reading) hload hnot fun _ hmem => .inl hmem
    refine hafter.store ?_
    exact h.fresh.loading orgId id (h.inFlight id _ hload hnot) _ hload reading.since rfl
  | cached reading =>
    obtain rfl := Option.some.inj hstep
    have hnot : ∀ result, Progress.cached reading ≠ .settled result := fun _ heq => by cases heq
    have hafter := h.setProgress (.settled (some reading)) hload hnot
      fun _ hmem => .inl hmem
    exact hafter.settle (Function.update_self ..) (h.inFlight id _ hload hnot)
  | failed =>
    obtain rfl := Option.some.inj hstep
    have hnot : ∀ result, Progress.failed ≠ .settled result := fun _ heq => by cases heq
    have hafter := h.setProgress (.settled none) hload hnot fun _ hmem => .inl hmem
    exact hafter.settle (Function.update_self ..) (h.inFlight id _ hload hnot)
  | settled result => cases hstep

theorem Coherent.fail (h : Coherent s) (hstep : fail s id = some s') : Coherent s' := by
  obtain ⟨⟨orgId, progress⟩, hload, hstep⟩ := Option.bind_eq_some_iff.mp hstep
  cases progress with
  | started | orgRead | planRead =>
    obtain rfl := Option.some.inj hstep
    exact h.setProgress _ hload (fun _ heq => by cases heq) fun _ hmem => by cases hmem
  | loaded | cached | failed | settled => cases hstep

theorem Coherent.deliver (h : Coherent s) {call : CallId} (hstep : deliver s call = some s') :
    Coherent s' := by
  obtain ⟨waiting, hwaiting, hstep⟩ := Option.bind_eq_some_iff.mp hstep
  obtain ⟨-, load, hload, -, hafter⟩ := h.waiting call waiting hwaiting
  rw [hload, Option.map_some] at hstep
  split at hstep
  · next result hresult =>
    obtain rfl := Option.some.inj hstep
    have hsettled : load.progress = .settled result := Option.some.inj hresult
    refine ⟨⟨h.fresh.cache, h.fresh.loading⟩, h.loads, h.inFlight, h.loading, h.announced,
      fun other found hfound => ?_, fun answer hanswer => ?_⟩
    · have hfound : Function.update s.waiting call none other = some found := hfound
      rw [Function.update_apply] at hfound
      split at hfound
      · cases hfound
      · exact h.waiting other found hfound
    · rcases List.mem_append.mp hanswer with hmem | hmem
      · obtain ⟨reading, hreading, rfl⟩ := Option.map_eq_some_iff.mp (Option.mem_toList.mp hmem)
        refine hafter reading.since ?_
        rw [hsettled, hreading]
        rfl
      · exact h.answers answer hmem
  · cases hstep

/-- A call that waits for a load that is not from before what is announced. -/
theorem Coherent.wait (h : Coherent s) {call : CallId} (hload : s.loads id = some load)
    (horg : load.orgId = orgId)
    (hafter : ∀ since ∈ load.progress.since, s.announced orgId ≤ since) :
    Coherent { s with
      waiting := Function.update s.waiting call (some ⟨orgId, s.announced orgId, id⟩) } := by
  refine ⟨⟨h.fresh.cache, h.fresh.loading⟩, h.loads, h.inFlight, h.loading, h.announced,
    fun other found hfound => ?_, h.answers⟩
  have hfound : Function.update s.waiting call (some ⟨orgId, s.announced orgId, id⟩) other =
    some found := hfound
  rw [Function.update_apply] at hfound
  split at hfound
  · obtain rfl := Option.some.inj hfound
    exact ⟨h.announced orgId, load, hload, horg, hafter⟩
  · exact h.waiting other found hfound

/-- A load that is started where none is under way. -/
theorem Coherent.start (h : Coherent s) (hnone : s.loading orgId = none)
    (hnew : s.loads id = none) :
    Coherent { s with
      loads := Function.update s.loads id (some ⟨orgId, .started⟩)
      loading := Function.update s.loading orgId (some id) } := by
  have hkept (other : LoadId) (found : Load) (hfound : s.loads other = some found) :
      Function.update s.loads id (some ⟨orgId, .started⟩) other = some found := by
    rwa [Function.update_of_ne]
    rintro rfl
    rw [hnew] at hfound
    cases hfound
  have hold (other : LoadId) (found : Load)
      (hfound : Function.update s.loads id (some ⟨orgId, .started⟩) other = some found) :
      other = id ∧ found = ⟨orgId, .started⟩ ∨ s.loads other = some found := by
    rw [Function.update_apply] at hfound
    split at hfound
    · exact .inl ⟨‹_›, (Option.some.inj hfound).symm⟩
    · exact .inr hfound
  refine ⟨⟨h.fresh.cache, fun other found hfound load hload since hmem => ?_⟩,
    fun other found hfound since hmem => ?_, fun other found hfound hnot => ?_,
    fun other found hfound => ?_, h.announced, fun call waiting hwaiting => ?_, h.answers⟩
  · rcases hold found load hload with ⟨-, rfl⟩ | hload
    · cases hmem
    · have hfound : Function.update s.loading orgId (some id) other = some found := hfound
      rw [Function.update_apply] at hfound
      split at hfound
      · obtain rfl := Option.some.inj hfound
        rw [hnew] at hload
        cases hload
      · exact h.fresh.loading other found hfound load hload since hmem
  · rcases hold other found hfound with ⟨-, rfl⟩ | hfound
    · cases hmem
    · exact h.loads other found hfound since hmem
  · rcases hold other found hfound with ⟨rfl, rfl⟩ | hfound
    · exact Function.update_self ..
    · have hother := h.inFlight other found hfound hnot
      have hne : found.orgId ≠ orgId := by
        intro heq
        rw [heq, hnone] at hother
        cases hother
      exact (Function.update_of_ne hne _ _).trans hother
  · have hfound : Function.update s.loading orgId (some id) other = some found := hfound
    rw [Function.update_apply] at hfound
    split at hfound
    · next hsame =>
      obtain rfl := Option.some.inj hfound
      exact ⟨⟨orgId, .started⟩, Function.update_self .., hsame.symm⟩
    · obtain ⟨load, hload, horg⟩ := h.loading other found hfound
      exact ⟨load, hkept found load hload, horg⟩
  · obtain ⟨hle, load, hload, hrest⟩ := h.waiting call waiting hwaiting
    exact ⟨hle, load, hkept waiting.load load hload, hrest⟩

theorem Coherent.getEntitlements (h : Coherent s) {call : CallId} {now : Int}
    (hstep : getEntitlements s call id orgId now = some s') : Coherent s' := by
  unfold EntitlementCache.getEntitlements at hstep
  split at hstep
  · cases hstep
  split at hstep
  · next hit hhit =>
    obtain rfl := Option.some.inj hstep
    have hhit := (Option.filter_eq_some_iff.mp hhit).1
    refine ⟨⟨h.fresh.cache, h.fresh.loading⟩, h.loads, h.inFlight, h.loading, h.announced,
      h.waiting, fun answer hanswer => ?_⟩
    rcases List.mem_cons.mp hanswer with rfl | hanswer
    · exact h.fresh.cache orgId hit hhit
    · exact h.answers answer hanswer
  · split at hstep
    · next inFlight hinFlight =>
      obtain rfl := Option.some.inj hstep
      obtain ⟨load, hload, horg⟩ := h.loading orgId inFlight hinFlight
      exact h.wait hload horg (h.fresh.loading orgId inFlight hinFlight load hload)
    · next hnone =>
      split at hstep
      · cases hstep
      · next hnew =>
        obtain rfl := Option.some.inj hstep
        have hnew : s.loads id = none := by simpa using hnew
        exact (h.start hnone hnew).wait (Function.update_self ..) rfl fun _ hmem => by cases hmem

theorem Coherent.commit (h : Coherent s) (orgId : OrgId) (tables : Tables) :
    Coherent (commit s orgId tables) := by
  have hle (other : OrgId) :
      s.changes other ≤ Function.update s.changes orgId (s.changes orgId + 1) other := by
    rw [Function.update_apply]
    split
    · next hsame => exact hsame ▸ Nat.le_succ _
    · exact Nat.le_refl _
  exact ⟨⟨h.fresh.cache, h.fresh.loading⟩, fun other found hfound since hmem =>
      (h.loads other found hfound since hmem).trans (hle _), h.inFlight, h.loading,
    fun other => (h.announced other).trans (hle other), fun call waiting hwaiting =>
      ⟨(h.waiting call waiting hwaiting).1.trans (hle _), (h.waiting call waiting hwaiting).2⟩,
    h.answers⟩

/-- **To drop an entry keeps calls fresh just when no load has begun to read too early.** -/
theorem Coherent.invalidate_fresh_iff (h : Coherent s) :
    Fresh (invalidateEntitlements s orgId) ↔ Quiet s (.invalidateEntitlements orgId) := by
  have hself : (invalidateEntitlements s orgId).announced orgId = s.changes orgId :=
    Function.update_self ..
  have hother (other : OrgId) (hne : other ≠ orgId) :
      (invalidateEntitlements s orgId).announced other = s.announced other :=
    Function.update_of_ne hne ..
  constructor
  · intro hfresh id hid load hload since hmem
    have hbelow := h.loads id load hload since hmem
    obtain ⟨load', hload', horg⟩ := h.loading orgId id hid
    obtain rfl := Option.some.inj (hload'.symm.trans hload)
    have habove := hfresh.loading orgId id hid load' hload since hmem
    rw [hself] at habove
    exact Nat.le_antisymm (horg ▸ hbelow) habove
  · intro hquiet
    refine ⟨fun other hit hhit => ?_, fun other id hid load hload since hmem => ?_⟩
    · have hhit : Function.update s.cache orgId none other = some hit := hhit
      rw [Function.update_apply] at hhit
      split at hhit
      · cases hhit
      · next hne =>
        rw [hother other hne]
        exact h.fresh.cache other hit hhit
    · by_cases hsame : other = orgId
      · subst hsame
        rw [hself]
        exact (hquiet id hid load hload since hmem).ge
      · rw [hother other hsame]
        exact h.fresh.loading other id hid load hload since hmem

theorem Coherent.invalidate (h : Coherent s) (hquiet : Quiet s (.invalidateEntitlements orgId)) :
    Coherent (invalidateEntitlements s orgId) := by
  refine ⟨h.invalidate_fresh_iff.mpr hquiet, h.loads, h.inFlight, h.loading, fun other => ?_,
    h.waiting, h.answers⟩
  have hother : Function.update s.announced orgId (s.changes orgId) other ≤ s.changes other := by
    rw [Function.update_apply]
    split
    · next hsame => exact hsame ▸ Nat.le_refl _
    · exact h.announced other
  exact hother

/-- **A step of a run keeps everything coherent just when it is quiet.** -/
theorem Coherent.step_iff (h : Coherent s) {a : Action} (hstep : step known s a = some s') :
    (Fresh s' ↔ Quiet s a) ∧ (Quiet s a → Coherent s') := by
  cases a with
  | getEntitlements call load orgId now =>
    have hafter := h.getEntitlements hstep
    exact ⟨iff_of_true hafter.fresh trivial, fun _ => hafter⟩
  | next load now =>
    have hafter := h.next hstep
    exact ⟨iff_of_true hafter.fresh trivial, fun _ => hafter⟩
  | fail load =>
    have hafter := h.fail hstep
    exact ⟨iff_of_true hafter.fresh trivial, fun _ => hafter⟩
  | deliver call =>
    have hafter := h.deliver hstep
    exact ⟨iff_of_true hafter.fresh trivial, fun _ => hafter⟩
  | commit orgId tables =>
    obtain rfl := Option.some.inj hstep
    have hafter := h.commit orgId tables
    exact ⟨iff_of_true hafter.fresh trivial, fun _ => hafter⟩
  | invalidateEntitlements orgId =>
    obtain rfl := Option.some.inj hstep
    exact ⟨h.invalidate_fresh_iff, h.invalidate⟩

/-- **Where every entry is dropped at a quiet time, no call returns what was read before a change
that had been announced when it began**, in any interleaving of calls, loads and changes; and an
entry that is dropped at another time leaves something for the next call that is too old. -/
theorem coherent_of_quiet {tables : Tables}
    (hrun : StepSystem.ReachableWhen (step known) Quiet (initial tables) s) :
    (∀ answer ∈ s.answers, answer.announced ≤ answer.reading.since) ∧
    ∀ a s', step known s a = some s' → (Fresh s' ↔ Quiet s a) := by
  have h : Coherent s := StepSystem.ReachableWhen.invariant hrun (coherent_initial tables)
    fun hs hquiet hstep => (hs.step_iff hstep).2 hquiet
  exact ⟨h.answers, fun a s' hstep => (h.step_iff hstep).1⟩

end

/-! ### A change while a load is under way -/

instance (s : Process) : (a : Action) → Decidable (Quiet s a)
  | .invalidateEntitlements orgId => decidable_of_iff
      ((s.loading orgId).all (fun id => (s.loads id).all fun load =>
        load.progress.since.all fun since => since = s.changes orgId) = true) <| by
      simp only [Quiet, Option.all_eq_true, decide_eq_true_eq, Option.mem_def]
  | .getEntitlements .. | .next .. | .fail _ | .deliver _ | .commit .. => isTrue trivial

/-- No organization has a plan. -/
def noPlans : Tables := ⟨fun _ => none, fun _ => none, fun _ => none⟩

/-- An organization gets a plan with one feature. -/
def onePlan : Tables :=
  ⟨fun _ => some "p", fun _ => some ⟨["docs"], ⟨none, none, none, none, none, none⟩⟩, fun _ => none⟩

/-- What the calls have returned: the changes announced before, those read, and whether there is
the feature. -/
def returned (s : Process) : List (Nat × Nat × Bool) :=
  s.answers.map fun answer =>
    (answer.announced, answer.reading.since, (answer.reading.value.feature "docs").isSome)

/-- A load of the organization, from its start. -/
def loaded (call load : Nat) (steps : Nat) : List Action :=
  .getEntitlements call load "o" 0 :: List.replicate steps (.next load 0)

theorem coherent_of_quiet_inTurn :
    ∃ s : Process, StepSystem.Reachable (step fun _ => true) (initial noPlans) s ∧
      returned s = [(1, 1, true), (0, 0, false)] ∧
      ∀ answer ∈ s.answers, answer.announced ≤ answer.reading.since := by
  have hsome : (StepSystem.runWhen (step fun _ => true) Quiet (initial noPlans)
      (loaded 0 0 4 ++ [.deliver 0, .commit "o" onePlan, .invalidateEntitlements "o"] ++
        loaded 1 1 5 ++ [.deliver 1])).map returned = some [(1, 1, true), (0, 0, false)] := by
    decide
  obtain ⟨s, hrun, hreturned⟩ := Option.map_eq_some_iff.mp hsome
  have hreach := StepSystem.reachableWhen_of_runWhen hrun
  exact ⟨s, hreach.mono fun _ _ _ => trivial, hreturned, (coherent_of_quiet hreach).1⟩

/-- **A load that has begun to read before a change is shared, and cached, after it is
announced.** -/
theorem stale_of_load_underway :
    ∃ s : Process, StepSystem.Reachable (step fun _ => true) (initial noPlans) s ∧
      returned s = [(1, 0, false)] ∧
      ¬∀ answer ∈ s.answers, answer.announced ≤ answer.reading.since := by
  have hsome : (StepSystem.run (step fun _ => true) (initial noPlans)
      (loaded 0 0 1 ++ [.commit "o" onePlan, .invalidateEntitlements "o"] ++
        List.replicate 3 (.next 0 0) ++ [.getEntitlements 1 1 "o" 0])).map returned =
      some [(1, 0, false)] := by decide
  obtain ⟨s, hrun, hreturned⟩ := Option.map_eq_some_iff.mp hsome
  refine ⟨s, StepSystem.reachable_of_run hrun, hreturned, fun hall => ?_⟩
  obtain ⟨answer, hanswer, heq⟩ := List.mem_map.mp
    (show (1, 0, false) ∈ returned s from hreturned ▸ List.mem_cons_self)
  obtain ⟨hannounced, heq⟩ := Prod.mk.inj heq
  have hle := hall answer hanswer
  rw [hannounced, (Prod.mk.inj heq).1] at hle
  exact absurd hle (by decide)

end EntitlementCache
end TaskFlow
