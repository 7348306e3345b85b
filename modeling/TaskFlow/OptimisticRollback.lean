import Mathlib.Logic.Function.Basic
import TaskFlow.Optimistic

/-! # What a rollback undoes

A rollback puts back all entries under the keys of a mutation, as they were when it started.  That
undoes no more than its own patch where every other patch under its keys was there when it started
just if it has not failed now, and where a query that had no data then has none now
(`Isolated`): then the cache is always what the patches of the mutations that have not failed make
of it (`cached_of_isolated`).  Otherwise the patch of a mutation that started in between is lost
(`patch_lost`).
-/
namespace TaskFlow
namespace Optimistic
open StepSystem LocalPatch
variable {Cache Key Data Error : Type} [DecidableEq Key] {client : QueryClient Cache Key Data}

/-! ### Putting back and removing -/

instance (keys : List Key) (found : Key) : Decidable (Under client keys found) :=
  inferInstanceAs (Decidable (∃ key ∈ keys, client.matchesKey key found))

section
variable (hclient : client.Lawful) {entries : List (Key × Option Data)} {cache : Cache}
  {existed : Key → Bool} {keys : List Key} {key : Key}
include hclient

/-- Entries of other keys, and those without data, are not written. -/
theorem query_restore_of_notMem (h : ∀ data, (key, some data) ∉ entries) :
    client.query (restore client entries cache) key = client.query cache key := by
  induction entries generalizing cache with
  | nil => rfl
  | cons entry entries ih =>
    obtain ⟨found, data⟩ := entry
    refine (ih fun data' hmem => h data' (List.mem_cons_of_mem _ hmem)).trans ?_
    dsimp only
    cases data with
    | none => rw [hclient.setQueryData_none]
    | some data =>
      have hne : key ≠ found := by
        rintro rfl
        exact h data List.mem_cons_self
      rw [hclient.setQueryData_some, if_neg hne]

theorem query_restore_of_mem {data : Data}
    (hsame : ∀ data', (key, some data') ∈ entries → data' = data)
    (h : (key, some data) ∈ entries) :
    client.query (restore client entries cache) key = some (some data) := by
  induction entries generalizing cache with
  | nil => cases h
  | cons entry entries ih =>
    by_cases hlater : (key, some data) ∈ entries
    · exact ih (fun data' hmem => hsame data' (List.mem_cons_of_mem _ hmem)) hlater
    · obtain rfl := (List.mem_cons.mp h).resolve_right hlater
      have hnone : ∀ data', (key, some data') ∉ entries := by
        intro data' hmem
        obtain rfl := hsame data' (List.mem_cons_of_mem _ hmem)
        exact hlater hmem
      refine (query_restore_of_notMem hclient hnone).trans ?_
      dsimp only
      rw [hclient.setQueryData_some, if_pos rfl]

theorem query_removeAll (found : List Key) :
    client.query (removeAll client existed found cache) key =
      if key ∈ found ∧ existed key = false then none else client.query cache key := by
  induction found generalizing cache with
  | nil => simp [removeAll]
  | cons other found ih =>
    refine ih.trans ?_
    dsimp only
    by_cases hother : existed other
    · by_cases hkey : key = other <;> simp [hkey, hother]
    · rw [if_neg hother, hclient.removeQuery]
      by_cases hkey : key = other <;> simp [hkey, hother]

theorem query_removeNew :
    client.query (removeNew client existed keys cache) key =
      if Under client keys key ∧ existed key = false then none else client.query cache key := by
  induction keys generalizing cache with
  | nil => simp [removeNew, Under]
  | cons first keys ih =>
    refine ih.trans ?_
    rw [query_removeAll hclient]
    simp only [hclient.findAll]
    by_cases hold : existed key
    · simp [hold]
    · by_cases hmatch : client.matchesKey first key
      · by_cases hquery : client.query cache key = none <;> simp [Under, hold, hmatch, hquery]
      · simp [Under, hold, hmatch]

/-- A snapshot has the queries under the keys. -/
theorem mem_snapshot {spec : OptimisticSpec client} {data : Option Data} :
    (key, data) ∈ (spec.snapshot cache).entries ↔
      Under client spec.keys key ∧ client.query cache key = some data := by
  simp only [OptimisticSpec.snapshot, List.mem_flatMap, hclient.getQueriesData, Under]
  constructor
  · rintro ⟨first, hfirst, hmatch, hdata⟩
    exact ⟨⟨first, hfirst, hmatch⟩, hdata⟩
  · rintro ⟨⟨first, hfirst, hmatch⟩, hdata⟩
    exact ⟨first, hfirst, hmatch, hdata⟩

theorem query_cancel {spec : OptimisticSpec client} :
    client.query (spec.cancel cache) key = client.query cache key := by
  unfold OptimisticSpec.cancel
  induction spec.keys generalizing cache with
  | nil => rfl
  | cons first keys ih => exact ih.trans (hclient.cancelQueries cache first key)

theorem query_onSettled {spec : OptimisticSpec client} :
    client.query (spec.onSettled cache) key = client.query cache key := by
  unfold OptimisticSpec.onSettled
  induction spec.keys generalizing cache with
  | nil => rfl
  | cons first keys ih => exact ih.trans (hclient.invalidateQueries cache first key)

end

/-! ### A rollback -/

/-- The snapshot is of a cache that looks like this one. -/
structure Captures (client : QueryClient Cache Key Data) (keys : List Key)
    (context : Snapshot Key Data) (old : Cache) : Prop where
  entries : ∀ key data, (key, data) ∈ context.entries ↔
    Under client keys key ∧ client.query old key = some data
  existing : context.existingKeys = context.entries.map Prod.fst

section
variable (hclient : client.Lawful) {spec : OptimisticSpec client} {context : Snapshot Key Data}
  {cache old old' : Cache} {keys : List Key} {key : Key}

omit [DecidableEq Key] in
theorem Captures.congr (h : Captures client keys context old)
    (hsame : ∀ key, Under client keys key → client.query old key = client.query old' key) :
    Captures client keys context old' where
  entries key data := by
    rw [h.entries]
    exact and_congr_right fun hkey => by rw [hsame key hkey]
  existing := h.existing

omit [DecidableEq Key] in
theorem Captures.mem_existing (h : Captures client keys context old) :
    key ∈ context.existingKeys ↔ Under client keys key ∧ client.query old key ≠ none := by
  rw [h.existing, List.mem_map]
  constructor
  · rintro ⟨⟨found, data⟩, hmem, rfl⟩
    obtain ⟨hkey, hdata⟩ := (h.entries found data).mp hmem
    exact ⟨hkey, by rw [hdata]; exact Option.some_ne_none _⟩
  · rintro ⟨hkey, hsome⟩
    obtain ⟨data, hdata⟩ := Option.ne_none_iff_exists'.mp hsome
    exact ⟨(key, data), (h.entries key data).mpr ⟨hkey, hdata⟩, rfl⟩

include hclient

theorem captures_snapshot : Captures client spec.keys (spec.snapshot cache) cache where
  entries _ _ := mem_snapshot hclient
  existing := rfl

/-- **A rollback puts back what is under the keys, and leaves the rest**, where a query that had
no data has none. -/
theorem query_onError (h : Captures client spec.keys context old)
    (hempty : ∀ key, (key, none) ∈ context.entries → client.query cache key = some none) :
    client.query (spec.onError (some context) cache) key =
      if Under client spec.keys key then client.query old key else client.query cache key := by
  have hexisted : (Option.any (fun context : Snapshot Key Data =>
      decide (key ∈ context.existingKeys)) (some context)) = false ↔
        ¬(Under client spec.keys key ∧ client.query old key ≠ none) := by
    rw [Option.any_some, decide_eq_false_iff_not, h.mem_existing]
  refine (query_removeNew hclient).trans ?_
  simp only [hexisted]
  by_cases hkey : Under client spec.keys key
  · rw [if_pos hkey]
    cases hold : client.query old key with
    | none => simp [hkey]
    | some data =>
      have hmem : (key, data) ∈ context.entries := (h.entries key data).mpr ⟨hkey, hold⟩
      have hsame (data' : Option Data) (hmem' : (key, data') ∈ context.entries) : data' = data :=
        Option.some.inj (((h.entries key data').mp hmem').2.symm.trans hold)
      rw [if_neg fun hnew => hnew.2 ⟨hkey, Option.some_ne_none _⟩]
      cases data with
      | none =>
        refine (query_restore_of_notMem hclient fun data' hmem' => ?_).trans (hempty key hmem)
        cases hsame _ hmem'
      | some data =>
        exact query_restore_of_mem hclient (fun data' hmem' => Option.some.inj (hsame _ hmem')) hmem
  · rw [if_neg hkey, if_neg fun hnew => hkey hnew.1]
    exact query_restore_of_notMem hclient fun data hmem => hkey ((h.entries key _).mp hmem).1

end

/-! ### Runs -/

def Mutation.failed (mutation : Mutation client) : Bool :=
  match mutation.status with
  | .pending | .succeeded => false
  | .failed _ => true

/-- The patches of the mutations that have not failed, in the order in which they started. -/
def patchesOf (mutations : List (Mutation client)) : List (LocalPatch client.query) :=
  (mutations.filter fun mutation => !mutation.failed).map fun mutation => mutation.spec.patch

/-- What they make of the first cache. -/
def expected (start : Cache) (mutations : List (Mutation client)) : Cache :=
  runAll (patchesOf mutations) start

/-- No mutation that had started before the one at `place`, and has failed since, patches anything
under its keys. -/
def Unspoiled (mutations : List (Mutation client)) (place : Nat) (mutation : Mutation client) :
    Prop :=
  ∀ i other n, i < place → mutations[i]? = some other → other.status = .failed n → place < n →
    other.spec.patch.Avoids (Under client mutation.spec.keys)

/-- What the rollback of the mutation at `place` undoes is its own patch. -/
structure Isolated (cache : Cache) (mutations : List (Mutation client)) (place : Nat)
    (mutation : Mutation client) : Prop where
  /-- A mutation that started later, and has not failed, patches nothing under its keys. -/
  later : ∀ i other, place < i → mutations[i]? = some other → other.failed = false →
    other.spec.patch.Avoids (Under client mutation.spec.keys)
  earlier : Unspoiled mutations place mutation
  /-- A query under its keys that had no data when it started has none. -/
  empty : ∀ key, (key, none) ∈ mutation.context.entries → client.query cache key = some none

/-- Every mutation that fails is isolated. -/
def FailsIsolated (sys : System client Error) : Action client Error → Prop
  | .fail place _ => ∀ mutation, sys.mutations[place]? = some mutation →
      Isolated sys.cache sys.mutations place mutation
  | _ => True

/-- The cache is as expected, and so are the snapshots of the mutations that may fail. -/
structure Consistent (start : Cache) (sys : System client Error) : Prop where
  cache : ∀ key, client.query sys.cache key = client.query (expected start sys.mutations) key
  context : ∀ place mutation, sys.mutations[place]? = some mutation → mutation.status = .pending →
    Unspoiled sys.mutations place mutation →
    Captures client mutation.spec.keys mutation.context (expected start (sys.mutations.take place))

section
variable {mutations : List (Mutation client)} {place : Nat} {mutation mutation' : Mutation client}

omit [DecidableEq Key]

theorem failed_of_pending (h : mutation.status = .pending) : mutation.failed = false := by
  rw [Mutation.failed, h]

theorem patchesOf_append (mutations mutations' : List (Mutation client)) :
    patchesOf (mutations ++ mutations') = patchesOf mutations ++ patchesOf mutations' := by
  simp [patchesOf]

theorem patchesOf_cons (mutation : Mutation client) (mutations : List (Mutation client)) :
    patchesOf (mutation :: mutations) =
      if mutation.failed then patchesOf mutations
      else mutation.spec.patch :: patchesOf mutations := by
  cases hfailed : mutation.failed <;> simp [patchesOf, hfailed]

/-- The patches before, at and after a place. -/
theorem patchesOf_split (h : mutations[place]? = some mutation) :
    patchesOf mutations = patchesOf (mutations.take place) ++
      patchesOf (mutation :: mutations.drop (place + 1)) := by
  obtain ⟨hlt, rfl⟩ := List.getElem?_eq_some_iff.mp h
  rw [← patchesOf_append, ← List.drop_eq_getElem_cons hlt, List.take_append_drop]

theorem patchesOf_set (h : mutations[place]? = some mutation) :
    patchesOf (mutations.set place mutation') = patchesOf (mutations.take place) ++
      patchesOf (mutation' :: mutations.drop (place + 1)) := by
  obtain ⟨hlt, -⟩ := List.getElem?_eq_some_iff.mp h
  rw [List.set_eq_take_append_cons_drop, if_pos hlt, patchesOf_append]

/-- A mutation that succeeds keeps its patch. -/
theorem patchesOf_set_of_same (h : mutations[place]? = some mutation)
    (hfailed : mutation'.failed = mutation.failed) (hspec : mutation'.spec = mutation.spec) :
    patchesOf (mutations.set place mutation') = patchesOf mutations := by
  rw [patchesOf_set h, patchesOf_split h, patchesOf_cons, patchesOf_cons, hfailed, hspec]

/-- The later mutations that have not failed. -/
theorem mem_patchesOf_drop {patch : LocalPatch client.query}
    (h : patch ∈ patchesOf (mutations.drop (place + 1))) :
    ∃ i other, place < i ∧ mutations[i]? = some other ∧ other.failed = false ∧
      other.spec.patch = patch := by
  obtain ⟨other, hmem, rfl⟩ := List.mem_map.mp h
  obtain ⟨hmem, hfailed⟩ := List.mem_filter.mp hmem
  obtain ⟨i, hi⟩ := List.mem_iff_getElem?.mp hmem
  rw [List.getElem?_drop] at hi
  exact ⟨place + 1 + i, other, by omega, hi, by simpa using hfailed, rfl⟩

/-- The mutation at a place has failed, and the later ones that have not leave its keys alone. -/
structure Failing (mutations : List (Mutation client)) (place : Nat)
    (mutation mutation' : Mutation client) : Prop where
  here : mutations[place]? = some mutation
  before : mutation.failed = false
  after : mutation'.failed = true
  later : ∀ i other, place < i → mutations[i]? = some other → other.failed = false →
    other.spec.patch.Avoids (Under client mutation.spec.keys)

theorem Failing.avoids (h : Failing mutations place mutation mutation') :
    ∀ patch ∈ patchesOf (mutations.drop (place + 1)),
      patch.Avoids (Under client mutation.spec.keys) := by
  intro patch hpatch
  obtain ⟨i, other, hi, hother, hfailed, rfl⟩ := mem_patchesOf_drop hpatch
  exact h.later i other hi hother hfailed

/-- Only what its patch has written changes. -/
theorem Failing.query_of_ne (h : Failing mutations place mutation mutation') (start : Cache)
    {key : Key} (hkey : ¬mutation.spec.patch.entries key) :
    client.query (expected start (mutations.set place mutation')) key =
      client.query (expected start mutations) key := by
  rw [expected, expected, patchesOf_set h.here, patchesOf_split h.here, patchesOf_cons,
    patchesOf_cons, if_pos h.after, if_neg (ne_true_of_eq_false h.before)]
  exact view_without mutation.spec.affected h.avoids hkey

/-- Under its keys all is as it was before it. -/
theorem Failing.query_of_under (h : Failing mutations place mutation mutation') (start : Cache)
    {key : Key} (hkey : Under client mutation.spec.keys key) :
    client.query (expected start (mutations.set place mutation')) key =
      client.query (expected start (mutations.take place)) key := by
  rw [expected, expected, patchesOf_set h.here, patchesOf_cons, if_pos h.after, runAll_append]
  exact view_runAll h.avoids hkey

/-- The same of the first mutations. -/
theorem Failing.take (h : Failing mutations place mutation mutation') {n : Nat} (hn : place < n) :
    Failing (mutations.take n) place mutation mutation' where
  here := by rw [List.getElem?_take_of_lt hn, h.here]
  before := h.before
  after := h.after
  later i other hi hother := by
    rw [List.getElem?_take] at hother
    exact h.later i other hi (Option.ite_none_right_eq_some.mp hother).2

end

section
variable {start : Cache} {sys sys' : System client Error} {action : Action client Error}

omit [DecidableEq Key] in
/-- What only changes no query and no mutation that has started keeps the invariant. -/
theorem Consistent.of_query (h : Consistent start sys)
    (hcache : ∀ key, client.query sys'.cache key = client.query sys.cache key)
    (hmutations : sys'.mutations = sys.mutations) : Consistent start sys' where
  cache key := by rw [hcache, hmutations, h.cache]
  context := by
    rw [hmutations]
    exact h.context

/-- A mutation starts. -/
theorem Consistent.started (hclient : client.Lawful) (h : Consistent start sys)
    (spec : OptimisticSpec client)
    (hcache : sys'.cache = (spec.onMutate sys.cache).1)
    (hmutations : sys'.mutations =
      sys.mutations ++ [⟨spec, (spec.onMutate sys.cache).2, .pending⟩]) :
    Consistent start sys' where
  cache key := by
    rw [hcache, hmutations, expected, patchesOf_append, runAll_append]
    exact run_congr spec.patch h.cache key
  context place mutation hmutation hpending hunspoiled := by
    rw [hmutations] at hmutation hunspoiled ⊢
    by_cases hlt : place < sys.mutations.length
    · rw [List.getElem?_append_left hlt] at hmutation
      rw [List.take_append_of_le_length (Nat.le_of_lt hlt)]
      refine h.context place mutation hmutation hpending fun i other n hi hother => ?_
      rw [← List.getElem?_append_left (Nat.lt_trans hi hlt)] at hother
      exact hunspoiled i other n hi hother
    · rw [List.getElem?_append_right (Nat.le_of_not_lt hlt), List.getElem?_singleton] at hmutation
      obtain ⟨hplace, heq⟩ := Option.ite_none_right_eq_some.mp hmutation
      obtain rfl := Option.some.inj heq
      rw [show place = sys.mutations.length by omega, List.take_left]
      exact (captures_snapshot hclient).congr fun key _ => h.cache key

omit [DecidableEq Key] in
/-- A mutation that is pending after another has ended is one of the others. -/
theorem getElem?_of_set {mutations : List (Mutation client)} {place i : Nat}
    {mutation' other : Mutation client} (hended : mutation'.status ≠ .pending)
    (h : (mutations.set place mutation')[i]? = some other) (hpending : other.status = .pending) :
    place ≠ i ∧ mutations[i]? = some other := by
  have hne : place ≠ i := by
    rintro rfl
    rw [List.getElem?_set_self'] at h
    obtain ⟨_, -, rfl⟩ := Option.map_eq_some_iff.mp h
    exact hended hpending
  rw [List.getElem?_set_ne hne] at h
  exact ⟨hne, h⟩

omit [DecidableEq Key] in
/-- What is unspoiled when a mutation has ended was so before. -/
theorem Unspoiled.of_set {mutations : List (Mutation client)} {place i : Nat}
    {mutation mutation' other : Mutation client} (h : mutations[place]? = some mutation)
    (hpending : mutation.status = .pending)
    (hunspoiled : Unspoiled (mutations.set place mutation') i other) :
    Unspoiled mutations i other := by
  intro j earlier n hj hearlier hstatus hn
  have hne : place ≠ j := by
    rintro rfl
    obtain rfl := Option.some.inj (h.symm.trans hearlier)
    rw [hpending] at hstatus
    cases hstatus
  refine hunspoiled j earlier n hj ?_ hstatus hn
  rwa [List.getElem?_set_ne hne]

omit [DecidableEq Key] in
/-- A mutation succeeds. -/
theorem Consistent.succeed (h : Consistent start sys) {place : Nat} {mutation : Mutation client}
    (hmutation : sys.mutations[place]? = some mutation) (hpending : mutation.status = .pending)
    (hcache : sys'.cache = sys.cache)
    (hmutations : sys'.mutations =
      sys.mutations.set place { mutation with status := .succeeded }) : Consistent start sys' := by
  have hfailed : Mutation.failed { mutation with status := .succeeded } = mutation.failed :=
    (failed_of_pending hpending).symm
  refine ⟨fun key => ?_, fun i other hother hpending' hunspoiled => ?_⟩
  · rw [hcache, hmutations, expected, patchesOf_set_of_same hmutation hfailed rfl]
    exact h.cache key
  · rw [hmutations] at hother hunspoiled ⊢
    obtain ⟨-, hother⟩ := getElem?_of_set (fun heq => Status.noConfusion heq) hother hpending'
    have hcaptures := h.context i other hother hpending' (hunspoiled.of_set hmutation hpending)
    rw [List.take_set]
    by_cases hlt : place < i
    · rwa [expected, patchesOf_set_of_same (by rwa [List.getElem?_take_of_lt hlt]) hfailed rfl]
    · rwa [List.set_eq_of_length_le (by rw [List.length_take]; omega)]

/-- A mutation fails, and its rollback undoes its own patch. -/
theorem Consistent.fail (hclient : client.Lawful) (h : Consistent start sys) {place : Nat}
    {mutation : Mutation client} (hmutation : sys.mutations[place]? = some mutation)
    (hpending : mutation.status = .pending)
    (hisolated : Isolated sys.cache sys.mutations place mutation)
    (hcache : sys'.cache = mutation.spec.onError (some mutation.context) sys.cache)
    (hmutations : sys'.mutations = sys.mutations.set place
      { mutation with status := .failed sys.mutations.length }) : Consistent start sys' := by
  have hfailing : Failing sys.mutations place mutation
      { mutation with status := .failed sys.mutations.length } :=
    ⟨hmutation, failed_of_pending hpending, rfl, hisolated.later⟩
  have hcaptures := h.context place mutation hmutation hpending hisolated.earlier
  refine ⟨fun key => ?_, fun i other hother hpending' hunspoiled => ?_⟩
  · rw [hcache, hmutations, query_onError hclient hcaptures hisolated.empty]
    by_cases hkey : Under client mutation.spec.keys key
    · rw [if_pos hkey, hfailing.query_of_under start hkey]
    · rw [if_neg hkey, h.cache, hfailing.query_of_ne start fun hentry =>
        hkey (mutation.spec.affected key hentry)]
  · rw [hmutations] at hother hunspoiled ⊢
    obtain ⟨-, hother⟩ := getElem?_of_set (fun heq => Status.noConfusion heq) hother hpending'
    have hcaptures' := h.context i other hother hpending' (hunspoiled.of_set hmutation hpending)
    rw [List.take_set]
    by_cases hlt : place < i
    -- the snapshot of a later mutation has nothing of this one
    · refine hcaptures'.congr fun key hkey => ((hfailing.take hlt).query_of_ne start ?_).symm
      intro hentry
      obtain ⟨hi, -⟩ := List.getElem?_eq_some_iff.mp hother
      obtain ⟨hplace, -⟩ := List.getElem?_eq_some_iff.mp hmutation
      exact hunspoiled place _ _ hlt (List.getElem?_set_self hplace) rfl hi key hentry hkey
    · rwa [List.set_eq_of_length_le (by rw [List.length_take]; omega)]

theorem consistent_step (hclient : client.Lawful) (h : Consistent start sys)
    (hisolated : FailsIsolated sys action) (hstep : step sys action = some sys') :
    Consistent start sys' := by
  cases action with
  | mutate spec =>
    obtain rfl := Option.some.inj hstep
    exact h.of_query (fun _ => query_cancel hclient) rfl
  | start place =>
    obtain ⟨spec, -, hstep⟩ := Option.bind_eq_some_iff.mp hstep
    obtain rfl := Option.some.inj hstep
    exact h.started hclient spec rfl rfl
  | succeed place =>
    obtain ⟨mutation, hmutation, hstep⟩ := Option.bind_eq_some_iff.mp hstep
    obtain ⟨hpending, hstep⟩ := Option.ite_none_right_eq_some.mp hstep
    obtain rfl := Option.some.inj hstep
    exact h.succeed hmutation hpending rfl rfl
  | fail place error =>
    obtain ⟨mutation, hmutation, hstep⟩ := Option.bind_eq_some_iff.mp hstep
    obtain ⟨hpending, hstep⟩ := Option.ite_none_right_eq_some.mp hstep
    obtain rfl := Option.some.inj hstep
    exact h.fail hclient hmutation hpending (hisolated mutation hmutation) rfl rfl
  | settle place =>
    obtain ⟨mutation, -, hstep⟩ := Option.bind_eq_some_iff.mp hstep
    obtain ⟨-, hstep⟩ := Option.ite_none_left_eq_some.mp hstep
    obtain rfl := Option.some.inj hstep
    exact h.of_query (fun _ => query_onSettled hclient) rfl

/-- **Where every mutation that fails is isolated, the cache is always what the patches of the
mutations that have not failed make of the first cache**, in the order in which they started. -/
theorem cached_of_isolated (hclient : client.Lawful)
    (hrun : ReachableWhen step FailsIsolated (initial client start) sys) (key : Key) :
    client.query sys.cache key = client.query (expected start sys.mutations) key := by
  have hstart : Consistent start (initial client start : System client Error) :=
    ⟨fun _ => rfl, fun _ _ hmutation => by cases hmutation⟩
  exact (hrun.invariant hstart fun h hisolated hstep =>
    consistent_step hclient h hisolated hstep).cache key

end

omit [DecidableEq Key] in
/-- The last mutation is isolated while none has failed, where all its queries have data. -/
theorem isolated_of_last {cache : Cache} {mutations : List (Mutation client)} {place : Nat}
    {mutation : Mutation client} (hlast : mutations.length = place + 1)
    (hunfailed : ∀ other ∈ mutations, other.failed = false)
    (hdata : ∀ entry ∈ mutation.context.entries, entry.2 ≠ none) :
    Isolated cache mutations place mutation where
  later i other hi hother := by
    obtain ⟨hlt, -⟩ := List.getElem?_eq_some_iff.mp hother
    omega
  earlier i other n _ hother hstatus := by
    have hfailed := hunfailed other (List.mem_of_getElem? hother)
    rw [Mutation.failed, hstatus] at hfailed
    cases hfailed
  empty key hmem := absurd rfl (hdata _ hmem)

/-! ### A card that is renamed and archived -/

section
variable (hclient : client.Lawful) (key : Key) (f g : Data → Data)

/-- `setQueryData` with an updater, of a query that has data. -/
def edit (client : QueryClient Cache Key Data) (key : Key) (f : Data → Data) (cache : Cache) :
    Cache :=
  match client.query cache key with
  | some (some data) => client.setQueryData cache key (some (f data))
  | _ => cache

include hclient in
theorem query_edit (cache : Cache) (found : Key) :
    client.query (edit client key f cache) found =
      if found = key then (client.query cache key).map (Option.map f)
      else client.query cache found := by
  unfold edit
  rcases hquery : client.query cache key with _ | _ | data
  · by_cases hfound : found = key <;> simp [hfound, hquery]
  · by_cases hfound : found = key <;> simp [hfound, hquery]
  · simp [hclient.setQueryData_some]

/-- It reads and writes its entry. -/
def editPatch : LocalPatch client.query where
  run := edit client key f
  entries found := found = key
  frame cache found hfound := by rw [query_edit hclient, if_neg hfound]
  reads cache cache' hsame found hfound := by
    rw [query_edit hclient, query_edit hclient, if_pos hfound, if_pos hfound, hsame key rfl]

include hclient in
/-- Edits of different fields of one entry can be made in either order. -/
theorem query_edit_comm (hcomm : ∀ data, f (g data) = g (f data)) (cache : Cache) (found : Key) :
    client.query (edit client key f (edit client key g cache)) found =
      client.query (edit client key g (edit client key f cache)) found := by
  have hmap : (Option.map f ∘ Option.map g) = (Option.map g ∘ Option.map f) := by
    funext data
    simp [Function.comp_def, hcomm]
  by_cases hfound : found = key
  · simp [query_edit hclient, hfound, hmap]
  · simp [query_edit hclient, hfound]

end

structure Card where
  title : String
  archived : Bool
  deriving DecidableEq, Repr

/-- A change of the card in the cache. -/
def editCard (f : Card → Card) (failureTitle : String) : OptimisticSpec (listClient Card) where
  keys := [[1]]
  patch := editPatch listClient_lawful [1] f
  failureTitle := failureTitle
  affected found hfound := by
    rw [show found = [1] from hfound]
    exact ⟨[1], List.mem_singleton_self _, rfl⟩

def rename : OptimisticSpec (listClient Card) :=
  editCard (fun card => { card with title := "after" }) "Could not rename the card"

def archive : OptimisticSpec (listClient Card) :=
  editCard (fun card => { card with archived := true }) "Could not archive the card"

def oneCard : Queries Card := [([1], some ⟨"before", false⟩)]

/-- The second of two mutations fails. -/
theorem cached_of_isolated_last : ∃ sys : System (listClient Card) Unit,
    Reachable step (initial (listClient Card) oneCard) sys ∧
      (listClient Card).query sys.cache [1] = some (some ⟨"after", false⟩) ∧
      (listClient Card).query sys.cache [1] =
        (listClient Card).query (expected oneCard sys.mutations) [1] := by
  have hrenamed : ReachableWhen step FailsIsolated
      (initial (listClient Card) oneCard : System _ Unit) _ :=
    (Relation.ReflTransGen.refl.tail ⟨.mutate rename, trivial, rfl⟩).tail ⟨.start 0, trivial, rfl⟩
  have harchived : ReachableWhen step FailsIsolated
      (initial (listClient Card) oneCard : System _ Unit) _ :=
    (hrenamed.tail ⟨.mutate archive, trivial, rfl⟩).tail ⟨.start 0, trivial, rfl⟩
  have hrun := harchived.tail ⟨.fail 1 (), fun mutation hmutation => by
    obtain rfl := Option.some.inj hmutation
    refine isolated_of_last rfl (fun other hother => ?_) fun entry hentry => ?_
    · rcases List.mem_cons.mp hother with rfl | hother
      · rfl
      · obtain rfl := List.mem_singleton.mp hother
        rfl
    · change entry ∈ [(([1] : List Nat), some (⟨"after", false⟩ : Card))] at hentry
      rw [List.mem_singleton.mp hentry]
      exact Option.some_ne_none _, rfl⟩
  exact ⟨_, ReachableWhen.mono hrun fun _ _ _ => trivial, rfl,
    cached_of_isolated listClient_lawful hrun [1]⟩

/-- **The first of two mutations fails, and the patch of the second is lost**, though they change
different fields. -/
theorem patch_lost : ∃ sys : System (listClient Card) Unit,
    run step (initial (listClient Card) oneCard)
        [.mutate rename, .start 0, .mutate archive, .start 0, .fail 0 ()] = some sys ∧
      (listClient Card).query sys.cache [1] = some (some ⟨"before", false⟩) ∧
      (listClient Card).query (expected oneCard sys.mutations) [1] =
        some (some ⟨"before", true⟩) ∧
      ∀ cache key, (listClient Card).query (rename.patch.run (archive.patch.run cache)) key =
        (listClient Card).query (archive.patch.run (rename.patch.run cache)) key := by
  have hsome : ((run step (initial (listClient Card) oneCard)
      [.mutate rename, .start 0, .mutate archive, .start 0, .fail 0 ()]).map
        fun sys : System (listClient Card) Unit => ((listClient Card).query sys.cache [1],
          (listClient Card).query (expected oneCard sys.mutations) [1])) =
      some (some (some ⟨"before", false⟩), some (some ⟨"before", true⟩)) := rfl
  obtain ⟨sys, hrun, hresult⟩ := Option.map_eq_some_iff.mp hsome
  obtain ⟨hquery, hexpected⟩ := Prod.mk.inj hresult
  exact ⟨sys, hrun, hquery, hexpected, query_edit_comm listClient_lawful [1] _ _ fun _ => rfl⟩

end Optimistic
end TaskFlow
