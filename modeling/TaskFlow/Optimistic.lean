import TaskFlow.LocalPatch
import TaskFlow.StepSystem

/-! # Optimistic mutations

`useOptimistic` builds the handlers of a mutation that shows its outcome before the server has
answered.  When it starts, the entries of the cache under its keys are kept as they are, and then
patched; when it fails, they are put back, and what was not there is removed.

The cache is that of a library, of which the handlers use the operations of `QueryClient`, as
`Lawful` says that they behave.
-/
namespace TaskFlow
namespace Optimistic
open StepSystem

/-- What the handlers use of a `QueryClient`.  A query is found by its key, and has data or has
none yet. -/
structure QueryClient (Cache Key Data : Type) where
  /-- A query's key is under this one. -/
  matchesKey : Key → Key → Bool
  query : Cache → Key → Option (Option Data)
  cancelQueries : Cache → Key → Cache
  getQueriesData : Cache → Key → List (Key × Option Data)
  setQueryData : Cache → Key → Option Data → Cache
  findAll : Cache → Key → List Key
  /-- `removeQueries`, of exactly this key. -/
  removeQuery : Cache → Key → Cache
  invalidateQueries : Cache → Key → Cache

/-- How they behave. -/
structure QueryClient.Lawful {Cache Key Data : Type} [DecidableEq Key]
    (client : QueryClient Cache Key Data) : Prop where
  /-- A fetch that is cancelled leaves the data. -/
  cancelQueries : ∀ cache key found,
    client.query (client.cancelQueries cache key) found = client.query cache found
  getQueriesData : ∀ cache key found data,
    (found, data) ∈ client.getQueriesData cache key ↔
      client.matchesKey key found ∧ client.query cache found = some data
  /-- Without data it does nothing. -/
  setQueryData_none : ∀ cache key, client.setQueryData cache key none = cache
  setQueryData_some : ∀ cache key data found,
    client.query (client.setQueryData cache key (some data)) found =
      if found = key then some (some data) else client.query cache found
  findAll : ∀ cache key found,
    found ∈ client.findAll cache key ↔
      client.matchesKey key found ∧ client.query cache found ≠ none
  removeQuery : ∀ cache key found,
    client.query (client.removeQuery cache key) found =
      if found = key then none else client.query cache found
  /-- The data stay until a refetch lands. -/
  invalidateQueries : ∀ cache key found,
    client.query (client.invalidateQueries cache key) found = client.query cache found

/-! ### A list of queries -/

section
variable {Data : Type}

abbrev Queries (Data : Type) := List (List Nat × Option Data)

/-- A key is under its prefixes. -/
def listClient (Data : Type) : QueryClient (Queries Data) (List Nat) Data where
  matchesKey key found := key.isPrefixOf found
  query cache key := cache.lookup key
  cancelQueries cache _ := cache
  getQueriesData cache key :=
    (cache.map Prod.fst).filterMap fun found =>
      if key.isPrefixOf found then (cache.lookup found).map (Prod.mk found) else none
  setQueryData
    | cache, _, none => cache
    | cache, key, some data => (key, some data) :: cache.filter fun query => query.1 ≠ key
  findAll cache key := (cache.map Prod.fst).filter fun found => key.isPrefixOf found
  removeQuery cache key := cache.filter fun query => query.1 ≠ key
  invalidateQueries cache _ := cache

theorem mem_of_lookup {cache : Queries Data} {key : List Nat} {data : Option Data}
    (h : cache.lookup key = some data) : key ∈ cache.map Prod.fst := by
  obtain ⟨before, after, rfl, -⟩ := List.lookup_eq_some_iff.mp h
  simp

theorem lookup_filter (cache : Queries Data) (key found : List Nat) :
    (cache.filter fun query => query.1 ≠ key).lookup found =
      if found = key then none else cache.lookup found := by
  induction cache with
  | nil => simp
  | cons query cache ih =>
    obtain ⟨first, data⟩ := query
    by_cases hfirst : first = key
    · by_cases hfound : found = key
      · simpa [hfirst, hfound] using ih
      · simpa [hfirst, hfound, List.lookup_cons, beq_false_of_ne hfound] using ih
    · rw [List.filter_cons_of_pos (by simpa using hfirst), List.lookup_cons, List.lookup_cons, ih]
      by_cases hfound : found = key
      · simp [hfound, beq_false_of_ne (Ne.symm hfirst)]
      · simp [hfound]

theorem listClient_lawful : (listClient Data).Lawful where
  cancelQueries _ _ _ := rfl
  getQueriesData cache key found data := by
    simp only [listClient, List.mem_filterMap, Option.ite_none_right_eq_some,
      Option.map_eq_some_iff, Prod.mk.injEq]
    constructor
    · rintro ⟨found, -, hmatch, data, hdata, rfl, rfl⟩
      exact ⟨hmatch, hdata⟩
    · rintro ⟨hmatch, hdata⟩
      exact ⟨found, mem_of_lookup hdata, hmatch, data, hdata, rfl, rfl⟩
  setQueryData_none _ _ := rfl
  setQueryData_some cache key data found := by
    have hrest := lookup_filter cache key found
    by_cases hfound : found = key
    · simp [listClient, hfound]
    · simpa [listClient, hfound, List.lookup_cons, beq_false_of_ne hfound] using hrest
  findAll cache key found := by
    simp only [listClient, List.mem_filter, and_comm]
    refine and_congr_right fun _ => ⟨fun hmem hnone => ?_, fun hsome => ?_⟩
    · obtain ⟨query, hquery, rfl⟩ := List.mem_map.mp hmem
      exact absurd (List.lookup_eq_none_iff.mp hnone query hquery) (by simp)
    · obtain ⟨data, hdata⟩ := Option.ne_none_iff_exists'.mp hsome
      exact mem_of_lookup hdata
  removeQuery cache key found := lookup_filter cache key found
  invalidateQueries _ _ _ := rfl

end

section
variable {Cache Key Data Error : Type} [DecidableEq Key] (client : QueryClient Cache Key Data)

def Under (keys : List Key) (found : Key) : Prop := ∃ key ∈ keys, client.matchesKey key found

/-- What a call site supplies, with the variables of its mutation: the patch is of entries under
the keys. -/
structure OptimisticSpec where
  keys : List Key
  patch : LocalPatch client.query
  failureTitle : String
  affected : ∀ key, patch.entries key → Under client keys key

structure Snapshot (Key Data : Type) where
  entries : List (Key × Option Data)
  /-- The keys that had a query before the patch. -/
  existingKeys : List Key

variable {client} in
/-- The queries that are being fetched are cancelled. -/
def OptimisticSpec.cancel (spec : OptimisticSpec client) (cache : Cache) : Cache :=
  spec.keys.foldl client.cancelQueries cache

variable {client} in
def OptimisticSpec.snapshot (spec : OptimisticSpec client) (cache : Cache) : Snapshot Key Data :=
  let entries := spec.keys.flatMap (client.getQueriesData cache)
  ⟨entries, entries.map Prod.fst⟩

variable {client} in
/-- The rest of `onMutate`. -/
def OptimisticSpec.onMutate (spec : OptimisticSpec client) (cache : Cache) :
    Cache × Snapshot Key Data :=
  (spec.patch.run cache, spec.snapshot cache)

/-- Puts the entries back. -/
def restore (entries : List (Key × Option Data)) (cache : Cache) : Cache :=
  entries.foldl (fun cache entry => client.setQueryData cache entry.1 entry.2) cache

/-- Removes what is found, where it was not there. -/
def removeAll (existed : Key → Bool) (found : List Key) (cache : Cache) : Cache :=
  found.foldl (fun cache key => if existed key then cache else client.removeQuery cache key) cache

def removeNew (existed : Key → Bool) (keys : List Key) (cache : Cache) : Cache :=
  keys.foldl (fun cache key => removeAll client existed (client.findAll cache key) cache) cache

variable {client} in
/-- The rollback.  There is no context where `onMutate` has thrown. -/
def OptimisticSpec.onError (spec : OptimisticSpec client) (context : Option (Snapshot Key Data))
    (cache : Cache) : Cache :=
  let entries := (context.map Snapshot.entries).getD []
  let existed key := context.any fun context => key ∈ context.existingKeys
  removeNew client existed spec.keys (restore client entries cache)

variable {client} in
def OptimisticSpec.onSettled (spec : OptimisticSpec client) (cache : Cache) : Cache :=
  spec.keys.foldl client.invalidateQueries cache

/-! ### Mutations at the same time -/

inductive Status where
  | pending
  | succeeded
  /-- When so many mutations had started. -/
  | failed (started : Nat)
  deriving DecidableEq, Repr

/-- A mutation that has started. -/
structure Mutation where
  spec : OptimisticSpec client
  context : Snapshot Key Data
  status : Status

/-- The cache, the mutations whose `onMutate` is cancelling, and those that have started, in that
order. -/
structure System (Error : Type) where
  cache : Cache
  cancelling : List (OptimisticSpec client)
  mutations : List (Mutation client)
  /-- What `onFailure` was told, the last first. -/
  failures : List (String × Error)

def initial (cache : Cache) : System client Error := ⟨cache, [], [], []⟩

inductive Action (Error : Type) where
  | mutate (spec : OptimisticSpec client)
  /-- The cancelling is done, for the one at this place. -/
  | start (place : Nat)
  | succeed (place : Nat)
  | fail (place : Nat) (error : Error)
  | settle (place : Nat)

variable {client} in
def step (sys : System client Error) : Action client Error → Option (System client Error)
  | .mutate spec => some { sys with
      cache := spec.cancel sys.cache, cancelling := sys.cancelling ++ [spec] }
  | .start place => do
    let spec ← sys.cancelling[place]?
    let (cache, context) := spec.onMutate sys.cache
    return { sys with
      cache := cache
      cancelling := sys.cancelling.eraseIdx place
      mutations := sys.mutations ++ [⟨spec, context, .pending⟩] }
  | .succeed place => do
    let mutation ← sys.mutations[place]?
    if mutation.status = .pending then
      return { sys with
        mutations := sys.mutations.set place { mutation with status := .succeeded } }
    else none
  | .fail place error => do
    let mutation ← sys.mutations[place]?
    if mutation.status = .pending then
      return { sys with
        cache := mutation.spec.onError (some mutation.context) sys.cache
        mutations := sys.mutations.set place
          { mutation with status := .failed sys.mutations.length }
        failures := (mutation.spec.failureTitle, error) :: sys.failures }
    else none
  | .settle place => do
    let mutation ← sys.mutations[place]?
    if mutation.status = .pending then none
    else return { sys with cache := mutation.spec.onSettled sys.cache }

end

end Optimistic
end TaskFlow
