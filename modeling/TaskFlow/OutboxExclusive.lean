import Mathlib.Data.List.Nodup
import TaskFlow.Outbox

/-! # A consumer's batches are disjoint

`Session` is what a session knows through its locks: it has locked the outbox
row of every event it has claimed, it writes dispatch rows of such events only,
and no dispatched event loses its mark.  With it two facts about the whole
system are kept: what a session has claimed is not dispatched yet, and what a
committed batch contains is.  The first is where `LocksOwed` is needed.
-/
namespace TaskFlow
namespace Outbox
open ReadCommitted StepSystem

/-! ### The rows -/

section
variable {rows rows' : Rows} {id id' : EventId} {consumer consumer' : String}

theorem dispatched_congr
    (h : rows (.outboxDispatch id consumer) = rows' (.outboxDispatch id consumer)) :
    Dispatched rows id consumer ↔ Dispatched rows' id consumer := by
  simp [Dispatched, dispatchAt, h]

/-- The claim's query returns an event under its own id. -/
theorem owed_id {row : OutboxRow} (h : owed rows consumer id = some row) : row.id = id := by
  obtain ⟨record, _, h⟩ := Option.bind_eq_some_iff.mp h
  by_cases hd : (dispatchAt rows id consumer).bind Dispatch.dispatchedAt = none
  · rw [if_pos hd] at h
    rw [← Option.some.inj h]
  · rw [if_neg hd] at h
    cases h

theorem owed_nodup {ids : List EventId} (hids : ids.Nodup) :
    ((ids.filterMap (owed rows consumer)).map OutboxRow.id).Nodup := by
  induction ids with
  | nil => exact List.nodup_nil
  | cons id ids ih =>
    obtain ⟨hid, hids⟩ := List.nodup_cons.mp hids
    cases h : owed rows consumer id with
    | none => simpa [List.filterMap_cons, h] using ih hids
    | some row =>
      rw [List.filterMap_cons, h]
      refine List.nodup_cons.mpr ⟨fun hmem => hid ?_, ih hids⟩
      obtain ⟨row', hrow', heq⟩ := List.mem_map.mp hmem
      obtain ⟨id', hid', howed⟩ := List.mem_filterMap.mp hrow'
      rwa [← owed_id h, ← heq, owed_id howed]

/-- The claim's snapshot lists an event once. -/
theorem pendingRows_nodup {ids : List EventId} (hids : ids.Nodup) :
    ((pendingRows ids rows consumer).map OutboxRow.id).Nodup :=
  ((List.mergeSort_perm _ occursBefore).map OutboxRow.id).nodup_iff.mpr (owed_nodup hids)

/-- Appending an event touches no dispatch row. -/
theorem dispatched_append (events : List DomainEvent) :
    Dispatched (overlay (events.map appendToOutbox) rows) id consumer ↔
      Dispatched rows id consumer :=
  dispatched_congr (overlay_of_notMem (by simp [appendToOutbox]) rows)

theorem dispatched_update_of_ne {k : Key} {v : Option Row} (h : k ≠ .outboxDispatch id consumer) :
    Dispatched (Function.update rows k v) id consumer ↔ Dispatched rows id consumer :=
  dispatched_congr (Function.update_of_ne h.symm v rows)

theorem dispatchAt_update_self (dispatch : Dispatch) :
    dispatchAt (Function.update rows (.outboxDispatch id consumer)
      (some (.outboxDispatch dispatch))) id consumer = some dispatch := by
  simp [dispatchAt]

/-- Recording a failure leaves the mark as it was. -/
theorem dispatched_recordFailure (error : String) (h : Dispatched rows id consumer) :
    Dispatched (overlay [recordFailure rows consumer' id' error] rows) id consumer := by
  by_cases hk : Key.outboxDispatch id' consumer' = .outboxDispatch id consumer
  · obtain ⟨rfl, rfl⟩ := Key.outboxDispatch.inj hk
    unfold Dispatched at h ⊢
    rw [recordFailure, overlay_cons, overlay_nil, dispatchAt_update_self]
    cases hat : dispatchAt rows id' consumer' with
    | none => simp [hat] at h
    | some dispatch => simpa [hat, Dispatch.failed] using h
  · exact (dispatched_update_of_ne hk).mpr h

/-- Marking marks the events listed and no other. -/
theorem dispatched_mark (now : Int) (batch : List EventId) :
    Dispatched (overlay (batch.map (markDispatched rows' consumer' now)) rows) id consumer ↔
      (id ∈ batch ∧ consumer = consumer') ∨ Dispatched rows id consumer := by
  induction batch with
  | nil => simp
  | cons id' batch ih =>
    rw [List.map_cons, markDispatched, overlay_cons]
    by_cases hk : Key.outboxDispatch id' consumer' = .outboxDispatch id consumer
    · obtain ⟨rfl, rfl⟩ := Key.outboxDispatch.inj hk
      unfold Dispatched
      rw [dispatchAt_update_self]
      cases hat : dispatchAt rows' id' consumer' <;> simp [Dispatch.marked]
    · rw [dispatched_update_of_ne hk, ih]
      simp only [Key.outboxDispatch.injEq, not_and] at hk
      constructor
      · rintro (⟨hid, rfl⟩ | h)
        · exact Or.inl ⟨List.mem_cons_of_mem _ hid, rfl⟩
        · exact Or.inr h
      · rintro (⟨hid, rfl⟩ | h)
        · rcases List.mem_cons.mp hid with rfl | hid
          · exact absurd rfl (hk rfl)
          · exact Or.inl ⟨hid, rfl⟩
        · exact Or.inr h

end

/-! ### One statement -/

/-- What a statement that goes on does. -/
inductive Runs (ids : List EventId) (rows : Rows) :
    Phase → List Key → List (Key × Option Row) → Phase → Prop where
  | append {events : List DomainEvent} : Runs ids rows .idle [] (events.map appendToOutbox) .appended
  | claim {consumer : String} {limit : Nat} :
      Runs ids rows .idle [] [] (.locking consumer limit (pendingRows ids rows consumer) [])
  | claimed {consumer : String} {limit : Nat} {candidates claimed : List OutboxRow} :
      Runs ids rows (.locking consumer limit candidates claimed) [] []
        (.handling consumer claimed [])
  | skip {consumer : String} {limit : Nat} {row : OutboxRow} {candidates claimed : List OutboxRow} :
      Runs ids rows (.locking consumer limit (row :: candidates) claimed) [] []
        (.locking consumer limit candidates claimed)
  | lock {consumer : String} {limit : Nat} {row : OutboxRow} {candidates claimed : List OutboxRow} :
      claimed.length < limit →
      Runs ids rows (.locking consumer limit (row :: candidates) claimed) [.outbox row.id] []
        (.locking consumer limit candidates (claimed ++ [row]))
  | handled {consumer : String} {row : OutboxRow} {rest : List OutboxRow} {done : List EventId} :
      Runs ids rows (.handling consumer (row :: rest) done) [] []
        (.handling consumer rest (done ++ [row.id]))
  | failed {consumer : String} {row : OutboxRow} {rest : List OutboxRow} {done : List EventId}
      {error : String} :
      Runs ids rows (.handling consumer (row :: rest) done) []
        [recordFailure rows consumer row.id error] (.handling consumer rest done)
  | mark {consumer : String} {batch : List EventId} {now : Int} :
      Runs ids rows (.handling consumer [] batch) []
        (batch.map (markDispatched rows consumer now)) (.marked consumer batch)

theorem runs_of_statement {ids : List EventId} {phase next : Phase} {input : Input} {rows : Rows}
    {held : Key → Bool} {locks : List Key} {writes : List (Key × Option Row)}
    (h : statement ids phase input rows held = some (.run locks writes next)) :
    Runs ids rows phase locks writes next := by
  cases phase <;> cases input <;> try (simp [statement] at h; done)
  case idle.append events =>
    simp only [statement] at h
    split at h
    · cases h
      exact .append
    · cases h
  case idle.claim =>
    cases h
    exact .claim
  case locking.lockNext consumer limit candidates claimed =>
    cases candidates with
    | nil =>
      cases h
      exact .claimed
    | cons row candidates =>
      simp only [statement] at h
      by_cases hlimit : limit ≤ claimed.length
      · rw [if_pos hlimit] at h
        cases h
        exact .claimed
      rw [if_neg hlimit] at h
      by_cases hheld : held (.outbox row.id) = true
      · rw [if_pos hheld] at h
        cases h
        exact .skip
      · rw [if_neg hheld] at h
        cases h
        exact .lock (not_le.mp hlimit)
  case handling.handled consumer rest done =>
    cases rest with
    | nil => simp [statement] at h
    | cons row rest =>
      cases h
      exact .handled
  case handling.failed consumer rest done error =>
    cases rest with
    | nil => simp [statement] at h
    | cons row rest =>
      cases h
      exact .failed
  case handling.mark consumer rest done now =>
    cases rest with
    | nil =>
      cases h
      exact .mark
    | cons row rest => simp [statement] at h

/-- Ending the transaction leaves the session idle. -/
theorem next_of_commit {ids : List EventId} {phase next : Phase} {input : Input} {rows : Rows}
    {held : Key → Bool} (h : statement ids phase input rows held = some (.commit next)) :
    next = .idle ∧ input = .commit ∧
      (phase = .appended ∨ ∃ consumer batch, phase = .marked consumer batch) := by
  unfold statement at h
  repeat' split at h
  all_goals simp_all

theorem next_of_rollback {ids : List EventId} {phase next : Phase} {input : Input} {rows : Rows}
    {held : Key → Bool} (h : statement ids phase input rows held = some (.rollback next)) :
    next = .idle := by
  unfold statement at h
  repeat' split at h
  all_goals simp_all

/-! ### What a session knows -/

/-- What holds of a session whatever the others do, by the rows it has
locked. -/
structure Session (phase : Phase) (writes : List (Key × Option Row)) (own : Key → Prop)
    (committed : Rows) : Prop where
  locked : ∀ k ∈ writes.map Prod.fst, own k
  dispatch : ∀ id consumer, .outboxDispatch id consumer ∈ writes.map Prod.fst → own (.outbox id)
  claimed : ∀ e ∈ phase.claimed, own (.outbox e.2)
  nodup : (phase.claimed ++ phase.candidates).Nodup
  keeps : ∀ id consumer, Dispatched committed id consumer →
    Dispatched (overlay writes committed) id consumer
  marks : ∀ consumer batch, phase = .marked consumer batch → ∀ id ∈ batch,
    .outboxDispatch id consumer ∈ writes.map Prod.fst ∧
      Dispatched (overlay writes committed) id consumer

theorem Session.idle (own : Key → Prop) (committed : Rows) : Session .idle [] own committed where
  locked := by simp
  dispatch := by simp
  claimed := by simp [Phase.claimed]
  nodup := by simp [Phase.claimed, Phase.candidates]
  keeps := fun _ _ h => h
  marks := by simp

theorem Session.frame {phase : Phase} {writes : List (Key × Option Row)} {own : Key → Prop}
    {c c' : Rows} (h : Session phase writes own c) (hc : ∀ k, own k → c k = c' k) :
    Session phase writes own c' where
  locked := h.locked
  dispatch := h.dispatch
  claimed := h.claimed
  nodup := h.nodup
  keeps := by
    intro id consumer hd
    by_cases hk : .outboxDispatch id consumer ∈ writes.map Prod.fst
    · have heq := hc _ (h.locked _ hk)
      exact (dispatched_congr (overlay_congr heq)).mp
        (h.keeps id consumer ((dispatched_congr heq).mpr hd))
    · exact (dispatched_congr (overlay_of_notMem hk c')).mpr hd
  marks := by
    intro consumer batch hphase id hid
    obtain ⟨hk, hd⟩ := h.marks consumer batch hphase id hid
    exact ⟨hk, (dispatched_congr (overlay_congr (hc _ (h.locked _ hk)))).mp hd⟩

theorem session_run {ids : List EventId} (hids : ids.Nodup) {phase next : Phase}
    {writes new : List (Key × Option Row)} {own : Key → Prop} {c : Rows} {locks : List Key}
    (h : Session phase writes own c)
    (hrun : Runs ids (overlay writes c) phase locks new next) :
    Session next (new ++ writes) (fun k => own k ∨ k ∈ locks ++ new.map Prod.fst) c := by
  have hlocked : ∀ k ∈ (new ++ writes).map Prod.fst, own k ∨ k ∈ locks ++ new.map Prod.fst := by
    intro k hk
    rw [List.map_append, List.mem_append] at hk
    rcases hk with hk | hk
    · exact Or.inr (List.mem_append_right _ hk)
    · exact Or.inl (h.locked k hk)
  cases hrun with
  -- an append writes no dispatch row
  | append =>
    exact {
      locked := hlocked
      dispatch := fun id consumer hk => Or.inl (h.dispatch id consumer
        (by simpa [appendToOutbox] using hk))
      claimed := by simp [Phase.claimed]
      nodup := by simp [Phase.claimed, Phase.candidates]
      keeps := fun id consumer hd => by
        rw [overlay_append, dispatched_append]
        exact h.keeps id consumer hd
      marks := by simp }
  | @claim consumer limit =>
    refine { h with
      locked := hlocked
      dispatch := fun id consumer hk => Or.inl (h.dispatch id consumer hk)
      claimed := by simp [Phase.claimed]
      nodup := ?_
      marks := by simp }
    simpa [Phase.claimed, Phase.candidates, Function.comp_def] using
      List.Nodup.map (Prod.mk_right_injective consumer) (pendingRows_nodup hids)
  | claimed =>
    refine { h with
      locked := hlocked
      dispatch := fun id consumer hk => Or.inl (h.dispatch id consumer hk)
      claimed := fun e he => Or.inl (h.claimed e (by simpa [Phase.claimed] using he))
      nodup := ?_
      marks := by simp }
    simpa [Phase.claimed, Phase.candidates, Function.comp_def] using
      h.nodup.sublist (List.sublist_append_left _ _)
  | skip =>
    exact { h with
      locked := hlocked
      dispatch := fun id consumer hk => Or.inl (h.dispatch id consumer hk)
      claimed := fun e he => Or.inl (h.claimed e he)
      nodup := h.nodup.sublist ((List.sublist_cons_self _ _).append_left _)
      marks := by simp }
  | lock =>
    refine { h with
      locked := hlocked
      dispatch := fun id consumer hk => Or.inl (h.dispatch id consumer hk)
      claimed := fun e he => ?_
      nodup := by simpa [Phase.claimed, Phase.candidates] using h.nodup
      marks := by simp }
    simp only [Phase.claimed, List.map_append, List.mem_append] at he
    rcases he with he | he
    · exact Or.inl (h.claimed e he)
    · simp only [List.map_cons, List.map_nil, List.mem_singleton] at he
      simp [he]
  | handled =>
    exact { h with
      locked := hlocked
      dispatch := fun id consumer hk => Or.inl (h.dispatch id consumer hk)
      claimed := fun e he => Or.inl (h.claimed e (by simpa [Phase.claimed] using he))
      nodup := by simpa [Phase.claimed, Phase.candidates] using h.nodup
      marks := by simp }
  -- the row that failed is no longer claimed, but its key stays locked to the end
  | @failed consumer row rest done error =>
    refine {
      locked := hlocked
      dispatch := fun id consumer' hk => Or.inl ?_
      claimed := fun e he => Or.inl (h.claimed e ?_)
      nodup := ?_
      keeps := fun id consumer' hd =>
        dispatched_recordFailure error (h.keeps id consumer' hd)
      marks := by simp }
    · simp only [List.cons_append, List.nil_append, List.map_cons, List.mem_cons] at hk
      rcases hk with hk | hk
      · obtain ⟨rfl, rfl⟩ := Key.outboxDispatch.inj hk
        exact h.claimed (consumer', row.id) (by simp [Phase.claimed])
      · exact h.dispatch id consumer' hk
    · simp only [Phase.claimed, List.map_append, List.mem_append, List.map_cons,
        List.mem_cons] at he ⊢
      rcases he with he | he
      · exact Or.inl he
      · exact Or.inr (Or.inr he)
    · refine h.nodup.sublist ?_
      simp [Phase.claimed, Phase.candidates]
  | @mark consumer batch now =>
    refine {
      locked := hlocked
      dispatch := fun id consumer' hk => Or.inl ?_
      claimed := fun e he => Or.inl (h.claimed e (by simpa [Phase.claimed] using he))
      nodup := by simpa [Phase.claimed, Phase.candidates] using h.nodup
      keeps := fun id consumer' hd => by
        rw [overlay_append, dispatched_mark]
        exact Or.inr (h.keeps id consumer' hd)
      marks := ?_ }
    · rw [List.map_append, List.mem_append] at hk
      rcases hk with hk | hk
      · obtain ⟨id', hid', heq⟩ := List.mem_map.mp (by simpa using hk)
        obtain ⟨rfl, rfl⟩ := Key.outboxDispatch.inj heq
        exact h.claimed (consumer, id') (by simpa [Phase.claimed] using hid')
      · exact h.dispatch id consumer' hk
    · rintro _ _ hphase id hid
      obtain ⟨rfl, rfl⟩ := Phase.marked.inj hphase
      rw [overlay_append, dispatched_mark]
      refine ⟨?_, Or.inl ⟨hid, rfl⟩⟩
      rw [List.map_append, List.mem_append]
      exact Or.inl (by simpa [markDispatched] using hid)

theorem session_invariant {ids : List EventId} (hids : ids.Nodup) :
    SessionInvariant (statement ids) Session where
  frame := fun hc h => h.frame hc
  run := fun h heq => session_run hids h (runs_of_statement heq)
  commit := fun _ heq => (next_of_commit heq).1 ▸ Session.idle _ _
  rollback := fun _ heq => next_of_rollback heq ▸ Session.idle _ _

/-! ### The system -/

variable {S : Type} [DecidableEq S] {ids : List EventId} {sys sys' : System S}

/-- What holds of the system while every lock is taken on an event still owed. -/
structure Valid (sys : System S) : Prop where
  locked : Locked sys.world
  session : ∀ s, Session (sys.world.locals s) (sys.world.pending s) (sys.world.Owns s)
    sys.world.committed
  owed : ∀ s, ∀ e ∈ (sys.world.locals s).claimed, ¬Dispatched sys.world.committed e.2 e.1
  dispatched : ∀ b ∈ sys.batches, ∀ id ∈ b.2, Dispatched sys.world.committed id b.1
  nodup : ∀ b ∈ sys.batches, b.2.Nodup
  disjoint : sys.batches.Pairwise fun b b' => b.1 = b'.1 → b.2.Disjoint b'.2

omit [DecidableEq S] in
theorem initial_valid (rows : Rows) : Valid (initial rows : System S) where
  locked := locked_initial rows _
  session := fun _ => Session.idle _ _
  owed := by simp [initial, World.initial, Phase.claimed]
  dispatched := by simp [initial]
  nodup := by simp [initial]
  disjoint := by simp [initial]

/-- What a statement that goes on claims was claimed before, but for the event
it locks. -/
theorem claimed_of_runs {rows : Rows} {phase next : Phase} {locks : List Key}
    {writes : List (Key × Option Row)} (h : Runs ids rows phase locks writes next)
    {e : String × EventId} (he : e ∈ next.claimed) :
    e ∈ phase.claimed ∨ ∃ limit row candidates claimed,
      phase = .locking e.1 limit (row :: candidates) claimed ∧ claimed.length < limit ∧
        e.2 = row.id ∧ .outbox row.id ∈ locks := by
  cases h with
  | append | claim => simp [Phase.claimed] at he
  | claimed | skip | handled | mark => exact Or.inl (by simpa [Phase.claimed] using he)
  | failed =>
    apply Or.inl
    simp only [Phase.claimed, List.map_append, List.mem_append, List.map_cons,
      List.mem_cons] at he ⊢
    rcases he with he | he
    · exact Or.inl he
    · exact Or.inr (Or.inr he)
  | lock hlimit =>
    simp only [Phase.claimed, List.map_append, List.mem_append, List.map_cons, List.map_nil,
      List.mem_singleton] at he
    rcases he with he | rfl
    · exact Or.inl he
    · exact Or.inr ⟨_, _, _, _, rfl, hlimit, rfl, List.mem_singleton.mpr rfl⟩

theorem input_of_locking {consumer : String} {limit : Nat} {candidates claimed : List OutboxRow}
    {input : Input} {rows : Rows} {held : Key → Bool} {locks : List Key}
    {writes : List (Key × Option Row)} {next : Phase}
    (h : statement ids (.locking consumer limit candidates claimed) input rows held =
      some (.run locks writes next)) : input = .lockNext := by
  cases input <;> first | rfl | simp [statement] at h

/-- Only a commit commits a batch. -/
theorem committing_eq_nil {phase : Phase} {input : Input} (h : input ≠ .commit) :
    committing phase input = [] := by
  unfold committing
  split
  · exact absurd rfl h
  · rfl

theorem ne_commit_of_run {phase next : Phase} {input : Input} {rows : Rows}
    {held : Key → Bool} {locks : List Key} {writes : List (Key × Option Row)}
    (h : statement ids phase input rows held = some (.run locks writes next)) :
    input ≠ .commit := by
  rintro rfl
  cases phase <;> simp [statement] at h

theorem ne_commit_of_rollback {phase next : Phase} {input : Input} {rows : Rows}
    {held : Key → Bool} (h : statement ids phase input rows held = some (.rollback next)) :
    input ≠ .commit := by
  rintro rfl
  cases phase <;> simp [statement] at h

theorem valid_step (hids : ids.Nodup) {a : S × Input} (hv : Valid sys) (hg : LocksOwed sys a)
    (h : step ids sys a = some sys') : Valid sys' := by
  obtain ⟨s, i⟩ := a
  obtain ⟨w', hw', rfl⟩ := Option.map_eq_some_iff.mp h
  have hlocked := locked_step hv.locked hw'
  have hsession := (session_invariant hids).step hv.locked hv.session hw'
  rcases step_cases hw' with ⟨locks, writes, next, heq, hfree, rfl⟩ | ⟨next, heq, rfl⟩ |
    ⟨next, heq, rfl⟩
  -- a statement: only a lock on a candidate adds to what the session has claimed
  · rw [committing_eq_nil (ne_commit_of_run heq)]
    refine { hv with
      locked := hlocked
      session := hsession
      owed := fun t e he => ?_ }
    by_cases hts : t = s
    · subst hts
      have he' : e ∈ next.claimed := by simpa [World.run] using he
      rcases claimed_of_runs (runs_of_statement heq) he' with
        hold | ⟨limit, row, candidates, claimed, hphase, hlimit, hid, hlock⟩
      · exact hv.owed t e hold
      · rw [hphase] at heq
        obtain rfl := input_of_locking heq
        simp only [LocksOwed, hphase] at hg
        rw [hid]
        exact hg hlimit (hfree _ (List.mem_append_left _ hlock))
    · exact hv.owed t e (by simpa [World.run, Function.update_of_ne hts] using he)
  -- a commit: nothing of its batch was dispatched before, so the batches stay disjoint
  · obtain ⟨rfl, rfl, hphase⟩ := next_of_commit heq
    have hbatch : ∀ b ∈ committing (sys.world.locals s) .commit,
        sys.world.locals s = .marked b.1 b.2 := by
      intro b hb
      rcases hphase with hp | ⟨consumer, batch, hp⟩
      · simp [hp, committing] at hb
      · simp only [hp, committing, List.mem_singleton] at hb
        rw [hp, hb]
    have howed : ∀ b ∈ committing (sys.world.locals s) .commit, ∀ id ∈ b.2,
        ¬Dispatched sys.world.committed id b.1 := fun b hb id hid =>
      hv.owed s (b.1, id) (by simpa [hbatch b hb, Phase.claimed] using hid)
    refine { locked := hlocked, session := hsession, owed := ?_, dispatched := ?_, nodup := ?_,
             disjoint := ?_ }
    · intro t e he
      by_cases hts : t = s
      · subst hts
        simp [World.commit, Phase.claimed] at he
      · have he' : e ∈ (sys.world.locals t).claimed := by
          simpa [World.commit, Function.update_of_ne hts] using he
        -- the key is locked by its claimant, so the commit of another session leaves it alone
        have hkey : .outboxDispatch e.2 e.1 ∉ (sys.world.pending s).map Prod.fst := fun hk =>
          hts (Option.some.inj (((hv.session t).claimed e he').symm.trans
            ((hv.session s).dispatch _ _ hk)))
        exact fun hd => hv.owed t e he' ((dispatched_congr (overlay_of_notMem hkey _)).mp hd)
    · intro b hb id hid
      rcases List.mem_append.mp hb with hb | hb
      · exact ((hv.session s).marks b.1 b.2 (hbatch b hb) id hid).2
      · exact (hv.session s).keeps id b.1 (hv.dispatched b hb id hid)
    · intro b hb
      rcases List.mem_append.mp hb with hb | hb
      · have hn := (hv.session s).nodup
        rw [hbatch b hb] at hn
        exact List.Nodup.of_map _ (hn.sublist (List.sublist_append_left _ _))
      · exact hv.nodup b hb
    · refine List.pairwise_append.mpr ⟨?_, hv.disjoint, ?_⟩
      · rcases hphase with hp | ⟨consumer, batch, hp⟩ <;> simp [hp, committing]
      · intro b hb b' hb' hc id hid hid'
        apply howed b hb id hid
        rw [hc]
        exact hv.dispatched b' hb' id hid'
  -- a rollback drops what the session has claimed
  · obtain rfl := next_of_rollback heq
    rw [committing_eq_nil (ne_commit_of_rollback heq)]
    refine { hv with
      locked := hlocked
      session := hsession
      owed := fun t e he => ?_ }
    by_cases hts : t = s
    · subst hts
      simp [World.rollback, Phase.claimed] at he
    · exact hv.owed t e (by simpa [World.rollback, Function.update_of_ne hts] using he)

theorem valid_of_reachable (hids : ids.Nodup) {rows : Rows}
    (h : ReachableWhen (step ids) LocksOwed (initial rows : System S) sys) : Valid sys :=
  h.invariant (initial_valid rows) (fun hv hg hs => valid_step hids hv hg hs)

/-- One event in the outbox, dispatched to nobody. -/
def oneEvent : Rows
  | .outbox "e" => some (.outbox
      { orgId := "o", name := "card.created", version := 1, actorId := none, occurredAt := 0,
        requestId := none, causationDepth := 0, payload := "{}" })
  | _ => none

/-- One worker drains the event. -/
def drain (s : Bool) (now : Int) : List (Bool × Input) :=
  [(s, .lockNext), (s, .lockNext), (s, .handled), (s, .mark now), (s, .commit)]

end Outbox
end TaskFlow
