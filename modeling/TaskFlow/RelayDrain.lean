import Mathlib.Data.List.Perm.Basic
import TaskFlow.OutboxExclusive

/-! # The realtime relay's drain

`drainOnce` claims a batch of the events the relay has not dispatched, dispatches
them one after another, counts a failed attempt for each that throws and marks
the others, in one transaction.  `drainFully` repeats it until a claim comes back
short.  A failed event stays claimable, and the claim looks at no attempt count:
it is in the next batch again.

So what a round takes off the queue are the events in its batch that do not
fail, and the loop ends if and only if the failing ones cannot fill a batch by
themselves.  One relay drains here: no other session holds a lock, and nothing
is appended meanwhile.
-/
namespace TaskFlow
namespace RelayDrain
open Outbox ReadCommitted

/-- How many events one claim takes. -/
def batchSize : Nat := 100

/-- The consumer's name. -/
def consumer : String := "realtime"

/-- The two tables, the events whose dispatch has returned, in order, and how
many batches were drained. -/
structure Relay where
  rows : Rows
  broadcast : List EventId
  drains : Nat

section
variable (ids : List EventId) (dispatch : OutboxRow → Except String Unit) (clock : Nat → Int)

def claimPending (rows : Rows) : List OutboxRow :=
  (pendingRows ids rows consumer).take batchSize

/-- Dispatches a batch, in order: the rows with the failures counted, and the
events delivered. -/
def dispatchRows : List OutboxRow → Rows → Rows × List EventId
  | [], rows => (rows, [])
  | row :: batch, rows =>
    match dispatch row with
    | .ok () =>
      let (rows, delivered) := dispatchRows batch rows
      (rows, row.id :: delivered)
    | .error message =>
      dispatchRows batch (overlay [recordFailure rows consumer row.id message] rows)

/-- Claims and dispatches one batch: how many events it claimed and how many it
delivered. -/
def drainOnce (relay : Relay) : Relay × Nat × Nat :=
  match claimPending ids relay.rows with
  | [] => ({ relay with drains := relay.drains + 1 }, 0, 0)
  | row :: batch =>
    let (rows, delivered) := dispatchRows dispatch (row :: batch) relay.rows
    let marks := delivered.map (markDispatched rows consumer (clock relay.drains))
    ({ rows := overlay marks rows, broadcast := relay.broadcast ++ delivered,
       drains := relay.drains + 1 }, (row :: batch).length, delivered.length)

/-- Drains until a claim is short of a batch, for at most `fuel` batches. -/
def drainFully : Nat → Nat → Relay → Option (Relay × Nat)
  | 0, _, _ => none
  | fuel + 1, total, relay =>
    let (relay', claimed, delivered) := drainOnce ids dispatch clock relay
    if claimed < batchSize then some (relay', total + delivered)
    else drainFully fuel (total + delivered) relay'

/-! ### What is asked of it -/

/-- `dispatch` fails on the events of `poison`, each time, and on no other. -/
def FailsOn (poison : EventId → Bool) : Prop :=
  ∀ row, (∃ message, dispatch row = .error message) ↔ poison row.id

/-- The event is in the outbox and the relay has not dispatched it. -/
def Pending (rows : Rows) (id : EventId) : Prop := (owed rows consumer id).isSome

instance (rows : Rows) (id : EventId) : Decidable (Pending rows id) :=
  inferInstanceAs (Decidable (_ = true))

/-- The pending events that fail. -/
def poisoned (poison : EventId → Bool) (rows : Rows) : List EventId :=
  ids.filter fun id => Pending rows id ∧ poison id

/-- The drain ends, and then every event that does not fail is marked, and was
dispatched by it unless it had been before. -/
structure DrainsPast (poison : EventId → Bool) (relay : Relay) : Prop where
  terminates : ∃ fuel, (drainFully ids dispatch clock fuel 0 relay).isSome
  delivers : ∀ fuel relay' total,
    drainFully ids dispatch clock fuel 0 relay = some (relay', total) →
    ∀ id ∈ ids, outboxAt relay.rows id ≠ none → ¬poison id →
      Dispatched relay'.rows id consumer ∧
        (¬Dispatched relay.rows id consumer → id ∈ relay'.broadcast)

end

/-! ### The claim -/

section
variable {ids : List EventId} {rows : Rows} {id : EventId}

theorem pending_iff : Pending rows id ↔ outboxAt rows id ≠ none ∧ ¬Dispatched rows id consumer := by
  unfold Pending owed Dispatched
  cases hrow : outboxAt rows id with
  | none => simp
  | some record =>
    by_cases hd : (dispatchAt rows id consumer).bind Dispatch.dispatchedAt = none <;> simp [hd]

theorem owed_map_id : ∀ ids : List EventId,
    (ids.filterMap (owed rows consumer)).map OutboxRow.id = ids.filter (Pending rows ·)
  | [] => rfl
  | id :: ids => by
    cases h : owed rows consumer id with
    | none =>
      rw [List.filterMap_cons_none h, List.filter_cons_of_neg (by simp [Pending, h])]
      exact owed_map_id ids
    | some row =>
      rw [List.filterMap_cons_some h, List.filter_cons_of_pos (by simp [Pending, h]),
        List.map_cons, owed_id h, owed_map_id ids]

/-- The claim's query lists the pending events. -/
theorem pendingRows_perm :
    ((pendingRows ids rows consumer).map OutboxRow.id).Perm (ids.filter (Pending rows ·)) := by
  rw [← owed_map_id]
  exact (List.mergeSort_perm _ occursBefore).map OutboxRow.id

theorem pendingRows_length :
    (pendingRows ids rows consumer).length = (ids.filter (Pending rows ·)).length := by
  rw [← List.length_map (f := OutboxRow.id), (pendingRows_perm).length_eq]

theorem mem_pendingRows :
    id ∈ (pendingRows ids rows consumer).map OutboxRow.id ↔ id ∈ ids ∧ Pending rows id := by
  rw [(pendingRows_perm).mem_iff, List.mem_filter, decide_eq_true_iff]

/-- A claim takes pending events only. -/
theorem pending_of_claimed (h : id ∈ (claimPending ids rows).map OutboxRow.id) :
    id ∈ ids ∧ Pending rows id :=
  (mem_pendingRows).mp (((List.take_sublist _ _).map _).subset h)

/-- A claim short of a batch takes all of them. -/
theorem claimed_of_short (hshort : (claimPending ids rows).length < batchSize) (hid : id ∈ ids)
    (hpending : Pending rows id) : id ∈ (claimPending ids rows).map OutboxRow.id := by
  have hlength : (pendingRows ids rows consumer).length ≤ batchSize := by
    rw [claimPending, List.length_take] at hshort
    omega
  rw [claimPending, List.take_of_length_le hlength]
  exact (mem_pendingRows).mpr ⟨hid, hpending⟩

end

/-! ### One batch -/

section
variable {ids : List EventId} {dispatch : OutboxRow → Except String Unit} {clock : Nat → Int}
  {poison : EventId → Bool} {relay : Relay} {id : EventId}

theorem outboxAt_recordFailure {rows : Rows} (id' : EventId) (message : String) :
    outboxAt (overlay [recordFailure rows consumer id' message] rows) id = outboxAt rows id := by
  simp [outboxAt, recordFailure]

/-- Counting a failed attempt does not mark the event. -/
theorem dispatched_recordFailure_iff {rows : Rows} (id' : EventId) (message : String) :
    Dispatched (overlay [recordFailure rows consumer id' message] rows) id consumer ↔
      Dispatched rows id consumer := by
  refine ⟨fun h => ?_, dispatched_recordFailure message⟩
  by_cases hk : Key.outboxDispatch id' consumer = .outboxDispatch id consumer
  · obtain ⟨rfl, _⟩ := Key.outboxDispatch.inj hk
    unfold Dispatched at h ⊢
    rw [recordFailure, overlay_cons, overlay_nil, dispatchAt_update_self] at h
    cases hat : dispatchAt rows id' consumer with
    | none => simp [hat, Dispatch.failed] at h
    | some dispatch => simpa [hat, Dispatch.failed] using h
  · exact (dispatched_update_of_ne hk).mp h

theorem outboxAt_marks {rows rows' : Rows} (now : Int) (delivered : List EventId) :
    outboxAt (overlay (delivered.map (markDispatched rows' consumer now)) rows) id =
      outboxAt rows id := by
  have h : Key.outbox id ∉
      (delivered.map (markDispatched rows' consumer now)).map Prod.fst := by
    simp [markDispatched]
  simp only [outboxAt, overlay_of_notMem h]

theorem dispatchRows_spec (hfails : FailsOn dispatch poison) (batch : List OutboxRow) :
    ∀ rows, (dispatchRows dispatch batch rows).2 =
        (batch.filter fun row => !poison row.id).map OutboxRow.id ∧
      (∀ id, outboxAt (dispatchRows dispatch batch rows).1 id = outboxAt rows id) ∧
      ∀ id, Dispatched (dispatchRows dispatch batch rows).1 id consumer ↔
        Dispatched rows id consumer := by
  induction batch with
  | nil => exact fun rows => ⟨rfl, fun _ => rfl, fun _ => Iff.rfl⟩
  | cons row batch ih =>
    intro rows
    cases h : dispatch row with
    | ok =>
      have hpoison : poison row.id = false := by
        rw [← Bool.not_eq_true, ← hfails row, h]
        simp
      obtain ⟨hdelivered, houtbox, hmarked⟩ := ih rows
      simp only [dispatchRows, h]
      refine ⟨?_, houtbox, hmarked⟩
      rw [hdelivered, List.filter_cons_of_pos (by simp [hpoison]), List.map_cons]
    | error message =>
      have hpoison : poison row.id := (hfails row).mp ⟨message, h⟩
      obtain ⟨hdelivered, houtbox, hmarked⟩ :=
        ih (overlay [recordFailure rows consumer row.id message] rows)
      simp only [dispatchRows, h]
      refine ⟨?_, fun id => ?_, fun id => ?_⟩
      · rw [hdelivered, List.filter_cons_of_neg (by simp [hpoison])]
      · rw [houtbox, outboxAt_recordFailure]
      · rw [hmarked, dispatched_recordFailure_iff]

variable (ids clock relay) in
/-- What one batch does: it marks and broadcasts the claimed events that do not
fail. -/
theorem drainOnce_spec (hfails : FailsOn dispatch poison) :
    (drainOnce ids dispatch clock relay).2.1 = (claimPending ids relay.rows).length ∧
    (∀ id, outboxAt (drainOnce ids dispatch clock relay).1.rows id = outboxAt relay.rows id) ∧
    (∀ id, Dispatched (drainOnce ids dispatch clock relay).1.rows id consumer ↔
      Dispatched relay.rows id consumer ∨
        id ∈ (claimPending ids relay.rows).map OutboxRow.id ∧ ¬poison id) ∧
    ∀ id, id ∈ (drainOnce ids dispatch clock relay).1.broadcast ↔
      id ∈ relay.broadcast ∨
        id ∈ (claimPending ids relay.rows).map OutboxRow.id ∧ ¬poison id := by
  cases hbatch : claimPending ids relay.rows with
  | nil => simp [drainOnce, hbatch]
  | cons row batch =>
    obtain ⟨hdelivered, houtbox, hmarked⟩ := dispatchRows_spec hfails (row :: batch) relay.rows
    have hmem : ∀ id, id ∈ ((row :: batch).filter fun row => !poison row.id).map OutboxRow.id ↔
        id ∈ (row :: batch).map OutboxRow.id ∧ ¬poison id := by
      intro id
      simp only [List.mem_map, List.mem_filter]
      grind
    simp only [drainOnce, hbatch]
    refine ⟨trivial, fun id => ?_, fun id => ?_, fun id => ?_⟩
    · rw [outboxAt_marks, houtbox]
    · rw [dispatched_mark, hmarked, hdelivered, hmem]
      exact ⟨fun h => h.symm.imp_right And.left, fun h => h.symm.imp_left (⟨·, rfl⟩)⟩
    · rw [List.mem_append, hdelivered, hmem]

/-- What is pending after a batch: all but the claimed events that do not fail. -/
theorem pending_drainOnce (hfails : FailsOn dispatch poison) :
    Pending (drainOnce ids dispatch clock relay).1.rows id ↔
      Pending relay.rows id ∧
        ¬(id ∈ (claimPending ids relay.rows).map OutboxRow.id ∧ ¬poison id) := by
  obtain ⟨_, houtbox, hmarked, _⟩ := drainOnce_spec ids clock relay hfails
  rw [pending_iff, pending_iff, houtbox, hmarked, not_or, and_assoc]

/-- The failing events stay pending. -/
theorem poisoned_drainOnce (hfails : FailsOn dispatch poison) :
    poisoned ids poison (drainOnce ids dispatch clock relay).1.rows =
      poisoned ids poison relay.rows := by
  refine List.filter_congr fun id _ => decide_eq_decide.mpr (and_congr_left fun hpoison => ?_)
  rw [pending_drainOnce hfails]
  exact and_iff_left fun h => h.2 hpoison

end

/-! ### The loop -/

section
variable {ids : List EventId} {dispatch : OutboxRow → Except String Unit} {clock : Nat → Int}
  {poison : EventId → Bool} {relay relay' : Relay} {id : EventId} {total total' : Nat}

/-- One batch of the loop. -/
theorem drainFully_succ (hfails : FailsOn dispatch poison) (fuel : Nat) :
    drainFully ids dispatch clock (fuel + 1) total relay =
      if (claimPending ids relay.rows).length < batchSize then
        some ((drainOnce ids dispatch clock relay).1,
          total + (drainOnce ids dispatch clock relay).2.2)
      else drainFully ids dispatch clock fuel (total + (drainOnce ids dispatch clock relay).2.2)
        (drainOnce ids dispatch clock relay).1 := by
  rw [← (drainOnce_spec ids clock relay hfails).1, drainFully]

/-- The pending events that do not fail, which every full batch takes from. -/
def due (ids : List EventId) (poison : EventId → Bool) (rows : Rows) : List EventId :=
  ids.filter fun id => Pending rows id ∧ ¬poison id

theorem pending_count (rows : Rows) :
    (ids.filter (Pending rows ·)).length =
      (poisoned ids poison rows).length + (due ids poison rows).length := by
  unfold poisoned due
  induction ids with
  | nil => rfl
  | cons id ids ih =>
    by_cases hpending : Pending rows id <;> cases hpoison : poison id <;>
      simp [hpending, hpoison, ih] <;> omega

theorem claimed_count (poison : EventId → Bool) (rows : Rows) :
    (claimPending ids rows).length =
      min batchSize ((poisoned ids poison rows).length + (due ids poison rows).length) := by
  rw [claimPending, List.length_take, pendingRows_length, pending_count]

/-- A batch that the failing events cannot fill has another one in it. -/
theorem exists_due_claimed (hfew : (poisoned ids poison relay.rows).length < batchSize)
    (hfull : ¬(claimPending ids relay.rows).length < batchSize) :
    ∃ id ∈ (claimPending ids relay.rows).map OutboxRow.id, ¬poison id := by
  by_contra hnone
  push Not at hnone
  have hsub : ((claimPending ids relay.rows).map OutboxRow.id).Subperm
      (ids.filter (Pending relay.rows ·)) :=
    ((List.take_sublist _ _).map _).subperm.trans (pendingRows_perm).subperm
  have hall : ((claimPending ids relay.rows).map OutboxRow.id).filter poison =
      (claimPending ids relay.rows).map OutboxRow.id :=
    List.filter_eq_self.mpr hnone
  have hle := (hsub.filter poison).length_le
  rw [hall, List.length_map, List.filter_filter] at hle
  have heq : ids.filter (fun id => poison id && decide (Pending relay.rows id)) =
      poisoned ids poison relay.rows := by
    refine List.filter_congr fun id _ => ?_
    rw [Bool.and_comm]
    simp
  rw [heq] at hle
  omega

variable (dispatch clock) in
/-- A full batch leaves fewer events due. -/
theorem due_drainOnce (hfails : FailsOn dispatch poison)
    (hfew : (poisoned ids poison relay.rows).length < batchSize)
    (hfull : ¬(claimPending ids relay.rows).length < batchSize) :
    (due ids poison (drainOnce ids dispatch clock relay).1.rows).length <
      (due ids poison relay.rows).length := by
  obtain ⟨id, hclaimed, hgood⟩ := exists_due_claimed hfew hfull
  obtain ⟨hid, hpending⟩ := pending_of_claimed hclaimed
  have heq : due ids poison (drainOnce ids dispatch clock relay).1.rows =
      (due ids poison relay.rows).filter
        fun id => id ∉ (claimPending ids relay.rows).map OutboxRow.id := by
    rw [due, due, List.filter_filter]
    refine List.filter_congr fun id _ => ?_
    rw [← Bool.decide_and]
    refine decide_eq_decide.mpr ?_
    rw [pending_drainOnce hfails]
    tauto
  rw [heq]
  exact List.length_filter_lt_length_iff_exists.mpr
    ⟨id, List.mem_filter.mpr ⟨hid, by simpa using ⟨hpending, by simpa using hgood⟩⟩,
      by simpa using hclaimed⟩

/-- Where the failing events cannot fill a batch, the drain ends: there are no
more full batches than events due. -/
theorem drainFully_isSome (hfails : FailsOn dispatch poison)
    (hfew : (poisoned ids poison relay.rows).length < batchSize) (fuel : Nat)
    (hfuel : (due ids poison relay.rows).length < fuel) :
    (drainFully ids dispatch clock fuel total relay).isSome := by
  induction fuel generalizing total relay with
  | zero => omega
  | succ fuel ih =>
    rw [drainFully_succ hfails]
    split
    · rfl
    · rename_i hfull
      have hless := due_drainOnce dispatch clock hfails hfew hfull
      exact ih ((poisoned_drainOnce hfails).symm ▸ hfew) (by omega)

/-- Where they can, it never ends: every batch is full. -/
theorem drainFully_eq_none (hfails : FailsOn dispatch poison)
    (hmany : batchSize ≤ (poisoned ids poison relay.rows).length) (fuel : Nat) :
    drainFully ids dispatch clock fuel total relay = none := by
  induction fuel generalizing total relay with
  | zero => rfl
  | succ fuel ih =>
    rw [drainFully_succ hfails, if_neg (by rw [claimed_count poison]; omega)]
    exact ih ((poisoned_drainOnce hfails).symm ▸ hmany)

/-- What has been broadcast stays so. -/
theorem broadcast_drainFully (hfails : FailsOn dispatch poison) (hid : id ∈ relay.broadcast)
    (fuel : Nat) (h : drainFully ids dispatch clock fuel total relay = some (relay', total')) :
    id ∈ relay'.broadcast := by
  induction fuel generalizing total relay with
  | zero => cases h
  | succ fuel ih =>
    have hnext := ((drainOnce_spec ids clock relay hfails).2.2.2 id).mpr (.inl hid)
    rw [drainFully_succ hfails] at h
    split at h
    · cases h
      exact hnext
    · exact ih hnext h

theorem dispatched_drainFully (hfails : FailsOn dispatch poison)
    (hid : Dispatched relay.rows id consumer) (fuel : Nat)
    (h : drainFully ids dispatch clock fuel total relay = some (relay', total')) :
    Dispatched relay'.rows id consumer := by
  induction fuel generalizing total relay with
  | zero => cases h
  | succ fuel ih =>
    have hnext := ((drainOnce_spec ids clock relay hfails).2.2.1 id).mpr (.inl hid)
    rw [drainFully_succ hfails] at h
    split at h
    · cases h
      exact hnext
    · exact ih hnext h

end

/-! ### The whole drain -/

section
variable {ids : List EventId} {dispatch : OutboxRow → Except String Unit} {clock : Nat → Int}
  {poison : EventId → Bool} {relay relay' : Relay} {total total' : Nat}

/-- A drain that ends has handled every event that does not fail. -/
theorem delivered_of_drainFully (hfails : FailsOn dispatch poison) {id : EventId} (hid : id ∈ ids)
    (hrow : outboxAt relay.rows id ≠ none) (hgood : ¬poison id) (fuel : Nat)
    (h : drainFully ids dispatch clock fuel total relay = some (relay', total')) :
    Dispatched relay'.rows id consumer ∧
      (¬Dispatched relay.rows id consumer → id ∈ relay'.broadcast) := by
  induction fuel generalizing total relay with
  | zero => cases h
  | succ fuel ih =>
    obtain ⟨_, houtbox, hmarked, hbroadcast⟩ :=
      drainOnce_spec ids clock relay hfails
    rw [drainFully_succ hfails] at h
    by_cases hclaimed : id ∈ (claimPending ids relay.rows).map OutboxRow.id
    · -- in this batch: marked and broadcast, and neither is undone
      have hmark := (hmarked id).mpr (.inr ⟨hclaimed, hgood⟩)
      have hcast := (hbroadcast id).mpr (.inr ⟨hclaimed, hgood⟩)
      split at h
      · cases h
        exact ⟨hmark, fun _ => hcast⟩
      · exact ⟨dispatched_drainFully hfails hmark fuel h,
          fun _ => broadcast_drainFully hfails hcast fuel h⟩
    · have hsame : Dispatched (drainOnce ids dispatch clock relay).1.rows id consumer ↔
          Dispatched relay.rows id consumer := by
        rw [hmarked]
        exact or_iff_left fun h => hclaimed h.1
      split at h
      · -- the last batch left out only what was dispatched before
        rename_i hshort
        cases h
        have hdone : Dispatched relay.rows id consumer := by
          by_contra hnot
          exact hclaimed (claimed_of_short hshort hid ((pending_iff).mpr ⟨hrow, hnot⟩))
        exact ⟨hsame.mpr hdone, fun hnot => absurd hdone hnot⟩
      · rw [← hsame]
        exact ih ((houtbox id).symm ▸ hrow) h

/-- The drain gets past the failing events if and only if fewer of them are
pending than one claim takes. -/
theorem drainsPast_iff (hfails : FailsOn dispatch poison) :
    DrainsPast ids dispatch clock poison relay ↔
      (poisoned ids poison relay.rows).length < batchSize := by
  constructor
  · rintro ⟨⟨fuel, hends⟩, _⟩
    by_contra hmany
    rw [drainFully_eq_none hfails (Nat.le_of_not_lt hmany)] at hends
    cases hends
  · intro hfew
    exact ⟨⟨_, drainFully_isSome hfails hfew _ (Nat.lt_succ_self _)⟩,
      fun fuel relay' total h id hid hrow hgood =>
        delivered_of_drainFully hfails hid hrow hgood fuel h⟩

end

/-! ### A poison event, and a hundred of them -/

/-- An outbox row with nothing in it but its instant. -/
def plainRecord (occurredAt : Int) : OutboxRecord :=
  { orgId := "org", name := "work.card.updated", version := 1, actorId := none,
    occurredAt := occurredAt, requestId := none, causationDepth := 0, payload := "" }

/-- A relay that has dispatched nothing, before the events `ids`. -/
def waiting (ids : List EventId) : Relay where
  rows := fun
    | .outbox id => if id ∈ ids then some (.outbox (plainRecord (ids.idxOf id))) else none
    | .outboxDispatch _ _ => none
  broadcast := []
  drains := 0

/-- Refuses the events of `poison`. -/
def refusing (poison : EventId → Bool) (row : OutboxRow) : Except String Unit :=
  if poison row.id then .error "refused" else .ok ()

theorem refusing_failsOn (poison : EventId → Bool) : FailsOn (refusing poison) poison := by
  intro row
  unfold refusing
  cases poison row.id <;> simp

/-- One refused event before another: the other one is delivered. -/
theorem drainsPast_iff_oneRefused :
    DrainsPast ["bad", "good"] (refusing (· == "bad")) Int.ofNat (· == "bad")
      (waiting ["bad", "good"]) :=
  (drainsPast_iff (refusing_failsOn _)).mpr (by decide)

/-- A hundred refused events before another: the drain never ends. -/
theorem never_drains_hundred :
    ¬DrainsPast ((List.range 100).map Nat.repr ++ ["good"])
      (refusing (· ≠ "good")) Int.ofNat (· ≠ "good")
      (waiting ((List.range 100).map Nat.repr ++ ["good"])) := by
  rintro ⟨⟨fuel, hends⟩, _⟩
  rw [drainFully_eq_none (refusing_failsOn _) (by decide +kernel)] at hends
  cases hends

end RelayDrain
end TaskFlow
