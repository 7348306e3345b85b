import TaskFlow.AbortingTransaction
import TaskFlow.NotificationRows

/-! # The lookups of a batch

`drainNotifications` looks up names and managers for its batch in the transaction that inserts the
notifications.  A lookup that fails is caught, so that titles stay anonymous and the batch goes on;
but the statement that has failed has aborted the transaction.
-/
namespace TaskFlow
namespace NotificationLookups
open DomainEvents NotificationProjection NotificationRows UniqueInsert

structure Database where
  outbox : List OutboxRow
  /-- What `outbox_dispatch` has of the consumer. -/
  dispatched : List EventId
  notifications : List NotificationRow
  activeOrgIds : List OrgId
  displayNames : UserId → Option String
  emails : UserId → Option String
  managers : OrgId → UserId → Option UserId

/-- Which of the lookup's statements fail. -/
structure Failing where
  profiles : Bool
  users : Bool
  managers : Bool

def claimPending (limit : ℕ) (db : Database) : List OutboxRow :=
  (db.outbox.filter fun row => row.id ∉ db.dispatched).take limit

def memberAddedUserId (row : OutboxRow) : Option UserId :=
  if row.name = .member_added then row.payload.userId else none

/-- Who is to be named. -/
def labelIds (pending : List OutboxRow) : List UserId :=
  pending.filterMap OutboxRow.actorId ++ pending.filterMap memberAddedUserId

/-- Whose managers are asked for. -/
def targets (pending : List OutboxRow) : List (OrgId × UserId) :=
  pending.filterMap fun row => (memberAddedUserId row).map (row.orgId, ·)

def resolveActorLabels (failing : Failing) (actorIds : List UserId) :
    Tx Database (UserId → Option String) :=
  let ids := actorIds.dedup
  if ids = [] then pure fun _ => none
  else Tx.recover (do
    let displayNames ← Tx.select failing.profiles Database.displayNames
    let emails ← Tx.select failing.users Database.emails
    return fun userId => if userId ∈ ids then displayNames userId <|> emails userId else none)
    fun _ => none

/-- The managers of the users in the orgs that are asked for. -/
def managersFor (targets : List (OrgId × UserId)) (managers : OrgId → UserId → Option UserId)
    (orgId : OrgId) (userId : UserId) : Option UserId :=
  if orgId ∈ targets.map Prod.fst ∧ userId ∈ targets.map Prod.snd then managers orgId userId
  else none

def resolveManagerUserIds (failing : Failing) (pending : List OutboxRow) :
    Tx Database (OrgId → UserId → Option UserId) :=
  if targets pending = [] then pure fun _ _ => none
  else Tx.recover (do
    let managers ← Tx.select failing.managers Database.managers
    return managersFor (targets pending) managers)
    fun _ _ => none

/-- The insert of one notification, and how many are written. -/
def insertNotice (notice : OutboxRow × PlannedNotification) : Tx Database ℕ :=
  Tx.statement false fun db =>
    let inserted := insertPlan notice.1 (db.notifications, 0) notice.2
    (inserted.2, { db with notifications := inserted.1 })

def insertNotices : List (OutboxRow × PlannedNotification) → Tx Database ℕ
  | [] => pure 0
  | notice :: notices => do
    let written ← insertNotice notice
    return written + (← insertNotices notices)

def markDispatched (ids : List EventId) : Tx Database Unit :=
  Tx.statement false fun db => ((), { db with dispatched := db.dispatched ++ ids })

def drainNotifications (failing : Failing) (limit : ℕ) : Tx Database DrainResult := do
  let pending ← Tx.select false (claimPending limit)
  if pending = [] then return ⟨0, 0⟩
  else
    let activeOrgIds ← Tx.select false Database.activeOrgIds
    let _ ← resolveActorLabels failing (labelIds pending)
    let managerUserIds ← resolveManagerUserIds failing pending
    let written ← insertNotices (notices [⟨pending, activeOrgIds, managerUserIds⟩])
    markDispatched (pending.map OutboxRow.id)
    return ⟨pending.length, written⟩

/-- The batch that is claimed, with what the lookups answer that do not fail. -/
def batchOf (failing : Failing) (limit : ℕ) (db : Database) : Batch where
  pending := claimPending limit db
  activeOrgIds := db.activeOrgIds
  managerUserIds := if failing.managers then fun _ _ => none
    else managersFor (targets (claimPending limit db)) db.managers

/-- The drain goes on whatever the lookups do: the notifications planned for the batch are there
when it is over, and its events are marked. -/
def FailsOpen (failing : Failing) (limit : ℕ) (db : Database) : Prop :=
  let after := (Tx.transact (drainNotifications failing limit) db).2
  ∀ row ∈ claimPending limit db, row.id ∈ after.dispatched ∧
    ∀ plan ∈ plans (batchOf failing limit db) row,
      (notificationRow row plan).eventUserKey ∈ after.notifications.map NotificationRow.eventUserKey

/-- A statement that fails is run for the batch. -/
def LookupFails (failing : Failing) (pending : List OutboxRow) : Bool :=
  (failing.profiles || failing.users) && labelIds pending ≠ [] ||
    failing.managers && targets pending ≠ []

variable {failing : Failing} {limit : ℕ} {db : Database} {pending : List OutboxRow}

/-! ### The lookups -/

/-- Names are answered whatever happens, but the transaction may be lost. -/
theorem run_resolveActorLabels (failing : Failing) (ids : List UserId) (db : Database) :
    ∃ labels, (resolveActorLabels failing ids).run ⟨db, false⟩ =
      (some labels, ⟨db, (failing.profiles || failing.users) && ids ≠ []⟩) := by
  obtain ⟨profiles, users, fails⟩ := failing
  by_cases hnil : ids = []
  · subst hnil
    exact ⟨fun _ => none, by simp [resolveActorLabels, Tx.run_pure]⟩
  · have hdedup : ids.dedup ≠ [] := by simpa using hnil
    rw [resolveActorLabels, if_neg hdedup, decide_eq_true hnil, Bool.and_true]
    cases profiles <;> cases users <;> exact ⟨_, rfl⟩

/-- So are managers. -/
theorem run_resolveManagerUserIds (failing : Failing) (pending : List OutboxRow) (db : Database)
    (aborted : Bool) :
    ∃ managers, (resolveManagerUserIds failing pending).run ⟨db, aborted⟩ =
        (some managers, ⟨db, aborted || failing.managers && targets pending ≠ []⟩) ∧
      (aborted = false → managers = if failing.managers then fun _ _ => none
        else managersFor (targets pending) db.managers) := by
  obtain ⟨profiles, users, fails⟩ := failing
  by_cases hnil : targets pending = []
  · refine ⟨fun _ _ => none, by simp [resolveManagerUserIds, hnil, Tx.run_pure], fun _ => ?_⟩
    cases fails with
    | true => rfl
    | false =>
      funext orgId userId
      simp [managersFor, hnil]
  · rw [resolveManagerUserIds, if_neg hnil, decide_eq_true hnil, Bool.and_true]
    cases aborted <;> cases fails <;> exact ⟨_, rfl, fun h => by first | rfl | cases h⟩

/-! ### The rest of the batch -/

theorem run_insertNotice (notice : OutboxRow × PlannedNotification) (db : Database) :
    ∃ written, (insertNotice notice).run ⟨db, false⟩ = (some written,
      ⟨{ db with
        notifications := insertNew NotificationRow.eventUserKey db.notifications
          (notificationRow notice.1 notice.2) }, false⟩) := by
  have hinserted : (insertPlan notice.1 (db.notifications, 0) notice.2).1 =
      insertNew NotificationRow.eventUserKey db.notifications
        (notificationRow notice.1 notice.2) := by
    simp only [insertPlan, insertNew]
    split <;> rfl
  refine ⟨(insertPlan notice.1 (db.notifications, 0) notice.2).2, ?_⟩
  rw [insertNotice, Tx.run_statement]
  dsimp only
  rw [hinserted]

theorem run_insertNotices (notices : List (OutboxRow × PlannedNotification)) (db : Database) :
    ∃ written, (insertNotices notices).run ⟨db, false⟩ = (some written,
      ⟨{ db with
        notifications := insertAll NotificationRow.eventUserKey db.notifications
          (notices.map fun notice => notificationRow notice.1 notice.2) }, false⟩) := by
  induction notices generalizing db with
  | nil => exact ⟨0, rfl⟩
  | cons notice notices ih =>
    obtain ⟨written, hwritten⟩ := run_insertNotice notice db
    obtain ⟨rest, hrest⟩ := ih { db with
      notifications := insertNew NotificationRow.eventUserKey db.notifications
        (notificationRow notice.1 notice.2) }
    refine ⟨written + rest, ?_⟩
    rw [insertNotices, Tx.run_bind_of_some hwritten, Tx.run_bind_of_some hrest, Tx.run_pure]
    rfl

/-- A transaction that is lost refuses the inserts, or the mark at the latest. -/
theorem run_insertNotices_of_aborted (notices : List (OutboxRow × PlannedNotification))
    (db : Database) : ∃ answer, (insertNotices notices).run ⟨db, true⟩ = (answer, ⟨db, true⟩) := by
  cases notices with
  | nil => exact ⟨some 0, rfl⟩
  | cons notice notices =>
    have hrefused : (insertNotice notice).run ⟨db, true⟩ = (none, ⟨db, true⟩) :=
      Tx.run_statement_of_aborted _ _ db
    exact ⟨none, by rw [insertNotices, Tx.run_bind_of_none hrefused]⟩

/-! ### The drain -/

/-- The notifications of a batch are inserted and its events marked, unless the transaction is
lost with a lookup. -/
theorem transact_drainNotifications (hne : claimPending limit db ≠ []) :
    ∃ result : DrainResult, Tx.transact (drainNotifications failing limit) db =
      if LookupFails failing (claimPending limit db) then (none, db)
      else (some result, { db with
        notifications := insertAll NotificationRow.eventUserKey db.notifications
          ((notices [batchOf failing limit db]).map fun notice =>
            notificationRow notice.1 notice.2)
        dispatched := db.dispatched ++ (claimPending limit db).map OutboxRow.id }) := by
  have hpending : (Tx.select false (claimPending limit)).run ⟨db, false⟩ =
      (some (claimPending limit db), ⟨db, false⟩) := rfl
  have hactive : (Tx.select false Database.activeOrgIds).run ⟨db, false⟩ =
      (some db.activeOrgIds, ⟨db, false⟩) := rfl
  obtain ⟨labels, hlabels⟩ := run_resolveActorLabels failing (labelIds (claimPending limit db)) db
  obtain ⟨managers, hmanagers, hasked⟩ := run_resolveManagerUserIds failing
    (claimPending limit db) db
    ((failing.profiles || failing.users) && labelIds (claimPending limit db) ≠ [])
  have hdrain : (drainNotifications failing limit).run ⟨db, false⟩ = (do
      let written ← insertNotices (notices [⟨claimPending limit db, db.activeOrgIds, managers⟩])
      markDispatched ((claimPending limit db).map OutboxRow.id)
      return ⟨(claimPending limit db).length, written⟩ : Tx Database DrainResult).run
        ⟨db, LookupFails failing (claimPending limit db)⟩ := by
    rw [drainNotifications, Tx.run_bind_of_some hpending, if_neg hne, Tx.run_bind_of_some hactive,
      Tx.run_bind_of_some hlabels, Tx.run_bind_of_some hmanagers, LookupFails]
  cases hlost : LookupFails failing (claimPending limit db) with
  | true =>
    rw [hlost] at hdrain
    obtain ⟨answer, hrefused⟩ := run_insertNotices_of_aborted
      (notices [⟨claimPending limit db, db.activeOrgIds, managers⟩]) db
    refine ⟨⟨0, 0⟩, ?_⟩
    rw [if_pos rfl]
    cases answer with
    | none =>
      rw [Tx.run_bind_of_none hrefused] at hdrain
      exact Tx.transact_of_none hdrain
    | some written =>
      have hmark : (markDispatched ((claimPending limit db).map OutboxRow.id)).run ⟨db, true⟩ =
          (none, ⟨db, true⟩) := Tx.run_statement_of_aborted _ _ db
      rw [Tx.run_bind_of_some hrefused, Tx.run_bind_of_none hmark] at hdrain
      exact Tx.transact_of_none hdrain
  | false =>
    rw [hlost] at hdrain
    have hnone := Bool.or_eq_false_iff.mp hlost
    obtain rfl := hasked hnone.1
    obtain ⟨written, hwritten⟩ := run_insertNotices (notices [batchOf failing limit db]) db
    refine ⟨⟨(claimPending limit db).length, written⟩, ?_⟩
    rw [if_neg Bool.false_ne_true]
    exact Tx.transact_of_some (hdrain.trans ((Tx.run_bind_of_some hwritten).trans
      (Tx.run_bind_of_some (Tx.run_statement _ _))))

theorem not_dispatched_of_claimed {row : OutboxRow} (h : row ∈ claimPending limit db) :
    row.id ∉ db.dispatched := by
  simpa using (List.mem_filter.mp (List.mem_of_mem_take h)).2

/-- **The lookups do not fail open**: the batch is delivered if and only if no lookup that is run
for it fails. -/
theorem failsOpen_iff (failing : Failing) (limit : ℕ) (db : Database) :
    FailsOpen failing limit db ↔ LookupFails failing (claimPending limit db) = false := by
  by_cases hne : claimPending limit db = []
  · simp [FailsOpen, LookupFails, hne, labelIds, targets]
  obtain ⟨result, hafter⟩ := @transact_drainNotifications failing limit db hne
  obtain ⟨first, rest, hfirst⟩ := List.exists_cons_of_ne_nil hne
  rw [FailsOpen, hafter]
  cases hlost : LookupFails failing (claimPending limit db) with
  | true =>
    refine iff_of_false (fun h => ?_) (by simp)
    have hmem : first ∈ claimPending limit db := by simp [hfirst]
    exact not_dispatched_of_claimed hmem (h first hmem).1
  | false =>
    refine iff_of_true (fun row hrow => ⟨?_, fun plan hplan => ?_⟩) rfl
    · exact List.mem_append_right _ (List.mem_map_of_mem hrow)
    · refine key_mem_insertAll (List.mem_map.mpr ⟨(row, plan), ?_, rfl⟩)
      exact List.mem_flatMap.mpr ⟨_, List.mem_singleton_self _, List.mem_flatMap.mpr
        ⟨row, hrow, List.mem_map_of_mem hplan⟩⟩

/-- Ada mentions Bob in a comment, and the names cannot be read: nothing is inserted, and the event
is not marked. -/
def mentioned : Database where
  outbox := [mentionOnCard "1"]
  dispatched := []
  notifications := []
  activeOrgIds := ["org"]
  displayNames := fun _ => none
  emails := fun _ => none
  managers := fun _ _ => none

theorem not_failsOpen_mentioned : ¬FailsOpen ⟨true, false, false⟩ 100 mentioned := by
  intro h
  have hmem : mentionOnCard "1" ∈ claimPending 100 mentioned := by decide
  have hmarked := (h _ hmem).1
  revert hmarked
  decide

end NotificationLookups
end TaskFlow
