import TaskFlow.NotificationProjection
import TaskFlow.UniqueInsert

/-! # The notification rows of the drained events

`drainNotifications` plans the notifications of each event it has claimed and
inserts them, and an insert that meets the unique key of the table does nothing.
The key is the org, the subject, the recipient and the kind, so that an event
delivered again rings nobody twice.

The key has no event in it.  Two events that tell one person the same kind of
thing about one subject meet in one row, whichever came first; there is a row
for each event and recipient if and only if no two events do.
-/
namespace TaskFlow
namespace NotificationRows
open DomainEvents NotificationProjection UniqueInsert

/-- A row of `platform.notifications`, but for its id and its texts. -/
structure NotificationRow where
  orgId : OrgId
  userId : UserId
  kind : NotificationKind
  subjectType : SubjectType
  subjectId : String
  actorId : Option UserId
  deriving DecidableEq, Repr

/-- `notifications_event_user_key`. -/
def NotificationRow.eventUserKey (row : NotificationRow) :
    OrgId × String × UserId × NotificationKind :=
  (row.orgId, row.subjectId, row.userId, row.kind)

/-- A claimed batch and what is looked up for it: the orgs that are active, and
who manages a user in an org. -/
structure Batch where
  pending : List OutboxRow
  activeOrgIds : List OrgId
  managerUserIds : OrgId → UserId → Option UserId

/-- What the batch tells whom for one of its events. -/
def plans (batch : Batch) (row : OutboxRow) : List PlannedNotification :=
  if row.orgId ∈ batch.activeOrgIds then
    planNotifications row ++ planManagerNotifications row (batch.managerUserIds row.orgId)
  else []

/-- The row inserted for a plan. -/
def notificationRow (row : OutboxRow) (plan : PlannedNotification) : NotificationRow where
  orgId := row.orgId
  userId := plan.userId
  kind := plan.kind
  subjectType := plan.subjectType
  subjectId := plan.subjectId
  actorId := row.actorId

/-- The insert of one plan, with the number written. -/
def insertPlan (row : OutboxRow) (state : List NotificationRow × Nat)
    (plan : PlannedNotification) : List NotificationRow × Nat :=
  let notification := notificationRow row plan
  -- ON CONFLICT DO NOTHING
  if notification.eventUserKey ∈ state.1.map NotificationRow.eventUserKey then state
  else (state.1 ++ [notification], state.2 + 1)

structure DrainResult where
  processed : Nat
  written : Nat
  deriving DecidableEq, Repr

/-- One batch, from the table before it to the table after it.  A drain that
fails rolls back and is no batch. -/
def drainNotifications (table : List NotificationRow) (batch : Batch) :
    List NotificationRow × DrainResult :=
  let (table, written) := batch.pending.foldl
    (fun state row => (plans batch row).foldl (insertPlan row) state) (table, 0)
  (table, ⟨batch.pending.length, written⟩)

/-- The table after some batches, which may deliver an event any number of
times. -/
def drained (batches : List Batch) : List NotificationRow :=
  batches.foldl (fun table batch => (drainNotifications table batch).1) []

/-- The events of the batches with what is planned for them. -/
def notices (batches : List Batch) : List (OutboxRow × PlannedNotification) :=
  batches.flatMap fun batch => batch.pending.flatMap fun row => (plans batch row).map (row, ·)

/-- The table is one row for each event and recipient planned for it. -/
def ExactlyOnce (batches : List Batch) : Prop :=
  (drained batches).Perm ((notices batches).dedup.map fun notice =>
    notificationRow notice.1 notice.2)

instance (batches : List Batch) : Decidable (ExactlyOnce batches) :=
  inferInstanceAs (Decidable (List.Perm _ _))

/-- Two notices that meet in one row are of the same event. -/
def KeysTellApart (batches : List Batch) : Prop :=
  ∀ n ∈ notices batches, ∀ n' ∈ notices batches,
    (notificationRow n.1 n.2).eventUserKey = (notificationRow n'.1 n'.2).eventUserKey → n.1 = n'.1

/-! ### One plan for a recipient -/

theorem addEach_nodup (actorId : Option UserId) (recipients : List (UserId × NotificationKind)) :
    ∀ told, ((addEach actorId told recipients).map Prod.fst).Nodup := by
  induction recipients with
  | nil => exact fun _ => List.nodup_nil
  | cons r rest ih =>
    intro told
    rw [addEach]
    split
    · exact ih told
    · refine List.nodup_cons.mpr ⟨fun hmem => ?_, ih _⟩
      obtain ⟨r', hr', hfst⟩ := List.mem_map.mp hmem
      exact (mem_addEach hr').2.2 (hfst ▸ List.mem_cons_self)

/-- Nobody is told two things. -/
def OnePlanEach (plans : List PlannedNotification) : Prop :=
  ∀ plan ∈ plans, ∀ plan' ∈ plans, plan.userId = plan'.userId → plan = plan'

theorem onePlanEach_nil : OnePlanEach [] := fun _ h => absurd h List.not_mem_nil

theorem planned_onePlanEach (subjectType : SubjectType) (subjectId : String)
    (actorId : Option UserId) (recipients : List (UserId × NotificationKind)) :
    OnePlanEach (planned subjectType subjectId (addEach actorId [] recipients)) := by
  intro plan hplan plan' hplan' huser
  obtain ⟨r, hr, rfl⟩ := List.mem_map.mp hplan
  obtain ⟨r', hr', rfl⟩ := List.mem_map.mp hplan'
  rw [List.inj_on_of_nodup_map (addEach_nodup actorId recipients []) hr hr' huser]

theorem planMember_eq {row : OutboxRow} {kind : NotificationKind} {named : Bool}
    {plan : PlannedNotification} (h : plan ∈ planMember row kind named) :
    ∃ membershipId, row.payload.membershipId = some membershipId ∧
      row.payload.userId = some plan.userId ∧
      plan = ⟨plan.userId, kind, .membership, membershipId⟩ := by
  unfold planMember at h
  split at h
  · rename_i membershipId userId hmembership huser
    split at h
    · cases h
    · obtain rfl := List.mem_singleton.mp h
      exact ⟨membershipId, hmembership, huser, rfl⟩
  · cases h

theorem planManagerNotifications_eq {row : OutboxRow} {managerUserIds : UserId → Option UserId}
    {plan : PlannedNotification} (h : plan ∈ planManagerNotifications row managerUserIds) :
    row.name = .member_added ∧ ∃ membershipId, row.payload.membershipId = some membershipId ∧
      row.payload.userId ≠ some plan.userId ∧
      plan = ⟨plan.userId, .member_report_joined, .membership, membershipId⟩ := by
  unfold planManagerNotifications at h
  split at h
  · rename_i hname
    split at h
    · rename_i managerUserId _
      unfold planManagerNotified at h
      split at h
      · rename_i membershipId userId hmembership huser
        split at h
        · cases h
        · rename_i hne
          obtain rfl := List.mem_singleton.mp h
          exact ⟨hname, membershipId, hmembership,
            fun he => hne (.inr (Option.some.inj (huser.symm.trans he)).symm), rfl⟩
      · cases h
    · cases h
  · cases h

theorem planMember_onePlanEach (row : OutboxRow) (kind : NotificationKind) (named : Bool) :
    OnePlanEach (planMember row kind named) := by
  intro plan hplan plan' hplan' huser
  obtain ⟨membershipId, hmembership, _, heq⟩ := planMember_eq hplan
  obtain ⟨membershipId', hmembership', _, heq'⟩ := planMember_eq hplan'
  obtain rfl := Option.some.inj (hmembership.symm.trans hmembership')
  rw [heq, heq', huser]

theorem planMissedCall_onePlanEach (row : OutboxRow) : OnePlanEach (planMissedCall row) := by
  unfold planMissedCall
  split
  · intro plan hplan plan' hplan' huser
    obtain ⟨userId, _, rfl⟩ := List.mem_map.mp hplan
    obtain ⟨userId', _, rfl⟩ := List.mem_map.mp hplan'
    rw [show userId = userId' from huser]
  · exact onePlanEach_nil

/-- An event's own plans tell a recipient one thing. -/
theorem planNotifications_onePlanEach (row : OutboxRow) :
    OnePlanEach (planNotifications row) := by
  unfold planNotifications
  split
  · exact planned_onePlanEach _ _ _ _
  · unfold planCardAssigned
    split
    · exact planned_onePlanEach _ _ _ _
    · exact onePlanEach_nil
  · unfold planCardCommentMention
    split
    · exact planned_onePlanEach _ _ _ _
    · exact onePlanEach_nil
  · unfold planPageCommentMention
    split
    · exact planned_onePlanEach _ _ _ _
    · exact onePlanEach_nil
  · exact planMissedCall_onePlanEach row
  · exact planMember_onePlanEach _ _ _
  · exact planMember_onePlanEach _ _ _
  · exact planMember_onePlanEach _ _ _
  · exact onePlanEach_nil

theorem mem_plans {batch : Batch} {row : OutboxRow} {plan : PlannedNotification}
    (h : plan ∈ plans batch row) : plan ∈ planNotifications row ∨
      plan ∈ planManagerNotifications row (batch.managerUserIds row.orgId) := by
  unfold plans at h
  split at h
  · exact List.mem_append.mp h
  · cases h

/-- A plan for the new member of a row is not the one for a manager. -/
theorem ne_of_manager {row : OutboxRow} {managerUserIds : UserId → Option UserId}
    {plan plan' : PlannedNotification} (hplan : plan ∈ planNotifications row)
    (hplan' : plan' ∈ planManagerNotifications row managerUserIds) :
    plan.userId ≠ plan'.userId := by
  obtain ⟨hname, _, _, hne, _⟩ := planManagerNotifications_eq hplan'
  simp only [planNotifications, hname] at hplan
  obtain ⟨_, _, huser, _⟩ := planMember_eq hplan
  exact fun heq => hne (heq ▸ huser)

/-- Whenever an event is delivered, it tells a recipient the same: an event and a
recipient determine the notice. -/
theorem plans_unique {batch batch' : Batch} {row : OutboxRow} {plan plan' : PlannedNotification}
    (hplan : plan ∈ plans batch row) (hplan' : plan' ∈ plans batch' row)
    (huser : plan.userId = plan'.userId) : plan = plan' := by
  rcases mem_plans hplan with hplan | hplan <;> rcases mem_plans hplan' with hplan' | hplan'
  · exact planNotifications_onePlanEach row plan hplan plan' hplan' huser
  · exact absurd huser (ne_of_manager hplan hplan')
  · exact absurd huser.symm (ne_of_manager hplan' hplan)
  · obtain ⟨_, membershipId, hmembership, _, heq⟩ := planManagerNotifications_eq hplan
    obtain ⟨_, membershipId', hmembership', _, heq'⟩ := planManagerNotifications_eq hplan'
    obtain rfl := Option.some.inj (hmembership.symm.trans hmembership')
    rw [heq, heq', huser]

theorem notices_unique {batches : List Batch} {n n' : OutboxRow × PlannedNotification}
    (hn : n ∈ notices batches) (hn' : n' ∈ notices batches) (hrow : n.1 = n'.1)
    (huser : n.2.userId = n'.2.userId) : n = n' := by
  have hplans : ∀ {n}, n ∈ notices batches → ∃ batch, n.2 ∈ plans batch n.1 := by
    intro n hn
    obtain ⟨batch, _, hn⟩ := List.mem_flatMap.mp hn
    obtain ⟨row, _, hn⟩ := List.mem_flatMap.mp hn
    obtain ⟨plan, hplan, rfl⟩ := List.mem_map.mp hn
    exact ⟨batch, hplan⟩
  obtain ⟨batch, hplan⟩ := hplans hn
  obtain ⟨batch', hplan'⟩ := hplans hn'
  exact Prod.ext hrow (plans_unique hplan (hrow ▸ hplan') huser)

/-! ### The table -/

theorem insertPlans_fst (row : OutboxRow) (plans : List PlannedNotification) :
    ∀ state, (plans.foldl (insertPlan row) state).1 =
      insertAll NotificationRow.eventUserKey state.1 (plans.map (notificationRow row)) := by
  induction plans with
  | nil => exact fun _ => rfl
  | cons plan plans ih =>
    intro state
    rw [List.foldl_cons, ih, List.map_cons, insertAll_cons]
    congr 1
    simp only [insertPlan, insertNew]
    split <;> rfl

theorem drainRows_fst (batch : Batch) (rows : List OutboxRow) :
    ∀ state, (rows.foldl (fun state row => (plans batch row).foldl (insertPlan row) state)
        state).1 =
      insertAll NotificationRow.eventUserKey state.1
        (rows.flatMap fun row => (plans batch row).map (notificationRow row)) := by
  induction rows with
  | nil => exact fun _ => rfl
  | cons row rows ih =>
    intro state
    rw [List.foldl_cons, ih, insertPlans_fst, List.flatMap_cons, insertAll_append]

/-- The rows of the notices, in the order they are inserted. -/
def noticeRows (batches : List Batch) : List NotificationRow :=
  (notices batches).map fun notice => notificationRow notice.1 notice.2

theorem drained_eq (batches : List Batch) :
    drained batches = insertAll NotificationRow.eventUserKey [] (noticeRows batches) := by
  have hfold : ∀ table,
      batches.foldl (fun table batch => (drainNotifications table batch).1) table =
        insertAll NotificationRow.eventUserKey table (noticeRows batches) := by
    induction batches with
    | nil => exact fun _ => rfl
    | cons batch batches ih =>
      intro table
      rw [List.foldl_cons, ih, drainNotifications, drainRows_fst]
      simp only [noticeRows, notices, List.flatMap_cons, List.map_append, insertAll_append,
        List.map_flatMap, List.map_map, Function.comp_def]
  exact hfold []

/-- However often and in whatever batches they are delivered, the rows are of the
notices, one under each key. -/
theorem drained_by_key (batches : List Batch) :
    ((drained batches).map NotificationRow.eventUserKey).Nodup ∧
    (∀ row ∈ drained batches, row ∈ noticeRows batches) ∧
    ∀ row ∈ noticeRows batches,
      row.eventUserKey ∈ (drained batches).map NotificationRow.eventUserKey := by
  rw [drained_eq]
  exact ⟨nodup_insertAll_nil,
    fun row hrow => (mem_insertAll hrow).resolve_left List.not_mem_nil,
    fun row hrow => key_mem_insertAll hrow⟩

/-- Delivering the batches again changes nothing. -/
theorem drained_again (batches : List Batch) : drained (batches ++ batches) = drained batches := by
  rw [drained_eq, drained_eq, noticeRows, notices, List.flatMap_append, List.map_append,
    insertAll_append]
  exact insertAll_idem

/-- There is one row for each event and recipient if and only if no two events
tell a recipient the same kind of thing about one subject of an org. -/
theorem exactlyOnce_iff (batches : List Batch) :
    ExactlyOnce batches ↔ KeysTellApart batches := by
  rw [ExactlyOnce, drained_eq, noticeRows, insertAll_perm_iff]
  constructor
  · exact fun h n hn n' hn' hkey => congrArg Prod.fst (h n hn n' hn' hkey)
  · intro h n hn n' hn' hkey
    refine notices_unique hn hn' (h n hn n' hn' hkey) ?_
    simp only [NotificationRow.eventUserKey, Prod.mk.injEq] at hkey
    exact hkey.2.2.1

/-- Ada mentions Bob in a comment on a card. -/
def mentionOnCard (id : EventId) : OutboxRow where
  id := id
  orgId := "org"
  name := .comment_created
  actorId := some "ada"
  requestId := none
  causationDepth := 0
  payload := { cardId := some "card", boardId := some "board", mentionedUserIds := ["bob"] }

/-- Two comments mention Bob on one card: he is told of one. -/
theorem once_of_two_mentions :
    ¬ExactlyOnce [⟨[mentionOnCard "1", mentionOnCard "2"], ["org"], fun _ _ => none⟩] := by
  decide

end NotificationRows
end TaskFlow
