import TaskFlow.DomainEvents

/-! # Notifications planned from events

The projection reads each event of the outbox once and decides whom to tell.
Nobody is told about their own action, and nobody twice about one event.  Each
notification that goes in is announced by an event of its own, written by the
system.
-/
namespace TaskFlow
namespace NotificationProjection
open DomainEvents

inductive NotificationKind where
  | chat_mention
  | chat_direct
  | chat_thread_reply
  | card_assigned
  | card_comment_mention
  | page_comment_mention
  | call_missed
  | member_added
  | member_role_changed
  | member_removed
  | member_report_joined
  deriving DecidableEq, Repr

inductive SubjectType where
  | message
  | card
  | page
  | call
  | membership
  deriving DecidableEq, Repr

/-- Whom to tell about what.  With the org these are what a notification is
unique in. -/
structure PlannedNotification where
  userId : UserId
  kind : NotificationKind
  subjectType : SubjectType
  subjectId : String
  deriving DecidableEq, Repr

/-- The recipients in order, without the actor and each once, under the first
kind they occur with. -/
def addEach (actorId : Option UserId) (told : List UserId) :
    List (UserId × NotificationKind) → List (UserId × NotificationKind)
  | [] => []
  | (userId, kind) :: rest =>
    if some userId = actorId ∨ userId ∈ told then addEach actorId told rest
    else (userId, kind) :: addEach actorId (userId :: told) rest

def planned (subjectType : SubjectType) (subjectId : String)
    (told : List (UserId × NotificationKind)) : List PlannedNotification :=
  told.map fun (userId, kind) => ⟨userId, kind, subjectType, subjectId⟩

/-- Mentions first, then the author of the parent, then who is in the direct
message. -/
def planMessageSent (row : OutboxRow) : List PlannedNotification :=
  planned .message (row.payload.messageId.getD row.id) (addEach row.actorId []
    (row.payload.mentionedUserIds.map (·, .chat_mention) ++
      row.payload.parentAuthorId.toList.map (·, .chat_thread_reply) ++
      row.payload.directRecipientIds.map (·, .chat_direct)))

/-- Who is assigned after and was not before. -/
def planCardAssigned (row : OutboxRow) : List PlannedNotification :=
  match row.payload.cardId, row.payload.boardId with
  | some cardId, some _ =>
    planned .card cardId (addEach row.actorId []
      ((row.payload.after.filter (· ∉ row.payload.before)).map (·, .card_assigned)))
  | _, _ => []

def planCardCommentMention (row : OutboxRow) : List PlannedNotification :=
  match row.payload.cardId, row.payload.boardId with
  | some cardId, some _ =>
    planned .card cardId (addEach row.actorId []
      (row.payload.mentionedUserIds.map (·, .card_comment_mention)))
  | _, _ => []

def planPageCommentMention (row : OutboxRow) : List PlannedNotification :=
  match row.payload.pageId with
  | some pageId =>
    planned .page pageId (addEach row.actorId []
      (row.payload.mentionedUserIds.map (·, .page_comment_mention)))
  | none => []

def planMissedCall (row : OutboxRow) : List PlannedNotification :=
  match row.payload.sessionId with
  | some sessionId =>
    (row.payload.missedUserIds.filter (some · ≠ row.actorId)).map
      (⟨·, .call_missed, .call, sessionId⟩)
  | none => []

/-- The member an event about a membership is about.  `named` is whether the
payload has the other strings the plan needs. -/
def planMember (row : OutboxRow) (kind : NotificationKind) (named : Bool) :
    List PlannedNotification :=
  match row.payload.membershipId, row.payload.userId with
  | some membershipId, some userId =>
    if !named ∨ some userId = row.actorId then []
    else [⟨userId, kind, .membership, membershipId⟩]
  | _, _ => []

def planMemberAdded (row : OutboxRow) : List PlannedNotification :=
  planMember row .member_added row.payload.role.isSome

def planMemberRoleChanged (row : OutboxRow) : List PlannedNotification :=
  planMember row .member_role_changed row.payload.toRole.isSome

def planMemberRemoved (row : OutboxRow) : List PlannedNotification :=
  planMember row .member_removed true

/-- What one event should tell whom. -/
def planNotifications (row : OutboxRow) : List PlannedNotification :=
  match row.name with
  | .message_sent => planMessageSent row
  | .card_assigned => planCardAssigned row
  | .comment_created => planCardCommentMention row
  | .page_comment_created => planPageCommentMention row
  | .rtc_session_ended => planMissedCall row
  | .member_added => planMemberAdded row
  | .member_role_changed => planMemberRoleChanged row
  | .member_removed => planMemberRemoved row
  | _ => []

def planManagerNotified (row : OutboxRow) (managerUserId : UserId) : List PlannedNotification :=
  match row.payload.membershipId, row.payload.userId with
  | some membershipId, some userId =>
    if some managerUserId = row.actorId ∨ managerUserId = userId then []
    else [⟨managerUserId, .member_report_joined, .membership, membershipId⟩]
  | _, _ => []

/-- The manager of a new member is told as well. -/
def planManagerNotifications (row : OutboxRow) (managerUserIds : UserId → Option UserId) :
    List PlannedNotification :=
  if row.name = .member_added then
    match row.payload.userId.bind managerUserIds with
    | some managerUserId => planManagerNotified row managerUserId
    | none => []
  else []

/-- What the projection finds for one row. -/
structure NotifyWorld where
  orgIsActive : Bool
  managerUserIds : UserId → Option UserId
  /-- The notification was not there yet. -/
  inserts : PlannedNotification → Bool
  newId : Nat → String

/-- The notifications that go in for a row. -/
def inserted (row : OutboxRow) (w : NotifyWorld) : List PlannedNotification :=
  if w.orgIsActive then
    (planNotifications row ++ planManagerNotifications row w.managerUserIds).filter w.inserts
  else []

/-- The events the projection writes for a row: one for each notification, by
the system and without a depth. -/
def projectRow (row : OutboxRow) (w : NotifyWorld) : List DomainEvent :=
  (inserted row w).zipIdx.map fun (plan, n) =>
    createEvent (w.newId n) .notification_created { userId := some plan.userId }
      { orgId := row.orgId, actorId := none }

theorem mem_addEach {actorId : Option UserId} {told : List UserId}
    {recipients : List (UserId × NotificationKind)} {r : UserId × NotificationKind}
    (h : r ∈ addEach actorId told recipients) :
    r ∈ recipients ∧ some r.1 ≠ actorId ∧ r.1 ∉ told := by
  induction recipients generalizing told with
  | nil => cases h
  | cons x rest ih =>
    rw [addEach] at h
    split at h
    · obtain ⟨hr, hne⟩ := ih h
      exact ⟨List.mem_cons_of_mem _ hr, hne⟩
    · rename_i hx
      rcases List.mem_cons.mp h with rfl | h
      · exact ⟨List.mem_cons_self .., fun he => hx (.inl he), fun he => hx (.inr he)⟩
      · obtain ⟨hr, hne, ht⟩ := ih h
        exact ⟨List.mem_cons_of_mem _ hr, hne, fun hm => ht (List.mem_cons_of_mem _ hm)⟩

/-- **Nobody is told about their own action.** -/
theorem planNotifications_ne_actor {row : OutboxRow} {plan : PlannedNotification}
    (h : plan ∈ planNotifications row) : some plan.userId ≠ row.actorId := by
  -- both ways of planning leave the actor out
  have hadd : ∀ {subjectType subjectId recipients},
      plan ∈ planned subjectType subjectId (addEach row.actorId [] recipients) →
        some plan.userId ≠ row.actorId := by
    intro subjectType subjectId recipients hp
    obtain ⟨r, hr, rfl⟩ := List.mem_map.mp hp
    exact (mem_addEach hr).2.1
  have hmember : ∀ {kind named}, plan ∈ planMember row kind named →
      some plan.userId ≠ row.actorId := by
    intro kind named hp
    unfold planMember at hp
    split at hp
    · split at hp
      · cases hp
      -- the one branch that plans somebody has ruled the actor out
      · rename_i hne
        obtain rfl := List.mem_singleton.mp hp
        exact fun he => hne (.inr he)
    · cases hp
  unfold planNotifications at h
  split at h
  · exact hadd h
  · unfold planCardAssigned at h
    split at h
    · exact hadd h
    · cases h
  · unfold planCardCommentMention at h
    split at h
    · exact hadd h
    · cases h
  · unfold planPageCommentMention at h
    split at h
    · exact hadd h
    · cases h
  · unfold planMissedCall at h
    split at h
    · obtain ⟨userId, hu, rfl⟩ := List.mem_map.mp h
      simpa using (List.mem_filter.mp hu).2
    · cases h
  · exact hmember h
  · exact hmember h
  · exact hmember h
  · cases h

theorem removal_ne_actor : (some "u2" : Option UserId) ≠ some "u1" :=
  @planNotifications_ne_actor
    ⟨"e1", "o1", .member_removed, some "u1", none, 0,
      { membershipId := some "m2", userId := some "u2" }⟩
    ⟨"u2", .member_removed, .membership, "m2"⟩ (List.mem_singleton.mpr rfl)

theorem projectRow_allAt {row : OutboxRow} {w : NotifyWorld} {depth : Nat} :
    AllAt depth (projectRow row w) ↔ depth = 0 ∨ inserted row w = [] := by
  have hnone : ∀ e ∈ projectRow row w, e.causationDepth = none := by
    intro e he
    obtain ⟨_, _, rfl⟩ := List.mem_map.mp he
    rfl
  cases depth with
  | zero =>
    refine iff_of_true (fun e he => ?_) (.inl rfl)
    rw [hnone e he, Option.getD_none]
  | succ depth =>
    rw [allAt_succ_iff_nil hnone]
    simp [projectRow]

end NotificationProjection
end TaskFlow
