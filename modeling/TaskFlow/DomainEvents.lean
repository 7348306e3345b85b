import Mathlib.Data.List.Basic

/-! # Domain events and the outbox

Every mutation writes an event to the outbox in its own transaction.  The
envelope of an event carries what every consumer needs: the tenant, who did it,
the request, and how many automation hops led to it.  `causationDepth` is
optional, and an event without it is at depth 0.

A service does not build the envelope by hand: it has an `envelopeOf` (or an
object literal) that makes the context of `createEvent` from its actor.  Not all
of them copy the depth.
-/
namespace TaskFlow
namespace DomainEvents

abbrev OrgId := String
abbrev UserId := String
abbrev EventId := String
abbrev RequestId := String

/-- The names of the events that actions write and that notifications are
planned from; `other` is any other registered name. -/
inductive EventName where
  | card_created
  | card_updated
  | card_moved
  | card_status_changed
  | card_assigned
  | card_labeled
  | card_bulk_reassigned
  | list_rebalanced
  | comment_created
  | message_sent
  | message_unfurled
  | channel_member_added
  | channel_member_removed
  | webhook_delivery_queued
  | integration_message_posted
  | integration_issue_created
  | subaccount_provisioned
  | spend_limit_exceeded
  | spend_cap_reached
  | call_placed
  | call_status_changed
  | message_thread_created
  | sms_sent
  | grant_created
  | member_grant_created
  | member_grant_revoked
  | session_revoked
  | notification_created
  | member_added
  | member_role_changed
  | member_removed
  | page_comment_created
  | rtc_session_ended
  | other (name : String)
  deriving DecidableEq, Repr

/-- The fields of a payload that a consumer reads.  A field is `none` where the
payload has no string of that name, and a list has the strings of the array of
that name. -/
structure Payload where
  cardId : Option String := none
  boardId : Option String := none
  userId : Option UserId := none
  membershipId : Option String := none
  role : Option String := none
  toRole : Option String := none
  messageId : Option String := none
  sessionId : Option String := none
  pageId : Option String := none
  before : List String := []
  after : List String := []
  mentionedUserIds : List UserId := []
  missedUserIds : List UserId := []
  directRecipientIds : List UserId := []
  parentAuthorId : Option UserId := none
  deriving DecidableEq, Repr

/-- The envelope of an event with its payload. -/
structure DomainEvent where
  id : EventId
  name : EventName
  orgId : OrgId
  /-- Who caused it, or `none` for the system. -/
  actorId : Option UserId
  requestId : Option RequestId
  /-- How many automation hops produced it.  Absent means zero. -/
  causationDepth : Option Nat
  payload : Payload
  deriving DecidableEq, Repr

/-- What a caller gives of the envelope. -/
structure EventContext where
  orgId : OrgId
  actorId : Option UserId
  requestId : Option RequestId := none
  causationDepth : Option Nat := none
  deriving DecidableEq, Repr

/-- An event with the envelope of the context. -/
def createEvent (id : EventId) (name : EventName) (payload : Payload) (context : EventContext) :
    DomainEvent where
  id := id
  name := name
  orgId := context.orgId
  actorId := context.actorId
  requestId := context.requestId
  causationDepth := context.causationDepth
  payload := payload

@[simp] theorem createEvent_causationDepth (id : EventId) (name : EventName) (payload : Payload)
    (context : EventContext) :
    (createEvent id name payload context).causationDepth = context.causationDepth := rfl

/-- A row of `platform.outbox`, as a consumer reads it back. -/
structure OutboxRow where
  id : EventId
  orgId : OrgId
  name : EventName
  actorId : Option UserId
  requestId : Option RequestId
  causationDepth : Nat
  payload : Payload
  deriving DecidableEq, Repr

/-- The row an event is appended as: an absent depth is 0, the root of a chain. -/
def outboxRow (event : DomainEvent) : OutboxRow where
  id := event.id
  orgId := event.orgId
  name := event.name
  actorId := event.actorId
  requestId := event.requestId
  causationDepth := event.causationDepth.getD 0
  payload := event.payload

def appendToOutbox (events : List DomainEvent) : List OutboxRow :=
  events.map outboxRow

/-! ### Actors

The executor passes one object, and each service takes it as its own actor
type.  The ones of the card and chat services have a `causationDepth`. -/

inductive Role where
  | owner
  | admin
  | member
  | guest
  deriving DecidableEq, Repr

structure Subject where
  orgId : OrgId
  userId : UserId
  role : Role
  deriving DecidableEq, Repr

structure Actor where
  subject : Subject
  requestId : RequestId
  causationDepth : Option Nat := none
  deriving DecidableEq, Repr

/-- The actor of the tenancy services. -/
structure TenancyActor where
  userId : UserId
  requestId : RequestId
  deriving DecidableEq, Repr

/-! ### Envelopes -/

/-- The fields that every `envelopeOf` takes from its actor, at a depth. -/
def actorContext (actor : Actor) (causationDepth : Option Nat) : EventContext where
  orgId := actor.subject.orgId
  actorId := some actor.subject.userId
  requestId := some actor.requestId
  causationDepth := causationDepth

/-- `envelopeOf` of the card services. -/
def workEnvelopeOf (actor : Actor) : EventContext :=
  actorContext actor actor.causationDepth

/-- `envelopeOf` of the chat services. -/
def chatEnvelopeOf (actor : Actor) : EventContext :=
  actorContext actor actor.causationDepth

/-- `envelopeOf` of the webhook service. -/
def webhookEnvelopeOf (actor : Actor) : EventContext :=
  actorContext actor none

/-- `envelopeOf` of the outbound connector actions. -/
def integrationEnvelopeOf (actor : Actor) : EventContext :=
  actorContext actor none

/-- `envelopeOf` of the telephony services. -/
def telephonyEnvelopeOf (actor : Actor) : EventContext :=
  actorContext actor none

/-- The context the grant services write out. -/
def tenancyContext (orgId : OrgId) (actor : TenancyActor) : EventContext where
  orgId := orgId
  actorId := some actor.userId
  requestId := some actor.requestId

/-! ### Carried depth -/

/-- Every event is read back at this depth. -/
def AllAt (depth : Nat) (events : List DomainEvent) : Prop :=
  ∀ e ∈ events, e.causationDepth.getD 0 = depth

section
variable {depth : Nat} {events events' : List DomainEvent}

@[simp] theorem allAt_nil : AllAt depth [] := by
  intro e he
  cases he

@[simp] theorem allAt_cons {e : DomainEvent} :
    AllAt depth (e :: events) ↔ e.causationDepth.getD 0 = depth ∧ AllAt depth events := by
  simp [AllAt]

@[simp] theorem allAt_append :
    AllAt depth (events ++ events') ↔ AllAt depth events ∧ AllAt depth events' := by
  simp only [AllAt, List.mem_append]
  constructor
  · intro h
    exact ⟨fun e he => h e (.inl he), fun e he => h e (.inr he)⟩
  · rintro ⟨h, h'⟩ e (he | he)
    · exact h e he
    · exact h' e he

theorem allAt_appendToOutbox :
    AllAt depth events ↔ ∀ row ∈ appendToOutbox events, row.causationDepth = depth := by
  simp [AllAt, appendToOutbox, outboxRow]

/-- Events without a depth are not at a positive one, unless there are none. -/
theorem allAt_succ_iff_nil (h : ∀ e ∈ events, e.causationDepth = none) :
    AllAt (depth + 1) events ↔ events = [] := by
  constructor
  · intro hat
    by_contra hne
    obtain ⟨e, he⟩ := List.exists_mem_of_ne_nil events hne
    have := hat e he
    rw [h e he] at this
    cases this
  · rintro rfl
    exact allAt_nil

end

end DomainEvents
end TaskFlow
