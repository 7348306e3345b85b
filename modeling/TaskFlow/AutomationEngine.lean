import TaskFlow.AutomationServices

/-! # The automation engine

The engine takes one event off the outbox and runs the rules that listen for it.
A rule is refused when the event is at `MAX_DEPTH` or deeper, or when one of the
rule's actions is known to emit the rule's own trigger.  The actions of a rule
run in order as the rule's owner, up to the first that fails, with an actor whose
`causationDepth` is one more than the event's.
-/
namespace TaskFlow
namespace AutomationEngine
open DomainEvents RichText AutomationServices

/-- The hard depth cap. -/
def MAX_DEPTH : Nat := 5

/-- The closed union of actions. -/
inductive AutomationAction where
  | card_move (listId : ListId)
  | card_set_status (statusId : StatusId)
  | card_set_priority (priority : String)
  | card_assign (userId : UserId)
  | card_add_label (labelId : LabelId)
  | card_remove_label (labelId : LabelId)
  | card_unassign (userId : UserId)
  | card_add_comment (body : Text)
  | chat_post_message (channelId : ChannelId) (body : Text)
  | call_webhook (webhookId : String)
  | call_place (to_ : String) (fromPhoneNumberId : String)
  | sms_send (to_ : String) (fromPhoneNumberId : String) (body : Text)
  | slack_post_message (integrationId : String) (channel : String) (text : Text)
  | github_create_issue (integrationId : String) (title body : Text)
  | channel_add_member (channelId : ChannelId)
  | channel_remove_member (channelId : ChannelId)
  | docs_grant_space_access (spaceId : String)
  | identity_revoke_sessions
  | member_grant_revoke_all
  | cards_bulk_reassign (toUserId : UserId)
  | card_create (listId : ListId) (title : Text)
  | member_grant_apply_role_defaults
  deriving DecidableEq, Repr

/-- The events an action is known to emit. -/
def eventsEmittedBy : AutomationAction → List EventName
  | .card_move _ => [.card_moved, .card_updated, .list_rebalanced]
  | .card_set_status _ => [.card_status_changed, .card_updated]
  | .card_set_priority _ => [.card_updated]
  | .card_assign _ => [.card_assigned, .card_updated]
  | .card_add_label _ => [.card_labeled, .card_updated]
  | .card_remove_label _ => [.card_labeled, .card_updated]
  | .card_unassign _ => [.card_assigned, .card_updated]
  | .card_add_comment _ => [.comment_created, .card_updated]
  | .chat_post_message _ _ => [.message_sent]
  | .call_webhook _ => [.webhook_delivery_queued]
  | .call_place _ _ => [.call_placed, .call_status_changed]
  | .sms_send _ _ _ => [.sms_sent]
  | .slack_post_message _ _ _ => [.integration_message_posted]
  | .github_create_issue _ _ _ => [.integration_issue_created]
  | .channel_add_member _ => [.channel_member_added]
  | .channel_remove_member _ => [.channel_member_removed]
  | .docs_grant_space_access _ => [.grant_created]
  | .identity_revoke_sessions => [.session_revoked]
  | .member_grant_revoke_all => [.member_grant_revoked]
  | .cards_bulk_reassign _ => [.card_bulk_reassigned]
  | .card_create _ _ => [.card_created]
  | .member_grant_apply_role_defaults => [.member_grant_created]

/-- A rule as loaded from `platform.automations`. -/
structure AutomationRule where
  id : String
  orgId : OrgId
  triggerEvent : EventName
  /-- The condition by a name of its own, or `none` to fire every time. -/
  condition : Option String
  actions : List AutomationAction
  enabled : Bool
  /-- Whose permissions the actions run with. -/
  createdBy : UserId
  deriving DecidableEq, Repr

/-! ### Loop protection -/

inductive RunReason where
  | condition_not_met
  | depth_exceeded
  | self_trigger
  | budget_exhausted
  | trigger_not_evaluable
  deriving DecidableEq, Repr

/-- The depth cap. -/
def checkDepth (depth : Nat) : Except RunReason Unit :=
  if depth ≥ MAX_DEPTH then .error .depth_exceeded else .ok ()

/-- Some action is known to emit the rule's own trigger. -/
def selfTriggers (rule : AutomationRule) : Bool :=
  rule.actions.any fun action => rule.triggerEvent ∈ eventsEmittedBy action

def checkLoopProtection (rule : AutomationRule) (depth : Nat) : Except RunReason Unit := do
  checkDepth depth
  if selfTriggers rule then throw .self_trigger

/-! ### Actions -/

/-- The card the trigger named. -/
def cardIdOf (event : OutboxRow) : Service CardId :=
  .ofOption event.payload.cardId

/-- The member the trigger named. -/
def userIdOf (event : OutboxRow) : Service UserId :=
  .ofOption event.payload.userId

/-- What the worker is configured with and what the world answers while one
action runs. -/
structure ActionWorld where
  txs : Nat → Tx
  outside : Outside
  suppressed : Bool
  telephonyActionsEnabled : Bool
  telephony : Bool
  integrations : Bool
  /-- The stored description of a card is valid rich text. -/
  descriptionParses : Bool

/-- A configuration that has to be there. -/
def require (present : Bool) : Service Unit :=
  .ofOption (if present then some () else none)

/-- The tenancy services get the user and the request of the actor. -/
def tenancyActor (actor : Actor) : TenancyActor :=
  ⟨actor.subject.userId, actor.requestId⟩

/-- One action, as a call of its service. -/
def runAction (actor : Actor) (action : AutomationAction) (event : OutboxRow)
    (w : ActionWorld) : Service Unit :=
  match action with
  | .card_move listId => do
    moveCard (w.txs 0) actor (← cardIdOf event) listId none none
  | .card_set_status statusId => do
    setCardStatus (w.txs 0) actor (← cardIdOf event) (some statusId)
  | .card_set_priority _ => do
    let cardId ← cardIdOf event
    let current ← getCard (w.txs 0) cardId
    require w.descriptionParses
    updateCard (w.txs 1) actor cardId current.version
  | .card_assign userId => do
    -- Additive: `assignCard` replaces the whole set.
    let cardId ← cardIdOf event
    let current ← getCard (w.txs 0) cardId
    if userId ∈ current.assigneeIds then return
    assignCard (w.txs 1) actor cardId (current.assigneeIds ++ [userId])
  | .card_add_label labelId => do
    let cardId ← cardIdOf event
    let existing ← listCardLabels (w.txs 0) cardId
    if labelId ∈ existing then return
    setCardLabels (w.txs 1) actor cardId (existing ++ [labelId])
  | .card_remove_label labelId => do
    let cardId ← cardIdOf event
    let existing ← listCardLabels (w.txs 0) cardId
    if labelId ∉ existing then return
    setCardLabels (w.txs 1) actor cardId (existing.filter (· ≠ labelId))
  | .card_unassign userId => do
    let cardId ← cardIdOf event
    let current ← getCard (w.txs 0) cardId
    if userId ∉ current.assigneeIds then return
    assignCard (w.txs 1) actor cardId (current.assigneeIds.filter (· ≠ userId))
  | .card_add_comment body => do
    createComment (w.txs 0) actor (← cardIdOf event) (plainParagraph body)
  | .chat_post_message channelId body =>
    sendMessage w.txs actor channelId (plainParagraph body) none
  | .call_webhook webhookId =>
    enqueueWebhookDelivery (w.txs 0) actor webhookId event.id
  | .call_place _ fromPhoneNumberId => do
    require (w.telephonyActionsEnabled && w.telephony)
    placeCall w.txs w.outside actor fromPhoneNumberId
  | .sms_send _ fromPhoneNumberId _ => do
    require (w.telephonyActionsEnabled && w.telephony)
    sendSms w.txs w.outside w.suppressed actor fromPhoneNumberId
  | .slack_post_message integrationId _ _ => do
    require w.integrations
    postSlackMessage w.txs w.outside actor integrationId
  | .github_create_issue integrationId _ _ => do
    require w.integrations
    createGithubIssue w.txs w.outside actor integrationId
  | .channel_add_member channelId => do
    addChannelMember (w.txs 0) actor channelId (← userIdOf event)
  | .channel_remove_member channelId => do
    removeChannelMember (w.txs 0) actor channelId (← userIdOf event)
  | .docs_grant_space_access spaceId => do
    require ((w.txs 0).can .member_manage .org)
    grantSpaceAccess (w.txs 0) actor.subject.orgId (← userIdOf event) spaceId (tenancyActor actor)
  | .identity_revoke_sessions => do
    require ((w.txs 0).can .member_manage .org)
    let _ ← userIdOf event
    logoutEverywhere (w.txs 0)
  | .member_grant_revoke_all => do
    require ((w.txs 0).can .member_manage .org)
    revokeAll (w.txs 0) actor.subject.orgId (← userIdOf event) (tenancyActor actor)
  | .cards_bulk_reassign toUserId => do
    bulkReassignCards (w.txs 0) actor (← userIdOf event) toUserId
  | .card_create listId _ =>
    createCard (w.txs 0) actor listId
  | .member_grant_apply_role_defaults => do
    -- The role is the member's own at this moment, not one of the event.
    applyRoleDefaults w.txs actor.subject.orgId (← userIdOf event) (tenancyActor actor)

/-! ### Runs of a rule -/

/-- What the engine reads for one rule and one event. -/
structure RuleWorld where
  /-- The condition on the row that is read again for the trigger; `none` where
  there is no row. -/
  evaluate : String → Option Bool
  /-- The hourly budget admits the run. -/
  budget : Bool
  /-- The live membership of the rule's owner. -/
  membership : Option Role
  /-- The world of each action, in order. -/
  action : Nat → ActionWorld

/-- The actor of a rule's actions: its owner, with the depth their events must
carry. -/
def ruleActor (rule : AutomationRule) (event : OutboxRow) (role : Role) (nextDepth : Nat) :
    Actor where
  subject := ⟨rule.orgId, rule.createdBy, role⟩
  requestId := event.id
  causationDepth := some nextDepth

/-- The actions in order, up to the first that fails: what they write. -/
def runActions (actor : Actor) (event : OutboxRow) :
    List AutomationAction → (Nat → ActionWorld) → List DomainEvent
  | [], _ => []
  | action :: rest, w =>
    let o := runAction actor action event (w 0)
    o.written ++
      if o.result.isSome then runActions actor event rest (fun k => w (k + 1)) else []

/-- The executor.  Without a live membership every action fails. -/
def execute (rule : AutomationRule) (event : OutboxRow) (nextDepth : Nat) (w : RuleWorld) :
    List DomainEvent :=
  match w.membership with
  | none => []
  | some role => runActions (ruleActor rule event role nextDepth) event rule.actions w.action

/-- The checks before the actions, in order. -/
def admits (rule : AutomationRule) (event : OutboxRow) (w : RuleWorld) :
    Except RunReason Unit := do
  checkLoopProtection rule event.causationDepth
  if let some condition := rule.condition then
    match w.evaluate condition with
    | none => throw .trigger_not_evaluable
    | some met => if !met then throw .condition_not_met
  if !w.budget then throw .budget_exhausted

/-- One rule on one event: what it writes. -/
def runOne (rule : AutomationRule) (event : OutboxRow) (w : RuleWorld) : List DomainEvent :=
  match admits rule event w with
  | .ok () => execute rule event (event.causationDepth + 1) w
  | .error _ => []

/-- The rules that listen for an event. -/
def loadRulesFor (stored : List AutomationRule) (event : OutboxRow) : List AutomationRule :=
  stored.filter fun rule =>
    rule.orgId = event.orgId ∧ rule.triggerEvent = event.name ∧ rule.enabled

/-- The rules one after another. -/
def runRules (event : OutboxRow) : List AutomationRule → (Nat → RuleWorld) → List DomainEvent
  | [], _ => []
  | rule :: rest, w => runOne rule event (w 0) ++ runRules event rest (fun k => w (k + 1))

/-- The engine on one event, for an org that is active. -/
def processEvent (orgIsActive : Bool) (stored : List AutomationRule) (event : OutboxRow)
    (w : Nat → RuleWorld) : List DomainEvent :=
  if orgIsActive then runRules event (loadRulesFor stored event) w else []

theorem depth_lt_of_admits {rule : AutomationRule} {event : OutboxRow} {w : RuleWorld}
    (h : admits rule event w = .ok ()) : event.causationDepth < MAX_DEPTH := by
  by_contra hge
  have hc : checkDepth event.causationDepth = .error .depth_exceeded :=
    if_pos (Nat.not_lt.mp hge)
  simp [admits, checkLoopProtection, hc, bind, Except.bind] at h

/-- **The engine writes nothing for an event at the cap.** -/
theorem runRules_eq_nil {event : OutboxRow} (h : MAX_DEPTH ≤ event.causationDepth)
    (rules : List AutomationRule) (w : Nat → RuleWorld) : runRules event rules w = [] := by
  induction rules generalizing w with
  | nil => rfl
  | cons rule rest ih =>
    rw [runRules, ih, List.append_nil, runOne]
    split
    · rename_i hadmits
      exact absurd (depth_lt_of_admits hadmits) (Nat.not_lt.mpr h)
    · rfl

theorem depth_lt_of_processEvent {orgIsActive : Bool} {stored : List AutomationRule}
    {event : OutboxRow} {w : Nat → RuleWorld}
    (h : processEvent orgIsActive stored event w ≠ []) : event.causationDepth < MAX_DEPTH := by
  by_contra hge
  apply h
  unfold processEvent
  split
  · exact runRules_eq_nil (Nat.not_lt.mp hge) _ _
  · rfl

end AutomationEngine
end TaskFlow
