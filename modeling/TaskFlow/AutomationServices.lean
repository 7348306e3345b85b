import Mathlib.Data.List.Sort
import Mathlib.Data.String.Basic
import TaskFlow.CardMove
import TaskFlow.DomainEvents
import TaskFlow.Outcome
import TaskFlow.RichText

/-! # The services behind automation actions

An action of a rule is a call of an ordinary service.  A service runs one or
more transactions; `Tx` is what one of them finds in the database, and a
service that runs several takes one for each.  What lies outside of the
database (the carrier, Slack, GitHub) answers through `Outside`.

Each service writes its events with the `envelopeOf` of its module.
-/
namespace TaskFlow
namespace AutomationServices
open DomainEvents RichText

abbrev CardId := CardMove.CardId
abbrev ListId := CardMove.ListId
abbrev ChannelId := String
abbrev MessageId := String
abbrev StatusId := String
abbrev LabelId := String

/-- The permissions the services ask for. -/
inductive Permission where
  | card_read
  | card_create
  | card_update
  | card_move
  | comment_create
  | channel_read
  | channel_manage
  | message_create
  | webhook_manage
  | integration_manage
  | member_manage
  deriving DecidableEq, Repr

/-- What a permission is asked on. -/
inductive Resource where
  | org
  | board (id : String)
  | card (id : CardId)
  | channel (id : ChannelId)
  deriving DecidableEq, Repr

structure CardRow where
  projectId : String
  boardId : String
  statusId : Option StatusId
  assigneeIds : List UserId
  version : Nat
  deriving DecidableEq, Repr

structure ListRow where
  projectId : String
  boardId : String
  deriving DecidableEq, Repr

inductive ChannelType where
  | «public»
  | «private»
  | dm
  | group_dm
  deriving DecidableEq, Repr

structure ChannelRow where
  type : ChannelType
  archived : Bool
  memberIds : List UserId
  deriving DecidableEq, Repr

structure MessageRow where
  channelId : ChannelId
  parentMessageId : Option MessageId
  authorId : UserId
  deleted : Bool
  deriving DecidableEq, Repr

inductive GateDecision where
  | allowed (warnThresholdPercent : Option Nat)
  | refused
  deriving DecidableEq, Repr

/-- What one transaction finds, and whether it commits. -/
structure Tx where
  commits : Bool
  newId : Nat → String
  can : Permission → Resource → Bool
  card : CardId → Option CardRow
  list : ListId → Option ListRow
  /-- The live cards of a list but one, in order. -/
  siblings : ListId → CardId → List CardMove.Sibling
  /-- The same after the list is rebalanced. -/
  repaired : ListId → CardId → List CardMove.Sibling
  /-- The last rank in a list. -/
  lastRank : ListId → Option (List Char)
  /-- The card counter of a project exists. -/
  counter : String → Bool
  labels : CardId → List LabelId
  /-- The cards a user is assigned to that are not archived. -/
  carrying : UserId → List CardId
  channel : ChannelId → Option ChannelRow
  message : MessageId → Option MessageRow
  webhookEnabled : String → Option Bool
  /-- A delivery of the event to the webhook exists. -/
  queued : String → EventId → Bool
  /-- The scope of a connected connector whose token decrypts. -/
  connector : String → Option (List Char)
  hasMembership : UserId → Bool
  isActiveMember : UserId → Bool
  /-- The role of an active membership. -/
  roleOf : UserId → Option Role
  /-- The user is a viewer of the space. -/
  isViewer : UserId → String → Bool
  activeGrants : UserId → List String
  permissionsForRole : Role → List String
  phoneNumber : String → Bool
  subaccount : Bool
  /-- `checkOutboundAllowed`, or `none` where it throws. -/
  checkOutboundAllowed : Option GateDecision
  dataKey : Bool
  messageThread : Bool
  sessionsRevoked : Bool

/-- What the other side of a call out of the process answers. -/
structure Outside where
  createSubaccount : Bool
  estimateCostCents : Bool
  placeCall : Bool
  sendSms : Bool
  slackPosts : Bool
  githubCreates : Bool

/-- The writes of a service. -/
abbrev Service (α : Type) := Outcome DomainEvent α

/-- `withOrgScope`: one transaction, which returns a value and its events. -/
def withOrgScope {α : Type} (tx : Tx) (body : Option (α × List DomainEvent)) : Service α :=
  Outcome.transaction tx.commits body

/-! ### Cards -/

def getCard (tx : Tx) (cardId : CardId) : Service CardRow :=
  withOrgScope tx do
    let card ← tx.card cardId
    guard (tx.can .card_read (.card cardId))
    return (card, [])

def listCardLabels (tx : Tx) (cardId : CardId) : Service (List LabelId) :=
  withOrgScope tx do
    let _ ← tx.card cardId
    guard (tx.can .card_read (.card cardId))
    return (tx.labels cardId, [])

/-- The events of a move: where the neighbours have no rank between them the
list is rebalanced first. -/
def moveCard (tx : Tx) (actor : Actor) (cardId : CardId) (targetListId : ListId)
    (beforeCardId afterCardId : Option CardId) : Service Unit :=
  withOrgScope tx do
    let card ← tx.card cardId
    guard (tx.can .card_move (.card cardId))
    let target ← tx.list targetListId
    guard (tx.can .card_move (.board target.boardId))
    guard (target.projectId = card.projectId)
    let moved := createEvent (tx.newId 0) .card_moved
      { cardId := some cardId, boardId := some target.boardId } (workEnvelopeOf actor)
    let rebalanced := createEvent (tx.newId 1) .list_rebalanced
      { boardId := some target.boardId } (workEnvelopeOf actor)
    let siblings := tx.siblings targetListId cardId
    let before ← (CardMove.rankOfNeighbour siblings beforeCardId).toOption
    let after ← (CardMove.rankOfNeighbour siblings afterCardId).toOption
    match Rank.between before after with
    | .ok _ => return ((), [moved])
    | .error _ =>
      -- no room between the neighbours: the list is rebalanced and they are read again
      let repaired := tx.repaired targetListId cardId
      let before ← (CardMove.rankOfNeighbour repaired beforeCardId).toOption
      let after ← (CardMove.rankOfNeighbour repaired afterCardId).toOption
      let _ ← (Rank.between before after).toOption
      return ((), [moved, rebalanced])

def setCardStatus (tx : Tx) (actor : Actor) (cardId : CardId) (statusId : Option StatusId) :
    Service Unit :=
  withOrgScope tx do
    let card ← tx.card cardId
    guard (tx.can .card_update (.card cardId))
    -- the status the card has already: nothing happens
    if card.statusId = statusId then return ((), [])
    return ((), [createEvent (tx.newId 0) .card_status_changed
      { cardId := some cardId, boardId := some card.boardId } (workEnvelopeOf actor)])

/-- A full replace; the fields are not part of what the event is read for. -/
def updateCard (tx : Tx) (actor : Actor) (cardId : CardId) (version : Nat) : Service Unit :=
  withOrgScope tx do
    let card ← tx.card cardId
    guard (tx.can .card_update (.card cardId))
    guard (card.version = version)
    return ((), [createEvent (tx.newId 0) .card_updated
      { cardId := some cardId, boardId := some card.boardId } (workEnvelopeOf actor)])

/-- Replaces the assignees of a card. -/
def assignCard (tx : Tx) (actor : Actor) (cardId : CardId) (assigneeIds : List UserId) :
    Service Unit :=
  withOrgScope tx do
    let card ← tx.card cardId
    guard (tx.can .card_update (.card cardId))
    guard (assigneeIds.all tx.isActiveMember)
    return ((), [createEvent (tx.newId 0) .card_assigned
      { cardId := some cardId, boardId := some card.boardId, before := card.assigneeIds,
        after := assigneeIds.reverse.dedup.reverse } (workEnvelopeOf actor)])

/-- Replaces the labels of a card. -/
def setCardLabels (tx : Tx) (actor : Actor) (cardId : CardId) (labelIds : List LabelId) :
    Service Unit :=
  withOrgScope tx do
    let card ← tx.card cardId
    guard (tx.can .card_update (.card cardId))
    let before := (tx.labels cardId).insertionSort (· ≤ ·)
    let after := labelIds.dedup.insertionSort (· ≤ ·)
    if before = after then return ((), [])
    return ((), [createEvent (tx.newId 0) .card_labeled
      { cardId := some cardId, boardId := some card.boardId, before := before, after := after }
      (workEnvelopeOf actor)])

/-- A comment that is no reply. -/
def createComment (tx : Tx) (actor : Actor) (cardId : CardId) (body : RichTextNode) :
    Service Unit :=
  withOrgScope tx do
    let card ← tx.card cardId
    guard (tx.can .comment_create (.card cardId))
    guard (flattenToText body ≠ [])
    return ((), [createEvent (tx.newId 0) .comment_created
      { cardId := some cardId, boardId := some card.boardId,
        mentionedUserIds := mentionedUserIds body } (workEnvelopeOf actor)])

def createCard (tx : Tx) (actor : Actor) (listId : ListId) : Service Unit :=
  withOrgScope tx do
    let list ← tx.list listId
    guard (tx.can .card_create (.board list.boardId))
    guard (tx.counter list.projectId)
    let _ ← (Rank.between (tx.lastRank listId) none).toOption
    return ((), [createEvent (tx.newId 0) .card_created
      { cardId := some (tx.newId 1), boardId := some list.boardId } (workEnvelopeOf actor)])

/-- Hands the cards of one user to another, all those the actor may update. -/
def bulkReassignCards (tx : Tx) (actor : Actor) (fromUserId toUserId : UserId) : Service Unit :=
  withOrgScope tx do
    guard (tx.isActiveMember toUserId)
    -- a card the actor may not update is passed over
    let reassigned := (tx.carrying fromUserId).filter fun cardId =>
      (tx.card cardId).isSome && tx.can .card_update (.card cardId)
    if reassigned = [] then return ((), [])
    return ((), [createEvent (tx.newId 0) .card_bulk_reassigned {} (workEnvelopeOf actor)])

/-! ### Chat -/

/-- The links of one message that are previewed. -/
def MAX_LINKS_PER_MESSAGE : Nat := 3

/-- Previews of the links of a message, recorded after the message is sent.
The context has no depth. -/
def unfurlMessage (tx : Tx) (actor : Actor) (messageId : MessageId) (bodyText : Text) :
    Service Unit :=
  if extractUrls bodyText MAX_LINKS_PER_MESSAGE = [] then pure ()
  else withOrgScope tx (some ((), [createEvent (tx.newId 0) .message_unfurled
    { messageId := some messageId }
    { orgId := actor.subject.orgId, actorId := some actor.subject.userId,
      requestId := some actor.requestId }]))

def isDirect (channel : ChannelRow) : Bool :=
  channel.type = .dm || channel.type = .group_dm

/-- The author a reply is to; a message may be replied to once deep, in its own
channel, while it is not deleted. -/
def parentAuthor (tx : Tx) (channelId : ChannelId) :
    Option MessageId → Option (Option UserId)
  | none => some none
  | some parentMessageId => do
    let parent ← tx.message parentMessageId
    guard (parent.channelId = channelId ∧ !parent.deleted ∧ parent.parentMessageId = none)
    return some parent.authorId

/-- What a sent message hands to the previews: its id and its text. -/
def postMessage (tx : Tx) (actor : Actor) (channelId : ChannelId) (body : RichTextNode)
    (parentMessageId : Option MessageId) : Service (MessageId × Text) :=
  withOrgScope tx do
    let channel ← tx.channel channelId
    guard (tx.can .message_create (.channel channelId))
    guard (!channel.archived)
    let parentAuthorId ← parentAuthor tx channelId parentMessageId
    let directRecipientIds :=
      if isDirect channel then channel.memberIds.filter (· ≠ actor.subject.userId) else []
    let bodyText := flattenToText body
    guard (bodyText ≠ [])
    let messageId := tx.newId 0
    return ((messageId, bodyText), [createEvent (tx.newId 1) .message_sent
      { messageId := some messageId, mentionedUserIds := mentionedUserIds body,
        parentAuthorId := parentAuthorId, directRecipientIds := directRecipientIds }
      (chatEnvelopeOf actor)])

/-- Posts a message, and after the commit records the previews of its links.
Nobody waits for these or sees them fail. -/
def sendMessage (txs : Nat → Tx) (actor : Actor) (channelId : ChannelId) (body : RichTextNode)
    (parentMessageId : Option MessageId) : Service Unit := do
  let sent ← postMessage (txs 0) actor channelId body parentMessageId
  (unfurlMessage (txs 1) actor sent.1 sent.2).swallow

def isClosedChannel (channel : ChannelRow) : Bool :=
  channel.type ≠ .public

def addChannelMember (tx : Tx) (actor : Actor) (channelId : ChannelId) (userId : UserId) :
    Service Unit :=
  withOrgScope tx do
    let channel ← tx.channel channelId
    -- an open channel is joined by whoever may read it
    let selfJoiningOpenChannel := userId = actor.subject.userId ∧ !isClosedChannel channel
    guard (tx.can (if selfJoiningOpenChannel then .channel_read else .channel_manage)
      (.channel channelId))
    guard (!channel.archived)
    guard (!isDirect channel)
    if userId ∈ channel.memberIds then return ((), [])
    guard (tx.isActiveMember userId)
    return ((), [createEvent (tx.newId 0) .channel_member_added { userId := some userId }
      (chatEnvelopeOf actor)])

def removeChannelMember (tx : Tx) (actor : Actor) (channelId : ChannelId) (userId : UserId) :
    Service Unit :=
  withOrgScope tx do
    let channel ← tx.channel channelId
    -- whoever leaves need not manage the channel
    let voluntary := userId = actor.subject.userId
    guard (tx.can (if voluntary then .channel_read else .channel_manage) (.channel channelId))
    guard (!isDirect channel)
    if userId ∉ channel.memberIds then return ((), [])
    return ((), [createEvent (tx.newId 0) .channel_member_removed { userId := some userId }
      (chatEnvelopeOf actor)])

/-! ### Webhooks and connectors -/

/-- Queues one delivery of the event to the webhook, once. -/
def enqueueWebhookDelivery (tx : Tx) (actor : Actor) (webhookId : String) (eventId : EventId) :
    Service Unit :=
  withOrgScope tx do
    guard (tx.can .webhook_manage .org)
    let enabled ← tx.webhookEnabled webhookId
    guard enabled
    if tx.queued webhookId eventId then return ((), [])
    return ((), [createEvent (tx.newId 0) .webhook_delivery_queued {} (webhookEnvelopeOf actor)])

/-- The connector of an action, if the actor may use it. -/
def connectorFor (tx : Tx) (integrationId : String) : Service (List Char) :=
  withOrgScope tx do
    guard (tx.can .integration_manage .org)
    let providerScope ← tx.connector integrationId
    return (providerScope, [])

/-- The event is written after Slack has the message. -/
def postSlackMessage (txs : Nat → Tx) (outside : Outside) (actor : Actor)
    (integrationId : String) : Service Unit := do
  let _ ← connectorFor (txs 0) integrationId
  if outside.slackPosts then
    withOrgScope (txs 1) (some ((), [createEvent ((txs 1).newId 0) .integration_message_posted {}
      (integrationEnvelopeOf actor)]))
  else .fail

def isRepoChar (c : Char) : Bool :=
  c.isAlphanum || c == '.' || c == '_' || c == '-'

/-- `owner/name`. -/
def repoPath (providerScope : List Char) : Option (List Char) :=
  let owner := providerScope.takeWhile isRepoChar
  match providerScope.dropWhile isRepoChar with
  | '/' :: name =>
    if owner ≠ [] ∧ name ≠ [] ∧ name.all isRepoChar then some providerScope else none
  | _ => none

/-- The event is written after GitHub has the issue. -/
def createGithubIssue (txs : Nat → Tx) (outside : Outside) (actor : Actor)
    (integrationId : String) : Service Unit := do
  let providerScope ← connectorFor (txs 0) integrationId
  let _ ← Outcome.ofOption (repoPath providerScope)
  if outside.githubCreates then
    withOrgScope (txs 1) (some ((), [createEvent ((txs 1).newId 0) .integration_issue_created {}
      (integrationEnvelopeOf actor)]))
  else .fail

/-! ### Telephony -/

def loadNumber (tx : Tx) (phoneNumberId : String) : Service Unit :=
  withOrgScope tx do
    guard (tx.phoneNumber phoneNumberId)
    return ((), [])

def loadSubaccount (tx : Tx) : Service Bool :=
  withOrgScope tx (some (tx.subaccount, []))

/-- The insert that keeps one subaccount an org, and whether it went in. -/
def insertSubaccount (tx : Tx) (actor : Actor) : Service Bool :=
  withOrgScope tx
    (if tx.subaccount then some (false, [])
     else some (true, [createEvent (tx.newId 0) .subaccount_provisioned {}
       (telephonyEnvelopeOf actor)]))

/-- The org's subaccount, made if there is none.  `txs 0` looks for it, `txs 1`
inserts it, and `txs 2` reads the row of whoever was first. -/
def ensureSubaccount (txs : Nat → Tx) (outside : Outside) (actor : Actor) : Service Unit := do
  if ← loadSubaccount (txs 0) then return
  if outside.createSubaccount then
    if ← insertSubaccount (txs 1) actor then return
    -- somebody else was first, and theirs is the one to use
    if ← loadSubaccount (txs 2) then return
    .fail
  else .fail

def emitRefusal (tx : Tx) (actor : Actor) : Service Unit :=
  withOrgScope tx (some ((), [createEvent (tx.newId 0) .spend_limit_exceeded {}
    (telephonyEnvelopeOf actor)]))

/-- The gate every outbound call and message passes.  A refusal writes its event
and fails. -/
def passGate (gate refusal : Tx) (outside : Outside) (actor : Actor) :
    Service (Option Nat) := do
  if outside.estimateCostCents then
    match ← withOrgScope gate (gate.checkOutboundAllowed.map fun decision => (decision, [])) with
    | .allowed warnThresholdPercent => return warnThresholdPercent
    | .refused => do
      emitRefusal refusal actor
      .fail
  else .fail

/-- The event of a ledger row that crosses a warning threshold. -/
def recordSpend (tx : Tx) (warnThresholdPercent : Option Nat) (envelope : EventContext) :
    List DomainEvent :=
  match warnThresholdPercent with
  | some _ => [createEvent (tx.newId 10) .spend_cap_reached {} envelope]
  | none => []

def loadOrgDataKey (tx : Tx) : Service Unit :=
  withOrgScope tx do
    guard tx.dataKey
    return ((), [])

/-- The rows of a call, committed before the carrier is told. -/
def insertCall (tx : Tx) (actor : Actor) (warnThresholdPercent : Option Nat) : Service Unit :=
  withOrgScope tx (some ((), recordSpend tx warnThresholdPercent (telephonyEnvelopeOf actor) ++
    [createEvent (tx.newId 0) .call_placed {} (telephonyEnvelopeOf actor)]))

def releaseUnplacedCall (tx : Tx) (actor : Actor) : Service Unit :=
  (withOrgScope tx (some ((), [createEvent (tx.newId 0) .call_status_changed {}
    (telephonyEnvelopeOf actor)])) : Service Unit).swallow

/-- A call of a rule, never recorded. -/
def placeCall (txs : Nat → Tx) (outside : Outside) (actor : Actor)
    (fromPhoneNumberId : String) : Service Unit := do
  loadNumber (txs 0) fromPhoneNumberId
  ensureSubaccount (fun k => txs (1 + k)) outside actor
  let warnThresholdPercent ← passGate (txs 4) (txs 5) outside actor
  loadOrgDataKey (txs 6)
  insertCall (txs 7) actor warnThresholdPercent
  if outside.placeCall then withOrgScope (txs 8) (some ((), []))
  else
    releaseUnplacedCall (txs 8) actor
    .fail

/-- The event of a thread that is new, or nothing where it exists. -/
def ensureThread (tx : Tx) (eventContext : EventContext) : List DomainEvent :=
  if tx.messageThread then []
  else [createEvent (tx.newId 1) .message_thread_created {} eventContext]

/-- The rows of a message, after the carrier has taken it. -/
def insertSms (tx : Tx) (actor : Actor) (warnThresholdPercent : Option Nat) : Service Unit :=
  withOrgScope tx (some ((), ensureThread tx (telephonyEnvelopeOf actor) ++
    recordSpend tx warnThresholdPercent (telephonyEnvelopeOf actor) ++
    [createEvent (tx.newId 0) .sms_sent {} (telephonyEnvelopeOf actor)]))

/-- An SMS of a rule.  `suppressed` is the opt-out list. -/
def sendSms (txs : Nat → Tx) (outside : Outside) (suppressed : Bool) (actor : Actor)
    (fromPhoneNumberId : String) : Service Unit := do
  loadNumber (txs 0) fromPhoneNumberId
  if suppressed then .fail
  else
    ensureSubaccount (fun k => txs (1 + k)) outside actor
    let warnThresholdPercent ← passGate (txs 4) (txs 5) outside actor
    loadOrgDataKey (txs 6)
    if outside.sendSms then insertSms (txs 7) actor warnThresholdPercent else .fail

/-! ### Members -/

/-- A viewer tuple on a space, unless there is one. -/
def grantSpaceAccess (tx : Tx) (orgId : OrgId) (userId : UserId) (spaceId : String)
    (actor : TenancyActor) : Service Unit :=
  withOrgScope tx do
    guard (tx.hasMembership userId)
    if tx.isViewer userId spaceId then return ((), [])
    return ((), [createEvent (tx.newId 0) .grant_created {} (tenancyContext orgId actor)])

/-- Ends every session of a user.  Its events go to an event bus of the process,
not to the outbox. -/
def logoutEverywhere (tx : Tx) : Service Unit :=
  Outcome.ofOption (if tx.sessionsRevoked then some () else none)

/-- The permissions that may be granted to one member. -/
def GRANTABLE_PERMISSIONS : List String :=
  ["phoneNumber:read", "call:place", "call:read", "sms:send", "sms:read", "automation:manage",
    "webhook:manage", "integration:manage", "apiToken:create", "apiToken:revoke", "ai:use",
    "pr:view", "pr:review", "pr:merge", "repo:connect"]

def isGrantable (permission : String) : Bool :=
  permission ∈ GRANTABLE_PERMISSIONS

def grantPermission (tx : Tx) (orgId : OrgId) (userId : UserId) (permission : String)
    (actor : TenancyActor) : Service Unit :=
  withOrgScope tx do
    guard (isGrantable permission)
    guard (tx.isActiveMember userId)
    if permission ∈ tx.activeGrants userId then return ((), [])
    return ((), [createEvent (tx.newId 0) .member_grant_created { userId := some userId }
      (tenancyContext orgId actor)])

/-- Revokes every grant of a member, one event each. -/
def revokeAll (tx : Tx) (orgId : OrgId) (userId : UserId) (actor : TenancyActor) :
    Service Unit :=
  withOrgScope tx do
    guard (tx.isActiveMember userId)
    return ((), (tx.activeGrants userId).zipIdx.map fun (_, n) =>
      createEvent (tx.newId n) .member_grant_revoked { userId := some userId }
        (tenancyContext orgId actor))

/-- The role of an active member, or a failure. -/
def resolveMembership (tx : Tx) (userId : UserId) : Service Role :=
  withOrgScope tx do
    let role ← tx.roleOf userId
    return (role, [])

/-- Grants the permissions one after another, each in a transaction of its own. -/
def grantEach (txs : Nat → Tx) (orgId : OrgId) (userId : UserId) (actor : TenancyActor) :
    List String → Service Unit
  | [] => pure ()
  | permission :: rest => do
    grantPermission (txs 0) orgId userId permission actor
    grantEach (fun k => txs (k + 1)) orgId userId actor rest

/-- Grants a member what its role has by default. -/
def applyRoleDefaults (txs : Nat → Tx) (orgId : OrgId) (userId : UserId)
    (actor : TenancyActor) : Service Unit := do
  let role ← resolveMembership (txs 0) userId
  let permissions ← withOrgScope (txs 1) (some ((txs 1).permissionsForRole role, []))
  grantEach (fun k => txs (2 + k)) orgId userId actor permissions

end AutomationServices
end TaskFlow
