import TaskFlow.AutomationEngine
import TaskFlow.PolicyLaws
import TaskFlow.Tenancy

/-! # The authority of a rule

Every check an action makes, with the answer of the policy engine to it.  The
executor asks for the rule's owner, whose membership it resolves again for each
run, and passes no individual grants on; three actions make no check at all.
-/
namespace TaskFlow
namespace AutomationAuthority
open AutomationServices AutomationEngine

/-- One check of an action: in which of its transactions, and what of. -/
structure Ask where
  tx : Nat
  permission : AutomationServices.Permission
  resource : Resource
  deriving DecidableEq, Repr

/-- The check is made where the row it is made on is there. -/
def Ask.when (present : Bool) (ask : Ask) : List Ask := if present then [ask] else []

section
variable (w : ActionWorld)

def askCard (tx : Nat) (permission : AutomationServices.Permission) (cardId : CardId) :
    List Ask :=
  Ask.when ((w.txs tx).card cardId).isSome ⟨tx, permission, .card cardId⟩

/-- The check on the board of a list. -/
def askBoardOf (tx : Nat) (permission : AutomationServices.Permission) (listId : ListId) :
    List Ask :=
  (((w.txs tx).list listId).map fun list => Ask.mk tx permission (.board list.boardId)).toList

def askChannel (permission : AutomationServices.Permission) (channelId : ChannelId) : List Ask :=
  Ask.when ((w.txs 0).channel channelId).isSome ⟨0, permission, .channel channelId⟩

/-- A card is read, and updated if the reading says so. -/
def askReplace (cardId : CardId) (replaces : Bool) : List Ask :=
  askCard w 0 .card_read cardId ++ if replaces then askCard w 1 .card_update cardId else []

/-- The checks of an action on the card of its trigger. -/
def asksOfCard (action : AutomationAction) (cardId : CardId) : List Ask :=
  match action with
  | .card_move listId =>
    askCard w 0 .card_move cardId ++ askBoardOf w 0 .card_move listId
  | .card_set_status _ => askCard w 0 .card_update cardId
  | .card_set_priority _ => askReplace w cardId w.descriptionParses
  | .card_assign userId =>
    askReplace w cardId (((w.txs 0).card cardId).any fun card => userId ∉ card.assigneeIds)
  | .card_unassign userId =>
    askReplace w cardId (((w.txs 0).card cardId).any fun card => userId ∈ card.assigneeIds)
  | .card_add_label labelId => askReplace w cardId (labelId ∉ (w.txs 0).labels cardId)
  | .card_remove_label labelId => askReplace w cardId (labelId ∈ (w.txs 0).labels cardId)
  | .card_add_comment _ => askCard w 0 .comment_create cardId
  | _ => []

/-- The checks of an action for the member of its trigger. -/
def asksOfMember (owner : DomainEvents.UserId) (action : AutomationAction)
    (userId : DomainEvents.UserId) : List Ask :=
  match action with
  | .channel_add_member channelId =>
    let selfJoiningOpenChannel := userId = owner ∧
      ((w.txs 0).channel channelId).any fun channel => !isClosedChannel channel
    askChannel w (if selfJoiningOpenChannel then .channel_read else .channel_manage) channelId
  | .channel_remove_member channelId =>
    askChannel w (if userId = owner then .channel_read else .channel_manage) channelId
  | .cards_bulk_reassign _ =>
    ((w.txs 0).carrying userId).flatMap fun cardId => askCard w 0 .card_update cardId
  | _ => []

/-- The checks an action makes, in order. -/
def asks (owner : DomainEvents.UserId) (action : AutomationAction)
    (event : DomainEvents.OutboxRow) : List Ask :=
  match action with
  | .chat_post_message channelId _ => askChannel w .message_create channelId
  | .call_webhook _ => [⟨0, .webhook_manage, .org⟩]
  | .slack_post_message _ _ _ | .github_create_issue _ _ _ =>
    Ask.when w.integrations ⟨0, .integration_manage, .org⟩
  | .docs_grant_space_access _ | .identity_revoke_sessions | .member_grant_revoke_all =>
    [⟨0, .member_manage, .org⟩]
  | .card_create listId _ => askBoardOf w 0 .card_create listId
  | action =>
    event.payload.cardId.toList.flatMap (asksOfCard w action) ++
      event.payload.userId.toList.flatMap (asksOfMember w owner action)

end

/-! ### The answers of the policy engine -/

open Policy Tenancy

def permissionOf : AutomationServices.Permission → Policy.Permission
  | .card_read => ⟨.card, .read⟩
  | .card_create => ⟨.card, .create⟩
  | .card_update => ⟨.card, .update⟩
  | .card_move => ⟨.card, .move⟩
  | .comment_create => ⟨.comment, .create⟩
  | .channel_read => ⟨.channel, .read⟩
  | .channel_manage => ⟨.channel, .manage⟩
  | .message_create => ⟨.message, .create⟩
  | .webhook_manage => ⟨.webhook, .manage⟩
  | .integration_manage => ⟨.integration, .manage⟩
  | .member_manage => ⟨.member, .manage⟩

section
variable (w : ActionWorld) (projectOf : Tenancy.BoardId → String)

/-- The target of a check, from the row it is made on.  The row is of the
organization whose scope the transaction runs in. -/
def targetOf (orgId : Policy.OrgId) (ask : Ask) : Option Target :=
  match ask.resource with
  | .org => none
  | .board id => some {
      orgId, resource := ⟨.board, id⟩, ancestors := [⟨.project, projectOf id⟩] }
  | .card id => some {
      orgId
      resource := ⟨.card, id⟩
      ancestors := (((w.txs ask.tx).card id).map fun card =>
        [⟨.board, card.boardId⟩, ⟨.project, card.projectId⟩]).getD [] }
  | .channel id => some {
      orgId
      resource := ⟨.channel, id⟩
      closed := ((w.txs ask.tx).channel id).any AutomationServices.isClosedChannel }

/-- What the engine answers to a check of a subject. -/
def answerOf (subject : Subject) (ask : Ask) : Bool :=
  (can subject (permissionOf ask.permission) (targetOf w projectOf subject.orgId ask)).allowed

/-- The rule's owner, as the executor makes the subject. -/
def ownerSubject (rule : AutomationRule) (membership : OrgMembership) : Subject where
  orgId := membership.orgId
  userId := rule.createdBy
  role := membership.role
  tuples := membership.tuples

/-- Every check of the action is passed by the subject. -/
def Permitted (rule : AutomationRule) (action : AutomationAction)
    (event : DomainEvents.OutboxRow) (subject : Subject) : Prop :=
  ∀ ask ∈ asks w rule.createdBy action event, answerOf w projectOf subject ask = true

/-- The permission of the route to a service that checks nothing itself. -/
def routePermission : AutomationAction → Option Policy.Permission
  | .call_place _ _ => some ⟨.call, .place⟩
  | .sms_send _ _ _ => some ⟨.sms, .send⟩
  | .member_grant_apply_role_defaults => some ⟨.member, .manage⟩
  | _ => none

variable (db : Db) (now : Int) (rule : AutomationRule) (action : AutomationAction)
  (event : DomainEvents.OutboxRow)

/-- The action gets past its checks in the executor. -/
def ExecutorAllows : Prop :=
  ∃ membership, resolveOrgMembership db now rule.createdBy rule.orgId = .ok (some membership) ∧
    Permitted w projectOf rule action event (ownerSubject rule membership)

/-- The owner gets past the same checks with a request. -/
def RequestAllows : Prop :=
  ∃ membership, resolveOrgMembership db now rule.createdBy rule.orgId = .ok (some membership) ∧
    (∀ permission ∈ routePermission action,
      couldGrant (subjectOf rule.createdBy membership) permission = true) ∧
    Permitted w projectOf rule action event (subjectOf rule.createdBy membership)

/-- When the executor acts with the authority of the owner: the owner has the
permission of a route that the executor goes around, and no check rests on an
individual grant, unless a request of the owner is refused at another check. -/
def ActsAsOwner : Prop :=
  ∀ membership, resolveOrgMembership db now rule.createdBy rule.orgId = .ok (some membership) →
    (∀ permission ∈ routePermission action,
      byRole (subjectOf rule.createdBy membership) permission = true) ∧
    ((∃ ask ∈ asks w rule.createdBy action event,
        answerOf w projectOf (subjectOf rule.createdBy membership) ask = false) ∨
      ∀ ask ∈ asks w rule.createdBy action event,
        ¬ RestsOnGrant (subjectOf rule.createdBy membership) (permissionOf ask.permission)
          (targetOf w projectOf membership.orgId ask))

end

section
variable {w : ActionWorld} {projectOf : Tenancy.BoardId → String} {db : Db} {now : Int}
  {rule : AutomationRule} {action : AutomationAction} {event : DomainEvents.OutboxRow}
  {membership : OrgMembership}

theorem askable_ask
    (h : resolveOrgMembership db now rule.createdBy rule.orgId = .ok (some membership))
    (ask : Ask) : Askable (subjectOf rule.createdBy membership) (permissionOf ask.permission)
      (targetOf w projectOf membership.orgId ask) where
  permission := by cases ask.permission <;> decide
  role := resolve_isRole h
  orgId := by
    intro t ht
    obtain ⟨k, permission, resource⟩ := ask
    cases resource with
    | org => cases ht
    | board id => cases ht; rfl
    | card id => cases ht; rfl
    | channel id => cases ht; rfl

/-- A check is passed with the grants exactly where it is passed without them or
rests on one. -/
theorem answerOf_subjectOf_iff
    (h : resolveOrgMembership db now rule.createdBy rule.orgId = .ok (some membership))
    (ask : Ask) :
    answerOf w projectOf (subjectOf rule.createdBy membership) ask = true ↔
      answerOf w projectOf (ownerSubject rule membership) ask = true ∨
        RestsOnGrant (subjectOf rule.createdBy membership) (permissionOf ask.permission)
          (targetOf w projectOf membership.orgId ask) :=
  allowed_iff_withoutGrants (askable_ask h ask)

theorem answerOf_ownerSubject_of_restsOnGrant {ask : Ask}
    (h : RestsOnGrant (subjectOf rule.createdBy membership) (permissionOf ask.permission)
      (targetOf w projectOf membership.orgId ask)) :
    answerOf w projectOf (ownerSubject rule membership) ask = false :=
  not_allowed_of_restsOnGrant h

theorem isOrgLevel_routePermission {permission : Policy.Permission}
    (h : permission ∈ routePermission action) : isOrgLevel permission = true := by
  cases action <;> cases h <;> decide

/-- The check of a route that stands alone is passed by the role or a grant. -/
theorem couldGrant_routePermission
    (h : resolveOrgMembership db now rule.createdBy rule.orgId = .ok (some membership))
    {permission : Policy.Permission} (hroute : permission ∈ routePermission action) :
    couldGrant (subjectOf rule.createdBy membership) permission = true ↔
      byRole (subjectOf rule.createdBy membership) permission = true := by
  rw [couldGrant_iff, isOrgLevel_routePermission hroute]
  have hrole : isRole (subjectOf rule.createdBy membership).role = true := resolve_isRole h
  simp [hrole]

theorem eq_of_resolve
    (h : resolveOrgMembership db now rule.createdBy rule.orgId = .ok (some membership))
    {membership' : OrgMembership}
    (h' : resolveOrgMembership db now rule.createdBy rule.orgId = .ok (some membership')) :
    membership' = membership := by
  rw [h] at h'
  exact (Option.some.inj (Except.ok.inj h')).symm

theorem executorAllows_iff
    (h : resolveOrgMembership db now rule.createdBy rule.orgId = .ok (some membership)) :
    ExecutorAllows w projectOf db now rule action event ↔
      Permitted w projectOf rule action event (ownerSubject rule membership) := by
  constructor
  · rintro ⟨membership', h', hpermitted⟩
    rwa [eq_of_resolve h h'] at hpermitted
  · exact fun hpermitted => ⟨membership, h, hpermitted⟩

theorem requestAllows_iff
    (h : resolveOrgMembership db now rule.createdBy rule.orgId = .ok (some membership)) :
    RequestAllows w projectOf db now rule action event ↔
      (∀ permission ∈ routePermission action,
        byRole (subjectOf rule.createdBy membership) permission = true) ∧
      Permitted w projectOf rule action event (subjectOf rule.createdBy membership) := by
  constructor
  · rintro ⟨membership', h', hroute, hpermitted⟩
    rw [eq_of_resolve h h'] at hroute hpermitted
    exact ⟨fun permission hmem => (couldGrant_routePermission h hmem).mp (hroute permission hmem),
      hpermitted⟩
  · rintro ⟨hroute, hpermitted⟩
    exact ⟨membership, h, fun permission hmem =>
      (couldGrant_routePermission h hmem).mpr (hroute permission hmem), hpermitted⟩

/-- An action whose service is behind a route checks nothing itself. -/
theorem permitted_of_routePermission {permission : Policy.Permission}
    (hroute : permission ∈ routePermission action) (subject : Subject) :
    Permitted w projectOf rule action event subject := by
  have hnone : asks w rule.createdBy action event = [] := by
    cases action <;> cases hroute <;> simp [asks, asksOfCard, asksOfMember]
  intro ask hmem
  rw [hnone] at hmem
  exact absurd hmem List.not_mem_nil

/-- The checks passed without the grants are those passed with them, where none
rests on one. -/
theorem permitted_ownerSubject_iff
    (h : resolveOrgMembership db now rule.createdBy rule.orgId = .ok (some membership)) :
    Permitted w projectOf rule action event (ownerSubject rule membership) ↔
      Permitted w projectOf rule action event (subjectOf rule.createdBy membership) ∧
        ∀ ask ∈ asks w rule.createdBy action event,
          ¬ RestsOnGrant (subjectOf rule.createdBy membership) (permissionOf ask.permission)
            (targetOf w projectOf membership.orgId ask) := by
  constructor
  · intro hpermitted
    refine ⟨fun ask hmem => (answerOf_subjectOf_iff h ask).mpr (.inl (hpermitted ask hmem)), ?_⟩
    intro ask hmem hrests
    have hrefused := answerOf_ownerSubject_of_restsOnGrant hrests
    rw [hpermitted ask hmem] at hrefused
    cases hrefused
  · rintro ⟨hpermitted, hnone⟩ ask hmem
    exact ((answerOf_subjectOf_iff h ask).mp (hpermitted ask hmem)).resolve_right (hnone ask hmem)

theorem not_permitted_iff {subject : Subject} :
    ¬ Permitted w projectOf rule action event subject ↔
      ∃ ask ∈ asks w rule.createdBy action event, answerOf w projectOf subject ask = false := by
  simp only [Permitted, not_forall, Bool.not_eq_true, exists_prop]

theorem actsAsOwner_iff
    (h : resolveOrgMembership db now rule.createdBy rule.orgId = .ok (some membership)) :
    ActsAsOwner w projectOf db now rule action event ↔
      (∀ permission ∈ routePermission action,
        byRole (subjectOf rule.createdBy membership) permission = true) ∧
      (Permitted w projectOf rule action event (subjectOf rule.createdBy membership) →
        Permitted w projectOf rule action event (ownerSubject rule membership)) := by
  have hcase : (Permitted w projectOf rule action event (subjectOf rule.createdBy membership) →
      Permitted w projectOf rule action event (ownerSubject rule membership)) ↔
      ((∃ ask ∈ asks w rule.createdBy action event,
          answerOf w projectOf (subjectOf rule.createdBy membership) ask = false) ∨
        ∀ ask ∈ asks w rule.createdBy action event,
          ¬ RestsOnGrant (subjectOf rule.createdBy membership) (permissionOf ask.permission)
            (targetOf w projectOf membership.orgId ask)) := by
    rw [permitted_ownerSubject_iff h, ← not_permitted_iff, ← imp_iff_not_or]
    exact ⟨fun hback hpermitted => (hback hpermitted).2,
      fun hnone hpermitted => ⟨hpermitted, hnone hpermitted⟩⟩
  rw [hcase]
  constructor
  · exact fun hacts => hacts membership h
  · intro hacts membership' h'
    rwa [eq_of_resolve h h']

/-- **The executor acts with exactly its owner's authority** where no check rests
on an individual grant and no route is gone around. -/
theorem executor_iff_request (w : ActionWorld) (projectOf : Tenancy.BoardId → String) (db : Db)
    (now : Int) (rule : AutomationRule) (action : AutomationAction)
    (event : DomainEvents.OutboxRow) :
    (ExecutorAllows w projectOf db now rule action event ↔
        RequestAllows w projectOf db now rule action event) ↔
      ActsAsOwner w projectOf db now rule action event := by
  by_cases hresolved : ∃ membership,
      resolveOrgMembership db now rule.createdBy rule.orgId = .ok (some membership)
  swap
  -- who is no member of the organization is refused on both sides
  · have hexecutor : ¬ ExecutorAllows w projectOf db now rule action event :=
      fun ⟨membership, h, _⟩ => hresolved ⟨membership, h⟩
    have hrequest : ¬ RequestAllows w projectOf db now rule action event :=
      fun ⟨membership, h, _⟩ => hresolved ⟨membership, h⟩
    have hacts : ActsAsOwner w projectOf db now rule action event :=
      fun membership h => absurd ⟨membership, h⟩ hresolved
    simp only [hexecutor, hrequest, hacts]
  obtain ⟨membership, h⟩ := hresolved
  rw [executorAllows_iff h, requestAllows_iff h, actsAsOwner_iff h]
  have hmono : Permitted w projectOf rule action event (ownerSubject rule membership) →
      Permitted w projectOf rule action event (subjectOf rule.createdBy membership) :=
    fun hpermitted => ((permitted_ownerSubject_iff h).mp hpermitted).1
  constructor
  · intro hsame
    refine ⟨fun permission hmem => ?_, fun hpermitted => ?_⟩
    · exact (hsame.mp (permitted_of_routePermission hmem _)).1 permission hmem
    -- an action with a route of its own asks nothing further in its service
    · by_cases hroute : ∃ permission, permission ∈ routePermission action
      · obtain ⟨permission, hmem⟩ := hroute
        exact permitted_of_routePermission hmem _
      · exact hsame.mpr ⟨fun permission hmem => absurd ⟨permission, hmem⟩ hroute, hpermitted⟩
  · rintro ⟨hroute, hback⟩
    exact ⟨fun hpermitted => ⟨hroute, hmono hpermitted⟩, fun hrequest => hback hrequest.2⟩

end

/-- An organization of one member, who may manage webhooks by an individual grant. -/
def grantedMember : Db where
  membership _ userId := if userId = "u1" then some ⟨"m1", .member, .active⟩ else none
  orgStatus _ := some .active
  teamMembers := []
  tuples := []
  memberGrants := [{ orgId := "o1", membershipId := "m1", permission := ⟨.webhook, .manage⟩ }]
  board _ := none
  channel _ := none
  call _ := none

def memberRule (action : AutomationAction) : AutomationRule where
  id := "r1"
  orgId := "o1"
  triggerEvent := .card_created
  condition := none
  actions := [action]
  enabled := true
  createdBy := "u1"

def memberEvent : DomainEvents.OutboxRow where
  id := "e1"
  orgId := "o1"
  name := .card_created
  actorId := none
  requestId := none
  causationDepth := 0
  payload := {}

def idleTx : Tx where
  commits := false
  newId _ := ""
  can _ _ := false
  card _ := none
  list _ := none
  siblings _ _ := []
  repaired _ _ := []
  lastRank _ := none
  counter _ := false
  labels _ := []
  carrying _ := []
  channel _ := none
  message _ := none
  webhookEnabled _ := none
  queued _ _ := false
  connector _ := none
  hasMembership _ := false
  isActiveMember _ := false
  roleOf _ := none
  isViewer _ _ := false
  activeGrants _ := []
  permissionsForRole _ := []
  phoneNumber _ := false
  subaccount := false
  checkOutboundAllowed := none
  dataKey := false
  messageThread := false
  sessionsRevoked := false

def idleWorld : ActionWorld where
  txs _ := idleTx
  outside := ⟨false, false, false, false, false, false⟩
  suppressed := false
  telephonyActionsEnabled := true
  telephony := true
  integrations := true
  descriptionParses := true

/-- The member may call a webhook, and a rule of theirs may not. -/
theorem grantedMember_webhook_refused :
    ¬ ∀ w projectOf db now rule action event,
      ExecutorAllows w projectOf db now rule action event ↔
        RequestAllows w projectOf db now rule action event := by
  intro h
  have hresolve : resolveOrgMembership grantedMember 0 "u1" "o1" =
      .ok (some ⟨"o1", .member, [], [⟨.webhook, .manage⟩]⟩) := rfl
  have hsame := h idleWorld id grantedMember 0 (memberRule (.call_webhook "w1"))
    (.call_webhook "w1") memberEvent
  rw [executorAllows_iff hresolve, requestAllows_iff hresolve] at hsame
  have hrequest : Permitted idleWorld id (memberRule (.call_webhook "w1")) (.call_webhook "w1")
      memberEvent (subjectOf "u1" ⟨"o1", .member, [], [⟨.webhook, .manage⟩]⟩) := by
    intro ask hmem
    obtain rfl := List.mem_singleton.mp hmem
    decide
  have hexecutor := hsame.mpr ⟨nofun, hrequest⟩ _ (List.mem_singleton.mpr rfl)
  exact absurd hexecutor (by decide)

end AutomationAuthority
end TaskFlow
