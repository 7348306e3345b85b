import TaskFlow.AutomationEnvelopes

/-! # When the services that drop the depth write

For each service whose events carry no depth, a predicate on what it finds says
exactly when it writes one.
-/
namespace TaskFlow
namespace AutomationServices
open DomainEvents RichText Outcome

section
variable {tx : Tx} {txs : Nat → Tx} {outside : Outside} {actor : Actor}

theorem withOrgScope_events {α : Type} {a : α} {events : List DomainEvent} (h : events ≠ []) :
    (withOrgScope tx (some (a, events))).written = [] ↔ tx.commits = false := by
  cases hc : tx.commits <;> simp [withOrgScope, transaction, hc, h]

theorem withOrgScope_result {α : Type} {body : Option (α × List DomainEvent)} {a : α} :
    (withOrgScope tx body).result = some a ↔
      tx.commits = true ∧ ∃ events, body = some (a, events) := by
  cases hc : tx.commits with
  | false => simp [withOrgScope, transaction, hc]
  | true =>
    cases body with
    | none => simp [withOrgScope, transaction, hc]
    | some r => simp [withOrgScope, transaction, hc, Prod.ext_iff]

/-! ### Previews -/

/-- The message is sent. -/
def posts (tx : Tx) (channelId : ChannelId) (body : RichTextNode) : Bool :=
  tx.commits && tx.can .message_create (.channel channelId) &&
    (tx.channel channelId).any (fun channel => !channel.archived) && flattenToText body ≠ []

/-- The message is sent, and previews of its links are recorded. -/
def previews (txs : Nat → Tx) (channelId : ChannelId) (body : RichTextNode) : Bool :=
  posts (txs 0) channelId body &&
    extractUrls (flattenToText body) MAX_LINKS_PER_MESSAGE ≠ [] && (txs 1).commits

theorem postMessage_result {channelId : ChannelId} {body : RichTextNode} :
    (postMessage tx actor channelId body none).result =
      if posts tx channelId body then some (tx.newId 0, flattenToText body) else none := by
  unfold postMessage posts withOrgScope transaction
  cases tx.commits with
  | false => rfl
  | true =>
    cases tx.channel channelId with
    | none => simp
    | some channel =>
      cases tx.can .message_create (.channel channelId) with
      | false => simp
      | true =>
        cases ha : channel.archived with
        | true => simp [ha]
        | false => by_cases hb : flattenToText body = [] <;> simp [ha, hb, parentAuthor]

theorem unfurlMessage_written_eq_nil {messageId : MessageId} {bodyText : Text} :
    (unfurlMessage tx actor messageId bodyText).written = [] ↔
      extractUrls bodyText MAX_LINKS_PER_MESSAGE = [] ∨ tx.commits = false := by
  unfold unfurlMessage
  split
  · rename_i h
    simp [h]
  · rename_i h
    rw [withOrgScope_events (List.cons_ne_nil _ _)]
    simp [h]

/-! ### Webhooks and connectors -/

/-- A delivery is queued. -/
def enqueues (tx : Tx) (webhookId : String) (eventId : EventId) : Bool :=
  tx.commits && tx.can .webhook_manage .org && tx.webhookEnabled webhookId == some true &&
    !tx.queued webhookId eventId

theorem enqueueWebhookDelivery_written_eq_nil {webhookId : String} {eventId : EventId} :
    (enqueueWebhookDelivery tx actor webhookId eventId).written = [] ↔
      enqueues tx webhookId eventId = false := by
  unfold enqueueWebhookDelivery enqueues withOrgScope transaction
  cases tx.commits with
  | false => simp
  | true =>
    cases tx.can .webhook_manage .org with
    | false => simp
    | true =>
      rcases tx.webhookEnabled webhookId with _ | _ | _
      · simp
      · simp
      · cases tx.queued webhookId eventId <;> simp

/-- The connector the actor may use. -/
def usable (tx : Tx) (integrationId : String) : Option (List Char) :=
  if tx.commits && tx.can .integration_manage .org then tx.connector integrationId else none

theorem connectorFor_result {integrationId : String} :
    (connectorFor tx integrationId).result = usable tx integrationId := by
  unfold connectorFor usable withOrgScope transaction
  cases tx.commits with
  | false => rfl
  | true =>
    cases tx.can .integration_manage .org with
    | false => rfl
    | true => cases tx.connector integrationId <;> rfl

/-- A message is posted and recorded. -/
def postsToSlack (txs : Nat → Tx) (outside : Outside) (integrationId : String) : Bool :=
  (usable (txs 0) integrationId).isSome && outside.slackPosts && (txs 1).commits

theorem postSlackMessage_written_eq_nil {integrationId : String} :
    (postSlackMessage txs outside actor integrationId).written = [] ↔
      postsToSlack txs outside integrationId = false := by
  rw [postSlackMessage, bind_written_eq_nil, connectorFor_result, postsToSlack]
  have hread : (connectorFor (txs 0) integrationId).written = [] :=
    written_eq_nil_of_writes_false connectorFor_writes
  cases usable (txs 0) integrationId with
  | none => simp [hread]
  | some providerScope =>
    cases outside.slackPosts with
    | false => simp [hread]
    | true => simp [hread, withOrgScope_events]

/-- An issue is opened and recorded. -/
def opensIssue (txs : Nat → Tx) (outside : Outside) (integrationId : String) : Bool :=
  ((usable (txs 0) integrationId).bind repoPath).isSome && outside.githubCreates &&
    (txs 1).commits

theorem createGithubIssue_written_eq_nil {integrationId : String} :
    (createGithubIssue txs outside actor integrationId).written = [] ↔
      opensIssue txs outside integrationId = false := by
  rw [createGithubIssue, bind_written_eq_nil, connectorFor_result, opensIssue]
  have hread : (connectorFor (txs 0) integrationId).written = [] :=
    written_eq_nil_of_writes_false connectorFor_writes
  cases usable (txs 0) integrationId with
  | none => simp [hread]
  | some providerScope =>
    cases hp : repoPath providerScope with
    | none => simp [hread, hp, bind_written_eq_nil]
    | some path =>
      cases outside.githubCreates with
      | false => simp [hread, hp, bind_written_eq_nil]
      | true => simp [hread, hp, bind_written_eq_nil, withOrgScope_events]

/-! ### Telephony -/

/-- A subaccount is made for the org. -/
def provisions (txs : Nat → Tx) (outside : Outside) : Bool :=
  (txs 0).commits && !(txs 0).subaccount && outside.createSubaccount && (txs 1).commits &&
    !(txs 1).subaccount

/-- The org has a subaccount in the end. -/
def hasSubaccount (txs : Nat → Tx) (outside : Outside) : Bool :=
  (txs 0).commits && ((txs 0).subaccount || (outside.createSubaccount && (txs 1).commits &&
    (!(txs 1).subaccount || ((txs 2).commits && (txs 2).subaccount))))

theorem ensureSubaccount_spec (txs : Nat → Tx) (outside : Outside) (actor : Actor) :
    ((ensureSubaccount txs outside actor).written = [] ↔ provisions txs outside = false) ∧
      (ensureSubaccount txs outside actor).result =
        if hasSubaccount txs outside then some () else none := by
  unfold ensureSubaccount loadSubaccount insertSubaccount provisions hasSubaccount withOrgScope
    transaction
  cases h0 : (txs 0).commits with
  | false => simp [bind, fail]
  | true =>
    cases h1 : (txs 0).subaccount with
    | true => simp [bind, pure]
    | false =>
      cases h2 : outside.createSubaccount with
      | false => simp [bind, fail]
      | true =>
        cases h3 : (txs 1).commits with
        | false => simp [bind, fail]
        | true =>
          cases h4 : (txs 1).subaccount with
          | false => simp [bind, pure]
          | true =>
            cases h5 : (txs 2).commits <;> cases h6 : (txs 2).subaccount <;>
              simp [bind, pure, fail]

/-- What the gate decides. -/
def gateDecision (gate : Tx) (outside : Outside) : Option GateDecision :=
  if outside.estimateCostCents && gate.commits then gate.checkOutboundAllowed else none

theorem passGate_written_eq_nil {gate refusal : Tx} :
    (passGate gate refusal outside actor).written = [] ↔
      (gateDecision gate outside = some .refused → refusal.commits = false) := by
  unfold passGate gateDecision
  cases outside.estimateCostCents with
  | false => simp
  | true =>
    cases hc : gate.commits with
    | false => simp [bind_written_eq_nil, withOrgScope, transaction, hc]
    | true =>
      rcases hd : gate.checkOutboundAllowed with _ | _ | _
      · simp [bind_written_eq_nil, withOrgScope, transaction, hc]
      · simp [bind_written_eq_nil, withOrgScope, transaction, hc]
      · cases hr : refusal.commits <;>
          simp [bind_written_eq_nil, withOrgScope, transaction, hc, emitRefusal, hr]

theorem passGate_result {gate refusal : Tx} {warnThresholdPercent : Option Nat} :
    (passGate gate refusal outside actor).result = some warnThresholdPercent ↔
      gateDecision gate outside = some (.allowed warnThresholdPercent) := by
  unfold passGate gateDecision
  cases outside.estimateCostCents with
  | false => simp
  | true =>
    cases hc : gate.commits with
    | false => simp [bind, withOrgScope, transaction, hc]
    | true =>
      rcases hd : gate.checkOutboundAllowed with _ | _ | _
      · simp [bind, withOrgScope, transaction, hc]
      · simp [bind, pure, withOrgScope, transaction, hc]
      · cases hr : refusal.commits <;>
          simp [bind, withOrgScope, transaction, hc, emitRefusal, hr, fail]

/-- A gate that was reached writes: a refusal is recorded, or the call or the
message it allowed is. -/
def gateWrites (txs : Nat → Tx) (outside : Outside) (sent : Bool) : Bool :=
  match gateDecision (txs 4) outside with
  | none => false
  | some .refused => (txs 5).commits
  | some (.allowed _) => (txs 6).commits && (txs 6).dataKey && sent && (txs 7).commits

/-- A call writes an event: the org gets a subaccount, the gate refuses, or the
call is placed. -/
def callWrites (txs : Nat → Tx) (outside : Outside) (fromPhoneNumberId : String) : Bool :=
  (txs 0).commits && (txs 0).phoneNumber fromPhoneNumberId &&
    (provisions (fun k => txs (1 + k)) outside ||
      (hasSubaccount (fun k => txs (1 + k)) outside && gateWrites txs outside true))

/-- A message writes an event, likewise. -/
def smsWrites (txs : Nat → Tx) (outside : Outside) (suppressed : Bool)
    (fromPhoneNumberId : String) : Bool :=
  (txs 0).commits && (txs 0).phoneNumber fromPhoneNumberId && !suppressed &&
    (provisions (fun k => txs (1 + k)) outside ||
      (hasSubaccount (fun k => txs (1 + k)) outside && gateWrites txs outside outside.sendSms))

theorem loadNumber_result {phoneNumberId : String} :
    (loadNumber tx phoneNumberId).result =
      if tx.commits && tx.phoneNumber phoneNumberId then some () else none := by
  unfold loadNumber withOrgScope transaction
  cases tx.commits <;> cases tx.phoneNumber phoneNumberId <;> rfl

theorem loadOrgDataKey_result :
    (loadOrgDataKey tx).result = if tx.commits && tx.dataKey then some () else none := by
  unfold loadOrgDataKey withOrgScope transaction
  cases tx.commits <;> cases tx.dataKey <;> rfl

theorem insertCall_written_eq_nil {warnThresholdPercent : Option Nat} :
    (insertCall tx actor warnThresholdPercent).written = [] ↔ tx.commits = false :=
  withOrgScope_events (List.append_ne_nil_of_right_ne_nil _ (List.cons_ne_nil _ _))

theorem insertSms_written_eq_nil {warnThresholdPercent : Option Nat} :
    (insertSms tx actor warnThresholdPercent).written = [] ↔ tx.commits = false :=
  withOrgScope_events (List.append_ne_nil_of_right_ne_nil _ (List.cons_ne_nil _ _))

/-- What follows the gate writes nothing until the key is loaded. -/
theorem gate_written_eq_nil {sent : Bool} {send : Option Nat → Service Unit}
    (hsend : ∀ warnThresholdPercent,
      (send warnThresholdPercent).written = [] ↔ (sent && (txs 7).commits) = false) :
    (do
      let warnThresholdPercent ← passGate (txs 4) (txs 5) outside actor
      loadOrgDataKey (txs 6)
      send warnThresholdPercent : Service Unit).written = [] ↔
      gateWrites txs outside sent = false := by
  have hkey : (loadOrgDataKey (txs 6)).written = [] :=
    written_eq_nil_of_writes_false loadOrgDataKey_writes
  simp only [bind_written_eq_nil, passGate_written_eq_nil, passGate_result, hkey, true_and,
    loadOrgDataKey_result, hsend, gateWrites]
  rcases gateDecision (txs 4) outside with _ | warnThresholdPercent | _
  · simp
  · cases (txs 6).commits <;> cases (txs 6).dataKey <;> simp
  · simp

theorem loadNumber_bind_written_eq_nil {phoneNumberId : String} {next : Service Unit}
    {writes : Bool} (h : next.written = [] ↔ writes = false) :
    (do loadNumber tx phoneNumberId; next : Service Unit).written = [] ↔
      (tx.commits && tx.phoneNumber phoneNumberId && writes) = false := by
  have hload : (loadNumber tx phoneNumberId).written = [] :=
    written_eq_nil_of_writes_false loadNumber_writes
  rw [bind_written_eq_nil, hload, loadNumber_result]
  cases tx.commits && tx.phoneNumber phoneNumberId <;> simp [h]

theorem ensureSubaccount_bind_written_eq_nil {next : Service Unit} {writes : Bool}
    (h : next.written = [] ↔ writes = false) :
    (do ensureSubaccount txs outside actor; next : Service Unit).written = [] ↔
      (provisions txs outside || (hasSubaccount txs outside && writes)) = false := by
  obtain ⟨hsub, hres⟩ := ensureSubaccount_spec txs outside actor
  rw [bind_written_eq_nil, hsub, hres]
  cases hasSubaccount txs outside <;> simp [h]

theorem placeCall_written_eq_nil {fromPhoneNumberId : String} :
    (placeCall txs outside actor fromPhoneNumberId).written = [] ↔
      callWrites txs outside fromPhoneNumberId = false := by
  refine loadNumber_bind_written_eq_nil (ensureSubaccount_bind_written_eq_nil
    (gate_written_eq_nil fun warnThresholdPercent => ?_))
  rw [bind_written_eq_nil, insertCall_written_eq_nil, Bool.true_and]
  apply and_iff_left_of_imp
  intro hcommits a ha
  -- The rows of the call did not commit, so nothing follows them.
  rw [insertCall, withOrgScope_result, hcommits] at ha
  cases ha.1

theorem sendSms_written_eq_nil {suppressed : Bool} {fromPhoneNumberId : String} :
    (sendSms txs outside suppressed actor fromPhoneNumberId).written = [] ↔
      smsWrites txs outside suppressed fromPhoneNumberId = false := by
  rw [smsWrites, Bool.and_assoc _ (!suppressed)]
  apply loadNumber_bind_written_eq_nil
  cases suppressed with
  | true => simp
  | false =>
    refine ensureSubaccount_bind_written_eq_nil (gate_written_eq_nil fun warnThresholdPercent => ?_)
    cases outside.sendSms with
    | false => simp
    | true => simpa using insertSms_written_eq_nil

/-! ### Members -/

section
variable {orgId : OrgId} {userId : UserId} {granter : TenancyActor}

/-- A viewer tuple is written. -/
def grantsAccess (tx : Tx) (userId : UserId) (spaceId : String) : Bool :=
  tx.commits && tx.hasMembership userId && !tx.isViewer userId spaceId

theorem grantSpaceAccess_written_eq_nil {spaceId : String} :
    (grantSpaceAccess tx orgId userId spaceId granter).written = [] ↔
      grantsAccess tx userId spaceId = false := by
  unfold grantSpaceAccess grantsAccess withOrgScope transaction
  cases tx.commits with
  | false => simp
  | true =>
    cases tx.hasMembership userId with
    | false => simp
    | true => cases tx.isViewer userId spaceId <;> simp

/-- A grant is revoked. -/
def revokes (tx : Tx) (userId : UserId) : Bool :=
  tx.commits && tx.isActiveMember userId && !(tx.activeGrants userId).isEmpty

theorem revokeAll_written_eq_nil :
    (revokeAll tx orgId userId granter).written = [] ↔ revokes tx userId = false := by
  unfold revokeAll revokes withOrgScope transaction
  cases tx.commits with
  | false => simp
  | true =>
    cases tx.isActiveMember userId with
    | false => simp
    | true => simp

/-- The permission may be granted to the member. -/
def mayGrant (tx : Tx) (userId : UserId) (permission : String) : Bool :=
  tx.commits && isGrantable permission && tx.isActiveMember userId

/-- One of the permissions is granted before one fails. -/
def grantsOne (userId : UserId) : (Nat → Tx) → List String → Bool
  | _, [] => false
  | txs, permission :: rest =>
    mayGrant (txs 0) userId permission &&
      (permission ∉ (txs 0).activeGrants userId || grantsOne userId (fun k => txs (k + 1)) rest)

theorem grantPermission_spec (tx : Tx) (orgId : OrgId) (userId : UserId) (permission : String)
    (granter : TenancyActor) :
    ((grantPermission tx orgId userId permission granter).written = [] ↔
        (mayGrant tx userId permission && permission ∉ tx.activeGrants userId) = false) ∧
      (grantPermission tx orgId userId permission granter).result =
        if mayGrant tx userId permission then some () else none := by
  unfold grantPermission mayGrant withOrgScope transaction
  cases tx.commits with
  | false => simp
  | true =>
    cases isGrantable permission with
    | false => simp
    | true =>
      cases tx.isActiveMember userId with
      | false => simp
      | true => by_cases h : permission ∈ tx.activeGrants userId <;> simp [h]

theorem grantEach_written_eq_nil (permissions : List String) :
    (grantEach txs orgId userId granter permissions).written = [] ↔
      grantsOne userId txs permissions = false := by
  induction permissions generalizing txs with
  | nil => simp [grantEach, grantsOne]
  | cons permission rest ih =>
    obtain ⟨hwritten, hres⟩ := grantPermission_spec (txs 0) orgId userId permission granter
    rw [grantEach, grantsOne, bind_written_eq_nil, hwritten, hres]
    cases mayGrant (txs 0) userId permission with
    | false => simp
    | true => simp [ih]

/-- A permission of the member's role is granted. -/
def grantsDefaults (txs : Nat → Tx) (userId : UserId) : Bool :=
  (txs 0).commits && (txs 1).commits && ((txs 0).roleOf userId).any fun role =>
    grantsOne userId (fun k => txs (2 + k)) ((txs 1).permissionsForRole role)

theorem applyRoleDefaults_written_eq_nil :
    (applyRoleDefaults txs orgId userId granter).written = [] ↔
      grantsDefaults txs userId = false := by
  have hread : (resolveMembership (txs 0) userId).written = [] :=
    written_eq_nil_of_writes_false resolveMembership_writes
  rw [applyRoleDefaults, bind_written_eq_nil, hread, grantsDefaults]
  simp only [resolveMembership, withOrgScope_result, bind_written_eq_nil,
    grantEach_written_eq_nil]
  cases (txs 0).commits with
  | false => simp
  | true =>
    cases (txs 0).roleOf userId with
    | none => simp
    | some role =>
      cases h1 : (txs 1).commits with
      | false => simp [withOrgScope, transaction, h1]
      | true => simp [withOrgScope, transaction, h1]

end

end

end AutomationServices
end TaskFlow
