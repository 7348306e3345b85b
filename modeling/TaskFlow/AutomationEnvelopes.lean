import TaskFlow.AutomationServices

/-! # The depth each service writes

A service of the card or chat modules writes its events at the depth of its
actor, `Carries`.  The webhook, connector, telephony and grant services write
them without one, `Drops`, and what remains is to say when these services write
at all.
-/
namespace TaskFlow
namespace AutomationServices
open DomainEvents RichText Outcome

/-- Every event is written at the actor's depth. -/
abbrev Carries {α : Type} (actor : Actor) (o : Service α) : Prop :=
  o.Writes fun e => e.causationDepth = actor.causationDepth

/-- Every event is written without a depth. -/
abbrev Drops {α : Type} (o : Service α) : Prop :=
  o.Writes fun e => e.causationDepth = none

section
variable {tx : Tx} {txs : Nat → Tx} {outside : Outside} {actor : Actor}

/-! ### Services that read -/

section
variable {p : DomainEvent → Prop}

theorem getCard_writes {cardId : CardId} : (getCard tx cardId).Writes p :=
  Body.transaction (.bind fun _ => .bind fun _ => body_nil _)

theorem listCardLabels_writes {cardId : CardId} : (listCardLabels tx cardId).Writes p :=
  Body.transaction (.bind fun _ => .bind fun _ => body_nil _)

theorem connectorFor_writes {integrationId : String} : (connectorFor tx integrationId).Writes p :=
  Body.transaction (.bind fun _ => .bind fun _ => body_nil _)

theorem loadNumber_writes {phoneNumberId : String} : (loadNumber tx phoneNumberId).Writes p :=
  Body.transaction (.bind fun _ => body_nil _)

theorem loadSubaccount_writes : (loadSubaccount tx).Writes p :=
  Body.transaction (body_nil _)

theorem loadOrgDataKey_writes : (loadOrgDataKey tx).Writes p :=
  Body.transaction (.bind fun _ => body_nil _)

theorem resolveMembership_writes {userId : UserId} : (resolveMembership tx userId).Writes p :=
  Body.transaction (.bind fun _ => body_nil _)

theorem logoutEverywhere_writes : (logoutEverywhere tx).Writes p :=
  writes_ofOption _

end

/-! ### Services that carry the depth -/

theorem moveCard_carries {cardId : CardId} {listId : ListId} {before after : Option CardId} :
    Carries actor (moveCard tx actor cardId listId before after) := by
  refine Body.transaction (.bind fun card => .bind fun _ => .bind fun target => .bind fun _ =>
    .bind fun _ => .bind fun before => .bind fun after => ?_)
  split
  · exact body_singleton _ rfl
  · refine .bind fun before => .bind fun after => .bind fun _ => body_some ?_
    simp [workEnvelopeOf, actorContext]

theorem setCardStatus_carries {cardId : CardId} {statusId : Option StatusId} :
    Carries actor (setCardStatus tx actor cardId statusId) :=
  Body.transaction (.bind fun _ => .bind fun _ => .ite (body_nil _) (body_singleton _ rfl))

theorem updateCard_carries {cardId : CardId} {version : Nat} :
    Carries actor (updateCard tx actor cardId version) :=
  Body.transaction (.bind fun _ => .bind fun _ => .bind fun _ => body_singleton _ rfl)

theorem assignCard_carries {cardId : CardId} {assigneeIds : List UserId} :
    Carries actor (assignCard tx actor cardId assigneeIds) :=
  Body.transaction (.bind fun _ => .bind fun _ => .bind fun _ => body_singleton _ rfl)

theorem setCardLabels_carries {cardId : CardId} {labelIds : List LabelId} :
    Carries actor (setCardLabels tx actor cardId labelIds) :=
  Body.transaction (.bind fun _ => .bind fun _ => .ite (body_nil _) (body_singleton _ rfl))

theorem createComment_carries {cardId : CardId} {body : RichTextNode} :
    Carries actor (createComment tx actor cardId body) :=
  Body.transaction (.bind fun _ => .bind fun _ => .bind fun _ => body_singleton _ rfl)

theorem createCard_carries {listId : ListId} : Carries actor (createCard tx actor listId) :=
  Body.transaction (.bind fun _ => .bind fun _ => .bind fun _ => .bind fun _ =>
    body_singleton _ rfl)

theorem bulkReassignCards_carries {fromUserId toUserId : UserId} :
    Carries actor (bulkReassignCards tx actor fromUserId toUserId) :=
  Body.transaction (.bind fun _ => .ite (body_nil _) (body_singleton _ rfl))

theorem postMessage_carries {channelId : ChannelId} {body : RichTextNode}
    {parentMessageId : Option MessageId} :
    Carries actor (postMessage tx actor channelId body parentMessageId) :=
  Body.transaction (.bind fun _ => .bind fun _ => .bind fun _ => .bind fun _ => .bind fun _ =>
    body_singleton _ rfl)

theorem addChannelMember_carries {channelId : ChannelId} {userId : UserId} :
    Carries actor (addChannelMember tx actor channelId userId) :=
  Body.transaction (.bind fun _ => .bind fun _ => .bind fun _ => .bind fun _ =>
    .ite (body_nil _) (.bind fun _ => body_singleton _ rfl))

theorem removeChannelMember_carries {channelId : ChannelId} {userId : UserId} :
    Carries actor (removeChannelMember tx actor channelId userId) :=
  Body.transaction (.bind fun _ => .bind fun _ => .bind fun _ =>
    .ite (body_nil _) (body_singleton _ rfl))

/-! ### Services that drop it -/

theorem unfurlMessage_drops {messageId : MessageId} {bodyText : Text} :
    Drops (unfurlMessage tx actor messageId bodyText) :=
  .ite (writes_pure _) (Body.transaction (body_singleton _ rfl))

theorem enqueueWebhookDelivery_drops {webhookId : String} {eventId : EventId} :
    Drops (enqueueWebhookDelivery tx actor webhookId eventId) :=
  Body.transaction (.bind fun _ => .bind fun _ => .bind fun _ =>
    .ite (body_nil _) (body_singleton _ rfl))

theorem postSlackMessage_drops {integrationId : String} :
    Drops (postSlackMessage txs outside actor integrationId) :=
  connectorFor_writes.bind fun _ =>
    .ite (Body.transaction (body_singleton _ rfl)) writes_fail

theorem createGithubIssue_drops {integrationId : String} :
    Drops (createGithubIssue txs outside actor integrationId) :=
  connectorFor_writes.bind fun _ => (writes_ofOption _).bind fun _ =>
    .ite (Body.transaction (body_singleton _ rfl)) writes_fail

theorem insertSubaccount_drops : Drops (insertSubaccount tx actor) :=
  Body.transaction (.ite (body_nil _) (body_singleton _ rfl))

theorem ensureSubaccount_drops : Drops (ensureSubaccount txs outside actor) :=
  loadSubaccount_writes.bind fun _ => .ite (writes_pure _) (.ite
    (insertSubaccount_drops.bind fun _ => .ite (writes_pure _)
      (loadSubaccount_writes.bind fun _ => .ite (writes_pure _) writes_fail))
    writes_fail)

theorem emitRefusal_drops : Drops (emitRefusal tx actor) :=
  Body.transaction (body_singleton _ rfl)

theorem passGate_drops {gate refusal : Tx} : Drops (passGate gate refusal outside actor) := by
  refine .ite (Writes.bind (Body.transaction ?_) fun decision => ?_) writes_fail
  · cases gate.checkOutboundAllowed with
    | none => exact body_none
    | some decision => exact body_nil _
  · cases decision with
    | allowed warnThresholdPercent => exact writes_pure _
    | refused => exact emitRefusal_drops.bind fun _ => writes_fail

theorem recordSpend_drops {warnThresholdPercent : Option Nat} :
    ∀ e ∈ recordSpend tx warnThresholdPercent (telephonyEnvelopeOf actor),
      e.causationDepth = none := by
  cases warnThresholdPercent <;> simp [recordSpend, telephonyEnvelopeOf, actorContext]

theorem ensureThread_drops :
    ∀ e ∈ ensureThread tx (telephonyEnvelopeOf actor), e.causationDepth = none := by
  unfold ensureThread
  split <;> simp [telephonyEnvelopeOf, actorContext]

theorem insertCall_drops {warnThresholdPercent : Option Nat} :
    Drops (insertCall tx actor warnThresholdPercent) := by
  refine Body.transaction (body_some fun e he => ?_)
  rcases List.mem_append.mp he with he | he
  · exact recordSpend_drops e he
  · obtain rfl := List.mem_singleton.mp he
    rfl

theorem insertSms_drops {warnThresholdPercent : Option Nat} :
    Drops (insertSms tx actor warnThresholdPercent) := by
  refine Body.transaction (body_some fun e he => ?_)
  rcases List.mem_append.mp he with he | he
  · rcases List.mem_append.mp he with he | he
    · exact ensureThread_drops e he
    · exact recordSpend_drops e he
  · obtain rfl := List.mem_singleton.mp he
    rfl

theorem releaseUnplacedCall_drops : Drops (releaseUnplacedCall tx actor) :=
  Writes.swallow (Body.transaction (body_singleton _ rfl))

theorem placeCall_drops {fromPhoneNumberId : String} :
    Drops (placeCall txs outside actor fromPhoneNumberId) :=
  loadNumber_writes.bind fun _ => ensureSubaccount_drops.bind fun _ => passGate_drops.bind fun _ =>
    loadOrgDataKey_writes.bind fun _ => insertCall_drops.bind fun _ =>
      .ite (Body.transaction (body_nil _)) (releaseUnplacedCall_drops.bind fun _ => writes_fail)

theorem sendSms_drops {suppressed : Bool} {fromPhoneNumberId : String} :
    Drops (sendSms txs outside suppressed actor fromPhoneNumberId) :=
  loadNumber_writes.bind fun _ => .ite writes_fail (ensureSubaccount_drops.bind fun _ =>
    passGate_drops.bind fun _ => loadOrgDataKey_writes.bind fun _ =>
      .ite insertSms_drops writes_fail)

section
variable {orgId : OrgId} {userId : UserId} {granter : TenancyActor}

theorem grantSpaceAccess_drops {spaceId : String} :
    Drops (grantSpaceAccess tx orgId userId spaceId granter) :=
  Body.transaction (.bind fun _ => .ite (body_nil _) (body_singleton _ rfl))

theorem grantPermission_drops {permission : String} :
    Drops (grantPermission tx orgId userId permission granter) :=
  Body.transaction (.bind fun _ => .bind fun _ => .ite (body_nil _) (body_singleton _ rfl))

theorem revokeAll_drops : Drops (revokeAll tx orgId userId granter) := by
  refine Body.transaction (.bind fun _ => body_some fun e he => ?_)
  obtain ⟨_, _, rfl⟩ := List.mem_map.mp he
  rfl

theorem grantEach_drops (permissions : List String) :
    Drops (grantEach txs orgId userId granter permissions) := by
  induction permissions generalizing txs with
  | nil => exact writes_pure _
  | cons permission rest ih => exact grantPermission_drops.bind fun _ => ih

theorem applyRoleDefaults_drops : Drops (applyRoleDefaults txs orgId userId granter) :=
  resolveMembership_writes.bind fun _ => Writes.bind (Body.transaction (body_nil _)) fun _ =>
    grantEach_drops _

end

end

end AutomationServices
end TaskFlow
