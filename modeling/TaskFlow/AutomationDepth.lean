import TaskFlow.AutomationEngine
import TaskFlow.AutomationWrites
import TaskFlow.CausalLog
import TaskFlow.NotificationProjection
import TaskFlow.StepSystem

/-! # Causation depth over whole runs

The outbox is a log of events with their causes: somebody outside of the engine
writes an event, the engine runs the rules that listen for an event, and the
notification projection announces what an event told whom.  The depth cap bounds
the chains of causes as long as the depth counts the automation hops on them.

It does not always.  The services of half of the actions, the previews of a
message's links and the notification projection write their events without a
depth, and a chain through one of these starts over at 0.
-/
namespace TaskFlow
namespace AutomationDepth
open DomainEvents RichText AutomationServices AutomationEngine NotificationProjection Outcome

/-! ### One action -/

/-- The action writes an event without a depth: its service is one that drops
it, and finds something to do. -/
def loses (action : AutomationAction) (event : OutboxRow) (w : ActionWorld) : Bool :=
  let manages := (w.txs 0).can .member_manage .org
  match action with
  | .chat_post_message channelId body => previews w.txs channelId (plainParagraph body)
  | .call_webhook webhookId => enqueues (w.txs 0) webhookId event.id
  | .call_place _ fromPhoneNumberId =>
    w.telephonyActionsEnabled && w.telephony && callWrites w.txs w.outside fromPhoneNumberId
  | .sms_send _ fromPhoneNumberId _ =>
    w.telephonyActionsEnabled && w.telephony &&
      smsWrites w.txs w.outside w.suppressed fromPhoneNumberId
  | .slack_post_message integrationId _ _ =>
    w.integrations && postsToSlack w.txs w.outside integrationId
  | .github_create_issue integrationId _ _ =>
    w.integrations && opensIssue w.txs w.outside integrationId
  | .docs_grant_space_access spaceId =>
    manages && event.payload.userId.any fun userId => grantsAccess (w.txs 0) userId spaceId
  | .member_grant_revoke_all =>
    manages && event.payload.userId.any fun userId => revokes (w.txs 0) userId
  | .member_grant_apply_role_defaults =>
    event.payload.userId.any fun userId => grantsDefaults w.txs userId
  | _ => false

section
variable {actor : Actor} {event : OutboxRow} {w : ActionWorld} {depth : Nat}

theorem allAt_of_carries {o : Service Unit} (hd : actor.causationDepth = some depth)
    (h : Carries actor o) : AllAt depth o.written := by
  intro e he
  rw [h e he, hd, Option.getD_some]

theorem allAt_iff_of_drops {o : Service Unit} {writes : Bool} (h : Drops o)
    (hw : o.written = [] ↔ writes = false) : AllAt (depth + 1) o.written ↔ writes = false :=
  (allAt_succ_iff_nil h).trans hw

theorem ofOption_bind_written_eq_nil {α : Type} {a : Option α} {f : α → Service Unit}
    {writes : α → Bool} (h : ∀ x, (f x).written = [] ↔ writes x = false) :
    (Outcome.ofOption a >>= f).written = [] ↔ a.any writes = false := by
  cases a with
  | none => simp [bind_written_eq_nil]
  | some x => simp [bind_written_eq_nil, h]

theorem require_bind_written_eq_nil {present : Bool} {next : Service Unit} {writes : Bool}
    (h : next.written = [] ↔ writes = false) :
    (do require present; next : Service Unit).written = [] ↔ (present && writes) = false := by
  cases present <;> simp [require, bind_written_eq_nil, h]

theorem sendMessage_allAt_iff {channelId : ChannelId} {body : RichTextNode}
    (hd : actor.causationDepth = some (depth + 1)) :
    AllAt (depth + 1) (sendMessage w.txs actor channelId body none).written ↔
      previews w.txs channelId body = false := by
  have hpost : AllAt (depth + 1) (postMessage (w.txs 0) actor channelId body none).written := by
    intro e he
    rw [postMessage_carries e he, hd, Option.getD_some]
  have hres : (postMessage (w.txs 0) actor channelId body none).result = _ := postMessage_result
  unfold previews
  cases hp : posts (w.txs 0) channelId body with
  | false =>
    rw [hp, if_neg Bool.false_ne_true] at hres
    simp only [sendMessage, bind, hres, Bool.false_and, iff_true]
    exact hpost
  | true =>
    rw [hp, if_pos rfl] at hres
    simp only [sendMessage, bind, hres, allAt_append, hpost, true_and, swallow_written]
    rw [allAt_succ_iff_nil unfurlMessage_drops, unfurlMessage_written_eq_nil]
    cases (w.txs 1).commits <;> simp

/-- **One action keeps the depth exactly when it does not lose it.** -/
theorem runAction_allAt_iff (hd : actor.causationDepth = some (depth + 1))
    (action : AutomationAction) :
    AllAt (depth + 1) (runAction actor action event w).written ↔
      loses action event w = false := by
  cases action with
  | card_move listId =>
    exact iff_of_true (allAt_of_carries hd ((writes_ofOption _).bind fun _ => moveCard_carries)) rfl
  | card_set_status statusId =>
    exact iff_of_true
      (allAt_of_carries hd ((writes_ofOption _).bind fun _ => setCardStatus_carries)) rfl
  | card_set_priority priority =>
    exact iff_of_true (allAt_of_carries hd ((writes_ofOption _).bind fun _ =>
      getCard_writes.bind fun _ => (writes_ofOption _).bind fun _ => updateCard_carries)) rfl
  | card_assign userId =>
    exact iff_of_true (allAt_of_carries hd ((writes_ofOption _).bind fun _ =>
      getCard_writes.bind fun _ => .ite (writes_pure _) assignCard_carries)) rfl
  | card_add_label labelId =>
    exact iff_of_true (allAt_of_carries hd ((writes_ofOption _).bind fun _ =>
      listCardLabels_writes.bind fun _ => .ite (writes_pure _) setCardLabels_carries)) rfl
  | card_remove_label labelId =>
    exact iff_of_true (allAt_of_carries hd ((writes_ofOption _).bind fun _ =>
      listCardLabels_writes.bind fun _ => .ite (writes_pure _) setCardLabels_carries)) rfl
  | card_unassign userId =>
    exact iff_of_true (allAt_of_carries hd ((writes_ofOption _).bind fun _ =>
      getCard_writes.bind fun _ => .ite (writes_pure _) assignCard_carries)) rfl
  | card_add_comment body =>
    exact iff_of_true
      (allAt_of_carries hd ((writes_ofOption _).bind fun _ => createComment_carries)) rfl
  -- the message carries the depth, and its link preview does not
  | chat_post_message channelId body => exact sendMessage_allAt_iff hd
  -- a service that drops the depth keeps it only where it writes nothing
  | call_webhook webhookId =>
    exact allAt_iff_of_drops enqueueWebhookDelivery_drops enqueueWebhookDelivery_written_eq_nil
  | call_place to_ fromPhoneNumberId =>
    exact allAt_iff_of_drops ((writes_ofOption _).bind fun _ => placeCall_drops)
      (require_bind_written_eq_nil placeCall_written_eq_nil)
  | sms_send to_ fromPhoneNumberId body =>
    exact allAt_iff_of_drops ((writes_ofOption _).bind fun _ => sendSms_drops)
      (require_bind_written_eq_nil sendSms_written_eq_nil)
  | slack_post_message integrationId channel text =>
    exact allAt_iff_of_drops ((writes_ofOption _).bind fun _ => postSlackMessage_drops)
      (require_bind_written_eq_nil postSlackMessage_written_eq_nil)
  | github_create_issue integrationId title body =>
    exact allAt_iff_of_drops ((writes_ofOption _).bind fun _ => createGithubIssue_drops)
      (require_bind_written_eq_nil createGithubIssue_written_eq_nil)
  | channel_add_member channelId =>
    exact iff_of_true
      (allAt_of_carries hd ((writes_ofOption _).bind fun _ => addChannelMember_carries)) rfl
  | channel_remove_member channelId =>
    exact iff_of_true
      (allAt_of_carries hd ((writes_ofOption _).bind fun _ => removeChannelMember_carries)) rfl
  | docs_grant_space_access spaceId =>
    exact allAt_iff_of_drops ((writes_ofOption _).bind fun _ => (writes_ofOption _).bind fun _ =>
        grantSpaceAccess_drops)
      (require_bind_written_eq_nil (ofOption_bind_written_eq_nil fun _ =>
        grantSpaceAccess_written_eq_nil))
  | identity_revoke_sessions =>
    exact iff_of_true (allAt_of_carries hd ((writes_ofOption _).bind fun _ =>
      (writes_ofOption _).bind fun _ => logoutEverywhere_writes)) rfl
  | member_grant_revoke_all =>
    exact allAt_iff_of_drops ((writes_ofOption _).bind fun _ => (writes_ofOption _).bind fun _ =>
        revokeAll_drops)
      (require_bind_written_eq_nil (ofOption_bind_written_eq_nil fun _ =>
        revokeAll_written_eq_nil))
  | cards_bulk_reassign toUserId =>
    exact iff_of_true
      (allAt_of_carries hd ((writes_ofOption _).bind fun _ => bulkReassignCards_carries)) rfl
  | card_create listId title =>
    exact iff_of_true (allAt_of_carries hd createCard_carries) rfl
  | member_grant_apply_role_defaults =>
    exact allAt_iff_of_drops ((writes_ofOption _).bind fun _ => applyRoleDefaults_drops)
      (ofOption_bind_written_eq_nil fun _ => applyRoleDefaults_written_eq_nil)

end

/-! ### One event -/

/-- No action of a rule that is run loses the depth.  An action is run once those
before it have returned. -/
def actionsKeep (actor : Actor) (event : OutboxRow) :
    List AutomationAction → (Nat → ActionWorld) → Bool
  | [], _ => true
  | action :: rest, w =>
    !loses action event (w 0) &&
      (!(runAction actor action event (w 0)).result.isSome ||
        actionsKeep actor event rest (fun k => w (k + 1)))

/-- The rule is not admitted, its owner is no member, or its actions keep the
depth. -/
def ruleKeeps (rule : AutomationRule) (event : OutboxRow) (w : RuleWorld) : Bool :=
  match admits rule event w, w.membership with
  | .ok (), some role =>
    actionsKeep (ruleActor rule event role (event.causationDepth + 1)) event rule.actions w.action
  | _, _ => true

def rulesKeep (event : OutboxRow) : List AutomationRule → (Nat → RuleWorld) → Bool
  | [], _ => true
  | rule :: rest, w => ruleKeeps rule event (w 0) && rulesKeep event rest (fun k => w (k + 1))

/-- Every rule the engine runs on the event keeps the depth. -/
def eventKeeps (orgIsActive : Bool) (stored : List AutomationRule) (event : OutboxRow)
    (w : Nat → RuleWorld) : Bool :=
  !orgIsActive || rulesKeep event (loadRulesFor stored event) w

section
variable {event : OutboxRow}

theorem runActions_allAt_iff {actor : Actor} {depth : Nat}
    (hd : actor.causationDepth = some (depth + 1)) (actions : List AutomationAction)
    (w : Nat → ActionWorld) :
    AllAt (depth + 1) (runActions actor event actions w) ↔
      actionsKeep actor event actions w = true := by
  induction actions generalizing w with
  | nil => exact iff_of_true allAt_nil rfl
  | cons action rest ih =>
    rw [runActions, actionsKeep, allAt_append, runAction_allAt_iff hd]
    cases (runAction actor action event (w 0)).result.isSome with
    | false => simp
    | true => simp [ih]

theorem runOne_allAt_iff (rule : AutomationRule) (w : RuleWorld) :
    AllAt (event.causationDepth + 1) (runOne rule event w) ↔ ruleKeeps rule event w = true := by
  unfold runOne ruleKeeps execute
  cases admits rule event w with
  | error reason => exact iff_of_true allAt_nil rfl
  | ok =>
    cases w.membership with
    | none => exact iff_of_true allAt_nil rfl
    | some role => exact runActions_allAt_iff rfl _ _

theorem runRules_allAt_iff (rules : List AutomationRule) (w : Nat → RuleWorld) :
    AllAt (event.causationDepth + 1) (runRules event rules w) ↔
      rulesKeep event rules w = true := by
  induction rules generalizing w with
  | nil => exact iff_of_true allAt_nil rfl
  | cons rule rest ih => rw [runRules, rulesKeep, allAt_append, runOne_allAt_iff, ih,
      Bool.and_eq_true]

theorem processEvent_allAt_iff (orgIsActive : Bool) (stored : List AutomationRule)
    (w : Nat → RuleWorld) :
    AllAt (event.causationDepth + 1) (processEvent orgIsActive stored event w) ↔
      eventKeeps orgIsActive stored event w = true := by
  unfold processEvent eventKeeps
  cases orgIsActive with
  | false => exact iff_of_true allAt_nil rfl
  | true => simpa using runRules_allAt_iff (loadRulesFor stored event) w

end

/-! ### Runs -/

abbrev Log := List (CausalLog.Entry OutboxRow)

inductive Step where
  /-- Somebody outside of the engine writes an event. -/
  | root (event : DomainEvent)
  /-- The engine takes the event of entry `n`, with these rules stored. -/
  | automate (n : Nat) (orgIsActive : Bool) (stored : List AutomationRule) (w : Nat → RuleWorld)
  /-- The notification projection takes the event of entry `n`. -/
  | notify (n : Nat) (w : NotifyWorld)

/-- One step of the system.  Only the engine sets a depth. -/
def step (log : Log) : Step → Option Log
  | .root event =>
    if event.causationDepth = none then some (log ++ [.root (outboxRow event)]) else none
  | .automate n orgIsActive stored w =>
    log[n]?.map fun cause => CausalLog.appendFrom log cause .reaction
      (appendToOutbox (processEvent orgIsActive stored cause.event w))
  | .notify n w =>
    log[n]?.map fun cause => CausalLog.appendFrom log cause .projection
      (appendToOutbox (projectRow cause.event w))

/-- The step loses no depth: every action the engine runs keeps it, and whom the
projection tells is told of an event at depth 0. -/
def KeepsDepth (log : Log) : Step → Prop
  | .root _ => True
  | .automate n orgIsActive stored w =>
    ∀ cause, log[n]? = some cause → eventKeeps orgIsActive stored cause.event w = true
  | .notify n w =>
    ∀ cause, log[n]? = some cause →
      cause.event.causationDepth = 0 ∨ inserted cause.event w = []

/-- The depth of every event is the number of automation hops on its chain. -/
abbrev CountsHops (log : Log) : Prop :=
  CausalLog.Counts OutboxRow.causationDepth log

/-- **A step keeps the depth equal to the hops exactly when it loses none.** -/
theorem step_counts_iff {log log' : Log} {s : Step} (hcounts : CountsHops log)
    (hs : step log s = some log') : CountsHops log' ↔ KeepsDepth log s := by
  cases s with
  | root event =>
    simp only [step, Option.ite_none_right_eq_some, Option.some.injEq] at hs
    obtain ⟨hnone, rfl⟩ := hs
    refine iff_of_true (hcounts.append_root ?_) trivial
    rw [outboxRow, hnone, Option.getD_none]
  | automate n orgIsActive stored w =>
    obtain ⟨cause, hn, rfl⟩ := Option.map_eq_some_iff.mp hs
    refine (hcounts.appendFrom_reaction (List.mem_of_getElem? hn)).trans ?_
    rw [← allAt_appendToOutbox, processEvent_allAt_iff]
    simp [KeepsDepth, hn]
  | notify n w =>
    obtain ⟨cause, hn, rfl⟩ := Option.map_eq_some_iff.mp hs
    refine (hcounts.appendFrom_projection (List.mem_of_getElem? hn)).trans ?_
    rw [← allAt_appendToOutbox, projectRow_allAt]
    simp [KeepsDepth, hn]

/-- No step makes a chain of more than `MAX_DEPTH` hops out of a log where the
depth counts them. -/
theorem step_within {log log' : Log} {s : Step} (hcounts : CountsHops log)
    (hwithin : CausalLog.Within MAX_DEPTH log) (hs : step log s = some log') :
    CausalLog.Within MAX_DEPTH log' := by
  cases s with
  | root event =>
    simp only [step, Option.ite_none_right_eq_some, Option.some.injEq] at hs
    obtain ⟨_, rfl⟩ := hs
    exact hwithin.append_root
  | automate n orgIsActive stored w =>
    obtain ⟨cause, hn, rfl⟩ := Option.map_eq_some_iff.mp hs
    refine hwithin.appendFrom_reaction hcounts (List.mem_of_getElem? hn) fun hne => ?_
    exact depth_lt_of_processEvent fun hnil => hne (by rw [hnil]; rfl)
  | notify n w =>
    obtain ⟨cause, hn, rfl⟩ := Option.map_eq_some_iff.mp hs
    exact hwithin.appendFrom_projection (List.mem_of_getElem? hn)

/-- **The depth bounds every chain where no step loses it.**  An action of a
rule writes its events one deeper than the event that triggered it exactly when
it does not lose the depth, the projection writes its own as deep as the event it
projects exactly when that is at depth 0 or tells nobody, and in every run whose
steps all keep the depth each event is as deep as its chain has automation hops,
which are at most `MAX_DEPTH`. -/
theorem causation_depth_bounds_chains (rule : AutomationRule) (event row : OutboxRow) (role : Role)
    (action : AutomationAction) (w : ActionWorld) (notify : NotifyWorld) (log : Log) :
    (AllAt (event.causationDepth + 1)
        (runAction (ruleActor rule event role (event.causationDepth + 1)) action event w).written ↔
      loses action event w = false) ∧
    (AllAt row.causationDepth (projectRow row notify) ↔
      row.causationDepth = 0 ∨ inserted row notify = []) ∧
    (StepSystem.ReachableWhen step KeepsDepth [] log →
      CountsHops log ∧ CausalLog.Within MAX_DEPTH log) := by
  refine ⟨runAction_allAt_iff rfl action, projectRow_allAt, fun hrun => ?_⟩
  refine hrun.invariant (I := fun log => CountsHops log ∧ CausalLog.Within MAX_DEPTH log)
    ⟨CausalLog.counts_nil, CausalLog.within_nil⟩ ?_
  intro log s log' ⟨hcounts, hwithin⟩ hkeeps hs
  exact ⟨(step_counts_iff hcounts hs).mpr hkeeps, step_within hcounts hwithin hs⟩

/-! ### A chain without end -/

/-- A transaction that finds one open channel and one enabled webhook. -/
def busyTx : Tx where
  commits := true
  newId := fun n => if n = 0 then "m" else "e"
  can := fun _ _ => true
  card := fun _ => none
  list := fun _ => none
  siblings := fun _ _ => []
  repaired := fun _ _ => []
  lastRank := fun _ => none
  counter := fun _ => false
  labels := fun _ => []
  carrying := fun _ => []
  channel := fun _ => some ⟨.public, false, []⟩
  message := fun _ => none
  webhookEnabled := fun _ => some true
  queued := fun _ _ => false
  connector := fun _ => none
  hasMembership := fun _ => false
  isActiveMember := fun _ => false
  roleOf := fun _ => none
  isViewer := fun _ _ => false
  activeGrants := fun _ => []
  permissionsForRole := fun _ => []
  phoneNumber := fun _ => false
  subaccount := false
  checkOutboundAllowed := none
  dataKey := false
  messageThread := false
  sessionsRevoked := false

def busyWorld : RuleWorld where
  evaluate := fun _ => none
  budget := true
  membership := some .owner
  action := fun _ =>
    { txs := fun _ => busyTx, outside := ⟨false, false, false, false, false, false⟩,
      suppressed := false, telephonyActionsEnabled := false, telephony := false,
      integrations := false, descriptionParses := true }

/-- When a message is sent, call a webhook; when a delivery is queued, post a
message. -/
def mutualRules : List AutomationRule :=
  [⟨"a", "o", .message_sent, none, [.call_webhook "w"], true, "u"⟩,
    ⟨"b", "o", .webhook_delivery_queued, none, [.chat_post_message "c" ['h', 'i']], true, "u"⟩]

/-- A message somebody sends. -/
def humanMessage : DomainEvent :=
  createEvent "e" .message_sent { messageId := some "m" }
    { orgId := "o", actorId := some "v", requestId := some "r" }

/-- The message, and then `n` times the engine on the last event. -/
def mutualRun (n : Nat) : List Step :=
  .root humanMessage ::
    (List.range n).map fun k => .automate k true mutualRules fun _ => busyWorld

/-- **Two rules that trigger each other outrun the cap.**  The queued delivery is
at depth 0 though a rule wrote it on an event at depth 0, and after six turns a
chain has six automation hops. -/
theorem chain_exceeds_max_depth :
    ¬ AllAt 1 (runAction (ruleActor mutualRules[0] (outboxRow humanMessage) .owner 1)
        (.call_webhook "w") (outboxRow humanMessage) (busyWorld.action 0)).written ∧
      ∃ log : Log, StepSystem.Reachable step [] log ∧ ¬ CausalLog.Within MAX_DEPTH log := by
  constructor
  · intro h
    have := h (createEvent "m" .webhook_delivery_queued {}
      { orgId := "o", actorId := some "u", requestId := some "e" }) (by decide)
    cases this
  · have hrun : (StepSystem.run step [] (mutualRun 6)).any
        (fun log => log.any fun r => MAX_DEPTH < r.hops) = true := by decide
    obtain ⟨log, hlog, hany⟩ := (Option.any_eq_true _ _).mp hrun
    obtain ⟨r, hr, hhops⟩ := List.any_eq_true.mp hany
    exact ⟨log, StepSystem.reachable_of_run hlog,
      fun hwithin => Nat.not_lt.mpr (hwithin r hr) (of_decide_eq_true hhops)⟩

/-- The log of `mutualRun 1` with a delivery queued by hand in place of the
message: one rule posts a message, at depth 1. -/
theorem causation_depth_bounds_chains_one_hop :
    ∃ log : Log, log.map (fun r => (r.event.name, r.event.causationDepth, r.hops)) =
        [(.webhook_delivery_queued, 0, 0), (.message_sent, 1, 1)] ∧
      CountsHops log ∧ CausalLog.Within MAX_DEPTH log := by
  have hrun : ∃ log : Log, StepSystem.ReachableWhen step KeepsDepth [] log ∧
      log.map (fun r => (r.event.name, r.event.causationDepth, r.hops)) =
        [(.webhook_delivery_queued, 0, 0), (.message_sent, 1, 1)] := by
    refine ⟨_, .tail (.tail .refl ⟨.root { humanMessage with name := .webhook_delivery_queued },
      trivial, rfl⟩) ⟨.automate 0 true mutualRules fun _ => busyWorld, ?_, rfl⟩, ?_⟩
    · intro cause hcause
      obtain rfl := Option.some.inj hcause
      decide
    · decide
  obtain ⟨log, hreach, hlog⟩ := hrun
  obtain ⟨-, -, hruns⟩ := causation_depth_bounds_chains mutualRules[0] (outboxRow humanMessage)
    (outboxRow humanMessage) .owner (.call_webhook "w") (busyWorld.action 0)
    ⟨true, fun _ => none, fun _ => true, fun _ => ""⟩ log
  exact ⟨log, hlog, hruns hreach⟩

end AutomationDepth
end TaskFlow
