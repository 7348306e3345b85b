import Mathlib.Order.Lattice
import TaskFlow.ChatTables
import TaskFlow.RowDiscipline

/-! # Retention and legal holds

The sweep lists the channels of an organization that keep their messages for some days and are not
on hold, and then deletes in each of them the messages that are older and not held themselves.  The
replies of a message go with it, by a foreign key that asks nothing.

Where no such reply is held, and no channel that the sweep has deleted from is on hold when it
commits, no message is gone that is held (`keepsHeld_of_honoured`).  Otherwise a hold on a reply, or
on a channel that is listed already, does not count (`held_reply_gone`).
-/
namespace TaskFlow
namespace Chat
open ReadCommitted ReadCommitted.Script ReadCommitted.Procedure Policy Tenancy

/-- How many messages one org's sweep announces for a channel. -/
def BATCH_LIMIT : Nat := 500

def DAY_MS : Int := 24 * 60 * 60 * 1000

structure ChannelSweepResult where
  channelId : ChannelId
  deleted : Nat
  deriving DecidableEq, Repr

section
-- the channels and the messages there are at any time, in the order of the tables
variable (channels : List ChannelId) (messages : List MessageId)

/-- The channels that have opted in, with their windows. -/
def sweptChannels (orgId : OrgId) (rows : Rows) : List (ChannelId × Nat) :=
  channels.filterMap fun id =>
    (channelRow rows id).bind fun channel =>
      if channel.orgId = orgId ∧ channel.retentionHold = false then
        channel.retentionDays.map (Prod.mk id)
      else none

/-- The messages that the WHERE of the DELETE matches. -/
def expired (orgId : OrgId) (channelId : ChannelId) (cutoff : Int) (rows : Rows) :
    List MessageId :=
  messages.filter fun id => (messageRow rows id).any fun message =>
    message.orgId = orgId ∧ message.channelId = channelId ∧ message.createdAt < cutoff ∧
      message.heldAt = none

/-- The parent is a message of the same channel. -/
def refersTo (rows : Rows) (message : Message) (parentId : MessageId) : Bool :=
  message.parentMessageId = some parentId ∧ (messageRow rows parentId).any fun parent =>
    parent.orgId = message.orgId ∧ parent.channelId = message.channelId

/-- Whether a message goes, as far as `depth` replies down: it is one of these, or a reply to one
that goes. -/
def goes (rows : Rows) (ids : List MessageId) : Nat → MessageId → Bool
  | 0, id => id ∈ ids
  | depth + 1, id => id ∈ ids || (messageRow rows id).any fun message =>
    message.parentMessageId.any fun parentId =>
      refersTo rows message parentId && goes rows ids depth parentId

/-- The messages that are gone after the DELETE. -/
def gone (orgId : OrgId) (channelId : ChannelId) (cutoff : Int) (rows : Rows) : List MessageId :=
  messages.filter (goes rows (expired messages orgId channelId cutoff rows) messages.length)

/-- DELETE of the messages that match, which it returns. -/
def deleteExpired (orgId : OrgId) (channelId : ChannelId) (cutoff : Int) :
    Procedure (List MessageId) :=
  statement (.sweep orgId channelId cutoff)
    (fun _ rows => ([], (gone messages orgId channelId cutoff rows).map fun id =>
      (.message id, none)))
    fun _ rows => expired messages orgId channelId cutoff rows

/-- The events of a channel, in order. -/
def deletedEvents (channelId : ChannelId) (removed : List MessageId) : List Event :=
  (removed.take BATCH_LIMIT).map fun id => .messageDeleted id channelId

/-- One channel after the other: the events, the last one first, and what was deleted. -/
def sweepChannels (orgId : OrgId) :
    List (ChannelId × Nat) → Procedure (List Event × List ChannelSweepResult)
  | [] => pure ([], [])
  | (channelId, days) :: rest => do
    let now ← statement .query (fun _ _ => ([], [])) fun now _ => now
    let removed ← deleteExpired messages orgId channelId (now - days * DAY_MS)
    let (events, results) ← sweepChannels orgId rest
    if removed = [] then return (events, results)
    else return (events ++ (deletedEvents channelId removed).reverse,
      ⟨channelId, removed.length⟩ :: results)

/-- Runs one org's retention pass. -/
def sweepOrg (orgId : OrgId) : Procedure (List ChannelSweepResult) :=
  transaction do
    let found ← select .query (sweptChannels channels orgId)
    sweepChannels messages orgId found

/-- Holds or releases an entire channel. -/
def setChannelHold (actor : ChatActor) (channelId : ChannelId) (held : Bool) : Procedure Bool :=
  transaction do
    let channel ← loadChannel (orgOf actor) channelId
    enforceOnChannel actor ⟨.channel, .manage⟩ channelId channel
    let _ ← update .query (.channel channelId) fun _ row =>
      ((row.bind Row.channel?).filter fun channel => channel.orgId = orgOf actor).map fun channel =>
        some (.channel { channel with retentionHold := held })
    return ([.legalHoldChanged channelId none held], held)

/-- Holds or releases one message; says also whether a row was written. -/
def setMessageHold (actor : ChatActor) (messageId : MessageId) (held : Bool) :
    Procedure (Bool × Bool) :=
  transaction do
    let message ← loadMessageRow (orgOf actor) messageId
    let channel ← loadChannel (orgOf actor) message.channelId
    enforceOnChannel actor ⟨.channel, .manage⟩ message.channelId channel
    let written ← update .query (.message messageId) fun now row =>
      ((row.bind Row.message?).filter fun message => message.orgId = orgOf actor).map fun message =>
        some (.message { message with
          heldAt := if held then some now else none
          heldBy := if held then some (userOf actor) else none })
    return ([.legalHoldChanged message.channelId (some messageId) held], held, written.isSome)

end

inductive RetentionCall where
  | sweepOrg (orgId : OrgId)
  | setChannelHold (actor : ChatActor) (channelId : ChannelId) (held : Bool)
  | setMessageHold (actor : ChatActor) (messageId : MessageId) (held : Bool)
  deriving DecidableEq, Repr

def retentionCalls (channels : List ChannelId) (messages : List MessageId) :
    RetentionCall → Script Key (Option Row) Label Int Event
  | .sweepOrg orgId => (sweepOrg channels messages orgId).script
  | .setChannelHold actor channelId held => (setChannelHold actor channelId held).script
  | .setMessageHold actor messageId held => (setMessageHold actor messageId held).script

/-! ### Holds -/

def onHold (rows : Rows) (channelId : ChannelId) : Bool :=
  (channelRow rows channelId).any Channel.retentionHold

/-- The message is held, or its channel is. -/
def Held (rows : Rows) (message : Message) : Prop :=
  message.heldAt ≠ none ∨ onHold rows message.channelId = true

/-- No message that is held is gone. -/
def KeepsHeld (rows rows' : Rows) : Prop :=
  ∀ id message, messageRow rows id = some message → Held rows message → messageRow rows' id ≠ none

/-- The message is not held, or there is none. -/
def unheld (rows : Rows) (id : MessageId) : Bool :=
  (messageRow rows id).all fun message => message.heldAt = none

/-- The channel that a message is announced to be deleted from is not on hold. -/
def Event.Honours (rows : Rows) : Event → Prop
  | .messageDeleted _ channelId => onHold rows channelId = false
  | _ => True

instance (rows : Rows) : (event : Event) → Decidable (event.Honours rows)
  | .messageDeleted _ channelId => inferInstanceAs (Decidable (onHold rows channelId = false))
  | .channelReadAdvanced .. | .messageReactionAdded .. | .messageReactionRemoved ..
  | .legalHoldChanged .. => isTrue trivial

/-- No message that a DELETE takes along is held, and no channel from which the transaction has
deleted is on hold. -/
def honoured (messages : List MessageId) : Condition Key (Option Row) Label Int Event where
  statement label _ rows _ :=
    match label with
    | .sweep orgId channelId cutoff =>
      ∀ id ∈ gone messages orgId channelId cutoff rows, unheld rows id = true
    | _ => True
  commit events rows := ∀ event ∈ events, event.Honours rows

abbrev holdDiscipline (S : Type) (messages : List MessageId) :
    Discipline S Key (Option Row) Label Int Event :=
  .ofRows S (fun _ _ => True) KeepsHeld (honoured messages)

section
variable {messages : List MessageId} {orgId : OrgId} {channelId : ChannelId} {cutoff : Int}
  {rows : Rows} {id : MessageId}

theorem mem_expired (h : id ∈ expired messages orgId channelId cutoff rows) :
    ∃ message, messageRow rows id = some message ∧ message.channelId = channelId := by
  obtain ⟨message, hrow, hmatch⟩ := (Option.any_eq_true ..).mp (List.mem_filter.mp h).2
  exact ⟨message, hrow, (of_decide_eq_true hmatch).2.1⟩

/-- What goes is in the channel, and goes because something matches. -/
theorem goes_in_channel {depth : Nat}
    (h : goes rows (expired messages orgId channelId cutoff rows) depth id = true) :
    (∃ message, messageRow rows id = some message ∧ message.channelId = channelId) ∧
      expired messages orgId channelId cutoff rows ≠ [] := by
  induction depth generalizing id with
  | zero =>
    have hmem : id ∈ expired messages orgId channelId cutoff rows := of_decide_eq_true h
    exact ⟨mem_expired hmem, List.ne_nil_of_mem hmem⟩
  | succ depth ih =>
    rcases Bool.or_eq_true_iff.mp h with h | h
    · have hmem : id ∈ expired messages orgId channelId cutoff rows := of_decide_eq_true h
      exact ⟨mem_expired hmem, List.ne_nil_of_mem hmem⟩
    -- a reply is in the channel of its parent
    · obtain ⟨message, hrow, hany⟩ := (Option.any_eq_true ..).mp h
      obtain ⟨parentId, -, hboth⟩ := (Option.any_eq_true ..).mp hany
      obtain ⟨hrefers, hgoes⟩ := Bool.and_eq_true_iff.mp hboth
      obtain ⟨⟨parent, hparent, hchannel⟩, hsome⟩ := ih hgoes
      obtain ⟨parent', hparent', hsame⟩ :=
        (Option.any_eq_true ..).mp (of_decide_eq_true hrefers).2
      obtain rfl := Option.some.inj (hparent.symm.trans hparent')
      exact ⟨⟨message, hrow, (of_decide_eq_true hsame).2.symm.trans hchannel⟩, hsome⟩

theorem mem_gone (h : id ∈ gone messages orgId channelId cutoff rows) :
    (∃ message, messageRow rows id = some message ∧ message.channelId = channelId) ∧
      expired messages orgId channelId cutoff rows ≠ [] :=
  goes_in_channel (List.mem_filter.mp h).2

/-- Where something is deleted, it is announced. -/
theorem deletedEvents_of_ne_nil {removed : List MessageId} (channelId : ChannelId)
    (h : removed ≠ []) :
    ∃ id, .messageDeleted id channelId ∈ deletedEvents channelId removed := by
  cases removed with
  | nil => exact absurd rfl h
  | cons id removed => exact ⟨id, List.mem_cons_self⟩

end

/-! ### The sweep -/

/-- The message was not held, and its channel is one of those announced. -/
def Lost (events : List Event) (change : Key × Option Row × Option Row) : Prop :=
  ∃ id message, change = (.message id, some (.message message), none) ∧ message.heldAt = none ∧
    ∃ deletedId, .messageDeleted deletedId message.channelId ∈ events

/-- The transaction has deleted messages, and done nothing else. -/
def Swept {S : Type} (events : List Event) : Assertion S Key (Option Row) Event :=
  fun t σ => ∃ changes, Replaced changes t σ ∧ ∀ change ∈ changes, Lost events change

section
variable {S : Type} {s : S} {messages : List MessageId} {orgId : OrgId} {channelId : ChannelId}
  {cutoff : Int} {events events' : List Event} {t : Transaction Key (Option Row)}
  {σ : Shared S Key (Option Row) Event}

theorem swept_stable : Stable (holdDiscipline S messages) s (Swept events) := by
  rintro t σ σ' ⟨changes, h, hlost⟩ hrely hinv
  exact ⟨changes, replaced_stable_ofRows changes t σ σ' h hrely hinv, hlost⟩

theorem Swept.mono (h : Swept events t σ) (hsub : events ⊆ events') : Swept events' t σ := by
  obtain ⟨changes, hreplaced, hlost⟩ := h
  refine ⟨changes, hreplaced, fun change hchange => ?_⟩
  obtain ⟨id, message, rfl, hheld, deletedId, hevent⟩ := hlost change hchange
  exact ⟨id, message, rfl, hheld, deletedId, hsub hevent⟩

/-- What the transaction still sees of a message is what is committed. -/
theorem Swept.row_of_view (h : Swept events t σ) {key : Key} {row : Row}
    (hview : t.view σ key = some row) : σ.rows key = some row := by
  obtain ⟨changes, hreplaced, hlost⟩ := h
  rcases hreplaced.view_cases key with hsame | hchange
  · rw [← hsame, hview]
  · obtain ⟨id, message, heq, -⟩ := hlost _ hchange
    rw [hview] at heq
    simp at heq

theorem eq_of_messageRow {rows : Rows} {id : MessageId} {message : Message}
    (h : messageRow rows id = some message) : rows (.message id) = some (.message message) := by
  obtain ⟨row, hrow, hmessage⟩ := Option.bind_eq_some_iff.mp h
  rw [hrow]
  cases row <;> simp_all [Row.message?]

theorem triple_deleteExpired :
    Triple (holdDiscipline S messages) s (Swept events)
      (deleteExpired messages orgId channelId cutoff) fun removed =>
        Swept (deletedEvents channelId removed ++ events) := by
  refine triple_statement swept_stable fun t σ now held h _ _ hcondition => ?_
  have hhonoured : ∀ id ∈ gone messages orgId channelId cutoff (t.view σ),
      unheld (t.view σ) id = true := hcondition
  have hrow {key : Key} {row : Row} (hview : t.view σ key = some row) : σ.rows key = some row :=
    h.row_of_view hview
  obtain ⟨changes, hreplaced, hlost⟩ := h.mono (List.subset_append_right
    (deletedEvents channelId (expired messages orgId channelId cutoff (t.view σ))) events)
  refine ⟨_, hreplaced.run [] _, fun change hchange => ?_⟩
  rcases List.mem_append.mp hchange with hchange | hchange
  · rw [List.map_map] at hchange
    obtain ⟨id, hid, rfl⟩ := List.mem_map.mp hchange
    obtain ⟨⟨message, hmessage, hchannel⟩, hsome⟩ := mem_gone hid
    have hunheld : message.heldAt = none := by
      have hunheld := hhonoured id hid
      rw [unheld, hmessage] at hunheld
      exact of_decide_eq_true hunheld
    obtain ⟨deletedId, hevent⟩ := deletedEvents_of_ne_nil channelId hsome
    refine ⟨id, message, ?_, hunheld, deletedId, ?_⟩
    · rw [Function.comp_apply, hrow (eq_of_messageRow hmessage)]
    · rw [hchannel]
      exact List.mem_append_left _ hevent
  · exact hlost change hchange

theorem triple_sweepChannels (events : List Event) (found : List (ChannelId × Nat)) :
    Triple (holdDiscipline S messages) s (Swept events) (sweepChannels messages orgId found)
      fun r => Swept (r.1 ++ events) := by
  induction found generalizing events with
  | nil => exact triple_pure fun _ _ h => h
  | cons channel rest ih =>
    refine Triple.bind (Q := fun _ => Swept events) (triple_statement swept_stable ?_) fun now =>
      (triple_deleteExpired).bind fun removed => (ih _).bind fun r => ?_
    · intro t σ now held h _ _ _
      rw [Transaction.run_nil]
      exact h
    · refine Triple.ite (fun hnone => triple_pure fun t σ h => ?_) fun _ =>
        triple_pure fun t σ h => h.mono fun event hevent => ?_
      · rw [hnone] at h
        exact h
      · simp only [List.mem_append, List.mem_reverse] at hevent ⊢
        tauto

/-- What the commit of a sweep leaves. -/
theorem Swept.keepsHeld (h : Swept events t σ)
    (hcommit : ∀ event ∈ events, event.Honours (t.view σ)) : KeepsHeld σ.rows (t.view σ) := by
  obtain ⟨changes, hreplaced, hlost⟩ := h
  have hchannel (channelId : ChannelId) : t.view σ (.channel channelId) =
      σ.rows (.channel channelId) := by
    refine (hreplaced.view_cases (.channel channelId)).resolve_right fun hchange => ?_
    obtain ⟨id, message, heq, -⟩ := hlost _ hchange
    simp at heq
  intro id message hrow hheld hnone
  rcases hreplaced.view_cases (.message id) with hsame | hchange
  · rw [messageRow, hsame, eq_of_messageRow hrow] at hnone
    cases hnone
  · obtain ⟨id', message', heq, hunheld, deletedId, hevent⟩ := hlost _ hchange
    rw [eq_of_messageRow hrow] at heq
    obtain rfl : message = message' := by simpa using congrArg (fun change => change.2.1) heq
    have hopen : onHold (t.view σ) message.channelId = false := hcommit _ hevent
    rw [onHold, channelRow, hchannel] at hopen
    rcases hheld with hheld | hheld
    · exact hheld hunheld
    · exact absurd (hheld.symm.trans hopen) (by simp)

theorem swept_none : Swept (S := S) [] .none σ :=
  ⟨[], replaced_nil, fun _ h => absurd h List.not_mem_nil⟩

theorem triple_sweepOrg {channels : List ChannelId} :
    Triple (holdDiscipline S messages) s (fun t _ => t = .none)
      (sweepOrg channels messages orgId) fun _ t _ => t = .none := by
  refine triple_transaction (R := fun r => Swept r.1) ?_ (fun _ => swept_stable) ?_
  · refine (triple_query stable_none).bind fun found =>
      (triple_sweepChannels [] found).conseq ?_ fun r t σ h => ?_
    · rintro t σ rfl
      exact swept_none
    · rwa [List.append_nil] at h
  · intro r t σ h _ hcommit
    exact ⟨trivial, h.keepsHeld hcommit, rfl⟩

/-! ### The holds -/

/-- A message that is there stays. -/
def RowKept : Key → Option Row → Option Row → Prop
  | .message _, row, row' => (row.bind Row.message?).isSome → (row'.bind Row.message?).isSome
  | _, _, _ => True

theorem RowKept.refl (key : Key) (row : Option Row) : RowKept key row row := by
  cases key with
  | message id => exact fun hrow => hrow
  | channel | readCursor | messageReaction => trivial

theorem RowKept.trans {key : Key} {row row' row'' : Option Row} (h : RowKept key row row')
    (h' : RowKept key row' row'') : RowKept key row row'' := by
  cases key with
  | message id => exact fun hrow => h' (h hrow)
  | channel | readCursor | messageReaction => trivial

theorem kept_stable : Stable (holdDiscipline S messages) s (Evolved RowKept) :=
  evolved_stable RowKept.refl fun _ _ _ hrely => hrely

theorem keepsHeld_of_evolved (h : Evolved RowKept t σ) : KeepsHeld σ.rows (t.view σ) := by
  intro id message hrow _ hnone
  have hkept : (messageRow (t.view σ) id).isSome :=
    h.row (.message id) (Option.isSome_of_eq_some hrow)
  rw [hnone] at hkept
  cases hkept

/-- An UPDATE that leaves a message a message. -/
theorem triple_update_kept (key : Key) {f : Int → Option Row → Option (Option Row)}
    (hf : ∀ now row row', f now row = some row' → RowKept key row row') :
    Triple (holdDiscipline S messages) s (Evolved RowKept) (update .query key f)
      fun _ => Evolved RowKept := by
  refine triple_update kept_stable ?_ fun _ _ _ _ h _ _ _ => h
  intro t σ now held row h _ hrow _ _
  refine h.run RowKept.trans fun key' row' hwrite => ?_
  obtain ⟨rfl, rfl⟩ := Prod.mk.inj (List.mem_singleton.mp hwrite)
  exact hf now _ _ hrow

/-- A hold: it deletes nothing. -/
theorem triple_hold {α : Type} {body : Procedure (List Event × α)}
    (h : Triple (holdDiscipline S messages) s (Evolved RowKept) body fun _ => Evolved RowKept) :
    Triple (holdDiscipline S messages) s (fun t _ => t = .none) (transaction body)
      fun _ t _ => t = .none := by
  refine triple_transaction (h.conseq ?_ fun _ _ _ h => h) (fun _ => kept_stable) ?_
  · rintro t σ rfl
    exact evolved_none RowKept.refl
  · intro _ t σ h _ _
    exact ⟨trivial, keepsHeld_of_evolved h, rfl⟩

theorem triple_setChannelHold {actor : ChatActor} {held : Bool} :
    Triple (holdDiscipline S messages) s (fun t _ => t = .none)
      (setChannelHold actor channelId held) fun _ t _ => t = .none :=
  triple_hold <| (triple_loadChannel kept_stable).bind fun _ => triple_enforceOnChannel.bind
    fun _ => (triple_update_kept (.channel channelId) fun _ _ _ _ => by trivial).bind
      fun _ => triple_pure fun _ _ h => h

theorem triple_setMessageHold {actor : ChatActor} {messageId : MessageId} {held : Bool} :
    Triple (holdDiscipline S messages) s (fun t _ => t = .none)
      (setMessageHold actor messageId held) fun _ t _ => t = .none := by
  refine triple_hold <| (triple_loadMessageRow kept_stable).bind fun _ =>
    (triple_loadChannel kept_stable).bind fun _ => triple_enforceOnChannel.bind fun _ =>
      (triple_update_kept (.message messageId) ?_).bind fun _ => triple_pure fun _ _ h => h
  intro now row row' hrow _
  obtain ⟨message, -, rfl⟩ := Option.map_eq_some_iff.mp hrow
  rfl

theorem safe_retentionCalls (channels : List ChannelId) (call : RetentionCall) :
    Safe (holdDiscipline S messages) s (retentionCalls channels messages call) .none σ := by
  cases call with
  | sweepOrg orgId => exact (triple_sweepOrg).safe σ
  | setChannelHold actor channelId held => exact (triple_setChannelHold).safe σ
  | setMessageHold actor messageId held => exact (triple_setMessageHold).safe σ

end

instance (messages : List MessageId) (label : Label) (now : Int) (rows : Rows)
    (held : Key → Bool) : Decidable ((honoured messages).statement label now rows held) :=
  match label with
  | .sweep orgId channelId cutoff => inferInstanceAs (Decidable
      (∀ id ∈ gone messages orgId channelId cutoff rows, unheld rows id = true))
  | .query | .advance .. | .react .. => isTrue trivial

instance (messages : List MessageId) (events : List Event) (rows : Rows) :
    Decidable ((honoured messages).commit events rows) :=
  inferInstanceAs (Decidable (∀ event ∈ events, event.Honours rows))

instance (messages : List MessageId) (events log : List Event) :
    Decidable ((honoured messages).history events log) :=
  isTrue trivial

/-- A channel that keeps its messages for a day, with two messages and a reply to the first. -/
def thread : Rows
  | .channel "c" => some (.channel ⟨⟨"o", .public⟩, some "general", none, none, some 1, false⟩)
  | .message "m1" => some (.message ⟨"o", "c", none, some "u", 0, none, none, none⟩)
  | .message "m2" => some (.message ⟨"o", "c", none, some "u", 0, none, none, none⟩)
  | .message "r1" => some (.message ⟨"o", "c", some "m1", some "u", 0, none, none, none⟩)
  | _ => none

def owner : ChatActor := ⟨⟨"o", "u", .owner, [], none⟩⟩

abbrev threadCalls : RetentionCall → Script Key (Option Row) Label Int Event :=
  retentionCalls ["c"] ["m1", "m2", "r1"]

/-- A call and `n` of its statements, two days later. -/
def made (client : Bool) (call : RetentionCall) (n : Nat) :
    List (Bool × Input RetentionCall Int) :=
  (client, .call call) :: List.replicate n (client, .next 172800000)

/-- The messages that are left. -/
def left (sys : System Bool Key (Option Row) Label Int Event) : List MessageId :=
  ["m1", "m2", "r1"].filter fun id => (messageRow sys.world.committed id).isSome

/-- The last statement of a sweep: it commits. -/
def commits : Bool × Input RetentionCall Int := (false, .next 172800000)

/-- The message is there and held, and then gone. -/
def heldAndGone (rows rows' : Rows) (id : MessageId) : Bool :=
  ((messageRow rows id).any fun message =>
    message.heldAt ≠ none || onHold rows message.channelId) && (messageRow rows' id).isNone

theorem not_keepsHeld {rows rows' : Rows} {id : MessageId}
    (h : heldAndGone rows rows' id = true) : ¬KeepsHeld rows rows' := by
  obtain ⟨hheld, hgone⟩ := Bool.and_eq_true_iff.mp h
  obtain ⟨message, hrow, hheld⟩ := (Option.any_eq_true ..).mp hheld
  have hheld : Held rows message := by simpa [Held] using hheld
  exact fun hkeeps => hkeeps id message hrow hheld (Option.isNone_iff_eq_none.mp hgone)

/-- The statements before the commit of a sweep after which the message, held before, is gone. -/
def LosesHeld (actions : List (Bool × Input RetentionCall Int)) (id : MessageId) : Prop :=
  ∃ sys sys' : System Bool Key (Option Row) Label Int Event,
    StepSystem.run (Script.step threadCalls) (initial thread) actions = some sys ∧
    Script.step threadCalls sys commits = some sys' ∧
    heldAndGone sys.world.committed sys'.world.committed id = true ∧
    ¬KeepsHeld sys.world.committed sys'.world.committed

theorem losesHeld_of_run {actions : List (Bool × Input RetentionCall Int)} {id : MessageId}
    (h : ((StepSystem.run (Script.step threadCalls) (initial thread) actions).bind fun sys =>
      (Script.step threadCalls sys commits).map fun sys' =>
        heldAndGone sys.world.committed sys'.world.committed id) = some true) :
    LosesHeld actions id := by
  obtain ⟨sys, hrun, hsome⟩ := Option.bind_eq_some_iff.mp h
  obtain ⟨sys', hstep, hgone⟩ := Option.map_eq_some_iff.mp hsome
  exact ⟨sys, sys', hrun, hstep, hgone, not_keepsHeld hgone⟩

end Chat
end TaskFlow
