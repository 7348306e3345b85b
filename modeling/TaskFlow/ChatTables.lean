import Mathlib.Data.String.Basic
import TaskFlow.RichText
import TaskFlow.Rooms
import TaskFlow.ScriptLogic

/-! # Channels and messages

The rows that the services of chat read and write, the events they emit, and what each of them
asks first: that the channel is there, that the caller may do it in the channel, and that the
message is there, not deleted, and in this channel.
-/
namespace TaskFlow
namespace Chat
open ReadCommitted ReadCommitted.Script ReadCommitted.Procedure Policy Tenancy

abbrev MessageId := String

abbrev Emoji := RichText.Text

/-- A row of `chat.channels`. -/
structure Channel extends ChannelRow where
  name : Option String
  topic : Option String
  archivedAt : Option Int
  retentionDays : Option Nat
  retentionHold : Bool
  deriving DecidableEq, Repr

/-- A row of `chat.messages` but for its key and its text. -/
structure Message where
  orgId : OrgId
  channelId : ChannelId
  parentMessageId : Option MessageId
  authorId : Option UserId
  createdAt : Int
  deletedAt : Option Int
  heldAt : Option Int
  heldBy : Option UserId
  deriving DecidableEq, Repr

/-- A row of `chat.read_cursors` but for its key. -/
structure ReadCursor where
  orgId : OrgId
  lastReadMessageId : MessageId
  lastReadAt : Int
  deriving DecidableEq, Repr

/-- A row of `chat.message_reactions` but for its key. -/
structure MessageReaction where
  orgId : OrgId
  channelId : ChannelId
  emoji : Emoji
  deriving DecidableEq, Repr

/-- The primary keys. -/
inductive Key where
  | channel (id : ChannelId)
  | message (id : MessageId)
  | readCursor (channelId : ChannelId) (userId : UserId)
  | messageReaction (messageId : MessageId) (userId : UserId)
  deriving DecidableEq, Repr

inductive Row where
  | channel (row : Channel)
  | message (row : Message)
  | readCursor (row : ReadCursor)
  | messageReaction (row : MessageReaction)
  deriving DecidableEq, Repr

abbrev Rows := Key → Option Row

def Row.channel? : Row → Option Channel
  | .channel row => some row
  | _ => none

def Row.message? : Row → Option Message
  | .message row => some row
  | _ => none

def Row.readCursor? : Row → Option ReadCursor
  | .readCursor row => some row
  | _ => none

def Row.messageReaction? : Row → Option MessageReaction
  | .messageReaction row => some row
  | _ => none

def channelRow (rows : Rows) (id : ChannelId) : Option Channel :=
  (rows (.channel id)).bind Row.channel?

def messageRow (rows : Rows) (id : MessageId) : Option Message :=
  (rows (.message id)).bind Row.message?

def cursorRow (rows : Rows) (channelId : ChannelId) (userId : UserId) : Option ReadCursor :=
  (rows (.readCursor channelId userId)).bind Row.readCursor?

def reactionRow (rows : Rows) (messageId : MessageId) (userId : UserId) : Option MessageReaction :=
  (rows (.messageReaction messageId userId)).bind Row.messageReaction?

/-- The events. -/
inductive Event where
  | channelReadAdvanced (channelId : ChannelId) (userId : UserId) (lastReadMessageId : MessageId)
  | messageReactionAdded (messageId : MessageId) (channelId : ChannelId) (userId : UserId)
    (emoji : Emoji)
  | messageReactionRemoved (messageId : MessageId) (channelId : ChannelId) (userId : UserId)
    (emoji : Emoji)
  /-- By the retention policy. -/
  | messageDeleted (messageId : MessageId) (channelId : ChannelId)
  | legalHoldChanged (channelId : ChannelId) (messageId : Option MessageId) (held : Bool)
  deriving DecidableEq, Repr

/-- The writes of rows by the services, and every other statement. -/
inductive Label where
  | query
  | advance (channelId : ChannelId) (userId : UserId) (messageId : MessageId)
  /-- The user's reaction is written, which was read before. -/
  | react (orgId : OrgId) (messageId : MessageId) (userId : UserId) (current : Option Emoji)
  | sweep (orgId : OrgId) (channelId : ChannelId) (cutoff : Int)
  deriving DecidableEq, Repr

/-- A statement is told the time, in milliseconds. -/
abbrev Procedure (α : Type) := ReadCommitted.Procedure Key (Option Row) Label Int Event α

structure ChatActor where
  subject : Subject
  deriving DecidableEq, Repr

def orgOf (actor : ChatActor) : OrgId := actor.subject.orgId

def userOf (actor : ChatActor) : UserId := actor.subject.userId

/-! ### What a service asks first -/

/-- The rows of other organizations are not seen. -/
def loadChannel (orgId : OrgId) (channelId : ChannelId) : Procedure Channel := do
  let found ← select .query fun rows =>
    (channelRow rows channelId).filter fun channel => channel.orgId = orgId
  ofOption found

def enforceOnChannel (actor : ChatActor) (permission : Permission) (channelId : ChannelId)
    (channel : Channel) : Procedure Unit :=
  require (can actor.subject permission
    (some (channelTarget channelId channel.toChannelRow))).allowed

def assertMessageInChannel (orgId : OrgId) (channelId : ChannelId) (messageId : MessageId) :
    Procedure Unit := do
  let found ← select .query fun rows =>
    (messageRow rows messageId).filter fun message => message.orgId = orgId
  require (found.any fun message => message.channelId = channelId ∧ message.deletedAt = none)

def loadMessageRow (orgId : OrgId) (messageId : MessageId) : Procedure Message := do
  let found ← select .query fun rows =>
    (messageRow rows messageId).filter fun message => message.orgId = orgId
  ofOption found

section
variable {S : Type} {D : Discipline S Key (Option Row) Label Int Event} {s : S}
  {P : Assertion S Key (Option Row) Event}

theorem triple_loadChannel (hP : Stable D s P) {orgId : OrgId} {channelId : ChannelId} :
    Triple D s P (loadChannel orgId channelId) fun _ => P :=
  (triple_select (Q := fun _ => P) hP fun _ _ h _ _ _ _ => h).bind fun _ =>
    triple_ofOption fun _ _ _ _ h => h

theorem triple_enforceOnChannel {actor : ChatActor} {permission : Permission}
    {channelId : ChannelId} {channel : Channel} :
    Triple D s P (enforceOnChannel actor permission channelId channel) fun _ => P :=
  triple_require fun _ _ h _ => h

theorem triple_assertMessageInChannel (hP : Stable D s P) {orgId : OrgId} {channelId : ChannelId}
    {messageId : MessageId} :
    Triple D s P (assertMessageInChannel orgId channelId messageId) fun _ => P :=
  (triple_select (Q := fun _ => P) hP fun _ _ h _ _ _ _ => h).bind fun _ =>
    triple_require fun _ _ h _ => h

theorem triple_loadMessageRow (hP : Stable D s P) {orgId : OrgId} {messageId : MessageId} :
    Triple D s P (loadMessageRow orgId messageId) fun _ => P :=
  (triple_select (Q := fun _ => P) hP fun _ _ h _ _ _ _ => h).bind fun _ =>
    triple_ofOption fun _ _ _ _ h => h

end

/-! ### A channel -/

/-- A public channel with two messages. -/
def general : Rows
  | .channel "c" => some (.channel ⟨⟨"o", .public⟩, some "general", none, none, none, false⟩)
  | .message "m1" => some (.message ⟨"o", "c", none, some "u", 1, none, none, none⟩)
  | .message "m2" => some (.message ⟨"o", "c", none, some "u", 2, none, none, none⟩)
  | _ => none

def participant : ChatActor := ⟨⟨"o", "u", .member, [], none⟩⟩

end Chat
end TaskFlow
