import TaskFlow.RoomAccess

/-! # The gateway and its revocations

What an instance of the gateway keeps of its sockets, and what it does about an
outbox row that may have taken access away.  The sweep of a socket looks at the
socket's own record of its rooms: a board socket leaves the board of a recorded
id, a chat socket the channel of it.
-/
namespace TaskFlow
namespace Gateway
open Policy Tenancy Rooms

/-- From the verified handshake. -/
structure Identity where
  userId : UserId
  sessionId : String
  deriving DecidableEq, Repr

structure Socket where
  identity : Identity
  /-- `socket.data.rooms`: the rooms granted, each with its organization. -/
  rooms : List (String × OrgId) := []
  /-- The rooms Socket.io has the socket in. -/
  joined : List Room := []
  deriving DecidableEq, Repr

/-- The sockets of boards and those of `/chat` are different objects. -/
inductive Namespace where
  | io
  | chat
  deriving DecidableEq, Repr

/-- `boardRoom` and `channelRoom`. -/
def Namespace.room : Namespace → String → Room
  | .io => .board
  | .chat => .channel

def roomId : Room → String
  | .board boardId => boardId
  | .channel channelId => channelId
  | .call callId => callId

/-- `Map.set`. -/
def setRoom (rooms : List (String × OrgId)) (id : String) (orgId : OrgId) :
    List (String × OrgId) :=
  if rooms.any fun entry => entry.1 = id then
    rooms.map fun entry => if entry.1 = id then (id, orgId) else entry
  else rooms ++ [(id, orgId)]

/-- `socket.join`. -/
def Socket.enter (socket : Socket) (room : Room) : Socket :=
  { socket with joined := room :: socket.joined }

def Socket.record (socket : Socket) (id : String) (orgId : OrgId) : Socket :=
  { socket with rooms := setRoom socket.rooms id orgId }

/-- What an authorized join of a board, a channel or a call does. -/
def Socket.join (socket : Socket) (room : Room) (orgId : OrgId) : Socket :=
  (socket.enter room).record (roomId room) orgId

/-- `leaveRoom` and `leaveChannel`. -/
def Socket.leave (socket : Socket) (ns : Namespace) (id : String) : Socket :=
  { socket with
    rooms := socket.rooms.filter fun entry => entry.1 ≠ id
    joined := socket.joined.filter fun room => room ≠ ns.room id }

/-! ### What a row asks for -/

inductive SessionEndReason where
  | session_revoked
  | token_reuse_detected
  deriving DecidableEq, Repr

inductive RevocationMessage where
  | session (sessionId : String) (reason : SessionEndReason)
  | member_removed (orgId : OrgId) (userId : UserId)
  | recheck_user (orgId : OrgId) (userId : UserId)
  | recheck_org (orgId : OrgId)
  deriving DecidableEq, Repr

/-- A field of a payload. -/
inductive Field where
  | text (value : String)
  | other
  deriving DecidableEq, Repr

structure OutboxRow where
  name : String
  orgId : OrgId
  /-- `none` where the payload is not an object. -/
  payload : Option (List (String × Field))
  deriving DecidableEq, Repr

/-- A field that is a text and not empty. -/
def textField (fields : List (String × Field)) (key : String) : Option String :=
  match fields.lookup key with
  | some (.text value) => if value.length > 0 then some value else none
  | _ => none

/-- What any instance should do about the row. -/
def revocationOf (row : OutboxRow) : Option RevocationMessage :=
  row.payload.bind fun fields =>
    match row.name with
    | "session.revoked" => (textField fields "sessionId").map (.session · .session_revoked)
    | "session.token_reuse_detected" =>
      (textField fields "sessionId").map (.session · .token_reuse_detected)
    | "member.removed" => (textField fields "userId").map (.member_removed row.orgId)
    | "member.role_changed" => (textField fields "userId").map (.recheck_user row.orgId)
    | "grant.revoked" =>
      -- a team is not expanded here: everyone in the organization is looked at
      if fields.lookup "subjectType" = some (.text "team") then some (.recheck_org row.orgId)
      else
        match textField fields "subjectId" with
        | none => some (.recheck_org row.orgId)
        | some userId => some (.recheck_user row.orgId userId)
    | _ => none

/-! ### The sweep of a socket -/

/-- The decision of the join again, where a failure counts as a refusal. -/
def stillAllowed (db : Db) (now : Int) (ns : Namespace) (userId : UserId) (orgId : OrgId)
    (id : String) : Bool :=
  match authorize db now userId orgId (ns.room id) with
  | .ok authorization => authorization.allowed
  | .error _ => false

/-- Leaves, in order, the recorded rooms that `drops` selects. -/
def Socket.sweep (socket : Socket) (ns : Namespace) (drops : String × OrgId → Bool) : Socket :=
  socket.rooms.foldl (fun swept entry => if drops entry then swept.leave ns entry.1 else swept)
    socket

/-- `recheck` and `recheckChannels`. -/
def recheck (db : Db) (now : Int) (ns : Namespace) (orgId : OrgId) (socket : Socket) : Socket :=
  socket.sweep ns fun entry =>
    entry.2 = orgId && !stillAllowed db now ns socket.identity.userId entry.2 entry.1

/-- What a message does to one socket; `none` where it closes the connection. -/
def handle (db : Db) (now : Int) (ns : Namespace) (message : RevocationMessage)
    (socket : Socket) : Option Socket :=
  match message with
  | .session sessionId _ => if socket.identity.sessionId = sessionId then none else some socket
  | .member_removed orgId userId =>
    if socket.identity.userId = userId then some (socket.sweep ns fun entry => entry.2 = orgId)
    else some socket
  | .recheck_user orgId userId =>
    if socket.identity.userId = userId then some (recheck db now ns orgId socket)
    else some socket
  | .recheck_org orgId => some (recheck db now ns orgId socket)

/-- The sockets of both namespaces, on all instances. -/
structure Sockets where
  io : List Socket
  chat : List Socket

def Sockets.of (sockets : Sockets) : Namespace → List Socket
  | .io => sockets.io
  | .chat => sockets.chat

def applyRevocation (db : Db) (now : Int) (message : RevocationMessage)
    (sockets : List Socket) : List Socket :=
  sockets.filterMap (handle db now .io message)

def applyChatRevocation (db : Db) (now : Int) (message : RevocationMessage)
    (sockets : List Socket) : List Socket :=
  sockets.filterMap (handle db now .chat message)

def Sockets.revoke (sockets : Sockets) (db : Db) (now : Int) (message : RevocationMessage) :
    Sockets where
  io := applyRevocation db now message sockets.io
  chat := applyChatRevocation db now message sockets.chat

/-- What the gateway does about one row of the outbox. -/
def dispatch (db : Db) (now : Int) (sockets : Sockets) (row : OutboxRow) : Sockets :=
  match revocationOf row with
  | none => sockets
  | some message => sockets.revoke db now message

/-- The rows of a change, one after the other. -/
def dispatchAll (db : Db) (now : Int) (sockets : Sockets) (rows : List OutboxRow) : Sockets :=
  rows.foldl (dispatch db now) sockets

/-! ### What a sweep leaves -/

variable {db : Db} {now : Int} {ns : Namespace} {socket : Socket} {room : Room}

@[simp] theorem roomId_room (ns : Namespace) (id : String) : roomId (ns.room id) = id := by
  cases ns <;> rfl

@[simp] theorem leave_identity (socket : Socket) (ns : Namespace) (id : String) :
    (socket.leave ns id).identity = socket.identity := rfl

@[simp] theorem mem_leave_joined {id : String} :
    room ∈ (socket.leave ns id).joined ↔ room ∈ socket.joined ∧ room ≠ ns.room id := by
  simp [Socket.leave]

/-- A loop that leaves the rooms of the entries it selects. -/
theorem mem_foldl_leave (drops : String × OrgId → Bool) (entries : List (String × OrgId)) :
    room ∈ (entries.foldl (fun swept entry =>
        if drops entry then swept.leave ns entry.1 else swept) socket).joined ↔
      room ∈ socket.joined ∧ ∀ entry ∈ entries, drops entry = true → room ≠ ns.room entry.1 := by
  induction entries generalizing socket with
  | nil => simp
  | cons entry rest ih =>
    rw [List.foldl_cons, ih, List.forall_mem_cons]
    cases hdrops : drops entry <;> simp [and_assoc]

theorem foldl_leave_identity (drops : String × OrgId → Bool) (entries : List (String × OrgId)) :
    (entries.foldl (fun swept entry =>
        if drops entry then swept.leave ns entry.1 else swept) socket).identity =
      socket.identity := by
  induction entries generalizing socket with
  | nil => rfl
  | cons entry rest ih =>
    rw [List.foldl_cons, ih]
    split <;> rfl

theorem mem_sweep_joined {drops : String × OrgId → Bool} :
    room ∈ (socket.sweep ns drops).joined ↔ room ∈ socket.joined ∧
      ∀ entry ∈ socket.rooms, drops entry = true → room ≠ ns.room entry.1 :=
  mem_foldl_leave drops socket.rooms

@[simp] theorem sweep_identity (socket : Socket) (ns : Namespace)
    (drops : String × OrgId → Bool) :
    (socket.sweep ns drops).identity = socket.identity :=
  foldl_leave_identity drops socket.rooms

theorem stillAllowed_iff {userId : UserId} {orgId : OrgId} {id : String} :
    stillAllowed db now ns userId orgId id = true ↔ MayJoin db now userId orgId (ns.room id) := by
  unfold stillAllowed MayJoin Joins
  cases authorize db now userId orgId (ns.room id) <;> simp

theorem revoke_of (sockets : Sockets) (message : RevocationMessage) (ns : Namespace) :
    (sockets.revoke db now message).of ns = (sockets.of ns).filterMap (handle db now ns message) := by
  cases ns <;> rfl

theorem dispatchAll_eq (sockets : Sockets) (rows : List OutboxRow) :
    dispatchAll db now sockets rows =
      (rows.filterMap revocationOf).foldl (fun sockets => sockets.revoke db now) sockets := by
  unfold dispatchAll
  induction rows generalizing sockets with
  | nil => rfl
  | cons row rest ih =>
    rw [List.foldl_cons, ih, dispatch]
    cases hrow : revocationOf row with
    | none => rw [List.filterMap_cons_none hrow]
    | some message => rw [List.filterMap_cons_some hrow, List.foldl_cons]

/-- The message names the user in the organization, or the whole organization. -/
def Covers (message : RevocationMessage) (orgId : OrgId) (userId : UserId) : Prop :=
  match message with
  | .session _ _ => False
  | .member_removed org user => org = orgId ∧ user = userId
  | .recheck_user org user => org = orgId ∧ user = userId
  | .recheck_org org => org = orgId

/-- The room is the one a sweep leaves for an entry under the organization. -/
def OnRecord (ns : Namespace) (socket : Socket) (orgId : OrgId) (room : Room) : Prop :=
  ∃ id, room = ns.room id ∧ (id, orgId) ∈ socket.rooms

/-- A socket comes out of a message as the same user's, in no other rooms. -/
theorem handle_some {message : RevocationMessage} {swept : Socket}
    (h : handle db now ns message socket = some swept) :
    swept.identity = socket.identity ∧ ∀ room ∈ swept.joined, room ∈ socket.joined := by
  have hsweep : ∀ drops, (socket.sweep ns drops).identity = socket.identity ∧
      ∀ room ∈ (socket.sweep ns drops).joined, room ∈ socket.joined :=
    fun drops => ⟨sweep_identity socket ns drops, fun room hroom => (mem_sweep_joined.mp hroom).1⟩
  cases message with
  | session sessionId reason =>
    simp only [handle] at h
    split_ifs at h
    obtain rfl := Option.some.inj h
    exact ⟨rfl, fun _ hroom => hroom⟩
  | member_removed orgId userId =>
    simp only [handle] at h
    split_ifs at h <;> obtain rfl := Option.some.inj h
    · exact hsweep _
    · exact ⟨rfl, fun _ hroom => hroom⟩
  | recheck_user orgId userId =>
    simp only [handle] at h
    split_ifs at h <;> obtain rfl := Option.some.inj h
    · exact hsweep _
    · exact ⟨rfl, fun _ hroom => hroom⟩
  | recheck_org orgId =>
    obtain rfl := Option.some.inj h
    exact hsweep _

/-- A sweep for the organization leaves a room that is no longer allowed exactly
where it is on record. -/
theorem mem_sweep_refused {drops : String × OrgId → Bool} {orgId : OrgId}
    (horg : ∀ entry, drops entry = true → entry.2 = orgId)
    (hdrops : ∀ id, room = ns.room id → drops (id, orgId) = true) :
    room ∈ (socket.sweep ns drops).joined ↔
      room ∈ socket.joined ∧ ¬ OnRecord ns socket orgId room := by
  rw [mem_sweep_joined]
  refine and_congr_right fun _ => ⟨?_, ?_⟩
  · rintro hnone ⟨id, hroom, hmem⟩
    exact hnone _ hmem (hdrops id hroom) hroom
  · rintro hnot ⟨id, org⟩ hmem hentry hroom
    obtain rfl := horg _ hentry
    exact hnot ⟨id, hroom, hmem⟩

/-- What a message does to a socket of a user it covers, and to a room that the
user may not join. -/
theorem handle_covers {message : RevocationMessage} {orgId : OrgId}
    (hcovers : Covers message orgId socket.identity.userId)
    (hnot : ¬ MayJoin db now socket.identity.userId orgId room) :
    ∃ swept, handle db now ns message socket = some swept ∧
      (room ∈ swept.joined ↔ room ∈ socket.joined ∧ ¬ OnRecord ns socket orgId room) := by
  have hrecheck : room ∈ (recheck db now ns orgId socket).joined ↔
      room ∈ socket.joined ∧ ¬ OnRecord ns socket orgId room := by
    refine mem_sweep_refused (fun entry hentry => ?_) (fun id hroom => ?_)
    · exact of_decide_eq_true (Bool.and_eq_true_iff.mp hentry).1
    · subst hroom
      have hstill := mt stillAllowed_iff.mp hnot
      simp [hstill]
  cases message with
  | session sessionId reason => exact absurd hcovers id
  | member_removed org user =>
    obtain ⟨rfl, rfl⟩ := hcovers
    refine ⟨_, if_pos rfl, mem_sweep_refused (fun entry hentry => ?_) fun id _ => ?_⟩
    · exact of_decide_eq_true hentry
    · exact decide_eq_true rfl
  | recheck_user org user =>
    obtain ⟨rfl, rfl⟩ := hcovers
    exact ⟨_, if_pos rfl, hrecheck⟩
  | recheck_org org =>
    obtain rfl := hcovers
    exact ⟨_, rfl, hrecheck⟩

/-! ### The record after completed joins -/

theorem mem_setRoom {rooms : List (String × OrgId)} {id : String} {orgId : OrgId}
    {entry : String × OrgId} : entry ∈ setRoom rooms id orgId ↔
      entry = (id, orgId) ∨ entry.1 ≠ id ∧ entry ∈ rooms := by
  unfold setRoom
  split_ifs with hany
  · obtain ⟨old, hold, hid⟩ := List.any_eq_true.mp hany
    rw [List.mem_map]
    constructor
    · rintro ⟨e, he, rfl⟩
      by_cases hkey : e.1 = id <;> simp [hkey, he]
    · rintro (rfl | ⟨hkey, hmem⟩)
      · exact ⟨old, hold, if_pos (of_decide_eq_true hid)⟩
      · exact ⟨entry, hmem, if_neg hkey⟩
  · have hfresh : ∀ e ∈ rooms, e.1 ≠ id := fun e he hkey =>
      hany (List.any_eq_true.mpr ⟨e, he, decide_eq_true hkey⟩)
    rw [List.mem_append, List.mem_singleton, or_comm]
    exact or_congr_right ⟨fun h => ⟨hfresh entry h, h⟩, And.right⟩

/-- Completed joins, each room under its organization. -/
def Socket.joinAll (socket : Socket) (orgOf : Room → OrgId) (joins : List Room) : Socket :=
  joins.foldl (fun socket room => socket.join room (orgOf room)) socket

/-- Where no two of the rooms have one id, every room joined is on the record. -/
theorem mem_rooms_joinAll {orgOf : Room → OrgId} {joins all : List Room}
    (hids : ∀ room ∈ all, ∀ other ∈ all, roomId room = roomId other → room = other)
    (hsub : ∀ room ∈ joins, room ∈ all)
    (hsocket : ∀ room ∈ socket.joined, room ∈ all ∧ (roomId room, orgOf room) ∈ socket.rooms) :
    ∀ room ∈ (socket.joinAll orgOf joins).joined,
      room ∈ all ∧ (roomId room, orgOf room) ∈ (socket.joinAll orgOf joins).rooms := by
  induction joins generalizing socket with
  | nil => exact hsocket
  | cons next rest ih =>
    apply ih (fun room hroom => hsub room (List.mem_cons_of_mem _ hroom))
    intro room hroom
    rcases List.mem_cons.mp hroom with rfl | hold
    · exact ⟨hsub room List.mem_cons_self, mem_setRoom.mpr (.inl rfl)⟩
    · obtain ⟨hall, hmem⟩ := hsocket room hold
      refine ⟨hall, mem_setRoom.mpr ?_⟩
      by_cases hid : roomId room = roomId next
      · rw [hids room hall next (hsub next List.mem_cons_self) hid]
        exact .inl rfl
      · exact .inr ⟨hid, hmem⟩

/-- The rooms a socket of the namespace may ask for. -/
def Namespace.admits : Namespace → Room → Prop
  | .io, .board _ => True
  | .chat, .channel _ => True
  | .chat, .call _ => True
  | _, _ => False

/-- **Of the rooms of completed joins, the calls are those that no sweep leaves.** -/
theorem onRecord_joinAll_iff {orgOf : Room → OrgId} {joins : List Room} {identity : Identity}
    (hids : ∀ room ∈ joins, ∀ other ∈ joins, roomId room = roomId other → room = other)
    (hadmits : ns.admits room)
    (hroom : room ∈ (Socket.joinAll { identity } orgOf joins).joined) :
    OnRecord ns (Socket.joinAll { identity } orgOf joins) (orgOf room) room ↔
      ∀ callId, room ≠ .call callId := by
  obtain ⟨-, hmem⟩ := mem_rooms_joinAll hids (fun _ h => h)
    (fun _ h => absurd h List.not_mem_nil) room hroom
  constructor
  · rintro ⟨id, rfl, -⟩ callId hcall
    cases ns <;> cases hcall
  · intro hnot
    refine ⟨roomId room, ?_, hmem⟩
    cases ns <;> cases room <;> first | rfl | exact hadmits.elim | exact absurd rfl (hnot _)

theorem onRecord_channel :
    OnRecord .chat (Socket.joinAll ⟨⟨"u1", "s1"⟩, [], []⟩ (fun _ => "o1") [.channel "c1"]) "o1"
      (.channel "c1") ↔ ∀ callId, Room.channel "c1" ≠ .call callId :=
  onRecord_joinAll_iff (by simp) trivial (List.mem_singleton.mpr rfl)

end Gateway
end TaskFlow
