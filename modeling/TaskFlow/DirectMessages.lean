import Mathlib.Data.List.Dedup
import Mathlib.Data.List.Perm.Subperm
import TaskFlow.ChatTables
import TaskFlow.StepSystem

/-! # One conversation

The participants of a direct message are no column, so no index says that there is one channel for
each set of them.  `openDirectMessage` looks for it, in three queries, and otherwise creates one;
what it creates is seen by others when it commits.

Where a lookup would still find nothing when a new channel is committed, there is at most one
direct message for each set of participants, and every call returns it (`oneEach_of_current`).  Two
calls that both look before either commits open two (`opened_twice`).
-/
namespace TaskFlow
namespace DirectMessages
open Policy Tenancy
open Chat (Channel)

/-- A row of `chat.channels`. -/
structure ChannelEntry where
  id : ChannelId
  channel : Channel
  deriving DecidableEq, Repr

/-- A row of `identity.memberships`. -/
structure MembershipRow where
  orgId : OrgId
  userId : UserId
  status : Tenancy.MembershipStatus
  deriving DecidableEq, Repr

/-- What is committed, in the order of the tables. -/
structure Tables where
  channels : List ChannelEntry
  relationshipTuples : List TupleRow
  memberships : List MembershipRow
  deriving DecidableEq, Repr

inductive Event where
  | channelCreated (channelId : ChannelId) (type : ChannelType) (memberCount : Nat)
  | channelMemberAdded (channelId : ChannelId) (userId : UserId)
  deriving DecidableEq, Repr

/-- A call: who makes it, and whom it names. -/
structure Call where
  orgId : OrgId
  self : UserId
  userIds : List UserId
  deriving DecidableEq, Repr

/-- A `Set`, in the order its elements were first added. -/
def distinct (userIds : List UserId) : List UserId := userIds.reverse.dedup.reverse

/-- The caller is always a participant. -/
def Call.participants (call : Call) : List UserId := distinct (call.self :: call.userIds)

def Call.type (call : Call) : ChannelType :=
  if call.participants.length = 2 then .dm else .group_dm

/-! ### The queries -/

/-- The tuple says that a user is in a channel. -/
def isChannelMember (orgId : OrgId) (tuple : TupleRow) : Bool :=
  tuple.orgId = orgId ∧ tuple.subjectType = .user ∧ tuple.relation = some .member ∧
    tuple.objectType = .channel

def channelIdsForMember (tables : Tables) (orgId : OrgId) (userId : UserId) : List ChannelId :=
  (tables.relationshipTuples.filter fun tuple =>
    isChannelMember orgId tuple ∧ tuple.subjectId = userId).map TupleRow.objectId

/-- A direct message that is not archived. -/
def isLive (orgId : OrgId) (entry : ChannelEntry) : Bool :=
  entry.channel.orgId = orgId ∧ entry.channel.type ∈ [.dm, .group_dm] ∧
    entry.channel.archivedAt = none

def liveAmong (tables : Tables) (orgId : OrgId) (candidateIds : List ChannelId) :
    List ChannelId :=
  (tables.channels.filter fun entry => entry.id ∈ candidateIds ∧ isLive orgId entry).map
    ChannelEntry.id

def membersOf (tables : Tables) (orgId : OrgId) (channelId : ChannelId) : List UserId :=
  (tables.relationshipTuples.filter fun tuple =>
    isChannelMember orgId tuple ∧ tuple.objectId = channelId).map TupleRow.subjectId

/-- The members of a channel are a set that is as large as the other and has all of it. -/
def sameMembers (members participants : List UserId) : Bool :=
  members ≠ [] ∧ members.dedup.length = participants.length ∧ ∀ userId ∈ participants,
    userId ∈ members

/-- The first of the channels with these members. -/
def pickExact (tables : Tables) (call : Call) (channelIds : List ChannelId) :
    Option ChannelId :=
  channelIds.find? fun id => sameMembers (membersOf tables call.orgId id) call.participants

/-- The three queries, made at once. -/
def findDirectMessage (tables : Tables) (call : Call) : Option ChannelId :=
  pickExact tables call
    (liveAmong tables call.orgId (channelIdsForMember tables call.orgId call.self))

/-- Everyone named is an active member of the organization. -/
def areMembers (tables : Tables) (call : Call) : Bool :=
  (tables.memberships.filter fun row => row.orgId = call.orgId ∧
    row.userId ∈ call.participants ∧ row.status = .active).length = call.participants.length

/-! ### The rows of a new channel -/

def newChannel (call : Call) (channelId : ChannelId) : ChannelEntry :=
  ⟨channelId, ⟨⟨call.orgId, call.type⟩, none, none, none, none, false⟩⟩

def memberTuple (orgId : OrgId) (channelId : ChannelId) (tupleId : String) (userId : UserId) :
    TupleRow where
  id := tupleId
  orgId := orgId
  subjectType := .user
  subjectId := userId
  relation := some .member
  objectType := .channel
  objectId := channelId

/-- The tuples of the participants. -/
def memberTuples (call : Call) (channelId : ChannelId) (tupleIds : List String) :
    List TupleRow :=
  (tupleIds.zip call.participants).map fun named =>
    memberTuple call.orgId channelId named.1 named.2

def Tables.created (tables : Tables) (call : Call) (channelId : ChannelId)
    (tupleIds : List String) : Tables :=
  { tables with
    channels := tables.channels ++ [newChannel call channelId]
    relationshipTuples := tables.relationshipTuples ++ memberTuples call channelId tupleIds }

def createdEvents (call : Call) (channelId : ChannelId) : List Event :=
  .channelCreated channelId call.type call.participants.length ::
    call.participants.map (.channelMemberAdded channelId)

/-! ### Calls side by side -/

/-- Where a call is. -/
inductive Phase where
  | idle
  | begun (call : Call)
  /-- The channels the caller is in. -/
  | candidates (call : Call) (ids : List ChannelId)
  /-- The direct messages among them. -/
  | live (call : Call) (ids : List ChannelId)
  | found (call : Call) (channelId : ChannelId)
  /-- There is none. -/
  | absent (call : Call)
  /-- The rows of a new one are inserted. -/
  | inserted (call : Call) (channelId : ChannelId) (tupleIds : List String)
  deriving DecidableEq, Repr

inductive Statement where
  | call (call : Call)
  | channelIdsForMember
  /-- The rows come in some order. -/
  | selectChannels (ids : List ChannelId)
  | membersOfChannels
  /-- The ids are new. -/
  | insert (channelId : ChannelId) (tupleIds : List String)
  | commit
  /-- The call fails, or the connection is lost. -/
  | abort
  deriving DecidableEq, Repr

/-- What a call has returned. -/
structure Returned where
  call : Call
  channelId : ChannelId
  created : Bool
  deriving DecidableEq, Repr

structure State (S : Type) where
  tables : Tables
  phase : S → Phase
  /-- The channel ids that have been made up, by `newId`. -/
  newIds : List ChannelId
  returned : List Returned
  outbox : List Event

def initial {S : Type} (tables : Tables) : State S := ⟨tables, fun _ => .idle, [], [], []⟩

variable {S : Type} [DecidableEq S]

def State.at (state : State S) (s : S) (phase : Phase) : State S :=
  { state with phase := Function.update state.phase s phase }

/-- Nothing has this id. -/
def State.fresh (state : State S) (channelId : ChannelId) : Bool :=
  channelId ∉ state.newIds ∧ channelId ∉ state.tables.channels.map ChannelEntry.id ∧
    ∀ tuple ∈ state.tables.relationshipTuples, tuple.objectId ≠ channelId

/-- Session `a.1` takes its next statement. -/
def step (state : State S) (a : S × Statement) : Option (State S) :=
  match state.phase a.1, a.2 with
  | .idle, .call call =>
    if call.participants.length < 2 then none else some (state.at a.1 (.begun call))
  | .idle, _ => none
  | _, .abort => some (state.at a.1 .idle)
  | .begun call, .channelIdsForMember =>
    match channelIdsForMember state.tables call.orgId call.self with
    | [] => some (state.at a.1 (.absent call))
    | ids => some (state.at a.1 (.candidates call ids))
  | .candidates call candidateIds, .selectChannels ids =>
    if ids.Perm (liveAmong state.tables call.orgId candidateIds) then
      if ids = [] then some (state.at a.1 (.absent call)) else some (state.at a.1 (.live call ids))
    else none
  | .live call ids, .membersOfChannels =>
    match pickExact state.tables call ids with
    | none => some (state.at a.1 (.absent call))
    | some channelId => some (state.at a.1 (.found call channelId))
  | .absent call, .insert channelId tupleIds =>
    if areMembers state.tables call ∧ state.fresh channelId ∧
      tupleIds.length = call.participants.length then
      some { state.at a.1 (.inserted call channelId tupleIds) with
        newIds := channelId :: state.newIds }
    else none
  | .found call channelId, .commit => some { state.at a.1 .idle with
      returned := ⟨call, channelId, false⟩ :: state.returned }
  | .inserted call channelId tupleIds, .commit => some { state.at a.1 .idle with
      tables := state.tables.created call channelId tupleIds
      returned := ⟨call, channelId, true⟩ :: state.returned
      outbox := state.outbox ++ createdEvents call channelId }
  | _, _ => none

/-! ### One for each set of participants -/

/-- A direct message that is not archived, between exactly these participants. -/
def IsDirectMessage (tables : Tables) (orgId : OrgId) (channelId : ChannelId)
    (participants : List UserId) : Prop :=
  (∃ entry ∈ tables.channels, entry.id = channelId ∧ isLive orgId entry) ∧
    ∀ userId, userId ∈ membersOf tables orgId channelId ↔ userId ∈ participants

/-- There are not two for the same participants. -/
def OneEach (tables : Tables) : Prop :=
  ∀ orgId channelId channelId' participants, IsDirectMessage tables orgId channelId participants →
    IsDirectMessage tables orgId channelId' participants → channelId = channelId'

/-- Where a new channel is committed, a lookup still finds nothing. -/
def Current (state : State S) (a : S × Statement) : Prop :=
  match state.phase a.1, a.2 with
  | .inserted call _ _, .commit => findDirectMessage state.tables call = none
  | _, _ => True

section
variable {tables : Tables} {call : Call} {orgId : OrgId} {channelId channelId' : ChannelId}
  {participants : List UserId} {tupleIds : List String}

theorem nodup_participants (call : Call) : call.participants.Nodup :=
  List.nodup_reverse.mpr (List.nodup_dedup _)

theorem self_mem_participants (call : Call) : call.self ∈ call.participants := by
  simp [Call.participants, distinct]

/-- Sets of the same size, one of which has all of the other. -/
theorem sameMembers_iff {members : List UserId} (hnodup : participants.Nodup)
    (hsome : participants ≠ []) :
    sameMembers members participants = true ↔
      ∀ userId, userId ∈ members ↔ userId ∈ participants := by
  rw [sameMembers, decide_eq_true_eq]
  constructor
  · rintro ⟨-, hlength, hall⟩ userId
    have hsub : participants ⊆ members.dedup := fun userId hmem =>
      List.mem_dedup.mpr (hall userId hmem)
    have hperm : participants.Perm members.dedup :=
      (List.subperm_of_subset hnodup hsub).perm_of_length_le hlength.le
    rw [← List.mem_dedup, hperm.mem_iff]
  · intro h
    have hperm : members.dedup.Perm participants :=
      (List.perm_ext_iff_of_nodup (List.nodup_dedup members) hnodup).mpr fun userId => by
        rw [List.mem_dedup, h]
    refine ⟨?_, hperm.length_eq, fun userId => (h userId).mpr⟩
    rintro rfl
    obtain ⟨userId, hmem⟩ := List.exists_mem_of_ne_nil _ hsome
    exact absurd ((h userId).mpr hmem) List.not_mem_nil

theorem sameMembers_participants_iff {members : List UserId} :
    sameMembers members call.participants = true ↔
      ∀ userId, userId ∈ members ↔ userId ∈ call.participants :=
  sameMembers_iff (nodup_participants call) (List.ne_nil_of_mem (self_mem_participants call))

/-- What is picked has exactly these members. -/
theorem pickExact_some {ids : List ChannelId} (h : pickExact tables call ids = some channelId) :
    channelId ∈ ids ∧
      ∀ userId, userId ∈ membersOf tables call.orgId channelId ↔ userId ∈ call.participants :=
  ⟨List.mem_of_find?_eq_some h, (sameMembers_participants_iff).mp
    (List.find?_some (p := fun id => sameMembers (membersOf tables call.orgId id)
      call.participants) h)⟩

theorem mem_liveAmong {ids : List ChannelId} : channelId ∈ liveAmong tables orgId ids ↔
    channelId ∈ ids ∧ ∃ entry ∈ tables.channels, entry.id = channelId ∧ isLive orgId entry := by
  simp only [liveAmong, List.mem_map, List.mem_filter, decide_eq_true_eq]
  constructor
  · rintro ⟨entry, ⟨hmem, hid, hlive⟩, rfl⟩
    exact ⟨hid, entry, hmem, rfl, hlive⟩
  · rintro ⟨hid, entry, hmem, rfl, hlive⟩
    exact ⟨entry, ⟨hmem, hid, hlive⟩, rfl⟩

theorem mem_membersOf {userId : UserId} : userId ∈ membersOf tables orgId channelId ↔
    ∃ tuple ∈ tables.relationshipTuples, isChannelMember orgId tuple = true ∧
      tuple.objectId = channelId ∧ tuple.subjectId = userId := by
  simp [membersOf, and_assoc]

theorem mem_channelIdsForMember {userId : UserId} :
    channelId ∈ channelIdsForMember tables orgId userId ↔
      userId ∈ membersOf tables orgId channelId := by
  rw [mem_membersOf]
  simp only [channelIdsForMember, List.mem_map, List.mem_filter, decide_eq_true_eq, and_assoc]
  refine exists_congr fun tuple => and_congr_right fun _ => and_congr_right fun _ => and_comm

/-- **A lookup finds a direct message between the participants where there is one.** -/
theorem findDirectMessage_eq_none_iff : findDirectMessage tables call = none ↔
    ∀ channelId, ¬IsDirectMessage tables call.orgId channelId call.participants := by
  rw [findDirectMessage, pickExact, List.find?_eq_none]
  constructor
  · rintro h channelId ⟨hlive, hmembers⟩
    -- the caller is a participant, so the channel is a candidate
    have hself : channelId ∈ channelIdsForMember tables call.orgId call.self :=
      (mem_channelIdsForMember).mpr ((hmembers _).mpr (self_mem_participants call))
    exact h channelId ((mem_liveAmong).mpr ⟨hself, hlive⟩)
      ((sameMembers_participants_iff).mpr hmembers)
  · intro h channelId hmem hsame
    exact h channelId ⟨((mem_liveAmong).mp hmem).2, (sameMembers_participants_iff).mp hsame⟩

/-! ### A new channel -/

/-- Nothing that is committed has this id. -/
structure Unused (tables : Tables) (channelId : ChannelId) : Prop where
  channels : ∀ entry ∈ tables.channels, entry.id ≠ channelId
  tuples : ∀ tuple ∈ tables.relationshipTuples, tuple.objectId ≠ channelId

/-- The new tuples say of each participant that they are in the channel. -/
theorem mem_memberTuples (orgId : OrgId) {tuple : TupleRow}
    (h : tuple ∈ memberTuples call channelId tupleIds) :
    tuple.objectId = channelId ∧ (isChannelMember orgId tuple = true ↔ call.orgId = orgId) := by
  obtain ⟨named, -, rfl⟩ := List.mem_map.mp h
  exact ⟨rfl, by simp [isChannelMember, memberTuple]⟩

theorem map_subjectId_memberTuples (channelId : ChannelId)
    (hlength : tupleIds.length = call.participants.length) :
    (memberTuples call channelId tupleIds).map TupleRow.subjectId = call.participants := by
  rw [memberTuples, List.map_map]
  exact List.map_snd_zip hlength.ge

theorem mem_membersOf_created {userId : UserId} :
    userId ∈ membersOf (tables.created call channelId tupleIds) orgId channelId' ↔
      userId ∈ membersOf tables orgId channelId' ∨
        ∃ tuple ∈ memberTuples call channelId tupleIds,
          isChannelMember orgId tuple = true ∧ tuple.objectId = channelId' ∧
            tuple.subjectId = userId := by
  rw [mem_membersOf, mem_membersOf, Tables.created]
  simp only [List.mem_append, or_and_right, exists_or]

/-- Other channels are as they were. -/
theorem isDirectMessage_created_of_ne (hne : channelId' ≠ channelId) :
    IsDirectMessage (tables.created call channelId tupleIds) orgId channelId' participants ↔
      IsDirectMessage tables orgId channelId' participants := by
  have hmembers (userId : UserId) :
      userId ∈ membersOf (tables.created call channelId tupleIds) orgId channelId' ↔
        userId ∈ membersOf tables orgId channelId' := by
    rw [mem_membersOf_created]
    refine or_iff_left ?_
    rintro ⟨tuple, hmem, -, hid, -⟩
    exact hne (hid.symm.trans (mem_memberTuples orgId hmem).1)
  have hchannels : (∃ entry ∈ (tables.created call channelId tupleIds).channels,
      entry.id = channelId' ∧ isLive orgId entry) ↔
        ∃ entry ∈ tables.channels, entry.id = channelId' ∧ isLive orgId entry := by
    simp only [Tables.created, List.mem_append, List.mem_singleton, or_and_right, exists_or,
      exists_eq_left]
    exact or_iff_left fun h => hne h.1.symm
  rw [IsDirectMessage, IsDirectMessage, hchannels]
  simp only [hmembers]

/-- Its members are the participants. -/
theorem mem_membersOf_created_self (hunused : Unused tables channelId)
    (hlength : tupleIds.length = call.participants.length) {userId : UserId} :
    userId ∈ membersOf (tables.created call channelId tupleIds) call.orgId channelId ↔
      userId ∈ call.participants := by
  rw [mem_membersOf_created, mem_membersOf,
    ← map_subjectId_memberTuples channelId hlength, List.mem_map]
  constructor
  · rintro (⟨tuple, hmem, -, hid, -⟩ | ⟨tuple, hmem, -, -, hsubject⟩)
    · exact absurd hid (hunused.tuples tuple hmem)
    · exact ⟨tuple, hmem, hsubject⟩
  · rintro ⟨tuple, hmem, hsubject⟩
    obtain ⟨hid, horg⟩ := mem_memberTuples call.orgId hmem
    exact .inr ⟨tuple, hmem, horg.mpr rfl, hid, hsubject⟩

theorem isLive_newChannel : isLive orgId (newChannel call channelId) = true ↔
    call.orgId = orgId := by
  unfold newChannel Call.type
  split <;> simp [isLive]

/-- The new channel is a direct message between the participants. -/
theorem isDirectMessage_created_self (hunused : Unused tables channelId)
    (hlength : tupleIds.length = call.participants.length) :
    IsDirectMessage (tables.created call channelId tupleIds) call.orgId channelId
      call.participants :=
  ⟨⟨newChannel call channelId, List.mem_append_right _ List.mem_cons_self, rfl,
    (isLive_newChannel).mpr rfl⟩, fun _ => mem_membersOf_created_self hunused hlength⟩

/-- It is one between no others, and in no other organization. -/
theorem participants_of_created (hunused : Unused tables channelId)
    (hlength : tupleIds.length = call.participants.length)
    (h : IsDirectMessage (tables.created call channelId tupleIds) orgId channelId participants) :
    orgId = call.orgId ∧ ∀ userId, userId ∈ participants ↔ userId ∈ call.participants := by
  obtain ⟨⟨entry, hmem, hid, hlive⟩, hmembers⟩ := h
  obtain rfl : entry = newChannel call channelId :=
    List.mem_singleton.mp ((List.mem_append.mp hmem).resolve_left fun hold =>
      hunused.channels entry hold hid)
  obtain rfl := (isLive_newChannel).mp hlive
  exact ⟨rfl, fun userId => by
    rw [← hmembers, mem_membersOf_created_self hunused hlength]⟩

theorem IsDirectMessage.congr {participants' : List UserId}
    (h : IsDirectMessage tables orgId channelId participants)
    (hsame : ∀ userId, userId ∈ participants ↔ userId ∈ participants') :
    IsDirectMessage tables orgId channelId participants' :=
  ⟨h.1, fun userId => (h.2 userId).trans (hsame userId)⟩

theorem IsDirectMessage.ne_of_unused (h : IsDirectMessage tables orgId channelId participants)
    (hunused : Unused tables channelId') : channelId ≠ channelId' := by
  obtain ⟨⟨entry, hmem, rfl, -⟩, -⟩ := h
  exact hunused.channels entry hmem

/-- What is committed stays. -/
theorem IsDirectMessage.created (h : IsDirectMessage tables orgId channelId' participants)
    (hunused : Unused tables channelId) :
    IsDirectMessage (tables.created call channelId tupleIds) orgId channelId' participants :=
  (isDirectMessage_created_of_ne (h.ne_of_unused hunused)).mpr h

/-- **A new channel is the only one for its participants**, where there was none before it. -/
theorem OneEach.created (h : OneEach tables) (hunused : Unused tables channelId)
    (hlength : tupleIds.length = call.participants.length)
    (hnone : findDirectMessage tables call = none) :
    OneEach (tables.created call channelId tupleIds) := by
  have hother {orgId : OrgId} {other : ChannelId} {participants : List UserId}
      (hself : IsDirectMessage (tables.created call channelId tupleIds) orgId channelId
        participants)
      (hdm : IsDirectMessage (tables.created call channelId tupleIds) orgId other participants) :
      other = channelId := by
    by_contra hne
    obtain ⟨rfl, hsame⟩ := participants_of_created hunused hlength hself
    exact (findDirectMessage_eq_none_iff).mp hnone other
      (((isDirectMessage_created_of_ne hne).mp hdm).congr hsame)
  intro orgId one two participants hone htwo
  by_cases hone' : one = channelId
  · subst hone'
    exact (hother hone htwo).symm
  · by_cases htwo' : two = channelId
    · subst htwo'
      exact hother htwo hone
    · exact h orgId one two participants ((isDirectMessage_created_of_ne hone').mp hone)
        ((isDirectMessage_created_of_ne htwo').mp htwo)

theorem Unused.created (h : Unused tables channelId') (hne : channelId' ≠ channelId) :
    Unused (tables.created call channelId tupleIds) channelId' where
  channels entry hmem := by
    rcases List.mem_append.mp hmem with hmem | hmem
    · exact h.channels entry hmem
    · rw [List.mem_singleton.mp hmem]
      exact Ne.symm hne
  tuples tuple hmem := by
    rcases List.mem_append.mp hmem with hmem | hmem
    · exact h.tuples tuple hmem
    · rw [(mem_memberTuples call.orgId hmem).1]
      exact Ne.symm hne

end

/-! ### Runs -/

/-- What a call has found out stays so. -/
def Phase.Holds (tables : Tables) (newIds : List ChannelId) : Phase → Prop
  | .live call ids => ∀ id ∈ ids, ∃ entry ∈ tables.channels, entry.id = id ∧
      isLive call.orgId entry
  | .found call channelId => IsDirectMessage tables call.orgId channelId call.participants
  | .inserted call channelId tupleIds => channelId ∈ newIds ∧ Unused tables channelId ∧
      tupleIds.length = call.participants.length
  | .idle | .begun _ | .candidates _ _ | .absent _ => True

/-- The id of a channel that is inserted and not committed. -/
def Phase.newId : Phase → Option ChannelId
  | .inserted _ channelId _ => some channelId
  | _ => none

structure Valid (state : State S) : Prop where
  one : OneEach state.tables
  returned : ∀ r ∈ state.returned,
    IsDirectMessage state.tables r.call.orgId r.channelId r.call.participants
  holds : ∀ s, (state.phase s).Holds state.tables state.newIds
  apart : ∀ s s' channelId, (state.phase s).newId = some channelId →
    (state.phase s').newId = some channelId → s = s'

section
variable {state state' : State S} {s : S} {statement : Statement} {tables : Tables}

/-- What a step does: a call goes on without a new channel, inserts one, or commits. -/
theorem step_cases (h : step state (s, statement) = some state') :
    (∃ phase : Phase, state' = state.at s phase ∧ phase.newId = none ∧
      ((state.phase s).Holds state.tables state.newIds →
        phase.Holds state.tables state.newIds)) ∨
    (∃ call channelId tupleIds, state.fresh channelId = true ∧
      tupleIds.length = call.participants.length ∧
      state' = { state.at s (.inserted call channelId tupleIds) with
        newIds := channelId :: state.newIds }) ∨
    (∃ call channelId, state.phase s = .found call channelId ∧ statement = .commit ∧
      state' = { state.at s .idle with
        returned := ⟨call, channelId, false⟩ :: state.returned }) ∨
    (∃ call channelId tupleIds, state.phase s = .inserted call channelId tupleIds ∧
      statement = .commit ∧ state' = { state.at s .idle with
        tables := state.tables.created call channelId tupleIds
        returned := ⟨call, channelId, true⟩ :: state.returned
        outbox := state.outbox ++ createdEvents call channelId }) := by
  cases hphase : state.phase s with
  | idle =>
    cases statement <;> simp only [step, hphase, reduceCtorEq] at h
    obtain ⟨-, h⟩ := Option.ite_none_left_eq_some.mp h
    exact .inl ⟨_, (Option.some.inj h).symm, rfl, fun _ => trivial⟩
  | begun call =>
    cases statement <;> simp only [step, hphase, reduceCtorEq] at h
    · split at h <;> exact .inl ⟨_, (Option.some.inj h).symm, rfl, fun _ => trivial⟩
    · exact .inl ⟨_, (Option.some.inj h).symm, rfl, fun _ => trivial⟩
  | candidates call candidateIds =>
    cases statement <;> simp only [step, hphase, reduceCtorEq] at h
    · rename_i ids
      obtain ⟨hperm, h⟩ := Option.ite_none_right_eq_some.mp h
      split at h
      · exact .inl ⟨_, (Option.some.inj h).symm, rfl, fun _ => trivial⟩
      · exact .inl ⟨_, (Option.some.inj h).symm, rfl, fun _ id hid =>
          ((mem_liveAmong).mp (hperm.mem_iff.mp hid)).2⟩
    · exact .inl ⟨_, (Option.some.inj h).symm, rfl, fun _ => trivial⟩
  | live call ids =>
    cases statement <;> simp only [step, hphase, reduceCtorEq] at h
    · split at h
      · exact .inl ⟨_, (Option.some.inj h).symm, rfl, fun _ => trivial⟩
      · next channelId hpick =>
        obtain ⟨hmem, hmembers⟩ := pickExact_some hpick
        exact .inl ⟨_, (Option.some.inj h).symm, rfl, fun hlive => ⟨hlive channelId hmem, hmembers⟩⟩
    · exact .inl ⟨_, (Option.some.inj h).symm, rfl, fun _ => trivial⟩
  | found call channelId =>
    cases statement <;> simp only [step, hphase, reduceCtorEq] at h
    · exact .inr (.inr (.inl ⟨call, channelId, rfl, rfl, (Option.some.inj h).symm⟩))
    · exact .inl ⟨_, (Option.some.inj h).symm, rfl, fun _ => trivial⟩
  | absent call =>
    cases statement <;> simp only [step, hphase, reduceCtorEq] at h
    · obtain ⟨⟨-, hfresh, hlength⟩, h⟩ := Option.ite_none_right_eq_some.mp h
      exact .inr (.inl ⟨call, _, _, hfresh, hlength, (Option.some.inj h).symm⟩)
    · exact .inl ⟨_, (Option.some.inj h).symm, rfl, fun _ => trivial⟩
  | inserted call channelId tupleIds =>
    cases statement <;> simp only [step, hphase, reduceCtorEq] at h
    · exact .inr (.inr (.inr ⟨call, channelId, tupleIds, rfl, rfl, (Option.some.inj h).symm⟩))
    · exact .inl ⟨_, (Option.some.inj h).symm, rfl, fun _ => trivial⟩

omit [DecidableEq S] in
theorem valid_initial (h : OneEach tables) : Valid (initial tables : State S) :=
  ⟨h, fun _ h => absurd h List.not_mem_nil, fun _ => trivial, fun _ _ _ h => nomatch h⟩

theorem phase_at_self (phase : Phase) : (state.at s phase).phase s = phase :=
  Function.update_self ..

theorem phase_at_other {t : S} (hts : t ≠ s) (phase : Phase) :
    (state.at s phase).phase t = state.phase t :=
  Function.update_of_ne hts ..

/-- A property of all phases after one of them has changed. -/
theorem forall_phase_at {P : S → Phase → Prop} {phase : Phase} (hself : P s phase)
    (hother : ∀ t, t ≠ s → P t (state.phase t)) (t : S) : P t ((state.at s phase).phase t) :=
  (Function.forall_update_iff state.phase P).mpr ⟨hself, hother⟩ t

omit [DecidableEq S] in
theorem unused_of_fresh {channelId : ChannelId} (h : state.fresh channelId = true) :
    channelId ∉ state.newIds ∧ Unused state.tables channelId := by
  obtain ⟨hnew, hchannels, htuples⟩ := of_decide_eq_true h
  exact ⟨hnew, fun entry hmem heq => hchannels (List.mem_map.mpr ⟨entry, hmem, heq⟩), htuples⟩

omit [DecidableEq S] in
/-- An id that is inserted has been made up. -/
theorem Valid.mem_newIds (hv : Valid state) {channelId : ChannelId}
    (h : (state.phase s).newId = some channelId) : channelId ∈ state.newIds := by
  have hholds := hv.holds s
  cases hphase : state.phase s <;> rw [hphase] at h hholds <;> cases h
  exact hholds.1

/-- Ids stay apart where a call goes on without one, or with one that no other has. -/
theorem Valid.apart_at (hv : Valid state) {phase : Phase}
    (hnew : ∀ channelId, phase.newId = some channelId → ∀ t, t ≠ s →
      (state.phase t).newId ≠ some channelId) (t t' : S) (channelId : ChannelId)
    (h : ((state.at s phase).phase t).newId = some channelId)
    (h' : ((state.at s phase).phase t').newId = some channelId) : t = t' := by
  by_cases hts : t = s <;> by_cases hts' : t' = s
  · rw [hts, hts']
  · subst hts
    rw [phase_at_self] at h
    rw [phase_at_other hts'] at h'
    exact absurd h' (hnew channelId h t' hts')
  · subst hts'
    rw [phase_at_self] at h'
    rw [phase_at_other hts] at h
    exact absurd h (hnew channelId h' t hts)
  · rw [phase_at_other hts] at h
    rw [phase_at_other hts'] at h'
    exact hv.apart t t' channelId h h'

omit [DecidableEq S] in
theorem Phase.Holds.mono {newIds newIds' : List ChannelId} (hsub : newIds ⊆ newIds')
    {phase : Phase} (h : phase.Holds tables newIds) : phase.Holds tables newIds' := by
  cases phase with
  | inserted call channelId tupleIds => exact ⟨hsub h.1, h.2⟩
  | live call ids => exact h
  | found call channelId => exact h
  | idle | begun | candidates | absent => trivial

omit [DecidableEq S] in
/-- What another call has found out survives a new channel. -/
theorem Phase.Holds.created {newIds : List ChannelId} {phase : Phase} {call : Call}
    {channelId : ChannelId} {tupleIds : List String} (h : phase.Holds tables newIds)
    (hunused : Unused tables channelId) (hne : phase.newId ≠ some channelId) :
    phase.Holds (tables.created call channelId tupleIds) newIds := by
  cases phase with
  | inserted call' channelId' tupleIds' =>
    exact ⟨h.1, h.2.1.created fun heq => hne (congrArg some heq), h.2.2⟩
  | live call' ids =>
    intro id hid
    obtain ⟨entry, hmem, hentry⟩ := h id hid
    exact ⟨entry, List.mem_append_left _ hmem, hentry⟩
  | found call' channelId' => exact IsDirectMessage.created h hunused
  | idle | begun | candidates | absent => trivial

theorem valid_step (hv : Valid state) (hcurrent : Current state (s, statement))
    (h : step state (s, statement) = some state') : Valid state' := by
  rcases step_cases h with ⟨phase, rfl, hnew, hholds⟩ |
    ⟨call, channelId, tupleIds, hfresh, hlength, rfl⟩ | ⟨call, channelId, hphase, rfl, rfl⟩ |
    ⟨call, channelId, tupleIds, hphase, rfl, rfl⟩
  · exact ⟨hv.one, hv.returned, forall_phase_at (P := fun _ phase => phase.Holds _ _)
      (hholds (hv.holds s)) fun t _ => hv.holds t,
      hv.apart_at fun channelId hsome => by rw [hnew] at hsome; cases hsome⟩
  · obtain ⟨hnot, hunused⟩ := unused_of_fresh hfresh
    refine ⟨hv.one, hv.returned, forall_phase_at (P := fun _ phase => phase.Holds _ _)
      ⟨List.mem_cons_self, hunused, hlength⟩
      fun t _ => (hv.holds t).mono (List.subset_cons_self _ _),
      hv.apart_at fun channelId' hsome t _ ht => hnot ?_⟩
    rw [Option.some.inj hsome]
    exact hv.mem_newIds ht
  · have hfound := hv.holds s
    rw [hphase] at hfound
    exact ⟨hv.one, List.forall_mem_cons.mpr ⟨hfound, hv.returned⟩,
      forall_phase_at (P := fun _ phase => phase.Holds _ _) trivial fun t _ => hv.holds t,
      hv.apart_at fun channelId hsome => by cases hsome⟩
  · have hinserted := hv.holds s
    rw [hphase] at hinserted
    obtain ⟨-, hunused, hlength⟩ := hinserted
    have hnone : findDirectMessage state.tables call = none := by
      simpa only [Current, hphase] using hcurrent
    have hnew : (state.phase s).newId = some channelId := by rw [hphase]; rfl
    refine ⟨hv.one.created hunused hlength hnone, List.forall_mem_cons.mpr
      ⟨isDirectMessage_created_self hunused hlength,
        fun r hr => (hv.returned r hr).created hunused⟩,
      forall_phase_at (P := fun _ phase => phase.Holds _ _) trivial fun t hts =>
        (hv.holds t).created hunused fun ht => hts (hv.apart t s channelId ht hnew),
      hv.apart_at fun channelId hsome => by cases hsome⟩

end

instance (state : State S) (a : S × Statement) : Decidable (Current state a) := by
  unfold Current
  split <;> infer_instance

def twoPeople : Tables where
  channels := []
  relationshipTuples := []
  memberships := [⟨"o", "u", .active⟩, ⟨"o", "v", .active⟩]

theorem oneEach_twoPeople : OneEach twoPeople := by
  rintro orgId channelId channelId' participants ⟨⟨entry, hmem, -⟩, -⟩
  exact absurd hmem List.not_mem_nil

/-- A first call: up to the commit. -/
def opens (s : Bool) (self other : UserId) (channelId : ChannelId) : List (Bool × Statement) :=
  [(s, .call ⟨"o", self, [other]⟩), (s, .channelIdsForMember),
    (s, .insert channelId [channelId ++ self, channelId ++ other])]

/-- A call that finds the channel. -/
def reopens (s : Bool) (self other : UserId) (channelId : ChannelId) : List (Bool × Statement) :=
  [(s, .call ⟨"o", self, [other, self]⟩), (s, .channelIdsForMember),
    (s, .selectChannels [channelId]), (s, .membersOfChannels), (s, .commit)]

instance (tables : Tables) (orgId : OrgId) (channelId : ChannelId) (participants : List UserId) :
    Decidable (IsDirectMessage tables orgId channelId participants) :=
  decidable_of_iff ((∃ entry ∈ tables.channels, entry.id = channelId ∧ isLive orgId entry) ∧
      (∀ userId ∈ membersOf tables orgId channelId, userId ∈ participants) ∧
      ∀ userId ∈ participants, userId ∈ membersOf tables orgId channelId)
    (and_congr_right fun _ => ⟨fun h userId => ⟨h.1 userId, h.2 userId⟩,
      fun h => ⟨fun userId => (h userId).mp, fun userId => (h userId).mpr⟩⟩)

end DirectMessages
end TaskFlow
