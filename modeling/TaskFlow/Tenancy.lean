import TaskFlow.Policy

/-! # The subject of a request

The rows an authorization reads, and `resolveOrgMembership`, from which every
caller of the policy engine assembles its subject: the role from the live
membership, the tuples expanded through the user's teams, the individual grants
that are not revoked.  A transaction in an organization's scope sees the rows of
that organization only.
-/
namespace TaskFlow
namespace Tenancy
open Policy

abbrev BoardId := String
abbrev ChannelId := String
abbrev CallId := String
abbrev TeamId := String

inductive MembershipStatus where
  | active
  | suspended
  deriving DecidableEq, Repr

inductive OrgStatus where
  | active
  | suspended
  | deleted
  deriving DecidableEq, Repr

/-- A row of `identity.memberships`, but for its organization and user. -/
structure Membership where
  id : String
  role : Role
  status : MembershipStatus
  deriving DecidableEq, Repr

structure TeamMember where
  orgId : OrgId
  teamId : TeamId
  userId : UserId
  deriving DecidableEq, Repr

inductive SubjectType where
  | user
  | team
  deriving DecidableEq, Repr

/-- A row of `authz.relationship_tuples`. -/
structure TupleRow where
  id : String
  orgId : OrgId
  subjectType : SubjectType
  subjectId : String
  /-- `none` where the text names no relation. -/
  relation : Option Relation
  objectType : ResourceType
  objectId : String
  isGuest : Bool := false
  expiresAt : Option Int := none
  deriving DecidableEq, Repr

/-- A row of `authz.member_grants`. -/
structure MemberGrantRow where
  orgId : OrgId
  membershipId : String
  permission : Permission
  revoked : Bool := false
  deriving DecidableEq, Repr

structure BoardRow where
  orgId : OrgId
  projectId : String
  deleted : Bool := false
  deriving DecidableEq, Repr

inductive ChannelType where
  | «public»
  | «private»
  | dm
  | group_dm
  deriving DecidableEq, Repr

structure ChannelRow where
  orgId : OrgId
  type : ChannelType
  deriving DecidableEq, Repr

/-- The rows an authorization reads.  A user has at most one membership in an
organization, and a row has one id. -/
structure Db where
  membership : OrgId → UserId → Option Membership
  orgStatus : OrgId → Option OrgStatus
  teamMembers : List TeamMember
  tuples : List TupleRow
  memberGrants : List MemberGrantRow
  board : BoardId → Option BoardRow
  channel : ChannelId → Option ChannelRow
  /-- The organization of a call. -/
  call : CallId → Option OrgId

/-- What a caller may do in an organization. -/
structure OrgMembership where
  orgId : OrgId
  role : Role
  tuples : List RelationshipTuple
  memberGrants : List Permission
  deriving DecidableEq, Repr

/-- The teams of a user in an organization. -/
def teamIds (db : Db) (orgId : OrgId) (userId : UserId) : List TeamId :=
  (db.teamMembers.filter fun row => row.orgId = orgId ∧ row.userId = userId).map
    TeamMember.teamId

/-- The tuple names the user, or a team of the user. -/
def TupleRow.subjectMatch (row : TupleRow) (userId : UserId) (teams : List TeamId) : Bool :=
  match row.subjectType with
  | .user => row.subjectId = userId
  | .team => row.subjectId ∈ teams

/-- The tuple has not lapsed. -/
def TupleRow.live (row : TupleRow) (now : Int) : Bool :=
  match row.expiresAt with
  | none => true
  | some expiresAt => expiresAt > now

/-- A tuple as the engine takes it, naming the person. -/
def TupleRow.resolve (row : TupleRow) (userId : UserId) : Option RelationshipTuple :=
  row.relation.map fun relation =>
    { subject := userId, relation, object := ⟨row.objectType, row.objectId⟩ }

/-- Every tuple that applies to the user, expanded through their teams. -/
def loadTuples (db : Db) (now : Int) (orgId : OrgId) (userId : UserId) :
    List RelationshipTuple :=
  let teams := teamIds db orgId userId
  (db.tuples.filter fun row =>
    row.orgId = orgId && row.subjectMatch userId teams && row.live now).filterMap
      fun row => row.resolve userId

/-- The active individual grants of a membership. -/
def loadMemberGrants (db : Db) (orgId : OrgId) (membershipId : String) : List Permission :=
  ((db.memberGrants.filter fun row =>
    row.orgId = orgId ∧ row.membershipId = membershipId ∧ row.revoked = false).map
      MemberGrantRow.permission).filter isPermission

/-- The caller's membership in an organization, or `none` where there is none to
speak of. -/
def resolveOrgMembership (db : Db) (now : Int) (userId : UserId) (orgId : OrgId) :
    Except AppError (Option OrgMembership) :=
  match db.membership orgId userId with
  | none => .ok none
  | some membership =>
    if membership.status ≠ .active then .error membershipSuspended
    -- a role that this build does not know is no membership
    else if !isRole membership.role then .ok none
    else if db.orgStatus orgId = some .suspended then .error orgSuspended
    -- a deleted organization is no longer there
    else if db.orgStatus orgId = some .deleted then .ok none
    else .ok (some {
      orgId
      role := membership.role
      tuples := loadTuples db now orgId userId
      memberGrants := loadMemberGrants db orgId membership.id })

/-- The subject of an HTTP request. -/
def subjectOf (userId : UserId) (org : OrgMembership) : Subject where
  orgId := org.orgId
  userId := userId
  role := org.role
  tuples := org.tuples
  memberGrants := some org.memberGrants

/-! ### Rows and their targets -/

/-- A live board of the organization. -/
def loadBoard (db : Db) (orgId : OrgId) (boardId : BoardId) : Option BoardRow :=
  (db.board boardId).filter fun board => board.orgId = orgId ∧ board.deleted = false

/-- The project ancestor lets a grant on the project reach its boards. -/
def boardTarget (boardId : BoardId) (board : BoardRow) : Target where
  orgId := board.orgId
  resource := ⟨.board, boardId⟩
  ancestors := [⟨.project, board.projectId⟩]

def loadChannel (db : Db) (orgId : OrgId) (channelId : ChannelId) : Option ChannelRow :=
  (db.channel channelId).filter fun channel => channel.orgId = orgId

/-- Everything but a public channel is reachable only through a relation on it. -/
def isClosedChannel (channel : ChannelRow) : Bool := channel.type ≠ .public

def channelTarget (channelId : ChannelId) (channel : ChannelRow) : Target where
  orgId := channel.orgId
  resource := ⟨.channel, channelId⟩
  closed := isClosedChannel channel

/-- The call exists in the organization. -/
def callExists (db : Db) (orgId : OrgId) (callId : CallId) : Bool := db.call callId = some orgId

/-! ### What a resolved membership is -/

variable {db : Db} {now : Int} {userId : UserId} {orgId : OrgId} {org : OrgMembership}

/-- What is behind a resolved membership. -/
theorem resolve_some (h : resolveOrgMembership db now userId orgId = .ok (some org)) :
    ∃ membership, db.membership orgId userId = some membership ∧ membership.status = .active ∧
      isRole membership.role = true ∧ org = {
        orgId
        role := membership.role
        tuples := loadTuples db now orgId userId
        memberGrants := loadMemberGrants db orgId membership.id } := by
  unfold resolveOrgMembership at h
  cases hrow : db.membership orgId userId with
  | none => simp [hrow] at h
  | some membership =>
    simp only [hrow] at h
    split_ifs at h with hstatus hrole hsuspended hdeleted
    · cases h
    · cases h
    · refine ⟨membership, rfl, not_not.mp hstatus, ?_, ?_⟩
      · simpa using hrole
      · exact (Option.some.inj (Except.ok.inj h)).symm

theorem resolve_orgId (h : resolveOrgMembership db now userId orgId = .ok (some org)) :
    org.orgId = orgId := by
  obtain ⟨_, -, -, -, rfl⟩ := resolve_some h
  rfl

theorem resolve_isRole (h : resolveOrgMembership db now userId orgId = .ok (some org)) :
    isRole org.role = true := by
  obtain ⟨_, -, -, hrole, rfl⟩ := resolve_some h
  exact hrole

theorem loadBoard_orgId {boardId : BoardId} {board : BoardRow}
    (h : loadBoard db orgId boardId = some board) : board.orgId = orgId := by
  obtain ⟨-, hboard⟩ := Option.filter_eq_some_iff.mp h
  exact (of_decide_eq_true hboard).1

theorem loadChannel_orgId {channelId : ChannelId} {channel : ChannelRow}
    (h : loadChannel db orgId channelId = some channel) : channel.orgId = orgId := by
  obtain ⟨-, hchannel⟩ := Option.filter_eq_some_iff.mp h
  exact of_decide_eq_true hchannel

end Tenancy
end TaskFlow
