import TaskFlow.Gateway

/-! # Changes that can take access away

The service functions that change a membership, a relation tuple, a team or an
individual grant: what each does to the rows an authorization reads, and the
rows it appends to the outbox in the same transaction.  A transaction in an
organization's scope touches the rows of that organization only.
-/
namespace TaskFlow
namespace AccessChanges
open Policy Tenancy Rooms Gateway

inductive Failure where
  | app (error : AppError)
  | conflict (message : String)
  | validation (field message : String)
  /-- The database refuses a second row of the same key. -/
  | uniqueViolation
  deriving DecidableEq, Repr

/-- What a transaction commits. -/
structure Change where
  db : Db
  events : List OutboxRow

abbrev Result := Except Failure Change

/-- `knownRole` on a role that is not known. -/
def unknownRole : Failure := .conflict
  "This membership holds a role this version does not recognize. Try again after the deploy completes."

def noOwnerLeft : Failure :=
  .conflict "An organization must always have an owner. Promote someone else first."

/-- The query of `assertAnotherOwnerRemains`. -/
def anotherOwnerRemains (users : List UserId) (db : Db) (orgId : OrgId)
    (excludingUserId : UserId) : Bool :=
  users.any fun user => user ≠ excludingUserId && (db.membership orgId user).any fun membership =>
    membership.role = .owner && membership.status = .active

/-! ### The events -/

def memberRoleChanged (orgId : OrgId) (membership : Membership) (userId : UserId)
    (newRole : Role) : OutboxRow where
  name := "member.role_changed"
  orgId := orgId
  payload := some [("membershipId", .text membership.id), ("userId", .text userId),
    ("from", .text membership.role.text), ("to", .text newRole.text)]

def memberRemoved (orgId : OrgId) (membership : Membership) (userId : UserId) : OutboxRow where
  name := "member.removed"
  orgId := orgId
  payload := some [("membershipId", .text membership.id), ("userId", .text userId),
    ("role", .text membership.role.text)]

def ownershipTransferred (orgId : OrgId) (fromUserId toUserId : UserId) (fromNewRole : Role) :
    OutboxRow where
  name := "member.ownership_transferred"
  orgId := orgId
  payload := some [("orgId", .text orgId), ("fromUserId", .text fromUserId),
    ("toUserId", .text toUserId), ("fromNewRole", .text fromNewRole.text)]

def SubjectType.text : SubjectType → String
  | .user => "user"
  | .team => "team"

def grantRevoked (orgId : OrgId) (row : TupleRow) : OutboxRow where
  name := "grant.revoked"
  orgId := orgId
  payload := some [("tupleId", .text row.id),
    ("subjectType", .text (SubjectType.text row.subjectType)),
    ("subjectId", .text row.subjectId),
    ("relation", (row.relation.map fun relation => Field.text relation.text).getD .other),
    ("objectType", .text row.objectType.text), ("objectId", .text row.objectId)]

/-- `voluntary` is no text. -/
def channelMemberRemoved (orgId : OrgId) (channelId : ChannelId) (userId : UserId) :
    OutboxRow where
  name := "channel.member_removed"
  orgId := orgId
  payload := some [("channelId", .text channelId), ("userId", .text userId),
    ("voluntary", .other)]

def channelGuestChanged (orgId : OrgId) (channelId : ChannelId) (userId : UserId) :
    OutboxRow where
  name := "channel.guest_changed"
  orgId := orgId
  payload := some [("channelId", .text channelId), ("userId", .text userId),
    ("granted", .other), ("expiresAt", .other)]

def teamMemberRemoved (orgId : OrgId) (teamId : TeamId) (userId : UserId) : OutboxRow where
  name := "team.member_removed"
  orgId := orgId
  payload := some [("teamId", .text teamId), ("userId", .text userId)]

def memberGrantRevoked (orgId : OrgId) (membership : Membership) (userId : UserId)
    (permission : Permission) : OutboxRow where
  name := "member_grant.revoked"
  orgId := orgId
  payload := some [("membershipId", .text membership.id), ("userId", .text userId),
    ("permission", .text (toString permission))]

/-! ### Members -/

def setMembership (db : Db) (orgId : OrgId) (userId : UserId) (membership : Option Membership) :
    Db :=
  { db with membership := fun org user =>
      if org = orgId ∧ user = userId then membership else db.membership org user }

def changeRole (users : List UserId) (db : Db) (orgId : OrgId) (target : UserId) (role : Role)
    (actor : UserId) : Result :=
  if !isRole role then .error (.validation "role" "Unknown role.")
  else if target = actor then
    .error (.app ⟨.forbidden, "You cannot change your own role."⟩)
  else
    match db.membership orgId target with
    | none => .error (.app notFound)
    | some membership =>
      if !isRole membership.role then .error unknownRole
      else if membership.role = role then .ok ⟨db, []⟩
      else if membership.role = .owner && !anotherOwnerRemains users db orgId target then
        .error noOwnerLeft
      else .ok {
        db := setMembership db orgId target (some { membership with role })
        events := [memberRoleChanged orgId membership target role] }

/-- The relations naming the user go with the membership, and so do their teams. -/
def removeMember (users : List UserId) (db : Db) (orgId : OrgId) (target : UserId) : Result :=
  match db.membership orgId target with
  | none => .error (.app notFound)
  | some membership =>
    if !isRole membership.role then .error unknownRole
    else if membership.role = .owner && !anotherOwnerRemains users db orgId target then
      .error noOwnerLeft
    else .ok {
      db := { setMembership db orgId target none with
        tuples := db.tuples.filter fun row =>
          ¬ (row.orgId = orgId ∧ row.subjectType = .user ∧ row.subjectId = target)
        teamMembers := db.teamMembers.filter fun row =>
          ¬ (row.orgId = orgId ∧ row.userId = target) }
      events := [memberRemoved orgId membership target] }

/-- The role the old owner keeps: `admin` or `member`. -/
abbrev OwnRole := { role : Role // role = .admin ∨ role = .member }

def transferOwnership (db : Db) (orgId : OrgId) (toUserId : UserId) (selfNewRole : OwnRole)
    (actor : UserId) : Result :=
  match db.membership orgId toUserId with
  | none => .error (.app notFound)
  | some membership =>
    if !isRole membership.role then .error unknownRole
    else if membership.role ≠ .admin ∧ membership.role ≠ .member then
      .error (.validation "toUserId"
        "This person must be a member or admin before becoming Owner. Promote them first.")
    else
      let promoted := setMembership db orgId toUserId (some { membership with role := .owner })
      .ok {
        db := setMembership promoted orgId actor
          ((promoted.membership orgId actor).map fun own => { own with role := selfNewRole })
        events := [ownershipTransferred orgId actor toUserId selfNewRole] }

/-! ### Relations and teams -/

def hasTupleId (orgId : OrgId) (tupleId : String) (row : TupleRow) : Bool :=
  row.orgId = orgId ∧ row.id = tupleId

/-- `revoke` of the grant service. -/
def revokeGrant (db : Db) (orgId : OrgId) (tupleId : String) : Result :=
  match db.tuples.find? (hasTupleId orgId tupleId) with
  | none => .error (.app notFound)
  | some row => .ok {
      db := { db with tuples := db.tuples.eraseP (hasTupleId orgId tupleId) }
      events := [grantRevoked orgId row] }

/-- A row that makes the user a member of the channel. -/
def isChannelMembership (orgId : OrgId) (channelId : ChannelId) (userId : UserId)
    (row : TupleRow) : Bool :=
  row.orgId = orgId ∧ row.subjectType = .user ∧ row.subjectId = userId ∧
    row.relation = some .member ∧ row.objectType = .channel ∧ row.objectId = channelId

def removeChannelMemberTuple (db : Db) (orgId : OrgId) (channelId : ChannelId)
    (userId : UserId) : Db :=
  { db with tuples := db.tuples.filter fun row =>
      !isChannelMembership orgId channelId userId row }

/-- `loadChannel` and `enforceOnChannel`. -/
def enforceOnChannel (db : Db) (actor : Subject) (permission : Permission)
    (channelId : ChannelId) : Except Failure ChannelRow :=
  match loadChannel db actor.orgId channelId with
  | none => .error (.app notFound)
  | some channel =>
    match enforce actor permission (channelTarget channelId channel) with
    | .error error => .error (.app error)
    | .ok _ => .ok channel

def removeChannelMember (db : Db) (actor : Subject) (channelId : ChannelId) (userId : UserId) :
    Result :=
  let voluntary := userId = actor.userId
  match enforceOnChannel db actor ⟨.channel, if voluntary then .read else .manage⟩ channelId with
  | .error failure => .error failure
  | .ok channel =>
    if channel.type = .dm ∨ channel.type = .group_dm then
      .error (.validation "channelId" "A direct message has fixed participants.")
    else if !db.tuples.any (isChannelMembership actor.orgId channelId userId) then .ok ⟨db, []⟩
    else .ok {
      db := removeChannelMemberTuple db actor.orgId channelId userId
      events := [channelMemberRemoved actor.orgId channelId userId] }

/-- `tupleId` is the id the new row gets. -/
def setGuestAccess (db : Db) (actor : Subject) (tupleId : String) (channelId : ChannelId)
    (userId : UserId) (granted : Bool) (expiresAt : Option Int) : Result :=
  match enforceOnChannel db actor ⟨.channel, .manage⟩ channelId with
  | .error failure => .error failure
  | .ok channel =>
    if channel.type = .dm ∨ channel.type = .group_dm then
      .error (.validation "channelId"
        "Guests are channel-scoped and cannot be added to a direct message.")
    else if !isClosedChannel channel then
      .error (.validation "channelId" "Guests can only be invited to private channels.")
    else if granted && db.tuples.any (isChannelMembership actor.orgId channelId userId) then
      .error .uniqueViolation
    else .ok {
      db :=
        if granted then
          { db with tuples := db.tuples ++ [{
              id := tupleId, orgId := actor.orgId, subjectType := .user, subjectId := userId
              relation := some .member, objectType := .channel, objectId := channelId
              isGuest := true, expiresAt }] }
        else removeChannelMemberTuple db actor.orgId channelId userId
      events := [channelGuestChanged actor.orgId channelId userId] }

def removeTeamMember (db : Db) (orgId : OrgId) (teamId : TeamId) (userId : UserId) : Result :=
  let isRemoved := fun row : TeamMember =>
    row.orgId = orgId ∧ row.teamId = teamId ∧ row.userId = userId
  if !(db.teamMembers.any fun row => isRemoved row) then .error (.app notFound)
  else .ok {
    db := { db with teamMembers := db.teamMembers.filter fun row => ¬ isRemoved row }
    events := [teamMemberRemoved orgId teamId userId] }

/-! ### Individual grants -/

def findActiveMembership (db : Db) (orgId : OrgId) (userId : UserId) : Option Membership :=
  (db.membership orgId userId).filter fun membership => membership.status = .active

/-- Revokes the active grants of a membership that `selects` selects. -/
def revokeGrants (db : Db) (orgId : OrgId) (userId : UserId) (membership : Membership)
    (selects : Permission → Bool) : Change :=
  let revoked := fun row : MemberGrantRow =>
    row.orgId = orgId && row.membershipId = membership.id && !row.revoked &&
      selects row.permission
  { db := { db with
      memberGrants := db.memberGrants.map fun row =>
        if revoked row then { row with revoked := true } else row }
    events := (db.memberGrants.filter revoked).map fun row =>
      memberGrantRevoked orgId membership userId row.permission }

/-- `revoke` of the member grant service: at most one active grant has the
permission. -/
def revokeMemberGrant (db : Db) (orgId : OrgId) (userId : UserId) (permission : Permission) :
    Result :=
  match findActiveMembership db orgId userId with
  | none => .error (.app notFound)
  | some membership =>
    .ok (revokeGrants db orgId userId membership fun granted => granted = permission)

def revokeAllMemberGrants (db : Db) (orgId : OrgId) (userId : UserId) : Result :=
  match findActiveMembership db orgId userId with
  | none => .error (.app notFound)
  | some membership => .ok (revokeGrants db orgId userId membership fun _ => true)

/-! ### All of them -/

/-- A call of one of the functions. -/
inductive Request where
  | changeRole (orgId : OrgId) (target : UserId) (role : Role) (actor : UserId)
  | removeMember (orgId : OrgId) (target : UserId)
  | transferOwnership (orgId : OrgId) (toUserId : UserId) (selfNewRole : OwnRole)
      (actor : UserId)
  | revokeGrant (orgId : OrgId) (tupleId : String)
  | removeChannelMember (actor : Subject) (channelId : ChannelId) (userId : UserId)
  | setGuestAccess (actor : Subject) (tupleId : String) (channelId : ChannelId)
      (userId : UserId) (granted : Bool) (expiresAt : Option Int)
  | removeTeamMember (orgId : OrgId) (teamId : TeamId) (userId : UserId)
  | revokeMemberGrant (orgId : OrgId) (userId : UserId) (permission : Permission)
  | revokeAllMemberGrants (orgId : OrgId) (userId : UserId)

/-- `users` are the users there are. -/
def commit (users : List UserId) (db : Db) : Request → Result
  | .changeRole orgId target role actor => changeRole users db orgId target role actor
  | .removeMember orgId target => removeMember users db orgId target
  | .transferOwnership orgId toUserId selfNewRole actor =>
    transferOwnership db orgId toUserId selfNewRole actor
  | .revokeGrant orgId tupleId => revokeGrant db orgId tupleId
  | .removeChannelMember actor channelId userId => removeChannelMember db actor channelId userId
  | .setGuestAccess actor tupleId channelId userId granted expiresAt =>
    setGuestAccess db actor tupleId channelId userId granted expiresAt
  | .removeTeamMember orgId teamId userId => removeTeamMember db orgId teamId userId
  | .revokeMemberGrant orgId userId permission => revokeMemberGrant db orgId userId permission
  | .revokeAllMemberGrants orgId userId => revokeAllMemberGrants db orgId userId

/-- The requests whose event asks the gateway for something. -/
def Request.announced : Request → Bool
  | .changeRole _ target _ _ => target ≠ ""
  | .removeMember _ target => target ≠ ""
  | .revokeGrant _ _ => true
  | _ => false

/-- What the events of a change ask the gateway for. -/
def Change.messages (change : Change) : List RevocationMessage :=
  change.events.filterMap revocationOf

end AccessChanges
end TaskFlow
