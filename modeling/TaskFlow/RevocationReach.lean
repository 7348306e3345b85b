import TaskFlow.AccessChanges

/-! # What a revocation reaches

A change is covered where its events ask the gateway about every user and
organization it takes a room from.  The member removal, the role change and the
revoked grant are; the other changes ask for nothing.  Of the rooms of a socket
that is asked about, a sweep leaves the boards and the channels on record that
are no longer allowed, and never a call.
-/
namespace TaskFlow
namespace AccessChanges
open Policy Tenancy Rooms Gateway

variable {users : List UserId} {db : Db} {now : Int} {orgId : OrgId} {userId : UserId}
  {room : Room} {change : Change} {request : Request}

/-! ### What each function commits -/

theorem setMembership_membership {org : OrgId} {target : UserId} {membership : Option Membership}
    (h : (setMembership db orgId target membership).membership org userId ≠
      db.membership org userId) : org = orgId ∧ userId = target := by
  by_contra hno
  exact h (if_neg hno)

/-! ### What each event asks for -/

theorem length_pos_of_ne {value : String} (hne : value ≠ "") : value.length > 0 :=
  Nat.pos_of_ne_zero fun h => hne (String.length_eq_zero_iff.mp h)

theorem textField_of_ne {fields : List (String × Field)} {key value : String}
    (h : fields.lookup key = some (.text value)) (hne : value ≠ "") :
    textField fields key = some value := by
  simp [textField, h, length_pos_of_ne hne]

theorem revocationOf_memberRoleChanged {membership : Membership} {role : Role}
    (hne : userId ≠ "") : revocationOf (memberRoleChanged orgId membership userId role) =
      some (.recheck_user orgId userId) :=
  congrArg (Option.map _) (textField_of_ne rfl hne)

theorem revocationOf_memberRemoved {membership : Membership} (hne : userId ≠ "") :
    revocationOf (memberRemoved orgId membership userId) =
      some (.member_removed orgId userId) :=
  congrArg (Option.map _) (textField_of_ne rfl hne)

/-- A grant to a user asks about that user. -/
theorem revocationOf_grant {fields : List (String × Field)} {value : String}
    (htype : fields.lookup "subjectType" = some (.text "user"))
    (hid : textField fields "subjectId" = some value) :
    revocationOf ⟨"grant.revoked", orgId, some fields⟩ = some (.recheck_user orgId value) := by
  have hteam : fields.lookup "subjectType" ≠ some (.text "team") := by
    rw [htype]
    decide
  apply (if_neg hteam).trans
  rw [hid]

/-- The message of a revoked grant is about everyone the relation named. -/
theorem revocationOf_grantRevoked (orgId : OrgId) (row : TupleRow) :
    ∃ message, revocationOf (grantRevoked orgId row) = some message ∧
      ∀ userId teams, row.subjectMatch userId teams = true → Covers message orgId userId := by
  obtain ⟨_, _, subjectType, subjectId, _, _, _, _, _⟩ := row
  cases subjectType with
  | team => exact ⟨.recheck_org orgId, rfl, fun _ _ _ => rfl⟩
  | user =>
    by_cases hne : subjectId = ""
    · subst hne
      exact ⟨.recheck_org orgId, rfl, fun _ _ _ => rfl⟩
    · refine ⟨.recheck_user orgId subjectId, ?_, fun _ _ hmatch => ⟨rfl, of_decide_eq_true hmatch⟩⟩
      exact revocationOf_grant rfl (textField_of_ne rfl hne)

/-! ### What each function commits -/

theorem changeRole_ok {target actor : UserId} {role : Role}
    (h : changeRole users db orgId target role actor = .ok change) :
    change = ⟨db, []⟩ ∨ ∃ membership, change =
      ⟨setMembership db orgId target (some { membership with role }),
        [memberRoleChanged orgId membership target role]⟩ := by
  unfold changeRole at h
  cases hrow : db.membership orgId target with
  | none => grind
  | some membership => grind

theorem removeMember_ok {target : UserId} (h : removeMember users db orgId target = .ok change) :
    ∃ membership, change = ⟨{ setMembership db orgId target none with
        tuples := db.tuples.filter fun row =>
          ¬ (row.orgId = orgId ∧ row.subjectType = .user ∧ row.subjectId = target)
        teamMembers := db.teamMembers.filter fun row =>
          ¬ (row.orgId = orgId ∧ row.userId = target) },
      [memberRemoved orgId membership target]⟩ := by
  unfold removeMember at h
  cases hrow : db.membership orgId target with
  | none => grind
  | some membership => grind

/-- The one row a revoke removes is the one its event names. -/
theorem revokeGrant_ok {tupleId : String} (h : revokeGrant db orgId tupleId = .ok change) :
    ∃ row, change.events = [grantRevoked orgId row] ∧ row.orgId = orgId ∧
      change.db = { db with tuples := change.db.tuples } ∧
        ∀ other ∈ db.tuples, other ∉ change.db.tuples → other = row := by
  unfold revokeGrant at h
  cases hfind : db.tuples.find? (hasTupleId orgId tupleId) with
  | none => simp [hfind] at h
  | some row =>
    simp only [hfind, Except.ok.injEq] at h
    subst h
    have hrow : row.orgId = orgId ∧ row.id = tupleId := by
      simpa [hasTupleId] using List.find?_some hfind
    refine ⟨row, rfl, hrow.1, rfl, ?_⟩
    intro other hmem (hgone : other ∉ db.tuples.eraseP (hasTupleId orgId tupleId))
    rcases List.exists_or_eq_self_of_eraseP (hasTupleId orgId tupleId) db.tuples with
      hself | ⟨found, before, after, hbefore, hfound, hsplit, herase⟩
    · rw [hself] at hgone
      exact absurd hmem hgone
    · have hfirst : row = found := by
        rw [hsplit, List.find?_append, List.find?_eq_none.mpr fun b hb => by simpa using hbefore b hb,
          Option.none_or, List.find?_cons_of_pos hfound] at hfind
        exact (Option.some.inj hfind).symm
      rw [hsplit] at hmem
      rw [herase] at hgone
      rw [hfirst]
      simp only [List.mem_append, List.mem_cons, not_or] at hmem hgone
      tauto

theorem removeChannelMember_ok {actor : Subject} {channelId : ChannelId}
    (h : removeChannelMember db actor channelId userId = .ok change) :
    change = ⟨db, []⟩ ∨ change = ⟨removeChannelMemberTuple db actor.orgId channelId userId,
      [channelMemberRemoved actor.orgId channelId userId]⟩ := by
  unfold removeChannelMember at h
  grind

theorem setGuestAccess_ok {actor : Subject} {tupleId : String} {channelId : ChannelId}
    {granted : Bool} {expiresAt : Option Int}
    (h : setGuestAccess db actor tupleId channelId userId granted expiresAt = .ok change) :
    change.events = [channelGuestChanged actor.orgId channelId userId] ∧
      change.db = { db with tuples := change.db.tuples } := by
  unfold setGuestAccess at h
  grind [removeChannelMemberTuple]

theorem transferOwnership_ok {toUserId actor : UserId} {selfNewRole : OwnRole}
    (h : transferOwnership db orgId toUserId selfNewRole actor = .ok change) :
    change.events = [ownershipTransferred orgId actor toUserId selfNewRole] ∧
      change.db = { db with membership := change.db.membership } := by
  unfold transferOwnership at h
  grind [setMembership]

theorem removeTeamMember_ok {teamId : TeamId}
    (h : removeTeamMember db orgId teamId userId = .ok change) :
    change.events = [teamMemberRemoved orgId teamId userId] ∧
      change.db = { db with teamMembers := change.db.teamMembers } := by
  unfold removeTeamMember at h
  grind

theorem revokeMemberGrant_ok {permission : Permission}
    (h : revokeMemberGrant db orgId userId permission = .ok change) :
    ∃ membership, change =
      revokeGrants db orgId userId membership fun granted => granted = permission := by
  unfold revokeMemberGrant at h
  cases hfind : findActiveMembership db orgId userId with
  | none => simp [hfind] at h
  | some membership =>
    rw [hfind] at h
    exact ⟨membership, (Except.ok.inj h).symm⟩

theorem revokeAllMemberGrants_ok (h : revokeAllMemberGrants db orgId userId = .ok change) :
    ∃ membership, change = revokeGrants db orgId userId membership fun _ => true := by
  unfold revokeAllMemberGrants at h
  cases hfind : findActiveMembership db orgId userId with
  | none => simp [hfind] at h
  | some membership =>
    rw [hfind] at h
    exact ⟨membership, (Except.ok.inj h).symm⟩

/-- No change touches an object or an organization. -/
theorem commit_sameObjects (h : commit users db request = .ok change) :
    SameObjects db change.db := by
  cases request with
  | changeRole orgId target role actor =>
    rcases changeRole_ok h with rfl | ⟨membership, rfl⟩ <;> exact ⟨rfl, rfl, rfl, rfl⟩
  | removeMember orgId target =>
    obtain ⟨membership, rfl⟩ := removeMember_ok h
    exact ⟨rfl, rfl, rfl, rfl⟩
  | transferOwnership orgId toUserId selfNewRole actor =>
    rw [(transferOwnership_ok h).2]
    exact ⟨rfl, rfl, rfl, rfl⟩
  | revokeGrant orgId tupleId =>
    obtain ⟨-, -, -, hdb, -⟩ := revokeGrant_ok h
    rw [hdb]
    exact ⟨rfl, rfl, rfl, rfl⟩
  | removeChannelMember actor channelId userId =>
    rcases removeChannelMember_ok h with rfl | rfl <;> exact ⟨rfl, rfl, rfl, rfl⟩
  | setGuestAccess actor tupleId channelId userId granted expiresAt =>
    rw [(setGuestAccess_ok h).2]
    exact ⟨rfl, rfl, rfl, rfl⟩
  | removeTeamMember orgId teamId userId =>
    rw [(removeTeamMember_ok h).2]
    exact ⟨rfl, rfl, rfl, rfl⟩
  | revokeMemberGrant orgId userId permission =>
    obtain ⟨membership, rfl⟩ := revokeMemberGrant_ok h
    exact ⟨rfl, rfl, rfl, rfl⟩
  | revokeAllMemberGrants orgId userId =>
    obtain ⟨membership, rfl⟩ := revokeAllMemberGrants_ok h
    exact ⟨rfl, rfl, rfl, rfl⟩

/-! ### What a change asks for -/

theorem messages_revokeGrants {membership : Tenancy.Membership} {selects : Permission → Bool} :
    (revokeGrants db orgId userId membership selects).messages = [] := by
  apply List.filterMap_eq_nil_iff.mpr
  intro row hrow
  obtain ⟨grant, -, rfl⟩ := List.mem_map.mp hrow
  rfl

theorem messages_of_unannounced (h : commit users db request = .ok change)
    (hquiet : request.announced = false) : change.messages = [] := by
  cases request with
  | changeRole orgId target role actor =>
    obtain rfl : target = "" := not_not.mp (of_decide_eq_false hquiet)
    rcases changeRole_ok h with rfl | ⟨membership, rfl⟩ <;> rfl
  | removeMember orgId target =>
    obtain rfl : target = "" := not_not.mp (of_decide_eq_false hquiet)
    obtain ⟨membership, rfl⟩ := removeMember_ok h
    rfl
  | transferOwnership orgId toUserId selfNewRole actor =>
    rw [Change.messages, (transferOwnership_ok h).1]
    rfl
  | revokeGrant orgId tupleId => cases hquiet
  | removeChannelMember actor channelId userId =>
    rcases removeChannelMember_ok h with rfl | rfl <;> rfl
  | setGuestAccess actor tupleId channelId userId granted expiresAt =>
    rw [Change.messages, (setGuestAccess_ok h).1]
    rfl
  | removeTeamMember orgId teamId userId =>
    rw [Change.messages, (removeTeamMember_ok h).1]
    rfl
  | revokeMemberGrant orgId userId permission =>
    obtain ⟨membership, rfl⟩ := revokeMemberGrant_ok h
    exact messages_revokeGrants
  | revokeAllMemberGrants orgId userId =>
    obtain ⟨membership, rfl⟩ := revokeAllMemberGrants_ok h
    exact messages_revokeGrants

theorem applies_congr {db' : Db} {row : TupleRow} (hteams : db'.teamMembers = db.teamMembers) :
    Applies db' now orgId userId row ↔ Applies db now orgId userId row := by
  simp only [Applies, teamIds, hteams]

/-- The change takes the room from the user. -/
def Closes (db : Db) (now : Int) (change : Change) (orgId : OrgId) (userId : UserId)
    (room : Room) : Prop :=
  MayJoin db now userId orgId room ∧ ¬ MayJoin change.db now userId orgId room

/-- The events of the change come to one message, about the user. -/
def AsksAbout (change : Change) (orgId : OrgId) (userId : UserId) : Prop :=
  ∃ message, change.messages = [message] ∧ Covers message orgId userId

/-- What is behind a room that is taken away. -/
theorem Closes.lost (h : commit users db request = .ok change)
    (hcloses : Closes db now change orgId userId room) :
    change.db.membership orgId userId ≠ db.membership orgId userId ∨
      ∃ row ∈ db.tuples, Applies db now orgId userId row ∧
        ¬ (row ∈ change.db.tuples ∧ Applies change.db now orgId userId row) :=
  hcloses.1.lost (commit_sameObjects h) hcloses.2

theorem changeRole_asks {org : OrgId} {target actor : UserId} {role : Role} (hne : target ≠ "")
    (h : commit users db (.changeRole org target role actor) = .ok change)
    (hcloses : Closes db now change orgId userId room) : AsksAbout change orgId userId := by
  have hlost := hcloses.lost h
  rcases changeRole_ok h with rfl | ⟨membership, rfl⟩
  · exact absurd hcloses.1 hcloses.2
  · rcases hlost with hmember | ⟨row, hmem, happlies, hgone⟩
    · obtain ⟨rfl, rfl⟩ := setMembership_membership hmember
      refine ⟨.recheck_user orgId userId, ?_, rfl, rfl⟩
      simp [Change.messages, revocationOf_memberRoleChanged hne]
    · exact absurd ⟨hmem, (applies_congr rfl).mpr happlies⟩ hgone

theorem removeMember_asks {org : OrgId} {target : UserId} (hne : target ≠ "")
    (h : commit users db (.removeMember org target) = .ok change)
    (hcloses : Closes db now change orgId userId room) : AsksAbout change orgId userId := by
  have hlost := hcloses.lost h
  obtain ⟨membership, rfl⟩ := removeMember_ok h
  suffices hwho : orgId = org ∧ userId = target by
    obtain ⟨rfl, rfl⟩ := hwho
    refine ⟨.member_removed orgId userId, ?_, rfl, rfl⟩
    simp [Change.messages, revocationOf_memberRemoved hne]
  rcases hlost with hmember | ⟨row, hmem, ⟨horg, hmatch, hlive, hsome⟩, hgone⟩
  · exact setMembership_membership hmember
  · by_contra hother
    -- neither the relation nor a team of anyone else goes
    have hteams : ((db.teamMembers.filter fun row => ¬ (row.orgId = org ∧ row.userId = target)).filter
        fun row => row.orgId = orgId ∧ row.userId = userId) =
          db.teamMembers.filter fun row => row.orgId = orgId ∧ row.userId = userId := by
      rw [List.filter_filter]
      apply List.filter_congr
      intro row _
      grind
    refine hgone ⟨List.mem_filter.mpr ⟨hmem, decide_eq_true ?_⟩, horg, ?_, hlive, hsome⟩
    · rintro ⟨horg', htype, hsubject⟩
      refine hother ⟨horg.symm.trans horg', ?_⟩
      simp only [TupleRow.subjectMatch, htype, decide_eq_true_eq] at hmatch
      exact hmatch.symm.trans hsubject
    · simp only [teamIds] at hmatch ⊢
      rw [hteams]
      exact hmatch

theorem revokeGrant_asks {org : OrgId} {tupleId : String}
    (h : commit users db (.revokeGrant org tupleId) = .ok change)
    (hcloses : Closes db now change orgId userId room) : AsksAbout change orgId userId := by
  obtain ⟨row, hevents, horg, hdb, hgone⟩ := revokeGrant_ok h
  obtain ⟨message, hmessage, hcovers⟩ := revocationOf_grantRevoked org row
  rcases hcloses.lost h with hmember | ⟨other, hmem, happlies, hlost⟩
  · exact absurd (by rw [hdb]) hmember
  · have hnot : other ∉ change.db.tuples := fun hkept =>
      hlost ⟨hkept, (applies_congr (by rw [hdb])).mpr happlies⟩
    obtain rfl := hgone other hmem hnot
    refine ⟨message, ?_, ?_⟩
    · rw [Change.messages, hevents, List.filterMap_cons_some hmessage, List.filterMap_nil]
    · rw [← happlies.1, horg]
      exact hcovers userId _ happlies.2.1

/-- **What an announced change takes away, it asks about.** -/
theorem commit_asks (h : commit users db request = .ok change)
    (hannounced : request.announced = true) (hcloses : Closes db now change orgId userId room) :
    AsksAbout change orgId userId := by
  cases request with
  | changeRole org target role actor =>
    exact changeRole_asks (of_decide_eq_true hannounced) h hcloses
  | removeMember org target => exact removeMember_asks (of_decide_eq_true hannounced) h hcloses
  | revokeGrant org tupleId => exact revokeGrant_asks h hcloses
  | _ => cases hannounced

/-! ### What is left once the events are dispatched -/

/-- No socket is in a room that the change took from its user. -/
def NoneLeft (db : Db) (now : Int) (change : Change) (sockets : Sockets) : Prop :=
  ∀ ns, ∀ socket ∈ sockets.of ns, ∀ room ∈ socket.joined, ∀ orgId,
    ¬ Closes db now change orgId socket.identity.userId room

variable {later : Int}

theorem dispatchAll_unannounced (h : commit users db request = .ok change)
    (hquiet : request.announced = false) (sockets : Sockets) :
    dispatchAll change.db later sockets change.events = sockets := by
  rw [dispatchAll_eq, ← Change.messages, messages_of_unannounced h hquiet]
  rfl

theorem dispatchAll_single {message : RevocationMessage} (h : change.messages = [message])
    (sockets : Sockets) :
    dispatchAll change.db later sockets change.events =
      sockets.revoke change.db later message := by
  rw [dispatchAll_eq, ← Change.messages, h]
  rfl

/-- **What a revocation reaches.**  Once the events of a change are dispatched, no
socket is in a room that the change took from its user if and only if the change
is an announced one and every such room was a board or a channel on record, or
there was no such room. -/
theorem revocation_reaches_iff (h : commit users db request = .ok change) (hle : now ≤ later)
    (sockets : Sockets) :
    NoneLeft db now change (dispatchAll change.db later sockets change.events) ↔
      ∀ ns, ∀ socket ∈ sockets.of ns, ∀ room ∈ socket.joined, ∀ orgId,
        Closes db now change orgId socket.identity.userId room →
          request.announced = true ∧ OnRecord ns socket orgId room := by
  have hlater : ∀ {orgId userId room}, Closes db now change orgId userId room →
      ¬ MayJoin change.db later userId orgId room :=
    fun hcloses hmay => hcloses.2 (hmay.earlier hle)
  cases hannounced : request.announced with
  -- nothing is sent, so every socket stays where it is
  | false =>
    rw [dispatchAll_unannounced h hannounced]
    refine forall₂_congr fun ns socket => forall₂_congr fun _ room => forall₂_congr fun _ orgId => ?_
    simp
  -- one message is sent, and it covers whoever loses a room
  | true =>
    constructor
    · intro hnone ns socket hsocket room hroom orgId hcloses
      refine ⟨rfl, by_contra fun hoff => ?_⟩
      obtain ⟨message, hmessages, hcovers⟩ := commit_asks h hannounced hcloses
      obtain ⟨swept, hswept, hiff⟩ := handle_covers hcovers (hlater hcloses)
      have hmem : swept ∈ (sockets.revoke change.db later message).of ns := by
        rw [revoke_of]
        exact List.mem_filterMap.mpr ⟨socket, hsocket, hswept⟩
      rw [dispatchAll_single hmessages] at hnone
      apply hnone ns swept hmem room (hiff.mpr ⟨hroom, hoff⟩) orgId
      rwa [(handle_some hswept).1]
    · intro hreached ns swept hmem room hroom orgId hcloses
      obtain ⟨message, hmessages, hcovers⟩ := commit_asks h hannounced hcloses
      rw [dispatchAll_single hmessages, revoke_of] at hmem
      obtain ⟨socket, hsocket, hswept⟩ := List.mem_filterMap.mp hmem
      obtain ⟨hidentity, hjoined⟩ := handle_some hswept
      rw [hidentity] at hcloses hcovers
      obtain ⟨-, hrecord⟩ := hreached ns socket hsocket room (hjoined room hroom) orgId hcloses
      obtain ⟨swept', hswept', hiff⟩ := handle_covers hcovers (hlater hcloses)
      rw [hswept] at hswept'
      obtain rfl := Option.some.inj hswept'
      exact (hiff.mp hroom).2 hrecord

/-! ### An organization with a private channel and a call -/

def memberTuple : TupleRow where
  id := "t1"
  orgId := "o1"
  subjectType := .user
  subjectId := "u1"
  relation := some .member
  objectType := .channel
  objectId := "c1"

def ownerTuple : TupleRow where
  id := "t2"
  orgId := "o1"
  subjectType := .user
  subjectId := "u2"
  relation := some .owner
  objectType := .channel
  objectId := "c1"

/-- `u1` is an administrator and a member of the channel that `u2` owns. -/
def privateChannel : Db where
  membership orgId userId :=
    if orgId ≠ "o1" then none
    else if userId = "u1" then some ⟨"m1", .admin, .active⟩
    else if userId = "u2" then some ⟨"m2", .owner, .active⟩
    else none
  orgStatus _ := some .active
  teamMembers := []
  tuples := [memberTuple, ownerTuple]
  memberGrants := []
  board _ := none
  channel channelId := if channelId = "c1" then some ⟨"o1", .private⟩ else none
  call callId := if callId = "l1" then some "o1" else none

def channelOwner : Subject where
  orgId := "o1"
  userId := "u2"
  role := .owner
  tuples := [⟨"u2", .owner, ⟨.channel, "c1"⟩⟩]

/-- The chat socket of `u1`, after it joined a room. -/
def joinedRoom (room : Room) : Sockets where
  io := []
  chat := [Socket.join { identity := ⟨"u1", "s1"⟩ } room "o1"]

theorem privateChannel_orgId (h : MayJoin privateChannel now userId orgId room) :
    orgId = "o1" := by
  obtain ⟨_, ⟨membership, hrow, -⟩, -⟩ := mayJoin_iff.mp h
  by_contra hother
  simp [privateChannel, hother] at hrow

/-- The relation of `u1` is revoked as a grant: its socket leaves the channel. -/
theorem revoked_grant_reaches :
    NoneLeft privateChannel 0
      ⟨{ privateChannel with tuples := [ownerTuple] }, [grantRevoked "o1" memberTuple]⟩
      (dispatchAll { privateChannel with tuples := [ownerTuple] } 5 (joinedRoom (.channel "c1"))
        [grantRevoked "o1" memberTuple]) := by
  have hcommit : commit ["u1", "u2"] privateChannel (.revokeGrant "o1" "t1") = .ok
      ⟨{ privateChannel with tuples := [ownerTuple] }, [grantRevoked "o1" memberTuple]⟩ := rfl
  apply (revocation_reaches_iff hcommit (by decide) _).mpr
  intro ns socket hsocket room hroom orgId hcloses
  refine ⟨rfl, ?_⟩
  rw [privateChannel_orgId hcloses.1]
  cases ns with
  | io => exact absurd hsocket List.not_mem_nil
  | chat =>
    obtain rfl := List.mem_singleton.mp hsocket
    obtain rfl := List.mem_singleton.mp hroom
    exact ⟨"c1", rfl, List.mem_cons_self⟩

/-- Removed from the channel, `u1` is still in its room: the event is none that
the gateway looks at. -/
theorem removed_channel_member_stays :
    ¬ ∀ users db now later request change sockets, commit users db request = .ok change →
      now ≤ later →
        NoneLeft db now change (dispatchAll change.db later sockets change.events) := by
  intro h
  have hnone := h ["u1", "u2"] privateChannel 0 0 (.removeChannelMember channelOwner "c1" "u1")
    ⟨removeChannelMemberTuple privateChannel "o1" "c1" "u1",
      [channelMemberRemoved "o1" "c1" "u1"]⟩ (joinedRoom (.channel "c1")) rfl le_rfl
  refine hnone .chat _ List.mem_cons_self _ List.mem_cons_self "o1" ⟨?_, ?_⟩
  · exact (@stillAllowed_iff privateChannel 0 .chat "u1" "o1" "c1").mp rfl
  · exact mt (@stillAllowed_iff _ 0 .chat "u1" "o1" "c1").mpr nofun

end AccessChanges
end TaskFlow
