import TaskFlow.Rooms

/-! # Who may be in a room

The decision behind a join, read off the rows: an active membership, an object
that is there, and either a role that reaches it or a relation on its chain.
From this form follows what a change of the rows can do to a decision, and that
time alone only takes access away.
-/
namespace TaskFlow
namespace Rooms
open Policy Tenancy

/-- A room of the gateway. -/
inductive Room where
  | board (boardId : BoardId)
  | channel (channelId : ChannelId)
  | call (callId : CallId)
  deriving DecidableEq, Repr

/-- What a socket is asked before it joins the room. -/
def authorize (db : Db) (now : Int) (userId : UserId) (orgId : OrgId) :
    Room → Except AppError JoinAuthorization
  | .board boardId => authorizeJoin db now userId orgId boardId
  | .channel channelId => authorizeChannelJoin db now userId orgId channelId
  | .call callId => authorizeCallJoin db now userId orgId callId

/-- The join decision of a room is true for a user. -/
def MayJoin (db : Db) (now : Int) (userId : UserId) (orgId : OrgId) (room : Room) : Prop :=
  Joins (authorize db now userId orgId room)

/-! ### The rows behind a decision -/

/-- How a room is reached: the permission it asks for, the objects a relation
may be on, and whether the role alone is enough. -/
structure Reach where
  permission : Permission
  objects : List ResourceRef
  byRole : Bool

def reach (db : Db) (orgId : OrgId) : Room → Option Reach
  | .board boardId => (loadBoard db orgId boardId).map fun board =>
      ⟨⟨.board, .read⟩, (boardTarget boardId board).chain, true⟩
  | .channel channelId => (loadChannel db orgId channelId).map fun channel =>
      ⟨⟨.channel, .read⟩, (channelTarget channelId channel).chain, !isClosedChannel channel⟩
  | .call callId => if callExists db orgId callId then some ⟨⟨.call, .read⟩, [], true⟩ else none

/-- The user is a member in good standing of an organization that is open. -/
def InGoodStanding (db : Db) (orgId : OrgId) (userId : UserId) (role : Role) : Prop :=
  ∃ membership, db.membership orgId userId = some membership ∧ membership.status = .active ∧
    isRole membership.role = true ∧ db.orgStatus orgId ≠ some .suspended ∧
      db.orgStatus orgId ≠ some .deleted ∧ membership.role = role

/-- The row is a live relation of the user, or of a team of the user. -/
def Applies (db : Db) (now : Int) (orgId : OrgId) (userId : UserId) (row : TupleRow) : Prop :=
  row.orgId = orgId ∧ row.subjectMatch userId (teamIds db orgId userId) = true ∧
    row.live now = true ∧ row.relation.isSome = true

/-- A role reaches the room, or a relation on one of its objects does. -/
def Reaches (db : Db) (now : Int) (orgId : OrgId) (userId : UserId) (role : Role)
    (reach : Reach) : Prop :=
  (reach.byRole = true ∧ roleGrants role reach.permission = true) ∨
    ∃ row ∈ db.tuples, Applies db now orgId userId row ∧
      (⟨row.objectType, row.objectId⟩ : ResourceRef) ∈ reach.objects

variable {db : Db} {now : Int} {userId : UserId} {orgId : OrgId} {room : Room}

theorem resolve_some_iff {org : OrgMembership} :
    resolveOrgMembership db now userId orgId = .ok (some org) ↔
      ∃ membership, db.membership orgId userId = some membership ∧ membership.status = .active ∧
        isRole membership.role = true ∧ db.orgStatus orgId ≠ some .suspended ∧
          db.orgStatus orgId ≠ some .deleted ∧ org = {
            orgId
            role := membership.role
            tuples := loadTuples db now orgId userId
            memberGrants := loadMemberGrants db orgId membership.id } := by
  constructor
  · intro h
    obtain ⟨membership, hrow, hstatus, hrole, rfl⟩ := resolve_some h
    refine ⟨membership, hrow, hstatus, hrole, ?_, ?_, rfl⟩
    · intro hsuspended
      simp [resolveOrgMembership, hrow, hstatus, hrole, hsuspended] at h
    · intro hdeleted
      simp [resolveOrgMembership, hrow, hstatus, hrole, hdeleted] at h
  · rintro ⟨membership, hrow, hstatus, hrole, hsuspended, hdeleted, rfl⟩
    simp [resolveOrgMembership, hrow, hstatus, hrole, hsuspended, hdeleted]

/-- A relation of the resolved subject is on one of the objects. -/
theorem exists_tuple_iff {objects : List ResourceRef} :
    (∃ tuple ∈ loadTuples db now orgId userId, tuple.object ∈ objects) ↔
      ∃ row ∈ db.tuples, Applies db now orgId userId row ∧
        (⟨row.objectType, row.objectId⟩ : ResourceRef) ∈ objects := by
  simp only [loadTuples, List.mem_filterMap, List.mem_filter, TupleRow.resolve,
    Bool.and_eq_true, decide_eq_true_eq, Option.map_eq_some_iff]
  constructor
  · rintro ⟨tuple, ⟨row, ⟨hrow, ⟨horg, hmatch⟩, hlive⟩, relation, hrelation, rfl⟩, hobject⟩
    exact ⟨row, hrow, ⟨horg, hmatch, hlive, by rw [hrelation]; rfl⟩, hobject⟩
  · rintro ⟨row, hrow, ⟨horg, hmatch, hlive, hsome⟩, hobject⟩
    obtain ⟨relation, hrelation⟩ := Option.isSome_iff_exists.mp hsome
    exact ⟨_, ⟨row, ⟨hrow, ⟨horg, hmatch⟩, hlive⟩, relation, hrelation, rfl⟩, hobject⟩

/-- A subject of no individual grants reads what a relation is on, and else what
is open to the role. -/
theorem can_read_iff {subject : Subject} {permission : Permission} {target : Target}
    (hgrants : subject.memberGrants = none) (hperm : isPermission permission = true)
    (hread : permission.action = .read) (hrole : isRole subject.role = true)
    (horg : target.orgId = subject.orgId) :
    (can subject permission (some target)).allowed = true ↔
      (target.closed = false ∧ roleGrants subject.role permission = true) ∨
        ∃ tuple ∈ subject.tuples, tuple.object ∈ target.chain := by
  have hby : byRole subject permission = roleGrants subject.role permission := by
    simp [byRole_eq, hasMemberGrant, hgrants]
  have hnil : nearestApplicable subject.tuples target = [] ↔
      ¬ ∃ tuple ∈ subject.tuples, tuple.object ∈ target.chain := by
    rw [nearestApplicable, Nearest.nearest_eq_nil_iff]
    simp only [not_exists, not_and]
  rw [can_allowed_iff, hby]
  constructor
  · rintro ⟨-, -, -, ⟨-, hopen, hgrant⟩ | ⟨hsome, -⟩⟩
    · exact .inl ⟨hopen, hgrant⟩
    · exact .inr (not_not.mp fun hno => hsome (hnil.mpr hno))
  · intro hcase
    refine ⟨hperm, hrole, horg, ?_⟩
    by_cases htuple : ∃ tuple ∈ subject.tuples, tuple.object ∈ target.chain
    · have hsome := mt hnil.mp (not_not.mpr htuple)
      obtain ⟨tuple, hmem⟩ := List.exists_mem_of_ne_nil _ hsome
      exact .inr ⟨hsome, .inl ⟨tuple, hmem, relationGrants_read tuple.relation hperm hread⟩⟩
    · obtain ⟨hopen, hgrant⟩ := hcase.resolve_right htuple
      exact .inl ⟨hnil.mpr htuple, hopen, hgrant⟩

/-- What is allowed to the subject of a join on a target, read off the rows. -/
theorem allowed_iff_reaches {permission : Permission} {target : Option Target}
    (hperm : isPermission permission = true) (hread : permission.action = .read)
    (horg : ∀ t ∈ target, t.orgId = orgId) :
    Allowed db now userId orgId permission target (joinSubject userId) ↔
      ∃ role, InGoodStanding db orgId userId role ∧ ∃ t, target = some t ∧
        Reaches db now orgId userId role ⟨permission, t.chain, !t.closed⟩ := by
  constructor
  · rintro ⟨_, hresolve, t, ht, hallowed⟩
    obtain ⟨membership, hrow, hstatus, hrole, hsuspended, hdeleted, rfl⟩ :=
      (resolve_some_iff).mp hresolve
    refine ⟨membership.role, ⟨membership, hrow, hstatus, hrole, hsuspended, hdeleted, rfl⟩,
      t, ht, ?_⟩
    rcases (can_read_iff rfl hperm hread hrole (horg t ht)).mp hallowed with
      ⟨hopen, hgrant⟩ | htuple
    · exact .inl ⟨by rw [hopen]; rfl, hgrant⟩
    · exact .inr ((exists_tuple_iff).mp htuple)
  · rintro ⟨_, ⟨membership, hrow, hstatus, hrole, hsuspended, hdeleted, rfl⟩, t, ht, hreaches⟩
    refine ⟨_, (resolve_some_iff).mpr
      ⟨membership, hrow, hstatus, hrole, hsuspended, hdeleted, rfl⟩, t, ht, ?_⟩
    apply (can_read_iff rfl hperm hread hrole (horg t ht)).mpr
    rcases hreaches with ⟨hopen, hgrant⟩ | htuple
    · exact .inl ⟨by simpa using hopen, hgrant⟩
    · exact .inr ((exists_tuple_iff).mpr htuple)

/-- A call is reached by the role alone. -/
theorem joins_call_iff_reaches {callId : CallId} :
    Joins (authorizeCallJoin db now userId orgId callId) ↔
      ∃ role, InGoodStanding db orgId userId role ∧ callExists db orgId callId = true ∧
        Reaches db now orgId userId role ⟨⟨.call, .read⟩, [], true⟩ := by
  rw [joins_call_iff]
  constructor
  · rintro ⟨_, hresolve, hexists, hallowed⟩
    obtain ⟨membership, hrow, hstatus, hrole, hsuspended, hdeleted, rfl⟩ :=
      (resolve_some_iff).mp hresolve
    obtain ⟨-, -, hby⟩ := can_none_allowed_iff.mp hallowed
    rw [joinSubject_eq, byRole_withoutGrants] at hby
    exact ⟨membership.role, ⟨membership, hrow, hstatus, hrole, hsuspended, hdeleted, rfl⟩,
      hexists, .inl ⟨rfl, hby⟩⟩
  · rintro ⟨_, ⟨membership, hrow, hstatus, hrole, hsuspended, hdeleted, rfl⟩, hexists, hreaches⟩
    refine ⟨_, (resolve_some_iff).mpr
      ⟨membership, hrow, hstatus, hrole, hsuspended, hdeleted, rfl⟩, hexists, ?_⟩
    rcases hreaches with ⟨-, hgrant⟩ | ⟨_, -, -, hmem⟩
    · refine can_none_allowed_iff.mpr ⟨rfl, hrole, ?_⟩
      rw [joinSubject_eq, byRole_withoutGrants]
      exact hgrant
    · exact absurd hmem List.not_mem_nil

/-- **The join decision, read off the rows.** -/
theorem mayJoin_iff : MayJoin db now userId orgId room ↔
    ∃ role, InGoodStanding db orgId userId role ∧
      ∃ r, reach db orgId room = some r ∧ Reaches db now orgId userId role r := by
  unfold MayJoin
  cases room with
  | board boardId =>
    refine joins_board_iff.trans ((allowed_iff_reaches (by decide) rfl boardTarget_orgId).trans ?_)
    simp only [reach, Option.map_eq_some_iff, exists_exists_and_eq_and]
    exact Iff.rfl
  | channel channelId =>
    refine joins_channel_iff.trans
      ((allowed_iff_reaches (by decide) rfl channelTarget_orgId).trans ?_)
    simp only [reach, Option.map_eq_some_iff, exists_exists_and_eq_and]
    exact Iff.rfl
  | call callId =>
    apply (joins_call_iff_reaches).trans
    simp only [reach]
    cases callExists db orgId callId <;> simp

/-! ### What a decision depends on -/

theorem Applies.earlier {later : Int} {row : TupleRow} (hle : now ≤ later)
    (h : Applies db later orgId userId row) : Applies db now orgId userId row := by
  obtain ⟨horg, hmatch, hlive, hsome⟩ := h
  refine ⟨horg, hmatch, ?_, hsome⟩
  unfold TupleRow.live at hlive ⊢
  cases hexpires : row.expiresAt with
  | none => rfl
  | some expiresAt =>
    simp only [hexpires, gt_iff_lt, decide_eq_true_eq] at hlive ⊢
    omega

/-- Who may join at some time might have joined before, as long as the rows are
the same: tuples lapse. -/
theorem MayJoin.earlier {later : Int} (hle : now ≤ later)
    (h : MayJoin db later userId orgId room) : MayJoin db now userId orgId room := by
  obtain ⟨role, hstanding, r, hr, hreaches⟩ := (mayJoin_iff).mp h
  refine (mayJoin_iff).mpr ⟨role, hstanding, r, hr, hreaches.imp_right ?_⟩
  rintro ⟨row, hrow, happlies, hobject⟩
  exact ⟨row, hrow, happlies.earlier hle, hobject⟩

/-- The objects and the organizations are the same in both. -/
structure SameObjects (db db' : Db) : Prop where
  orgStatus : db'.orgStatus = db.orgStatus
  board : db'.board = db.board
  channel : db'.channel = db.channel
  call : db'.call = db.call

theorem SameObjects.reach {db' : Db} (h : SameObjects db db') :
    reach db' orgId room = reach db orgId room := by
  cases room <;> simp [Rooms.reach, loadBoard, loadChannel, callExists, h.board, h.channel, h.call]

/-- The organization of a room's row. -/
def roomOrg (db : Db) : Room → Option OrgId
  | .board boardId => (db.board boardId).map BoardRow.orgId
  | .channel channelId => (db.channel channelId).map ChannelRow.orgId
  | .call callId => db.call callId

theorem SameObjects.roomOrg {db' : Db} (h : SameObjects db db') (room : Room) :
    roomOrg db' room = roomOrg db room := by
  cases room <;> simp [Rooms.roomOrg, h.board, h.channel, h.call]

/-- A room is joined under the organization of its row. -/
theorem MayJoin.roomOrg (h : MayJoin db now userId orgId room) : roomOrg db room = some orgId := by
  obtain ⟨_, -, r, hr, -⟩ := (mayJoin_iff).mp h
  cases room with
  | board boardId =>
    obtain ⟨board, hload, -⟩ := Option.map_eq_some_iff.mp hr
    obtain ⟨hrow, -⟩ := Option.filter_eq_some_iff.mp hload
    simp [Rooms.roomOrg, hrow, loadBoard_orgId hload]
  | channel channelId =>
    obtain ⟨channel, hload, -⟩ := Option.map_eq_some_iff.mp hr
    obtain ⟨hrow, -⟩ := Option.filter_eq_some_iff.mp hload
    simp [Rooms.roomOrg, hrow, loadChannel_orgId hload]
  | call callId =>
    simp only [reach] at hr
    split_ifs at hr with hexists
    exact of_decide_eq_true hexists

/-- What was reached before a change of members, teams and tuples and is no
longer: the membership is another one, or a relation that applied is gone. -/
theorem MayJoin.lost {db' : Db} (hsame : SameObjects db db')
    (hmay : MayJoin db now userId orgId room) (hnot : ¬ MayJoin db' now userId orgId room) :
    db'.membership orgId userId ≠ db.membership orgId userId ∨
      ∃ row ∈ db.tuples, Applies db now orgId userId row ∧
        ¬ (row ∈ db'.tuples ∧ Applies db' now orgId userId row) := by
  obtain ⟨role, ⟨membership, hrow, hstatus, hrole, hsuspended, hdeleted, rfl⟩, r, hr, hreaches⟩ :=
    (mayJoin_iff).mp hmay
  by_cases hmember : db'.membership orgId userId = db.membership orgId userId
  swap
  · exact .inl hmember
  refine .inr (by_contra fun hkept => hnot ((mayJoin_iff).mpr ⟨membership.role, ?_, r, ?_, ?_⟩))
  · exact ⟨membership, by rw [hmember, hrow], hstatus, hrole, by rwa [hsame.orgStatus],
      by rwa [hsame.orgStatus], rfl⟩
  · rw [hsame.reach, hr]
  · apply hreaches.imp_right
    rintro ⟨row, hmem, happlies, hobject⟩
    obtain ⟨hmem', happlies'⟩ := not_not.mp fun h => hkept ⟨row, hmem, happlies, h⟩
    exact ⟨row, hmem', happlies', hobject⟩

end Rooms
end TaskFlow
