import TaskFlow.PolicyLaws
import TaskFlow.Tenancy

/-! # Room authorization

What the realtime gateway asks before a socket joins the room of a board, a
channel or a call, beside the check of the HTTP path for reading the same
object.  Both start from `resolveOrgMembership` and end in the policy engine;
the gateway does not pass the individual grants on.
-/
namespace TaskFlow
namespace Rooms
open Policy Tenancy

inductive JoinReason where
  | granted
  | not_a_member
  | no_such_board
  | no_such_channel
  | no_such_call
  | denied
  deriving DecidableEq, Repr

structure JoinAuthorization where
  allowed : Bool
  /-- Absent where the caller failed before a decision could be made. -/
  decision : Option Decision
  reason : JoinReason
  deriving DecidableEq, Repr

def JoinAuthorization.refuse (reason : JoinReason) : JoinAuthorization := ⟨false, none, reason⟩

def JoinAuthorization.ofDecision (decision : Decision) : JoinAuthorization :=
  if decision.allowed then ⟨true, some decision, .granted⟩
  else ⟨false, some decision, .denied⟩

/-- The subject of a join. -/
def joinSubject (userId : UserId) (membership : OrgMembership) : Subject where
  orgId := membership.orgId
  userId := userId
  role := membership.role
  tuples := membership.tuples

def authorizeJoin (db : Db) (now : Int) (userId : UserId) (orgId : OrgId) (boardId : BoardId) :
    Except AppError JoinAuthorization := do
  match ← resolveOrgMembership db now userId orgId with
  | none => pure (.refuse .not_a_member)
  | some membership =>
    match loadBoard db orgId boardId with
    | none => pure (.refuse .no_such_board)
    | some board => pure (.ofDecision
        (can (joinSubject userId membership) ⟨.board, .read⟩ (boardTarget boardId board)))

def authorizeChannelJoin (db : Db) (now : Int) (userId : UserId) (orgId : OrgId)
    (channelId : ChannelId) : Except AppError JoinAuthorization := do
  match ← resolveOrgMembership db now userId orgId with
  | none => pure (.refuse .not_a_member)
  | some membership =>
    match loadChannel db orgId channelId with
    | none => pure (.refuse .no_such_channel)
    | some channel => pure (.ofDecision
        (can (joinSubject userId membership) ⟨.channel, .read⟩ (channelTarget channelId channel)))

/-- A call has no target: `call:read` is given by the role alone. -/
def authorizeCallJoin (db : Db) (now : Int) (userId : UserId) (orgId : OrgId) (callId : CallId) :
    Except AppError JoinAuthorization := do
  match ← resolveOrgMembership db now userId orgId with
  | none => pure (.refuse .not_a_member)
  | some membership =>
    if !callExists db orgId callId then pure (.refuse .no_such_call)
    else pure (.ofDecision (can (joinSubject userId membership) ⟨.call, .read⟩ none))

/-! ### The same objects over HTTP -/

/-- The check a route makes before its handler: a membership, and a permission
that could be granted. -/
def route (db : Db) (now : Int) (userId : UserId) (orgId : OrgId) (permission : Permission) :
    Except AppError Subject := do
  match ← resolveOrgMembership db now userId orgId with
  | none => throw notAMember
  | some membership =>
    if couldGrant (subjectOf userId membership) permission then
      pure (subjectOf userId membership)
    else throw forbidden

/-- The check of `listLists`, which reads a board. -/
def readBoard (db : Db) (now : Int) (userId : UserId) (orgId : OrgId) (boardId : BoardId) :
    Except AppError Decision := do
  let subject ← route db now userId orgId ⟨.board, .read⟩
  match loadBoard db orgId boardId with
  -- no board and a board of another organization look the same
  | none => throw notFound
  | some board => enforce subject ⟨.board, .read⟩ (boardTarget boardId board)

/-- The check of `getChannel`. -/
def readChannel (db : Db) (now : Int) (userId : UserId) (orgId : OrgId) (channelId : ChannelId) :
    Except AppError Decision := do
  let subject ← route db now userId orgId ⟨.channel, .read⟩
  match loadChannel db orgId channelId with
  | none => throw notFound
  | some channel => enforce subject ⟨.channel, .read⟩ (channelTarget channelId channel)

/-! ### When a join and a read are allowed -/

/-- The join is allowed. -/
def Joins (answer : Except AppError JoinAuthorization) : Prop :=
  ∃ authorization, answer = .ok authorization ∧ authorization.allowed = true

/-- The request gets past its checks. -/
def Reads (answer : Except AppError Decision) : Prop := ∃ decision, answer = .ok decision

variable {db : Db} {now : Int} {userId : UserId} {orgId : OrgId} {permission : Permission}

theorem joinSubject_eq (userId : UserId) (membership : OrgMembership) :
    joinSubject userId membership = (subjectOf userId membership).withoutGrants := rfl

@[simp] theorem ofDecision_allowed (decision : Decision) :
    (JoinAuthorization.ofDecision decision).allowed = decision.allowed := by
  unfold JoinAuthorization.ofDecision
  split <;> simp_all

theorem enforce_ok_iff {subject : Subject} {target : Option Target} :
    Reads (enforce subject permission target) ↔ (can subject permission target).allowed = true := by
  unfold Reads enforce
  by_cases h : (can subject permission target).allowed = true <;> simp [h]

/-- A membership of the user is resolved, the object is there as `target`, and
the subject made from the membership is allowed to read it. -/
def Allowed (db : Db) (now : Int) (userId : UserId) (orgId : OrgId) (permission : Permission)
    (target : Option Target) (subject : OrgMembership → Subject) : Prop :=
  ∃ membership, resolveOrgMembership db now userId orgId = .ok (some membership) ∧
    ∃ t, target = some t ∧ (can (subject membership) permission (some t)).allowed = true

theorem joins_board_iff {boardId : BoardId} :
    Joins (authorizeJoin db now userId orgId boardId) ↔
      Allowed db now userId orgId ⟨.board, .read⟩
        ((loadBoard db orgId boardId).map (boardTarget boardId)) (joinSubject userId) := by
  unfold Joins Allowed authorizeJoin
  rcases resolveOrgMembership db now userId orgId with error | _ | membership
  · simp [bind, Except.bind]
  · simp [bind, Except.bind, pure, Except.pure, JoinAuthorization.refuse]
  · cases loadBoard db orgId boardId <;>
      simp [bind, Except.bind, pure, Except.pure, JoinAuthorization.refuse]

theorem joins_channel_iff {channelId : ChannelId} :
    Joins (authorizeChannelJoin db now userId orgId channelId) ↔
      Allowed db now userId orgId ⟨.channel, .read⟩
        ((loadChannel db orgId channelId).map (channelTarget channelId)) (joinSubject userId) := by
  unfold Joins Allowed authorizeChannelJoin
  rcases resolveOrgMembership db now userId orgId with error | _ | membership
  · simp [bind, Except.bind]
  · simp [bind, Except.bind, pure, Except.pure, JoinAuthorization.refuse]
  · cases loadChannel db orgId channelId <;>
      simp [bind, Except.bind, pure, Except.pure, JoinAuthorization.refuse]

theorem joins_call_iff {callId : CallId} :
    Joins (authorizeCallJoin db now userId orgId callId) ↔
      ∃ membership, resolveOrgMembership db now userId orgId = .ok (some membership) ∧
        callExists db orgId callId = true ∧
          (can (joinSubject userId membership) ⟨.call, .read⟩ none).allowed = true := by
  unfold Joins authorizeCallJoin
  rcases resolveOrgMembership db now userId orgId with error | _ | membership
  · simp [bind, Except.bind]
  · simp [bind, Except.bind, pure, Except.pure, JoinAuthorization.refuse]
  · cases callExists db orgId callId <;>
      simp [bind, Except.bind, pure, Except.pure, JoinAuthorization.refuse]

/-- The check of a route is passed by whoever `can` allows. -/
theorem reads_iff {target : Option Target} (horg : isOrgLevel permission = false) :
    Reads (do
      let subject ← route db now userId orgId permission
      match target with
      | none => throw notFound
      | some t => enforce subject permission (some t)) ↔
      Allowed db now userId orgId permission target (subjectOf userId) := by
  unfold Allowed route
  rcases resolveOrgMembership db now userId orgId with error | _ | membership
  · simp [bind, Except.bind, Reads]
  · simp [bind, Except.bind, Reads, throw, throwThe, MonadExceptOf.throw]
  cases target with
  | none =>
    cases hcould : couldGrant (subjectOf userId membership) permission <;>
      simp [bind, Except.bind, Reads, hcould, throw, throwThe, MonadExceptOf.throw, pure,
        Except.pure]
  | some t =>
    -- whoever the object allows is let through by the route
    have hsound := fun h => (couldGrant_sound (subjectOf userId membership) permission).1 horg
      (some t) h
    cases hcould : couldGrant (subjectOf userId membership) permission with
    | true =>
      simp only [bind, Except.bind, hcould, if_true, pure, Except.pure, enforce_ok_iff]
      simp
    | false =>
      rw [hcould] at hsound
      simp [bind, Except.bind, Reads, hcould, throw, throwThe, MonadExceptOf.throw]
      simpa using hsound

theorem reads_board_iff {boardId : BoardId} :
    Reads (readBoard db now userId orgId boardId) ↔
      Allowed db now userId orgId ⟨.board, .read⟩
        ((loadBoard db orgId boardId).map (boardTarget boardId)) (subjectOf userId) := by
  rw [← reads_iff (by decide)]
  unfold readBoard
  cases loadBoard db orgId boardId <;> rfl

theorem reads_channel_iff {channelId : ChannelId} :
    Reads (readChannel db now userId orgId channelId) ↔
      Allowed db now userId orgId ⟨.channel, .read⟩
        ((loadChannel db orgId channelId).map (channelTarget channelId)) (subjectOf userId) := by
  rw [← reads_iff (by decide)]
  unfold readChannel
  cases loadChannel db orgId channelId <;> rfl

/-! ### The two decisions -/

/-- The user's role does not give the permission, a stored grant that is not
revoked does, the object is open, and the user holds no relation on its chain. -/
def RestsOnStoredGrant (db : Db) (now : Int) (userId : UserId) (orgId : OrgId)
    (permission : Permission) (target : Option Target) : Prop :=
  ∃ membership, resolveOrgMembership db now userId orgId = .ok (some membership) ∧
    ∃ t, target = some t ∧ roleGrants membership.role permission = false ∧
      permission ∈ membership.memberGrants ∧ t.closed = false ∧
        ∀ tuple ∈ membership.tuples, tuple.object ∉ t.chain

theorem hasMemberGrant_subjectOf {membership : OrgMembership} :
    hasMemberGrant (subjectOf userId membership) permission = true ↔
      permission ∈ membership.memberGrants :=
  decide_eq_true_iff

theorem restsOnGrant_subjectOf {membership : OrgMembership} {t : Target}
    (hperm : isPermission permission = true) (hread : permission.action = .read) :
    RestsOnGrant (subjectOf userId membership) permission (some t) ↔
      roleGrants membership.role permission = false ∧ permission ∈ membership.memberGrants ∧
        t.closed = false ∧ ∀ tuple ∈ membership.tuples, tuple.object ∉ t.chain := by
  rw [restsOnGrant_read_iff hperm hread, hasMemberGrant_subjectOf]
  rfl

theorem askable_subjectOf {membership : OrgMembership} {t : Target}
    (hresolve : resolveOrgMembership db now userId orgId = .ok (some membership))
    (hperm : isPermission permission = true) (horg : t.orgId = orgId) :
    Askable (subjectOf userId membership) permission (some t) where
  permission := hperm
  role := resolve_isRole hresolve
  orgId := by
    rintro _ ⟨⟩
    exact horg.trans (resolve_orgId hresolve).symm

/-- The subject of a join is allowed what the subject of a request is, but for
what rests on a grant. -/
theorem allowed_joinSubject_iff {target : Option Target}
    (hperm : isPermission permission = true) (hread : permission.action = .read)
    (horg : ∀ t ∈ target, t.orgId = orgId) :
    (Allowed db now userId orgId permission target (joinSubject userId) ↔
        Allowed db now userId orgId permission target (subjectOf userId)) ↔
      ¬ RestsOnStoredGrant db now userId orgId permission target := by
  constructor
  -- a read that rests on a grant is refused to the join, which passes no grants on
  · rintro hsame ⟨membership, hresolve, t, ht, hcase⟩
    have hask := askable_subjectOf hresolve hperm (horg t ht)
    have hgrant : RestsOnGrant (subjectOf userId membership) permission (some t) :=
      (restsOnGrant_subjectOf hperm hread).mpr hcase
    obtain ⟨membership', hresolve', t', ht', hjoin⟩ := hsame.mpr
      ⟨membership, hresolve, t, ht, allowed_of_restsOnGrant hask hgrant⟩
    rw [hresolve] at hresolve'
    rw [ht] at ht'
    cases hresolve'
    cases ht'
    rw [joinSubject_eq, not_allowed_of_restsOnGrant hgrant] at hjoin
    cases hjoin
  · intro hnot
    constructor
    · rintro ⟨membership, hresolve, t, ht, hjoin⟩
      exact ⟨membership, hresolve, t, ht, allowed_of_withoutGrants hjoin⟩
    · rintro ⟨membership, hresolve, t, ht, hreads⟩
      have hask := askable_subjectOf hresolve hperm (horg t ht)
      rcases (allowed_iff_withoutGrants hask).mp hreads with hjoin | hgrant
      · exact ⟨membership, hresolve, t, ht, hjoin⟩
      · exact absurd ⟨membership, hresolve, t, ht, (restsOnGrant_subjectOf hperm hread).mp hgrant⟩
          hnot

theorem boardTarget_orgId {boardId : BoardId} :
    ∀ t ∈ (loadBoard db orgId boardId).map (boardTarget boardId), t.orgId = orgId := by
  intro t ht
  obtain ⟨board, hboard, rfl⟩ := Option.map_eq_some_iff.mp ht
  exact loadBoard_orgId hboard

theorem channelTarget_orgId {channelId : ChannelId} :
    ∀ t ∈ (loadChannel db orgId channelId).map (channelTarget channelId), t.orgId = orgId := by
  intro t ht
  obtain ⟨channel, hchannel, rfl⟩ := Option.map_eq_some_iff.mp ht
  exact loadChannel_orgId hchannel

/-- **A join is allowed exactly where a read is**, unless the read rests on an
individual grant: the gateway does not pass those on. -/
theorem join_iff_read (db : Db) (now : Int) (userId : UserId) (orgId : OrgId) :
    (∀ boardId, (Joins (authorizeJoin db now userId orgId boardId) ↔
        Reads (readBoard db now userId orgId boardId)) ↔
      ¬ RestsOnStoredGrant db now userId orgId ⟨.board, .read⟩
        ((loadBoard db orgId boardId).map (boardTarget boardId))) ∧
    ∀ channelId, (Joins (authorizeChannelJoin db now userId orgId channelId) ↔
        Reads (readChannel db now userId orgId channelId)) ↔
      ¬ RestsOnStoredGrant db now userId orgId ⟨.channel, .read⟩
        ((loadChannel db orgId channelId).map (channelTarget channelId)) := by
  constructor
  · intro boardId
    rw [joins_board_iff, reads_board_iff]
    exact allowed_joinSubject_iff (by decide) rfl boardTarget_orgId
  · intro channelId
    rw [joins_channel_iff, reads_channel_iff]
    exact allowed_joinSubject_iff (by decide) rfl channelTarget_orgId

/-- A guest who may read boards by an individual grant. -/
def grantedGuest : Db where
  membership _ userId := if userId = "g1" then some ⟨"m1", .guest, .active⟩ else none
  orgStatus _ := some .active
  teamMembers := []
  tuples := []
  memberGrants := [{ orgId := "o1", membershipId := "m1", permission := ⟨.board, .read⟩ }]
  board boardId := if boardId = "b1" then some { orgId := "o1", projectId := "p1" } else none
  channel _ := none
  call _ := none

/-- The guest reads the board over HTTP and is refused its room. -/
theorem grantedGuest_read_not_joined :
    ¬ ∀ db now userId orgId boardId, Joins (authorizeJoin db now userId orgId boardId) ↔
      Reads (readBoard db now userId orgId boardId) := by
  intro h
  have hsame := h grantedGuest 0 "g1" "o1" "b1"
  rw [joins_board_iff, reads_board_iff] at hsame
  apply (allowed_joinSubject_iff (by decide) rfl boardTarget_orgId).mp hsame
  exact ⟨_, rfl, _, rfl, by decide, by decide, rfl, nofun⟩

/-- Where every stored grant is one that may be granted individually, joins and
reads agree on all boards and channels. -/
theorem join_iff_read_of_grantable
    (hgrants : ∀ row ∈ db.memberGrants, isGrantable row.permission = true) :
    (∀ boardId, Joins (authorizeJoin db now userId orgId boardId) ↔
        Reads (readBoard db now userId orgId boardId)) ∧
      ∀ channelId, Joins (authorizeChannelJoin db now userId orgId channelId) ↔
        Reads (readChannel db now userId orgId channelId) := by
  have hnot : ∀ permission target, isGrantable permission = false →
      ¬ RestsOnStoredGrant db now userId orgId permission target := by
    rintro permission target hnot ⟨membership, hresolve, -, -, -, hmem, -⟩
    obtain ⟨_, -, -, -, rfl⟩ := resolve_some hresolve
    obtain ⟨row, hrow, rfl⟩ := List.mem_map.mp (List.mem_of_mem_filter hmem)
    rw [hgrants row (List.mem_of_mem_filter hrow)] at hnot
    cases hnot
  constructor
  · intro boardId
    rw [joins_board_iff, reads_board_iff]
    exact (allowed_joinSubject_iff (by decide) rfl boardTarget_orgId).mpr
      (hnot _ _ (by decide))
  · intro channelId
    rw [joins_channel_iff, reads_channel_iff]
    exact (allowed_joinSubject_iff (by decide) rfl channelTarget_orgId).mpr
      (hnot _ _ (by decide))

theorem grantedCaller_join_iff_read :
    let db := { grantedGuest with
      memberGrants := [{ orgId := "o1", membershipId := "m1", permission := ⟨.call, .read⟩ }] }
    Joins (authorizeJoin db 0 "g1" "o1" "b1") ↔ Reads (readBoard db 0 "g1" "o1" "b1") :=
  (join_iff_read_of_grantable (by decide)).1 "b1"

end Rooms
end TaskFlow
