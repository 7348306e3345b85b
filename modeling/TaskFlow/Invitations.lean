import Mathlib.Data.List.Nodup
import TaskFlow.ScriptLogic

/-! # Invitations

An invitation is pending until it is accepted, revoked or found expired.  Each of these checks in
one statement that it is pending, and then writes its row by its id; accepting does so in two
transactions.  Inviting the same address again writes a new role and a new token to the row.

Where the row that is written last is still pending, and for an acceptance still has the token and
the role that were read, every membership comes from an invitation that is as it should be at the
commit, and an invitation is ended once (`redeemed_of_current`).
-/
namespace TaskFlow
namespace Invitations
open ReadCommitted ReadCommitted.Script ReadCommitted.Procedure

abbrev OrgId := String

abbrev UserId := String

abbrev InvitationId := String

abbrev TokenHash := String

inductive Role where
  | owner
  | admin
  | member
  | guest
  deriving DecidableEq, Repr

inductive Status where
  | pending
  | accepted
  | revoked
  | expired
  deriving DecidableEq, Repr

/-- A row of `identity.invitations`, as far as these operations read or end it. -/
structure Invitation where
  orgId : OrgId
  email : String
  role : Role
  status : Status
  tokenHash : TokenHash
  expiresAt : Int
  acceptedAt : Option Int
  acceptedUserId : Option UserId
  deriving DecidableEq, Repr

/-- What is granted to whoever accepts. -/
structure PendingGrant where
  objectType : String
  objectId : String
  relation : String
  isGuest : Bool
  deriving DecidableEq, Repr

/-- The keys of the tables, and of the index of pending invitations, of which only the locks
matter. -/
inductive Key where
  | user (userId : UserId)
  | membership (orgId : OrgId) (userId : UserId)
  | invitation (id : InvitationId)
  | lookup (tokenHash : TokenHash)
  | pendingGrant (id : InvitationId)
  | pendingEmail (orgId : OrgId) (email : String)
  deriving DecidableEq, Repr

inductive Row where
  | user (emailNormalized : String)
  | membership (role : Role)
  | invitation (invitation : Invitation)
  | lookup (orgId : OrgId)
  | pendingGrant (grant : PendingGrant)
  deriving DecidableEq, Repr

abbrev Rows := Key → Option Row

def Row.email? : Row → Option String
  | .user emailNormalized => some emailNormalized
  | _ => none

def Row.invitation? : Row → Option Invitation
  | .invitation row => some row
  | _ => none

def Row.orgId? : Row → Option OrgId
  | .lookup orgId => some orgId
  | _ => none

def invitationRow (rows : Rows) (id : InvitationId) : Option Invitation :=
  (rows (.invitation id)).bind Row.invitation?

/-- How an invitation stops being pending. -/
inductive Note where
  | accepted (id : InvitationId) (token : TokenHash) (userId : UserId)
  | revoked (id : InvitationId)
  | expired (id : InvitationId)
  deriving DecidableEq, Repr

def Note.id : Note → InvitationId
  | .accepted id _ _ | .revoked id | .expired id => id

/-- The UPDATE that ends an invitation, for an acceptance with the token and the role that were
read; and every other statement. -/
inductive Label where
  | query
  | ends (id : InvitationId) (read : Option (TokenHash × Role))
  deriving DecidableEq, Repr

abbrev Procedure (α : Type) := ReadCommitted.Procedure Key (Option Row) Label Unit Note α

/-! ### Statements -/

/-- INSERT of a row whose key is unique. -/
def insertRow (key : Key) (row : Row) : Procedure Unit := do
  let inserted ← update .query key fun _ old => if old.isSome then none else some (some row)
  require inserted.isSome

/-- DELETE of a row, RETURNING it. -/
def deleteRow (key : Key) : Procedure (Option Row) :=
  statement .query (fun _ rows => ([], if (rows key).isSome then [(key, none)] else []))
    fun _ rows => rows key

section
-- the accounts and the invitations there are at any time
variable (users : List UserId) (ids : List InvitationId)

def findUser (email : String) (rows : Rows) : Option UserId :=
  users.find? fun userId => (rows (.user userId)).bind Row.email? = some email

def findInvitation (p : Invitation → Bool) (rows : Rows) : Option (InvitationId × Invitation) :=
  ids.findSome? fun id => ((invitationRow rows id).filter p).map (Prod.mk id)

def pendingFor (orgId : OrgId) (email : String) (invitation : Invitation) : Bool :=
  invitation.orgId = orgId ∧ invitation.status = .pending ∧ invitation.email = email

/-- INSERT of a pending invitation: there is at most one of an address. -/
def insertInvitation (id : InvitationId) (invitation : Invitation) : Procedure Unit := do
  let free (rows : Rows) : Bool := (rows (.invitation id)).isNone ∧
    (findInvitation ids (pendingFor invitation.orgId invitation.email) rows).isNone
  let inserted ← statement .query (fun _ rows =>
      ([.pendingEmail invitation.orgId invitation.email],
        if free rows then [(.invitation id, some (.invitation invitation))] else []))
    fun _ rows => free rows
  require inserted

/-- UPDATE of an invitation by its id. -/
def updateInvitation (label : Label) (id : InvitationId) (f : Invitation → Invitation) :
    Procedure Unit :=
  statement label (fun _ rows =>
    match invitationRow rows id with
    | none => ([], [])
    | some invitation => ([.pendingEmail invitation.orgId invitation.email],
        [(.invitation id, some (.invitation (f invitation)))])) fun _ _ => ()

/-! ### The service -/

structure CreateInvitationInput where
  email : String
  role : Role
  pendingGrant : Option PendingGrant
  deriving DecidableEq, Repr

/-- What a new invitation is given: its id, the hash of its token, and when it expires. -/
structure Issued where
  id : InvitationId
  tokenHash : TokenHash
  expiresAt : Int
  deriving DecidableEq, Repr

/-- Throws where the address is of a member. -/
def refuseMember (orgId : OrgId) (email : String) : Procedure Unit := do
  let existingUser ← select .query (findUser users email)
  match existingUser with
  | none => pure ()
  | some userId =>
    let membership ← select .query fun rows => rows (.membership orgId userId)
    require (membership = none)

/-- Gives the pending invitation of the address a new role and a new token, or makes one. -/
def saveInvitation (orgId : OrgId) (email : String) (role : Role) (issued : Issued) :
    Procedure InvitationId := do
  let pending ← select .query (findInvitation ids (pendingFor orgId email))
  match pending with
  | some (id, invitation) =>
    updateInvitation .query id fun invitation => { invitation with
      role, tokenHash := issued.tokenHash, expiresAt := issued.expiresAt }
    let _ ← deleteRow (.lookup invitation.tokenHash)
    return id
  | none =>
    insertInvitation ids issued.id
      ⟨orgId, email, role, .pending, issued.tokenHash, issued.expiresAt, none, none⟩
    return issued.id

def saveGrant (id : InvitationId) (grant : Option PendingGrant) : Procedure Unit :=
  match grant with
  | none => pure ()
  | some grant => do
    let _ ← upsert .query (.pendingGrant id) fun _ _ => some (some (.pendingGrant grant))

variable (normalize : String → String)

def createInvitation (orgId : OrgId) (input : CreateInvitationInput) (issued : Issued) :
    Procedure Unit := do
  require (input.role ≠ .owner)
  transaction do
    refuseMember users orgId (normalize input.email)
    let id ← saveInvitation ids orgId (normalize input.email) input.role issued
    insertRow (.lookup issued.tokenHash) (.lookup orgId)
    saveGrant id input.pendingGrant
    return ([], ())

def revokeInvitation (orgId : OrgId) (id : InvitationId) : Procedure Unit :=
  transaction do
    let found ← select .query fun rows => (invitationRow rows id).filter fun invitation =>
      invitation.orgId = orgId ∧ invitation.status = .pending
    let invitation ← ofOption found
    updateInvitation (.ends id none) id fun invitation => { invitation with status := .revoked }
    let _ ← deleteRow (.lookup invitation.tokenHash)
    return ([.revoked id], ())

def resolveOrgByInvitationToken (token : TokenHash) : Procedure (Option OrgId) :=
  transaction do
    let found ← select .query fun rows => (rows (.lookup token)).bind Row.orgId?
    return ([], found)

/-- The first transaction of an acceptance: it ends an invitation that has expired. -/
def checkInvitation (orgId : OrgId) (token : TokenHash) (now : Int) :
    Procedure (Option (InvitationId × Invitation)) :=
  transaction do
    let found ← select .query (findInvitation ids fun invitation =>
      invitation.orgId = orgId ∧ invitation.tokenHash = token ∧ invitation.status = .pending)
    match found with
    | none => return ([], none)
    | some (id, invitation) =>
      if invitation.expiresAt ≤ now then
        updateInvitation (.ends id none) id fun invitation =>
          { invitation with status := .expired }
        let _ ← deleteRow (.lookup token)
        return ([.expired id], none)
      else
        return ([], some (id, invitation))

/-- Makes the account a member, unless it is one. -/
def joinOrg (orgId : OrgId) (userId : UserId) (role : Role) : Procedure Unit := do
  let existing ← select .query fun rows => rows (.membership orgId userId)
  if existing = none then insertRow (.membership orgId userId) (.membership role)

/-- The second: what it returns is granted once it is committed. -/
def redeemInvitation (orgId : OrgId) (userId : UserId) (token : TokenHash) (now : Int)
    (id : InvitationId) (invitation : Invitation) : Procedure (Option Row) :=
  transaction do
    let caller ← select .query fun rows => (rows (.user userId)).bind Row.email?
    let email ← ofOption caller
    require (email = invitation.email)
    joinOrg orgId userId invitation.role
    updateInvitation (.ends id (some (token, invitation.role))) id fun invitation =>
      { invitation with
        status := .accepted, acceptedAt := some now, acceptedUserId := some userId }
    let _ ← deleteRow (.lookup token)
    let pendingGrant ← deleteRow (.pendingGrant id)
    return ([.accepted id token userId], pendingGrant)

def acceptInvitation (userId : UserId) (token : TokenHash) (now now' : Int) : Procedure Unit := do
  let org ← resolveOrgByInvitationToken token
  let orgId ← ofOption org
  let checked ← checkInvitation ids orgId token now
  let (id, invitation) ← ofOption checked
  let _ ← redeemInvitation orgId userId token now' id invitation

/-- The calls; an acceptance reads the clock twice. -/
inductive Call where
  | createInvitation (orgId : OrgId) (input : CreateInvitationInput) (issued : Issued)
  | revokeInvitation (orgId : OrgId) (id : InvitationId)
  | acceptInvitation (userId : UserId) (token : TokenHash) (now now' : Int)
  deriving DecidableEq, Repr

def calls : Call → Script Key (Option Row) Label Unit Note
  | .createInvitation orgId input issued =>
    (createInvitation users ids normalize orgId input issued).script
  | .revokeInvitation orgId id => (revokeInvitation orgId id).script
  | .acceptInvitation userId token now now' => (acceptInvitation ids userId token now now').script

end

/-! ### What a commit does -/

/-- The UPDATE that ends an invitation finds it pending, and an acceptance with the token and the
role it has read. -/
def current : Condition Key (Option Row) Label Unit Note where
  statement label _ rows _ :=
    match label with
    | .query => True
    | .ends id read => ∃ invitation, invitationRow rows id = some invitation ∧
        invitation.status = .pending ∧
        ∀ as ∈ read, invitation.tokenHash = as.1 ∧ invitation.role = as.2

/-- What becomes of an invitation: it stays in its organization, and is not pending again. -/
def Evolves (row row' : Option Row) : Prop :=
  ∀ invitation, row.bind Row.invitation? = some invitation → ∃ invitation',
    row'.bind Row.invitation? = some invitation' ∧ invitation'.orgId = invitation.orgId ∧
      (invitation'.status = .pending → invitation.status = .pending)

/-- Who becomes a member, as what, by which invitation. -/
structure Join where
  id : InvitationId
  orgId : OrgId
  userId : UserId
  role : Role

/-- What a transaction that may let someone join does to a row. -/
def Change (joins : Option Join) : Key → Option Row → Option Row → Prop
  | .membership orgId userId, row, row' => row' = row ∨ ∃ join ∈ joins,
      join.orgId = orgId ∧ join.userId = userId ∧ row' = some (.membership join.role)
  | .invitation _, row, row' => Evolves row row'
  | .user _, _, _ | .lookup _, _, _ | .pendingGrant _, _, _ | .pendingEmail _ _, _, _ => True

/-- **A membership comes from an invitation that is pending, by the token and with the role it
has.** -/
def Redeemed (rows rows' : Rows) (notes : List Note) : Prop :=
  ∀ orgId userId, rows' (.membership orgId userId) ≠ rows (.membership orgId userId) →
    ∃ id token invitation, .accepted id token userId ∈ notes ∧
      invitationRow rows id = some invitation ∧ invitation.orgId = orgId ∧
      invitation.status = .pending ∧ invitation.tokenHash = token ∧
      rows' (.membership orgId userId) = some (.membership invitation.role)

/-- No invitation has been ended twice, and those that were are not pending. -/
structure EndedOnce (rows : Rows) (log : List Note) : Prop where
  once : (log.map Note.id).Nodup
  ended : ∀ note ∈ log, ∃ invitation, invitationRow rows note.id = some invitation ∧
    invitation.status ≠ .pending

def discipline (S : Type) : Discipline S Key (Option Row) Label Unit Note where
  inv σ := EndedOnce σ.rows (σ.log.map Prod.snd)
  guarantee _ notes _ σ σ' :=
    (∀ id, Evolves (σ.rows (.invitation id)) (σ'.rows (.invitation id))) ∧
      Redeemed σ.rows σ'.rows notes
  rely _ own σ σ' := (∀ key, own key → σ'.rows key = σ.rows key) ∧
    ∀ id, Evolves (σ.rows (.invitation id)) (σ'.rows (.invitation id))
  condition := current

/-- The transaction has ended the invitation, which was as the condition wants it. -/
structure Ending {S : Type} (id : InvitationId) (read : Option (TokenHash × Role))
    (t : Transaction Key (Option Row)) (σ : Shared S Key (Option Row) Note) : Prop where
  written : .invitation id ∈ t.pending.map Prod.fst
  before : ∃ invitation, invitationRow σ.rows id = some invitation ∧
    invitation.status = .pending ∧
    ∀ as ∈ read, invitation.tokenHash = as.1 ∧ invitation.role = as.2
  after : ∃ invitation, invitationRow (t.view σ) id = some invitation ∧
    invitation.status ≠ .pending

def OfOrg (orgId : OrgId) (rows : Rows) (id : InvitationId) : Prop :=
  ∃ invitation, invitationRow rows id = some invitation ∧ invitation.orgId = orgId

/-- So far the transaction has done nothing but what `joins` allows, and has ended what `ending`
says. -/
structure Kept {S : Type} (joins : Option Join)
    (ending : Option (InvitationId × Option (TokenHash × Role)))
    (t : Transaction Key (Option Row)) (σ : Shared S Key (Option Row) Note) : Prop where
  change : Evolved (Change joins) t σ
  org : ∀ join ∈ joins, OfOrg join.orgId σ.rows join.id
  ending : ∀ e ∈ ending, Ending e.1 e.2 t σ

section
variable {S : Type} {s : S} {joins : Option Join} {id : InvitationId} {orgId : OrgId}
  {read : Option (TokenHash × Role)} {ending : Option (InvitationId × Option (TokenHash × Role))}
  {t : Transaction Key (Option Row)} {σ σ' : Shared S Key (Option Row) Note}
  {row row' row'' : Option Row} {rows rows' : Rows}

theorem Evolves.refl (row : Option Row) : Evolves row row :=
  fun invitation h => ⟨invitation, h, rfl, fun h => h⟩

theorem Evolves.trans (h : Evolves row row') (h' : Evolves row' row'') : Evolves row row'' := by
  intro invitation hrow
  obtain ⟨invitation', hrow', horg, hpending⟩ := h invitation hrow
  obtain ⟨invitation'', hrow'', horg', hpending'⟩ := h' invitation' hrow'
  exact ⟨invitation'', hrow'', horg'.trans horg, fun h => hpending (hpending' h)⟩

theorem OfOrg.evolves (h : OfOrg orgId rows id)
    (hevolves : Evolves (rows (.invitation id)) (rows' (.invitation id))) :
    OfOrg orgId rows' id := by
  obtain ⟨invitation, hrow, horg⟩ := h
  obtain ⟨invitation', hrow', horg', -⟩ := hevolves invitation hrow
  exact ⟨invitation', hrow', horg'.trans horg⟩

theorem Change.refl (key : Key) (row : Option Row) : Change joins key row row := by
  cases key with
  | membership => exact .inl rfl
  | invitation => exact Evolves.refl row
  | _ => trivial

theorem Change.trans {key : Key} (h : Change joins key row row')
    (h' : Change joins key row' row'') : Change joins key row row'' := by
  cases key with
  | membership =>
    rcases h' with rfl | hjoins
    · exact h
    · exact .inr hjoins
  | invitation => exact Evolves.trans h h'
  | _ => trivial

theorem discipline_lawful : (discipline S).Lawful where
  refl := fun _ _ _ => ⟨fun _ _ => rfl, fun _ => Evolves.refl _⟩
  trans := fun h h' => ⟨fun key hown => (h'.1 key hown).trans (h.1 key hown),
    fun id => (h.2 id).trans (h'.2 id)⟩
  rely := fun _ _ hown _ _ hguarantee => ⟨hown, hguarantee.1⟩

/-! ### Statements -/

theorem kept_none (horg : ∀ join ∈ joins, OfOrg join.orgId σ.rows join.id) :
    Kept joins none .none σ :=
  ⟨evolved_none fun key row => Change.refl key row, horg, fun _ h => by cases h⟩

theorem change_stable : Stable (discipline S) s (Evolved (Change joins)) :=
  evolved_stable (fun key row => Change.refl key row) fun _ _ _ hrely => hrely.1

theorem kept_stable : Stable (discipline S) s (Kept joins ending) := by
  intro t σ σ' h hrely hinv
  refine ⟨change_stable t σ σ' h.change hrely hinv,
    fun join hjoin => (h.org join hjoin).evolves (hrely.2 join.id), fun e he => ?_⟩
  have hending := h.ending e he
  have hown := hrely.1 _ (h.change.locked _ hending.written)
  refine ⟨hending.written, ?_, ?_⟩
  · simpa only [invitationRow, hown] using hending.before
  · simpa only [invitationRow, Transaction.view_of_mem hending.written σ σ'] using hending.after

/-- A write that leaves the invitation that is ended alone. -/
theorem Kept.run (h : Kept joins ending t σ) {locks : List Key} {writes : List (Key × Option Row)}
    (hwrites : ∀ write ∈ writes, Change joins write.1 (t.view σ write.1) write.2)
    (hother : ∀ e ∈ ending, .invitation e.1 ∉ writes.map Prod.fst) :
    Kept joins ending (t.run locks writes) σ := by
  refine ⟨h.change.run Change.trans fun key row hwrite => hwrites (key, row) hwrite, h.org,
    fun e he => ?_⟩
  have hending := h.ending e he
  refine ⟨?_, hending.before, ?_⟩
  · rw [Transaction.run_pending, List.map_append]
    exact List.mem_append_right _ hending.written
  · rw [invitationRow, Transaction.view_run, overlay_of_notMem (hother e he)]
    exact hending.after

/-- The tables whose rows nobody relies on. -/
def Key.Aside : Key → Prop
  | .lookup _ | .pendingGrant _ | .user _ | .pendingEmail _ _ => True
  | .membership _ _ | .invitation _ => False

theorem Kept.run_aside (h : Kept joins ending t σ) {locks : List Key}
    {writes : List (Key × Option Row)} (hwrites : ∀ write ∈ writes, write.1.Aside) :
    Kept joins ending (t.run locks writes) σ := by
  refine h.run (fun write hwrite => ?_) fun e _ hmem => ?_
  · have haside := hwrites write hwrite
    cases hkey : write.1 <;> first | trivial | simp [hkey, Key.Aside] at haside
  · obtain ⟨write, hwrite, hkey⟩ := List.mem_map.mp hmem
    have haside := hwrites write hwrite
    rw [hkey] at haside
    exact haside

theorem triple_query {α : Type} {P : Assertion S Key (Option Row) Note} {query : Rows → α}
    (hP : Stable (discipline S) s P) :
    Triple (discipline S) s P (select .query query) fun _ => P :=
  triple_select hP fun _ _ h _ _ _ _ => h

theorem triple_deleteRow (key : Key) (haside : key.Aside) :
    Triple (discipline S) s (Kept joins ending) (deleteRow key) fun _ => Kept joins ending := by
  refine triple_statement kept_stable fun t σ _ _ h _ _ _ => h.run_aside fun write hwrite => ?_
  have hkey : write.1 = key := by
    split at hwrite
    · exact congrArg Prod.fst (List.mem_singleton.mp hwrite)
    · cases hwrite
  rwa [hkey]

/-- A row of another table is stored. -/
theorem triple_insertRow (key : Key) {row : Row} (haside : key.Aside) :
    Triple (discipline S) s (Kept joins ending) (insertRow key row)
      fun _ => Kept joins ending := by
  refine Triple.bind (Q := fun _ => Kept joins ending)
    (triple_update kept_stable (fun t σ _ _ v h _ _ _ _ => h.run_aside fun write hwrite => ?_)
      fun _ _ _ _ h _ _ _ => h) fun _ => triple_require fun _ _ h _ => h
  rwa [List.mem_singleton.mp hwrite]

theorem triple_saveGrant {grant : Option PendingGrant} :
    Triple (discipline S) s (Kept joins ending) (saveGrant id grant)
      fun _ => Kept joins ending := by
  cases grant with
  | none => exact triple_pure fun _ _ h => h
  | some grant =>
    refine Triple.bind (Q := fun _ => Kept joins ending)
      (triple_upsert kept_stable (fun t σ _ _ v h _ _ _ _ => h.run_aside fun write hwrite => ?_)
        fun t σ _ _ h _ _ _ => h.run_aside fun _ hwrite => absurd hwrite List.not_mem_nil)
      fun _ => triple_pure fun _ _ h => h
    rw [List.mem_singleton.mp hwrite]
    trivial

/-- A member is stored, at the start of a transaction that may do so. -/
theorem triple_join (join : Join) :
    Triple (discipline S) s
      (fun t σ => OfOrg join.orgId σ.rows join.id ∧ t = .none)
      (insertRow (.membership join.orgId join.userId) (.membership join.role))
      fun _ t σ => .invitation join.id ∉ t.pending.map Prod.fst ∧
        Kept (some join) none t σ := by
  have hstable : Stable (discipline S) s
      (fun t σ => OfOrg join.orgId σ.rows join.id ∧ t = .none) :=
    fun _ _ _ h hrely _ => ⟨h.1.evolves (hrely.2 join.id), h.2⟩
  refine Triple.bind (Q := fun _ t σ => .invitation join.id ∉ t.pending.map Prod.fst ∧
    Kept (some join) none t σ) (triple_update hstable ?_ ?_) fun _ => triple_require
      fun _ _ h _ => h
  · rintro t σ _ _ v ⟨horg, rfl⟩ - h - -
    refine ⟨by simp [Transaction.none], (kept_none fun other hother =>
      Option.some.inj hother ▸ horg).run ?_ fun _ he => by cases he⟩
    · intro write hwrite
      obtain rfl := List.mem_singleton.mp hwrite
      split at h
      · cases h
      · exact .inr ⟨join, rfl, rfl, rfl, (Option.some.inj h).symm⟩
  · rintro t σ _ _ ⟨horg, rfl⟩ - - -
    exact ⟨by simp [Transaction.none], kept_none fun other hother =>
      Option.some.inj hother ▸ horg⟩

/-- An invitation gets a new role and a new token. -/
theorem triple_updateInvitation {f : Invitation → Invitation}
    (hstatus : ∀ invitation, (f invitation).status = invitation.status)
    (horg : ∀ invitation, (f invitation).orgId = invitation.orgId) :
    Triple (discipline S) s (Kept joins none) (updateInvitation .query id f)
      fun _ => Kept joins none := by
  refine triple_statement kept_stable fun t σ _ _ h _ _ _ => ?_
  cases hrow : invitationRow (t.view σ) id with
  | none =>
    rw [Transaction.run_nil]
    exact h
  | some invitation =>
    refine h.run (fun write hwrite => ?_) fun _ he => by cases he
    obtain rfl := List.mem_singleton.mp hwrite
    intro invitation' hinvitation
    have hsame : invitationRow (t.view σ) id = some invitation' := hinvitation
    rw [hrow] at hsame
    obtain rfl := Option.some.inj hsame
    exact ⟨_, rfl, horg invitation, fun hpending => hstatus invitation ▸ hpending⟩

/-- An invitation is made. -/
theorem triple_insertInvitation {ids : List InvitationId} {invitation : Invitation} :
    Triple (discipline S) s (Kept joins none) (insertInvitation ids id invitation)
      fun _ => Kept joins none := by
  refine Triple.bind (Q := fun _ => Kept joins none)
    (triple_statement kept_stable fun t σ _ _ h _ _ _ => h.run (fun write hwrite => ?_)
      fun _ he => by cases he) fun _ => triple_require fun _ _ h _ => h
  split at hwrite
  · next hfree =>
    obtain rfl := List.mem_singleton.mp hwrite
    have hnone : t.view σ (.invitation id) = none :=
      Option.isNone_iff_eq_none.mp (of_decide_eq_true hfree).1
    intro invitation' hinvitation
    rw [hnone] at hinvitation
    cases hinvitation
  · cases hwrite

/-- **An invitation that is as the condition wants it is ended.** -/
theorem triple_end {f : Invitation → Invitation}
    (hstatus : ∀ invitation, (f invitation).status ≠ .pending)
    (horg : ∀ invitation, (f invitation).orgId = invitation.orgId) :
    Triple (discipline S) s
      (fun t σ => .invitation id ∉ t.pending.map Prod.fst ∧ Kept joins none t σ)
      (updateInvitation (.ends id read) id f) fun _ => Kept joins (some (id, read)) := by
  refine triple_statement (fun t σ σ' h hrely hinv => ⟨h.1, kept_stable t σ σ' h.2 hrely hinv⟩) ?_
  rintro t σ _ held ⟨hunwritten, h⟩ - - ⟨invitation, hrow, hpending, hread⟩
  have hbefore : invitationRow σ.rows id = some invitation := by
    rwa [invitationRow, Transaction.view_of_notMem hunwritten] at hrow
  simp only [hrow]
  have hrun : Kept joins none (t.run [.pendingEmail invitation.orgId invitation.email]
      [(.invitation id, some (.invitation (f invitation)))]) σ :=
    h.run (fun write hwrite => ?_) fun _ he => by cases he
  · refine ⟨hrun.change, hrun.org, ?_⟩
    rintro - ⟨⟩
    exact ⟨List.mem_cons_self, ⟨invitation, hbefore, hpending, hread⟩, f invitation,
      by simp [invitationRow, Row.invitation?], hstatus invitation⟩
  · obtain rfl := List.mem_singleton.mp hwrite
    intro invitation' hinvitation
    have hsame : invitationRow (t.view σ) id = some invitation' := hinvitation
    rw [hrow] at hsame
    obtain rfl := Option.some.inj hsame
    exact ⟨_, rfl, horg invitation, fun _ => hpending⟩

/-! ### Transactions -/

/-- A commit that ends no invitation. -/
theorem commit_of_kept (hinv : (discipline S).inv σ) (h : Kept none ending t σ) :
    (discipline S).inv (σ.commit s t []) ∧
      (discipline S).guarantee s [] t.own σ (σ.commit s t []) := by
  have hevolves (id : InvitationId) :
      Evolves (σ.rows (.invitation id)) (t.view σ (.invitation id)) :=
    h.change.row (.invitation id)
  refine ⟨⟨hinv.once, fun note hnote => ?_⟩, hevolves, fun orgId userId hne => ?_⟩
  · obtain ⟨invitation, hrow, hended⟩ := hinv.ended note hnote
    obtain ⟨invitation', hrow', -, hpending⟩ := hevolves note.id invitation hrow
    exact ⟨invitation', hrow', fun hagain => hended (hpending hagain)⟩
  · rcases h.change.row (.membership orgId userId) with heq | ⟨join, hjoin, -⟩
    · exact absurd heq hne
    · cases hjoin

/-- A commit that ends an invitation, for a membership or without. -/
theorem commit_of_ending (note : Note) (hinv : (discipline S).inv σ)
    (h : Kept joins (some (note.id, read)) t σ)
    (hjoins : ∀ join ∈ joins, ∃ token, note = .accepted join.id token join.userId ∧
      read = some (token, join.role)) :
    (discipline S).inv (σ.commit s t [note]) ∧
      (discipline S).guarantee s [note] t.own σ (σ.commit s t [note]) := by
  have hevolves (id : InvitationId) :
      Evolves (σ.rows (.invitation id)) (t.view σ (.invitation id)) :=
    h.change.row (.invitation id)
  obtain ⟨-, ⟨invitation, hrow, hpending, hread⟩, hafter⟩ := h.ending _ rfl
  refine ⟨⟨List.nodup_cons.mpr ⟨fun hmem => ?_, hinv.once⟩, ?_⟩, hevolves,
    fun orgId userId hne => ?_⟩
  · obtain ⟨other, hother, hid⟩ := List.mem_map.mp hmem
    obtain ⟨invitation', hrow', hended⟩ := hinv.ended other hother
    rw [hid] at hrow'
    exact hended (Option.some.inj (hrow.symm.trans hrow') ▸ hpending)
  · intro other hother
    rcases List.mem_cons.mp hother with rfl | hother
    · exact hafter
    · obtain ⟨invitation', hrow', hended⟩ := hinv.ended other hother
      obtain ⟨invitation'', hrow'', -, hagain⟩ := hevolves other.id invitation' hrow'
      exact ⟨invitation'', hrow'', fun h => hended (hagain h)⟩
  · rcases h.change.row (.membership orgId userId) with heq | ⟨join, hjoin, rfl, rfl, hmember⟩
    · exact absurd heq hne
    · obtain ⟨token, rfl, rfl⟩ := hjoins join hjoin
      obtain ⟨htoken, hrole⟩ := hread (token, join.role) rfl
      obtain ⟨invitation', hrow', horg⟩ := h.org join hjoin
      obtain rfl := Option.some.inj (hrow.symm.trans hrow')
      exact ⟨join.id, token, invitation, List.mem_cons_self, hrow, horg, hpending, htoken,
        hrole ▸ hmember⟩

theorem triple_refuseMember {users : List UserId} {email : String} :
    Triple (discipline S) s (fun t _ => t = .none) (refuseMember users orgId email)
      fun _ t _ => t = .none := by
  refine (triple_query stable_none).bind fun existingUser => ?_
  cases existingUser with
  | none => exact triple_pure fun _ _ h => h
  | some userId => exact (triple_query stable_none).bind fun _ => triple_require fun _ _ h _ => h

theorem triple_saveInvitation {ids : List InvitationId} {email : String} {role : Role}
    {issued : Issued} :
    Triple (discipline S) s (fun t _ => t = .none) (saveInvitation ids orgId email role issued)
      fun _ => Kept none none := by
  have hkept {p : Procedure InvitationId}
      (h : Triple (discipline S) s (Kept none none) p fun _ => Kept none none) :
      Triple (discipline S) s (fun t _ => t = .none) p fun _ => Kept none none :=
    h.conseq (by
      rintro t σ rfl
      exact kept_none fun _ hjoin => by cases hjoin) fun _ _ _ h => h
  refine (triple_query stable_none).bind fun pending => ?_
  cases pending with
  | none => exact hkept ((triple_insertInvitation).bind fun _ => triple_pure fun _ _ h => h)
  | some found =>
    exact hkept ((triple_updateInvitation (fun _ => by rfl) fun _ => by rfl).bind fun _ =>
      (triple_deleteRow (.lookup _) trivial).bind fun _ => triple_pure fun _ _ h => h)

theorem triple_createInvitation {users : List UserId} {ids : List InvitationId}
    {normalize : String → String} {input : CreateInvitationInput} {issued : Issued} :
    Triple (discipline S) s (fun t _ => t = .none)
      (createInvitation users ids normalize orgId input issued) fun _ t _ => t = .none := by
  refine Triple.require fun _ => triple_transaction (R := fun r t σ => r.1 = [] ∧
    Kept none none t σ) ((triple_refuseMember).bind fun _ => (triple_saveInvitation).bind fun _ =>
      (triple_insertRow (.lookup _) trivial).bind fun _ => (triple_saveGrant).bind fun _ =>
        triple_pure fun _ _ h => ⟨rfl, h⟩)
    (fun _ t σ σ' h hrely hinv => ⟨h.1, kept_stable t σ σ' h.2 hrely hinv⟩) ?_
  rintro ⟨-, _⟩ t σ ⟨rfl, h⟩ hinv -
  exact ⟨(commit_of_kept hinv h).1, (commit_of_kept hinv h).2, rfl⟩

/-- An UPDATE that ends an invitation, and the DELETE of its token. -/
theorem triple_endAndForget {f : Invitation → Invitation} {token : TokenHash}
    (hstatus : ∀ invitation, (f invitation).status ≠ .pending)
    (horg : ∀ invitation, (f invitation).orgId = invitation.orgId) {α : Type} {a : α} :
    Triple (discipline S) s
      (fun t σ => .invitation id ∉ t.pending.map Prod.fst ∧ Kept joins none t σ)
      (do
        updateInvitation (.ends id read) id f
        let _ ← deleteRow (.lookup token)
        return a) fun b t σ => b = a ∧ Kept joins (some (id, read)) t σ :=
  (triple_end hstatus horg).bind fun _ => (triple_deleteRow (.lookup _) trivial).bind fun _ =>
    triple_pure fun _ _ h => ⟨rfl, h⟩

theorem triple_revokeInvitation :
    Triple (discipline S) s (fun t _ => t = .none) (revokeInvitation orgId id)
      fun _ t _ => t = .none := by
  refine triple_transaction (R := fun r t σ => r.1 = [.revoked id] ∧
    Kept none (some (id, none)) t σ) ((triple_query stable_none).bind fun _ =>
      Triple.ofOption fun _ _ => ?_)
    (fun _ t σ σ' h hrely hinv => ⟨h.1, kept_stable t σ σ' h.2 hrely hinv⟩) ?_
  · refine Triple.conseq (triple_endAndForget (fun _ h => by cases h) fun _ => by rfl) ?_
      fun _ _ _ h => ⟨congrArg Prod.fst h.1, h.2⟩
    rintro t σ rfl
    exact ⟨by simp [Transaction.none], kept_none fun _ hjoin => by cases hjoin⟩
  · rintro ⟨-, _⟩ t σ ⟨rfl, h⟩ hinv -
    have hcommit := commit_of_ending (s := s) (.revoked id) hinv h fun _ hjoin => by cases hjoin
    exact ⟨hcommit.1, hcommit.2, rfl⟩

theorem triple_resolveOrg {token : TokenHash} :
    Triple (discipline S) s (fun t _ => t = .none) (resolveOrgByInvitationToken token)
      fun _ t _ => t = .none := by
  refine triple_transaction_noted (R := fun _ t _ => t = .none) (triple_query stable_none)
    (fun _ => stable_none) ?_
  rintro - t σ rfl hinv -
  have hkept : Kept none none .none σ := kept_none fun _ h => by cases h
  have hcommit := commit_of_kept (s := s) hinv hkept
  exact ⟨hcommit.1, hcommit.2, rfl⟩

/-- What is found is in the list. -/
theorem of_findInvitation {ids : List InvitationId} {p : Invitation → Bool}
    {invitation : Invitation} (h : findInvitation ids p rows = some (id, invitation)) :
    invitationRow rows id = some invitation ∧ p invitation = true := by
  obtain ⟨other, -, hother⟩ := List.exists_of_findSome?_eq_some h
  obtain ⟨found, hfound, heq⟩ := Option.map_eq_some_iff.mp hother
  obtain ⟨rfl, rfl⟩ := Prod.mk.inj heq
  exact Option.filter_eq_some_iff.mp hfound

theorem ofOrg_stable : Stable (discipline S) s fun t σ => OfOrg orgId σ.rows id ∧ t = .none :=
  fun _ _ _ h hrely _ => ⟨h.1.evolves (hrely.2 id), h.2⟩

/-- An acceptance goes on with an invitation of the organization. -/
theorem triple_checkInvitation {ids : List InvitationId} {token : TokenHash} {now : Int} :
    Triple (discipline S) s (fun t _ => t = .none) (checkInvitation ids orgId token now)
      fun checked t σ => t = .none ∧ ∀ found ∈ checked, OfOrg orgId σ.rows found.1 := by
  let found (f : Option (InvitationId × Invitation)) : Assertion S Key (Option Row) Note :=
    fun t σ => t = .none ∧ ∀ e ∈ f, OfOrg orgId σ.rows e.1
  have hfound (f : Option (InvitationId × Invitation)) : Stable (discipline S) s (found f) :=
    fun _ _ _ h hrely _ => ⟨h.1, fun e he => (h.2 e he).evolves (hrely.2 e.1)⟩
  refine triple_transaction (R := fun r t σ => r.1 = [] ∧ found r.2 t σ ∨
    ∃ id, r = ([.expired id], none) ∧ Kept none (some (id, none)) t σ)
    (Triple.bind (Q := found) (triple_select stable_none ?_) fun checked => ?_) ?_ ?_
  · rintro t σ rfl - - - -
    refine ⟨rfl, fun e he => ?_⟩
    obtain ⟨hrow, hp⟩ := of_findInvitation he
    exact ⟨e.2, hrow, (of_decide_eq_true hp).1⟩
  · cases checked with
    | none => exact triple_pure fun _ _ h => .inl ⟨rfl, h⟩
    | some e =>
      refine Triple.ite (fun _ => Triple.conseq (triple_endAndForget
        (fun _ h => by cases h) fun _ => by rfl) ?_ fun _ _ _ h => .inr ⟨e.1, h⟩)
        fun _ => triple_pure fun _ _ h => .inl ⟨rfl, h⟩
      rintro t σ ⟨rfl, -⟩
      exact ⟨by simp [Transaction.none], kept_none fun _ hjoin => by cases hjoin⟩
  · rintro r t σ σ' (⟨hr, h⟩ | ⟨id, hr, h⟩) hrely hinv
    · exact .inl ⟨hr, hfound _ t σ σ' h hrely hinv⟩
    · exact .inr ⟨id, hr, kept_stable t σ σ' h hrely hinv⟩
  · rintro ⟨notes, checked⟩ t σ (⟨hr, rfl, h⟩ | ⟨id, hr, h⟩) hinv -
    · obtain rfl : notes = [] := hr
      have hkept : Kept none none .none σ := kept_none fun _ h => by cases h
      have hcommit := commit_of_kept (s := s) hinv hkept
      exact ⟨hcommit.1, hcommit.2, rfl, h⟩
    · obtain ⟨rfl, rfl⟩ := Prod.mk.inj hr
      have hcommit := commit_of_ending (s := s) (.expired id) hinv h fun _ hjoin => by cases hjoin
      exact ⟨hcommit.1, hcommit.2, rfl, fun _ he => by cases he⟩

theorem triple_joinOrg (join : Join) :
    Triple (discipline S) s (fun t σ => OfOrg join.orgId σ.rows join.id ∧ t = .none)
      (joinOrg join.orgId join.userId join.role) fun _ t σ =>
        .invitation join.id ∉ t.pending.map Prod.fst ∧ Kept (some join) none t σ := by
  refine (triple_query ofOrg_stable).bind fun _ =>
    Triple.ite (fun _ => triple_join join) fun _ => triple_pure ?_
  rintro t σ ⟨horg, rfl⟩
  exact ⟨by simp [Transaction.none], kept_none fun other hother =>
    Option.some.inj hother ▸ horg⟩

theorem triple_redeemInvitation {userId : UserId} {token : TokenHash} {now : Int}
    {invitation : Invitation} :
    Triple (discipline S) s (fun t σ => OfOrg orgId σ.rows id ∧ t = .none)
      (redeemInvitation orgId userId token now id invitation) fun _ t _ => t = .none := by
  let join : Join := ⟨id, orgId, userId, invitation.role⟩
  refine triple_transaction (R := fun r t σ => r.1 = [.accepted id token userId] ∧
    Kept (some join) (some (id, some (token, invitation.role))) t σ)
    ?_ (fun _ t σ σ' h hrely hinv => ⟨h.1, kept_stable t σ σ' h.2 hrely hinv⟩) ?_
  · refine (triple_query ofOrg_stable).bind fun _ => Triple.ofOption fun _ _ =>
      Triple.require fun _ => (triple_joinOrg join).bind fun _ => ?_
    refine (triple_end (fun _ h => by cases h) fun _ => by rfl).bind fun _ => ?_
    exact (triple_deleteRow (.lookup _) trivial).bind fun _ =>
      (triple_deleteRow (.pendingGrant _) trivial).bind fun _ => triple_pure fun _ _ h => ⟨rfl, h⟩
  · rintro ⟨-, _⟩ t σ ⟨rfl, h⟩ hinv -
    have hcommit := commit_of_ending (s := s) (.accepted id token userId) hinv h
      fun other hother => by
        obtain rfl := Option.some.inj hother
        exact ⟨token, rfl, rfl⟩
    exact ⟨hcommit.1, hcommit.2, rfl⟩

theorem safe_calls {users : List UserId} {ids : List InvitationId} {normalize : String → String}
    (call : Call) (σ : Shared S Key (Option Row) Note) :
    Safe (discipline S) s (calls users ids normalize call) .none σ := by
  cases call with
  | createInvitation orgId input issued => exact (triple_createInvitation).safe σ
  | revokeInvitation orgId id => exact (triple_revokeInvitation).safe σ
  | acceptInvitation userId token now now' =>
    refine Triple.safe ((triple_resolveOrg).bind fun _ => Triple.ofOption fun orgId _ =>
      (triple_checkInvitation).bind fun checked => Triple.ofOption fun found hfound => ?_) σ
    refine Triple.conseq ((triple_redeemInvitation).bind fun _ => triple_pure fun _ _ h => h)
      (fun t σ h => ⟨h.2 found hfound, h.1⟩) fun _ _ _ h => h

end

/-! ### Runs -/

section
variable {S : Type} [DecidableEq S] {users : List UserId} {ids : List InvitationId}
  {normalize : String → String} {rows : Rows} {sys sys' : System S Key (Option Row) Label Unit Note}

theorem valid_invitations
    (hrun : StepSystem.ReachableWhen (Script.step (calls users ids normalize)) current.Meets
      (initial rows) sys) : Valid (discipline S) sys :=
  valid_of_reachable discipline_lawful (fun call _ σ _ => safe_calls call σ)
    ⟨List.nodup_nil, fun _ hnote => absurd hnote List.not_mem_nil⟩ hrun

/-- What one step does to the memberships and the invitations. -/
theorem redeemed_step (hv : Valid (discipline S) sys) {a : S × Input Call Unit}
    (hmeets : current.Meets sys a)
    (hstep : Script.step (calls users ids normalize) sys a = some sys') :
    Redeemed sys.world.committed sys'.world.committed (noted (sys.world.locals a.1) a.2) ∧
      ∀ id, Evolves (sys.world.committed (.invitation id))
        (sys'.world.committed (.invitation id)) := by
  obtain ⟨s, input⟩ := a
  rcases hv.committed_or_commit discipline_lawful hmeets hstep with
    ⟨hsame, -⟩ | ⟨notes, next, i, hl, rfl, hevolves, hredeemed⟩
  · rw [hsame]
    exact ⟨fun orgId userId hne => absurd rfl hne, fun _ => Evolves.refl _⟩
  · have hnoted : noted (sys.world.locals s) (.next i : Input Call Unit) = notes := by
      rw [hl]
      rfl
    rw [hnoted]
    exact ⟨hredeemed, hevolves⟩

end

/-! ### One invitation -/

instance (label : Label) (i : Unit) (rows : Rows) (held : Key → Bool) :
    Decidable (current.statement label i rows held) :=
  match label with
  | .query => isTrue trivial
  | .ends id read => decidable_of_iff
      ((invitationRow rows id).any (fun invitation => invitation.status = .pending ∧
        read.all fun as => invitation.tokenHash = as.1 ∧ invitation.role = as.2) = true) <| by
      simp only [current, Option.any_eq_true, decide_eq_true_eq, Option.all_eq_true,
        Option.mem_def]

instance (notes : List Note) (rows : Rows) : Decidable (current.commit notes rows) :=
  isTrue trivial

instance (notes log : List Note) : Decidable (current.history notes log) :=
  isTrue trivial

/-- An account, and an invitation to its address. -/
def invited : Rows
  | .user "u" => some (.user "e")
  | .invitation "i" => some (.invitation ⟨"o", "e", .admin, .pending, "t", 100, none, none⟩)
  | .lookup "t" => some (.lookup "o")
  | _ => none

/-- A call, and its next steps. -/
def made (s : Bool) (call : Call) (n : Nat) : List (Bool × Input Call Unit) :=
  (s, .call call) :: List.replicate n (s, .next ())

/-- The invitation and the membership there are, and the role in it. -/
def state (rows : Rows) : Option Status × Option Row :=
  ((invitationRow rows "i").map Invitation.status, rows (.membership "o" "u"))

end Invitations
end TaskFlow
