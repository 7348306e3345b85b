import Mathlib.Data.String.Basic
import TaskFlow.ReadCommitted
import TaskFlow.StepSystem

/-! # Membership management

One organization's memberships, at most one row per user, and the three calls
that change them: `changeRole`, `removeMember` and `transferOwnership`.  Each is
one transaction.  The first two read the target's row, look for another active
owner when the target is one (`assertAnotherOwnerRemains`), and write the
target's row.  A transfer reads the target's row and writes two rows.  No read
takes a lock.
-/
namespace TaskFlow
namespace Membership
open ReadCommitted

abbrev UserId := String

inductive Role where
  | owner
  | admin
  | member
  | guest
  deriving DecidableEq, Repr

/-- The role an organization must never be left without. -/
def isIndispensableRole (role : Role) : Bool := role = .owner

def sameRole (left right : Role) : Bool := left = right

inductive MembershipStatus where
  | active
  | suspended
  deriving DecidableEq, Repr

/-- A row of `identity.memberships` but for its user. -/
structure Row where
  id : String
  role : Role
  status : MembershipStatus
  deriving DecidableEq, Repr

abbrev Rows := UserId → Option Row

inductive AppError where
  | notFound
  | forbidden (message : String)
  | conflict (message : String)
  | validation (field message : String)
  deriving DecidableEq, Repr

/-- A call, with what it was given. -/
inductive Call where
  | changeRole (target : UserId) (role : Role) (actor : UserId)
  | removeMember (target : UserId) (actor : UserId)
  | transferOwnership (toUserId : UserId) (selfNewRole : {r : Role // r = .admin ∨ r = .member})
      (actor : UserId)
  deriving DecidableEq, Repr

/-- The user whose row the call reads first. -/
def Call.target : Call → UserId
  | .changeRole target _ _ | .removeMember target _ | .transferOwnership target _ _ => target

/-- What a call returns. -/
inductive Outcome where
  | roleChanged (before after : Role)
  | removed
  | transferred (newOwnerId : UserId)
  | failed (error : AppError)
  deriving DecidableEq, Repr

/-- An active owner. -/
def Row.isActiveOwner (row : Row) : Bool := row.role = .owner && row.status = .active

/-- The query of `assertAnotherOwnerRemains`. -/
def anotherOwnerRemains (users : List UserId) (rows : Rows) (excludingUserId : UserId) : Bool :=
  users.any fun user => user ≠ excludingUserId && (rows user).any Row.isActiveOwner

/-! ### The transactions -/

/-- Where a session is. -/
inductive Phase where
  | idle (last : Option Outcome)
  | reading (call : Call)
  /-- The target is an owner and has to leave another one behind. -/
  | guarding (call : Call) (row : Row)
  | writing (call : Call) (row : Row)
  /-- A transfer has made its target an owner; the old owner is next. -/
  | steppingDown (toUserId : UserId) (selfNewRole : {r : Role // r = .admin ∨ r = .member})
      (actor : UserId) (row : Row)
  | written (call : Call) (row : Row)
  deriving DecidableEq, Repr

inductive Input where
  | call (call : Call)
  | next
  /-- The connection is lost or the process dies. -/
  | abort
  deriving DecidableEq, Repr

def fail (error : AppError) : Effect UserId (Option Row) Phase :=
  .rollback (.idle (some (.failed error)))

/-- An update of the role column. -/
def setRole (role : Role) (row : Row) : Option Row := some { row with role := role }

/-- What a call does with the row it has read. -/
def check (call : Call) (row : Row) : Effect UserId (Option Row) Phase :=
  match call with
  | .changeRole _ role _ =>
    if sameRole row.role role then .commit (.idle (some (.roleChanged row.role role)))
    else if isIndispensableRole row.role then .run [] [] (.guarding call row)
    else .run [] [] (.writing call row)
  | .removeMember _ _ =>
    if isIndispensableRole row.role then .run [] [] (.guarding call row)
    else .run [] [] (.writing call row)
  | .transferOwnership _ _ _ =>
    if row.role ≠ .admin ∧ row.role ≠ .member then
      fail (.validation "toUserId"
        "This person must be a member or admin before becoming Owner. Promote them first.")
    else .run [] [] (.writing call row)

/-- An update of the membership `id` of a user, where it is still there. -/
def update (rows : Rows) (user : UserId) (id : String) (f : Row → Option Row) :
    List (UserId × Option Row) :=
  match rows user with
  | some row => if row.id = id then [(user, f row)] else []
  | none => []

/-- The write of a call: of a transfer, the first of two. -/
def write (rows : Rows) (call : Call) (row : Row) : Effect UserId (Option Row) Phase :=
  match call with
  | .changeRole target role _ =>
    .run [] (update rows target row.id (setRole role)) (.written call row)
  | .removeMember target _ =>
    .run [] (update rows target row.id fun _ => none) (.written call row)
  | .transferOwnership toUserId selfNewRole actor =>
    .run [] (update rows toUserId row.id (setRole .owner))
      (.steppingDown toUserId selfNewRole actor row)

/-- What a call returns when it commits. -/
def outcome (call : Call) (row : Row) : Outcome :=
  match call with
  | .changeRole _ role _ => .roleChanged row.role role
  | .removeMember _ _ => .removed
  | .transferOwnership toUserId _ _ => .transferred toUserId

/-- The next statement of a session.  `users` are the users of the organization
at any time. -/
def statement (users : List UserId) : Program UserId (Option Row) Phase Input :=
  fun phase input rows _ =>
    match phase, input with
    | _, .abort => some (.rollback (.idle none))
    | .idle _, .call (.changeRole target role actor) =>
      if target = actor then some (fail (.forbidden "You cannot change your own role."))
      else some (.run [] [] (.reading (.changeRole target role actor)))
    | .idle _, .call call => some (.run [] [] (.reading call))
    | .reading call, .next =>
      match rows call.target with
      -- NOT_FOUND rather than a message naming the user.
      | none => some (fail .notFound)
      | some row => some (check call row)
    | .guarding call row, .next =>
      if anotherOwnerRemains users rows call.target then some (.run [] [] (.writing call row))
      else some (fail (.conflict
        "An organization must always have an owner. Promote someone else first."))
    | .writing call row, .next => some (write rows call row)
    | .steppingDown toUserId selfNewRole actor row, .next =>
      match rows actor with
      | none => some (.run [] [] (.written (.transferOwnership toUserId selfNewRole actor) row))
      | some m => some (.run [] [(actor, setRole selfNewRole m)]
          (.written (.transferOwnership toUserId selfNewRole actor) row))
    | .written call row, .next => some (.commit (.idle (some (outcome call row))))
    | _, _ => none

variable {S : Type} [DecidableEq S]

abbrev State (S : Type) := World S UserId (Option Row) Phase

def initial (rows : Rows) : State S := World.initial rows (fun _ => .idle none)

def step (users : List UserId) : State S → S × Input → Option (State S) :=
  ReadCommitted.step (statement users)

/-- Somebody is an active owner. -/
def HasActiveOwner (users : List UserId) (rows : Rows) : Prop :=
  ∃ user ∈ users, (rows user).any Row.isActiveOwner = true

instance (users : List UserId) (rows : Rows) : Decidable (HasActiveOwner users rows) :=
  inferInstanceAs (Decidable (∃ user ∈ users, _))

/-- The owner check, made against the committed rows when the call commits,
would let it through.  For a transfer, which makes none: the target is another
user's membership that is still there and active, or the check would pass for
the old owner. -/
def Guarded (users : List UserId) (rows : Rows) (call : Call) (row : Row) : Prop :=
  match call with
  | .changeRole target role _ =>
    isIndispensableRole role = true ∨
      (rows target).any (fun m => isIndispensableRole m.role) = false ∨
      anotherOwnerRemains users rows target = true
  | .removeMember target _ =>
    (rows target).any (fun m => isIndispensableRole m.role) = false ∨
      anotherOwnerRemains users rows target = true
  | .transferOwnership toUserId _ actor =>
    (toUserId ≠ actor ∧
      (rows toUserId).any (fun m => m.id = row.id && m.status = .active) = true) ∨
      anotherOwnerRemains users rows actor = true

instance (users : List UserId) (rows : Rows) (call : Call) (row : Row) :
    Decidable (Guarded users rows call row) := by
  unfold Guarded
  split <;> infer_instance

/-- A call that commits is guarded by the rows as they are then. -/
def CommitsGuarded (users : List UserId) (w : State S) (a : S × Input) : Prop :=
  match w.locals a.1, a.2 with
  | .written call row, .next => Guarded users w.committed call row
  | _, _ => True

instance (users : List UserId) (w : State S) (a : S × Input) :
    Decidable (CommitsGuarded users w a) := by
  unfold CommitsGuarded
  split <;> infer_instance

end Membership
end TaskFlow
