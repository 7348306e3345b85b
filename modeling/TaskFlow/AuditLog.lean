import Mathlib.Data.List.Sort
import TaskFlow.AuditChain
import TaskFlow.ReadCommitted
import TaskFlow.StepSystem

/-! # Writing the audit log

A trigger on the audit log gives each new row its sequence number, its link and
its hash.  It creates the organization's row in `chain_heads` if there is none,
locks it, reads the head from it and advances it; the lock is held to the end of
the transaction.  A transaction may insert any number of rows, for any
organizations.

A uuid is its canonical text.  The values of the types `jsonb` and `inet` enter
the chain only as the text the database renders, so they are two parameters with
a rendering each.
-/
namespace TaskFlow
namespace AuditLog
open AuditChain NetString ReadCommitted

abbrev Uuid := {text : String // isUuid text = true}

/-- A row of `audit.chain_heads`. -/
structure Head where
  seq : Nat
  hash : Bytes
  deriving DecidableEq, Repr

/-- What an insert supplies.  `occurredAt` is in microseconds. -/
structure NewEntry (Jsonb Inet : Type) where
  id : Uuid
  orgId : Uuid
  occurredAt : Int
  actorId : Option Uuid
  action : String
  resourceType : Option String
  resourceId : Option Uuid
  changes : Option Jsonb
  decision : Option Jsonb
  ip : Option Inet
  userAgent : Option String
  sessionId : Option Uuid
  requestId : Option String
  deriving DecidableEq, Repr

/-- A row of `audit.audit_log`. -/
structure AuditRow (Jsonb Inet : Type) extends NewEntry Jsonb Inet where
  seq : Nat
  prevHash : Option Bytes
  hash : Bytes
  deriving DecidableEq, Repr

/-- The primary keys of the two tables. -/
inductive Key where
  | chainHead (orgId : Uuid)
  | auditLog (orgId : Uuid) (occurredAt : Int) (id : Uuid)
  deriving DecidableEq, Repr

inductive Record (Jsonb Inet : Type) where
  | chainHead (head : Head)
  | auditLog (row : AuditRow Jsonb Inet)
  deriving DecidableEq, Repr

/-- The database's rendering of a value as text. -/
structure Casts (Jsonb Inet : Type) where
  jsonb : Jsonb → String
  inet : Inet → String

variable {Jsonb Inet : Type}

def NewEntry.key (entry : NewEntry Jsonb Inet) : Key :=
  .auditLog entry.orgId entry.occurredAt entry.id

abbrev Rows (Jsonb Inet : Type) := Key → Option (Record Jsonb Inet)

/-- `audit.chain_field`. -/
def chainField : Option String → List Char
  | none => ['-']
  | some v => Nat.toDigits 10 (octets v.toList) ++ ':' :: v.toList

/-- `(extract(epoch FROM occurred_at) * 1000)::bigint`: half a millisecond is
rounded away from zero. -/
def epochMilliseconds (occurredAt : Int) : Int :=
  if 0 ≤ occurredAt then (occurredAt + 500) / 1000 else -((-occurredAt + 500) / 1000)

section
variable (casts : Casts Jsonb Inet) (sha256 : Bytes → Bytes)

/-- The text the trigger hashes after the head's hash. -/
def chainText (entry : NewEntry Jsonb Inet) (seq : Nat) : List Char :=
  chainField (some entry.id) ++
  chainField (some entry.orgId) ++
  chainField (some (toString seq)) ++
  chainField (some (toString (epochMilliseconds entry.occurredAt))) ++
  chainField (entry.actorId.map (·.val)) ++
  chainField (some entry.action) ++
  chainField entry.resourceType ++
  chainField (entry.resourceId.map (·.val)) ++
  chainField (entry.changes.map casts.jsonb) ++
  chainField (entry.decision.map casts.jsonb) ++
  chainField (entry.ip.map casts.inet) ++
  chainField entry.userAgent ++
  chainField (entry.sessionId.map (·.val)) ++
  chainField entry.requestId

/-- The row that `audit.chain_entry` makes of an insert. -/
def chainEntry (entry : NewEntry Jsonb Inet) (head : Head) : AuditRow Jsonb Inet :=
  { entry with
    seq := head.seq + 1
    prevHash := if head.seq = 0 then none else some head.hash
    hash := sha256 (head.hash ++ utf8 (chainText casts entry (head.seq + 1))) }

end

/-! ### A session -/

inductive Phase (Jsonb Inet : Type) where
  /-- No insert is in progress. -/
  | ready
  /-- The organization has a row in `chain_heads`. -/
  | locking (entry : NewEntry Jsonb Inet)
  /-- The row is locked and read. -/
  | advancing (entry : NewEntry Jsonb Inet) (head : Head)
  /-- The head is advanced. -/
  | inserting (row : AuditRow Jsonb Inet)
  deriving DecidableEq, Repr

inductive Input (Jsonb Inet : Type) where
  | insert (entry : NewEntry Jsonb Inet)
  | next
  | commit
  /-- The transaction fails or the connection is lost. -/
  | abort
  deriving DecidableEq, Repr

/-- An organization's row in `chain_heads`. -/
def headOf (rows : Rows Jsonb Inet) (orgId : Uuid) : Option Head :=
  match rows (.chainHead orgId) with
  | some (.chainHead head) => some head
  | _ => none

/-- The largest `bigint`. -/
def MAX_BIGINT : Nat := 9223372036854775807

/-- The next statement of a session. -/
def statement (casts : Casts Jsonb Inet) (sha256 : Bytes → Bytes) :
    Program Key (Option (Record Jsonb Inet)) (Phase Jsonb Inet) (Input Jsonb Inet) :=
  fun phase input rows _ =>
    match phase, input with
    | .ready, .insert entry =>
      -- INSERT INTO audit.chain_heads … ON CONFLICT DO NOTHING
      if rows (.chainHead entry.orgId) = none then
        some (.run [] [(.chainHead entry.orgId, some (.chainHead ⟨0, []⟩))] (.locking entry))
      else some (.run [] [] (.locking entry))
    | .locking entry, .next =>
      match headOf rows entry.orgId with
      | some head => some (.run [.chainHead entry.orgId] [] (.advancing entry head))
      -- `seq` is null, which the column does not allow.
      | none => some (.rollback .ready)
    | .advancing entry head, .next =>
      if head.seq + 1 ≤ MAX_BIGINT then
        let row := chainEntry casts sha256 entry head
        some (.run [] [(.chainHead entry.orgId, some (.chainHead ⟨row.seq, row.hash⟩))]
          (.inserting row))
      else some (.rollback .ready)
    | .inserting row, .next =>
      if rows row.key = none then some (.run [] [(row.key, some (.auditLog row))] .ready)
      else some (.rollback .ready)
    | .ready, .commit => some (.commit .ready)
    | _, .abort => some (.rollback .ready)
    | _, _ => none

abbrev State (S Jsonb Inet : Type) :=
  World S Key (Option (Record Jsonb Inet)) (Phase Jsonb Inet)

section
variable {S : Type} [DecidableEq S]

/-- Empty tables. -/
def initial : State S Jsonb Inet := World.initial (fun _ => none) fun _ => .ready

def step (casts : Casts Jsonb Inet) (sha256 : Bytes → Bytes) :
    State S Jsonb Inet → S × Input Jsonb Inet → Option (State S Jsonb Inet) :=
  ReadCommitted.step (statement casts sha256)

end

/-! ### Reading the chain -/

/-- A row of the audit log, where the key is one of its keys. -/
def rowAt (rows : Rows Jsonb Inet) : Key → Option (AuditRow Jsonb Inet)
  | .chainHead _ => none
  | .auditLog orgId occurredAt id =>
    match rows (.auditLog orgId occurredAt id) with
    | some (.auditLog row) => some row
    | _ => none

/-- A row, with each column cast to the text that was hashed. -/
def chainRow (casts : Casts Jsonb Inet) (row : AuditRow Jsonb Inet) : StoredAuditEntry where
  id := row.id
  orgId := row.orgId
  seq := toString row.seq
  occurredAtMs := toString (epochMilliseconds row.occurredAt)
  actorId := row.actorId.map (·.val)
  action := row.action
  resourceType := row.resourceType
  resourceId := row.resourceId.map (·.val)
  changes := row.changes.map casts.jsonb
  decision := row.decision.map casts.jsonb
  ip := row.ip.map casts.inet
  userAgent := row.userAgent
  sessionId := row.sessionId.map (·.val)
  requestId := row.requestId
  prevHash := row.prevHash
  hash := row.hash

/-- The rows of an organization, `ORDER BY audit_log.seq`.  `keys` are the keys
of the rows there are. -/
def orderedRows (keys : List Key) (rows : Rows Jsonb Inet) (orgId : Uuid) :
    List (AuditRow Jsonb Inet) :=
  ((keys.filterMap (rowAt rows)).filter fun row => row.orgId = orgId).insertionSort
    fun a b => a.seq ≤ b.seq

def readAuditChain (casts : Casts Jsonb Inet) (keys : List Key) (rows : Rows Jsonb Inet)
    (orgId : Uuid) : List StoredAuditEntry :=
  (orderedRows keys rows orgId).map (chainRow casts)

end AuditLog
end TaskFlow
