import Mathlib.Data.Finset.Lattice.Basic
import Mathlib.Data.Fintype.Basic
import TaskFlow.SnapshotLog
import TaskFlow.StepSystem

/-! # The write-ahead log of a collaborative page

The collaboration server keeps a page as a live document.  An update from a
client is a row of `docs.yjs_updates` before it is applied to it.  When the
document has changed, a compaction writes it as a version and prunes the rows it
has read; a save on demand writes a version too, from the database alone.  After
a crash the document is rebuilt from the latest version and the rows after it.

A document is the set of its operations, and applying an update is their union.
Both tables are stamped by the database when a transaction begins, and a row is
seen when it commits.
-/
namespace TaskFlow
namespace CollabPage
open SnapshotLog

variable {S Op : Type} [DecidableEq Op]

/-! ### The tables -/

/-- A row of `docs.yjs_updates`.  Instants are in microseconds. -/
abbrev StoredUpdate (Op : Type) := Entry Nat (Finset Op) Nat

/-- A row of `docs.page_versions`. -/
abbrev PageVersionState (Op : Type) := Snapshot (Finset Op) Nat

def applyUpdate (document update : Finset Op) : Finset Op := document ∪ update

/-- A timestamp as the driver reads it, in milliseconds. -/
def toDate (createdAt : Nat) : Nat := createdAt / 1000 * 1000

/-- The rows after an instant.  They are applied in some order; updates commute. -/
def readUpdatesSince (rows : List (StoredUpdate Op)) (after : Option Nat) :
    List (StoredUpdate Op) :=
  rows.filter fun row => after.all (· < row.createdAt)

/-- The rows after the latest version, compared in the database. -/
def walRowsSinceLatestSnapshot (rows : List (StoredUpdate Op))
    (versions : List (PageVersionState Op)) : List (StoredUpdate Op) :=
  rows.filter fun row => versions.all fun version => version.createdAt < row.createdAt

def pruneUpdates (rows : List (StoredUpdate Op)) (ids : List Nat) : List (StoredUpdate Op) :=
  rows.filter fun row => row.id ∉ ids

/-- The snapshot, if any, and then the rows, applied to an empty document. -/
def rebuilt (snapshot : Option (PageVersionState Op)) (updates : List (StoredUpdate Op)) :
    Finset Op :=
  updates.foldl (fun document row => applyUpdate document row.data)
    (snapshot.elim ∅ Snapshot.state)

/-- What `replayPage` rebuilds from a snapshot. -/
def replayPage (snapshot : Option (PageVersionState Op)) (rows : List (StoredUpdate Op)) :
    Finset Op :=
  rebuilt snapshot (readUpdatesSince rows (snapshot.map fun version => toDate version.createdAt))

/-! ### What is under way -/

/-- The document in the server's memory. -/
inductive Document (Op : Type) where
  | closed
  /-- `replayPage` has read the latest version. -/
  | loading (snapshot : Option (PageVersionState Op))
  | live (document : Finset Op)

/-- How far a message, a compaction or a save has come. -/
inductive Task (Op : Type) where
  | idle
  /-- The transaction of `appendUpdate` is open. -/
  | appending (row : StoredUpdate Op)
  /-- It has committed; the update is not applied yet. -/
  | appended (update : Finset Op)
  /-- `compactPage` has read the latest version. -/
  | compacting (snapshot : Option (PageVersionState Op))
  | readRows (rows : List (StoredUpdate Op))
  | encoded (rows : List (StoredUpdate Op)) (state : Finset Op)
  /-- The transaction of `writeVersion` is open. -/
  | writing (rows : List (StoredUpdate Op)) (version : PageVersionState Op)
  | written (rows : List (StoredUpdate Op))
  /-- The transaction of `savePageVersion` is open. -/
  | saving (createdAt : Nat)
  | readSnapshot (createdAt : Nat) (snapshot : Option (PageVersionState Op))
  | materialized (version : PageVersionState Op)

inductive Input (Op : Type) where
  | appendUpdate (update : Finset Op)
  | applyUpdate
  | compactPage (snapshot : Option (PageVersionState Op))
  | readUpdatesSince
  /-- What the content guard strips it deletes by operations of its own. -/
  | encodeStateAsUpdate (stripped : Finset Op)
  | writeVersion
  | pruneUpdates
  | savePageVersion
  | latestSnapshot (snapshot : Option (PageVersionState Op))
  | walRowsSinceLatestSnapshot
  | commit
  /-- The statement, or the step after it, throws. -/
  | throws

inductive Action (S Op : Type) where
  | tick (microseconds : Nat)
  /-- The document is opened. -/
  | latestVersion (snapshot : Option (PageVersionState Op))
  | replayPage
  /-- The server dies, with every transaction it has open. -/
  | crash
  | run (s : S) (input : Input Op)

/-- `appended` is what has ever been committed to `docs.yjs_updates`. -/
structure State (S Op : Type) where
  now : Nat
  yjsUpdates : List (StoredUpdate Op)
  pageVersions : List (PageVersionState Op)
  nextId : Nat
  document : Document Op
  tasks : S → Task Op
  appended : List (StoredUpdate Op)

/-- The page has just been created. -/
def initial : State S Op where
  now := 0
  yjsUpdates := []
  pageVersions := []
  nextId := 0
  document := .closed
  tasks := fun _ => .idle
  appended := []

/-- The task is the server's, and not the API's. -/
def Task.atServer : Task Op → Bool
  | .idle | .saving _ | .readSnapshot _ _ | .materialized _ => false
  | _ => true

/-- What a crash of the server leaves of a task. -/
def Task.crashed (task : Task Op) : Task Op := if task.atServer then .idle else task

variable [DecidableEq S]

def State.set (σ : State S Op) (s : S) (task : Task Op) : State S Op :=
  { σ with tasks := Function.update σ.tasks s task }

/-- The next step of a message that is handled, of `compactPage` or of
`savePageVersion`. -/
def runTask (σ : State S Op) (s : S) (input : Input Op) : Option (State S Op) :=
  match σ.tasks s, input, σ.document with
  | .idle, .appendUpdate update, .live _ =>
    some ({ σ with nextId := σ.nextId + 1 }.set s (.appending ⟨σ.nextId, update, σ.now⟩))
  | .appending row, .commit, _ =>
    some ({ σ with yjsUpdates := row :: σ.yjsUpdates, appended := row :: σ.appended }.set s
      (.appended row.data))
  | .appended update, .applyUpdate, .live document =>
    some ({ σ with document := .live (applyUpdate document update) }.set s .idle)
  | .idle, .compactPage snapshot, .live _ =>
    if Newest σ.pageVersions snapshot then some (σ.set s (.compacting snapshot)) else none
  | .compacting snapshot, .readUpdatesSince, _ =>
    let rows := readUpdatesSince σ.yjsUpdates (snapshot.map fun version => toDate version.createdAt)
    if rows = [] then some (σ.set s .idle) else some (σ.set s (.readRows rows))
  | .readRows rows, .encodeStateAsUpdate stripped, .live document =>
    let document := applyUpdate document stripped
    some ({ σ with document := .live document }.set s (.encoded rows document))
  | .encoded rows state, .writeVersion, _ => some (σ.set s (.writing rows ⟨state, σ.now⟩))
  | .writing rows version, .commit, _ =>
    some ({ σ with pageVersions := version :: σ.pageVersions }.set s (.written rows))
  | .written rows, .pruneUpdates, _ =>
    some ({ σ with yjsUpdates := pruneUpdates σ.yjsUpdates (rows.map Entry.id) }.set s .idle)
  | .idle, .savePageVersion, _ => some (σ.set s (.saving σ.now))
  | .saving createdAt, .latestSnapshot snapshot, _ =>
    if Newest σ.pageVersions snapshot then some (σ.set s (.readSnapshot createdAt snapshot))
    else none
  | .readSnapshot createdAt snapshot, .walRowsSinceLatestSnapshot, _ =>
    some (σ.set s (.materialized
      ⟨rebuilt snapshot (walRowsSinceLatestSnapshot σ.yjsUpdates σ.pageVersions), createdAt⟩))
  | .materialized version, .commit, _ =>
    some ({ σ with pageVersions := version :: σ.pageVersions }.set s .idle)
  -- an update whose row has committed is applied, unless the server dies
  | .idle, .throws, _ | .appended _, .throws, _ => none
  | _, .throws, _ => some (σ.set s .idle)
  | _, _, _ => none

def step (σ : State S Op) : Action S Op → Option (State S Op)
  | .tick microseconds => some { σ with now := σ.now + microseconds }
  | .latestVersion snapshot =>
    match σ.document with
    | .closed =>
      if Newest σ.pageVersions snapshot then some { σ with document := .loading snapshot } else none
    | _ => none
  | .replayPage =>
    match σ.document with
    | .loading snapshot =>
      some { σ with document := .live (CollabPage.replayPage snapshot σ.yjsUpdates) }
    | _ => none
  | .crash => some { σ with document := .closed, tasks := fun s => (σ.tasks s).crashed }
  | .run s input => runTask σ s input

/-! ### Orderly runs -/

/-- The row of an append whose transaction is open. -/
def Task.appending? : Task Op → Option (StoredUpdate Op)
  | .appending row => some row
  | _ => none

/-- The version that is about to be committed. -/
def Task.version? : Task Op → Option (PageVersionState Op)
  | .writing _ version | .materialized version => some version
  | _ => none

/-- A message whose row is being written, or is not applied yet. -/
def Task.isUnapplied : Task Op → Bool
  | .appending _ | .appended _ => true
  | _ => false

/-- The document has been encoded, and the version not begun. -/
def Task.isEncoded : Task Op → Bool
  | .encoded _ _ => true
  | _ => false

/-- The steps that compactions and saves are safe with: a document is encoded
while no message is being handled, and no append begins from there to the
version's transaction, nor at the instant of a version; and a save reads the rows
while its snapshot is the latest and no append that began before it is open, or is
older than a version by then. -/
def Orderly (σ : State S Op) : Action S Op → Prop
  | .run _ (.encodeStateAsUpdate _) => ∀ t, (σ.tasks t).isUnapplied = false
  | .run _ (.appendUpdate _) => (∀ version ∈ σ.pageVersions, version.createdAt < σ.now) ∧
      ∀ t, (σ.tasks t).isEncoded = false ∧
        ∀ version ∈ (σ.tasks t).version?, version.createdAt < σ.now
  | .run s .walRowsSinceLatestSnapshot =>
    match σ.tasks s with
    | .readSnapshot createdAt snapshot =>
      (Newest σ.pageVersions snapshot ∧
        ∀ t, ∀ row ∈ (σ.tasks t).appending?, createdAt < row.createdAt) ∨
      ∃ version ∈ σ.pageVersions, createdAt < version.createdAt
    | _ => True
  | _ => True

instance [Fintype S] {σ : State S Op} : DecidablePred (Orderly σ) := fun action => by
  unfold Orderly
  repeat' split
  all_goals infer_instance

end CollabPage
end TaskFlow
