import TaskFlow.ImportTable
import TaskFlow.SprintLifecycle

/-! # Exporting cards

What an export reads of a project, the row it writes for a card, and the vocabulary against which
the row is resolved, when it is imported into a list of the same project.
-/
namespace TaskFlow
namespace CardExport
open RichText (Text)
open ImportRows CsvFormat
open TaskFlow.Filter (timeClip toISOString)
open SprintLifecycle (SprintStatus)

/-! ### Tables -/

/-- What a `Date` that is not invalid holds. -/
abbrev Instant := { time : ℤ // timeClip time = some time }

structure ListRow where
  id : Id
  boardId : Id
  name : Text
  deleted : Bool
  deriving DecidableEq, Repr

structure SprintRow where
  id : Id
  name : Text
  status : SprintStatus
  deriving DecidableEq, Repr

structure User where
  userId : Id
  email : Text
  emailNormalized : Text
  deriving DecidableEq, Repr

structure Membership where
  userId : Id
  active : Bool
  deriving DecidableEq, Repr

/-- A project, with what an export and an import read beside it. -/
structure Project where
  projectId : Id
  key : Text
  statuses : List Entry
  labels : List Entry
  lists : List ListRow
  sprints : List SprintRow
  users : List User
  memberships : List Membership

/-- A card; its labels in the order of their names. -/
structure Card where
  number : Nat
  title : Text
  descriptionText : Option Text
  statusId : Option Id
  listId : Id
  sprintId : Option Id
  assigneeIds : List Id
  labelIds : List Id
  priority : Option Priority
  dueDate : Option Instant

/-! ### The export -/

section
variable (project : Project)

/-- The name of the row with this id, if there is one. -/
def nameOf (entries : List Entry) (id : Id) : Option Text :=
  (entries.find? fun entry => entry.id = id).map (·.name)

def Project.listEntries : List Entry := project.lists.map fun list => ⟨list.id, list.name⟩

def Project.sprintEntries : List Entry :=
  project.sprints.map fun sprint => ⟨sprint.id, sprint.name⟩

def emailOf (userId : Id) : Option Text :=
  (project.users.find? fun user => user.userId = userId).map (·.email)

/-- `join('; ')`. -/
def joinNames (names : List Text) : Text := List.intercalate [';', ' '] names

def labelNames (card : Card) : List Text := card.labelIds.filterMap (nameOf project.labels)

def assigneeEmails (card : Card) : List Text :=
  card.assigneeIds.map fun id => (emailOf project id).getD []

def statusName (card : Card) : Text := (card.statusId.bind (nameOf project.statuses)).getD []

def listName (card : Card) : Text := (nameOf project.listEntries card.listId).getD []

/-- Empty means the backlog. -/
def sprintName (card : Card) : Text :=
  (card.sprintId.bind (nameOf project.sprintEntries)).getD []

/-- `toISOString` of an instant, which does not throw. -/
def dueDateText (time : Instant) : Text :=
  match toISOString (some time.1) with
  | .ok text => text
  | .error _ => []

def exportRow (card : Card) : ExportCard where
  reference := project.key ++ '-' :: Nat.toDigits 10 card.number
  title := card.title
  description := card.descriptionText.getD []
  status := statusName project card
  list := listName project card
  sprint := sprintName project card
  assignees := joinNames (assigneeEmails project card)
  labels := joinNames (labelNames project card)
  priority := (card.priority.map Priority.text).getD []
  dueDate := (card.dueDate.map dueDateText).getD []

def exportCards (cards : List Card) : Text := toCsv (cards.map (exportRow project))

end

/-! ### The vocabulary of an import -/

section
variable (engine : Engine) (project : Project)

/-- The lists of the board that the import's own list is on. -/
def boardLists (list : ListRow) : List Entry :=
  (project.lists.filter fun row => row.boardId = list.boardId ∧ ¬row.deleted).map fun row =>
    ⟨row.id, row.name⟩

def SprintRow.isOpen (sprint : SprintRow) : Bool :=
  sprint.status = .planned ∨ sprint.status = .active

def openSprints : List Entry :=
  (project.sprints.filter (·.isOpen)).map fun sprint => ⟨sprint.id, sprint.name⟩

def closedSprintNames : List Text :=
  (project.sprints.filter fun sprint => ¬sprint.isOpen).map fun sprint =>
    engine.toLowerCase sprint.name

/-- The active members, by address; what is set later comes first. -/
def members : TextMap :=
  ((project.memberships.filter (·.active)).filterMap fun membership =>
    (project.users.find? fun user => user.userId = membership.userId).map fun user =>
      (engine.toLowerCase user.emailNormalized, user.userId)).reverse

def vocabulary (list : ListRow) : ResolvedVocabulary where
  listId := list.id
  projectId := project.projectId
  statuses := NameLookup.ofEntries engine project.statuses
  labels := NameLookup.ofEntries engine project.labels
  lists := NameLookup.ofEntries engine (boardLists project list)
  listNames := (boardLists project list).map fun entry => (entry.id, entry.name)
  sprints := NameLookup.ofEntries engine (openSprints project)
  closedSprintNames := closedSprintNames engine project
  members := members engine project

/-- The rows that the dialog sends for a file. -/
def rowsOfFile (text : Text) : List ImportRowInput :=
  let table := ImportTable.tableOf (parseCsv text)
  ImportTable.rowsFromTable table (ImportTable.detectMapping engine table.headers)

end

end CardExport
end TaskFlow
