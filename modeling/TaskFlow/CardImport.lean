import Mathlib.Data.List.Sort
import Mathlib.Logic.Function.Basic
import TaskFlow.ImportRows

/-! # Importing cards

`importCards` writes one row after another, and a row by one service call after another, each
its own transaction.  A row that fails halfway is to be undone by archiving its card; but the
id of the card is known to the loop only once the whole row is written.
-/
namespace TaskFlow
namespace CardImport
open ImportRows
open RichText (Text)

/-! ### Services -/

structure Card where
  cardId : Id
  listId : Id
  title : Text
  description : Option Text
  statusId : Option Id
  assigneeIds : List Id
  labelIds : List Id
  sprintId : Option Id
  dueDate : Option ℤ
  startDate : Option ℤ
  priority : Option Priority
  version : Nat
  archived : Bool
  deriving DecidableEq, Repr

structure LabelRow where
  labelId : Id
  name : Text
  color : String
  deriving DecidableEq, Repr

/-- What the services write. -/
structure World where
  cards : List Card
  labels : List LabelRow
  deriving DecidableEq, Repr

inductive Service where
  | createCard
  | setCardStatus
  | assignCard
  | setCardLabels
  | assignSprint
  | getCard
  | updateCard
  | archiveCard
  deriving DecidableEq, Repr

/-- What an import meets: the vocabulary it reads, the new ids, and what a service throws when
the row of a line calls it.  A service that throws has written nothing. -/
structure Environment where
  vocabulary : Except Text ResolvedVocabulary
  defaultStatus : Option Id
  newCardId : Nat → Id
  newLabelId : Nat → Id
  throws : Nat → Service → Option Text
  throwsLabel : Nat → Option Text

/-- An action that may throw; what is written stays. -/
abbrev Action := ExceptT Text (StateM World)

def World.editCard (world : World) (cardId : Id) (f : Card → Card) : World :=
  { world with cards := world.cards.map fun card => if card.cardId = cardId then f card else card }

section
variable (env : Environment) (line : Nat)

/-- One service call of the row on this line. -/
def call (service : Service) (write : World → World) : Action Unit := do
  match env.throws line service with
  | some message => throw message
  | none => modify write

def createCard (listId : Id) (title : Text) (description : Option Text) : Action Id := do
  call env line .createCard fun world =>
    { world with cards := world.cards ++
      [{ cardId := env.newCardId line
         listId := listId
         title := title
         description := description
         statusId := env.defaultStatus
         assigneeIds := []
         labelIds := []
         sprintId := none
         dueDate := none
         startDate := none
         priority := none
         version := 1
         archived := false }] }
  return env.newCardId line

def setCardStatus (cardId statusId : Id) : Action Unit :=
  call env line .setCardStatus fun world =>
    world.editCard cardId fun card => { card with statusId := some statusId }

/-- Each assignee once, in the order they are named. -/
def assignCard (cardId : Id) (assigneeIds : List Id) : Action Unit :=
  call env line .assignCard fun world =>
    world.editCard cardId fun card => { card with assigneeIds := assigneeIds.eraseDups }

/-- Each label once, in order. -/
def setCardLabels (cardId : Id) (labelIds : List Id) : Action Unit :=
  call env line .setCardLabels fun world => world.editCard cardId fun card =>
    { card with labelIds := labelIds.eraseDups.insertionSort (· ≤ ·) }

def assignSprint (cardId sprintId : Id) : Action Unit :=
  call env line .assignSprint fun world =>
    world.editCard cardId fun card => { card with sprintId := some sprintId }

def getCard (cardId : Id) : Action Card := do
  call env line .getCard id
  match (← get).cards.find? fun card => card.cardId = cardId with
  | none => throw "Not found.".toList
  | some card => return card

/-- The version is part of the WHERE. -/
def updateCard (cardId : Id) (version : Nat) (title : Text) (description : Option Text)
    (dueDate startDate : Option ℤ) (priority : Option Priority) : Action Unit := do
  call env line .updateCard id
  let card := (← get).cards.find? fun card => card.cardId = cardId ∧ card.version = version
  if card.isNone then
    throw "This card was changed by someone else. Reload and try again.".toList
  modify fun world => world.editCard cardId fun card =>
    { card with title, description, dueDate, startDate, priority, version := version + 1 }

def archiveCard (cardId : Id) (archived : Bool) : Action Unit :=
  call env line .archiveCard fun world =>
    world.editCard cardId fun card => { card with archived := archived }

/-! ### One row -/

def setDetails (cardId : Id) (row : ImportRow) : Action Unit := do
  let detail ← getCard env line cardId
  updateCard env line cardId detail.version row.title row.description row.dueDate none
    row.priority

def setWhen (condition : Bool) (action : Action Unit) : Action Unit :=
  if condition then action else pure ()

/-- The setters of a row, after its card is created. -/
def setFields (cardId : Id) (row : ImportRow) : Action Unit := do
  row.statusId.forM (setCardStatus env line cardId)
  setWhen (row.assigneeIds.length > 0) (assignCard env line cardId row.assigneeIds)
  setWhen (row.labelIds.length > 0) (setCardLabels env line cardId row.labelIds)
  row.sprintId.forM (assignSprint env line cardId)
  setWhen (row.dueDate ≠ none ∨ row.priority ≠ none) (setDetails env line cardId row)

def writeRow (row : ImportRow) : Action Id := do
  let cardId ← createCard env line row.listId row.title row.description
  setFields env line cardId row
  return cardId

end

/-! ### The import -/

structure ImportError where
  line : Nat
  error : Text
  deriving DecidableEq, Repr

structure ListCount where
  listId : Id
  name : Text
  count : Nat
  deriving DecidableEq, Repr

structure ImportResult where
  created : Nat
  errors : List ImportError
  missingLabels : List Text
  createdByList : List ListCount
  deriving DecidableEq, Repr

structure ImportInput where
  rows : List ImportRowInput
  dryRun : Bool
  createMissingLabels : Bool

def IMPORT_LABEL_COLORS : List String :=
  ["#ef4444", "#f97316", "#eab308", "#22c55e", "#3b82f6", "#8b5cf6", "#ec4899", "#64748b"]

def MAX_IMPORT_ROWS : Nat := 1000

section
variable (engine : Engine) (env : Environment)

/-- The names of the list that the project does not have; those in `seen` are known to be
missing already. -/
def addMissing (vocab : ResolvedVocabulary) (missing : List Text) : List Text → List Text
  | [] => missing
  | name :: names =>
    let clean := unneutralize name
    if (vocab.labels.resolve engine clean).isSome ∨
        engine.toLowerCase clean ∈ missing.map engine.toLowerCase then
      addMissing vocab missing names
    else addMissing vocab (missing ++ [clean]) names

/-- The label names the file uses that the project does not have, as they first appear. -/
def missingLabels (vocab : ResolvedVocabulary) (rows : List ImportRowInput) : List Text :=
  rows.foldl (fun missing raw => addMissing engine vocab missing ((splitList raw.labels).getD []))
    []

/-- Creates the labels; `index` have been created before. -/
def createLabels (index : Nat) : List Text → ResolvedVocabulary → Action ResolvedVocabulary
  | [], vocab => return vocab
  | name :: names, vocab => do
    match env.throwsLabel index with
    | some message => throw message
    | none =>
      let labelId := env.newLabelId index
      let color := (IMPORT_LABEL_COLORS[index % IMPORT_LABEL_COLORS.length]?).getD "#64748b"
      modify fun world => { world with labels := world.labels ++ [⟨labelId, name, color⟩] }
      createLabels (index + 1) names
        { vocab with labels := vocab.labels.add engine name labelId }

/-- What the loop over the rows has counted so far. -/
structure Progress where
  rowErrors : List ImportError
  /-- How many cards went to each list. -/
  placed : List (Id × Nat)
  created : Nat

def countPlaced (placed : List (Id × Nat)) (listId : Id) : List (Id × Nat) :=
  if placed.any fun (id, _) => id = listId then
    placed.map fun (id, count) => if id = listId then (id, count + 1) else (id, count)
  else placed ++ [(listId, 1)]

/-- Archives the card, if there is one; what that throws is swallowed. -/
def compensate (line : Nat) : Option Id → StateM World Unit
  | none => pure ()
  | some cardId => do
    let _ ← (archiveCard env line cardId true).run

def importRow (vocab : ResolvedVocabulary) (dryRun tolerateMissingLabels : Bool) (line : Nat)
    (raw : ImportRowInput) (progress : Progress) : StateM World Progress :=
  match validateRow engine raw vocab tolerateMissingLabels with
  | .error error => pure { progress with rowErrors := progress.rowErrors ++ [⟨line, error⟩] }
  | .ok row =>
    if dryRun then pure progress
    else do
      match ← (writeRow env line row).run with
      | .ok _ =>
        pure { progress with
          created := progress.created + 1
          placed := countPlaced progress.placed row.listId }
      | .error message => do
        -- the assignment of the id has not been reached
        let cardId : Option Id := none
        compensate env line cardId
        pure { progress with rowErrors := progress.rowErrors ++ [⟨line, message⟩] }

def importRows (vocab : ResolvedVocabulary) (dryRun tolerateMissingLabels : Bool) :
    Nat → List ImportRowInput → Progress → StateM World Progress
  | _, [], progress => pure progress
  | line, raw :: rows, progress => do
    let progress ← importRow engine env vocab dryRun tolerateMissingLabels line raw progress
    importRows vocab dryRun tolerateMissingLabels (line + 1) rows progress

/-- Where the cards landed, the largest first. -/
def createdByList (vocab : ResolvedVocabulary) (placed : List (Id × Nat)) : List ListCount :=
  (placed.map fun (listId, count) =>
    ⟨listId, (vocab.listNames.lookup listId).getD "Unknown list".toList, count⟩).insertionSort
      fun a b => b.count ≤ a.count

/-- The vocabulary the rows are read with. -/
def importVocabulary (input : ImportInput) (vocab : ResolvedVocabulary) :
    Action ResolvedVocabulary :=
  if input.createMissingLabels ∧ ¬input.dryRun then
    createLabels engine env 0 (missingLabels engine vocab input.rows) vocab
  else pure vocab

def importCards (input : ImportInput) : Action ImportResult := do
  if input.rows.length < 1 ∨ MAX_IMPORT_ROWS < input.rows.length then
    throw "That batch is the wrong size.".toList
  let vocab ← (env.vocabulary : Except Text ResolvedVocabulary)
  let missing := missingLabels engine vocab input.rows
  let vocab ← importVocabulary engine env input vocab
  let progress ← importRows engine env vocab input.dryRun
    (input.createMissingLabels && input.dryRun) 1 input.rows ⟨[], [], 0⟩
  return {
    created := progress.created
    errors := progress.rowErrors
    missingLabels := missing
    createdByList := createdByList vocab progress.placed }

end

end CardImport
end TaskFlow
