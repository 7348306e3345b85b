import Mathlib.Data.List.Sort
import Mathlib.Data.String.Basic

/-! # The tables of a project

The rows of projects, boards, lists, cards and what hangs on a card, as far as the services
of this part read or write them, and the queries they make.

`copyStatuses`, `copyLists`, `copyCards` and their like say what `duplicateProject` makes
of the rows it has selected.  Each row gets a new id, and each reference goes through the
map of the rows it refers to.  One does not: `copyItem` keeps the card of the item.
-/
namespace TaskFlow
namespace WorkTables

abbrev Id := String

/-! ### Rows -/

structure ProjectRow where
  id : Id
  name : String
  key : String
  description : Option String
  nextCardNumber : Nat
  deletedAt : Option Int
  createdBy : Id
  deriving DecidableEq, Repr

structure StatusRow where
  id : Id
  projectId : Id
  name : String
  category : String
  color : String
  position : Int
  isDefault : Bool
  deriving DecidableEq, Repr

structure LabelRow where
  id : Id
  projectId : Id
  name : String
  color : String
  deriving DecidableEq, Repr

structure CustomFieldDefRow where
  id : Id
  projectId : Id
  name : String
  type : String
  options : Option String
  rank : List Char
  archivedAt : Option Int
  deriving DecidableEq, Repr

structure BoardRow where
  id : Id
  projectId : Id
  name : String
  rank : List Char
  archivedAt : Option Int
  deletedAt : Option Int
  deriving DecidableEq, Repr

structure ListRow where
  id : Id
  projectId : Id
  boardId : Id
  name : String
  rank : List Char
  wipLimit : Option Nat
  archivedAt : Option Int
  deletedAt : Option Int
  deriving DecidableEq, Repr

structure CardRow where
  id : Id
  projectId : Id
  boardId : Id
  listId : Id
  number : Nat
  title : String
  rank : List Char
  statusId : Option Id
  sprintId : Option Id
  commentCount : Nat
  checklistDone : Nat
  checklistTotal : Nat
  archivedAt : Option Int
  deletedAt : Option Int
  createdBy : Id
  deriving DecidableEq, Repr

structure CardLabelRow where
  projectId : Id
  cardId : Id
  labelId : Id
  deriving DecidableEq, Repr

structure CustomFieldValueRow where
  projectId : Id
  cardId : Id
  fieldId : Id
  value : String
  deriving DecidableEq, Repr

structure ChecklistRow where
  id : Id
  cardId : Id
  name : String
  rank : List Char
  deriving DecidableEq, Repr

structure ChecklistItemRow where
  id : Id
  cardId : Id
  checklistId : Id
  text : String
  rank : List Char
  done : Bool
  doneBy : Option Id
  doneAt : Option Int
  deriving DecidableEq, Repr

structure CommentRow where
  id : Id
  cardId : Id
  parentCommentId : Option Id
  authorId : Id
  bodyText : List Char
  deletedAt : Option Int
  deriving DecidableEq, Repr

/-- The rows of one organization. -/
structure Tables where
  projects : List ProjectRow := []
  statuses : List StatusRow := []
  labels : List LabelRow := []
  customFieldDefs : List CustomFieldDefRow := []
  boards : List BoardRow := []
  lists : List ListRow := []
  cards : List CardRow := []
  cardLabels : List CardLabelRow := []
  customFieldValues : List CustomFieldValueRow := []
  checklists : List ChecklistRow := []
  checklistItems : List ChecklistItemRow := []
  comments : List CommentRow := []
  deriving DecidableEq, Repr

/-! ### Queries -/

/-- `ORDER BY rank, id`. -/
def rankedBefore (rank rank' : List Char) (id id' : Id) : Prop :=
  rank < rank' ∨ rank = rank' ∧ id ≤ id'

instance {rank rank' : List Char} {id id' : Id} : Decidable (rankedBefore rank rank' id id') :=
  inferInstanceAs (Decidable (rank < rank' ∨ rank = rank' ∧ id ≤ id'))

namespace Tables
variable (db : Tables)

/-- A project that is not deleted. -/
def project (projectId : Id) : Option ProjectRow :=
  db.projects.find? fun row => row.id = projectId ∧ row.deletedAt = none

def statusesOf (projectId : Id) : List StatusRow :=
  db.statuses.filter fun row => row.projectId = projectId

def labelsOf (projectId : Id) : List LabelRow :=
  db.labels.filter fun row => row.projectId = projectId

def fieldsOf (projectId : Id) : List CustomFieldDefRow :=
  db.customFieldDefs.filter fun row => row.projectId = projectId

def boardsOf (projectId : Id) : List BoardRow :=
  db.boards.filter fun row => row.projectId = projectId ∧ row.deletedAt = none

def listsOf (projectId : Id) : List ListRow :=
  db.lists.filter fun row => row.projectId = projectId ∧ row.deletedAt = none

/-- The cards of a project that are neither deleted nor archived. -/
def shownCards (projectId : Id) : List CardRow :=
  db.cards.filter fun row =>
    row.projectId = projectId ∧ row.deletedAt = none ∧ row.archivedAt = none

/-- The cards a duplicate reads, in the order it reads them. -/
def orderedCards (projectId : Id) : List CardRow :=
  (db.shownCards projectId).insertionSort fun a b => rankedBefore a.rank b.rank a.id b.id

/-- The cards of a list that are not deleted, in order. -/
def siblings (listId : Id) : List CardRow :=
  (db.cards.filter fun row => row.listId = listId ∧ row.deletedAt = none).insertionSort
    fun a b => rankedBefore a.rank b.rank a.id b.id

def labelsOn (cardIds : List Id) : List CardLabelRow :=
  db.cardLabels.filter fun row => row.cardId ∈ cardIds

def valuesOn (cardIds : List Id) : List CustomFieldValueRow :=
  db.customFieldValues.filter fun row => row.cardId ∈ cardIds

def checklistsOn (cardIds : List Id) : List ChecklistRow :=
  db.checklists.filter fun row => row.cardId ∈ cardIds

def itemsOf (checklistIds : List Id) : List ChecklistItemRow :=
  db.checklistItems.filter fun row => row.checklistId ∈ checklistIds

/-- The items `recountChecklist` counts. -/
def itemsOn (cardId : Id) : List ChecklistItemRow :=
  db.checklistItems.filter fun row => row.cardId = cardId

/-- The checklists of a card, in order. -/
def checklistsInOrder (cardId : Id) : List ChecklistRow :=
  (db.checklists.filter fun row => row.cardId = cardId).insertionSort
    fun a b => rankedBefore a.rank b.rank a.id b.id

/-- The items of a checklist, in order. -/
def itemsInOrder (checklistId : Id) : List ChecklistItemRow :=
  (db.itemsOf [checklistId]).insertionSort fun a b => rankedBefore a.rank b.rank a.id b.id

/-- The comments `recountComments` counts. -/
def commentsOn (cardId : Id) : List CommentRow :=
  db.comments.filter fun row => row.cardId = cardId ∧ row.deletedAt = none

end Tables

/-! ### What a duplicate makes of the rows it reads -/

/-- What `newId` answers, by the row whose copy the id is for. -/
structure NewIds where
  project : Id
  status : Id → Id
  label : Id → Id
  field : Id → Id
  board : Id → Id
  list : Id → Id
  card : Id → Id
  checklist : Id → Id
  item : Id → Id

inductive DuplicateError where
  | notFound
  | forbidden
  | conflict (message : String)
  deriving DecidableEq, Repr

/-- A map from old ids to new ones. -/
abbrev IdMap := List (Id × Id)

def IdMap.get (map : IdMap) (id : Id) : Option Id := map.lookup id

/-- The map that a loop over rows with these ids fills. -/
def idMap (newId : Id → Id) (ids : List Id) : IdMap := ids.map fun id => (id, newId id)

section
variable (ids : NewIds)

def copyStatuses (rows : List StatusRow) : List StatusRow :=
  rows.map fun row => { row with id := ids.status row.id, projectId := ids.project }

def copyLabels (rows : List LabelRow) : List LabelRow :=
  rows.map fun row => { row with id := ids.label row.id, projectId := ids.project }

def copyFields (rows : List CustomFieldDefRow) : List CustomFieldDefRow :=
  rows.map fun row => { row with id := ids.field row.id, projectId := ids.project }

def copyBoards (rows : List BoardRow) : List BoardRow :=
  rows.map fun row => { row with id := ids.board row.id, projectId := ids.project }

/-- The copy of a list, on the copied board. -/
def copyList (boardId : Id) (row : ListRow) : ListRow :=
  { row with id := ids.list row.id, projectId := ids.project, boardId := boardId }

def copyLists (boardMap : IdMap) : List ListRow → Except DuplicateError (List ListRow)
  | [] => .ok []
  | row :: rows =>
    match boardMap.get row.boardId with
    | none => .error (.conflict "A list outlived its board.")
    | some boardId => do
      let copies ← copyLists boardMap rows
      return copyList ids boardId row :: copies

/-- The copy of a card, which takes the next number. -/
def copyCard (statusMap : IdMap) (createdBy : Id) (number : Nat) (listId boardId : Id)
    (row : CardRow) : CardRow :=
  { row with
    id := ids.card row.id
    projectId := ids.project
    boardId := boardId
    listId := listId
    number := number + 1
    sprintId := none
    statusId := row.statusId.bind statusMap.get
    createdBy := createdBy }

/-- The copies of the cards; `number` cards have been copied before. -/
def copyCards (boardMap listMap statusMap : IdMap) (createdBy : Id) (number : Nat) :
    List CardRow → Except DuplicateError (List CardRow)
  | [] => .ok []
  | row :: rows =>
    match listMap.get row.listId, boardMap.get row.boardId with
    | some listId, some boardId => do
      let copy := copyCard ids statusMap createdBy number listId boardId row
      let copies ← copyCards boardMap listMap statusMap createdBy (number + 1) rows
      return copy :: copies
    | _, _ => .error (.conflict "A card outlived its list.")

def copyCardLabels (cardMap labelMap : IdMap) (rows : List CardLabelRow) : List CardLabelRow :=
  rows.filterMap fun row => do
    let cardId ← cardMap.get row.cardId
    let labelId ← labelMap.get row.labelId
    return { row with cardId := cardId, labelId := labelId, projectId := ids.project }

def copyValues (cardMap fieldMap : IdMap) (rows : List CustomFieldValueRow) :
    List CustomFieldValueRow :=
  rows.filterMap fun row => do
    let cardId ← cardMap.get row.cardId
    let fieldId ← fieldMap.get row.fieldId
    return { row with cardId := cardId, fieldId := fieldId, projectId := ids.project }

def copyChecklists (cardMap : IdMap) (rows : List ChecklistRow) : List ChecklistRow :=
  rows.filterMap fun row => do
    let cardId ← cardMap.get row.cardId
    return { row with id := ids.checklist row.id, cardId := cardId }

/-- The copy of an item, on the copied checklist.  Its card is still the source's. -/
def copyItem (checklistMap : IdMap) (row : ChecklistItemRow) : Option ChecklistItemRow := do
  let checklistId ← checklistMap.get row.checklistId
  return { row with id := ids.item row.id, checklistId := checklistId }

def copyItems (checklistMap : IdMap) (rows : List ChecklistItemRow) : List ChecklistItemRow :=
  rows.filterMap (copyItem ids checklistMap)

end

/-! ### The copies of the cards -/

theorem idMap_get {newId : Id → Id} {keys : List Id} {id : Id} :
    (idMap newId keys).get id = if id ∈ keys then some (newId id) else none := by
  induction keys with
  | nil => rfl
  | cons key keys ih =>
    by_cases hkey : id = key
    · subst hkey
      simp [idMap, IdMap.get]
    · rw [idMap, List.map_cons, IdMap.get, List.lookup_cons, beq_false_of_ne hkey]
      simp only [List.mem_cons, hkey, false_or]
      exact ih

theorem idMap_get_eq_some {newId : Id → Id} {keys : List Id} {id new : Id} :
    (idMap newId keys).get id = some new ↔ id ∈ keys ∧ newId id = new := by
  rw [idMap_get, Option.ite_none_right_eq_some, Option.some.injEq]

theorem mem_left_of_forall₂ {α β : Type} {R : α → β → Prop} {l : List α} {l' : List β}
    (h : List.Forall₂ R l l') {a : α} (ha : a ∈ l) : ∃ b ∈ l', R a b := by
  induction h with
  | nil => exact absurd ha List.not_mem_nil
  | cons hhead _ ih =>
    rcases List.mem_cons.mp ha with rfl | ha
    · exact ⟨_, List.mem_cons_self, hhead⟩
    · obtain ⟨b, hb, hR⟩ := ih ha
      exact ⟨b, List.mem_cons_of_mem _ hb, hR⟩

theorem mem_right_of_forall₂ {α β : Type} {R : α → β → Prop} {l : List α} {l' : List β}
    (h : List.Forall₂ R l l') {b : β} (hb : b ∈ l') : ∃ a ∈ l, R a b :=
  mem_left_of_forall₂ h.flip hb

section
variable {ids : NewIds} {boardMap listMap statusMap : IdMap} {createdBy : Id} {number : Nat}
  {row : CardRow} {rows copies : List CardRow} {lists listCopies : List ListRow}

/-- There is a copy of each list, on the copy of its board. -/
theorem copyLists_forall₂ (h : copyLists ids boardMap lists = .ok listCopies) :
    List.Forall₂ (fun row copy => ∃ boardId, boardMap.get row.boardId = some boardId ∧
      copy = copyList ids boardId row) lists listCopies := by
  induction lists generalizing listCopies with
  | nil =>
    obtain rfl := Except.ok.inj h
    exact .nil
  | cons row lists ih =>
    rw [copyLists] at h
    cases hboard : boardMap.get row.boardId with
    | none => rw [hboard] at h; exact absurd h (by simp)
    | some boardId =>
      rw [hboard] at h
      cases hrest : copyLists ids boardMap lists with
      | error => rw [hrest] at h; exact absurd h (by simp [bind, Except.bind])
      | ok rest =>
        rw [hrest] at h
        obtain rfl := Except.ok.inj h
        exact .cons ⟨boardId, hboard, rfl⟩ (ih hrest)

theorem copyCards_cons :
    copyCards ids boardMap listMap statusMap createdBy number (row :: rows) = .ok copies ↔
      ∃ listId boardId rest, listMap.get row.listId = some listId ∧
        boardMap.get row.boardId = some boardId ∧
        copyCards ids boardMap listMap statusMap createdBy (number + 1) rows = .ok rest ∧
        copies = copyCard ids statusMap createdBy number listId boardId row :: rest := by
  rw [copyCards]
  cases hlist : listMap.get row.listId with
  | none => simp
  | some listId =>
    cases hboard : boardMap.get row.boardId with
    | none => simp
    | some boardId =>
      cases copyCards ids boardMap listMap statusMap createdBy (number + 1) rows with
      | error => simp [bind, Except.bind]
      | ok rest => simp [bind, Except.bind, pure, Except.pure, eq_comm]

/-- There is a copy of each card, in the order of the cards. -/
theorem copyCards_forall₂
    (h : copyCards ids boardMap listMap statusMap createdBy number rows = .ok copies) :
    List.Forall₂ (fun row copy => ∃ number listId boardId,
      listMap.get row.listId = some listId ∧ boardMap.get row.boardId = some boardId ∧
      copy = copyCard ids statusMap createdBy number listId boardId row) rows copies := by
  induction rows generalizing number copies with
  | nil =>
    obtain rfl := Except.ok.inj h
    exact .nil
  | cons row rows ih =>
    obtain ⟨listId, boardId, rest, hlist, hboard, hrest, rfl⟩ := (copyCards_cons).mp h
    exact .cons ⟨number, listId, boardId, hlist, hboard, rfl⟩ (ih hrest)

/-- The copies are numbered one after another. -/
theorem copyCards_number
    (h : copyCards ids boardMap listMap statusMap createdBy number rows = .ok copies) {i : Nat}
    {copy : CardRow} (hi : copies[i]? = some copy) :
    copy.projectId = ids.project ∧ copy.number = number + i + 1 := by
  induction rows generalizing number copies i with
  | nil =>
    obtain rfl := Except.ok.inj h
    exact absurd hi (by simp)
  | cons row rows ih =>
    obtain ⟨listId, boardId, rest, -, -, hrest, rfl⟩ := (copyCards_cons).mp h
    cases i with
    | zero =>
      obtain rfl := Option.some.inj hi
      exact ⟨rfl, rfl⟩
    | succ i =>
      obtain ⟨hproject, hnumber⟩ := ih hrest hi
      exact ⟨hproject, by omega⟩

end

/-! ### The copies of what hangs on the cards -/

section
variable {ids : NewIds}

theorem mem_copyCardLabels {cardMap labelMap : IdMap} {rows : List CardLabelRow}
    {copy : CardLabelRow} : copy ∈ copyCardLabels ids cardMap labelMap rows ↔
      ∃ row ∈ rows, ∃ cardId labelId, cardMap.get row.cardId = some cardId ∧
        labelMap.get row.labelId = some labelId ∧
        copy = { row with cardId := cardId, labelId := labelId, projectId := ids.project } := by
  simp only [copyCardLabels, List.mem_filterMap, Option.bind_eq_bind, Option.bind_eq_some_iff,
    Option.pure_def, Option.some.injEq, eq_comm (b := copy)]
  grind

theorem mem_copyValues {cardMap fieldMap : IdMap} {rows : List CustomFieldValueRow}
    {copy : CustomFieldValueRow} : copy ∈ copyValues ids cardMap fieldMap rows ↔
      ∃ row ∈ rows, ∃ cardId fieldId, cardMap.get row.cardId = some cardId ∧
        fieldMap.get row.fieldId = some fieldId ∧
        copy = { row with cardId := cardId, fieldId := fieldId, projectId := ids.project } := by
  simp only [copyValues, List.mem_filterMap, Option.bind_eq_bind, Option.bind_eq_some_iff,
    Option.pure_def, Option.some.injEq, eq_comm (b := copy)]
  grind

theorem mem_copyChecklists {cardMap : IdMap} {rows : List ChecklistRow} {copy : ChecklistRow} :
    copy ∈ copyChecklists ids cardMap rows ↔ ∃ row ∈ rows, ∃ cardId,
      cardMap.get row.cardId = some cardId ∧
      copy = { row with id := ids.checklist row.id, cardId := cardId } := by
  simp only [copyChecklists, List.mem_filterMap, Option.bind_eq_bind, Option.bind_eq_some_iff,
    Option.pure_def, Option.some.injEq, eq_comm (b := copy)]

theorem mem_copyItems {checklistMap : IdMap} {rows : List ChecklistItemRow}
    {copy : ChecklistItemRow} : copy ∈ copyItems ids checklistMap rows ↔
      ∃ row ∈ rows, ∃ checklistId, checklistMap.get row.checklistId = some checklistId ∧
        copy = { row with id := ids.item row.id, checklistId := checklistId } := by
  simp only [copyItems, copyItem, List.mem_filterMap, Option.bind_eq_bind,
    Option.bind_eq_some_iff, Option.pure_def, Option.some.injEq, eq_comm (b := copy)]

end

end WorkTables
end TaskFlow
