import TaskFlow.Rank
import TaskFlow.Script
import TaskFlow.WorkTables

/-! # The services of a project, statement by statement

Creating and archiving a card, commenting on it, its checklists, and duplicating a project:
each is one transaction, and its statements are those of the source in their order.

A row is found by its key.  A key that has had a row is not given to another, so a slot
remembers the row that was deleted from it.
-/
namespace TaskFlow
namespace WorkScripts
open ReadCommitted ReadCommitted.Procedure WorkTables

/-! ### Slots -/

inductive Key where
  | project (id : Id)
  | status (id : Id)
  | label (id : Id)
  | field (id : Id)
  | board (id : Id)
  | list (id : Id)
  | card (id : Id)
  | cardLabel (cardId labelId : Id)
  | fieldValue (cardId fieldId : Id)
  | checklist (id : Id)
  | checklistItem (id : Id)
  | comment (id : Id)
  deriving DecidableEq, Repr

inductive Row where
  | project (row : ProjectRow)
  | status (row : StatusRow)
  | label (row : LabelRow)
  | field (row : CustomFieldDefRow)
  | board (row : BoardRow)
  | list (row : ListRow)
  | card (row : CardRow)
  | cardLabel (row : CardLabelRow)
  | fieldValue (row : CustomFieldValueRow)
  | checklist (row : ChecklistRow)
  | checklistItem (row : ChecklistItemRow)
  | comment (row : CommentRow)
  deriving DecidableEq, Repr

/-- The key of a row. -/
def Row.key : Row → Key
  | .project row => .project row.id
  | .status row => .status row.id
  | .label row => .label row.id
  | .field row => .field row.id
  | .board row => .board row.id
  | .list row => .list row.id
  | .card row => .card row.id
  | .cardLabel row => .cardLabel row.cardId row.labelId
  | .fieldValue row => .fieldValue row.cardId row.fieldId
  | .checklist row => .checklist row.id
  | .checklistItem row => .checklistItem row.id
  | .comment row => .comment row.id

/-- The rows a foreign key of the row points at. -/
def Row.references : Row → List Key
  | .project _ => []
  | .status row => [.project row.projectId]
  | .label row => [.project row.projectId]
  | .field row => [.project row.projectId]
  | .board row => [.project row.projectId]
  | .list row => [.project row.projectId, .board row.boardId]
  | .card row =>
    [.project row.projectId, .board row.boardId, .list row.listId] ++
      (row.statusId.map Key.status).toList
  | .cardLabel row => [.card row.cardId, .label row.labelId]
  | .fieldValue row => [.card row.cardId, .field row.fieldId]
  | .checklist row => [.card row.cardId]
  | .checklistItem row => [.card row.cardId, .checklist row.checklistId]
  | .comment row => [.card row.cardId] ++ (row.parentCommentId.map Key.comment).toList

/-- What is under a key. -/
inductive Slot where
  | empty
  | live (row : Row)
  | deleted (row : Row)
  deriving DecidableEq, Repr

/-- The row under a key, unless it is deleted. -/
def Slot.row? : Slot → Option Row
  | .live row => some row
  | _ => none

abbrev Rows := Key → Slot

def Row.project? : Row → Option ProjectRow
  | .project row => some row
  | _ => none

def Row.status? : Row → Option StatusRow
  | .status row => some row
  | _ => none

def Row.label? : Row → Option LabelRow
  | .label row => some row
  | _ => none

def Row.field? : Row → Option CustomFieldDefRow
  | .field row => some row
  | _ => none

def Row.board? : Row → Option BoardRow
  | .board row => some row
  | _ => none

def Row.list? : Row → Option ListRow
  | .list row => some row
  | _ => none

def Row.card? : Row → Option CardRow
  | .card row => some row
  | _ => none

def Row.cardLabel? : Row → Option CardLabelRow
  | .cardLabel row => some row
  | _ => none

def Row.fieldValue? : Row → Option CustomFieldValueRow
  | .fieldValue row => some row
  | _ => none

def Row.checklist? : Row → Option ChecklistRow
  | .checklist row => some row
  | _ => none

def Row.checklistItem? : Row → Option ChecklistItemRow
  | .checklistItem row => some row
  | _ => none

def Row.comment? : Row → Option CommentRow
  | .comment row => some row
  | _ => none

namespace Rows
variable (rows : Rows)

def project (id : Id) : Option ProjectRow := (rows (.project id)).row?.bind Row.project?

def list (id : Id) : Option ListRow := (rows (.list id)).row?.bind Row.list?

def card (id : Id) : Option CardRow := (rows (.card id)).row?.bind Row.card?

def checklist (id : Id) : Option ChecklistRow := (rows (.checklist id)).row?.bind Row.checklist?

def checklistItem (id : Id) : Option ChecklistItemRow :=
  (rows (.checklistItem id)).row?.bind Row.checklistItem?

def comment (id : Id) : Option CommentRow := (rows (.comment id)).row?.bind Row.comment?

/-- The tables a query reads, where rows have these ids. -/
def tables (ids : List Id) : Tables where
  projects := ids.filterMap rows.project
  statuses := ids.filterMap fun id => (rows (.status id)).row?.bind Row.status?
  labels := ids.filterMap fun id => (rows (.label id)).row?.bind Row.label?
  customFieldDefs := ids.filterMap fun id => (rows (.field id)).row?.bind Row.field?
  boards := ids.filterMap fun id => (rows (.board id)).row?.bind Row.board?
  lists := ids.filterMap rows.list
  cards := ids.filterMap rows.card
  cardLabels := ids.flatMap fun cardId => ids.filterMap fun labelId =>
    (rows (.cardLabel cardId labelId)).row?.bind Row.cardLabel?
  customFieldValues := ids.flatMap fun cardId => ids.filterMap fun fieldId =>
    (rows (.fieldValue cardId fieldId)).row?.bind Row.fieldValue?
  checklists := ids.filterMap rows.checklist
  checklistItems := ids.filterMap rows.checklistItem
  comments := ids.filterMap rows.comment

end Rows

/-! ### Statements -/

/-- What a transaction has done: the counts it has written on a card, with what it had
counted, or the cards it has copied with the checklist items it found. -/
inductive Note where
  | countedComments (cardId : Id) (comments : Nat)
  | countedItems (cardId : Id) (total done : Nat)
  | copied (cards : List CardRow) (items : List ChecklistItemRow)
  deriving DecidableEq, Repr

inductive Label where
  | read
  | write
  deriving DecidableEq, Repr

/-- A statement may be told the instant by its process's clock. -/
abbrev Procedure (α : Type) := ReadCommitted.Procedure Key Slot Label Int Note α

/-- The ids rows are given. -/
def Key.within (ids : List Id) : Key → Bool
  | .project id | .status id | .label id | .field id | .board id | .list id | .card id
  | .checklist id | .checklistItem id | .comment id => id ∈ ids
  | .cardLabel cardId otherId | .fieldValue cardId otherId => cardId ∈ ids ∧ otherId ∈ ids

/-- The slot is free, and the rows that the new one refers to are there. -/
def Row.insertable (rows : Rows) (row : Row) : Bool :=
  rows row.key = .empty ∧ row.references.all fun key => (rows key).row?.isSome

/-- INSERT.  It throws where the key is taken, a foreign key points nowhere, or another
unique index has the row. -/
def insertUnique (ids : List Id) (unique : Rows → Bool) (row : Row) : Procedure Unit := do
  require (row.key.within ids)
  let inserted ← statement .write
    (fun _ rows =>
      if row.insertable rows && unique rows then ([], [(row.key, .live row)]) else ([], []))
    (fun _ rows => row.insertable rows && unique rows)
  require inserted

def insert (ids : List Id) (row : Row) : Procedure Unit := insertUnique ids (fun _ => true) row

def insertAll (ids : List Id) : List Row → Procedure Unit
  | [] => pure ()
  | row :: rows => do
    insert ids row
    insertAll ids rows

/-- An UPDATE of one row by its id, and whether it was there. -/
def updateRow (key : Key) (f : Int → Row → Option Row) : Procedure (Option Row) := do
  let written ← update .write key fun now slot =>
    (slot.row?.bind (f now)).map Slot.live
  return written.bind Slot.row?

/-- A DELETE of the rows with these keys. -/
def deleteRows (keys : Rows → List Key) : Procedure Unit :=
  statement .write
    (fun _ rows => ([], (keys rows).filterMap fun key =>
      (rows key).row?.map fun row => (key, .deleted row)))
    (fun _ _ => ())

def updateCard (cardId : Id) (f : Int → CardRow → CardRow) : Procedure Unit := do
  let _ ← updateRow (.card cardId) fun now row => (row.card?.map (f now)).map Row.card
  return ()

/-! ### Services -/

def loadList (listId : Id) : Procedure ListRow := do
  let list ← select .read fun rows => (Rows.list rows listId).filter (·.deletedAt = none)
  ofOption list

def loadCard (cardId : Id) : Procedure CardRow := do
  let card ← select .read fun rows => (Rows.card rows cardId).filter (·.deletedAt = none)
  ofOption card

def loadChecklist (checklistId : Id) : Procedure ChecklistRow := do
  let checklist ← select .read fun rows => Rows.checklist rows checklistId
  ofOption checklist

def loadItem (itemId : Id) : Procedure ChecklistItemRow := do
  let item ← select .read fun rows => Rows.checklistItem rows itemId
  ofOption item

def loadComment (commentId : Id) : Procedure CommentRow := do
  let comment ← select .read fun rows => Rows.comment rows commentId
  ofOption comment

/-- The project with the next number taken. -/
def incremented (row : Row) : Option Row :=
  row.project?.map fun project =>
    .project { project with nextCardNumber := project.nextCardNumber + 1 }

structure NewCard where
  cardId : Id
  listId : Id
  title : String
  userId : Id
  allowed : Bool

/-- The number is the counter's value after the increment, less one. -/
def createCard (ids : List Id) (input : NewCard) : Procedure Unit :=
  transaction do
    let list ← loadList input.listId
    require input.allowed
    let counter ← updateRow (.project list.projectId) fun _ => incremented
    let counter ← ofOption (counter.bind Row.project?)
    let siblings ← select .read fun rows => (Rows.tables rows ids).siblings input.listId
    let defaultStatus ← select .read fun rows =>
      (((Rows.tables rows ids).statusesOf list.projectId).find? (·.isDefault)).map (·.id)
    let rank ← ofOption (Rank.between (siblings.getLast?.map (·.rank)) none).toOption
    insert ids (.card
      { id := input.cardId
        projectId := list.projectId
        boardId := list.boardId
        listId := input.listId
        number := counter.nextCardNumber - 1
        title := input.title
        rank := rank
        statusId := defaultStatus
        sprintId := none
        commentCount := 0
        checklistDone := 0
        checklistTotal := 0
        archivedAt := none
        deletedAt := none
        createdBy := input.userId })
    return ([], ())

def archiveCard (cardId : Id) (archived allowed : Bool) : Procedure Unit :=
  transaction do
    let card ← loadCard cardId
    require allowed
    let project ← select .read fun rows => Rows.project rows card.projectId
    require (project.isSome = true)
    updateCard cardId fun now card =>
      { card with archivedAt := if archived then some now else none }
    return ([], ())

/-- Recomputes a card's comment count, and says what it was. -/
def recountComments (ids : List Id) (cardId : Id) : Procedure Nat := do
  let comments ← select .read fun rows => ((Rows.tables rows ids).commentsOn cardId).length
  updateCard cardId fun _ card => { card with commentCount := comments }
  return comments

/-- Recomputes a card's checklist counters, and says what they were. -/
def recountChecklist (ids : List Id) (cardId : Id) : Procedure (Nat × Nat) := do
  let (total, done) ← select .read fun rows =>
    let items := (Rows.tables rows ids).itemsOn cardId
    (items.length, items.countP (·.done))
  updateCard cardId fun _ card => { card with checklistTotal := total, checklistDone := done }
  return (total, done)

structure NewComment where
  commentId : Id
  cardId : Id
  parentCommentId : Option Id
  bodyText : List Char
  userId : Id
  allowed : Bool

/-- A reply is to a comment of the same card that is no reply itself. -/
def checkParent (cardId : Id) : Option Id → Procedure Unit
  | none => pure ()
  | some parentCommentId => do
    let parent ← loadComment parentCommentId
    require (parent.cardId = cardId ∧ parent.deletedAt = none ∧ parent.parentCommentId = none)

def createComment (ids : List Id) (input : NewComment) : Procedure Unit :=
  transaction do
    let _ ← loadCard input.cardId
    require input.allowed
    checkParent input.cardId input.parentCommentId
    require (input.bodyText ≠ [])
    insert ids (.comment ⟨input.commentId, input.cardId, input.parentCommentId, input.userId,
      input.bodyText, none⟩)
    let comments ← recountComments ids input.cardId
    return ([.countedComments input.cardId comments], ())

/-- `allowed` says what the engine answers, given whether the author asks. -/
def deleteComment (ids : List Id) (commentId userId : Id) (allowed : Bool → Bool) :
    Procedure Unit :=
  transaction do
    let comment ← loadComment commentId
    let _ ← loadCard comment.cardId
    require (comment.deletedAt = none)
    require (allowed (comment.authorId = userId))
    let _ ← updateRow (.comment commentId) fun now row =>
      row.comment?.map fun comment => .comment { comment with deletedAt := some now }
    let comments ← recountComments ids comment.cardId
    return ([.countedComments comment.cardId comments], ())

def createChecklist (ids : List Id) (checklistId cardId : Id) (name : String) (allowed : Bool) :
    Procedure Unit :=
  transaction do
    let _ ← loadCard cardId
    require allowed
    let siblings ← select .read fun rows => (Rows.tables rows ids).checklistsInOrder cardId
    let rank ← ofOption (Rank.between (siblings.getLast?.map (·.rank)) none).toOption
    insert ids (.checklist ⟨checklistId, cardId, name, rank⟩)
    return ([], ())

/-- The items go with the checklist. -/
def deleteChecklist (ids : List Id) (checklistId : Id) (allowed : Bool) : Procedure Unit :=
  transaction do
    let checklist ← loadChecklist checklistId
    let _ ← loadCard checklist.cardId
    require allowed
    deleteRows fun rows => .checklist checklistId ::
      ((Rows.tables rows ids).itemsOf [checklistId]).map fun item => .checklistItem item.id
    let (total, done) ← recountChecklist ids checklist.cardId
    return ([.countedItems checklist.cardId total done], ())

def addItem (ids : List Id) (itemId checklistId : Id) (text : String) (allowed : Bool) :
    Procedure Unit :=
  transaction do
    let checklist ← loadChecklist checklistId
    let _ ← loadCard checklist.cardId
    require allowed
    let siblings ← select .read fun rows => (Rows.tables rows ids).itemsInOrder checklistId
    let rank ← ofOption (Rank.between (siblings.getLast?.map (·.rank)) none).toOption
    insert ids (.checklistItem
      ⟨itemId, checklist.cardId, checklistId, text, rank, false, none, none⟩)
    let (total, done) ← recountChecklist ids checklist.cardId
    return ([.countedItems checklist.cardId total done], ())

/-- The item with its new text and state; `item` is the row as it was loaded. -/
def ChecklistItemRow.edited (item row : ChecklistItemRow) (text : String) (done : Bool)
    (userId : Id) (now : Int) : ChecklistItemRow :=
  { row with
    text := text
    done := done
    doneAt := if done then some (item.doneAt.getD now) else none
    doneBy := if done then some (item.doneBy.getD userId) else none }

def updateItem (ids : List Id) (itemId : Id) (text : String) (done : Bool) (userId : Id)
    (allowed : Bool) : Procedure Unit :=
  transaction do
    let item ← loadItem itemId
    let _ ← loadCard item.cardId
    require allowed
    let _ ← updateRow (.checklistItem itemId) fun now row =>
      row.checklistItem?.map fun row =>
        .checklistItem (ChecklistItemRow.edited item row text done userId now)
    let (total, done) ← recountChecklist ids item.cardId
    return ([.countedItems item.cardId total done], ())

def deleteItem (ids : List Id) (itemId : Id) (allowed : Bool) : Procedure Unit :=
  transaction do
    let item ← loadItem itemId
    let _ ← loadCard item.cardId
    require allowed
    deleteRows fun _ => [.checklistItem itemId]
    let (total, done) ← recountChecklist ids item.cardId
    return ([.countedItems item.cardId total done], ())

/-! ### Duplicating a project -/

structure Duplicate where
  sourceProjectId : Id
  name : String
  key : String
  includeCards : Bool
  userId : Id
  mayRead : Bool

/-- The maps from the source's rows to the copy's. -/
structure Maps where
  board : IdMap
  list : IdMap
  status : IdMap
  label : IdMap
  field : IdMap

def selectRows {α : Type} (ids : List Id) (query : Tables → α) : Procedure α :=
  select .read fun rows => query (Rows.tables rows ids)

/-- The copy's project, vocabulary, boards and lists. -/
def copyShape (ids : List Id) (newIds : NewIds) (input : Duplicate) : Procedure Maps := do
  let source ← selectRows ids fun db => db.project input.sourceProjectId
  let source ← ofOption source
  require input.mayRead
  let description ← selectRows ids fun db =>
    (db.projects.find? fun row => row.id = source.id).bind (·.description)
  insertUnique ids
    (fun rows => (Rows.tables rows ids).projects.all fun row => row.key ≠ input.key)
    (.project ⟨newIds.project, input.name, input.key, description, 1, none, input.userId⟩)
  let statuses ← selectRows ids fun db => db.statusesOf input.sourceProjectId
  insertAll ids ((copyStatuses newIds statuses).map .status)
  let labels ← selectRows ids fun db => db.labelsOf input.sourceProjectId
  insertAll ids ((copyLabels newIds labels).map .label)
  let fields ← selectRows ids fun db => db.fieldsOf input.sourceProjectId
  insertAll ids ((copyFields newIds fields).map .field)
  let boards ← selectRows ids fun db => db.boardsOf input.sourceProjectId
  insertAll ids ((copyBoards newIds boards).map .board)
  let boardMap := idMap newIds.board (boards.map (·.id))
  let lists ← selectRows ids fun db => db.listsOf input.sourceProjectId
  let listCopies ← ofOption (copyLists newIds boardMap lists).toOption
  insertAll ids (listCopies.map .list)
  return ⟨boardMap, idMap newIds.list (lists.map (·.id)),
    idMap newIds.status (statuses.map (·.id)), idMap newIds.label (labels.map (·.id)),
    idMap newIds.field (fields.map (·.id))⟩

/-- The items of the copied checklists; it returns those it has found. -/
def copyItemsOf (ids : List Id) (newIds : NewIds) (checklistIds : List Id) :
    Procedure (List ChecklistItemRow) :=
  if checklistIds = [] then pure []
  else do
    let items ← selectRows ids fun db => db.itemsOf checklistIds
    insertAll ids
      ((copyItems newIds (idMap newIds.checklist checklistIds) items).map .checklistItem)
    return items

/-- What hangs on the copied cards. -/
def copyDetails (ids : List Id) (newIds : NewIds) (maps : Maps) (cardIds : List Id) :
    Procedure (List ChecklistItemRow) := if cardIds = [] then pure [] else do
  let cardMap := idMap newIds.card cardIds
  let cardLabels ← selectRows ids fun db => db.labelsOn cardIds
  insertAll ids ((copyCardLabels newIds cardMap maps.label cardLabels).map .cardLabel)
  let values ← selectRows ids fun db => db.valuesOn cardIds
  insertAll ids ((copyValues newIds cardMap maps.field values).map .fieldValue)
  let checklists ← selectRows ids fun db => db.checklistsOn cardIds
  insertAll ids ((copyChecklists newIds cardMap checklists).map .checklist)
  copyItemsOf ids newIds (checklists.map (·.id))

/-- The copy's cards, and the counter that continues their numbers. -/
def copyWork (ids : List Id) (newIds : NewIds) (maps : Maps) (input : Duplicate) :
    Procedure Note := do
  let cards ← selectRows ids fun db => db.orderedCards input.sourceProjectId
  let cardCopies ← ofOption
    (copyCards newIds maps.board maps.list maps.status input.userId 0 cards).toOption
  insertAll ids (cardCopies.map .card)
  let _ ← updateRow (.project newIds.project) fun _ row =>
    row.project?.map fun project => .project { project with nextCardNumber := cards.length + 1 }
  let items ← copyDetails ids newIds maps (cards.map (·.id))
  return .copied cards items

/-- The cards are copied when they are asked for. -/
def copyCardsIf (ids : List Id) (newIds : NewIds) (maps : Maps) (input : Duplicate) :
    Procedure Note :=
  if input.includeCards then copyWork ids newIds maps input else pure (.copied [] [])

def duplicateProject (ids : List Id) (newIds : NewIds) (input : Duplicate) : Procedure Unit :=
  transaction do
    let maps ← copyShape ids newIds input
    let note ← copyCardsIf ids newIds maps input
    return ([note], ())

/-! ### Calls -/

inductive Call where
  | createCard (input : NewCard)
  | archiveCard (cardId : Id) (archived allowed : Bool)
  | createComment (input : NewComment)
  | deleteComment (commentId userId : Id) (allowed : Bool → Bool)
  | createChecklist (checklistId cardId : Id) (name : String) (allowed : Bool)
  | deleteChecklist (checklistId : Id) (allowed : Bool)
  | addItem (itemId checklistId : Id) (text : String) (allowed : Bool)
  | updateItem (itemId : Id) (text : String) (done : Bool) (userId : Id) (allowed : Bool)
  | deleteItem (itemId : Id) (allowed : Bool)
  | duplicateProject (newIds : NewIds) (input : Duplicate)

def procedure (ids : List Id) : Call → Procedure Unit
  | .createCard input => createCard ids input
  | .archiveCard cardId archived allowed => archiveCard cardId archived allowed
  | .createComment input => createComment ids input
  | .deleteComment commentId userId allowed => deleteComment ids commentId userId allowed
  | .createChecklist checklistId cardId name allowed =>
    createChecklist ids checklistId cardId name allowed
  | .deleteChecklist checklistId allowed => deleteChecklist ids checklistId allowed
  | .addItem itemId checklistId text allowed => addItem ids itemId checklistId text allowed
  | .updateItem itemId text done userId allowed =>
    updateItem ids itemId text done userId allowed
  | .deleteItem itemId allowed => deleteItem ids itemId allowed
  | .duplicateProject newIds input => duplicateProject ids newIds input

def calls (ids : List Id) (call : Call) : Script Key Slot Label Int Note :=
  (procedure ids call).script

/-! ### Runs on small inputs -/

/-- The ids of a copy, made of those of the source `p`. -/
def primed : NewIds where
  project := "p'"
  status := (· ++ "'")
  label := (· ++ "'")
  field := (· ++ "'")
  board := (· ++ "'")
  list := (· ++ "'")
  card := (· ++ "'")
  checklist := (· ++ "'")
  item := (· ++ "'")

/-- The next statements of a session. -/
def statements {C : Type} (session : Bool) (n : Nat) : List (Bool × Script.Input C Int) :=
  List.replicate n (session, .next 0)

end WorkScripts
end TaskFlow
