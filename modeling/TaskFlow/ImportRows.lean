import TaskFlow.IsoDate
import TaskFlow.RichText

/-! # The rows of an import

What `validateRow` makes of a row as it arrives over the wire: every field may be anything, and
is either refused with a message or resolved against the project's vocabulary.
-/
namespace TaskFlow
namespace ImportRows
open RichText (Text trim)
open TaskFlow.Filter (Date isoTime)

abbrev Id := String

/-! ### The engine -/

/-- What the engine answers beyond ASCII and the ISO formats. -/
structure Engine where
  toLowerCase : Text → Text
  /-- `Date.parse` of a text that is neither a day nor an instant as `toISOString` writes it. -/
  parseOtherDate : Text → Date

/-- The engine, as far as ASCII goes. -/
def Engine.ascii : Engine where
  toLowerCase := List.map Char.toLower
  parseOtherDate := fun _ => none

/-- `new Date(text)`. -/
def Engine.newDate (engine : Engine) (text : Text) : Date :=
  match isoTime text, isoTime (text ++ "T00:00:00.000Z".toList) with
  | some time, _ => some time
  | none, some time => some time
  | none, none => engine.parseOtherDate text

/-- The length of a text in UTF-16 code units. -/
def utf16Length (text : Text) : Nat := (text.map fun c => if c.toNat < 0x10000 then 1 else 2).sum

/-- `split` on one of the marks: what is before the first, and the rest, split. -/
@[grind =] def splitAt (isMark : Char → Bool) : Text → List Text
  | [] => [[]]
  | c :: rest =>
    if isMark c then [] :: splitAt isMark rest
    else
      match splitAt isMark rest with
      | [] => [[c]]
      | entry :: entries => (c :: entry) :: entries

/-! ### Cells -/

/-- `FORMULA_LEAD`: a spreadsheet reads what begins so as a formula. -/
def formulaLead : Text → Bool
  | c :: _ => c = '=' ∨ c = '+' ∨ c = '-' ∨ c = '@'
  | [] => false

/-- Strips the apostrophe that the export puts before a formula. -/
@[grind =] def unneutralize : Text → Text
  | '\'' :: rest => if formulaLead rest then rest else '\'' :: rest
  | value => value

/-- The entries of a cell with several. -/
def splitCell (value : Text) : List Text :=
  ((splitAt (fun c => c = ';' ∨ c = ',') value).map trim).filter (· ≠ [])

/-! ### Vocabulary -/

structure Entry where
  id : Id
  name : Text
  deriving DecidableEq, Repr

/-- A `Map` of texts; what is set later comes first. -/
abbrev TextMap := List (Text × Id)

def TextMap.get (map : TextMap) (name : Text) : Option Id := List.lookup name map

def TextMap.set (map : TextMap) (name : Text) (id : Id) : TextMap := (name, id) :: map

/-- A lookup of names: exact first, and else regardless of case. -/
structure NameLookup where
  byExact : TextMap
  byLower : TextMap

/-- The loop of the constructor: the exact names, the first id of each folded name, and the
folded names of more than one. -/
structure Scan where
  byExact : TextMap
  seen : TextMap
  ambiguous : List Text

variable (engine : Engine)

def Scan.add (scan : Scan) (entry : Entry) : Scan :=
  let lower := engine.toLowerCase entry.name
  let byExact := TextMap.set scan.byExact entry.name entry.id
  match TextMap.get scan.seen lower with
  | some prior =>
    if prior ≠ entry.id then { scan with byExact, ambiguous := lower :: scan.ambiguous }
    else { scan with byExact, seen := TextMap.set scan.seen lower entry.id }
  | none => { scan with byExact, seen := TextMap.set scan.seen lower entry.id }

def NameLookup.ofEntries (entries : List Entry) : NameLookup :=
  let scan := entries.foldl (Scan.add engine) ⟨[], [], []⟩
  ⟨scan.byExact, scan.seen.filter fun (lower, _) => lower ∉ scan.ambiguous⟩

def NameLookup.resolve (lookup : NameLookup) (name : Text) : Option Id :=
  (lookup.byExact.get name).or (lookup.byLower.get (engine.toLowerCase name))

/-- Records a name that the import has created. -/
def NameLookup.add (lookup : NameLookup) (name : Text) (id : Id) : NameLookup where
  byExact := TextMap.set lookup.byExact name id
  byLower := TextMap.set lookup.byLower (engine.toLowerCase name) id

structure ResolvedVocabulary where
  listId : Id
  projectId : Id
  statuses : NameLookup
  labels : NameLookup
  lists : NameLookup
  listNames : List (Id × Text)
  sprints : NameLookup
  closedSprintNames : List Text
  members : TextMap

/-! ### Rows -/

/-- A value of JSON, as far as an import tells values apart.  An entry of a list that is no
text is `none`. -/
inductive Wire where
  | text (value : Text)
  | list (entries : List (Option Text))
  | other
  deriving DecidableEq, Repr

/-- A row, with the fields it has. -/
structure ImportRowInput where
  title : Option Wire := none
  description : Option Wire := none
  status : Option Wire := none
  assignees : Option Wire := none
  labels : Option Wire := none
  dueDate : Option Wire := none
  priority : Option Wire := none
  sprint : Option Wire := none
  list : Option Wire := none
  reference : Option Wire := none
  deriving DecidableEq, Repr

inductive Priority where
  | urgent
  | high
  | normal
  | low
  deriving DecidableEq, Repr

def Priority.text : Priority → Text
  | .urgent => "urgent".toList
  | .high => "high".toList
  | .normal => "normal".toList
  | .low => "low".toList

def Priority.ofText (text : Text) : Option Priority :=
  [Priority.urgent, .high, .normal, .low].find? fun priority => priority.text = text

structure ImportRow where
  title : Text
  description : Option Text
  statusId : Option Id
  assigneeIds : List Id
  labelIds : List Id
  dueDate : Option ℤ
  priority : Option Priority
  listId : Id
  sprintId : Option Id
  deriving DecidableEq, Repr

def MAX_IMPORT_DESCRIPTION : Nat := 10000

def MAX_IMPORT_LIST : Nat := 50

/-- The entries of a list field, or none where it is no list of texts. -/
@[grind =] def splitList : Option Wire → Option (List Text)
  | none => some []
  | some (.text value) => some (splitCell value)
  | some (.list entries) =>
    if entries.any (·.isNone) then none
    else some ((entries.filterMap id).map trim |>.filter (· ≠ []))
  | some .other => none

/-- A message with a quoted text in it. -/
def quoting (before : String) (value : Text) (after : String) : Text :=
  before.toList ++ '"' :: value ++ '"' :: after.toList

abbrev Checked (α : Type) := Except Text α

def checkTitle : Option Wire → Checked Text
  | none => .error "\"title\" is required.".toList
  | some (.text value) => do
    let title := unneutralize (trim value)
    if title.length = 0 then throw "\"title\" is required.".toList
    if 500 < utf16Length title then
      throw "\"title\" must be 500 characters or fewer.".toList
    return title
  | some _ => .error "\"title\" must be text.".toList

def checkDescription : Option Wire → Checked (Option Text)
  | none => .ok none
  | some (.text value) => do
    let trimmed := unneutralize (trim value)
    if MAX_IMPORT_DESCRIPTION < utf16Length trimmed then
      throw "\"description\" must be 10000 characters or fewer.".toList
    return if trimmed.length = 0 then none else some trimmed
  | some _ => .error "\"description\" must be text.".toList

def checkStatus (vocab : ResolvedVocabulary) : Option Wire → Checked (Option Id)
  | none => .ok none
  | some (.text []) => .ok none
  | some (.text value) =>
    match vocab.statuses.resolve engine (unneutralize value) with
    | none => .error (quoting "Unknown status " value ".")
    | some statusId => .ok (some statusId)
  | some _ => .error "\"status\" must be text.".toList

def checkAssignees (vocab : ResolvedVocabulary) (assignees : Option Wire) : Checked (List Id) :=
  match splitList assignees with
  | none => .error "\"assignees\" must be text or a list of emails.".toList
  | some emails =>
    match emails.find? fun email => (vocab.members.get (engine.toLowerCase email)).isNone with
    | some email => .error (quoting "Unknown assignee " email ".")
    | none => .ok (emails.filterMap fun email => vocab.members.get (engine.toLowerCase email))

/-- The labels of a row; with `tolerateMissingLabels`, unknown ones are passed over. -/
def resolveLabels (vocab : ResolvedVocabulary) (tolerateMissingLabels : Bool) :
    List Text → Checked (List Id)
  | [] => .ok []
  | name :: names =>
    match vocab.labels.resolve engine (unneutralize name) with
    | some labelId => do
      let labelIds ← resolveLabels vocab tolerateMissingLabels names
      return labelId :: labelIds
    | none =>
      if tolerateMissingLabels then resolveLabels vocab tolerateMissingLabels names
      else .error (quoting "Unknown label " name ".")

def checkLabels (vocab : ResolvedVocabulary) (tolerateMissingLabels : Bool)
    (labels : Option Wire) : Checked (List Id) :=
  match splitList labels with
  | none => .error "\"labels\" must be text or a list of names.".toList
  | some names =>
    if MAX_IMPORT_LIST < names.length then
      .error "A card can carry at most 50 labels.".toList
    else resolveLabels engine vocab tolerateMissingLabels names

/-- `/^\d{4}-\d{2}-\d{2}/`. -/
def isDateShaped (text : Text) : Bool :=
  10 ≤ text.length ∧ (text.take 4).all (·.isDigit) ∧ (text.drop 4).head? = some '-' ∧
    ((text.drop 5).take 2).all (·.isDigit) ∧ (text.drop 7).head? = some '-' ∧
    ((text.drop 8).take 2).all (·.isDigit)

def checkDueDate : Option Wire → Checked (Option ℤ)
  | none => .ok none
  | some (.text []) => .ok none
  | some (.text value) =>
    if isDateShaped value then
      match engine.newDate value with
      | none => .error (quoting "Invalid dueDate " value ".")
      | some time => .ok (some time)
    else .error (quoting "Invalid dueDate " value ".")
  | some _ => .error "\"dueDate\" must be a date.".toList

def checkPriority : Option Wire → Checked (Option Priority)
  | none => .ok none
  | some (.text []) => .ok none
  | some (.text value) =>
    match Priority.ofText (engine.toLowerCase (unneutralize value)) with
    | none => .error (quoting "Unknown priority " value ". Use urgent, high, normal or low.")
    | some priority => .ok (some priority)
  | some _ => .error "\"priority\" must be text.".toList

/-- The list of the row's own, or the import's. -/
def resolveList (vocab : ResolvedVocabulary) : Option Wire → Id
  | some (.text value) =>
    if trim value ≠ [] then
      (vocab.lists.resolve engine (unneutralize value)).getD vocab.listId
    else vocab.listId
  | _ => vocab.listId

def checkSprint (vocab : ResolvedVocabulary) : Option Wire → Checked (Option Id)
  | some (.text value) =>
    if trim value ≠ [] then
      let name := unneutralize (trim value)
      match vocab.sprints.resolve engine name with
      | some sprintId => .ok (some sprintId)
      | none =>
        if engine.toLowerCase name ∈ vocab.closedSprintNames then
          .error (quoting "Sprint " name " is closed and cannot take new cards.")
        else .ok none
    else .ok none
  | _ => .ok none

def validateRow (input : ImportRowInput) (vocab : ResolvedVocabulary)
    (tolerateMissingLabels : Bool) : Checked ImportRow := do
  let title ← checkTitle input.title
  let description ← checkDescription input.description
  let statusId ← checkStatus engine vocab input.status
  let assigneeIds ← checkAssignees engine vocab input.assignees
  let labelIds ← checkLabels engine vocab tolerateMissingLabels input.labels
  let dueDate ← checkDueDate engine input.dueDate
  let priority ← checkPriority engine input.priority
  let listId := resolveList engine vocab input.list
  let sprintId ← checkSprint engine vocab input.sprint
  return ⟨title, description, statusId, assigneeIds, labelIds, dueDate, priority, listId, sprintId⟩

end ImportRows
end TaskFlow
