import TaskFlow.CsvFormat

/-! # The table of an import

The dialog takes the first line of a file for its headers, guesses which header feeds which
field of a row, and makes a row of every other line.  The headers of an export are taken for
what they are (`detectMapping_EXPORT_COLUMNS`), so each cell feeds the field it was written
from (`rowsFromTable_export`).
-/
namespace TaskFlow
namespace ImportTable
open RichText (Text trim)
open ImportRows CsvFormat

/-! ### Columns -/

inductive ImportColumn where
  | title
  | description
  | status
  | assignees
  | labels
  | dueDate
  | priority
  | list
  | sprint
  deriving DecidableEq, Repr

def IMPORT_COLUMNS : List ImportColumn :=
  [.title, .description, .status, .assignees, .labels, .dueDate, .priority, .list, .sprint]

/-- Header spellings of each column. -/
def COLUMN_ALIASES : ImportColumn → List Text
  | .title => ["title".toList, "summary".toList, "name".toList, "card".toList, "task".toList,
      "issue".toList]
  | .description => ["description".toList, "details".toList, "body".toList, "notes".toList]
  | .status => ["status".toList, "state".toList]
  | .list => ["list".toList, "column".toList, "stage".toList, "bucket".toList]
  | .sprint => ["sprint".toList, "iteration".toList, "cycle".toList, "milestone".toList]
  | .assignees => ["assignees".toList, "assignee".toList, "owner".toList, "assignedto".toList,
      "responsible".toList]
  | .labels => ["labels".toList, "label".toList, "tags".toList, "tag".toList,
      "components".toList]
  | .priority => ["priority".toList, "importance".toList]
  | .dueDate => ["duedate".toList, "due".toList, "dueon".toList, "deadline".toList,
      "targetdate".toList]

structure Table where
  headers : List Text
  rows : List (List Text)
  deriving DecidableEq, Repr

/-- What `tableFromCsv` makes of the lines of a file, before it cuts a long one. -/
def tableOf (parsed : List (List Text)) : Table := ⟨parsed.headD [], parsed.tail⟩

/-! ### The mapping -/

abbrev Mapping := List (ImportColumn × Option Text)

section
variable (engine : Engine)

/-- Lower-cases, and strips all that is no letter or digit. -/
def normaliseHeader (header : Text) : Text :=
  (engine.toLowerCase (trim header)).filter fun c =>
    ('a' ≤ c ∧ c ≤ 'z') ∨ ('0' ≤ c ∧ c ≤ '9')

/-- The first header of the first spelling that any header has, of those not claimed yet. -/
def findHeader (normalised : List Text) (claimed : List Nat) : List Text → Option Nat
  | [] => none
  | name :: names =>
    match normalised.zipIdx.find? fun (header, position) =>
        header = name ∧ position ∉ claimed with
    | some (_, index) => some index
    | none => findHeader normalised claimed names

def mapColumns (headers normalised : List Text) (claimed : List Nat) :
    List ImportColumn → Mapping
  | [] => []
  | column :: columns =>
    match findHeader normalised claimed (COLUMN_ALIASES column) with
    | some index =>
      (column, headers[index]?) :: mapColumns headers normalised (index :: claimed) columns
    | none => (column, none) :: mapColumns headers normalised claimed columns

def detectMapping (headers : List Text) : Mapping :=
  mapColumns headers (headers.map (normaliseHeader engine)) [] IMPORT_COLUMNS

end

/-! ### Rows -/

/-- The place of a header; of two spelled alike, the last. -/
def indexOf (headers : List Text) (header : Text) : Option Nat :=
  headers.zipIdx.reverse.lookup header

/-- What a cell sends for a column: nothing, where it is blank. -/
def cellValue (column : ImportColumn) (cell : Text) : Option Wire :=
  let value := trim cell
  if value = [] then none
  else if column = .assignees ∨ column = .labels then
    let split := splitCell value
    if split.length > 0 then some (.list (split.map some)) else none
  else some (.text value)

/-- Sets a field, where there is something to set. -/
def setColumn (row : ImportRowInput) (value : Option Wire) : ImportColumn → ImportRowInput
  | .title => { row with title := value.or row.title }
  | .description => { row with description := value.or row.description }
  | .status => { row with status := value.or row.status }
  | .assignees => { row with assignees := value.or row.assignees }
  | .labels => { row with labels := value.or row.labels }
  | .dueDate => { row with dueDate := value.or row.dueDate }
  | .priority => { row with priority := value.or row.priority }
  | .list => { row with list := value.or row.list }
  | .sprint => { row with sprint := value.or row.sprint }

def fillColumn (headers : List Text) (mapping : Mapping) (cells : List Text)
    (row : ImportRowInput) (column : ImportColumn) : ImportRowInput :=
  match (mapping.lookup column).join.bind (indexOf headers) with
  | none => row
  | some index => setColumn row (cellValue column (cells[index]?.getD [])) column

def rowFromCells (headers : List Text) (mapping : Mapping) (cells : List Text) :
    ImportRowInput :=
  IMPORT_COLUMNS.foldl (fillColumn headers mapping cells) {}

/-- The rows that are sent; a line that is all blank contributes none. -/
def rowsFromTable (table : Table) (mapping : Mapping) : List ImportRowInput :=
  (table.rows.map (rowFromCells table.headers mapping)).filter (· ≠ {})

/-! ### The headers of an export -/

/-- `toLowerCase`, as far as ASCII goes. -/
def LowersAscii (engine : Engine) : Prop :=
  ∀ text : Text, (∀ c ∈ text, c.toNat < 128) → engine.toLowerCase text = text.map Char.toLower

theorem lowersAscii_ascii : LowersAscii Engine.ascii := fun _ _ => rfl

/-- The header an export has for a column. -/
def ImportColumn.header : ImportColumn → Text
  | .title => "title".toList
  | .description => "description".toList
  | .status => "status".toList
  | .assignees => "assignees".toList
  | .labels => "labels".toList
  | .dueDate => "dueDate".toList
  | .priority => "priority".toList
  | .list => "list".toList
  | .sprint => "sprint".toList

/-- The mapping that takes every header of an export for what it is. -/
def exportMapping : Mapping := IMPORT_COLUMNS.map fun column => (column, some column.header)

variable {engine : Engine}

theorem detectMapping_EXPORT_COLUMNS (ascii : LowersAscii engine) :
    detectMapping engine EXPORT_COLUMNS = exportMapping := by
  have hnormalised : EXPORT_COLUMNS.map (normaliseHeader engine) =
      EXPORT_COLUMNS.map (normaliseHeader Engine.ascii) := by
    refine List.map_congr_left fun header hheader => ?_
    have hall : EXPORT_COLUMNS.all (fun header => (trim header).all fun c => c.toNat < 128) =
        true := by decide
    have hascii : ∀ c ∈ trim header, c.toNat < 128 := by
      simpa using List.all_eq_true.mp (List.all_eq_true.mp hall header hheader)
    rw [normaliseHeader, normaliseHeader, ascii _ hascii]
    rfl
  rw [detectMapping, hnormalised]
  decide

/-- The row that the cells of an exported card make. -/
def rowOfExport (card : ExportCard) : ImportRowInput where
  title := cellValue .title (neutralize card.title)
  description := cellValue .description (neutralize card.description)
  status := cellValue .status (neutralize card.status)
  assignees := cellValue .assignees (neutralize card.assignees)
  labels := cellValue .labels (neutralize card.labels)
  dueDate := cellValue .dueDate (neutralize card.dueDate)
  priority := cellValue .priority (neutralize card.priority)
  sprint := cellValue .sprint (neutralize card.sprint)
  list := cellValue .list (neutralize card.list)

/-- Where the cell of a column stands in an export. -/
def ImportColumn.place : ImportColumn → Nat
  | .title => 1
  | .description => 2
  | .status => 3
  | .list => 4
  | .sprint => 5
  | .assignees => 6
  | .labels => 7
  | .priority => 8
  | .dueDate => 9

theorem fillColumn_export (cells : List Text) (row : ImportRowInput) (column : ImportColumn) :
    fillColumn EXPORT_COLUMNS exportMapping cells row column =
      setColumn row (cellValue column (cells[column.place]?.getD [])) column := by
  have hplace : (exportMapping.lookup column).join.bind (indexOf EXPORT_COLUMNS) =
      some column.place := by
    cases column <;> decide
  rw [fillColumn, hplace]

theorem rowFromCells_export (card : ExportCard) :
    rowFromCells EXPORT_COLUMNS exportMapping (card.cells.map neutralize) =
      rowOfExport card := by
  rw [rowFromCells, show fillColumn EXPORT_COLUMNS exportMapping (card.cells.map neutralize) = _
    from funext fun row => funext fun column => fillColumn_export _ row column]
  simp [IMPORT_COLUMNS, setColumn, ImportColumn.place, ExportCard.cells, rowOfExport]

/-- **An export comes back as one row a card**, of the card's own cells, but for the cards that
leave no row at all. -/
theorem rowsFromTable_export (ascii : LowersAscii engine) (cards : List ExportCard) :
    let table := tableOf (parseCsv (toCsv cards))
    rowsFromTable table (detectMapping engine table.headers) =
      (cards.map rowOfExport).filter (· ≠ {}) := by
  intro table
  have htable : table = ⟨EXPORT_COLUMNS, cards.map fun card => card.cells.map neutralize⟩ :=
    congrArg tableOf (parseCsv_toCsv cards)
  have hrows : (cards.map fun card => card.cells.map neutralize).map
      (rowFromCells EXPORT_COLUMNS exportMapping) = cards.map rowOfExport := by
    rw [List.map_map]
    simp only [Function.comp_def, rowFromCells_export]
  rw [htable, detectMapping_EXPORT_COLUMNS ascii, rowsFromTable, hrows]

end ImportTable
end TaskFlow
