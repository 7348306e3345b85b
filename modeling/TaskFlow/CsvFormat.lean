import TaskFlow.ImportRows

/-! # The CSV of an export

The server writes a table of cells as lines, quoting the cells that need it, and the client
reads the lines back.  What the writer writes, the reader reads cell for cell, whatever the
cells hold (`parseCsv_writeLines`); only the apostrophe before a formula stays in its cell.
-/
namespace TaskFlow
namespace CsvFormat
open RichText (Text)
open ImportRows

/-! ### Writing -/

/-- Guards what a spreadsheet would read as a formula. -/
def neutralize (value : Text) : Text := if formulaLead value then '\'' :: value else value

/-- `/[",\r\n]/`. -/
def needsQuotes (value : Text) : Bool :=
  value.any fun c => c = '"' ∨ c = ',' ∨ c = '\r' ∨ c = '\n'

/-- Every quote twice. -/
def doubleQuotes : Text → Text
  | [] => []
  | c :: rest => if c = '"' then '"' :: '"' :: doubleQuotes rest else c :: doubleQuotes rest

def csvCell (value : Text) : Text :=
  let neutralized := neutralize value
  if needsQuotes neutralized then '"' :: (doubleQuotes neutralized ++ ['"']) else neutralized

def writeLine (cells : List Text) : Text := List.intercalate [','] (cells.map csvCell)

/-- One exported card, as a flat, readable row. -/
structure ExportCard where
  reference : Text
  title : Text
  description : Text
  status : Text
  list : Text
  sprint : Text
  assignees : Text
  labels : Text
  priority : Text
  dueDate : Text
  deriving DecidableEq, Repr

/-- `EXPORT_COLUMNS.map((column) => row[column])`. -/
def ExportCard.cells (row : ExportCard) : List Text :=
  [row.reference, row.title, row.description, row.status, row.list, row.sprint, row.assignees,
    row.labels, row.priority, row.dueDate]

def EXPORT_COLUMNS : List Text :=
  ["reference".toList, "title".toList, "description".toList, "status".toList, "list".toList,
    "sprint".toList, "assignees".toList, "labels".toList, "priority".toList, "dueDate".toList]

/-- Lines, each with its ending. -/
def joinLines (lines : List Text) : Text :=
  List.intercalate ['\r', '\n'] lines ++ ['\r', '\n']

def toCsv (rows : List ExportCard) : Text :=
  joinLines (List.intercalate [','] EXPORT_COLUMNS :: rows.map fun row => writeLine row.cells)

/-! ### Reading -/

structure Reader where
  rows : List (List Text)
  row : List Text
  field : Text
  inQuotes : Bool
  deriving DecidableEq, Repr

def Reader.put (reader : Reader) (c : Char) : Reader :=
  { reader with field := reader.field ++ [c] }

def Reader.endField (reader : Reader) : Reader :=
  { reader with row := reader.row ++ [reader.field], field := [] }

def Reader.endRow (reader : Reader) : Reader :=
  { reader with rows := reader.rows ++ [reader.row ++ [reader.field]], row := [], field := [] }

def parseLoop (reader : Reader) : Text → Reader
  | [] => reader
  | ch :: rest =>
    if reader.inQuotes then
      if ch = '"' then
        match rest with
        | [] => { reader with inQuotes := false }
        | next :: after =>
          if next = '"' then parseLoop (reader.put '"') after
          else parseLoop { reader with inQuotes := false } (next :: after)
      else parseLoop (reader.put ch) rest
    else if ch = '"' ∧ reader.field = [] then parseLoop { reader with inQuotes := true } rest
    else if ch = ',' then parseLoop reader.endField rest
    else if ch = '\n' then parseLoop reader.endRow rest
    else if ch = '\r' then parseLoop reader rest
    else parseLoop (reader.put ch) rest

def parseCsv (text : Text) : List (List Text) :=
  let reader := parseLoop ⟨[], [], [], false⟩ text
  -- the last row, unless the text ended with a newline
  if reader.field ≠ [] ∨ reader.row ≠ [] then
    reader.rows ++ [reader.row ++ [reader.field]]
  else reader.rows

/-! ### What is written is read -/

theorem parseLoop_outside (rows : List (List Text)) (row : List Text) (field : Text) (ch : Char)
    (rest : Text) :
    parseLoop ⟨rows, row, field, false⟩ (ch :: rest) =
      if ch = '"' ∧ field = [] then parseLoop ⟨rows, row, field, true⟩ rest
      else if ch = ',' then parseLoop ⟨rows, row ++ [field], [], false⟩ rest
      else if ch = '\n' then parseLoop ⟨rows ++ [row ++ [field]], [], [], false⟩ rest
      else if ch = '\r' then parseLoop ⟨rows, row, field, false⟩ rest
      else parseLoop ⟨rows, row, field ++ [ch], false⟩ rest := by
  cases rest <;> rfl

theorem parseLoop_inside (rows : List (List Text)) (row : List Text) (field : Text) {ch : Char}
    (hquote : ch ≠ '"') (rest : Text) :
    parseLoop ⟨rows, row, field, true⟩ (ch :: rest) =
      parseLoop ⟨rows, row, field ++ [ch], true⟩ rest := by
  cases rest <;> simp [parseLoop, hquote, Reader.put]

variable {rows : List (List Text)} {row : List Text}

/-- Inside quotes, up to the closing one. -/
theorem parseLoop_quoted (value field rest : Text) {c : Char} (hc : c ≠ '"') :
    parseLoop ⟨rows, row, field, true⟩ (doubleQuotes value ++ '"' :: c :: rest) =
      parseLoop ⟨rows, row, field ++ value, false⟩ (c :: rest) := by
  induction value generalizing field with
  | nil => simp [doubleQuotes, parseLoop, hc]
  | cons ch value ih =>
    by_cases hquote : ch = '"'
    · subst hquote
      have hstep : parseLoop ⟨rows, row, field, true⟩
          (doubleQuotes ('"' :: value) ++ '"' :: c :: rest) =
          parseLoop ⟨rows, row, field ++ ['"'], true⟩
            (doubleQuotes value ++ '"' :: c :: rest) := by
        simp [doubleQuotes, parseLoop, Reader.put]
      rw [hstep, ih, List.append_assoc, List.singleton_append]
    · have hstep : parseLoop ⟨rows, row, field, true⟩
          (doubleQuotes (ch :: value) ++ '"' :: c :: rest) =
          parseLoop ⟨rows, row, field ++ [ch], true⟩
            (doubleQuotes value ++ '"' :: c :: rest) := by
        rw [doubleQuotes, if_neg hquote, List.cons_append, parseLoop_inside _ _ _ hquote]
      rw [hstep, ih, List.append_assoc, List.singleton_append]

/-- Outside quotes, what needs none. -/
theorem parseLoop_plain {value : Text} (hplain : needsQuotes value = false) (field rest : Text) :
    parseLoop ⟨rows, row, field, false⟩ (value ++ rest) =
      parseLoop ⟨rows, row, field ++ value, false⟩ rest := by
  induction value generalizing field with
  | nil => rw [List.nil_append, List.append_nil]
  | cons ch value ih =>
    simp only [needsQuotes, List.any_cons, Bool.or_eq_false_iff, decide_eq_false_iff_not,
      not_or] at hplain
    obtain ⟨⟨hquote, hcomma, hreturn, hnewline⟩, hrest⟩ := hplain
    have hstep : parseLoop ⟨rows, row, field, false⟩ (ch :: (value ++ rest)) =
        parseLoop ⟨rows, row, field ++ [ch], false⟩ (value ++ rest) := by
      simp [parseLoop_outside, hquote, hcomma, hreturn, hnewline]
    rw [List.cons_append, hstep, ih hrest, List.append_assoc, List.singleton_append]

theorem parseLoop_csvCell (value rest : Text) {c : Char} (hc : c ≠ '"') :
    parseLoop ⟨rows, row, [], false⟩ (csvCell value ++ c :: rest) =
      parseLoop ⟨rows, row, neutralize value, false⟩ (c :: rest) := by
  by_cases hquotes : needsQuotes (neutralize value)
  · have hopen : parseLoop ⟨rows, row, [], false⟩ (csvCell value ++ c :: rest) =
        parseLoop ⟨rows, row, [], true⟩ (doubleQuotes (neutralize value) ++ '"' :: c :: rest) := by
      simp [csvCell, hquotes, parseLoop_outside]
    rw [hopen, parseLoop_quoted _ _ _ hc, List.nil_append]
  · rw [csvCell, if_neg hquotes, parseLoop_plain (by simpa using hquotes), List.nil_append]

/-- A line adds its cells as a row. -/
theorem parseLoop_writeLine {cells : List Text} (hcells : cells ≠ []) (rest : Text) :
    parseLoop ⟨rows, row, [], false⟩ (writeLine cells ++ '\r' :: '\n' :: rest) =
      parseLoop ⟨rows ++ [row ++ cells.map neutralize], [], [], false⟩ rest := by
  induction cells generalizing row with
  | nil => exact absurd rfl hcells
  | cons cell cells ih =>
    cases cells with
    | nil =>
      have hline : writeLine [cell] = csvCell cell := by simp [writeLine]
      rw [hline, parseLoop_csvCell _ _ (by decide)]
      simp [parseLoop_outside]
    | cons cell' cells =>
      have hline : writeLine (cell :: cell' :: cells) =
          csvCell cell ++ ',' :: writeLine (cell' :: cells) := by
        simp [writeLine, List.intercalate_cons_cons]
      have hcomma : ∀ text, parseLoop ⟨rows, row, neutralize cell, false⟩ (',' :: text) =
          parseLoop ⟨rows, row ++ [neutralize cell], [], false⟩ text := by
        simp [parseLoop_outside]
      rw [hline, List.append_assoc, List.cons_append, parseLoop_csvCell _ _ (by decide), hcomma,
        ih (List.cons_ne_nil _ _), List.append_assoc]
      rfl

theorem joinLines_cons (line : Text) {lines : List Text} (h : lines ≠ []) :
    joinLines (line :: lines) = line ++ '\r' :: '\n' :: joinLines lines := by
  obtain ⟨line', lines, rfl⟩ := List.exists_cons_of_ne_nil h
  simp [joinLines, List.intercalate_cons_cons]

/-- A table, line by line. -/
theorem parseLoop_joinLines {table : List (List Text)} (hne : table ≠ [])
    (hcells : ∀ cells ∈ table, cells ≠ []) :
    parseLoop ⟨rows, [], [], false⟩ (joinLines (table.map writeLine)) =
      ⟨rows ++ table.map (List.map neutralize), [], [], false⟩ := by
  induction table generalizing rows with
  | nil => exact absurd rfl hne
  | cons cells table ih =>
    obtain ⟨hhead, htail⟩ := List.forall_mem_cons.mp hcells
    by_cases hlast : table = []
    · subst hlast
      have hline : joinLines (List.map writeLine [cells]) =
          writeLine cells ++ '\r' :: '\n' :: [] := by simp [joinLines]
      rw [hline, parseLoop_writeLine hhead]
      rfl
    · rw [List.map_cons, joinLines_cons _ (by simpa using hlast), parseLoop_writeLine hhead,
        ih hlast htail, List.append_assoc]
      rfl

/-- **Every cell is read as it was written**, but for the apostrophe before a formula. -/
theorem parseCsv_writeLines {table : List (List Text)} (hne : table ≠ [])
    (hcells : ∀ cells ∈ table, cells ≠ []) :
    parseCsv (joinLines (table.map writeLine)) = table.map (List.map neutralize) := by
  simp [parseCsv, parseLoop_joinLines hne hcells]

theorem ExportCard.cells_ne_nil (row : ExportCard) : row.cells ≠ [] := List.cons_ne_nil _ _

/-- The header is a line like any other: none of its cells is quoted or guarded. -/
theorem writeLine_EXPORT_COLUMNS :
    writeLine EXPORT_COLUMNS = List.intercalate [','] EXPORT_COLUMNS := by decide

theorem parseCsv_toCsv (cards : List ExportCard) :
    parseCsv (toCsv cards) =
      EXPORT_COLUMNS :: cards.map fun card => card.cells.map neutralize := by
  have htable : toCsv cards =
      joinLines ((EXPORT_COLUMNS :: cards.map ExportCard.cells).map writeLine) := by
    rw [toCsv, List.map_cons, List.map_map, writeLine_EXPORT_COLUMNS]
    rfl
  have hcells : ∀ cells ∈ EXPORT_COLUMNS :: cards.map ExportCard.cells, cells ≠ [] := by
    rw [List.forall_mem_cons]
    exact ⟨by decide, List.forall_mem_map.mpr fun card _ => card.cells_ne_nil⟩
  have hheader : EXPORT_COLUMNS.map neutralize = EXPORT_COLUMNS := by decide
  rw [htable, parseCsv_writeLines (List.cons_ne_nil _ _) hcells, List.map_cons, hheader,
    List.map_map]
  rfl

end CsvFormat
end TaskFlow
