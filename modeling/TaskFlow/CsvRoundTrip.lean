import Mathlib.Data.List.Forall2
import TaskFlow.ImportedCells

/-! # An export, imported again

Every cell of an export is read as it was written.  What comes back of a card still depends on
its texts and names: they are stripped, names are split at the marks between them, and a name
may stand for another row than its own, or for none.  `Kept` says of a card, and of the tables it
names, when all of it comes back, and `roundTrips_iff` that this is exactly when.
-/
namespace TaskFlow
namespace CardExport
open RichText (Text isSpace)
open ImportRows CsvFormat ImportTable SeparatedText

/-! ### A card, there and back -/

/-- The row is what the card is. -/
structure SameCard (row : ImportRow) (card : Card) : Prop where
  title : row.title = card.title
  description : row.description.getD [] = card.descriptionText.getD []
  status : row.statusId = card.statusId
  list : row.listId = card.listId
  sprint : row.sprintId = card.sprintId
  assignees : ∀ id, id ∈ row.assigneeIds ↔ id ∈ card.assigneeIds
  labels : ∀ id, id ∈ row.labelIds ↔ id ∈ card.labelIds
  priority : row.priority = card.priority
  dueDate : row.dueDate = card.dueDate.map (·.1)

variable (engine : Engine) (project : Project) (list : ListRow)

/-- What a card, and the tables it names, have to be like for all of it to come back. -/
structure Kept (card : Card) : Prop where
  title : Plain card.title ∧ card.title ≠ [] ∧ utf16Length card.title ≤ 500
  description : Plain (card.descriptionText.getD []) ∧
    utf16Length (card.descriptionText.getD []) ≤ MAX_IMPORT_DESCRIPTION
  status : ∀ id ∈ card.statusId, Stands engine project.statuses (statusName project card) id
  list : Stands engine (boardLists project list) (listName project card) card.listId ∨
    (∀ id, ¬Stands engine (boardLists project list) (listName project card) id) ∧
      list.id = card.listId
  sprint : ∀ id ∈ card.sprintId, Stands engine (openSprints project) (sprintName project card) id
  assignees : NamesAll
    (fun email id => (members engine project).get (engine.toLowerCase email) = some id)
    (entriesOf (assigneeEmails project card)) card.assigneeIds
  labelCount : (entriesOf (labelNames project card)).length ≤ MAX_IMPORT_LIST
  labels : NamesAll (fun entry id => Named engine project.labels (unneutralize entry) id)
    (entriesOf (labelNames project card)) card.labelIds
  dueDate : ∀ time ∈ card.dueDate, 0 ≤ yearOf time ∧ yearOf time ≤ 9999

/-- The row is accepted, with no error, as what the card is. -/
def ComesBack (raw : ImportRowInput) (card : Card) : Prop :=
  ∃ row, validateRow engine raw (vocabulary engine project list) false = .ok row ∧
    SameCard row card

/-- Exported and imported into a list of the project, the cards come back row by row. -/
def RoundTrips (cards : List Card) : Prop :=
  List.Forall₂ (ComesBack engine project list)
    (rowsOfFile engine (exportCards project cards)) cards

variable {engine project list}

theorem validateRow_eq_ok {input : ImportRowInput} {vocab : ResolvedVocabulary} {tolerate : Bool}
    {row : ImportRow} :
    validateRow engine input vocab tolerate = .ok row ↔
      checkTitle input.title = .ok row.title ∧
      checkDescription input.description = .ok row.description ∧
      checkStatus engine vocab input.status = .ok row.statusId ∧
      checkAssignees engine vocab input.assignees = .ok row.assigneeIds ∧
      checkLabels engine vocab tolerate input.labels = .ok row.labelIds ∧
      checkDueDate engine input.dueDate = .ok row.dueDate ∧
      checkPriority engine input.priority = .ok row.priority ∧
      resolveList engine vocab input.list = row.listId ∧
      checkSprint engine vocab input.sprint = .ok row.sprintId := by
  simp only [validateRow, bind_eq_ok]
  constructor
  · rintro ⟨_, h1, _, h2, _, h3, _, h4, _, h5, _, h6, _, h7, _, h8, h9⟩
    cases h9
    exact ⟨h1, h2, h3, h4, h5, h6, h7, rfl, h8⟩
  · rintro ⟨h1, h2, h3, h4, h5, h6, h7, h8, h9⟩
    exact ⟨_, h1, _, h2, _, h3, _, h4, _, h5, _, h6, _, h7, _, h9, by rw [h8]; rfl⟩

/-- A card without a status has a blank cell, and its row none. -/
theorem checkStatus_card (card : Card) :
    checkStatus engine (vocabulary engine project list)
        (cellValue .status (neutralize (statusName project card))) = .ok card.statusId ↔
      ∀ id ∈ card.statusId, Stands engine project.statuses (statusName project card) id := by
  cases hstatus : card.statusId with
  | none =>
    have hname : statusName project card = [] := by rw [statusName, hstatus]; rfl
    rw [hname]
    exact iff_of_true rfl fun _ h => absurd h (Option.not_mem_none _)
  | some id =>
    simp only [checkStatus_eq_ok (show (vocabulary engine project list).statuses = _ from rfl),
      Option.mem_some_iff, forall_eq']

theorem checkSprint_card (card : Card) :
    checkSprint engine (vocabulary engine project list)
        (cellValue .sprint (neutralize (sprintName project card))) = .ok card.sprintId ↔
      ∀ id ∈ card.sprintId, Stands engine (openSprints project) (sprintName project card) id := by
  cases hsprint : card.sprintId with
  | none =>
    have hname : sprintName project card = [] := by rw [sprintName, hsprint]; rfl
    rw [hname]
    exact iff_of_true rfl fun _ h => absurd h (Option.not_mem_none _)
  | some id =>
    simp only [checkSprint_eq_ok (show (vocabulary engine project list).sprints = _ from rfl),
      Option.mem_some_iff, forall_eq']

/-- The cells of a card come back exactly if the card is kept. -/
theorem comesBack_iff (ascii : LowersAscii engine) (card : Card) :
    ComesBack engine project list (rowOfExport (exportRow project card)) card ↔
      Kept engine project list card := by
  constructor
  · rintro ⟨row, hrow, hsame⟩
    obtain ⟨h1, h2, h3, h4, h5, h6, -, h8, h9⟩ := (validateRow_eq_ok).mp hrow
    have hlabels := (checkLabels_eq_ok rfl).mp ⟨_, h5, hsame.labels⟩
    exact {
      title := checkTitle_eq_ok.mp (h1.trans (congrArg Except.ok hsame.title))
      description := checkDescription_eq_ok.mp ⟨_, h2, hsame.description⟩
      status := (checkStatus_card card).mp (h3.trans (congrArg Except.ok hsame.status))
      list := (resolveList_eq rfl).mp (h8.trans hsame.list)
      sprint := (checkSprint_card card).mp (h9.trans (congrArg Except.ok hsame.sprint))
      assignees := checkAssignees_eq_ok.mp ⟨_, h4, hsame.assignees⟩
      labelCount := hlabels.1
      labels := hlabels.2
      dueDate := (checkDueDate_eq_ok card.dueDate).mp
        (h6.trans (congrArg Except.ok hsame.dueDate)) }
  · intro h
    obtain ⟨description, h2, hdescription⟩ := checkDescription_eq_ok.mpr h.description
    have hmembers : NamesAll (fun email id =>
        (vocabulary engine project list).members.get (engine.toLowerCase email) = some id)
        (entriesOf (assigneeEmails project card)) card.assigneeIds := h.assignees
    obtain ⟨assigneeIds, h4, hassignees⟩ := checkAssignees_eq_ok.mpr hmembers
    obtain ⟨labelIds, h5, hlabels⟩ := (checkLabels_eq_ok
      (show (vocabulary engine project list).labels = _ from rfl)).mpr ⟨h.labelCount, h.labels⟩
    refine ⟨⟨card.title, description, card.statusId, assigneeIds, labelIds,
      card.dueDate.map (·.1), card.priority, card.listId, card.sprintId⟩, ?_,
      ⟨rfl, hdescription, rfl, rfl, rfl, hassignees, hlabels, rfl, rfl⟩⟩
    exact (validateRow_eq_ok).mpr ⟨checkTitle_eq_ok.mpr h.title, h2,
      (checkStatus_card card).mpr h.status, h4, h5,
      (checkDueDate_eq_ok card.dueDate).mpr h.dueDate, checkPriority_text ascii card.priority,
      (resolveList_eq rfl).mpr h.list, (checkSprint_card card).mpr h.sprint⟩

/-- A row that says nothing is no card's. -/
theorem ne_nil_of_comesBack {raw : ImportRowInput} {card : Card}
    (h : ComesBack engine project list raw card) : raw ≠ {} := by
  rintro rfl
  obtain ⟨row, hrow, -⟩ := h
  cases ((validateRow_eq_ok).mp hrow).1

/-- Where each row that is left belongs to the element it comes from, none is missing. -/
theorem forall₂_filter_map {α β : Type} {R : β → α → Prop} {keep : β → Bool} {f : α → β}
    (hkeep : ∀ b a, R b a → keep b = true) (as : List α) :
    List.Forall₂ R ((as.map f).filter keep) as ↔ ∀ a ∈ as, R (f a) a := by
  constructor
  · intro h
    have hall := List.length_filter_eq_length_iff.mp (h.length_eq.trans (List.length_map f).symm)
    rw [List.filter_eq_self.mpr hall, List.forall₂_map_left_iff, List.forall₂_same] at h
    exact h
  · intro h
    have hall : ∀ b ∈ as.map f, keep b = true :=
      List.forall_mem_map.mpr fun a ha => hkeep _ _ (h a ha)
    rw [List.filter_eq_self.mpr hall, List.forall₂_map_left_iff, List.forall₂_same]
    exact h

/-- **An export comes back, card by card, exactly if every card of it is kept.** -/
theorem roundTrips_iff (ascii : LowersAscii engine) (project : Project) (list : ListRow)
    (cards : List Card) :
    RoundTrips engine project list cards ↔ ∀ card ∈ cards, Kept engine project list card := by
  rw [RoundTrips, rowsOfFile, exportCards, rowsFromTable_export ascii, List.map_map,
    forall₂_filter_map fun _ _ h => decide_eq_true (ne_nil_of_comesBack h)]
  exact forall₂_congr fun card _ => comesBack_iff ascii card

/-- A project with a card that names one row of every table. -/
def smallProject : Project where
  projectId := "p1"
  key := "WEB".toList
  statuses := [⟨"s1", "Todo".toList⟩, ⟨"s2", "Done".toList⟩]
  labels := [⟨"l1", "Bug".toList⟩, ⟨"l2", "R;D".toList⟩]
  lists := [⟨"b1", "board", "Backlog".toList, false⟩]
  sprints := [⟨"t1", "May".toList, .active⟩]
  users := [⟨"u1", "Ada@team.test".toList, "ada@team.test".toList⟩]
  memberships := [⟨"u1", true⟩]

def smallList : ListRow := ⟨"b1", "board", "Backlog".toList, false⟩

def quotedCard : Card where
  number := 1
  title := "=SUM(A1), \"quoted\"".toList
  descriptionText := some "one\ntwo".toList
  statusId := some "s2"
  listId := "b1"
  sprintId := some "t1"
  assigneeIds := ["u1"]
  labelIds := ["l1"]
  priority := some .high
  dueDate := some ⟨0, by decide⟩

theorem roundTrips_iff_quotedCard :
    RoundTrips Engine.ascii smallProject smallList [quotedCard] := by
  refine (roundTrips_iff lowersAscii_ascii smallProject smallList [quotedCard]).mpr ?_
  rw [List.forall_mem_singleton]
  exact {
    title := by decide +kernel
    description := by decide +kernel
    status := by decide +kernel
    list := .inl (by decide +kernel)
    sprint := by decide +kernel
    assignees := (namesAll_iff fun _ _ => Iff.rfl).mp ⟨by decide +kernel, fun id => by
      rw [show List.filterMap _ _ = quotedCard.assigneeIds by decide +kernel]⟩
    labelCount := by decide +kernel
    labels := (namesAll_iff fun _ _ => resolve_ofEntries _ _ _).mp ⟨by decide +kernel, fun id => by
      rw [show List.filterMap _ _ = quotedCard.labelIds by decide +kernel]⟩
    dueDate := by decide +kernel }

/-- A card with the other label of the project. -/
def splitCard : Card := { quotedCard with labelIds := ["l2"] }

/-- The label of the card is read as two, of which the project has neither. -/
theorem label_read_as_two :
    ¬RoundTrips Engine.ascii smallProject smallList [splitCard] := by
  have hrows : (rowsOfFile Engine.ascii (exportCards smallProject [splitCard])).map
      (fun raw => validateRow Engine.ascii raw (vocabulary Engine.ascii smallProject smallList)
        false) = [.error (quoting "Unknown label " "R".toList ".")] := by
    decide +kernel
  intro h
  obtain ⟨raw, rest, ⟨row, hrow, -⟩, -, hraw⟩ := List.forall₂_cons_right_iff.mp h
  rw [hraw, List.map_cons, hrow] at hrows
  cases hrows

end CardExport
end TaskFlow
