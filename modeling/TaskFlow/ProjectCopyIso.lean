import Mathlib.Data.Set.Function
import TaskFlow.ProjectCopy

/-! # When a duplicate is isomorphic to its source

A renaming of ids is an isomorphism from a project to a copy of it if it is a bijection, for
each table, between the rows of the one and those of the other, and keeps names, order and
references.

The map from each row to its copy is one if no copied checklist has an item and the new ids of
rows of one rank come in the order of the old ones.  An item is copied with the card it had: so
where there is one, no renaming whatever is an isomorphism (`isomorphic_iff`).
-/
namespace TaskFlow
namespace ProjectCopy
open ReadCommitted ReadCommitted.Script ReadCommitted.Procedure WorkTables WorkScripts

/-! ### Isomorphisms -/

/-- Rows of one parent, by rank and id. -/
def Before {α β : Type} [LT β] (parent : α → Id) (rank : α → β) (key : α → Id) (a b : α) : Prop :=
  parent a = parent b ∧ (rank a < rank b ∨ rank a = rank b ∧ key a ≤ key b)

/-- The renaming is a bijection between the rows of two tables, and keeps what is asked of a
row and its copy, and an order. -/
structure Matches {α : Type} (key : α → Id) (f : Id → Id) (kept : α → α → Prop)
    (before : α → α → Prop) (rows copies : List α) : Prop where
  bijection : Set.BijOn f {id | ∃ row ∈ rows, key row = id} {id | ∃ copy ∈ copies, key copy = id}
  kept : ∀ row ∈ rows, ∀ copy ∈ copies, key copy = f (key row) → kept row copy
  order : ∀ row ∈ rows, ∀ row' ∈ rows, ∀ copy ∈ copies, ∀ copy' ∈ copies,
    key copy = f (key row) → key copy' = f (key row') → (before copy copy' ↔ before row row')

/-- The labels a card carries. -/
def tagged (db : Tables) (cardId : Id) : Set Id :=
  {labelId | ∃ row ∈ db.cardLabels, row.cardId = cardId ∧ row.labelId = labelId}

/-- The project `f.project` is the source, renamed. -/
structure Isomorphic (db db' : Tables) (source : Id) (f : NewIds) : Prop where
  statuses : Matches (·.id) f.status
    (fun row copy => copy.name = row.name ∧ copy.category = row.category ∧
      copy.color = row.color ∧ copy.isDefault = row.isDefault)
    (Before (·.projectId) (·.position) (·.id)) (db.statusesOf source) (db'.statusesOf f.project)
  labels : Matches (·.id) f.label
    (fun row copy => copy.name = row.name ∧ copy.color = row.color) (fun _ _ => True)
    (db.labelsOf source) (db'.labelsOf f.project)
  boards : Matches (·.id) f.board (fun row copy => copy.name = row.name)
    (Before (·.projectId) (·.rank) (·.id)) (db.boardsOf source) (db'.boardsOf f.project)
  lists : Matches (·.id) f.list
    (fun row copy => copy.name = row.name ∧ copy.boardId = f.board row.boardId)
    (Before (·.boardId) (·.rank) (·.id)) (db.listsOf source) (db'.listsOf f.project)
  cards : Matches (·.id) f.card
    (fun row copy => copy.title = row.title ∧ copy.boardId = f.board row.boardId ∧
      copy.listId = f.list row.listId ∧ copy.statusId = row.statusId.map f.status ∧
      tagged db' copy.id = f.label '' tagged db row.id)
    (Before (·.listId) (·.rank) (·.id)) (db.shownCards source) (db'.shownCards f.project)
  checklists : Matches (·.id) f.checklist
    (fun row copy => copy.name = row.name ∧ copy.cardId = f.card row.cardId)
    (Before (·.cardId) (·.rank) (·.id)) (db.checklistsOn (sourceCards db source))
    (db'.checklistsOn (sourceCards db' f.project))
  items : Matches (·.id) f.item
    (fun row copy => copy.text = row.text ∧ copy.done = row.done ∧
      copy.checklistId = f.checklist row.checklistId ∧ copy.cardId = f.card row.cardId ∧
      copy.cardId ∈ sourceCards db' f.project)
    (Before (·.checklistId) (·.rank) (·.id)) (db.itemsOf (sourceChecklists db source))
    (db'.itemsOf (sourceChecklists db' f.project))

/-- The new ids of rows of one rank come in the order of the old ones. -/
def Ties {α β : Type} (parent : α → Id) (rank : α → β) (key : α → Id) (f : Id → Id)
    (rows : List α) : Prop :=
  ∀ row ∈ rows, ∀ row' ∈ rows, parent row = parent row' → rank row = rank row' →
    (f (key row) ≤ f (key row') ↔ key row ≤ key row')

/-- Rows of one rank keep their order. -/
structure TiesKept (f : NewIds) (db : Tables) (source : Id) : Prop where
  statuses : Ties (·.projectId) (·.position) (·.id) f.status (db.statusesOf source)
  boards : Ties (·.projectId) (·.rank) (·.id) f.board (db.boardsOf source)
  lists : Ties (·.boardId) (·.rank) (·.id) f.list (db.listsOf source)
  cards : Ties (·.listId) (·.rank) (·.id) f.card (db.shownCards source)
  checklists : Ties (·.cardId) (·.rank) (·.id) f.checklist
    (db.checklistsOn (sourceCards db source))

/-- What the keys of the database promise of its rows. -/
structure WellFormed (ids : List Id) (rows : Rows) : Prop where
  keyed : ∀ key, (rows key).Keyed key
  known : ∀ key row, rows key = .live row → key.within ids = true
  references : ∀ key row, rows key = .live row → ∀ ref ∈ row.references, rows ref ≠ .empty
  status : ∀ key card statusId, rows key = .live (.card card) → card.statusId = some statusId →
    ∃ status, rows (.status statusId) = .live (.status status) ∧
      status.projectId = card.projectId
  label : ∀ key row, rows key = .live (.cardLabel row) →
    ∃ card label, rows (.card row.cardId) = .live (.card card) ∧
      rows (.label row.labelId) = .live (.label label) ∧ label.projectId = card.projectId

/-! ### Tables of copies -/

/-- Each row has a copy, each copy is one, and no two rows are renamed alike. -/
structure CopiedBy {α : Type} (key : α → Id) (f : Id → Id) (copied : α → α → Prop)
    (rows copies : List α) : Prop where
  left : ∀ row ∈ rows, ∃ copy ∈ copies, copied row copy
  right : ∀ copy ∈ copies, ∃ row ∈ rows, copied row copy
  renamed : ∀ row copy, copied row copy → key copy = f (key row)
  injective : ∀ row ∈ rows, ∀ row' ∈ rows, f (key row) = f (key row') → row = row'

section
variable {α β : Type} {key : α → Id} {f : Id → Id} {copied kept : α → α → Prop}
  {before : α → α → Prop} {rows copies : List α} {parent : α → Id} {rank : α → β}

/-- A copy with the renamed key of a row is the row's. -/
theorem CopiedBy.of_key (h : CopiedBy key f copied rows copies) {row copy : α} (hrow : row ∈ rows)
    (hcopy : copy ∈ copies) (hkey : key copy = f (key row)) : copied row copy := by
  obtain ⟨row', hrow', hcopied⟩ := h.right copy hcopy
  rw [← h.injective row' hrow' row hrow ((h.renamed row' copy hcopied).symm.trans hkey)]
  exact hcopied

theorem CopiedBy.matches (h : CopiedBy key f copied rows copies)
    (hkept : ∀ row ∈ rows, ∀ copy ∈ copies, copied row copy → kept row copy)
    (horder : ∀ row ∈ rows, ∀ row' ∈ rows, ∀ copy copy', copied row copy → copied row' copy' →
      (before copy copy' ↔ before row row')) : Matches key f kept before rows copies where
  bijection := by
    refine ⟨?_, ?_, ?_⟩
    · rintro _ ⟨row, hrow, rfl⟩
      obtain ⟨copy, hcopy, hcopied⟩ := h.left row hrow
      exact ⟨copy, hcopy, h.renamed row copy hcopied⟩
    · rintro _ ⟨row, hrow, rfl⟩ _ ⟨row', hrow', rfl⟩ heq
      rw [h.injective row hrow row' hrow' heq]
    · rintro _ ⟨copy, hcopy, rfl⟩
      obtain ⟨row, hrow, hcopied⟩ := h.right copy hcopy
      exact ⟨key row, ⟨row, hrow, rfl⟩, (h.renamed row copy hcopied).symm⟩
  kept := fun row hrow copy hcopy hkey => hkept row hrow copy hcopy (h.of_key hrow hcopy hkey)
  order := fun row hrow row' hrow' copy hcopy copy' hcopy' hkey hkey' =>
    horder row hrow row' hrow' copy copy' (h.of_key hrow hcopy hkey)
      (h.of_key hrow' hcopy' hkey')

/-- Copies of the same ranks and parents are in the rows' order where ties are kept. -/
theorem CopiedBy.order [LT β] (h : CopiedBy key f copied rows copies)
    (hrank : ∀ row copy, copied row copy → rank copy = rank row)
    (hparent : ∀ row ∈ rows, ∀ row' ∈ rows, ∀ copy copy', copied row copy → copied row' copy' →
      (parent copy = parent copy' ↔ parent row = parent row'))
    (hties : Ties parent rank key f rows) {row row' copy copy' : α} (hrow : row ∈ rows)
    (hrow' : row' ∈ rows) (hcopy : copied row copy) (hcopy' : copied row' copy') :
    Before parent rank key copy copy' ↔ Before parent rank key row row' := by
  unfold Before
  rw [hparent row hrow row' hrow' copy copy' hcopy hcopy', hrank row copy hcopy,
    hrank row' copy' hcopy', h.renamed row copy hcopy, h.renamed row' copy' hcopy']
  refine and_congr_right fun hsame => or_congr_right (and_congr_right fun hrank => ?_)
  exact hties row hrow row' hrow' hsame hrank

/-- Where the order is kept, so are ties. -/
theorem CopiedBy.ties [LT β] (h : CopiedBy key f copied rows copies)
    (hirrefl : ∀ r : β, ¬r < r) (hrank : ∀ row copy, copied row copy → rank copy = rank row)
    (hparent : ∀ row ∈ rows, ∀ row' ∈ rows, ∀ copy copy', copied row copy → copied row' copy' →
      (parent copy = parent copy' ↔ parent row = parent row'))
    (hmatches : Matches key f kept (Before parent rank key) rows copies) :
    Ties parent rank key f rows := by
  intro row hrow row' hrow' hsame heq
  obtain ⟨copy, hcopy, hcopied⟩ := h.left row hrow
  obtain ⟨copy', hcopy', hcopied'⟩ := h.left row' hrow'
  have horder := hmatches.order row hrow row' hrow' copy hcopy copy' hcopy'
    (h.renamed row copy hcopied) (h.renamed row' copy' hcopied')
  have hparents := (hparent row hrow row' hrow' copy copy' hcopied hcopied').mpr hsame
  rw [Before, Before, hrank row copy hcopied, hrank row' copy' hcopied',
    h.renamed row copy hcopied, h.renamed row' copy' hcopied'] at horder
  simpa only [hparents, hsame, heq, hirrefl, true_and, false_or] using horder

end

/-! ### The tables after the call -/

/-- How the rows of one table are found among all rows. -/
structure Part {α : Type} (ids : List Id) (part : Row → Option α) (whole : α → Row)
    (keyOf : Id → Key) (idOf : α → Id) : Prop where
  part : ∀ row a, part row = some a ↔ row = whole a
  key : ∀ a, (whole a).key = keyOf (idOf a)
  within : ∀ id, (keyOf id).within ids = true → id ∈ ids

section
variable {ids : List Id} {rows rows' : Rows} {new : List Row} {α : Type} {part : Row → Option α}
  {whole : α → Row} {keyOf : Id → Key} {idOf : α → Id}

theorem part_status : Part ids Row.status? .status .status (·.id) :=
  ⟨fun _ _ => Row.status?_eq_some, fun _ => rfl, fun _ h => of_decide_eq_true h⟩

theorem part_label : Part ids Row.label? .label .label (·.id) :=
  ⟨fun _ _ => Row.label?_eq_some, fun _ => rfl, fun _ h => of_decide_eq_true h⟩

theorem part_board : Part ids Row.board? .board .board (·.id) :=
  ⟨fun _ _ => Row.board?_eq_some, fun _ => rfl, fun _ h => of_decide_eq_true h⟩

theorem part_list : Part ids Row.list? .list .list (·.id) :=
  ⟨fun _ _ => Row.list?_eq_some, fun _ => rfl, fun _ h => of_decide_eq_true h⟩

theorem part_card : Part ids Row.card? .card .card (·.id) :=
  ⟨fun _ _ => Row.card?_eq_some, fun _ => rfl, fun _ h => of_decide_eq_true h⟩

theorem part_checklist : Part ids Row.checklist? .checklist .checklist (·.id) :=
  ⟨fun _ _ => Row.checklist?_eq_some, fun _ => rfl, fun _ h => of_decide_eq_true h⟩

theorem part_item : Part ids Row.checklistItem? .checklistItem .checklistItem (·.id) :=
  ⟨fun _ _ => Row.checklistItem?_eq_some, fun _ => rfl, fun _ h => of_decide_eq_true h⟩

/-- A table has the rows that are under their keys. -/
theorem Part.mem_iff (hpart : Part ids part whole keyOf idOf)
    (hkeyed : ∀ key, (rows key).Keyed key)
    (hknown : ∀ key row, rows key = .live row → key.within ids = true) {a : α} :
    (a ∈ ids.filterMap fun id => (rows (keyOf id)).row?.bind part) ↔
      rows (whole a).key = .live (whole a) := by
  constructor
  · exact live_of_mem hkeyed fun row a => (hpart.part row a).mp
  · intro hlive
    rw [hpart.key] at hlive
    refine List.mem_filterMap.mpr ⟨idOf a, hpart.within _ (hknown _ _ hlive), ?_⟩
    rw [hlive]
    exact (hpart.part _ a).mpr rfl

theorem Added.keyed (h : Added ids new rows rows') (hkeyed : ∀ key, (rows key).Keyed key)
    (key : Key) : (rows' key).Keyed key := by
  by_cases hmem : ∃ row ∈ new, row.key = key
  · obtain ⟨row, hrow, rfl⟩ := hmem
    rw [h.live row hrow]
    rfl
  · rw [h.other key fun row hrow heq => hmem ⟨row, hrow, heq⟩]
    exact hkeyed key

theorem Added.within (h : Added ids new rows rows')
    (hknown : ∀ key row, rows key = .live row → key.within ids = true) (key : Key) (row : Row)
    (hlive : rows' key = .live row) : key.within ids = true := by
  by_cases hmem : ∃ row ∈ new, row.key = key
  · obtain ⟨row, hrow, rfl⟩ := hmem
    exact h.known row hrow
  · rw [h.other key fun row hrow heq => hmem ⟨row, hrow, heq⟩] at hlive
    exact hknown key row hlive

/-- A row is there if it was added or was there before. -/
theorem Added.live_iff (h : Added ids new rows rows') {row : Row} :
    rows' row.key = .live row ↔ row ∈ new ∨ rows row.key = .live row := by
  constructor
  · intro hlive
    by_cases hmem : ∃ other ∈ new, other.key = row.key
    · obtain ⟨other, hother, hkey⟩ := hmem
      rw [← hkey, h.live other hother] at hlive
      exact .inl (Slot.live.inj hlive ▸ hother)
    · rw [h.other _ fun other hother heq => hmem ⟨other, hother, heq⟩] at hlive
      exact .inr hlive
  · rintro (hnew | hold)
    · exact h.live row hnew
    · rw [h.other _ fun other hother heq => ?_]
      · exact hold
      · have hfree := h.fresh other hother
        rw [heq, hold] at hfree
        exact absurd hfree (by simp)

theorem Added.mem_iff (h : Added ids new rows rows') (hrows : WellFormed ids rows)
    (hpart : Part ids part whole keyOf idOf) {a : α} :
    (a ∈ ids.filterMap fun id => (rows' (keyOf id)).row?.bind part) ↔
      a ∈ new.filterMap part ∨ a ∈ ids.filterMap fun id => (rows (keyOf id)).row?.bind part := by
  rw [hpart.mem_iff (h.keyed hrows.keyed) (h.within hrows.known), h.live_iff,
    hpart.mem_iff hrows.keyed hrows.known]
  refine or_congr_left ⟨fun hnew => ?_, fun hnew => ?_⟩
  · exact List.mem_filterMap.mpr ⟨_, hnew, (hpart.part _ a).mpr rfl⟩
  · obtain ⟨row, hrow, ha⟩ := List.mem_filterMap.mp hnew
    exact (hpart.part row a).mp ha ▸ hrow

/-- The new rows of one table have different ids. -/
theorem Added.nodup_part (h : Added ids new rows rows')
    (hpart : Part ids part whole keyOf idOf) : ((new.filterMap part).map idOf).Nodup := by
  have hpairs := List.pairwise_map.mp h.nodup
  refine List.pairwise_map.mpr (List.Pairwise.filterMap part ?_ hpairs)
  intro row row' hne a ha a' ha' heq
  obtain rfl := (hpart.part row a).mp ha
  obtain rfl := (hpart.part row' a').mp ha'
  exact hne (by rw [hpart.key, hpart.key, heq])

/-- No row that was there before refers to a new one. -/
theorem Added.notMem_references (h : Added ids new rows rows') (hrows : WellFormed ids rows)
    {row row' : Row} (hnew : row ∈ new) {key : Key} (hlive : rows key = .live row') :
    row.key ∉ row'.references := fun hmem =>
  hrows.references key row' hlive row.key hmem (h.fresh row hnew)

end

/-! ### The new rows, table by table -/

section
variable {newIds : NewIds} {db : Tables} {source : Id} {project : ProjectRow}
  {lists : List ListRow} {cards : List CardRow}

theorem new_statuses :
    (copiedRows newIds db source project lists cards).filterMap Row.status? =
    copyStatuses newIds (db.statusesOf source) := by
  simp [copiedRows, shapeRows, detailRows, List.filterMap_cons, List.filterMap_append,
    List.filterMap_map, Function.comp_def, Row.status?]

theorem new_labels :
    (copiedRows newIds db source project lists cards).filterMap Row.label? =
    copyLabels newIds (db.labelsOf source) := by
  simp [copiedRows, shapeRows, detailRows, List.filterMap_cons, List.filterMap_append,
    List.filterMap_map, Function.comp_def, Row.label?]

theorem new_boards :
    (copiedRows newIds db source project lists cards).filterMap Row.board? =
    copyBoards newIds (db.boardsOf source) := by
  simp [copiedRows, shapeRows, detailRows, List.filterMap_cons, List.filterMap_append,
    List.filterMap_map, Function.comp_def, Row.board?]

theorem new_lists :
    (copiedRows newIds db source project lists cards).filterMap Row.list? =
    lists := by
  simp [copiedRows, shapeRows, detailRows, List.filterMap_cons, List.filterMap_append,
    List.filterMap_map, Function.comp_def, Row.list?]

theorem new_cards :
    (copiedRows newIds db source project lists cards).filterMap Row.card? =
    cards := by
  simp [copiedRows, shapeRows, detailRows, List.filterMap_cons, List.filterMap_append,
    List.filterMap_map, Function.comp_def, Row.card?]

theorem new_cardLabels :
    (copiedRows newIds db source project lists cards).filterMap Row.cardLabel? =
    copyCardLabels newIds
    (idMap newIds.card (sourceCards db source)) (shapeMaps newIds db source).label
    (db.labelsOn (sourceCards db source)) := by
  simp [copiedRows, shapeRows, detailRows, List.filterMap_cons, List.filterMap_append,
    List.filterMap_map, Function.comp_def, Row.cardLabel?]

theorem new_checklists :
    (copiedRows newIds db source project lists cards).filterMap Row.checklist? =
    copyChecklists newIds
    (idMap newIds.card (sourceCards db source)) (db.checklistsOn (sourceCards db source)) := by
  simp [copiedRows, shapeRows, detailRows, List.filterMap_cons, List.filterMap_append,
    List.filterMap_map, Function.comp_def, Row.checklist?]

theorem new_items :
    (copiedRows newIds db source project lists cards).filterMap Row.checklistItem? =
    copyItems newIds
    (idMap newIds.checklist (sourceChecklists db source))
    (db.itemsOf (sourceChecklists db source)) := by
  simp [copiedRows, shapeRows, detailRows, List.filterMap_cons, List.filterMap_append,
    List.filterMap_map, Function.comp_def, Row.checklistItem?]

end

/-! ### Each table is copied -/

/-- A duplicate has added the copy of a well-formed project. -/
structure IsCopy (ids : List Id) (newIds : NewIds) (input : Duplicate) (rows rows' : Rows)
    (project : ProjectRow) (lists : List ListRow) (cards : List CardRow) : Prop where
  wellFormed : WellFormed ids rows
  id : project.id = newIds.project
  copies : Copies newIds (Rows.tables rows ids) input lists cards
  added : Added ids (copiedRows newIds (Rows.tables rows ids) input.sourceProjectId project lists
    cards) rows rows'

theorem map_eq_of_forall₂ {α β : Type} {R : α → α → Prop} {g g' : α → β} {l l' : List α}
    (h : List.Forall₂ R l l') (hR : ∀ a b, R a b → g' b = g a) : l'.map g' = l.map g := by
  induction h with
  | nil => rfl
  | cons hhead _ ih => rw [List.map_cons, List.map_cons, hR _ _ hhead, ih]

/-- The new rows of a table, each the copy of a row, are the table of the copies. -/
theorem Added.copiedBy {ids : List Id} {rows rows' : Rows} {new : List Row} {α : Type}
    {part : Row → Option α} {whole : α → Row} {keyOf : Id → Key} {idOf : α → Id} {f : Id → Id}
    {copied : α → α → Prop} {originals copies : List α} (h : Added ids new rows rows')
    (hpart : Part ids part whole keyOf idOf)
    (hcopied : List.Forall₂ copied originals (new.filterMap part))
    (hrenamed : ∀ row copy, copied row copy → idOf copy = f (idOf row))
    (hcopies : ∀ a, a ∈ copies ↔ a ∈ new.filterMap part) :
    CopiedBy idOf f copied originals copies where
  left := by
    intro row hrow
    obtain ⟨copy, hcopy, hR⟩ := mem_left_of_forall₂ hcopied hrow
    exact ⟨copy, (hcopies copy).mpr hcopy, hR⟩
  right := fun copy hcopy => mem_right_of_forall₂ hcopied ((hcopies copy).mp hcopy)
  renamed := hrenamed
  injective := by
    have hnodup := h.nodup_part hpart
    rw [map_eq_of_forall₂ hcopied hrenamed] at hnodup
    exact fun row hrow row' hrow' heq => List.inj_on_of_nodup_map hnodup hrow hrow' heq

theorem forall₂_map {α : Type} {g : α → α} {copied : α → α → Prop} {l : List α}
    (h : ∀ a ∈ l, copied a (g a)) : List.Forall₂ copied l (l.map g) :=
  List.forall₂_map_right_iff.mpr (List.forall₂_same.mpr h)

section
variable {ids : List Id} {newIds : NewIds} {input : Duplicate} {rows rows' : Rows}
  {project : ProjectRow} {lists : List ListRow} {cards : List CardRow}

/-- A row that was there before is not of the new project. -/
theorem IsCopy.old_notMem (h : IsCopy ids newIds input rows rows' project lists cards) {key : Key}
    {row : Row} (hlive : rows key = .live row) : .project newIds.project ∉ row.references := by
  have hnot := h.added.notMem_references h.wellFormed List.mem_cons_self hlive
  rw [show (Row.project project).key = Key.project project.id from rfl, h.id] at hnot
  exact hnot

/-- The rows of one table that belong to the new project are the new ones. -/
theorem IsCopy.mem_iff (h : IsCopy ids newIds input rows rows' project lists cards)
    {α : Type} {part : Row → Option α} {whole : α → Row} {keyOf : Id → Key} {idOf : α → Id}
    {ofProject : α → Id} {wanted : α → Bool} (hpart : Part ids part whole keyOf idOf)
    (hproject : ∀ a, .project (ofProject a) ∈ (whole a).references)
    (hwanted : ∀ a, wanted a = true → ofProject a = newIds.project)
    (hnew : ∀ a ∈ (copiedRows newIds (Rows.tables rows ids) input.sourceProjectId project lists
      cards).filterMap part, wanted a = true) (a : α) :
    (a ∈ (ids.filterMap fun id => (rows' (keyOf id)).row?.bind part).filter wanted) ↔
      a ∈ (copiedRows newIds (Rows.tables rows ids) input.sourceProjectId project lists
        cards).filterMap part := by
  rw [List.mem_filter, h.added.mem_iff h.wellFormed hpart]
  constructor
  · rintro ⟨hmem | hold, ha⟩
    · exact hmem
    · have hlive := (hpart.mem_iff h.wellFormed.keyed h.wellFormed.known).mp hold
      exact absurd (hwanted a ha ▸ hproject a) (h.old_notMem hlive)
  · exact fun hmem => ⟨.inl hmem, hnew a hmem⟩

theorem IsCopy.copiedBy_statuses (h : IsCopy ids newIds input rows rows' project lists cards) :
    CopiedBy (·.id) newIds.status
      (fun row copy => copy =
        { row with id := newIds.status row.id, projectId := newIds.project })
      ((Rows.tables rows ids).statusesOf input.sourceProjectId)
      ((Rows.tables rows' ids).statusesOf newIds.project) := by
  refine h.added.copiedBy part_status ?_ (fun _ _ hcopied => hcopied ▸ rfl)
    (h.mem_iff part_status (fun _ => List.mem_singleton_self _) (fun _ => of_decide_eq_true) ?_)
  · rw [new_statuses]
    exact forall₂_map fun _ _ => rfl
  · intro copy hcopy
    rw [new_statuses] at hcopy
    obtain ⟨row, -, rfl⟩ := List.mem_map.mp hcopy
    exact decide_eq_true rfl

theorem IsCopy.copiedBy_labels (h : IsCopy ids newIds input rows rows' project lists cards) :
    CopiedBy (·.id) newIds.label
      (fun row copy => copy = { row with id := newIds.label row.id, projectId := newIds.project })
      ((Rows.tables rows ids).labelsOf input.sourceProjectId)
      ((Rows.tables rows' ids).labelsOf newIds.project) := by
  refine h.added.copiedBy part_label ?_ (fun _ _ hcopied => hcopied ▸ rfl)
    (h.mem_iff part_label (fun _ => List.mem_singleton_self _) (fun _ => of_decide_eq_true) ?_)
  · rw [new_labels]
    exact forall₂_map fun _ _ => rfl
  · intro copy hcopy
    rw [new_labels] at hcopy
    obtain ⟨row, -, rfl⟩ := List.mem_map.mp hcopy
    exact decide_eq_true rfl

theorem IsCopy.copiedBy_boards (h : IsCopy ids newIds input rows rows' project lists cards) :
    CopiedBy (·.id) newIds.board
      (fun row copy => copy = { row with id := newIds.board row.id, projectId := newIds.project })
      ((Rows.tables rows ids).boardsOf input.sourceProjectId)
      ((Rows.tables rows' ids).boardsOf newIds.project) := by
  refine h.added.copiedBy part_board ?_ (fun _ _ hcopied => hcopied ▸ rfl)
    (h.mem_iff part_board (fun _ => List.mem_singleton_self _)
      (fun _ ha => (of_decide_eq_true ha).1) ?_)
  · rw [new_boards]
    exact forall₂_map fun _ _ => rfl
  · intro copy hcopy
    rw [new_boards] at hcopy
    obtain ⟨row, hrow, rfl⟩ := List.mem_map.mp hcopy
    have hwanted := of_decide_eq_true (List.mem_filter.mp hrow).2
    exact decide_eq_true ⟨rfl, hwanted.2⟩

/-- The copy of a list is on the copy of its board, which was copied. -/
theorem IsCopy.copiedBy_lists (h : IsCopy ids newIds input rows rows' project lists cards) :
    CopiedBy (·.id) newIds.list
      (fun row copy => copy = copyList newIds (newIds.board row.boardId) row ∧
        ∃ board ∈ (Rows.tables rows ids).boardsOf input.sourceProjectId, board.id = row.boardId)
      ((Rows.tables rows ids).listsOf input.sourceProjectId)
      ((Rows.tables rows' ids).listsOf newIds.project) := by
  have hforall := copyLists_forall₂ h.copies.lists
  refine h.added.copiedBy part_list ?_ (fun _ _ hcopied => hcopied.1 ▸ rfl)
    (h.mem_iff part_list (fun _ => List.mem_cons_self) (fun _ ha => (of_decide_eq_true ha).1) ?_)
  · rw [new_lists]
    refine hforall.imp ?_
    rintro row copy ⟨boardId, hboard, rfl⟩
    obtain ⟨hmem, rfl⟩ := idMap_get_eq_some.mp hboard
    exact ⟨rfl, List.mem_map.mp hmem⟩
  · intro copy hcopy
    rw [new_lists] at hcopy
    obtain ⟨row, hrow, boardId, -, rfl⟩ := mem_right_of_forall₂ hforall hcopy
    have hwanted := of_decide_eq_true (List.mem_filter.mp hrow).2
    exact decide_eq_true ⟨rfl, hwanted.2⟩

/-- The copy of a card is on the copies of its board and its list, which was copied. -/
def CardCopied (newIds : NewIds) (db : Tables) (input : Duplicate) (row copy : CardRow) : Prop :=
  (∃ number, copy = copyCard newIds (shapeMaps newIds db input.sourceProjectId).status
    input.userId number (newIds.list row.listId) (newIds.board row.boardId) row) ∧
  ∃ list ∈ db.listsOf input.sourceProjectId, list.id = row.listId

theorem IsCopy.copiedBy_cards (h : IsCopy ids newIds input rows rows' project lists cards) :
    CopiedBy (·.id) newIds.card (CardCopied newIds (Rows.tables rows ids) input)
      ((Rows.tables rows ids).shownCards input.sourceProjectId)
      ((Rows.tables rows' ids).shownCards newIds.project) := by
  have hforall := copyCards_forall₂ h.copies.cards
  have hordered : CopiedBy (·.id) newIds.card (CardCopied newIds (Rows.tables rows ids) input)
      ((Rows.tables rows ids).orderedCards input.sourceProjectId)
      ((Rows.tables rows' ids).shownCards newIds.project) := by
    refine h.added.copiedBy part_card ?_ ?_
      (h.mem_iff part_card (fun _ => List.mem_cons_self) (fun _ ha => (of_decide_eq_true ha).1) ?_)
    · rw [new_cards]
      refine hforall.imp ?_
      rintro row copy ⟨number, listId, boardId, hlist, hboard, rfl⟩
      obtain ⟨hmem, rfl⟩ := idMap_get_eq_some.mp hlist
      obtain ⟨-, rfl⟩ := idMap_get_eq_some.mp hboard
      exact ⟨⟨number, rfl⟩, List.mem_map.mp hmem⟩
    · rintro row copy ⟨⟨number, rfl⟩, -⟩
      rfl
    · intro copy hcopy
      rw [new_cards] at hcopy
      obtain ⟨row, hrow, number, listId, boardId, -, -, rfl⟩ := mem_right_of_forall₂ hforall hcopy
      have hshown := (List.perm_insertionSort _ _).mem_iff.mp hrow
      have hwanted := of_decide_eq_true (List.mem_filter.mp hshown).2
      exact decide_eq_true ⟨rfl, hwanted.2⟩
  -- the cards are copied in order, which changes nothing about which they are
  have hmem {card : CardRow} : card ∈ (Rows.tables rows ids).orderedCards input.sourceProjectId ↔
      card ∈ (Rows.tables rows ids).shownCards input.sourceProjectId :=
    (List.perm_insertionSort _ _).mem_iff
  constructor
  case left => exact fun row hrow => hordered.left row (hmem.mpr hrow)
  case right =>
    intro copy hcopy
    obtain ⟨row, hrow, hcopied⟩ := hordered.right copy hcopy
    exact ⟨row, hmem.mp hrow, hcopied⟩
  case renamed => exact hordered.renamed
  case injective =>
    exact fun row hrow row' hrow' => hordered.injective row (hmem.mpr hrow) row' (hmem.mpr hrow')

/-- A card of the new project is a new one. -/
theorem IsCopy.card_new (h : IsCopy ids newIds input rows rows' project lists cards) {id : Id}
    (hid : id ∈ sourceCards (Rows.tables rows' ids) newIds.project) :
    ∃ copy, copy.id = id ∧ Row.card copy ∈ copiedRows newIds (Rows.tables rows ids)
      input.sourceProjectId project lists cards := by
  obtain ⟨copy, hcopy, hid⟩ := mem_sourceCards.mp hid
  obtain ⟨row, hrow, ⟨number, rfl⟩, -⟩ := h.copiedBy_cards.right copy hcopy
  rcases (h.added.mem_iff h.wellFormed part_card).mp (List.mem_filter.mp hcopy).1 with hnew | hold
  · obtain ⟨row', hrow', hpart⟩ := List.mem_filterMap.mp hnew
    exact ⟨_, hid, Row.card?_eq_some.mp hpart ▸ hrow'⟩
  · have hlive := ((part_card).mem_iff h.wellFormed.keyed h.wellFormed.known).mp hold
    exact absurd (show _ ∈ Row.references (.card _) from List.mem_cons_self) (h.old_notMem hlive)

/-- The copy of a card is a card of the new project. -/
theorem IsCopy.mem_newCards (h : IsCopy ids newIds input rows rows' project lists cards) {id : Id}
    (hid : id ∈ sourceCards (Rows.tables rows ids) input.sourceProjectId) :
    newIds.card id ∈ sourceCards (Rows.tables rows' ids) newIds.project := by
  obtain ⟨card, hcard, rfl⟩ := mem_sourceCards.mp hid
  obtain ⟨copy, hcopy, hcopied⟩ := h.copiedBy_cards.left card hcard
  exact mem_sourceCards.mpr ⟨copy, hcopy, h.copiedBy_cards.renamed card copy hcopied⟩

/-- The checklists of the new project are the new ones. -/
theorem IsCopy.mem_checklists_iff (h : IsCopy ids newIds input rows rows' project lists cards)
    (copy : ChecklistRow) : copy ∈ (Rows.tables rows' ids).checklistsOn
      (sourceCards (Rows.tables rows' ids) newIds.project) ↔
      copy ∈ (copiedRows newIds (Rows.tables rows ids) input.sourceProjectId project lists
        cards).filterMap Row.checklist? := by
  rw [Tables.checklistsOn, List.mem_filter, decide_eq_true_iff]
  constructor
  · rintro ⟨hmem, hcard⟩
    rcases (h.added.mem_iff h.wellFormed part_checklist).mp hmem with hnew | hold
    · exact hnew
    · have hlive := ((part_checklist).mem_iff h.wellFormed.keyed h.wellFormed.known).mp hold
      obtain ⟨card, hid, hnew⟩ := h.card_new hcard
      have hnot := h.added.notMem_references h.wellFormed hnew hlive
      rw [show (Row.card card).key = Key.card card.id from rfl, hid] at hnot
      exact absurd (List.mem_singleton_self _) hnot
  · intro hnew
    refine ⟨(h.added.mem_iff h.wellFormed part_checklist).mpr (.inl hnew), ?_⟩
    rw [new_checklists] at hnew
    obtain ⟨row, -, cardId, hcard, rfl⟩ := mem_copyChecklists.mp hnew
    obtain ⟨hid, rfl⟩ := idMap_get_eq_some.mp hcard
    exact h.mem_newCards hid

theorem IsCopy.copiedBy_checklists (h : IsCopy ids newIds input rows rows' project lists cards) :
    CopiedBy (·.id) newIds.checklist
      (fun row copy => copy =
        { row with id := newIds.checklist row.id, cardId := newIds.card row.cardId })
      ((Rows.tables rows ids).checklistsOn
        (sourceCards (Rows.tables rows ids) input.sourceProjectId))
      ((Rows.tables rows' ids).checklistsOn
        (sourceCards (Rows.tables rows' ids) newIds.project)) := by
  refine h.added.copiedBy part_checklist ?_ (fun _ _ hcopied => hcopied ▸ rfl)
    h.mem_checklists_iff
  rw [new_checklists]
  have hmap : ∀ rows' : List ChecklistRow, (∀ row ∈ rows', row.cardId ∈
      sourceCards (Rows.tables rows ids) input.sourceProjectId) →
      copyChecklists newIds (idMap newIds.card
        (sourceCards (Rows.tables rows ids) input.sourceProjectId)) rows' =
        rows'.map fun row => { row with
          id := newIds.checklist row.id, cardId := newIds.card row.cardId } := by
    intro rows' hrows'
    rw [← List.filterMap_eq_map]
    refine List.filterMap_congr fun row hrow => ?_
    rw [idMap_get_eq_some.mpr ⟨hrows' row hrow, rfl⟩]
    rfl
  rw [hmap ((Rows.tables rows ids).checklistsOn _) fun row hrow =>
    of_decide_eq_true (List.mem_filter.mp hrow).2]
  exact forall₂_map fun _ _ => rfl

/-- The labels on cards, by their keys. -/
theorem mem_cardLabels (hkeyed : ∀ key, (rows key).Keyed key)
    (hknown : ∀ key row, rows key = .live row → key.within ids = true) {row : CardLabelRow} :
    row ∈ (Rows.tables rows ids).cardLabels ↔
      rows (.cardLabel row.cardId row.labelId) = .live (.cardLabel row) := by
  constructor
  · intro hmem
    obtain ⟨cardId, -, hmem⟩ := List.mem_flatMap.mp hmem
    exact live_of_mem hkeyed (fun _ _ => Row.cardLabel?_eq_some.mp) hmem
  · intro hlive
    have hwithin : row.cardId ∈ ids ∧ row.labelId ∈ ids := of_decide_eq_true (hknown _ _ hlive)
    refine List.mem_flatMap.mpr ⟨row.cardId, hwithin.1, List.mem_filterMap.mpr
      ⟨row.labelId, hwithin.2, ?_⟩⟩
    rw [hlive]
    rfl

/-- The copy of a card carries the copies of its labels. -/
theorem IsCopy.tagged_copy (h : IsCopy ids newIds input rows rows' project lists cards)
    {card : CardRow}
    (hcard : card ∈ (Rows.tables rows ids).shownCards input.sourceProjectId) :
    tagged (Rows.tables rows' ids) (newIds.card card.id) =
      newIds.label '' tagged (Rows.tables rows ids) card.id := by
  have hsource : card.id ∈ sourceCards (Rows.tables rows ids) input.sourceProjectId :=
    mem_sourceCards.mpr ⟨card, hcard, rfl⟩
  have hadded {row : CardLabelRow} : row ∈ (Rows.tables rows' ids).cardLabels ↔
      row ∈ (copiedRows newIds (Rows.tables rows ids) input.sourceProjectId project lists
        cards).filterMap Row.cardLabel? ∨ row ∈ (Rows.tables rows ids).cardLabels := by
    rw [mem_cardLabels (h.added.keyed h.wellFormed.keyed) (h.added.within h.wellFormed.known),
      mem_cardLabels h.wellFormed.keyed h.wellFormed.known,
      show Key.cardLabel row.cardId row.labelId = (Row.cardLabel row).key from rfl,
      h.added.live_iff]
    simp only [List.mem_filterMap, Row.cardLabel?_eq_some, exists_eq_right]
  ext labelId
  constructor
  · rintro ⟨row, hrow, hcardId, rfl⟩
    rcases hadded.mp hrow with hnew | hold
    · rw [new_cardLabels] at hnew
      obtain ⟨old, hold, cardId, labelId, hcardMap, hlabelMap, rfl⟩ := mem_copyCardLabels.mp hnew
      obtain ⟨hmem, rfl⟩ := idMap_get_eq_some.mp hcardMap
      obtain ⟨-, rfl⟩ := idMap_get_eq_some.mp hlabelMap
      obtain ⟨card', hcard', hid⟩ := mem_sourceCards.mp hmem
      have hsame : card' = card := h.copiedBy_cards.injective card' hcard' card hcard
        ((congrArg newIds.card hid).trans hcardId)
      exact ⟨old.labelId, ⟨old, (List.mem_filter.mp hold).1, hid.symm.trans (hsame ▸ rfl), rfl⟩,
        rfl⟩
    · have hlive := (mem_cardLabels h.wellFormed.keyed h.wellFormed.known).mp hold
      obtain ⟨copy, hid, hnew⟩ := h.card_new (h.mem_newCards hsource)
      have hnot := h.added.notMem_references h.wellFormed hnew hlive
      rw [show (Row.card copy).key = Key.card copy.id from rfl, hid, ← hcardId] at hnot
      exact absurd List.mem_cons_self hnot
  · rintro ⟨_, ⟨row, hrow, hcardId, rfl⟩, rfl⟩
    have hlive := (mem_cardLabels h.wellFormed.keyed h.wellFormed.known).mp hrow
    obtain ⟨card', label, hcard', hlabel, hproject⟩ := h.wellFormed.label _ row hlive
    have hlabelCard := ((part_card).mem_iff h.wellFormed.keyed h.wellFormed.known).mp
      (List.mem_filter.mp hcard).1
    rw [show (Row.card card).key = Key.card card.id from rfl, ← hcardId, hcard'] at hlabelCard
    obtain rfl := Row.card.inj (Slot.live.inj hlabelCard)
    have hlabelId : label.id = row.labelId := by
      have hkeyed := h.wellFormed.keyed (.label row.labelId)
      rw [hlabel] at hkeyed
      exact Key.label.inj hkeyed
    -- the label is one of the project's, so it was copied
    have hmem : label ∈ (Rows.tables rows ids).labelsOf input.sourceProjectId := by
      refine List.mem_filter.mpr ⟨?_, decide_eq_true ?_⟩
      · refine ((part_label).mem_iff h.wellFormed.keyed h.wellFormed.known).mpr ?_
        rw [show (Row.label label).key = Key.label label.id from rfl, hlabelId]
        exact hlabel
      · exact hproject.trans (of_decide_eq_true (List.mem_filter.mp hcard).2).1
    refine ⟨⟨newIds.project, newIds.card card'.id, newIds.label row.labelId⟩, hadded.mpr (.inl ?_),
      rfl, rfl⟩
    rw [new_cardLabels]
    refine mem_copyCardLabels.mpr ⟨row, List.mem_filter.mpr ⟨hrow, decide_eq_true
      (hcardId ▸ hsource)⟩, _, _, idMap_get_eq_some.mpr ⟨hcardId ▸ hsource, rfl⟩,
      idMap_get_eq_some.mpr ⟨hlabelId ▸ List.mem_map_of_mem hmem, rfl⟩, ?_⟩
    rw [hcardId]

/-! ### Which duplicates are isomorphic -/

/-- No checklist of a copied card has an item. -/
def NoItems (db : Tables) (source : Id) : Prop := db.itemsOf (sourceChecklists db source) = []

/-- A copied item is on a card of the source, so no renaming takes it to the copy. -/
theorem IsCopy.noItems (h : IsCopy ids newIds input rows rows' project lists cards) {f : NewIds}
    (hf : f.project = newIds.project)
    (hiso : Isomorphic (Rows.tables rows ids) (Rows.tables rows' ids) input.sourceProjectId f) :
    NoItems (Rows.tables rows ids) input.sourceProjectId := by
  by_contra hitems
  obtain ⟨item, hitem⟩ := List.exists_mem_of_ne_nil _ hitems
  obtain ⟨hmem, hchecklist⟩ := List.mem_filter.mp hitem
  have hsource := of_decide_eq_true hchecklist
  obtain ⟨checklist, hchecklist, hid⟩ := List.mem_map.mp hsource
  have hcopy : { item with
      id := newIds.item item.id, checklistId := newIds.checklist item.checklistId } ∈
      (Rows.tables rows' ids).itemsOf (sourceChecklists (Rows.tables rows' ids) f.project) := by
    refine List.mem_filter.mpr ⟨(h.added.mem_iff h.wellFormed part_item).mpr (.inl ?_),
      decide_eq_true ?_⟩
    · rw [new_items]
      exact mem_copyItems.mpr ⟨item, hitem, _, idMap_get_eq_some.mpr ⟨hsource, rfl⟩, rfl⟩
    · obtain ⟨copy, hcopy, hcopied⟩ := h.copiedBy_checklists.left checklist hchecklist
      rw [hf]
      exact List.mem_map.mpr ⟨copy, hcopy, by rw [hcopied, hid]⟩
  obtain ⟨_, ⟨row, hrow, rfl⟩, hrenamed⟩ := hiso.items.bijection.surjOn ⟨_, hcopy, rfl⟩
  have hcard := (hiso.items.kept row hrow _ hcopy hrenamed.symm).2.2.2.2
  rw [hf] at hcard
  obtain ⟨card, hid, hnew⟩ := h.card_new hcard
  have hlive := ((part_item).mem_iff h.wellFormed.keyed h.wellFormed.known).mp hmem
  have hnot := h.added.notMem_references h.wellFormed hnew hlive
  rw [show (Row.card card).key = Key.card card.id from rfl, hid] at hnot
  exact hnot List.mem_cons_self

theorem matches_nil {α : Type} {key : α → Id} {f : Id → Id} {kept before : α → α → Prop} :
    Matches key f kept before [] [] where
  bijection := by simp
  kept := fun _ h => absurd h List.not_mem_nil
  order := fun _ h => absurd h List.not_mem_nil

/-- Without items in the source there are none in the copy. -/
theorem IsCopy.copy_noItems (h : IsCopy ids newIds input rows rows' project lists cards)
    (hitems : NoItems (Rows.tables rows ids) input.sourceProjectId) :
    (Rows.tables rows' ids).itemsOf
      (sourceChecklists (Rows.tables rows' ids) newIds.project) = [] := by
  refine List.eq_nil_iff_forall_not_mem.mpr fun item hitem => ?_
  obtain ⟨hmem, hchecklist⟩ := List.mem_filter.mp hitem
  obtain ⟨checklist, hchecklist, hid⟩ := List.mem_map.mp (of_decide_eq_true hchecklist)
  rcases (h.added.mem_iff h.wellFormed part_item).mp hmem with hnew | hold
  · rw [new_items, show Tables.itemsOf _ _ = [] from hitems] at hnew
    exact absurd hnew List.not_mem_nil
  · have hlive := ((part_item).mem_iff h.wellFormed.keyed h.wellFormed.known).mp hold
    obtain ⟨row, hrow, hpart⟩ := List.mem_filterMap.mp ((h.mem_checklists_iff _).mp hchecklist)
    obtain rfl := Row.checklist?_eq_some.mp hpart
    have hnot := h.added.notMem_references h.wellFormed hrow hlive
    rw [show (Row.checklist checklist).key = Key.checklist checklist.id from rfl, hid] at hnot
    exact absurd (List.mem_cons_of_mem _ List.mem_cons_self) hnot

/-! The copies of two rows have one parent where the rows have. -/

theorem IsCopy.list_parent (h : IsCopy ids newIds input rows rows' project lists cards)
    {row row' copy copy' : ListRow}
    (hcopied : copy = copyList newIds (newIds.board row.boardId) row)
    (hboard : ∃ board ∈ (Rows.tables rows ids).boardsOf input.sourceProjectId,
      board.id = row.boardId)
    (hcopied' : copy' = copyList newIds (newIds.board row'.boardId) row')
    (hboard' : ∃ board ∈ (Rows.tables rows ids).boardsOf input.sourceProjectId,
      board.id = row'.boardId) : copy.boardId = copy'.boardId ↔ row.boardId = row'.boardId := by
  rw [hcopied, hcopied']
  refine ⟨fun heq => ?_, congrArg newIds.board⟩
  obtain ⟨board, hmem, hid⟩ := hboard
  obtain ⟨board', hmem', hid'⟩ := hboard'
  rw [← hid, ← hid'] at heq ⊢
  rw [h.copiedBy_boards.injective board hmem board' hmem' heq]

theorem IsCopy.card_parent (h : IsCopy ids newIds input rows rows' project lists cards)
    {row row' copy copy' : CardRow}
    (hcopied : CardCopied newIds (Rows.tables rows ids) input row copy)
    (hcopied' : CardCopied newIds (Rows.tables rows ids) input row' copy') :
    copy.listId = copy'.listId ↔ row.listId = row'.listId := by
  obtain ⟨⟨number, rfl⟩, list, hmem, hid⟩ := hcopied
  obtain ⟨⟨number', rfl⟩, list', hmem', hid'⟩ := hcopied'
  refine ⟨fun heq => ?_, congrArg newIds.list⟩
  rw [← hid, ← hid']
  have heq : newIds.list row.listId = newIds.list row'.listId := heq
  rw [← hid, ← hid'] at heq
  rw [h.copiedBy_lists.injective list hmem list' hmem' heq]

theorem IsCopy.checklist_parent (h : IsCopy ids newIds input rows rows' project lists cards)
    {row row' : ChecklistRow}
    (hrow : row.cardId ∈ sourceCards (Rows.tables rows ids) input.sourceProjectId)
    (hrow' : row'.cardId ∈ sourceCards (Rows.tables rows ids) input.sourceProjectId) :
    newIds.card row.cardId = newIds.card row'.cardId ↔ row.cardId = row'.cardId := by
  refine ⟨fun heq => ?_, congrArg newIds.card⟩
  obtain ⟨card, hmem, hid⟩ := mem_sourceCards.mp hrow
  obtain ⟨card', hmem', hid'⟩ := mem_sourceCards.mp hrow'
  rw [← hid, ← hid'] at heq ⊢
  rw [h.copiedBy_cards.injective card hmem card' hmem' heq]

/-- The copy of a card has the copy of its status. -/
theorem IsCopy.status_copy (h : IsCopy ids newIds input rows rows' project lists cards)
    {card : CardRow} (hcard : card ∈ (Rows.tables rows ids).shownCards input.sourceProjectId) :
    card.statusId.bind (shapeMaps newIds (Rows.tables rows ids)
      input.sourceProjectId).status.get = card.statusId.map newIds.status := by
  cases hstatus : card.statusId with
  | none => rfl
  | some statusId =>
    obtain ⟨hmem, hwanted⟩ := List.mem_filter.mp hcard
    have hlive := ((part_card).mem_iff h.wellFormed.keyed h.wellFormed.known).mp hmem
    obtain ⟨status, hstatusLive, hproject⟩ := h.wellFormed.status _ card statusId hlive hstatus
    have hkeyed := h.wellFormed.keyed (.status statusId)
    rw [hstatusLive] at hkeyed
    obtain rfl := Key.status.inj hkeyed
    refine idMap_get_eq_some.mpr ⟨List.mem_map_of_mem (List.mem_filter.mpr ⟨?_, ?_⟩), rfl⟩
    · exact ((part_status).mem_iff h.wellFormed.keyed h.wellFormed.known).mpr hstatusLive
    · exact decide_eq_true (hproject.trans (of_decide_eq_true hwanted).1)

/-- **A copy without items keeps everything but the order of rows of one rank.** -/
theorem IsCopy.renamed_iff (h : IsCopy ids newIds input rows rows' project lists cards) :
    Isomorphic (Rows.tables rows ids) (Rows.tables rows' ids) input.sourceProjectId newIds ↔
      NoItems (Rows.tables rows ids) input.sourceProjectId ∧
        TiesKept newIds (Rows.tables rows ids) input.sourceProjectId := by
  have hstatusParent : ∀ row ∈ (Rows.tables rows ids).statusesOf input.sourceProjectId,
      ∀ row' ∈ (Rows.tables rows ids).statusesOf input.sourceProjectId,
      row.projectId = row'.projectId := fun row hrow row' hrow' =>
    (of_decide_eq_true (List.mem_filter.mp hrow).2).trans
      (of_decide_eq_true (List.mem_filter.mp hrow').2).symm
  have hboardParent : ∀ row ∈ (Rows.tables rows ids).boardsOf input.sourceProjectId,
      ∀ row' ∈ (Rows.tables rows ids).boardsOf input.sourceProjectId,
      row.projectId = row'.projectId := fun row hrow row' hrow' =>
    (of_decide_eq_true (List.mem_filter.mp hrow).2).1.trans
      (of_decide_eq_true (List.mem_filter.mp hrow').2).1.symm
  have honCard : ∀ row ∈ (Rows.tables rows ids).checklistsOn
      (sourceCards (Rows.tables rows ids) input.sourceProjectId),
      row.cardId ∈ sourceCards (Rows.tables rows ids) input.sourceProjectId := fun row hrow =>
    of_decide_eq_true (List.mem_filter.mp hrow).2
  constructor
  · intro hiso
    refine ⟨h.noItems rfl hiso, ?_⟩
    constructor
    case statuses =>
      refine h.copiedBy_statuses.ties Int.lt_irrefl (fun _ _ hc => hc ▸ rfl) ?_ hiso.statuses
      rintro row hrow row' hrow' _ _ rfl rfl
      exact iff_of_true rfl (hstatusParent row hrow row' hrow')
    case boards =>
      refine h.copiedBy_boards.ties List.lt_irrefl (fun _ _ hc => hc ▸ rfl) ?_ hiso.boards
      rintro row hrow row' hrow' _ _ rfl rfl
      exact iff_of_true rfl (hboardParent row hrow row' hrow')
    case lists =>
      refine h.copiedBy_lists.ties List.lt_irrefl (fun _ _ hc => hc.1 ▸ rfl) ?_ hiso.lists
      exact fun _ _ _ _ _ _ hc hc' => h.list_parent hc.1 hc.2 hc'.1 hc'.2
    case cards =>
      refine h.copiedBy_cards.ties List.lt_irrefl ?_ ?_ hiso.cards
      · rintro _ _ ⟨⟨number, rfl⟩, -⟩
        rfl
      · exact fun _ _ _ _ _ _ hc hc' => h.card_parent hc hc'
    case checklists =>
      refine h.copiedBy_checklists.ties List.lt_irrefl (fun _ _ hc => hc ▸ rfl) ?_ hiso.checklists
      rintro row hrow row' hrow' _ _ rfl rfl
      exact h.checklist_parent (honCard row hrow) (honCard row' hrow')
  · rintro ⟨hitems, hties⟩
    constructor
    case statuses =>
      refine h.copiedBy_statuses.matches ?_ fun row hrow row' hrow' _ _ =>
        h.copiedBy_statuses.order (fun _ _ hc => hc ▸ rfl) ?_ hties.statuses hrow hrow'
      · rintro row - _ - rfl
        exact ⟨rfl, rfl, rfl, rfl⟩
      · rintro row hrow row' hrow' _ _ rfl rfl
        exact iff_of_true rfl (hstatusParent row hrow row' hrow')
    case labels =>
      refine h.copiedBy_labels.matches ?_ fun _ _ _ _ _ _ _ _ => Iff.rfl
      rintro row - _ - rfl
      exact ⟨rfl, rfl⟩
    case boards =>
      refine h.copiedBy_boards.matches ?_ fun row hrow row' hrow' _ _ =>
        h.copiedBy_boards.order (fun _ _ hc => hc ▸ rfl) ?_ hties.boards hrow hrow'
      · rintro row - _ - rfl
        rfl
      · rintro row hrow row' hrow' _ _ rfl rfl
        exact iff_of_true rfl (hboardParent row hrow row' hrow')
    case lists =>
      refine h.copiedBy_lists.matches ?_ fun row hrow row' hrow' _ _ =>
        h.copiedBy_lists.order (fun _ _ hc => hc.1 ▸ rfl) ?_ hties.lists hrow hrow'
      · rintro row - _ - ⟨rfl, -⟩
        exact ⟨rfl, rfl⟩
      · exact fun _ _ _ _ _ _ hc hc' => h.list_parent hc.1 hc.2 hc'.1 hc'.2
    case cards =>
      refine h.copiedBy_cards.matches ?_ fun row hrow row' hrow' _ _ =>
        h.copiedBy_cards.order ?_ ?_ hties.cards hrow hrow'
      · rintro row hrow _ - ⟨⟨number, rfl⟩, -⟩
        exact ⟨rfl, rfl, rfl, h.status_copy hrow, h.tagged_copy hrow⟩
      · rintro _ _ ⟨⟨number, rfl⟩, -⟩
        rfl
      · exact fun _ _ _ _ _ _ hc hc' => h.card_parent hc hc'
    case checklists =>
      refine h.copiedBy_checklists.matches ?_ fun row hrow row' hrow' _ _ =>
        h.copiedBy_checklists.order (fun _ _ hc => hc ▸ rfl) ?_ hties.checklists hrow hrow'
      · rintro row - _ - rfl
        exact ⟨rfl, rfl⟩
      · rintro row hrow row' hrow' _ _ rfl rfl
        exact h.checklist_parent (honCard row hrow) (honCard row' hrow')
    case items =>
      rw [show Tables.itemsOf _ _ = [] from hitems, h.copy_noItems hitems]
      exact matches_nil

end

/-- **A duplicate is isomorphic to its source, by the map from each row to its copy, just when
no copied checklist has an item and rows of one rank keep their order.**  Where there is an
item no renaming at all is an isomorphism.  The source's rows do not change. -/
theorem isomorphic_iff {ids : List Id} {newIds : NewIds} {input : Duplicate} {rows rows' : Rows}
    {i : Int} {notes : List Note} (hrows : WellFormed ids rows)
    (hcards : input.includeCards = true)
    (halone : alone i (calls ids (.duplicateProject newIds input)) true [] rows =
      some (rows', notes)) (hdone : notes ≠ []) :
    (∀ key, rows key ≠ .empty → rows' key = rows key) ∧
    (Isomorphic (Rows.tables rows ids) (Rows.tables rows' ids) input.sourceProjectId newIds ↔
      NoItems (Rows.tables rows ids) input.sourceProjectId ∧
        TiesKept newIds (Rows.tables rows ids) input.sourceProjectId) ∧
    ∀ f : NewIds, f.project = newIds.project →
      Isomorphic (Rows.tables rows ids) (Rows.tables rows' ids) input.sourceProjectId f →
      NoItems (Rows.tables rows ids) input.sourceProjectId := by
  rcases added_of_alone hrows.keyed hcards halone with ⟨hnone, -⟩ | hadded
  · exact absurd hnone hdone
  obtain ⟨project, lists, cards, hid, hcopies, hadded⟩ := hadded
  have hcopy : IsCopy ids newIds input rows rows' project lists cards :=
    ⟨hrows, hid, hcopies, hadded⟩
  refine ⟨?_, hcopy.renamed_iff, fun f hf hiso => hcopy.noItems hf hiso⟩
  intro key hkey
  refine hadded.other key fun row hrow heq => hkey ?_
  rw [← heq]
  exact hadded.fresh row hrow

/-- These rows, each under its key. -/
def rowsOf (base : List Row) (key : Key) : Slot :=
  match base.find? fun row => row.key = key with
  | some row => .live row
  | none => .empty

theorem rowsOf_live {base : List Row} {key : Key} {row : Row} (h : rowsOf base key = .live row) :
    row ∈ base ∧ row.key = key := by
  unfold rowsOf at h
  split at h
  · next row' hfind =>
    obtain rfl := Slot.live.inj h
    exact ⟨List.mem_of_find?_eq_some hfind, by simpa using List.find?_some hfind⟩
  · cases h

/-- Each row is known, and what it refers to is there. -/
theorem wellFormed_rowsOf {ids : List Id} {base : List Row}
    (hknown : ∀ row ∈ base, row.key.within ids = true)
    (hreferences : ∀ row ∈ base, ∀ ref ∈ row.references, rowsOf base ref ≠ .empty)
    (hstatus : ∀ row ∈ base, ∀ card ∈ row.card?, ∀ statusId ∈ card.statusId,
      ∃ status ∈ base.filterMap Row.status?,
        rowsOf base (.status statusId) = .live (.status status) ∧
        status.projectId = card.projectId)
    (hlabel : ∀ row ∈ base, ∀ tag ∈ row.cardLabel?,
      ∃ card ∈ base.filterMap Row.card?, ∃ label ∈ base.filterMap Row.label?,
        rowsOf base (.card tag.cardId) = .live (.card card) ∧
        rowsOf base (.label tag.labelId) = .live (.label label) ∧
        label.projectId = card.projectId) : WellFormed ids (rowsOf base) where
  keyed := by
    intro key
    cases hslot : rowsOf base key with
    | empty => trivial
    | live row => exact (rowsOf_live hslot).2
    | deleted row =>
      unfold rowsOf at hslot
      split at hslot <;> cases hslot
  known := by
    intro key row hlive
    obtain ⟨hmem, rfl⟩ := rowsOf_live hlive
    exact hknown row hmem
  references := fun key row hlive => hreferences row (rowsOf_live hlive).1
  status := by
    intro key card statusId hlive hid
    obtain ⟨status, -, hstatus⟩ := hstatus _ (rowsOf_live hlive).1 card rfl statusId hid
    exact ⟨status, hstatus⟩
  label := by
    intro key tag hlive
    obtain ⟨card, -, label, -, hlabel⟩ := hlabel _ (rowsOf_live hlive).1 tag rfl
    exact ⟨card, label, hlabel⟩

/-- A project with a card, which has a status, a label and a checklist. -/
def sampleRows : List Row :=
  [.project ⟨"p", "P", "P", none, 2, none, "u"⟩,
    .status ⟨"s", "p", "To do", "todo", "gray", 0, true⟩,
    .label ⟨"t", "p", "T", "red"⟩,
    .board ⟨"b", "p", "B", ['a', '0'], none, none⟩,
    .list ⟨"l", "p", "b", "L", ['a', '0'], none, none, none⟩,
    .card ⟨"c", "p", "b", "l", 1, "C", ['a', '0'], some "s", none, 0, 0, 0, none, none, "u"⟩,
    .cardLabel ⟨"p", "c", "t"⟩,
    .checklist ⟨"k", "c", "K", ['a', '0']⟩]

/-- An item of its checklist. -/
def sampleItem : Row := .checklistItem ⟨"i", "c", "k", "I", ['a', '0'], false, none, none⟩

def sampleIds : List Id :=
  ["p", "s", "t", "b", "l", "c", "k", "i", "p'", "s'", "t'", "b'", "l'", "c'", "k'", "i'"]

/-- The whole sample, copied under primed ids. -/
def wholeSample : Duplicate := ⟨"p", "Q", "Q", true, "u", true⟩

theorem isomorphic_iff_sample :
    ∃ rows' notes, alone 0 (calls sampleIds (.duplicateProject primed wholeSample)) true []
        (rowsOf sampleRows) = some (rows', notes) ∧
      Isomorphic (Rows.tables (rowsOf sampleRows) sampleIds) (Rows.tables rows' sampleIds) "p"
        primed := by
  have hsome : ((alone 0 (calls sampleIds (.duplicateProject primed wholeSample)) true []
      (rowsOf sampleRows)).map fun r => r.2.isEmpty) = some false := by decide +kernel
  obtain ⟨⟨rows', notes⟩, halone, hnotes⟩ := Option.map_eq_some_iff.mp hsome
  have hwellFormed : WellFormed sampleIds (rowsOf sampleRows) :=
    wellFormed_rowsOf (by decide) (by decide) (by decide)
      (by decide)
  refine ⟨rows', notes, halone,
    (isomorphic_iff hwellFormed rfl halone (by rintro rfl; cases hnotes)).2.1.mpr ⟨?_, ?_⟩⟩
  · unfold NoItems
    decide
  · exact ⟨by unfold Ties; decide, by unfold Ties; decide,
      by unfold Ties; decide, by unfold Ties; decide,
      by unfold Ties; decide⟩

/-- **The copy of an item is on the source's card**, so no renaming of the source's rows is an
isomorphism. -/
theorem item_keeps_its_card :
    ∃ rows' notes, alone 0 (calls sampleIds (.duplicateProject primed wholeSample)) true []
        (rowsOf (sampleItem :: sampleRows)) = some (rows', notes) ∧ notes ≠ [] ∧
      (Rows.checklistItem rows' "i'").map (·.cardId) = some "c" ∧
      ∀ f : NewIds, f.project = "p'" →
        ¬Isomorphic (Rows.tables (rowsOf (sampleItem :: sampleRows)) sampleIds)
          (Rows.tables rows' sampleIds) "p" f := by
  have hsome : ((alone 0 (calls sampleIds (.duplicateProject primed wholeSample)) true []
      (rowsOf (sampleItem :: sampleRows))).map fun r =>
        (r.2.isEmpty, (Rows.checklistItem r.1 "i'").map (·.cardId))) =
      some (false, some "c") := by decide +kernel
  obtain ⟨⟨rows', notes⟩, halone, hresult⟩ := Option.map_eq_some_iff.mp hsome
  obtain ⟨hnotes, hitem⟩ := Prod.mk.inj hresult
  have hdone : notes ≠ [] := by
    rintro rfl
    cases hnotes
  have hwellFormed : WellFormed sampleIds (rowsOf (sampleItem :: sampleRows)) :=
    wellFormed_rowsOf (by decide) (by decide) (by decide)
      (by decide)
  refine ⟨rows', notes, halone, hdone, hitem, fun f hf hiso => ?_⟩
  rcases added_of_alone hwellFormed.keyed rfl halone with ⟨hnone, -⟩ | hadded
  · exact hdone hnone
  obtain ⟨project, lists, cards, hid, hcopies, hadded⟩ := hadded
  have hcopy : IsCopy sampleIds primed wholeSample (rowsOf (sampleItem :: sampleRows)) rows'
      project lists cards := ⟨hwellFormed, hid, hcopies, hadded⟩
  refine absurd (hcopy.noItems hf hiso) ?_
  unfold NoItems
  decide

end ProjectCopy
end TaskFlow
