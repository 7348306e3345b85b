import TaskFlow.WorkLogic

/-! # What a duplicate adds

A duplicate that runs while no other call is under way reads the source as it was before the
call, whatever it has inserted meanwhile: its own rows belong to the new project.  So it adds
the rows that `copiedRows` makes of the source's, and changes no row that was there
(`added_of_alone`).
-/
namespace TaskFlow
namespace ProjectCopy
open ReadCommitted ReadCommitted.Script ReadCommitted.Procedure WorkTables WorkScripts

/-! ### The rows added -/

/-- The cards a duplicate copies. -/
def sourceCards (db : Tables) (source : Id) : List Id := (db.orderedCards source).map (·.id)

/-- The checklists a duplicate copies. -/
def sourceChecklists (db : Tables) (source : Id) : List Id :=
  (db.checklistsOn (sourceCards db source)).map (·.id)

/-- The rows of the copy's shape. -/
def shapeRows (newIds : NewIds) (db : Tables) (source : Id) (lists : List ListRow) : List Row :=
  (copyStatuses newIds (db.statusesOf source)).map .status ++
    (copyLabels newIds (db.labelsOf source)).map .label ++
    (copyFields newIds (db.fieldsOf source)).map .field ++
    (copyBoards newIds (db.boardsOf source)).map .board ++ lists.map .list

/-- The maps of the rows of the shape. -/
def shapeMaps (newIds : NewIds) (db : Tables) (source : Id) : Maps where
  board := idMap newIds.board ((db.boardsOf source).map (·.id))
  list := idMap newIds.list ((db.listsOf source).map (·.id))
  status := idMap newIds.status ((db.statusesOf source).map (·.id))
  label := idMap newIds.label ((db.labelsOf source).map (·.id))
  field := idMap newIds.field ((db.fieldsOf source).map (·.id))

/-- The rows that hang on the copies of the cards. -/
def detailRows (newIds : NewIds) (db : Tables) (source : Id) : List Row :=
  let cardMap := idMap newIds.card (sourceCards db source)
  let maps := shapeMaps newIds db source
  (copyCardLabels newIds cardMap maps.label (db.labelsOn (sourceCards db source))).map
      .cardLabel ++
    (copyValues newIds cardMap maps.field (db.valuesOn (sourceCards db source))).map
      .fieldValue ++
    (copyChecklists newIds cardMap (db.checklistsOn (sourceCards db source))).map .checklist ++
    (copyItems newIds (idMap newIds.checklist (sourceChecklists db source))
      (db.itemsOf (sourceChecklists db source))).map .checklistItem

/-- The rows of a copy of `source`, with the copies of its lists and its cards. -/
def copiedRows (newIds : NewIds) (db : Tables) (source : Id) (project : ProjectRow)
    (lists : List ListRow) (cards : List CardRow) : List Row :=
  .project project :: (shapeRows newIds db source lists ++ cards.map .card ++
    detailRows newIds db source)

/-- Rows are added under unused keys, and nothing else changes. -/
structure Added (ids : List Id) (new : List Row) (rows rows' : Rows) : Prop where
  known : ∀ row ∈ new, row.key.within ids = true
  nodup : (new.map Row.key).Nodup
  fresh : ∀ row ∈ new, rows row.key = .empty
  live : ∀ row ∈ new, rows' row.key = .live row
  other : ∀ key, (∀ row ∈ new, row.key ≠ key) → rows' key = rows key

/-- The copies of the lists and of the cards, where none has outlived what it is on. -/
structure Copies (newIds : NewIds) (db : Tables) (input : Duplicate) (lists : List ListRow)
    (cards : List CardRow) : Prop where
  lists : copyLists newIds (shapeMaps newIds db input.sourceProjectId).board
    (db.listsOf input.sourceProjectId) = .ok lists
  cards : copyCards newIds (shapeMaps newIds db input.sourceProjectId).board
    (shapeMaps newIds db input.sourceProjectId).list
    (shapeMaps newIds db input.sourceProjectId).status input.userId 0
    (db.orderedCards input.sourceProjectId) = .ok cards

/-- The copy of `input`'s source is added. -/
def CopyAdded (ids : List Id) (newIds : NewIds) (input : Duplicate) (rows rows' : Rows) : Prop :=
  ∃ project lists cards, project.id = newIds.project ∧
    Copies newIds (Rows.tables rows ids) input lists cards ∧
    Added ids (copiedRows newIds (Rows.tables rows ids) input.sourceProjectId project lists
      cards) rows rows'

/-! ### What the queries see -/

/-- The row is no answer to a query about the source. -/
def Foreign (db : Tables) (source : Id) : Row → Prop
  | .project row => row.id ≠ source
  | .status row => row.projectId ≠ source
  | .label row => row.projectId ≠ source
  | .field row => row.projectId ≠ source
  | .board row => row.projectId ≠ source
  | .list row => row.projectId ≠ source
  | .card row => row.projectId ≠ source
  | .cardLabel row => row.cardId ∉ sourceCards db source
  | .fieldValue row => row.cardId ∉ sourceCards db source
  | .checklist row => row.cardId ∉ sourceCards db source
  | .checklistItem row => row.checklistId ∉ sourceChecklists db source
  | .comment _ => True

/-- The queries of a duplicate have the same answers. -/
structure SameReads (source : Id) (db db' : Tables) : Prop where
  statuses : db'.statusesOf source = db.statusesOf source
  labels : db'.labelsOf source = db.labelsOf source
  fields : db'.fieldsOf source = db.fieldsOf source
  boards : db'.boardsOf source = db.boardsOf source
  lists : db'.listsOf source = db.listsOf source
  cards : db'.orderedCards source = db.orderedCards source
  cardLabels : db'.labelsOn (sourceCards db source) = db.labelsOn (sourceCards db source)
  values : db'.valuesOn (sourceCards db source) = db.valuesOn (sourceCards db source)
  checklists : db'.checklistsOn (sourceCards db source) =
    db.checklistsOn (sourceCards db source)
  items : db'.itemsOf (sourceChecklists db source) = db.itemsOf (sourceChecklists db source)

/-- The call has drafted these rows, and none of them is an answer about the source. -/
structure Draft {S : Type} (ids : List Id) (rows : Rows) (source : Id) (new : List Row)
    (t : Transaction Key Slot) (σ : Shared S Key Slot Note) : Prop where
  base : σ.rows = rows
  drafted : Drafted ids new t σ
  foreign : ∀ row ∈ new, Foreign (Rows.tables rows ids) source row

section
variable {S : Type} {t : Transaction Key Slot} {σ : Shared S Key Slot Note} {ids : List Id}
  {rows : Rows} {source : Id} {new : List Row}

/-- Rows that a query does not want do not change its answer. -/
theorem filterMap_view (h : Draft ids rows source new t σ) {α : Type} {part : Row → Option α}
    {keyOf : Id → Key} {wanted : α → Bool}
    (hforeign : ∀ row a, part row = some a → Foreign (Rows.tables rows ids) source row →
      wanted a = false) :
    (ids.filterMap fun id => (t.view σ (keyOf id)).row?.bind part).filter wanted =
      (ids.filterMap fun id => (rows (keyOf id)).row?.bind part).filter wanted := by
  rw [List.filter_filterMap, List.filter_filterMap]
  congr 1
  funext id
  rw [← h.base]
  by_cases hmem : ∃ row ∈ new, row.key = keyOf id
  · obtain ⟨row, hrow, hkey⟩ := hmem
    rw [← hkey, h.drafted.fresh row hrow, h.drafted.view row hrow]
    cases hpart : part row with
    | none => simp [Slot.row?, hpart]
    | some a =>
      simp [Slot.row?, hpart, Option.filter, hforeign row a hpart (h.foreign row hrow)]
  · rw [h.drafted.view_other fun row hrow hkey => hmem ⟨row, hrow, hkey⟩]

/-- The same for a table with a key of two ids. -/
theorem flatMap_view (h : Draft ids rows source new t σ) {α : Type} {part : Row → Option α}
    {keyOf : Id → Id → Key} {wanted : α → Bool}
    (hforeign : ∀ row a, part row = some a → Foreign (Rows.tables rows ids) source row →
      wanted a = false) :
    (ids.flatMap fun id => ids.filterMap fun id' =>
        (t.view σ (keyOf id id')).row?.bind part).filter wanted =
      (ids.flatMap fun id => ids.filterMap fun id' =>
        (rows (keyOf id id')).row?.bind part).filter wanted := by
  rw [List.filter_flatMap, List.filter_flatMap]
  congr 1
  funext id
  exact filterMap_view h hforeign

/-- **What a duplicate has drafted does not change what it reads.** -/
theorem Draft.reads (h : Draft ids rows source new t σ) :
    SameReads source (Rows.tables rows ids) (Rows.tables (t.view σ) ids) where
  statuses := by
    refine filterMap_view h fun row a ha hforeign => ?_
    cases row <;> simp_all [Row.status?, Foreign]
  labels := by
    refine filterMap_view h fun row a ha hforeign => ?_
    cases row <;> simp_all [Row.label?, Foreign]
  fields := by
    refine filterMap_view h fun row a ha hforeign => ?_
    cases row <;> simp_all [Row.field?, Foreign]
  boards := by
    refine filterMap_view h fun row a ha hforeign => ?_
    cases row <;> simp_all [Row.board?, Foreign]
  lists := by
    refine filterMap_view h fun row a ha hforeign => ?_
    cases row <;> simp_all [Row.list?, Foreign]
  cards := by
    refine congrArg (List.insertionSort _) (filterMap_view h fun row a ha hforeign => ?_)
    cases row <;> simp_all [Row.card?, Foreign]
  cardLabels := by
    refine flatMap_view h fun row a ha hforeign => ?_
    cases row <;> simp_all [Row.cardLabel?, Foreign]
  values := by
    refine flatMap_view h fun row a ha hforeign => ?_
    cases row <;> simp_all [Row.fieldValue?, Foreign]
  checklists := by
    refine filterMap_view h fun row a ha hforeign => ?_
    cases row <;> simp_all [Row.checklist?, Foreign]
  items := by
    refine filterMap_view h fun row a ha hforeign => ?_
    cases row <;> simp_all [Row.checklistItem?, Foreign]

end

/-! ### The call, statement by statement -/

/-- A session that runs alone relies on nothing changing. -/
def unshared (ids : List Id) (newIds : NewIds) (input : Duplicate) (rows : Rows) :
    Discipline Unit Key Slot Label Int Note where
  inv σ := σ.log = [] ∧ σ.rows = rows ∨ CopyAdded ids newIds input rows σ.rows
  guarantee _ _ _ _ _ := True
  rely _ _ σ σ' := σ' = σ
  condition := {}

/-- A row that a query finds is under its key. -/
theorem live_of_mem {ids : List Id} {rows : Rows} (hkeyed : ∀ key, (rows key).Keyed key)
    {α : Type} {part : Row → Option α} {whole : α → Row} {keyOf : Id → Key}
    (hpart : ∀ row a, part row = some a → row = whole a) {a : α}
    (h : a ∈ ids.filterMap fun id => (rows (keyOf id)).row?.bind part) :
    rows (whole a).key = .live (whole a) := by
  obtain ⟨id, -, ha⟩ := List.mem_filterMap.mp h
  obtain ⟨row, hrow, ha⟩ := Option.bind_eq_some_iff.mp ha
  obtain rfl := hpart row a ha
  have hlive := Slot.row?_eq_some.mp hrow
  have hkey := hkeyed (keyOf id)
  rw [hlive] at hkey
  rw [show (whole a).key = keyOf id from hkey]
  exact hlive

theorem mem_sourceCards {db : Tables} {source id : Id} :
    id ∈ sourceCards db source ↔ ∃ card ∈ db.shownCards source, card.id = id := by
  simp only [sourceCards, Tables.orderedCards, List.mem_map,
    (List.perm_insertionSort _ _).mem_iff]

section
variable {s : Unit} {ids : List Id} {newIds : NewIds} {input : Duplicate} {rows : Rows}
  {source : Id} {new more : List Row} {α β : Type} {Q : β → Assertion Unit Key Slot Note}

theorem draft_stable :
    Stable (unshared ids newIds input rows) s (Draft ids rows source new) := by
  rintro t σ _ h rfl _
  exact h

/-- A query, answered from the source. -/
theorem triple_read {query : Tables → α} {rest : α → Procedure β}
    (hquery : ∀ db', SameReads source (Rows.tables rows ids) db' →
      query db' = query (Rows.tables rows ids))
    (hrest : Triple (unshared ids newIds input rows) s (Draft ids rows source new)
      (rest (query (Rows.tables rows ids))) Q) :
    Triple (unshared ids newIds input rows) s (Draft ids rows source new)
      (selectRows ids query >>= rest) Q := by
  refine Triple.bind (Q := fun a t σ => a = query (Rows.tables rows ids) ∧
    Draft ids rows source new t σ) (triple_select draft_stable ?_) fun a => ?_
  · intro t σ h _ _ _ _
    exact ⟨hquery _ h.reads, h⟩
  · rintro next hnext t σ ⟨rfl, h⟩
    exact hrest next hnext t σ h

/-- Inserts, of rows that are no answer about the source. -/
theorem triple_insertMore {rest : Unit → Procedure β}
    (hforeign : ∀ t σ, Draft (S := Unit) ids rows source new t σ →
      ∀ row ∈ more, Foreign (Rows.tables rows ids) source row)
    (hrest : Triple (unshared ids newIds input rows) s (Draft ids rows source (new ++ more))
      (rest ()) Q) :
    Triple (unshared ids newIds input rows) s (Draft ids rows source new)
      (insertAll ids more >>= rest) Q := by
  intro next hnext t σ h
  have hmore := hforeign t σ h
  have hloop : Triple (unshared ids newIds input rows) s
      (fun t σ => ∃ done, more = done ++ more ∧ Draft ids rows source (new ++ done) t σ)
      (insertAll ids more) fun _ t σ =>
        ∃ done, more = done ++ [] ∧ Draft ids rows source (new ++ done) t σ := by
    refine triple_insertAll (P := fun rest t σ =>
      ∃ done, more = done ++ rest ∧ Draft ids rows source (new ++ done) t σ) ?_ ?_
    · rintro rest t σ _ h rfl _
      exact h
    · rintro row rest t σ ⟨done, hdone, h⟩ _ hwithin hfree
      have hperm : (row :: (new ++ done)).Perm (new ++ (done ++ [row])) := by
        rw [← List.append_assoc]
        exact (List.perm_append_singleton _ _).symm
      have hrow : row ∈ more := hdone ▸ List.mem_append_right done List.mem_cons_self
      refine ⟨done ++ [row], by rw [hdone, List.append_cons], h.base,
        (h.drafted.insert hwithin (insertable_empty hfree)).perm hperm, ?_⟩
      intro other hother
      rcases List.mem_cons.mp (hperm.mem_iff.mpr hother) with rfl | hold
      · exact hmore other hrow
      · exact h.foreign other hold
  refine (hloop.bind fun _ => ?_) next hnext t σ ⟨[], rfl, by rw [List.append_nil]; exact h⟩
  rintro next hnext t σ ⟨done, hdone, h⟩
  rw [List.append_nil] at hdone
  exact hrest next hnext t σ (hdone ▸ h)

/-- A value that may be missing, when it is there. -/
theorem triple_some {P : Assertion Unit Key Slot Note} {value : Option α}
    {rest : α → Procedure β}
    (hrest : ∀ a, value = some a → Triple (unshared ids newIds input rows) s P (rest a) Q) :
    Triple (unshared ids newIds input rows) s P (ofOption value >>= rest) Q := by
  refine Triple.bind (Q := fun a t σ => value = some a ∧ P t σ)
    (triple_ofOption fun a t σ ha h => ⟨ha, h⟩) fun a => ?_
  rintro next hnext t σ ⟨ha, h⟩
  exact hrest a ha next hnext t σ h

theorem ok_of_toOption {ε : Type} {result : Except ε α} {a : α}
    (h : result.toOption = some a) : result = .ok a := by
  cases result with
  | error => exact absurd h (by simp [Except.toOption])
  | ok a' => rw [Option.some.inj h]

/-- The copy's project is not the source. -/
theorem Draft.project_ne {project : ProjectRow} {t : Transaction Key Slot}
    {σ : Shared Unit Key Slot Note} (h : Draft ids rows source (.project project :: new) t σ)
    (hid : project.id = newIds.project) : newIds.project ≠ source :=
  hid ▸ h.foreign _ List.mem_cons_self

/-- The shape of the copy is drafted. -/
def ShapeDrafted (ids : List Id) (newIds : NewIds) (source : Id) (rows : Rows) (maps : Maps)
    (t : Transaction Key Slot) (σ : Shared Unit Key Slot Note) : Prop :=
  let db := Rows.tables rows ids
  maps = shapeMaps newIds db source ∧ ∃ project lists, project.id = newIds.project ∧
    copyLists newIds maps.board (db.listsOf source) = .ok lists ∧
    Draft ids rows source (.project project :: shapeRows newIds db source lists) t σ

theorem triple_shape (hkeyed : ∀ key, (rows key).Keyed key) :
    Triple (unshared ids newIds input rows) s (fun t σ => t = .none ∧ σ.rows = rows)
      (copyShape ids newIds input) (ShapeDrafted ids newIds input.sourceProjectId rows) := by
  have hstable : Stable (unshared ids newIds input rows) s
      fun t σ => t = .none ∧ σ.rows = rows := by
    rintro t σ _ h rfl _
    exact h
  refine Triple.bind (Q := fun source t σ => (t = .none ∧ σ.rows = rows) ∧
    source = (Rows.tables rows ids).project input.sourceProjectId) ?_ ?_
  · refine triple_select hstable ?_
    rintro t σ ⟨rfl, rfl⟩ _ _ _ _
    exact ⟨⟨rfl, rfl⟩, rfl⟩
  intro source next hnext t σ ⟨hbase, hsource⟩
  refine triple_some (P := fun t σ => t = .none ∧ σ.rows = rows) (fun source' hsome => ?_)
    next hnext t σ hbase
  have hlive : rows (.project input.sourceProjectId) ≠ .empty := by
    rw [hsource] at hsome
    have hmem := List.mem_of_find?_eq_some hsome
    have hfound := List.find?_some (show List.find? _ _ = some source' from hsome)
    have hid := (of_decide_eq_true hfound).1
    have hrow : rows (.project source'.id) = _ :=
      live_of_mem hkeyed (fun _ _ => Row.project?_eq_some.mp) hmem
    rw [← hid, hrow]
    simp
  refine Triple.bind (Q := fun _ t σ => t = .none ∧ σ.rows = rows)
    (triple_require fun _ _ h _ => h) fun _ => ?_
  refine Triple.bind (Q := fun _ t σ => t = .none ∧ σ.rows = rows)
    (triple_select hstable fun _ _ h _ _ _ _ => h) fun description => ?_
  refine Triple.bind (Q := fun _ => Draft ids rows input.sourceProjectId
    [.project ⟨newIds.project, input.name, input.key, description, 1, none, input.userId⟩])
    (triple_insertUnique hstable ?_) fun _ => ?_
  · rintro t σ ⟨rfl, hrows⟩ _ hwithin hfree
    have hempty := insertable_empty hfree
    refine ⟨hrows, drafted_none.insert hwithin hempty, ?_⟩
    intro row hrow
    obtain rfl := List.mem_singleton.mp hrow
    rw [Transaction.view_none, hrows] at hempty
    intro hid
    exact hlive (hid ▸ hempty)
  refine triple_read (fun _ h => h.statuses) (triple_insertMore ?_ ?_)
  · intro t σ h row hrow
    obtain ⟨copy, hcopy, rfl⟩ := List.mem_map.mp hrow
    obtain ⟨status, -, rfl⟩ := List.mem_map.mp hcopy
    exact h.project_ne rfl
  refine triple_read (fun _ h => h.labels) (triple_insertMore ?_ ?_)
  · intro t σ h row hrow
    obtain ⟨copy, hcopy, rfl⟩ := List.mem_map.mp hrow
    obtain ⟨label, -, rfl⟩ := List.mem_map.mp hcopy
    exact h.project_ne rfl
  refine triple_read (fun _ h => h.fields) (triple_insertMore ?_ ?_)
  · intro t σ h row hrow
    obtain ⟨copy, hcopy, rfl⟩ := List.mem_map.mp hrow
    obtain ⟨field, -, rfl⟩ := List.mem_map.mp hcopy
    exact h.project_ne rfl
  refine triple_read (fun _ h => h.boards) (triple_insertMore ?_ ?_)
  · intro t σ h row hrow
    obtain ⟨copy, hcopy, rfl⟩ := List.mem_map.mp hrow
    obtain ⟨board, -, rfl⟩ := List.mem_map.mp hcopy
    exact h.project_ne rfl
  refine triple_read (fun _ h => h.lists) (triple_some fun lists hlists => triple_insertMore ?_ ?_)
  · intro t σ h row hrow
    obtain ⟨copy, hcopy, rfl⟩ := List.mem_map.mp hrow
    obtain ⟨list, -, boardId, -, rfl⟩ :=
      mem_right_of_forall₂ (copyLists_forall₂ (ok_of_toOption hlists)) hcopy
    exact h.project_ne rfl
  exact triple_pure fun t σ h => ⟨rfl, _, lists, rfl, ok_of_toOption hlists, h⟩

/-- The new id of a card is no card of the source: the copy's key was free. -/
theorem Draft.newCard_notMem (hkeyed : ∀ key, (rows key).Keyed key) {t : Transaction Key Slot}
    {σ : Shared Unit Key Slot Note} (h : Draft ids rows source new t σ) {id : Id}
    (hcopy : ∃ copy, copy.id = id ∧ Row.card copy ∈ new) :
    id ∉ sourceCards (Rows.tables rows ids) source := by
  obtain ⟨copy, rfl, hnew⟩ := hcopy
  intro hmem
  obtain ⟨card, hcard, hid⟩ := mem_sourceCards.mp hmem
  have hlive : rows (.card card.id) = _ :=
    live_of_mem hkeyed (fun _ _ => Row.card?_eq_some.mp) (List.mem_filter.mp hcard).1
  have hfree : σ.rows (.card copy.id) = _ := h.drafted.fresh _ hnew
  rw [h.base, ← hid, hlive] at hfree
  exact absurd hfree (by simp)

/-- The same for checklists. -/
theorem Draft.newChecklist_notMem (hkeyed : ∀ key, (rows key).Keyed key)
    {t : Transaction Key Slot} {σ : Shared Unit Key Slot Note}
    (h : Draft ids rows source new t σ) {id : Id}
    (hcopy : ∃ copy, copy.id = id ∧ Row.checklist copy ∈ new) :
    id ∉ sourceChecklists (Rows.tables rows ids) source := by
  obtain ⟨copy, rfl, hnew⟩ := hcopy
  intro hmem
  obtain ⟨checklist, hchecklist, hid⟩ := List.mem_map.mp hmem
  have hlive : rows (.checklist checklist.id) = _ :=
    live_of_mem hkeyed (fun _ _ => Row.checklist?_eq_some.mp) (List.mem_filter.mp hchecklist).1
  have hfree : σ.rows (.checklist copy.id) = _ := h.drafted.fresh _ hnew
  rw [h.base, ← hid, hlive] at hfree
  exact absurd hfree (by simp)

/-- The items of the copied checklists. -/
theorem triple_items (hkeyed : ∀ key, (rows key).Keyed key) {input : Duplicate}
    (hcopy : ∀ id ∈ sourceChecklists (Rows.tables rows ids) source,
      ∃ copy, copy.id = newIds.checklist id ∧ Row.checklist copy ∈ new) :
    Triple (unshared ids newIds input rows) s (Draft ids rows source new)
      (copyItemsOf ids newIds (sourceChecklists (Rows.tables rows ids) source))
      fun _ => Draft ids rows source (new ++ (copyItems newIds
        (idMap newIds.checklist (sourceChecklists (Rows.tables rows ids) source))
        ((Rows.tables rows ids).itemsOf
          (sourceChecklists (Rows.tables rows ids) source))).map .checklistItem) := by
  refine Triple.ite (fun hempty => ?_) fun _ => ?_
  · refine triple_pure fun t σ h => ?_
    rw [hempty, show (Rows.tables rows ids).itemsOf [] = [] by simp [Tables.itemsOf],
      show copyItems newIds _ [] = [] from rfl, List.map_nil, List.append_nil]
    exact h
  refine triple_read (fun _ h => h.items) (triple_insertMore ?_ ?_)
  · intro t σ h row hrow
    obtain ⟨copy, hmem, rfl⟩ := List.mem_map.mp hrow
    obtain ⟨item, -, checklistId, hchecklist, rfl⟩ := mem_copyItems.mp hmem
    obtain ⟨hid, rfl⟩ := idMap_get_eq_some.mp hchecklist
    exact h.newChecklist_notMem hkeyed (hcopy _ hid)
  · exact triple_pure fun _ _ h => h

theorem triple_details (hkeyed : ∀ key, (rows key).Keyed key) {input : Duplicate}
    (hcopy : ∀ id ∈ sourceCards (Rows.tables rows ids) source,
      ∃ copy, copy.id = newIds.card id ∧ Row.card copy ∈ new) :
    Triple (unshared ids newIds input rows) s (Draft ids rows source new)
      (copyDetails ids newIds (shapeMaps newIds (Rows.tables rows ids) source)
        (sourceCards (Rows.tables rows ids) source))
      fun _ => Draft ids rows source (new ++ detailRows newIds (Rows.tables rows ids) source) := by
  have hcopy' (more : List Row) {id : Id} (hid : id ∈ sourceCards (Rows.tables rows ids) source) :
      ∃ copy, copy.id = newIds.card id ∧ Row.card copy ∈ new ++ more := by
    obtain ⟨copy, heq, hmem⟩ := hcopy id hid
    exact ⟨copy, heq, List.mem_append_left _ hmem⟩
  refine Triple.ite (fun hempty => ?_) fun _ => ?_
  · refine triple_pure fun t σ h => ?_
    have hnone : detailRows newIds (Rows.tables rows ids) source = [] := by
      simp [detailRows, sourceChecklists, hempty, Tables.labelsOn, Tables.valuesOn,
        Tables.checklistsOn, Tables.itemsOf, copyCardLabels, copyValues, copyChecklists, copyItems]
    rw [hnone, List.append_nil]
    exact h
  refine triple_read (fun _ h => h.cardLabels) (triple_insertMore ?_ ?_)
  · intro t σ h row hrow
    obtain ⟨copy, hmem, rfl⟩ := List.mem_map.mp hrow
    obtain ⟨label, -, cardId, labelId, hcard, -, rfl⟩ := mem_copyCardLabels.mp hmem
    obtain ⟨hid, rfl⟩ := idMap_get_eq_some.mp hcard
    exact h.newCard_notMem hkeyed (hcopy _ hid)
  refine triple_read (fun _ h => h.values) (triple_insertMore ?_ ?_)
  · intro t σ h row hrow
    obtain ⟨copy, hmem, rfl⟩ := List.mem_map.mp hrow
    obtain ⟨value, -, cardId, fieldId, hcard, -, rfl⟩ := mem_copyValues.mp hmem
    obtain ⟨hid, rfl⟩ := idMap_get_eq_some.mp hcard
    exact h.newCard_notMem hkeyed (hcopy' _ hid)
  refine triple_read (fun _ h => h.checklists) (triple_insertMore ?_ ?_)
  · intro t σ h row hrow
    obtain ⟨copy, hmem, rfl⟩ := List.mem_map.mp hrow
    obtain ⟨checklist, -, cardId, hcard, rfl⟩ := mem_copyChecklists.mp hmem
    obtain ⟨hid, rfl⟩ := idMap_get_eq_some.mp hcard
    rw [List.append_assoc] at h
    exact h.newCard_notMem hkeyed (hcopy' _ hid)
  refine (triple_items hkeyed ?_).conseq (fun _ _ h => h) fun _ t σ h => ?_
  · intro id hid
    obtain ⟨checklist, hmem, rfl⟩ := List.mem_map.mp hid
    have hcard := of_decide_eq_true (List.mem_filter.mp hmem).2
    refine ⟨{ checklist with
      id := newIds.checklist checklist.id, cardId := newIds.card checklist.cardId }, rfl, ?_⟩
    refine List.mem_append_right _ (List.mem_map_of_mem (mem_copyChecklists.mpr
      ⟨checklist, hmem, _, idMap_get_eq_some.mpr ⟨hcard, rfl⟩, rfl⟩))
  · simpa only [detailRows, List.append_assoc] using h

theorem triple_work (hkeyed : ∀ key, (rows key).Keyed key) {maps : Maps} :
    Triple (unshared ids newIds input rows) s
      (ShapeDrafted ids newIds input.sourceProjectId rows maps)
      (copyWork ids newIds maps input) fun _ t σ => ∃ project lists cards,
        project.id = newIds.project ∧ Copies newIds (Rows.tables rows ids) input lists cards ∧
        Draft ids rows input.sourceProjectId (copiedRows newIds (Rows.tables rows ids)
          input.sourceProjectId project lists cards) t σ := by
  rintro next hnext t σ ⟨rfl, project, lists, hid, hlists, hdraft⟩
  refine triple_read (fun _ h => h.cards) (triple_some fun cards hcards => ?_) next hnext t σ
    hdraft
  have hcopies : Copies newIds (Rows.tables rows ids) input lists cards :=
    ⟨hlists, ok_of_toOption hcards⟩
  have hforall := copyCards_forall₂ hcopies.cards
  refine triple_insertMore ?_ ?_
  · intro t σ h row hrow
    obtain ⟨copy, hcopy, rfl⟩ := List.mem_map.mp hrow
    obtain ⟨card, -, number, listId, boardId, -, -, rfl⟩ := mem_right_of_forall₂ hforall hcopy
    exact h.project_ne hid
  refine Triple.bind (Q := fun _ => Draft ids rows input.sourceProjectId (.project
    { project with
      nextCardNumber := ((Rows.tables rows ids).orderedCards input.sourceProjectId).length + 1 } ::
    (shapeRows newIds (Rows.tables rows ids) input.sourceProjectId lists ++ cards.map .card)))
    ?_ fun _ => ?_
  · rw [← hid]
    refine triple_updateDrafted ids (.project project) (fun _ => rfl) draft_stable ?_ ?_
    · exact fun t σ h => ⟨_, h.drafted⟩
    · intro t σ h
      refine ⟨h.base, h.drafted.update rfl, ?_⟩
      intro row hrow
      rcases List.mem_cons.mp hrow with rfl | hrow
      · exact h.foreign (.project project) List.mem_cons_self
      · exact h.foreign row (List.mem_cons_of_mem _ hrow)
  refine Triple.bind (triple_details hkeyed ?_) fun items => triple_pure fun t σ h => ?_
  · intro id hmem
    obtain ⟨card, hcard, rfl⟩ := List.mem_map.mp hmem
    obtain ⟨copy, hcopy, number, listId, boardId, -, -, rfl⟩ := mem_left_of_forall₂ hforall hcard
    exact ⟨_, rfl, List.mem_cons_of_mem _ (List.mem_append_right _ (List.mem_map_of_mem hcopy))⟩
  · exact ⟨{ project with
      nextCardNumber := ((Rows.tables rows ids).orderedCards input.sourceProjectId).length + 1 },
      lists, cards, hid, hcopies, h⟩

/-- A duplicate with cards keeps to what a session that runs alone may do. -/
theorem triple_duplicate (hkeyed : ∀ key, (rows key).Keyed key)
    (hcards : input.includeCards = true) :
    Triple (unshared ids newIds input rows) s (fun t σ => t = .none ∧ σ.rows = rows)
      (duplicateProject ids newIds input) fun _ t _ => t = .none := by
  refine triple_transaction (R := fun _ t σ => ∃ project lists cards,
    project.id = newIds.project ∧ Copies newIds (Rows.tables rows ids) input lists cards ∧
    Draft ids rows input.sourceProjectId (copiedRows newIds (Rows.tables rows ids)
      input.sourceProjectId project lists cards) t σ) ?_ ?_ ?_
  · refine (triple_shape hkeyed).bind fun maps => ?_
    refine Triple.bind (Q := fun _ t σ => ∃ project lists cards,
      project.id = newIds.project ∧ Copies newIds (Rows.tables rows ids) input lists cards ∧
      Draft ids rows input.sourceProjectId (copiedRows newIds (Rows.tables rows ids)
        input.sourceProjectId project lists cards) t σ) ?_ fun _ => triple_pure fun _ _ h => h
    refine Triple.ite (fun _ => triple_work hkeyed) fun hnot => absurd hcards hnot
  · rintro _ t σ _ h rfl _
    exact h
  · rintro _ t σ ⟨project, lists, cards, hid, hcopies, h⟩ _ _
    refine ⟨.inr ⟨project, lists, cards, hid, hcopies, ?_⟩, trivial, rfl⟩
    constructor
    case known => exact h.drafted.known
    case nodup => exact h.drafted.nodup
    case fresh => exact h.base ▸ h.drafted.fresh
    case live => exact h.drafted.view
    case other =>
      intro key hkey
      rw [← h.base]
      exact h.drafted.view_other hkey

end

/-- **What a duplicate leaves**, when no other call is under way: nothing has changed, or the
copy of the source is added. -/
theorem added_of_alone {ids : List Id} {newIds : NewIds} {input : Duplicate} {rows rows' : Rows}
    {i : Int} {notes : List Note} (hkeyed : ∀ key, (rows key).Keyed key)
    (hcards : input.includeCards = true)
    (halone : alone i (calls ids (.duplicateProject newIds input)) true [] rows =
      some (rows', notes)) :
    notes = [] ∧ rows' = rows ∨ CopyAdded ids newIds input rows rows' := by
  have hsafe : Safe (unshared ids newIds input rows) ()
      (calls ids (.duplicateProject newIds input)) .none ⟨rows, []⟩ :=
    triple_duplicate hkeyed hcards (fun _ => .idle) (fun _ _ _ ht => ht) .none ⟨rows, []⟩
      ⟨rfl, rfl⟩
  rcases inv_of_alone (fun _ _ => rfl) rfl hsafe (.inl ⟨rfl, rfl⟩) halone with
    ⟨hlog, hrows⟩ | hadded
  · exact .inl ⟨by simpa using hlog, hrows⟩
  · exact .inr hadded

end ProjectCopy
end TaskFlow
