import TaskFlow.ScriptLogic

/-! # The lifecycle of a sprint

A sprint is planned, then active, then completed, or it is cancelled.  Each operation reads the
status in one statement and writes by the id in another.  At most one sprint of a project is
active, which an index sees to.

A card is put into a sprint, and taken out of it, by transactions of its own, and closing a sprint
takes cards out of it.  `current` asks that every status is written over one that leads to it, that
a card is put only into a sprint that is still open at the commit, and that no finished card is
taken out of a closed one.

The checks of permission, which throw before anything is written, are left to the losses of a
connection, which can come at any statement.
-/
namespace TaskFlow
namespace SprintLifecycle
open ReadCommitted ReadCommitted.Script ReadCommitted.Procedure

abbrev ProjectId := String

abbrev SprintId := String

abbrev CardId := String

abbrev StatusId := String

inductive SprintStatus where
  | planned
  | active
  | completed
  | cancelled
  deriving DecidableEq, Repr

inductive StatusCategory where
  | not_started
  | active
  | done
  deriving DecidableEq, Repr

/-- A row of `work.sprints`. -/
structure Sprint where
  projectId : ProjectId
  name : String
  goal : Option String
  startsOn : String
  endsOn : String
  status : SprintStatus
  startedAt : Option Int
  completedAt : Option Int
  deriving DecidableEq, Repr

/-- A row of `work.cards`, as far as these operations read or write it. -/
structure Card where
  projectId : ProjectId
  statusId : Option StatusId
  sprintId : Option SprintId
  updatedAt : Int
  deletedAt : Option Int
  deriving DecidableEq, Repr

/-- The keys of the tables, and of the index of active sprints. -/
inductive Key where
  | sprint (id : SprintId)
  | card (id : CardId)
  | status (id : StatusId)
  | activeOf (projectId : ProjectId)
  deriving DecidableEq, Repr

inductive Row where
  | sprint (sprint : Sprint)
  | card (card : Card)
  | status (category : StatusCategory)
  | entry (id : SprintId)
  deriving DecidableEq, Repr

abbrev Rows := Key → Option Row

def Row.sprint? : Row → Option Sprint
  | .sprint row => some row
  | _ => none

def Row.card? : Row → Option Card
  | .card row => some row
  | _ => none

def Row.category? : Row → Option StatusCategory
  | .status category => some category
  | _ => none

def sprintRow (rows : Rows) (id : SprintId) : Option Sprint :=
  (rows (.sprint id)).bind Row.sprint?

def cardRow (rows : Rows) (id : CardId) : Option Card :=
  (rows (.card id)).bind Row.card?

def categoryOf (rows : Rows) (card : Card) : Option StatusCategory :=
  card.statusId.bind fun statusId => (rows (.status statusId)).bind Row.category?

/-- What a transaction does to a card: it moves it, or a sprint that is closed releases it. -/
inductive Note where
  | moved (cardId : CardId) (before after : Option SprintId)
  | released (cardId : CardId) (before : SprintId) (after : Option SprintId)
  deriving DecidableEq, Repr

/-- The UPDATE of a sprint's status, and every other statement. -/
inductive Label where
  | query
  | transition (id : SprintId) (status : SprintStatus)
  deriving DecidableEq, Repr

abbrev Procedure (α : Type) := ReadCommitted.Procedure Key (Option Row) Label Unit Note α

/-! ### Statements -/

/-- INSERT of a sprint. -/
def insertSprint (id : SprintId) (sprint : Sprint) : Procedure Unit := do
  let inserted ← update .query (.sprint id) fun _ old =>
    if old.isSome then none else some (some (.sprint sprint))
  require inserted.isSome

def loadSprint (id : SprintId) : Procedure Sprint := do
  let found ← select .query fun rows => sprintRow rows id
  ofOption found

def loadCard (id : CardId) : Procedure Card := do
  let found ← select .query fun rows =>
    (cardRow rows id).filter fun card => card.deletedAt.isNone
  ofOption found

/-- What an UPDATE does to the index of active sprints. -/
def indexWrites (id : SprintId) (sprint sprint' : Sprint) : List (Key × Option Row) :=
  if sprint.status = .active ∧ sprint'.status ≠ .active then [(.activeOf sprint.projectId, none)]
  else if sprint.status ≠ .active ∧ sprint'.status = .active then
    [(.activeOf sprint.projectId, some (.entry id))]
  else []

/-- Another sprint of the project is active. -/
def taken (rows : Rows) (sprint sprint' : Sprint) : Bool :=
  sprint.status ≠ .active ∧ sprint'.status = .active ∧ (rows (.activeOf sprint.projectId)).isSome

/-- UPDATE of a sprint by its id, which throws where the index refuses it. -/
def updateSprint (label : Label) (id : SprintId) (f : Sprint → Sprint) : Procedure Unit := do
  let free ← statement label (fun _ rows =>
      match sprintRow rows id with
      | none => ([], [])
      | some sprint =>
        if taken rows sprint (f sprint) then ([.activeOf sprint.projectId], [])
        else ([], (.sprint id, some (.sprint (f sprint))) :: indexWrites id sprint (f sprint)))
    fun _ rows => (sprintRow rows id).all fun sprint => !taken rows sprint (f sprint)
  require free

def Card.moved (card : Card) (sprintId : Option SprintId) (now : Int) : Card :=
  { card with sprintId := sprintId, updatedAt := now }

/-- The foreign key: a card's sprint is of its project. -/
def fits (rows : Rows) (card : Card) (sprintId : Option SprintId) : Bool :=
  sprintId.all fun id => (sprintRow rows id).any fun sprint => sprint.projectId = card.projectId

def cardsOf (rows : Rows) (ids : List CardId) : List (CardId × Card) :=
  ids.filterMap fun id => (cardRow rows id).map (Prod.mk id)

def cardWrite (sprintId : Option SprintId) (now : Int) (found : CardId × Card) :
    Key × Option Row :=
  (.card found.1, some (.card (found.2.moved sprintId now)))

/-- UPDATE of the cards that match: the cards as they were. -/
def updateCards (matching : Rows → List CardId) (sprintId : Option SprintId) (now : Int) :
    Procedure (List (CardId × Card)) := do
  let found ← statement .query (fun _ rows =>
      let found := cardsOf rows (matching rows)
      ([], if found.all fun c => fits rows c.2 sprintId then found.map (cardWrite sprintId now)
        else []))
    fun _ rows =>
      let found := cardsOf rows (matching rows)
      if found.all fun c => fits rows c.2 sprintId then some found else none
  ofOption found

/-! ### The service -/

section
-- the cards there are at any time
variable (cards : List CardId)

def inSprint (rows : Rows) (sprintId : SprintId) (id : CardId) : Bool :=
  (cardRow rows id).any fun card => card.sprintId = some sprintId

/-- The live cards of a sprint. -/
def attached (sprintId : SprintId) (rows : Rows) : List (CardId × Card) :=
  (cardsOf rows cards).filter fun c => c.2.sprintId = some sprintId ∧ c.2.deletedAt.isNone

def createSprint (id : SprintId) (projectId : ProjectId) (name : String) (goal : Option String)
    (startsOn endsOn : String) : Procedure Unit :=
  transaction do
    -- assertDatesOrdered
    require (¬endsOn < startsOn)
    insertSprint id ⟨projectId, name, goal, startsOn, endsOn, .planned, none, none⟩
    return ([], ())

def startSprint (id : SprintId) (now : Int) : Procedure Unit :=
  transaction do
    let sprint ← loadSprint id
    require (sprint.status = .planned)
    updateSprint (.transition id .active) id fun sprint =>
      { sprint with status := .active, startedAt := some now }
    return ([], ())

/-- The sprint unfinished work goes to has to be another one of the project, and open. -/
def checkDestination (id : SprintId) (sprint : Sprint) (destination : Option SprintId) :
    Procedure Unit :=
  match destination with
  | none => pure ()
  | some destination => do
    require (destination ≠ id)
    let target ← loadSprint destination
    require (target.projectId = sprint.projectId)
    require (target.status = .planned ∨ target.status = .active)

/-- Takes the cards that were read out of the sprint, as far as they still are in it. -/
def releaseCards (id : SprintId) (released : List CardId) (destination : Option SprintId)
    (now : Int) : Procedure (List (CardId × Card)) :=
  if released = [] then pure []
  else updateCards (fun rows => released.filter (inSprint rows id)) destination now

def releasedNotes (id : SprintId) (destination : Option SprintId)
    (found : List (CardId × Card)) : List Note :=
  found.map fun c => .released c.1 id destination

/-- How many cards were shipped, and how many released. -/
def completeSprint (id : SprintId) (destination : Option SprintId) (now now' : Int) :
    Procedure (Nat × Nat) :=
  transaction do
    let sprint ← loadSprint id
    require (sprint.status = .active)
    checkDestination id sprint destination
    let attached ← select .query fun rows =>
      (attached cards id rows).map fun c => (c.1, categoryOf rows c.2)
    let released := attached.filter fun c => c.2 ≠ some .done
    let found ← releaseCards id (released.map Prod.fst) destination now
    updateSprint (.transition id .completed) id fun sprint =>
      { sprint with status := .completed, completedAt := some now' }
    return (releasedNotes id destination found,
      (attached.length - released.length, released.length))

/-- How many cards were released. -/
def cancelSprint (id : SprintId) (now : Int) : Procedure Nat :=
  transaction do
    let sprint ← loadSprint id
    require (sprint.status = .planned ∨ sprint.status = .active)
    let attached ← select .query fun rows => (attached cards id rows).map Prod.fst
    let found ← releaseCards id attached none now
    updateSprint (.transition id .cancelled) id fun sprint => { sprint with status := .cancelled }
    return (releasedNotes id none found, attached.length)

/-- UPDATE of one card. -/
def moveCard (id : CardId) (sprintId : Option SprintId) (now : Int) : Procedure (List Note) := do
  let found ← updateCards (fun _ => [id]) sprintId now
  return found.map fun c => .moved c.1 c.2.sprintId sprintId

def assignSprint (cardId : CardId) (sprintId : SprintId) (now : Int) : Procedure Unit :=
  transaction do
    let card ← loadCard cardId
    let sprint ← loadSprint sprintId
    require (¬(sprint.status = .completed ∨ sprint.status = .cancelled))
    if card.sprintId = some sprintId then return ([], ())
    else
      let notes ← moveCard cardId (some sprintId) now
      return (notes, ())

def releaseSprint (cardId : CardId) (now : Int) : Procedure Unit :=
  transaction do
    let card ← loadCard cardId
    if card.sprintId = none then return ([], ())
    else
      let notes ← moveCard cardId none now
      return (notes, ())

/-- The calls, with what they read of the clock. -/
inductive Call where
  | createSprint (id : SprintId) (projectId : ProjectId) (name : String) (goal : Option String)
      (startsOn endsOn : String)
  | startSprint (id : SprintId) (now : Int)
  | completeSprint (id : SprintId) (moveUnfinishedTo : Option SprintId) (now now' : Int)
  | cancelSprint (id : SprintId) (now : Int)
  | assignSprint (cardId : CardId) (sprintId : SprintId) (now : Int)
  | releaseSprint (cardId : CardId) (now : Int)
  deriving DecidableEq, Repr

def calls : Call → Script Key (Option Row) Label Unit Note
  | .createSprint id projectId name goal startsOn endsOn =>
    (createSprint id projectId name goal startsOn endsOn).script
  | .startSprint id now => (startSprint id now).script
  | .completeSprint id moveUnfinishedTo now now' =>
    (completeSprint cards id moveUnfinishedTo now now').script
  | .cancelSprint id now => (cancelSprint cards id now).script
  | .assignSprint cardId sprintId now => (assignSprint cardId sprintId now).script
  | .releaseSprint cardId now => (releaseSprint cardId now).script

end

/-! ### What a commit does -/

/-- One status leads to the other. -/
def Next : SprintStatus → SprintStatus → Prop
  | .planned, .active | .active, .completed | .planned, .cancelled | .active, .cancelled => True
  | _, _ => False

def Open (rows : Rows) (id : SprintId) : Prop :=
  ∃ sprint, sprintRow rows id = some sprint ∧
    (sprint.status = .planned ∨ sprint.status = .active)

def Closed (rows : Rows) (id : SprintId) : Prop :=
  ∃ sprint, sprintRow rows id = some sprint ∧
    (sprint.status = .completed ∨ sprint.status = .cancelled)

/-- The card's status is of the category of what is done. -/
def Finished (rows : Rows) (id : CardId) : Prop :=
  ∃ card, cardRow rows id = some card ∧ categoryOf rows card = some .done

def InSprint (rows : Rows) (sprintId : SprintId) (id : CardId) : Prop :=
  ∃ card, cardRow rows id = some card ∧ card.sprintId = some sprintId

/-- A card goes only into a sprint that is open, and a finished one not out of a closed one. -/
def Note.Current (rows : Rows) : Note → Prop
  | .moved cardId before after => before = after ∨ (∀ sprintId ∈ after, Open rows sprintId) ∧
      ∀ sprintId ∈ before, Closed rows sprintId → ¬Finished rows cardId
  | .released _ _ after => ∀ sprintId ∈ after, Open rows sprintId

/-- A status is written over one that leads to it, and cards move as they may at the commit. -/
def current : Condition Key (Option Row) Label Unit Note where
  statement label _ rows _ :=
    match label with
    | .query => True
    | .transition id status =>
      ∃ sprint, sprintRow rows id = some sprint ∧ Next sprint.status status
  commit notes rows := ∀ note ∈ notes, note.Current rows

/-- The index has the active sprints, one of a project. -/
def Indexed (rows : Rows) : Prop :=
  ∀ projectId id, rows (.activeOf projectId) = some (.entry id) ↔
    ∃ sprint, sprintRow rows id = some sprint ∧ sprint.projectId = projectId ∧
      sprint.status = .active

/-- At most one sprint of a project is active. -/
def OneActive (rows : Rows) : Prop :=
  ∀ id id' sprint sprint', sprintRow rows id = some sprint → sprintRow rows id' = some sprint' →
    sprint.projectId = sprint'.projectId → sprint.status = .active → sprint'.status = .active →
    id = id'

/-- What a step may do to the sprints and their cards. -/
structure Lifecycle (rows rows' : Rows) : Prop where
  forward : ∀ id sprint, sprintRow rows id = some sprint →
    ∃ sprint', sprintRow rows' id = some sprint' ∧
      (sprint'.status = sprint.status ∨ Next sprint.status sprint'.status)
  created : ∀ id sprint, sprintRow rows id = none → sprintRow rows' id = some sprint →
    sprint.status = .planned
  /-- A card that gets into a sprint finds it open. -/
  added : ∀ sprintId id, InSprint rows' sprintId id →
    InSprint rows sprintId id ∨ Open rows' sprintId
  /-- A finished card of a closed sprint stays in it. -/
  stays : ∀ sprintId id, InSprint rows sprintId id → Closed rows sprintId → Finished rows id →
    InSprint rows' sprintId id
  finished : ∀ id, Finished rows' id ↔ Finished rows id

/-- What is closed is a stable record: it stays closed, gets no card, and loses none that is
finished. -/
def Record (rows rows' : Rows) : Prop :=
  ∀ sprintId, Closed rows sprintId → Closed rows' sprintId ∧
    (∀ id, InSprint rows' sprintId id → InSprint rows sprintId id) ∧
    ∀ id, InSprint rows sprintId id → Finished rows id →
      InSprint rows' sprintId id ∧ Finished rows' id

def discipline (S : Type) : Discipline S Key (Option Row) Label Unit Note where
  inv σ := Indexed σ.rows
  guarantee _ _ _ σ σ' := Lifecycle σ.rows σ'.rows
  rely _ own σ σ' := ∀ key, own key → σ'.rows key = σ.rows key
  condition := current

theorem discipline_lawful (S : Type) : (discipline S).Lawful where
  refl := fun _ _ _ _ _ => rfl
  trans := fun h h' key hown => (h' key hown).trans (h key hown)
  rely := fun _ _ hown _ _ _ => hown

/-! ### Records -/

section
variable {rows rows' rows'' : Rows}

theorem OneActive.of_indexed (h : Indexed rows) : OneActive rows := by
  intro id id' sprint sprint' hrow hrow' hproject hactive hactive'
  have hentry := (h sprint.projectId id).mpr ⟨sprint, hrow, rfl, hactive⟩
  have hentry' := (h sprint.projectId id').mpr ⟨sprint', hrow', hproject.symm, hactive'⟩
  rw [hentry] at hentry'
  exact Row.entry.inj (Option.some.inj hentry')

theorem not_open_of_closed {id : SprintId} (h : Closed rows id) : ¬Open rows id := by
  obtain ⟨sprint, hrow, hclosed⟩ := h
  rintro ⟨sprint', hrow', hopen⟩
  obtain rfl := Option.some.inj (hrow.symm.trans hrow')
  rcases hclosed with hclosed | hclosed <;> rcases hopen with hopen | hopen <;>
    rw [hclosed] at hopen <;> cases hopen

theorem Lifecycle.refl (rows : Rows) : Lifecycle rows rows where
  forward := fun _ sprint h => ⟨sprint, h, .inl rfl⟩
  created := fun _ _ h h' => by rw [h] at h'; cases h'
  added := fun _ _ h => .inl h
  stays := fun _ _ h _ _ => h
  finished := fun _ => Iff.rfl

/-- Nothing comes after completed and cancelled. -/
theorem Lifecycle.closed (h : Lifecycle rows rows') {id : SprintId} (hclosed : Closed rows id) :
    Closed rows' id := by
  obtain ⟨sprint, hrow, hstatus⟩ := hclosed
  obtain ⟨sprint', hrow', hsame | hnext⟩ := h.forward id sprint hrow
  · exact ⟨sprint', hrow', hsame ▸ hstatus⟩
  · rcases hstatus with hstatus | hstatus <;> rw [hstatus] at hnext <;> exact hnext.elim

theorem Lifecycle.record (h : Lifecycle rows rows') : Record rows rows' := fun sprintId hclosed =>
  ⟨h.closed hclosed,
    fun id hin => (h.added sprintId id hin).resolve_right (not_open_of_closed (h.closed hclosed)),
    fun id hin hfinished =>
      ⟨h.stays sprintId id hin hclosed hfinished, (h.finished id).mpr hfinished⟩⟩

theorem Record.refl (rows : Rows) : Record rows rows :=
  fun _ hclosed => ⟨hclosed, fun _ h => h, fun _ h h' => ⟨h, h'⟩⟩

theorem Record.trans (h : Record rows rows') (h' : Record rows' rows'') : Record rows rows'' := by
  intro sprintId hclosed
  obtain ⟨hclosed', hadded, hstays⟩ := h sprintId hclosed
  obtain ⟨hclosed'', hadded', hstays'⟩ := h' sprintId hclosed'
  refine ⟨hclosed'', fun id hin => hadded id (hadded' id hin), fun id hin hfinished => ?_⟩
  obtain ⟨hin', hfinished'⟩ := hstays id hin hfinished
  exact hstays' id hin' hfinished'

end

end SprintLifecycle
end TaskFlow
