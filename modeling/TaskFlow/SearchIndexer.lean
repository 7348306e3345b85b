import Mathlib.Data.Fintype.Basic
import TaskFlow.StepSystem

/-! # The search indexer

A message or a comment that is written, edited or deleted has its event in the outbox, and so has a
channel that is archived or restored.  The relays claim these events, read the row that an event is
about, as it is by then, and write the document of it: each event in a transaction of its own.

Of the events only those are here that write a document of a message or a comment.
-/
namespace TaskFlow
namespace SearchIndexer

abbrev ChannelId := String

/-! ### The tables -/

/-- What a document is of.  Those of both kinds of comments are of one type, but no two of them have
one id. -/
inductive Source where
  | message (id : String)
  | cardComment (id : String)
  | pageComment (id : String)
  deriving DecidableEq, Repr

/-- A row of `chat.messages`, `work.card_comments` or `docs.comments`, in its channel, card or page.
One that is deleted is kept as a tombstone. -/
structure Row where
  source : Source
  parentId : String
  bodyText : String
  deleted : Bool
  deriving DecidableEq, Repr

def Row.inChannel (row : Row) (channelId : ChannelId) : Bool :=
  match row.source with
  | .message _ => row.parentId = channelId
  | .cardComment _ | .pageComment _ => false

/-- What a document is to say of the row, if there is to be one. -/
def Row.shown (row : Row) : Option String := if row.deleted then none else some row.bodyText

/-- A row of `search.documents`. -/
structure Document where
  id : String
  source : Source
  body : String
  archived : Bool
  deriving DecidableEq, Repr

def Document.key (document : Document) : Source × String := (document.source, document.id)

def documentsOf (documents : List Document) (source : Source) : List Document :=
  documents.filter (·.source = source)

/-- ON CONFLICT (org_id, entity_type, entity_id) DO UPDATE -/
def upsertDocument (documents : List Document) (values : Document) : List Document :=
  if documents.any (·.source = values.source) then
    documents.map fun document =>
      if document.source = values.source then
        { document with body := values.body, archived := values.archived }
      else document
  else documents ++ [values]

def deleteDocument (documents : List Document) (source : Source) : List Document :=
  documents.filter (·.source ≠ source)

/-- `indexMessage`, `indexCardComment` and `indexPageComment`, with the text that was read of the
row.  Where there was no row the document is deleted. -/
def indexSource (documents : List Document) (newId : String) (source : Source) :
    Option String → List Document
  | none => deleteDocument documents source
  | some bodyText => upsertDocument documents ⟨newId, source, bodyText, false⟩

/-- `propagateChannelArchive`, of the documents that it has found. -/
def setArchived (documents : List Document) (found : List (Source × String)) (archived : Bool) :
    List Document :=
  documents.map fun document =>
    if document.key ∈ found then { document with archived := archived } else document

/-! ### What is written to the documents -/

section
variable {documents : List Document} {newId : String} {source other : Source} {values : Document}

theorem mem_documentsOf {document : Document} :
    document ∈ documentsOf documents source ↔ document ∈ documents ∧ document.source = source := by
  simp [documentsOf]

/-- A map that leaves the documents theirs, and those of the source as they are. -/
theorem documentsOf_map {f : Document → Document}
    (hsource : ∀ document, (f document).source = document.source)
    (hsame : ∀ document, document.source = source → f document = document) :
    documentsOf (documents.map f) source = documentsOf documents source := by
  induction documents with
  | nil => rfl
  | cons document documents ih =>
    unfold documentsOf at ih ⊢
    rw [List.map_cons, List.filter_cons, List.filter_cons, ih, hsource]
    by_cases h : document.source = source
    · rw [hsame document h]
    · rw [if_neg (by simpa using h), if_neg (by simpa using h)]

theorem documentsOf_upsertDocument_of_ne (h : values.source ≠ other) :
    documentsOf (upsertDocument documents values) other = documentsOf documents other := by
  unfold upsertDocument
  split
  · refine documentsOf_map (fun document => ?_) fun document hother => ?_
    · split <;> rfl
    · rw [if_neg fun hvalues => h (hvalues.symm.trans hother)]
  · simp [documentsOf, h]

theorem documentsOf_deleteDocument_of_ne (h : source ≠ other) :
    documentsOf (deleteDocument documents source) other = documentsOf documents other := by
  unfold documentsOf deleteDocument
  rw [List.filter_filter]
  refine List.filter_congr fun document _ => ?_
  by_cases hother : document.source = other
  · simp [hother, Ne.symm h]
  · simp [hother]

theorem documentsOf_indexSource_of_ne {body : Option String} (h : source ≠ other) :
    documentsOf (indexSource documents newId source body) other = documentsOf documents other := by
  cases body with
  | none => exact documentsOf_deleteDocument_of_ne h
  | some bodyText => exact documentsOf_upsertDocument_of_ne h

/-- By the unique key a source has one document at most. -/
theorem length_documentsOf (h : (documents.map Document.source).Nodup) :
    (documentsOf documents source).length ≤ 1 := by
  have hcount := List.nodup_iff_count_le_one.mp h source
  rw [List.count, List.countP_map, List.countP_eq_length_filter] at hcount
  refine le_trans (le_of_eq (congrArg List.length ?_)) hcount
  exact List.filter_congr fun _ _ => rfl

/-- What is left of a source is the one document that was written. -/
theorem documentsOf_upsertDocument_self (h : (documents.map Document.source).Nodup) :
    ∃ document, documentsOf (upsertDocument documents values) values.source = [document] ∧
      document.body = values.body ∧ document.archived = values.archived := by
  unfold upsertDocument
  split
  · next hany =>
    have hmap : ∀ documents : List Document, documentsOf (documents.map fun document =>
        if document.source = values.source then
          { document with body := values.body, archived := values.archived }
        else document) values.source = (documentsOf documents values.source).map fun document =>
          { document with body := values.body, archived := values.archived } := by
      intro documents
      unfold documentsOf
      induction documents with
      | nil => rfl
      | cons document documents ih =>
        rw [List.map_cons, List.filter_cons, List.filter_cons, ih]
        by_cases hsource : document.source = values.source <;> simp [hsource]
    obtain ⟨document, hmem, hsource⟩ := List.any_eq_true.mp hany
    have hlength : (documentsOf documents values.source).length ≤ 1 := length_documentsOf h
    have hmem' : document ∈ documentsOf documents values.source :=
      (mem_documentsOf).mpr ⟨hmem, of_decide_eq_true hsource⟩
    match hof : documentsOf documents values.source with
    | [] => simp [hof] at hmem'
    | [document] =>
      exact ⟨{ document with body := values.body, archived := values.archived },
        by rw [hmap, hof]; rfl, rfl, rfl⟩
    | _ :: _ :: _ => simp [hof] at hlength
  · next hnone =>
    have hnil : documentsOf documents values.source = [] := by
      simpa [documentsOf] using hnone
    refine ⟨values, ?_, rfl, rfl⟩
    rw [documentsOf, List.filter_append, ← documentsOf, hnil]
    simp

theorem documentsOf_indexSource_self {body : Option String}
    (h : (documents.map Document.source).Nodup) :
    (documentsOf (indexSource documents newId source body) source).map Document.body =
        body.toList ∧
      ∀ document ∈ documentsOf (indexSource documents newId source body) source,
        document.archived = false := by
  cases body with
  | none =>
    have hnil : documentsOf (deleteDocument documents source) source = [] := by
      simp [documentsOf, deleteDocument]
    simp [indexSource, hnil]
  | some bodyText =>
    obtain ⟨document, hof, hbody, harchived⟩ : ∃ document,
        documentsOf (indexSource documents newId source (some bodyText)) source = [document] ∧
          document.body = bodyText ∧ document.archived = false :=
      documentsOf_upsertDocument_self h
    simp [hof, hbody, harchived]

theorem map_source_of_same {f : Document → Document}
    (hsource : ∀ document, (f document).source = document.source) :
    (documents.map f).map Document.source = documents.map Document.source := by
  rw [List.map_map]
  exact List.map_congr_left fun document _ => hsource document

theorem nodup_upsertDocument (h : (documents.map Document.source).Nodup) :
    ((upsertDocument documents values).map Document.source).Nodup := by
  unfold upsertDocument
  split
  · rw [map_source_of_same fun document => by split <;> rfl]
    exact h
  · next hnone =>
    rw [List.map_append]
    refine h.append (List.nodup_singleton _) (List.disjoint_singleton.mpr fun hmem => hnone ?_)
    obtain ⟨document, hdocument, hsource⟩ := List.mem_map.mp hmem
    exact List.any_eq_true.mpr ⟨document, hdocument, decide_eq_true hsource⟩

/-- However often a source is indexed, it has one document at most. -/
theorem nodup_indexSource {body : Option String} (h : (documents.map Document.source).Nodup) :
    ((indexSource documents newId source body).map Document.source).Nodup := by
  cases body with
  | none => exact h.sublist (List.filter_sublist.map _)
  | some bodyText => exact nodup_upsertDocument h

variable {found : List (Source × String)} {archived : Bool}

/-- The document of a source that a propagation leaves. -/
theorem documentsOf_setArchived :
    documentsOf (setArchived documents found archived) source =
      setArchived (documentsOf documents source) found archived := by
  unfold documentsOf setArchived
  rw [List.filter_map]
  refine congrArg _ (List.filter_congr fun document _ => ?_)
  rw [Function.comp_apply]
  split <;> rfl

theorem setArchived_of_forall_notMem (h : ∀ document ∈ documents, document.key ∉ found) :
    setArchived documents found archived = documents := by
  unfold setArchived
  conv_rhs => rw [← List.map_id documents]
  exact List.map_congr_left fun document hmem => if_neg (h document hmem)

theorem map_body_setArchived :
    (setArchived documents found archived).map Document.body = documents.map Document.body := by
  unfold setArchived
  rw [List.map_map]
  refine List.map_congr_left fun document _ => ?_
  rw [Function.comp_apply]
  split <;> rfl

theorem map_source_setArchived :
    (setArchived documents found archived).map Document.source =
      documents.map Document.source :=
  map_source_of_same fun document => by split <;> rfl

end

/-! ### The events -/

inductive Change where
  | created
  | updated
  | deleted
  deriving DecidableEq, Repr

/-- An event of the outbox: one of `message.sent`, `message.edited`, `message.deleted` and of those
that there are of either kind of comment, or `channel.archived`. -/
inductive Event where
  | changed (source : Source) (change : Change)
  | channelArchived (channelId : ChannelId) (restored : Bool)
  deriving DecidableEq, Repr

/-- What an event has a relay do. -/
inductive Work where
  | index (source : Source)
  | deleteDocument (source : Source)
  | propagateChannelArchive (channelId : ChannelId) (restored : Bool)
  deriving DecidableEq, Repr

@[grind =] def handleEvent : Event → Work
  | .changed source .created | .changed source .updated => .index source
  | .changed source .deleted => .deleteDocument source
  | .channelArchived channelId restored => .propagateChannelArchive channelId restored

/-! ### The sessions -/

/-- A request of a user.  `create` is of a message or a comment. -/
inductive Request where
  | create (source : Source) (parentId bodyText : String)
  | edit (source : Source) (bodyText : String)
  | delete (source : Source)
  | archiveChannel (channelId : ChannelId) (restored : Bool)
  deriving DecidableEq, Repr

/-- What a relay has read for the event that it is at: the text of the row, if there is one, the
messages of the channel, or the documents that there are of these. -/
inductive Reading where
  | none
  | row (bodyText : Option String)
  | messages (sources : List Source)
  | documents (keys : List (Source × String))
  deriving DecidableEq, Repr

/-- The sources that the relay has listed. -/
def Reading.sources : Reading → List Source
  | .messages sources => sources
  | .documents keys => keys.map Prod.fst
  | _ => []

/-- A session answers a request that it has checked, or is a relay at the first event of its `todo`.
An event is its place in the outbox. -/
inductive Task where
  | idle
  | answering (request : Request)
  | draining (claimed todo : List Nat) (reading : Reading)
  deriving DecidableEq, Repr

def Task.claimed : Task → List Nat
  | .draining claimed _ _ => claimed
  | _ => []

/-- The events that a relay has not handled. -/
def Task.todo : Task → List Nat
  | .draining _ todo _ => todo
  | _ => []

def Task.reading : Task → Reading
  | .draining _ _ reading => reading
  | _ => .none

structure State (S : Type) where
  rows : List Row
  /-- The channels whose `archived_at` is set. -/
  archived : ChannelId → Bool
  documents : List Document
  outbox : List Event
  dispatched : List Nat
  task : S → Task

variable {S : Type} [DecidableEq S]

def initial : State S := ⟨[], fun _ => false, [], [], [], fun _ => .idle⟩

def State.at (σ : State S) (s : S) (task : Task) : State S :=
  { σ with task := Function.update σ.task s task }

/-- Whether the row is a message of an archived channel. -/
def State.hides (σ : State S) (row : Row) : Bool :=
  match row.source with
  | .message _ => σ.archived row.parentId
  | .cardComment _ | .pageComment _ => false

/-! ### The requests -/

/-- What is checked before a request is answered. -/
def Allowed (σ : State S) : Request → Prop
  | .create source parentId bodyText =>
    bodyText ≠ "" ∧ σ.hides ⟨source, parentId, bodyText, false⟩ = false
  | .edit source bodyText =>
    bodyText ≠ "" ∧ ∃ row ∈ σ.rows, row.source = source ∧ row.deleted = false
  | .delete source => ∃ row ∈ σ.rows, row.source = source ∧ row.deleted = false
  | .archiveChannel channelId restored => σ.archived channelId = restored

instance (σ : State S) (request : Request) : Decidable (Allowed σ request) :=
  match request with
  | .create .. => inferInstanceAs (Decidable (_ ∧ _))
  | .edit .. => inferInstanceAs (Decidable (_ ∧ ∃ row ∈ _, _ ∧ _))
  | .delete .. => inferInstanceAs (Decidable (∃ row ∈ _, _ ∧ _))
  | .archiveChannel .. => inferInstanceAs (Decidable (_ = _))

def updateRow (rows : List Row) (source : Source) (f : Row → Row) : List Row :=
  rows.map fun row => if row.source = source then f row else row

/-- The transaction is committed, with its event.  No UPDATE asks again for what was checked, and an
id that is taken throws. -/
@[grind =] def answer (σ : State S) : Request → State S
  | .create source parentId bodyText =>
    if source ∈ σ.rows.map Row.source then σ
    else { σ with
      rows := σ.rows ++ [⟨source, parentId, bodyText, false⟩]
      outbox := σ.outbox ++ [.changed source .created] }
  | .edit source bodyText =>
    { σ with
      rows := updateRow σ.rows source fun row => { row with bodyText := bodyText }
      outbox := σ.outbox ++ [.changed source .updated] }
  | .delete source =>
    { σ with
      rows := updateRow σ.rows source fun row => { row with deleted := true }
      outbox := σ.outbox ++ [.changed source .deleted] }
  | .archiveChannel channelId restored =>
    { σ with
      archived := Function.update σ.archived channelId !restored
      outbox := σ.outbox ++ [.channelArchived channelId restored] }

/-! ### The relays -/

/-- A relay's statements.  `commit` is that of an event, with what it has written, and `throw` also
stands for a crash. -/
inductive Statement where
  | claimPending (ids : List Nat)
  | select
  | findDocuments
  | commit (newId : String)
  | markDispatched
  | throw
  deriving DecidableEq, Repr

inductive Action (S : Type) where
  | load (s : S) (request : Request)
  | save (s : S)
  | relay (s : S) (statement : Statement)
  deriving DecidableEq, Repr

/-- What is read of a row that there is, or of none. -/
def readText (rows : List Row) (source : Source) : Option String :=
  (rows.find? (·.source = source)).map Row.bodyText

def messagesOf (rows : List Row) (channelId : ChannelId) : List Source :=
  (rows.filter (·.inChannel channelId)).map Row.source

/-- The source whose document the relay is about to write, with the text. -/
@[grind =] def Work.indexes : Work → Reading → Option (Source × Option String)
  | .index source, .row bodyText => some (source, bodyText)
  | .deleteDocument source, .none => some (source, none)
  | _, _ => none

/-- The channel whose documents the relay is about to update, with what it sets and the documents
that it has found. -/
@[grind =] def Work.archives : Work → Reading → Option (ChannelId × Bool × List (Source × String))
  | .propagateChannelArchive channelId restored, .documents keys =>
    some (channelId, !restored, keys)
  | _, _ => none

/-- The statements on an event, after which `todo` is left.  An UPDATE looks for its rows before it
has their locks, and then updates those that are there yet. -/
@[grind =] def handle (σ : State S) (s : S) (claimed : List Nat) (id : Nat) (todo : List Nat)
    (reading : Reading) (work : Work) : Statement → Option (State S)
  | .select =>
    match work, reading with
    | .index source, .none =>
      some (σ.at s (.draining claimed (id :: todo) (.row (readText σ.rows source))))
    | .propagateChannelArchive channelId _, .none =>
      if messagesOf σ.rows channelId = [] then some (σ.at s (.draining claimed todo .none))
      else some (σ.at s
        (.draining claimed (id :: todo) (.messages (messagesOf σ.rows channelId))))
    | _, _ => none
  | .findDocuments =>
    match reading with
    | .messages sources => some (σ.at s (.draining claimed (id :: todo)
        (.documents ((σ.documents.filter (·.source ∈ sources)).map Document.key))))
    | _ => none
  | .commit newId =>
    match work.indexes reading, work.archives reading with
    | some (source, bodyText), _ =>
      some { σ.at s (.draining claimed todo .none) with
        documents := indexSource σ.documents newId source bodyText }
    | none, some (_, archived, keys) =>
      some { σ.at s (.draining claimed todo .none) with
        documents := setArchived σ.documents keys archived }
    | none, none => none
  | _ => none

/-- A claim skips what another relay has claimed.  It may have events in it that have been
dispatched: the outbox is delivered at least once. -/
def step [Fintype S] (σ : State S) : Action S → Option (State S)
  | .load s request =>
    match σ.task s with
    | .idle => some (if Allowed σ request then σ.at s (.answering request) else σ)
    | _ => none
  | .save s =>
    match σ.task s with
    | .answering request => some ((answer σ request).at s .idle)
    | _ => none
  | .relay s statement =>
    match σ.task s, statement with
    | _, .throw => some (σ.at s .idle)
    | .idle, .claimPending ids =>
      if ∀ id ∈ ids, id < σ.outbox.length ∧ ∀ t, id ∉ (σ.task t).claimed then
        some (σ.at s (.draining ids ids .none))
      else none
    | .draining claimed [] _, .markDispatched =>
      some { σ.at s .idle with dispatched := σ.dispatched ++ claimed }
    | .draining claimed (id :: todo) reading, statement =>
      σ.outbox[id]?.bind fun event =>
        handle σ s claimed id todo reading (handleEvent event) statement
    | _, _ => none

example [Fintype S] (σ : State S) (s : S) : step σ (.relay s .throw) = some (σ.at s .idle) := by
  simp [step]

/-! ### What is asked of them -/

/-- The row has one document, with its text, which is archived if and only if its channel is; if it
is deleted it has none. -/
structure Indexed (σ : State S) (row : Row) : Prop where
  text : (documentsOf σ.documents row.source).map Document.body = row.shown.toList
  archived : ∀ document ∈ documentsOf σ.documents row.source, document.archived = σ.hides row

def Converged (σ : State S) : Prop := ∀ row ∈ σ.rows, Indexed σ row

/-- The event is of the row itself. -/
def Event.changes : Event → Row → Bool
  | .changed source _, row => source = row.source
  | .channelArchived .., _ => false

/-- The event is of the row, or of its channel. -/
def Event.concerns : Event → Row → Bool
  | .changed source _, row => source = row.source
  | .channelArchived channelId _, row => row.inChannel channelId

/-- An event of those meant is not dispatched, and whoever has claimed it has it to do yet. -/
def Left (σ : State S) (todo : S → List Nat) (meant : Event → Bool) : Prop :=
  ∃ id ∈ List.range σ.outbox.length, (∃ event ∈ σ.outbox[id]?, meant event) ∧
    id ∉ σ.dispatched ∧ ∀ t, id ∈ (σ.task t).claimed → id ∈ todo t

/-- What the relays have to do, when one of them is done with the event that it is at. -/
def State.rest (σ : State S) (s t : S) : List Nat :=
  if t = s then (σ.task t).todo.tail else (σ.task t).todo

/-- The event that a relay with this task is at. -/
def State.event (σ : State S) (task : Task) : Option Event :=
  task.todo.head?.bind fun id => σ.outbox[id]?

/-- What the relay is to do for the event that it is at. -/
def State.work (σ : State S) (s : S) : Option Work := (σ.event (σ.task s)).map handleEvent

/-- Where a relay writes a document of a row, it has the text that the row has, or none if the row
is deleted, and the channel is not archived.  Where it writes whether the documents of a channel are
archived, those that it has found and the others are then as the channel is.  Or else another event
is left that is of the row, or, for the channel's part, of its channel. -/
def Current (σ : State S) : Action S → Prop
  | .relay s (.commit _) =>
    (∀ work ∈ σ.work s, ∀ write ∈ work.indexes (σ.task s).reading,
      ∀ row ∈ σ.rows, row.source = write.1 →
        (write.2 = row.shown ∨ Left σ (σ.rest s) (Event.changes · row)) ∧
        (write.2 = none ∨ σ.hides row = false ∨ Left σ (σ.rest s) (Event.concerns · row))) ∧
    (∀ work ∈ σ.work s, ∀ write ∈ work.archives (σ.task s).reading,
      ∀ row ∈ σ.rows, row.inChannel write.1 →
        (∀ document ∈ documentsOf σ.documents row.source,
          (if document.key ∈ write.2.2 then write.2.1 else document.archived) = σ.hides row) ∨
        Left σ (σ.rest s) (Event.concerns · row))
  | _ => True

end SearchIndexer
end TaskFlow
