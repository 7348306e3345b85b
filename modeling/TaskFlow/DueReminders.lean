import Mathlib.Data.Fintype.Basic
import TaskFlow.Policy
import TaskFlow.StepSystem

/-! # Due date reminders

A sweep lists the cards that are due within a day and inserts a reminder for each assignee, unless
there is one.  Whether there is one says nothing about the date: so an edit of a due date has the
reminders of the card deleted, by the projection, when it gets to the event of the edit.

A sweep commits all that it inserts at once, and a projection all that it deletes, both long after
they have looked.
-/
namespace TaskFlow
namespace DueReminders
open Policy

abbrev CardId := String

/-- How far ahead a card is due soon, in hours. -/
def HORIZON_HOURS : Int := 24

def cutoff (now : Int) : Int := now + HORIZON_HOURS * 60 * 60 * 1000

/-! ### The tables -/

/-- A row of `work.cards`.  It is `live` unless it is archived or deleted. -/
structure Card where
  dueDate : Option Int
  assigneeIds : List UserId
  live : Bool
  version : Nat
  deriving DecidableEq, Repr

/-- A row of `platform.notifications` of the kind `card.due_soon`, with the date that the card was
due when the sweep read it. -/
structure Reminder where
  cardId : CardId
  userId : UserId
  dueDate : Int
  deriving DecidableEq, Repr

/-- `notifications_event_user_key` -/
def Reminder.key (reminder : Reminder) : CardId × UserId := (reminder.cardId, reminder.userId)

/-- A `card.updated` event.  `changed` is left out: it lists the due date if and only if the two
differ. -/
structure CardUpdated where
  cardId : CardId
  before : Option Int
  after : Option Int
  deriving DecidableEq, Repr

def CardUpdated.dueDateChanged (event : CardUpdated) : Bool := event.before ≠ event.after

/-- What a sweep is to insert: the due cards and their assignees. -/
def dueReminders (cardIds : List CardId) (cards : CardId → Card) (now : Int) : List Reminder :=
  cardIds.flatMap fun cardId =>
    ((cards cardId).dueDate.filter fun dueDate =>
      dueDate ≤ cutoff now && (cards cardId).live).toList.flatMap fun dueDate =>
        (cards cardId).assigneeIds.map fun userId => ⟨cardId, userId, dueDate⟩

/-! ### The steps -/

/-- What a process is doing: it updates a card that it has loaded, sweeps, or projects the events
that it has claimed.  An event is its place in the outbox. -/
inductive Task where
  | idle
  | editing (cardId : CardId) (before : Option Int)
  | sweeping (todo written : List Reminder)
  | draining (claimed todo : List Nat) (found : Option (List Reminder)) (gone : List Reminder)
  deriving DecidableEq, Repr

/-- The card that is updated, with its due date as it was loaded. -/
def Task.edit : Task → Option (CardId × Option Int)
  | .editing cardId before => some (cardId, before)
  | _ => none

/-- What is inserted and not committed. -/
def Task.written : Task → List Reminder
  | .sweeping _ written => written
  | _ => []

/-- What is deleted and not committed. -/
def Task.gone : Task → List Reminder
  | .draining _ _ _ gone => gone
  | _ => []

def Task.claimed : Task → List Nat
  | .draining claimed _ _ _ => claimed
  | _ => []

/-- A process's statements.  `throw` stands for a lost connection, too. -/
inductive Statement where
  | loadCard (cardId : CardId)
  | updateCard (version : Nat) (dueDate : Option Int)
  | selectDueCards (now : Int)
  | insertReminder
  | claimPending (ids : List Nat)
  | findReminders
  | deleteReminders
  | commit
  | throw
  deriving DecidableEq, Repr

inductive Action (S : Type) where
  | assignCard (cardId : CardId) (assigneeIds : List UserId)
  /-- A card is created, archived, restored or deleted. -/
  | setLive (cardId : CardId) (live : Bool)
  | run (s : S) (statement : Statement)

/-- `received` has every reminder that was ever committed. -/
structure State (S : Type) where
  cards : CardId → Card
  notifications : List Reminder
  outbox : List CardUpdated
  dispatched : List Nat
  received : List Reminder
  task : S → Task

variable {S : Type} [DecidableEq S]

def State.at (σ : State S) (s : S) (task : Task) : State S :=
  { σ with task := Function.update σ.task s task }

def State.setCard (σ : State S) (cardId : CardId) (card : Card) : State S :=
  { σ with cards := Function.update σ.cards cardId card }

def initial (cards : CardId → Card) : State S := ⟨cards, [], [], [], [], fun _ => .idle⟩

/-- The UPDATE asks for the version that the client has read, and not for the one that was loaded.
Without a row it is a conflict. -/
def updateCard (σ : State S) (s : S) (cardId : CardId) (before : Option Int) (version : Nat)
    (dueDate : Option Int) : State S :=
  let card := σ.cards cardId
  if version = card.version then
    { (σ.at s .idle).setCard cardId
        { card with dueDate := dueDate, version := card.version + 1 } with
      outbox := σ.outbox ++ [⟨cardId, before, dueDate⟩] }
  else σ.at s .idle

variable [Fintype S]

/-- INSERT, ON CONFLICT DO NOTHING.  It waits for who has inserted the key or deleted its row. -/
def insertReminder (σ : State S) (s : S) (reminder : Reminder) (todo written : List Reminder) :
    Option (State S) :=
  if ∃ t, t ≠ s ∧ reminder.key ∈ ((σ.task t).written ++ (σ.task t).gone).map Reminder.key then
    none
  else if reminder.key ∈ (σ.notifications ++ written).map Reminder.key then
    some (σ.at s (.sweeping todo written))
  else some (σ.at s (.sweeping todo (written ++ [reminder])))

/-- The DELETE looks for the card's reminders before it has their locks. -/
def findReminders (σ : State S) (s : S) (claimed : List Nat) (id : Nat) (todo : List Nat)
    (gone : List Reminder) : Option (State S) :=
  σ.outbox[id]?.map fun event =>
    if event.dueDateChanged then
      σ.at s (.draining claimed (id :: todo) (some (σ.notifications.filter fun reminder =>
        reminder.cardId = event.cardId ∧ reminder ∉ gone)) gone)
    else σ.at s (.draining claimed todo none gone)

variable (cardIds : List CardId)

/-- `cardIds` are the cards there are.  A batch may have events in it that have been dispatched: the
outbox is delivered at least once. -/
def step (σ : State S) : Action S → Option (State S)
  | .assignCard cardId assigneeIds =>
    some (σ.setCard cardId { σ.cards cardId with assigneeIds := assigneeIds })
  | .setLive cardId live => some (σ.setCard cardId { σ.cards cardId with live := live })
  | .run s statement =>
    match σ.task s, statement with
    | _, .throw => some (σ.at s .idle)
    | .idle, .loadCard cardId => some (σ.at s (.editing cardId (σ.cards cardId).dueDate))
    | .editing cardId before, .updateCard version dueDate =>
      some (updateCard σ s cardId before version dueDate)
    | .idle, .selectDueCards now =>
      some (σ.at s (.sweeping (dueReminders cardIds σ.cards now) []))
    | .sweeping (reminder :: todo) written, .insertReminder =>
      insertReminder σ s reminder todo written
    | .sweeping [] written, .commit =>
      some { σ.at s .idle with
        notifications := σ.notifications ++ written
        received := σ.received ++ written }
    | .idle, .claimPending ids =>
      if ∀ id ∈ ids, id < σ.outbox.length ∧ ∀ t, id ∉ (σ.task t).claimed then
        some (σ.at s (.draining ids ids none []))
      else none
    | .draining claimed (id :: todo) none gone, .findReminders =>
      findReminders σ s claimed id todo gone
    | .draining claimed (_ :: todo) (some found) gone, .deleteReminders =>
      if ∀ t, t ≠ s → ∀ reminder ∈ found, reminder ∉ (σ.task t).gone then
        some (σ.at s (.draining claimed todo none (gone ++ found.filter (· ∈ σ.notifications))))
      else none
    | .draining claimed [] none gone, .commit =>
      some { σ.at s .idle with
        notifications := σ.notifications.filter (· ∉ gone)
        dispatched := σ.dispatched ++ claimed }
    | _, _ => none

/-! ### What is asked of them -/

/-- Nobody is at work, and every event has been dispatched. -/
def Stopped (σ : State S) : Prop :=
  (∀ s, σ.task s = .idle) ∧ ∀ id, id < σ.outbox.length → id ∈ σ.dispatched

/-- A sweep from its beginning to its end. -/
def sweepPass (σ : State S) (s : S) (now : Int) : List (Action S) :=
  .run s (.selectDueCards now) ::
    List.replicate (dueReminders cardIds σ.cards now).length (.run s .insertReminder) ++
      [.run s .commit]

/-- Each assignee of a card that is due has a reminder of its due date. -/
def Reminded (σ : State S) (now : Int) : Prop :=
  ∀ reminder ∈ dueReminders cardIds σ.cards now, reminder ∈ σ.notifications

/-- An update that changes a due date has loaded another one than it writes, and writes none that
somebody was reminded of already; a sweep commits reminders of the dates that the cards are due, and
a projection deletes none of those. -/
def Orderly (σ : State S) : Action S → Prop
  | .run s (.updateCard version dueDate) =>
    ∀ edit ∈ (σ.task s).edit, version = (σ.cards edit.1).version →
      dueDate ≠ (σ.cards edit.1).dueDate → dueDate ≠ edit.2 ∧
        ∀ reminder ∈ σ.received, reminder.cardId = edit.1 → dueDate ≠ some reminder.dueDate
  | .run s .commit =>
    (∀ reminder ∈ (σ.task s).written,
      (σ.cards reminder.cardId).dueDate = some reminder.dueDate) ∧
    ∀ reminder ∈ (σ.task s).gone, (σ.cards reminder.cardId).dueDate ≠ some reminder.dueDate
  | _ => True

end DueReminders
end TaskFlow
