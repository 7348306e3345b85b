import Mathlib.Data.List.Sort
import Mathlib.Data.String.Basic
import TaskFlow.Rank
import TaskFlow.ReadCommitted
import TaskFlow.StepSystem

/-! # Moving a card and rebalancing a list

`moveCard` puts a card between two neighbours of a list: it reads their ranks,
has `between` compute a rank inside them, and writes the one card.  Where
`between` refuses the neighbours it rebalances the list first, in the same
transaction.  `rebalanceList` reads the live cards of a list in order and then
writes them ranks from `rankSequence`, one card a statement.

No read takes a lock, and a write goes by the card's id alone.
-/
namespace TaskFlow
namespace CardMove
open ReadCommitted Rank

abbrev CardId := String

abbrev ListId := String

/-- What a move or a rebalance reads or writes of a row of `work.cards`.
`rankedIn` is not a column: it is the list the rank was computed for. -/
structure Card where
  projectId : String
  boardId : String
  listId : ListId
  rank : List Char
  archivedAt : Option Int
  deletedAt : Option Int
  rankedIn : ListId
  deriving DecidableEq, Repr

/-- What a move reads of a row of `work.lists`. -/
structure TargetList where
  projectId : String
  boardId : String
  wipLimit : Option Nat
  deriving DecidableEq, Repr

abbrev Rows := CardId → Card

/-- A card as a list shows it. -/
structure Sibling where
  cardId : CardId
  rank : List Char
  deriving DecidableEq, Repr

structure MoveInput where
  cardId : CardId
  targetListId : ListId
  beforeCardId : Option CardId
  afterCardId : Option CardId
  deriving DecidableEq, Repr

inductive MoveError where
  | notFound
  | validation (field detail message : String)
  | invalidRank (error : InvalidRankError)
  deriving DecidableEq, Repr

structure MoveResult where
  rank : List Char
  listId : ListId
  wipExceeded : Bool
  rebalanced : Bool
  deriving DecidableEq, Repr

/-! ### The statements -/

/-- `ORDER BY rank, id`. -/
def RankedBefore (a b : Sibling) : Prop :=
  a.rank < b.rank ∨ a.rank = b.rank ∧ a.cardId ≤ b.cardId

instance : DecidableRel RankedBefore := fun a b =>
  inferInstanceAs (Decidable (a.rank < b.rank ∨ a.rank = b.rank ∧ a.cardId ≤ b.cardId))

/-- The cards of `cards` that meet a condition, in order. -/
def select (cards : List CardId) (rows : Rows) (p : CardId → Card → Bool) : List Sibling :=
  ((cards.filter fun id => p id (rows id)).map fun id => ⟨id, (rows id).rank⟩).insertionSort
    RankedBefore

/-- What `rebalanceList` reads: the cards of a list that are not deleted. -/
def liveCards (cards : List CardId) (rows : Rows) (listId : ListId) : List Sibling :=
  select cards rows fun _ card => card.listId = listId && card.deletedAt.isNone

/-- Every other live card in a list, in order. -/
def loadSiblings (cards : List CardId) (rows : Rows) (listId : ListId) (excluding : CardId) :
    List Sibling :=
  select cards rows fun id card =>
    card.listId = listId && id ≠ excluding && card.deletedAt.isNone && card.archivedAt.isNone

/-- The rank of a named neighbour. -/
@[grind =] def rankOfNeighbour (siblings : List Sibling) :
    Option CardId → Except MoveError (Option (List Char))
  | none => .ok none
  | some cardId =>
    match siblings.find? fun row => row.cardId = cardId with
    | none => .error .notFound
    | some sibling => .ok (some sibling.rank)

/-- The ranks of the two neighbours. -/
def neighbours (cards : List CardId) (rows : Rows) (input : MoveInput) :
    Except MoveError (Option (List Char) × Option (List Char)) := do
  let siblings := loadSiblings cards rows input.targetListId input.cardId
  let before ← rankOfNeighbour siblings input.beforeCardId
  let after ← rankOfNeighbour siblings input.afterCardId
  return (before, after)

/-- A place for the card: the ranks of its neighbours and one between them. -/
structure Position where
  before : Option (List Char)
  after : Option (List Char)
  rank : List Char
  deriving DecidableEq, Repr

def position (cards : List CardId) (rows : Rows) (input : MoveInput) :
    Except MoveError Position := do
  let (before, after) ← neighbours cards rows input
  match between before after with
  | .ok rank => return ⟨before, after, rank⟩
  | .error error => throw (.invalidRank error)

/-- The ranks a rebalance gives the cards it has read, in order.  `rankSequence`
does not fail on a number of rows. -/
def plan (rows : List Sibling) : List Sibling :=
  List.zipWith (fun row rank => ⟨row.cardId, rank⟩) rows
    ((rankSequence rows.length).toOption.getD [])

/-- A move that has loaded its card and its target list. -/
structure Moving where
  input : MoveInput
  target : TargetList
  /-- The number of siblings, at the first look. -/
  siblings : Nat
  deriving DecidableEq, Repr

/-- A rebalance: its list, the ranks it gives, and the move it is part of. -/
structure Rewrite where
  listId : ListId
  plan : List Sibling
  resume : Option Moving
  deriving DecidableEq, Repr

inductive Phase where
  | rebalance (listId : ListId)
  | move (input : MoveInput)
  | loaded (input : MoveInput) (card : Card)
  | targeted (input : MoveInput) (target : TargetList)
  /-- `between` refused the neighbours. -/
  | repairing (moving : Moving)
  /-- `rest` of the plan is still to be written. -/
  | rewriting (rewrite : Rewrite) (rest : List Sibling)
  | placing (moving : Moving) (position : Position) (rewrite : Option Rewrite)
  | placed (moving : Moving) (position : Position) (rewrite : Option Rewrite)
  | finished (input : Option MoveInput) (result : Option MoveResult)
  | failed (input : Option MoveInput) (error : Option MoveError)
  deriving DecidableEq, Repr

inductive Input where
  | next
  /-- The caller may not move the card, or the connection is lost. -/
  | abort
  deriving DecidableEq, Repr

/-- The move a session makes, if it makes one. -/
def Phase.moveInput : Phase → Option MoveInput
  | .rebalance _ => none
  | .move input | .loaded input _ | .targeted input _ => some input
  | .repairing moving | .placing moving _ _ | .placed moving _ _ => some moving.input
  | .rewriting rewrite _ => rewrite.resume.map Moving.input
  | .finished input _ | .failed input _ => input

/-- The move's write. -/
def place (card : Card) (moving : Moving) (rank : List Char) : Card :=
  { card with
    listId := moving.input.targetListId
    boardId := moving.target.boardId
    projectId := moving.target.projectId
    rank := rank
    rankedIn := moving.input.targetListId }

/-- A rebalance's write of one card. -/
def rerank (card : Card) (listId : ListId) (rank : List Char) : Card :=
  { card with rank := rank, rankedIn := listId }

def moveResult (moving : Moving) (position : Position) (rewrite : Option Rewrite) : MoveResult :=
  { rank := position.rank, listId := moving.input.targetListId,
    wipExceeded := moving.target.wipLimit.any fun limit => limit < moving.siblings + 1,
    rebalanced := rewrite.isSome }

/-- The next statement of a session.  `cards` are the cards, and `lists` the
lists that are not deleted. -/
@[grind =] def statement (cards : List CardId) (lists : ListId → Option TargetList) :
    Program CardId Card Phase Input :=
  fun phase input rows _ =>
    match phase, input with
    | .finished _ _, _ => none
    | .failed _ _, _ => none
    | phase, .abort => some (.rollback (.failed phase.moveInput none))
    | .rebalance listId, .next =>
      let rewrite := ⟨listId, plan (liveCards cards rows listId), none⟩
      some (.run [] [] (.rewriting rewrite rewrite.plan))
    | .move input, .next =>
      if input.cardId ∈ cards ∧ (rows input.cardId).deletedAt = none then
        some (.run [] [] (.loaded input (rows input.cardId)))
      else some (.rollback (.failed (some input) (some .notFound)))
    | .loaded input card, .next =>
      match lists input.targetListId with
      | none => some (.rollback (.failed (some input) (some .notFound)))
      | some target =>
        if target.projectId = card.projectId then some (.run [] [] (.targeted input target))
        else some (.rollback (.failed (some input) (some (.validation "targetListId"
          "That list belongs to a different project."
          "A card cannot be moved to another project."))))
    | .targeted input target, .next =>
      let moving := ⟨input, target,
        (loadSiblings cards rows input.targetListId input.cardId).length⟩
      match position cards rows input with
      | .ok position => some (.run [] [] (.placing moving position none))
      | .error (.invalidRank _) => some (.run [] [] (.repairing moving))
      | .error error => some (.rollback (.failed (some input) (some error)))
    | .repairing moving, .next =>
      let listId := moving.input.targetListId
      let rewrite := ⟨listId, plan (liveCards cards rows listId), some moving⟩
      some (.run [] [] (.rewriting rewrite rewrite.plan))
    | .rewriting rewrite (row :: rest), .next =>
      some (.run [] [(row.cardId, rerank (rows row.cardId) rewrite.listId row.rank)]
        (.rewriting rewrite rest))
    | .rewriting rewrite [], .next =>
      match rewrite.resume with
      | none => some (.commit (.finished none none))
      | some moving =>
        match position cards rows moving.input with
        | .ok position => some (.run [] [] (.placing moving position (some rewrite)))
        | .error error => some (.rollback (.failed (some moving.input) (some error)))
    | .placing moving position rewrite, .next =>
      some (.run [] [(moving.input.cardId, place (rows moving.input.cardId) moving position.rank)]
        (.placed moving position rewrite))
    | .placed moving position rewrite, .next => some (.commit
        (.finished (some moving.input) (some (moveResult moving position rewrite))))

variable {S : Type} [DecidableEq S]

abbrev State (S : Type) := World S CardId Card Phase

/-- One session moves a card and every other one rebalances a list. -/
def initial (rows : Rows) (mover : S) (input : MoveInput) (listOf : S → ListId) : State S :=
  World.initial rows fun s => if s = mover then .move input else .rebalance (listOf s)

def step (cards : List CardId) (lists : ListId → Option TargetList) :
    State S → S × Input → Option (State S) :=
  ReadCommitted.step (statement cards lists)

/-- The list a rebalance has read is still the list: the same cards in the same
order. -/
def Rewrite.Current (cards : List CardId) (rows : Rows) (rewrite : Rewrite) : Prop :=
  (liveCards cards rows rewrite.listId).map Sibling.cardId = rewrite.plan.map Sibling.cardId

instance (cards : List CardId) (rows : Rows) (rewrite : Rewrite) :
    Decidable (rewrite.Current cards rows) :=
  inferInstanceAs (Decidable (_ = _))

/-- The neighbours of a move still have the ranks it read, and are not the start
of a list and the smallest integer. -/
def Position.Current (cards : List CardId) (rows : Rows) (input : MoveInput)
    (position : Position) : Prop :=
  (neighbours cards rows input).toOption = some (position.before, position.after) ∧
    ¬(position.before = none ∧ position.after = some SMALLEST_INTEGER)

instance (cards : List CardId) (rows : Rows) (input : MoveInput) (position : Position) :
    Decidable (position.Current cards rows input) :=
  inferInstanceAs (Decidable (_ ∧ _))

/-- What a transaction computed its ranks from is still so when it commits. -/
def CommitsCurrent (cards : List CardId) (w : State S) (a : S × Input) : Prop :=
  match w.locals a.1, a.2 with
  | .rewriting rewrite [], .next =>
    rewrite.resume = none → rewrite.Current cards w.committed
  | .placed moving position rewrite, .next =>
    position.Current cards (w.view a.1) moving.input ∧
      ∀ r ∈ rewrite, Rewrite.Current cards w.committed r
  | _, _ => True

instance (cards : List CardId) (w : State S) (a : S × Input) :
    Decidable (CommitsCurrent cards w a) := by
  unfold CommitsCurrent
  split <;> infer_instance

/-- The moved card is in the list its move named, strictly between its
neighbours where they are still there. -/
def Placed (rows : Rows) (input : MoveInput) : Prop :=
  (rows input.cardId).listId = input.targetListId ∧
    (∀ id ∈ input.beforeCardId, (rows id).listId = input.targetListId →
      (rows id).rank < (rows input.cardId).rank) ∧
    ∀ id ∈ input.afterCardId, (rows id).listId = input.targetListId →
      (rows input.cardId).rank < (rows id).rank

end CardMove
end TaskFlow
