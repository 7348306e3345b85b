import Mathlib.Data.List.Sort
import Mathlib.Data.String.Basic
import TaskFlow.ParentChain
import TaskFlow.Rank
import TaskFlow.Script

/-! # The page tree, statement by statement

A page has a parent in its space, or is a root of it.  Its row also lists its ancestors, the
nearest first: `createPage` puts the parent before the parent's own list, and `movePage`
rewrites that list for the page it moves and for every page under it.

Each of the two is one transaction, and its statements are those of the source in their order.
-/
namespace TaskFlow
namespace PageTree
open ReadCommitted ReadCommitted.Procedure

abbrev PageId := String

abbrev SpaceId := String

abbrev UserId := String

/-! ### Rows -/

/-- Where a page is in the tree. -/
structure Place where
  id : PageId
  spaceId : SpaceId
  parentPageId : Option PageId
  /-- `[immediate parent, grandparent, ..., root]`. -/
  ancestorIds : List PageId
  deriving DecidableEq, Repr

structure PageRow extends Place where
  title : String
  rank : List Char
  archivedAt : Option Int
  createdBy : Option UserId
  deriving DecidableEq, Repr

abbrev Rows := PageId → Option PageRow

/-- Every page with its place. -/
def places (rows : Rows) (id : PageId) : Option Place := (rows id).map PageRow.toPlace

/-- The parent of each page. -/
def parentOf (tree : PageId → Option Place) (id : PageId) : Option PageId :=
  (tree id).bind Place.parentPageId

/-- The checks and the foreign key of `docs.pages`: a page is neither its own parent nor its own
ancestor, and its parent is a page of its space. -/
def PageRow.valid (rows : Rows) (row : PageRow) : Bool :=
  row.parentPageId ≠ some row.id ∧ row.id ∉ row.ancestorIds ∧
    row.parentPageId.all fun parentId =>
      (rows parentId).any fun parent => parent.spaceId = row.spaceId

structure Sibling where
  pageId : PageId
  rank : List Char
  deriving DecidableEq, Repr

/-- `ORDER BY rank, id`. -/
def RankedBefore (a b : Sibling) : Prop :=
  a.rank < b.rank ∨ a.rank = b.rank ∧ a.pageId ≤ b.pageId

instance : DecidableRel RankedBefore := fun a b =>
  inferInstanceAs (Decidable (a.rank < b.rank ∨ a.rank = b.rank ∧ a.pageId ≤ b.pageId))

/-- The live pages under one parent, in order. -/
def siblingsIn (pages : List PageId) (rows : Rows) (spaceId : SpaceId)
    (parentPageId excluding : Option PageId) : List Sibling :=
  ((pages.filterMap rows).filter fun row =>
      row.spaceId = spaceId ∧ row.parentPageId = parentPageId ∧ row.archivedAt = none ∧
        excluding ≠ some row.id).map (fun row => ⟨row.id, row.rank⟩) |>.insertionSort RankedBefore

/-- The pages of the space that have `pageId` among their ancestors, with these. -/
def descendantsOf (pages : List PageId) (rows : Rows) (spaceId : SpaceId) (pageId : PageId) :
    List (PageId × List PageId) :=
  ((pages.filterMap rows).filter fun row =>
      row.spaceId = spaceId ∧ pageId ∈ row.ancestorIds).map fun row => (row.id, row.ancestorIds)

/-- The path of a descendant of `pageId`, which gets the path `ancestorIds`. -/
def rewritten (pageId : PageId) (ancestorIds path : List PageId) : List PageId :=
  path.take (path.idxOf pageId) ++ pageId :: ancestorIds

/-! ### Statements -/

inductive Note where
  | pageCreated (pageId : PageId) (spaceId : SpaceId) (parentPageId : Option PageId)
      (title : String)
  | pageMoved (pageId : PageId) (spaceId : SpaceId)
      (fromParentPageId toParentPageId : Option PageId) (rank : List Char)
  | pageSiblingsRebalanced (spaceId : SpaceId) (parentPageId : Option PageId) (count : Nat)
  deriving DecidableEq, Repr

abbrev Procedure (α : Type) := ReadCommitted.Procedure PageId (Option PageRow) Unit Unit Note α

/-- UPDATE of the page with this id.  It throws where the new row breaks a constraint. -/
def setPage (pageId : PageId) (f : PageRow → PageRow) : Procedure Unit := do
  let valid ← statement ()
    (fun _ rows => ([], (((rows pageId).map f).filter (·.valid rows)).toList.map fun row =>
      (pageId, some row)))
    (fun _ rows => ((rows pageId).map f).all (·.valid rows))
  require valid

/-- INSERT of a page whose id is one of `pages`. -/
def insertPage (pages : List PageId) (row : PageRow) : Procedure Unit := do
  require (row.id ∈ pages)
  let inserted ← statement ()
    (fun _ rows => ([], if rows row.id = none ∧ row.valid rows then [(row.id, some row)] else []))
    (fun _ rows => decide (rows row.id = none ∧ row.valid rows))
  require inserted

/-! ### Services -/

/-- What the policy engine answers for a caller. -/
structure DocsActor where
  userId : UserId
  mayUpdate : PageRow → Bool
  mayCreateUnder : PageRow → Bool
  mayCreateIn : SpaceId → Bool

section
variable (spaces : List SpaceId) (pages : List PageId)

def loadSpace (spaceId : SpaceId) : Procedure Unit := do
  let found ← select () fun _ => decide (spaceId ∈ spaces)
  require found

def loadPage (pageId : PageId) : Procedure PageRow := do
  let row ← select () fun rows => rows pageId
  ofOption row

def loadPageSiblings (spaceId : SpaceId) (parentPageId excluding : Option PageId) :
    Procedure (List Sibling) :=
  select () fun rows => siblingsIn pages rows spaceId parentPageId excluding

/-- The ancestors of a new page. -/
def ancestorsUnder (actor : DocsActor) (spaceId : SpaceId) :
    Option PageId → Procedure (List PageId)
  | none => do
    require (actor.mayCreateIn spaceId)
    return []
  | some parentPageId => do
    let parent ← loadPage parentPageId
    require (parent.spaceId = spaceId)
    require (parent.archivedAt = none)
    require (actor.mayCreateUnder parent)
    return parent.id :: parent.ancestorIds

structure CreateInput where
  pageId : PageId
  spaceId : SpaceId
  parentPageId : Option PageId
  title : String

def createPage (actor : DocsActor) (input : CreateInput) : Procedure Unit :=
  transaction do
    loadSpace spaces input.spaceId
    let ancestorIds ← ancestorsUnder actor input.spaceId input.parentPageId
    let siblings ← loadPageSiblings pages input.spaceId input.parentPageId none
    let rank ← ofOption (Rank.between (siblings.getLast?.map (·.rank)) none).toOption
    insertPage pages
      { id := input.pageId
        spaceId := input.spaceId
        parentPageId := input.parentPageId
        ancestorIds := ancestorIds
        title := input.title
        rank := rank
        archivedAt := none
        createdBy := some actor.userId }
    return ([.pageCreated input.pageId input.spaceId input.parentPageId input.title], ())

structure MoveInput where
  pageId : PageId
  targetParentId : Option PageId
  beforePageId : Option PageId
  afterPageId : Option PageId

/-- The path of the page at its new place. -/
def newPath (actor : DocsActor) (page : PageRow) : Option PageId → Procedure (List PageId)
  | none => do
    loadSpace spaces page.spaceId
    require (actor.mayCreateIn page.spaceId)
    return []
  | some targetParentId => do
    require (targetParentId ≠ page.id)
    let newParent ← loadPage targetParentId
    require (newParent.spaceId = page.spaceId)
    require (page.id ∉ newParent.ancestorIds)
    require (actor.mayCreateUnder newParent)
    return newParent.id :: newParent.ancestorIds

inductive MoveError where
  | notFound
  | invalidRank (error : Rank.InvalidRankError)
  deriving DecidableEq, Repr

/-- The rank of a named neighbour. -/
def rankOfNeighbour (siblings : List Sibling) :
    Option PageId → Except MoveError (Option (List Char))
  | none => .ok none
  | some pageId =>
    match siblings.find? fun row => row.pageId = pageId with
    | none => .error .notFound
    | some sibling => .ok (some sibling.rank)

def rankAmong (siblings : List Sibling) (input : MoveInput) : Except MoveError (List Char) := do
  let before ← rankOfNeighbour siblings input.beforePageId
  let after ← rankOfNeighbour siblings input.afterPageId
  match Rank.between before after with
  | .ok rank => return rank
  | .error error => throw (.invalidRank error)

def setRanks : List (PageId × List Char) → Procedure Unit
  | [] => pure ()
  | (pageId, rank) :: rest => do
    setPage pageId fun row => { row with rank := rank }
    setRanks rest

def rebalancePageSiblings (spaceId : SpaceId) (parentPageId : Option PageId) : Procedure Nat := do
  let rows ← loadPageSiblings pages spaceId parentPageId none
  let ranks ← ofOption (Rank.rankSequence rows.length).toOption
  setRanks ((rows.map (·.pageId)).zip ranks)
  return rows.length

/-- The rank of the page at its new place, and how many rows were rebalanced for it. -/
def rankAt (page : PageRow) (input : MoveInput) : Procedure (List Char × Option Nat) := do
  let siblings ← loadPageSiblings pages page.spaceId input.targetParentId (some input.pageId)
  match rankAmong siblings input with
  | .ok rank => pure (rank, none)
  | .error .notFound => fail
  | .error (.invalidRank _) => do
    let count ← rebalancePageSiblings pages page.spaceId input.targetParentId
    let repaired ← loadPageSiblings pages page.spaceId input.targetParentId (some input.pageId)
    let rank ← ofOption (rankAmong repaired input).toOption
    return (rank, some count)

def rewriteDescendants (pageId : PageId) (ancestorIds : List PageId) :
    List (PageId × List PageId) → Procedure Unit
  | [] => pure ()
  | (descendantId, path) :: rest =>
    if pageId ∈ path then do
      setPage descendantId fun row => { row with ancestorIds := rewritten pageId ancestorIds path }
      rewriteDescendants pageId ancestorIds rest
    else rewriteDescendants pageId ancestorIds rest

/-- The paths of the pages under a page that gets another parent. -/
def rewriteSubtree (page : PageRow) (targetParentId : Option PageId)
    (ancestorIds : List PageId) : Procedure Unit :=
  if page.parentPageId ≠ targetParentId then do
    let descendants ← select () fun rows => descendantsOf pages rows page.spaceId page.id
    rewriteDescendants page.id ancestorIds descendants
  else pure ()

def movePage (actor : DocsActor) (input : MoveInput) : Procedure (List Char × Bool) :=
  transaction do
    let page ← loadPage input.pageId
    require (actor.mayUpdate page)
    let newAncestorIds ← newPath spaces actor page input.targetParentId
    let (rank, rebalancedCount) ← rankAt pages page input
    rewriteSubtree pages page input.targetParentId newAncestorIds
    setPage input.pageId fun row =>
      { row with
        parentPageId := input.targetParentId
        rank := rank
        ancestorIds := newAncestorIds }
    let events := rebalancedCount.toList.map
      (Note.pageSiblingsRebalanced page.spaceId input.targetParentId)
    return (.pageMoved input.pageId page.spaceId page.parentPageId input.targetParentId rank ::
      events, (rank, rebalancedCount.isSome))

/-! ### Calls -/

inductive Call where
  | createPage (actor : DocsActor) (input : CreateInput)
  | movePage (actor : DocsActor) (input : MoveInput)

def calls : Call → Script PageId (Option PageRow) Unit Unit Note
  | .createPage actor input => (createPage spaces pages actor input).script
  | .movePage actor input => (movePage spaces pages actor input).script

/-- The rows after calls made one at a time. -/
def oneAtATime : List Call → Rows → Option Rows
  | [], rows => some rows
  | call :: rest, rows =>
    (Script.alone () (calls spaces pages call) true [] rows).bind fun result =>
      oneAtATime rest result.1

end

end PageTree
end TaskFlow
