import Mathlib.Data.List.Sort
import TaskFlow.PageRestore
import TaskFlow.Policy
import TaskFlow.UniqueInsert

/-! # Internal links and backlinks

A page links to another by a node that names its id.  `docs.backlinks` has a row for each two pages
that are linked, which the relay writes from what the page's content names: it replaces all rows of
the page.

What a link names is text, and only its shape is asked for.  The rows are of uuids, which have more
than one spelling, and of pages that exist: so not all links can be inserted (`insertable_iff`).
-/
namespace TaskFlow
namespace Backlinks
open CollabPage Policy UniqueInsert

abbrev PageId := String
abbrev PageVersionId := String

/-! ### The content of a page -/

/-- An attribute's value is text, or something else. -/
inductive AttributeValue where
  | text (value : String)
  | other
  deriving DecidableEq, Repr

/-- A node of a Yjs fragment. -/
inductive XmlNode where
  | text
  | element (nodeName : String) (attributes : List (String × AttributeValue))
      (children : List XmlNode)

def isHex (c : Char) : Bool := c.toLower ∈ "0123456789abcdef".toList

/-- `/^[0-9a-f]{8}-[0-9a-f]{4}-[1-8][0-9a-f]{3}-[89ab][0-9a-f]{3}-[0-9a-f]{12}$/i` -/
def UUID_PATTERN : List (Char → Bool) :=
  let hex (n : Nat) : List (Char → Bool) := List.replicate n isHex
  let isHyphen (c : Char) : Bool := c = '-'
  let isVersion (c : Char) : Bool := c ∈ "12345678".toList
  let isVariant (c : Char) : Bool := c.toLower ∈ "89ab".toList
  hex 8 ++ [isHyphen] ++ hex 4 ++ [isHyphen, isVersion] ++ hex 3 ++ [isHyphen, isVariant] ++
    hex 3 ++ [isHyphen] ++ hex 12

def matchesPattern : List (Char → Bool) → List Char → Bool
  | [], [] => true
  | accepts :: pattern, c :: text => accepts c && matchesPattern pattern text
  | _, _ => false

def isValidId (value : String) : Bool := matchesPattern UUID_PATTERN value.toList

/-- What an element names, if it is a link to a page. -/
def linkedPageId (nodeName : String) (attributes : List (String × AttributeValue)) :
    Option String :=
  if nodeName = "pageLink" then
    match attributes.lookup "pageId" with
    | some (.text pageId) => if isValidId pageId then some pageId else none
    | _ => none
  else none

mutual

/-- Adds what the links in a node name to what has been found. -/
def walk (found : List String) : XmlNode → List String
  | .text => found
  | .element nodeName attributes children =>
    match linkedPageId nodeName attributes with
    | some pageId => walkChildren (insertNew id found pageId) children
    | none => walkChildren found children

def walkChildren (found : List String) : List XmlNode → List String
  | [] => found
  | child :: rest => walkChildren (walk found child) rest

end

def extractInternalLinks (fragment : List XmlNode) (sourcePageId : PageId) : List String :=
  (walkChildren [] fragment).erase sourcePageId

/-! ### The tables -/

/-- A page, with its organization. -/
structure Page where
  orgId : OrgId
  pageId : PageId
  deriving DecidableEq, Repr

/-- A row of `docs.backlinks`. -/
structure Backlink where
  orgId : OrgId
  sourcePageId : PageId
  targetPageId : PageId
  deriving DecidableEq, Repr

def Backlink.source (edge : Backlink) : Page := ⟨edge.orgId, edge.sourcePageId⟩

def Backlink.target (edge : Backlink) : Page := ⟨edge.orgId, edge.targetPageId⟩

/-- What the database reads in the text of a uuid. -/
def uuid (text : String) : String := text.toLower

/-- The rows of a page that links to `targets`. -/
def Page.edges (page : Page) (targets : List String) : List Backlink :=
  targets.map fun target => ⟨page.orgId, page.pageId, uuid target⟩

/-- The keys and the check of `docs.backlinks`, for rows inserted by one statement.  `taken` are the
rows that there are. -/
def Insertable (pages : List Page) (taken rows : List Backlink) : Prop :=
  (∀ edge ∈ rows, edge.sourcePageId ≠ edge.targetPageId ∧ edge.source ∈ pages ∧
    edge.target ∈ pages) ∧ rows.Nodup ∧ ∀ edge ∈ rows, edge ∉ taken

instance (pages : List Page) (taken rows : List Backlink) :
    Decidable (Insertable pages taken rows) := inferInstanceAs (Decidable (_ ∧ _ ∧ _))

/-- Without the rows of a page. -/
def withoutSource (backlinks : List Backlink) (page : Page) : List Backlink :=
  backlinks.filter fun edge => edge.source ≠ page

variable {Op : Type} [DecidableEq Op]

/-- A row of `docs.page_versions`. -/
structure VersionRow (Op : Type) where
  id : PageVersionId
  page : Page
  version : PageVersionState Op
  deriving DecidableEq

/-- A row of `docs.yjs_updates`. -/
structure UpdateRow (Op : Type) where
  page : Page
  update : StoredUpdate Op
  deriving DecidableEq

def versionsOf (pageVersions : List (VersionRow Op)) (page : Page) : List (PageVersionState Op) :=
  (pageVersions.filter fun row => row.page = page).map VersionRow.version

def updatesOf (yjsUpdates : List (UpdateRow Op)) (page : Page) : List (StoredUpdate Op) :=
  (yjsUpdates.filter fun row => row.page = page).map UpdateRow.update

/-- `ORDER BY pv.created_at, pv.id` -/
def OlderFirst (a b : VersionRow Op) : Prop :=
  a.version.createdAt < b.version.createdAt ∨
    a.version.createdAt = b.version.createdAt ∧ a.id ≤ b.id

instance (a b : VersionRow Op) : Decidable (OlderFirst a b) :=
  inferInstanceAs (Decidable (_ ∨ _ ∧ _))

def unprocessed (pageVersions : List (VersionRow Op)) (backlinkDispatch : List PageVersionId) :
    List (VersionRow Op) :=
  pageVersions.filter fun row => row.id ∉ backlinkDispatch

def claimUnprocessedPageVersions (pageVersions : List (VersionRow Op))
    (backlinkDispatch : List PageVersionId) (limit : Nat) : List (VersionRow Op) :=
  ((unprocessed pageVersions backlinkDispatch).insertionSort OlderFirst).take limit

def distinctPages (claimed : List (VersionRow Op)) : List Page :=
  insertAll id [] (claimed.map VersionRow.page)

/-- The content of a page: `snapshot` is the latest version that has been read, and `content` what
Yjs shows of a document. -/
def materialized (content : Finset Op → List XmlNode) (pageVersions : List (VersionRow Op))
    (yjsUpdates : List (UpdateRow Op)) (snapshot : Option (PageVersionState Op)) (page : Page) :
    List XmlNode :=
  content (PageRestore.materializeCurrentState snapshot (updatesOf yjsUpdates page)
    (versionsOf pageVersions page))

/-! ### What is found -/

mutual

/-- What the links in a node name, each as often as it does. -/
def links : XmlNode → List String
  | .text => []
  | .element nodeName attributes children =>
    (linkedPageId nodeName attributes).toList ++ linksIn children

def linksIn : List XmlNode → List String
  | [] => []
  | child :: rest => links child ++ linksIn rest

end

mutual

theorem walk_eq (found : List String) :
    ∀ node, walk found node = insertAll id found (links node)
  | .text => rfl
  | .element nodeName attributes children => by
    rw [walk, links]
    cases linkedPageId nodeName attributes with
    | none => exact walkChildren_eq found children
    | some pageId => exact walkChildren_eq _ children

theorem walkChildren_eq (found : List String) :
    ∀ nodes, walkChildren found nodes = insertAll id found (linksIn nodes)
  | [] => rfl
  | child :: rest => by
    rw [walkChildren, linksIn, insertAll_append, walk_eq, walkChildren_eq]

end

section
variable {fragment : List XmlNode} {pageId sourcePageId : PageId}

theorem nodup_walkChildren (nodes : List XmlNode) : (walkChildren [] nodes).Nodup := by
  have h : ((insertAll id [] (linksIn nodes)).map id).Nodup := nodup_insertAll_nil
  rwa [List.map_id, ← walkChildren_eq] at h

theorem nodup_extractInternalLinks :
    (extractInternalLinks fragment sourcePageId).Nodup :=
  (nodup_walkChildren fragment).erase _

/-- Each link of the content but for those to itself. -/
theorem mem_extractInternalLinks :
    pageId ∈ extractInternalLinks fragment sourcePageId ↔
      pageId ∈ linksIn fragment ∧ pageId ≠ sourcePageId := by
  rw [extractInternalLinks, (nodup_walkChildren fragment).mem_erase_iff, and_comm,
    walkChildren_eq]
  refine and_congr_left fun _ => ⟨fun h => ?_, fun h => ?_⟩
  · exact (mem_insertAll h).resolve_left List.not_mem_nil
  · have hmem : pageId ∈ (insertAll id [] (linksIn fragment)).map id := key_mem_insertAll h
    rwa [List.map_id] at hmem

end

/-! ### What can be inserted -/

section
variable {pages : List Page} {page : Page} {targets : List String} {backlinks : List Backlink}
  {edge : Backlink}

theorem mem_edges : edge ∈ page.edges targets ↔
    edge.source = page ∧ ∃ target ∈ targets, uuid target = edge.targetPageId := by
  obtain ⟨orgId, sourcePageId, targetPageId⟩ := edge
  obtain ⟨orgId', pageId⟩ := page
  constructor
  · intro h
    obtain ⟨target, hmem, heq⟩ := List.mem_map.mp h
    cases heq
    exact ⟨rfl, target, hmem, rfl⟩
  · rintro ⟨hsource, target, hmem, rfl⟩
    cases hsource
    exact List.mem_map.mpr ⟨target, hmem, rfl⟩

theorem nodup_edges : (page.edges targets).Nodup ↔ (targets.map uuid).Nodup := by
  have hinj : Function.Injective fun targetPageId =>
      Backlink.mk page.orgId page.pageId targetPageId := fun _ _ h => (Backlink.mk.inj h).2.2
  rw [← List.nodup_map_iff hinj, List.map_map]
  rfl

theorem mem_withoutSource :
    edge ∈ withoutSource backlinks page ↔ edge ∈ backlinks ∧ edge.source ≠ page := by
  simp [withoutSource]

/-- The links of a page can be inserted when the page's rows are gone, if each of them names another
page of the organization, and no two of them the same. -/
theorem insertable_iff (hpage : page ∈ pages) :
    Insertable pages (withoutSource backlinks page) (page.edges targets) ↔
      (∀ target ∈ targets, uuid target ≠ page.pageId ∧ ⟨page.orgId, uuid target⟩ ∈ pages) ∧
        (targets.map uuid).Nodup := by
  have hfree : ∀ edge ∈ page.edges targets, edge ∉ withoutSource backlinks page :=
    fun edge hmem hold => (mem_withoutSource.mp hold).2 (mem_edges.mp hmem).1
  rw [Insertable, nodup_edges, and_iff_left hfree, Page.edges, List.forall_mem_map]
  refine and_congr_left fun _ => forall₂_congr fun target _ => ?_
  rw [ne_comm, and_congr_right_iff]
  exact fun _ => and_iff_right hpage

end

/-! ### Claims -/

section
variable {Op : Type} {pageVersions claimed : List (VersionRow Op)} {row : VersionRow Op}
  {backlinkDispatch marked : List PageVersionId} {page : Page} {limit : Nat}

theorem mem_unprocessed :
    row ∈ unprocessed pageVersions backlinkDispatch ↔
      row ∈ pageVersions ∧ row.id ∉ backlinkDispatch := by
  simp [unprocessed]

theorem unprocessed_eq_filter (h : ∀ versionId ∈ backlinkDispatch,
    versionId ∈ marked) :
    unprocessed pageVersions marked =
      (unprocessed pageVersions backlinkDispatch).filter fun row => row.id ∉ marked := by
  rw [unprocessed, unprocessed, List.filter_filter]
  refine List.filter_congr fun row _ => ?_
  by_cases hmarked : row.id ∈ marked
  · simp [hmarked]
  · simp [hmarked, mt (h row.id) hmarked]

theorem mem_of_claimed
    (h : row ∈ claimUnprocessedPageVersions pageVersions backlinkDispatch limit) :
    row ∈ unprocessed pageVersions backlinkDispatch :=
  (List.mem_insertionSort _).mp (List.mem_of_mem_take h)

theorem length_claimed : (claimUnprocessedPageVersions pageVersions backlinkDispatch limit).length =
    min limit (unprocessed pageVersions backlinkDispatch).length := by
  rw [claimUnprocessedPageVersions, List.length_take, List.length_insertionSort]

/-- A batch that has room for all versions has them all. -/
theorem claimed_of_few (hfew : (unprocessed pageVersions backlinkDispatch).length ≤ limit)
    (h : row ∈ unprocessed pageVersions backlinkDispatch) :
    row ∈ claimUnprocessedPageVersions pageVersions backlinkDispatch limit := by
  rw [claimUnprocessedPageVersions, List.take_of_length_le]
  · exact (List.mem_insertionSort _).mpr h
  · rwa [List.length_insertionSort]

theorem mem_distinctPages :
    page ∈ distinctPages claimed ↔ ∃ row ∈ claimed, row.page = page := by
  rw [distinctPages]
  constructor
  · intro h
    exact List.mem_map.mp ((mem_insertAll h).resolve_left List.not_mem_nil)
  · intro h
    have hmem : page ∈ (insertAll id [] (claimed.map VersionRow.page)).map id :=
      key_mem_insertAll (List.mem_map.mpr h)
    rwa [List.map_id] at hmem

end

end Backlinks
end TaskFlow
