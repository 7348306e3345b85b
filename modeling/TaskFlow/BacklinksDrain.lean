import Mathlib.Data.List.MinMax
import TaskFlow.InternalLinks

/-! # Draining the backlinks relay

A batch is of versions of any organizations' pages.  The rows of each page are replaced in a
transaction of its own, and the first one that fails ends the batch before any version of it is
marked; the next batch claims the same versions again.

So all versions are marked if and only if the links of each page that has an unmarked one can be
inserted (`drainsAll_iff`).  One link to a page that is not there stops the relay for everybody
(`stopped_by_one`).
-/
namespace TaskFlow
namespace Backlinks
open CollabPage SnapshotLog UniqueInsert

/-- What is there while the relay drains. -/
structure Docs (Op : Type) where
  pages : List Page
  pageVersions : List (VersionRow Op)
  yjsUpdates : List (UpdateRow Op)
  page_versions_pkey : (pageVersions.map VersionRow.id).Nodup
  page_versions_page_fk : ∀ row ∈ pageVersions, row.page ∈ pages

/-- The first of the rows ordered by `created_at DESC`.  Which one it is among the newest, the order
does not say. -/
structure Latest (Op : Type) where
  first : List (PageVersionState Op) → Option (PageVersionState Op)
  newest : ∀ versions, Newest versions (first versions)

/-- The tables that the relay writes.  An event of the outbox says that a page's content is new. -/
structure Relay where
  backlinks : List Backlink
  backlinkDispatch : List PageVersionId
  outbox : List Page

structure DrainResult where
  processed : Nat
  pagesUpdated : Nat

/-- The versions that are not marked. -/
abbrev Docs.unprocessed {Op : Type} (docs : Docs Op) (relay : Relay) : List (VersionRow Op) :=
  Backlinks.unprocessed docs.pageVersions relay.backlinkDispatch

/-- The batch that is claimed next. -/
abbrev Docs.claimed {Op : Type} (docs : Docs Op) (relay : Relay) (limit : Nat) :
    List (VersionRow Op) :=
  claimUnprocessedPageVersions docs.pageVersions relay.backlinkDispatch limit

section
variable {Op : Type} [DecidableEq Op] (content : Finset Op → List XmlNode) (latest : Latest Op)
  (docs : Docs Op)

/-- What the fragment of a page has in it. -/
def fragmentOf (page : Page) : List XmlNode :=
  materialized content docs.pageVersions docs.yjsUpdates
    (latest.first (versionsOf docs.pageVersions page)) page

/-- The rows that a page is to have. -/
def edgesOf (page : Page) : List Backlink :=
  page.edges (extractInternalLinks (fragmentOf content latest docs page) page.pageId)

/-- None where the transaction is rolled back. -/
def rewriteBacklinks (relay : Relay) (page : Page) : Option Relay :=
  let kept := withoutSource relay.backlinks page
  let rows := edgesOf content latest docs page
  if Insertable docs.pages kept rows then
    some { relay with backlinks := kept ++ rows, outbox := relay.outbox ++ [page] }
  else none

/-- Rewrites pages until one fails, and whether none has. -/
@[grind =] def rewriteAll (relay : Relay) : List Page → Relay × Bool
  | [] => (relay, true)
  | page :: rest =>
    match rewriteBacklinks content latest docs relay page with
    | some relay => rewriteAll relay rest
    | none => (relay, false)

/-- The insert does nothing for a row that is there. -/
def markBacklinksProcessed (relay : Relay) (ids : List PageVersionId) : Relay :=
  { relay with backlinkDispatch := insertAll id relay.backlinkDispatch ids }

/-- No result where a page's failure is thrown. -/
@[grind =] def drainBacklinks (limit : Nat) (relay : Relay) : Relay × Option DrainResult :=
  let claimed := docs.claimed relay limit
  if claimed.length = 0 then (relay, some ⟨0, 0⟩)
  else
    match rewriteAll content latest docs relay (distinctPages claimed) with
    | (relay, true) => (markBacklinksProcessed relay (claimed.map VersionRow.id),
        some ⟨claimed.length, (distinctPages claimed).length⟩)
    | (relay, false) => (relay, none)

@[grind =] def drainFrom (batchSize : Nat) : Nat → DrainResult → Relay → Relay × Option DrainResult
  | 0, total, relay => (relay, some total)
  | maxBatches + 1, total, relay =>
    match drainBacklinks content latest docs batchSize relay with
    | (relay, none) => (relay, none)
    | (relay, some result) =>
      let total := ⟨total.processed + result.processed, total.pagesUpdated + result.pagesUpdated⟩
      if result.processed < batchSize then (relay, some total)
      else drainFrom batchSize maxBatches total relay

def drainBacklinksFully (batchSize maxBatches : Nat) (relay : Relay) :
    Relay × Option DrainResult :=
  drainFrom content latest docs batchSize maxBatches ⟨0, 0⟩ relay

/-! ### What is asked of it -/

/-- Every version is marked, and the rows of each page that had one that was not are its links. -/
structure Drained (before after : Relay) : Prop where
  marked : ∀ row ∈ docs.pageVersions, row.id ∈ after.backlinkDispatch
  rewritten : ∀ row ∈ docs.unprocessed before, ∀ edge : Backlink, edge.source = row.page →
    (edge ∈ after.backlinks ↔ edge ∈ edgesOf content latest docs row.page)

/-- With enough batches the drain returns and all is drained. -/
def DrainsAll (batchSize : Nat) (relay : Relay) : Prop :=
  ∃ enough, ∀ maxBatches, enough ≤ maxBatches →
    (drainBacklinksFully content latest docs batchSize maxBatches relay).2.isSome ∧
      Drained content latest docs relay
        (drainBacklinksFully content latest docs batchSize maxBatches relay).1

/-- Each link of the page is to itself, or names another page of the organization, which no other
link names in another spelling. -/
structure SoundLinks (page : Page) : Prop where
  exist : ∀ pageId ∈ linksIn (fragmentOf content latest docs page), pageId ≠ page.pageId →
    uuid pageId ≠ page.pageId ∧ ⟨page.orgId, uuid pageId⟩ ∈ docs.pages
  oneSpelling : ∀ pageId ∈ linksIn (fragmentOf content latest docs page),
    ∀ other ∈ linksIn (fragmentOf content latest docs page),
      pageId ≠ page.pageId → other ≠ page.pageId → uuid pageId = uuid other → pageId = other

end

theorem mem_marked {relay : Relay} {ids : List PageVersionId} {versionId : PageVersionId} :
    versionId ∈ (markBacklinksProcessed relay ids).backlinkDispatch ↔
      versionId ∈ relay.backlinkDispatch ∨ versionId ∈ ids := by
  constructor
  · exact mem_insertAll
  · rintro (h | h)
    · exact subset_insertAll h
    · have hmem : versionId ∈ (insertAll id relay.backlinkDispatch ids).map id :=
        key_mem_insertAll h
      rwa [List.map_id] at hmem

section
variable {Op : Type} [DecidableEq Op] {content : Finset Op → List XmlNode} {latest : Latest Op}
  {docs : Docs Op} {relay relay' : Relay} {page : Page} {limit : Nat}

theorem soundLinks_iff (hpage : page ∈ docs.pages) :
    Insertable docs.pages (withoutSource relay.backlinks page) (edgesOf content latest docs page) ↔
      SoundLinks content latest docs page := by
  rw [edgesOf, insertable_iff hpage,
    List.nodup_map_iff_inj_on nodup_extractInternalLinks]
  simp only [mem_extractInternalLinks]
  constructor
  · rintro ⟨hexist, hspelling⟩
    exact ⟨fun pageId hlink hne => hexist pageId ⟨hlink, hne⟩,
      fun pageId hlink other hother hne hne' => hspelling pageId ⟨hlink, hne⟩ other ⟨hother, hne'⟩⟩
  · intro h
    exact ⟨fun pageId hlink => h.exist pageId hlink.1 hlink.2,
      fun pageId hlink other hother => h.oneSpelling pageId hlink.1 other hother.1 hlink.2
        hother.2⟩

/-! ### One page after another -/

theorem rewriteBacklinks_some (hpage : page ∈ docs.pages)
    (hsound : SoundLinks content latest docs page) :
    rewriteBacklinks content latest docs relay page =
      some { relay with
        backlinks := withoutSource relay.backlinks page ++ edgesOf content latest docs page
        outbox := relay.outbox ++ [page] } :=
  if_pos ((soundLinks_iff hpage).mpr hsound)

theorem rewriteBacklinks_dispatch
    (h : rewriteBacklinks content latest docs relay page = some relay') :
    relay'.backlinkDispatch = relay.backlinkDispatch := by
  obtain ⟨-, h⟩ := Option.ite_none_right_eq_some.mp h
  exact (congrArg Relay.backlinkDispatch (Option.some.inj h)).symm

theorem rewriteAll_cons_of_some {relay' : Relay} {rest : List Page}
    (h : rewriteBacklinks content latest docs relay page = some relay') :
    rewriteAll content latest docs relay (page :: rest) =
      rewriteAll content latest docs relay' rest := by
  rw [rewriteAll, h]

theorem rewriteAll_cons_of_none {rest : List Page}
    (h : rewriteBacklinks content latest docs relay page = none) :
    rewriteAll content latest docs relay (page :: rest) = (relay, false) := by
  rw [rewriteAll, h]

/-- The rows of the pages that are rewritten are their links, and those of the others stay. -/
theorem rewriteAll_sound (relay : Relay) {pages : List Page}
    (hpages : ∀ page ∈ pages, page ∈ docs.pages)
    (hsound : ∀ page ∈ pages, SoundLinks content latest docs page) :
    ∃ relay', rewriteAll content latest docs relay pages = (relay', true) ∧
      ∀ edge : Backlink,
        (edge.source ∈ pages → (edge ∈ relay'.backlinks ↔
          edge ∈ edgesOf content latest docs edge.source)) ∧
        (edge.source ∉ pages → (edge ∈ relay'.backlinks ↔ edge ∈ relay.backlinks)) := by
  induction pages generalizing relay with
  | nil => exact ⟨relay, rfl, fun edge => ⟨fun h => absurd h List.not_mem_nil, fun _ => Iff.rfl⟩⟩
  | cons page rest ih =>
    obtain ⟨hpage, hpages⟩ := List.forall_mem_cons.mp hpages
    obtain ⟨hpageSound, hsound⟩ := List.forall_mem_cons.mp hsound
    rw [rewriteAll_cons_of_some (rewriteBacklinks_some hpage hpageSound)]
    obtain ⟨relay', hrewritten, hedges⟩ := ih _ hpages hsound
    refine ⟨relay', hrewritten, fun edge => ⟨fun hmem => ?_, fun hmem => ?_⟩⟩
    · by_cases hrest : edge.source ∈ rest
      · exact (hedges edge).1 hrest
      · obtain hsource := (List.mem_cons.mp hmem).resolve_right hrest
        rw [(hedges edge).2 hrest, List.mem_append, mem_withoutSource, hsource]
        simp
    · obtain ⟨hsource, hrest⟩ := not_or.mp (mt List.mem_cons.mpr hmem)
      rw [(hedges edge).2 hrest, List.mem_append, mem_withoutSource]
      have hnew : edge ∉ edgesOf content latest docs page := fun h => hsource (mem_edges.mp h).1
      simp [hsource, hnew]

theorem rewriteAll_unsound {pages : List Page} (hpage : page ∈ docs.pages) (hmem : page ∈ pages)
    (hunsound : ¬SoundLinks content latest docs page) :
    (rewriteAll content latest docs relay pages).2 = false := by
  induction pages generalizing relay with
  | nil => exact absurd hmem List.not_mem_nil
  | cons first rest ih =>
    cases hrewritten : rewriteBacklinks content latest docs relay first with
    | none => rw [rewriteAll_cons_of_none hrewritten]
    | some relay' =>
      rw [rewriteAll_cons_of_some hrewritten]
      rcases List.mem_cons.mp hmem with rfl | hmem
      · obtain ⟨hinsertable, -⟩ := Option.ite_none_right_eq_some.mp hrewritten
        exact absurd ((soundLinks_iff hpage).mp hinsertable) hunsound
      · exact ih hmem

theorem rewriteAll_dispatch (pages : List Page) :
    (rewriteAll content latest docs relay pages).1.backlinkDispatch = relay.backlinkDispatch := by
  induction pages generalizing relay with
  | nil => rfl
  | cons first rest ih =>
    cases hrewritten : rewriteBacklinks content latest docs relay first with
    | none => rw [rewriteAll_cons_of_none hrewritten]
    | some relay' =>
      rw [rewriteAll_cons_of_some hrewritten]
      exact ih.trans (rewriteBacklinks_dispatch hrewritten)

/-! ### A batch -/

/-- Where the pages of the unmarked versions can be rewritten, a batch marks what it has claimed. -/
theorem drainBacklinks_sound (limit : Nat)
    (hsound : ∀ row ∈ docs.unprocessed relay, SoundLinks content latest docs row.page) :
    ∃ relay' result, drainBacklinks content latest docs limit relay = (relay', some result) ∧
      result.processed = (docs.claimed relay limit).length ∧
      (∀ versionId, versionId ∈ relay'.backlinkDispatch ↔ versionId ∈ relay.backlinkDispatch ∨
        versionId ∈ (docs.claimed relay limit).map VersionRow.id) ∧
      ∀ edge : Backlink,
        ((∃ row ∈ docs.claimed relay limit, row.page = edge.source) →
          (edge ∈ relay'.backlinks ↔ edge ∈ edgesOf content latest docs edge.source)) ∧
        ((¬∃ row ∈ docs.claimed relay limit, row.page = edge.source) →
          (edge ∈ relay'.backlinks ↔ edge ∈ relay.backlinks)) := by
  have hclaimed : ∀ row ∈ docs.claimed relay limit,
      row.page ∈ docs.pages ∧ SoundLinks content latest docs row.page := fun row hrow =>
    have hrow := mem_of_claimed hrow
    ⟨docs.page_versions_page_fk row (mem_unprocessed.mp hrow).1, hsound row hrow⟩
  rw [drainBacklinks]
  generalize docs.claimed relay limit = claimed at hclaimed ⊢
  by_cases hnone : claimed.length = 0
  · obtain rfl := List.eq_nil_of_length_eq_zero hnone
    exact ⟨relay, ⟨0, 0⟩, rfl, rfl, by simp, by simp⟩
  · have hpages : ∀ page ∈ distinctPages claimed,
        page ∈ docs.pages ∧ SoundLinks content latest docs page := by
      intro page hpage
      obtain ⟨row, hrow, rfl⟩ := mem_distinctPages.mp hpage
      exact hclaimed row hrow
    obtain ⟨relay', hrewritten, hedges⟩ := rewriteAll_sound relay
      (fun page hpage => (hpages page hpage).1) fun page hpage => (hpages page hpage).2
    have hdispatch : relay'.backlinkDispatch = relay.backlinkDispatch :=
      (congrArg (fun rewritten => rewritten.1.backlinkDispatch) hrewritten).symm.trans
        (rewriteAll_dispatch _)
    rw [if_neg hnone, hrewritten]
    refine ⟨_, _, rfl, rfl, fun versionId => ?_, fun edge => ?_⟩
    · rw [mem_marked, hdispatch]
    · rw [← mem_distinctPages]
      exact hedges edge

/-- A version whose page cannot be rewritten stays unmarked. -/
theorem drainBacklinks_unsound (limit : Nat) {row : VersionRow Op}
    (hrow : row ∈ docs.unprocessed relay)
    (hunsound : ¬SoundLinks content latest docs row.page) :
    row ∈ docs.unprocessed (drainBacklinks content latest docs limit relay).1 := by
  obtain ⟨hmem, hunmarked⟩ := mem_unprocessed.mp hrow
  have hclaimed : ∀ row' ∈ docs.claimed relay limit,
      row' ∈ docs.pageVersions := fun row' hrow' => (mem_unprocessed.mp (mem_of_claimed hrow')).1
  refine mem_unprocessed.mpr ⟨hmem, ?_⟩
  rw [drainBacklinks]
  generalize docs.claimed relay limit = claimed at hclaimed ⊢
  by_cases hnone : claimed.length = 0
  · rwa [if_pos hnone]
  · rw [if_neg hnone]
    have hdispatch : (rewriteAll content latest docs relay
        (distinctPages claimed)).1.backlinkDispatch = relay.backlinkDispatch :=
      rewriteAll_dispatch _
    have hfails : row ∈ claimed →
        (rewriteAll content latest docs relay (distinctPages claimed)).2 = false :=
      fun hrow => rewriteAll_unsound (docs.page_versions_page_fk row hmem)
        (mem_distinctPages.mpr ⟨row, hrow, rfl⟩) hunsound
    generalize rewriteAll content latest docs relay (distinctPages claimed) = rewritten
      at hdispatch hfails ⊢
    obtain ⟨relay', success⟩ := rewritten
    cases success with
    | false => exact hdispatch ▸ hunmarked
    | true =>
      rw [mem_marked, not_or]
      refine ⟨hdispatch ▸ hunmarked, fun hmarked => ?_⟩
      obtain ⟨row', hrow', hid⟩ := List.mem_map.mp hmarked
      have hsame : row' = row := List.inj_on_of_nodup_map docs.page_versions_pkey
        (hclaimed row' hrow') hmem hid
      exact absurd (hfails (hsame ▸ hrow')) (by simp)

/-! ### The whole drain -/

/-- The rows of each page that has been processed since are its links. -/
def ProcessedSince (content : Finset Op → List XmlNode) (latest : Latest Op) (docs : Docs Op)
    (before after : Relay) : Prop :=
  ∀ row ∈ docs.unprocessed before, row.id ∈ after.backlinkDispatch → ∀ edge : Backlink,
    edge.source = row.page →
      (edge ∈ after.backlinks ↔ edge ∈ edgesOf content latest docs row.page)

variable {before : Relay}

/-- A batch rewrites the pages of the versions that it marks. -/
theorem ProcessedSince.drain {claimed : List (VersionRow Op)} {relay' : Relay}
    (hsince : ProcessedSince content latest docs before relay)
    (hclaimed : ∀ row ∈ claimed, row ∈ docs.pageVersions)
    (hdispatch : ∀ versionId, versionId ∈ relay'.backlinkDispatch ↔
      versionId ∈ relay.backlinkDispatch ∨ versionId ∈ claimed.map VersionRow.id)
    (hedges : ∀ edge : Backlink,
      ((∃ row ∈ claimed, row.page = edge.source) →
        (edge ∈ relay'.backlinks ↔ edge ∈ edgesOf content latest docs edge.source)) ∧
      ((¬∃ row ∈ claimed, row.page = edge.source) →
        (edge ∈ relay'.backlinks ↔ edge ∈ relay.backlinks))) :
    ProcessedSince content latest docs before relay' := by
  intro row hrow hmarked edge hsource
  by_cases hof : ∃ row' ∈ claimed, row'.page = edge.source
  · rw [(hedges edge).1 hof, hsource]
  · rw [(hedges edge).2 hof]
    refine hsince row hrow (((hdispatch row.id).mp hmarked).resolve_right fun h => ?_) edge hsource
    obtain ⟨row', hrow', hid⟩ := List.mem_map.mp h
    have hsame : row' = row := List.inj_on_of_nodup_map docs.page_versions_pkey
      (hclaimed row' hrow') (mem_unprocessed.mp hrow).1 hid
    exact hof ⟨row', hrow', hsame ▸ hsource.symm⟩

/-- As long as there are more batches than versions left, all of them are marked. -/
theorem drainFrom_sound {batchSize : Nat} (hbatch : 0 < batchSize)
    (hsound : ∀ row ∈ docs.unprocessed before, SoundLinks content latest docs row.page)
    (hsince : ProcessedSince content latest docs before relay)
    (hleft : docs.unprocessed relay ⊆ docs.unprocessed before) (maxBatches : Nat)
    (henough : (docs.unprocessed relay).length < maxBatches) (total : DrainResult) :
    (drainFrom content latest docs batchSize maxBatches total relay).2.isSome ∧
      Drained content latest docs before
        (drainFrom content latest docs batchSize maxBatches total relay).1 := by
  induction maxBatches generalizing relay total with
  | zero => exact absurd henough (Nat.not_lt_zero _)
  | succ maxBatches ih =>
    obtain ⟨relay', result, hdrain, hprocessed, hdispatch, hedges⟩ :=
      drainBacklinks_sound batchSize fun row hrow => hsound row (hleft hrow)
    have hgrows : ∀ versionId ∈ relay.backlinkDispatch, versionId ∈ relay'.backlinkDispatch :=
      fun versionId h => (hdispatch versionId).mpr (.inl h)
    have hfilter : docs.unprocessed relay' =
        (docs.unprocessed relay).filter fun row => row.id ∉ relay'.backlinkDispatch :=
      unprocessed_eq_filter hgrows
    have hsince' : ProcessedSince content latest docs before relay' := hsince.drain
      (fun row' hrow' => (mem_unprocessed.mp (mem_of_claimed hrow')).1) hdispatch hedges
    simp only [drainFrom, hdrain]
    have hlength : (docs.claimed relay batchSize).length =
        min batchSize (docs.unprocessed relay).length := length_claimed
    by_cases hshort : result.processed < batchSize
    · rw [if_pos hshort]
      have hfew : (docs.unprocessed relay).length ≤ batchSize := by omega
      have hmarked : ∀ row ∈ docs.pageVersions, row.id ∈ relay'.backlinkDispatch := by
        intro row hrow
        by_contra hunmarked
        have hold : row ∈ docs.unprocessed relay :=
          mem_unprocessed.mpr ⟨hrow, fun h => hunmarked (hgrows _ h)⟩
        exact hunmarked ((hdispatch row.id).mpr (.inr
          (List.mem_map_of_mem (claimed_of_few hfew hold))))
      exact ⟨rfl, hmarked, fun row hrow => hsince' row hrow
        (hmarked row (mem_unprocessed.mp hrow).1)⟩
    · rw [if_neg hshort]
      refine ih hsince' ?_ ?_ _
      · rw [hfilter]
        exact fun row hrow => hleft (List.mem_of_mem_filter hrow)
      · -- a full batch has a version in it, which it has marked
        have hfull : 0 < (docs.claimed relay batchSize).length := by omega
        obtain ⟨row, hrow⟩ := List.exists_mem_of_length_pos hfull
        have hfewer : (docs.unprocessed relay').length < (docs.unprocessed relay).length := by
          rw [hfilter, List.length_filter_lt_length_iff_exists]
          exact ⟨row, mem_of_claimed hrow,
            by simpa using (hdispatch row.id).mpr (.inr (List.mem_map_of_mem hrow))⟩
        omega

theorem drainFrom_unsound (batchSize : Nat) {row : VersionRow Op}
    (hrow : row ∈ docs.unprocessed relay)
    (hunsound : ¬SoundLinks content latest docs row.page) (maxBatches : Nat)
    (total : DrainResult) :
    row ∈ docs.unprocessed
      (drainFrom content latest docs batchSize maxBatches total relay).1 := by
  induction maxBatches generalizing relay total with
  | zero => exact hrow
  | succ maxBatches ih =>
    have hstays := drainBacklinks_unsound batchSize hrow hunsound
    rw [drainFrom]
    generalize drainBacklinks content latest docs batchSize relay = drained at hstays
    obtain ⟨relay', result⟩ := drained
    cases result with
    | none => exact hstays
    | some result =>
      simp only
      split
      · exact hstays
      · exact ih hstays _

/-- One version whose page cannot be rewritten keeps all those unmarked that are claimed with it. -/
theorem stopped_by_one {batchSize : Nat} (hfew : (docs.unprocessed relay).length ≤ batchSize)
    {row : VersionRow Op} (hrow : row ∈ docs.unprocessed relay)
    (hunsound : ¬SoundLinks content latest docs row.page) (maxBatches : Nat) :
    (drainBacklinksFully content latest docs batchSize maxBatches relay).1.backlinkDispatch =
      relay.backlinkDispatch := by
  have hclaimed := claimed_of_few hfew hrow
  have hsome : (docs.claimed relay batchSize).length ≠ 0 :=
    (List.length_pos_of_mem hclaimed).ne'
  obtain ⟨relay', hrewritten⟩ : ∃ relay', rewriteAll content latest docs relay
      (distinctPages (docs.claimed relay batchSize)) = (relay', false) :=
    ⟨_, Prod.ext rfl (rewriteAll_unsound
      (docs.page_versions_page_fk row (mem_unprocessed.mp hrow).1)
      (mem_distinctPages.mpr ⟨row, hclaimed, rfl⟩) hunsound)⟩
  cases maxBatches with
  | zero => rfl
  | succ maxBatches =>
    simp only [drainBacklinksFully, drainFrom, drainBacklinks, if_neg hsome, hrewritten]
    exact (congrArg (fun rewritten => rewritten.1.backlinkDispatch) hrewritten).symm.trans
      (rewriteAll_dispatch _)

end

/-- **With enough batches all versions are marked and their pages rewritten, if and only if the
links of each page that has an unmarked version can be inserted.** -/
theorem drainsAll_iff {Op : Type} [DecidableEq Op] {content : Finset Op → List XmlNode}
    {latest : Latest Op} {docs : Docs Op} {relay : Relay} {batchSize : Nat}
    (hbatch : 0 < batchSize) :
    DrainsAll content latest docs batchSize relay ↔
      ∀ row ∈ docs.unprocessed relay, SoundLinks content latest docs row.page := by
  constructor
  · rintro ⟨enough, hdrains⟩ row hrow
    by_contra hunsound
    have hunmarked := drainFrom_unsound batchSize hrow hunsound enough ⟨0, 0⟩
    exact (mem_unprocessed.mp hunmarked).2
      ((hdrains enough le_rfl).2.marked row (mem_unprocessed.mp hrow).1)
  · intro hsound
    refine ⟨(docs.unprocessed relay).length + 1, fun maxBatches henough => ?_⟩
    exact drainFrom_sound hbatch hsound
      (fun row hrow hmarked => absurd hmarked (mem_unprocessed.mp hrow).2)
      (List.Subset.refl _) maxBatches henough ⟨0, 0⟩

/-! ### Pages of two organizations -/

/-- By the largest stamp. -/
def newestFirst : Latest Nat where
  first := List.argmax Snapshot.createdAt
  newest versions := by
    cases hfirst : List.argmax Snapshot.createdAt versions with
    | none => exact List.argmax_eq_none.mp hfirst
    | some version =>
      have hmem : version ∈ List.argmax Snapshot.createdAt versions := hfirst
      exact ⟨List.argmax_mem hmem, fun other hother => List.le_of_mem_argmax hother hmem⟩

def pageId (last : String) : PageId := "0195ee30-0000-7000-8000-0000000000" ++ last

/-- A paragraph that names a page for each operation. -/
def naming (target : Nat → String) (document : Finset Nat) : List XmlNode :=
  [.element "paragraph" [] ((List.range 2).filter (· ∈ document) |>.map fun op =>
    .element "pageLink" [("pageId", .text (pageId (target op))), ("label", .text "See also")] [])]

/-- Two pages of one organization and one of another.  The first and the third have a version. -/
def threePages : Docs Nat where
  pages := [⟨"o", pageId "a1"⟩, ⟨"o", pageId "b1"⟩, ⟨"p", pageId "c1"⟩]
  pageVersions := [⟨"v", ⟨"o", pageId "a1"⟩, ⟨{0, 1}, 5⟩⟩, ⟨"w", ⟨"p", pageId "c1"⟩, ⟨∅, 7⟩⟩]
  yjsUpdates := []
  page_versions_pkey := by decide
  page_versions_page_fk := by decide

def waiting : Relay := ⟨[], [], []⟩

def toBoth : Nat → String
  | 0 => "b1"
  | _ => "a1"

def toMissing : Nat → String
  | 0 => "b1"
  | _ => "ff"

instance (content : Finset Nat → List XmlNode) (latest : Latest Nat) (docs : Docs Nat)
    (page : Page) : Decidable (SoundLinks content latest docs page) :=
  decidable_of_iff (_ ∧ _) ⟨fun h => ⟨h.1, h.2⟩, fun h => ⟨h.exist, h.oneSpelling⟩⟩

theorem drainsAll_iff_threePages : DrainsAll (naming toBoth) newestFirst threePages 1 waiting :=
  (drainsAll_iff Nat.one_pos).mpr (by decide +kernel)

/-- **A link to a page that is not there keeps every version of every organization unmarked.** -/
theorem never_drained :
    ¬DrainsAll (naming toMissing) newestFirst threePages 100 waiting ∧
      ∀ maxBatches, (drainBacklinksFully (naming toMissing) newestFirst threePages 100 maxBatches
        waiting).1.backlinkDispatch = [] := by
  have hfew : (threePages.unprocessed waiting).length ≤ 100 := by
    decide
  have hrow : (⟨"v", ⟨"o", pageId "a1"⟩, ⟨{0, 1}, 5⟩⟩ : VersionRow Nat) ∈
      threePages.unprocessed waiting := by decide
  have hunsound : ¬SoundLinks (naming toMissing) newestFirst threePages ⟨"o", pageId "a1"⟩ := by
    decide +kernel
  have hstopped := stopped_by_one hfew hrow hunsound
  refine ⟨fun ⟨enough, hdrains⟩ => ?_, hstopped⟩
  have hmarked := (hdrains enough le_rfl).2.marked _ List.mem_cons_self
  rw [hstopped] at hmarked
  exact List.not_mem_nil hmarked

end Backlinks
end TaskFlow
