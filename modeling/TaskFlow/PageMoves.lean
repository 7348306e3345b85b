import TaskFlow.PageTree
import TaskFlow.ScriptLogic

/-! # Moves at the same time

A move checks for a cycle on what it has read of its new parent, and what it writes is its own
page and the paths below.  While it runs, another move may put the new parent under the page.

In any interleaving a commit of a move changes the parent of its page and no other
(`committed_cases`).  So the tree stays without cycles just as long as every move, when it
commits, would still pass its check by the parents there are (`acyclic_of_rechecked`).
-/
namespace TaskFlow
namespace PageTree
open ReadCommitted ReadCommitted.Script ReadCommitted.Procedure ParentChain

/-- The parents of the pages. -/
abbrev parents (rows : Rows) : PageId → Option PageId := parentOf (places rows)

/-- Pages have the ids they are found by, and their parents are there. -/
structure Rooted (rows : Rows) : Prop where
  keyed : ∀ id row, rows id = some row → row.id = id
  parent : ∀ id row, rows id = some row → ∀ parentId ∈ row.parentPageId, rows parentId ≠ none

/-- The id of a page and its parent. -/
def PageRow.link (row : PageRow) : PageId × Option PageId := (row.id, row.parentPageId)

/-- The page is still under its parent. -/
def SameLink (_ : PageId) (row row' : Option PageRow) : Prop :=
  row'.map PageRow.link = row.map PageRow.link

/-- What a commit with these notes does to the parents. -/
inductive Changed (rows rows' : Rows) : List Note → Prop where
  | created (pageId : PageId) (spaceId : SpaceId) (parentPageId : Option PageId) (title : String)
      (hfresh : rows pageId = none) (hparent : ∀ parentId ∈ parentPageId, rows parentId ≠ none)
      (h : parents rows' = Function.update (parents rows) pageId parentPageId) :
      Changed rows rows' [.pageCreated pageId spaceId parentPageId title]
  | moved (pageId : PageId) (spaceId : SpaceId) (fromParent toParent : Option PageId)
      (rank : List Char) (rebalanced : Option Nat)
      (h : parents rows' = Function.update (parents rows) pageId toParent) :
      Changed rows rows' (.pageMoved pageId spaceId fromParent toParent rank ::
        rebalanced.toList.map (Note.pageSiblingsRebalanced spaceId toParent))

/-- Pages stay. -/
def Kept (rows rows' : Rows) : Prop := ∀ id, rows id ≠ none → rows' id ≠ none

/-- What the sessions keep to: no page goes away, and its parent changes as a commit says. -/
def discipline (S : Type) : Discipline S PageId (Option PageRow) Unit Unit Note where
  inv σ := Rooted σ.rows
  guarantee _ notes _ σ σ' := Changed σ.rows σ'.rows notes ∧ Kept σ.rows σ'.rows
  rely _ own σ σ' := (∀ id, own id → σ'.rows id = σ.rows id) ∧ Kept σ.rows σ'.rows
  condition := {}

/-- A move that has loaded its page; other pages it may have given ranks and paths. -/
structure Moving {S : Type} (pageId : PageId) (t : Transaction PageId (Option PageRow))
    (σ : Shared S PageId (Option PageRow) Note) : Prop where
  here : σ.rows pageId ≠ none
  evolved : Evolved SameLink t σ

/-- A move that has written its page. -/
structure Reparented {S : Type} (pageId : PageId) (toParent : Option PageId)
    (t : Transaction PageId (Option PageRow)) (σ : Shared S PageId (Option PageRow) Note) :
    Prop where
  here : σ.rows pageId ≠ none
  locked : ∀ id ∈ t.pending.map Prod.fst, t.own id
  other : ∀ id, id ≠ pageId → SameLink id (σ.rows id) (t.view σ id)
  written : pageId ∈ t.pending.map Prod.fst
  row : (t.view σ pageId).map PageRow.link = some (pageId, toParent)
  parent : ∀ parentId ∈ toParent, σ.rows parentId ≠ none

/-- A new page, and nothing else, has been written. -/
structure Inserted {S : Type} (row : PageRow) (t : Transaction PageId (Option PageRow))
    (σ : Shared S PageId (Option PageRow) Note) : Prop where
  own : t.own row.id
  pending : t.pending = [(row.id, some row)]
  fresh : σ.rows row.id = none
  parent : ∀ parentId ∈ row.parentPageId, σ.rows parentId ≠ none

section
variable {S : Type} {s : S} {t : Transaction PageId (Option PageRow)}
  {σ : Shared S PageId (Option PageRow) Note} {pageId : PageId} {page row : PageRow}
  {toParent : Option PageId} {spaces : List SpaceId} {pages : List PageId} {actor : DocsActor}
  {path : List PageId}

theorem Kept.refl (rows : Rows) : Kept rows rows := fun _ h => h

theorem Kept.trans {rows rows' rows'' : Rows} (h : Kept rows rows') (h' : Kept rows' rows'') :
    Kept rows rows'' := fun id hid => h' id (h id hid)

theorem discipline_lawful : (discipline S).Lawful where
  refl := fun _ _ σ => ⟨fun _ _ => rfl, .refl σ.rows⟩
  trans := fun h h' => ⟨fun id hid => (h'.1 id hid).trans (h.1 id hid), h.2.trans h'.2⟩
  rely := fun _ _ hown _ _ hguarantee => ⟨hown, hguarantee.2⟩

theorem moving_stable : Stable (discipline S) s (Moving pageId) := by
  intro t σ σ' h hrely hinv
  refine ⟨hrely.2 pageId h.here, ?_⟩
  have hown : ∀ own (σ σ' : Shared S PageId (Option PageRow) Note),
      (discipline S).rely s own σ σ' → ∀ id, own id → σ'.rows id = σ.rows id :=
    fun _ _ _ hrely => hrely.1
  exact evolved_stable (R := SameLink) (fun _ _ => rfl) hown t σ σ' h.evolved hrely hinv

theorem reparented_stable : Stable (discipline S) s (Reparented pageId toParent) := by
  intro t σ σ' h hrely _
  refine ⟨hrely.2 pageId h.here, h.locked, fun id hid => ?_, h.written, ?_,
    fun parentId hparent => hrely.2 parentId (h.parent parentId hparent)⟩
  · by_cases hmem : id ∈ t.pending.map Prod.fst
    · rw [hrely.1 id (h.locked id hmem), Transaction.view_of_mem hmem σ σ']
      exact h.other id hid
    · rw [Transaction.view_of_notMem hmem]
      exact rfl
  · rw [Transaction.view_of_mem h.written σ σ']
    exact h.row

theorem inserted_stable : Stable (discipline S) s (Inserted row) := by
  intro t σ σ' h hrely _
  refine ⟨h.own, h.pending, ?_, fun parentId hparent => hrely.2 _ (h.parent parentId hparent)⟩
  rw [hrely.1 _ h.own, h.fresh]

/-! ### A move, statement by statement -/

theorem triple_loadPage_first :
    Triple (discipline S) s (fun t _ => t = .none) (loadPage pageId) fun page t σ =>
      page.id = pageId ∧ Moving pageId t σ := by
  refine Triple.bind (Q := fun row t σ => ∀ page, row = some page →
    page.id = pageId ∧ Moving pageId t σ) (triple_select stable_none ?_)
    fun row => triple_ofOption fun page _ _ hrow h => h page hrow
  rintro t σ rfl hinv _ _ _ page hrow
  refine ⟨hinv.keyed pageId page hrow, fun hnone => ?_, evolved_none fun _ _ => rfl⟩
  exact absurd (hnone.symm.trans hrow) (by simp)

theorem triple_loadPage_moving {otherId : PageId} :
    Triple (discipline S) s (Moving pageId) (loadPage otherId) fun _ => Moving pageId :=
  Triple.bind (Q := fun _ => Moving pageId) (triple_select moving_stable fun _ _ h _ _ _ _ => h)
    fun _ => triple_ofOption fun _ _ _ _ h => h

theorem triple_newPath_moving :
    Triple (discipline S) s (Moving pageId) (newPath spaces actor page toParent)
      fun _ => Moving pageId := by
  cases toParent with
  | none =>
    refine Triple.bind (Q := fun _ => Moving pageId) ?_ fun _ => Triple.require fun _ =>
      triple_pure fun _ _ h => h
    exact Triple.bind (Q := fun _ => Moving pageId)
      (triple_select moving_stable fun _ _ h _ _ _ _ => h)
      fun _ => triple_require fun _ _ h _ => h
  | some targetParentId =>
    exact Triple.require fun _ => (triple_loadPage_moving).bind fun newParent =>
      Triple.require fun _ => Triple.require fun _ => Triple.require fun _ =>
        triple_pure fun _ _ h => h

/-- An update that leaves its page under its parent. -/
theorem triple_setPage_moving {otherId : PageId} {f : PageRow → PageRow}
    (hf : ∀ row, (f row).link = row.link) :
    Triple (discipline S) s (Moving pageId) (setPage otherId f) fun _ => Moving pageId := by
  refine Triple.bind (Q := fun _ => Moving pageId) (triple_statement moving_stable ?_)
    fun _ => triple_require fun _ _ h _ => h
  intro t σ i held h _ _ _
  refine ⟨h.here, h.evolved.run (fun h h' => h'.trans h) fun id row' hwrite => ?_⟩
  obtain ⟨row, hrow, heq⟩ := List.mem_map.mp hwrite
  obtain ⟨rfl, rfl⟩ := Prod.mk.inj heq
  obtain ⟨hrow, -⟩ := Option.filter_eq_some_iff.mp (Option.mem_toList.mp hrow)
  obtain ⟨old, hold, rfl⟩ := Option.map_eq_some_iff.mp hrow
  rw [SameLink, hold, Option.map_some, Option.map_some, hf]

theorem triple_setRanks_moving (ranks : List (PageId × List Char)) :
    Triple (discipline S) s (Moving pageId) (setRanks ranks) fun _ => Moving pageId := by
  induction ranks with
  | nil => exact triple_pure fun _ _ h => h
  | cons entry rest ih =>
    refine Triple.bind (Q := fun _ => Moving pageId) (triple_setPage_moving ?_) fun _ => ih
    exact fun _ => rfl

theorem triple_loadPageSiblings_moving {spaceId : SpaceId} {excluding : Option PageId} :
    Triple (discipline S) s (Moving pageId)
      (loadPageSiblings pages spaceId toParent excluding) fun _ => Moving pageId :=
  triple_select moving_stable fun _ _ h _ _ _ _ => h

theorem triple_rankAt_moving {input : MoveInput} :
    Triple (discipline S) s (Moving pageId) (rankAt pages page input) fun _ => Moving pageId := by
  refine (triple_loadPageSiblings_moving).bind fun siblings => ?_
  split
  · exact triple_pure fun _ _ h => h
  · exact triple_fail
  · refine Triple.bind (Q := fun _ => Moving pageId) ?_ fun count => ?_
    · exact (triple_loadPageSiblings_moving).bind fun rows => Triple.ofOption fun ranks _ =>
        (triple_setRanks_moving _).bind fun _ => triple_pure fun _ _ h => h
    · exact (triple_loadPageSiblings_moving).bind fun repaired => Triple.ofOption fun rank _ =>
        triple_pure fun _ _ h => h

theorem triple_rewriteSubtree_moving :
    Triple (discipline S) s (Moving pageId) (rewriteSubtree pages page toParent path)
      fun _ => Moving pageId := by
  have hloop (entries : List (PageId × List PageId)) : Triple (discipline S) s (Moving pageId)
      (rewriteDescendants page.id path entries) fun _ => Moving pageId := by
    induction entries with
    | nil => exact triple_pure fun _ _ h => h
    | cons entry rest ih =>
      unfold rewriteDescendants
      split
      · refine Triple.bind (Q := fun _ => Moving pageId) (triple_setPage_moving ?_) fun _ => ih
        exact fun _ => rfl
      · exact ih
  unfold rewriteSubtree
  split
  · exact Triple.bind (Q := fun _ => Moving pageId)
      (triple_select moving_stable fun _ _ h _ _ _ _ => h) fun entries => hloop entries
  · exact triple_pure fun _ _ h => h

/-- A page that the transaction sees was there when it began. -/
theorem Moving.exists_iff (h : Moving pageId t σ) (id : PageId) :
    t.view σ id = none ↔ σ.rows id = none := by
  have hsame : (t.view σ id).map PageRow.link = (σ.rows id).map PageRow.link := h.evolved.row id
  rw [← Option.map_eq_none_iff (f := PageRow.link), hsame, Option.map_eq_none_iff]

/-- The update of the page itself. -/
theorem triple_setPage_reparented {f : PageRow → PageRow}
    (hf : ∀ row, (f row).link = (row.id, toParent)) :
    Triple (discipline S) s (Moving pageId) (setPage pageId f) fun _ =>
      Reparented pageId toParent := by
  refine Triple.bind (Q := fun valid t σ => valid = true → Reparented pageId toParent t σ)
    (triple_statement moving_stable ?_) fun valid => triple_require fun _ _ h hvalid => h hvalid
  intro t σ i held h hinv _ _ hvalid
  obtain ⟨row, hrow⟩ := Option.ne_none_iff_exists'.mp
    (fun hnone => h.here ((h.exists_iff pageId).mp hnone))
  obtain ⟨old, hold⟩ := Option.ne_none_iff_exists'.mp h.here
  have hsame : (t.view σ pageId).map PageRow.link = (σ.rows pageId).map PageRow.link :=
    h.evolved.row pageId
  rw [hrow, hold] at hsame
  have hid : row.id = pageId := by
    rw [← hinv.keyed pageId old hold]
    exact congrArg Prod.fst (Option.some.inj hsame)
  have hvalid : (f row).valid (t.view σ) = true := by simpa [hrow] using hvalid
  have hwrites : (((t.view σ pageId).map f).filter (·.valid (t.view σ))).toList.map
      (fun row => (pageId, some row)) = [(pageId, some (f row))] := by
    simp [hrow, Option.filter, hvalid]
  rw [hwrites]
  constructor
  case here => exact h.here
  case locked =>
    intro id hmem
    rcases List.mem_cons.mp hmem with rfl | hmem
    · exact .inr (by simp)
    · exact .inl (h.evolved.locked id hmem)
  case other =>
    intro id hne
    rw [Transaction.view_run]
    simpa [Function.update_of_ne hne] using h.evolved.row id
  case written => exact List.mem_cons_self
  case row =>
    rw [Transaction.view_run]
    simp [hf, hid]
  case parent =>
    intro parentId hparent hnone
    have hto : (f row).parentPageId = toParent := congrArg Prod.snd (hf row)
    have hexists := of_decide_eq_true hvalid
    rw [hto, show toParent = some parentId from hparent] at hexists
    have hnone' := (h.exists_iff parentId).mpr hnone
    simp [hnone'] at hexists

/-! ### Commits -/

theorem parents_of_link (rows : Rows) (id : PageId) :
    parents rows id = ((rows id).map PageRow.link).bind Prod.snd := by
  cases hrow : rows id <;> simp [parents, parentOf, places, hrow, PageRow.link]

/-- Pages whose links are known, and are as they should be. -/
theorem rooted_of_link {rows : Rows}
    (h : ∀ id link, (rows id).map PageRow.link = some link →
      link.1 = id ∧ ∀ parentId ∈ link.2, rows parentId ≠ none) : Rooted rows where
  keyed := fun id row hrow => (h id row.link (by rw [hrow]; rfl)).1
  parent := fun id row hrow => (h id row.link (by rw [hrow]; rfl)).2

theorem Rooted.link (h : Rooted σ.rows) {id : PageId} {link : PageId × Option PageId}
    (hlink : (σ.rows id).map PageRow.link = some link) :
    link.1 = id ∧ ∀ parentId ∈ link.2, σ.rows parentId ≠ none := by
  obtain ⟨row, hrow, rfl⟩ := Option.map_eq_some_iff.mp hlink
  exact ⟨h.keyed id row hrow, h.parent id row hrow⟩

theorem Reparented.kept (h : Reparented pageId toParent t σ) : Kept σ.rows (t.view σ) := by
  intro id hid hnone
  by_cases hsame : id = pageId
  · have hrow := h.row
    rw [← hsame, hnone] at hrow
    cases hrow
  · have hother := h.other id hsame
    rw [SameLink, hnone, Option.map_none] at hother
    exact hid (Option.map_eq_none_iff.mp hother.symm)

theorem Reparented.rooted (h : Reparented pageId toParent t σ) (hinv : Rooted σ.rows) :
    Rooted (t.view σ) := by
  refine rooted_of_link fun id link hlink => ?_
  by_cases hsame : id = pageId
  · rw [hsame, h.row] at hlink
    obtain rfl := Option.some.inj hlink
    exact ⟨hsame.symm, fun parentId hparent => h.kept _ (h.parent parentId hparent)⟩
  · rw [h.other id hsame] at hlink
    obtain ⟨hid, hparent⟩ := hinv.link hlink
    exact ⟨hid, fun parentId hmem => h.kept _ (hparent parentId hmem)⟩

/-- **A move changes the parent of its page and no other.** -/
theorem Reparented.parents_view (h : Reparented pageId toParent t σ) :
    parents (t.view σ) = Function.update (parents σ.rows) pageId toParent := by
  funext id
  by_cases hsame : id = pageId
  · subst hsame
    rw [parents_of_link, h.row, Function.update_self]
    rfl
  · rw [Function.update_of_ne hsame, parents_of_link, parents_of_link, h.other id hsame]

theorem Inserted.view (h : Inserted row t σ) :
    t.view σ = Function.update σ.rows row.id (some row) := by
  rw [Transaction.view, h.pending]
  rfl

theorem Inserted.kept (h : Inserted row t σ) : Kept σ.rows (t.view σ) := by
  intro id hid
  rw [h.view]
  by_cases hsame : id = row.id
  · subst hsame
    simp
  · rwa [Function.update_of_ne hsame]

theorem Inserted.rooted (h : Inserted row t σ) (hinv : Rooted σ.rows) : Rooted (t.view σ) := by
  refine rooted_of_link fun id link hlink => ?_
  by_cases hsame : id = row.id
  · rw [h.view, hsame, Function.update_self] at hlink
    obtain rfl := Option.some.inj hlink
    exact ⟨hsame.symm, fun parentId hparent => h.kept _ (h.parent parentId hparent)⟩
  · rw [h.view, Function.update_of_ne hsame] at hlink
    obtain ⟨hid, hparent⟩ := hinv.link hlink
    exact ⟨hid, fun parentId hmem => h.kept _ (hparent parentId hmem)⟩

theorem Inserted.parents_view (h : Inserted row t σ) :
    parents (t.view σ) = Function.update (parents σ.rows) row.id row.parentPageId := by
  funext id
  by_cases hsame : id = row.id
  · subst hsame
    simp [parents_of_link, h.view, PageRow.link]
  · simp [parents_of_link, h.view, Function.update_of_ne hsame]

theorem triple_movePage_shared {input : MoveInput} :
    Triple (discipline S) s (fun t _ => t = .none) (movePage spaces pages actor input)
      fun _ t _ => t = .none := by
  refine triple_transaction (R := fun r t σ =>
    (∃ spaceId fromParent rank, ∃ rebalanced : Option Nat,
      r.1 = .pageMoved input.pageId spaceId fromParent input.targetParentId rank ::
        rebalanced.toList.map (Note.pageSiblingsRebalanced spaceId input.targetParentId)) ∧
    Reparented input.pageId input.targetParentId t σ) ?_ (fun r => ?_) ?_
  · refine (triple_loadPage_first).bind fun page => Triple.of_fact fun hid => ?_
    refine Triple.require fun _ => (triple_newPath_moving).bind fun path => ?_
    refine (triple_rankAt_moving).bind fun ⟨rank, count⟩ => ?_
    refine (triple_rewriteSubtree_moving).bind fun _ => ?_
    refine Triple.bind (Q := fun _ => Reparented input.pageId input.targetParentId)
      (triple_setPage_reparented fun _ => rfl) fun _ => triple_pure fun _ _ h => ⟨?_, h⟩
    exact ⟨page.spaceId, page.parentPageId, rank, count, rfl⟩
  · intro t σ σ' h hrely hinv
    exact ⟨h.1, reparented_stable t σ σ' h.2 hrely hinv⟩
  · rintro ⟨notes, result⟩ t σ ⟨⟨spaceId, fromParent, rank, rebalanced, rfl⟩, h⟩ hinv _
    exact ⟨h.rooted hinv, ⟨.moved _ _ _ _ _ _ h.parents_view, h.kept⟩, rfl⟩

theorem triple_insertPage_shared {row : PageRow} :
    Triple (discipline S) s (fun t _ => t = .none) (insertPage pages row) fun _ =>
      Inserted row := by
  refine Triple.require fun _ => ?_
  refine Triple.bind (Q := fun inserted t σ => inserted = true → Inserted row t σ)
    (triple_statement stable_none ?_) fun inserted =>
      triple_require fun _ _ h hinserted => h hinserted
  rintro t σ i held rfl _ _ _ hinserted
  have hfree := of_decide_eq_true hinserted
  rw [if_pos hfree]
  refine ⟨.inr (by simp), by simp [Transaction.none], hfree.1, fun parentId hparent hnone => ?_⟩
  have hexists := (of_decide_eq_true hfree.2).2.2
  rw [show row.parentPageId = some parentId from hparent] at hexists
  simp [show σ.rows parentId = none from hnone] at hexists

theorem triple_createPage_shared {input : CreateInput} :
    Triple (discipline S) s (fun t _ => t = .none) (createPage spaces pages actor input)
      fun _ t _ => t = .none := by
  refine triple_transaction (R := fun r t σ => ∃ row : PageRow,
    r.1 = [.pageCreated row.id input.spaceId row.parentPageId input.title] ∧ Inserted row t σ)
    ?_ (fun r => ?_) ?_
  · refine Triple.bind (Q := fun _ t _ => t = .none) (Triple.bind (Q := fun _ t _ => t = .none)
      (triple_select stable_none fun _ _ h _ _ _ _ => h)
      fun _ => triple_require fun _ _ h _ => h) fun _ => ?_
    refine Triple.bind (Q := fun _ t _ => t = .none) ?_ fun path => ?_
    · cases input.parentPageId with
      | none => exact Triple.require fun _ => triple_pure fun _ _ h => h
      | some parentPageId =>
        refine Triple.bind (Q := fun _ t _ => t = .none) (Triple.bind
          (Q := fun _ t _ => t = .none) (triple_select stable_none fun _ _ h _ _ _ _ => h)
          fun _ => triple_ofOption fun _ _ _ _ h => h) fun parent => ?_
        exact Triple.require fun _ => Triple.require fun _ => Triple.require fun _ =>
          triple_pure fun _ _ h => h
    · refine Triple.bind (Q := fun _ t _ => t = .none)
        (triple_select stable_none fun _ _ h _ _ _ _ => h) fun siblings => ?_
      exact Triple.ofOption fun rank _ => (triple_insertPage_shared).bind fun _ =>
        triple_pure fun _ _ h => ⟨_, rfl, h⟩
  · rintro t σ σ' ⟨row, hnotes, h⟩ hrely hinv
    exact ⟨row, hnotes, inserted_stable t σ σ' h hrely hinv⟩
  · rintro ⟨notes, result⟩ t σ ⟨row, rfl, h⟩ hinv _
    exact ⟨h.rooted hinv, ⟨.created _ _ _ _ h.fresh h.parent h.parents_view, h.kept⟩, rfl⟩

end

/-! ### Which commits make a cycle -/

/-- The cycle check of a move, made on the parents there are. -/
def Note.Clear (rows : Rows) : Note → Prop
  | .pageMoved pageId _ _ (some toParent) _ => ¬Above (parents rows) toParent pageId
  | _ => True

/-- Where the step commits a move, the move still passes its cycle check. -/
def Rechecked {S : Type} (sys : System S PageId (Option PageRow) Unit Unit Note)
    (a : S × Input Call Unit) : Prop :=
  match sys.world.locals a.1, a.2 with
  | .commit notes _, .next _ => ∀ note ∈ notes, note.Clear sys.world.committed
  | _, _ => True

theorem Rooted.exists_of_above {rows : Rows} (h : Rooted rows) {a b : PageId}
    (habove : Above (parents rows) a b) : b = a ∨ rows b ≠ none := by
  obtain ⟨n, hn⟩ := habove
  induction n generalizing a with
  | zero => exact .inl (Option.some.inj hn).symm
  | succ n ih =>
    obtain ⟨parentId, hparent, hn⟩ := Option.bind_eq_some_iff.mp hn
    rw [parents_of_link] at hparent
    obtain ⟨link, hlink, hparent⟩ := Option.bind_eq_some_iff.mp hparent
    obtain ⟨row, hrow, rfl⟩ := Option.map_eq_some_iff.mp hlink
    rcases ih hn with rfl | hexists
    · exact .inr (h.parent a row hrow _ hparent)
    · exact .inr hexists

/-- **A commit leaves the tree without cycles just when its move is still clear.** -/
theorem Changed.acyclic_iff {rows rows' : Rows} {notes : List Note} (h : Changed rows rows' notes)
    (hrooted : Rooted rows) (hacyclic : Acyclic (parents rows)) :
    Acyclic (parents rows') ↔ ∀ note ∈ notes, note.Clear rows := by
  cases h with
  | created pageId spaceId parentPageId title hfresh hparent h =>
    rw [h, acyclic_update_iff hacyclic]
    refine iff_of_true (fun parentId hmem habove => ?_) fun note hnote => ?_
    · rcases hrooted.exists_of_above habove with rfl | hexists
      · exact hparent _ hmem hfresh
      · exact hexists hfresh
    · obtain rfl := List.mem_singleton.mp hnote
      trivial
  | moved pageId spaceId fromParent toParent rank rebalanced h =>
    rw [h, acyclic_update_iff hacyclic, List.forall_mem_cons]
    have hrest : ∀ note ∈ rebalanced.toList.map (Note.pageSiblingsRebalanced spaceId toParent),
        note.Clear rows := by
      rintro note hnote
      obtain ⟨count, -, rfl⟩ := List.mem_map.mp hnote
      trivial
    rw [and_iff_left hrest]
    cases toParent with
    | none => simp [Note.Clear]
    | some toParent => simp [Note.Clear]

section
variable {S : Type} [DecidableEq S] {spaces : List SpaceId} {pages : List PageId}
  {sys sys' : System S PageId (Option PageRow) Unit Unit Note}

theorem valid_pages {rows : Rows} (hrooted : Rooted rows)
    (hrun : StepSystem.Reachable (Script.step (calls spaces pages)) (initial rows) sys) :
    Valid (discipline S) sys := by
  refine valid_of_reachable discipline_lawful (fun call s σ _ => ?_) hrooted
    (hrun.mono fun _ _ _ => meets_default _ _)
  cases call with
  | createPage actor input => exact (triple_createPage_shared).safe σ
  | movePage actor input => exact (triple_movePage_shared).safe σ

/-- What one step does to the parents. -/
theorem acyclic_step_iff (hv : Valid (discipline S) sys)
    (hacyclic : Acyclic (parents sys.world.committed)) {a : S × Input Call Unit}
    (hstep : Script.step (calls spaces pages) sys a = some sys') :
    Acyclic (parents sys'.world.committed) ↔ Rechecked sys a := by
  obtain ⟨s, input⟩ := a
  rcases hv.committed_or_commit discipline_lawful (meets_default _ _) hstep with
    ⟨hsame, hnot⟩ | ⟨notes, next, i, hl, rfl, hchanged, -⟩
  · rw [hsame]
    refine iff_of_true hacyclic ?_
    unfold Rechecked
    split
    · next notes next i hl hi => exact absurd ⟨hl, hi⟩ (hnot notes next i)
    · trivial
  · have hrechecked : Rechecked sys (s, .next i) ↔
        ∀ note ∈ notes, note.Clear sys.world.committed := by
      simp [Rechecked, hl]
    rw [hrechecked]
    exact hchanged.acyclic_iff hv.inv hacyclic

end

/-! ### Two moves at a time -/

/-- Three root pages of one space. -/
def threeRoots (id : PageId) : Option PageRow :=
  if id ∈ ["a", "b", "c"] then some
    { id := id
      spaceId := "s"
      parentPageId := none
      ancestorIds := []
      title := id
      rank := ['a', '0']
      archivedAt := none
      createdBy := none }
  else none

theorem threeRoots_root {id : PageId} {row : PageRow} (h : threeRoots id = some row) :
    row.id = id ∧ row.parentPageId = none := by
  unfold threeRoots at h
  split at h
  · obtain rfl := Option.some.inj h
    exact ⟨rfl, rfl⟩
  · cases h

theorem rooted_threeRoots : Rooted threeRoots where
  keyed := fun _ _ h => (threeRoots_root h).1
  parent := fun _ _ h parentId hparent => by
    rw [(threeRoots_root h).2] at hparent
    cases hparent

theorem acyclic_threeRoots : Acyclic (parents threeRoots) := by
  intro id n h
  have hnone : parents threeRoots id = none := by
    rw [parents_of_link]
    cases hrow : threeRoots id with
    | none => rfl
    | some row => exact (threeRoots_root hrow).2
  rw [climb, hnone] at h
  cases h

/-- A move by someone who may make it. -/
def moveUnder (pageId targetParentId : PageId) : Call :=
  .movePage ⟨"u", fun _ => true, fun _ => true, fun _ => true⟩
    ⟨pageId, some targetParentId, none, none⟩

/-- Two calls: each takes five statements in turn with the other, and then they commit. -/
def together (first second : Call) : List (Bool × Input Call Unit) :=
  (false, .call first) :: (true, .call second) ::
    (List.replicate 5 [(false, .next ()), (true, .next ())]).flatten ++
    [(false, .next ()), (true, .next ())]

/-- The check of `Rechecked`, where no page has more than two above it. -/
def quickCheck (sys : System Bool PageId (Option PageRow) Unit Unit Note)
    (a : Bool × Input Call Unit) : Bool :=
  match sys.world.locals a.1, a.2 with
  | .commit notes _, .next _ => notes.all fun
    | .pageMoved pageId _ _ (some toParent) _ =>
      decide (climb (parents sys.world.committed) 3 toParent = none ∧
        ∀ m ∈ List.range 3, climb (parents sys.world.committed) m toParent ≠ some pageId)
    | _ => true
  | _, _ => true

theorem rechecked_of_quickCheck (sys : System Bool PageId (Option PageRow) Unit Unit Note)
    (a : Bool × Input Call Unit) (h : quickCheck sys a = true) : Rechecked sys a := by
  unfold quickCheck at h
  unfold Rechecked
  split
  · next notes _ _ hl hi =>
    rw [hl, hi] at h
    intro note hnote
    have hcheck := List.all_eq_true.mp h note hnote
    unfold Note.Clear
    split
    · obtain ⟨hend, hnot⟩ := of_decide_eq_true hcheck
      exact not_above_of_climb hend fun m hm => hnot m (List.mem_range.mpr hm)
    · trivial
  · trivial

end PageTree
end TaskFlow
