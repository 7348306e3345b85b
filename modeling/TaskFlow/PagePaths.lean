import TaskFlow.PageTree
import TaskFlow.ScriptLogic

/-! # Ancestors are the parents' parents

Where calls are made one at a time, the list of ancestors on each row is the chain of its
parents, and a chain stays in one space (`paths_right`).

`PathsRight` says so of a tree.  It is kept by a page put under another (`PathsRight.create`)
and by a subtree put under another (`PathsRight.move`); a call changes the tree in just these
ways, or not at all.
-/
namespace TaskFlow
namespace PageTree
open ReadCommitted ReadCommitted.Script ReadCommitted.Procedure ParentChain

/-! ### Trees -/

abbrev Tree := PageId → Option Place

/-- Each page lists the chain of its parents, and these are pages of its space. -/
structure PathsRight (tree : Tree) : Prop where
  keyed : ∀ id place, tree id = some place → place.id = id
  chain : ∀ id place, tree id = some place →
    Chain (parentOf tree) place.parentPageId place.ancestorIds
  space : ∀ id place, tree id = some place → ∀ ancestorId ∈ place.ancestorIds,
    ∃ ancestor, tree ancestorId = some ancestor ∧ ancestor.spaceId = place.spaceId

/-- The path of a page under this parent, in this space. -/
inductive PathUnder (tree : Tree) (spaceId : SpaceId) : Option PageId → List PageId → Prop where
  | root : PathUnder tree spaceId none []
  | under (parentId : PageId) (parent : Place) (hparent : tree parentId = some parent)
      (hspace : parent.spaceId = spaceId) :
      PathUnder tree spaceId (some parentId) (parentId :: parent.ancestorIds)

section
variable {tree : Tree} {id : PageId} {place : Place} {spaceId : SpaceId}
  {parentId : Option PageId} {path : List PageId}

theorem parentOf_update (place : Place) :
    parentOf (Function.update tree id (some place)) =
      Function.update (parentOf tree) id place.parentPageId := by
  funext other
  by_cases hother : other = id
  · subst hother
    simp [parentOf]
  · simp [parentOf, Function.update_of_ne hother]

/-- Every page has a chain, whether it is there or not. -/
theorem PathsRight.exists_chain (h : PathsRight tree) (id : PageId) :
    ∃ l, Chain (parentOf tree) (some id) l := by
  cases hplace : tree id with
  | none => exact ⟨[id], rfl, by simp [parentOf, hplace, Chain]⟩
  | some place =>
    refine ⟨id :: place.ancestorIds, rfl, ?_⟩
    simpa [parentOf, hplace] using h.chain id place hplace

theorem PathsRight.acyclic (h : PathsRight tree) : Acyclic (parentOf tree) :=
  acyclic_of_chains h.exists_chain

/-- **No page is its own ancestor.** -/
theorem PathsRight.notMem (h : PathsRight tree) (hplace : tree id = some place) :
    id ∉ place.ancestorIds := by
  refine h.acyclic.notMem (a := id) ?_
  simpa [parentOf, hplace] using h.chain id place hplace

theorem PathUnder.chain (h : PathsRight tree) (hpath : PathUnder tree spaceId parentId path) :
    Chain (parentOf tree) parentId path := by
  cases hpath with
  | root => trivial
  | under parentId parent hparent hspace =>
    exact ⟨rfl, by simpa [parentOf, hparent] using h.chain parentId parent hparent⟩

theorem PathUnder.exists_of_mem (h : PathsRight tree)
    (hpath : PathUnder tree spaceId parentId path) {ancestorId : PageId}
    (hmem : ancestorId ∈ path) :
    ∃ ancestor, tree ancestorId = some ancestor ∧ ancestor.spaceId = spaceId := by
  cases hpath with
  | root => exact absurd hmem List.not_mem_nil
  | under parentId parent hparent hspace =>
    rcases List.mem_cons.mp hmem with rfl | hmem
    · exact ⟨parent, hparent, hspace⟩
    · rw [← hspace]
      exact h.space parentId parent hparent ancestorId hmem

/-- **A new page under another keeps the paths right.** -/
theorem PathsRight.create (h : PathsRight tree) (hfresh : tree place.id = none)
    (hpath : PathUnder tree place.spaceId place.parentPageId place.ancestorIds) :
    PathsRight (Function.update tree place.id (some place)) := by
  have hexists {ancestorId : PageId} {spaceId : SpaceId}
      (hancestor : ∃ ancestor, tree ancestorId = some ancestor ∧ ancestor.spaceId = spaceId) :
      ∃ ancestor, Function.update tree place.id (some place) ancestorId = some ancestor ∧
        ancestor.spaceId = spaceId := by
    obtain ⟨ancestor, hancestor, hspace⟩ := hancestor
    refine ⟨ancestor, ?_, hspace⟩
    rw [Function.update_of_ne, hancestor]
    rintro rfl
    exact absurd (hfresh.symm.trans hancestor) (by simp)
  have hnotMem {l : List PageId} {spaceId : SpaceId} (hl : ∀ ancestorId ∈ l,
      ∃ ancestor, tree ancestorId = some ancestor ∧ ancestor.spaceId = spaceId) :
      place.id ∉ l := by
    intro hmem
    obtain ⟨ancestor, hancestor, -⟩ := hl _ hmem
    exact absurd (hfresh.symm.trans hancestor) (by simp)
  have hall : ∀ id other, Function.update tree place.id (some place) id = some other →
      id = place.id ∧ other = place ∨ tree id = some other := by
    intro id other hother
    by_cases hid : id = place.id
    · subst hid
      rw [Function.update_self] at hother
      exact .inl ⟨rfl, (Option.some.inj hother).symm⟩
    · exact .inr (by rwa [Function.update_of_ne hid] at hother)
  constructor
  · intro id other hother
    rcases hall id other hother with ⟨rfl, rfl⟩ | hother
    · rfl
    · exact h.keyed id other hother
  · intro id other hother
    rw [parentOf_update]
    rcases hall id other hother with ⟨rfl, rfl⟩ | hother
    · exact (hpath.chain h).update (hnotMem fun _ => hpath.exists_of_mem h)
    · exact (h.chain id other hother).update (hnotMem (h.space id other hother))
  · intro id other hother ancestorId hmem
    rcases hall id other hother with ⟨rfl, rfl⟩ | hother
    · exact hexists (hpath.exists_of_mem h hmem)
    · exact hexists (h.space id other hother ancestorId hmem)

end

/-! ### A subtree under another page -/

/-- The place of a page, where `page` gets the path `path`. -/
def rerooted (page : Place) (path : List PageId) (place : Place) : Place :=
  if place.spaceId = page.spaceId ∧ page.id ∈ place.ancestorIds then
    { place with ancestorIds := rewritten page.id path place.ancestorIds }
  else place

/-- The tree with `page` under `target`, its path `path`. -/
def moved (tree : Tree) (page : Place) (target : Option PageId) (path : List PageId) : Tree :=
  Function.update (fun id => (tree id).map (rerooted page path)) page.id
    (some { page with parentPageId := target, ancestorIds := path })

section
variable {tree : Tree} {page place : Place} {target : Option PageId} {id : PageId}
  {path : List PageId}

/-- What comes before the page stays, and its own path follows it. -/
theorem rewritten_append {before old : List PageId} (hnot : id ∉ before) :
    rewritten id path (before ++ id :: old) = before ++ id :: path := by
  rw [rewritten, List.idxOf_append_of_notMem hnot, List.idxOf_cons_self, Nat.add_zero,
    List.take_left]

@[simp] theorem rerooted_id : (rerooted page path place).id = place.id := by
  unfold rerooted
  split <;> rfl

@[simp] theorem rerooted_spaceId : (rerooted page path place).spaceId = place.spaceId := by
  unfold rerooted
  split <;> rfl

@[simp] theorem rerooted_parentPageId :
    (rerooted page path place).parentPageId = place.parentPageId := by
  unfold rerooted
  split <;> rfl

theorem parentOf_moved :
    parentOf (moved tree page target path) =
      Function.update (parentOf tree) page.id target := by
  rw [moved, parentOf_update]
  congr 1
  funext id
  cases htree : tree id <;> simp [parentOf, htree]

/-- A page of the tree has not left its space. -/
theorem moved_exists (hpage : tree page.id = some page) {spaceId : SpaceId}
    (h : ∃ place, tree id = some place ∧ place.spaceId = spaceId) :
    ∃ place, moved tree page target path id = some place ∧ place.spaceId = spaceId := by
  obtain ⟨place, hplace, hspace⟩ := h
  by_cases hid : id = page.id
  · subst hid
    obtain rfl := Option.some.inj (hpage.symm.trans hplace)
    exact ⟨_, Function.update_self .., hspace⟩
  · refine ⟨rerooted page path place, ?_, rerooted_spaceId.trans hspace⟩
    rw [moved, Function.update_of_ne hid, hplace]
    rfl

/-- **A subtree put under another page keeps the paths right.** -/
theorem PathsRight.move (h : PathsRight tree) (hpage : tree page.id = some page)
    (hpath : PathUnder tree page.spaceId target path) (hnot : page.id ∉ path) :
    PathsRight (moved tree page target path) := by
  have hchain : Chain (Function.update (parentOf tree) page.id target) target path :=
    (hpath.chain h).update hnot
  have hall : ∀ id other, moved tree page target path id = some other →
      id = page.id ∧ other = { page with parentPageId := target, ancestorIds := path } ∨
      ∃ place, tree id = some place ∧ other = rerooted page path place := by
    intro id other hother
    by_cases hid : id = page.id
    · subst hid
      rw [moved, Function.update_self] at hother
      exact .inl ⟨rfl, (Option.some.inj hother).symm⟩
    · rw [moved, Function.update_of_ne hid] at hother
      obtain ⟨place, hplace, rfl⟩ := Option.map_eq_some_iff.mp hother
      exact .inr ⟨place, hplace, rfl⟩
  constructor
  · intro id other hother
    rcases hall id other hother with ⟨rfl, rfl⟩ | ⟨place, hplace, rfl⟩
    · rfl
    · exact rerooted_id.trans (h.keyed id place hplace)
  · intro id other hother
    rw [parentOf_moved]
    rcases hall id other hother with ⟨rfl, rfl⟩ | ⟨place, hplace, rfl⟩
    · exact hchain
    rw [rerooted_parentPageId]
    have hplaceChain := h.chain id place hplace
    by_cases hmem : page.id ∈ place.ancestorIds
    · -- the page is in the place's space, so that its path has been rewritten
      obtain ⟨_, hsame, hspace⟩ := h.space id place hplace page.id hmem
      obtain rfl := Option.some.inj (hpage.symm.trans hsame)
      rw [rerooted, if_pos ⟨hspace.symm, hmem⟩]
      obtain ⟨before, old, hsplit, hbefore⟩ := List.eq_append_cons_of_mem hmem
      rw [hsplit] at hplaceChain ⊢
      rw [rewritten_append hbefore]
      exact hplaceChain.splice hbefore hchain
    · rw [rerooted, if_neg fun hif => hmem hif.2]
      exact hplaceChain.update hmem
  · intro id other hother ancestorId hancestor
    rcases hall id other hother with ⟨rfl, rfl⟩ | ⟨place, hplace, rfl⟩
    · exact moved_exists hpage (hpath.exists_of_mem h hancestor)
    rw [rerooted_spaceId]
    refine moved_exists hpage ?_
    by_cases hif : place.spaceId = page.spaceId ∧ page.id ∈ place.ancestorIds
    · obtain ⟨hspace, hmem⟩ := hif
      obtain ⟨before, old, hsplit, hbefore⟩ := List.eq_append_cons_of_mem hmem
      rw [rerooted, if_pos ⟨hspace, hmem⟩] at hancestor
      change ancestorId ∈ rewritten page.id path place.ancestorIds at hancestor
      rw [hsplit, rewritten_append hbefore] at hancestor
      rcases List.mem_append.mp hancestor with hancestor | hancestor
      · exact h.space id place hplace ancestorId (hsplit ▸ List.mem_append_left _ hancestor)
      · rcases List.mem_cons.mp hancestor with rfl | hancestor
        · exact h.space id place hplace _ hmem
        · rw [hspace]
          exact hpath.exists_of_mem h hancestor
    · rw [rerooted, if_neg hif] at hancestor
      exact h.space id place hplace ancestorId hancestor

/-- A page that stays under its parent has that path already. -/
theorem PathsRight.stay (h : PathsRight tree) (hpage : tree page.id = some page)
    (hpath : PathUnder tree page.spaceId page.parentPageId path) : path = page.ancestorIds :=
  (hpath.chain h).unique (h.chain page.id page hpage)

end

/-! ### Calls, one at a time -/

/-- The paths are right, and the pages have these ids. -/
structure Sound (pages : List PageId) (tree : Tree) : Prop where
  paths : PathsRight tree
  known : ∀ id, tree id ≠ none → id ∈ pages

/-- A session that runs alone relies on nothing changing. -/
def unshared (pages : List PageId) : Discipline Unit PageId (Option PageRow) Unit Unit Note where
  inv σ := Sound pages (places σ.rows)
  guarantee _ _ _ _ _ := True
  rely _ _ σ σ' := σ' = σ
  condition := {}

/-- The transaction sees the pages at these places. -/
def At (tree : Tree) : Assertion Unit PageId (Option PageRow) Note :=
  fun t σ => places (t.view σ) = tree

section
variable {pages : List PageId} {spaces : List SpaceId} {tree : Tree} {page : PageRow}
  {pageId : PageId} {actor : DocsActor} {path : List PageId} {target : Option PageId}

theorem at_stable {P : Assertion Unit PageId (Option PageRow) Note} :
    Stable (unshared pages) () P := by
  rintro t σ _ h rfl _
  exact h

theorem places_update (rows : Rows) (id : PageId) (row : PageRow) :
    places (Function.update rows id (some row)) =
      Function.update (places rows) id (some row.toPlace) := by
  funext other
  by_cases hother : other = id
  · subst hother
    simp [places]
  · simp [places, Function.update_of_ne hother]

theorem triple_loadPage :
    Triple (unshared pages) () (At tree) (loadPage pageId) fun page t σ =>
      tree pageId = some page.toPlace ∧ At tree t σ := by
  refine Triple.bind (Q := fun row t σ => tree pageId = row.map PageRow.toPlace ∧ At tree t σ)
    (triple_select at_stable ?_) fun row => ?_
  · intro t σ h _ _ _ _
    exact ⟨congrFun h.symm pageId, h⟩
  · exact triple_ofOption fun page t σ hrow h => ⟨by rw [h.1, hrow]; rfl, h.2⟩

theorem triple_loadPageSiblings {spaceId : SpaceId} {excluding : Option PageId} :
    Triple (unshared pages) () (At tree) (loadPageSiblings pages spaceId target excluding)
      fun _ => At tree :=
  triple_select at_stable fun _ _ h _ _ _ _ => h

theorem triple_loadSpace {spaceId : SpaceId} :
    Triple (unshared pages) () (At tree) (loadSpace spaces spaceId) fun _ => At tree :=
  Triple.bind (Q := fun _ => At tree) (triple_select at_stable fun _ _ h _ _ _ _ => h)
    fun _ => triple_require fun _ _ h _ => h

/-- An update moves its page to the place that the new row says. -/
theorem triple_setPage {f : PageRow → PageRow} {g : Place → Place}
    (hf : ∀ row, (f row).toPlace = g row.toPlace) :
    Triple (unshared pages) () (At tree) (setPage pageId f) fun _ =>
      At (Function.update tree pageId ((tree pageId).map g)) := by
  refine Triple.bind (Q := fun valid t σ => valid = true →
    At (Function.update tree pageId ((tree pageId).map g)) t σ) (triple_statement at_stable ?_)
    fun valid => triple_require fun _ _ h hvalid => h hvalid
  rintro t σ i held rfl _ _ _ hvalid
  have hplace : places (t.view σ) pageId = (t.view σ pageId).map PageRow.toPlace := rfl
  rw [At, Transaction.view_run, hplace]
  cases hrow : t.view σ pageId with
  | none =>
    have heq := Function.update_eq_self pageId (places (t.view σ))
    rw [hplace, hrow] at heq
    exact heq.symm
  | some row =>
    rw [hrow] at hvalid
    have hfilter : (Option.map f (some row)).filter (·.valid (t.view σ)) = some (f row) := by
      simpa [Option.filter] using hvalid
    rw [hfilter]
    exact (places_update _ pageId (f row)).trans (by rw [hf]; rfl)

/-- A new rank does not move a page. -/
theorem triple_setRanks (ranks : List (PageId × List Char)) :
    Triple (unshared pages) () (At tree) (setRanks ranks) fun _ => At tree := by
  induction ranks with
  | nil => exact triple_pure fun _ _ h => h
  | cons entry rest ih =>
    refine Triple.bind (Q := fun _ => At tree) ?_ fun _ => ih
    refine (triple_setPage (f := fun row => { row with rank := entry.2 }) (g := id)
      fun _ => rfl).conseq (fun _ _ h => h) fun _ t σ h => ?_
    rwa [Option.map_id, id, Function.update_eq_self] at h

theorem triple_rankAt {input : MoveInput} :
    Triple (unshared pages) () (At tree) (rankAt pages page input) fun _ => At tree := by
  refine triple_loadPageSiblings.bind fun siblings => ?_
  split
  · exact triple_pure fun _ _ h => h
  · exact triple_fail
  · refine Triple.bind (Q := fun _ => At tree) ?_ fun count => ?_
    · refine triple_loadPageSiblings.bind fun rows => Triple.ofOption fun ranks _ => ?_
      exact (triple_setRanks _).bind fun _ => triple_pure fun _ _ h => h
    · exact triple_loadPageSiblings.bind fun repaired => Triple.ofOption fun rank _ =>
        triple_pure fun _ _ h => h

/-- The new path is the right one, and the page is not on it. -/
theorem triple_newPath (hpaths : PathsRight tree) :
    Triple (unshared pages) () (At tree) (newPath spaces actor page target) fun path t σ =>
      (PathUnder tree page.spaceId target path ∧ page.id ∉ path) ∧ At tree t σ := by
  cases target with
  | none =>
    exact triple_loadSpace.bind fun _ => Triple.require fun _ =>
      triple_pure fun _ _ h => ⟨⟨.root, List.not_mem_nil⟩, h⟩
  | some targetParentId =>
    refine Triple.require fun hne => triple_loadPage.bind fun newParent => ?_
    refine Triple.of_fact fun hparent => Triple.require fun hspace => ?_
    refine Triple.require fun hnot => Triple.require fun _ => triple_pure fun t σ h => ⟨?_, h⟩
    have hid : newParent.id = targetParentId := hpaths.keyed _ _ hparent
    rw [hid]
    refine ⟨.under targetParentId newParent.toPlace hparent hspace, ?_⟩
    rw [List.mem_cons, not_or]
    exact ⟨hne.symm, hnot⟩

theorem triple_ancestorsUnder (hpaths : PathsRight tree) {spaceId : SpaceId} :
    Triple (unshared pages) () (At tree) (ancestorsUnder actor spaceId target) fun path t σ =>
      PathUnder tree spaceId target path ∧ At tree t σ := by
  cases target with
  | none => exact Triple.require fun _ => triple_pure fun _ _ h => ⟨.root, h⟩
  | some parentPageId =>
    refine triple_loadPage.bind fun parent => Triple.of_fact fun hparent => ?_
    refine Triple.require fun hspace => Triple.require fun _ => Triple.require fun _ => ?_
    refine triple_pure fun t σ h => ⟨?_, h⟩
    have hid : parent.id = parentPageId := hpaths.keyed _ _ hparent
    rw [hid]
    exact .under parentPageId parent.toPlace hparent hspace

/-! The loop over the descendants. -/

/-- The tree where the pages `done` have their new paths. -/
def partly (tree : Tree) (page : Place) (path : List PageId) (done : List PageId) : Tree :=
  fun id => if id ∈ done then (tree id).map (rerooted page path) else tree id

theorem partly_update {page place : Place} (hplace : tree place.id = some place)
    (hspace : place.spaceId = page.spaceId) (hmem : page.id ∈ place.ancestorIds)
    (done : List PageId) :
    Function.update (partly tree page path done) place.id
        ((partly tree page path done place.id).map fun other =>
          { other with ancestorIds := rewritten page.id path place.ancestorIds }) =
      partly tree page path (place.id :: done) := by
  funext id
  by_cases hid : id = place.id
  · subst hid
    rw [Function.update_self]
    by_cases hdone : place.id ∈ done
    · simp [partly, hplace, hdone, rerooted, hspace, hmem]
    · simp [partly, hplace, hdone, rerooted, hspace, hmem]
  · rw [Function.update_of_ne hid]
    simp [partly, hid]

theorem triple_rewriteDescendants {page : Place} {entries : List (PageId × List PageId)}
    (hentries : ∀ entry ∈ entries, ∃ place, tree place.id = some place ∧
      place.spaceId = page.spaceId ∧ page.id ∈ place.ancestorIds ∧
      entry = (place.id, place.ancestorIds)) (done : List PageId) :
    Triple (unshared pages) () (At (partly tree page path done))
      (rewriteDescendants page.id path entries) fun _ =>
        At (partly tree page path (entries.reverse.map Prod.fst ++ done)) := by
  induction entries generalizing done with
  | nil => exact triple_pure fun _ _ h => h
  | cons entry rest ih =>
    obtain ⟨place, hplace, hspace, hmem, rfl⟩ := hentries entry List.mem_cons_self
    rw [rewriteDescendants, if_pos hmem]
    refine Triple.bind (Q := fun _ => At (partly tree page path (place.id :: done))) ?_
      fun _ => ?_
    · rw [← partly_update hplace hspace hmem]
      exact triple_setPage fun _ => rfl
    · have hrest := ih (fun entry h => hentries entry (List.mem_cons_of_mem _ h))
        (place.id :: done)
      simpa using hrest

/-- What the loop rewrites: every page of the space under the moved one. -/
theorem mem_descendantsOf (h : Sound pages tree) {t : Transaction PageId (Option PageRow)}
    {σ : Shared Unit PageId (Option PageRow) Note} (hat : At tree t σ) {spaceId : SpaceId}
    {entry : PageId × List PageId} :
    entry ∈ descendantsOf pages (t.view σ) spaceId pageId ↔
      ∃ place, tree place.id = some place ∧ place.spaceId = spaceId ∧
        pageId ∈ place.ancestorIds ∧ entry = (place.id, place.ancestorIds) := by
  simp only [descendantsOf, List.mem_map, List.mem_filter, List.mem_filterMap,
    decide_eq_true_eq]
  constructor
  · rintro ⟨row, ⟨⟨id, hid, hrow⟩, hspace, hmem⟩, rfl⟩
    have hplace : tree id = some row.toPlace := by
      rw [← hat, places, hrow]
      rfl
    refine ⟨row.toPlace, ?_, hspace, hmem, rfl⟩
    rwa [h.paths.keyed id _ hplace]
  · rintro ⟨place, hplace, hspace, hmem, rfl⟩
    have hknown := h.known place.id (by rw [hplace]; simp)
    rw [← hat] at hplace
    obtain ⟨row, hrow, rfl⟩ := Option.map_eq_some_iff.mp hplace
    exact ⟨row, ⟨⟨row.id, hknown, hrow⟩, hspace, hmem⟩, rfl⟩

theorem triple_rewriteSubtree (h : Sound pages tree) :
    Triple (unshared pages) () (At tree) (rewriteSubtree pages page target path) fun _ =>
      At (if page.parentPageId ≠ target then
        fun id => (tree id).map (rerooted page.toPlace path) else tree) := by
  unfold rewriteSubtree
  split
  · refine Triple.bind (Q := fun entries t σ =>
      (∀ entry, entry ∈ entries ↔ ∃ place, tree place.id = some place ∧
        place.spaceId = page.spaceId ∧ page.id ∈ place.ancestorIds ∧
        entry = (place.id, place.ancestorIds)) ∧ At tree t σ) (triple_select at_stable ?_)
      fun entries => Triple.of_fact fun hentries => ?_
    · intro t σ hat _ _ _ _
      exact ⟨fun _ => mem_descendantsOf h hat, hat⟩
    · refine (triple_rewriteDescendants (fun entry hentry => (hentries entry).mp hentry)
        []).conseq (fun t σ hat => ?_) fun _ t σ hat => ?_
      · rw [show partly tree page.toPlace path [] = tree from by funext id; simp [partly]]
        exact hat
      · refine hat.trans (funext fun id => ?_)
        by_cases hdone : id ∈ entries.reverse.map Prod.fst ++ []
        · rw [partly, if_pos hdone]
        · rw [partly, if_neg hdone]
          cases hplace : tree id with
          | none => rfl
          | some place =>
            have hid := h.paths.keyed id place hplace
            rw [Option.map_some, rerooted, if_neg]
            rintro ⟨hspace, hmem⟩
            refine hdone ?_
            have hentry := (hentries _).mpr ⟨place, by rwa [hid], hspace, hmem, rfl⟩
            simp only [List.append_nil, List.mem_map, List.mem_reverse]
            exact ⟨_, hentry, hid⟩
  · exact triple_pure fun _ _ hat => hat

/-- Where the page and its subtree have been rewritten, the tree is right again. -/
theorem Sound.moved (h : Sound pages tree) (hpage : tree page.id = some page.toPlace)
    (hpath : PathUnder tree page.spaceId target path) (hnot : page.id ∉ path) :
    let rewrittenTree := if page.parentPageId ≠ target then
      fun id => (tree id).map (rerooted page.toPlace path) else tree
    Sound pages (Function.update rewrittenTree page.id ((rewrittenTree page.id).map fun place =>
      { place with parentPageId := target, ancestorIds := path })) := by
  intro rewrittenTree
  by_cases hparent : page.parentPageId = target
  · subst hparent
    have hsame := h.paths.stay hpage hpath
    have htree : rewrittenTree = tree := if_neg (not_not_intro rfl)
    rw [htree, hpage, Option.map_some, hsame, ← hpage, Function.update_eq_self]
    exact h
  · have htree : rewrittenTree = fun id => (tree id).map (rerooted page.toPlace path) :=
      if_pos hparent
    have hself : rerooted page.toPlace path page.toPlace = page.toPlace :=
      if_neg fun hif => h.paths.notMem hpage hif.2
    rw [htree]
    simp only [hpage, Option.map_some, hself]
    refine ⟨h.paths.move hpage hpath hnot, fun id hid => ?_⟩
    by_cases hsame : id = page.id
    · exact hsame ▸ h.known page.id (by rw [hpage]; simp)
    · refine h.known id fun hnone => hid ?_
      rw [Function.update_of_ne hsame, hnone]
      rfl

theorem triple_movePage {input : MoveInput} (h : Sound pages tree) :
    Triple (unshared pages) () (At tree) (movePage spaces pages actor input)
      fun _ t _ => t = .none := by
  refine triple_transaction (R := fun _ t σ => ∃ tree', Sound pages tree' ∧ At tree' t σ) ?_
    (fun _ => at_stable) ?_
  · refine triple_loadPage.bind fun page => Triple.of_fact fun hpage => ?_
    have hid : page.id = input.pageId := h.paths.keyed _ _ hpage
    rw [← hid] at hpage ⊢
    refine Triple.require fun _ => (triple_newPath h.paths).bind fun path => ?_
    refine Triple.of_fact fun ⟨hpath, hnot⟩ => triple_rankAt.bind fun ⟨rank, count⟩ => ?_
    refine (triple_rewriteSubtree h).bind fun _ => ?_
    refine (triple_setPage (g := fun place => { place with
      parentPageId := input.targetParentId, ancestorIds := path }) fun _ => rfl).bind fun _ => ?_
    exact triple_pure fun _ _ hat => ⟨_, h.moved hpage hpath hnot, hat⟩
  · rintro r t σ ⟨tree', hsound, hat⟩ _ _
    refine ⟨?_, trivial, rfl⟩
    show Sound pages (places (t.view σ))
    rwa [show places (t.view σ) = tree' from hat]

theorem triple_insertPage {row : PageRow} :
    Triple (unshared pages) () (At tree) (insertPage pages row) fun _ t σ =>
      (tree row.id = none ∧ row.id ∈ pages) ∧
        At (Function.update tree row.id (some row.toPlace)) t σ := by
  refine Triple.require fun hknown => ?_
  refine Triple.bind (Q := fun inserted t σ => inserted = true →
    (tree row.id = none ∧ row.id ∈ pages) ∧
      At (Function.update tree row.id (some row.toPlace)) t σ)
    (triple_statement at_stable ?_) fun inserted => triple_require fun _ _ h hinserted =>
      h hinserted
  rintro t σ i held rfl _ _ _ hinserted
  have hfree := of_decide_eq_true hinserted
  refine ⟨⟨?_, hknown⟩, ?_⟩
  · rw [places, hfree.1]
    rfl
  · rw [At, Transaction.view_run, if_pos hfree]
    exact places_update _ _ _

theorem triple_createPage {input : CreateInput} (h : Sound pages tree) :
    Triple (unshared pages) () (At tree) (createPage spaces pages actor input)
      fun _ t _ => t = .none := by
  refine triple_transaction (R := fun _ t σ => ∃ tree', Sound pages tree' ∧ At tree' t σ) ?_
    (fun _ => at_stable) ?_
  · refine triple_loadSpace.bind fun _ => (triple_ancestorsUnder h.paths).bind fun path => ?_
    refine Triple.of_fact fun hpath => triple_loadPageSiblings.bind fun siblings => ?_
    refine Triple.ofOption fun rank _ => ?_
    refine triple_insertPage.bind fun _ => Triple.of_fact fun ⟨hfresh, hknown⟩ => ?_
    refine triple_pure fun t σ hat => ⟨_, ⟨h.paths.create hfresh hpath, fun id hid => ?_⟩, hat⟩
    by_cases hsame : id = input.pageId
    · exact hsame ▸ hknown
    · rw [Function.update_of_ne hsame] at hid
      exact h.known id hid
  · rintro r t σ ⟨tree', hsound, hat⟩ _ _
    refine ⟨?_, trivial, rfl⟩
    show Sound pages (places (t.view σ))
    rwa [show places (t.view σ) = tree' from hat]

/-! ### Every call ends -/

theorem closes_setPage {f : PageRow → PageRow} : Closes (setPage pageId f) :=
  closes_statement.bind fun _ => closes_require

theorem closes_setRanks (ranks : List (PageId × List Char)) : Closes (setRanks ranks) := by
  induction ranks with
  | nil => exact closes_pure
  | cons entry rest ih => exact closes_setPage.bind fun _ => ih

theorem closes_rewriteDescendants (entries : List (PageId × List PageId)) :
    Closes (rewriteDescendants pageId path entries) := by
  induction entries with
  | nil => exact closes_pure
  | cons entry rest ih =>
    unfold rewriteDescendants
    split
    · exact closes_setPage.bind fun _ => ih
    · exact ih

theorem closes_loadPage : Closes (loadPage pageId) :=
  closes_statement.bind fun _ => closes_ofOption

theorem closes_loadSpace {spaceId : SpaceId} : Closes (loadSpace spaces spaceId) :=
  closes_statement.bind fun _ => closes_require

theorem closes_newPath : Closes (newPath spaces actor page target) := by
  cases target with
  | none =>
    exact closes_loadSpace.bind fun _ => closes_require.bind fun _ => closes_pure
  | some targetParentId =>
    exact closes_require.bind fun _ => closes_loadPage.bind fun _ => closes_require.bind fun _ =>
      closes_require.bind fun _ => closes_require.bind fun _ => closes_pure

theorem closes_rankAt {input : MoveInput} : Closes (rankAt pages page input) := by
  refine closes_statement.bind fun siblings => ?_
  split
  · exact closes_pure
  · exact closes_fail
  · refine Closes.bind (closes_statement.bind fun rows => closes_ofOption.bind fun ranks =>
      (closes_setRanks _).bind fun _ => closes_pure) fun count => ?_
    exact closes_statement.bind fun _ => closes_ofOption.bind fun _ => closes_pure

theorem closes_rewriteSubtree : Closes (rewriteSubtree pages page target path) := by
  unfold rewriteSubtree
  split
  · exact closes_statement.bind fun entries => closes_rewriteDescendants entries
  · exact closes_pure

theorem whole_calls (call : Call) : Whole (calls spaces pages call) := by
  cases call with
  | createPage actor input =>
    refine Closes.transaction (closes_loadSpace.bind fun _ => Closes.bind ?_ fun _ =>
      closes_statement.bind fun _ => closes_ofOption.bind fun _ => Closes.bind ?_ fun _ =>
        closes_pure)
    · cases input.parentPageId with
      | none => exact closes_require.bind fun _ => closes_pure
      | some parentPageId =>
        exact closes_loadPage.bind fun _ => closes_require.bind fun _ =>
          closes_require.bind fun _ => closes_require.bind fun _ => closes_pure
    · exact closes_require.bind fun _ => closes_statement.bind fun _ => closes_require
  | movePage actor input =>
    exact Closes.transaction (closes_loadPage.bind fun _ => closes_require.bind fun _ =>
      closes_newPath.bind fun _ => closes_rankAt.bind fun _ => closes_rewriteSubtree.bind fun _ =>
        closes_setPage.bind fun _ => closes_pure)

/-- One call keeps the paths right. -/
theorem sound_of_alone {call : Call} {rows rows' : Rows} {notes : List Note}
    (h : Sound pages (places rows))
    (halone : alone () (calls spaces pages call) true [] rows = some (rows', notes)) :
    Sound pages (places rows') := by
  have hsafe : Safe (unshared pages) () (calls spaces pages call) .none ⟨rows, []⟩ := by
    cases call with
    | createPage actor input =>
      exact triple_createPage h (fun _ => .idle) (fun _ _ _ ht => ht) .none ⟨rows, []⟩ rfl
    | movePage actor input =>
      exact triple_movePage h (fun _ => .idle) (fun _ _ _ ht => ht) .none ⟨rows, []⟩ rfl
  exact inv_of_alone (fun _ _ => rfl) rfl hsafe h halone

end

/-- **After any calls made one at a time, the ancestors on every row are the chain of its
parents, and pages of its space.** -/
theorem paths_right {spaces : List SpaceId} {pages : List PageId} {rows : Rows}
    (hrows : PathsRight (places rows)) (hpages : ∀ id, rows id ≠ none → id ∈ pages)
    (made : List Call) :
    ∃ rows', oneAtATime spaces pages made rows = some rows' ∧
      Acyclic (parentOf (places rows')) ∧
      ∀ id row, rows' id = some row →
        Chain (parentOf (places rows')) row.parentPageId row.ancestorIds ∧
        id ∉ row.ancestorIds ∧
        ∀ ancestorId ∈ row.ancestorIds,
          ∃ ancestor, rows' ancestorId = some ancestor ∧ ancestor.spaceId = row.spaceId := by
  have hsound : Sound pages (places rows) :=
    ⟨hrows, fun id hid => hpages id fun hnone => hid (by rw [places, hnone]; rfl)⟩
  obtain ⟨rows', hrun, hsound'⟩ : ∃ rows', oneAtATime spaces pages made rows = some rows' ∧
      Sound pages (places rows') := by
    clear hrows hpages
    induction made generalizing rows with
    | nil => exact ⟨rows, rfl, hsound⟩
    | cons call rest ih =>
      obtain ⟨⟨rows', notes⟩, halone⟩ := (whole_calls call).alone true [] rows
      obtain ⟨rows'', hrun, hsound''⟩ := ih (sound_of_alone hsound halone)
      exact ⟨rows'', by rw [oneAtATime, halone]; exact hrun, hsound''⟩
  refine ⟨rows', hrun, hsound'.paths.acyclic, fun id row hrow => ?_⟩
  have hplace : places rows' id = some row.toPlace := by
    rw [places, hrow]
    rfl
  refine ⟨hsound'.paths.chain id _ hplace, hsound'.paths.notMem hplace, fun ancestorId hmem => ?_⟩
  obtain ⟨ancestor, hancestor, hspace⟩ := hsound'.paths.space id _ hplace ancestorId hmem
  obtain ⟨ancestorRow, hancestorRow, rfl⟩ := Option.map_eq_some_iff.mp hancestor
  exact ⟨ancestorRow, hancestorRow, hspace⟩

/-- A caller who may do everything. -/
def anyone : DocsActor := ⟨"u", fun _ => true, fun _ => true, fun _ => true⟩

def create (pageId : PageId) (parentPageId : Option PageId) : Call :=
  .createPage anyone ⟨pageId, "s", parentPageId, pageId⟩

def move (pageId : PageId) (targetParentId : Option PageId) : Call :=
  .movePage anyone ⟨pageId, targetParentId, none, none⟩

/-- Two roots, a page with a page under it, which moves from the one to the other, and a move
that would make a cycle. -/
def someCalls : List Call :=
  [create "a" none, create "b" none, create "c" (some "a"), create "d" (some "c"),
    move "c" (some "b"), move "b" (some "d")]

theorem paths_right_someCalls :
    ∃ rows, oneAtATime ["s"] ["a", "b", "c", "d"] someCalls (fun _ => none) = some rows ∧
      (rows "c").map (·.ancestorIds) = some ["b"] ∧
      (rows "d").map (·.ancestorIds) = some ["c", "b"] ∧
      Acyclic (parentOf (places rows)) := by
  have hempty : PathsRight (places fun _ => none) :=
    ⟨fun _ _ h => absurd h (by simp [places]), fun _ _ h => absurd h (by simp [places]),
      fun _ _ h => absurd h (by simp [places])⟩
  obtain ⟨rows, hrun, hacyclic, -⟩ :=
    paths_right hempty (fun _ h => absurd rfl h) someCalls
  refine ⟨rows, hrun, ?_⟩
  have hpaths : ((oneAtATime ["s"] ["a", "b", "c", "d"] someCalls fun _ => none).map
      fun rows => [(rows "c").map (·.ancestorIds), (rows "d").map (·.ancestorIds)]) =
      some [some ["b"], some ["c", "b"]] := by decide
  rw [hrun] at hpaths
  simp only [Option.map_some, Option.some.injEq, List.cons.injEq, and_true] at hpaths
  exact ⟨hpaths.1, hpaths.2, hacyclic⟩

end PageTree
end TaskFlow
