import Mathlib.Data.Fintype.Basic
import TaskFlow.InternalLinks
import TaskFlow.StepSystem

/-! # Several backlinks relays

No relay locks what it claims, so any of them may rewrite a page, from what each of them has read of
it.  A rewrite deletes the rows that it finds and inserts those of the content that it has
materialized, however old.

Where no rewrite is committed whose links are not those of the page any more, or that leaves rows of
another one, the rows of each page are its links as soon as every version is marked
(`converged_of_current`).  A slow relay undoes what a faster one has written, and nothing is left to
be processed (`undone_by_slower`).
-/
namespace TaskFlow
namespace BacklinksConverge
open Backlinks CollabPage SnapshotLog

variable {S Op : Type} [DecidableEq S]

/-! ### The relays -/

/-- How far the rewrite of a page has come: the latest version is read, the content materialized,
the rows to be deleted found, deleted, and the new ones inserted. -/
inductive Rewrite (Op : Type) where
  | none
  | snapshot (latest : Option (PageVersionState Op))
  | materialized (targets : List String)
  | found (targets : List String) (rows : List Backlink)
  | deleted (targets : List String) (rows : List Backlink)
  | inserted (targets : List String) (rows : List Backlink)

/-- A relay's batch, and the pages of it that are to be rewritten yet.  It is at the first one. -/
structure Task (Op : Type) where
  claimed : List (VersionRow Op)
  pages : List Page
  rewrite : Rewrite Op

def Task.idle : Task Op := ⟨[], [], .none⟩

def Task.at (task : Task Op) (rewrite : Rewrite Op) : Task Op := { task with rewrite := rewrite }

/-- The rows that the relay has found, or has deleted. -/
def Rewrite.rows : Rewrite Op → List Backlink
  | .found _ rows | .deleted _ rows | .inserted _ rows => rows
  | _ => []

/-- What the relay has deleted, and not committed. -/
def Rewrite.gone : Rewrite Op → List Backlink
  | .deleted _ rows | .inserted _ rows => rows
  | _ => []

/-- What the relay has inserted, and not committed. -/
def Task.added (task : Task Op) : List Backlink :=
  match task.pages, task.rewrite with
  | page :: _, .inserted targets _ => page.edges targets
  | _, _ => []

/-- What the relay is about to commit: the page, its links, and the rows that are deleted. -/
def Task.commits (task : Task Op) : Option (Page × List String × List Backlink) :=
  match task.pages, task.rewrite with
  | page :: _, .inserted targets gone => some (page, targets, gone)
  | _, _ => none

structure State (S Op : Type) where
  pageVersions : List (VersionRow Op)
  backlinkDispatch : List PageVersionId
  backlinks : List Backlink
  outbox : List Page
  task : S → Task Op

def State.at (σ : State S Op) (s : S) (task : Task Op) : State S Op :=
  { σ with task := Function.update σ.task s task }

section
variable {σ : State S Op} {s t : S} {task : Task Op}

theorem at_self : (σ.at s task).task s = task := Function.update_self ..

theorem at_of_ne (h : t ≠ s) : (σ.at s task).task t = σ.task t := Function.update_of_ne h ..

/-- A property of every relay's task, and of the new one's. -/
theorem forall_at {P : Task Op → Prop} (h : ∀ t, P (σ.task t)) (htask : P task) (t : S) :
    P ((σ.at s task).task t) :=
  StepSystem.forall_update h htask t

end

def initial (pageVersions : List (VersionRow Op)) (backlinks : List Backlink) : State S Op where
  pageVersions := pageVersions
  backlinkDispatch := []
  backlinks := backlinks
  outbox := []
  task := fun _ => .idle

/-- A relay's statements.  What is inserted against a constraint throws, as do a lost connection and
a deadlock: the relay gives up its batch. -/
inductive Statement (Op : Type) where
  | claim (limit : Nat)
  | readSnapshot (latest : Option (PageVersionState Op))
  | readUpdates
  | findRows
  | delete
  | insert
  | commit
  | mark
  | throw

inductive Action (S Op : Type) where
  /-- A version of a page is committed. -/
  | write (row : VersionRow Op)
  | relay (s : S) (statement : Statement Op)

def Action.commits : Action S Op → Option S
  | .relay s .commit => some s
  | _ => none

variable [DecidableEq Op] (content : Finset Op → List XmlNode)
  (yjsUpdates : List (UpdateRow Op)) (pages : List Page)

/-- The statements on the page that is rewritten.  A DELETE looks for its rows before it has their
locks, and then deletes those that are there yet. -/
def rewriteBacklinks [Fintype S] (σ : State S Op) (s : S) (page : Page) (rest : List Page) :
    Rewrite Op → Statement Op → Option (State S Op)
  | .none, .readSnapshot latest =>
    if Newest (versionsOf σ.pageVersions page) latest then
      some (σ.at s ((σ.task s).at (.snapshot latest)))
    else none
  | .snapshot latest, .readUpdates =>
    some (σ.at s ((σ.task s).at (.materialized (extractInternalLinks
      (materialized content σ.pageVersions yjsUpdates latest page) page.pageId))))
  | .materialized targets, .findRows =>
    some (σ.at s ((σ.task s).at
      (.found targets (σ.backlinks.filter fun edge => edge.source = page))))
  | .found targets rows, .delete =>
    if ∀ t, t ≠ s → ∀ edge ∈ rows, edge ∉ (σ.task t).rewrite.gone then
      some (σ.at s ((σ.task s).at (.deleted targets (rows.filter (· ∈ σ.backlinks)))))
    else none
  | .deleted targets gone, .insert =>
    let rows := page.edges targets
    if ∀ t, t ≠ s → ∀ edge ∈ rows, edge ∉ (σ.task t).rewrite.gone ∧ edge ∉ (σ.task t).added then
      if Insertable pages (σ.backlinks.filter (· ∉ gone)) rows then
        some (σ.at s ((σ.task s).at (.inserted targets gone)))
      else some (σ.at s .idle)
    else none
  | .inserted targets gone, .commit =>
    some { σ.at s ⟨(σ.task s).claimed, rest, .none⟩ with
      backlinks := σ.backlinks.filter (· ∉ gone) ++ page.edges targets
      outbox := σ.outbox ++ [page] }
  | _, _ => none

def step [Fintype S] (σ : State S Op) : Action S Op → Option (State S Op)
  | .write row =>
    if row.page ∈ pages ∧ row.id ∉ σ.pageVersions.map VersionRow.id then
      some { σ with pageVersions := row :: σ.pageVersions }
    else none
  | .relay s .throw => some (σ.at s .idle)
  | .relay s (.claim limit) =>
    if (σ.task s).claimed = [] then
      let claimed := claimUnprocessedPageVersions σ.pageVersions σ.backlinkDispatch limit
      some (σ.at s ⟨claimed, distinctPages claimed, .none⟩)
    else none
  | .relay s .mark =>
    if (σ.task s).pages = [] then
      some { σ.at s .idle with
        backlinkDispatch := UniqueInsert.insertAll id σ.backlinkDispatch
          ((σ.task s).claimed.map VersionRow.id) }
    else none
  | .relay s statement =>
    match (σ.task s).pages with
    | page :: rest =>
      rewriteBacklinks content yjsUpdates pages σ s page rest (σ.task s).rewrite statement
    | [] => none

/-! ### What is asked of them -/

/-- The rows of the page are those of its links. -/
def Stores (backlinks : List Backlink) (page : Page) (targets : List String) : Prop :=
  ∀ edge : Backlink, edge.source = page → (edge ∈ backlinks ↔ edge ∈ page.edges targets)

/-- The page's links, from a last version. -/
def linksOf (σ : State S Op) (page : Page) (version : PageVersionState Op) : List String :=
  extractInternalLinks (materialized content σ.pageVersions yjsUpdates (some version) page)
    page.pageId

/-- The rows of the page are its links, from one of its last versions. -/
def Shown (σ : State S Op) (page : Page) : Prop :=
  ∃ version ∈ versionsOf σ.pageVersions page,
    Newest (versionsOf σ.pageVersions page) (some version) ∧
      Stores σ.backlinks page (linksOf content yjsUpdates σ page version)

/-- The rows of each page that has a version are its links. -/
def Converged (σ : State S Op) : Prop := ∀ row ∈ σ.pageVersions, Shown content yjsUpdates σ row.page

/-- A version of the page is not marked, and whoever has claimed it is to rewrite the page yet and
is not `done` with it. -/
def Left (σ : State S Op) (done : S → Prop) (page : Page) : Prop :=
  ∃ row ∈ σ.pageVersions, row.page = page ∧ row.id ∉ σ.backlinkDispatch ∧
    ∀ t, row.id ∈ (σ.task t).claimed.map VersionRow.id → page ∈ (σ.task t).pages ∧ ¬done t

/-- A rewrite that is committed inserts the links that the page still has and has deleted all rows
that there are of it, or else a version of the page is left for another rewrite. -/
def Current (σ : State S Op) (a : Action S Op) : Prop :=
  ∀ s ∈ a.commits, ∀ commit ∈ (σ.task s).commits,
    ((∃ version ∈ versionsOf σ.pageVersions commit.1,
      Newest (versionsOf σ.pageVersions commit.1) (some version) ∧ ∀ target,
        target ∈ commit.2.1 ↔ target ∈ linksOf content yjsUpdates σ commit.1 version) ∧
      ∀ edge ∈ σ.backlinks, edge.source = commit.1 → edge ∈ commit.2.2) ∨ Left σ (· = s) commit.1

/-! ### What a step does -/

section
variable {content : Finset Op → List XmlNode} {yjsUpdates : List (UpdateRow Op)}
  {pages : List Page} {σ σ' : State S Op} {s t : S} {task : Task Op} {page : Page}

theorem rewriteBacklinks_cases [Fintype S] {rest : List Page} {rewrite : Rewrite Op}
    {statement : Statement Op}
    (h : rewriteBacklinks content yjsUpdates pages σ s page rest rewrite statement = some σ') :
    σ' = σ.at s .idle ∨
    (∃ rewrite' : Rewrite Op, σ' = σ.at s ((σ.task s).at rewrite') ∧
      ∀ edge ∈ rewrite'.rows, edge ∈ rewrite.rows ∨ edge.source = page) ∨
    (∃ targets gone, statement = .commit ∧ rewrite = .inserted targets gone ∧
      σ' = { σ.at s ⟨(σ.task s).claimed, rest, .none⟩ with
        backlinks := σ.backlinks.filter (· ∉ gone) ++ page.edges targets
        outbox := σ.outbox ++ [page] }) := by
  unfold rewriteBacklinks at h
  split at h
  · obtain ⟨-, h⟩ := Option.ite_none_right_eq_some.mp h
    exact .inr (.inl ⟨_, (Option.some.inj h).symm, fun _ h => absurd h List.not_mem_nil⟩)
  · exact .inr (.inl ⟨_, (Option.some.inj h).symm, fun _ h => absurd h List.not_mem_nil⟩)
  · exact .inr (.inl ⟨_, (Option.some.inj h).symm,
      fun edge h => .inr (by simpa using (List.mem_filter.mp h).2)⟩)
  · obtain ⟨-, h⟩ := Option.ite_none_right_eq_some.mp h
    exact .inr (.inl ⟨_, (Option.some.inj h).symm,
      fun edge h => .inl (List.mem_of_mem_filter h)⟩)
  · obtain ⟨-, h⟩ := Option.ite_none_right_eq_some.mp h
    split at h
    · exact .inr (.inl ⟨_, (Option.some.inj h).symm, fun edge h => .inl h⟩)
    · exact .inl (Option.some.inj h).symm
  · exact .inr (.inr ⟨_, _, rfl, rfl, (Option.some.inj h).symm⟩)
  · cases h

/-- What a step does: a version is written, or a relay gives up, claims, marks, goes on with a
rewrite, or commits it. -/
theorem step_cases [Fintype S] {a : Action S Op} (h : step content yjsUpdates pages σ a = some σ') :
    (∃ row, row.id ∉ σ.pageVersions.map VersionRow.id ∧
      σ' = { σ with pageVersions := row :: σ.pageVersions }) ∨
    (∃ s, σ' = σ.at s .idle) ∨
    (∃ s limit, σ' = σ.at s
      ⟨claimUnprocessedPageVersions σ.pageVersions σ.backlinkDispatch limit,
        distinctPages (claimUnprocessedPageVersions σ.pageVersions σ.backlinkDispatch limit),
        .none⟩) ∨
    (∃ s, (σ.task s).pages = [] ∧ σ' = { σ.at s .idle with
      backlinkDispatch := UniqueInsert.insertAll id σ.backlinkDispatch
        ((σ.task s).claimed.map VersionRow.id) }) ∨
    (∃ s page rest, ∃ rewrite : Rewrite Op, (σ.task s).pages = page :: rest ∧
      σ' = σ.at s ((σ.task s).at rewrite) ∧
        ∀ edge ∈ rewrite.rows, edge ∈ (σ.task s).rewrite.rows ∨ edge.source = page) ∨
    (∃ s page rest targets gone, a = .relay s .commit ∧ (σ.task s).pages = page :: rest ∧
      (σ.task s).rewrite = .inserted targets gone ∧
      σ' = { σ.at s ⟨(σ.task s).claimed, rest, .none⟩ with
        backlinks := σ.backlinks.filter (· ∉ gone) ++ page.edges targets
        outbox := σ.outbox ++ [page] }) := by
  unfold step at h
  split at h
  · obtain ⟨⟨-, hfresh⟩, h⟩ := Option.ite_none_right_eq_some.mp h
    exact .inl ⟨_, hfresh, (Option.some.inj h).symm⟩
  · exact .inr (.inl ⟨_, (Option.some.inj h).symm⟩)
  · obtain ⟨-, h⟩ := Option.ite_none_right_eq_some.mp h
    exact .inr (.inr (.inl ⟨_, _, (Option.some.inj h).symm⟩))
  · obtain ⟨hpages, h⟩ := Option.ite_none_right_eq_some.mp h
    exact .inr (.inr (.inr (.inl ⟨_, hpages, (Option.some.inj h).symm⟩)))
  · rename_i s statement _ _ _
    split at h
    · rename_i page rest hpages
      rcases rewriteBacklinks_cases h with hidle | ⟨rewrite, hrewrite, hrows⟩ |
        ⟨targets, gone, rfl, hrewrite, hcommit⟩
      · exact .inr (.inl ⟨s, hidle⟩)
      · exact .inr (.inr (.inr (.inr (.inl ⟨s, page, rest, rewrite, hpages, hrewrite, hrows⟩))))
      · exact .inr (.inr (.inr (.inr (.inr
          ⟨s, page, rest, targets, gone, rfl, hpages, hrewrite, hcommit⟩))))
    · cases h

/-! ### What holds in every state -/

variable (content yjsUpdates) in
/-- The versions have ids of their own, and all others speak of them; a relay finds rows of the page
that it rewrites.  And a page that does not have its links has a version left. -/
structure Valid (σ : State S Op) : Prop where
  ids : (σ.pageVersions.map VersionRow.id).Nodup
  marked : ∀ versionId ∈ σ.backlinkDispatch, versionId ∈ σ.pageVersions.map VersionRow.id
  claimed : ∀ s, ∀ row ∈ (σ.task s).claimed, row ∈ σ.pageVersions
  own : ∀ s page rest, (σ.task s).pages = page :: rest →
    ∀ edge ∈ (σ.task s).rewrite.rows, edge.source = page
  left : ∀ row ∈ σ.pageVersions,
    Shown content yjsUpdates σ row.page ∨ Left σ (fun _ => False) row.page

/-- A relay goes on to a task: what it has claimed is in it to be rewritten, or was not before. -/
theorem Valid.at (hv : Valid content yjsUpdates σ)
    (hclaimed : ∀ row ∈ task.claimed, row ∈ σ.pageVersions)
    (hown : ∀ page rest, task.pages = page :: rest →
      ∀ edge ∈ task.rewrite.rows, edge.source = page)
    (hpages : ∀ row ∈ task.claimed, row.page ∈ task.pages ∨
      (row ∈ (σ.task s).claimed ∧ row.page ∉ (σ.task s).pages)) :
    Valid content yjsUpdates (σ.at s task) where
  ids := hv.ids
  marked := hv.marked
  claimed := forall_at (P := fun task => ∀ row ∈ task.claimed, row ∈ σ.pageVersions) hv.claimed
    hclaimed
  own := forall_at (P := fun task => ∀ page rest, task.pages = page :: rest →
    ∀ edge ∈ task.rewrite.rows, edge.source = page) hv.own hown
  left row hrow := by
    refine (hv.left row hrow).imp id ?_
    rintro ⟨row', hrow', hpage, hunmarked, hothers⟩
    refine ⟨row', hrow', hpage, hunmarked, ?_⟩
    refine forall_at (P := fun task => row'.id ∈ task.claimed.map VersionRow.id →
      row.page ∈ task.pages ∧ ¬False) hothers fun hmem => ⟨?_, id⟩
    obtain ⟨same, hsame, hid⟩ := List.mem_map.mp hmem
    obtain rfl : same = row' := List.inj_on_of_nodup_map hv.ids (hclaimed same hsame) hrow' hid
    rcases hpages same hsame with hmem | ⟨hbefore, hnot⟩
    · exact hpage ▸ hmem
    · exact absurd (hpage ▸ (hothers s (List.mem_map_of_mem hbefore)).1) hnot

omit [DecidableEq S] in
/-- A new version is one that is left. -/
theorem Valid.write {row : VersionRow Op} (hv : Valid content yjsUpdates σ)
    (hfresh : row.id ∉ σ.pageVersions.map VersionRow.id) :
    Valid content yjsUpdates { σ with pageVersions := row :: σ.pageVersions } where
  ids := List.nodup_cons.mpr ⟨hfresh, hv.ids⟩
  marked versionId h := List.mem_cons_of_mem _ (hv.marked versionId h)
  claimed s row' h := List.mem_cons_of_mem _ (hv.claimed s row' h)
  own := hv.own
  left row' hrow' := by
    by_cases hsame : row.page = row'.page
    · refine .inr ⟨row, List.mem_cons_self, hsame, fun h => hfresh (hv.marked _ h),
        fun t hmem => ?_⟩
      obtain ⟨other, hother, hid⟩ := List.mem_map.mp hmem
      exact absurd (hid ▸ List.mem_map_of_mem (hv.claimed t other hother)) hfresh
    · have hmem := (List.mem_cons.mp hrow').resolve_left fun h => hsame (congrArg _ h).symm
      have hversions : versionsOf (row :: σ.pageVersions) row'.page =
          versionsOf σ.pageVersions row'.page := by
        rw [versionsOf, List.filter_cons_of_neg (by simpa using hsame), versionsOf]
      refine (hv.left row' hmem).imp (fun hshown => ?_) ?_
      · unfold Shown linksOf materialized
        rw [hversions]
        exact hshown
      · rintro ⟨other, hother, h⟩
        exact ⟨other, List.mem_cons_of_mem _ hother, h⟩

/-- A relay marks what it has claimed when it has rewritten all pages: no version is marked that is
left. -/
theorem Valid.mark (hv : Valid content yjsUpdates σ) (hpages : (σ.task s).pages = []) :
    Valid content yjsUpdates { σ.at s .idle with
      backlinkDispatch := UniqueInsert.insertAll id σ.backlinkDispatch
        ((σ.task s).claimed.map VersionRow.id) } := by
  have hidle : Valid content yjsUpdates (σ.at s .idle) := hv.at (by simp [Task.idle])
    (by simp [Task.idle]) (by simp [Task.idle])
  refine { hidle with marked := fun versionId h => ?_, left := fun row hrow => ?_ }
  · rcases UniqueInsert.mem_insertAll h with h | h
    · exact hv.marked versionId h
    · obtain ⟨row, hrow, rfl⟩ := List.mem_map.mp h
      exact List.mem_map_of_mem (hv.claimed s row hrow)
  · refine (hv.left row hrow).imp id ?_
    rintro ⟨row', hrow', hpage, hunmarked, hothers⟩
    refine ⟨row', hrow', hpage, fun h => ?_, ?_⟩
    · rcases UniqueInsert.mem_insertAll h with h | h
      · exact hunmarked h
      · have hmem := (hothers s h).1
        rw [hpages] at hmem
        exact List.not_mem_nil hmem
    · exact forall_at (P := fun task => row'.id ∈ task.claimed.map VersionRow.id →
        row.page ∈ task.pages ∧ ¬False) hothers fun h => absurd h List.not_mem_nil

variable {rest : List Page} {targets : List String} {gone : List Backlink}

/-- What a rewrite leaves of the other pages. -/
theorem mem_rewritten {edge : Backlink} (hgone : ∀ edge ∈ gone, edge.source = page)
    (hsource : edge.source ≠ page) (backlinks : List Backlink) :
    edge ∈ backlinks.filter (· ∉ gone) ++ page.edges targets ↔ edge ∈ backlinks := by
  have hold : edge ∉ gone := fun h => hsource (hgone edge h)
  have hnew : edge ∉ page.edges targets := fun h => hsource (mem_edges.mp h).1
  simp [hold, hnew]

/-- The rows of a page that are all deleted are replaced. -/
theorem mem_replaced {edge : Backlink} {backlinks : List Backlink}
    (hall : ∀ edge ∈ backlinks, edge.source = page → edge ∈ gone) (hsource : edge.source = page) :
    edge ∈ backlinks.filter (· ∉ gone) ++ page.edges targets ↔ edge ∈ page.edges targets := by
  have hold : edge ∉ backlinks.filter (· ∉ gone) := fun h => by
    obtain ⟨hmem, hkept⟩ := List.mem_filter.mp h
    exact absurd (hall edge hmem hsource) (by simpa using hkept)
  rw [List.mem_append, or_iff_right hold]

/-- A rewrite that is current leaves the page with its links, or leaves a version of it. -/
theorem Valid.commit (hv : Valid content yjsUpdates σ) (hpages : (σ.task s).pages = page :: rest)
    (hrewrite : (σ.task s).rewrite = .inserted targets gone)
    (hcurrent : Current content yjsUpdates σ (.relay s .commit)) :
    Valid content yjsUpdates { σ.at s ⟨(σ.task s).claimed, rest, .none⟩ with
      backlinks := σ.backlinks.filter (· ∉ gone) ++ page.edges targets
      outbox := σ.outbox ++ [page] } := by
  have hgone : ∀ edge ∈ gone, edge.source = page := fun edge hedge =>
    hv.own s page rest hpages edge (by rwa [hrewrite])
  have hcommits : (page, targets, gone) ∈ (σ.task s).commits := by
    simp [Task.commits, hpages, hrewrite]
  refine ⟨hv.ids, hv.marked, ?_, ?_, fun row hrow => ?_⟩
  · exact forall_at (P := fun task => ∀ row ∈ task.claimed, row ∈ σ.pageVersions) hv.claimed
      (hv.claimed s)
  · exact forall_at (P := fun task => ∀ page rest, task.pages = page :: rest →
      ∀ edge ∈ task.rewrite.rows, edge.source = page) hv.own
      fun _ _ _ _ h => absurd h List.not_mem_nil
  · by_cases hpage : row.page = page
    · rw [hpage]
      rcases hcurrent s rfl _ hcommits with ⟨⟨version, hversion, hnewest, htargets⟩, hall⟩ |
        ⟨row', hrow', hpage', hunmarked, hothers⟩
      · refine .inl ⟨version, hversion, hnewest, fun edge hsource => ?_⟩
        refine (mem_replaced hall hsource).trans ?_
        rw [mem_edges, mem_edges]
        simp only [htargets]
        rfl
      · refine .inr ⟨row', hrow', hpage', hunmarked, fun t hmem => ?_⟩
        by_cases hts : t = s
        · subst hts
          have hmem' : row'.id ∈ (σ.task t).claimed.map VersionRow.id := by
            simpa only [at_self] using hmem
          exact absurd rfl (hothers t hmem').2
        · have hmem' : row'.id ∈ (σ.task t).claimed.map VersionRow.id := by
            simpa only [at_of_ne hts] using hmem
          exact ⟨by simpa only [at_of_ne hts] using (hothers t hmem').1, id⟩
    · refine (hv.left row hrow).imp ?_ ?_
      · rintro ⟨version, hversion, hnewest, hstores⟩
        refine ⟨version, hversion, hnewest, fun edge hsource => ?_⟩
        exact (mem_rewritten hgone (hsource ▸ hpage) σ.backlinks).trans (hstores edge hsource)
      · rintro ⟨row', hrow', hpage', hunmarked, hothers⟩
        refine ⟨row', hrow', hpage', hunmarked, ?_⟩
        refine forall_at (P := fun task => row'.id ∈ task.claimed.map VersionRow.id →
          row.page ∈ task.pages ∧ ¬False) hothers fun hmem => ⟨?_, id⟩
        have hleft := (hothers s hmem).1
        rw [hpages] at hleft
        exact (List.mem_cons.mp hleft).resolve_left hpage

theorem valid_step [Fintype S] {a : Action S Op} (hv : Valid content yjsUpdates σ)
    (hcurrent : Current content yjsUpdates σ a)
    (h : step content yjsUpdates pages σ a = some σ') : Valid content yjsUpdates σ' := by
  rcases step_cases h with ⟨row, hfresh, rfl⟩ | ⟨s, rfl⟩ | ⟨s, limit, rfl⟩ | ⟨s, hpages, rfl⟩ |
    ⟨s, page, rest, rewrite, hpages, rfl, hrows⟩ |
    ⟨s, page, rest, targets, gone, rfl, hpages, hrewrite, rfl⟩
  · exact hv.write hfresh
  · exact hv.at (by simp [Task.idle]) (by simp [Task.idle]) (by simp [Task.idle])
  · refine hv.at (fun row hrow => (mem_unprocessed.mp (mem_of_claimed hrow)).1)
      (fun _ _ _ _ h => absurd h List.not_mem_nil) fun row hrow => .inl ?_
    exact mem_distinctPages.mpr ⟨row, hrow, rfl⟩
  · exact hv.mark hpages
  · refine hv.at (hv.claimed s) (fun page' rest' hpages' edge hedge => ?_) fun row hrow => ?_
    · obtain ⟨rfl, -⟩ := List.cons.inj (hpages.symm.trans hpages')
      exact (hrows edge hedge).elim (hv.own s page rest hpages edge) id
    · exact (Decidable.em (row.page ∈ (σ.task s).pages)).imp id fun h => ⟨hrow, h⟩
  · exact hv.commit hpages hrewrite hcurrent

end

omit [DecidableEq S] in
/-- Before any version is marked, all of them are left. -/
theorem valid_initial {content : Finset Op → List XmlNode} {yjsUpdates : List (UpdateRow Op)}
    {pageVersions : List (VersionRow Op)} (hids : (pageVersions.map VersionRow.id).Nodup)
    (backlinks : List Backlink) :
    Valid content yjsUpdates (initial pageVersions backlinks : State S Op) where
  ids := hids
  marked _ h := absurd h List.not_mem_nil
  claimed _ _ h := absurd h List.not_mem_nil
  own _ _ _ _ _ h := absurd h List.not_mem_nil
  left row hrow := .inr ⟨row, hrow, rfl, List.not_mem_nil, fun _ h => absurd h List.not_mem_nil⟩

instance (content : Finset Op → List XmlNode) (yjsUpdates : List (UpdateRow Op)) (σ : State S Op)
    (page : Page) : Decidable (Shown content yjsUpdates σ page) :=
  decidable_of_iff (∃ version ∈ versionsOf σ.pageVersions page,
    Newest (versionsOf σ.pageVersions page) (some version) ∧
      (∀ edge ∈ σ.backlinks, edge.source = page →
        edge ∈ page.edges (linksOf content yjsUpdates σ page version)) ∧
      ∀ edge ∈ page.edges (linksOf content yjsUpdates σ page version), edge ∈ σ.backlinks)
    (exists_congr fun _ => and_congr_right fun _ => and_congr_right fun _ =>
      ⟨fun h edge hsource => ⟨fun hmem => h.1 edge hmem hsource, h.2 edge⟩,
        fun h => ⟨fun edge hmem hsource => (h edge hsource).mp hmem,
          fun edge hmem => (h edge (mem_edges.mp hmem).1).mpr hmem⟩⟩)

instance decidableSameTargets (targets links : List String) :
    Decidable (∀ target, target ∈ targets ↔ target ∈ links) :=
  decidable_of_iff (targets ⊆ links ∧ links ⊆ targets)
    ⟨fun h target => ⟨@h.1 target, @h.2 target⟩,
      fun h => ⟨fun target => (h target).mp, fun target => (h target).mpr⟩⟩

instance [Fintype S] (σ : State S Op) (s : S) (page : Page) : Decidable (Left σ (· = s) page) :=
  inferInstanceAs (Decidable (∃ row ∈ _, _ ∧ _ ∧ ∀ t, _ → _ ∧ ¬t = s))

instance [Fintype S] (content : Finset Op → List XmlNode) (yjsUpdates : List (UpdateRow Op))
    (σ : State S Op) (a : Action S Op) : Decidable (Current content yjsUpdates σ a) :=
  inferInstanceAs (Decidable (∀ s ∈ a.commits, ∀ commit ∈ (σ.task s).commits, _ ∨ _))

def home : Page := ⟨"o", "0195ee30-0000-7000-8000-0000000000a1"⟩

def guide : Page := ⟨"o", "0195ee30-0000-7000-8000-0000000000b1"⟩

/-- One operation inserts a link, and another one deletes it. -/
def linkToGuide (document : Finset Nat) : List XmlNode :=
  if 0 ∈ document ∧ 1 ∉ document then
    [.element "pageLink" [("pageId", .text guide.pageId), ("label", .text "Guide")] []]
  else []

def withLink : VersionRow Nat := ⟨"v", home, ⟨{0}, 5⟩⟩

def withoutLink : VersionRow Nat := ⟨"w", home, ⟨{0, 1}, 7⟩⟩

def reads (s : Bool) (row : VersionRow Nat) : List (Action Bool Nat) :=
  [.relay s (.claim 100), .relay s (.readSnapshot (some row.version)), .relay s .readUpdates]

def writes (s : Bool) : List (Action Bool Nat) :=
  [.relay s .findRows, .relay s .delete, .relay s .insert, .relay s .commit, .relay s .mark]

/-- What the tables are to be at the end: all is marked, and what is stored. -/
def ending (σ : State Bool Nat) : Bool × List PageId × Bool :=
  (σ.pageVersions.all (·.id ∈ σ.backlinkDispatch), σ.backlinks.map Backlink.targetPageId,
    Shown linkToGuide [] σ home)

end BacklinksConverge
end TaskFlow
