import TaskFlow.CollabPageReplay

/-! # Restoring a version of a page

The API rebuilds a page from the same two tables as the collaboration server, but
compares the stamps in the database.  The server reads the stamp of the latest
version in milliseconds first, so it also gets the rows of that version's
millisecond that are not after it.

A restore writes the content of an old version as a new one, and no row.  It
relies on being the latest: whatever is loaded afterwards starts there.
-/
namespace TaskFlow
namespace PageRestore
open SnapshotLog CollabPage

variable {S R Op : Type} [DecidableEq Op]

/-! ### Two reconstructions -/

/-- The latest version, if any, and the rows after it. -/
def materializeCurrentState (snapshot : Option (PageVersionState Op))
    (rows : List (StoredUpdate Op)) (versions : List (PageVersionState Op)) : Finset Op :=
  rebuilt snapshot (walRowsSinceLatestSnapshot rows versions)

section
variable {rows updates : List (StoredUpdate Op)} {versions : List (PageVersionState Op)}
  {snapshot : Option (PageVersionState Op)} {latest other : PageVersionState Op} {op : Op}

theorem mem_rebuilt :
    op ∈ rebuilt snapshot updates ↔
      (∃ version ∈ snapshot, op ∈ version.state) ∨ ∃ row ∈ updates, op ∈ row.data := by
  have hfold (document : Finset Op) :
      op ∈ updates.foldl (fun document row => applyUpdate document row.data) document ↔
        op ∈ document ∨ ∃ row ∈ updates, op ∈ row.data := by
    induction updates generalizing document with
    | nil => simp
    | cons row updates ih =>
      rw [List.foldl_cons, ih]
      simp [applyUpdate, or_assoc]
  rw [rebuilt, hfold]
  cases snapshot <;> simp

omit [DecidableEq Op] in
theorem mem_readUpdatesSince_map {row : StoredUpdate Op} :
    row ∈ readUpdatesSince rows (snapshot.map fun version => toDate version.createdAt) ↔
      row ∈ rows ∧ ∀ version ∈ snapshot, toDate version.createdAt < row.createdAt := by
  cases snapshot <;> simp [readUpdatesSince]

omit [DecidableEq Op] in
theorem mem_walRows_of_newest {row : StoredUpdate Op} (h : Newest versions snapshot) :
    row ∈ walRowsSinceLatestSnapshot rows versions ↔
      row ∈ rows ∧ ∀ version ∈ snapshot, version.createdAt < row.createdAt := by
  simp only [walRowsSinceLatestSnapshot, List.mem_filter, List.all_eq_true, decide_eq_true_eq]
  apply and_congr_right
  intro _
  cases snapshot with
  | none =>
    obtain rfl : versions = [] := h
    simp
  | some latest =>
    refine ⟨fun hall version hversion => ?_, fun hlatest version hversion => ?_⟩
    · obtain rfl := Option.some.inj hversion
      exact hall _ h.1
    · exact (h.2 version hversion).trans_lt (hlatest latest rfl)

/-- The operation is in the version, or in a row after it. -/
def Current (rows : List (StoredUpdate Op)) (latest : PageVersionState Op) (op : Op) : Prop :=
  op ∈ latest.state ∨ ∃ row ∈ rows, latest.createdAt < row.createdAt ∧ op ∈ row.data

instance : DecidablePred (Current rows latest) := fun _ => inferInstanceAs (Decidable (_ ∨ _))

omit [DecidableEq Op] in
theorem createdAt_eq_of_newest (h : Newest versions (some latest))
    (h' : Newest versions (some other)) : latest.createdAt = other.createdAt :=
  le_antisymm (h'.2 latest h.1) (h.2 other h'.1)

theorem mem_materializeCurrentState (h : Newest versions (some latest)) :
    op ∈ materializeCurrentState (some latest) rows versions ↔ Current rows latest op := by
  simp only [materializeCurrentState, mem_rebuilt, mem_walRows_of_newest h, Current]
  simp [and_assoc]

theorem mem_replayPage_some :
    op ∈ replayPage (some latest) rows ↔ op ∈ latest.state ∨
      ∃ row ∈ rows, toDate latest.createdAt < row.createdAt ∧ op ∈ row.data := by
  simp only [replayPage, mem_rebuilt, mem_readUpdatesSince_map]
  simp [and_assoc]

/-- Nothing stands between the two reconstructions: the rows in the latest version's
millisecond that are not after it have nothing more than it and the rows after it,
and neither has another version of the same instant. -/
def Unambiguous (rows : List (StoredUpdate Op)) (versions : List (PageVersionState Op)) : Prop :=
  ∀ latest, Newest versions (some latest) →
    (∀ row ∈ rows, toDate latest.createdAt < row.createdAt → row.createdAt ≤ latest.createdAt →
      ∀ op ∈ row.data, Current rows latest op) ∧
    ∀ other, Newest versions (some other) → ∀ op ∈ other.state, Current rows latest op

/-- A latest version's replay has nothing that is not in what the API builds. -/
theorem current_of_mem_replayPage (h : Unambiguous rows versions)
    (hlatest : Newest versions (some latest)) (hother : Newest versions (some other))
    (hop : op ∈ replayPage (some other) rows) : Current rows latest op := by
  obtain ⟨hrows, hothers⟩ := h latest hlatest
  rcases (mem_replayPage_some).mp hop with hop | ⟨row, hrow, hcutoff, hop⟩
  · exact hothers other hother op hop
  · rw [createdAt_eq_of_newest hother hlatest] at hcutoff
    rcases le_or_gt row.createdAt latest.createdAt with hle | hlt
    · exact hrows row hrow hcutoff hle op hop
    · exact Or.inr ⟨row, hrow, hlt, hop⟩

omit [DecidableEq Op] in
theorem Current.of_newest (hop : Current rows latest op) (h : Unambiguous rows versions)
    (hlatest : Newest versions (some latest)) (hother : Newest versions (some other)) :
    Current rows other op := by
  rcases hop with hop | hrow
  · exact (h other hother).2 latest hlatest op hop
  · rw [createdAt_eq_of_newest hlatest hother] at hrow
    exact Or.inr hrow

/-- What comes after the version comes after its cutoff. -/
theorem mem_replayPage_of_current (h : Current rows latest op) :
    op ∈ replayPage (some latest) rows := by
  refine (mem_replayPage_some).mpr (h.imp_right ?_)
  rintro ⟨row, hrow, hlt, hop⟩
  exact ⟨row, hrow, (Nat.div_mul_le_self _ _).trans_lt hlt, hop⟩

end

/-- **The two reconstructions agree** on exactly the tables in which nothing stands
between them, whichever of several latest versions each of them gets. -/
theorem reconstructions_agree_iff {Op : Type} [DecidableEq Op] (rows : List (StoredUpdate Op))
    (versions : List (PageVersionState Op)) :
    (∀ snapshot snapshot', Newest versions snapshot → Newest versions snapshot' →
      replayPage snapshot rows = materializeCurrentState snapshot' rows versions) ↔
    Unambiguous rows versions := by
  constructor
  · intro hagree latest hlatest
    refine ⟨fun row hrow hcutoff _ op hop => ?_, fun other hother op hop => ?_⟩
    · rw [← mem_materializeCurrentState hlatest, ← hagree _ _ hlatest hlatest]
      exact (mem_replayPage_some).mpr (Or.inr ⟨row, hrow, hcutoff, hop⟩)
    · rw [← mem_materializeCurrentState hlatest, ← hagree _ _ hother hlatest]
      exact (mem_replayPage_some).mpr (Or.inl hop)
  · intro h snapshot snapshot' hsnapshot hsnapshot'
    cases snapshot' with
    | none =>
      cases snapshot with
      | none =>
        ext op
        simp only [replayPage, materializeCurrentState, mem_rebuilt, mem_readUpdatesSince_map,
          mem_walRows_of_newest hsnapshot']
        simp
      | some other =>
        rw [show versions = [] from hsnapshot'] at hsnapshot
        exact absurd hsnapshot.1 List.not_mem_nil
    | some latest =>
      cases snapshot with
      | none =>
        rw [show versions = [] from hsnapshot] at hsnapshot'
        exact absurd hsnapshot'.1 List.not_mem_nil
      | some other =>
        ext op
        rw [mem_materializeCurrentState hsnapshot']
        exact ⟨current_of_mem_replayPage h hsnapshot' hsnapshot, fun hop =>
          mem_replayPage_of_current (hop.of_newest h hsnapshot' hsnapshot)⟩

/-- The page had another edit in the millisecond in which it was restored. -/
theorem reconstructions_differ :
    ∃ (rows : List (StoredUpdate ℕ)) (versions : List (PageVersionState ℕ))
      (snapshot : Option (PageVersionState ℕ)), Newest versions snapshot ∧
      replayPage snapshot rows = {1, 2} ∧ materializeCurrentState snapshot rows versions = {1} := by
  refine ⟨[⟨1, {2}, 1200⟩, ⟨0, {1}, 0⟩], [⟨{1}, 1500⟩, ⟨{1}, 10⟩], some ⟨{1}, 1500⟩, ?_⟩
  decide

/-! ### Restores -/

/-- How far a `restorePageVersion` has come. -/
inductive Restore (Op : Type) where
  | idle
  | restoring (createdAt : Nat)
  /-- The version has been found. -/
  | read (version : PageVersionState Op) (createdAt : Nat)
  deriving DecidableEq

inductive RestoreInput (Op : Type) where
  | restorePageVersion
  | select (version : PageVersionState Op)
  | commit
  | throws

inductive Action (S R Op : Type) where
  | page (action : CollabPage.Action S Op)
  | restore (r : R) (input : RestoreInput Op)

/-- A page and the restores that are under way. -/
structure System (S R Op : Type) where
  page : State S Op
  restores : R → Restore Op

/-- The version that a restore inserts. -/
def restored (version : PageVersionState Op) (createdAt : Nat) : PageVersionState Op :=
  { version with createdAt := createdAt }

variable [DecidableEq S] [DecidableEq R]

def System.set (sys : System S R Op) (r : R) (restore : Restore Op) : System S R Op :=
  { sys with restores := Function.update sys.restores r restore }

def restorePageVersion (sys : System S R Op) (r : R) (input : RestoreInput Op) :
    Option (System S R Op) :=
  match sys.restores r, input with
  | .idle, .restorePageVersion => some (sys.set r (.restoring sys.page.now))
  | .restoring createdAt, .select version =>
    if version ∈ sys.page.pageVersions then some (sys.set r (.read version createdAt)) else none
  | .read version createdAt, .commit =>
    some ({ sys with page := { sys.page with
      pageVersions := restored version createdAt :: sys.page.pageVersions } }.set r .idle)
  | .restoring _, .throws | .read _ _, .throws => some (sys.set r .idle)
  | _, _ => none

def step (sys : System S R Op) : Action S R Op → Option (System S R Op)
  | .page action => (CollabPage.step sys.page action).map fun page => { sys with page := page }
  | .restore r input => restorePageVersion sys r input

def initial : System S R Op := ⟨CollabPage.initial, fun _ => .idle⟩

/-! ### What a restore needs -/

/-- The version is older than the restored one, or has its content. -/
def Yields (latest version : PageVersionState Op) : Prop :=
  version.createdAt < latest.createdAt ∨ version.state = latest.state

instance {latest : PageVersionState Op} : DecidablePred (Yields latest) := fun _ =>
  inferInstanceAs (Decidable (_ ∨ _))

/-- A task that does not outlive the restore with other content. -/
def TaskYields (latest : PageVersionState Op) : CollabPage.Task Op → Prop
  | .encoded _ state => state = latest.state
  | .writing _ version | .materialized version => Yields latest version
  | _ => True

instance {latest : PageVersionState Op} : DecidablePred (TaskYields latest) := fun task => by
  unfold TaskYields
  split <;> infer_instance

/-- When a restore commits: the versions are older than it, the rows of its
millisecond and after have nothing else, and no version with anything else is on
its way. -/
structure Supersedes (latest : PageVersionState Op) (page : State S Op) : Prop where
  versions : ∀ version ∈ page.pageVersions, Yields latest version
  rows : ∀ row ∈ page.yjsUpdates, toDate latest.createdAt < row.createdAt →
    row.data ⊆ latest.state
  tasks : ∀ s, TaskYields latest (page.tasks s)

instance [Fintype S] {latest : PageVersionState Op} : DecidablePred
    (Supersedes (S := S) latest) := fun page =>
  decidable_of_iff ((∀ version ∈ page.pageVersions, Yields latest version) ∧
    (∀ row ∈ page.yjsUpdates, toDate latest.createdAt < row.createdAt →
      row.data ⊆ latest.state) ∧ ∀ s, TaskYields latest (page.tasks s))
    ⟨fun h => ⟨h.1, h.2.1, h.2.2⟩, fun h => ⟨h.versions, h.rows, h.tasks⟩⟩

/-- The steps after a restore.  No row is appended, and nothing else is restored;
a live document is encoded only with the restored content, and a save reads the rows
while its snapshot is the latest, or has begun before the restore. -/
def Undisturbed (latest : PageVersionState Op) (sys : System S R Op) : Action S R Op → Prop
  | .page (.run s input) =>
    match sys.page.tasks s, input, sys.page.document with
    | .appending _, .commit, _ => False
    | .readRows _, .encodeStateAsUpdate stripped, .live document =>
      applyUpdate document stripped = latest.state
    | .readSnapshot createdAt snapshot, .walRowsSinceLatestSnapshot, _ =>
      createdAt < latest.createdAt ∨ Newest sys.page.pageVersions snapshot
    | _, _, _ => True
  | .restore _ .commit => False
  | _ => True

instance {latest : PageVersionState Op} {sys : System S R Op} :
    DecidablePred (Undisturbed latest sys) := fun action => by
  unfold Undisturbed
  repeat' split
  all_goals infer_instance

section
variable {latest version : PageVersionState Op} {page page' : State S Op}
  {sys sys' : System S R Op} {s : S} {next : CollabPage.Task Op}

omit [DecidableEq Op] [DecidableEq R] in
theorem Supersedes.set (h : Supersedes latest page) (htask : TaskYields latest next) :
    Supersedes latest (page.set s next) where
  versions := h.versions
  rows := h.rows
  tasks t := by
    by_cases hts : t = s
    · subst hts
      simpa [State.set] using htask
    · simpa [State.set, Function.update_of_ne hts] using h.tasks t

omit [DecidableEq Op] [DecidableEq S] [DecidableEq R] in
theorem Supersedes.take (h : Supersedes latest page) (hversion : Yields latest version) :
    Supersedes latest { page with pageVersions := version :: page.pageVersions } where
  versions other hother := by
    rcases List.mem_cons.mp hother with rfl | hother
    · exact hversion
    · exact h.versions other hother
  rows := h.rows
  tasks := h.tasks

omit [DecidableEq Op] [DecidableEq S] [DecidableEq R] in
/-- A latest version is no older than the restored one, and has its content. -/
theorem eq_of_newest {versions : List (PageVersionState Op)}
    {snapshot : Option (PageVersionState Op)}
    (hversions : ∀ version ∈ versions, Yields latest version) (hmem : latest ∈ versions)
    (hnewest : Newest versions snapshot) :
    ∃ newest, snapshot = some newest ∧ latest.createdAt ≤ newest.createdAt ∧
      newest.state = latest.state := by
  cases snapshot with
  | none =>
    rw [show versions = [] from hnewest] at hmem
    exact absurd hmem List.not_mem_nil
  | some newest =>
    have hle := hnewest.2 latest hmem
    exact ⟨newest, rfl, hle, (hversions newest hnewest.1).resolve_left (not_lt_of_ge hle)⟩

omit [DecidableEq S] [DecidableEq R] in
/-- Its replay has nothing else. -/
theorem Supersedes.replayPage_eq {snapshot : Option (PageVersionState Op)}
    (h : Supersedes latest page) {newest : PageVersionState Op} (hsnapshot : snapshot = some newest)
    (hle : latest.createdAt ≤ newest.createdAt) (hstate : newest.state = latest.state) :
    replayPage snapshot page.yjsUpdates = latest.state := by
  subst hsnapshot
  ext op
  rw [mem_replayPage_some, hstate]
  refine ⟨fun hop => hop.elim id ?_, Or.inl⟩
  rintro ⟨row, hrow, hlt, hop⟩
  have hcutoff : toDate latest.createdAt ≤ toDate newest.createdAt :=
    Nat.mul_le_mul_right _ (Nat.div_le_div_right hle)
  exact h.rows row hrow (hcutoff.trans_lt hlt) hop

omit [DecidableEq S] [DecidableEq R] in
/-- A save on a latest snapshot has the restored content. -/
theorem Supersedes.materialize_eq {snapshot : Option (PageVersionState Op)}
    (h : Supersedes latest page) (hmem : latest ∈ page.pageVersions)
    (hnewest : Newest page.pageVersions snapshot) :
    rebuilt snapshot (walRowsSinceLatestSnapshot page.yjsUpdates page.pageVersions) =
      latest.state := by
  obtain ⟨newest, rfl, hle, hstate⟩ := eq_of_newest h.versions hmem hnewest
  have hreplay := h.replayPage_eq rfl hle hstate
  ext op
  refine (mem_materializeCurrentState hnewest).trans ⟨fun hop => ?_, fun hop => ?_⟩
  · rw [← hreplay]
    exact mem_replayPage_of_current hop
  · exact Or.inl (hstate ▸ hop)

/-! ### After a restore -/

/-- What holds from the commit of a restore on. -/
structure Restored (latest : PageVersionState Op) (page : State S Op) : Prop where
  supersedes : Supersedes latest page
  committed : latest ∈ page.pageVersions

omit [DecidableEq Op] [DecidableEq R] in
theorem Restored.set (h : Restored latest page) (htask : TaskYields latest next) :
    Restored latest (page.set s next) := ⟨h.supersedes.set htask, h.committed⟩

omit [DecidableEq Op] [DecidableEq S] [DecidableEq R] in
theorem Restored.take (h : Restored latest page) (hversion : Yields latest version) :
    Restored latest { page with pageVersions := version :: page.pageVersions } :=
  ⟨h.supersedes.take hversion, List.mem_cons_of_mem version h.committed⟩

omit [DecidableEq Op] [DecidableEq S] [DecidableEq R] in
/-- Rows may go; nothing else that matters has changed. -/
theorem Restored.shrink (h : Restored latest page)
    (hversions : page'.pageVersions = page.pageVersions)
    (hrows : ∀ row ∈ page'.yjsUpdates, row ∈ page.yjsUpdates) (htasks : page'.tasks = page.tasks) :
    Restored latest page' where
  supersedes :=
    { versions := hversions ▸ h.supersedes.versions
      rows := fun row hrow => h.supersedes.rows row (hrows row hrow)
      tasks := htasks ▸ h.supersedes.tasks }
  committed := hversions ▸ h.committed

omit [DecidableEq R] in
theorem restored_runTask {input : Input Op} (h : Restored latest sys.page)
    (hu : Undisturbed latest sys (.page (.run s input)))
    (hstep : runTask sys.page s input = some page') : Restored latest page' := by
  have htask := h.supersedes.tasks s
  unfold runTask at hstep
  split at hstep
  case h_1 update document hs hd =>
    obtain rfl := Option.some.inj hstep
    exact Restored.set (h.shrink rfl (fun _ hrow => hrow) rfl) trivial
  case h_2 row hs =>
    simp only [Undisturbed, hs] at hu
  case h_3 update document hs hd =>
    obtain rfl := Option.some.inj hstep
    exact Restored.set (h.shrink rfl (fun _ hrow => hrow) rfl) trivial
  case h_4 snapshot document hs hd =>
    split at hstep
    · obtain rfl := Option.some.inj hstep
      exact h.set trivial
    · cases hstep
  case h_5 snapshot hs =>
    dsimp only at hstep
    split at hstep <;> obtain rfl := Option.some.inj hstep
    · exact h.set trivial
    · exact h.set trivial
  case h_6 rows stripped document hs hd =>
    obtain rfl := Option.some.inj hstep
    have hencoded : applyUpdate document stripped = latest.state := by
      simpa only [Undisturbed, hs, hd] using hu
    exact Restored.set (h.shrink rfl (fun _ hrow => hrow) rfl) hencoded
  case h_7 rows state hs =>
    obtain rfl := Option.some.inj hstep
    rw [hs] at htask
    exact h.set (Or.inr htask)
  case h_8 rows version hs =>
    obtain rfl := Option.some.inj hstep
    rw [hs] at htask
    exact (h.take htask).set trivial
  case h_9 rows hs =>
    obtain rfl := Option.some.inj hstep
    exact Restored.set (h.shrink rfl (fun _ hrow => List.mem_of_mem_filter hrow) rfl) trivial
  case h_10 hs =>
    obtain rfl := Option.some.inj hstep
    exact h.set trivial
  case h_11 createdAt snapshot hs =>
    split at hstep
    · obtain rfl := Option.some.inj hstep
      exact h.set trivial
    · cases hstep
  case h_12 createdAt snapshot hs =>
    obtain rfl := Option.some.inj hstep
    have hbase : createdAt < latest.createdAt ∨ Newest sys.page.pageVersions snapshot := by
      simpa only [Undisturbed, hs] using hu
    exact h.set (hbase.imp_right fun hnewest => h.supersedes.materialize_eq h.committed hnewest)
  case h_13 version hs =>
    obtain rfl := Option.some.inj hstep
    rw [hs] at htask
    exact (h.take htask).set trivial
  case h_16 =>
    obtain rfl := Option.some.inj hstep
    exact h.set trivial
  all_goals cases hstep

theorem restored_step {action : Action S R Op} (h : Restored latest sys.page)
    (hu : Undisturbed latest sys action) (hstep : step sys action = some sys') :
    Restored latest sys'.page := by
  cases action with
  | page action =>
    obtain ⟨page', hpage, rfl⟩ := Option.map_eq_some_iff.mp hstep
    cases action with
    | tick microseconds =>
      obtain rfl := Option.some.inj hpage
      exact h.shrink rfl (fun _ hrow => hrow) rfl
    | latestVersion snapshot =>
      rw [CollabPage.step] at hpage
      split at hpage
      · split at hpage
        · obtain rfl := Option.some.inj hpage
          exact h.shrink rfl (fun _ hrow => hrow) rfl
        · cases hpage
      · cases hpage
    | replayPage =>
      rw [CollabPage.step] at hpage
      split at hpage
      · obtain rfl := Option.some.inj hpage
        exact h.shrink rfl (fun _ hrow => hrow) rfl
      · cases hpage
    | crash =>
      obtain rfl := Option.some.inj hpage
      refine ⟨⟨h.supersedes.versions, h.supersedes.rows, fun s => ?_⟩, h.committed⟩
      have htask := h.supersedes.tasks s
      change TaskYields latest (sys.page.tasks s).crashed
      unfold CollabPage.Task.crashed
      split
      · trivial
      · exact htask
    | run s input => exact restored_runTask h hu hpage
  | restore r input =>
    change restorePageVersion sys r input = some sys' at hstep
    unfold restorePageVersion at hstep
    split at hstep
    case h_2 =>
      split at hstep
      · obtain rfl := Option.some.inj hstep
        exact h
      · cases hstep
    case h_3 => exact absurd hu id
    case h_6 => cases hstep
    all_goals
      obtain rfl := Option.some.inj hstep
      exact h

end

/-- **A restore is exact** where it supersedes what is there when it commits and
nothing disturbs it afterwards: any load since then has the version's content. -/
theorem restore_exact {S R Op : Type} [DecidableEq S] [DecidableEq R] [DecidableEq Op]
    {sys sys' sys₁ sys₂ : System S R Op} {r : R} {version : PageVersionState Op} {createdAt : Nat}
    (hread : sys.restores r = .read version createdAt)
    (hsupersedes : Supersedes (restored version createdAt) sys.page)
    (hcommit : step sys (.restore r .commit) = some sys')
    (h₁ : StepSystem.ReachableWhen step (Undisturbed (restored version createdAt)) sys' sys₁)
    {snapshot : Option (PageVersionState Op)} (hnewest : Newest sys₁.page.pageVersions snapshot)
    (h₂ : StepSystem.ReachableWhen step (Undisturbed (restored version createdAt)) sys₁ sys₂) :
    replayPage snapshot sys₂.page.yjsUpdates = version.state := by
  have hrestored : Restored (restored version createdAt) sys'.page := by
    simp only [step, restorePageVersion, hread] at hcommit
    obtain rfl := Option.some.inj hcommit
    exact ⟨hsupersedes.take (Or.inr rfl), List.mem_cons_self⟩
  have hrestored₁ : Restored (restored version createdAt) sys₁.page :=
    h₁.invariant hrestored restored_step
  have hrestored₂ : Restored (restored version createdAt) sys₂.page :=
    h₂.invariant hrestored₁ restored_step
  obtain ⟨newest, hsome, hle, hstate⟩ :=
    eq_of_newest hrestored₁.supersedes.versions hrestored₁.committed hnewest
  exact hrestored₂.supersedes.replayPage_eq hsome hle hstate

/-! ### Runs of one page -/

def page (actions : List (CollabPage.Action (Fin 2) ℕ)) : List (Action (Fin 2) Unit ℕ) :=
  actions.map .page

/-- Who edits, and who compacts and saves. -/
def editor : Fin 2 := ⟨0, Nat.two_pos⟩

def keeper : Fin 2 := ⟨1, Nat.one_lt_two⟩

/-- A version with the operation 1, and an edit with the operation 2 a millisecond
later. -/
def savedAndEdited : List (Action (Fin 2) Unit ℕ) :=
  page (openPage none ++ handleUpdate editor 1 ++ [.tick 1, .run keeper .savePageVersion,
    .run keeper (.latestSnapshot none), .run keeper .walRowsSinceLatestSnapshot,
    .run keeper .commit, .tick 1004] ++ handleUpdate editor 2)

/-- A restore up to its commit. -/
def restore : List (Action (Fin 2) Unit ℕ) :=
  [.restore () .restorePageVersion, .restore () (.select ⟨{1}, 1⟩)]

/-- The document that is open. -/
def opened (sys : System (Fin 2) Unit ℕ) : Option (Finset ℕ) :=
  match sys.page.document with
  | .live document => some document
  | _ => none

/-- A compaction, a save and a reload after a restore. -/
theorem restore_exact_reload :
    ∃ sys sys' sys₁ : System (Fin 2) Unit ℕ,
      step sys (.restore () .commit) = some sys' ∧ sys₁.page.pageVersions.length = 3 ∧
      replayPage (some ⟨{1}, 3010⟩) sys₁.page.yjsUpdates = {1} := by
  have hrun : ((StepSystem.run step initial (savedAndEdited ++ page [.tick 2000] ++ restore)).map
      fun sys => (sys.restores (), decide (Supersedes ⟨{1}, 3005⟩ sys.page),
        (step sys (.restore () .commit)).map fun sys' =>
          (StepSystem.runWhen step (Undisturbed ⟨{1}, 3005⟩) sys' (page [.tick 5,
            .run editor (.compactPage (some ⟨{1}, 3005⟩)), .run editor .readUpdatesSince,
            .run keeper .savePageVersion, .run keeper (.latestSnapshot (some ⟨{1}, 3005⟩)),
            .run keeper .walRowsSinceLatestSnapshot, .run keeper .commit, .crash])).map fun sys₁ =>
              (sys₁.page.pageVersions.length,
                decide (Newest sys₁.page.pageVersions (some ⟨{1}, 3010⟩))))) =
      some (.read ⟨{1}, 1⟩ 3005, true, some (some (3, true))) := by
    decide
  obtain ⟨sys, -, hsys⟩ := Option.map_eq_some_iff.mp hrun
  obtain ⟨hread, hrest⟩ := Prod.mk.inj hsys
  obtain ⟨hsupersedes, hcommit⟩ := Prod.mk.inj hrest
  obtain ⟨sys', hcommit, hsys'⟩ := Option.map_eq_some_iff.mp hcommit
  obtain ⟨sys₁, hafter, hsys₁⟩ := Option.map_eq_some_iff.mp hsys'
  obtain ⟨hlength, hnewest⟩ := Prod.mk.inj hsys₁
  exact ⟨sys, sys', sys₁, hcommit, hlength, restore_exact hread (of_decide_eq_true hsupersedes)
    hcommit (StepSystem.reachableWhen_of_runWhen hafter) (of_decide_eq_true hnewest) .refl⟩

/-- The page is restored five microseconds after an edit. -/
def sameMillisecond : List (Action (Fin 2) Unit ℕ) :=
  savedAndEdited ++ page [.tick 5] ++ restore ++ [.restore () .commit] ++
    page (.crash :: openPage (some ⟨{1}, 1010⟩))

/-- The server has the page open, and a compaction has read the edit's row. -/
def stillOpen : List (Action (Fin 2) Unit ℕ) :=
  savedAndEdited ++ page [.run keeper (.compactPage (some ⟨{1}, 1⟩)), .run keeper .readUpdatesSince,
    .tick 2000] ++ restore ++ [.restore () .commit] ++ page [.tick 5,
    .run keeper (.encodeStateAsUpdate ∅), .run keeper .writeVersion, .run keeper .commit,
    .run keeper .pruneUpdates, .crash] ++ page (openPage (some ⟨{1, 2}, 3010⟩))

/-- In each of these runs the version with the operation 1 alone is restored, no
update is appended any more, and the page is loaded with the edit. -/
theorem restored_with_edit :
    (∃ sys : System (Fin 2) Unit ℕ, StepSystem.run step initial sameMillisecond = some sys ∧
      opened sys = some {1, 2}) ∧
    ∃ sys : System (Fin 2) Unit ℕ, StepSystem.run step initial stillOpen = some sys ∧
      opened sys = some {1, 2} := by
  have hsame : (StepSystem.run step initial sameMillisecond).map opened = some (some {1, 2}) := by
    decide
  have hopen : (StepSystem.run step initial stillOpen).map opened = some (some {1, 2}) := by
    decide
  exact ⟨Option.map_eq_some_iff.mp hsame, Option.map_eq_some_iff.mp hopen⟩

end PageRestore
end TaskFlow
