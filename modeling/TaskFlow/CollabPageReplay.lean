import TaskFlow.CollabPage

/-! # What a replay contains

A version stands for every row stamped no later than it: the rows before it are
pruned, or passed over by the replay.  So it has to contain them, and a row has to
be stamped after every version whose content is settled before it commits.  In an
orderly run that is so: a document is encoded when all rows are applied to it, and
no row begins from there to the version's stamp.
-/
namespace TaskFlow
namespace CollabPage
open SnapshotLog

variable {S Op : Type} [DecidableEq Op] [DecidableEq S] {σ σ' : State S Op} {s : S}
  {task next : Task Op} {row : StoredUpdate Op} {version : PageVersionState Op}

/-! ### The invariant -/

/-- What holds of a task, whatever the others do. -/
def TaskValid (σ : State S Op) : Task Op → Prop
  | .appending row => row.createdAt ≤ σ.now ∧ row.id < σ.nextId ∧
      (∀ other ∈ σ.appended, other.id ≠ row.id) ∧
      ∀ version ∈ σ.pageVersions, version.createdAt < row.createdAt
  | .readRows rows => ∀ row ∈ rows, row ∈ σ.appended
  | .encoded rows state => (∀ row ∈ rows, row ∈ σ.appended) ∧
      ∀ row ∈ σ.appended, row.data ≤ state
  | .writing rows version => (∀ row ∈ rows, row ∈ σ.appended ∧ row.createdAt ≤ version.createdAt) ∧
      version.Safe σ.appended σ.pageVersions
  | .written rows => ∀ row ∈ rows, row ∈ σ.appended ∧
      ∃ version ∈ σ.pageVersions, row.createdAt ≤ version.createdAt
  | .materialized version => version.Safe σ.appended σ.pageVersions
  | _ => True

/-- An append that is open is of another row than any other, and after any
version whose content is settled; none is while a document is encoded. -/
def Apart (task other : Task Op) : Prop :=
  ∀ row ∈ task.appending?, (∀ row' ∈ other.appending?, row.id ≠ row'.id) ∧
    (∀ version ∈ other.version?, version.createdAt < row.createdAt) ∧ other.isEncoded = false

/-- What holds of the document. -/
def DocumentValid (σ : State S Op) : Document Op → Prop
  | .closed => ∀ s, (σ.tasks s).atServer = false
  | .loading snapshot => (∀ s, (σ.tasks s).atServer = false) ∧
      ∀ row ∈ σ.appended, Has snapshot σ.yjsUpdates row
  | .live document => ∀ row ∈ σ.appended, row.data ≤ document ∨
      ∃ s, σ.tasks s = .appended row.data

/-- What holds in every state of an orderly run. -/
structure Valid (σ : State S Op) : Prop where
  complete : Complete σ.appended σ.yjsUpdates σ.pageVersions
  past : ∀ row ∈ σ.appended, row.createdAt ≤ σ.now ∧ row.id < σ.nextId
  unique : ∀ row ∈ σ.appended, ∀ row' ∈ σ.appended, row.id = row'.id → row = row'
  stored : ∀ row ∈ σ.yjsUpdates, row ∈ σ.appended
  document : DocumentValid σ σ.document
  task : ∀ s, TaskValid σ (σ.tasks s)
  apart : ∀ s t, s ≠ t → Apart (σ.tasks s) (σ.tasks t)

omit [DecidableEq S] in
theorem valid_initial : Valid (initial : State S Op) where
  complete := ⟨by simp [initial], by simp [initial]⟩
  past := by simp [initial]
  unique := by simp [initial]
  stored := by simp [initial]
  document := fun _ => rfl
  task := fun _ => trivial
  apart := fun _ _ _ _ h => absurd h (by simp [initial, Task.appending?])

/-! ### Tasks that go on -/

omit [DecidableEq Op] in
theorem set_of_ne {t : S} (h : t ≠ s) : (σ.set s task).tasks t = σ.tasks t :=
  Function.update_of_ne h _ _

omit [DecidableEq Op] in
theorem set_self : (σ.set s task).tasks s = task := Function.update_self ..

omit [DecidableEq S] [DecidableEq Op] in
/-- A task without an open append, a settled version or an encoded document. -/
theorem apart_of_plain {other : Task Op} (happending : next.appending? = none)
    (hversion : next.version? = none) (hencoded : next.isEncoded = false) :
    Apart next other ∧ Apart other next := by
  refine ⟨fun row hrow => ?_, fun row hrow => ?_⟩
  · rw [happending] at hrow
    cases hrow
  · rw [happending, hversion]
    exact ⟨by simp, by simp, hencoded⟩

/-- One task goes on, and the tables stay as they are. -/
theorem Valid.set (hv : Valid σ) (htask : TaskValid σ next)
    (hserver : (∃ document, σ.document = .live document) ∨ next.atServer = false)
    (hdone : ∀ update, σ.tasks s = .appended update → ∀ document, σ.document = .live document →
      update ≤ document)
    (hapart : ∀ t, t ≠ s → Apart next (σ.tasks t) ∧ Apart (σ.tasks t) next) :
    Valid (σ.set s next) where
  complete := hv.complete
  past := hv.past
  unique := hv.unique
  stored := hv.stored
  document := by
    have hdocument := hv.document
    have hnone (hold : ∀ t, (σ.tasks t).atServer = false) (hnext : next.atServer = false) (t : S) :
        ((σ.set s next).tasks t).atServer = false := by
      by_cases hts : t = s
      · rw [hts, set_self]
        exact hnext
      · rw [set_of_ne hts]
        exact hold t
    change DocumentValid (σ.set s next) σ.document
    cases hd : σ.document with
    | closed =>
      rw [hd] at hdocument hserver
      exact hnone hdocument (hserver.resolve_left (by simp))
    | loading snapshot =>
      rw [hd] at hdocument hserver
      exact ⟨hnone hdocument.1 (hserver.resolve_left (by simp)), hdocument.2⟩
    | live document =>
      rw [hd] at hdocument
      intro row hrow
      rcases hdocument row hrow with hle | ⟨t, ht⟩
      · exact Or.inl hle
      · by_cases hts : t = s
        · exact Or.inl (hdone row.data (hts ▸ ht) document hd)
        · exact Or.inr ⟨t, (set_of_ne hts).trans ht⟩
  task t := by
    change TaskValid σ ((σ.set s next).tasks t)
    by_cases hts : t = s
    · rw [hts, set_self]
      exact htask
    · rw [set_of_ne hts]
      exact hv.task t
  apart t u htu := by
    by_cases hts : t = s
    · rw [hts, set_self, set_of_ne (hts ▸ htu.symm)]
      exact (hapart u (hts ▸ htu.symm)).1
    · by_cases hus : u = s
      · rw [hus, set_self, set_of_ne hts]
        exact (hapart t hts).2
      · rw [set_of_ne hts, set_of_ne hus]
        exact hv.apart t u htu

/-- A task goes on to one that holds nothing the others have to know of. -/
theorem Valid.set_plain (hv : Valid σ) (htask : TaskValid σ next)
    (hserver : (∃ document, σ.document = .live document) ∨ next.atServer = false)
    (hdone : ∀ update, σ.tasks s = .appended update → ∀ document, σ.document = .live document →
      update ≤ document)
    (happending : next.appending? = none) (hversion : next.version? = none)
    (hencoded : next.isEncoded = false) : Valid (σ.set s next) :=
  hv.set htask hserver hdone fun _ _ => apart_of_plain happending hversion hencoded

omit [DecidableEq S] in
/-- A task of the server is under way while the document is live. -/
theorem Valid.live (hv : Valid σ) (h : (σ.tasks s).atServer = true) :
    ∃ document, σ.document = .live document := by
  have hdocument := hv.document
  cases hd : σ.document with
  | closed =>
    rw [hd] at hdocument
    exact absurd (hdocument s) (by simp [h])
  | loading snapshot =>
    rw [hd] at hdocument
    exact absurd (hdocument.1 s) (by simp [h])
  | live document => exact ⟨document, rfl⟩

/-! ### The clock, the tables and the document -/

omit [DecidableEq S] in
theorem Valid.tick (hv : Valid σ) (microseconds : Nat) :
    Valid { σ with now := σ.now + microseconds } where
  complete := hv.complete
  past row hrow := ⟨Nat.le_add_right_of_le (hv.past row hrow).1, (hv.past row hrow).2⟩
  unique := hv.unique
  stored := hv.stored
  document := hv.document
  task s := by
    have htask := hv.task s
    change TaskValid _ (σ.tasks s)
    cases hs : σ.tasks s with
    | appending row =>
      rw [hs] at htask
      exact ⟨Nat.le_add_right_of_le htask.1, htask.2⟩
    | _ => rw [hs] at htask; exact htask
  apart := hv.apart

omit [DecidableEq S] in
theorem Valid.takeId (hv : Valid σ) : Valid { σ with nextId := σ.nextId + 1 } where
  complete := hv.complete
  past row hrow := ⟨(hv.past row hrow).1, Nat.lt_succ_of_lt (hv.past row hrow).2⟩
  unique := hv.unique
  stored := hv.stored
  document := hv.document
  task s := by
    have htask := hv.task s
    change TaskValid _ (σ.tasks s)
    cases hs : σ.tasks s with
    | appending row =>
      rw [hs] at htask
      exact ⟨htask.1, Nat.lt_succ_of_lt htask.2.1, htask.2.2⟩
    | _ => rw [hs] at htask; exact htask
  apart := hv.apart

omit [DecidableEq S] in
/-- The row of an append commits. -/
theorem Valid.append (hv : Valid σ) (hs : σ.tasks s = .appended row.data)
    (hrow : TaskValid σ (.appending row)) (hapart : ∀ t, Apart (.appending row) (σ.tasks t)) :
    Valid { σ with yjsUpdates := row :: σ.yjsUpdates, appended := row :: σ.appended } where
  complete := hv.complete.append hrow.2.2.2
  past other hother := by
    rcases List.mem_cons.mp hother with rfl | hother
    · exact ⟨hrow.1, hrow.2.1⟩
    · exact hv.past other hother
  unique other hother other' hother' heq := by
    rcases List.mem_cons.mp hother with rfl | hold
    · rcases List.mem_cons.mp hother' with rfl | hold'
      · rfl
      · exact absurd heq.symm (hrow.2.2.1 other' hold')
    · rcases List.mem_cons.mp hother' with rfl | hold'
      · exact absurd heq (hrow.2.2.1 other hold)
      · exact hv.unique other hold other' hold' heq
  stored other hother := by
    rcases List.mem_cons.mp hother with rfl | hother
    · exact List.mem_cons_self
    · exact List.mem_cons_of_mem row (hv.stored other hother)
  document := by
    obtain ⟨document, hd⟩ := hv.live (by rw [hs]; rfl : (σ.tasks s).atServer = true)
    have hdocument := hv.document
    change DocumentValid _ σ.document
    rw [hd] at hdocument ⊢
    intro other hother
    rcases List.mem_cons.mp hother with rfl | hother
    · exact Or.inr ⟨s, hs⟩
    · exact hdocument other hother
  task t := by
    have htask := hv.task t
    obtain ⟨hids, hversions, hencoded⟩ := hapart t row rfl
    have hgrow {other : StoredUpdate Op} (h : other ∈ σ.appended) : other ∈ row :: σ.appended :=
      List.mem_cons_of_mem row h
    change TaskValid _ (σ.tasks t)
    cases ht : σ.tasks t with
    | appending row' =>
      rw [ht] at htask hids
      refine ⟨htask.1, htask.2.1, fun other hother => ?_, htask.2.2.2⟩
      rcases List.mem_cons.mp hother with rfl | hother
      · exact hids row' rfl
      · exact htask.2.2.1 other hother
    | encoded rows state =>
      rw [ht] at hencoded
      cases hencoded
    | writing rows version =>
      rw [ht] at htask hversions
      exact ⟨fun other hother => (htask.1 other hother).imp_left hgrow,
        htask.2.append (hversions version rfl)⟩
    | materialized version =>
      rw [ht] at htask hversions
      exact Snapshot.Safe.append htask (hversions version rfl)
    | readRows rows =>
      rw [ht] at htask
      exact fun other hother => hgrow (htask other hother)
    | written rows =>
      rw [ht] at htask
      exact fun other hother => (htask other hother).imp_left hgrow
    | idle | appended | compacting | saving | readSnapshot => trivial
  apart := hv.apart

omit [DecidableEq S] in
/-- A version commits that covers what has been appended, or is older than another. -/
theorem Valid.takeVersion (hv : Valid σ) (hsafe : version.Safe σ.appended σ.pageVersions)
    (hopen : ∀ t, ∀ row ∈ (σ.tasks t).appending?, version.createdAt < row.createdAt) :
    Valid { σ with pageVersions := version :: σ.pageVersions } where
  complete := hv.complete.take hsafe
  past := hv.past
  unique := hv.unique
  stored := hv.stored
  document := hv.document
  task t := by
    have htask := hv.task t
    have hopen := hopen t
    change TaskValid _ (σ.tasks t)
    cases ht : σ.tasks t with
    | appending row =>
      rw [ht] at htask hopen
      refine ⟨htask.1, htask.2.1, htask.2.2.1, fun other hother => ?_⟩
      rcases List.mem_cons.mp hother with rfl | hother
      · exact hopen row rfl
      · exact htask.2.2.2 other hother
    | written rows =>
      rw [ht] at htask
      exact fun row hrow => (htask row hrow).imp_right fun ⟨other, hother, hle⟩ =>
        ⟨other, List.mem_cons_of_mem version hother, hle⟩
    | writing rows other =>
      rw [ht] at htask
      exact ⟨htask.1, htask.2.take⟩
    | materialized other =>
      rw [ht] at htask
      exact Snapshot.Safe.take htask
    | _ => rw [ht] at htask; exact htask
  apart := hv.apart

omit [DecidableEq S] in
/-- Rows are pruned that a version has been written for. -/
theorem Valid.prune {rows : List (StoredUpdate Op)} (hv : Valid σ)
    (hs : σ.tasks s = .written rows) :
    Valid { σ with yjsUpdates := pruneUpdates σ.yjsUpdates (rows.map Entry.id) } where
  complete := hv.complete.prune fun row hrow hpruned => by
    have hid : row.id ∈ rows.map Entry.id := by
      by_contra hid
      exact hpruned (List.mem_filter.mpr ⟨hrow, decide_eq_true hid⟩)
    obtain ⟨row', hrow', heq⟩ := List.mem_map.mp hid
    have hwritten : TaskValid σ (.written rows) := hs ▸ hv.task s
    obtain ⟨happended, hversion⟩ := hwritten row' hrow'
    rwa [hv.unique row' happended row (hv.stored row hrow) heq] at hversion
  past := hv.past
  unique := hv.unique
  stored row hrow := hv.stored row (List.mem_of_mem_filter hrow)
  document := by
    obtain ⟨document, hd⟩ := hv.live (by rw [hs]; rfl : (σ.tasks s).atServer = true)
    have hdocument := hv.document
    change DocumentValid _ σ.document
    rw [hd] at hdocument ⊢
    exact hdocument
  task := hv.task
  apart := hv.apart

omit [DecidableEq S] in
theorem Valid.applyUpdate {document : Finset Op} (hv : Valid σ) (hd : σ.document = .live document)
    (update : Finset Op) :
    Valid { σ with document := .live (CollabPage.applyUpdate document update) } where
  complete := hv.complete
  past := hv.past
  unique := hv.unique
  stored := hv.stored
  document := by
    have hdocument := hv.document
    rw [hd] at hdocument
    exact fun row hrow => (hdocument row hrow).imp_left fun h =>
      h.trans Finset.subset_union_left
  task := hv.task
  apart := hv.apart

/-! ### Steps -/

omit [DecidableEq S] [DecidableEq Op] in
theorem toDate_le (createdAt : Nat) : toDate createdAt ≤ createdAt := Nat.div_mul_le_self _ _

omit [DecidableEq Op] in
theorem mem_readUpdatesSince {rows : List (StoredUpdate Op)} {after : Option Nat}
    (hrow : row ∈ rows) (hafter : ∀ instant ∈ after, instant < row.createdAt) :
    row ∈ readUpdatesSince rows after := by
  refine List.mem_filter.mpr ⟨hrow, ?_⟩
  cases after with
  | none => rfl
  | some instant => exact decide_eq_true (hafter instant rfl)

omit [DecidableEq Op] in
theorem mem_walRowsSinceLatestSnapshot {rows : List (StoredUpdate Op)}
    {versions : List (PageVersionState Op)} (hrow : row ∈ rows)
    (hafter : ∀ version ∈ versions, version.createdAt < row.createdAt) :
    row ∈ walRowsSinceLatestSnapshot rows versions :=
  List.mem_filter.mpr ⟨hrow, List.all_eq_true.mpr fun version hversion =>
    decide_eq_true (hafter version hversion)⟩

/-- What is in the snapshot or in the log after it is in the replay; the cutoff is
earlier than the snapshot, if anything. -/
theorem le_replayPage_of_has {snapshot : Option (PageVersionState Op)}
    {rows : List (StoredUpdate Op)} (h : Has snapshot rows row) :
    row.data ≤ replayPage snapshot rows :=
  h.le_rebuild fun hrow hafter => mem_readUpdatesSince hrow fun instant hinstant => by
    obtain ⟨version, hversion, rfl⟩ := Option.mem_map.mp hinstant
    exact (toDate_le _).trans_lt (hafter version hversion)

omit [DecidableEq S] in
/-- A save that reads its rows while its snapshot is the latest has every update. -/
theorem Valid.le_rebuilt {snapshot : Option (PageVersionState Op)} (hv : Valid σ)
    (hnewest : Newest σ.pageVersions snapshot) (hrow : row ∈ σ.appended) :
    row.data ≤ rebuilt snapshot (walRowsSinceLatestSnapshot σ.yjsUpdates σ.pageVersions) := by
  refine (hv.complete.has hnewest hrow).le_rebuild fun hlog hafter =>
    mem_walRowsSinceLatestSnapshot hlog fun version hversion => ?_
  cases snapshot with
  | none =>
    rw [show σ.pageVersions = [] from hnewest] at hversion
    exact absurd hversion List.not_mem_nil
  | some latest => exact (hnewest.2 version hversion).trans_lt (hafter latest rfl)

omit [DecidableEq S] in
/-- While no message is handled, the live document has every update. -/
theorem Valid.le_document {document : Finset Op} (hv : Valid σ)
    (hd : σ.document = .live document) (happlied : ∀ s, (σ.tasks s).isUnapplied = false)
    (hrow : row ∈ σ.appended) : row.data ≤ document := by
  have hdocument := hv.document
  rw [hd] at hdocument
  rcases hdocument row hrow with hle | ⟨s, hs⟩
  · exact hle
  · exact absurd (happlied s) (by rw [hs]; simp [Task.isUnapplied])

omit [DecidableEq S] [DecidableEq Op] in
theorem atServer_crashed : task.crashed.atServer = false := by
  unfold Task.crashed
  split
  · rfl
  · simpa using ‹¬task.atServer = true›

omit [DecidableEq S] [DecidableEq Op] in
theorem appending?_of_not_atServer (h : task.atServer = false) : task.appending? = none := by
  cases task with
  | appending row => cases h
  | _ => rfl

omit [DecidableEq S] in
theorem Valid.crash (hv : Valid σ) :
    Valid { σ with document := .closed, tasks := fun s => (σ.tasks s).crashed } where
  complete := hv.complete
  past := hv.past
  unique := hv.unique
  stored := hv.stored
  document := fun _ => atServer_crashed
  task s := by
    have htask := hv.task s
    change TaskValid _ (σ.tasks s).crashed
    cases hs : σ.tasks s with
    | saving | readSnapshot => trivial
    | materialized version => rw [hs] at htask; exact htask
    | _ => trivial
  apart s t _ row hrow := by
    rw [show ({ σ with document := .closed, tasks := fun s => (σ.tasks s).crashed } :
      State S Op).tasks s = (σ.tasks s).crashed from rfl,
      appending?_of_not_atServer atServer_crashed] at hrow
    cases hrow

omit [DecidableEq S] [DecidableEq Op] in
theorem eq_of_appending (h : row ∈ task.appending?) : task = .appending row := by
  cases task with
  | appending row' =>
    obtain rfl := Option.some.inj h
    rfl
  | _ => cases h

omit [DecidableEq S] in
theorem Valid.task_of_appending (hv : Valid σ) (h : row ∈ (σ.tasks s).appending?) :
    TaskValid σ (.appending row) := eq_of_appending h ▸ hv.task s

omit [DecidableEq S] in
theorem Valid.after_versions (hv : Valid σ) (h : row ∈ (σ.tasks s).appending?) :
    ∀ version ∈ σ.pageVersions, version.createdAt < row.createdAt :=
  (hv.task_of_appending h).2.2.2

/-- An append begins after every version, and no document is encoded. -/
theorem Valid.beginAppend {document update : Finset Op} (hv : Valid σ)
    (hd : σ.document = .live document) (hs : σ.tasks s = .idle)
    (hversions : ∀ version ∈ σ.pageVersions, version.createdAt < σ.now)
    (hothers : ∀ t, (σ.tasks t).isEncoded = false ∧
      ∀ version ∈ (σ.tasks t).version?, version.createdAt < σ.now) :
    Valid ({ σ with nextId := σ.nextId + 1 }.set s (.appending ⟨σ.nextId, update, σ.now⟩)) := by
  have hfresh (t : S) (row : StoredUpdate Op) (hrow : row ∈ (σ.tasks t).appending?) :
      row.id < σ.nextId := (hv.task_of_appending hrow).2.1
  refine hv.takeId.set ?_ (Or.inl ⟨document, hd⟩) ?_ fun t _ => ⟨?_, ?_⟩
  · refine ⟨le_rfl, Nat.lt_succ_self _, fun other hother => ?_, hversions⟩
    exact (hv.past other hother).2.ne
  · intro update' hupdate
    cases hs.symm.trans hupdate
  · intro row hrow
    obtain rfl := Option.some.inj hrow
    exact ⟨fun row' hrow' => (hfresh t row' hrow').ne', (hothers t).2, (hothers t).1⟩
  · intro row hrow
    refine ⟨fun row' hrow' => ?_, fun version hversion => absurd hversion (by simp [Task.version?]),
      rfl⟩
    obtain rfl := Option.some.inj hrow'
    exact (hfresh t row hrow).ne

theorem Valid.commitAppend (hv : Valid σ) (hs : σ.tasks s = .appending row) :
    Valid ({ σ with yjsUpdates := row :: σ.yjsUpdates, appended := row :: σ.appended }.set s
      (.appended row.data)) := by
  have htask : TaskValid σ (.appending row) := hs ▸ hv.task s
  have hset : Valid (σ.set s (.appended row.data)) :=
    hv.set_plain trivial (Or.inl (hv.live (by rw [hs]; rfl : (σ.tasks s).atServer = true)))
      (fun update hupdate => by cases hs.symm.trans hupdate) rfl rfl rfl
  apply hset.append (s := s) set_self htask
  intro t
  by_cases hts : t = s
  · rw [hts, set_self]
    intro _ _
    exact ⟨by simp [Task.appending?], by simp [Task.version?], rfl⟩
  · rw [set_of_ne hts, ← hs]
    exact hv.apart s t (Ne.symm hts)

theorem Valid.encode {document : Finset Op} {rows : List (StoredUpdate Op)} (hv : Valid σ)
    (hd : σ.document = .live document) (hs : σ.tasks s = .readRows rows)
    (happlied : ∀ t, (σ.tasks t).isUnapplied = false) (stripped : Finset Op) :
    Valid ({ σ with document := .live (CollabPage.applyUpdate document stripped) }.set s
      (.encoded rows (CollabPage.applyUpdate document stripped))) := by
  have htask : TaskValid σ (.readRows rows) := hs ▸ hv.task s
  refine (hv.applyUpdate hd stripped).set ?_ (Or.inl ⟨_, rfl⟩) ?_ fun t _ => ⟨?_, ?_⟩
  · exact ⟨htask, fun row hrow => (hv.le_document hd happlied hrow).trans
      Finset.subset_union_left⟩
  · intro update hupdate
    cases hs.symm.trans hupdate
  · intro row hrow
    cases hrow
  · intro row hrow
    exact absurd (happlied t) (by rw [eq_of_appending hrow]; simp [Task.isUnapplied])

theorem Valid.writeVersion {state : Finset Op} {rows : List (StoredUpdate Op)} (hv : Valid σ)
    (hs : σ.tasks s = .encoded rows state) :
    Valid (σ.set s (.writing rows ⟨state, σ.now⟩)) := by
  have htask : TaskValid σ (.encoded rows state) := hs ▸ hv.task s
  refine hv.set ⟨fun row hrow => ?_, Or.inl fun row hrow _ => htask.2 row hrow⟩
    (Or.inl (hv.live (by rw [hs]; rfl : (σ.tasks s).atServer = true))) ?_ fun t hts => ⟨?_, ?_⟩
  · exact ⟨htask.1 row hrow, (hv.past row (htask.1 row hrow)).1⟩
  · intro update hupdate
    cases hs.symm.trans hupdate
  · intro row hrow
    cases hrow
  · intro row hrow
    have hencoded := (hv.apart t s hts row hrow).2.2
    rw [hs] at hencoded
    cases hencoded

/-- The version that a task has settled commits. -/
theorem Valid.commitVersion (hv : Valid σ) (hs : (σ.tasks s).version? = some version) :
    Valid { σ with pageVersions := version :: σ.pageVersions } := by
  refine hv.takeVersion ?_ fun t row hrow => ?_
  · have htask := hv.task s
    cases ht : σ.tasks s with
    | writing rows version' =>
      rw [ht] at htask hs
      obtain rfl := Option.some.inj hs
      exact htask.2
    | materialized version' =>
      rw [ht] at htask hs
      obtain rfl := Option.some.inj hs
      exact htask
    | _ => rw [ht] at hs; cases hs
  · by_cases hts : t = s
    · subst hts
      rw [eq_of_appending hrow] at hs
      cases hs
    · exact (hv.apart t s hts row hrow).2.1 version hs

theorem Valid.materialize {createdAt : Nat} {snapshot : Option (PageVersionState Op)}
    (hv : Valid σ) (hs : σ.tasks s = .readSnapshot createdAt snapshot)
    (hlatest : (Newest σ.pageVersions snapshot ∧
        ∀ t, ∀ row ∈ (σ.tasks t).appending?, createdAt < row.createdAt) ∨
      ∃ version ∈ σ.pageVersions, createdAt < version.createdAt) :
    Valid (σ.set s (.materialized
      ⟨rebuilt snapshot (walRowsSinceLatestSnapshot σ.yjsUpdates σ.pageVersions), createdAt⟩)) := by
  have hopen (t : S) (row : StoredUpdate Op) (hrow : row ∈ (σ.tasks t).appending?) :
      createdAt < row.createdAt := by
    rcases hlatest with ⟨_, hopen⟩ | ⟨version, hversion, hlt⟩
    · exact hopen t row hrow
    · exact hlt.trans (hv.after_versions hrow version hversion)
  refine hv.set ?_ (Or.inr rfl) ?_ fun t _ => ⟨?_, ?_⟩
  · exact hlatest.imp_left fun ⟨hnewest, _⟩ row hrow _ => hv.le_rebuilt hnewest hrow
  · intro update hupdate
    cases hs.symm.trans hupdate
  · intro row hrow
    cases hrow
  · intro row hrow
    refine ⟨fun row' hrow' => absurd hrow' (by simp [Task.appending?]),
      fun version hversion => ?_, rfl⟩
    obtain rfl := Option.some.inj hversion
    exact hopen t row hrow

/-- A task of the server goes on without the tables. -/
theorem Valid.set_server (hv : Valid σ) (hs : (σ.tasks s).atServer = true)
    (hdone : (σ.tasks s).isUnapplied = false ∨ ∃ row, σ.tasks s = .appending row)
    (htask : TaskValid σ next) (happending : next.appending? = none)
    (hversion : next.version? = none) (hencoded : next.isEncoded = false) :
    Valid (σ.set s next) := by
  refine hv.set_plain htask (Or.inl (hv.live hs)) (fun update hupdate => ?_) happending hversion
    hencoded
  rw [hupdate] at hdone
  rcases hdone with hdone | ⟨row, hrow⟩
  · cases hdone
  · cases hrow

theorem valid_runTask {input : Input Op} (hv : Valid σ) (ho : Orderly σ (.run s input))
    (h : runTask σ s input = some σ') : Valid σ' := by
  unfold runTask at h
  split at h
  case h_1 update document hs hd =>
    obtain rfl := Option.some.inj h
    exact hv.beginAppend hd hs ho.1 ho.2
  case h_2 row hs =>
    obtain rfl := Option.some.inj h
    exact hv.commitAppend hs
  case h_3 update document hs hd =>
    obtain rfl := Option.some.inj h
    refine (hv.applyUpdate hd update).set_plain trivial (Or.inl ⟨_, rfl⟩) ?_ rfl rfl rfl
    intro update' hupdate document' hdocument
    obtain rfl := Task.appended.inj (hs.symm.trans hupdate)
    obtain rfl := Document.live.inj hdocument
    exact Finset.subset_union_right
  case h_4 snapshot document hs hd =>
    split at h
    · obtain rfl := Option.some.inj h
      refine hv.set_plain trivial (Or.inl ⟨document, hd⟩) (fun update hupdate => ?_) rfl rfl rfl
      cases hs.symm.trans hupdate
    · cases h
  case h_5 snapshot hs =>
    have hserver : (σ.tasks s).atServer = true := by rw [hs]; rfl
    dsimp only at h
    split at h <;> obtain rfl := Option.some.inj h
    · exact hv.set_server hserver (Or.inl (by rw [hs]; rfl)) trivial rfl rfl rfl
    · refine hv.set_server hserver (Or.inl (by rw [hs]; rfl)) (fun row hrow => ?_) rfl rfl rfl
      exact hv.stored row (List.mem_of_mem_filter hrow)
  case h_6 rows stripped document hs hd =>
    obtain rfl := Option.some.inj h
    exact hv.encode hd hs ho stripped
  case h_7 rows state hs =>
    obtain rfl := Option.some.inj h
    exact hv.writeVersion hs
  case h_8 rows version hs =>
    obtain rfl := Option.some.inj h
    have htask : TaskValid σ (.writing rows version) := hs ▸ hv.task s
    refine (hv.commitVersion (s := s) (by rw [hs]; rfl)).set_server (s := s) ?_ ?_ ?_ rfl rfl rfl
    · rw [hs]; rfl
    · exact Or.inl (by rw [hs]; rfl)
    · exact fun row hrow => ⟨(htask.1 row hrow).1, version, List.mem_cons_self, (htask.1 row hrow).2⟩
  case h_9 rows hs =>
    obtain rfl := Option.some.inj h
    refine (hv.prune hs).set_server (s := s) ?_ ?_ trivial rfl rfl rfl
    · rw [hs]; rfl
    · exact Or.inl (by rw [hs]; rfl)
  case h_10 hs =>
    obtain rfl := Option.some.inj h
    refine hv.set_plain trivial (Or.inr rfl) (fun update hupdate => ?_) rfl rfl rfl
    cases hs.symm.trans hupdate
  case h_11 createdAt snapshot hs =>
    split at h
    · obtain rfl := Option.some.inj h
      refine hv.set_plain trivial (Or.inr rfl) (fun update hupdate => ?_) rfl rfl rfl
      cases hs.symm.trans hupdate
    · cases h
  case h_12 createdAt snapshot hs =>
    obtain rfl := Option.some.inj h
    rw [Orderly, hs] at ho
    exact hv.materialize hs ho
  case h_13 version hs =>
    obtain rfl := Option.some.inj h
    refine (hv.commitVersion (s := s) (by rw [hs]; rfl)).set_plain trivial (Or.inr rfl)
      (fun update hupdate => ?_) rfl rfl rfl
    cases hs.symm.trans hupdate
  case h_16 hidle happended =>
    obtain rfl := Option.some.inj h
    refine hv.set_plain trivial (Or.inr rfl) (fun update hupdate => ?_) rfl rfl rfl
    exact absurd hupdate (happended update)
  all_goals cases h

/-- Every step of an orderly run keeps what holds of its states. -/
theorem valid_step {action : Action S Op} (hv : Valid σ) (ho : Orderly σ action)
    (h : step σ action = some σ') : Valid σ' := by
  cases action with
  | tick microseconds =>
    obtain rfl := Option.some.inj h
    exact hv.tick microseconds
  | latestVersion snapshot =>
    rw [step] at h
    split at h
    · split at h
      · rename_i hd hnewest
        obtain rfl := Option.some.inj h
        have hdocument := hv.document
        rw [hd] at hdocument
        exact { hv with document := ⟨hdocument, fun row hrow => hv.complete.has hnewest hrow⟩ }
      · cases h
    · cases h
  | replayPage =>
    rw [step] at h
    split at h
    · rename_i snapshot hd
      obtain rfl := Option.some.inj h
      have hdocument := hv.document
      rw [hd] at hdocument
      have hle (row : StoredUpdate Op) (hrow : row ∈ σ.appended) :
          row.data ≤ CollabPage.replayPage snapshot σ.yjsUpdates :=
        le_replayPage_of_has (hdocument.2 row hrow)
      exact { hv with document := fun row hrow => Or.inl (hle row hrow) }
    · cases h
  | crash =>
    obtain rfl := Option.some.inj h
    exact hv.crash
  | run s input => exact valid_runTask hv ho h

/-- **No update is lost in an orderly run**: whatever has committed to the log is
in the replay from a latest version, and so in the document that is opened. -/
theorem replay_contains_appended {S Op : Type} [DecidableEq S] [DecidableEq Op]
    {σ : State S Op} (h : StepSystem.ReachableWhen step Orderly initial σ) :
    (∀ snapshot, Newest σ.pageVersions snapshot → ∀ row ∈ σ.appended,
      row.data ⊆ replayPage snapshot σ.yjsUpdates) ∧
    ∀ σ', step σ .replayPage = some σ' →
      ∃ document, σ'.document = .live document ∧ ∀ row ∈ σ.appended, row.data ⊆ document := by
  have hv : Valid σ := h.invariant valid_initial valid_step
  refine ⟨fun snapshot hnewest row hrow => ?_, fun σ' hstep => ?_⟩
  · exact le_replayPage_of_has (hv.complete.has hnewest hrow)
  · have hdocument := hv.document
    rw [step] at hstep
    split at hstep
    · rename_i snapshot hd
      obtain rfl := Option.some.inj hstep
      rw [hd] at hdocument
      exact ⟨_, rfl, fun row hrow => le_replayPage_of_has (hdocument.2 row hrow)⟩
    · cases hstep

/-! ### Runs of one page -/

def openPage (snapshot : Option (PageVersionState ℕ)) : List (Action (Fin 2) ℕ) :=
  [.latestVersion snapshot, .replayPage]

def handleUpdate (s : Fin 2) (op : ℕ) : List (Action (Fin 2) ℕ) :=
  [.run s (.appendUpdate {op}), .run s .commit, .run s .applyUpdate]

/-- A compaction up to the commit of its version. -/
def compact (s : Fin 2) (snapshot : Option (PageVersionState ℕ)) : List (Action (Fin 2) ℕ) :=
  [.run s (.compactPage snapshot), .run s .readUpdatesSince, .run s (.encodeStateAsUpdate ∅),
    .run s .writeVersion]

/-- A compaction and a save, each with an update after it; the server has died and
reads the saved version. -/
def savedAndReopened : List (Action (Fin 2) ℕ) :=
  openPage none ++ handleUpdate 0 1 ++ [.tick 1] ++ compact 1 none ++
    [.run 1 .commit, .run 1 .pruneUpdates, .tick 1] ++ handleUpdate 0 2 ++
    [.tick 1, .run 1 .savePageVersion, .run 1 (.latestSnapshot (some ⟨{1}, 1⟩)),
      .run 1 .walRowsSinceLatestSnapshot, .run 1 .commit, .tick 1, .run 0 (.appendUpdate {3}),
      .run 0 .commit, .crash, .latestVersion (some ⟨{1, 2}, 3⟩)]

/-- What has committed is opened again, applied or not. -/
theorem replay_contains_appended_reopened :
    ∃ σ σ' : State (Fin 2) ℕ, σ.appended.map Entry.data = [{3}, {2}, {1}] ∧
      (∀ row ∈ σ.appended, row.data ⊆ replayPage (some ⟨{1, 2}, 3⟩) σ.yjsUpdates) ∧
      step σ .replayPage = some σ' ∧
      ∃ document, σ'.document = .live document ∧ ∀ row ∈ σ.appended, row.data ⊆ document := by
  have hrun : (StepSystem.runWhen step Orderly initial savedAndReopened).map (fun σ =>
      (σ.appended.map Entry.data, decide (Newest σ.pageVersions (some ⟨{1, 2}, 3⟩)),
        (step σ .replayPage).isSome)) = some ([{3}, {2}, {1}], true, true) := by
    decide
  obtain ⟨σ, hσ, hmap⟩ := Option.map_eq_some_iff.mp hrun
  obtain ⟨happended, hpair⟩ := Prod.mk.inj hmap
  obtain ⟨hnewest, hsome⟩ := Prod.mk.inj hpair
  obtain ⟨σ', hstep⟩ := Option.isSome_iff_exists.mp hsome
  obtain ⟨hreplay, hopened⟩ :=
    replay_contains_appended (StepSystem.reachableWhen_of_runWhen hσ)
  exact ⟨σ, σ', happended, hreplay _ (of_decide_eq_true hnewest), hstep, hopened σ' hstep⟩

/-- The row has been read by the compaction, and is pruned; the document was
encoded before the update was applied. -/
def pruned : List (Action (Fin 2) ℕ) :=
  openPage none ++ [.run 0 (.appendUpdate {1}), .run 0 .commit] ++ compact 1 none ++
    [.run 0 .applyUpdate, .run 1 .commit, .run 1 .pruneUpdates, .crash] ++ openPage (some ⟨∅, 0⟩)

/-- The row is stamped before the version and commits after it. -/
def passedOver : List (Action (Fin 2) ℕ) :=
  openPage none ++ handleUpdate 0 1 ++ [.run 0 (.appendUpdate {2}), .tick 1000] ++
    compact 1 none ++ [.run 1 .commit, .run 1 .pruneUpdates, .run 0 .commit, .run 0 .applyUpdate,
      .crash] ++ openPage (some ⟨{1}, 1000⟩)

/-- The save has read that there is no version, and then the rows after the
version that a compaction has committed since. -/
def staleSave : List (Action (Fin 2) ℕ) :=
  openPage none ++ handleUpdate 0 1 ++ [.tick 1] ++ compact 0 none ++
    [.tick 1, .run 1 .savePageVersion, .run 1 (.latestSnapshot none), .run 0 .commit,
      .run 0 .pruneUpdates, .run 1 .walRowsSinceLatestSnapshot, .run 1 .commit, .crash] ++
    openPage (some ⟨∅, 2⟩)

/-- The updates that are not in the document that is open. -/
def missing (σ : State (Fin 2) ℕ) : Option (List (Finset ℕ)) :=
  match σ.document with
  | .live document => some ((σ.appended.map Entry.data).filter fun update => ¬update ⊆ document)
  | _ => none

/-- In each of these runs an update that has committed is missing when the page is
opened again. -/
theorem replay_without_appended :
    (∃ σ : State (Fin 2) ℕ, StepSystem.run step initial pruned = some σ ∧
      missing σ = some [{1}]) ∧
    (∃ σ : State (Fin 2) ℕ, StepSystem.run step initial passedOver = some σ ∧
      missing σ = some [{2}]) ∧
    ∃ σ : State (Fin 2) ℕ, StepSystem.run step initial staleSave = some σ ∧
      missing σ = some [{1}] := by
  have hpruned : (StepSystem.run step initial pruned).map missing = some (some [{1}]) := by
    decide
  have hpassedOver : (StepSystem.run step initial passedOver).map missing = some (some [{2}]) := by
    decide
  have hstaleSave : (StepSystem.run step initial staleSave).map missing = some (some [{1}]) := by
    decide
  exact ⟨Option.map_eq_some_iff.mp hpruned, Option.map_eq_some_iff.mp hpassedOver,
    Option.map_eq_some_iff.mp hstaleSave⟩

end CollabPage
end TaskFlow
