import Mathlib.Order.BoundedOrder.Basic
import Mathlib.Order.Lattice

/-! # A log with snapshots

Entries are appended to a log, and joined into a state.  From time to time the
state is taken as a snapshot, and entries are pruned from the log.  What has been
appended is rebuilt from a newest snapshot and from what the log has after it.

Entries and snapshots are told apart by their stamps alone, so a newest snapshot
stands for every entry stamped no later than it.  `Complete` says that it covers
them, and that an entry is pruned only from behind a snapshot.  It is kept by an
entry stamped after all snapshots, by a snapshot that covers what has been
appended or is older than another, and by pruning behind a snapshot; and it is
enough to rebuild.
-/
namespace SnapshotLog

structure Entry (K α τ : Type) where
  id : K
  data : α
  createdAt : τ
  deriving DecidableEq, Repr

structure Snapshot (α τ : Type) where
  state : α
  createdAt : τ
  deriving DecidableEq, Repr

variable {K α τ : Type} [SemilatticeSup α] [LinearOrder τ]

/-- One of the newest snapshots, or none where there is none. -/
def Newest (snapshots : List (Snapshot α τ)) : Option (Snapshot α τ) → Prop
  | none => snapshots = []
  | some snapshot =>
    snapshot ∈ snapshots ∧ ∀ other ∈ snapshots, other.createdAt ≤ snapshot.createdAt

instance [DecidableEq α] {snapshots : List (Snapshot α τ)} :
    DecidablePred (Newest snapshots) := fun snapshot =>
  match snapshot with
  | none => inferInstanceAs (Decidable (snapshots = []))
  | some snapshot => inferInstanceAs (Decidable
      (snapshot ∈ snapshots ∧ ∀ other ∈ snapshots, other.createdAt ≤ snapshot.createdAt))

/-- Every entry stamped no later than the snapshot is in it. -/
def Snapshot.Covers (snapshot : Snapshot α τ) (appended : List (Entry K α τ)) : Prop :=
  ∀ entry ∈ appended, entry.createdAt ≤ snapshot.createdAt → entry.data ≤ snapshot.state

/-- The snapshot covers what has been appended, or there is a newer one. -/
def Snapshot.Safe (snapshot : Snapshot α τ) (appended : List (Entry K α τ))
    (snapshots : List (Snapshot α τ)) : Prop :=
  snapshot.Covers appended ∨ ∃ newer ∈ snapshots, snapshot.createdAt < newer.createdAt

/-- What has been appended is in the log or behind a snapshot, and what is behind
a snapshot that is not superseded is in it. -/
structure Complete (appended log : List (Entry K α τ)) (snapshots : List (Snapshot α τ)) :
    Prop where
  safe : ∀ snapshot ∈ snapshots, snapshot.Safe appended snapshots
  kept : ∀ entry ∈ appended, entry ∈ log ∨
    ∃ snapshot ∈ snapshots, entry.createdAt ≤ snapshot.createdAt

variable {appended log tail : List (Entry K α τ)} {snapshots : List (Snapshot α τ)}
  {entry : Entry K α τ} {taken : Snapshot α τ} {base : Option (Snapshot α τ)}

theorem Snapshot.Covers.append (h : taken.Covers appended)
    (hafter : taken.createdAt < entry.createdAt) : taken.Covers (entry :: appended) := by
  intro other hother hle
  rcases List.mem_cons.mp hother with rfl | hother
  · exact absurd hle (not_le_of_gt hafter)
  · exact h other hother hle

theorem Snapshot.Safe.append (h : taken.Safe appended snapshots)
    (hafter : taken.createdAt < entry.createdAt) : taken.Safe (entry :: appended) snapshots :=
  h.imp_left fun hcovers => hcovers.append hafter

theorem Snapshot.Safe.take {snapshot : Snapshot α τ} (h : taken.Safe appended snapshots) :
    taken.Safe appended (snapshot :: snapshots) :=
  h.imp_right fun ⟨newer, hnewer, hlt⟩ => ⟨newer, List.mem_cons_of_mem snapshot hnewer, hlt⟩

theorem Complete.append (h : Complete appended log snapshots)
    (hafter : ∀ snapshot ∈ snapshots, snapshot.createdAt < entry.createdAt) :
    Complete (entry :: appended) (entry :: log) snapshots where
  safe snapshot hmem := (h.safe snapshot hmem).append (hafter snapshot hmem)
  kept other hother := by
    rcases List.mem_cons.mp hother with rfl | hother
    · exact Or.inl List.mem_cons_self
    · exact (h.kept other hother).imp_left (List.mem_cons_of_mem entry)

theorem Complete.take (h : Complete appended log snapshots)
    (hsafe : taken.Safe appended snapshots) : Complete appended log (taken :: snapshots) where
  safe other hother := by
    rcases List.mem_cons.mp hother with rfl | hother
    · exact hsafe.take
    · exact (h.safe other hother).take
  kept entry hentry := (h.kept entry hentry).imp_right fun ⟨other, hother, hle⟩ =>
    ⟨other, List.mem_cons_of_mem taken hother, hle⟩

theorem Complete.prune (h : Complete appended log snapshots)
    (hpruned : ∀ entry ∈ log, entry ∉ tail → ∃ snapshot ∈ snapshots,
      entry.createdAt ≤ snapshot.createdAt) : Complete appended tail snapshots where
  safe := h.safe
  kept entry hentry := by
    by_cases htail : entry ∈ tail
    · exact Or.inl htail
    · exact Or.inr ((h.kept entry hentry).elim (fun hlog => hpruned entry hlog htail) id)

/-! ### Rebuilding -/

variable [OrderBot α]

/-- The snapshot, joined with entries. -/
def rebuild (base : Option (Snapshot α τ)) (tail : List (Entry K α τ)) : α :=
  tail.foldl (fun state entry => state ⊔ entry.data) (base.elim ⊥ Snapshot.state)

omit [LinearOrder τ] [OrderBot α] in
theorem le_foldl (state : α) (tail : List (Entry K α τ)) :
    state ≤ tail.foldl (fun state entry => state ⊔ entry.data) state := by
  induction tail generalizing state with
  | nil => exact le_rfl
  | cons first tail ih => exact le_sup_left.trans (ih _)

omit [LinearOrder τ] in
theorem le_rebuild_of_mem (h : entry ∈ tail) : entry.data ≤ rebuild base tail := by
  rw [rebuild]
  generalize base.elim ⊥ Snapshot.state = state
  induction tail generalizing state with
  | nil => exact absurd h List.not_mem_nil
  | cons first tail ih =>
    rcases List.mem_cons.mp h with rfl | h
    · exact le_sup_right.trans (le_foldl _ tail)
    · exact ih h _

/-- The entry is in the base, or in the log after it. -/
def Has (base : Option (Snapshot α τ)) (log : List (Entry K α τ)) (entry : Entry K α τ) : Prop :=
  entry.data ≤ base.elim ⊥ Snapshot.state ∨
    (entry ∈ log ∧ ∀ snapshot ∈ base, snapshot.createdAt < entry.createdAt)

theorem Complete.has (h : Complete appended log snapshots) (hbase : Newest snapshots base)
    (hentry : entry ∈ appended) : Has base log entry := by
  cases base with
  | none =>
    obtain rfl : snapshots = [] := hbase
    rcases h.kept entry hentry with hlog | ⟨_, hmem, _⟩
    · exact Or.inr ⟨hlog, by simp⟩
    · exact absurd hmem List.not_mem_nil
  | some snapshot =>
    obtain ⟨hmem, hnewest⟩ := hbase
    rcases le_or_gt entry.createdAt snapshot.createdAt with hle | hlt
    · rcases h.safe snapshot hmem with hcovers | ⟨newer, hnewer, hlt⟩
      · exact Or.inl (hcovers entry hentry hle)
      · exact absurd (hnewest newer hnewer) (not_le_of_gt hlt)
    · rcases h.kept entry hentry with hlog | ⟨other, hother, hle⟩
      · exact Or.inr ⟨hlog, fun _ heq => Option.some.inj heq ▸ hlt⟩
      · exact absurd (hle.trans (hnewest other hother)) (not_le_of_gt hlt)

/-- The tail may have more than what comes after the base. -/
theorem Has.le_rebuild (h : Has base log entry)
    (htail : entry ∈ log → (∀ snapshot ∈ base, snapshot.createdAt < entry.createdAt) →
      entry ∈ tail) : entry.data ≤ rebuild base tail := by
  rcases h with hle | ⟨hlog, hafter⟩
  · exact hle.trans (le_foldl _ tail)
  · exact le_rebuild_of_mem (htail hlog hafter)

end SnapshotLog
