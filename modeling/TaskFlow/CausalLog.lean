import Mathlib.Data.List.Basic

/-! # Logs that keep the causes of their entries

Events are appended to a log, each by somebody outside, by a *reaction* to an
earlier entry, or as a *projection* of an earlier entry.  An entry keeps the
chain of its causes, and `Entry.hops` counts the reactions on it.

Nothing bounds a chain by itself.  A bound comes from a counter that the events
carry: where it counts the hops of every entry (`Counts`), refusing to react to
an entry whose counter has reached a limit keeps every chain within the limit
(`Within.appendFrom_reaction`).
-/
namespace CausalLog

/-- How an entry came of its cause. -/
inductive Via where
  | reaction
  | projection
  deriving DecidableEq, Repr

/-- An entry with the chain of its causes, nearest first. -/
structure Entry (E : Type) where
  event : E
  causes : List (Via × E)

variable {E : Type}

namespace Entry

/-- The entry of an event that no entry caused. -/
def root (e : E) : Entry E := ⟨e, []⟩

/-- The entry of an event that `cause` caused. -/
def follow (cause : Entry E) (via : Via) (e : E) : Entry E :=
  ⟨e, (via, cause.event) :: cause.causes⟩

/-- The reactions on the chain of causes. -/
def hops (r : Entry E) : Nat :=
  r.causes.countP fun link => link.1 = .reaction

@[simp] theorem root_event (e : E) : (root e).event = e := rfl

@[simp] theorem follow_event (cause : Entry E) (via : Via) (e : E) :
    (cause.follow via e).event = e := rfl

@[simp] theorem hops_root (e : E) : (root e).hops = 0 := rfl

@[simp] theorem hops_reaction (cause : Entry E) (e : E) :
    (cause.follow .reaction e).hops = cause.hops + 1 := by
  simp [hops, follow]

@[simp] theorem hops_projection (cause : Entry E) (e : E) :
    (cause.follow .projection e).hops = cause.hops := by
  simp [hops, follow]

end Entry

/-- The log with the events `cause` caused. -/
def appendFrom (log : List (Entry E)) (cause : Entry E) (via : Via) (events : List E) :
    List (Entry E) :=
  log ++ events.map (cause.follow via)

/-- The counter `c` is the number of reactions behind every entry. -/
def Counts (c : E → Nat) (log : List (Entry E)) : Prop :=
  ∀ r ∈ log, c r.event = r.hops

/-- No chain of causes has more than `limit` reactions. -/
def Within (limit : Nat) (log : List (Entry E)) : Prop :=
  ∀ r ∈ log, r.hops ≤ limit

section
variable {c : E → Nat} {limit : Nat} {log : List (Entry E)} {cause : Entry E} {events : List E}

theorem mem_appendFrom {via : Via} {r : Entry E} :
    r ∈ appendFrom log cause via events ↔ r ∈ log ∨ ∃ e ∈ events, r = cause.follow via e := by
  simp only [appendFrom, List.mem_append, List.mem_map]
  constructor
  · rintro (h | ⟨e, he, rfl⟩)
    · exact .inl h
    · exact .inr ⟨e, he, rfl⟩
  · rintro (h | ⟨e, he, rfl⟩)
    · exact .inl h
    · exact .inr ⟨e, he, rfl⟩

theorem counts_nil : Counts c [] := by
  intro r hr
  cases hr

theorem within_nil : Within (E := E) limit [] := by
  intro r hr
  cases hr

theorem Counts.append_root {e : E} (h : Counts c log) (he : c e = 0) :
    Counts c (log ++ [.root e]) := by
  intro r hr
  rcases List.mem_append.mp hr with hr | hr
  · exact h r hr
  · obtain rfl := List.mem_singleton.mp hr
    exact he

theorem Within.append_root {e : E} (h : Within limit log) : Within limit (log ++ [.root e]) := by
  intro r hr
  rcases List.mem_append.mp hr with hr | hr
  · exact h r hr
  · obtain rfl := List.mem_singleton.mp hr
    exact Nat.zero_le limit

/-- Reactions keep the count exactly when each adds one to its cause's. -/
theorem Counts.appendFrom_reaction (h : Counts c log) (hc : cause ∈ log) :
    Counts c (appendFrom log cause .reaction events) ↔
      ∀ e ∈ events, c e = c cause.event + 1 := by
  constructor
  · intro hcounts e he
    have hr := hcounts _ ((mem_appendFrom).mpr (.inr ⟨e, he, rfl⟩))
    rw [Entry.follow_event, Entry.hops_reaction, ← h cause hc] at hr
    exact hr
  · intro hev r hr
    rcases (mem_appendFrom).mp hr with hr | ⟨e, he, rfl⟩
    · exact h r hr
    · rw [Entry.follow_event, Entry.hops_reaction, ← h cause hc]
      exact hev e he

/-- Projections keep the count exactly when each has its cause's. -/
theorem Counts.appendFrom_projection (h : Counts c log) (hc : cause ∈ log) :
    Counts c (appendFrom log cause .projection events) ↔
      ∀ e ∈ events, c e = c cause.event := by
  constructor
  · intro hcounts e he
    have hr := hcounts _ ((mem_appendFrom).mpr (.inr ⟨e, he, rfl⟩))
    rw [Entry.follow_event, Entry.hops_projection, ← h cause hc] at hr
    exact hr
  · intro hev r hr
    rcases (mem_appendFrom).mp hr with hr | ⟨e, he, rfl⟩
    · exact h r hr
    · rw [Entry.follow_event, Entry.hops_projection, ← h cause hc]
      exact hev e he

/-- **A gate on the counter bounds the chains.**  Where the counter counts the
hops, reacting below the limit only keeps every chain within it. -/
theorem Within.appendFrom_reaction (h : Within limit log) (hcounts : Counts c log)
    (hc : cause ∈ log) (hgate : events ≠ [] → c cause.event < limit) :
    Within limit (appendFrom log cause .reaction events) := by
  intro r hr
  rcases (mem_appendFrom).mp hr with hr | ⟨e, he, rfl⟩
  · exact h r hr
  · rw [Entry.hops_reaction, ← hcounts cause hc]
    exact hgate (List.ne_nil_of_mem he)

theorem Within.appendFrom_projection (h : Within limit log) (hc : cause ∈ log) :
    Within limit (appendFrom log cause .projection events) := by
  intro r hr
  rcases (mem_appendFrom).mp hr with hr | ⟨e, _, rfl⟩
  · exact h r hr
  · rw [Entry.hops_projection]
    exact h cause hc

end

end CausalLog
