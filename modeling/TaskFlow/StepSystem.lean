import Mathlib.Logic.Function.Basic
import Mathlib.Logic.Relation

/-! # Runs of a step function

A system is a partial step function on states.  `ReachableWhen G` is
reachability by steps that meet the condition `G` on the state before the step
and the action, so a result about it says what holds of every run whose steps
all meet `G`.  With the trivial condition it is plain reachability.
-/
namespace StepSystem
variable {State Action : Type}

/-- One step that meets the condition `G`. -/
def StepWhen (step : State → Action → Option State) (G : State → Action → Prop)
    (s s' : State) : Prop :=
  ∃ a, G s a ∧ step s a = some s'

/-- `s'` is reached from `s` by steps that all meet `G`. -/
def ReachableWhen (step : State → Action → Option State) (G : State → Action → Prop)
    (s s' : State) : Prop :=
  Relation.ReflTransGen (StepWhen step G) s s'

/-- `s'` is reached from `s`. -/
def Reachable (step : State → Action → Option State) (s s' : State) : Prop :=
  ReachableWhen step (fun _ _ => True) s s'

/-- Taking the actions in order, while each meets the condition. -/
def runWhen (step : State → Action → Option State) (G : State → Action → Prop)
    [∀ s a, Decidable (G s a)] : State → List Action → Option State
  | s, [] => some s
  | s, a :: as => if G s a then (step s a).bind (fun s' => runWhen step G s' as) else none

/-- Taking the actions in order. -/
def run (step : State → Action → Option State) (s : State) (as : List Action) : Option State :=
  runWhen step (fun _ _ => True) s as

section
variable {step : State → Action → Option State} {G : State → Action → Prop} {s s' : State}

/-- What holds at the start and is kept by every step that meets the condition
holds of every state reached. -/
theorem ReachableWhen.invariant {I : State → Prop} (h : ReachableWhen step G s s')
    (h0 : I s) (hstep : ∀ {s a s'}, I s → G s a → step s a = some s' → I s') :
    I s' := by
  induction h with
  | refl => exact h0
  | tail _ hs ih =>
    obtain ⟨a, hg, ha⟩ := hs
    exact hstep ih hg ha

theorem ReachableWhen.mono {G' : State → Action → Prop} (h : ReachableWhen step G s s')
    (hG : ∀ s a, G s a → G' s a) : ReachableWhen step G' s s' :=
  Relation.ReflTransGen.mono (fun _ _ ⟨a, hg, ha⟩ => ⟨a, hG _ a hg, ha⟩) s s' h

theorem reachableWhen_of_runWhen [∀ s a, Decidable (G s a)] {as : List Action}
    (h : runWhen step G s as = some s') : ReachableWhen step G s s' := by
  induction as generalizing s with
  | nil =>
    obtain rfl := Option.some.inj h
    exact .refl
  | cons a as ih =>
    by_cases hg : G s a
    · rw [runWhen, if_pos hg] at h
      obtain ⟨t, ha, ht⟩ := Option.bind_eq_some_iff.mp h
      exact Relation.ReflTransGen.head ⟨a, hg, ha⟩ (ih ht)
    · rw [runWhen, if_neg hg] at h
      cases h

theorem run_cons (a : Action) (as : List Action) :
    run step s (a :: as) = (step s a).bind fun s' => run step s' as := rfl

theorem run_append (as bs : List Action) :
    run step s (as ++ bs) = (run step s as).bind fun s' => run step s' bs := by
  induction as generalizing s with
  | nil => rfl
  | cons a as ih =>
    rw [List.cons_append, run_cons, run_cons, Option.bind_assoc]
    exact congrArg _ (funext fun _ => ih)

theorem reachable_of_run {as : List Action} (h : run step s as = some s') :
    Reachable step s s' :=
  reachableWhen_of_runWhen h

end

/-! ### Sessions

A session that goes on has its task replaced in the table of all of them. -/

section
variable {S Task : Type} [DecidableEq S] {tasks : S → Task} {s : S} {task : Task}

/-- A property of every session's task, and of the new one's. -/
theorem forall_update {P : Task → Prop} (h : ∀ t, P (tasks t)) (htask : P task) (t : S) :
    P (Function.update tasks s task t) :=
  (Function.forall_update_iff tasks fun _ => P).mpr ⟨htask, fun t _ => h t⟩ t

/-- Any two tasks, one of which may be the new one. -/
theorem forall_update_ne {R : Task → Task → Prop} (h : ∀ t u, t ≠ u → R (tasks t) (tasks u))
    (hleft : ∀ t, t ≠ s → R task (tasks t)) (hright : ∀ t, t ≠ s → R (tasks t) task)
    (t u : S) (htu : t ≠ u) :
    R (Function.update tasks s task t) (Function.update tasks s task u) := by
  by_cases hts : t = s
  · have hus : u ≠ s := fun h => htu (hts.trans h.symm)
    rw [hts, Function.update_self, Function.update_of_ne hus]
    exact hleft u hus
  · rw [Function.update_of_ne hts]
    by_cases hus : u = s
    · rw [hus, Function.update_self]
      exact hright t hts
    · rw [Function.update_of_ne hus]
      exact h t u htu

end

end StepSystem
