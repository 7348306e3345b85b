import TaskFlow.ScriptLogic

/-! # Sessions that rely on the rows they have locked

Most calls need no more of each other than that a row one of them has locked stays as it is.  Such
a discipline is given by an invariant of the rows and the notes, what a commit does to the rows,
and the condition on the run.

What every commit does to the rows, if it adds up, is what a whole run does (`Valid.related`).
-/
namespace ReadCommitted
namespace Script
variable {S K V A I N C : Type}

/-- Each session leaves the rows alone that another has locked. -/
def Discipline.ofRows (S : Type) (inv : (K → V) → List N → Prop)
    (guarantee : (K → V) → (K → V) → Prop) (condition : Condition K V A I N) :
    Discipline S K V A I N where
  inv σ := inv σ.rows (σ.log.map Prod.snd)
  guarantee _ _ _ σ σ' := guarantee σ.rows σ'.rows
  rely _ own σ σ' := ∀ k, own k → σ'.rows k = σ.rows k
  condition := condition

variable [DecidableEq K] {inv : (K → V) → List N → Prop} {guarantee : (K → V) → (K → V) → Prop}
  {condition : Condition K V A I N}

theorem Discipline.ofRows_lawful : (Discipline.ofRows S inv guarantee condition).Lawful where
  refl := fun _ _ _ _ _ => rfl
  trans := fun h h' k hown => (h' k hown).trans (h k hown)
  rely := fun _ _ hown _ _ _ => hown

/-- The notes after a commit. -/
theorem Shared.commit_notes (σ : Shared S K V N) (s : S) (t : Transaction K V) (notes : List N) :
    (σ.commit s t notes).log.map Prod.snd = notes ++ σ.log.map Prod.snd := by
  simp [Shared.commit, Function.comp_def]

variable [DecidableEq S] {calls : C → Script K V A I N} {sys sys' : System S K V A I N}

/-- **What every commit does to the rows, a run does**, where it does so by adding up. -/
theorem Valid.related {D : Discipline S K V A I N} (hD : D.Lawful)
    (hcalls : ∀ c s σ, D.inv σ → Safe D s (calls c) .none σ) {R : (K → V) → (K → V) → Prop}
    (hrefl : ∀ rows, R rows rows)
    (htrans : ∀ {rows rows' rows''}, R rows rows' → R rows' rows'' → R rows rows'')
    (hguarantee : ∀ {s notes own σ σ'}, D.guarantee s notes own σ σ' → R σ.rows σ'.rows)
    (hv : Valid D sys)
    (hrun : StepSystem.ReachableWhen (step calls) D.condition.Meets sys sys') :
    R sys.world.committed sys'.world.committed := by
  have hboth : Valid D sys' ∧ R sys.world.committed sys'.world.committed := by
    refine hrun.invariant (I := fun sys' => Valid D sys' ∧
      R sys.world.committed sys'.world.committed) ⟨hv, hrefl _⟩ ?_
    rintro sys₁ a sys₂ ⟨hv₁, hR⟩ hmeets hstep
    refine ⟨valid_step hD hcalls hv₁ hmeets hstep, ?_⟩
    rcases hv₁.committed_or_guarantee hD hmeets hstep with hsame | ⟨notes, hcommit⟩
    · rw [hsame]
      exact hR
    · exact htrans hR (hguarantee hcommit)
  exact hboth.2

end Script

namespace Procedure
open Script
variable {S K V A I N α : Type} [DecidableEq K] {s : S} {inv : (K → V) → List N → Prop}
  {guarantee : (K → V) → (K → V) → Prop} {condition : Condition K V A I N}
  {P : Assertion S K V N}

omit [DecidableEq K] in
theorem replaced_stable_ofRows (changes : List (K × V × V)) :
    Stable (Discipline.ofRows S inv guarantee condition) s (Replaced changes) :=
  replaced_stable fun _ _ _ hrely => hrely

/-- A query. -/
theorem triple_query {label : A} {query : (K → V) → α}
    (hP : Stable (Discipline.ofRows S inv guarantee condition) s P) :
    Triple (Discipline.ofRows S inv guarantee condition) s P (select label query) fun _ => P :=
  triple_select hP fun _ _ h _ _ _ _ => h

end Procedure
end ReadCommitted
