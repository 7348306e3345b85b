import TaskFlow.RichText
import TaskFlow.ScriptLogic

/-! # Updating a card

`updateCard` loads the card, checks what the actor may do, and writes the new
fields under the condition that the stored version is the one the client sent.
The version it writes is one more than the version it loaded.  Three versions
meet there: the client's, the loaded one, and the stored one when the UPDATE
runs.
-/
namespace TaskFlow
namespace CardUpdate
open ReadCommitted ReadCommitted.Script ReadCommitted.Procedure RichText

variable {CardId : Type}

inductive Priority where
  | urgent
  | high
  | normal
  | low
  deriving DecidableEq, Repr

/-- What an update reads or writes of a row of `work.cards`.  Instants are in
milliseconds. -/
structure Card where
  projectId : String
  boardId : String
  listId : String
  title : String
  description : Option RichTextNode
  descriptionText : Option RichText.Text
  dueDate : Option Int
  startDate : Option Int
  priority : Option Priority
  version : Nat
  updatedAt : Int
  deletedAt : Option Int
  deriving Repr

structure UpdateInput (CardId : Type) where
  cardId : CardId
  version : Nat
  title : String
  description : Option RichTextNode
  dueDate : Option Int
  startDate : Option Int
  priority : Option Priority
  deriving Repr

inductive Field where
  | title
  | dueDate
  | startDate
  | priority
  | description
  deriving DecidableEq, Repr

/-- The part of a card that its event shows before and after. -/
structure Shown where
  title : String
  dueDate : Option Int
  startDate : Option Int
  priority : Option Priority
  deriving DecidableEq, Repr

/-- A successful update: its `card.updated` event, the version the client sent,
and the version the call returned. -/
structure Updated (CardId : Type) where
  cardId : CardId
  boardId : String
  changed : List Field
  before : Shown
  after : Shown
  expected : Nat
  version : Nat
  deriving DecidableEq, Repr

inductive Label (CardId : Type) where
  | load
  /-- The UPDATE of a call to which the client sent one version and which loaded
  another. -/
  | update (cardId : CardId) (sent loaded : Nat)
  deriving DecidableEq, Repr

abbrev Procedure (CardId α : Type) := ReadCommitted.Procedure CardId (Option Card) (Label CardId)
  Unit (Updated CardId) α

def Card.shown (card : Card) : Shown := ⟨card.title, card.dueDate, card.startDate, card.priority⟩

def UpdateInput.shown (input : UpdateInput CardId) : Shown :=
  ⟨input.title, input.dueDate, input.startDate, input.priority⟩

/-- The fields that differ from the loaded card; `stringify` is `JSON.stringify`. -/
def changedFields (stringify : Option RichTextNode → String) (card : Card)
    (input : UpdateInput CardId) : List Field :=
  (if card.title ≠ input.title then [.title] else []) ++
  (if card.dueDate ≠ input.dueDate then [.dueDate] else []) ++
  (if card.startDate ≠ input.startDate then [.startDate] else []) ++
  (if card.priority ≠ input.priority then [.priority] else []) ++
  (if stringify card.description ≠ stringify input.description then [.description] else [])

/-- What the UPDATE makes of the stored row. -/
def Card.updated (input : UpdateInput CardId) (nextVersion : Nat) (now : Int) (card : Card) :
    Option Card :=
  if card.version = input.version then
    some { card with
      title := input.title
      description := input.description
      descriptionText := input.description.map flattenToText
      dueDate := input.dueDate
      startDate := input.startDate
      priority := input.priority
      version := nextVersion
      updatedAt := now }
  else none

/-- A card that is not in the trash. -/
def loadCard (input : UpdateInput CardId) : Procedure CardId (Option Card) :=
  select .load fun rows =>
    (rows input.cardId).filter fun card => card.deletedAt.isNone

/-- A call of `updateCard`.  `enforce` is what `enforceOn` decides for the actor
from the card's place. -/
structure Call (CardId : Type) where
  input : UpdateInput CardId
  enforce : Card → Bool
  now : Int

def updateCard (stringify : Option RichTextNode → String) (call : Call CardId) :
    Procedure CardId Nat :=
  transaction do
    -- not found
    let card ← ofOption (← loadCard call.input)
    -- forbidden
    require (call.enforce card)
    let nextVersion := card.version + 1
    let updated ← update (.update call.input.cardId call.input.version card.version)
      call.input.cardId fun _ row =>
        (row.bind fun card => card.updated call.input nextVersion call.now).map some
    -- changed by someone else
    let _ ← ofOption updated
    return ([{
      cardId := call.input.cardId
      boardId := card.boardId
      changed := changedFields stringify card call.input
      before := card.shown
      after := call.input.shown
      expected := call.input.version
      version := nextVersion }], nextVersion)

def calls (stringify : Option RichTextNode → String) (call : Call CardId) :
    Script CardId (Option Card) (Label CardId) Unit (Updated CardId) :=
  (updateCard stringify call).script

/-- An UPDATE that finds the version its client sent is of a call that loaded no
lower one. -/
def loadedWhatIsFound : Condition CardId (Option Card) (Label CardId) Unit (Updated CardId) where
  statement
    | .load, _, _, _ => True
    | .update cardId sent loaded, _, rows, _ =>
      ∀ card ∈ rows cardId, card.version = sent → sent ≤ loaded

instance (label : Label CardId) (i : Unit) (rows : CardId → Option Card) (held : CardId → Bool) :
    Decidable (loadedWhatIsFound.statement label i rows held) :=
  match label with
  | .load => inferInstanceAs (Decidable True)
  | .update cardId sent loaded => inferInstanceAs
      (Decidable (∀ card ∈ rows cardId, card.version = sent → sent ≤ loaded))

instance (notes : List (Updated CardId)) (rows : CardId → Option Card) :
    Decidable (loadedWhatIsFound.commit notes rows) := inferInstanceAs (Decidable True)

instance (notes log : List (Updated CardId)) :
    Decidable (loadedWhatIsFound.history notes log) := inferInstanceAs (Decidable True)

/-! ### The discipline -/

variable {S : Type} {stringify : Option RichTextNode → String}

/-- No card goes away, and no version falls. -/
def Grows (rows rows' : CardId → Option Card) : Prop :=
  ∀ k card, rows k = some card → ∃ card', rows' k = some card' ∧ card.version ≤ card'.version

theorem Grows.refl (rows : CardId → Option Card) : Grows rows rows :=
  fun _ card h => ⟨card, h, Nat.le_refl _⟩

theorem Grows.trans {rows rows' rows'' : CardId → Option Card} (h : Grows rows rows')
    (h' : Grows rows' rows'') : Grows rows rows'' := by
  intro k card hcard
  obtain ⟨card', hcard', hle⟩ := h k card hcard
  obtain ⟨card'', hcard'', hle'⟩ := h' k card' hcard'
  exact ⟨card'', hcard'', Nat.le_trans hle hle'⟩

/-- The successes were made from versions that rose, all below the stored one. -/
structure Successive (rows : CardId → Option Card) (log : List (S × Updated CardId)) : Prop where
  below : ∀ u ∈ log.map Prod.snd, ∃ card, rows u.cardId = some card ∧ u.expected < card.version
  rising : (log.map Prod.snd).Pairwise fun u u' => u.cardId = u'.cardId → u'.expected < u.expected

/-- A commit that notes a success raises the version of its card. -/
def discipline (S CardId : Type) :
    Discipline S CardId (Option Card) (Label CardId) Unit (Updated CardId) where
  inv σ := Successive σ.rows σ.log
  guarantee _ notes _ σ σ' := Grows σ.rows σ'.rows ∧ ∀ u ∈ notes, ∃ card card',
    σ.rows u.cardId = some card ∧ σ'.rows u.cardId = some card' ∧ card.version < card'.version
  rely _ own σ σ' := (∀ k, own k → σ'.rows k = σ.rows k) ∧ Grows σ.rows σ'.rows
  condition := loadedWhatIsFound

variable [DecidableEq CardId]

theorem discipline_lawful : (discipline S CardId).Lawful where
  refl _ _ _ := ⟨fun _ _ => rfl, Grows.refl _⟩
  trans h h' := ⟨fun k hk => (h'.1 k hk).trans (h.1 k hk), h.2.trans h'.2⟩
  rely _ _ hrows _ _ hguar := ⟨hrows, hguar.1⟩

variable {s : S} {input : UpdateInput CardId} {nextVersion : Nat} {t : Transaction CardId (Option Card)}
  {σ : Shared S CardId (Option Card) (Updated CardId)}

/-- What is known of the card a call has loaded. -/
structure Loaded (input : UpdateInput CardId) (card : Card) (t : Transaction CardId (Option Card))
    (σ : Shared S CardId (Option Card) (Updated CardId)) : Prop where
  fresh : t = .none
  stored : ∃ stored, σ.rows input.cardId = some stored ∧ card.version ≤ stored.version

/-- The UPDATE has found the version that the client sent, and has written the
next one. -/
structure Written (input : UpdateInput CardId) (t : Transaction CardId (Option Card))
    (σ : Shared S CardId (Option Card) (Updated CardId)) : Prop where
  own : t.own input.cardId
  stored : ∃ stored, σ.rows input.cardId = some stored ∧ stored.version = input.version
  pending : ∃ card, t.pending = [(input.cardId, some card)] ∧ card.version = input.version + 1

omit [DecidableEq CardId] in
theorem Loaded.stable {card : Card} : Stable (discipline S CardId) s (Loaded input card) := by
  intro t σ σ' h hrely _
  obtain ⟨stored, hstored, hle⟩ := h.stored
  obtain ⟨stored', hstored', hle'⟩ := hrely.2 _ _ hstored
  exact ⟨h.fresh, stored', hstored', Nat.le_trans hle hle'⟩

omit [DecidableEq CardId] in
theorem Written.stable : Stable (discipline S CardId) s (Written input) := by
  intro t σ σ' h hrely _
  obtain ⟨stored, hstored, hversion⟩ := h.stored
  exact ⟨h.own, ⟨stored, (hrely.1 _ h.own).trans hstored, hversion⟩, h.pending⟩

theorem triple_loadCard :
    Triple (discipline S CardId) s (fun t _ => t = .none) (loadCard input)
      fun result t σ => ∀ card, result = some card → Loaded input card t σ := by
  apply triple_select stable_none
  rintro t σ rfl _ i held _ card hcard
  obtain ⟨hrow, _⟩ := Option.filter_eq_some_iff.mp hcard
  exact ⟨rfl, card, hrow, Nat.le_refl _⟩

theorem triple_write {card : Card} {now : Int} :
    Triple (discipline S CardId) s (Loaded input card)
      (update (.update input.cardId input.version card.version) input.cardId fun _ row =>
        (row.bind fun card' => card'.updated input (card.version + 1) now).map some)
      fun result t σ => result.isSome → Written input t σ := by
  refine triple_update Loaded.stable ?_ fun _ _ _ _ _ _ _ _ h => absurd h Bool.false_ne_true
  rintro t σ i held v ⟨rfl, stored, hstored, hle⟩ _ hf _ hfound _
  obtain ⟨card', hcard', rfl⟩ := Option.map_eq_some_iff.mp hf
  rw [Transaction.view_none, hstored, Option.bind_some, Card.updated,
    Option.ite_none_right_eq_some] at hcard'
  obtain ⟨hversion, hcard'⟩ := hcard'
  -- the loaded version is neither above the stored one nor below the client's
  have hloaded : card.version = input.version :=
    Nat.le_antisymm (hversion ▸ hle) (hfound stored hstored hversion)
  refine ⟨by simp, ⟨stored, hstored, hversion⟩, card', rfl, ?_⟩
  rw [← Option.some.inj hcard', ← hloaded]

theorem Written.commit {u : Updated CardId} (h : Written input t σ)
    (hinv : Successive σ.rows σ.log) (hid : u.cardId = input.cardId)
    (hexpected : u.expected = input.version) :
    (discipline S CardId).inv (σ.commit s t [u]) ∧
      (discipline S CardId).guarantee s [u] t.own σ (σ.commit s t [u]) := by
  obtain ⟨stored, hstored, hversion⟩ := h.stored
  obtain ⟨card, hpending, hcard⟩ := h.pending
  have hrows : (σ.commit s t [u]).rows = Function.update σ.rows input.cardId (some card) := by
    simp [Shared.commit, Transaction.view, hpending]
  have hlt : stored.version < card.version := by omega
  have hgrows : Grows σ.rows (σ.commit s t [u]).rows := by
    intro k card' hcard'
    rw [hrows]
    by_cases hk : k = input.cardId
    · subst hk
      obtain rfl := Option.some.inj (hstored.symm.trans hcard')
      exact ⟨card, Function.update_self .., Nat.le_of_lt hlt⟩
    · exact ⟨card', by rw [Function.update_of_ne hk, hcard'], Nat.le_refl _⟩
  refine ⟨⟨?_, ?_⟩, hgrows, ?_⟩
  · intro u' hu'
    rcases List.mem_cons.mp hu' with rfl | hu'
    · refine ⟨card, ?_, by omega⟩
      rw [hrows, hid, Function.update_self]
    · obtain ⟨card', hcard', hbelow⟩ := hinv.below u' hu'
      obtain ⟨card'', hcard'', hle⟩ := hgrows _ _ hcard'
      exact ⟨card'', hcard'', Nat.lt_of_lt_of_le hbelow hle⟩
  · refine List.pairwise_cons.mpr ⟨fun u' hu' hsame => ?_, hinv.rising⟩
    obtain ⟨card', hcard', hbelow⟩ := hinv.below u' hu'
    rw [← hsame, show u.cardId = input.cardId from hid, hstored] at hcard'
    obtain rfl := Option.some.inj hcard'
    exact Nat.lt_of_lt_of_eq hbelow (hversion.trans hexpected.symm)
  · intro u' hu'
    obtain rfl := List.mem_singleton.mp hu'
    refine ⟨stored, card, by rw [hid, hstored], ?_, hlt⟩
    rw [hrows, hid, Function.update_self]

/-- The end of a successful update. -/
def Succeeded (input : UpdateInput CardId) (r : List (Updated CardId) × Nat) :
    Assertion S CardId (Option Card) (Updated CardId) := fun t σ =>
  (∃ u, r.1 = [u] ∧ u.cardId = input.cardId ∧ u.expected = input.version) ∧ Written input t σ

theorem triple_updateCard {call : Call CardId} :
    Triple (discipline S CardId) s (fun t _ => t = .none) (updateCard stringify call)
      fun _ t _ => t = .none := by
  refine triple_transaction (R := Succeeded call.input) ?_ (fun r => ?_) ?_
  · apply (triple_loadCard).bind
    intro result
    refine (triple_ofOption fun card t σ hcard h => h card hcard).bind fun card => ?_
    refine Triple.bind (Q := fun _ => Loaded call.input card)
      (triple_require fun t σ h _ => h) fun _ => ?_
    apply (triple_write).bind
    intro updated
    refine (triple_ofOption (Q := fun _ => Written call.input) fun row t σ hrow h =>
      h (Option.isSome_iff_exists.mpr ⟨row, hrow⟩)).bind fun _ => ?_
    exact triple_pure fun t σ h => ⟨⟨_, rfl, rfl, rfl⟩, h⟩
  · rintro t σ σ' ⟨hr, h⟩ hrely hinv'
    exact ⟨hr, Written.stable t σ σ' h hrely hinv'⟩
  · rintro ⟨notes, version⟩ t σ ⟨⟨u, rfl, hid, hexpected⟩, h⟩ hinv _
    obtain ⟨hinv', hguar⟩ := h.commit (s := s) hinv hid hexpected
    exact ⟨hinv', hguar, rfl⟩

/-! ### Runs -/

/-- **No update is lost** where what an UPDATE finds is no more than its call has
loaded: every success raises the version of its card, and no two were made from
the same version. -/
theorem no_lost_update {S CardId : Type} [DecidableEq S] [DecidableEq CardId]
    {stringify : Option RichTextNode → String} {rows : CardId → Option Card}
    {sys : System S CardId (Option Card) (Label CardId) Unit (Updated CardId)}
    (h : StepSystem.ReachableWhen (Script.step (calls stringify)) loadedWhatIsFound.Meets
      (Script.initial rows) sys) :
    ((sys.log.map Prod.snd).Pairwise fun u u' =>
      u.cardId = u'.cardId → u.expected ≠ u'.expected) ∧
    ∀ s input sys' u, Script.step (calls stringify) sys (s, input) = some sys' →
      sys'.log = (s, u) :: sys.log →
      ∃ card card', sys.world.committed u.cardId = some card ∧
        sys'.world.committed u.cardId = some card' ∧ card.version < card'.version := by
  have hcalls (c : Call CardId) (s : S) (σ : Shared S CardId (Option Card) (Updated CardId)) :
      Safe (discipline S CardId) s (calls stringify c) .none σ := (triple_updateCard).safe σ
  have hv := valid_of_reachable discipline_lawful (fun c s σ _ => hcalls c s σ)
    ⟨by simp, by simp⟩ h
  refine ⟨hv.inv.rising.imp fun hlt hsame heq => ?_, fun s input sys' u hstep hlog => ?_⟩
  · exact absurd (hlt hsame) (by omega)
  · exact (hv.guarantee_of_note discipline_lawful trivial trivial hstep hlog).2 u
      (List.mem_singleton_self _)

/-- One card, at version 1. -/
def oneCard : String → Option Card := fun cardId =>
  if cardId = "c1" then
    some { projectId := "p1", boardId := "b1", listId := "l1", title := "draft",
           description := none, descriptionText := none, dueDate := none, startDate := none,
           priority := none, version := 1, updatedAt := 0, deletedAt := none }
  else none

/-- A client that sends `version` and renames the card. -/
def rename (version : Nat) : Call String where
  input := { cardId := "c1", version := version, title := "renamed", description := none,
             dueDate := none, startDate := none, priority := none }
  enforce _ := true
  now := 0

/-- A whole call of one session. -/
def whole (s : Bool) (version : Nat) : List (Bool × Input (Call String) Unit) :=
  [(s, .call (rename version)), (s, .next ()), (s, .next ()), (s, .next ())]

/-- Two clients with the card at version 1: the second is told to reload, and
then succeeds. -/
theorem no_lost_update_reload :
    ∃ sys : System Bool String (Option Card) (Label String) Unit (Updated String),
      (sys.log.map fun u => (u.1, u.2.expected, u.2.version)) = [(false, 2, 3), (true, 1, 2)] ∧
      (sys.log.map Prod.snd).Pairwise fun u u' =>
        u.cardId = u'.cardId → u.expected ≠ u'.expected := by
  have hrun : (StepSystem.runWhen (Script.step (calls fun _ => "")) loadedWhatIsFound.Meets
      (Script.initial oneCard)
      ((false, .call (rename 1)) :: (false, .next ()) :: whole true 1 ++
        (false, .next ()) :: (false, .next ()) :: whole false 2)).map
      (fun sys => sys.log.map fun u => (u.1, u.2.expected, u.2.version)) =
      some [(false, 2, 3), (true, 1, 2)] := by
    decide
  obtain ⟨sys, hsys, hlog⟩ := Option.map_eq_some_iff.mp hrun
  obtain ⟨hpairwise, _⟩ := no_lost_update (StepSystem.reachableWhen_of_runWhen hsys)
  exact ⟨sys, hlog, hpairwise⟩

/-- What a client that loaded the card with this title notes. -/
def renamed (changed : List Field) (title : String) (expected version : Nat) : Updated String where
  cardId := "c1"
  boardId := "b1"
  changed := changed
  before := ⟨title, none, none, none⟩
  after := ⟨"renamed", none, none, none⟩
  expected := expected
  version := version

/-- A client that sends version 3 has loaded version 1 when two others succeed.
Its update finds the stored version to be 3 and writes 2: the version falls, and
another client succeeds from version 2 once more. -/
theorem version_falls :
    (∃ sys sys' : System Bool String (Option Card) (Label String) Unit (Updated String),
      ∃ u, StepSystem.Reachable (Script.step (calls fun _ => "")) (Script.initial oneCard) sys ∧
        Script.step (calls fun _ => "") sys (false, .next ()) = some sys' ∧
        sys'.log = (false, u) :: sys.log ∧
        (sys.world.committed u.cardId).map (·.version) = some 3 ∧
        (sys'.world.committed u.cardId).map (·.version) = some 2) ∧
    ∃ sys : System Bool String (Option Card) (Label String) Unit (Updated String),
      StepSystem.Reachable (Script.step (calls fun _ => "")) (Script.initial oneCard) sys ∧
      ¬(sys.log.map Prod.snd).Pairwise fun u u' =>
        u.cardId = u'.cardId → u.expected ≠ u'.expected := by
  have hbefore : (StepSystem.run (Script.step (calls fun _ => "")) (Script.initial oneCard)
      ((false, .call (rename 3)) :: (false, .next ()) :: whole true 1 ++ whole true 2 ++
        [(false, .next ())])).map (fun sys =>
          (sys.log, (sys.world.committed "c1").map (·.version))) =
      some ([(true, renamed [] "renamed" 2 3), (true, renamed [.title] "draft" 1 2)], some 3) := by
    decide
  have hafter : ((StepSystem.run (Script.step (calls fun _ => "")) (Script.initial oneCard)
      ((false, .call (rename 3)) :: (false, .next ()) :: whole true 1 ++ whole true 2 ++
        [(false, .next ())])).bind fun sys =>
          Script.step (calls fun _ => "") sys (false, .next ())).map (fun sys =>
            (sys.log, (sys.world.committed "c1").map (·.version))) =
      some ([(false, renamed [.title] "draft" 3 2), (true, renamed [] "renamed" 2 3),
        (true, renamed [.title] "draft" 1 2)], some 2) := by
    decide
  have htwice : (StepSystem.run (Script.step (calls fun _ => "")) (Script.initial oneCard)
      ((false, .call (rename 3)) :: (false, .next ()) :: whole true 1 ++ whole true 2 ++
        (false, .next ()) :: (false, .next ()) :: whole true 2)).map (fun sys => sys.log) =
      some [(true, renamed [] "renamed" 2 3), (false, renamed [.title] "draft" 3 2),
        (true, renamed [] "renamed" 2 3), (true, renamed [.title] "draft" 1 2)] := by
    decide
  constructor
  · obtain ⟨sys, hsys, hmap⟩ := Option.map_eq_some_iff.mp hbefore
    obtain ⟨hlog, hversion⟩ := Prod.mk.inj hmap
    rw [hsys] at hafter
    obtain ⟨sys', hsys', hmap'⟩ := Option.map_eq_some_iff.mp hafter
    obtain ⟨hlog', hversion'⟩ := Prod.mk.inj hmap'
    exact ⟨sys, sys', renamed [.title] "draft" 3 2, StepSystem.reachable_of_run hsys, hsys',
      by rw [hlog', hlog], hversion, hversion'⟩
  · obtain ⟨sys, hsys, hlog⟩ := Option.map_eq_some_iff.mp htwice
    refine ⟨sys, StepSystem.reachable_of_run hsys, ?_⟩
    rw [hlog]
    decide

end CardUpdate
end TaskFlow
