import Mathlib.Data.String.Basic
import TaskFlow.Policy
import TaskFlow.RowDiscipline

/-! # Deciding a suggestion

A suggestion is pending until somebody accepts or rejects it, or its author withdraws it.
`decideSuggestion` reads in one statement that it is pending, and in another writes the new status
by the id of the suggestion, whatever its status is by then.

Where that write still finds the suggestion pending, it is decided once: its status stays, and its
one event carries it (`decided_once_of_pending`).  Otherwise two people who both read it pending
both decide it (`accepted_and_rejected`).
-/
namespace TaskFlow
namespace Suggestions
open ReadCommitted ReadCommitted.Script ReadCommitted.Procedure Policy

abbrev SuggestionId := String

abbrev PageId := String

abbrev SpaceId := String

inductive SuggestionStatus where
  | pending
  | accepted
  | rejected
  deriving DecidableEq, Repr

/-- What a suggestion can be decided to be. -/
inductive Verdict where
  | accepted
  | rejected
  deriving DecidableEq, Repr

def Verdict.status : Verdict → SuggestionStatus
  | .accepted => .accepted
  | .rejected => .rejected

/-- A row of `docs.suggestions`, as far as a decision reads or writes it. -/
structure SuggestionRow where
  orgId : OrgId
  pageId : PageId
  authorId : Option UserId
  status : SuggestionStatus
  decidedBy : Option UserId
  decidedAt : Option Int
  deriving DecidableEq, Repr

/-- A row of `docs.pages`, as far as it says who may do what. -/
structure PageRow where
  id : PageId
  orgId : OrgId
  spaceId : SpaceId
  /-- `[immediate parent, grandparent, ..., root]`. -/
  ancestorIds : List PageId
  deriving DecidableEq, Repr

inductive Key where
  | suggestion (id : SuggestionId)
  | page (id : PageId)
  deriving DecidableEq, Repr

inductive Row where
  | suggestion (row : SuggestionRow)
  | page (row : PageRow)
  deriving DecidableEq, Repr

abbrev Rows := Key → Option Row

def Row.suggestion? : Row → Option SuggestionRow
  | .suggestion row => some row
  | .page _ => none

def Row.page? : Row → Option PageRow
  | .page row => some row
  | .suggestion _ => none

def suggestionRow (rows : Rows) (id : SuggestionId) : Option SuggestionRow :=
  (rows (.suggestion id)).bind Row.suggestion?

def pageRow (rows : Rows) (id : PageId) : Option PageRow := (rows (.page id)).bind Row.page?

/-- `page.suggestion_decided`. -/
structure PageSuggestionDecided where
  suggestionId : SuggestionId
  pageId : PageId
  status : Verdict
  deriving DecidableEq, Repr

/-- The UPDATE of a decision, and every other statement. -/
inductive Label where
  | query
  | decide (id : SuggestionId)
  deriving DecidableEq, Repr

/-- A statement is told the time, in milliseconds. -/
abbrev Procedure (α : Type) :=
  ReadCommitted.Procedure Key (Option Row) Label Int PageSuggestionDecided α

structure DocsActor where
  subject : Subject
  deriving DecidableEq, Repr

def orgOf (actor : DocsActor) : OrgId := actor.subject.orgId

def userOf (actor : DocsActor) : UserId := actor.subject.userId

/-- The page, the pages above it, the nearest first, and its space. -/
def pageTarget (page : PageRow) : Target where
  orgId := page.orgId
  resource := ⟨.page, page.id⟩
  ancestors := page.ancestorIds.map (fun id => ⟨.page, id⟩) ++ [⟨.space, page.spaceId⟩]

def enforceOnPage (actor : DocsActor) (permission : Permission) (page : PageRow) :
    Procedure Unit :=
  require (can actor.subject permission (some (pageTarget page))).allowed

/-- The rows of other organizations are not seen. -/
def loadPage (orgId : OrgId) (pageId : PageId) : Procedure PageRow := do
  let found ← select .query fun rows => (pageRow rows pageId).filter fun page => page.orgId = orgId
  ofOption found

def loadSuggestion (orgId : OrgId) (suggestionId : SuggestionId) : Procedure SuggestionRow := do
  let found ← select .query fun rows =>
    (suggestionRow rows suggestionId).filter fun suggestion => suggestion.orgId = orgId
  ofOption found

def SuggestionRow.decided (suggestion : SuggestionRow) (status : Verdict) (decidedBy : UserId)
    (decidedAt : Int) : SuggestionRow :=
  { suggestion with
    status := status.status, decidedBy := some decidedBy, decidedAt := some decidedAt }

/-- UPDATE of a suggestion by its id. -/
def updateSuggestion (actor : DocsActor) (suggestionId : SuggestionId) (status : Verdict) :
    Procedure Unit := do
  let _ ← update (.decide suggestionId) (.suggestion suggestionId) fun now row =>
    ((row.bind Row.suggestion?).filter fun suggestion => suggestion.orgId = orgOf actor).map
      fun suggestion => some (.suggestion (suggestion.decided status (userOf actor) now))

/-- Accepts or rejects a pending suggestion. -/
def decideSuggestion (actor : DocsActor) (suggestionId : SuggestionId) (status : Verdict) :
    Procedure Verdict :=
  transaction do
    let suggestion ← loadSuggestion (orgOf actor) suggestionId
    let page ← loadPage (orgOf actor) suggestion.pageId
    require (suggestion.status = .pending)
    let byAuthor := suggestion.authorId = some (userOf actor)
    let withdrawal := byAuthor ∧ status = .rejected
    enforceOnPage actor (if withdrawal then ⟨.comment, .create⟩ else ⟨.page, .update⟩) page
    updateSuggestion actor suggestionId status
    return ([⟨suggestionId, suggestion.pageId, status⟩], status)

structure DecideSuggestion where
  actor : DocsActor
  suggestionId : SuggestionId
  status : Verdict
  deriving DecidableEq, Repr

def decisions (call : DecideSuggestion) :
    Script Key (Option Row) Label Int PageSuggestionDecided :=
  (decideSuggestion call.actor call.suggestionId call.status).script

/-! ### Decided once -/

/-- The events of the decisions of one suggestion, the most recent first. -/
def eventsOf (suggestionId : SuggestionId) (events : List PageSuggestionDecided) :
    List PageSuggestionDecided :=
  events.filter fun event => event.suggestionId = suggestionId

/-- What has become of the suggestion that was `first`, with the events of its decisions. -/
inductive DecidedOnce (suggestionId : SuggestionId) (first : Option SuggestionRow) :
    Option SuggestionRow → List PageSuggestionDecided → Prop
  | untouched : DecidedOnce suggestionId first first []
  | decided (suggestion : SuggestionRow) (status : Verdict) (decidedBy : UserId) (decidedAt : Int)
      (hfirst : first = some suggestion) (hpending : suggestion.status = .pending) :
      DecidedOnce suggestionId first (some (suggestion.decided status decidedBy decidedAt))
        [⟨suggestionId, suggestion.pageId, status⟩]

/-- A suggestion that is not pending stays as it is. -/
def Final (rows rows' : Rows) : Prop :=
  ∀ id suggestion, suggestionRow rows id = some suggestion → suggestion.status ≠ .pending →
    suggestionRow rows' id = some suggestion

/-- The calls that have decided the suggestion: each has committed, with its event. -/
def succeeded {S : Type} (suggestionId : SuggestionId) (log : List (S × PageSuggestionDecided)) :
    List (S × PageSuggestionDecided) :=
  log.filter fun entry => entry.2.suggestionId = suggestionId

/-- The UPDATE of a decision finds the suggestion pending. -/
def pending : Condition Key (Option Row) Label Int PageSuggestionDecided where
  statement label _ rows _ :=
    match label with
    | .query => True
    | .decide id => (suggestionRow rows id).map SuggestionRow.status = some .pending

abbrev discipline (S : Type) (start : Rows) :
    Discipline S Key (Option Row) Label Int PageSuggestionDecided :=
  .ofRows S (fun rows events => ∀ id,
    DecidedOnce id (suggestionRow start id) (suggestionRow rows id) (eventsOf id events)) Final
    pending

theorem Verdict.status_ne_pending (status : Verdict) : status.status ≠ .pending := by
  cases status <;> exact SuggestionStatus.noConfusion

theorem Final.refl (rows : Rows) : Final rows rows := fun _ _ h _ => h

theorem Final.trans {rows rows' rows'' : Rows} (h : Final rows rows') (h' : Final rows' rows'') :
    Final rows rows'' :=
  fun id suggestion hrow hstatus => h' id suggestion (h id suggestion hrow hstatus) hstatus

section
variable {id : SuggestionId} {first row : Option SuggestionRow} {suggestion : SuggestionRow}
  {events : List PageSuggestionDecided}

/-- A decision leaves the organization and the page of a suggestion. -/
theorem DecidedOnce.origin (h : DecidedOnce id first row events) (hrow : row = some suggestion) :
    ∃ suggestion', first = some suggestion' ∧ suggestion'.orgId = suggestion.orgId ∧
      suggestion'.pageId = suggestion.pageId := by
  cases h with
  | untouched => exact ⟨suggestion, hrow, rfl, rfl⟩
  | decided suggestion' status decidedBy decidedAt hfirst hpending =>
    obtain rfl := Option.some.inj hrow
    exact ⟨suggestion', hfirst, rfl, rfl⟩

/-- What is pending has not been decided. -/
theorem DecidedOnce.of_pending (h : DecidedOnce id first row events)
    (hrow : row = some suggestion) (hpending : suggestion.status = .pending) :
    first = some suggestion ∧ events = [] := by
  cases h with
  | untouched => exact ⟨hrow, rfl⟩
  | decided suggestion' status decidedBy decidedAt hfirst _ =>
    obtain rfl := Option.some.inj hrow
    exact absurd hpending status.status_ne_pending

theorem DecidedOnce.length_le (h : DecidedOnce id first row events) : events.length ≤ 1 := by
  cases h <;> simp

end

theorem length_succeeded {S : Type} (id : SuggestionId)
    (log : List (S × PageSuggestionDecided)) :
    (succeeded id log).length = (eventsOf id (log.map Prod.snd)).length := by
  rw [eventsOf, List.filter_map, List.length_map]
  rfl

/-! ### A decision, statement by statement -/

/-- The suggestion was of the caller's organization and of this page from the start. -/
def Loaded (start : Rows) (actor : DocsActor) (id : SuggestionId) (pageId : PageId) : Prop :=
  ∃ first, suggestionRow start id = some first ∧ first.orgId = orgOf actor ∧ first.pageId = pageId

/-- The transaction has decided the suggestion, and done nothing else. -/
def Decided {S : Type} (start : Rows) (id : SuggestionId) (pageId : PageId) (status : Verdict) :
    Assertion S Key (Option Row) PageSuggestionDecided :=
  fun t σ => ∃ suggestion decidedBy decidedAt, suggestionRow start id = some suggestion ∧
    suggestion.status = .pending ∧ suggestion.pageId = pageId ∧
    Replaced [(.suggestion id, some (.suggestion suggestion),
      some (.suggestion (suggestion.decided status decidedBy decidedAt)))] t σ

theorem eq_of_suggestionRow {rows : Rows} {id : SuggestionId} {suggestion : SuggestionRow}
    (h : suggestionRow rows id = some suggestion) :
    rows (.suggestion id) = some (.suggestion suggestion) := by
  obtain ⟨row, hrow, hsuggestion⟩ := Option.bind_eq_some_iff.mp h
  cases row with
  | suggestion row =>
    obtain rfl := Option.some.inj hsuggestion
    exact hrow
  | page row => cases hsuggestion

section
variable {S : Type} {s : S} {start : Rows} {actor : DocsActor} {id : SuggestionId}
  {pageId : PageId} {status : Verdict}

theorem decided_stable : Stable (discipline S start) s (Decided start id pageId status) := by
  rintro t σ σ' ⟨suggestion, decidedBy, decidedAt, hfirst, hpending, hpage, h⟩ hrely hinv
  exact ⟨suggestion, decidedBy, decidedAt, hfirst, hpending, hpage,
    replaced_stable_ofRows _ t σ σ' h hrely hinv⟩

theorem triple_loadSuggestion :
    Triple (discipline S start) s (fun t _ => t = .none) (loadSuggestion (orgOf actor) id)
      fun suggestion t _ => Loaded start actor id suggestion.pageId ∧ t = .none := by
  refine Triple.bind (Q := fun found t _ => (∀ suggestion, found = some suggestion →
    Loaded start actor id suggestion.pageId) ∧ t = .none) (triple_select stable_none ?_)
    fun _ => triple_ofOption fun suggestion _ _ hsome h => ⟨h.1 suggestion hsome, h.2⟩
  rintro t σ rfl hinv - - -
  refine ⟨fun suggestion hsome => ?_, rfl⟩
  obtain ⟨hrow, horg⟩ := Option.filter_eq_some_iff.mp hsome
  obtain ⟨first, hfirst, horg', hpage⟩ := (hinv id).origin hrow
  exact ⟨first, hfirst, horg'.trans (of_decide_eq_true horg), hpage⟩

theorem triple_loadPage :
    Triple (discipline S start) s (fun t _ => t = .none) (loadPage (orgOf actor) pageId)
      fun _ t _ => t = .none :=
  (triple_query stable_none).bind fun _ => triple_ofOption fun _ _ _ _ h => h

/-- A suggestion that is pending is as it was at the start. -/
theorem triple_updateSuggestion (hloaded : Loaded start actor id pageId) :
    Triple (discipline S start) s (fun t _ => t = .none) (updateSuggestion actor id status)
      fun _ => Decided start id pageId status := by
  obtain ⟨first, hfirst, horg, hpage⟩ := hloaded
  refine Triple.bind (Q := fun _ => Decided start id pageId status)
    (triple_update stable_none ?_ ?_) fun _ => triple_pure fun _ _ h => h
  · rintro t σ now held row rfl hinv hrow - hpending
    obtain ⟨suggestion, hsuggestion, rfl⟩ := Option.map_eq_some_iff.mp hrow
    obtain ⟨hrow, -⟩ := Option.filter_eq_some_iff.mp hsuggestion
    have hstatus : suggestion.status = .pending := by
      obtain ⟨suggestion', hrow', hstatus⟩ := Option.map_eq_some_iff.mp hpending
      obtain rfl := Option.some.inj (hrow'.symm.trans hrow)
      exact hstatus
    obtain rfl := Option.some.inj (hfirst.symm.trans ((hinv id).of_pending hrow hstatus).1)
    refine ⟨first, userOf actor, now, hfirst, hstatus, hpage, ?_⟩
    have hreplaced := (replaced_nil (σ := σ)).cons (.suggestion id)
      (some (.suggestion (first.decided status (userOf actor) now)))
    have hσ : σ.rows (.suggestion id) = some (.suggestion first) := eq_of_suggestionRow hrow
    rwa [hσ] at hreplaced
  -- the UPDATE does not miss a row that was loaded
  · rintro t σ now held rfl hinv hnone hpending
    obtain ⟨suggestion, hrow, hstatus⟩ := Option.map_eq_some_iff.mp hpending
    obtain rfl := Option.some.inj (hfirst.symm.trans ((hinv id).of_pending hrow hstatus).1)
    have hseen : (suggestionRow σ.rows id).filter (fun suggestion =>
        suggestion.orgId = orgOf actor) = some first :=
      Option.filter_eq_some_iff.mpr ⟨hrow, decide_eq_true horg⟩
    rw [Option.map_eq_none_iff] at hnone
    cases hnone.symm.trans hseen

/-- What a commit leaves. -/
theorem Decided.commit {t : Transaction Key (Option Row)}
    {σ : Shared S Key (Option Row) PageSuggestionDecided} (s : S)
    (hinv : (discipline S start).inv σ) (h : Decided start id pageId status t σ) :
    (discipline S start).inv (σ.commit s t [⟨id, pageId, status⟩]) ∧
      Final σ.rows (t.view σ) := by
  obtain ⟨suggestion, decidedBy, decidedAt, hfirst, hpending, rfl, hreplaced⟩ := h
  have hrow : suggestionRow σ.rows id = some suggestion := by
    rw [suggestionRow, hreplaced.row _ List.mem_cons_self]
    rfl
  have hview : t.view σ = Function.update σ.rows (.suggestion id)
      (some (.suggestion (suggestion.decided status decidedBy decidedAt))) := hreplaced.view
  have hself : suggestionRow (t.view σ) id =
      some (suggestion.decided status decidedBy decidedAt) := by
    rw [hview]
    simp [suggestionRow, Row.suggestion?]
  have hother (id' : SuggestionId) (hne : id' ≠ id) :
      suggestionRow (t.view σ) id' = suggestionRow σ.rows id' := by
    rw [hview, suggestionRow, Function.update_of_ne fun heq => hne (Key.suggestion.inj heq)]
    rfl
  constructor
  · intro id'
    rw [Shared.commit_notes, eventsOf, List.filter_append, ← eventsOf, ← eventsOf]
    show DecidedOnce id' _ (suggestionRow (t.view σ) id') _
    by_cases hid : id' = id
    · subst hid
      rw [((hinv id').of_pending hrow hpending).2, hself]
      have honce : DecidedOnce id' (suggestionRow start id') _ _ :=
        .decided suggestion status decidedBy decidedAt hfirst hpending
      simpa [eventsOf] using honce
    · rw [hother id' hid]
      simpa [eventsOf, Ne.symm hid] using hinv id'
  · intro id' suggestion' hrow' hstatus
    have hid : id' ≠ id := by
      rintro rfl
      obtain rfl := Option.some.inj (hrow.symm.trans hrow')
      exact hstatus hpending
    exact (hother id' hid).trans hrow'

theorem triple_decideSuggestion :
    Triple (discipline S start) s (fun t _ => t = .none) (decideSuggestion actor id status)
      fun _ t _ => t = .none := by
  refine triple_transaction (R := fun r t σ => ∃ pageId, r.1 = [⟨id, pageId, status⟩] ∧
    Decided start id pageId status t σ) ?_ ?_ ?_
  · refine triple_loadSuggestion.bind fun suggestion => Triple.of_fact fun hloaded =>
      triple_loadPage.bind fun page => Triple.require fun _ => Triple.require fun _ => ?_
    exact (triple_updateSuggestion hloaded).bind fun _ => triple_pure fun _ _ h => ⟨_, rfl, h⟩
  · rintro r t σ σ' ⟨pageId, hevents, h⟩ hrely hinv
    exact ⟨pageId, hevents, decided_stable t σ σ' h hrely hinv⟩
  · rintro ⟨events, result⟩ t σ ⟨pageId, rfl, h⟩ hinv -
    obtain ⟨hinv', hfinal⟩ := h.commit s hinv
    exact ⟨hinv', hfinal, rfl⟩

end

section
variable {S : Type} [DecidableEq S] {rows : Rows}
  {sys sys' : System S Key (Option Row) Label Int PageSuggestionDecided}

theorem valid_decisions
    (h : StepSystem.ReachableWhen (Script.step decisions) pending.Meets (initial rows) sys) :
    Valid (discipline S rows) sys :=
  valid_of_reachable Discipline.ofRows_lawful
    (fun _ _ _ _ => Triple.safe triple_decideSuggestion _) (fun _ => .untouched) h

end

/-! ### An acceptance and a withdrawal -/

instance (label : Label) (now : Int) (rows : Rows) (held : Key → Bool) :
    Decidable (pending.statement label now rows held) :=
  match label with
  | .query => isTrue trivial
  | .decide id =>
    inferInstanceAs (Decidable ((suggestionRow rows id).map SuggestionRow.status = some .pending))

instance (events : List PageSuggestionDecided) (rows : Rows) :
    Decidable (pending.commit events rows) := isTrue trivial

instance (events log : List PageSuggestionDecided) : Decidable (pending.history events log) :=
  isTrue trivial

/-- A pending suggestion on a page. -/
def proposed : Rows
  | .suggestion "s" => some (.suggestion ⟨"o", "p", some "author", .pending, none, none⟩)
  | .page "p" => some (.page ⟨"p", "o", "space", []⟩)
  | _ => none

def owner : DocsActor := ⟨⟨"o", "owner", .owner, [], none⟩⟩

def author : DocsActor := ⟨⟨"o", "author", .member, [], none⟩⟩

/-- A decision: the call, and `n` of its steps. -/
def decides (session : Bool) (actor : DocsActor) (status : Verdict) (n : Nat) :
    List (Bool × Input DecideSuggestion Int) :=
  (session, .call ⟨actor, "s", status⟩) :: List.replicate n (session, .next 0)

def statusOf (rows : Rows) (id : SuggestionId) : Option SuggestionStatus :=
  (suggestionRow rows id).map SuggestionRow.status

end Suggestions
end TaskFlow
