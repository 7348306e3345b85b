import TaskFlow.CardImport

/-! # Which imports are atomic by row

Each row is refused, or leaves its whole card, or fails after its card is created; in the last
case it is reported as an error, and the card stays (`RowResult`).  So an import leaves every row
whole or not at all just when no service fails after the row's `createCard`
(`import_atomic_iff`).
-/
namespace TaskFlow
namespace CardImport
open ImportRows
open RichText (Text)

/-! ### Actions -/

/-- What an action answers, and the world it leaves. -/
def on {α : Type} (action : Action α) (world : World) : Except Text α × World :=
  StateT.run (ExceptT.run action) world

section
variable {α β : Type} {action : Action α} {next : α → Action β} {world world' : World}

theorem on_get_bind {next : World → Action β} : on (get >>= next) world = on (next world) world :=
  rfl

theorem on_liftM {a : α} :
    on (liftM (Except.ok a : Except Text α) : Action α) world = (.ok a, world) :=
  rfl

theorem on_lift {act : StateM World α} {a : α} (h : StateT.run act world = (a, world')) :
    on (liftM act : Action α) world = (.ok a, world') := by
  have run : on (liftM act : Action α) world =
      (Except.ok (StateT.run act world).1, (StateT.run act world).2) := rfl
  rw [run, h]

theorem on_bind_ok {a : α} (h : on action world = (.ok a, world')) :
    on (action >>= next) world = on (next a) world' := by
  simp only [on, ExceptT.run, bind, ExceptT.bind, ExceptT.mk, StateT.run, StateT.bind] at h ⊢
  simp only [h]
  rfl

theorem on_bind_error {message : Text} (h : on action world = (.error message, world')) :
    on (action >>= next) world = (.error message, world') := by
  simp only [on, ExceptT.run, bind, ExceptT.bind, ExceptT.mk, StateT.run, StateT.bind] at h ⊢
  simp only [h]
  rfl

end

section
variable {env : Environment} {line : Nat} {service : Service} {write : World → World}
  {world : World}

theorem on_call_none (h : env.throws line service = none) :
    on (call env line service write) world = (.ok (), write world) := by
  rw [call, h]
  rfl

theorem on_call_some {message : Text} (h : env.throws line service = some message) :
    on (call env line service write) world = (.error message, world) := by
  rw [call, h]
  rfl

end

/-! ### The setters -/

/-- The setter changes neither which card it is nor whether it is archived. -/
def Card.Same (card card' : Card) : Prop :=
  card'.cardId = card.cardId ∧ card'.archived = card.archived

theorem editCard_last {cards : List Card} {labels : List LabelRow} {card : Card} {f : Card → Card}
    (others : ∀ other ∈ cards, other.cardId ≠ card.cardId) :
    (⟨cards ++ [card], labels⟩ : World).editCard card.cardId f = ⟨cards ++ [f card], labels⟩ := by
  have unchanged : cards.map (fun other => if other.cardId = card.cardId then f other else other) =
      cards := by
    conv_rhs => rw [← List.map_id cards]
    apply List.map_congr_left
    intro other mem
    simp [others other mem]
  simp [World.editCard, unchanged]

/-- On the last card, which no other shares its id with, the action is `f` if none of the services
throws, and else leaves some card in its place. -/
structure Sets (env : Environment) (line : Nat) (action : Id → Action Unit)
    (services : List Service) (f : Card → Card) : Prop where
  same : ∀ card : Card, card.Same (f card)
  done : (∀ service ∈ services, env.throws line service = none) →
    ∀ (cards : List Card) labels (card : Card), (∀ other ∈ cards, other.cardId ≠ card.cardId) →
      on (action card.cardId) ⟨cards ++ [card], labels⟩ = (.ok (), ⟨cards ++ [f card], labels⟩)
  failed : (∃ service ∈ services, env.throws line service ≠ none) →
    ∀ (cards : List Card) labels (card : Card), (∀ other ∈ cards, other.cardId ≠ card.cardId) →
      ∃ message card', card.Same card' ∧
        on (action card.cardId) ⟨cards ++ [card], labels⟩ =
          (.error message, ⟨cards ++ [card'], labels⟩)

section
variable {env : Environment} {line : Nat} {action next : Id → Action Unit}
  {services more : List Service} {f g : Card → Card}

theorem Sets.pure : Sets env line (fun _ => pure ()) [] id where
  same := fun _ => ⟨rfl, rfl⟩
  done := fun _ _ _ _ _ => rfl
  failed := fun ⟨_, mem, _⟩ => absurd mem List.not_mem_nil

variable (env line) in
theorem Sets.call (service : Service) (f : Card → Card)
    (same : ∀ card : Card, card.Same (f card)) :
    Sets env line (fun cardId => call env line service fun world => world.editCard cardId f)
      [service] f where
  same := same
  done := by
    intro quiet cards labels card others
    rw [on_call_none (quiet service (List.mem_singleton_self _)), editCard_last others]
  failed := by
    rintro ⟨service', mem, throws⟩ cards labels card others
    obtain rfl := List.mem_singleton.mp mem
    obtain ⟨message, throws⟩ := Option.ne_none_iff_exists'.mp throws
    exact ⟨message, card, ⟨rfl, rfl⟩, on_call_some throws⟩

/-- One setter after another. -/
theorem Sets.andThen (first : Sets env line action services f)
    (second : Sets env line next more g) :
    Sets env line (fun cardId => do action cardId; next cardId) (services ++ more) (g ∘ f) where
  same := fun card =>
    ⟨(second.same _).1.trans (first.same card).1, (second.same _).2.trans (first.same card).2⟩
  done := by
    intro quiet cards labels card others
    have run := first.done (fun service mem => quiet service (List.mem_append_left _ mem))
      cards labels card others
    rw [on_bind_ok run]
    rw [← (first.same card).1] at others ⊢
    exact second.done (fun service mem => quiet service (List.mem_append_right _ mem))
      cards labels (f card) others
  failed := by
    intro late cards labels card others
    by_cases early : ∃ service ∈ services, env.throws line service ≠ none
    · obtain ⟨message, card', same, run⟩ := first.failed early cards labels card others
      exact ⟨message, card', same, on_bind_error run⟩
    · have quiet : ∀ service ∈ services, env.throws line service = none := by
        intro service mem
        by_contra throws
        exact early ⟨service, mem, throws⟩
      have later : ∃ service ∈ more, env.throws line service ≠ none := by
        obtain ⟨service, mem, throws⟩ := late
        rcases List.mem_append.mp mem with mem | mem
        · exact absurd (quiet service mem) throws
        · exact ⟨service, mem, throws⟩
      have others' : ∀ other ∈ cards, other.cardId ≠ (f card).cardId := by
        rw [(first.same card).1]
        exact others
      obtain ⟨message, card', same, run⟩ := second.failed later cards labels (f card) others'
      refine ⟨message, card',
        ⟨same.1.trans (first.same card).1, same.2.trans (first.same card).2⟩, ?_⟩
      rw [on_bind_ok (first.done quiet cards labels card others), ← (first.same card).1]
      exact run

theorem Sets.setWhen (p : Prop) [Decidable p] (sets : Sets env line action services f) :
    Sets env line (fun cardId => setWhen (decide p) (action cardId))
      (if p then services else []) (if p then f else id) := by
  by_cases holds : p
  · simpa only [CardImport.setWhen, holds, decide_true, if_true] using sets
  · simpa only [CardImport.setWhen, holds, decide_false, if_false, Bool.false_eq_true] using
      Sets.pure

theorem Sets.forM {α : Type} {action : Id → α → Action Unit} {f : α → Card → Card}
    (value : Option α)
    (sets : ∀ a, Sets env line (fun cardId => action cardId a) services (f a)) :
    Sets env line (fun cardId => value.forM (action cardId))
      (if value.isSome then services else []) (value.elim id f) := by
  cases value with
  | none => exact Sets.pure
  | some a => exact sets a

end

section
variable (env : Environment) (line : Nat) (row : ImportRow)

/-- What `updateCard` makes of the card. -/
def withDetails (card : Card) : Card :=
  { card with
    title := row.title, description := row.description, dueDate := row.dueDate,
    startDate := none, priority := row.priority, version := card.version + 1 }

theorem find_last {cards : List Card} {card : Card} {p : Card → Bool} (holds : p card)
    (others : ∀ other ∈ cards, other.cardId ≠ card.cardId)
    (only : ∀ other, p other → other.cardId = card.cardId) :
    (cards ++ [card]).find? p = some card := by
  have none : cards.find? p = none := by
    rw [List.find?_eq_none]
    intro other mem found
    exact others other mem (only other found)
  simp [none, holds]

theorem on_getCard {cards : List Card} {labels : List LabelRow} {card : Card}
    (quiet : env.throws line .getCard = none)
    (others : ∀ other ∈ cards, other.cardId ≠ card.cardId) :
    on (getCard env line card.cardId) ⟨cards ++ [card], labels⟩ =
      (.ok card, ⟨cards ++ [card], labels⟩) := by
  have found : (cards ++ [card]).find? (fun other => other.cardId = card.cardId) = some card :=
    find_last (by simp) others (by simp)
  rw [getCard, on_bind_ok (on_call_none quiet), on_get_bind]
  simp only [id_eq, found]
  rfl

theorem on_updateCard {cards : List Card} {labels : List LabelRow} {card : Card}
    (quiet : env.throws line .updateCard = none)
    (others : ∀ other ∈ cards, other.cardId ≠ card.cardId) :
    on (updateCard env line card.cardId card.version row.title row.description row.dueDate none
        row.priority) ⟨cards ++ [card], labels⟩ =
      (.ok (), ⟨cards ++ [withDetails row card], labels⟩) := by
  have found : (cards ++ [card]).find?
      (fun other => other.cardId = card.cardId ∧ other.version = card.version) = some card :=
    find_last (by simp) others (by simp +contextual)
  rw [updateCard, on_bind_ok (on_call_none quiet), on_get_bind]
  simp only [id_eq, found]
  exact congrArg (Prod.mk _) (editCard_last others)

theorem setDetails_sets :
    Sets env line (fun cardId => setDetails env line cardId row) [.getCard, .updateCard]
      (withDetails row) where
  same := fun _ => ⟨rfl, rfl⟩
  done := by
    intro quiet cards labels card others
    rw [setDetails, on_bind_ok (on_getCard env line (quiet .getCard (by simp)) others)]
    exact on_updateCard env line row (quiet .updateCard (by simp)) others
  failed := by
    rintro ⟨service, mem, throws⟩ cards labels card others
    cases read : env.throws line .getCard with
    | some message =>
      refine ⟨message, card, ⟨rfl, rfl⟩, ?_⟩
      rw [setDetails, on_bind_error]
      exact on_bind_error (on_call_some read)
    | none =>
      have throws : env.throws line .updateCard ≠ none := by
        rcases List.mem_pair.mp mem with rfl | rfl
        · exact absurd read throws
        · exact throws
      obtain ⟨message, throws⟩ := Option.ne_none_iff_exists'.mp throws
      refine ⟨message, card, ⟨rfl, rfl⟩, ?_⟩
      rw [setDetails, on_bind_ok (on_getCard env line read others)]
      exact on_bind_error (on_call_some throws)

/-- The services a row calls once its card is created. -/
def laterServices : List Service :=
  (if row.statusId.isSome then [.setCardStatus] else []) ++
  ((if row.assigneeIds.length > 0 then [.assignCard] else []) ++
  ((if row.labelIds.length > 0 then [.setCardLabels] else []) ++
  ((if row.sprintId.isSome then [.assignSprint] else []) ++
  (if row.dueDate ≠ none ∨ row.priority ≠ none then [.getCard, .updateCard] else []))))

/-- The card of the row on this line, with all the row says. -/
def imported : Card where
  cardId := env.newCardId line
  listId := row.listId
  title := row.title
  description := row.description
  statusId := row.statusId.or env.defaultStatus
  assigneeIds := row.assigneeIds.eraseDups
  labelIds := row.labelIds.eraseDups.insertionSort (· ≤ ·)
  sprintId := row.sprintId
  dueDate := row.dueDate
  startDate := none
  priority := row.priority
  version := if row.dueDate ≠ none ∨ row.priority ≠ none then 2 else 1
  archived := false

/-- The card as `createCard` leaves it. -/
def created : Card where
  cardId := env.newCardId line
  listId := row.listId
  title := row.title
  description := row.description
  statusId := env.defaultStatus
  assigneeIds := []
  labelIds := []
  sprintId := none
  dueDate := none
  startDate := none
  priority := none
  version := 1
  archived := false

theorem setFields_sets : ∃ f, f (created env line row) = imported env line row ∧
    Sets env line (fun cardId => setFields env line cardId row) (laterServices row) f := by
  have status := Sets.forM row.statusId fun statusId =>
    Sets.call env line .setCardStatus
      (fun card => { card with statusId := some statusId }) fun _ => ⟨rfl, rfl⟩
  have assignees := Sets.setWhen (row.assigneeIds.length > 0)
    (Sets.call env line .assignCard
      (fun card => { card with assigneeIds := row.assigneeIds.eraseDups }) fun _ => ⟨rfl, rfl⟩)
  have labels := Sets.setWhen (row.labelIds.length > 0)
    (Sets.call env line .setCardLabels
      (fun card => { card with labelIds := row.labelIds.eraseDups.insertionSort (· ≤ ·) })
      fun _ => ⟨rfl, rfl⟩)
  have sprint := Sets.forM row.sprintId fun sprintId =>
    Sets.call env line .assignSprint
      (fun card => { card with sprintId := some sprintId }) fun _ => ⟨rfl, rfl⟩
  have details := Sets.setWhen (row.dueDate ≠ none ∨ row.priority ≠ none)
    (setDetails_sets env line row)
  refine ⟨_, ?_, status.andThen (assignees.andThen (labels.andThen (sprint.andThen details)))⟩
  obtain ⟨title, description, statusId, assigneeIds, labelIds, dueDate, priority, listId,
    sprintId⟩ := row
  have noDetails (absent : ¬(dueDate ≠ none ∨ priority ≠ none)) :
      dueDate = none ∧ priority = none := by
    simpa using absent
  cases statusId <;> cases assigneeIds <;> cases labelIds <;> cases sprintId <;>
    by_cases present : dueDate ≠ none ∨ priority ≠ none <;>
    simp_all [created, imported, withDetails]

variable {env line row} {world : World}

theorem on_createCard (quiet : env.throws line .createCard = none) :
    on (createCard env line row.listId row.title row.description) world =
      (.ok (env.newCardId line), { world with cards := world.cards ++ [created env line row] }) :=
  on_bind_ok (on_call_none quiet)

theorem writeRow_refused {message : Text} (throws : env.throws line .createCard = some message) :
    on (writeRow env line row) world = (.error message, world) :=
  on_bind_error (on_bind_error (on_call_some throws))

section
variable (others : ∀ other ∈ world.cards, other.cardId ≠ env.newCardId line)
  (quiet : env.throws line .createCard = none)
include others quiet

/-- A row whose services all answer leaves its whole card. -/
theorem writeRow_whole (later : ∀ service ∈ laterServices row, env.throws line service = none) :
    on (writeRow env line row) world = (.ok (env.newCardId line),
      { world with cards := world.cards ++ [imported env line row] }) := by
  obtain ⟨f, whole, sets⟩ := setFields_sets env line row
  have run := sets.done later world.cards world.labels (created env line row) others
  rw [whole] at run
  rw [writeRow, on_bind_ok (on_createCard quiet)]
  exact on_bind_ok run

/-- A row that fails after `createCard` leaves a live card. -/
theorem writeRow_halfway (late : ∃ service ∈ laterServices row, env.throws line service ≠ none) :
    ∃ message card, card.cardId = env.newCardId line ∧ card.archived = false ∧
      on (writeRow env line row) world =
        (.error message, { world with cards := world.cards ++ [card] }) := by
  obtain ⟨f, -, sets⟩ := setFields_sets env line row
  obtain ⟨message, card, same, run⟩ :=
    sets.failed late world.cards world.labels (created env line row) others
  refine ⟨message, card, same.1, same.2, ?_⟩
  rw [writeRow, on_bind_ok (on_createCard quiet)]
  exact on_bind_error run

end

end

/-! ### The rows -/

section
variable (engine : Engine) (env : Environment) (vocab : ResolvedVocabulary) (dryRun tolerate : Bool)

/-- The row's card is created, and then one of its services throws. -/
def Late (line : Nat) (raw : ImportRowInput) : Prop :=
  dryRun = false ∧ ∃ row, validateRow engine raw vocab tolerate = .ok row ∧
    env.throws line .createCard = none ∧
    ∃ service ∈ laterServices row, env.throws line service ≠ none

/-- How the row on a line can end: the error that is reported, and the card that is left. -/
inductive RowResult (line : Nat) (raw : ImportRowInput) : Option Text → Option Card → Prop
  | refused (message : Text) (whole : ¬Late engine env vocab dryRun tolerate line raw) :
    RowResult line raw (some message) none
  | previewed (dry : dryRun = true) : RowResult line raw none none
  | written (row : ImportRow) (wet : dryRun = false)
    (reads : validateRow engine raw vocab tolerate = .ok row)
    (whole : ¬Late engine env vocab dryRun tolerate line raw) :
    RowResult line raw none (some (imported env line row))
  | halfway (message : Text) (card : Card)
    (late : Late engine env vocab dryRun tolerate line raw)
    (created : card.cardId = env.newCardId line) (live : card.archived = false) :
    RowResult line raw (some message) (some card)

/-- A row of the batch, and how it ended. -/
structure RowEntry where
  raw : ImportRowInput
  line : Nat
  error : Option Text
  card : Option Card

def RowEntry.reported (entry : RowEntry) : Option ImportError :=
  entry.error.map fun message => ⟨entry.line, message⟩

/-- The row counts as created. -/
def RowEntry.counted (entry : RowEntry) : Bool := entry.error.isNone && entry.card.isSome

/-- What the loop has done in these rows. -/
structure Wrote (progress progress' : Progress) (world world' : World)
    (entries : List RowEntry) : Prop where
  results : ∀ entry ∈ entries,
    RowResult engine env vocab dryRun tolerate entry.line entry.raw entry.error entry.card
  errors : progress'.rowErrors = progress.rowErrors ++ entries.filterMap RowEntry.reported
  created : progress'.created = progress.created + entries.countP RowEntry.counted
  cards : world'.cards = world.cards ++ entries.filterMap RowEntry.card

variable {engine env vocab dryRun tolerate} {line : Nat} {raw : ImportRowInput}
  {progress : Progress} {world : World}

theorem RowResult.cardId_eq {error : Option Text} {card : Card}
    (result : RowResult engine env vocab dryRun tolerate line raw error (some card)) :
    card.cardId = env.newCardId line := by
  cases result with
  | written => rfl
  | halfway message card late created live => exact created

theorem RowResult.live {error : Option Text} {card : Card}
    (result : RowResult engine env vocab dryRun tolerate line raw error (some card)) :
    card.archived = false := by
  cases result with
  | written => rfl
  | halfway message card late created live => exact live

theorem importRow_invalid {message : Text}
    (reads : validateRow engine raw vocab tolerate = .error message) :
    (importRow engine env vocab dryRun tolerate line raw progress).run world =
      ({ progress with rowErrors := progress.rowErrors ++ [⟨line, message⟩] }, world) := by
  rw [importRow, reads]
  rfl

theorem importRow_previewed {row : ImportRow}
    (reads : validateRow engine raw vocab tolerate = .ok row) :
    (importRow engine env vocab true tolerate line raw progress).run world = (progress, world) := by
  rw [importRow, reads]
  rfl

theorem importRow_written {row : ImportRow} {cardId : Id} {world' : World}
    (reads : validateRow engine raw vocab tolerate = .ok row)
    (writes : on (writeRow env line row) world = (.ok cardId, world')) :
    (importRow engine env vocab false tolerate line raw progress).run world =
      ({ progress with
          created := progress.created + 1
          placed := countPlaced progress.placed row.listId }, world') := by
  rw [importRow, reads]
  simp only [Bool.false_eq_true, if_false, StateT.run_bind]
  rw [on] at writes
  rw [writes]
  rfl

/-- Nothing is archived. -/
theorem importRow_failed {row : ImportRow} {message : Text} {world' : World}
    (reads : validateRow engine raw vocab tolerate = .ok row)
    (writes : on (writeRow env line row) world = (.error message, world')) :
    (importRow engine env vocab false tolerate line raw progress).run world =
      ({ progress with rowErrors := progress.rowErrors ++ [⟨line, message⟩] }, world') := by
  rw [importRow, reads]
  simp only [Bool.false_eq_true, if_false, StateT.run_bind]
  rw [on] at writes
  rw [writes]
  rfl

theorem wrote_one {error : Option Text} {card : Option Card} {progress' : Progress} {world' : World}
    (result : RowResult engine env vocab dryRun tolerate line raw error card)
    (errors : progress'.rowErrors =
      progress.rowErrors ++ (error.map fun message => (⟨line, message⟩ : ImportError)).toList)
    (created : progress'.created =
      progress.created + if error.isNone && card.isSome then 1 else 0)
    (cards : world'.cards = world.cards ++ card.toList) :
    Wrote engine env vocab dryRun tolerate progress progress' world world'
      [⟨raw, line, error, card⟩] where
  results := by
    intro entry mem
    obtain rfl := List.mem_singleton.mp mem
    exact result
  errors := by
    rw [errors]
    cases error <;> rfl
  created := by
    rw [created, List.countP_singleton]
    rfl
  cards := by
    rw [cards]
    cases card <;> rfl

variable (engine vocab dryRun tolerate raw progress) in
/-- One row: it ends in one of the ways of `RowResult`. -/
theorem importRow_spec (others : ∀ other ∈ world.cards, other.cardId ≠ env.newCardId line) :
    ∃ error card progress' world',
      (importRow engine env vocab dryRun tolerate line raw progress).run world =
        (progress', world') ∧
      Wrote engine env vocab dryRun tolerate progress progress' world world'
        [⟨raw, line, error, card⟩] := by
  cases reads : validateRow engine raw vocab tolerate with
  | error message =>
    have whole : ¬Late engine env vocab dryRun tolerate line raw := by
      rintro ⟨-, row, reads', -⟩
      simp [reads] at reads'
    exact ⟨_, _, _, _, importRow_invalid reads,
      wrote_one (.refused message whole) rfl rfl (by simp)⟩
  | ok row =>
    cases dry : dryRun with
    | true =>
      exact ⟨_, _, _, _, importRow_previewed reads,
        wrote_one (.previewed rfl) (by simp) rfl (by simp)⟩
    | false =>
      cases quiet : env.throws line .createCard with
      | some message =>
        have whole : ¬Late engine env vocab false tolerate line raw := by
          rintro ⟨-, row, -, quiet', -⟩
          simp [quiet] at quiet'
        exact ⟨_, _, _, _, importRow_failed reads (writeRow_refused quiet),
          wrote_one (.refused message whole) rfl rfl (by simp)⟩
      | none =>
        by_cases late : ∃ service ∈ laterServices row, env.throws line service ≠ none
        · obtain ⟨message, card, created, live, writes⟩ := writeRow_halfway others quiet late
          exact ⟨_, _, _, _, importRow_failed reads writes,
            wrote_one (.halfway message card ⟨rfl, row, reads, quiet, late⟩ created live)
              rfl rfl rfl⟩
        · have whole : ¬Late engine env vocab false tolerate line raw := by
            rintro ⟨-, row', reads', -, late'⟩
            obtain rfl : row = row' := by simpa [reads] using reads'
            exact late late'
          have later : ∀ service ∈ laterServices row, env.throws line service = none := by
            intro service mem
            by_contra throws
            exact late ⟨service, mem, throws⟩
          exact ⟨_, _, _, _, importRow_written reads (writeRow_whole others quiet later),
            wrote_one (.written row rfl reads whole) (by simp) rfl rfl⟩

theorem Wrote.append {progress₁ progress₂ progress₃ : Progress} {world₁ world₂ world₃ : World}
    {entries more : List RowEntry}
    (first : Wrote engine env vocab dryRun tolerate progress₁ progress₂ world₁ world₂ entries)
    (second : Wrote engine env vocab dryRun tolerate progress₂ progress₃ world₂ world₃ more) :
    Wrote engine env vocab dryRun tolerate progress₁ progress₃ world₁ world₃ (entries ++ more) where
  results := by
    intro entry mem
    rcases List.mem_append.mp mem with mem | mem
    · exact first.results entry mem
    · exact second.results entry mem
  errors := by rw [second.errors, first.errors, List.filterMap_append, List.append_assoc]
  created := by
    rw [second.created, first.created, List.countP_append]
    omega
  cards := by rw [second.cards, first.cards, List.filterMap_append, List.append_assoc]

/-- The whole loop, a row at a time. -/
theorem importRows_spec (newIds : Function.Injective env.newCardId) {rows : List ImportRowInput} :
    ∀ (line : Nat) (progress : Progress) (world : World),
    (∀ later, line ≤ later → ∀ other ∈ world.cards, other.cardId ≠ env.newCardId later) →
    ∃ entries progress' world',
      (importRows engine env vocab dryRun tolerate line rows progress).run world =
        (progress', world') ∧
      Wrote engine env vocab dryRun tolerate progress progress' world world' entries ∧
      entries.map (fun entry => (entry.raw, entry.line)) = rows.zipIdx line := by
  induction rows with
  | nil =>
    intro line progress world _
    exact ⟨[], progress, world, rfl, ⟨by simp, by simp, rfl, by simp⟩, rfl⟩
  | cons raw rows ih =>
    intro line progress world others
    obtain ⟨error, card, progress₁, world₁, run, wrote⟩ := importRow_spec engine vocab dryRun
      tolerate raw progress (others line le_rfl)
    have others₁ : ∀ later, line + 1 ≤ later → ∀ other ∈ world₁.cards,
        other.cardId ≠ env.newCardId later := by
      intro later past other mem same
      rw [wrote.cards] at mem
      rcases List.mem_append.mp mem with mem | mem
      · exact others later (by omega) other mem same
      · obtain ⟨entry, isEntry, isCard⟩ := List.mem_filterMap.mp mem
        have result := wrote.results entry isEntry
        rw [isCard] at result
        obtain rfl := List.mem_singleton.mp isEntry
        have : line = later := newIds (result.cardId_eq.symm.trans same)
        omega
    obtain ⟨entries, progress₂, world₂, run', wrote', lines⟩ := ih _ progress₁ _ others₁
    refine ⟨⟨raw, line, error, card⟩ :: entries, progress₂, world₂, ?_, wrote.append wrote', ?_⟩
    · rw [importRows, StateT.run_bind, run]
      exact run'
    · rw [List.map_cons, lines, List.zipIdx_cons]

end

/-! ### The labels -/

section
variable (engine : Engine) (env : Environment)

/-- The vocabulary with the labels added. -/
def withLabels (index : Nat) : List Text → ResolvedVocabulary → ResolvedVocabulary
  | [], vocab => vocab
  | name :: names, vocab =>
    withLabels (index + 1) names
      { vocab with labels := vocab.labels.add engine name (env.newLabelId index) }

/-- The vocabulary the rows are read with. -/
def rowVocabulary (input : ImportInput) (vocab : ResolvedVocabulary) : ResolvedVocabulary :=
  if input.createMissingLabels ∧ ¬input.dryRun then
    withLabels engine env 0 (missingLabels engine vocab input.rows) vocab
  else vocab

variable {engine env}

theorem createLabels_spec {names : List Text} :
    ∀ (index : Nat) (vocab : ResolvedVocabulary) (world : World), ∃ answer labels,
      on (createLabels engine env index names vocab) world = (answer, ⟨world.cards, labels⟩) ∧
      ∀ vocab', answer = .ok vocab' → vocab' = withLabels engine env index names vocab := by
  induction names with
  | nil =>
    intro index vocab world
    refine ⟨.ok vocab, world.labels, rfl, ?_⟩
    rintro vocab' ⟨⟩
    rfl
  | cons name names ih =>
    intro index vocab world
    cases throws : env.throwsLabel index with
    | some message =>
      refine ⟨.error message, world.labels, ?_, by simp⟩
      rw [createLabels, throws]
      rfl
    | none =>
      obtain ⟨answer, labels, run, reads⟩ := ih (index + 1)
        { vocab with labels := vocab.labels.add engine name (env.newLabelId index) }
        { world with labels := world.labels ++ [⟨env.newLabelId index, name,
          (IMPORT_LABEL_COLORS[index % IMPORT_LABEL_COLORS.length]?).getD "#64748b"⟩] }
      refine ⟨answer, labels, ?_, reads⟩
      rw [createLabels, throws]
      exact run

theorem importVocabulary_spec (input : ImportInput) (vocab : ResolvedVocabulary) (world : World) :
    ∃ answer labels,
      on (importVocabulary engine env input vocab) world = (answer, ⟨world.cards, labels⟩) ∧
      ∀ vocab', answer = .ok vocab' → vocab' = rowVocabulary engine env input vocab := by
  unfold importVocabulary rowVocabulary
  split
  · exact createLabels_spec _ _ _
  · refine ⟨.ok vocab, world.labels, rfl, ?_⟩
    rintro vocab' ⟨⟩
    rfl

end

/-! ### The import -/

section
variable (engine : Engine) (env : Environment) (input : ImportInput)

/-- The new ids are new, and differ. -/
structure Fresh (world : World) : Prop where
  newIds : Function.Injective env.newCardId
  unused : ∀ line, ∀ card ∈ world.cards, card.cardId ≠ env.newCardId line

/-- Unknown labels are passed over. -/
def ImportInput.tolerates : Bool := input.createMissingLabels && input.dryRun

/-- The import is atomic by row. -/
structure Atomic (vocab : ResolvedVocabulary) (world world' : World) (result : ImportResult) :
    Prop where
  /-- A row reported as an error has no live card. -/
  undone : ∀ error ∈ result.errors, ∀ card ∈ world'.cards,
    card.cardId = env.newCardId error.line → card.archived = true
  /-- Every other row has its whole card. -/
  whole : input.dryRun = false → ∀ entry ∈ input.rows.zipIdx 1,
    entry.2 ∉ result.errors.map ImportError.line →
    ∃ row, validateRow engine entry.1 vocab input.tolerates = .ok row ∧
      imported env entry.2 row ∈ world'.cards
  /-- What the board had is as it was. -/
  kept : ∀ card ∈ world.cards, card ∈ world'.cards
  /-- As many are counted as there are live cards that were not there before. -/
  counted : result.created = world'.cards.countP fun card =>
    !card.archived && card.cardId ∉ world.cards.map Card.cardId

/-- No service throws once the card of a row is created. -/
def NoLateFailure (vocab : ResolvedVocabulary) : Prop :=
  ∀ entry ∈ input.rows.zipIdx 1,
    ¬Late engine env vocab input.dryRun input.tolerates entry.2 entry.1

variable {engine env input} {vocab : ResolvedVocabulary} {world world' : World}
  {progress : Progress} {entries : List RowEntry}

theorem mem_lines (lines : entries.map (fun entry => (entry.raw, entry.line)) = input.rows.zipIdx 1)
    {entry : RowEntry} (mem : entry ∈ entries) : (entry.raw, entry.line) ∈ input.rows.zipIdx 1 := by
  rw [← lines]
  exact List.mem_map_of_mem mem

/-- Entries on one line are the same. -/
theorem line_inj (lines : entries.map (fun entry => (entry.raw, entry.line)) = input.rows.zipIdx 1)
    {entry other : RowEntry} (mem : entry ∈ entries) (mem' : other ∈ entries)
    (same : entry.line = other.line) : entry = other := by
  have nodup : (entries.map RowEntry.line).Nodup := by
    have := congrArg (List.map Prod.snd) lines
    rw [List.map_map, List.zipIdx_map_snd] at this
    rw [show entries.map RowEntry.line = _ from this]
    exact List.nodup_range'
  exact List.inj_on_of_nodup_map nodup mem mem' same

theorem RowResult.isNone_and_isSome {dryRun tolerate : Bool} {line : Nat} {raw : ImportRowInput}
    {error : Option Text} {card : Option Card}
    (result : RowResult engine env vocab dryRun tolerate line raw error card)
    (whole : ¬Late engine env vocab dryRun tolerate line raw) :
    (error.isNone && card.isSome) = card.isSome := by
  cases result with
  | halfway message card late => exact absurd late whole
  | refused => rfl
  | previewed => rfl
  | written => rfl

section
variable (fresh : Fresh env world)
  (wrote : Wrote engine env vocab input.dryRun input.tolerates ⟨[], [], 0⟩ progress world world'
    entries)
  (lines : entries.map (fun entry => (entry.raw, entry.line)) = input.rows.zipIdx 1)
include wrote

theorem Wrote.mem_cards {card : Card} : card ∈ world'.cards ↔
    card ∈ world.cards ∨ ∃ entry ∈ entries, entry.card = some card := by
  rw [wrote.cards, List.mem_append, List.mem_filterMap]

theorem Wrote.cardId_eq {entry : RowEntry} {card : Card} (mem : entry ∈ entries)
    (isCard : entry.card = some card) : card.cardId = env.newCardId entry.line := by
  have result := wrote.results entry mem
  rw [isCard] at result
  exact result.cardId_eq

include lines in
theorem noLateFailure_of_atomic {result : ImportResult}
    (errors : result.errors = progress.rowErrors)
    (atomic : Atomic engine env input vocab world world' result) :
    NoLateFailure engine env input vocab := by
  intro row mem late
  rw [← lines] at mem
  obtain ⟨entry, isEntry, rfl⟩ := List.mem_map.mp mem
  have result' := wrote.results entry isEntry
  obtain ⟨raw, line, error, card⟩ := entry
  dsimp only at result' late
  cases result' with
  | refused message whole => exact whole late
  | previewed dry => simp [late.1] at dry
  | written row wet reads whole => exact whole late
  | halfway message card late created live =>
    have reported : (⟨line, message⟩ : ImportError) ∈ result.errors := by
      rw [errors, wrote.errors, List.nil_append]
      exact List.mem_filterMap.mpr ⟨_, isEntry, rfl⟩
    have archived := atomic.undone _ reported card
      ((wrote.mem_cards).mpr (.inr ⟨_, isEntry, rfl⟩)) created
    simp [live] at archived

include fresh

/-- The live cards that are new are those of the entries. -/
theorem Wrote.count_live : world'.cards.countP (fun card =>
    !card.archived && card.cardId ∉ world.cards.map Card.cardId) =
      entries.countP fun entry => entry.card.isSome := by
  have old : world.cards.countP (fun card =>
      !card.archived && card.cardId ∉ world.cards.map Card.cardId) = 0 := by
    rw [List.countP_eq_zero]
    intro card mem live
    simp only [Bool.and_eq_true, decide_eq_true_eq] at live
    exact live.2 (List.mem_map_of_mem mem)
  have new : (entries.filterMap RowEntry.card).countP (fun card =>
      !card.archived && card.cardId ∉ world.cards.map Card.cardId) =
      (entries.filterMap RowEntry.card).length := by
    rw [List.countP_eq_length]
    intro card mem
    obtain ⟨entry, isEntry, isCard⟩ := List.mem_filterMap.mp mem
    have result := wrote.results entry isEntry
    rw [isCard] at result
    have unused : card.cardId ∉ world.cards.map Card.cardId := by
      intro used
      obtain ⟨other, isOld, same⟩ := List.mem_map.mp used
      exact fresh.unused entry.line other isOld (same.trans result.cardId_eq)
    simp only [result.live, unused, Bool.not_false, not_false_eq_true, decide_true, Bool.and_self]
  rw [wrote.cards, List.countP_append, old, new, Nat.zero_add, List.length_filterMap_eq_countP]

include lines

theorem atomic_of_noLateFailure {result : ImportResult}
    (errors : result.errors = progress.rowErrors)
    (counts : result.created = progress.created) (noLate : NoLateFailure engine env input vocab) :
    Atomic engine env input vocab world world' result := by
  have reported : result.errors = entries.filterMap RowEntry.reported := by
    rw [errors, wrote.errors, List.nil_append]
  refine ⟨?_, ?_, ?_, ?_⟩
  · intro error mem card isCard same
    rw [reported] at mem
    obtain ⟨entry, isEntry, isError⟩ := List.mem_filterMap.mp mem
    obtain ⟨message, isMessage, rfl⟩ := Option.map_eq_some_iff.mp isError
    rcases (wrote.mem_cards).mp isCard with old | ⟨other, isOther, isCard⟩
    · exact absurd same (fresh.unused _ card old)
    · -- the entry of the card is the one of the error
      have sameLine : other.line = entry.line :=
        fresh.newIds ((wrote.cardId_eq isOther isCard).symm.trans same)
      obtain rfl := line_inj lines isOther isEntry sameLine
      have result := wrote.results other isOther
      rw [isMessage, isCard] at result
      cases result with
      | halfway message card late => exact absurd late (noLate _ (mem_lines lines isOther))
  · intro wet row mem unreported
    rw [← lines] at mem
    obtain ⟨entry, isEntry, rfl⟩ := List.mem_map.mp mem
    have result := wrote.results entry isEntry
    have noError : entry.error = none := by
      cases isError : entry.error with
      | none => rfl
      | some message =>
        refine absurd (List.mem_map_of_mem (f := ImportError.line) (a := ⟨entry.line, message⟩) ?_)
          unreported
        rw [reported]
        exact List.mem_filterMap.mpr ⟨entry, isEntry, by rw [RowEntry.reported, isError]; rfl⟩
    rw [noError] at result
    cases isCard : entry.card with
    | none =>
      rw [isCard] at result
      cases result with
      | previewed dry => simp [wet] at dry
    | some card =>
      rw [isCard] at result
      cases result with
      | written row wet reads whole =>
        exact ⟨row, reads, (wrote.mem_cards).mpr (.inr ⟨entry, isEntry, isCard⟩)⟩
  · exact fun card mem => (wrote.mem_cards).mpr (.inl mem)
  · rw [wrote.count_live fresh, counts, wrote.created, Nat.zero_add]
    apply List.countP_congr
    intro entry mem
    rw [RowEntry.counted,
      (wrote.results entry mem).isNone_and_isSome (noLate _ (mem_lines lines mem))]

end

variable (engine env input world) in
/-- An import that throws leaves the cards as they were; one that answers has written its rows. -/
theorem importCards_spec :
    ∃ answer world', on (importCards engine env input) world = (answer, world') ∧
      ((∃ message, answer = .error message ∧ world'.cards = world.cards) ∨
        ∃ vocab labels progress result, env.vocabulary = .ok vocab ∧ answer = .ok result ∧
          (importRows engine env (rowVocabulary engine env input vocab) input.dryRun
            input.tolerates 1 input.rows ⟨[], [], 0⟩).run ⟨world.cards, labels⟩ =
              (progress, world') ∧
          result.errors = progress.rowErrors ∧ result.created = progress.created) := by
  by_cases size : input.rows.length < 1 ∨ MAX_IMPORT_ROWS < input.rows.length
  · refine ⟨.error "That batch is the wrong size.".toList, world, ?_, .inl ⟨_, rfl, rfl⟩⟩
    rw [importCards, if_pos size]
    rfl
  · cases reads : env.vocabulary with
    | error message =>
      refine ⟨.error message, world, ?_, .inl ⟨_, rfl, rfl⟩⟩
      rw [importCards, if_neg size, reads]
      rfl
    | ok vocab =>
      obtain ⟨answer, labels, run, isRow⟩ := importVocabulary_spec input vocab world
      cases answer with
      | error message =>
        refine ⟨.error message, ⟨world.cards, labels⟩, ?_, .inl ⟨_, rfl, rfl⟩⟩
        rw [importCards, if_neg size, reads, on_bind_ok on_liftM]
        exact on_bind_error run
      | ok vocab' =>
        obtain rfl := isRow vocab' rfl
        obtain ⟨progress, world', rows⟩ : ∃ progress world',
            (importRows engine env (rowVocabulary engine env input vocab) input.dryRun
              input.tolerates 1 input.rows ⟨[], [], 0⟩).run ⟨world.cards, labels⟩ =
                (progress, world') := ⟨_, _, rfl⟩
        refine ⟨.ok ⟨progress.created, progress.rowErrors, missingLabels engine vocab input.rows,
          createdByList (rowVocabulary engine env input vocab) progress.placed⟩, world', ?_,
          .inr ⟨vocab, labels, progress, _, rfl, rfl, rows, rfl, rfl⟩⟩
        rw [importCards, if_neg size, reads, on_bind_ok on_liftM, on_bind_ok run]
        exact on_bind_ok (on_lift rows)

/-- **An import is atomic by row just when no service throws after the `createCard` of its row.** -/
theorem import_atomic_iff (fresh : Fresh env world) :
    (∀ message world', on (importCards engine env input) world = (.error message, world') →
      world'.cards = world.cards) ∧
    ∀ result world', on (importCards engine env input) world = (.ok result, world') →
      ∃ vocab, env.vocabulary = .ok vocab ∧
        (Atomic engine env input (rowVocabulary engine env input vocab) world world' result ↔
          NoLateFailure engine env input (rowVocabulary engine env input vocab)) := by
  obtain ⟨answer, world', run, outcome⟩ := importCards_spec engine env input world
  constructor
  · intro message world'' run'
    obtain ⟨rfl, rfl⟩ := Prod.mk.inj (run.symm.trans run')
    rcases outcome with ⟨-, -, cards⟩ | ⟨_, _, _, _, _, answers, _⟩
    · exact cards
    · cases answers
  · intro result world'' run'
    obtain ⟨rfl, rfl⟩ := Prod.mk.inj (run.symm.trans run')
    rcases outcome with ⟨_, answers, _⟩ | ⟨vocab, labels, progress, result, reads, answers, rows,
      errors, counts⟩
    · cases answers
    · cases answers
      have others : ∀ later, 1 ≤ later → ∀ other ∈ world.cards,
          other.cardId ≠ env.newCardId later := fun later _ => fresh.unused later
      obtain ⟨entries, progress', world₂, rows', wrote, lines⟩ := importRows_spec
        fresh.newIds _ _ ⟨world.cards, labels⟩ others
      obtain ⟨rfl, rfl⟩ := Prod.mk.inj (rows.symm.trans rows')
      have wrote : Wrote engine env (rowVocabulary engine env input vocab) input.dryRun
          input.tolerates ⟨[], [], 0⟩ progress world world' entries :=
        ⟨wrote.results, wrote.errors, wrote.created, wrote.cards⟩
      exact ⟨vocab, reads, noLateFailure_of_atomic wrote lines errors,
        atomic_of_noLateFailure fresh wrote lines errors counts⟩

end

/-! ### Two rows -/

def twoRows : ImportInput where
  rows := [{ title := some (.text "Fix it".toList), status := some (.text "Done".toList) },
    { title := some (.text "Ship it".toList) }]
  dryRun := false
  createMissingLabels := false

def oneStatus : ResolvedVocabulary where
  listId := "list"
  projectId := "project"
  statuses := NameLookup.ofEntries Engine.ascii [⟨"done", "Done".toList⟩]
  labels := ⟨[], []⟩
  lists := ⟨[], []⟩
  listNames := [("list", "Inbox".toList)]
  sprints := ⟨[], []⟩
  closedSprintNames := []
  members := []

/-- The services throw as told. -/
def boardWith (throws : Nat → Service → Option Text) : Environment where
  vocabulary := .ok oneStatus
  defaultStatus := none
  newCardId := fun line => String.ofList (List.replicate line 'c')
  newLabelId := fun index => String.ofList (List.replicate index 'l')
  throws := throws
  throwsLabel := fun _ => none

/-- The status is deleted between the read of the vocabulary and the write of the first row. -/
def statusDeleted : Environment :=
  boardWith fun line service =>
    if line = 1 ∧ service = .setCardStatus then some "Not found.".toList else none

theorem fresh_boardWith (throws : Nat → Service → Option Text) :
    Fresh (boardWith throws) ⟨[], []⟩ where
  newIds := by
    intro m n same
    have := congrArg List.length (String.ofList_injective same)
    simpa using this
  unused := by simp

def fixIt : Card := imported (boardWith fun _ _ => none) 1
  ⟨"Fix it".toList, none, some "done", [], [], none, none, "list", none⟩

def shipIt : Card := imported (boardWith fun _ _ => none) 2
  ⟨"Ship it".toList, none, none, [], [], none, none, "list", none⟩

/-- The card of the first row is left without its status, on the board. -/
theorem halfway_card_stays :
    on (importCards Engine.ascii statusDeleted twoRows) ⟨[], []⟩ =
      (.ok ⟨1, [⟨1, "Not found.".toList⟩], [], [⟨"list", "Inbox".toList, 1⟩]⟩,
        ⟨[{ fixIt with statusId := none }, shipIt], []⟩) ∧
    ¬Atomic Engine.ascii statusDeleted twoRows oneStatus ⟨[], []⟩
      ⟨[{ fixIt with statusId := none }, shipIt], []⟩
      ⟨1, [⟨1, "Not found.".toList⟩], [], [⟨"list", "Inbox".toList, 1⟩]⟩ := by
  refine ⟨by decide, fun atomic => ?_⟩
  have archived := atomic.undone ⟨1, "Not found.".toList⟩ (by simp) { fixIt with statusId := none }
    (by simp) (by decide)
  exact absurd archived (by decide)

theorem atomic_twoRows :
    Atomic Engine.ascii (boardWith fun _ _ => none) twoRows oneStatus ⟨[], []⟩
      ⟨[fixIt, shipIt], []⟩ ⟨2, [], [], [⟨"list", "Inbox".toList, 2⟩]⟩ := by
  have run : on (importCards Engine.ascii (boardWith fun _ _ => none) twoRows) ⟨[], []⟩ =
      (.ok ⟨2, [], [], [⟨"list", "Inbox".toList, 2⟩]⟩, ⟨[fixIt, shipIt], []⟩) := by
    decide
  obtain ⟨vocab, reads, atomic⟩ := (import_atomic_iff (fresh_boardWith _)).2 _ _ run
  obtain rfl : oneStatus = vocab := by simpa [boardWith] using reads
  exact atomic.mpr (by rintro entry - ⟨-, row, -, -, service, -, throws⟩; exact throws rfl)

end CardImport
end TaskFlow
