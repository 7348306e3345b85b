import TaskFlow.WorkLogic

/-! # The counters of a card

A card carries the number of its comments, of its checklist items and of the items that are
done.  A service that changes a child of a card counts the children again and writes what it
has counted.  The count sees what is committed and what the transaction itself has done, so
it misses a child that another transaction is about to commit; and a duplicate copies the
counters with the cards, but neither the comments nor, for its items, the card.

`Counted` says that the counters are right and what that rests on, and `Touch` what a
transaction may make of a slot: `Counted.touch` is the one argument why a commit that recounts
what it has changed keeps the counters right.  The rules for the statements of the services
follow.
-/
namespace TaskFlow
namespace CardCounters
open ReadCommitted ReadCommitted.Script ReadCommitted.Procedure WorkTables WorkScripts

/-! ### What is counted -/

/-- Comments and checklist items are counted apart. -/
inductive Kind where
  | comments
  | items
  deriving DecidableEq

/-- The counters of a card: how many, and how many of them are done. -/
def CardRow.counter (card : CardRow) : Kind → Nat × Nat
  | .comments => (card.commentCount, 0)
  | .items => (card.checklistTotal, card.checklistDone)

/-- What the counters should be. -/
def count (db : Tables) (cardId : Id) : Kind → Nat × Nat
  | .comments => ((db.commentsOn cardId).length, 0)
  | .items => ((db.itemsOn cardId).length, (db.itemsOn cardId).countP (·.done))

/-- The key of a counted row. -/
def Kind.key : Kind → Id → Key
  | .comments, id => .comment id
  | .items, id => .checklistItem id

/-- The row in the slot, if it counts for the card; with whether it is done. -/
def Slot.counts (slot : Slot) (cardId : Id) : Kind → Option Bool
  | .comments => ((slot.row?.bind Row.comment?).filter fun row =>
      row.cardId = cardId ∧ row.deletedAt = none).map fun _ => false
  | .items => ((slot.row?.bind Row.checklistItem?).filter fun row =>
      row.cardId = cardId).map (·.done)

/-- The counters of the card, if it is in the slot. -/
def Slot.counter (slot : Slot) (cardId : Id) (kind : Kind) : Option (Nat × Nat) :=
  ((slot.row?.bind Row.card?).filter (·.id = cardId)).map fun card => CardRow.counter card kind

/-- The card that a row is or hangs on, also after the row is deleted. -/
def Slot.home? : Slot → Option Id
  | .live (.card card) => some card.id
  | .live (.comment row) | .deleted (.comment row) => some row.cardId
  | .live (.checklist row) | .deleted (.checklist row) => some row.cardId
  | .live (.checklistItem row) | .deleted (.checklistItem row) => some row.cardId
  | _ => none

/-- The checklist and the card of the item in the slot. -/
def Slot.item? (slot : Slot) : Option (Id × Id) :=
  (slot.row?.bind Row.checklistItem?).map fun item => (item.checklistId, item.cardId)

@[simp] theorem counts_comment (comment : CommentRow) (cardId : Id) :
    Slot.counts (.live (.comment comment)) cardId .comments =
      if comment.cardId = cardId ∧ comment.deletedAt = none then some false else none := by
  by_cases h : comment.cardId = cardId ∧ comment.deletedAt = none <;>
    simp [Slot.counts, Slot.row?, Row.comment?, Option.filter, h]

@[simp] theorem counts_item (item : ChecklistItemRow) (cardId : Id) :
    Slot.counts (.live (.checklistItem item)) cardId .items =
      if item.cardId = cardId then some item.done else none := by
  by_cases h : item.cardId = cardId <;>
    simp [Slot.counts, Slot.row?, Row.checklistItem?, Option.filter, h]

@[simp] theorem counter_card (card : CardRow) (cardId : Id) (kind : Kind) :
    Slot.counter (.live (.card card)) cardId kind =
      if card.id = cardId then some (CardRow.counter card kind) else none := by
  by_cases h : card.id = cardId <;>
    simp [Slot.counter, Slot.row?, Row.card?, Option.filter, h]

theorem count_eq (rows : Rows) (ids : List Id) (cardId : Id) (kind : Kind) :
    count (Rows.tables rows ids) cardId kind =
      let counted := ids.filterMap fun id => Slot.counts (rows (kind.key id)) cardId kind
      (counted.length, counted.countP id) := by
  cases kind with
  | comments =>
    have hlist : (ids.filterMap fun id => Slot.counts (rows (.comment id)) cardId .comments) =
        ((Rows.tables rows ids).commentsOn cardId).map fun _ => false := by
      simp only [Tables.commentsOn, Rows.tables, List.filter_filterMap, List.map_filterMap]
      rfl
    have hnone : (((Rows.tables rows ids).commentsOn cardId).map fun _ => false).countP id = 0 := by
      simp [List.countP_eq_zero]
    show ((_, 0) : Nat × Nat) = (List.length _, List.countP _ _)
    rw [show (fun id => Slot.counts (rows (Kind.comments.key id)) cardId .comments) =
      fun id => Slot.counts (rows (.comment id)) cardId .comments from rfl, hlist, hnone,
      List.length_map]
  | items =>
    have hlist : (ids.filterMap fun id => Slot.counts (rows (.checklistItem id)) cardId .items) =
        ((Rows.tables rows ids).itemsOn cardId).map (·.done) := by
      simp only [Tables.itemsOn, Rows.tables, List.filter_filterMap, List.map_filterMap]
      rfl
    show ((_, _) : Nat × Nat) = (List.length _, List.countP _ _)
    rw [show (fun id => Slot.counts (rows (Kind.items.key id)) cardId .items) =
      fun id => Slot.counts (rows (.checklistItem id)) cardId .items from rfl, hlist,
      List.length_map, List.countP_map]
    rfl

/-- A count is of the rows that count. -/
theorem count_congr {rows rows' : Rows} {ids : List Id} {cardId : Id} {kind : Kind}
    (h : ∀ id, Slot.counts (rows' (kind.key id)) cardId kind =
      Slot.counts (rows (kind.key id)) cardId kind) :
    count (Rows.tables rows' ids) cardId kind = count (Rows.tables rows ids) cardId kind := by
  rw [count_eq, count_eq]
  simp only [h]

/-- Nothing is counted where no row counts. -/
theorem count_eq_zero {rows : Rows} {ids : List Id} {cardId : Id} {kind : Kind}
    (h : ∀ id, Slot.counts (rows (kind.key id)) cardId kind = none) :
    count (Rows.tables rows ids) cardId kind = (0, 0) := by
  rw [count_eq]
  simp [h]

/-! ### The invariant -/

/-- The counters are right, and what they rest on: every row is known to the queries, a row
that counts for a card has that card, and an item is on a checklist of its card. -/
structure Counted (ids : List Id) (rows : Rows) : Prop where
  keyed : ∀ key, (rows key).Keyed key
  known : ∀ key row, rows key = .live row → key.within ids = true
  bound : ∀ key cardId kind, Slot.counts (rows key) cardId kind ≠ none →
    Slot.home? (rows (.card cardId)) = some cardId
  items : ∀ key checklistId cardId, Slot.item? (rows key) = some (checklistId, cardId) →
    Slot.home? (rows (.checklist checklistId)) = some cardId
  counters : ∀ key cardId kind counted, Slot.counter (rows key) cardId kind = some counted →
    counted = count (Rows.tables rows ids) cardId kind

/-- What a transaction makes of a slot, when it may change the counts and the counters of
these kinds and cards, and place items on these checklists of these cards. -/
structure Touch (ids : List Id) (touched : Kind → Id → Prop) (mine : Id → Id → Prop) (key : Key)
    (slot slot' : Slot) : Prop where
  keyed : slot.Keyed key → slot'.Keyed key
  known : (∀ row, slot = .live row → key.within ids = true) →
    ∀ row, slot' = .live row → key.within ids = true
  home : ∀ cardId, Slot.home? slot = some cardId → Slot.home? slot' = some cardId
  counts : ∀ cardId kind, ¬touched kind cardId →
    Slot.counts slot' cardId kind = Slot.counts slot cardId kind
  counter : ∀ cardId kind, ¬touched kind cardId →
    Slot.counter slot' cardId kind = Slot.counter slot cardId kind
  items : ∀ checklistId cardId, Slot.item? slot' = some (checklistId, cardId) →
    Slot.item? slot = some (checklistId, cardId) ∨ mine checklistId cardId

section
variable {ids : List Id} {touched : Kind → Id → Prop} {mine : Id → Id → Prop} {key : Key}
  {slot slot' slot'' : Slot} {rows rows' : Rows}

theorem Touch.refl (key : Key) (slot : Slot) : Touch ids touched mine key slot slot where
  keyed := fun h => h
  known := fun h => h
  home := fun _ h => h
  counts := fun _ _ _ => rfl
  counter := fun _ _ _ => rfl
  items := fun _ _ h => .inl h

theorem Touch.trans (h : Touch ids touched mine key slot slot')
    (h' : Touch ids touched mine key slot' slot'') : Touch ids touched mine key slot slot'' where
  keyed := fun hslot => h'.keyed (h.keyed hslot)
  known := fun hslot => h'.known (h.known hslot)
  home := fun cardId hhome => h'.home cardId (h.home cardId hhome)
  counts := fun cardId kind hnot =>
    (h'.counts cardId kind hnot).trans (h.counts cardId kind hnot)
  counter := fun cardId kind hnot =>
    (h'.counter cardId kind hnot).trans (h.counter cardId kind hnot)
  items := by
    intro checklistId cardId hitem
    rcases h'.items checklistId cardId hitem with hold | hmine
    · exact h.items checklistId cardId hold
    · exact .inr hmine

/-- **The counters stay right** where those that are touched are: every other card has the
counters and the counted rows it had. -/
theorem Counted.touch (h : Counted ids rows)
    (htouch : ∀ key, Touch ids touched mine key (rows key) (rows' key))
    (hhome : ∀ kind cardId, touched kind cardId →
      Slot.home? (rows' (.card cardId)) = some cardId)
    (hmine : ∀ checklistId cardId, mine checklistId cardId →
      Slot.home? (rows' (.checklist checklistId)) = some cardId)
    (hright : ∀ key kind cardId counted, touched kind cardId →
      Slot.counter (rows' key) cardId kind = some counted →
      counted = count (Rows.tables rows' ids) cardId kind) : Counted ids rows' where
  keyed := fun key => (htouch key).keyed (h.keyed key)
  known := fun key => (htouch key).known (h.known key)
  bound := by
    intro key cardId kind hcounts
    by_cases htouched : touched kind cardId
    · exact hhome kind cardId htouched
    · rw [(htouch key).counts cardId kind htouched] at hcounts
      exact (htouch _).home cardId (h.bound key cardId kind hcounts)
  items := by
    intro key checklistId cardId hitem
    rcases (htouch key).items checklistId cardId hitem with hold | hnew
    · exact (htouch _).home cardId (h.items key checklistId cardId hold)
    · exact hmine checklistId cardId hnew
  counters := by
    intro key cardId kind counted hcounter
    by_cases htouched : touched kind cardId
    · exact hright key kind cardId counted htouched hcounter
    · rw [(htouch key).counter cardId kind htouched] at hcounter
      rw [h.counters key cardId kind counted hcounter]
      exact (count_congr fun id => (htouch _).counts cardId kind htouched).symm

/-! ### What statements make of a slot -/

/-- The kind of count and the card that a recount is for. -/
def Only (kind : Kind) (cardId : Id) (kind' : Kind) (cardId' : Id) : Prop :=
  kind' = kind ∧ cardId' = cardId

/-- A row under an unused key. -/
theorem touch_insert {row : Row} (hwithin : row.key.within ids = true)
    (hcounts : ∀ cardId kind, Slot.counts (.live row) cardId kind ≠ none → touched kind cardId)
    (hcounter : ∀ cardId kind, Slot.counter (.live row) cardId kind ≠ none →
      touched kind cardId)
    (hitem : ∀ checklistId cardId, Slot.item? (.live row) = some (checklistId, cardId) →
      mine checklistId cardId) : Touch ids touched mine row.key .empty (.live row) where
  keyed := fun _ => rfl
  known := fun _ _ _ => hwithin
  home := fun _ h => absurd h (by simp [Slot.home?])
  counts := by
    intro cardId kind hnot
    by_contra hne
    refine hnot (hcounts cardId kind fun hnone => hne ?_)
    rw [hnone]
    cases kind <;> rfl
  counter := by
    intro cardId kind hnot
    by_contra hne
    refine hnot (hcounter cardId kind fun hnone => hne ?_)
    rw [hnone]
    rfl
  items := fun checklistId cardId h => .inr (hitem checklistId cardId h)

/-- A deleted row that is no card. -/
theorem touch_delete {row : Row} (hcard : row.card? = none)
    (hcounts : ∀ cardId kind, Slot.counts (.live row) cardId kind ≠ none → touched kind cardId) :
    Touch ids touched mine key (.live row) (.deleted row) where
  keyed := fun h => h
  known := fun _ _ h => absurd h (by simp)
  home := by
    intro cardId h
    cases row <;> first | exact h | exact absurd hcard (by simp [Row.card?])
  counts := by
    intro cardId kind hnot
    by_contra hne
    refine hnot (hcounts cardId kind fun hnone => hne ?_)
    rw [hnone]
    cases kind <;> rfl
  counter := by
    intro cardId kind _
    simp [Slot.counter, Slot.row?, hcard]
  items := fun _ _ h => absurd h (by simp [Slot.item?, Slot.row?])

theorem touch_card {card card' : CardRow} (hid : card'.id = card.id)
    (hcounter : ∀ kind, ¬touched kind card.id →
      CardRow.counter card' kind = CardRow.counter card kind) :
    Touch ids touched mine key (.live (.card card)) (.live (.card card')) where
  keyed := fun h => (congrArg Key.card hid).trans h
  known := fun h _ _ => h _ rfl
  home := fun cardId h => (congrArg some hid).trans h
  counts := fun _ kind _ => by cases kind <;> rfl
  counter := by
    intro cardId kind hnot
    rw [counter_card, counter_card, hid]
    by_cases hcard : card.id = cardId
    · rw [if_pos hcard, if_pos hcard, hcounter kind (hcard ▸ hnot)]
    · rw [if_neg hcard, if_neg hcard]
  items := fun _ _ h => .inl h

theorem touch_comment {comment comment' : CommentRow} (hid : comment'.id = comment.id)
    (hcard : comment'.cardId = comment.cardId) (htouched : touched .comments comment.cardId) :
    Touch ids touched mine key (.live (.comment comment)) (.live (.comment comment')) where
  keyed := fun h => (congrArg Key.comment hid).trans h
  known := fun h _ _ => h _ rfl
  home := fun cardId h => (congrArg some hcard).trans h
  counts := by
    intro cardId kind hnot
    cases kind with
    | comments =>
      have hother : comment.cardId ≠ cardId := fun heq => hnot (heq ▸ htouched)
      simp [hcard, hother]
    | items => rfl
  counter := fun _ _ _ => rfl
  items := fun _ _ h => .inl h

theorem touch_item {item item' : ChecklistItemRow} (hid : item'.id = item.id)
    (hcard : item'.cardId = item.cardId) (hchecklist : item'.checklistId = item.checklistId)
    (htouched : touched .items item.cardId) :
    Touch ids touched mine key (.live (.checklistItem item)) (.live (.checklistItem item')) where
  keyed := fun h => (congrArg Key.checklistItem hid).trans h
  known := fun h _ _ => h _ rfl
  home := fun cardId h => (congrArg some hcard).trans h
  counts := by
    intro cardId kind hnot
    cases kind with
    | comments => rfl
    | items =>
      have hother : item.cardId ≠ cardId := fun heq => hnot (heq ▸ htouched)
      simp [hcard, hother]
  counter := fun _ _ _ => rfl
  items := by
    intro checklistId cardId h
    simp only [Slot.item?, Slot.row?, Row.checklistItem?, Option.bind_some, Option.map_some,
      hcard, hchecklist] at h
    exact .inl h

/-- The rows that count: comments and items, for their card. -/
theorem counted_comment {comment : CommentRow} {cardId : Id} {kind : Kind}
    (h : Slot.counts (.live (.comment comment)) cardId kind ≠ none) :
    Only .comments comment.cardId kind cardId := by
  cases kind with
  | comments =>
    by_contra hnot
    have hother : comment.cardId ≠ cardId := fun heq => hnot ⟨rfl, heq.symm⟩
    exact h (by simp [hother])
  | items => exact absurd rfl h

theorem counted_item {item : ChecklistItemRow} {cardId : Id} {kind : Kind}
    (h : Slot.counts (.live (.checklistItem item)) cardId kind ≠ none) :
    Only .items item.cardId kind cardId := by
  cases kind with
  | comments => exact absurd rfl h
  | items =>
    by_contra hnot
    have hother : item.cardId ≠ cardId := fun heq => hnot ⟨rfl, heq.symm⟩
    exact h (by simp [hother])

end

/-! ### The discipline -/

/-- What hangs on a card goes on to hang on it, and a card is not deleted. -/
def Persist (rows rows' : Rows) : Prop :=
  ∀ key cardId, Slot.home? (rows key) = some cardId → Slot.home? (rows' key) = some cardId

/-- What was counted is what there is to count; a duplicate has copied no card with anything
to count, and no item. -/
def Current (ids : List Id) (rows : Rows) : Note → Prop
  | .countedComments cardId comments =>
    (comments, 0) = count (Rows.tables rows ids) cardId .comments
  | .countedItems cardId total done =>
    (total, done) = count (Rows.tables rows ids) cardId .items
  | .copied cards items => items = [] ∧ ∀ card ∈ cards,
    CardRow.counter card .comments = (0, 0) ∧ CardRow.counter card .items = (0, 0)

instance {ids : List Id} {rows : Rows} {note : Note} : Decidable (Current ids rows note) := by
  cases note <;> unfold Current <;> infer_instance

/-- What is committed is current. -/
abbrev condition (ids : List Id) : Condition Key Slot Label Int Note :=
  { commit := fun notes rows => ∀ note ∈ notes, Current ids rows note }

/-- The rows that a session has locked do not change. -/
def discipline (S : Type) (ids : List Id) : Discipline S Key Slot Label Int Note where
  inv σ := Counted ids σ.rows
  guarantee _ _ _ σ σ' := Persist σ.rows σ'.rows
  rely _ own σ σ' := (∀ key, own key → σ'.rows key = σ.rows key) ∧ Persist σ.rows σ'.rows
  condition := condition ids

theorem discipline_lawful (S : Type) (ids : List Id) : (discipline S ids).Lawful where
  refl _ _ _ := ⟨fun _ _ => rfl, fun _ _ h => h⟩
  trans h h' := ⟨fun key hkey => (h'.1 key hkey).trans (h.1 key hkey),
    fun key cardId hhome => h'.2 key cardId (h.2 key cardId hhome)⟩
  rely _ _ hkept _ _ hguarantee := ⟨hkept, hguarantee⟩

theorem rely_owned {S : Type} {ids : List Id} (s : S) (own : Key → Prop)
    (σ σ' : Shared S Key Slot Note) (h : (discipline S ids).rely s own σ σ') :
    ∀ key, own key → σ'.rows key = σ.rows key := h.1

/-- Nothing is written yet, and these rows hang on these cards. -/
def Loaded {S : Type} (homes : List (Key × Id)) (t : Transaction Key Slot)
    (σ : Shared S Key Slot Note) : Prop :=
  t = .none ∧ ∀ p ∈ homes, Slot.home? (σ.rows p.1) = some p.2

/-- The transaction has touched no more than it may, and these rows hang on these cards. -/
structure Touched {S : Type} (ids : List Id) (touched : Kind → Id → Prop)
    (mine : Id → Id → Prop) (homes : List (Key × Id)) (t : Transaction Key Slot)
    (σ : Shared S Key Slot Note) : Prop where
  evolved : Evolved (Touch ids touched mine) t σ
  homes : ∀ p ∈ homes, Slot.home? (t.view σ p.1) = some p.2

/-- The transaction has written this counter of the card. -/
structure Written {S : Type} (kind : Kind) (cardId : Id) (counted : Nat × Nat)
    (t : Transaction Key Slot) (σ : Shared S Key Slot Note) : Prop where
  mine : .card cardId ∈ t.pending.map Prod.fst
  counter : Slot.counter (t.view σ (.card cardId)) cardId kind = some counted

section
variable {S : Type} {s : S} {ids : List Id} {touched : Kind → Id → Prop} {mine : Id → Id → Prop}
  {homes : List (Key × Id)} {t : Transaction Key Slot} {σ : Shared S Key Slot Note}
  {kind : Kind} {cardId : Id} {counted : Nat × Nat}

theorem loaded_stable : Stable (discipline S ids) s (Loaded homes) := by
  rintro t σ σ' ⟨rfl, hhomes⟩ hrely _
  exact ⟨rfl, fun p hp => hrely.2 _ _ (hhomes p hp)⟩

theorem touched_stable : Stable (discipline S ids) s (Touched ids touched mine homes) := by
  intro t σ σ' h hrely hinv
  refine ⟨evolved_stable (D := discipline S ids) (s := s) Touch.refl (fun _ _ _ hrely => hrely.1)
    t σ σ' h.evolved hrely hinv, ?_⟩
  intro p hp
  by_cases hmem : p.1 ∈ t.pending.map Prod.fst
  · rw [Transaction.view_of_mem hmem σ σ']
    exact h.homes p hp
  · have hhome := h.homes p hp
    rw [Transaction.view_of_notMem hmem] at hhome ⊢
    exact hrely.2 _ _ hhome

theorem written_stable : Stable (discipline S ids) s (Written kind cardId counted) := by
  intro t σ σ' h _ _
  exact ⟨h.mine, by rw [Transaction.view_of_mem h.mine σ σ']; exact h.counter⟩

theorem Loaded.to_touched (h : Loaded homes t σ) : Touched ids touched mine homes t σ := by
  obtain ⟨rfl, hhomes⟩ := h
  exact ⟨evolved_none Touch.refl, hhomes⟩

theorem Touched.run (h : Touched ids touched mine homes t σ) {locks : List Key}
    {writes : List (Key × Slot)}
    (hw : ∀ key slot, (key, slot) ∈ writes → Touch ids touched mine key (t.view σ key) slot) :
    Touched ids touched mine homes (t.run locks writes) σ where
  evolved := h.evolved.run Touch.trans hw
  homes := by
    intro p hp
    rw [Transaction.view_run]
    by_cases hmem : p.1 ∈ writes.map Prod.fst
    · exact (hw _ _ (overlay_mem hmem _)).home _ (h.homes p hp)
    · rw [overlay_of_notMem hmem]
      exact h.homes p hp

theorem Touched.keyed (h : Touched ids touched mine homes t σ) (hinv : Counted ids σ.rows)
    (key : Key) : (t.view σ key).Keyed key := (h.evolved.row key).keyed (hinv.keyed key)

/-- The slot of a card that is known to be one. -/
theorem card_of_home {slot : Slot} (hkeyed : slot.Keyed (.card cardId))
    (hhome : Slot.home? slot = some cardId) :
    ∃ card, slot = .live (.card card) ∧ card.id = cardId := by
  cases slot with
  | empty => exact absurd hhome (by simp [Slot.home?])
  | live row =>
    cases row <;> first
      | exact ⟨_, rfl, Key.card.inj hkeyed⟩
      | exact absurd hkeyed (by simp [Slot.Keyed, Row.key])
  | deleted row => cases row <;> simp_all [Slot.Keyed, Row.key, Slot.home?]

/-- A counter is that of the card under the card's key. -/
theorem key_of_counter {slot : Slot} {key : Key} (hkeyed : slot.Keyed key)
    (h : Slot.counter slot cardId kind = some counted) : key = .card cardId := by
  obtain ⟨card, hcard, -⟩ := Option.map_eq_some_iff.mp h
  obtain ⟨hcard, hid⟩ := Option.filter_eq_some_iff.mp hcard
  obtain ⟨row, hrow, hcard⟩ := Option.bind_eq_some_iff.mp hcard
  rw [Slot.row?_eq_some.mp hrow] at hkeyed
  obtain rfl := Row.card?_eq_some.mp hcard
  rw [← of_decide_eq_true hid]
  exact hkeyed.symm

/-- **A recount that is current when it is committed** leaves every counter right. -/
theorem Touched.commit (h : Touched ids (Only kind cardId) mine homes t σ)
    (hwritten : Written kind cardId counted t σ) (hcard : (.card cardId, cardId) ∈ homes)
    (hmine : ∀ checklistId cardId, mine checklistId cardId →
      (.checklist checklistId, cardId) ∈ homes)
    (hinv : Counted ids σ.rows)
    (hcurrent : counted = count (Rows.tables (t.view σ) ids) cardId kind) :
    Counted ids (t.view σ) := by
  refine hinv.touch h.evolved.row ?_ ?_ ?_
  · rintro kind' cardId' ⟨rfl, rfl⟩
    exact h.homes _ hcard
  · exact fun checklistId cardId' hnew => h.homes _ (hmine checklistId cardId' hnew)
  · rintro key kind' cardId' counted' ⟨rfl, rfl⟩ hcounter
    obtain rfl := key_of_counter (h.keyed hinv key) hcounter
    rw [hwritten.counter] at hcounter
    rw [← Option.some.inj hcounter]
    exact hcurrent

/-- A transaction that counts nothing. -/
theorem Touched.commit_none (h : Touched ids (fun _ _ => False) (fun _ _ => False) homes t σ)
    (hinv : Counted ids σ.rows) : Counted ids (t.view σ) :=
  hinv.touch h.evolved.row (fun _ _ hfalse => hfalse.elim) (fun _ _ hfalse => hfalse.elim)
    fun _ _ _ _ hfalse => hfalse.elim

theorem Touched.persist (h : Touched ids touched mine homes t σ) :
    Persist σ.rows (t.view σ) := fun key => (h.evolved.row key).home

end

/-! ### Statements -/

section
variable {S : Type} {s : S} {ids : List Id} {touched : Kind → Id → Prop} {mine : Id → Id → Prop}
  {homes : List (Key × Id)} {kind : Kind} {cardId : Id} {α β : Type}

/-- A row is loaded, and the card it hangs on is known from here on. -/
theorem triple_load {query : Rows → Option α} {key : Key} (home : α → Id)
    (h : ∀ rows a, Counted ids rows → query rows = some a →
      Slot.home? (rows key) = some (home a)) :
    Triple (discipline S ids) s (Loaded homes)
      (do let a ← select .read query; ofOption a) fun a => Loaded ((key, home a) :: homes) := by
  refine Triple.bind (Q := fun a t σ => Loaded homes t σ ∧
      ∀ a', a = some a' → Slot.home? (σ.rows key) = some (home a'))
    (triple_select loaded_stable ?_) fun a => triple_ofOption ?_
  · rintro t σ ⟨rfl, hhomes⟩ hinv _ _ _
    exact ⟨⟨rfl, hhomes⟩, fun a' ha' => h σ.rows a' hinv ha'⟩
  · rintro a' t σ rfl ⟨⟨rfl, hhomes⟩, hhome⟩
    exact ⟨rfl, List.forall_mem_cons.mpr ⟨hhome a' rfl, hhomes⟩⟩

theorem triple_loadCard : Triple (discipline S ids) s (Loaded homes) (loadCard cardId)
    fun _ => Loaded ((.card cardId, cardId) :: homes) := by
  refine triple_load (fun _ => cardId) ?_
  intro rows card hinv hcard
  obtain ⟨row, hrow, hcard⟩ :=
    Option.bind_eq_some_iff.mp (Option.filter_eq_some_iff.mp hcard).1
  have hkeyed := hinv.keyed (.card cardId)
  rw [Slot.row?_eq_some.mp hrow] at hkeyed ⊢
  obtain rfl := Row.card?_eq_some.mp hcard
  exact congrArg some (Key.card.inj hkeyed)

/-- A child of a card is loaded by its id. -/
theorem triple_loadChild {key : Key} {part : Row → Option α} {home : α → Id}
    (hpart : ∀ row a, part row = some a → Slot.home? (.live row) = some (home a)) :
    Triple (discipline S ids) s (Loaded homes)
      (do let a ← select .read fun rows : Rows => (rows key).row?.bind part; ofOption a)
      fun a => Loaded ((key, home a) :: homes) := by
  refine triple_load home ?_
  intro rows a _ ha
  obtain ⟨row, hrow, ha⟩ := Option.bind_eq_some_iff.mp ha
  rw [Slot.row?_eq_some.mp hrow]
  exact hpart row a ha

theorem triple_loadChecklist {checklistId : Id} :
    Triple (discipline S ids) s (Loaded homes) (loadChecklist checklistId)
      fun checklist : ChecklistRow =>
        Loaded ((.checklist checklistId, checklist.cardId) :: homes) := by
  refine triple_loadChild ?_
  intro row checklist hrow
  obtain rfl := Row.checklist?_eq_some.mp hrow
  rfl

theorem triple_loadItem {itemId : Id} :
    Triple (discipline S ids) s (Loaded homes) (loadItem itemId)
      fun item : ChecklistItemRow =>
        Loaded ((.checklistItem itemId, item.cardId) :: homes) := by
  refine triple_loadChild ?_
  intro row item hrow
  obtain rfl := Row.checklistItem?_eq_some.mp hrow
  rfl

theorem triple_loadComment {commentId : Id} :
    Triple (discipline S ids) s (Loaded homes) (loadComment commentId)
      fun comment : CommentRow => Loaded ((.comment commentId, comment.cardId) :: homes) := by
  refine triple_loadChild ?_
  intro row comment hrow
  obtain rfl := Row.comment?_eq_some.mp hrow
  rfl

/-- A check or a query before anything is written. -/
theorem loaded_require {p : Prop} [Decidable p] : Triple (discipline S ids) s (Loaded homes)
    (require p) fun _ => Loaded homes := triple_require fun _ _ h _ => h

theorem loaded_select {query : Rows → α} : Triple (discipline S ids) s (Loaded homes)
    (select .read query) fun _ => Loaded homes :=
  triple_select loaded_stable fun _ _ h _ _ _ _ => h

theorem loaded_ofOption {a : Option α} : Triple (discipline S ids) s (Loaded homes)
    (ofOption a) fun _ => Loaded homes := triple_ofOption fun _ _ _ _ h => h

theorem triple_touchInsert {row : Row}
    (h : row.key.within ids = true → Touch ids touched mine row.key .empty (.live row)) :
    Triple (discipline S ids) s (Touched ids touched mine homes) (insert ids row)
      fun _ => Touched ids touched mine homes := by
  refine triple_insert touched_stable ?_
  intro t σ htouched _ hwithin hfree
  refine htouched.run ?_
  intro key slot hmem
  obtain ⟨rfl, rfl⟩ := Prod.mk.inj (List.mem_singleton.mp hmem)
  rw [insertable_empty hfree]
  exact h hwithin

/-- An update of a row that is known to hang on the card. -/
theorem triple_touchUpdate {key : Key} {f : Int → Row → Option Row}
    (hhome : (key, cardId) ∈ homes)
    (hf : ∀ now row row', Slot.home? (.live row) = some cardId → f now row = some row' →
      Touch ids touched mine key (.live row) (.live row')) :
    Triple (discipline S ids) s (Touched ids touched mine homes) (updateRow key f)
      fun _ => Touched ids touched mine homes := by
  refine Triple.bind (Q := fun _ => Touched ids touched mine homes)
    (triple_update touched_stable ?_ ?_) fun _ => triple_pure fun _ _ h => h
  · intro t σ now _ slot h _ hslot _ _
    refine h.run ?_
    intro key' slot' hmem
    obtain ⟨rfl, rfl⟩ := Prod.mk.inj (List.mem_singleton.mp hmem)
    obtain ⟨row', hrow', rfl⟩ := Option.map_eq_some_iff.mp hslot
    obtain ⟨row, hrow, hrow'⟩ := Option.bind_eq_some_iff.mp hrow'
    have hlive := Slot.row?_eq_some.mp hrow
    have hcard := h.homes _ hhome
    rw [hlive] at hcard ⊢
    exact hf now row row' hcard hrow'
  · intro t σ _ _ h _ _ _
    exact h

/-- A deletion, as the first write of a transaction. -/
theorem triple_touchDelete {keys : Rows → List Key}
    (h : ∀ rows : Rows, Counted ids rows → (∀ p ∈ homes, Slot.home? (rows p.1) = some p.2) →
      ∀ key ∈ keys rows, ∀ row, rows key = .live row →
        Touch ids touched mine key (.live row) (.deleted row)) :
    Triple (discipline S ids) s (Loaded homes) (deleteRows keys)
      fun _ => Touched ids touched mine homes := by
  refine triple_statement loaded_stable ?_
  rintro t σ _ _ ⟨rfl, hhomes⟩ hinv _ _
  refine (Loaded.to_touched ⟨rfl, hhomes⟩).run ?_
  intro key slot hmem
  obtain ⟨key', hkey', hslot⟩ := List.mem_filterMap.mp hmem
  obtain ⟨row, hrow, heq⟩ := Option.map_eq_some_iff.mp hslot
  obtain ⟨rfl, rfl⟩ := Prod.mk.inj heq
  have hlive := Slot.row?_eq_some.mp hrow
  rw [hlive]
  exact h σ.rows hinv hhomes key' hkey' row hlive

/-- A recount's counter is written on a card that is there. -/
theorem triple_writeCounter {f : Int → CardRow → CardRow} (counted : Nat × Nat)
    (hhome : (.card cardId, cardId) ∈ homes)
    (hid : ∀ now card, (f now card).id = card.id)
    (hcounted : ∀ now card, CardRow.counter (f now card) kind = counted)
    (hother : ∀ now card kind', kind' ≠ kind →
      CardRow.counter (f now card) kind' = CardRow.counter card kind') :
    Triple (discipline S ids) s (Touched ids (Only kind cardId) mine homes)
      (updateCard cardId f) fun _ t σ =>
        Touched ids (Only kind cardId) mine homes t σ ∧ Written kind cardId counted t σ := by
  refine Triple.bind (Q := fun _ t σ => Touched ids (Only kind cardId) mine homes t σ ∧
    Written kind cardId counted t σ) (Triple.bind (Q := fun _ t σ =>
      Touched ids (Only kind cardId) mine homes t σ ∧ Written kind cardId counted t σ)
      (triple_update touched_stable ?_ ?_) fun _ => triple_pure fun _ _ h => h)
    fun _ => triple_pure fun _ _ h => h
  · intro t σ now _ slot h hinv hslot _ _
    obtain ⟨card, hlive, hcard⟩ := card_of_home (h.keyed hinv _) (h.homes _ hhome)
    rw [hlive] at hslot
    obtain rfl := Option.some.inj hslot
    constructor
    · refine h.run ?_
      intro key' slot' hmem
      obtain ⟨rfl, rfl⟩ := Prod.mk.inj (List.mem_singleton.mp hmem)
      rw [hlive]
      refine touch_card (hid now card) fun kind' hnot => hother now card kind' ?_
      exact fun heq => hnot ⟨heq, hcard⟩
    · refine ⟨by simp, ?_⟩
      rw [Transaction.view_run, overlay_cons, overlay_nil, Function.update_self]
      simp [hid, hcard, hcounted]
  · intro t σ _ _ h hinv hslot _
    obtain ⟨card, hlive, -⟩ := card_of_home (h.keyed hinv _) (h.homes _ hhome)
    rw [hlive] at hslot
    exact absurd hslot (by simp [Slot.row?, Row.card?])

theorem triple_recountComments (hhome : (.card cardId, cardId) ∈ homes) :
    Triple (discipline S ids) s (Touched ids (Only .comments cardId) mine homes)
      (recountComments ids cardId) fun comments t σ =>
        Touched ids (Only .comments cardId) mine homes t σ ∧
          Written .comments cardId (comments, 0) t σ := by
  refine Triple.bind (Q := fun _ => Touched ids (Only .comments cardId) mine homes)
    (triple_select touched_stable fun _ _ h _ _ _ _ => h) fun comments => ?_
  refine Triple.bind (triple_writeCounter (comments, 0) hhome ?_ ?_ ?_) fun _ =>
    triple_pure fun _ _ h => h
  · exact fun _ _ => rfl
  · exact fun _ _ => rfl
  · intro now card kind' hkind
    cases kind' with
    | comments => exact absurd rfl hkind
    | items => rfl

theorem triple_recountChecklist (hhome : (.card cardId, cardId) ∈ homes) :
    Triple (discipline S ids) s (Touched ids (Only .items cardId) mine homes)
      (recountChecklist ids cardId) fun counted t σ =>
        Touched ids (Only .items cardId) mine homes t σ ∧ Written .items cardId counted t σ := by
  refine Triple.bind (Q := fun _ => Touched ids (Only .items cardId) mine homes)
    (triple_select touched_stable fun _ _ h _ _ _ _ => h) fun counted => ?_
  refine Triple.bind (triple_writeCounter counted hhome ?_ ?_ ?_) fun _ =>
    triple_pure fun _ _ h => h
  · exact fun _ _ => rfl
  · exact fun _ _ => rfl
  · intro now card kind' hkind
    cases kind' with
    | comments => rfl
    | items => exact absurd rfl hkind

end

end CardCounters
end TaskFlow
