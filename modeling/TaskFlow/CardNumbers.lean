import TaskFlow.Numbering
import TaskFlow.WorkLogic

/-! # The numbers of a project's cards

A card takes its number from the counter of its project, by an update that locks the
project's row until the card is committed; a duplicate numbers the cards it copies itself,
and sets the counter of its new project behind them.  In every state that is committed the
numbers of a project's cards are those below its counter, each of one card
(`numbers_gapless`).
-/
namespace TaskFlow
namespace CardNumbers
open ReadCommitted ReadCommitted.Script ReadCommitted.Procedure WorkTables WorkScripts

/-- The counter of the project in a slot. -/
def Slot.next (slot : Slot) : Option Nat :=
  (slot.row?.bind Row.project?).map (·.nextCardNumber)

/-- The project and the number of the card in a slot. -/
def Slot.number (slot : Slot) : Option (Id × Nat) :=
  (slot.row?.bind Row.card?).map fun card => (card.projectId, card.number)

/-- The numbering of the cards, archived and deleted ones included. -/
def numbering (rows : Rows) : Numeration Id Id :=
  ⟨fun projectId => Slot.next (rows (.project projectId)),
    fun cardId => Slot.number (rows (.card cardId))⟩

/-- The rows are under their keys, and the numbering is gapless. -/
structure Numbered (rows : Rows) : Prop where
  keyed : ∀ key, (rows key).Keyed key
  gapless : (numbering rows).Gapless

/-- Rows a session has locked do not change. -/
def discipline (S : Type) : Discipline S Key Slot Label Int Note where
  inv σ := Numbered σ.rows
  guarantee _ _ _ _ _ := True
  rely _ own σ σ' := ∀ key, own key → σ'.rows key = σ.rows key
  condition := {}

theorem discipline_lawful (S : Type) : (discipline S).Lawful where
  refl _ _ _ _ _ := rfl
  trans h h' key hkey := (h' key hkey).trans (h key hkey)
  rely _ _ hkept _ _ _ := hkept

/-! ### Transactions that number nothing -/

/-- What is made of a slot keeps its key, its counter and its number. -/
def Same (key : Key) (slot slot' : Slot) : Prop :=
  slot.Keyed key → slot'.Keyed key ∧ Slot.next slot' = Slot.next slot ∧
    Slot.number slot' = Slot.number slot

theorem Same.refl (key : Key) (slot : Slot) : Same key slot slot := fun h => ⟨h, rfl, rfl⟩

theorem Same.trans {key : Key} {slot slot' slot'' : Slot} (h : Same key slot slot')
    (h' : Same key slot' slot'') : Same key slot slot'' := by
  intro hkeyed
  obtain ⟨hkeyed', hnext, hnumber⟩ := h hkeyed
  obtain ⟨hkeyed'', hnext', hnumber'⟩ := h' hkeyed'
  exact ⟨hkeyed'', hnext'.trans hnext, hnumber'.trans hnumber⟩

/-- A row that has no counter and no number. -/
def Unnumbered (row : Row) : Prop := row.project? = none ∧ row.card? = none

section
variable {S : Type} {s : S} {t : Transaction Key Slot} {σ : Shared S Key Slot Note}
  {ids : List Id} {α : Type}

/-- The transaction has changed no counter and no number. -/
def Neutral (t : Transaction Key Slot) (σ : Shared S Key Slot Note) : Prop := Evolved Same t σ

theorem neutral_stable : Stable (discipline S) s Neutral :=
  evolved_stable Same.refl fun _ _ _ hrely => hrely

theorem neutral_none : Neutral .none σ := evolved_none Same.refl

theorem Neutral.run (h : Neutral t σ) {locks : List Key} {writes : List (Key × Slot)}
    (hw : ∀ key slot, (key, slot) ∈ writes → Same key (t.view σ key) slot) :
    Neutral (t.run locks writes) σ := Evolved.run h Same.trans hw

theorem same_insert {row : Row} {slot : Slot} (hrow : Unnumbered row) (hfree : slot = .empty) :
    Same row.key slot (.live row) := by
  rintro -
  rw [hfree]
  exact ⟨rfl, by simp [Slot.next, Slot.row?, hrow.1], by simp [Slot.number, Slot.row?, hrow.2]⟩

theorem Neutral.commit (h : Neutral t σ) (hinv : Numbered σ.rows) :
    Numbered (t.view σ) where
  keyed := fun key => (h.row key (hinv.keyed key)).1
  gapless := by
    have hsame : numbering (t.view σ) = numbering σ.rows := by
      ext id : 2
      · exact (h.row (.project id) (hinv.keyed _)).2.1
      · exact (h.row (.card id) (hinv.keyed _)).2.2
    rw [hsame]
    exact hinv.gapless

/-- A transaction that numbers nothing. -/
theorem triple_neutral {body : Procedure (List Note × α)}
    (h : Triple (discipline S) s Neutral body fun _ => Neutral) :
    Triple (discipline S) s (fun t _ => t = .none) (transaction body) fun _ t _ => t = .none := by
  refine triple_transaction (R := fun _ => Neutral) (h.conseq ?_ fun _ _ _ hQ => hQ)
    (fun _ => neutral_stable) ?_
  · rintro t σ rfl
    exact neutral_none
  · intro _ t σ hneutral hinv _
    exact ⟨hneutral.commit hinv, trivial, rfl⟩

end

/-- The procedure changes no counter and no number. -/
def Keeps {α : Type} (p : Procedure α) : Prop :=
  ∀ (S : Type) (s : S), Triple (discipline S) s Neutral p fun _ => Neutral

section
variable {ids : List Id} {α β : Type}

theorem Keeps.bind {p : Procedure α} {f : α → Procedure β} (hp : Keeps p)
    (hf : ∀ a, Keeps (f a)) : Keeps (p >>= f) := fun S s => (hp S s).bind fun a => hf a S s

theorem keeps_pure (a : α) : Keeps (pure a) := fun _ _ => triple_pure fun _ _ h => h

theorem keeps_require (p : Prop) [Decidable p] : Keeps (require p) :=
  fun _ _ => triple_require fun _ _ h _ => h

theorem keeps_ofOption (a : Option α) : Keeps (ofOption a) :=
  fun _ _ => triple_ofOption fun _ _ _ _ h => h

theorem keeps_select (query : Rows → α) : Keeps (select .read query) :=
  fun _ _ => triple_select neutral_stable fun _ _ h _ _ _ _ => h

theorem keeps_insert {row : Row} (hrow : Unnumbered row) : Keeps (insert ids row) := by
  intro S s
  refine triple_insert neutral_stable ?_
  intro t σ h _ _ hfree
  refine h.run ?_
  intro key slot hmem
  obtain ⟨rfl, rfl⟩ := Prod.mk.inj (List.mem_singleton.mp hmem)
  exact same_insert hrow (insertable_empty hfree)

/-- An update that leaves key, counter and number of its row. -/
theorem keeps_updateRow {key : Key} {f : Int → Row → Option Row}
    (hf : ∀ now row row', f now row = some row' → row'.key = row.key ∧
      row'.project?.map (·.nextCardNumber) = row.project?.map (·.nextCardNumber) ∧
      row'.card?.map (fun card => (card.projectId, card.number)) =
        row.card?.map fun card => (card.projectId, card.number)) :
    Keeps (updateRow key f) := by
  intro S s
  refine Triple.bind (Q := fun _ => Neutral) (triple_update neutral_stable ?_ ?_)
    fun _ => triple_pure fun _ _ h => h
  · intro t σ now _ slot h _ hslot _ _
    refine h.run ?_
    intro key' slot' hmem
    obtain ⟨rfl, rfl⟩ := Prod.mk.inj (List.mem_singleton.mp hmem)
    obtain ⟨row', hrow', rfl⟩ := Option.map_eq_some_iff.mp hslot
    obtain ⟨row, hrow, hrow'⟩ := Option.bind_eq_some_iff.mp hrow'
    obtain ⟨hkey, hnext, hnumber⟩ := hf now row row' hrow'
    rw [Slot.row?_eq_some.mp hrow]
    exact fun hkeyed => ⟨hkey.trans hkeyed, hnext, hnumber⟩
  · intro t σ _ _ h _ _ _
    exact h

/-- A deletion of rows that have neither counter nor number. -/
theorem keeps_deleteRows {keys : Rows → List Key}
    (hkeys : ∀ rows, ∀ key ∈ keys rows, ∀ row : Row, row.key = key → Unnumbered row) :
    Keeps (deleteRows keys) := by
  intro S s
  refine triple_statement neutral_stable ?_
  intro t σ _ _ h _ _ _
  refine h.run ?_
  intro key slot hmem hkeyed
  obtain ⟨key', hkey', hslot⟩ := List.mem_filterMap.mp hmem
  obtain ⟨row, hrow, heq⟩ := Option.map_eq_some_iff.mp hslot
  obtain ⟨rfl, rfl⟩ := Prod.mk.inj heq
  rw [Slot.row?_eq_some.mp hrow] at hkeyed ⊢
  obtain ⟨hproject, hcard⟩ := hkeys _ key' hkey' row hkeyed
  exact ⟨hkeyed, by simp [Slot.next, Slot.row?, hproject],
    by simp [Slot.number, Slot.row?, hcard]⟩

theorem keeps_updateCard {cardId : Id} {f : Int → CardRow → CardRow}
    (hf : ∀ now card, (f now card).id = card.id ∧ (f now card).projectId = card.projectId ∧
      (f now card).number = card.number) : Keeps (updateCard cardId f) := by
  refine Keeps.bind (keeps_updateRow ?_) fun _ => keeps_pure ()
  intro now row row' hrow
  obtain ⟨card', hcard', rfl⟩ := Option.map_eq_some_iff.mp hrow
  obtain ⟨card, hcard, rfl⟩ := Option.map_eq_some_iff.mp hcard'
  obtain ⟨hid, hproject, hnumber⟩ := hf now card
  obtain rfl := Row.card?_eq_some.mp hcard
  exact ⟨congrArg Key.card hid, rfl, by simp [Row.card?, hproject, hnumber]⟩

theorem keeps_recountComments (cardId : Id) : Keeps (recountComments ids cardId) := by
  refine (keeps_select _).bind fun comments => Keeps.bind (keeps_updateCard ?_) fun _ =>
    keeps_pure _
  exact fun _ _ => ⟨rfl, rfl, rfl⟩

theorem keeps_recountChecklist (cardId : Id) : Keeps (recountChecklist ids cardId) := by
  refine (keeps_select _).bind fun counts => Keeps.bind (keeps_updateCard ?_) fun _ =>
    keeps_pure _
  exact fun _ _ => ⟨rfl, rfl, rfl⟩

theorem keeps_loadCard (cardId : Id) : Keeps (loadCard cardId) :=
  (keeps_select _).bind fun _ => keeps_ofOption _

theorem keeps_loadChecklist (checklistId : Id) : Keeps (loadChecklist checklistId) :=
  (keeps_select _).bind fun _ => keeps_ofOption _

theorem keeps_loadItem (itemId : Id) : Keeps (loadItem itemId) :=
  (keeps_select _).bind fun _ => keeps_ofOption _

theorem keeps_loadComment (commentId : Id) : Keeps (loadComment commentId) :=
  (keeps_select _).bind fun _ => keeps_ofOption _

/-- A call that keeps to the discipline. -/
def Sound (p : Procedure Unit) : Prop :=
  ∀ (S : Type) (s : S), Triple (discipline S) s (fun t _ => t = .none) p fun _ t _ => t = .none

theorem Keeps.sound {body : Procedure (List Note × Unit)} (h : Keeps body) :
    Sound (transaction body) := fun S s => triple_neutral (h S s)

theorem sound_archiveCard (cardId : Id) (archived allowed : Bool) :
    Sound (archiveCard cardId archived allowed) := by
  refine Keeps.sound ((keeps_loadCard _).bind fun card => (keeps_require _).bind fun _ =>
    (keeps_select _).bind fun project => (keeps_require _).bind fun _ =>
    Keeps.bind (keeps_updateCard ?_) fun _ => keeps_pure _)
  exact fun _ _ => ⟨rfl, rfl, rfl⟩

theorem keeps_checkParent (cardId : Id) (parentCommentId : Option Id) :
    Keeps (checkParent cardId parentCommentId) := by
  cases parentCommentId with
  | none => exact keeps_pure ()
  | some parentCommentId => exact (keeps_loadComment _).bind fun _ => keeps_require _

theorem sound_createComment (input : NewComment) : Sound (createComment ids input) := by
  refine Keeps.sound ((keeps_loadCard _).bind fun _ => (keeps_require _).bind fun _ =>
    (keeps_checkParent _ _).bind fun _ => (keeps_require _).bind fun _ =>
    Keeps.bind (keeps_insert ?_) fun _ => (keeps_recountComments _).bind fun _ => keeps_pure _)
  exact ⟨rfl, rfl⟩

theorem sound_deleteComment (commentId userId : Id) (allowed : Bool → Bool) :
    Sound (deleteComment ids commentId userId allowed) := by
  refine Keeps.sound ((keeps_loadComment _).bind fun _ => (keeps_loadCard _).bind fun _ =>
    (keeps_require _).bind fun _ => (keeps_require _).bind fun _ =>
    Keeps.bind (keeps_updateRow ?_) fun _ => (keeps_recountComments _).bind fun _ =>
    keeps_pure _)
  intro now row row' hrow
  obtain ⟨comment, hcomment, rfl⟩ := Option.map_eq_some_iff.mp hrow
  obtain rfl := Row.comment?_eq_some.mp hcomment
  exact ⟨rfl, rfl, rfl⟩

theorem sound_createChecklist (checklistId cardId : Id) (name : String) (allowed : Bool) :
    Sound (createChecklist ids checklistId cardId name allowed) := by
  refine Keeps.sound ((keeps_loadCard _).bind fun _ => (keeps_require _).bind fun _ =>
    (keeps_select _).bind fun siblings => (keeps_ofOption _).bind fun rank =>
    Keeps.bind (keeps_insert ?_) fun _ => keeps_pure _)
  exact ⟨rfl, rfl⟩

/-- A row under the key of a checklist or of an item has no number. -/
theorem unnumbered_of_key {row : Row} {id : Id}
    (h : row.key = .checklist id ∨ row.key = .checklistItem id) : Unnumbered row := by
  cases row <;> simp only [Row.key, reduceCtorEq, or_self] at h
  all_goals exact ⟨rfl, rfl⟩

theorem sound_deleteChecklist (checklistId : Id) (allowed : Bool) :
    Sound (deleteChecklist ids checklistId allowed) := by
  refine Keeps.sound ((keeps_loadChecklist _).bind fun _ => (keeps_loadCard _).bind fun _ =>
    (keeps_require _).bind fun _ => Keeps.bind (keeps_deleteRows ?_) fun _ =>
    (keeps_recountChecklist _).bind fun _ => keeps_pure _)
  intro rows key hkey row hrow
  rcases List.mem_cons.mp hkey with rfl | hitem
  · exact unnumbered_of_key (.inl hrow)
  · obtain ⟨item, -, rfl⟩ := List.mem_map.mp hitem
    exact unnumbered_of_key (.inr hrow)

theorem sound_addItem (itemId checklistId : Id) (text : String) (allowed : Bool) :
    Sound (addItem ids itemId checklistId text allowed) := by
  refine Keeps.sound ((keeps_loadChecklist _).bind fun _ => (keeps_loadCard _).bind fun _ =>
    (keeps_require _).bind fun _ => (keeps_select _).bind fun siblings =>
    (keeps_ofOption _).bind fun rank => Keeps.bind (keeps_insert ?_) fun _ =>
    (keeps_recountChecklist _).bind fun _ => keeps_pure _)
  exact ⟨rfl, rfl⟩

theorem sound_updateItem (itemId : Id) (text : String) (done : Bool) (userId : Id)
    (allowed : Bool) : Sound (updateItem ids itemId text done userId allowed) := by
  refine Keeps.sound ((keeps_loadItem _).bind fun _ => (keeps_loadCard _).bind fun _ =>
    (keeps_require _).bind fun _ => Keeps.bind (keeps_updateRow ?_) fun _ =>
    (keeps_recountChecklist _).bind fun _ => keeps_pure _)
  intro now row row' hrow
  obtain ⟨item, hitem, rfl⟩ := Option.map_eq_some_iff.mp hrow
  obtain rfl := Row.checklistItem?_eq_some.mp hitem
  exact ⟨rfl, rfl, rfl⟩

theorem sound_deleteItem (itemId : Id) (allowed : Bool) :
    Sound (deleteItem ids itemId allowed) := by
  refine Keeps.sound ((keeps_loadItem _).bind fun _ => (keeps_loadCard _).bind fun _ =>
    (keeps_require _).bind fun _ => Keeps.bind (keeps_deleteRows ?_) fun _ =>
    (keeps_recountChecklist _).bind fun _ => keeps_pure _)
  intro rows key hkey row hrow
  exact unnumbered_of_key (.inr (hrow.trans (List.mem_singleton.mp hkey)))

end

/-! ### Creating a card -/

section
variable {S : Type} {t : Transaction Key Slot} {σ : Shared S Key Slot Note} {ids : List Id}
  {projectId : Id} {project : ProjectRow} {card : CardRow}

/-- With the card the numbering is as after the taking of a number. -/
theorem numbering_created (h : Created ids projectId project card t σ) :
    numbering (t.view σ) =
      (numbering σ.rows).take projectId project.nextCardNumber card.id := by
  ext id : 2
  · show Slot.next (t.view σ (.project id)) = _
    rw [h.view, if_neg (by simp)]
    by_cases hid : id = projectId
    · rw [if_pos (congrArg Key.project hid), hid, Numeration.take_next_self]
      rfl
    · rw [if_neg fun heq => hid (Key.project.inj heq), Numeration.take_next_of_ne hid]
      rfl
  · show Slot.number (t.view σ (.card id)) = _
    rw [h.view]
    by_cases hid : id = card.id
    · rw [if_pos (congrArg Key.card hid), hid, Numeration.take_number_self, ← h.projectId,
        ← h.number]
      rfl
    · rw [if_neg fun heq => hid (Key.card.inj heq), if_neg (by simp),
        Numeration.take_number_of_ne hid]
      rfl

theorem numbered_created (h : Created ids projectId project card t σ) (hinv : Numbered σ.rows) :
    Numbered (t.view σ) where
  keyed := by
    intro key
    rw [h.view]
    by_cases hcard : key = .card card.id
    · rw [if_pos hcard, hcard]
      rfl
    · rw [if_neg hcard]
      by_cases hproject : key = .project projectId
      · have hkeyed := hinv.keyed (.project projectId)
        rw [h.row] at hkeyed
        rw [if_pos hproject, hproject]
        exact hkeyed
      · rw [if_neg hproject]
        exact hinv.keyed key
  gapless := by
    rw [numbering_created h]
    refine hinv.gapless.take ?_ ?_
    · show Slot.next (σ.rows (.project projectId)) = _
      rw [h.row]
      rfl
    · show Slot.number (σ.rows (.card card.id)) = _
      rw [h.free]
      rfl

theorem sound_createCard (input : NewCard) : Sound (createCard ids input) := fun _ _ =>
  triple_createCard (fun _ _ _ hrely => hrely) fun _ _ _ _ _ h hinv _ =>
    ⟨numbered_created h hinv, trivial⟩

end

/-! ### Duplicating a project -/

section
variable {S : Type} {t : Transaction Key Slot} {σ : Shared S Key Slot Note} {ids : List Id}
  {newIds : NewIds} {note : Note}

/-- The rows of a copy that have a counter or a number are its project and its cards. -/
theorem numbered_copyRows {plain : List Row} {project : ProjectRow} {cards : List CardRow}
    {items : List ChecklistItemRow} (hplain : ∀ row ∈ plain, row.Plain) {row : Row}
    (hrow : row ∈ copyRows plain project cards items) :
    row = .project project ∨ (∃ card ∈ cards, row = .card card) ∨
      ∀ id, row.key ≠ .project id ∧ row.key ≠ .card id := by
  rcases List.mem_cons.mp hrow with rfl | hrow
  · exact .inl rfl
  rcases List.mem_append.mp hrow with hrow | hrow
  · rcases List.mem_append.mp hrow with hrow | hrow
    · have hkind := hplain row hrow
      exact .inr (.inr fun id => by cases row <;> simp_all [Row.Plain, Row.key])
    · obtain ⟨card, hcard, rfl⟩ := List.mem_map.mp hrow
      exact .inr (.inl ⟨card, hcard, rfl⟩)
  · obtain ⟨item, -, rfl⟩ := List.mem_map.mp hrow
    exact .inr (.inr fun id => by simp [Row.key])

/-- A copy's numbering: a new project, whose cards are numbered from 1. -/
theorem numbered_copying {copies : List CardRow} {items : List ChecklistItemRow}
    {project : ProjectRow} (hcopying : Copying ids project copies items t σ)
    (hnext : project.nextCardNumber = copies.length + 1)
    (hcopies : ∀ i copy, copies[i]? = some copy →
      copy.projectId = project.id ∧ copy.number = i + 1)
    (hinv : Numbered σ.rows) : Numbered (t.view σ) := by
  obtain ⟨plain, hplain, hdrafted⟩ := hcopying
  have hcard {copy : CardRow} (hcopy : copy ∈ copies) :
      Row.card copy ∈ copyRows plain project copies items :=
    List.mem_cons_of_mem _ (List.mem_append_left _
      (List.mem_append_right _ (List.mem_map_of_mem hcopy)))
  have hproject : Row.project project ∈ copyRows plain project copies items :=
    List.mem_cons_self
  have hnodup : (copies.map (·.id)).Nodup := by
    have hkeys := hdrafted.nodup
    rw [copyRows, List.map_cons, List.map_append, List.map_append] at hkeys
    have hcards := ((List.nodup_cons.mp hkeys).2.of_append_left).of_append_right
    rw [List.map_map] at hcards
    exact List.Nodup.of_map Key.card (by rw [List.map_map]; exact hcards)
  have hfork : numbering (t.view σ) = (numbering σ.rows).fork project.id (copies.map (·.id)) := by
    refine Numeration.eq_fork hnodup ?_ ?_ ?_ ?_
    · show Slot.next (t.view σ (Row.project project).key) = _
      rw [hdrafted.view _ hproject, List.length_map, ← hnext]
      rfl
    · intro q hq
      show Slot.next (t.view σ (.project q)) = Slot.next (σ.rows (.project q))
      rw [hdrafted.view_other]
      intro row hrow heq
      rcases numbered_copyRows hplain hrow with rfl | ⟨card, -, rfl⟩ | hother
      · exact hq (Key.project.inj heq).symm
      · exact absurd heq (by simp [Row.key])
      · exact (hother q).1 heq
    · intro i c hi
      rw [List.getElem?_map] at hi
      obtain ⟨copy, hcopy, rfl⟩ := Option.map_eq_some_iff.mp hi
      obtain ⟨hid, hnumber⟩ := hcopies i copy hcopy
      show Slot.number (t.view σ (Row.card copy).key) = _
      rw [hdrafted.view _ (hcard (List.mem_of_getElem? hcopy)), ← hid, ← hnumber]
      rfl
    · intro c hc
      show Slot.number (t.view σ (.card c)) = Slot.number (σ.rows (.card c))
      rw [hdrafted.view_other]
      intro row hrow heq
      rcases numbered_copyRows hplain hrow with rfl | ⟨card, hmem, rfl⟩ | hother
      · exact absurd heq (by simp [Row.key])
      · exact hc (Key.card.inj heq ▸ List.mem_map_of_mem hmem)
      · exact (hother c).2 heq
  constructor
  case keyed =>
    intro key
    by_cases hmem : ∃ row ∈ copyRows plain project copies items, row.key = key
    · obtain ⟨row, hrow, rfl⟩ := hmem
      rw [hdrafted.view row hrow]
      rfl
    · rw [hdrafted.view_other fun row hrow heq => hmem ⟨row, hrow, heq⟩]
      exact hinv.keyed key
  case gapless =>
    rw [hfork]
    refine hinv.gapless.fork ?_ ?_ hnodup
    · show Slot.next (σ.rows (Row.project project).key) = _
      rw [hdrafted.fresh _ hproject]
      rfl
    · intro c hc
      obtain ⟨copy, hcopy, rfl⟩ := List.mem_map.mp hc
      show Slot.number (σ.rows (Row.card copy).key) = _
      rw [hdrafted.fresh _ (hcard hcopy)]
      rfl

theorem numbered_copied (h : Copied ids newIds t σ note) (hinv : Numbered σ.rows) :
    Numbered (t.view σ) := by
  cases h with
  | intro cards copies items project boardMap listMap statusMap checklistMap createdBy hcopies hid
      hnext hcopying =>
    refine numbered_copying hcopying ?_ ?_ hinv
    · rw [hnext, (copyCards_forall₂ hcopies).length_eq]
    · intro i copy hcopy
      obtain ⟨hproject, hnumber⟩ := copyCards_number hcopies hcopy
      exact ⟨hproject.trans hid.symm, by omega⟩

theorem sound_duplicateProject (input : Duplicate) :
    Sound (duplicateProject ids newIds input) := fun _ _ =>
  triple_duplicateProject (fun _ _ _ hrely => hrely) fun _ _ _ h hinv _ =>
    ⟨numbered_copied h hinv, trivial⟩

end

/-! ### Runs -/

theorem sound_procedure (ids : List Id) (call : Call) : Sound (procedure ids call) := by
  cases call with
  | createCard input => exact sound_createCard input
  | archiveCard cardId archived allowed => exact sound_archiveCard cardId archived allowed
  | createComment input => exact sound_createComment input
  | deleteComment commentId userId allowed => exact sound_deleteComment commentId userId allowed
  | createChecklist checklistId cardId name allowed =>
    exact sound_createChecklist checklistId cardId name allowed
  | deleteChecklist checklistId allowed => exact sound_deleteChecklist checklistId allowed
  | addItem itemId checklistId text allowed => exact sound_addItem itemId checklistId text allowed
  | updateItem itemId text done userId allowed =>
    exact sound_updateItem itemId text done userId allowed
  | deleteItem itemId allowed => exact sound_deleteItem itemId allowed
  | duplicateProject newIds input => exact sound_duplicateProject input

section
variable {S : Type} [DecidableEq S] {ids : List Id} {rows : Rows}
  {sys : System S Key Slot Label Int Note}

/-- The numbering is gapless in every state reached. -/
theorem numbered_of_reachable (h0 : Numbered rows)
    (h : StepSystem.Reachable (Script.step (calls ids)) (initial rows) sys) :
    Numbered sys.world.committed := by
  have hvalid := valid_of_reachable (discipline_lawful S)
    (fun call s σ _ => (sound_procedure ids call S s).safe σ)
    (show (discipline S).inv ⟨rows, []⟩ from h0) (h.mono fun sys a _ => meets_default sys a)
  exact hvalid.inv

/-- **The numbers of a project's cards are those below its counter, each once**, in every
committed state of every run. -/
theorem numbers_gapless (h0 : Numbered rows)
    (h : StepSystem.Reachable (Script.step (calls ids)) (initial rows) sys) {projectId : Id}
    {project : ProjectRow} (hproject : Rows.project sys.world.committed projectId = some project) :
    (∀ number, (∃ cardId card, Rows.card sys.world.committed cardId = some card ∧
        card.projectId = projectId ∧ card.number = number) ↔
      1 ≤ number ∧ number < project.nextCardNumber) ∧
    ∀ cardId cardId' card card', Rows.card sys.world.committed cardId = some card →
      Rows.card sys.world.committed cardId' = some card' → card.projectId = projectId →
      card'.projectId = projectId → card.number = card'.number → cardId = cardId' := by
  obtain ⟨-, hgapless⟩ := numbered_of_reachable h0 h
  have hnumber {cardId : Id} {card : CardRow}
      (hcard : Rows.card sys.world.committed cardId = some card) :
      (numbering sys.world.committed).number cardId = some (card.projectId, card.number) :=
    congrArg (Option.map fun card : CardRow => (card.projectId, card.number)) hcard
  have hnext : (numbering sys.world.committed).next projectId = some project.nextCardNumber :=
    congrArg (Option.map ProjectRow.nextCardNumber) hproject
  constructor
  · intro number
    have hnumbers := hgapless.numbers projectId number
    rw [hnext] at hnumbers
    simp only [Option.some.injEq, exists_eq_left'] at hnumbers
    rw [← hnumbers]
    constructor
    · rintro ⟨cardId, card, hcard, rfl, rfl⟩
      exact ⟨cardId, hnumber hcard⟩
    · rintro ⟨cardId, hcard⟩
      obtain ⟨card, hcard, heq⟩ := Option.map_eq_some_iff.mp hcard
      obtain ⟨hid, hn⟩ := Prod.mk.inj heq
      exact ⟨cardId, card, hcard, hid, hn⟩
  · intro cardId cardId' card card' hcard hcard' hid hid' hn
    refine hgapless.once cardId cardId' (projectId, card.number) ?_ ?_
    · rw [hnumber hcard, hid]
    · rw [hnumber hcard', hid', hn]

end

/-- A project with one list, and no card yet. -/
def oneList (key : Key) : Slot :=
  if key = .project "p" then .live (.project ⟨"p", "P", "P", none, 1, none, "u"⟩)
  else if key = .board "b" then .live (.board ⟨"b", "p", "B", ['a', '0'], none, none⟩)
  else if key = .list "l" then .live (.list ⟨"l", "p", "b", "L", ['a', '0'], none, none, none⟩)
  else .empty

def someIds : List Id := ["p", "b", "l", "c1", "c2", "c3", "p'", "b'", "l'", "c1'", "c3'"]

/-- Two cards are created at a time; one call fails after it has taken its number and is
made again.  Then a card is archived and the project is duplicated. -/
def cardsCreated : List (Bool × Input Call Int) :=
  (false, .call (.createCard ⟨"c1", "l", "one", "u", true⟩)) :: statements false 2 ++
    (true, .call (.createCard ⟨"c2", "l", "two", "u", true⟩)) :: statements true 1 ++
    statements false 4 ++ statements true 1 ++
    (true, .abort) :: (true, .call (.createCard ⟨"c3", "l", "three", "u", true⟩)) ::
    statements true 6 ++ (false, .call (.archiveCard "c1" true true)) :: statements false 4 ++
    (true, .call (.duplicateProject primed ⟨"p", "Q", "Q", true, "u", true⟩)) ::
    statements true 17

theorem numbered_oneList : Numbered oneList where
  keyed := by
    intro key
    unfold oneList
    split_ifs with hproject hboard hlist
    · exact hproject.symm
    · exact hboard.symm
    · exact hlist.symm
    · trivial
  gapless := by
    have hnext : (numbering oneList).next = fun p => if p = "p" then some 1 else none := by
      funext p
      by_cases hp : p = "p" <;> simp [numbering, oneList, hp, Slot.next, Slot.row?, Row.project?]
    have hnumber : (numbering oneList).number = fun _ => none := by
      funext c
      simp [numbering, oneList, Slot.number, Slot.row?]
    constructor
    case positive => grind
    case numbers => grind
    case once => grind

theorem numbers_gapless_cardsCreated :
    ∃ sys, StepSystem.run (Script.step (calls someIds)) (initial oneList) cardsCreated =
        some sys ∧
      (∃ project, Rows.project sys.world.committed "p" = some project ∧
        project.nextCardNumber = 3 ∧
        ∀ number, (∃ cardId card, Rows.card sys.world.committed cardId = some card ∧
          card.projectId = "p" ∧ card.number = number) ↔
            1 ≤ number ∧ number < project.nextCardNumber) ∧
      ∃ copy, Rows.project sys.world.committed "p'" = some copy ∧ copy.nextCardNumber = 2 ∧
        ∀ number, (∃ cardId card, Rows.card sys.world.committed cardId = some card ∧
          card.projectId = "p'" ∧ card.number = number) ↔
            1 ≤ number ∧ number < copy.nextCardNumber := by
  have hsome : ((StepSystem.run (Script.step (calls someIds)) (initial oneList)
      cardsCreated).map fun sys => (["p", "p'"].map fun id =>
        (Rows.project sys.world.committed id).map (·.nextCardNumber))) =
      some [some 3, some 2] := by decide +kernel
  obtain ⟨sys, hrun, hprojects⟩ := Option.map_eq_some_iff.mp hsome
  have hreach := StepSystem.reachable_of_run hrun
  simp only [List.map_cons, List.map_nil, List.cons.injEq, Option.map_eq_some_iff,
    and_true] at hprojects
  obtain ⟨⟨project, hproject, hnext⟩, copy, hcopy, hnext'⟩ := hprojects
  exact ⟨sys, hrun,
    ⟨project, hproject, hnext, (numbers_gapless numbered_oneList hreach hproject).1⟩,
    copy, hcopy, hnext', (numbers_gapless numbered_oneList hreach hcopy).1⟩

end CardNumbers
end TaskFlow
