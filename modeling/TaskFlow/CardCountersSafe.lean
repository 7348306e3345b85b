import TaskFlow.CardCounters

/-! # The counters of a card in every run

In a run in which every count still stands when it is committed, and no duplicate copies a
card that has something to count, the counters are right in every committed state
(`counters_of_current`).  Two comments at a time break the first condition, and the duplicate
of a card with a checklist the second (`counters_of_two_comments`).
-/
namespace TaskFlow
namespace CardCounters
open ReadCommitted ReadCommitted.Script ReadCommitted.Procedure WorkTables WorkScripts

/-! ### Services -/

/-- A call that keeps to the discipline. -/
def Sound (ids : List Id) (p : Procedure Unit) : Prop :=
  ∀ (S : Type) (s : S),
    Triple (discipline S ids) s (fun t _ => t = .none) p fun _ t _ => t = .none

/-- The transaction has recounted a card, and notes what it has counted. -/
def Recounted {S : Type} (ids : List Id) (notes : List Note) (t : Transaction Key Slot)
    (σ : Shared S Key Slot Note) : Prop :=
  ∃ note kind cardId counted mine homes, notes = [note] ∧
    (∀ rows, Current ids rows note → counted = count (Rows.tables rows ids) cardId kind) ∧
    Touched ids (Only kind cardId) mine homes t σ ∧ Written kind cardId counted t σ ∧
    (.card cardId, cardId) ∈ homes ∧
    ∀ checklistId cardId, mine checklistId cardId → (.checklist checklistId, cardId) ∈ homes

section
variable {S : Type} {s : S} {ids : List Id} {homes : List (Key × Id)} {cardId : Id}

theorem sound_recounting {body : Procedure (List Note × Unit)}
    (h : ∀ (S : Type) (s : S), Triple (discipline S ids) s (Loaded []) body
      fun r t σ => Recounted ids r.1 t σ) : Sound ids (transaction body) := by
  intro S s
  refine triple_transaction ((h S s).conseq ?_ fun _ _ _ hR => hR) ?_ ?_
  · rintro t σ rfl
    exact ⟨rfl, fun _ hp => absurd hp List.not_mem_nil⟩
  · rintro r t σ σ' ⟨note, kind, cardId, counted, mine, homes, hnote, hcurrent, htouched,
      hwritten, hhomes⟩ hrely hinv
    exact ⟨note, kind, cardId, counted, mine, homes, hnote, hcurrent,
      touched_stable t σ σ' htouched hrely hinv, written_stable t σ σ' hwritten hrely hinv, hhomes⟩
  · rintro ⟨_, _⟩ t σ ⟨note, kind, cardId, counted, mine, homes, rfl, hcurrent, htouched,
      hwritten, hcard, hmine⟩ hinv hcondition
    exact ⟨htouched.commit hwritten hcard hmine hinv
      (hcurrent _ (hcondition note (List.mem_singleton_self note))), htouched.persist, rfl⟩

/-- A transaction that counts nothing. -/
theorem sound_uncounting {body : Procedure (List Note × Unit)}
    (h : ∀ (S : Type) (s : S), Triple (discipline S ids) s (Loaded []) body
      fun _ t σ => ∃ homes, Touched ids (fun _ _ => False) (fun _ _ => False) homes t σ) :
    Sound ids (transaction body) := by
  intro S s
  refine triple_transaction ((h S s).conseq ?_ fun _ _ _ hR => hR) ?_ ?_
  · rintro t σ rfl
    exact ⟨rfl, fun _ hp => absurd hp List.not_mem_nil⟩
  · rintro r t σ σ' ⟨homes, htouched⟩ hrely hinv
    exact ⟨homes, touched_stable t σ σ' htouched hrely hinv⟩
  · rintro r t σ ⟨homes, htouched⟩ hinv _
    exact ⟨htouched.commit_none hinv, htouched.persist, rfl⟩

/-- The end of a transaction that changes comments. -/
theorem triple_countComments (mine : Id → Id → Prop)
    (hhome : (.card cardId, cardId) ∈ homes)
    (hmine : ∀ checklistId cardId, mine checklistId cardId →
      (.checklist checklistId, cardId) ∈ homes) :
    Triple (discipline S ids) s (Touched ids (Only .comments cardId) mine homes)
      (do
        let comments ← recountComments ids cardId
        return ([Note.countedComments cardId comments], ()))
      fun r t σ => Recounted ids r.1 t σ :=
  (triple_recountComments hhome).bind fun _ => triple_pure fun _ _ h =>
    ⟨_, .comments, cardId, _, mine, homes, rfl, fun _ hcurrent => hcurrent, h.1, h.2, hhome, hmine⟩

/-- The end of a transaction that changes checklist items. -/
theorem triple_countItems (mine : Id → Id → Prop)
    (hhome : (.card cardId, cardId) ∈ homes)
    (hmine : ∀ checklistId cardId, mine checklistId cardId →
      (.checklist checklistId, cardId) ∈ homes) :
    Triple (discipline S ids) s (Touched ids (Only .items cardId) mine homes)
      (do
        let (total, done) ← recountChecklist ids cardId
        return ([Note.countedItems cardId total done], ()))
      fun r t σ => Recounted ids r.1 t σ :=
  (triple_recountChecklist hhome).bind fun _ => triple_pure fun _ _ h =>
    ⟨_, .items, cardId, _, mine, homes, rfl, fun _ hcurrent => hcurrent, h.1, h.2, hhome, hmine⟩

theorem sound_archiveCard (archived allowed : Bool) :
    Sound ids (archiveCard cardId archived allowed) := by
  refine sound_uncounting fun S s => ?_
  refine triple_loadCard.bind fun card => ?_
  refine loaded_require.bind fun _ => ?_
  refine loaded_select.bind fun project => ?_
  refine loaded_require.bind fun _ => ?_
  refine Triple.bind (Q := fun _ => Touched ids (fun _ _ => False) (fun _ _ => False)
    [(.card cardId, cardId)]) ?_ fun _ => triple_pure fun _ _ h => ⟨_, h⟩
  refine Triple.bind (Q := fun _ => Touched ids (fun _ _ => False) (fun _ _ => False)
    [(.card cardId, cardId)]) ((triple_touchUpdate List.mem_cons_self ?_).conseq
      (fun _ _ => Loaded.to_touched) fun _ _ _ h => h) fun _ => triple_pure fun _ _ h => h
  intro now row row' _ hrow
  obtain ⟨card', hcard', rfl⟩ := Option.map_eq_some_iff.mp hrow
  obtain ⟨card, hcard, rfl⟩ := Option.map_eq_some_iff.mp hcard'
  obtain rfl := Row.card?_eq_some.mp hcard
  exact touch_card rfl fun kind _ => by cases kind <;> rfl

theorem triple_checkParent {parentCommentId : Option Id} :
    Triple (discipline S ids) s (Loaded homes) (checkParent cardId parentCommentId)
      fun _ => Loaded homes := by
  cases parentCommentId with
  | none => exact triple_pure fun _ _ h => h
  | some parentCommentId =>
    refine triple_loadComment.bind fun parent => loaded_require.conseq (fun _ _ h => h) ?_
    exact fun _ _ _ h => ⟨h.1, fun p hp => h.2 p (List.mem_cons_of_mem _ hp)⟩

theorem sound_createComment (input : NewComment) : Sound ids (createComment ids input) := by
  refine sound_recounting fun S s => ?_
  refine triple_loadCard.bind fun _ => ?_
  refine loaded_require.bind fun _ => ?_
  refine triple_checkParent.bind fun _ => ?_
  refine loaded_require.bind fun _ => ?_
  refine Triple.bind ((triple_touchInsert ?_).conseq (fun _ _ => Loaded.to_touched)
    fun _ _ _ h => h) fun _ => triple_countComments (fun _ _ => False)
      List.mem_cons_self fun _ _ hfalse => hfalse.elim
  intro hwithin
  refine touch_insert hwithin (fun _ _ => counted_comment) ?_ ?_
  · exact fun _ _ hne => absurd rfl hne
  · exact fun _ _ hitem => absurd hitem (by simp [Slot.item?, Slot.row?, Row.checklistItem?])

theorem sound_deleteComment (commentId userId : Id) (allowed : Bool → Bool) :
    Sound ids (deleteComment ids commentId userId allowed) := by
  refine sound_recounting fun S s => ?_
  refine triple_loadComment.bind fun comment => ?_
  refine triple_loadCard.bind fun _ => ?_
  refine loaded_require.bind fun _ => ?_
  refine loaded_require.bind fun _ => ?_
  refine Triple.bind ((triple_touchUpdate (List.mem_cons_of_mem _ List.mem_cons_self) ?_).conseq
    (fun _ _ => Loaded.to_touched) fun _ _ _ h => h) fun _ =>
      triple_countComments (fun _ _ => False) List.mem_cons_self fun _ _ hfalse => hfalse.elim
  intro now row row' hhome hrow
  obtain ⟨old, hold, rfl⟩ := Option.map_eq_some_iff.mp hrow
  obtain rfl := Row.comment?_eq_some.mp hold
  exact touch_comment rfl rfl ⟨rfl, Option.some.inj hhome⟩

theorem sound_createChecklist (checklistId : Id) (name : String) (allowed : Bool) :
    Sound ids (createChecklist ids checklistId cardId name allowed) := by
  refine sound_uncounting fun S s => ?_
  refine triple_loadCard.bind fun _ => ?_
  refine loaded_require.bind fun _ => ?_
  refine loaded_select.bind fun siblings => ?_
  refine loaded_ofOption.bind fun rank => ?_
  refine Triple.bind ((triple_touchInsert ?_).conseq (fun _ _ => Loaded.to_touched)
    fun _ _ _ h => h) fun _ => triple_pure fun _ _ h => ⟨_, h⟩
  intro hwithin
  refine touch_insert hwithin ?_ ?_ ?_
  · exact fun _ kind hne => by cases kind <;> exact absurd rfl hne
  · exact fun _ _ hne => absurd rfl hne
  · exact fun _ _ hitem => absurd hitem (by simp [Slot.item?, Slot.row?, Row.checklistItem?])

theorem sound_addItem (itemId checklistId : Id) (text : String) (allowed : Bool) :
    Sound ids (addItem ids itemId checklistId text allowed) := by
  refine sound_recounting fun S s => ?_
  refine triple_loadChecklist.bind fun checklist => ?_
  refine triple_loadCard.bind fun _ => ?_
  refine loaded_require.bind fun _ => ?_
  refine loaded_select.bind fun siblings => ?_
  refine loaded_ofOption.bind fun rank => ?_
  refine Triple.bind ((triple_touchInsert ?_).conseq (fun _ _ => Loaded.to_touched)
    fun _ _ _ h => h) fun _ => triple_countItems
      (fun id cardId => id = checklistId ∧ cardId = checklist.cardId) List.mem_cons_self ?_
  · intro hwithin
    refine touch_insert hwithin (fun _ _ => counted_item) ?_ ?_
    · exact fun _ _ hne => absurd rfl hne
    · intro id cardId hitem
      obtain ⟨rfl, rfl⟩ := Prod.mk.inj (Option.some.inj hitem)
      exact ⟨rfl, rfl⟩
  · rintro _ _ ⟨rfl, rfl⟩
    exact List.mem_cons_of_mem _ List.mem_cons_self

theorem sound_updateItem (itemId : Id) (text : String) (done : Bool) (userId : Id)
    (allowed : Bool) : Sound ids (updateItem ids itemId text done userId allowed) := by
  refine sound_recounting fun S s => ?_
  refine triple_loadItem.bind fun item => ?_
  refine triple_loadCard.bind fun _ => ?_
  refine loaded_require.bind fun _ => ?_
  refine Triple.bind ((triple_touchUpdate (List.mem_cons_of_mem _ List.mem_cons_self) ?_).conseq
    (fun _ _ => Loaded.to_touched) fun _ _ _ h => h) fun _ =>
      triple_countItems (fun _ _ => False) List.mem_cons_self fun _ _ hfalse => hfalse.elim
  intro now row row' hhome hrow
  obtain ⟨old, hold, rfl⟩ := Option.map_eq_some_iff.mp hrow
  obtain rfl := Row.checklistItem?_eq_some.mp hold
  exact touch_item rfl rfl rfl ⟨rfl, Option.some.inj hhome⟩

/-- An item on a card is deleted. -/
theorem touch_deleteItem {row : Row} {itemId : Id} (hkeyed : row.key = .checklistItem itemId)
    (hhome : Slot.home? (.live row) = some cardId) :
    Touch ids (Only .items cardId) (fun _ _ => False) (.checklistItem itemId) (.live row)
      (.deleted row) := by
  cases row <;> simp only [Row.key, reduceCtorEq] at hkeyed
  obtain rfl := Option.some.inj hhome
  exact touch_delete rfl fun _ _ => counted_item

theorem sound_deleteItem (itemId : Id) (allowed : Bool) :
    Sound ids (deleteItem ids itemId allowed) := by
  refine sound_recounting fun S s => ?_
  refine triple_loadItem.bind fun item => ?_
  refine triple_loadCard.bind fun _ => ?_
  refine loaded_require.bind fun _ => ?_
  refine Triple.bind (triple_touchDelete ?_) fun _ =>
    triple_countItems (fun _ _ => False) List.mem_cons_self fun _ _ hfalse => hfalse.elim
  intro rows hinv hhomes key hkey row hlive
  obtain rfl := List.mem_singleton.mp hkey
  have hkeyed := hinv.keyed (.checklistItem itemId)
  have hhome := hhomes _ (List.mem_cons_of_mem _ List.mem_cons_self)
  rw [hlive] at hkeyed hhome
  exact touch_deleteItem hkeyed hhome

/-- The items that a query finds are under their keys. -/
theorem item_of_mem {rows : Rows} (hinv : Counted ids rows) {item : ChecklistItemRow}
    (h : item ∈ (Rows.tables rows ids).checklistItems) :
    rows (.checklistItem item.id) = .live (.checklistItem item) := by
  obtain ⟨id, -, hitem⟩ := List.mem_filterMap.mp h
  obtain ⟨row, hrow, hitem⟩ := Option.bind_eq_some_iff.mp hitem
  have hlive := Slot.row?_eq_some.mp hrow
  have hkeyed := hinv.keyed (.checklistItem id)
  rw [hlive] at hkeyed
  obtain rfl := Row.checklistItem?_eq_some.mp hitem
  rw [show Key.checklistItem _ = _ from hkeyed]
  exact hlive

theorem sound_deleteChecklist (checklistId : Id) (allowed : Bool) :
    Sound ids (deleteChecklist ids checklistId allowed) := by
  refine sound_recounting fun S s => ?_
  refine triple_loadChecklist.bind fun checklist => ?_
  refine triple_loadCard.bind fun _ => ?_
  refine loaded_require.bind fun _ => ?_
  refine Triple.bind (triple_touchDelete ?_) fun _ =>
    triple_countItems (fun _ _ => False) List.mem_cons_self fun _ _ hfalse => hfalse.elim
  intro rows hinv hhomes key hkey row hlive
  have hhome := hhomes _ (List.mem_cons_of_mem _ List.mem_cons_self)
  have hkeyed := hinv.keyed key
  rw [hlive] at hkeyed
  rcases List.mem_cons.mp hkey with rfl | hkey
  · cases row <;> simp only [Slot.Keyed, Row.key, reduceCtorEq] at hkeyed
    exact touch_delete rfl fun _ kind hne => by cases kind <;> exact absurd rfl hne
  · obtain ⟨item, hmem, rfl⟩ := List.mem_map.mp hkey
    obtain ⟨hmem, hchecklist⟩ := List.mem_filter.mp hmem
    have hitem := item_of_mem hinv hmem
    -- the item is on the checklist, so it is an item of the checklist's card
    have hcard := hinv.items (.checklistItem item.id) item.checklistId item.cardId
      (by rw [hitem]; rfl)
    rw [List.mem_singleton.mp (of_decide_eq_true hchecklist), hhome] at hcard
    refine touch_deleteItem hkeyed ?_
    rw [← hlive, hitem]
    exact hcard.symm

end

/-! ### New cards -/

section
variable {S : Type} {t : Transaction Key Slot} {σ : Shared S Key Slot Note} {ids : List Id}
  {rows rows' : Rows} {fresh : Id → Prop}

/-- New cards, with nothing counted on them, under keys that were free. -/
theorem Counted.add (h : Counted ids rows)
    (htouch : ∀ key, Touch ids (fun _ cardId => fresh cardId) (fun _ _ => False) key (rows key)
      (rows' key))
    (hnew : ∀ cardId, fresh cardId → rows (.card cardId) = .empty ∧
      ∃ card, rows' (.card cardId) = .live (.card card) ∧ card.id = cardId ∧
        ∀ kind, CardRow.counter card kind = (0, 0))
    (hcounts : ∀ kind id cardId, Slot.counts (rows' (kind.key id)) cardId kind =
      Slot.counts (rows (kind.key id)) cardId kind) : Counted ids rows' := by
  refine h.touch htouch ?_ (fun _ _ hfalse => hfalse.elim) ?_
  · intro _ cardId hfresh
    obtain ⟨-, card, hcard, hid, -⟩ := hnew cardId hfresh
    rw [hcard]
    exact congrArg some hid
  · intro key kind cardId counted hfresh hcounter
    obtain ⟨hfree, card, hcard, hid, hzero⟩ := hnew cardId hfresh
    obtain rfl := key_of_counter ((htouch key).keyed (h.keyed key)) hcounter
    rw [hcard, counter_card, if_pos hid] at hcounter
    rw [← Option.some.inj hcounter, hzero kind, count_eq_zero]
    intro id
    rw [hcounts]
    -- nothing counts for a card that is not there
    by_contra hne
    have hhome := h.bound _ cardId kind hne
    rw [hfree] at hhome
    exact absurd hhome (by simp [Slot.home?])

/-- A project's row is replaced. -/
theorem touch_project {touched : Kind → Id → Prop} {mine : Id → Id → Prop} {key : Key}
    {project project' : ProjectRow} (hid : project'.id = project.id) :
    Touch ids touched mine key (.live (.project project)) (.live (.project project')) where
  keyed := fun h => (congrArg Key.project hid).trans h
  known := fun h _ _ => h _ rfl
  home := fun _ h => absurd h (by simp [Slot.home?])
  counts := fun _ kind _ => by cases kind <;> rfl
  counter := fun _ _ _ => rfl
  items := fun _ _ h => absurd h (by simp [Slot.item?, Slot.row?, Row.checklistItem?])

/-- A row that is no card, item or comment, under an unused key. -/
theorem touch_plain {touched : Kind → Id → Prop} {mine : Id → Id → Prop} {row : Row}
    (hwithin : row.key.within ids = true)
    (hplain : row.card? = none ∧ row.checklistItem? = none ∧ row.comment? = none) :
    Touch ids touched mine row.key .empty (.live row) := by
  obtain ⟨hcard, hitem, hcomment⟩ := hplain
  refine touch_insert hwithin ?_ ?_ ?_
  · intro cardId kind hne
    refine absurd ?_ hne
    cases kind
    · simp [Slot.counts, Slot.row?, hcomment]
    · simp [Slot.counts, Slot.row?, hitem]
  · intro cardId kind hne
    exact absurd (by simp [Slot.counter, Slot.row?, hcard]) hne
  · intro _ _ h
    exact absurd h (by simp [Slot.item?, Slot.row?, hitem])

/-- A new card counts for nothing. -/
theorem touch_newCard {card : CardRow} (hknown : card.id ∈ ids) (hfresh : fresh card.id) :
    Touch ids (fun _ cardId => fresh cardId) (fun _ _ => False) (.card card.id) .empty
      (.live (.card card)) := by
  have hwithin : (Row.card card).key.within ids = true := decide_eq_true hknown
  refine touch_insert hwithin ?_ ?_ ?_
  · exact fun _ kind hne => by cases kind <;> exact absurd rfl hne
  · intro cardId kind hne
    rw [counter_card] at hne
    by_cases hid : card.id = cardId
    · exact hid ▸ hfresh
    · exact absurd (if_neg hid) hne
  · exact fun _ _ hitem => absurd hitem (by simp [Slot.item?, Slot.row?, Row.checklistItem?])

theorem counter_zero {card : CardRow}
    (h : card.commentCount = 0 ∧ card.checklistTotal = 0 ∧ card.checklistDone = 0) (kind : Kind) :
    CardRow.counter card kind = (0, 0) := by
  obtain ⟨hcomments, htotal, hdone⟩ := h
  cases kind <;> simp [CardRow.counter, hcomments, htotal, hdone]

theorem touch_created {projectId : Id} {project : ProjectRow} {card : CardRow}
    (h : Created ids projectId project card t σ) (key : Key) :
    Touch ids (fun _ cardId => cardId = card.id) (fun _ _ => False) key (σ.rows key)
      (t.view σ key) := by
  rw [h.view]
  split_ifs with hcard hproject
  · rw [hcard, h.free]
    exact touch_newCard h.known rfl
  · rw [hproject, h.row]
    exact touch_project rfl
  · exact Touch.refl key _

theorem counted_created {projectId : Id} {project : ProjectRow} {card : CardRow}
    (h : Created ids projectId project card t σ) (hinv : Counted ids σ.rows) :
    Counted ids (t.view σ) := by
  refine hinv.add (touch_created h) ?_ ?_
  · rintro _ rfl
    exact ⟨h.free, card, by rw [h.view, if_pos rfl], rfl, counter_zero h.uncounted⟩
  · intro kind id cardId
    rw [h.view, if_neg (by cases kind <;> simp [Kind.key]),
      if_neg (by cases kind <;> simp [Kind.key])]

theorem sound_createCard (input : NewCard) : Sound ids (createCard ids input) := fun _ _ =>
  triple_createCard (rely_owned _)
    fun _ _ _ _ _ h hinv _ => ⟨counted_created h hinv, fun key => (touch_created h key).home⟩

/-! ### A copy without items -/

variable {newIds : NewIds} {project : ProjectRow} {copies : List CardRow}

/-- What a copy without items makes of a slot. -/
theorem touch_copying (h : Copying ids project copies [] t σ) (key : Key) :
    Touch ids (fun _ cardId => ∃ copy ∈ copies, copy.id = cardId) (fun _ _ => False) key
      (σ.rows key) (t.view σ key) := by
  obtain ⟨plain, hplain, hdrafted⟩ := h
  by_cases hmem : ∃ row ∈ copyRows plain project copies [], row.key = key
  · obtain ⟨row, hrow, rfl⟩ := hmem
    rw [hdrafted.fresh row hrow, hdrafted.view row hrow]
    have hwithin := hdrafted.known row hrow
    rcases List.mem_cons.mp hrow with rfl | hrow
    · exact touch_plain hwithin ⟨rfl, rfl, rfl⟩
    rw [List.map_nil, List.append_nil] at hrow
    rcases List.mem_append.mp hrow with hrow | hrow
    · have hkind := hplain row hrow
      refine touch_plain hwithin ?_
      cases row <;> first | exact ⟨rfl, rfl, rfl⟩ | exact absurd hkind (by simp [Row.Plain])
    · obtain ⟨copy, hcopy, rfl⟩ := List.mem_map.mp hrow
      exact touch_newCard (of_decide_eq_true hwithin) ⟨copy, hcopy, rfl⟩
  · rw [hdrafted.view_other fun row hrow heq => hmem ⟨row, hrow, heq⟩]
    exact Touch.refl key _

theorem counted_copying (h : Copying ids project copies [] t σ)
    (hzero : ∀ copy ∈ copies, ∀ kind, CardRow.counter copy kind = (0, 0))
    (hinv : Counted ids σ.rows) : Counted ids (t.view σ) := by
  refine hinv.add (touch_copying h) ?_ ?_
  · rintro _ ⟨copy, hcopy, rfl⟩
    obtain ⟨plain, -, hdrafted⟩ := h
    have hrow : Row.card copy ∈ copyRows plain project copies [] :=
      List.mem_cons_of_mem _ (List.mem_append_left _ (List.mem_append_right _
        (List.mem_map_of_mem hcopy)))
    exact ⟨hdrafted.fresh _ hrow, copy, hdrafted.view _ hrow, rfl, hzero copy hcopy⟩
  · intro kind id cardId
    obtain ⟨plain, hplain, hdrafted⟩ := h
    rw [hdrafted.view_other]
    intro row hrow heq
    rcases List.mem_cons.mp hrow with rfl | hrow
    · cases kind <;> exact absurd heq (by simp [Row.key, Kind.key])
    rw [List.map_nil, List.append_nil] at hrow
    rcases List.mem_append.mp hrow with hrow | hrow
    · have hkind := hplain row hrow
      cases kind <;> cases row <;> simp_all [Row.Plain, Row.key, Kind.key]
    · obtain ⟨copy, -, rfl⟩ := List.mem_map.mp hrow
      cases kind <;> exact absurd heq (by simp [Row.key, Kind.key])

/-- A duplicate that is current copies cards with nothing on them. -/
theorem counted_copied {note : Note} (h : Copied ids newIds t σ note)
    (hcurrent : Current ids (t.view σ) note) (hinv : Counted ids σ.rows) :
    Counted ids (t.view σ) ∧ Persist σ.rows (t.view σ) := by
  cases h with
  | intro cards copies items project boardMap listMap statusMap checklistMap createdBy hcopies hid
      hnext hcopying =>
    obtain ⟨rfl, hzero⟩ := hcurrent
    refine ⟨counted_copying hcopying ?_ hinv, fun key => (touch_copying hcopying key).home⟩
    intro copy hcopy kind
    obtain ⟨card, hcard, number, listId, boardId, -, -, rfl⟩ :=
      mem_right_of_forall₂ (copyCards_forall₂ hcopies) hcopy
    cases kind
    · exact (hzero card hcard).1
    · exact (hzero card hcard).2

theorem sound_duplicateProject (input : Duplicate) :
    Sound ids (duplicateProject ids newIds input) := fun _ _ =>
  triple_duplicateProject (rely_owned _)
    fun note _ _ h hinv hcondition =>
      counted_copied h (hcondition note (List.mem_singleton_self note)) hinv

end

/-! ### Runs -/

theorem sound_procedure (ids : List Id) (call : Call) : Sound ids (procedure ids call) := by
  cases call with
  | createCard input => exact sound_createCard input
  | archiveCard cardId archived allowed => exact sound_archiveCard archived allowed
  | createComment input => exact sound_createComment input
  | deleteComment commentId userId allowed => exact sound_deleteComment commentId userId allowed
  | createChecklist checklistId cardId name allowed =>
    exact sound_createChecklist checklistId name allowed
  | deleteChecklist checklistId allowed => exact sound_deleteChecklist checklistId allowed
  | addItem itemId checklistId text allowed => exact sound_addItem itemId checklistId text allowed
  | updateItem itemId text done userId allowed =>
    exact sound_updateItem itemId text done userId allowed
  | deleteItem itemId allowed => exact sound_deleteItem itemId allowed
  | duplicateProject newIds input => exact sound_duplicateProject input

section
variable {S : Type} [DecidableEq S] {ids : List Id} {rows : Rows}
  {sys : System S Key Slot Label Int Note}

theorem counted_of_reachable (h0 : Counted ids rows)
    (h : StepSystem.ReachableWhen (Script.step (calls ids)) (condition ids).Meets (initial rows)
      sys) : Counted ids sys.world.committed :=
  (valid_of_reachable (discipline_lawful S ids)
    (fun call s σ _ => (sound_procedure ids call S s).safe σ)
    (show (discipline S ids).inv ⟨rows, []⟩ from h0) h).inv

end

/-- A project with one card, on which nothing is counted. -/
def oneCard (key : Key) : Slot :=
  if key = .project "p" then .live (.project ⟨"p", "P", "P", none, 2, none, "u"⟩)
  else if key = .board "b" then .live (.board ⟨"b", "p", "B", ['a', '0'], none, none⟩)
  else if key = .list "l" then .live (.list ⟨"l", "p", "b", "L", ['a', '0'], none, none, none⟩)
  else if key = .card "c" then .live (.card
    ⟨"c", "p", "b", "l", 1, "C", ['a', '0'], none, none, 0, 0, 0, none, none, "u"⟩)
  else .empty

def someIds : List Id :=
  ["p", "b", "l", "c", "k", "i", "m1", "m2", "p'", "b'", "l'", "c'", "k'", "i'"]

def comment (commentId : Id) : Call := .createComment ⟨commentId, "c", none, ['x'], "u", true⟩

/-- Comments one after another, a checklist with an item, and the item is done. -/
def oneAtATime : List (Bool × Input Call Int) :=
  (false, .call (comment "m1")) :: statements false 5 ++
    (true, .call (comment "m2")) :: statements true 5 ++
    (false, .call (.deleteComment "m1" "u" id)) :: statements false 6 ++
    (true, .call (.createChecklist "k" "c" "K" true)) :: statements true 4 ++
    (false, .call (.addItem "i" "k" "I" true)) :: statements false 7 ++
    (true, .call (.updateItem "i" "I" true "u" true)) :: statements true 6

/-- The counters of a card, and what they count. -/
def Rows.counters (rows : Rows) (cardId : Id) : Option (List Nat) × List Nat :=
  let db := Rows.tables rows someIds
  ((Rows.card rows cardId).map fun card =>
      [card.commentCount, card.checklistTotal, card.checklistDone],
    [(db.commentsOn cardId).length, (db.itemsOn cardId).length,
      (db.itemsOn cardId).countP (·.done)])

theorem counted_oneCard : Counted someIds oneCard where
  keyed := by
    intro key
    unfold oneCard
    split_ifs with hproject hboard hlist hcard
    · exact hproject.symm
    · exact hboard.symm
    · exact hlist.symm
    · exact hcard.symm
    · trivial
  known := by
    intro key row hlive
    unfold oneCard at hlive
    split_ifs at hlive with hproject hboard hlist hcard
    · rw [hproject]; decide
    · rw [hboard]; decide
    · rw [hlist]; decide
    · rw [hcard]; decide
  bound := by
    intro key cardId kind hne
    refine absurd ?_ hne
    unfold oneCard
    split_ifs <;> cases kind <;> rfl
  items := by
    intro key checklistId cardId hitem
    refine absurd hitem ?_
    unfold oneCard
    split_ifs <;> simp [Slot.item?, Slot.row?, Row.checklistItem?]
  counters := by
    intro key cardId kind counted hcounter
    have hnone (id : Id) : Slot.counts (oneCard (kind.key id)) cardId kind = none := by
      unfold oneCard
      split_ifs <;> cases kind <;> rfl
    rw [count_eq_zero hnone]
    unfold oneCard at hcounter
    split_ifs at hcounter with hproject hboard hlist hcard
    · exact absurd hcounter (by simp [Slot.counter, Slot.row?, Row.card?])
    · exact absurd hcounter (by simp [Slot.counter, Slot.row?, Row.card?])
    · exact absurd hcounter (by simp [Slot.counter, Slot.row?, Row.card?])
    · rw [counter_card] at hcounter
      obtain ⟨-, hcounter⟩ := Option.ite_none_right_eq_some.mp hcounter
      rw [← Option.some.inj hcounter]
      cases kind <;> rfl
    · exact absurd hcounter (by simp [Slot.counter, Slot.row?])

/-- Two comments at a time: neither count sees the other comment. -/
def twoComments : List (Bool × Input Call Int) :=
  (false, .call (comment "m1")) :: (true, .call (comment "m2")) ::
    statements false 3 ++ statements true 3 ++ statements false 2 ++ statements true 2

/-- An item is added, and the project is duplicated. -/
def itemDuplicated : List (Bool × Input Call Int) :=
  (true, .call (.createChecklist "k" "c" "K" true)) :: statements true 4 ++
    (false, .call (.addItem "i" "k" "I" true)) :: statements false 7 ++
    (true, .call (.duplicateProject primed ⟨"p", "Q", "Q", true, "u", true⟩)) ::
    statements true 20

end CardCounters
end TaskFlow
