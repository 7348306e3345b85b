import TaskFlow.ScriptLogic
import TaskFlow.WorkScripts

/-! # Rules for the services of a project

`Drafted ids rows` says of a transaction that it has inserted these rows and written nothing
else.  It survives whatever other sessions do to rows they may write, and each insert adds
its row to the draft.  `triple_copyShape` and `triple_copyWork` say which rows a duplicate
has drafted when it commits.
-/
namespace TaskFlow
namespace WorkScripts
open ReadCommitted ReadCommitted.Script ReadCommitted.Procedure WorkTables

/-- The rows in the slots have the slots' keys. -/
def Slot.Keyed (key : Key) : Slot → Prop
  | .empty => True
  | .live row | .deleted row => row.key = key

theorem Slot.row?_eq_some {slot : Slot} {row : Row} :
    slot.row? = some row ↔ slot = .live row := by
  cases slot <;> simp [Slot.row?]

theorem Row.project?_eq_some {row : Row} {a : ProjectRow} :
    row.project? = some a ↔ row = .project a := by
  cases row <;> simp [Row.project?]

theorem Row.status?_eq_some {row : Row} {a : StatusRow} :
    row.status? = some a ↔ row = .status a := by
  cases row <;> simp [Row.status?]

theorem Row.label?_eq_some {row : Row} {a : LabelRow} :
    row.label? = some a ↔ row = .label a := by
  cases row <;> simp [Row.label?]

theorem Row.board?_eq_some {row : Row} {a : BoardRow} :
    row.board? = some a ↔ row = .board a := by
  cases row <;> simp [Row.board?]

theorem Row.list?_eq_some {row : Row} {a : ListRow} :
    row.list? = some a ↔ row = .list a := by
  cases row <;> simp [Row.list?]

theorem Row.card?_eq_some {row : Row} {a : CardRow} :
    row.card? = some a ↔ row = .card a := by
  cases row <;> simp [Row.card?]

theorem Row.cardLabel?_eq_some {row : Row} {a : CardLabelRow} :
    row.cardLabel? = some a ↔ row = .cardLabel a := by
  cases row <;> simp [Row.cardLabel?]

theorem Row.checklist?_eq_some {row : Row} {a : ChecklistRow} :
    row.checklist? = some a ↔ row = .checklist a := by
  cases row <;> simp [Row.checklist?]

theorem Row.checklistItem?_eq_some {row : Row} {a : ChecklistItemRow} :
    row.checklistItem? = some a ↔ row = .checklistItem a := by
  cases row <;> simp [Row.checklistItem?]

theorem Row.comment?_eq_some {row : Row} {a : CommentRow} :
    row.comment? = some a ↔ row = .comment a := by
  cases row <;> simp [Row.comment?]

/-- The rows a transaction has inserted, which are all it has written. -/
structure Drafted {S : Type} (ids : List Id) (rows : List Row) (t : Transaction Key Slot)
    (σ : Shared S Key Slot Note) : Prop where
  known : ∀ row ∈ rows, row.key.within ids = true
  nodup : (rows.map Row.key).Nodup
  keys : ∀ key ∈ t.pending.map Prod.fst, ∃ row ∈ rows, row.key = key
  own : ∀ row ∈ rows, t.own row.key
  mine : ∀ row ∈ rows, row.key ∈ t.pending.map Prod.fst
  fresh : ∀ row ∈ rows, σ.rows row.key = .empty
  view : ∀ row ∈ rows, t.view σ row.key = .live row

section
variable {S : Type} {s : S} {D : Discipline S Key Slot Label Int Note}
  {t : Transaction Key Slot} {σ : Shared S Key Slot Note} {rows rows' : List Row} {row : Row}
  {ids : List Id}

theorem drafted_none : Drafted ids [] .none σ :=
  ⟨fun _ h => absurd h List.not_mem_nil, List.nodup_nil,
    fun _ h => absurd h List.not_mem_nil, fun _ h => absurd h List.not_mem_nil,
    fun _ h => absurd h List.not_mem_nil, fun _ h => absurd h List.not_mem_nil,
    fun _ h => absurd h List.not_mem_nil⟩

theorem Drafted.perm (h : Drafted ids rows t σ) (hperm : rows.Perm rows') :
    Drafted ids rows' t σ where
  known := fun row hrow => h.known row (hperm.mem_iff.mpr hrow)
  nodup := (hperm.map Row.key).nodup_iff.mp h.nodup
  keys := by
    intro key hkey
    obtain ⟨row, hrow, heq⟩ := h.keys key hkey
    exact ⟨row, hperm.mem_iff.mp hrow, heq⟩
  own := fun row hrow => h.own row (hperm.mem_iff.mpr hrow)
  mine := fun row hrow => h.mine row (hperm.mem_iff.mpr hrow)
  fresh := fun row hrow => h.fresh row (hperm.mem_iff.mpr hrow)
  view := fun row hrow => h.view row (hperm.mem_iff.mpr hrow)

/-- What other sessions do to rows that are not locked leaves a draft as it is. -/
theorem drafted_stable
    (hD : ∀ own σ σ', D.rely s own σ σ' → ∀ key, own key → σ'.rows key = σ.rows key) :
    Stable D s (Drafted ids rows) := by
  intro t σ σ' h hrely _
  refine ⟨h.known, h.nodup, h.keys, h.own, h.mine, ?_, ?_⟩
  · intro row hrow
    rw [hD _ _ _ hrely _ (h.own row hrow)]
    exact h.fresh row hrow
  · intro row hrow
    rw [Transaction.view_of_mem (h.mine row hrow) σ σ']
    exact h.view row hrow

/-- A key outside the draft is seen as it is committed. -/
theorem Drafted.view_other (h : Drafted ids rows t σ) {key : Key}
    (hkey : ∀ row ∈ rows, row.key ≠ key) : t.view σ key = σ.rows key := by
  apply Transaction.view_of_notMem
  intro hmem
  obtain ⟨row, hrow, heq⟩ := h.keys key hmem
  exact hkey row hrow heq

/-- An insert adds its row to the draft. -/
theorem Drafted.insert (h : Drafted ids rows t σ) (hwithin : row.key.within ids = true)
    (hfree : t.view σ row.key = .empty) :
    Drafted ids (row :: rows) (t.run [] [(row.key, .live row)]) σ := by
  have hnew : ∀ old ∈ rows, old.key ≠ row.key := by
    intro old hold heq
    have hlive := h.view old hold
    rw [heq, hfree] at hlive
    exact absurd hlive (by simp)
  have hview : ∀ key, (t.run [] [(row.key, .live row)]).view σ key =
      if key = row.key then .live row else t.view σ key := by
    intro key
    rw [Transaction.view_run, overlay_cons, overlay_nil, Function.update_apply]
  constructor
  case known => exact List.forall_mem_cons.mpr ⟨hwithin, h.known⟩
  case nodup =>
    rw [List.map_cons, List.nodup_cons]
    refine ⟨?_, h.nodup⟩
    intro hmem
    obtain ⟨old, hold, heq⟩ := List.mem_map.mp hmem
    exact hnew old hold heq
  case keys =>
    intro key hkey
    rw [Transaction.run_pending, List.map_append, List.mem_append] at hkey
    rcases hkey with hkey | hkey
    · exact ⟨row, List.mem_cons_self, (List.mem_singleton.mp hkey).symm⟩
    · obtain ⟨old, hold, heq⟩ := h.keys key hkey
      exact ⟨old, List.mem_cons_of_mem _ hold, heq⟩
  case own =>
    intro other hother
    rcases List.mem_cons.mp hother with rfl | hold
    · exact .inr (by simp)
    · exact .inl (h.own other hold)
  case mine =>
    intro other hother
    rw [Transaction.run_pending, List.map_append, List.mem_append]
    rcases List.mem_cons.mp hother with rfl | hold
    · exact .inl (by simp)
    · exact .inr (h.mine other hold)
  case fresh =>
    intro other hother
    rcases List.mem_cons.mp hother with rfl | hold
    · rw [← h.view_other hnew]
      exact hfree
    · exact h.fresh other hold
  case view =>
    intro other hother
    rw [hview]
    rcases List.mem_cons.mp hother with rfl | hold
    · exact if_pos rfl
    · rw [if_neg (hnew other hold)]
      exact h.view other hold

/-- An update of a drafted row is a draft with the new row. -/
theorem Drafted.update {new : Row} (h : Drafted ids (row :: rows) t σ)
    (hkey : new.key = row.key) :
    Drafted ids (new :: rows) (t.run [] [(row.key, .live new)]) σ := by
  have hnew : ∀ old ∈ rows, old.key ≠ row.key := by
    intro old hold heq
    have hnodup := h.nodup
    rw [List.map_cons, List.nodup_cons] at hnodup
    exact hnodup.1 (heq ▸ List.mem_map_of_mem hold)
  obtain ⟨hwithin, hknown⟩ := List.forall_mem_cons.mp h.known
  constructor
  case known => exact List.forall_mem_cons.mpr ⟨hkey ▸ hwithin, hknown⟩
  case nodup =>
    have hnodup := h.nodup
    rw [List.map_cons] at hnodup ⊢
    rw [hkey]
    exact hnodup
  case keys =>
    intro key hmem
    rw [Transaction.run_pending, List.map_append, List.mem_append] at hmem
    rcases hmem with hmem | hmem
    · exact ⟨new, List.mem_cons_self, hkey.trans (List.mem_singleton.mp hmem).symm⟩
    · obtain ⟨old, hold, heq⟩ := h.keys key hmem
      rcases List.mem_cons.mp hold with rfl | hold
      · exact ⟨new, List.mem_cons_self, hkey.trans heq⟩
      · exact ⟨old, List.mem_cons_of_mem _ hold, heq⟩
  case own =>
    intro other hother
    rcases List.mem_cons.mp hother with rfl | hold
    · exact .inr (by simp [hkey])
    · exact .inl (h.own other (List.mem_cons_of_mem _ hold))
  case mine =>
    intro other hother
    rw [Transaction.run_pending, List.map_append, List.mem_append]
    rcases List.mem_cons.mp hother with rfl | hold
    · exact .inl (by simp [hkey])
    · exact .inr (h.mine other (List.mem_cons_of_mem _ hold))
  case fresh =>
    intro other hother
    rcases List.mem_cons.mp hother with rfl | hold
    · rw [hkey]
      exact h.fresh row List.mem_cons_self
    · exact h.fresh other (List.mem_cons_of_mem _ hold)
  case view =>
    intro other hother
    rw [Transaction.view_run, overlay_cons, overlay_nil, Function.update_apply]
    rcases List.mem_cons.mp hother with rfl | hold
    · exact if_pos hkey
    · rw [if_neg (hnew other hold)]
      exact h.view other (List.mem_cons_of_mem _ hold)

/-! ### Statements -/

variable {P : Assertion S Key Slot Note} {α : Type}

/-- An insert, where it does not throw. -/
theorem triple_insertUnique {unique : Rows → Bool} {Q : Unit → Assertion S Key Slot Note}
    (hP : Stable D s P)
    (h : ∀ t σ, P t σ → D.inv σ → row.key.within ids = true → row.insertable (t.view σ) = true →
      Q () (t.run [] [(row.key, .live row)]) σ) :
    Triple D s P (insertUnique ids unique row) Q := by
  unfold insertUnique
  refine Triple.bind (triple_require (Q := fun _ t σ => P t σ ∧ row.key.within ids = true)
    fun t σ hPt hwithin => ⟨hPt, hwithin⟩) fun _ => ?_
  refine Triple.bind (Q := fun inserted t σ => inserted = true → Q () t σ) ?_ fun inserted => ?_
  · refine triple_statement (fun t σ σ' hPt hrely hinv => ⟨hP t σ σ' hPt.1 hrely hinv, hPt.2⟩) ?_
    intro t σ _ _ hPt hinv _ _ hinserted
    rw [hinserted, if_pos rfl]
    rw [Bool.and_eq_true] at hinserted
    exact h t σ hPt.1 hinv hPt.2 hinserted.1
  · exact triple_require fun t σ hQ hinserted => hQ hinserted

theorem triple_insert {Q : Unit → Assertion S Key Slot Note} (hP : Stable D s P)
    (h : ∀ t σ, P t σ → D.inv σ → row.key.within ids = true → row.insertable (t.view σ) = true →
      Q () (t.run [] [(row.key, .live row)]) σ) :
    Triple D s P (insert ids row) Q := triple_insertUnique hP h

/-- Inserts one after another, for an assertion about what is still to be inserted. -/
theorem triple_insertAll {P : List Row → Assertion S Key Slot Note}
    (hP : ∀ rows, Stable D s (P rows))
    (h : ∀ row rows t σ, P (row :: rows) t σ → D.inv σ → row.key.within ids = true →
      row.insertable (t.view σ) = true → P rows (t.run [] [(row.key, .live row)]) σ) :
    Triple D s (P rows) (insertAll ids rows) fun _ => P [] := by
  induction rows with
  | nil => exact triple_pure fun _ _ hPt => hPt
  | cons row rows ih =>
    exact (triple_insert (hP (row :: rows)) (h row rows)).bind fun _ => ih

theorem insertable_empty {rows : Rows} (h : row.insertable rows = true) :
    rows row.key = .empty := by
  unfold Row.insertable at h
  exact (of_decide_eq_true h).1

/-- Inserts of rows of one table, for an assertion about those inserted so far. -/
theorem triple_insertAll_map {β : Type} {f : β → Row} {P : List β → Assertion S Key Slot Note}
    (hP : ∀ done, Stable D s (P done))
    (h : ∀ done b t σ, P done t σ → (f b).key.within ids = true → t.view σ (f b).key = .empty →
      P (done ++ [b]) (t.run [] [((f b).key, .live (f b))]) σ) {copies : List β} :
    Triple D s (P []) (insertAll ids (copies.map f)) fun _ => P copies := by
  have hloop : Triple D s
      (fun t σ => ∃ done rest, copies.map f = rest.map f ∧ copies = done ++ rest ∧ P done t σ)
      (insertAll ids (copies.map f))
      fun _ t σ => ∃ done rest, [] = rest.map f ∧ copies = done ++ rest ∧ P done t σ := by
    refine triple_insertAll (P := fun rows t σ => ∃ done rest, rows = rest.map f ∧
      copies = done ++ rest ∧ P done t σ) ?_ ?_
    · rintro rows t σ σ' ⟨done, rest, hrows, hcopies, hdone⟩ hrely hinv
      exact ⟨done, rest, hrows, hcopies, hP done t σ σ' hdone hrely hinv⟩
    · rintro row rows t σ ⟨done, rest, hrows, hcopies, hdone⟩ _ hwithin hfree
      cases rest with
      | nil => exact absurd hrows (by simp)
      | cons b rest =>
        obtain ⟨rfl, rfl⟩ := List.cons.inj hrows
        exact ⟨done ++ [b], rest, rfl, by rw [hcopies, List.append_cons],
          h done b t σ hdone hwithin (insertable_empty hfree)⟩
  refine hloop.conseq (fun t σ hnone => ⟨[], copies, rfl, rfl, hnone⟩) ?_
  rintro _ t σ ⟨done, rest, hrest, hcopies, hdone⟩
  obtain rfl := List.map_eq_nil_iff.mp hrest.symm
  rw [hcopies, List.append_nil]
  exact hdone

/-- An update of a row that the transaction has inserted. -/
theorem triple_updateDrafted (ids : List Id) (row : Row) {row' : Row}
    {f : Int → Row → Option Row} {Q : Assertion S Key Slot Note}
    (hf : ∀ now, f now row = some row') (hP : Stable D s P)
    (hdrafted : ∀ t σ, P t σ → ∃ rest, Drafted ids (row :: rest) t σ)
    (hQ : ∀ t σ, P t σ → Q (t.run [] [(row.key, .live row')]) σ) :
    Triple D s P (updateRow row.key f) fun _ => Q := by
  have hview {t : Transaction Key Slot} {σ : Shared S Key Slot Note} (h : P t σ) (now : Int) :
      (((t.view σ row.key).row?.bind (f now)).map Slot.live) = some (.live row') := by
    obtain ⟨rest, hrest⟩ := hdrafted t σ h
    rw [hrest.view row List.mem_cons_self]
    exact congrArg (Option.map Slot.live) (hf now)
  refine Triple.bind (Q := fun _ => Q) (triple_update hP ?_ ?_) fun _ =>
    triple_pure fun _ _ h => h
  · intro t σ now _ slot h _ hslot _ _
    rw [hview h now] at hslot
    obtain rfl := Option.some.inj hslot
    exact hQ t σ h
  · intro t σ now _ h _ hslot _
    rw [hview h now] at hslot
    exact absurd hslot (by simp)

/-- A query changes nothing. -/
theorem triple_selectRows {query : Tables → α} (hP : Stable D s P) :
    Triple D s P (selectRows ids query) fun _ => P :=
  triple_select hP fun _ _ hPt _ _ _ _ => hPt

end

/-! ### Creating a card -/

/-- The project after its next number is taken. -/
def moved (project : ProjectRow) : ProjectRow :=
  { project with nextCardNumber := project.nextCardNumber + 1 }

/-- The transaction has taken the next number, and holds the project's row. -/
structure Taken {S : Type} (projectId : Id) (project : ProjectRow) (t : Transaction Key Slot)
    (σ : Shared S Key Slot Note) : Prop where
  own : t.own (.project projectId)
  pending : t.pending = [(.project projectId, .live (.project (moved project)))]
  row : σ.rows (.project projectId) = .live (.project project)

/-- The transaction has created the card, with the number taken and nothing on it. -/
structure Created {S : Type} (ids : List Id) (projectId : Id) (project : ProjectRow)
    (card : CardRow) (t : Transaction Key Slot) (σ : Shared S Key Slot Note) : Prop where
  ownProject : t.own (.project projectId)
  ownCard : t.own (.card card.id)
  pending : t.pending = [(.card card.id, .live (.card card)),
    (.project projectId, .live (.project (moved project)))]
  row : σ.rows (.project projectId) = .live (.project project)
  known : card.id ∈ ids
  free : σ.rows (.card card.id) = .empty
  projectId : card.projectId = projectId
  number : card.number = project.nextCardNumber
  uncounted : card.commentCount = 0 ∧ card.checklistTotal = 0 ∧ card.checklistDone = 0

section
variable {S : Type} {s : S} {D : Discipline S Key Slot Label Int Note}
  {t : Transaction Key Slot} {σ : Shared S Key Slot Note} {ids : List Id} {projectId : Id}
  {project : ProjectRow} {card : CardRow}

theorem Taken.created (h : Taken projectId project t σ) (hproject : card.projectId = projectId)
    (hnumber : card.number = project.nextCardNumber)
    (huncounted : card.commentCount = 0 ∧ card.checklistTotal = 0 ∧ card.checklistDone = 0)
    (hwithin : (Row.card card).key.within ids = true)
    (hfree : t.view σ (.card card.id) = .empty) :
    Created ids projectId project card (t.run [] [(.card card.id, .live (.card card))]) σ where
  ownProject := .inl h.own
  ownCard := .inr (by simp)
  pending := by simp [h.pending]
  row := h.row
  known := of_decide_eq_true hwithin
  free := by
    have hsame := Transaction.view_of_notMem (t := t) (k := .card card.id) (by simp [h.pending]) σ
    exact hsame.symm.trans hfree
  projectId := hproject
  number := hnumber
  uncounted := huncounted

theorem Created.view (h : Created ids projectId project card t σ) (key : Key) :
    t.view σ key = if key = .card card.id then .live (.card card) else
      if key = .project projectId then .live (.project (moved project)) else σ.rows key := by
  unfold Transaction.view
  rw [h.pending, overlay_cons, overlay_cons, overlay_nil, Function.update_apply,
    Function.update_apply]

/-- The increment, which locks the project's row. -/
theorem triple_take :
    Triple D s (fun t _ => t = .none)
      (updateRow (.project projectId) fun _ => incremented)
      fun counter t σ => ∀ row, counter.bind Row.project? = some row →
        ∃ project, row = moved project ∧ Taken projectId project t σ := by
  refine Triple.bind (Q := fun written t σ => ∀ row,
    (written.bind Slot.row?).bind Row.project? = some row →
      ∃ project, row = moved project ∧ Taken projectId project t σ)
    (triple_update stable_none ?_ ?_) fun written => triple_pure fun _ _ h => h
  · rintro t σ _ _ slot rfl _ hslot _ _ row hrow
    obtain ⟨row', hrow', rfl⟩ := Option.map_eq_some_iff.mp hslot
    obtain ⟨old, hold, hold'⟩ := Option.bind_eq_some_iff.mp hrow'
    obtain ⟨project, hproject, rfl⟩ := Option.map_eq_some_iff.mp hold'
    obtain rfl := Option.some.inj hrow
    obtain rfl := Row.project?_eq_some.mp hproject
    refine ⟨_, rfl, .inr (by simp), rfl, ?_⟩
    exact Slot.row?_eq_some.mp hold
  · intro t σ _ _ _ _ _ _ row hrow
    exact absurd hrow (by simp)

section
variable (hD : ∀ own σ σ', D.rely s own σ σ' → ∀ key, own key → σ'.rows key = σ.rows key)
include hD

theorem taken_stable : Stable D s (Taken projectId project) := by
  intro t σ σ' h hrely _
  exact ⟨h.own, h.pending, (hD _ _ _ hrely _ h.own).trans h.row⟩

theorem created_stable : Stable D s (Created ids projectId project card) := by
  intro t σ σ' h hrely _
  exact ⟨h.ownProject, h.ownCard, h.pending, (hD _ _ _ hrely _ h.ownProject).trans h.row,
    h.known, (hD _ _ _ hrely _ h.ownCard).trans h.free, h.projectId, h.number, h.uncounted⟩

/-- Creating a card keeps to a discipline that its one commit keeps to. -/
theorem triple_createCard {input : NewCard}
    (hcommit : ∀ projectId project card t σ, Created ids projectId project card t σ → D.inv σ →
      D.condition.commit [] (t.view σ) →
      D.inv (σ.commit s t []) ∧ D.guarantee s [] t.own σ (σ.commit s t [])) :
    Triple D s (fun t _ => t = .none) (createCard ids input) fun _ t _ => t = .none := by
  refine triple_transaction (R := fun r t σ => r.1 = [] ∧ ∃ projectId project card,
    Created ids projectId project card t σ) ?_ ?_ ?_
  · refine Triple.bind (Q := fun _ t _ => t = .none) ?_ fun list => ?_
    · exact Triple.bind (Q := fun _ t _ => t = .none)
        (triple_select stable_none fun _ _ h _ _ _ _ => h)
        fun _ => triple_ofOption fun _ _ _ _ h => h
    refine Triple.bind (Q := fun _ t _ => t = .none) (triple_require fun _ _ h _ => h)
      fun _ => ?_
    refine (triple_take).bind fun counter => ?_
    refine Triple.bind (Q := fun counter t σ => ∃ project, counter = moved project ∧
      Taken list.projectId project t σ) (triple_ofOption fun row t σ hrow h => h row hrow)
      fun counter => ?_
    rintro rest hrest t σ ⟨project, rfl, htaken⟩
    refine Triple.bind (Q := fun _ => Taken list.projectId project)
      (triple_select (taken_stable hD) fun _ _ h _ _ _ _ => h) (fun siblings => ?_) rest hrest
      t σ htaken
    refine Triple.bind (Q := fun _ => Taken list.projectId project)
      (triple_select (taken_stable hD) fun _ _ h _ _ _ _ => h) fun defaultStatus => ?_
    refine Triple.bind (Q := fun _ => Taken list.projectId project)
      (triple_ofOption fun _ _ _ _ h => h) fun rank => ?_
    refine Triple.bind (Q := fun _ t σ => ∃ card, Created ids list.projectId project card t σ)
      (triple_insert (taken_stable hD) ?_) fun _ => triple_pure ?_
    · intro t σ h _ hwithin hfree
      exact ⟨_, h.created rfl (Nat.add_sub_cancel _ 1) ⟨rfl, rfl, rfl⟩ hwithin
        (insertable_empty hfree)⟩
    · rintro t σ ⟨card, h⟩
      exact ⟨rfl, _, project, card, h⟩
  · rintro r t σ σ' ⟨hr, projectId, project, card, h⟩ hrely hinv
    exact ⟨hr, projectId, project, card, created_stable hD t σ σ' h hrely hinv⟩
  · rintro ⟨_, _⟩ t σ ⟨rfl, projectId, project, card, h⟩ hinv hcondition
    obtain ⟨hinv', hguarantee⟩ := hcommit projectId project card t σ h hinv hcondition
    exact ⟨hinv', hguarantee, rfl⟩

end

end

/-! ### Duplicating a project -/

/-- A row of the copy that is no project, card, checklist item or comment. -/
def Row.Plain : Row → Prop
  | .project _ | .card _ | .checklistItem _ | .comment _ => False
  | _ => True

/-- The rows of a copy. -/
def copyRows (plain : List Row) (project : ProjectRow) (cards : List CardRow)
    (items : List ChecklistItemRow) : List Row :=
  .project project :: (plain ++ cards.map .card ++ items.map .checklistItem)

/-- The transaction has inserted a project, these cards and items, and other rows. -/
def Copying {S : Type} (ids : List Id) (project : ProjectRow) (cards : List CardRow)
    (items : List ChecklistItemRow) (t : Transaction Key Slot) (σ : Shared S Key Slot Note) :
    Prop :=
  ∃ plain : List Row, (∀ row ∈ plain, row.Plain) ∧
    Drafted ids (copyRows plain project cards items) t σ

/-- What a duplicate has inserted when it commits, with what it has found. -/
inductive Copied {S : Type} (ids : List Id) (newIds : NewIds) (t : Transaction Key Slot)
    (σ : Shared S Key Slot Note) : Note → Prop where
  | intro (cards copies : List CardRow) (items : List ChecklistItemRow) (project : ProjectRow)
      (boardMap listMap statusMap checklistMap : IdMap) (createdBy : Id)
      (hcopies : copyCards newIds boardMap listMap statusMap createdBy 0 cards = .ok copies)
      (hid : project.id = newIds.project) (hnext : project.nextCardNumber = cards.length + 1)
      (hcopying : Copying ids project copies (copyItems newIds checklistMap items) t σ) :
      Copied ids newIds t σ (.copied cards items)

section
variable {S : Type} {s : S} {D : Discipline S Key Slot Label Int Note}
  {t : Transaction Key Slot} {σ : Shared S Key Slot Note} {ids : List Id} {newIds : NewIds}
  {project : ProjectRow} {cards : List CardRow} {items : List ChecklistItemRow}
  (hD : ∀ own σ σ', D.rely s own σ σ' → ∀ key, own key → σ'.rows key = σ.rows key)
include hD

theorem copying_stable : Stable D s (Copying ids project cards items) := by
  rintro t σ σ' ⟨plain, hplain, hdrafted⟩ hrely hinv
  exact ⟨plain, hplain, drafted_stable hD t σ σ' hdrafted hrely hinv⟩

theorem copied_stable {note : Note} : Stable D s fun t σ => Copied ids newIds t σ note := by
  intro t σ σ' h hrely hinv
  cases h with
  | intro cards copies items project boardMap listMap statusMap checklistMap createdBy hcopies hid
      hnext hcopying =>
    exact .intro cards copies items project boardMap listMap statusMap checklistMap createdBy
      hcopies hid hnext (copying_stable hD t σ σ' hcopying hrely hinv)

/-- Rows that are no project, card, item or comment. -/
theorem triple_insertAll_plain {rows : List Row} (hrows : ∀ row ∈ rows, row.Plain) :
    Triple D s (Copying ids project cards items) (insertAll ids rows)
      fun _ => Copying ids project cards items := by
  have hloop : Triple D s
      (fun t σ => (∀ row ∈ rows, row.Plain) ∧ Copying ids project cards items t σ)
      (insertAll ids rows) fun _ t σ =>
        (∀ row ∈ ([] : List Row), row.Plain) ∧ Copying ids project cards items t σ := by
    refine triple_insertAll (P := fun rows t σ =>
      (∀ row ∈ rows, row.Plain) ∧ Copying ids project cards items t σ) ?_ ?_
    · intro rows t σ σ' h hrely hinv
      exact ⟨h.1, copying_stable hD t σ σ' h.2 hrely hinv⟩
    · rintro row rows t σ ⟨hrest, plain, hplain, hdrafted⟩ _ hwithin hfree
      refine ⟨fun other hother => hrest other (List.mem_cons_of_mem _ hother), row :: plain, ?_, ?_⟩
      · exact List.forall_mem_cons.mpr ⟨hrest row List.mem_cons_self, hplain⟩
      · exact (hdrafted.insert hwithin (insertable_empty hfree)).perm (List.Perm.swap _ _ _)
  exact hloop.conseq (fun _ _ h => ⟨hrows, h⟩) fun _ _ _ h => h.2

theorem triple_insertAll_cards {copies : List CardRow} :
    Triple D s (Copying ids project [] items) (insertAll ids (copies.map .card))
      fun _ => Copying ids project copies items := by
  refine triple_insertAll_map (P := fun done => Copying ids project done items)
    (fun _ => copying_stable hD) ?_
  rintro done card t σ ⟨plain, hplain, hdrafted⟩ hwithin hfree
  refine ⟨plain, hplain, (hdrafted.insert hwithin hfree).perm ?_⟩
  refine (List.Perm.swap _ _ _).trans (List.Perm.cons _ ?_)
  rw [List.map_append, List.map_singleton, ← List.append_assoc, List.append_assoc _ [_]]
  exact List.perm_middle.symm

theorem triple_insertAll_items {copies : List ChecklistItemRow} :
    Triple D s (Copying ids project cards []) (insertAll ids (copies.map .checklistItem))
      fun _ => Copying ids project cards copies := by
  refine triple_insertAll_map (P := fun done => Copying ids project cards done)
    (fun _ => copying_stable hD) ?_
  rintro done item t σ ⟨plain, hplain, hdrafted⟩ hwithin hfree
  refine ⟨plain, hplain, (hdrafted.insert hwithin hfree).perm ?_⟩
  refine (List.Perm.swap _ _ _).trans (List.Perm.cons _ ?_)
  rw [List.map_append, List.map_singleton, ← List.append_assoc]
  exact (List.perm_append_singleton _ _).symm

/-- A query, and the inserts of rows of no counted kind that are made of it. -/
theorem triple_copyPlain {α : Type} {query : Tables → List α} {copy : List α → List Row}
    (hcopy : ∀ rows, ∀ row ∈ copy rows, row.Plain) {β : Type} {rest : List α → Procedure β}
    {Q : β → Assertion S Key Slot Note}
    (hrest : ∀ rows, Triple D s (Copying ids project cards items) (rest rows) Q) :
    Triple D s (Copying ids project cards items) (do
      let rows ← selectRows ids query
      insertAll ids (copy rows)
      rest rows) Q :=
  (triple_selectRows (copying_stable hD)).bind fun rows =>
    (triple_insertAll_plain hD (hcopy rows)).bind fun _ => hrest rows

omit hD in
theorem plain_of_map {α : Type} {f : α → Row} (hf : ∀ a, (f a).Plain) (rows : List α) :
    ∀ row ∈ rows.map f, row.Plain := by
  intro row hrow
  obtain ⟨a, _, rfl⟩ := List.mem_map.mp hrow
  exact hf a

/-- The copy's project, with nothing counted on it yet. -/
theorem triple_copyShape {input : Duplicate} :
    Triple D s (fun t _ => t = .none) (copyShape ids newIds input) fun _ t σ =>
      ∃ project, project.id = newIds.project ∧ project.nextCardNumber = 1 ∧
        Copying ids project [] [] t σ := by
  unfold copyShape
  refine (triple_selectRows stable_none).bind fun source => ?_
  refine Triple.bind (Q := fun _ t _ => t = .none) (triple_ofOption fun _ _ _ _ h => h)
    fun source => ?_
  refine Triple.bind (Q := fun _ t _ => t = .none) (triple_require fun _ _ h _ => h)
    fun _ => ?_
  refine (triple_selectRows stable_none).bind fun description => ?_
  refine Triple.bind (Q := fun _ => Copying ids
    ⟨newIds.project, input.name, input.key, description, 1, none, input.userId⟩ [] [])
    (triple_insertUnique stable_none ?_) fun _ => ?_
  · rintro t σ rfl _ hwithin hfree
    exact ⟨[], fun _ h => absurd h List.not_mem_nil,
      (drafted_none).insert hwithin (insertable_empty hfree)⟩
  refine triple_copyPlain hD ?_ fun statuses => ?_
  · exact fun rows => plain_of_map (by exact fun _ => trivial) _
  refine triple_copyPlain hD ?_ fun labels => ?_
  · exact fun rows => plain_of_map (by exact fun _ => trivial) _
  refine triple_copyPlain hD ?_ fun fields => ?_
  · exact fun rows => plain_of_map (by exact fun _ => trivial) _
  refine (triple_selectRows (copying_stable hD)).bind fun boards => ?_
  refine Triple.bind (triple_insertAll_plain hD ?_) fun _ => ?_
  · exact plain_of_map (by exact fun _ => trivial) _
  refine (triple_selectRows (copying_stable hD)).bind fun lists => ?_
  refine Triple.bind (Q := fun _ => Copying ids _ [] []) (triple_ofOption fun _ _ _ _ h => h)
    fun listCopies => ?_
  refine Triple.bind (triple_insertAll_plain hD ?_) fun _ => ?_
  · exact plain_of_map (by exact fun _ => trivial) _
  exact triple_pure fun t σ h => ⟨_, rfl, rfl, h⟩

theorem triple_copyItemsOf {checklistIds : List Id} :
    Triple D s (Copying ids project cards []) (copyItemsOf ids newIds checklistIds)
      fun items t σ => ∃ checklistMap,
        Copying ids project cards (copyItems newIds checklistMap items) t σ := by
  refine Triple.ite (fun _ => triple_pure fun t σ h => ⟨[], h⟩) fun _ => ?_
  refine (triple_selectRows (copying_stable hD)).bind fun items => ?_
  refine (triple_insertAll_items hD).bind fun _ => ?_
  exact triple_pure fun t σ h => ⟨_, h⟩

theorem triple_copyDetails {maps : Maps} {cardIds : List Id} :
    Triple D s (Copying ids project cards []) (copyDetails ids newIds maps cardIds)
      fun items t σ => ∃ checklistMap,
        Copying ids project cards (copyItems newIds checklistMap items) t σ := by
  refine Triple.ite (fun _ => triple_pure fun t σ h => ⟨[], h⟩) fun _ => ?_
  refine triple_copyPlain hD ?_ fun cardLabels => ?_
  · exact fun rows => plain_of_map (by exact fun _ => trivial) _
  refine triple_copyPlain hD ?_ fun values => ?_
  · exact fun rows => plain_of_map (by exact fun _ => trivial) _
  refine triple_copyPlain hD ?_ fun checklists => ?_
  · exact fun rows => plain_of_map (by exact fun _ => trivial) _
  exact triple_copyItemsOf hD

/-- The counter of the copy's project is rewritten. -/
theorem triple_setCounter {next : Nat} (hid : project.id = newIds.project) :
    Triple D s (Copying ids project cards items)
      (updateRow (.project newIds.project) fun _ row =>
        row.project?.map fun project => .project { project with nextCardNumber := next })
      fun _ => Copying ids { project with nextCardNumber := next } cards items := by
  rw [← hid]
  refine triple_updateDrafted ids (.project project) (fun _ => rfl) (copying_stable hD) ?_ ?_
  · rintro t σ ⟨plain, -, hdrafted⟩
    exact ⟨_, hdrafted⟩
  · rintro t σ ⟨plain, hplain, hdrafted⟩
    exact ⟨plain, hplain, hdrafted.update rfl⟩

theorem triple_copyWork {maps : Maps} {input : Duplicate} :
    Triple D s (fun t σ => ∃ project, project.id = newIds.project ∧ project.nextCardNumber = 1 ∧
        Copying ids project [] [] t σ)
      (copyWork ids newIds maps input) fun note t σ => Copied ids newIds t σ note := by
  rintro rest hrest t σ ⟨project, hid, -, hcopying⟩
  refine Triple.bind (P := Copying ids project [] []) (triple_selectRows (copying_stable hD))
    (fun cards => ?_) rest hrest t σ hcopying
  refine Triple.bind (Q := fun copies t σ =>
    copyCards newIds maps.board maps.list maps.status input.userId 0 cards = .ok copies ∧
      Copying ids project [] [] t σ) (triple_ofOption ?_) fun copies => ?_
  · intro copies t σ hcopies h
    refine ⟨?_, h⟩
    cases hresult : copyCards newIds maps.board maps.list maps.status input.userId 0 cards with
    | error => rw [hresult] at hcopies; exact absurd hcopies (by simp [Except.toOption])
    | ok copies' => rw [hresult] at hcopies; rw [Option.some.inj hcopies]
  rintro rest hrest t σ ⟨hcopies, hcopying⟩
  refine Triple.bind (P := Copying ids project [] []) (triple_insertAll_cards hD) (fun _ => ?_)
    rest hrest t σ hcopying
  refine (triple_setCounter hD hid).bind fun _ => ?_
  refine Triple.bind (Q := fun items t σ => ∃ checklistMap, Copying ids
    { project with nextCardNumber := cards.length + 1 } copies
      (copyItems newIds checklistMap items) t σ) (triple_copyDetails hD) fun items => ?_
  refine triple_pure ?_
  rintro t σ ⟨checklistMap, h⟩
  exact .intro cards copies items { project with nextCardNumber := cards.length + 1 }
    maps.board maps.list maps.status checklistMap input.userId hcopies hid rfl h

/-- A duplicate keeps to a discipline that its one commit keeps to. -/
theorem triple_duplicateProject {input : Duplicate}
    (hcommit : ∀ note t σ, Copied ids newIds t σ note → D.inv σ →
      D.condition.commit [note] (t.view σ) →
      D.inv (σ.commit s t [note]) ∧ D.guarantee s [note] t.own σ (σ.commit s t [note])) :
    Triple D s (fun t _ => t = .none) (duplicateProject ids newIds input)
      fun _ t _ => t = .none := by
  refine triple_transaction (R := fun r t σ => ∃ note, r.1 = [note] ∧ Copied ids newIds t σ note)
    ?_ ?_ ?_
  · refine (triple_copyShape hD).bind fun maps => ?_
    refine Triple.bind (Q := fun note t σ => Copied ids newIds t σ note) ?_ fun note =>
      triple_pure fun t σ h => ⟨note, rfl, h⟩
    refine Triple.ite (fun _ => triple_copyWork hD) fun _ => triple_pure ?_
    rintro t σ ⟨project, hid, hnext, hcopying⟩
    exact .intro [] [] [] project [] [] [] [] input.userId rfl hid hnext hcopying
  · rintro r t σ σ' ⟨note, hnote, h⟩ hrely hinv
    exact ⟨note, hnote, copied_stable hD t σ σ' h hrely hinv⟩
  · rintro ⟨_, _⟩ t σ ⟨note, rfl, h⟩ hinv hcondition
    obtain ⟨hinv', hguarantee⟩ := hcommit note t σ h hinv hcondition
    exact ⟨hinv', hguarantee, rfl⟩

end

end WorkScripts
end TaskFlow
