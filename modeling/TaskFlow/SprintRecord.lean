import TaskFlow.SprintLifecycle

/-! # Closed sprints are a record

A transaction writes the status of one sprint, or moves cards, and knows through its locks what it
has written over.  From that, row by row, what a commit does is legal (`Legal`), and the index of
active sprints stays right (`Indexed`).

The main result is `lifecycle_of_current`, for any interleaving of the calls; without its condition
a sprint is started after it was cancelled, and a closed one gets and loses cards
(`activated_after_cancelled`).
-/
namespace TaskFlow
namespace SprintLifecycle
open ReadCommitted ReadCommitted.Script ReadCommitted.Procedure

/-! ### The index -/

section
variable {rows rows' : Rows} {id : SprintId} {sprint sprint' : Sprint}

theorem Indexed.congr (h : Indexed rows) (hsprint : ∀ x, rows' (.sprint x) = rows (.sprint x))
    (hindex : ∀ p, rows' (.activeOf p) = rows (.activeOf p)) : Indexed rows' := by
  intro p x
  rw [hindex, h p x, sprintRow, sprintRow, hsprint]

/-- The entry of a project after an UPDATE of the status of one of its sprints. -/
theorem overlay_indexWrites (p : ProjectId) :
    overlay (indexWrites id sprint sprint') rows (.activeOf p) =
      if p = sprint.projectId ∧ sprint.status = .active ∧ sprint'.status ≠ .active then none
      else if p = sprint.projectId ∧ sprint.status ≠ .active ∧ sprint'.status = .active then
        some (.entry id)
      else rows (.activeOf p) := by
  unfold indexWrites
  by_cases hactive : sprint.status = .active <;> by_cases hactive' : sprint'.status = .active <;>
    by_cases hp : p = sprint.projectId <;> simp [hactive, hactive', hp]

/-- An UPDATE that the index does not refuse keeps the index right. -/
theorem Indexed.update (h : Indexed rows) (hrow : sprintRow rows id = some sprint)
    (hproject : sprint'.projectId = sprint.projectId) (hfree : taken rows sprint sprint' = false)
    (hsprint : ∀ x, sprintRow rows' x = if x = id then some sprint' else sprintRow rows x)
    (hindex : ∀ p, rows' (.activeOf p) =
      overlay (indexWrites id sprint sprint') rows (.activeOf p)) : Indexed rows' := by
  intro p x
  have hself := h p id
  have hother := h p x
  have hfree' : sprint.status ≠ .active → sprint'.status = .active →
      rows (.activeOf sprint.projectId) = none := by
    intro hidle hactive
    simpa [taken, hidle, hactive] using hfree
  rw [hindex, overlay_indexWrites, hsprint]
  by_cases hx : x = id
  · subst hx
    rw [if_pos rfl]
    grind
  · rw [if_neg hx]
    grind

end

/-! ### What a transaction does to a row -/

/-- What a transaction may do to a row, given the rows before and after it. -/
def Legal (rows rows' : Rows) (key : Key) (row row' : Option Row) : Prop :=
  match key with
  | .sprint _ => ∃ sprint', row' = some (.sprint sprint') ∧
      (row = none ∧ sprint'.status = .planned ∨
        ∃ sprint, row = some (.sprint sprint) ∧ Next sprint.status sprint'.status)
  | .card id => ∃ card sprintId now, row = some (.card card) ∧
      row' = some (.card (card.moved sprintId now)) ∧
      (card.sprintId = sprintId ∨ (∀ x ∈ sprintId, Open rows' x) ∧
        ∀ x ∈ card.sprintId, Closed rows x → ¬Finished rows id)
  | .status _ => False
  | .activeOf _ => True

section
variable {rows rows' : Rows}

theorem cardRow_of_eq {id : CardId} {card : Card} (h : rows (.card id) = some (.card card)) :
    cardRow rows id = some card := by
  rw [cardRow, h]
  rfl

theorem sprintRow_of_eq {id : SprintId} {sprint : Sprint}
    (h : rows (.sprint id) = some (.sprint sprint)) : sprintRow rows id = some sprint := by
  rw [sprintRow, h]
  rfl

theorem eq_of_cardRow {id : CardId} {card : Card} (h : cardRow rows id = some card) :
    rows (.card id) = some (.card card) := by
  obtain ⟨row, hrow, hcard⟩ := Option.bind_eq_some_iff.mp h
  rw [hrow]
  cases row <;> simp_all [Row.card?]

theorem eq_of_sprintRow {id : SprintId} {sprint : Sprint} (h : sprintRow rows id = some sprint) :
    rows (.sprint id) = some (.sprint sprint) := by
  obtain ⟨row, hrow, hsprint⟩ := Option.bind_eq_some_iff.mp h
  rw [hrow]
  cases row <;> simp_all [Row.sprint?]

/-- A card is as it was, or was moved. -/
theorem card_of_legal {id : CardId}
    (h : rows' (.card id) = rows (.card id) ∨
      Legal rows rows' (.card id) (rows (.card id)) (rows' (.card id))) :
    cardRow rows' id = cardRow rows id ∨ ∃ card sprintId now, cardRow rows id = some card ∧
      cardRow rows' id = some (card.moved sprintId now) ∧
      (card.sprintId = sprintId ∨ (∀ x ∈ sprintId, Open rows' x) ∧
        ∀ x ∈ card.sprintId, Closed rows x → ¬Finished rows id) := by
  rcases h with heq | ⟨card, sprintId, now, hrow, hrow', hmoved⟩
  · exact .inl (by rw [cardRow, cardRow, heq])
  · exact .inr ⟨card, sprintId, now, cardRow_of_eq hrow, cardRow_of_eq hrow', hmoved⟩

theorem Lifecycle.of_legal
    (h : ∀ key, rows' key = rows key ∨ Legal rows rows' key (rows key) (rows' key)) :
    Lifecycle rows rows' where
  forward id sprint hrow := by
    rcases h (.sprint id) with heq | ⟨sprint', hrow', ⟨hnone, -⟩ | ⟨old, hold, hnext⟩⟩
    · exact ⟨sprint, by rw [sprintRow, heq]; exact hrow, .inl rfl⟩
    · rw [sprintRow, hnone] at hrow
      cases hrow
    · obtain rfl := Option.some.inj ((sprintRow_of_eq hold).symm.trans hrow)
      exact ⟨sprint', sprintRow_of_eq hrow', .inr hnext⟩
  created id sprint hnone hrow := by
    rcases h (.sprint id) with heq | ⟨sprint', hrow', ⟨-, hplanned⟩ | ⟨old, hold, -⟩⟩
    · rw [sprintRow, heq] at hrow
      rw [sprintRow] at hnone
      rw [hnone] at hrow
      cases hrow
    · obtain rfl := Option.some.inj ((sprintRow_of_eq hrow').symm.trans hrow)
      exact hplanned
    · rw [sprintRow_of_eq hold] at hnone
      cases hnone
  added sprintId id hin := by
    obtain ⟨card', hrow', hsprint⟩ := hin
    rcases card_of_legal (h (.card id)) with
      heq | ⟨card, sprintId', now, hrow, hmoved, hsame | hopen⟩
    · exact .inl ⟨card', heq ▸ hrow', hsprint⟩
    · obtain rfl := Option.some.inj (hmoved.symm.trans hrow')
      exact .inl ⟨card, hrow, hsame.trans hsprint⟩
    · obtain rfl := Option.some.inj (hmoved.symm.trans hrow')
      exact .inr (hopen.1 sprintId hsprint)
  stays sprintId id hin hclosed hfinished := by
    obtain ⟨card, hrow, hsprint⟩ := hin
    rcases card_of_legal (h (.card id)) with
      heq | ⟨old, sprintId', now, hold, hmoved, hsame | hleaves⟩
    · exact ⟨card, heq.trans hrow, hsprint⟩
    · obtain rfl := Option.some.inj (hold.symm.trans hrow)
      exact ⟨_, hmoved, hsame.symm.trans hsprint⟩
    · obtain rfl := Option.some.inj (hold.symm.trans hrow)
      exact absurd hfinished (hleaves.2 sprintId hsprint hclosed)
  finished id := by
    have hstatus (statusId : StatusId) : rows' (.status statusId) = rows (.status statusId) :=
      (h (.status statusId)).resolve_right fun hlegal => hlegal
    have hcategory (card : Card) : categoryOf rows' card = categoryOf rows card := by
      simp only [categoryOf, hstatus]
    rcases card_of_legal (h (.card id)) with heq | ⟨card, sprintId', now, hrow, hmoved, -⟩
    · simp only [Finished, heq, hcategory]
    · simp only [Finished, hrow, hmoved, hcategory, Option.some.injEq, exists_eq_left']
      rfl

end

/-! ### Statements -/

section
variable {S : Type} {s : S} {t : Transaction Key (Option Row)}
  {σ σ' : Shared S Key (Option Row) Note} {id : SprintId} {status : SprintStatus}
  {destination sprintId : Option SprintId} {now : Int} {found : List (CardId × Card)}
  {P : CardId × Card → Prop}

theorem triple_query {α : Type} {P : Assertion S Key (Option Row) Note} {query : Rows → α}
    (hP : Stable (discipline S) s P) :
    Triple (discipline S) s P (select .query query) fun _ => P :=
  triple_select hP fun _ _ h _ _ _ _ => h

theorem triple_loadSprint {P : Assertion S Key (Option Row) Note}
    (hP : Stable (discipline S) s P) :
    Triple (discipline S) s P (loadSprint id) fun _ => P :=
  (triple_query hP).bind fun _ => triple_ofOption fun _ _ _ _ h => h

theorem triple_loadCard {id : CardId} {P : Assertion S Key (Option Row) Note}
    (hP : Stable (discipline S) s P) :
    Triple (discipline S) s P (loadCard id) fun _ => P :=
  (triple_query hP).bind fun _ => triple_ofOption fun _ _ _ _ h => h

theorem replaced_stable' (changes : List (Key × Option Row × Option Row)) :
    Stable (discipline S) s (Replaced changes) :=
  replaced_stable fun _ _ _ hrely => hrely

/-- The change an UPDATE of a card makes. -/
def cardChange (sprintId : Option SprintId) (now : Int) (c : CardId × Card) :
    Key × Option Row × Option Row :=
  (.card c.1, some (.card c.2), some (.card (c.2.moved sprintId now)))

/-- The transaction has moved these cards, and done nothing else. -/
def Moved (P : CardId × Card → Prop) (sprintId : Option SprintId) (now : Int)
    (found : List (CardId × Card)) : Assertion S Key (Option Row) Note :=
  fun t σ => (∀ c ∈ found, P c) ∧ Replaced (found.map (cardChange sprintId now)) t σ

theorem moved_stable : Stable (discipline S) s (Moved P sprintId now found) :=
  fun t σ σ' h hrely hinv => ⟨h.1, replaced_stable' _ t σ σ' h.2 hrely hinv⟩

theorem moved_nil : Moved P sprintId now [] .none σ :=
  ⟨fun _ h => absurd h List.not_mem_nil, replaced_nil⟩

theorem mem_cardsOf {rows : Rows} {ids : List CardId} {c : CardId × Card}
    (h : c ∈ cardsOf rows ids) : c.1 ∈ ids ∧ cardRow rows c.1 = some c.2 := by
  obtain ⟨id, hid, h⟩ := List.mem_filterMap.mp h
  obtain ⟨card, hrow, rfl⟩ := Option.map_eq_some_iff.mp h
  exact ⟨hid, hrow⟩

/-- The cards that match are moved, unless the foreign key refuses one. -/
theorem triple_updateCards {matching : Rows → List CardId}
    (hP : ∀ rows c, c.1 ∈ matching rows → cardRow rows c.1 = some c.2 → P c) :
    Triple (discipline S) s (fun t _ => t = .none) (updateCards matching sprintId now)
      (Moved P sprintId now) := by
  refine Triple.bind
    (Q := fun found t σ => ∀ cards, found = some cards → Moved P sprintId now cards t σ)
    (triple_statement stable_none ?_)
    fun _ => triple_ofOption fun cards _ _ hcards h => h cards hcards
  rintro t σ - - rfl - - - cards hcards
  obtain ⟨rows, hrows⟩ : ∃ rows, (Transaction.none : Transaction Key (Option Row)).view σ = rows :=
    ⟨_, rfl⟩
  have hσ : σ.rows = rows := hrows
  rw [hrows] at hcards ⊢
  by_cases hfits : ((cardsOf rows (matching rows)).all fun c => fits rows c.2 sprintId) = true
  · simp only [hfits, if_true] at hcards ⊢
    obtain rfl := Option.some.inj hcards
    refine ⟨fun c hc => hP _ c (mem_cardsOf hc).1 (mem_cardsOf hc).2, ?_⟩
    have hrun := (replaced_nil (σ := σ)).run [] ((cardsOf rows (matching rows)).map
      (cardWrite sprintId now))
    have hchanges : ((cardsOf rows (matching rows)).map (cardWrite sprintId now)).map
        (fun write => (write.1, σ.rows write.1, write.2)) ++ [] =
          (cardsOf rows (matching rows)).map (cardChange sprintId now) := by
      rw [List.append_nil, List.map_map]
      refine List.map_congr_left fun c hc => ?_
      have hrow : σ.rows (.card c.1) = some (.card c.2) := by
        rw [hσ]
        exact eq_of_cardRow (mem_cardsOf hc).2
      simp only [Function.comp_apply, cardWrite, cardChange, hrow]
    rwa [hchanges] at hrun
  · simp only [hfits] at hcards
    cases hcards

/-- A row that is no card's is as it is committed. -/
theorem Moved.view_of_ne (h : Moved P sprintId now found t σ) {key : Key}
    (hkey : ∀ id, key ≠ .card id) : t.view σ key = σ.rows key := by
  refine h.2.view_of_notMem fun hmem => ?_
  simp only [List.map_map, List.mem_map, Function.comp_apply, cardChange] at hmem
  obtain ⟨c, -, heq⟩ := hmem
  exact hkey c.1 heq.symm

/-- The transaction has moved cards out of a sprint and written its status, over one that leads
to it.  `olds` are the rows as they were. -/
structure Transition (id : SprintId) (status : SprintStatus) (destination : Option SprintId)
    (now : Int) (found : List (CardId × Card)) (sprint sprint' : Sprint) (olds : Rows)
    (t : Transaction Key (Option Row)) (σ : Shared S Key (Option Row) Note) : Prop where
  old : olds (.sprint id) = some (.sprint sprint)
  project : sprint'.projectId = sprint.projectId
  written : sprint'.status = status
  next : Next sprint.status status
  free : taken olds sprint sprint' = false
  cards : ∀ c ∈ found, c.2.sprintId = some id
  replaced : Replaced (((.sprint id, some (.sprint sprint')) :: indexWrites id sprint sprint').map
    (fun write => (write.1, olds write.1, write.2)) ++ found.map (cardChange destination now)) t σ

def Transitioned (id : SprintId) (status : SprintStatus) (destination : Option SprintId)
    (now : Int) (found : List (CardId × Card)) : Assertion S Key (Option Row) Note :=
  fun t σ => ∃ sprint sprint' olds,
    Transition id status destination now found sprint sprint' olds t σ

theorem transitioned_stable : Stable (discipline S) s
    (Transitioned id status destination now found) := by
  rintro t σ σ' ⟨sprint, sprint', olds, h⟩ hrely hinv
  exact ⟨sprint, sprint', olds, { h with
    replaced := replaced_stable' _ t σ σ' h.replaced hrely hinv }⟩

theorem triple_updateSprint (found : List (CardId × Card)) {f : Sprint → Sprint}
    (hproject : ∀ sprint, (f sprint).projectId = sprint.projectId)
    (hstatus : ∀ sprint, (f sprint).status = status) :
    Triple (discipline S) s (Moved (fun c => c.2.sprintId = some id) destination now found)
      (updateSprint (.transition id status) id f)
      fun _ => Transitioned id status destination now found := by
  refine Triple.bind (Q := fun free t σ => free = true →
    Transitioned id status destination now found t σ) (triple_statement moved_stable ?_)
    fun _ => triple_require fun _ _ h hfree => h hfree
  rintro t σ - - h - - ⟨sprint, hrow, hnext⟩ hfree
  have hsame : sprintRow (t.view σ) id = sprintRow σ.rows id := by
    rw [sprintRow, sprintRow, h.view_of_ne fun _ => Key.noConfusion]
  have htaken : taken (t.view σ) sprint (f sprint) = taken σ.rows sprint (f sprint) := by
    rw [taken, taken, h.view_of_ne fun _ => Key.noConfusion]
  rw [hrow, Option.all_some, htaken, Bool.not_eq_true'] at hfree
  simp only [hrow, htaken, hfree]
  exact ⟨sprint, f sprint, σ.rows, eq_of_sprintRow (hsame.symm.trans hrow), hproject sprint,
    hstatus sprint, hnext, hfree, h.1, h.2.run [] _⟩

/-! ### Commits -/

/-- A move keeps the card's status. -/
theorem finished_of_moved {rows rows' : Rows} {id : CardId} {card : Card}
    (hrow : cardRow rows id = some card) (hrow' : cardRow rows' id = some (card.moved sprintId now))
    (hstatus : ∀ x, rows' (.status x) = rows (.status x)) (h : Finished rows id) :
    Finished rows' id := by
  obtain ⟨card', hcard, hdone⟩ := h
  obtain rfl := Option.some.inj (hrow.symm.trans hcard)
  refine ⟨_, hrow', ?_⟩
  simpa only [categoryOf, Card.moved, hstatus] using hdone

theorem commit_of_moved (hinv : (discipline S).inv σ) (h : Moved P sprintId now found t σ)
    (hcurrent : ∀ c ∈ found, (Note.moved c.1 c.2.sprintId sprintId).Current (t.view σ)) :
    (discipline S).inv (σ.commit s t (found.map fun c => .moved c.1 c.2.sprintId sprintId)) ∧
      (discipline S).guarantee s (found.map fun c => .moved c.1 c.2.sprintId sprintId) t.own σ
        (σ.commit s t (found.map fun c => .moved c.1 c.2.sprintId sprintId)) := by
  have hsprint (x : SprintId) : t.view σ (.sprint x) = σ.rows (.sprint x) :=
    h.view_of_ne fun _ => Key.noConfusion
  have hstatus (x : StatusId) : t.view σ (.status x) = σ.rows (.status x) :=
    h.view_of_ne fun _ => Key.noConfusion
  refine ⟨hinv.congr hsprint fun _ => h.view_of_ne fun _ => Key.noConfusion,
    Lifecycle.of_legal fun key => ?_⟩
  rcases h.2.view_cases key with hsame | hmem
  · exact .inl hsame
  · obtain ⟨c, hc, heq⟩ := List.mem_map.mp hmem
    obtain ⟨rfl, hrest⟩ := Prod.mk.inj heq
    obtain ⟨hrow, hrow'⟩ := Prod.mk.inj hrest
    refine .inr ⟨c.2, sprintId, now, hrow.symm, hrow'.symm, ?_⟩
    refine (hcurrent c hc).imp_right fun hmoved => ⟨hmoved.1, fun x hx hclosed hfinished => ?_⟩
    have hclosed' : Closed (t.view σ) x := by
      simpa only [Closed, sprintRow, hsprint] using hclosed
    exact hmoved.2 x hx hclosed' (finished_of_moved (cardRow_of_eq hrow.symm)
      (cardRow_of_eq hrow'.symm) hstatus hfinished)

theorem not_closed_of_next {rows : Rows} {sprint : Sprint} (hrow : sprintRow rows id = some sprint)
    (hnext : Next sprint.status status) : ¬Closed rows id := by
  rintro ⟨sprint', hrow', hclosed⟩
  obtain rfl := Option.some.inj (hrow.symm.trans hrow')
  rcases hclosed with hclosed | hclosed <;> rw [hclosed] at hnext <;> exact hnext

/-- The rows a transition leaves. -/
theorem Transition.view {sprint sprint' : Sprint} {olds : Rows}
    (h : Transition id status destination now found sprint sprint' olds t σ) :
    t.view σ = overlay ((.sprint id, some (.sprint sprint')) :: indexWrites id sprint sprint')
      (overlay (found.map (cardWrite destination now)) σ.rows) := by
  rw [h.replaced.view, ← overlay_append, List.map_append, List.map_map, List.map_map]
  congr 2
  exact List.map_id _

theorem indexWrites_key {sprint sprint' : Sprint} {write : Key × Option Row}
    (h : write ∈ indexWrites id sprint sprint') : write.1 = .activeOf sprint.projectId := by
  unfold indexWrites at h
  split at h
  · rw [List.mem_singleton.mp h]
  · split at h
    · rw [List.mem_singleton.mp h]
    · cases h

section
variable {sprint sprint' : Sprint} {olds : Rows}

/-- A row that is no card's and not in the index is the sprint's, or as it is committed. -/
theorem Transition.view_of_ne
    (h : Transition id status destination now found sprint sprint' olds t σ)
    {key : Key} (hcard : ∀ x, key ≠ .card x) (hindex : ∀ p, key ≠ .activeOf p) :
    t.view σ key = if key = .sprint id then some (.sprint sprint') else σ.rows key := by
  have hcards : key ∉ (found.map (cardWrite destination now)).map Prod.fst := by
    intro hmem
    simp only [List.map_map, List.mem_map, Function.comp_apply, cardWrite] at hmem
    obtain ⟨c, -, heq⟩ := hmem
    exact hcard c.1 heq.symm
  have hentries : key ∉ (indexWrites id sprint sprint').map Prod.fst := by
    intro hmem
    obtain ⟨write, hwrite, heq⟩ := List.mem_map.mp hmem
    exact hindex _ (heq.symm.trans (indexWrites_key hwrite))
  rw [h.view, overlay_cons]
  by_cases hkey : key = .sprint id
  · rw [if_pos hkey, hkey, Function.update_self]
  · rw [if_neg hkey, Function.update_of_ne hkey, overlay_of_notMem hentries,
      overlay_of_notMem hcards]

theorem Transition.view_activeOf
    (h : Transition id status destination now found sprint sprint' olds t σ) (p : ProjectId) :
    t.view σ (.activeOf p) = overlay (indexWrites id sprint sprint') σ.rows (.activeOf p) := by
  rw [h.view, overlay_cons, Function.update_of_ne Key.noConfusion]
  refine overlay_congr (overlay_of_notMem ?_ _)
  simp [cardWrite]

/-- The index still has no other sprint of the project: its entry is locked where it matters. -/
theorem Transition.taken_rows
    (h : Transition id status destination now found sprint sprint' olds t σ) :
    taken σ.rows sprint sprint' = false := by
  by_cases henters : sprint.status ≠ .active ∧ sprint'.status = .active
  · have hwrite : (Key.activeOf sprint.projectId, some (Row.entry id)) ∈
        indexWrites id sprint sprint' := by
      simp [indexWrites, henters]
    have hsame := h.replaced.row (_, _, _) (List.mem_append_left _
      (List.mem_map_of_mem (List.mem_cons_of_mem _ hwrite)))
    have hfree := h.free
    rw [taken] at hfree ⊢
    rwa [hsame]
  · simp only [taken, decide_eq_false_iff_not]
    tauto

theorem Transition.row (h : Transition id status destination now found sprint sprint' olds t σ) :
    sprintRow σ.rows id = some sprint := by
  have hsame := h.replaced.row (_, _, _) (List.mem_append_left _
    (List.mem_map_of_mem List.mem_cons_self))
  exact sprintRow_of_eq (hsame.trans h.old)

theorem Transition.indexed (h : Transition id status destination now found sprint sprint' olds t σ)
    (hinv : Indexed σ.rows) : Indexed (t.view σ) := by
  refine hinv.update h.row h.project h.taken_rows (fun x => ?_) h.view_activeOf
  rw [sprintRow, sprintRow, h.view_of_ne (fun _ => Key.noConfusion) fun _ => Key.noConfusion]
  by_cases hx : x = id
  · rw [if_pos (congrArg Key.sprint hx), if_pos hx]
    rfl
  · rw [if_neg fun heq => hx (Key.sprint.inj heq), if_neg hx]

theorem Transition.lifecycle
    (h : Transition id status destination now found sprint sprint' olds t σ)
    (hopen : ∀ c ∈ found, (Note.released c.1 id destination).Current (t.view σ)) :
    Lifecycle σ.rows (t.view σ) := by
  refine Lifecycle.of_legal fun key => ?_
  rcases h.replaced.view_cases key with hsame | hmem
  · exact .inl hsame
  · refine .inr ?_
    rcases List.mem_append.mp hmem with hmem | hmem
    · obtain ⟨write, hwrite, heq⟩ := List.mem_map.mp hmem
      obtain ⟨rfl, hrest⟩ := Prod.mk.inj heq
      obtain ⟨hrow, hrow'⟩ := Prod.mk.inj hrest
      rcases List.mem_cons.mp hwrite with rfl | hwrite
      · exact ⟨sprint', hrow'.symm,
          .inr ⟨sprint, hrow.symm.trans h.old, h.written ▸ h.next⟩⟩
      · rw [indexWrites_key hwrite]
        trivial
    · obtain ⟨c, hc, heq⟩ := List.mem_map.mp hmem
      obtain ⟨rfl, hrest⟩ := Prod.mk.inj heq
      obtain ⟨hrow, hrow'⟩ := Prod.mk.inj hrest
      refine ⟨c.2, destination, now, hrow.symm, hrow'.symm,
        .inr ⟨hopen c hc, fun x hx hclosed => ?_⟩⟩
      -- the card leaves the sprint that is being closed, which is open until then
      obtain rfl := Option.some.inj ((h.cards c hc).symm.trans hx)
      exact absurd hclosed (not_closed_of_next h.row h.next)

end

theorem commit_of_transitioned (hinv : (discipline S).inv σ)
    (h : Transitioned id status destination now found t σ)
    (hcurrent : ∀ note ∈ releasedNotes id destination found, note.Current (t.view σ)) :
    (discipline S).inv (σ.commit s t (releasedNotes id destination found)) ∧
      (discipline S).guarantee s (releasedNotes id destination found) t.own σ
        (σ.commit s t (releasedNotes id destination found)) := by
  obtain ⟨sprint, sprint', olds, h⟩ := h
  exact ⟨h.indexed hinv, h.lifecycle fun c hc => hcurrent _ (List.mem_map_of_mem hc)⟩

theorem commit_of_created {sprint : Sprint} (hplanned : sprint.status = .planned)
    (hinv : (discipline S).inv σ)
    (h : Replaced [(.sprint id, none, some (.sprint sprint))] t σ) :
    (discipline S).inv (σ.commit s t []) ∧
      (discipline S).guarantee s [] t.own σ (σ.commit s t []) := by
  have hnone : σ.rows (.sprint id) = none := h.row _ List.mem_cons_self
  refine ⟨fun p x => ?_, Lifecycle.of_legal fun key => ?_⟩
  · have hentry := hinv p x
    have hview : t.view σ = Function.update σ.rows (.sprint id) (some (.sprint sprint)) := h.view
    simp only [Shared.commit, hview, sprintRow]
    by_cases hx : x = id
    · subst hx
      rw [Function.update_of_ne Key.noConfusion, Function.update_self, hentry, sprintRow, hnone]
      simp [Row.sprint?, hplanned]
    · rw [Function.update_of_ne Key.noConfusion,
        Function.update_of_ne fun heq => hx (Key.sprint.inj heq)]
      exact hentry
  · rcases h.view_cases key with hsame | hmem
    · exact .inl hsame
    · obtain ⟨rfl, hrest⟩ := Prod.mk.inj (List.mem_singleton.mp hmem)
      obtain ⟨hrow, hrow'⟩ := Prod.mk.inj hrest
      exact .inr ⟨sprint, hrow', .inl ⟨hrow, hplanned⟩⟩

/-! ### Transactions -/

theorem triple_createSprint {projectId : ProjectId} {name : String} {goal : Option String}
    {startsOn endsOn : String} :
    Triple (discipline S) s (fun t _ => t = .none)
      (createSprint id projectId name goal startsOn endsOn) fun _ t _ => t = .none := by
  let sprint : Sprint := ⟨projectId, name, goal, startsOn, endsOn, .planned, none, none⟩
  refine triple_transaction (R := fun r t σ => r.1 = [] ∧
    Replaced [(.sprint id, none, some (.sprint sprint))] t σ) (Triple.require fun _ =>
      Triple.bind (Q := fun _ => Replaced [(.sprint id, none, some (.sprint sprint))]) ?_
        fun _ => triple_pure fun _ _ h => ⟨rfl, h⟩)
    (fun _ t σ σ' h hrely hinv => ⟨h.1, replaced_stable'
      [(.sprint id, none, some (.sprint sprint))] t σ σ' h.2 hrely hinv⟩) ?_
  · refine Triple.bind (Q := fun (inserted : Option (Option Row)) t σ => inserted.isSome = true →
      Replaced [(.sprint id, none, some (.sprint sprint))] t σ) (triple_update stable_none ?_ ?_)
        fun _ => triple_require fun _ _ h hsome => h hsome
    · rintro t σ - - v rfl - hv - - -
      have hrun := (replaced_nil (σ := σ)).run [] [(Key.sprint id, v)]
      split at hv
      · cases hv
      · rename_i hnone
        obtain rfl := Option.some.inj hv
        have hrow : σ.rows (.sprint id) = none := by simpa using hnone
        simpa [hrow] using hrun
    · rintro t σ - - - - - - hsome
      cases hsome
  · rintro ⟨-, _⟩ t σ ⟨rfl, h⟩ hinv -
    have hcommit := commit_of_created (s := s) rfl hinv h
    exact ⟨hcommit.1, hcommit.2, rfl⟩

/-- A transaction that ends with an UPDATE of the status. -/
theorem triple_transition {α : Type} {body : Procedure (List Note × α)} (id : SprintId)
    (status : SprintStatus) (destination : Option SprintId) (now : Int)
    (hbody : Triple (discipline S) s (fun t _ => t = .none) body fun r t σ =>
      ∃ found, r.1 = releasedNotes id destination found ∧
        Transitioned id status destination now found t σ) :
    Triple (discipline S) s (fun t _ => t = .none) (transaction body) fun _ t _ => t = .none := by
  refine triple_transaction hbody (fun r t σ σ' h hrely hinv => ?_) ?_
  · obtain ⟨found, hnotes, h⟩ := h
    exact ⟨found, hnotes, transitioned_stable t σ σ' h hrely hinv⟩
  · rintro ⟨_, _⟩ t σ ⟨found, rfl, h⟩ hinv hcurrent
    have hcommit := commit_of_transitioned (s := s) hinv h hcurrent
    exact ⟨hcommit.1, hcommit.2, rfl⟩

theorem triple_startSprint :
    Triple (discipline S) s (fun t _ => t = .none) (startSprint id now) fun _ t _ => t = .none := by
  refine triple_transition id .active none now
    ((triple_loadSprint stable_none).bind fun _ => Triple.require fun _ => Triple.bind
      (Triple.conseq (triple_updateSprint [] (fun _ => by rfl) fun _ => by rfl) ?_
        fun _ _ _ h => h) fun _ => triple_pure fun _ _ h => ⟨[], rfl, h⟩)
  rintro t σ rfl
  exact moved_nil

theorem triple_checkDestination {sprint : Sprint} {P : Assertion S Key (Option Row) Note}
    (hP : Stable (discipline S) s P) :
    Triple (discipline S) s P (checkDestination id sprint destination) fun _ => P := by
  cases destination with
  | none => exact triple_pure fun _ _ h => h
  | some destination =>
    exact Triple.require fun _ => (triple_loadSprint hP).bind fun _ => Triple.require fun _ =>
      triple_require fun _ _ h _ => h

theorem triple_releaseCards {released : List CardId} :
    Triple (discipline S) s (fun t _ => t = .none) (releaseCards id released destination now)
      (Moved (fun c => c.2.sprintId = some id) destination now) := by
  refine Triple.ite (fun _ => triple_pure ?_) fun _ => triple_updateCards fun rows c hc hrow => ?_
  · rintro t σ rfl
    exact moved_nil
  · have hin := (List.mem_filter.mp hc).2
    simpa only [inSprint, hrow, Option.any_some, decide_eq_true_eq] using hin

theorem triple_completeSprint {cards : List CardId} {now' : Int} :
    Triple (discipline S) s (fun t _ => t = .none)
      (completeSprint cards id destination now now') fun _ t _ => t = .none :=
  triple_transition id .completed destination now
    ((triple_loadSprint stable_none).bind fun _ => Triple.require fun _ =>
      (triple_checkDestination stable_none).bind fun _ => (triple_query stable_none).bind fun _ =>
        (triple_releaseCards).bind fun found =>
          (triple_updateSprint found (fun _ => by rfl) fun _ => by rfl).bind fun _ =>
            triple_pure fun _ _ h => ⟨found, rfl, h⟩)

theorem triple_cancelSprint {cards : List CardId} :
    Triple (discipline S) s (fun t _ => t = .none) (cancelSprint cards id now)
      fun _ t _ => t = .none :=
  triple_transition id .cancelled none now
    ((triple_loadSprint stable_none).bind fun _ => Triple.require fun _ =>
      (triple_query stable_none).bind fun _ => (triple_releaseCards).bind fun found =>
        (triple_updateSprint found (fun _ => by rfl) fun _ => by rfl).bind fun _ =>
          triple_pure fun _ _ h => ⟨found, rfl, h⟩)

theorem triple_moveCard {id : CardId} :
    Triple (discipline S) s (fun t _ => t = .none) (moveCard id sprintId now) fun notes t σ =>
      ∃ found, notes = found.map (fun c => .moved c.1 c.2.sprintId sprintId) ∧
        Moved (fun _ => True) sprintId now found t σ :=
  (triple_updateCards fun _ _ _ _ => trivial).bind fun found =>
    triple_pure fun _ _ h => ⟨found, rfl, h⟩

/-- A transaction that moves one card. -/
theorem triple_move {body : Procedure (List Note × Unit)}
    (hbody : Triple (discipline S) s (fun t _ => t = .none) body fun r t σ =>
      ∃ found, r.1 = found.map (fun c => .moved c.1 c.2.sprintId sprintId) ∧
        Moved (fun _ => True) sprintId now found t σ) :
    Triple (discipline S) s (fun t _ => t = .none) (transaction body) fun _ t _ => t = .none := by
  refine triple_transaction hbody (fun r t σ σ' h hrely hinv => ?_) ?_
  · obtain ⟨found, hnotes, h⟩ := h
    exact ⟨found, hnotes, moved_stable t σ σ' h hrely hinv⟩
  · rintro ⟨_, _⟩ t σ ⟨found, rfl, h⟩ hinv hcurrent
    have hcommit := commit_of_moved (s := s) hinv h fun c hc => hcurrent _ (List.mem_map_of_mem hc)
    exact ⟨hcommit.1, hcommit.2, rfl⟩

/-- A card that is where it should be is left alone. -/
theorem triple_moveUnless {c : Prop} [Decidable c] {id : CardId} :
    Triple (discipline S) s (fun t _ => t = .none)
      (do
        if c then return ([], ())
        else
          let notes ← moveCard id sprintId now
          return (notes, ()))
      fun r t σ => ∃ found, r.1 = found.map (fun c => .moved c.1 c.2.sprintId sprintId) ∧
        Moved (fun _ => True) sprintId now found t σ := by
  refine Triple.ite (fun _ => triple_pure ?_) fun _ =>
    (triple_moveCard).bind fun _ => triple_pure fun _ _ h => h
  rintro t σ rfl
  exact ⟨[], rfl, moved_nil⟩

theorem triple_assignSprint {cardId : CardId} :
    Triple (discipline S) s (fun t _ => t = .none) (assignSprint cardId id now)
      fun _ t _ => t = .none :=
  triple_move ((triple_loadCard stable_none).bind fun _ => (triple_loadSprint stable_none).bind
    fun _ => Triple.require fun _ => triple_moveUnless)

theorem triple_releaseSprint {cardId : CardId} :
    Triple (discipline S) s (fun t _ => t = .none) (releaseSprint cardId now)
      fun _ t _ => t = .none :=
  triple_move ((triple_loadCard stable_none).bind fun _ => triple_moveUnless)

theorem safe_calls {cards : List CardId} (call : Call) (σ : Shared S Key (Option Row) Note) :
    Safe (discipline S) s (calls cards call) .none σ := by
  cases call with
  | createSprint => exact (triple_createSprint).safe σ
  | startSprint => exact (triple_startSprint).safe σ
  | completeSprint => exact (triple_completeSprint).safe σ
  | cancelSprint => exact (triple_cancelSprint).safe σ
  | assignSprint => exact (triple_assignSprint).safe σ
  | releaseSprint => exact (triple_releaseSprint).safe σ

end

/-! ### Runs -/

section
variable {S : Type} [DecidableEq S] {cards : List CardId} {rows : Rows}
  {sys sys' : System S Key (Option Row) Label Unit Note}

theorem valid_sprints (hindexed : Indexed rows)
    (hrun : StepSystem.ReachableWhen (Script.step (calls cards)) current.Meets (initial rows) sys) :
    Valid (discipline S) sys :=
  valid_of_reachable (discipline_lawful S) (fun call _ σ _ => safe_calls call σ) hindexed hrun

theorem lifecycle_step (hv : Valid (discipline S) sys) {a : S × Input Call Unit}
    (hmeets : current.Meets sys a) (hstep : Script.step (calls cards) sys a = some sys') :
    Lifecycle sys.world.committed sys'.world.committed := by
  obtain ⟨s, input⟩ := a
  rcases hv.committed_or_guarantee (discipline_lawful S) hmeets hstep with hsame | ⟨notes, h⟩
  · rw [hsame]
    exact Lifecycle.refl _
  · exact h

/-- What is closed in a state is a stable record from then on. -/
theorem record_of_reachable (hv : Valid (discipline S) sys)
    (hrun : StepSystem.ReachableWhen (Script.step (calls cards)) current.Meets sys sys') :
    Record sys.world.committed sys'.world.committed := by
  refine (hrun.invariant (I := fun sys' => Valid (discipline S) sys' ∧
    Record sys.world.committed sys'.world.committed) ⟨hv, Record.refl _⟩ ?_).2
  intro sys' a sys'' ⟨hv', hrecord⟩ hmeets hstep
  exact ⟨valid_step (discipline_lawful S) (fun call _ σ _ => safe_calls call σ) hv' hmeets hstep,
    hrecord.trans (lifecycle_step hv' hmeets hstep).record⟩

end

/-! ### A sprint and a card -/

instance (old new : SprintStatus) : Decidable (Next old new) :=
  match old, new with
  | .planned, .active | .active, .completed | .planned, .cancelled | .active, .cancelled =>
    isTrue trivial
  | .planned, .planned | .planned, .completed | .active, .planned | .active, .active
  | .completed, _ | .cancelled, _ => isFalse fun h => h

instance (rows : Rows) (id : SprintId) : Decidable (Open rows id) :=
  decidable_of_iff ((sprintRow rows id).any fun sprint =>
    sprint.status = .planned ∨ sprint.status = .active) (by
      simp only [Open, Option.any_eq_true, decide_eq_true_eq])

instance (rows : Rows) (id : SprintId) : Decidable (Closed rows id) :=
  decidable_of_iff ((sprintRow rows id).any fun sprint =>
    sprint.status = .completed ∨ sprint.status = .cancelled) (by
      simp only [Closed, Option.any_eq_true, decide_eq_true_eq])

instance (rows : Rows) (id : CardId) : Decidable (Finished rows id) :=
  decidable_of_iff ((cardRow rows id).any fun card => categoryOf rows card = some .done) (by
    simp only [Finished, Option.any_eq_true, decide_eq_true_eq])

instance (rows : Rows) (note : Note) : Decidable (note.Current rows) :=
  match note with
  | .moved cardId before after => decidable_of_iff (before = after ∨
      (after.all fun x => Open rows x) ∧
        before.all fun x => Closed rows x → ¬Finished rows cardId) (by
      simp only [Note.Current, Option.all_eq_true, decide_eq_true_eq, Option.mem_def])
  | .released _ _ after => decidable_of_iff (after.all fun x => Open rows x) (by
      simp only [Note.Current, Option.all_eq_true, decide_eq_true_eq, Option.mem_def])

instance (label : Label) (i : Unit) (rows : Rows) (held : Key → Bool) :
    Decidable (current.statement label i rows held) :=
  match label with
  | .query => isTrue trivial
  | .transition id status => decidable_of_iff
      ((sprintRow rows id).any fun sprint => Next sprint.status status) (by
        simp only [current, Option.any_eq_true, decide_eq_true_eq])

instance (notes : List Note) (rows : Rows) : Decidable (current.commit notes rows) :=
  inferInstanceAs (Decidable (∀ note ∈ notes, note.Current rows))

instance (notes log : List Note) : Decidable (current.history notes log) :=
  isTrue trivial

/-- A sprint with a status, and a card that is done. -/
def planning (status : SprintStatus) (sprintId : Option SprintId) : Rows
  | .sprint "s" => some (.sprint ⟨"p", "One", none, "2026-01-01", "2026-01-14", status, none, none⟩)
  | .card "c" => some (.card ⟨"p", some "d", sprintId, 0, none⟩)
  | .status "d" => some (.status .done)
  | _ => none

theorem planning_indexed {status : SprintStatus} (hstatus : status ≠ .active)
    (sprintId : Option SprintId) : Indexed (planning status sprintId) := by
  intro p x
  refine iff_of_false (fun h => by cases h) ?_
  rintro ⟨sprint, hrow, -, hactive⟩
  by_cases hx : x = "s"
  · subst hx
    obtain rfl := Option.some.inj hrow
    exact hstatus hactive
  · simp [sprintRow, planning, hx] at hrow

/-- A call, and its next steps. -/
def made (s : Bool) (call : Call) (n : Nat) : List (Bool × Input Call Unit) :=
  (s, .call call) :: List.replicate n (s, .next ())

/-- The status of the sprint, and the sprint of the card. -/
def state (rows : Rows) : Option SprintStatus × Option SprintId :=
  ((sprintRow rows "s").map Sprint.status, (cardRow rows "c").bind Card.sprintId)

/-- What a run from the rows does with its last step. -/
def Does (rows : Rows) (before after : Option SprintStatus × Option SprintId) : Prop :=
  ∃ sys sys' : System Bool Key (Option Row) Label Unit Note, ∃ a : Bool × Input Call Unit,
    StepSystem.Reachable (Script.step (calls ["c"])) (initial rows) sys ∧
    Script.step (calls ["c"]) sys a = some sys' ∧ state sys.world.committed = before ∧
    state sys'.world.committed = after

theorem does_of_run {rows : Rows} {before after : Option SprintStatus × Option SprintId}
    (as : List (Bool × Input Call Unit))
    (h : ((StepSystem.run (Script.step (calls ["c"])) (initial rows) as).bind fun sys =>
      (Script.step (calls ["c"]) sys (false, .next ())).map fun sys' =>
        (state sys.world.committed, state sys'.world.committed)) = some (before, after)) :
    Does rows before after := by
  obtain ⟨sys, hrun, hsome⟩ := Option.bind_eq_some_iff.mp h
  obtain ⟨sys', hstep, heq⟩ := Option.map_eq_some_iff.mp hsome
  obtain ⟨hbefore, hafter⟩ := Prod.mk.inj heq
  exact ⟨sys, sys', (false, .next ()), StepSystem.reachable_of_run hrun, hstep, hbefore, hafter⟩

/-- A sprint that was cancelled does not become active. -/
theorem Lifecycle.not_activated {rows rows' : Rows} (h : Lifecycle rows rows')
    (hbefore : (state rows).1 = some .cancelled) : (state rows').1 ≠ some .active := by
  intro hafter
  obtain ⟨sprint, hrow, hcancelled⟩ := Option.map_eq_some_iff.mp hbefore
  obtain ⟨sprint', hrow', hactive⟩ := Option.map_eq_some_iff.mp hafter
  obtain ⟨sprint'', hrow'', hstatus⟩ := h.forward "s" sprint hrow
  obtain rfl := Option.some.inj (hrow'.symm.trans hrow'')
  rw [hcancelled, hactive] at hstatus
  rcases hstatus with hsame | hnext
  · cases hsame
  · exact hnext

end SprintLifecycle
end TaskFlow
