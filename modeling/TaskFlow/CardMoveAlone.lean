import TaskFlow.CardMoveSafe

/-! # A move that runs alone

What a move commits when no other session takes a step: the one card written
into its place, in the rows as they were or, where `between` refused the
neighbours, in the rows after a rebalance.  A rebalance keeps the order by rank
and id of the cards of every list, ties included; so the order and the lists of
the other cards are kept, and the moved card is strictly between its neighbours,
but for the one place in front of the smallest integer.
-/
namespace TaskFlow
namespace CardMove
open ReadCommitted StepSystem Rank

/-! ### A rebalance, all at once -/

/-- The writes of a plan, applied in order. -/
def rerankAll (listId : ListId) (done : List Sibling) (rows : Rows) : Rows :=
  done.foldl (fun rows s => Function.update rows s.cardId (rerank (rows s.cardId) listId s.rank))
    rows

/-- The rows after a rebalance of the list. -/
def rebalanced (cards : List CardId) (rows : Rows) (listId : ListId) : Rows :=
  rerankAll listId (plan (liveCards cards rows listId)) rows

variable {cards : List CardId} {rows before : Rows} {input : MoveInput} {listId : ListId}
  {pos : Position} {id a b : CardId}

theorem rerankAll_append (done : List Sibling) (s : Sibling) :
    rerankAll listId (done ++ [s]) rows =
      Function.update (rerankAll listId done rows) s.cardId
        (rerank (rerankAll listId done rows s.cardId) listId s.rank) := by
  simp [rerankAll]

theorem rerankAll_of_notMem : ∀ {done : List Sibling} {rows : Rows},
    id ∉ done.map Sibling.cardId → rerankAll listId done rows id = rows id
  | [], _, _ => rfl
  | s :: done, rows, h => by
      obtain ⟨hne, hrest⟩ := not_or.mp (mt List.mem_cons.mpr h)
      exact (rerankAll_of_notMem hrest).trans (Function.update_of_ne hne _ _)

/-- A card of the plan gets its rank of the plan, and nothing else changes. -/
theorem rerankAll_of_mem : ∀ {done : List Sibling} {rows : Rows} {s : Sibling},
    (done.map Sibling.cardId).Nodup → s ∈ done →
      rerankAll listId done rows s.cardId = rerank (rows s.cardId) listId s.rank
  | t :: done, rows, s, hnodup, hs => by
      obtain ⟨hnew, hnodup⟩ := List.nodup_cons.mp hnodup
      rcases List.mem_cons.mp hs with rfl | hs
      · exact (rerankAll_of_notMem hnew).trans (Function.update_self _ _ _)
      · have hne : s.cardId ≠ t.cardId := fun heq => hnew (heq ▸ List.mem_map_of_mem hs)
        apply (rerankAll_of_mem hnodup hs).trans
        exact congrArg (rerank · listId s.rank) (Function.update_of_ne hne _ _)

theorem mem_plan_iff : (∃ s ∈ plan (liveCards cards rows listId), s.cardId = id) ↔
    LiveIn cards rows listId id := by
  have hcurrent : Rewrite.Current cards rows ⟨listId, plan (liveCards cards rows listId), none⟩ :=
    (plan_spec _).1.symm
  exact hcurrent.mem_iff id

/-- A card that is not live in the list is not touched. -/
theorem rebalanced_of_not_live (h : ¬ LiveIn cards rows listId id) :
    rebalanced cards rows listId id = rows id :=
  rerankAll_of_notMem fun hmem => h ((mem_plan_iff).mp (List.mem_map.mp hmem))

theorem rebalanced_of_mem (hcards : cards.Nodup) {s : Sibling}
    (hs : s ∈ plan (liveCards cards rows listId)) :
    rebalanced cards rows listId s.cardId = rerank (rows s.cardId) listId s.rank :=
  rerankAll_of_mem (valid_plan hcards listId none).nodup hs

/-- A rebalance writes ranks only. -/
theorem rebalanced_fields (hcards : cards.Nodup) (rows : Rows) (listId : ListId) (id : CardId) :
    (rebalanced cards rows listId id).listId = (rows id).listId ∧
      (rebalanced cards rows listId id).deletedAt = (rows id).deletedAt ∧
        (rebalanced cards rows listId id).archivedAt = (rows id).archivedAt := by
  by_cases hlive : LiveIn cards rows listId id
  · obtain ⟨s, hs, rfl⟩ := (mem_plan_iff).mpr hlive
    rw [rebalanced_of_mem hcards hs]
    exact ⟨rfl, rfl, rfl⟩
  · rw [rebalanced_of_not_live hlive]
    exact ⟨rfl, rfl, rfl⟩

/-! ### The order of a list -/

/-- A card is strictly before another by rank, and by id where they tie. -/
def Precedes (rows : Rows) (a b : CardId) : Prop :=
  (rows a).rank < (rows b).rank ∨ (rows a).rank = (rows b).rank ∧ a < b

theorem precedes_iff : Precedes rows a b ↔
    ¬ RankedBefore ⟨b, (rows b).rank⟩ ⟨a, (rows a).rank⟩ := by
  unfold Precedes RankedBefore
  rcases lt_trichotomy (rows a).rank (rows b).rank with h | h | h
  · simp [h, h.not_gt, h.ne']
  · simp [h]
  · simp [h, h.not_gt, h.ne']

theorem precedes_total (hne : a ≠ b) : Precedes rows a b ∨ Precedes rows b a := by
  unfold Precedes
  rcases lt_trichotomy (rows a).rank (rows b).rank with h | h | h
  · exact .inl (.inl h)
  · exact (lt_or_gt_of_ne hne).imp (fun hlt => .inr ⟨h, hlt⟩) fun hlt => .inr ⟨h.symm, hlt⟩
  · exact .inr (.inl h)

theorem precedes_asymm (h : Precedes rows a b) : ¬ Precedes rows b a := by
  rintro (hba | ⟨heq, hba⟩)
  · rcases h with hab | ⟨hab, -⟩
    · exact hab.not_gt hba
    · exact hba.ne' hab
  · rcases h with hab | ⟨-, hab⟩
    · exact hab.ne' heq
    · exact hab.not_gt hba

/-- **A rebalance keeps the order of every list**, by rank and id. -/
theorem rebalanced_precedes (hcards : cards.Nodup) {inList : ListId} (hne : a ≠ b)
    (ha : LiveIn cards rows inList a) (hb : LiveIn cards rows inList b) :
    Precedes (rebalanced cards rows listId) a b ↔ Precedes rows a b := by
  have hread : ∀ {id}, LiveIn cards rows listId id →
      ⟨id, (rows id).rank⟩ ∈ liveCards cards rows listId := fun h => mem_liveCards.mpr ⟨h, rfl⟩
  have hforward : ∀ {a b}, LiveIn cards rows inList a → LiveIn cards rows inList b →
      Precedes rows a b → Precedes (rebalanced cards rows listId) a b := by
    intro a b ha hb hab
    by_cases hlist : inList = listId
    · subst hlist
      obtain ⟨a', ha', rfl⟩ := (mem_plan_iff).mpr ha
      obtain ⟨b', hb', rfl⟩ := (mem_plan_iff).mpr hb
      left
      rw [rebalanced_of_mem hcards ha', rebalanced_of_mem hcards hb']
      exact rank_lt_of_sorted (plan_spec _).1.symm (select_nodup hcards) select_sorted
        (plan_spec _).2 (hread ha) (hread hb) ha' hb' rfl rfl ((precedes_iff).mp hab)
    · have hother : ∀ {id}, LiveIn cards rows inList id →
          rebalanced cards rows listId id = rows id :=
        fun hid => rebalanced_of_not_live fun hlive => hlist (hid.2.1.symm.trans hlive.2.1)
      rw [Precedes, hother ha, hother hb]
      exact hab
  refine ⟨fun hab => ?_, hforward ha hb⟩
  rcases precedes_total hne with h | h
  · exact h
  · exact absurd (hforward hb ha h) (precedes_asymm hab)

/-! ### One session alone -/

/-- `between` refuses the neighbours. -/
def Refused (cards : List CardId) (rows : Rows) (input : MoveInput) : Prop :=
  ∃ error, position cards rows input = .error (.invalidRank error)

/-- The place of the move is computed in the rows `before`: the rows as they were
or, where they were refused, the rows after a rebalance. -/
def PositionedIn (cards : List CardId) (rows : Rows) (input : MoveInput) (pos : Position)
    (before : Rows) : Prop :=
  position cards before input = .ok pos ∧
    (before = rows ∨
      Refused cards rows input ∧ before = rebalanced cards rows input.targetListId)

/-- `after` are the rows that a move alone leaves. -/
def MovesTo (cards : List CardId) (rows : Rows) (input : MoveInput) (after : Rows) : Prop :=
  ∃ moving pos before, moving.input = input ∧ PositionedIn cards rows input pos before ∧
    after = Function.update before input.cardId (place (before input.cardId) moving pos.rank)

/-- What a move alone sees, by where it is. -/
def Alone (cards : List CardId) (rows : Rows) (input : MoveInput) (phase : Phase) (view : Rows) :
    Prop :=
  match phase with
  | .move i | .loaded i _ | .targeted i _ => i = input ∧ view = rows
  | .repairing moving => moving.input = input ∧ view = rows ∧ Refused cards rows input
  | .rewriting rewrite rest => rewrite.listId = input.targetListId ∧
      (∃ moving, rewrite.resume = some moving ∧ moving.input = input) ∧
        Refused cards rows input ∧ ∃ done,
          plan (liveCards cards rows input.targetListId) = done ++ rest ∧
            view = rerankAll input.targetListId done rows
  | .placing moving pos _ => moving.input = input ∧ PositionedIn cards rows input pos view
  | .placed _ _ _ | .finished _ _ => MovesTo cards rows input view
  | .rebalance _ => False
  | .failed _ _ => True

variable {lists : ListId → Option TargetList}

/-- The statement that computes the place, or finds that it cannot. -/
theorem targeted_run {i : MoveInput} {target : TargetList} {inp : Input} {view : Rows}
    {held : CardId → Bool} {locks : List CardId} {writes : List (CardId × Card)} {next : Phase}
    (h : statement cards lists (.targeted i target) inp view held = some (.run locks writes next)) :
    writes = [] ∧ ∃ n, (∃ pos, position cards view i = .ok pos ∧
        next = .placing ⟨i, target, n⟩ pos none) ∨
      Refused cards view i ∧ next = .repairing ⟨i, target, n⟩ := by
  cases inp with
  | abort => cases h
  | next =>
    simp only [statement] at h
    split at h <;> cases h
    · rename_i pos hpos
      exact ⟨rfl, _, .inl ⟨pos, hpos, rfl⟩⟩
    · rename_i error herror
      exact ⟨rfl, _, .inr ⟨⟨error, herror⟩, rfl⟩⟩

theorem alone_run {phase next : Phase} {inp : Input} {view : Rows} {held : CardId → Bool}
    {locks : List CardId} {writes : List (CardId × Card)}
    (h : Alone cards rows input phase view)
    (heq : statement cards lists phase inp view held = some (.run locks writes next)) :
    Alone cards rows input next (overlay writes view) := by
  have hruns := runs_of_statement heq
  cases hruns with
  | read => exact h.elim
  | load | target => exact h
  | position | refuse =>
    obtain ⟨rfl, rfl⟩ := h
    obtain ⟨-, n, ⟨pos, hpos, hnext⟩ | ⟨hrefused, hnext⟩⟩ := targeted_run heq
    · rw [hnext]
      exact ⟨rfl, hpos, .inl rfl⟩
    · rw [hnext]
      exact ⟨rfl, rfl, hrefused⟩
  | @repair moving =>
    obtain ⟨rfl, rfl, hrefused⟩ := h
    exact ⟨rfl, ⟨moving, rfl, rfl⟩, hrefused, [], rfl, rfl⟩
  | @rewrite rewrite row rest =>
    obtain ⟨hlist, hresume, hrefused, done, hplan, hview⟩ := h
    refine ⟨hlist, hresume, hrefused, done ++ [row], by rw [hplan]; simp, ?_⟩
    rw [rerankAll_append, ← hview, hlist]
    rfl
  | @reposition rewrite moving pos hresume hpos =>
    obtain ⟨-, ⟨moving', hresume', rfl⟩, hrefused, done, hplan, hview⟩ := h
    obtain rfl := Option.some.inj (hresume.symm.trans hresume')
    rw [List.append_nil] at hplan
    refine ⟨rfl, hpos, .inr ⟨hrefused, ?_⟩⟩
    rw [overlay_nil, hview, rebalanced, hplan]
  | @place moving pos rewrite =>
    obtain ⟨rfl, hpos⟩ := h
    exact ⟨moving, pos, view, rfl, hpos, rfl⟩

/-- The session alone sees what `Alone` says, and a move that is finished has
committed it. -/
structure RunsAlone (cards : List CardId) (rows : Rows) (input : MoveInput) (w : State Unit) :
    Prop where
  alone : Alone cards rows input (w.locals ()) (w.view ())
  committed : ∀ i result, w.locals () = .finished i result → w.committed = w.view ()

theorem runsAlone_initial (listOf : Unit → ListId) :
    RunsAlone cards rows input (initial rows () input listOf) where
  alone := ⟨rfl, rfl⟩
  committed _ _ h := by cases h

theorem runsAlone_step {w w' : State Unit} {action : Unit × Input}
    (h : RunsAlone cards rows input w) (hstep : step cards lists w action = some w') :
    RunsAlone cards rows input w' := by
  obtain ⟨⟨⟩, inp⟩ := action
  rcases step_cases hstep with ⟨locks, writes, next, heq, -, rfl⟩ | ⟨next, heq, rfl⟩ |
    ⟨next, heq, rfl⟩
  -- a statement moves the run on
  · have hnext := alone_run h.alone heq
    have hview : (w.run () locks writes next).view () = overlay writes (w.view ()) := by
      rw [World.view, World.view, ← overlay_append]
      simp [World.run]
    refine ⟨?_, ?_⟩
    · rw [hview]
      simpa [World.run] using hnext
    · intro i result hfinished
      simp only [World.run, Function.update_self] at hfinished
      exact absurd hfinished (runs_of_statement heq).not_finished
  -- a commit shows what the session has seen all along
  · obtain ⟨hcommits, -⟩ := commits_of_statement heq
    have hview : (w.commit () next).view () = w.view () := by
      simp [World.view, World.commit]
    refine ⟨?_, fun _ _ _ => hview.symm⟩
    rw [hview]
    have halone := h.alone
    cases hphase : w.locals () with
    | rewriting rewrite rest =>
      rw [hphase] at halone hcommits
      obtain ⟨-, ⟨moving, hresume, -⟩, -⟩ := halone
      cases hcommits with
      | rebalanced hnone => cases hnone.symm.trans hresume
    | placed moving pos rewrite =>
      rw [hphase] at halone hcommits
      cases hcommits
      simp only [World.commit, Function.update_self]
      exact halone
    | _ =>
      rw [hphase] at hcommits
      cases hcommits
  -- a rollback fails the move
  · obtain ⟨error, rfl⟩ := failed_of_rollback heq
    refine ⟨?_, ?_⟩
    · simp [World.rollback, Alone]
    · intro i result hfinished
      simp only [World.rollback, Function.update_self] at hfinished
      cases hfinished

theorem movesTo_of_finished {listOf : Unit → ListId} {w : State Unit} {i : Option MoveInput}
    {result : Option MoveResult}
    (h : Reachable (step cards lists) (initial rows () input listOf) w)
    (hfinished : w.locals () = .finished i result) : MovesTo cards rows input w.committed := by
  have hruns : RunsAlone cards rows input w :=
    h.invariant (runsAlone_initial listOf) fun hw _ hs => runsAlone_step hw hs
  have halone := hruns.alone
  rw [hfinished, ← hruns.committed i result hfinished] at halone
  exact halone

/-! ### What a move alone does -/

/-- The moved card is strictly between its neighbours in its list, and the other
cards keep their lists and their order. -/
structure MovedAlone (cards : List CardId) (rows after : Rows) (input : MoveInput) : Prop where
  listId : (after input.cardId).listId = input.targetListId
  below : ∀ id ∈ input.beforeCardId, Precedes after id input.cardId
  above : ∀ id ∈ input.afterCardId, Precedes after input.cardId id
  lists : ∀ id, id ≠ input.cardId → (after id).listId = (rows id).listId
  order : ∀ listId a b, a ≠ input.cardId → b ≠ input.cardId → a ≠ b →
    LiveIn cards rows listId a → LiveIn cards rows listId b →
      (Precedes after a b ↔ Precedes rows a b)
  others : ∀ id, id ≠ input.cardId → (rows id).listId ≠ input.targetListId → after id = rows id

/-- The move is to the front, before a card of the smallest integer. -/
def BeforeSmallest (rows : Rows) (input : MoveInput) : Prop :=
  input.beforeCardId = none ∧ ∃ id ∈ input.afterCardId, (rows id).rank = SMALLEST_INTEGER

/-- A named neighbour is a live card of the list, other than the moved one, and
the rank read is its rank. -/
theorem neighbour_alone {name : Option CardId} {rank : Option (List Char)}
    (h : rankOfNeighbour (loadSiblings cards rows input.targetListId input.cardId) name =
      .ok rank) :
    (name = none → rank = none) ∧
      ∀ c ∈ name, c ≠ input.cardId ∧ LiveIn cards rows input.targetListId c ∧
        rank = some (rows c).rank := by
  refine ⟨?_, fun c hc => ?_⟩
  · rintro rfl
    exact (Except.ok.inj h).symm
  · obtain ⟨s, hs, rfl, rfl⟩ := rankOfNeighbour_eq_ok h c hc
    obtain ⟨hmem, hp, hrank⟩ := mem_select.mp hs
    simp only [Bool.and_eq_true, decide_eq_true_eq, Option.isNone_iff_eq_none] at hp
    exact ⟨hp.1.1.2, ⟨hmem, hp.1.1.1, hp.1.2⟩, by rw [hrank]⟩

theorem rankOfNeighbour_error {siblings : List Sibling} {name : Option CardId} {error : MoveError}
    (h : rankOfNeighbour siblings name = .error error) : error = .notFound := by
  unfold rankOfNeighbour at h
  split at h
  · cases h
  · split at h <;> cases h
    rfl

/-- How a place is computed. -/
theorem position_cases (cards : List CardId) (rows : Rows) (input : MoveInput) :
    (∃ before after, neighbours cards rows input = .ok (before, after) ∧
      ((∃ rank, between before after = .ok rank ∧
          position cards rows input = .ok ⟨before, after, rank⟩) ∨
        ∃ error, between before after = .error error ∧
          position cards rows input = .error (.invalidRank error))) ∨
      position cards rows input = .error .notFound := by
  unfold position
  cases hneighbours : neighbours cards rows input with
  | error error =>
    obtain rfl : error = .notFound := by
      simp only [neighbours, bind, Except.bind] at hneighbours
      split at hneighbours
      · rename_i herror
        cases hneighbours
        exact rankOfNeighbour_error herror
      · split at hneighbours <;> cases hneighbours
        rename_i herror
        exact rankOfNeighbour_error herror
    exact .inr rfl
  | ok ends =>
    refine .inl ⟨ends.1, ends.2, rfl, ?_⟩
    cases hbetween : between ends.1 ends.2 with
    | error error =>
      exact .inr ⟨error, rfl, by simp [bind, Except.bind, hbetween, throw, throwThe,
        MonadExceptOf.throw]⟩
    | ok rank => exact .inl ⟨rank, rfl, by simp [bind, Except.bind, hbetween, pure, Except.pure]⟩

theorem position_ok (h : position cards rows input = .ok pos) :
    neighbours cards rows input = .ok (pos.before, pos.after) ∧
      between pos.before pos.after = .ok pos.rank := by
  rcases position_cases cards rows input with
    ⟨before, after, hneighbours, ⟨rank, hbetween, hpos⟩ | ⟨error, -, hpos⟩⟩ | hpos
  · rw [h] at hpos
    obtain rfl := Except.ok.inj hpos
    exact ⟨hneighbours, hbetween⟩
  · cases h.symm.trans hpos
  · cases h.symm.trans hpos

/-- The ends of a place are the ranks of the neighbours, which are other cards. -/
theorem position_ends {start stop : Option (List Char)}
    (h : neighbours cards rows input = .ok (start, stop)) :
    (∀ id ∈ input.beforeCardId, id ≠ input.cardId ∧
        LiveIn cards rows input.targetListId id ∧ start = some (rows id).rank) ∧
      (∀ id ∈ input.afterCardId, id ≠ input.cardId ∧
        LiveIn cards rows input.targetListId id ∧ stop = some (rows id).rank) ∧
        (BeforeSmallest rows input ↔ start = none ∧ stop = some SMALLEST_INTEGER) := by
  obtain ⟨hbefore, hafter⟩ := neighbours_eq_ok h
  obtain ⟨hstart, hbefore⟩ := neighbour_alone hbefore
  obtain ⟨hstop, hafter⟩ := neighbour_alone hafter
  refine ⟨hbefore, hafter, ?_, ?_⟩
  · rintro ⟨hnone, id, hid, hrank⟩
    exact ⟨hstart hnone, by rw [(hafter id hid).2.2, hrank]⟩
  · rintro ⟨rfl, rfl⟩
    refine ⟨?_, ?_⟩
    · cases hname : input.beforeCardId with
      | none => rfl
      | some id => cases (hbefore id hname).2.2
    · cases hname : input.afterCardId with
      | none => cases hstop hname
      | some id => exact ⟨id, rfl, (Option.some.inj (hafter id hname).2.2).symm⟩

/-- The place is strictly inside its ends, but for the one in front of the
smallest integer. -/
theorem position_inside (h : position cards rows input = .ok pos) :
    StrictlyInside pos.before pos.after pos.rank ↔ ¬ BeforeSmallest rows input := by
  obtain ⟨hneighbours, hbetween⟩ := position_ok h
  rw [(position_ends hneighbours).2.2]
  refine ⟨?_, strictlyInside_of_between_eq_ok hbetween⟩
  rintro ⟨-, -, hbelow⟩ ⟨hnone, hsmallest⟩
  rw [hnone, hsmallest, between_none_smallest] at hbetween
  have hrank := hbelow SMALLEST_INTEGER hsmallest
  rw [← Except.ok.inj hbetween] at hrank
  exact absurd hrank (LexOrder.lt_append_of_ne_nil SMALLEST_INTEGER (by simp)).not_gt

/-- In front of the smallest integer `between` refuses nothing. -/
theorem not_beforeSmallest_of_refused (h : Refused cards rows input) :
    ¬ BeforeSmallest rows input := by
  obtain ⟨error, herror⟩ := h
  intro hsmallest
  rcases position_cases cards rows input with
    ⟨start, stop, hneighbours, ⟨rank, -, hpos⟩ | ⟨error', hbetween, -⟩⟩ | hpos
  · cases herror.symm.trans hpos
  · obtain ⟨rfl, rfl⟩ := (position_ends hneighbours).2.2.mp hsmallest
    rw [between_none_smallest] at hbetween
    cases hbetween
  · cases herror.symm.trans hpos

/-- The ranks of a rebalance start at zero. -/
theorem zero_le_of_mem_rankSequence {count : Nat} {ranks : List (List Char)}
    (h : rankSequence count = .ok ranks) : ∀ rank ∈ ranks, ZERO_INTEGER ≤ rank := by
  cases count with
  | zero =>
    obtain rfl := Except.ok.inj h
    exact fun _ hrank => absurd hrank List.not_mem_nil
  | succ count =>
    obtain ⟨rest, hrest, -, -, habove⟩ := rankSequenceFrom_spec count (some ZERO_INTEGER)
      (by simpa using isInteger_zero.isRank)
    have hfirst : between none none = .ok ZERO_INTEGER := rfl
    simp only [rankSequence, rankSequenceFrom, hfirst, hrest, bind, Except.bind, pure,
      Except.pure, Except.ok.injEq] at h
    intro rank hrank
    rw [← h] at hrank
    rcases List.mem_cons.mp hrank with rfl | hrank
    · exact le_rfl
    · exact ((habove rank hrank).2 _ rfl).le

theorem zero_le_of_mem_plan {siblings : List Sibling} {s : Sibling} (h : s ∈ plan siblings) :
    ZERO_INTEGER ≤ s.rank := by
  obtain ⟨ranks, hranks, hlength, -⟩ := rankSequence_spec siblings.length
  rw [plan, hranks] at h
  have hrank := List.mem_map_of_mem (f := Sibling.rank) h
  rw [show (Except.ok ranks : Except InvalidRankError _).toOption.getD [] = ranks from rfl,
    (zipWith_cardId siblings ranks hlength).2] at hrank
  exact zero_le_of_mem_rankSequence hranks _ hrank

theorem not_beforeSmallest_rebalanced (hcards : cards.Nodup)
    (h : position cards (rebalanced cards rows input.targetListId) input = .ok pos) :
    ¬ BeforeSmallest (rebalanced cards rows input.targetListId) input := by
  rintro ⟨-, id, hid, hsmallest⟩
  obtain ⟨-, hlive, -⟩ := (position_ends (position_ok h).1).2.1 id hid
  obtain ⟨hlist, hdeleted, -⟩ := rebalanced_fields hcards rows input.targetListId id
  have hlive' : LiveIn cards rows input.targetListId id :=
    ⟨hlive.1, hlist ▸ hlive.2.1, hdeleted ▸ hlive.2.2⟩
  obtain ⟨s, hs, rfl⟩ := (mem_plan_iff).mpr hlive'
  rw [rebalanced_of_mem hcards hs] at hsmallest
  have hzero := zero_le_of_mem_plan hs
  rw [show s.rank = SMALLEST_INTEGER from hsmallest] at hzero
  exact absurd hzero (by decide)

/-- What the rows that a place is computed in share with the rows at the start. -/
structure SameOrder (cards : List CardId) (rows before : Rows) (listId : ListId) : Prop where
  lists : ∀ id, (before id).listId = (rows id).listId
  order : ∀ {inList a b}, a ≠ b → LiveIn cards rows inList a → LiveIn cards rows inList b →
    (Precedes before a b ↔ Precedes rows a b)
  others : ∀ id, (rows id).listId ≠ listId → before id = rows id

theorem PositionedIn.sameOrder (hcards : cards.Nodup) (h : PositionedIn cards rows input pos before) :
    SameOrder cards rows before input.targetListId := by
  rcases h.2 with rfl | ⟨-, rfl⟩
  · exact ⟨fun _ => rfl, fun _ _ _ => Iff.rfl, fun _ _ => rfl⟩
  · exact {
      lists := fun id => (rebalanced_fields hcards rows _ id).1
      order := rebalanced_precedes hcards
      others := fun id hlist => rebalanced_of_not_live fun hlive => hlist hlive.2.1 }

theorem PositionedIn.inside (hcards : cards.Nodup) (h : PositionedIn cards rows input pos before) :
    StrictlyInside pos.before pos.after pos.rank ↔ ¬ BeforeSmallest rows input := by
  rw [position_inside h.1]
  rcases h.2 with rfl | ⟨hrefused, rfl⟩
  · exact Iff.rfl
  · exact iff_of_true (not_beforeSmallest_rebalanced hcards h.1)
      (not_beforeSmallest_of_refused hrefused)

theorem precedes_update_of_ne {card : Card} {m : CardId} (ha : a ≠ m) (hb : b ≠ m) :
    Precedes (Function.update rows m card) a b ↔ Precedes rows a b := by
  unfold Precedes
  rw [Function.update_of_ne ha, Function.update_of_ne hb]

/-- A move that has its place strictly inside its ends does what it should. -/
theorem movedAlone_of_inside {moving : Moving} (hcards : cards.Nodup)
    (h : PositionedIn cards rows moving.input pos before)
    (hinside : StrictlyInside pos.before pos.after pos.rank) :
    MovedAlone cards rows (Function.update before moving.input.cardId
      (place (before moving.input.cardId) moving pos.rank)) moving.input := by
  obtain ⟨hbelow, habove, -⟩ := position_ends (position_ok h.1).1
  have hsame := h.sameOrder hcards
  refine { listId := ?_, below := ?_, above := ?_, lists := ?_, order := ?_, others := ?_ }
  · rw [Function.update_self]
    rfl
  · intro id hid
    obtain ⟨hne, -, hrank⟩ := hbelow id hid
    left
    rw [Function.update_of_ne hne, Function.update_self]
    exact hinside.2.1 _ hrank
  · intro id hid
    obtain ⟨hne, -, hrank⟩ := habove id hid
    left
    rw [Function.update_of_ne hne, Function.update_self]
    exact hinside.2.2 _ hrank
  · intro id hne
    rw [Function.update_of_ne hne]
    exact hsame.lists id
  · intro listId a b ha hb hne hlive hlive'
    rw [precedes_update_of_ne ha hb]
    exact hsame.order hne hlive hlive'
  · intro id hne hlist
    rw [Function.update_of_ne hne]
    exact hsame.others id hlist

/-- In front of the smallest integer the moved card ends after its neighbour. -/
theorem not_movedAlone_of_beforeSmallest {moving : Moving}
    (h : PositionedIn cards rows moving.input pos before)
    (hsmallest : BeforeSmallest rows moving.input) :
    ¬ MovedAlone cards rows (Function.update before moving.input.cardId
      (place (before moving.input.cardId) moving pos.rank)) moving.input := by
  obtain ⟨hpos, rfl | ⟨hrefused, -⟩⟩ := h
  swap
  · exact absurd hsmallest (not_beforeSmallest_of_refused hrefused)
  intro hmoved
  obtain ⟨hneighbours, hbetween⟩ := position_ok hpos
  obtain ⟨hnone, hstop⟩ := (position_ends hneighbours).2.2.mp hsmallest
  obtain ⟨-, id, hid, hrank⟩ := hsmallest
  have hne := ((position_ends hneighbours).2.1 id hid).1
  have habove := hmoved.above id hid
  rw [hnone, hstop, between_none_smallest] at hbetween
  have hlt : SMALLEST_INTEGER < pos.rank := by
    rw [← Except.ok.inj hbetween]
    exact LexOrder.lt_append_of_ne_nil SMALLEST_INTEGER (by simp)
  unfold Precedes at habove
  rw [Function.update_self, Function.update_of_ne hne, hrank] at habove
  rcases habove with habove | ⟨habove, -⟩
  · exact hlt.not_gt habove
  · exact hlt.ne' habove

/-- **A move that runs alone places its card and keeps the rest**, exactly unless
it is to the front of a list, before a card of the smallest integer. -/
theorem moved_alone_iff (hcards : cards.Nodup) {listOf : Unit → ListId} {w : State Unit}
    {i : Option MoveInput} {result : Option MoveResult}
    (h : Reachable (step cards lists) (initial rows () input listOf) w)
    (hfinished : w.locals () = .finished i result) :
    MovedAlone cards rows w.committed input ↔
      ¬ (input.beforeCardId = none ∧
        ∃ id ∈ input.afterCardId, (rows id).rank = SMALLEST_INTEGER) := by
  obtain ⟨moving, pos, before, rfl, hpos, hafter⟩ := movesTo_of_finished h hfinished
  rw [hafter]
  constructor
  · exact fun hmoved hsmallest => not_movedAlone_of_beforeSmallest hpos hsmallest hmoved
  · exact fun hnot => movedAlone_of_inside hcards hpos ((hpos.inside hcards).mpr hnot)

/-! ### Two moves -/

/-- Two cards of one rank in `done`, and a card in `todo`. -/
def tiedCards : Rows := fun id =>
  let listId := if id = "x" then "todo" else "done"
  { projectId := "p", boardId := "b", listId, rank := "a5".toList,
    archivedAt := none, deletedAt := none, rankedIn := listId }

/-- The tie is refused, so the list is rebalanced, and the card is put between. -/
theorem moved_alone_between_tied :
    ∃ w : State Unit, w.locals () = .finished (some betweenYZ)
        (some ⟨"a0V".toList, "done", false, true⟩) ∧
      MovedAlone ["x", "y", "z"] tiedCards w.committed betweenYZ := by
  have hrun : (run (step ["x", "y", "z"] someLists) (initial tiedCards () betweenYZ fun _ => "")
      (List.replicate 9 ((), .next))).map (fun w => w.locals ()) = some (.finished (some betweenYZ)
        (some ⟨"a0V".toList, "done", false, true⟩)) := by decide +kernel
  obtain ⟨w, hw, hfinished⟩ := Option.map_eq_some_iff.mp hrun
  exact ⟨w, hfinished,
    (moved_alone_iff (by decide) (reachable_of_run hw) hfinished).mpr (by decide)⟩

/-- A card of the smallest integer in `done`, and a card in `todo`. -/
def smallestCard : Rows := fun id =>
  let listId := if id = "x" then "todo" else "done"
  { projectId := "p", boardId := "b", listId, rank := SMALLEST_INTEGER,
    archivedAt := none, deletedAt := none, rankedIn := listId }

/-- Moved in front of the card, the other one ends behind it. -/
theorem moved_alone_behind_smallest :
    ¬ ∀ (rows : Rows) (input : MoveInput) (w : State Unit) (result : MoveResult),
      Reachable (step ["x", "y"] someLists) (initial rows () input fun _ => "") w →
        w.locals () = .finished (some input) (some result) →
          MovedAlone ["x", "y"] rows w.committed input := by
  intro h
  have hrun : (run (step ["x", "y"] someLists)
      (initial smallestCard () ⟨"x", "done", none, some "y"⟩ fun _ => "")
      (List.replicate 5 ((), .next))).map
        (fun w => (w.locals (), (w.committed "x").rank, (w.committed "y").rank)) =
      some (.finished (some ⟨"x", "done", none, some "y"⟩)
          (some ⟨SMALLEST_INTEGER ++ [ZERO, 'V'], "done", false, false⟩),
        SMALLEST_INTEGER ++ [ZERO, 'V'], SMALLEST_INTEGER) := by decide +kernel
  obtain ⟨w, hw, hout⟩ := Option.map_eq_some_iff.mp hrun
  simp only [Prod.mk.injEq] at hout
  obtain ⟨hfinished, hx, hy⟩ := hout
  have habove := (h _ _ w _ (reachable_of_run hw) hfinished).above "y" rfl
  simp only [Precedes, hx, hy] at habove
  exact absurd habove (by decide)

end CardMove
end TaskFlow
