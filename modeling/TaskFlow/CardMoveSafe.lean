import Mathlib.Data.List.Nodup
import TaskFlow.CardMove
import TaskFlow.RankBetween

/-! # A rebalance keeps a move

A rebalance writes the live cards of its list ascending ranks, in the order it
read them.  So when the list it read is still the list, it reorders nothing and
touches no card of another list; and when the neighbours of a move still have
the ranks it read, the moved card commits strictly between them.
-/
namespace TaskFlow
namespace CardMove
open ReadCommitted StepSystem Rank

/-! ### What is read -/

section
variable {cards : List CardId} {rows : Rows} {p : CardId → Card → Bool}

instance : IsTrans Sibling RankedBefore where
  trans a b c := by
    rintro (hab | ⟨hab, hab'⟩) (hbc | ⟨hbc, hbc'⟩)
    · exact Or.inl (hab.trans hbc)
    · exact Or.inl (hbc ▸ hab)
    · exact Or.inl (hab ▸ hbc)
    · exact Or.inr ⟨hab.trans hbc, hab'.trans hbc'⟩

instance : Std.Total RankedBefore where
  total a b := by
    rcases lt_trichotomy a.rank b.rank with h | h | h
    · exact Or.inl (Or.inl h)
    · exact (le_total a.cardId b.cardId).imp (fun h' => Or.inr ⟨h, h'⟩)
        fun h' => Or.inr ⟨h.symm, h'⟩
    · exact Or.inr (Or.inl h)

theorem mem_select {s : Sibling} :
    s ∈ select cards rows p ↔
      s.cardId ∈ cards ∧ p s.cardId (rows s.cardId) = true ∧ s.rank = (rows s.cardId).rank := by
  rw [select, List.mem_insertionSort, List.mem_map]
  constructor
  · rintro ⟨id, hid, rfl⟩
    obtain ⟨hmem, hp⟩ := List.mem_filter.mp hid
    exact ⟨hmem, hp, rfl⟩
  · rintro ⟨hmem, hp, hrank⟩
    exact ⟨s.cardId, List.mem_filter.mpr ⟨hmem, hp⟩, by rw [← hrank]⟩

theorem select_sorted : (select cards rows p).Pairwise RankedBefore :=
  List.pairwise_insertionSort RankedBefore _

theorem select_nodup (hcards : cards.Nodup) :
    ((select cards rows p).map Sibling.cardId).Nodup := by
  apply ((List.perm_insertionSort RankedBefore _).map Sibling.cardId).nodup_iff.mpr
  simpa [Function.comp_def] using hcards.filter _

theorem rankOfNeighbour_eq_ok {siblings : List Sibling} {id : Option CardId}
    {rank : Option (List Char)} (h : rankOfNeighbour siblings id = .ok rank) :
    ∀ c ∈ id, ∃ s ∈ siblings, s.cardId = c ∧ rank = some s.rank := by
  rintro c rfl
  cases hfind : siblings.find? fun row => row.cardId = c with
  | none => simp [rankOfNeighbour, hfind] at h
  | some s =>
    simp only [rankOfNeighbour, hfind, Except.ok.injEq] at h
    exact ⟨s, List.mem_of_find?_eq_some hfind, by simpa using List.find?_some hfind, h.symm⟩

end

/-! ### The plan of a rebalance -/

theorem zipWith_cardId : ∀ (rows : List Sibling) (ranks : List (List Char)),
    ranks.length = rows.length →
    (List.zipWith (fun row rank => ⟨row.cardId, rank⟩) rows ranks).map Sibling.cardId =
        rows.map Sibling.cardId ∧
      (List.zipWith (fun row rank => (⟨row.cardId, rank⟩ : Sibling)) rows ranks).map
        Sibling.rank = ranks
  | [], [], _ => ⟨rfl, rfl⟩
  | row :: rows, rank :: ranks, h => by
      have ih := zipWith_cardId rows ranks (by simpa using h)
      simp only [List.zipWith_cons_cons, List.map_cons, ih.1, ih.2, and_self]
  | [], _ :: _, h => by simp at h
  | _ :: _, [], h => by simp at h

/-- A plan keeps the order it was read in, and its ranks ascend. -/
theorem plan_spec (rows : List Sibling) :
    (plan rows).map Sibling.cardId = rows.map Sibling.cardId ∧
      (plan rows).Pairwise fun a b => a.rank < b.rank := by
  obtain ⟨ranks, hranks, hlen, hpair⟩ := rankSequence_spec rows.length
  rw [plan, hranks, Except.toOption, Option.getD_some]
  obtain ⟨hid, hrank⟩ := zipWith_cardId _ _ hlen
  exact ⟨hid, List.pairwise_map.mp (by rw [hrank]; exact hpair)⟩

/-! ### One statement -/

/-- What a statement that goes on does. -/
inductive Runs (cards : List CardId) (rows : Rows) :
    Phase → List (CardId × Card) → Phase → Prop where
  | read {listId : ListId} : Runs cards rows (.rebalance listId) []
      (.rewriting ⟨listId, plan (liveCards cards rows listId), none⟩
        (plan (liveCards cards rows listId)))
  | load {input : MoveInput} : input.cardId ∈ cards → (rows input.cardId).deletedAt = none →
      Runs cards rows (.move input) [] (.loaded input (rows input.cardId))
  | target {input : MoveInput} {card : Card} {target : TargetList} :
      Runs cards rows (.loaded input card) [] (.targeted input target)
  | position {input : MoveInput} {target : TargetList} {n : Nat} {pos : Position} :
      position cards rows input = .ok pos →
      Runs cards rows (.targeted input target) [] (.placing ⟨input, target, n⟩ pos none)
  | refuse {input : MoveInput} {target : TargetList} {n : Nat} :
      Runs cards rows (.targeted input target) [] (.repairing ⟨input, target, n⟩)
  | repair {moving : Moving} : Runs cards rows (.repairing moving) []
      (.rewriting ⟨moving.input.targetListId,
        plan (liveCards cards rows moving.input.targetListId), some moving⟩
        (plan (liveCards cards rows moving.input.targetListId)))
  | rewrite {rewrite : Rewrite} {row : Sibling} {rest : List Sibling} :
      Runs cards rows (.rewriting rewrite (row :: rest))
        [(row.cardId, rerank (rows row.cardId) rewrite.listId row.rank)]
        (.rewriting rewrite rest)
  | reposition {rewrite : Rewrite} {moving : Moving} {pos : Position} :
      rewrite.resume = some moving → position cards rows moving.input = .ok pos →
      Runs cards rows (.rewriting rewrite []) [] (.placing moving pos (some rewrite))
  | place {moving : Moving} {pos : Position} {rewrite : Option Rewrite} :
      Runs cards rows (.placing moving pos rewrite)
        [(moving.input.cardId, place (rows moving.input.cardId) moving pos.rank)]
        (.placed moving pos rewrite)

theorem runs_of_statement {cards : List CardId} {lists : ListId → Option TargetList}
    {phase next : Phase} {input : Input} {rows : Rows} {held : CardId → Bool}
    {locks : List CardId} {writes : List (CardId × Card)}
    (h : statement cards lists phase input rows held = some (.run locks writes next)) :
    Runs cards rows phase writes next := by
  unfold statement at h
  split at h
  case h_4 => cases h; exact .read
  case h_5 input =>
    split at h
    · rename_i hc
      cases h
      exact .load hc.1 hc.2
    · cases h
  case h_6 =>
    repeat' split at h
    all_goals cases h
    exact .target
  case h_7 input target =>
    split at h <;> cases h
    · rename_i hpos
      exact .position hpos
    · exact .refuse
  case h_8 => cases h; exact .repair
  case h_9 => cases h; exact .rewrite
  case h_10 rewrite =>
    split at h
    · cases h
    · rename_i moving hresume
      split at h <;> cases h
      rename_i hpos
      exact .reposition hresume hpos
  case h_11 => cases h; exact .place
  all_goals cases h

/-- The transactions that commit. -/
inductive Commits : Phase → Phase → Prop where
  | rebalanced {rewrite : Rewrite} : rewrite.resume = none →
      Commits (.rewriting rewrite []) (.finished none none)
  | moved {moving : Moving} {pos : Position} {rewrite : Option Rewrite} :
      Commits (.placed moving pos rewrite)
        (.finished (some moving.input) (some (moveResult moving pos rewrite)))

theorem commits_of_statement {cards : List CardId} {lists : ListId → Option TargetList}
    {phase next : Phase} {input : Input} {rows : Rows} {held : CardId → Bool}
    (h : statement cards lists phase input rows held = some (.commit next)) :
    Commits phase next ∧ input = .next := by
  unfold statement at h
  split at h
  case h_10 rewrite =>
    split at h
    · rename_i hresume
      cases h
      exact ⟨.rebalanced hresume, rfl⟩
    · split at h <;> cases h
  case h_12 =>
    cases h
    exact ⟨.moved, rfl⟩
  all_goals
    repeat' split at h
    all_goals cases h

/-- A transaction that rolls back has failed. -/
theorem failed_of_rollback {cards : List CardId} {lists : ListId → Option TargetList}
    {phase next : Phase} {input : Input} {rows : Rows} {held : CardId → Bool}
    (h : statement cards lists phase input rows held = some (.rollback next)) :
    ∃ error, next = .failed phase.moveInput error := by
  unfold statement at h
  split at h
  case h_10 rewrite =>
    split at h
    · cases h
    · rename_i moving hresume
      split at h <;> cases h
      exact ⟨_, by rw [Phase.moveInput, hresume, Option.map_some]⟩
  all_goals
    repeat' split at h
    all_goals cases h
  all_goals exact ⟨_, rfl⟩

/-! ### What a session writes -/

/-- The plan of a rebalance gives distinct cards ascending ranks. -/
structure Rewrite.Valid (rewrite : Rewrite) : Prop where
  nodup : (rewrite.plan.map Sibling.cardId).Nodup
  sorted : rewrite.plan.Pairwise fun a b => a.rank < b.rank

theorem valid_plan {cards : List CardId} (hcards : cards.Nodup) {rows : Rows} (listId : ListId)
    (resume : Option Moving) :
    Rewrite.Valid ⟨listId, plan (liveCards cards rows listId), resume⟩ := by
  obtain ⟨hid, hsorted⟩ := plan_spec (liveCards cards rows listId)
  exact ⟨by rw [hid]; exact select_nodup hcards, hsorted⟩

/-- The card is written with the rank a rebalance gives it. -/
def Reranked (writes : List (CardId × Card)) (committed : Rows) (listId : ListId)
    (s : Sibling) : Prop :=
  s.cardId ∈ writes.map Prod.fst ∧
    overlay writes committed s.cardId = rerank (committed s.cardId) listId s.rank

/-- The cards of `done` are written, and no other. -/
def Applied (done : List Sibling) (listId : ListId) (writes : List (CardId × Card))
    (committed : Rows) : Prop :=
  (∀ id ∈ writes.map Prod.fst, id ∈ done.map Sibling.cardId) ∧
    ∀ s ∈ done, Reranked writes committed listId s

/-- What the uncommitted writes of a session are, by where it is. -/
def Writes (phase : Phase) (writes : List (CardId × Card)) (committed : Rows) : Prop :=
  match phase with
  | .rewriting rewrite rest => rewrite.Valid ∧
      (∀ moving ∈ rewrite.resume, rewrite.listId = moving.input.targetListId) ∧
      ∃ done, rewrite.plan = done ++ rest ∧ Applied done rewrite.listId writes committed
  | .placing moving pos rewrite => between pos.before pos.after = .ok pos.rank ∧
      match rewrite with
      | none => writes = []
      | some rewrite => rewrite.listId = moving.input.targetListId ∧
          Applied rewrite.plan rewrite.listId writes committed
  | .placed moving pos rewrite => between pos.before pos.after = .ok pos.rank ∧
      moving.input.cardId ∈ writes.map Prod.fst ∧
      overlay writes committed moving.input.cardId =
        place (committed moving.input.cardId) moving pos.rank ∧
      ∀ id ∈ writes.map Prod.fst, id ≠ moving.input.cardId →
        ∃ r ∈ rewrite, r.listId = moving.input.targetListId ∧
          ∃ s ∈ r.plan, s.cardId = id ∧ Reranked writes committed r.listId s
  | _ => writes = []

/-- What holds of a session whatever the others do. -/
structure Session (phase : Phase) (writes : List (CardId × Card)) (own : CardId → Prop)
    (committed : Rows) : Prop where
  locked : ∀ id ∈ writes.map Prod.fst, own id
  writes : Writes phase writes committed

theorem Reranked.congr {writes : List (CardId × Card)} {c c' : Rows} {listId : ListId}
    {s : Sibling} (h : Reranked writes c listId s) (hc : c s.cardId = c' s.cardId) :
    Reranked writes c' listId s :=
  ⟨h.1, by rw [← overlay_congr hc, h.2, hc]⟩

theorem Applied.congr {done : List Sibling} {listId : ListId} {writes : List (CardId × Card)}
    {c c' : Rows} (h : Applied done listId writes c)
    (hc : ∀ id ∈ writes.map Prod.fst, c id = c' id) : Applied done listId writes c' :=
  ⟨h.1, fun s hs => (h.2 s hs).congr (hc _ (h.2 s hs).1)⟩

theorem Session.frame {phase : Phase} {writes : List (CardId × Card)} {own : CardId → Prop}
    {c c' : Rows} (h : Session phase writes own c) (hc : ∀ k, own k → c k = c' k) :
    Session phase writes own c' := by
  have hkeys : ∀ id ∈ writes.map Prod.fst, c id = c' id := fun id hid => hc id (h.locked id hid)
  refine ⟨h.locked, ?_⟩
  have hw := h.writes
  match phase, hw with
  | .rewriting _ _, ⟨hv, hl, done, hplan, happ⟩ => exact ⟨hv, hl, done, hplan, happ.congr hkeys⟩
  | .placing _ _ none, hw => exact hw
  | .placing _ _ (some _), ⟨hb, hl, happ⟩ => exact ⟨hb, hl, happ.congr hkeys⟩
  | .placed moving pos _, ⟨hb, hmem, hplace, hrest⟩ =>
    have heq := hkeys _ hmem
    refine ⟨hb, hmem, by rw [← overlay_congr heq, hplace, heq], fun id hid hne => ?_⟩
    obtain ⟨r, hr, hl, s, hs, rfl, hreranked⟩ := hrest id hid hne
    exact ⟨r, hr, hl, s, hs, rfl, hreranked.congr (hkeys _ hid)⟩
  | .rebalance _, hw | .move _, hw | .loaded _ _, hw | .targeted _ _, hw | .repairing _, hw
  | .finished _ _, hw | .failed _ _, hw => exact hw

theorem between_of_position {cards : List CardId} {rows : Rows} {input : MoveInput}
    {pos : Position} (h : position cards rows input = .ok pos) :
    between pos.before pos.after = .ok pos.rank := by
  unfold position at h
  cases hn : neighbours cards rows input with
  | error e => simp [hn, bind, Except.bind] at h
  | ok ranks =>
    cases hb : between ranks.1 ranks.2 with
    | error e =>
      simp only [hn, hb, bind, Except.bind, throw, throwThe, MonadExceptOf.throw] at h
      cases h
    | ok rank =>
      simp only [hn, hb, bind, Except.bind, pure, Except.pure, Except.ok.injEq] at h
      rw [← h]
      exact hb

theorem session_run {cards : List CardId} (hcards : cards.Nodup) {phase next : Phase}
    {writes new : List (CardId × Card)} {own : CardId → Prop} {c : Rows} {locks : List CardId}
    (h : Session phase writes own c) (hrun : Runs cards (overlay writes c) phase new next) :
    Session next (new ++ writes) (fun k => own k ∨ k ∈ locks ++ new.map Prod.fst) c := by
  refine ⟨fun k hk => ?_, ?_⟩
  · rw [List.map_append, List.mem_append] at hk
    rcases hk with hk | hk
    · exact Or.inr (List.mem_append_right _ hk)
    · exact Or.inl (h.locked k hk)
  have hw := h.writes
  cases hrun with
  | load | target | refuse => exact hw
  | position hpos =>
    exact ⟨between_of_position hpos, hw⟩
  | read =>
    obtain rfl : writes = [] := hw
    exact ⟨valid_plan hcards _ _, by simp, [], rfl, by simp [Applied]⟩
  | repair =>
    obtain rfl : writes = [] := hw
    exact ⟨valid_plan hcards _ _, by simp, [], rfl, by simp [Applied]⟩
  | @rewrite rewrite row rest =>
    obtain ⟨hv, hl, done, hplan, happ⟩ := hw
    refine ⟨hv, hl, done ++ [row], by simp [hplan], ?_, ?_⟩
    · intro id hid
      rw [List.map_append, List.mem_append]
      rcases List.mem_cons.mp hid with rfl | hid
      · exact Or.inr (by simp)
      · exact Or.inl (happ.1 id hid)
    · have hnodup := hv.nodup
      rw [hplan, List.map_append, List.map_cons] at hnodup
      have hnew : row.cardId ∉ done.map Sibling.cardId := fun hmem =>
        (List.nodup_append.mp hnodup).2.2 _ hmem _ List.mem_cons_self rfl
      intro s hs
      rcases List.mem_append.mp hs with hs | hs
      · have hne : s.cardId ≠ row.cardId := fun heq => hnew (heq ▸ List.mem_map_of_mem hs)
        obtain ⟨hmem, heq⟩ := happ.2 s hs
        exact ⟨List.mem_cons_of_mem _ hmem, (Function.update_of_ne hne _ _).trans heq⟩
      · obtain rfl := List.mem_singleton.mp hs
        refine ⟨List.mem_cons_self, (Function.update_self _ _ _).trans ?_⟩
        rw [overlay_of_notMem fun hmem => hnew (happ.1 _ hmem)]
  | reposition hresume hpos =>
    obtain ⟨hv, hl, done, hplan, happ⟩ := hw
    rw [List.append_nil] at hplan
    exact ⟨between_of_position hpos, hl _ hresume, hplan ▸ happ⟩
  | @place moving pos rewrite =>
    obtain ⟨hb, hw⟩ := hw
    -- Every row written so far is one of the plan.
    have hold : ∀ id ∈ writes.map Prod.fst, ∃ r ∈ rewrite,
        r.listId = moving.input.targetListId ∧ ∃ s ∈ r.plan, s.cardId = id ∧
          Reranked writes c r.listId s := by
      intro id hid
      cases rewrite with
      | none =>
        rw [show writes = [] from hw] at hid
        cases hid
      | some r =>
        obtain ⟨s, hs, rfl⟩ := List.mem_map.mp (hw.2.1 id hid)
        exact ⟨r, rfl, hw.1, s, hs, rfl, hw.2.2 s hs⟩
    refine ⟨hb, List.mem_cons_self, (Function.update_self _ _ _).trans ?_, ?_⟩
    · by_cases hid : moving.input.cardId ∈ writes.map Prod.fst
      · obtain ⟨r, -, -, s, -, hs, -, heq⟩ := hold _ hid
        rw [← hs, heq]
        rfl
      · rw [overlay_of_notMem hid]
    · intro id hid hne
      rcases List.mem_cons.mp hid with heq | hid
      · exact absurd heq hne
      · obtain ⟨r, hr, hl, s, hs, rfl, hmem, heq⟩ := hold id hid
        exact ⟨r, hr, hl, s, hs, rfl, List.mem_cons_of_mem _ hmem,
          (Function.update_of_ne hne _ _).trans heq⟩

theorem Session.ended (input : Option MoveInput) (own : CardId → Prop) (c : Rows) :
    (∀ result, Session (.finished input result) [] own c) ∧
      ∀ error, Session (.failed input error) [] own c :=
  ⟨fun _ => ⟨by simp, rfl⟩, fun _ => ⟨by simp, rfl⟩⟩

theorem session_invariant {cards : List CardId} (hcards : cards.Nodup)
    (lists : ListId → Option TargetList) :
    SessionInvariant (statement cards lists) Session where
  frame := fun hc h => h.frame hc
  run := fun h heq => session_run hcards h (runs_of_statement heq)
  commit := fun _ heq => by
    obtain ⟨hcommits, -⟩ := commits_of_statement heq
    cases hcommits <;> exact (Session.ended _ _ _).1 _
  rollback := fun _ heq => by
    obtain ⟨error, rfl⟩ := failed_of_rollback heq
    exact (Session.ended _ _ _).2 _

/-! ### What a commit does -/

/-- A write changes neither whether a card is deleted nor, but for the moved
card, its list. -/
theorem Session.view {phase : Phase} {writes : List (CardId × Card)} {own : CardId → Prop}
    {c : Rows} (h : Session phase writes own c) (id : CardId) :
    (overlay writes c id).deletedAt = (c id).deletedAt ∧
      ((overlay writes c id).listId = (c id).listId ∨
        ∃ input ∈ phase.moveInput, id = input.cardId) := by
  by_cases hid : id ∈ writes.map Prod.fst
  · have hreranked : ∀ {listId s}, s.cardId = id → Reranked writes c listId s →
        (overlay writes c id).deletedAt = (c id).deletedAt ∧
          (overlay writes c id).listId = (c id).listId := by
      rintro listId s rfl ⟨-, heq⟩
      rw [heq]
      exact ⟨rfl, rfl⟩
    have hw := h.writes
    match phase, hw with
    | .rewriting _ _, ⟨_, _, done, _, happ⟩ =>
      obtain ⟨s, hs, hsid⟩ := List.mem_map.mp (happ.1 id hid)
      exact (hreranked hsid (happ.2 s hs)).imp_right Or.inl
    | .placing _ _ none, ⟨_, hw⟩ =>
      rw [show writes = [] from hw] at hid
      cases hid
    | .placing _ _ (some r), ⟨_, _, happ⟩ =>
      obtain ⟨s, hs, hsid⟩ := List.mem_map.mp (happ.1 id hid)
      exact (hreranked hsid (happ.2 s hs)).imp_right Or.inl
    | .placed moving pos _, ⟨_, _, hplace, hrest⟩ =>
      by_cases hne : id = moving.input.cardId
      · subst hne
        rw [hplace]
        exact ⟨rfl, Or.inr ⟨_, rfl, rfl⟩⟩
      · obtain ⟨r, -, -, s, -, hsid, hs⟩ := hrest id hid hne
        exact (hreranked hsid hs).imp_right Or.inl
    | .rebalance _, hw | .move _, hw | .loaded _ _, hw | .targeted _ _, hw | .repairing _, hw
    | .finished _ _, hw | .failed _ _, hw =>
      rw [show writes = [] from hw] at hid
      cases hid
  · rw [overlay_of_notMem hid]
    exact ⟨rfl, Or.inl rfl⟩

/-- Two lists of the same cards, one in ranked order and one with ascending
ranks, order the cards the same way. -/
theorem rank_lt_of_sorted : ∀ {l l' : List Sibling}, l.map Sibling.cardId = l'.map Sibling.cardId →
    (l.map Sibling.cardId).Nodup → l.Pairwise RankedBefore →
    l'.Pairwise (fun a b => a.rank < b.rank) → ∀ {a b a' b' : Sibling}, a ∈ l → b ∈ l → a' ∈ l' →
    b' ∈ l' → a.cardId = a'.cardId → b.cardId = b'.cardId → ¬RankedBefore b a → a'.rank < b'.rank
  | [], _, _, _, _, _, _, _, _, _, ha, _, _, _, _, _, _ => absurd ha List.not_mem_nil
  | h :: l, [], hids, _, _, _, _, _, _, _, _, _, _, _, _, _, _ => by simp at hids
  | h :: l, h' :: l', hids, hnodup, hl, hl', a, b, a', b', ha, hb, ha', hb', haa, hbb, hlt => by
      obtain ⟨hh, hids⟩ := List.cons.inj hids
      obtain ⟨hnew, hnodup⟩ := List.nodup_cons.mp hnodup
      obtain ⟨hl, hl0⟩ := List.pairwise_cons.mp hl
      obtain ⟨hl', hl0'⟩ := List.pairwise_cons.mp hl'
      have tail : ∀ {x x' : Sibling}, x ∈ l → x' ∈ h' :: l' → x.cardId = x'.cardId → x' ∈ l' := by
        intro x x' hx hx' hxx
        rcases List.mem_cons.mp hx' with rfl | hx'
        · exact absurd (hh ▸ hxx ▸ List.mem_map_of_mem hx) hnew
        · exact hx'
      have head : ∀ {x' : Sibling}, x' ∈ h' :: l' → h.cardId = x'.cardId → x' = h' := by
        intro x' hx' hxx
        rcases List.mem_cons.mp hx' with rfl | hx'
        · rfl
        · exact absurd (hids ▸ hxx ▸ List.mem_map_of_mem hx') hnew
      rcases List.mem_cons.mp ha with rfl | hal <;> rcases List.mem_cons.mp hb with rfl | hbl
      · exact absurd (Or.inr ⟨rfl, le_rfl⟩) hlt
      · rw [head ha' haa]
        exact hl' b' (tail hbl hb' hbb)
      · exact absurd (hl a hal) hlt
      · exact rank_lt_of_sorted hids hnodup hl0 hl0' hal hbl (tail hal ha' haa)
          (tail hbl hb' hbb) haa hbb hlt

section
variable {cards : List CardId} {rows : Rows} {writes : List (CardId × Card)} {rewrite : Rewrite}

/-- A card is in a list and not deleted. -/
def LiveIn (cards : List CardId) (rows : Rows) (listId : ListId) (id : CardId) : Prop :=
  id ∈ cards ∧ (rows id).listId = listId ∧ (rows id).deletedAt = none

theorem mem_liveCards {listId : ListId} {s : Sibling} :
    s ∈ liveCards cards rows listId ↔
      LiveIn cards rows listId s.cardId ∧ s.rank = (rows s.cardId).rank := by
  rw [liveCards, mem_select, Bool.and_eq_true, decide_eq_true_eq, Option.isNone_iff_eq_none]
  exact ⟨fun ⟨hmem, h, hrank⟩ => ⟨⟨hmem, h⟩, hrank⟩, fun ⟨⟨hmem, h⟩, hrank⟩ => ⟨hmem, h, hrank⟩⟩

/-- A current plan is for the cards of its list. -/
theorem Rewrite.Current.mem_iff (h : rewrite.Current cards rows) (id : CardId) :
    (∃ s ∈ rewrite.plan, s.cardId = id) ↔ LiveIn cards rows rewrite.listId id := by
  rw [← List.mem_map, ← show _ = _ from h, List.mem_map]
  constructor
  · rintro ⟨s, hs, rfl⟩
    exact ((mem_liveCards).mp hs).1
  · intro hlive
    exact ⟨⟨id, (rows id).rank⟩, (mem_liveCards).mpr ⟨hlive, rfl⟩, rfl⟩

theorem Applied.row_of_notMem {done : List Sibling} {listId : ListId}
    (h : Applied done listId writes rows) {id : CardId} (hid : ¬∃ s ∈ done, s.cardId = id) :
    overlay writes rows id = rows id :=
  overlay_of_notMem (fun hmem => hid (List.mem_map.mp (h.1 id hmem))) _

/-- A current rebalance keeps the order of the cards of every list. -/
theorem Applied.rank_lt (hcards : cards.Nodup) (hv : rewrite.Valid)
    (hcurrent : rewrite.Current cards rows) (happ : Applied rewrite.plan rewrite.listId writes rows)
    {listId : ListId} {a b : CardId} (ha : LiveIn cards rows listId a)
    (hb : LiveIn cards rows listId b) (hlt : (rows a).rank < (rows b).rank) :
    (overlay writes rows a).rank < (overlay writes rows b).rank := by
  by_cases hl : listId = rewrite.listId
  · subst hl
    obtain ⟨a', ha', rfl⟩ := (hcurrent.mem_iff a).mpr ha
    obtain ⟨b', hb', rfl⟩ := (hcurrent.mem_iff b).mpr hb
    rw [(happ.2 a' ha').2, (happ.2 b' hb').2]
    have hread : ∀ {s}, LiveIn cards rows rewrite.listId s →
        ⟨s, (rows s).rank⟩ ∈ liveCards cards rows rewrite.listId :=
      fun hs => (mem_liveCards).mpr ⟨hs, rfl⟩
    refine rank_lt_of_sorted hcurrent (select_nodup hcards) select_sorted hv.sorted (hread ha)
      (hread hb) ha' hb' rfl rfl ?_
    rintro (hba | ⟨hba, -⟩)
    · exact hlt.not_gt hba
    · exact hlt.ne' hba
  · have hother : ∀ {id}, LiveIn cards rows listId id → overlay writes rows id = rows id :=
      fun hid => happ.row_of_notMem fun hmem =>
        hl (hid.2.1.symm.trans ((hcurrent.mem_iff _).mp hmem).2.1)
    rwa [hother ha, hother hb]

/-- Every rank is for the list its card is in. -/
def Ranked (rows : Rows) : Prop := ∀ id, (rows id).rankedIn = (rows id).listId

/-- A card that a current plan reranks is in the list of the plan. -/
theorem Reranked.ranked (hcurrent : rewrite.Current cards rows) {s : Sibling}
    (hs : s ∈ rewrite.plan) (h : Reranked writes rows rewrite.listId s) :
    (overlay writes rows s.cardId).rankedIn = (overlay writes rows s.cardId).listId := by
  rw [h.2]
  exact ((hcurrent.mem_iff s.cardId).mp ⟨s, hs, rfl⟩).2.1.symm

/-- A neighbour that is still in the list stands in `R` to the moved card. -/
structure Beside (cards : List CardId) (rows : Rows) (input : MoveInput) (id : CardId)
    (R : List Char → List Char → Prop) : Prop where
  mem : id ∈ cards
  live : (rows id).deletedAt = none
  rank : (rows id).listId = input.targetListId → R (rows id).rank (rows input.cardId).rank

/-- The moved card is placed, next to cards that are not deleted. -/
structure PlacedLive (cards : List CardId) (rows : Rows) (input : MoveInput) : Prop where
  moved : LiveIn cards rows input.targetListId input.cardId
  before : ∀ id ∈ input.beforeCardId, Beside cards rows input id (· < ·)
  after : ∀ id ∈ input.afterCardId, Beside cards rows input id (· > ·)

theorem PlacedLive.placed {input : MoveInput} (h : PlacedLive cards rows input) :
    Placed rows input :=
  ⟨h.moved.2.1, fun id hid => (h.before id hid).rank, fun id hid => (h.after id hid).rank⟩

/-- A current rebalance keeps a placed card placed. -/
theorem PlacedLive.rebalance {input : MoveInput} (h : PlacedLive cards rows input)
    (hview : ∀ id, (overlay writes rows id).deletedAt = (rows id).deletedAt ∧
      (overlay writes rows id).listId = (rows id).listId)
    (hlt : ∀ {a b}, LiveIn cards rows input.targetListId a →
      LiveIn cards rows input.targetListId b → (rows a).rank < (rows b).rank →
      (overlay writes rows a).rank < (overlay writes rows b).rank) :
    PlacedLive cards (overlay writes rows) input := by
  have hmoved := h.moved
  refine ⟨⟨hmoved.1, (hview _).2.trans hmoved.2.1, (hview _).1.trans hmoved.2.2⟩, ?_, ?_⟩
  · intro id hid
    obtain ⟨hmem, hlive, hrank⟩ := h.before id hid
    refine ⟨hmem, (hview id).1.trans hlive, fun hlist => ?_⟩
    rw [(hview id).2] at hlist
    exact hlt ⟨hmem, hlist, hlive⟩ hmoved (hrank hlist)
  · intro id hid
    obtain ⟨hmem, hlive, hrank⟩ := h.after id hid
    refine ⟨hmem, (hview id).1.trans hlive, fun hlist => ?_⟩
    rw [(hview id).2] at hlist
    exact hlt hmoved ⟨hmem, hlist, hlive⟩ (hrank hlist)

/-- A named neighbour is a live card, and its rank is the one read. -/
theorem neighbour_spec {input : MoveInput} {id : Option CardId} {rank : Option (List Char)}
    (h : rankOfNeighbour (loadSiblings cards rows input.targetListId input.cardId) id = .ok rank) :
    ∀ c ∈ id, c ∈ cards ∧ (rows c).deletedAt = none ∧ rank = some (rows c).rank := by
  intro c hc
  obtain ⟨s, hs, rfl, rfl⟩ := rankOfNeighbour_eq_ok h c hc
  obtain ⟨hmem, hp, hrank⟩ := (mem_select).mp hs
  simp only [Bool.and_eq_true, decide_eq_true_eq, Option.isNone_iff_eq_none] at hp
  exact ⟨hmem, hp.1.2, by rw [hrank]⟩

theorem neighbours_eq_ok {input : MoveInput} {before after : Option (List Char)}
    (h : neighbours cards rows input = .ok (before, after)) :
    let siblings := loadSiblings cards rows input.targetListId input.cardId
    rankOfNeighbour siblings input.beforeCardId = .ok before ∧
      rankOfNeighbour siblings input.afterCardId = .ok after := by
  simp only [neighbours, bind, Except.bind] at h
  split at h
  · cases h
  · rename_i b hb
    split at h
    · cases h
    · rename_i a ha
      obtain ⟨rfl, rfl⟩ := Prod.mk.inj (Except.ok.inj h)
      exact ⟨hb, ha⟩

end

/-! ### The system -/

/-- The card a session has loaded. -/
def Phase.loadedCard : Phase → Option CardId
  | .loaded input _ | .targeted input _ => some input.cardId
  | .repairing moving | .placing moving _ _ | .placed moving _ _ => some moving.input.cardId
  | .rewriting rewrite _ => rewrite.resume.map fun moving => moving.input.cardId
  | .finished input _ => input.map MoveInput.cardId
  | .rebalance _ | .move _ | .failed _ _ => none

theorem Runs.moveInput {cards : List CardId} {rows : Rows} {phase next : Phase}
    {new : List (CardId × Card)} (h : Runs cards rows phase new next) :
    next.moveInput = phase.moveInput := by
  cases h with
  | reposition hresume => simp [Phase.moveInput, hresume]
  | read | load | target | position | refuse | repair | rewrite | place => rfl

theorem Runs.loadedCard {cards : List CardId} {rows : Rows} {phase next : Phase}
    {new : List (CardId × Card)} (h : Runs cards rows phase new next) {id : CardId}
    (hid : next.loadedCard = some id) :
    phase.loadedCard = some id ∨ id ∈ cards ∧ (rows id).deletedAt = none := by
  cases h with
  | load hmem hlive =>
    obtain rfl := Option.some.inj hid
    exact Or.inr ⟨hmem, hlive⟩
  | reposition hresume =>
    obtain rfl := Option.some.inj hid
    exact Or.inl (by simp [Phase.loadedCard, hresume])
  | read => cases hid
  | target | position | refuse | repair | rewrite | place => exact Or.inl hid

theorem Runs.not_finished {cards : List CardId} {rows : Rows} {phase next : Phase}
    {new : List (CardId × Card)} (h : Runs cards rows phase new next) {input result} :
    next ≠ .finished input result := by
  cases h <;> exact fun heq => by cases heq

theorem Commits.same {phase next : Phase} (h : Commits phase next) :
    next.moveInput = phase.moveInput ∧ next.loadedCard = phase.loadedCard := by
  cases h with
  | rebalanced hresume => simp [Phase.moveInput, Phase.loadedCard, hresume]
  | moved => exact ⟨rfl, rfl⟩

variable {S : Type} [DecidableEq S] {cards : List CardId} {lists : ListId → Option TargetList}
  {w w' : State S} {mover : S} {input : MoveInput} {listOf : S → ListId}

/-- What holds of the system while every commit is current. -/
structure Valid (cards : List CardId) (mover : S) (input : MoveInput) (w : State S) : Prop where
  locked : Locked w
  session : ∀ s, Session (w.locals s) (w.pending s) (w.Owns s) w.committed
  moves : ∀ s, (w.locals s).moveInput = if s = mover then some input else none
  loaded : ∀ s id, (w.locals s).loadedCard = some id →
    id ∈ cards ∧ (w.committed id).deletedAt = none
  ranked : Ranked w.committed
  placed : ∀ result, w.locals mover = .finished (some input) result →
    PlacedLive cards w.committed input

theorem valid_initial {rows : Rows} (hranked : Ranked rows) :
    Valid cards mover input (initial rows mover input listOf) where
  locked := locked_initial _ _
  session := fun s => by
    refine ⟨by simp [initial, World.initial], ?_⟩
    by_cases hs : s = mover <;> simp [initial, World.initial, hs, Writes]
  moves := fun s => by
    by_cases hs : s = mover <;> simp [initial, World.initial, hs, Phase.moveInput]
  loaded := fun s id h => by
    by_cases hs : s = mover <;> simp [initial, World.initial, hs, Phase.loadedCard] at h
  ranked := hranked
  placed := fun result h => by simp [initial, World.initial] at h

/-- A rebalance that commits on the list it has read. -/
theorem rebalance_commit (hcards : cards.Nodup) (hv : Valid cards mover input w) {s : S}
    {rewrite : Rewrite} (hphase : w.locals s = .rewriting rewrite [])
    (hresume : rewrite.resume = none) (hcurrent : rewrite.Current cards w.committed) :
    Ranked (w.view s) ∧
      (PlacedLive cards w.committed input → PlacedLive cards (w.view s) input) := by
  have hsession := hv.session s
  rw [hphase] at hsession
  obtain ⟨hvalid, -, done, hplan, happ⟩ := hsession.writes
  rw [List.append_nil] at hplan
  subst hplan
  refine ⟨fun id => ?_, fun h => h.rebalance (fun id => ?_) (happ.rank_lt hcards hvalid hcurrent)⟩
  · by_cases hid : ∃ s ∈ rewrite.plan, s.cardId = id
    · obtain ⟨s, hs, rfl⟩ := hid
      exact (happ.2 s hs).ranked hcurrent hs
    · rw [World.view, happ.row_of_notMem hid]
      exact hv.ranked id
  · obtain ⟨hdeleted, hlist⟩ := hsession.view id
    refine ⟨hdeleted, hlist.resolve_right ?_⟩
    rintro ⟨input, hinput, -⟩
    simp [Phase.moveInput, hresume] at hinput

/-- A move that commits on the neighbours it has read. -/
theorem move_commit (hv : Valid cards mover input w) {s : S} {moving : Moving} {pos : Position}
    {rewrite : Option Rewrite} (hphase : w.locals s = .placed moving pos rewrite)
    (hcurrent : pos.Current cards (w.view s) moving.input)
    (hrewrite : ∀ r ∈ rewrite, Rewrite.Current cards w.committed r) :
    Ranked (w.view s) ∧ PlacedLive cards (w.view s) moving.input := by
  have hsession := hv.session s
  rw [hphase] at hsession
  obtain ⟨hbetween, -, hplace, hrest⟩ := hsession.writes
  obtain ⟨hmem, hlive⟩ := hv.loaded s moving.input.cardId (by rw [hphase]; rfl)
  refine ⟨fun id => ?_, ?_⟩
  · by_cases hid : id ∈ (w.pending s).map Prod.fst
    · by_cases hne : id = moving.input.cardId
      · rw [hne, World.view, hplace]
        rfl
      · obtain ⟨r, hr, -, row, hrow, rfl, hreranked⟩ := hrest id hid hne
        exact hreranked.ranked (hrewrite r hr) hrow
    · rw [World.view, overlay_of_notMem hid]
      exact hv.ranked id
  · obtain ⟨hread, hend⟩ := hcurrent
    obtain ⟨-, hbefore, hafter⟩ := strictlyInside_of_between_eq_ok hbetween hend
    -- the neighbours it has read are the neighbours it commits on
    have hok : neighbours cards (w.view s) moving.input = .ok (pos.before, pos.after) := by
      cases hn : neighbours cards (w.view s) moving.input with
      | error e => simp [hn, Except.toOption] at hread
      | ok ranks => rw [hn] at hread; rw [Option.some.inj hread]
    obtain ⟨hreadBefore, hreadAfter⟩ := neighbours_eq_ok hok
    have hrank : (w.view s moving.input.cardId).rank = pos.rank := by
      rw [World.view, hplace]
      rfl
    refine ⟨⟨hmem, by rw [World.view, hplace]; rfl, (hsession.view _).1.trans hlive⟩, ?_, ?_⟩
    · intro id hid
      obtain ⟨hmem, hlive, heq⟩ := neighbour_spec hreadBefore id hid
      exact ⟨hmem, hlive, fun _ => hrank ▸ hbefore _ heq⟩
    · intro id hid
      obtain ⟨hmem, hlive, heq⟩ := neighbour_spec hreadAfter id hid
      exact ⟨hmem, hlive, fun _ => hrank ▸ hafter _ heq⟩

theorem valid_step (hcards : cards.Nodup) {a : S × Input} (hv : Valid cards mover input w)
    (hg : CommitsCurrent cards w a) (h : step cards lists w a = some w') :
    Valid cards mover input w' := by
  obtain ⟨s, i⟩ := a
  have hlocked := locked_step hv.locked h
  have hsession := (session_invariant hcards lists).step hv.locked hv.session h
  rcases step_cases h with ⟨locks, writes, next, heq, hfree, rfl⟩ | ⟨next, heq, rfl⟩ |
    ⟨next, heq, rfl⟩
  -- a statement writes nothing that is committed
  · have hruns := runs_of_statement heq
    refine ⟨hlocked, hsession, fun t => ?_, fun t id hid => ?_, hv.ranked, fun result hmover => ?_⟩
    · by_cases hts : t = s
      · subst hts
        simpa [World.run] using hruns.moveInput.trans (hv.moves t)
      · simpa [World.run, Function.update_of_ne hts] using hv.moves t
    · by_cases hts : t = s
      · subst hts
        simp only [World.run, Function.update_self] at hid
        rcases hruns.loadedCard hid with hid | ⟨hmem, hlive⟩
        · exact hv.loaded t id hid
        · exact ⟨hmem, ((hv.session t).view id).1.symm.trans hlive⟩
      · simp only [World.run, Function.update_of_ne hts] at hid
        exact hv.loaded t id hid
    · by_cases hts : mover = s
      · subst hts
        simp only [World.run, Function.update_self] at hmover
        exact absurd hmover hruns.not_finished
      · simp only [World.run, Function.update_of_ne hts] at hmover
        exact hv.placed result hmover
  -- a commit: either a rebalance, which keeps the order, or a move, which is the mover of its card
  · obtain ⟨hcommits, rfl⟩ := commits_of_statement heq
    have hcommitted : Ranked (w.view s) ∧ ∀ result,
        (w.commit s next).locals mover = .finished (some input) result →
          PlacedLive cards (w.view s) input := by
      have hmoves := hv.moves s
      generalize hphase : w.locals s = phase at hcommits hmoves
      cases hcommits with
      | rebalanced hresume =>
        have hsm : mover ≠ s := by
          rintro rfl
          simp [Phase.moveInput, hresume] at hmoves
        simp only [CommitsCurrent, hphase] at hg
        obtain ⟨hranked, hplaced⟩ := rebalance_commit hcards hv hphase hresume (hg hresume)
        refine ⟨hranked, fun result hmover => hplaced (hv.placed result ?_)⟩
        simpa [World.commit, Function.update_of_ne hsm] using hmover
      | @moved moving pos rewrite =>
        have hinput : moving.input = input := by
          by_cases hsm : s = mover
          · simpa [Phase.moveInput, hsm] using hmoves
          · simp [Phase.moveInput, hsm] at hmoves
        simp only [CommitsCurrent, hphase] at hg
        obtain ⟨hranked, hplaced⟩ := move_commit hv hphase hg.1 hg.2
        exact ⟨hranked, fun _ _ => hinput ▸ hplaced⟩
    refine ⟨hlocked, hsession, fun t => ?_, fun t id hid => ?_, hcommitted.1,
      hcommitted.2⟩
    · by_cases hts : t = s
      · subst hts
        simpa [World.commit] using hcommits.same.1.trans (hv.moves t)
      · simpa [World.commit, Function.update_of_ne hts] using hv.moves t
    · have hid' : (w.locals t).loadedCard = some id := by
        by_cases hts : t = s
        · subst hts
          simp only [World.commit, Function.update_self] at hid
          exact hcommits.same.2.symm.trans hid
        · simpa only [World.commit, Function.update_of_ne hts] using hid
      obtain ⟨hmem, hlive⟩ := hv.loaded t id hid'
      exact ⟨hmem, ((hv.session s).view id).1.trans hlive⟩
  -- a rollback leaves the committed rows alone
  · obtain ⟨error, rfl⟩ := failed_of_rollback heq
    refine ⟨hlocked, hsession, fun t => ?_, fun t id hid => ?_, hv.ranked, fun result hmover => ?_⟩
    · by_cases hts : t = s
      · subst hts
        simpa [World.rollback, Phase.moveInput] using hv.moves t
      · simpa [World.rollback, Function.update_of_ne hts] using hv.moves t
    · by_cases hts : t = s
      · subst hts
        simp [World.rollback, Phase.loadedCard] at hid
      · simp only [World.rollback, Function.update_of_ne hts] at hid
        exact hv.loaded t id hid
    · by_cases hts : mover = s
      · subst hts
        simp [World.rollback] at hmover
      · simp only [World.rollback, Function.update_of_ne hts] at hmover
        exact hv.placed result hmover

/-- **A rebalance never loses a move**, in any run in which a rebalance commits
on the list it has read and a move commits on the neighbours it has read: every
rank is for the list its card is in, and the moved card is in its list, strictly
between its neighbours. -/
theorem move_survives_rebalance {rows : Rows} (hcards : cards.Nodup) (hranked : Ranked rows)
    (h : ReachableWhen (step cards lists) (CommitsCurrent cards)
      (initial rows mover input listOf) w) :
    Ranked w.committed ∧
      ∀ result, w.locals mover = .finished (some input) result → Placed w.committed input := by
  have hv : Valid cards mover input w := h.invariant (valid_initial hranked)
    (fun hv hg hs => valid_step hcards hv hg hs)
  exact ⟨hv.ranked, fun result hfinished => (hv.placed result hfinished).placed⟩

/-! ### One move and one rebalance -/

/-- A card in one list, to be moved between the two cards of another. -/
def threeCards : Rows := fun id =>
  let listId := if id = "x" then "todo" else "done"
  { projectId := "p", boardId := "b", listId, rank := (if id = "z" then "a6" else "a5").toList,
    archivedAt := none, deletedAt := none, rankedIn := listId }

def someLists (_ : ListId) : Option TargetList :=
  some { projectId := "p", boardId := "b", wipLimit := none }

def betweenYZ : MoveInput := ⟨"x", "done", some "y", some "z"⟩

def moved : Phase :=
  .finished (some betweenYZ) (some ⟨"a5V".toList, "done", false, false⟩)

/-- Session `true` moves the card, and session `false` rebalances a list. -/
def start (listId : ListId) : State Bool := initial threeCards true betweenYZ fun _ => listId

def steps (s : Bool) (n : Nat) : List (Bool × Input) := List.replicate n (s, .next)

theorem ranked_threeCards : Ranked threeCards := fun _ => rfl

/-- The move commits, and then its list is rebalanced. -/
theorem move_survives_rebalance_after :
    ∃ w : State Bool, (w.committed "x").rank = "a1".toList ∧ w.locals true = moved ∧
      Ranked w.committed ∧ Placed w.committed betweenYZ := by
  have hrun : (runWhen (step ["x", "y", "z"] someLists) (CommitsCurrent ["x", "y", "z"])
      (start "done") (steps true 5 ++ steps false 5)).map
      (fun w => ((w.committed "x").rank, w.locals true)) = some ("a1".toList, moved) := by
    decide +kernel
  obtain ⟨w, hw, hpair⟩ := Option.map_eq_some_iff.mp hrun
  obtain ⟨hrank, hmoved⟩ := Prod.mk.inj hpair
  obtain ⟨hranked, hplaced⟩ := move_survives_rebalance (by decide) ranked_threeCards
    (reachableWhen_of_runWhen hw)
  exact ⟨w, hrank, hmoved, hranked, hplaced _ hmoved⟩

/-- A card moved out of a list while it is rebalanced gets a rank of the list it
left, which need not be between its neighbours; and so need not a card moved
into a list while the list is rebalanced. -/
theorem move_lost :
    (∃ w : State Bool,
      run (step ["x", "y", "z"] someLists) (start "todo")
        (steps false 1 ++ steps true 5 ++ steps false 2) = some w ∧
      w.locals false = .finished none none ∧ w.locals true = moved ∧ ¬Ranked w.committed ∧
      ¬Placed w.committed betweenYZ) ∧
    ∃ w : State Bool,
      run (step ["x", "y", "z"] someLists) (start "done")
        (steps false 1 ++ steps true 5 ++ steps false 3) = some w ∧
      w.locals false = .finished none none ∧ w.locals true = moved ∧
      ¬Placed w.committed betweenYZ := by
  have hout : (run (step ["x", "y", "z"] someLists) (start "todo")
      (steps false 1 ++ steps true 5 ++ steps false 2)).map
      (fun w => (w.locals false, w.locals true, w.committed "x", w.committed "y")) =
      some (.finished none none, moved,
        { threeCards "y" with rank := "a0".toList, rankedIn := "todo" }, threeCards "y") := by
    decide +kernel
  have hin : (run (step ["x", "y", "z"] someLists) (start "done")
      (steps false 1 ++ steps true 5 ++ steps false 3)).map
      (fun w => (w.locals false, w.locals true, w.committed "x", w.committed "z")) =
      some (.finished none none, moved, { threeCards "y" with rank := "a5V".toList },
        { threeCards "z" with rank := "a1".toList }) := by
    decide +kernel
  obtain ⟨w, hw, h⟩ := Option.map_eq_some_iff.mp hout
  obtain ⟨w', hw', h'⟩ := Option.map_eq_some_iff.mp hin
  simp only [Prod.mk.injEq] at h h'
  refine ⟨⟨w, hw, h.1, h.2.1, fun hranked => ?_, fun hplaced => ?_⟩, w', hw', h'.1, h'.2.1,
    fun hplaced => ?_⟩
  · have := hranked "x"
    rw [h.2.2.1] at this
    exact absurd this (by decide)
  · have := hplaced.2.1 "y" rfl (by rw [h.2.2.2]; rfl)
    rw [show betweenYZ.cardId = "x" from rfl, h.2.2.1, h.2.2.2] at this
    exact absurd this (by decide)
  · have := hplaced.2.2 "z" rfl (by rw [h'.2.2.2]; rfl)
    rw [show betweenYZ.cardId = "x" from rfl, h'.2.2.1, h'.2.2.2] at this
    exact absurd this (by decide)

end CardMove
end TaskFlow
