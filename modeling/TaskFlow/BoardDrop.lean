import Mathlib.Algebra.Order.Group.Int
import Mathlib.Data.List.Nodup

/-! # A drop on the board

A card is dropped on a card, whose place it takes, or on a column, where it comes last.
`resolveListDrop` answers with the two cards it comes between, or with nothing where the drop is no
move.  The indices are those of the list without the card, and the test for a drop that changes
nothing is on the list with it: `place_unique` brings the two together.
-/
namespace TaskFlow
namespace BoardDrop

structure CardPlacement where
  cardId : String
  listId : String
  deriving DecidableEq

structure ListLike where
  listId : String

structure GroupLike where
  key : String
  cards : List CardPlacement

structure Neighbours where
  beforeCardId : Option String
  afterCardId : Option String
  deriving DecidableEq

structure ListDrop extends Neighbours where
  targetListId : String
  deriving DecidableEq

structure ListDropInput where
  cards : List CardPlacement
  lists : List ListLike
  groups : List GroupLike
  activeCardId : String
  overId : String

/-- `-1` where there is none. -/
def findIndex (p : CardPlacement → Bool) (cards : List CardPlacement) : Int :=
  (cards.findIdx? p).elim (-1) Int.ofNat

/-- The id of the card at an index, none outside the list. -/
def idAt (cards : List CardPlacement) (index : Int) : Option String :=
  if 0 ≤ index then cards[index.toNat]?.map (·.cardId) else none

/-- The neighbours for inserting at `index`, which is clamped. -/
def neighboursForDrop (siblings : List CardPlacement) (index : Int) : Neighbours :=
  let position := max 0 (min index siblings.length)
  { beforeCardId := idAt siblings (position - 1), afterCardId := idAt siblings position }

def neighboursForSortableDrop (ordered : List CardPlacement) (cardId overId : String) :
    Neighbours :=
  let without := ordered.filter (·.cardId ≠ cardId)
  if cardId = overId then
    let original := findIndex (·.cardId = cardId) ordered
    neighboursForDrop without (if original = -1 then without.length else original)
  else
    let target := findIndex (·.cardId = overId) without
    if target = -1 then neighboursForDrop without without.length
    else neighboursForDrop without target

/-- The id of the card immediately above. -/
def previousOf (ordered : List CardPlacement) (cardId : String) : Option String :=
  let index := findIndex (·.cardId = cardId) ordered
  if index ≤ 0 then none else idAt ordered (index - 1)

/-- The list of the card under the pointer, or the column itself. -/
def targetList (cards : List CardPlacement) (lists : List ListLike) (overId : String) :
    Option String :=
  match cards.find? (·.cardId = overId) with
  | some overCard => some overCard.listId
  | none => if lists.any (·.listId = overId) then some overId else none

def resolveListDrop (input : ListDropInput) : Option ListDrop :=
  match input.cards.find? (·.cardId = input.activeCardId) with
  | none => none
  | some card =>
    match targetList input.cards input.lists input.overId with
    | none => none
    | some targetListId =>
      let siblings := (input.groups.find? (·.key = targetListId)).elim [] (·.cards)
      let neighbours := neighboursForSortableDrop siblings input.activeCardId input.overId
      if card.listId = targetListId ∧
          neighbours.beforeCardId = previousOf siblings input.activeCardId then none
      else some { neighbours with targetListId := targetListId }

/-- `groupCards`, by list. -/
def groupCards (cards : List CardPlacement) (lists : List ListLike) : List GroupLike :=
  lists.map fun list => ⟨list.listId, cards.filter (·.listId = list.listId)⟩

/-! ### What a drop is for -/

/-- The cards and columns as rendered. -/
structure Board where
  cards : List CardPlacement
  lists : List ListLike
  cardIds_nodup : (cards.map (·.cardId)).Nodup
  listIds_nodup : (lists.map (·.listId)).Nodup
  listed : ∀ card ∈ cards, ∃ list ∈ lists, list.listId = card.listId

/-- The cards of a column, in the order displayed. -/
def Board.shown (board : Board) (listId : String) : List CardPlacement :=
  board.cards.filter (·.listId = listId)

def Board.input (board : Board) (activeCardId overId : String) : ListDropInput :=
  ⟨board.cards, board.lists, groupCards board.cards board.lists, activeCardId, overId⟩

/-- In front of the first card with the id, or last. -/
def insertBefore (overId : String) (card : CardPlacement) :
    List CardPlacement → List CardPlacement
  | [] => [card]
  | other :: rest =>
    if other.cardId = overId then card :: other :: rest else other :: insertBefore overId card rest

/-- A column as displayed after the card is dropped in it. -/
def dropped (shown : List CardPlacement) (card : CardPlacement) (overId : String) :
    List CardPlacement :=
  if card.cardId = overId then shown
  else insertBefore overId card (shown.filter (·.cardId ≠ card.cardId))

/-- The answer is no move: nothing is dragged, it is not dropped on anything, or nothing is to
change. -/
def Board.NoMove (board : Board) (activeCardId overId : String) : Prop :=
  (∀ card ∈ board.cards, card.cardId ≠ activeCardId) ∨
  ((∀ card ∈ board.cards, card.cardId ≠ overId) ∧ ∀ list ∈ board.lists, list.listId ≠ overId) ∨
  ∃ card ∈ board.cards, card.cardId = activeCardId ∧
    ∃ targetListId ∈ targetList board.cards board.lists overId,
      dropped (board.shown targetListId) card overId = board.shown targetListId

/-- The answer puts the card where it is dropped. -/
structure Board.Places (board : Board) (activeCardId overId : String) (drop : ListDrop)
    (card : CardPlacement) (above below : List CardPlacement) : Prop where
  card_mem : card ∈ board.cards
  card_id : card.cardId = activeCardId
  /-- The neighbours are adjacent in the column without the card. -/
  siblings : (board.shown drop.targetListId).filter (·.cardId ≠ activeCardId) = above ++ below
  before : drop.beforeCardId = above.getLast?.map (·.cardId)
  after : drop.afterCardId = below.head?.map (·.cardId)
  before_ne : drop.beforeCardId ≠ some activeCardId
  after_ne : drop.afterCardId ≠ some activeCardId
  /-- A card that is dropped on is the one behind, and its column is the target. -/
  on_card : ∀ hit ∈ board.cards, hit.cardId = overId →
    hit.listId = drop.targetListId ∧ below.head? = some hit
  /-- In a column it comes last. -/
  on_list : (∀ hit ∈ board.cards, hit.cardId ≠ overId) →
    overId = drop.targetListId ∧ below = []
  order : dropped (board.shown drop.targetListId) card overId = above ++ card :: below

variable {cards shown : List CardPlacement} {card : CardPlacement} {overId : String}

/-! ### Positions -/

section
variable {p : CardPlacement → Bool} {l r above below : List CardPlacement} {c : CardPlacement}

theorem findIndex_append (hl : ∀ c ∈ l, p c = false) (hc : p c = true) :
    findIndex p (l ++ c :: r) = l.length := by
  have hnone : l.findIdx? p = none := List.findIdx?_eq_none_iff.mpr hl
  simp [findIndex, List.findIdx?_append, hnone, List.findIdx?_cons, hc]

theorem findIndex_eq_neg_one (h : ∀ c ∈ cards, p c = false) : findIndex p cards = -1 := by
  rw [findIndex, List.findIdx?_eq_none_iff.mpr h]
  rfl

theorem idAt_append_length : idAt (l ++ r) l.length = r.head?.map (·.cardId) := by
  simp [idAt, List.head?_eq_getElem?, List.getElem?_append_right]

theorem idAt_append_pred : idAt (l ++ r) (l.length - 1) = l.getLast?.map (·.cardId) := by
  rcases List.eq_nil_or_concat l with rfl | ⟨l, c, rfl⟩
  · rfl
  · simp [idAt]

/-- The neighbours at a position are the ends of what is in front of it and behind it. -/
theorem neighboursForDrop_append : neighboursForDrop (l ++ r) l.length =
    ⟨l.getLast?.map (·.cardId), r.head?.map (·.cardId)⟩ := by
  have hposition : max 0 (min (l.length : Int) (l ++ r).length) = l.length := by
    rw [List.length_append]
    omega
  rw [neighboursForDrop, hposition, idAt_append_length, idAt_append_pred]

theorem previousOf_append (hl : ∀ c ∈ l, c.cardId ≠ card.cardId) :
    previousOf (l ++ card :: r) card.cardId = l.getLast?.map (·.cardId) := by
  have hindex : findIndex (·.cardId = card.cardId) (l ++ card :: r) = l.length :=
    findIndex_append (by simpa using hl) (by simp)
  rw [previousOf, hindex, idAt_append_pred]
  split
  · next hzero =>
    obtain rfl := List.length_eq_zero_iff.mp (by omega : l.length = 0)
    rfl
  · rfl

theorem insertBefore_append (hl : ∀ c ∈ l, c.cardId ≠ overId) (hc : c.cardId = overId) :
    insertBefore overId card (l ++ c :: r) = l ++ card :: c :: r := by
  induction l with
  | nil => rw [List.nil_append, insertBefore, if_pos hc, List.nil_append]
  | cons d l ih =>
    obtain ⟨hd, hl⟩ := List.forall_mem_cons.mp hl
    rw [List.cons_append, insertBefore, if_neg hd, ih hl, List.cons_append]

theorem insertBefore_last (h : ∀ c ∈ cards, c.cardId ≠ overId) :
    insertBefore overId card cards = cards ++ [card] := by
  induction cards with
  | nil => rfl
  | cons d cards ih =>
    obtain ⟨hd, h⟩ := List.forall_mem_cons.mp h
    rw [insertBefore, if_neg hd, ih h, List.cons_append]

/-- A card splits a list at its place. -/
theorem exists_append_of_nodup (hnodup : (cards.map (·.cardId)).Nodup) (hc : c ∈ cards) :
    ∃ l r, cards = l ++ c :: r ∧ (∀ d ∈ l, d.cardId ≠ c.cardId) ∧
      ∀ d ∈ r, d.cardId ≠ c.cardId := by
  obtain ⟨l, r, rfl⟩ := List.append_of_mem hc
  rw [List.map_append, List.map_cons, List.nodup_middle, List.nodup_cons, List.mem_append,
    not_or] at hnodup
  exact ⟨l, r, rfl, fun d hd heq => hnodup.1.1 (List.mem_map.mpr ⟨d, hd, heq⟩),
    fun d hd heq => hnodup.1.2 (List.mem_map.mpr ⟨d, hd, heq⟩)⟩

/-- A place among the others is told by the card above it. -/
theorem place_unique (h : above ++ below = l ++ r) (hnodup : ((l ++ r).map (·.cardId)).Nodup)
    (hcard : card ∉ l ++ r) :
    (above ++ card :: below = l ++ card :: r ↔ above = l) ∧
      (above.getLast?.map (·.cardId) = l.getLast?.map (·.cardId) ↔ above = l) := by
  -- The longer of the two fronts goes on with cards that the other has behind it.
  have apart : ∀ {l s r : List CardPlacement}, ((l ++ (s ++ r)).map (·.cardId)).Nodup →
      s ≠ [] → (l ++ s).getLast?.map (·.cardId) ≠ l.getLast?.map (·.cardId) := by
    intro l s r hnodup hs heq
    rw [List.getLast?_append_of_ne_nil _ hs, List.getLast?_eq_some_getLast hs] at heq
    obtain ⟨c, hc, hid⟩ := Option.map_eq_some_iff.mp heq.symm
    rw [List.map_append, List.nodup_append] at hnodup
    exact hnodup.2.2 c.cardId (List.mem_map_of_mem (List.mem_of_getLast? hc)) (s.getLast hs).cardId
      (List.mem_map_of_mem (List.mem_append_left r (List.getLast_mem hs))) hid
  have first : ∀ {l s r r' : List CardPlacement}, card ∉ s → s ≠ [] →
      l ++ s ++ card :: r' ≠ l ++ card :: r := by
    intro l s r r' hs hne heq
    rw [List.append_assoc] at heq
    obtain ⟨c, s, rfl⟩ := List.exists_cons_of_ne_nil hne
    obtain ⟨rfl, -⟩ := List.cons.inj (List.append_cancel_left heq)
    exact hs List.mem_cons_self
  rcases List.append_eq_append_iff.mp h with ⟨s, rfl, rfl⟩ | ⟨s, rfl, rfl⟩
  · by_cases hs : s = []
    · subst hs
      simp
    · rw [List.append_assoc] at hnodup hcard
      have hne : above ≠ above ++ s := fun heq => hs (List.self_eq_append_right.mp heq)
      have hmem : card ∉ s := fun hmem => hcard (by simp [hmem])
      exact ⟨iff_of_false (first hmem hs).symm hne, iff_of_false (apart hnodup hs).symm hne⟩
  · by_cases hs : s = []
    · subst hs
      simp
    · have hne : l ++ s ≠ l := fun heq => hs (by simpa using heq)
      have hmem : card ∉ s := fun hmem => hcard (by simp [hmem])
      exact ⟨iff_of_false (first hmem hs) hne, iff_of_false (apart hnodup hs) hne⟩

end

/-! ### One column -/

/-- A card that is dropped on something else comes between the cards answered. -/
theorem drop_cases (hnodup : (shown.map (·.cardId)).Nodup) (hne : card.cardId ≠ overId) :
    ∃ above below, shown.filter (·.cardId ≠ card.cardId) = above ++ below ∧
      neighboursForSortableDrop shown card.cardId overId =
        ⟨above.getLast?.map (·.cardId), below.head?.map (·.cardId)⟩ ∧
      dropped shown card overId = above ++ card :: below ∧
      (∀ hit ∈ shown, hit.cardId = overId → below.head? = some hit) ∧
      ((∀ hit ∈ shown, hit.cardId ≠ overId) → below = []) := by
  have hwithout : ((shown.filter (·.cardId ≠ card.cardId)).map (·.cardId)).Nodup :=
    hnodup.sublist (List.filter_sublist.map _)
  simp only [dropped, neighboursForSortableDrop, if_neg hne]
  by_cases hover : ∃ hit ∈ shown, hit.cardId = overId
  · obtain ⟨hit, hmem, rfl⟩ := hover
    have hkept : hit ∈ shown.filter (·.cardId ≠ card.cardId) :=
      List.mem_filter.mpr ⟨hmem, decide_eq_true hne.symm⟩
    obtain ⟨above, below, hsplit, habove, -⟩ := exists_append_of_nodup hwithout hkept
    have hindex : findIndex (·.cardId = hit.cardId) (above ++ hit :: below) = above.length :=
      findIndex_append (by simpa using habove) (by simp)
    rw [hsplit, hindex, if_neg (by omega)]
    refine ⟨above, hit :: below, rfl, neighboursForDrop_append, insertBefore_append habove rfl,
      fun other hother heq => ?_, fun hnone => absurd rfl (hnone hit hmem)⟩
    rw [List.inj_on_of_nodup_map hnodup hother hmem heq]
    rfl
  · have hnone : ∀ hit ∈ shown, hit.cardId ≠ overId := fun hit hmem heq =>
      hover ⟨hit, hmem, heq⟩
    have hnone' : ∀ hit ∈ shown.filter (·.cardId ≠ card.cardId), hit.cardId ≠ overId :=
      fun hit hmem => hnone hit (List.mem_of_mem_filter hmem)
    have hindex : findIndex (·.cardId = overId) (shown.filter (·.cardId ≠ card.cardId)) = -1 :=
      findIndex_eq_neg_one (by simpa using hnone')
    rw [hindex, if_pos rfl]
    refine ⟨_, [], (List.append_nil _).symm, ?_, insertBefore_last hnone',
      fun hit hmem heq => absurd heq (hnone hit hmem), fun _ => rfl⟩
    simpa using neighboursForDrop_append (l := shown.filter (·.cardId ≠ card.cardId)) (r := [])

/-- The test of the code is on the card above, and the column is then as it was. -/
theorem unchanged_iff (hnodup : (shown.map (·.cardId)).Nodup) (hcard : card ∈ shown) :
    (neighboursForSortableDrop shown card.cardId overId).beforeCardId =
      previousOf shown card.cardId ↔ dropped shown card overId = shown := by
  obtain ⟨l, r, hsplit, hl, hr⟩ := exists_append_of_nodup hnodup hcard
  have hwithout : shown.filter (·.cardId ≠ card.cardId) = l ++ r := by
    rw [hsplit, List.filter_append, List.filter_cons_of_neg (by simp),
      List.filter_eq_self.mpr (by simpa using hl), List.filter_eq_self.mpr (by simpa using hr)]
  have hprevious : previousOf shown card.cardId = l.getLast?.map (·.cardId) := by
    rw [hsplit, previousOf_append hl]
  by_cases hself : card.cardId = overId
  · have hindex : findIndex (·.cardId = card.cardId) shown = l.length := by
      rw [hsplit]
      exact findIndex_append (by simpa using hl) (by simp)
    rw [dropped, if_pos hself, hprevious, neighboursForSortableDrop, if_pos hself, hindex]
    dsimp only
    rw [if_neg (by omega), hwithout, neighboursForDrop_append]
    simp
  · obtain ⟨above, below, hkept, hneighbours, horder, -⟩ := drop_cases hnodup hself
    have hsame : above ++ below = l ++ r := hkept.symm.trans hwithout
    have hapart : card ∉ l ++ r := fun hmem =>
      (List.mem_append.mp hmem).elim (fun h => hl card h rfl) (fun h => hr card h rfl)
    obtain ⟨hplace, habove⟩ := place_unique hsame
      (hwithout ▸ hnodup.sublist (List.filter_sublist.map _)) hapart
    rw [hneighbours, hprevious, horder, habove, ← hplace]
    exact ⟨fun h => h.trans hsplit.symm, fun h => h.trans hsplit⟩

/-! ### The board -/

theorem Board.shown_nodup (board : Board) (listId : String) :
    ((board.shown listId).map (·.cardId)).Nodup :=
  board.cardIds_nodup.sublist (List.filter_sublist.map _)

theorem elim_groupCards {lists : List ListLike} {listId : String}
    (h : ∃ list ∈ lists, list.listId = listId) :
    ((groupCards cards lists).find? (·.key = listId)).elim [] (·.cards) =
      cards.filter (·.listId = listId) := by
  obtain ⟨found, hfound⟩ : ∃ found, (groupCards cards lists).find? (·.key = listId) =
      some found := by
    obtain ⟨list, hmem, rfl⟩ := h
    exact Option.isSome_iff_exists.mp (List.find?_isSome.mpr
      ⟨_, List.mem_map_of_mem hmem, by simp⟩)
  obtain ⟨list, -, rfl⟩ := List.mem_map.mp (List.mem_of_find?_eq_some hfound)
  have hkey : list.listId = listId := by simpa using List.find?_some hfound
  rw [hfound, ← hkey]
  rfl

theorem find?_cardId (board : Board) (hcard : card ∈ board.cards) :
    board.cards.find? (·.cardId = card.cardId) = some card := by
  have hsome : (board.cards.find? (·.cardId = card.cardId)).isSome :=
    List.find?_isSome.mpr ⟨card, hcard, by simp⟩
  obtain ⟨found, hfound⟩ := Option.isSome_iff_exists.mp hsome
  have hid : found.cardId = card.cardId := by simpa using List.find?_some hfound
  rw [hfound, List.inj_on_of_nodup_map board.cardIds_nodup (List.mem_of_find?_eq_some hfound)
    hcard hid]

theorem targetList_of_card (board : Board) {hit : CardPlacement} (hover : hit ∈ board.cards) :
    targetList board.cards board.lists hit.cardId = some hit.listId := by
  rw [targetList, find?_cardId board hover]

theorem targetList_of_not_card {lists : List ListLike} (h : ∀ hit ∈ cards, hit.cardId ≠ overId) :
    targetList cards lists overId =
      if lists.any (·.listId = overId) then some overId else none := by
  have hnone : cards.find? (·.cardId = overId) = none := by simpa using h
  rw [targetList, hnone]

/-- The column that a drop is to. -/
theorem elim_of_targetList (board : Board) {listId : String}
    (h : targetList board.cards board.lists overId = some listId) :
    ((groupCards board.cards board.lists).find? (·.key = listId)).elim [] (·.cards) =
        board.shown listId ∧
      (∀ hit ∈ board.cards, hit.cardId = overId → hit.listId = listId) ∧
      ((∀ hit ∈ board.cards, hit.cardId ≠ overId) → overId = listId) := by
  by_cases hover : ∃ hit ∈ board.cards, hit.cardId = overId
  · obtain ⟨hit, hmem, rfl⟩ := hover
    obtain rfl := Option.some.inj ((targetList_of_card board hmem).symm.trans h)
    refine ⟨elim_groupCards (board.listed hit hmem), fun other hother heq => ?_,
      fun hnone => absurd rfl (hnone hit hmem)⟩
    rw [List.inj_on_of_nodup_map board.cardIds_nodup hother hmem heq]
  · have hnone : ∀ hit ∈ board.cards, hit.cardId ≠ overId := fun hit hmem heq =>
      hover ⟨hit, hmem, heq⟩
    rw [targetList_of_not_card hnone] at h
    obtain ⟨hlist, hid⟩ := Option.ite_none_right_eq_some.mp h
    obtain rfl := Option.some.inj hid
    obtain ⟨list, hmem, heq⟩ := List.any_eq_true.mp hlist
    exact ⟨elim_groupCards ⟨list, hmem, of_decide_eq_true heq⟩,
      fun hit hmem heq => absurd heq (hnone hit hmem), fun _ => rfl⟩

/-- A card dropped to a column is answered unless the column stays as it is displayed. -/
theorem resolveListDrop_of_target (board : Board) (hcard : card ∈ board.cards) {listId : String}
    (h : targetList board.cards board.lists overId = some listId) :
    resolveListDrop (board.input card.cardId overId) =
      if dropped (board.shown listId) card overId = board.shown listId then none
      else some { neighboursForSortableDrop (board.shown listId) card.cardId overId with
        targetListId := listId } := by
  obtain ⟨hshown, hon, hlist⟩ := elim_of_targetList board h
  have htest : (card.listId = listId ∧
      (neighboursForSortableDrop (board.shown listId) card.cardId overId).beforeCardId =
        previousOf (board.shown listId) card.cardId) ↔
      dropped (board.shown listId) card overId = board.shown listId := by
    by_cases hsame : card.listId = listId
    · have hmem : card ∈ board.shown listId := List.mem_filter.mpr ⟨hcard, by simpa using hsame⟩
      rw [unchanged_iff (board.shown_nodup listId) hmem]
      exact and_iff_right hsame
    · -- In another column the card is new.
      refine iff_of_false (fun h => hsame h.1) fun heq => ?_
      have hne : card.cardId ≠ overId := fun hself => hsame (hon card hcard hself)
      obtain ⟨above, below, -, -, horder, -⟩ := drop_cases (board.shown_nodup listId) hne
      have hmem : card ∈ board.shown listId := by
        rw [← heq, horder]
        simp
      exact hsame (by simpa using (List.mem_filter.mp hmem).2)
  rw [resolveListDrop, Board.input]
  dsimp only
  rw [find?_cardId board hcard, h]
  dsimp only
  rw [hshown]
  exact if_congr htest rfl rfl

theorem resolveListDrop_of_unknown (board : Board) {activeCardId : String}
    (h : (∀ card ∈ board.cards, card.cardId ≠ activeCardId) ∨
      targetList board.cards board.lists overId = none) :
    resolveListDrop (board.input activeCardId overId) = none := by
  rw [resolveListDrop, Board.input]
  dsimp only
  rcases h with hnone | hnone
  · have hfind : board.cards.find? (·.cardId = activeCardId) = none := by simpa using hnone
    rw [hfind]
  · rw [hnone]
    split <;> rfl

theorem targetList_eq_none_iff (board : Board) :
    targetList board.cards board.lists overId = none ↔
      (∀ card ∈ board.cards, card.cardId ≠ overId) ∧
        ∀ list ∈ board.lists, list.listId ≠ overId := by
  constructor
  · intro h
    have hcards : ∀ card ∈ board.cards, card.cardId ≠ overId := by
      rintro card hcard rfl
      cases (targetList_of_card board hcard).symm.trans h
    rw [targetList_of_not_card hcards] at h
    refine ⟨hcards, fun list hlist heq => ?_⟩
    rw [if_pos (List.any_eq_true.mpr ⟨list, hlist, decide_eq_true heq⟩)] at h
    cases h
  · rintro ⟨hcards, hlists⟩
    rw [targetList_of_not_card hcards, if_neg (by simpa using hlists)]

theorem noMove_of_target (board : Board) (hcard : card ∈ board.cards) {listId : String}
    (h : targetList board.cards board.lists overId = some listId) :
    board.NoMove card.cardId overId ↔
      dropped (board.shown listId) card overId = board.shown listId := by
  constructor
  · rintro (hnone | hnone | ⟨other, hother, hid, listId', hlist, heq⟩)
    · exact absurd rfl (hnone card hcard)
    · cases h.symm.trans ((targetList_eq_none_iff board).mpr hnone)
    · obtain rfl := Option.some.inj (h.symm.trans hlist)
      rwa [List.inj_on_of_nodup_map board.cardIds_nodup hother hcard hid] at heq
  · exact fun heq => Or.inr (Or.inr ⟨card, hcard, rfl, listId, h, heq⟩)

theorem places_of_target (board : Board) (hcard : card ∈ board.cards) {listId : String}
    (h : targetList board.cards board.lists overId = some listId)
    (hmove : dropped (board.shown listId) card overId ≠ board.shown listId) :
    ∃ above below, board.Places card.cardId overId
      { neighboursForSortableDrop (board.shown listId) card.cardId overId with
        targetListId := listId } card above below := by
  obtain ⟨-, hon, hlist⟩ := elim_of_targetList board h
  have hne : card.cardId ≠ overId := fun hself => hmove (if_pos hself)
  obtain ⟨above, below, hsplit, hneighbours, horder, hover, hlast⟩ :=
    drop_cases (board.shown_nodup listId) hne
  have hapart : ∀ c ∈ above ++ below, c.cardId ≠ card.cardId := fun c hc => by
    rw [← hsplit] at hc
    simpa using (List.mem_filter.mp hc).2
  rw [hneighbours]
  refine ⟨above, below, hcard, rfl, hsplit, rfl, rfl, fun hbefore => ?_, fun hafter => ?_,
    fun hit hmem heq => ?_, fun hnone => ⟨hlist hnone, hlast fun hit hmem =>
      hnone hit (List.mem_of_mem_filter hmem)⟩, horder⟩
  · obtain ⟨c, hc, heq⟩ := Option.map_eq_some_iff.mp hbefore
    exact hapart c (List.mem_append_left _ (List.mem_of_getLast? hc)) heq
  · obtain ⟨c, hc, heq⟩ := Option.map_eq_some_iff.mp hafter
    exact hapart c (List.mem_append_right _ (List.mem_of_head? hc)) heq
  · have hin := hon hit hmem heq
    exact ⟨hin, hover hit (List.mem_filter.mpr ⟨hmem, decide_eq_true hin⟩) heq⟩

/-- **A drop becomes the right move**: nothing is answered exactly where there is no move, and
every answer puts the card where it is dropped. -/
theorem resolveListDrop_spec (board : Board) (activeCardId overId : String) :
    (resolveListDrop (board.input activeCardId overId) = none ↔
      board.NoMove activeCardId overId) ∧
    ∀ drop ∈ resolveListDrop (board.input activeCardId overId),
      ∃ card above below, board.Places activeCardId overId drop card above below := by
  by_cases hunknown : (∀ card ∈ board.cards, card.cardId ≠ activeCardId) ∨
      targetList board.cards board.lists overId = none
  · rw [resolveListDrop_of_unknown board hunknown]
    refine ⟨iff_of_true rfl (hunknown.imp_right fun hnone => ?_), fun drop hdrop => by cases hdrop⟩
    exact Or.inl ((targetList_eq_none_iff board).mp hnone)
  obtain ⟨hknown, htarget⟩ := not_or.mp hunknown
  obtain ⟨listId, htarget⟩ := Option.ne_none_iff_exists'.mp htarget
  obtain ⟨card, hcard, rfl⟩ : ∃ card ∈ board.cards, card.cardId = activeCardId := by
    simpa using hknown
  rw [resolveListDrop_of_target board hcard htarget, noMove_of_target board hcard htarget]
  by_cases hsame : dropped (board.shown listId) card overId = board.shown listId
  · rw [if_pos hsame]
    exact ⟨iff_of_true rfl hsame, fun drop hdrop => by cases hdrop⟩
  · rw [if_neg hsame]
    refine ⟨iff_of_false (Option.some_ne_none _) hsame, fun drop hdrop => ?_⟩
    obtain rfl := Option.some.inj hdrop
    exact ⟨card, places_of_target board hcard htarget hsame⟩

/-- Two columns, the first with three cards. -/
def sampleBoard : Board where
  cards := [⟨"a", "todo"⟩, ⟨"b", "todo"⟩, ⟨"c", "todo"⟩]
  lists := [⟨"todo"⟩, ⟨"done"⟩]
  cardIds_nodup := by decide
  listIds_nodup := by decide
  listed := by decide

/-- Down by one, up by one, onto itself and into the other column. -/
theorem resolveListDrop_sample :
    resolveListDrop (sampleBoard.input "a" "c") = some ⟨⟨some "b", some "c"⟩, "todo"⟩ ∧
      (∃ card above below, sampleBoard.Places "a" "c" ⟨⟨some "b", some "c"⟩, "todo"⟩ card above
        below) ∧
      resolveListDrop (sampleBoard.input "c" "b") = some ⟨⟨some "a", some "b"⟩, "todo"⟩ ∧
      resolveListDrop (sampleBoard.input "b" "b") = none ∧
      resolveListDrop (sampleBoard.input "a" "done") = some ⟨⟨none, none⟩, "done"⟩ := by
  have hdown : resolveListDrop (sampleBoard.input "a" "c") =
      some ⟨⟨some "b", some "c"⟩, "todo"⟩ := by decide
  exact ⟨hdown, (resolveListDrop_spec sampleBoard "a" "c").2 _ hdown, by decide,
    by decide, by decide⟩

end BoardDrop
end TaskFlow
