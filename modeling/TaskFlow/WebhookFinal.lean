import Mathlib.Data.List.Nodup
import TaskFlow.WebhookDelivery

/-! # Deliveries are final while no claim takes a claimed row

A worker holds a row from the claim that takes it to the commit of its mark.
While a claim only ever takes rows nobody holds, at most one worker holds a row,
a held row is pending with the holder's number of attempts, and so a row that is
not pending is written by nobody.
-/
namespace TaskFlow
namespace WebhookDelivery
open ReadCommitted StepSystem

/-! ### One statement -/

/-- What a statement that goes on does. -/
inductive Runs (ids : List DeliveryId) (rows : Rows) :
    Phase → Input → List (DeliveryId × Option Delivery) → Phase → Prop where
  | enqueue {event : EnqueueEvent} {now : Int} : conflicts ids rows event = false →
      Runs ids rows .idle (.enqueue event now) [(event.id, some (enqueued event now))] .enqueued
  | conflict {event : EnqueueEvent} {now : Int} :
      Runs ids rows .idle (.enqueue event now) [] .enqueued
  | read {now : Int} {limit : Nat} : Runs ids rows .idle (.claimDue now limit) []
      (.claiming (candidates ids rows now limit) [])
  | lose {candidate : ClaimedRow} {candidates claimed : List ClaimedRow} {now : Int} :
      Runs ids rows (.claiming (candidate :: candidates) claimed) (.claimNext now) []
        (.claiming candidates claimed)
  | take {candidate : ClaimedRow} {candidates claimed : List ClaimedRow} {now : Int}
      {row : Delivery} : claim rows candidate now = some row →
      Runs ids rows (.claiming (candidate :: candidates) claimed) (.claimNext now)
        [(candidate.id, some row)] (.claiming candidates
          (claimed ++ [{ candidate with attempts := candidate.attempts + 1 }]))
  | finish : Runs ids rows (.draining []) .finish [] .idle
  | deliver {row : ClaimedRow} {batch : List ClaimedRow} :
      Runs ids rows (.draining (row :: batch)) .deliver [] (.attempting row batch)
  | respond {row : ClaimedRow} {outcome : DeliveryOutcome} {batch : List ClaimedRow} :
      Runs ids rows (.attempting row batch) (.respond outcome) [] (.attempted row outcome batch)
  | gone {row : ClaimedRow} {outcome : DeliveryOutcome} {batch : List ClaimedRow} {now : Int} :
      rows row.id = none →
      Runs ids rows (.attempted row outcome batch) (.mark now) [] (.marking row batch)
  | mark {row : ClaimedRow} {outcome : DeliveryOutcome} {batch : List ClaimedRow} {now : Int}
      {delivery : Delivery} : rows row.id = some delivery →
      Runs ids rows (.attempted row outcome batch) (.mark now)
        [(row.id, some (markOutcome delivery outcome row.attempts now))] (.marking row batch)

theorem runs_of_statement {ids : List DeliveryId} {phase next : Phase} {input : Input}
    {rows : Rows} {held : DeliveryId → Bool} {locks : List DeliveryId}
    {writes : List (DeliveryId × Option Delivery)}
    (h : statement ids phase input rows held = some (.run locks writes next)) :
    Runs ids rows phase input writes next := by
  unfold statement at h
  split at h
  case h_2 event now =>
    by_cases hc : conflicts ids rows event
    · rw [if_pos hc] at h
      cases h
      exact .conflict
    · rw [if_neg hc] at h
      cases h
      exact .enqueue (by simpa using hc)
  case h_5 candidate candidates claimed now =>
    cases hc : claim rows candidate now <;> rw [hc] at h <;> cases h
    · exact .lose
    · exact .take hc
  case h_10 row outcome batch now =>
    cases hr : rows row.id <;> rw [hr] at h <;> cases h
    · exact .gone hr
    · exact .mark hr
  all_goals cases h
  · exact .read
  · exact .finish
  · exact .deliver
  · exact .respond

/-- The transactions that commit, and where they leave the session. -/
inductive Commits : Phase → Phase → Prop where
  | enqueued : Commits .enqueued .idle
  | claimed {claimed : List ClaimedRow} : Commits (.claiming [] claimed) (.draining claimed)
  | marked {row : ClaimedRow} {batch : List ClaimedRow} :
      Commits (.marking row batch) (.draining batch)

theorem commits_of_statement {ids : List DeliveryId} {phase next : Phase} {input : Input}
    {rows : Rows} {held : DeliveryId → Bool}
    (h : statement ids phase input rows held = some (.commit next)) : Commits phase next := by
  unfold statement at h
  repeat' split at h
  all_goals cases h
  · exact .enqueued
  · exact .claimed
  · exact .marked

theorem next_of_rollback {ids : List DeliveryId} {phase next : Phase} {input : Input}
    {rows : Rows} {held : DeliveryId → Bool}
    (h : statement ids phase input rows held = some (.rollback next)) :
    input = .crash ∧ next = .idle := by
  unfold statement at h
  repeat' split at h
  all_goals cases h
  exact ⟨rfl, rfl⟩

/-! ### The rows -/

/-- The row is pending with the number of attempts the holder claimed it as. -/
def Token (rows : Rows) (r : ClaimedRow) : Prop :=
  ∃ row, rows r.id = some row ∧ row.status = .pending ∧ row.attempts = r.attempts

theorem token_congr {rows rows' : Rows} {r : ClaimedRow} (h : rows r.id = rows' r.id) :
    Token rows r ↔ Token rows' r := by
  simp [Token, h]

theorem claim_eq_some {rows : Rows} {candidate : ClaimedRow} {now : Int} {row : Delivery}
    (h : claim rows candidate now = some row) :
    row.status = .pending ∧ row.attempts = candidate.attempts + 1 ∧
      ∃ old, rows candidate.id = some old ∧ old.status = .pending := by
  obtain ⟨old, hold, h⟩ := Option.bind_eq_some_iff.mp h
  by_cases hc : old.attempts = candidate.attempts ∧ old.status = .pending
  · rw [if_pos hc] at h
    obtain rfl := Option.some.inj h
    exact ⟨hc.2, rfl, old, hold, hc.2⟩
  · rw [if_neg hc] at h
    cases h

@[simp] theorem markOutcome_attempts (row : Delivery) (outcome : DeliveryOutcome)
    (attempt : Nat) (now : Int) : (markOutcome row outcome attempt now).attempts = row.attempts := by
  cases outcome <;> simp only [markOutcome]
  split <;> rfl

/-- Only a failure with attempts left leaves the row pending. -/
theorem markOutcome_pending {row : Delivery} {outcome : DeliveryOutcome} {attempt : Nat}
    {now : Int} (h : (markOutcome row outcome attempt now).status = .pending) :
    attempt < MAX_ATTEMPTS := by
  cases outcome with
  | succeeded | endpoint_disabled => simp [markOutcome] at h
  | failed =>
    by_contra hlast
    simp [markOutcome, not_lt.mp hlast] at h

section
variable {ids : List DeliveryId} {rows : Rows} {now : Int} {limit : Nat}

theorem candidates_attempts_lt {r : ClaimedRow} (h : r ∈ candidates ids rows now limit) :
    r.attempts < MAX_ATTEMPTS := by
  obtain ⟨⟨id, row⟩, hmem, rfl⟩ := List.mem_map.mp h
  have hdue := (List.mergeSort_perm _ _).mem_iff.mp (List.mem_of_mem_take hmem)
  obtain ⟨id', _, hrow⟩ := List.mem_filterMap.mp hdue
  obtain ⟨row', _, hrow⟩ := Option.bind_eq_some_iff.mp hrow
  by_cases hd : Due now row'
  · rw [if_pos hd] at hrow
    cases hrow
    exact hd.2.2
  · rw [if_neg hd] at hrow
    cases hrow

theorem due_nodup (hids : ids.Nodup) :
    ((ids.filterMap fun id => (rows id).bind fun row =>
      if Due now row then some (id, row) else none).map Prod.fst).Nodup := by
  refine hids.sublist ?_
  clear hids
  induction ids with
  | nil => exact List.Sublist.slnil
  | cons id ids ih =>
    rw [List.filterMap_cons]
    split
    · exact ih.cons id
    · rename_i p hp
      obtain ⟨row, _, hp⟩ := Option.bind_eq_some_iff.mp hp
      by_cases hd : Due now row
      · rw [if_pos hd] at hp
        cases hp
        exact ih.cons_cons id
      · rw [if_neg hd] at hp
        cases hp

/-- A claim reads a row once. -/
theorem candidates_nodup (hids : ids.Nodup) :
    ((candidates ids rows now limit).map ClaimedRow.id).Nodup := by
  have hsorted := ((List.mergeSort_perm (ids.filterMap fun id => (rows id).bind fun row =>
    if Due now row then some (id, row) else none)
    fun a b => a.2.createdAt ≤ b.2.createdAt).map Prod.fst).nodup_iff.mpr (due_nodup hids)
  have htake := hsorted.sublist ((List.take_sublist limit _).map Prod.fst)
  simpa [candidates, Function.comp_def] using htake

end

/-! ### What a session knows -/

/-- What the uncommitted writes of a session are, by where it is. -/
def Writes (phase : Phase) (writes : List (DeliveryId × Option Delivery)) (committed : Rows) :
    Prop :=
  match phase with
  | .idle | .draining _ | .attempting _ _ | .attempted _ _ _ => writes = []
  | .enqueued => ∀ id ∈ writes.map Prod.fst, committed id = none ∧
      ∃ row, overlay writes committed id = some row ∧ row.attempts = 0
  | .claiming _ claimed =>
    (∀ id ∈ writes.map Prod.fst, id ∈ claimed.map ClaimedRow.id) ∧
      ∀ r ∈ claimed, r.id ∈ writes.map Prod.fst ∧ Token (overlay writes committed) r ∧
        ∃ row, committed r.id = some row ∧ row.status = .pending
  | .marking row _ => ∀ id ∈ writes.map Prod.fst, id = row.id ∧
      ∃ old new, committed id = some old ∧ overlay writes committed id = some new ∧
        new.attempts = old.attempts ∧ (new.status = .pending → row.attempts < MAX_ATTEMPTS)

/-- What holds of a session whatever the others do. -/
structure Session (phase : Phase) (writes : List (DeliveryId × Option Delivery))
    (own : DeliveryId → Prop) (committed : Rows) : Prop where
  locked : ∀ id ∈ writes.map Prod.fst, own id
  nodup : ((phase.claimed ++ phase.candidates).map ClaimedRow.id).Nodup
  budget : (∀ r ∈ phase.candidates, r.attempts < MAX_ATTEMPTS) ∧
    ∀ r ∈ phase.claimed, r.attempts ≤ MAX_ATTEMPTS
  writes : Writes phase writes committed

theorem Session.idle (own : DeliveryId → Prop) (committed : Rows) :
    Session .idle [] own committed := by
  constructor <;> simp [Phase.claimed, Phase.candidates, Writes]

theorem Session.frame {phase : Phase} {writes : List (DeliveryId × Option Delivery)}
    {own : DeliveryId → Prop} {c c' : Rows} (h : Session phase writes own c)
    (hc : ∀ k, own k → c k = c' k) : Session phase writes own c' := by
  refine { h with writes := ?_ }
  have hw := h.writes
  cases phase with
  | enqueued =>
    intro id hid
    have heq := hc id (h.locked id hid)
    rw [← heq, ← overlay_congr heq]
    exact hw id hid
  | claiming candidates claimed =>
    refine ⟨hw.1, fun r hr => ?_⟩
    obtain ⟨hmem, htoken, row, hrow, hpending⟩ := hw.2 r hr
    have heq := hc r.id (h.locked _ hmem)
    exact ⟨hmem, (token_congr (overlay_congr heq)).mp htoken, row, heq ▸ hrow, hpending⟩
  | marking row batch =>
    intro id hid
    have heq := hc id (h.locked id hid)
    rw [← heq, ← overlay_congr heq]
    exact hw id hid
  | _ => exact hw

theorem session_run {ids : List DeliveryId} (hids : ids.Nodup) {phase next : Phase}
    {input : Input} {writes new : List (DeliveryId × Option Delivery)} {own : DeliveryId → Prop}
    {c : Rows} {locks : List DeliveryId} (h : Session phase writes own c)
    (hrun : Runs ids (overlay writes c) phase input new next) :
    Session next (new ++ writes) (fun k => own k ∨ k ∈ locks ++ new.map Prod.fst) c := by
  have hlocked : ∀ k ∈ (new ++ writes).map Prod.fst, own k ∨ k ∈ locks ++ new.map Prod.fst := by
    intro k hk
    rw [List.map_append, List.mem_append] at hk
    rcases hk with hk | hk
    · exact Or.inr (List.mem_append_right _ hk)
    · exact Or.inl (h.locked k hk)
  have hw := h.writes
  cases hrun with
  | enqueue hfree =>
    obtain rfl : writes = [] := hw
    refine { locked := hlocked, nodup := h.nodup, budget := h.budget, writes := ?_ }
    intro id hid
    obtain rfl : id = _ := by simpa using hid
    refine ⟨by simpa [conflicts] using (Bool.or_eq_false_iff.mp hfree).1, enqueued _ _,
      Function.update_self _ _ _, rfl⟩
  | conflict =>
    obtain rfl : writes = [] := hw
    exact { locked := hlocked, nodup := h.nodup, budget := h.budget, writes := by simp [Writes] }
  | read =>
    obtain rfl : writes = [] := hw
    exact {
      locked := hlocked
      nodup := by simpa [Phase.claimed, Phase.candidates] using candidates_nodup hids
      budget := ⟨fun r hr => candidates_attempts_lt hr, by simp [Phase.claimed]⟩
      writes := by simp [Writes] }
  | lose =>
    exact {
      locked := hlocked
      nodup := h.nodup.sublist (((List.sublist_cons_self _ _).append_left _).map _)
      budget := ⟨fun r hr => h.budget.1 r (List.mem_cons_of_mem _ hr), h.budget.2⟩
      writes := hw }
  -- the candidate is not among the deliveries already claimed, so their tokens stay
  | @take candidate candidates claimed now row htake =>
    obtain ⟨hpending, hattempts, old, hold, holdp⟩ := claim_eq_some htake
    have hnodup : ((claimed.map ClaimedRow.id) ++ candidate.id ::
        candidates.map ClaimedRow.id).Nodup := by
      simpa [Phase.claimed, Phase.candidates] using h.nodup
    have hnew : candidate.id ∉ claimed.map ClaimedRow.id := fun hmem =>
      (List.nodup_append.mp hnodup).2.2 _ hmem _ List.mem_cons_self rfl
    have hunwritten : candidate.id ∉ writes.map Prod.fst := fun hmem => hnew (hw.1 _ hmem)
    rw [overlay_of_notMem hunwritten] at hold
    refine { locked := hlocked, nodup := ?_, budget := ⟨?_, ?_⟩, writes := ⟨?_, ?_⟩ }
    · simpa [Phase.claimed, Phase.candidates] using hnodup
    · exact fun r hr => h.budget.1 r (List.mem_cons_of_mem _ hr)
    · intro r hr
      rcases List.mem_append.mp hr with hr | hr
      · exact h.budget.2 r hr
      · obtain rfl := List.mem_singleton.mp hr
        exact h.budget.1 candidate List.mem_cons_self
    · intro id hid
      rw [List.map_append, List.mem_append]
      rcases List.mem_cons.mp hid with rfl | hid
      · exact Or.inr (by simp)
      · exact Or.inl (hw.1 id hid)
    · intro r hr
      rcases List.mem_append.mp hr with hr | hr
      · obtain ⟨hmem, htoken, hrow⟩ := hw.2 r hr
        refine ⟨List.mem_cons_of_mem _ hmem, (token_congr ?_).mp htoken, hrow⟩
        have hne : r.id ≠ candidate.id := fun heq => hnew (heq ▸ List.mem_map_of_mem hr)
        exact (Function.update_of_ne hne _ _).symm
      · obtain rfl := List.mem_singleton.mp hr
        refine ⟨List.mem_cons_self, ⟨row, ?_, hpending, hattempts⟩, old, hold, holdp⟩
        exact Function.update_self _ _ _
  | finish => exact { h with locked := hlocked, writes := hw }
  | deliver => exact { h with locked := hlocked, writes := hw }
  | respond => exact { h with locked := hlocked, writes := hw }
  | gone =>
    obtain rfl : writes = [] := hw
    exact { h with locked := hlocked, writes := by simp [Writes] }
  | mark hrow =>
    obtain rfl : writes = [] := hw
    refine { h with locked := hlocked, writes := ?_ }
    intro id hid
    obtain rfl : id = _ := by simpa using hid
    exact ⟨rfl, _, _, hrow, Function.update_self _ _ _, markOutcome_attempts _ _ _ _,
      markOutcome_pending⟩

theorem session_commit {phase next : Phase} {writes : List (DeliveryId × Option Delivery)}
    {own : DeliveryId → Prop} {c c' : Rows} {own' : DeliveryId → Prop}
    (h : Session phase writes own c) (hcommit : Commits phase next) : Session next [] own' c' := by
  cases hcommit with
  | enqueued => exact Session.idle _ _
  | claimed => exact { locked := by simp, nodup := h.nodup, budget := h.budget, writes := rfl }
  | marked =>
    exact {
      locked := by simp
      nodup := h.nodup.sublist (((List.sublist_cons_self _ _).append_right _).map _)
      budget := ⟨h.budget.1, fun r hr => h.budget.2 r (List.mem_cons_of_mem _ hr)⟩
      writes := rfl }

theorem session_invariant {ids : List DeliveryId} (hids : ids.Nodup) :
    SessionInvariant (statement ids) Session where
  frame := fun hc h => h.frame hc
  run := fun h heq => session_run hids h (runs_of_statement heq)
  commit := fun h heq => session_commit h (commits_of_statement heq)
  rollback := fun _ heq => (next_of_rollback heq).2 ▸ Session.idle _ _

/-! ### The system -/

variable {S : Type} [DecidableEq S] {ids : List DeliveryId} {w w' : State S} {s t : S}

/-- What holds of the system while no claim takes a claimed row. -/
structure Valid (w : State S) : Prop where
  locked : Locked w
  session : ∀ s, Session (w.locals s) (w.pending s) (w.Owns s) w.committed
  exclusive : ∀ s t, s ≠ t → ∀ id ∈ (w.locals s).claimed.map ClaimedRow.id,
    id ∉ (w.locals t).claimed.map ClaimedRow.id
  token : ∀ s, (w.locals s).Settled → ∀ r ∈ (w.locals s).claimed, Token w.committed r
  marked : ∀ s row batch, w.locals s = .marking row batch →
    row.id ∈ (w.pending s).map Prod.fst

omit [DecidableEq S] in
theorem initial_valid : Valid (initial : State S) where
  locked := locked_initial _ _
  session := fun _ => Session.idle _ _
  exclusive := by simp [initial, World.initial, Phase.claimed]
  token := by simp [initial, World.initial, Phase.claimed]
  marked := by simp [initial, World.initial]

omit [DecidableEq S] in
/-- A row somebody has written was not there, or is pending. -/
theorem Valid.written (hv : Valid w) {id : DeliveryId} (hid : id ∈ (w.pending s).map Prod.fst) :
    w.committed id = none ∨ ∃ row, w.committed id = some row ∧ row.status = .pending := by
  have hw := (hv.session s).writes
  have htoken := hv.token s
  cases hphase : w.locals s with
  | idle | draining | attempting | attempted =>
    rw [hphase] at hw
    simp [show w.pending s = [] from hw] at hid
  | enqueued =>
    rw [hphase] at hw
    exact Or.inl (hw id hid).1
  | claiming candidates claimed =>
    rw [hphase] at hw
    obtain ⟨r, hr, rfl⟩ := List.mem_map.mp (hw.1 id hid)
    exact Or.inr (hw.2 r hr).2.2
  | marking row batch =>
    rw [hphase] at hw htoken
    obtain rfl := (hw id hid).1
    obtain ⟨d, hd, hpending, _⟩ := htoken trivial row List.mem_cons_self
    exact Or.inr ⟨d, hd, hpending⟩

omit [DecidableEq S] in
/-- A row one worker holds is written by no other. -/
theorem Valid.unwritten (hv : Valid w) (hts : t ≠ s) {r : ClaimedRow}
    (hr : r ∈ (w.locals t).claimed) (htoken : Token w.committed r) :
    r.id ∉ (w.pending s).map Prod.fst := by
  intro hid
  have hmem : r.id ∈ (w.locals t).claimed.map ClaimedRow.id := List.mem_map_of_mem hr
  have hw := (hv.session s).writes
  have hex := hv.exclusive s t hts.symm
  cases hphase : w.locals s with
  | idle | draining | attempting | attempted =>
    rw [hphase] at hw
    simp [show w.pending s = [] from hw] at hid
  | enqueued =>
    rw [hphase] at hw
    obtain ⟨d, hd, _⟩ := htoken
    exact absurd (hw r.id hid).1 (by simp [hd])
  | claiming candidates claimed =>
    rw [hphase] at hw hex
    exact hex _ (hw.1 r.id hid) hmem
  | marking row batch =>
    rw [hphase] at hw hex
    exact hex _ (by simp [Phase.claimed, (hw r.id hid).1]) hmem

/-- A statement that goes on claims what was claimed before, and the row it
takes. -/
theorem claimed_of_runs {rows : Rows} {phase next : Phase} {input : Input}
    {writes : List (DeliveryId × Option Delivery)} (h : Runs ids rows phase input writes next)
    {id : DeliveryId} (hid : id ∈ next.claimed.map ClaimedRow.id) :
    id ∈ phase.claimed.map ClaimedRow.id ∨ ∃ row ∈ taken phase input rows, id = row.id := by
  cases h with
  | take htake =>
    simp only [Phase.claimed, List.map_append, List.mem_append, List.map_cons, List.map_nil,
      List.mem_singleton] at hid
    rcases hid with hid | rfl
    · exact Or.inl hid
    · exact Or.inr ⟨_, by simp [taken, htake], rfl⟩
  | read => simp [Phase.claimed] at hid
  | _ => exact Or.inl hid

theorem settled_of_runs {rows : Rows} {phase next : Phase} {input : Input}
    {writes : List (DeliveryId × Option Delivery)} (h : Runs ids rows phase input writes next)
    (hsettled : next.Settled) :
    next.claimed = [] ∨ phase.Settled ∧ next.claimed = phase.claimed := by
  cases h with
  | enqueue | conflict | finish => exact Or.inl rfl
  | read | lose | take => exact hsettled.elim
  | _ => exact Or.inr ⟨trivial, rfl⟩

theorem claimed_of_commits {phase next : Phase} (h : Commits phase next) {r : ClaimedRow}
    (hr : r ∈ next.claimed) : r ∈ phase.claimed := by
  cases h with
  | enqueued => simp [Phase.claimed] at hr
  | claimed => exact hr
  | marked => exact List.mem_cons_of_mem _ hr

/-- Committing leaves what is still held with its token. -/
theorem token_of_commits {phase next : Phase} {writes : List (DeliveryId × Option Delivery)}
    {own : DeliveryId → Prop} {c : Rows} (hs : Session phase writes own c)
    (htoken : phase.Settled → ∀ r ∈ phase.claimed, Token c r) (h : Commits phase next)
    {r : ClaimedRow} (hr : r ∈ next.claimed) : Token (overlay writes c) r := by
  cases h with
  | enqueued => simp [Phase.claimed] at hr
  | claimed => exact (hs.writes.2 r hr).2.1
  | @marked row batch =>
    have hnodup : (row.id :: batch.map ClaimedRow.id).Nodup := by
      simpa [Phase.claimed, Phase.candidates] using hs.nodup
    have hne : r.id ≠ row.id := fun heq =>
      (List.nodup_cons.mp hnodup).1 (heq ▸ List.mem_map_of_mem hr)
    exact (token_congr (overlay_of_notMem (fun hid => hne (hs.writes _ hid).1) _)).mpr
      (htoken trivial r (List.mem_cons_of_mem _ hr))

/-- A mark is written unless the row is gone. -/
theorem marking_of_runs {rows : Rows} {phase : Phase} {input : Input} {row : ClaimedRow}
    {batch : List ClaimedRow} {writes : List (DeliveryId × Option Delivery)}
    (h : Runs ids rows phase input writes (.marking row batch)) :
    (∃ outcome, phase = .attempted row outcome batch) ∧
      (rows row.id = none ∨ row.id ∈ writes.map Prod.fst) := by
  cases h with
  | gone hnone => exact ⟨⟨_, rfl⟩, Or.inl hnone⟩
  | mark => exact ⟨⟨_, rfl⟩, Or.inr List.mem_cons_self⟩

/-- `exclusive` is kept when one session claims more, of rows nobody else
claims. -/
theorem exclusive_update (hv : Valid w) {next : Phase}
    (hnext : ∀ id ∈ next.claimed.map ClaimedRow.id, id ∈ (w.locals s).claimed.map ClaimedRow.id ∨
      ∀ t, t ≠ s → id ∉ (w.locals t).claimed.map ClaimedRow.id) :
    ∀ t u, t ≠ u → ∀ id ∈ (Function.update w.locals s next t).claimed.map ClaimedRow.id,
      id ∉ (Function.update w.locals s next u).claimed.map ClaimedRow.id := by
  have key : ∀ t, t ≠ s → ∀ id ∈ next.claimed.map ClaimedRow.id,
      id ∉ (w.locals t).claimed.map ClaimedRow.id := by
    intro t hts id hid
    rcases hnext id hid with hold | hnew
    · exact hv.exclusive s t hts.symm id hold
    · exact hnew t hts
  intro t u htu id hid
  by_cases hts : t = s
  · subst hts
    rw [Function.update_self] at hid
    rw [Function.update_of_ne htu.symm]
    exact key u htu.symm id hid
  · rw [Function.update_of_ne hts] at hid
    by_cases hus : u = s
    · subst hus
      rw [Function.update_self]
      exact fun hid' => key t hts id hid' hid
    · rw [Function.update_of_ne hus]
      exact hv.exclusive t u htu id hid

theorem valid_step (hids : ids.Nodup) {a : S × Input} (hv : Valid w) (hg : TakesUnclaimed w a)
    (h : step ids w a = some w') : Valid w' := by
  obtain ⟨s, i⟩ := a
  have hlocked := locked_step hv.locked h
  have hsession := (session_invariant hids).step hv.locked hv.session h
  rcases step_cases h with ⟨locks, writes, next, heq, hfree, rfl⟩ | ⟨next, heq, rfl⟩ |
    ⟨next, heq, rfl⟩
  -- a statement: a delivery that is taken is taken from nobody
  · have hruns := runs_of_statement heq
    refine { locked := hlocked, session := hsession, exclusive := ?_, token := ?_,
             marked := ?_ }
    · apply exclusive_update hv
      intro id hid
      rcases claimed_of_runs hruns hid with hold | ⟨row, hrow, rfl⟩
      · exact Or.inl hold
      · exact Or.inr (hg row hrow)
    · intro t hsettled r hr
      by_cases hts : t = s
      · subst hts
        simp only [World.run, Function.update_self] at hsettled hr
        rcases settled_of_runs hruns hsettled with hnil | ⟨hold, heq⟩
        · simp [hnil] at hr
        · exact hv.token t hold r (heq ▸ hr)
      · simp only [World.run, Function.update_of_ne hts] at hsettled hr
        exact hv.token t hsettled r hr
    · intro t row batch hphase
      by_cases hts : t = s
      · subst hts
        simp only [World.run, Function.update_self] at hphase ⊢
        subst hphase
        obtain ⟨⟨outcome, hattempted⟩, hnone | hmem⟩ := marking_of_runs hruns
        · -- The row is there: its token says so, and nothing of it is written yet.
          have hw := (hv.session t).writes
          have htoken := hv.token t
          rw [hattempted] at hw htoken
          obtain ⟨d, hd, _⟩ := htoken trivial row List.mem_cons_self
          rw [World.view, show w.pending t = [] from hw, overlay_nil, hd] at hnone
          cases hnone
        · rw [List.map_append]
          exact List.mem_append_left _ hmem
      · simp only [World.run, Function.update_of_ne hts] at hphase ⊢
        exact hv.marked t row batch hphase
  -- a commit of another session writes no delivery that this one has claimed
  · have hcommits := commits_of_statement heq
    refine { locked := hlocked, session := hsession, exclusive := ?_, token := ?_,
             marked := ?_ }
    · refine exclusive_update hv fun id hid => Or.inl ?_
      obtain ⟨r, hr, rfl⟩ := List.mem_map.mp hid
      exact List.mem_map_of_mem (claimed_of_commits hcommits hr)
    · intro t hsettled r hr
      by_cases hts : t = s
      · subst hts
        simp only [World.commit, Function.update_self] at hsettled hr
        exact token_of_commits (hv.session t) (hv.token t) hcommits hr
      · simp only [World.commit, Function.update_of_ne hts] at hsettled hr
        have htoken := hv.token t hsettled r hr
        exact (token_congr (overlay_of_notMem (hv.unwritten hts hr htoken) _)).mpr htoken
    · intro t row batch hphase
      by_cases hts : t = s
      · subst hts
        simp only [World.commit, Function.update_self] at hphase
        subst hphase
        generalize w.locals t = phase at hcommits
        cases hcommits
      · simp only [World.commit, Function.update_of_ne hts] at hphase ⊢
        exact hv.marked t row batch hphase
  -- a rollback gives up the claims of the session
  · obtain ⟨-, rfl⟩ := next_of_rollback heq
    refine { locked := hlocked, session := hsession, exclusive := ?_, token := ?_,
             marked := ?_ }
    · exact exclusive_update hv fun id hid => absurd hid (by simp [Phase.claimed])
    · intro t hsettled r hr
      by_cases hts : t = s
      · subst hts
        simp [World.rollback, Phase.claimed] at hr
      · simp only [World.rollback, Function.update_of_ne hts] at hsettled hr
        exact hv.token t hsettled r hr
    · intro t row batch hphase
      by_cases hts : t = s
      · subst hts
        simp [World.rollback] at hphase
      · simp only [World.rollback, Function.update_of_ne hts] at hphase ⊢
        exact hv.marked t row batch hphase

theorem valid_of_reachable (hids : ids.Nodup)
    (h : ReachableWhen (step ids) TakesUnclaimed (initial : State S) w) : Valid w :=
  h.invariant initial_valid (fun hv hg hs => valid_step hids hv hg hs)

/-- A row that is not pending is left as it is by every step. -/
theorem final_step {a : S × Input} (hv : Valid w) (h : step ids w a = some w')
    {id : DeliveryId} {row : Delivery} (hrow : w.committed id = some row)
    (hfinal : row.status ≠ .pending) : w'.committed id = some row := by
  obtain ⟨s, i⟩ := a
  rcases step_cases h with ⟨_, _, _, _, _, rfl⟩ | ⟨next, _, rfl⟩ | ⟨_, _, rfl⟩
  · exact hrow
  · refine (overlay_of_notMem (fun hid => ?_) _).trans hrow
    rcases hv.written hid with hnone | ⟨row', hrow', hpending⟩
    · simp [hnone] at hrow
    · rw [hrow] at hrow'
      exact hfinal (Option.some.inj hrow' ▸ hpending)
  · exact hrow

/-- **A delivery that succeeded or died stays so, and one worker at a time
attempts it**, in any run in which no claim takes a row that another worker has
claimed and not marked. -/
theorem delivery_final (hids : ids.Nodup)
    (h : ReachableWhen (step ids) TakesUnclaimed (initial : State S) w) :
    (∀ s t id, (w.locals s).current = some id → (w.locals t).current = some id → s = t) ∧
      ∀ w', ReachableWhen (step ids) TakesUnclaimed w w' → ∀ id row,
        w.committed id = some row → row.status ≠ .pending → w'.committed id = some row := by
  have hv := valid_of_reachable hids h
  constructor
  · intro s t id hs ht
    have hclaimed : ∀ {phase : Phase}, phase.current = some id →
        id ∈ phase.claimed.map ClaimedRow.id := by
      intro phase hphase
      cases phase <;> simp_all [Phase.current, Phase.claimed]
    by_contra hne
    exact hv.exclusive s t hne id (hclaimed hs) (hclaimed ht)
  · intro w' hw' id row hrow hfinal
    have hinv := hw'.invariant (I := fun w => Valid w ∧ w.committed id = some row) ⟨hv, hrow⟩
      fun hw hg hs => ⟨valid_step hids hw.1 hg hs, final_step hw.1 hs hw.2 hfinal⟩
    exact hinv.2

/-! ### Two workers on one delivery -/

/-- One delivery is enqueued. -/
def enqueueOne : List (Bool × Input) :=
  [(false, .enqueue { id := "d", orgId := "o", webhookId := "w", eventId := "e",
                      eventName := "card.created", payload := "{}" } 0),
   (false, .commit)]

/-- A worker claims a batch of one and starts on it. -/
def claimOne (s : Bool) (now : Int) : List (Bool × Input) :=
  [(s, .claimDue now BATCH), (s, .claimNext now), (s, .commit), (s, .deliver)]

/-- The worker gets an answer and marks the row. -/
def finishOne (s : Bool) (now : Int) (outcome : DeliveryOutcome) : List (Bool × Input) :=
  [(s, .respond outcome), (s, .mark now), (s, .commit), (s, .finish)]

def statusOf (w : State Bool) : Option Status := (w.committed "d").map Delivery.status

theorem delivery_final_one_worker :
    ∃ w : State Bool, statusOf w = some .succeeded ∧
      (∀ s t id, (w.locals s).current = some id → (w.locals t).current = some id → s = t) ∧
      ∀ w', ReachableWhen (step ["d"]) TakesUnclaimed w w' → ∀ id row,
        w.committed id = some row → row.status ≠ .pending → w'.committed id = some row := by
  have hrun : (runWhen (step ["d"]) TakesUnclaimed initial
      (enqueueOne ++ claimOne true 1 ++ finishOne true 2 (.succeeded 200))).map statusOf =
      some (some .succeeded) := by decide +kernel
  obtain ⟨w, hw, hstatus⟩ := Option.map_eq_some_iff.mp hrun
  exact ⟨w, hstatus, delivery_final (by decide) (reachableWhen_of_runWhen hw)⟩

/-- A claim leaves the row due, so a second worker claims it while the first is
attempting it, and the slower one's failure then replaces a success. -/
theorem delivery_not_final :
    ∃ w w' w'' : State Bool, Reachable (step ["d"]) initial w ∧ Reachable (step ["d"]) w w' ∧
      Reachable (step ["d"]) w' w'' ∧
      ((w.locals false).current = some "d" ∧ (w.locals true).current = some "d") ∧
      statusOf w' = some .succeeded ∧ statusOf w'' = some .pending := by
  have hrun : ((run (step ["d"]) initial (enqueueOne ++ claimOne false 1 ++ claimOne true 2)).bind
      fun w => (run (step ["d"]) w (finishOne false 3 (.succeeded 200))).bind
      fun w' => (run (step ["d"]) w'
        (finishOne true 4 (.failed (some 500) "receiver answered 500"))).map
      fun w'' => (((w.locals false).current, (w.locals true).current), statusOf w',
        statusOf w'')) =
      some ((some "d", some "d"), some .succeeded, some .pending) := by decide +kernel
  obtain ⟨w, hw, hrun⟩ := Option.bind_eq_some_iff.mp hrun
  obtain ⟨w', hw', hrun⟩ := Option.bind_eq_some_iff.mp hrun
  obtain ⟨w'', hw'', hrun⟩ := Option.map_eq_some_iff.mp hrun
  simp only [Prod.mk.injEq] at hrun
  exact ⟨w, w', w'', reachable_of_run hw, reachable_of_run hw', reachable_of_run hw'', hrun⟩

end WebhookDelivery
end TaskFlow
