import TaskFlow.WebhookFinal

/-! # Which pending deliveries can still be claimed

The claim counts an attempt and the mark decides what the last one means, so a
delivery on its last attempt is pending with no attempts left until its mark
commits.  Nothing but that mark gets it out: no claim matches it, and nothing
sweeps the table.
-/
namespace TaskFlow
namespace WebhookDelivery
open ReadCommitted StepSystem

variable {S : Type} [DecidableEq S] {ids : List DeliveryId} {w w' : State S} {s t : S}

/-- Whatever the time, the claim's conditions hold of the row as it is at some
later time. -/
def Claimable (row : Delivery) : Prop := ∀ now, ∃ later, now ≤ later ∧ Due later row

theorem claimable_iff {row : Delivery} (h : row.status = .pending) :
    Claimable row ↔ row.attempts < MAX_ATTEMPTS := by
  constructor
  · intro hc
    obtain ⟨_, _, hdue⟩ := hc 0
    exact hdue.2.2
  · intro hlt now
    exact ⟨max now (row.nextAttemptAt + 1), le_max_left _ _, h,
      lt_of_lt_of_le (Int.lt_succ _) (le_max_right _ _), hlt⟩

/-- Every pending delivery can still be claimed. -/
def AllClaimable (w : State S) : Prop :=
  ∀ id row, w.committed id = some row → row.status = .pending → Claimable row

/-- Every pending delivery can still be claimed, or is on its last attempt in
the hands of a worker. -/
def NoneStranded (w : State S) : Prop :=
  ∀ id row, w.committed id = some row → row.status = .pending → Claimable row ∨
    ∃ s, (w.locals s).Settled ∧ ∃ r ∈ (w.locals s).claimed, r.id = id ∧
      r.attempts = MAX_ATTEMPTS

/-! ### Runs in which no claim of a last attempt commits -/

/-- What holds while no claim of a last attempt commits. -/
structure Spare (w : State S) : Prop where
  locked : Locked w
  session : ∀ s, Session (w.locals s) (w.pending s) (w.Owns s) w.committed
  attempts : ∀ id row, w.committed id = some row → row.attempts < MAX_ATTEMPTS

/-- What a committed write leaves in the attempts column. -/
theorem Session.written {phase next : Phase} {writes : List (DeliveryId × Option Delivery)}
    {own : DeliveryId → Prop} {c : Rows} (h : Session phase writes own c)
    (hcommits : Commits phase next) {id : DeliveryId} (hid : id ∈ writes.map Prod.fst) :
    ∃ new, overlay writes c id = some new ∧ (new.attempts = 0 ∨
      (∃ r ∈ next.claimed, (∃ candidates claimed, phase = .claiming candidates claimed) ∧
        r.id = id ∧ new.status = .pending ∧ new.attempts = r.attempts) ∨
      ∃ row batch old, phase = .marking row batch ∧ id = row.id ∧ c id = some old ∧
        new.attempts = old.attempts ∧ (new.status = .pending → row.attempts < MAX_ATTEMPTS)) := by
  have hw := h.writes
  cases hcommits with
  | enqueued =>
    obtain ⟨_, row, hrow, h0⟩ := hw id hid
    exact ⟨row, hrow, Or.inl h0⟩
  | claimed =>
    obtain ⟨r, hr, rfl⟩ := List.mem_map.mp (hw.1 id hid)
    obtain ⟨_, ⟨row, hrow, hpending, hattempts⟩, _⟩ := hw.2 r hr
    exact ⟨row, hrow, Or.inr (Or.inl ⟨r, hr, ⟨_, _, rfl⟩, rfl, hpending, hattempts⟩)⟩
  | marked =>
    obtain ⟨hrow, old, new, hold, hnew, hattempts, hlast⟩ := hw id hid
    exact ⟨new, hnew, Or.inr (Or.inr ⟨_, _, old, rfl, hrow, hold, hattempts, hlast⟩)⟩

theorem input_of_commit {phase next : Phase} {input : Input} {rows : Rows}
    {held : DeliveryId → Bool}
    (h : statement ids phase input rows held = some (.commit next)) : input = .commit := by
  unfold statement at h
  repeat' split at h
  all_goals first | rfl | cases h

theorem spare_step (hids : ids.Nodup) {a : S × Input} (hv : Spare w) (hg : ClaimsSpare w a)
    (h : step ids w a = some w') : Spare w' := by
  obtain ⟨s, i⟩ := a
  refine { locked := locked_step hv.locked h
           session := (session_invariant hids).step hv.locked hv.session h
           attempts := ?_ }
  rcases step_cases h with ⟨_, _, _, _, _, rfl⟩ | ⟨next, heq, rfl⟩ | ⟨_, _, rfl⟩
  · exact hv.attempts
  · intro id row hrow
    change overlay (w.pending s) w.committed id = some row at hrow
    by_cases hid : id ∈ (w.pending s).map Prod.fst
    · have hcommits := commits_of_statement heq
      obtain ⟨new, hnew, hcase⟩ := (hv.session s).written hcommits hid
      rw [hrow] at hnew
      obtain rfl := Option.some.inj hnew
      -- the row is new, or claimed, or marked
      rcases hcase with h0 | ⟨r, hr, ⟨candidates, claimed, hphase⟩, -, -, hattempts⟩ |
        ⟨-, -, old, -, -, hold, hattempts, -⟩
      · rw [h0]
        decide
      · obtain rfl := input_of_commit heq
        simp only [ClaimsSpare, hphase] at hg
        have hmem := claimed_of_commits hcommits hr
        rw [hphase] at hmem
        rw [hattempts]
        exact hg r hmem
      · rw [hattempts]
        exact hv.attempts id old hold
    · rw [overlay_of_notMem hid] at hrow
      exact hv.attempts id row hrow
  · exact hv.attempts

/-- A committed claim of a last attempt leaves a row no claim matches. -/
theorem not_allClaimable_of_commit {a : S × Input} (hv : Spare w) (hg : ¬ClaimsSpare w a)
    (h : step ids w a = some w') : ¬AllClaimable w' := by
  obtain ⟨s, i⟩ := a
  unfold ClaimsSpare at hg
  split at hg
  case h_2 => exact absurd trivial hg
  case h_1 candidates claimed hphase hi =>
    obtain rfl : i = .commit := hi
    simp only [not_forall, not_lt] at hg
    obtain ⟨r, hr, hlast⟩ := hg
    have hw := (hv.session s).writes
    rw [show w.locals s = .claiming candidates claimed from hphase] at hw
    obtain ⟨-, ⟨row, hrow, hpending, hattempts⟩, -⟩ := hw.2 r hr
    rcases step_cases h with ⟨_, _, _, heq, _, rfl⟩ | ⟨next, heq, rfl⟩ | ⟨_, heq, rfl⟩
    · have := runs_of_statement heq
      rw [show w.locals s = .claiming candidates claimed from hphase] at this
      cases this
    · intro hall
      have := (claimable_iff hpending).mp (hall r.id row hrow hpending)
      omega
    · exact absurd (next_of_rollback heq).1 (by simp)

theorem spare_of_reachable (hids : ids.Nodup)
    (h : ReachableWhen (step ids) ClaimsSpare (initial : State S) w) : Spare w :=
  h.invariant ⟨initial_valid.locked, initial_valid.session, by simp [initial, World.initial]⟩
    (fun hv hg hs => spare_step hids hv hg hs)

/-! ### Runs in which no worker dies on a last attempt -/

/-- What a worker holds stays held while its statements go on. -/
theorem held_of_runs {rows : Rows} {phase next : Phase} {input : Input}
    {writes : List (DeliveryId × Option Delivery)} (h : Runs ids rows phase input writes next)
    (hsettled : phase.Settled) {r : ClaimedRow} (hr : r ∈ phase.claimed) :
    next.Settled ∧ r ∈ next.claimed := by
  cases h with
  | enqueue | conflict | read | finish => simp [Phase.claimed] at hr
  | lose | take => exact hsettled.elim
  | _ => exact ⟨trivial, hr⟩

/-- What a worker holds stays held when it commits, but for the row it has
marked. -/
theorem held_of_commits {phase next : Phase} (h : Commits phase next) (hsettled : phase.Settled)
    {r : ClaimedRow} (hr : r ∈ phase.claimed) :
    (next.Settled ∧ r ∈ next.claimed) ∨ ∃ batch, phase = .marking r batch := by
  cases h with
  | enqueued => simp [Phase.claimed] at hr
  | claimed => exact hsettled.elim
  | marked =>
    rcases List.mem_cons.mp hr with rfl | hr
    · exact Or.inr ⟨_, rfl⟩
    · exact Or.inl ⟨trivial, hr⟩

theorem commits_settled {phase next : Phase} (h : Commits phase next) : next.Settled := by
  cases h <;> trivial

omit [DecidableEq S] in
/-- What a commit writes can be claimed, or the worker has just claimed it for
the last time. -/
theorem noneStranded_written (hv : Valid w) {next : Phase}
    (hcommits : Commits (w.locals s) next) {id : DeliveryId} {row : Delivery}
    (hid : id ∈ (w.pending s).map Prod.fst) (hrow : w.view s id = some row)
    (hpending : row.status = .pending) :
    row.attempts < MAX_ATTEMPTS ∨ ∃ r ∈ next.claimed, r.id = id ∧ r.attempts = MAX_ATTEMPTS := by
  obtain ⟨new, hnew, hcase⟩ := (hv.session s).written hcommits hid
  rw [show overlay (w.pending s) w.committed id = some row from hrow] at hnew
  obtain rfl := Option.some.inj hnew
  rcases hcase with h0 | ⟨r, hr, -, hrid, -, hattempts⟩ |
    ⟨marked, batch, old, hphase, rfl, hold, hattempts, hlast⟩
  · exact Or.inl (by rw [h0]; decide)
  · rcases ((hv.session s).budget.2 r (claimed_of_commits hcommits hr)).lt_or_eq with hlt | heq
    · exact Or.inl (hattempts ▸ hlt)
    · exact Or.inr ⟨r, hr, hrid, heq⟩
  · obtain ⟨row', hrow', -, htoken⟩ :=
      hv.token s (hphase ▸ trivial) marked (by simp [hphase, Phase.claimed])
    rw [hold] at hrow'
    obtain rfl := Option.some.inj hrow'
    exact Or.inl (by rw [hattempts, htoken]; exact hlast hpending)

theorem noneStranded_step {a : S × Input} (hv : Valid w) (hn : NoneStranded w)
    (hg : CrashesSpare w a) (h : step ids w a = some w') : NoneStranded w' := by
  obtain ⟨s, i⟩ := a
  rcases step_cases h with ⟨locks, writes, next, heq, _, rfl⟩ | ⟨next, heq, rfl⟩ |
    ⟨next, heq, rfl⟩
  -- a statement: what a worker has claimed it keeps
  · intro id row hrow hpending
    apply (hn id row hrow hpending).imp_right
    rintro ⟨t, hsettled, r, hr, hrid, hlast⟩
    by_cases hts : t = s
    · subst hts
      obtain ⟨hsettled', hr'⟩ := held_of_runs (runs_of_statement heq) hsettled hr
      exact ⟨t, by simpa [World.run] using hsettled', r, by simpa [World.run] using hr', hrid,
        hlast⟩
    · exact ⟨t, by simpa [World.run, Function.update_of_ne hts] using hsettled, r,
        by simpa [World.run, Function.update_of_ne hts] using hr, hrid, hlast⟩
  -- a commit: a pending row it writes has attempts left, or its worker holds it
  · have hcommits := commits_of_statement heq
    intro id row hrow hpending
    by_cases hid : id ∈ (w.pending s).map Prod.fst
    · rcases noneStranded_written hv hcommits hid hrow hpending with hlt | ⟨r, hr, hrid, hlast⟩
      · exact Or.inl ((claimable_iff hpending).mpr hlt)
      · exact Or.inr ⟨s, by simpa [World.commit] using commits_settled hcommits, r,
          by simpa [World.commit] using hr, hrid, hlast⟩
    · rw [show (w.commit s next).committed id = w.committed id from overlay_of_notMem hid _]
        at hrow
      apply (hn id row hrow hpending).imp_right
      rintro ⟨t, hsettled, r, hr, hrid, hlast⟩
      by_cases hts : t = s
      · subst hts
        rcases held_of_commits hcommits hsettled hr with ⟨hsettled', hr'⟩ | ⟨batch, hphase⟩
        · exact ⟨t, by simpa [World.commit] using hsettled', r,
            by simpa [World.commit] using hr', hrid, hlast⟩
        · exact absurd (hrid ▸ hv.marked t r batch hphase) hid
      · exact ⟨t, by simpa [World.commit, Function.update_of_ne hts] using hsettled, r,
          by simpa [World.commit, Function.update_of_ne hts] using hr, hrid, hlast⟩
  -- a rollback is the end of a worker, which held no last attempt
  · obtain ⟨rfl, rfl⟩ := next_of_rollback heq
    intro id row hrow hpending
    apply (hn id row hrow hpending).imp_right
    rintro ⟨t, hsettled, r, hr, hrid, hlast⟩
    by_cases hts : t = s
    · subst hts
      exact absurd hlast (Nat.ne_of_lt (hg rfl hsettled r hr))
    · exact ⟨t, by simpa [World.rollback, Function.update_of_ne hts] using hsettled, r,
        by simpa [World.rollback, Function.update_of_ne hts] using hr, hrid, hlast⟩

theorem noneStranded_of_reachable (hids : ids.Nodup)
    (h : ReachableWhen (step ids) (fun w a => TakesUnclaimed w a ∧ CrashesSpare w a)
      (initial : State S) w) : NoneStranded w := by
  have hinv := h.invariant (I := fun w => Valid w ∧ NoneStranded w)
    ⟨initial_valid, by simp [NoneStranded, initial, World.initial]⟩
    fun hw hg hs => ⟨valid_step hids hw.1 hg.1 hs, noneStranded_step hw.1 hw.2 hg.2 hs⟩
  exact hinv.2

/-- **Every pending delivery can still be claimed exactly as long as no claim of
a last attempt commits.**  And where no claim takes a claimed row and no worker
dies holding a last attempt, a pending delivery that cannot be claimed is in the
hands of a worker whose mark ends it. -/
theorem pending_claimable (hids : ids.Nodup) :
    (∀ w : State S, ReachableWhen (step ids) ClaimsSpare initial w →
      AllClaimable w ∧
        ∀ a w', step ids w a = some w' → (AllClaimable w' ↔ ClaimsSpare w a)) ∧
      ∀ w : State S, ReachableWhen (step ids) (fun w a => TakesUnclaimed w a ∧ CrashesSpare w a)
        initial w → NoneStranded w := by
  have hall : ∀ w : State S, Spare w → AllClaimable w := fun w hv id row hrow hpending =>
    (claimable_iff hpending).mpr (hv.attempts id row hrow)
  refine ⟨fun w h => ?_, fun w h => noneStranded_of_reachable hids h⟩
  have hv := spare_of_reachable hids h
  refine ⟨hall w hv, fun a w' hs => ⟨fun hc => ?_, fun hg => hall w' (spare_step hids hv hg hs)⟩⟩
  by_contra hg
  exact not_allClaimable_of_commit hv hg hs hc

theorem pending_claimable_d :
    (∀ w : State Bool, ReachableWhen (step ["d"]) ClaimsSpare initial w →
      AllClaimable w ∧
        ∀ a w', step ["d"] w a = some w' → (AllClaimable w' ↔ ClaimsSpare w a)) ∧
      ∀ w : State Bool, ReachableWhen (step ["d"])
        (fun w a => TakesUnclaimed w a ∧ CrashesSpare w a) initial w → NoneStranded w :=
  pending_claimable (by decide)

/-- One worker fails the delivery `n` times, an hour apart. -/
def failOne : Nat → List (Bool × Input)
  | 0 => []
  | n + 1 => failOne n ++ claimOne false ((n + 1) * 3600000) ++
      finishOne false ((n + 1) * 3600000) (.failed none "the request failed")

/-- A worker that dies on the last attempt leaves the delivery pending with no
attempts left, whatever the time. -/
theorem pending_not_claimable :
    ∃ w : State Bool, Reachable (step ["d"]) initial w ∧
      (∀ s, (w.locals s).claimed = []) ∧
      ∃ row, w.committed "d" = some row ∧ row.status = .pending ∧ ¬Claimable row := by
  have hrun : (run (step ["d"]) initial (enqueueOne ++ failOne 5 ++
      claimOne false 21600000 ++ [(false, .crash)])).map
      (fun w => ((w.locals false).claimed ++ (w.locals true).claimed,
        (w.committed "d").map fun row => (row.status, row.attempts))) =
      some ([], some (.pending, MAX_ATTEMPTS)) := by decide +kernel
  obtain ⟨w, hw, hobs⟩ := Option.map_eq_some_iff.mp hrun
  obtain ⟨hclaimed, hrow⟩ := Prod.mk.injEq _ _ _ _ ▸ hobs
  obtain ⟨row, hrow, hobs⟩ := Option.map_eq_some_iff.mp hrow
  obtain ⟨hpending, hattempts⟩ := Prod.mk.injEq _ _ _ _ ▸ hobs
  refine ⟨w, reachable_of_run hw, ?_, row, hrow, hpending, fun hc => ?_⟩
  · rintro (_ | _)
    · exact (List.append_eq_nil_iff.mp hclaimed).1
    · exact (List.append_eq_nil_iff.mp hclaimed).2
  · exact absurd ((claimable_iff hpending).mp hc) (hattempts ▸ lt_irrefl _)

end WebhookDelivery
end TaskFlow
