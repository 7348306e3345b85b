import TaskFlow.DueReminders

/-! # One reminder for each due date

A reminder that is there is for the date that the card is due, or else an edit of the card has yet
to be projected, or a projection that has found the reminder has yet to commit: that is the
invariant (`Accounted`).  And a reminder that was ever committed is there still, or the card is due
at another date by now.

So where the steps are orderly nobody is reminded twice of one date, and a sweep at the end leaves
everybody reminded (`reminded_once_of_orderly`).  Otherwise a late projection has a reminder sent
twice, and a late sweep leaves a reminder of an old date in the way of the new one's for good
(`reminded_twice_or_never`).
-/
namespace TaskFlow
namespace DueReminders

variable {S : Type} [DecidableEq S]

/-- The events whose reminders a projection has yet to look for. -/
def Task.toLook : Task → List Nat
  | .draining _ todo none _ => todo
  | .draining _ (_ :: todo) (some _) _ => todo
  | _ => []

/-- The reminders that a projection has found. -/
def Task.rows : Task → List Reminder
  | .draining _ _ found gone => found.getD [] ++ gone
  | _ => []

/-- The reminder is of the card's due date; or an edit of it is not dispatched, and whoever has
claimed its event is to look for the reminders yet or has found this one. -/
def Accounted (σ : State S) (reminder : Reminder) : Prop :=
  (σ.cards reminder.cardId).dueDate = some reminder.dueDate ∨
    ∃ id event, σ.outbox[id]? = some event ∧ event.cardId = reminder.cardId ∧
      event.dueDateChanged ∧ id ∉ σ.dispatched ∧ ∀ s, id ∈ (σ.task s).claimed →
        id ∈ (σ.task s).toLook ∨ reminder ∈ (σ.task s).rows

structure Valid (σ : State S) : Prop where
  unwritten : ∀ s, ∀ reminder ∈ (σ.task s).written,
    reminder.key ∉ σ.notifications.map Reminder.key
  apart : ∀ s t, s ≠ t → ∀ reminder ∈ (σ.task s).written,
    reminder.key ∉ (σ.task t).written.map Reminder.key
  own : ∀ s, ((σ.task s).written.map Reminder.key).Nodup
  claimed : ∀ s, ∀ id ∈ (σ.task s).claimed, id < σ.outbox.length
  dispatched : ∀ id ∈ σ.dispatched, id < σ.outbox.length
  once : σ.received.Nodup
  past : ∀ reminder ∈ σ.received, reminder ∈ σ.notifications ∨
    (σ.cards reminder.cardId).dueDate ≠ some reminder.dueDate
  accounted : ∀ reminder ∈ σ.notifications, Accounted σ reminder

section
variable {σ σ' : State S} {s t : S} {task : Task} {reminder : Reminder} {cardId : CardId}

theorem at_self : (σ.at s task).task s = task := Function.update_self ..

theorem at_of_ne (h : t ≠ s) : (σ.at s task).task t = σ.task t := Function.update_of_ne h ..

/-- A property of every process's task, and of the new one's. -/
theorem forall_at {P : Task → Prop} (h : ∀ t, P (σ.task t)) (htask : P task) (t : S) :
    P ((σ.at s task).task t) :=
  StepSystem.forall_update h htask t

/-! ### A process goes on -/

/-- What is asked of the task that a process goes on to, beside those of the others. -/
structure Follows (σ : State S) (s : S) (task : Task) : Prop where
  unwritten : ∀ reminder ∈ task.written, reminder.key ∉ σ.notifications.map Reminder.key
  apart : ∀ t, t ≠ s → ∀ reminder ∈ task.written,
    reminder.key ∉ (σ.task t).written.map Reminder.key
  own : (task.written.map Reminder.key).Nodup
  claimed : ∀ id ∈ task.claimed, id < σ.outbox.length
  accounted : ∀ reminder ∈ σ.notifications, ∀ id event, σ.outbox[id]? = some event →
    event.cardId = reminder.cardId → event.dueDateChanged →
    (id ∈ (σ.task s).claimed → id ∈ (σ.task s).toLook ∨ reminder ∈ (σ.task s).rows) →
      id ∈ task.claimed → id ∈ task.toLook ∨ reminder ∈ task.rows

theorem Valid.follows (hv : Valid σ) (h : Follows σ s task) : Valid (σ.at s task) where
  unwritten := forall_at (P := fun task => ∀ reminder ∈ task.written,
    reminder.key ∉ σ.notifications.map Reminder.key) hv.unwritten h.unwritten
  apart := by
    refine StepSystem.forall_update_ne (R := fun task task' : Task => ∀ reminder ∈ task.written,
      reminder.key ∉ task'.written.map Reminder.key) hv.apart h.apart fun t hts r hr hmem => ?_
    obtain ⟨other, hother, hkey⟩ := List.mem_map.mp hmem
    exact h.apart t hts other hother (hkey ▸ List.mem_map_of_mem hr)
  own := forall_at (P := fun task => (task.written.map Reminder.key).Nodup) hv.own h.own
  claimed := forall_at (P := fun task => ∀ id ∈ task.claimed, id < σ.outbox.length) hv.claimed
    h.claimed
  dispatched := hv.dispatched
  once := hv.once
  past := hv.past
  accounted reminder hmem := by
    refine (hv.accounted reminder hmem).imp id ?_
    rintro ⟨id, event, hevent, hcard, hchanged, hundispatched, hlook⟩
    refine ⟨id, event, hevent, hcard, hchanged, hundispatched, ?_⟩
    exact forall_at (P := fun task => id ∈ task.claimed → id ∈ task.toLook ∨ reminder ∈ task.rows)
      hlook (h.accounted reminder hmem id event hevent hcard hchanged (hlook s))

omit [DecidableEq S] in
/-- A task that neither inserts nor deletes. -/
theorem follows_of_plain (hwritten : task.written = []) (hclaimed : task.claimed = []) :
    Follows σ s task where
  unwritten _ h := by simp [hwritten] at h
  apart _ _ _ h := by simp [hwritten] at h
  own := by simp [hwritten]
  claimed _ h := by simp [hclaimed] at h
  accounted _ _ _ _ _ _ _ _ h := by simp [hclaimed] at h

omit [DecidableEq S] in
theorem follows_draining {claimed todo : List Nat} {found : Option (List Reminder)}
    {gone : List Reminder} (hclaimed : ∀ id ∈ claimed, id < σ.outbox.length)
    (haccounted : ∀ reminder ∈ σ.notifications, ∀ id event, σ.outbox[id]? = some event →
      event.cardId = reminder.cardId → event.dueDateChanged →
      (id ∈ (σ.task s).claimed → id ∈ (σ.task s).toLook ∨ reminder ∈ (σ.task s).rows) →
        id ∈ claimed → id ∈ (Task.draining claimed todo found gone).toLook ∨
          reminder ∈ found.getD [] ++ gone) :
    Follows σ s (.draining claimed todo found gone) where
  unwritten _ h := absurd h List.not_mem_nil
  apart _ _ _ h := absurd h List.not_mem_nil
  own := List.nodup_nil
  claimed := hclaimed
  accounted := haccounted

omit [DecidableEq S] in
/-- Another card's columns, or those that no reminder depends on. -/
theorem Valid.setCard (hv : Valid σ) {card : Card}
    (hdue : card.dueDate = (σ.cards cardId).dueDate) : Valid (σ.setCard cardId card) := by
  have hsame : ∀ cardId', ((σ.setCard cardId card).cards cardId').dueDate =
      (σ.cards cardId').dueDate := by
    intro cardId'
    by_cases h : cardId' = cardId
    · rw [h, ← hdue]
      exact congrArg Card.dueDate (Function.update_self ..)
    · exact congrArg Card.dueDate (Function.update_of_ne h ..)
  refine { hv with past := fun r hr => ?_, accounted := fun r hr => ?_ }
  · rw [hsame]
    exact hv.past r hr
  · unfold Accounted
    rw [hsame]
    exact hv.accounted r hr

omit [DecidableEq S] in
/-- The dates of the cards that it is not asked to change stay. -/
theorem dueDate_update {dueDate : Option Int} {version : Nat} {id : CardId}
    (h : ¬(id = cardId ∧ dueDate ≠ (σ.cards cardId).dueDate)) :
    (Function.update σ.cards cardId
      { σ.cards cardId with dueDate := dueDate, version := version } id).dueDate =
      (σ.cards id).dueDate := by
  by_cases hcard : id = cardId
  · rw [hcard, Function.update_self]
    by_contra hne
    exact h ⟨hcard, hne⟩
  · rw [Function.update_of_ne hcard]

/-- The edit is the last event of the outbox, which nobody can have claimed. -/
theorem Valid.updateCard {before dueDate : Option Int} {version : Nat} (hv : Valid σ)
    (horderly : version = (σ.cards cardId).version → dueDate ≠ (σ.cards cardId).dueDate →
      dueDate ≠ before ∧ ∀ reminder ∈ σ.received, reminder.cardId = cardId →
        dueDate ≠ some reminder.dueDate) :
    Valid (updateCard σ s cardId before version dueDate) := by
  have hidle : Valid (σ.at s .idle) := hv.follows (follows_of_plain rfl rfl)
  unfold DueReminders.updateCard
  by_cases hversion : version = (σ.cards cardId).version
  · rw [if_pos hversion]
    have hlonger : ∀ {id : Nat}, id < σ.outbox.length →
        id < (σ.outbox ++ [(⟨cardId, before, dueDate⟩ : CardUpdated)]).length := fun h => by
      rw [List.length_append]
      omega
    refine ⟨hidle.unwritten, hidle.apart, hidle.own, fun t id h => hlonger (hidle.claimed t id h),
      fun id h => hlonger (hidle.dispatched id h), hidle.once, fun r hr => ?_, fun r hr => ?_⟩
    · refine (hidle.past r hr).imp id fun hpast => ?_
      change (Function.update σ.cards cardId _ r.cardId).dueDate ≠ _
      by_cases hedited : r.cardId = cardId ∧ dueDate ≠ (σ.cards cardId).dueDate
      · rw [hedited.1, Function.update_self]
        exact (horderly hversion hedited.2).2 r hr hedited.1
      · rw [dueDate_update hedited]
        exact hpast
    · by_cases hedited : r.cardId = cardId ∧ dueDate ≠ (σ.cards cardId).dueDate
      · refine .inr ⟨σ.outbox.length, ⟨cardId, before, dueDate⟩, List.getElem?_concat_length,
          hedited.1.symm, ?_, fun h => absurd (hv.dispatched _ h) (lt_irrefl _),
          fun t h => absurd (hidle.claimed t _ h) (lt_irrefl _)⟩
        simpa [CardUpdated.dueDateChanged] using (horderly hversion hedited.2).1.symm
      · refine (hidle.accounted r hr).imp (dueDate_update hedited).trans ?_
        rintro ⟨id, event, hevent, hrest⟩
        obtain ⟨hlt, -⟩ := List.getElem?_eq_some_iff.mp hevent
        exact ⟨id, event, (List.getElem?_append_left hlt).trans hevent, hrest⟩
  · rw [if_neg hversion]
    exact hidle

/-- A sweep is committed: nobody has been reminded of the dates that it has inserted. -/
theorem Valid.commitSweep {written : List Reminder} (hv : Valid σ)
    (hs : (σ.task s).written = written)
    (hcurrent : ∀ reminder ∈ written, (σ.cards reminder.cardId).dueDate = some reminder.dueDate) :
    Valid { σ.at s .idle with
      notifications := σ.notifications ++ written
      received := σ.received ++ written } := by
  subst hs
  have hidle : Valid (σ.at s .idle) := hv.follows (follows_of_plain rfl rfl)
  refine { hidle with unwritten := fun t r hr hmem => ?_, once := ?_, past := fun r hr => ?_,
                      accounted := fun r hr => ?_ }
  · have hts : t ≠ s := by
      rintro rfl
      rw [show (σ.at t .idle).task t = .idle from at_self] at hr
      exact List.not_mem_nil hr
    have hr' : r ∈ (σ.task t).written := by rwa [show (σ.at s .idle).task t = _ from at_of_ne hts]
      at hr
    rw [List.map_append, List.mem_append] at hmem
    exact hmem.elim (hv.unwritten t r hr') (hv.apart t s hts r hr')
  · refine hv.once.append ((hv.own s).of_map _) fun r hreceived hwritten => ?_
    rcases hv.past r hreceived with hmem | hpast
    · exact hv.unwritten s r hwritten (List.mem_map_of_mem hmem)
    · exact hpast (hcurrent r hwritten)
  · rcases List.mem_append.mp hr with hr | hr
    · exact (hv.past r hr).imp (List.mem_append_left _) id
    · exact .inl (List.mem_append_right _ hr)
  · rcases List.mem_append.mp hr with hr | hr
    · exact hidle.accounted r hr
    · exact .inl (hcurrent r hr)

/-- A projection is committed: what it has found it has deleted, and no other reminder counted on
the events that it has claimed. -/
theorem Valid.commitDrain {claimed : List Nat} {gone : List Reminder} (hv : Valid σ)
    (hs : σ.task s = .draining claimed [] none gone)
    (hpast : ∀ reminder ∈ gone, (σ.cards reminder.cardId).dueDate ≠ some reminder.dueDate) :
    Valid { σ.at s .idle with
      notifications := σ.notifications.filter (· ∉ gone)
      dispatched := σ.dispatched ++ claimed } := by
  have hidle : Valid (σ.at s .idle) := hv.follows (follows_of_plain rfl rfl)
  refine { hidle with
    unwritten := fun t r hr hmem => ?_, dispatched := fun id hid => ?_, past := fun r hr => ?_,
    accounted := fun r hr => ?_ }
  · obtain ⟨other, hother, hkey⟩ := List.mem_map.mp hmem
    exact hidle.unwritten t r hr (hkey ▸ List.mem_map_of_mem (List.mem_of_mem_filter hother))
  · rcases List.mem_append.mp hid with hid | hid
    · exact hv.dispatched id hid
    · exact hv.claimed s id (by rwa [hs])
  · by_cases hgone : r ∈ gone
    · exact .inr (hpast r hgone)
    · exact (hv.past r hr).imp (fun hmem => List.mem_filter.mpr ⟨hmem, by simpa using hgone⟩) id
  · obtain ⟨hmem, hkept⟩ := List.mem_filter.mp hr
    refine (hv.accounted r hmem).imp id ?_
    rintro ⟨id, event, hevent, hcard, hchanged, hundispatched, hlook⟩
    refine ⟨id, event, hevent, hcard, hchanged, fun hdispatched => ?_, ?_⟩
    · rcases List.mem_append.mp hdispatched with h | h
      · exact hundispatched h
      · have hfound := hlook s (by rwa [hs])
        rw [hs] at hfound
        rcases hfound with h | h
        · exact List.not_mem_nil h
        · exact absurd h (by simpa [Task.rows] using hkept)
    · exact forall_at (P := fun task => id ∈ task.claimed → id ∈ task.toLook ∨ r ∈ task.rows)
        hlook fun h => absurd h List.not_mem_nil

/-! ### Statements -/

section
variable [Fintype S]

theorem Valid.insertReminder {todo written : List Reminder} (hv : Valid σ)
    (hs : σ.task s = .sweeping (reminder :: todo) written)
    (h : insertReminder σ s reminder todo written = some σ') : Valid σ' := by
  have hwritten : (σ.task s).written = written := by rw [hs]; rfl
  have hfollows : ∀ {more : List Reminder},
      (∀ r ∈ more, r.key ∉ σ.notifications.map Reminder.key) →
      (∀ t, t ≠ s → ∀ r ∈ more, r.key ∉ (σ.task t).written.map Reminder.key) →
      ((written ++ more).map Reminder.key).Nodup →
      Follows σ s (.sweeping todo (written ++ more)) := fun hnew hapart hown =>
    { unwritten := fun r hr => (List.mem_append.mp hr).elim
        (fun hr => hv.unwritten s r (hwritten ▸ hr)) (hnew r)
      apart := fun t hts r hr => (List.mem_append.mp hr).elim
        (fun hr => hv.apart s t hts.symm r (hwritten ▸ hr)) (hapart t hts r)
      own := hown
      claimed := fun _ h => absurd h List.not_mem_nil
      accounted := fun _ _ _ _ _ _ _ _ h => absurd h List.not_mem_nil }
  unfold DueReminders.insertReminder at h
  obtain ⟨hfree, h⟩ := Option.ite_none_left_eq_some.mp h
  split at h
  · obtain rfl := Option.some.inj h
    rw [← List.append_nil written]
    exact hv.follows (hfollows (by simp) (by simp) (by simpa [hwritten] using hv.own s))
  · next hnew =>
    obtain rfl := Option.some.inj h
    rw [List.map_append, List.mem_append, not_or] at hnew
    refine hv.follows (hfollows (by simpa using hnew.1) (fun t hts => ?_) ?_)
    · rw [List.forall_mem_singleton]
      refine fun hmem => hfree ⟨t, hts, ?_⟩
      rw [List.map_append]
      exact List.mem_append_left _ hmem
    · rw [List.map_append]
      exact (hwritten ▸ hv.own s).append (List.nodup_singleton _)
        (List.disjoint_singleton.mpr hnew.2)

end

/-- What a projection finds is deleted, and of the next event it looks for all there are. -/
theorem Valid.findReminders {claimed todo : List Nat} {id : Nat} {gone : List Reminder}
    (hv : Valid σ) (hs : σ.task s = .draining claimed (id :: todo) none gone)
    (h : findReminders σ s claimed id todo gone = some σ') : Valid σ' := by
  have hclaimed : ∀ id ∈ claimed, id < σ.outbox.length := fun id hid =>
    hv.claimed s id (by rwa [hs])
  obtain ⟨event, hevent, hafter⟩ := Option.map_eq_some_iff.mp h
  split at hafter
  · obtain rfl := hafter
    refine hv.follows (follows_draining hclaimed ?_)
    intro r hr id' event' hevent' hcard _ hlook hmem
    rw [hs] at hlook
    rcases hlook hmem with hlook | hfound
    · rcases List.mem_cons.mp hlook with rfl | hlook
      · obtain rfl : event = event' := Option.some.inj (hevent.symm.trans hevent')
        by_cases hgone : r ∈ gone
        · exact .inr (List.mem_append_right _ hgone)
        · refine .inr (List.mem_append_left _ (List.mem_filter.mpr ⟨hr, ?_⟩))
          simpa [hcard] using hgone
      · exact .inl hlook
    · exact .inr (List.mem_append_right _ hfound)
  · next hunchanged =>
    obtain rfl := hafter
    refine hv.follows (follows_draining hclaimed ?_)
    intro r hr id' event' hevent' hcard hchanged hlook hmem
    rw [hs] at hlook
    rcases hlook hmem with hlook | hfound
    · rcases List.mem_cons.mp hlook with rfl | hlook
      · obtain rfl : event = event' := Option.some.inj (hevent.symm.trans hevent')
        exact absurd hchanged hunchanged
      · exact .inl hlook
    · exact .inr hfound

theorem Valid.deleteReminders {claimed todo : List Nat} {id : Nat} {found gone : List Reminder}
    (hv : Valid σ) (hs : σ.task s = .draining claimed (id :: todo) (some found) gone) :
    Valid (σ.at s
      (.draining claimed todo none (gone ++ found.filter (· ∈ σ.notifications)))) := by
  refine hv.follows (follows_draining (fun id hid => hv.claimed s id (by rwa [hs])) ?_)
  intro r hr id' event' _ _ _ hlook hmem
  rw [hs] at hlook
  refine (hlook hmem).imp_right fun hrows => List.mem_append.mpr (.inr ?_)
  rcases List.mem_append.mp hrows with hfound | hgone
  · exact List.mem_append_right _ (List.mem_filter.mpr ⟨hfound, by simpa using hr⟩)
  · exact List.mem_append_left _ hgone

variable [Fintype S] {cardIds : List CardId}

theorem valid_step {a : Action S} (hv : Valid σ) (horderly : Orderly σ a)
    (h : step cardIds σ a = some σ') : Valid σ' := by
  unfold step at h
  split at h
  · obtain rfl := Option.some.inj h
    exact hv.setCard rfl
  · obtain rfl := Option.some.inj h
    exact hv.setCard rfl
  · split at h
    · obtain rfl := Option.some.inj h
      exact hv.follows (follows_of_plain rfl rfl)
    · obtain rfl := Option.some.inj h
      exact hv.follows (follows_of_plain rfl rfl)
    · next hs =>
      obtain rfl := Option.some.inj h
      exact hv.updateCard (horderly _ (by rw [hs]; rfl))
    · obtain rfl := Option.some.inj h
      exact hv.follows (follows_of_plain rfl rfl)
    · next hs => exact hv.insertReminder hs h
    · next hs =>
      obtain rfl := Option.some.inj h
      exact hv.commitSweep (by rw [hs]; rfl) fun r hr => horderly.1 r (by rwa [hs])
    · obtain ⟨hids, h⟩ := Option.ite_none_right_eq_some.mp h
      obtain rfl := Option.some.inj h
      exact hv.follows (follows_draining (fun id hid => (hids id hid).1)
        fun _ _ _ _ _ _ _ _ hmem => .inl hmem)
    · next hs => exact hv.findReminders hs h
    · next hs =>
      obtain ⟨-, h⟩ := Option.ite_none_right_eq_some.mp h
      obtain rfl := Option.some.inj h
      exact hv.deleteReminders hs
    · next hs =>
      obtain rfl := Option.some.inj h
      exact hv.commitDrain hs fun r hr => horderly.2 r (by rwa [hs])
    · cases h

end

omit [DecidableEq S] in
theorem valid_initial (cards : CardId → Card) : Valid (initial cards : State S) where
  unwritten _ _ h := absurd h List.not_mem_nil
  apart _ _ _ _ h := absurd h List.not_mem_nil
  own _ := List.nodup_nil
  claimed _ _ h := absurd h List.not_mem_nil
  dispatched _ h := absurd h List.not_mem_nil
  once := List.nodup_nil
  past _ h := absurd h List.not_mem_nil
  accounted _ h := absurd h List.not_mem_nil

/-! ### A sweep at the end -/

section
variable {cardIds : List CardId} {σ : State S} {s : S}

theorem at_at (task task' : Task) : (σ.at s task).at s task' = σ.at s task' := by
  simp [State.at, Function.update_idem]

theorem dueDate_of_mem {cards : CardId → Card} {now : Int} {reminder : Reminder}
    (h : reminder ∈ dueReminders cardIds cards now) :
    (cards reminder.cardId).dueDate = some reminder.dueDate := by
  obtain ⟨cardId, -, h⟩ := List.mem_flatMap.mp h
  obtain ⟨dueDate, hdue, h⟩ := List.mem_flatMap.mp h
  obtain ⟨userId, -, rfl⟩ := List.mem_map.mp h
  exact (Option.filter_eq_some_iff.mp (Option.mem_toList.mp hdue)).1

variable [Fintype S]

/-- Alone, a sweep inserts a reminder unless its key is there. -/
theorem step_insertReminder (hidle : ∀ t, σ.task t = .idle) (reminder : Reminder)
    (todo written : List Reminder) :
    step cardIds (σ.at s (.sweeping (reminder :: todo) written)) (.run s .insertReminder) =
      some (σ.at s (.sweeping todo
        (if reminder.key ∈ (σ.notifications ++ written).map Reminder.key then written
          else written ++ [reminder]))) := by
  have hfree : ¬∃ t, t ≠ s ∧ reminder.key ∈
      ((((σ.at s (.sweeping (reminder :: todo) written)).task t).written ++
        ((σ.at s (.sweeping (reminder :: todo) written)).task t).gone).map Reminder.key) := by
    rintro ⟨t, hts, hmem⟩
    rw [at_of_ne hts, hidle t] at hmem
    exact List.not_mem_nil hmem
  simp only [step, at_self, insertReminder, if_neg hfree, at_at]
  rw [apply_ite fun written => some (σ.at s (.sweeping todo written))]
  rfl

/-- Alone, a sweep inserts what it has listed, but for those whose keys are there. -/
theorem run_insertReminder (cardIds : List CardId) (s : S) (hidle : ∀ t, σ.task t = .idle)
    (todo written : List Reminder) :
    ∃ written', StepSystem.run (step cardIds) (σ.at s (.sweeping todo written))
        (List.replicate todo.length (.run s .insertReminder)) =
          some (σ.at s (.sweeping [] written')) ∧
      written ⊆ written' ∧ written' ⊆ written ++ todo ∧
      ∀ reminder ∈ todo, reminder.key ∈ (σ.notifications ++ written').map Reminder.key := by
  induction todo generalizing written with
  | nil => exact ⟨written, rfl, fun _ h => h, by simp, by simp⟩
  | cons reminder todo ih =>
    generalize hnext : (if reminder.key ∈ (σ.notifications ++ written).map Reminder.key
      then written else written ++ [reminder]) = next
    have hsub : written ⊆ next ∧ next ⊆ written ++ [reminder] ∧
        reminder.key ∈ (σ.notifications ++ next).map Reminder.key := by
      subst hnext
      split
      · next hkey => exact ⟨fun _ h => h, List.subset_append_left .., hkey⟩
      · exact ⟨List.subset_append_left .., fun _ h => h, by simp⟩
    obtain ⟨written', hrun, hmore, hfrom, hkeys⟩ := ih next
    refine ⟨written', ?_, fun _ h => hmore (hsub.1 h), fun r h => ?_,
      List.forall_mem_cons.mpr ⟨?_, hkeys⟩⟩
    · rw [List.length_cons, List.replicate_succ, StepSystem.run_cons,
        step_insertReminder hidle, hnext]
      exact hrun
    · rw [List.append_cons]
      exact (List.mem_append.mp (hfrom h)).elim (fun h => List.mem_append_left _ (hsub.2.1 h))
        (List.mem_append_right _)
    · refine List.map_subset _ ?_ hsub.2.2
      exact List.append_subset.mpr ⟨List.subset_append_left ..,
        fun _ h => List.mem_append_right _ (hmore h)⟩

/-- When everybody has stopped, a sweep leaves everybody reminded. -/
theorem reminded_of_sweepPass (hv : Valid σ) (hstopped : Stopped σ) (s : S) (now : Int) :
    ∃ σ', StepSystem.run (step cardIds) σ (sweepPass cardIds σ s now) = some σ' ∧
      Reminded cardIds σ' now := by
  obtain ⟨hidle, hdispatched⟩ := hstopped
  obtain ⟨written, hrun, -, hfrom, hkeys⟩ :=
    run_insertReminder cardIds s hidle (dueReminders cardIds σ.cards now) []
  refine ⟨{ σ.at s .idle with
    notifications := σ.notifications ++ written, received := σ.received ++ written }, ?_, ?_⟩
  · have hselect : step cardIds σ (.run s (.selectDueCards now)) =
        some (σ.at s (.sweeping (dueReminders cardIds σ.cards now) [])) := by
      simp only [step, hidle s]
    rw [sweepPass, List.cons_append, StepSystem.run_cons, hselect, Option.bind_some,
      StepSystem.run_append, hrun, Option.bind_some, StepSystem.run_cons]
    simp only [step, at_self, at_at]
    rfl
  · -- what is there is for the date that the card is due, as the sweep's reminders are
    have hcurrent : ∀ r ∈ σ.notifications ++ written,
        (σ.cards r.cardId).dueDate = some r.dueDate := by
      intro r hr
      rcases List.mem_append.mp hr with hr | hr
      · refine (hv.accounted r hr).resolve_right ?_
        rintro ⟨id, event, hevent, -, -, hundispatched, -⟩
        exact hundispatched (hdispatched id (List.getElem?_eq_some_iff.mp hevent).1)
      · exact dueDate_of_mem (by simpa using hfrom hr)
    intro reminder hmem
    obtain ⟨r, hr, hkey⟩ := List.mem_map.mp (hkeys reminder hmem)
    have hdue : some r.dueDate = some reminder.dueDate := by
      rw [← hcurrent r hr, ← dueDate_of_mem hmem]
      exact congrArg (fun key => (σ.cards key.1).dueDate) hkey
    have hsame : r = reminder := by
      obtain ⟨cardId, userId, dueDate⟩ := r
      obtain ⟨hcard, huser⟩ := Prod.mk.inj hkey
      cases reminder
      simp_all
    exact hsame ▸ hr

end

/-- **Where all steps are orderly nobody is reminded twice of one due date of a card, and when all
has stopped and been dispatched, a sweep leaves each assignee of a card that is due reminded of its
due date.** -/
theorem reminded_once_of_orderly {S : Type} [DecidableEq S] [Fintype S] {cardIds : List CardId}
    {cards : CardId → Card} {σ : State S}
    (h : StepSystem.ReachableWhen (step cardIds) Orderly (initial cards) σ) :
    σ.received.Nodup ∧ (Stopped σ → ∀ s now,
      ∃ σ', StepSystem.run (step cardIds) σ (sweepPass cardIds σ s now) = some σ' ∧
        Reminded cardIds σ' now) := by
  have hv : Valid σ := h.invariant (valid_initial cards) valid_step
  exact ⟨hv.once, reminded_of_sweepPass hv⟩

/-! ### A card whose due date is moved -/

/-- A card that is due within a day, at an hour on the first day. -/
def card (dueDate : Int) : Card := ⟨some dueDate, ["u"], true, 1⟩

def hour (n : Int) : Int := n * 60 * 60 * 1000

def edit (s : Bool) (version : Nat) (n : Int) : List (Action Bool) :=
  [.run s (.loadCard "c"), .run s (.updateCard version (some (hour n)))]

def sweep (s : Bool) : List (Action Bool) :=
  [.run s (.selectDueCards 0), .run s .insertReminder, .run s .commit]

def project (s : Bool) (id : Nat) : List (Action Bool) :=
  [.run s (.claimPending [id]), .run s .findReminders, .run s .deleteReminders, .run s .commit]

instance (σ : State Bool) (a : Action Bool) : Decidable (Orderly σ a) :=
  match a with
  | .run s (.updateCard version _) =>
    inferInstanceAs (Decidable (∀ edit ∈ (σ.task s).edit, version = _ → _ → _ ∧ _))
  | .run _ .commit => inferInstanceAs (Decidable (_ ∧ _))
  | .assignCard .. | .setLive .. | .run _ (.loadCard _) | .run _ (.selectDueCards _)
  | .run _ .insertReminder | .run _ (.claimPending _) | .run _ .findReminders
  | .run _ .deleteReminders | .run _ .throw => isTrue trivial

/-- A reminder is sent, the date is moved, and the event is projected before the next sweep. -/
theorem reminded_once_of_orderly_moved :
    ∃ σ : State Bool, StepSystem.Reachable (step ["c"]) (initial fun _ => card (hour 2)) σ ∧
      σ.received.map Reminder.dueDate = [hour 2, hour 6] ∧ σ.received.Nodup := by
  have hsome : ((StepSystem.runWhen (step ["c"]) Orderly (initial fun _ => card (hour 2))
      (sweep true ++ edit false 1 6 ++ project true 0 ++ sweep false)).map
        fun σ : State Bool => σ.received.map Reminder.dueDate) = some [hour 2, hour 6] := by
    decide
  obtain ⟨σ, hrun, hreceived⟩ := Option.map_eq_some_iff.mp hsome
  have hreach := StepSystem.reachableWhen_of_runWhen hrun
  exact ⟨σ, hreach.mono fun _ _ _ => trivial, hreceived,
    (reminded_once_of_orderly hreach).1⟩

def lateProjection : List (Action Bool) :=
  edit true 1 6 ++ sweep false ++ project true 0 ++ sweep false

def lateSweep : List (Action Bool) :=
  .run false (.selectDueCards 0) :: edit true 1 6 ++ project true 0 ++
    [.run false .insertReminder, .run false .commit]

instance (σ : State Bool) : Decidable (Stopped σ) := inferInstanceAs (Decidable (_ ∧ _))

instance (σ : State Bool) (now : Int) : Decidable (Reminded ["c"] σ now) :=
  inferInstanceAs (Decidable (∀ reminder ∈ _, _))

/-- **A sweep between an edit and its projection sends a reminder of the new date, which the
projection deletes: the next sweep sends it again.  And a sweep that has read the old date before
the edit, and commits after its projection, leaves a reminder that no later sweep replaces.** -/
theorem reminded_twice_or_never :
    (∃ σ : State Bool, StepSystem.run (step ["c"]) (initial fun _ => card (hour 2))
        lateProjection = some σ ∧ ¬σ.received.Nodup) ∧
    ∃ σ σ' : State Bool, StepSystem.run (step ["c"]) (initial fun _ => card (hour 2))
        lateSweep = some σ ∧ Stopped σ ∧
      StepSystem.run (step ["c"]) σ (sweepPass ["c"] σ true 0) = some σ' ∧
        ¬Reminded ["c"] σ' 0 := by
  constructor
  · have hsome : ((StepSystem.run (step ["c"]) (initial fun _ => card (hour 2))
        lateProjection).map fun σ : State Bool => decide σ.received.Nodup) = some false := by
      decide
    obtain ⟨σ, hrun, htwice⟩ := Option.map_eq_some_iff.mp hsome
    exact ⟨σ, hrun, of_decide_eq_false htwice⟩
  · have hsome : ((StepSystem.run (step ["c"]) (initial fun _ => card (hour 2)) lateSweep).map
        fun σ : State Bool => (decide (Stopped σ),
          (StepSystem.run (step ["c"]) σ (sweepPass ["c"] σ true 0)).map fun σ' =>
            decide (Reminded ["c"] σ' 0))) = some (true, some false) := by
      decide
    obtain ⟨σ, hrun, hresult⟩ := Option.map_eq_some_iff.mp hsome
    obtain ⟨hstopped, hpass⟩ := Prod.mk.inj hresult
    obtain ⟨σ', hsweep, hnever⟩ := Option.map_eq_some_iff.mp hpass
    exact ⟨σ, σ', hrun, of_decide_eq_true hstopped, hsweep, of_decide_eq_false hnever⟩

end DueReminders
end TaskFlow
