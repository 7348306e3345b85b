import TaskFlow.SearchIndexer

/-! # Where the index converges

A document that does not say what its row does is accounted for: an event of the row is not
dispatched, and whoever has claimed it is to handle it yet; for a document that is archived and
should not be, or the other way round, an event of the channel will do.  That is the invariant
(`Valid`), and when all events are dispatched there is nothing left of it but the documents
(`indexed_of_current`).

A relay may break it, as it indexes a message as one that is not archived, whatever its channel, and
the text of it that was read before another relay had deleted the document (`archived_undone`).
-/
namespace TaskFlow
namespace SearchIndexer

variable {S : Type} [DecidableEq S]

section
variable {σ σ' : State S} {s t : S} {task : Task} {row : Row} {meant : Event → Bool}

theorem at_self : (σ.at s task).task s = task := Function.update_self ..

theorem at_of_ne (h : t ≠ s) : (σ.at s task).task t = σ.task t := Function.update_of_ne h ..

/-- A property of every session's task, and of the new one's. -/
theorem forall_at {P : Task → Prop} (h : ∀ t, P (σ.task t)) (htask : P task) (t : S) :
    P ((σ.at s task).task t) :=
  StepSystem.forall_update h htask t

/-! ### What is left -/

/-- What the relays have to do. -/
def State.todo (σ : State S) (t : S) : List Nat := (σ.task t).todo

theorem Event.concerns_of_changes {event : Event} (h : event.changes row) :
    event.concerns row := by
  cases event with
  | changed => exact h
  | channelArchived => cases h

/-- A session goes on to a task that has in it what it claims, or what was done before. -/
theorem Left.at (h : Left σ σ.todo meant) (htask : ∀ id ∈ task.claimed,
    id ∈ task.todo ∨ (id ∈ (σ.task s).claimed ∧ id ∉ (σ.task s).todo)) :
    Left (σ.at s task) (σ.at s task).todo meant := by
  obtain ⟨id, hid, hevent, hundispatched, hothers⟩ := h
  refine ⟨id, hid, hevent, hundispatched, ?_⟩
  refine forall_at (P := fun task => id ∈ task.claimed → id ∈ task.todo) hothers fun hmem => ?_
  exact (htask id hmem).resolve_right fun h => h.2 (hothers s h.1)

/-- What is left is not the event that a relay is at, if this is not one that is meant. -/
theorem Left.rest (h : Left σ σ.todo meant) {id : Nat} {event : Event} {todo : List Nat}
    (htodo : (σ.task s).todo = id :: todo) (hevent : σ.outbox[id]? = some event)
    (hnot : meant event = false) : Left σ (σ.rest s) meant := by
  obtain ⟨other, hother, ⟨event', hevent', hmeant⟩, hundispatched, hothers⟩ := h
  refine ⟨other, hother, ⟨event', hevent', hmeant⟩, hundispatched, fun t hmem => ?_⟩
  unfold State.rest
  split
  · next hts =>
    subst hts
    have hmem := hothers t hmem
    rw [State.todo, htodo] at hmem
    rw [htodo]
    refine (List.mem_cons.mp hmem).resolve_left ?_
    rintro rfl
    obtain rfl : event = event' := Option.some.inj (hevent.symm.trans hevent')
    exact absurd hmeant (by simp [hnot])
  · exact hothers t hmem

/-- A relay is done with the event that it is at. -/
theorem Left.next (h : Left σ (σ.rest s) meant) (hclaimed : task.claimed = (σ.task s).claimed)
    (htodo : task.todo = (σ.task s).todo.tail) :
    Left (σ.at s task) (σ.at s task).todo meant := by
  obtain ⟨id, hid, hevent, hundispatched, hothers⟩ := h
  refine ⟨id, hid, hevent, hundispatched, fun t hmem => ?_⟩
  have hleft := hothers t
  unfold State.todo
  by_cases hts : t = s
  · subst hts
    rw [at_self] at hmem ⊢
    rw [htodo]
    simpa [State.rest] using hleft (hclaimed ▸ hmem)
  · rw [at_of_ne hts] at hmem ⊢
    simpa [State.rest, hts] using hleft hmem

/-! ### What holds in every state -/

/-- What a relay has listed for its event is rows that the event concerns. -/
def Listed (σ : State S) (task : Task) : Prop :=
  ∀ event ∈ σ.event task, ∀ source ∈ task.reading.sources,
    ∃ row ∈ σ.rows, row.source = source ∧ event.concerns row

/-- A source has one row and one document at most, and the events that are claimed or dispatched are
there.  A row's document says what it is to say, or an event is left. -/
structure Valid (σ : State S) : Prop where
  rows : (σ.rows.map Row.source).Nodup
  unique : (σ.documents.map Document.source).Nodup
  claimed : ∀ s, ∀ id ∈ (σ.task s).claimed, id < σ.outbox.length
  todo : ∀ s, ∀ id ∈ (σ.task s).todo, id < σ.outbox.length
  listed : ∀ s, Listed σ (σ.task s)
  dispatched : ∀ id ∈ σ.dispatched, id < σ.outbox.length
  text : ∀ row ∈ σ.rows,
    (documentsOf σ.documents row.source).map Document.body = row.shown.toList ∨
      Left σ σ.todo (Event.changes · row)
  archived : ∀ row ∈ σ.rows,
    (∀ document ∈ documentsOf σ.documents row.source, document.archived = σ.hides row) ∨
      Left σ σ.todo (Event.concerns · row)

omit [DecidableEq S] in
theorem listed_of_nil (h : task.reading.sources = []) : Listed σ task := fun _ _ _ hmem => by
  rw [h] at hmem
  exact absurd hmem List.not_mem_nil

/-- A session goes on: what is in its hands is there, and what it claims is to be done. -/
theorem Valid.at (hv : Valid σ) (hclaimed : ∀ id ∈ task.claimed, id < σ.outbox.length)
    (htodo : ∀ id ∈ task.todo, id < σ.outbox.length) (hlisted : Listed σ task)
    (htask : ∀ id ∈ task.claimed,
      id ∈ task.todo ∨ (id ∈ (σ.task s).claimed ∧ id ∉ (σ.task s).todo)) :
    Valid (σ.at s task) where
  rows := hv.rows
  unique := hv.unique
  claimed := forall_at (P := fun task => ∀ id ∈ task.claimed, id < σ.outbox.length) hv.claimed
    hclaimed
  todo := forall_at (P := fun task => ∀ id ∈ task.todo, id < σ.outbox.length) hv.todo htodo
  listed := forall_at (P := Listed σ) hv.listed hlisted
  dispatched := hv.dispatched
  text row hrow := (hv.text row hrow).imp id fun h => h.at htask
  archived row hrow := (hv.archived row hrow).imp id fun h => h.at htask

/-- A session that is no relay. -/
theorem Valid.plain (hv : Valid σ) (hclaimed : task.claimed = []) (htodo : task.todo = [])
    (hsources : task.reading.sources = []) : Valid (σ.at s task) :=
  hv.at (by simp [hclaimed]) (by simp [htodo]) (listed_of_nil hsources) (by simp [hclaimed])

/-- What a request leaves: every row that there was, and an event of each row that it changes, and
of the row or of its channel where it changes whether the row is hidden. -/
structure Appends (σ σ' : State S) (event : Event) : Prop where
  documents : σ'.documents = σ.documents
  outbox : σ'.outbox = σ.outbox ++ [event]
  dispatched : σ'.dispatched = σ.dispatched
  task : σ'.task = σ.task
  rows : (σ'.rows.map Row.source).Nodup
  kept : ∀ row ∈ σ.rows, ∃ row' ∈ σ'.rows,
    row'.source = row.source ∧ row'.parentId = row.parentId
  changed : ∀ row ∈ σ'.rows, event.changes row ∨
    (row ∈ σ.rows ∧ (event.concerns row ∨ σ'.hides row = σ.hides row))

theorem Event.concerns_congr {row' : Row} (event : Event) (hsource : row'.source = row.source)
    (hparent : row'.parentId = row.parentId) : event.concerns row' = event.concerns row := by
  cases event <;> simp only [Event.concerns, Row.inChannel, hsource, hparent]

omit [DecidableEq S] in
theorem Appends.length_le {event : Event} (h : Appends σ σ' event) :
    σ.outbox.length ≤ σ'.outbox.length := by
  simp [h.outbox]

omit [DecidableEq S] in
theorem Appends.getElem? {event : Event} (h : Appends σ σ' event) {id : Nat}
    (hid : id < σ.outbox.length) : σ'.outbox[id]? = σ.outbox[id]? := by
  rw [h.outbox, List.getElem?_append_left hid]

omit [DecidableEq S] in
/-- The new event is left. -/
theorem Valid.left_appended {event : Event} (hv : Valid σ) (h : Appends σ σ' event)
    (hmeant : meant event) : Left σ' σ'.todo meant := by
  refine ⟨σ.outbox.length, by simp [h.outbox], ⟨event, by simp [h.outbox], hmeant⟩, ?_, ?_⟩
  · exact fun hmem => (hv.dispatched _ (h.dispatched ▸ hmem)).false
  · exact fun t hmem => absurd (hv.claimed t _ (h.task ▸ hmem)) (lt_irrefl _)

omit [DecidableEq S] in
theorem Left.appended {event : Event} (hleft : Left σ σ.todo meant) (h : Appends σ σ' event) :
    Left σ' σ'.todo meant := by
  obtain ⟨id, hid, ⟨event', hevent, hmeant⟩, hundispatched, hothers⟩ := hleft
  have hlt : id < σ.outbox.length := List.mem_range.mp hid
  refine ⟨id, List.mem_range.mpr (hlt.trans_le h.length_le),
    ⟨event', (h.getElem? hlt).trans hevent, hmeant⟩, h.dispatched ▸ hundispatched, ?_⟩
  unfold State.todo
  rw [h.task]
  exact hothers

omit [DecidableEq S] in
theorem Valid.append {event : Event} (hv : Valid σ) (h : Appends σ σ' event) : Valid σ' := by
  refine ⟨h.rows, h.documents ▸ hv.unique, ?_, ?_, ?_, ?_, fun row hrow => ?_,
    fun row hrow => ?_⟩
  · exact fun s id hid => (hv.claimed s id (h.task ▸ hid)).trans_le h.length_le
  · exact fun s id hid => (hv.todo s id (h.task ▸ hid)).trans_le h.length_le
  · intro s event' hevent source hsource
    rw [h.task] at hevent hsource
    obtain ⟨id, hid, hevent⟩ := Option.bind_eq_some_iff.mp hevent
    have hlt := hv.todo s id (List.mem_of_head? hid)
    obtain ⟨row, hrow, hof, hconcerns⟩ := hv.listed s event'
      (Option.bind_eq_some_iff.mpr ⟨id, hid, (h.getElem? hlt).symm.trans hevent⟩) source hsource
    obtain ⟨row', hrow', hsource', hparent⟩ := h.kept row hrow
    exact ⟨row', hrow', hsource'.trans hof,
      (event'.concerns_congr hsource' hparent).trans hconcerns⟩
  · exact fun id hid => (hv.dispatched id (h.dispatched ▸ hid)).trans_le h.length_le
  · rw [h.documents]
    rcases h.changed row hrow with hchanges | ⟨hrow, -⟩
    · exact .inr (hv.left_appended h hchanges)
    · exact (hv.text row hrow).imp id (·.appended h)
  · rw [h.documents]
    rcases h.changed row hrow with hchanges | ⟨hrow, hconcerns | hhides⟩
    · exact .inr (hv.left_appended h (Event.concerns_of_changes hchanges))
    · exact .inr (hv.left_appended h hconcerns)
    · rw [hhides]
      exact (hv.archived row hrow).imp id (·.appended h)

omit [DecidableEq S] in
/-- An UPDATE of a row of its own, with its event. -/
theorem appends_updateRow (hrows : (σ.rows.map Row.source).Nodup) {source : Source}
    {change : Change} {f : Row → Row} (hsource : ∀ row, (f row).source = row.source)
    (hparent : ∀ row, (f row).parentId = row.parentId) :
    Appends σ { σ with
      rows := updateRow σ.rows source f
      outbox := σ.outbox ++ [.changed source change] } (.changed source change) where
  documents := rfl
  outbox := rfl
  dispatched := rfl
  task := rfl
  rows := by
    have hmap : (updateRow σ.rows source f).map Row.source = σ.rows.map Row.source := by
      rw [updateRow, List.map_map]
      refine List.map_congr_left fun row _ => ?_
      rw [Function.comp_apply]
      split
      · exact hsource row
      · rfl
    exact hmap ▸ hrows
  kept row hrow := by
    refine ⟨_, List.mem_map_of_mem hrow, ?_⟩
    split
    · exact ⟨hsource row, hparent row⟩
    · exact ⟨rfl, rfl⟩
  changed row hrow := by
    obtain ⟨old, hold, hrow⟩ := List.mem_map.mp hrow
    split at hrow
    · next hof =>
      refine .inl (decide_eq_true ?_)
      rw [← hrow, hsource, hof]
    · exact .inr ⟨hrow ▸ hold, .inr rfl⟩

omit [DecidableEq S] in
theorem Valid.answer (hv : Valid σ) (request : Request) : Valid (answer σ request) := by
  cases request with
  | create source parentId bodyText =>
    simp only [SearchIndexer.answer]
    split
    · exact hv
    · next hfresh =>
      refine hv.append ⟨rfl, rfl, rfl, rfl, ?_, ?_, fun row hrow => ?_⟩
      · rw [List.map_append]
        exact hv.rows.append (List.nodup_singleton _) (List.disjoint_singleton.mpr hfresh)
      · exact fun row hrow => ⟨row, List.mem_append_left _ hrow, rfl, rfl⟩
      · rcases List.mem_append.mp hrow with hrow | hrow
        · exact .inr ⟨hrow, .inr rfl⟩
        · obtain rfl := List.mem_singleton.mp hrow
          exact .inl (decide_eq_true rfl)
  | edit source bodyText =>
    exact hv.append (appends_updateRow hv.rows (fun _ => rfl) fun _ => rfl)
  | delete source => exact hv.append (appends_updateRow hv.rows (fun _ => rfl) fun _ => rfl)
  | archiveChannel channelId restored =>
    refine hv.append ⟨rfl, rfl, rfl, rfl, hv.rows, fun row hrow => ⟨row, hrow, rfl, rfl⟩,
      fun row hrow => .inr ⟨hrow, ?_⟩⟩
    obtain ⟨source, parentId, bodyText, deleted⟩ := row
    cases source with
    | message id =>
      by_cases hchannel : parentId = channelId
      · exact .inl (decide_eq_true hchannel)
      · exact .inr (Function.update_of_ne hchannel ..)
    | cardComment id => exact .inr rfl
    | pageComment id => exact .inr rfl

variable {claimed todo : List Nat} {place : Nat} {reading : Reading} {event : Event}

/-- A relay that has done all that it has claimed marks it: nothing of it is left. -/
theorem Valid.mark (hv : Valid σ) (hs : σ.task s = .draining claimed [] reading) :
    Valid { σ.at s .idle with dispatched := σ.dispatched ++ claimed } := by
  have hclaimed : (σ.task s).claimed = claimed := by rw [hs]; rfl
  have hmark : ∀ meant : Event → Bool, Left σ σ.todo meant →
      Left { σ.at s .idle with dispatched := σ.dispatched ++ claimed }
        (σ.at s .idle).todo meant := by
    rintro meant ⟨id, hid, hevent, hundispatched, hothers⟩
    refine ⟨id, hid, hevent, fun h => ?_, ?_⟩
    · refine (List.mem_append.mp h).elim hundispatched fun h => ?_
      have hmem := hothers s (hclaimed ▸ h)
      rw [State.todo, hs] at hmem
      exact List.not_mem_nil hmem
    · exact forall_at (P := fun task => id ∈ task.claimed → id ∈ task.todo) hothers
        fun h => absurd h List.not_mem_nil
  have hidle : Valid (σ.at s .idle) := hv.plain rfl rfl rfl
  refine { hidle with
    dispatched := fun id hid => ?_
    text := fun row hrow => (hv.text row hrow).imp id (hmark _)
    archived := fun row hrow => (hv.archived row hrow).imp id (hmark _) }
  exact (List.mem_append.mp hid).elim (hv.dispatched id) fun h => hv.claimed s id (hclaimed ▸ h)

/-! ### A relay at an event -/

/-- Where the relay is at an event, a document of another row stays as it is accounted for. -/
theorem Valid.next (hv : Valid σ) (hs : σ.task s = .draining claimed (place :: todo) reading)
    (hevent : σ.outbox[place]? = some event) {documents : List Document}
    (hunique : (documents.map Document.source).Nodup)
    (hsame : ∀ row ∈ σ.rows, event.changes row = false →
      (documentsOf documents row.source).map Document.body =
        (documentsOf σ.documents row.source).map Document.body)
    (hsame' : ∀ row ∈ σ.rows, event.concerns row = false →
      documentsOf documents row.source = documentsOf σ.documents row.source)
    (htext : ∀ row ∈ σ.rows, event.changes row →
      (documentsOf documents row.source).map Document.body = row.shown.toList ∨
        Left σ (σ.rest s) (Event.changes · row))
    (harchived : ∀ row ∈ σ.rows, event.concerns row →
      (∀ document ∈ documentsOf documents row.source, document.archived = σ.hides row) ∨
        Left σ (σ.rest s) (Event.concerns · row)) :
    Valid { σ.at s (.draining claimed todo .none) with documents := documents } := by
  have htodo : (σ.task s).todo = place :: todo := by rw [hs]; rfl
  have hnext : ∀ meant : Event → Bool, Left σ (σ.rest s) meant →
      Left (σ.at s (.draining claimed todo .none))
        (σ.at s (.draining claimed todo .none)).todo meant := fun meant h =>
    h.next (by rw [hs]; rfl) (by rw [htodo]; rfl)
  refine ⟨hv.rows, hunique, ?_, ?_, ?_, hv.dispatched, fun row hrow => ?_, fun row hrow => ?_⟩
  · exact forall_at (P := fun task => ∀ id ∈ task.claimed, id < σ.outbox.length) hv.claimed
      fun id hid => hv.claimed s id (by rwa [hs])
  · exact forall_at (P := fun task => ∀ id ∈ task.todo, id < σ.outbox.length) hv.todo
      fun id hid => hv.todo s id (htodo ▸ List.mem_cons_of_mem _ hid)
  · exact forall_at (P := Listed σ) hv.listed (listed_of_nil rfl)
  · cases hchanges : event.changes row with
    | true => exact (htext row hrow hchanges).imp id (hnext _)
    | false =>
      refine (hv.text row hrow).imp (fun h => (hsame row hrow hchanges).trans h) fun h => ?_
      exact hnext _ (h.rest htodo hevent hchanges)
  · cases hconcerns : event.concerns row with
    | true => exact (harchived row hrow hconcerns).imp id (hnext _)
    | false =>
      refine (hv.archived row hrow).imp (fun h => ?_) fun h => ?_
      · exact (hsame' row hrow hconcerns).symm ▸ h
      · exact hnext _ (h.rest htodo hevent hconcerns)

omit [DecidableEq S] in
theorem event_draining : σ.event (.draining claimed (place :: todo) reading) = σ.outbox[place]? :=
  rfl

omit [DecidableEq S] in
theorem work_draining (hs : σ.task s = .draining claimed (place :: todo) reading)
    (hevent : σ.outbox[place]? = some event) : σ.work s = some (handleEvent event) := by
  rw [State.work, hs, event_draining, hevent]
  rfl

theorem Work.indexes_of_event {write : Source × Option String}
    (h : (handleEvent event).indexes reading = some write) :
    ∃ change, event = .changed write.1 change := by
  unfold handleEvent Work.indexes at h
  grind

theorem Work.archives_of_event {write : ChannelId × Bool × List (Source × String)}
    (h : (handleEvent event).archives reading = some write) :
    (∃ restored, event = .channelArchived write.1 restored) ∧
      reading = .documents write.2.2 := by
  unfold handleEvent Work.archives at h
  grind

/-- A document is written with what its row has, or an event is left. -/
theorem Valid.index (hv : Valid σ) (hs : σ.task s = .draining claimed (place :: todo) reading)
    (hevent : σ.outbox[place]? = some event) {newId : String} {source : Source}
    {bodyText : Option String}
    (hindexes : (handleEvent event).indexes reading = some (source, bodyText))
    (hcurrent : Current σ (.relay s (.commit newId))) :
    Valid { σ.at s (.draining claimed todo .none) with
      documents := indexSource σ.documents newId source bodyText } := by
  have hwrite := hcurrent.1 _ (work_draining hs hevent) (source, bodyText)
    (by rw [hs]; exact hindexes)
  obtain ⟨change, rfl⟩ := Work.indexes_of_event hindexes
  refine hv.next hs hevent (nodup_indexSource hv.unique) (fun row _ hother => ?_)
    (fun row _ hother => ?_) (fun row hrow hsame => ?_) fun row hrow hsame => ?_
  · rw [documentsOf_indexSource_of_ne (of_decide_eq_false hother)]
  · rw [documentsOf_indexSource_of_ne (of_decide_eq_false hother)]
  · have hsource : source = row.source := of_decide_eq_true hsame
    refine (hwrite row hrow hsource.symm).1.imp (fun hshown => ?_) id
    rw [← hsource, ← hshown]
    exact (documentsOf_indexSource_self hv.unique).1
  · have hsource : source = row.source := of_decide_eq_true hsame
    obtain ⟨hbodies, harchived⟩ : (documentsOf (indexSource σ.documents newId source bodyText)
        source).map Document.body = bodyText.toList ∧ _ := documentsOf_indexSource_self hv.unique
    rw [← hsource]
    rcases (hwrite row hrow hsource.symm).2 with rfl | hhides | hleft
    · refine .inl fun document hdocument => ?_
      have hmem : document.body ∈ List.map Document.body _ := List.mem_map_of_mem hdocument
      rw [hbodies] at hmem
      exact absurd hmem List.not_mem_nil
    · exact .inl fun document hdocument => (harchived document hdocument).trans hhides.symm
    · exact .inr hleft

/-- The documents of a channel are left as the channel is, or an event is left. -/
theorem Valid.propagate (hv : Valid σ)
    (hs : σ.task s = .draining claimed (place :: todo) reading)
    (hevent : σ.outbox[place]? = some event) {newId : String} {channelId : ChannelId}
    {archived : Bool} {keys : List (Source × String)}
    (harchives : (handleEvent event).archives reading = some (channelId, archived, keys))
    (hcurrent : Current σ (.relay s (.commit newId))) :
    Valid { σ.at s (.draining claimed todo .none) with
      documents := setArchived σ.documents keys archived } := by
  have hwrite := hcurrent.2 _ (work_draining hs hevent) (channelId, archived, keys)
    (by rw [hs]; exact harchives)
  obtain ⟨⟨restored, rfl⟩, rfl⟩ := Work.archives_of_event harchives
  refine hv.next hs hevent ?_ (fun row _ _ => ?_) (fun row hrow hother => ?_)
    (fun _ _ h => absurd h Bool.false_ne_true) fun row hrow hchannel => ?_
  · rw [map_source_setArchived]
    exact hv.unique
  · rw [documentsOf_setArchived, map_body_setArchived]
  · -- what was found is of rows that the event concerns
    rw [documentsOf_setArchived]
    refine setArchived_of_forall_notMem fun document hdocument hfound => ?_
    obtain ⟨row', hrow', hsource, hconcerns⟩ := hv.listed s _
      (by rw [hs, event_draining, hevent]; rfl) document.source
      (by rw [hs]; exact List.mem_map_of_mem hfound)
    have hsame : row' = row := List.inj_on_of_nodup_map hv.rows hrow' hrow
      (hsource.trans (mem_documentsOf.mp hdocument).2)
    rw [← hsame, hconcerns] at hother
    cases hother
  · refine (hwrite row hrow hchannel).imp (fun h document hdocument => ?_) id
    rw [documentsOf_setArchived] at hdocument
    obtain ⟨old, hold, rfl⟩ := List.mem_map.mp hdocument
    rw [← h old hold]
    split <;> rfl

/-- A relay reads on for its event. -/
theorem Valid.read (hv : Valid σ) (hs : σ.task s = .draining claimed (place :: todo) reading)
    {reading' : Reading} (hlisted : Listed σ (.draining claimed (place :: todo) reading')) :
    Valid (σ.at s (.draining claimed (place :: todo) reading')) := by
  refine hv.at (fun id hid => hv.claimed s id (by rwa [hs]))
    (fun id hid => hv.todo s id (by rwa [hs])) hlisted fun id hid => ?_
  rw [hs]
  exact (Decidable.em (id ∈ place :: todo)).imp_right fun h => ⟨hid, h⟩

theorem mem_messagesOf {rows : List Row} {channelId : ChannelId} {source : Source} :
    source ∈ messagesOf rows channelId ↔
      ∃ row ∈ rows, row.inChannel channelId ∧ row.source = source := by
  simp [messagesOf, and_assoc]

/-- The messages of a channel are listed, or there is none to be updated. -/
theorem Valid.select (hv : Valid σ) (hs : σ.task s = .draining claimed (place :: todo) reading)
    (hevent : σ.outbox[place]? = some event)
    (h : handle σ s claimed place todo reading (handleEvent event) .select = some σ') :
    Valid σ' := by
  simp only [handle] at h
  split at h
  · obtain rfl := Option.some.inj h
    exact hv.read hs (listed_of_nil rfl)
  · next channelId restored hwork =>
    obtain rfl : event = .channelArchived channelId restored := by
      unfold handleEvent at hwork
      grind
    split at h
    · next hnone =>
      obtain rfl := Option.some.inj h
      refine hv.next hs hevent hv.unique (fun _ _ _ => rfl) (fun _ _ _ => rfl)
        (fun _ _ h => absurd h Bool.false_ne_true) fun row hrow hchannel => ?_
      have hmem : row.source ∈ messagesOf σ.rows channelId :=
        (mem_messagesOf).mpr ⟨row, hrow, hchannel, rfl⟩
      rw [hnone] at hmem
      exact absurd hmem List.not_mem_nil
    · obtain rfl := Option.some.inj h
      refine hv.read hs fun event' hevent' source hsource => ?_
      obtain rfl := Option.some.inj (hevent.symm.trans hevent')
      obtain ⟨row, hrow, hchannel, hof⟩ := (mem_messagesOf).mp hsource
      exact ⟨row, hrow, hof, hchannel⟩
  · cases h

/-- The documents are found of what is listed. -/
theorem Valid.find (hv : Valid σ) (hs : σ.task s = .draining claimed (place :: todo) reading)
    {work : Work} (h : handle σ s claimed place todo reading work .findDocuments = some σ') :
    Valid σ' := by
  simp only [handle] at h
  split at h
  · obtain rfl := Option.some.inj h
    refine hv.read hs fun event' hevent' source hsource => ?_
    obtain ⟨key, hkey, rfl⟩ := List.mem_map.mp hsource
    obtain ⟨document, hdocument, rfl⟩ := List.mem_map.mp hkey
    have hlisted := hv.listed s
    rw [hs] at hlisted
    exact hlisted event' hevent' _ (of_decide_eq_true (List.mem_filter.mp hdocument).2)
  · cases h

theorem Valid.handle {statement : Statement} (hv : Valid σ)
    (hs : σ.task s = .draining claimed (place :: todo) reading)
    (hevent : σ.outbox[place]? = some event) (hcurrent : Current σ (.relay s statement))
    (h : handle σ s claimed place todo reading (handleEvent event) statement = some σ') :
    Valid σ' := by
  cases statement with
  | select => exact hv.select hs hevent h
  | findDocuments => exact hv.find hs h
  | commit newId =>
    simp only [SearchIndexer.handle] at h
    split at h
    · next hindexes =>
      obtain rfl := Option.some.inj h
      exact hv.index hs hevent hindexes hcurrent
    · next harchives =>
      obtain rfl := Option.some.inj h
      exact hv.propagate hs hevent harchives hcurrent
    · cases h
  | claimPending | markDispatched | throw => cases h

variable [Fintype S]

theorem valid_step {a : Action S} (hv : Valid σ) (hcurrent : Current σ a)
    (h : step σ a = some σ') : Valid σ' := by
  unfold step at h
  split at h
  · split at h
    · obtain rfl := Option.some.inj h
      split
      · exact hv.plain rfl rfl rfl
      · exact hv
    · cases h
  · split at h
    · obtain rfl := Option.some.inj h
      exact (hv.answer _).plain rfl rfl rfl
    · cases h
  · split at h
    · obtain rfl := Option.some.inj h
      exact hv.plain rfl rfl rfl
    · obtain ⟨hids, h⟩ := Option.ite_none_right_eq_some.mp h
      obtain rfl := Option.some.inj h
      exact hv.at (fun id hid => (hids id hid).1) (fun id hid => (hids id hid).1)
        (listed_of_nil rfl) fun _ hid => .inl hid
    · next hs =>
      obtain rfl := Option.some.inj h
      exact hv.mark hs
    · next hs _ =>
      obtain ⟨event, hevent, h⟩ := Option.bind_eq_some_iff.mp h
      exact hv.handle hs hevent hcurrent h
    · cases h

end

omit [DecidableEq S] in
theorem valid_initial : Valid (initial : State S) where
  rows := List.nodup_nil
  unique := List.nodup_nil
  claimed _ _ h := absurd h List.not_mem_nil
  todo _ _ h := absurd h List.not_mem_nil
  listed _ := listed_of_nil rfl
  dispatched _ h := absurd h List.not_mem_nil
  text _ h := absurd h List.not_mem_nil
  archived _ h := absurd h List.not_mem_nil

instance (σ : State S) (row : Row) : Decidable (Indexed σ row) :=
  decidable_of_iff (_ ∧ _) ⟨fun h => ⟨h.1, h.2⟩, fun h => ⟨h.1, h.2⟩⟩

instance (σ : State S) : Decidable (Converged σ) :=
  inferInstanceAs (Decidable (∀ row ∈ σ.rows, _))

instance [Fintype S] (σ : State S) (todo : S → List Nat) (meant : Event → Bool) :
    Decidable (Left σ todo meant) :=
  inferInstanceAs (Decidable (∃ id ∈ _, (∃ event ∈ σ.outbox[id]?, _) ∧ _ ∧ ∀ _, _))

instance [Fintype S] (σ : State S) (a : Action S) : Decidable (Current σ a) :=
  match a with
  | .relay _ (.commit _) =>
    inferInstanceAs (Decidable ((∀ work ∈ _, ∀ write ∈ _, ∀ row ∈ _, _ → _ ∧ _) ∧
      ∀ work ∈ _, ∀ write ∈ _, ∀ row ∈ _, _ → (∀ document ∈ _, _) ∨ _))
  | .load .. | .save _ | .relay _ (.claimPending _) | .relay _ .select | .relay _ .findDocuments
  | .relay _ .markDispatched | .relay _ .throw => isTrue trivial

def greeting : Source := .message "m"

def request (s : Bool) (request : Request) : List (Action Bool) := [.load s request, .save s]

def relay (s : Bool) (statements : List Statement) : List (Action Bool) := statements.map (.relay s)

def sends : List (Action Bool) := request true (.create greeting "c" "Hello")

def edits : List (Action Bool) := request true (.edit greeting "Hello all")

def archives : List (Action Bool) := request true (.archiveChannel "c" false)

/-- The events are dispatched, and what is stored at the end. -/
def ending (σ : State Bool) : Bool × List (String × Bool) × Bool :=
  ((List.range σ.outbox.length).all (· ∈ σ.dispatched),
    σ.documents.map fun document => (document.body, document.archived), Converged σ)

omit [DecidableEq S] in
theorem dispatched_of_all {σ : State S}
    (h : (List.range σ.outbox.length).all (· ∈ σ.dispatched)) :
    ∀ id, id < σ.outbox.length → id ∈ σ.dispatched := by
  simpa using h

end SearchIndexer
end TaskFlow
