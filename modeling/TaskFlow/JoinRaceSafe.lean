import TaskFlow.JoinRace

/-! # No stale room after a race

The invariant: a join in flight is still allowed or has a sweep of its socket
before it that is yet to take its snapshot; a room a socket is in is on record,
or about to be, and is still allowed or ahead of a sweep that will look at it.
Once everything is finished no sweep is ahead of anything.
-/
namespace TaskFlow
namespace JoinRace
open Policy Tenancy Rooms Gateway AccessChanges StepSystem

/-- The sweep has still to look at the entry, or is about to leave it. -/
def SweepPhase.Ahead (phase : SweepPhase) (entry : String × OrgId) : Prop :=
  match phase with
  | .waiting => True
  | .sweeping rest => entry ∈ rest
  | .leaving id rest => entry.1 = id ∨ entry ∈ rest

variable {S J : Type}

/-- A sweep about the user of the socket will look at the entry. -/
def Doomed (setup : Setup S J) (state : State S J) (s : S) (entry : String × OrgId) : Prop :=
  ∃ index message, state.message index = some message ∧
    Covers message entry.2 (setup.identity s).userId ∧ (state.sweeps index s).Ahead entry

/-- The entry is on the record of the socket, or a join that has entered the room
is about to put it there. -/
def Tracked (setup : Setup S J) (state : State S J) (s : S) (entry : String × OrgId) : Prop :=
  entry ∈ (state.sockets s).rooms ∨
    ∃ j, state.joins j = .entered ∧ setup.join j = ⟨s, entry.2, entry.1⟩

structure Settled (setup : Setup S J) (state : State S J) : Prop where
  identity : ∀ s, (state.sockets s).identity = setup.identity s
  fresh : ∀ index, state.outbox.length ≤ index → ∀ s, state.sweeps index s = .waiting
  record : ∀ s, ∀ entry ∈ (state.sockets s).rooms,
    roomOrg state.db ((setup.ns s).room entry.1) = some entry.2
  flight : ∀ j, (state.joins j).InFlight →
    roomOrg state.db (setup.room j) = some (setup.join j).orgId ∧
      (MayStay setup state (setup.join j).socket (setup.join j).orgId (setup.room j) ∨
        PendingBut setup state none (setup.join j).socket (setup.join j).orgId)
  joined : ∀ s, ∀ room ∈ (state.sockets s).joined, ∃ entry, room = (setup.ns s).room entry.1 ∧
    roomOrg state.db room = some entry.2 ∧ Tracked setup state s entry ∧
      (MayStay setup state s entry.2 room ∨ Doomed setup state s entry)

variable {setup : Setup S J} {state : State S J} {s : S} {j : J} {index : Nat}

theorem settled_initial (setup : Setup S J) (db : Db) : Settled setup (initial setup db) where
  identity _ := rfl
  fresh _ _ _ := rfl
  record _ _ h := absurd h List.not_mem_nil
  flight _ h := by rcases h with h | h <;> cases h
  joined _ _ h := absurd h List.not_mem_nil

theorem PendingBut.doomed {except : Option Nat} {entry : String × OrgId}
    (h : PendingBut setup state except s entry.2) : Doomed setup state s entry := by
  obtain ⟨index, message, -, hmessage, hcovers, hwaiting⟩ := h
  exact ⟨index, message, hmessage, hcovers, by rw [hwaiting]; trivial⟩

theorem allows_iff (h : Settled setup state) {orgId : OrgId} {id : String} :
    state.allows setup s orgId id = true ↔
      MayStay setup state s orgId ((setup.ns s).room id) := by
  unfold State.allows MayStay
  rw [h.identity, stillAllowed_iff]

/-! ### A change -/

theorem message_of_append {state' : State S J} {rows : List OutboxRow}
    (houtbox : state'.outbox = state.outbox ++ rows) {message : RevocationMessage}
    (h : state.message index = some message) : state'.message index = some message := by
  obtain ⟨row, hrow, hmessage⟩ := Option.bind_eq_some_iff.mp h
  have hlt := (List.getElem?_eq_some_iff.mp hrow).1
  unfold State.message
  rw [houtbox, List.getElem?_append_left hlt, hrow]
  exact hmessage

theorem settled_commit {request : Request} {change : Change} (h : Settled setup state)
    (hcommit : commit setup.users state.db request = .ok change)
    (hguard : request.announced = true ∨
      ∀ orgId userId room, ¬ Closes state.db setup.now change orgId userId room) :
    Settled setup { state with db := change.db, outbox := state.outbox ++ change.events } := by
  set next : State S J := { state with db := change.db, outbox := state.outbox ++ change.events }
  have hsame := commit_sameObjects hcommit
  have hpending : ∀ s orgId, PendingBut setup state none s orgId →
      PendingBut setup next none s orgId := by
    rintro s orgId ⟨index, message, hne, hmessage, hcovers, hwaiting⟩
    exact ⟨index, message, hne, message_of_append rfl hmessage, hcovers, hwaiting⟩
  -- what the change takes away, it asks about in an event of its own
  have hmay : ∀ s orgId room, MayStay setup state s orgId room →
      MayStay setup next s orgId room ∨ PendingBut setup next none s orgId := by
    intro s orgId room hbefore
    by_cases hafter : MayStay setup next s orgId room
    · exact .inl hafter
    · have hcloses : Closes state.db setup.now change orgId (setup.identity s).userId room :=
        ⟨hbefore, hafter⟩
      have hannounced := hguard.resolve_right fun hnone => hnone _ _ _ hcloses
      obtain ⟨message, hmessages, hcovers⟩ := commit_asks hcommit hannounced hcloses
      obtain ⟨row, hrow, hmessage⟩ : ∃ row ∈ change.events, revocationOf row = some message :=
        List.mem_filterMap.mp (by rw [← Change.messages, hmessages]; exact List.mem_singleton_self _)
      obtain ⟨k, hk⟩ := List.mem_iff_getElem?.mp hrow
      refine .inr ⟨state.outbox.length + k, message, Option.some_ne_none _, ?_, hcovers,
        h.fresh _ (Nat.le_add_right _ _) s⟩
      change (state.outbox ++ change.events)[state.outbox.length + k]?.bind revocationOf = _
      rw [List.getElem?_append_right (Nat.le_add_right _ _), Nat.add_sub_cancel_left, hk]
      exact hmessage
  refine { identity := h.identity, fresh := ?_, record := ?_, flight := ?_, joined := ?_ }
  · intro index hindex
    refine h.fresh index (le_trans ?_ hindex)
    change _ ≤ (state.outbox ++ change.events).length
    rw [List.length_append]
    exact Nat.le_add_right _ _
  · intro s entry hentry
    exact (hsame.roomOrg _).trans (h.record s entry hentry)
  · intro k hk
    obtain ⟨horg, hcase⟩ := h.flight k hk
    refine ⟨(hsame.roomOrg _).trans horg, ?_⟩
    rcases hcase with hcase | hcase
    · exact hmay _ _ _ hcase
    · exact .inr (hpending _ _ hcase)
  · intro s room hroom
    obtain ⟨entry, hentry, horg, htracked, hcase⟩ := h.joined s room hroom
    refine ⟨entry, hentry, (hsame.roomOrg _).trans horg, htracked, ?_⟩
    rcases hcase with hcase | ⟨index, message, hmessage, hcovers, hahead⟩
    · exact (hmay _ _ _ hcase).imp_right PendingBut.doomed
    · exact .inr ⟨index, message, message_of_append rfl hmessage, hcovers, hahead⟩

/-! ### The steps of a join -/

variable [DecidableEq S] [DecidableEq J]

omit [DecidableEq J] in
/-- A part that the new socket has in common with the old one is left as it was. -/
theorem setSocket_part {α : Type} (part : Socket → α) {socket : Socket}
    (h : part socket = part (state.sockets s)) (t : S) :
    part ((state.setSocket s socket).sockets t) = part (state.sockets t) := by
  rw [setSocket_sockets]
  split_ifs with ht
  · rw [h, ht]
  · rfl

omit [DecidableEq S] in
theorem settled_authorize (h : Settled setup state) (hasked : state.joins j = .asked) :
    Settled setup (state.setJoin j
      (if state.allows setup (setup.join j).socket (setup.join j).orgId (setup.join j).id then
        .authorized else .refused)) where
  identity := h.identity
  fresh := h.fresh
  record := h.record
  flight k hk := by
    by_cases hkj : k = j
    · subst hkj
      rw [setJoin_self] at hk
      split_ifs at hk with hallows
      · have hmay := (allows_iff h).mp hallows
        exact ⟨hmay.roomOrg, .inl hmay⟩
      · rcases hk with hk | hk <;> cases hk
    · rw [setJoin_of_ne hkj] at hk
      exact h.flight k hk
  joined s room hroom := by
    obtain ⟨entry, hentry, horg, htracked, hcase⟩ := h.joined s room hroom
    refine ⟨entry, hentry, horg, htracked.imp_right ?_, hcase⟩
    rintro ⟨k, hk, hjoin⟩
    refine ⟨k, ?_, hjoin⟩
    rw [setJoin_of_ne, hk]
    rintro rfl
    rw [hasked] at hk
    cases hk

theorem settled_enter (h : Settled setup state) (hauthorized : state.joins j = .authorized) :
    Settled setup ((state.setSocket (setup.join j).socket
      ((state.sockets (setup.join j).socket).enter (setup.room j))).setJoin j .entered) := by
  set next := (state.setSocket (setup.join j).socket
    ((state.sockets (setup.join j).socket).enter (setup.room j))).setJoin j .entered with hnext
  have hsockets : ∀ s, next.sockets s = if s = (setup.join j).socket then
      (state.sockets (setup.join j).socket).enter (setup.room j) else state.sockets s :=
    fun s => setSocket_sockets state _ s _
  have hidentity : ∀ s, (next.sockets s).identity = (state.sockets s).identity :=
    setSocket_part Socket.identity rfl
  have hrooms : ∀ s, (next.sockets s).rooms = (state.sockets s).rooms :=
    setSocket_part Socket.rooms rfl
  have hentered : next.joins j = .entered := setJoin_self _ _ _
  have hjoins : ∀ k, k ≠ j → next.joins k = state.joins k := fun k hkj => setJoin_of_ne hkj
  have htracked : ∀ s entry, Tracked setup state s entry → Tracked setup next s entry := by
    rintro s entry (hmem | ⟨k, hk, hjoin⟩)
    · exact .inl (by rwa [hrooms])
    · refine .inr ⟨k, ?_, hjoin⟩
      by_cases hkj : k = j
      · rwa [hkj]
      · rwa [hjoins k hkj]
  obtain ⟨horg, hcase⟩ := h.flight j (.inl hauthorized)
  refine { identity := ?_, fresh := h.fresh, record := ?_, flight := ?_, joined := ?_ }
  · exact fun s => (hidentity s).trans (h.identity s)
  · intro s entry hentry
    rw [hrooms] at hentry
    exact h.record s entry hentry
  · intro k hk
    by_cases hkj : k = j
    · subst hkj
      exact ⟨horg, hcase⟩
    · rw [hjoins k hkj] at hk
      exact h.flight k hk
  · intro s room hroom
    rw [hsockets] at hroom
    split_ifs at hroom with hs
    · rcases List.mem_cons.mp hroom with rfl | hold
      · subst hs
        refine ⟨((setup.join j).id, (setup.join j).orgId), rfl, horg, .inr ⟨j, hentered, rfl⟩, ?_⟩
        exact hcase.imp_right PendingBut.doomed
      · subst hs
        obtain ⟨entry, hentry, horg, ht, hcase⟩ := h.joined _ room hold
        exact ⟨entry, hentry, horg, htracked _ _ ht, hcase⟩
    · obtain ⟨entry, hentry, horg, ht, hcase⟩ := h.joined _ room hroom
      exact ⟨entry, hentry, horg, htracked _ _ ht, hcase⟩

theorem settled_record (h : Settled setup state) (hentered : state.joins j = .entered) :
    Settled setup ((state.setSocket (setup.join j).socket
      ((state.sockets (setup.join j).socket).record (setup.join j).id
        (setup.join j).orgId)).setJoin j .recorded) := by
  set next := (state.setSocket (setup.join j).socket
    ((state.sockets (setup.join j).socket).record (setup.join j).id
      (setup.join j).orgId)).setJoin j .recorded with hnext
  have hsockets : ∀ s, next.sockets s = if s = (setup.join j).socket then
      (state.sockets (setup.join j).socket).record (setup.join j).id (setup.join j).orgId
      else state.sockets s := fun s => setSocket_sockets state _ s _
  have hrooms : ∀ s entry, entry ∈ (next.sockets s).rooms ↔
      s = (setup.join j).socket ∧ entry = ((setup.join j).id, (setup.join j).orgId) ∨
        ¬ (s = (setup.join j).socket ∧ entry.1 = (setup.join j).id) ∧
          entry ∈ (state.sockets s).rooms := by
    intro s entry
    rw [hsockets]
    split_ifs with hs
    · rw [hs]
      simp only [Socket.record, mem_setRoom, true_and]
    · simp only [hs, false_and, false_or, not_false_eq_true, true_and]
  have hidentity : ∀ s, (next.sockets s).identity = (state.sockets s).identity :=
    setSocket_part Socket.identity rfl
  have hjoined : ∀ s, (next.sockets s).joined = (state.sockets s).joined :=
    setSocket_part Socket.joined rfl
  have hjoins : ∀ k, k ≠ j → next.joins k = state.joins k := fun k hkj => setJoin_of_ne hkj
  obtain ⟨horg, -⟩ := h.flight j (.inr hentered)
  -- an entry of the same room has the same organization, so nothing is lost
  have htracked : ∀ s entry, roomOrg state.db ((setup.ns s).room entry.1) = some entry.2 →
      Tracked setup state s entry → Tracked setup next s entry := by
    rintro s ⟨id, orgId⟩ hentry (hmem | ⟨k, hk, hjoin⟩)
    · refine .inl ((hrooms s _).mpr ?_)
      by_cases hsame : s = (setup.join j).socket ∧ id = (setup.join j).id
      · obtain ⟨rfl, rfl⟩ := hsame
        rw [Setup.room, hentry] at horg
        exact .inl ⟨rfl, Prod.ext rfl (Option.some.inj horg)⟩
      · exact .inr ⟨hsame, hmem⟩
    · by_cases hkj : k = j
      · subst hkj
        exact .inl ((hrooms s _).mpr (.inl ⟨by rw [hjoin], by rw [hjoin]⟩))
      · exact .inr ⟨k, by rwa [hjoins k hkj], hjoin⟩
  refine { identity := ?_, fresh := h.fresh, record := ?_, flight := ?_, joined := ?_ }
  · exact fun s => (hidentity s).trans (h.identity s)
  · intro s entry hentry
    rcases (hrooms s entry).mp hentry with ⟨rfl, rfl⟩ | ⟨-, hmem⟩
    · exact horg
    · exact h.record s entry hmem
  · intro k hk
    by_cases hkj : k = j
    · subst hkj
      rw [hnext, setJoin_self] at hk
      rcases hk with hk | hk <;> cases hk
    · rw [hjoins k hkj] at hk
      exact h.flight k hk
  · intro s room hroom
    rw [hjoined] at hroom
    obtain ⟨entry, rfl, horg, ht, hcase⟩ := h.joined s room hroom
    exact ⟨entry, rfl, horg, htracked s entry horg ht, hcase⟩

/-! ### The steps of a sweep -/

theorem mem_entriesOf {message : RevocationMessage} {socket : Socket} {entry : String × OrgId}
    (hcovers : Covers message entry.2 socket.identity.userId) (hmem : entry ∈ socket.rooms) :
    entry ∈ entriesOf message socket := by
  have hfilter : entry ∈ socket.rooms.filter fun e => e.2 = entry.2 :=
    List.mem_filter.mpr ⟨hmem, decide_eq_true rfl⟩
  cases message with
  | session sessionId reason => exact hcovers.elim
  | member_removed orgId userId =>
    obtain ⟨rfl, rfl⟩ := hcovers
    simpa [entriesOf] using hfilter
  | recheck_user orgId userId =>
    obtain ⟨rfl, rfl⟩ := hcovers
    simpa [entriesOf] using hfilter
  | recheck_org orgId =>
    obtain rfl := hcovers
    exact hfilter

omit [DecidableEq J] in
theorem PendingBut.setSweep {t : S} {orgId : OrgId} {except : Option Nat} {phase : SweepPhase}
    (h : PendingBut setup state except t orgId)
    (hother : t = s → some index = except ∨ state.sweeps index s ≠ .waiting) :
    PendingBut setup (state.setSweep index s phase) none t orgId := by
  obtain ⟨other, message, hne, hmessage, hcovers, hwaiting⟩ := h
  refine ⟨other, message, nofun, hmessage, hcovers, ?_⟩
  rw [setSweep_of_ne, hwaiting]
  rintro ⟨rfl, rfl⟩
  rcases hother rfl with hexcept | hnot
  · exact hne hexcept
  · exact hnot hwaiting

omit [DecidableEq J] in
/-- What is ahead of one sweep stays ahead of it, unless it is the sweep that
moves on. -/
theorem Doomed.setSweep {t : S} {entry : String × OrgId} {message : RevocationMessage}
    (h : Doomed setup state t entry) (s : S) (phase : SweepPhase)
    (hmessage : state.message index = some message) : Doomed setup (state.setSweep index s phase) t entry ∨
      t = s ∧ Covers message entry.2 (setup.identity s).userId ∧
        (state.sweeps index s).Ahead entry ∧ ¬ phase.Ahead entry := by
  obtain ⟨other, about, habout, hcovers, hahead⟩ := h
  by_cases hsame : other = index ∧ t = s
  · obtain ⟨rfl, rfl⟩ := hsame
    rw [hmessage] at habout
    obtain rfl := Option.some.inj habout
    by_cases hphase : phase.Ahead entry
    · exact .inl ⟨other, message, hmessage, hcovers, by rwa [setSweep_self]⟩
    · exact .inr ⟨rfl, hcovers, hahead, hphase⟩
  · exact .inl ⟨other, about, habout, hcovers, by rwa [setSweep_of_ne hsame]⟩

omit [DecidableEq S] [DecidableEq J] in
theorem index_lt {message : RevocationMessage} (h : state.message index = some message) :
    index < state.outbox.length := by
  obtain ⟨row, hrow, -⟩ := Option.bind_eq_some_iff.mp h
  exact (List.getElem?_eq_some_iff.mp hrow).1

omit [DecidableEq J] in
theorem settled_snapshot {message : RevocationMessage} (h : Settled setup state)
    (hmessage : state.message index = some message)
    (hguard : ∀ j, (setup.join j).socket = s → (state.joins j).InFlight →
      MayStay setup state s (setup.join j).orgId (setup.room j) ∨
        PendingBut setup state (some index) s (setup.join j).orgId) :
    Settled setup
      (state.setSweep index s (.sweeping (entriesOf message (state.sockets s)))) where
  identity := h.identity
  fresh other hother t := by
    rw [setSweep_of_ne]
    · exact h.fresh other hother t
    · rintro ⟨rfl, -⟩
      exact absurd (index_lt hmessage) (not_lt.mpr hother)
  record := h.record
  flight k hk := by
    obtain ⟨horg, hcase⟩ := h.flight k hk
    refine ⟨horg, ?_⟩
    by_cases hs : (setup.join k).socket = s
    · rcases hguard k hs hk with hmay | hpending
      · exact .inl (by rw [hs]; exact hmay)
      · exact .inr (by rw [hs]; exact hpending.setSweep fun _ => .inl rfl)
    · exact hcase.imp_right fun hpending => hpending.setSweep fun heq => absurd heq hs
  joined t room hroom := by
    obtain ⟨entry, hentry, horg, htracked, hcase⟩ := h.joined t room hroom
    refine ⟨entry, hentry, horg, htracked, ?_⟩
    rcases hcase with hmay | hdoomed
    · exact .inl hmay
    rcases hdoomed.setSweep s (.sweeping (entriesOf message (state.sockets s))) hmessage with
      hkept | ⟨rfl, hcovers, -, hgone⟩
    · exact .inr hkept
    rcases htracked with hmem | ⟨k, hk, hjoin⟩
    · rw [← h.identity] at hcovers
      exact absurd (mem_entriesOf hcovers hmem) hgone
    · have hsame : (setup.join k).orgId = entry.2 ∧ setup.room k = room := by
        rw [Setup.room, hjoin, hentry]
        exact ⟨rfl, rfl⟩
      have hguarded := hguard k (by rw [hjoin]) (.inr hk)
      rw [hsame.1, hsame.2] at hguarded
      exact hguarded.imp_right fun hpending => (hpending.setSweep fun _ => .inl rfl).doomed

omit [DecidableEq J] in
/-- A sweep that has taken its snapshot moves on, past no room that the socket is
in and its user may not join. -/
theorem settled_moveOn {message : RevocationMessage} {phase : SweepPhase}
    (h : Settled setup state) (hmessage : state.message index = some message)
    (hbusy : state.sweeps index s ≠ .waiting)
    (hpast : ∀ entry, (setup.ns s).room entry.1 ∈ (state.sockets s).joined →
      (state.sweeps index s).Ahead entry → ¬ phase.Ahead entry →
        MayStay setup state s entry.2 ((setup.ns s).room entry.1)) :
    Settled setup (state.setSweep index s phase) where
  identity := h.identity
  fresh other hother t := by
    rw [setSweep_of_ne]
    · exact h.fresh other hother t
    · rintro ⟨rfl, -⟩
      exact absurd (index_lt hmessage) (not_lt.mpr hother)
  record := h.record
  flight k hk := by
    obtain ⟨horg, hcase⟩ := h.flight k hk
    exact ⟨horg, hcase.imp_right fun hpending => hpending.setSweep fun _ => .inr hbusy⟩
  joined t room hroom := by
    obtain ⟨entry, hentry, horg, htracked, hcase⟩ := h.joined t room hroom
    refine ⟨entry, hentry, horg, htracked, ?_⟩
    rcases hcase with hmay | hdoomed
    · exact .inl hmay
    rcases hdoomed.setSweep s phase hmessage with hkept | ⟨rfl, -, hahead, hgone⟩
    · exact .inr hkept
    · subst hentry
      exact .inl (hpast entry hroom hahead hgone)

omit [DecidableEq J] in
theorem settled_recheck {message : RevocationMessage} {entry : String × OrgId}
    {rest : List (String × OrgId)} {phase : SweepPhase} (h : Settled setup state)
    (hmessage : state.message index = some message)
    (hphase : state.sweeps index s = .sweeping (entry :: rest))
    (hnext : phase = .leaving entry.1 rest ∨ phase = .sweeping rest ∧
      state.allows setup s entry.2 entry.1 = true) :
    Settled setup (state.setSweep index s phase) := by
  apply settled_moveOn h hmessage (by rw [hphase]; nofun)
  intro other _ hahead hgone
  rw [hphase] at hahead
  rcases hnext with rfl | ⟨rfl, hallows⟩
  · refine absurd ?_ hgone
    rcases List.mem_cons.mp hahead with rfl | hrest
    · exact .inl rfl
    · exact .inr hrest
  · rcases List.mem_cons.mp hahead with rfl | hrest
    · exact (allows_iff h).mp hallows
    · exact absurd hrest hgone

omit [DecidableEq J] in
theorem settled_leaveRoom (h : Settled setup state) (s : S) (id : String) :
    Settled setup (state.setSocket s ((state.sockets s).leave (setup.ns s) id)) := by
  set next := state.setSocket s ((state.sockets s).leave (setup.ns s) id)
  have hsockets : ∀ t, next.sockets t =
      if t = s then (state.sockets s).leave (setup.ns s) id else state.sockets t :=
    fun t => setSocket_sockets state s t _
  have hrooms : ∀ t entry, entry ∈ (next.sockets t).rooms ↔
      entry ∈ (state.sockets t).rooms ∧ ¬ (t = s ∧ entry.1 = id) := by
    intro t entry
    rw [hsockets]
    split_ifs with ht
    · rw [ht]
      simp [Socket.leave]
    · simp [ht]
  have hidentity : ∀ t, (next.sockets t).identity = (state.sockets t).identity :=
    setSocket_part Socket.identity rfl
  have hjoined : ∀ t room, room ∈ (next.sockets t).joined ↔
      room ∈ (state.sockets t).joined ∧ ¬ (t = s ∧ room = (setup.ns s).room id) := by
    intro t room
    rw [hsockets]
    split_ifs with ht
    · rw [ht]
      simp
    · simp [ht]
  refine { identity := ?_, fresh := h.fresh, record := ?_, flight := h.flight, joined := ?_ }
  · exact fun t => (hidentity t).trans (h.identity t)
  · intro t entry hentry
    exact h.record t entry ((hrooms t entry).mp hentry).1
  · intro t room hroom
    obtain ⟨hold, hnot⟩ := (hjoined t room).mp hroom
    obtain ⟨entry, rfl, horg, htracked, hcase⟩ := h.joined t room hold
    refine ⟨entry, rfl, horg, htracked.imp_left fun hmem => (hrooms t entry).mpr ⟨hmem, ?_⟩, hcase⟩
    rintro ⟨rfl, rfl⟩
    exact hnot ⟨rfl, rfl⟩

omit [DecidableEq J] in
/-- Leaving a room takes the socket out of it and its entry off the record. -/
theorem settled_leave {id : String} {rest : List (String × OrgId)}
    {message : RevocationMessage} (h : Settled setup state)
    (hmessage : state.message index = some message)
    (hphase : state.sweeps index s = .leaving id rest) :
    Settled setup ((state.setSocket s ((state.sockets s).leave (setup.ns s) id)).setSweep index s
      (.sweeping rest)) := by
  refine settled_moveOn (settled_leaveRoom h s id) hmessage ?_ fun entry hroom hahead hgone => ?_
  · intro hwaiting
    cases hphase.symm.trans hwaiting
  · have hleaving : (SweepPhase.leaving id rest).Ahead entry := hphase ▸ hahead
    rcases hleaving with rfl | hrest
    · rw [setSocket_sockets, if_pos rfl] at hroom
      exact absurd rfl (mem_leave_joined.mp hroom).2
    · exact absurd hrest hgone

/-! ### The run -/

theorem settled_step {action : Action S J} {state' : State S J} (h : Settled setup state)
    (hguard : SnapshotsSettled setup state action)
    (hstep : step setup state action = some state') : Settled setup state' := by
  cases action with
  | authorize j =>
    obtain ⟨hphase, hstep⟩ := Option.ite_none_right_eq_some.mp hstep
    obtain rfl := Option.some.inj hstep
    exact settled_authorize h hphase
  | enter j =>
    obtain ⟨hphase, hstep⟩ := Option.ite_none_right_eq_some.mp hstep
    obtain rfl := Option.some.inj hstep
    exact settled_enter h hphase
  | record j =>
    obtain ⟨hphase, hstep⟩ := Option.ite_none_right_eq_some.mp hstep
    obtain rfl := Option.some.inj hstep
    exact settled_record h hphase
  | commit request =>
    simp only [step] at hstep
    cases hcommit : commit setup.users state.db request with
    | error failure => simp [hcommit] at hstep
    | ok change =>
      rw [hcommit] at hstep
      obtain rfl := Option.some.inj hstep
      exact settled_commit h hcommit (hguard change hcommit)
  | snapshot index s =>
    simp only [step] at hstep
    split at hstep
    · rename_i message hmessage hphase
      obtain rfl := Option.some.inj hstep
      exact settled_snapshot h hmessage hguard
    · cases hstep
  | recheck index s reads =>
    simp only [step] at hstep
    split at hstep
    · rename_i message entry rest hmessage hphase
      split_ifs at hstep with hkeeps
      · obtain rfl := Option.some.inj hstep
        refine settled_recheck h hmessage hphase (.inr ⟨rfl, ?_⟩)
        cases message <;> simp_all [keepsRoom]
      · obtain rfl := Option.some.inj hstep
        exact settled_recheck h hmessage hphase (.inl rfl)
    · cases hstep
  | leave index s =>
    simp only [step] at hstep
    split at hstep
    · rename_i message id rest hmessage hphase
      obtain rfl := Option.some.inj hstep
      exact settled_leave h hmessage hphase
    · cases hstep

theorem settled_of_reachable {db : Db}
    (h : ReachableWhen (step setup) (SnapshotsSettled setup) (initial setup db) state) :
    Settled setup state :=
  h.invariant (settled_initial setup db) fun hs hg ha => settled_step hs hg ha

omit [DecidableEq S] [DecidableEq J] in
/-- Once nothing is under way, no sweep is ahead of any entry. -/
theorem not_doomed_of_finished (h : Finished state) {entry : String × OrgId} :
    ¬ Doomed setup state s entry := by
  rintro ⟨index, message, hmessage, -, hahead⟩
  rw [h.sweeps index message hmessage s] at hahead
  exact absurd hahead List.not_mem_nil

/-- **A join beside a revocation leaves nothing stale**, in every run in which a
snapshot is not taken while a join that it is too late for is in flight. -/
theorem no_stale_room {db : Db}
    (h : ReachableWhen (step setup) (SnapshotsSettled setup) (initial setup db) state)
    (hfinished : Finished state) : NoStale setup state := by
  intro s room hroom
  obtain ⟨entry, -, -, -, hcase⟩ := (settled_of_reachable h).joined s room hroom
  exact ⟨entry.2, hcase.resolve_right (not_doomed_of_finished hfinished)⟩

/-! ### One socket and one join -/

/-- `u1` joins the private channel. -/
def oneJoin : Setup Unit Unit where
  ns _ := .chat
  identity _ := ⟨"u1", "s1"⟩
  join _ := ⟨(), "o1", "c1"⟩
  users := ["u1", "u2"]
  now := 0

/-- Changes are announced, and snapshots are taken between joins. -/
def quiet (state : State Unit Unit) : Action Unit Unit → Bool
  | .commit request => request.announced
  | .snapshot _ _ => state.joins () ≠ .authorized ∧ state.joins () ≠ .entered
  | _ => true

theorem snapshotsSettled_of_quiet {state : State Unit Unit} {action : Action Unit Unit}
    (h : quiet state action = true) : SnapshotsSettled oneJoin state action := by
  cases action with
  | commit request => exact fun _ _ => .inl h
  | snapshot index s =>
    obtain ⟨hauthorized, hentered⟩ := of_decide_eq_true h
    rintro ⟨⟩ - (hflight | hflight)
    · exact absurd hflight hauthorized
    · exact absurd hflight hentered
  | _ => trivial

/-- What the two runs are compared by. -/
def outcome (state : State Unit Unit) :
    JoinPhase × SweepPhase × Nat × List Room × Option OrgId × Bool :=
  (state.joins (), state.sweeps 0 (), state.outbox.length, (state.sockets ()).joined,
    roomOrg state.db (.channel "c1"), stillAllowed state.db 0 .chat "u1" "o1" "c1")

theorem finished_of_outcome {state : State Unit Unit} {rooms : List Room} {org : Option OrgId}
    {allowed : Bool} (h : outcome state = (.recorded, .sweeping [], 1, rooms, org, allowed)) :
    Finished state := by
  simp only [outcome, Prod.mk.injEq] at h
  obtain ⟨hjoin, hsweep, hlength, -⟩ := h
  constructor
  · rintro ⟨⟩ (hflight | hflight) <;> cases hjoin.symm.trans hflight
  · rintro index message hmessage ⟨⟩
    have hlt := index_lt hmessage
    obtain rfl : index = 0 := by omega
    exact hsweep

/-- The channel is joined, the grant is revoked, and the sweep leaves the room. -/
theorem no_stale_room_after_sweep :
    ∃ state : State Unit Unit, (state.sockets ()).joined = [] ∧ state.outbox.length = 1 ∧
      NoStale oneJoin state := by
  have hrun : (runWhen (step oneJoin) (fun state action => quiet state action = true)
      (initial oneJoin privateChannel) [.authorize (), .enter (), .record (),
        .commit (.revokeGrant "o1" "t1"), .snapshot 0 (), .recheck 0 () true, .leave 0 ()]).map
          outcome = some (.recorded, .sweeping [], 1, [], some "o1", false) := by rfl
  obtain ⟨state, hstate, houtcome⟩ := Option.map_eq_some_iff.mp hrun
  have hreached := (reachableWhen_of_runWhen hstate).mono fun _ _ => snapshotsSettled_of_quiet
  refine ⟨state, ?_, ?_, no_stale_room hreached (finished_of_outcome houtcome)⟩
  · exact congrArg (fun o => o.2.2.2.1) houtcome
  · exact congrArg (fun o => o.2.2.1) houtcome

/-- The join is allowed, the grant is revoked, the sweep finds nothing on record,
and only then does the socket enter the room: it stays there. -/
theorem late_join_is_stale :
    ∃ state : State Unit Unit, Reachable (step oneJoin) (initial oneJoin privateChannel) state ∧
      Finished state ∧ ¬ NoStale oneJoin state := by
  have hrun : (run (step oneJoin) (initial oneJoin privateChannel) [.authorize (),
      .commit (.revokeGrant "o1" "t1"), .snapshot 0 (), .enter (), .record ()]).map outcome =
        some (.recorded, .sweeping [], 1, [.channel "c1"], some "o1", false) := by
    rfl
  obtain ⟨state, hstate, houtcome⟩ := Option.map_eq_some_iff.mp hrun
  refine ⟨state, reachable_of_run hstate, finished_of_outcome houtcome, fun hstale => ?_⟩
  simp only [outcome, Prod.mk.injEq] at houtcome
  obtain ⟨-, -, -, hjoined, horg, hrefused⟩ := houtcome
  obtain ⟨orgId, hmay⟩ := hstale () (.channel "c1") (by rw [hjoined]; exact List.mem_cons_self)
  obtain rfl := Option.some.inj (horg.symm.trans hmay.roomOrg)
  rw [(@stillAllowed_iff state.db 0 .chat "u1" "o1" "c1").mpr hmay] at hrefused
  cases hrefused

end JoinRace
end TaskFlow
