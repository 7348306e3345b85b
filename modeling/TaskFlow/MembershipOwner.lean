import TaskFlow.Membership

/-! # An organization keeps an active owner

A call writes at most the rows of its target and, for a transfer, of the old
owner, and what it writes changes a role or removes a row.  So the organization
keeps an active owner through every commit that its own check would let through
at that moment.
-/
namespace TaskFlow
namespace Membership
open ReadCommitted StepSystem

/-! ### One statement -/

/-- What a statement that goes on does. -/
inductive Runs (rows : Rows) : Phase → List (UserId × Option Row) → Phase → Prop where
  | begin {last : Option Outcome} {call : Call} : Runs rows (.idle last) [] (.reading call)
  | guard {call : Call} {row : Row} : Runs rows (.reading call) [] (.guarding call row)
  | pass {call : Call} {row : Row} : Runs rows (.reading call) [] (.writing call row)
  | guarded {call : Call} {row : Row} : Runs rows (.guarding call row) [] (.writing call row)
  | changeRole {target actor : UserId} {role : Role} {row : Row} :
      Runs rows (.writing (.changeRole target role actor) row)
        (update rows target row.id (setRole role)) (.written (.changeRole target role actor) row)
  | removeMember {target actor : UserId} {row : Row} :
      Runs rows (.writing (.removeMember target actor) row)
        (update rows target row.id fun _ => none) (.written (.removeMember target actor) row)
  | promote {toUserId actor : UserId} {selfNewRole : {r : Role // r = .admin ∨ r = .member}}
      {row : Row} : Runs rows (.writing (.transferOwnership toUserId selfNewRole actor) row)
        (update rows toUserId row.id (setRole .owner))
        (.steppingDown toUserId selfNewRole actor row)
  | gone {toUserId actor : UserId} {selfNewRole : {r : Role // r = .admin ∨ r = .member}}
      {row : Row} : rows actor = none →
      Runs rows (.steppingDown toUserId selfNewRole actor row) []
        (.written (.transferOwnership toUserId selfNewRole actor) row)
  | stepDown {toUserId actor : UserId} {selfNewRole : {r : Role // r = .admin ∨ r = .member}}
      {row m : Row} : rows actor = some m →
      Runs rows (.steppingDown toUserId selfNewRole actor row) [(actor, setRole selfNewRole m)]
        (.written (.transferOwnership toUserId selfNewRole actor) row)

theorem runs_of_check {rows : Rows} {call : Call} {row : Row} {locks : List UserId}
    {writes : List (UserId × Option Row)} {next : Phase}
    (h : check call row = .run locks writes next) : Runs rows (.reading call) writes next := by
  cases call <;> simp only [check] at h
  all_goals
    repeat' split at h
    all_goals cases h
    all_goals first | exact .guard | exact .pass

theorem runs_of_statement {users : List UserId} {phase next : Phase} {input : Input}
    {rows : Rows} {held : UserId → Bool} {locks : List UserId}
    {writes : List (UserId × Option Row)}
    (h : statement users phase input rows held = some (.run locks writes next)) :
    Runs rows phase writes next := by
  unfold statement at h
  split at h
  case h_4 call =>
    cases hrow : rows call.target <;> rw [hrow] at h
    · cases h
    · exact runs_of_check (Option.some.inj h)
  case h_6 call row =>
    cases call <;> cases h
    · exact .changeRole
    · exact .removeMember
    · exact .promote
  case h_7 toUserId selfNewRole actor row =>
    cases hm : rows actor <;> rw [hm] at h <;> cases h
    · exact .gone hm
    · exact .stepDown hm
  all_goals
    repeat' split at h
    all_goals cases h
    all_goals first | exact .begin | exact .guarded

/-- The transactions that commit. -/
inductive Commits : Phase → Phase → Prop where
  | same {call : Call} {last : Option Outcome} : Commits (.reading call) (.idle last)
  | written {call : Call} {row : Row} {last : Option Outcome} :
      Commits (.written call row) (.idle last)

theorem commits_of_statement {users : List UserId} {phase next : Phase} {input : Input}
    {rows : Rows} {held : UserId → Bool}
    (h : statement users phase input rows held = some (.commit next)) :
    Commits phase next ∧ input = .next := by
  unfold statement at h
  split at h
  case h_4 call =>
    cases hrow : rows call.target <;> rw [hrow] at h
    · cases h
    · cases call <;> simp only [check] at h
      all_goals
        repeat' split at h
        all_goals cases h
      exact ⟨.same, rfl⟩
  case h_6 call row => cases call <;> cases h
  case h_8 =>
    cases h
    exact ⟨.written, rfl⟩
  all_goals
    repeat' split at h
    all_goals cases h

theorem next_of_rollback {users : List UserId} {phase next : Phase} {input : Input}
    {rows : Rows} {held : UserId → Bool}
    (h : statement users phase input rows held = some (.rollback next)) :
    ∃ last, next = .idle last := by
  unfold statement at h
  split at h
  case h_4 call =>
    cases hrow : rows call.target <;> rw [hrow] at h
    · cases h
      exact ⟨_, rfl⟩
    · cases call <;> simp only [check] at h
      all_goals
        repeat' split at h
        all_goals cases h
      all_goals exact ⟨_, rfl⟩
  case h_6 call row => cases call <;> cases h
  all_goals
    repeat' split at h
    all_goals cases h
    all_goals exact ⟨_, rfl⟩

/-! ### What a session writes -/

/-- The user's row is there, and a change of it is written. -/
def Changed (writes : List (UserId × Option Row)) (committed : Rows) (f : Row → Option Row)
    (user : UserId) : Prop :=
  ∃ row, committed user = some row ∧ overlay writes committed user = f row

theorem Changed.congr {writes : List (UserId × Option Row)} {c c' : Rows} {f : Row → Option Row}
    {user : UserId} (h : Changed writes c f user) (hc : c user = c' user) :
    Changed writes c' f user := by
  obtain ⟨row, hrow, hchange⟩ := h
  exact ⟨row, hc ▸ hrow, overlay_congr hc ▸ hchange⟩

/-- What the uncommitted write to a user's row is, by where the session is. -/
def Written (phase : Phase) (writes : List (UserId × Option Row)) (committed : Rows)
    (user : UserId) : Prop :=
  match phase with
  | .idle _ | .reading _ | .guarding _ _ | .writing _ _ => False
  | .steppingDown toUserId _ _ _ =>
    user = toUserId ∧ Changed writes committed (setRole .owner) user
  | .written (.changeRole target role _) _ =>
    user = target ∧ Changed writes committed (setRole role) user
  | .written (.removeMember target _) _ =>
    user = target ∧ Changed writes committed (fun _ => none) user
  | .written (.transferOwnership toUserId selfNewRole actor) _ =>
    (user = actor ∧ Changed writes committed (setRole selfNewRole) user) ∨
      (user = toUserId ∧ user ≠ actor ∧ Changed writes committed (setRole .owner) user)

/-- What holds of a session whatever the others do. -/
structure Session (phase : Phase) (writes : List (UserId × Option Row)) (own : UserId → Prop)
    (committed : Rows) : Prop where
  locked : ∀ user ∈ writes.map Prod.fst, own user
  written : ∀ user ∈ writes.map Prod.fst, Written phase writes committed user

theorem Session.idle (last : Option Outcome) (own : UserId → Prop) (committed : Rows) :
    Session (.idle last) [] own committed := ⟨by simp, by simp⟩

theorem Written.congr {phase : Phase} {writes : List (UserId × Option Row)} {c c' : Rows}
    {user : UserId} (h : Written phase writes c user) (hc : c user = c' user) :
    Written phase writes c' user := by
  match phase, h with
  | .steppingDown _ _ _ _, ⟨hu, h⟩ => exact ⟨hu, h.congr hc⟩
  | .written (.changeRole _ _ _) _, ⟨hu, h⟩ => exact ⟨hu, h.congr hc⟩
  | .written (.removeMember _ _) _, ⟨hu, h⟩ => exact ⟨hu, h.congr hc⟩
  | .written (.transferOwnership _ _ _) _, .inl ⟨hu, h⟩ => exact Or.inl ⟨hu, h.congr hc⟩
  | .written (.transferOwnership _ _ _) _, .inr ⟨hu, hne, h⟩ =>
    exact Or.inr ⟨hu, hne, h.congr hc⟩

/-- Before its first write a session has written nothing. -/
theorem Session.writes_eq_nil {phase : Phase} {writes : List (UserId × Option Row)}
    {own : UserId → Prop} {c : Rows} (h : Session phase writes own c)
    (hphase : ∀ user, ¬Written phase writes c user) : writes = [] :=
  List.map_eq_nil_iff.mp (List.eq_nil_iff_forall_not_mem.mpr fun user hu =>
    hphase user (h.written user hu))

/-- A write changes a role, or removes the row: ids and statuses stay. -/
theorem Session.row_of_view {phase : Phase} {writes : List (UserId × Option Row)}
    {own : UserId → Prop} {c : Rows} (h : Session phase writes own c) {user : UserId} {row : Row}
    (hrow : overlay writes c user = some row) :
    ∃ old, c user = some old ∧ old.id = row.id ∧ old.status = row.status := by
  have hchanged : ∀ {role}, Changed writes c (setRole role) user →
      ∃ old, c user = some old ∧ old.id = row.id ∧ old.status = row.status := by
    rintro role ⟨old, hold, hview⟩
    rw [hview] at hrow
    obtain rfl := Option.some.inj hrow
    exact ⟨old, hold, rfl, rfl⟩
  by_cases hu : user ∈ writes.map Prod.fst
  · match phase, h.written user hu with
    | .steppingDown _ _ _ _, ⟨_, h⟩ => exact hchanged h
    | .written (.changeRole _ _ _) _, ⟨_, h⟩ => exact hchanged h
    | .written (.removeMember _ _) _, ⟨_, old, _, hview⟩ => simp [hview] at hrow
    | .written (.transferOwnership _ _ _) _, .inl ⟨_, h⟩ => exact hchanged h
    | .written (.transferOwnership _ _ _) _, .inr ⟨_, _, h⟩ => exact hchanged h
  · rw [overlay_of_notMem hu] at hrow
    exact ⟨row, hrow, rfl, rfl⟩

theorem mem_update {rows : Rows} {user u : UserId} {id : String} {f : Row → Option Row}
    (h : u ∈ (update rows user id f).map Prod.fst) :
    u = user ∧ Changed (update rows user id f) rows f user := by
  unfold update at h ⊢
  cases hrow : rows user with
  | none => simp [hrow] at h
  | some row =>
    simp only [hrow] at h ⊢
    by_cases hid : row.id = id
    · rw [if_pos hid] at h ⊢
      exact ⟨by simpa using h, row, hrow, by simp⟩
    · simp [hid] at h

theorem session_run {phase next : Phase} {writes new : List (UserId × Option Row)}
    {own : UserId → Prop} {c : Rows} {locks : List UserId} (h : Session phase writes own c)
    (hrun : Runs (overlay writes c) phase new next) :
    Session next (new ++ writes) (fun k => own k ∨ k ∈ locks ++ new.map Prod.fst) c := by
  refine ⟨fun k hk => ?_, ?_⟩
  · rw [List.map_append, List.mem_append] at hk
    rcases hk with hk | hk
    · exact Or.inr (List.mem_append_right _ hk)
    · exact Or.inl (h.locked k hk)
  cases hrun with
  | begin | guard | pass | guarded =>
    obtain rfl := h.writes_eq_nil (fun _ => id)
    simp
  | changeRole | removeMember | promote =>
    obtain rfl := h.writes_eq_nil (fun _ => id)
    rw [List.append_nil]
    intro user hu
    obtain ⟨rfl, hchanged⟩ := mem_update hu
    exact ⟨rfl, hchanged⟩
  | @gone toUserId actor selfNewRole row hnone =>
    intro user hu
    obtain ⟨rfl, old, hold, hview⟩ := h.written user hu
    refine Or.inr ⟨rfl, ?_, old, hold, hview⟩
    rintro rfl
    rw [hnone] at hview
    cases hview
  | @stepDown toUserId actor selfNewRole row m hm =>
    intro user hu
    by_cases hua : user = actor
    · subst hua
      obtain ⟨old, hold, hid, hstatus⟩ := h.row_of_view hm
      refine Or.inl ⟨rfl, old, hold, ?_⟩
      rw [List.cons_append, overlay_cons, Function.update_self, setRole, setRole, hid, hstatus]
    · rcases List.mem_cons.mp hu with hu | hu
      · exact absurd hu hua
      · obtain ⟨rfl, old, hold, hview⟩ := h.written user hu
        exact Or.inr ⟨rfl, hua, old, hold, by simpa [Function.update_of_ne hua] using hview⟩

theorem session_commit {phase next : Phase} {own : UserId → Prop} {c : Rows}
    (h : Commits phase next) : Session next [] own c := by
  cases h <;> exact Session.idle _ _ _

theorem session_invariant (users : List UserId) :
    SessionInvariant (statement users) Session where
  frame := fun hc h => ⟨h.locked, fun u hu => (h.written u hu).congr (hc u (h.locked u hu))⟩
  run := fun h heq => session_run h (runs_of_statement heq)
  commit := fun _ heq => session_commit (commits_of_statement heq).1
  rollback := fun _ heq => by
    obtain ⟨last, rfl⟩ := next_of_rollback heq
    exact Session.idle _ _ _

/-! ### The system -/

/-- The membership a transfer makes an owner, once it has. -/
def Phase.promoting : Phase → Option (UserId × String)
  | .steppingDown toUserId _ _ row => some (toUserId, row.id)
  | .written (.transferOwnership toUserId _ _) row => some (toUserId, row.id)
  | _ => none

variable {S : Type} [DecidableEq S] {users : List UserId} {w w' : State S} {s t : S}

/-- What holds of the system while every commit is guarded. -/
structure Valid (users : List UserId) (w : State S) : Prop where
  locked : Locked w
  session : ∀ s, Session (w.locals s) (w.pending s) (w.Owns s) w.committed
  support : ∀ user, (w.committed user).isSome = true → user ∈ users
  /-- A promotion that found no row finds none later either. -/
  missed : ∀ s user id, (w.locals s).promoting = some (user, id) →
    user ∉ (w.pending s).map Prod.fst → ∀ row, w.committed user = some row → row.id ≠ id
  owner : HasActiveOwner users w.committed

theorem anotherOwnerRemains_iff {rows : Rows} {excluding : UserId} :
    anotherOwnerRemains users rows excluding = true ↔
      ∃ user ∈ users, user ≠ excluding ∧ (rows user).any Row.isActiveOwner = true := by
  simp [anotherOwnerRemains]

theorem hasActiveOwner_of_eq {rows rows' : Rows} {user : UserId} (hu : user ∈ users)
    (h : (rows user).any Row.isActiveOwner = true) (heq : rows' user = rows user) :
    HasActiveOwner users rows' := ⟨user, hu, heq ▸ h⟩

theorem setRole_any {role : Role} {row : Row} :
    (setRole role row).any Row.isActiveOwner = true ↔
      isIndispensableRole role = true ∧ row.status = .active := by
  simp [setRole, Row.isActiveOwner, isIndispensableRole]

/-- An owner who is not the target keeps the organization from losing its last
one. -/
theorem owner_of_another {writes : List (UserId × Option Row)} {c : Rows} {target : UserId}
    (hw : ∀ user ∈ writes.map Prod.fst, user = target)
    (h : anotherOwnerRemains users c target = true) :
    HasActiveOwner users (overlay writes c) := by
  obtain ⟨user, hu, hne, howner⟩ := (anotherOwnerRemains_iff).mp h
  exact hasActiveOwner_of_eq hu howner (overlay_of_notMem (fun hmem => hne (hw user hmem)) c)

/-- So does a target who is not an owner. -/
theorem owner_of_target {writes : List (UserId × Option Row)} {c : Rows} {target : UserId}
    (hw : ∀ user ∈ writes.map Prod.fst, user = target) (h : HasActiveOwner users c)
    (htarget : (c target).any (fun m => isIndispensableRole m.role) = false) :
    HasActiveOwner users (overlay writes c) := by
  obtain ⟨user, hu, howner⟩ := h
  have hne : user ≠ target := by
    rintro rfl
    cases hc : c user with
    | none => simp [hc] at howner
    | some row =>
      simp only [hc, Option.any_some, isIndispensableRole, decide_eq_false_iff_not] at htarget
      simp [hc, Row.isActiveOwner, htarget] at howner
  exact hasActiveOwner_of_eq hu howner (overlay_of_notMem (fun hmem => hne (hw user hmem)) c)

omit [DecidableEq S] in
/-- A guarded call leaves an active owner. -/
theorem owner_commit (hv : Valid users w) {call : Call} {row : Row}
    (hphase : w.locals s = .written call row) (hg : Guarded users w.committed call row) :
    HasActiveOwner users (w.view s) := by
  have hs := (hv.session s).written
  rw [hphase] at hs
  cases call with
  | changeRole target role actor =>
    have hw : ∀ user ∈ (w.pending s).map Prod.fst, user = target := fun u hu => (hs u hu).1
    rcases hg with hrole | htarget | hanother
    · obtain ⟨user, hu, howner⟩ := hv.owner
      by_cases hmem : user ∈ (w.pending s).map Prod.fst
      · obtain ⟨_, old, hold, hview⟩ := hs user hmem
        refine ⟨user, hu, ?_⟩
        rw [World.view, hview, setRole_any]
        refine ⟨hrole, ?_⟩
        simp only [hold, Option.any_some, Row.isActiveOwner, Bool.and_eq_true,
          decide_eq_true_eq] at howner
        exact howner.2
      · exact hasActiveOwner_of_eq hu howner (overlay_of_notMem hmem _)
    · exact owner_of_target hw hv.owner htarget
    · exact owner_of_another hw hanother
  | removeMember target actor =>
    have hw : ∀ user ∈ (w.pending s).map Prod.fst, user = target := fun u hu => (hs u hu).1
    rcases hg with htarget | hanother
    · exact owner_of_target hw hv.owner htarget
    · exact owner_of_another hw hanother
  | transferOwnership toUserId selfNewRole actor =>
    rcases hg with ⟨hne, hactive⟩ | hanother
    -- the new owner was promoted first, and their row is still active
    · obtain ⟨m, hm, hid⟩ := (Option.any_eq_true _ _).mp hactive
      simp only [Bool.and_eq_true, decide_eq_true_eq] at hid
      have hmem : toUserId ∈ (w.pending s).map Prod.fst := by
        by_contra hmem
        exact hv.missed s toUserId row.id (by rw [hphase]; rfl) hmem m hm hid.1
      have hto : toUserId ∈ users := hv.support toUserId (by simp [hm])
      rcases hs toUserId hmem with ⟨heq, -⟩ | ⟨-, -, old, hold, hview⟩
      · exact absurd heq hne
      · rw [hm] at hold
        obtain rfl := Option.some.inj hold
        refine ⟨toUserId, hto, ?_⟩
        rw [World.view, hview, setRole_any]
        exact ⟨rfl, hid.2⟩
    · obtain ⟨user, hu, hne, howner⟩ := (anotherOwnerRemains_iff).mp hanother
      by_cases hmem : user ∈ (w.pending s).map Prod.fst
      · rcases hs user hmem with ⟨heq, -⟩ | ⟨-, -, old, hold, hview⟩
        · exact absurd heq hne
        · refine ⟨user, hu, ?_⟩
          rw [World.view, hview, setRole_any]
          simp only [hold, Option.any_some, Row.isActiveOwner, Bool.and_eq_true,
            decide_eq_true_eq] at howner
          exact ⟨rfl, howner.2⟩
      · exact hasActiveOwner_of_eq hu howner (overlay_of_notMem hmem _)

/-- A promotion in progress has written its target's row, unless the row was not
there. -/
theorem missed_of_runs {c : Rows} {phase next : Phase} {writes new : List (UserId × Option Row)}
    {own : UserId → Prop} (h : Session phase writes own c)
    (hrun : Runs (overlay writes c) phase new next)
    (hmissed : ∀ user id, phase.promoting = some (user, id) →
      user ∉ writes.map Prod.fst → ∀ row, c user = some row → row.id ≠ id)
    {user : UserId} {id : String} (hp : next.promoting = some (user, id))
    (hu : user ∉ (new ++ writes).map Prod.fst) : ∀ row, c user = some row → row.id ≠ id := by
  rw [List.map_append, List.mem_append, not_or] at hu
  cases hrun with
  | begin | guard | pass | guarded | changeRole | removeMember => simp [Phase.promoting] at hp
  | promote =>
    obtain rfl := h.writes_eq_nil (fun _ => fun hw => hw)
    obtain ⟨rfl, rfl⟩ := Prod.mk.inj (Option.some.inj hp)
    intro row hrow hid
    exact hu.1 (by simp [update, show overlay [] c _ = some row from hrow, hid])
  | gone | stepDown => exact hmissed user id hp hu.2

theorem valid_step {a : S × Input} (hv : Valid users w) (hg : CommitsGuarded users w a)
    (h : step users w a = some w') : Valid users w' := by
  obtain ⟨s, i⟩ := a
  have hlocked := locked_step hv.locked h
  have hsession := (session_invariant users).step hv.locked hv.session h
  rcases step_cases h with ⟨locks, writes, next, heq, hfree, rfl⟩ | ⟨next, heq, rfl⟩ |
    ⟨next, heq, rfl⟩
  -- a statement
  · refine { hv with locked := hlocked, session := hsession, missed := ?_ }
    intro t user id hp hu
    by_cases hts : t = s
    · subst hts
      simp only [World.run, Function.update_self] at hp hu
      exact missed_of_runs (hv.session t) (runs_of_statement heq) (hv.missed t) hp hu
    · simp only [World.run, Function.update_of_ne hts] at hp hu
      exact hv.missed t user id hp hu
  -- a commit: no row changes its id, and the guard speaks of the rows it commits on
  · obtain ⟨hcommits, rfl⟩ := commits_of_statement heq
    have hrow : ∀ {user row}, (w.commit s next).committed user = some row →
        ∃ old, w.committed user = some old ∧ old.id = row.id := by
      intro user row hrow
      obtain ⟨old, hold, hid, -⟩ := (hv.session s).row_of_view hrow
      exact ⟨old, hold, hid⟩
    refine { locked := hlocked, session := hsession, support := ?_, missed := ?_, owner := ?_ }
    · intro user hu
      obtain ⟨row, hr⟩ := Option.isSome_iff_exists.mp hu
      obtain ⟨old, hold, -⟩ := hrow hr
      exact hv.support user (by simp [hold])
    · intro t user id hp hu row hr
      obtain ⟨old, hold, hid⟩ := hrow hr
      by_cases hts : t = s
      · subst hts
        simp only [World.commit, Function.update_self] at hp
        generalize w.locals t = phase at hcommits
        cases hcommits <;> simp [Phase.promoting] at hp
      · simp only [World.commit, Function.update_of_ne hts] at hp hu
        exact hid ▸ hv.missed t user id hp hu old hold
    · change HasActiveOwner users (w.view s)
      have hwritten := (hv.session s).written
      generalize hphase : w.locals s = phase at hcommits hwritten
      cases hcommits with
      | same =>
        have hnil : w.pending s = [] := (hv.session s).writes_eq_nil (fun _ => by
          rw [hphase]
          exact fun hw => hw)
        rw [World.view, hnil]
        exact hv.owner
      | written =>
        simp only [CommitsGuarded, hphase] at hg
        exact owner_commit hv hphase hg
  -- a rollback leaves the rows alone
  · obtain ⟨last, rfl⟩ := next_of_rollback heq
    refine { hv with locked := hlocked, session := hsession, missed := ?_ }
    intro t user id hp hu
    by_cases hts : t = s
    · subst hts
      simp [World.rollback, Phase.promoting] at hp
    · simp only [World.rollback, Function.update_of_ne hts] at hp hu
      exact hv.missed t user id hp hu

/-- Two active owners and a suspended member. -/
def threeMembers : Rows
  | "ada" => some { id := "m1", role := .owner, status := .active }
  | "bob" => some { id := "m2", role := .owner, status := .active }
  | "eve" => some { id := "m3", role := .member, status := .suspended }
  | _ => none

theorem threeMembers_support (user : UserId) (h : (threeMembers user).isSome = true) :
    user ∈ ["ada", "bob", "eve"] := by
  unfold threeMembers at h
  split at h <;> simp_all

/-- A call that runs with no other in between. -/
def callAlone (s : Bool) (call : Call) : List (Bool × Input) :=
  [(s, .call call), (s, .next), (s, .next), (s, .next), (s, .next)]

/-- Each owner checks for another one before either demotion commits. -/
def demoteEachOther : List (Bool × Input) :=
  [(false, .call (.changeRole "bob" .member "ada")),
   (true, .call (.changeRole "ada" .member "bob")),
   (false, .next), (true, .next), (false, .next), (true, .next),
   (false, .next), (true, .next), (false, .next), (true, .next)]

/-- One owner demotes the other and hands over to a suspended member. -/
def handOverToSuspended : List (Bool × Input) :=
  callAlone false (.changeRole "bob" .member "ada") ++
    callAlone false (.transferOwnership "eve" ⟨.member, Or.inr rfl⟩ "ada")

end Membership
end TaskFlow
