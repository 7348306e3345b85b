import TaskFlow.CallSessionSafe

/-! # What the writes of a call's operations come to

The counters are followed on the summary, from the claim of a participant to the
update of the session row, for each thing an operation does: a join, a leave, an
agreement, the start of a recording.  The end of a call and the clearing of
everyone's answer are loops over the participants, and get their rules here too.
-/
namespace TaskFlow
namespace CallSession
open ReadCommitted ReadCommitted.Script ReadCommitted.Procedure

section
variable {U : Type} [DecidableEq U] {users : List U} {e c : Prop} {u : U} {a : Summary U}
  {own : Key U → Prop} {row row' : SessionRow U} {m : Mark}

/-! ### The summaries -/

/-- Everything is right again, and the recording request was left open. -/
structure Kept (users : List U) (e c : Prop) (a a' : Summary U) : Prop where
  sound : Sound users e c a'
  session : ∃ row row', a.session = some row ∧ a'.session = some row' ∧ Follows row row' ∧
    KeepsRequest row row'

omit [DecidableEq U] in
theorem Kept.final {a' : Summary U} (h : Kept users e c a a') : Final users e c own a a' := by
  obtain ⟨hsound, row, row', hrow, hrow', hfollow, hkeeps⟩ := h
  refine ⟨hsound, by simp [hrow], fun row₁ h₁ => ?_, fun _ row₁ row₂ h₁ h₂ => ?_⟩
  · obtain rfl := Option.some.inj (hrow.symm.trans h₁)
    exact ⟨row', hrow', hfollow⟩
  · obtain rfl := Option.some.inj (hrow.symm.trans h₁)
    obtain rfl := Option.some.inj (hrow'.symm.trans h₂)
    exact Or.inl hkeeps

omit [DecidableEq U] in
theorem Kept.refl (h : Sound users e c a) (hrow : a.session = some row) : Kept users e c a a :=
  ⟨h, row, row, hrow, hrow, .refl row, fun hopen => ⟨hopen, rfl⟩⟩

/-- The call has been answered, or is as it was. -/
structure Answers (row row' : SessionRow U) : Prop where
  follows : Follows row row'
  ended : row'.status = .ended → row.status = .ended
  joinedCount : row'.joinedCount = row.joinedCount
  consentCount : row'.consentCount = row.consentCount
  recordingState : row'.recordingState = row.recordingState
  request : row'.request = row.request

omit [DecidableEq U] in
theorem Answers.refl (row : SessionRow U) : Answers row row :=
  ⟨.refl row, id, rfl, rfl, rfl, rfl⟩

omit [DecidableEq U] in
theorem Answers.open_iff (h : Answers row row') : row'.Open ↔ row.Open := by
  simp [SessionRow.Open, h.recordingState]

omit [DecidableEq U] in
theorem Sound.answers (h : Sound users e c a) (hrow : a.session = some row)
    (hans : Answers row row') : Sound users e c { a with session := some row' } where
  seated := {
    started := by simp
    known := h.seated.known
    joined := by
      rintro _ ⟨rfl⟩
      exact hans.joinedCount.trans (h.seated.joined row hrow)
    ended := by
      rintro he _ ⟨rfl⟩ hended
      exact h.seated.ended he row hrow (hans.ended hended) }
  recorded := {
    consents := by
      rintro _ ⟨rfl⟩
      exact hans.consentCount.trans (h.recorded.consents row hrow)
    closed := by
      rintro hc _ ⟨rfl⟩ hclosed
      exact h.recorded.closed hc row hrow fun hopen => hclosed (hans.open_iff.mpr hopen)
    request := by
      rintro hc _ ⟨rfl⟩ v m n hm hn
      rw [hans.request]
      exact h.recorded.request hc row hrow v m n hm hn }
  everyone := by
    rintro hc _ ⟨rfl⟩ hactive
    exact h.everyone hc row hrow (hans.recordingState ▸ hactive)

/-- A participant whose agreements are as before. -/
theorem consent_update {v : U} {m' : Mark} {marks : U → Option Mark}
    (hm : m.consent = (marks u).bind (·.consent))
    (h : Function.update marks u (some m) v = some m') {n : Nat} (hn : m'.consent = some n) :
    ∃ m'', marks v = some m'' ∧ m''.consent = some n := by
  by_cases hv : v = u
  · subst hv
    rw [Function.update_self, Option.some.injEq] at h
    subst h
    exact Option.bind_eq_some_iff.mp (hm.symm.trans hn)
  · rw [Function.update_of_ne hv] at h
    exact ⟨m', h, hn⟩

/-- What is recorded of a call when a participant's agreements stay and the
session keeps its recording. -/
theorem Recorded.update (hnodup : users.Nodup) (hu : u ∈ users) (h : Recorded users c a)
    (hrow : a.session = some row) (hm : m.consent = (a.marks u).bind (·.consent))
    (hcount : row'.consentCount = row.consentCount) (hopen : row.Open → row'.Open)
    (hrequest : row'.request = row.request) :
    Recorded users c ⟨some row', Function.update a.marks u (some m)⟩ where
  consents := by
    rintro _ ⟨rfl⟩
    have hupdate := consentedIn_update hnodup hu a.marks (some m)
    have hsame : (a.marks u).any (·.consent.isSome) = m.consent.isSome := by
      rw [hm]
      cases a.marks u <;> rfl
    simp only [hsame, Option.any_some] at hupdate
    rw [hcount, h.consents row hrow]
    simp only
    omega
  closed := by
    rintro hc _ ⟨rfl⟩ hclosed v m' hm'
    by_contra hne
    obtain ⟨n, hn⟩ := Option.ne_none_iff_exists'.mp hne
    obtain ⟨m'', hm'', hn''⟩ := consent_update hm hm' hn
    rw [h.closed hc row hrow (fun hop => hclosed (hopen hop)) v m'' hm''] at hn''
    cases hn''
  request := by
    rintro hc _ ⟨rfl⟩ v m' n hm' hn
    obtain ⟨m'', hm'', hn''⟩ := consent_update hm hm' hn
    rw [hrequest]
    exact h.request hc row hrow v m'' n hm'' hn''

theorem Listed.update (h : Listed users a) (hu : u ∈ users) :
    Listed users ⟨some row', Function.update a.marks u (some m)⟩ where
  started := by simp
  known v hv := by
    by_cases hvu : v = u
    · exact hvu ▸ hu
    · simp only [Function.update_of_ne hvu] at hv
      exact h.known v hv

/-- A join counts its participant. -/
theorem Sound.join (hnodup : users.Nodup) (hu : u ∈ users) (h : Sound users e c a)
    (hrow : a.session = some row) (hans : Answers row row')
    (hbefore : (a.marks u).any (·.joined) = false) (hjoined : m.joined = true)
    (hm : m.consent = (a.marks u).bind (·.consent)) {state : RecordingState}
    (he : e → row'.status ≠ .ended)
    (hc : c → row'.recordingState = .active → state = .active ∨ m.consent.isSome = true) :
    Kept users e c a ⟨some { row' with
      joinedCount := row'.joinedCount + 1
      recordingState := if state = .active then .pending else row'.recordingState },
      Function.update a.marks u (some m)⟩ := by
  have hopen : row.Open → SessionRow.Open { row' with
      joinedCount := row'.joinedCount + 1
      recordingState := if state = .active then .pending else row'.recordingState } := by
    intro hopen
    rw [← hans.open_iff] at hopen
    by_cases hstate : state = .active
    · exact Or.inl (if_pos hstate)
    · simpa [SessionRow.Open, hstate] using hopen
  refine ⟨⟨{ toListed := h.seated.toListed.update hu, joined := ?_, ended := ?_ },
      h.recorded.update hnodup hu hrow hm hans.consentCount hopen hans.request, ?_⟩,
    row, _, hrow, rfl, ⟨hans.follows.initiatedBy, hans.follows.ringing, hans.follows.ended⟩,
    fun hop => ⟨hopen hop, hans.request⟩⟩
  · rintro _ ⟨rfl⟩
    have hupdate := joinedIn_update hnodup hu a.marks (some m)
    simp only [hbefore, Option.any_some, hjoined, Bool.toNat_false, Bool.toNat_true] at hupdate
    simp only [hans.joinedCount, h.seated.joined row hrow]
    omega
  · rintro hep _ ⟨rfl⟩ hended
    exact absurd hended (he hep)
  -- where the recording runs on, the joiner has agreed to it before
  · rintro hcp _ ⟨rfl⟩ hactive v m' hm' hjoined'
    have hstate : state ≠ .active := fun hstate => by simp [hstate] at hactive
    simp only [hstate, if_false] at hactive
    by_cases hv : v = u
    · subst hv
      simp only [Function.update_self, Option.some.injEq] at hm'
      exact hm' ▸ (hc hcp hactive).resolve_left hstate
    · simp only [Function.update_of_ne hv] at hm'
      exact h.everyone hcp row hrow (hans.recordingState ▸ hactive) v m' hm' hjoined'

/-- A participant leaves. -/
theorem Sound.leave (hnodup : users.Nodup) (h : Sound users e c a)
    (hrow : a.session = some row) (hbefore : (a.marks u).any (·.joined) = true)
    (hleft : m.joined = false) (hm : m.consent = (a.marks u).bind (·.consent)) :
    Kept users e c a ⟨some { row with joinedCount := row.joinedCount - 1 },
      Function.update a.marks u (some m)⟩ := by
  obtain ⟨old, hold, hjoined⟩ := (Option.any_eq_true _ _).mp hbefore
  have hu : u ∈ users := h.seated.known u (by simp [hold])
  refine ⟨⟨{ toListed := h.seated.toListed.update hu, joined := ?_, ended := ?_ },
      h.recorded.update hnodup hu hrow hm rfl id rfl, ?_⟩,
    row, _, hrow, rfl, ⟨rfl, id, id⟩, fun hop => ⟨hop, rfl⟩⟩
  · rintro _ ⟨rfl⟩
    have hupdate := joinedIn_update hnodup hu a.marks (some m)
    simp only [hbefore, Option.any_some, hleft, Bool.toNat_false, Bool.toNat_true] at hupdate
    simp only [h.seated.joined row hrow]
    omega
  -- somebody was in the call, so it had not ended
  · rintro hep _ ⟨rfl⟩ hended
    have := h.seated.ended hep row hrow hended u old hold
    simp [this] at hjoined
  · rintro hcp _ ⟨rfl⟩ hactive v m' hm' hjoined'
    by_cases hv : v = u
    · subst hv
      simp only [Function.update_self, Option.some.injEq] at hm'
      simp [← hm', hleft] at hjoined'
    · simp only [Function.update_of_ne hv] at hm'
      exact h.everyone hcp row hrow hactive v m' hm' hjoined'

omit [DecidableEq U] in
theorem Recorded.session (h : Recorded users c a) (hrow : a.session = some row)
    (hcount : row'.consentCount = row.consentCount) (hopen : row.Open → row'.Open)
    (hrequest : row'.request = row.request) :
    Recorded users c { a with session := some row' } where
  consents := by
    rintro _ ⟨rfl⟩
    exact hcount.trans (h.consents row hrow)
  closed := by
    rintro hc _ ⟨rfl⟩ hclosed
    exact h.closed hc row hrow fun hop => hclosed (hopen hop)
  request := by
    rintro hc _ ⟨rfl⟩ v m n hm hn
    rw [hrequest]
    exact h.request hc row hrow v m n hm hn

/-! ### The end of a call -/

/-- The session has ended and counts nobody; participants are being settled. -/
structure Ending (users : List U) (c : Prop) (a a' : Summary U) : Prop where
  listed : Listed users a'
  recorded : Recorded users c a'
  session : ∃ row row', a.session = some row ∧ a'.session = some row' ∧ Follows row row' ∧
    KeepsRequest row row' ∧ row'.status = .ended ∧ row'.joinedCount = 0

omit [DecidableEq U] in
theorem Kept.ending {a' : Summary U} (h : Kept users e c a a') {row₁ : SessionRow U}
    (hrow₁ : a'.session = some row₁) (endedAt : Option Int) (endReason : Option EndReason) :
    Ending users c a { a' with session := some { row₁ with
      status := .ended, endedAt := endedAt, endReason := endReason, joinedCount := 0 } } := by
  obtain ⟨hsound, row, row', hrow, hrow', hfollow, hkeeps⟩ := h
  obtain rfl := Option.some.inj (hrow'.symm.trans hrow₁)
  refine ⟨⟨by simp, hsound.seated.known⟩, hsound.recorded.session hrow' rfl id rfl, row, _, hrow,
    rfl, ⟨hfollow.initiatedBy, fun _ => by simp, fun _ => rfl⟩, hkeeps, rfl, rfl⟩

/-- A participant who is settled agrees as before. -/
theorem Ending.settle (hnodup : users.Nodup) {a' : Summary U} (h : Ending users c a a')
    (hu : u ∈ users) (hm : m.consent = (a'.marks u).bind (·.consent)) :
    Ending users c a { a' with marks := Function.update a'.marks u (some m) } := by
  obtain ⟨row, row', hrow, hrow', hrest⟩ := h.session
  have hlisted : Listed users ⟨some row', Function.update a'.marks u (some m)⟩ :=
    h.listed.update hu
  have hrecorded : Recorded users c ⟨some row', Function.update a'.marks u (some m)⟩ :=
    h.recorded.update hnodup hu hrow' hm rfl id rfl
  rw [← hrow'] at hlisted hrecorded
  exact ⟨hlisted, hrecorded, row, row', hrow, hrow', hrest⟩

omit [DecidableEq U] in
theorem Ending.final {a' : Summary U} (h : Ending users c a a')
    (hnone : ∀ v m, a'.marks v = some m → m.joined = false) : Kept users e c a a' := by
  obtain ⟨row, row', hrow, hrow', hfollow, hkeeps, _, hcount⟩ := h.session
  refine ⟨⟨{ toListed := h.listed, joined := fun row₁ h₁ => ?_, ended := fun _ _ _ _ => hnone },
    h.recorded, fun _ _ _ _ v m hm hjoined => ?_⟩, row, row', hrow, hrow', hfollow, hkeeps⟩
  · obtain rfl := Option.some.inj (hrow'.symm.trans h₁)
    have hzero : joinedIn users a'.marks = 0 := by
      apply List.countP_eq_zero.mpr
      intro v _
      cases hv : a'.marks v with
      | none => simp
      | some m => simp [hnone v m hv]
    rw [hcount, hzero]
    rfl
  · rw [hnone v m hm] at hjoined
    cases hjoined

/-! ### Recording -/

/-- A participant agrees to the open request. -/
theorem Sound.agree (hnodup : users.Nodup) (h : Sound users e c a) (hrow : a.session = some row)
    (hans : Answers row row') {old : Mark} (hold : a.marks u = some old)
    (hconsent : old.consent = none) {n : Nat} (hm : m = ⟨old.joined, some n⟩)
    (hopen : c → row.Open ∧ row.request = n) :
    Kept users e c a ⟨some { row' with consentCount := row'.consentCount + 1 },
      Function.update a.marks u (some m)⟩ := by
  have hu : u ∈ users := h.seated.known u (by simp [hold])
  have hcase {v : U} {m' : Mark} (hv : Function.update a.marks u (some m) v = some m') :
      v = u ∧ m' = m ∨ v ≠ u ∧ a.marks v = some m' := by
    by_cases hvu : v = u
    · subst hvu
      rw [Function.update_self, Option.some.injEq] at hv
      exact Or.inl ⟨rfl, hv.symm⟩
    · rw [Function.update_of_ne hvu] at hv
      exact Or.inr ⟨hvu, hv⟩
  refine ⟨⟨{ toListed := h.seated.toListed.update hu, joined := ?_, ended := ?_ },
    { consents := ?_, closed := ?_, request := ?_ }, ?_⟩, row, _, hrow, rfl,
    ⟨hans.follows.initiatedBy, hans.follows.ringing, hans.follows.ended⟩,
    fun hop => ⟨hans.open_iff.mpr hop, hans.request⟩⟩
  · rintro _ ⟨rfl⟩
    have hupdate := joinedIn_update hnodup hu a.marks (some m)
    simp only [hold, hm, Option.any_some] at hupdate
    simp only [hans.joinedCount, h.seated.joined row hrow, hm]
    omega
  · rintro hep _ ⟨rfl⟩ hended v m' hm'
    rcases hcase hm' with ⟨rfl, rfl⟩ | ⟨_, hm'⟩
    · rw [hm]
      exact h.seated.ended hep row hrow (hans.ended hended) _ old hold
    · exact h.seated.ended hep row hrow (hans.ended hended) v m' hm'
  · rintro _ ⟨rfl⟩
    have hupdate := consentedIn_update hnodup hu a.marks (some m)
    simp only [hold, hconsent, hm, Option.any_some, Option.isSome_none, Option.isSome_some,
      Bool.toNat_false, Bool.toNat_true] at hupdate
    simp only [hans.consentCount, h.recorded.consents row hrow, hm]
    omega
  · rintro hcp _ ⟨rfl⟩ hclosed
    exact absurd (hans.open_iff.mpr (hopen hcp).1) hclosed
  · rintro hcp _ ⟨rfl⟩ v m' n' hm' hn'
    rcases hcase hm' with ⟨rfl, rfl⟩ | ⟨_, hm'⟩
    · rw [hm, Option.some.injEq] at hn'
      exact hn'.symm.trans ((hopen hcp).2.symm.trans hans.request.symm)
    · exact (h.recorded.request hcp row hrow v m' n' hm' hn').trans hans.request.symm
  · rintro hcp _ ⟨rfl⟩ hactive v m' hm' hjoined
    rcases hcase hm' with ⟨rfl, rfl⟩ | ⟨_, hm'⟩
    · rw [hm]
      rfl
    · exact h.everyone hcp row hrow (hans.recordingState ▸ hactive) v m' hm' hjoined

omit [DecidableEq U] in
/-- A request finds no other open, so nobody has agreed to anything yet. -/
theorem Sound.request (h : Sound users e c a) (hrow : a.session = some row)
    (hstate : row'.recordingState = .pending) (hjoined : row'.joinedCount = row.joinedCount)
    (hconsent : row'.consentCount = row.consentCount)
    (hended : row'.status = .ended → row.status = .ended) (hclosed : c → ¬row.Open) :
    Sound users e c { a with session := some row' } where
  seated := {
    started := by simp
    known := h.seated.known
    joined := by
      rintro _ ⟨rfl⟩
      exact hjoined.trans (h.seated.joined row hrow)
    ended := by
      rintro hep _ ⟨rfl⟩ hend
      exact h.seated.ended hep row hrow (hended hend) }
  recorded := {
    consents := by
      rintro _ ⟨rfl⟩
      exact hconsent.trans (h.recorded.consents row hrow)
    closed := by
      rintro _ _ ⟨rfl⟩ hnot
      exact absurd (Or.inl hstate) hnot
    request := by
      rintro hc _ ⟨rfl⟩ v m n hm hn
      rw [h.recorded.closed hc row hrow (hclosed hc) v m hm] at hn
      cases hn }
  everyone := by
    rintro _ _ ⟨rfl⟩ hactive
    rw [hstate] at hactive
    cases hactive

/-- Capture starts where as many have agreed as are in the call, and not somebody
out of it in place of somebody in it. -/
theorem Sound.start (hnodup : users.Nodup) (h : Sound users e c a) (hrow : a.session = some row)
    (startedAt : Option Int) (hcount : row.joinedCount ≤ row.consentCount)
    (hall : c → (∀ v m, a.marks v = some m → m.joined = true → m.consent.isSome = true) ∨
      ∀ v m, a.marks v = some m → m.consent.isSome = true → m.joined = true) :
    Sound users e c { a with session := some { row with
      recordingState := .active, recordingStartedAt := startedAt } } where
  seated := {
    started := by simp
    known := h.seated.known
    joined := by
      rintro _ ⟨rfl⟩
      exact h.seated.joined row hrow
    ended := by
      rintro hep _ ⟨rfl⟩ hend
      exact h.seated.ended hep row hrow hend }
  recorded := h.recorded.session hrow rfl (fun _ => Or.inr rfl) rfl
  everyone := by
    rintro hc _ ⟨rfl⟩ _ w m hw hjoined
    have hm : a.marks w = some m := hw
    rcases hall hc with hall | hall
    · exact hall w m hm hjoined
    by_contra hnot
    -- one in the call has not agreed, so more are in the call than have agreed
    have hupdate := joinedIn_update hnodup (h.seated.known w (by simp [hm])) a.marks none
    have hle : consentedIn users a.marks ≤ joinedIn users (Function.update a.marks w none) := by
      apply List.countP_mono_left
      intro v _ hv
      obtain ⟨m', hm', hconsent⟩ := (Option.any_eq_true _ _).mp hv
      have hvw : v ≠ w := by
        rintro rfl
        exact hnot (Option.some.inj (hm'.symm.trans hm) ▸ hconsent)
      rw [Function.update_of_ne hvw, hm']
      exact hall v m' hm' hconsent
    simp only [hm, Option.any_some, hjoined, Option.any_none, Bool.toNat_true, Bool.toNat_false]
      at hupdate
    have h₁ := h.seated.joined row hrow
    have h₂ := h.recorded.consents row hrow
    omega

/-- Consents are being cleared, of a recording that is over. -/
structure Resetting (users : List U) (e : Prop) (a a' : Summary U) : Prop where
  seated : Seated users e a'
  same : ∀ v, (a.marks v).isSome → (a'.marks v).isSome
  session : ∃ row row', a.session = some row ∧ a'.session = some row' ∧ Follows row row' ∧
    ¬row'.Open

omit [DecidableEq U] in
theorem Seated.session (h : Seated users e a) (hrow : a.session = some row)
    (hjoined : row'.joinedCount = row.joinedCount)
    (hended : row'.status = .ended → row.status = .ended) :
    Seated users e { a with session := some row' } where
  started := by simp
  known := h.known
  joined := by
    rintro _ ⟨rfl⟩
    exact hjoined.trans (h.joined row hrow)
  ended := by
    rintro he _ ⟨rfl⟩ hend
    exact h.ended he row hrow (hended hend)

/-- A participant's answer is cleared. -/
theorem Resetting.clear (hnodup : users.Nodup) {a' : Summary U} (h : Resetting users e a a')
    {old : Mark} (hold : a'.marks u = some old) (hm : m.joined = old.joined) :
    Resetting users e a { a' with marks := Function.update a'.marks u (some m) } := by
  obtain ⟨row, row', hrow, hrow', hfollow, hclosed⟩ := h.session
  have hu : u ∈ users := h.seated.known u (by simp [hold])
  have hlisted : Listed users ⟨some row', Function.update a'.marks u (some m)⟩ :=
    h.seated.toListed.update hu
  rw [← hrow'] at hlisted
  refine ⟨{ toListed := hlisted, joined := ?_, ended := ?_ }, fun v hv => ?_,
    row, row', hrow, hrow', hfollow, hclosed⟩
  · intro row₁ h₁
    have hupdate := joinedIn_update hnodup hu a'.marks (some m)
    simp only [hold, Option.any_some, hm] at hupdate
    rw [h.seated.joined row₁ h₁]
    simp only
    omega
  · intro he row₁ h₁ hend v m' hm'
    by_cases hv : v = u
    · subst hv
      simp only [Function.update_self, Option.some.injEq] at hm'
      rw [← hm', hm]
      exact h.seated.ended he row₁ h₁ hend v old hold
    · simp only [Function.update_of_ne hv] at hm'
      exact h.seated.ended he row₁ h₁ hend v m' hm'
  · by_cases hvu : v = u
    · simp [hvu]
    · simpa [Function.update_of_ne hvu] using h.same v hv

omit [DecidableEq U] in
/-- Every answer is cleared, and the counter set to zero. -/
theorem Resetting.final {a' : Summary U} (h : Resetting users e a a') (hrow' : a'.session = some row')
    (hclear : ∀ v m, a'.marks v = some m → m.consent = none ∧ own (.participant v)) :
    Final users e c own a { a' with session := some { row' with consentCount := 0 } } := by
  obtain ⟨row, row₁, hrow, h₁, hfollow, hclosed⟩ := h.session
  obtain rfl := Option.some.inj (hrow'.symm.trans h₁)
  refine ⟨⟨h.seated.session hrow' rfl id, { consents := ?_, closed := ?_, request := ?_ }, ?_⟩,
    by simp [hrow], ?_, ?_⟩
  · rintro _ ⟨rfl⟩
    have hzero : consentedIn users a'.marks = 0 := by
      apply List.countP_eq_zero.mpr
      intro v _
      cases hv : a'.marks v with
      | none => simp
      | some m => simp [(hclear v m hv).1]
    simp [hzero]
  · rintro _ _ ⟨rfl⟩ _ v m hm
    exact (hclear v m hm).1
  · rintro _ _ ⟨rfl⟩ v m n hm hn
    rw [(hclear v m hm).1] at hn
    cases hn
  · rintro _ _ ⟨rfl⟩ hactive
    exact absurd (Or.inr hactive) hclosed
  · intro row₂ h₂
    obtain rfl := Option.some.inj (hrow.symm.trans h₂)
    exact ⟨_, rfl, hfollow.initiatedBy, hfollow.ringing, hfollow.ended⟩
  · refine fun _ _ _ _ _ => Or.inr fun v hv => ?_
    obtain ⟨m, hm⟩ := Option.isSome_iff_exists.mp (h.same v hv)
    exact (hclear v m hm).2

/-! ### Statements on all participants -/

variable {S : Type} {s : S} {t : Transaction (Key U) (Row U)}
  {σ : Shared S (Key U) (Row U) (Event U)} {A : Assertion S (Key U) (Row U) (Event U)}

/-- One participant after another, where `P rest` holds while `rest` are still to
come. -/
theorem triple_updateEach {P : List U → Assertion S (Key U) (Row U) (Event U)}
    {set : Participant → Option Participant}
    (hP : ∀ rest, Stable (discipline S users e c) s (P rest))
    (hwrite : ∀ v rest t σ p p', P (v :: rest) t σ → participantOf (t.view σ) v = some p →
      set p = some p' → P rest (t.run [] [(.participant v, .participant (some p'))]) σ)
    (hskip : ∀ v rest t σ, P (v :: rest) t σ →
      (∀ p, participantOf (t.view σ) v = some p → set p = none) → P rest t σ) (list : List U) :
    Triple (discipline S users e c) s (P list) (updateEach set list) fun _ => P [] := by
  induction list with
  | nil => exact triple_pure fun _ _ h => h
  | cons v rest ih =>
    refine Triple.bind (Q := fun _ => P rest) (triple_updateParticipant (hP _) ?_ ?_) fun _ => ih
    · exact fun t σ _ p p' h _ _ hp hset => hwrite v rest t σ p p' h hp hset
    · exact fun t σ h _ hnone => hskip v rest t σ h hnone

/-- An UPDATE of all participants by a transaction that holds the session. -/
theorem triple_updateParticipants {set : Participant → Option Participant}
    {P : List U → (Key U → Prop) → Summary U → Summary U → Prop}
    (hA : Stable (discipline S users e c) s A)
    (hselect : ∀ t σ, A t σ → Holding (P (users.filter fun v =>
      ((participantOf (t.view σ) v).bind set).isSome)) t σ)
    (hstate : ∀ p p', set p = some p' → p'.state = .invited → p.state = .invited)
    (hkeeps : ∀ rest own a a' p p', P rest own a a' → set p = some p' →
      (p.state = .invited → p'.state = .invited) ∨
        ∀ row, a'.session = some row → row.status ≠ .ringing)
    (hwrite : ∀ v rest own a a' p p', P (v :: rest) own a a' → a'.marks v = some p.mark →
      set p = some p' → P rest (fun k => own k ∨ k = .participant v) a
        { a' with marks := Function.update a'.marks v (some p'.mark) })
    (hskip : ∀ v rest own a a', P (v :: rest) own a a' →
      (∀ m, a'.marks v = some m → ∃ p, p.mark = m ∧ set p = none) → P rest own a a') :
    Triple (discipline S users e c) s A (updateParticipants users set) fun _ => Holding (P []) := by
  refine Triple.bind (Q := fun list => Holding (P list))
    (triple_select hA fun t σ h _ _ _ _ => hselect t σ h) fun list =>
    triple_updateEach (P := fun rest => Holding (P rest)) (fun _ => Holding.stable) ?_ ?_ list
  · intro v rest t σ p p' h hp hset
    refine h.write_participant (fun hp' => ⟨p, hp, hstate p p' hset hp'⟩) ?_
      (hwrite v rest _ _ _ p p' h.know (by simp [hp]) hset)
    refine (hkeeps _ _ _ _ p p' h.know hset).imp_left ?_
    rintro hkeep ⟨p'', hp'', hinvited⟩
    obtain rfl := Option.some.inj (hp.symm.trans hp'')
    exact hkeep hinvited
  · refine fun v rest t σ h hnone => { h with know := hskip v rest _ _ _ h.know fun m hm => ?_ }
    obtain ⟨p, hp, rfl⟩ := Option.map_eq_some_iff.mp hm
    exact ⟨p, rfl, hnone p hp⟩

/-! ### The end of a call, and of a recording -/

/-- A session ends right, from any point of a transaction where it was right. -/
theorem triple_endSessionRow (hnodup : users.Nodup) {session : SessionRow U} {reason : EndReason}
    {now : Int} (hA : Stable (discipline S users e c) s A) (htame : ∀ t σ, A t σ → Tame t σ)
    (hkept : ∀ t σ, A t σ → (discipline S users e c).inv σ →
      Kept users e c (summary σ.rows) (summary (t.view σ))) :
    Triple (discipline S users e c) s A (endSessionRow users session reason now) fun _ =>
      Holding fun _ => Kept users e c := by
  have hending : Stable (discipline S users e c) s (Holding fun _ => Ending users c) :=
    Holding.stable
  refine Triple.bind (Q := fun _ => A) (triple_select hA fun t σ h _ _ _ _ => h) fun _ => ?_
  refine Triple.bind (Q := fun _ => Holding fun _ => Ending users c)
    (triple_updateSession (P := fun _ _ => Ending users c) hA htame (by simp) ?_ ?_
      fun _ _ _ h => h) fun _ => ?_
  · rintro t σ held row row' h hinv _ hrow ⟨rfl⟩ _
    exact ⟨Or.inr (by simp), (hkept t σ h hinv).ending hrow _ _⟩
  · intro t σ h hinv hnone
    obtain ⟨_, row, row', _, hrow', _⟩ := hkept t σ h hinv
    exact absurd (hnone row' hrow') (by simp)
  have hquiet {a a' : Summary U} (h : Ending users c a a') (row : SessionRow U)
      (hrow : a'.session = some row) : row.status ≠ .ringing := by
    obtain ⟨_, row', _, hrow', _, _, hended, _⟩ := h.session
    obtain rfl := Option.some.inj (hrow'.symm.trans hrow)
    simp [hended]
  -- nobody is in the call but those still to come
  refine Triple.bind (Q := fun _ => Holding fun _ => Ending users c)
    (triple_updateParticipants (P := fun _ _ => Ending users c) hending (fun _ _ h => h) ?_
      (fun _ _ _ _ _ _ h _ => Or.inr (hquiet h)) ?_ fun _ _ _ _ _ h _ => h) fun _ => ?_
  · intro p p' hset
    split_ifs at hset
    simp [← Option.some.inj hset]
  · intro v rest own a a' p p' h hp hset
    split_ifs at hset
    apply h.settle hnodup (h.listed.known v (by simp [hp]))
    simp [hp, ← Option.some.inj hset, Participant.mark]
  refine Triple.bind (Q := fun _ => Holding fun _ => Kept users e c)
    ((triple_updateParticipants (P := fun rest _ a a' => Ending users c a a' ∧
      ∀ v m, a'.marks v = some m → m.joined = true → v ∈ rest) hending ?_ ?_
      (fun _ _ _ _ _ _ h _ => Or.inr (hquiet h.1)) ?_ ?_).conseq (fun _ _ h => h)
      fun _ t σ h => { h with know := h.know.1.final fun v m hm => ?_ }) fun _ =>
    triple_pure fun _ _ h => h
  · refine fun t σ h => { h with know := ⟨h.know, fun v m hm hjoined => ?_⟩ }
    have hv := h.know.listed.known v (by rw [hm]; rfl)
    obtain ⟨p, hp, rfl⟩ := Option.map_eq_some_iff.mp hm
    have hstate : p.state = .joined := by simpa [Participant.mark] using hjoined
    exact List.mem_filter.mpr ⟨hv, by simp [hp, hstate]⟩
  · intro p p' hset
    split_ifs at hset
    simp [← Option.some.inj hset]
  · rintro v rest own a a' p p' ⟨h, hrest⟩ hp hset
    split_ifs at hset
    obtain rfl := Option.some.inj hset
    refine ⟨h.settle hnodup (h.listed.known v (by simp [hp])) (by simp [hp, Participant.mark]),
      fun w m hw hjoined => ?_⟩
    by_cases hwv : w = v
    · subst hwv
      simp only [Function.update_self, Option.some.injEq] at hw
      simp [← hw, Participant.mark] at hjoined
    · simp only [Function.update_of_ne hwv] at hw
      exact (List.mem_cons.mp (hrest w m hw hjoined)).resolve_left hwv
  · rintro v rest own a a' ⟨h, hrest⟩ hnone
    refine ⟨h, fun w m hw hjoined => (List.mem_cons.mp (hrest w m hw hjoined)).resolve_left ?_⟩
    rintro rfl
    obtain ⟨p, rfl, hp⟩ := hnone m hw
    simp only [ite_eq_right_iff, reduceCtorEq, imp_false] at hp
    simp [Participant.mark, hp] at hjoined
  · by_contra hjoined
    exact absurd (h.know.2 v m hm (by simpa using hjoined)) List.not_mem_nil

/-- Everybody's answer is cleared. -/
theorem triple_resetRecordingConsent (hnodup : users.Nodup) :
    Triple (discipline S users e c) s (Holding fun _ => Resetting users e)
      (resetRecordingConsent users) fun _ => Holding (Final users e c) := by
  let P (rest : List U) (own : Key U → Prop) (a a' : Summary U) : Prop :=
    Resetting users e a a' ∧
      ∀ v m, a'.marks v = some m → v ∉ rest → m.consent = none ∧ own (.participant v)
  refine Triple.bind (Q := fun _ => Holding (P [])) (triple_updateParticipants (P := P)
    Holding.stable ?_ ?_ ?_ ?_ ?_) fun _ => ?_
  · refine fun t σ h => { h with know := ⟨h.know, fun v m hm hv => absurd ?_ hv⟩ }
    have hu := h.know.seated.known v (by rw [hm]; rfl)
    obtain ⟨p, hp, rfl⟩ := Option.map_eq_some_iff.mp hm
    exact List.mem_filter.mpr ⟨hu, by simp [hp]⟩
  · rintro p _ ⟨rfl⟩
    exact id
  · rintro rest own a a' p _ _ ⟨rfl⟩
    exact Or.inl id
  · rintro v rest own a a' p _ ⟨h, hrest⟩ hp ⟨rfl⟩
    refine ⟨h.clear hnodup hp (by simp [Participant.mark]), fun w m hw hnot => ?_⟩
    by_cases hwv : w = v
    · subst hwv
      simp only [Function.update_self, Option.some.injEq] at hw
      exact ⟨by simp [← hw, Participant.mark], Or.inr rfl⟩
    · simp only [Function.update_of_ne hwv] at hw
      obtain ⟨hconsent, hown⟩ := hrest w m hw (by simp [hwv, hnot])
      exact ⟨hconsent, Or.inl hown⟩
  · rintro v rest own a a' ⟨h, hrest⟩ hnone
    refine ⟨h, fun w m hw hnot => hrest w m hw ?_⟩
    rw [List.mem_cons, not_or]
    refine ⟨?_, hnot⟩
    rintro rfl
    obtain ⟨p, _, hp⟩ := hnone m hw
    cases hp
  · refine Triple.bind (Q := fun _ => Holding (Final users e c))
      (triple_updateSession (P := fun _ => Final users e c) Holding.stable
        (fun _ _ h => h.toTame) (by simp) ?_ ?_ fun _ _ _ h => h) fun _ =>
      triple_pure fun _ _ h => h
    · rintro t σ held row row' h hinv _ hrow ⟨rfl⟩ _
      refine ⟨Or.inl h.keeps, h.know.1.final hrow fun v m hm => ?_⟩
      obtain ⟨hconsent, hown⟩ := h.know.2 v m hm List.not_mem_nil
      exact ⟨hconsent, Or.inl hown⟩
    · intro t σ h _ hnone
      obtain ⟨_, row', _, hrow', _⟩ := h.know.1.session
      exact absurd (hnone row' hrow') (by simp)

end

end CallSession
end TaskFlow
