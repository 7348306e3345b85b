import Mathlib.Data.List.Basic
import TaskFlow.StepSystem

/-! # The session of a browser tab

The tab keeps an access token in a store, and exchanges the refresh cookie for a new one.  Callers
that come while an exchange is in flight wait for it (`inFlight`); what it answers is adopted
whenever it comes.  `signOut` clears the store once the server has answered, or has not.

Never are two exchanges in flight.  A sign-out is final as long as no exchange answers with success
after it (`signOut_final`); one that was in flight when the user signed out may
(`adopted_after_signOut`).
-/
namespace TaskFlow
namespace BrowserSession
open StepSystem

abbrev OrgId := String

abbrev UserId := String

abbrev SessionId := String

abbrev AccessToken := String

abbrev Email := String

inductive SessionStatus where
  | restoring
  | authenticated
  | anonymous
  deriving DecidableEq, Repr

structure SessionState where
  status : SessionStatus
  accessToken : Option AccessToken
  /-- In milliseconds. -/
  expiresAt : Option Int
  sessionId : Option SessionId
  userId : Option UserId
  orgId : Option OrgId
  email : Option Email
  deriving DecidableEq, Repr

structure SessionBody where
  accessToken : AccessToken
  expiresInSeconds : Int
  sessionId : SessionId
  deriving DecidableEq, Repr

/-- The org that is remembered between visits, where storage is not blocked. -/
abbrev Storage := Option (Option OrgId)

def storedOrg (storage : Storage) : Option OrgId := storage.join.filter fun value => value ≠ ""

def storeOrg (orgId : Option OrgId) (storage : Storage) : Storage := storage.map fun _ => orgId

/-- Exchanges are counted as they are started. -/
abbrev ExchangeId := Nat

/-- The variables of the tab. -/
structure Tab where
  session : SessionState
  storage : Storage
  inFlight : Option ExchangeId
  deriving DecidableEq, Repr

def Tab.initial (storage : Storage) : Tab where
  session := ⟨.restoring, none, none, none, none, storedOrg storage, none⟩
  storage := storage
  inFlight := none

/-- Ends the session locally. -/
def Tab.clear (tab : Tab) : Tab :=
  { tab with
    session := ⟨.anonymous, none, none, none, none, none, none⟩
    storage := storeOrg none tab.storage }

def Tab.selectOrg (orgId : Option OrgId) (tab : Tab) : Tab :=
  { tab with session := { tab.session with orgId }, storage := storeOrg orgId tab.storage }

/-- What the request of an exchange ends with: a session, or an error, with its code if the server
gave one. -/
inductive Response where
  | success (body : SessionBody)
  | failure (code : Option String)
  deriving DecidableEq, Repr

/-- The failure means that the session is no longer good. -/
def isUnauthenticated (code : Option String) : Bool :=
  code = some "UNAUTHENTICATED" || code = some "TOKEN_EXPIRED"

def EXPIRY_MARGIN_MS : Int := 30000

/-- The token of the store, where it is not spent. -/
def SessionState.usableToken (session : SessionState) (now : Int) : Option AccessToken :=
  match session.accessToken, session.expiresAt with
  | some token, some expiresAt => if expiresAt - now > EXPIRY_MARGIN_MS then some token else none
  | _, _ => none

section
-- the `sub` claim of a token, where it can be read
variable (decodeUserId : AccessToken → Option UserId)

def SessionState.adopt (session : SessionState) (now : Int) (body : SessionBody)
    (email : Option Email) : SessionState :=
  { session with
    status := .authenticated
    accessToken := some body.accessToken
    expiresAt := some (now + body.expiresInSeconds * 1000)
    sessionId := some body.sessionId
    userId := decodeUserId body.accessToken
    email := email <|> session.email }

/-- The end of an exchange, and what its promise holds. -/
def Tab.exchanged (tab : Tab) (now : Int) : Response → Tab × Option AccessToken
  | .success body =>
    ({ tab with session := tab.session.adopt decodeUserId now body none, inFlight := none },
      some body.accessToken)
  | .failure code =>
    ({ (if isUnauthenticated code then tab.clear else tab) with inFlight := none }, none)

/-! ### Calls -/

/-- Who waits for an exchange. -/
inductive Caller where
  | accessToken
  | refresh
  | restore
  deriving DecidableEq, Repr

inductive Stage where
  /-- The server has not answered. -/
  | underway
  | settled
  /-- Somebody has signed in since. -/
  | followed
  deriving DecidableEq, Repr

/-- A call of `signOut`, and the exchanges in flight when it was made. -/
structure SignOut where
  before : List ExchangeId
  stage : Stage
  deriving DecidableEq, Repr

/-- A sign-in comes after what has settled. -/
def SignOut.follow (signOut : SignOut) : SignOut :=
  { signOut with stage := if signOut.stage = .settled then .followed else signOut.stage }

/-- The tab, and what is under way in it. -/
structure System where
  tab : Tab
  /-- How many exchanges have been started. -/
  started : Nat
  /-- Those in flight. -/
  outstanding : List ExchangeId
  /-- What the promises of the others hold. -/
  answers : ExchangeId → Option (Option AccessToken)
  waiting : List (Caller × ExchangeId)
  /-- What calls of `accessToken` and `refresh` have returned, the most recent first. -/
  returned : List (Option AccessToken)
  signOuts : List SignOut

/-- The page is loaded. -/
def initial (storage : Storage) : System :=
  ⟨.initial storage, 0, [], fun _ => none, [], [], []⟩

/-- Joins the exchange in flight, or starts one. -/
def System.refresh (sys : System) (caller : Caller) : System :=
  match sys.tab.inFlight with
  | some id => { sys with waiting := sys.waiting ++ [(caller, id)] }
  | none =>
    { sys with
      tab := { sys.tab with inFlight := some sys.started }
      started := sys.started + 1
      outstanding := sys.started :: sys.outstanding
      waiting := sys.waiting ++ [(caller, sys.started)] }

/-- A caller goes on with what its exchange came to. -/
def System.resume (sys : System) (caller : Caller) (token : Option AccessToken) : System :=
  match caller with
  | .accessToken | .refresh => { sys with returned := token :: sys.returned }
  | .restore => if token = none then { sys with tab := sys.tab.clear } else sys

inductive Action where
  | accessToken (now : Int)
  | refresh
  | restore
  | answer (id : ExchangeId) (response : Response) (now : Int)
  /-- The caller at this place goes on. -/
  | resume (place : Nat)
  | signOut
  /-- The request of the sign-out at this place ends, whether it has succeeded or failed. -/
  | loggedOut (place : Nat)
  | signIn (body : SessionBody) (email : Option Email) (now : Int)
  | selectOrg (orgId : Option OrgId)
  deriving DecidableEq, Repr

def step (sys : System) : Action → Option System
  | .accessToken now =>
    match sys.tab.session.usableToken now with
    | some token => some { sys with returned := some token :: sys.returned }
    | none => some (sys.refresh .accessToken)
  | .refresh => some (sys.refresh .refresh)
  | .restore => some (sys.refresh .restore)
  | .answer id response now =>
    if id ∈ sys.outstanding then
      some { sys with
        tab := (sys.tab.exchanged decodeUserId now response).1
        outstanding := sys.outstanding.erase id
        answers := Function.update sys.answers id
          (some (sys.tab.exchanged decodeUserId now response).2) }
    else none
  | .resume place => do
    let (caller, id) ← sys.waiting[place]?
    let token ← sys.answers id
    return { sys.resume caller token with waiting := sys.waiting.eraseIdx place }
  | .signOut => some { sys with signOuts := sys.signOuts ++ [⟨sys.outstanding, .underway⟩] }
  | .loggedOut place => do
    let signOut ← sys.signOuts[place]?
    if signOut.stage = .underway then
      some { sys with
        tab := sys.tab.clear
        signOuts := sys.signOuts.set place { signOut with stage := .settled } }
    else none
  | .signIn body email now => some { sys with
      tab := { sys.tab with session := sys.tab.session.adopt decodeUserId now body email }
      signOuts := sys.signOuts.map SignOut.follow }
  | .selectOrg orgId => some { sys with tab := sys.tab.selectOrg orgId }

end

/-! ### One exchange at a time -/

/-- The exchange in flight is the one that callers join. -/
def SingleFlight (sys : System) : Prop := sys.outstanding = sys.tab.inFlight.toList

theorem SingleFlight.length_le {sys : System} (h : SingleFlight sys) :
    sys.outstanding.length ≤ 1 := by
  rw [show sys.outstanding = sys.tab.inFlight.toList from h]
  cases sys.tab.inFlight <;> simp

/-- The exchange that answers is the only one. -/
theorem SingleFlight.erase {sys : System} (h : SingleFlight sys) {id : ExchangeId}
    (hid : id ∈ sys.outstanding) : sys.outstanding.erase id = [] := by
  have heq : sys.outstanding = sys.tab.inFlight.toList := h
  cases hflight : sys.tab.inFlight with
  | none => simp [heq, hflight] at hid
  | some id' =>
    rw [hflight, Option.toList_some] at heq
    rw [heq, List.mem_singleton] at hid
    rw [heq, hid, List.erase_cons_head]

/-- A caller joins the exchange in flight. -/
theorem SingleFlight.refresh {sys : System} (h : SingleFlight sys) (caller : Caller) :
    SingleFlight (sys.refresh caller) := by
  unfold SingleFlight at h
  unfold System.refresh
  cases hflight : sys.tab.inFlight with
  | none =>
    rw [hflight, Option.toList_none] at h
    simp [SingleFlight, h]
  | some id =>
    rw [hflight] at h
    simpa [SingleFlight, hflight] using h

@[simp] theorem inFlight_clear (tab : Tab) : tab.clear.inFlight = tab.inFlight := rfl

/-- An exchange that has ended is not in flight. -/
theorem inFlight_exchanged {decodeUserId : AccessToken → Option UserId} (tab : Tab) (now : Int)
    (response : Response) : (tab.exchanged decodeUserId now response).1.inFlight = none := by
  cases response <;> rfl

theorem resume_tab (sys : System) (caller : Caller) (token : Option AccessToken) :
    (sys.resume caller token).tab = sys.tab ∨ (sys.resume caller token).tab = sys.tab.clear := by
  cases caller with
  | accessToken | refresh => exact .inl rfl
  | restore =>
    by_cases htoken : token = none
    · exact .inr (by simp [System.resume, htoken])
    · exact .inl (by simp [System.resume, htoken])

/-- A caller that goes on leaves the exchanges and the sign-outs. -/
theorem resume_rest (sys : System) (caller : Caller) (token : Option AccessToken) :
    (sys.resume caller token).outstanding = sys.outstanding ∧
      (sys.resume caller token).signOuts = sys.signOuts := by
  cases caller with
  | accessToken | refresh => exact ⟨rfl, rfl⟩
  | restore => by_cases htoken : token = none <;> simp [System.resume, htoken]

/-- Nobody is signed in. -/
def Anonymous (session : SessionState) : Prop :=
  session.status = .anonymous ∧ session.accessToken = none

/-- The user has signed out, and nobody has signed in since. -/
def SignedOut (sys : System) : Prop := ∃ signOut ∈ sys.signOuts, signOut.stage = .settled

/-- **Once a sign-out and every exchange that was in flight when it was made have settled, and
nobody has signed in since, the tab is anonymous and has no token.** -/
def SignOutFinal (sys : System) : Prop :=
  ∀ signOut ∈ sys.signOuts, signOut.stage = .settled →
    (∀ id ∈ signOut.before, id ∉ sys.outstanding) → Anonymous sys.tab.session

/-- No exchange answers with success while the user is signed out. -/
def Unanswered (sys : System) : Action → Prop
  | .answer _ (.success _) _ => ¬SignedOut sys
  | _ => True

theorem anonymous_clear (tab : Tab) : Anonymous tab.clear.session := ⟨rfl, rfl⟩

theorem anonymous_failure {decodeUserId : AccessToken → Option UserId} {tab : Tab}
    (h : Anonymous tab.session) (now : Int) (code : Option String) :
    Anonymous (tab.exchanged decodeUserId now (.failure code)).1.session := by
  by_cases hcode : isUnauthenticated code
  · rw [Tab.exchanged, if_pos hcode]
    exact anonymous_clear tab
  · rw [Tab.exchanged, if_neg hcode]
    exact h

/-- After a sign-in no sign-out is the last word. -/
theorem stage_follow (signOut : SignOut) : signOut.follow.stage ≠ .settled := by
  unfold SignOut.follow
  by_cases h : signOut.stage = .settled <;> simp [h]

section
variable {decodeUserId : AccessToken → Option UserId} {storage : Storage} {sys sys' : System}
  {action : Action}

/-- What a step does to what is in flight, to the sign-outs and to the store. -/
theorem step_cases (h : step decodeUserId sys action = some sys') :
    (∃ caller, sys' = sys.refresh caller) ∨
    (∃ id response now, action = .answer id response now ∧ id ∈ sys.outstanding ∧
      sys'.outstanding = sys.outstanding.erase id ∧ sys'.signOuts = sys.signOuts ∧
      sys'.tab = (sys.tab.exchanged decodeUserId now response).1) ∨
    (sys'.outstanding = sys.outstanding ∧
      ((∃ before, sys'.signOuts = sys.signOuts ++ [⟨before, .underway⟩]) ∨
        sys'.signOuts = sys.signOuts) ∧
      (sys'.tab = sys.tab ∨ sys'.tab = sys.tab.clear ∨
        ∃ orgId, sys'.tab = sys.tab.selectOrg orgId)) ∨
    (∃ signOuts, sys' = { sys with tab := sys.tab.clear, signOuts := signOuts }) ∨
    (∃ session, sys' = { sys with
      tab := { sys.tab with session := session }
      signOuts := sys.signOuts.map SignOut.follow }) := by
  cases action with
  | accessToken now =>
    simp only [step] at h
    split at h
    · obtain rfl := Option.some.inj h
      exact .inr (.inr (.inl ⟨rfl, .inr rfl, .inl rfl⟩))
    · exact .inl ⟨_, (Option.some.inj h).symm⟩
  | refresh | restore => exact .inl ⟨_, (Option.some.inj h).symm⟩
  | answer id response now =>
    obtain ⟨hid, heq⟩ := Option.ite_none_right_eq_some.mp h
    obtain rfl := Option.some.inj heq
    exact .inr (.inl ⟨id, response, now, rfl, hid, rfl, rfl, rfl⟩)
  | resume place =>
    obtain ⟨⟨caller, id⟩, -, h⟩ := Option.bind_eq_some_iff.mp h
    obtain ⟨token, -, h⟩ := Option.bind_eq_some_iff.mp h
    obtain rfl := Option.some.inj h
    obtain ⟨houtstanding, hsignOuts⟩ := resume_rest sys caller token
    have htab := resume_tab sys caller token
    exact .inr (.inr (.inl ⟨houtstanding, .inr hsignOuts, htab.imp_right .inl⟩))
  | signOut =>
    obtain rfl := Option.some.inj h
    exact .inr (.inr (.inl ⟨rfl, .inl ⟨_, rfl⟩, .inl rfl⟩))
  | loggedOut place =>
    obtain ⟨signOut, -, h⟩ := Option.bind_eq_some_iff.mp h
    obtain ⟨-, heq⟩ := Option.ite_none_right_eq_some.mp h
    exact .inr (.inr (.inr (.inl ⟨_, (Option.some.inj heq).symm⟩)))
  | signIn body email now => exact .inr (.inr (.inr (.inr ⟨_, (Option.some.inj h).symm⟩)))
  | selectOrg orgId =>
    obtain rfl := Option.some.inj h
    exact .inr (.inr (.inl ⟨rfl, .inr rfl, .inr (.inr ⟨orgId, rfl⟩)⟩))

theorem singleFlight_step (hflight : SingleFlight sys)
    (h : step decodeUserId sys action = some sys') : SingleFlight sys' := by
  rcases step_cases h with ⟨caller, rfl⟩ | ⟨id, response, now, -, hid, houtstanding, -, htab⟩ |
    ⟨houtstanding, -, htab⟩ | ⟨signOuts, rfl⟩ | ⟨session, rfl⟩
  · exact hflight.refresh caller
  · rw [SingleFlight, houtstanding, htab, inFlight_exchanged, hflight.erase hid]
    rfl
  · have hsame : sys'.tab.inFlight = sys.tab.inFlight := by
      rcases htab with htab | htab | ⟨orgId, htab⟩ <;> rw [htab] <;> rfl
    rw [SingleFlight, houtstanding, hsame]
    exact hflight
  · exact hflight
  · exact hflight

theorem singleFlight_reachable (h : Reachable (step decodeUserId) (initial storage) sys) :
    SingleFlight sys :=
  ReachableWhen.invariant (I := SingleFlight) h rfl fun hflight _ hstep =>
    singleFlight_step hflight hstep

/-- Nothing but a success or a sign-in ends it. -/
theorem anonymous_step (hanonymous : SignedOut sys → Anonymous sys.tab.session)
    (hunanswered : Unanswered sys action) (h : step decodeUserId sys action = some sys')
    (hout : SignedOut sys') : Anonymous sys'.tab.session := by
  rcases step_cases h with ⟨caller, rfl⟩ |
    ⟨id, response, now, rfl, -, -, hsignOuts, htab⟩ | ⟨-, hsignOuts, htab⟩ | ⟨signOuts, rfl⟩ |
    ⟨session, rfl⟩
  · have hsame : (sys.refresh caller).signOuts = sys.signOuts ∧
        (sys.refresh caller).tab.session = sys.tab.session := by
      unfold System.refresh
      split <;> exact ⟨rfl, rfl⟩
    rw [SignedOut, hsame.1] at hout
    rw [hsame.2]
    exact hanonymous hout
  · rw [SignedOut, hsignOuts] at hout
    rw [htab]
    cases response with
    | success body => exact absurd hout hunanswered
    | failure code => exact anonymous_failure (hanonymous hout) now code
  · have hout' : SignedOut sys := by
      rcases hsignOuts with ⟨before, hsignOuts⟩ | hsignOuts
      · obtain ⟨signOut, hmem, hstage⟩ := hout
        rw [hsignOuts] at hmem
        rcases List.mem_append.mp hmem with hmem | hmem
        · exact ⟨signOut, hmem, hstage⟩
        · rw [List.mem_singleton.mp hmem] at hstage
          cases hstage
      · rwa [SignedOut, hsignOuts] at hout
    rcases htab with htab | htab | ⟨orgId, htab⟩ <;> rw [htab]
    · exact hanonymous hout'
    · exact anonymous_clear sys.tab
    · exact hanonymous hout'
  · exact anonymous_clear sys.tab
  · obtain ⟨signOut, hmem, hstage⟩ := hout
    obtain ⟨signOut', -, rfl⟩ := List.mem_map.mp hmem
    exact absurd hstage (stage_follow signOut')

/-- A success signs the user in again. -/
theorem not_final_of_answered (hflight : SingleFlight sys) (hanswered : ¬Unanswered sys action)
    (h : step decodeUserId sys action = some sys') : ¬SignOutFinal sys' := by
  intro hfinal
  cases action with
  | answer id response now =>
    cases response with
    | failure code => exact hanswered trivial
    | success body =>
      obtain ⟨signOut, hmem, hstage⟩ : SignedOut sys := not_not.mp hanswered
      obtain ⟨hid, heq⟩ := Option.ite_none_right_eq_some.mp h
      obtain rfl := Option.some.inj heq
      have hanonymous := hfinal signOut hmem hstage fun id' _ hid' => by
        rw [hflight.erase hid] at hid'
        cases hid'
      cases hanonymous.1
  | accessToken | refresh | restore | resume | signOut | loggedOut | signIn | selectOrg =>
    exact hanswered trivial

/-- **Never are two exchanges in flight; a sign-out is final where no exchange answers with success
after it, and is not where one does.** -/
theorem signOut_final (h : Reachable (step decodeUserId) (initial storage) sys) :
    sys.outstanding.length ≤ 1 ∧
      (ReachableWhen (step decodeUserId) Unanswered (initial storage) sys → SignOutFinal sys) ∧
      ∀ action sys', step decodeUserId sys action = some sys' → ¬Unanswered sys action →
        ¬SignOutFinal sys' := by
  have hflight := singleFlight_reachable h
  refine ⟨hflight.length_le, fun hrun => ?_, fun action sys' hstep hanswered =>
    not_final_of_answered hflight hanswered hstep⟩
  have hanonymous : SignedOut sys → Anonymous sys.tab.session :=
    hrun.invariant (I := fun sys => SignedOut sys → Anonymous sys.tab.session)
      (fun ⟨_, hmem, _⟩ => absurd hmem List.not_mem_nil)
      fun hanonymous hunanswered hstep => anonymous_step hanonymous hunanswered hstep
  exact fun signOut hmem hstage _ => hanonymous ⟨signOut, hmem, hstage⟩

end

/-! ### An exchange that was in flight -/

instance (sys : System) : Decidable (SignedOut sys) :=
  inferInstanceAs (Decidable (∃ signOut ∈ sys.signOuts, signOut.stage = .settled))

instance (sys : System) (action : Action) : Decidable (Unanswered sys action) :=
  match action with
  | .answer _ (.success _) _ => inferInstanceAs (Decidable (¬SignedOut sys))
  | .accessToken _ | .refresh | .restore | .answer _ (.failure _) _ | .resume _ | .signOut
  | .loggedOut _ | .signIn .. | .selectOrg _ => isTrue trivial

def renewed : SessionBody := ⟨"t", 900, "s"⟩

/-- The exchange answers before the server has signed the user out, and is adopted and cleared. -/
theorem signOut_final_inTime : ∃ sys : System,
    Reachable (step fun _ => none) (initial none) sys ∧ SignedOut sys ∧
      sys.outstanding.length ≤ 1 ∧ SignOutFinal sys := by
  have hsome : ((runWhen (step fun _ => none) Unanswered (initial none)
      [.restore, .signOut, .answer 0 (.success renewed) 0, .resume 0, .loggedOut 0,
        .accessToken 0]).map fun sys => decide (SignedOut sys)) = some true := rfl
  obtain ⟨sys, hrun, hout⟩ := Option.map_eq_some_iff.mp hsome
  have hwhen := reachableWhen_of_runWhen hrun
  have hreach : Reachable (step fun _ => none) (initial none) sys :=
    hwhen.mono fun _ _ _ => trivial
  obtain ⟨hlength, hfinal, -⟩ := signOut_final hreach
  exact ⟨sys, hreach, of_decide_eq_true hout, hlength, hfinal hwhen⟩

/-- **The exchange that the tab began on answers after it has signed the user out**, and everything
has settled: the tab is authenticated, with a token. -/
theorem adopted_after_signOut : ∃ sys : System,
    run (step fun _ => none) (initial none)
        [.accessToken 0, .signOut, .loggedOut 0, .answer 0 (.success renewed) 1] = some sys ∧
      sys.signOuts = [⟨[0], .settled⟩] ∧ sys.outstanding = [] ∧
      sys.tab.session.status = .authenticated ∧ sys.tab.session.accessToken = some "t" ∧
      ¬SignOutFinal sys := by
  have hsome : ((run (step fun _ => none) (initial none)
      [.accessToken 0, .signOut, .loggedOut 0, .answer 0 (.success renewed) 1]).map fun sys =>
        (sys.signOuts, sys.outstanding, sys.tab.session.status, sys.tab.session.accessToken)) =
      some ([⟨[0], .settled⟩], [], .authenticated, some "t") := rfl
  obtain ⟨sys, hrun, hresult⟩ := Option.map_eq_some_iff.mp hsome
  simp only [Prod.mk.injEq] at hresult
  obtain ⟨hsignOuts, houtstanding, hstatus, htoken⟩ := hresult
  refine ⟨sys, hrun, hsignOuts, houtstanding, hstatus, htoken, fun hfinal => ?_⟩
  have hanonymous := hfinal ⟨[0], .settled⟩ (by rw [hsignOuts]; exact List.mem_singleton_self _) rfl
    fun id _ hid => by rw [houtstanding] at hid; cases hid
  rw [Anonymous, hstatus] at hanonymous
  cases hanonymous.1

end BrowserSession
end TaskFlow
