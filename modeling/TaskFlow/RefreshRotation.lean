import Mathlib.Data.List.Count
import Mathlib.Order.Lattice
import TaskFlow.ScriptLogic

/-! # Rotating refresh tokens

`refresh` exchanges a token for the next of its session.  A token that comes a second time is a
sign that it was stolen, and the session is to be revoked.  The lookup sees it where the token was
rotated before; where two requests race, the conditional UPDATE in `rotateRefreshToken` decides,
and the request that loses only throws.

In every interleaving a session has at most one token that is not rotated, and no token is
exchanged twice.  That the second request revokes the session holds just as long as those that
lose the UPDATE find it revoked already (`detected_of_adjudicated`).
-/
namespace TaskFlow
namespace RefreshRotation
open ReadCommitted ReadCommitted.Script ReadCommitted.Procedure

abbrev SessionId := String

abbrev UserId := String

abbrev TokenHash := String

inductive SessionChannel where
  | browser
  | native
  deriving DecidableEq, Repr

structure DevicePublicKey where
  x : String
  y : String
  deriving DecidableEq, Repr

/-- A row of `identity.sessions` as far as refreshing goes. -/
structure Session where
  expiresAt : Int
  revokedAt : Option Int
  revokedReason : Option String
  lastSeenAt : Int
  channel : SessionChannel
  devicePublicKey : Option DevicePublicKey
  deriving DecidableEq, Repr

/-- A row of `identity.refresh_tokens` but for its id: the hash is unique as well. -/
structure RefreshToken where
  sessionId : SessionId
  userId : UserId
  expiresAt : Int
  rotatedAt : Option Int
  deriving DecidableEq, Repr

inductive Key where
  | session (id : SessionId)
  | token (hash : TokenHash)
  deriving DecidableEq, Repr

inductive Row where
  | session (session : Session)
  | token (token : RefreshToken)
  deriving DecidableEq, Repr

abbrev Rows := Key → Option Row

def Row.session? : Row → Option Session
  | .session row => some row
  | .token _ => none

def Row.token? : Row → Option RefreshToken
  | .session _ => none
  | .token row => some row

def sessionRow (rows : Rows) (id : SessionId) : Option Session :=
  (rows (.session id)).bind Row.session?

def tokenRow (rows : Rows) (hash : TokenHash) : Option RefreshToken :=
  (rows (.token hash)).bind Row.token?

/-- How a request that has got past the lookup ends. -/
inductive Note where
  | exchanged (hash : TokenHash)
  /-- The conditional UPDATE found the token rotated. -/
  | lost (hash : TokenHash)
  /-- The lookup found the token rotated, and the session is revoked. -/
  | reused (hash : TokenHash)
  deriving DecidableEq, Repr

def Note.hash : Note → TokenHash
  | .exchanged hash | .lost hash | .reused hash => hash

abbrev Procedure (α : Type) := ReadCommitted.Procedure Key (Option Row) Unit Unit Note α

/-! ### The repository -/

structure RefreshLookup where
  sessionId : SessionId
  userId : UserId
  tokenExpiresAt : Int
  rotatedAt : Option Int
  sessionRevokedAt : Option Int
  sessionExpiresAt : Int
  channel : SessionChannel
  devicePublicKey : Option DevicePublicKey
  deriving DecidableEq, Repr

/-- The token and its session, in one query. -/
def lookup (rows : Rows) (hash : TokenHash) : Option RefreshLookup := do
  let token ← tokenRow rows hash
  let session ← sessionRow rows token.sessionId
  return ⟨token.sessionId, token.userId, token.expiresAt, token.rotatedAt, session.revokedAt,
    session.expiresAt, session.channel, session.devicePublicKey⟩

def findRefreshToken (hash : TokenHash) : Procedure (Option RefreshLookup) :=
  transaction do
    let found ← select () fun rows => lookup rows hash
    return ([], found)

/-- A token to be stored. -/
structure NextToken where
  tokenHash : TokenHash
  expiresAt : Int
  deriving DecidableEq, Repr

def rotate (now : Int) (row : Row) : Option Row :=
  (row.token?.filter fun token => token.rotatedAt = none).map fun token =>
    .token { token with rotatedAt := some now }

def touch (now : Int) (row : Row) : Option Row :=
  row.session?.map fun session => .session { session with lastSeenAt := now }

def revoke (reason : String) (now : Int) (row : Row) : Option Row :=
  (row.session?.filter fun session => session.revokedAt = none).map fun session =>
    .session { session with revokedAt := some now, revokedReason := some reason }

/-- An UPDATE of a row that is there. -/
def updateRow (key : Key) (f : Row → Option Row) : Procedure (Option (Option Row)) :=
  update () key fun _ row => (row.bind f).map some

/-- Marks the token as rotated, if it is not, and stores the next one. -/
def rotateRefreshToken (presented : TokenHash) (sessionId : SessionId) (userId : UserId)
    (next : NextToken) (now : Int) : Procedure Bool :=
  transaction do
    let claimed ← updateRow (.token presented) (rotate now)
    if claimed.isNone then
      return ([.lost presented], false)
    else
      let inserted ← update () (.token next.tokenHash) fun _ row =>
        if row.isSome then none
        else some (some (.token ⟨sessionId, userId, next.expiresAt, none⟩))
      require inserted.isSome
      let _ ← updateRow (.session sessionId) (touch now)
      return ([.exchanged presented], true)

def revokeSession (sessionId : SessionId) (reason : String) (now : Int) (notes : List Note) :
    Procedure Unit :=
  transaction do
    let _ ← updateRow (.session sessionId) (revoke reason now)
    return (notes, ())

/-! ### The service -/

/-- A request, with what the clock and the generator of tokens give it. -/
structure RefreshInput where
  refreshToken : String
  deviceSignature : Option String
  expectedChannel : SessionChannel
  now : Int
  /-- The hash of the token it is to get. -/
  next : TokenHash
  deriving DecidableEq, Repr

structure Config where
  refreshTokenTtlMs : Int
  hashToken : String → TokenHash
  /-- The key, the signature and what it is a signature of. -/
  verifyDeviceSignature : DevicePublicKey → String → String → Bool

variable (config : Config)

def refresh (input : RefreshInput) : Procedure Unit := do
  let presented := config.hashToken input.refreshToken
  let lookup ← findRefreshToken presented
  let found ← ofOption lookup
  require (found.channel = input.expectedChannel)
  require (found.devicePublicKey.all fun key => input.deviceSignature.any fun signature =>
    config.verifyDeviceSignature key signature input.refreshToken)
  if found.rotatedAt ≠ none then
    revokeSession found.sessionId "token_reuse" input.now [.reused presented]
    fail
  else
    require (found.sessionRevokedAt = none ∧ input.now < found.tokenExpiresAt ∧
      input.now < found.sessionExpiresAt)
    let rotated ← rotateRefreshToken presented found.sessionId found.userId
      ⟨input.next, input.now + config.refreshTokenTtlMs⟩ input.now
    require rotated

def calls (input : RefreshInput) : Script Key (Option Row) Unit Unit Note :=
  (refresh config input).script

/-! ### What a commit does -/

/-- The token has been exchanged. -/
def Rotated (rows : Rows) (hash : TokenHash) : Prop :=
  ∃ token, tokenRow rows hash = some token ∧ token.rotatedAt ≠ none

/-- The session of the token is revoked. -/
def Revoked (rows : Rows) (hash : TokenHash) : Prop :=
  ∃ token session, tokenRow rows hash = some token ∧
    sessionRow rows token.sessionId = some session ∧ session.revokedAt ≠ none

/-- What there is stays, a token that is rotated stays so, and a session that is revoked. -/
structure Grows (rows rows' : Rows) : Prop where
  token : ∀ hash token, tokenRow rows hash = some token → ∃ token',
    tokenRow rows' hash = some token' ∧ token'.sessionId = token.sessionId ∧
      (token.rotatedAt ≠ none → token'.rotatedAt ≠ none)
  session : ∀ id session, sessionRow rows id = some session → ∃ session',
    sessionRow rows' id = some session' ∧ (session.revokedAt ≠ none → session'.revokedAt ≠ none)

/-- What a commit with these notes does to the tokens. -/
inductive Refreshed (rows rows' : Rows) : List Note → Prop where
  | nothing (h : rows' = rows) : Refreshed rows rows' []
  | lost (hash : TokenHash) (hrotated : Rotated rows hash) (h : rows' = rows) :
    Refreshed rows rows' [.lost hash]
  | reused (hash : TokenHash) (hrotated : Rotated rows hash) (hrevoked : Revoked rows' hash)
    (h : ∀ hash, tokenRow rows' hash = tokenRow rows hash) : Refreshed rows rows' [.reused hash]
  | exchanged (hash next : TokenHash) (now : Int) (token token' : RefreshToken)
    (htoken : tokenRow rows hash = some token) (hrotated : token.rotatedAt = none)
    (hnext : tokenRow rows next = none) (hsession : token'.sessionId = token.sessionId)
    (hfresh : token'.rotatedAt = none)
    (h : ∀ other, tokenRow rows' other = if other = next then some token' else
      if other = hash then some { token with rotatedAt := some now } else tokenRow rows other) :
    Refreshed rows rows' [.exchanged hash]

/-- A session has at most one token that is not rotated. -/
def OneUnrotated (rows : Rows) : Prop :=
  ∀ hash hash' token token', tokenRow rows hash = some token → tokenRow rows hash' = some token' →
    token.rotatedAt = none → token'.rotatedAt = none → token.sessionId = token'.sessionId →
    hash = hash'

/-- What sessions keep to: every rotated token has been noted as exchanged, or was rotated at the
start, and what has been noted was about a token that is rotated now. -/
structure Rotation (start rows : Rows) (log : List Note) : Prop where
  one : OneUnrotated rows
  rotated : ∀ hash, Rotated rows hash ↔ Rotated start hash ∨ .exchanged hash ∈ log
  noted : ∀ note ∈ log, Rotated rows note.hash
  once : ∀ hash, log.count (.exchanged hash) ≤ 1

def discipline (S : Type) (start : Rows) : Discipline S Key (Option Row) Unit Unit Note where
  inv σ := Rotation start σ.rows (σ.log.map Prod.snd)
  guarantee _ notes _ σ σ' := Grows σ.rows σ'.rows ∧ Refreshed σ.rows σ'.rows notes ∧
    ∀ hash, .lost hash ∈ notes → ¬Rotated start hash
  rely _ own σ σ' := (∀ key, own key → σ'.rows key = σ.rows key) ∧ Grows σ.rows σ'.rows
  condition := {}

section
variable {rows rows' rows'' start : Rows} {hash : TokenHash} {log notes : List Note}

theorem Grows.refl (rows : Rows) : Grows rows rows :=
  ⟨fun _ token h => ⟨token, h, rfl, fun h => h⟩, fun _ session h => ⟨session, h, fun h => h⟩⟩

theorem Grows.trans (h : Grows rows rows') (h' : Grows rows' rows'') : Grows rows rows'' := by
  refine ⟨fun hash token htoken => ?_, fun id session hsession => ?_⟩
  · obtain ⟨token', htoken', hid, hrotated⟩ := h.token hash token htoken
    obtain ⟨token'', htoken'', hid', hrotated'⟩ := h'.token hash token' htoken'
    exact ⟨token'', htoken'', hid'.trans hid, fun h => hrotated' (hrotated h)⟩
  · obtain ⟨session', hsession', hrevoked⟩ := h.session id session hsession
    obtain ⟨session'', hsession'', hrevoked'⟩ := h'.session id session' hsession'
    exact ⟨session'', hsession'', fun h => hrevoked' (hrevoked h)⟩

theorem Rotated.grows (h : Rotated rows hash) (hgrows : Grows rows rows') : Rotated rows' hash := by
  obtain ⟨token, htoken, hrotated⟩ := h
  obtain ⟨token', htoken', -, hrotated'⟩ := hgrows.token hash token htoken
  exact ⟨token', htoken', hrotated' hrotated⟩

theorem Revoked.grows (h : Revoked rows hash) (hgrows : Grows rows rows') : Revoked rows' hash := by
  obtain ⟨token, session, htoken, hsession, hrevoked⟩ := h
  obtain ⟨token', htoken', hid, -⟩ := hgrows.token hash token htoken
  obtain ⟨session', hsession', hrevoked'⟩ := hgrows.session _ session hsession
  exact ⟨token', session', htoken', by rwa [hid], hrevoked' hrevoked⟩

/-- Where the tokens are as they were. -/
theorem rotated_congr (h : ∀ hash, tokenRow rows' hash = tokenRow rows hash) :
    Rotated rows' hash ↔ Rotated rows hash := by
  simp [Rotated, h]

theorem oneUnrotated_congr (h : ∀ hash, tokenRow rows' hash = tokenRow rows hash)
    (hone : OneUnrotated rows) : OneUnrotated rows' := by
  intro hash hash' token token' htoken htoken'
  rw [h] at htoken htoken'
  exact hone hash hash' token token' htoken htoken'

/-- A note of another kind than an exchange. -/
theorem Rotation.note {note : Note} (h : Rotation start rows log)
    (hnote : ∀ hash, note ≠ .exchanged hash) (hrotated : Rotated rows note.hash)
    (hrows : ∀ hash, tokenRow rows' hash = tokenRow rows hash) :
    Rotation start rows' (note :: log) where
  one := oneUnrotated_congr hrows h.one
  rotated hash := by
    rw [rotated_congr hrows, h.rotated, List.mem_cons]
    have hne : Note.exchanged hash ≠ note := (hnote hash).symm
    simp [hne]
  noted other hother := by
    rw [rotated_congr hrows]
    rcases List.mem_cons.mp hother with rfl | hother
    · exact hrotated
    · exact h.noted other hother
  once hash := by
    rw [List.count_cons_of_ne (hnote hash)]
    exact h.once hash

/-- **The next token takes the place of the one that is exchanged.** -/
theorem Refreshed.rotation (h : Refreshed rows rows' notes) (hbefore : Rotation start rows log) :
    Rotation start rows' (notes ++ log) := by
  cases h with
  | nothing h => rwa [h]
  | lost hash hrotated h =>
    exact hbefore.note (fun _ heq => by cases heq) hrotated fun _ => by rw [h]
  | reused hash hrotated _ h => exact hbefore.note (fun _ heq => by cases heq) hrotated h
  | exchanged hash next now token token' htoken hrotated hnext hsession hfresh h =>
    have hne : hash ≠ next := by
      rintro rfl
      rw [hnext] at htoken
      cases htoken
    have hstill (other : TokenHash) : Rotated rows' other ↔ other = hash ∨ Rotated rows other := by
      rw [Rotated, h]
      by_cases hother : other = next
      · subst hother
        simp [Rotated, hnext, hfresh, Ne.symm hne]
      · by_cases hother : other = hash <;> simp [Rotated, *]
    have hnot : ¬Rotated rows hash := by
      rintro ⟨other, hother, hne⟩
      rw [htoken] at hother
      exact hne (Option.some.inj hother ▸ hrotated)
    have hnew : Note.exchanged hash ∉ log := fun hmem =>
      hnot ((hbefore.rotated hash).mpr (.inr hmem))
    refine ⟨?_, fun other => ?_, fun note hnote => ?_, fun other => ?_⟩
    · -- a token of this session that is not rotated is the next one
      have hnext' : ∀ other one, tokenRow rows' other = some one → one.rotatedAt = none →
          other = next ∨ other ≠ hash ∧ tokenRow rows other = some one := by
        intro other one hone hunrotated
        rw [h] at hone
        grind
      intro first second one two hone htwo hunrotated hunrotated' hsame
      have hunique : ∀ other one, tokenRow rows other = some one → one.rotatedAt = none →
          one.sessionId = token.sessionId → other = hash := fun other one hone hnone hid =>
        hbefore.one other hash one token hone htoken hnone hrotated hid
      have hself : tokenRow rows' next = some token' := by rw [h, if_pos rfl]
      rcases hnext' first one hone hunrotated with rfl | ⟨hfirst, hone'⟩
      · rcases hnext' second two htwo hunrotated' with rfl | ⟨hsecond, htwo'⟩
        · rfl
        · rw [hself] at hone
          obtain rfl := Option.some.inj hone
          exact absurd (hunique second two htwo' hunrotated' (hsame.symm.trans hsession)) hsecond
      · rcases hnext' second two htwo hunrotated' with rfl | ⟨hsecond, htwo'⟩
        · rw [hself] at htwo
          obtain rfl := Option.some.inj htwo
          exact absurd (hunique first one hone' hunrotated (hsame.trans hsession)) hfirst
        · exact hbefore.one first second one two hone' htwo' hunrotated hunrotated' hsame
    · rw [hstill, hbefore.rotated, List.singleton_append, List.mem_cons]
      constructor
      · rintro (rfl | hstart | hmem)
        · exact .inr (.inl rfl)
        · exact .inl hstart
        · exact .inr (.inr hmem)
      · rintro (hstart | heq | hmem)
        · exact .inr (.inl hstart)
        · exact .inl (Note.exchanged.inj heq)
        · exact .inr (.inr hmem)
    · rw [hstill]
      rcases List.mem_cons.mp hnote with rfl | hnote
      · exact .inl rfl
      · exact .inr (hbefore.noted note hnote)
    · rw [List.singleton_append]
      by_cases hother : other = hash
      · rw [hother, List.count_cons_self, List.count_eq_zero.mpr hnew]
      · rw [List.count_cons_of_ne fun heq => hother (Note.exchanged.inj heq).symm]
        exact hbefore.once other

/-- The lookup's token, from then on. -/
structure Found (hash : TokenHash) (found : RefreshLookup) (rows : Rows) : Prop where
  token : ∃ token, tokenRow rows hash = some token ∧ token.sessionId = found.sessionId ∧
    (found.rotatedAt ≠ none → token.rotatedAt ≠ none)
  session : ∃ session, sessionRow rows found.sessionId = some session

theorem Found.grows {found : RefreshLookup} (h : Found hash found rows)
    (hgrows : Grows rows rows') : Found hash found rows' := by
  obtain ⟨⟨token, htoken, hid, hrotated⟩, session, hsession⟩ := h
  obtain ⟨token', htoken', hid', hrotated'⟩ := hgrows.token hash token htoken
  obtain ⟨session', hsession', -⟩ := hgrows.session _ session hsession
  exact ⟨⟨token', htoken', hid'.trans hid, fun h => hrotated' (hrotated h)⟩, session', hsession'⟩

theorem found_of_lookup {found : RefreshLookup} (h : lookup rows hash = some found) :
    Found hash found rows := by
  simp only [lookup, Option.bind_eq_bind, Option.bind_eq_some_iff, Option.pure_def,
    Option.some.injEq] at h
  obtain ⟨token, htoken, session, hsession, rfl⟩ := h
  exact ⟨⟨token, htoken, rfl, fun h => h⟩, session, hsession⟩

theorem rotatedAt_of_lookup {found : RefreshLookup} {token : RefreshToken}
    (h : lookup rows hash = some found) (htoken : tokenRow rows hash = some token) :
    found.rotatedAt = token.rotatedAt := by
  simp only [lookup, htoken, Option.bind_eq_bind, Option.bind_some, Option.bind_eq_some_iff,
    Option.pure_def, Option.some.injEq] at h
  obtain ⟨session, -, rfl⟩ := h
  rfl

/-! ### The rows a commit writes -/

@[simp] theorem tokenRow_session (id : SessionId) (row : Option Row) :
    tokenRow (Function.update rows (.session id) row) hash = tokenRow rows hash := by
  simp [tokenRow]

@[simp] theorem sessionRow_token (id : SessionId) (row : Option Row) :
    sessionRow (Function.update rows (.token hash) row) id = sessionRow rows id := by
  simp [sessionRow]

theorem tokenRow_update (other : TokenHash) (row : Option Row) :
    tokenRow (Function.update rows (.token hash) row) other =
      if other = hash then row.bind Row.token? else tokenRow rows other := by
  by_cases h : other = hash <;> simp [tokenRow, h]

theorem sessionRow_update (id other : SessionId) (row : Option Row) :
    sessionRow (Function.update rows (.session id) row) other =
      if other = id then row.bind Row.session? else sessionRow rows other := by
  by_cases h : other = id <;> simp [sessionRow, h]

theorem grows_session {id : SessionId} {session session' : Session}
    (h : sessionRow rows id = some session)
    (hrevoked : session.revokedAt ≠ none → session'.revokedAt ≠ none) :
    Grows rows (Function.update rows (.session id) (some (.session session'))) := by
  refine ⟨fun hash token htoken => ⟨token, by simpa using htoken, rfl, fun h => h⟩, ?_⟩
  intro other found hfound
  rw [sessionRow_update]
  by_cases hother : other = id
  · subst hother
    rw [h] at hfound
    obtain rfl := Option.some.inj hfound
    exact ⟨session', if_pos rfl, hrevoked⟩
  · exact ⟨found, by rwa [if_neg hother], fun h => h⟩

/-- A token that is stored, or takes the place of one of its session. -/
theorem grows_token {token' : RefreshToken}
    (h : ∀ token, tokenRow rows hash = some token → token'.sessionId = token.sessionId ∧
      (token.rotatedAt ≠ none → token'.rotatedAt ≠ none)) :
    Grows rows (Function.update rows (.token hash) (some (.token token'))) := by
  refine ⟨?_, fun id session hsession => ⟨session, by simpa using hsession, fun h => h⟩⟩
  intro other found hfound
  rw [tokenRow_update]
  by_cases hother : other = hash
  · subst hother
    exact ⟨token', if_pos rfl, h found hfound⟩
  · exact ⟨found, by rwa [if_neg hother], rfl, fun h => h⟩

end

section
variable {S : Type} {s : S} {start : Rows} {hash : TokenHash} {found : RefreshLookup}

theorem discipline_lawful : (discipline S start).Lawful where
  refl := fun _ _ _ => ⟨fun _ _ => rfl, Grows.refl _⟩
  trans := fun h h' => ⟨fun key hown => (h'.1 key hown).trans (h.1 key hown), h.2.trans h'.2⟩
  rely := fun _ _ hown _ _ hguarantee => ⟨hown, hguarantee.1⟩

theorem found_stable (P : Assertion S Key (Option Row) Note)
    (hP : Stable (discipline S start) s P) :
    Stable (discipline S start) s fun t σ => Found hash found σ.rows ∧ P t σ :=
  fun t σ σ' h hrely hinv => ⟨h.1.grows hrely.2, hP t σ σ' h.2 hrely hinv⟩

theorem changes_stable {changes : List (Key × Option Row × Option Row)} :
    Stable (discipline S start) s (Replaced changes) :=
  replaced_stable fun _ _ _ hrely => hrely.1

/-- A commit keeps to the discipline if it refreshes tokens as it should. -/
theorem commit_of_refreshed {t : Transaction Key (Option Row)}
    {σ : Shared S Key (Option Row) Note} {notes : List Note} (hinv : (discipline S start).inv σ)
    (hgrows : Grows σ.rows (t.view σ)) (h : Refreshed σ.rows (t.view σ) notes)
    (hlost : ∀ hash, .lost hash ∈ notes → ¬Rotated start hash) :
    (discipline S start).inv (σ.commit s t notes) ∧
      (discipline S start).guarantee s notes t.own σ (σ.commit s t notes) := by
  have hlog : (σ.commit s t notes).log.map Prod.snd = notes ++ σ.log.map Prod.snd := by
    simp [Shared.commit, Function.comp_def]
  refine ⟨?_, hgrows, h, hlost⟩
  have hafter := h.rotation hinv
  rw [← hlog] at hafter
  exact hafter

theorem triple_findRefreshToken :
    Triple (discipline S start) s (fun t _ => t = .none) (findRefreshToken hash)
      fun lookup t σ => ∀ found, lookup = some found →
        (found.rotatedAt = none → ¬Rotated start hash) ∧ Found hash found σ.rows ∧ t = .none := by
  refine triple_transaction_noted (R := fun lookup t σ => t = .none ∧ ∀ found,
    lookup = some found → (found.rotatedAt = none → ¬Rotated start hash) ∧
      Found hash found σ.rows) (triple_select stable_none ?_) ?_ ?_
  · rintro t σ rfl hinv - - -
    refine ⟨rfl, fun found h => ⟨fun hnone hstart => ?_, found_of_lookup h⟩⟩
    obtain ⟨token, htoken, hrotated⟩ := (hinv.rotated hash).mpr (.inl hstart)
    exact hrotated (rotatedAt_of_lookup h htoken ▸ hnone)
  · rintro lookup t σ σ' ⟨ht, hfound⟩ hrely -
    exact ⟨ht, fun found h => ⟨(hfound found h).1, (hfound found h).2.grows hrely.2⟩⟩
  · rintro lookup t σ ⟨rfl, hfound⟩ hinv -
    have hcommit := commit_of_refreshed (s := s) (t := .none) hinv (Grows.refl _) (.nothing rfl)
      fun _ h => absurd h List.not_mem_nil
    exact ⟨hcommit.1, hcommit.2, fun found h => ⟨(hfound found h).1, (hfound found h).2, rfl⟩⟩

/-- The session of a token that was rotated before is revoked. -/
theorem triple_revokeSession {reason : String} {now : Int} (hrotated : found.rotatedAt ≠ none) :
    Triple (discipline S start) s (fun t σ => Found hash found σ.rows ∧ t = .none)
      (revokeSession found.sessionId reason now [.reused hash]) fun _ t _ => t = .none := by
  refine triple_transaction_noted (R := fun written t σ => Found hash found σ.rows ∧
    match written with
    | none => t = .none ∧ ∃ session, sessionRow σ.rows found.sessionId = some session ∧
        session.revokedAt ≠ none
    | some row => ∃ old session session', Replaced [(.session found.sessionId, old, row)] t σ ∧
        old.bind Row.session? = some session ∧ row = some (.session session') ∧
          session'.revokedAt ≠ none)
    (triple_update (found_stable _ stable_none) ?_ ?_) ?_ ?_
  · rintro t σ i held v ⟨hfound, rfl⟩ - h - -
    obtain ⟨row, hrow, rfl⟩ := Option.map_eq_some_iff.mp h
    obtain ⟨old, hold, hrevoke⟩ := Option.bind_eq_some_iff.mp hrow
    obtain ⟨session, hsession, rfl⟩ := Option.map_eq_some_iff.mp hrevoke
    refine ⟨hfound, _, session, _, replaced_nil.cons _ _, ?_, rfl, nofun⟩
    have hold : σ.rows (.session found.sessionId) = some old := hold
    rw [hold]
    exact (Option.filter_eq_some_iff.mp hsession).1
  · rintro t σ i held ⟨hfound, rfl⟩ - h -
    refine ⟨hfound, rfl, ?_⟩
    obtain ⟨session, hsession⟩ := hfound.session
    refine ⟨session, hsession, fun hnone => ?_⟩
    obtain ⟨row, hrow, hsession⟩ := Option.bind_eq_some_iff.mp hsession
    simp [hrow, revoke, hsession, hnone] at h
  · rintro written
    refine found_stable _ ?_
    cases written with
    | none =>
      rintro t σ σ' ⟨ht, session, hsession, hrevoked⟩ hrely -
      obtain ⟨session', hsession', hrevoked'⟩ := hrely.2.session _ session hsession
      exact ⟨ht, session', hsession', hrevoked' hrevoked⟩
    | some row =>
      rintro t σ σ' ⟨old, session, session', hreplaced, hrest⟩ hrely hinv
      exact ⟨old, session, session',
        changes_stable t σ σ' hreplaced hrely hinv, hrest⟩
  · rintro written t σ ⟨hfound, hwritten⟩ hinv -
    obtain ⟨token, htoken, hid, hstays⟩ := hfound.token
    have hbefore : Rotated σ.rows hash := ⟨token, htoken, hstays hrotated⟩
    have hnone : ∀ other, .lost other ∈ [Note.reused hash] → ¬Rotated start other := by simp
    cases written with
    | none =>
      obtain ⟨rfl, session, hsession, hrevoked⟩ := hwritten
      have hcommit := commit_of_refreshed (s := s) (t := .none) hinv (Grows.refl _)
        (.reused hash hbefore ⟨token, session, htoken, by rwa [hid], hrevoked⟩ fun _ => rfl)
        hnone
      exact ⟨hcommit.1, hcommit.2, rfl⟩
    | some row =>
      obtain ⟨old, session, session', hreplaced, hold, rfl, hrevoked⟩ := hwritten
      have hview : t.view σ = Function.update σ.rows (.session found.sessionId)
          (some (.session session')) := hreplaced.view
      have hsession : sessionRow σ.rows found.sessionId = some session := by
        have hrow : σ.rows (.session found.sessionId) = old :=
          hreplaced.row _ List.mem_cons_self
        rw [sessionRow, hrow, hold]
      have hcommit := commit_of_refreshed (s := s) (t := t) hinv
        (hview ▸ grows_session hsession fun _ => hrevoked)
        (.reused hash hbefore ⟨token, session', by simpa [hview] using htoken,
          by simp [hview, hid, sessionRow_update, Row.session?], hrevoked⟩ fun _ => by simp [hview])
        hnone
      exact ⟨hcommit.1, hcommit.2, rfl⟩

/-- The transaction has marked the token as rotated, and has written what else there is in
`later`. -/
def Claiming (hash : TokenHash) (id : SessionId) (now : Int)
    (later : List (Key × Option Row × Option Row)) (t : Transaction Key (Option Row))
    (σ : Shared S Key (Option Row) Note) : Prop :=
  ∃ old token, old.bind Row.token? = some token ∧ token.rotatedAt = none ∧ token.sessionId = id ∧
    Replaced (later ++ [(.token hash, old, some (.token { token with rotatedAt := some now }))]) t σ

/-- Nothing, or the session as it was seen last. -/
def Touching (id : SessionId) (changes : List (Key × Option Row × Option Row)) : Prop :=
  changes = [] ∨ ∃ old session session', changes = [(.session id, old, some (.session session'))] ∧
    old.bind Row.session? = some session ∧ session'.revokedAt = session.revokedAt

theorem claiming_stable {id : SessionId} {now : Int}
    {later : List (Key × Option Row × Option Row)} :
    Stable (discipline S start) s (Claiming hash id now later) := by
  rintro t σ σ' ⟨old, token, hold, hunrotated, hid, hreplaced⟩ hrely hinv
  exact ⟨old, token, hold, hunrotated, hid, changes_stable t σ σ' hreplaced hrely hinv⟩

theorem triple_rotate {now : Int} :
    Triple (discipline S start) s (fun t σ => Found hash found σ.rows ∧ t = .none)
      (updateRow (.token hash) (rotate now)) fun claimed t σ =>
        if claimed.isNone then Rotated σ.rows hash ∧ t = .none
        else Claiming hash found.sessionId now [] t σ := by
  refine triple_update (found_stable _ stable_none) ?_ ?_
  · rintro t σ i held v ⟨hfound, rfl⟩ - h - -
    obtain ⟨row, hrow, rfl⟩ := Option.map_eq_some_iff.mp h
    obtain ⟨old, hold, hrotate⟩ := Option.bind_eq_some_iff.mp hrow
    obtain ⟨token, hfilter, rfl⟩ := Option.map_eq_some_iff.mp hrotate
    obtain ⟨htoken, hunrotated⟩ := Option.filter_eq_some_iff.mp hfilter
    obtain ⟨token', htoken', hid, -⟩ := hfound.token
    have hold : σ.rows (.token hash) = some old := hold
    have hsame : tokenRow σ.rows hash = some token := by rw [tokenRow, hold]; exact htoken
    rw [hsame] at htoken'
    obtain rfl := Option.some.inj htoken'
    have hreplaced := (replaced_nil (σ := σ)).cons (Key.token hash)
      (some (.token { token with rotatedAt := some now }))
    rw [hold] at hreplaced
    exact ⟨some old, token, htoken, by simpa using hunrotated, hid, hreplaced⟩
  · rintro t σ i held ⟨hfound, rfl⟩ - h -
    obtain ⟨token, htoken, -, -⟩ := hfound.token
    refine ⟨⟨token, htoken, fun hnone => ?_⟩, rfl⟩
    obtain ⟨row, hrow, htoken⟩ := Option.bind_eq_some_iff.mp htoken
    simp [hrow, rotate, htoken, hnone] at h

/-- What an exchange leaves at its commit. -/
theorem Claiming.exchanged {next : TokenHash} {new : RefreshToken} {now : Int}
    {id : SessionId} {sessions : List (Key × Option Row × Option Row)}
    {t : Transaction Key (Option Row)} {σ : Shared S Key (Option Row) Note}
    (htouching : Touching id sessions)
    (h : Claiming hash id now (sessions ++ [(.token next, none, some (.token new))]) t σ)
    (hne : hash ≠ next) (hid : new.sessionId = id) (hfresh : new.rotatedAt = none) :
    Grows σ.rows (t.view σ) ∧ Refreshed σ.rows (t.view σ) [.exchanged hash] := by
  obtain ⟨old, token, hold, hunrotated, hsession, hreplaced⟩ := h
  have hrow : σ.rows (.token hash) = old := hreplaced.row (.token hash, old, _)
    (List.mem_append_right _ List.mem_cons_self)
  have hnext : σ.rows (.token next) = none := hreplaced.row (.token next, none, _)
    (List.mem_append_left _ (List.mem_append_right _ List.mem_cons_self))
  have htoken : tokenRow σ.rows hash = some token := by rw [tokenRow, hrow, hold]
  have hnone : tokenRow σ.rows next = none := by rw [tokenRow, hnext]; rfl
  -- the tokens are written first, and the session last
  let rotated := Function.update σ.rows (.token hash)
    (some (.token { token with rotatedAt := some now }))
  let tokens := Function.update rotated (.token next) (some (.token new))
  have hrotated : Grows σ.rows rotated := by
    refine grows_token fun other hother => ?_
    rw [htoken] at hother
    obtain rfl := Option.some.inj hother
    exact ⟨rfl, fun _ => by simp⟩
  have htokens : Grows σ.rows tokens := by
    refine hrotated.trans (grows_token fun other hother => ?_)
    rw [tokenRow_update, if_neg (Ne.symm hne), hnone] at hother
    cases hother
  have hrows (other : TokenHash) : tokenRow tokens other = if other = next then some new else
      if other = hash then some { token with rotatedAt := some now }
      else tokenRow σ.rows other := by
    simp [tokens, rotated, tokenRow_update, Row.token?]
  rcases htouching with rfl | ⟨row, session, session', rfl, hseen, hrevoked⟩
  · have hview : t.view σ = tokens := hreplaced.view
    rw [hview]
    exact ⟨htokens, .exchanged hash next now token new htoken hunrotated hnone
      (hid.trans hsession.symm) hfresh hrows⟩
  · have hview : t.view σ = Function.update tokens (.session id) (some (.session session')) :=
      hreplaced.view
    have hbefore : σ.rows (.session id) = row :=
      hreplaced.row (.session id, row, _) List.mem_cons_self
    rw [hview]
    have hsame : sessionRow tokens id = some session := by
      simp [tokens, rotated, sessionRow, hbefore, hseen]
    refine ⟨htokens.trans (grows_session hsame fun h => by rwa [hrevoked]), ?_⟩
    exact .exchanged hash next now token new htoken hunrotated hnone
      (hid.trans hsession.symm) hfresh fun other => by rw [tokenRow_session, hrows]

theorem triple_store {next : TokenHash} {new : RefreshToken} {id : SessionId} {now : Int} :
    Triple (discipline S start) s (Claiming hash id now [])
      (update () (.token next) fun _ row =>
        if row.isSome then none else some (some (.token new)))
      fun inserted t σ => inserted.isSome → hash ≠ next ∧
        Claiming hash id now [(.token next, none, some (.token new))] t σ := by
  refine triple_update claiming_stable ?_ fun _ _ _ _ _ _ _ _ h => by cases h
  rintro t σ i held v ⟨old, token, hold, hunrotated, hid, hreplaced⟩ - h - - -
  have habsent : t.view σ (.token next) = none := by
    by_contra hsome
    rw [if_pos (Option.isSome_iff_ne_none.mpr hsome)] at h
    cases h
  rw [habsent] at h
  obtain rfl := Option.some.inj h
  have hne : hash ≠ next := by
    rintro rfl
    rw [hreplaced.view] at habsent
    simp at habsent
  have hrow : σ.rows (.token next) = none := by
    rwa [hreplaced.view_of_notMem (by simpa using Ne.symm hne)] at habsent
  have hafter := hreplaced.cons (.token next) (some (.token new))
  rw [hrow] at hafter
  exact ⟨hne, old, token, hold, hunrotated, hid, hafter⟩

theorem triple_touch {id : SessionId} {now now' : Int} {next : TokenHash} {new : RefreshToken} :
    Triple (discipline S start) s
      (Claiming hash id now [(.token next, none, some (.token new))])
      (updateRow (.session id) (touch now')) fun _ t σ => ∃ sessions, Touching id sessions ∧
        Claiming hash id now (sessions ++ [(.token next, none, some (.token new))]) t σ := by
  refine triple_update claiming_stable ?_ fun _ _ _ _ h _ _ _ => ⟨[], .inl rfl, h⟩
  rintro t σ i held v ⟨old, token, hold, hunrotated, hid, hreplaced⟩ - h - -
  rw [hreplaced.view_of_notMem (by simp)] at h
  obtain ⟨row, hrow, rfl⟩ := Option.map_eq_some_iff.mp h
  obtain ⟨before, hbefore, htouch⟩ := Option.bind_eq_some_iff.mp hrow
  obtain ⟨session, hsession, rfl⟩ := Option.map_eq_some_iff.mp htouch
  refine ⟨[(.session id, σ.rows (.session id), _)], .inr ⟨_, session,
    { session with lastSeenAt := now' }, rfl, ?_, rfl⟩, old, token, hold, hunrotated, hid,
    hreplaced.cons _ _⟩
  rw [hbefore]
  exact hsession

theorem triple_rotateRefreshToken {userId : UserId} {next : NextToken} {now : Int}
    (hstart : ¬Rotated start hash) :
    Triple (discipline S start) s (fun t σ => Found hash found σ.rows ∧ t = .none)
      (rotateRefreshToken hash found.sessionId userId next now) fun _ t _ => t = .none := by
  let new : RefreshToken := ⟨found.sessionId, userId, next.expiresAt, none⟩
  refine triple_transaction (R := fun r t σ =>
    r.1 = [.lost hash] ∧ Rotated σ.rows hash ∧ t = .none ∨
    r.1 = [.exchanged hash] ∧ hash ≠ next.tokenHash ∧ ∃ sessions,
      Touching found.sessionId sessions ∧ Claiming hash found.sessionId now
        (sessions ++ [(.token next.tokenHash, none, some (.token new))]) t σ)
    ((triple_rotate).bind fun claimed => Triple.ite (fun hnone => ?_) fun hsome => ?_) ?_ ?_
  · refine triple_pure fun t σ h => .inl ⟨rfl, ?_⟩
    rwa [if_pos hnone] at h
  · refine Triple.conseq ((triple_store).bind fun inserted => Triple.require fun hinserted =>
      Triple.bind (Q := fun _ t σ => hash ≠ next.tokenHash ∧ ∃ sessions,
        Touching found.sessionId sessions ∧ Claiming hash found.sessionId now
          (sessions ++ [(.token next.tokenHash, none, some (.token new))]) t σ) ?_
        fun _ => triple_pure fun t σ h => .inr ⟨rfl, h⟩)
      (fun t σ h => by rwa [if_neg hsome] at h) fun _ _ _ h => h
    refine Triple.conseq (Triple.of_fact fun hne => (triple_touch).conseq (fun _ _ h => h)
      fun _ _ _ h => ⟨hne, h⟩) (fun t σ h => h hinserted) fun _ _ _ h => h
  · rintro r t σ σ' (⟨hr, hrotated, ht⟩ | ⟨hr, hne, sessions, htouching, hclaiming⟩) hrely hinv
    · exact .inl ⟨hr, hrotated.grows hrely.2, ht⟩
    · exact .inr ⟨hr, hne, sessions, htouching, claiming_stable t σ σ' hclaiming hrely hinv⟩
  · rintro ⟨notes, result⟩ t σ h hinv -
    rcases h with ⟨hr, hrotated, rfl⟩ | ⟨hr, hne, sessions, htouching, hclaiming⟩
    · obtain rfl : notes = [.lost hash] := hr
      have hcommit := commit_of_refreshed (s := s) (t := .none) hinv (Grows.refl _)
        (.lost hash hrotated rfl) (by simpa using hstart)
      exact ⟨hcommit.1, hcommit.2, rfl⟩
    · obtain rfl : notes = [.exchanged hash] := hr
      obtain ⟨hgrows, hrefreshed⟩ := hclaiming.exchanged htouching hne rfl rfl
      have hcommit := commit_of_refreshed (s := s) (t := t) hinv hgrows hrefreshed (by simp)
      exact ⟨hcommit.1, hcommit.2, rfl⟩

theorem safe_calls {config : Config} (input : RefreshInput)
    (σ : Shared S Key (Option Row) Note) :
    Safe (discipline S start) s (calls config input) .none σ := by
  refine Triple.safe ?_ σ
  refine (triple_findRefreshToken).bind fun lookup => Triple.ofOption fun found hfound => ?_
  refine Triple.conseq (P := fun t σ => (found.rotatedAt = none →
      ¬Rotated start (config.hashToken input.refreshToken)) ∧
      Found (config.hashToken input.refreshToken) found σ.rows ∧ t = .none)
    (Q := fun _ t _ => t = .none) (Triple.of_fact fun hstart => ?_)
    (fun t σ h => h found hfound) fun _ _ _ h => h
  refine Triple.require fun _ => Triple.require fun _ => Triple.ite (fun hrotated => ?_)
    fun hunrotated => ?_
  · exact (triple_revokeSession hrotated).bind fun _ => triple_fail
  · exact Triple.require fun _ => (triple_rotateRefreshToken
      (hstart (not_not.mp hunrotated))).bind fun _ => triple_require fun _ _ h _ => h

end

/-! ### Which requests leave the session open -/

/-- Where two requests with a token have ended, its session is revoked. -/
def Detects (rows : Rows) (log : List Note) : Prop :=
  ∀ hash, 2 ≤ log.countP (fun note => note.hash = hash) → Revoked rows hash

instance (rows : Rows) (hash : TokenHash) : Decidable (Revoked rows hash) :=
  decidable_of_iff (((tokenRow rows hash).bind fun token =>
      (sessionRow rows token.sessionId).bind Session.revokedAt).isSome = true) <| by
    simp only [Revoked, Option.isSome_iff_exists, Option.bind_eq_some_iff,
      Option.ne_none_iff_exists']
    constructor
    · rintro ⟨at', token, htoken, session, hsession, hat⟩
      exact ⟨token, session, htoken, hsession, at', hat⟩
    · rintro ⟨token, session, htoken, hsession, at', hat⟩
      exact ⟨at', token, htoken, session, hsession, hat⟩

/-- A request that has lost the UPDATE finds the session revoked. -/
def Note.Detected (rows : Rows) : Note → Prop
  | .lost hash => Revoked rows hash
  | .exchanged _ | .reused _ => True

instance (rows : Rows) : (note : Note) → Decidable (note.Detected rows)
  | .lost hash => inferInstanceAs (Decidable (Revoked rows hash))
  | .exchanged _ | .reused _ => isTrue trivial

/-- Where the step ends a request that has lost the UPDATE, the session of its token is revoked
already. -/
def Adjudicated {S : Type} (sys : System S Key (Option Row) Unit Unit Note)
    (a : S × Input RefreshInput Unit) : Prop :=
  match sys.world.locals a.1, a.2 with
  | .commit notes _, .next _ => ∀ note ∈ notes, note.Detected sys.world.committed
  | _, _ => True

instance {S : Type} (sys : System S Key (Option Row) Unit Unit Note)
    (a : S × Input RefreshInput Unit) : Decidable (Adjudicated sys a) := by
  unfold Adjudicated
  split <;> infer_instance

section
variable {rows rows' start : Rows} {log notes : List Note}

/-- What one more note asks for. -/
theorem detects_cons_iff {note : Note} (hbefore : Detects rows log) (hgrows : Grows rows rows') :
    Detects rows' (note :: log) ↔
      (1 ≤ log.countP (fun other => other.hash = note.hash) → Revoked rows' note.hash) := by
  constructor
  · intro h hone
    refine h note.hash ?_
    rw [List.countP_cons_of_pos (by simp)]
    exact Nat.succ_le_succ hone
  · intro h hash htwo
    by_cases hsame : note.hash = hash
    · subst hsame
      rw [List.countP_cons_of_pos (by simp)] at htwo
      exact h (Nat.le_of_succ_le_succ htwo)
    · rw [List.countP_cons_of_neg (by simpa using hsame)] at htwo
      exact (hbefore hash htwo).grows hgrows

/-- **A commit leaves every second request noticed just when it does not lose the UPDATE on a
session that is open.** -/
theorem Refreshed.detects_iff (h : Refreshed rows rows' notes) (hgrows : Grows rows rows')
    (hrotation : Rotation start rows log) (hstart : ∀ hash, .lost hash ∈ notes →
      ¬Rotated start hash) (hbefore : Detects rows log) :
    Detects rows' (notes ++ log) ↔ ∀ note ∈ notes, note.Detected rows := by
  cases h with
  | nothing h =>
    rw [h]
    exact iff_of_true hbefore fun _ hnote => absurd hnote List.not_mem_nil
  | lost hash hrotated h =>
    rw [List.singleton_append, detects_cons_iff hbefore hgrows, List.forall_mem_singleton, h]
    have hmem : .exchanged hash ∈ log :=
      ((hrotation.rotated hash).mp hrotated).resolve_left (hstart hash List.mem_cons_self)
    have hone : 1 ≤ log.countP fun other => other.hash = hash :=
      List.countP_pos_iff.mpr ⟨_, hmem, by simp [Note.hash]⟩
    exact ⟨fun hrevoked => hrevoked hone, fun hrevoked _ => hrevoked⟩
  | reused hash hrotated hrevoked h =>
    rw [List.singleton_append, detects_cons_iff hbefore hgrows]
    exact iff_of_true (fun _ => hrevoked) (List.forall_mem_singleton.mpr trivial)
  | exchanged hash next now token token' htoken hunrotated hnext hsession hfresh h =>
    rw [List.singleton_append, detects_cons_iff hbefore hgrows]
    refine iff_of_true (fun hone => ?_) (List.forall_mem_singleton.mpr trivial)
    obtain ⟨note, hnote, hhash⟩ := List.countP_pos_iff.mp hone
    have hhash : note.hash = hash := of_decide_eq_true hhash
    obtain ⟨other, hother, hne⟩ := hhash ▸ hrotation.noted note hnote
    rw [htoken] at hother
    exact absurd (Option.some.inj hother ▸ hunrotated) hne

end

section
variable {S : Type} [DecidableEq S] {config : Config}
  {sys sys' : System S Key (Option Row) Unit Unit Note} {rows : Rows}

theorem valid_rotation (hone : OneUnrotated rows)
    (hrun : StepSystem.Reachable (Script.step (calls config)) (initial rows) sys) :
    Valid (discipline S rows) sys :=
  valid_of_reachable discipline_lawful (fun call _ σ _ => safe_calls call σ)
    ⟨hone, fun _ => by simp, fun _ hnote => absurd hnote List.not_mem_nil,
      fun _ => Nat.zero_le 1⟩ (hrun.mono fun _ _ _ => meets_default _ _)

/-- What one step leaves unnoticed. -/
theorem detects_step_iff (hv : Valid (discipline S rows) sys)
    (hbefore : Detects sys.world.committed (sys.log.map Prod.snd)) {a : S × Input RefreshInput Unit}
    (hstep : Script.step (calls config) sys a = some sys') :
    Detects sys'.world.committed (sys'.log.map Prod.snd) ↔ Adjudicated sys a := by
  obtain ⟨s, input⟩ := a
  have hlog := log_of_step hstep
  rcases hv.committed_or_commit discipline_lawful (meets_default _ _) hstep with
    ⟨hsame, hnot⟩ | ⟨notes, next, i, hl, rfl, hgrows, hrefreshed, hlost⟩
  · rw [hlog, noted_of_not_commit hnot, List.nil_append, hsame]
    refine iff_of_true hbefore ?_
    unfold Adjudicated
    split
    · next notes next i hl hi => exact absurd ⟨hl, hi⟩ (hnot notes next i)
    · trivial
  · have hadjudicated : Adjudicated sys (s, .next i) ↔
        ∀ note ∈ notes, note.Detected sys.world.committed := by
      simp [Adjudicated, hl]
    have hnoted : noted (sys.world.locals s) (.next i : Input RefreshInput Unit) = notes := by
      rw [hl]
      rfl
    rw [hadjudicated, hlog, hnoted]
    exact hrefreshed.detects_iff hgrows hv.inv hlost hbefore

/-- **A session has at most one token that is not rotated, and no token is exchanged twice**, in
any interleaving of requests.  **Where those that lose the UPDATE find the session revoked, it is
revoked whenever two requests with one token have got past the lookup and ended**; and the first
that loses it on a session that is open goes unnoticed. -/
theorem detected_of_adjudicated (hone : OneUnrotated rows)
    (hrun : StepSystem.Reachable (Script.step (calls config)) (initial rows) sys) :
    (OneUnrotated sys.world.committed ∧
      ∀ hash, (sys.log.map Prod.snd).count (.exchanged hash) ≤ 1) ∧
    (StepSystem.ReachableWhen (Script.step (calls config)) Adjudicated (initial rows) sys →
      Detects sys.world.committed (sys.log.map Prod.snd) ∧
      ∀ a sys', Script.step (calls config) sys a = some sys' →
        (Detects sys'.world.committed (sys'.log.map Prod.snd) ↔ Adjudicated sys a)) := by
  have hv := valid_rotation hone hrun
  refine ⟨⟨hv.inv.one, hv.inv.once⟩, fun hwhen => ?_⟩
  have hdetects : Detects sys.world.committed (sys.log.map Prod.snd) := by
    clear hrun hv
    induction hwhen with
    | refl => exact fun _ htwo => absurd htwo (by simp [initial])
    | tail hrun hlast ih =>
      obtain ⟨a, hadjudicated, hstep⟩ := hlast
      have hreach := StepSystem.ReachableWhen.mono hrun fun _ _ _ => trivial
      exact (detects_step_iff (valid_rotation hone hreach) ih hstep).mpr hadjudicated
  exact ⟨hdetects, fun a sys' hstep => detects_step_iff hv hdetects hstep⟩

end

/-! ### Two requests with one token -/

/-- Tokens are their own hashes, and every signature is right. -/
def plainConfig : Config := ⟨1000, id, fun _ _ _ => true⟩

/-- A session with one token. -/
def oneToken : Rows
  | .session "s" => some (.session ⟨100, none, none, 0, .browser, none⟩)
  | .token "a" => some (.token ⟨"s", "u", 100, none⟩)
  | _ => none

theorem oneUnrotated_oneToken : OneUnrotated oneToken := by
  have honly : ∀ hash token, tokenRow oneToken hash = some token → hash = "a" := by
    intro hash token h
    by_contra hne
    simp [tokenRow, oneToken, hne] at h
  intro hash hash' token token' h h' _ _ _
  rw [honly hash token h, honly hash' token' h']

/-- A request with the first token, to get this one. -/
def presenting (next : TokenHash) : RefreshInput := ⟨"a", none, .browser, 1, next⟩

/-- The steps of a request. -/
def steps (s : Bool) (n : Nat) : List (Bool × Input RefreshInput Unit) :=
  List.replicate n (s, .next ())

/-- How the requests ended, and whether the session is revoked. -/
def outcome (sys : System Bool Key (Option Row) Unit Unit Note) : List Note × Bool :=
  (sys.log.map Prod.snd, decide (Revoked sys.world.committed "a"))

theorem detected_of_adjudicated_inTurn :
    ∃ sys : System Bool Key (Option Row) Unit Unit Note,
      StepSystem.Reachable (Script.step (calls plainConfig)) (initial oneToken) sys ∧
      outcome sys = ([.reused "a", .exchanged "a"], true) ∧
      OneUnrotated sys.world.committed ∧
      Detects sys.world.committed (sys.log.map Prod.snd) := by
  have hsome : ((StepSystem.runWhen (Script.step (calls plainConfig)) Adjudicated
      (initial oneToken) ((false, .call (presenting "b")) :: steps false 6 ++
        (true, .call (presenting "c")) :: steps true 5)).map outcome) =
        some ([.reused "a", .exchanged "a"], true) := by decide
  obtain ⟨sys, hrun, houtcome⟩ := Option.map_eq_some_iff.mp hsome
  have hwhen := StepSystem.reachableWhen_of_runWhen hrun
  have hreach := hwhen.mono fun _ _ _ => trivial
  have hall := detected_of_adjudicated oneUnrotated_oneToken hreach
  exact ⟨sys, hreach, houtcome, hall.1.1, (hall.2 hwhen).1⟩

/-- **Two requests that race with one token leave the session open.** -/
theorem unnoticed_of_race :
    OneUnrotated oneToken ∧ ∃ sys : System Bool Key (Option Row) Unit Unit Note,
      StepSystem.Reachable (Script.step (calls plainConfig)) (initial oneToken) sys ∧
      ¬Detects sys.world.committed (sys.log.map Prod.snd) := by
  have hsome : ((StepSystem.run (Script.step (calls plainConfig)) (initial oneToken)
      ((false, .call (presenting "b")) :: (true, .call (presenting "c")) ::
        steps false 2 ++ steps true 2 ++ steps false 4 ++ steps true 3)).map outcome) =
        some ([.lost "a", .exchanged "a"], false) := by decide
  obtain ⟨sys, hrun, houtcome⟩ := Option.map_eq_some_iff.mp hsome
  obtain ⟨hlog, hrevoked⟩ := Prod.mk.inj houtcome
  refine ⟨oneUnrotated_oneToken, sys, StepSystem.reachable_of_run hrun, fun hdetects => ?_⟩
  rw [hlog] at hdetects
  exact of_decide_eq_false hrevoked (hdetects "a" (by decide))

end RefreshRotation
end TaskFlow
