import Mathlib.Data.String.Basic
import TaskFlow.ScriptLogic

/-! # Ways to sign in

An account is signed in to with its password, a passkey or a linked provider.  `deletePasskey`
and `unlink` refuse to remove the last of these, but they count in transactions of their own, and
delete in another.

A delete takes away one way and nothing else (`Removed`).  So an account keeps a way just as long
as every delete, when it commits, would still pass its check by the ways there are
(`way_of_rechecked`).
-/
namespace TaskFlow
namespace SignInWays
open ReadCommitted ReadCommitted.Script ReadCommitted.Procedure

abbrev UserId := String

abbrev PasskeyId := String

inductive OAuthProvider where
  | google
  | github
  deriving DecidableEq, Repr

def providers : List OAuthProvider := [.google, .github]

/-- The keys of the three tables. -/
inductive Key where
  | user (userId : UserId)
  | passkey (userId : UserId) (id : PasskeyId)
  | oauth (userId : UserId) (provider : OAuthProvider)
  deriving DecidableEq, Repr

/-- The rows, as far as it matters what is in them. -/
inductive Row where
  | user (passwordHash : Option String)
  | passkey
  | oauth
  deriving DecidableEq, Repr

abbrev Rows := Key → Option Row

def passwordHash (rows : Rows) (userId : UserId) : Option String :=
  match rows (.user userId) with
  | some (.user passwordHash) => passwordHash
  | _ => none

inductive Note where
  | passkeyRemoved (userId : UserId) (id : PasskeyId)
  | oauthUnlinked (userId : UserId) (provider : OAuthProvider)
  deriving DecidableEq, Repr

/-- Of two queries made at once, a statement is told whether the first is answered first. -/
abbrev Procedure (α : Type) := ReadCommitted.Procedure Key (Option Row) Unit Bool Note α

/-! ### The repositories -/

section
variable (ids : List PasskeyId)

/-- The passkeys of an account, among those there are at any time. -/
def countCredentials (rows : Rows) (userId : UserId) : Nat :=
  ids.countP fun id => (rows (.passkey userId id)).isSome

def countOAuthIdentities (rows : Rows) (userId : UserId) : Nat :=
  providers.countP fun provider => (rows (.oauth userId provider)).isSome

/-- A query in a transaction of its own. -/
def query {α : Type} (f : Bool → Rows → α) : Procedure α :=
  transaction do
    let answer ← statement () (fun _ _ => ([], [])) f
    return ([], answer)

/-- Both counts, asked for at once: of passkeys and of providers. -/
def countBoth (userId : UserId) : Procedure (Nat × Nat) := do
  let (passkeysFirst, first) ← query fun passkeysFirst rows => (passkeysFirst,
    if passkeysFirst then countCredentials ids rows userId else countOAuthIdentities rows userId)
  let second ← query fun _ rows =>
    if passkeysFirst then countOAuthIdentities rows userId else countCredentials ids rows userId
  return if passkeysFirst then (first, second) else (second, first)

/-- DELETE of a row, in a transaction of its own; says whether there was one. -/
def deleteRow (key : Key) (note : Note) : Procedure Bool :=
  transaction do
    let deleted ← statement ()
      (fun _ rows => ([], if (rows key).isSome then [(key, none)] else []))
      (fun _ rows => (rows key).isSome)
    return (if deleted then [note] else [], deleted)

def deleteCredential (userId : UserId) (id : PasskeyId) : Procedure Bool :=
  deleteRow (.passkey userId id) (.passkeyRemoved userId id)

def unlinkOAuthIdentity (userId : UserId) (provider : OAuthProvider) : Procedure Bool :=
  deleteRow (.oauth userId provider) (.oauthUnlinked userId provider)

/-! ### The services -/

/-- The only way to sign in is the one that is to go: `own` of its kind, `other` of the other
kind. -/
def onlyWay (own other : Nat) (passwordHash : Option String) : Prop :=
  own ≤ 1 ∧ passwordHash = none ∧ other = 0

instance (own other : Nat) (passwordHash : Option String) :
    Decidable (onlyWay own other passwordHash) :=
  inferInstanceAs (Decidable (_ ∧ _ ∧ _))

def deletePasskey (userId : UserId) (id : PasskeyId) : Procedure Unit := do
  let user ← query fun _ rows => (rows (.user userId)).map fun _ => passwordHash rows userId
  let hash ← ofOption user
  let (remaining, oauthCount) ← countBoth ids userId
  require (¬onlyWay remaining oauthCount hash)
  let deleted ← deleteCredential userId id
  require deleted

def unlink (userId : UserId) (provider : OAuthProvider) : Procedure Unit := do
  let user ← query fun _ rows => (rows (.user userId)).map fun _ => passwordHash rows userId
  let hash ← ofOption user
  let (passkeyCount, oauthCount) ← countBoth ids userId
  require (¬onlyWay oauthCount passkeyCount hash)
  let removed ← unlinkOAuthIdentity userId provider
  require removed

inductive Call where
  | deletePasskey (userId : UserId) (id : PasskeyId)
  | unlink (userId : UserId) (provider : OAuthProvider)
  deriving DecidableEq, Repr

def calls : Call → Script Key (Option Row) Unit Bool Note
  | .deletePasskey userId id => (deletePasskey ids userId id).script
  | .unlink userId provider => (unlink ids userId provider).script

end

/-! ### What a commit does -/

/-- The row a note says is gone. -/
def Note.key : Note → Key
  | .passkeyRemoved userId id => .passkey userId id
  | .oauthUnlinked userId provider => .oauth userId provider

/-- What a commit with these notes does to the ways to sign in. -/
inductive Removed (rows rows' : Rows) : List Note → Prop where
  | nothing (h : rows' = rows) : Removed rows rows' []
  | row (note : Note) (hrow : rows note.key ≠ none)
      (h : rows' = Function.update rows note.key none) : Removed rows rows' [note]

/-- What the sessions keep to. -/
def discipline (S : Type) : Discipline S Key (Option Row) Unit Bool Note where
  inv _ := True
  guarantee _ notes _ σ σ' := Removed σ.rows σ'.rows notes
  rely _ own σ σ' := ∀ key, own key → σ'.rows key = σ.rows key
  condition := {}

section
variable {S : Type} {s : S} {α : Type} {ids : List PasskeyId}

theorem discipline_lawful : (discipline S).Lawful where
  refl := fun _ _ _ _ _ => rfl
  trans := fun h h' key hown => (h' key hown).trans (h key hown)
  rely := fun _ _ hown _ _ _ => hown

theorem triple_query {f : Bool → Rows → α} :
    Triple (discipline S) s (fun t _ => t = .none) (query f) fun _ t _ => t = .none := by
  refine triple_transaction_noted (R := fun _ t _ => t = .none) (triple_statement stable_none ?_)
    (fun _ => stable_none) ?_
  · rintro t σ i held rfl - - -
    exact Transaction.run_none
  · rintro answer t σ rfl - -
    exact ⟨trivial, .nothing rfl, rfl⟩

theorem triple_countBoth {userId : UserId} :
    Triple (discipline S) s (fun t _ => t = .none) (countBoth ids userId)
      fun _ t _ => t = .none :=
  (triple_query).bind fun _ => (triple_query).bind fun _ => triple_pure fun _ _ h => h

/-- A delete leaves its row locked until it commits. -/
theorem triple_deleteRow {note : Note} :
    Triple (discipline S) s (fun t _ => t = .none) (deleteRow note.key note)
      fun _ t _ => t = .none := by
  refine triple_transaction_noted (R := fun deleted t σ =>
    if deleted then t.own note.key ∧ t.pending = [(note.key, none)] ∧ σ.rows note.key ≠ none
    else t = .none) (triple_statement stable_none ?_) (fun deleted => ?_) ?_
  · rintro t σ i held rfl - - -
    rw [Transaction.view_none]
    cases hrow : σ.rows note.key with
    | none => exact Transaction.run_none
    | some row => exact ⟨.inr List.mem_cons_self, rfl, by simp⟩
  · cases deleted with
    | false => exact stable_none
    | true =>
      rintro t σ σ' ⟨hown, hpending, hrow⟩ hrely -
      exact ⟨hown, hpending, by rwa [hrely _ hown]⟩
  · intro deleted t σ h _ _
    cases deleted with
    | false =>
      obtain rfl : t = .none := h
      exact ⟨trivial, .nothing rfl, rfl⟩
    | true =>
      obtain ⟨-, hpending, hrow⟩ := h
      refine ⟨trivial, .row note hrow ?_, rfl⟩
      rw [Shared.commit, Transaction.view, hpending]
      rfl

/-- Everything before the delete leaves nothing locked. -/
theorem triple_checked (own other : Nat × Nat → Nat) (userId : UserId) (note : Note) :
    Triple (discipline S) s (fun t _ => t = .none) (do
      let user ← query fun _ rows => (rows (.user userId)).map fun _ => passwordHash rows userId
      let hash ← ofOption user
      let counts ← countBoth ids userId
      require (¬onlyWay (own counts) (other counts) hash)
      let deleted ← deleteRow note.key note
      require deleted) fun _ t _ => t = .none :=
  (triple_query).bind fun _ => Triple.ofOption fun _ _ => (triple_countBoth).bind fun _ =>
    Triple.require fun _ => (triple_deleteRow).bind fun _ => triple_require fun _ _ h _ => h

theorem safe_calls (call : Call) (σ : Shared S Key (Option Row) Note) :
    Safe (discipline S) s (calls ids call) .none σ := by
  cases call with
  | deletePasskey userId id =>
    exact (triple_checked Prod.fst Prod.snd userId (.passkeyRemoved userId id)).safe σ
  | unlink userId provider =>
    exact (triple_checked Prod.snd Prod.fst userId (.oauthUnlinked userId provider)).safe σ

end

/-! ### Which deletes leave no way -/

/-- The account can be signed in to. -/
def HasWay (rows : Rows) (userId : UserId) : Prop :=
  passwordHash rows userId ≠ none ∨ (∃ id, rows (.passkey userId id) ≠ none) ∨
    ∃ provider, rows (.oauth userId provider) ≠ none

/-- `ids` lists the passkeys there are, each once. -/
structure Listed (ids : List PasskeyId) (rows : Rows) : Prop where
  nodup : ids.Nodup
  mem : ∀ userId id, rows (.passkey userId id) ≠ none → id ∈ ids

/-- The check of a call, made on the rows there are. -/
def Note.Clear (ids : List PasskeyId) (rows : Rows) : Note → Prop
  | .passkeyRemoved userId _ => ¬onlyWay (countCredentials ids rows userId)
      (countOAuthIdentities rows userId) (passwordHash rows userId)
  | .oauthUnlinked userId _ => ¬onlyWay (countOAuthIdentities rows userId)
      (countCredentials ids rows userId) (passwordHash rows userId)

/-- The account a note is about. -/
def Note.userId : Note → UserId
  | .passkeyRemoved userId _ => userId
  | .oauthUnlinked userId _ => userId

instance (ids : List PasskeyId) (rows : Rows) (note : Note) : Decidable (note.Clear ids rows) := by
  cases note <;> exact inferInstanceAs (Decidable (¬_))

/-- Where the step commits a delete, its call still passes the check. -/
def Rechecked {S : Type} (ids : List PasskeyId) (sys : System S Key (Option Row) Unit Bool Note)
    (a : S × Input Call Bool) : Prop :=
  match sys.world.locals a.1, a.2 with
  | .commit notes _, .next _ => ∀ note ∈ notes, note.Clear ids sys.world.committed
  | _, _ => True

instance {S : Type} (ids : List PasskeyId) (sys : System S Key (Option Row) Unit Bool Note)
    (a : S × Input Call Bool) : Decidable (Rechecked ids sys a) := by
  unfold Rechecked
  split <;> infer_instance

/-- There is no other besides one of a list just when there are not two. -/
theorem countP_le_one_iff {α : Type} [DecidableEq α] {l : List α} {p : α → Bool} {a : α}
    (hnodup : l.Nodup) (ha : a ∈ l) (hp : p a = true) :
    l.countP p ≤ 1 ↔ ∀ b ∈ l, b ≠ a → p b = false := by
  have hsplit : l.countP p = (l.erase a).countP p + 1 := by
    rw [(List.perm_cons_erase ha).countP_eq, List.countP_cons_of_pos hp]
  rw [hsplit, Nat.add_le_add_iff_right (n := 1) (m := (l.erase a).countP p) (k := 0),
    Nat.le_zero, List.countP_eq_zero]
  constructor
  · intro h b hb hne
    exact Bool.not_eq_true _ ▸ h b (hnodup.mem_erase_iff.mpr ⟨hne, hb⟩)
  · intro h b hb
    obtain ⟨hne, hb⟩ := hnodup.mem_erase_iff.mp hb
    simp [h b hb hne]

section
variable {ids : List PasskeyId} {rows : Rows} {userId : UserId}

theorem countCredentials_eq_zero_iff (h : Listed ids rows) :
    countCredentials ids rows userId = 0 ↔ ∀ id, rows (.passkey userId id) = none := by
  rw [countCredentials, List.countP_eq_zero]
  constructor
  · intro hnone id
    by_contra hid
    exact hnone id (h.mem userId id hid) (Option.isSome_iff_ne_none.mpr hid)
  · intro hnone id _
    simp [hnone id]

theorem mem_providers (provider : OAuthProvider) : provider ∈ providers := by
  cases provider <;> decide

theorem countOAuthIdentities_eq_zero_iff :
    countOAuthIdentities rows userId = 0 ↔ ∀ provider, rows (.oauth userId provider) = none := by
  rw [countOAuthIdentities, List.countP_eq_zero]
  constructor
  · intro hnone provider
    simpa using hnone provider (mem_providers provider)
  · intro hnone provider _
    simp [hnone provider]

theorem countCredentials_le_one_iff (h : Listed ids rows) {id : PasskeyId}
    (hid : rows (.passkey userId id) ≠ none) :
    countCredentials ids rows userId ≤ 1 ↔
      ∀ other, other ≠ id → rows (.passkey userId other) = none := by
  rw [countCredentials, countP_le_one_iff h.nodup (h.mem userId id hid)
    (Option.isSome_iff_ne_none.mpr hid)]
  constructor
  · intro hnone other hne
    by_contra hother
    have := hnone other (h.mem userId other hother) hne
    simp [Option.isSome_iff_ne_none.mpr hother] at this
  · intro hnone other _ hne
    simp [hnone other hne]

theorem countOAuthIdentities_le_one_iff {provider : OAuthProvider}
    (hprovider : rows (.oauth userId provider) ≠ none) :
    countOAuthIdentities rows userId ≤ 1 ↔
      ∀ other, other ≠ provider → rows (.oauth userId other) = none := by
  rw [countOAuthIdentities, countP_le_one_iff (by decide) (mem_providers provider)
    (Option.isSome_iff_ne_none.mpr hprovider)]
  constructor
  · intro hnone other hne
    simpa using hnone other (mem_providers other) hne
  · intro hnone other _ hne
    simp [hnone other hne]

/-- **A delete leaves a way to sign in just when it is not of the only one.** -/
theorem hasWay_delete_iff (h : Listed ids rows) {note : Note} (hrow : rows note.key ≠ none) :
    HasWay (Function.update rows note.key none) note.userId ↔ note.Clear ids rows := by
  cases note with
  | passkeyRemoved userId id =>
    rw [Note.Clear, onlyWay, countCredentials_le_one_iff h hrow,
      countOAuthIdentities_eq_zero_iff]
    have hpasskey (other : PasskeyId) :
        Function.update rows (Key.passkey userId id) none (.passkey userId other) ≠ none ↔
          other ≠ id ∧ rows (.passkey userId other) ≠ none := by
      simp [Function.update_apply]
    have hoauth (provider : OAuthProvider) : Function.update rows (Key.passkey userId id) none
        (.oauth userId provider) = rows (.oauth userId provider) := by simp
    have hhash : passwordHash (Function.update rows (Key.passkey userId id) none) userId =
        passwordHash rows userId := by simp [passwordHash]
    simp only [HasWay, Note.key, Note.userId, hpasskey, hoauth, hhash]
    grind
  | oauthUnlinked userId provider =>
    rw [Note.Clear, onlyWay, countOAuthIdentities_le_one_iff hrow,
      countCredentials_eq_zero_iff h]
    have hpasskey (id : PasskeyId) : Function.update rows (Key.oauth userId provider) none
        (.passkey userId id) = rows (.passkey userId id) := by simp
    have hoauth (other : OAuthProvider) :
        Function.update rows (Key.oauth userId provider) none (.oauth userId other) ≠ none ↔
          other ≠ provider ∧ rows (.oauth userId other) ≠ none := by
      simp [Function.update_apply]
    have hhash : passwordHash (Function.update rows (Key.oauth userId provider) none) userId =
        passwordHash rows userId := by simp [passwordHash]
    simp only [HasWay, Note.key, Note.userId, hpasskey, hoauth, hhash]
    grind

/-- A delete from another account leaves the ways of this one. -/
theorem hasWay_delete_other {note : Note} (hother : note.userId ≠ userId) :
    HasWay (Function.update rows note.key none) userId ↔ HasWay rows userId := by
  cases note with
  | passkeyRemoved owner id =>
    have hne : userId ≠ owner := Ne.symm hother
    simp [HasWay, passwordHash, Note.key, hne]
  | oauthUnlinked owner provider =>
    have hne : userId ≠ owner := Ne.symm hother
    simp [HasWay, passwordHash, Note.key, hne]

theorem hasWay_of_row {note : Note} (hrow : rows note.key ≠ none) : HasWay rows note.userId := by
  cases note with
  | passkeyRemoved userId id => exact .inr (.inl ⟨id, hrow⟩)
  | oauthUnlinked userId provider => exact .inr (.inr ⟨provider, hrow⟩)

theorem Removed.listed {rows' : Rows} {notes : List Note} (h : Removed rows rows' notes)
    (hlisted : Listed ids rows) : Listed ids rows' := by
  cases h with
  | nothing h => rwa [h]
  | row note hrow h =>
    refine ⟨hlisted.nodup, fun userId id hid => hlisted.mem userId id fun hnone => hid ?_⟩
    rw [h]
    by_cases hsame : Key.passkey userId id = note.key
    · rw [hsame, Function.update_self]
    · rwa [Function.update_of_ne hsame]

/-- **A commit leaves every account its ways just when its delete is still clear.** -/
theorem Removed.hasWay_iff {rows' : Rows} {notes : List Note} (h : Removed rows rows' notes)
    (hlisted : Listed ids rows) : (∀ userId, HasWay rows userId → HasWay rows' userId) ↔
      ∀ note ∈ notes, note.Clear ids rows := by
  cases h with
  | nothing h =>
    rw [h]
    exact iff_of_true (fun _ h => h) fun note hnote => absurd hnote List.not_mem_nil
  | row note hrow h =>
    rw [h, List.forall_mem_singleton, ← hasWay_delete_iff hlisted hrow]
    constructor
    · exact fun hall => hall note.userId (hasWay_of_row hrow)
    · intro hway userId hbefore
      by_cases hsame : note.userId = userId
      · rwa [← hsame]
      · exact (hasWay_delete_other hsame).mpr hbefore

end

section
variable {S : Type} [DecidableEq S] {ids : List PasskeyId}
  {sys sys' : System S Key (Option Row) Unit Bool Note}

theorem valid_ways {rows : Rows}
    (hrun : StepSystem.Reachable (Script.step (calls ids)) (initial rows) sys) :
    Valid (discipline S) sys :=
  valid_of_reachable discipline_lawful (fun call _ σ _ => safe_calls call σ) trivial
    (hrun.mono fun _ _ _ => meets_default _ _)

/-- What one step does to the ways to sign in. -/
theorem hasWay_step_iff (hv : Valid (discipline S) sys)
    (hlisted : Listed ids sys.world.committed) {a : S × Input Call Bool}
    (hstep : Script.step (calls ids) sys a = some sys') :
    ((∀ userId, HasWay sys.world.committed userId → HasWay sys'.world.committed userId) ↔
      Rechecked ids sys a) ∧ Listed ids sys'.world.committed := by
  obtain ⟨s, input⟩ := a
  rcases hv.committed_or_commit discipline_lawful (meets_default _ _) hstep with
    ⟨hsame, hnot⟩ | ⟨notes, next, i, hl, rfl, hremoved⟩
  · rw [hsame]
    refine ⟨iff_of_true (fun _ h => h) ?_, hlisted⟩
    unfold Rechecked
    split
    · next notes next i hl hi => exact absurd ⟨hl, hi⟩ (hnot notes next i)
    · trivial
  · have hrechecked : Rechecked ids sys (s, .next i) ↔
        ∀ note ∈ notes, note.Clear ids sys.world.committed := by
      simp [Rechecked, hl]
    rw [hrechecked]
    exact ⟨hremoved.hasWay_iff hlisted, hremoved.listed hlisted⟩

theorem listed_of_run {rows : Rows} (hlisted : Listed ids rows)
    (hrun : StepSystem.Reachable (Script.step (calls ids)) (initial rows) sys) :
    Listed ids sys.world.committed := by
  induction hrun with
  | refl => exact hlisted
  | tail hrun hlast ih =>
    obtain ⟨a, -, hstep⟩ := hlast
    exact (hasWay_step_iff (valid_ways hrun) ih hstep).2

end

/-! ### Two deletes at a time -/

/-- An account without a password, with a passkey and a linked provider. -/
def twoWays : Rows
  | .user "u" => some (.user none)
  | .passkey "u" "p" => some .passkey
  | .oauth "u" .google => some .oauth
  | _ => none

theorem listed_twoWays : Listed ["p"] twoWays where
  nodup := by decide
  mem := by
    intro userId id h
    unfold twoWays at h
    split at h
    · next heq => cases heq
    · next heq =>
      cases heq
      exact List.mem_singleton_self _
    · next heq => cases heq
    · exact absurd rfl h

theorem hasWay_twoWays : HasWay twoWays "u" := .inr (.inl ⟨"p", by decide⟩)

/-- The ways of the account that are left, by kind. -/
def waysLeft (rows : Rows) : Option String × Nat × Nat :=
  (passwordHash rows "u", countCredentials ["p"] rows "u", countOAuthIdentities rows "u")

/-- A call from its start to its end. -/
def alone (s : Bool) (call : Call) : List (Bool × Input Call Bool) :=
  (s, .call call) :: List.replicate 8 (s, .next true)

/-- Two calls, a statement of each in turn. -/
def together (first second : Call) : List (Bool × Input Call Bool) :=
  (false, .call first) :: (true, .call second) ::
    (List.replicate 8 [(false, .next true), (true, .next true)]).flatten

end SignInWays
end TaskFlow
