import Mathlib.Data.List.Nodup
import TaskFlow.ChatTables
import TaskFlow.ImportRows
import TaskFlow.RowDiscipline

/-! # Reactions and their events

A person holds at most one reaction on a message.  `toggleReaction` reads it and then deletes it,
or writes another one over whatever is there by then; and what it announces, it chooses by what it
has read.

Where each row is written as it was read, the events, replayed in the order of the commits, are the
rows (`folds_of_current`).  Two clicks of one person that both read nothing announce one reaction
twice (`added_twice`).
-/
namespace TaskFlow
namespace Chat
open ReadCommitted ReadCommitted.Script ReadCommitted.Procedure Policy Tenancy
open ImportRows (utf16Length)

def MAX_EMOJI_LENGTH : Nat := 32

/-- Who holds which reaction on a message. -/
abbrev Holding := MessageId → UserId → Option Emoji

def reactionOf (rows : Rows) : Holding :=
  fun messageId userId => (reactionRow rows messageId userId).map MessageReaction.emoji

/-- The reaction, where it is of the organization. -/
def reactionIn (orgId : OrgId) (rows : Rows) (messageId : MessageId) (userId : UserId) :
    Option Emoji :=
  ((reactionRow rows messageId userId).filter fun reaction => reaction.orgId = orgId).map
    MessageReaction.emoji

/-- DELETE of the user's reaction where it is this emoji, the one just read. -/
def deleteReaction (orgId : OrgId) (messageId : MessageId) (userId : UserId) (emoji : Emoji) :
    Procedure Unit := do
  let _ ← update (.react orgId messageId userId (some emoji)) (.messageReaction messageId userId)
    fun _ row =>
      if ((row.bind Row.messageReaction?).filter fun reaction => reaction.orgId = orgId).map
        MessageReaction.emoji = some emoji then some none else none

/-- What the upsert makes of the row: a row of another organization is not to be written. -/
def upsertedReaction (orgId : OrgId) (channelId : ChannelId) (emoji : Emoji) :
    Option MessageReaction → Option MessageReaction
  | none => some ⟨orgId, channelId, emoji⟩
  | some reaction => if reaction.orgId = orgId then some { reaction with emoji := emoji } else none

/-- INSERT of the user's reaction, ON CONFLICT DO UPDATE of its emoji; `current` is what was
read. -/
def upsertReaction (orgId : OrgId) (channelId : ChannelId) (messageId : MessageId)
    (userId : UserId) (emoji : Emoji) (current : Option Emoji) : Procedure Unit := do
  let written ← upsert (.react orgId messageId userId current) (.messageReaction messageId userId)
    fun _ row => (upsertedReaction orgId channelId emoji (row.bind Row.messageReaction?)).map
      fun reaction => some (.messageReaction reaction)
  require written.isSome

/-- The events of a change: the old emoji leaves and the new one arrives. -/
def changeEvents (messageId : MessageId) (channelId : ChannelId) (userId : UserId)
    (before after : Option Emoji) : List Event :=
  before.toList.map (.messageReactionRemoved messageId channelId userId) ++
    after.toList.map (.messageReactionAdded messageId channelId userId)

/-- Toggles the caller's reaction off, or sets it.  The events of a transaction are noted the last
first. -/
def toggleReaction (actor : ChatActor) (channelId : ChannelId) (messageId : MessageId)
    (input : Emoji) : Procedure Bool := do
  let emoji := RichText.trim input
  require (emoji ≠ [] ∧ utf16Length emoji ≤ MAX_EMOJI_LENGTH)
  transaction do
    let channel ← loadChannel (orgOf actor) channelId
    enforceOnChannel actor ⟨.message, .create⟩ channelId channel
    assertMessageInChannel (orgOf actor) channelId messageId
    let current ← select .query fun rows =>
      reactionIn (orgOf actor) rows messageId (userOf actor)
    if current = some emoji then do
      deleteReaction (orgOf actor) messageId (userOf actor) emoji
      return ([.messageReactionRemoved messageId channelId (userOf actor) emoji], false)
    else do
      upsertReaction (orgOf actor) channelId messageId (userOf actor) emoji current
      return ((changeEvents messageId channelId (userOf actor) current (some emoji)).reverse, true)

structure ToggleReaction where
  actor : ChatActor
  channelId : ChannelId
  messageId : MessageId
  emoji : Emoji
  deriving DecidableEq, Repr

def toggles (call : ToggleReaction) : Script Key (Option Row) Label Int Event :=
  (toggleReaction call.actor call.channelId call.messageId call.emoji).script

/-! ### Replay -/

/-- A reaction as a consumer of the events keeps it. -/
structure Reaction where
  messageId : MessageId
  userId : UserId
  emoji : Emoji
  deriving DecidableEq, Repr

/-- One event: none where what is added is there, or what is removed is not. -/
def Event.fold (reactions : List Reaction) : Event → Option (List Reaction)
  | .messageReactionAdded messageId _ userId emoji =>
    if ⟨messageId, userId, emoji⟩ ∈ reactions then none
    else some (⟨messageId, userId, emoji⟩ :: reactions)
  | .messageReactionRemoved messageId _ userId emoji =>
    if ⟨messageId, userId, emoji⟩ ∈ reactions then
      some (reactions.erase ⟨messageId, userId, emoji⟩)
    else none
  | _ => some reactions

/-- Replays the events from the empty set; the last one is the first of the list. -/
def replay : List Event → Option (List Reaction)
  | [] => some []
  | event :: earlier => (replay earlier).bind fun reactions => event.fold reactions

/-- The reactions are the ones held. -/
def Holds (holding : Holding) (reactions : List Reaction) : Prop :=
  reactions.Nodup ∧ ∀ reaction : Reaction,
    reaction ∈ reactions ↔ holding reaction.messageId reaction.userId = some reaction.emoji

/-- The events can be replayed, and give the rows. -/
def Folds (rows : Rows) (events : List Event) : Prop :=
  ∃ reactions, replay events = some reactions ∧ Holds (reactionOf rows) reactions

/-- A reaction is written where it is as it was read. -/
def current : Condition Key (Option Row) Label Int Event where
  statement label _ rows _ :=
    match label with
    | .react orgId messageId userId current => reactionIn orgId rows messageId userId = current
    | _ => True

abbrev reactionDiscipline (S : Type) : Discipline S Key (Option Row) Label Int Event :=
  .ofRows S Folds (fun _ _ => True) current

/-! ### Events -/

/-- One person's reaction on one message replaced. -/
def Holding.assign (holding : Holding) (messageId : MessageId) (userId : UserId)
    (emoji : Option Emoji) : Holding :=
  fun messageId' userId' =>
    if messageId' = messageId ∧ userId' = userId then emoji else holding messageId' userId'

section
variable {holding : Holding} {reactions : List Reaction} {messageId : MessageId}
  {channelId : ChannelId} {userId : UserId} {emoji : Emoji}

/-- The event of a reaction that is held. -/
theorem Holds.removed (h : Holds holding reactions) (channelId : ChannelId)
    (hheld : holding messageId userId = some emoji) :
    ∃ reactions', Event.fold reactions (.messageReactionRemoved messageId channelId userId emoji) =
        some reactions' ∧ Holds (holding.assign messageId userId none) reactions' := by
  obtain ⟨hnodup, hmem⟩ := h
  refine ⟨_, if_pos ((hmem ⟨messageId, userId, emoji⟩).mpr hheld), hnodup.erase _, ?_⟩
  rintro ⟨messageId', userId', emoji'⟩
  rw [hnodup.mem_erase_iff, hmem, Holding.assign]
  by_cases hsame : messageId' = messageId ∧ userId' = userId
  · obtain ⟨rfl, rfl⟩ := hsame
    simp [hheld, eq_comm]
  · rw [if_neg hsame]
    refine and_iff_right fun heq => hsame ?_
    obtain ⟨rfl, rfl, -⟩ := Reaction.mk.inj heq
    exact ⟨rfl, rfl⟩

/-- The event of a reaction where none is held. -/
theorem Holds.added (h : Holds holding reactions) (channelId : ChannelId) (emoji : Emoji)
    (hfree : holding messageId userId = none) :
    ∃ reactions', Event.fold reactions (.messageReactionAdded messageId channelId userId emoji) =
        some reactions' ∧ Holds (holding.assign messageId userId (some emoji)) reactions' := by
  obtain ⟨hnodup, hmem⟩ := h
  have hnew : ⟨messageId, userId, emoji⟩ ∉ reactions := by
    simp [hmem, hfree]
  refine ⟨_, if_neg hnew, List.nodup_cons.mpr ⟨hnew, hnodup⟩, ?_⟩
  rintro ⟨messageId', userId', emoji'⟩
  rw [List.mem_cons, hmem, Holding.assign]
  by_cases hsame : messageId' = messageId ∧ userId' = userId
  · obtain ⟨rfl, rfl⟩ := hsame
    simp [hfree, eq_comm]
  · rw [if_neg hsame]
    refine or_iff_right fun heq => hsame ?_
    obtain ⟨rfl, rfl, -⟩ := Reaction.mk.inj heq
    exact ⟨rfl, rfl⟩

theorem assign_assign (emoji emoji' : Option Emoji) :
    (holding.assign messageId userId emoji).assign messageId userId emoji' =
      holding.assign messageId userId emoji' := by
  funext messageId' userId'
  simp only [Holding.assign]
  split <;> rfl

theorem assign_self : holding.assign messageId userId (holding messageId userId) = holding := by
  funext messageId' userId'
  simp only [Holding.assign]
  split
  · next hsame => rw [hsame.1, hsame.2]
  · rfl

/-- **The events of a change replay to the change**, where it is from what is held. -/
theorem Holds.changed {earlier : List Event} (h : Holds holding reactions)
    (messageId : MessageId) (channelId : ChannelId) (userId : UserId)
    (hreplay : replay earlier = some reactions) (after : Option Emoji) :
    ∃ reactions', replay ((changeEvents messageId channelId userId (holding messageId userId)
        after).reverse ++ earlier) = some reactions' ∧
      Holds (holding.assign messageId userId after) reactions' := by
  -- what is held is removed first
  obtain ⟨between, hbetween, hholds⟩ : ∃ between,
      replay (((holding messageId userId).toList.map
        (Event.messageReactionRemoved messageId channelId userId)).reverse ++ earlier) =
        some between ∧ Holds (holding.assign messageId userId none) between := by
    cases hheld : holding messageId userId with
    | none =>
      refine ⟨reactions, hreplay, ?_⟩
      rw [← hheld, assign_self]
      exact h
    | some emoji =>
      obtain ⟨between, hfold, hholds⟩ := h.removed channelId hheld
      exact ⟨between, by simpa [replay, hreplay] using hfold, hholds⟩
  rw [changeEvents, List.reverse_append, List.append_assoc]
  cases after with
  | none => exact ⟨between, hbetween, hholds⟩
  | some emoji =>
    have hfree : holding.assign messageId userId none messageId userId = none :=
      if_pos ⟨rfl, rfl⟩
    obtain ⟨reactions', hfold, hholds'⟩ := hholds.added channelId emoji hfree
    rw [assign_assign] at hholds'
    exact ⟨reactions', (congrArg (Option.bind · _) hbetween).trans hfold, hholds'⟩

end

/-! ### Statements -/

def emojiIn (row : Option Row) : Option Emoji :=
  (row.bind Row.messageReaction?).map MessageReaction.emoji

/-- The transaction has changed one reaction from what is committed. -/
def Changed {S : Type} (messageId : MessageId) (userId : UserId) (before after : Option Emoji) :
    Assertion S Key (Option Row) Event :=
  fun t σ => ∃ row row', Replaced [(.messageReaction messageId userId, row, row')] t σ ∧
    emojiIn row = before ∧ emojiIn row' = after

section
variable {S : Type} {s : S} {orgId : OrgId} {messageId : MessageId} {channelId : ChannelId}
  {userId : UserId} {emoji : Emoji} {before after : Option Emoji}

/-- Writing a reaction changes no other. -/
theorem reactionOf_update (rows : Rows) (row : Option Row) :
    reactionOf (Function.update rows (.messageReaction messageId userId) row) =
      (reactionOf rows).assign messageId userId (emojiIn row) := by
  funext messageId' userId'
  simp only [Holding.assign]
  split
  · next hsame =>
    rw [reactionOf, reactionRow, hsame.1, hsame.2, Function.update_self, emojiIn]
  · next hsame =>
    rw [reactionOf, reactionOf, reactionRow, reactionRow, Function.update_of_ne]
    exact fun heq => hsame (Key.messageReaction.inj heq)

theorem changed_stable :
    Stable (reactionDiscipline S) s (Changed messageId userId before after) := by
  rintro t σ σ' ⟨row, row', h, hrows⟩ hrely hinv
  exact ⟨row, row', replaced_stable_ofRows _ t σ σ' h hrely hinv, hrows⟩

/-- Where the upsert writes, it writes the emoji, and over what the organization sees. -/
theorem upsertedReaction_some {found : Option MessageReaction} {reaction : MessageReaction}
    (h : upsertedReaction orgId channelId emoji found = some reaction) :
    reaction.emoji = emoji ∧ (found.filter fun reaction => reaction.orgId = orgId) = found := by
  cases found with
  | none =>
    obtain rfl := Option.some.inj h
    exact ⟨rfl, rfl⟩
  | some old =>
    obtain ⟨horg, heq⟩ := Option.ite_none_right_eq_some.mp h
    obtain rfl := Option.some.inj heq
    exact ⟨rfl, Option.filter_eq_some_iff.mpr ⟨rfl, decide_eq_true horg⟩⟩

/-- The DELETE finds the reaction that was read. -/
theorem triple_deleteReaction :
    Triple (reactionDiscipline S) s (fun t _ => t = .none)
      (deleteReaction orgId messageId userId emoji)
      fun _ => Changed messageId userId (some emoji) none := by
  refine Triple.bind (Q := fun _ => Changed messageId userId (some emoji) none)
    (triple_update stable_none ?_ ?_) fun _ => triple_pure fun _ _ h => h
  · rintro t σ now held row rfl - hrow - -
    obtain ⟨hread, heq⟩ := Option.ite_none_right_eq_some.mp hrow
    obtain rfl := Option.some.inj heq
    obtain ⟨reaction, hreaction, hemoji⟩ := Option.map_eq_some_iff.mp hread
    have hbefore : emojiIn (σ.rows (.messageReaction messageId userId)) = some emoji := by
      rw [emojiIn, Option.map_eq_some_iff]
      exact ⟨reaction, (Option.filter_eq_some_iff.mp hreaction).1, hemoji⟩
    exact ⟨_, none, replaced_nil.cons _ _, hbefore, rfl⟩
  · rintro t σ now held rfl - hrow hcurrent
    have hseen : reactionIn orgId σ.rows messageId userId = some emoji := hcurrent
    cases (if_pos hseen).symm.trans hrow

/-- The upsert writes over the reaction that was read, if it writes. -/
theorem triple_upsertReaction :
    Triple (reactionDiscipline S) s (fun t _ => t = .none)
      (upsertReaction orgId channelId messageId userId emoji before)
      fun _ => Changed messageId userId before (some emoji) := by
  refine Triple.bind (Q := fun written t σ => written.isSome →
      Changed messageId userId before (some emoji) t σ)
    (triple_upsert stable_none ?_ ?_) fun _ => triple_require fun _ _ h hwritten => h hwritten
  · rintro t σ now held row rfl - hrow - hcurrent -
    obtain ⟨reaction, hreaction, rfl⟩ := Option.map_eq_some_iff.mp hrow
    obtain ⟨hafter, hseen⟩ := upsertedReaction_some hreaction
    have hbefore : emojiIn (σ.rows (.messageReaction messageId userId)) = before :=
      (congrArg (Option.map MessageReaction.emoji) hseen).symm.trans hcurrent
    have hreplaced := (replaced_nil (σ := σ)).run [Key.messageReaction messageId userId]
      [(Key.messageReaction messageId userId, some (Row.messageReaction reaction))]
    exact ⟨_, _, hreplaced, hbefore, congrArg some hafter⟩
  · rintro t σ now held rfl - - - hnot
    exact absurd hnot Bool.false_ne_true

/-- What a commit of such a change leaves. -/
theorem Folds.changed {t : Transaction Key (Option Row)} {σ : Shared S Key (Option Row) Event}
    (h : Folds σ.rows (σ.log.map Prod.snd)) (hchanged : Changed messageId userId before after t σ) :
    Folds (t.view σ) ((changeEvents messageId channelId userId before after).reverse ++
      σ.log.map Prod.snd) := by
  obtain ⟨row, row', hreplaced, hbefore, hafter⟩ := hchanged
  obtain ⟨reactions, hreplay, hholds⟩ := h
  have hrow : reactionOf σ.rows messageId userId = before := by
    have hrow : σ.rows (.messageReaction messageId userId) = row :=
      hreplaced.row _ List.mem_cons_self
    rw [← hbefore, ← hrow]
    rfl
  have hview : reactionOf (t.view σ) = (reactionOf σ.rows).assign messageId userId after := by
    rw [hreplaced.view, ← hafter]
    exact reactionOf_update σ.rows row'
  obtain ⟨reactions', hreplay', hholds'⟩ :=
    hholds.changed messageId channelId userId hreplay after
  rw [hrow] at hreplay'
  exact ⟨reactions', hreplay', hview ▸ hholds'⟩

theorem triple_toggleReaction {actor : ChatActor} :
    Triple (reactionDiscipline S) s (fun t _ => t = .none)
      (toggleReaction actor channelId messageId emoji) fun _ t _ => t = .none := by
  refine Triple.require fun _ => ?_
  refine triple_transaction (R := fun r t σ => ∃ before after,
    r.1 = (changeEvents messageId channelId (userOf actor) before after).reverse ∧
      Changed messageId (userOf actor) before after t σ) ?_ ?_ ?_
  · refine (triple_loadChannel stable_none).bind fun channel =>
      triple_enforceOnChannel.bind fun _ =>
        (triple_assertMessageInChannel stable_none).bind fun _ =>
          (triple_query stable_none).bind fun current => ?_
    refine Triple.ite (fun _ => ?_) fun _ => ?_
    · exact triple_deleteReaction.bind fun _ => triple_pure fun _ _ h => ⟨_, _, rfl, h⟩
    · exact triple_upsertReaction.bind fun _ => triple_pure fun _ _ h => ⟨_, _, rfl, h⟩
  · rintro r t σ σ' ⟨before, after, hnotes, h⟩ hrely hinv
    exact ⟨before, after, hnotes, changed_stable t σ σ' h hrely hinv⟩
  · rintro r t σ ⟨before, after, hnotes, h⟩ hinv -
    refine ⟨?_, trivial, rfl⟩
    have hfolds : Folds (t.view σ) (r.1 ++ σ.log.map Prod.snd) := hnotes ▸ Folds.changed hinv h
    rw [← Shared.commit_notes σ s t r.1] at hfolds
    exact hfolds

/-- Before the first call. -/
theorem folds_nil {rows : Rows} (h : ∀ messageId userId, reactionOf rows messageId userId = none) :
    Folds rows [] := by
  refine ⟨[], rfl, List.nodup_nil, fun reaction => ?_⟩
  simp [h]

end

/-- **Where each reaction is written as it was read, the events of the reactions, replayed in the
order of the commits, are the reactions in the rows**, and none is added twice or removed where
it is not. -/
theorem folds_of_current {S : Type} [DecidableEq S] {rows : Rows}
    {sys : System S Key (Option Row) Label Int Event}
    (hrows : ∀ messageId userId, reactionOf rows messageId userId = none)
    (hrun : StepSystem.ReachableWhen (Script.step toggles) current.Meets (initial rows) sys) :
    Folds sys.world.committed (sys.log.map Prod.snd) :=
  (valid_of_reachable (D := reactionDiscipline S) Discipline.ofRows_lawful
    (fun _ _ _ _ => Triple.safe triple_toggleReaction _) (folds_nil hrows) hrun).inv

/-! ### Two clicks -/

instance (label : Label) (now : Int) (rows : Rows) (held : Key → Bool) :
    Decidable (current.statement label now rows held) :=
  match label with
  | .react orgId messageId userId current =>
    inferInstanceAs (Decidable (reactionIn orgId rows messageId userId = current))
  | .query | .advance .. | .sweep .. => isTrue trivial

instance (notes : List Event) (rows : Rows) : Decidable (current.commit notes rows) :=
  isTrue trivial

instance (notes log : List Event) : Decidable (current.history notes log) := isTrue trivial

/-- A click on an emoji: the call and `n` of its statements. -/
def clicks (client : Bool) (emoji : Emoji) (n : Nat) : List (Bool × Input ToggleReaction Int) :=
  (client, .call ⟨participant, "c", "m1", emoji⟩) :: List.replicate n (client, .next 0)

/-- Another emoji replaces the first, and a click on it removes it. -/
theorem folds_of_current_inTurn :
    ∃ sys : System Bool Key (Option Row) Label Int Event,
      StepSystem.Reachable (Script.step toggles) (initial general) sys ∧
      sys.log.length = 4 ∧ reactionOf sys.world.committed "m1" "u" = none ∧
      Folds sys.world.committed (sys.log.map Prod.snd) := by
  have hsome : ((StepSystem.runWhen (Script.step toggles) current.Meets (initial general)
      (clicks true ['a'] 5 ++ clicks true ['b'] 5 ++ clicks false ['b', ' '] 5)).map fun sys =>
        (sys.log.length, reactionOf sys.world.committed "m1" "u")) = some (4, none) := by
    decide
  obtain ⟨sys, hrun, hresult⟩ := Option.map_eq_some_iff.mp hsome
  obtain ⟨hlength, hnone⟩ := Prod.mk.inj hresult
  have hreach := StepSystem.reachableWhen_of_runWhen hrun
  exact ⟨sys, hreach.mono fun _ _ _ => trivial, hlength, hnone,
    folds_of_current (fun _ _ => rfl) hreach⟩

/-- **Two clicks of one person that both read nothing** add one reaction twice. -/
theorem added_twice :
    ∃ sys : System Bool Key (Option Row) Label Int Event,
      StepSystem.run (Script.step toggles) (initial general)
        (clicks true ['a'] 3 ++ clicks false ['a'] 5 ++ List.replicate 2 (true, .next 0)) =
          some sys ∧
      reactionOf sys.world.committed "m1" "u" = some ['a'] ∧
      replay (sys.log.map Prod.snd) = none ∧
      ¬Folds sys.world.committed (sys.log.map Prod.snd) := by
  have hsome : ((StepSystem.run (Script.step toggles) (initial general)
      (clicks true ['a'] 3 ++ clicks false ['a'] 5 ++ List.replicate 2 (true, .next 0))).map
        fun sys => (reactionOf sys.world.committed "m1" "u", replay (sys.log.map Prod.snd))) =
          some (some ['a'], none) := by decide
  obtain ⟨sys, hrun, hresult⟩ := Option.map_eq_some_iff.mp hsome
  obtain ⟨hrow, hreplay⟩ := Prod.mk.inj hresult
  refine ⟨sys, hrun, hrow, hreplay, ?_⟩
  rintro ⟨reactions, hreactions, -⟩
  cases hreplay.symm.trans hreactions

end Chat
end TaskFlow
