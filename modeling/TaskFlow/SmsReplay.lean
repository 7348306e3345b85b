import TaskFlow.SmsOptOut

/-! # Text messages delivered again

An inbox is a database with what the keys and the handler keep true of it.  Over any
sequence of deliveries its messages are those of the sequence without the duplicates.  Its
suppressions need not be: a keyword delivered again is heard again, so what a number asked
for last is not always what its last message says (`run_eq_withoutDuplicates_iff`).
-/
namespace TaskFlow
namespace SmsReplay
open SmsOptOut

/-! ### The inbox -/

/-- A database in which a request is remembered only when its message is stored, and every
thread is on a number of ours. -/
structure Inbox where
  db : Database
  nonceStored : ∀ nonce ∈ db.nonces, db.hasMessage nonce.1.providerSid = true
  threadOurs : ∀ thread, db.hasThread thread = true → thread.phoneNumberId ∈ db.phoneNumbers

/-- Nothing but our numbers. -/
def Inbox.empty (phoneNumbers : List String) : Inbox where
  db := ⟨phoneNumbers, [], [], [], [], []⟩
  nonceStored := fun _ h => absurd h List.not_mem_nil
  threadOurs := fun _ h => absurd h Bool.false_ne_true

theorem hasMessage_withMessage {db stored : Database} {message : MessageRow}
    (h : stored.messages = db.withMessage message) {providerSid : String} :
    stored.hasMessage providerSid =
      (db.hasMessage providerSid || decide (message.providerSid = some providerSid)) := by
  unfold Database.hasMessage
  rw [h, Database.withMessage]
  split
  · rename_i hold
    by_cases heq : message.providerSid = some providerSid
    · rw [heq, Option.any_some, Database.hasMessage] at hold
      rw [hold, Bool.true_or]
    · rw [decide_eq_false heq, Bool.or_false]
  · simp

theorem readSms_providerSid {request : SmsRequest} {input : InboundSms}
    (h : readSms request = some input) : input.providerSid = request.providerSid := by
  unfold readSms at h
  simp only [Option.bind_eq_bind, Option.bind_eq_some_iff, Option.some.injEq] at h
  obtain ⟨_, _, _, _, rfl⟩ := h
  rfl

/-- The message a request is read as, if the transaction can commit. -/
def handled (db : Database) : Event → Option InboundSms
  | .deliver request _ _ =>
    if db.isReplay request then none else (readSms request).filter db.accepts
  | .prune _ => none

/-- What an event that no message is read from leaves alone. -/
structure Kept (db kept : Database) : Prop where
  messages : kept.messages = db.messages
  phoneNumbers : kept.phoneNumbers = db.phoneNumbers
  nonces : kept.nonces ⊆ db.nonces
  threads : kept.threads = db.threads
  suppressions : kept.suppressions = db.suppressions

section
variable (unicode : Unicode) {db : Database} {event : Event} {input : InboundSms}

theorem kept_of_handled (h : handled db event = none) : Kept db (handle unicode db event) := by
  cases event with
  | prune cutoff => exact ⟨rfl, rfl, List.filter_subset_self _, rfl, rfl⟩
  | deliver request now answered =>
    suffices hsame : handle unicode db (.deliver request now answered) = db by
      rw [hsame]
      exact ⟨rfl, rfl, List.Subset.refl _, rfl, rfl⟩
    change deliver unicode db request now answered = db
    unfold deliver
    split
    · rfl
    · rename_i hnew
      simp only [handled, if_neg hnew] at h
      cases hread : readSms request with
      | none => rfl
      | some input =>
        have hrefused : (receiveSms unicode db now input).isSome = false := by
          rw [isSome_receiveSms, ← Bool.not_eq_true]
          intro haccepts
          rw [hread, Option.filter_some, if_pos haccepts] at h
          exact absurd h (by simp)
        rw [Option.isSome_eq_false_iff, Option.isNone_iff_eq_none] at hrefused
        rw [Option.bind_some, hrefused]

theorem received_of_handled (h : handled db event = some input) :
    Received unicode db input (handle unicode db event) := by
  cases event with
  | prune cutoff => exact absurd h (by simp [handled])
  | deliver request now answered =>
    simp only [handled] at h
    split at h
    · exact absurd h (by simp)
    · rename_i hnew
      obtain ⟨hread, haccepts⟩ := Option.filter_eq_some_iff.mp h
      rw [← isSome_receiveSms unicode db now input, Option.isSome_iff_exists]
        at haccepts
      obtain ⟨stored, hstored⟩ := haccepts
      have hreceived := received_of_receiveSms hstored
      change Received unicode db input (deliver unicode db request now answered)
      unfold deliver
      rw [if_neg hnew, hread, Option.bind_some, hstored]
      cases answered with
      | false => exact hreceived
      | true => exact hreceived.commitWebhookNonce (readSms_providerSid hread).symm

end

/-- An event, handled by an inbox. -/
def Inbox.handle (unicode : Unicode) (inbox : Inbox) (event : Event) : Inbox where
  db := SmsOptOut.handle unicode inbox.db event
  nonceStored := by
    intro nonce hnonce
    cases h : handled inbox.db event with
    | none =>
      have hkept := kept_of_handled unicode h
      unfold Database.hasMessage
      rw [hkept.messages]
      exact inbox.nonceStored nonce (hkept.nonces hnonce)
    | some input =>
      have hreceived := received_of_handled unicode h
      rw [hasMessage_withMessage hreceived.messages, Bool.or_eq_true, decide_eq_true_eq]
      rcases hreceived.nonces nonce hnonce with hold | hsid
      · exact .inl (inbox.nonceStored nonce hold)
      · exact .inr (congrArg some hsid.symm)
  threadOurs := by
    intro thread hthread
    cases h : handled inbox.db event with
    | none =>
      have hkept := kept_of_handled unicode h
      unfold Database.hasThread at hthread
      rw [hkept.threads] at hthread
      rw [hkept.phoneNumbers]
      exact inbox.threadOurs thread hthread
    | some input =>
      have hreceived := received_of_handled unicode h
      rw [hreceived.phoneNumbers]
      rcases hreceived.threads thread hthread with hold | ⟨rfl, hours⟩
      · exact inbox.threadOurs thread hold
      · exact hours

/-- The inbox after a sequence of events. -/
def Inbox.run (unicode : Unicode) (inbox : Inbox) (events : List Event) : Inbox :=
  events.foldl (Inbox.handle unicode) inbox

/-- The event delivers a message that is stored already. -/
def isDuplicate (db : Database) : Event → Bool
  | .deliver request _ _ => db.hasMessage request.providerSid
  | .prune _ => false

/-- The events without those that deliver a message stored by then. -/
def withoutDuplicates (unicode : Unicode) (inbox : Inbox) : List Event → List Event
  | [] => []
  | event :: events =>
    let rest := withoutDuplicates unicode (inbox.handle unicode event) events
    if isDuplicate inbox.db event then rest else event :: rest

/-- A keyword that was heard, and whether it came with a message stored before. -/
structure Keyword where
  sender : String
  stop : Bool
  duplicate : Bool
  deriving DecidableEq, Repr

/-- The keyword of an event, if it carries one and is handled. -/
def keywordOf (unicode : Unicode) (db : Database) (event : Event) : Option Keyword :=
  (handled db event).bind fun input =>
    match classifyOptOut unicode input.body with
    | .stop => some ⟨input.sender, true, db.hasMessage input.providerSid⟩
    | .start => some ⟨input.sender, false, db.hasMessage input.providerSid⟩
    | .none => none

/-- The keywords heard over a sequence of events. -/
def keywords (unicode : Unicode) (inbox : Inbox) : List Event → List Keyword
  | [] => []
  | event :: events =>
    (keywordOf unicode inbox.db event).toList ++
      keywords unicode (inbox.handle unicode event) events

/-- The last keyword of a number. -/
def lastKeyword (number : String) (heard : List Keyword) : Option Keyword :=
  (heard.filter (·.sender = number)).getLast?

/-- The keywords that came with a new message. -/
def originals (heard : List Keyword) : List Keyword := heard.filter (!·.duplicate)

/-- Whether a number's last keyword is STOP; before its first, what was so at the start. -/
def lastWord (number : String) (heard : List Keyword) (initially : Bool) : Bool :=
  ((lastKeyword number heard).map (·.stop)).getD initially

/-- If the last keyword heard from the number came with a duplicate, it asks for what the
number's last original keyword asked for, or, without one, for what was so at the start. -/
def LastWordStands (unicode : Unicode) (inbox : Inbox) (events : List Event)
    (number : String) : Prop :=
  ∀ last ∈ lastKeyword number (keywords unicode inbox events), last.duplicate = true →
    last.stop = lastWord number (originals (keywords unicode inbox events))
      (inbox.db.isSuppressed number)

/-! ### What a number's last word is -/

@[simp] theorem lastWord_nil (number : String) (initially : Bool) :
    lastWord number [] initially = initially := rfl

/-- The last word of what is heard later counts. -/
theorem lastWord_append (number : String) (before after : List Keyword) (initially : Bool) :
    lastWord number (before ++ after) initially =
      lastWord number after (lastWord number before initially) := by
  unfold lastWord lastKeyword
  rw [List.filter_append, List.getLast?_append]
  cases (after.filter (·.sender = number)).getLast? <;> rfl

theorem lastWord_singleton (number : String) (keyword : Keyword) (initially : Bool) :
    lastWord number [keyword] initially =
      if keyword.sender = number then keyword.stop else initially := by
  unfold lastWord lastKeyword
  by_cases h : keyword.sender = number <;> simp [h]

theorem originals_append (before after : List Keyword) :
    originals (before ++ after) = originals before ++ originals after := List.filter_append ..

/-- The last keyword of a number is its last original one, unless it came with a duplicate. -/
theorem lastWord_originals {number : String} {heard : List Keyword} {last : Keyword}
    (hlast : lastKeyword number heard = some last) (horiginal : last.duplicate = false)
    (initially : Bool) : lastWord number (originals heard) initially = last.stop := by
  unfold lastKeyword at hlast
  obtain ⟨before, hown⟩ := List.getLast?_eq_some_iff.mp hlast
  have hcomm : (originals heard).filter (·.sender = number) =
      originals (heard.filter (·.sender = number)) := by
    unfold originals
    rw [List.filter_filter, List.filter_filter]
    simp only [Bool.and_comm]
  have hkept : originals [last] = [last] := by
    unfold originals
    simp [horiginal]
  unfold lastWord lastKeyword
  rw [hcomm, hown, originals_append, hkept, List.getLast?_append]
  rfl

/-- A number without keywords has no original ones. -/
theorem lastWord_originals_of_none {number : String} {heard : List Keyword}
    (hlast : lastKeyword number heard = none) (initially : Bool) :
    lastWord number (originals heard) initially = initially := by
  unfold lastKeyword at hlast
  rw [List.getLast?_eq_none_iff, List.filter_eq_nil_iff] at hlast
  have hnone : (originals heard).filter (·.sender = number) = [] := by
    rw [List.filter_eq_nil_iff]
    intro keyword hkeyword
    exact hlast keyword (List.mem_of_mem_filter hkeyword)
  unfold lastWord lastKeyword
  rw [hnone]
  rfl

/-! ### Runs -/

section
variable {unicode : Unicode} {number : String}

theorem isSuppressed_congr {db kept : Database} (h : kept.suppressions = db.suppressions) :
    kept.isSuppressed number = db.isSuppressed number := by
  unfold Database.isSuppressed
  rw [h]

/-- A message handled is a duplicate if its own id is stored. -/
theorem isDuplicate_of_handled {db : Database} {event : Event} {input : InboundSms}
    (h : handled db event = some input) :
    isDuplicate db event = db.hasMessage input.providerSid := by
  cases event with
  | prune cutoff => exact absurd h (by simp [handled])
  | deliver request now answered =>
    simp only [handled] at h
    split at h
    · exact absurd h (by simp)
    · rw [readSms_providerSid (Option.filter_eq_some_iff.mp h).1]
      rfl

theorem duplicate_of_keywordOf {db : Database} {event : Event} {keyword : Keyword}
    (h : keywordOf unicode db event = some keyword) :
    keyword.duplicate = isDuplicate db event := by
  obtain ⟨input, hinput, hkeyword⟩ := Option.bind_eq_some_iff.mp h
  rw [isDuplicate_of_handled hinput]
  split at hkeyword
  · exact (Option.some.inj hkeyword) ▸ rfl
  · exact (Option.some.inj hkeyword) ▸ rfl
  · exact absurd hkeyword (by simp)

/-- The keyword of a duplicate is not an original one; every other keyword is. -/
theorem originals_keywordOf (db : Database) (event : Event) :
    originals (keywordOf unicode db event).toList =
      if isDuplicate db event then [] else (keywordOf unicode db event).toList := by
  cases h : keywordOf unicode db event with
  | none => exact (ite_self _).symm
  | some keyword =>
    unfold originals
    rw [← duplicate_of_keywordOf h]
    cases hduplicate : keyword.duplicate <;> simp [hduplicate]

/-- The suppression of a number after one event. -/
theorem isSuppressed_handle (db : Database) (event : Event) :
    (handle unicode db event).isSuppressed number =
      lastWord number (keywordOf unicode db event).toList (db.isSuppressed number) := by
  unfold keywordOf
  cases h : handled db event with
  | none => exact isSuppressed_congr (kept_of_handled unicode h).suppressions
  | some input =>
    rw [(received_of_handled unicode h).suppressed, Option.bind_some]
    cases classifyOptOut unicode input.body with
    | stop => exact (lastWord_singleton number ⟨input.sender, true, _⟩ _).symm
    | start => exact (lastWord_singleton number ⟨input.sender, false, _⟩ _).symm
    | none => exact ite_self _

/-- After any sequence of events a number is suppressed if its last word was STOP. -/
theorem isSuppressed_run (inbox : Inbox) (events : List Event) :
    (inbox.run unicode events).db.isSuppressed number =
      lastWord number (keywords unicode inbox events) (inbox.db.isSuppressed number) := by
  induction events generalizing inbox with
  | nil => rfl
  | cons event events ih =>
    unfold keywords
    rw [lastWord_append, ← isSuppressed_handle]
    exact ih (inbox.handle unicode event)

/-- Two inboxes with the same messages, on the same numbers. -/
def Alike (inbox other : Inbox) : Prop :=
  inbox.db.messages = other.db.messages ∧ inbox.db.phoneNumbers = other.db.phoneNumbers

theorem Alike.hasMessage {inbox other : Inbox} (h : Alike inbox other) (providerSid : String) :
    inbox.db.hasMessage providerSid = other.db.hasMessage providerSid := by
  unfold Database.hasMessage
  rw [h.1]

theorem Inbox.accepts_eq (inbox : Inbox) (input : InboundSms) :
    inbox.db.accepts input =
      decide (input.body.length ≤ 4000 ∧ input.phoneNumberId ∈ inbox.db.phoneNumbers) := by
  unfold Database.accepts
  refine decide_eq_decide.mpr (and_congr_right fun _ => or_iff_right_of_imp ?_)
  exact inbox.threadOurs input.thread

/-- A request whose message is not stored is no replay. -/
theorem Inbox.not_isReplay (inbox : Inbox) {request : SmsRequest}
    (h : inbox.db.hasMessage request.providerSid = false) :
    inbox.db.isReplay request = false := by
  unfold Database.isReplay
  rw [List.any_eq_false]
  intro nonce hnonce hsame
  rw [decide_eq_true_eq] at hsame
  have hstored := inbox.nonceStored nonce hnonce
  rw [hsame, h] at hstored
  exact absurd hstored Bool.false_ne_true

/-- An event that delivers no duplicate is handled alike by inboxes that are alike. -/
theorem Alike.handled_eq {inbox other : Inbox} (h : Alike inbox other) {event : Event}
    (hnew : isDuplicate inbox.db event = false) :
    handled inbox.db event = handled other.db event := by
  cases event with
  | prune cutoff => rfl
  | deliver request now answered =>
    have haccepts : inbox.db.accepts = other.db.accepts := by
      funext input
      rw [inbox.accepts_eq, other.accepts_eq, h.2]
    have hother : other.db.hasMessage request.providerSid = false :=
      (h.hasMessage _).symm.trans hnew
    unfold handled
    simp only [inbox.not_isReplay hnew, other.not_isReplay hother, haccepts]

theorem Alike.keywordOf_eq {inbox other : Inbox} (h : Alike inbox other) {event : Event}
    (hnew : isDuplicate inbox.db event = false) :
    keywordOf unicode inbox.db event = keywordOf unicode other.db event := by
  unfold keywordOf Database.hasMessage
  rw [h.handled_eq hnew, h.1]

theorem Alike.handle {inbox other : Inbox} (h : Alike inbox other) {event : Event}
    (hnew : isDuplicate inbox.db event = false) :
    Alike (inbox.handle unicode event) (other.handle unicode event) := by
  have hsame := h.handled_eq hnew
  cases hinput : handled inbox.db event with
  | none =>
    have hkept := kept_of_handled unicode hinput
    have hkept' := kept_of_handled unicode (hsame.symm.trans hinput)
    exact ⟨hkept.messages.trans (h.1.trans hkept'.messages.symm),
      hkept.phoneNumbers.trans (h.2.trans hkept'.phoneNumbers.symm)⟩
  | some input =>
    have hreceived := received_of_handled unicode hinput
    have hreceived' := received_of_handled unicode (hsame.symm.trans hinput)
    exact ⟨hreceived.messages.trans ((withMessage_congr h.1 _).trans hreceived'.messages.symm),
      hreceived.phoneNumbers.trans (h.2.trans hreceived'.phoneNumbers.symm)⟩

/-- An event that delivers a duplicate stores nothing. -/
theorem Alike.skip {inbox other : Inbox} (h : Alike inbox other) {event : Event}
    (hold : isDuplicate inbox.db event = true) : Alike (inbox.handle unicode event) other := by
  cases hinput : handled inbox.db event with
  | none =>
    have hkept := kept_of_handled unicode hinput
    exact ⟨hkept.messages.trans h.1, hkept.phoneNumbers.trans h.2⟩
  | some input =>
    have hreceived := received_of_handled unicode hinput
    refine ⟨hreceived.messages.trans (Eq.trans ?_ h.1), hreceived.phoneNumbers.trans h.2⟩
    unfold Database.withMessage
    rw [if_pos]
    change inbox.db.hasMessage input.providerSid = true
    rw [← isDuplicate_of_handled hinput]
    exact hold

/-- Duplicates store nothing. -/
theorem messages_run_withoutDuplicates {inbox other : Inbox} (h : Alike inbox other)
    (events : List Event) :
    Alike (inbox.run unicode events)
      (other.run unicode (withoutDuplicates unicode inbox events)) := by
  induction events generalizing inbox other with
  | nil => exact h
  | cons event events ih =>
    unfold withoutDuplicates
    split
    · rename_i hold
      exact ih (h.skip hold)
    · rename_i hnew
      exact ih (h.handle (Bool.not_eq_true _ ▸ hnew))

/-- Without the duplicates the last original word counts. -/
theorem isSuppressed_run_withoutDuplicates {inbox other : Inbox} (h : Alike inbox other)
    (events : List Event) :
    (other.run unicode (withoutDuplicates unicode inbox events)).db.isSuppressed number =
      lastWord number (originals (keywords unicode inbox events))
        (other.db.isSuppressed number) := by
  induction events generalizing inbox other with
  | nil => rfl
  | cons event events ih =>
    unfold withoutDuplicates keywords
    rw [originals_append, lastWord_append, originals_keywordOf]
    split
    · rename_i hold
      rw [ih (h.skip hold), lastWord_nil]
    · rename_i hnew
      rw [Bool.not_eq_true] at hnew
      rw [h.keywordOf_eq hnew, ← isSuppressed_handle]
      exact ih (h.handle hnew)

/-- The last keyword decides whether the originals say the same. -/
theorem lastWord_eq_originals_iff (heard : List Keyword) (initially : Bool) :
    lastWord number heard initially = lastWord number (originals heard) initially ↔
      ∀ last ∈ lastKeyword number heard, last.duplicate = true →
        last.stop = lastWord number (originals heard) initially := by
  cases h : lastKeyword number heard with
  | none =>
    rw [lastWord_originals_of_none h]
    unfold lastWord
    rw [h]
    simp
  | some last =>
    have hlast : lastWord number heard initially = last.stop := by
      unfold lastWord
      rw [h]
      rfl
    rw [hlast]
    constructor
    · intro hsame other hother _
      rw [← Option.some.inj hother]
      exact hsame
    · intro hstands
      cases hduplicate : last.duplicate with
      | true => exact hstands last rfl hduplicate
      | false => exact (lastWord_originals h hduplicate initially).symm

end

/-- **Messages delivered again are stored once, but they are heard again.**  After any
sequence of events the messages are those of the sequence without its duplicates; the
suppressions are too exactly when, for every number, a last keyword that came with a
duplicate asks for what the last original one did. -/
theorem run_eq_withoutDuplicates_iff (unicode : Unicode) (inbox : Inbox)
    (events : List Event) :
    ((inbox.run unicode events).db.messages =
        (inbox.run unicode (withoutDuplicates unicode inbox events)).db.messages ∧
      ∀ number, (inbox.run unicode events).db.isSuppressed number =
        (inbox.run unicode (withoutDuplicates unicode inbox events)).db.isSuppressed number) ↔
      ∀ number, LastWordStands unicode inbox events number := by
  have halike : Alike inbox inbox := ⟨rfl, rfl⟩
  rw [and_iff_right (messages_run_withoutDuplicates halike events).1]
  refine forall_congr' ?_
  intro number
  rw [isSuppressed_run, isSuppressed_run_withoutDuplicates halike, lastWord_eq_originals_iff]
  rfl

/-- A text message to the number `n1`. -/
def sms (sender body providerSid : String) : SmsRequest where
  phoneNumberId := "n1"
  params := [("From", sender), ("Body", body), ("MessageSid", providerSid)]

/-- STOP, whose request dies before its second transaction; START; STOP, delivered again. -/
def stopStartStop : List Event :=
  [.deliver (sms "+15551230000" "STOP" "SM1") 0 false,
    .deliver (sms "+15551230000" "START" "SM2") 60 true,
    .deliver (sms "+15551230000" "STOP" "SM1") 90 true]

/-- **A STOP delivered again undoes the START after it.** -/
theorem stop_again_undoes_start :
    (((Inbox.empty ["n1"]).run .ascii stopStartStop).db.isSuppressed "+15551230000",
      ((Inbox.empty ["n1"]).run .ascii
        (withoutDuplicates .ascii (.empty ["n1"]) stopStartStop)).db.isSuppressed
          "+15551230000") = (true, false) := by
  decide

end SmsReplay
end TaskFlow
