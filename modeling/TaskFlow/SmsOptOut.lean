import TaskFlow.TelephonyWebhooks
import TaskFlow.RichText

/-! # Inbound text messages and opt-outs

The carrier delivers a text message by a webhook, and delivers it again when it has not
heard the answer.  `receiveSms` stores a message once for each id of the carrier, and
suppresses the sender, or lifts the suppression, when the body is an opt-out keyword.

The keyword is applied whether or not the message was stored: `received_of_receiveSms` says
what a committed message leaves, and it names no message stored before.
-/
namespace TaskFlow
namespace SmsOptOut
open RichText TelephonyWebhooks

/-! ### Keywords -/

/-- The tables of Unicode a body is read with. -/
structure Unicode where
  toLowerCase : Text → Text
  isLetter : Char → Bool
  isNumber : Char → Bool

/-- The tables, as far as ASCII goes. -/
def Unicode.ascii : Unicode where
  toLowerCase := List.map Char.toLower
  isLetter := Char.isAlpha
  isNumber := Char.isDigit

def STOP_KEYWORDS : List String :=
  ["stop", "stopall", "unsubscribe", "cancel", "end", "quit", "optout", "opt-out"]

def START_KEYWORDS : List String := ["start", "unstop", "yes", "optin", "opt-in"]

inductive OptOutIntent where
  | stop
  | start
  | none
  deriving DecidableEq, Repr

/-- Lower case, without punctuation, with single spaces between words. -/
def normalize (unicode : Unicode) (body : Text) : Text :=
  let kept := (unicode.toLowerCase body).filter fun c =>
    unicode.isLetter c || unicode.isNumber c || isSpace c || c = '-'
  squeeze isSpace ' ' (trim kept)

/-- What a message asks for. -/
def classifyOptOut (unicode : Unicode) (body : Text) : OptOutIntent :=
  let normalized := normalize unicode body
  if normalized.length = 0 then .none
  else
    let words := (normalized.splitOn ' ').map String.ofList
    if words.length > 3 then .none
    else if words.any (· ∈ STOP_KEYWORDS) then .stop
    else if words.any (· ∈ START_KEYWORDS) then .start
    else .none

example : classifyOptOut .ascii " Please, STOP! ".toList = .stop ∧
    classifyOptOut .ascii "please don't stop sending these".toList = .none := by
  decide +kernel

/-! ### Rows -/

/-- Our number and theirs: what a conversation is found by. -/
structure Participants where
  phoneNumberId : String
  counterparty : String
  deriving DecidableEq

/-- A row of `comms.message_threads`.  Its participants are unique, and name it. -/
structure ThreadRow where
  participants : Participants
  lastMessageAt : Option Int
  unreadCount : Nat
  deriving DecidableEq

inductive MessageStatus where
  | queued
  | sent
  | delivered
  | undelivered
  | failed
  | received
  deriving DecidableEq, Repr

/-- A row of `comms.messages`. -/
structure MessageRow where
  thread : Participants
  direction : Direction
  body : Text
  status : MessageStatus
  providerSid : Option String
  deriving DecidableEq

inductive SuppressionReason where
  | stop_keyword
  | manual
  | carrier_report
  deriving DecidableEq, Repr

/-- A row of `comms.suppressions`; it is live while it is not revoked. -/
structure SuppressionRow where
  counterparty : String
  reason : SuppressionReason
  revokedAt : Option Int
  deriving DecidableEq

def SuppressionRow.live (number : String) (row : SuppressionRow) : Bool :=
  row.counterparty = number ∧ row.revokedAt = none

/-- A request to `/telephony/sms/:phoneNumberId`. -/
structure SmsRequest where
  phoneNumberId : String
  params : List (String × String)
  deriving DecidableEq

/-- The carrier's id of the message. -/
def SmsRequest.providerSid (request : SmsRequest) : String :=
  (request.params.lookup "MessageSid").getD ""

inductive DomainEvent where
  | messageThreadCreated (thread : Participants)
  | smsReceived (thread : Participants)
  | messageThreadOptedOut (thread : Participants) (reason : SuppressionReason) (revoked : Bool)
  deriving DecidableEq

/-- What has been committed of one organization.  A signature stands for the request it
signs, so a nonce is a request with the time it was seen. -/
structure Database where
  phoneNumbers : List String
  threads : List ThreadRow
  messages : List MessageRow
  suppressions : List SuppressionRow
  nonces : List (SmsRequest × Int)
  outbox : List DomainEvent
  deriving DecidableEq

/-! ### The handler -/

namespace Database

def hasThread (db : Database) (thread : Participants) : Bool :=
  db.threads.any (·.participants = thread)

def hasMessage (db : Database) (providerSid : String) : Bool :=
  db.messages.any (·.providerSid = some providerSid)

/-- Whether the organization is forbidden from messaging this number. -/
def isSuppressed (db : Database) (number : String) : Bool :=
  db.suppressions.any (·.live number)

def append (db : Database) (events : List DomainEvent) : Database :=
  { db with outbox := db.outbox ++ events }

/-- Finds or creates the thread; a new one needs a number of ours. -/
def ensureThread (db : Database) (thread : Participants) : Option Database :=
  if db.hasThread thread then some db
  else if thread.phoneNumberId ∈ db.phoneNumbers then
    some (Database.append { db with threads := db.threads ++ [⟨thread, none, 0⟩] }
      [.messageThreadCreated thread])
  else none

/-- `messages_body_length` is checked before the unique index is. -/
def insertMessage (db : Database) (message : MessageRow) : Option Database :=
  if message.body.length ≤ 4000 then
    if message.providerSid.any db.hasMessage then some db
    else some { db with messages := db.messages ++ [message] }
  else none

/-- The thread's last message is now, and its unread count is recomputed. -/
def touchThread (db : Database) (thread : Participants) (now : Int) : Database :=
  let unread := db.messages.countP fun message =>
    message.thread = thread ∧ message.direction = .inbound
  { db with
    threads := db.threads.map fun row =>
      if row.participants = thread then
        { row with lastMessageAt := some now, unreadCount := unread }
      else row }

/-- Records an opt-out, unless one is live. -/
def suppress (db : Database) (number : String) (reason : SuppressionReason) : Database :=
  if db.isSuppressed number then db
  else { db with suppressions := db.suppressions ++ [⟨number, reason, none⟩] }

/-- Records an opt-back-in. -/
def unsuppress (db : Database) (number : String) (now : Int) : Database :=
  { db with
    suppressions := db.suppressions.map fun row =>
      if row.live number then { row with revokedAt := some now } else row }

def isReplay (db : Database) (request : SmsRequest) : Bool :=
  db.nonces.any (·.1 = request)

def commitWebhookNonce (db : Database) (request : SmsRequest) (now : Int) : Database :=
  if db.isReplay request then db else { db with nonces := db.nonces ++ [(request, now)] }

def pruneWebhookNonces (db : Database) (cutoff : Int) : Database :=
  { db with nonces := db.nonces.filter fun nonce => ¬ nonce.2 < cutoff }

end Database

/-- What `receiveSms` is given. -/
structure InboundSms where
  sender : String
  phoneNumberId : String
  body : Text
  providerSid : String
  deriving DecidableEq

def InboundSms.thread (input : InboundSms) : Participants := ⟨input.phoneNumberId, input.sender⟩

def InboundSms.message (input : InboundSms) : MessageRow :=
  ⟨input.thread, .inbound, input.body, .received, some input.providerSid⟩

/-- What the intent of a message does. -/
def applyIntent (db : Database) (now : Int) (input : InboundSms) : OptOutIntent → Database
  | .stop =>
    (db.suppress input.sender .stop_keyword).append
      [.smsReceived input.thread, .messageThreadOptedOut input.thread .stop_keyword false]
  | .start =>
    (db.unsuppress input.sender now).append
      [.smsReceived input.thread, .messageThreadOptedOut input.thread .stop_keyword true]
  | .none => db.append [.smsReceived input.thread]

/-- The one transaction of an inbound message, or nothing if it fails. -/
def receiveSms (unicode : Unicode) (db : Database) (now : Int) (input : InboundSms) :
    Option Database := do
  let db ← db.ensureThread input.thread
  let db ← db.insertMessage input.message
  let db := db.touchThread input.thread now
  some (applyIntent db now input (classifyOptOut unicode input.body))

/-- The route's reading of a request; without a sender or a body it answers 400. -/
def readSms (request : SmsRequest) : Option InboundSms := do
  let sender ← (request.params.lookup "From").bind parseNumber
  let body ← request.params.lookup "Body"
  some ⟨sender, request.phoneNumberId, body.toList, request.providerSid⟩

/-- What happens to the server, in the order in which it happens. -/
inductive Event where
  /-- A signed request arrives.  `answered` says whether the server still stands when the
  message is committed: the nonce is a second transaction. -/
  | deliver (request : SmsRequest) (now : Int) (answered : Bool)
  | prune (cutoff : Int)
  deriving DecidableEq

def deliver (unicode : Unicode) (db : Database) (request : SmsRequest) (now : Int)
    (answered : Bool) : Database :=
  if db.isReplay request then db
  else
    match (readSms request).bind (receiveSms unicode db now) with
    | none => db
    | some stored => if answered then stored.commitWebhookNonce request now else stored

def handle (unicode : Unicode) (db : Database) : Event → Database
  | .deliver request now answered => deliver unicode db request now answered
  | .prune cutoff => db.pruneWebhookNonces cutoff

/-! ### What a delivery leaves

The fields one operation leaves alone, and what the whole handler does to messages and to
suppressions. -/

namespace Database
variable (db : Database)

@[simp] theorem append_messages (events : List DomainEvent) :
    (db.append events).messages = db.messages := rfl

@[simp] theorem append_phoneNumbers (events : List DomainEvent) :
    (db.append events).phoneNumbers = db.phoneNumbers := rfl

@[simp] theorem append_threads (events : List DomainEvent) :
    (db.append events).threads = db.threads := rfl

@[simp] theorem append_nonces (events : List DomainEvent) :
    (db.append events).nonces = db.nonces := rfl

@[simp] theorem isSuppressed_append (events : List DomainEvent) (number : String) :
    (db.append events).isSuppressed number = db.isSuppressed number := rfl

@[simp] theorem suppress_messages (number : String) (reason : SuppressionReason) :
    (db.suppress number reason).messages = db.messages := by
  unfold suppress
  split <;> rfl

@[simp] theorem suppress_phoneNumbers (number : String) (reason : SuppressionReason) :
    (db.suppress number reason).phoneNumbers = db.phoneNumbers := by
  unfold suppress
  split <;> rfl

@[simp] theorem suppress_threads (number : String) (reason : SuppressionReason) :
    (db.suppress number reason).threads = db.threads := by
  unfold suppress
  split <;> rfl

@[simp] theorem suppress_nonces (number : String) (reason : SuppressionReason) :
    (db.suppress number reason).nonces = db.nonces := by
  unfold suppress
  split <;> rfl

/-- An opt-out suppresses its number, and no other. -/
theorem isSuppressed_suppress (number : String) (reason : SuppressionReason) (other : String) :
    (db.suppress number reason).isSuppressed other =
      (decide (number = other) || db.isSuppressed other) := by
  unfold suppress
  split
  · rename_i h
    by_cases heq : number = other
    · rw [← heq, h, Bool.or_true]
    · rw [decide_eq_false heq, Bool.false_or]
  · simp [isSuppressed, SuppressionRow.live, Bool.or_comm]

/-- An opt-back-in lifts the suppression of its number, and of no other. -/
theorem isSuppressed_unsuppress (number : String) (now : Int) (other : String) :
    (db.unsuppress number now).isSuppressed other =
      (decide (number ≠ other) && db.isSuppressed other) := by
  rw [Bool.eq_iff_iff]
  simp only [isSuppressed, unsuppress, List.any_map, List.any_eq_true, Function.comp_apply,
    Bool.and_eq_true, decide_eq_true_eq]
  constructor
  · rintro ⟨row, hrow, hlive⟩
    split at hlive
    · simp [SuppressionRow.live] at hlive
    · rename_i hdead
      refine ⟨?_, row, hrow, hlive⟩
      rintro rfl
      exact hdead hlive
  · rintro ⟨hne, row, hrow, hlive⟩
    refine ⟨row, hrow, ?_⟩
    rw [if_neg]
    · exact hlive
    · intro hdead
      simp only [SuppressionRow.live, decide_eq_true_eq] at hlive hdead
      exact hne (hdead.1.symm.trans hlive.1)

/-- A transaction may be given a message only if its body fits and one of our numbers
received it. -/
def accepts (input : InboundSms) : Bool :=
  input.body.length ≤ 4000 ∧
    (db.hasThread input.thread ∨ input.phoneNumberId ∈ db.phoneNumbers)

/-- The messages after one more arrived. -/
def withMessage (message : MessageRow) : List MessageRow :=
  if message.providerSid.any db.hasMessage then db.messages else db.messages ++ [message]

end Database

/-- What the intent of a message makes of its sender's suppression. -/
def OptOutIntent.apply : OptOutIntent → Bool → Bool
  | .stop, _ => true
  | .start, _ => false
  | .none, suppressed => suppressed

section
variable {unicode : Unicode} {db db' : Database} {now : Int} {input : InboundSms}

theorem applyIntent_messages (intent : OptOutIntent) :
    (applyIntent db now input intent).messages = db.messages := by
  cases intent <;> simp [applyIntent, Database.unsuppress]

theorem applyIntent_phoneNumbers (intent : OptOutIntent) :
    (applyIntent db now input intent).phoneNumbers = db.phoneNumbers := by
  cases intent <;> simp [applyIntent, Database.unsuppress]

theorem applyIntent_threads (intent : OptOutIntent) :
    (applyIntent db now input intent).threads = db.threads := by
  cases intent <;> simp [applyIntent, Database.unsuppress]

theorem applyIntent_nonces (intent : OptOutIntent) :
    (applyIntent db now input intent).nonces = db.nonces := by
  cases intent <;> simp [applyIntent, Database.unsuppress]

theorem isSuppressed_applyIntent (intent : OptOutIntent) (number : String) :
    (applyIntent db now input intent).isSuppressed number =
      if input.sender = number then intent.apply (db.isSuppressed number)
      else db.isSuppressed number := by
  cases intent with
  | stop =>
    simp only [applyIntent, Database.isSuppressed_append, Database.isSuppressed_suppress]
    by_cases h : input.sender = number <;> simp [h, OptOutIntent.apply]
  | start =>
    simp only [applyIntent, Database.isSuppressed_append, Database.isSuppressed_unsuppress]
    by_cases h : input.sender = number <;> simp [h, OptOutIntent.apply]
  | none => simp [applyIntent, OptOutIntent.apply]

/-- What a committed message has changed. -/
structure Received (unicode : Unicode) (db : Database) (input : InboundSms)
    (stored : Database) : Prop where
  messages : stored.messages = db.withMessage input.message
  phoneNumbers : stored.phoneNumbers = db.phoneNumbers
  nonces : ∀ nonce ∈ stored.nonces,
    nonce ∈ db.nonces ∨ nonce.1.providerSid = input.providerSid
  threads : ∀ thread, stored.hasThread thread = true →
    db.hasThread thread = true ∨
      thread = input.thread ∧ input.phoneNumberId ∈ db.phoneNumbers
  suppressed : ∀ number, stored.isSuppressed number =
    if input.sender = number then
      (classifyOptOut unicode input.body).apply (db.isSuppressed number)
    else db.isSuppressed number

theorem hasThread_touchThread (db : Database) (thread other : Participants) (now : Int) :
    (db.touchThread thread now).hasThread other = db.hasThread other := by
  simp only [Database.hasThread, Database.touchThread, List.any_map]
  congr 1
  funext row
  simp only [Function.comp_apply]
  split <;> rfl

theorem ensureThread_some {thread : Participants} {found : Database}
    (h : db.ensureThread thread = some found) :
    found.messages = db.messages ∧ found.phoneNumbers = db.phoneNumbers ∧
      found.nonces = db.nonces ∧ found.suppressions = db.suppressions ∧
      ∀ other, found.hasThread other = true → db.hasThread other = true ∨
        other = thread ∧ thread.phoneNumberId ∈ db.phoneNumbers := by
  unfold Database.ensureThread at h
  split at h
  · obtain rfl := Option.some.inj h
    exact ⟨rfl, rfl, rfl, rfl, fun _ hother => .inl hother⟩
  · split at h
    · rename_i hours
      obtain rfl := Option.some.inj h
      refine ⟨rfl, rfl, rfl, rfl, ?_⟩
      intro other hother
      simp only [Database.hasThread, Database.append_threads, List.any_append, List.any_cons,
        List.any_nil, Bool.or_false, Bool.or_eq_true, decide_eq_true_eq] at hother
      rcases hother with hother | rfl
      · exact .inl hother
      · exact .inr ⟨rfl, hours⟩
    · exact absurd h (by simp)

theorem insertMessage_some {message : MessageRow} {found : Database}
    (h : db.insertMessage message = some found) :
    message.body.length ≤ 4000 ∧ found = { db with messages := db.withMessage message } := by
  unfold Database.insertMessage at h
  split at h
  · rename_i hlength
    refine ⟨hlength, ?_⟩
    unfold Database.withMessage
    split at h
    · rename_i hstored
      rw [if_pos hstored]
      exact (Option.some.inj h).symm
    · rename_i hstored
      rw [if_neg hstored]
      exact (Option.some.inj h).symm
  · exact absurd h (by simp)

theorem withMessage_congr (hmessages : db'.messages = db.messages) (message : MessageRow) :
    db'.withMessage message = db.withMessage message := by
  unfold Database.withMessage Database.hasMessage
  rw [hmessages]

/-- A transaction that commits has stored the message and heard its keyword. -/
theorem received_of_receiveSms {stored : Database}
    (h : receiveSms unicode db now input = some stored) : Received unicode db input stored := by
  unfold receiveSms at h
  simp only [Option.bind_eq_bind, Option.bind_eq_some_iff, Option.some.injEq] at h
  obtain ⟨found, hfound, inserted, hinserted, rfl⟩ := h
  obtain ⟨hmessages, hnumbers, hnonces, hsuppressions, hthreads⟩ := ensureThread_some hfound
  obtain ⟨-, rfl⟩ := insertMessage_some hinserted
  constructor
  case messages =>
    rw [applyIntent_messages]
    exact withMessage_congr hmessages _
  case phoneNumbers =>
    rw [applyIntent_phoneNumbers]
    exact hnumbers
  case nonces =>
    intro nonce hnonce
    rw [applyIntent_nonces] at hnonce
    exact .inl (hnonces ▸ hnonce)
  case threads =>
    intro thread hthread
    unfold Database.hasThread at hthread
    rw [applyIntent_threads] at hthread
    change Database.hasThread _ thread = true at hthread
    rw [hasThread_touchThread] at hthread
    exact hthreads thread hthread
  case suppressed =>
    intro number
    have hbefore : ∀ messages, (Database.touchThread { found with messages := messages }
        input.thread now).isSuppressed number = db.isSuppressed number := by
      intro messages
      unfold Database.isSuppressed Database.touchThread
      rw [hsuppressions]
    rw [isSuppressed_applyIntent, hbefore]

/-- The second transaction remembers the request of the message. -/
theorem Received.commitWebhookNonce {stored : Database} {request : SmsRequest}
    (h : Received unicode db input stored) (hsid : request.providerSid = input.providerSid) :
    Received unicode db input (stored.commitWebhookNonce request now) := by
  unfold Database.commitWebhookNonce
  split
  · exact h
  · refine ⟨h.messages, h.phoneNumbers, ?_, h.threads, h.suppressed⟩
    intro nonce hnonce
    rcases List.mem_append.mp hnonce with hnonce | hnonce
    · exact h.nonces nonce hnonce
    · rw [List.mem_singleton] at hnonce
      rw [hnonce]
      exact .inr hsid

theorem isSome_ensureThread (db : Database) (thread : Participants) :
    (db.ensureThread thread).isSome =
      (db.hasThread thread || decide (thread.phoneNumberId ∈ db.phoneNumbers)) := by
  unfold Database.ensureThread
  split
  · rename_i h
    rw [h, Option.isSome_some, Bool.true_or]
  · rename_i h
    rw [Bool.not_eq_true] at h
    rw [h, Bool.false_or]
    split
    · rename_i hours
      rw [decide_eq_true hours, Option.isSome_some]
    · rename_i hours
      rw [decide_eq_false hours, Option.isSome_none]

theorem isSome_insertMessage (db : Database) (message : MessageRow) :
    (db.insertMessage message).isSome = decide (message.body.length ≤ 4000) := by
  unfold Database.insertMessage
  split
  · rename_i h
    rw [decide_eq_true h]
    split <;> rfl
  · rename_i h
    rw [decide_eq_false h, Option.isSome_none]

/-- The transaction fails only for a body that is too long or a number that is not ours. -/
theorem isSome_receiveSms (unicode : Unicode) (db : Database) (now : Int) (input : InboundSms) :
    (receiveSms unicode db now input).isSome = db.accepts input := by
  have hthread := isSome_ensureThread db input.thread
  unfold receiveSms Database.accepts
  cases hfound : db.ensureThread input.thread with
  | none =>
    rw [hfound, Option.isSome_none, eq_comm, Bool.or_eq_false_iff, decide_eq_false_iff_not]
      at hthread
    simp [hthread.1, show input.phoneNumberId ∉ db.phoneNumbers from hthread.2]
  | some found =>
    rw [hfound, Option.isSome_some, eq_comm, Bool.or_eq_true, decide_eq_true_eq] at hthread
    have hinsert := isSome_insertMessage found input.message
    cases hinserted : found.insertMessage input.message with
    | none =>
      rw [hinserted, Option.isSome_none, eq_comm, decide_eq_false_iff_not] at hinsert
      simp [hinserted, show ¬ input.body.length ≤ 4000 from hinsert]
    | some inserted =>
      rw [hinserted, Option.isSome_some, eq_comm, decide_eq_true_eq] at hinsert
      simp only [Option.bind_eq_bind, Option.bind_some, hinserted, Option.isSome_some]
      exact (decide_eq_true ⟨hinsert, hthread⟩).symm

end

end SmsOptOut
end TaskFlow
