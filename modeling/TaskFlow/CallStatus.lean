import Mathlib.Algebra.Ring.Int.Defs
import Mathlib.Algebra.Ring.Nat
import TaskFlow.RichText
import TaskFlow.StepSystem
import Mathlib.Data.List.Nodup

/-! # The status of a call

A call is placed by two transactions with the carrier's answer between them, and its
status is reported by callbacks, in any order and any number of times.  `applyCallStatus`
writes whatever a callback reports, on the row the carrier's id names.

So a status is final, and a callback heard once, only in a run whose callbacks come in
time (`Timely`): each finds its call in no later stage than it reports, and comes again
only while it is remembered (`forward_of_timely`).
-/
namespace TaskFlow
namespace CallStatus
open RichText (Text isSpace)

/-! ### Rows -/

inductive Status where
  | queued
  | ringing
  | in_progress
  | completed
  | busy
  | no_answer
  | failed
  | canceled
  deriving DecidableEq, Repr

/-- The texts `calls_status_valid` lets a row hold. -/
def Status.ofText : String → Option Status
  | "queued" => some .queued
  | "ringing" => some .ringing
  | "in_progress" => some .in_progress
  | "completed" => some .completed
  | "busy" => some .busy
  | "no_answer" => some .no_answer
  | "failed" => some .failed
  | "canceled" => some .canceled
  | _ => none

def TERMINAL : List Status := [.completed, .busy, .no_answer, .failed, .canceled]

/-- How far a call has come. -/
def Status.stage : Status → Nat
  | .queued => 0
  | .ringing => 1
  | .in_progress => 2
  | _ => 3

/-- A row of `comms.calls`. -/
structure CallRow where
  id : String
  providerSid : Option String
  status : Status
  startedAt : Option Int
  answeredAt : Option Int
  endedAt : Option Int
  durationSeconds : Option Int
  updatedAt : Int
  deriving DecidableEq, Repr

/-- The form a callback posts.  A signature stands for the form it signs. -/
structure Callback where
  params : List (String × String)
  deriving DecidableEq, Repr

inductive DomainEvent where
  | callPlaced (callId : String)
  | callStatusChanged (callId status : String) (durationSeconds : Option Int)
  deriving DecidableEq, Repr

/-- What has been committed of one organization. -/
structure Database where
  calls : List CallRow
  nonces : List (Callback × Int)
  outbox : List DomainEvent
  deriving DecidableEq, Repr

/-! ### What a callback says -/

/-- The carrier's words for a status onto ours. -/
def normalizeStatus : Option String → String
  | none => "failed"
  | some "in-progress" => "in_progress"
  | some "no-answer" => "no_answer"
  | some status => status

/-- The number the digits at the start of a text spell. -/
def readDigits (text : Text) : Option Nat :=
  let digits := text.takeWhile Char.isDigit
  if digits.isEmpty then none
  else some (digits.foldl (fun value c => 10 * value + (c.toNat - '0'.toNat)) 0)

/-- `Number.parseInt(text, 10)`, where it is finite. -/
def parseInt (text : Text) : Option Int :=
  let value := match text.dropWhile isSpace with
    | '-' :: rest => (readDigits rest).map fun n => -(n : Int)
    | '+' :: rest => (readDigits rest).map Int.ofNat
    | rest => (readDigits rest).map Int.ofNat
  value.filter fun n => n.natAbs < 2 ^ 1024 - 2 ^ 970

/-- What `applyCallStatus` is given. -/
structure StatusInput where
  providerSid : String
  status : String
  durationSeconds : Option Int
  deriving DecidableEq, Repr

def Callback.input (callback : Callback) : StatusInput where
  providerSid := (callback.params.lookup "CallSid").getD ""
  status := normalizeStatus (callback.params.lookup "CallStatus")
  durationSeconds := parseInt ((callback.params.lookup "CallDuration").getD "").toList

/-! ### Transactions -/

namespace Database

def updateCall (db : Database) (callId : String) (f : CallRow → CallRow) : Database :=
  { db with calls := db.calls.map fun call => if call.id = callId then f call else call }

def append (db : Database) (event : DomainEvent) : Database :=
  { db with outbox := db.outbox ++ [event] }

def findCall (db : Database) (providerSid : String) : Option CallRow :=
  db.calls.find? fun call => call.providerSid = some providerSid

def hasCall (db : Database) (callId : String) : Bool := db.calls.any fun call => call.id = callId

def isReplay (db : Database) (callback : Callback) : Bool :=
  db.nonces.any fun nonce => nonce.1 = callback

def commitWebhookNonce (db : Database) (callback : Callback) (now : Int) : Database :=
  if db.isReplay callback then db else { db with nonces := db.nonces ++ [(callback, now)] }

def pruneWebhookNonces (db : Database) (cutoff : Int) : Database :=
  { db with nonces := db.nonces.filter fun nonce => ¬ nonce.2 < cutoff }

end Database

/-- The first transaction of `placeCall`. -/
def insertPlacedCall (db : Database) (callId : String) (now : Int) : Option Database :=
  if db.hasCall callId then none
  else
    some (Database.append
      { db with calls := db.calls ++ [⟨callId, none, .queued, none, none, none, none, now⟩] }
      (.callPlaced callId))

/-- A call the carrier has accepted. -/
def CallRow.placed (call : CallRow) (providerSid : String) (status : Status) (now : Int) :
    CallRow :=
  { call with providerSid := some providerSid, status := status, updatedAt := now }

/-- A call the carrier has refused. -/
def CallRow.released (call : CallRow) (now : Int) : CallRow :=
  { call with status := .failed, updatedAt := now }

/-- The second transaction of `placeCall`: the carrier's id, and the status it answered with. -/
def recordPlacedCall (db : Database) (callId providerSid status : String) (now : Int) :
    Option Database := do
  let status ← Status.ofText status
  if db.calls.any fun call => call.id ≠ callId ∧ call.providerSid = some providerSid then none
  else
    some (db.updateCall callId fun call => call.placed providerSid status now)

/-- What happens to a call the carrier refused to place. -/
def releaseUnplacedCall (db : Database) (callId : String) (now : Int) : Database :=
  (db.updateCall callId fun call => call.released now).append
    (.callStatusChanged callId "failed" none)

def recordInboundCall (db : Database) (callId providerSid : String) (now : Int) :
    Option Database :=
  if db.hasCall callId ∨ (db.findCall providerSid).isSome then none
  else
    some (Database.append
      { db with
        calls := db.calls ++
          [⟨callId, some providerSid, .ringing, some now, none, none, none, now⟩] }
      (.callPlaced callId))

/-- What a callback makes of a row. -/
def CallRow.moved (call : CallRow) (status : Status) (durationSeconds : Option Int) (now : Int) :
    CallRow :=
  { call with
    status := status
    updatedAt := now
    answeredAt := if status = .in_progress then some now else call.answeredAt
    endedAt := if status ∈ TERMINAL then some now else call.endedAt
    durationSeconds := durationSeconds.or call.durationSeconds }

/-- `calls_duration_nonnegative`, and the range of the column. -/
def validDuration (durationSeconds : Option Int) : Bool :=
  durationSeconds.all fun n => 0 ≤ n ∧ n < 2 ^ 31

/-- Applies a status callback; a call the carrier's id does not name is no error.  A status or
a duration the columns do not take makes the transaction fail. -/
def applyCallStatus (db : Database) (input : StatusInput) (now : Int) : Option Database :=
  match db.findCall input.providerSid with
  | none => some db
  | some call => do
    let status ← Status.ofText input.status
    if validDuration input.durationSeconds then
      some ((db.updateCall call.id fun call =>
        call.moved status input.durationSeconds now).append
          (.callStatusChanged call.id input.status input.durationSeconds))
    else none

/-! ### The server -/

/-- The committed rows, the calls the carrier is being asked to place, the callbacks whose
signature was verified and not found among the nonces, those whose transaction has
committed, and, for the statements only, those that have moved a call. -/
structure Server where
  db : Database
  placing : List String
  verified : List Callback
  handled : List Callback
  applied : List Callback
  deriving DecidableEq, Repr

inductive Action where
  | place (callId : String) (now : Int)
  | accepted (callId providerSid status : String) (now : Int)
  /-- The carrier refuses; `released` says whether the compensation commits. -/
  | refused (callId : String) (released : Bool) (now : Int)
  /-- The process that places a call dies. -/
  | abandoned (callId : String)
  | arrive (callId providerSid : String) (now : Int)
  | verify (callback : Callback)
  | apply (callback : Callback) (now : Int)
  | remember (callback : Callback) (now : Int)
  /-- The process that handles a callback dies before a transaction of it. -/
  | die (callback : Callback)
  | prune (cutoff : Int)
  deriving DecidableEq, Repr

/-- One step: a transaction commits, or a process dies. -/
def step (server : Server) : Action → Option Server
  | .place callId now => do
    let db ← insertPlacedCall server.db callId now
    some { server with db := db, placing := callId :: server.placing }
  | .accepted callId providerSid status now =>
    if callId ∈ server.placing then
      let db := (recordPlacedCall server.db callId providerSid status now).getD server.db
      some { server with db := db, placing := server.placing.erase callId }
    else none
  | .refused callId released now =>
    if callId ∈ server.placing then
      let db := if released then releaseUnplacedCall server.db callId now else server.db
      some { server with db := db, placing := server.placing.erase callId }
    else none
  | .abandoned callId => some { server with placing := server.placing.erase callId }
  | .arrive callId providerSid now => do
    let db ← recordInboundCall server.db callId providerSid now
    some { server with db := db }
  | .verify callback =>
    if server.db.isReplay callback then some server
    else some { server with verified := callback :: server.verified }
  | .apply callback now =>
    if callback ∈ server.verified then
      let server := { server with verified := server.verified.erase callback }
      match applyCallStatus server.db callback.input now with
      | none => some server
      | some db =>
        some
          { server with
            db := db
            handled := callback :: server.handled
            applied :=
              if (server.db.findCall callback.input.providerSid).isSome then
                callback :: server.applied
              else server.applied }
    else none
  | .remember callback now =>
    if callback ∈ server.handled then
      some
        { server with
          db := server.db.commitWebhookNonce callback now
          handled := server.handled.erase callback }
    else none
  | .die callback =>
    some
      { server with
        verified := server.verified.erase callback
        handled := server.handled.erase callback }
  | .prune cutoff => some { server with db := server.db.pruneWebhookNonces cutoff }

/-- When a step is in time.  A callback is verified again only while it is remembered; and it
finds its call in no later stage than it reports, and not in a terminal status. -/
def Timely (server : Server) : Action → Prop
  | .verify callback =>
    server.db.isReplay callback = true ∨
      callback ∉ server.applied ∧ callback ∉ server.verified
  | .apply callback _ =>
    ∀ call ∈ server.db.findCall callback.input.providerSid,
      ∀ status ∈ Status.ofText callback.input.status,
        call.status ∉ TERMINAL ∧ call.status.stage ≤ status.stage
  | _ => True

instance (server : Server) (action : Action) : Decidable (Timely server action) := by
  cases action <;> unfold Timely <;> infer_instance

/-- A server that has just started. -/
def Server.start (db : Database) : Server := ⟨db, [], [], [], []⟩

/-! ### Rows that move forward -/

/-- The same call, later. -/
structure Forward (call later : CallRow) : Prop where
  id : later.id = call.id
  stage : call.status.stage ≤ later.status.stage
  final : call.status ∈ TERMINAL → later.status = call.status ∧ later.endedAt = call.endedAt

theorem Forward.refl (call : CallRow) : Forward call call :=
  ⟨rfl, Nat.le_refl _, fun _ => ⟨rfl, rfl⟩⟩

theorem Forward.trans {call later last : CallRow} (h : Forward call later)
    (h' : Forward later last) : Forward call last where
  id := h'.id.trans h.id
  stage := Nat.le_trans h.stage h'.stage
  final := by
    intro hfinal
    obtain ⟨hstatus, hended⟩ := h.final hfinal
    obtain ⟨hstatus', hended'⟩ := h'.final (hstatus ▸ hfinal)
    exact ⟨hstatus'.trans hstatus, hended'.trans hended⟩

/-- Every call is still there, and has moved forward. -/
def Advanced (calls later : List CallRow) : Prop :=
  ∀ call ∈ calls, ∃ row ∈ later, Forward call row

theorem Advanced.refl (calls : List CallRow) : Advanced calls calls :=
  fun call hcall => ⟨call, hcall, .refl call⟩

theorem Advanced.trans {calls later last : List CallRow} (h : Advanced calls later)
    (h' : Advanced later last) : Advanced calls last := by
  intro call hcall
  obtain ⟨row, hrow, hforward⟩ := h call hcall
  obtain ⟨row', hrow', hforward'⟩ := h' row hrow
  exact ⟨row', hrow', hforward.trans hforward'⟩

theorem advanced_append (calls new : List CallRow) : Advanced calls (calls ++ new) :=
  fun call hcall => ⟨call, List.mem_append_left new hcall, .refl call⟩

theorem advanced_updateCall {db : Database} {callId : String} {f : CallRow → CallRow}
    (h : ∀ call ∈ db.calls, call.id = callId → Forward call (f call)) :
    Advanced db.calls (db.updateCall callId f).calls := by
  intro call hcall
  refine ⟨_, List.mem_map_of_mem hcall, ?_⟩
  split
  · rename_i hid
    exact h call hcall hid
  · exact .refl call

/-! ### What the transactions keep -/

/-- Call ids are keys, and a call that is being placed has no carrier's id yet. -/
structure Keyed (calls : List CallRow) (placing : List String) : Prop where
  ids : (calls.map CallRow.id).Nodup
  once : placing.Nodup
  present : ∀ callId ∈ placing, callId ∈ calls.map CallRow.id
  unplaced : ∀ call ∈ calls, call.id ∈ placing →
    call.providerSid = none ∧ call.status = .queued

section
variable {db : Database} {calls : List CallRow} {placing rest : List String} {callId : String}

theorem Keyed.sublist (h : Keyed calls placing) (hrest : rest.Sublist placing) :
    Keyed calls rest where
  ids := h.ids
  once := h.once.sublist hrest
  present := fun _ hid => h.present _ (hrest.subset hid)
  unplaced := fun call hcall hid => h.unplaced call hcall (hrest.subset hid)

theorem map_id_updateCall {f : CallRow → CallRow} (hf : ∀ call, (f call).id = call.id) :
    (db.updateCall callId f).calls.map CallRow.id = db.calls.map CallRow.id := by
  unfold Database.updateCall
  rw [List.map_map]
  refine List.map_congr_left ?_
  intro call _
  simp only [Function.comp_apply]
  split
  · exact hf call
  · rfl

/-- A call that is not being placed may be rewritten. -/
theorem Keyed.updateCall {f : CallRow → CallRow} (h : Keyed db.calls placing)
    (hf : ∀ call, (f call).id = call.id) (hid : callId ∉ placing) :
    Keyed (db.updateCall callId f).calls placing where
  ids := (map_id_updateCall hf).symm ▸ h.ids
  once := h.once
  present := by
    intro other hother
    rw [map_id_updateCall hf]
    exact h.present other hother
  unplaced := by
    intro row hrow hplacing
    obtain ⟨call, hcall, rfl⟩ := List.mem_map.mp hrow
    split at hplacing
    · rename_i hsame
      rw [hf, hsame] at hplacing
      exact absurd hplacing hid
    · rename_i hother
      rw [if_neg hother]
      exact h.unplaced call hcall hplacing

/-- A new call gets a new id. -/
theorem Keyed.append (h : Keyed calls placing) (row : CallRow)
    (hnew : row.id ∉ calls.map CallRow.id) : Keyed (calls ++ [row]) placing where
  ids := by
    rw [List.map_append, List.map_singleton]
    exact List.nodup_append.mpr ⟨h.ids, List.nodup_singleton _, by
      rintro id hid _ hrow rfl
      rw [List.mem_singleton] at hrow
      exact hnew (hrow ▸ hid)⟩
  once := h.once
  present := by
    intro other hother
    rw [List.map_append]
    exact List.mem_append_left _ (h.present other hother)
  unplaced := by
    intro call hcall hplacing
    rcases List.mem_append.mp hcall with hcall | hcall
    · exact h.unplaced call hcall hplacing
    · rw [List.mem_singleton] at hcall
      exact absurd (hcall ▸ h.present call.id hplacing) hnew

theorem not_mem_of_hasCall (h : db.hasCall callId = false) :
    callId ∉ db.calls.map CallRow.id := by
  intro hmem
  obtain ⟨call, hcall, hid⟩ := List.mem_map.mp hmem
  unfold Database.hasCall at h
  rw [List.any_eq_false] at h
  exact h call hcall (decide_eq_true hid)

/-- The first transaction of a placement adds a queued call without a carrier's id. -/
theorem Keyed.place {placed : Database} {now : Int} (h : Keyed db.calls placing)
    (hplaced : insertPlacedCall db callId now = some placed) :
    Keyed placed.calls (callId :: placing) ∧ Advanced db.calls placed.calls := by
  unfold insertPlacedCall at hplaced
  split at hplaced
  · exact absurd hplaced (by simp)
  · rename_i hnew
    rw [Bool.not_eq_true] at hnew
    obtain rfl := Option.some.inj hplaced
    have hfresh := not_mem_of_hasCall hnew
    have hkeyed := h.append ⟨callId, none, .queued, none, none, none, none, now⟩ hfresh
    refine ⟨⟨hkeyed.ids, List.nodup_cons.mpr ⟨?_, h.once⟩, ?_, ?_⟩, advanced_append _ _⟩
    · exact fun hplacing => hfresh (h.present callId hplacing)
    · intro other hother
      rcases List.mem_cons.mp hother with rfl | hother
      · exact List.mem_map.mpr ⟨_, List.mem_append_right _ (List.mem_singleton_self _), rfl⟩
      · exact hkeyed.present other hother
    · intro call hcall hplacing
      rcases List.mem_append.mp hcall with hold | hrow
      · rcases List.mem_cons.mp hplacing with hid | hplacing
        · exact absurd (hid ▸ List.mem_map_of_mem hold) hfresh
        · exact hkeyed.unplaced call hcall hplacing
      · rw [List.mem_singleton.mp hrow]
        exact ⟨rfl, rfl⟩

/-- A rewrite of a call that was being placed, which is queued, moves it forward. -/
theorem Keyed.settle (h : Keyed db.calls placing) (f : CallRow → CallRow)
    (hf : ∀ call, (f call).id = call.id) (hplacing : callId ∈ placing) :
    Keyed (db.updateCall callId f).calls (placing.erase callId) ∧
      Advanced db.calls (db.updateCall callId f).calls := by
  constructor
  · exact (h.sublist List.erase_sublist).updateCall hf (h.once.not_mem_erase)
  · apply advanced_updateCall
    intro call hcall hid
    have hqueued := (h.unplaced call hcall (hid ▸ hplacing)).2
    refine ⟨hf call, ?_, ?_⟩
    · rw [hqueued]
      exact Nat.zero_le _
    · intro hfinal
      rw [hqueued] at hfinal
      exact absurd hfinal (by decide)

theorem Keyed.arrive {arrived : Database} {providerSid : String} {now : Int}
    (h : Keyed db.calls placing)
    (harrived : recordInboundCall db callId providerSid now = some arrived) :
    Keyed arrived.calls placing ∧ Advanced db.calls arrived.calls := by
  unfold recordInboundCall at harrived
  split at harrived
  · exact absurd harrived (by simp)
  · rename_i hnew
    rw [not_or, Bool.not_eq_true] at hnew
    obtain rfl := Option.some.inj harrived
    exact ⟨h.append _ (not_mem_of_hasCall hnew.1), advanced_append _ _⟩

theorem mem_of_findCall {providerSid : String} {call : CallRow}
    (h : db.findCall providerSid = some call) :
    call ∈ db.calls ∧ call.providerSid = some providerSid :=
  ⟨List.mem_of_find?_eq_some h, by simpa using List.find?_some h⟩

/-- A callback that commits has rewritten the call it found, if it found one. -/
theorem applyCallStatus_some {applied : Database} {input : StatusInput} {now : Int}
    (h : applyCallStatus db input now = some applied) :
    db.findCall input.providerSid = none ∧ applied = db ∨
      ∃ call status, db.findCall input.providerSid = some call ∧
        Status.ofText input.status = some status ∧
        applied = (db.updateCall call.id fun call =>
          call.moved status input.durationSeconds now).append
            (.callStatusChanged call.id input.status input.durationSeconds) := by
  unfold applyCallStatus at h
  cases hfind : db.findCall input.providerSid with
  | none =>
    rw [hfind] at h
    exact .inl ⟨rfl, (Option.some.inj h).symm⟩
  | some call =>
    rw [hfind] at h
    simp only [Option.bind_eq_bind, Option.bind_eq_some_iff] at h
    obtain ⟨status, hstatus, h⟩ := h
    split at h
    · exact .inr ⟨call, status, rfl, hstatus, (Option.some.inj h).symm⟩
    · exact absurd h (by simp)

/-- A callback that comes in time moves its call forward. -/
theorem Keyed.apply {applied : Database} {input : StatusInput} {now : Int}
    (h : Keyed db.calls placing)
    (htimely : ∀ call ∈ db.findCall input.providerSid,
      ∀ status ∈ Status.ofText input.status,
      call.status ∉ TERMINAL ∧ call.status.stage ≤ status.stage)
    (happlied : applyCallStatus db input now = some applied) :
    Keyed applied.calls placing ∧ Advanced db.calls applied.calls := by
  rcases applyCallStatus_some happlied with ⟨-, rfl⟩ | ⟨call, status, hfind, hstatus, rfl⟩
  · exact ⟨h, .refl _⟩
  · obtain ⟨hcall, hsid⟩ := mem_of_findCall hfind
    obtain ⟨hopen, hstage⟩ := htimely call hfind status hstatus
    constructor
    · refine h.updateCall (fun _ => rfl) ?_
      intro hplacing
      rw [(h.unplaced call hcall hplacing).1] at hsid
      exact absurd hsid (by simp)
    · refine advanced_updateCall ?_
      intro row hrow hid
      obtain rfl : row = call := List.inj_on_of_nodup_map h.ids hrow hcall hid
      exact ⟨rfl, hstage, fun hfinal => absurd hfinal hopen⟩

end

/-! ### Runs in time -/

/-- What holds of a server all of whose steps came in time. -/
structure Sound (server : Server) : Prop where
  keyed : Keyed server.db.calls server.placing
  once : server.verified.Nodup
  done : ∀ callback ∈ server.applied, callback ∉ server.verified

theorem Sound.start {db : Database} (h : (db.calls.map CallRow.id).Nodup) :
    Sound (.start db) where
  keyed := ⟨h, List.nodup_nil, fun _ hid => absurd hid List.not_mem_nil,
    fun _ _ hid => absurd hid List.not_mem_nil⟩
  once := List.nodup_nil
  done := fun _ hmem => absurd hmem List.not_mem_nil

section
variable {server after : Server}

theorem Sound.with_db (h : Sound server) {db : Database} {placing : List String}
    (hkeyed : Keyed db.calls placing) : Sound { server with db := db, placing := placing } :=
  ⟨hkeyed, h.once, h.done⟩

/-- A callback whose transaction is over is not among the verified ones. -/
theorem Sound.erase (h : Sound server) (callback : Callback) :
    (server.verified.erase callback).Nodup ∧
      ∀ other ∈ callback :: server.applied, other ∉ server.verified.erase callback := by
  refine ⟨h.once.erase callback, ?_⟩
  intro other hother
  rcases List.mem_cons.mp hother with rfl | hother
  · exact h.once.not_mem_erase
  · exact fun hmem => h.done other hother (List.mem_of_mem_erase hmem)

/-- **A step in time keeps the server sound and moves every call forward.** -/
theorem Sound.next {action : Action} (h : Sound server) (htimely : Timely server action)
    (hstep : step server action = some after) :
    Sound after ∧ Advanced server.db.calls after.db.calls := by
  cases action with
  | place callId now =>
    obtain ⟨db, hplaced, hafter⟩ := Option.bind_eq_some_iff.mp hstep
    obtain rfl := Option.some.inj hafter
    obtain ⟨hkeyed, hadvanced⟩ := h.keyed.place hplaced
    exact ⟨h.with_db hkeyed, hadvanced⟩
  | accepted callId providerSid status now =>
    simp only [step] at hstep
    split at hstep
    · rename_i hplacing
      obtain rfl := Option.some.inj hstep
      cases hrecorded : recordPlacedCall server.db callId providerSid status now with
      | none => exact ⟨h.with_db (h.keyed.sublist List.erase_sublist), .refl _⟩
      | some db =>
        obtain ⟨status, -, hdb⟩ := Option.bind_eq_some_iff.mp hrecorded
        split at hdb
        · exact absurd hdb (by simp)
        · obtain rfl := Option.some.inj hdb
          obtain ⟨hkeyed, hadvanced⟩ := h.keyed.settle (·.placed providerSid status now)
            (fun _ => rfl) hplacing
          exact ⟨h.with_db hkeyed, hadvanced⟩
    · exact absurd hstep (by simp)
  | refused callId released now =>
    simp only [step] at hstep
    split at hstep
    · rename_i hplacing
      obtain rfl := Option.some.inj hstep
      cases released with
      | false => exact ⟨h.with_db (h.keyed.sublist List.erase_sublist), .refl _⟩
      | true =>
        obtain ⟨hkeyed, hadvanced⟩ := h.keyed.settle (·.released now) (fun _ => rfl) hplacing
        exact ⟨h.with_db hkeyed, hadvanced⟩
    · exact absurd hstep (by simp)
  | abandoned callId =>
    obtain rfl := Option.some.inj hstep
    exact ⟨h.with_db (h.keyed.sublist List.erase_sublist), .refl _⟩
  | arrive callId providerSid now =>
    obtain ⟨db, harrived, hafter⟩ := Option.bind_eq_some_iff.mp hstep
    obtain rfl := Option.some.inj hafter
    obtain ⟨hkeyed, hadvanced⟩ := h.keyed.arrive harrived
    exact ⟨h.with_db hkeyed, hadvanced⟩
  | verify callback =>
    simp only [step] at hstep
    split at hstep
    · obtain rfl := Option.some.inj hstep
      exact ⟨h, .refl _⟩
    · rename_i hnew
      obtain rfl := Option.some.inj hstep
      obtain ⟨happlied, hverified⟩ := htimely.resolve_left hnew
      refine ⟨⟨h.keyed, List.nodup_cons.mpr ⟨hverified, h.once⟩, ?_⟩, .refl _⟩
      intro other hother hmem
      rcases List.mem_cons.mp hmem with rfl | hmem
      · exact happlied hother
      · exact h.done other hother hmem
  | apply callback now =>
    obtain ⟨honce, hdone⟩ := h.erase callback
    have hrest : ∀ other ∈ server.applied, other ∉ server.verified.erase callback :=
      fun other hother => hdone other (List.mem_cons_of_mem callback hother)
    simp only [step] at hstep
    split at hstep
    · cases happlied : applyCallStatus server.db callback.input now with
      | none =>
        rw [happlied] at hstep
        obtain rfl := Option.some.inj hstep
        exact ⟨⟨h.keyed, honce, hrest⟩, .refl _⟩
      | some db =>
        rw [happlied] at hstep
        obtain rfl := Option.some.inj hstep
        obtain ⟨hkeyed, hadvanced⟩ := h.keyed.apply htimely happlied
        refine ⟨⟨hkeyed, honce, ?_⟩, hadvanced⟩
        intro other hother
        dsimp only at hother
        split at hother
        · exact hdone other hother
        · exact hrest other hother
    · exact absurd hstep (by simp)
  | remember callback now =>
    simp only [step] at hstep
    split at hstep
    · obtain rfl := Option.some.inj hstep
      have hcalls : (server.db.commitWebhookNonce callback now).calls = server.db.calls := by
        unfold Database.commitWebhookNonce
        split <;> rfl
      exact ⟨⟨hcalls.symm ▸ h.keyed, h.once, h.done⟩, hcalls.symm ▸ .refl _⟩
    · exact absurd hstep (by simp)
  | die callback =>
    obtain rfl := Option.some.inj hstep
    obtain ⟨honce, hdone⟩ := h.erase callback
    exact ⟨⟨h.keyed, honce, fun other hother => hdone other (List.mem_cons_of_mem _ hother)⟩,
      .refl _⟩
  | prune cutoff =>
    obtain rfl := Option.some.inj hstep
    exact ⟨⟨h.keyed, h.once, h.done⟩, .refl _⟩

theorem Sound.run (h : Sound server) (hrun : StepSystem.ReachableWhen step Timely server after) :
    Sound after ∧ Advanced server.db.calls after.db.calls := by
  refine hrun.invariant (I := fun s => Sound s ∧ Advanced server.db.calls s.db.calls)
    ⟨h, .refl _⟩ ?_
  intro s action s' hs htimely hstep
  obtain ⟨hsound, hadvanced⟩ := hs.1.next htimely hstep
  exact ⟨hsound, hs.2.trans hadvanced⟩

/-- A step of a callback that is done already changes no call and emits nothing. -/
theorem Sound.repeated {callback : Callback} {now : Int} (h : Sound server)
    (hdone : callback ∈ server.applied)
    (hstep : step server (.verify callback) = some after ∨
      step server (.apply callback now) = some after ∨
      step server (.remember callback now) = some after) :
    after.db.calls = server.db.calls ∧ after.db.outbox = server.db.outbox := by
  rcases hstep with hstep | hstep | hstep
  · simp only [step] at hstep
    split at hstep
    · obtain rfl := Option.some.inj hstep
      exact ⟨rfl, rfl⟩
    · obtain rfl := Option.some.inj hstep
      exact ⟨rfl, rfl⟩
  · simp only [step, if_neg (h.done callback hdone)] at hstep
    exact absurd hstep (by simp)
  · simp only [step] at hstep
    split at hstep
    · obtain rfl := Option.some.inj hstep
      unfold Database.commitWebhookNonce
      split <;> exact ⟨rfl, rfl⟩
    · exact absurd hstep (by simp)

end

/-- A callback for the call the carrier knows as `CA1`. -/
def report (status sequence : String) : Callback :=
  ⟨[("CallSid", "CA1"), ("CallStatus", status), ("SequenceNumber", sequence)]⟩

/-- A callback from its arrival to its nonce. -/
def deliver (callback : Callback) (now : Int) : List Action :=
  [.verify callback, .apply callback now, .remember callback now]

/-- A call that is placed, rings and is over. -/
def oneCall : List Action :=
  [.place "c1" 0, .accepted "c1" "CA1" "queued" 1] ++ deliver (report "ringing" "0") 2 ++
    deliver (report "completed" "1") 90

/-- The status and the end of each call, with the number of events. -/
def Server.summary (server : Server) : List (Status × Option Int) × Nat :=
  (server.db.calls.map fun call => (call.status, call.endedAt), server.db.outbox.length)

end CallStatus
end TaskFlow
