import TaskFlow.Twiml
import TaskFlow.AuditChainBinding

/-! # The webhooks of a call

The carrier asks the server what to do with a call, and tells it what has happened, by
requests to URLs that earlier answers contain.  `handle` answers a request whose
signature has been verified, by its path.
-/
namespace TaskFlow
namespace TelephonyWebhooks
open Twiml

/-! ### Consent to recording -/

inductive ConsentRule where
  | all_party
  | one_party
  deriving DecidableEq, Repr

structure ConsentRequirement where
  rule : ConsentRule
  announcementRequired : Bool
  basis : String
  deriving DecidableEq, Repr

def US_ALL_PARTY_AREA_CODES : List String := [
  -- California
  "209", "213", "279", "310", "323", "341", "350", "408", "415", "424", "442", "510", "530",
  "559", "562", "619", "626", "628", "650", "657", "661", "669", "707", "714", "747", "760",
  "805", "818", "820", "831", "840", "858", "909", "916", "925", "949", "951",
  -- Connecticut
  "203", "475", "860", "959",
  -- Delaware
  "302",
  -- Florida
  "239", "305", "321", "324", "352", "386", "407", "448", "561", "656", "689", "727", "754",
  "772", "786", "813", "850", "863", "904", "941", "954",
  -- Illinois
  "217", "224", "309", "312", "331", "447", "464", "618", "630", "708", "730", "773", "779",
  "815", "847", "872",
  -- Maryland
  "227", "240", "301", "410", "443", "667",
  -- Massachusetts
  "339", "351", "413", "508", "617", "774", "781", "857", "978",
  -- Michigan
  "231", "248", "269", "313", "517", "586", "616", "679", "734", "810", "906", "947", "989",
  -- Montana
  "406",
  -- Nevada
  "702", "725", "775",
  -- New Hampshire
  "603",
  -- Oregon
  "458", "503", "541", "971",
  -- Pennsylvania
  "215", "223", "267", "272", "412", "445", "484", "570", "582", "610", "717", "724", "814",
  "835", "878",
  -- Washington
  "206", "253", "360", "425", "509", "564"]

def ONE_PARTY_COUNTRIES : List String := ["CA", "GB", "IE", "NZ", "IN", "ZA"]

/-- The strict default. -/
def STRICT : ConsentRequirement := ⟨.all_party, true, "unknown_jurisdiction_default"⟩

def toUpperCase (text : String) : String := String.ofList (text.toList.map Char.toUpper)

def nanpConsent (digits : List Char) (isoCountry : Option String) : ConsentRequirement :=
  let areaCode := String.ofList ((digits.drop 1).take 3)
  if areaCode ∈ US_ALL_PARTY_AREA_CODES then
    ⟨.all_party, true, "us_all_party_npa:" ++ areaCode⟩
  else if isoCountry.map toUpperCase = some "CA" then ⟨.one_party, false, "one_party_country:CA"⟩
  else if isoCountry.map toUpperCase = some "US" then
    ⟨.all_party, true, "us_unlisted_npa:" ++ areaCode⟩
  else STRICT

def consentRequirementFor (phoneNumber : String) (isoCountry : Option String) :
    ConsentRequirement :=
  let digits := phoneNumber.toList.drop 1
  if digits.head? = some '1' then nanpConsent digits isoCountry
  else match isoCountry with
  | none => STRICT
  | some isoCountry =>
    if toUpperCase isoCountry ∈ ONE_PARTY_COUNTRIES then
      ⟨.one_party, false, "one_party_country:" ++ toUpperCase isoCountry⟩
    else ⟨.all_party, true, "all_party_country:" ++ isoCountry⟩

/-! ### Rows -/

/-- A row of `comms.phone_numbers`, with what the schema makes of its stored route. -/
structure PhoneNumberRow where
  id : String
  e164 : String
  inboundRoute : Option InboundRouteConfig
  released : Bool
  deriving DecidableEq

inductive Direction where
  | inbound
  | outbound
  deriving DecidableEq, Repr

/-- A row of `comms.calls`; the counterparty is stored sealed. -/
structure CallRow where
  id : String
  direction : Direction
  phoneNumberId : Option String
  counterparty : String
  providerSid : Option String
  consent : ConsentRequirement
  recordRequested : Bool
  announcementRequired : Bool
  announcementPlayedAt : Option Int
  recordingStartedAt : Option Int
  deriving DecidableEq

structure RecordingRow where
  callId : String
  providerSid : String
  providerUrl : String
  deriving DecidableEq

/-- What has been committed of one organization. -/
structure Database where
  phoneNumbers : List PhoneNumberRow
  calls : List CallRow
  recordings : List RecordingRow
  deriving DecidableEq

def Database.updateCall (db : Database) (callId : String) (f : CallRow → CallRow) : Database :=
  { db with calls := db.calls.map fun call => if call.id = callId then f call else call }

/-- No call has this id or carrier's id. -/
def Database.acceptsCall (db : Database) (call : CallRow) : Bool :=
  db.calls.all fun old =>
    old.id ≠ call.id ∧ (call.providerSid.isSome → old.providerSid ≠ call.providerSid)

/-- `calls_recording_after_announcement`. -/
def CallRow.recordingAfterAnnouncement (call : CallRow) : Bool :=
  match call.recordingStartedAt with
  | none => true
  | some started => !call.announcementRequired ||
    call.announcementPlayedAt.any fun played => played ≤ started

/-! ### What the handlers do -/

def loadRoutableNumber (db : Database) (phoneNumberId : String) : Option PhoneNumberRow :=
  db.phoneNumbers.find? fun number => number.id = phoneNumberId ∧ number.released = false

/-- The row of an inbound call, under a new id. -/
def inboundCall (callId caller phoneNumberId providerSid : String) : CallRow :=
  let consent := consentRequirementFor caller none
  { id := callId
    direction := .inbound
    phoneNumberId := some phoneNumberId
    counterparty := caller
    providerSid := some providerSid
    consent := consent
    recordRequested := false
    announcementRequired := consent.announcementRequired
    announcementPlayedAt := none
    recordingStartedAt := none }

/-- The row of an outbound call: an announcement is required if the consent rule asks
for one and the call is to be recorded. -/
def outboundCall (callId destination phoneNumberId : String) (consent : ConsentRequirement)
    (record : Bool) : CallRow :=
  { id := callId
    direction := .outbound
    phoneNumberId := some phoneNumberId
    counterparty := destination
    providerSid := none
    consent := consent
    recordRequested := record
    announcementRequired := if record then consent.announcementRequired else false
    announcementPlayedAt := none
    recordingStartedAt := none }

def recordInboundCall (db : Database) (call : CallRow) : Option Database :=
  if db.acceptsCall call then some { db with calls := db.calls ++ [call] } else none

structure OutboundCallInstructions where
  destination : String
  callerId : String
  record : Bool
  announcementRequired : Bool

/-- What the row of an outbound call says about its document. -/
def CallRow.instructions (call : CallRow) (callerId : String) : OutboundCallInstructions :=
  ⟨call.counterparty, callerId, call.recordRequested, call.announcementRequired⟩

def loadOutboundCallInstructions (db : Database) (callId : String) :
    Option OutboundCallInstructions := do
  let row ← db.calls.find? fun call => call.id = callId
  if row.direction = .outbound then
    let phoneNumberId ← row.phoneNumberId
    let number ← db.phoneNumbers.find? fun number => number.id = phoneNumberId
    some (row.instructions number.e164)
  else none

/-- Registers a recording, once for each carrier's id, for a call that is there and may
be recorded. -/
def registerRecording (db : Database) (now : Int) (recording : RecordingRow) : Option Database :=
  let known := db.recordings.any (·.providerSid = recording.providerSid)
  let inserted := if known then db else { db with recordings := db.recordings ++ [recording] }
  let db' := inserted.updateCall recording.callId fun call =>
    { call with recordingStartedAt := some now }
  if (known || db.calls.any (·.id = recording.callId)) &&
      db'.calls.all CallRow.recordingAfterAnnouncement then some db'
  else none

/-- The URLs in the documents of a call.  No member has a forwarding number yet. -/
def contextFor (origin callId : String) (record announcementRequired : Bool) : TwimlContext where
  forwardingNumberFor := fun _ => none
  recordingCallbackUrl := origin ++ "/telephony/recording/" ++ callId
  menuActionUrl := origin ++ "/telephony/menu/" ++ callId
  announcementRequired := announcementRequired
  record := record

def NOT_IN_SERVICE : String :=
  document "<Say>This number is not in service.</Say><Hangup/>"

def NOT_CONNECTED : String :=
  document "<Say>This call could not be connected.</Say><Hangup/>"

/-! ### Requests -/

/-- A form-encoded request whose signature has been verified. -/
structure Request where
  path : String
  params : List (String × String)

def Request.param (request : Request) (name : String) : Option String := request.params.lookup name

inductive Response where
  | status (code : Nat)
  | twiml (document : String)
  deriving DecidableEq, Repr

/-- What a handler is given besides the request: the configured origin, the clock, and a
new id. -/
structure Environment where
  origin : String
  now : Int
  newId : String

def isDigit (c : Char) : Bool := '0' ≤ c ∧ c ≤ '9'

/-- A phone number in E.164. -/
def parseNumber (value : String) : Option String :=
  match value.toList with
  | '+' :: first :: rest =>
    if '1' ≤ first ∧ first ≤ '9' ∧ 1 ≤ rest.length ∧ rest.length ≤ 14 ∧ rest.all isDigit then
      some value
    else none
  | _ => none

/-- The document that answers an inbound call. -/
def voiceDocument (origin : String) (call : CallRow) : Option InboundRouteConfig → String
  | none => NOT_IN_SERVICE
  | some route => routeToTwiml route (contextFor origin call.id false call.announcementRequired)

@[grind =] def voice (env : Environment) (db : Database) (phoneNumberId : String) (request : Request) :
    Response × Database :=
  match (request.param "From").bind parseNumber with
  | none => (.status 400, db)
  | some caller =>
    match loadRoutableNumber db phoneNumberId with
    | none => (.status 404, db)
    | some number =>
      let call := inboundCall env.newId caller phoneNumberId ((request.param "CallSid").getD "")
      match recordInboundCall db call with
      | none => (.status 500, db)
      | some db => (.twiml (voiceDocument env.origin call number.inboundRoute), db)

def outboundDocument (origin callId : String) : Option OutboundCallInstructions → String
  | none => NOT_CONNECTED
  | some instructions => outboundTwiml instructions.destination instructions.callerId
      (contextFor origin callId instructions.record instructions.announcementRequired)

def outbound (env : Environment) (db : Database) (callId : String) : Response × Database :=
  (.twiml (outboundDocument env.origin callId (loadOutboundCallInstructions db callId)), db)

/-- The document that answers a digit.  The call is named by the carrier's id for it. -/
def menuDocument (origin callSid digits : String) (route : InboundRouteConfig) : String :=
  menuChoiceToTwiml route digits (contextFor origin callSid false false)

@[grind =] def menu (env : Environment) (db : Database) (phoneNumberId : String) (request : Request) :
    Response × Database :=
  match (loadRoutableNumber db phoneNumberId).bind (·.inboundRoute) with
  | none => (.status 404, db)
  | some route => (.twiml (menuDocument env.origin ((request.param "CallSid").getD "")
      ((request.param "Digits").getD "") route), db)

def announced (env : Environment) (db : Database) (callId : String) : Response × Database :=
  (.status 204, db.updateCall callId fun call => { call with announcementPlayedAt := some env.now })

def recording (env : Environment) (db : Database) (callId : String) (request : Request) :
    Response × Database :=
  match request.param "RecordingUrl", request.param "RecordingSid" with
  | some url, some sid =>
    match registerRecording db env.now ⟨callId, sid, url⟩ with
    | none => (.status 500, db)
    | some db => (.status 204, db)
  | _, _ => (.status 400, db)

inductive Endpoint where
  | voice
  | outbound
  | menu
  | announced
  | recording
  deriving DecidableEq, Repr

def endpointNamed : String → Option Endpoint
  | "voice" => some .voice
  | "outbound" => some .outbound
  | "menu" => some .menu
  | "announced" => some .announced
  | "recording" => some .recording
  | _ => none

/-- The route that a path matches, and its parameter: `/telephony/{name}/{id}`. -/
def matchRoute (path : String) : Option (Endpoint × String) :=
  match (path.toList.splitOn '/').map String.ofList with
  | [root, telephony, name, id] =>
    if root = "" ∧ telephony = "telephony" then
      (endpointNamed name).map fun endpoint => (endpoint, id)
    else none
  | _ => none

@[grind =] def handle (env : Environment) (db : Database) (request : Request) : Response × Database :=
  match matchRoute request.path with
  | none => (.status 404, db)
  | some (.voice, id) => voice env db id request
  | some (.outbound, id) => outbound env db id
  | some (.menu, id) => menu env db id request
  | some (.announced, id) => announced env db id
  | some (.recording, id) => recording env db id request

end TelephonyWebhooks
end TaskFlow
