import TaskFlow.TelephonyWebhooks

/-! # The loop of a menu

The document for an inbound call with a menu contains the URL that a digit is posted to.
The URL is composed of the id of the call, and the route that answers it takes the id of
a phone number from it.
-/
namespace TaskFlow
namespace MenuLoop
open Markup Twiml TelephonyWebhooks

/-! ### What the carrier takes from a document -/

def attributeOf (key : String) (tag : Tag) : Option String :=
  (tag.attributes.lookup key.toList).map String.ofList

/-- The URL that a digit is posted to. -/
def menuAction (document : String) : Option String :=
  ((elements document).find? (·.name = "Gather".toList)).bind (attributeOf "action")

/-- The URLs that recordings are reported to. -/
def recordingCallbacks (document : String) : List String :=
  (elements document).filterMap (attributeOf "recordingStatusCallback")

/-- The path of a URL on the server. -/
def pathOf (origin url : String) : Option String :=
  if origin.toList.isPrefixOf url.toList then
    some (String.ofList (url.toList.drop origin.toList.length))
  else none

/-- The answer to a digit, if the document says where to post it. -/
def pressed (env : Environment) (db : Database) (document : String)
    (params : List (String × String)) : Option Response := do
  let url ← menuAction document
  let path ← pathOf env.origin url
  return (handle env db ⟨path, params⟩).1

/-- The URL is that of the recording handler, for this call. -/
def NamesCall (origin : String) (call : CallRow) (url : String) : Prop :=
  (pathOf origin url).bind matchRoute = some (.recording, call.id)

/-- The digit is answered with the document of what it stands for, and what is recorded
is reported for the call. -/
structure ClosesLoop (origin : String) (route : InboundRouteConfig) (digits : String)
    (call : CallRow) (document : String) (answer : Option Response) : Prop where
  answered : ∃ context, answer = some (.twiml (menuChoiceToTwiml route digits context))
  recordings : ∀ document', document' = document ∨ answer = some (.twiml document') →
    ∀ url ∈ recordingCallbacks document', NamesCall origin call url

section
variable {env : Environment} {db db' : Database} {origin id : String} {request : Request}

theorem pathOf_append (origin path : String) : pathOf origin (origin ++ path) = some path := by
  rw [pathOf, String.toList_append,
    if_pos (List.isPrefixOf_iff_prefix.mpr (List.prefix_append _ _)), List.drop_left,
    String.ofList_toList]

/-- The parts of a path under `/telephony`. -/
theorem splitOn_path (name id : String) (hname : '/' ∉ name.toList) :
    ("/telephony/" ++ name ++ "/" ++ id).toList.splitOn '/' =
      [] :: "telephony".toList :: name.toList :: id.toList.splitOn '/' := by
  have hpath : ("/telephony/" ++ name ++ "/" ++ id).toList =
      [] ++ '/' :: ("telephony".toList ++ '/' :: (name.toList ++ '/' :: id.toList)) := by
    simp
  have htelephony : '/' ∉ "telephony".toList := by decide
  rw [hpath, List.splitOn_append_cons_self, List.splitOn_append_cons_self,
    List.splitOn_append_cons_self, List.splitOn_eq_singleton hname,
    List.splitOn_eq_singleton htelephony]
  rfl

theorem matchRoute_path {name : String} (hname : '/' ∉ name.toList) (hid : '/' ∉ id.toList) :
    matchRoute ("/telephony/" ++ name ++ "/" ++ id) =
      (endpointNamed name).map fun endpoint => (endpoint, id) := by
  rw [matchRoute, splitOn_path name id hname, List.splitOn_eq_singleton hid]
  simp only [List.map_cons, List.map_nil, String.ofList_toList]
  rfl

/-- An id with a slash matches no route. -/
theorem matchRoute_slash {name : String} (hname : '/' ∉ name.toList) (hid : '/' ∈ id.toList) :
    matchRoute ("/telephony/" ++ name ++ "/" ++ id) = none := by
  obtain ⟨left, right, heq⟩ := List.append_of_mem hid
  obtain ⟨first, firsts, hfirst⟩ := List.exists_cons_of_ne_nil (List.splitOn_ne_nil '/' left)
  obtain ⟨second, seconds, hsecond⟩ := List.exists_cons_of_ne_nil (List.splitOn_ne_nil '/' right)
  rw [matchRoute, splitOn_path name id hname, heq, List.splitOn_append_cons_self, hfirst, hsecond]
  cases firsts <;> rfl

theorem menuPath (id : String) : "/telephony/menu/" ++ id = "/telephony/" ++ "menu" ++ "/" ++ id :=
  congrArg (· ++ id) (by decide)

theorem matchRoute_menu (hid : '/' ∉ id.toList) :
    matchRoute ("/telephony/menu/" ++ id) = some (.menu, id) := by
  rw [menuPath, matchRoute_path (by decide) hid]
  rfl

/-- A digit posted for what is no phone number is not found. -/
theorem handle_menu_not_found (params : List (String × String))
    (h : loadRoutableNumber db id = none) :
    handle env db ⟨"/telephony/menu/" ++ id, params⟩ = (.status 404, db) := by
  unfold handle
  dsimp only
  by_cases hid : '/' ∈ id.toList
  · rw [menuPath, matchRoute_slash (by decide) hid]
  · rw [matchRoute_menu hid]
    dsimp only
    unfold menu
    rw [h]
    rfl

/-! ### The URLs in a document -/

theorem lookup_toList (key : String) (attributes : List (String × String)) :
    (attributes.map fun a => (a.1.toList, a.2.toList)).lookup key.toList =
      (attributes.lookup key).map String.toList := by
  induction attributes with
  | nil => rfl
  | cons a attributes ih =>
    have hkey : (key.toList == a.1.toList) = (key == a.1) := by
      rw [Bool.eq_iff_iff, beq_iff_eq, beq_iff_eq, String.toList_inj]
    rw [List.map_cons, List.lookup_cons, List.lookup_cons, hkey, ih]
    cases key == a.1 <;> rfl

theorem attributeOf_eq {tag : Tag} {attributes : List (String × String)}
    (h : tag.attributes = attributes.map fun a => (a.1.toList, a.2.toList)) (key : String) :
    attributeOf key tag = attributes.lookup key := by
  rw [attributeOf, h, lookup_toList, Option.map_map]
  cases attributes.lookup key with
  | none => rfl
  | some value => exact congrArg some String.ofList_toList

theorem attributeOf_startTag (key name text : String) (attributes : List (String × String)) :
    attributeOf key (startTag name attributes text) = attributes.lookup key :=
  attributeOf_eq rfl key

/-- A document for a menu says where to post a digit. -/
theorem menuAction_routeToTwiml {prompt : String} {choices : List (String × LeafRouteAction)}
    {fallback : LeafRouteAction} {context : TwimlContext} (h : context.record = false) :
    menuAction (routeToTwiml (.menu prompt choices fallback) context) =
      some context.menuActionUrl := by
  rw [menuAction, elements_routeToTwiml, routeTags, preambleTags_of_not_record h, documentTags,
    gatherTags]
  simp only [List.cons_append, List.nil_append]
  -- the declaration, the envelope, and the `Gather`
  rw [List.find?_cons_of_neg (by decide), List.find?_cons_of_neg (by decide),
    List.find?_cons_of_pos, Option.bind_some, attributeOf_startTag]
  · rfl
  · exact decide_eq_true rfl

/-! ### The answer to a digit -/

/-- An inbound call from a phone number is answered, if the carrier's id of it is new. -/
theorem voice_eq {caller phoneNumberId : String} {number : PhoneNumberRow} {call : CallRow}
    (hcaller : (request.param "From").bind parseNumber = some caller)
    (hnumber : loadRoutableNumber db phoneNumberId = some number)
    (hcall : inboundCall env.newId caller phoneNumberId ((request.param "CallSid").getD "") = call)
    (haccepts : db.acceptsCall call = true) :
    voice env db phoneNumberId request =
      (.twiml (voiceDocument env.origin call number.inboundRoute),
        { db with calls := db.calls ++ [call] }) := by
  unfold voice
  rw [hcaller]
  dsimp only
  rw [hnumber]
  dsimp only
  rw [hcall, recordInboundCall, if_pos haccepts]

/-- What answers an inbound call. -/
theorem voice_cases {document phoneNumberId : String}
    (h : voice env db phoneNumberId request = (.twiml document, db')) :
    ∃ caller number, loadRoutableNumber db phoneNumberId = some number ∧
      db' = { db with calls := db.calls ++
        [inboundCall env.newId caller phoneNumberId ((request.param "CallSid").getD "")] } ∧
      document = voiceDocument env.origin
        (inboundCall env.newId caller phoneNumberId ((request.param "CallSid").getD ""))
        number.inboundRoute := by
  unfold voice at h
  split at h
  next => cases h
  next caller _ =>
    split at h
    next => cases h
    next number hnumber =>
      dsimp only at h
      split at h
      next => cases h
      next db'' hrecord =>
        obtain ⟨hdocument, rfl⟩ := Prod.mk.inj h
        rw [recordInboundCall] at hrecord
        split at hrecord
        · exact ⟨caller, number, hnumber, (Option.some.inj hrecord).symm,
            (Response.twiml.inj hdocument).symm⟩
        · cases hrecord

/-- **A digit is not found**: the document of a menu has it posted under the id of the
call, where there is no phone number. -/
theorem pressed_not_found {env' : Environment} {later : Database}
    {document phoneNumberId prompt : String} {number : PhoneNumberRow}
    {route : InboundRouteConfig} {choices : List (String × LeafRouteAction)}
    {fallback : LeafRouteAction} (hnumber : loadRoutableNumber db phoneNumberId = some number)
    (hroute : number.inboundRoute = some route) (hmenu : route.1 = .menu prompt choices fallback)
    (hvoice : voice env db phoneNumberId request = (.twiml document, db'))
    (horigin : env'.origin = env.origin) (hfresh : loadRoutableNumber later env.newId = none)
    (params : List (String × String)) :
    pressed env' later document params = some (.status 404) := by
  obtain ⟨caller, number', hnumber', -, hdocument⟩ := voice_cases hvoice
  obtain rfl := Option.some.inj (hnumber.symm.trans hnumber')
  have haction : menuAction document =
      some (env.origin ++ ("/telephony/menu/" ++ env.newId)) := by
    rw [hdocument, hroute, voiceDocument, hmenu, menuAction_routeToTwiml rfl,
      ← String.append_assoc]
    rfl
  rw [pressed, haction, horigin]
  show (pathOf env.origin (env.origin ++ ("/telephony/menu/" ++ env.newId))).bind _ = _
  rw [pathOf_append]
  show some (handle env' later ⟨"/telephony/menu/" ++ env.newId, params⟩).1 = _
  rw [handle_menu_not_found params hfresh]

/-- **The loop of a menu never closes**: for every phone number with a menu, every call
to it under an id that is no phone number's and every digit, what the caller presses is
not answered with the document of what it stands for, whatever else has happened in
between. -/
theorem loop_never_closes {env' : Environment} {later : Database}
    {document phoneNumberId prompt : String} {number : PhoneNumberRow}
    {route : InboundRouteConfig} {choices : List (String × LeafRouteAction)}
    {fallback : LeafRouteAction} {call : CallRow}
    (hnumber : loadRoutableNumber db phoneNumberId = some number)
    (hroute : number.inboundRoute = some route) (hmenu : route.1 = .menu prompt choices fallback)
    (hvoice : voice env db phoneNumberId request = (.twiml document, db'))
    (horigin : env'.origin = env.origin) (hfresh : loadRoutableNumber later env.newId = none)
    (callSid digits : String) :
    ¬ClosesLoop env.origin route digits call document
      (pressed env' later document [("CallSid", callSid), ("Digits", digits)]) := by
  rw [pressed_not_found hnumber hroute hmenu hvoice horigin hfresh]
  intro h
  obtain ⟨context, hanswer⟩ := h.answered
  cases hanswer

end

/-! ### A call to a number with a menu -/

def env : Environment := ⟨"https://example.test", 0, "0190a5b2-0000-7000-8000-000000000002"⟩

def salesMenu : InboundRouteConfig :=
  ⟨.menu "Press 1 for sales." [("1", .say "Sales is closed.")] (.say "Goodbye."), by
    decide⟩

def number : PhoneNumberRow :=
  ⟨"0190a5b2-0000-7000-8000-000000000001", "+4930654321", some salesMenu, false⟩

def db : Database := ⟨[number], [], []⟩

def incoming : Request :=
  ⟨"/telephony/voice/0190a5b2-0000-7000-8000-000000000001",
    [("From", "+4930123456"), ("CallSid", "CA1")]⟩

/-- The row of the call. -/
def call : CallRow := inboundCall env.newId "+4930123456" number.id "CA1"

def menuOfCall : String := voiceDocument env.origin call (some salesMenu)

theorem loadRoutableNumber_number : loadRoutableNumber db number.id = some number := rfl

theorem voice_incoming :
    voice env db number.id incoming = (.twiml menuOfCall, { db with calls := [call] }) :=
  voice_eq (by decide) loadRoutableNumber_number rfl (by decide)

/-- The number's menu, and the digit 1. -/
theorem loop_never_closes_sales :
    ¬ClosesLoop env.origin salesMenu "1" call menuOfCall
      (pressed env { db with calls := [call] } menuOfCall [("CallSid", "CA1"), ("Digits", "1")]) :=
  loop_never_closes loadRoutableNumber_number rfl rfl voice_incoming rfl
    (by decide) "CA1" "1"

/-- The call is answered with the menu, and the digit 1 with 404. -/
theorem digit_not_found :
    voice env db number.id incoming = (.twiml menuOfCall, { db with calls := [call] }) ∧
      pressed env { db with calls := [call] } menuOfCall
        [("CallSid", "CA1"), ("Digits", "1")] = some (.status 404) ∧
      ¬ClosesLoop env.origin salesMenu "1" call menuOfCall
        (pressed env { db with calls := [call] } menuOfCall
          [("CallSid", "CA1"), ("Digits", "1")]) := by
  have hpressed : pressed env { db with calls := [call] } menuOfCall
      [("CallSid", "CA1"), ("Digits", "1")] = some (.status 404) :=
    pressed_not_found loadRoutableNumber_number rfl rfl voice_incoming rfl
      (by decide) _
  refine ⟨voice_incoming, hpressed, fun h => ?_⟩
  rw [hpressed] at h
  obtain ⟨context, hanswer⟩ := h.answered
  cases hanswer

end MenuLoop
end TaskFlow
