import TaskFlow.AuditChain
import TaskFlow.Markup
import Mathlib.Data.Nat.Digits.Lemmas

/-! # The instructions for a call

How an inbound call is routed is configured with a closed set of actions, and rendered
as markup that the carrier fetches and executes.  The renderers put texts together.
What the carrier reads in these is stated by the tags of each document, and
`elements_routeToTwiml` and its siblings say that the texts are the tags, whatever an
administrator has typed.
-/
namespace TaskFlow
namespace Twiml
open Markup

/-! ### The routing config -/

inductive HuntStrategy where
  | simultaneous
  | sequential
  deriving DecidableEq, Repr

inductive LeafRouteAction where
  | dial_user (userId : String)
  | hunt (userIds : List String) (strategy : HuntStrategy) (ringSeconds : Nat)
  | say (text : String)
  | voicemail (greeting : String) (maxSeconds : Nat)
  deriving DecidableEq, Repr

inductive InboundRoute where
  | leaf (action : LeafRouteAction)
  | menu (prompt : String) (choices : List (String × LeafRouteAction)) (fallback : LeafRouteAction)
  deriving DecidableEq, Repr

/-- The length of a text in UTF-16 code units. -/
def utf16Length (text : String) : Nat :=
  (text.toList.map fun c => if c.toNat < 0x10000 then 1 else 2).sum

def isText (text : String) : Bool := 1 ≤ utf16Length text ∧ utf16Length text ≤ 500

/-- A uuid, in letters of either case. -/
def isUserId (userId : String) : Bool :=
  AuditChain.isUuid (String.ofList (userId.toList.map Char.toLower))

def LeafRouteAction.accepted : LeafRouteAction → Bool
  | .dial_user userId => isUserId userId
  | .hunt userIds _ ringSeconds => userIds.all isUserId && (1 ≤ userIds.length &&
    userIds.length ≤ 10) && (5 ≤ ringSeconds && ringSeconds ≤ 120)
  | .say text => isText text
  | .voicemail greeting maxSeconds => isText greeting && (10 ≤ maxSeconds && maxSeconds ≤ 600)

def DIGITS : List String := ["0", "1", "2", "3", "4", "5", "6", "7", "8", "9"]

/-- What the schema accepts. -/
def InboundRoute.accepted : InboundRoute → Bool
  | .leaf action => action.accepted
  | .menu prompt choices fallback => isText prompt &&
    choices.all (fun choice => choice.1 ∈ DIGITS && choice.2.accepted) && fallback.accepted

/-- A route that has passed the schema. -/
abbrev InboundRouteConfig := { route : InboundRoute // route.accepted = true }

/-! ### Rendering -/

def RECORDING_ANNOUNCEMENT : String :=
  "This call may be recorded for quality and training purposes."

def UNAVAILABLE : String := "Sorry, nobody is available to take your call right now."

/-- `value.replace(/c/g, entity)`. -/
def replaceAll (c : Char) (entity value : String) : String :=
  String.ofList (value.toList.flatMap fun d => if d = c then entity.toList else [d])

def escapeXml (value : String) : String :=
  replaceAll '\'' "&apos;" (replaceAll '"' "&quot;" (replaceAll '>' "&gt;"
    (replaceAll '<' "&lt;" (replaceAll '&' "&amp;" value))))

structure TwimlContext where
  forwardingNumberFor : String → Option String
  recordingCallbackUrl : String
  menuActionUrl : String
  announcementRequired : Bool
  record : Bool

/-- Wraps verbs in the document envelope. -/
def document (body : String) : String :=
  "<?xml version=\"1.0\" encoding=\"UTF-8\"?><Response>" ++ body ++ "</Response>"

def unavailable : String := "<Say>" ++ escapeXml UNAVAILABLE ++ "</Say><Hangup/>"

def dialNumber (number : String) : String := "<Number>" ++ escapeXml number ++ "</Number>"

/-- The recording attribute for a `Dial`. -/
def recordAttribute (context : TwimlContext) : String :=
  if context.record = false then ""
  else " record=\"record-from-answer-dual\"" ++
    " recordingStatusCallback=\"" ++ escapeXml context.recordingCallbackUrl ++ "\"" ++
    " recordingStatusCallbackMethod=\"POST\""

def leafToTwiml (action : LeafRouteAction) (context : TwimlContext) : String :=
  match action with
  | .say text => "<Say>" ++ escapeXml text ++ "</Say><Hangup/>"
  | .dial_user userId =>
    match context.forwardingNumberFor userId with
    | none => unavailable
    | some number => "<Dial" ++ recordAttribute context ++ ">" ++ dialNumber number ++ "</Dial>"
  | .hunt userIds strategy ringSeconds =>
    let numbers := userIds.filterMap context.forwardingNumberFor
    let dial (inside : String) : String := "<Dial timeout=\"" ++ toString ringSeconds ++ "\"" ++
      recordAttribute context ++ ">" ++ inside ++ "</Dial>"
    if numbers = [] then unavailable
    else match strategy with
    | .simultaneous => dial (String.join (numbers.map dialNumber))
    | .sequential => String.join (numbers.map fun number => dial (dialNumber number))
  | .voicemail greeting maxSeconds =>
    "<Say>" ++ escapeXml greeting ++ "</Say>" ++
    "<Record maxLength=\"" ++ toString maxSeconds ++ "\" playBeep=\"true\" " ++
    "recordingStatusCallback=\"" ++ escapeXml context.recordingCallbackUrl ++ "\" " ++
    "recordingStatusCallbackMethod=\"POST\"/>" ++ "<Hangup/>"

/-- What is said before anything is recorded. -/
def preamble (context : TwimlContext) : String :=
  if context.record && context.announcementRequired then
    "<Say>" ++ escapeXml RECORDING_ANNOUNCEMENT ++ "</Say>"
  else ""

def routeToTwiml (route : InboundRoute) (context : TwimlContext) : String :=
  match route with
  | .menu prompt _ fallback =>
    let gather := "<Gather numDigits=\"1\" timeout=\"7\" action=\"" ++
      escapeXml context.menuActionUrl ++ "\" method=\"POST\">" ++ "<Say>" ++ escapeXml prompt ++
      "</Say>" ++ "</Gather>" ++ leafToTwiml fallback context
    document (preamble context ++ gather)
  | .leaf action => document (preamble context ++ leafToTwiml action context)

/-- What a digit stands for; every other one for the fallback. -/
def chosenLeaf (choices : List (String × LeafRouteAction)) (fallback : LeafRouteAction)
    (digit : String) : LeafRouteAction :=
  (choices.lookup digit).getD fallback

def menuChoiceToTwiml (route : InboundRoute) (digit : String) (context : TwimlContext) : String :=
  match route with
  | .leaf _ => routeToTwiml route context
  -- no preamble: the announcement is taken to have been in the first document
  | .menu _ choices fallback => document (leafToTwiml (chosenLeaf choices fallback digit) context)

def outboundTwiml (destination callerId : String) (context : TwimlContext) : String :=
  document (preamble context ++
    "<Dial callerId=\"" ++ escapeXml callerId ++ "\"" ++ recordAttribute context ++ ">" ++
    "<Number>" ++ escapeXml destination ++ "</Number>" ++ "</Dial>")

/-! ### Tags -/

/-- What the carrier reads in a document. -/
def elements (document : String) : List Tag := scan document.toList

def startTag (name : String) (attributes : List (String × String)) (text : String) : Tag :=
  ⟨name.toList, attributes.map fun a => (a.1.toList, a.2.toList), [], text.toList⟩

def emptyTag (name : String) (attributes : List (String × String)) : Tag :=
  ⟨name.toList, attributes.map fun a => (a.1.toList, a.2.toList), ['/'], []⟩

def endTag (name : String) : Tag := ⟨'/' :: name.toList, [], [], []⟩

def declaration : Tag :=
  ⟨"?xml".toList, [("version".toList, "1.0".toList), ("encoding".toList, "UTF-8".toList)], ['?'],
    []⟩

def documentTags (body : List Tag) : List Tag :=
  [declaration, startTag "Response" [] ""] ++ body ++ [endTag "Response"]

def sayTags (text : String) : List Tag := [startTag "Say" [] text, endTag "Say"]

def hangupTag : Tag := emptyTag "Hangup" []

def unavailableTags : List Tag := sayTags UNAVAILABLE ++ [hangupTag]

def numberTags (number : String) : List Tag := [startTag "Number" [] number, endTag "Number"]

def recordAttributes (context : TwimlContext) : List (String × String) :=
  if context.record = false then []
  else [("record", "record-from-answer-dual"),
    ("recordingStatusCallback", context.recordingCallbackUrl),
    ("recordingStatusCallbackMethod", "POST")]

def dialTags (attributes : List (String × String)) (context : TwimlContext) (inside : List Tag) :
    List Tag :=
  startTag "Dial" (attributes ++ recordAttributes context) "" :: inside ++ [endTag "Dial"]

def leafTags (action : LeafRouteAction) (context : TwimlContext) : List Tag :=
  match action with
  | .say text => sayTags text ++ [hangupTag]
  | .dial_user userId =>
    match context.forwardingNumberFor userId with
    | none => unavailableTags
    | some number => dialTags [] context (numberTags number)
  | .hunt userIds strategy ringSeconds =>
    let numbers := userIds.filterMap context.forwardingNumberFor
    let dial := dialTags [("timeout", toString ringSeconds)] context
    if numbers = [] then unavailableTags
    else match strategy with
    | .simultaneous => dial (numbers.flatMap numberTags)
    | .sequential => numbers.flatMap fun number => dial (numberTags number)
  | .voicemail greeting maxSeconds => sayTags greeting ++
    [emptyTag "Record" [("maxLength", toString maxSeconds), ("playBeep", "true"),
      ("recordingStatusCallback", context.recordingCallbackUrl),
      ("recordingStatusCallbackMethod", "POST")], hangupTag]

def preambleTags (context : TwimlContext) : List Tag :=
  if context.record && context.announcementRequired then sayTags RECORDING_ANNOUNCEMENT else []

/-- Nothing is announced in a document for a call that is not recorded. -/
theorem preambleTags_of_not_record {context : TwimlContext} (h : context.record = false) :
    preambleTags context = [] := by
  rw [preambleTags, h, Bool.false_and, if_neg Bool.false_ne_true]

def gatherTags (prompt : String) (context : TwimlContext) : List Tag :=
  startTag "Gather" [("numDigits", "1"), ("timeout", "7"), ("action", context.menuActionUrl),
    ("method", "POST")] "" :: sayTags prompt ++ [endTag "Gather"]

def routeTags (route : InboundRoute) (context : TwimlContext) : List Tag :=
  match route with
  | .menu prompt _ fallback => documentTags (preambleTags context ++
    (gatherTags prompt context ++ leafTags fallback context))
  | .leaf action => documentTags (preambleTags context ++ leafTags action context)

def menuChoiceTags (route : InboundRoute) (digit : String) (context : TwimlContext) : List Tag :=
  match route with
  | .leaf _ => routeTags route context
  | .menu _ choices fallback => documentTags (leafTags (chosenLeaf choices fallback digit) context)

def outboundTags (destination callerId : String) (context : TwimlContext) : List Tag :=
  documentTags (preambleTags context ++
    dialTags [("callerId", callerId)] context (numberTags destination))

/-! ### The texts are the tags -/

theorem replaceAll_toList (c : Char) (entity value : String) :
    (replaceAll c entity value).toList =
      value.toList.flatMap fun d => if d = c then entity.toList else [d] :=
  String.toList_ofList

theorem escapeXml_toList (value : String) : (escapeXml value).toList = escape value.toList := by
  simp only [escapeXml, replaceAll_toList, List.flatMap_assoc, escape]
  apply List.flatMap_congr
  intro c _
  by_cases hamp : c = '&'
  · subst hamp
    rfl
  by_cases hlt : c = '<'
  · subst hlt
    rfl
  by_cases hgt : c = '>'
  · subst hgt
    rfl
  by_cases hquot : c = '"'
  · subst hquot
    rfl
  by_cases hapos : c = '\''
  · subst hapos
    rfl
  simp only [escapeChar, hamp, hlt, hgt, hquot, hapos, if_false, List.flatMap_cons,
    List.flatMap_nil, List.append_nil]

/-- Digits need no escaping. -/
theorem escape_toString (n : Nat) : escape (toString n).toList = (toString n).toList := by
  apply escape_eq_self
  intro c hc
  have hdigit : c.isDigit = true := by
    have hc : c ∈ Nat.toDigits 10 n := by simpa using hc
    exact Nat.isDigit_of_mem_toDigits (by norm_num) (by norm_num) hc
  rintro hmem
  simp only [List.mem_cons, List.not_mem_nil, or_false] at hmem
  rcases hmem with rfl | rfl | rfl | rfl | rfl <;> cases hdigit

theorem document_toList {body : String} {tags : List Tag} (h : body.toList = render tags) :
    (document body).toList = render (documentTags tags) := by
  unfold document
  rw [String.toList_append, String.toList_append, h, documentTags, render_append, render_append]
  rfl

theorem say_toList (text : String) :
    ("<Say>" ++ escapeXml text ++ "</Say>").toList = render (sayTags text) := by
  rw [String.toList_append, String.toList_append, escapeXml_toList, List.append_assoc]
  rfl

theorem unavailable_toList : unavailable.toList = render unavailableTags := by
  unfold unavailable
  rw [String.toList_append, String.toList_append, escapeXml_toList]
  rfl

/-- How attributes are written. -/
def attributesText (attributes : List (String × String)) : List Char :=
  attributes.flatMap fun a =>
    " ".toList ++ (a.1.toList ++ ("=\"".toList ++ (escape a.2.toList ++ "\"".toList)))

theorem startTag_render (name : String) (attributes : List (String × String)) (text : String) :
    (startTag name attributes text).render = "<".toList ++ (name.toList ++
      (attributesText attributes ++ (">".toList ++ escape text.toList))) := by
  simp [startTag, Tag.render, Tag.body, attributesText, renderAttribute, List.flatMap_map]

theorem emptyTag_render (name : String) (attributes : List (String × String)) :
    (emptyTag name attributes).render = "<".toList ++ (name.toList ++
      (attributesText attributes ++ "/>".toList)) := by
  simp [emptyTag, Tag.render, Tag.body, attributesText, renderAttribute, List.flatMap_map]

theorem recordAttribute_toList (context : TwimlContext) :
    (recordAttribute context).toList = attributesText (recordAttributes context) := by
  unfold recordAttribute recordAttributes
  split
  · rfl
  · simp only [String.toList_append, escapeXml_toList, attributesText, List.flatMap_cons,
      List.append_assoc]
    rfl

theorem attributesText_append (attributes attributes' : List (String × String)) :
    attributesText (attributes ++ attributes') =
      attributesText attributes ++ attributesText attributes' := List.flatMap_append

/-- A `Dial` is its start tag, what is in it, and its end tag. -/
theorem dial_toList {attributes : List (String × String)} {context : TwimlContext}
    {opening inside : String} {tags : List Tag}
    (hopening : opening.toList = "<Dial".toList ++ attributesText attributes)
    (hinside : inside.toList = render tags) :
    (opening ++ recordAttribute context ++ ">" ++ inside ++ "</Dial>").toList =
      render (dialTags attributes context tags) := by
  rw [dialTags, List.cons_append, render_cons, render_append, startTag_render,
    attributesText_append, ← hinside, ← recordAttribute_toList]
  simp only [String.toList_append, List.append_assoc, hopening]
  rfl

theorem dialNumber_toList (number : String) :
    (dialNumber number).toList = render (numberTags number) := by
  unfold dialNumber
  rw [String.toList_append, String.toList_append, escapeXml_toList, List.append_assoc]
  rfl

theorem timeout_toList (ringSeconds : Nat) :
    ("<Dial timeout=\"" ++ toString ringSeconds ++ "\"").toList =
      "<Dial".toList ++ attributesText [("timeout", toString ringSeconds)] := by
  rw [attributesText, List.flatMap_cons, List.flatMap_nil, escape_toString]
  generalize toString ringSeconds = digits
  simp

/-- Texts that are the tags of each item, put together. -/
theorem join_toList {α : Type} {items : List α} {text : α → String} {tags : α → List Tag}
    (h : ∀ item, (text item).toList = render (tags item)) :
    (String.join (items.map text)).toList = render (items.flatMap tags) := by
  rw [String.toList_join, render, List.flatMap_map, List.flatMap_assoc]
  exact List.flatMap_congr fun item _ => h item

theorem leafToTwiml_toList (action : LeafRouteAction) (context : TwimlContext) :
    (leafToTwiml action context).toList = render (leafTags action context) := by
  unfold leafToTwiml leafTags
  cases action with
  | say text =>
    dsimp only
    rw [render_append, ← say_toList]
    simp only [String.toList_append, List.append_assoc]
    rfl
  | dial_user userId =>
    dsimp only
    cases context.forwardingNumberFor userId with
    | none => exact unavailable_toList
    | some number => exact dial_toList (List.append_nil _).symm (dialNumber_toList number)
  | hunt userIds strategy ringSeconds =>
    dsimp only
    split
    · exact unavailable_toList
    cases strategy with
    | simultaneous => exact dial_toList (timeout_toList ringSeconds) (join_toList dialNumber_toList)
    | sequential =>
      exact join_toList fun number =>
        dial_toList (timeout_toList ringSeconds) (dialNumber_toList number)
  | voicemail greeting maxSeconds =>
    dsimp only
    rw [render_append, ← say_toList, render_cons, emptyTag_render]
    simp only [attributesText, List.flatMap_cons, List.flatMap_nil, escape_toString,
      String.toList_append, escapeXml_toList, List.append_assoc]
    generalize toString maxSeconds = digits
    simp [hangupTag, emptyTag, Tag.render, Tag.body, render, escape_cons, escapeChar]

theorem preamble_toList (context : TwimlContext) :
    (preamble context).toList = render (preambleTags context) := by
  unfold preamble preambleTags
  split
  · exact say_toList RECORDING_ANNOUNCEMENT
  · rfl

theorem append_toList {text text' : String} {tags tags' : List Tag}
    (h : text.toList = render tags) (h' : text'.toList = render tags') :
    (text ++ text').toList = render (tags ++ tags') := by
  rw [String.toList_append, render_append, h, h']

theorem gather_toList (prompt : String) (context : TwimlContext) :
    ("<Gather numDigits=\"1\" timeout=\"7\" action=\"" ++ escapeXml context.menuActionUrl ++
      "\" method=\"POST\">" ++ "<Say>" ++ escapeXml prompt ++ "</Say>" ++ "</Gather>").toList =
      render (gatherTags prompt context) := by
  rw [gatherTags, List.cons_append, render_cons, render_append, startTag_render, ← say_toList]
  simp only [attributesText, List.flatMap_cons, List.flatMap_nil, String.toList_append,
    escapeXml_toList, List.append_assoc]
  rfl

theorem routeToTwiml_toList (route : InboundRoute) (context : TwimlContext) :
    (routeToTwiml route context).toList = render (routeTags route context) := by
  unfold routeToTwiml routeTags
  cases route with
  | leaf action =>
    exact document_toList (append_toList (preamble_toList context)
      (leafToTwiml_toList action context))
  | menu prompt choices fallback =>
    exact document_toList (append_toList (preamble_toList context)
      (append_toList (gather_toList prompt context) (leafToTwiml_toList fallback context)))

theorem menuChoiceToTwiml_toList (route : InboundRoute) (digit : String)
    (context : TwimlContext) :
    (menuChoiceToTwiml route digit context).toList =
      render (menuChoiceTags route digit context) := by
  unfold menuChoiceToTwiml menuChoiceTags
  cases route with
  | leaf action => exact routeToTwiml_toList (.leaf action) context
  | menu prompt choices fallback => exact document_toList (leafToTwiml_toList _ context)

theorem callerId_toList (callerId : String) :
    ("<Dial callerId=\"" ++ escapeXml callerId ++ "\"").toList =
      "<Dial".toList ++ attributesText [("callerId", callerId)] := by
  rw [attributesText, List.flatMap_cons, List.flatMap_nil, ← escapeXml_toList]
  generalize escapeXml callerId = text
  simp

theorem outboundTwiml_toList (destination callerId : String) (context : TwimlContext) :
    (outboundTwiml destination callerId context).toList =
      render (outboundTags destination callerId context) := by
  unfold outboundTwiml outboundTags
  apply document_toList
  have hdial : (_ ++ recordAttribute context ++ _ ++ _ ++ _).toList =
      render (dialTags _ context _) :=
    dial_toList (callerId_toList callerId) (dialNumber_toList destination)
  rw [render_append, ← preamble_toList, ← hdial]
  unfold dialNumber
  simp only [String.toList_append, List.append_assoc]

/-! ### The tags are read back -/

/-- Every tag of a document can be read back. -/
def Readable (tags : List Tag) : Prop := ∀ tag ∈ tags, tag.check = true

theorem Readable.append {tags tags' : List Tag} (h : Readable tags) (h' : Readable tags') :
    Readable (tags ++ tags') := by
  intro tag htag
  rcases List.mem_append.mp htag with htag | htag
  · exact h tag htag
  · exact h' tag htag

theorem Readable.flatMap {α : Type} {items : List α} {tags : α → List Tag}
    (h : ∀ item, Readable (tags item)) : Readable (items.flatMap tags) := by
  intro tag htag
  obtain ⟨item, -, htag⟩ := List.mem_flatMap.mp htag
  exact h item tag htag

theorem readable_say (text : String) : Readable (sayTags text) := by
  rintro tag (_ | ⟨_, _ | ⟨_, ⟨⟩⟩⟩) <;> rfl

theorem readable_number (number : String) : Readable (numberTags number) := by
  rintro tag (_ | ⟨_, _ | ⟨_, ⟨⟩⟩⟩) <;> rfl

theorem readable_unavailable : Readable unavailableTags := by
  apply (readable_say _).append
  rintro tag (_ | ⟨_, ⟨⟩⟩)
  rfl

/-- None of the keys can be taken for something else. -/
def plainKeys (keys : List String) : Bool := keys.all fun key => key.toList.all isPlain

theorem check_attributes {name ending text : List Char} {attributes : List (String × String)}
    (hname : Tag.check ⟨name, [], ending, []⟩ = true)
    (hkeys : plainKeys (attributes.map Prod.fst) = true) :
    Tag.check ⟨name, attributes.map fun a => (a.1.toList, a.2.toList), ending, text⟩ = true := by
  rw [plainKeys, List.all_map] at hkeys
  rw [Tag.check, Bool.and_eq_true, Bool.and_eq_true] at hname ⊢
  refine ⟨⟨hname.1.1, ?_⟩, hname.2⟩
  rw [List.all_map]
  exact hkeys

theorem plainKeys_append {keys keys' : List String} (h : plainKeys keys = true)
    (h' : plainKeys keys' = true) : plainKeys (keys ++ keys') = true := by
  rw [plainKeys, List.all_append, Bool.and_eq_true]
  exact ⟨h, h'⟩

theorem readable_dial {attributes : List (String × String)} {context : TwimlContext}
    {inside : List Tag} (hkeys : plainKeys (attributes.map Prod.fst) = true)
    (h : Readable inside) : Readable (dialTags attributes context inside) := by
  have hrecord : plainKeys ((recordAttributes context).map Prod.fst) = true := by
    unfold recordAttributes
    split
    · rfl
    · show plainKeys ["record", "recordingStatusCallback", "recordingStatusCallbackMethod"] = true
      rfl
  rw [dialTags]
  refine Readable.append ?_ ?_
  · rintro tag (_ | ⟨_, htag⟩)
    · apply check_attributes rfl
      rw [List.map_append]
      exact plainKeys_append hkeys hrecord
    · exact h tag htag
  · rintro tag (_ | ⟨_, ⟨⟩⟩)
    rfl

theorem readable_document {body : List Tag} (h : Readable body) :
    Readable (documentTags body) := by
  refine Readable.append (Readable.append ?_ h) ?_
  · rintro tag (_ | ⟨_, _ | ⟨_, ⟨⟩⟩⟩) <;> rfl
  · rintro tag (_ | ⟨_, ⟨⟩⟩)
    rfl

theorem readable_leaf (action : LeafRouteAction) (context : TwimlContext) :
    Readable (leafTags action context) := by
  unfold leafTags
  cases action with
  | say text =>
    apply (readable_say text).append
    rintro tag (_ | ⟨_, ⟨⟩⟩)
    rfl
  | dial_user userId =>
    dsimp only
    cases context.forwardingNumberFor userId with
    | none => exact readable_unavailable
    | some number => exact readable_dial rfl (readable_number number)
  | hunt userIds strategy ringSeconds =>
    have hkeys : plainKeys ["timeout"] = true := rfl
    dsimp only
    split
    · exact readable_unavailable
    cases strategy with
    | simultaneous => exact readable_dial hkeys (Readable.flatMap readable_number)
    | sequential =>
      exact Readable.flatMap fun number => readable_dial hkeys (readable_number number)
  | voicemail greeting maxSeconds =>
    have hkeys : plainKeys ["maxLength", "playBeep", "recordingStatusCallback",
      "recordingStatusCallbackMethod"] = true := rfl
    apply (readable_say greeting).append
    rintro tag (_ | ⟨_, _ | ⟨_, ⟨⟩⟩⟩)
    · exact check_attributes rfl hkeys
    · rfl

theorem readable_preamble (context : TwimlContext) : Readable (preambleTags context) := by
  unfold preambleTags
  split
  · exact readable_say RECORDING_ANNOUNCEMENT
  · rintro tag ⟨⟩

theorem readable_gather (prompt : String) (context : TwimlContext) :
    Readable (gatherTags prompt context) := by
  have hkeys : plainKeys ["numDigits", "timeout", "action", "method"] = true := rfl
  refine Readable.append ?_ ?_
  · rintro tag (_ | ⟨_, htag⟩)
    · exact check_attributes rfl hkeys
    · exact readable_say prompt tag htag
  · rintro tag (_ | ⟨_, ⟨⟩⟩)
    rfl

theorem readable_route (route : InboundRoute) (context : TwimlContext) :
    Readable (routeTags route context) := by
  unfold routeTags
  cases route with
  | leaf action =>
    exact readable_document ((readable_preamble context).append (readable_leaf action context))
  | menu prompt choices fallback =>
    exact readable_document ((readable_preamble context).append
      ((readable_gather prompt context).append (readable_leaf fallback context)))

theorem readable_menuChoice (route : InboundRoute) (digit : String) (context : TwimlContext) :
    Readable (menuChoiceTags route digit context) := by
  unfold menuChoiceTags
  cases route with
  | leaf action => exact readable_route (.leaf action) context
  | menu prompt choices fallback => exact readable_document (readable_leaf _ context)

theorem readable_outbound (destination callerId : String) (context : TwimlContext) :
    Readable (outboundTags destination callerId context) := by
  have hkeys : plainKeys ["callerId"] = true := rfl
  exact readable_document ((readable_preamble context).append
    (readable_dial hkeys (readable_number destination)))

theorem elements_eq {document : String} {tags : List Tag} (h : document.toList = render tags)
    (hread : Readable tags) : elements document = tags := by
  rw [elements, h]
  exact scan_render fun tag htag => Tag.wellFormed_of_check (hread tag htag)

/-- **What the carrier reads in the document of a route.** -/
theorem elements_routeToTwiml (route : InboundRoute) (context : TwimlContext) :
    elements (routeToTwiml route context) = routeTags route context :=
  elements_eq (routeToTwiml_toList route context) (readable_route route context)

theorem elements_menuChoiceToTwiml (route : InboundRoute) (digit : String)
    (context : TwimlContext) :
    elements (menuChoiceToTwiml route digit context) = menuChoiceTags route digit context :=
  elements_eq (menuChoiceToTwiml_toList route digit context)
    (readable_menuChoice route digit context)

theorem elements_outboundTwiml (destination callerId : String) (context : TwimlContext) :
    elements (outboundTwiml destination callerId context) =
      outboundTags destination callerId context :=
  elements_eq (outboundTwiml_toList destination callerId context)
    (readable_outbound destination callerId context)

end Twiml
end TaskFlow
