import TaskFlow.TelephonyWebhooks

/-! # The announcement before a recording

Where the consent rule of a call asks for an announcement, the caller is to hear it
before anything captures audio.  The documents of a call are looked at as the carrier
reads them, by their tags.

The announcement is said where a document is made for a call that is being recorded,
and the handlers of inbound calls say that theirs is not.  A voicemail records all the
same.
-/
namespace TaskFlow
namespace RecordingConsent
open Markup Twiml TelephonyWebhooks

/-! ### Lists whose items are preceded by others -/

section
variable {α : Type} {p q : α → Prop} {xs ys : List α}

/-- Whatever satisfies `p` comes after something that satisfies `q`. -/
def Preceded (p q : α → Prop) (xs : List α) : Prop :=
  ∀ before x after, xs = before ++ x :: after → p x → ∃ y ∈ before, q y

theorem preceded_of_none (h : ∀ x ∈ xs, ¬p x) : Preceded p q xs := by
  intro before x after heq hx
  exact absurd hx (h x (heq ▸ List.mem_append_right _ List.mem_cons_self))

/-- The second part is preceded by itself or by the first one. -/
theorem preceded_append : Preceded p q (xs ++ ys) ↔
    Preceded p q xs ∧ (Preceded p q ys ∨ ∃ y ∈ xs, q y) := by
  constructor
  · intro h
    refine ⟨fun before x after heq hx => ?_, ?_⟩
    · exact h before x (after ++ ys) (by rw [heq, List.append_assoc, List.cons_append]) hx
    · by_cases hfirst : ∃ y ∈ xs, q y
      · exact Or.inr hfirst
      apply Or.inl
      intro before x after heq hx
      obtain ⟨y, hy, hqy⟩ := h (xs ++ before) x after (by rw [heq, List.append_assoc]) hx
      rcases List.mem_append.mp hy with hy | hy
      · exact absurd ⟨y, hy, hqy⟩ hfirst
      · exact ⟨y, hy, hqy⟩
  · rintro ⟨hxs, hys⟩ before x after heq hx
    rcases List.append_eq_append_iff.mp heq with ⟨middle, rfl, hys'⟩ | ⟨middle, rfl, hafter⟩
    · rcases hys with hys | ⟨y, hy, hqy⟩
      · obtain ⟨y, hy, hqy⟩ := hys middle x after hys' hx
        exact ⟨y, List.mem_append_right _ hy, hqy⟩
      · exact ⟨y, List.mem_append_left _ hy, hqy⟩
    · cases middle with
      | nil =>
        rw [List.append_nil] at hxs hys
        rcases hys with hys | hfirst
        · obtain ⟨y, hy, -⟩ := hys [] x after hafter.symm hx
          cases hy
        · exact hfirst
      | cons x' middle =>
        obtain ⟨rfl, -⟩ := List.cons.inj hafter
        exact hxs before x middle rfl hx

end

/-! ### What the carrier does -/

/-- A `Record`, or a `Dial` with a `record` attribute. -/
def capturesAudio (tag : Tag) : Bool :=
  tag.name = "Record".toList ||
    tag.name = "Dial".toList && tag.attributes.any (·.1 = "record".toList)

/-- A `Say` of the announcement. -/
def announces (tag : Tag) : Bool :=
  tag.name = "Say".toList && tag.text = RECORDING_ANNOUNCEMENT.toList

/-- No audio is captured before the announcement. -/
def AnnouncedFirst (tags : List Tag) : Prop :=
  Preceded (fun tag => capturesAudio tag) (fun tag => announces tag) tags

/-- The announcement is among the tags. -/
def Announces (tags : List Tag) : Prop := ∃ tag ∈ tags, announces tag

section
variable {tags tags' body : List Tag} {text : String} {context : TwimlContext}

theorem announcedFirst_append : AnnouncedFirst (tags ++ tags') ↔
    AnnouncedFirst tags ∧ (AnnouncedFirst tags' ∨ Announces tags) :=
  preceded_append

theorem announces_append : Announces (tags ++ tags') ↔ Announces tags ∨ Announces tags' := by
  simp only [Announces, List.mem_append, or_and_right, exists_or]

theorem announces_say : Announces (sayTags text) ↔ text = RECORDING_ANNOUNCEMENT := by
  have hstart : announces (startTag "Say" [] text) = decide (text = RECORDING_ANNOUNCEMENT) := by
    rw [Bool.eq_iff_iff, decide_eq_true_eq, ← String.toList_inj]
    show (true && decide (text.toList = RECORDING_ANNOUNCEMENT.toList)) = true ↔ _
    rw [Bool.true_and, decide_eq_true_eq]
  have hend : announces (endTag "Say") = false := rfl
  simp [Announces, sayTags, hstart, hend]

/-- Tags that neither capture audio nor announce anything. -/
def Silent (tags : List Tag) : Prop := ∀ tag ∈ tags, !capturesAudio tag && !announces tag

theorem Silent.announcedFirst (h : Silent tags) : AnnouncedFirst tags := by
  apply preceded_of_none
  intro tag htag hcaptures
  have := h tag htag
  simp [hcaptures] at this

theorem Silent.not_announces (h : Silent tags) : ¬Announces tags := by
  rintro ⟨tag, htag, hannounces⟩
  have := h tag htag
  simp [hannounces] at this

theorem silent_opening : Silent [declaration, startTag "Response" [] ""] := by
  rintro tag (_ | ⟨_, _ | ⟨_, ⟨⟩⟩⟩) <;> rfl

theorem silent_closing : Silent [endTag "Response"] := by
  rintro tag (_ | ⟨_, ⟨⟩⟩)
  rfl

theorem silent_hangup : Silent [hangupTag] := by
  rintro tag (_ | ⟨_, ⟨⟩⟩)
  rfl

/-- The envelope of a document makes no difference. -/
theorem announcedFirst_document : AnnouncedFirst (documentTags body) ↔ AnnouncedFirst body := by
  rw [documentTags, announcedFirst_append, announcedFirst_append]
  have hopening := (silent_opening).not_announces
  have hfirst := (silent_opening).announcedFirst
  have hlast := (silent_closing).announcedFirst
  tauto

theorem announces_document : Announces (documentTags body) ↔ Announces body := by
  rw [documentTags, announces_append, announces_append]
  have hopening := (silent_opening).not_announces
  have hclosing := (silent_closing).not_announces
  tauto

theorem announcedFirst_say : AnnouncedFirst (sayTags text) :=
  preceded_of_none (by rintro tag (_ | ⟨_, _ | ⟨_, ⟨⟩⟩⟩) <;> exact Bool.false_ne_true)

/-- A `Say` and then a hangup. -/
theorem announcedFirst_say_hangup : AnnouncedFirst (sayTags text ++ [hangupTag]) :=
  (announcedFirst_append).mpr ⟨announcedFirst_say, Or.inl (silent_hangup).announcedFirst⟩

theorem announces_say_hangup :
    Announces (sayTags text ++ [hangupTag]) ↔ text = RECORDING_ANNOUNCEMENT := by
  rw [announces_append, announces_say]
  exact or_iff_left (silent_hangup).not_announces

theorem unavailable_ne : UNAVAILABLE ≠ RECORDING_ANNOUNCEMENT := by decide

/-! ### Leaves -/

def isVoicemail : LeafRouteAction → Bool
  | .voicemail _ _ => true
  | _ => false

theorem isVoicemail_eq_true {action : LeafRouteAction} (h : isVoicemail action = true) :
    ∃ greeting maxSeconds, action = .voicemail greeting maxSeconds := by
  cases action with
  | voicemail greeting maxSeconds => exact ⟨greeting, maxSeconds, rfl⟩
  | say text => cases h
  | dial_user userId => cases h
  | hunt userIds strategy ringSeconds => cases h

/-- The text that an administrator has typed for the action. -/
def typedText : LeafRouteAction → Option String
  | .say text => some text
  | .voicemail greeting _ => some greeting
  | _ => none

/-- Members have no forwarding number. -/
theorem leafTags_of_no_numbers {action : LeafRouteAction}
    (h : context.forwardingNumberFor = fun _ => none) (hvoicemail : isVoicemail action = false) :
    leafTags action context = sayTags ((typedText action).getD UNAVAILABLE) ++ [hangupTag] := by
  cases action with
  | say text => rfl
  | dial_user userId =>
    unfold leafTags
    rw [h]
    rfl
  | hunt userIds strategy ringSeconds =>
    have hnone : userIds.filterMap (fun _ => (none : Option String)) = [] :=
      List.filterMap_eq_nil_iff.mpr fun _ _ => rfl
    unfold leafTags
    rw [h]
    dsimp only
    rw [if_pos hnone]
    rfl
  | voicemail greeting maxSeconds => cases hvoicemail

/-- The tags of a voicemail after its greeting. -/
theorem leafTags_voicemail (greeting : String) (maxSeconds : Nat) (context : TwimlContext) :
    ∃ record, leafTags (.voicemail greeting maxSeconds) context =
        sayTags greeting ++ [record, hangupTag] ∧
      capturesAudio record = true ∧ announces record = false :=
  ⟨_, rfl, by simp [capturesAudio, emptyTag], by simp [announces, emptyTag]⟩

theorem announces_leaf {action : LeafRouteAction}
    (h : context.forwardingNumberFor = fun _ => none) :
    Announces (leafTags action context) ↔ typedText action = some RECORDING_ANNOUNCEMENT := by
  cases hvoicemail : isVoicemail action with
  | false =>
    rw [leafTags_of_no_numbers h hvoicemail, announces_say_hangup]
    cases typedText action with
    | none => exact iff_of_false unavailable_ne nofun
    | some text => rw [Option.getD_some, Option.some_inj]
  | true =>
    obtain ⟨greeting, maxSeconds, rfl⟩ := isVoicemail_eq_true hvoicemail
    obtain ⟨record, heq, -, hannounces⟩ := leafTags_voicemail greeting maxSeconds context
    rw [heq, announces_append, announces_say, typedText, Option.some_inj]
    apply or_iff_left
    rintro ⟨tag, _ | ⟨_, htag⟩, htrue⟩
    · rw [hannounces] at htrue
      cases htrue
    · exact (silent_hangup).not_announces ⟨tag, htag, htrue⟩

/-- A voicemail is preceded by its own greeting only. -/
theorem announcedFirst_leaf {action : LeafRouteAction}
    (h : context.forwardingNumberFor = fun _ => none) :
    AnnouncedFirst (leafTags action context) ↔
      (isVoicemail action → typedText action = some RECORDING_ANNOUNCEMENT) := by
  cases hvoicemail : isVoicemail action with
  | false =>
    rw [leafTags_of_no_numbers h hvoicemail]
    exact iff_of_true announcedFirst_say_hangup nofun
  | true =>
    obtain ⟨greeting, maxSeconds, rfl⟩ := isVoicemail_eq_true hvoicemail
    obtain ⟨record, heq, hcaptures, -⟩ := leafTags_voicemail greeting maxSeconds context
    have hrecord : ¬AnnouncedFirst [record, hangupTag] := by
      intro hfirst
      obtain ⟨tag, htag, -⟩ := hfirst [] record [hangupTag] rfl hcaptures
      cases htag
    rw [heq, announcedFirst_append, announces_say, typedText, Option.some_inj]
    have hsay : AnnouncedFirst (sayTags greeting) := announcedFirst_say
    tauto

/-! ### Documents -/

theorem announcedFirst_gather {prompt : String} : AnnouncedFirst (gatherTags prompt context) := by
  apply preceded_of_none
  intro tag htag
  rcases List.mem_append.mp htag with (_ | ⟨_, _ | ⟨_, _ | ⟨_, ⟨⟩⟩⟩⟩) | (_ | ⟨_, ⟨⟩⟩)
  all_goals simp [capturesAudio, startTag, endTag]

theorem announces_gather {prompt : String} :
    Announces (gatherTags prompt context) ↔ prompt = RECORDING_ANNOUNCEMENT := by
  rw [gatherTags, ← List.singleton_append, List.append_assoc, announces_append, announces_append,
    announces_say]
  have hstart : ¬Announces [startTag "Gather" [("numDigits", "1"), ("timeout", "7"),
      ("action", context.menuActionUrl), ("method", "POST")] ""] := by
    simp [Announces, announces, startTag]
  have hend : ¬Announces [endTag "Gather"] := by
    simp [Announces, announces, endTag]
  tauto

/-- **Where a call is recorded and an announcement required, nothing is captured before
it** in the document that connects the call. -/
theorem announcedFirst_outbound {destination callerId : String}
    (h : context.record = true → context.announcementRequired = true) :
    AnnouncedFirst (outboundTags destination callerId context) := by
  rw [outboundTags, announcedFirst_document]
  cases hrecord : context.record with
  | true =>
    have hpreamble : preambleTags context = sayTags RECORDING_ANNOUNCEMENT := by
      rw [preambleTags, hrecord, h hrecord, Bool.and_self, if_pos rfl]
    rw [hpreamble, announcedFirst_append]
    exact ⟨announcedFirst_say, Or.inr ((announces_say).mpr rfl)⟩
  | false =>
    have hattributes : recordAttributes context = [] := if_pos hrecord
    rw [preambleTags_of_not_record hrecord, List.nil_append, dialTags, hattributes]
    apply preceded_of_none
    intro tag htag
    rcases List.mem_append.mp htag with (_ | ⟨_, _ | ⟨_, _ | ⟨_, ⟨⟩⟩⟩⟩) | (_ | ⟨_, ⟨⟩⟩)
    all_goals simp [capturesAudio, startTag, endTag]

/-! ### Conversations -/

end

/-- The call that a conversation is about, and what decides the server's documents. -/
inductive Conversation where
  | inbound (callId caller phoneNumberId callSid : String) (route : InboundRouteConfig)
      (digits : String)
  | outbound (callId destination phoneNumberId callerId : String) (consent : ConsentRequirement)
      (record : Bool)

def Conversation.call : Conversation → CallRow
  | .inbound callId caller phoneNumberId callSid _ _ =>
    inboundCall callId caller phoneNumberId callSid
  | .outbound callId destination phoneNumberId _ consent record =>
    outboundCall callId destination phoneNumberId consent record

/-- The documents that the handlers answer, in order. -/
def Conversation.documents (origin : String) (conversation : Conversation) : List String :=
  match conversation with
  | .inbound _ _ _ callSid route digits =>
    [voiceDocument origin conversation.call (some route), menuDocument origin callSid digits route]
  | .outbound _ _ _ callerId _ _ =>
    [outboundDocument origin conversation.call.id (some (conversation.call.instructions callerId))]

/-- No voicemail is reached before a text that an administrator has typed and that is
the announcement, word for word. -/
def announcesBeforeVoicemail (digits : String) : InboundRoute → Bool
  | .leaf action => isVoicemail action → typedText action = some RECORDING_ANNOUNCEMENT
  | .menu prompt choices fallback =>
    let chosen := chosenLeaf choices fallback digits
    prompt = RECORDING_ANNOUNCEMENT ∨
      (isVoicemail fallback → typedText fallback = some RECORDING_ANNOUNCEMENT) ∧
      (isVoicemail chosen → typedText chosen = some RECORDING_ANNOUNCEMENT ∨
        typedText fallback = some RECORDING_ANNOUNCEMENT)

/-- Outbound conversations need no condition. -/
def Conversation.AnnouncesBeforeVoicemail : Conversation → Prop
  | .inbound _ _ _ _ route digits => announcesBeforeVoicemail digits route.1
  | .outbound _ _ _ _ _ _ => True

theorem announcedFirst_inbound {origin callId callSid digits : String} {route : InboundRoute}
    {announcementRequired : Bool} :
    AnnouncedFirst (elements (routeToTwiml route
        (contextFor origin callId false announcementRequired)) ++
      elements (menuChoiceToTwiml route digits (contextFor origin callSid false false))) ↔
      announcesBeforeVoicemail digits route := by
  have hvoice : preambleTags (contextFor origin callId false announcementRequired) = [] :=
    preambleTags_of_not_record rfl
  have hmenu : preambleTags (contextFor origin callSid false false) = [] :=
    preambleTags_of_not_record rfl
  rw [elements_routeToTwiml, elements_menuChoiceToTwiml]
  cases route with
  | leaf action =>
    rw [menuChoiceTags, routeTags, routeTags, hvoice, hmenu, announcedFirst_append,
      announcedFirst_document, announcedFirst_document, announces_document, List.nil_append,
      List.nil_append, announcedFirst_leaf rfl, announcedFirst_leaf rfl, announces_leaf rfl,
      announcesBeforeVoicemail, decide_eq_true_eq]
    tauto
  | menu prompt choices fallback =>
    rw [menuChoiceTags, routeTags, hvoice, announcedFirst_append, announcedFirst_document,
      announcedFirst_document, announces_document, List.nil_append, announcedFirst_append,
      announces_append, announcedFirst_leaf rfl, announcedFirst_leaf rfl, announces_leaf rfl,
      announces_gather, announcesBeforeVoicemail, decide_eq_true_eq]
    have hgather : AnnouncedFirst
      (gatherTags prompt (contextFor origin callId false announcementRequired)) :=
      announcedFirst_gather
    tauto

/-- **When no audio is captured before a required announcement**: in every conversation
about a call whose consent rule asks for one, just where no voicemail is reached before
a typed text that happens to be the announcement. -/
theorem announced_first_iff {conversation : Conversation} (origin : String)
    (hrequired : conversation.call.consent.announcementRequired = true) :
    AnnouncedFirst ((conversation.documents origin).flatMap elements) ↔
      conversation.AnnouncesBeforeVoicemail := by
  cases conversation with
  | inbound callId caller phoneNumberId callSid route digits =>
    simp only [Conversation.documents, List.flatMap_cons, List.flatMap_nil, List.append_nil]
    exact announcedFirst_inbound
  | outbound callId destination phoneNumberId callerId consent record =>
    simp only [Conversation.documents, List.flatMap_cons, List.flatMap_nil, List.append_nil]
    refine iff_of_true ?_ trivial
    rw [outboundDocument, elements_outboundTwiml]
    apply announcedFirst_outbound
    intro hrecord
    have hrecord : record = true := hrecord
    show (if record then consent.announcementRequired else false) = true
    rw [hrecord]
    exact hrequired

/-! ### Two calls -/

/-- A recorded call to a number of which nothing is known. -/
def recordedCall : Conversation :=
  .outbound "call" "+4930123456" "number" "+4930654321" STRICT true

/-- The announcement comes before the recording. -/
theorem announced_first_recorded :
    AnnouncedFirst ((recordedCall.documents "https://example.test").flatMap elements) :=
  (announced_first_iff "https://example.test" rfl).mpr trivial

def voicemailRoute : InboundRouteConfig :=
  ⟨.leaf (.voicemail "Please leave a message." 120), by decide⟩

/-- A call to a number with a voicemail. -/
def voicemailCall : Conversation :=
  .inbound "call" "+4930123456" "number" "CA1" voicemailRoute ""

/-- The consent rule asks for the announcement, and the caller hears the greeting and is
recorded. -/
theorem voicemail_unannounced :
    voicemailCall.call.consent.announcementRequired = true ∧
      ¬AnnouncedFirst ((voicemailCall.documents "https://example.test").flatMap elements) := by
  refine ⟨rfl, fun hfirst => ?_⟩
  simp only [voicemailCall, Conversation.documents, List.flatMap_cons, List.flatMap_nil,
    List.append_nil] at hfirst
  have hannounces := (announcedFirst_inbound).mp hfirst
  have hnot : announcesBeforeVoicemail "" voicemailRoute.1 = false := by decide
  rw [hnot] at hannounces
  cases hannounces

end RecordingConsent
end TaskFlow
