import WappPlanner.Ingestion.Malformed

/-! # Well-shaped payloads

A payload whose containers are lists of objects, whose message contents are objects and whose
timestamps are numbers of seconds within the years of a `datetime`. It is parsed exactly if each message
object with an id and one of the five types gives one message, made of its own fields and of the
contacts of its own value, each other one a skipped entry, both in document order. That is so if and
only if the profiles can be read (`parse_exact_iff`). -/

namespace WappPlanner.Ingestion

open WappPlanner.Errors WappPlanner.Ingestion.Parser WappPlanner.Lib.Fallible WappPlanner.Py.Text
open WappPlanner.Py.Values WappPlanner.Workflow.Enums

/-! ### The payloads -/

/-- A list of objects. -/
def Objects : Json → Prop
  | .arr items => ∀ x ∈ items, isObj x
  | _ => False

/-- The types of messages that are parsed, which are the names of their contents. -/
def contentTypes : List String := ["text", "audio", "image", "video", "document"]

structure MessageShaped (T : Tables) (message : Fields) : Prop where
  content : ∀ key ∈ contentTypes, ∀ x, message.lookup key = some x → isObj x
  time : ∃ n, intOf T (item message "timestamp" .null) = .ok n ∧ -62135596800 ≤ n ∧
    n ≤ 253402300799

structure WellShaped (T : Tables) (payload : Json) : Prop where
  isObj : isObj payload
  entries : Objects (item (fieldsOf payload) "entry" (.arr []))
  changes : ∀ entry ∈ entriesOf payload, Objects (item (fieldsOf entry) "changes" (.arr []))
  contacts : ∀ value ∈ valuesOf payload, Objects (item value "contacts" (.arr []))
  messages : ∀ value ∈ valuesOf payload, Objects (item value "messages" (.arr []))
  message : ∀ value ∈ valuesOf payload, ∀ message ∈ messagesIn value,
    MessageShaped T (fieldsOf message)

/-- The profile of a contact. -/
def profileOf (contact : Json) : Json := item (fieldsOf contact) "profile" .null

/-- The name in the profile of a contact. -/
def profileName (contact : Json) : Json := item (fieldsOf (profileOf contact)) "name" .null

/-! ### What they are parsed as -/

/-- The message objects in document order, each with the value it stands in. -/
def documentOf (payload : Json) : List (Fields × Fields) :=
  (valuesOf payload).flatMap fun value =>
    (messagesIn value).map fun message => (value, fieldsOf message)

/-- The type of a message is one of the five. -/
def typed (message : Fields) : Bool :=
  match item message "type" .null with
  | .str type => contentTypes.contains type
  | _ => false

/-- A message object with an id and one of the five types. -/
def supported (message : Fields) : Bool := (message.lookup "id").isSome && typed message

/-- **The profiles can be read**: each contact with a `wa_id` has an object for its profile, or nothing,
and the name that is looked up for a message to be parsed is a text, or absent. -/
structure Legible (T : Tables) (payload : Json) : Prop where
  profiles : ∀ value ∈ valuesOf payload, ∀ contact ∈ contactsIn value, contactOk contact
  names : ∀ value ∈ valuesOf payload, ∀ message ∈ messagesIn value,
    supported (fieldsOf message) = true →
      (text? (nameOf (contactNames T value) (senderOf T (fieldsOf message)))).isSome

def IsVoice (message : Fields) : Prop :=
  item message "type" .null = .str "audio" ∧
    item (fieldsOf (item message "audio" .null)) "voice" .null = .bool true

/-- The contact has the `wa_id`. -/
def HasId (T : Tables) (sender : String) (contact : Json) : Prop :=
  (item (fieldsOf contact) "wa_id" .null).isNone = false ∧
    str T (item (fieldsOf contact) "wa_id" .null) = sender

/-- The name of the last contact with the `wa_id`, if there is one. -/
def NameIn (T : Tables) (contacts : List Json) (sender : String) (name : Option String) : Prop :=
  (∃ pre contact post, contacts = pre ++ contact :: post ∧ HasId T sender contact ∧
    (∀ c ∈ post, ¬ HasId T sender c) ∧ text? (profileName contact) = some name) ∨
  (∀ c ∈ contacts, ¬ HasId T sender c) ∧ name = none

/-- A field of the content of a message. -/
def contentField (message : Fields) (type key : String) : Json :=
  item (fieldsOf (item message type .null)) key .null

/-- The parsed message is made of the fields of its own object, and of the contacts of its value. -/
structure Carries (T : Tables) (value message : Fields) (parsed : ParsedMessage) : Prop where
  id : ∃ id, message.lookup "id" = some id ∧ parsed.whatsappId = str T id
  sender : parsed.sender = str T (item message "from" (.str ""))
  time : ∃ n, intOf T (item message "timestamp" .null) = .ok n ∧ parsed.timestamp = seconds n
  voice : parsed.type = .voice ↔ IsVoice message
  type : parsed.type ≠ .voice → item message "type" .null = .str parsed.type.value
  text : parsed.text =
    if parsed.type = .text then contentField message "text" "body" else .null
  media : [parsed.caption, parsed.mediaId, parsed.mimeType, parsed.filename] =
    if parsed.type = .text then [.null, .null, .null, .null]
    else ["caption", "id", "mime_type", "filename"].map
      (contentField message (contentKey parsed.type))
  name : NameIn T (contactsIn value) parsed.sender parsed.senderName

/-- The two lists of a result account for the message objects of the payload. -/
structure Exactly (T : Tables) (payload : Json) (result : ParseResult) : Prop where
  messages : List.Forall₂ (fun p parsed => Carries T p.1 p.2 parsed)
    ((documentOf payload).filter fun p => supported p.2) result.messages
  skipped : List.Forall₂ (fun p type => type = str T (item p.2 "type" .null))
    ((documentOf payload).filter fun p => !supported p.2) result.skippedTypes
  all : result.messages.length + result.skippedTypes.length = (documentOf payload).length

variable {T : Tables} {wall : Json → Instant} {payload : Json} {value message : Fields}

/-! ### Types -/

theorem lookup_typeMap {type : String} {mtype : MessageType}
    (h : typeMap.lookup type = some mtype) : mtype ≠ .voice ∧ type = mtype.value := by
  have hmem : (type, mtype) ∈ typeMap := (Lib.Dict.lookup_eq_some (by decide)).mp h
  have hall : ∀ e ∈ typeMap, e.2 ≠ .voice ∧ e.1 = e.2.value := by decide
  exact hall _ hmem

theorem isSome_lookup_typeMap (type : String) :
    (typeMap.lookup type).isSome = contentTypes.contains type := by
  have hkeys : contentTypes = typeMap.map Prod.fst := rfl
  rw [Bool.eq_iff_iff, List.lookup_isSome_iff, List.contains_iff_mem, hkeys, List.mem_map]
  constructor
  · rintro ⟨e, he, htype⟩
    exact ⟨e, he, (eq_of_beq htype).symm⟩
  · rintro ⟨e, he, htype⟩
    exact ⟨e, he, by rw [htype]; exact beq_self_eq_true type⟩

theorem resolveType_audio (h : item message "type" .null = .str "audio") :
    resolveType message =
      match item (fieldsOf (item message "audio" .null)) "voice" .null with
      | .bool true => some .voice
      | _ => some .audio := by
  unfold resolveType
  rw [h]
  simp only [beq_self_eq_true]
  cases item message "audio" .null <;> rfl

theorem resolveType_of_ne {type : String} (h : item message "type" .null = .str type)
    (hne : type ≠ "audio") : resolveType message = typeMap.lookup type := by
  unfold resolveType
  rw [h]
  simp only [beq_false_of_ne hne]

theorem resolveType_cases (message : Fields) :
    (IsVoice message ∧ resolveType message = some .voice) ∨ (¬ IsVoice message ∧
      resolveType message = match item message "type" .null with
        | .str type => typeMap.lookup type
        | _ => none) := by
  unfold IsVoice
  cases htype : item message "type" .null with
  | str type =>
    by_cases haudio : type = "audio"
    · subst haudio
      rw [resolveType_audio htype]
      split
      next hvoice => exact .inl ⟨⟨rfl, hvoice⟩, rfl⟩
      next hvoice => exact .inr ⟨fun h => hvoice h.2, rfl⟩
    · exact .inr ⟨fun h => haudio (Json.str.inj h.1), resolveType_of_ne htype haudio⟩
  | _ =>
    refine .inr ⟨fun h => ?_, ?_⟩
    · cases h.1
    · unfold resolveType
      rw [htype]

theorem resolveType_voice : resolveType message = some .voice ↔ IsVoice message := by
  rcases resolveType_cases message with ⟨hvoice, h⟩ | ⟨hvoice, h⟩
  · exact iff_of_true h hvoice
  · refine iff_of_false ?_ hvoice
    rw [h]
    intro hsome
    split at hsome
    · exact (lookup_typeMap hsome).1 rfl
    · cases hsome

theorem resolveType_other {mtype : MessageType} (h : resolveType message = some mtype)
    (hvoice : mtype ≠ .voice) : item message "type" .null = .str mtype.value := by
  rcases resolveType_cases message with ⟨-, hother⟩ | ⟨-, hother⟩
  · rw [h] at hother
    exact absurd (Option.some.inj hother) hvoice
  · rw [h] at hother
    split at hother
    next type htype => rw [htype, (lookup_typeMap hother.symm).2]
    next => cases hother

theorem resolveType_isSome (message : Fields) : (resolveType message).isSome = typed message := by
  unfold typed
  rcases resolveType_cases message with ⟨hvoice, h⟩ | ⟨-, h⟩
  · rw [h, hvoice.1]
    rfl
  · rw [h]
    split
    next type htype => exact isSome_lookup_typeMap type
    next hother => rfl

/-! ### Contacts -/

theorem fieldsOf_or (x : Json) : fieldsOf (x.or (.obj [])) = fieldsOf x := by
  unfold Json.or
  split_ifs with htruthy
  · rfl
  · cases x with
    | obj fields =>
      have hempty : fields = [] := by simpa [Json.truthy] using htruthy
      rw [hempty]
    | _ => rfl

theorem isObj_or {x : Json} (h : x = .null ∨ isObj x) : isObj (x.or (.obj [])) := by
  unfold Json.or
  split_ifs with htruthy
  · rcases h with rfl | h
    · cases htruthy
    · exact h
  · rfl

theorem contactName_of_hasId {sender : String} {contact : Json} (h : HasId T sender contact) :
    contactName T contact = some (sender, profileName contact) := by
  obtain ⟨hid, hsender⟩ := h
  cases contact with
  | obj fields =>
    have hsome : ¬ (item fields "wa_id" .null).isNone = true := by
      rw [show (item fields "wa_id" .null).isNone = false from hid]
      decide
    rw [contactName, if_neg hsome, fieldsOf_or]
    exact congrArg (fun s => some (s, profileName (.obj fields))) hsender
  | _ => cases hid

theorem lookup_of_not_hasId {sender : String} {contact : Json} (h : ¬ HasId T sender contact)
    (rest : List (String × Json)) :
    (((contactName T contact).toList ++ rest).lookup sender) = rest.lookup sender := by
  cases contact with
  | obj fields =>
    rw [contactName]
    split_ifs with hid
    · rfl
    · have hne : sender ≠ str T (item fields "wa_id" .null) := by
        intro hsender
        exact h ⟨eq_false_of_ne_true hid, hsender.symm⟩
      rw [Option.toList_some, List.singleton_append, List.lookup_cons, beq_false_of_ne hne]
  | _ => rfl

/-- **The last contact with a `wa_id` counts.** -/
theorem lookup_contactNames (T : Tables) (contacts : List Json) (sender : String) :
    (∃ pre contact post, contacts = pre ++ contact :: post ∧ HasId T sender contact ∧
      (∀ c ∈ post, ¬ HasId T sender c) ∧
      (contacts.filterMap (contactName T)).reverse.lookup sender = some (profileName contact)) ∨
    (∀ c ∈ contacts, ¬ HasId T sender c) ∧
      (contacts.filterMap (contactName T)).reverse.lookup sender = none := by
  induction contacts using List.reverseRecOn with
  | nil => exact .inr ⟨by simp, rfl⟩
  | append_singleton contacts last ih =>
    have hsplit : ((contacts ++ [last]).filterMap (contactName T)).reverse =
        (contactName T last).toList ++ (contacts.filterMap (contactName T)).reverse := by
      rw [List.filterMap_append, List.reverse_append]
      cases h : contactName T last <;> simp [h]
    rw [hsplit]
    by_cases hlast : HasId T sender last
    · refine .inl ⟨contacts, last, [], rfl, hlast, by simp, ?_⟩
      rw [contactName_of_hasId hlast]
      simp
    · rw [lookup_of_not_hasId hlast]
      rcases ih with ⟨pre, contact, post, rfl, hid, hpost, hlookup⟩ | ⟨hnone, hlookup⟩
      · refine .inl ⟨pre, contact, post ++ [last], by simp, hid, ?_, hlookup⟩
        intro c hc
        rcases List.mem_append.mp hc with hc | hc
        · exact hpost c hc
        · rw [List.mem_singleton.mp hc]
          exact hlast
      · refine .inr ⟨?_, hlookup⟩
        intro c hc
        rcases List.mem_append.mp hc with hc | hc
        · exact hnone c hc
        · rw [List.mem_singleton.mp hc]
          exact hlast

theorem nameIn_of_text {contacts : List Json} {sender : String} {name : Option String}
    (h : text? (nameOf (contacts.filterMap (contactName T)) sender) = some name) :
    NameIn T contacts sender name := by
  unfold nameOf at h
  rcases lookup_contactNames T contacts sender with
    ⟨pre, contact, post, hsplit, hid, hpost, hlookup⟩ | ⟨hnone, hlookup⟩
  · rw [hlookup] at h
    exact .inl ⟨pre, contact, post, hsplit, hid, hpost, h⟩
  · rw [hlookup] at h
    exact .inr ⟨hnone, (Option.some.inj h).symm⟩

/-! ### Well-shaped payloads are well formed -/

theorem Objects.iterable {x : Json} (h : Objects x) : isIterable x := by
  cases x with
  | arr items => rfl
  | _ => cases h

theorem Objects.elems {x : Json} (h : Objects x) : ∀ y ∈ elems x, isObj y := by
  cases x with
  | arr items => exact h
  | _ => cases h

theorem contentKey_mem (mtype : MessageType) : contentKey mtype ∈ contentTypes := by
  cases mtype <;> decide

theorem MessageShaped.contentOf (h : MessageShaped T message) (mtype : MessageType) :
    isObj (contentOf message mtype) := by
  refine isObj_or ?_
  unfold item
  cases hlookup : message.lookup (contentKey mtype) with
  | none => exact .inl rfl
  | some x => exact .inr (h.content _ (contentKey_mem mtype) x hlookup)

theorem MessageShaped.timestampOk (h : MessageShaped T message) :
    timestampOk T (item message "timestamp" .null) := by
  obtain ⟨n, hn, hlow, hhigh⟩ := h.time
  unfold Ingestion.timestampOk
  rw [hn]
  simp only [Bool.and_eq_true, decide_eq_true_eq]
  omega

theorem MessageShaped.timestamp (h : MessageShaped T message) {now t : Instant}
    (ht : timestamp T now (item message "timestamp" .null) = .ok t) :
    ∃ n, intOf T (item message "timestamp" .null) = .ok n ∧ t = seconds n := by
  obtain ⟨n, hn, hlow, hhigh⟩ := h.time
  have hfrom : fromTimestamp n = .ok (seconds n) := by
    unfold fromTimestamp
    rw [if_neg (by omega), if_neg (by omega), if_neg (by omega)]
  unfold Parser.timestamp at ht
  rw [hn, show (.ok n >>= fromTimestamp : Except Exn Instant) = fromTimestamp n from rfl,
    hfrom] at ht
  exact ⟨n, hn, (Except.ok.inj ht).symm⟩

/-- A well-shaped message object is well formed exactly if it is not parsed or its sender's name can be
read. -/
theorem MessageShaped.messageOk_iff (h : MessageShaped T message)
    {contacts : List (String × Json)} : messageOk T contacts (.obj message) = true ↔
      (supported message = true → (text? (nameOf contacts (senderOf T message))).isSome) := by
  unfold Ingestion.messageOk supported
  rw [← resolveType_isSome]
  dsimp only
  split
  next id mtype hid htype =>
    rw [hid, htype, h.timestampOk, h.contentOf mtype]
    simp
  next hnone =>
    refine iff_of_true rfl fun hboth => ?_
    obtain ⟨hid, htype⟩ := (Bool.and_eq_true _ _).mp hboth
    obtain ⟨id, hid⟩ := Option.isSome_iff_exists.mp hid
    obtain ⟨mtype, htype⟩ := Option.isSome_iff_exists.mp htype
    exact absurd htype (hnone id mtype hid)

/-- **A well-shaped payload is parsed** if and only if its profiles can be read. -/
theorem WellShaped.wellFormed_iff (h : WellShaped T payload) :
    WellFormed T payload ↔ Legible T payload := by
  have hmessage : ∀ value ∈ valuesOf payload, ∀ message ∈ messagesIn value,
      (messageOk T (contactNames T value) message = true ↔
        (supported (fieldsOf message) = true →
          (text? (nameOf (contactNames T value) (senderOf T (fieldsOf message)))).isSome)) := by
    intro value hvalue message hmem
    have hshaped := h.message value hvalue message hmem
    have hobj := (h.messages value hvalue).elems message hmem
    cases message with
    | obj fields => exact hshaped.messageOk_iff
    | _ => cases hobj
  constructor
  · rintro ⟨hcontainers, hmessages⟩
    refine ⟨fun value hvalue => (hcontainers.contacts value hvalue).2, ?_⟩
    intro value hvalue message hmem
    exact (hmessage value hvalue message hmem).mp (hmessages value hvalue message hmem)
  · intro hread
    refine ⟨⟨h.isObj, h.entries.iterable, ?_, ?_, ?_⟩, ?_⟩
    · intro entry hentry
      have hchanges := h.changes entry hentry
      exact ⟨h.entries.elems entry hentry, hchanges.iterable, hchanges.elems⟩
    · intro value hvalue
      exact ⟨(h.contacts value hvalue).iterable, hread.profiles value hvalue⟩
    · exact fun value hvalue => (h.messages value hvalue).iterable
    · intro value hvalue message hmem
      exact (hmessage value hvalue message hmem).mpr (hread.names value hvalue message hmem)

/-! ### What a well-shaped message object is parsed as -/

theorem buildMessage_head {contacts : List (String × Json)} {now : Instant} {id : Json}
    {mtype : MessageType} {parsed : ParsedMessage}
    (h : buildMessage T now message id mtype contacts = .ok parsed) :
    parsed.whatsappId = str T id ∧ parsed.sender = senderOf T message ∧ parsed.type = mtype ∧
      timestamp T now (item message "timestamp" .null) = .ok parsed.timestamp ∧
      text? (nameOf contacts (senderOf T message)) = some parsed.senderName := by
  obtain ⟨t, senderName, ht, hname, rfl⟩ := buildMessage_eq h
  split_ifs <;> exact ⟨rfl, rfl, rfl, ht, hname⟩

theorem carries_of_build {now : Instant} {id : Json} {mtype : MessageType} {parsed : ParsedMessage}
    (hshaped : MessageShaped T message) (hid : message.lookup "id" = some id)
    (htype : resolveType message = some mtype)
    (h : buildMessage T now message id mtype (contactNames T value) = .ok parsed) :
    Carries T value message parsed := by
  obtain ⟨hwhatsapp, hsender, hmtype, htime, hname⟩ := buildMessage_head h
  have hcontent := buildMessage_content h
  subst hmtype
  have hfields : ∀ key, item (fieldsOf (contentOf message parsed.type)) key .null =
      contentField message (contentKey parsed.type) key := by
    intro key
    rw [contentOf, fieldsOf_or, contentField]
  simp only [hfields] at hcontent
  by_cases htext : parsed.type = .text
  · rw [if_pos htext] at hcontent
    obtain ⟨htexts, hmedia⟩ := List.cons.inj hcontent
    refine ⟨⟨id, hid, hwhatsapp⟩, hsender, hshaped.timestamp htime, ?_, ?_, ?_, ?_, ?_⟩
    · rw [← resolveType_voice, htype, Option.some.injEq]
    · exact fun hvoice => resolveType_other htype hvoice
    · rw [if_pos htext, htexts, htext]
      rfl
    · rw [if_pos htext, hmedia]
    · rw [hsender]
      exact nameIn_of_text hname
  · rw [if_neg htext] at hcontent
    obtain ⟨htexts, hmedia⟩ := List.cons.inj hcontent
    refine ⟨⟨id, hid, hwhatsapp⟩, hsender, hshaped.timestamp htime, ?_, ?_, ?_, ?_, ?_⟩
    · rw [← resolveType_voice, htype, Option.some.injEq]
    · exact fun hvoice => resolveType_other htype hvoice
    · rw [if_neg htext, htexts]
    · rw [if_neg htext, hmedia]
    · rw [hsender]
      exact nameIn_of_text hname

/-- A message object is parsed, if it is supported, and skipped under its type otherwise. -/
theorem parseMessage_cases (hshaped : MessageShaped T message) {x : ParsedMessage ⊕ String}
    (h : parseMessage T wall (contactNames T value) (.obj message) = .ok x) :
    (supported message = true ∧ ∃ parsed, x = .inl parsed ∧ Carries T value message parsed) ∨
      (supported message = false ∧ x = .inr (str T (item message "type" .null))) := by
  unfold supported
  rw [← resolveType_isSome]
  unfold parseMessage at h
  dsimp only at h
  split at h
  next id mtype hid htype =>
    obtain ⟨parsed, hbuild, hx⟩ := bind_eq_ok.mp h
    refine .inl ⟨by rw [hid, htype]; rfl, parsed, ?_, carries_of_build hshaped hid htype hbuild⟩
    exact (Except.ok.inj hx).symm
  next hnone =>
    refine .inr ⟨?_, (Except.ok.inj h).symm⟩
    cases hid : message.lookup "id" with
    | none => rfl
    | some id =>
      cases htype : resolveType message with
      | none => rfl
      | some mtype => exact absurd htype (hnone id mtype hid)

theorem obj_fieldsOf {x : Json} (h : isObj x) : .obj (fieldsOf x) = x := by
  cases x with
  | obj fields => rfl
  | _ => cases h

theorem forall₂_documentOf (h : WellShaped T payload) {xss : List (List (ParsedMessage ⊕ String))}
    (hxss : (valuesOf payload).mapM (parseValue T wall) = .ok xss) :
    List.Forall₂ (fun p x => MessageShaped T p.2 ∧
        parseMessage T wall (contactNames T p.1) (.obj p.2) = .ok x)
      (documentOf payload) xss.flatten := by
  have hvalue : ∀ value xs, value ∈ valuesOf payload ∧ parseValue T wall value = .ok xs →
      List.Forall₂ (fun p x => MessageShaped T p.2 ∧
          parseMessage T wall (contactNames T p.1) (.obj p.2) = .ok x)
        ((messagesIn value).map fun message => (value, fieldsOf message)) xs := by
    rintro value xs ⟨hmem, hxs⟩
    obtain ⟨-, hxs⟩ := (yields_contactsOf value).bind_eq_ok.mp hxs
    obtain ⟨-, hxs⟩ := (yields_iter _).bind_eq_ok.mp hxs
    have hall := (List.forall₂_and_left (p := (· ∈ messagesIn value)) _ _).mpr
      ⟨fun _ hmessage => hmessage, mapM_eq_ok.mp hxs⟩
    refine List.forall₂_map_left_iff.mpr (hall.imp ?_)
    rintro message x ⟨hmessage, hx⟩
    have hobj := (h.messages value hmem).elems message hmessage
    exact ⟨h.message value hmem message hmessage, by rw [obj_fieldsOf hobj]; exact hx⟩
  unfold documentOf
  rw [List.flatMap_def]
  refine List.rel_flatten (List.forall₂_map_left_iff.mpr ?_)
  have hall := (List.forall₂_and_left (p := (· ∈ valuesOf payload)) _ _).mpr
    ⟨fun _ hmem => hmem, mapM_eq_ok.mp hxss⟩
  exact hall.imp hvalue

theorem WellShaped.exactly (h : WellShaped T payload) {result : ParseResult}
    (hparse : parseWebhook T wall payload = .ok result) : Exactly T payload result := by
  obtain ⟨-, hparse⟩ := (yields_iterValues payload).bind_eq_ok.mp hparse
  obtain ⟨values, hvalues, hresult⟩ := bind_eq_ok.mp hparse
  have hall := forall₂_documentOf h hvalues
  obtain rfl := Except.ok.inj hresult
  have hmessages : List.Forall₂ (fun p parsed => Carries T p.1 p.2 parsed)
      ((documentOf payload).filter fun p => supported p.2)
      (values.flatten.filterMap Sum.getLeft?) := by
    refine forall₂_filter_filterMap hall ?_ ?_
    · rintro p x ⟨hshaped, hx⟩ hsupported
      rcases parseMessage_cases hshaped hx with ⟨-, parsed, rfl, hcarries⟩ | ⟨hnot, -⟩
      · exact ⟨parsed, rfl, hcarries⟩
      · rw [hsupported] at hnot
        cases hnot
    · rintro p x ⟨hshaped, hx⟩ hsupported
      rcases parseMessage_cases hshaped hx with ⟨hnot, -⟩ | ⟨-, rfl⟩
      · rw [hsupported] at hnot
        cases hnot
      · rfl
  have hskipped : List.Forall₂ (fun p type => type = str T (item p.2 "type" .null))
      ((documentOf payload).filter fun p => !supported p.2)
      (values.flatten.filterMap Sum.getRight?) := by
    refine forall₂_filter_filterMap hall ?_ ?_
    · rintro p x ⟨hshaped, hx⟩ hsupported
      rcases parseMessage_cases hshaped hx with ⟨hnot, -⟩ | ⟨-, rfl⟩
      · rw [hnot] at hsupported
        cases hsupported
      · exact ⟨_, rfl, rfl⟩
    · rintro p x ⟨hshaped, hx⟩ hsupported
      rcases parseMessage_cases hshaped hx with ⟨-, parsed, rfl, -⟩ | ⟨hnot, -⟩
      · rfl
      · rw [hnot] at hsupported
        cases hsupported
  refine ⟨hmessages, hskipped, ?_⟩
  rw [← hmessages.length_eq, ← hskipped.length_eq]
  exact (List.length_eq_length_filter_add fun p : Fields × Fields => supported p.2).symm

/-- **When parsing is exact on a well-shaped payload.** -/
theorem parse_exact_iff (h : WellShaped T payload) :
    (∃ result, parseWebhook T wall payload = .ok result ∧ Exactly T payload result) ↔
      Legible T payload := by
  have hparsed : Succeeds (parseWebhook T wall payload) ↔ WellFormed T payload :=
    succeeds_parseWebhook
  rw [← h.wellFormed_iff, ← hparsed]
  constructor
  · rintro ⟨result, hparse, -⟩
    exact ⟨result, hparse⟩
  · rintro ⟨result, hparse⟩
    exact ⟨result, hparse, h.exactly hparse⟩

/-! ### A text from a contact -/

section named

variable (name : Json)

/-- A message whose sender has the name. -/
def hello : Fields :=
  [("id", .str "m"), ("from", .str "1"), ("timestamp", .int 1749640000), ("type", .str "text"),
    ("text", .obj [("body", .str "hi")])]

def caller : Json := .obj [("wa_id", .str "1"), ("profile", .obj [("name", name)])]

def helloFrom : Json :=
  .obj [("entry", .arr [.obj [("changes", .arr [.obj [("value", .obj
    [("contacts", .arr [caller name]), ("messages", .arr [.obj hello])])]])]])]

theorem valuesOf_helloFrom : valuesOf (helloFrom name) =
    [[("contacts", .arr [caller name]), ("messages", .arr [.obj hello])]] := rfl

theorem messageShaped_hello : MessageShaped T hello := by
  refine ⟨?_, 1749640000, rfl, by decide, by decide⟩
  intro key hkey x hx
  simp only [contentTypes, List.mem_cons, List.not_mem_nil, or_false] at hkey
  rcases hkey with rfl | rfl | rfl | rfl | rfl
  · rw [← Option.some.inj hx]
    rfl
  all_goals cases hx

theorem wellShaped_helloFrom : WellShaped T (helloFrom name) := by
  have hone : ∀ x : Json, isObj x → Objects (.arr [x]) := by
    intro x hx y hy
    rw [List.mem_singleton.mp hy]
    exact hx
  refine ⟨rfl, hone _ rfl, ?_, ?_, ?_, ?_⟩
  · intro entry hentry
    rw [List.mem_singleton.mp hentry]
    exact hone _ rfl
  · intro value hvalue
    rw [valuesOf_helloFrom, List.mem_singleton] at hvalue
    rw [hvalue]
    exact hone _ rfl
  · intro value hvalue
    rw [valuesOf_helloFrom, List.mem_singleton] at hvalue
    rw [hvalue]
    exact hone _ rfl
  · intro value hvalue message hmessage
    rw [valuesOf_helloFrom, List.mem_singleton] at hvalue
    rw [hvalue] at hmessage
    rw [List.mem_singleton.mp hmessage]
    exact messageShaped_hello

theorem legible_helloFrom (s : String) : Legible T (helloFrom (.str s)) := by
  refine ⟨fun value hvalue contact hcontact => ?_, fun value hvalue message hmem _ => ?_⟩
  · rw [valuesOf_helloFrom, List.mem_singleton] at hvalue
    rw [hvalue] at hcontact
    rw [List.mem_singleton.mp hcontact]
    rfl
  · rw [valuesOf_helloFrom, List.mem_singleton] at hvalue
    rw [hvalue] at hmem ⊢
    rw [List.mem_singleton.mp hmem]
    rfl

end named

open Sample in
theorem parse_exact_hello : Legible asciiTables (helloFrom (.str "Bob")) ∧
    ((∃ result, parseWebhook asciiTables (fun _ => 0) (helloFrom (.str "Bob")) = .ok result ∧
      Exactly asciiTables (helloFrom (.str "Bob")) result) ↔
        Legible asciiTables (helloFrom (.str "Bob"))) :=
  ⟨legible_helloFrom "Bob", parse_exact_iff (wellShaped_helloFrom _)⟩

open Sample in
/-- A profile whose name is a number ends the parsing of a payload that is well shaped otherwise. -/
theorem numeric_name_fatal : WellShaped asciiTables (helloFrom (.int 7)) ∧
    ¬ Succeeds (parseWebhook asciiTables (fun _ => 0) (helloFrom (.int 7))) := by
  refine ⟨wellShaped_helloFrom _, ?_⟩
  rw [succeeds_parseWebhook]
  rintro ⟨-, hmessages⟩
  have hvalue : [("contacts", .arr [caller (.int 7)]), ("messages", .arr [.obj hello])] ∈
      valuesOf (helloFrom (.int 7)) := List.mem_singleton_self _
  have hok := hmessages _ hvalue (.obj hello) (List.mem_singleton_self _)
  have hbad : messageOk asciiTables (contactNames asciiTables
      [("contacts", .arr [caller (.int 7)]), ("messages", .arr [.obj hello])]) (.obj hello) = false := by
    decide
  rw [hbad] at hok
  cases hok

end WappPlanner.Ingestion
