import WappPlanner.Ingestion.Redelivery
import WappPlanner.Ingestion.Steps

/-! # Malformed payloads

The parser checks the type of a message object and of a contact, and of nothing else: a container that
is no container, a profile or a content that is no object, a timestamp out of range end the whole
payload. `WellFormed` says which payloads are parsed (`succeeds_parseWebhook`), `ContentOk` which of
their messages can be built after their ids were claimed, and `skipped_or_refused_iff` puts the two
together for a body that is received. -/

namespace WappPlanner.Ingestion

open WappPlanner.Aggregation WappPlanner.Domain.Models WappPlanner.Errors
open WappPlanner.Ingestion.Parser WappPlanner.Ingestion.Signature WappPlanner.Lib.Fallible
open WappPlanner.Orchestrator WappPlanner.Providers.Base WappPlanner.Py.Text
open WappPlanner.Py.Values WappPlanner.Workflow.Enums

/-! ### What is well formed -/

def isObj : Json → Bool
  | .obj _ => true
  | _ => false

def fieldsOf : Json → Fields
  | .obj fields => fields
  | _ => []

/-- A list, an object or a string. -/
def isIterable : Json → Bool
  | .arr _ | .obj _ | .str _ => true
  | _ => false

/-- What a loop goes through. -/
def elems : Json → List Json
  | .arr items => items
  | .obj fields => fields.map fun e => .str e.1
  | .str s => s.toList.map fun c => .str (String.singleton c)
  | _ => []

def entriesOf (payload : Json) : List Json := elems (item (fieldsOf payload) "entry" (.arr []))

def changesOf (entry : Json) : List Json := elems (item (fieldsOf entry) "changes" (.arr []))

/-- The value of a change, if it is an object. -/
def valueOf (change : Json) : Option Fields :=
  match item (fieldsOf change) "value" .null with
  | .obj fields => some fields
  | _ => none

/-- The values of a payload. -/
def valuesOf (payload : Json) : List Fields :=
  (entriesOf payload).flatMap fun entry => (changesOf entry).filterMap valueOf

def contactsIn (value : Fields) : List Json := elems (item value "contacts" (.arr []))

def messagesIn (value : Fields) : List Json := elems (item value "messages" (.arr []))

def EntryOk (entry : Json) : Prop :=
  isObj entry ∧ isIterable (item (fieldsOf entry) "changes" (.arr [])) ∧
    ∀ change ∈ changesOf entry, isObj change

/-- The profile of a contact with a `wa_id` is an object, or absent, empty or zero. -/
def contactOk : Json → Bool
  | .obj fields => (item fields "wa_id" .null).isNone ||
      isObj ((item fields "profile" .null).or (.obj []))
  | _ => true

/-- Everything around the message objects is well formed. -/
structure Containers (payload : Json) : Prop where
  isObj : isObj payload
  iterable : isIterable (item (fieldsOf payload) "entry" (.arr []))
  entries : ∀ entry ∈ entriesOf payload, EntryOk entry
  contacts : ∀ value ∈ valuesOf payload, isIterable (item value "contacts" (.arr [])) ∧
    ∀ contact ∈ contactsIn value, contactOk contact
  messages : ∀ value ∈ valuesOf payload, isIterable (item value "messages" (.arr []))

section wellFormed

variable (T : Tables)

/-- The profile name of a contact, under its `wa_id`. -/
def contactName : Json → Option (String × Json)
  | .obj fields =>
    if (item fields "wa_id" .null).isNone then none
    else some (str T (item fields "wa_id" .null),
      item (fieldsOf ((item fields "profile" .null).or (.obj []))) "name" .null)
  | _ => none

def contactNames (value : Fields) : List (String × Json) :=
  (contactsIn value).filterMap (contactName T)

/-- The timestamp is a number within the range of the platform, or none that `int` can read. -/
def timestampOk (raw : Json) : Bool :=
  match intOf T raw with
  | .ok n => -67768040609740800 ≤ n && n ≤ 67768036191676799
  | .error (.typeError _) | .error (.valueError _) => true
  | .error _ => false

/-- A message object with an id and a supported type has a timestamp, a profile name that is a string
or absent, and a content that is an object, or absent, empty or zero. -/
def messageOk (contacts : List (String × Json)) : Json → Bool
  | .obj fields =>
    match fields.lookup "id", resolveType fields with
    | some _, some mtype => timestampOk T (item fields "timestamp" .null) &&
        (text? (nameOf contacts (senderOf T fields))).isSome && isObj (contentOf fields mtype)
    | _, _ => true
  | _ => true

/-- All message objects are well formed. -/
def MessagesOk (payload : Json) : Prop :=
  ∀ value ∈ valuesOf payload, ∀ message ∈ messagesIn value,
    messageOk T (contactNames T value) message

/-- The object is a message: it has an id and a supported type, and it is well formed. -/
def isMessage (contacts : List (String × Json)) (message : Json) : Bool :=
  (claimedId T message).isSome && messageOk T contacts message

/-- A value without what is no message. -/
def purge (value : Fields) : Fields :=
  match item value "messages" (.arr []) with
  | .arr messages =>
    setItem value "messages" (.arr (messages.filter (isMessage T (contactNames T value))))
  | _ => value

/-- **The second payload is the first one without what is no message.** -/
def Purged (payload payload' : Json) : Prop :=
  iterValues payload' = .ok ((valuesOf payload).map (purge T))

/-- The fields of the content that a message takes over. -/
def contentKeys (mtype : MessageType) : List String :=
  if mtype = .text then ["body"] else ["caption", "id", "mime_type", "filename"]

/-- What a message takes over from its content is text or absent. -/
def contentOk : Json → Bool
  | .obj fields =>
    match fields.lookup "id", resolveType fields with
    | some _, some mtype => (contentKeys mtype).all fun key =>
        (text? (item (fieldsOf (contentOf fields mtype)) key .null)).isSome
    | _, _ => true
  | _ => true

/-- A payload that is parsed. -/
def WellFormed (payload : Json) : Prop := Containers payload ∧ MessagesOk T payload

end wellFormed

section parsing

variable {T : Tables} {wall : Json → Instant}

/-! ### What the parser gives -/

theorem yields_get (x : Json) (key : String) (default : Json) :
    Yields (get x key default) (isObj x) (item (fieldsOf x) key default) := by
  cases x with
  | obj fields => exact (yields_ok _).congr (iff_of_true trivial rfl)
  | null | bool _ | int _ | float _ | str _ | arr _ =>
    exact (yields_error _ _).congr (iff_of_false id Bool.false_ne_true)

theorem yields_iter (x : Json) : Yields (iter x) (isIterable x) (elems x) := by
  cases x with
  | arr _ | obj _ | str _ => exact (yields_ok _).congr (iff_of_true trivial rfl)
  | null | bool _ | int _ | float _ =>
    exact (yields_error _ _).congr (iff_of_false id Bool.false_ne_true)

theorem yields_entryValues (entry : Json) :
    Yields (entryValues entry) (EntryOk entry) ((changesOf entry).filterMap valueOf) := by
  have hvalues : (((changesOf entry).map fun change =>
      item (fieldsOf change) "value" .null).filterMap fun
        | .obj fields => some fields
        | _ => none) = (changesOf entry).filterMap valueOf := by
    rw [List.filterMap_map]
    refine List.filterMap_congr fun change _ => ?_
    unfold valueOf
    rw [Function.comp_apply]
  rw [← hvalues]
  exact (yields_get entry "changes" (.arr [])).bind ((yields_iter _).bind
    ((yields_mapM (fun change => yields_get change "value" .null) _).map _))

theorem yields_iterValues (payload : Json) :
    Yields (iterValues payload)
      (isObj payload ∧ isIterable (item (fieldsOf payload) "entry" (.arr [])) ∧
        ∀ entry ∈ entriesOf payload, EntryOk entry) (valuesOf payload) := by
  rw [valuesOf, List.flatMap_def]
  exact (yields_get payload "entry" (.arr [])).bind ((yields_iter _).bind
    ((yields_mapM yields_entryValues _).map _))

theorem yields_contactEntry (contact : Json) :
    Yields (contactEntry T contact) (contactOk contact) (contactName T contact) := by
  cases contact with
  | obj fields =>
    unfold contactEntry contactName contactOk
    dsimp only
    split_ifs with hid
    · exact (yields_ok _).congr (iff_of_true trivial (by rw [hid, Bool.true_or]))
    · refine Yields.congr ((yields_get _ "name" .null).map _) ?_
      rw [Bool.or_eq_true, or_iff_right hid]
  | null | bool _ | int _ | float _ | str _ | arr _ =>
    exact (yields_ok _).congr (iff_of_true trivial rfl)

theorem yields_contactsOf (value : Fields) :
    Yields (contactsOf T value) (isIterable (item value "contacts" (.arr [])) ∧
      ∀ contact ∈ contactsIn value, contactOk contact) (contactNames T value) := by
  have hnames : ((contactsIn value).map (contactName T)).filterMap id = contactNames T value := by
    rw [List.filterMap_map]
    rfl
  rw [← hnames]
  exact (yields_iter _).bind ((yields_mapM yields_contactEntry _).map _)

theorem succeeds_timestamp {now : Instant} {raw : Json} :
    Succeeds (timestamp T now raw) ↔ timestampOk T raw := by
  unfold timestamp timestampOk
  cases hint : intOf T raw with
  | error exc =>
    rw [show (.error exc >>= fromTimestamp : Except Exn Instant) = .error exc from rfl]
    cases exc <;> simp
  | ok n =>
    rw [show (.ok n >>= fromTimestamp : Except Exn Instant) = fromTimestamp n from rfl]
    unfold fromTimestamp
    dsimp only
    rw [Bool.and_eq_true, decide_eq_true_eq, decide_eq_true_eq]
    split_ifs with hword hplatform hyear
    · refine iff_of_false (not_succeeds_error _) ?_
      omega
    · refine iff_of_false (not_succeeds_error _) ?_
      omega
    · refine iff_of_true (succeeds_ok _) ?_
      omega
    · refine iff_of_true (succeeds_ok _) ?_
      omega

theorem succeeds_buildMessage {now : Instant} {fields : Fields} {id : Json} {mtype : MessageType}
    {contacts : List (String × Json)} :
    Succeeds (buildMessage T now fields id mtype contacts) ↔
      timestampOk T (item fields "timestamp" .null) ∧
        (text? (nameOf contacts (senderOf T fields))).isSome ∧ isObj (contentOf fields mtype) := by
  unfold buildMessage
  dsimp only
  rw [← succeeds_timestamp, succeeds_bind]
  have hrest : ∀ {α : Type} {f : Json → Except Exn α} {content : Json} {key : String},
      (∀ x, Succeeds (f x) ↔ isObj content) →
        (Succeeds (get content key .null >>= f) ↔ isObj content) := by
    intro α f content key hf
    rw [(yields_get content key .null).succeeds_bind, hf, and_self]
  cases hname : text? (nameOf contacts (senderOf T fields)) with
  | none => simp
  | some senderName =>
    simp only [Option.isSome_some, true_and]
    have hcontent : ∀ t : Instant, Succeeds (if mtype = .text then (do
          let text ← get (contentOf fields mtype) "body" .null
          return ({ whatsappId := str T id, sender := senderOf T fields, senderName, type := mtype,
                    timestamp := t, text, caption := .null, mediaId := .null, mimeType := .null,
                    filename := .null } : ParsedMessage) : Except Exn ParsedMessage)
        else do
          let caption ← get (contentOf fields mtype) "caption" .null
          let mediaId ← get (contentOf fields mtype) "id" .null
          let mimeType ← get (contentOf fields mtype) "mime_type" .null
          let filename ← get (contentOf fields mtype) "filename" .null
          return { whatsappId := str T id, sender := senderOf T fields, senderName, type := mtype,
                   timestamp := t, text := .null, caption, mediaId, mimeType, filename }) ↔
        isObj (contentOf fields mtype) := by
      intro t
      split_ifs
      · exact ((yields_get _ "body" .null).map _).succeeds
      · exact hrest fun _ => hrest fun _ => hrest fun _ =>
          ((yields_get _ "filename" .null).map _).succeeds
    constructor
    · rintro ⟨t, ht, h⟩
      exact ⟨⟨t, ht⟩, (hcontent t).mp h⟩
    · rintro ⟨⟨t, ht⟩, h⟩
      exact ⟨t, ht, (hcontent t).mpr h⟩

theorem succeeds_parseMessage {contacts : List (String × Json)} {message : Json} :
    Succeeds (parseMessage T wall contacts message) ↔ messageOk T contacts message := by
  cases message with
  | obj fields =>
    unfold parseMessage messageOk
    dsimp only
    rcases hid : fields.lookup "id" with _ | id <;>
      rcases htype : resolveType fields with _ | mtype
    case some.some =>
      rw [succeeds_map, succeeds_buildMessage, Bool.and_eq_true, Bool.and_eq_true, and_assoc]
    all_goals exact iff_of_true (succeeds_ok _) rfl
  | null | bool _ | int _ | float _ | str _ | arr _ =>
    exact iff_of_true (succeeds_ok _) rfl

/-- **Which values are parsed.** -/
theorem succeeds_parseValue {value : Fields} :
    Succeeds (parseValue T wall value) ↔
      (isIterable (item value "contacts" (.arr [])) ∧
        ∀ contact ∈ contactsIn value, contactOk contact) ∧
      isIterable (item value "messages" (.arr [])) ∧
      ∀ message ∈ messagesIn value, messageOk T (contactNames T value) message := by
  unfold parseValue
  rw [(yields_contactsOf value).succeeds_bind, (yields_iter _).succeeds_bind, succeeds_mapM]
  simp only [succeeds_parseMessage]
  rfl

/-- **Which payloads are parsed**: the well-formed ones. -/
theorem succeeds_parseWebhook {payload : Json} :
    Succeeds (parseWebhook T wall payload) ↔ WellFormed T payload := by
  have hparse : Succeeds (parseWebhook T wall payload) ↔
      (isObj payload ∧ isIterable (item (fieldsOf payload) "entry" (.arr [])) ∧
        ∀ entry ∈ entriesOf payload, EntryOk entry) ∧
      ∀ value ∈ valuesOf payload, Succeeds (parseValue T wall value) := by
    unfold parseWebhook
    rw [(yields_iterValues payload).succeeds_bind, ← succeeds_mapM]
    refine and_congr_right fun _ => ?_
    rw [succeeds_bind]
    constructor
    · rintro ⟨xss, hxss, -⟩
      exact ⟨xss, hxss⟩
    · rintro ⟨xss, hxss⟩
      exact ⟨xss, hxss, succeeds_ok _⟩
  rw [hparse]
  simp only [succeeds_parseValue]
  constructor
  · rintro ⟨⟨hobj, hiter, hentries⟩, hvalues⟩
    exact ⟨⟨hobj, hiter, hentries, fun value hv => (hvalues value hv).1,
      fun value hv => (hvalues value hv).2.1⟩, fun value hv => (hvalues value hv).2.2⟩
  · rintro ⟨⟨hobj, hiter, hentries, hcontacts, hmessages⟩, hok⟩
    exact ⟨⟨hobj, hiter, hentries⟩, fun value hv =>
      ⟨hcontacts value hv, hmessages value hv, hok value hv⟩⟩

/-! ### Payloads without their malformed messages -/

theorem isMessage_eq {contacts : List (String × Json)} {message : Json} {x : ParsedMessage ⊕ String}
    (h : parseMessage T wall contacts message = .ok x) :
    isMessage T contacts message = x.isLeft := by
  unfold isMessage
  rw [claimedId_eq h, succeeds_parseMessage.mp ⟨x, h⟩, Bool.and_true]
  cases x <;> rfl

theorem parsedOf_filter_isLeft (xs : List (ParsedMessage ⊕ String)) :
    parsedOf (xs.filter (·.isLeft)) = parsedOf xs := by
  induction xs with
  | nil => rfl
  | cons x xs ih =>
    cases x with
    | inl parsed => exact congrArg (parsed :: ·) ih
    | inr skipped => exact ih

theorem parseValue_purge {value : Fields} {xs : List (ParsedMessage ⊕ String)}
    (h : parseValue T wall value = .ok xs) :
    ∃ ys, parseValue T wall (purge T value) = .ok ys ∧ parsedOf ys = parsedOf xs := by
  obtain ⟨hcontacts, h⟩ := (yields_contactsOf value).bind_eq_ok.mp h
  obtain ⟨items, hitems, h⟩ := bind_eq_ok.mp h
  have hnames : contactsOf T value = .ok (contactNames T value) :=
    (yields_contactsOf value _).mpr ⟨hcontacts, rfl⟩
  unfold purge
  split
  · rename_i messages harr
    rw [harr] at hitems
    obtain rfl := Except.ok.inj hitems
    refine ⟨_, bind_eq_ok.mpr ⟨_, (contactsOf_setItem value _).trans hnames, bind_eq_ok.mpr
      ⟨_, ?_, mapM_filter h fun _ _ hx => isMessage_eq hx⟩⟩, parsedOf_filter_isLeft xs⟩
    rw [item_setItem harr fun hnil => by rw [hnil]; rfl]
    rfl
  · exact ⟨xs, bind_eq_ok.mpr ⟨_, hnames, bind_eq_ok.mpr ⟨items, hitems, h⟩⟩, rfl⟩

theorem mapM_purge : ∀ {values : List Fields} {xss : List (List (ParsedMessage ⊕ String))},
    values.mapM (parseValue T wall) = .ok xss →
      ∃ yss, (values.map (purge T)).mapM (parseValue T wall) = .ok yss ∧
        parsedOf yss.flatten = parsedOf xss.flatten
  | [], xss, h => by
    obtain rfl := Except.ok.inj h
    exact ⟨[], rfl, rfl⟩
  | value :: rest, xss, h => by
    obtain ⟨xs, xss', hxs, hxss', rfl⟩ := List.forall₂_cons_left_iff.mp (mapM_eq_ok.mp h)
    obtain ⟨ys, hys, hparsed⟩ := parseValue_purge hxs
    obtain ⟨yss, hyss, hrest⟩ := mapM_purge (mapM_eq_ok.mpr hxss')
    refine ⟨ys :: yss, mapM_eq_ok.mpr (.cons hys (mapM_eq_ok.mp hyss)), ?_⟩
    rw [List.flatten_cons, List.flatten_cons, parsedOf_append, parsedOf_append, hparsed, hrest]

/-- **In well-formed containers** the messages are parsed as if the malformed ones were absent exactly
when those with an id and a supported type are well formed. -/
theorem parseWebhook_purged {payload payload' : Json} (hcontainers : Containers payload)
    (hpurged : Purged T payload payload') :
    (∃ result result', parseWebhook T wall payload = .ok result ∧
      parseWebhook T wall payload' = .ok result' ∧ result.messages = result'.messages) ↔
        MessagesOk T payload := by
  constructor
  · rintro ⟨result, -, h, -⟩
    exact (succeeds_parseWebhook.mp ⟨result, h⟩).2
  · intro hok
    obtain ⟨result, h⟩ : Succeeds (parseWebhook T wall payload) :=
      succeeds_parseWebhook.mpr ⟨hcontainers, hok⟩
    refine ⟨result, ?_⟩
    obtain ⟨-, hrest⟩ := (yields_iterValues payload).bind_eq_ok.mp h
    obtain ⟨xss, hxss, hresult⟩ := bind_eq_ok.mp hrest
    obtain ⟨yss, hyss, hparsed⟩ := mapM_purge hxss
    refine ⟨_, h, bind_eq_ok.mpr ⟨_, hpurged, bind_eq_ok.mpr ⟨yss, hyss, rfl⟩⟩, ?_⟩
    rw [← Except.ok.inj hresult]
    exact hparsed.symm

/-! ### What the parser raises -/

section raises

variable {contacts : List (String × Json)}

/-- Another exception than the refusal of a payload. -/
def Internal : Exn → Prop
  | .invalidPayload _ => False
  | _ => True

/-- An exception of the language, of its library or of the schemas. -/
def BuiltIn : Exn → Prop
  | .jsonDecode _ | .validation _ | .valueError _ | .typeError _ | .attributeError _ | .keyError _
  | .lookupError _ | .overflowError _ | .osError _ | .recursionError _ => True
  | _ => False

theorem internal_of_builtIn {exc : Exn} (h : BuiltIn exc) : Internal exc := by
  cases exc with
  | invalidPayload text => exact h
  | _ => trivial

theorem raises_get (x : Json) (key : String) (default : Json) :
    Raises (get x key default) BuiltIn := by
  cases x with
  | obj fields => exact raises_ok _
  | null | bool _ | int _ | float _ | str _ | arr _ => exact raises_error trivial

theorem raises_iter (x : Json) : Raises (iter x) BuiltIn := by
  cases x with
  | arr _ | obj _ | str _ => exact raises_ok _
  | null | bool _ | int _ | float _ => exact raises_error trivial

theorem raises_intOf (raw : Json) : Raises (intOf T raw) BuiltIn := by
  cases raw with
  | bool _ | int _ => exact raises_ok _
  | float x =>
    cases x with
    | finite _ | negZero => exact raises_ok _
    | inf _ | nan => exact raises_error trivial
  | str s =>
    unfold intOf
    dsimp only
    split_ifs
    · exact raises_error trivial
    · split
      · exact raises_ok _
      · exact raises_error trivial
  | null | arr _ | obj _ => exact raises_error trivial

theorem raises_fromTimestamp (n : ℤ) : Raises (fromTimestamp n) BuiltIn := by
  unfold fromTimestamp
  split_ifs
  · exact raises_error trivial
  · exact raises_error trivial
  · exact raises_error trivial
  · exact raises_ok _

theorem raises_timestamp (now : Instant) (raw : Json) :
    Raises (timestamp T now raw) BuiltIn := by
  have h := raises_bind (raises_intOf (T := T) raw) raises_fromTimestamp
  unfold timestamp
  split
  · exact raises_ok _
  · exact raises_ok _
  · exact h

theorem raises_buildMessage (now : Instant) (fields : Fields) (id : Json) (mtype : MessageType) :
    Raises (buildMessage T now fields id mtype contacts) BuiltIn := by
  unfold buildMessage
  dsimp only
  refine raises_bind (raises_timestamp _ _) fun t => ?_
  split
  · exact raises_error trivial
  · split_ifs
    · exact raises_bind (raises_get _ _ _) fun _ => raises_ok _
    · exact raises_bind (raises_get _ _ _) fun _ => raises_bind (raises_get _ _ _) fun _ =>
        raises_bind (raises_get _ _ _) fun _ => raises_bind (raises_get _ _ _) fun _ => raises_ok _

theorem raises_parseMessage (message : Json) :
    Raises (parseMessage T wall contacts message) BuiltIn := by
  cases message with
  | obj fields =>
    unfold parseMessage
    dsimp only
    split
    · exact raises_map (raises_buildMessage _ _ _ _)
    · exact raises_ok _
  | null | bool _ | int _ | float _ | str _ | arr _ => exact raises_ok _

theorem raises_contactEntry (contact : Json) : Raises (contactEntry T contact) BuiltIn := by
  cases contact with
  | obj fields =>
    unfold contactEntry
    dsimp only
    split_ifs
    · exact raises_ok _
    · exact raises_bind (raises_get _ _ _) fun _ => raises_ok _
  | null | bool _ | int _ | float _ | str _ | arr _ => exact raises_ok _

theorem raises_parseValue (value : Fields) : Raises (parseValue T wall value) BuiltIn := by
  have hcontacts : Raises (contactsOf T value) BuiltIn :=
    raises_bind (raises_iter _) fun _ => raises_bind (raises_mapM raises_contactEntry _)
      fun _ => raises_ok _
  exact raises_bind hcontacts fun _ => raises_bind (raises_iter _) fun _ =>
    raises_mapM raises_parseMessage _

theorem builtIn_parseWebhook (payload : Json) : Raises (parseWebhook T wall payload) BuiltIn := by
  have hentry : ∀ entry, Raises (entryValues entry) BuiltIn := fun entry =>
    raises_bind (raises_get _ _ _) fun _ => raises_bind (raises_iter _) fun _ =>
      raises_bind (raises_mapM (fun _ => raises_get _ _ _) _) fun _ => raises_ok _
  have hvalues : Raises (iterValues payload) BuiltIn :=
    raises_bind (raises_get _ _ _) fun _ => raises_bind (raises_iter _) fun _ =>
      raises_bind (raises_mapM hentry _) fun _ => raises_ok _
  exact raises_bind hvalues fun _ => raises_bind (raises_mapM raises_parseValue _)
    fun _ => raises_ok _

/-- **The parser never refuses a payload**: what it raises is another exception. -/
theorem raises_parseWebhook (payload : Json) : Raises (parseWebhook T wall payload) Internal :=
  fun exc h => internal_of_builtIn (builtIn_parseWebhook payload exc h)

end raises

/-! ### Messages that can be built -/

/-- **What a parsed message is made of.** -/
theorem buildMessage_eq {contacts : List (String × Json)} {now : Instant} {fields : Fields}
    {id : Json} {mtype : MessageType} {parsed : ParsedMessage}
    (h : buildMessage T now fields id mtype contacts = .ok parsed) :
    ∃ t senderName, timestamp T now (item fields "timestamp" .null) = .ok t ∧
      text? (nameOf contacts (senderOf T fields)) = some senderName ∧
      parsed =
        if mtype = .text then
          ⟨str T id, senderOf T fields, senderName, mtype, t,
            item (fieldsOf (contentOf fields mtype)) "body" .null, .null, .null, .null, .null⟩
        else
          ⟨str T id, senderOf T fields, senderName, mtype, t, .null,
            item (fieldsOf (contentOf fields mtype)) "caption" .null,
            item (fieldsOf (contentOf fields mtype)) "id" .null,
            item (fieldsOf (contentOf fields mtype)) "mime_type" .null,
            item (fieldsOf (contentOf fields mtype)) "filename" .null⟩ := by
  unfold buildMessage at h
  obtain ⟨t, ht, h⟩ := bind_eq_ok.mp h
  split at h
  · cases h
  next senderName hname =>
    refine ⟨t, senderName, ht, hname, ?_⟩
    dsimp only at h
    split_ifs at h ⊢
    · obtain ⟨-, h⟩ := (yields_get _ "body" .null).bind_eq_ok.mp h
      rw [← Except.ok.inj h]
    · obtain ⟨-, h⟩ := (yields_get _ "caption" .null).bind_eq_ok.mp h
      obtain ⟨-, h⟩ := (yields_get _ "id" .null).bind_eq_ok.mp h
      obtain ⟨-, h⟩ := (yields_get _ "mime_type" .null).bind_eq_ok.mp h
      obtain ⟨-, h⟩ := (yields_get _ "filename" .null).bind_eq_ok.mp h
      rw [← Except.ok.inj h]

theorem buildMessage_content {contacts : List (String × Json)} {now : Instant} {fields : Fields}
    {id : Json} {mtype : MessageType} {parsed : ParsedMessage}
    (h : buildMessage T now fields id mtype contacts = .ok parsed) :
    [parsed.text, parsed.caption, parsed.mediaId, parsed.mimeType, parsed.filename] =
      if mtype = .text then
        [item (fieldsOf (contentOf fields mtype)) "body" .null, .null, .null, .null, .null]
      else .null :: ["caption", "id", "mime_type", "filename"].map fun key =>
        item (fieldsOf (contentOf fields mtype)) key .null := by
  obtain ⟨t, senderName, -, -, rfl⟩ := buildMessage_eq h
  split_ifs <;> rfl

/-- A parsed message can be built when what it took over from its content is text or absent. -/
theorem valid_iff {contacts : List (String × Json)} {message : Json} {parsed : ParsedMessage}
    (h : parseMessage T wall contacts message = .ok (.inl parsed)) :
    parsed.Valid ↔ contentOk message = true := by
  cases message with
  | obj fields =>
    unfold parseMessage at h
    unfold contentOk Parser.ParsedMessage.Valid
    rcases hid : fields.lookup "id" with _ | id <;>
      rcases htype : resolveType fields with _ | mtype <;> simp only [hid, htype] at h ⊢
    case some.some =>
      obtain ⟨built, hbuild, hinl⟩ : ∃ built,
          buildMessage T (wall (.obj fields)) fields id mtype contacts = .ok built ∧
            built = parsed := by
        cases hbuild : buildMessage T (wall (.obj fields)) fields id mtype contacts with
        | error exc =>
          rw [hbuild] at h
          cases h
        | ok built =>
          rw [hbuild] at h
          exact ⟨built, rfl, Sum.inl.inj (Except.ok.inj h)⟩
      rw [← hinl, buildMessage_content hbuild]
      unfold contentKeys
      split_ifs <;> simp [text?]
    all_goals cases h
  | null | bool _ | int _ | float _ | str _ | arr _ => cases h

theorem contentOk_of_unclaimed {message : Json} (h : claimedId T message = none) :
    contentOk message = true := by
  cases message with
  | obj fields =>
    unfold claimedId at h
    unfold contentOk
    rcases hid : fields.lookup "id" with _ | id <;>
      rcases htype : resolveType fields with _ | mtype <;> simp only [hid, htype] at h ⊢
    cases h
  | null | bool _ | int _ | float _ | str _ | arr _ => rfl

/-- The message objects whose ids were not claimed and do not repeat are those that are accepted. -/
theorem fresh_valid_iff {messages : List Json} {xs : List (ParsedMessage ⊕ String)}
    (h : List.Forall₂ (fun message x => ∃ contacts,
      parseMessage T wall contacts message = .ok x) messages xs) :
    ∀ seen : Finset String, (∀ parsed ∈ fresh seen (parsedOf xs), parsed.Valid) ↔
      ∀ message ∈ (newMessages T seen messages).1, contentOk message = true := by
  induction h with
  | nil => exact fun seen => iff_of_true (fun _ h => by cases h) fun _ h => by cases h
  | @cons message x messages xs hx _ ih =>
    intro seen
    obtain ⟨contacts, hx⟩ := hx
    have hid := claimedId_eq hx
    rw [newMessages, hid]
    cases x with
    | inr skipped =>
      have hskip : contentOk message = true := contentOk_of_unclaimed hid
      simp only [Sum.getLeft?_inr, Option.map_none, List.forall_mem_cons, hskip, true_and]
      exact ih seen
    | inl parsed =>
      have hparsed : parsedOf (Sum.inl parsed :: xs) = parsed :: parsedOf xs := rfl
      rw [hparsed, fresh]
      simp only [Sum.getLeft?_inl, Option.map_some]
      split_ifs with hmem
      · exact ih seen
      · rw [List.forall_mem_cons, List.forall_mem_cons, valid_iff hx, ih]

end parsing

/-! ### Receiving -/

section receiving

variable (service : IngestionService)

/-- The message objects of a payload whose ids were not claimed and do not repeat. -/
def newIn (s : State) (payload : Json) : List Json :=
  (newMessages service.tables s.seen ((valuesOf payload).flatMap messagesIn)).1

/-- What is outside answers when the message is accepted: the stored media of a bucket that it
displaces are read, and the external calls of its ingest answer. -/
def Served (now : Instant) (s : State) (handling : Handling) (parsed : ParsedMessage) : Prop :=
  let t := (service.download handling parsed
    ((s.claim parsed).resolved service.registry parsed)).2
  ∀ bucket,
    s.aggregator.dueOf service.windows (service.registry.resolve parsed.sender).1 now = some bucket →
      ∃ media, IngestionService.mediaFor handling t.world bucket.messages = .ok media ∧
        Answered service.orchestrator (IngestionService.batchOf t bucket.closed media now)
          handling.env

/-- **Skipped or refused**: the call returns a count, or refuses the payload with nothing claimed and
all buckets as they were. -/
def Orderly (s : State) (answer : Except Exn ℕ × State) : Prop :=
  Succeeds answer.1 ∨ (∃ text, answer.1 = .error (.invalidPayload text)) ∧
    answer.2.seen = s.seen ∧ answer.2.aggregator = s.aggregator

/-- The body is a well-formed payload whose new messages can be built, or none that `json.loads`
reads. -/
def Sound (s : State) (rawBody : Bytes) : Prop :=
  match service.loads rawBody with
  | .ok payload => WellFormed service.tables payload ∧
      ∀ message ∈ newIn service s payload, contentOk message = true
  | .error (.jsonDecode _) | .error (.invalidPayload _) => True
  | .error _ => False

variable {service} {s : State} {now : Instant}

theorem succeeds_addMessage {handling : Handling} {key : String} {message : Message} {t : State}
    (h : ∀ bucket, t.aggregator.dueOf service.windows key now = some bucket →
      ∃ media, IngestionService.mediaFor handling t.world bucket.messages = .ok media ∧
        Answered service.orchestrator (IngestionService.batchOf t bucket.closed media now)
          handling.env) :
    Succeeds (service.addMessage handling key message now t).1 := by
  rcases service.addMessage_cases handling key message now t with hp | ⟨bucket, hdue, hp⟩
  · rw [hp]
    exact succeeds_ok _
  · rw [hp]
    obtain ⟨media, hmedia, hanswered⟩ := h bucket hdue
    refine IngestionService.succeeds_process ⟨media, hmedia⟩ fun media' hmedia' => ?_
    obtain rfl := Except.ok.inj (hmedia.symm.trans hmedia')
    exact hanswered

/-- **What decides an acceptance**, when what is outside answers. -/
theorem accept_served {handling : Handling} {parsed : ParsedMessage}
    (h : Served service now s handling parsed) :
    (Succeeds (service.accept handling parsed now s).1 ↔ parsed.Valid) ∧
      Raises (service.accept handling parsed now s).1 Internal := by
  unfold Served at h
  unfold IngestionService.accept
  have haggregator : (service.download handling parsed
      ((s.claim parsed).resolved service.registry parsed)).2.aggregator = s.aggregator :=
    IngestionService.download_aggregator ..
  dsimp only at h ⊢
  generalize service.download handling parsed
    ((s.claim parsed).resolved service.registry parsed) = downloaded at h haggregator ⊢
  obtain ⟨rawRef, t⟩ := downloaded
  dsimp only at h haggregator ⊢
  have hvalid : Succeeds (messageOf parsed rawRef) ↔ parsed.Valid := succeeds_messageOf
  rw [← hvalid]
  cases hmessage : messageOf parsed rawRef with
  | error exc =>
    have hraises : Raises (messageOf parsed rawRef) Internal := by
      unfold messageOf
      split
      · exact raises_ok _
      · exact raises_error trivial
    exact ⟨iff_of_false (not_succeeds_error _) (not_succeeds_error _),
      raises_error (hraises exc hmessage)⟩
  | ok message =>
    obtain ⟨u, hu⟩ : Succeeds (service.addMessage handling
        (service.registry.resolve parsed.sender).1 message now t).1 :=
      succeeds_addMessage (by rw [haggregator]; exact h)
    dsimp only
    rw [hu]
    exact ⟨iff_of_true (succeeds_ok _) (succeeds_ok _), raises_ok _⟩

/-- **What decides a list of messages**, when what is outside answers. -/
theorem acceptAll_served {handling : ℕ → Handling} :
    ∀ {n : ℕ} {messages : List ParsedMessage} {s : State},
      service.AtAcceptAll (Served service) handling now n messages s →
        (Succeeds (service.acceptAll handling now n messages s).1 ↔
          ∀ parsed ∈ fresh s.seen messages, parsed.Valid) ∧
        Raises (service.acceptAll handling now n messages s).1 Internal
  | _, [], _, _ => ⟨iff_of_true (succeeds_ok _) (fun _ h => by cases h), raises_ok _⟩
  | n, parsed :: rest, s, h => by
    rw [IngestionService.AtAcceptAll] at h
    rw [IngestionService.acceptAll, fresh]
    by_cases hmem : parsed.whatsappId ∈ s.seen
    · rw [if_pos hmem] at h ⊢
      rw [if_pos hmem]
      exact acceptAll_served h
    · rw [if_neg hmem] at h ⊢
      rw [if_neg hmem, List.forall_mem_cons]
      obtain ⟨hserved, hrest⟩ := h
      obtain ⟨hone, hraises⟩ := accept_served hserved
      have hseen := IngestionService.accept_seen service (handling n) s now parsed
      rcases haccept : service.accept (handling n) parsed now s with ⟨exc | _, s'⟩
      · rw [haccept] at hone hraises
        dsimp only at hraises ⊢
        refine ⟨iff_of_false (not_succeeds_error _) fun hall => ?_,
          raises_error (hraises exc rfl)⟩
        exact not_succeeds_error _ (hone.mpr hall.1)
      · rw [haccept] at hone hrest hseen
        dsimp only at hrest hseen ⊢
        rw [← hseen, and_iff_right (hone.mp (succeeds_ok _))]
        exact acceptAll_served hrest

section bodies

/-- What an exception of `json.loads` becomes. -/
def refused : Exn → Exn
  | .jsonDecode text => .invalidPayload text
  | exc => exc

variable {rawBody : Bytes} {header : Option String} {wall : Json → Instant} {exc : Exn}

theorem receive_error {handling : ℕ → Handling}
    (h : service.messagesOf rawBody header wall = .error exc) :
    service.receive rawBody header now wall handling s = (.error exc, s) := by
  unfold IngestionService.receive
  rw [h]

theorem messagesOf_unread (h : isValidSignature rawBody header service.appSecret = .ok true)
    (hloads : service.loads rawBody = .error exc) :
    service.messagesOf rawBody header wall = .error (refused exc) := by
  unfold IngestionService.messagesOf IngestionService.payloadOf
  rw [h, hloads]
  cases exc <;> rfl

theorem messagesOf_unparsed {payload : Json}
    (h : isValidSignature rawBody header service.appSecret = .ok true)
    (hloads : service.loads rawBody = .ok payload)
    (hparse : parseWebhook service.tables wall payload = .error exc) :
    service.messagesOf rawBody header wall = .error exc := by
  unfold IngestionService.messagesOf IngestionService.payloadOf
  rw [h, hloads]
  change (parseWebhook service.tables wall payload >>= fun result =>
    (.ok result.messages : Except Exn (List ParsedMessage))) = _
  rw [hparse]
  rfl

end bodies

/-- The message objects of a value, each with what it is parsed as. -/
theorem forall₂_parseValue {T : Tables} {wall : Json → Instant} {value : Fields}
    {xs : List (ParsedMessage ⊕ String)} (h : parseValue T wall value = .ok xs) :
    List.Forall₂ (fun message x => ∃ contacts, parseMessage T wall contacts message = .ok x)
      (messagesIn value) xs := by
  obtain ⟨-, h⟩ := (yields_contactsOf value).bind_eq_ok.mp h
  obtain ⟨-, h⟩ := (yields_iter _).bind_eq_ok.mp h
  exact (mapM_eq_ok.mp h).imp fun _ _ hx => ⟨_, hx⟩

/-- The new messages of a payload can be built exactly when their contents are text or absent. -/
theorem fresh_parsed_iff {wall : Json → Instant} {payload : Json} {result : ParseResult}
    (h : parseWebhook service.tables wall payload = .ok result) (s : State) :
    (∀ parsed ∈ fresh s.seen result.messages, parsed.Valid) ↔
      ∀ message ∈ newIn service s payload, contentOk message = true := by
  obtain ⟨-, h⟩ := (yields_iterValues payload).bind_eq_ok.mp h
  obtain ⟨xss, hxss, hresult⟩ := bind_eq_ok.mp h
  have hall : List.Forall₂ (fun message x => ∃ contacts,
      parseMessage service.tables wall contacts message = .ok x)
        ((valuesOf payload).flatMap messagesIn) xss.flatten := by
    rw [List.flatMap_def]
    refine List.rel_flatten (List.forall₂_map_left_iff.mpr ?_)
    exact (mapM_eq_ok.mp hxss).imp fun _ _ hxs => forall₂_parseValue hxs
  rw [← Except.ok.inj hresult]
  exact fresh_valid_iff hall s.seen

theorem not_orderly {answer : Except Exn ℕ × State} {exc : Exn} (h : answer.1 = .error exc)
    (hexc : Internal exc) : ¬Orderly s answer := by
  rintro (⟨n, hn⟩ | ⟨⟨text, htext⟩, -⟩)
  · rw [h] at hn
    cases hn
  · rw [h] at htext
    rw [Except.error.inj htext] at hexc
    exact hexc

/-- **Which bodies with a valid signature are orderly.** -/
theorem orderly_iff {rawBody : Bytes} {header : Option String} {wall : Json → Instant}
    {handling : ℕ → Handling}
    (hvalid : isValidSignature rawBody header service.appSecret = .ok true)
    (hserved : service.AtAccept (Served service) s (.receive rawBody header now wall handling)) :
    Orderly s (service.receive rawBody header now wall handling s) ↔ Sound service s rawBody := by
  unfold Sound
  cases hloads : service.loads rawBody with
  | error exc =>
    rw [receive_error (messagesOf_unread hvalid hloads)]
    cases exc with
    | jsonDecode text | invalidPayload text =>
      exact iff_of_true (.inr ⟨⟨text, rfl⟩, rfl, rfl⟩) trivial
    | _ => exact iff_of_false (not_orderly rfl trivial) id
  | ok payload =>
    dsimp only
    cases hparse : parseWebhook service.tables wall payload with
    | error exc =>
      rw [receive_error (messagesOf_unparsed hvalid hloads hparse)]
      refine iff_of_false (not_orderly rfl (raises_parseWebhook payload exc hparse)) fun h => ?_
      obtain ⟨result, hresult⟩ : Succeeds (parseWebhook service.tables wall payload) :=
        succeeds_parseWebhook.mpr h.1
      rw [hparse] at hresult
      cases hresult
    | ok result =>
      have hmessages : service.messagesOf rawBody header wall = .ok result.messages :=
        IngestionService.messagesOf_eq_ok.mpr ⟨hvalid, payload, hloads, result, hparse, rfl⟩
      unfold IngestionService.AtAccept at hserved
      dsimp only at hserved
      rw [hmessages] at hserved
      obtain ⟨hiff, hraises⟩ := acceptAll_served hserved
      rw [IngestionService.receive_eq hmessages,
        and_iff_right (succeeds_parseWebhook.mp ⟨result, hparse⟩), ← fresh_parsed_iff hparse s,
        ← hiff]
      constructor
      · rintro (h | ⟨⟨text, htext⟩, -⟩)
        · exact h
        · exact absurd (hraises _ htext) id
      · exact .inl

end receiving

/-- **Malformed payloads are skipped or refused** exactly as far as these conditions say: for a body
that is received, for a payload that is parsed, and for the messages beside a malformed one. -/
theorem skipped_or_refused_iff (service : IngestionService) :
    (∀ s rawBody header now wall handling,
      isValidSignature rawBody header service.appSecret = .ok true →
        service.AtAccept (Served service) s (.receive rawBody header now wall handling) →
          (Orderly s (service.receive rawBody header now wall handling s) ↔
            Sound service s rawBody)) ∧
      (∀ wall payload, Succeeds (parseWebhook service.tables wall payload) ↔
        WellFormed service.tables payload) ∧
      ∀ wall payload payload', Containers payload → Purged service.tables payload payload' →
        ((∃ result result', parseWebhook service.tables wall payload = .ok result ∧
          parseWebhook service.tables wall payload' = .ok result' ∧
            result.messages = result'.messages) ↔ MessagesOk service.tables payload) :=
  ⟨fun _ _ _ _ _ _ hvalid hserved => orderly_iff hvalid hserved, fun _ _ => succeeds_parseWebhook,
    fun _ _ _ hcontainers hpurged => parseWebhook_purged hcontainers hpurged⟩

/-! ### A timestamp that is out of range -/

namespace Sample

open Orchestrator.Sample

/-- A message with a timestamp, and one without a type. -/
def stamped (timestamp : String) : Json :=
  webhook [.obj [("id", .str "wamid.1"), ("from", .str "15551230000"),
    ("timestamp", .str timestamp), ("type", .str "text"),
    ("text", .obj [("body", .str "How much for a deck?")])], .obj [("id", .str "wamid.2")]]

/-- The same payload without the message that has no type. -/
def stampedOnly (timestamp : String) : Json :=
  webhook [.obj [("id", .str "wamid.1"), ("from", .str "15551230000"),
    ("timestamp", .str timestamp), ("type", .str "text"),
    ("text", .obj [("body", .str "How much for a deck?")])]]

/-- A service that receives both payloads. -/
def stampService : IngestionService :=
  service [("late", stamped "99999999999999999999"), ("now", stamped "1781179200")]

theorem messagesOf_now (wall : Json → Instant) :
    stampService.messagesOf (utf8 "now") (signed "now") wall =
    .ok [parsedText "wamid.1" "15551230000"] :=
  messagesOf_signed (P := stamped "1781179200")
    (R := ⟨[parsedText "wamid.1" "15551230000"], ["None"]⟩) rfl rfl rfl

theorem containers_stamped (t : String) : Containers (stamped t) where
  isObj := rfl
  iterable := rfl
  entries entry h := by
    obtain rfl := List.mem_singleton.mp h
    refine ⟨rfl, rfl, fun change hchange => ?_⟩
    obtain rfl := List.mem_singleton.mp hchange
    rfl
  contacts value h := by
    obtain rfl := List.mem_singleton.mp h
    exact ⟨rfl, fun contact hcontact => by cases hcontact⟩
  messages value h := by
    obtain rfl := List.mem_singleton.mp h
    rfl

theorem messagesOk_stamped : MessagesOk asciiTables (stamped "1781179200") := by
  intro value hvalue message hmessage
  obtain rfl := List.mem_singleton.mp hvalue
  rcases List.mem_cons.mp hmessage with rfl | hmessage
  · rfl
  · obtain rfl := List.mem_singleton.mp hmessage
    rfl

theorem purged_stamped : Purged asciiTables (stamped "1781179200") (stampedOnly "1781179200") :=
  rfl

theorem served_now (now : Instant) (wall : Json → Instant) :
    stampService.AtAccept (Served stampService) State.initial
      (.receive (utf8 "now") (signed "now") now wall fun _ => handling) := by
  unfold IngestionService.AtAccept
  dsimp only
  rw [messagesOf_now]
  dsimp only
  rw [IngestionService.AtAcceptAll, if_neg (show (parsedText "wamid.1" "15551230000").whatsappId ∉
    State.initial.seen from Finset.notMem_empty _)]
  refine ⟨fun bucket hdue => ?_, ?_⟩
  · cases hdue
  · split <;> trivial

end Sample

open Sample Orchestrator.Sample in
/-- A timestamp of twenty digits ends the payload with an exception of its own. -/
theorem late_timestamp_fatal :
    ¬Orderly State.initial (stampService.receive (utf8 "late") (signed "late") start
        (fun _ => start) (fun _ => handling) State.initial) ∧
      ¬Succeeds (parseWebhook asciiTables (fun _ => start) (stamped "99999999999999999999")) := by
  have hparse : parseWebhook asciiTables (fun _ => start) (stamped "99999999999999999999") =
      .error (.overflowError "timestamp out of range for platform time_t") := rfl
  have hloads : stampService.loads (utf8 "late") = .ok (stamped "99999999999999999999") := rfl
  constructor
  · rw [receive_error (messagesOf_unparsed (isValidSignature_service rfl "late") hloads
      hparse)]
    exact not_orderly rfl trivial
  · rw [hparse]
    exact not_succeeds_error _

seal IngestionService.AtAccept in
open Sample Orchestrator.Sample in
/-- The same payload with a timestamp within range. -/
theorem skipped_or_refused_iff_stamped :
    Orderly State.initial (stampService.receive (utf8 "now") (signed "now") start
        (fun _ => start) (fun _ => handling) State.initial) ∧
      Succeeds (parseWebhook asciiTables (fun _ => start) (stamped "1781179200")) ∧
      ∃ result result',
        parseWebhook asciiTables (fun _ => start) (stamped "1781179200") = .ok result ∧
          parseWebhook asciiTables (fun _ => start) (stampedOnly "1781179200") = .ok result' ∧
            result.messages = result'.messages := by
  obtain ⟨hreceive, hparse, hpurge⟩ := skipped_or_refused_iff stampService
  have hloads : stampService.loads (utf8 "now") = .ok (stamped "1781179200") := rfl
  have hwell : WellFormed asciiTables (stamped "1781179200") :=
    ⟨containers_stamped _, messagesOk_stamped⟩
  have hvalid : isValidSignature (utf8 "now") (signed "now") stampService.appSecret = .ok true :=
    isValidSignature_service rfl "now"
  have hone := hreceive State.initial (utf8 "now") (signed "now") start (fun _ => start)
    (fun _ => handling) hvalid
  refine ⟨(hone (served_now start _)).mpr ?_, (hparse _ _).mpr hwell,
    (hpurge _ _ _ (containers_stamped _) purged_stamped).mpr messagesOk_stamped⟩
  unfold Sound
  rw [hloads]
  refine ⟨hwell, fun message hmessage => ?_⟩
  rcases List.mem_cons.mp hmessage with rfl | hmessage
  · rfl
  · obtain rfl := List.mem_singleton.mp hmessage
    rfl

end WappPlanner.Ingestion
