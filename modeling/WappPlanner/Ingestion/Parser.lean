import WappPlanner.Lib.Fallible
import WappPlanner.Py.Text

/-! # Webhook payloads

`ingestion/parser.py`: the nested `entry[].changes[].value.messages[]` of a webhook body as a flat
list of messages. A payload is any JSON value, so every access may meet a value of another type than
the program expects; what raises there raises out of `parseWebhook`. The wall clock, which stands in
for a timestamp that is no number, is read per message object. -/

namespace WappPlanner.Ingestion.Parser

open WappPlanner.Errors WappPlanner.Py.Text WappPlanner.Py.Values WappPlanner.Workflow.Enums

/-! ### Python on decoded JSON -/

/-- The fields of an object. -/
abbrev Fields := List (String × Json)

/-- `d.get(key, default)`. -/
def item (fields : Fields) (key : String) (default : Json) : Json :=
  (fields.lookup key).getD default

/-- `x.get(key, default)`, which only a dictionary has. -/
def get (x : Json) (key : String) (default : Json) : Except Exn Json :=
  match x with
  | .obj fields => .ok (item fields key default)
  | x => .error (.attributeError ("'" ++ x.typeName ++ "' object has no attribute 'get'"))

/-- What a loop over a value goes through: the members of a list, the keys of a dictionary, the
characters of a string. -/
def iter : Json → Except Exn (List Json)
  | .arr items => .ok items
  | .obj fields => .ok (fields.map fun e => .str e.1)
  | .str s => .ok (s.toList.map fun c => .str (String.singleton c))
  | x => .error (.typeError ("'" ++ x.typeName ++ "' object is not iterable"))

/-- The most digits `int` reads from a string. -/
def maxDigits : ℕ := 4300

/-- `int(x)`. -/
def intOf (T : Tables) : Json → Except Exn ℤ
  | .bool b => .ok (if b then 1 else 0)
  | .int n => .ok n
  | .float (.finite q) => .ok (q.num.tdiv q.den)
  | .float .negZero => .ok 0
  | .float (.inf _) => .error (.overflowError "cannot convert float infinity to integer")
  | .float .nan => .error (.valueError "cannot convert float NaN to integer")
  | .str s =>
    if maxDigits < s.toList.countP fun c => (T.decimal c).isSome then
      .error (.valueError "Exceeds the limit (4300 digits) for integer string conversion")
    else
      match intOfText T s with
      | some n => .ok n
      | none => .error (.valueError ("invalid literal for int() with base 10: " ++ reprText T s))
  | x => .error (.typeError ("int() argument must be a string, a bytes-like object or a real " ++
      "number, not '" ++ x.typeName ++ "'"))

/-- `datetime.fromtimestamp(n, tz=UTC)`: the number must fit in 64 bits, its year in 32, and the
year must be one that a `datetime` has. -/
def fromTimestamp (n : ℤ) : Except Exn Instant :=
  if n < -2 ^ 63 ∨ 2 ^ 63 ≤ n then
    .error (.overflowError "timestamp out of range for platform time_t")
  else if n < -67768040609740800 ∨ 67768036191676799 < n then
    .error (.osError "[Errno 75] Value too large for defined data type")
  else if n < -62135596800 ∨ 253402300799 < n then
    .error (.valueError ("year " ++ intText (civil (n / 86400)).1 ++ " is out of range"))
  else .ok (seconds n)

/-- A field that must be text or absent. -/
def text? : Json → Option (Option String)
  | .null => some none
  | .str s => some (some s)
  | _ => none

/-! ### Messages -/

/-- A single inbound message. The last five fields are assigned after validation, so they hold
whatever the payload has there. -/
structure ParsedMessage where
  whatsappId : String
  sender : String
  senderName : Option String
  type : MessageType
  timestamp : Instant
  text : Json
  caption : Json
  mediaId : Json
  mimeType : Json
  filename : Json

/-- Outcome of parsing one webhook body. -/
structure ParseResult where
  messages : List ParsedMessage
  skippedTypes : List String

/-- The type string of a message and its type; a voice note is an audio message with a flag. -/
def typeMap : List (String × MessageType) :=
  [("text", .text), ("audio", .audio), ("image", .image), ("video", .video),
    ("document", .document)]

variable (T : Tables)

def timestamp (wall : Instant) (raw : Json) : Except Exn Instant :=
  match intOf T raw >>= fromTimestamp with
  | .error (.typeError _) => .ok wall
  | .error (.valueError _) => .ok wall
  | answer => answer

def resolveType (message : Fields) : Option MessageType :=
  match item message "type" .null with
  | .str rawType =>
    match rawType == "audio", item message "audio" .null with
    | true, .obj audio =>
      match item audio "voice" .null with
      | .bool true => some .voice
      | _ => some .audio
    | _, _ => typeMap.lookup rawType
  | _ => none

/-- The sender of a message. -/
def senderOf (message : Fields) : String := str T (item message "from" (.str ""))

/-- The profile name of a sender. -/
def nameOf (contacts : List (String × Json)) (sender : String) : Json :=
  (contacts.reverse.lookup sender).getD .null

/-- The key of the object with the content of a message. -/
def contentKey : MessageType → String
  | .voice => "audio"
  | mtype => mtype.value

/-- The object with the content of a message. -/
def contentOf (message : Fields) (mtype : MessageType) : Json :=
  (item message (contentKey mtype) .null).or (.obj [])

def buildMessage (wall : Instant) (message : Fields) (id : Json) (mtype : MessageType)
    (contacts : List (String × Json)) : Except Exn ParsedMessage := do
  let sender := senderOf T message
  let timestamp ← timestamp T wall (item message "timestamp" .null)
  match text? (nameOf contacts sender) with
  | none => .error (.validation "1 validation error for ParsedMessage")
  | some senderName =>
    let parsed : ParsedMessage :=
      { whatsappId := str T id, sender, senderName, type := mtype, timestamp
        text := .null, caption := .null, mediaId := .null, mimeType := .null, filename := .null }
    let content := contentOf message mtype
    if mtype = .text then
      return { parsed with text := ← get content "body" .null }
    else
      return { parsed with
        caption := ← get content "caption" .null
        mediaId := ← get content "id" .null
        mimeType := ← get content "mime_type" .null
        filename := ← get content "filename" .null }

/-- A message object, or the type under which it is skipped. -/
def parseMessage (wall : Json → Instant) (contacts : List (String × Json)) (message : Json) :
    Except Exn (ParsedMessage ⊕ String) :=
  match message with
  | .obj fields =>
    match fields.lookup "id", resolveType fields with
    | some id, some mtype =>
      Sum.inl <$> buildMessage T (wall message) fields id mtype contacts
    | _, _ => .ok (.inr (str T (item fields "type" .null)))
  | message => .ok (.inr (str T message))

/-! ### Payloads -/

/-- The values of the changes of an entry that are objects. -/
def entryValues (entry : Json) : Except Exn (List Fields) := do
  let changes ← iter (← get entry "changes" (.arr []))
  let values ← changes.mapM fun change => get change "value" .null
  return values.filterMap fun
    | .obj fields => some fields
    | _ => none

def iterValues (payload : Json) : Except Exn (List Fields) := do
  let entries ← iter (← get payload "entry" (.arr []))
  return (← entries.mapM entryValues).flatten

/-- The profile name of one contact, under its `wa_id`. -/
def contactEntry (contact : Json) : Except Exn (Option (String × Json)) :=
  match contact with
  | .obj fields =>
    let waId := item fields "wa_id" .null
    if waId.isNone then .ok none
    else do
      let name ← get ((item fields "profile" .null).or (.obj [])) "name" .null
      return some (str T waId, name)
  | _ => .ok none

/-- The profile names of the contacts, in order; of two under one `wa_id` the later one counts. -/
def contactsOf (value : Fields) : Except Exn (List (String × Json)) := do
  let contacts ← iter (item value "contacts" (.arr []))
  return (← contacts.mapM (contactEntry T)).filterMap id

/-- The message objects of a value, each parsed or skipped. -/
def parseValue (wall : Json → Instant) (value : Fields) :
    Except Exn (List (ParsedMessage ⊕ String)) := do
  let contacts ← contactsOf T value
  let messages ← iter (item value "messages" (.arr []))
  messages.mapM (parseMessage T wall contacts)

/-- Parse a webhook body into supported messages and a list of skipped types. -/
def parseWebhook (wall : Json → Instant) (payload : Json) : Except Exn ParseResult := do
  let values ← iterValues payload
  let parsed := (← values.mapM (parseValue T wall)).flatten
  return ⟨parsed.filterMap Sum.getLeft?, parsed.filterMap Sum.getRight?⟩

end WappPlanner.Ingestion.Parser
