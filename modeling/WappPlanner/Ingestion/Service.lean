import WappPlanner.Ingestion.ClientRegistry
import WappPlanner.Ingestion.MediaDownloader
import WappPlanner.Ingestion.Parser
import WappPlanner.Ingestion.Signature
import WappPlanner.Orchestrator.Runs

/-! # The ingestion service

`ingestion/service.py`: from a webhook body to the orchestrator. `receive` claims each message id,
keeps the sender's name, downloads the media, adds the message to its bucket and processes a bucket
that the message displaces; `flushDue` pops the buckets that are due and processes them one after the
other. Both leave the state they had reached when something raises.

`Handling` is how everything outside the program behaves while one message is accepted, or one due
bucket processed; duplicates make no call. The last three fields of `State` are kept by nobody: they
list what was accepted, downloaded and handed to the orchestrator so far. -/

namespace WappPlanner.Ingestion

open WappPlanner.Aggregation WappPlanner.Domain.Models WappPlanner.Errors
open WappPlanner.Ingestion.Parser WappPlanner.Ingestion.Signature WappPlanner.Lib
open WappPlanner.Lib.Fallible WappPlanner.Orchestrator WappPlanner.Providers.Base
open WappPlanner.Py.Text WappPlanner.Py.Values

def unknownClientFlag : String := "unknown_client"

def defaultMime : String := "application/octet-stream"

/-- The configuration and the collaborators of the service. -/
structure IngestionService where
  appSecret : String
  verifyToken : String
  downloader : MediaDownloader
  windows : AggregatorConfig
  orchestrator : Config
  registry : ClientRegistry
  loads : Bytes → Except Exn Json
  tables : Tables

/-- What the service and its collaborators keep. -/
structure State where
  seen : Finset String
  aggregator : Aggregator
  names : Dict String String
  known : Dict String Bool
  world : World
  accepted : List ParsedMessage
  downloads : List (String × String)
  handed : List Batch

/-- Nothing received yet. -/
def State.initial : State :=
  ⟨∅, .fresh 0, Dict.empty, Dict.empty, World.initial, [], [], []⟩

/-- How what is outside the program behaves: the media client and `storage.put`, `storage.get`, and
what the orchestrator calls. -/
structure Handling where
  source : MediaSource
  get : (key : String) → Answer Unit
  env : External

/-- The domain message of a parsed one, which validates its fields. -/
def messageOf (parsed : ParsedMessage) (rawRef : Option String) : Except Exn Message :=
  match text? parsed.text, text? parsed.caption, text? parsed.mediaId, text? parsed.mimeType,
    text? parsed.filename with
  | some text, some caption, some mediaId, some mimeType, some filename =>
    .ok ⟨parsed.whatsappId, parsed.type, 0, parsed.timestamp, text, caption, mediaId, mimeType,
      filename, rawRef⟩
  | _, _, _, _, _ => .error (.validation "validation error for Message")

/-- The fields that a message takes over are text or absent. -/
def Parser.ParsedMessage.Valid (parsed : ParsedMessage) : Prop :=
  ∀ field ∈ [parsed.text, parsed.caption, parsed.mediaId, parsed.mimeType, parsed.filename],
    (text? field).isSome

theorem succeeds_messageOf {parsed : ParsedMessage} {rawRef : Option String} :
    Succeeds (messageOf parsed rawRef) ↔ parsed.Valid := by
  unfold messageOf Parser.ParsedMessage.Valid
  simp only [List.forall_mem_cons, List.not_mem_nil, false_implies, implies_true, and_true]
  constructor
  · intro h
    split at h
    · simp_all
    · exact absurd h (not_succeeds_error _)
  · rintro ⟨ht, hc, hi, hm, hf⟩
    obtain ⟨text, ht⟩ := Option.isSome_iff_exists.mp ht
    obtain ⟨caption, hc⟩ := Option.isSome_iff_exists.mp hc
    obtain ⟨mediaId, hi⟩ := Option.isSome_iff_exists.mp hi
    obtain ⟨mimeType, hm⟩ := Option.isSome_iff_exists.mp hm
    obtain ⟨filename, hf⟩ := Option.isSome_iff_exists.mp hf
    rw [ht, hc, hi, hm, hf]
    exact succeeds_ok _

theorem messageOf_eq {parsed : ParsedMessage} {rawRef : Option String} {message : Message}
    (h : messageOf parsed rawRef = .ok message) :
    message.id = parsed.whatsappId ∧ message.rawRef = rawRef := by
  unfold messageOf at h
  split at h
  · rw [← Except.ok.inj h]
    exact ⟨rfl, rfl⟩
  · cases h

namespace State

variable (s : State)

/-- The state after a message id was claimed. -/
def claim (parsed : ParsedMessage) : State :=
  { s with seen := insert parsed.whatsappId s.seen, accepted := s.accepted ++ [parsed] }

/-- The state after the sender of a message was looked up. -/
def resolved (registry : ClientRegistry) (parsed : ParsedMessage) : State :=
  let (clientId, clientName, known) := registry.resolve parsed.sender
  { s with names := s.names.set clientId clientName, known := s.known.set clientId known }

def withAggregator (aggregator : Aggregator) : State := { s with aggregator := aggregator }

/-- The state after a download. -/
def downloaded (messageId mediaId : String) (world : World) : State :=
  { s with world := world, downloads := s.downloads ++ [(messageId, mediaId)] }

/-- The state after the orchestrator was called with a batch. -/
def ingested (batch : Batch) (world : World) : State :=
  { s with world := world, handed := s.handed ++ [batch] }

end State

namespace IngestionService

variable (service : IngestionService)

/-- Handle the verification handshake. -/
def verifySubscription (mode token : Option String) (challenge : String) : Except Exn String :=
  Signature.verifySubscription mode token challenge service.verifyToken

/-- Download the media of a message; the answer is the key it is stored under. A media id that is no
string reaches the media client as it is printed. -/
def download (handling : Handling) (parsed : ParsedMessage) (s : State) : Option String × State :=
  if parsed.mediaId.isNone || parsed.type = .text then (none, s)
  else
    let mediaId := str service.tables parsed.mediaId
    let (stored, world) := service.downloader.fetchAndStore service.tables
      service.orchestrator.storageRef handling.source "inbound" parsed.whatsappId mediaId s.world
    let s := s.downloaded parsed.whatsappId mediaId world
    match stored with
    | .ok media => (some media.key, s)
    | .error _ => (none, s)

/-- `storage.get`. -/
def storageGet (handling : Handling) (w : World) (key : String) : Except Exn Bytes :=
  match handling.get key with
  | .error text => .error (.external text)
  | .ok () =>
    match w.storage key with
    | some (content, _) => .ok content
    | none => .error (.keyError key)

/-- The stored media of one message. -/
def mediaOf (handling : Handling) (w : World) (message : Message) :
    Except Exn (Option (String × DownloadedMedia)) :=
  match message.isMedia, message.rawRef with
  | true, some key => do
    let content ← storageGet handling w key
    let mimeType := match message.mimeType with
      | some mime => if mime = "" then defaultMime else mime
      | none => defaultMime
    return some (message.id, ⟨content, mimeType⟩)
  | _, _ => .ok none

/-- The stored media of the messages, by message id. -/
def mediaFor (handling : Handling) (w : World) (messages : List Message) :
    Except Exn (String → Option DownloadedMedia) := do
  let media ← messages.mapM (mediaOf handling w)
  return fun id => (media.filterMap (·)).reverse.lookup id

/-- What the orchestrator is handed for a closed bucket. -/
def batchOf (s : State) (aggregated : AggregatedRequest)
    (media : String → Option DownloadedMedia) (now : Instant) : Batch where
  aggregated := aggregated
  media := media
  clientName := (s.names.get aggregated.clientId).getD aggregated.clientId
  now := now
  extraFlags :=
    if (s.known.get aggregated.clientId).getD true then [] else [unknownClientFlag]

/-- Hand a closed bucket to the orchestrator. -/
def process (handling : Handling) (aggregated : AggregatedRequest) (now : Instant) (s : State) :
    Except Exn Unit × State :=
  match mediaFor handling s.world aggregated.messages with
  | .error exc => (.error exc, s)
  | .ok media =>
    let batch := batchOf s aggregated media now
    let o := outcome service.orchestrator s.world (.ingest batch handling.env)
    (o.result.map fun _ => (), s.ingested batch o.state)

/-- Put a message into its bucket, and process the bucket it displaces. -/
def addMessage (handling : Handling) (clientId : String) (message : Message) (now : Instant)
    (s : State) : Except Exn Unit × State :=
  let (displaced, aggregator) := s.aggregator.add service.windows clientId message now
  match displaced with
  | none => (.ok (), s.withAggregator aggregator)
  | some aggregated => service.process handling aggregated now (s.withAggregator aggregator)

/-- Accept a message whose id was not claimed before. -/
def accept (handling : Handling) (parsed : ParsedMessage) (now : Instant) (s : State) :
    Except Exn Unit × State :=
  let s := (s.claim parsed).resolved service.registry parsed
  let (rawRef, s) := service.download handling parsed s
  match messageOf parsed rawRef with
  | .error exc => (.error exc, s)
  | .ok message =>
    service.addMessage handling (service.registry.resolve parsed.sender).1 message now s

/-- Accept the messages of a payload that are no duplicates, until something raises. -/
def acceptAll (handling : ℕ → Handling) (now : Instant) :
    ℕ → List ParsedMessage → State → Except Exn ℕ × State
  | accepted, [], s => (.ok accepted, s)
  | accepted, parsed :: rest, s =>
    if parsed.whatsappId ∈ s.seen then acceptAll handling now accepted rest s
    else
      match service.accept (handling accepted) parsed now s with
      | (.ok (), s') => acceptAll handling now (accepted + 1) rest s'
      | (.error exc, s') => (.error exc, s')

/-- The payload of a body. -/
def payloadOf (rawBody : Bytes) : Except Exn Json :=
  match service.loads rawBody with
  | .error (.jsonDecode text) => .error (.invalidPayload text)
  | answer => answer

/-- The messages of a body. -/
def messagesOf (rawBody : Bytes) (signatureHeader : Option String) (wall : Json → Instant) :
    Except Exn (List ParsedMessage) := do
  if ← isValidSignature rawBody signatureHeader service.appSecret then
    let payload ← service.payloadOf rawBody
    return (← parseWebhook service.tables wall payload).messages
  else .error (.signature "invalid webhook signature")

/-- Validate, parse and ingest a webhook body; the answer is the number of accepted messages. -/
def receive (rawBody : Bytes) (signatureHeader : Option String) (now : Instant)
    (wall : Json → Instant) (handling : ℕ → Handling) (s : State) : Except Exn ℕ × State :=
  match service.messagesOf rawBody signatureHeader wall with
  | .error exc => (.error exc, s)
  | .ok messages => service.acceptAll handling now 0 messages s

/-- Process closed buckets in order, until something raises. -/
def processAll (handling : ℕ → Handling) (now : Instant) :
    ℕ → List AggregatedRequest → State → Except Exn ℕ × State
  | processed, [], s => (.ok processed, s)
  | processed, aggregated :: rest, s =>
    match service.process (handling processed) aggregated now s with
    | (.ok (), s') => processAll handling now (processed + 1) rest s'
    | (.error exc, s') => (.error exc, s')

/-- Pop and process the buckets whose window has closed; the answer is their number. -/
def flushDue (now : Instant) (handling : ℕ → Handling) (s : State) : Except Exn ℕ × State :=
  let (due, aggregator) := s.aggregator.flushDue service.windows now
  service.processAll handling now 0 due (s.withAggregator aggregator)

end IngestionService

/-- A call of the service, with what it meets. -/
inductive Input
  | receive (rawBody : Bytes) (signatureHeader : Option String) (now : Instant)
      (wall : Json → Instant) (handling : ℕ → Handling)
  | flushDue (now : Instant) (handling : ℕ → Handling)

namespace IngestionService

variable (service : IngestionService)

/-- What a call returns or raises, and the state it leaves. -/
def answer (s : State) : Input → Except Exn ℕ × State
  | .receive rawBody signatureHeader now wall handling =>
    service.receive rawBody signatureHeader now wall handling s
  | .flushDue now handling => service.flushDue now handling s

/-- The state a call leaves, whether it returns or raises. -/
def step (s : State) (input : Input) : State := (service.answer s input).2

end IngestionService

/-! ### What each function leaves alone -/

namespace IngestionService

variable (service : IngestionService) (handling : Handling) (s : State) (now : Instant)

section process

variable (aggregated : AggregatedRequest)

@[simp] theorem process_seen : (service.process handling aggregated now s).2.seen = s.seen := by
  unfold process
  split <;> rfl

@[simp] theorem process_aggregator :
    (service.process handling aggregated now s).2.aggregator = s.aggregator := by
  unfold process
  split <;> rfl

@[simp] theorem process_names : (service.process handling aggregated now s).2.names = s.names := by
  unfold process
  split <;> rfl

@[simp] theorem process_known : (service.process handling aggregated now s).2.known = s.known := by
  unfold process
  split <;> rfl

@[simp] theorem process_accepted :
    (service.process handling aggregated now s).2.accepted = s.accepted := by
  unfold process
  split <;> rfl

end process

section addMessage

variable (clientId : String) (message : Message)

@[simp] theorem addMessage_seen :
    (service.addMessage handling clientId message now s).2.seen = s.seen := by
  unfold addMessage
  dsimp only
  split
  · rfl
  · rw [process_seen]
    rfl

end addMessage

section download

variable (parsed : ParsedMessage)

theorem download_eq : ∃ world downloads, (service.download handling parsed s).2 =
    { s with world := world, downloads := downloads } := by
  unfold download
  split
  · exact ⟨_, _, rfl⟩
  · dsimp only
    split <;> exact ⟨_, _, rfl⟩

@[simp] theorem download_seen : (service.download handling parsed s).2.seen = s.seen := by
  obtain ⟨world, downloads, h⟩ := download_eq service handling s parsed
  rw [h]

@[simp] theorem download_aggregator :
    (service.download handling parsed s).2.aggregator = s.aggregator := by
  obtain ⟨world, downloads, h⟩ := download_eq service handling s parsed
  rw [h]

theorem download_world : (service.download handling parsed s).2.world = s.world ∨
    ∃ key content mime, (service.download handling parsed s).2.world =
      s.world.stored key content mime := by
  have h := service.downloader.fetchAndStore_world service.tables
    service.orchestrator.storageRef handling.source "inbound" parsed.whatsappId
    (str service.tables parsed.mediaId) s.world
  unfold download
  split
  · exact .inl rfl
  · have hworld : ∀ (t : State), t.world = (service.downloader.fetchAndStore service.tables
        service.orchestrator.storageRef handling.source "inbound" parsed.whatsappId
        (str service.tables parsed.mediaId) s.world).2 →
          t.world = s.world ∨ ∃ key content mime, t.world = s.world.stored key content mime := by
      intro t ht
      rw [ht]
      rcases h with h | ⟨content, mime, h⟩
      · exact .inl h
      · exact .inr ⟨_, content, mime, h⟩
    dsimp only
    split
    · exact hworld _ rfl
    · exact hworld _ rfl

theorem download_stored {key : String} (h : (service.download handling parsed s).1 = some key) :
    ((service.download handling parsed s).2.world.storage key).isSome := by
  revert h
  unfold download
  split
  · intro h
    cases h
  · dsimp only
    split
    · rename_i media hmedia
      intro h
      obtain ⟨content, mime, hworld⟩ := service.downloader.fetchAndStore_ok service.tables hmedia
      rw [← Option.some.inj h]
      change ((service.downloader.fetchAndStore _ _ _ _ _ _ _).2.storage media.key).isSome
      rw [hworld]
      simp [World.stored]
    · intro h
      cases h

/-- **Accepting a message claims its id**, whatever happens then. -/
theorem accept_seen :
    (service.accept handling parsed now s).2.seen = insert parsed.whatsappId s.seen := by
  unfold accept
  dsimp only
  split
  · rw [download_seen]
    rfl
  · rw [addMessage_seen, download_seen]
    rfl

end download

/-! ### Bodies -/

section bodies

variable {service s now} {rawBody : Bytes} {header : Option String} {wall : Json → Instant}
  {handling : ℕ → Handling} {messages : List ParsedMessage}

theorem messagesOf_eq_ok : service.messagesOf rawBody header wall = .ok messages ↔
      isValidSignature rawBody header service.appSecret = .ok true ∧
        ∃ payload, service.loads rawBody = .ok payload ∧
          ∃ result, parseWebhook service.tables wall payload = .ok result ∧
            result.messages = messages := by
  have hpayload : ∀ payload, service.payloadOf rawBody = .ok payload ↔
      service.loads rawBody = .ok payload := by
    intro payload
    unfold payloadOf
    split
    · rename_i hloads
      rw [hloads]
      exact iff_of_false (fun h => by cases h) fun h => by cases h
    · exact Iff.rfl
  unfold messagesOf
  simp only [← hpayload]
  rw [bind_eq_ok]
  constructor
  · rintro ⟨valid, hvalid, h⟩
    split_ifs at h with hv
    obtain ⟨payload, hpayload, h⟩ := bind_eq_ok.mp h
    obtain ⟨result, hresult, h⟩ := bind_eq_ok.mp h
    exact ⟨hv ▸ hvalid, payload, hpayload, result, hresult, Except.ok.inj h⟩
  · rintro ⟨hvalid, payload, hpayload, result, hresult, rfl⟩
    refine ⟨true, hvalid, ?_⟩
    rw [if_pos rfl]
    exact bind_eq_ok.mpr ⟨payload, hpayload, bind_eq_ok.mpr ⟨result, hresult, rfl⟩⟩

theorem receive_eq (h : service.messagesOf rawBody header wall = .ok messages) :
    service.receive rawBody header now wall handling s =
      service.acceptAll handling now 0 messages s := by
  unfold receive
  rw [h]

end bodies

/-! ### Loops -/

section loops

variable {service} {now} {handling : ℕ → Handling}

theorem processAll_seen : ∀ (n : ℕ) (due : List AggregatedRequest) (s : State),
    (service.processAll handling now n due s).2.seen = s.seen
  | _, [], _ => rfl
  | n, aggregated :: rest, s => by
    have hprocess := process_seen service (handling n) s now aggregated
    rw [processAll]
    rcases hp : service.process (handling n) aggregated now s with ⟨_ | _, s'⟩
    · rw [hp] at hprocess
      exact hprocess
    · rw [hp] at hprocess
      exact (processAll_seen (n + 1) rest s').trans hprocess

theorem flushDue_seen (s : State) : (service.flushDue now handling s).2.seen = s.seen :=
  processAll_seen 0 _ _

variable (service now handling) in
theorem subset_acceptAll : ∀ (n : ℕ) (messages : List ParsedMessage) (s : State),
    s.seen ⊆ (service.acceptAll handling now n messages s).2.seen
  | _, [], _ => subset_rfl
  | n, parsed :: rest, s => by
    rw [acceptAll]
    split_ifs with hmem
    · exact subset_acceptAll n rest s
    · have hseen := accept_seen service (handling n) s now parsed
      have hsub : s.seen ⊆ (service.accept (handling n) parsed now s).2.seen := by
        rw [hseen]
        exact Finset.subset_insert _ _
      rcases haccept : service.accept (handling n) parsed now s with ⟨_ | _, s'⟩
      · rw [haccept] at hsub
        exact hsub
      · rw [haccept] at hsub
        exact hsub.trans (subset_acceptAll (n + 1) rest s')

/-- **Claims stay**, whether a call returns or raises. -/
theorem subset_step (s : State) (input : Input) : s.seen ⊆ (service.step s input).seen := by
  cases input with
  | flushDue now handling => exact (flushDue_seen s).symm.subset
  | receive rawBody signatureHeader now wall handling =>
    unfold step answer receive
    dsimp only
    split
    · exact subset_rfl
    · exact subset_acceptAll service now handling 0 _ s

/-- **A body that was received** has all its ids claimed. -/
theorem seen_of_acceptAll : ∀ {n k : ℕ} {messages : List ParsedMessage} {s s' : State},
    service.acceptAll handling now n messages s = (.ok k, s') →
      ∀ parsed ∈ messages, parsed.whatsappId ∈ s'.seen
  | _, _, [], _, _, _, parsed, hparsed => by cases hparsed
  | n, k, message :: rest, s, s', h, parsed, hparsed => by
    rw [acceptAll] at h
    split_ifs at h with hmem
    · rcases List.mem_cons.mp hparsed with rfl | hrest
      · have hsub := subset_acceptAll service now handling n rest s
        rw [h] at hsub
        exact hsub hmem
      · exact seen_of_acceptAll h parsed hrest
    · have hseen := accept_seen service (handling n) s now message
      rcases haccept : service.accept (handling n) message now s with ⟨_ | _, s₁⟩
      · rw [haccept] at h
        cases h
      · rw [haccept] at h hseen
        rcases List.mem_cons.mp hparsed with rfl | hrest
        · have hsub := subset_acceptAll service now handling (n + 1) rest s₁
          dsimp only at h hseen
          rw [h, hseen] at hsub
          exact hsub (Finset.mem_insert_self _ _)
        · exact seen_of_acceptAll h parsed hrest

theorem acceptAll_of_seen : ∀ {n : ℕ} {messages : List ParsedMessage} {s : State},
    (∀ parsed ∈ messages, parsed.whatsappId ∈ s.seen) →
      service.acceptAll handling now n messages s = (.ok n, s)
  | _, [], _, _ => rfl
  | n, parsed :: rest, s, h => by
    rw [acceptAll, if_pos (h parsed List.mem_cons_self)]
    exact acceptAll_of_seen fun p hp => h p (List.mem_cons_of_mem _ hp)

end loops

end IngestionService

/-! ### A small instance -/

namespace Sample

open WappPlanner.Orchestrator.Sample

/-- Interpreter tables that know the ASCII digits. -/
def asciiTables : Tables where
  printable _ := true
  space c := c = ' '
  decimal c := if c.isDigit then some (c.toNat - 48) else none
  floatRepr _ := "nan"

/-- A text message with an id and a sender. -/
def textMessage (id sender : String) : Json :=
  .obj [("id", .str id), ("from", .str sender), ("timestamp", .int 1781179200),
    ("type", .str "text"), ("text", .obj [("body", .str "How much for a deck?")])]

/-- A payload with one change. -/
def webhook (messages : List Json) : Json :=
  .obj [("entry", .arr [.obj [("changes", .arr [.obj [("value",
    .obj [("messages", .arr messages)])]])]])]

/-- A service that knows Ana, and reads the listed bodies. -/
def service (bodies : List (String × Json)) : IngestionService where
  appSecret := "secret"
  verifyToken := "verify-token"
  downloader := ⟨1000, defaultAllowedMimePrefixes⟩
  windows := ⟨90, 600, fun n => "req-" ++ natText n⟩
  orchestrator := config codec false
  registry := .ofClients [⟨"ana", "Ana", ["15551230000"]⟩]
  loads rawBody :=
    match bodies.find? fun body => utf8 body.1 = rawBody with
    | some body => .ok body.2
    | none => .error (.jsonDecode "Expecting value: line 1 column 1 (char 0)")
  tables := asciiTables

/-- The header that signs a body. -/
def signed (body : String) : Option String :=
  some (signaturePrefix ++ digest (utf8 body) "secret")

theorem isValidSignature_signed (body : String) :
    isValidSignature (utf8 body) (signed body) "secret" = .ok true :=
  (isValidSignature_sha256 _).trans (Hitl.Tokens.compareDigest_hex _)

/-- A text message as it is parsed. -/
def parsedText (id sender : String) : ParsedMessage :=
  ⟨id, sender, none, .text, seconds 1781179200, .str "How much for a deck?", .null, .null, .null,
    .null⟩

/-- Every external call succeeds. -/
def handling : Handling where
  source := ⟨fun _ => .ok ⟨utf8 "JPEG", "image/jpeg"⟩, fun _ => .ok ()⟩
  get _ := .ok ()
  env := external (classifierText .executionPlan)

/-- A signed body is received, and every external call succeeds. -/
def received (body : String) (now : Instant) : Input :=
  .receive (utf8 body) (signed body) now (fun _ => now) fun _ => handling

section signed

variable {service : IngestionService} {body : String} {P : Json} {R : ParseResult}

theorem isValidSignature_service (hsecret : service.appSecret = "secret") (body : String) :
    isValidSignature (utf8 body) (signed body) service.appSecret = .ok true :=
  hsecret ▸ isValidSignature_signed body

theorem messagesOf_signed {wall : Json → Instant} (hsecret : service.appSecret = "secret")
    (hloads : service.loads (utf8 body) = .ok P)
    (hparse : parseWebhook service.tables wall P = .ok R) :
    service.messagesOf (utf8 body) (signed body) wall = .ok R.messages :=
  IngestionService.messagesOf_eq_ok.mpr
    ⟨isValidSignature_service hsecret body, P, hloads, R, hparse, rfl⟩

theorem answer_received {now : Instant} (hsecret : service.appSecret = "secret")
    (hloads : service.loads (utf8 body) = .ok P)
    (hparse : parseWebhook service.tables (fun _ => now) P = .ok R) (s : State) :
    service.answer s (received body now) =
      service.acceptAll (fun _ => handling) now 0 R.messages s := by
  unfold IngestionService.answer received
  exact IngestionService.receive_eq (messagesOf_signed hsecret hloads hparse)

end signed

end Sample

end WappPlanner.Ingestion
