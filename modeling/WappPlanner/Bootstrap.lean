import WappPlanner.Ingestion.Service
import WappPlanner.Orchestrator.Links

/-! # The composition root

`bootstrap.py`: the services, assembled from settings and secrets. `Platform` holds what the services
take from the standard library and from pydantic.

The signer of owner links and the webhook check are given the one app secret, and both sign bytes with
HMAC-SHA256, so the signature of a link is a valid webhook signature of the link's first part
(`isValidSignature_link`). What is refused is the body: it is base64 of an object, which is no JSON
(`link_as_webhook`). -/

namespace WappPlanner.Bootstrap

open WappPlanner.Aggregation WappPlanner.Documents.Generation WappPlanner.Domain.Enums
open WappPlanner.Domain.Models WappPlanner.Errors WappPlanner.Hitl.Service
open WappPlanner.Hitl.Tokens WappPlanner.Ingestion WappPlanner.Ingestion.Parser
open WappPlanner.Ingestion.Signature WappPlanner.Lib WappPlanner.Nlp.Classification
open WappPlanner.Orchestrator WappPlanner.Orchestrator.Links WappPlanner.Py.Text
open WappPlanner.Py.Values WappPlanner.Workflow.Enums

/-- The operational settings that the services read. -/
structure Settings where
  aggregationInactivitySeconds : ℤ
  aggregationMaxDurationSeconds : ℤ
  classificationConfidenceThreshold : Fraction
  notifyOnNone : Bool
  notifyChannel : Channel
  deliverChannel : Channel
  ownerEmail : Option String
  ownerWhatsapp : Option String
  llmModel : String
  transcriptionModel : String
  visionModel : String
  promptVersion : String
  maxMediaBytes : ℤ
  publicBaseUrl : String

/-- The secrets that the services read. -/
structure Secrets where
  whatsappVerifyToken : String
  whatsappAppSecret : String

/-- `json`, the schemas and the interpreter's tables, and the references of the storage provider. -/
structure Platform where
  tokenCodec : TokenCodec
  decoder : Decoder
  contentCodec : ContentCodec
  loads : Bytes → Except Exn Json
  tables : Tables
  storageRef : String → String

/-- The services the HTTP layer delegates to. -/
structure AppContext where
  ingestion : IngestionService
  notifications : NotificationService
  orchestrator : Config

/-- The lifetime of a link: seven days. -/
def defaultTtlSeconds : ℤ := 7 * 24 * 3600

def defaultVisionPrompt : String :=
  "Describe this construction/renovation photo in detail for a contractor."

/-- The address of the owner on a channel; an empty one is none. -/
def targets (settings : Settings) (channel : Channel) : Option String :=
  let address := match channel with
    | .email => settings.ownerEmail
    | .whatsapp => settings.ownerWhatsapp
    | .both => none
  address.filter (· ≠ "")

def buildApp (settings : Settings) (secrets : Secrets) (platform : Platform)
    (clients : List Client) (idFactory : ℕ → String) : AppContext :=
  let signer : TokenSigner := ⟨secrets.whatsappAppSecret, defaultTtlSeconds, platform.tokenCodec⟩
  let notifications : NotificationService :=
    { signer := signer
      dispatcher := ⟨targets settings⟩
      baseUrl := settings.publicBaseUrl
      confidenceThreshold := settings.classificationConfidenceThreshold
      notifyChannel := settings.notifyChannel
      deliverChannel := settings.deliverChannel }
  let orchestrator : Config :=
    { mediaProcessor :=
        ⟨settings.transcriptionModel, settings.visionModel, defaultVisionPrompt, 3⟩
      classifier := ⟨settings.llmModel, settings.promptVersion, platform.decoder⟩
      generator := ⟨settings.llmModel, settings.promptVersion, 3, .finite (mkRat 1 2),
        platform.contentCodec⟩
      notify := notifications
      branding := ⟨"[Company Name]", none, none, none⟩
      threshold := settings.classificationConfidenceThreshold
      notifyOnNone := settings.notifyOnNone
      storageRef := platform.storageRef }
  let ingestion : IngestionService :=
    { appSecret := secrets.whatsappAppSecret
      verifyToken := secrets.whatsappVerifyToken
      downloader := ⟨settings.maxMediaBytes, defaultAllowedMimePrefixes⟩
      windows := ⟨settings.aggregationInactivitySeconds, settings.aggregationMaxDurationSeconds,
        idFactory⟩
      orchestrator := orchestrator
      registry := .ofClients clients
      loads := platform.loads
      tables := platform.tables }
  ⟨ingestion, notifications, orchestrator⟩

/-- What is dumped is an object that begins with a field name. -/
def DumpsObject (codec : TokenCodec) : Prop :=
  ∀ token, ∃ rest, codec.modelDumpJson token = "\x7b\"" ++ rest

/-- No JSON begins with `e`. -/
def RefusesLetter (loads : Bytes → Except Exn Json) : Prop :=
  ∀ text : String, text.toList.head? = some 'e' → '\x00' ∉ text.toList →
    ∃ message, loads (utf8 text) = .error (.jsonDecode message)

/-! ### Links as webhooks -/

theorem utf8_append (s t : String) : utf8 (s ++ t) = utf8 s ++ utf8 t := by
  unfold utf8
  rw [String.toByteArray_append, ByteArray.data_append, Array.toList_append]

theorem head_stripped (bs : Bytes) : (Base64.stripped (0x7b :: 0x22 :: bs)).head? = some 'e' := by
  unfold Base64.stripped
  cases bs <;> rfl

theorem head_payload {signer : TokenSigner} (hdumps : DumpsObject signer.codec)
    (token : ActionToken) :
    (signer.payload token).toList.head? = some 'e' ∧ '\x00' ∉ (signer.payload token).toList := by
  rw [TokenSigner.toList_payload]
  obtain ⟨rest, hrest⟩ := hdumps token
  refine ⟨?_, Base64.notMem_stripped (by decide) _⟩
  rw [hrest, utf8_append]
  exact head_stripped (utf8 rest)

theorem parts_issue {signer : TokenSigner} {rid : String} {gate : OwnerInteractionKind}
    {decision : OwnerDecision} {issuedAt : Instant} {intent : Option Intent} {n : ℤ} {p s : String}
    (h : signer.issue rid gate decision issuedAt intent n = p ++ "." ++ s) :
    p = signer.payload ⟨rid, gate, decision, issuedAt + signer.ttl, intent, n⟩ ∧
      s = signer.sign p := by
  have hcount : (signer.issue rid gate decision issuedAt intent n).toList.count '.' = 1 :=
    count_dot_issue
  have hs : '.' ∉ s.toList := by
    intro hmem
    have hpos := List.count_pos_iff.mpr hmem
    have hdot : ".".toList.count '.' = 1 := rfl
    rw [h, String.toList_append, String.toList_append, List.count_append, List.count_append,
      hdot] at hcount
    omega
  obtain ⟨rfl, rfl⟩ := parts_inj (dot_notMem_hex _) hs h
  exact ⟨rfl, rfl⟩

section app

variable (settings : Settings) (secrets : Secrets) (platform : Platform) (clients : List Client)
  (idFactory : ℕ → String)

/-- **A link's signature is a valid webhook signature** of the link's first part. -/
theorem isValidSignature_link {rid : String} {gate : OwnerInteractionKind}
    {decision : OwnerDecision} {issuedAt : Instant} {intent : Option Intent} {n : ℤ} {p s : String}
    (h : (buildApp settings secrets platform clients idFactory).notifications.signer.issue rid gate
      decision issuedAt intent n = p ++ "." ++ s) :
    isValidSignature (utf8 p) (some (signaturePrefix ++ s))
      (buildApp settings secrets platform clients idFactory).ingestion.appSecret = .ok true := by
  obtain ⟨-, rfl⟩ := parts_issue h
  rw [isValidSignature_sha256]
  exact compareDigest_hex _

theorem payloadOf_link (hdumps : DumpsObject platform.tokenCodec)
    (hloads : RefusesLetter platform.loads) {rid : String} {gate : OwnerInteractionKind}
    {decision : OwnerDecision} {issuedAt : Instant} {intent : Option Intent} {n : ℤ} {p s : String}
    (h : (buildApp settings secrets platform clients idFactory).notifications.signer.issue rid gate
      decision issuedAt intent n = p ++ "." ++ s) :
    ∃ message, (buildApp settings secrets platform clients idFactory).ingestion.payloadOf (utf8 p) =
      .error (.invalidPayload message) := by
  obtain ⟨rfl, -⟩ := parts_issue h
  have hobject : DumpsObject
      (buildApp settings secrets platform clients idFactory).notifications.signer.codec := hdumps
  obtain ⟨hhead, hzero⟩ := head_payload hobject _
  obtain ⟨message, hmessage⟩ := hloads _ hhead hzero
  refine ⟨message, ?_⟩
  unfold IngestionService.payloadOf
  rw [show (buildApp settings secrets platform clients idFactory).ingestion.loads = platform.loads
    from rfl, hmessage]

variable (now : Instant) (wall : Json → Instant) (handling : ℕ → Handling) (state : State)

theorem receive_link (hdumps : DumpsObject platform.tokenCodec)
    (hloads : RefusesLetter platform.loads) {rid : String} {gate : OwnerInteractionKind}
    {decision : OwnerDecision} {issuedAt : Instant} {intent : Option Intent} {n : ℤ} {p s : String}
    (h : (buildApp settings secrets platform clients idFactory).notifications.signer.issue rid gate
      decision issuedAt intent n = p ++ "." ++ s) :
    ∃ message, (buildApp settings secrets platform clients idFactory).ingestion.receive (utf8 p)
      (some (signaturePrefix ++ s)) now wall handling state =
        (.error (.invalidPayload message), state) := by
  obtain ⟨message, hpayload⟩ :=
    payloadOf_link settings secrets platform clients idFactory hdumps hloads h
  refine ⟨message, ?_⟩
  unfold IngestionService.receive IngestionService.messagesOf
  rw [isValidSignature_link settings secrets platform clients idFactory h]
  simp only [hpayload]
  rfl

/-- **A link presented as a webhook** passes the signature check, and is refused as a payload; nothing
changes. -/
theorem link_as_webhook (hdumps : DumpsObject platform.tokenCodec)
    (hloads : RefusesLetter platform.loads) (rid : String) (gate : OwnerInteractionKind)
    (decision : OwnerDecision) (issuedAt : Instant) (intent : Option Intent) (n : ℤ) (p s : String)
    (h : (buildApp settings secrets platform clients idFactory).notifications.signer.issue rid gate
      decision issuedAt intent n = p ++ "." ++ s) :
    isValidSignature (utf8 p) (some (signaturePrefix ++ s))
        (buildApp settings secrets platform clients idFactory).ingestion.appSecret = .ok true ∧
      ∃ message, (buildApp settings secrets platform clients idFactory).ingestion.receive (utf8 p)
        (some (signaturePrefix ++ s)) now wall handling state =
          (.error (.invalidPayload message), state) :=
  ⟨isValidSignature_link settings secrets platform clients idFactory h,
    receive_link settings secrets platform clients idFactory now wall handling state hdumps hloads h⟩

end app

/-! ### A small instance -/

namespace Sample

open Orchestrator.Sample

def settings : Settings where
  aggregationInactivitySeconds := 90
  aggregationMaxDurationSeconds := 600
  classificationConfidenceThreshold := .one
  notifyOnNone := false
  notifyChannel := .email
  deliverChannel := .email
  ownerEmail := some "owner@example.com"
  ownerWhatsapp := none
  llmModel := "small"
  transcriptionModel := "whisper"
  visionModel := "vision"
  promptVersion := "v1"
  maxMediaBytes := 1000
  publicBaseUrl := "https://planner.example"

/-- A platform whose `json.loads` is asked for no JSON. -/
def platform : Platform where
  tokenCodec := codec
  decoder := decoder
  contentCodec := contentCodec
  loads _ := .error (.jsonDecode "Expecting value: line 1 column 1 (char 0)")
  tables := Ingestion.Sample.asciiTables
  storageRef key := "memory://" ++ key

/-- The small instance. -/
def app : AppContext :=
  buildApp settings ⟨"verify-token", "secret"⟩ platform [] fun n => "req-" ++ natText n

/-- The first part of the link that approves `r1`. -/
def approvalPayload : String :=
  app.notifications.signer.payload
    ⟨"r1", .approval, .approve, start + seconds defaultTtlSeconds, none, 1⟩

theorem issue_approval : app.notifications.signer.issue "r1" .approval .approve start none 1 =
    approvalPayload ++ "." ++ app.notifications.signer.sign approvalPayload := rfl

theorem dumpsObject_codec : DumpsObject codec := by
  intro token
  unfold codec tokenJson
  simp only [String.append_assoc]
  exact ⟨"request_id\":\"" ++ _, rfl⟩

end Sample

open Sample Orchestrator.Sample in
/-- The link that approves `r1`, presented as a webhook. -/
theorem link_as_webhook_approval :
    isValidSignature (utf8 approvalPayload)
        (some (signaturePrefix ++ app.notifications.signer.sign approvalPayload))
        app.ingestion.appSecret = .ok true ∧
      ∃ message, app.ingestion.receive (utf8 approvalPayload)
        (some (signaturePrefix ++ app.notifications.signer.sign approvalPayload)) start
        (fun _ => start) (fun _ => Ingestion.Sample.handling) State.initial =
          (.error (.invalidPayload message), State.initial) :=
  link_as_webhook settings ⟨"verify-token", "secret"⟩ platform [] (fun n => "req-" ++ natText n)
    start _ _ State.initial dumpsObject_codec (fun _ _ _ => ⟨_, rfl⟩) "r1" .approval .approve start
    none 1 approvalPayload _ issue_approval

open Sample Orchestrator.Sample in
/-- The signature of a link is one that a webhook may carry, so `receive` does not refuse it. -/
theorem link_not_refused :
    ¬ ∀ (settings : Settings) (secrets : Secrets) (platform : Platform) (clients : List Client)
      (idFactory : ℕ → String) (rid : String) (gate : OwnerInteractionKind)
      (decision : OwnerDecision) (issuedAt : Instant) (intent : Option Intent) (n : ℤ)
      (p s : String) (now : Instant) (wall : Json → Instant) (handling : ℕ → Handling)
      (state : State),
      let app := buildApp settings secrets platform clients idFactory
      app.notifications.signer.issue rid gate decision issuedAt intent n = p ++ "." ++ s →
        ∃ message, app.ingestion.receive (utf8 p) (some (signaturePrefix ++ s)) now wall handling
          state = (.error (.signature message), state) := by
  intro h
  obtain ⟨message, hreceive⟩ := h settings ⟨"verify-token", "secret"⟩ platform []
    (fun n => "req-" ++ natText n) "r1" .approval .approve start none 1 approvalPayload _ start
    (fun _ => start) (fun _ => Ingestion.Sample.handling) State.initial issue_approval
  obtain ⟨message', hlink⟩ := receive_link settings ⟨"verify-token", "secret"⟩ platform []
    (fun n => "req-" ++ natText n) start (fun _ => start) (fun _ => Ingestion.Sample.handling)
    State.initial dumpsObject_codec (fun _ _ _ => ⟨_, rfl⟩) issue_approval
  have hresult := congrArg Prod.fst (hlink.symm.trans hreceive)
  cases hresult

end WappPlanner.Bootstrap
