import WappPlanner.Lib.Programs
import WappPlanner.Aggregation.Aggregator
import WappPlanner.Documents.Generation
import WappPlanner.Hitl.Service
import WappPlanner.Media.Processor
import WappPlanner.Persistence.InMemory
import WappPlanner.Workflow.StateMachine

/-! # The orchestrator

The two entry points of `orchestrator/orchestrator.py` as programs whose operations are the calls to
the collaborators. `World` is what the collaborators keep: the repository, the stored objects, the
completions asked for and the messages sent. `External` is how everything outside the program
behaves during one invocation, so that any external call may raise in any invocation. -/

namespace WappPlanner.Orchestrator

open WappPlanner.Aggregation WappPlanner.Documents.Content WappPlanner.Documents.Generation
open WappPlanner.Documents.Layout WappPlanner.Domain.Enums WappPlanner.Domain.Models
open WappPlanner.Errors WappPlanner.Hitl.Dispatcher WappPlanner.Hitl.Service
open WappPlanner.Lib.Programs WappPlanner.Media.Processor WappPlanner.Nlp.Classification
open WappPlanner.Persistence.InMemory WappPlanner.Providers.Base WappPlanner.Py.Text
open WappPlanner.Py.Values WappPlanner.Workflow.Enums WappPlanner.Workflow.StateMachine

def lowConfidenceFlag : String := "low_confidence"

/-- The configuration and the collaborators of an orchestrator. `storageRef` is the reference the
storage provider gives an object stored under a key. -/
structure Config where
  mediaProcessor : MediaProcessor
  classifier : Classifier
  generator : Generator
  notify : NotificationService
  branding : Branding
  threshold : Fraction
  notifyOnNone : Bool
  storageRef : String → String

/-- The calls to the collaborators, with their answers. -/
inductive Op : Type → Type
  | saveRequest (request : Request) : Op Unit
  | getRequest (requestId : String) : Op (Option Request)
  | setMessages (requestId : String) (messages : List Message) : Op Unit
  | addRevision (revision : DocumentRevision) : Op Unit
  | latestRevision (requestId : String) : Op (Option DocumentRevision)
  | recordInteraction (interaction : OwnerInteraction) : Op Bool
  | buildTranscript (messages : List Message) (media : String → Option DownloadedMedia) :
      Op NormalizedTranscript
  | classify (transcript : String) : Op (Except Exn ClassificationResult)
  | generate (args : GenerateArgs) : Op (Except Exn GeneratedDocument)
  | renderDocument (content : DocumentContent) (basename : String) :
      Op (Except Exn (List Attachment))
  | put (key : String) (content : Bytes) (contentType : String) : Op (Except Exn String)
  | notifyClassification (request : Request) (clientName : String)
      (result : ClassificationResult) (now : Instant) : Op (Except Exn (List (Channel × String)))
  | deliverDocument (request : Request) (revisionNo : ℕ) (attachments : List Attachment)
      (now : Instant) : Op (Except Exn (List (Channel × String)))

/-- What the collaborators keep. -/
structure World where
  repo : Repository
  storage : String → Option (Bytes × String)
  llmCalls : List LLMCall
  outbox : List (Channel × OutboundMessage)

/-- The behaviour of what is outside the program, during one invocation. -/
structure External where
  llm : LLM
  media : MediaProviders
  renderers : Renderers
  put : (key : String) → Answer Unit
  send : Notifiers

/-! ### The collaborators -/

namespace World

variable (w : World)

/-- A call that only changes the repository. -/
def withRepo (repo : Repository) : World := { w with repo := repo }

/-- A call that only asked for completions. -/
def asked (calls : List LLMCall) : World := { w with llmCalls := w.llmCalls ++ calls }

/-- A call that only sent messages. -/
def posted (sent : List (Channel × OutboundMessage)) : World :=
  { w with outbox := w.outbox ++ sent }

/-- A call that only stored an object. -/
def stored (key : String) (content : Bytes) (contentType : String) : World :=
  { w with storage := Function.update w.storage key (some (content, contentType)) }

/-- A call that only saved a request. -/
def saved (request : Request) : World := w.withRepo (w.repo.saveRequest request)

/-- A call that only recorded an interaction, one that was not there before. -/
def noted (interaction : OwnerInteraction) : World :=
  w.withRepo { w.repo with
    interactions := Function.update w.repo.interactions interaction.id (some interaction) }

@[simp] theorem repo_withRepo (repo : Repository) : (w.withRepo repo).repo = repo := rfl

@[simp] theorem storage_withRepo (repo : Repository) : (w.withRepo repo).storage = w.storage := rfl

@[simp] theorem outbox_withRepo (repo : Repository) : (w.withRepo repo).outbox = w.outbox := rfl

@[simp] theorem repo_asked (calls : List LLMCall) : (w.asked calls).repo = w.repo := rfl

@[simp] theorem storage_asked (calls : List LLMCall) : (w.asked calls).storage = w.storage := rfl

@[simp] theorem outbox_asked (calls : List LLMCall) : (w.asked calls).outbox = w.outbox := rfl

@[simp] theorem repo_posted (sent : List (Channel × OutboundMessage)) :
    (w.posted sent).repo = w.repo := rfl

@[simp] theorem storage_posted (sent : List (Channel × OutboundMessage)) :
    (w.posted sent).storage = w.storage := rfl

@[simp] theorem outbox_posted (sent : List (Channel × OutboundMessage)) :
    (w.posted sent).outbox = w.outbox ++ sent := rfl

section stored

variable (key : String) (content : Bytes) (contentType : String)

@[simp] theorem repo_stored : (w.stored key content contentType).repo = w.repo := rfl

@[simp] theorem outbox_stored : (w.stored key content contentType).outbox = w.outbox := rfl

@[simp] theorem storage_stored : (w.stored key content contentType).storage =
    Function.update w.storage key (some (content, contentType)) := rfl

end stored

@[simp] theorem repo_saved (request : Request) :
    (w.saved request).repo = w.repo.saveRequest request := rfl

@[simp] theorem storage_saved (request : Request) : (w.saved request).storage = w.storage := rfl

@[simp] theorem outbox_saved (request : Request) : (w.saved request).outbox = w.outbox := rfl

section noted

variable (interaction : OwnerInteraction)

@[simp] theorem requests_noted : (w.noted interaction).repo.requests = w.repo.requests := rfl

@[simp] theorem messages_noted : (w.noted interaction).repo.messages = w.repo.messages := rfl

@[simp] theorem revisions_noted : (w.noted interaction).repo.revisions = w.repo.revisions := rfl

@[simp] theorem interactions_noted : (w.noted interaction).repo.interactions =
    Function.update w.repo.interactions interaction.id (some interaction) := rfl

@[simp] theorem storage_noted : (w.noted interaction).storage = w.storage := rfl

@[simp] theorem outbox_noted : (w.noted interaction).outbox = w.outbox := rfl

end noted

end World

variable (cfg : Config) (env : External)

/-- How the collaborators answer. -/
def answer : {β : Type} → Op β → World → β × World
  | _, .saveRequest request, w => ((), w.withRepo (w.repo.saveRequest request))
  | _, .getRequest rid, w => (w.repo.getRequest rid, w)
  | _, .setMessages rid messages, w => ((), w.withRepo (w.repo.setMessages rid messages))
  | _, .addRevision revision, w => ((), w.withRepo (w.repo.addRevision revision))
  | _, .latestRevision rid, w => (w.repo.latestRevision rid, w)
  | _, .recordInteraction interaction, w =>
    let (fresh, repo) := w.repo.recordInteraction interaction
    (fresh, w.withRepo repo)
  | _, .buildTranscript messages media, w =>
    (cfg.mediaProcessor.buildTranscript env.media messages media, w)
  | _, .classify transcript, w =>
    let (result, calls) := cfg.classifier.classify env.llm transcript
    (result, w.asked calls)
  | _, .generate args, w =>
    let run := cfg.generator.generate env.llm args
    (run.result, w.asked run.calls)
  | _, .renderDocument content basename, w =>
    (renderDocument env.renderers content cfg.branding basename, w)
  | _, .put key content contentType, w =>
    match env.put key with
    | .ok () => (.ok (cfg.storageRef key), w.stored key content contentType)
    | .error text => (.error (.external text), w)
  | _, .notifyClassification request clientName result now, w =>
    let dispatch := cfg.notify.notifyClassification env.send request clientName result now
    (dispatch.result, w.posted dispatch.sent)
  | _, .deliverDocument request revisionNo attachments now, w =>
    let dispatch := cfg.notify.deliverDocument env.send request revisionNo attachments now
    (dispatch.result, w.posted dispatch.sent)

def handler : Handler Op World := ⟨answer cfg env⟩

/-! ### The programs -/

open Prog

/-- Fire a trigger and persist the request. -/
def transition (request : Request) (trigger : Trigger) (now : Instant) : Prog Op Exn Request := do
  let state ← ofExcept (nextState request.state trigger)
  let updated := request.moved state now
  perform (.saveRequest updated)
  return updated

/-- The arguments of `ingest`; `media` maps message ids to downloads. -/
structure Batch where
  aggregated : AggregatedRequest
  media : String → Option DownloadedMedia
  clientName : String
  now : Instant
  extraFlags : List String

/-- The request of a batch, as it is first saved. -/
def Batch.request (batch : Batch) : Request :=
  { id := batch.aggregated.requestId
    clientId := batch.aggregated.clientId
    clientName := some batch.clientName
    state := .received
    intent := some .none
    confidence := none
    createdAt := batch.now
    updatedAt := batch.now
    normalizedTranscript := none
    currentRevision := 0
    flags := [] }

/-- A request with its transcript. -/
def transcribed (request : Request) (transcript : NormalizedTranscript) : Request :=
  { request with normalizedTranscript := some transcript.render }

/-- A request with what the classifier said. -/
def classified (batch : Batch) (result : ClassificationResult) (request : Request) : Request :=
  { request with
    intent := some result.intent
    confidence := some result.confidence
    flags := batch.extraFlags ++
      (if isLowConfidence result cfg.threshold then [lowConfidenceFlag] else []) }

/-- Move a classified request on and notify the owner. -/
def settle (batch : Batch) (result : ClassificationResult) (request : Request) :
    Prog Op Exn Request := do
  let now := batch.now
  if result.isActionable then
    let request ← transition request .classifiedActionable now
    let _ ← performE (.notifyClassification request batch.clientName result now)
    return request
  else
    let request ← transition request .classifiedNone now
    if cfg.notifyOnNone then
      let _ ← performE (.notifyClassification request batch.clientName result now)
      return request
    else return request

/-- Process, classify and, if actionable, notify on an aggregated batch. -/
def ingest (batch : Batch) : Prog Op Exn Request := do
  let now := batch.now
  let request := batch.request
  perform (.saveRequest request)
  perform (.setMessages request.id batch.aggregated.messages)
  let request ← transition request .startAggregation now
  let request ← transition request .windowClosed now
  let transcript ← perform (.buildTranscript batch.aggregated.messages batch.media)
  let request ← transition (transcribed request transcript) .mediaProcessed now
  let result ← performE (.classify transcript.render)
  settle cfg batch result (classified cfg batch result request)

/-- Send the classification prompt again, for a corrected intent. An absent intent is no
`ClassificationResult`. -/
def renotifyClassification (request : Request) (now : Instant) : Prog Op Exn Unit := do
  match request.intent with
  | none => fail (.validation "1 validation error for ClassificationResult")
  | some intent =>
    let result : ClassificationResult := ⟨intent, .one, "Corrected by owner."⟩
    let _ ← performE (.notifyClassification request request.displayName result now)
    return ()

/-- The key a rendered file is stored under. -/
def artifactKey (requestId : String) (revisionNo : ℕ) (filename : String) : String :=
  requestId ++ "/r" ++ natText revisionNo ++ "/" ++ filename

/-- Store the attachments; the answer lists their references by content type. -/
def storeArtifacts (requestId : String) (revisionNo : ℕ) :
    List Attachment → Prog Op Exn (List (String × String))
  | [] => return []
  | att :: rest => do
    let ref ← performE
      (.put (artifactKey requestId revisionNo att.filename) att.content att.contentType)
    let refs ← storeArtifacts requestId revisionNo rest
    return (att.contentType, ref) :: refs

/-- `refs.get(mime)`: the last reference stored for a content type. -/
def refFor (mime : String) (refs : List (String × String)) : Option String :=
  refs.reverse.lookup mime

def llmMeta (doc : GeneratedDocument) : LlmMeta :=
  ⟨doc.model, doc.inputTokens, doc.outputTokens, doc.costUsd, doc.attempts⟩

/-- The name of a rendered document, without extension. -/
def basename (intent : Intent) (requestId : String) (revisionNo : ℕ) : String :=
  intent.value ++ "-" ++ requestId ++ "-r" ++ natText revisionNo

/-- `generate`, a `GenerationError` moving the request to `failed` before it goes on. -/
def generateOrFail (request : Request) (args : GenerateArgs) (now : Instant) :
    Prog Op Exn GeneratedDocument := do
  match ← perform (.generate args) with
  | .ok doc => return doc
  | .error (.generation text) =>
    let _ ← transition request .fail now
    fail (.generation text)
  | .error exc => fail exc

/-- What the generator is asked for the next revision of a request. -/
def generateArgs (request : Request) (feedback : Option String) (previousContent : Option Json) :
    GenerateArgs :=
  ⟨request.intent, orEmpty request.normalizedTranscript, request.displayName,
    request.currentRevision + 1, feedback, previousContent⟩

/-- The record of the next revision of a request. -/
def nextRevision (request : Request) (doc : GeneratedDocument) (feedback : Option String)
    (refs : List (String × String)) (now : Instant) : DocumentRevision :=
  { id := request.id ++ "-rev-" ++ natText (request.currentRevision + 1)
    requestId := request.id
    revisionNo := request.currentRevision + 1
    structuredContent := doc.structuredContent
    feedback := feedback
    pdfRef := refFor pdfMime refs
    docxRef := refFor docxMime refs
    llmMeta := llmMeta doc
    createdAt := now }

/-- The request once its next revision is in the log. -/
def bumped (request : Request) : Request :=
  { request with currentRevision := request.currentRevision + 1 }

/-- Generate, render, store and deliver the next revision. -/
def generateRenderDeliver (request : Request) (now : Instant) (feedback : Option String)
    (previousContent : Option Json) : Prog Op Exn Request := do
  let revisionNo := request.currentRevision + 1
  let doc ← generateOrFail request (generateArgs request feedback previousContent) now
  match request.intent with
  | none => fail (.attributeError "'NoneType' object has no attribute 'value'")
  | some intent =>
    let attachments ← performE
      (.renderDocument doc.content (basename intent request.id revisionNo))
    let refs ← storeArtifacts request.id revisionNo attachments
    perform (.addRevision (nextRevision request doc feedback refs now))
    let request := bumped request
    let request ← transition request .generated now
    let request ← transition request .rendered now
    let _ ← performE (.deliverDocument request revisionNo attachments now)
    return request

/-- A request with the intent an owner named. -/
def withIntent (request : Request) (intent : Option Intent) : Request :=
  { request with intent := intent }

/-- What follows the transition of an owner decision. -/
def followDecision (action : OwnerAction) (request : Request) (now : Instant) :
    Prog Op Exn Request := do
  match action.decision with
  | .confirm => generateRenderDeliver request now none none
  | .correct =>
    let request := withIntent request action.intent
    perform (.saveRequest request)
    renotifyClassification request now
    return request
  | .revise =>
    let previous ← perform (.latestRevision request.id)
    generateRenderDeliver request now action.feedback (previous.map (·.structuredContent))
  | .reject | .approve => return request

/-- The record of an owner's response. -/
def interactionOf (action : OwnerAction) : OwnerInteraction :=
  ⟨action.actionId, action.requestId, action.gate, action.decision⟩

/-- Apply a resolved owner decision to the referenced request. -/
def applyOwnerAction (action : OwnerAction) (now : Instant) : Prog Op Exn Request := do
  match ← perform (.getRequest action.requestId) with
  | none => fail (.unknownRequest action.requestId)
  | some request =>
    if ← perform (.recordInteraction (interactionOf action)) then
      let request ← transition request (triggerFor action.decision) now
      followDecision action request now
    else return request

end WappPlanner.Orchestrator
