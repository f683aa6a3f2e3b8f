import WappPlanner.Domain.Enums
import WappPlanner.Py.Text

/-! # Domain entities

The entities of `domain/models.py`, with the fields the modelled code reads or writes.
`Request.intent` is optional because `model_copy` does not validate: a correction copies whatever
intent the action carries, `None` included. -/

namespace WappPlanner.Domain.Models

open WappPlanner.Domain.Enums WappPlanner.Py.Text WappPlanner.Py.Values
open WappPlanner.Workflow.Enums

/-- A customer who sends jobs over WhatsApp. -/
structure Client where
  id : String
  name : String
  phoneNumbers : List String

/-- A single inbound message within a request. -/
structure Message where
  id : String
  type : MessageType
  order : ℕ
  receivedAt : Instant
  text : Option String
  caption : Option String
  mediaId : Option String
  mimeType : Option String
  filename : Option String
  rawRef : Option String
  deriving DecidableEq

/-- Message types whose payload must be downloaded and processed. -/
def Message.isMedia (m : Message) : Bool := m.type ≠ .text

/-- Usage of the completion a revision was made from. -/
structure LlmMeta where
  model : String
  inputTokens : ℕ
  outputTokens : ℕ
  costUsd : Amount
  attempts : ℕ
  deriving DecidableEq

/-- One rendered revision of a generated document. -/
structure DocumentRevision where
  id : String
  requestId : String
  revisionNo : ℕ
  structuredContent : Json
  feedback : Option String
  pdfRef : Option String
  docxRef : Option String
  llmMeta : LlmMeta
  createdAt : Instant

/-- A recorded owner response at a gate. -/
structure OwnerInteraction where
  id : String
  requestId : String
  kind : OwnerInteractionKind
  decision : OwnerDecision
  deriving DecidableEq

/-- One client's batched messages asking for one document. -/
structure Request where
  id : String
  clientId : String
  clientName : Option String
  state : RequestState
  intent : Option Intent
  confidence : Option Fraction
  createdAt : Instant
  updatedAt : Instant
  normalizedTranscript : Option String
  currentRevision : ℕ
  flags : List String
  deriving DecidableEq

/-- `client_name or client_id`. -/
def Request.displayName (r : Request) : String :=
  match r.clientName with
  | some name => if name = "" then r.clientId else name
  | none => r.clientId

/-- The request after a transition. -/
def Request.moved (r : Request) (state : RequestState) (now : Instant) : Request :=
  { r with state := state, updatedAt := now }

section moved

variable (r : Request) (state : RequestState) (now : Instant)

@[simp] theorem Request.id_moved : (r.moved state now).id = r.id := rfl

@[simp] theorem Request.state_moved : (r.moved state now).state = state := rfl

@[simp] theorem Request.intent_moved : (r.moved state now).intent = r.intent := rfl

@[simp] theorem Request.currentRevision_moved :
    (r.moved state now).currentRevision = r.currentRevision := rfl

@[simp] theorem Request.displayName_moved : (r.moved state now).displayName = r.displayName := rfl

end moved

/-- The request, timestamps aside. -/
def Request.untimed (r : Request) : Request := { r with createdAt := 0, updatedAt := 0 }

theorem Request.untimed_moved {r r' : Request} (h : r.untimed = r'.untimed) (state : RequestState)
    (now now' : Instant) : (r.moved state now).untimed = (r'.moved state now').untimed :=
  congrArg (fun r : Request => { r with state := state }) h

/-- The revision, timestamps aside. -/
def DocumentRevision.untimed (revision : DocumentRevision) : DocumentRevision :=
  { revision with createdAt := 0 }

end WappPlanner.Domain.Models
