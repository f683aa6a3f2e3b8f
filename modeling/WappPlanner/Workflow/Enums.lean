/-! # The vocabulary of the request lifecycle

The enumerations of `workflow/enums.py` with their string values. -/

namespace WappPlanner.Workflow.Enums

/-- Lifecycle state of a request. -/
inductive RequestState
  | received
  | aggregating
  | processingMedia
  | classifying
  | awaitingClassification
  | generating
  | rendering
  | awaitingApproval
  | completed
  | discarded
  | failed
  deriving DecidableEq, Repr

namespace RequestState

/-- The states in the order of their definition, as iterating over the enumeration gives them. -/
def all : List RequestState :=
  [received, aggregating, processingMedia, classifying, awaitingClassification, generating,
    rendering, awaitingApproval, completed, discarded, failed]

def value : RequestState → String
  | received => "received"
  | aggregating => "aggregating"
  | processingMedia => "processing_media"
  | classifying => "classifying"
  | awaitingClassification => "awaiting_classification"
  | generating => "generating"
  | rendering => "rendering"
  | awaitingApproval => "awaiting_approval"
  | completed => "completed"
  | discarded => "discarded"
  | failed => "failed"

end RequestState

/-- Detected request intent. -/
inductive Intent
  | quote
  | executionPlan
  | none
  deriving DecidableEq, Repr

def Intent.value : Intent → String
  | .quote => "quote"
  | .executionPlan => "execution_plan"
  | .none => "none"

/-- Inbound message types. -/
inductive MessageType
  | text
  | audio
  | voice
  | video
  | image
  | document
  deriving DecidableEq, Repr

def MessageType.value : MessageType → String
  | .text => "text"
  | .audio => "audio"
  | .voice => "voice"
  | .video => "video"
  | .image => "image"
  | .document => "document"

/-- Events that drive the state machine. -/
inductive Trigger
  | startAggregation
  | windowClosed
  | mediaProcessed
  | classifiedActionable
  | classifiedNone
  | ownerConfirmed
  | ownerCorrected
  | ownerRejected
  | generated
  | rendered
  | ownerApproved
  | ownerRequestedRevision
  | fail
  deriving DecidableEq, Repr

def Trigger.value : Trigger → String
  | .startAggregation => "start_aggregation"
  | .windowClosed => "window_closed"
  | .mediaProcessed => "media_processed"
  | .classifiedActionable => "classified_actionable"
  | .classifiedNone => "classified_none"
  | .ownerConfirmed => "owner_confirmed"
  | .ownerCorrected => "owner_corrected"
  | .ownerRejected => "owner_rejected"
  | .generated => "generated"
  | .rendered => "rendered"
  | .ownerApproved => "owner_approved"
  | .ownerRequestedRevision => "owner_requested_revision"
  | .fail => "fail"

end WappPlanner.Workflow.Enums
