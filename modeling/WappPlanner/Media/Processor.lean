import Mathlib.Data.List.Sort
import WappPlanner.Domain.Models
import WappPlanner.Providers.Base

/-! # Media processing

`media/processor.py`: one normalized transcript from the messages of a request. A message whose
processing raises becomes one unprocessable segment, so building a transcript never fails. -/

namespace WappPlanner.Media.Processor

open WappPlanner.Domain.Enums WappPlanner.Domain.Models WappPlanner.Errors
open WappPlanner.Providers.Base WappPlanner.Py.Text WappPlanner.Py.Values
open WappPlanner.Workflow.Enums

/-- One labeled piece of extracted content. -/
structure TranscriptSegment where
  messageId : String
  source : String
  timestamp : Instant
  content : String
  status : ProcessingStatus
  deriving DecidableEq

/-- The ordered, combined transcript of a request. -/
structure NormalizedTranscript where
  segments : List TranscriptSegment
  deriving DecidableEq

def TranscriptSegment.render (seg : TranscriptSegment) : String :=
  "[" ++ seg.source ++ " @ " ++ isoformat seg.timestamp ++ "] " ++ seg.content

/-- A labeled, timestamped plain-text transcript. -/
def NormalizedTranscript.render (transcript : NormalizedTranscript) : String :=
  String.intercalate "\n" (transcript.segments.map (·.render))

/-- The models, the prompt and the frame limit of the processor. -/
structure MediaProcessor where
  transcriptionModel : String
  visionModel : String
  visionPrompt : String
  maxVideoFrames : ℕ

def segment (msg : Message) (source content : String)
    (status : ProcessingStatus := .processed) : TranscriptSegment :=
  ⟨msg.id, source, msg.receivedAt, content, status⟩

/-- `x or ""`. -/
def orEmpty : Option String → String
  | some s => s
  | none => ""

/-- `f"{label}{sep}{text}" if label else text`. -/
def labelled (label : Option String) (sep text : String) : String :=
  if orEmpty label = "" then text else orEmpty label ++ sep ++ text

namespace MediaProcessor

variable (processor : MediaProcessor) (providers : MediaProviders)

/-- The descriptions of the frames of a video, numbered from `index`. -/
def frameSegments (n : ℕ) (msg : Message) : ℕ → List Bytes → Except Exn (List TranscriptSegment)
  | _, [] => .ok []
  | index, frame :: frames => do
    let description ← (providers.describe n index frame processor.visionModel "image/jpeg"
      processor.visionPrompt).lift
    let rest ← frameSegments n msg (index + 1) frames
    return segment msg "video-frame" description :: rest

def videoSegments (n : ℕ) (msg : Message) (content : Bytes) :
    Except Exn (List TranscriptSegment) := do
  let audio ← (providers.extractAudio n content).lift
  let text ← (providers.transcribe n audio processor.transcriptionModel none).lift
  let frames ← (providers.sampleFrames n content processor.maxVideoFrames).lift
  let rest ← processor.frameSegments providers n msg 0 frames
  return segment msg "video-audio" text :: rest

/-- The segments of message number `n`. -/
def segmentsFor (media : String → Option DownloadedMedia) (n : ℕ) (msg : Message) :
    Except Exn (List TranscriptSegment) :=
  if msg.type = .text then .ok [segment msg "text" (orEmpty msg.text)]
  else
    match media msg.id with
    | none => .error (.lookupError "no media bytes available")
    | some downloaded => do
      let content := downloaded.content
      match msg.type with
      | .audio | .voice =>
        let text ← (providers.transcribe n content processor.transcriptionModel
          (some downloaded.mimeType)).lift
        return [segment msg "audio" text]
      | .image =>
        let description ← (providers.describe n 0 content processor.visionModel
          downloaded.mimeType processor.visionPrompt).lift
        return [segment msg "image" (labelled msg.caption " — " description)]
      | .video => processor.videoSegments providers n msg content
      | _ =>
        let text ← (providers.extract n content downloaded.mimeType).lift
        return [segment msg "document" (labelled msg.filename ": " text)]

/-- The segments of message number `n`, or the segment that says why there are none. -/
def segmentsOrReason (media : String → Option DownloadedMedia) (n : ℕ) (msg : Message) :
    List TranscriptSegment :=
  match processor.segmentsFor providers media n msg with
  | .ok segments => segments
  | .error exc =>
    [segment msg msg.type.value ("[unprocessable: " ++ exc.text ++ "]") .unprocessable]

/-- Process every message, by its order field, into one transcript. -/
def buildTranscript (messages : List Message) (media : String → Option DownloadedMedia) :
    NormalizedTranscript :=
  let sorted := messages.insertionSort fun m m' => m.order ≤ m'.order
  ⟨sorted.zipIdx.flatMap fun (msg, n) => processor.segmentsOrReason providers media n msg⟩

end MediaProcessor

end WappPlanner.Media.Processor
