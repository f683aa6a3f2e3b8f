import WappPlanner.Documents.Layout

/-! # Provider interfaces

The data exchanged with the providers, and the providers themselves: each is what it answers to a
call, an error standing for a raised exception. A language model answers the `n`-th call of one
invocation of the program, so one value of `LLM` is one script of behaviours. -/

namespace WappPlanner.Providers.Base

open WappPlanner.Documents.Layout WappPlanner.Errors WappPlanner.Py.Values

/-- Outcome of a completion, with usage. -/
structure LLMResult where
  text : String
  model : String
  inputTokens : ℕ
  outputTokens : ℕ
  costUsd : Amount
  deriving DecidableEq

/-- The arguments of `LLMProvider.complete`; the temperature in tenths. -/
structure LLMCall where
  system : String
  user : String
  model : String
  temperatureTenths : ℕ
  deriving DecidableEq

/-- The answers of a language model to the successive calls of one invocation. -/
abbrev LLM := ℕ → LLMCall → Answer LLMResult

/-- Bytes downloaded for a media message. -/
structure DownloadedMedia where
  content : Bytes
  mimeType : String
  deriving DecidableEq

/-- The transcription, vision, video and document providers: what each answers to its arguments at
the message numbered by the first one. A video describes one frame after the other, so `describe`
takes the number of the frame as well. -/
structure MediaProviders where
  transcribe : ℕ → (audio : Bytes) → (model : String) → (mimeType : Option String) →
    Answer String
  describe : ℕ → ℕ → (image : Bytes) → (model mimeType prompt : String) → Answer String
  extractAudio : ℕ → (video : Bytes) → Answer Bytes
  sampleFrames : ℕ → (video : Bytes) → (maxFrames : ℕ) → Answer (List Bytes)
  extract : ℕ → (data : Bytes) → (mimeType : String) → Answer String

/-- A message the system sends to the owner. -/
structure OutboundMessage where
  recipient : String
  body : String
  subject : Option String
  attachments : List Attachment
  deriving DecidableEq

end WappPlanner.Providers.Base
