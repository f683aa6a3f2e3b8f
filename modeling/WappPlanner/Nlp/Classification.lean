import WappPlanner.Nlp.Prompts
import WappPlanner.Providers.Base

/-! # Intent classification

`nlp/classifier.py` and the JSON extraction of `util/jsonio.py`. Decoding the snippet and
validating its fields are the work of `json.loads` and of the schema, which come as `Decoder`. -/

namespace WappPlanner.Nlp.Classification

open WappPlanner.Errors WappPlanner.Nlp.Prompts WappPlanner.Providers.Base WappPlanner.Py.Values
open WappPlanner.Workflow.Enums

/-! ### `util/jsonio.py` -/

/-- `text.rfind(c)`. -/
def rfind (c : Char) (cs : List Char) : Option ℕ :=
  (cs.reverse.findIdx? (· = c)).map fun i => cs.length - 1 - i

/-- The substring from the first opening brace to the last closing one. -/
def extractJsonObject (text : String) : Except Exn String :=
  let cs := text.toList
  match cs.findIdx? (· = '\x7b'), rfind '\x7d' cs with
  | some start, some stop =>
    if stop < start then .error (.valueError "no JSON object found in text")
    else .ok (String.ofList ((cs.drop start).take (stop + 1 - start)))
  | _, _ => .error (.valueError "no JSON object found in text")

/-! ### The classifier -/

/-- Structured classification outcome; the confidence is in `[0, 1]` by its type. -/
structure ClassificationResult where
  intent : Intent
  confidence : Fraction
  rationale : String
  deriving DecidableEq

/-- True for intents that should proceed to the owner. -/
def ClassificationResult.isActionable (r : ClassificationResult) : Bool := r.intent ≠ .none

/-- Whether the result's confidence is below `threshold`. -/
def isLowConfidence (result : ClassificationResult) (threshold : Fraction) : Bool :=
  result.confidence.val < threshold.val

/-- `json.loads` on text and `ClassificationResult(**data)`. -/
structure Decoder where
  loads : String → Except Exn Json
  validate : Json → Except Exn ClassificationResult

/-- Classifies a transcript. -/
structure Classifier where
  model : String
  promptVersion : String
  decoder : Decoder

def userPrompt (transcript : String) : String :=
  "Classify the following request transcript.\n\nTranscript:\n" ++ transcript ++
    "\n\nRespond ONLY with JSON: \x7b\"intent\": \"quote\"|\"execution_plan\"|\"none\", " ++
    "\"confidence\": 0.0-1.0, \"rationale\": \"...\"\x7d"

namespace Classifier

variable (classifier : Classifier)

def parse (text : String) : Except Exn ClassificationResult :=
  match extractJsonObject text with
  -- `except ValueError`: the only exception the extraction raises
  | .error exc => .error (.classification exc.text)
  | .ok snippet =>
    match classifier.decoder.loads snippet with
    | .error (.jsonDecode text) =>
      .error (.classification ("invalid JSON in classifier response: " ++ text))
    | .error exc => .error exc
    | .ok data =>
      match classifier.decoder.validate data with
      | .error (.validation text) =>
        .error (.classification ("invalid classification fields: " ++ text))
      | .error exc => .error exc
      | .ok result => .ok result

/-- The outcome and the completions asked for. -/
def classify (llm : LLM) (transcript : String) :
    Except Exn ClassificationResult × List LLMCall :=
  match classificationSystemPrompt classifier.promptVersion with
  | .error exc => (.error exc, [])
  | .ok system =>
    let call : LLMCall := ⟨system, userPrompt transcript, classifier.model, 0⟩
    match llm 0 call with
    | .error text => (.error (.external text), [call])
    | .ok result => (classifier.parse result.text, [call])

end Classifier

end WappPlanner.Nlp.Classification
