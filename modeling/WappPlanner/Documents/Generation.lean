import WappPlanner.Lib.Programs
import WappPlanner.Nlp.Classification

/-! # Document generation

`documents/generator.py`: ask for JSON of the intent's schema, parse and validate it, and retry with
exponential backoff. A run of `generate` is its result, the completions it asked for and the delays
it slept. -/

namespace WappPlanner.Documents.Generation

open WappPlanner.Documents.Content WappPlanner.Errors WappPlanner.Lib.Programs
open WappPlanner.Nlp.Prompts
open WappPlanner.Nlp.Classification (extractJsonObject)
open WappPlanner.Providers.Base WappPlanner.Py.Text WappPlanner.Py.Values WappPlanner.Workflow.Enums

/-- `json.loads` on text, `repr` of a float, and the two schemas applied to decoded data. -/
structure ContentCodec where
  loads : String → Except Exn Json
  floatRepr : PyFloat → String
  quoteContent : Json → Except Exn QuoteContent
  executionPlanContent : Json → Except Exn ExecutionPlanContent

/-- `json.dumps`. -/
def ContentCodec.dumps (codec : ContentCodec) : Json → String := Py.Text.dumps codec.floatRepr

def schemaHint : Intent → Option String
  | .quote => some
      ("JSON schema: \x7b\"title\": str, \"prepared_for\": str, \"scope_summary\": str, " ++
        "\"line_items\": [\x7b\"description\": str, \"quantity\": number, \"unit\": str, " ++
        "\"unit_price\": number, \"total\": number\x7d], \"subtotal\": number, " ++
        "\"tax\": str|null, \"total\": number, \"assumptions\": [str], " ++
        "\"exclusions\": [str], \"validity\": str|null, \"notes\": str|null\x7d")
  | .executionPlan => some
      ("JSON schema: \x7b\"title\": str, \"overview\": str, \"materials\": [str], " ++
        "\"phases\": [\x7b\"name\": str, \"objective\": str, \"steps\": [str], " ++
        "\"safety_notes\": str|null, \"dependencies\": [str], " ++
        "\"estimated_duration\": str|null\x7d], \"quality_checkpoints\": [str], " ++
        "\"cleanup\": str|null, \"notes\": str|null\x7d")
  | .none => none

/-- A generated, validated document plus usage. -/
structure GeneratedDocument where
  content : DocumentContent
  model : String
  inputTokens : ℕ
  outputTokens : ℕ
  costUsd : Amount
  attempts : ℕ
  deriving DecidableEq

/-- The content as a plain dictionary. -/
def GeneratedDocument.structuredContent (doc : GeneratedDocument) : Json := doc.content.modelDump

/-- Produces structured document content for a confirmed intent. -/
structure Generator where
  model : String
  promptVersion : String
  maxAttempts : ℕ
  backoffBaseSeconds : PyFloat
  codec : ContentCodec

/-- The arguments of `generate`. -/
structure GenerateArgs where
  intent : Option Intent
  transcript : String
  clientName : String
  revisionNo : ℕ
  feedback : Option String
  previousContent : Option Json

/-- A run of `generate`. -/
structure GenerateRun where
  result : Except Exn GeneratedDocument
  calls : List LLMCall
  sleeps : List PyFloat

namespace Generator

variable (generator : Generator)

/-- What a revision adds to the prompt: the previous document and the feedback, if both are
given. -/
def revisionPart (feedback : Option String) (previousContent : Option Json) : List String :=
  match previousContent, feedback with
  | some content, some feedback =>
    ["You previously produced this document:\n" ++ generator.codec.dumps content ++
      "\n\nThe owner requested this revision: " ++ feedback ++
      "\nImprove the existing document accordingly; do not start over."]
  | _, _ => []

def buildUserPrompt (intent : Intent) (args : GenerateArgs) : Except Exn String :=
  match schemaHint intent with
  | none => .error (.keyError "<Intent.NONE: 'none'>")
  | some hint =>
    .ok (String.intercalate "\n\n"
      (["Client: " ++ args.clientName, "Request transcript:\n" ++ args.transcript] ++
        generator.revisionPart args.feedback args.previousContent ++ [hint]))

/-- `model(**data)` for the model of the intent. -/
def contentModel (intent : Intent) (data : Json) : Except Exn DocumentContent :=
  match intent with
  | .quote => .quote <$> generator.codec.quoteContent data
  | .executionPlan => .plan <$> generator.codec.executionPlanContent data
  | .none => .error (.keyError "<Intent.NONE: 'none'>")

def parse (text : String) (intent : Intent) : Except Exn DocumentContent := do
  let snippet ← extractJsonObject text
  let data ← generator.codec.loads snippet
  match generator.contentModel intent data with
  | .error (.validation text) =>
    .error (.valueError ("invalid " ++ intent.value ++ " content: " ++ text))
  | .error exc => .error exc
  | .ok content => .ok content

/-- One attempt: a completion, parsed. -/
def attempt (llm : LLM) (call : LLMCall) (intent : Intent) (n : ℕ) :
    Except Exn GeneratedDocument := do
  let result ← (llm n call).lift
  let content ← generator.parse result.text intent
  return ⟨content, result.model, result.inputTokens, result.outputTokens, result.costUsd, n + 1⟩

/-- `self._backoff_base * (2**attempt)`: to be multiplied by a float, the power is made one. -/
def backoff (n : ℕ) : Except Exn PyFloat :=
  if n < 1024 then .ok (generator.backoffBaseSeconds.timesPow n)
  else .error (.overflowError "int too large to convert to float")

/-- The attempts from number `n` on, `remaining` of them, `last` being the text of the last
exception caught. -/
def attempts (llm : LLM) (call : LLMCall) (intent : Intent) :
    (remaining n : ℕ) → (last : String) → GenerateRun
  | 0, _, last =>
    ⟨.error (.generation ("generation failed after " ++ natText generator.maxAttempts ++
      " attempts: " ++ last)), [], []⟩
  | remaining + 1, n, _ =>
    match generator.attempt llm call intent n with
    | .ok doc => ⟨.ok doc, [call], []⟩
    | .error exc =>
      let rest := attempts llm call intent remaining (n + 1) exc.text
      if n + 1 < generator.maxAttempts then
        match generator.backoff n with
        -- raised in the handler, so it leaves the loop
        | .error exc => ⟨.error exc, [call], []⟩
        | .ok delay => ⟨rest.result, call :: rest.calls, delay :: rest.sleeps⟩
      else ⟨rest.result, call :: rest.calls, rest.sleeps⟩

/-- The delays after `m` attempts in a row, the first of them number `n`. -/
def delays (n m : ℕ) : List PyFloat :=
  (List.range' n m).map generator.backoffBaseSeconds.timesPow

/-- Generate document content, retrying failed attempts. -/
def generate (llm : LLM) (args : GenerateArgs) : GenerateRun :=
  match generationSystemPrompt args.intent generator.promptVersion, args.intent with
  | .error exc, _ => ⟨.error exc, [], []⟩
  | .ok _, none => ⟨.error (.keyError "None"), [], []⟩
  | .ok system, some intent =>
    match generator.buildUserPrompt intent args with
    | .error exc => ⟨.error exc, [], []⟩
    | .ok user =>
      generator.attempts llm ⟨system, user, generator.model, 2⟩ intent generator.maxAttempts 0
        "None"

variable {generator}

theorem attempts_error {llm : LLM} {call : LLMCall} {intent : Intent} {exc : Exn} :
    ∀ {remaining n : ℕ} {last : String},
      (generator.attempts llm call intent remaining n last).result = .error exc →
        (∃ text, exc = .generation text) ∨ ∃ text, exc = .overflowError text
  | 0, _, _, h => .inl ⟨_, (Except.error.inj h).symm⟩
  | remaining + 1, n, last, h => by
    unfold attempts at h
    split at h
    · cases h
    · dsimp only at h
      split_ifs at h
      · unfold backoff at h
        split_ifs at h
        · exact attempts_error h
        · exact .inr ⟨_, (Except.error.inj h).symm⟩
      · exact attempts_error h

theorem generate_error {llm : LLM} {args : GenerateArgs} {exc : Exn}
    (h : (generator.generate llm args).result = .error exc) : exc.isRefusal = false := by
  unfold generate at h
  split at h
  · rename_i hprompt
    cases h
    unfold generationSystemPrompt at hprompt
    split at hprompt
    · cases hprompt
      rfl
    · split at hprompt
      · cases hprompt
        rfl
      · split at hprompt
        · cases hprompt
        · cases hprompt
          rfl
  · cases h
    rfl
  · split at h
    · rename_i huser
      cases h
      unfold buildUserPrompt at huser
      split at huser
      · cases huser
        rfl
      · cases huser
    · rcases attempts_error h with ⟨text, rfl⟩ | ⟨text, rfl⟩
      · rfl
      · rfl

theorem generate_ok {llm : LLM} {args : GenerateArgs} {doc : GeneratedDocument}
    (h : (generator.generate llm args).result = .ok doc) :
    ∃ intent, args.intent = some intent ∧ intent ≠ .none := by
  unfold generate at h
  split at h
  · cases h
  · cases h
  · rename_i intent _ hintent
    refine ⟨intent, hintent, ?_⟩
    rintro rfl
    cases h

theorem generationSystemPrompt_error {intent : Option Intent} {version text : String} :
    generationSystemPrompt intent version ≠ .error (.generation text) := by
  intro h
  unfold generationSystemPrompt at h
  split at h
  · cases h
  · split at h
    · cases h
    · split at h <;> cases h

theorem generate_unasked {llm : LLM} {args : GenerateArgs} {text : String}
    (h : ∀ intent, args.intent = some intent → intent = .none) :
    (generator.generate llm args).result ≠ .error (.generation text) := by
  intro hgen
  unfold generate at hgen
  split at hgen
  · rename_i hprompt
    rw [Except.error.inj hgen] at hprompt
    exact generationSystemPrompt_error hprompt
  · cases hgen
  · rename_i hintent
    obtain rfl := h _ hintent
    cases hgen

/-- The content is an instance of the schema of the intent. -/
def Fits : Option Intent → DocumentContent → Prop
  | some .quote, .quote _ => True
  | some .executionPlan, .plan _ => True
  | _, _ => False

theorem contentModel_fits {intent : Intent} {data : Json} {content : DocumentContent}
    (h : generator.contentModel intent data = .ok content) : Fits (some intent) content := by
  cases intent with
  | quote =>
    unfold contentModel at h
    cases hq : generator.codec.quoteContent data <;> rw [hq] at h <;> cases h
    trivial
  | executionPlan =>
    unfold contentModel at h
    cases hp : generator.codec.executionPlanContent data <;> rw [hp] at h <;> cases h
    trivial
  | none => cases h

theorem parse_fits {text : String} {intent : Intent} {content : DocumentContent}
    (h : generator.parse text intent = .ok content) : Fits (some intent) content := by
  unfold parse at h
  cases hs : extractJsonObject text with
  | error exc =>
    rw [hs] at h
    cases h
  | ok snippet =>
    cases hd : generator.codec.loads snippet with
    | error exc =>
      rw [hs, ok_bind, hd] at h
      cases h
    | ok data =>
      rw [hs, ok_bind, hd, ok_bind] at h
      split at h
      · cases h
      · cases h
      · rename_i hmodel
        obtain rfl := Except.ok.inj h
        exact contentModel_fits hmodel

theorem attempt_fits {llm : LLM} {call : LLMCall} {intent : Intent} {n : ℕ}
    {doc : GeneratedDocument} (h : generator.attempt llm call intent n = .ok doc) :
    Fits (some intent) doc.content := by
  obtain ⟨result, -, h⟩ := Answer.lift_bind_ok h
  cases hp : generator.parse result.text intent with
  | error exc =>
    rw [hp] at h
    cases h
  | ok content =>
    rw [hp, ok_bind] at h
    obtain rfl := Except.ok.inj h
    exact parse_fits hp

theorem attempts_fits {llm : LLM} {call : LLMCall} {intent : Intent} {doc : GeneratedDocument} :
    ∀ {remaining n : ℕ} {last : String},
      (generator.attempts llm call intent remaining n last).result = .ok doc →
        Fits (some intent) doc.content
  | 0, _, _, h => by cases h
  | remaining + 1, n, last, h => by
    unfold attempts at h
    split at h
    · rename_i hdoc
      obtain rfl := Except.ok.inj h
      exact attempt_fits hdoc
    · dsimp only at h
      split_ifs at h
      · unfold backoff at h
        split_ifs at h
        exact attempts_fits h
      · exact attempts_fits h

/-- **A generated document fits its intent.** -/
theorem generate_fits {llm : LLM} {args : GenerateArgs} {doc : GeneratedDocument}
    (h : (generator.generate llm args).result = .ok doc) : Fits args.intent doc.content := by
  unfold generate at h
  split at h
  · cases h
  · cases h
  · rename_i intent _ hintent
    split at h
    · cases h
    · rw [hintent]
      exact attempts_fits h

end Generator

end WappPlanner.Documents.Generation
