import WappPlanner.Errors

/-! # Versioned prompt templates -/

namespace WappPlanner.Nlp.Prompts

open WappPlanner.Errors WappPlanner.Workflow.Enums

def classificationV1 : String :=
"You classify inbound WhatsApp messages for a US civil-construction / renovation
planning business. The owner's clients send job details and ask for one of:

- \"quote\": a detailed cost estimate / budget (often: \"how much\", \"price\",
  \"estimate\", \"bid\", \"cotação\", \"orçamento\").
- \"execution_plan\": a step-by-step plan for HOW to execute the work (often:
  \"how do we do this\", \"steps\", \"plan the job\", \"planejamento\", \"etapas\").

If the message is small talk, a greeting, or unrelated to either, classify it as
\"none\".

Decide the single best intent. Respond ONLY with a JSON object of the form:
\x7b\"intent\": \"quote\" | \"execution_plan\" | \"none\", \"confidence\": <0.0-1.0>,
 \"rationale\": \"<one short sentence>\"\x7d
"

def classificationPrompts : List (String × String) := [("v1", classificationV1)]

def generationQuoteV1 : String :=
"You are a senior estimator for a US civil-construction / renovation company.
From the client's request transcript, produce a detailed, professional cost
estimate (QUOTE) WRITTEN IN ENGLISH for the client to forward to their customer.
Be specific with line items, quantities and realistic unit prices. State your
assumptions and exclusions explicitly. Leave the tax field blank (\"TBD\") for the
owner to fill. Respond ONLY with a JSON object matching the requested schema.
"

def generationPlanV1 : String :=
"You are a senior project planner for a US civil-construction / renovation
company. From the client's request transcript, produce a detailed, step-by-step
EXECUTION PLAN written in English describing exactly how to perform the work,
phase by phase, from preparation through cleanup and handover. Include materials,
safety/code notes, dependencies and time estimates. Respond ONLY with a JSON
object matching the requested schema.
"

def generationPrompts : List (String × List (Intent × String)) :=
  [("v1", [(.quote, generationQuoteV1), (.executionPlan, generationPlanV1)])]

/-- The classification system prompt for `version`. -/
def classificationSystemPrompt (version : String) : Except Exn String :=
  match classificationPrompts.lookup version with
  | some prompt => .ok prompt
  | none => .error (.unknownPromptVersion version)

/-- The generation system prompt for `intent` at `version`. An absent intent fails in the formatting
of the error text. -/
def generationSystemPrompt (intent : Option Intent) (version : String) : Except Exn String :=
  match generationPrompts.lookup version with
  | none => .error (.unknownPromptVersion version)
  | some prompts =>
    match intent with
    | none => .error (.attributeError "'NoneType' object has no attribute 'value'")
    | some intent =>
      match prompts.lookup intent with
      | some prompt => .ok prompt
      | none => .error (.valueError ("no generation prompt for intent '" ++ intent.value ++ "'"))

end WappPlanner.Nlp.Prompts
