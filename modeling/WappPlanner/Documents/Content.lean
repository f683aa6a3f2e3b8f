import WappPlanner.Py.Values

/-! # Structured document content

The schemas of `documents/content.py`, the branding of `documents/branding.py`, and `model_dump`.
The numeric fields are `Amount`s: the schemas accept no negative number. -/

namespace WappPlanner.Documents.Content

open WappPlanner.Py.Values

/-- Letterhead details applied to generated documents. -/
structure Branding where
  companyName : String
  address : Option String
  contact : Option String
  quoteTerms : Option String

/-- A single priced line of a quote. -/
structure LineItem where
  description : String
  quantity : Amount
  unit : String
  unitPrice : Amount
  total : Amount
  deriving DecidableEq

/-- A cost estimate. -/
structure QuoteContent where
  title : String
  preparedFor : String
  scopeSummary : String
  lineItems : List LineItem
  subtotal : Amount
  tax : Option String
  total : Amount
  assumptions : List String
  exclusions : List String
  validity : Option String
  notes : Option String
  deriving DecidableEq

/-- One sequential phase of an execution plan. -/
structure Phase where
  name : String
  objective : String
  steps : List String
  safetyNotes : Option String
  dependencies : List String
  estimatedDuration : Option String
  deriving DecidableEq

/-- A detailed step-by-step execution plan. -/
structure ExecutionPlanContent where
  title : String
  overview : String
  materials : List String
  phases : List Phase
  qualityCheckpoints : List String
  cleanup : Option String
  notes : Option String
  deriving DecidableEq

/-- The content of a document, of either kind. -/
inductive DocumentContent
  | quote (content : QuoteContent)
  | plan (content : ExecutionPlanContent)
  deriving DecidableEq

/-! ### `model_dump` -/

def amount (x : Amount) : Json := .float x.toFloat

def strings (items : List String) : Json := .arr (items.map .str)

def LineItem.modelDump (x : LineItem) : Json :=
  .obj [("description", .str x.description), ("quantity", amount x.quantity), ("unit", .str x.unit),
    ("unit_price", amount x.unitPrice), ("total", amount x.total)]

def QuoteContent.modelDump (x : QuoteContent) : Json :=
  .obj [("title", .str x.title), ("prepared_for", .str x.preparedFor),
    ("scope_summary", .str x.scopeSummary), ("line_items", .arr (x.lineItems.map (·.modelDump))),
    ("subtotal", amount x.subtotal), ("tax", .ofOption x.tax), ("total", amount x.total),
    ("assumptions", strings x.assumptions), ("exclusions", strings x.exclusions),
    ("validity", .ofOption x.validity), ("notes", .ofOption x.notes)]

def Phase.modelDump (x : Phase) : Json :=
  .obj [("name", .str x.name), ("objective", .str x.objective), ("steps", strings x.steps),
    ("safety_notes", .ofOption x.safetyNotes), ("dependencies", strings x.dependencies),
    ("estimated_duration", .ofOption x.estimatedDuration)]

def ExecutionPlanContent.modelDump (x : ExecutionPlanContent) : Json :=
  .obj [("title", .str x.title), ("overview", .str x.overview), ("materials", strings x.materials),
    ("phases", .arr (x.phases.map (·.modelDump))),
    ("quality_checkpoints", strings x.qualityCheckpoints), ("cleanup", .ofOption x.cleanup),
    ("notes", .ofOption x.notes)]

def DocumentContent.modelDump : DocumentContent → Json
  | quote content => content.modelDump
  | plan content => content.modelDump

end WappPlanner.Documents.Content
