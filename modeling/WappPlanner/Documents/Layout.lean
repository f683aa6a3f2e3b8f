import WappPlanner.Documents.Content
import WappPlanner.Py.Text

/-! # Document layout

`documents/layout.py`: structured content as an ordered list of blocks, the one source both
renderers read, and `render_document`, which turns the blocks into the two attachments. The two
renderers themselves are third-party libraries and come as parameters. -/

namespace WappPlanner.Documents.Layout

open WappPlanner.Documents.Content WappPlanner.Errors WappPlanner.Py.Text WappPlanner.Py.Values

/-- A layout block. -/
inductive Block
  | heading (text : String) (level : ℕ)
  | paragraph (text : String)
  | bullets (title : String) (items : List String)
  | table (headers : List String) (rows : List (List String))
  | keyValues (pairs : List (String × String))
  deriving DecidableEq

def money (value : Amount) : String := "$" ++ formatCents value

/-- An optional text, absent or empty being false: `if x:`. -/
def whenText (x : Option String) (block : String → Block) : List Block :=
  match x with
  | some s => if s = "" then [] else [block s]
  | none => []

/-- A list of texts, the empty one being false. -/
def whenItems (title : String) (items : List String) : List Block :=
  if items.isEmpty then [] else [.bullets title items]

def brandingHeader (branding : Branding) : List Block :=
  [.heading branding.companyName 1] ++ whenText branding.address .paragraph ++
    whenText branding.contact .paragraph

def itemRow (item : LineItem) : List String :=
  [item.description, formatG item.quantity, item.unit, money item.unitPrice, money item.total]

/-- `content.tax or "TBD"`. -/
def taxText : Option String → String
  | some s => if s = "" then "TBD" else s
  | none => "TBD"

def quoteBlocks (content : QuoteContent) (branding : Branding) : List Block :=
  brandingHeader branding ++
    [.heading content.title 2, .keyValues [("Prepared for", content.preparedFor)],
      .heading "Scope" 2, .paragraph content.scopeSummary,
      .table ["Description", "Qty", "Unit", "Unit price", "Total"] (content.lineItems.map itemRow),
      .keyValues [("Subtotal", money content.subtotal), ("Tax", taxText content.tax),
        ("Total", money content.total)]] ++
    whenItems "Assumptions" content.assumptions ++ whenItems "Exclusions" content.exclusions ++
    whenText content.validity (fun s => .paragraph ("Validity: " ++ s)) ++
    whenText content.notes (fun s => .paragraph ("Notes: " ++ s)) ++
    whenText branding.quoteTerms .paragraph

def phaseBlocks (index : ℕ) (phase : Phase) : List Block :=
  [.heading ("Phase " ++ natText index ++ ": " ++ phase.name) 2,
    .paragraph ("Objective: " ++ phase.objective), .bullets "Steps" phase.steps] ++
    whenText phase.safetyNotes (fun s => .paragraph ("Safety / code: " ++ s)) ++
    whenItems "Dependencies" phase.dependencies ++
    whenText phase.estimatedDuration (fun s => .paragraph ("Estimated duration: " ++ s))

/-- The phases, numbered from `index`. -/
def phasesBlocks : ℕ → List Phase → List Block
  | _, [] => []
  | index, phase :: phases => phaseBlocks index phase ++ phasesBlocks (index + 1) phases

def planBlocks (content : ExecutionPlanContent) (branding : Branding) : List Block :=
  brandingHeader branding ++
    [.heading content.title 2, .heading "Overview" 2, .paragraph content.overview] ++
    whenItems "Materials & tools" content.materials ++ phasesBlocks 1 content.phases ++
    whenItems "Quality checkpoints" content.qualityCheckpoints ++
    whenText content.cleanup (fun s => .paragraph ("Cleanup & handover: " ++ s)) ++
    whenText content.notes (fun s => .paragraph ("Notes: " ++ s))

def buildBlocks : DocumentContent → Branding → List Block
  | .quote content, branding => quoteBlocks content branding
  | .plan content, branding => planBlocks content branding

/-! ### Rendering -/

/-- A file attached to an outbound message. -/
structure Attachment where
  filename : String
  content : Bytes
  contentType : String
  deriving DecidableEq

def pdfMime : String := "application/pdf"

def docxMime : String :=
  "application/vnd.openxmlformats-officedocument.wordprocessingml.document"

/-- The two rendering backends. -/
structure Renderers where
  renderPdf : List Block → Answer Bytes
  renderDocx : List Block → Answer Bytes

/-- Render both attachments from document content. -/
def renderDocument (R : Renderers) (content : DocumentContent) (branding : Branding)
    (basename : String) : Except Exn (List Attachment) := do
  let blocks := buildBlocks content branding
  let pdf ← (R.renderPdf blocks).lift
  let docx ← (R.renderDocx blocks).lift
  return [⟨basename ++ ".pdf", pdf, pdfMime⟩, ⟨basename ++ ".docx", docx, docxMime⟩]

end WappPlanner.Documents.Layout
