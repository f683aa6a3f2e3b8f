import WappPlanner.Domain.Models
import WappPlanner.Hitl.Tokens
import WappPlanner.Nlp.Classification

/-! # Owner messages

`hitl/messages.py`: the signed action links of the two gates and the texts of the two prompts. A
gate's links are one list of labelled actions, each made into a token and then into a link. -/

namespace WappPlanner.Hitl.Messages

open WappPlanner.Domain.Enums WappPlanner.Domain.Models WappPlanner.Errors
open WappPlanner.Hitl.Tokens WappPlanner.Nlp.Classification WappPlanner.Py.Text
open WappPlanner.Workflow.Enums

def actionPath : String := "/hitl/action"

/-- `s.rstrip("/")`. -/
def rstripSlash (s : String) : String :=
  String.ofList (s.toList.reverse.dropWhile (· = '/')).reverse

def link (baseUrl token : String) : String :=
  rstripSlash baseUrl ++ actionPath ++ "?token=" ++ token

/-! ### The tokens behind the links -/

/-- The labels of the first gate, with the decision and the intent each one signs. -/
def classificationChoices : List (String × OwnerDecision × Option Intent) :=
  [("Confirm", .confirm, none), ("It's a quote", .correct, some .quote),
    ("It's an execution plan", .correct, some .executionPlan), ("Reject", .reject, none)]

/-- The labels of the second gate. -/
def approvalChoices : List (String × OwnerDecision) :=
  [("Approve", .approve), ("Request revision", .revise)]

/-- The tokens of the first gate, under their labels. -/
def classificationTokens (signer : TokenSigner) (request : Request) (now : Instant) :
    List (String × String) :=
  classificationChoices.map fun (label, decision, intent) =>
    (label, signer.issue request.id .classification decision now intent 0)

/-- The tokens of the second gate, under their labels. -/
def approvalTokens (signer : TokenSigner) (request : Request) (now : Instant) (revisionNo : ℕ) :
    List (String × String) :=
  approvalChoices.map fun (label, decision) =>
    (label, signer.issue request.id .approval decision now none revisionNo)

/-- The action links of the first gate: confirm, correct to an intent, reject. -/
def classificationLinks (baseUrl : String) (signer : TokenSigner) (request : Request)
    (now : Instant) : List (String × String) :=
  (classificationTokens signer request now).map fun (label, token) => (label, link baseUrl token)

/-- The action links of the second gate: approve, request a revision. -/
def approvalLinks (baseUrl : String) (signer : TokenSigner) (request : Request) (now : Instant)
    (revisionNo : ℕ) : List (String × String) :=
  (approvalTokens signer request now revisionNo).map fun (label, token) =>
    (label, link baseUrl token)

/-! ### Texts -/

def renderLinks (links : List (String × String)) : String :=
  String.intercalate "\n" (links.map fun (label, url) => "- " ++ label ++ ": " ++ url)

/-- Subject and body of the classification prompt. -/
def composeClassificationNotification (request : Request) (clientName : String)
    (result : ClassificationResult) (links : List (String × String)) (lowConfidence : Bool) :
    String × String :=
  let intentLabel := result.intent.value
  let flagNote := if lowConfidence then "  ⚠ low confidence" else ""
  ("New " ++ intentLabel ++ " request from " ++ clientName,
    "A new request was detected and classified as: " ++ intentLabel ++ ".\n\n" ++
      "Client: " ++ clientName ++ "\n" ++ "Request: " ++ request.id ++ "\n" ++
      "Confidence: " ++ formatPercent result.confidence ++ flagNote ++ "\n" ++
      "Why: " ++ result.rationale ++ "\n\n" ++
      "Please confirm the classification:\n" ++ renderLinks links)

/-- Subject and body of the document delivery. An absent intent has no value to print. -/
def composeDeliveryNotification (request : Request) (revisionNo : ℕ)
    (links : List (String × String)) : Except Exn (String × String) :=
  match request.intent with
  | none => .error (.attributeError "'NoneType' object has no attribute 'value'")
  | some intent =>
    .ok ("Document ready for review — request " ++ request.id ++ " (rev " ++
        natText revisionNo ++ ")",
      "The " ++ intent.value ++ " document for request " ++ request.id ++ " (revision " ++
        natText revisionNo ++ ") is attached.\n\n" ++
        "Please review and choose:\n" ++ renderLinks links ++ "\n\n" ++
        "To request a revision, follow the revision link and include your feedback.")

end WappPlanner.Hitl.Messages
