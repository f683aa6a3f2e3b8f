import WappPlanner.Hitl.Dispatcher
import WappPlanner.Hitl.Messages

/-! # Notification and owner response

`hitl/service.py`: the two prompts, sent over the configured channels, and the resolution of a
clicked link into an `OwnerAction`. -/

namespace WappPlanner.Hitl.Service

open WappPlanner.Documents.Layout WappPlanner.Domain.Enums WappPlanner.Domain.Models
open WappPlanner.Errors WappPlanner.Hitl.Dispatcher WappPlanner.Hitl.Messages
open WappPlanner.Hitl.Tokens WappPlanner.Nlp.Classification WappPlanner.Providers.Base
open WappPlanner.Py.Digest WappPlanner.Py.Text WappPlanner.Py.Values WappPlanner.Workflow.Enums

/-- A validated owner decision resolved from a clicked action link. -/
structure OwnerAction where
  requestId : String
  gate : OwnerInteractionKind
  decision : OwnerDecision
  actionId : String
  intent : Option Intent
  revisionNo : ℤ
  feedback : Option String
  deriving DecidableEq

/-- Composes and dispatches the owner prompts; resolves owner responses. -/
structure NotificationService where
  signer : TokenSigner
  dispatcher : ChannelDispatcher
  baseUrl : String
  confidenceThreshold : Fraction
  notifyChannel : Channel
  deliverChannel : Channel

/-- Stable idempotency id for a clicked link. -/
def actionId (token : String) : String := hex (sha256 (utf8 token))

namespace NotificationService

variable (service : NotificationService)


/-- Subject and body of the classification prompt. -/
def composeNotice (request : Request) (clientName : String) (result : ClassificationResult)
    (now : Instant) : String × String :=
  composeClassificationNotification request clientName result
    (classificationLinks service.baseUrl service.signer request now)
    (isLowConfidence result service.confidenceThreshold)

/-- Send the classification-confirmation prompt. -/
def notifyClassification (notifiers : Notifiers) (request : Request) (clientName : String)
    (result : ClassificationResult) (now : Instant) : Dispatch :=
  let (subject, body) := service.composeNotice request clientName result now
  service.dispatcher.send notifiers service.notifyChannel body (some subject) []

/-- Subject and body of the document delivery. -/
def composeDelivery (request : Request) (revisionNo : ℕ) (now : Instant) :
    Except Exn (String × String) :=
  composeDeliveryNotification request revisionNo
    (approvalLinks service.baseUrl service.signer request now revisionNo)

/-- Send the document-delivery prompt with its attachments. -/
def deliverDocument (notifiers : Notifiers) (request : Request) (revisionNo : ℕ)
    (attachments : List Attachment) (now : Instant) : Dispatch :=
  match service.composeDelivery request revisionNo now with
  | .error exc => ⟨.error exc, []⟩
  | .ok (subject, body) =>
    service.dispatcher.send notifiers service.deliverChannel body (some subject) attachments

/-- Verify a clicked link's token and return the owner's decision. -/
def resolveAction (token : String) (now : Instant) (feedback : Option String) :
    Except Exn OwnerAction := do
  let t ← service.signer.verify token now
  return ⟨t.requestId, t.gate, t.decision, actionId token, t.intent, t.revisionNo, feedback⟩

variable {service}

theorem notifyClassification_error {notifiers : Notifiers} {request : Request} {name : String}
    {result : ClassificationResult} {now : Instant} {exc : Exn}
    (h : (service.notifyClassification notifiers request name result now).result = .error exc) :
    exc.isRefusal = false := ChannelDispatcher.sendOn_error h

theorem deliverDocument_error {notifiers : Notifiers} {request : Request} {n : ℕ}
    {attachments : List Attachment} {now : Instant} {exc : Exn}
    (h : (service.deliverDocument notifiers request n attachments now).result = .error exc) :
    exc.isRefusal = false := by
  unfold deliverDocument at h
  split at h
  · rename_i hcompose
    cases h
    unfold composeDelivery composeDeliveryNotification at hcompose
    split at hcompose
    · cases hcompose
      rfl
    · cases hcompose
  · exact ChannelDispatcher.sendOn_error h

/-- **Clicking an issued link** before it expires gives the action it was issued for. -/
theorem resolveAction_issue (hjson : service.signer.codec.Lossless) {rid : String}
    {gate : OwnerInteractionKind} {decision : OwnerDecision} {now now' : Instant}
    {intent : Option Intent} {n : ℤ} (hlive : now' < now + service.signer.ttl)
    (feedback : Option String) :
    service.resolveAction (service.signer.issue rid gate decision now intent n) now' feedback =
      .ok ⟨rid, gate, decision,
        actionId (service.signer.issue rid gate decision now intent n), intent, n,
        feedback⟩ := by
  unfold resolveAction
  rw [TokenSigner.verify_issue hjson hlive]
  rfl

/-- An issued link resolves, if at all, to the action it was issued for. -/
theorem resolveAction_issue_ok (hjson : service.signer.codec.Lossless) {rid : String}
    {gate : OwnerInteractionKind} {decision : OwnerDecision} {now now' : Instant}
    {intent : Option Intent} {n : ℤ} {feedback : Option String} {a : OwnerAction}
    (h : service.resolveAction (service.signer.issue rid gate decision now intent n) now' feedback =
      .ok a) :
    a = ⟨rid, gate, decision, actionId (service.signer.issue rid gate decision now intent n),
      intent, n, feedback⟩ := by
  unfold resolveAction at h
  rw [TokenSigner.verify_issue_eq hjson] at h
  split at h
  · cases h
  · exact (Except.ok.inj h).symm

theorem actionId_of_resolved {token : String} {now : Instant} {feedback : Option String}
    {a : OwnerAction} (h : service.resolveAction token now feedback = .ok a) :
    a.actionId = actionId token := by
  unfold resolveAction at h
  cases hverify : service.signer.verify token now with
  | error exc =>
    rw [hverify] at h
    cases h
  | ok t =>
    rw [hverify] at h
    obtain rfl := Except.ok.inj h
    rfl

end NotificationService

end WappPlanner.Hitl.Service
