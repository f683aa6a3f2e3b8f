import WappPlanner.Hitl.Service
import WappPlanner.Lib.Text

/-! # Letters to the owner

The two prompts as the messages they are sent as. A prompt can be read back: its last link ends in a
token, which names the request and, in a delivery, the revision; the subject of a notice names the
intent. So no two prompts about different things are the same message. -/

namespace WappPlanner.Hitl.Letters

open WappPlanner.Documents.Layout WappPlanner.Domain.Enums WappPlanner.Domain.Models
open WappPlanner.Errors WappPlanner.Hitl.Dispatcher WappPlanner.Hitl.Messages
open WappPlanner.Hitl.Service WappPlanner.Hitl.Tokens WappPlanner.Lib
open WappPlanner.Nlp.Classification WappPlanner.Providers.Base WappPlanner.Py.Text
open WappPlanner.Workflow.Enums

variable (service : NotificationService)

/-- The classification prompt, addressed to a recipient. -/
def notice (request : Request) (clientName : String) (result : ClassificationResult)
    (now : Instant) : String → OutboundMessage :=
  let (subject, body) := service.composeNotice request clientName result now
  ChannelDispatcher.outbound (some subject) body []

/-- The document delivery, addressed to a recipient. -/
def delivery (request : Request) (revisionNo : ℕ) (attachments : List Attachment)
    (now : Instant) : Except Exn (String → OutboundMessage) :=
  (service.composeDelivery request revisionNo now).map fun (subject, body) =>
    ChannelDispatcher.outbound (some subject) body attachments

variable {service}

/-! ### Sending them -/

section send

variable {notifiers : Notifiers} {request : Request} {now : Instant}

theorem notifyClassification_eq {clientName : String} {result : ClassificationResult} :
    service.notifyClassification notifiers request clientName result now =
      service.dispatcher.sendOn notifiers (notice service request clientName result now)
        (ChannelDispatcher.channels service.notifyChannel) := rfl

theorem deliverDocument_eq {revisionNo : ℕ} {attachments : List Attachment}
    {letter : String → OutboundMessage}
    (h : delivery service request revisionNo attachments now = .ok letter) :
    service.deliverDocument notifiers request revisionNo attachments now =
      service.dispatcher.sendOn notifiers letter
        (ChannelDispatcher.channels service.deliverChannel) := by
  unfold delivery at h
  unfold NotificationService.deliverDocument
  cases hc : service.composeDelivery request revisionNo now with
  | error exc =>
    rw [hc] at h
    cases h
  | ok parts =>
    rw [hc] at h
    obtain rfl := Except.ok.inj h
    rfl

theorem exists_delivery (service : NotificationService) {intent : Intent}
    (h : request.intent = some intent) (revisionNo : ℕ) (attachments : List Attachment)
    (now : Instant) :
    ∃ letter, delivery service request revisionNo attachments now = .ok letter := by
  unfold delivery NotificationService.composeDelivery composeDeliveryNotification
  rw [h]
  exact ⟨_, rfl⟩

end send

/-! ### Reading them back -/

theorem hexDigit_ne_equals : ∀ d < 16, hexDigit d ≠ '=' := by decide

theorem notMem_issue (signer : TokenSigner) (rid : String) (gate : OwnerInteractionKind)
    (d : OwnerDecision) (t : Instant) (intent : Option Intent) (n : ℤ) :
    '=' ∉ (signer.issue rid gate d t intent n).toList := by
  unfold TokenSigner.issue
  simp only [String.toList_append, List.mem_append, not_or, TokenSigner.toList_payload]
  refine ⟨⟨Base64.notMem_stripped (by decide) _, by decide⟩, fun h => ?_⟩
  obtain ⟨k, hk, heq⟩ := mem_hex h
  exact hexDigit_ne_equals k hk heq.symm

theorem afterEquals_inj {x y token token' : String} (h : '=' ∉ token.toList)
    (h' : '=' ∉ token'.toList) (heq : x ++ "=" ++ token = y ++ "=" ++ token') :
    token = token' := by
  have hmarked : ∀ s : String, '=' ∉ s.toList → ∀ c ∈ s.toList, decide (c ≠ '=') = true := by
    intro s hs c hc
    refine decide_eq_true fun hce => ?_
    exact hs (hce ▸ hc)
  have hlist := congrArg String.toList heq
  simp only [String.toList_append, List.append_assoc] at hlist
  obtain ⟨-, -, htail⟩ := Text.append_tail_inj (p := fun c => decide (c ≠ '=')) (by decide)
    (by decide) (hmarked token h) (hmarked token' h') hlist
  exact String.toList_inj.mp htail

theorem renderLinks_concat (links : List (String × String)) (h : links ≠ [])
    (label baseUrl token : String) :
    ∃ x, renderLinks (links ++ [(label, link baseUrl token)]) = x ++ "=" ++ token := by
  refine ⟨renderLinks links ++ "\n- " ++ label ++ ": " ++ rstripSlash baseUrl ++ actionPath ++
    "?token", ?_⟩
  have hsplit : ∀ s : String, "\n" ++ ("- " ++ s) = "\n- " ++ s := fun s => by
    rw [← String.append_assoc]
    rfl
  have htoken : ∀ s : String, "?token=" ++ s = "?token" ++ ("=" ++ s) := fun s => by
    rw [← String.append_assoc]
    rfl
  unfold renderLinks
  rw [List.map_append, String.intercalate_append_of_ne_nil (by simpa using h) (by simp)]
  simp only [List.map_cons, List.map_nil, String.intercalate_singleton, link,
    String.append_assoc, hsplit, htoken]

theorem append_ne_of_head {a b : String} (ha : a.toList ≠ []) (hb : b.toList ≠ [])
    (h : a.toList.head? ≠ b.toList.head?) (s t : String) : a ++ s ≠ b ++ t := by
  intro heq
  have hhead := congrArg (fun u : String => u.toList.head?) heq
  rw [String.toList_append, String.toList_append, List.head?_append, List.head?_append,
    List.head?_eq_some_head ha, List.head?_eq_some_head hb, Option.some_or, Option.some_or,
    ← List.head?_eq_some_head ha, ← List.head?_eq_some_head hb] at hhead
  exact h hhead

theorem append_equals (s x t : String) : s ++ x ++ "=" ++ t = s ++ (x ++ "=" ++ t) := by
  simp only [String.append_assoc]

variable {request request' : Request} {now now' : Instant}

theorem notice_body (service : NotificationService) (request : Request) (clientName : String)
    (result : ClassificationResult) (now : Instant) (recipient : String) :
    ∃ x, (notice service request clientName result now recipient).body =
      x ++ "=" ++ service.signer.issue request.id .classification .reject now none 0 := by
  obtain ⟨x, hx⟩ := renderLinks_concat
    ((classificationLinks service.baseUrl service.signer request now).take 3)
    (List.cons_ne_nil _ _) "Reject" service.baseUrl
    (service.signer.issue request.id .classification .reject now none 0)
  have hbody : ∃ y, (notice service request clientName result now recipient).body =
      y ++ renderLinks (classificationLinks service.baseUrl service.signer request now) :=
    ⟨_, rfl⟩
  obtain ⟨y, hy⟩ := hbody
  refine ⟨y ++ x, ?_⟩
  rw [hy, append_equals, ← hx]
  rfl

/-- A delivery begins with a fixed subject, and ends with the link that asks for a revision and a
fixed line. -/
theorem delivery_parts {revisionNo : ℕ} {attachments : List Attachment}
    {letter : String → OutboundMessage}
    (h : delivery service request revisionNo attachments now = .ok letter) :
    ∃ x y, ∀ recipient, letter recipient =
      ⟨recipient, x ++ "=" ++ service.signer.issue request.id .approval .revise now none revisionNo ++
        ("\n\n" ++ "To request a revision, follow the revision link and include your feedback."),
        some ("Document ready for review — request " ++ y), attachments⟩ := by
  obtain ⟨x, hx⟩ := renderLinks_concat
    ((approvalLinks service.baseUrl service.signer request now revisionNo).take 1)
    (List.cons_ne_nil _ _) "Request revision" service.baseUrl
    (service.signer.issue request.id .approval .revise now none revisionNo)
  unfold delivery NotificationService.composeDelivery composeDeliveryNotification at h
  cases hi : request.intent with
  | none =>
    rw [hi] at h
    cases h
  | some intent =>
    rw [hi] at h
    obtain rfl := Except.ok.inj h
    refine ⟨"The " ++ intent.value ++ " document for request " ++ request.id ++ " (revision " ++
      natText revisionNo ++ ") is attached.\n\n" ++ "Please review and choose:\n" ++ x,
      request.id ++ " (rev " ++ natText revisionNo ++ ")", fun recipient => ?_⟩
    rw [append_equals, ← hx, ← String.append_assoc, ← String.append_assoc, ← String.append_assoc]
    rfl

/-- **Equal notices** are about one request and say one intent. -/
theorem notice_inj (hjson : service.signer.codec.Lossless) {name name' : String}
    {result result' : ClassificationResult} {recipient recipient' : String}
    (h : notice service request name result now recipient =
      notice service request' name' result' now' recipient') :
    request.id = request'.id ∧ result.intent = result'.intent := by
  constructor
  · obtain ⟨x, hx⟩ := notice_body service request name result now recipient
    obtain ⟨y, hy⟩ := notice_body service request' name' result' now' recipient'
    rw [h, hy] at hx
    have htoken := afterEquals_inj (notMem_issue _ _ _ _ _ _ _) (notMem_issue _ _ _ _ _ _ _) hx
    exact (TokenSigner.issue_injective hjson htoken).1.symm
  · have hsubject : "New " ++ result.intent.value ++ " request from " ++ name =
        "New " ++ result'.intent.value ++ " request from " ++ name' :=
      Option.some.inj (congrArg OutboundMessage.subject h)
    rw [String.append_assoc, String.append_assoc, String.append_assoc, String.append_assoc,
      String.append_right_inj] at hsubject
    -- the three intents begin with three different letters
    have hhead : ∀ i i' : Intent, i ≠ i' →
        i.value.toList ≠ [] ∧ i.value.toList.head? ≠ i'.value.toList.head? := by
      intro i i'
      cases i <;> cases i' <;> decide
    by_contra hne
    obtain ⟨hvalue, hdiff⟩ := hhead _ _ hne
    exact append_ne_of_head hvalue (hhead _ _ (Ne.symm hne)).1 hdiff _ _ hsubject

/-- **Equal deliveries** are of one revision of one request. -/
theorem delivery_inj (hjson : service.signer.codec.Lossless) {n n' : ℕ}
    {attachments attachments' : List Attachment} {letter letter' : String → OutboundMessage}
    (hletter : delivery service request n attachments now = .ok letter)
    (hletter' : delivery service request' n' attachments' now' = .ok letter')
    {recipient recipient' : String} (h : letter recipient = letter' recipient') :
    request.id = request'.id ∧ n = n' := by
  obtain ⟨x, _, hx⟩ := delivery_parts hletter
  obtain ⟨y, _, hy⟩ := delivery_parts hletter'
  rw [hx, hy] at h
  have hbody := congrArg OutboundMessage.body h
  dsimp only at hbody
  rw [String.append_left_inj] at hbody
  have htoken := afterEquals_inj (notMem_issue _ _ _ _ _ _ _) (notMem_issue _ _ _ _ _ _ _) hbody
  obtain ⟨hid, -, -, -, -, hn⟩ := TokenSigner.issue_injective hjson htoken
  exact ⟨hid, Nat.cast_inj.mp hn⟩

theorem notice_ne_delivery {name : String} {result : ClassificationResult} {n : ℕ}
    {attachments : List Attachment} {letter : String → OutboundMessage}
    (hletter : delivery service request' n attachments now' = .ok letter)
    (recipient recipient' : String) :
    notice service request name result now recipient ≠ letter recipient' := by
  intro h
  obtain ⟨_, y, hy⟩ := delivery_parts hletter
  rw [hy] at h
  have hsubject : "New " ++ result.intent.value ++ " request from " ++ name =
      "Document ready for review — request " ++ y :=
    Option.some.inj (congrArg OutboundMessage.subject h)
  rw [String.append_assoc, String.append_assoc] at hsubject
  exact append_ne_of_head (by decide) (by decide) (by decide) _ _ hsubject

end WappPlanner.Hitl.Letters
