import WappPlanner.Providers.Base

/-! # What the notifiers make of documents

`providers/email_notifier.py` and `providers/whatsapp.py`: an email carries the attachments of a
message as its parts, a WhatsApp message says in its text that they were sent by email. The SMTP
conversation with the mail library's checks of the headers, and the Graph API, are outside: they are
what a notifier answers. -/

namespace WappPlanner.Providers.Notifiers

open WappPlanner.Documents.Layout WappPlanner.Providers.Base WappPlanner.Py.Values

/-! ### Email -/

/-- A part of a mail. -/
structure Part where
  content : Bytes
  maintype : String
  subtype : String
  filename : String

/-- `mime.add_attachment`: the content type, split at its first slash. -/
def partOf (attachment : Attachment) : Part :=
  let cs := attachment.contentType.toList
  let subtype := String.ofList ((cs.dropWhile (· ≠ '/')).drop 1)
  ⟨attachment.content, String.ofList (cs.takeWhile (· ≠ '/')),
    if subtype = "" then "octet-stream" else subtype, attachment.filename⟩

/-- The parts that `EmailNotifier.send` adds to the mail. -/
def mailParts (message : OutboundMessage) : List Part := message.attachments.map partOf

/-! ### WhatsApp -/

/-- The text that `WhatsAppNotifier.send` posts. -/
def whatsappBody (message : OutboundMessage) : String :=
  if message.attachments.isEmpty then message.body
  else message.body ++ "\n\n(Documents sent by email: " ++
    String.intercalate ", " (message.attachments.map (·.filename)) ++ ")"

/-- The text of a WhatsApp message speaks of documents sent by email. -/
def TellsOfDocuments (message : OutboundMessage) : Prop := whatsappBody message ≠ message.body

theorem tellsOfDocuments_iff {message : OutboundMessage} :
    TellsOfDocuments message ↔ message.attachments ≠ [] := by
  unfold TellsOfDocuments whatsappBody
  cases hatt : message.attachments with
  | nil => simp
  | cons attachment rest =>
    refine iff_of_true (fun h => ?_) (List.cons_ne_nil _ _)
    have hlength := congrArg String.length h
    have hclosing : ")".length = 1 := rfl
    simp only [List.isEmpty_cons, Bool.false_eq_true, if_false, String.length_append] at hlength
    omega

end WappPlanner.Providers.Notifiers
