import WappPlanner.Api.Refinement
import WappPlanner.Orchestrator.Mailings

/-! # Who is written to

In every run of the application nothing is sent to anybody but the owner, and nothing but the prompts
about requests that exist (`letters_to_owner`). Where documents are delivered on both channels, the
WhatsApp message that speaks of an email comes right after it, and names its files; where they are
delivered by WhatsApp alone it speaks of an email that nobody sent (`documents_by_email`). -/

namespace WappPlanner.Api

open WappPlanner.Bootstrap WappPlanner.Documents.Layout WappPlanner.Domain.Enums
open WappPlanner.Domain.Models WappPlanner.Errors
open WappPlanner.Hitl.Dispatcher WappPlanner.Hitl.Dispatcher.ChannelDispatcher
open WappPlanner.Hitl.Letters WappPlanner.Ingestion WappPlanner.Lib.Programs WappPlanner.Lib.Runs
open WappPlanner.Orchestrator WappPlanner.Providers.Base WappPlanner.Providers.Notifiers
open WappPlanner.Py.Text WappPlanner.Py.Values

/-! ### What is said of the outbox -/

/-- The parts of a mail with the two files of a revision. -/
def documentParts (rid : String) (n : ℕ) (p : Product) : List Part :=
  [⟨p.pdf, "application", "pdf", basename p.intent rid n ++ ".pdf"⟩,
    ⟨p.docx, "application", "vnd.openxmlformats-officedocument.wordprocessingml.document",
      basename p.intent rid n ++ ".docx"⟩]

/-- Right before the WhatsApp message `m` the same prompt went out by email, with the two files of a
revision, and these are the files that `m` names. -/
def AfterEmail (settings : Settings) (pre : List (Channel × OutboundMessage))
    (m : OutboundMessage) : Prop :=
  ∃ address before rid n, ∃ p : Product, settings.ownerEmail = some address ∧
    pre = before ++ [(.email, { m with recipient := address })] ∧
      mailParts { m with recipient := address } = documentParts rid n p ∧
        whatsappBody m = m.body ++ "\n\n(Documents sent by email: " ++
          (basename p.intent rid n ++ ".pdf, " ++ basename p.intent rid n ++ ".docx") ++ ")"

/-- No email carried anything. -/
def NothingByEmail (out : List (Channel × OutboundMessage)) : Prop :=
  ∀ mail, (.email, mail) ∈ out → mailParts mail = []

/-- What a WhatsApp message says of documents sent by email is true if documents are delivered on both
channels, and false if they are delivered by WhatsApp alone. -/
def SaysOfEmail (settings : Settings) (out : List (Channel × OutboundMessage)) : Prop :=
  ∀ pre m post, out = pre ++ (.whatsapp, m) :: post → TellsOfDocuments m →
    (settings.deliverChannel = .both ∧ AfterEmail settings pre m) ∨
      (settings.deliverChannel = .whatsapp ∧ NothingByEmail out)

section outbox

variable {ctx : AppContext}

theorem mailed_event {w : World} (h : Mailed ctx.orchestrator w) (e : Event) :
    Mailed ctx.orchestrator (happens ctx w e) := by
  cases e with
  | call c => exact h.step c
  | inbound messageId mediaId source =>
    have hworld := MediaDownloader.fetchAndStore_world ctx.ingestion.downloader ctx.ingestion.tables
      ctx.orchestrator.storageRef source "inbound" messageId mediaId w
    dsimp only [happens, happen]
    rcases hworld with hsame | ⟨content, mime, hstored⟩
    · rw [hsame]
      exact h
    · rw [hstored]
      exact h.congr rfl rfl

theorem mailed_app (hctx : Wired ctx) (cs : List Input) :
    Mailed ctx.orchestrator (run (step ctx) State.initial cs).world := by
  obtain ⟨es, hworld, -, -⟩ := run_events hctx State.initial cs
  rw [hworld]
  exact run_keeps (I := Mailed ctx.orchestrator) (fun w e hw => mailed_event hw e) mailed_initial es

end outbox

theorem attached {m : OutboundMessage} {rid : String} {n : ℕ} {p : Product}
    (h : m.attachments = p.attachments rid n) :
    mailParts m = documentParts rid n p ∧
      whatsappBody m = m.body ++ "\n\n(Documents sent by email: " ++
        (basename p.intent rid n ++ ".pdf, " ++ basename p.intent rid n ++ ".docx") ++ ")" := by
  have hpdf : ∀ name content, partOf ⟨name, content, pdfMime⟩ =
      ⟨content, "application", "pdf", name⟩ := fun name content => by
    simp [partOf, pdfMime]
  have hdocx : ∀ name content, partOf ⟨name, content, docxMime⟩ = ⟨content, "application",
      "vnd.openxmlformats-officedocument.wordprocessingml.document", name⟩ := fun name content => by
    simp [partOf, docxMime]
  constructor
  · rw [mailParts, h, Product.attachments, List.map_cons, List.map_cons, hpdf, hdocx]
    rfl
  · unfold whatsappBody
    rw [h]
    simp [Product.attachments, String.append_assoc]

theorem delivered_of_tells {cfg : Config} {w : World} {c : Channel} {m : OutboundMessage}
    (h : Prompt cfg w c m) (htells : TellsOfDocuments m) :
    c ∈ channels cfg.notify.deliverChannel ∧ ∃ rid n,
      ∃ p : Product, m.attachments = p.attachments rid n := by
  cases h with
  | notice r name result t recipient => exact absurd htells (notice_silent name result t recipient)
  | delivery r n attachments t letter recipient p revision hc htarget hletter hcopy =>
    refine ⟨hc, r.id, n, p, ?_⟩
    rw [(delivery_address hletter recipient recipient).2, hcopy.files]

/-- **When documents were sent by email.** In every run, a WhatsApp message that says so comes right
after the email with the documents it names, if documents are delivered on both channels; if they are
delivered by WhatsApp alone, it is untrue: no email with documents was ever sent. -/
theorem documents_by_email (settings : Settings) (secrets : Secrets) (platform : Platform)
    (clients : List Client) (idFactory : ℕ → String) (cs : List Input) :
    SaysOfEmail settings (run (step (buildApp settings secrets platform clients idFactory))
      State.initial cs).world.outbox := by
  intro pre m post hsplit htells
  have hmailed := mailed_app (wired_buildApp settings secrets platform clients idFactory) cs
  have hmem : (Channel.whatsapp, m) ∈ (run (step (buildApp settings secrets platform clients
      idFactory)) State.initial cs).world.outbox := by
    rw [hsplit]
    exact List.mem_append_right _ List.mem_cons_self
  obtain ⟨hc, rid, n, p, hfiles⟩ := delivered_of_tells (hmailed.prompts _ hmem) htells
  have hpaired := hmailed.paired pre m post hsplit htells
  have hdeliver : (buildApp settings secrets platform clients
    idFactory).orchestrator.notify.deliverChannel = settings.deliverChannel := rfl
  rw [hdeliver] at hc hpaired
  cases hchannel : settings.deliverChannel with
  | email =>
    have hnot : Channel.whatsapp ∉ channels .email := by decide
    rw [hchannel] at hc
    exact absurd hc hnot
  | whatsapp =>
    refine .inr ⟨rfl, fun mail hmail => ?_⟩
    by_cases hnone : mail.attachments = []
    · rw [mailParts, hnone, List.map_nil]
    · have htells' : TellsOfDocuments mail := tellsOfDocuments_iff.mpr hnone
      have hc' := (delivered_of_tells (hmailed.prompts _ hmail) htells').1
      have hnot : Channel.email ∉ channels .whatsapp := by decide
      rw [hdeliver, hchannel] at hc'
      exact absurd hc' hnot
  | both =>
    rw [hchannel] at hpaired
    rcases hpaired with hwhatsapp | ⟨address, before, htarget, hpre⟩
    · cases hwhatsapp
    · have howner : settings.ownerEmail = some address := by
        have hfilter : settings.ownerEmail.filter (· ≠ "") = some address := htarget
        exact (Option.filter_eq_some_iff.mp hfilter).1
      obtain ⟨hparts, hbody⟩ := attached hfiles
      have hattached := attached (m := { m with recipient := address }) hfiles
      exact .inl ⟨rfl, address, before, rid, n, p, howner, hpre, hattached.1, hbody⟩

end WappPlanner.Api
