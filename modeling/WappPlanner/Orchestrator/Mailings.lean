import WappPlanner.Lib.Fallible
import WappPlanner.Orchestrator.Prompted
import WappPlanner.Providers.Notifiers

/-! # What the owner is sent

Every message in the outbox went to the owner's own address on its channel, and is one of the two
prompts about a request that exists (`Prompt`); the files of a delivery are the renderings of the
content that a revision in the log keeps. A dispatch goes out on one channel after the other, so a
WhatsApp message that speaks of documents sent by email comes right after that email, if documents
are sent by email at all (`Paired`). -/

namespace WappPlanner.Orchestrator

open WappPlanner.Documents.Content WappPlanner.Documents.Generation WappPlanner.Documents.Layout
open WappPlanner.Domain.Enums WappPlanner.Domain.Models WappPlanner.Errors
open WappPlanner.Hitl.Dispatcher WappPlanner.Hitl.Dispatcher.ChannelDispatcher
open WappPlanner.Hitl.Letters WappPlanner.Hitl.Service WappPlanner.Lib.Programs
open WappPlanner.Lib.Runs WappPlanner.Nlp.Classification WappPlanner.Persistence.InMemory
open WappPlanner.Providers.Base WappPlanner.Providers.Notifiers WappPlanner.Py.Text
open WappPlanner.Py.Values WappPlanner.Workflow.Enums WappPlanner.Workflow.StateMachine

variable (cfg : Config)

/-- The attachments are the two files of a revision in the log, rendered from the content it keeps. -/
structure CopyOf (w : World) (rid : String) (n : ℕ) (attachments : List Attachment)
    (p : Product) (revision : DocumentRevision) : Prop where
  files : attachments = p.attachments rid n
  logged : revision ∈ w.repo.revisions rid
  number : revision.revisionNo = n
  content : revision.structuredContent = p.doc.structuredContent
  rendered : ∃ renderers : Renderers,
    renderers.renderPdf (buildBlocks p.doc.content cfg.branding) = .ok p.pdf ∧
      renderers.renderDocx (buildBlocks p.doc.content cfg.branding) = .ok p.docx

/-- One of the two prompts, on a channel that is configured for it, to the owner's address there. -/
inductive Prompt (w : World) (c : Channel) : OutboundMessage → Prop
  | notice (r : Request) (name : String) (result : ClassificationResult) (t : Instant)
      (recipient : String) (hc : c ∈ channels cfg.notify.notifyChannel)
      (htarget : cfg.notify.dispatcher.targets c = some recipient)
      (hpresent : w.repo.requests r.id ≠ none) :
      Prompt w c (notice cfg.notify r name result t recipient)
  | delivery (r : Request) (n : ℕ) (attachments : List Attachment) (t : Instant)
      (letter : String → OutboundMessage) (recipient : String) (p : Product)
      (revision : DocumentRevision) (hc : c ∈ channels cfg.notify.deliverChannel)
      (htarget : cfg.notify.dispatcher.targets c = some recipient)
      (hletter : delivery cfg.notify r n attachments t = .ok letter)
      (hcopy : CopyOf cfg w r.id n attachments p revision) : Prompt w c (letter recipient)

/-- A WhatsApp message that speaks of documents comes right after the email they were sent with, where
documents are sent on both channels. -/
def Paired (out : List (Channel × OutboundMessage)) : Prop :=
  ∀ pre m post, out = pre ++ (.whatsapp, m) :: post → TellsOfDocuments m →
    cfg.notify.deliverChannel = .whatsapp ∨ ∃ address before,
      cfg.notify.dispatcher.targets .email = some address ∧
        pre = before ++ [(.email, { m with recipient := address })]

variable {cfg} {w w' : World}

/-! ### One dispatch -/

section dispatch

variable {dispatcher : ChannelDispatcher} {notifiers : Notifiers}
  {message : String → OutboundMessage}

theorem sent_cons {c : Channel} {cs : List Channel} {sent : List (Channel × OutboundMessage)}
    (h : (dispatcher.sendOn notifiers message (c :: cs)).sent = sent) (hne : sent ≠ []) :
    ∃ address, dispatcher.targets c = some address ∧
      sent = (c, message address) :: (dispatcher.sendOn notifiers message cs).sent := by
  by_cases htakes : Takes dispatcher notifiers message c
  · obtain ⟨address, htarget, hsent⟩ := sendOn_of_takes htakes cs
    exact ⟨address, htarget, h ▸ hsent⟩
  · rw [sendOn_of_not_takes htakes] at h
    exact absurd h.symm hne

/-- What is sent before a WhatsApp message of one dispatch: the same message by email, or nothing. -/
theorem before_whatsapp {channel : Channel} {pre post : List (Channel × OutboundMessage)}
    {m : OutboundMessage}
    (h : (dispatcher.sendOn notifiers message (channels channel)).sent =
      pre ++ (.whatsapp, m) :: post) :
    channel = .whatsapp ∨ ∃ address recipient, dispatcher.targets .email = some address ∧
      m = message recipient ∧ pre = [(.email, message address)] := by
  have hne : ∀ pre, pre ++ (Channel.whatsapp, m) :: post ≠ [] := fun pre =>
    List.append_ne_nil_of_right_ne_nil _ (List.cons_ne_nil _ _)
  cases channel with
  | whatsapp => exact .inl rfl
  | email =>
    obtain ⟨address, -, hsent⟩ := sent_cons h (hne pre)
    rcases List.append_eq_cons_iff.mp hsent with ⟨rfl, hhead⟩ | ⟨pre', rfl, hrest⟩
    · cases hhead
    · exact absurd hrest.symm (hne pre')
  | both =>
    obtain ⟨address, htarget, hsent⟩ := sent_cons h (hne pre)
    rcases List.append_eq_cons_iff.mp hsent with ⟨rfl, hhead⟩ | ⟨pre', rfl, hrest⟩
    · cases hhead
    · obtain ⟨recipient, -, hsent'⟩ := sent_cons hrest (hne pre')
      rcases List.append_eq_cons_iff.mp hsent' with ⟨rfl, hhead⟩ | ⟨pre'', rfl, hrest'⟩
      · refine .inr ⟨address, recipient, htarget, ?_, rfl⟩
        exact (Prod.mk.inj (List.cons.inj hhead).1).2
      · exact absurd hrest'.symm (hne pre'')

end dispatch

/-! ### The two letters -/

section letters

variable {env : External} {r : Request} {now : Instant}

theorem delivery_address {n : ℕ} {attachments : List Attachment} {t : Instant}
    {letter : String → OutboundMessage} (h : delivery cfg.notify r n attachments t = .ok letter)
    (recipient address : String) :
    letter address = { letter recipient with recipient := address } ∧
      (letter recipient).attachments = attachments := by
  unfold delivery at h
  obtain ⟨parts, -, rfl⟩ := Lib.Fallible.map_eq_ok.mp h
  exact ⟨rfl, rfl⟩

theorem notice_silent (name : String) (result : ClassificationResult) (t : Instant)
    (recipient : String) : ¬ TellsOfDocuments (notice cfg.notify r name result t recipient) := by
  rw [tellsOfDocuments_iff]
  exact fun h => h rfl

variable (cfg) in
theorem notify_sends (r : Request) (name : String) (result : ClassificationResult) (t : Instant)
    (hpresent : w.repo.requests r.id ≠ none) :
    (∀ e ∈ (cfg.notify.notifyClassification env.send r name result t).sent,
      Prompt cfg w e.1 e.2) ∧
      Paired cfg (cfg.notify.notifyClassification env.send r name result t).sent := by
  rw [notifyClassification_eq]
  refine ⟨?_, ?_⟩
  · rintro ⟨c, m⟩ he
    obtain ⟨hc, recipient, htarget, rfl⟩ := mem_sendOn he
    exact .notice r name result t recipient hc htarget hpresent
  · intro pre m post hsent htells
    have hmem : (Channel.whatsapp, m) ∈ (cfg.notify.dispatcher.sendOn env.send
        (notice cfg.notify r name result t) (channels cfg.notify.notifyChannel)).sent := by
      rw [hsent]
      simp
    obtain ⟨-, recipient, -, rfl⟩ := mem_sendOn hmem
    exact absurd htells (notice_silent name result t recipient)

theorem handOver_sends {feedback : Option String} {previous : Option Json} {p : Product}
    (hp : produce cfg env r feedback previous = .ok p) {revision : DocumentRevision}
    (hlogged : revision ∈ w.repo.revisions r.id) (hnumber : revision.revisionNo = r.currentRevision + 1)
    (hcontent : revision.structuredContent = p.doc.structuredContent) :
    (∀ e ∈ (handOver cfg env r now p).sent, Prompt cfg w e.1 e.2) ∧
      Paired cfg (handOver cfg env r now p).sent := by
  obtain ⟨letter, hletter, hover⟩ := exists_handOver hp now
  have hrendered := rendered_of_produce hp
  have hcopy : CopyOf cfg w (delivered r now).id (r.currentRevision + 1)
      (p.attachments r.id (r.currentRevision + 1)) p revision :=
    ⟨rfl, hlogged, hnumber, hcontent, env.renderers, hrendered.2.2⟩
  rw [hover]
  refine ⟨?_, ?_⟩
  · rintro ⟨c, m⟩ he
    obtain ⟨hc, recipient, htarget, rfl⟩ := mem_sendOn he
    exact .delivery _ _ _ _ letter recipient p revision hc htarget hletter hcopy
  · intro pre m post hsent htells
    rcases before_whatsapp hsent with hchannel | ⟨address, recipient, htarget, rfl, rfl⟩
    · exact .inl hchannel
    · refine .inr ⟨address, [], htarget, ?_⟩
      rw [← (delivery_address hletter recipient address).1, List.nil_append]

end letters

/-! ### One invocation -/

theorem Prompt.mono {c : Channel} {m : OutboundMessage} (h : Prompt cfg w c m)
    (hpresent : ∀ rid, w.repo.requests rid ≠ none → w'.repo.requests rid ≠ none)
    (hrevisions : ∀ rid, w.repo.revisions rid ⊆ w'.repo.revisions rid) : Prompt cfg w' c m := by
  cases h with
  | notice r name result t recipient hc htarget hr =>
    exact .notice r name result t recipient hc htarget (hpresent _ hr)
  | delivery r n attachments t letter recipient p revision hc htarget hletter hcopy =>
    exact .delivery r n attachments t letter recipient p revision hc htarget hletter
      { hcopy with logged := hrevisions _ hcopy.logged }

theorem Paired.append {out sent : List (Channel × OutboundMessage)} (h : Paired cfg out)
    (h' : Paired cfg sent) : Paired cfg (out ++ sent) := by
  intro pre m post hsplit htells
  rcases List.append_eq_append_iff.mp hsplit with ⟨pre', rfl, hsent⟩ | ⟨post', hout, hrest⟩
  · rcases h' pre' m post hsent htells with hchannel | ⟨address, before, htarget, rfl⟩
    · exact .inl hchannel
    · exact .inr ⟨address, out ++ before, htarget, (List.append_assoc ..).symm⟩
  · rcases List.append_eq_cons_iff.mp hrest.symm with ⟨rfl, hsent⟩ | ⟨post'', rfl, -⟩
    · rw [List.append_nil] at hout
      subst hout
      rcases h' [] m post hsent htells with hchannel | ⟨address, before, -, hnil⟩
      · exact .inl hchannel
      · exact absurd hnil.symm (List.append_ne_nil_of_right_ne_nil _ (List.cons_ne_nil _ _))
    · exact h pre m post'' hout htells

variable (cfg) in
theorem revisions_made (env : External) (r : Request) (now : Instant) (feedback : Option String)
    (previous : Option Json) (p : Product) (w : World) (rid : String) :
    (madeWorld cfg env r now feedback previous p w).repo.revisions rid = w.repo.revisions rid ++
      if rid = r.id then
        [nextRevision r p.doc feedback (p.refs cfg r.id (r.currentRevision + 1)) now]
      else [] := by
  by_cases hrid : rid = r.id
  · simp [madeWorld, nextRevision, hrid]
  · simp [madeWorld, nextRevision, hrid]

theorem pipeline_revisions {env : External} {r : Request} {now : Instant}
    {feedback : Option String} {previous : Option Json} {o : Outcome Op World Exn Request}
    (ho : PipelineOutcome cfg env r now feedback previous w o) (rid : String) :
    w.repo.revisions rid ⊆ o.state.repo.revisions rid := by
  cases ho with
  | failed => exact List.Subset.refl _
  | stopped exc w' trace hgen hexc hrepo =>
    rw [hrepo]
    exact List.Subset.refl _
  | made p hp =>
    have hmade := revisions_made cfg env r now feedback previous p w rid
    show w.repo.revisions rid ⊆ (madeWorld cfg env r now feedback previous p w).repo.revisions rid
    rw [hmade]
    exact List.subset_append_left _ _

theorem revisions_subset (c : Call) (rid : String) :
    w.repo.revisions rid ⊆ (step cfg w c).repo.revisions rid := by
  unfold step
  cases c with
  | ingest b env =>
    have ho := ingest_outcome cfg w b env
    generalize outcome cfg w (.ingest b env) = o at ho ⊢
    cases ho <;> exact List.Subset.refl _
  | action a now env =>
    have ho := action_outcome cfg w a now env
    generalize outcome cfg w (.action a now env) = o at ho ⊢
    cases ho with
    | unknown | duplicate | refused => exact List.Subset.refl _
    | accepted r hr hfresh hgate o ho =>
      cases ho with
      | settled | unnamed | corrected => exact List.Subset.refl _
      | pipeline hd lookups hlookups o ho => exact pipeline_revisions ho rid

variable (cfg) in
/-- **What an invocation sends.** -/
theorem sends (w : World) (c : Call) : ∃ sent, (step cfg w c).outbox = w.outbox ++ sent ∧
    (∀ e ∈ sent, Prompt cfg (step cfg w c) e.1 e.2) ∧ Paired cfg sent := by
  have hnothing : ∀ w' : World, (∀ e ∈ ([] : List (Channel × OutboundMessage)),
      Prompt cfg w' e.1 e.2) ∧ Paired cfg [] := by
    refine fun w' => ⟨fun e he => (by cases he), fun pre m post h => ?_⟩
    exact absurd h.symm (List.append_ne_nil_of_right_ne_nil _ (List.cons_ne_nil _ _))
  unfold step
  cases c with
  | ingest b env =>
    have ho := ingest_outcome cfg w b env
    generalize outcome cfg w (.ingest b env) = o at ho ⊢
    cases ho with
    | unclassified | silent => exact ⟨[], (List.append_nil _).symm, hnothing _⟩
    | told result =>
      refine ⟨_, rfl, notify_sends cfg _ b.clientName result b.now ?_⟩
      simp
  | action a now env =>
    have ho := action_outcome cfg w a now env
    generalize outcome cfg w (.action a now env) = o at ho ⊢
    cases ho with
    | unknown | duplicate | refused => exact ⟨[], (List.append_nil _).symm, hnothing _⟩
    | accepted r hr hfresh hgate o ho =>
      cases ho with
      | settled | unnamed => exact ⟨[], (List.append_nil _).symm, hnothing _⟩
      | corrected hd intent =>
        refine ⟨_, rfl, notify_sends cfg _ _ _ now ?_⟩
        simp
      | pipeline hd lookups hlookups o ho =>
        cases ho with
        | failed => exact ⟨[], (List.append_nil _).symm, hnothing _⟩
        | stopped exc w' trace hgen hexc hrepo houtbox =>
          exact ⟨[], by rw [houtbox, List.append_nil]; rfl, hnothing _⟩
        | made p hp =>
          have hlogged := revisions_made cfg env (r.moved (target a.decision) now) now (feedbackOf a)
            (priorContent a (r.moved (target a.decision) now) (acceptedWorld a r now w)) p
            (acceptedWorld a r now w) (r.moved (target a.decision) now).id
          rw [if_pos rfl] at hlogged
          refine ⟨_, rfl, handOver_sends hp (hlogged ▸ List.mem_concat_self) rfl rfl⟩

theorem Prompt.recipient {c : Channel} {m : OutboundMessage}
    (h : Prompt cfg w c m) : cfg.notify.dispatcher.targets c = some m.recipient := by
  cases h with
  | notice r name result t recipient hc htarget => exact htarget
  | delivery r n attachments t letter recipient p revision hc htarget hletter =>
    rw [htarget, (delivery_address hletter recipient recipient).1]

/-- What the outbox of a world is. -/
structure Mailed (cfg : Config) (w : World) : Prop where
  wf : Wf w
  prompts : ∀ e ∈ w.outbox, Prompt cfg w e.1 e.2
  paired : Paired cfg w.outbox

theorem mailed_initial : Mailed cfg World.initial := by
  refine ⟨wf_initial, fun e he => (by cases he), fun pre m post h => ?_⟩
  exact absurd h.symm (List.append_ne_nil_of_right_ne_nil _ (List.cons_ne_nil _ _))

theorem Mailed.step (h : Mailed cfg w) (c : Call) : Mailed cfg (step cfg w c) := by
  obtain ⟨sent, hsent, hprompts, hpaired⟩ := sends cfg w c
  refine ⟨wf_step h.wf c, fun e he => ?_, ?_⟩
  · rw [hsent, List.mem_append] at he
    rcases he with he | he
    · exact (h.prompts e he).mono (fun _ => present_step cfg h.wf c) (revisions_subset c)
    · exact hprompts e he
  · rw [hsent]
    exact h.paired.append hpaired

theorem Mailed.congr (h : Mailed cfg w) (hrepo : w'.repo = w.repo) (hout : w'.outbox = w.outbox) :
    Mailed cfg w' := by
  refine ⟨⟨fun hr => h.wf.id_eq (hrepo ▸ hr), fun hr => hrepo ▸ h.wf.orphan (hrepo ▸ hr)⟩, ?_, ?_⟩
  · rw [hout]
    exact fun e he => (h.prompts e he).mono (fun rid hr => hrepo ▸ hr)
      fun rid => hrepo ▸ List.Subset.refl _
  · rw [hout]
    exact h.paired

end WappPlanner.Orchestrator
