import WappPlanner.Hitl.Letters
import WappPlanner.Orchestrator.Artifacts
import WappPlanner.Orchestrator.RevisionLog

/-! # Waiting for an owner who was asked

A request that waits at a gate has its prompt in the outbox of every channel of that gate, as long as
the prompt that went with its last move was taken on every channel. The state is saved before the
prompt is sent, so nothing repairs a prompt that was not taken: `prompted_iff` says that this
condition on the single invocations is exact. -/

namespace WappPlanner.Orchestrator

open WappPlanner.Documents.Generation WappPlanner.Documents.Layout WappPlanner.Domain.Enums
open WappPlanner.Domain.Models WappPlanner.Errors WappPlanner.Hitl.Dispatcher
open WappPlanner.Hitl.Dispatcher.ChannelDispatcher WappPlanner.Hitl.Letters
open WappPlanner.Hitl.Service WappPlanner.Hitl.Tokens WappPlanner.Lib.Programs
open WappPlanner.Lib.Runs WappPlanner.Nlp.Classification WappPlanner.Persistence.InMemory
open WappPlanner.Providers.Base WappPlanner.Py.Text WappPlanner.Py.Values
open WappPlanner.Workflow.Enums WappPlanner.Workflow.StateMachine

variable (cfg : Config)

/-- A notification about the request `rid` that says `intent` was sent on channel `c`. -/
def Noticed (w : World) (rid : String) (intent : Option Intent) (c : Channel) : Prop :=
  ∃ r name result t recipient, r.id = rid ∧ some result.intent = intent ∧
    cfg.notify.dispatcher.targets c = some recipient ∧
      (c, notice cfg.notify r name result t recipient) ∈ w.outbox

/-- The attachments are the files of the current revision of `r`, as its log refers to them and as
they are stored. -/
structure FilesOf (w : World) (r : Request) (attachments : List Attachment) (p : Product)
    (revision : DocumentRevision) : Prop where
  intent : r.intent = some p.intent
  files : attachments = p.attachments r.id r.currentRevision
  logged : revision ∈ w.repo.getRevisions r.id
  number : revision.revisionNo = r.currentRevision
  content : revision.structuredContent = p.doc.structuredContent
  pdfRef : revision.pdfRef = some (cfg.storageRef (pdfKey r.id r.currentRevision p.intent))
  docxRef : revision.docxRef = some (cfg.storageRef (docxKey r.id r.currentRevision p.intent))
  actionable : p.intent ≠ .none
  pdf : w.storage (pdfKey r.id r.currentRevision p.intent) = some (p.pdf, pdfMime)
  docx : w.storage (docxKey r.id r.currentRevision p.intent) = some (p.docx, docxMime)

/-- The current revision of `r` was delivered, with its files, on channel `c`. -/
def Delivered (w : World) (r : Request) (c : Channel) : Prop :=
  ∃ r' attachments t letter recipient p revision, r'.id = r.id ∧
    delivery cfg.notify r' r.currentRevision attachments t = .ok letter ∧
      FilesOf cfg w r attachments p revision ∧
        cfg.notify.dispatcher.targets c = some recipient ∧ (c, letter recipient) ∈ w.outbox

/-- If the request waits, its owner was asked on every channel. -/
structure PromptedFor (w : World) (r : Request) : Prop where
  noticed : r.state = .awaitingClassification →
    ∀ c ∈ channels cfg.notify.notifyChannel, Noticed cfg w r.id r.intent c
  delivered : r.state = .awaitingApproval →
    ∀ c ∈ channels cfg.notify.deliverChannel, Delivered cfg w r c

/-- **No request waits for an owner who was not asked.** -/
def Prompted (w : World) : Prop :=
  ∀ rid r, w.repo.getRequest rid = some r → PromptedFor cfg w r

/-- The request of a correction, as it is saved. -/
def corrected (r : Request) (intent : Intent) (now : Instant) : Request :=
  withIntent (r.moved .awaitingClassification now) intent

/-- The prompt of an accepted action on `r` is taken: the notification of a correction, which has to
name an intent, on every channel that did not have one like it before; the delivery of a revision on
every channel. -/
structure ActionTaken (w : World) (a : OwnerAction) (r : Request) (now : Instant) (env : External) :
    Prop where
  correction : a.decision = .correct → ∃ intent, a.intent = some intent ∧
    ∀ c ∈ channels cfg.notify.notifyChannel, Noticed cfg w r.id (some intent) c ∨
      Reaches cfg.notify.dispatcher env.send
        (notice cfg.notify (corrected r intent now) r.displayName (correction intent) now)
        (channels cfg.notify.notifyChannel) c
  delivery : startsPipeline a.decision = true → ∀ p,
    produce cfg env r (feedbackOf a) (priorContent a r w) = .ok p → ∀ letter,
      delivery cfg.notify (delivered r now) (r.currentRevision + 1)
        (p.attachments r.id (r.currentRevision + 1)) now = .ok letter →
          ∀ c ∈ channels cfg.notify.deliverChannel, Takes cfg.notify.dispatcher env.send letter c

/-- **Every prompt is taken**: the notification of an actionable batch on every channel, and the
prompt of an accepted action. -/
def PromptsTaken (w : World) : Call → Prop
  | .ingest b env => ∀ result, (classification cfg env b).1 = .ok result →
      result.isActionable = true → ∀ c ∈ channels cfg.notify.notifyChannel,
        Takes cfg.notify.dispatcher env.send
          (notice cfg.notify (settledRequest cfg env b result) b.clientName result b.now) c
  | .action a now env => ∀ r, w.repo.getRequest a.requestId = some r → Accepted w a →
      ActionTaken cfg w a r now env

/-! ### What is in the outbox -/

/-- A message about the request `rid`, which exists: a notice, or the delivery of one of its
revisions. -/
inductive About (w : World) (rid : String) : OutboundMessage → Prop
  | notice (r : Request) (name : String) (result : ClassificationResult) (t : Instant)
      (recipient : String) (hid : r.id = rid) (hpresent : w.repo.requests rid ≠ none) :
      About w rid (notice cfg.notify r name result t recipient)
  | delivery (r r' : Request) (n : ℕ) (attachments : List Attachment) (t : Instant)
      (letter : String → OutboundMessage) (recipient : String) (hid : r.id = rid)
      (hletter : delivery cfg.notify r n attachments t = .ok letter)
      (hr' : w.repo.requests rid = some r') (hn : n ≤ r'.currentRevision) :
      About w rid (letter recipient)

/-- Every message sent is about a request that exists. -/
def Posted (w : World) : Prop := ∀ e ∈ w.outbox, ∃ rid, About cfg w rid e.2

variable {cfg} {w : World}

theorem posted_initial : Posted cfg World.initial := fun e he => by cases he

theorem not_noticed_of_unknown (hjson : cfg.notify.signer.codec.Lossless) (h : Posted cfg w)
    {rid : String} (hnone : w.repo.requests rid = none) {intent : Option Intent} {c : Channel} :
    ¬ Noticed cfg w rid intent c := by
  rintro ⟨r, name, result, t, recipient, rfl, -, -, hmem⟩
  obtain ⟨rid', habout⟩ := h _ hmem
  generalize hm : notice cfg.notify r name result t recipient = m at habout
  cases habout with
  | notice r' name' result' t' recipient' hid hpresent =>
    rw [(notice_inj hjson hm).1, hid] at hnone
    exact hpresent hnone
  | delivery r' r'' n attachments t' letter recipient' hid hletter =>
    exact notice_ne_delivery hletter recipient recipient' hm

theorem delivery_notMem (hjson : cfg.notify.signer.codec.Lossless) (h : Posted cfg w) {r : Request}
    {n : ℕ} (hnew : ∀ r₀, w.repo.requests r.id = some r₀ → r₀.currentRevision < n)
    {attachments : List Attachment} {t : Instant} {letter : String → OutboundMessage}
    (hletter : delivery cfg.notify r n attachments t = .ok letter) (c : Channel)
    (recipient : String) : (c, letter recipient) ∉ w.outbox := by
  intro hmem
  obtain ⟨rid, habout⟩ := h _ hmem
  generalize hm : letter recipient = m at habout
  cases habout with
  | notice r₀ name result t' recipient' =>
    exact notice_ne_delivery hletter recipient' recipient hm.symm
  | delivery r' r₀ n' attachments' t' letter' recipient' hid hletter' hr₀ hn =>
    obtain ⟨hsame, rfl⟩ := delivery_inj hjson hletter hletter' hm
    have hlt := hnew r₀ (by rwa [hsame, hid])
    omega

theorem about_notify {r : Request} {name : String} {result : ClassificationResult} {t : Instant}
    {env : External} {rid : String} (hid : r.id = rid) (hpresent : w.repo.requests rid ≠ none) :
    ∀ e ∈ (cfg.notify.notifyClassification env.send r name result t).sent, About cfg w rid e.2 := by
  rintro ⟨c, m⟩ he
  rw [notifyClassification_eq] at he
  obtain ⟨-, recipient, -, rfl⟩ := mem_sendOn he
  exact .notice r name result t recipient hid hpresent

theorem exists_handOver {env : External} {r : Request} {feedback : Option String}
    {previous : Option Json} {p : Product} (hp : produce cfg env r feedback previous = .ok p)
    (now : Instant) :
    ∃ letter, delivery cfg.notify (delivered r now) (r.currentRevision + 1)
      (p.attachments r.id (r.currentRevision + 1)) now = .ok letter ∧
        handOver cfg env r now p = cfg.notify.dispatcher.sendOn env.send letter
          (channels cfg.notify.deliverChannel) := by
  have hintent : (delivered r now).intent = some p.intent := (produce_ok hp).1
  obtain ⟨letter, hletter⟩ := exists_delivery cfg.notify hintent (r.currentRevision + 1)
    (p.attachments r.id (r.currentRevision + 1)) now
  exact ⟨letter, hletter, deliverDocument_eq hletter⟩

theorem outbox_pipeline {env : External} {r : Request} {now : Instant} {feedback : Option String}
    {previous : Option Json} {o : Outcome Op World Exn Request} {rid : String} (hid : r.id = rid)
    (ho : PipelineOutcome cfg env r now feedback previous w o) : ∃ sent,
    o.state.outbox = w.outbox ++ sent ∧ ∀ e ∈ sent, About cfg o.state rid e.2 := by
  subst hid
  cases ho with
  | failed => exact ⟨[], by simp, by simp⟩
  | stopped exc w' trace hgen hexc hrepo houtbox => exact ⟨[], by simp [houtbox], by simp⟩
  | made p hp =>
    refine ⟨_, rfl, fun e he => ?_⟩
    obtain ⟨letter, hletter, hover⟩ := exists_handOver hp now
    rw [hover] at he
    obtain ⟨c, m⟩ := e
    obtain ⟨-, recipient, -, rfl⟩ := mem_sendOn he
    have hdelivered : (delivered r now).id = r.id := rfl
    refine .delivery _ (delivered r now) _ _ _ _ recipient hdelivered hletter ?_ le_rfl
    simp [madeWorld, hdelivered]

variable (cfg) in
/-- **What an invocation sends** is about its own request. -/
theorem outbox_step (hw : Wf w) (c : Call) : ∃ sent,
    (step cfg w c).outbox = w.outbox ++ sent ∧
      ∀ e ∈ sent, About cfg (step cfg w c) c.requestId e.2 := by
  unfold step
  cases c with
  | ingest b env =>
    have h := ingest_outcome cfg w b env
    generalize outcome cfg w (.ingest b env) = o at h ⊢
    cases h with
    | unclassified => exact ⟨[], (List.append_nil _).symm, by simp⟩
    | silent => exact ⟨[], (List.append_nil _).symm, by simp⟩
    | told result =>
      refine ⟨_, rfl, about_notify rfl ?_⟩
      have hid : (settledRequest cfg env b result).id = b.aggregated.requestId := rfl
      simp [Call.requestId, hid]
  | action a now env =>
    have h := action_outcome cfg w a now env
    generalize outcome cfg w (.action a now env) = o at h ⊢
    cases h with
    | unknown | duplicate | refused => exact ⟨[], (List.append_nil _).symm, by simp⟩
    | accepted r hr hfresh hgate o ho =>
      have hid : r.id = a.requestId := hw.id_eq hr
      cases ho with
      | settled | unnamed => exact ⟨[], (List.append_nil _).symm, by simp⟩
      | corrected hd intent =>
        have hid' : (withIntent (r.moved (target a.decision) now) (some intent)).id =
            a.requestId := hid
        refine ⟨_, rfl, about_notify hid' ?_⟩
        simp [Call.requestId, hid']
      | pipeline hd lookups hlookups o ho =>
        have hid' : (r.moved (target a.decision) now).id = a.requestId := hid
        have hsent : ∃ sent, o.state.outbox = (acceptedWorld a r now w).outbox ++ sent ∧
            ∀ e ∈ sent, About cfg o.state a.requestId e.2 := outbox_pipeline hid' ho
        exact hsent

theorem outbox_subset (hw : Wf w) (c : Call) : w.outbox ⊆ (step cfg w c).outbox := by
  obtain ⟨sent, hsent, -⟩ := outbox_step cfg hw c
  rw [hsent]
  exact List.subset_append_left _ _

/-- The request stays, and its counter does not go down. -/
def Keeps (w w' : World) (rid : String) : Prop :=
  ∀ r, w.repo.requests rid = some r →
    ∃ r', w'.repo.requests rid = some r' ∧ r.currentRevision ≤ r'.currentRevision

theorem About.mono {w' : World} {rid : String} {m : OutboundMessage} (h : About cfg w rid m)
    (hkeeps : Keeps w w' rid) : About cfg w' rid m := by
  cases h with
  | notice r name result t recipient hid hpresent =>
    obtain ⟨r₀, hr₀⟩ := Option.ne_none_iff_exists'.mp hpresent
    obtain ⟨r', hr', -⟩ := hkeeps r₀ hr₀
    exact .notice r name result t recipient hid (by simp [hr'])
  | delivery r r₀ n attachments t letter recipient hid hletter hr₀ hn =>
    obtain ⟨r', hr', hle⟩ := hkeeps r₀ hr₀
    exact .delivery r r' n attachments t letter recipient hid hletter hr' (hn.trans hle)

theorem keeps_step (hw : Wf w) {c : Call} (hfresh : Fresh w c) (rid : String) :
    Keeps w (step cfg w c) rid := by
  intro r hr
  have hpresent : w.repo.requests rid ≠ none := by simp [hr]
  obtain ⟨r', hr'⟩ := Option.ne_none_iff_exists'.mp (present_step cfg hw c hpresent)
  refine ⟨r', hr', ?_⟩
  have hlog := logStep cfg hw hfresh rid
  generalize producer cfg rid (w, c) = made at hlog
  cases hlog with
  | kept hrevs hcurrent =>
    rcases hcurrent r' hr' with ⟨hnone, -⟩ | ⟨r₁, hr₁, hsame⟩
    · exact absurd hnone hpresent
    · rw [hr, Option.some.injEq] at hr₁
      rw [hsame, hr₁]
  | added a r₁ revision hr₁ hrevs hno hid hfeedback hcurrent =>
    rw [hr, Option.some.injEq] at hr₁
    have hnext := hcurrent r' hr'
    rw [← hr₁] at hnext
    omega

/-- **The outbox is about requests that exist**, in every step. -/
theorem posted_step (hw : Wf w) {c : Call} (hfresh : Fresh w c) (h : Posted cfg w) :
    Posted cfg (step cfg w c) := by
  obtain ⟨sent, hsent, habout⟩ := outbox_step cfg hw c
  intro e he
  rw [hsent, List.mem_append] at he
  rcases he with he | he
  · obtain ⟨rid, hold⟩ := h e he
    exact ⟨rid, hold.mono (keeps_step hw hfresh rid)⟩
  · exact ⟨c.requestId, habout e he⟩

/-! ### One invocation -/

theorem Noticed.mono {w' : World} {rid : String} {intent : Option Intent} {c : Channel}
    (h : Noticed cfg w rid intent c) (hout : w.outbox ⊆ w'.outbox) :
    Noticed cfg w' rid intent c := by
  obtain ⟨r, name, result, t, recipient, hid, hintent, htarget, hmem⟩ := h
  exact ⟨r, name, result, t, recipient, hid, hintent, htarget, hout hmem⟩

theorem PromptedFor.mono {w' : World} {r : Request} (h : PromptedFor cfg w r)
    (hout : w.outbox ⊆ w'.outbox) (hrevs : w'.repo.revisions r.id = w.repo.revisions r.id)
    (hstorage : ∀ key, FileOf r.id key → w'.storage key = w.storage key) :
    PromptedFor cfg w' r := by
  refine ⟨fun hs c hc => (h.noticed hs c hc).mono hout, fun hs c hc => ?_⟩
  obtain ⟨r', attachments, t, letter, recipient, p, revision, hid, hletter, hfiles, htarget, hmem⟩ :=
    h.delivered hs c hc
  refine ⟨r', attachments, t, letter, recipient, p, revision, hid, hletter, ?_, htarget, hout hmem⟩
  exact { hfiles with
    logged := by
      rw [Repository.getRevisions, hrevs]
      exact hfiles.logged
    pdf := by rw [hstorage _ (fileOf_pdfKey hfiles.actionable), hfiles.pdf]
    docx := by rw [hstorage _ (fileOf_docxKey hfiles.actionable), hfiles.docx] }

theorem prompted_step_iff (hw : Wf w) (h : Prompted cfg w) (c : Call) :
    Prompted cfg (step cfg w c) ↔
      ∀ r, (step cfg w c).repo.requests c.requestId = some r → PromptedFor cfg (step cfg w c) r := by
  refine ⟨fun hall r hr => hall c.requestId r hr, fun hown rid r hr => ?_⟩
  by_cases hne : rid = c.requestId
  · exact hown r (hne ▸ hr)
  · have hlocal : Local w c.requestId (step cfg w c) := step_local hw c
    have hr₀ : w.repo.requests rid = some r := by rwa [← hlocal.requests hne]
    have hid : r.id = rid := hw.id_eq hr₀
    refine (h rid r hr₀).mono (outbox_subset hw c) ?_ fun key hkey => storage_step hw hkey ?_
    · rw [hid, hlocal.revisions hne]
    · rwa [hid]

theorem channels_ne_nil (channel : Channel) : ∃ c, c ∈ channels channel := by
  cases channel <;> exact ⟨_, List.mem_cons_self⟩

theorem promptedFor_of_idle {r : Request} {s : RequestState} (hstate : r.state = s)
    (h : s ≠ .awaitingClassification ∧ s ≠ .awaitingApproval) : PromptedFor cfg w r := by
  subst hstate
  exact ⟨fun hs => absurd hs h.1, fun hs => absurd hs h.2⟩

/-- **When a request is noticed** after a notification. -/
theorem noticed_posted_iff {w' : World} {r : Request} {name : String}
    {result : ClassificationResult} {t : Instant} {env : External} {c : Channel}
    (hout : w'.outbox = w.outbox ++
      (cfg.notify.notifyClassification env.send r name result t).sent) :
    Noticed cfg w' r.id (some result.intent) c ↔
      Noticed cfg w r.id (some result.intent) c ∨
        Reaches cfg.notify.dispatcher env.send (notice cfg.notify r name result t)
          (channels cfg.notify.notifyChannel) c := by
  rw [notifyClassification_eq] at hout
  constructor
  · rintro ⟨r', name', result', t', recipient, hid, hintent, htarget, hmem⟩
    rw [hout, List.mem_append] at hmem
    rcases hmem with hmem | hmem
    · exact .inl ⟨r', name', result', t', recipient, hid, hintent, htarget, hmem⟩
    · exact .inr (mem_sent_iff.mp hmem).1
  · rintro (h | h)
    · exact h.mono (by rw [hout]; exact List.subset_append_left _ _)
    · obtain ⟨recipient, _, htarget, -⟩ := h.takes
      refine ⟨r, name, result, t, recipient, rfl, rfl, htarget, ?_⟩
      rw [hout]
      exact List.mem_append_right _ (mem_sent_iff.mpr ⟨h, recipient, htarget, rfl⟩)

section made

variable {env : External} {r : Request} {now : Instant} {feedback : Option String}
  {previous : Option Json} {p : Product}

theorem filesOf_made (hp : produce cfg env r feedback previous = .ok p)
    (sent : List (Channel × OutboundMessage)) :
    FilesOf cfg ((madeWorld cfg env r now feedback previous p w).posted sent) (delivered r now)
      (p.attachments r.id (r.currentRevision + 1)) p
      (nextRevision r p.doc feedback (p.refs cfg r.id (r.currentRevision + 1)) now) := by
  obtain ⟨hi, hne⟩ := produce_ok hp
  have hkeys := pdfKey_ne_docxKey hne r.id (r.currentRevision + 1)
  have hrefs := refFor_refs cfg p r.id (r.currentRevision + 1)
  refine ⟨hi, rfl, ?_, rfl, rfl, hrefs.1, hrefs.2, hne, ?_, ?_⟩
  · have hrevs : (madeWorld cfg env r now feedback previous p w).repo.revisions r.id =
        w.repo.revisions r.id ++
          [nextRevision r p.doc feedback (p.refs cfg r.id (r.currentRevision + 1)) now] := by
      simp [madeWorld, nextRevision]
    have hlog : ((madeWorld cfg env r now feedback previous p w).posted sent).repo.getRevisions
        (delivered r now).id = (madeWorld cfg env r now feedback previous p w).repo.revisions r.id :=
      rfl
    rw [hlog, hrevs]
    exact List.mem_concat_self
  · exact (Function.update_of_ne hkeys _ _).trans (Function.update_self _ _ _)
  · exact Function.update_self _ _ _

/-- **When a revision is delivered** after it was made. -/
theorem delivered_made_iff (hjson : cfg.notify.signer.codec.Lossless) (hposted : Posted cfg w)
    (hcurrent : ∀ r₀, w.repo.requests r.id = some r₀ → r₀.currentRevision = r.currentRevision)
    (hp : produce cfg env r feedback previous = .ok p) {letter : String → OutboundMessage}
    (hletter : delivery cfg.notify (delivered r now) (r.currentRevision + 1)
      (p.attachments r.id (r.currentRevision + 1)) now = .ok letter) {c : Channel} :
    Delivered cfg ((madeWorld cfg env r now feedback previous p w).posted
        (handOver cfg env r now p).sent) (delivered r now) c ↔
      Reaches cfg.notify.dispatcher env.send letter (channels cfg.notify.deliverChannel) c := by
  have hover : handOver cfg env r now p = cfg.notify.dispatcher.sendOn env.send letter
      (channels cfg.notify.deliverChannel) := deliverDocument_eq hletter
  have hout : ((madeWorld cfg env r now feedback previous p w).posted
      (handOver cfg env r now p).sent).outbox = w.outbox ++ (handOver cfg env r now p).sent := rfl
  constructor
  · rintro ⟨r', attachments, t, letter', recipient, p', revision, hid, hletter', -, -, hmem⟩
    rw [hout, List.mem_append] at hmem
    rcases hmem with hmem | hmem
    · refine absurd hmem (delivery_notMem hjson hposted (fun r₀ hr₀ => ?_) hletter' c recipient)
      have hid' : r'.id = r.id := hid
      rw [hcurrent r₀ (hid' ▸ hr₀)]
      exact Nat.lt_succ_self _
    · rw [hover] at hmem
      exact (mem_sent_iff.mp hmem).1
  · intro h
    obtain ⟨recipient, _, htarget, -⟩ := h.takes
    refine ⟨delivered r now, _, now, letter, recipient, p, _, rfl, hletter, filesOf_made hp _,
      htarget, ?_⟩
    rw [hout, hover]
    exact List.mem_append_right _ (mem_sent_iff.mpr ⟨h, recipient, htarget, rfl⟩)

end made

theorem own_iff {w' : World} {rid : String} {r : Request} (hr : w'.repo.requests rid = some r) :
    (∀ r', w'.repo.requests rid = some r' → PromptedFor cfg w' r') ↔ PromptedFor cfg w' r := by
  simp only [hr, Option.some.injEq, forall_eq']

theorem ingest_prompted_iff (hjson : cfg.notify.signer.codec.Lossless) (hposted : Posted cfg w)
    {b : Batch} {env : External} (hfresh : Fresh w (.ingest b env)) :
    (∀ r, (step cfg w (.ingest b env)).repo.requests b.aggregated.requestId = some r →
      PromptedFor cfg (step cfg w (.ingest b env)) r) ↔ PromptsTaken cfg w (.ingest b env) := by
  have ho := ingest_outcome cfg w b env
  unfold step
  generalize outcome cfg w (.ingest b env) = o at ho ⊢
  cases ho with
  | unclassified exc hclass =>
    have hr : (enteredWorld cfg env b w).repo.requests b.aggregated.requestId =
        some (classifying cfg env b) := Function.update_self _ _ _
    rw [own_iff hr]
    refine iff_of_true (promptedFor_of_idle (s := .classifying) rfl (by decide)) fun result hres => ?_
    rw [hclass] at hres
    cases hres
  | silent result hclass ha =>
    have hr : ((enteredWorld cfg env b w).saved (settledRequest cfg env b result)).repo.requests
        b.aggregated.requestId = some (settledRequest cfg env b result) :=
      Function.update_self _ _ _
    have hstate : (settledRequest cfg env b result).state = .discarded := by
      change settledState result = _
      rw [settledState, if_neg (by simp [ha])]
    rw [own_iff hr]
    refine iff_of_true (promptedFor_of_idle hstate (by decide)) fun result' hres ha' => ?_
    rw [hclass, Except.ok.injEq] at hres
    rw [← hres, ha] at ha'
    cases ha'
  | told result hclass =>
    have hr : (((enteredWorld cfg env b w).saved (settledRequest cfg env b result)).posted
        (announce cfg env b result).sent).repo.requests b.aggregated.requestId =
          some (settledRequest cfg env b result) := Function.update_self _ _ _
    have hstate : (settledRequest cfg env b result).state = settledState result := rfl
    rw [own_iff hr]
    by_cases ha : result.isActionable = true
    · rw [settledState, if_pos ha] at hstate
      have hiff : ∀ c, Noticed cfg (((enteredWorld cfg env b w).saved
          (settledRequest cfg env b result)).posted (announce cfg env b result).sent)
            (settledRequest cfg env b result).id (some result.intent) c ↔
          Reaches cfg.notify.dispatcher env.send
            (notice cfg.notify (settledRequest cfg env b result) b.clientName result b.now)
              (channels cfg.notify.notifyChannel) c := by
        intro c
        rw [noticed_posted_iff (w := w) rfl]
        refine or_iff_right (not_noticed_of_unknown hjson hposted ?_)
        exact hfresh
      constructor
      · intro h result' hres _
        rw [hclass, Except.ok.injEq] at hres
        subst hres
        exact reaches_all_iff.mp fun c hc => (hiff c).mp (h.noticed hstate c hc)
      · intro h
        have htaken := reaches_all_iff.mpr (h result hclass ha)
        refine ⟨fun _ c hc => (hiff c).mpr (htaken c hc), fun hs => ?_⟩
        rw [hstate] at hs
        cases hs
    · rw [settledState, if_neg ha] at hstate
      refine iff_of_true (promptedFor_of_idle hstate (by decide)) fun result' hres ha' => ?_
      rw [hclass, Except.ok.injEq] at hres
      exact absurd (hres ▸ ha') ha

theorem pipeline_prompted_iff (hjson : cfg.notify.signer.codec.Lossless) (hposted : Posted cfg w)
    {env : External} {r : Request} {now : Instant} {feedback : Option String}
    {previous : Option Json} {o : Outcome Op World Exn Request} {rid : String} (hid : r.id = rid)
    (hr : w.repo.requests rid = some r) (hs : r.state = .generating)
    (ho : PipelineOutcome cfg env r now feedback previous w o) :
    (∀ r', o.state.repo.requests rid = some r' → PromptedFor cfg o.state r') ↔
      ∀ p, produce cfg env r feedback previous = .ok p → ∀ letter,
        delivery cfg.notify (delivered r now) (r.currentRevision + 1)
          (p.attachments r.id (r.currentRevision + 1)) now = .ok letter →
            ∀ c ∈ channels cfg.notify.deliverChannel,
              Takes cfg.notify.dispatcher env.send letter c := by
  subst hid
  cases ho with
  | failed text hgen =>
    have hr' : ((w.asked (generated cfg env r feedback previous).calls).saved
        (r.moved .failed now)).repo.requests r.id = some (r.moved .failed now) :=
      Function.update_self _ _ _
    rw [own_iff hr']
    refine iff_of_true (promptedFor_of_idle (s := .failed) rfl (by decide)) fun p hp => ?_
    rw [produce, hgen, error_bind] at hp
    cases hp
  | stopped exc w' trace hgen hexc hrepo =>
    have hr' : w'.repo.requests r.id = some r := by rw [hrepo, hr]
    rw [own_iff hr']
    refine iff_of_true (promptedFor_of_idle hs (by decide)) fun p hp => ?_
    rw [hexc] at hp
    cases hp
  | made p hp =>
    have hr' : ((madeWorld cfg env r now feedback previous p w).posted
        (handOver cfg env r now p).sent).repo.requests r.id = some (delivered r now) :=
      Function.update_self _ _ _
    have hcurrent : ∀ r₀, w.repo.requests r.id = some r₀ →
        r₀.currentRevision = r.currentRevision := by
      intro r₀ hr₀
      rw [hr, Option.some.injEq] at hr₀
      rw [hr₀]
    rw [own_iff hr']
    constructor
    · intro h p' hp' letter hletter
      rw [hp, Except.ok.injEq] at hp'
      subst hp'
      exact reaches_all_iff.mp fun c hc =>
        (delivered_made_iff hjson hposted hcurrent hp hletter).mp (h.delivered rfl c hc)
    · intro h
      obtain ⟨letter, hletter, -⟩ := exists_handOver hp now
      have htaken := reaches_all_iff.mpr (h p hp letter hletter)
      refine ⟨fun hs' => (by cases hs'), fun _ c hc => ?_⟩
      exact (delivered_made_iff hjson hposted hcurrent hp hletter).mpr (htaken c hc)

/-- An accepted action, before what follows its transition. -/
theorem Posted.accepted (h : Posted cfg w) {a : OwnerAction} {r : Request} {now : Instant}
    (hid : r.id = a.requestId) (hr : w.repo.requests a.requestId = some r) :
    Posted cfg (acceptedWorld a r now w) := by
  intro e he
  obtain ⟨rid, habout⟩ := h e he
  refine ⟨rid, habout.mono fun r₀ hr₀ => ?_⟩
  by_cases hne : rid = a.requestId
  · subst hne
    rw [hr, Option.some.injEq] at hr₀
    exact ⟨_, acceptedWorld_requests hid, by rw [hr₀]; rfl⟩
  · refine ⟨r₀, ?_, le_rfl⟩
    simpa [acceptedWorld, hid, hne] using hr₀

theorem not_noticed_none {rid : String} {c : Channel} : ¬ Noticed cfg w rid none c := by
  rintro ⟨r, name, result, t, recipient, -, hintent, -⟩
  cases hintent

theorem follow_prompted_iff (hjson : cfg.notify.signer.codec.Lossless) (hposted : Posted cfg w)
    {a : OwnerAction} {r : Request} {now : Instant} {env : External}
    {o : Outcome Op World Exn Request} (hid : r.id = a.requestId)
    (hr : w.repo.requests a.requestId = some r)
    (ho : FollowOutcome cfg env a (r.moved (target a.decision) now) now
      (acceptedWorld a r now w) o) :
    (∀ r', o.state.repo.requests a.requestId = some r' → PromptedFor cfg o.state r') ↔
      ActionTaken cfg w a r now env := by
  cases ho with
  | settled hd =>
    rw [own_iff (acceptedWorld_requests hid)]
    refine iff_of_true ?_ ?_
    · rcases hd with hd | hd
      · exact promptedFor_of_idle (s := .completed) (by rw [hd]; rfl) (by decide)
      · exact promptedFor_of_idle (s := .discarded) (by rw [hd]; rfl) (by decide)
    · constructor <;> intro hd' <;> rcases hd with hd | hd <;> rw [hd] at hd' <;> cases hd'
  | unnamed hd hi =>
    have hr' : ((acceptedWorld a r now w).saved
        (withIntent (r.moved (target a.decision) now) none)).repo.requests a.requestId =
          some (withIntent (r.moved (target a.decision) now) none) := by
      rw [← hid]
      exact Function.update_self _ _ _
    rw [own_iff hr']
    refine iff_of_false (fun h => ?_) fun h => ?_
    · obtain ⟨c, hc⟩ := channels_ne_nil cfg.notify.notifyChannel
      exact not_noticed_none (h.noticed (by rw [hd]; rfl) c hc)
    · obtain ⟨intent, hintent, -⟩ := h.correction hd
      rw [hi] at hintent
      cases hintent
  | corrected hd intent hi =>
    have hr' : (((acceptedWorld a r now w).saved
        (withIntent (r.moved (target a.decision) now) intent)).posted
          (renotice cfg env (withIntent (r.moved (target a.decision) now) intent) intent
            now).sent).repo.requests a.requestId =
          some (withIntent (r.moved (target a.decision) now) intent) := by
      rw [← hid]
      exact Function.update_self _ _ _
    have hcorrected : withIntent (r.moved (target a.decision) now) intent =
        corrected r intent now := by rw [hd]; rfl
    rw [own_iff hr', hcorrected]
    have hiff : ∀ c, Noticed cfg (((acceptedWorld a r now w).saved (corrected r intent now)).posted
        (renotice cfg env (corrected r intent now) intent now).sent) (corrected r intent now).id
          (some (correction intent).intent) c ↔ Noticed cfg w r.id (some intent) c ∨
            Reaches cfg.notify.dispatcher env.send
              (notice cfg.notify (corrected r intent now) r.displayName (correction intent) now)
              (channels cfg.notify.notifyChannel) c :=
      fun c => noticed_posted_iff rfl
    constructor
    · intro h
      refine ⟨fun _ => ⟨intent, hi, fun c hc => (hiff c).mp (h.noticed rfl c hc)⟩, fun hd' => ?_⟩
      rw [hd] at hd'
      cases hd'
    · intro h
      obtain ⟨intent', hi', htaken⟩ := h.correction hd
      rw [hi, Option.some.injEq] at hi'
      subst hi'
      exact ⟨fun _ c hc => (hiff c).mpr (htaken c hc), fun hs => (by cases hs)⟩
  | pipeline hd lookups hlookups o ho =>
    have hs : target a.decision = .generating := by
      cases hdec : a.decision <;> rw [hdec] at hd <;> first | rfl | cases hd
    have hid' : (r.moved (target a.decision) now).id = a.requestId := hid
    have hiff := pipeline_prompted_iff hjson (hposted.accepted hid hr) hid'
      (acceptedWorld_requests hid) hs ho
    refine hiff.trans ⟨fun h => ⟨fun hd' => ?_, fun _ p hp => h p hp⟩, fun h p hp => ?_⟩
    · rw [hd'] at hd
      cases hd
    · exact h.delivery hd p hp

theorem action_prompted_iff (hjson : cfg.notify.signer.codec.Lossless) (hw : Wf w)
    (hposted : Posted cfg w) (h : Prompted cfg w) (a : OwnerAction) (now : Instant)
    (env : External) :
    (∀ r, (step cfg w (.action a now env)).repo.requests a.requestId = some r →
      PromptedFor cfg (step cfg w (.action a now env)) r) ↔
        PromptsTaken cfg w (.action a now env) := by
  have ho := action_outcome cfg w a now env
  unfold step
  generalize outcome cfg w (.action a now env) = o at ho ⊢
  cases ho with
  | unknown hr =>
    exact iff_of_true (fun r hr' => h _ r hr')
      fun r hr' hacc => absurd hacc (not_accepted_of_unknown hr)
  | duplicate r hr hdup =>
    exact iff_of_true (fun r' hr' => h _ r' hr')
      fun r' hr' hacc => absurd hacc (not_accepted_of_seen hdup)
  | refused r hr hfresh hgate =>
    refine iff_of_true (fun r' hr' => ?_)
      fun r' hr' hacc => absurd hacc (not_accepted_of_gate hr hgate)
    exact (h _ r' hr').mono (List.Subset.refl _) rfl fun _ _ => rfl
  | accepted r hr hfresh hgate o ho =>
    have hacc : Accepted w a := accepted_iff.mpr ⟨r, hr, hfresh, hgate⟩
    refine (follow_prompted_iff hjson hposted (hw.id_eq hr) hr ho).trans
      ⟨fun htaken r' hr' _ => ?_, fun htaken => htaken r hr hacc⟩
    rw [Repository.getRequest, hr, Option.some.injEq] at hr'
    exact hr' ▸ htaken

/-- **When an invocation leaves every waiting request prompted.** -/
theorem prompted_iff_step (hjson : cfg.notify.signer.codec.Lossless) (hw : Wf w)
    (hposted : Posted cfg w) (h : Prompted cfg w) {c : Call} (hfresh : Fresh w c) :
    Prompted cfg (step cfg w c) ↔ PromptsTaken cfg w c := by
  rw [prompted_step_iff hw h]
  cases c with
  | ingest b env => exact ingest_prompted_iff hjson hposted hfresh
  | action a now env => exact action_prompted_iff hjson hw hposted h a now env

/-! ### Whole runs -/

/-- **When no request ever waits unasked.** In all states of a run, every request that waits at a
gate has its prompt out on every channel of that gate, if and only if every prompt of the run is
taken. -/
theorem prompted_iff (hjson : cfg.notify.signer.codec.Lossless) {cs : List Call}
    (hids : (ingestIds cs).Nodup) :
    (∀ pre, pre <+: cs → Prompted cfg (run (step cfg) World.initial pre)) ↔
      Along (step cfg) (PromptsTaken cfg) World.initial cs := by
  refine prefixes_iff (I := fun w => Wf w ∧ Posted cfg w) ?_ ?_ ⟨wf_initial, posted_initial⟩ ?_
    (fresh_of_nodup hids)
  · exact fun w c h hfresh => ⟨wf_step h.1 c, posted_step h.1 hfresh h.2⟩
  · exact fun w c h hfresh hG => prompted_iff_step hjson h.1 h.2 hG hfresh
  · intro rid r hr
    cases hr

namespace Sample

theorem takes_email {codec : TokenCodec} {text : String} (letter : String → OutboundMessage) :
    ∀ c ∈ channels .email,
      Takes (config codec false).notify.dispatcher (external text).send letter c := by
  intro c hc
  obtain rfl : c = .email := by simpa [channels, concreteChannels, Channel.includes] using hc
  exact ⟨"owner@example.com", "msg-1", rfl, rfl⟩

theorem promptsTaken_oneRevision :
    Along (step (config lossless false)) (PromptsTaken (config lossless false)) World.initial
      oneRevision := by
  refine ⟨fun result _ _ => takes_email _, fun r _ _ => ?_, trivial⟩
  exact ⟨fun hd => (by cases hd), fun _ p _ letter _ => takes_email letter⟩

/-- An announced ingest while the mail server is down. -/
def unannounced : Call :=
  .ingest (batch "r1" start)
    { external (classifierText .executionPlan) with send := fun _ _ => .error "connection refused" }

end Sample

open Sample in
/-- After a confirmation whose calls succeed, the request waits and its owner was asked. -/
theorem prompted_iff_oneRevision :
    ((run (step (config lossless false)) World.initial oneRevision).repo.requests "r1").map
        (·.state) = some .awaitingApproval ∧
      ∀ pre, pre <+: oneRevision →
        Prompted (config lossless false) (run (step (config lossless false)) World.initial pre) :=
  ⟨by decide +kernel, (prompted_iff lossless_lossless (by decide)).mpr promptsTaken_oneRevision⟩

open Sample in
/-- An ingest whose notification is not taken leaves a request that waits unasked. -/
theorem waits_unprompted :
    ¬ ∀ (cfg : Config) (cs : List Call), cfg.notify.signer.codec.Lossless → (ingestIds cs).Nodup →
      ∀ pre, pre <+: cs → Prompted cfg (run (step cfg) World.initial pre) := by
  intro h
  have hprompted := h (config lossless false) [unannounced] lossless_lossless (by decide) _
    (List.prefix_refl _)
  have hstate : ((run (step (config lossless false)) World.initial [unannounced]).repo.requests
      "r1").map (·.state) = some .awaitingClassification := by decide +kernel
  have hempty : (run (step (config lossless false)) World.initial [unannounced]).outbox.isEmpty =
      true := by decide +kernel
  obtain ⟨r, hr, hs⟩ := Option.map_eq_some_iff.mp hstate
  obtain ⟨r', name, result, t, recipient, -, -, -, hmem⟩ :=
    (hprompted "r1" r hr).noticed hs .email (by decide)
  rw [List.isEmpty_iff.mp hempty] at hmem
  cases hmem

end WappPlanner.Orchestrator
