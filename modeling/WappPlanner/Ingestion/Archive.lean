import WappPlanner.Ingestion.MediaDownloader
import WappPlanner.Orchestrator.Artifacts
import WappPlanner.Orchestrator.RevisionLog

/-! # Stored files stay

What is stored for a revision is stored under keys that nothing else ever writes: another request or
another revision has other keys (`artifact_inj`), inbound media go under `inbound/`, and the number of
a revision is given once. So the two files of every revision of a log are, at every later point, what
was rendered from its content when it was made, and what was sent to the owner (`archived_run`). -/

namespace WappPlanner.Ingestion

open WappPlanner.Documents.Content WappPlanner.Documents.Generation WappPlanner.Documents.Layout
open WappPlanner.Domain.Enums WappPlanner.Domain.Models WappPlanner.Errors
open WappPlanner.Hitl.Dispatcher
open WappPlanner.Hitl.Service WappPlanner.Lib.Programs WappPlanner.Lib.Runs
open WappPlanner.Orchestrator WappPlanner.Providers.Base WappPlanner.Py.Text
open WappPlanner.Py.Values WappPlanner.Workflow.Enums WappPlanner.Workflow.StateMachine

/-- What writes to the storage: an invocation of the orchestrator, or an inbound download. -/
inductive Event
  | call (c : Call)
  | inbound (messageId mediaId : String) (source : MediaSource)

/-- The invocation of the orchestrator, if it is one. -/
def Event.call? : Event → Option Call
  | call c => some c
  | inbound _ _ _ => none

/-- The requests a run ingests. -/
def ingested (es : List Event) : List String := ingestIds (es.filterMap Event.call?)

/-- The id is not one that inbound media are stored for. -/
def Outside (rid : String) : Prop := rid ≠ "inbound" ∧ startsWith rid "inbound/" = false

variable (cfg : Config) (downloader : MediaDownloader) (T : Tables)

/-- The world an event leaves. -/
def happen (w : World) : Event → World
  | .call c => step cfg w c
  | .inbound messageId mediaId source =>
    (downloader.fetchAndStore T cfg.storageRef source "inbound" messageId mediaId w).2

/-- The revision an operation logs. -/
def loggedOf : Entry Op → Option DocumentRevision
  | ⟨_, .addRevision revision, _⟩ => some revision
  | _ => none

/-- What an operation delivers. -/
def handOf : Entry Op → Option (Request × ℕ × List Attachment × Instant)
  | ⟨_, .deliverDocument r n attachments t, _⟩ => some (r, n, attachments, t)
  | _ => none

/-- The object behind a reference. -/
structure Behind (w : World) (ref : Option String) (object : Bytes × String) : Prop where
  stored : ∃ key, ref = some (cfg.storageRef key)
  object : ∀ key, ref = some (cfg.storageRef key) → w.storage key = some object

/-- An event logged a revision, and rendered its two files from its content. -/
def RenderedIn (e : World × Event) (revision : DocumentRevision) (pdf docx : Bytes) : Prop :=
  ∃ a now env content, e.2 = .call (.action a now env) ∧
    revision ∈ (outcome cfg e.1 (.action a now env)).trace.filterMap loggedOf ∧
      revision.structuredContent = content.modelDump ∧
        env.renderers.renderPdf (buildBlocks content cfg.branding) = .ok pdf ∧
          env.renderers.renderDocx (buildBlocks content cfg.branding) = .ok docx

/-- An event sent a message that delivers revision `n` of a request. -/
def DeliveredIn (e : World × Event) (rid : String) (n : ℕ) (m : OutboundMessage) : Prop :=
  ∃ a now env r attachments t c, e.2 = .call (.action a now env) ∧ r.id = rid ∧
    (r, n, attachments, t) ∈ (outcome cfg e.1 (.action a now env)).trace.filterMap handOf ∧
      (c, m) ∈ (cfg.notify.deliverDocument env.send r n attachments t).sent

/-- The contents of the files attached to a message, with their types. -/
def attached (m : OutboundMessage) : List (Bytes × String) :=
  m.attachments.map fun att => (att.content, att.contentType)

/-- **The files of a revision** are in the storage, as they were rendered and as they were sent. -/
structure Archived (w : World) (past : List (World × Event)) (rid : String)
    (revision : DocumentRevision) (pdf docx : Bytes) : Prop where
  rendered : ∃ e ∈ past, RenderedIn cfg e revision pdf docx
  pdfFile : Behind cfg w revision.pdfRef (pdf, pdfMime)
  docxFile : Behind cfg w revision.docxRef (docx, docxMime)
  delivered : ∀ e ∈ past, ∀ m, DeliveredIn cfg e rid revision.revisionNo m →
    attached m = [(pdf, pdfMime), (docx, docxMime)]

variable {cfg downloader T} {w : World}

/-! ### Keys -/

/-- **No file of a request is an inbound one.** -/
theorem fileOf_ne_inbound {rid key : String} (hrid : Outside rid) (hkey : FileOf rid key)
    (messageId : String) : key ≠ "inbound" ++ "/" ++ messageId := by
  obtain ⟨n, intent, extension, -, -, rfl⟩ := hkey
  intro h
  have hlists := congrArg String.toList h
  simp only [artifactKey, String.append_assoc, String.toList_append] at hlists
  rcases Lib.Text.before_separator (c := '/') (by decide) hlists with hsame | hprefix
  · exact hrid.1 (String.toList_inj.mp hsame)
  · have hstarts : startsWith rid "inbound/" = true := List.isPrefixOf_iff_prefix.mpr hprefix
    rw [hrid.2] at hstarts
    cases hstarts

variable (cfg downloader T) in
theorem inbound_world (w : World) (messageId mediaId : String) (source : MediaSource) :
    (happen cfg downloader T w (.inbound messageId mediaId source)).repo = w.repo ∧
      ∀ key, key ≠ "inbound" ++ "/" ++ messageId →
        (happen cfg downloader T w (.inbound messageId mediaId source)).storage key =
          w.storage key := by
  have hworld := MediaDownloader.fetchAndStore_world downloader T cfg.storageRef source "inbound"
    messageId mediaId w
  dsimp only [happen]
  rcases hworld with h | ⟨content, mime, h⟩ <;> rw [h]
  · exact ⟨rfl, fun _ _ => rfl⟩
  · exact ⟨rfl, fun key hkey => Function.update_of_ne hkey _ _⟩

/-! ### What an invocation makes -/

section makes

variable {env : External} {r : Request} {now : Instant} {feedback : Option String}
  {previous : Option Json}

theorem handOf_quiet {args : GenerateArgs} {es : List (Entry Op)} (h : ∀ e ∈ es, Quiet args e) :
    es.filterMap handOf = [] := by
  refine List.filterMap_eq_nil_iff.mpr fun e he => ?_
  have hq := h e he
  obtain ⟨β, o, b⟩ := e
  cases o <;> first | rfl | exact hq.elim

theorem loggedOf_quiet {args : GenerateArgs} {es : List (Entry Op)} (h : ∀ e ∈ es, Quiet args e) :
    es.filterMap loggedOf = [] := by
  refine List.filterMap_eq_nil_iff.mpr fun e he => ?_
  have hq := h e he
  obtain ⟨β, o, b⟩ := e
  cases o <;> first | rfl | exact hq.elim

variable (cfg) in
/-- **What an invocation does to the files of its request**: it stores none under the number of a
revision that there is, and delivers none; or it makes the next revision. -/
inductive FileStep (w : World) : Call → Outcome Op World Exn Request → Prop
  | kept (c : Call) (o : Outcome Op World Exn Request)
      (hrevs : o.state.repo.revisions c.requestId = w.repo.revisions c.requestId)
      (hfiles : ∀ r, w.repo.requests c.requestId = some r → ∀ n ≤ r.currentRevision,
        ∀ intent, intent ≠ .none →
          o.state.storage (pdfKey c.requestId n intent) = w.storage (pdfKey c.requestId n intent) ∧
            o.state.storage (docxKey c.requestId n intent) =
              w.storage (docxKey c.requestId n intent))
      (hquiet : o.trace.filterMap handOf = []) :
      FileStep w c o
  | made (a : OwnerAction) (now : Instant) (env : External) (r : Request) (p : Product)
      (o : Outcome Op World Exn Request) (hr : w.repo.requests a.requestId = some r)
      (hp : Rendered cfg env r (feedbackOf a) (priorContent a r w) p)
      (hlog : nextRevision r p.doc (feedbackOf a) (p.refs cfg r.id (r.currentRevision + 1)) now ∈
        o.trace.filterMap loggedOf)
      (hrevs : o.state.repo.revisions a.requestId = w.repo.revisions a.requestId ++
        [nextRevision r p.doc (feedbackOf a) (p.refs cfg r.id (r.currentRevision + 1)) now])
      (hrequest : o.state.repo.requests a.requestId =
        some (delivered (r.moved (target a.decision) now) now))
      (hstorage : o.state.storage = Function.update (Function.update w.storage
        (pdfKey r.id (r.currentRevision + 1) p.intent) (some (p.pdf, pdfMime)))
          (docxKey r.id (r.currentRevision + 1) p.intent) (some (p.docx, docxMime)))
      (hhand : o.trace.filterMap handOf = [(delivered (r.moved (target a.decision) now) now,
        r.currentRevision + 1, p.attachments r.id (r.currentRevision + 1), now)]) :
      FileStep w (.action a now env) o

end makes

/-- Files of earlier revisions have other keys. -/
theorem key_ne {rid : String} {n n' : ℕ} {intent intent' : Intent} (hi : intent ≠ .none)
    (hi' : intent' ≠ .none) (hn : n ≠ n') :
    pdfKey rid n intent ≠ pdfKey rid n' intent' ∧ pdfKey rid n intent ≠ docxKey rid n' intent' ∧
      docxKey rid n intent ≠ pdfKey rid n' intent' ∧
        docxKey rid n intent ≠ docxKey rid n' intent' :=
  ⟨fun h => hn (artifact_inj hi hi' (by simp) (by simp) h).2.1,
    fun h => hn (artifact_inj hi hi' (by simp) (by simp) h).2.1,
    fun h => hn (artifact_inj hi hi' (by simp) (by simp) h).2.1,
    fun h => hn (artifact_inj hi hi' (by simp) (by simp) h).2.1⟩

theorem fileStep_ingest (b : Batch) (env : External) :
    FileStep cfg w (.ingest b env) (outcome cfg w (.ingest b env)) := by
  have ho := ingest_outcome cfg w b env
  generalize outcome cfg w (.ingest b env) = o at ho ⊢
  cases ho <;> exact .kept _ _ rfl (fun _ _ _ _ _ _ => ⟨rfl, rfl⟩) rfl

theorem fileStep_action (hw : Wf w) (a : OwnerAction) (now : Instant) (env : External) :
    FileStep cfg w (.action a now env) (outcome cfg w (.action a now env)) := by
  have ho := action_outcome cfg w a now env
  generalize outcome cfg w (.action a now env) = o at ho ⊢
  cases ho with
  | unknown | duplicate | refused => exact .kept _ _ rfl (fun _ _ _ _ _ _ => ⟨rfl, rfl⟩) rfl
  | accepted r hr hfresh hgate o ho =>
    have hid : r.id = a.requestId := hw.id_eq hr
    cases ho with
    | settled | unnamed | corrected =>
      exact .kept _ _ rfl (fun _ _ _ _ _ _ => ⟨rfl, rfl⟩) rfl
    | pipeline hd lookups hlookups o ho =>
      cases ho with
      | failed =>
        refine .kept _ _ rfl (fun _ _ _ _ _ _ => ⟨rfl, rfl⟩) ?_
        change (lookups ++ _).filterMap handOf = []
        rw [List.filterMap_append, handOf_quiet hlookups]
        rfl
      | stopped exc w' trace hgen hexc hrepo houtbox hstorage htrace =>
        refine .kept _ _ (congrFun (congrArg _ hrepo) _) (fun r₀ hr₀ n hn intent hi => ?_) ?_
        · rw [Call.requestId, hr, Option.some.injEq] at hr₀
          subst hr₀
          have hkeep : ∀ key, (∀ intent', intent' ≠ .none →
              key ≠ pdfKey a.requestId (r.currentRevision + 1) intent' ∧
                key ≠ docxKey a.requestId (r.currentRevision + 1) intent') →
                  w'.storage key = w.storage key := by
            intro key hkey
            refine (hstorage key fun intent' _ hi' => ?_).trans rfl
            rw [Request.id_moved, Request.currentRevision_moved, hid]
            exact hkey intent' hi'
          have hne : n ≠ r.currentRevision + 1 := by omega
          exact ⟨hkeep _ fun intent' hi' => ⟨(key_ne hi hi' hne).1, (key_ne hi hi' hne).2.1⟩,
            hkeep _ fun intent' hi' => ⟨(key_ne hi hi' hne).2.2.1, (key_ne hi hi' hne).2.2.2⟩⟩
        · change (lookups ++ trace).filterMap handOf = []
          rw [List.filterMap_append, handOf_quiet hlookups, handOf_quiet htrace]
          rfl
      | made p hp work hwork =>
        have hrendered : Rendered cfg env r (feedbackOf a) (priorContent a r w) p :=
          rendered_of_produce (show produce cfg env r (feedbackOf a) (priorContent a r w) = .ok p
            from hp)
        refine .made a now env r p _ hr hrendered ?_ ?_ ?_ rfl ?_
        · change _ ∈ (lookups ++ (work ++ madeTrace cfg _ now _ p _)).filterMap loggedOf
          simp only [List.filterMap_append, loggedOf_quiet hlookups, loggedOf_quiet hwork,
            List.nil_append]
          exact List.mem_cons_self
        · simp [madeWorld, nextRevision, acceptedWorld, hid]
        · have hdelivered : (delivered (r.moved (target a.decision) now) now).id = a.requestId := hid
          simp [madeWorld, hdelivered]
        · change (lookups ++ (work ++ madeTrace cfg _ now _ p _)).filterMap handOf = _
          simp only [List.filterMap_append, handOf_quiet hlookups, handOf_quiet hwork,
            List.nil_append]
          rfl

variable (cfg) in
theorem fileStep (hw : Wf w) (c : Call) : FileStep cfg w c (outcome cfg w c) := by
  cases c with
  | ingest b env => exact fileStep_ingest b env
  | action a now env => exact fileStep_action hw a now env

theorem attachments_sent {env : External} {r : Request} {n : ℕ} {attachments : List Attachment}
    {t : Instant} {c : Channel} {m : OutboundMessage}
    (h : (c, m) ∈ (cfg.notify.deliverDocument env.send r n attachments t).sent) :
    m.attachments = attachments := by
  unfold NotificationService.deliverDocument at h
  split at h
  · cases h
  · obtain ⟨-, recipient, -, rfl⟩ := ChannelDispatcher.mem_sendOn h
    rfl

theorem deliveredIn_call (hw : Wf w) {c : Call} {rid : String} {n : ℕ} {m : OutboundMessage}
    (h : DeliveredIn cfg (w, .call c) rid n m) : rid = c.requestId ∧
      ∃ r r', w.repo.requests rid = some r ∧ n = r.currentRevision + 1 ∧
        (step cfg w c).repo.requests rid = some r' ∧ r'.currentRevision = n := by
  obtain ⟨a, now, env, r, attachments, t, ch, hc, rfl, hhand, -⟩ := h
  obtain rfl := Event.call.inj hc
  have hf := fileStep cfg hw (.action a now env)
  dsimp only at hhand
  unfold step
  generalize outcome cfg w (.action a now env) = o at hf hhand ⊢
  cases hf with
  | kept c o hrevs hfiles hquiet =>
    rw [hquiet] at hhand
    cases hhand
  | made a now env r' p o hr hp hlog hrevs hrequest hstorage hhand' =>
    rw [hhand', List.mem_singleton, Prod.mk.injEq, Prod.mk.injEq] at hhand
    obtain ⟨rfl, rfl, -⟩ := hhand
    have hid : r'.id = a.requestId := hw.id_eq hr
    exact ⟨hid, r', _, (congrArg _ hid).trans hr, rfl, (congrArg _ hid).trans hrequest, rfl⟩

/-! ### Whole runs -/

variable (cfg) in
/-- The files of a revision, under the keys of their intent. -/
structure Filed (w : World) (past : List (World × Event)) (rid : String)
    (revision : DocumentRevision) (intent : Intent) (pdf docx : Bytes) : Prop where
  actionable : intent ≠ .none
  rendered : ∃ e ∈ past, RenderedIn cfg e revision pdf docx
  pdfRef : revision.pdfRef = some (cfg.storageRef (pdfKey rid revision.revisionNo intent))
  docxRef : revision.docxRef = some (cfg.storageRef (docxKey rid revision.revisionNo intent))
  pdfFile : w.storage (pdfKey rid revision.revisionNo intent) = some (pdf, pdfMime)
  docxFile : w.storage (docxKey rid revision.revisionNo intent) = some (docx, docxMime)
  delivered : ∀ e ∈ past, ∀ m, DeliveredIn cfg e rid revision.revisionNo m →
    attached m = [(pdf, pdfMime), (docx, docxMime)]

variable (cfg) in
/-- What a run keeps: every revision has its files, the numbers given so far are those up to the
current one, and no more was delivered. -/
structure Keeping (w : World) (past : List (World × Event)) : Prop where
  wf : Wf w
  outside : ∀ rid, w.repo.requests rid ≠ none → Outside rid
  numbers : ∀ rid r, w.repo.requests rid = some r → ∀ revision ∈ w.repo.revisions rid,
    revision.revisionNo ≤ r.currentRevision
  sent : ∀ e ∈ past, ∀ rid n m, DeliveredIn cfg e rid n m →
    ∃ r, w.repo.requests rid = some r ∧ n ≤ r.currentRevision
  files : ∀ rid, ∀ revision ∈ w.repo.revisions rid,
    ∃ intent pdf docx, Filed cfg w past rid revision intent pdf docx

variable {past : List (World × Event)}

theorem keeping_initial : Keeping cfg World.initial [] where
  wf := wf_initial
  outside _ h := absurd rfl h
  numbers _ _ h := by cases h
  sent _ h := by cases h
  files _ _ h := by cases h

theorem Filed.mono {rid : String} {revision : DocumentRevision} {intent : Intent} {pdf docx : Bytes}
    (h : Filed cfg w past rid revision intent pdf docx) {w' : World} {e : World × Event}
    (hpdf : w'.storage (pdfKey rid revision.revisionNo intent) =
      w.storage (pdfKey rid revision.revisionNo intent))
    (hdocx : w'.storage (docxKey rid revision.revisionNo intent) =
      w.storage (docxKey rid revision.revisionNo intent))
    (hquiet : ∀ m, ¬ DeliveredIn cfg e rid revision.revisionNo m) :
    Filed cfg w' (past ++ [e]) rid revision intent pdf docx where
  actionable := h.actionable
  rendered := by
    obtain ⟨e', he', hr⟩ := h.rendered
    exact ⟨e', List.mem_append_left _ he', hr⟩
  pdfRef := h.pdfRef
  docxRef := h.docxRef
  pdfFile := hpdf.trans h.pdfFile
  docxFile := hdocx.trans h.docxFile
  delivered := by
    intro e' he' m hm
    rcases List.mem_append.mp he' with he' | he'
    · exact h.delivered e' he' m hm
    · rw [List.mem_singleton.mp he'] at hm
      exact absurd hm (hquiet m)

theorem not_deliveredIn_inbound {messageId mediaId : String} {source : MediaSource} {rid : String}
    {n : ℕ} {m : OutboundMessage} :
    ¬ DeliveredIn cfg (w, .inbound messageId mediaId source) rid n m := by
  rintro ⟨a, now, env, r, attachments, t, c, hc, -⟩
  cases hc

/-- **An inbound download keeps the files.** -/
theorem Keeping.inbound (h : Keeping cfg w past) (messageId mediaId : String)
    (source : MediaSource) :
    Keeping cfg (happen cfg downloader T w (.inbound messageId mediaId source))
      (past ++ [(w, .inbound messageId mediaId source)]) := by
  obtain ⟨hrepo, hstorage⟩ := inbound_world cfg downloader T w
    messageId mediaId source
  have hkeep : ∀ {rid key}, w.repo.revisions rid ≠ [] → FileOf rid key →
      (happen cfg downloader T w (.inbound messageId mediaId source)).storage key =
        w.storage key := by
    intro rid key hrevs hkey
    have hpresent : w.repo.requests rid ≠ none := fun hnone => hrevs (h.wf.orphan hnone)
    exact hstorage key (fileOf_ne_inbound (h.outside rid hpresent) hkey messageId)
  refine ⟨⟨fun hr => h.wf.id_eq (hrepo ▸ hr), fun hr => ?_⟩, ?_, ?_, ?_, ?_⟩
  · rw [hrepo] at hr ⊢
    exact h.wf.orphan hr
  · rw [hrepo]
    exact h.outside
  · rw [hrepo]
    exact h.numbers
  · rw [hrepo]
    intro e he rid n m hm
    rcases List.mem_append.mp he with he | he
    · exact h.sent e he rid n m hm
    · rw [List.mem_singleton.mp he] at hm
      exact absurd hm not_deliveredIn_inbound
  · rw [hrepo]
    intro rid revision hmem
    obtain ⟨intent, pdf, docx, hfiled⟩ := h.files rid revision hmem
    have hrevs : w.repo.revisions rid ≠ [] := List.ne_nil_of_mem hmem
    exact ⟨intent, pdf, docx, hfiled.mono (hkeep hrevs (fileOf_pdfKey hfiled.actionable))
      (hkeep hrevs (fileOf_docxKey hfiled.actionable)) fun m => not_deliveredIn_inbound⟩

variable (cfg) in
theorem current_step (hw : Wf w) {c : Call} (hfresh : Fresh w c) {rid : String} {r : Request}
    (hr : w.repo.requests rid = some r) :
    ∃ r', (step cfg w c).repo.requests rid = some r' ∧ r.currentRevision ≤ r'.currentRevision := by
  have hpresent : w.repo.requests rid ≠ none := by simp [hr]
  obtain ⟨r', hr'⟩ := Option.ne_none_iff_exists'.mp (present_step cfg hw c hpresent)
  refine ⟨r', hr', ?_⟩
  have hlog := logStep cfg hw hfresh rid
  generalize producer cfg rid (w, c) = a at hlog
  cases hlog with
  | kept hrevs hcurrent =>
    rcases hcurrent r' hr' with ⟨hnone, -⟩ | ⟨r₀, hr₀, heq⟩
    · exact absurd hnone hpresent
    · rw [hr, Option.some.injEq] at hr₀
      rw [heq, hr₀]
  | added a r₀ revision hr₀ hrevs hno hid hfeedback hcurrent =>
    rw [hr, Option.some.injEq] at hr₀
    rw [hcurrent r' hr', hr₀]
    omega

theorem numbers_step (h : Keeping cfg w past) {c : Call} (hfresh : Fresh w c) (rid : String)
    {r : Request} (hr : (step cfg w c).repo.requests rid = some r) :
    ∀ revision ∈ (step cfg w c).repo.revisions rid, revision.revisionNo ≤ r.currentRevision := by
  intro revision hmem
  have hlog := logStep cfg h.wf hfresh rid
  generalize producer cfg rid (w, c) = a at hlog
  cases hlog with
  | kept hrevs hcurrent =>
    rw [hrevs] at hmem
    rcases hcurrent r hr with ⟨hnone, -⟩ | ⟨r₀, hr₀, heq⟩
    · rw [h.wf.orphan hnone] at hmem
      cases hmem
    · rw [heq]
      exact h.numbers rid r₀ hr₀ revision hmem
  | added a r₀ revision' hr₀ hrevs hno hid hfeedback hcurrent =>
    rw [hcurrent r hr]
    rw [hrevs, List.mem_append, List.mem_singleton] at hmem
    rcases hmem with hmem | rfl
    · exact Nat.le_succ_of_le (h.numbers rid r₀ hr₀ revision hmem)
    · exact hno.le

theorem files_elsewhere (h : Keeping cfg w past) {c : Call} {rid : String} (hne : rid ≠ c.requestId)
    {revision : DocumentRevision} (hmem : revision ∈ (step cfg w c).repo.revisions rid) :
    ∃ intent pdf docx,
      Filed cfg (step cfg w c) (past ++ [(w, .call c)]) rid revision intent pdf docx := by
  rw [(step_local h.wf c).revisions hne] at hmem
  obtain ⟨intent, pdf, docx, hfiled⟩ := h.files rid revision hmem
  refine ⟨intent, pdf, docx, hfiled.mono ?_ ?_ fun m hm => hne (deliveredIn_call h.wf hm).1⟩
  · exact storage_step h.wf (fileOf_pdfKey hfiled.actionable) hne
  · exact storage_step h.wf (fileOf_docxKey hfiled.actionable) hne

theorem files_earlier (h : Keeping cfg w past) {c : Call} {revision : DocumentRevision}
    (hmem : revision ∈ w.repo.revisions c.requestId) :
    ∃ intent pdf docx,
      Filed cfg (step cfg w c) (past ++ [(w, .call c)]) c.requestId revision intent pdf docx := by
  obtain ⟨intent, pdf, docx, hfiled⟩ := h.files _ revision hmem
  have hi := hfiled.actionable
  have hpresent : w.repo.requests c.requestId ≠ none := by
    intro hnone
    rw [h.wf.orphan hnone] at hmem
    cases hmem
  obtain ⟨r, hr⟩ := Option.ne_none_iff_exists'.mp hpresent
  have hno := h.numbers _ r hr revision hmem
  have hquiet : ∀ m, ¬ DeliveredIn cfg (w, .call c) c.requestId revision.revisionNo m := by
    intro m hm
    obtain ⟨-, r₀, -, hr₀, heq, -⟩ := deliveredIn_call h.wf hm
    rw [hr, Option.some.injEq] at hr₀
    rw [hr₀] at hno
    omega
  have hkeep : (step cfg w c).storage (pdfKey c.requestId revision.revisionNo intent) =
        w.storage (pdfKey c.requestId revision.revisionNo intent) ∧
      (step cfg w c).storage (docxKey c.requestId revision.revisionNo intent) =
        w.storage (docxKey c.requestId revision.revisionNo intent) := by
    have hf := fileStep cfg h.wf c
    unfold step
    generalize outcome cfg w c = o at hf ⊢
    cases hf with
    | kept c o hrevs hfiles => exact hfiles r hr _ hno intent hi
    | made a now env r₀ p o hr₀ hp hlog hrevs hrequest hstorage =>
      have hne : revision.revisionNo ≠ r₀.currentRevision + 1 := by
        obtain rfl := Option.some.inj (hr.symm.trans hr₀)
        omega
      have hkeys := @key_ne a.requestId _ _ _ _ hi hp.intent_ne hne
      obtain ⟨h₁, h₂, h₃, h₄⟩ := hkeys
      rw [Call.requestId, hstorage, h.wf.id_eq hr₀, Function.update_of_ne h₂,
        Function.update_of_ne h₁, Function.update_of_ne h₄, Function.update_of_ne h₃]
      exact ⟨rfl, rfl⟩
  exact ⟨intent, pdf, docx, hfiled.mono hkeep.1 hkeep.2 hquiet⟩

theorem files_new (h : Keeping cfg w past) {c : Call} {revision : DocumentRevision}
    (hmem : revision ∈ (step cfg w c).repo.revisions c.requestId)
    (hnew : revision ∉ w.repo.revisions c.requestId) :
    ∃ intent pdf docx,
      Filed cfg (step cfg w c) (past ++ [(w, .call c)]) c.requestId revision intent pdf docx := by
  have hf := fileStep cfg h.wf c
  unfold step at hmem ⊢
  generalize ho : outcome cfg w c = o at hf hmem ⊢
  cases hf with
  | kept c o hrevs hfiles =>
    rw [hrevs] at hmem
    exact absurd hmem hnew
  | made a now env r p o hr hp hlog hrevs hrequest hstorage hhand =>
    have hid : r.id = a.requestId := h.wf.id_eq hr
    rw [Call.requestId, hrevs, List.mem_append, List.mem_singleton] at hmem
    obtain rfl := hmem.resolve_left hnew
    refine ⟨p.intent, p.pdf, p.docx, hp.intent_ne, ⟨(w, .call (.action a now env)),
      List.mem_append_right _ (by simp), a, now, env, p.doc.content, rfl, ?_, rfl, hp.2.2.1,
      hp.2.2.2⟩, ?_, ?_, ?_, ?_, ?_⟩
    · rw [ho]
      exact hlog
    · rw [Call.requestId, ← hid]
      exact (refFor_refs cfg p r.id (r.currentRevision + 1)).1
    · rw [Call.requestId, ← hid]
      exact (refFor_refs cfg p r.id (r.currentRevision + 1)).2
    · rw [Call.requestId, hstorage, ← hid]
      exact (Function.update_of_ne (pdfKey_ne_docxKey hp.intent_ne _ _) _ _).trans
        (Function.update_self _ _ _)
    · rw [Call.requestId, hstorage, ← hid]
      exact Function.update_self _ _ _
    · intro e he m hm
      rcases List.mem_append.mp he with he | he
      · -- nothing with this number was delivered before
        obtain ⟨r', hr', hn⟩ := h.sent e he _ _ m hm
        obtain rfl := Option.some.inj (hr'.symm.trans hr)
        have hno : r'.currentRevision + 1 ≤ r'.currentRevision := hn
        omega
      · rw [List.mem_singleton.mp he] at hm
        obtain ⟨a', now', env', r', attachments, t, ch, hc, -, hmem', hsent⟩ := hm
        obtain ⟨rfl, rfl, rfl⟩ := Call.action.inj (Event.call.inj hc)
        dsimp only at hmem'
        rw [ho, hhand, List.mem_singleton] at hmem'
        obtain ⟨-, hrest⟩ := Prod.mk.inj hmem'
        obtain ⟨-, hrest⟩ := Prod.mk.inj hrest
        obtain ⟨rfl, -⟩ := Prod.mk.inj hrest
        rw [attached, attachments_sent hsent]
        rfl

/-- **An invocation keeps the files.** -/
theorem Keeping.call (h : Keeping cfg w past) {c : Call} (hfresh : Fresh w c)
    (hout : ∀ b env, c = .ingest b env → Outside b.aggregated.requestId) :
    Keeping cfg (step cfg w c) (past ++ [(w, .call c)]) := by
  have hlocal : Local w c.requestId (step cfg w c) := step_local h.wf c
  refine ⟨wf_step h.wf c, fun rid hpresent => ?_, fun rid r hr => numbers_step h hfresh rid hr,
    fun e he rid n m hm => ?_, fun rid revision hmem => ?_⟩
  · by_cases hne : rid = c.requestId
    · subst hne
      cases c with
      | ingest b env => exact hout b env rfl
      | action a now env => exact h.outside _ (present_of_step_action hpresent)
    · rw [hlocal.requests hne] at hpresent
      exact h.outside rid hpresent
  · rcases List.mem_append.mp he with he | he
    · obtain ⟨r, hr, hn⟩ := h.sent e he rid n m hm
      obtain ⟨r', hr', hle⟩ := current_step cfg h.wf hfresh hr
      exact ⟨r', hr', hn.trans hle⟩
    · rw [List.mem_singleton.mp he] at hm
      obtain ⟨-, r, r', -, -, hr', hn⟩ := deliveredIn_call h.wf hm
      exact ⟨r', hr', hn.ge⟩
  · by_cases hne : rid = c.requestId
    · subst hne
      by_cases hnew : revision ∈ w.repo.revisions c.requestId
      · exact files_earlier h hnew
      · exact files_new h hmem hnew
    · exact files_elsewhere h hne hmem

theorem ingested_append (es es' : List Event) :
    ingested (es ++ es') = ingested es ++ ingested es' := by
  rw [ingested, List.filterMap_append, ingestIds_append]
  rfl

/-- **What a run keeps**, and that its requests are those it ingested. -/
theorem keeping_run {es : List Event} (hids : (ingested es).Nodup)
    (hout : ∀ rid ∈ ingested es, Outside rid) :
    Keeping cfg (run (happen cfg downloader T) World.initial es)
        (history (happen cfg downloader T) World.initial es) ∧
      ∀ rid, (run (happen cfg downloader T) World.initial es).repo.requests rid ≠ none →
        rid ∈ ingested es := by
  induction es using List.reverseRecOn with
  | nil => exact ⟨keeping_initial, fun rid h => absurd rfl h⟩
  | append_singleton es e ih =>
    rw [ingested_append] at hids
    have hout' : ∀ rid ∈ ingested es, Outside rid := fun rid hrid =>
      hout rid (by rw [ingested_append]; exact List.mem_append_left _ hrid)
    obtain ⟨hkeep, hpresent⟩ := ih (List.nodup_append.mp hids).1 hout'
    rw [run_append, history_append, ingested_append]
    generalize run (happen cfg downloader T) World.initial es = w at hkeep hpresent ⊢
    generalize history (happen cfg downloader T) World.initial es = past at hkeep ⊢
    cases e with
    | inbound messageId mediaId source =>
      refine ⟨hkeep.inbound messageId mediaId source, fun rid hrid => ?_⟩
      have hrepo := (inbound_world cfg downloader T w messageId
        mediaId source).1
      have hrid' : w.repo.requests rid ≠ none := by rwa [← hrepo]
      exact List.mem_append_left _ (hpresent rid hrid')
    | call c =>
      have hnew : ∀ b env, c = .ingest b env → b.aggregated.requestId ∈ ingested [.call c] := by
        rintro b env rfl
        exact List.mem_singleton_self _
      have hfresh : Fresh w c := by
        cases c with
        | action a now env => trivial
        | ingest b env =>
          by_contra hsome
          exact (List.nodup_append.mp hids).2.2 _ (hpresent _ hsome) _ (hnew b env rfl) rfl
      refine ⟨hkeep.call hfresh fun b env hc => hout _ ?_, fun rid hrid => ?_⟩
      · rw [ingested_append]
        exact List.mem_append_right _ (hnew b env hc)
      · change (step cfg w c).repo.requests rid ≠ none at hrid
        by_cases hne : rid = c.requestId
        · subst hne
          cases c with
          | ingest b env => exact List.mem_append_right _ (hnew b env rfl)
          | action a now env =>
            exact List.mem_append_left _ (hpresent _ (present_of_step_action hrid))
        · rw [(step_local hkeep.wf c).requests hne] at hrid
          exact List.mem_append_left _ (hpresent rid hrid)

theorem Behind.of_stored (href : Function.Injective cfg.storageRef) {key : String}
    {ref : Option String} {object : Bytes × String} (hkey : ref = some (cfg.storageRef key))
    (h : w.storage key = some object) : Behind cfg w ref object := by
  refine ⟨⟨key, hkey⟩, fun key' hkey' => ?_⟩
  rw [hkey, Option.some.injEq] at hkey'
  rw [← href hkey', h]

/-- **Stored files are never overwritten.** -/
theorem archived_run (href : Function.Injective cfg.storageRef) {es : List Event}
    (hids : (ingested es).Nodup) (hout : ∀ rid ∈ ingested es, Outside rid) (rid : String) :
    ∀ revision ∈ (run (happen cfg downloader T) World.initial es).repo.getRevisions rid,
      ∃ pdf docx, Archived cfg (run (happen cfg downloader T) World.initial es)
        (history (happen cfg downloader T) World.initial es) rid revision pdf docx := by
  intro revision hmem
  obtain ⟨intent, pdf, docx, hfiled⟩ := (keeping_run hids hout).1.files rid revision hmem
  exact ⟨pdf, docx, hfiled.rendered, .of_stored href hfiled.pdfRef hfiled.pdfFile,
    .of_stored href hfiled.docxRef hfiled.docxFile, hfiled.delivered⟩

namespace Sample

open Orchestrator.Sample

/-- A photo that is downloaded and stored. -/
def photo : MediaSource := ⟨fun _ => .ok ⟨utf8 "JPEG", "image/jpeg"⟩, fun _ => .ok ()⟩

def tables : Tables := ⟨fun _ => true, (· = ' '), fun _ => none, fun _ => "nan"⟩

/-- A request that is confirmed, and a photo. -/
def confirmedThenPhoto : List Event := oneRevision.map .call ++ [.inbound "wamid.2" "m1" photo]

end Sample

open Sample Orchestrator.Sample in
/-- The files of a revision, after a photo was stored. -/
theorem archived_run_photo :
    let w := run (happen (config codec false) ⟨1000, defaultAllowedMimePrefixes⟩ tables)
      World.initial confirmedThenPhoto
    ∃ revision ∈ w.repo.getRevisions "r1", ∃ pdf docx, Archived (config codec false) w
      (history (happen (config codec false) ⟨1000, defaultAllowedMimePrefixes⟩ tables)
        World.initial confirmedThenPhoto) "r1" revision pdf docx := by
  have hsome : ((run (happen (config codec false) ⟨1000, defaultAllowedMimePrefixes⟩ tables)
      World.initial confirmedThenPhoto).repo.getRevisions "r1").isEmpty = false := by decide +kernel
  obtain ⟨revision, hmem⟩ := List.exists_mem_of_ne_nil _ (List.isEmpty_eq_false_iff.mp hsome)
  refine ⟨revision, hmem, archived_run (fun key key' h => ?_) (by decide) ?_ "r1" revision hmem⟩
  · exact (String.append_right_inj _).mp h
  · have hrid : ingested confirmedThenPhoto = ["r1"] := rfl
    rw [hrid]
    intro rid h
    rw [List.mem_singleton.mp h]
    exact ⟨by decide, by decide⟩

end WappPlanner.Ingestion
