import WappPlanner.Orchestrator.Program

/-! # How a call ends

Every run of an entry point is one of a few outcomes, each with its result, the world it leaves and
the operations it performed. `PipelineOutcome` lists those of generating a revision,
`ActionOutcome` those of an owner action and `IngestOutcome` those of an ingest; `exec_pipeline`,
`exec_apply` and `exec_ingest` say that the lists are complete. The later modules reason by cases on
them and unfold no program.

`produce` is what the external calls of the pipeline give together: the generated content, the two
rendered files and two successful writes. -/

namespace WappPlanner.Orchestrator

open WappPlanner.Aggregation WappPlanner.Documents.Generation WappPlanner.Documents.Layout
open WappPlanner.Domain.Enums WappPlanner.Domain.Models WappPlanner.Errors
open WappPlanner.Hitl.Dispatcher WappPlanner.Hitl.Service WappPlanner.Lib.Programs WappPlanner.Media.Processor
open WappPlanner.Nlp.Classification WappPlanner.Providers.Base WappPlanner.Py.Text
open WappPlanner.Py.Values WappPlanner.Workflow.Enums WappPlanner.Workflow.StateMachine
open WappPlanner.Persistence.InMemory.Repository Prog Outcome

variable (cfg : Config) (env : External)

/-- An operation with its answer. -/
def did {β : Type} (o : Op β) (b : β) : Entry Op := ⟨β, o, b⟩

/-- Operations that neither write to the repository nor send, the generator being asked for `args`
alone. -/
def Quiet (args : GenerateArgs) : Entry Op → Prop
  | ⟨_, .generate args', _⟩ => args' = args
  | ⟨_, .renderDocument _ _, _⟩ | ⟨_, .put _ _ _, _⟩ | ⟨_, .latestRevision _, _⟩ => True
  | _ => False

/-! ### Steps of the programs -/

variable {cfg env}

section steps

variable {α : Type} {r : Request} {s : RequestState} {t : Trigger} {now : Instant} {w : World}

theorem exec_transition (h : successor r.state t = some s) (f : Request → Prog Op Exn α) :
    exec (handler cfg env) (transition r t now >>= f) w =
      (exec (handler cfg env) (f (r.moved s now)) (w.saved (r.moved s now))).after
        (did (.saveRequest (r.moved s now)) ()) := by
  unfold transition
  rw [nextState_of_some h]
  rfl

theorem exec_transition_none (h : successor r.state t = none) (f : Request → Prog Op Exn α) :
    exec (handler cfg env) (transition r t now >>= f) w =
      ⟨.error (.illegalTransition r.state t), w, []⟩ := by
  unfold transition
  rw [nextState_of_none h]
  rfl

end steps

/-! ### Generating a revision -/

/-- The keys of the two files of a revision. -/
def pdfKey (rid : String) (n : ℕ) (intent : Intent) : String :=
  artifactKey rid n (basename intent rid n ++ ".pdf")

def docxKey (rid : String) (n : ℕ) (intent : Intent) : String :=
  artifactKey rid n (basename intent rid n ++ ".docx")

/-- A generated document and its two files. -/
structure Product where
  doc : GeneratedDocument
  intent : Intent
  pdf : Bytes
  docx : Bytes

def Product.attachments (p : Product) (rid : String) (n : ℕ) : List Attachment :=
  [⟨basename p.intent rid n ++ ".pdf", p.pdf, pdfMime⟩,
    ⟨basename p.intent rid n ++ ".docx", p.docx, docxMime⟩]

variable (cfg env) in
/-- What the generator answers for the next revision. -/
def generated (r : Request) (feedback : Option String) (previous : Option Json) : GenerateRun :=
  cfg.generator.generate env.llm (generateArgs r feedback previous)

variable (cfg env) in
/-- Generation, rendering and the two writes for the next revision of `r`, as the external calls
answer. -/
def produce (r : Request) (feedback : Option String) (previous : Option Json) :
    Except Exn Product := do
  let doc ← (generated cfg env r feedback previous).result
  match r.intent with
  | none => .error (.attributeError "'NoneType' object has no attribute 'value'")
  | some intent =>
    let pdf ← (env.renderers.renderPdf (buildBlocks doc.content cfg.branding)).lift
    let docx ← (env.renderers.renderDocx (buildBlocks doc.content cfg.branding)).lift
    (env.put (pdfKey r.id (r.currentRevision + 1) intent)).lift
    (env.put (docxKey r.id (r.currentRevision + 1) intent)).lift
    return ⟨doc, intent, pdf, docx⟩

variable (cfg) in
/-- The references of the two files. -/
def Product.refs (p : Product) (rid : String) (n : ℕ) : List (String × String) :=
  [(pdfMime, cfg.storageRef (pdfKey rid n p.intent)),
    (docxMime, cfg.storageRef (docxKey rid n p.intent))]

/-- The request as it is delivered. -/
def delivered (r : Request) (now : Instant) : Request :=
  ((bumped r).moved .rendering now).moved .awaitingApproval now

variable (cfg env) in
/-- The world when everything about the next revision but its delivery is done. -/
def madeWorld (r : Request) (now : Instant) (feedback : Option String) (previous : Option Json)
    (p : Product) (w : World) : World :=
  let n := r.currentRevision + 1
  let stored := ((w.asked (generated cfg env r feedback previous).calls).stored
    (pdfKey r.id n p.intent) p.pdf pdfMime).stored (docxKey r.id n p.intent) p.docx docxMime
  ((stored.withRepo (stored.repo.addRevision
    (nextRevision r p.doc feedback (p.refs cfg r.id n) now))).saved
      ((bumped r).moved .rendering now)).saved (delivered r now)

variable (cfg env) in
/-- The delivery of the next revision. -/
def handOver (r : Request) (now : Instant) (p : Product) : Dispatch :=
  cfg.notify.deliverDocument env.send (delivered r now) (r.currentRevision + 1)
    (p.attachments r.id (r.currentRevision + 1)) now

variable (cfg) in
/-- The operations that log the next revision, and its delivery. -/
def madeTrace (r : Request) (now : Instant) (feedback : Option String) (p : Product)
    (dispatch : Dispatch) : List (Entry Op) :=
  [did (.addRevision
      (nextRevision r p.doc feedback (p.refs cfg r.id (r.currentRevision + 1)) now)) (),
    did (.saveRequest ((bumped r).moved .rendering now)) (),
    did (.saveRequest (delivered r now)) (),
    did (.deliverDocument (delivered r now) (r.currentRevision + 1)
      (p.attachments r.id (r.currentRevision + 1)) now) dispatch.result]

variable (cfg env) in
/-- **How generating a revision ends**: the generator gave up and the request failed; another call
raised on the way; or the revision is in the log and its delivery was attempted. -/
inductive PipelineOutcome (r : Request) (now : Instant) (feedback : Option String)
    (previous : Option Json) (w : World) : Outcome Op World Exn Request → Prop
  | failed (text : String)
      (hgen : (generated cfg env r feedback previous).result = .error (.generation text)) :
      PipelineOutcome r now feedback previous w
        ⟨.error (.generation text),
          (w.asked (generated cfg env r feedback previous).calls).saved (r.moved .failed now),
          [did (.generate (generateArgs r feedback previous)) (.error (.generation text)),
            did (.saveRequest (r.moved .failed now)) ()]⟩
  | stopped (exc : Exn) (w' : World) (trace : List (Entry Op))
      (hgen : ∀ text, (generated cfg env r feedback previous).result ≠ .error (.generation text))
      (hexc : produce cfg env r feedback previous = .error exc)
      (hrepo : w'.repo = w.repo) (houtbox : w'.outbox = w.outbox)
      (hstorage : ∀ key, (∀ intent, r.intent = some intent → intent ≠ .none →
        key ≠ pdfKey r.id (r.currentRevision + 1) intent ∧
          key ≠ docxKey r.id (r.currentRevision + 1) intent) → w'.storage key = w.storage key)
      (htrace : ∀ e ∈ trace, Quiet (generateArgs r feedback previous) e)
      (hcalls : w'.llmCalls = w.llmCalls ++ (generated cfg env r feedback previous).calls) :
      PipelineOutcome r now feedback previous w ⟨.error exc, w', trace⟩
  | made (p : Product) (hp : produce cfg env r feedback previous = .ok p) (work : List (Entry Op))
      (hwork : ∀ e ∈ work, Quiet (generateArgs r feedback previous) e) :
      PipelineOutcome r now feedback previous w
        ⟨(handOver cfg env r now p).result.map fun _ => delivered r now,
          (madeWorld cfg env r now feedback previous p w).posted (handOver cfg env r now p).sent,
          work ++ madeTrace cfg r now feedback p (handOver cfg env r now p)⟩

section pipeline

variable {r : Request} {now : Instant} {feedback : Option String} {previous : Option Json}
  {w : World}

section external

variable {α : Type}

theorem exec_generateOrFail {doc : GeneratedDocument}
    (h : (generated cfg env r feedback previous).result = .ok doc)
    (f : GeneratedDocument → Prog Op Exn α) :
    exec (handler cfg env)
        (generateOrFail r (generateArgs r feedback previous) now >>= f) w =
      (exec (handler cfg env) (f doc) (w.asked (generated cfg env r feedback previous).calls)).after
        (did (.generate (generateArgs r feedback previous)) (.ok doc)) := by
  unfold generated at h ⊢
  simp only [generateOrFail, perform_bind, call_bind, exec_call, handler, answer, h, did]
  rfl

theorem exec_generateOrFail_failed {text : String} (hs : r.state = .generating)
    (h : (generated cfg env r feedback previous).result = .error (.generation text))
    (f : GeneratedDocument → Prog Op Exn α) :
    exec (handler cfg env)
        (generateOrFail r (generateArgs r feedback previous) now >>= f) w =
      ⟨.error (.generation text),
        (w.asked (generated cfg env r feedback previous).calls).saved (r.moved .failed now),
        [did (.generate (generateArgs r feedback previous)) (.error (.generation text)),
          did (.saveRequest (r.moved .failed now)) ()]⟩ := by
  have hfail : successor r.state .fail = some .failed := by
    rw [hs]
    decide
  unfold generated at h ⊢
  simp only [generateOrFail, perform_bind, call_bind, exec_call, handler, answer, h, did]
  rw [bind_assoc]
  exact congrArg (Outcome.after _) (exec_transition hfail _)

theorem exec_generateOrFail_error {exc : Exn}
    (h : (generated cfg env r feedback previous).result = .error exc)
    (hexc : ∀ text, exc ≠ .generation text) (f : GeneratedDocument → Prog Op Exn α) :
    exec (handler cfg env)
        (generateOrFail r (generateArgs r feedback previous) now >>= f) w =
      ⟨.error exc, w.asked (generated cfg env r feedback previous).calls,
        [did (.generate (generateArgs r feedback previous)) (.error exc)]⟩ := by
  unfold generated at h ⊢
  simp only [generateOrFail, perform_bind, call_bind, exec_call, handler, answer, h, did]
  cases exc with
  | generation text => exact absurd rfl (hexc text)
  | _ => rfl

theorem exec_put {key : String} (h : env.put key = .ok ()) (content : Bytes) (mime : String)
    (f : String → Prog Op Exn α) :
    exec (handler cfg env) (performE (.put key content mime) >>= f) w =
      (exec (handler cfg env) (f (cfg.storageRef key)) (w.stored key content mime)).after
        (did (.put key content mime) (.ok (cfg.storageRef key))) := by
  simp only [performE_bind, exec_call, handler, answer, h]
  rfl

theorem exec_put_error {key text : String} (h : env.put key = .error text) (content : Bytes)
    (mime : String) (f : String → Prog Op Exn α) :
    exec (handler cfg env) (performE (.put key content mime) >>= f) w =
      ⟨.error (.external text), w, [did (.put key content mime) (.error (.external text))]⟩ := by
  simp only [performE_bind, exec_call, handler, answer, h]
  rfl

theorem exec_render_error {doc : GeneratedDocument} {name : String} {exc : Exn}
    (h : renderDocument env.renderers doc.content cfg.branding name = .error exc)
    (f : List Attachment → Prog Op Exn α) :
    exec (handler cfg env) (performE (.renderDocument doc.content name) >>= f) w =
      ⟨.error exc, w, [did (.renderDocument doc.content name) (.error exc)]⟩ := by
  simp only [performE_bind, exec_call, handler, answer, h]
  rfl

theorem exec_render {doc : GeneratedDocument} {name : String} {atts : List Attachment}
    (h : renderDocument env.renderers doc.content cfg.branding name = .ok atts)
    (f : List Attachment → Prog Op Exn α) :
    exec (handler cfg env) (performE (.renderDocument doc.content name) >>= f) w =
      (exec (handler cfg env) (f atts) w).after
        (did (.renderDocument doc.content name) (.ok atts)) := by
  simp only [performE_bind, exec_call, handler, answer, h]
  rfl

theorem storeArtifacts_attachments (p : Product) (rid : String) (n : ℕ)
    (f : List (String × String) → Prog Op Exn α) :
    storeArtifacts rid n (p.attachments rid n) >>= f =
      performE (.put (pdfKey rid n p.intent) p.pdf pdfMime) >>= fun pdf =>
        performE (.put (docxKey rid n p.intent) p.docx docxMime) >>= fun docx =>
          f [(pdfMime, pdf), (docxMime, docx)] := by
  simp only [Product.attachments, storeArtifacts, bind_assoc, pdfKey, docxKey]
  rfl

end external

/-- A product up to its two writes. -/
def Rendered (cfg : Config) (env : External) (r : Request) (feedback : Option String)
    (previous : Option Json) (p : Product) : Prop :=
  (generated cfg env r feedback previous).result = .ok p.doc ∧ r.intent = some p.intent ∧
    env.renderers.renderPdf (buildBlocks p.doc.content cfg.branding) = .ok p.pdf ∧
    env.renderers.renderDocx (buildBlocks p.doc.content cfg.branding) = .ok p.docx

theorem Rendered.produce {p : Product} (h : Rendered cfg env r feedback previous p) :
    produce cfg env r feedback previous = do
      (env.put (pdfKey r.id (r.currentRevision + 1) p.intent)).lift
      (env.put (docxKey r.id (r.currentRevision + 1) p.intent)).lift
      return p := by
  obtain ⟨hgen, hi, hpdf, hdocx⟩ := h
  rw [Orchestrator.produce, hgen, ok_bind, hi]
  dsimp only
  rw [hpdf, Answer.lift_ok, ok_bind, hdocx, Answer.lift_ok, ok_bind]

section writes

variable {p : Product} {text : String}

theorem Rendered.produce_pdf (h : Rendered cfg env r feedback previous p)
    (hput : env.put (pdfKey r.id (r.currentRevision + 1) p.intent) = .error text) :
    Orchestrator.produce cfg env r feedback previous = .error (.external text) := by
  rw [h.produce, hput, Answer.lift_error, error_bind]

theorem Rendered.produce_docx (h : Rendered cfg env r feedback previous p)
    (hput : env.put (pdfKey r.id (r.currentRevision + 1) p.intent) = .ok ())
    (hput' : env.put (docxKey r.id (r.currentRevision + 1) p.intent) = .error text) :
    Orchestrator.produce cfg env r feedback previous = .error (.external text) := by
  rw [h.produce, hput, Answer.lift_ok, ok_bind, hput', Answer.lift_error, error_bind]

theorem Rendered.produce_ok (h : Rendered cfg env r feedback previous p)
    (hput : env.put (pdfKey r.id (r.currentRevision + 1) p.intent) = .ok ())
    (hput' : env.put (docxKey r.id (r.currentRevision + 1) p.intent) = .ok ()) :
    Orchestrator.produce cfg env r feedback previous = .ok p := by
  rw [h.produce, hput, Answer.lift_ok, ok_bind, hput', Answer.lift_ok, ok_bind]
  rfl

end writes

theorem successor_generated (hs : r.state = .generating) :
    successor (bumped r).state .generated = some .rendering := by
  rw [show (bumped r).state = .generating from hs]
  decide

theorem successor_rendered (r : Request) (now : Instant) :
    successor ((bumped r).moved .rendering now).state .rendered = some .awaitingApproval := by
  rw [Request.state_moved]
  decide

theorem Rendered.render {p : Product} (h : Rendered cfg env r feedback previous p) :
    renderDocument env.renderers p.doc.content cfg.branding
      (basename p.intent r.id (r.currentRevision + 1)) =
        .ok (p.attachments r.id (r.currentRevision + 1)) := by
  obtain ⟨-, -, hpdf, hdocx⟩ := h
  rw [renderDocument, hpdf, Answer.lift_ok, ok_bind, hdocx, Answer.lift_ok, ok_bind]
  rfl

theorem Rendered.intent_ne {p : Product} (h : Rendered cfg env r feedback previous p) :
    p.intent ≠ .none := by
  obtain ⟨intent, hintent, hne⟩ := Generator.generate_ok h.1
  have hi : r.intent = some intent := hintent
  rw [h.2.1, Option.some.injEq] at hi
  rwa [hi]

/-- The pipeline from the rendered files on. -/
theorem exec_pipeline_rendered (hs : r.state = .generating) {p : Product}
    (h : Rendered cfg env r feedback previous p) :
    PipelineOutcome cfg env r now feedback previous w
      (exec (handler cfg env) (generateRenderDeliver r now feedback previous) w) := by
  have hok : ∀ text, (generated cfg env r feedback previous).result ≠ .error (.generation text) :=
    fun text => by rw [h.1]; simp
  rw [generateRenderDeliver, exec_generateOrFail h.1, h.2.1]
  dsimp only
  rw [exec_render h.render, storeArtifacts_attachments p]
  cases hput : env.put (pdfKey r.id (r.currentRevision + 1) p.intent) with
  | error text =>
    rw [exec_put_error hput]
    exact .stopped _ _ _ hok (h.produce_pdf hput) rfl rfl (fun _ _ => rfl)
      (by simp [did, Quiet]) rfl
  | ok u =>
    rw [exec_put hput]
    cases hput' : env.put (docxKey r.id (r.currentRevision + 1) p.intent) with
    | error text =>
      rw [exec_put_error hput']
      refine .stopped _ _ _ hok (h.produce_docx hput hput') rfl rfl (fun key hkey => ?_)
        (by simp [did, Quiet]) rfl
      exact Function.update_of_ne (hkey p.intent h.2.1 h.intent_ne).1 _ _
    | ok u' =>
      have hgenerated : successor (bumped r).state .generated = some .rendering :=
        successor_generated hs
      have hrendered : successor ((bumped r).moved .rendering now).state .rendered =
          some .awaitingApproval := successor_rendered r now
      have hp : Orchestrator.produce cfg env r feedback previous = .ok p := h.produce_ok hput hput'
      rw [exec_put hput', perform_bind, exec_call, exec_transition hgenerated,
        exec_transition hrendered, performE_bind, exec_call]
      rw [exec_ofExcept_pure]
      exact .made p hp
        [did (.generate (generateArgs r feedback previous)) (.ok p.doc),
          did (.renderDocument p.doc.content (basename p.intent r.id (r.currentRevision + 1)))
            (.ok (p.attachments r.id (r.currentRevision + 1))),
          did (.put (pdfKey r.id (r.currentRevision + 1) p.intent) p.pdf pdfMime)
            (.ok (cfg.storageRef (pdfKey r.id (r.currentRevision + 1) p.intent))),
          did (.put (docxKey r.id (r.currentRevision + 1) p.intent) p.docx docxMime)
            (.ok (cfg.storageRef (docxKey r.id (r.currentRevision + 1) p.intent)))]
        (by simp [did, Quiet])

/-- **Every run of the pipeline** is one of its outcomes. -/
theorem exec_pipeline (hs : r.state = .generating) :
    PipelineOutcome cfg env r now feedback previous w
      (exec (handler cfg env) (generateRenderDeliver r now feedback previous) w) := by
  cases hgen : (generated cfg env r feedback previous).result with
  | error exc =>
    by_cases hexc : ∃ text, exc = .generation text
    · obtain ⟨text, rfl⟩ := hexc
      rw [generateRenderDeliver, exec_generateOrFail_failed hs hgen]
      exact .failed text hgen
    · rw [not_exists] at hexc
      rw [generateRenderDeliver, exec_generateOrFail_error hgen hexc]
      refine .stopped exc _ _ (fun text => by rw [hgen]; simpa using hexc text) ?_ rfl rfl
        (fun _ _ => rfl) (by simp [did, Quiet]) rfl
      rw [produce, hgen, error_bind]
  | ok doc =>
    have hok : ∀ text, (generated cfg env r feedback previous).result ≠ .error (.generation text) :=
      fun text => by rw [hgen]; simp
    cases hi : r.intent with
    | none =>
      rw [generateRenderDeliver, exec_generateOrFail hgen, hi]
      refine .stopped _ _ _ hok ?_ rfl rfl (fun _ _ => rfl) (by simp [did, Quiet]) rfl
      rw [produce, hgen, ok_bind, hi]
    | some intent =>
      cases hpdf : env.renderers.renderPdf (buildBlocks doc.content cfg.branding) with
      | error text =>
        have hrender : renderDocument env.renderers doc.content cfg.branding
            (basename intent r.id (r.currentRevision + 1)) = .error (.external text) := by
          rw [renderDocument, hpdf, Answer.lift_error, error_bind]
        rw [generateRenderDeliver, exec_generateOrFail hgen, hi]
        dsimp only
        rw [exec_render_error hrender]
        refine .stopped _ _ _ hok ?_ rfl rfl (fun _ _ => rfl) (by simp [did, Quiet]) rfl
        simp [produce, hgen, hi, hpdf]
      | ok pdf =>
        cases hdocx : env.renderers.renderDocx (buildBlocks doc.content cfg.branding) with
        | error text =>
          have hrender : renderDocument env.renderers doc.content cfg.branding
              (basename intent r.id (r.currentRevision + 1)) = .error (.external text) := by
            rw [renderDocument, hpdf, Answer.lift_ok, ok_bind, hdocx, Answer.lift_error, error_bind]
          rw [generateRenderDeliver, exec_generateOrFail hgen, hi]
          dsimp only
          rw [exec_render_error hrender]
          refine .stopped _ _ _ hok ?_ rfl rfl (fun _ _ => rfl) (by simp [did, Quiet]) rfl
          simp [produce, hgen, hi, hpdf, hdocx]
        | ok docx =>
          have h : Rendered cfg env r feedback previous ⟨doc, intent, pdf, docx⟩ :=
            ⟨hgen, hi, hpdf, hdocx⟩
          exact exec_pipeline_rendered hs h

theorem PipelineOutcome.llmCalls {o : Outcome Op World Exn Request}
    (ho : PipelineOutcome cfg env r now feedback previous w o) :
    o.state.llmCalls = w.llmCalls ++ (generated cfg env r feedback previous).calls := by
  cases ho with
  | failed => rfl
  | stopped exc w' trace hgen hexc hrepo houtbox hstorage htrace hcalls => exact hcalls
  | made => rfl

end pipeline

/-! ### Owner actions -/

/-- The feedback an action passes to the generator. -/
def feedbackOf (a : OwnerAction) : Option String :=
  if a.decision = .revise then a.feedback else none

/-- The content an action asks to improve. -/
def priorContent (a : OwnerAction) (r : Request) (w : World) : Option Json :=
  if a.decision = .revise then (w.repo.latestRevision r.id).map (·.structuredContent) else none

/-- Whether a decision starts the pipeline. -/
def startsPipeline (d : OwnerDecision) : Bool := d = .confirm || d = .revise

/-- What a correction says in place of a classification. -/
def correction (intent : Intent) : ClassificationResult := ⟨intent, .one, "Corrected by owner."⟩

variable (cfg env) in
/-- The prompt after a correction. -/
def renotice (r : Request) (intent : Intent) (now : Instant) : Dispatch :=
  cfg.notify.notifyClassification env.send r r.displayName (correction intent) now

variable (cfg env) in
/-- **How an accepted action ends**, from the request and the world its transition left. -/
inductive FollowOutcome (a : OwnerAction) (r : Request) (now : Instant) (w : World) :
    Outcome Op World Exn Request → Prop
  | settled (hd : a.decision = .approve ∨ a.decision = .reject) :
      FollowOutcome a r now w ⟨.ok r, w, []⟩
  | unnamed (hd : a.decision = .correct) (hi : a.intent = none) :
      FollowOutcome a r now w
        ⟨.error (.validation "1 validation error for ClassificationResult"),
          w.saved (withIntent r none), [did (.saveRequest (withIntent r none)) ()]⟩
  | corrected (hd : a.decision = .correct) (intent : Intent) (hi : a.intent = some intent) :
      FollowOutcome a r now w
        ⟨(renotice cfg env (withIntent r intent) intent now).result.map fun _ => withIntent r intent,
          (w.saved (withIntent r intent)).posted
            (renotice cfg env (withIntent r intent) intent now).sent,
          [did (.saveRequest (withIntent r intent)) (),
            did (.notifyClassification (withIntent r intent) (withIntent r intent).displayName
              (correction intent) now) (renotice cfg env (withIntent r intent) intent now).result]⟩
  | pipeline (hd : startsPipeline a.decision = true) (lookups : List (Entry Op))
      (hlookups : ∀ e ∈ lookups, Quiet (generateArgs r (feedbackOf a) (priorContent a r w)) e)
      (o : Outcome Op World Exn Request)
      (ho : PipelineOutcome cfg env r now (feedbackOf a) (priorContent a r w) w o) :
      FollowOutcome a r now w ⟨o.result, o.state, lookups ++ o.trace⟩

/-- The world an accepted action's transition leaves. -/
def acceptedWorld (a : OwnerAction) (r : Request) (now : Instant) (w : World) : World :=
  (w.noted (interactionOf a)).saved (r.moved (target a.decision) now)

variable (cfg env) in
/-- **How an owner action ends.** -/
inductive ActionOutcome (a : OwnerAction) (now : Instant) (w : World) :
    Outcome Op World Exn Request → Prop
  | unknown (hr : w.repo.requests a.requestId = none) :
      ActionOutcome a now w
        ⟨.error (.unknownRequest a.requestId), w, [did (.getRequest a.requestId) none]⟩
  | duplicate (r : Request) (hr : w.repo.requests a.requestId = some r)
      (hdup : w.repo.interactions a.actionId ≠ none) :
      ActionOutcome a now w
        ⟨.ok r, w, [did (.getRequest a.requestId) (some r),
          did (.recordInteraction (interactionOf a)) false]⟩
  | refused (r : Request) (hr : w.repo.requests a.requestId = some r)
      (hfresh : w.repo.interactions a.actionId = none) (hgate : r.state ≠ gateOf a.decision) :
      ActionOutcome a now w
        ⟨.error (.illegalTransition r.state (triggerFor a.decision)), w.noted (interactionOf a),
          [did (.getRequest a.requestId) (some r),
            did (.recordInteraction (interactionOf a)) true]⟩
  | accepted (r : Request) (hr : w.repo.requests a.requestId = some r)
      (hfresh : w.repo.interactions a.actionId = none) (hgate : r.state = gateOf a.decision)
      (o : Outcome Op World Exn Request)
      (ho : FollowOutcome cfg env a (r.moved (target a.decision) now) now
        (acceptedWorld a r now w) o) :
      ActionOutcome a now w
        ⟨o.result, o.state, did (.getRequest a.requestId) (some r) ::
          did (.recordInteraction (interactionOf a)) true ::
            did (.saveRequest (r.moved (target a.decision) now)) () :: o.trace⟩

section action

variable {a : OwnerAction} {r : Request} {now : Instant} {w : World}

theorem exec_notify {α : Type} (name : String) (result : ClassificationResult)
    (f : Prog Op Exn α) :
    exec (handler cfg env)
        (performE (.notifyClassification r name result now) >>= fun _ => f) w =
      let dispatch := cfg.notify.notifyClassification env.send r name result now
      (exec (handler cfg env) (ofExcept dispatch.result >>= fun _ => f)
        (w.posted dispatch.sent)).after
          (did (.notifyClassification r name result now) dispatch.result) := rfl

theorem exec_follow (hs : r.state = target a.decision) :
    FollowOutcome cfg env a r now w (exec (handler cfg env) (followDecision a r now) w) := by
  unfold followDecision
  cases hd : a.decision with
  | approve => exact .settled (.inl hd)
  | reject => exact .settled (.inr hd)
  | correct =>
    cases hi : a.intent with
    | none => exact .unnamed hd hi
    | some intent =>
      rw [perform_bind, exec_call]
      change FollowOutcome cfg env a r now w (Outcome.after _ (exec (handler cfg env)
        ((performE (.notifyClassification (withIntent r intent) r.displayName
          (correction intent) now) >>= fun _ => pure ()) >>= fun _ =>
            pure (withIntent r intent)) _))
      rw [bind_assoc]
      change FollowOutcome cfg env a r now w (Outcome.after _ (exec (handler cfg env)
        (performE _ >>= fun _ => pure (withIntent r intent)) _))
      rw [exec_notify]
      dsimp only
      rw [exec_ofExcept_pure]
      exact .corrected hd intent hi
  | confirm =>
    have hp : PipelineOutcome cfg env r now (feedbackOf a) (priorContent a r w) w
        (exec (handler cfg env) (generateRenderDeliver r now (feedbackOf a) (priorContent a r w)) w) :=
      exec_pipeline (by rw [hs, hd]; rfl)
    have h := FollowOutcome.pipeline (by rw [hd]; rfl) [] (by simp) _ hp
    simpa [feedbackOf, priorContent, hd] using h
  | revise =>
    have hp : PipelineOutcome cfg env r now (feedbackOf a) (priorContent a r w) w
        (exec (handler cfg env) (generateRenderDeliver r now (feedbackOf a) (priorContent a r w)) w) :=
      exec_pipeline (by rw [hs, hd]; rfl)
    have h := FollowOutcome.pipeline (by rw [hd]; rfl)
      [did (.latestRevision r.id) (w.repo.latestRevision r.id)] (by simp [did, Quiet]) _ hp
    simp only [feedbackOf, priorContent, hd, if_pos] at h
    exact h

/-- **Every owner action** ends in one of its outcomes. -/
theorem exec_apply :
    ActionOutcome cfg env a now w (exec (handler cfg env) (applyOwnerAction a now) w) := by
  unfold applyOwnerAction
  rw [perform_bind, exec_call]
  cases hr : w.repo.requests a.requestId with
  | none =>
    have h : (handler cfg env).act (.getRequest a.requestId) w = (none, w) := congrArg (·, w) hr
    rw [h]
    exact .unknown hr
  | some r =>
    have h : (handler cfg env).act (.getRequest a.requestId) w = (some r, w) := congrArg (·, w) hr
    rw [h]
    dsimp only
    rw [perform_bind, exec_call]
    by_cases hdup : w.repo.interactions a.actionId = none
    · have h' : (handler cfg env).act (.recordInteraction (interactionOf a)) w =
          (true, w.noted (interactionOf a)) := by
        have hrecord := recordInteraction_fresh (show w.repo.interactions (interactionOf a).id = none
          from hdup)
        simp only [handler, answer, hrecord]
        rfl
      rw [h']
      dsimp only
      rw [if_pos rfl]
      by_cases hgate : r.state = gateOf a.decision
      · have hs : successor r.state (triggerFor a.decision) = some (target a.decision) := by
          rw [successor_triggerFor, if_pos hgate]
        rw [exec_transition hs]
        exact .accepted r hr hdup hgate _ (exec_follow rfl)
      · have hs : successor r.state (triggerFor a.decision) = none := by
          rw [successor_triggerFor, if_neg hgate]
        rw [exec_transition_none hs]
        exact .refused r hr hdup hgate
    · have h' : (handler cfg env).act (.recordInteraction (interactionOf a)) w = (false, w) := by
        have hrecord := recordInteraction_seen (show w.repo.interactions (interactionOf a).id ≠ none
          from hdup)
        simp only [handler, answer, hrecord]
        rfl
      rw [h']
      exact .duplicate r hr hdup

end action


/-! ### Ingestion -/

variable (cfg env) in
/-- The transcript of a batch. -/
def transcriptOf (b : Batch) : NormalizedTranscript :=
  cfg.mediaProcessor.buildTranscript env.media b.aggregated.messages b.media

variable (cfg env) in
/-- What the classifier answers for a batch, and the completions it asks for. -/
def classification (b : Batch) : Except Exn ClassificationResult × List LLMCall :=
  cfg.classifier.classify env.llm (transcriptOf cfg env b).render

/-- The request of a batch while its media are processed. -/
def processing (b : Batch) : Request :=
  (b.request.moved .aggregating b.now).moved .processingMedia b.now

variable (cfg env) in
/-- The request of a batch when the classifier is asked. -/
def classifying (b : Batch) : Request :=
  (transcribed (processing b) (transcriptOf cfg env b)).moved .classifying b.now

/-- Where a classification leads. -/
def settledState (result : ClassificationResult) : RequestState :=
  if result.isActionable then .awaitingClassification else .discarded

variable (cfg env) in
/-- The request of a batch once it is classified. -/
def settledRequest (b : Batch) (result : ClassificationResult) : Request :=
  (classified cfg b result (classifying cfg env b)).moved (settledState result) b.now

variable (cfg env) in
/-- The prompt after a classification. -/
def announce (b : Batch) (result : ClassificationResult) : Dispatch :=
  cfg.notify.notifyClassification env.send (settledRequest cfg env b result) b.clientName result
    b.now

variable (cfg env) in
/-- The world when the classifier has answered. -/
def enteredWorld (b : Batch) (w : World) : World :=
  let w₁ := w.saved b.request
  let w₂ := w₁.withRepo (w₁.repo.setMessages b.request.id b.aggregated.messages)
  (((w₂.saved (b.request.moved .aggregating b.now)).saved (processing b)).saved
    (classifying cfg env b)).asked (classification cfg env b).2

variable (cfg env) in
/-- The operations until the classifier has answered. -/
def enteredTrace (b : Batch) : List (Entry Op) :=
  [did (.saveRequest b.request) (), did (.setMessages b.request.id b.aggregated.messages) (),
    did (.saveRequest (b.request.moved .aggregating b.now)) (),
    did (.saveRequest (processing b)) (),
    did (.buildTranscript b.aggregated.messages b.media) (transcriptOf cfg env b),
    did (.saveRequest (classifying cfg env b)) (),
    did (.classify (transcriptOf cfg env b).render) (classification cfg env b).1]

variable (cfg env) in
/-- **How an ingest ends**: the classifier raised; or the request is settled, with or without a
notification. -/
inductive IngestOutcome (b : Batch) (w : World) : Outcome Op World Exn Request → Prop
  | unclassified (exc : Exn) (h : (classification cfg env b).1 = .error exc) :
      IngestOutcome b w ⟨.error exc, enteredWorld cfg env b w, enteredTrace cfg env b⟩
  | silent (result : ClassificationResult) (h : (classification cfg env b).1 = .ok result)
      (ha : result.isActionable = false) (hn : cfg.notifyOnNone = false) :
      IngestOutcome b w
        ⟨.ok (settledRequest cfg env b result),
          (enteredWorld cfg env b w).saved (settledRequest cfg env b result),
          enteredTrace cfg env b ++ [did (.saveRequest (settledRequest cfg env b result)) ()]⟩
  | told (result : ClassificationResult) (h : (classification cfg env b).1 = .ok result)
      (ha : result.isActionable = true ∨ cfg.notifyOnNone = true) :
      IngestOutcome b w
        ⟨(announce cfg env b result).result.map fun _ => settledRequest cfg env b result,
          ((enteredWorld cfg env b w).saved (settledRequest cfg env b result)).posted
            (announce cfg env b result).sent,
          enteredTrace cfg env b ++ [did (.saveRequest (settledRequest cfg env b result)) (),
            did (.notifyClassification (settledRequest cfg env b result) b.clientName result b.now)
              (announce cfg env b result).result]⟩

theorem exec_saveRequest {α : Type} (r : Request) (f : Unit → Prog Op Exn α) (w : World) :
    exec (handler cfg env) (perform (.saveRequest r) >>= f) w =
      (exec (handler cfg env) (f ()) (w.saved r)).after (did (.saveRequest r) ()) := rfl

theorem exec_buildTranscript {α : Type} (b : Batch) (f : NormalizedTranscript → Prog Op Exn α)
    (w : World) :
    exec (handler cfg env) (perform (.buildTranscript b.aggregated.messages b.media) >>= f) w =
      (exec (handler cfg env) (f (transcriptOf cfg env b)) w).after
        (did (.buildTranscript b.aggregated.messages b.media) (transcriptOf cfg env b)) := rfl

theorem exec_classify {α : Type} (b : Batch) (f : ClassificationResult → Prog Op Exn α)
    (w : World) :
    exec (handler cfg env) (performE (.classify (transcriptOf cfg env b).render) >>= f) w =
      (exec (handler cfg env) (ofExcept (classification cfg env b).1 >>= f)
        (w.asked (classification cfg env b).2)).after
          (did (.classify (transcriptOf cfg env b).render) (classification cfg env b).1) := rfl

theorem exec_ingest_entered (b : Batch) (w : World) :
    exec (handler cfg env) (ingest cfg b) w =
      let o := exec (handler cfg env) (ofExcept (classification cfg env b).1 >>= fun result =>
        settle cfg b result (classified cfg b result (classifying cfg env b)))
          (enteredWorld cfg env b w)
      ⟨o.result, o.state, enteredTrace cfg env b ++ o.trace⟩ := by
  have h₁ : successor .received .startAggregation = some .aggregating := by decide
  have h₂ : successor .aggregating .windowClosed = some .processingMedia := by decide
  have h₃ : successor .processingMedia .mediaProcessed = some .classifying := by decide
  unfold ingest
  rw [exec_saveRequest, perform_bind, exec_call, exec_transition h₁, exec_transition h₂,
    exec_buildTranscript, exec_transition h₃, exec_classify]
  rfl

/-- **Every ingest** ends in one of its outcomes. -/
theorem exec_ingest {b : Batch} {w : World} :
    IngestOutcome cfg env b w (exec (handler cfg env) (ingest cfg b) w) := by
  rw [exec_ingest_entered]
  cases hres : (classification cfg env b).1 with
  | error exc =>
    exact .unclassified exc hres
  | ok result =>
    rw [ofExcept_ok, ret_bind]
    unfold settle
    by_cases ha : result.isActionable = true
    · have hs : successor (classified cfg b result (classifying cfg env b)).state
          .classifiedActionable = some (settledState result) := by
        rw [settledState, if_pos ha]
        exact (by decide : successor .classifying .classifiedActionable =
          some .awaitingClassification)
      rw [if_pos ha, exec_transition hs, exec_notify]
      dsimp only
      rw [exec_ofExcept_pure]
      exact .told result hres (.inl ha)
    · have hs : successor (classified cfg b result (classifying cfg env b)).state
          .classifiedNone = some (settledState result) := by
        rw [settledState, if_neg ha]
        exact (by decide : successor .classifying .classifiedNone = some .discarded)
      rw [if_neg ha, exec_transition hs]
      by_cases hn : cfg.notifyOnNone = true
      · rw [if_pos hn, exec_notify]
        dsimp only
        rw [exec_ofExcept_pure]
        exact .told result hres (.inr hn)
      · rw [if_neg hn]
        exact .silent result hres (by simpa using ha) (by simpa using hn)

end WappPlanner.Orchestrator
