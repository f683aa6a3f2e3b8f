import WappPlanner.Lib.Interleave
import WappPlanner.Orchestrator.Runs

/-! # The calls to the repository

What a handler of the orchestrator looks like from the repository: its calls to the other
collaborators answer what they answer whatever the repository holds, so only its repository calls are
left, each one atomic message. `exec_repoCalls` says that a handler run alone leaves the repository as
its repository calls do. -/

namespace WappPlanner.Orchestrator

open WappPlanner.Documents.Generation WappPlanner.Documents.Layout WappPlanner.Domain.Enums
open WappPlanner.Domain.Models WappPlanner.Errors WappPlanner.Hitl.Service
open WappPlanner.Lib.Interleave WappPlanner.Lib.Programs WappPlanner.Persistence.InMemory
open WappPlanner.Py.Text WappPlanner.Py.Values WappPlanner.Workflow.Enums
open WappPlanner.Workflow.StateMachine Prog

/-- A message to the repository. -/
inductive RepoOp : Type → Type
  | saveRequest (request : Request) : RepoOp Unit
  | getRequest (requestId : String) : RepoOp (Option Request)
  | setMessages (requestId : String) (messages : List Message) : RepoOp Unit
  | addRevision (revision : DocumentRevision) : RepoOp Unit
  | latestRevision (requestId : String) : RepoOp (Option DocumentRevision)
  | recordInteraction (interaction : OwnerInteraction) : RepoOp Bool

/-- How the repository answers. -/
def RepoOp.act : {β : Type} → RepoOp β → Repository → β × Repository
  | _, .saveRequest request, repo => ((), repo.saveRequest request)
  | _, .getRequest rid, repo => (repo.getRequest rid, repo)
  | _, .setMessages rid messages, repo => ((), repo.setMessages rid messages)
  | _, .addRevision revision, repo => ((), repo.addRevision revision)
  | _, .latestRevision rid, repo => (repo.latestRevision rid, repo)
  | _, .recordInteraction interaction, repo => repo.recordInteraction interaction

def store : Handler RepoOp Repository := ⟨RepoOp.act⟩

variable (cfg : Config) (env : External)

/-- A call goes to the repository, or its answer depends on what is outside alone. -/
def route : {β : Type} → Op β → RepoOp β ⊕ β
  | _, .saveRequest request => .inl (.saveRequest request)
  | _, .getRequest rid => .inl (.getRequest rid)
  | _, .setMessages rid messages => .inl (.setMessages rid messages)
  | _, .addRevision revision => .inl (.addRevision revision)
  | _, .latestRevision rid => .inl (.latestRevision rid)
  | _, .recordInteraction interaction => .inl (.recordInteraction interaction)
  | _, .buildTranscript messages media =>
    .inr (cfg.mediaProcessor.buildTranscript env.media messages media)
  | _, .classify transcript => .inr (cfg.classifier.classify env.llm transcript).1
  | _, .generate args => .inr (cfg.generator.generate env.llm args).result
  | _, .renderDocument content basename =>
    .inr (renderDocument env.renderers content cfg.branding basename)
  | _, .put key _ _ => .inr ((env.put key).lift.map fun _ => cfg.storageRef key)
  | _, .notifyClassification request clientName result now =>
    .inr (cfg.notify.notifyClassification env.send request clientName result now).result
  | _, .deliverDocument request revisionNo attachments now =>
    .inr (cfg.notify.deliverDocument env.send request revisionNo attachments now).result

/-- A program, as the repository sees it. -/
def repoCalls {α : Type} : Prog Op Exn α → Prog RepoOp Exn α
  | .ret a => .ret a
  | .fail e => .fail e
  | .call o next =>
    match route cfg env o with
    | .inl o' => .call o' fun b => repoCalls (next b)
    | .inr b => repoCalls (next b)

variable {cfg env} {α β : Type}

theorem answer_of_route_inl {o : Op β} {o' : RepoOp β} (h : route cfg env o = .inl o') (w : World) :
    store.act o' w.repo = ((answer cfg env o w).1, (answer cfg env o w).2.repo) := by
  cases o with
  | saveRequest | getRequest | setMessages | addRevision | latestRevision | recordInteraction =>
    obtain rfl := Sum.inl.inj h
    rfl
  | _ => cases h

theorem answer_of_route_inr {o : Op β} {b : β} (h : route cfg env o = .inr b) (w : World) :
    (answer cfg env o w).1 = b ∧ (answer cfg env o w).2.repo = w.repo := by
  cases o with
  | saveRequest | getRequest | setMessages | addRevision | latestRevision | recordInteraction =>
    cases h
  | put key content mime =>
    obtain rfl := Sum.inr.inj h
    simp only [answer]
    cases env.put key <;> exact ⟨rfl, rfl⟩
  | _ =>
    obtain rfl := Sum.inr.inj h
    exact ⟨rfl, rfl⟩

/-- **Run alone, a program leaves the repository as its repository calls do.** -/
theorem exec_repoCalls : ∀ (p : Prog Op Exn α) (w : World),
    (exec store (repoCalls cfg env p) w.repo).state = (exec (handler cfg env) p w).state.repo
  | .ret _, _ => rfl
  | .fail _, _ => rfl
  | .call o next, w => by
    rw [exec_call, Outcome.state_after, repoCalls]
    cases hroute : route cfg env o with
    | inl o' =>
      dsimp only
      rw [exec_call, Outcome.state_after, answer_of_route_inl hroute w]
      exact exec_repoCalls _ _
    | inr b =>
      obtain ⟨hb, hrepo⟩ := answer_of_route_inr hroute w
      dsimp only
      rw [← hrepo, ← hb]
      exact exec_repoCalls _ _

theorem repoCalls_bind (f : α → Prog Op Exn β) : ∀ p : Prog Op Exn α,
    repoCalls cfg env (p >>= f) = repoCalls cfg env p >>= fun a => repoCalls cfg env (f a)
  | .ret _ => rfl
  | .fail _ => rfl
  | .call o next => by
    rw [call_bind, repoCalls, repoCalls]
    cases route cfg env o with
    | inl o' =>
      dsimp only
      rw [call_bind]
      congr 1
      funext b
      exact repoCalls_bind f (next b)
    | inr b => exact repoCalls_bind f (next b)

theorem repoCalls_ofExcept (x : Except Exn α) : repoCalls cfg env (ofExcept x) = ofExcept x := by
  cases x <;> rfl

theorem done_performE {o : Op (Except Exn β)} {x : Except Exn β} (h : route cfg env o = .inr x) :
    Done (repoCalls cfg env (performE o)) := by
  rw [performE, repoCalls, h]
  dsimp only
  rw [repoCalls_ofExcept]
  exact done_ofExcept x

/-! ### The calls of an owner action -/

variable {r : Request} {now : Instant} {a : OwnerAction}

theorem repoCalls_transition {s : RequestState} {t : Trigger} (h : successor r.state t = some s) :
    repoCalls cfg env (transition r t now) =
      call (.saveRequest (r.moved s now)) fun _ => ret (r.moved s now) := by
  unfold transition
  rw [nextState_of_some h]
  rfl

theorem repoCalls_transition_none {t : Trigger} (h : successor r.state t = none) :
    repoCalls cfg env (transition r t now) = fail (.illegalTransition r.state t) := by
  unfold transition
  rw [nextState_of_none h]
  rfl

section pipeline

variable {feedback : Option String} {previous : Option Json}

variable (cfg env) in
/-- **What generating a revision asks of the repository**: to save a failure, nothing, or to log the
revision and save the request twice. -/
inductive PipelineCalls (r : Request) (now : Instant) (feedback : Option String)
    (previous : Option Json) : Prog RepoOp Exn Request → Prop
  | failed (text : String) (tail : Prog RepoOp Exn Request)
      (hgen : (generated cfg env r feedback previous).result = .error (.generation text))
      (htail : Done tail) :
      PipelineCalls r now feedback previous (call (.saveRequest (r.moved .failed now)) fun _ => tail)
  | stopped (exc : Exn) (tail : Prog RepoOp Exn Request)
      (hexc : produce cfg env r feedback previous = .error exc) (htail : Done tail) :
      PipelineCalls r now feedback previous tail
  | made (p : Product) (tail : Prog RepoOp Exn Request)
      (hp : produce cfg env r feedback previous = .ok p) (htail : Done tail) :
      PipelineCalls r now feedback previous
        (call (.addRevision (nextRevision r p.doc feedback (p.refs cfg r.id (r.currentRevision + 1))
            now)) fun _ =>
          call (.saveRequest ((bumped r).moved .rendering now)) fun _ =>
            call (.saveRequest (delivered r now)) fun _ => tail)

theorem repoCalls_generate (f : GeneratedDocument → Prog Op Exn Request) :
    repoCalls cfg env (generateOrFail r (generateArgs r feedback previous) now >>= f) =
      match (generated cfg env r feedback previous).result with
      | .ok doc => repoCalls cfg env (f doc)
      | .error (.generation text) => repoCalls cfg env
          (transition r .fail now >>= fun _ => fail (.generation text))
      | .error exc => fail exc := by
  unfold generateOrFail generated
  rw [perform_bind, call_bind, repoCalls]
  simp only [route]
  cases (cfg.generator.generate env.llm (generateArgs r feedback previous)).result with
  | ok doc => rfl
  | error exc =>
    cases exc with
    | generation text =>
      simp only [bind_assoc]
      rfl
    | _ => rfl

theorem pipelineCalls_rendered (hs : r.state = .generating) {p : Product}
    (h : Rendered cfg env r feedback previous p) :
    PipelineCalls cfg env r now feedback previous
      (repoCalls cfg env (generateRenderDeliver r now feedback previous)) := by
  rw [generateRenderDeliver, repoCalls_generate, h.1, h.2.1]
  dsimp only
  rw [performE_bind, repoCalls]
  simp only [route]
  rw [h.render, ofExcept_ok, ret_bind, storeArtifacts_attachments p, performE_bind, repoCalls]
  simp only [route]
  cases hput : env.put (pdfKey r.id (r.currentRevision + 1) p.intent) with
  | error text =>
    exact .stopped (.external text) _ (h.produce_pdf hput) trivial
  | ok u =>
    rw [Answer.lift_ok, Except.map, ofExcept_ok, ret_bind, performE_bind, repoCalls]
    simp only [route]
    cases hput' : env.put (docxKey r.id (r.currentRevision + 1) p.intent) with
    | error text =>
      exact .stopped (.external text) _ (h.produce_docx hput hput') trivial
    | ok u' =>
      have hgenerated : successor (bumped r).state .generated = some .rendering :=
        successor_generated hs
      have hrendered : successor ((bumped r).moved .rendering now).state .rendered =
          some .awaitingApproval := successor_rendered r now
      have hp : produce cfg env r feedback previous = .ok p := h.produce_ok hput hput'
      rw [Answer.lift_ok, Except.map, ofExcept_ok, ret_bind, perform_bind, repoCalls]
      simp only [route, repoCalls_bind, repoCalls_transition hgenerated,
        repoCalls_transition hrendered, call_bind, ret_bind]
      exact .made p _ hp ((done_performE rfl).bind fun _ => trivial)

/-- **What the pipeline asks of the repository** is one of the three. -/
theorem pipelineCalls (hs : r.state = .generating) :
    PipelineCalls cfg env r now feedback previous
      (repoCalls cfg env (generateRenderDeliver r now feedback previous)) := by
  cases hgen : (generated cfg env r feedback previous).result with
  | error exc =>
    rw [generateRenderDeliver, repoCalls_generate, hgen]
    have hstopped : produce cfg env r feedback previous = .error exc := by
      rw [produce, hgen, error_bind]
    cases exc with
    | generation text =>
      have hfail : successor r.state .fail = some .failed := by
        rw [hs]
        decide
      dsimp only
      rw [repoCalls_bind, repoCalls_transition hfail, call_bind]
      exact .failed text _ hgen trivial
    | _ => exact .stopped _ _ hstopped trivial
  | ok doc =>
    cases hi : r.intent with
    | none =>
      rw [generateRenderDeliver, repoCalls_generate, hgen, hi]
      refine .stopped (.attributeError "'NoneType' object has no attribute 'value'") _ ?_ trivial
      rw [produce, hgen, ok_bind, hi]
    | some intent =>
      cases hpdf : env.renderers.renderPdf (buildBlocks doc.content cfg.branding) with
      | error text =>
        rw [generateRenderDeliver, repoCalls_generate, hgen, hi]
        dsimp only
        rw [performE_bind, repoCalls]
        simp only [route, renderDocument, hpdf, Answer.lift_error, error_bind]
        refine .stopped (.external text) _ ?_ trivial
        simp [produce, hgen, hi, hpdf]
      | ok pdf =>
        cases hdocx : env.renderers.renderDocx (buildBlocks doc.content cfg.branding) with
        | error text =>
          rw [generateRenderDeliver, repoCalls_generate, hgen, hi]
          dsimp only
          rw [performE_bind, repoCalls]
          simp only [route, renderDocument, hpdf, hdocx, Answer.lift_ok, ok_bind, Answer.lift_error,
            error_bind]
          refine .stopped (.external text) _ ?_ trivial
          simp [produce, hgen, hi, hpdf, hdocx]
        | ok docx =>
          have h : Rendered cfg env r feedback previous ⟨doc, intent, pdf, docx⟩ :=
            ⟨hgen, hi, hpdf, hdocx⟩
          exact pipelineCalls_rendered hs h

end pipeline

/-! ### The calls of a click -/

/-- An owner action with the time and the external behaviour it meets. -/
structure Click where
  action : OwnerAction
  now : Instant
  env : External

def Click.call (k : Click) : Call := .action k.action k.now k.env

variable (cfg)

/-- The repository calls of a click. -/
def handling (k : Click) : Prog RepoOp Exn Request :=
  repoCalls cfg k.env (applyOwnerAction k.action k.now)

/-- What is left when the request is read and the interaction recorded. -/
def deciding (k : Click) (r : Request) : Prog RepoOp Exn Request :=
  repoCalls cfg k.env
    (transition r (triggerFor k.action.decision) k.now >>= fun r => followDecision k.action r k.now)

/-- What is left when the request is read. -/
def recording (k : Click) (r : Request) : Prog RepoOp Exn Request :=
  call (.recordInteraction (interactionOf k.action)) fun fresh =>
    if fresh then deciding cfg k r else ret r

/-- **What follows an accepted decision** asks of the repository nothing; to save the corrected
request; or what the pipeline asks, after a look at the latest revision if one is asked for. -/
inductive FollowCalls (k : Click) (r : Request) : Prog RepoOp Exn Request → Prop
  | settled (tail : Prog RepoOp Exn Request)
      (hd : k.action.decision = .approve ∨ k.action.decision = .reject) (htail : Done tail) :
      FollowCalls k r tail
  | corrected (tail : Prog RepoOp Exn Request) (hd : k.action.decision = .correct)
      (htail : Done tail) :
      FollowCalls k r (call (.saveRequest (withIntent r k.action.intent)) fun _ => tail)
  | confirmed (p : Prog RepoOp Exn Request) (hd : k.action.decision = .confirm)
      (hp : PipelineCalls cfg k.env r k.now none none p) : FollowCalls k r p
  | revised (next : Option DocumentRevision → Prog RepoOp Exn Request)
      (hd : k.action.decision = .revise)
      (hnext : ∀ latest, PipelineCalls cfg k.env r k.now k.action.feedback
        (latest.map (·.structuredContent)) (next latest)) :
      FollowCalls k r (call (.latestRevision r.id) next)

variable {cfg}

section follow

variable {k : Click} {p : Prog RepoOp Exn Request}

theorem FollowCalls.of_correct (h : FollowCalls cfg k r p) (hd : k.action.decision = .correct) :
    ∃ tail, Done tail ∧
      p = call (.saveRequest (withIntent r k.action.intent)) fun _ => tail := by
  cases h with
  | settled tail hd' htail =>
    rw [hd] at hd'
    rcases hd' with hd' | hd' <;> cases hd'
  | corrected tail hd' htail => exact ⟨tail, htail, rfl⟩
  | confirmed p hd' hp =>
    rw [hd] at hd'
    cases hd'
  | revised next hd' hnext =>
    rw [hd] at hd'
    cases hd'

theorem FollowCalls.of_confirm (h : FollowCalls cfg k r p) (hd : k.action.decision = .confirm) :
    PipelineCalls cfg k.env r k.now none none p := by
  cases h with
  | settled tail hd' htail =>
    rw [hd] at hd'
    rcases hd' with hd' | hd' <;> cases hd'
  | corrected tail hd' htail =>
    rw [hd] at hd'
    cases hd'
  | confirmed p hd' hp => exact hp
  | revised next hd' hnext =>
    rw [hd] at hd'
    cases hd'

theorem FollowCalls.of_revise (h : FollowCalls cfg k r p) (hd : k.action.decision = .revise) :
    ∃ next, p = call (.latestRevision r.id) next ∧ ∀ latest, PipelineCalls cfg k.env r k.now
      k.action.feedback (latest.map (·.structuredContent)) (next latest) := by
  cases h with
  | settled tail hd' htail =>
    rw [hd] at hd'
    rcases hd' with hd' | hd' <;> cases hd'
  | corrected tail hd' htail =>
    rw [hd] at hd'
    cases hd'
  | confirmed p hd' hp =>
    rw [hd] at hd'
    cases hd'
  | revised next hd' hnext => exact ⟨next, rfl, hnext⟩

end follow

theorem handling_eq (k : Click) : handling cfg k = call (.getRequest k.action.requestId) fun
    | none => fail (.unknownRequest k.action.requestId)
    | some r => recording cfg k r := by
  unfold handling applyOwnerAction
  rw [perform_bind, repoCalls]
  simp only [route]
  congr 1
  funext found
  cases found with
  | none => rfl
  | some r =>
    dsimp only
    rw [perform_bind, repoCalls]
    simp only [route, recording]
    congr 1
    funext fresh
    cases fresh <;> rfl

theorem deciding_refused {k : Click} (h : r.state ≠ gateOf k.action.decision) :
    deciding cfg k r = fail (.illegalTransition r.state (triggerFor k.action.decision)) := by
  have hs : successor r.state (triggerFor k.action.decision) = none := by
    rw [successor_triggerFor, if_neg h]
  rw [deciding, repoCalls_bind, repoCalls_transition_none hs, fail_bind]

theorem done_renotify (r : Request) (now : Instant) :
    Done (repoCalls cfg env (renotifyClassification r now >>= fun _ => pure r)) := by
  unfold renotifyClassification
  cases r.intent with
  | none => trivial
  | some intent =>
    dsimp only
    rw [bind_assoc, repoCalls_bind]
    exact (done_performE rfl).bind fun _ => trivial

variable (cfg) in
theorem deciding_accepted {k : Click} (h : r.state = gateOf k.action.decision) :
    ∃ p, FollowCalls cfg k (r.moved (target k.action.decision) k.now) p ∧
      deciding cfg k r =
        call (.saveRequest (r.moved (target k.action.decision) k.now)) fun _ => p := by
  have hs : successor r.state (triggerFor k.action.decision) = some (target k.action.decision) := by
    rw [successor_triggerFor, if_pos h]
  refine ⟨repoCalls cfg k.env (followDecision k.action (r.moved (target k.action.decision) k.now)
    k.now), ?_, ?_⟩
  · unfold followDecision
    cases hd : k.action.decision with
    | approve => exact .settled _ (.inl hd) trivial
    | reject => exact .settled _ (.inr hd) trivial
    | correct =>
      dsimp only
      rw [perform_bind, repoCalls]
      simp only [route]
      exact .corrected _ hd (done_renotify _ _)
    | confirm => exact .confirmed _ hd (pipelineCalls rfl)
    | revise =>
      dsimp only
      rw [perform_bind, repoCalls]
      simp only [route]
      exact .revised _ hd fun latest => pipelineCalls rfl
  · rw [deciding, repoCalls_bind, repoCalls_transition hs, call_bind]
    rfl

/-- **An action, run alone,** leaves the repository as its repository calls do. -/
theorem step_handling (w : World) (k : Click) :
    (step cfg w k.call).repo = (exec store (handling cfg k) w.repo).state :=
  (exec_repoCalls _ w).symm

end WappPlanner.Orchestrator
