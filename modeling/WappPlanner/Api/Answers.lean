import WappPlanner.Api.Refinement
import WappPlanner.Orchestrator.Conversation
import WappPlanner.Orchestrator.Ledger

/-! # What an answer says

The status of an answer tells what was done. A click is answered with 400, 404 or 409 exactly when its
link does not resolve, its request is unknown or its gate is not the current one, and no request
changes then; an answer with a body names the state that is persisted (`answer_true`). -/

namespace WappPlanner.Api

open WappPlanner.Bootstrap WappPlanner.Domain.Enums WappPlanner.Domain.Models WappPlanner.Errors
open WappPlanner.Hitl.Service WappPlanner.Ingestion WappPlanner.Ingestion.Parser
open WappPlanner.Ingestion.Signature WappPlanner.Lib.Fallible WappPlanner.Lib.Programs
open WappPlanner.Lib.Runs WappPlanner.Orchestrator WappPlanner.Py.Text WappPlanner.Py.Values
open WappPlanner.Workflow.Enums WappPlanner.Workflow.StateMachine

/-! ### Clicks -/

section clicks

variable (ctx : AppContext) (token : String) (feedback : Option String)
  (resolvedAt appliedAt : Instant) (env : External) (s : State)

/-- **How a click is answered**, and what it leaves. -/
inductive Clicked : Except Raised (List (String × String)) × State → Prop
  | unresolved (exc : Exn)
      (hresolve : ctx.notifications.resolveAction token resolvedAt feedback = .error exc)
      (htoken : ∃ text, exc = .invalidToken text ∨ exc = .expiredToken text) :
      Clicked (.error (.httpException 400 "invalid or expired link"), s)
  | unreadable (exc : Exn)
      (hresolve : ctx.notifications.resolveAction token resolvedAt feedback = .error exc)
      (htoken : ∀ text, exc ≠ .invalidToken text ∧ exc ≠ .expiredToken text) :
      Clicked (.error (.escaped exc), s)
  | unknown (a : OwnerAction)
      (hresolve : ctx.notifications.resolveAction token resolvedAt feedback = .ok a)
      (hr : s.world.repo.requests a.requestId = none) :
      Clicked (.error (.httpException 404 "request not found"), s)
  | duplicate (a : OwnerAction) (r : Request)
      (hresolve : ctx.notifications.resolveAction token resolvedAt feedback = .ok a)
      (hr : s.world.repo.requests a.requestId = some r)
      (hdup : s.world.repo.interactions a.actionId ≠ none) : Clicked (.ok (actionBody r), s)
  | refused (a : OwnerAction) (r : Request)
      (hresolve : ctx.notifications.resolveAction token resolvedAt feedback = .ok a)
      (hr : s.world.repo.requests a.requestId = some r)
      (hfresh : s.world.repo.interactions a.actionId = none) (hgate : r.state ≠ gateOf a.decision) :
      Clicked (.error (.httpException 409 "action not allowed now"),
        { s with world := s.world.noted (interactionOf a) })
  | applied (a : OwnerAction) (r : Request)
      (hresolve : ctx.notifications.resolveAction token resolvedAt feedback = .ok a)
      (haccepted : Accepted s.world a)
      (hr : (Orchestrator.step ctx.orchestrator s.world (.action a appliedAt env)).repo.requests
        a.requestId = some r) :
      Clicked (.ok (actionBody r), { s with
        world := Orchestrator.step ctx.orchestrator s.world (.action a appliedAt env) })
  | failed (a : OwnerAction) (exc : Exn)
      (hresolve : ctx.notifications.resolveAction token resolvedAt feedback = .ok a)
      (haccepted : Accepted s.world a) :
      Clicked (.error (.escaped exc), { s with
        world := Orchestrator.step ctx.orchestrator s.world (.action a appliedAt env) })

variable {ctx token feedback resolvedAt appliedAt env s}

theorem clicked_apply (hw : Wf s.world) {a : OwnerAction}
    (hresolve : ctx.notifications.resolveAction token resolvedAt feedback = .ok a) :
    Clicked ctx token feedback resolvedAt appliedAt env s (applyAction ctx a appliedAt env s) := by
  have ho := action_outcome ctx.orchestrator s.world a appliedAt env
  have hstate : ∀ o, outcome ctx.orchestrator s.world (.action a appliedAt env) = o →
      Orchestrator.step ctx.orchestrator s.world (.action a appliedAt env) = o.state := by
    rintro o rfl
    rfl
  unfold applyAction
  generalize outcome ctx.orchestrator s.world (.action a appliedAt env) = o at ho hstate ⊢
  specialize hstate o rfl
  cases ho with
  | unknown hr => exact .unknown a hresolve hr
  | duplicate r hr hdup => exact .duplicate a r hresolve hr hdup
  | refused r hr hfresh hgate => exact .refused a r hresolve hr hfresh hgate
  | accepted r hr hfresh hgate o ho =>
    have haccepted : Accepted s.world a := accepted_iff.mpr ⟨r, hr, hfresh, hgate⟩
    have hid : r.id = a.requestId := hw.id_eq hr
    dsimp only at hstate ⊢
    rw [← hstate]
    cases hresult : o.result with
    | ok r' =>
      obtain ⟨-, hr'⟩ := follow_ok (r := r.moved (target a.decision) appliedAt)
        (by rw [Request.id_moved, hid]; exact acceptedWorld_requests hid) ho hresult
      rw [Request.id_moved, hid, ← hstate] at hr'
      exact .applied a r' hresolve haccepted hr'
    | error exc =>
      have hrefusal : exc.isRefusal = false := follow_error ho hresult
      split
      · rename_i h
        cases h
      · rename_i h
        cases h
        cases hrefusal
      · rename_i h
        cases h
        cases hrefusal
      · exact .failed a _ hresolve haccepted

/-- **Every click** is answered in one of these ways. -/
theorem clicked (hw : Wf s.world) : Clicked ctx token feedback resolvedAt appliedAt env s
    (hitlAction ctx token feedback resolvedAt appliedAt env s) := by
  unfold hitlAction
  cases hresolve : ctx.notifications.resolveAction token resolvedAt feedback with
  | ok a => exact clicked_apply hw hresolve
  | error exc =>
    split
    · rename_i h
      cases h
    · rename_i text h
      exact .unresolved _ hresolve ⟨text, .inl (Except.error.inj h)⟩
    · rename_i text h
      exact .unresolved _ hresolve ⟨text, .inr (Except.error.inj h)⟩
    · rename_i hinvalid hexpired h
      obtain rfl := Except.error.inj h
      exact .unreadable _ hresolve fun text => ⟨fun heq => hinvalid text heq,
        fun heq => hexpired text heq⟩

end clicks

/-- The status the server answers with. -/
def status {α : Type} : Except Raised α → ℕ
  | .ok _ => 200
  | .error (.httpException statusCode _) => statusCode
  | .error (.escaped _) => 500

section truth

variable {ctx : AppContext} {s : State}

theorem wf_app (hctx : Wired ctx) (cs : List Input) : Wf (run (step ctx) State.initial cs).world := by
  obtain ⟨es, hworld, -, -⟩ := run_events hctx State.initial cs
  rw [hworld]
  refine run_keeps (fun w e hw => ?_) wf_initial es
  cases e with
  | call c => exact wf_step hw c
  | inbound messageId mediaId source =>
    obtain ⟨hrepo, -⟩ := inbound_world ctx.orchestrator ctx.ingestion.downloader
      ctx.ingestion.tables w messageId mediaId source
    have hsame : (happens ctx w (.inbound messageId mediaId source)).repo = w.repo := hrepo
    exact ⟨fun h => hw.id_eq (hsame ▸ h), fun h => hsame ▸ hw.orphan (hsame ▸ h)⟩

variable {token : String} {feedback : Option String} {resolvedAt appliedAt : Instant}
  {env : External}

theorem clicked_status {answer : Except Raised (List (String × String)) × State}
    (h : Clicked ctx token feedback resolvedAt appliedAt env s answer) :
    (status answer.1 = 400 ↔ ∃ text,
      ctx.notifications.resolveAction token resolvedAt feedback = .error (.invalidToken text) ∨
        ctx.notifications.resolveAction token resolvedAt feedback = .error (.expiredToken text)) ∧
    (status answer.1 = 404 ↔ ∃ a,
      ctx.notifications.resolveAction token resolvedAt feedback = .ok a ∧
        s.world.repo.requests a.requestId = none) ∧
    (status answer.1 = 409 ↔ ∃ a r,
      ctx.notifications.resolveAction token resolvedAt feedback = .ok a ∧
        s.world.repo.requests a.requestId = some r ∧
          s.world.repo.interactions a.actionId = none ∧ r.state ≠ gateOf a.decision) := by
  cases h with
  | unresolved exc hresolve htoken =>
    obtain ⟨text, rfl | rfl⟩ := htoken <;> rw [hresolve] <;> simp [status]
  | unreadable exc hresolve htoken =>
    rw [hresolve]
    simp [status, htoken]
  | unknown a hresolve hr =>
    rw [hresolve]
    simp [status, hr]
  | duplicate a r hresolve hr hdup =>
    rw [hresolve]
    simp [status, hr, hdup]
  | refused a r hresolve hr hfresh hgate =>
    rw [hresolve]
    simp [status, hr, hfresh, hgate]
  | applied a r hresolve haccepted | failed a exc hresolve haccepted =>
    obtain ⟨r₀, hr₀, -, hgate⟩ := accepted_iff.mp haccepted
    rw [hresolve]
    simp [status, hr₀, hgate]

end truth

/-- **The answer to a click is true**, in every state that the application reaches: the three refusals
say exactly why nothing was done, they change nothing but the record of the click, a body names the
persisted state of the request, and whatever else changed is on record. -/
theorem answer_true (settings : Settings) (secrets : Secrets) (platform : Platform)
    (clients : List Client) (idFactory : ℕ → String) (cs : List Input) (token : String)
    (feedback : Option String) (resolvedAt appliedAt : Instant) (env : External) :
    let ctx := buildApp settings secrets platform clients idFactory
    let s := run (step ctx) State.initial cs
    let resolved := ctx.notifications.resolveAction token resolvedAt feedback
    let answer := hitlAction ctx token feedback resolvedAt appliedAt env s
    (status answer.1 = 400 ↔ ∃ text,
      resolved = .error (.invalidToken text) ∨ resolved = .error (.expiredToken text)) ∧
    (status answer.1 = 404 ↔ ∃ a, resolved = .ok a ∧ s.world.repo.requests a.requestId = none) ∧
    (status answer.1 = 409 ↔ ∃ a r, resolved = .ok a ∧ s.world.repo.requests a.requestId = some r ∧
      s.world.repo.interactions a.actionId = none ∧ r.state ≠ gateOf a.decision) ∧
    ((status answer.1 = 400 ∨ status answer.1 = 404) → answer.2 = s) ∧
    (status answer.1 = 409 → ∃ a, resolved = .ok a ∧
      answer.2 = { s with world := s.world.noted (interactionOf a) }) ∧
    (∀ body, answer.1 = .ok body → ∃ a r, resolved = .ok a ∧
      answer.2.world.repo.requests a.requestId = some r ∧
        body = [("request_id", a.requestId), ("state", r.state.value)]) ∧
    (answer.2 ≠ s → ∃ a, resolved = .ok a ∧
      answer.2.world.repo.interactions a.actionId = some (interactionOf a)) := by
  intro ctx s resolved answer
  have hw : Wf s.world := wf_app (wired_buildApp settings secrets platform clients idFactory) cs
  have h : Clicked ctx token feedback resolvedAt appliedAt env s answer := clicked hw
  obtain ⟨h400, h404, h409⟩ := clicked_status h
  refine ⟨h400, h404, h409, ?_⟩
  have hresolved : ctx.notifications.resolveAction token resolvedAt feedback = resolved := rfl
  clear h400 h404 h409
  generalize answer = answer at h ⊢
  cases h with
  | unresolved | unreadable | unknown => simp [status]
  | duplicate a r hresolve hr hdup =>
    have hid : r.id = a.requestId := hw.id_eq hr
    refine ⟨by simp [status], by simp [status], fun body hbody => ?_, fun h => absurd rfl h⟩
    rw [← Except.ok.inj hbody, actionBody, hid]
    exact ⟨a, r, hresolve, hr, rfl⟩
  | refused a r hresolve hr hfresh hgate =>
    refine ⟨by simp [status], fun _ => ⟨a, hresolve, rfl⟩, fun body hbody => (by cases hbody),
      fun _ => ⟨a, hresolve, ?_⟩⟩
    exact Function.update_self ..
  | applied a r hresolve haccepted hr =>
    have hid : r.id = a.requestId := (wf_step hw _).id_eq hr
    refine ⟨by simp [status], by simp [status], fun body hbody => ?_,
      fun _ => ⟨a, hresolve, recorded_of_accepted haccepted⟩⟩
    rw [← Except.ok.inj hbody, actionBody, hid]
    exact ⟨a, r, hresolve, hr, rfl⟩
  | failed a exc hresolve haccepted =>
    exact ⟨by simp [status], by simp [status], fun body hbody => (by cases hbody),
      fun _ => ⟨a, hresolve, recorded_of_accepted haccepted⟩⟩

end WappPlanner.Api
