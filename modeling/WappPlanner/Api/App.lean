import WappPlanner.Bootstrap
import WappPlanner.Ingestion.Events
import WappPlanner.Orchestrator.Refusals

/-! # The HTTP surface

The endpoints of `api/app.py` over the services of `build_app`, and the tick of the worker that
`bootstrap.py` runs beside them. A handler returns the body of its answer, raises an `HTTPException`
or lets what a service raises through, which the server answers with 500. A click reads the clock
twice, when its link is resolved and when its action is applied. -/

namespace WappPlanner.Api

open WappPlanner.Bootstrap WappPlanner.Domain.Enums WappPlanner.Domain.Models WappPlanner.Errors
open WappPlanner.Hitl.Service WappPlanner.Ingestion WappPlanner.Ingestion.Parser
open WappPlanner.Lib.Fallible WappPlanner.Lib.Programs WappPlanner.Lib.Runs
open WappPlanner.Orchestrator WappPlanner.Py.Text WappPlanner.Py.Values WappPlanner.Workflow.Enums

/-- What a handler raises. -/
inductive Raised
  | httpException (statusCode : ℕ) (detail : String)
  | escaped (exc : Exn)

section handlers

variable (ctx : AppContext)

/-- `GET /health`. -/
def health : List (String × String) := [("status", "ok")]

/-- `GET /webhook`. -/
def verify (mode token : Option String) (challenge : String) : Except Raised String :=
  match ctx.ingestion.verifySubscription mode token challenge with
  | .ok text => .ok text
  | .error (.webhookVerification _) => .error (.httpException 403 "verification failed")
  | .error exc => .error (.escaped exc)

/-- `POST /webhook`. -/
def inbound (body : Bytes) (signature : Option String) (now : Instant) (wall : Json → Instant)
    (handling : ℕ → Handling) (s : State) : Except Raised (List (String × ℕ)) × State :=
  match ctx.ingestion.receive body signature now wall handling s with
  | (.ok accepted, s) => (.ok [("accepted", accepted)], s)
  | (.error (.signature _), s) => (.error (.httpException 403 "invalid signature"), s)
  | (.error (.invalidPayload _), s) => (.error (.httpException 400 "invalid payload"), s)
  | (.error exc, s) => (.error (.escaped exc), s)

/-- What the body of an applied action says. -/
def actionBody (request : Request) : List (String × String) :=
  [("request_id", request.id), ("state", request.state.value)]

/-- The second half of `GET /hitl/action`: the action is applied. -/
def applyAction (action : OwnerAction) (now : Instant) (env : External) (s : State) :
    Except Raised (List (String × String)) × State :=
  let o := outcome ctx.orchestrator s.world (.action action now env)
  let s := { s with world := o.state }
  match o.result with
  | .ok request => (.ok (actionBody request), s)
  | .error (.unknownRequest _) => (.error (.httpException 404 "request not found"), s)
  | .error (.illegalTransition _ _) => (.error (.httpException 409 "action not allowed now"), s)
  | .error exc => (.error (.escaped exc), s)

/-- `GET /hitl/action`. -/
def hitlAction (token : String) (feedback : Option String) (resolvedAt appliedAt : Instant)
    (env : External) (s : State) : Except Raised (List (String × String)) × State :=
  match ctx.notifications.resolveAction token resolvedAt feedback with
  | .ok action => applyAction ctx action appliedAt env s
  | .error (.invalidToken _) | .error (.expiredToken _) =>
    (.error (.httpException 400 "invalid or expired link"), s)
  | .error exc => (.error (.escaped exc), s)

/-- `FlushWorker.tick`. -/
def tick (now : Instant) (handling : ℕ → Handling) (s : State) : Except Exn ℕ × State :=
  ctx.ingestion.flushDue now handling s

end handlers

/-- A request to the server or a tick of the worker, with what it meets. -/
inductive Input
  | health
  | verify (mode token : Option String) (challenge : String)
  | inbound (body : Bytes) (signature : Option String) (now : Instant) (wall : Json → Instant)
      (handling : ℕ → Handling)
  | hitlAction (token : String) (feedback : Option String) (resolvedAt appliedAt : Instant)
      (env : External)
  | tick (now : Instant) (handling : ℕ → Handling)

/-- The state an input leaves, whatever is answered. -/
def step (ctx : AppContext) (s : State) : Input → State
  | .health => s
  | .verify _ _ _ => s
  | .inbound body signature now wall handling =>
    (inbound ctx body signature now wall handling s).2
  | .hitlAction token feedback resolvedAt appliedAt env =>
    (hitlAction ctx token feedback resolvedAt appliedAt env s).2
  | .tick now handling => (tick ctx now handling s).2

/-- The call of the ingestion service that an input makes. -/
def Input.service? : Input → Option Ingestion.Input
  | .inbound body signature now wall handling => some (.receive body signature now wall handling)
  | .tick now handling => some (.flushDue now handling)
  | _ => none

/-- The owner action that an input applies: the one its link resolves to. -/
def Input.resolved (ctx : AppContext) : Input → Option OwnerAction
  | .hitlAction token feedback resolvedAt _ _ =>
    (ctx.notifications.resolveAction token resolvedAt feedback).toOption
  | _ => none

section steps

variable {ctx : AppContext} {s : State}

theorem inbound_state {body : Bytes} {signature : Option String} {now : Instant}
    {wall : Json → Instant} {handling : ℕ → Handling} :
    (inbound ctx body signature now wall handling s).2 =
      (ctx.ingestion.receive body signature now wall handling s).2 := by
  unfold inbound
  split <;> rename_i h <;> rw [h]

theorem applyAction_state {a : OwnerAction} {now : Instant} {env : External} :
    (applyAction ctx a now env s).2 =
      { s with world := Orchestrator.step ctx.orchestrator s.world (.action a now env) } := by
  unfold applyAction
  dsimp only
  split <;> rfl

/-- **What an input does**: it calls the ingestion service, or applies the action its link resolves
to, or does nothing. -/
theorem step_cases (input : Input) :
    (∃ call, input.service? = some call ∧ input.resolved ctx = none ∧
      step ctx s input = ctx.ingestion.step s call) ∨
    (∃ a now env, input.service? = none ∧ input.resolved ctx = some a ∧
      step ctx s input =
        { s with world := Orchestrator.step ctx.orchestrator s.world (.action a now env) }) ∨
    (input.service? = none ∧ input.resolved ctx = none ∧ step ctx s input = s) := by
  cases input with
  | health => exact .inr (.inr ⟨rfl, rfl, rfl⟩)
  | verify mode token challenge => exact .inr (.inr ⟨rfl, rfl, rfl⟩)
  | inbound body signature now wall handling =>
    exact .inl ⟨.receive body signature now wall handling, rfl, rfl, inbound_state⟩
  | tick now handling => exact .inl ⟨.flushDue now handling, rfl, rfl, rfl⟩
  | hitlAction token feedback resolvedAt appliedAt env =>
    unfold step hitlAction Input.resolved
    dsimp only
    cases hresolve : ctx.notifications.resolveAction token resolvedAt feedback with
    | ok a => exact .inr (.inl ⟨a, appliedAt, env, rfl, rfl, applyAction_state⟩)
    | error exc =>
      refine .inr (.inr ⟨rfl, rfl, ?_⟩)
      split
      · rename_i h
        cases h
      · rfl
      · rfl
      · rfl

theorem subset_step (input : Input) : s.seen ⊆ (step ctx s input).seen := by
  rcases @step_cases ctx s input with
    ⟨call, -, -, hstep⟩ | ⟨a, now, env, -, -, hstep⟩ | ⟨-, -, hstep⟩
  · rw [hstep]
    exact IngestionService.subset_step s call
  · rw [hstep]
  · rw [hstep]

theorem subset_run (cs : List Input) : s.seen ⊆ (run (step ctx) s cs).seen :=
  run_keeps (I := fun t : State => s.seen ⊆ t.seen) (fun _ input ht => ht.trans (subset_step input))
    (Finset.Subset.refl _) cs

end steps

/-! ### A small instance -/

namespace Sample

open Bootstrap.Sample Ingestion.Sample Orchestrator.Sample

/-- A platform that reads one body, with a message that asks for a price. -/
def asking : Platform :=
  { platform with
    loads := fun rawBody =>
      if rawBody = utf8 "price" then .ok (webhook [textMessage "wamid.1" "15551230000"])
      else .error (.jsonDecode "Expecting value: line 1 column 1 (char 0)") }

def secrets : Secrets := ⟨"verify-token", "secret"⟩

def idFactory (n : ℕ) : String := "req-" ++ natText n

theorem injective_idFactory : Function.Injective idFactory :=
  fun _ _ h => Lib.Text.repr_injective (String.append_right_inj "req-" |>.mp h)

/-- The application on that platform. -/
def asked : AppContext := buildApp settings secrets asking [] idFactory

theorem loads_price : asked.ingestion.loads (utf8 "price") =
    .ok (webhook [textMessage "wamid.1" "15551230000"]) := by
  unfold asked buildApp
  dsimp only [asking]
  rw [if_pos rfl]

/-- The body arrives, signed. -/
def arrives (now : Instant) : Input :=
  .inbound (utf8 "price") (signed "price") now (fun _ => now) fun _ => handling

/-- A tick, with every external call answered. -/
def ticks (now : Instant) : Input := .tick now fun _ => handling

/-- The body, and a tick after its window. -/
def morning : List Input :=
  [arrives start, ticks (start + seconds 600)]

theorem messagesOf_price (now : Instant) :
    asked.ingestion.messagesOf (utf8 "price") (signed "price") (fun _ => now) =
      .ok [parsedText "wamid.1" "15551230000"] :=
  messagesOf_signed (P := webhook [textMessage "wamid.1" "15551230000"])
    (R := ⟨[parsedText "wamid.1" "15551230000"], []⟩) rfl loads_price rfl

/-- The state after the body arrived. -/
def open_ : State :=
  (asked.ingestion.acceptAll (fun _ => handling) start 0 [parsedText "wamid.1" "15551230000"]
    State.initial).2

theorem step_arrives : step asked State.initial (arrives start) = open_ := by
  change (inbound asked (utf8 "price") (signed "price") start (fun _ => start) (fun _ => handling)
    State.initial).2 = open_
  rw [inbound_state, IngestionService.receive_eq (messagesOf_price start)]
  rfl

end Sample

end WappPlanner.Api
