import WappPlanner.Api.App

/-! # The application runs the orchestrator

Everything the server and the worker do to the repository, the completions asked for and the messages
sent is a run of the orchestrator (`app_refines`): each handed batch is ingested once, under an id of
its own, and each click that resolves applies its action, in the order of the inputs. What is stored
in between for inbound media makes no difference, since the orchestrator never reads the storage
(`agree_run`). -/

namespace WappPlanner.Api

open WappPlanner.Bootstrap WappPlanner.Domain.Models WappPlanner.Errors WappPlanner.Hitl.Service
open WappPlanner.Ingestion WappPlanner.Lib.Programs WappPlanner.Lib.Runs WappPlanner.Orchestrator
open WappPlanner.Providers.Base WappPlanner.Py.Text WappPlanner.Py.Values

/-! ### What the orchestrator does not see -/

/-- The worlds agree but for the storage. -/
structure Agree (w w' : World) : Prop where
  repo : w'.repo = w.repo
  llmCalls : w'.llmCalls = w.llmCalls
  outbox : w'.outbox = w.outbox

theorem Agree.refl (w : World) : Agree w w := ⟨rfl, rfl, rfl⟩

section agree

variable {cfg : Config} {w w' : World}

theorem Agree.withRepo (h : Agree w w') (f : Persistence.InMemory.Repository →
    Persistence.InMemory.Repository) : Agree (w.withRepo (f w.repo)) (w'.withRepo (f w'.repo)) :=
  ⟨congrArg f h.repo, h.llmCalls, h.outbox⟩

theorem Agree.asked (h : Agree w w') (calls : List LLMCall) :
    Agree (w.asked calls) (w'.asked calls) :=
  ⟨h.repo, congrArg (· ++ calls) h.llmCalls, h.outbox⟩

theorem Agree.posted (h : Agree w w') (sent : List (Domain.Enums.Channel × OutboundMessage)) :
    Agree (w.posted sent) (w'.posted sent) :=
  ⟨h.repo, h.llmCalls, congrArg (· ++ sent) h.outbox⟩

/-- **No operation reads the storage.** -/
theorem answer_agree (env : External) {β : Type} (o : Op β) (h : Agree w w') :
    (answer cfg env o w').1 = (answer cfg env o w).1 ∧
      Agree (answer cfg env o w).2 (answer cfg env o w').2 := by
  cases o with
  | saveRequest r => exact ⟨rfl, h.withRepo (·.saveRequest r)⟩
  | getRequest rid => exact ⟨congrArg (·.getRequest rid) h.repo, h⟩
  | setMessages rid messages => exact ⟨rfl, h.withRepo (·.setMessages rid messages)⟩
  | addRevision revision => exact ⟨rfl, h.withRepo (·.addRevision revision)⟩
  | latestRevision rid => exact ⟨congrArg (·.latestRevision rid) h.repo, h⟩
  | recordInteraction i =>
    exact ⟨congrArg (fun repo => (repo.recordInteraction i).1) h.repo,
      h.withRepo fun repo => (repo.recordInteraction i).2⟩
  | buildTranscript messages media => exact ⟨rfl, h⟩
  | classify transcript => exact ⟨rfl, h.asked _⟩
  | generate args => exact ⟨rfl, h.asked _⟩
  | renderDocument content basename => exact ⟨rfl, h⟩
  | put key content contentType =>
    cases hput : env.put key with
    | ok =>
      simp only [answer, hput]
      exact ⟨trivial, h.repo, h.llmCalls, h.outbox⟩
    | error text =>
      simp only [answer, hput]
      exact ⟨trivial, h⟩
  | notifyClassification r name result now => exact ⟨rfl, h.posted _⟩
  | deliverDocument r n attachments now => exact ⟨rfl, h.posted _⟩

theorem exec_agree {α : Type} (env : External) (p : Prog Op Exn α) (h : Agree w w') :
    Agree (exec (handler cfg env) p w).state (exec (handler cfg env) p w').state := by
  refine (exec_related (A := fun _ => True) (fun o s t hR _ => ?_) p h fun _ _ => trivial).2.2
  exact answer_agree env o hR

variable (cfg) in
theorem agree_step (h : Agree w w') (c : Call) :
    Agree (Orchestrator.step cfg w c) (Orchestrator.step cfg w' c) := by
  unfold Orchestrator.step
  cases c with
  | ingest b env => exact exec_agree env _ h
  | action a now env => exact exec_agree env _ h

variable (cfg) in
/-- **Inbound media make no difference to the orchestrator.** -/
theorem agree_run (downloader : MediaDownloader) (T : Tables) : ∀ (es : List Event) {w w' : World},
    Agree w w' → Agree (run (happen cfg downloader T) w es)
      (run (Orchestrator.step cfg) w' (es.filterMap Event.call?))
  | [], _, _, h => h
  | .call c :: es, _, _, h => agree_run downloader T es (agree_step cfg h c)
  | .inbound messageId mediaId source :: es, w, w', h => by
    refine agree_run downloader T es ?_
    have hworld := downloader.fetchAndStore_world T cfg.storageRef source "inbound" messageId
      mediaId w
    dsimp only [happen]
    rcases hworld with hw | ⟨content, mime, hw⟩
    · rw [hw]
      exact h
    · rw [hw]
      exact ⟨h.repo, h.llmCalls, h.outbox⟩

end agree

/-! ### Inputs as events -/

/-- The services share one orchestrator. -/
structure Wired (ctx : AppContext) : Prop where
  orchestrator : ctx.ingestion.orchestrator = ctx.orchestrator
  notify : ctx.orchestrator.notify = ctx.notifications

section wired

variable {ctx : AppContext} {s : State}

theorem wired_buildApp (settings : Settings) (secrets : Secrets) (platform : Platform)
    (clients : List Client) (idFactory : ℕ → String) :
    Wired (buildApp settings secrets platform clients idFactory) := ⟨rfl, rfl⟩

/-- The events that happen to the world of an application. -/
def happens (ctx : AppContext) : World → Event → World :=
  happen ctx.orchestrator ctx.ingestion.downloader ctx.ingestion.tables

/-- **An input is a run of events**: its batches are those it hands over, its action the one its link
resolves to. -/
theorem step_events (hctx : Wired ctx) (input : Input) : ∃ es,
    (step ctx s input).world = run (happens ctx) s.world es ∧
      (step ctx s input).handed = s.handed ++ es.filterMap Event.batch? ∧
        es.filterMap Event.action? = (input.resolved ctx).toList := by
  rcases step_cases input with ⟨call, -, hresolved, hstep⟩ | ⟨a, now, env, -, hresolved, hstep⟩ |
    ⟨-, hresolved, hstep⟩
  · obtain ⟨es, hes⟩ : ∃ es, Does ctx.ingestion s (ctx.ingestion.step s call) es := step_does call
    refine ⟨es, ?_, ?_, ?_⟩
    · rw [hstep, hes.world, hctx.orchestrator, happens]
    · rw [hstep, hes.handed]
    · rw [hresolved, hes.actions, Option.toList_none]
  · refine ⟨[.call (.action a now env)], ?_, ?_, ?_⟩
    · rw [hstep]
      rfl
    · rw [hstep]
      exact (List.append_nil _).symm
    · rw [hresolved]
      rfl
  · refine ⟨[], ?_, ?_, ?_⟩
    · rw [hstep]
      rfl
    · rw [hstep]
      exact (List.append_nil _).symm
    · rw [hresolved]
      rfl

/-- **A run of the application is a run of events.** -/
theorem run_events (hctx : Wired ctx) (s : State) (cs : List Input) : ∃ es,
    (run (step ctx) s cs).world = run (happens ctx) s.world es ∧
      (run (step ctx) s cs).handed = s.handed ++ es.filterMap Event.batch? ∧
        es.filterMap Event.action? = cs.filterMap (Input.resolved ctx) := by
  induction cs generalizing s with
  | nil => exact ⟨[], rfl, (List.append_nil _).symm, rfl⟩
  | cons c cs ih =>
    obtain ⟨es, hworld, hhanded, hactions⟩ := step_events (s := s) hctx c
    obtain ⟨fs, hworld', hhanded', hactions'⟩ := ih (step ctx s c)
    refine ⟨es ++ fs, ?_, ?_, ?_⟩
    · rw [run_cons, hworld', hworld, run_append]
    · rw [run_cons, hhanded', hhanded, List.filterMap_append, List.append_assoc]
    · rw [List.filterMap_append, hactions, hactions', List.filterMap_cons]
      cases c.resolved ctx <;> rfl

theorem taken_run (hids : Function.Injective ctx.ingestion.windows.idFactory) (cs : List Input) :
    Taken ctx.ingestion [] (run (step ctx) State.initial cs) := by
  refine run_keeps (fun s c hs => ?_) taken_initial cs
  rcases step_cases (s := s) c with ⟨call, -, -, h⟩ | ⟨a, now, env, -, -, h⟩ | ⟨-, -, h⟩
  · rw [h]
    exact hs.step hids
  · rw [h]
    exact hs.fewer (List.Subperm.refl _) le_rfl subset_rfl
  · rw [h]
    exact hs

theorem nodup_handed (hids : Function.Injective ctx.ingestion.windows.idFactory)
    (cs : List Input) :
    ((run (step ctx) State.initial cs).handed.map (·.aggregated.requestId)).Nodup := by
  have hnames := (taken_run hids cs).apart.names
  unfold State.boxes at hnames
  rw [List.map_append, List.map_map] at hnames
  exact hnames.of_append_left

theorem initial_events (hctx : Wired ctx)
    (hids : Function.Injective ctx.ingestion.windows.idFactory) (cs : List Input) : ∃ es,
    (run (step ctx) State.initial cs).world = run (happens ctx) World.initial es ∧
      (ingested es).Nodup ∧
        es.filterMap Event.batch? = (run (step ctx) State.initial cs).handed ∧
          es.filterMap Event.action? = cs.filterMap (Input.resolved ctx) := by
  obtain ⟨es, hworld, hhanded, hactions⟩ := run_events hctx State.initial cs
  have hbatches : (run (step ctx) State.initial cs).handed = es.filterMap Event.batch? := hhanded
  refine ⟨es, hworld, ?_, hbatches.symm, hactions⟩
  rw [ingested_eq, ← hbatches]
  exact nodup_handed hids cs

end wired

/-- The batches that calls ingest, and the actions they apply. -/
def batchesOf (calls : List Call) : List Batch :=
  calls.filterMap fun c => (Event.call c).batch?

def actionsOf (calls : List Call) : List OwnerAction :=
  calls.filterMap fun c => (Event.call c).action?

theorem batchesOf_calls (es : List Event) :
    batchesOf (es.filterMap Event.call?) = es.filterMap Event.batch? := by
  unfold batchesOf
  rw [List.filterMap_filterMap]
  refine List.filterMap_congr fun e _ => ?_
  cases e <;> rfl

theorem actionsOf_calls (es : List Event) :
    actionsOf (es.filterMap Event.call?) = es.filterMap Event.action? := by
  unfold actionsOf
  rw [List.filterMap_filterMap]
  refine List.filterMap_congr fun e _ => ?_
  cases e <;> rfl

/-- **The application refines the orchestrator.** In every run of the application that `build_app`
assembles, whatever raises, repository, completions and outbox are those of a run of the orchestrator
that ingests the handed batches, under distinct ids, and applies the actions of the links clicked. -/
theorem app_refines (settings : Settings) (secrets : Secrets) (platform : Platform)
    (clients : List Client) (idFactory : ℕ → String) (hids : Function.Injective idFactory)
    (cs : List Input) :
    ∃ calls : List Call, (ingestIds calls).Nodup ∧
      batchesOf calls = (run (step (buildApp settings secrets platform clients idFactory))
        State.initial cs).handed ∧
      actionsOf calls =
        cs.filterMap (Input.resolved (buildApp settings secrets platform clients idFactory)) ∧
      Agree (run (step (buildApp settings secrets platform clients idFactory)) State.initial cs).world
        (run (Orchestrator.step (buildApp settings secrets platform clients idFactory).orchestrator)
          World.initial calls) := by
  obtain ⟨es, hworld, hnodup, hbatches, hactions⟩ := initial_events
    (wired_buildApp settings secrets platform clients idFactory) hids cs
  refine ⟨es.filterMap Event.call?, hnodup, ?_, ?_, ?_⟩
  · rw [batchesOf_calls, hbatches]
  · rw [actionsOf_calls, hactions]
  · rw [hworld]
    exact agree_run _ _ _ es (Agree.refl _)

open Sample in
theorem app_refines_morning : ∃ calls : List Call, (ingestIds calls).Nodup ∧
    batchesOf calls = (run (step (buildApp Bootstrap.Sample.settings secrets asking [] idFactory))
      State.initial morning).handed ∧
    actionsOf calls = morning.filterMap (Input.resolved
      (buildApp Bootstrap.Sample.settings secrets asking [] idFactory)) ∧
    Agree (run (step (buildApp Bootstrap.Sample.settings secrets asking [] idFactory)) State.initial
        morning).world
      (run (Orchestrator.step
        (buildApp Bootstrap.Sample.settings secrets asking [] idFactory).orchestrator)
          World.initial calls) :=
  app_refines Bootstrap.Sample.settings secrets asking [] idFactory injective_idFactory morning

end WappPlanner.Api
