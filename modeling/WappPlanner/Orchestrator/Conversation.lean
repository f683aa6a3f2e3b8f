import WappPlanner.Documents.Retries
import WappPlanner.Lib.Fallible
import WappPlanner.Orchestrator.RepoCalls

/-! # The conversation with the owner

What the owner sees of a request is its stage: the state, the intent and the number of the current
revision. `turn` says where a decision takes a stage, if anywhere. While the external services answer,
the stages are all there is to know: from every reachable state the clicks on a request are answered, one
after the other, exactly as far as the turns go (`conversation`). So a request that waits at a gate can
always be brought to its end. -/

namespace WappPlanner.Orchestrator

open WappPlanner.Documents.Content WappPlanner.Documents.Generation WappPlanner.Documents.Layout
open WappPlanner.Domain.Enums WappPlanner.Domain.Models WappPlanner.Errors
open WappPlanner.Hitl.Dispatcher WappPlanner.Hitl.Service WappPlanner.Lib.Fallible
open WappPlanner.Lib.Programs WappPlanner.Lib.Runs WappPlanner.Nlp.Classification
open WappPlanner.Nlp.Prompts WappPlanner.Persistence.InMemory WappPlanner.Providers.Base
open WappPlanner.Py.Text WappPlanner.Py.Values WappPlanner.Workflow.Enums
open WappPlanner.Workflow.StateMachine

/-! ### Stages -/

/-- What the owner sees of a request. -/
structure Stage where
  state : RequestState
  intent : Option Intent
  revision : ℕ
  deriving DecidableEq

def stageOf (r : Request) : Stage := ⟨r.state, r.intent, r.currentRevision⟩

/-- There is a document for the intent. -/
def Documented (intent : Option Intent) : Prop := ∃ i, intent = some i ∧ i ≠ .none

instance (intent : Option Intent) : Decidable (Documented intent) :=
  match intent with
  | none => isFalse (by rintro ⟨i, hi, -⟩; cases hi)
  | some i => decidable_of_iff (i ≠ .none) (by simp [Documented])

/-- Where a decision takes a request. -/
def turn (s : Stage) (a : OwnerAction) : Option Stage :=
  if s.state = gateOf a.decision then
    match a.decision with
    | .confirm | .revise =>
      if Documented s.intent then some ⟨.awaitingApproval, s.intent, s.revision + 1⟩ else none
    | .correct => a.intent.map fun intent => ⟨.awaitingClassification, some intent, s.revision⟩
    | .reject => some { s with state := .discarded }
    | .approve => some { s with state := .completed }
  else none

/-- The stages that decisions lead through. -/
def turns : Stage → List OwnerAction → Option (List Stage)
  | _, [] => some []
  | s, a :: actions => do
    let s' ← turn s a
    let rest ← turns s' actions
    return s' :: rest

/-! ### Services that answer -/

/-- The configuration names prompts that exist and channels on which the owner has an address. -/
structure Ready (cfg : Config) : Prop where
  prompts : ∀ intent ≠ Intent.none,
    ∃ system, generationSystemPrompt (some intent) cfg.generator.promptVersion = .ok system
  notify : ∀ c ∈ ChannelDispatcher.channels cfg.notify.notifyChannel,
    ∃ recipient, cfg.notify.dispatcher.targets c = some recipient
  deliver : ∀ c ∈ ChannelDispatcher.channels cfg.notify.deliverChannel,
    ∃ recipient, cfg.notify.dispatcher.targets c = some recipient

/-- The external calls succeed; the model may fail as often as the generator tries again. -/
structure Serves (cfg : Config) (env : External) : Prop where
  writes : ∀ intent args call, cfg.generator.prompts intent args = .ok call →
    ∃ k < cfg.generator.maxAttempts, k ≤ 1024 ∧ ∃ result content,
      cfg.generator.Accepts env.llm call intent k result content
  renderPdf : ∀ blocks, ∃ pdf, env.renderers.renderPdf blocks = .ok pdf
  renderDocx : ∀ blocks, ∃ docx, env.renderers.renderDocx blocks = .ok docx
  put : ∀ key, env.put key = .ok ()
  send : ∀ c m, ∃ id, env.send c m = .ok id

section services

variable {cfg : Config} {env : External} {r : Request} {now : Instant}

theorem Serves.generated (hserves : Serves cfg env) (hready : Ready cfg) (h : Documented r.intent)
    (feedback : Option String) (previous : Option Json) :
    ∃ doc, (generated cfg env r feedback previous).result = .ok doc := by
  obtain ⟨intent, hintent, hne⟩ := h
  obtain ⟨system, hsystem⟩ := hready.prompts intent hne
  have hargs : (generateArgs r feedback previous).intent = some intent := hintent
  obtain ⟨user, -, hprompts⟩ :=
    Generator.exists_prompts (generateArgs r feedback previous) hne hsystem
  rcases Generator.generate_cases env.llm hargs hprompts with
    ⟨k, -, -, result, content, -, hrun⟩ | ⟨hrejects, -⟩ | ⟨hrejects, -⟩
  · exact ⟨_, congrArg GenerateRun.result hrun⟩
  · obtain ⟨k, hk, -, result, content, haccepts⟩ := hserves.writes intent _ _ hprompts
    exact absurd haccepts (hrejects k hk result content)
  · obtain ⟨k, -, hk, result, content, haccepts⟩ := hserves.writes intent _ _ hprompts
    exact absurd haccepts (hrejects k hk result content)

theorem Serves.produce (hserves : Serves cfg env) (hready : Ready cfg) (h : Documented r.intent)
    (feedback : Option String) (previous : Option Json) :
    ∃ p, produce cfg env r feedback previous = .ok p := by
  obtain ⟨doc, hdoc⟩ := hserves.generated hready h feedback previous
  obtain ⟨intent, hintent, -⟩ := h
  obtain ⟨pdf, hpdf⟩ := hserves.renderPdf (buildBlocks doc.content cfg.branding)
  obtain ⟨docx, hdocx⟩ := hserves.renderDocx (buildBlocks doc.content cfg.branding)
  have hrendered : Rendered cfg env r feedback previous ⟨doc, intent, pdf, docx⟩ :=
    ⟨hdoc, hintent, hpdf, hdocx⟩
  exact ⟨_, hrendered.produce_ok (hserves.put _) (hserves.put _)⟩

theorem Serves.send_ok (hserves : Serves cfg env) {channel : Channel}
    (haddress : ∀ c ∈ ChannelDispatcher.channels channel,
      ∃ recipient, cfg.notify.dispatcher.targets c = some recipient)
    (body : String) (subject : Option String) (attachments : List Attachment) :
    ∃ ids, (cfg.notify.dispatcher.send env.send channel body subject attachments).result =
      .ok ids := by
  refine ChannelDispatcher.dispatched_iff.mpr fun c hc => ?_
  obtain ⟨recipient, hrecipient⟩ := haddress c hc
  obtain ⟨id, hid⟩ := hserves.send c
    (ChannelDispatcher.outbound subject body attachments recipient)
  exact ⟨recipient, id, hrecipient, hid⟩

theorem Serves.renotice (hserves : Serves cfg env) (hready : Ready cfg) (intent : Intent) :
    ∃ ids, (renotice cfg env r intent now).result = .ok ids :=
  hserves.send_ok hready.notify ..

theorem Serves.handOver (hserves : Serves cfg env) (hready : Ready cfg) (h : Documented r.intent)
    (p : Product) : ∃ ids, (handOver cfg env r now p).result = .ok ids := by
  obtain ⟨intent, hintent, -⟩ := h
  have hdelivered : (delivered r now).intent = some intent := hintent
  unfold Orchestrator.handOver NotificationService.deliverDocument NotificationService.composeDelivery
    Hitl.Messages.composeDeliveryNotification
  rw [hdelivered]
  exact hserves.send_ok hready.deliver ..

end services

/-! ### One turn -/

section turns

variable {cfg : Config} {env : External} {w : World} {a : OwnerAction} {r : Request}
  {now : Instant}

theorem follow_ok {r r' : Request} {o : Outcome Op World Exn Request}
    (hr : w.repo.requests r.id = some r) (ho : FollowOutcome cfg env a r now w o)
    (h : o.result = .ok r') : r'.id = r.id ∧ o.state.repo.requests r.id = some r' := by
  cases ho with
  | settled =>
    obtain rfl := Except.ok.inj h
    exact ⟨rfl, hr⟩
  | unnamed => cases h
  | corrected hd intent hi =>
    obtain ⟨ids, -, rfl⟩ := map_eq_ok.mp h
    refine ⟨rfl, ?_⟩
    change ((w.saved (withIntent r intent)).repo.requests r.id) = _
    rw [World.repo_saved, Repository.requests_saveRequest]
    exact if_pos rfl
  | pipeline hd lookups hlookups o ho =>
    cases ho with
    | failed | stopped => cases h
    | made p =>
      obtain ⟨ids, -, rfl⟩ := map_eq_ok.mp h
      refine ⟨rfl, ?_⟩
      change ((World.saved _ (delivered r now)).repo.requests r.id) = _
      rw [World.repo_saved, Repository.requests_saveRequest]
      exact if_pos rfl

/-- What an answer shows of the request, if it is one. -/
def shown (result : Except Exn Request) : Option Stage := result.toOption.map stageOf

theorem turn_of_gate (hgate : r.state = gateOf a.decision) : turn (stageOf r) a =
    match a.decision with
    | .confirm | .revise => if Documented r.intent then
        some ⟨.awaitingApproval, r.intent, r.currentRevision + 1⟩ else none
    | .correct => a.intent.map fun intent =>
        ⟨.awaitingClassification, some intent, r.currentRevision⟩
    | .reject => some ⟨.discarded, r.intent, r.currentRevision⟩
    | .approve => some ⟨.completed, r.intent, r.currentRevision⟩ := if_pos hgate

theorem pipeline_turn (hserves : Serves cfg env) (hready : Ready cfg) {feedback : Option String}
    {previous : Option Json} {o : Outcome Op World Exn Request}
    (ho : PipelineOutcome cfg env r now feedback previous w o) :
    shown o.result = if Documented r.intent then
      some ⟨.awaitingApproval, r.intent, r.currentRevision + 1⟩ else none := by
  split_ifs with hdoc
  · obtain ⟨p₀, hp₀⟩ := hserves.produce hready hdoc feedback previous
    cases ho with
    | failed text hgen =>
      obtain ⟨doc, hdoc'⟩ := hserves.generated hready hdoc feedback previous
      rw [hgen] at hdoc'
      cases hdoc'
    | stopped exc w' trace hgen hexc =>
      rw [hexc] at hp₀
      cases hp₀
    | made p =>
      obtain ⟨ids, hids⟩ : ∃ ids, (handOver cfg env r now p).result = .ok ids :=
        hserves.handOver hready hdoc p
      change shown ((handOver cfg env r now p).result.map _) = _
      rw [hids]
      rfl
  · cases ho with
    | failed | stopped => rfl
    | made p hp =>
      obtain ⟨doc, hgen, -⟩ := bind_eq_ok.mp hp
      obtain ⟨intent, hintent, hne⟩ := Generator.generate_ok hgen
      exact absurd ⟨intent, hintent, hne⟩ hdoc

theorem follow_turn (hserves : Serves cfg env) (hready : Ready cfg)
    (hgate : r.state = gateOf a.decision) {o : Outcome Op World Exn Request}
    (ho : FollowOutcome cfg env a (r.moved (target a.decision) now) now w o) :
    shown o.result = turn (stageOf r) a := by
  cases ho with
  | settled hd =>
    rw [turn_of_gate hgate]
    rcases hd with hd | hd
    · rw [hd]
      rfl
    · rw [hd]
      rfl
  | unnamed hd hi =>
    rw [turn_of_gate hgate, hd, hi]
    rfl
  | corrected hd intent hi =>
    obtain ⟨ids, hids⟩ : ∃ ids, (renotice cfg env
        (withIntent (r.moved (target a.decision) now) intent) intent now).result = .ok ids :=
      hserves.renotice hready intent
    have hstate : target a.decision = .awaitingClassification := by
      rw [hd]
      rfl
    have hturn : turn (stageOf r) a =
        some ⟨.awaitingClassification, some intent, r.currentRevision⟩ := by
      rw [turn_of_gate hgate, hd, hi]
      rfl
    rw [hturn, ← hstate, hids]
    rfl
  | pipeline hd lookups hlookups o ho =>
    have hpipeline := pipeline_turn hserves hready ho
    change shown o.result = _
    rw [hpipeline, turn_of_gate hgate]
    cases hdecision : a.decision <;> rw [hdecision] at hd <;> first | rfl | cases hd

/-- **A click is answered as its turn says**, and what is answered is persisted. -/
theorem outcome_turn (hready : Ready cfg) (hserves : Serves cfg env) (hw : Wf w)
    (hr : w.repo.requests a.requestId = some r) (hfresh : w.repo.interactions a.actionId = none) :
    shown (outcome cfg w (.action a now env)).result = turn (stageOf r) a ∧
      ∀ r', (outcome cfg w (.action a now env)).result = .ok r' →
        (step cfg w (.action a now env)).repo.requests a.requestId = some r' := by
  have ho := action_outcome cfg w a now env
  unfold step
  generalize outcome cfg w (.action a now env) = o at ho ⊢
  cases ho with
  | unknown hnone =>
    rw [hr] at hnone
    cases hnone
  | duplicate r₀ hr₀ hdup => exact absurd hfresh hdup
  | refused r₀ hr₀ _ hgate =>
    obtain rfl := Option.some.inj (hr.symm.trans hr₀)
    refine ⟨?_, fun r' h => by cases h⟩
    have hnone : turn (stageOf r) a = none := if_neg hgate
    rw [hnone]
    rfl
  | accepted r₀ hr₀ _ hgate o ho =>
    obtain rfl := Option.some.inj (hr.symm.trans hr₀)
    have hid : r.id = a.requestId := hw.id_eq hr
    have hshown : shown o.result = turn (stageOf r) a := follow_turn hserves hready hgate ho
    refine ⟨hshown, fun r' h => ?_⟩
    have hmoved : (acceptedWorld a r now w).repo.requests (r.moved (target a.decision) now).id =
        some (r.moved (target a.decision) now) := by
      rw [Request.id_moved, hid]
      exact acceptedWorld_requests hid
    have hpersisted := (follow_ok hmoved ho h).2
    rwa [Request.id_moved, hid] at hpersisted

end turns

/-! ### Conversations -/

section conversations

variable {cfg : Config} {w : World} {rid : String} {r : Request}

/-- The clicks are on the request, under new ids, and the services answer them. -/
structure Talk (cfg : Config) (w : World) (rid : String) (clicks : List Click) : Prop where
  requestId : ∀ k ∈ clicks, k.action.requestId = rid
  serves : ∀ k ∈ clicks, Serves cfg k.env
  fresh : ∀ k ∈ clicks, w.repo.interactions k.action.actionId = none
  distinct : (clicks.map (·.action.actionId)).Nodup

theorem Talk.tail {k : Click} {clicks : List Click} (h : Talk cfg w rid (k :: clicks)) :
    Talk cfg (step cfg w k.call) rid clicks := by
  refine ⟨fun k' hk' => h.requestId k' (List.mem_cons_of_mem k hk'),
    fun k' hk' => h.serves k' (List.mem_cons_of_mem k hk'), fun k' hk' => ?_,
    (List.nodup_cons.mp h.distinct).2⟩
  have hne : k'.action.actionId ≠ k.action.actionId := by
    intro hsame
    have hmem : k.action.actionId ∈ clicks.map (·.action.actionId) :=
      List.mem_map.mpr ⟨k', hk', hsame⟩
    exact (List.nodup_cons.mp h.distinct).1 hmem
  have hfresh := h.fresh k' (List.mem_cons_of_mem k hk')
  unfold Click.call
  rw [interactions_action]
  split_ifs
  · rwa [Function.update_of_ne hne]
  · exact hfresh

/-- What the owner is shown, click after click, as long as every click is answered. -/
def shownAll (cfg : Config) (past : List (World × Call)) : Option (List Stage) :=
  past.mapM fun e => shown (outcome cfg e.1 e.2).result

theorem talk_turns (hready : Ready cfg) {clicks : List Click} (hw : Wf w)
    (htalk : Talk cfg w rid clicks) (hr : w.repo.requests rid = some r) :
    shownAll cfg (history (step cfg) w (clicks.map Click.call)) =
        turns (stageOf r) (clicks.map (·.action)) ∧
      ∀ stages, turns (stageOf r) (clicks.map (·.action)) = some stages →
        ∃ r', (run (step cfg) w (clicks.map Click.call)).repo.requests rid = some r' ∧
          stageOf r' = stages.getLastD (stageOf r) := by
  induction clicks generalizing w r with
  | nil =>
    refine ⟨rfl, fun stages hstages => ⟨r, hr, ?_⟩⟩
    obtain rfl := Option.some.inj hstages
    rfl
  | cons k clicks ih =>
    have hrid : k.action.requestId = rid := htalk.requestId k List.mem_cons_self
    subst hrid
    obtain ⟨hshown, hpersisted⟩ : shown (outcome cfg w k.call).result = turn (stageOf r) k.action ∧
        ∀ r', (outcome cfg w k.call).result = .ok r' →
          (step cfg w k.call).repo.requests k.action.requestId = some r' :=
      outcome_turn hready (htalk.serves k List.mem_cons_self) hw hr
        (htalk.fresh k List.mem_cons_self)
    unfold shownAll at ih ⊢
    rw [List.map_cons, List.map_cons, history, List.mapM_cons, run_cons, turns, hshown]
    cases hresult : (outcome cfg w k.call).result with
    | error exc =>
      have hnone : turn (stageOf r) k.action = none := by
        rw [← hshown, hresult]
        rfl
      rw [hnone]
      exact ⟨rfl, fun stages h => by cases h⟩
    | ok r₁ =>
      have hturn : turn (stageOf r) k.action = some (stageOf r₁) := by
        rw [← hshown, hresult]
        rfl
      obtain ⟨hrest, hlast⟩ := ih (wf_step hw k.call) htalk.tail (hpersisted r₁ hresult)
      rw [hturn, hrest]
      refine ⟨rfl, fun stages hstages => ?_⟩
      simp only [Option.bind_eq_bind, Option.bind_some] at hstages
      obtain ⟨rest, hturns, hcons⟩ := Option.bind_eq_some_iff.mp hstages
      obtain rfl := Option.some.inj hcons
      obtain ⟨r', hr', hstage⟩ := hlast rest hturns
      refine ⟨r', hr', hstage.trans ?_⟩
      cases rest <;> rfl

variable (cfg) in
/-- **A conversation goes exactly as far as its turns.** In every reachable state, whatever raised
before, clicks on a request with new ids, while the services answer, show the owner the stages that
their turns lead through, all of them are answered exactly if every one has its turn, and then the
request is left at the last stage. -/
theorem conversation (hready : Ready cfg) (cs : List Call) (clicks : List Click) {rid : String}
    {r : Request} (hr : (run (step cfg) World.initial cs).repo.requests rid = some r)
    (htalk : Talk cfg (run (step cfg) World.initial cs) rid clicks) :
    shownAll cfg (history (step cfg) (run (step cfg) World.initial cs) (clicks.map Click.call)) =
        turns (stageOf r) (clicks.map (·.action)) ∧
      ∀ stages, turns (stageOf r) (clicks.map (·.action)) = some stages →
        ∃ r', (run (step cfg) World.initial (cs ++ clicks.map Click.call)).repo.requests rid =
          some r' ∧ stageOf r' = stages.getLastD (stageOf r) := by
  rw [run_append]
  exact talk_turns hready (wf_run cs) htalk hr

end conversations

/-! ### A small instance -/

namespace Sample

/-- The small configuration, with a schema for quotes as well. -/
def documenting : Config :=
  { config codec false with
    generator := ⟨"large", "v1", 1, .finite 0, { contentCodec with
      quoteContent := fun _ => .ok
        { title := "Deck", preparedFor := "Ana", scopeSummary := "", lineItems := []
          subtotal := .finite 0, tax := none, total := .finite 0, assumptions := []
          exclusions := [], validity := none, notes := none } }⟩ }

/-- A request that asks for a plan. -/
def enquiry : List Call :=
  [.ingest (batch "r1" (start - 2)) (external (classifierText .executionPlan))]

/-- Confirmed, revised once and approved. -/
def talk : List Click :=
  [⟨click "r1" "a1" .confirm 0, start, external planText⟩,
    ⟨click "r1" "a2" .revise 1, start + 1, external planText⟩,
    ⟨click "r1" "a3" .approve 2, start + 2, external planText⟩]

theorem ready_documenting : Ready documenting := by
  have hemail : ∀ c ∈ ChannelDispatcher.channels .email,
      ∃ recipient, documenting.notify.dispatcher.targets c = some recipient := by
    intro c hc
    obtain rfl : c = .email := by
      revert hc
      cases c <;> decide
    exact ⟨_, rfl⟩
  refine ⟨fun intent hne => ?_, hemail, hemail⟩
  cases intent with
  | none => exact absurd rfl hne
  | quote | executionPlan => exact ⟨_, rfl⟩

theorem parse_planText {intent : Intent} (hne : intent ≠ .none) :
    ∃ content, documenting.generator.parse planText intent = .ok content := by
  have hspan : extractJsonObject planText = .ok planText := by decide +kernel
  have hloads : ∃ data, documenting.generator.codec.loads planText = .ok data := by
    refine ⟨.obj [("title", .str "Deck"), ("overview", .str ""), ("phases", .arr [])], ?_⟩
    simp [documenting, contentCodec]
  obtain ⟨data, hdata⟩ := hloads
  unfold Generator.parse
  rw [hspan, ok_bind, hdata, ok_bind]
  cases intent with
  | none => exact absurd rfl hne
  | quote | executionPlan => exact ⟨_, rfl⟩

theorem serves_external : Serves documenting (external planText) := by
  refine ⟨fun intent args call h => ?_, fun _ => ⟨_, rfl⟩, fun _ => ⟨_, rfl⟩, fun _ => rfl,
    fun _ _ => ⟨_, rfl⟩⟩
  have hne : intent ≠ .none := by
    rintro rfl
    cases h
  obtain ⟨content, hcontent⟩ := parse_planText hne
  exact ⟨0, Nat.zero_lt_one, Nat.zero_le _, ⟨planText, call.model, 0, 0, .finite 0⟩, content, rfl, hcontent⟩

end Sample

open Sample in
theorem conversation_talk : ∃ r,
    (run (step documenting) World.initial enquiry).repo.requests "r1" = some r ∧
      shownAll documenting (history (step documenting)
        (run (step documenting) World.initial enquiry) (talk.map Click.call)) =
          turns (stageOf r) (talk.map (·.action)) := by
  obtain ⟨r, hr⟩ : ∃ r,
    (run (step documenting) World.initial enquiry).repo.requests "r1" = some r := ⟨_, rfl⟩
  have htalk : Talk documenting (run (step documenting) World.initial enquiry) "r1" talk := by
    refine ⟨fun k hk => ?_, fun k hk => ?_, fun k hk => ?_, by decide⟩
    · simp only [talk, List.mem_cons, List.not_mem_nil, or_false] at hk
      rcases hk with rfl | rfl | rfl <;> rfl
    · simp only [talk, List.mem_cons, List.not_mem_nil, or_false] at hk
      rcases hk with rfl | rfl | rfl <;> exact serves_external
    · rfl
  exact ⟨r, hr, (conversation documenting ready_documenting enquiry talk hr htalk).1⟩

end WappPlanner.Orchestrator
