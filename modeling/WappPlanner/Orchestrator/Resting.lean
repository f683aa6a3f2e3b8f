import WappPlanner.Orchestrator.Runs

/-! # Where a request rests

Between invocations a request should wait for the owner or be over. An invocation whose external
calls fail at the wrong place leaves it in a state nothing leads out of; `GoesThrough` says exactly
which failures those are, and `resting_iff` that a run meets only resting requests if and only if
all its invocations go through. -/

namespace WappPlanner.Orchestrator

open WappPlanner.Domain.Models WappPlanner.Errors WappPlanner.Hitl.Service
open WappPlanner.Lib.Programs WappPlanner.Lib.Runs WappPlanner.Nlp.Classification
open WappPlanner.Persistence.InMemory WappPlanner.Py.Text WappPlanner.Py.Values
open WappPlanner.Workflow.Enums WappPlanner.Workflow.StateMachine

variable (cfg : Config)

/-- The states in which a request waits for its owner or is over. -/
def restingStates : List RequestState :=
  [.awaitingClassification, .awaitingApproval, .completed, .discarded, .failed]

/-- Every request rests. -/
def Resting (w : World) : Prop :=
  ∀ rid r, w.repo.requests rid = some r → r.state ∈ restingStates

/-- The external calls of an invocation answer so that its request comes to rest: the classifier
answers; and where a revision is due, the generator gives up with its own error, or generation,
rendering and both writes succeed. -/
def GoesThrough (w : World) : Call → Prop
  | .ingest b env => ∃ result, (classification cfg env b).1 = .ok result
  | .action a _ env => ∀ r, w.repo.requests a.requestId = some r → Accepted w a →
      startsPipeline a.decision = true →
        (∃ text, (generated cfg env r (feedbackOf a) (priorContent a r w)).result =
          .error (.generation text)) ∨
        ∃ p, produce cfg env r (feedbackOf a) (priorContent a r w) = .ok p

variable {cfg} {w : World}

theorem settledState_resting (result : ClassificationResult) :
    settledState result ∈ restingStates := by
  unfold settledState
  split <;> decide

theorem resting_step_iff (hw : Wf w) (h : Resting w) (c : Call) :
    Resting (step cfg w c) ↔
      ∀ r, (step cfg w c).repo.requests c.requestId = some r → r.state ∈ restingStates := by
  constructor
  · intro h' r hr
    exact h' _ r hr
  · intro h' rid r hr
    by_cases hne : rid = c.requestId
    · exact h' r (hne ▸ hr)
    · rw [(step_local hw c).requests hne] at hr
      exact h rid r hr

theorem resting_ingest (hw : Wf w) (h : Resting w) (b : Batch) (env : External) :
    Resting (step cfg w (.ingest b env)) ↔ GoesThrough cfg w (.ingest b env) := by
  rw [resting_step_iff hw h, GoesThrough, step]
  have ho := ingest_outcome cfg w b env
  generalize outcome cfg w (.ingest b env) = o at ho ⊢
  cases ho with
  | unclassified exc hexc =>
    refine iff_of_false (fun hrest => ?_) (by simp [hexc])
    have hr := hrest (classifying cfg env b) (by
      simp [enteredWorld, Call.requestId, classifying, transcribed, processing, Batch.request])
    change RequestState.classifying ∈ restingStates at hr
    exact absurd hr (by decide)
  | silent result hres | told result hres =>
    refine iff_of_true (fun r hr => ?_) ⟨result, hres⟩
    have hid : (settledRequest cfg env b result).id = b.aggregated.requestId := rfl
    simp only [Call.requestId, World.repo_posted, World.repo_saved,
      Repository.requests_saveRequest, hid, if_pos, Option.some.injEq] at hr
    subst hr
    exact settledState_resting result

theorem pipeline_resting {env : External} {r : Request} {now : Instant} {feedback : Option String}
    {previous : Option Json} {o : Outcome Op World Exn Request} (hs : r.state = .generating)
    (hr : w.repo.requests r.id = some r)
    (ho : PipelineOutcome cfg env r now feedback previous w o) :
    (∀ r', o.state.repo.requests r.id = some r' → r'.state ∈ restingStates) ↔
      (∃ text, (generated cfg env r feedback previous).result = .error (.generation text)) ∨
        ∃ p, produce cfg env r feedback previous = .ok p := by
  cases ho with
  | failed text hgen =>
    refine iff_of_true (fun r' hr' => ?_) (.inl ⟨text, hgen⟩)
    simp only [World.repo_saved, Repository.requests_saveRequest, Request.id_moved, if_pos,
      Option.some.injEq] at hr'
    subst hr'
    rw [Request.state_moved]
    decide
  | stopped exc w' trace hgen hexc hrepo =>
    refine iff_of_false (fun hrest => ?_) ?_
    · have hstuck := hrest r (by rw [hrepo, hr])
      rw [hs] at hstuck
      exact absurd hstuck (by decide)
    · rintro (⟨text, h⟩ | ⟨p, h⟩)
      · exact hgen text h
      · rw [hexc] at h
        cases h
  | made p hp work hwork =>
    refine iff_of_true (fun r' hr' => ?_) (.inr ⟨p, hp⟩)
    have hid : (delivered r now).id = r.id := rfl
    simp only [madeWorld, World.repo_posted, World.repo_saved, Repository.requests_saveRequest, hid,
      if_pos, Option.some.injEq] at hr'
    subst hr'
    rw [delivered, Request.state_moved]
    decide

theorem resting_action (hw : Wf w) (h : Resting w) (a : OwnerAction) (now : Instant)
    (env : External) :
    Resting (step cfg w (.action a now env)) ↔ GoesThrough cfg w (.action a now env) := by
  rw [resting_step_iff hw h, GoesThrough, step]
  have ho := action_outcome cfg w a now env
  generalize outcome cfg w (.action a now env) = o at ho ⊢
  cases ho with
  | unknown hnone => exact iff_of_true (fun r hr => h _ r hr) (by simp [hnone])
  | duplicate r hr hdup =>
    exact iff_of_true (fun r hr => h _ r hr) fun _ _ hacc =>
      absurd hacc (not_accepted_of_seen hdup)
  | refused r hr hfresh hgate =>
    exact iff_of_true (fun r hr => h _ r hr) fun _ _ hacc =>
      absurd hacc (not_accepted_of_gate hr hgate)
  | accepted r hr hfresh hgate o ho =>
    have hid : r.id = a.requestId := hw.id_eq hr
    have hacc : Accepted w a := accepted_iff.mpr ⟨r, hr, hfresh, hgate⟩
    cases ho with
    | settled hd =>
      refine iff_of_true (fun r' hr' => ?_) fun _ _ _ hstart => ?_
      · simp only [Call.requestId, acceptedWorld, World.repo_saved,
          Repository.requests_saveRequest, Request.id_moved, hid, if_pos, Option.some.injEq] at hr'
        subst hr'
        rcases hd with hd | hd <;> rw [Request.state_moved, hd] <;> decide
      · rcases hd with hd | hd <;> simp [startsPipeline, hd] at hstart
    | unnamed hd | corrected hd =>
      refine iff_of_true (fun r' hr' => ?_) fun _ _ _ hstart => by simp [startsPipeline, hd] at hstart
      simp only [Call.requestId, World.repo_posted, World.repo_saved,
        Repository.requests_saveRequest, withIntent, Request.id_moved, hid, if_pos,
        Option.some.injEq] at hr'
      subst hr'
      rw [Request.state_moved, hd]
      decide
    | pipeline hd lookups hlookups o ho =>
      have hs : (r.moved (target a.decision) now).state = .generating := by
        simp only [startsPipeline, Bool.or_eq_true, decide_eq_true_eq] at hd
        rcases hd with hd | hd <;> rw [Request.state_moved, hd] <;> rfl
      have hsaved : (acceptedWorld a r now w).repo.requests (r.moved (target a.decision) now).id =
          some (r.moved (target a.decision) now) := by
        simp [acceptedWorld]
      have hrest := pipeline_resting hs hsaved ho
      simp only [Request.id_moved, hid] at hrest
      constructor
      · intro h' r' hr' _ _
        rw [hr, Option.some.injEq] at hr'
        subst hr'
        exact hrest.mp h'
      · intro h'
        exact hrest.mpr (h' r hr hacc hd)

/-- **When a run strands no request.** All requests rest after every invocation of a run if and only
if every invocation goes through. -/
theorem resting_iff {cs : List Call} (hids : (ingestIds cs).Nodup) :
    (∀ pre, pre <+: cs → Resting (run (step cfg) World.initial pre)) ↔
      Along (step cfg) (GoesThrough cfg) World.initial cs := by
  refine prefixes_iff (I := Wf) (C := Fresh) (fun s c hs _ => wf_step hs c)
    (fun s c hs _ hG => ?_) wf_initial (fun _ _ hr => by cases hr) (fresh_of_nodup hids)
  cases c with
  | ingest b env => exact resting_ingest hs hG b env
  | action a now env => exact resting_action hs hG a now env

open Sample in
/-- One ingest that is announced to the owner goes through, so its request rests. -/
theorem resting_iff_announced :
    let cs := [Call.ingest (batch "r1" start) (external (classifierText .executionPlan))]
    Along (step (config codec false)) (GoesThrough (config codec false)) World.initial cs ∧
      ∀ pre, pre <+: cs → Resting (run (step (config codec false)) World.initial pre) := by
  have hgoes : GoesThrough (config codec false) World.initial
      (.ingest (batch "r1" start) (external (classifierText .executionPlan))) :=
    ⟨⟨.executionPlan, .one, ""⟩, by decide +kernel⟩
  exact ⟨⟨hgoes, trivial⟩, (resting_iff (by decide)).mpr ⟨hgoes, trivial⟩⟩

/-- A classifier that is down leaves its request in `classifying`. -/
theorem stranded_by_classifier :
    ¬ ∀ (cfg : Config) (cs : List Call), (ingestIds cs).Nodup →
      ∀ pre, pre <+: cs → Resting (run (step cfg) World.initial pre) := by
  intro h
  have hstate : ((run (step (Sample.config Sample.codec false)) World.initial
      [.ingest (Sample.batch "r1" Sample.start) Sample.llmDown]).repo.requests "r1").map
        (·.state) = some .classifying := by decide
  obtain ⟨r, hr, hs⟩ := Option.map_eq_some_iff.mp hstate
  have hrest := h _ _ (by decide) _ List.prefix_rfl "r1" r hr
  rw [hs] at hrest
  exact absurd hrest (by decide)

end WappPlanner.Orchestrator
