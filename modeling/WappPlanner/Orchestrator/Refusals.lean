import WappPlanner.Orchestrator.Runs

/-! # Refused actions

An action is refused when it raises `UnknownRequestError` or `IllegalTransitionError`. The
interaction is recorded before the transition is tried, so a refusal leaves a record behind exactly
when the request exists, the action is new and its transition is illegal. `traceless_iff` says so
for whole runs, with its two consequences: which records are earned by an accepted action, and
whether a refused click is refused again. -/

namespace WappPlanner.Orchestrator

open WappPlanner.Domain.Enums WappPlanner.Domain.Models WappPlanner.Errors
open WappPlanner.Hitl.Service WappPlanner.Lib.Programs WappPlanner.Lib.Runs
open WappPlanner.Persistence.InMemory WappPlanner.Py.Text WappPlanner.Py.Values
open WappPlanner.Workflow.Enums WappPlanner.Workflow.StateMachine

variable (cfg : Config)

/-- The action raises `UnknownRequestError` or `IllegalTransitionError`. -/
def Refused (w : World) (a : OwnerAction) (now : Instant) (env : External) : Prop :=
  ∃ exc, (outcome cfg w (.action a now env)).result = .error exc ∧ exc.isRefusal = true

/-- If an action is refused, repository, storage and outbox stay as they are and the same click is
refused again. -/
def LeavesNoTrace (w : World) : Call → Prop
  | .ingest _ _ => True
  | .action a now env => Refused cfg w a now env →
      (step cfg w (.action a now env)).repo = w.repo ∧
      (step cfg w (.action a now env)).storage = w.storage ∧
      (step cfg w (.action a now env)).outbox = w.outbox ∧
      ∀ now' env', Refused cfg (step cfg w (.action a now env)) a now' env'

/-- Every record belongs to an action that was accepted. -/
def Earned (w : World) (past : List (World × Call)) : Prop :=
  ∀ id i, w.repo.interactions id = some i → ∃ w₀ a now env,
    (w₀, Call.action a now env) ∈ past ∧ a.actionId = id ∧ interactionOf a = i ∧ Accepted w₀ a

/-- A new action on a request that exists meets a legal transition. -/
def Legal (w : World) : Call → Prop
  | .ingest _ _ => True
  | .action a _ _ => ∀ r, w.repo.requests a.requestId = some r →
      w.repo.interactions a.actionId = none →
        ∃ s, nextState r.state (triggerFor a.decision) = .ok s

variable {cfg} {w : World}

theorem legal_iff {s : RequestState} {d : OwnerDecision} :
    (∃ s', nextState s (triggerFor d) = .ok s') ↔ s = gateOf d := by
  unfold nextState
  rw [successor_triggerFor]
  by_cases h : s = gateOf d <;> simp [h]

/-! ### Which actions are refused -/

theorem produce_error {env : External} {r : Request} {feedback : Option String}
    {previous : Option Json} {exc : Exn} (h : produce cfg env r feedback previous = .error exc) :
    exc.isRefusal = false := by
  unfold produce at h
  cases hgen : (generated cfg env r feedback previous).result with
  | error exc' =>
    rw [hgen, error_bind] at h
    cases h
    exact Documents.Generation.Generator.generate_error hgen
  | ok doc =>
    rw [hgen, ok_bind] at h
    split at h
    · cases h
      rfl
    · rcases Answer.lift_bind_error h with ⟨text, rfl⟩ | ⟨pdf, h⟩
      · rfl
      rcases Answer.lift_bind_error h with ⟨text, rfl⟩ | ⟨docx, h⟩
      · rfl
      rcases Answer.lift_bind_error h with ⟨text, rfl⟩ | ⟨-, h⟩
      · rfl
      rcases Answer.lift_bind_error h with ⟨text, rfl⟩ | ⟨-, h⟩
      · rfl
      · cases h

theorem map_error {α β : Type} {x : Except Exn α} {f : α → β} {exc : Exn}
    (h : x.map f = .error exc) : x = .error exc := by
  cases x with
  | error e =>
    cases h
    rfl
  | ok a => cases h

theorem pipeline_error {env : External} {r : Request} {now : Instant} {feedback : Option String}
    {previous : Option Json} {o : Outcome Op World Exn Request} {exc : Exn}
    (ho : PipelineOutcome cfg env r now feedback previous w o) (h : o.result = .error exc) :
    exc.isRefusal = false := by
  cases ho with
  | failed text => exact (Except.error.inj h) ▸ rfl
  | stopped exc' w' trace hgen hexc => exact (Except.error.inj h) ▸ produce_error hexc
  | made p => exact NotificationService.deliverDocument_error (map_error h)

theorem follow_error {env : External} {a : OwnerAction} {r : Request} {now : Instant}
    {o : Outcome Op World Exn Request} {exc : Exn} (ho : FollowOutcome cfg env a r now w o)
    (h : o.result = .error exc) : exc.isRefusal = false := by
  cases ho with
  | settled => cases h
  | unnamed => exact (Except.error.inj h) ▸ rfl
  | corrected => exact NotificationService.notifyClassification_error (map_error h)
  | pipeline hd lookups hlookups o ho => exact pipeline_error ho h

/-- **An action is refused** if its request does not exist, or if it is new and illegal. -/
theorem refused_iff {a : OwnerAction} {now : Instant} {env : External} :
    Refused cfg w a now env ↔ w.repo.requests a.requestId = none ∨
      ∃ r, w.repo.requests a.requestId = some r ∧ w.repo.interactions a.actionId = none ∧
        r.state ≠ gateOf a.decision := by
  unfold Refused
  have ho := action_outcome cfg w a now env
  generalize outcome cfg w (.action a now env) = o at ho ⊢
  cases ho with
  | unknown hr => exact iff_of_true ⟨_, rfl, rfl⟩ (.inl hr)
  | duplicate r hr hdup =>
    refine iff_of_false ?_ ?_
    · rintro ⟨exc, h, -⟩
      cases h
    · rintro (h | ⟨r', -, h, -⟩)
      · simp [hr] at h
      · exact hdup h
  | refused r hr hfresh hgate =>
    exact iff_of_true ⟨_, rfl, rfl⟩ (.inr ⟨r, hr, hfresh, hgate⟩)
  | accepted r hr hfresh hgate o ho =>
    refine iff_of_false ?_ ?_
    · rintro ⟨exc, h, hexc⟩
      rw [follow_error ho h] at hexc
      cases hexc
    · rintro (h | ⟨r', hr', -, h⟩)
      · simp [hr] at h
      · rw [hr, Option.some.injEq] at hr'
        exact h (hr' ▸ hgate)

theorem step_unknown {a : OwnerAction} {now : Instant} {env : External}
    (h : w.repo.requests a.requestId = none) : step cfg w (.action a now env) = w := by
  unfold step
  have ho := action_outcome cfg w a now env
  generalize outcome cfg w (.action a now env) = o at ho ⊢
  cases ho with
  | unknown => rfl
  | duplicate r hr | refused r hr | accepted r hr => simp [hr] at h

/-! ### Runs -/

theorem leavesNoTrace_iff (c : Call) : LeavesNoTrace cfg w c ↔ Legal w c := by
  cases c with
  | ingest b env => exact Iff.rfl
  | action a now env =>
    constructor
    · intro h r hr hfresh
      rw [legal_iff]
      by_contra hgate
      obtain ⟨hrepo, -⟩ := h (refused_iff.mpr (.inr ⟨r, hr, hfresh, hgate⟩))
      have hrec := interactions_action cfg w a now env
      rw [if_pos ⟨by simp [hr], hfresh⟩, hrepo] at hrec
      simpa [hfresh] using congrFun hrec a.actionId
    · intro h href
      have hnone : w.repo.requests a.requestId = none := by
        rcases refused_iff.mp href with hnone | ⟨r, hr, hfresh, hgate⟩
        · exact hnone
        · exact absurd (legal_iff.mp (h r hr hfresh)) hgate
      rw [step_unknown hnone]
      exact ⟨rfl, rfl, rfl, fun now' env' => refused_iff.mpr (.inl hnone)⟩

theorem earned_step {past : List (World × Call)} {c : Call} (hw : Earned w past) (h : Legal w c) :
    Earned (step cfg w c) (past ++ [(w, c)]) := by
  intro id i hi
  have hold : w.repo.interactions id = some i → ∃ w₀ a now env,
      (w₀, Call.action a now env) ∈ past ++ [(w, c)] ∧ a.actionId = id ∧ interactionOf a = i ∧
        Accepted w₀ a := by
    intro hi
    obtain ⟨w₀, a, now, env, hmem, hrest⟩ := hw id i hi
    exact ⟨w₀, a, now, env, List.mem_append_left _ hmem, hrest⟩
  cases c with
  | ingest b env =>
    rw [interactions_ingest] at hi
    exact hold hi
  | action a now env =>
    rw [interactions_action] at hi
    split at hi
    · rename_i hnew
      by_cases hid : id = a.actionId
      · obtain ⟨r, hr⟩ := Option.ne_none_iff_exists'.mp hnew.1
        subst hid
        rw [Function.update_self, Option.some.injEq] at hi
        exact ⟨w, a, now, env, by simp, rfl, hi,
          accepted_iff.mpr ⟨r, hr, hnew.2, legal_iff.mp (h r hr hnew.2)⟩⟩
      · rw [Function.update_of_ne hid] at hi
        exact hold hi
    · exact hold hi

theorem earned_history {s : World} {cs : List Call} (hs : Earned s [])
    (h : Along (step cfg) Legal s cs) : Earned (run (step cfg) s cs) (history (step cfg) s cs) :=
  history_inv (fun _ _ _ hJ hC => earned_step hJ hC) hs h

/-- **When refusals leave no trace.** In a run every refusal leaves everything as it was and is
refused again, and every record is earned, if and only if no new action on an existing request of
the run is illegal. -/
theorem traceless_iff {cs : List Call} :
    (Along (step cfg) (LeavesNoTrace cfg) World.initial cs ∧ ∀ pre, pre <+: cs →
      Earned (run (step cfg) World.initial pre) (history (step cfg) World.initial pre)) ↔
      Along (step cfg) Legal World.initial cs := by
  have hiff : Along (step cfg) (LeavesNoTrace cfg) World.initial cs ↔
      Along (step cfg) Legal World.initial cs := by
    rw [along_iff, along_iff]
    simp only [leavesNoTrace_iff]
  rw [hiff, and_iff_left_iff_imp]
  rintro h pre ⟨post, rfl⟩
  exact earned_history (fun _ _ hi => by cases hi) (along_append.mp h).1

/-- Approving a request that waits for its classification is refused, and recorded. -/
theorem refusal_recorded :
    ¬ ∀ (cfg : Config) (cs : List Call), (ingestIds cs).Nodup →
      Along (step cfg) (LeavesNoTrace cfg) World.initial cs := by
  intro h
  have hrun := h (Sample.config Sample.codec false)
    [.ingest (Sample.batch "r1" Sample.start) (Sample.external (Sample.classifierText .executionPlan)),
      .action (Sample.click "r1" "a1" .approve 1) (Sample.start + 1) (Sample.external "")]
    (by decide)
  have hstate : ((step (Sample.config Sample.codec false) World.initial
      (.ingest (Sample.batch "r1" Sample.start)
        (Sample.external (Sample.classifierText .executionPlan)))).repo.requests "r1").map (·.state) =
          some .awaitingClassification := by decide +kernel
  obtain ⟨r, hr, hs⟩ := Option.map_eq_some_iff.mp hstate
  obtain ⟨hrepo, -⟩ := hrun.2.1 (refused_iff.mpr (.inr ⟨r, hr, rfl, by rw [hs]; decide⟩))
  have hrec := congrArg (fun repo => (repo.interactions "a1").isSome) hrepo
  exact absurd hrec (by decide +kernel)

end WappPlanner.Orchestrator
