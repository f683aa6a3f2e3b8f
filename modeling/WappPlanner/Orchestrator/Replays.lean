import WappPlanner.Orchestrator.Runs

/-! # Replayed clicks

A click whose action was accepted may come again, any number of times and at any later time. Its
interaction is recorded and stays recorded (`Seen`), so a replay meets the duplicate guard whatever
the request has been through: it returns the request as it is persisted and touches nothing. Hence a
run with replays is the run without them, at every place (`replays_invisible`). -/

namespace WappPlanner.Orchestrator

open WappPlanner.Domain.Models WappPlanner.Errors WappPlanner.Hitl.Service
open WappPlanner.Lib.Programs WappPlanner.Lib.Runs WappPlanner.Persistence.InMemory
open WappPlanner.Py.Text

variable (cfg : Config)

/-- `c` is a click with the action id and the request of an action that a run accepted. -/
def Replayed (cs : List Call) (c : Call) : Prop :=
  ∃ a now env, c = .action a now env ∧ ∃ pre a' now' env' post,
    cs = pre ++ .action a' now' env' :: post ∧
      Accepted (run (step cfg) World.initial pre) a' ∧
        a.actionId = a'.actionId ∧ a.requestId = a'.requestId

/-- A run with replays inserted: each call marked `true` replays an action that was accepted before it
in the run without them. -/
def WithReplays (ds : List (Call × Bool)) : Prop :=
  ∀ pre c post, ds = pre ++ (c, true) :: post → Replayed cfg (originals pre) c

/-- **Replays are invisible**: the two runs end with the same repository, storage, completions and
messages, every original call has the same outcome in both, and every replay returns the request as
it is persisted. -/
structure Invisible (ds : List (Call × Bool)) : Prop where
  final : run (step cfg) World.initial (ds.map Prod.fst) =
    run (step cfg) World.initial (originals ds)
  original : ∀ pre c post, ds = pre ++ (c, false) :: post →
    outcome cfg (run (step cfg) World.initial (pre.map Prod.fst)) c =
      outcome cfg (run (step cfg) World.initial (originals pre)) c
  replay : ∀ pre c post, ds = pre ++ (c, true) :: post →
    ∃ r, (run (step cfg) World.initial (pre.map Prod.fst)).repo.getRequest c.requestId = some r ∧
      (outcome cfg (run (step cfg) World.initial (pre.map Prod.fst)) c).result = .ok r

/-- The request exists and the interaction is recorded. -/
def Seen (rid id : String) (w : World) : Prop :=
  w.repo.requests rid ≠ none ∧ w.repo.interactions id ≠ none

variable {cfg} {w : World} {rid id : String}

/-! ### What was seen stays seen -/

theorem recorded_step (w : World) (c : Call) (h : w.repo.interactions id ≠ none) :
    (step cfg w c).repo.interactions id ≠ none := by
  cases c with
  | ingest b env => rwa [interactions_ingest]
  | action a now env =>
    rw [interactions_action]
    split_ifs with hnew
    · rw [Function.update_apply]
      split_ifs
      · exact Option.some_ne_none _
      · exact h
    · exact h

theorem Seen.step (hw : Wf w) (h : Seen rid id w) (c : Call) : Seen rid id (step cfg w c) :=
  ⟨present_step cfg hw c h.1, recorded_step w c h.2⟩

theorem Seen.run (hw : Wf w) (h : Seen rid id w) (cs : List Call) :
    Seen rid id (run (Orchestrator.step cfg) w cs) := by
  have hall : Along (Orchestrator.step cfg) (fun _ _ => True) w cs :=
    along_iff.mpr fun _ _ _ _ => trivial
  exact (run_inv (I := fun w => Wf w ∧ Seen rid id w)
    (fun w c h _ => ⟨wf_step h.1 c, h.2.step h.1 c⟩) ⟨hw, h⟩ hall).2

theorem seen_of_accepted (hw : Wf w) {a : OwnerAction} (hacc : Accepted w a) (now : Instant)
    (env : External) : Seen a.requestId a.actionId (step cfg w (.action a now env)) := by
  obtain ⟨r, hr, hfresh, -⟩ := accepted_iff.mp hacc
  have hpresent : w.repo.requests a.requestId ≠ none := by simp [hr]
  refine ⟨present_step cfg hw _ hpresent, ?_⟩
  rw [interactions_action, if_pos ⟨hpresent, hfresh⟩, Function.update_self]
  exact Option.some_ne_none _

theorem Replayed.seen {cs : List Call} {c : Call} (h : Replayed cfg cs c) :
    ∃ a now env, c = .action a now env ∧
      Seen a.requestId a.actionId (run (step cfg) World.initial cs) := by
  obtain ⟨a, now, env, rfl, pre, a', now', env', post, rfl, hacc, hid, hrid⟩ := h
  refine ⟨a, now, env, rfl, ?_⟩
  rw [run_append, run_cons, hid, hrid]
  exact (seen_of_accepted (wf_run pre) hacc now' env').run (wf_step (wf_run pre) _) post

/-! ### A duplicate click -/

/-- **A duplicate click** returns the request and leaves everything as it was. -/
theorem outcome_seen {a : OwnerAction} (now : Instant) (env : External)
    (h : Seen a.requestId a.actionId w) :
    ∃ r, w.repo.getRequest a.requestId = some r ∧
      (outcome cfg w (.action a now env)).result = .ok r ∧
        step cfg w (.action a now env) = w := by
  have ho := action_outcome cfg w a now env
  unfold step
  generalize outcome cfg w (.action a now env) = o at ho ⊢
  cases ho with
  | unknown hr => exact absurd hr h.1
  | duplicate r hr => exact ⟨r, hr, rfl, rfl⟩
  | refused r hr hfresh => exact absurd hfresh h.2
  | accepted r hr hfresh => exact absurd hfresh h.2

theorem step_replayed {cs : List Call} {c : Call} (h : Replayed cfg cs c) :
    step cfg (run (step cfg) World.initial cs) c = run (step cfg) World.initial cs := by
  obtain ⟨a, now, env, rfl, hseen⟩ := h.seen
  obtain ⟨r, -, -, hstep⟩ := outcome_seen now env hseen
  exact hstep

/-! ### Whole runs -/

/-- Up to every place, a run with replays is the run without them. -/
theorem run_withReplays {ds : List (Call × Bool)} (h : WithReplays cfg ds) :
    run (step cfg) World.initial (ds.map Prod.fst) =
      run (step cfg) World.initial (originals ds) :=
  run_originals fun pre c post hds _ => step_replayed (h pre c post hds)

theorem WithReplays.prefix {pre post : List (Call × Bool)} (h : WithReplays cfg (pre ++ post)) :
    WithReplays cfg pre := by
  rintro pre' c post' rfl
  exact h pre' c (post' ++ post) (by simp)

/-- **Replayed clicks are invisible.** -/
theorem replays_invisible {ds : List (Call × Bool)} (h : WithReplays cfg ds) :
    Invisible cfg ds where
  final := run_withReplays h
  original := by
    rintro pre c post rfl
    rw [run_withReplays h.prefix]
  replay := by
    rintro pre c post rfl
    obtain ⟨a, now, env, rfl, hseen⟩ := (h pre c post rfl).seen
    rw [run_withReplays h.prefix]
    obtain ⟨r, hr, hresult, -⟩ := outcome_seen now env hseen
    exact ⟨r, hr, hresult⟩

theorem withReplays_concat {cs : List Call} {c : Call} (h : Replayed cfg cs c) :
    WithReplays cfg (cs.map (·, false) ++ [(c, true)]) := by
  intro pre c' post hds
  rcases List.eq_nil_or_concat post with rfl | ⟨post', d, rfl⟩
  · obtain ⟨rfl, hlast⟩ := List.append_inj' hds rfl
    obtain rfl := (Prod.mk.inj (List.cons.inj hlast).1).1
    rwa [originals_map_false]
  · -- the replay is the last call, so none stands before the last place
    have hmem : (c', true) ∈ cs.map (·, false) := by
      rw [List.concat_eq_append, ← List.cons_append, ← List.append_assoc] at hds
      rw [(List.append_inj' hds rfl).1]
      simp
    simp at hmem

open Sample in
/-- The confirmation of a request clicked again, after the document was approved. -/
theorem replays_invisible_confirmed :
    let approved := oneRevision ++ [.action (click "r1" "a2" .approve 1) (start + 1) llmDown]
    let replay := Call.action (click "r1" "a1" .confirm 0) (start + 2) llmDown
    Invisible (config codec false) (approved.map (·, false) ++ [(replay, true)]) := by
  have hacc : Accepted (run (step (config codec false)) World.initial
      [.ingest (batch "r1" (start - 2)) (external (classifierText .executionPlan))])
        (click "r1" "a1" .confirm 0) := by decide +kernel
  exact replays_invisible (withReplays_concat
    ⟨_, _, _, rfl, _, _, _, _, [.action (click "r1" "a2" .approve 1) (start + 1) llmDown], rfl,
      hacc, rfl, rfl⟩)

end WappPlanner.Orchestrator
