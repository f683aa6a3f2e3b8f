import Mathlib.Algebra.BigOperators.Group.Finset.Piecewise
import WappPlanner.Orchestrator.Gates

/-! # The books

What the repository says about a request accounts for what was done for it. A generation leaves a
revision, or a request that is generating or failed for good, so `generations` counts those that were
started; each of them has a click of its own on record (`Evidenced`), a completed request has an approval
on record (`Approved`), and the completions asked for are at most one for each request and `maxAttempts`
for each generation (`kept_run`). -/

namespace WappPlanner.Orchestrator

open WappPlanner.Documents.Generation WappPlanner.Domain.Enums WappPlanner.Domain.Models
open WappPlanner.Errors WappPlanner.Hitl.Service WappPlanner.Lib.Programs WappPlanner.Lib.Runs
open WappPlanner.Nlp.Classification WappPlanner.Persistence.InMemory WappPlanner.Providers.Base
open WappPlanner.Py.Text WappPlanner.Py.Values WappPlanner.Workflow.Enums
open WappPlanner.Workflow.StateMachine

/-- A generation that left no revision: it is under way, or it was given up. -/
def unfinished : Option Request → ℕ
  | some r => if r.state = .generating ∨ r.state = .failed then 1 else 0
  | none => 0

/-- The generations of a request, as the repository tells. -/
def generations (w : World) (rid : String) : ℕ :=
  (w.repo.revisions rid).length + unfinished (w.repo.requests rid)

section books

variable {cfg : Config} {w w' : World} {env : External}

theorem unfinished_of_state {r : Request} (h : r.state ≠ .generating) (h' : r.state ≠ .failed) :
    unfinished (some r) = 0 := if_neg (not_or.mpr ⟨h, h'⟩)

theorem unfinished_gate {r : Request} {d : OwnerDecision} (h : r.state = gateOf d) :
    unfinished (some r) = 0 := by
  refine unfinished_of_state ?_ ?_ <;> rw [h] <;> cases d <;> decide

theorem generations_congr {rid : String} (hrequest : w'.repo.requests rid = w.repo.requests rid)
    (hrevisions : w'.repo.revisions rid = w.repo.revisions rid) :
    generations w' rid = generations w rid := by
  unfold generations
  rw [hrequest, hrevisions]

/-! ### Completions -/

theorem length_classification (cfg : Config) (env : External) (b : Batch) :
    (classification cfg env b).2.length ≤ 1 := by
  unfold classification Classifier.classify
  split
  · exact Nat.zero_le _
  · dsimp only
    split <;> exact le_rfl

theorem length_attempts (generator : Generator) (llm : LLM) (call : LLMCall) (intent : Intent) :
    ∀ (remaining n : ℕ) (last : String),
      (generator.attempts llm call intent remaining n last).calls.length ≤ remaining
  | 0, _, _ => le_rfl
  | remaining + 1, n, last => by
    unfold Generator.attempts
    split
    · exact Nat.succ_le_succ (Nat.zero_le _)
    · rename_i exc _
      have hrest := length_attempts generator llm call intent remaining (n + 1) exc.text
      dsimp only
      split_ifs
      · split
        · exact Nat.succ_le_succ (Nat.zero_le _)
        · exact Nat.succ_le_succ hrest
      · exact Nat.succ_le_succ hrest

/-- **A generation asks for at most `maxAttempts` completions.** -/
theorem length_generated (cfg : Config) (env : External) (r : Request) (feedback : Option String)
    (previous : Option Json) :
    (generated cfg env r feedback previous).calls.length ≤ cfg.generator.maxAttempts := by
  unfold generated Generator.generate
  split
  · exact Nat.zero_le _
  · exact Nat.zero_le _
  · split
    · exact Nat.zero_le _
    · exact length_attempts ..

/-! ### One invocation -/

/-- **What an invocation does to the books.** It starts no generation, and asks for a completion only
when it ingests; or it is an accepted decision that starts one generation of its request. -/
inductive Booked (cfg : Config) (w : World) : Call → World → Prop
  | kept (c : Call) (w' : World) (hgenerations : ∀ rid, generations w' rid = generations w rid)
      (hcalls : w'.llmCalls.length ≤ w.llmCalls.length + (ingestIds [c]).length) : Booked cfg w c w'
  | started (a : OwnerAction) (now : Instant) (env : External) (w' : World)
      (haccepted : Accepted w a) (hstarts : startsPipeline a.decision = true)
      (hgenerations : ∀ rid,
        generations w' rid = generations w rid + if rid = a.requestId then 1 else 0)
      (hcalls : w'.llmCalls.length ≤ w.llmCalls.length + cfg.generator.maxAttempts) :
      Booked cfg w (.action a now env) w'

theorem requests_saved (w : World) (r : Request) {rid : String} (hid : r.id = rid) :
    (w.saved r).repo.requests rid = some r :=
  (Repository.requests_saveRequest ..).trans (if_pos hid.symm)

theorem generations_of {rid : String} {r : Request} (hr : w.repo.requests rid = some r) :
    generations w rid = (w.repo.revisions rid).length + unfinished (some r) := by
  unfold generations
  rw [hr]

theorem generations_ingested (b : Batch) (env : External)
    (hrevisions : w.repo.revisions b.aggregated.requestId = []) :
    generations (step cfg w (.ingest b env)) b.aggregated.requestId = 0 ∧
      (step cfg w (.ingest b env)).llmCalls = w.llmCalls ++ (classification cfg env b).2 := by
  have ho := ingest_outcome cfg w b env
  unfold step
  generalize outcome cfg w (.ingest b env) = o at ho ⊢
  cases ho with
  | unclassified exc =>
    have hr : (enteredWorld cfg env b w).repo.requests b.aggregated.requestId =
      some (classifying cfg env b) := requests_saved _ (classifying cfg env b) rfl
    have hnone : (enteredWorld cfg env b w).repo.revisions b.aggregated.requestId = [] := hrevisions
    have hstate : (classifying cfg env b).state = .classifying := rfl
    refine ⟨?_, rfl⟩
    rw [generations_of hr, hnone, unfinished_of_state]
    · rfl
    · simp [hstate]
    · simp [hstate]
  | silent result | told result =>
    have hr : ((enteredWorld cfg env b w).saved (settledRequest cfg env b result)).repo.requests
      b.aggregated.requestId = some (settledRequest cfg env b result) := requests_saved _ _ rfl
    have hnone : ((enteredWorld cfg env b w).saved (settledRequest cfg env b result)).repo.revisions
      b.aggregated.requestId = [] := hrevisions
    have hstate : (settledRequest cfg env b result).state = settledState result := rfl
    refine ⟨?_, rfl⟩
    have hzero : generations ((enteredWorld cfg env b w).saved (settledRequest cfg env b result))
        b.aggregated.requestId = 0 := by
      rw [generations_of hr, hnone, unfinished_of_state]
      · rfl
      · rw [hstate, settledState]
        split <;> simp
      · rw [hstate, settledState]
        split <;> simp
    exact hzero

theorem booked_ingest (hw : Wf w) (b : Batch) (env : External)
    (hfresh : w.repo.requests b.aggregated.requestId = none) :
    Booked cfg w (.ingest b env) (step cfg w (.ingest b env)) := by
  have hlocal : Local w b.aggregated.requestId (step cfg w (.ingest b env)) :=
    step_local hw (.ingest b env)
  have hrevisions := hw.orphan hfresh
  have hlength := length_classification cfg env b
  obtain ⟨hzero, hcalls⟩ : generations (step cfg w (.ingest b env)) b.aggregated.requestId = 0 ∧
    (step cfg w (.ingest b env)).llmCalls = w.llmCalls ++ (classification cfg env b).2 :=
      generations_ingested b env hrevisions
  refine .kept _ _ (fun rid => ?_) ?_
  · by_cases hrid : rid = b.aggregated.requestId
    · rw [hrid, hzero, generations, hfresh, hrevisions]
      rfl
    · exact generations_congr (hlocal.requests hrid) (hlocal.revisions hrid)
  · rw [hcalls, List.length_append]
    exact Nat.add_le_add_left hlength _

theorem follow_books {a : OwnerAction} {r : Request} {now : Instant}
    {o : Outcome Op World Exn Request} (hid : r.id = a.requestId)
    (hr : w.repo.requests a.requestId = some r) (hs : r.state = target a.decision)
    (ho : FollowOutcome cfg env a r now w o) :
    (startsPipeline a.decision = false ∧ o.state.llmCalls = w.llmCalls ∧
      generations o.state a.requestId = (w.repo.revisions a.requestId).length) ∨
    (startsPipeline a.decision = true ∧
      o.state.llmCalls.length ≤ w.llmCalls.length + cfg.generator.maxAttempts ∧
      generations o.state a.requestId = (w.repo.revisions a.requestId).length + 1) := by
  have hquiet : ∀ r' : Request, r'.state = target a.decision → startsPipeline a.decision = false →
      unfinished (some r') = 0 := by
    intro r' hs' hd
    refine unfinished_of_state ?_ ?_ <;> rw [hs'] <;> revert hd <;> cases a.decision <;> decide
  cases ho with
  | settled hd =>
    have hstarts : startsPipeline a.decision = false := by rcases hd with hd | hd <;> rw [hd] <;> rfl
    refine .inl ⟨hstarts, rfl, ?_⟩
    rw [generations_of hr, hquiet r hs hstarts, Nat.add_zero]
  | unnamed hd =>
    have hstarts : startsPipeline a.decision = false := by rw [hd]; rfl
    refine .inl ⟨hstarts, rfl, ?_⟩
    have hr' := requests_saved w (withIntent r none) hid
    rw [generations_of hr', hquiet (withIntent r none) hs hstarts, Nat.add_zero]
    rfl
  | corrected hd intent =>
    have hstarts : startsPipeline a.decision = false := by rw [hd]; rfl
    refine .inl ⟨hstarts, rfl, ?_⟩
    have hr' := requests_saved w (withIntent r intent) hid
    have hsaved : generations (w.saved (withIntent r intent)) a.requestId =
        (w.repo.revisions a.requestId).length := by
      rw [generations_of hr', hquiet (withIntent r intent) hs hstarts, Nat.add_zero]
      rfl
    exact hsaved
  | pipeline hd lookups hlookups o ho =>
    have hlength : o.state.llmCalls.length ≤ w.llmCalls.length + cfg.generator.maxAttempts := by
      rw [ho.llmCalls, List.length_append]
      exact Nat.add_le_add_left (length_generated ..) _
    refine .inr ⟨hd, hlength, ?_⟩
    have hgenerating : r.state = .generating := by
      rw [hs]
      revert hd
      cases a.decision <;> decide
    cases ho with
    | failed text =>
      have hr' : ((w.asked (generated cfg env r (feedbackOf a) (priorContent a r w)).calls).saved
          (r.moved .failed now)).repo.requests a.requestId = some (r.moved .failed now) :=
        requests_saved _ (r.moved .failed now) hid
      exact generations_of hr'
    | stopped exc w' trace hgen hexc hrepo =>
      change generations w' a.requestId = _
      rw [generations, hrepo, hr, unfinished, if_pos (.inl hgenerating)]
    | made p =>
      have hr' : (madeWorld cfg env r now (feedbackOf a) (priorContent a r w) p w).repo.requests
        a.requestId = some (delivered r now) := requests_saved _ (delivered r now) hid
      have hrevisions : ((madeWorld cfg env r now (feedbackOf a) (priorContent a r w) p
          w).repo.revisions a.requestId).length = (w.repo.revisions a.requestId).length + 1 := by
        simp [madeWorld, nextRevision, hid]
      have hmade : generations (madeWorld cfg env r now (feedbackOf a) (priorContent a r w) p w)
          a.requestId = (w.repo.revisions a.requestId).length + 1 := by
        rw [generations_of hr', hrevisions, unfinished_of_state (by simp [delivered])
          (by simp [delivered])]
      exact hmade

theorem booked_action (hw : Wf w) (a : OwnerAction) (now : Instant) (env : External) :
    Booked cfg w (.action a now env) (step cfg w (.action a now env)) := by
  have hlocal : Local w a.requestId (step cfg w (.action a now env)) :=
    step_local hw (.action a now env)
  have ho := action_outcome cfg w a now env
  unfold step at hlocal ⊢
  generalize outcome cfg w (.action a now env) = o at ho hlocal ⊢
  cases ho with
  | unknown | duplicate => exact .kept _ _ (fun _ => rfl) le_rfl
  | refused => exact .kept _ _ (fun _ => generations_congr rfl rfl) le_rfl
  | accepted r hr hfresh hgate o ho =>
    have hid : r.id = a.requestId := hw.id_eq hr
    have hbefore : generations w a.requestId = (w.repo.revisions a.requestId).length := by
      rw [generations_of hr, unfinished_gate hgate, Nat.add_zero]
    have hbooks := follow_books (r := r.moved (target a.decision) now) hid
      (acceptedWorld_requests hid) (Request.state_moved ..) ho
    have hsame : ((acceptedWorld a r now w).repo.revisions a.requestId).length =
      generations w a.requestId := hbefore.symm
    rw [hsame] at hbooks
    have helsewhere : ∀ rid, rid ≠ a.requestId → generations o.state rid = generations w rid :=
      fun rid hne => generations_congr (hlocal.requests hne) (hlocal.revisions hne)
    rcases hbooks with ⟨-, hcalls, hgenerations⟩ | ⟨hstarts, hcalls, hgenerations⟩
    · refine .kept _ _ (fun rid => ?_) ?_
      · by_cases hrid : rid = a.requestId
        · rw [hrid]
          exact hgenerations
        · exact helsewhere rid hrid
      · change o.state.llmCalls.length ≤ _
        rw [hcalls]
        exact le_rfl
    · refine .started a now env _ (accepted_iff.mpr ⟨r, hr, hfresh, hgate⟩) hstarts (fun rid => ?_)
        hcalls
      split_ifs with hrid
      · rw [hrid]
        exact hgenerations
      · exact helsewhere rid hrid

/-- **Every invocation keeps the books.** -/
theorem booked (hw : Wf w) {c : Call} (hfresh : Fresh w c) : Booked cfg w c (step cfg w c) := by
  cases c with
  | ingest b env => exact booked_ingest hw b env hfresh
  | action a now env => exact booked_action hw a now env

/-! ### The record -/

theorem interactions_mono (cfg : Config) (w : World) (c : Call) {id : String}
    {i : OwnerInteraction} (h : w.repo.interactions id = some i) :
    (step cfg w c).repo.interactions id = some i := by
  cases c with
  | ingest b env =>
    rw [interactions_ingest]
    exact h
  | action a now env =>
    rw [interactions_action]
    split_ifs with hnew
    · have hne : id ≠ a.actionId := by
        rintro rfl
        rw [hnew.2] at h
        cases h
      rw [Function.update_of_ne hne]
      exact h
    · exact h

theorem recorded_of_accepted {a : OwnerAction} {now : Instant} (h : Accepted w a) :
    (step cfg w (.action a now env)).repo.interactions a.actionId = some (interactionOf a) := by
  obtain ⟨r, hr, hfresh, -⟩ := accepted_iff.mp h
  rw [interactions_action, if_pos ⟨by simp [hr], hfresh⟩]
  exact Function.update_self ..

/-- Each of the listed ids has on record a decision on the request that starts a generation. -/
def OnRecord (w : World) (rid : String) (ids : List String) : Prop :=
  ids.Nodup ∧ ∀ id ∈ ids, ∃ i, w.repo.interactions id = some i ∧ i.requestId = rid ∧
    startsPipeline i.decision = true

/-- **Every generation has a click of its own on record.** -/
def Evidenced (w : World) : Prop :=
  ∀ rid, ∃ ids, ids.length = generations w rid ∧ OnRecord w rid ids

theorem Evidenced.clicks (h : Evidenced w) (S : Finset String) : ∃ ids : List String,
    ids.Nodup ∧ ids.length = ∑ rid ∈ S, generations w rid ∧
      ∀ id ∈ ids, ∃ i, w.repo.interactions id = some i ∧ i.requestId ∈ S ∧
        startsPipeline i.decision = true := by
  induction S using Finset.induction_on with
  | empty => exact ⟨[], List.nodup_nil, rfl, by simp⟩
  | insert rid S hrid ih =>
    obtain ⟨ids, hnodup, hlength, hids⟩ := ih
    obtain ⟨own, hown, hnodupOwn, hrecord⟩ := h rid
    refine ⟨own ++ ids, List.nodup_append'.mpr ⟨hnodupOwn, hnodup, ?_⟩, ?_, fun id hid => ?_⟩
    · -- A click is on one request, so those of `rid` are none of the others.
      intro id hid hid'
      obtain ⟨i, hi, hreq, -⟩ := hrecord id hid
      obtain ⟨i', hi', hmem, -⟩ := hids id hid'
      obtain rfl := Option.some.inj (hi.symm.trans hi')
      exact hrid (hreq ▸ hmem)
    · rw [List.length_append, Finset.sum_insert hrid, hown, hlength]
    · rcases List.mem_append.mp hid with hid | hid
      · obtain ⟨i, hi, hreq, hstarts⟩ := hrecord id hid
        exact ⟨i, hi, hreq ▸ Finset.mem_insert_self rid S, hstarts⟩
      · obtain ⟨i, hi, hmem, hstarts⟩ := hids id hid
        exact ⟨i, hi, Finset.mem_insert_of_mem hmem, hstarts⟩

theorem OnRecord.mono {rid : String} {ids : List String} (h : OnRecord w rid ids) (cfg : Config)
    (c : Call) : OnRecord (step cfg w c) rid ids := by
  refine ⟨h.1, fun id hid => ?_⟩
  obtain ⟨i, hi, hrest⟩ := h.2 id hid
  exact ⟨i, interactions_mono cfg w c hi, hrest⟩

theorem Evidenced.step (hw : Wf w) {c : Call} (hfresh : Fresh w c) (h : Evidenced w) :
    Evidenced (Orchestrator.step cfg w c) := by
  intro rid
  obtain ⟨ids, hlength, hids⟩ := h rid
  have hkept := hids.mono cfg c
  have hbooked : Booked cfg w c (Orchestrator.step cfg w c) := booked hw hfresh
  generalize hw' : Orchestrator.step cfg w c = w' at hbooked hkept ⊢
  cases hbooked with
  | kept c w' hgenerations => exact ⟨ids, by rw [hgenerations, hlength], hkept⟩
  | started a now env w' haccepted hstarts hgenerations =>
    by_cases hrid : rid = a.requestId
    · have hnew : a.actionId ∉ ids := by
        intro hmem
        obtain ⟨i, hi, -⟩ := hids.2 _ hmem
        obtain ⟨-, -, hfresh', -⟩ := accepted_iff.mp haccepted
        rw [hfresh'] at hi
        cases hi
      refine ⟨a.actionId :: ids, ?_, List.nodup_cons.mpr ⟨hnew, hkept.1⟩, fun id hid => ?_⟩
      · rw [hgenerations, if_pos hrid, List.length_cons, hlength]
      · rcases List.mem_cons.mp hid with rfl | hid
        · exact ⟨interactionOf a, hw' ▸ recorded_of_accepted haccepted, hrid.symm, hstarts⟩
        · exact hkept.2 id hid
    · exact ⟨ids, by rw [hgenerations, if_neg hrid, hlength, Nat.add_zero], hkept⟩

/-- **A completed request has an approval on record.** -/
def Approved (w : World) : Prop :=
  ∀ rid, stateOf w rid = some .completed →
    ∃ id i, w.repo.interactions id = some i ∧ i.requestId = rid ∧ i.decision = .approve

theorem completed_step (hw : Wf w) {c : Call} {rid : String}
    (h : stateOf (Orchestrator.step cfg w c) rid = some .completed) :
    stateOf w rid = some .completed ∨ ∃ a now env, c = .action a now env ∧ a.requestId = rid ∧
      Accepted w a ∧ a.decision = .approve := by
  by_cases hrid : rid = c.requestId
  · subst hrid
    obtain ⟨states, -, hstride⟩ := stride cfg hw c
    generalize Orchestrator.step cfg w c = w' at hstride h
    cases hstride with
    | unclassified b env hafter =>
      have hsame : some RequestState.classifying = some .completed := hafter.symm.trans h
      cases hsame
    | classified b env result hafter =>
      have hsame : some (settledState result) = some .completed := hafter.symm.trans h
      unfold settledState at hsame
      split at hsame <;> cases hsame
    | ignored a now env hacc hafter => exact .inl (hafter ▸ h)
    | decided a now env hacc hd hafter =>
      have hsame : some (target a.decision) = some .completed := hafter.symm.trans h
      refine .inr ⟨a, now, env, rfl, rfl, hacc, hd.resolve_right fun hreject => ?_⟩
      rw [hreject] at hsame
      cases hsame
    | corrected a now env hacc hd hafter =>
      have hsame : some RequestState.awaitingClassification = some .completed := hafter.symm.trans h
      cases hsame
    | failed a now env hacc hd hafter =>
      have hsame : some RequestState.failed = some .completed := hafter.symm.trans h
      cases hsame
    | stopped a now env hacc hd hafter =>
      have hsame : some RequestState.generating = some .completed := hafter.symm.trans h
      cases hsame
    | delivered a now env hacc hd hafter =>
      have hsame : some RequestState.awaitingApproval = some .completed := hafter.symm.trans h
      cases hsame
  · have hsame : stateOf (Orchestrator.step cfg w c) rid = stateOf w rid := by
      unfold stateOf
      rw [(step_local hw c).requests hrid]
    exact .inl (hsame ▸ h)

theorem Approved.step (hw : Wf w) (h : Approved w) (c : Call) :
    Approved (Orchestrator.step cfg w c) := by
  intro rid hrid
  rcases completed_step hw hrid with hbefore | ⟨a, now, env, rfl, hreq, hacc, hd⟩
  · obtain ⟨id, i, hi, hrest⟩ := h rid hbefore
    exact ⟨id, i, interactions_mono cfg w c hi, hrest⟩
  · exact ⟨a.actionId, interactionOf a, recorded_of_accepted hacc, hreq, hd⟩

theorem recorded_after {c : Call} {id : String} {i : OwnerInteraction}
    (h : (Orchestrator.step cfg w c).repo.interactions id = some i) :
    w.repo.interactions id = some i ∨
      ∃ a now env, c = .action a now env ∧ a.actionId = id ∧ interactionOf a = i := by
  cases c with
  | ingest b env =>
    rw [interactions_ingest] at h
    exact .inl h
  | action a now env =>
    rw [interactions_action] at h
    split_ifs at h with hnew
    · by_cases hid : id = a.actionId
      · rw [hid, Function.update_self] at h
        exact .inr ⟨a, now, env, rfl, hid.symm, Option.some.inj h⟩
      · rw [Function.update_of_ne hid] at h
        exact .inl h
    · exact .inl h

/-! ### Runs -/

/-- **The record of a run** holds what its actions said. -/
theorem recorded_run {cs : List Call} {id : String} {i : OwnerInteraction}
    (h : (run (Orchestrator.step cfg) World.initial cs).repo.interactions id = some i) :
    ∃ a now env, .action a now env ∈ cs ∧ a.actionId = id ∧ interactionOf a = i := by
  induction cs using List.reverseRecOn with
  | nil =>
    have hnone : (none : Option OwnerInteraction) = some i := h
    cases hnone
  | append_singleton cs c ih =>
    rw [run_append] at h
    rcases recorded_after h with hbefore | ⟨a, now, env, rfl, ha⟩
    · obtain ⟨a, now, env, hmem, ha⟩ := ih hbefore
      exact ⟨a, now, env, List.mem_append_left _ hmem, ha⟩
    · exact ⟨a, now, env, List.mem_append_right _ List.mem_cons_self, ha⟩

/-- What a run keeps, `S` being the ids of its requests. -/
structure Kept (cfg : Config) (S : Finset String) (ingests : ℕ) (w : World) : Prop where
  wf : Wf w
  evidenced : Evidenced w
  approved : Approved w
  spent : w.llmCalls.length ≤ ingests + cfg.generator.maxAttempts * ∑ rid ∈ S, generations w rid

theorem sum_started {S : Finset String} {rid₀ : String} (hmem : rid₀ ∈ S)
    (h : ∀ rid, generations w' rid = generations w rid + if rid = rid₀ then 1 else 0) :
    ∑ rid ∈ S, generations w' rid = ∑ rid ∈ S, generations w rid + 1 := by
  calc ∑ rid ∈ S, generations w' rid
      = ∑ rid ∈ S, (generations w rid + if rid = rid₀ then 1 else 0) :=
        Finset.sum_congr rfl fun rid _ => h rid
    _ = ∑ rid ∈ S, generations w rid + ∑ rid ∈ S, (if rid = rid₀ then 1 else 0) :=
        Finset.sum_add_distrib
    _ = ∑ rid ∈ S, generations w rid + 1 := by
        rw [Finset.sum_ite_eq' S rid₀ fun _ => 1, if_pos hmem]

theorem Kept.congr {S : Finset String} {n : ℕ} (h : Kept cfg S n w) (hrepo : w'.repo = w.repo)
    (hcalls : w'.llmCalls = w.llmCalls) : Kept cfg S n w' := by
  have hgenerations : ∀ rid, generations w' rid = generations w rid :=
    fun rid => generations_congr (by rw [hrepo]) (by rw [hrepo])
  refine ⟨⟨fun hr => h.wf.id_eq (hrepo ▸ hr), fun hr => ?_⟩, fun rid => ?_, fun rid hrid => ?_, ?_⟩
  · rw [hrepo] at hr ⊢
    exact h.wf.orphan hr
  · obtain ⟨ids, hlength, hnodup, hids⟩ := h.evidenced rid
    exact ⟨ids, by rw [hgenerations, hlength], hnodup, by rwa [hrepo]⟩
  · unfold stateOf at hrid
    rw [hrepo] at hrid ⊢
    exact h.approved rid hrid
  · rw [hcalls, Finset.sum_congr rfl fun rid _ => hgenerations rid]
    exact h.spent

theorem Kept.step {S : Finset String} {n : ℕ} (h : Kept cfg S n w) {c : Call} (hfresh : Fresh w c)
    (hmem : w.repo.requests c.requestId ≠ none → c.requestId ∈ S) :
    Kept cfg S (n + (ingestIds [c]).length) (Orchestrator.step cfg w c) := by
  refine ⟨wf_step h.wf c, h.evidenced.step h.wf hfresh, h.approved.step h.wf c, ?_⟩
  have hspent := h.spent
  have hbooked : Booked cfg w c (Orchestrator.step cfg w c) := booked h.wf hfresh
  generalize Orchestrator.step cfg w c = w' at hbooked ⊢
  cases hbooked with
  | kept c w' hgenerations hcalls =>
    have hsum : ∑ rid ∈ S, generations w' rid = ∑ rid ∈ S, generations w rid :=
      Finset.sum_congr rfl fun rid _ => hgenerations rid
    rw [hsum]
    omega
  | started a now env w' haccepted hstarts hgenerations hcalls =>
    obtain ⟨r, hr, -⟩ := accepted_iff.mp haccepted
    have hpresent : w.repo.requests a.requestId ≠ none := by simp [hr]
    rw [sum_started (hmem hpresent) hgenerations, Nat.mul_add, Nat.mul_one]
    simp only [ingestIds, List.length_nil]
    omega

theorem mem_ingestIds {cs : List Call} {rid : String}
    (h : (run (Orchestrator.step cfg) World.initial cs).repo.requests rid ≠ none) :
    rid ∈ ingestIds cs := by
  induction cs using List.reverseRecOn with
  | nil => exact absurd rfl h
  | append_singleton cs c ih =>
    rw [ingestIds_append, List.mem_append]
    rw [run_append] at h
    have hw : Wf (run (Orchestrator.step cfg) World.initial cs) := wf_run cs
    by_cases hrid : rid = c.requestId
    · cases c with
      | ingest b env => exact .inr (hrid ▸ List.mem_cons_self)
      | action a now env => exact .inl (ih (hrid ▸ present_of_step_action (hrid ▸ h)))
    · refine .inl (ih fun hnone => h ?_)
      exact ((step_local hw c).requests hrid).trans hnone

/-- **The books of a run.** -/
theorem kept_run {S : Finset String} {cs : List Call} (hnodup : (ingestIds cs).Nodup)
    (hS : ∀ rid ∈ ingestIds cs, rid ∈ S) :
    Kept cfg S (ingestIds cs).length (run (Orchestrator.step cfg) World.initial cs) := by
  have hfresh : Along (Orchestrator.step cfg) Fresh World.initial cs := fresh_of_nodup hnodup
  clear hnodup
  induction cs using List.reverseRecOn with
  | nil =>
    have happroved : Approved World.initial := by
      intro rid h
      cases h
    exact ⟨wf_initial, fun _ => ⟨[], rfl, List.nodup_nil, by simp⟩, happroved, Nat.zero_le _⟩
  | append_singleton cs c ih =>
    obtain ⟨hbefore, hlast, -⟩ := along_append.mp hfresh
    have hids : ∀ rid ∈ ingestIds cs, rid ∈ S := fun rid hrid =>
      hS rid (by rw [ingestIds_append]; exact List.mem_append_left _ hrid)
    have hkept := (ih hids hbefore).step hlast fun hpresent => hids _ (mem_ingestIds hpresent)
    rw [ingestIds_append, List.length_append, run_append]
    exact hkept

end books

end WappPlanner.Orchestrator
