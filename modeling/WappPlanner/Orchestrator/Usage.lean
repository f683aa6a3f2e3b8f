import Mathlib.Algebra.Order.BigOperators.Group.List
import Mathlib.Algebra.Order.Monoid.WithTop
import Mathlib.Algebra.Order.Ring.NNRat
import WappPlanner.Documents.Retries
import WappPlanner.Orchestrator.Artifacts

/-! # Recorded usage

A revision records the usage of one completion, the accepted one. A generation may have consumed
others before it, returned by the model and rejected, and their usage is recorded nowhere: the record
accounts for all completions if and only if those were free (`usage_iff`). -/

namespace WappPlanner.Orchestrator

open WappPlanner.Documents.Content WappPlanner.Documents.Generation
open WappPlanner.Documents.Generation.Generator WappPlanner.Domain.Models WappPlanner.Errors
open WappPlanner.Hitl.Service WappPlanner.Lib.Programs WappPlanner.Providers.Base
open WappPlanner.Py.Text (Instant)
open WappPlanner.Py.Values WappPlanner.Workflow.Enums

/-- A cost, for sums. -/
def cost : Amount → WithTop ℚ≥0
  | .finite q => q
  | .negZero => 0
  | .inf => ⊤

/-- The completions a model returned to the calls of an invocation. -/
def returned (llm : LLM) (calls : List LLMCall) : List LLMResult :=
  calls.zipIdx.filterMap fun (call, n) => (llm n call).toOption

/-- **The record accounts for the completions**: it has the sums of their usage. -/
structure Accounts (recorded : LlmMeta) (results : List LLMResult) : Prop where
  input : recorded.inputTokens = (results.map (·.inputTokens)).sum
  output : recorded.outputTokens = (results.map (·.outputTokens)).sum
  cost : cost recorded.costUsd = (results.map fun result => cost result.costUsd).sum

/-- Every completion that a generation gets back before the accepted one is free. Where the accepted
one is infinitely expensive, the cost of the others makes no difference. -/
def RetriesFree (generator : Generator) (llm : LLM) (args : GenerateArgs) : Prop :=
  ∀ intent call k accepted content, args.intent = some intent →
    generator.prompts intent args = .ok call →
      generator.First llm call intent k accepted content →
        ∀ j < k, ∀ result, llm j call = .ok result → result.inputTokens = 0 ∧
          result.outputTokens = 0 ∧ (cost result.costUsd = 0 ∨ cost accepted.costUsd = ⊤)

/-! ### Sums -/

/-- The last of some amounts is their sum if and only if the others are `0`. -/
theorem sum_eq_last {xs : List ℕ} {x : ℕ} : x = (xs ++ [x]).sum ↔ ∀ y ∈ xs, y = 0 := by
  rw [List.sum_append, List.sum_singleton, ← List.sum_eq_zero_iff]
  omega

theorem costs_eq_last {xs : List (WithTop ℚ≥0)} {x : WithTop ℚ≥0} :
    x = (xs ++ [x]).sum ↔ ∀ y ∈ xs, y = 0 ∨ x = ⊤ := by
  rw [List.sum_append, List.sum_singleton]
  by_cases hx : x = ⊤
  · simp [hx]
  · have hcancel : x = xs.sum + x ↔ xs.sum = 0 := by
      constructor
      · intro h
        have hadd : 0 + x = xs.sum + x := by rw [zero_add, ← h]
        exact (WithTop.add_right_cancel hx hadd).symm
      · intro h
        rw [h, zero_add]
    rw [hcancel, List.sum_eq_zero_iff]
    simp [hx]

/-! ### Generations -/

variable {generator : Generator} {llm : LLM} {call : LLMCall} {intent : Intent} {args : GenerateArgs}

theorem returned_replicate_succ (k : ℕ) : returned llm (List.replicate (k + 1) call) =
    returned llm (List.replicate k call) ++ (llm k call).toOption.toList := by
  unfold returned
  rw [List.replicate_succ', List.zipIdx_append, List.filterMap_append, List.length_replicate]
  cases h : (llm k call).toOption <;> simp [h]

theorem mem_returned_replicate {k : ℕ} {result : LLMResult} :
    result ∈ returned llm (List.replicate k call) ↔ ∃ j < k, llm j call = .ok result := by
  induction k with
  | zero => simp [returned]
  | succ k ih =>
    have hlast : result ∈ (llm k call).toOption.toList ↔ llm k call = .ok result := by
      cases llm k call <;> simp [Except.toOption, eq_comm]
    rw [returned_replicate_succ, List.mem_append, ih, hlast]
    constructor
    · rintro (⟨j, hj, hresult⟩ | hresult)
      · exact ⟨j, Nat.lt_succ_of_lt hj, hresult⟩
      · exact ⟨k, Nat.lt_succ_self k, hresult⟩
    · rintro ⟨j, hj, hresult⟩
      rcases Nat.lt_succ_iff_lt_or_eq.mp hj with hlt | rfl
      · exact .inl ⟨j, hlt, hresult⟩
      · exact .inr hresult

/-- **The usage of the accepted completion is the usage of all** if and only if the others were
free. -/
theorem accounts_iff {doc : GeneratedDocument}
    (h : (generator.generate llm args).result = .ok doc) :
    Accounts (llmMeta doc) (returned llm (generator.generate llm args).calls) ↔
      RetriesFree generator llm args := by
  obtain ⟨intent, call, k, accepted, content, hintent, hprompts, -, hfirst, rfl, hcalls⟩ :=
    first_of_generate h
  have hresults : returned llm (generator.generate llm args).calls =
      returned llm (List.replicate k call) ++ [accepted] := by
    rw [hcalls, returned_replicate_succ, hfirst.accepts.returned]
    rfl
  have hmem : ∀ result, result ∈ returned llm (List.replicate k call) ↔
      ∃ j < k, llm j call = .ok result := fun result => mem_returned_replicate
  rw [hresults]
  generalize returned llm (List.replicate k call) = rejected at hmem
  constructor
  · rintro ⟨hinput, houtput, hcost⟩ intent' call' k' accepted' content' hintent' hprompts' hfirst' j
      hj result hresult
    obtain rfl := Option.some.inj (hintent.symm.trans hintent')
    obtain rfl := Except.ok.inj (hprompts.symm.trans hprompts')
    obtain ⟨rfl, rfl, -⟩ := hfirst.unique hfirst'
    have hin := (hmem result).mpr ⟨j, hj, hresult⟩
    rw [List.map_append, List.map_singleton] at hinput houtput hcost
    refine ⟨sum_eq_last.mp hinput _ (List.mem_map_of_mem hin),
      sum_eq_last.mp houtput _ (List.mem_map_of_mem hin), ?_⟩
    exact costs_eq_last.mp hcost _ (List.mem_map_of_mem (f := fun result => cost result.costUsd) hin)
  · intro hfree
    have hzero : ∀ result ∈ rejected, result.inputTokens = 0 ∧ result.outputTokens = 0 ∧
        (cost result.costUsd = 0 ∨ cost accepted.costUsd = ⊤) := by
      intro result hin
      obtain ⟨j, hj, hresult⟩ := (hmem result).mp hin
      exact hfree intent call k accepted content hintent hprompts hfirst j hj result hresult
    refine ⟨?_, ?_, ?_⟩
    · rw [List.map_append, List.map_singleton]
      refine sum_eq_last.mpr fun y hy => ?_
      obtain ⟨result, hin, rfl⟩ := List.mem_map.mp hy
      exact (hzero result hin).1
    · rw [List.map_append, List.map_singleton]
      refine sum_eq_last.mpr fun y hy => ?_
      obtain ⟨result, hin, rfl⟩ := List.mem_map.mp hy
      exact (hzero result hin).2.1
    · rw [List.map_append, List.map_singleton]
      refine costs_eq_last.mpr fun y hy => ?_
      obtain ⟨result, hin, rfl⟩ := List.mem_map.mp hy
      exact (hzero result hin).2.2

/-! ### Owner actions -/

variable {cfg : Config} {w : World} {a : OwnerAction} {now : Instant} {env : External} {r : Request}
  {revision : DocumentRevision}

theorem generated_of_pipeline {feedback : Option String} {previous : Option Json}
    {o : Outcome Op World Exn Request} (ho : PipelineOutcome cfg env r now feedback previous w o)
    (hrev : o.state.repo.revisions r.id = w.repo.revisions r.id ++ [revision]) :
    ∃ doc, (generated cfg env r feedback previous).result = .ok doc ∧
      revision.llmMeta = llmMeta doc ∧
        o.state.llmCalls = w.llmCalls ++ (generated cfg env r feedback previous).calls := by
  cases ho with
  | failed text hgen =>
    have hsame : w.repo.revisions r.id = w.repo.revisions r.id ++ [revision] := hrev
    simp at hsame
  | stopped exc w' trace hgen hexc hrepo =>
    dsimp only at hrev
    rw [hrepo] at hrev
    simp at hrev
  | made p hp =>
    have hlog : (madeWorld cfg env r now feedback previous p w).repo.revisions r.id =
        w.repo.revisions r.id ++ [nextRevision r p.doc feedback
          (p.refs cfg r.id (r.currentRevision + 1)) now] := Function.update_self r.id _ _
    obtain rfl := List.singleton_injective (List.append_cancel_left (hlog.symm.trans hrev))
    obtain ⟨hgen, -⟩ := rendered_of_produce hp
    exact ⟨p.doc, hgen, rfl, rfl⟩

/-- **Where a new revision comes from**: one generation, for the request as it was, and the action
asks for no other completion. -/
theorem generated_of_added (hr : w.repo.requests a.requestId = some r)
    (hrev : (step cfg w (.action a now env)).repo.revisions r.id =
      w.repo.revisions r.id ++ [revision]) :
    let args := generateArgs r (feedbackOf a) (priorContent a r w)
    ∃ doc, (cfg.generator.generate env.llm args).result = .ok doc ∧
      revision.llmMeta = llmMeta doc ∧ (step cfg w (.action a now env)).llmCalls =
        w.llmCalls ++ (cfg.generator.generate env.llm args).calls := by
  have ho := action_outcome cfg w a now env
  unfold step at hrev ⊢
  generalize outcome cfg w (.action a now env) = o at ho hrev ⊢
  cases ho with
  | unknown hr' =>
    rw [hr'] at hr
    cases hr
  | duplicate => simp at hrev
  | refused =>
    rw [World.revisions_noted] at hrev
    simp at hrev
  | accepted r' hr' hfresh hgate o ho =>
    obtain rfl := Option.some.inj (hr.symm.trans hr')
    have hkept : (acceptedWorld a r now w).repo.revisions r.id = w.repo.revisions r.id := rfl
    rw [← hkept] at hrev
    cases ho with
    | settled => simp at hrev
    | unnamed =>
      have hsame : w.repo.revisions r.id = w.repo.revisions r.id ++ [revision] := hrev
      simp at hsame
    | corrected =>
      have hsame : w.repo.revisions r.id = w.repo.revisions r.id ++ [revision] := hrev
      simp at hsame
    | pipeline hd lookups hlookups o ho =>
      have hgenerated := generated_of_pipeline ho hrev
      exact hgenerated

/-- **Recorded usage is the usage of one completion.** When an action adds a revision, its record
accounts for all completions the model returned during the action if and only if those before the
accepted one were free. -/
theorem usage_iff {calls : List LLMCall} (hr : w.repo.requests a.requestId = some r)
    (hrev : (step cfg w (.action a now env)).repo.revisions r.id =
      w.repo.revisions r.id ++ [revision])
    (hcalls : (step cfg w (.action a now env)).llmCalls = w.llmCalls ++ calls) :
    Accounts revision.llmMeta (returned env.llm calls) ↔
      RetriesFree cfg.generator env.llm (generateArgs r (feedbackOf a) (priorContent a r w)) := by
  obtain ⟨doc, hdoc, hmeta, hcalls'⟩ := generated_of_added hr hrev
  obtain rfl := List.append_cancel_left (hcalls.symm.trans hcalls')
  rw [hmeta]
  exact accounts_iff hdoc

namespace Sample

/-- The sample configuration with three attempts. -/
def patient : Config :=
  { config codec false with generator := ⟨"large", "v1", 3, .finite 0, contentCodec⟩ }

/-- A language model that answers in prose before it answers with a plan. -/
def proseFirst : External :=
  { external planText with
    llm := fun n call =>
      if n = 0 then .ok ⟨"Here is the plan.", call.model, 400, 20, .finite 1⟩
      else .ok ⟨planText, call.model, 400, 90, .finite 1⟩ }

/-- A request that waits for its classification to be confirmed. -/
def waiting : World :=
  step patient World.initial
    (.ingest (batch "r1" (start - 2)) (external (classifierText .executionPlan)))

def confirmation : Call := .action (click "r1" "a1" .confirm 0) start proseFirst

theorem retried : ∃ r revision, waiting.repo.requests "r1" = some r ∧
    r.intent = some .executionPlan ∧ (step patient waiting confirmation).repo.revisions r.id =
      waiting.repo.revisions r.id ++ [revision] := by
  have hr : (waiting.repo.requests "r1").map (fun r => (r.id, r.intent)) =
      some ("r1", some .executionPlan) := by decide +kernel
  obtain ⟨r, hr, heq⟩ := Option.map_eq_some_iff.mp hr
  obtain ⟨hid, hintent⟩ := Prod.mk.inj heq
  have hnone : (waiting.repo.revisions "r1").length = 0 := by decide +kernel
  have hone : ((step patient waiting confirmation).repo.revisions "r1").length = 1 := by
    decide +kernel
  obtain ⟨revision, hrevs⟩ := List.length_eq_one_iff.mp hone
  refine ⟨r, revision, hr, hintent, ?_⟩
  rw [hid, hrevs, List.length_eq_zero_iff.mp hnone, List.nil_append]

end Sample

open Sample in
theorem usage_iff_retried : ∃ (r : Request) (revision : DocumentRevision) (calls : List LLMCall),
    waiting.repo.requests "r1" = some r ∧
    (step patient waiting confirmation).llmCalls = waiting.llmCalls ++ calls ∧
    (Accounts revision.llmMeta (returned proseFirst.llm calls) ↔
      RetriesFree patient.generator proseFirst.llm
        (generateArgs r (feedbackOf (click "r1" "a1" .confirm 0))
          (priorContent (click "r1" "a1" .confirm 0) r waiting))) := by
  obtain ⟨r, revision, hr, -, hrev⟩ := retried
  obtain ⟨doc, -, -, hcalls⟩ := generated_of_added hr hrev
  exact ⟨r, revision, _, hr, hcalls, usage_iff hr hrev hcalls⟩

open Sample in
/-- An answer that does not parse is billed and not recorded. -/
theorem rejected_unrecorded : ∃ (r : Request) (revision : DocumentRevision) (calls : List LLMCall),
    waiting.repo.requests "r1" = some r ∧
    (step patient waiting confirmation).repo.revisions r.id =
      waiting.repo.revisions r.id ++ [revision] ∧
    (step patient waiting confirmation).llmCalls = waiting.llmCalls ++ calls ∧
    ¬ Accounts revision.llmMeta (returned proseFirst.llm calls) := by
  obtain ⟨r, revision, hr, hintent, hrev⟩ := retried
  obtain ⟨doc, hdoc, hmeta, hcalls⟩ := generated_of_added hr hrev
  refine ⟨r, revision, _, hr, hrev, hcalls, fun h => ?_⟩
  rw [hmeta, accounts_iff hdoc] at h
  obtain ⟨intent, call, k, result, content, hintent', hprompts, -, hfirst, -⟩ :=
    first_of_generate hdoc
  obtain rfl := Option.some.inj (hintent.symm.trans hintent')
  -- the first answer is no document, so the accepted one is not the first
  have hk : 0 < k := by
    rw [Nat.pos_iff_ne_zero]
    rintro rfl
    have hparsed := hfirst.accepts.parsed
    obtain rfl := Except.ok.inj hfirst.accepts.returned
    have hprose : ∃ exc, patient.generator.parse "Here is the plan." .executionPlan = .error exc :=
      ⟨_, rfl⟩
    obtain ⟨exc, hexc⟩ := hprose
    rw [hexc] at hparsed
    cases hparsed
  have hbilled : 400 = 0 := (h _ call k result content hintent' hprompts hfirst 0 hk _ rfl).1
  exact absurd hbilled (by decide)

end WappPlanner.Orchestrator
