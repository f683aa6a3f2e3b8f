import WappPlanner.Documents.Generation

/-! # The retry loop

A completion is accepted if the model returned it and its text parses (`Accepts`); everything else a
call can do is a rejection. The loop of `generate` ends at the first accepted completion, after its last
attempt, or at the attempt number 1024, whose delay cannot be computed (`attempts_cases`); it sleeps
between attempts only, each time twice as long. So it does what it should exactly if each delay that the
answers call for can be computed and is a finite double (`generate_exact_iff`). -/

namespace WappPlanner.Documents.Generation.Generator

open WappPlanner.Errors WappPlanner.Documents.Content WappPlanner.Lib.Programs
open WappPlanner.Nlp.Prompts WappPlanner.Providers.Base WappPlanner.Py.Text
open WappPlanner.Py.Values WappPlanner.Workflow.Enums

variable (generator : Generator) (llm : LLM) (call : LLMCall) (intent : Intent)

/-- The completion number `k` is a valid document. -/
structure Accepts (k : ℕ) (result : LLMResult) (content : DocumentContent) : Prop where
  returned : llm k call = .ok result
  parsed : generator.parse result.text intent = .ok content

/-- The call number `k` gives no valid document: the model raised, its text has no JSON, or the JSON
violates the schema. -/
def Rejects (k : ℕ) : Prop := ∀ result content, ¬ generator.Accepts llm call intent k result content

/-- The completion number `k` is the first valid document. -/
structure First (k : ℕ) (result : LLMResult) (content : DocumentContent) : Prop where
  accepts : generator.Accepts llm call intent k result content
  rejects : ∀ j < k, generator.Rejects llm call intent j

/-- The prompts of a generation. -/
def prompts (args : GenerateArgs) : Except Exn LLMCall := do
  let system ← generationSystemPrompt (some intent) generator.promptVersion
  let user ← generator.buildUserPrompt intent args
  return ⟨system, user, generator.model, 2⟩

/-- The document made of a completion, with its usage. -/
def document (result : LLMResult) (content : DocumentContent) (attempts : ℕ) : GeneratedDocument :=
  ⟨content, result.model, result.inputTokens, result.outputTokens, result.costUsd, attempts⟩

variable {generator llm call intent}

section attempt

variable {n : ℕ} {result : LLMResult} {content : DocumentContent}

theorem Accepts.attempt (h : generator.Accepts llm call intent n result content) :
    generator.attempt llm call intent n = .ok (document result content (n + 1)) := by
  unfold Generator.attempt
  rw [h.returned, Answer.lift_ok, ok_bind, h.parsed]
  rfl

theorem attempt_ok {doc : GeneratedDocument} (h : generator.attempt llm call intent n = .ok doc) :
    ∃ result content, generator.Accepts llm call intent n result content := by
  obtain ⟨result, hreturned, h⟩ := Answer.lift_bind_ok h
  cases hparsed : generator.parse result.text intent with
  | error exc =>
    rw [hparsed] at h
    cases h
  | ok content => exact ⟨result, content, hreturned, hparsed⟩

theorem Rejects.attempt (h : generator.Rejects llm call intent n) :
    ∃ exc, generator.attempt llm call intent n = .error exc := by
  cases hdoc : generator.attempt llm call intent n with
  | error exc => exact ⟨exc, rfl⟩
  | ok doc =>
    obtain ⟨result, content, haccepts⟩ := attempt_ok hdoc
    exact absurd haccepts (h result content)

theorem First.unique {k k' : ℕ} {result' : LLMResult} {content' : DocumentContent}
    (h : generator.First llm call intent k result content)
    (h' : generator.First llm call intent k' result' content') :
    k = k' ∧ result = result' ∧ content = content' := by
  have hk : k = k' := by
    rcases Nat.lt_trichotomy k k' with hlt | heq | hgt
    · exact absurd h.accepts (h'.rejects k hlt _ _)
    · exact heq
    · exact absurd h'.accepts (h.rejects k' hgt _ _)
  subst hk
  have hresult : result = result' :=
    Except.ok.inj (h.accepts.returned.symm.trans h'.accepts.returned)
  subst hresult
  exact ⟨rfl, rfl, Except.ok.inj (h.accepts.parsed.symm.trans h'.accepts.parsed)⟩

end attempt

/-! ### The attempts -/

theorem delays_succ (n m : ℕ) : generator.delays n (m + 1) =
    generator.backoffBaseSeconds.timesPow n :: generator.delays (n + 1) m := by
  rw [delays, List.range'_succ, List.map_cons]
  rfl

theorem attempts_rejected (remaining : ℕ) {n : ℕ} (last : String)
    (h : generator.Rejects llm call intent n) (hlater : n + 1 < generator.maxAttempts)
    (hn : n < 1024) : ∃ text,
      generator.attempts llm call intent (remaining + 1) n last =
        let rest := generator.attempts llm call intent remaining (n + 1) text
        ⟨rest.result, call :: rest.calls,
          generator.backoffBaseSeconds.timesPow n :: rest.sleeps⟩ := by
  obtain ⟨exc, hexc⟩ := h.attempt
  refine ⟨exc.text, ?_⟩
  rw [attempts, hexc]
  dsimp only
  rw [if_pos hlater, backoff, if_pos hn]

theorem attempts_last {n : ℕ} (last : String) (h : generator.Rejects llm call intent n)
    (hlast : n + 1 = generator.maxAttempts) : ∃ text,
      generator.attempts llm call intent 1 n last = ⟨.error (.generation text), [call], []⟩ := by
  obtain ⟨exc, hexc⟩ := h.attempt
  refine ⟨"generation failed after " ++ natText generator.maxAttempts ++ " attempts: " ++ exc.text, ?_⟩
  rw [attempts, hexc]
  dsimp only
  rw [if_neg (by omega)]
  rfl

theorem attempts_overflow {remaining : ℕ} (last : String)
    (h : generator.Rejects llm call intent 1024) (hlater : 1025 < generator.maxAttempts) :
    generator.attempts llm call intent (remaining + 1) 1024 last =
      ⟨.error (.overflowError "int too large to convert to float"), [call], []⟩ := by
  obtain ⟨exc, hexc⟩ := h.attempt
  rw [attempts, hexc]
  dsimp only
  rw [if_pos hlater, backoff, if_neg (by decide)]

/-- How the attempts end that begin with number `n`. -/
inductive Ending (generator : Generator) (llm : LLM) (call : LLMCall) (intent : Intent) (n : ℕ) :
    GenerateRun → Prop
  | first (k : ℕ) (result : LLMResult) (content : DocumentContent)
      (hk : n + k < generator.maxAttempts) (hdelays : n + k ≤ 1024)
      (haccepts : generator.Accepts llm call intent (n + k) result content)
      (hrejects : ∀ j, n ≤ j → j < n + k → generator.Rejects llm call intent j) :
      Ending generator llm call intent n
        ⟨.ok (document result content (n + k + 1)), List.replicate (k + 1) call,
          generator.delays n k⟩
  | exhausted (text : String) (m : ℕ) (hm : n + m = generator.maxAttempts)
      (hdelays : generator.maxAttempts ≤ 1025)
      (hrejects : ∀ j, n ≤ j → j < generator.maxAttempts → generator.Rejects llm call intent j) :
      Ending generator llm call intent n
        ⟨.error (.generation text), List.replicate m call, generator.delays n (m - 1)⟩
  | overflow (m : ℕ) (hm : n + m = 1024) (hlater : 1025 < generator.maxAttempts)
      (hrejects : ∀ j, n ≤ j → j ≤ 1024 → generator.Rejects llm call intent j) :
      Ending generator llm call intent n
        ⟨.error (.overflowError "int too large to convert to float"), List.replicate (m + 1) call,
          generator.delays n m⟩

theorem Ending.after {n : ℕ} {run : GenerateRun}
    (h : Ending generator llm call intent (n + 1) run)
    (hnow : generator.Rejects llm call intent n) (hlater : n + 1 < generator.maxAttempts) :
    Ending generator llm call intent n ⟨run.result, call :: run.calls,
      generator.backoffBaseSeconds.timesPow n :: run.sleeps⟩ := by
  have hfrom : ∀ {j}, n ≤ j → j ≠ n → n + 1 ≤ j := by omega
  cases h with
  | first k result content hk hdelays haccepts hrejects =>
    have hshift : n + 1 + k = n + (k + 1) := by omega
    rw [hshift] at hk hdelays haccepts hrejects
    have hfirst := Ending.first (n := n) (k + 1) result content hk hdelays haccepts fun j hj hlt => by
      by_cases hne : j = n
      · rwa [hne]
      · exact hrejects j (hfrom hj hne) hlt
    rwa [delays_succ, List.replicate_succ, ← hshift] at hfirst
  | exhausted text m hm hdelays hrejects =>
    obtain ⟨m, rfl⟩ : ∃ m', m = m' + 1 := ⟨m - 1, by omega⟩
    have hnone := Ending.exhausted (n := n) text (m + 2) (by omega) hdelays fun j hj hlt => by
      by_cases hne : j = n
      · rwa [hne]
      · exact hrejects j (hfrom hj hne) hlt
    rwa [Nat.add_succ_sub_one, delays_succ, List.replicate_succ] at hnone
  | overflow m hm hlater' hrejects =>
    have hover := Ending.overflow (n := n) (m + 1) (by omega) hlater' fun j hj hle => by
      by_cases hne : j = n
      · rwa [hne]
      · exact hrejects j (hfrom hj hne) hle
    rwa [delays_succ, List.replicate_succ] at hover

/-- **How the attempts end.** -/
theorem attempts_cases : ∀ (remaining n : ℕ) (last : String),
    n + remaining = generator.maxAttempts → n ≤ 1024 → 0 < remaining →
      Ending generator llm call intent n (generator.attempts llm call intent remaining n last)
  | remaining + 1, n, last, hmax, hn, _ => by
    by_cases hnow : generator.Rejects llm call intent n
    · by_cases hlast : remaining = 0
      · subst hlast
        obtain ⟨text, hrun⟩ := attempts_last last hnow hmax
        rw [hrun]
        refine .exhausted text 1 hmax (by omega) fun j hj hlt => ?_
        obtain rfl : j = n := by omega
        exact hnow
      · have hlater : n + 1 < generator.maxAttempts := by omega
        by_cases hover : n = 1024
        · subst hover
          rw [attempts_overflow last hnow hlater]
          refine .overflow 0 rfl hlater fun j hj hle => ?_
          obtain rfl : j = 1024 := by omega
          exact hnow
        · obtain ⟨text, hrun⟩ := attempts_rejected remaining last hnow hlater (by omega)
          rw [hrun]
          exact (attempts_cases remaining (n + 1) text (by omega) (by omega) (by omega)).after hnow
            hlater
    · simp only [Rejects, not_forall, not_not] at hnow
      obtain ⟨result, content, haccepts⟩ := hnow
      rw [attempts, haccepts.attempt]
      exact .first 0 result content (by omega) hn haccepts fun j hj hlt => by omega

/-! ### Generation -/

section generate

variable {args : GenerateArgs}

theorem generate_prompts (llm : LLM) (hintent : args.intent = some intent) :
    generator.generate llm args = match generator.prompts intent args with
      | .error exc => ⟨.error exc, [], []⟩
      | .ok call => generator.attempts llm call intent generator.maxAttempts 0 "None" := by
  unfold generate prompts
  rw [hintent]
  cases generationSystemPrompt (some intent) generator.promptVersion with
  | error exc => rfl
  | ok system =>
    dsimp only
    cases generator.buildUserPrompt intent args <;> rfl

/-- **How a generation ends**: with the first valid document, or without one. -/
theorem generate_cases (llm : LLM) (hintent : args.intent = some intent)
    (hprompts : generator.prompts intent args = .ok call) :
    (∃ k < generator.maxAttempts, k ≤ 1024 ∧ ∃ result content,
      generator.First llm call intent k result content ∧
        generator.generate llm args = ⟨.ok (document result content (k + 1)),
          List.replicate (k + 1) call, generator.delays 0 k⟩) ∨
    ((∀ k < generator.maxAttempts, generator.Rejects llm call intent k) ∧
      generator.maxAttempts ≤ 1025 ∧ ∃ text,
        generator.generate llm args = ⟨.error (.generation text),
          List.replicate generator.maxAttempts call,
          generator.delays 0 (generator.maxAttempts - 1)⟩) ∨
    ((∀ k ≤ 1024, generator.Rejects llm call intent k) ∧ 1025 < generator.maxAttempts ∧
      generator.generate llm args =
        ⟨.error (.overflowError "int too large to convert to float"), List.replicate 1025 call,
          generator.delays 0 1024⟩) := by
  have hrun : generator.generate llm args =
      generator.attempts llm call intent generator.maxAttempts 0 "None" := by
    rw [generate_prompts llm hintent, hprompts]
  rw [hrun]
  by_cases hmax : generator.maxAttempts = 0
  · refine .inr (.inl ⟨fun k hk => ?_, by omega,
      "generation failed after " ++ natText generator.maxAttempts ++ " attempts: None", ?_⟩)
    · rw [hmax] at hk
      exact absurd hk (Nat.not_lt_zero k)
    · rw [hmax, attempts, hmax]
      rfl
  · have hending : Ending generator llm call intent 0
        (generator.attempts llm call intent generator.maxAttempts 0 "None") :=
      attempts_cases _ 0 "None" (Nat.zero_add _) (by decide) (Nat.pos_of_ne_zero hmax)
    generalize generator.attempts llm call intent generator.maxAttempts 0 "None" = run at hending
    cases hending with
    | first k result content hk hdelays haccepts hrejects =>
      rw [Nat.zero_add] at hk hdelays haccepts hrejects ⊢
      exact .inl ⟨k, hk, hdelays, result, content,
        ⟨haccepts, fun j hj => hrejects j (Nat.zero_le j) hj⟩, rfl⟩
    | exhausted text m hm hdelays hrejects =>
      obtain rfl : m = generator.maxAttempts := by omega
      exact .inr (.inl ⟨fun j hj => hrejects j (Nat.zero_le j) hj, hdelays, text, rfl⟩)
    | overflow m hm hlater hrejects =>
      obtain rfl : m = 1024 := by omega
      exact .inr (.inr ⟨fun j hj => hrejects j (Nat.zero_le j) hj, hlater, rfl⟩)

theorem first_of_generate {doc : GeneratedDocument}
    (h : (generator.generate llm args).result = .ok doc) :
    ∃ intent call k result content, args.intent = some intent ∧
      generator.prompts intent args = .ok call ∧ k < generator.maxAttempts ∧
      generator.First llm call intent k result content ∧ doc = document result content (k + 1) ∧
      (generator.generate llm args).calls = List.replicate (k + 1) call := by
  obtain ⟨intent, hintent, -⟩ := generate_ok h
  cases hprompts : generator.prompts intent args with
  | error exc =>
    rw [generate_prompts llm hintent, hprompts] at h
    cases h
  | ok call =>
    rcases generate_cases llm hintent hprompts with
      ⟨k, hk, -, result, content, hfirst, hrun⟩ | ⟨-, -, text, hrun⟩ | ⟨-, -, hrun⟩
    · rw [hrun] at h ⊢
      exact ⟨intent, call, k, result, content, hintent, hprompts, hk, hfirst,
        (Except.ok.inj h).symm, rfl⟩
    · rw [hrun] at h
      cases h
    · rw [hrun] at h
      cases h

theorem exists_prompts (args : GenerateArgs) {system : String} (hactionable : intent ≠ .none)
    (hsystem : generationSystemPrompt (some intent) generator.promptVersion = .ok system) :
    ∃ user, generator.buildUserPrompt intent args = .ok user ∧
      generator.prompts intent args = .ok ⟨system, user, generator.model, 2⟩ := by
  have huser : ∃ user, generator.buildUserPrompt intent args = .ok user := by
    cases intent with
    | none => exact absurd rfl hactionable
    | quote => exact ⟨_, rfl⟩
    | executionPlan => exact ⟨_, rfl⟩
  obtain ⟨user, huser⟩ := huser
  refine ⟨user, huser, ?_⟩
  rw [prompts, hsystem, ok_bind, huser]
  rfl

/-- `2 ^ j` times the number. -/
def doubled (j : ℕ) : PyFloat → PyFloat
  | .finite q => .finite (q * 2 ^ j)
  | x => x

/-- **What a run of `generate` is to be**, given its prompts: with the first valid document at `k`, it asks
`k + 1` times, returns that document with its usage and sleeps `k` times, twice as long each time;
without one among the first `maxAttempts`, it asks `maxAttempts` times, sleeps between them and raises
`GenerationError`. It raises nothing else. -/
structure Exact (generator : Generator) (llm : LLM) (call : LLMCall) (intent : Intent)
    (run : GenerateRun) : Prop where
  accepted : ∀ k < generator.maxAttempts, ∀ result content,
    generator.First llm call intent k result content →
      run = ⟨.ok (document result content (k + 1)), List.replicate (k + 1) call,
        (List.range k).map fun j => doubled j generator.backoffBaseSeconds⟩
  exhausted : (¬ ∃ k < generator.maxAttempts, ∃ result content,
    generator.First llm call intent k result content) → ∃ text,
      run = ⟨.error (.generation text), List.replicate generator.maxAttempts call,
        (List.range (generator.maxAttempts - 1)).map fun j =>
          doubled j generator.backoffBaseSeconds⟩
  errors : ∀ exc, run.result = .error exc → ∃ text, exc = .generation text

end generate

/-! ### A small instance -/

namespace Sample

def deckText : String := "\x7b\"title\":\"Deck\",\"overview\":\"\",\"phases\":[]\x7d"

/-- Three attempts, and the JSON of one plan. -/
def planner : Generator where
  model := "large"
  promptVersion := "v1"
  maxAttempts := 3
  backoffBaseSeconds := .finite 1
  codec :=
    { loads text :=
        if text = deckText then
          .ok (.obj [("title", .str "Deck"), ("overview", .str ""), ("phases", .arr [])])
        else .error (.jsonDecode "Expecting value: line 1 column 1 (char 0)")
      floatRepr _ := "1.0"
      quoteContent _ := .error (.validation "4 validation errors for QuoteContent")
      executionPlanContent _ := .ok
        { title := "Deck", overview := "", materials := [], phases := [], qualityCheckpoints := []
          cleanup := none, notes := none } }

/-- As many attempts as it takes for the power of two to be too large. -/
def patient : Generator := { planner with maxAttempts := 1026 }

/-- No call returns. -/
def silent : LLM := fun _ _ => .error "timeout"

end Sample

end WappPlanner.Documents.Generation.Generator
