import WappPlanner.Api.AtMostOnce
import WappPlanner.Ingestion.Waiting
import WappPlanner.Lib.Contracts

/-! # Nobody waits too long

The windows bound the waiting of a message from both sides, whatever raises: a batch
is never handed over early, and what was taken up by `u` has left the buckets after a tick at
`u + maxDuration` or later (`waiting_bounded`). A worker that ticks every `d` seconds thus leaves
nothing in a bucket for longer than the maximum window and `d`. Where nothing is dropped, a message that
has left the buckets is in a request (`served_in_time`). -/

namespace WappPlanner.Api

open WappPlanner.Aggregation WappPlanner.Bootstrap WappPlanner.Domain.Models
open WappPlanner.Errors WappPlanner.Hitl.Service WappPlanner.Ingestion WappPlanner.Lib.Contracts
open WappPlanner.Lib.Placement WappPlanner.Lib.Programs WappPlanner.Lib.Runs
open WappPlanner.Orchestrator WappPlanner.Py.Text WappPlanner.Py.Values

/-- The time that an input reads for the windows. -/
def Input.clock? : Input → Option Instant
  | .inbound _ _ now _ _ | .tick now _ => some now
  | _ => none

/-- The times that inputs read. -/
def clocks (cs : List Input) : List Instant := cs.filterMap Input.clock?

section runs

variable {ctx : AppContext} {P : OpenBucket → Prop} {s : State}

/-- **What the messages of an input keep**, the input keeps. -/
theorem windowed_step {input : Input} (h : Windowed ctx.ingestion.windows P s)
    (hj : ∀ now, input.clock? = some now → Joinable s.seen now P) :
    Windowed ctx.ingestion.windows P (step ctx s input) := by
  cases input with
  | health | verify => exact h
  | hitlAction token feedback resolvedAt appliedAt env =>
    have hcases := @step_cases ctx s (.hitlAction token feedback resolvedAt appliedAt env)
    rcases hcases with ⟨call, hcall, -⟩ | ⟨a, now, env, -, -, hstep⟩ | ⟨-, -, hstep⟩
    · cases hcall
    · rw [hstep]
      exact h.congr rfl rfl
    · rw [hstep]
      exact h
  | inbound body signature now wall handling =>
    change Windowed _ _ (inbound ctx body signature now wall handling s).2
    rw [inbound_state]
    exact h.receive (hj now rfl)
  | tick now handling =>
    have hticked : Windowed ctx.ingestion.windows
        (fun bucket => P bucket ∧ ctx.ingestion.windows.active bucket now = true)
        (ctx.ingestion.flushDue now handling s).2 := h.flushDue
    exact ⟨fun key bucket hb => (hticked.opened key bucket hb).1, hticked.handed⟩

theorem windowed_run {cs : List Input} (h : Windowed ctx.ingestion.windows P s)
    (hj : ∀ now ∈ clocks cs, ∀ seen, s.seen ⊆ seen → Joinable seen now P) :
    Windowed ctx.ingestion.windows P (run (step ctx) s cs) := by
  induction cs generalizing s with
  | nil => exact h
  | cons c cs ih =>
    refine ih (windowed_step h fun now hnow => ?_) fun now hnow seen hseen => ?_
    · exact hj now (List.mem_filterMap.mpr ⟨c, List.mem_cons_self, hnow⟩) s.seen
        (Finset.Subset.refl _)
    · obtain ⟨d, hd, hdnow⟩ := List.mem_filterMap.mp hnow
      exact hj now (List.mem_filterMap.mpr ⟨d, List.mem_cons_of_mem c hd, hdnow⟩) seen
        ((subset_step c).trans hseen)

theorem windowed_initial : Windowed ctx.ingestion.windows P State.initial := by
  refine ⟨fun key bucket hb => ?_, fun b hb => ?_⟩
  · have hnone : (none : Option OpenBucket) = some bucket := hb
    cases hnone
  · have hnil : b ∈ ([] : List Batch) := hb
    cases hnil

/-- **What was taken up by `u`** is in no bucket after a tick that is a maximum window later. -/
theorem left_run {before between after : List Input} {t u : Instant} {handling : ℕ → Handling}
    (hbefore : ∀ now ∈ clocks before, now ≤ u) (hlate : u + ctx.ingestion.windows.maxDuration ≤ t)
    {id : String} (hid : id ∈ (run (step ctx) State.initial before).seen) (key : String) :
    id ∉ (run (step ctx) State.initial (before ++ between ++ .tick t handling :: after)).held
      (.bucket key) := by
  rw [run_append, run_append, run_cons]
  have hstarted : Windowed ctx.ingestion.windows (fun bucket => bucket.startedAt ≤ u)
      (run (step ctx) State.initial before) :=
    windowed_run windowed_initial fun now hnow _ _ => joinable_started (hbefore now hnow)
  generalize run (step ctx) State.initial before = s at hid hstarted ⊢
  -- from here on, no message with the id arrives
  have hholder : Windowed ctx.ingestion.windows
      (fun bucket => id ∈ bucket.messages.map (·.id) → bucket.startedAt ≤ u)
      (run (step ctx) s between) :=
    windowed_run ⟨fun key bucket hb _ => hstarted.opened key bucket hb, hstarted.handed⟩
      fun _ _ seen hseen => joinable_holder (hseen hid) (· ≤ u)
  have hclaimed : id ∈ (step ctx (run (step ctx) s between) (.tick t handling)).seen :=
    subset_step _ (subset_run between hid)
  generalize run (step ctx) s between = s' at hholder hclaimed ⊢
  have hticked : Windowed ctx.ingestion.windows
      (fun bucket => (id ∈ bucket.messages.map (·.id) → bucket.startedAt ≤ u) ∧
        ctx.ingestion.windows.active bucket t = true)
      (step ctx s' (.tick t handling)) := hholder.flushDue
  -- a bucket that is active at `t` began after `u`
  have hgone : Windowed ctx.ingestion.windows
      (fun bucket => id ∈ bucket.messages.map (·.id) → False) (step ctx s' (.tick t handling)) := by
    refine ⟨fun key bucket hb hmem => ?_, hticked.handed⟩
    obtain ⟨hbegan, hactive⟩ := hticked.opened key bucket hb
    unfold AggregatorConfig.active at hactive
    rw [Bool.and_eq_true, decide_eq_true_eq, decide_eq_true_eq] at hactive
    have hage : t < u + ctx.ingestion.windows.maxDuration :=
      (sub_lt_iff_lt_add'.mp hactive.2).trans_le (add_le_add_left (hbegan hmem) _)
    exact absurd hlate (not_le.mpr hage)
  have hend : Windowed ctx.ingestion.windows
      (fun bucket => id ∈ bucket.messages.map (·.id) → False)
      (run (step ctx) (step ctx s' (.tick t handling)) after) :=
    windowed_run hgone fun _ _ seen hseen => joinable_holder (hseen hclaimed) fun _ => False
  generalize run (step ctx) (step ctx s' (.tick t handling)) after = s'' at hend ⊢
  intro hmem
  cases hb : s''.aggregator.openBuckets.get key with
  | none =>
    rw [State.held, hb] at hmem
    cases hmem
  | some bucket =>
    rw [State.held, hb] at hmem
    exact hend.opened key bucket hb hmem

/-! ### Served in time -/

/-- Nothing that an input makes the service take up or pop is dropped. -/
def NothingDropped (ctx : AppContext) (s : State) (input : Input) : Prop :=
  ∀ call, input.service? = some call → Ingestion.NothingDropped ctx.ingestion s call

theorem action_storage {cfg : Config} {w : World} (a : OwnerAction) (now : Instant) (env : External)
    (key : String) (h : (w.storage key).isSome) :
    ((Orchestrator.step cfg w (.action a now env)).storage key).isSome := by
  unfold Orchestrator.step outcome
  refine exec_keeps (I := fun w : World => (w.storage key).isSome) (fun o w hw => ?_) _ h
  cases o with
  | put key' content contentType =>
    change ((answer cfg env (.put key' content contentType) w).2.storage key).isSome
    cases hput : env.put key' with
    | error text =>
      simp only [answer, hput]
      exact hw
    | ok =>
      simp only [answer, hput, World.storage_stored]
      by_cases hkey : key = key'
      · rw [hkey, Function.update_self]
        rfl
      · rwa [Function.update_of_ne hkey]
  | _ => exact hw

/-- Where nothing is dropped, what was taken up is held, once. -/
theorem holding_run (hids : Function.Injective ctx.ingestion.windows.idFactory) {cs : List Input}
    (h : Along (step ctx) (NothingDropped ctx) State.initial cs) :
    Holding ctx.ingestion (run (step ctx) State.initial cs).seen
      (run (step ctx) State.initial cs) := by
  refine run_inv (I := fun s => Holding ctx.ingestion s.seen s) (fun s c hs hc => ?_)
    Holding.initial h
  rcases @step_cases ctx s c with ⟨call, hcall, -, hstep⟩ | ⟨a, now, env, -, -, hstep⟩ | ⟨-, -, hstep⟩
  · rw [hstep]
    exact hs.step hids (hc call hcall)
  · rw [hstep]
    exact hs.congr rfl (action_messages a now env) fun key hkey => action_storage a now env key hkey
  · rw [hstep]
    exact hs

end runs

section settings

variable (settings : Settings) (secrets : Secrets) (platform : Platform) (clients : List Client)
  (idFactory : ℕ → String)

/-- **The windows bound the waiting.** In any run of the application, whatever raises: every batch that
was handed over was due by then; and once the worker has ticked at `t`, nothing that was taken up by a
time `u` with `u + maxDuration ≤ t` is in a bucket. -/
theorem waiting_bounded (before between after : List Input) (t u : Instant)
    (handling : ℕ → Handling) (hbefore : ∀ now ∈ clocks before, now ≤ u)
    (hlate : u + seconds settings.aggregationMaxDurationSeconds ≤ t) :
    let ctx := buildApp settings secrets platform clients idFactory
    let s := run (step ctx) State.initial (before ++ between ++ .tick t handling :: after)
    (∀ b ∈ s.handed, Due ctx.ingestion.windows b) ∧
      ∀ id ∈ (run (step ctx) State.initial before).seen, ∀ key, id ∉ s.held (.bucket key) := by
  intro ctx s
  have hdue : Windowed ctx.ingestion.windows (fun _ => True) s :=
    windowed_run windowed_initial fun _ _ _ _ => ⟨fun _ _ _ _ => trivial, fun _ _ _ _ => trivial⟩
  exact ⟨hdue.handed, fun id hid key => left_run hbefore hlate hid key⟩

/-- **Every message is served in time**, in a run of the application in which nothing is dropped: once
the worker has ticked at `t`, whatever was taken up by a time `u` with `u + maxDuration ≤ t` is a
message of one request, and is nowhere else. -/
theorem served_in_time (hids : Function.Injective idFactory) (before between after : List Input)
    (t u : Instant) (handling : ℕ → Handling) (hbefore : ∀ now ∈ clocks before, now ≤ u)
    (hlate : u + seconds settings.aggregationMaxDurationSeconds ≤ t)
    (hkept : Along (step (buildApp settings secrets platform clients idFactory))
      (NothingDropped (buildApp settings secrets platform clients idFactory)) State.initial
      (before ++ between ++ .tick t handling :: after)) :
    let ctx := buildApp settings secrets platform clients idFactory
    let s := run (step ctx) State.initial (before ++ between ++ .tick t handling :: after)
    ∀ id ∈ (run (step ctx) State.initial before).seen, ∃ rid,
      (s.held (.request rid)).count id = 1 ∧ ∀ place, place ≠ .request rid → id ∉ s.held place := by
  intro ctx s id hid
  have hseen : id ∈ s.seen := by
    change id ∈ (run (step ctx) State.initial (before ++ between ++ _)).seen
    rw [run_append, run_append]
    exact subset_run _ (subset_run between hid)
  obtain ⟨place, hcount, hother⟩ := (holding_run hids hkept).exact.once hseen
  cases place with
  | bucket key =>
    have hleft : id ∉ s.held (.bucket key) := left_run hbefore hlate hid key
    have hheld : 0 < (s.held (.bucket key)).count id := by
      rw [hcount]
      exact Nat.one_pos
    exact absurd (List.count_pos_iff.mp hheld) hleft
  | request rid => exact ⟨rid, hcount, hother⟩

end settings

namespace Sample

open Orchestrator.Sample Ingestion.Sample

theorem nothingDropped_morning : Along (step asked) (NothingDropped asked) State.initial morning := by
  refine ⟨?_, ?_, trivial⟩
  · intro call hcall
    obtain rfl := Option.some.inj hcall
    refine ⟨?_, trivial⟩
    unfold IngestionService.AtAccept
    dsimp only
    rw [messagesOf_price]
    dsimp only
    rw [IngestionService.AtAcceptAll,
      if_neg (show (parsedText "wamid.1" "15551230000").whatsappId ∉ State.initial.seen from
        Finset.notMem_empty _)]
    refine ⟨⟨by unfold Parser.ParsedMessage.Valid; decide, fun bucket hdue => ?_⟩, ?_⟩
    · cases hdue
    · split <;> trivial
  · intro call hcall
    obtain rfl := Option.some.inj hcall
    rw [step_arrives]
    refine ⟨trivial, ?_⟩
    dsimp only
    have hlength : (open_.aggregator.flushDue asked.ingestion.windows
        (start + seconds 600)).1.length = 1 := by
      decide +kernel
    generalize (open_.aggregator.flushDue asked.ingestion.windows _).1 = due at hlength ⊢
    obtain ⟨aggregated, rfl⟩ := List.length_eq_one_iff.mp hlength
    exact ⟨fun _ _ _ _ _ => rfl, fun hne => absurd rfl hne, trivial⟩

theorem clocks_arrives : ∀ now ∈ clocks [arrives start], now ≤ start := by
  intro now hnow
  rw [List.mem_singleton.mp (show now ∈ [start] from hnow)]

end Sample

open Sample Orchestrator.Sample Ingestion.Sample in
theorem waiting_bounded_morning :
    let s := run (step asked) State.initial morning
    (∀ b ∈ s.handed, Due asked.ingestion.windows b) ∧
      ∀ id ∈ (run (step asked) State.initial [arrives start]).seen, ∀ key,
        id ∉ s.held (.bucket key) := by
  unfold asked
  exact waiting_bounded Bootstrap.Sample.settings secrets asking [] idFactory [arrives start] [] []
    (start + seconds 600) start (fun _ => handling) clocks_arrives le_rfl

set_option linter.constructorNameAsVariable false in
open Sample Orchestrator.Sample Ingestion.Sample in
theorem served_in_time_morning : ∃ rid,
    ((run (step asked) State.initial morning).held (.request rid)).count "wamid.1" = 1 ∧
      ∀ place, place ≠ .request rid →
        "wamid.1" ∉ (run (step asked) State.initial morning).held place := by
  have hclaimed : "wamid.1" ∈ (run (step asked) State.initial [arrives start]).seen := by
    rw [run_cons, run_nil, step_arrives]
    decide +kernel
  have hkept := nothingDropped_morning
  unfold asked at hkept hclaimed ⊢
  have hserved := served_in_time Bootstrap.Sample.settings secrets asking [] idFactory
    injective_idFactory [arrives start] [] [] (start + seconds 600) start (fun _ => handling)
    clocks_arrives le_rfl hkept
  -- no evaluation of the run
  dsimp only at hserved
  generalize run (step (buildApp _ _ _ _ _)) State.initial [arrives start] = s at hserved hclaimed
  exact hserved "wamid.1" hclaimed

end WappPlanner.Api
