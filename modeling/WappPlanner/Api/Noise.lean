import WappPlanner.Api.Refinement
import WappPlanner.Ingestion.Redelivery
import WappPlanner.Orchestrator.Replays

/-! # What changes nothing

An input changes nothing exactly when it is idle (`unchanged_iff`): a body that is refused or whose
messages are all claimed, a click whose link does not resolve, whose request is unknown or which is on
record, a tick before any window has closed. A body that was accepted and a click that found its request
are idle from then on, so it does no harm to send them again: a run with such noise in it is the run
without it, for every other input (`noise_invisible`). -/

namespace WappPlanner.Api

open WappPlanner.Aggregation WappPlanner.Bootstrap WappPlanner.Domain.Models WappPlanner.Errors
open WappPlanner.Hitl.Service WappPlanner.Ingestion WappPlanner.Ingestion.Parser WappPlanner.Lib
open WappPlanner.Lib.Fallible WappPlanner.Lib.Programs WappPlanner.Lib.Runs
open WappPlanner.Orchestrator WappPlanner.Py.Text WappPlanner.Py.Values

/-- The input finds nothing to do. -/
def Idle (ctx : AppContext) (s : State) : Input → Prop
  | .health | .verify _ _ _ => True
  | .inbound body signature _ wall _ => ∀ messages,
      ctx.ingestion.messagesOf body signature wall = .ok messages →
        ∀ parsed ∈ messages, parsed.whatsappId ∈ s.seen
  | .hitlAction token feedback resolvedAt _ _ => ∀ a,
      ctx.notifications.resolveAction token resolvedAt feedback = .ok a →
        s.world.repo.requests a.requestId = none ∨ s.world.repo.interactions a.actionId ≠ none
  | .tick now _ => ∀ key bucket, s.aggregator.openBuckets.get key = some bucket →
      ctx.ingestion.windows.active bucket now = true

section idle

variable {ctx : AppContext} {s : State}

/-! ### Bodies -/

/-- A body is idle exactly if it claims nothing. -/
theorem acceptAll_seen {service : IngestionService} {handling : ℕ → Handling} {now : Instant} :
    ∀ {n : ℕ} {messages : List ParsedMessage} {s : State},
      (service.acceptAll handling now n messages s).2 = s →
        ∀ parsed ∈ messages, parsed.whatsappId ∈ s.seen
  | _, [], _, _, parsed, hparsed => by cases hparsed
  | n, parsed :: rest, s, h, p, hp => by
    rw [IngestionService.acceptAll] at h
    by_cases hmem : parsed.whatsappId ∈ s.seen
    · rw [if_pos hmem] at h
      rcases List.mem_cons.mp hp with rfl | hp
      · exact hmem
      · exact acceptAll_seen h p hp
    · exfalso
      rw [if_neg hmem] at h
      have hclaimed : parsed.whatsappId ∈ (service.accept (handling n) parsed now s).2.seen := by
        rw [IngestionService.accept_seen]
        exact Finset.mem_insert_self _ _
      rcases haccept : service.accept (handling n) parsed now s with ⟨_ | _, s'⟩
      · rw [haccept] at h hclaimed
        dsimp only at h hclaimed
        exact hmem (h ▸ hclaimed)
      · rw [haccept] at h hclaimed
        dsimp only at h hclaimed
        have hlater := IngestionService.subset_acceptAll service now handling (n + 1) rest s' hclaimed
        rw [h] at hlater
        exact hmem hlater

theorem inbound_unchanged {body : Bytes} {signature : Option String} {now : Instant}
    {wall : Json → Instant} {handling : ℕ → Handling} :
    step ctx s (.inbound body signature now wall handling) = s ↔
      Idle ctx s (.inbound body signature now wall handling) := by
  change (inbound ctx body signature now wall handling s).2 = s ↔ _
  rw [inbound_state]
  unfold IngestionService.receive Idle
  cases hmessages : ctx.ingestion.messagesOf body signature wall with
  | error exc =>
    refine iff_of_true rfl fun messages h => ?_
    rw [hmessages] at h
    cases h
  | ok messages =>
    constructor
    · intro h messages' heq
      rw [← Except.ok.inj (hmessages.symm.trans heq)]
      exact acceptAll_seen h
    · intro h
      exact congrArg Prod.snd (IngestionService.acceptAll_of_seen (h messages hmessages))

/-! ### Clicks -/

theorem action_unchanged {cfg : Config} {w : World} {a : OwnerAction} {now : Instant}
    {env : External} : Orchestrator.step cfg w (.action a now env) = w ↔
      w.repo.requests a.requestId = none ∨ w.repo.interactions a.actionId ≠ none := by
  constructor
  · intro h
    by_contra hnew
    push Not at hnew
    obtain ⟨hpresent, hfresh⟩ := hnew
    have hrecorded := interactions_action cfg w a now env
    rw [h, if_pos ⟨hpresent, hfresh⟩] at hrecorded
    have hat := congrFun hrecorded a.actionId
    rw [Function.update_self, hfresh] at hat
    cases hat
  · intro h
    have ho := action_outcome cfg w a now env
    unfold Orchestrator.step
    generalize outcome cfg w (.action a now env) = o at ho ⊢
    cases ho with
    | unknown | duplicate => rfl
    | refused r hr hfresh | accepted r hr hfresh =>
      rcases h with hnone | hdup
      · rw [hr] at hnone
        cases hnone
      · exact absurd hfresh hdup

theorem hitlAction_unchanged {token : String} {feedback : Option String}
    {resolvedAt appliedAt : Instant} {env : External} :
    step ctx s (.hitlAction token feedback resolvedAt appliedAt env) = s ↔
      Idle ctx s (.hitlAction token feedback resolvedAt appliedAt env) := by
  have hcases := @step_cases ctx s (.hitlAction token feedback resolvedAt appliedAt env)
  unfold Idle
  cases hresolve : ctx.notifications.resolveAction token resolvedAt feedback with
  | error exc =>
    have hnone : Input.resolved ctx (.hitlAction token feedback resolvedAt appliedAt env) = none :=
      congrArg Except.toOption hresolve
    refine iff_of_true ?_ fun a h => ?_
    swap
    · rw [hresolve] at h
      cases h
    rcases hcases with ⟨call, hcall, -⟩ | ⟨a, now, env', -, hsome, -⟩ | ⟨-, -, hstep⟩
    · cases hcall
    · rw [hnone] at hsome
      cases hsome
    · exact hstep
  | ok a =>
    have hstep : step ctx s (.hitlAction token feedback resolvedAt appliedAt env) =
        { s with
          world := Orchestrator.step ctx.orchestrator s.world (.action a appliedAt env) } := by
      change (hitlAction ctx token feedback resolvedAt appliedAt env s).2 = _
      unfold hitlAction
      rw [hresolve]
      exact applyAction_state
    rw [hstep]
    constructor
    · intro h a' ha'
      rw [← Except.ok.inj (hresolve.symm.trans ha')]
      exact action_unchanged.mp (congrArg State.world h)
    · intro h
      rw [action_unchanged.mpr (h a hresolve)]

/-! ### Ticks -/

theorem tick_unchanged {now : Instant} {handling : ℕ → Handling} :
    step ctx s (.tick now handling) = s ↔ Idle ctx s (.tick now handling) := by
  change (ctx.ingestion.flushDue now handling s).2 = s ↔ _
  constructor
  · intro h key bucket hb
    have hflushed : (ctx.ingestion.flushDue now handling s).2.aggregator =
        (s.aggregator.flushDue ctx.ingestion.windows now).2 :=
      ctx.ingestion.processAll_inv (I := fun t => t.aggregator =
          (s.aggregator.flushDue ctx.ingestion.windows now).2) (Q := fun _ _ => True)
        (fun _ _ _ ht _ => (IngestionService.process_aggregator ..).trans ht)
        (fun _ _ _ _ _ => trivial) rfl fun _ _ => trivial
    rw [h] at hflushed
    rw [hflushed, Aggregator.get_flushDue] at hb
    exact (Option.filter_eq_some_iff.mp hb).2
  · intro h
    have hnone : s.aggregator.due ctx.ingestion.windows now = [] := by
      refine List.filter_eq_nil_iff.mpr fun e he => ?_
      have hactive := h e.1 e.2 (Dict.get_eq_some.mpr he)
      simp [hactive]
    unfold IngestionService.flushDue Aggregator.flushDue
    rw [hnone]
    rfl

end idle

/-- **What changes nothing.** -/
theorem unchanged_iff (ctx : AppContext) (s : State) (input : Input) :
    step ctx s input = s ↔ Idle ctx s input := by
  cases input with
  | health | verify => exact iff_of_true rfl trivial
  | inbound => exact inbound_unchanged
  | hitlAction => exact hitlAction_unchanged
  | tick => exact tick_unchanged

/-! ### Repeated inputs -/

section ids

variable {T : Tables} {wall wall' : Json → Instant}

/-- The ids that the message objects of a value are claimed under. -/
def valueIds (T : Tables) (value : Fields) : List String :=
  match iter (item value "messages" (.arr [])) with
  | .ok messages => messages.filterMap (claimedId T)
  | .error _ => []

theorem ids_parsed {contacts : List (String × Json)} {messages : List Json}
    {xs : List (ParsedMessage ⊕ String)}
    (h : List.Forall₂ (fun m x => parseMessage T wall contacts m = .ok x) messages xs) :
    (parsedOf xs).map (·.whatsappId) = messages.filterMap (claimedId T) := by
  induction h with
  | nil => rfl
  | @cons message x messages xs hx hrest ih =>
    have hid := claimedId_eq hx
    cases x with
    | inl parsed =>
      rw [List.filterMap_cons_some (hid.trans rfl)]
      exact congrArg (parsed.whatsappId :: ·) ih
    | inr skipped =>
      rw [List.filterMap_cons_none (hid.trans rfl)]
      exact ih

theorem ids_parseValue {value : Fields} {xs : List (ParsedMessage ⊕ String)}
    (h : parseValue T wall value = .ok xs) :
    (parsedOf xs).map (·.whatsappId) = valueIds T value := by
  obtain ⟨contacts, -, h⟩ := bind_eq_ok.mp h
  obtain ⟨messages, hmessages, h⟩ := bind_eq_ok.mp h
  unfold valueIds
  rw [hmessages]
  exact ids_parsed (mapM_eq_ok.mp h)

theorem ids_flatten {values : List Fields} {parsed : List (List (ParsedMessage ⊕ String))}
    (h : List.Forall₂ (fun v xs => parseValue T wall v = .ok xs) values parsed) :
    (parsedOf parsed.flatten).map (·.whatsappId) = values.flatMap (valueIds T) := by
  induction h with
  | nil => rfl
  | cons hxs hrest ih =>
    rw [List.flatten_cons, parsedOf_append, List.map_append, ids_parseValue hxs,
      List.flatMap_cons, ih]

/-- **The clock has no part in the ids** of the messages that are parsed. -/
theorem ids_parseWebhook {payload : Json} {result result' : ParseResult}
    (h : parseWebhook T wall payload = .ok result)
    (h' : parseWebhook T wall' payload = .ok result') :
    result.messages.map (·.whatsappId) = result'.messages.map (·.whatsappId) := by
  have hids : ∀ {wall result}, parseWebhook T wall payload = .ok result →
      ∃ values, iterValues payload = .ok values ∧
        result.messages.map (·.whatsappId) = values.flatMap (valueIds T) := by
    intro wall result h
    obtain ⟨values, hvalues, h⟩ := bind_eq_ok.mp h
    obtain ⟨parsed, hparsed, h⟩ := bind_eq_ok.mp h
    obtain rfl := Except.ok.inj h
    exact ⟨values, hvalues, ids_flatten (mapM_eq_ok.mp hparsed)⟩
  obtain ⟨values, hvalues, hmap⟩ := hids h
  obtain ⟨values', hvalues', hmap'⟩ := hids h'
  rw [hmap, hmap', Except.ok.inj (hvalues.symm.trans hvalues')]

end ids

/-- The second input sends the same body under the same header, or the same token. When it comes, and
what it meets, may differ. -/
inductive Repeats : Input → Input → Prop
  | inbound (body : Bytes) (signature : Option String) (now now' : Instant)
      (wall wall' : Json → Instant) (handling handling' : ℕ → Handling) :
      Repeats (.inbound body signature now wall handling)
        (.inbound body signature now' wall' handling')
  | hitlAction (token : String) (feedback feedback' : Option String)
      (resolvedAt resolvedAt' appliedAt appliedAt' : Instant) (env env' : External) :
      Repeats (.hitlAction token feedback resolvedAt appliedAt env)
        (.hitlAction token feedback' resolvedAt' appliedAt' env')

/-- The body is accepted, or the link resolves to an action on a request that exists. -/
def Heard (ctx : AppContext) (s : State) : Input → Prop
  | .inbound body signature now wall handling =>
    Succeeds (inbound ctx body signature now wall handling s).1
  | .hitlAction token feedback resolvedAt _ _ => ∃ a,
      ctx.notifications.resolveAction token resolvedAt feedback = .ok a ∧
        s.world.repo.requests a.requestId ≠ none
  | _ => False

/-- The messages of the body are claimed, or the click is on record. -/
def Dealt (ctx : AppContext) (s : State) : Input → Prop
  | .inbound body signature _ _ _ => ∀ wall messages,
      ctx.ingestion.messagesOf body signature wall = .ok messages →
        ∀ parsed ∈ messages, parsed.whatsappId ∈ s.seen
  | .hitlAction token _ _ _ _ => s.world.repo.interactions (actionId token) ≠ none
  | _ => True

section noise

variable {ctx : AppContext} {s : State}

theorem idle_of_dealt {c c' : Input} (h : Dealt ctx s c) (hc : Repeats c c') : Idle ctx s c' := by
  cases hc with
  | inbound body signature now now' wall wall' => exact h wall'
  | hitlAction token =>
    intro a ha
    right
    rw [NotificationService.actionId_of_resolved ha]
    exact h

theorem dealt_of_heard {c : Input} (h : Heard ctx s c) : Dealt ctx (step ctx s c) c := by
  cases c with
  | health | verify | tick => exact h.elim
  | inbound body signature now wall handling =>
    intro wall' messages' hmessages'
    change ∀ parsed ∈ messages', parsed.whatsappId ∈
      (inbound ctx body signature now wall handling s).2.seen
    rw [inbound_state]
    obtain ⟨accepted, hreceive⟩ : Succeeds (ctx.ingestion.receive body signature now wall handling s).1 := by
      obtain ⟨answer, hanswer⟩ := h
      unfold inbound at hanswer
      split at hanswer
      · rename_i accepted s' hreceive
        exact ⟨accepted, congrArg Prod.fst hreceive⟩
      all_goals cases hanswer
    unfold IngestionService.receive at hreceive ⊢
    cases hmessages : ctx.ingestion.messagesOf body signature wall with
    | error exc =>
      rw [hmessages] at hreceive
      cases hreceive
    | ok messages =>
      rw [hmessages] at hreceive
      dsimp only at hreceive ⊢
      have hseen := IngestionService.seen_of_acceptAll (Prod.ext hreceive rfl)
      obtain ⟨-, payload, hpayload, result, hresult, rfl⟩ :=
        IngestionService.messagesOf_eq_ok.mp hmessages
      obtain ⟨-, payload', hpayload', result', hresult', rfl⟩ :=
        IngestionService.messagesOf_eq_ok.mp hmessages'
      obtain rfl := Except.ok.inj (hpayload.symm.trans hpayload')
      intro parsed hparsed
      have hid : parsed.whatsappId ∈ result.messages.map (·.whatsappId) := by
        rw [ids_parseWebhook hresult hresult']
        exact List.mem_map_of_mem hparsed
      obtain ⟨first, hfirst, hsame⟩ := List.mem_map.mp hid
      rw [← hsame]
      exact hseen first hfirst
  | hitlAction token feedback resolvedAt appliedAt env =>
    obtain ⟨a, ha, hpresent⟩ := h
    change (hitlAction ctx token feedback resolvedAt appliedAt env s).2.world.repo.interactions _ ≠ none
    unfold hitlAction
    rw [ha]
    dsimp only
    rw [applyAction_state, interactions_action, ← NotificationService.actionId_of_resolved ha]
    split_ifs with hnew
    · rw [Function.update_self]
      exact Option.some_ne_none _
    · exact fun hfresh => hnew ⟨hpresent, hfresh⟩

theorem Dealt.step (hctx : Wired ctx) {c : Input} (h : Dealt ctx s c) (d : Input) :
    Dealt ctx (step ctx s d) c := by
  cases c with
  | health | verify | tick => trivial
  | inbound body signature now wall handling =>
    intro wall' messages hmessages parsed hparsed
    exact subset_step d (h wall' messages hmessages parsed hparsed)
  | hitlAction token feedback resolvedAt appliedAt env =>
    obtain ⟨es, hworld, -⟩ := step_events (s := s) hctx d
    change (Api.step ctx s d).world.repo.interactions (actionId token) ≠ none
    rw [hworld]
    refine run_keeps (I := fun w : World => w.repo.interactions (actionId token) ≠ none)
      (fun w e hw => ?_) h es
    cases e with
    | call c => exact recorded_step w c hw
    | inbound messageId mediaId source =>
      have hrepo : (happens ctx w (.inbound messageId mediaId source)).repo = w.repo :=
        (inbound_world _ _ _ w messageId mediaId source).1
      rwa [hrepo]

theorem dealt_run (hctx : Wired ctx) {before after : List Input} {c : Input}
    (h : Heard ctx (run (step ctx) s before) c) :
    Dealt ctx (run (step ctx) s (before ++ c :: after)) c := by
  rw [run_append, run_cons]
  exact run_keeps (I := fun s => Dealt ctx s c) (fun _ d hs => hs.step hctx d) (dealt_of_heard h)
    after

end noise

/-- **Noise is invisible.** Inputs are inserted into a run of the application, each marked `true`: it
is idle where it comes, or it repeats one that was heard before it. Then the run goes through the same
states, so that every other input is answered as it was without them, and does the same. -/
theorem noise_invisible (settings : Settings) (secrets : Secrets) (platform : Platform)
    (clients : List Client) (idFactory : ℕ → String) (ds : List (Input × Bool))
    (hnoise : ∀ pre c post, ds = pre ++ (c, true) :: post →
      let ctx := buildApp settings secrets platform clients idFactory
      Idle ctx (run (step ctx) State.initial (originals pre)) c ∨
        ∃ before c' after, originals pre = before ++ c' :: after ∧ Repeats c' c ∧
          Heard ctx (run (step ctx) State.initial before) c') :
    let ctx := buildApp settings secrets platform clients idFactory
    ∀ pre, pre <+: ds → run (step ctx) State.initial (pre.map Prod.fst) =
      run (step ctx) State.initial (originals pre) := by
  rintro ctx pre ⟨rest, rfl⟩
  refine run_originals fun before c after hpre _ => ?_
  refine (unchanged_iff ctx _ c).mpr ?_
  have hinserted := hnoise before c (after ++ rest) (by rw [hpre, List.append_assoc, List.cons_append])
  rcases hinserted with hidle | ⟨earlier, c', later, horiginals, hrepeats, hheard⟩
  · exact hidle
  · have hdealt : Dealt ctx (run (step ctx) State.initial (earlier ++ c' :: later)) c' :=
      dealt_run (wired_buildApp settings secrets platform clients idFactory) hheard
    rw [horiginals]
    exact idle_of_dealt hdealt hrepeats

namespace Sample

open Orchestrator.Sample Ingestion.Sample

/-- The morning, with a look at its health and the body sent again. -/
def noisy : List (Input × Bool) :=
  [(arrives start, false), (.health, true), (arrives (start + seconds 60), true),
    (ticks (start + seconds 600), false)]

theorem heard_arrives : Heard asked State.initial (arrives start) := by
  change Succeeds (inbound asked (utf8 "price") (signed "price") start (fun _ => start)
    (fun _ => handling) State.initial).1
  unfold inbound
  rw [IngestionService.receive_eq (messagesOf_price start)]
  exact succeeds_ok _

end Sample

open Sample in
/-- The noisy morning ends as the morning does. -/
theorem noise_invisible_morning :
    run (step (buildApp Bootstrap.Sample.settings secrets asking [] idFactory)) State.initial
        (noisy.map Prod.fst) =
      run (step (buildApp Bootstrap.Sample.settings secrets asking [] idFactory)) State.initial
        (originals noisy) := by
  refine noise_invisible Bootstrap.Sample.settings secrets asking [] idFactory noisy ?_ noisy
    List.prefix_rfl
  intro pre c post h
  rcases pre with _ | ⟨d, _ | ⟨d', _ | ⟨d'', _ | ⟨e, pre⟩⟩⟩⟩
  · cases h
  · cases h
    exact .inl trivial
  · cases h
    exact .inr ⟨[], _, [], rfl, .inbound .., heard_arrives⟩
  · cases h
  · simp [noisy] at h

end WappPlanner.Api
