import WappPlanner.Api.AtMostOnce
import WappPlanner.Orchestrator.Ledger

/-! # Who caused what

Whatever the application did was asked for by somebody who holds the app secret. A message of a request
was read from a body whose signature names the secret's digest (`Authentic`), an owner's decision on
record was clicked with a token that the secret signed and that was still valid then, and every
generation and every completed request has such a decision of its own (`authentic_run`). So what the
application spends is bounded by the batches it took up and the decisions on record
(`spending_bounded`). -/

namespace WappPlanner.Api

open WappPlanner.Aggregation WappPlanner.Bootstrap WappPlanner.Domain.Enums
open WappPlanner.Domain.Models WappPlanner.Errors WappPlanner.Hitl.Service
open WappPlanner.Hitl.Tokens WappPlanner.Ingestion WappPlanner.Ingestion.Parser
open WappPlanner.Ingestion.Signature WappPlanner.Lib WappPlanner.Lib.Fallible
open WappPlanner.Lib.Programs WappPlanner.Lib.Runs WappPlanner.Orchestrator
open WappPlanner.Orchestrator.Links WappPlanner.Py.Text WappPlanner.Py.Values
open WappPlanner.Workflow.Enums WappPlanner.Workflow.StateMachine

/-! ### Messages -/

/-- The message was built of a parsed one, and numbered in its bucket. -/
def BuiltFrom (p : ParsedMessage) (m : Message) : Prop :=
  ∃ rawRef built order, messageOf p rawRef = .ok built ∧ m = { built with order := order }

/-- All messages that the service took up and did not lose were built of messages in `F`. -/
structure Authentic (F : ParsedMessage → Prop) (s : State) : Prop where
  open_ : ∀ key bucket, s.aggregator.openBuckets.get key = some bucket →
    ∀ m ∈ bucket.messages, ∃ p, F p ∧ BuiltFrom p m
  handed : ∀ b ∈ s.handed, ∀ m ∈ b.aggregated.messages, ∃ p, F p ∧ BuiltFrom p m

section messages

variable {service : IngestionService} {F : ParsedMessage → Prop} {s t : State} {now : Instant}

theorem Authentic.congr (h : Authentic F s) (haggregator : t.aggregator = s.aggregator)
    (hhanded : t.handed = s.handed) : Authentic F t :=
  ⟨haggregator ▸ h.open_, hhanded ▸ h.handed⟩

theorem Authentic.process {handling : Handling} {aggregated : AggregatedRequest}
    (h : Authentic F s) (hbuilt : ∀ m ∈ aggregated.messages, ∃ p, F p ∧ BuiltFrom p m) :
    Authentic F (service.process handling aggregated now s).2 := by
  rcases service.process_cases handling aggregated now s with ⟨exc, -, hp⟩ | ⟨media, -, hp⟩
  · rw [hp]
    exact h
  · rw [hp]
    refine ⟨h.open_, fun b hb => ?_⟩
    rcases List.mem_append.mp hb with hb | hb
    · exact h.handed b hb
    · rw [List.mem_singleton.mp hb]
      exact hbuilt

theorem Authentic.addMessage {handling : Handling} {key : String} {p : ParsedMessage}
    {rawRef : Option String} {message : Message} (h : Authentic F s) (hp : F p)
    (hmessage : messageOf p rawRef = .ok message) :
    Authentic F (service.addMessage handling key message now s).2 := by
  have hput : Authentic F
      (s.withAggregator (s.aggregator.add service.windows key message now).2) := by
    refine ⟨fun key' bucket hb m hm => ?_, h.handed⟩
    have hb' : (s.aggregator.add service.windows key message now).2.openBuckets.get key' =
      some bucket := hb
    rw [Aggregator.get_add] at hb'
    split_ifs at hb' with hkey
    · obtain rfl := Option.some.inj hb'
      rcases Aggregator.mem_joined hm with ⟨old, hold, hm⟩ | ⟨order, rfl⟩
      · exact h.open_ key old hold m hm
      · exact ⟨p, hp, rawRef, message, order, hmessage, rfl⟩
    · exact h.open_ key' bucket hb' m hm
  rcases service.addMessage_cases handling key message now s with hadd | ⟨bucket, hdue, hadd⟩
  · rw [hadd]
    exact hput
  · rw [hadd]
    refine hput.process fun m hm => ?_
    exact h.open_ key bucket (Option.filter_eq_some_iff.mp hdue).1 m hm

theorem Authentic.accept {handling : Handling} {p : ParsedMessage} (h : Authentic F s) (hp : F p) :
    Authentic F (service.accept handling p now s).2 := by
  unfold IngestionService.accept
  have hclaimed : Authentic F ((s.claim p).resolved service.registry p) := h.congr rfl rfl
  generalize (s.claim p).resolved service.registry p = s₁ at hclaimed ⊢
  obtain ⟨world, downloads, hdownload⟩ := service.download_eq handling s₁ p
  dsimp only
  generalize service.download handling p s₁ = downloaded at hdownload ⊢
  obtain ⟨rawRef, s₂⟩ := downloaded
  dsimp only at hdownload ⊢
  subst hdownload
  have hdownloaded : Authentic F { s₁ with world := world, downloads := downloads } :=
    hclaimed.congr rfl rfl
  split
  · exact hdownloaded
  · rename_i message hmessage
    exact hdownloaded.addMessage hp hmessage

theorem Authentic.flushDue {handling : ℕ → Handling} (h : Authentic F s) :
    Authentic F (service.flushDue now handling s).2 := by
  unfold IngestionService.flushDue
  refine service.processAll_inv (I := Authentic F)
    (Q := fun aggregated _ => ∀ m ∈ aggregated.messages, ∃ p, F p ∧ BuiltFrom p m)
    (fun _ _ _ hs hbuilt => hs.process hbuilt) (fun _ _ _ _ hbuilt => hbuilt) ?_ fun r hr => ?_
  · exact ⟨fun key bucket hb => h.open_ key bucket (Aggregator.open_of_flushDue hb), h.handed⟩
  · obtain ⟨key, bucket, hopen, rfl⟩ := Aggregator.open_of_mem_flushDue hr
    exact h.open_ key bucket hopen

end messages

/-- The message was read from a body that is among the inputs, under a header that names the digest of
the body. -/
def Signed (ctx : AppContext) (cs : List Input) (p : ParsedMessage) : Prop :=
  ∃ body now wall handling,
    Input.inbound body (some (signaturePrefix ++ digest body ctx.ingestion.appSecret)) now wall
      handling ∈ cs ∧
    ∃ payload, ctx.ingestion.loads body = .ok payload ∧
      ∃ result, parseWebhook ctx.ingestion.tables wall payload = .ok result ∧ p ∈ result.messages

theorem header_of_valid {body : Bytes} {header : Option String} {secret : String}
    (h : isValidSignature body header secret = .ok true) :
    header = some (signaturePrefix ++ digest body secret) := by
  by_cases hstart : ∃ provided, header = some (signaturePrefix ++ provided)
  · obtain ⟨provided, rfl⟩ := hstart
    rw [isValidSignature_sha256] at h
    rw [eq_of_compareDigest h]
  · rw [isValidSignature_other fun provided hp => hstart ⟨provided, hp⟩] at h
    cases h

section runs

variable {ctx : AppContext} {s : State} {cs : List Input}

theorem authentic_step {input : Input} (hinput : input ∈ cs) (h : Authentic (Signed ctx cs) s) :
    Authentic (Signed ctx cs) (step ctx s input) := by
  cases input with
  | health | verify => exact h
  | hitlAction token feedback resolvedAt appliedAt env =>
    have hcases := @step_cases ctx s (.hitlAction token feedback resolvedAt appliedAt env)
    rcases hcases with ⟨call, hcall, -⟩ | ⟨a, now, env, -, -, hstep⟩ | ⟨-, -, hstep⟩
    · cases hcall
    · rw [hstep]
      exact h.congr rfl rfl
    · rw [hstep]
      exact h
  | tick now handling => exact h.flushDue
  | inbound body signature now wall handling =>
    change Authentic _ (inbound ctx body signature now wall handling s).2
    rw [inbound_state]
    unfold IngestionService.receive
    cases hmessages : ctx.ingestion.messagesOf body signature wall with
    | error exc => exact h
    | ok messages =>
      obtain ⟨hvalid, payload, hpayload, result, hresult, rfl⟩ :=
        IngestionService.messagesOf_eq_ok.mp hmessages
      obtain rfl := header_of_valid hvalid
      refine IngestionService.acceptAll_keeps (fun handling' p hp t ht _ => ?_) h
      exact ht.accept ⟨body, now, wall, handling, hinput, payload, hpayload, result, hresult, hp⟩

theorem authentic_app (cs : List Input) :
    Authentic (Signed ctx cs) (run (step ctx) State.initial cs) := by
  have hinitial : Authentic (Signed ctx cs) State.initial := by
    refine ⟨fun key bucket hb => ?_, fun b hb => ?_⟩
    · have hnone : (none : Option OpenBucket) = some bucket := hb
      cases hnone
    · have hnil : b ∈ ([] : List Batch) := hb
      cases hnil
  refine run_inv (C := fun _ c => c ∈ cs) (fun s c hs hc => authentic_step hc hs) hinitial ?_
  exact along_iff.mpr fun pre c post hcs => hcs ▸ List.mem_append_right _ List.mem_cons_self

/-! ### Decisions -/

/-- A click among the inputs: its token was signed with the app secret and valid at the time, and says
what is on record under the digest of the token. -/
def ClickedIn (ctx : AppContext) (cs : List Input) (id : String) (i : OwnerInteraction) : Prop :=
  ∃ token feedback resolvedAt appliedAt env,
    Input.hitlAction token feedback resolvedAt appliedAt env ∈ cs ∧ id = actionId token ∧
      (∃ payload, token = payload ++ "." ++ ctx.notifications.signer.sign payload) ∧
        ∃ t, ctx.notifications.signer.verify token resolvedAt = .ok t ∧
          i = ⟨id, t.requestId, t.gate, t.decision⟩

theorem signed_of_verify {signer : TokenSigner} {raw : String} {now : Instant} {t : ActionToken}
    (h : signer.verify raw now = .ok t) : ∃ payload, raw = payload ++ "." ++ signer.sign payload := by
  unfold TokenSigner.verify at h
  split at h
  · rename_i p q hsplit
    split at h
    · cases h
    · cases h
    · rename_i hsign
      refine ⟨String.ofList p, ?_⟩
      rw [eq_of_splitOn_dot hsplit, eq_of_compareDigest hsign]
  · cases h

theorem clicked_of_resolved {input : Input} (hinput : input ∈ cs) {a : OwnerAction}
    (h : input.resolved ctx = some a) : ClickedIn ctx cs a.actionId (interactionOf a) := by
  cases input with
  | hitlAction token feedback resolvedAt appliedAt env =>
    unfold Input.resolved at h
    dsimp only at h
    cases hresolve : ctx.notifications.resolveAction token resolvedAt feedback with
    | error exc =>
      rw [hresolve] at h
      cases h
    | ok a' =>
      rw [hresolve] at h
      obtain rfl := Option.some.inj h
      obtain ⟨t, ht, ha⟩ := bind_eq_ok.mp hresolve
      obtain rfl := Except.ok.inj ha
      exact ⟨token, feedback, resolvedAt, appliedAt, env, hinput, rfl, signed_of_verify ht, t, ht,
        rfl⟩
  | _ => cases h

theorem clicked_of_recorded {calls : List Call}
    (hactions : actionsOf calls = cs.filterMap (Input.resolved ctx)) {id : String}
    {i : OwnerInteraction}
    (h : (run (Orchestrator.step ctx.orchestrator) World.initial calls).repo.interactions id =
      some i) : ClickedIn ctx cs id i := by
  obtain ⟨a, now, env, hmem, rfl, rfl⟩ := recorded_run h
  have ha : a ∈ actionsOf calls := List.mem_filterMap.mpr ⟨_, hmem, rfl⟩
  rw [hactions] at ha
  obtain ⟨input, hinput, hresolved⟩ := List.mem_filterMap.mp ha
  exact clicked_of_resolved hinput hresolved

theorem kept_app (hctx : Wired ctx) (hids : Function.Injective ctx.ingestion.windows.idFactory)
    (cs : List Input) :
    let s := run (step ctx) State.initial cs
    Kept ctx.orchestrator (s.handed.map (·.aggregated.requestId)).toFinset s.handed.length s.world ∧
      ∀ id i, s.world.repo.interactions id = some i → ClickedIn ctx cs id i := by
  intro s
  obtain ⟨es, hworld, hnodup, hbatches, hactions⟩ := initial_events hctx hids cs
  have hagree := agree_run ctx.orchestrator ctx.ingestion.downloader ctx.ingestion.tables es
    (Agree.refl World.initial)
  have hingested : ingestIds (es.filterMap Event.call?) =
      s.handed.map (·.aggregated.requestId) := by
    rw [← hbatches, ← ingested_eq]
    rfl
  have hkept : Kept ctx.orchestrator (s.handed.map (·.aggregated.requestId)).toFinset
      (ingestIds (es.filterMap Event.call?)).length
        (run (Orchestrator.step ctx.orchestrator) World.initial (es.filterMap Event.call?)) :=
    kept_run hnodup fun rid hrid => List.mem_toFinset.mpr (hingested ▸ hrid)
  rw [hingested, List.length_map] at hkept
  have hsame : s.world = run (happen ctx.orchestrator ctx.ingestion.downloader
    ctx.ingestion.tables) World.initial es := hworld
  rw [← hsame] at hagree
  refine ⟨hkept.congr hagree.repo.symm hagree.llmCalls.symm, fun id i hi => ?_⟩
  have hactions' : actionsOf (es.filterMap Event.call?) = cs.filterMap (Input.resolved ctx) := by
    rw [actionsOf_calls, hactions]
  refine clicked_of_recorded hactions' ?_
  rw [hagree.repo]
  exact hi

end runs

/-- **Everything that was done was asked for**, in every run, whatever raises. Each message of a
request was read from a body whose header names its digest; each decision on record was clicked, under
a token that the secret signed and that was valid then; each generation that was started has a
confirmation or a request for revision of its own on record; and what is completed has an approval on
record. -/
theorem authentic_run (settings : Settings) (secrets : Secrets) (platform : Platform)
    (clients : List Client) (idFactory : ℕ → String) (hids : Function.Injective idFactory)
    (cs : List Input) :
    let ctx := buildApp settings secrets platform clients idFactory
    let w := (run (step ctx) State.initial cs).world
    (∀ rid, ∀ m ∈ w.repo.messages rid, ∃ p, Signed ctx cs p ∧ BuiltFrom p m) ∧
      (∀ id i, w.repo.interactions id = some i → ClickedIn ctx cs id i) ∧
        (∀ rid, ∃ ids, ids.length = generations w rid ∧ OnRecord w rid ids) ∧
          ∀ rid, stateOf w rid = some .completed →
            ∃ id i, w.repo.interactions id = some i ∧ i.requestId = rid ∧ i.decision = .approve := by
  intro ctx w
  have hctx : Wired ctx := wired_buildApp settings secrets platform clients idFactory
  obtain ⟨hkept, hclicked⟩ := kept_app hctx hids cs
  obtain ⟨hbacked, -⟩ := messages_run hctx hids cs
  refine ⟨fun rid m hm => ?_, hclicked, hkept.evidenced, hkept.approved⟩
  obtain ⟨b, hb, -, hmessages⟩ := hbacked rid (List.ne_nil_of_mem hm)
  have hm' : m ∈ b.aggregated.messages := hmessages ▸ hm
  exact (authentic_app cs).handed b hb m hm'

open Sample in
theorem authentic_run_morning :
    let ctx := buildApp Bootstrap.Sample.settings secrets asking [] idFactory
    let w := (run (step ctx) State.initial morning).world
    (∀ rid, ∀ m ∈ w.repo.messages rid, ∃ p, Signed ctx morning p ∧ BuiltFrom p m) ∧
      (∀ id i, w.repo.interactions id = some i → ClickedIn ctx morning id i) ∧
        (∀ rid, ∃ ids, ids.length = generations w rid ∧ OnRecord w rid ids) ∧
          ∀ rid, stateOf w rid = some .completed →
            ∃ id i, w.repo.interactions id = some i ∧ i.requestId = rid ∧ i.decision = .approve :=
  authentic_run Bootstrap.Sample.settings secrets asking [] idFactory injective_idFactory morning

/-- **What the application spends is bounded** by what was asked for: over any run it asks the model
for at most one completion for each request that was handed over, and three for each of some distinct
clicks on record, each a confirmation or a request for revision of such a request. -/
theorem spending_bounded (settings : Settings) (secrets : Secrets) (platform : Platform)
    (clients : List Client) (idFactory : ℕ → String) (hids : Function.Injective idFactory)
    (cs : List Input) :
    let s := run (step (buildApp settings secrets platform clients idFactory)) State.initial cs
    ∃ clicks : List String, clicks.Nodup ∧
      (∀ id ∈ clicks, ∃ i, s.world.repo.interactions id = some i ∧
        i.requestId ∈ s.handed.map (·.aggregated.requestId) ∧
          (i.decision = .confirm ∨ i.decision = .revise)) ∧
      s.world.llmCalls.length ≤ s.handed.length + 3 * clicks.length := by
  intro s
  obtain ⟨hkept, -⟩ := kept_app (wired_buildApp settings secrets platform clients idFactory) hids cs
  obtain ⟨clicks, hnodup, hlength, hclicks⟩ :=
    hkept.evidenced.clicks (s.handed.map (·.aggregated.requestId)).toFinset
  refine ⟨clicks, hnodup, fun id hid => ?_, hlength ▸ hkept.spent⟩
  obtain ⟨i, hi, hmem, hstarts⟩ := hclicks id hid
  have hdecision : i.decision = .confirm ∨ i.decision = .revise := by
    simpa [startsPipeline] using hstarts
  exact ⟨i, hi, List.mem_toFinset.mp hmem, hdecision⟩

open Sample in
theorem spending_bounded_morning :
    let s := run (step (buildApp Bootstrap.Sample.settings secrets asking [] idFactory))
      State.initial morning
    ∃ clicks : List String, clicks.Nodup ∧
      (∀ id ∈ clicks, ∃ i, s.world.repo.interactions id = some i ∧
        i.requestId ∈ s.handed.map (·.aggregated.requestId) ∧
          (i.decision = .confirm ∨ i.decision = .revise)) ∧
      s.world.llmCalls.length ≤ s.handed.length + 3 * clicks.length :=
  spending_bounded Bootstrap.Sample.settings secrets asking [] idFactory injective_idFactory morning

end WappPlanner.Api
