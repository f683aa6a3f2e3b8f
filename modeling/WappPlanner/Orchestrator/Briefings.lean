import WappPlanner.Documents.Retries
import WappPlanner.Media.Captions
import WappPlanner.Orchestrator.Context
import WappPlanner.Orchestrator.Ledger
import WappPlanner.Orchestrator.Mailings

/-! # What the model is asked

A completion is asked for to classify the transcript of a batch, or to write a document about it
when the owner decided so. No prompt is about two requests: the transcript, the name, the feedback
and the document to improve are those of one (`informed_run`), and what its client wrote stands in
the prompt (`Briefing.occurs_text`).

* `Briefing`: what is asked about a batch, given the actions applied and what is on record.
* `Continued`: no request of a world says anything of its client that it did not say before.
* `Informed`: every request has the transcript of its batch, and every prompt is a briefing.
* `Stored`: the request of the batch has a transcript, where no id is used twice. -/

namespace WappPlanner.Orchestrator

open WappPlanner.Documents.Generation WappPlanner.Documents.Generation.Generator
open WappPlanner.Domain.Models WappPlanner.Errors WappPlanner.Hitl.Service
open WappPlanner.Lib.Fallible WappPlanner.Lib.Programs WappPlanner.Lib.Runs WappPlanner.Lib.Text
open WappPlanner.Media
open WappPlanner.Media.Processor WappPlanner.Media.Transcript WappPlanner.Nlp.Classification
open WappPlanner.Nlp.Prompts WappPlanner.Persistence.InMemory WappPlanner.Providers.Base
open WappPlanner.Py.Text WappPlanner.Py.Values WappPlanner.Workflow.Enums
open WappPlanner.Workflow.StateMachine

/-- What the media processor may make of a batch, as its providers answer. -/
def Transcribes (cfg : Config) (b : Batch) (transcript : String) : Prop :=
  ∃ env : External, (transcriptOf cfg env b).render = transcript

/-- The prompt that classifies a transcript. -/
def classifyCall (cfg : Config) (system transcript : String) : LLMCall :=
  ⟨system, userPrompt transcript, cfg.classifier.model, 0⟩

/-- **What the model is asked about a batch**: to classify its transcript, or to write a document
about it, for an action that is on record. A revision may show a document that is in the log of the
request. -/
inductive Briefing (cfg : Config) (applied : OwnerAction → Prop) (w : World) (b : Batch)
    (transcript : String) : LLMCall → Prop
  | classification (system : String)
      (hsystem : classificationSystemPrompt cfg.classifier.promptVersion = .ok system) :
      Briefing cfg applied w b transcript (classifyCall cfg system transcript)
  | generation (a : OwnerAction) (happlied : applied a)
      (hrequest : a.requestId = b.aggregated.requestId)
      (hstarts : startsPipeline a.decision = true)
      (hrecord : w.repo.interactions a.actionId = some (interactionOf a))
      (intent : Intent) (args : GenerateArgs) (htranscript : args.transcript = transcript)
      (hname : args.clientName = b.request.displayName) (hfeedback : args.feedback = feedbackOf a)
      (hprevious : ∀ content, args.previousContent = some content → a.decision = .revise ∧
        ∃ revision ∈ w.repo.revisions a.requestId, revision.structuredContent = content)
      (call : LLMCall) (hcall : cfg.generator.prompts intent args = .ok call) :
      Briefing cfg applied w b transcript call

section prompts

variable {cfg : Config} {applied applied' : OwnerAction → Prop} {w w' : World} {b : Batch}
  {env : External} {transcript : String} {call : LLMCall}

theorem Briefing.mono (h : Briefing cfg applied w b transcript call)
    (happlied : ∀ a, applied a → applied' a)
    (hrecord : ∀ id i, w.repo.interactions id = some i → w'.repo.interactions id = some i)
    (hrevisions : ∀ rid, w.repo.revisions rid ⊆ w'.repo.revisions rid) :
    Briefing cfg applied' w' b transcript call := by
  cases h with
  | classification system hsystem => exact .classification system hsystem
  | generation a ha hrid hstarts hrec intent args htranscript hname hfeedback hprevious _ hcall =>
    refine .generation a (happlied a ha) hrid hstarts (hrecord _ _ hrec) intent args htranscript
      hname hfeedback (fun content hcontent => ?_) call hcall
    obtain ⟨hd, revision, hmem, hsame⟩ := hprevious content hcontent
    exact ⟨hd, revision, hrevisions _ hmem, hsame⟩

/-! ### What stands in a prompt -/

theorem occurs_userPrompt (transcript : String) : Occurs transcript (userPrompt transcript) :=
  ((occurs_append_right _ _).append_left _).append_left _

theorem occurs_transcript {generator : Generator} {intent : Intent} {args : GenerateArgs}
    (h : generator.prompts intent args = .ok call) : Occurs args.transcript call.user := by
  unfold prompts at h
  obtain ⟨system, -, h⟩ := bind_eq_ok.mp h
  obtain ⟨user, huser, h⟩ := bind_eq_ok.mp h
  obtain rfl := Except.ok.inj h
  unfold buildUserPrompt at huser
  split at huser
  · cases huser
  · obtain rfl := Except.ok.inj huser
    have hpart : Occurs args.transcript ("Request transcript:\n" ++ args.transcript) :=
      occurs_append_right _ _
    exact hpart.trans (occurs_intercalate (by simp))

theorem Briefing.occurs (h : Briefing cfg applied w b transcript call) :
    Occurs transcript call.user := by
  cases h with
  | classification system => exact occurs_userPrompt transcript
  | generation a ha hrid hstarts hrec intent args htranscript hname hfeedback hprevious _ hcall =>
    exact htranscript ▸ occurs_transcript hcall

/-- **What the client wrote stands in every prompt about the batch.** -/
theorem Briefing.occurs_text (h : Briefing cfg applied w b transcript call)
    (htranscribes : Transcribes cfg b transcript) {m : Message} (hm : m ∈ b.aggregated.messages)
    (htype : m.type = .text) : Occurs (orEmpty m.text) call.user := by
  obtain ⟨env, rfl⟩ := htranscribes
  have hsorted : m ∈ inOrder b.aggregated.messages :=
    (perm_inOrder b.aggregated.messages).mem_iff.mpr hm
  obtain ⟨n, hn⟩ := List.getElem?_of_mem hsorted
  have htext : Occurs (orEmpty m.text) (transcriptOf cfg env b).render :=
    Captions.occurs_text hn htype
  exact htext.trans h.occurs

end prompts

/-! ### What a request says of its client -/

/-- The requests agree on the transcript and on the name of the client. -/
structure SameClient (r r' : Request) : Prop where
  transcript : r'.normalizedTranscript = r.normalizedTranscript
  name : r'.displayName = r.displayName

theorem SameClient.refl (r : Request) : SameClient r r := ⟨rfl, rfl⟩

/-- Each request of `w'` agrees with the one that `w` has under its id. -/
def Continued (w w' : World) : Prop :=
  ∀ rid r', w'.repo.requests rid = some r' →
    ∃ r, w.repo.requests rid = some r ∧ SameClient r r'

section continued

variable {cfg : Config} {w w' : World} {r x : Request} {env : External}

theorem Continued.refl (w : World) : Continued w w := fun _ r' hr' => ⟨r', hr', .refl r'⟩

/-- Only the requests count. -/
theorem Continued.congr {w'' : World} (h : Continued w w')
    (hrequests : w''.repo.requests = w'.repo.requests) : Continued w w'' := by
  intro rid r' hr'
  rw [hrequests] at hr'
  exact h rid r' hr'

theorem Continued.saved (h : Continued w w') (hx : SameClient r x)
    (hr : w.repo.requests x.id = some r) : Continued w (w'.saved x) := by
  intro rid r' hr'
  rw [World.repo_saved, Repository.requests_saveRequest] at hr'
  split_ifs at hr' with hid
  · obtain rfl := Option.some.inj hr'
    exact ⟨r, hid ▸ hr, hx⟩
  · exact h rid r' hr'

theorem continued_pipeline {now : Instant} {feedback : Option String} {previous : Option Json}
    {o : Outcome Op World Exn Request} (h : Continued w w') (hx : SameClient r x)
    (hr : w.repo.requests x.id = some r)
    (ho : PipelineOutcome cfg env x now feedback previous w' o) : Continued w o.state := by
  cases ho with
  | failed =>
    have hfailed : SameClient r (x.moved .failed now) := ⟨hx.transcript, hx.name⟩
    exact (h.congr rfl).saved hfailed hr
  | stopped exc w'' trace hgen hexc hrepo =>
    refine h.congr ?_
    rw [hrepo]
  | made p hp =>
    have hmoved : SameClient r ((bumped x).moved .rendering now) := ⟨hx.transcript, hx.name⟩
    have hdelivered : SameClient r (delivered x now) := ⟨hx.transcript, hx.name⟩
    have hlogged : Continued w (madeWorld cfg env x now feedback previous p w') :=
      ((h.congr rfl).saved hmoved hr).saved hdelivered hr
    exact hlogged.congr rfl

/-- **An action leaves transcripts and names as they are.** -/
theorem continued_action (hw : Wf w) (a : OwnerAction) (now : Instant) (env : External) :
    Continued w (step cfg w (.action a now env)) := by
  have ho := action_outcome cfg w a now env
  unfold step
  generalize outcome cfg w (.action a now env) = o at ho ⊢
  cases ho with
  | unknown | duplicate => exact .refl w
  | refused => exact (Continued.refl w).congr rfl
  | accepted r hr hfresh hgate o ho =>
    have hr' : w.repo.requests r.id = some r := hw.id_eq hr ▸ hr
    have hsame : SameClient r (r.moved (target a.decision) now) := ⟨rfl, rfl⟩
    have hmoved : Continued w (acceptedWorld a r now w) :=
      ((Continued.refl w).congr rfl).saved hsame hr'
    cases ho with
    | settled => exact hmoved
    | unnamed =>
      have hunnamed : SameClient r (withIntent (r.moved (target a.decision) now) none) := ⟨rfl, rfl⟩
      exact hmoved.saved hunnamed hr'
    | corrected hd intent =>
      have hnamed : SameClient r (withIntent (r.moved (target a.decision) now) (some intent)) :=
        ⟨rfl, rfl⟩
      exact (hmoved.saved hnamed hr').congr rfl
    | pipeline hd lookups hlookups o ho =>
      have hworked : Continued w o.state := continued_pipeline hmoved hsame hr' ho
      exact hworked

variable (cfg w) in
/-- What an ingest leaves: the request of the batch, with its transcript, and the prompt that
classified it. -/
theorem ingested_request (b : Batch) (env : External) :
    (∃ r, (step cfg w (.ingest b env)).repo.requests b.aggregated.requestId = some r ∧
      r.normalizedTranscript = some (transcriptOf cfg env b).render ∧
        r.displayName = b.request.displayName) ∧
    (step cfg w (.ingest b env)).llmCalls = w.llmCalls ++ (classification cfg env b).2 := by
  have ho := ingest_outcome cfg w b env
  unfold step
  generalize outcome cfg w (.ingest b env) = o at ho ⊢
  cases ho with
  | unclassified exc =>
    have hr : (enteredWorld cfg env b w).repo.requests b.aggregated.requestId =
      some (classifying cfg env b) := requests_saved _ (classifying cfg env b) rfl
    exact ⟨⟨_, hr, rfl, rfl⟩, rfl⟩
  | silent result | told result =>
    have hr : ((enteredWorld cfg env b w).saved (settledRequest cfg env b result)).repo.requests
      b.aggregated.requestId = some (settledRequest cfg env b result) := requests_saved _ _ rfl
    exact ⟨⟨_, hr, rfl, rfl⟩, rfl⟩

end continued

/-! ### The prompts of an invocation -/

section asked

variable {cfg : Config} {w : World} {b : Batch} {env : External} {call : LLMCall}

theorem mem_classification : call ∈ (classification cfg env b).2 ↔
    ∃ system, classificationSystemPrompt cfg.classifier.promptVersion = .ok system ∧
      call = classifyCall cfg system (transcriptOf cfg env b).render := by
  unfold classification Classifier.classify
  cases hsystem : classificationSystemPrompt cfg.classifier.promptVersion with
  | error exc => simp
  | ok system =>
    dsimp only
    split <;> simp [classifyCall]

theorem mem_generate {generator : Generator} {llm : LLM} {args : GenerateArgs}
    (h : call ∈ (generator.generate llm args).calls) :
    ∃ intent, args.intent = some intent ∧ generator.prompts intent args = .ok call := by
  cases hintent : args.intent with
  | none =>
    unfold generate at h
    rw [hintent] at h
    split at h
    · cases h
    · cases h
    · rename_i hsome
      cases hsome
  | some intent =>
    refine ⟨intent, rfl, ?_⟩
    cases hprompts : generator.prompts intent args with
    | error exc =>
      rw [generate_prompts llm hintent, hprompts] at h
      cases h
    | ok call' =>
      rcases generate_cases llm hintent hprompts with
        ⟨k, -, -, result, content, -, hrun⟩ | ⟨-, -, text, hrun⟩ | ⟨-, -, hrun⟩
      all_goals
        rw [hrun] at h
        rw [List.eq_of_mem_replicate h]

theorem llmCalls_quiet {a : OwnerAction} {now : Instant}
    (h : ¬ (Accepted w a ∧ startsPipeline a.decision = true)) :
    (step cfg w (.action a now env)).llmCalls = w.llmCalls := by
  have ho := action_outcome cfg w a now env
  unfold step
  generalize outcome cfg w (.action a now env) = o at ho ⊢
  cases ho with
  | unknown | duplicate | refused => rfl
  | accepted r hr hfresh hgate o ho =>
    cases ho with
    | settled | unnamed | corrected => rfl
    | pipeline hd => exact absurd ⟨accepted_iff.mpr ⟨r, hr, hfresh, hgate⟩, hd⟩ h

variable (cfg w) in
/-- **What an invocation asks**, beyond what was asked before: to classify its batch, or for one
document, if it is an accepted decision that starts a generation. -/
theorem llmCalls_step (c : Call) : ∃ calls, (step cfg w c).llmCalls = w.llmCalls ++ calls ∧
    ∀ call ∈ calls,
      (∃ b env, c = .ingest b env ∧ call ∈ (classification cfg env b).2) ∨
      ∃ a now env r, c = .action a now env ∧ Accepted w a ∧ startsPipeline a.decision = true ∧
        w.repo.requests a.requestId = some r ∧ call ∈ (cfg.generator.generate env.llm
          (generateArgs r (feedbackOf a) (priorContent a r w))).calls := by
  cases c with
  | ingest b env =>
    obtain ⟨-, hcalls⟩ := ingested_request cfg w b env
    exact ⟨_, hcalls, fun call hcall => .inl ⟨b, env, rfl, hcall⟩⟩
  | action a now env =>
    by_cases h : Accepted w a ∧ startsPipeline a.decision = true
    · obtain ⟨hacc, hstarts⟩ := h
      obtain ⟨r, hr, -, -⟩ := accepted_iff.mp hacc
      have hcalls := llmCalls_accepted cfg now env hr hacc hstarts
      exact ⟨_, hcalls, fun call hcall => .inr ⟨a, now, env, r, rfl, hacc, hstarts, hr, hcall⟩⟩
    · refine ⟨[], ?_, fun call hcall => (by cases hcall)⟩
      rw [llmCalls_quiet h, List.append_nil]

end asked

/-! ### Runs -/

/-- The run applies the action. -/
def Applied (cs : List Call) (a : OwnerAction) : Prop := ∃ now env, .action a now env ∈ cs

/-- **What a run has told the model.** Every request has the transcript of a batch that was ingested
under its id, every prompt is a briefing about such a batch, and every such batch was put before the
classifier. -/
structure Informed (cfg : Config) (cs : List Call) (w : World) : Prop where
  wf : Wf w
  requests : ∀ rid r, w.repo.requests rid = some r → ∃ b env, .ingest b env ∈ cs ∧
    b.aggregated.requestId = rid ∧ r.normalizedTranscript = some (transcriptOf cfg env b).render ∧
      r.displayName = b.request.displayName
  prompts : ∀ call ∈ w.llmCalls, ∃ b env, .ingest b env ∈ cs ∧
    Briefing cfg (Applied cs) w b (transcriptOf cfg env b).render call
  classified : ∀ b env, .ingest b env ∈ cs → ∀ call ∈ (classification cfg env b).2,
    call ∈ w.llmCalls

/-- The request of the batch has the transcript, and the name of the client. -/
def Stored (w : World) (b : Batch) (transcript : String) : Prop :=
  ∃ r, w.repo.requests b.aggregated.requestId = some r ∧
    r.normalizedTranscript = some transcript ∧ r.displayName = b.request.displayName

section runs

variable {cfg : Config} {w : World} {cs : List Call}

theorem Informed.generation (h : Informed cfg cs w) {a : OwnerAction} {now : Instant}
    {env : External} {r : Request} {call : LLMCall} (hacc : Accepted w a)
    (hstarts : startsPipeline a.decision = true) (hr : w.repo.requests a.requestId = some r)
    (hcall : call ∈ (cfg.generator.generate env.llm
      (generateArgs r (feedbackOf a) (priorContent a r w))).calls) :
    ∃ b env', .ingest b env' ∈ cs ∧ Briefing cfg (Applied (cs ++ [.action a now env]))
      (step cfg w (.action a now env)) b (transcriptOf cfg env' b).render call := by
  obtain ⟨b, env', hmem, hid, htranscript, hname⟩ := h.requests _ r hr
  obtain ⟨intent, -, hprompts⟩ := mem_generate hcall
  refine ⟨b, env', hmem, .generation a ⟨now, env, by simp⟩ hid.symm hstarts
    (recorded_of_accepted hacc) intent _ ?_ hname rfl (fun content hcontent => ?_) call hprompts⟩
  · show orEmpty r.normalizedTranscript = _
    rw [htranscript]
    rfl
  · have hprior : priorContent a r w = some content := hcontent
    unfold priorContent at hprior
    split_ifs at hprior with hd
    obtain ⟨revision, hlatest, hsame⟩ := Option.map_eq_some_iff.mp hprior
    have hlogged : revision ∈ w.repo.revisions a.requestId := by
      unfold Repository.latestRevision at hlatest
      rw [h.wf.id_eq hr] at hlatest
      exact List.mem_of_getLast? hlatest
    exact ⟨hd, revision, revisions_subset _ _ hlogged, hsame⟩

theorem Informed.step (h : Informed cfg cs w) (c : Call) :
    Informed cfg (cs ++ [c]) (step cfg w c) := by
  obtain ⟨calls, hcalls, hasked⟩ := llmCalls_step cfg w c
  refine ⟨wf_step h.wf c, fun rid r' hr' => ?_, fun call hcall => ?_,
    fun b env hmem call hcall => ?_⟩
  · cases c with
    | ingest b env =>
      by_cases hid : rid = b.aggregated.requestId
      · obtain ⟨⟨r, hr, htranscript, hname⟩, -⟩ := ingested_request cfg w b env
        rw [hid, hr] at hr'
        obtain rfl := Option.some.inj hr'
        exact ⟨b, env, by simp, hid.symm, htranscript, hname⟩
      · have hlocal : Local w b.aggregated.requestId (Orchestrator.step cfg w (.ingest b env)) :=
          step_local h.wf (.ingest b env)
        rw [hlocal.requests hid] at hr'
        obtain ⟨b', env', hmem, hrest⟩ := h.requests rid r' hr'
        exact ⟨b', env', List.mem_append_left _ hmem, hrest⟩
    | action a now env =>
      obtain ⟨r, hr, hsame⟩ := continued_action h.wf a now env rid r' hr'
      obtain ⟨b, env', hmem, hid, htranscript, hname⟩ := h.requests rid r hr
      exact ⟨b, env', List.mem_append_left _ hmem, hid, hsame.transcript.trans htranscript,
        hsame.name.trans hname⟩
  · rw [hcalls, List.mem_append] at hcall
    rcases hcall with hcall | hcall
    · obtain ⟨b, env, hmem, hbriefing⟩ := h.prompts call hcall
      have happlied : ∀ a, Applied cs a → Applied (cs ++ [c]) a := by
        rintro a ⟨now, env, ha⟩
        exact ⟨now, env, List.mem_append_left _ ha⟩
      exact ⟨b, env, List.mem_append_left _ hmem, hbriefing.mono happlied
        (fun _ _ => interactions_mono cfg w c) (revisions_subset c)⟩
    · rcases hasked call hcall with
        ⟨b, env, rfl, hcall⟩ | ⟨a, now, env, r, rfl, hacc, hstarts, hr, hcall⟩
      · obtain ⟨system, hsystem, rfl⟩ := mem_classification.mp hcall
        exact ⟨b, env, by simp, .classification system hsystem⟩
      · obtain ⟨b, env', hmem, hbriefing⟩ := h.generation hacc hstarts hr hcall
        exact ⟨b, env', List.mem_append_left _ hmem, hbriefing⟩
  · rcases List.mem_append.mp hmem with hmem | hmem
    · rw [hcalls]
      exact List.mem_append_left _ (h.classified b env hmem call hcall)
    · obtain rfl := List.mem_singleton.mp hmem
      obtain ⟨-, hnew⟩ := ingested_request cfg w b env
      rw [hnew]
      exact List.mem_append_right _ hcall

/-- An invocation that enters no request under the id of the batch. -/
theorem Stored.step (hw : Wf w) {b : Batch} {transcript : String} (h : Stored w b transcript)
    {c : Call} (hother : b.aggregated.requestId ∉ ingestIds [c]) :
    Stored (Orchestrator.step cfg w c) b transcript := by
  obtain ⟨r, hr, htranscript, hname⟩ := h
  cases c with
  | ingest b' env =>
    have hne : b.aggregated.requestId ≠ b'.aggregated.requestId :=
      fun heq => hother (heq ▸ List.mem_cons_self)
    have hlocal : Local w b'.aggregated.requestId (Orchestrator.step cfg w (.ingest b' env)) :=
      step_local hw (.ingest b' env)
    exact ⟨r, (hlocal.requests hne).trans hr, htranscript, hname⟩
  | action a now env =>
    have hpresent : w.repo.requests b.aggregated.requestId ≠ none := by simp [hr]
    obtain ⟨r', hr'⟩ := Option.ne_none_iff_exists'.mp
      (present_step cfg hw (.action a now env) hpresent)
    obtain ⟨r₀, hr₀, hsame⟩ := continued_action hw a now env _ r' hr'
    obtain rfl := Option.some.inj (hr.symm.trans hr₀)
    exact ⟨r', hr', hsame.transcript.trans htranscript, hsame.name.trans hname⟩

end runs

end WappPlanner.Orchestrator
