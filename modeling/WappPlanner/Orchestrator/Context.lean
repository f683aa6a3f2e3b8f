import Mathlib.Data.List.ModifyLast
import WappPlanner.Orchestrator.Intents
import WappPlanner.Orchestrator.StaleLinks
import WappPlanner.Orchestrator.Usage

/-! # The context of a revision

A revision asks the model to improve the latest document only if the owner wrote feedback. Without
feedback its prompt is that of a first generation, whatever the document says: so the prompts build on
the document exactly if there is feedback (`builds_iff`). -/

namespace WappPlanner.Orchestrator

open WappPlanner.Documents.Content WappPlanner.Documents.Generation
open WappPlanner.Documents.Generation.Generator
open WappPlanner.Domain.Enums WappPlanner.Domain.Models WappPlanner.Errors
open WappPlanner.Hitl.Messages WappPlanner.Hitl.Service WappPlanner.Lib.Programs
open WappPlanner.Lib.Runs WappPlanner.Lib.Text WappPlanner.Media.Processor
open WappPlanner.Nlp.Prompts WappPlanner.Persistence.InMemory WappPlanner.Providers.Base
open WappPlanner.Py.Text WappPlanner.Py.Values WappPlanner.Workflow.Enums
open WappPlanner.Workflow.StateMachine

/-- The completions that an action asks for. -/
def asked (cfg : Config) (w : World) (a : OwnerAction) (now : Instant) (env : External) :
    List LLMCall :=
  (step cfg w (.action a now env)).llmCalls.drop w.llmCalls.length

/-- **The prompts of an action build on the latest document**: each contains its JSON, and the feedback
if there is any. -/
structure BuildsOn (cfg : Config) (w : World) (a : OwnerAction) (now : Instant) (env : External) :
    Prop where
  document : ∀ revision, w.repo.latestRevision a.requestId = some revision →
    ∀ call ∈ asked cfg w a now env,
      Occurs (cfg.generator.codec.dumps revision.structuredContent) call.user
  feedback : ∀ text, a.feedback = some text → ∀ call ∈ asked cfg w a now env, Occurs text call.user

/-- The same world, the latest document of the request having other content. -/
def World.rewritten (w : World) (rid : String) (content : Json) : World :=
  { w with
    repo := { w.repo with
      revisions := Function.update w.repo.revisions rid
        ((w.repo.revisions rid).modifyLast fun revision =>
          { revision with structuredContent := content }) } }

/-- A generation for the intent asks the model. -/
structure Asks (generator : Generator) (intent : Option Intent) : Prop where
  attempts : 0 < generator.maxAttempts
  prompt : ∃ i system, intent = some i ∧ i ≠ .none ∧
    generationSystemPrompt (some i) generator.promptVersion = .ok system

/-! ### Prompts -/

section prompts

variable {generator : Generator} {llm : LLM} {args : GenerateArgs} {intent : Intent}

theorem Asks.of_generate {doc : GeneratedDocument}
    (h : (generator.generate llm args).result = .ok doc) : Asks generator args.intent := by
  obtain ⟨intent, call, k, -, -, hintent, hprompts, hk, -⟩ := first_of_generate h
  obtain ⟨intent', hintent', hactionable⟩ := generate_ok h
  obtain rfl := Option.some.inj (hintent.symm.trans hintent')
  refine ⟨by omega, intent, ?_⟩
  cases hsystem : generationSystemPrompt (some intent) generator.promptVersion with
  | error exc =>
    rw [prompts, hsystem] at hprompts
    cases hprompts
  | ok system => exact ⟨system, hintent, hactionable, rfl⟩

theorem Asks.calls (args : GenerateArgs) (h : Asks generator args.intent) (llm : LLM) :
    ∃ intent user,
    args.intent = some intent ∧ generator.buildUserPrompt intent args = .ok user ∧
      (generator.generate llm args).calls ≠ [] ∧
        ∀ call ∈ (generator.generate llm args).calls, call.user = user := by
  obtain ⟨hattempts, intent, system, hintent, hactionable, hsystem⟩ := h
  obtain ⟨user, huser, hprompts⟩ := exists_prompts args hactionable hsystem
  refine ⟨intent, user, hintent, huser, ?_⟩
  have hsame : ∀ n, ∀ call ∈ List.replicate n (⟨system, user, generator.model, 2⟩ : LLMCall),
      call.user = user := by
    intro n call hcall
    rw [List.eq_of_mem_replicate hcall]
  rcases generate_cases llm hintent hprompts with
    ⟨k, -, -, result, content, -, hrun⟩ | ⟨-, -, text, hrun⟩ | ⟨-, -, hrun⟩
  · rw [hrun]
    exact ⟨by simp, hsame _⟩
  · rw [hrun]
    exact ⟨by simpa using hattempts.ne', hsame _⟩
  · rw [hrun]
    exact ⟨List.cons_ne_nil _ (List.replicate 1024 _), hsame _⟩

/-- **A prompt with a previous document and feedback contains both.** -/
theorem occurs_prompt {user text : String} {content : Json}
    (hfeedback : args.feedback = some text) (hprevious : args.previousContent = some content)
    (h : generator.buildUserPrompt intent args = .ok user) :
    Occurs (generator.codec.dumps content) user ∧ Occurs text user := by
  unfold buildUserPrompt at h
  cases hhint : schemaHint intent with
  | none =>
    rw [hhint] at h
    cases h
  | some hint =>
    rw [hhint, hfeedback, hprevious] at h
    obtain rfl := Except.ok.inj h
    have hpart : ∀ x, Occurs x ("You previously produced this document:\n" ++
        generator.codec.dumps content ++ "\n\nThe owner requested this revision: " ++ text ++
          "\nImprove the existing document accordingly; do not start over.") →
        Occurs x (String.intercalate "\n\n"
          (["Client: " ++ args.clientName, "Request transcript:\n" ++ args.transcript] ++
            generator.revisionPart (some text) (some content) ++ [hint])) := by
      intro x hx
      exact hx.trans (occurs_intercalate (by simp [revisionPart]))
    refine ⟨hpart _ ?_, hpart _ ?_⟩
    · exact (((occurs_append_right _ _).append_left _).append_left _).append_left _
    · exact (occurs_append_right _ _).append_left _

theorem buildUserPrompt_unasked (r : Request) (previous : Option Json) :
    generator.buildUserPrompt intent (generateArgs r none previous) =
      generator.buildUserPrompt intent (generateArgs r none none) := by
  have hpart : generator.revisionPart none previous = generator.revisionPart none none := by
    cases previous <;> rfl
  unfold buildUserPrompt
  simp only [generateArgs, hpart]

/-- A document of the kind of the intent, with the title. -/
def titled (title : String) : Intent → DocumentContent
  | .quote => .quote ⟨title, "", "", [], .finite 0, none, .finite 0, [], [], none, none⟩
  | _ => .plan ⟨title, "", [], [], [], none, none⟩

theorem fits_titled (title : String) (h : intent ≠ .none) :
    Fits (some intent) (titled title intent) := by
  cases intent with
  | quote => trivial
  | executionPlan => trivial
  | none => exact absurd rfl h

theorem length_title_le (codec : ContentCodec) (title : String) (intent : Intent) :
    title.length ≤ (codec.dumps (titled title intent).modelDump).length := by
  have hobj : ∀ k field fields, title.length ≤
      (codec.dumps (.obj ((k, .str title) :: field :: fields))).length := by
    intro k field fields
    have htitle := length_le_dumpsText title
    simp only [ContentCodec.dumps, dumps, dumpsFields, String.length_append]
    omega
  cases intent <;> exact hobj _ _ _

end prompts

/-! ### A request with a revision -/

variable {cfg : Config} {w : World} {rid : String}

/-- What a run keeps about a request that has revisions: it is confirmed, and a generation for it
asks the model. -/
structure Equipped (cfg : Config) (w : World) (rid : String) : Prop where
  confirmed : w.repo.revisions rid ≠ [] → Confirmed w rid
  asks : ∀ r, w.repo.requests rid = some r → w.repo.revisions rid ≠ [] →
    Asks cfg.generator r.intent

theorem equipped_initial : Equipped cfg World.initial rid :=
  ⟨fun h => absurd rfl h, fun _ hr => by cases hr⟩

theorem Equipped.step (h : Equipped cfg w rid) (hw : Wf w) {c : Call} (hfresh : Fresh w c) :
    Equipped cfg (step cfg w c) rid := by
  by_cases hne : rid = c.requestId
  · subst hne
    obtain ⟨states, -, hstride⟩ := stride cfg hw c
    have hconfirmed := hstride.confirmed_iff hfresh
    cases intentStep cfg hw c with
    | entered b env r' hr' hrevs hs =>
      have hempty : (Orchestrator.step cfg w (.ingest b env)).repo.revisions
          b.aggregated.requestId = [] := by
        rw [hrevs]
        exact hw.orphan hfresh
      exact ⟨fun hne => absurd hempty hne, fun r hr hne => absurd hempty hne⟩
    | ignored a now env hacc hreq hrevs =>
      refine ⟨fun hne => ?_, fun r hr hne => ?_⟩
      · rw [Call.requestId, hrevs] at hne
        exact hconfirmed.mpr (.inl (h.confirmed hne))
      · rw [Call.requestId, hrevs] at hne
        exact h.asks r (hreq ▸ hr) hne
    | corrected a now env r' hacc hd hr' hintent hs hrevs =>
      have hempty : (Orchestrator.step cfg w (.action a now env)).repo.revisions a.requestId = [] := by
        rw [hrevs]
        by_contra hne
        exact not_confirmed_correct hacc hd (h.confirmed hne)
      exact ⟨fun hne => absurd hempty hne, fun r hr hne => absurd hempty hne⟩
    | kept a now env r r' hacc hd hr hr' hintent hrevs =>
      refine ⟨fun hne => ?_, fun r'' hr'' hne => ?_⟩
      · rw [Call.requestId, hrevs] at hne
        exact hconfirmed.mpr (.inl (h.confirmed hne))
      · obtain rfl := Option.some.inj (hr'.symm.trans hr'')
        rw [Call.requestId, hrevs] at hne
        rw [hintent]
        exact h.asks r hr hne
    | made a now env r r' revision content hacc hd hr hr' hintent hrevs =>
      refine ⟨fun _ => hconfirmed.mpr (Stride.confirmed_of_starts hacc hd), fun r'' hr'' _ => ?_⟩
      obtain rfl := Option.some.inj (hr'.symm.trans hr'')
      have hid : r.id = a.requestId := hw.id_eq hr
      rw [← hid] at hrevs
      obtain ⟨doc, hdoc, -, -⟩ := generated_of_added hr hrevs
      rw [hintent]
      exact Asks.of_generate hdoc
  · have hlocal : Local w c.requestId (Orchestrator.step cfg w c) := step_local hw c
    have hrevs := hlocal.revisions hne
    refine ⟨fun hsome => ?_, fun r hr hsome => ?_⟩
    · rw [Confirmed, stateOf_elsewhere hw hne]
      exact h.confirmed (hrevs ▸ hsome)
    · exact h.asks r (hlocal.requests hne ▸ hr) (hrevs ▸ hsome)

theorem equipped_run {cs : List Call} (hids : (ingestIds cs).Nodup) :
    Equipped cfg (run (step cfg) World.initial cs) rid := by
  have hinv : Wf (run (step cfg) World.initial cs) ∧
      Equipped cfg (run (step cfg) World.initial cs) rid :=
    run_inv (I := fun w => Wf w ∧ Equipped cfg w rid)
      (fun w c h hfresh => ⟨wf_step h.1 c, h.2.step h.1 hfresh⟩) ⟨wf_initial, equipped_initial⟩
      (fresh_of_nodup hids)
  exact hinv.2

variable (cfg) in
theorem llmCalls_accepted {a : OwnerAction} {r : Request} (now : Instant) (env : External)
    (hr : w.repo.requests a.requestId = some r) (hacc : Accepted w a)
    (hd : startsPipeline a.decision = true) :
    (step cfg w (.action a now env)).llmCalls = w.llmCalls ++
      (cfg.generator.generate env.llm
        (generateArgs r (feedbackOf a) (priorContent a r w))).calls := by
  have ho := action_outcome cfg w a now env
  unfold step
  generalize outcome cfg w (.action a now env) = o at ho ⊢
  cases ho with
  | unknown hr' => exact absurd hacc (not_accepted_of_unknown hr')
  | duplicate r' hr' hdup => exact absurd hacc (not_accepted_of_seen hdup)
  | refused r' hr' hfresh hgate => exact absurd hacc (not_accepted_of_gate hr' hgate)
  | accepted r' hr' hfresh hgate o ho =>
    obtain rfl := Option.some.inj (hr.symm.trans hr')
    cases ho with
    | settled hd' => rcases hd' with hd' | hd' <;> rw [hd'] at hd <;> cases hd
    | unnamed hd' =>
      rw [hd'] at hd
      cases hd
    | corrected hd' =>
      rw [hd'] at hd
      cases hd
    | pipeline hd' lookups hlookups o ho =>
      have hcalls := ho.llmCalls
      exact hcalls

section revise

variable {a : OwnerAction} {r : Request} (now : Instant) (env : External)

/-- What an accepted request for revision asks for, where a generation asks the model. -/
theorem asked_accepted (hr : w.repo.requests a.requestId = some r) (hacc : Accepted w a)
    (hd : a.decision = .revise) (hasks : Asks cfg.generator r.intent) :
    ∃ intent user, r.intent = some intent ∧
      cfg.generator.buildUserPrompt intent (generateArgs r a.feedback
        ((w.repo.latestRevision r.id).map (·.structuredContent))) = .ok user ∧
      asked cfg w a now env ≠ [] ∧ ∀ call ∈ asked cfg w a now env, call.user = user := by
  have hcalls := llmCalls_accepted cfg now env hr hacc (by rw [hd]; rfl)
  rw [feedbackOf, priorContent, if_pos hd, if_pos hd] at hcalls
  rw [asked, hcalls, List.drop_left]
  exact Asks.calls (generateArgs r a.feedback _) hasks env.llm

theorem latestRevision_rewritten {revision : DocumentRevision} {rid : String}
    (h : w.repo.latestRevision rid = some revision) (content : Json) :
    (w.rewritten rid content).repo.latestRevision rid =
      some { revision with structuredContent := content } := by
  obtain ⟨revisions, hrevisions⟩ := List.getLast?_eq_some_iff.mp h
  have hupdate : (w.rewritten rid content).repo.revisions rid =
      (w.repo.revisions rid).modifyLast fun revision =>
        { revision with structuredContent := content } := Function.update_self ..
  rw [Repository.latestRevision, hupdate, hrevisions, List.modifyLast_concat, List.getLast?_concat]

theorem accepted_rewritten {rid : String} {content : Json} :
    Accepted (w.rewritten rid content) a ↔ Accepted w a := by
  rw [accepted_iff, accepted_iff]
  rfl

theorem builds_of_feedback (hr : w.repo.requests a.requestId = some r) (hid : r.id = a.requestId)
    (hacc : Accepted w a) (hd : a.decision = .revise) (hasks : Asks cfg.generator r.intent)
    {revision : DocumentRevision} (hlatest : w.repo.latestRevision a.requestId = some revision)
    (hfeedback : a.feedback ≠ none) : BuildsOn cfg w a now env := by
  obtain ⟨text, htext⟩ := Option.ne_none_iff_exists'.mp hfeedback
  obtain ⟨intent, user, -, huser, -, hsame⟩ :=
    asked_accepted now env hr hacc hd hasks
  rw [hid, hlatest] at huser
  obtain ⟨hdocument, hwritten⟩ := occurs_prompt htext rfl huser
  refine ⟨fun revision' hlatest' call hcall => ?_, fun text' htext' call hcall => ?_⟩
  · obtain rfl := Option.some.inj (hlatest.symm.trans hlatest')
    rw [hsame call hcall]
    exact hdocument
  · obtain rfl := Option.some.inj (htext.symm.trans htext')
    rw [hsame call hcall]
    exact hwritten

theorem user_unasked (hr : w.repo.requests a.requestId = some r) (hacc : Accepted w a)
    (hd : a.decision = .revise) (hasks : Asks cfg.generator r.intent) (hnone : a.feedback = none) :
    ∃ intent user, r.intent = some intent ∧
      cfg.generator.buildUserPrompt intent (generateArgs r none none) = .ok user ∧
      asked cfg w a now env ≠ [] ∧ ∀ call ∈ asked cfg w a now env, call.user = user := by
  obtain ⟨intent, user, hintent, huser, hasked⟩ :=
    asked_accepted now env hr hacc hd hasks
  rw [hnone, buildUserPrompt_unasked] at huser
  exact ⟨intent, user, hintent, huser, hasked⟩

/-- **Without feedback there are documents it does not build on**: those with too long a title. -/
theorem not_builds (hr : w.repo.requests a.requestId = some r) (hacc : Accepted w a)
    (hd : a.decision = .revise) (hasks : Asks cfg.generator r.intent) {revision : DocumentRevision}
    (hlatest : w.repo.latestRevision a.requestId = some revision) (hnone : a.feedback = none) :
    ∃ doc, Fits r.intent doc ∧
      ¬ BuildsOn cfg (w.rewritten a.requestId doc.modelDump) a now env := by
  obtain ⟨i, system, hi, hactionable, hsystem⟩ := hasks.prompt
  obtain ⟨user, huser, -⟩ := exists_prompts (generateArgs r none none) hactionable hsystem
  obtain ⟨title, hlong⟩ : ∃ title : String, user.length < title.length :=
    ⟨String.ofList (List.replicate (user.length + 1) 'x'), by simp⟩
  refine ⟨titled title i, hi ▸ fits_titled title hactionable, fun h => ?_⟩
  obtain ⟨intent, user', hintent, huser', hne, hsame⟩ :=
    user_unasked (w := w.rewritten a.requestId (titled title i).modelDump) now env hr
      (accepted_rewritten.mpr hacc) hd hasks hnone
  obtain rfl := Option.some.inj (hi.symm.trans hintent)
  obtain rfl := Except.ok.inj (huser.symm.trans huser')
  obtain ⟨call, hcall⟩ := List.exists_mem_of_ne_nil _ hne
  have hocc := (h.document _ (latestRevision_rewritten hlatest _) call hcall).length_le
  rw [hsame call hcall] at hocc
  exact absurd (hlong.trans_le (length_title_le _ title i)) (not_lt.mpr hocc)

end revise

/-- **A revision builds on the latest document if and only if there is feedback.** In every world a run
reaches, for every accepted request for revision of a request that has a document: with feedback its
prompts build on that document, and without feedback they would not build on every document that could
stand there. -/
theorem builds_iff {cs : List Call} (hids : (ingestIds cs).Nodup)
    (hw : w = run (step cfg) World.initial cs) {a : OwnerAction} {r : Request} {now : Instant}
    {env : External} (hr : w.repo.getRequest a.requestId = some r)
    (hrevisions : w.repo.revisions a.requestId ≠ []) (hacc : Accepted w a)
    (hd : a.decision = .revise) :
    (a.feedback ≠ none → BuildsOn cfg w a now env) ∧
    ((∀ doc, Fits r.intent doc → BuildsOn cfg (w.rewritten a.requestId doc.modelDump) a now env) ↔
      a.feedback ≠ none) := by
  subst hw
  have hid : r.id = a.requestId := (wf_run cs).id_eq hr
  have hasks : Asks cfg.generator r.intent := (equipped_run hids).asks r hr hrevisions
  have hlatest := List.getLast?_eq_some_getLast hrevisions
  refine ⟨builds_of_feedback now env hr hid hacc hd hasks hlatest, fun h hnone => ?_,
    fun hsome doc _ => ?_⟩
  · obtain ⟨doc, hfits, hnot⟩ := not_builds now env hr hacc hd hasks hlatest hnone
    exact hnot (h doc hfits)
  · exact builds_of_feedback now env hr hid (accepted_rewritten.mpr hacc) hd hasks
      (latestRevision_rewritten hlatest _) hsome

namespace Sample

/-- A click on the revision link that was sent with revision 1. -/
noncomputable def reviseLink (feedback : Option String) : OwnerAction :=
  ⟨"r1", .approval, .revise, actionId ((config lossless false).notify.signer.issue "r1"
    .approval .revise start none (1 : ℕ)), none, (1 : ℕ), feedback⟩

/-- A request waits for the approval of its first revision. -/
noncomputable def presented : World :=
  run (step (config lossless false)) World.initial oneRevision

/-- What the prompt of a first generation says about that request. -/
structure Presented (r : Request) : Prop where
  state : r.state = .awaitingApproval
  intent : r.intent = some .executionPlan
  name : r.displayName = "Ana"
  transcript : orEmpty r.normalizedTranscript =
    "[text @ 2026-06-11T11:59:59.999998+00:00] How much for a deck?"

theorem presented_once : ∃ r, presented.repo.getRequest "r1" = some r ∧ Presented r := by
  have hr : (presented.repo.requests "r1").map (fun r => (r.state, r.intent, r.displayName,
      orEmpty r.normalizedTranscript)) = some (.awaitingApproval, some .executionPlan, "Ana",
        "[text @ 2026-06-11T11:59:59.999998+00:00] How much for a deck?") := by decide +kernel
  obtain ⟨r, hr, heq⟩ := Option.map_eq_some_iff.mp hr
  simp only [Prod.mk.injEq] at heq
  obtain ⟨hstate, hintent, hname, htranscript⟩ := heq
  exact ⟨r, hr, ⟨hstate, hintent, hname, htranscript⟩⟩

theorem revision_once : ∃ revision, presented.repo.latestRevision "r1" = some revision ∧
    'D' ∈ (contentCodec.dumps revision.structuredContent).toList := by
  have hdump : (presented.repo.latestRevision "r1").map (fun revision =>
      (contentCodec.dumps revision.structuredContent).toList.contains 'D') = some true := by
    decide +kernel
  obtain ⟨revision, hlatest, hmem⟩ := Option.map_eq_some_iff.mp hdump
  exact ⟨revision, hlatest, List.contains_iff_mem.mp hmem⟩

theorem revisions_presented : presented.repo.revisions "r1" ≠ [] := by
  obtain ⟨revision, hlatest, -⟩ := revision_once
  intro hnil
  rw [Repository.latestRevision, hnil] at hlatest
  cases hlatest

theorem accepted_reviseLink (feedback : Option String) : Accepted presented (reviseLink feedback) := by
  have hacc : Accepted presented (reviseLink none) := by decide +kernel
  exact hacc

end Sample

open Sample in
theorem builds_iff_feedback : ∃ r, presented.repo.getRequest "r1" = some r ∧
    BuildsOn (config lossless false) presented (reviseLink (some "Add railings.")) (start + 1)
      (external planText) := by
  obtain ⟨r, hr, -⟩ := presented_once
  exact ⟨r, hr, (builds_iff (w := presented) (by decide) rfl hr revisions_presented
    (accepted_reviseLink (some "Add railings.")) rfl).1 (Option.some_ne_none _)⟩

open Sample in
/-- Clicking the revision link without feedback restarts: the prompt says nothing of the document. -/
theorem document_forgotten : ∃ r revision, presented.repo.getRequest "r1" = some r ∧
    r.state = .awaitingApproval ∧ presented.repo.latestRevision "r1" = some revision ∧
    DeliveredLink (config lossless false)
      (history (step (config lossless false)) World.initial oneRevision) 1 (reviseLink none) ∧
    Accepted presented (reviseLink none) ∧
    ¬ BuildsOn (config lossless false) presented (reviseLink none) (start + 1)
      (external planText) := by
  obtain ⟨r, hr, hpresented⟩ := presented_once
  obtain ⟨revision, hlatest, hmem⟩ := revision_once
  refine ⟨r, revision, hr, hpresented.state, hlatest, ?_, accepted_reviseLink none, fun h => ?_⟩
  · have hchoice : ("Request revision", .revise) ∈ approvalChoices :=
      List.mem_cons_of_mem _ List.mem_cons_self
    have hlink := delivered_link hchoice none []
    rwa [List.append_nil] at hlink
  · have hasks : Asks (config lossless false).generator r.intent :=
      ⟨by decide, .executionPlan, _, hpresented.intent, by decide, rfl⟩
    obtain ⟨intent, user, hintent, huser, hne, hsame⟩ :=
      user_unasked (start + 1) (external planText) hr (accepted_reviseLink none) rfl hasks rfl
    obtain ⟨call, hcall⟩ := List.exists_mem_of_ne_nil _ hne
    have hocc := h.document revision hlatest call hcall
    rw [hsame call hcall] at hocc
    obtain rfl := Option.some.inj (hpresented.intent.symm.trans hintent)
    unfold buildUserPrompt at huser
    simp only [generateArgs, hpresented.name, hpresented.transcript] at huser
    obtain rfl := Except.ok.inj huser
    -- the prompt speaks of a "deck"
    have hin := List.IsInfix.subset hocc hmem
    rw [show (config lossless false).generator.revisionPart none none = [] from rfl] at hin
    simp only [List.cons_append, List.nil_append, String.intercalate_cons_cons,
      String.intercalate_singleton, String.toList_append, List.mem_append, or_assoc] at hin
    exact absurd hin (by decide +kernel)

end WappPlanner.Orchestrator
