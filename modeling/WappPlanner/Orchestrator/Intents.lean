import WappPlanner.Orchestrator.Artifacts
import WappPlanner.Orchestrator.LiveLinks

/-! # Intents

The intent of a request is written by its ingest and by corrections, and a correction comes from a
link that names one of the two intents a document is made for. `IntentStep` says what one invocation
does to the intent and the log of its request. From it: a request that waits or is worked on has one
of the two intents, a confirmation fixes it, and every revision is an instance of its schema
(`vetted_run`). -/

namespace WappPlanner.Orchestrator

open WappPlanner.Documents.Content WappPlanner.Documents.Generation
open WappPlanner.Documents.Generation.Generator WappPlanner.Domain.Enums
open WappPlanner.Domain.Models WappPlanner.Errors WappPlanner.Hitl.Messages
open WappPlanner.Hitl.Service WappPlanner.Hitl.Tokens WappPlanner.Lib.Programs
open WappPlanner.Lib.Runs WappPlanner.Nlp.Classification WappPlanner.Persistence.InMemory
open WappPlanner.Py.Text WappPlanner.Py.Values WappPlanner.Workflow.Enums
open WappPlanner.Workflow.StateMachine

/-- The intents a document is made for. -/
def Actionable (intent : Option Intent) : Prop :=
  intent = some .quote ∨ intent = some .executionPlan

/-- The states of a request that waits for its owner, is worked on, or is completed. -/
def vettedStates : List RequestState :=
  [.awaitingClassification, .generating, .rendering, .awaitingApproval, .completed]

variable (cfg : Config)

/-- `a` was resolved from a link that one of the invocations of `past` issued. -/
def Linked (past : List (World × Call)) (a : OwnerAction) : Prop :=
  ∃ e ∈ past, ∃ token ∈ (performed cfg e).flatMap (linkTokens cfg),
    ∃ now feedback, cfg.notify.resolveAction token now feedback = .ok a

/-- Every action of the run was resolved from a link that was issued before. -/
def FromLinks (cs : List Call) : Prop :=
  ∀ pre a now env post, cs = pre ++ .action a now env :: post →
    Linked cfg (history (step cfg) World.initial pre) a

/-- **Only a confirmed, actionable intent is generated.** -/
structure Vetted (w : World) (past : List (World × Call)) : Prop where
  intents : ∀ rid r, w.repo.getRequest rid = some r → r.state ∈ vettedStates → Actionable r.intent
  fixed : ∀ e ∈ past, ∀ rid, AcceptedAs rid .confirm e → ∃ r r',
    e.1.repo.getRequest rid = some r ∧ w.repo.getRequest rid = some r' ∧ r'.intent = r.intent
  contents : ∀ rid r, w.repo.getRequest rid = some r → ∀ revision ∈ w.repo.getRevisions rid,
    ∃ content, Fits r.intent content ∧ revision.structuredContent = content.modelDump
  asked : ∀ e ∈ past, ∀ args ∈ (performed cfg e).filterMap askedFor, Actionable args.intent

variable {cfg} {w : World}

theorem actionable_of_ne {intent : Intent} (h : intent ≠ .none) : Actionable (some intent) := by
  cases intent with
  | quote => exact .inl rfl
  | executionPlan => exact .inr rfl
  | none => exact absurd rfl h

theorem gateOf_vetted (d : OwnerDecision) : gateOf d ∈ vettedStates := by
  cases d <;> decide

/-- **A link that corrects names an actionable intent.** -/
theorem Linked.correction (hjson : cfg.notify.signer.codec.Lossless) {past : List (World × Call)}
    {a : OwnerAction} (h : Linked cfg past a) (hd : a.decision = .correct) :
    Actionable a.intent := by
  obtain ⟨e, -, token, htoken, now, feedback, hres⟩ := h
  obtain ⟨⟨β, o, b⟩, -, htoken⟩ := List.mem_flatMap.mp htoken
  cases o with
  | notifyClassification r name result t =>
    simp only [linkTokens, classificationTokens, classificationChoices, List.map_cons, List.map_nil,
      List.mem_cons, List.not_mem_nil, or_false] at htoken
    rcases htoken with rfl | rfl | rfl | rfl <;>
      obtain rfl := NotificationService.resolveAction_issue_ok hjson hres
    · cases hd
    · exact .inl rfl
    · exact .inr rfl
    · cases hd
  | deliverDocument r n attachments t =>
    obtain ⟨d, hgate, rfl⟩ := mem_approvalTokens htoken
    obtain rfl := NotificationService.resolveAction_issue_ok hjson hres
    obtain rfl : d = .correct := hd
    cases hgate
  | _ => cases htoken

/-! ### One invocation -/

/-- What an invocation does to the intent and the log of its request. -/
inductive IntentStep (w w' : World) : Call → Prop
  | entered (b : Batch) (env : External) (r' : Request)
      (hr' : w'.repo.requests b.aggregated.requestId = some r')
      (hrevs : w'.repo.revisions b.aggregated.requestId =
        w.repo.revisions b.aggregated.requestId)
      (hs : r'.state ∈ vettedStates → Actionable r'.intent) :
      IntentStep w w' (.ingest b env)
  | ignored (a : OwnerAction) (now : Instant) (env : External) (hacc : ¬ Accepted w a)
      (hreq : w'.repo.requests a.requestId = w.repo.requests a.requestId)
      (hrevs : w'.repo.revisions a.requestId = w.repo.revisions a.requestId) :
      IntentStep w w' (.action a now env)
  | corrected (a : OwnerAction) (now : Instant) (env : External) (r' : Request) (hacc : Accepted w a)
      (hd : a.decision = .correct) (hr' : w'.repo.requests a.requestId = some r')
      (hintent : r'.intent = a.intent) (hs : r'.state = .awaitingClassification)
      (hrevs : w'.repo.revisions a.requestId = w.repo.revisions a.requestId) :
      IntentStep w w' (.action a now env)
  | kept (a : OwnerAction) (now : Instant) (env : External) (r r' : Request) (hacc : Accepted w a)
      (hd : a.decision ≠ .correct) (hr : w.repo.requests a.requestId = some r)
      (hr' : w'.repo.requests a.requestId = some r') (hintent : r'.intent = r.intent)
      (hrevs : w'.repo.revisions a.requestId = w.repo.revisions a.requestId) :
      IntentStep w w' (.action a now env)
  | made (a : OwnerAction) (now : Instant) (env : External) (r r' : Request)
      (revision : DocumentRevision) (content : DocumentContent) (hacc : Accepted w a)
      (hd : startsPipeline a.decision = true) (hr : w.repo.requests a.requestId = some r)
      (hr' : w'.repo.requests a.requestId = some r') (hintent : r'.intent = r.intent)
      (hrevs : w'.repo.revisions a.requestId = w.repo.revisions a.requestId ++ [revision])
      (hfits : Fits r.intent content)
      (hcontent : revision.structuredContent = content.modelDump) :
      IntentStep w w' (.action a now env)

theorem intentStep_ingest (b : Batch) (env : External) :
    IntentStep w (step cfg w (.ingest b env)) (.ingest b env) := by
  have ho := ingest_outcome cfg w b env
  unfold step
  generalize outcome cfg w (.ingest b env) = o at ho ⊢
  have hsettled : ∀ result : ClassificationResult,
      (settledRequest cfg env b result).state ∈ vettedStates →
        Actionable (settledRequest cfg env b result).intent := by
    intro result hs
    have hstate : settledState result ∈ vettedStates := hs
    unfold settledState at hstate
    split_ifs at hstate with ha
    · refine actionable_of_ne ?_
      simpa [ClassificationResult.isActionable] using ha
    · exact absurd hstate (by decide)
  have hsaved : ∀ (w' : World) (r : Request), r.id = b.aggregated.requestId →
      (w'.saved r).repo.requests b.aggregated.requestId = some r := by
    intro w' r hid
    simp [hid]
  cases ho with
  | unclassified exc hexc =>
    refine .entered b env (classifying cfg env b) (hsaved _ _ rfl) rfl fun hs => ?_
    have hclassifying : RequestState.classifying ∈ vettedStates := hs
    exact absurd hclassifying (by decide)
  | silent result hres | told result hres =>
    exact .entered b env (settledRequest cfg env b result) (hsaved _ _ rfl) rfl (hsettled result)

theorem intentStep_action (hw : Wf w) (a : OwnerAction) (now : Instant) (env : External) :
    IntentStep w (step cfg w (.action a now env)) (.action a now env) := by
  have ho := action_outcome cfg w a now env
  unfold step
  generalize outcome cfg w (.action a now env) = o at ho ⊢
  cases ho with
  | unknown hr => exact .ignored a now env (not_accepted_of_unknown hr) rfl rfl
  | duplicate r hr hdup => exact .ignored a now env (not_accepted_of_seen hdup) rfl rfl
  | refused r hr hfresh hgate =>
    exact .ignored a now env (not_accepted_of_gate hr hgate) rfl rfl
  | accepted r hr hfresh hgate o ho =>
    have hacc : Accepted w a := accepted_iff.mpr ⟨r, hr, hfresh, hgate⟩
    have hid : r.id = a.requestId := hw.id_eq hr
    have hsaved : ∀ (w' : World) (r' : Request), r'.id = a.requestId →
        (w'.saved r').repo.requests a.requestId = some r' := by
      intro w' r' hid'
      simp [hid']
    cases ho with
    | settled hd =>
      refine .kept a now env r _ hacc ?_ hr (acceptedWorld_requests hid) rfl rfl
      rcases hd with hd | hd <;> simp [hd]
    | unnamed hd hi =>
      refine .corrected a now env _ hacc hd (hsaved _ (withIntent _ _) hid) hi.symm ?_ rfl
      change target a.decision = _
      rw [hd]
      rfl
    | corrected hd intent hi =>
      refine .corrected a now env _ hacc hd (hsaved _ (withIntent _ _) hid) hi.symm ?_ rfl
      change target a.decision = _
      rw [hd]
      rfl
    | pipeline hd lookups hlookups o ho =>
      have hne : a.decision ≠ .correct := by
        intro hcorrect
        simp [startsPipeline, hcorrect] at hd
      cases ho with
      | failed =>
        exact .kept a now env r _ hacc hne hr
          (hsaved _ ((r.moved (target a.decision) now).moved .failed now) hid) rfl rfl
      | stopped exc w' trace hgen hexc hrepo =>
        refine .kept a now env r (r.moved (target a.decision) now) hacc hne hr ?_ rfl
          (congrFun (congrArg _ hrepo) _)
        exact (congrFun (congrArg _ hrepo) _).trans (acceptedWorld_requests hid)
      | made p hp =>
        have hrendered : Rendered cfg env r (feedbackOf a) (priorContent a r w) p :=
          rendered_of_produce (show produce cfg env r (feedbackOf a) (priorContent a r w) = .ok p
            from hp)
        refine .made a now env r _ (nextRevision r p.doc (feedbackOf a)
          (p.refs cfg r.id (r.currentRevision + 1)) now) p.doc.content hacc hd hr
          (hsaved _ (delivered (r.moved (target a.decision) now) now) hid) rfl ?_
          (generate_fits hrendered.1) rfl
        simp [madeWorld, nextRevision, acceptedWorld, hid]

variable (cfg) in
theorem intentStep (hw : Wf w) (c : Call) : IntentStep w (step cfg w c) c := by
  cases c with
  | ingest b env => exact intentStep_ingest b env
  | action a now env => exact intentStep_action hw a now env

/-! ### Whole runs -/

/-- What a run keeps about one request. -/
structure IntentInv (w : World) (rid : String) : Prop where
  intents : ∀ r, w.repo.requests rid = some r → r.state ∈ vettedStates → Actionable r.intent
  contents : ∀ r, w.repo.requests rid = some r → ∀ revision ∈ w.repo.revisions rid,
    ∃ content, Fits r.intent content ∧ revision.structuredContent = content.modelDump
  confirmed : w.repo.revisions rid ≠ [] → Confirmed w rid

theorem intentInv_initial (rid : String) : IntentInv World.initial rid where
  intents _ h := by cases h
  contents _ h := by cases h
  confirmed h := absurd rfl h

theorem not_confirmed_correct {a : OwnerAction} (hacc : Accepted w a) (hd : a.decision = .correct) :
    ¬ Confirmed w a.requestId := by
  rintro ⟨s, hs, hmem⟩
  rw [stateOf_accepted hacc, hd] at hs
  obtain rfl := Option.some.inj hs
  exact absurd hmem (by decide)

/-- **A confirmation fixes the intent.** -/
theorem intent_fixed (hw : Wf w) {c : Call} (hfresh : Fresh w c) {rid : String}
    (hconf : Confirmed w rid ∨ AcceptedAs rid .confirm (w, c)) {r : Request}
    (hr : w.repo.requests rid = some r) :
    ∃ r', (step cfg w c).repo.requests rid = some r' ∧ r'.intent = r.intent := by
  by_cases hne : rid = c.requestId
  · subst hne
    cases intentStep cfg hw c with
    | entered b env =>
      have hnone : w.repo.requests b.aggregated.requestId = none := hfresh
      rw [Call.requestId, hnone] at hr
      cases hr
    | ignored a now env hacc hreq => exact ⟨r, hreq.trans hr, rfl⟩
    | corrected a now env r' hacc hd =>
      rcases hconf with hconf | hconf
      · exact absurd hconf (not_confirmed_correct hacc hd)
      · rw [(acceptedAs_action.mp hconf).2.1] at hd
        cases hd
    | kept a now env r₀ r' hacc hd hr₀ hr' hintent =>
      obtain rfl := Option.some.inj (hr.symm.trans hr₀)
      exact ⟨r', hr', hintent⟩
    | made a now env r₀ r' revision content hacc hd hr₀ hr' hintent =>
      obtain rfl := Option.some.inj (hr.symm.trans hr₀)
      exact ⟨r', hr', hintent⟩
  · exact ⟨r, ((step_local hw c).requests hne).trans hr, rfl⟩

/-- **One invocation keeps it**, if its action comes from a link. -/
theorem IntentInv.step {rid : String} (h : IntentInv w rid) (hw : Wf w) {c : Call}
    (hfresh : Fresh w c)
    (hlink : ∀ a now env, c = .action a now env → a.decision = .correct → Actionable a.intent) :
    IntentInv (step cfg w c) rid := by
  by_cases hne : rid = c.requestId
  · subst hne
    obtain ⟨states, -, hstride⟩ := stride cfg hw c
    have hconfirmed := hstride.confirmed_iff hfresh
    -- whatever is accepted was vetted at its gate
    have hgate : ∀ {a : OwnerAction} {r : Request}, a.requestId = c.requestId → Accepted w a →
        w.repo.requests c.requestId = some r → Actionable r.intent := by
      intro a r hrid hacc hr
      obtain ⟨r', hr', -, hs⟩ := accepted_iff.mp hacc
      rw [hrid, hr, Option.some.injEq] at hr'
      exact h.intents r hr (by rw [hr', hs]; exact gateOf_vetted _)
    cases intentStep cfg hw c with
    | entered b env r' hr' hrevs hs =>
      have hempty : (Orchestrator.step cfg w (.ingest b env)).repo.revisions
          b.aggregated.requestId = [] := by
        rw [hrevs]
        exact hw.orphan hfresh
      refine ⟨fun r hr hmem => ?_, fun r hr revision hmem => ?_, fun hrevs' => absurd hempty hrevs'⟩
      · obtain rfl := Option.some.inj (hr'.symm.trans hr)
        exact hs hmem
      · rw [Call.requestId, hempty] at hmem
        cases hmem
    | ignored a now env hacc hreq hrevs =>
      refine ⟨fun r hr => h.intents r (hreq ▸ hr), fun r hr => ?_, fun hne => ?_⟩
      · rw [Call.requestId, hrevs]
        exact h.contents r (hreq ▸ hr)
      · rw [Call.requestId, hrevs] at hne
        exact hconfirmed.mpr (.inl (h.confirmed hne))
    | corrected a now env r' hacc hd hr' hintent hs hrevs =>
      have hempty : w.repo.revisions a.requestId = [] := by
        by_contra hrevs'
        exact not_confirmed_correct hacc hd (h.confirmed hrevs')
      refine ⟨fun r hr _ => ?_, fun r hr revision hmem => ?_, fun hrevs' => ?_⟩
      · obtain rfl := Option.some.inj (hr'.symm.trans hr)
        rw [hintent]
        exact hlink a now env rfl hd
      · rw [Call.requestId, hrevs, hempty] at hmem
        cases hmem
      · rw [Call.requestId, hrevs, hempty] at hrevs'
        exact absurd rfl hrevs'
    | kept a now env r r' hacc hd hr hr' hintent hrevs =>
      refine ⟨fun r'' hr'' _ => ?_, fun r'' hr'' revision hmem => ?_, fun hrevs' => ?_⟩
      · obtain rfl := Option.some.inj (hr'.symm.trans hr'')
        rw [hintent]
        exact hgate rfl hacc hr
      · obtain rfl := Option.some.inj (hr'.symm.trans hr'')
        rw [Call.requestId, hrevs] at hmem
        rw [hintent]
        exact h.contents r hr revision hmem
      · rw [Call.requestId, hrevs] at hrevs'
        exact hconfirmed.mpr (.inl (h.confirmed hrevs'))
    | made a now env r r' revision content hacc hd hr hr' hintent hrevs hfits hcontent =>
      refine ⟨fun r'' hr'' _ => ?_, fun r'' hr'' revision' hmem => ?_, fun _ => ?_⟩
      · obtain rfl := Option.some.inj (hr'.symm.trans hr'')
        rw [hintent]
        exact hgate rfl hacc hr
      · obtain rfl := Option.some.inj (hr'.symm.trans hr'')
        rw [Call.requestId, hrevs, List.mem_append, List.mem_singleton] at hmem
        rw [hintent]
        rcases hmem with hmem | rfl
        · exact h.contents r hr revision' hmem
        · exact ⟨content, hfits, hcontent⟩
      · exact hconfirmed.mpr (Stride.confirmed_of_starts hacc hd)
  · have hlocal : Local w c.requestId (Orchestrator.step cfg w c) := step_local hw c
    refine ⟨fun r hr => h.intents r (hlocal.requests hne ▸ hr), fun r hr => ?_, fun hrevs => ?_⟩
    · rw [hlocal.revisions hne]
      exact h.contents r (hlocal.requests hne ▸ hr)
    · rw [hlocal.revisions hne] at hrevs
      rw [Confirmed, stateOf_elsewhere hw hne]
      exact h.confirmed hrevs

/-- What a run of clicks on links keeps. -/
structure VettedInv (cfg : Config) (w : World) (past : List (World × Call)) : Prop where
  gates : GateInv cfg w past
  requests : ∀ rid, IntentInv w rid
  vetted : Vetted cfg w past

theorem vettedInv_initial : VettedInv cfg World.initial [] where
  gates := gateInv_initial
  requests := intentInv_initial
  vetted :=
    { intents := fun _ _ h => by cases h
      fixed := fun _ h => by cases h
      contents := fun _ _ h => by cases h
      asked := fun _ h => by cases h }

theorem VettedInv.step {past : List (World × Call)} (h : VettedInv cfg w past) {c : Call}
    (hfresh : Fresh w c)
    (hlink : ∀ a now env, c = .action a now env → a.decision = .correct → Actionable a.intent) :
    VettedInv cfg (step cfg w c) (past ++ [(w, c)]) := by
  have hrequests : ∀ rid, IntentInv (Orchestrator.step cfg w c) rid := fun rid =>
    (h.requests rid).step h.gates.wf hfresh hlink
  refine ⟨gateInv_step h.gates hfresh, hrequests, fun rid => (hrequests rid).intents, ?_,
    fun rid => (hrequests rid).contents, ?_⟩
  · intro e he rid hconf
    rcases List.mem_append.mp he with he | he
    · obtain ⟨r, r', hr, hr', hintent⟩ := h.vetted.fixed e he rid hconf
      have hconfirmed : Confirmed w rid := (h.gates.confirmed rid).mpr ⟨e, he, hconf⟩
      obtain ⟨r'', hr'', hintent'⟩ := intent_fixed h.gates.wf hfresh (.inl hconfirmed) hr'
      exact ⟨r, r'', hr, hr'', hintent'.trans hintent⟩
    · obtain rfl := List.mem_singleton.mp he
      obtain ⟨s, hs, -⟩ := Option.map_eq_some_iff.mp hconf.stateOf
      obtain ⟨r', hr', hintent⟩ := intent_fixed h.gates.wf hfresh (.inr hconf) hs
      exact ⟨s, r', hs, hr', hintent⟩
  · intro e he args hargs
    rcases List.mem_append.mp he with he | he
    · exact h.vetted.asked e he args hargs
    · obtain rfl := List.mem_singleton.mp he
      obtain ⟨a, now, env, r, -, hacc, -, hr, rfl⟩ := askedFor_step hargs
      obtain ⟨r', hr', -, hgate⟩ := accepted_iff.mp hacc
      obtain rfl := Option.some.inj (hr.symm.trans hr')
      exact (h.requests _).intents r hr (by rw [hgate]; exact gateOf_vetted _)

/-- **Only a confirmed, actionable intent is ever generated**, in any run whose ingests use distinct
ids and whose actions come from issued links. -/
theorem vetted_run (hjson : cfg.notify.signer.codec.Lossless) {cs : List Call}
    (hids : (ingestIds cs).Nodup) (hlinks : FromLinks cfg cs) :
    Vetted cfg (run (step cfg) World.initial cs) (history (step cfg) World.initial cs) := by
  have halong : Along (step cfg) Fresh World.initial cs := fresh_of_nodup hids
  have hfresh := along_iff.mp halong
  refine (history_rec (J := VettedInv cfg) vettedInv_initial fun pre c post hcs h => ?_).vetted
  refine h.step (hfresh pre c post hcs) ?_
  rintro a now env rfl hd
  exact (hlinks pre a now env post hcs).correction hjson hd

namespace Sample

/-- The action of the Confirm link that was issued for `r1` at `start`. -/
noncomputable def confirmLink : OwnerAction :=
  ⟨"r1", .classification, .confirm, actionId ((config lossless false).notify.signer.issue "r1"
    .classification .confirm start none 0), none, 0, none⟩

theorem linked_confirmLink : Linked (config lossless false)
    [(World.initial, announced .executionPlan)] confirmLink := by
  refine ⟨_, List.mem_singleton_self _, (config lossless false).notify.signer.issue "r1"
    .classification .confirm start none 0, by decide +kernel, start, none, ?_⟩
  exact NotificationService.resolveAction_issue lossless_lossless (by decide +kernel) none

end Sample

open Sample in
/-- A request that is announced and then confirmed by the link of its notification. -/
theorem vetted_run_confirmed :
    let cs := [announced .executionPlan, .action confirmLink (start + 1) (external planText)]
    Vetted (config lossless false) (run (step (config lossless false)) World.initial cs)
      (history (step (config lossless false)) World.initial cs) := by
  refine vetted_run lossless_lossless (by decide +kernel) ?_
  intro pre a now env post hcs
  rcases pre with - | ⟨c, pre⟩
  · cases hcs
  · obtain ⟨rfl, hrest⟩ := List.cons.inj hcs
    rcases pre with - | ⟨c, pre⟩
    · obtain ⟨rfl, -, -⟩ := Call.action.inj (List.cons.inj hrest).1
      exact linked_confirmLink
    · have hlen := congrArg List.length hrest
      simp at hlen

end WappPlanner.Orchestrator
