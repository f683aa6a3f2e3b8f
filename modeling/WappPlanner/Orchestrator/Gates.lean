import Mathlib.Data.List.Chain
import WappPlanner.Orchestrator.Runs

/-! # The two gates

What a run saves for a request, asks of the generator and accepts from the owner, in the order in
which it happens. `Stride` says what one invocation saves for its request, and `gated` what follows
for whole runs: the saved states are a path in the transition table that ends at the first terminal
state, only an accepted confirmation or request for revision reaches the generator, one confirmation
comes before everything else the owner gets accepted, and completion takes an accepted approval of a
request that has a revision. -/

namespace WappPlanner.Orchestrator

open WappPlanner.Documents.Generation WappPlanner.Domain.Enums WappPlanner.Domain.Models
open WappPlanner.Errors WappPlanner.Hitl.Service WappPlanner.Lib.Programs WappPlanner.Lib.Runs
open WappPlanner.Nlp.Classification WappPlanner.Persistence.InMemory WappPlanner.Py.Text
open WappPlanner.Py.Values WappPlanner.Workflow.Enums WappPlanner.Workflow.StateMachine

/-! ### What a run does, in order -/

/-- The id and the state of the request an operation saves. -/
def saveOf : Entry Op → Option (String × RequestState)
  | ⟨_, .saveRequest r, _⟩ => some (r.id, r.state)
  | _ => none

def saves (es : List (Entry Op)) : List (String × RequestState) := es.filterMap saveOf

/-- The states that operations save for a request. -/
def savedStates (rid : String) (es : List (Entry Op)) : List RequestState :=
  ((saves es).filter (·.1 = rid)).map (·.2)

/-- What an operation asks of the generator. -/
def askedFor : Entry Op → Option GenerateArgs
  | ⟨_, .generate args, _⟩ => some args
  | _ => none

/-- The persisted state of a request. -/
def stateOf (w : World) (rid : String) : Option RequestState :=
  (w.repo.requests rid).map (·.state)

/-- The invocation is an accepted action on a request. -/
def AcceptedAs (rid : String) (d : OwnerDecision) (e : World × Call) : Prop :=
  ∃ a now env, e.2 = .action a now env ∧ a.requestId = rid ∧ a.decision = d ∧ Accepted e.1 a

/-- `s'` may be saved after `s`: the table has an edge, or the state stays, and `s` is not
terminal. -/
def Follows (s s' : RequestState) : Prop :=
  isTerminal s = false ∧ (s' = s ∨ ∃ t, successor s t = some s')

/-- A path in the transition table that starts at `received`. -/
structure IsPath (states : List RequestState) : Prop where
  start : ∀ s ∈ states.head?, s = .received
  follows : states.IsChain Follows

variable (cfg : Config)

/-- The operations of an invocation. -/
def performed (e : World × Call) : List (Entry Op) := (outcome cfg e.1 e.2).trace

/-- The states a run saves for a request. -/
def trail (rid : String) (past : List (World × Call)) : List RequestState :=
  past.flatMap fun e => savedStates rid (performed cfg e)

/-- **No gate was bypassed** on the way to `w`. -/
structure Gated (w : World) (past : List (World × Call)) : Prop where
  path : ∀ rid, IsPath (trail cfg rid past)
  persisted : ∀ rid, (trail cfg rid past).getLast? = stateOf w rid
  generator : ∀ e ∈ past, ∀ args ∈ (performed cfg e).filterMap askedFor, ∃ a now env r,
    e.2 = .action a now env ∧ Accepted e.1 a ∧ (a.decision = .confirm ∨ a.decision = .revise) ∧
      e.1.repo.requests a.requestId = some r ∧
        args = generateArgs r (feedbackOf a) (priorContent a r e.1)
  once : ∀ rid, past.Pairwise fun e e' =>
    ¬ (AcceptedAs rid .confirm e ∧ AcceptedAs rid .confirm e')
  first : ∀ rid pre e, pre ++ [e] <+: past → AcceptedAs rid .revise e ∨ AcceptedAs rid .approve e →
    ∃ e₀ ∈ pre, AcceptedAs rid .confirm e₀
  completed : ∀ e ∈ past, ∀ rid, .completed ∈ savedStates rid (performed cfg e) →
    AcceptedAs rid .approve e ∧ e.1.repo.revisions rid ≠ []

variable {cfg} {w : World}

/-! ### Paths -/

theorem follows_of_edge {s s' : RequestState} {t : Trigger} (h : successor s t = some s') :
    Follows s s' := by
  have hterminal : isTerminal s = false := by
    by_contra hs
    rw [successor_terminal (by simpa using hs) t] at h
    cases h
  exact ⟨hterminal, .inr ⟨t, h⟩⟩

theorem follows_gate (d : OwnerDecision) : Follows (gateOf d) (target d) :=
  follows_of_edge (by rw [successor_triggerFor, if_pos rfl])

/-- `states` go on from `before`. -/
structure Extends (before : Option RequestState) (states : List RequestState) : Prop where
  start : before = none → ∀ s ∈ states.head?, s = .received
  follows : (before.toList ++ states).IsChain Follows

theorem IsPath.append {past states : List RequestState} (h : IsPath past)
    (h' : Extends past.getLast? states) : IsPath (past ++ states) := by
  refine ⟨fun s hs => ?_, ?_⟩
  · cases past with
    | nil => exact h'.start rfl s hs
    | cons s₀ past => exact h.start s hs
  · refine List.isChain_append.mpr ⟨h.follows, (List.isChain_append.mp h'.follows).2.1, ?_⟩
    intro s hs s' hs'
    exact (List.isChain_append.mp h'.follows).2.2 s (by simp [Option.mem_def.mp hs]) s' hs'

theorem extends_some {s : RequestState} {states : List RequestState}
    (h : (s :: states).IsChain Follows) : Extends (some s) states :=
  ⟨fun hnone => (Option.some_ne_none s hnone).elim, h⟩

theorem extends_nil (before : Option RequestState) : Extends before [] := by
  refine ⟨by simp, ?_⟩
  cases before <;> simp

/-! ### What one invocation saves -/

/-- The states an ingest saves before its request is classified. -/
def entering : List RequestState := [.received, .aggregating, .processingMedia, .classifying]

/-- **What an invocation saves for its request**, from `w` to `w'`. -/
inductive Stride (w w' : World) : Call → List RequestState → Prop
  | unclassified (b : Batch) (env : External)
      (hafter : stateOf w' b.aggregated.requestId = some .classifying) :
      Stride w w' (.ingest b env) entering
  | classified (b : Batch) (env : External) (result : ClassificationResult)
      (hafter : stateOf w' b.aggregated.requestId = some (settledState result)) :
      Stride w w' (.ingest b env) (entering ++ [settledState result])
  | ignored (a : OwnerAction) (now : Instant) (env : External) (hacc : ¬ Accepted w a)
      (hafter : stateOf w' a.requestId = stateOf w a.requestId)
      (hlog : w'.repo.revisions a.requestId = w.repo.revisions a.requestId) :
      Stride w w' (.action a now env) []
  | decided (a : OwnerAction) (now : Instant) (env : External) (hacc : Accepted w a)
      (hd : a.decision = .approve ∨ a.decision = .reject)
      (hafter : stateOf w' a.requestId = some (target a.decision)) :
      Stride w w' (.action a now env) [target a.decision]
  | corrected (a : OwnerAction) (now : Instant) (env : External) (hacc : Accepted w a)
      (hd : a.decision = .correct)
      (hafter : stateOf w' a.requestId = some .awaitingClassification) :
      Stride w w' (.action a now env) [.awaitingClassification, .awaitingClassification]
  | failed (a : OwnerAction) (now : Instant) (env : External) (hacc : Accepted w a)
      (hd : startsPipeline a.decision = true) (hafter : stateOf w' a.requestId = some .failed) :
      Stride w w' (.action a now env) [.generating, .failed]
  | stopped (a : OwnerAction) (now : Instant) (env : External) (hacc : Accepted w a)
      (hd : startsPipeline a.decision = true) (hafter : stateOf w' a.requestId = some .generating) :
      Stride w w' (.action a now env) [.generating]
  | delivered (a : OwnerAction) (now : Instant) (env : External) (hacc : Accepted w a)
      (hd : startsPipeline a.decision = true)
      (hafter : stateOf w' a.requestId = some .awaitingApproval)
      (hlog : w'.repo.revisions a.requestId ≠ []) :
      Stride w w' (.action a now env) [.generating, .rendering, .awaitingApproval]

section saves

variable {rid : String} {es es' : List (Entry Op)}

theorem saves_append : saves (es ++ es') = saves es ++ saves es' := List.filterMap_append

theorem saves_save (r : Request) (es : List (Entry Op)) :
    saves (did (.saveRequest r) () :: es) = (r.id, r.state) :: saves es := rfl

theorem saves_skip {e : Entry Op} (he : saveOf e = none) : saves (e :: es) = saves es :=
  List.filterMap_cons_none he

theorem saves_quiet {args : GenerateArgs} (h : ∀ e ∈ es, Quiet args e) : saves es = [] := by
  refine List.filterMap_eq_nil_iff.mpr fun e he => ?_
  have hq := h e he
  obtain ⟨β, o, b⟩ := e
  cases o <;> first | rfl | exact hq.elim

theorem savedStates_of_saves {states : List RequestState} (h : saves es = states.map (Prod.mk rid))
    (rid' : String) : savedStates rid' es = if rid' = rid then states else [] := by
  unfold savedStates
  rw [h, List.filter_map, List.map_map]
  split_ifs with hne
  · subst hne
    simp [Function.comp_def]
  · simp [Function.comp_def, Ne.symm hne]

end saves

theorem startsPipeline_target {d : OwnerDecision} (h : startsPipeline d = true) :
    target d = .generating := by
  cases d <;> first | rfl | cases h

theorem stateOf_saved {w : World} {r : Request} {rid : String} (hr : r.id = rid) :
    stateOf (w.saved r) rid = some r.state := by
  simp [stateOf, hr]

theorem saves_entered (b : Batch) (env : External) :
    saves (enteredTrace cfg env b) = entering.map (Prod.mk b.aggregated.requestId) := rfl

theorem stride_ingest (b : Batch) (env : External) :
    ∃ states, saves (performed cfg (w, .ingest b env)) =
        states.map (Prod.mk b.aggregated.requestId) ∧
      Stride w (step cfg w (.ingest b env)) (.ingest b env) states := by
  have ho := ingest_outcome cfg w b env
  unfold performed step
  generalize outcome cfg w (.ingest b env) = o at ho ⊢
  cases ho with
  | unclassified exc hexc =>
    exact ⟨_, saves_entered b env,
      .unclassified b env (stateOf_saved (r := classifying cfg env b) rfl)⟩
  | silent result hres | told result hres =>
    refine ⟨entering ++ [settledState result], ?_, .classified b env result
      (stateOf_saved (r := settledRequest cfg env b result) rfl)⟩
    rw [saves_append, saves_entered, List.map_append]
    rfl

theorem stride_pipeline {a : OwnerAction} {now : Instant} {env : External} {r : Request}
    {w₁ : World} {o : Outcome Op World Exn Request} (hacc : Accepted w a)
    (hd : startsPipeline a.decision = true) (hid : r.id = a.requestId) (hs : r.state = .generating)
    (hr : w₁.repo.requests a.requestId = some r)
    (ho : PipelineOutcome cfg env r now (feedbackOf a) (priorContent a r w₁) w₁ o) :
    ∃ states, saves o.trace = states.map (Prod.mk a.requestId) ∧
      Stride w o.state (.action a now env) (.generating :: states) := by
  cases ho with
  | failed text hgen =>
    refine ⟨[.failed], ?_, .failed a now env hacc hd (stateOf_saved (r := r.moved .failed now) hid)⟩
    rw [saves_skip rfl, saves_save, Request.id_moved, hid]
    rfl
  | stopped exc w' trace hgen hexc hrepo houtbox hstorage htrace =>
    refine ⟨[], saves_quiet htrace, .stopped a now env hacc hd ?_⟩
    rw [stateOf, hrepo, hr, Option.map_some, hs]
  | made p hp work hwork =>
    have hdelivered : (delivered r now).id = a.requestId := hid
    have hlogged : ((madeWorld cfg env r now (feedbackOf a) (priorContent a r w₁) p w₁).posted
        (handOver cfg env r now p).sent).repo.revisions a.requestId ≠ [] := by
      simp [madeWorld, nextRevision, hid]
    refine ⟨[.rendering, .awaitingApproval], ?_,
      .delivered a now env hacc hd (stateOf_saved hdelivered) hlogged⟩
    rw [saves_append, saves_quiet hwork, ← hid]
    rfl

theorem stride_action (hw : Wf w) (a : OwnerAction) (now : Instant) (env : External) :
    ∃ states, saves (performed cfg (w, .action a now env)) = states.map (Prod.mk a.requestId) ∧
      Stride w (step cfg w (.action a now env)) (.action a now env) states := by
  have ho := action_outcome cfg w a now env
  unfold performed step
  generalize outcome cfg w (.action a now env) = o at ho ⊢
  cases ho with
  | unknown hr =>
    exact ⟨[], rfl, .ignored a now env (not_accepted_of_unknown hr) rfl rfl⟩
  | duplicate r hr hdup =>
    exact ⟨[], rfl, .ignored a now env (not_accepted_of_seen hdup) rfl rfl⟩
  | refused r hr hfresh hgate =>
    exact ⟨[], rfl, .ignored a now env (not_accepted_of_gate hr hgate) rfl rfl⟩
  | accepted r hr hfresh hgate o ho =>
    have hacc : Accepted w a := accepted_iff.mpr ⟨r, hr, hfresh, hgate⟩
    have hid : r.id = a.requestId := hw.id_eq hr
    have hmoved : (r.moved (target a.decision) now).id = a.requestId := hid
    rw [saves_skip rfl, saves_skip rfl, saves_save, hmoved, Request.state_moved]
    cases ho with
    | settled hd => exact ⟨[target a.decision], rfl, .decided a now env hacc hd (stateOf_saved hmoved)⟩
    | unnamed hd | corrected hd =>
      have hs : target a.decision = .awaitingClassification := by
        rw [hd]
        rfl
      have hafter : ∀ (w' : World) (intent : Option Intent),
          stateOf (w'.saved (withIntent (r.moved (target a.decision) now) intent)) a.requestId =
            some .awaitingClassification := by
        intro w' intent
        have hnamed : (withIntent (r.moved (target a.decision) now) intent).id = a.requestId := hid
        rw [stateOf_saved hnamed]
        exact congrArg some hs
      refine ⟨[.awaitingClassification, .awaitingClassification], ?_,
        .corrected a now env hacc hd (hafter _ _)⟩
      rw [saves_save, hs]
      change _ :: [(r.id, RequestState.awaitingClassification)] = _
      rw [hid]
      rfl
    | pipeline hd lookups hlookups o ho =>
      have hs : target a.decision = .generating := startsPipeline_target hd
      obtain ⟨states, hsaves, hstride⟩ :=
        stride_pipeline hacc hd hmoved hs (acceptedWorld_requests hid) ho
      refine ⟨.generating :: states, ?_, hstride⟩
      rw [saves_append, saves_quiet hlookups, List.nil_append, hsaves, hs, List.map_cons]

variable (cfg) in
/-- **Every invocation takes a stride.** -/
theorem stride (hw : Wf w) (c : Call) :
    ∃ states, saves (performed cfg (w, c)) = states.map (Prod.mk c.requestId) ∧
      Stride w (step cfg w c) c states := by
  cases c with
  | ingest b env => exact stride_ingest b env
  | action a now env => exact stride_action hw a now env

/-! ### What a stride means for the gates -/

/-- The states a request can be in once it was confirmed. -/
def confirmedStates : List RequestState :=
  [.generating, .rendering, .awaitingApproval, .completed, .failed]

/-- The request was confirmed. -/
def Confirmed (w : World) (rid : String) : Prop := ∃ s ∈ stateOf w rid, s ∈ confirmedStates

theorem stateOf_accepted {a : OwnerAction} (h : Accepted w a) :
    stateOf w a.requestId = some (gateOf a.decision) := by
  obtain ⟨r, hr, -, hgate⟩ := accepted_iff.mp h
  rw [stateOf, hr, Option.map_some, hgate]

theorem acceptedAs_action {rid : String} {d : OwnerDecision} {a : OwnerAction} {now : Instant}
    {env : External} : AcceptedAs rid d (w, .action a now env) ↔
      a.requestId = rid ∧ a.decision = d ∧ Accepted w a := by
  constructor
  · rintro ⟨a', now', env', hc, hrest⟩
    obtain ⟨rfl, -, -⟩ := Call.action.inj hc
    exact hrest
  · rintro hrest
    exact ⟨a, now, env, rfl, hrest⟩

theorem not_acceptedAs_ingest {rid : String} {d : OwnerDecision} {b : Batch} {env : External} :
    ¬ AcceptedAs rid d (w, .ingest b env) := by
  rintro ⟨a, now, env', hc, -⟩
  cases hc

theorem AcceptedAs.requestId {rid : String} {d : OwnerDecision} {c : Call}
    (h : AcceptedAs rid d (w, c)) : rid = c.requestId := by
  obtain ⟨a, now, env, rfl, hrid, -⟩ := h
  exact hrid.symm

theorem AcceptedAs.stateOf {rid : String} {d : OwnerDecision} {c : Call}
    (h : AcceptedAs rid d (w, c)) : stateOf w rid = some (gateOf d) := by
  obtain ⟨a, now, env, rfl, rfl, rfl, hacc⟩ := h
  exact stateOf_accepted hacc

namespace Stride

variable {w' : World} {c : Call} {states : List RequestState}

theorem entering_follows : entering.IsChain Follows := by
  refine .cons_cons (follows_of_edge (t := .startAggregation) (by decide)) <|
    .cons_cons (follows_of_edge (t := .windowClosed) (by decide)) <|
      .cons_cons (follows_of_edge (t := .mediaProcessed) (by decide)) (.singleton _)

theorem settled_follows (result : ClassificationResult) :
    (entering ++ [settledState result]).IsChain Follows := by
  have hlast : Follows .classifying (settledState result) := by
    unfold settledState
    split
    · exact follows_of_edge (t := .classifiedActionable) (by decide)
    · exact follows_of_edge (t := .classifiedNone) (by decide)
  refine List.isChain_append.mpr ⟨entering_follows, .singleton _, ?_⟩
  intro s hs s' hs'
  simp only [entering, List.getLast?_cons_cons, List.getLast?_singleton, Option.mem_def,
    Option.some.injEq, List.head?_cons] at hs hs'
  subst hs hs'
  exact hlast

theorem extends_of (h : Stride w w' c states) (hfresh : Fresh w c) :
    Extends (stateOf w c.requestId) states := by
  cases h with
  | unclassified b env =>
    have hnew : stateOf w b.aggregated.requestId = none := by
      rw [stateOf, show w.repo.requests _ = none from hfresh, Option.map_none]
    exact ⟨by simp [entering], by simpa [Call.requestId, hnew] using entering_follows⟩
  | classified b env result =>
    have hnew : stateOf w b.aggregated.requestId = none := by
      rw [stateOf, show w.repo.requests _ = none from hfresh, Option.map_none]
    exact ⟨by simp [entering], by simpa [Call.requestId, hnew] using settled_follows result⟩
  | ignored => exact extends_nil _
  | decided a now env hacc =>
    rw [Call.requestId, stateOf_accepted hacc]
    exact extends_some (.cons_cons (follows_gate a.decision) (.singleton _))
  | corrected a now env hacc hd =>
    rw [Call.requestId, stateOf_accepted hacc]
    have hedge := follows_gate .correct
    rw [hd]
    exact extends_some (.cons_cons hedge (.cons_cons hedge (.singleton _)))
  | failed a now env hacc hd =>
    rw [Call.requestId, stateOf_accepted hacc]
    have hedge := follows_gate a.decision
    rw [startsPipeline_target hd] at hedge
    exact extends_some (.cons_cons hedge
      (.cons_cons (follows_of_edge (t := .fail) (by decide)) (.singleton _)))
  | stopped a now env hacc hd =>
    rw [Call.requestId, stateOf_accepted hacc]
    have hedge := follows_gate a.decision
    rw [startsPipeline_target hd] at hedge
    exact extends_some (.cons_cons hedge (.singleton _))
  | delivered a now env hacc hd =>
    rw [Call.requestId, stateOf_accepted hacc]
    have hedge := follows_gate a.decision
    rw [startsPipeline_target hd] at hedge
    exact extends_some (.cons_cons hedge
      (.cons_cons (follows_of_edge (t := .generated) (by decide))
        (.cons_cons (follows_of_edge (t := .rendered) (by decide)) (.singleton _))))

theorem last (h : Stride w w' c states) :
    stateOf w' c.requestId = states.getLast?.or (stateOf w c.requestId) := by
  cases h <;> simp [Call.requestId, entering, *]

theorem confirmed_of_starts {a : OwnerAction} {now : Instant} {env : External}
    (hacc : Accepted w a) (hd : startsPipeline a.decision = true) :
    Confirmed w a.requestId ∨ AcceptedAs a.requestId .confirm (w, .action a now env) := by
  have hcases : a.decision = .confirm ∨ a.decision = .revise := by
    simpa [startsPipeline] using hd
  rcases hcases with hd | hd
  · exact .inr (acceptedAs_action.mpr ⟨rfl, hd, hacc⟩)
  · exact .inl ⟨.awaitingApproval, by rw [stateOf_accepted hacc, hd]; rfl, by decide⟩

/-- A request is confirmed after a stride if it was before, or if the stride is an accepted
confirmation. -/
theorem confirmed_iff (h : Stride w w' c states) (hfresh : Fresh w c) :
    Confirmed w' c.requestId ↔
      Confirmed w c.requestId ∨ AcceptedAs c.requestId .confirm (w, c) := by
  cases h with
  | unclassified b env hafter =>
    have hnew : w.repo.requests b.aggregated.requestId = none := hfresh
    refine iff_of_false ?_ (not_or.mpr ⟨?_, not_acceptedAs_ingest⟩)
    · simp [Confirmed, Call.requestId, hafter, confirmedStates]
    · simp [Confirmed, Call.requestId, stateOf, hnew]
  | classified b env result hafter =>
    have hnew : w.repo.requests b.aggregated.requestId = none := hfresh
    refine iff_of_false ?_ (not_or.mpr ⟨?_, not_acceptedAs_ingest⟩)
    · unfold settledState at hafter
      split at hafter <;> simp [Confirmed, Call.requestId, hafter, confirmedStates]
    · simp [Confirmed, Call.requestId, stateOf, hnew]
  | ignored a now env hacc hafter =>
    have hno : ¬ AcceptedAs a.requestId .confirm (w, .action a now env) :=
      fun h => hacc (acceptedAs_action.mp h).2.2
    simp only [Confirmed, Call.requestId, hafter, hno, or_false]
  | decided a now env hacc hd hafter =>
    have hno : ¬ AcceptedAs a.requestId .confirm (w, .action a now env) := fun h => by
      rcases hd with hd | hd <;> rw [(acceptedAs_action.mp h).2.1] at hd <;> cases hd
    simp only [Confirmed, Call.requestId, hafter, stateOf_accepted hacc, hno, or_false]
    rcases hd with hd | hd <;> simp [hd, target, gateOf, confirmedStates]
  | corrected a now env hacc hd hafter =>
    have hno : ¬ AcceptedAs a.requestId .confirm (w, .action a now env) := fun h => by
      rw [(acceptedAs_action.mp h).2.1] at hd
      cases hd
    simp only [Confirmed, Call.requestId, hafter, stateOf_accepted hacc, hno, or_false, hd, gateOf]
  | failed a now env hacc hd hafter =>
    exact iff_of_true ⟨_, hafter, by decide⟩ (confirmed_of_starts hacc hd)
  | stopped a now env hacc hd hafter =>
    exact iff_of_true ⟨_, hafter, by decide⟩ (confirmed_of_starts hacc hd)
  | delivered a now env hacc hd hafter =>
    exact iff_of_true ⟨_, hafter, by decide⟩ (confirmed_of_starts hacc hd)

theorem completed (h : Stride w w' c states) (hmem : .completed ∈ states) :
    AcceptedAs c.requestId .approve (w, c) := by
  cases h with
  | unclassified => simp [entering] at hmem
  | classified b env result =>
    unfold settledState at hmem
    split at hmem <;> simp [entering] at hmem
  | decided a now env hacc hd =>
    rcases hd with hd | hd
    · exact acceptedAs_action.mpr ⟨rfl, hd, hacc⟩
    · simp [hd, target] at hmem
  | ignored | corrected | failed | stopped | delivered => simp at hmem

theorem logged (h : Stride w w' c states)
    (hw : stateOf w c.requestId = some .awaitingApproval → w.repo.revisions c.requestId ≠ [])
    (hs : stateOf w' c.requestId = some .awaitingApproval) :
    w'.repo.revisions c.requestId ≠ [] := by
  cases h with
  | unclassified b env hafter =>
    rw [Call.requestId, hafter] at hs
    cases hs
  | classified b env result hafter =>
    rw [Call.requestId, hafter, settledState, Option.some.injEq] at hs
    split at hs <;> cases hs
  | ignored a now env hacc hafter hlog =>
    rw [Call.requestId] at hs hw ⊢
    rw [hlog]
    exact hw (hafter ▸ hs)
  | delivered a now env hacc hd hafter hlog => exact hlog
  | decided a now env hacc hd hafter =>
    rw [Call.requestId, hafter] at hs
    rcases hd with hd | hd <;> rw [hd] at hs <;> cases hs
  | corrected a now env hacc hd hafter | failed a now env hacc hd hafter
  | stopped a now env hacc hd hafter =>
    rw [Call.requestId, hafter] at hs
    cases hs

end Stride

/-! ### What the generator is asked -/

theorem askedFor_quiet {args args' : GenerateArgs} {es : List (Entry Op)}
    (h : ∀ e ∈ es, Quiet args e) (hmem : args' ∈ es.filterMap askedFor) : args' = args := by
  obtain ⟨e, he, hasked⟩ := List.mem_filterMap.mp hmem
  have hq := h e he
  obtain ⟨β, o, b⟩ := e
  cases o with
  | generate args₀ =>
    obtain rfl := Option.some.inj hasked
    exact hq
  | _ => cases hasked

theorem askedFor_pipeline {env : External} {r : Request} {now : Instant} {feedback : Option String}
    {previous : Option Json} {o : Outcome Op World Exn Request} {args : GenerateArgs}
    (ho : PipelineOutcome cfg env r now feedback previous w o)
    (hmem : args ∈ o.trace.filterMap askedFor) : args = generateArgs r feedback previous := by
  cases ho with
  | failed text => exact List.mem_singleton.mp hmem
  | stopped exc w' trace hgen hexc hrepo houtbox hstorage htrace => exact askedFor_quiet htrace hmem
  | made p hp work hwork =>
    have hwritten : (madeTrace cfg r now feedback p (handOver cfg env r now p)).filterMap askedFor =
        [] := rfl
    rw [List.filterMap_append, hwritten, List.append_nil] at hmem
    exact askedFor_quiet hwork hmem

/-- **Only an accepted confirmation or request for revision reaches the generator**, and it asks for
the next revision of its request. -/
theorem askedFor_step {c : Call} {args : GenerateArgs}
    (hmem : args ∈ (performed cfg (w, c)).filterMap askedFor) :
    ∃ a now env r, c = .action a now env ∧ Accepted w a ∧
      (a.decision = .confirm ∨ a.decision = .revise) ∧ w.repo.requests a.requestId = some r ∧
        args = generateArgs r (feedbackOf a) (priorContent a r w) := by
  unfold performed at hmem
  cases c with
  | ingest b env =>
    have ho := ingest_outcome cfg w b env
    dsimp only at hmem
    generalize outcome cfg w (.ingest b env) = o at ho hmem
    cases ho <;> cases hmem
  | action a now env =>
    have ho := action_outcome cfg w a now env
    dsimp only at hmem
    generalize outcome cfg w (.action a now env) = o at ho hmem
    cases ho with
    | unknown | duplicate | refused => cases hmem
    | accepted r hr hfresh hgate o ho =>
      have hacc : Accepted w a := accepted_iff.mpr ⟨r, hr, hfresh, hgate⟩
      cases ho with
      | settled | unnamed | corrected => cases hmem
      | pipeline hd lookups hlookups o ho =>
        have hcases : a.decision = .confirm ∨ a.decision = .revise := by
          simpa [startsPipeline] using hd
        have hargs : args ∈ (lookups ++ o.trace).filterMap askedFor := hmem
        rw [List.filterMap_append, List.mem_append] at hargs
        refine ⟨a, now, env, r, rfl, hacc, hcases, hr, ?_⟩
        rcases hargs with hargs | hargs
        · exact askedFor_quiet hlookups hargs
        · have hnext := askedFor_pipeline ho hargs
          exact hnext

/-! ### Whole runs -/

/-- What a run keeps about its gates. -/
structure GateInv (cfg : Config) (w : World) (past : List (World × Call)) : Prop where
  wf : Wf w
  gated : Gated cfg w past
  confirmed : ∀ rid, Confirmed w rid ↔ ∃ e ∈ past, AcceptedAs rid .confirm e
  logged : ∀ rid, stateOf w rid = some .awaitingApproval → w.repo.revisions rid ≠ []

theorem gateInv_initial : GateInv cfg World.initial [] where
  wf := wf_initial
  gated :=
    { path := fun _ => ⟨by simp [trail], .nil⟩
      persisted := fun _ => rfl
      generator := by simp
      once := fun _ => .nil
      first := by simp
      completed := by simp }
  confirmed := fun rid => by simp [Confirmed, stateOf, World.initial, Repository.empty]
  logged := fun rid h => by cases h

section step

variable {past : List (World × Call)} {c : Call}

theorem stateOf_elsewhere (hw : Wf w) {rid : String} (hne : rid ≠ c.requestId) :
    stateOf (step cfg w c) rid = stateOf w rid := by
  unfold stateOf
  rw [(step_local hw c).requests hne]

theorem trail_append (rid : String) :
    trail cfg rid (past ++ [(w, c)]) =
      trail cfg rid past ++ savedStates rid (performed cfg (w, c)) := by
  simp [trail]

theorem not_confirmed {rid : String} (h : AcceptedAs rid .confirm (w, c)) : ¬ Confirmed w rid := by
  rintro ⟨s, hs, hmem⟩
  rw [h.stateOf] at hs
  cases hs
  exact absurd hmem (by decide)

theorem confirmed_of_second {rid : String}
    (h : AcceptedAs rid .revise (w, c) ∨ AcceptedAs rid .approve (w, c)) : Confirmed w rid := by
  have hs : stateOf w rid = some .awaitingApproval := by
    rcases h with h | h <;> exact h.stateOf
  exact ⟨_, hs, by decide⟩

/-- **One invocation bypasses no gate.** -/
theorem gateInv_step (h : GateInv cfg w past) (hfresh : Fresh w c) :
    GateInv cfg (step cfg w c) (past ++ [(w, c)]) := by
  obtain ⟨states, hsaves, hstride⟩ := stride cfg h.wf c
  have hsaved := savedStates_of_saves hsaves
  have hown : savedStates c.requestId (performed cfg (w, c)) = states := by rw [hsaved, if_pos rfl]
  have helse : ∀ rid, rid ≠ c.requestId → savedStates rid (performed cfg (w, c)) = [] :=
    fun rid hne => by rw [hsaved, if_neg hne]
  have hpast : ∀ {p : World × Call → Prop}, (∃ e ∈ past ++ [(w, c)], p e) ↔
      (∃ e ∈ past, p e) ∨ p (w, c) := by
    intro p
    simp only [List.mem_append, List.mem_singleton, or_and_right, exists_or, exists_eq_left]
  refine ⟨wf_step h.wf c, ⟨fun rid => ?_, fun rid => ?_, ?_, fun rid => ?_, ?_, ?_⟩,
    fun rid => ?_, fun rid => ?_⟩
  · -- the saved states go on along the table
    rw [trail_append]
    refine (h.gated.path rid).append ?_
    rw [h.gated.persisted rid]
    by_cases hne : rid = c.requestId
    · subst hne
      rw [hown]
      exact hstride.extends_of hfresh
    · rw [helse rid hne]
      exact extends_nil _
  · -- the last of them is the persisted one
    rw [trail_append, List.getLast?_append, h.gated.persisted rid]
    by_cases hne : rid = c.requestId
    · subst hne
      rw [hown, hstride.last]
    · rw [helse rid hne, stateOf_elsewhere h.wf hne]
      rfl
  · -- the generator
    intro e he args hargs
    rcases List.mem_append.mp he with he | he
    · exact h.gated.generator e he args hargs
    · obtain rfl := List.mem_singleton.mp he
      exact askedFor_step hargs
  · -- one confirmation
    refine List.pairwise_append.mpr ⟨h.gated.once rid, List.pairwise_singleton _ _, ?_⟩
    intro e he e' he' hboth
    obtain rfl := List.mem_singleton.mp he'
    exact not_confirmed hboth.2 ((h.confirmed rid).mpr ⟨e, he, hboth.1⟩)
  · -- before everything else
    intro rid pre e hpre hacc
    rcases List.prefix_concat_iff.mp hpre with heq | hpre
    · obtain ⟨rfl, he⟩ := List.append_inj' heq rfl
      obtain rfl := (List.cons.inj he).1
      exact (h.confirmed rid).mp (confirmed_of_second hacc)
    · exact h.gated.first rid pre e hpre hacc
  · -- completion
    intro e he rid hmem
    rcases List.mem_append.mp he with he | he
    · exact h.gated.completed e he rid hmem
    · obtain rfl := List.mem_singleton.mp he
      by_cases hne : rid = c.requestId
      · subst hne
        rw [hown] at hmem
        have happroved := hstride.completed hmem
        exact ⟨happroved, h.logged _ happroved.stateOf⟩
      · rw [helse rid hne] at hmem
        cases hmem
  · -- which requests are confirmed
    rw [hpast, ← h.confirmed rid]
    by_cases hne : rid = c.requestId
    · subst hne
      exact hstride.confirmed_iff hfresh
    · have hno : ¬ AcceptedAs rid .confirm (w, c) := fun hacc => hne hacc.requestId
      simp only [Confirmed, stateOf_elsewhere h.wf hne, hno, or_false]
  · -- which requests have revisions
    intro hs
    by_cases hne : rid = c.requestId
    · subst hne
      exact hstride.logged (h.logged _) hs
    · rw [(step_local h.wf c).revisions hne]
      exact h.logged rid (stateOf_elsewhere h.wf hne ▸ hs)

end step

/-- **The two gates are never bypassed**, in any run whose ingests use distinct ids. -/
theorem gated_run {cs : List Call} (hids : (ingestIds cs).Nodup) :
    Gated cfg (run (step cfg) World.initial cs) (history (step cfg) World.initial cs) :=
  (history_inv (J := GateInv cfg) (fun _ _ _ h hfresh => gateInv_step h hfresh) gateInv_initial
    (fresh_of_nodup hids)).gated

open Sample in
/-- A request that is confirmed and approved passes both gates. -/
theorem gated_run_completed :
    let cs := oneRevision ++ [.action (click "r1" "a2" .approve 1) (start + 1) (external "")]
    trail (config codec false) "r1" (history (step (config codec false)) World.initial cs) =
        [.received, .aggregating, .processingMedia, .classifying, .awaitingClassification,
          .generating, .rendering, .awaitingApproval, .completed] ∧
      Gated (config codec false) (run (step (config codec false)) World.initial cs)
        (history (step (config codec false)) World.initial cs) :=
  ⟨by decide +kernel, gated_run (by decide)⟩

end WappPlanner.Orchestrator
