import Mathlib.Data.List.Range
import WappPlanner.Orchestrator.Runs

/-! # The revision log

The log of a request grows by one revision with every action that makes one, and its counter with
it. `LogStep` says what one invocation does to the log of any request; `gapless_run` follows it
through whole runs: the numbers are `1, 2, …, k`, the counter is `k`, the ids are distinct across
all requests, and each revision carries the feedback it was made for. -/

namespace WappPlanner.Orchestrator

open WappPlanner.Domain.Enums WappPlanner.Domain.Models WappPlanner.Errors
open WappPlanner.Hitl.Service WappPlanner.Lib.Programs WappPlanner.Lib.Runs
open WappPlanner.Persistence.InMemory WappPlanner.Py.Text WappPlanner.Py.Values
open WappPlanner.Workflow.Enums WappPlanner.Workflow.StateMachine

variable (cfg : Config)

/-- Generation, rendering and artifact storage succeed for the action's request. -/
def produces (env : External) (w : World) (a : OwnerAction) : Bool :=
  match w.repo.requests a.requestId with
  | none => false
  | some r => (produce cfg env r (feedbackOf a) (priorContent a r w)).isOk

/-- The action of an invocation that makes a revision of `rid`: an accepted confirmation or request
for revision whose generation, rendering and storage all succeed. -/
def producer (rid : String) : World × Call → Option OwnerAction
  | (_, .ingest _ _) => none
  | (w, .action a _ env) =>
    if a.requestId = rid ∧ Accepted w a ∧ (a.decision = .confirm ∨ a.decision = .revise) ∧
      produces cfg env w a = true then some a else none

/-- **A gapless log**: the revisions of every request in `w`, and the actions of `past` they come
from. -/
structure Gapless (w : World) (past : List (World × Call)) : Prop where
  numbers : ∀ rid, (w.repo.getRevisions rid).map (·.revisionNo) =
    List.range' 1 (w.repo.getRevisions rid).length
  distinct : ∀ (rid rid' : String) (i j : ℕ) (revision revision' : DocumentRevision),
    (w.repo.getRevisions rid)[i]? = some revision →
      (w.repo.getRevisions rid')[j]? = some revision' → revision.id = revision'.id →
        rid = rid' ∧ i = j
  current : ∀ rid r, w.repo.getRequest rid = some r →
    r.currentRevision = (w.repo.getRevisions rid).length
  latest_none : ∀ rid, w.repo.latestRevision rid = none ↔ (w.repo.getRevisions rid).length = 0
  latest_some : ∀ rid revision, w.repo.latestRevision rid = some revision →
    revision ∈ w.repo.getRevisions rid ∧
      revision.revisionNo = (w.repo.getRevisions rid).length
  count : ∀ rid, (w.repo.getRevisions rid).length = (past.filterMap (producer cfg rid)).length
  feedback : ∀ rid, (w.repo.getRevisions rid).map (·.feedback) =
    (past.filterMap (producer cfg rid)).map feedbackOf

/-- **What an invocation does to the log of a request**, from `w` to `w'`, the third argument being
the action that makes a revision. -/
inductive LogStep (w w' : World) (rid : String) : Option OwnerAction → Prop
  | kept (hrevs : w'.repo.revisions rid = w.repo.revisions rid)
      (hcurrent : ∀ r', w'.repo.requests rid = some r' →
        (w.repo.requests rid = none ∧ r'.currentRevision = 0) ∨
          ∃ r, w.repo.requests rid = some r ∧ r'.currentRevision = r.currentRevision) :
      LogStep w w' rid none
  | added (a : OwnerAction) (r : Request) (revision : DocumentRevision)
      (hr : w.repo.requests rid = some r)
      (hrevs : w'.repo.revisions rid = w.repo.revisions rid ++ [revision])
      (hno : revision.revisionNo = r.currentRevision + 1)
      (hid : revision.id = rid ++ "-rev-" ++ natText revision.revisionNo)
      (hfeedback : revision.feedback = feedbackOf a)
      (hcurrent : ∀ r', w'.repo.requests rid = some r' →
        r'.currentRevision = r.currentRevision + 1) :
      LogStep w w' rid (some a)

variable {cfg} {w : World}

/-! ### One invocation -/

theorem LogStep.same {w' : World} {rid : String} (hreq : w'.repo.requests rid = w.repo.requests rid)
    (hrevs : w'.repo.revisions rid = w.repo.revisions rid) : LogStep w w' rid none := by
  refine .kept hrevs fun r' hr' => .inr ⟨r', ?_, rfl⟩
  rwa [hreq] at hr'

theorem producer_of_not_accepted {rid : String} {a : OwnerAction} {now : Instant} {env : External}
    (h : ¬ Accepted w a) : producer cfg rid (w, .action a now env) = none :=
  if_neg fun hprod => h hprod.2.1

theorem producer_elsewhere {rid : String} {c : Call} (hne : rid ≠ c.requestId) :
    producer cfg rid (w, c) = none := by
  cases c with
  | ingest b env => rfl
  | action a now env => exact if_neg fun hprod => hne hprod.1.symm

theorem produces_eq {env : External} {a : OwnerAction} {r : Request}
    (hr : w.repo.requests a.requestId = some r) :
    produces cfg env w a = (produce cfg env r (feedbackOf a) (priorContent a r w)).isOk := by
  unfold produces
  rw [hr]

theorem logStep_ingest {b : Batch} {env : External} (hfresh : Fresh w (.ingest b env)) :
    LogStep w (step cfg w (.ingest b env)) b.aggregated.requestId none := by
  have hnew : w.repo.requests b.aggregated.requestId = none := hfresh
  have ho := ingest_outcome cfg w b env
  unfold step
  generalize outcome cfg w (.ingest b env) = o at ho ⊢
  have hzero : ∀ (w' : World) (r r' : Request), r.id = b.aggregated.requestId →
      r.currentRevision = 0 → (w'.saved r).repo.requests b.aggregated.requestId = some r' →
        r'.currentRevision = 0 := by
    intro w' r r' hid hcurrent hr'
    rw [World.repo_saved, Repository.requests_saveRequest, if_pos hid.symm] at hr'
    exact Option.some.inj hr' ▸ hcurrent
  cases ho with
  | unclassified => exact .kept rfl fun r' hr' => .inl ⟨hnew, hzero _ _ r' rfl rfl hr'⟩
  | silent => exact .kept rfl fun r' hr' => .inl ⟨hnew, hzero _ _ r' rfl rfl hr'⟩
  | told => exact .kept rfl fun r' hr' => .inl ⟨hnew, hzero _ _ r' rfl rfl hr'⟩

theorem producer_starts {a : OwnerAction} {now : Instant} {env : External} (hacc : Accepted w a)
    (hd : startsPipeline a.decision = true) :
    producer cfg a.requestId (w, .action a now env) =
      if produces cfg env w a = true then some a else none := by
  have hcases : a.decision = .confirm ∨ a.decision = .revise := by simpa [startsPipeline] using hd
  unfold producer
  simp only [hacc, hcases, true_and]

theorem producer_of_not_starts {rid : String} {a : OwnerAction} {now : Instant} {env : External}
    (hd : startsPipeline a.decision = false) :
    producer cfg rid (w, .action a now env) = none := by
  refine if_neg fun hprod => ?_
  rcases hprod.2.2.1 with h | h <;> rw [h] at hd <;> cases hd

theorem LogStep.saved (r' : Request) {r : Request} {w' : World} {rid : String}
    (hr : w.repo.requests rid = some r) (hcurrent : r'.currentRevision = r.currentRevision)
    (hrevs : w'.repo.revisions rid = w.repo.revisions rid)
    (hreq : w'.repo.requests rid = some r') : LogStep w w' rid none := by
  refine .kept hrevs fun r'' hr'' => .inr ⟨r, hr, ?_⟩
  rw [hreq] at hr''
  exact Option.some.inj hr'' ▸ hcurrent

theorem logStep_action (hw : Wf w) (a : OwnerAction) (now : Instant) (env : External) :
    LogStep w (step cfg w (.action a now env)) a.requestId
      (producer cfg a.requestId (w, .action a now env)) := by
  have ho := action_outcome cfg w a now env
  unfold step
  generalize outcome cfg w (.action a now env) = o at ho ⊢
  cases ho with
  | unknown hr =>
    rw [producer_of_not_accepted (not_accepted_of_unknown hr)]
    exact .same rfl rfl
  | duplicate r hr hdup =>
    rw [producer_of_not_accepted (not_accepted_of_seen hdup)]
    exact .same rfl rfl
  | refused r hr hfresh hgate =>
    rw [producer_of_not_accepted (not_accepted_of_gate hr hgate)]
    exact .same rfl rfl
  | accepted r hr hfresh hgate o ho =>
    have hacc : Accepted w a := accepted_iff.mpr ⟨r, hr, hfresh, hgate⟩
    have hid : r.id = a.requestId := hw.id_eq hr
    cases ho with
    | settled hd =>
      rw [producer_of_not_starts (by rcases hd with hd | hd <;> rw [hd] <;> rfl)]
      exact .saved (r.moved (target a.decision) now) hr rfl rfl (acceptedWorld_requests hid)
    | unnamed hd =>
      rw [producer_of_not_starts (by rw [hd]; rfl)]
      refine .saved (withIntent (r.moved (target a.decision) now) none) hr rfl rfl ?_
      simp [withIntent, hid]
    | corrected hd intent =>
      rw [producer_of_not_starts (by rw [hd]; rfl)]
      refine .saved (withIntent (r.moved (target a.decision) now) intent) hr rfl rfl ?_
      simp [withIntent, hid]
    | pipeline hd lookups hlookups o ho =>
      rw [producer_starts hacc hd, produces_eq hr]
      cases ho with
      | failed text hgen =>
        have hprod : produce cfg env r (feedbackOf a) (priorContent a r w) =
            .error (.generation text) := by
          have hnone : (generated cfg env r (feedbackOf a) (priorContent a r w)).result =
              .error (.generation text) := hgen
          rw [produce, hnone, error_bind]
        rw [hprod]
        refine .saved ((r.moved (target a.decision) now).moved .failed now) hr rfl rfl ?_
        simp [hid]
      | stopped exc w' trace hgen hexc hrepo =>
        have hprod : produce cfg env r (feedbackOf a) (priorContent a r w) = .error exc := hexc
        rw [hprod]
        refine .saved (r.moved (target a.decision) now) hr rfl (by rw [hrepo]; rfl) ?_
        rw [hrepo]
        exact acceptedWorld_requests hid
      | made p hp work hwork =>
        have hprod : produce cfg env r (feedbackOf a) (priorContent a r w) = .ok p := hp
        rw [hprod]
        refine .added a r (nextRevision (r.moved (target a.decision) now) p.doc (feedbackOf a)
          (p.refs cfg r.id (r.currentRevision + 1)) now) hr ?_ rfl ?_ rfl fun r' hr' => ?_
        · simp [madeWorld, nextRevision, acceptedWorld, hid]
        · rw [← hid]
          rfl
        · simp only [madeWorld, World.repo_posted, World.repo_saved,
            Repository.requests_saveRequest, delivered, bumped, Request.moved, hid, if_pos,
            Option.some.injEq] at hr'
          exact hr' ▸ rfl

variable (cfg) in
/-- **Every invocation takes a log step**, for every request. -/
theorem logStep (hw : Wf w) {c : Call} (hfresh : Fresh w c) (rid : String) :
    LogStep w (step cfg w c) rid (producer cfg rid (w, c)) := by
  by_cases hne : rid = c.requestId
  · subst hne
    cases c with
    | ingest b env => exact logStep_ingest hfresh
    | action a now env => exact logStep_action hw a now env
  · rw [producer_elsewhere hne]
    exact .same ((step_local hw c).requests hne) ((step_local hw c).revisions hne)

/-! ### Whole runs -/

/-- What a run keeps about the log of a request. -/
structure LogOf (cfg : Config) (w : World) (past : List (World × Call)) (rid : String) : Prop where
  numbers : (w.repo.revisions rid).map (·.revisionNo) =
    List.range' 1 (w.repo.revisions rid).length
  ids : ∀ revision ∈ w.repo.revisions rid,
    revision.id = rid ++ "-rev-" ++ natText revision.revisionNo
  current : ∀ r, w.repo.requests rid = some r → r.currentRevision = (w.repo.revisions rid).length
  feedback : (w.repo.revisions rid).map (·.feedback) =
    (past.filterMap (producer cfg rid)).map feedbackOf

theorem logOf_initial (rid : String) : LogOf cfg World.initial [] rid where
  numbers := rfl
  ids _ h := by cases h
  current _ h := by cases h
  feedback := rfl

/-- **One invocation keeps a log gapless.** -/
theorem LogOf.step {past : List (World × Call)} {rid : String} (h : LogOf cfg w past rid) (hw : Wf w)
    {c : Call} (hfresh : Fresh w c) : LogOf cfg (step cfg w c) (past ++ [(w, c)]) rid := by
  have hpast : (past ++ [(w, c)]).filterMap (producer cfg rid) =
      past.filterMap (producer cfg rid) ++ (producer cfg rid (w, c)).toList := by
    rw [List.filterMap_append, List.filterMap_cons, List.filterMap_nil]
    cases producer cfg rid (w, c) <;> rfl
  have hstep := logStep cfg hw hfresh rid
  generalize producer cfg rid (w, c) = p at hpast hstep
  cases hstep with
  | kept hrevs hcurrent =>
    refine ⟨by rw [hrevs, h.numbers], by rw [hrevs]; exact h.ids, fun r' hr' => ?_, ?_⟩
    · rw [hrevs]
      rcases hcurrent r' hr' with ⟨hnone, hzero⟩ | ⟨r, hr, heq⟩
      · rw [hzero, hw.orphan hnone, List.length_nil]
      · rw [heq, h.current r hr]
    · rw [hrevs, h.feedback, hpast, Option.toList_none, List.append_nil]
  | added a r revision hr hrevs hno hid hfeedback hcurrent =>
    have hlen : r.currentRevision = (w.repo.revisions rid).length := h.current r hr
    refine ⟨?_, fun revision' hmem => ?_, fun r' hr' => ?_, ?_⟩
    · have hlast : revision.revisionNo = 1 + 1 * (w.repo.revisions rid).length := by
        rw [hno, hlen]
        omega
      rw [hrevs, List.map_append, List.length_append, List.length_singleton, List.range'_concat,
        h.numbers, List.map_singleton, hlast]
    · rw [hrevs, List.mem_append, List.mem_singleton] at hmem
      rcases hmem with hmem | rfl
      · exact h.ids revision' hmem
      · exact hid
    · rw [hcurrent r' hr', hrevs, List.length_append, List.length_singleton, hlen]
    · rw [hrevs, List.map_append, h.feedback, hpast, Option.toList_some, List.map_append,
        List.map_singleton, List.map_singleton, hfeedback]

theorem revisionId_inj {rid rid' : String} {m n : ℕ}
    (h : rid ++ "-rev-" ++ natText m = rid' ++ "-rev-" ++ natText n) : rid = rid' ∧ m = n := by
  have hsplit : ∀ s : String, s ++ "-rev-" = s ++ "-rev" ++ String.singleton '-' := by
    intro s
    rw [String.append_assoc]
    rfl
  rw [hsplit, hsplit] at h
  obtain ⟨hrid, hno⟩ := Lib.Text.append_repr_inj (by decide) h
  exact ⟨(String.append_left_inj _).mp hrid, hno⟩

theorem LogOf.revisionNo {past : List (World × Call)} {rid : String} (h : LogOf cfg w past rid)
    {i : ℕ} {revision : DocumentRevision} (hi : (w.repo.revisions rid)[i]? = some revision) :
    revision.revisionNo = i + 1 := by
  have hmap : ((w.repo.revisions rid).map (·.revisionNo))[i]? = some revision.revisionNo := by
    rw [List.getElem?_map, hi, Option.map_some]
  have hlt : i < (w.repo.revisions rid).length := (List.getElem?_eq_some_iff.mp hi).1
  rw [h.numbers, List.getElem?_range' hlt, Option.some.injEq] at hmap
  omega

theorem gapless_of_logOf {past : List (World × Call)} (h : ∀ rid, LogOf cfg w past rid) :
    Gapless cfg w past := by
  refine ⟨fun rid => (h rid).numbers, ?_, fun rid => (h rid).current, fun rid => ?_, ?_,
    fun rid => ?_, fun rid => (h rid).feedback⟩
  · intro rid rid' i j revision revision' hi hj heq
    have hid := (h rid).ids revision (List.mem_of_getElem? hi)
    have hid' := (h rid').ids revision' (List.mem_of_getElem? hj)
    rw [hid, hid'] at heq
    obtain ⟨hrid, hno⟩ := revisionId_inj heq
    rw [(h rid).revisionNo hi, (h rid').revisionNo hj] at hno
    exact ⟨hrid, by omega⟩
  · simp [Repository.latestRevision, Repository.getRevisions]
  · intro rid revision hlast
    have hi : (w.repo.revisions rid)[(w.repo.revisions rid).length - 1]? = some revision := by
      rw [← List.getLast?_eq_getElem?]
      exact hlast
    have hmem : revision ∈ w.repo.revisions rid := List.mem_of_getElem? hi
    have hpos : 0 < (w.repo.revisions rid).length := List.length_pos_of_mem hmem
    refine ⟨hmem, ?_⟩
    have hno := (h rid).revisionNo hi
    have hlen : (w.repo.getRevisions rid).length = (w.repo.revisions rid).length := rfl
    omega
  · have hlen := congrArg List.length (h rid).feedback
    rwa [List.length_map, List.length_map] at hlen

/-- **The revision logs of a run are gapless**, whatever the external calls answer. -/
theorem gapless_run {cs : List Call} (hids : (ingestIds cs).Nodup) :
    Gapless cfg (run (step cfg) World.initial cs) (history (step cfg) World.initial cs) := by
  have hinv : Wf (run (step cfg) World.initial cs) ∧ ∀ rid,
      LogOf cfg (run (step cfg) World.initial cs) (history (step cfg) World.initial cs) rid :=
    history_inv (J := fun w past => Wf w ∧ ∀ rid, LogOf cfg w past rid)
      (fun w past c h hfresh => ⟨wf_step h.1 c, fun rid => (h.2 rid).step h.1 hfresh⟩)
      ⟨wf_initial, logOf_initial⟩ (fresh_of_nodup hids)
  exact gapless_of_logOf hinv.2

open Sample in
/-- A request that is confirmed and revised has revisions 1 and 2. -/
theorem gapless_run_revised :
    let cs := oneRevision ++
      [.action (click "r1" "a2" .revise 1) (start + 1) (external planText)]
    ((run (step (config codec false)) World.initial cs).repo.getRevisions "r1").map
        (·.revisionNo) = [1, 2] ∧
      Gapless (config codec false) (run (step (config codec false)) World.initial cs)
        (history (step (config codec false)) World.initial cs) :=
  ⟨by decide +kernel, gapless_run (by decide)⟩

end WappPlanner.Orchestrator
