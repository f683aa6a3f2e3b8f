import Mathlib.Logic.Equiv.List
import Mathlib.Tactic.DeriveEncodable
import WappPlanner.Lib.Runs
import WappPlanner.Lib.Text
import WappPlanner.Orchestrator.Outcomes

/-! # Runs of the orchestrator

A run is a list of invocations, each with its own external behaviour. Requests are ingested under
pairwise distinct ids, which makes every ingest of the run a fresh one (`fresh_of_nodup`). `Wf` is
what every run keeps about the keys of the repository. -/

namespace WappPlanner.Orchestrator

open WappPlanner.Documents.Content WappPlanner.Documents.Generation WappPlanner.Documents.Layout
open WappPlanner.Domain.Enums WappPlanner.Domain.Models WappPlanner.Errors
open WappPlanner.Hitl.Messages WappPlanner.Hitl.Service WappPlanner.Hitl.Tokens
open WappPlanner.Lib.Programs WappPlanner.Lib.Runs WappPlanner.Nlp.Classification
open WappPlanner.Persistence.InMemory
open WappPlanner.Providers.Base WappPlanner.Py.Text WappPlanner.Py.Values WappPlanner.Workflow.Enums
open WappPlanner.Workflow.StateMachine

/-- One invocation of the orchestrator. -/
inductive Call
  | ingest (b : Batch) (env : External)
  | action (a : OwnerAction) (now : Instant) (env : External)

/-- The request an invocation is about. -/
def Call.requestId : Call → String
  | .ingest b _ => b.aggregated.requestId
  | .action a _ _ => a.requestId

variable (cfg : Config)

/-- The whole story of an invocation. -/
def outcome (w : World) : Call → Outcome Op World Exn Request
  | .ingest b env => exec (handler cfg env) (ingest cfg b) w
  | .action a now env => exec (handler cfg env) (applyOwnerAction a now) w

/-- The world an invocation leaves, whether it returns or raises. -/
def step (w : World) (c : Call) : World := (outcome cfg w c).state

/-- Nothing stored, asked or sent yet. -/
def World.initial : World := ⟨Repository.empty, fun _ => none, [], []⟩

/-- The ids under which a run ingests. -/
def ingestIds : List Call → List String
  | [] => []
  | .ingest b _ :: cs => b.aggregated.requestId :: ingestIds cs
  | .action _ _ _ :: cs => ingestIds cs

theorem ingestIds_append (cs cs' : List Call) :
    ingestIds (cs ++ cs') = ingestIds cs ++ ingestIds cs' := by
  induction cs with
  | nil => rfl
  | cons c cs ih => cases c <;> simp [ingestIds, ih]

/-- An ingest comes with an id that is not in use. -/
def Fresh (w : World) : Call → Prop
  | .ingest b _ => w.repo.requests b.aggregated.requestId = none
  | .action _ _ _ => True

/-- An action is accepted: it is not a duplicate and its transition does not raise. -/
def Accepted (w : World) (a : OwnerAction) : Prop :=
  ∃ r, w.repo.getRequest a.requestId = some r ∧
    (w.repo.recordInteraction (interactionOf a)).1 = true ∧
      ∃ s, nextState r.state (triggerFor a.decision) = .ok s

variable {cfg}

theorem accepted_iff {w : World} {a : OwnerAction} :
    Accepted w a ↔ ∃ r, w.repo.requests a.requestId = some r ∧
      w.repo.interactions a.actionId = none ∧ r.state = gateOf a.decision := by
  refine exists_congr fun r => and_congr Iff.rfl (and_congr ?_ ?_)
  · by_cases h : w.repo.interactions a.actionId = none
    · simp [Repository.recordInteraction, interactionOf, h]
    · obtain ⟨i, hi⟩ := Option.ne_none_iff_exists'.mp h
      simp [Repository.recordInteraction, interactionOf, hi]
  · unfold nextState
    rw [successor_triggerFor]
    by_cases h : r.state = gateOf a.decision <;> simp [h]

section accepted

variable {w : World} {a : OwnerAction}

theorem not_accepted_of_unknown (hr : w.repo.requests a.requestId = none) : ¬ Accepted w a := by
  intro h
  obtain ⟨r, hr', -⟩ := accepted_iff.mp h
  rw [hr] at hr'
  cases hr'

theorem not_accepted_of_seen (hdup : w.repo.interactions a.actionId ≠ none) : ¬ Accepted w a := by
  intro h
  obtain ⟨-, -, hfresh, -⟩ := accepted_iff.mp h
  exact hdup hfresh

theorem not_accepted_of_gate {r : Request} (hr : w.repo.requests a.requestId = some r)
    (hgate : r.state ≠ gateOf a.decision) : ¬ Accepted w a := by
  intro h
  obtain ⟨r', hr', -, hgate'⟩ := accepted_iff.mp h
  rw [hr, Option.some.injEq] at hr'
  exact hgate (hr' ▸ hgate')

end accepted

/-- Whether an action is accepted can be computed. -/
instance (w : World) (a : OwnerAction) : Decidable (Accepted w a) :=
  match hr : w.repo.requests a.requestId with
  | none => isFalse (not_accepted_of_unknown hr)
  | some r =>
    decidable_of_iff (w.repo.interactions a.actionId = none ∧ r.state = gateOf a.decision) <| by
      rw [accepted_iff, hr]
      simp only [Option.some.injEq, exists_eq_left']

/-! ### Outcomes of a step -/

section outcomes

variable (cfg) (w : World)

theorem ingest_outcome (b : Batch) (env : External) :
    IngestOutcome cfg env b w (outcome cfg w (.ingest b env)) := exec_ingest

theorem action_outcome (a : OwnerAction) (now : Instant) (env : External) :
    ActionOutcome cfg env a now w (outcome cfg w (.action a now env)) := exec_apply

end outcomes

/-! ### Keys -/

/-- Requests are kept under their ids, and only requests have revisions. -/
structure Wf (w : World) : Prop where
  id_eq : ∀ {rid r}, w.repo.requests rid = some r → r.id = rid
  orphan : ∀ {rid}, w.repo.requests rid = none → w.repo.revisions rid = []

theorem wf_initial : Wf World.initial := ⟨by simp [World.initial, Repository.empty], fun _ => rfl⟩

/-- `w'` differs from `w` in the request `rid` alone, and keeps it in order. -/
structure Local (w : World) (rid : String) (w' : World) : Prop where
  requests : ∀ {rid'}, rid' ≠ rid → w'.repo.requests rid' = w.repo.requests rid'
  revisions : ∀ {rid'}, rid' ≠ rid → w'.repo.revisions rid' = w.repo.revisions rid'
  id_eq : ∀ {r}, w'.repo.requests rid = some r → r.id = rid
  orphan : w'.repo.requests rid = none → w'.repo.revisions rid = []

namespace Local

variable {w w' w'' : World} {rid : String}

theorem refl (hw : Wf w) : Local w rid w := ⟨fun _ => rfl, fun _ => rfl, hw.id_eq, hw.orphan⟩

/-- Only what is under the key of a request counts. -/
theorem congr (h : Local w rid w') (hreq : w''.repo.requests = w'.repo.requests)
    (hrev : w''.repo.revisions = w'.repo.revisions) : Local w rid w'' :=
  ⟨fun hne => by rw [hreq, h.requests hne], fun hne => by rw [hrev, h.revisions hne],
    fun hr => h.id_eq (by rwa [hreq] at hr), fun hr => by
      rw [hrev]
      exact h.orphan (by rwa [hreq] at hr)⟩

theorem asked (h : Local w rid w') (calls : List LLMCall) : Local w rid (w'.asked calls) :=
  h.congr rfl rfl

theorem posted (h : Local w rid w') (sent : List (Channel × OutboundMessage)) :
    Local w rid (w'.posted sent) := h.congr rfl rfl

theorem stored (h : Local w rid w') (key : String) (content : Bytes) (mime : String) :
    Local w rid (w'.stored key content mime) := h.congr rfl rfl

theorem noted (h : Local w rid w') (i : OwnerInteraction) : Local w rid (w'.noted i) :=
  h.congr rfl rfl

theorem setMessages (h : Local w rid w') (rid' : String) (messages : List Message) :
    Local w rid (w'.withRepo (w'.repo.setMessages rid' messages)) := h.congr rfl rfl

theorem saved (h : Local w rid w') (r : Request) (hr : r.id = rid) :
    Local w rid (w'.saved r) := by
  refine ⟨fun hne => ?_, fun hne => h.revisions hne, fun h' => ?_, fun h' => ?_⟩
  · rw [World.repo_saved, Repository.requests_saveRequest, if_neg (hr ▸ hne), h.requests hne]
  · rw [World.repo_saved, Repository.requests_saveRequest, if_pos hr.symm] at h'
    exact Option.some.inj h' ▸ hr
  · rw [World.repo_saved, Repository.requests_saveRequest, if_pos hr.symm] at h'
    cases h'

theorem revised (h : Local w rid w') (hpresent : w'.repo.requests rid ≠ none)
    (revision : DocumentRevision) (hr : revision.requestId = rid) :
    Local w rid (w'.withRepo (w'.repo.addRevision revision)) := by
  refine ⟨fun hne => h.requests hne, fun hne => ?_, h.id_eq, fun h' => absurd h' hpresent⟩
  rw [World.repo_withRepo, Repository.revisions_addRevision, if_neg (hr ▸ hne), h.revisions hne]

theorem wf (hw : Wf w) (h : Local w rid w') : Wf w' := by
  refine ⟨fun {rid'} {r} hr => ?_, fun {rid'} hr => ?_⟩
  · by_cases hne : rid' = rid
    · subst hne
      exact h.id_eq hr
    · rw [h.requests hne] at hr
      exact hw.id_eq hr
  · by_cases hne : rid' = rid
    · subst hne
      exact h.orphan hr
    · rw [h.requests hne] at hr
      rw [h.revisions hne]
      exact hw.orphan hr

end Local

theorem pipeline_local {env : External} {w w₀ : World} {rid : String} {r : Request} {now : Instant}
    {feedback : Option String} {previous : Option Json} {o : Outcome Op World Exn Request}
    (ho : PipelineOutcome cfg env r now feedback previous w o) (hr : r.id = rid)
    (h : Local w₀ rid w) (hpresent : w.repo.requests rid ≠ none) : Local w₀ rid o.state := by
  cases ho with
  | failed text hgen => exact (h.asked _).saved (r.moved .failed now) hr
  | stopped exc w' trace hgen hexc hrepo => exact h.congr (by rw [hrepo]) (by rw [hrepo])
  | made p hp work hwork =>
    have hstored := ((h.asked (generated cfg env r feedback previous).calls).stored
      (pdfKey r.id (r.currentRevision + 1) p.intent) p.pdf pdfMime).stored
        (docxKey r.id (r.currentRevision + 1) p.intent) p.docx docxMime
    have hrevised := hstored.revised hpresent
      (nextRevision r p.doc feedback (p.refs cfg r.id (r.currentRevision + 1)) now) hr
    exact ((hrevised.saved ((bumped r).moved .rendering now) hr).saved (delivered r now) hr).posted _

theorem ingest_local (b : Batch) (env : External) {w : World} (hw : Wf w) :
    Local w b.aggregated.requestId (enteredWorld cfg env b w) := by
  have hentered := ((Local.refl hw).saved b.request rfl).setMessages b.request.id
    b.aggregated.messages
  exact (((hentered.saved (b.request.moved .aggregating b.now) rfl).saved (processing b) rfl).saved
    (classifying cfg env b) rfl).asked _

/-- **An invocation touches no request but its own.** -/
theorem step_local {w : World} (hw : Wf w) (c : Call) : Local w c.requestId (step cfg w c) := by
  unfold step
  cases c with
  | ingest b env =>
    have h := ingest_outcome cfg w b env
    generalize outcome cfg w (.ingest b env) = o at h ⊢
    cases h with
    | unclassified => exact ingest_local b env hw
    | silent result => exact (ingest_local b env hw).saved (settledRequest cfg env b result) rfl
    | told result =>
      exact ((ingest_local b env hw).saved (settledRequest cfg env b result) rfl).posted _
  | action a now env =>
    have h := action_outcome cfg w a now env
    generalize outcome cfg w (.action a now env) = o at h ⊢
    cases h with
    | unknown | duplicate => exact .refl hw
    | refused r => exact (Local.refl hw).noted _
    | accepted r hr hfresh hgate o ho =>
      have hid : r.id = a.requestId := hw.id_eq hr
      have haccepted : Local w a.requestId (acceptedWorld a r now w) :=
        ((Local.refl hw).noted _).saved (r.moved (target a.decision) now) hid
      cases ho with
      | settled => exact haccepted
      | unnamed => exact haccepted.saved (withIntent (r.moved (target a.decision) now) none) hid
      | corrected hd intent =>
        exact (haccepted.saved (withIntent (r.moved (target a.decision) now) intent) hid).posted _
      | pipeline hd lookups hlookups o ho =>
        have hpresent : (acceptedWorld a r now w).repo.requests a.requestId ≠ none := by
          simp [acceptedWorld, hid]
        have hdone : Local w a.requestId o.state := pipeline_local ho hid haccepted hpresent
        exact hdone

theorem wf_step {w : World} (hw : Wf w) (c : Call) : Wf (step cfg w c) := (step_local hw c).wf hw

theorem wf_run (cs : List Call) : Wf (run (step cfg) World.initial cs) := by
  refine run_inv (I := Wf) (C := fun _ _ => True) (fun _ c hs _ => wf_step hs c) wf_initial ?_
  rw [along_iff]
  exact fun _ _ _ _ => trivial

theorem present_of_step_action {w : World} {a : OwnerAction} {now : Instant} {env : External}
    (h : (step cfg w (.action a now env)).repo.requests a.requestId ≠ none) :
    w.repo.requests a.requestId ≠ none := by
  unfold step at h
  have ho := action_outcome cfg w a now env
  generalize outcome cfg w (.action a now env) = o at h ho
  cases ho with
  | unknown => exact h
  | duplicate r hr | refused r hr | accepted r hr => simp [hr]

/-- The requests of a run are those it ingested, so an ingest under a new id is fresh. -/
theorem along_fresh {w : World} {cs : List Call} (hw : Wf w) (hnd : (ingestIds cs).Nodup)
    (hnew : ∀ rid ∈ ingestIds cs, w.repo.requests rid = none) : Along (step cfg) Fresh w cs := by
  induction cs generalizing w with
  | nil => trivial
  | cons c cs ih =>
    have hkeep : ∀ rid ∈ ingestIds cs, rid ∉ ingestIds [c] → w.repo.requests rid = none →
        (step cfg w c).repo.requests rid = none := by
      intro rid _ hrid hnone
      by_cases hne : rid = c.requestId
      · subst hne
        cases c with
        | ingest b env => simp [ingestIds, Call.requestId] at hrid
        | action a now env =>
          by_contra hsome
          exact present_of_step_action hsome hnone
      · rw [(step_local hw c).requests hne, hnone]
    cases c with
    | ingest b env =>
      obtain ⟨hb, hcs⟩ := List.nodup_cons.mp hnd
      refine ⟨hnew _ List.mem_cons_self, ih (wf_step hw _) hcs fun rid hrid => ?_⟩
      have hne : rid ∉ ingestIds [Call.ingest b env] := by
        simp only [ingestIds, List.mem_singleton]
        rintro rfl
        exact hb hrid
      exact hkeep rid hrid hne (hnew rid (List.mem_cons_of_mem _ hrid))
    | action a now env =>
      exact ⟨trivial, ih (wf_step hw _) hnd fun rid hrid =>
        hkeep rid hrid (by simp [ingestIds]) (hnew rid hrid)⟩

/-- **Distinct ids make every ingest of a run fresh.** -/
theorem fresh_of_nodup {cs : List Call} (h : (ingestIds cs).Nodup) :
    Along (step cfg) Fresh World.initial cs := along_fresh wf_initial h fun _ _ => rfl

/-! ### What an accepted action leaves -/

section left

variable {env : External} {w : World} {a : OwnerAction} {r : Request} {now : Instant}

theorem acceptedWorld_requests (hid : r.id = a.requestId) :
    (acceptedWorld a r now w).repo.requests a.requestId =
      some (r.moved (target a.decision) now) := by
  simp [acceptedWorld, hid]

theorem pipeline_request {feedback : Option String} {previous : Option Json}
    {o : Outcome Op World Exn Request} {rid : String} (hid : r.id = rid)
    (hr : w.repo.requests rid = some r)
    (ho : PipelineOutcome cfg env r now feedback previous w o) :
    o.state.repo.requests rid = some (r.moved .failed now) ∨
      o.state.repo.requests rid = some r ∨ o.state.repo.requests rid = some (delivered r now) := by
  subst hid
  cases ho with
  | failed => exact .inl (by simp)
  | stopped exc w' trace hgen hexc hrepo => exact .inr (.inl (by rw [hrepo, hr]))
  | made p =>
    have hdelivered : (delivered r now).id = r.id := rfl
    exact .inr (.inr (by simp [madeWorld, hdelivered]))

end left

theorem present_of_ingest (w : World) (b : Batch) (env : External) :
    (step cfg w (.ingest b env)).repo.requests b.aggregated.requestId ≠ none := by
  have h := ingest_outcome cfg w b env
  unfold step
  generalize outcome cfg w (.ingest b env) = o at h ⊢
  have hsaved : ∀ (w' : World) (r : Request), r.id = b.aggregated.requestId →
      (w'.saved r).repo.requests b.aggregated.requestId ≠ none := by
    intro w' r hid
    simp [hid]
  cases h with
  | unclassified => exact hsaved _ (classifying cfg env b) rfl
  | silent result | told result => exact hsaved _ (settledRequest cfg env b result) rfl

variable (cfg) in
/-- **Requests are never removed.** -/
theorem present_step {w : World} (hw : Wf w) (c : Call) {rid : String}
    (h : w.repo.requests rid ≠ none) : (step cfg w c).repo.requests rid ≠ none := by
  by_cases hne : rid = c.requestId
  · subst hne
    cases c with
    | ingest b env => exact present_of_ingest w b env
    | action a now env =>
      have ho := action_outcome cfg w a now env
      unfold step
      generalize outcome cfg w (.action a now env) = o at ho ⊢
      cases ho with
      | unknown | duplicate | refused => exact h
      | accepted r hr hfresh hgate o ho =>
        have hid : r.id = a.requestId := hw.id_eq hr
        have hsaved : ∀ (w' : World) (r' : Request), r'.id = a.requestId →
            (w'.saved r').repo.requests a.requestId ≠ none := by
          intro w' r' hid'
          simp [hid']
        cases ho with
        | settled => exact hsaved _ (r.moved (target a.decision) now) hid
        | unnamed => exact hsaved _ (withIntent (r.moved (target a.decision) now) none) hid
        | corrected hd intent =>
          exact hsaved _ (withIntent (r.moved (target a.decision) now) intent) hid
        | pipeline hd lookups hlookups o ho =>
          have hid' : (r.moved (target a.decision) now).id = a.requestId := hid
          rcases pipeline_request hid' (acceptedWorld_requests hid) ho with hr' | hr' | hr' <;>
            simp [Call.requestId, hr']
  · rwa [(step_local hw c).requests hne]

/-! ### The record of interactions -/

theorem pipeline_interactions {env : External} {w : World} {r : Request} {now : Instant}
    {feedback : Option String} {previous : Option Json} {o : Outcome Op World Exn Request}
    (ho : PipelineOutcome cfg env r now feedback previous w o) :
    o.state.repo.interactions = w.repo.interactions := by
  cases ho with
  | failed => rfl
  | stopped exc w' trace hgen hexc hrepo => exact congrArg Repository.interactions hrepo
  | made => rfl

theorem interactions_ingest (w : World) (b : Batch) (env : External) :
    (step cfg w (.ingest b env)).repo.interactions = w.repo.interactions := by
  have h := ingest_outcome cfg w b env
  unfold step
  generalize outcome cfg w (.ingest b env) = o at h ⊢
  cases h <;> rfl

variable (cfg) in
/-- **What an action records**: itself, if its request exists and its id is new. -/
theorem interactions_action (w : World) (a : OwnerAction) (now : Instant) (env : External) :
    (step cfg w (.action a now env)).repo.interactions =
      if w.repo.requests a.requestId ≠ none ∧ w.repo.interactions a.actionId = none then
        Function.update w.repo.interactions a.actionId (some (interactionOf a))
      else w.repo.interactions := by
  have h := action_outcome cfg w a now env
  unfold step
  generalize outcome cfg w (.action a now env) = o at h ⊢
  cases h with
  | unknown hr => rw [if_neg (by simp [hr])]
  | duplicate r hr hdup => rw [if_neg (by simp [hdup])]
  | refused r hr hfresh =>
    rw [if_pos ⟨by simp [hr], hfresh⟩]
    rfl
  | accepted r hr hfresh hgate o ho =>
    rw [if_pos ⟨by simp [hr], hfresh⟩]
    cases ho with
    | settled | unnamed | corrected => rfl
    | pipeline hd lookups hlookups o ho => exact pipeline_interactions ho

/-! ### A small instance

A configuration with scripted external behaviour, on which the general results are instantiated. -/

namespace Sample

def classifierText (intent : Intent) : String :=
  "\x7b\"intent\":\"" ++ intent.value ++ "\",\"confidence\":1.0,\"rationale\":\"\"\x7d"

def classifierJson (intent : Intent) : Json :=
  .obj [("intent", .str intent.value), ("confidence", .float (.finite 1)), ("rationale", .str "")]

/-- `json.loads` and the schema, on the answers of the scripted classifier. -/
def decoder : Decoder where
  loads text :=
    if text = classifierText .executionPlan then .ok (classifierJson .executionPlan)
    else if text = classifierText .none then .ok (classifierJson .none)
    else .error (.jsonDecode "Expecting value: line 1 column 1 (char 0)")
  validate
    | .obj [("intent", .str intent), ("confidence", .float _), ("rationale", .str rationale)] =>
      if intent = "execution_plan" then .ok ⟨.executionPlan, .one, rationale⟩
      else .ok ⟨.none, .one, rationale⟩
    | _ => .error (.validation "3 validation errors for ClassificationResult")

def planText : String := "\x7b\"title\":\"Deck\",\"overview\":\"\",\"phases\":[]\x7d"

/-- `json.loads` and the schemas, on the scripted plan; there is no float in it. -/
def contentCodec : ContentCodec where
  loads text :=
    if text = planText then
      .ok (.obj [("title", .str "Deck"), ("overview", .str ""), ("phases", .arr [])])
    else .error (.jsonDecode "Expecting value: line 1 column 1 (char 0)")
  floatRepr _ := "0.0"
  quoteContent _ := .error (.validation "4 validation errors for QuoteContent")
  executionPlanContent _ := .ok
    { title := "Deck", overview := "", materials := [], phases := [], qualityCheckpoints := []
      cleanup := none, notes := none }

def start : Instant := seconds 1781179200

def ttl : ℤ := 604800

/-- The JSON of a token whose strings need no escape. -/
def tokenJson (t : ActionToken) : String :=
  let gate := match t.gate with
    | .classification => "classification"
    | .approval => "approval"
  let decision := match t.decision with
    | .confirm => "confirm"
    | .correct => "correct"
    | .reject => "reject"
    | .approve => "approve"
    | .revise => "revise"
  let intent := match t.intent with
    | some intent => "\"" ++ intent.value ++ "\""
    | none => "null"
  "\x7b\"request_id\":\"" ++ t.requestId ++ "\",\"gate\":\"" ++ gate ++ "\",\"decision\":\"" ++
    decision ++ "\",\"expires_at\":\"" ++ ((isoformat t.expiresAt).dropEnd 6).toString ++
    "Z\",\"intent\":" ++ intent ++ ",\"revision_no\":" ++ intText t.revisionNo ++ "\x7d"

/-- The tokens of request `r1` that are issued at `start`. -/
def tokens : List ActionToken :=
  (classificationChoices.map fun (_, decision, intent) =>
    ⟨"r1", .classification, decision, start + seconds ttl, intent, 0⟩) ++
  approvalChoices.flatMap fun (_, decision) =>
    [⟨"r1", .approval, decision, start + seconds ttl, none, 1⟩,
      ⟨"r1", .approval, decision, start + seconds ttl, none, 2⟩]

/-- The JSON of those tokens, written and read. -/
def codec : TokenCodec where
  modelDumpJson := tokenJson
  modelValidateJson bs :=
    match tokens.find? fun t => utf8 (tokenJson t) = bs with
    | some t => .ok t
    | none => .error (.validation "1 validation error for ActionToken")

deriving instance Encodable for OwnerInteractionKind, OwnerDecision, Intent

instance : Countable ActionToken := by
  let f : ActionToken → List ℕ × OwnerInteractionKind × OwnerDecision × ℤ × Option Intent × ℤ :=
    fun t => (t.requestId.toList.map Char.toNat, t.gate, t.decision, t.expiresAt, t.intent,
      t.revisionNo)
  refine Function.Injective.countable (f := f) ?_
  rintro ⟨⟩ ⟨⟩ h
  have hchar : Function.Injective Char.toNat := fun _ _ => Char.toNat_inj.mp
  simpa [f, String.toList_inj, hchar.list_map.eq_iff] using h

/-- A numbering of all tokens. -/
noncomputable def number : ActionToken → ℕ := (exists_injective_nat ActionToken).choose

theorem number_injective : Function.Injective number :=
  (exists_injective_nat ActionToken).choose_spec

/-- The JSON of the listed tokens, and some text of its own for every other token. -/
noncomputable def someJson (t : ActionToken) : String :=
  if t ∈ tokens then tokenJson t else "#" ++ natText (number t)

theorem someJson_injective : Function.Injective someJson := by
  have hne : ∀ t n, tokenJson t ≠ "#" ++ natText n := by
    intro t n h
    have hbrace : ∃ cs, (tokenJson t).toList = '\x7b' :: cs := by
      unfold tokenJson
      simp only [String.append_assoc, String.toList_append]
      exact ⟨_, rfl⟩
    obtain ⟨cs, hcs⟩ := hbrace
    rw [h, String.toList_append] at hcs
    exact absurd (List.cons.inj hcs).1 (by decide)
  have hinj := List.inj_on_of_nodup_map (l := tokens) (f := tokenJson) (by decide +kernel)
  intro t t' h
  unfold someJson at h
  split_ifs at h with ht ht' ht'
  · exact hinj ht ht' h
  · exact absurd h (hne _ _)
  · exact absurd h.symm (hne _ _)
  · rw [String.append_right_inj] at h
    exact number_injective (Lib.Text.repr_injective h)

/-- A codec that reads every token back, and writes the listed ones as they are written. -/
noncomputable def lossless : TokenCodec where
  modelDumpJson := someJson
  modelValidateJson bs :=
    match Function.partialInv (fun t => utf8 (someJson t)) bs with
    | some t => .ok t
    | none => .error (.validation "1 validation error for ActionToken")

theorem lossless_lossless : lossless.Lossless := by
  intro t
  have hread : Function.partialInv (fun t => utf8 (someJson t)) (utf8 (someJson t)) = some t :=
    Function.partialInv_left (utf8_injective.comp someJson_injective) t
  simp only [lossless, hread]

def config (codec : TokenCodec) (notifyOnNone : Bool) : Config where
  mediaProcessor := ⟨"whisper", "vision", "Describe this photo.", 3⟩
  classifier := ⟨"small", "v1", decoder⟩
  generator := ⟨"large", "v1", 1, .finite 0, contentCodec⟩
  notify :=
    { signer := ⟨"secret", ttl, codec⟩
      dispatcher := ⟨fun channel => if channel = .email then some "owner@example.com" else none⟩
      baseUrl := "https://planner.example"
      confidenceThreshold := .one
      notifyChannel := .email
      deliverChannel := .email }
  branding := ⟨"Builders", none, none, none⟩
  threshold := .one
  notifyOnNone := notifyOnNone
  storageRef key := "memory://" ++ key

def mediaDown : MediaProviders where
  transcribe _ _ _ _ := .error "unavailable"
  describe _ _ _ _ _ _ := .error "unavailable"
  extractAudio _ _ := .error "unavailable"
  sampleFrames _ _ _ := .error "unavailable"
  extract _ _ _ := .error "unavailable"

/-- Every external call succeeds, the language model with a fixed text. -/
def external (text : String) : External where
  llm _ call := .ok ⟨text, call.model, 0, 0, .finite 0⟩
  media := mediaDown
  renderers := ⟨fun _ => .ok (utf8 "%PDF"), fun _ => .ok (utf8 "PK")⟩
  put _ := .ok ()
  send _ _ := .ok "msg-1"

/-- The language model is down. -/
def llmDown : External := { external "" with llm := fun _ _ => .error "timeout" }

def batch (rid : String) (now : Instant) : Batch where
  aggregated := ⟨rid, "ana", now, now,
    [⟨"wamid.1", .text, 0, now, some "How much for a deck?", none, none, none, none, none⟩]⟩
  media _ := none
  clientName := "Ana"
  now := now
  extraFlags := []

/-- A click on a link of request `rid`. -/
def click (rid actionId : String) (decision : OwnerDecision) (revisionNo : ℤ) : OwnerAction where
  requestId := rid
  gate := match decision with
    | .confirm | .correct | .reject => .classification
    | .approve | .revise => .approval
  decision := decision
  actionId := actionId
  intent := none
  revisionNo := revisionNo
  feedback := none

/-- An ingest and a confirmation at `start`. -/
def oneRevision : List Call :=
  [.ingest (batch "r1" (start - 2)) (external (classifierText .executionPlan)),
    .action (click "r1" "a1" .confirm 0) start (external planText)]

end Sample

end WappPlanner.Orchestrator
