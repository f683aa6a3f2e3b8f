import WappPlanner.Orchestrator.Gates

/-! # Live links

A link is live when clicking it next gets its action accepted. The links of a prompt are chosen by
its gate alone, so they are live exactly when the prompt reaches a request that waits at that gate
and their actions were not recorded already: `live_iff`. The one prompt that asks about a request
that does not wait is the notification of an ingest answered `none`. In a run of genuine clicks, at
increasing times, nothing else can go wrong: `live_iff_of_clicks`. -/

namespace WappPlanner.Orchestrator

open WappPlanner.Documents.Generation WappPlanner.Domain.Enums WappPlanner.Domain.Models
open WappPlanner.Errors WappPlanner.Hitl.Dispatcher WappPlanner.Hitl.Messages
open WappPlanner.Hitl.Service WappPlanner.Hitl.Tokens WappPlanner.Lib.Programs
open WappPlanner.Lib.Runs WappPlanner.Nlp.Classification WappPlanner.Persistence.InMemory
open WappPlanner.Py.Text WappPlanner.Py.Values WappPlanner.Workflow.Enums
open WappPlanner.Workflow.StateMachine

def Call.time : Call → Instant
  | .ingest b _ => b.now
  | .action _ now _ => now

/-- The id of the action an invocation applies. -/
def Call.actionId? : Call → Option String
  | .ingest _ _ => none
  | .action a _ _ => some a.actionId

variable (cfg : Config)

/-- The tokens behind the links of a prompt. -/
def linkTokens : Entry Op → List String
  | ⟨_, .notifyClassification r _ _ t, _⟩ =>
    (classificationTokens cfg.notify.signer r t).map (·.2)
  | ⟨_, .deliverDocument r n _ t, _⟩ => (approvalTokens cfg.notify.signer r t n).map (·.2)
  | _ => []

/-- The invocation sends the link of a token: the link is in its prompt, and a message went out. -/
def SentLink (w : World) (c : Call) (token : String) : Prop :=
  token ∈ (performed cfg (w, c)).flatMap (linkTokens cfg) ∧ (step cfg w c).outbox ≠ w.outbox

/-- **Every link sent is live**: clicked next, before it expires, it resolves to an action that is
accepted. -/
def LinksLive (w : World) (c : Call) : Prop :=
  ∀ token, SentLink cfg w c token → ∀ now feedback, c.time < now →
    now < c.time + cfg.notify.signer.ttl →
      ∃ a, cfg.notify.resolveAction token now feedback = .ok a ∧ Accepted (step cfg w c) a

/-- The classifier finds nothing to do in the batch of an ingest. -/
def AnsweredNone : Call → Prop
  | .ingest b env => ∃ result, (classification cfg env b).1 = .ok result ∧
      result.isActionable = false
  | .action _ _ _ => False

/-- The action of a link was recorded neither before an invocation nor by it. -/
def Unclicked (w : World) (c : Call) (token : String) : Prop :=
  w.repo.interactions (actionId token) = none ∧ c.actionId? ≠ some (actionId token)

/-- The links an invocation sends ask about a request that waits, and for new actions. -/
def Lively (w : World) (c : Call) : Prop :=
  ∀ token, SentLink cfg w c token → ¬ AnsweredNone cfg c ∧ Unclicked w c token

variable {cfg} {w : World}

/-! ### What a sent link is for -/

theorem mem_classificationTokens {signer : TokenSigner} {r : Request} {t : Instant} {token : String}
    (h : token ∈ (classificationTokens signer r t).map (·.2)) :
    ∃ d intent, gateOf d = .awaitingClassification ∧
      token = signer.issue r.id .classification d t intent 0 := by
  simp only [classificationTokens, classificationChoices, List.map_cons, List.map_nil,
    List.mem_cons, List.not_mem_nil, or_false] at h
  rcases h with rfl | rfl | rfl | rfl <;> exact ⟨_, _, rfl, rfl⟩

theorem mem_approvalTokens {signer : TokenSigner} {r : Request} {t : Instant} {n : ℕ}
    {token : String} (h : token ∈ (approvalTokens signer r t n).map (·.2)) :
    ∃ d, gateOf d = .awaitingApproval ∧ token = signer.issue r.id .approval d t none n := by
  simp only [approvalTokens, approvalChoices, List.map_cons, List.map_nil, List.mem_cons,
    List.not_mem_nil, or_false] at h
  rcases h with rfl | rfl <;> exact ⟨_, rfl, rfl⟩

/-- The request waits for the decision `d`, unless the classifier found nothing to do. -/
structure SentFor (cfg : Config) (w : World) (c : Call) (token : String) (d : OwnerDecision) :
    Prop where
  issued : ∃ gate intent n, token = cfg.notify.signer.issue c.requestId gate d c.time intent n
  waits : ¬ AnsweredNone cfg c → stateOf (step cfg w c) c.requestId = some (gateOf d)
  discards : AnsweredNone cfg c → stateOf (step cfg w c) c.requestId = some .discarded
  accepted : ∀ a now env, c = .action a now env → Accepted w a

theorem linkTokens_quiet {args : GenerateArgs} {es : List (Entry Op)}
    (h : ∀ e ∈ es, Quiet args e) : es.flatMap (linkTokens cfg) = [] := by
  refine List.flatMap_eq_nil_iff.mpr fun e he => ?_
  have hq := h e he
  obtain ⟨β, o, b⟩ := e
  cases o <;> first | rfl | exact hq.elim

theorem sentFor_ingest {b : Batch} {env : External} {token : String}
    (h : SentLink cfg w (.ingest b env) token) : ∃ d, SentFor cfg w (.ingest b env) token d := by
  obtain ⟨hmem, hout⟩ := h
  have ho := ingest_outcome cfg w b env
  have hstep : step cfg w (.ingest b env) = (outcome cfg w (.ingest b env)).state := rfl
  unfold performed at hmem
  dsimp only at hmem
  generalize outcome cfg w (.ingest b env) = o at ho hmem hstep
  cases ho with
  | unclassified => cases hmem
  | silent => cases hmem
  | told result hres =>
    have htoken : token ∈ (classificationTokens cfg.notify.signer (settledRequest cfg env b result)
        b.now).map (·.2) := by simpa [enteredTrace, linkTokens, did] using hmem
    obtain ⟨d, intent, hd, rfl⟩ := mem_classificationTokens htoken
    have hstate : stateOf (step cfg w (.ingest b env)) b.aggregated.requestId =
        some (settledState result) := by
      rw [hstep]
      exact stateOf_saved (r := settledRequest cfg env b result) rfl
    refine ⟨d, ⟨_, _, _, rfl⟩, fun hnone => ?_, ?_, fun _ _ _ hc => (by cases hc)⟩
    · have ha : result.isActionable = true := by
        by_contra ha
        exact hnone ⟨result, hres, by simpa using ha⟩
      rw [Call.requestId, hstate, settledState, if_pos ha, hd]
    · rintro ⟨result', hres', ha⟩
      rw [hres, Except.ok.injEq] at hres'
      rw [Call.requestId, hstate, settledState, hres', if_neg (by simp [ha])]

theorem sentFor_action (hw : Wf w) {a : OwnerAction} {now : Instant} {env : External}
    {token : String} (h : SentLink cfg w (.action a now env) token) :
    ∃ d, SentFor cfg w (.action a now env) token d := by
  obtain ⟨hmem, hout⟩ := h
  have ho := action_outcome cfg w a now env
  have hstep : step cfg w (.action a now env) = (outcome cfg w (.action a now env)).state := rfl
  unfold performed at hmem
  dsimp only at hmem
  generalize outcome cfg w (.action a now env) = o at ho hmem hstep
  cases ho with
  | unknown | duplicate | refused => cases hmem
  | accepted r hr hfresh hgate o ho =>
    have hacc : Accepted w a := accepted_iff.mpr ⟨r, hr, hfresh, hgate⟩
    have hid : r.id = a.requestId := hw.id_eq hr
    cases ho with
    | settled | unnamed => cases hmem
    | corrected hd intent =>
      have htoken : token ∈ (classificationTokens cfg.notify.signer
          (withIntent (r.moved (target a.decision) now) intent) now).map (·.2) := by
        simpa [linkTokens, did] using hmem
      obtain ⟨d, intent', hd', rfl⟩ := mem_classificationTokens htoken
      have hnamed : (withIntent (r.moved (target a.decision) now) intent).id = a.requestId := hid
      refine ⟨d, ⟨_, intent', 0, by rw [hnamed]; rfl⟩, fun _ => ?_, fun hno => hno.elim, ?_⟩
      · rw [hstep, Call.requestId, hd']
        refine (stateOf_saved hnamed).trans (congrArg some ?_)
        change target a.decision = _
        rw [hd]
        rfl
      · rintro a' now' env' hc
        obtain ⟨rfl, -, -⟩ := Call.action.inj hc
        exact hacc
    | pipeline hd lookups hlookups o ho =>
      have hrest : token ∈ o.trace.flatMap (linkTokens cfg) := by
        have hlist : token ∈ (lookups ++ o.trace).flatMap (linkTokens cfg) := hmem
        rwa [List.flatMap_append, linkTokens_quiet hlookups, List.nil_append] at hlist
      cases ho with
      | failed => cases hrest
      | stopped exc w' trace hgen hexc hrepo houtbox hstorage htrace =>
        rw [linkTokens_quiet htrace] at hrest
        cases hrest
      | made p hp work hwork =>
        rw [List.flatMap_append, linkTokens_quiet hwork, List.nil_append] at hrest
        have htoken : token ∈ (approvalTokens cfg.notify.signer
            (delivered (r.moved (target a.decision) now) now) now (r.currentRevision + 1)).map
              (·.2) := by simpa [madeTrace, linkTokens, did] using hrest
        obtain ⟨d, hd', rfl⟩ := mem_approvalTokens htoken
        have hdelivered : (delivered (r.moved (target a.decision) now) now).id = a.requestId := hid
        refine ⟨d, ⟨_, none, (r.currentRevision + 1 : ℕ), by rw [hdelivered]; rfl⟩, fun _ => ?_,
          fun hno => hno.elim, ?_⟩
        · rw [hstep, Call.requestId, hd']
          exact stateOf_saved hdelivered
        · rintro a' now' env' hc
          obtain ⟨rfl, -, -⟩ := Call.action.inj hc
          exact hacc

theorem sentFor (hw : Wf w) {c : Call} {token : String} (h : SentLink cfg w c token) :
    ∃ d, SentFor cfg w c token d := by
  cases c with
  | ingest b env => exact sentFor_ingest h
  | action a now env => exact sentFor_action hw h

/-! ### One invocation -/

theorem accepted_iff_stateOf {a : OwnerAction} : Accepted w a ↔
    stateOf w a.requestId = some (gateOf a.decision) ∧ w.repo.interactions a.actionId = none := by
  rw [accepted_iff, stateOf, Option.map_eq_some_iff]
  constructor
  · rintro ⟨r, hr, hfresh, hgate⟩
    exact ⟨⟨r, hr, hgate⟩, hfresh⟩
  · rintro ⟨⟨r, hr, hgate⟩, hfresh⟩
    exact ⟨r, hr, hfresh, hgate⟩

theorem unrecorded_iff {c : Call} {token : String}
    (hacc : ∀ a now env, c = .action a now env → Accepted w a) :
    (step cfg w c).repo.interactions (actionId token) = none ↔ Unclicked w c token := by
  unfold Unclicked
  cases c with
  | ingest b env => simp [interactions_ingest, Call.actionId?]
  | action a now env =>
    obtain ⟨r, hr, hfresh, -⟩ := accepted_iff.mp (hacc a now env rfl)
    rw [interactions_action, if_pos ⟨by simp [hr], hfresh⟩, Function.update_apply]
    by_cases hid : actionId token = a.actionId
    · simp [hid, Call.actionId?]
    · simp [hid, Call.actionId?, Ne.symm hid]

/-- **When the links of an invocation are live.** -/
theorem live_step_iff (hjson : cfg.notify.signer.codec.Lossless)
    (httl : 0 < cfg.notify.signer.ttlSeconds) (hw : Wf w) (c : Call) :
    LinksLive cfg w c ↔ Lively cfg w c := by
  refine forall_congr' fun token => forall_congr' fun hsent => ?_
  obtain ⟨d, ⟨gate, intent, n, rfl⟩, hwaits, hover, hacc⟩ := sentFor hw hsent
  constructor
  · intro hlive
    have hsecond : c.time + 1 < c.time + cfg.notify.signer.ttl := by
      have hlong : (1 : ℤ) < 1000000 * cfg.notify.signer.ttlSeconds := by omega
      exact add_lt_add_right hlong c.time
    obtain ⟨a, hres, haccepted⟩ := hlive (c.time + 1) none (lt_add_one c.time) hsecond
    rw [NotificationService.resolveAction_issue_ok hjson hres, accepted_iff_stateOf] at haccepted
    refine ⟨fun hnone => ?_, (unrecorded_iff hacc).mp haccepted.2⟩
    have hgate := haccepted.1
    dsimp only at hgate
    rw [hover hnone, Option.some.injEq] at hgate
    cases d <;> cases hgate
  · rintro ⟨hnone, hnew⟩ now feedback - hexpiry
    refine ⟨_, NotificationService.resolveAction_issue hjson hexpiry feedback, ?_⟩
    rw [accepted_iff_stateOf]
    exact ⟨hwaits hnone, (unrecorded_iff hacc).mpr hnew⟩

/-! ### Whole runs -/

/-- With links that do not expire at once, the links of a run are live if they are lively. -/
theorem linksLive_iff (hjson : cfg.notify.signer.codec.Lossless)
    (httl : 0 < cfg.notify.signer.ttlSeconds) (cs : List Call) :
    Along (step cfg) (LinksLive cfg) World.initial cs ↔
      Along (step cfg) (Lively cfg) World.initial cs :=
  along_congr (I := Wf) (C := fun _ _ => True) (fun _ c hw _ => wf_step hw c)
    (fun _ c hw _ => live_step_iff hjson httl hw c) wf_initial
    (along_iff.mpr fun _ _ _ _ => trivial)

/-- **When every link is live.** The links sent in a run are all live if and only if they expire at
once, or each of them is sent by an invocation that is no ingest answered `none` and stands for an
action that was not recorded. -/
theorem live_iff (hjson : cfg.notify.signer.codec.Lossless) (cs : List Call) :
    Along (step cfg) (LinksLive cfg) World.initial cs ↔
      (0 < cfg.notify.signer.ttlSeconds → Along (step cfg) (Lively cfg) World.initial cs) := by
  by_cases httl : 0 < cfg.notify.signer.ttlSeconds
  · rw [forall_prop_of_true httl]
    exact linksLive_iff hjson httl cs
  · refine iff_of_true (along_iff.mpr fun pre c post hcs token hsent now feedback hnow hexpiry => ?_)
      fun h => absurd h httl
    have hshort : cfg.notify.signer.ttl ≤ 0 := by
      have hle : 1000000 * cfg.notify.signer.ttlSeconds ≤ 0 := by omega
      exact hle
    have hcontra := hnow.trans hexpiry
    exact absurd hcontra (not_lt.mpr (add_le_of_nonpos_right hshort))

theorem exists_sentLink {c : Call}
    (hlinks : ((performed cfg (w, c)).flatMap (linkTokens cfg)).isEmpty = false)
    (hout : (step cfg w c).outbox.length ≠ w.outbox.length) : ∃ token, SentLink cfg w c token := by
  obtain ⟨token, htoken⟩ := List.exists_mem_of_ne_nil _ (List.isEmpty_eq_false_iff.mp hlinks)
  exact ⟨token, htoken, fun h => hout (congrArg List.length h)⟩

namespace Sample

/-- An ingest whose classifier answers `intent`. -/
def announced (intent : Intent) : Call :=
  .ingest (batch "r1" start) (external (classifierText intent))

theorem lively_announced :
    Lively (config lossless false) World.initial (announced .executionPlan) := by
  rintro token -
  refine ⟨?_, rfl, fun hid => (by cases hid)⟩
  rintro ⟨result, hres, ha⟩
  have hplan : (classification (config lossless false)
      (external (classifierText .executionPlan)) (batch "r1" start)).1 =
        .ok ⟨.executionPlan, .one, ""⟩ := by decide +kernel
  rw [hplan, Except.ok.injEq] at hres
  rw [← hres] at ha
  exact absurd ha (by decide)

end Sample

open Sample in
/-- The links of one announced ingest are live. -/
theorem live_iff_announced :
    (∃ token, SentLink (config lossless false) World.initial (announced .executionPlan) token) ∧
      Along (step (config lossless false)) (LinksLive (config lossless false)) World.initial
        [announced .executionPlan] :=
  ⟨exists_sentLink (by decide +kernel) (by decide +kernel),
    (live_iff lossless_lossless _).mpr fun _ => ⟨lively_announced, trivial⟩⟩

open Sample in
/-- With `notify_on_none`, the links about a request that is already discarded are dead. -/
theorem dead_links :
    ¬ ∀ (cfg : Config) (cs : List Call), cfg.notify.signer.codec.Lossless → (ingestIds cs).Nodup →
      Along (step cfg) (LinksLive cfg) World.initial cs := by
  intro h
  have hlive := (h (config lossless true) [announced .none] lossless_lossless (by decide)).1
  obtain ⟨token, hsent⟩ : ∃ token,
      SentLink (config lossless true) World.initial (announced .none) token :=
    exists_sentLink (by decide +kernel) (by decide +kernel)
  have hnone : (classification (config lossless true) (external (classifierText .none))
      (batch "r1" start)).1 = .ok ⟨.none, .one, ""⟩ := by decide +kernel
  have hlively := (live_step_iff lossless_lossless (by decide) wf_initial _).mp hlive
  exact (hlively token hsent).1 ⟨_, hnone, rfl⟩

/-! ### Genuine clicks -/

variable (cfg) in
/-- Every action of the run is a click on a link that was sent before. -/
def Clicks (cs : List Call) : Prop :=
  ∀ pre a now env post, cs = pre ++ .action a now env :: post →
    ∃ e ∈ history (step cfg) World.initial pre, ∃ token feedback,
      SentLink cfg e.1 e.2 token ∧ cfg.notify.resolveAction token now feedback = .ok a

variable (cfg) in
/-- Different links of the run have different action ids. -/
def NoCollision (cs : List Call) : Prop :=
  ∀ e ∈ history (step cfg) World.initial cs, ∀ e' ∈ history (step cfg) World.initial cs,
    ∀ token token', SentLink cfg e.1 e.2 token → SentLink cfg e'.1 e'.2 token' →
      actionId token = actionId token' → token = token'

theorem applied_of_recorded {cs : List Call} {id : String}
    (h : (run (step cfg) World.initial cs).repo.interactions id ≠ none) :
    ∃ pre a now env post, cs = pre ++ .action a now env :: post ∧ a.actionId = id := by
  induction cs using List.reverseRecOn with
  | nil => exact absurd rfl h
  | append_singleton cs c ih =>
    have hold : (run (step cfg) World.initial cs).repo.interactions id ≠ none →
        ∃ pre a now env post, cs ++ [c] = pre ++ .action a now env :: post ∧ a.actionId = id := by
      intro h
      obtain ⟨pre, a, now, env, post, rfl, hid⟩ := ih h
      exact ⟨pre, a, now, env, post ++ [c], by simp, hid⟩
    rw [run_append, run_cons, run_nil] at h
    cases c with
    | ingest b env =>
      rw [interactions_ingest] at h
      exact hold h
    | action a now env =>
      rw [interactions_action] at h
      split_ifs at h with hnew
      · by_cases hid : id = a.actionId
        · exact ⟨cs, a, now, env, [], rfl, hid.symm⟩
        · rw [Function.update_of_ne hid] at h
          exact hold h
      · exact hold h

/-- An action applied before `c`, or by `c`, has the id of no link that `c` sends: its own link was
sent earlier. -/
theorem actionId_ne_of_clicks (hjson : cfg.notify.signer.codec.Lossless) {cs pre post : List Call}
    {c : Call} {token : String} (htimes : cs.Pairwise fun c c' => c.time < c'.time)
    (hclicks : Clicks cfg cs) (hsha : NoCollision cfg cs) (hcs : cs = pre ++ c :: post)
    (hsent : SentLink cfg (run (step cfg) World.initial pre) c token) {pre' post' : List Call}
    {a : OwnerAction} {now : Instant} {env : External}
    (hcs' : pre ++ [c] = pre' ++ .action a now env :: post') : a.actionId ≠ actionId token := by
  have hsplit : cs = pre' ++ .action a now env :: (post' ++ post) := by
    rw [hcs, ← List.singleton_append, ← List.append_assoc, hcs']
    simp
  obtain ⟨e, he, token', feedback, hsent', hres⟩ := hclicks pre' a now env _ hsplit
  obtain ⟨pre₀, post₀, hpre', he₁⟩ := mem_history.mp he
  have hmem : (run (step cfg) World.initial pre, c) ∈ history (step cfg) World.initial cs :=
    mem_history.mpr ⟨pre, post, hcs, rfl⟩
  have hmem' : e ∈ history (step cfg) World.initial cs := by
    refine mem_history.mpr ⟨pre₀, post₀ ++ .action a now env :: (post' ++ post), ?_, he₁⟩
    rw [hsplit, hpre']
    simp
  -- the link of `a` was sent before `a`, which is no later than `c`
  have hbefore : e.2.time < c.time := by
    have hlast : c ∈ Call.action a now env :: post' := by
      have hget : (pre' ++ .action a now env :: post').getLast? = some c := by
        rw [← hcs', List.getLast?_concat]
      rw [List.getLast?_append_of_ne_nil _ (by simp)] at hget
      exact List.mem_of_getLast? hget
    have hpair : (pre ++ [c]).Pairwise fun c c' => c.time < c'.time := by
      refine htimes.sublist ?_
      rw [hcs, List.append_cons pre c post]
      exact List.sublist_append_left _ _
    rw [hcs'] at hpair
    exact (List.pairwise_append.mp hpair).2.2 e.2 (by rw [hpre']; simp) c hlast
  intro hid
  obtain ⟨d, ⟨gate, intent, n, rfl⟩, -⟩ := sentFor (wf_run pre) hsent
  have hwe : Wf e.1 := he₁ ▸ wf_run pre₀
  obtain ⟨d', ⟨gate', intent', n', rfl⟩, -⟩ := sentFor hwe hsent'
  rw [NotificationService.resolveAction_issue_ok hjson hres] at hid
  have htoken := hsha _ hmem' _ hmem _ _ hsent' hsent hid
  exact absurd (TokenSigner.issue_injective hjson htoken).2.2.2.1 hbefore.ne

/-- **In a run of genuine clicks**, at increasing times and without a collision of digests, the
links sent are all live if and only if no ingest answered `none` is announced. -/
theorem live_iff_of_clicks (hjson : cfg.notify.signer.codec.Lossless)
    (httl : 0 < cfg.notify.signer.ttlSeconds) {cs : List Call}
    (htimes : cs.Pairwise fun c c' => c.time < c'.time) (hclicks : Clicks cfg cs)
    (hsha : NoCollision cfg cs) :
    Along (step cfg) (LinksLive cfg) World.initial cs ↔ Along (step cfg)
      (fun w c => (∃ token, SentLink cfg w c token) → ¬ AnsweredNone cfg c) World.initial cs := by
  rw [linksLive_iff hjson httl, along_iff, along_iff]
  refine forall_congr' fun pre => forall_congr' fun c => forall_congr' fun post =>
    forall_congr' fun hcs => ?_
  constructor
  · rintro h ⟨token, hsent⟩
    exact (h token hsent).1
  · intro h token hsent
    refine ⟨h ⟨token, hsent⟩, ?_, fun hown => ?_⟩
    · by_contra hrecorded
      obtain ⟨pre', a, now, env, post', hpre, hid⟩ := applied_of_recorded hrecorded
      have hcs' : pre ++ [c] = pre' ++ .action a now env :: (post' ++ [c]) := by
        rw [hpre]
        simp
      exact actionId_ne_of_clicks hjson htimes hclicks hsha hcs hsent hcs' hid
    · cases c with
      | ingest b env => cases hown
      | action a now env =>
        have hid : a.actionId = actionId token := Option.some.inj hown
        exact actionId_ne_of_clicks hjson htimes hclicks hsha hcs hsent rfl hid

end WappPlanner.Orchestrator
