import WappPlanner.Lib.Contracts
import WappPlanner.Orchestrator.LiveLinks

/-! # Requests do not see each other

An invocation reads and writes what is under the id of its own request, and nothing else of the
repository (`meets_ingest`, `meets_apply`). So the records of a request, what the owner is answered
about it and everything that is asked, stored and sent for it are the same as if it were the only
request there ever was (`isolated`). The one thing that requests share is the record of clicks, which
is read under the id of the click: an id must belong to one request. The id is a digest of the link that
was clicked, so for links that were sent it does, unless digests collide (`owned_of_clicks`). -/

namespace WappPlanner.Orchestrator

open WappPlanner.Documents.Generation WappPlanner.Documents.Layout WappPlanner.Domain.Models
open WappPlanner.Errors WappPlanner.Hitl.Service WappPlanner.Lib.Contracts
open WappPlanner.Lib.Programs WappPlanner.Lib.Runs WappPlanner.Nlp.Classification
open WappPlanner.Persistence.InMemory WappPlanner.Py.Text WappPlanner.Py.Values
open WappPlanner.Workflow.Enums WappPlanner.Workflow.StateMachine Prog

/-- Operations on the request `rid`, a click being on the request that `owner` gives for its id. -/
def scope (owner : String → String) (rid : String) : Contract Op where
  allows
    | .saveRequest r => r.id = rid
    | .getRequest rid' | .latestRevision rid' | .setMessages rid' _ => rid' = rid
    | .addRevision revision => revision.requestId = rid
    | .recordInteraction i => owner i.id = rid
    | _ => True
  answers
    | .getRequest _, found => ∀ r, found = some r → r.id = rid
    | _, _ => True

/-! ### The programs keep to their request -/

section programs

variable {cfg : Config} {owner : String → String} {rid : String} {r : Request} {now : Instant}

theorem meets_transition (h : r.id = rid) (t : Trigger) :
    Meets (scope owner rid) (transition r t now) (·.id = rid) := by
  refine meets_bind (meets_ofExcept (Q := fun _ => True) fun _ _ => trivial) fun s _ => ?_
  exact meets_perform h fun _ _ => meets_pure h

theorem meets_settle (b : Batch) (result : ClassificationResult) (h : r.id = rid) :
    Meets (scope owner rid) (settle cfg b result r) (·.id = rid) := by
  unfold settle
  dsimp only
  split
  · refine meets_bind (meets_transition h _) fun r' h' => ?_
    exact meets_performE trivial fun _ _ => meets_pure h'
  · refine meets_bind (meets_transition h _) fun r' h' => ?_
    split
    · exact meets_performE trivial fun _ _ => meets_pure h'
    · exact meets_pure h'

/-- **An ingest** keeps to the request of its batch. -/
theorem meets_ingest (b : Batch) :
    Meets (scope owner b.aggregated.requestId) (ingest cfg b) (·.id = b.aggregated.requestId) := by
  unfold ingest
  have hentered : b.request.id = b.aggregated.requestId := rfl
  refine meets_perform rfl fun _ _ => meets_perform rfl fun _ _ => ?_
  refine meets_bind (meets_transition hentered _) fun r₁ h₁ => ?_
  refine meets_bind (meets_transition h₁ _) fun r₂ h₂ => ?_
  refine meets_perform trivial fun transcript _ => ?_
  have htranscribed : (transcribed r₂ transcript).id = b.aggregated.requestId := h₂
  refine meets_bind (meets_transition htranscribed _) fun r₃ h₃ => ?_
  refine meets_performE trivial fun result _ => ?_
  exact meets_settle b result (r := classified cfg b result r₃) h₃

theorem meets_storeArtifacts (rid' : String) (n : ℕ) : ∀ atts : List Attachment,
    Meets (scope owner rid) (storeArtifacts rid' n atts) fun _ => True
  | [] => trivial
  | att :: rest => by
    refine meets_performE trivial fun ref _ => ?_
    exact meets_bind (meets_storeArtifacts rid' n rest) fun _ _ => trivial

theorem meets_generateOrFail (h : r.id = rid) (args : GenerateArgs) :
    Meets (scope owner rid) (generateOrFail r args now) fun _ => True := by
  unfold generateOrFail
  refine meets_perform trivial fun answer _ => ?_
  split
  · trivial
  · exact meets_bind (meets_transition h _) fun _ _ => meets_fail
  · exact meets_fail

theorem meets_pipeline (h : r.id = rid) (feedback : Option String) (previous : Option Json) :
    Meets (scope owner rid) (generateRenderDeliver r now feedback previous) (·.id = rid) := by
  unfold generateRenderDeliver
  refine meets_bind (meets_generateOrFail h _) fun doc _ => ?_
  split
  · exact meets_fail
  · refine meets_performE trivial fun attachments _ => ?_
    refine meets_bind (meets_storeArtifacts _ _ attachments) fun refs _ => ?_
    refine meets_perform h fun _ _ => ?_
    have hbumped : (bumped r).id = rid := h
    refine meets_bind (meets_transition hbumped _) fun r₁ h₁ => ?_
    refine meets_bind (meets_transition h₁ _) fun r₂ h₂ => ?_
    exact meets_performE trivial fun _ _ => meets_pure h₂

theorem meets_renotify : Meets (scope owner rid) (renotifyClassification r now) fun _ => True := by
  unfold renotifyClassification
  split
  · exact meets_fail
  · exact meets_performE trivial fun _ _ => trivial

theorem meets_follow (a : OwnerAction) (h : r.id = rid) :
    Meets (scope owner rid) (followDecision a r now) (·.id = rid) := by
  unfold followDecision
  cases a.decision with
  | confirm => exact meets_pipeline h none none
  | correct =>
    have hnamed : (withIntent r a.intent).id = rid := h
    refine meets_perform hnamed fun _ _ => ?_
    exact meets_bind meets_renotify fun _ _ => meets_pure hnamed
  | revise => exact meets_perform h fun previous _ => meets_pipeline h _ _
  | reject | approve => exact meets_pure h

/-- **An owner action** keeps to its request. -/
theorem meets_apply {a : OwnerAction} (ha : owner a.actionId = a.requestId) :
    Meets (scope owner a.requestId) (applyOwnerAction a now) (·.id = a.requestId) := by
  unfold applyOwnerAction
  refine meets_perform rfl fun found hfound => ?_
  split
  · exact meets_fail
  · rename_i r
    have hid : r.id = a.requestId := hfound r rfl
    refine meets_perform ha fun fresh _ => ?_
    split
    · exact meets_bind (meets_transition hid _) fun r₁ h₁ => meets_follow a h₁
    · exact meets_pure hid

end programs

/-! ### What a request consists of -/

/-- The worlds hold the same about the request `rid`, under its id. -/
structure Mirror (owner : String → String) (rid : String) (w w' : World) : Prop where
  requests : w'.repo.requests rid = w.repo.requests rid
  messages : w'.repo.messages rid = w.repo.messages rid
  revisions : w'.repo.revisions rid = w.repo.revisions rid
  interactions : ∀ id, owner id = rid → w'.repo.interactions id = w.repo.interactions id
  id_eq : ∀ r, w.repo.requests rid = some r → r.id = rid

/-- Requests are kept under their ids. -/
def Keyed (w : World) : Prop := ∀ rid r, w.repo.requests rid = some r → r.id = rid

section mirror

variable {cfg : Config} {env : External} {owner : String → String} {rid rid' : String}
  {w w' : World}

theorem Mirror.refl (hw : Keyed w) : Mirror owner rid w w := ⟨rfl, rfl, rfl, fun _ _ => rfl, hw rid⟩

theorem Mirror.congr {v v' : World} (h : Mirror owner rid w w') (hv : v.repo = w.repo)
    (hv' : v'.repo = w'.repo) : Mirror owner rid v v' := by
  obtain ⟨hrequests, hmessages, hrevisions, hinteractions, hid⟩ := h
  exact ⟨by rw [hv, hv', hrequests], by rw [hv, hv', hmessages], by rw [hv, hv', hrevisions],
    fun id hid => by rw [hv, hv', hinteractions id hid], by rwa [hv]⟩

/-- What is written about the request is written alike. -/
theorem alike_scope : Alike (scope owner rid) (handler cfg env) (handler cfg env)
    (Mirror owner rid) := by
  intro β o s t h ho
  cases o with
  | saveRequest r =>
    have hid : r.id = rid := ho
    have hself : ∀ v : World, (v.repo.saveRequest r).requests rid = some r := fun v => by
      rw [Repository.requests_saveRequest, if_pos hid.symm]
    refine ⟨trivial, rfl, (hself t).trans (hself s).symm, h.messages, h.revisions,
      h.interactions, fun r' hr' => ?_⟩
    obtain rfl := Option.some.inj ((hself s).symm.trans hr')
    exact hid
  | getRequest rid' =>
    obtain rfl : rid' = rid := ho
    exact ⟨h.id_eq, h.requests, h⟩
  | setMessages rid' messages =>
    obtain rfl : rid' = rid := ho
    have hself : ∀ v : World, (v.repo.setMessages rid' messages).messages rid' = messages :=
      fun v => Function.update_self ..
    exact ⟨trivial, rfl, h.requests, (hself t).trans (hself s).symm, h.revisions, h.interactions,
      h.id_eq⟩
  | addRevision revision =>
    have hid : revision.requestId = rid := ho
    have hself : ∀ v : World, (v.repo.addRevision revision).revisions rid =
        v.repo.revisions rid ++ [revision] := fun v => by
      rw [Repository.revisions_addRevision, if_pos hid.symm]
    refine ⟨trivial, rfl, h.requests, h.messages, ?_, h.interactions, h.id_eq⟩
    exact ((hself t).trans (congrArg (· ++ [revision]) h.revisions)).trans (hself s).symm
  | latestRevision rid' =>
    obtain rfl : rid' = rid := ho
    exact ⟨trivial, congrArg List.getLast? h.revisions, h⟩
  | recordInteraction i =>
    have hsame := h.interactions i.id ho
    cases hs : s.repo.interactions i.id with
    | some seen =>
      rw [hs] at hsame
      simp only [handler, answer, Repository.recordInteraction, hs, hsame, Option.isSome_some,
        if_true]
      exact ⟨trivial, trivial, h.congr rfl rfl⟩
    | none =>
      rw [hs] at hsame
      simp only [handler, answer, Repository.recordInteraction, hs, hsame, Option.isSome_none,
        Bool.false_eq_true, if_false]
      refine ⟨trivial, trivial, h.requests, h.messages, h.revisions, fun id hid => ?_, h.id_eq⟩
      simp only [World.repo_withRepo, Function.update_apply]
      split_ifs with hi
      · rfl
      · exact h.interactions id hid
  | buildTranscript messages media => exact ⟨trivial, rfl, h⟩
  | classify transcript => exact ⟨trivial, rfl, h.congr rfl rfl⟩
  | generate args => exact ⟨trivial, rfl, h.congr rfl rfl⟩
  | renderDocument content name => exact ⟨trivial, rfl, h⟩
  | put key content mime =>
    cases hput : env.put key with
    | ok =>
      simp only [handler, answer, hput]
      exact ⟨trivial, trivial, h.congr rfl rfl⟩
    | error text =>
      simp only [handler, answer, hput]
      exact ⟨trivial, trivial, h⟩
  | notifyClassification r name result now => exact ⟨trivial, rfl, h.congr rfl rfl⟩
  | deliverDocument r n atts now => exact ⟨trivial, rfl, h.congr rfl rfl⟩

/-- **An operation on another request** leaves the request as it is. -/
theorem honours_elsewhere (hne : rid' ≠ rid) : Honours (scope owner rid') (handler cfg env)
    fun v => Keyed v ∧ Mirror owner rid w v := by
  rintro β o v ⟨hv, h⟩ ho
  have hpure : ∀ v', v'.repo = v.repo → Keyed v' ∧ Mirror owner rid w v' :=
    fun v' hrepo => ⟨fun rid r hr => hv rid r (hrepo ▸ hr), h.congr rfl hrepo⟩
  cases o with
  | saveRequest r =>
    have hid : r.id = rid' := ho
    refine ⟨trivial, fun rid₀ r₀ hr₀ => ?_, ?_, h.messages, h.revisions, h.interactions, h.id_eq⟩
    · have hr₀' : (v.repo.saveRequest r).requests rid₀ = some r₀ := hr₀
      rw [Repository.requests_saveRequest] at hr₀'
      split_ifs at hr₀' with hsame
      · rw [hsame, Option.some.inj hr₀']
      · exact hv rid₀ r₀ hr₀'
    · have hother : (v.repo.saveRequest r).requests rid = v.repo.requests rid := by
        rw [Repository.requests_saveRequest, if_neg (hid ▸ hne.symm)]
      exact hother.trans h.requests
  | getRequest rid₀ =>
    obtain rfl : rid₀ = rid' := ho
    exact ⟨fun r hr => hv rid₀ r hr, hv, h⟩
  | setMessages rid₀ messages =>
    obtain rfl : rid₀ = rid' := ho
    have hother : (v.repo.setMessages rid₀ messages).messages rid = v.repo.messages rid :=
      Function.update_of_ne hne.symm ..
    exact ⟨trivial, hv, h.requests, hother.trans h.messages, h.revisions, h.interactions, h.id_eq⟩
  | addRevision revision =>
    have hid : revision.requestId = rid' := ho
    have hother : (v.repo.addRevision revision).revisions rid = v.repo.revisions rid := by
      rw [Repository.revisions_addRevision, if_neg (hid ▸ hne.symm)]
    exact ⟨trivial, hv, h.requests, h.messages, hother.trans h.revisions, h.interactions, h.id_eq⟩
  | latestRevision rid₀ => exact ⟨trivial, hv, h⟩
  | recordInteraction i =>
    have howner : owner i.id = rid' := ho
    refine ⟨trivial, ?_⟩
    cases hs : v.repo.interactions i.id with
    | some seen =>
      simp only [handler, answer, Repository.recordInteraction, hs, Option.isSome_some, if_true]
      exact hpure _ rfl
    | none =>
      simp only [handler, answer, Repository.recordInteraction, hs, Option.isSome_none,
        Bool.false_eq_true, if_false]
      refine ⟨hv, h.requests, h.messages, h.revisions, fun id hid => ?_, h.id_eq⟩
      have hne' : id ≠ i.id := by
        rintro rfl
        exact hne (howner.symm.trans hid)
      simp only [World.repo_withRepo, Function.update_of_ne hne']
      exact h.interactions id hid
  | buildTranscript messages media => exact ⟨trivial, hv, h⟩
  | classify transcript => exact ⟨trivial, hpure _ rfl⟩
  | generate args => exact ⟨trivial, hpure _ rfl⟩
  | renderDocument content name => exact ⟨trivial, hv, h⟩
  | put key content mime =>
    cases hput : env.put key with
    | ok =>
      simp only [handler, answer, hput]
      exact ⟨trivial, hpure _ rfl⟩
    | error text =>
      simp only [handler, answer, hput]
      exact ⟨trivial, hv, h⟩
  | notifyClassification r name result now => exact ⟨trivial, hpure _ rfl⟩
  | deliverDocument r n atts now => exact ⟨trivial, hpure _ rfl⟩

end mirror

/-! ### Runs -/

section runs

variable {cfg : Config} {owner : String → String} {rid : String} {w w' : World}

/-- The id of a click belongs to the request that the click is on. -/
def Owned (owner : String → String) : Call → Prop
  | .ingest _ _ => True
  | .action a _ _ => owner a.actionId = a.requestId

/-- What an invocation answers, and the operations it performed. -/
def account (cfg : Config) (e : World × Call) : Except Exn Request × List (Entry Op) :=
  ((outcome cfg e.1 e.2).result, (outcome cfg e.1 e.2).trace)

theorem mirror_own {c : Call} (hc : Owned owner c) (h : Mirror owner c.requestId w w') :
    account cfg (w', c) = account cfg (w, c) ∧
      Mirror owner c.requestId (step cfg w c) (step cfg w' c) := by
  cases c with
  | ingest b env =>
    obtain ⟨hresult, htrace, hstate⟩ := exec_alike alike_scope (meets_ingest b) h
    exact ⟨Prod.ext hresult htrace, hstate⟩
  | action a now env =>
    obtain ⟨hresult, htrace, hstate⟩ := exec_alike alike_scope (meets_apply hc) h
    exact ⟨Prod.ext hresult htrace, hstate⟩

theorem mirror_other {c : Call} (hc : Owned owner c) (hne : c.requestId ≠ rid) (hw' : Keyed w')
    (h : Mirror owner rid w w') : Keyed (step cfg w' c) ∧ Mirror owner rid w (step cfg w' c) := by
  cases c with
  | ingest b env => exact exec_meets (honours_elsewhere hne) (meets_ingest b) ⟨hw', h⟩
  | action a now env => exact exec_meets (honours_elsewhere hne) (meets_apply hc) ⟨hw', h⟩

/-- The invocations on one request. -/
def ownCalls (rid : String) (cs : List Call) : List Call := cs.filter (·.requestId = rid)

/-- What was answered and done for a request, in order. -/
def accounts (cfg : Config) (rid : String) (past : List (World × Call)) :
    List (Except Exn Request × List (Entry Op)) :=
  (past.filter (·.2.requestId = rid)).map (account cfg)

theorem isolated_from (cs : List Call) (hw : Wf w) (hw' : Wf w') (h : Mirror owner rid w w')
    (howned : ∀ c ∈ cs, Owned owner c) :
    accounts cfg rid (history (step cfg) w' cs) =
        (history (step cfg) w (ownCalls rid cs)).map (account cfg) ∧
      Mirror owner rid (run (step cfg) w (ownCalls rid cs)) (run (step cfg) w' cs) := by
  induction cs generalizing w w' with
  | nil => exact ⟨rfl, h⟩
  | cons c cs ih =>
    have hc : Owned owner c := howned c List.mem_cons_self
    have hcs : ∀ d ∈ cs, Owned owner d := fun d hd => howned d (List.mem_cons_of_mem c hd)
    by_cases hrid : c.requestId = rid
    · subst hrid
      obtain ⟨haccount, hstate⟩ := @mirror_own cfg _ _ _ c hc h
      obtain ⟨haccounts, hrun⟩ := ih (wf_step hw c) (wf_step hw' c) hstate hcs
      have hown : ownCalls c.requestId (c :: cs) = c :: ownCalls c.requestId cs :=
        List.filter_cons_of_pos (by simp)
      rw [hown, run_cons, run_cons, history, history, List.map_cons, ← haccount, ← haccounts]
      refine ⟨?_, hrun⟩
      unfold accounts
      rw [List.filter_cons_of_pos (by simp), List.map_cons]
    · have hkeyed : Keyed w' := fun _ _ hr => hw'.id_eq hr
      have hstate : Mirror owner rid w (step cfg w' c) := (mirror_other hc hrid hkeyed h).2
      have hown : ownCalls rid (c :: cs) = ownCalls rid cs :=
        List.filter_cons_of_neg (by simpa using hrid)
      obtain ⟨haccounts, hrun⟩ := ih hw (wf_step hw' c) hstate hcs
      rw [hown, run_cons, history, ← haccounts]
      refine ⟨?_, hrun⟩
      unfold accounts
      rw [List.filter_cons_of_neg (by simpa using hrid)]

variable (cfg) in
/-- **Requests do not see each other.** In every run, whatever raises, each invocation on a request
answers what it answers, and does what it does, in the run of the invocations on that request alone,
and the request ends with the same record, messages, revisions and clicks. -/
theorem isolated (cs : List Call) (howned : ∀ c ∈ cs, Owned owner c) (rid : String) :
    accounts cfg rid (history (step cfg) World.initial cs) =
        (history (step cfg) World.initial (ownCalls rid cs)).map (account cfg) ∧
      Mirror owner rid (run (step cfg) World.initial (ownCalls rid cs))
        (run (step cfg) World.initial cs) :=
  isolated_from cs wf_initial wf_initial (.refl fun _ _ hr => wf_initial.id_eq hr) howned

theorem requestId_of_resolved (hjson : cfg.notify.signer.codec.Lossless) (hw : Wf w) {c : Call}
    {token : String} (hsent : SentLink cfg w c token) {now now' : Instant}
    {feedback feedback' : Option String} {a a' : OwnerAction}
    (h : cfg.notify.resolveAction token now feedback = .ok a)
    (h' : cfg.notify.resolveAction token now' feedback' = .ok a') : a.requestId = a'.requestId := by
  obtain ⟨d, ⟨gate, intent, n, rfl⟩, -⟩ := sentFor hw hsent
  rw [NotificationService.resolveAction_issue_ok hjson h,
    NotificationService.resolveAction_issue_ok hjson h']

/-- **The id of a click on a link that was sent** belongs to the request of the link, unless digests
collide. -/
theorem owned_of_clicks (hjson : cfg.notify.signer.codec.Lossless) {cs : List Call}
    (hclicks : Clicks cfg cs) (hsha : NoCollision cfg cs) :
    ∃ owner, ∀ c ∈ cs, Owned owner c := by
  classical
  have hlink : ∀ a now env, Call.action a now env ∈ cs → ∃ e ∈ history (step cfg) World.initial cs,
      ∃ token feedback, Wf e.1 ∧ SentLink cfg e.1 e.2 token ∧
        cfg.notify.resolveAction token now feedback = .ok a := by
    intro a now env hmem
    obtain ⟨pre, post, rfl⟩ := List.append_of_mem hmem
    obtain ⟨e, he, token, feedback, hsent, hres⟩ := hclicks pre a now env post rfl
    obtain ⟨pre₀, post₀, hpre, he₁⟩ := mem_history.mp he
    refine ⟨e, mem_history.mpr ⟨pre₀, post₀ ++ .action a now env :: post, ?_, he₁⟩, token, feedback,
      he₁ ▸ wf_run pre₀, hsent, hres⟩
    rw [hpre]
    simp
  have hone : ∀ a now env a' now' env', Call.action a now env ∈ cs → .action a' now' env' ∈ cs →
      a.actionId = a'.actionId → a.requestId = a'.requestId := by
    intro a now env a' now' env' hmem hmem' hid
    obtain ⟨e, he, token, feedback, hwe, hsent, hres⟩ := hlink a now env hmem
    obtain ⟨e', he', token', feedback', -, hsent', hres'⟩ := hlink a' now' env' hmem'
    have hdigest : actionId token = actionId token' := by
      rw [← NotificationService.actionId_of_resolved hres,
        ← NotificationService.actionId_of_resolved hres', hid]
    obtain rfl := hsha e he e' he' token token' hsent hsent' hdigest
    exact requestId_of_resolved hjson hwe hsent hres hres'
  refine ⟨fun id => if h : ∃ a now env, Call.action a now env ∈ cs ∧ a.actionId = id then
    h.choose.requestId else "", fun c hc => ?_⟩
  cases c with
  | ingest b env => trivial
  | action a now env =>
    have h : ∃ a' now env, Call.action a' now env ∈ cs ∧ a'.actionId = a.actionId :=
      ⟨a, now, env, hc, rfl⟩
    obtain ⟨now', env', hmem, hid⟩ := h.choose_spec
    exact (dif_pos h).trans (hone _ now' env' a now env hmem hc hid)

/-- **Requests do not see each other** in a run of clicks on links that were sent. -/
theorem isolated_clicks (hjson : cfg.notify.signer.codec.Lossless) {cs : List Call}
    (hclicks : Clicks cfg cs) (hsha : NoCollision cfg cs) : ∃ owner, (∀ c ∈ cs, Owned owner c) ∧
      ∀ rid, accounts cfg rid (history (step cfg) World.initial cs) =
          (history (step cfg) World.initial (ownCalls rid cs)).map (account cfg) ∧
        Mirror owner rid (run (step cfg) World.initial (ownCalls rid cs))
          (run (step cfg) World.initial cs) := by
  obtain ⟨owner, howned⟩ := owned_of_clicks hjson hclicks hsha
  exact ⟨owner, howned, fun rid =>
    isolated_from cs wf_initial wf_initial (.refl fun _ _ hr => wf_initial.id_eq hr) howned⟩

end runs

namespace Sample

/-- Two requests, one of them confirmed. -/
def twoRequests : List Call :=
  [.ingest (batch "r1" (start - 2)) (external (classifierText .executionPlan)),
    .ingest (batch "r2" (start - 1)) llmDown,
    .action (click "r1" "a1" .confirm 0) start (external planText),
    .action (click "r2" "a2" .confirm 0) start (external planText)]

/-- Which request a click of `twoRequests` is on. -/
def clickOwner (id : String) : String := if id = "a1" then "r1" else "r2"

end Sample

open Sample in
theorem isolated_twoRequests :
    accounts (config codec false) "r1"
        (history (step (config codec false)) World.initial twoRequests) =
      (history (step (config codec false)) World.initial (ownCalls "r1" twoRequests)).map
        (account (config codec false)) ∧
      Mirror clickOwner "r1"
        (run (step (config codec false)) World.initial (ownCalls "r1" twoRequests))
        (run (step (config codec false)) World.initial twoRequests) :=
  isolated (config codec false) twoRequests
    (by simp [twoRequests, Owned, clickOwner, click]) "r1"

end WappPlanner.Orchestrator
