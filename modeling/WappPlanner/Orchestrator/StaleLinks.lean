import WappPlanner.Orchestrator.Runs

/-! # Links of earlier revisions

The links of a delivery are signed for the revision they were sent with, but what an action does
depends only on the state of its request, which is the same for every revision. `binds_iff` says
exactly when the clicks of a run change a request through no link but those of its current revision:
when none of them is accepted while another revision is current. -/

namespace WappPlanner.Orchestrator

open WappPlanner.Domain.Enums WappPlanner.Domain.Models WappPlanner.Errors
open WappPlanner.Hitl.Messages WappPlanner.Hitl.Service WappPlanner.Hitl.Tokens
open WappPlanner.Lib.Programs WappPlanner.Lib.Runs WappPlanner.Persistence.InMemory
open WappPlanner.Py.Text WappPlanner.Py.Values WappPlanner.Workflow.Enums
open WappPlanner.Workflow.StateMachine

/-- The request, the revision and the instant of a delivery. -/
def deliveryOf : Entry Op → Option (Request × ℕ × Instant)
  | ⟨_, .deliverDocument r n _ t, _⟩ => some (r, n, t)
  | _ => none

variable (cfg : Config)

/-- `a` was resolved from a link that `deliverDocument` issued for revision `n` of its request, in
one of the invocations of `past`. -/
def DeliveredLink (past : List (World × Call)) (n : ℕ) (a : OwnerAction) : Prop :=
  ∃ e ∈ past, ∃ r t, (r, n, t) ∈ (outcome cfg e.1 e.2).trace.filterMap deliveryOf ∧
    ∃ label token, (label, token) ∈ approvalTokens cfg.notify.signer r t n ∧
      ∃ now feedback, cfg.notify.resolveAction token now feedback = .ok a

/-- The request or its revisions differ. -/
def Changed (rid : String) (w w' : World) : Prop :=
  w'.repo.requests rid ≠ w.repo.requests rid ∨ w'.repo.revisions rid ≠ w.repo.revisions rid

/-- Revision `n` of the action's request is the current one. -/
def IsCurrent (w : World) (a : OwnerAction) (n : ℕ) : Prop :=
  ∃ r, w.repo.requests a.requestId = some r ∧ r.currentRevision = n

variable {cfg} {w : World}

/-- A delivery link resolves to an approval or a request for revision, for the revision it was sent
with. -/
theorem DeliveredLink.decision (hjson : cfg.notify.signer.codec.Lossless)
    {past : List (World × Call)} {n : ℕ} {a : OwnerAction} (h : DeliveredLink cfg past n a) :
    (a.decision = .approve ∨ a.decision = .revise) ∧ a.revisionNo = n := by
  obtain ⟨e, -, r, t, -, label, token, htoken, now, feedback, hres⟩ := h
  simp only [approvalTokens, approvalChoices, List.map_cons, List.map_nil, List.mem_cons,
    Prod.mk.injEq, List.not_mem_nil, or_false] at htoken
  rcases htoken with ⟨-, rfl⟩ | ⟨-, rfl⟩ <;>
    rw [NotificationService.resolveAction_issue_ok hjson hres] <;> simp

theorem changed_of_accepted (hw : Wf w) {a : OwnerAction} {now : Instant} {env : External}
    (hd : a.decision = .approve ∨ a.decision = .revise) (hacc : Accepted w a) :
    Changed a.requestId w (step cfg w (.action a now env)) := by
  have ho := action_outcome cfg w a now env
  unfold step
  generalize outcome cfg w (.action a now env) = o at ho ⊢
  cases ho with
  | unknown hr => exact absurd hacc (not_accepted_of_unknown hr)
  | duplicate r hr hdup => exact absurd hacc (not_accepted_of_seen hdup)
  | refused r hr hfresh hgate => exact absurd hacc (not_accepted_of_gate hr hgate)
  | accepted r hr hfresh hgate o ho =>
    have hid : r.id = a.requestId := hw.id_eq hr
    have hstate : r.state = .awaitingApproval := by
      rcases hd with hd | hd <;> rw [hgate, hd] <;> rfl
    cases ho with
    | settled hd' =>
      left
      rw [acceptedWorld_requests hid, hr]
      intro h
      have hs := congrArg Request.state (Option.some.inj h)
      rw [Request.state_moved, hstate] at hs
      rcases hd with hd | hd <;> simp [hd, target] at hs
    | unnamed hd' | corrected hd' => rcases hd with hd | hd <;> simp [hd] at hd'
    | pipeline hd' lookups hlookups o ho =>
      have hstart : target a.decision = .generating := by
        rcases hd with hd | hd <;> simp [hd, startsPipeline] at hd' ⊢
        rfl
      left
      have hid' : (r.moved (target a.decision) now).id = a.requestId := hid
      have hleft := pipeline_request hid' (acceptedWorld_requests hid) ho
      rw [hr]
      rcases hleft with h | h | h
      · rw [h]
        intro heq
        have hs := congrArg Request.state (Option.some.inj heq)
        rw [Request.state_moved, hstate] at hs
        cases hs
      · rw [h]
        intro heq
        have hs := congrArg Request.state (Option.some.inj heq)
        rw [Request.state_moved, hstart, hstate] at hs
        cases hs
      · rw [h]
        intro heq
        have hn := congrArg Request.currentRevision (Option.some.inj heq)
        simp [delivered, bumped] at hn

theorem accepted_of_changed {a : OwnerAction} {now : Instant} {env : External}
    (h : Changed a.requestId w (step cfg w (.action a now env))) : Accepted w a := by
  have ho := action_outcome cfg w a now env
  unfold step at h
  generalize outcome cfg w (.action a now env) = o at ho h
  cases ho with
  | unknown | duplicate => rcases h with h | h <;> exact absurd rfl h
  | refused => rcases h with h | h <;> exact absurd rfl h
  | accepted r hr hfresh hgate => exact accepted_iff.mpr ⟨r, hr, hfresh, hgate⟩

variable (cfg) in
/-- The action, clicked after `pre` on a link of revision `n`, changes its request only if `n` is the
current revision. -/
def Binds (pre : List Call) (a : OwnerAction) (now : Instant) (env : External) : Prop :=
  ∀ n, DeliveredLink cfg (history (step cfg) World.initial pre) n a →
    Changed a.requestId (run (step cfg) World.initial pre)
      (step cfg (run (step cfg) World.initial pre) (.action a now env)) →
    IsCurrent (run (step cfg) World.initial pre) a n

variable (cfg) in
/-- The action, clicked after `pre` on a link of revision `n`, is accepted only if `n` is the current
revision: otherwise it is a duplicate, or its request does not wait for an approval. -/
def Timely (pre : List Call) (a : OwnerAction) : Prop :=
  ∀ n, DeliveredLink cfg (history (step cfg) World.initial pre) n a →
    Accepted (run (step cfg) World.initial pre) a →
    IsCurrent (run (step cfg) World.initial pre) a n

/-- **When an approval binds the revision it was asked for**: the clicks of a run change a request
only through links of its current revision, if and only if no other link of a delivery is
accepted. -/
theorem binds_iff (hjson : cfg.notify.signer.codec.Lossless) (cs : List Call) :
    (∀ pre a now env post, cs = pre ++ .action a now env :: post → Binds cfg pre a now env) ↔
      ∀ pre a now env post, cs = pre ++ .action a now env :: post → Timely cfg pre a := by
  constructor
  · intro h pre a now env post hcs n hlink hacc
    exact h pre a now env post hcs n hlink
      (changed_of_accepted (wf_run pre) (hlink.decision hjson).1 hacc)
  · intro h pre a now env post hcs n hlink hchanged
    exact h pre a now env post hcs n hlink (accepted_of_changed hchanged)

/-! ### Approving an earlier revision -/

theorem deliveredLink_of (hjson : cfg.notify.signer.codec.Lossless) {past : List (World × Call)}
    {c : Call} {rid : String} {n : ℕ} {t : Instant} {label : String} {decision : OwnerDecision}
    (hchoice : (label, decision) ∈ approvalChoices) (feedback : Option String) (now : Instant)
    (hmem : (w, c) ∈ past)
    (hsent : (rid, n, t) ∈ ((outcome cfg w c).trace.filterMap deliveryOf).map
      fun d => (d.1.id, d.2)) (hlive : now < t + cfg.notify.signer.ttl) :
    DeliveredLink cfg past n ⟨rid, .approval, decision,
      actionId (cfg.notify.signer.issue rid .approval decision t none n), none, n, feedback⟩ := by
  obtain ⟨⟨r, n', t'⟩, hd, heq⟩ := List.mem_map.mp hsent
  simp only [Prod.mk.injEq] at heq
  obtain ⟨rfl, rfl, rfl⟩ := heq
  exact ⟨_, hmem, r, t', hd, label, _, List.mem_map_of_mem hchoice, now, feedback,
    NotificationService.resolveAction_issue hjson hlive feedback⟩

theorem ingest_deliveries (w : World) (b : Batch) (env : External) :
    (outcome cfg w (.ingest b env)).trace.filterMap deliveryOf = [] := by
  have h := ingest_outcome cfg w b env
  generalize outcome cfg w (.ingest b env) = o at h ⊢
  cases h <;> rfl

namespace Sample

/-- Then a request for revision. -/
def twoRevisions : List Call :=
  oneRevision ++ [.action (click "r1" "a2" .revise 1) (start + 1) (external planText)]

/-- A click on the approval link sent with revision 1. -/
def approval (cfg : Config) : OwnerAction :=
  ⟨"r1", .approval, .approve,
    actionId (cfg.notify.signer.issue "r1" .approval .approve start none (1 : ℕ)), none, (1 : ℕ),
    none⟩

theorem oneRevision_sent :
    ((outcome (config lossless false)
      (run (step (config lossless false)) World.initial (oneRevision.take 1))
      (.action (click "r1" "a1" .confirm 0) start (external planText))).trace.filterMap
        deliveryOf).map (fun d => (d.1.id, d.2)) = [("r1", 1, start)] := by decide +kernel

/-- The links were sent with revision 1, whatever happened since. -/
theorem delivered_link {label : String} {decision : OwnerDecision}
    (hchoice : (label, decision) ∈ approvalChoices) (feedback : Option String) (post : List Call) :
    DeliveredLink (config lossless false)
      (history (step (config lossless false)) World.initial (oneRevision ++ post)) 1
      ⟨"r1", .approval, decision, actionId ((config lossless false).notify.signer.issue "r1"
        .approval decision start none (1 : ℕ)), none, (1 : ℕ), feedback⟩ := by
  have hmem : (run (step (config lossless false)) World.initial (oneRevision.take 1),
      Call.action (click "r1" "a1" .confirm 0) start (external planText)) ∈
        history (step (config lossless false)) World.initial (oneRevision ++ post) := by
    rw [history_append]
    exact List.mem_append_left _ (List.mem_cons_of_mem _ List.mem_cons_self)
  refine deliveredLink_of lossless_lossless hchoice feedback (start + 2) hmem ?_ (by decide +kernel)
  rw [oneRevision_sent]
  exact List.mem_singleton_self _

theorem approval_link (post : List Call) :
    DeliveredLink (config lossless false)
      (history (step (config lossless false)) World.initial (oneRevision ++ post)) 1
      (approval (config lossless false)) :=
  delivered_link List.mem_cons_self none post

/-- One approval, of the only revision. -/
noncomputable def approved : List Call :=
  oneRevision ++ [.action (approval (config lossless false)) (start + 2) (external "")]

theorem approved_timely (pre : List Call) (a : OwnerAction) (now : Instant) (env : External)
    (post : List Call) (hcs : approved = pre ++ .action a now env :: post) :
    Timely (config lossless false) pre a := by
  rcases pre with - | ⟨c, - | ⟨c', - | ⟨c'', pre⟩⟩⟩
  · cases hcs
  · -- the confirmation comes before any delivery
    obtain ⟨rfl, -⟩ := List.cons.inj hcs
    rintro n ⟨e, he, r, t, hd, -⟩
    obtain rfl := List.mem_singleton.mp he
    rw [ingest_deliveries] at hd
    cases hd
  · obtain ⟨rfl, hrest⟩ := List.cons.inj hcs
    obtain ⟨rfl, hlast⟩ := List.cons.inj hrest
    obtain ⟨rfl, -, -⟩ := Call.action.inj (List.cons.inj hlast).1
    intro n hlink _
    have hno : ((1 : ℕ) : ℤ) = n := (hlink.decision lossless_lossless).2
    obtain rfl : 1 = n := Nat.cast_injective hno
    have hone : ((run (step (config lossless false)) World.initial oneRevision).repo.requests
        "r1").map (·.currentRevision) = some 1 := by decide +kernel
    exact Option.map_eq_some_iff.mp hone
  · simp [approved, oneRevision] at hcs

end Sample

open Sample in
/-- Approving the only revision is timely, so it binds that revision. -/
theorem binds_iff_approved :
    (∀ pre a now env post, approved = pre ++ .action a now env :: post →
      Timely (config lossless false) pre a) ∧
    ∀ pre a now env post, approved = pre ++ .action a now env :: post →
      Binds (config lossless false) pre a now env :=
  ⟨approved_timely, (binds_iff lossless_lossless approved).mpr approved_timely⟩

open Sample in
/-- The link of revision 1 completes a request whose revision 2 waits for approval. -/
theorem stale_approval :
    ¬ ∀ (cfg : Config) (cs : List Call), cfg.notify.signer.codec.Lossless → (ingestIds cs).Nodup →
      ∀ pre a now env post, cs = pre ++ .action a now env :: post → Binds cfg pre a now env := by
  intro h
  have hbefore : ((run (step (config lossless false)) World.initial twoRevisions).repo.requests
      "r1").map (fun r => (r.state, r.currentRevision)) = some (.awaitingApproval, 2) := by
    decide +kernel
  have hafter : ((step (config lossless false)
      (run (step (config lossless false)) World.initial twoRevisions)
      (.action (approval (config lossless false)) (start + 2) (external ""))).repo.requests
        "r1").map (fun r => (r.state, r.currentRevision)) = some (.completed, 2) := by
    decide +kernel
  have hbinds := h (config lossless false) _ lossless_lossless (by decide) twoRevisions
    (approval (config lossless false)) (start + 2) (external "") [] rfl 1 (approval_link _)
  obtain ⟨r, hr, hone⟩ := hbinds (.inl fun heq => by
    rw [show (approval (config lossless false)).requestId = "r1" from rfl] at heq
    rw [heq, hbefore] at hafter
    cases hafter)
  rw [show (approval (config lossless false)).requestId = "r1" from rfl] at hr
  rw [hr, Option.map_some, Option.some.injEq, Prod.mk.injEq, hone] at hbefore
  exact absurd hbefore.2 (by decide)

end WappPlanner.Orchestrator
