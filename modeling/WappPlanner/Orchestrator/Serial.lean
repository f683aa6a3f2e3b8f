import WappPlanner.Orchestrator.RevisionLog
import WappPlanner.Orchestrator.SameDecision

/-! # Whether two clicks are serializable

Two clicks on one request, each handled from its own copy of the request. They are `Serializable`
if every schedule leaves, timestamps aside, what one of the two orders leaves, takes no request out
of a terminal state and issues no revision number twice. They are unless both could be accepted as
things stand and their decisions differ or start the same generation (`serializable_iff`). -/

namespace WappPlanner.Orchestrator

open WappPlanner.Domain.Enums WappPlanner.Domain.Models WappPlanner.Errors
open WappPlanner.Hitl.Service WappPlanner.Lib.Interleave WappPlanner.Lib.Programs
open WappPlanner.Lib.Runs WappPlanner.Persistence.InMemory WappPlanner.Py.Text
open WappPlanner.Py.Values WappPlanner.Workflow.Enums WappPlanner.Workflow.StateMachine Prog

variable (cfg : Config)

/-- No revision number of a request is issued twice. -/
def IssuedOnce (repo : Repository) : Prop :=
  ∀ rid, ((repo.getRevisions rid).map (·.revisionNo)).Nodup

/-- **Two clicks are serializable**: under every schedule. -/
structure Serializable (repo : Repository) (k k' : Click) : Prop where
  calm : ∀ schedule, Calm (after cfg k k' repo schedule).left (after cfg k k' repo schedule).state ∧
    Calm (after cfg k k' repo schedule).right (after cfg k k' repo schedule).state
  serial : ∀ schedule, Finished (after cfg k k' repo schedule) →
    (after cfg k k' repo schedule).state.untimed = (oneByOne cfg k k' repo).untimed ∨
      (after cfg k k' repo schedule).state.untimed = (oneByOne cfg k' k repo).untimed
  once : ∀ schedule, IssuedOnce (after cfg k k' repo schedule).state

/-- Both clicks could be accepted as things stand, and they decide differently or start the
generation of one and the same revision. -/
def Conflict (w : World) (k k' : Click) : Prop :=
  Accepted w k.action ∧ Accepted w k'.action ∧
    (k.action.decision ≠ k'.action.decision ∨
      startsPipeline k.action.decision = true ∧
        ∃ r, w.repo.requests k.action.requestId = some r ∧ Actionable r.intent)

/-- The external calls of a click succeed: what it generates is generated, rendered and stored. -/
def Succeeds (w : World) (k : Click) : Prop :=
  ∀ r, w.repo.requests k.action.requestId = some r → startsPipeline k.action.decision = true →
    Actionable r.intent → produces cfg k.env w k.action = true

variable {cfg} {k k' : Click} {repo s : Repository} {rid : String} {r x : Request}
  {p q : Prog RepoOp Exn Request}

/-! ### Revision numbers -/

theorem numbers_untimed (repo : Repository) (rid : String) :
    (repo.untimed.getRevisions rid).map (·.revisionNo) =
      (repo.getRevisions rid).map (·.revisionNo) := by
  have hno : (fun revision : DocumentRevision => revision.untimed.revisionNo) =
      fun revision => revision.revisionNo := rfl
  rw [Repository.getRevisions, Repository.untimed, List.map_map]
  exact congrArg (fun f => (repo.revisions rid).map f) hno

theorem IssuedOnce.of_untimed {repo' : Repository} (h : IssuedOnce repo')
    (heq : repo.untimed = repo'.untimed) : IssuedOnce repo := by
  intro rid
  rw [← numbers_untimed, heq, numbers_untimed]
  exact h rid

theorem revisions_advance (p : Prog RepoOp Exn Request) (s : Repository) (rid : String) :
    s.revisions rid <+: (advance store p s).2.revisions rid := by
  cases p with
  | ret r => exact List.prefix_refl _
  | fail e => exact List.prefix_refl _
  | call o next =>
    cases o with
    | addRevision revision =>
      have hadded : (advance store (call (.addRevision revision) next) s).2.revisions rid =
          if rid = revision.requestId then s.revisions rid ++ [revision] else s.revisions rid :=
        Repository.revisions_addRevision s revision rid
      rw [hadded]
      split_ifs
      · exact List.prefix_append _ _
      · exact List.prefix_refl _
    | recordInteraction i =>
      have hkept : (s.recordInteraction i).2.revisions = s.revisions := by
        unfold Repository.recordInteraction
        split_ifs <;> rfl
      exact (congrFun hkept rid).symm ▸ List.prefix_refl _
    | _ => exact List.prefix_refl _

/-- **The log only grows**, under every schedule. -/
theorem revisions_run (c : System RepoOp Repository Exn Request Request) (schedule : List Side)
    (rid : String) :
    c.state.revisions rid <+: (run (tick store) c schedule).state.revisions rid := by
  let grown (c' : System RepoOp Repository Exn Request Request) : Prop :=
    c.state.revisions rid <+: c'.state.revisions rid
  refine schedule_inv (I := grown) ?_ (List.prefix_refl _) schedule
  intro c' side hc'
  cases side with
  | left => exact hc'.trans (revisions_advance c'.left c'.state rid)
  | right => exact hc'.trans (revisions_advance c'.right c'.state rid)

/-- A repository on the way has issued each number once if the one at the end has. -/
theorem issuedOnce_of_run {c : System RepoOp Repository Exn Request Request} {schedule : List Side}
    (h : IssuedOnce (run (tick store) c schedule).state) : IssuedOnce c.state :=
  fun rid => (h rid).sublist ((revisions_run c schedule rid).sublist.map _)

theorem oneByOne_eq (w : World) (k k' : Click) :
    oneByOne cfg k k' w.repo = (run (step cfg) w [k.call, k'.call]).repo := by
  rw [oneByOne, ← step_handling, ← step_handling]
  rfl

variable (cfg) in
theorem issuedOnce_oneByOne {cs : List Call} (hids : (ingestIds cs).Nodup) (k k' : Click) :
    IssuedOnce (oneByOne cfg k k' (run (step cfg) World.initial cs).repo) := by
  have hids' : (ingestIds (cs ++ [k.call, k'.call])).Nodup := by
    rw [ingestIds_append]
    exact (List.append_nil _).symm ▸ hids
  intro rid
  rw [oneByOne_eq, ← run_append, (gapless_run hids').numbers rid]
  exact List.nodup_range'

/-- What is to be shown of every schedule, the revision numbers apart. -/
theorem serializable_of (honce : IssuedOnce (oneByOne cfg k k' repo))
    (honce' : IssuedOnce (oneByOne cfg k' k repo))
    (h : ∀ schedule,
      (Calm (after cfg k k' repo schedule).left (after cfg k k' repo schedule).state ∧
        Calm (after cfg k k' repo schedule).right (after cfg k k' repo schedule).state) ∧
      (Finished (after cfg k k' repo schedule) →
        (after cfg k k' repo schedule).state.untimed = (oneByOne cfg k k' repo).untimed ∨
          (after cfg k k' repo schedule).state.untimed = (oneByOne cfg k' k repo).untimed)) :
    Serializable cfg repo k k' := by
  refine ⟨fun schedule => (h schedule).1, fun schedule => (h schedule).2, fun schedule => ?_⟩
  obtain ⟨rest, hfinished⟩ := finish (h := store) (after cfg k k' repo schedule)
  have hwhole : after cfg k k' repo (schedule ++ rest) =
      run (tick store) (after cfg k k' repo schedule) rest := run_append _ _ _ _
  rw [← hwhole] at hfinished
  have hend : IssuedOnce (after cfg k k' repo (schedule ++ rest)).state := by
    rcases (h (schedule ++ rest)).2 hfinished with hserial | hserial
    · exact honce.of_untimed hserial
    · exact honce'.of_untimed hserial
  rw [hwhole] at hend
  exact issuedOnce_of_run hend

theorem Serializable.swap (h : Serializable cfg repo k k') : Serializable cfg repo k' k := by
  have hafter : ∀ schedule, after cfg k' k repo schedule =
      (after cfg k k' repo (schedule.map Side.swap)).swap := run_swap (both cfg k k' repo)
  refine ⟨fun schedule => ?_, fun schedule hfinished => ?_, fun schedule => ?_⟩
  · rw [hafter]
    exact (h.calm _).symm
  · rw [hafter] at hfinished ⊢
    exact (h.serial _ ⟨hfinished.right, hfinished.left⟩).symm
  · rw [hafter]
    exact h.once _

/-! ### Clicks that do not conflict -/

theorem turned_of_not_accepted {w : World} (hr : w.repo.requests k.action.requestId = some r)
    (h : ¬ Accepted w k.action) : Turned k r w.repo := by
  by_cases hfresh : w.repo.interactions k.action.actionId = none
  · exact .inr fun hgate => h (accepted_iff.mpr ⟨r, hr, hfresh, hgate⟩)
  · exact .inl hfresh

theorem serializable_of_turned (honce : IssuedOnce (oneByOne cfg k k' repo))
    (honce' : IssuedOnce (oneByOne cfg k' k repo))
    (hr : repo.requests k.action.requestId = some r) (hid : r.id = k.action.requestId)
    (hreq : k'.action.requestId = k.action.requestId)
    (hne : k.action.actionId ≠ k'.action.actionId) (hturned : Turned k' r repo) :
    Serializable cfg repo k k' := by
  refine serializable_of honce honce' fun schedule => ?_
  obtain ⟨hcalm, hserial⟩ := overtaken cfg hr hid hreq hne hturned schedule
  refine ⟨hcalm, fun hfinished => ?_⟩
  rcases hserial hfinished with h | h
  · exact .inl (congrArg Repository.untimed h)
  · exact .inr (congrArg Repository.untimed h)

/-- Two clicks that both could be accepted, with one decision that makes no revision. -/
theorem serializable_of_same {w : World} (honce : IssuedOnce (oneByOne cfg k k' w.repo))
    (honce' : IssuedOnce (oneByOne cfg k' k w.repo))
    (hr : w.repo.requests k.action.requestId = some r) (hid : r.id = k.action.requestId)
    (hreq : k'.action.requestId = k.action.requestId)
    (hne : k.action.actionId ≠ k'.action.actionId) (hacc : Accepted w k.action)
    (hacc' : Accepted w k'.action) (hsame : k'.action.decision = k.action.decision)
    (hnone : startsPipeline k.action.decision = true → ¬ Actionable r.intent) :
    Serializable cfg w.repo k k' := by
  obtain ⟨x, hx, hfresh, hgate⟩ := accepted_iff.mp hacc
  obtain ⟨-, -, hfresh', -⟩ := accepted_iff.mp hacc'
  rw [hr, Option.some.injEq] at hx
  rw [← hx] at hgate
  rw [← hid] at hr hreq
  refine serializable_of honce honce' fun schedule => ?_
  by_cases hcorrect : k.action.decision = .correct
  · have hstate : r.state = .awaitingClassification := by
      rw [hgate, hcorrect]
      rfl
    exact corrected_twice hr hid.symm hreq hne hfresh hfresh' hstate hcorrect
      (hsame.trans hcorrect) schedule
  · have hd : Settles k.action.decision r := by
      cases hd : k.action.decision with
      | correct => exact absurd hd hcorrect
      | approve => exact .inl (.inl rfl)
      | reject => exact .inl (.inr rfl)
      | confirm | revise => exact .inr ⟨rfl, hnone (by rw [hd]; rfl)⟩
    obtain ⟨hcalm, hserial⟩ := settled_twice cfg hr hid.symm hreq hne hfresh hfresh' hgate
      hsame hd schedule
    exact ⟨hcalm, fun hfinished => .inl (hserial hfinished)⟩

/-- **Clicks that do not conflict are serializable.** -/
theorem serializable_of_not_conflict {cs : List Call} (hids : (ingestIds cs).Nodup)
    (hr : (run (step cfg) World.initial cs).repo.requests k.action.requestId = some r)
    (hreq : k'.action.requestId = k.action.requestId)
    (hne : k.action.actionId ≠ k'.action.actionId)
    (h : ¬ Conflict (run (step cfg) World.initial cs) k k') :
    Serializable cfg (run (step cfg) World.initial cs).repo k k' := by
  have honce := issuedOnce_oneByOne cfg hids k k'
  have honce' := issuedOnce_oneByOne cfg hids k' k
  have hid : r.id = k.action.requestId := (wf_run cs).id_eq hr
  generalize run (step cfg) World.initial cs = w at hr h honce honce'
  by_cases hacc' : Accepted w k'.action
  · by_cases hacc : Accepted w k.action
    · have hsame : k.action.decision = k'.action.decision := by
        by_contra hd
        exact h ⟨hacc, hacc', .inl hd⟩
      refine serializable_of_same honce honce' hr hid hreq hne hacc hacc' hsame.symm ?_
      exact fun hstarts hi => h ⟨hacc, hacc', .inr ⟨hstarts, r, hr, hi⟩⟩
    · have hturned := turned_of_not_accepted hr hacc
      rw [← hreq] at hr hid
      exact (serializable_of_turned honce' honce hr hid hreq.symm hne.symm hturned).swap
  · rw [← hreq] at hr
    have hturned := turned_of_not_accepted hr hacc'
    exact serializable_of_turned honce honce' (hreq ▸ hr) hid hreq hne hturned

/-! ### Clicks that conflict -/

section conflict

theorem opened (hr : repo.requests r.id = some r) (hreq : k.action.requestId = r.id)
    (hreq' : k'.action.requestId = r.id) (hne : k.action.actionId ≠ k'.action.actionId)
    (hfresh : repo.interactions k.action.actionId = none)
    (hfresh' : repo.interactions k'.action.actionId = none) :
    after cfg k k' repo [.right, .right, .left, .left] =
      ⟨deciding cfg k r, deciding cfg k' r, record k (record k' repo)⟩ := by
  have hr₀ : repo.requests k'.action.requestId = some r := by rw [hreq', hr]
  have hread' := advance_handling cfg hr₀
  have hrecorded' := Course.advance_recording cfg (x := r) hfresh'
  have hr₁ : (record k' repo).requests k.action.requestId = some r := by
    rw [requests_record, hreq, hr]
  have hfresh₁ : (record k' repo).interactions k.action.actionId = none := by
    rw [interactions_record, if_neg fun h => hne h.2, hfresh]
  have hread := advance_handling cfg hr₁
  have hrecorded := Course.advance_recording cfg (x := r) hfresh₁
  simp only [after, both, run_cons, run_nil, tick, hread', hrecorded', hread, hrecorded]

theorem after_append (schedule rest : List Side) : after cfg k k' repo (schedule ++ rest) =
    run (tick store) (after cfg k k' repo schedule) rest := run_append _ _ _ _

/-- **A decision that ends the request, against another one**: the other click, saving its own copy,
takes the request out of its terminal state. -/
theorem not_serializable_closing (hr : repo.requests r.id = some r)
    (hreq : k.action.requestId = r.id) (hreq' : k'.action.requestId = r.id)
    (hne : k.action.actionId ≠ k'.action.actionId)
    (hfresh : repo.interactions k.action.actionId = none)
    (hfresh' : repo.interactions k'.action.actionId = none)
    (hgate : r.state = gateOf k.action.decision) (hgate' : r.state = gateOf k'.action.decision)
    (hterminal : isTerminal (target k.action.decision) = true)
    (htarget : target k'.action.decision ≠ target k.action.decision) :
    ¬ Serializable cfg repo k k' := by
  intro h
  obtain ⟨p, -, hp⟩ := deciding_accepted cfg hgate
  obtain ⟨p', -, hp'⟩ := deciding_accepted cfg hgate'
  generalize hs : (record k (record k' repo)).saveRequest
    (r.moved (target k.action.decision) k.now) = s
  have hafter : after cfg k k' repo ([.right, .right, .left, .left] ++ [.left]) =
      ⟨p, deciding cfg k' r, s⟩ := by
    rw [after_append, opened hr hreq hreq' hne hfresh hfresh', hp, ← hs]
    rfl
  have hcalm := (h.calm ([.right, .right, .left, .left] ++ [.left])).2
  rw [hafter, hp'] at hcalm
  have hended : stateIn s r.id = some (target k.action.decision) := by
    rw [← hs, stateIn_saveRequest, if_pos (Request.id_moved _ _ _).symm, Request.state_moved]
  have hkept : stateIn (s.saveRequest (r.moved (target k'.action.decision) k'.now)) r.id =
      some (target k.action.decision) := hcalm r.id _ hended hterminal
  rw [stateIn_saveRequest, if_pos (Request.id_moved _ _ _).symm, Request.state_moved,
    Option.some.injEq] at hkept
  exact htarget hkept

theorem stateIn_untimed (repo : Repository) (rid : String) :
    stateIn repo.untimed rid = stateIn repo rid := by
  unfold stateIn Repository.untimed
  dsimp only
  cases repo.requests rid <;> rfl

theorem pipeline_leaves {env : External} {now : Instant} {feedback : Option String}
    {previous : Option Json} (hp : PipelineCalls cfg env x now feedback previous p)
    (hid : x.id = rid) (hx : s.requests rid = some x) (hs : x.state = .generating) :
    ∃ y, (exec store p s).state.requests rid = some y ∧ y.id = rid ∧
      y.state ≠ .awaitingClassification := by
  subst hid
  have hsaved : ∀ (s : Repository) (y : Request), y.id = x.id →
      (s.saveRequest y).requests x.id = some y := by
    intro s y hy
    rw [Repository.requests_saveRequest, if_pos hy.symm]
  cases hp with
  | failed text tail hgen htail =>
    rw [exec_call, Outcome.state_after, exec_of_done htail]
    refine ⟨_, hsaved _ (x.moved .failed now) rfl, rfl, ?_⟩
    rw [Request.state_moved]
    decide
  | stopped exc tail hexc htail =>
    rw [exec_of_done htail]
    refine ⟨x, hx, rfl, ?_⟩
    rw [hs]
    decide
  | made p tail hp htail =>
    rw [exec_call, exec_call, exec_call, Outcome.state_after, Outcome.state_after,
      Outcome.state_after, exec_of_done htail]
    refine ⟨_, hsaved _ (delivered x now) rfl, rfl, ?_⟩
    rw [delivered, Request.state_moved]
    decide

variable (cfg) in
theorem confirm_leaves (hx : s.requests k.action.requestId = some x)
    (hid : x.id = k.action.requestId) (hfresh : s.interactions k.action.actionId = none)
    (hdecision : k.action.decision = .confirm) (hgate : x.state = .awaitingClassification) :
    ∃ y, (exec store (handling cfg k) s).state.requests k.action.requestId = some y ∧
      y.id = k.action.requestId ∧ y.state ≠ .awaitingClassification := by
  have hgateOf : x.state = gateOf k.action.decision := by
    rw [hdecision]
    exact hgate
  obtain ⟨p, hp, hdeciding⟩ := deciding_accepted cfg hgateOf
  rw [← exec_advance, advance_handling cfg hx, ← exec_advance, Course.advance_recording cfg hfresh,
    hdeciding, exec_call, Outcome.state_after]
  have hstate : (x.moved (target k.action.decision) k.now).state = .generating := by
    rw [hdecision]
    rfl
  have hmoved : ((record k s).saveRequest (x.moved (target k.action.decision) k.now)).requests
      x.id = some (x.moved (target k.action.decision) k.now) := by
    rw [Repository.requests_saveRequest, if_pos (Request.id_moved _ _ _).symm]
  rw [← hid]
  exact pipeline_leaves (hp.of_confirm hdecision) (Request.id_moved _ _ _) hmoved hstate

/-- **A confirmation against a correction**: the correction, saving its own copy, takes the request
back to the first gate. -/
theorem not_serializable_correct (hr : repo.requests r.id = some r)
    (hreq : k.action.requestId = r.id) (hreq' : k'.action.requestId = r.id)
    (hne : k.action.actionId ≠ k'.action.actionId)
    (hfresh : repo.interactions k.action.actionId = none)
    (hfresh' : repo.interactions k'.action.actionId = none)
    (hgate : r.state = .awaitingClassification) (hdecision : k.action.decision = .confirm)
    (hdecision' : k'.action.decision = .correct) : ¬ Serializable cfg repo k k' := by
  intro h
  -- the confirmation runs to its end, then the correction does
  obtain ⟨n, p', hp', hrun⟩ := alone (h := store) (deciding cfg k' r) (deciding cfg k r)
    (record k (record k' repo))
  obtain ⟨m, q', hq', hrun'⟩ := alone_right (h := store) p' (deciding cfg k' r)
    (exec store (deciding cfg k r) (record k (record k' repo))).state
  generalize (exec store (deciding cfg k r) (record k (record k' repo))).state = s at hrun hrun'
  have hafter : after cfg k k' repo ([.right, .right, .left, .left] ++
      (List.replicate n .left ++ List.replicate m .right)) =
        ⟨p', q', (exec store (deciding cfg k' r) s).state⟩ := by
    rw [after_append, opened hr hreq hreq' hne hfresh hfresh', run_append, hrun, hrun']
  have hserial := h.serial ([.right, .right, .left, .left] ++
    (List.replicate n .left ++ List.replicate m .right))
  rw [hafter] at hserial
  have hcorrected : stateIn (exec store (deciding cfg k' r) s).state r.id =
      some .awaitingClassification := by
    have hsaved : r.id = (withIntent (r.moved .awaitingClassification k'.now)
      k'.action.intent).id := rfl
    rw [exec_deciding_correct cfg s hdecision' hgate, stateIn_saveRequest, if_pos hsaved]
    rfl
  have hleft : ∀ repo' : Repository, (∃ y, repo'.requests r.id = some y ∧ y.id = r.id ∧
      y.state ≠ .awaitingClassification) →
        (exec store (deciding cfg k' r) s).state.untimed ≠ repo'.untimed := by
    rintro repo' ⟨y, hy, -, hstate⟩ heq
    have hsame := congrArg (fun repo => stateIn repo r.id) heq
    simp only [stateIn_untimed] at hsame
    rw [hcorrected, stateIn, hy, Option.map_some, Option.some.injEq] at hsame
    exact hstate hsame.symm
  rcases hserial ⟨hp', hq'⟩ with heq | heq
  · obtain ⟨y, hy, hyid, hstate⟩ := confirm_leaves cfg (hreq ▸ hr) hreq.symm hfresh
      hdecision hgate
    refine hleft _ ⟨y, ?_, hreq ▸ hyid, hstate⟩ heq
    have hturned : Turned k' y (exec store (handling cfg k) repo).state := by
      refine .inr ?_
      rw [hdecision']
      exact hstate
    rw [oneByOne, exec_turned (hreq'.trans hreq.symm ▸ hy) hturned, requests_record, ← hreq, hy]
  · have hcorrect := exec_correct cfg (hreq' ▸ hr) hfresh' hdecision' hgate
    generalize hx : withIntent (r.moved .awaitingClassification k'.now) k'.action.intent = x
      at hcorrect
    have hxid : x.id = r.id := by rw [← hx]; rfl
    have hxstate : x.state = .awaitingClassification := by rw [← hx]; rfl
    have hfound : (exec store (handling cfg k') repo).state.requests r.id = some x := by
      rw [hcorrect, Repository.requests_saveRequest, if_pos hxid.symm]
    have hfresh₁ : (exec store (handling cfg k') repo).state.interactions k.action.actionId =
        none := by
      rw [hcorrect, Repository.interactions_saveRequest, Repository.interactions_saveRequest,
        interactions_record, if_neg fun h => hne h.2, hfresh]
    have hleaves := confirm_leaves cfg (hreq ▸ hfound) (hxid.trans hreq.symm) hfresh₁
      hdecision hxstate
    rw [hreq] at hleaves
    exact hleft _ hleaves heq

/-- The next call of the program logs the next revision of `r`. -/
def Logs (r : Request) (p : Prog RepoOp Exn Request) : Prop :=
  ∃ revision next, p = call (.addRevision revision) next ∧ revision.requestId = r.id ∧
    revision.revisionNo = r.currentRevision + 1

theorem pipeline_logs {env : External} {now : Instant} {feedback : Option String}
    {previous : Option Json} {state : RequestState} {t : Instant}
    (hp : PipelineCalls cfg env (r.moved state t) now feedback previous p)
    (hok : (produce cfg env r feedback previous).isOk = true) : Logs r p := by
  have hmoved : produce cfg env (r.moved state t) feedback previous =
      produce cfg env r feedback previous := rfl
  cases hp with
  | failed text tail hgen htail =>
    rw [← hmoved, produce, hgen, error_bind] at hok
    cases hok
  | stopped exc tail hexc htail =>
    rw [← hmoved, hexc] at hok
    cases hok
  | made p tail hp htail => exact ⟨_, _, rfl, rfl, rfl⟩

/-- What is left of a confirmation whose external calls succeed, its transition saved. -/
theorem confirm_logs {w : World} {state : RequestState} {t : Instant}
    (hp : FollowCalls cfg k (r.moved state t) p) (hd : k.action.decision = .confirm)
    (hok : (produce cfg k.env r (feedbackOf k.action) (priorContent k.action r w)).isOk = true) :
    Logs r p := by
  rw [feedbackOf, priorContent, hd] at hok
  exact pipeline_logs (hp.of_confirm hd) hok

theorem revise_logs {w : World} {state : RequestState} {t : Instant}
    (hp : FollowCalls cfg k (r.moved state t) p) (hd : k.action.decision = .revise)
    (hok : (produce cfg k.env r (feedbackOf k.action) (priorContent k.action r w)).isOk = true) :
    ∃ next, p = call (.latestRevision r.id) next ∧ Logs r (next (w.repo.latestRevision r.id)) := by
  rw [feedbackOf, priorContent, hd] at hok
  obtain ⟨next, rfl, hnext⟩ := hp.of_revise hd
  exact ⟨next, rfl, pipeline_logs (hnext _) hok⟩

/-- Two programs about to log the next revision of one request log one number twice. -/
theorem not_issuedOnce (hp : Logs r p) (hq : Logs r q) :
    ¬ IssuedOnce (run (tick store) ⟨p, q, s⟩ [.left, .right]).state := by
  obtain ⟨revision, next, rfl, hrid, hno⟩ := hp
  obtain ⟨revision', next', rfl, hrid', hno'⟩ := hq
  intro h
  have hlog : ((s.addRevision revision).addRevision revision').getRevisions r.id =
      s.getRevisions r.id ++ [revision] ++ [revision'] := by
    rw [Repository.getRevisions, Repository.revisions_addRevision, if_pos hrid'.symm,
      Repository.revisions_addRevision, if_pos hrid.symm, Repository.getRevisions]
  have hnodup : (((s.addRevision revision).addRevision revision').getRevisions r.id |>.map
      (·.revisionNo)).Nodup := h r.id
  rw [hlog, List.append_assoc, List.map_append] at hnodup
  have hpair := (List.nodup_append.mp hnodup).2.1
  simp [hno, hno'] at hpair

/-- **Two clicks that start the same generation** log one revision number twice. -/
theorem not_serializable_generating {w : World} (hr : w.repo.requests r.id = some r)
    (hreq : k.action.requestId = r.id) (hreq' : k'.action.requestId = r.id)
    (hne : k.action.actionId ≠ k'.action.actionId)
    (hfresh : w.repo.interactions k.action.actionId = none)
    (hfresh' : w.repo.interactions k'.action.actionId = none)
    (hgate : r.state = gateOf k.action.decision) (hsame : k'.action.decision = k.action.decision)
    (hstarts : startsPipeline k.action.decision = true)
    (hok : (produce cfg k.env r (feedbackOf k.action) (priorContent k.action r w)).isOk = true)
    (hok' : (produce cfg k'.env r (feedbackOf k'.action) (priorContent k'.action r w)).isOk =
      true) : ¬ Serializable cfg w.repo k k' := by
  intro h
  obtain ⟨p, hp, hdeciding⟩ := deciding_accepted cfg hgate
  obtain ⟨q, hq, hdeciding'⟩ := deciding_accepted cfg (hsame ▸ hgate)
  -- both transitions are saved before either click goes on
  generalize hs : ((record k (record k' w.repo)).saveRequest (r.moved (target k.action.decision)
    k.now)).saveRequest (r.moved (target k'.action.decision) k'.now) = s
  have hafter : after cfg k k' w.repo ([.right, .right, .left, .left] ++ [.left, .right]) =
      ⟨p, q, s⟩ := by
    rw [after_append, opened hr hreq hreq' hne hfresh hfresh', hdeciding, hdeciding', ← hs]
    rfl
  have hlatest : s.latestRevision r.id = w.repo.latestRevision r.id := by
    rw [← hs, Repository.latestRevision, Repository.revisions_saveRequest,
      Repository.revisions_saveRequest, revisions_record, revisions_record,
      Repository.latestRevision]
  cases hd : k.action.decision with
  | approve | reject | correct =>
    rw [hd] at hstarts
    cases hstarts
  | confirm =>
    have honce := h.once (([.right, .right, .left, .left] ++ [.left, .right]) ++ [.left, .right])
    rw [after_append, hafter] at honce
    exact not_issuedOnce (confirm_logs hp hd hok) (confirm_logs hq (hsame.trans hd) hok') honce
  | revise =>
    obtain ⟨next, rfl, hlogs⟩ := revise_logs hp hd hok
    obtain ⟨next', rfl, hlogs'⟩ := revise_logs hq (hsame.trans hd) hok'
    have hlooked : after cfg k k' w.repo (([.right, .right, .left, .left] ++ [.left, .right]) ++
        [.left, .right]) = ⟨next (w.repo.latestRevision r.id), next' (w.repo.latestRevision r.id),
          s⟩ := by
      rw [after_append, hafter, ← hlatest]
      rfl
    have honce := h.once ((([.right, .right, .left, .left] ++ [.left, .right]) ++
      [.left, .right]) ++ [.left, .right])
    rw [after_append, hlooked] at honce
    exact not_issuedOnce hlogs hlogs' honce

/-- Two decisions at one gate: one of them ends the request, or they confirm and correct. -/
theorem decisions_at_gate {d d' : OwnerDecision} (hgate : gateOf d = gateOf d') (hne : d ≠ d') :
    target d ≠ target d' ∧ (isTerminal (target d) = true ∨ isTerminal (target d') = true ∨
      (d = .confirm ∧ d' = .correct) ∨ (d = .correct ∧ d' = .confirm)) := by
  revert hgate hne
  cases d <;> cases d' <;> decide

/-- **Clicks that conflict are not serializable**, if their external calls succeed. -/
theorem not_serializable_of_conflict {w : World} (hw : Wf w)
    (hr : w.repo.requests k.action.requestId = some r)
    (hreq : k'.action.requestId = k.action.requestId)
    (hne : k.action.actionId ≠ k'.action.actionId) (hok : Succeeds cfg w k)
    (hok' : Succeeds cfg w k') (h : Conflict w k k') : ¬ Serializable cfg w.repo k k' := by
  obtain ⟨hacc, hacc', hconflict⟩ := h
  obtain ⟨x, hx, hfresh, hgate⟩ := accepted_iff.mp hacc
  obtain ⟨y, hy, hfresh', hgate'⟩ := accepted_iff.mp hacc'
  rw [hreq, hr, Option.some.injEq] at hy
  rw [hr, Option.some.injEq] at hx
  subst hx hy
  have hid : r.id = k.action.requestId := hw.id_eq hr
  have hr' : w.repo.requests r.id = some r := by rw [hid, hr]
  have hreq₁ : k.action.requestId = r.id := hid.symm
  have hreq₂ : k'.action.requestId = r.id := hreq.trans hid.symm
  by_cases hd : k.action.decision = k'.action.decision
  · obtain hconflict | ⟨hstarts, y, hy, hi⟩ := hconflict
    · exact absurd hd hconflict
    · rw [hr, Option.some.injEq] at hy
      subst hy
      have hk := hok r hr hstarts hi
      have hk' := hok' r (hreq ▸ hr) (hd ▸ hstarts) hi
      rw [produces_eq hr] at hk
      rw [produces_eq (hreq ▸ hr)] at hk'
      exact not_serializable_generating hr' hreq₁ hreq₂ hne hfresh hfresh' hgate hd.symm hstarts
        hk hk'
  · obtain ⟨htarget, hends | hends | ⟨hconfirm, hcorrect⟩ | ⟨hcorrect, hconfirm⟩⟩ :=
      decisions_at_gate (hgate.symm.trans hgate') hd
    · exact not_serializable_closing hr' hreq₁ hreq₂ hne hfresh hfresh' hgate hgate' hends
        htarget.symm
    · exact fun h => not_serializable_closing hr' hreq₂ hreq₁ hne.symm hfresh' hfresh hgate' hgate
        hends htarget h.swap
    · rw [hconfirm] at hgate
      exact not_serializable_correct hr' hreq₁ hreq₂ hne hfresh hfresh' hgate hconfirm hcorrect
    · rw [hcorrect] at hgate
      exact fun h => not_serializable_correct hr' hreq₂ hreq₁ hne.symm hfresh' hfresh hgate
        hconfirm hcorrect h.swap

end conflict

/-- **Two clicks on a request are serializable if and only if they do not conflict**, in every
repository a run leaves, whatever the clicks, as long as their external calls succeed. -/
theorem serializable_iff {cs : List Call} (hids : (ingestIds cs).Nodup) {r : Request}
    (hr : (run (step cfg) World.initial cs).repo.getRequest k.action.requestId = some r)
    (hreq : k'.action.requestId = k.action.requestId)
    (hne : k.action.actionId ≠ k'.action.actionId)
    (hok : Succeeds cfg (run (step cfg) World.initial cs) k)
    (hok' : Succeeds cfg (run (step cfg) World.initial cs) k') :
    Serializable cfg (run (step cfg) World.initial cs).repo k k' ↔
      ¬ Conflict (run (step cfg) World.initial cs) k k' := by
  refine ⟨fun h hconflict => ?_, serializable_of_not_conflict hids hr hreq hne⟩
  exact not_serializable_of_conflict (wf_run cs) hr hreq hne hok hok' hconflict h

namespace Sample

/-- A click on an approval link of request `r1`, every external call succeeding. -/
def pressed (actionId : String) (decision : OwnerDecision) : Click :=
  ⟨click "r1" actionId decision 1, start + 1, external planText⟩

theorem succeeds_pressed {actionId : String} {decision : OwnerDecision}
    (h : startsPipeline decision = true → produces (config codec false) (external planText)
      (run (step (config codec false)) World.initial oneRevision)
      (click "r1" actionId decision 1) = true) :
    Succeeds (config codec false) (run (step (config codec false)) World.initial oneRevision)
      (pressed actionId decision) := fun _ _ hstarts _ => h hstarts

end Sample

open Sample in
/-- Two approvals of one document are serializable. -/
theorem serializable_iff_approved : Serializable (config codec false)
    (run (step (config codec false)) World.initial oneRevision).repo (pressed "a2" .approve)
      (pressed "a3" .approve) := by
  have hfound : ((run (step (config codec false)) World.initial oneRevision).repo.getRequest
      "r1").isSome = true := by decide +kernel
  obtain ⟨r, hr⟩ := Option.isSome_iff_exists.mp hfound
  have hok : ∀ actionId, Succeeds (config codec false)
      (run (step (config codec false)) World.initial oneRevision) (pressed actionId .approve) := by
    intro actionId
    refine succeeds_pressed fun h => ?_
    cases h
  have hreq : (pressed "a3" .approve).action.requestId = (pressed "a2" .approve).action.requestId :=
    rfl
  have hserial := serializable_iff (by decide) hr hreq (by decide) (hok "a2") (hok "a3")
  refine hserial.mpr ?_
  rintro ⟨-, -, h | ⟨h, -⟩⟩
  · exact h rfl
  · cases h

open Sample in
/-- **An approval and a request for revision at once**: the completed request is generated again. -/
theorem approved_and_revised : ∃ cs k k', (ingestIds cs).Nodup ∧
    k'.action.requestId = k.action.requestId ∧ k.action.actionId ≠ k'.action.actionId ∧
    Succeeds (config codec false) (run (step (config codec false)) World.initial cs) k ∧
    Succeeds (config codec false) (run (step (config codec false)) World.initial cs) k' ∧
    (run (step (config codec false)) World.initial cs).repo.getRequest k.action.requestId ≠ none ∧
    ¬ Serializable (config codec false) (run (step (config codec false)) World.initial cs).repo
      k k' := by
  refine ⟨oneRevision, pressed "a2" .approve, pressed "a3" .revise, by decide, rfl, by decide, ?_⟩
  have hok : Succeeds (config codec false)
      (run (step (config codec false)) World.initial oneRevision) (pressed "a2" .approve) := by
    refine succeeds_pressed fun h => ?_
    cases h
  have hok' : Succeeds (config codec false)
      (run (step (config codec false)) World.initial oneRevision) (pressed "a3" .revise) := by
    refine succeeds_pressed fun _ => ?_
    decide +kernel
  have hconflict : Conflict (run (step (config codec false)) World.initial oneRevision)
      (pressed "a2" .approve) (pressed "a3" .revise) :=
    ⟨by decide +kernel, by decide +kernel, .inl (by decide)⟩
  obtain ⟨r, hr, -⟩ := hconflict.1
  refine ⟨hok, hok', ?_, ?_⟩
  · rw [hr]
    exact Option.some_ne_none r
  · exact not_serializable_of_conflict (wf_run _) hr rfl (by decide) hok hok' hconflict

end WappPlanner.Orchestrator
