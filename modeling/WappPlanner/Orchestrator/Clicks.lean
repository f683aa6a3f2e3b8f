import WappPlanner.Orchestrator.RepoCalls

/-! # Two clicks at once

Two clicks on links of one request, handled side by side: a schedule picks whose repository call comes
next. `always_going` says what a click does on its own, and `overtaken` what two clicks do when the
second one could not be accepted as things stand: it stops, or waits until the first one is through,
so that the two were handled one after the other. -/

namespace WappPlanner.Orchestrator

open WappPlanner.Domain.Enums WappPlanner.Domain.Models WappPlanner.Errors
open WappPlanner.Hitl.Service WappPlanner.Lib.Interleave WappPlanner.Lib.Programs
open WappPlanner.Lib.Runs WappPlanner.Persistence.InMemory WappPlanner.Py.Text
open WappPlanner.Py.Values WappPlanner.Workflow.Enums WappPlanner.Workflow.StateMachine Prog

variable (cfg : Config)

/-- Two clicks on a repository, neither of them handled yet. -/
def both (k k' : Click) (repo : Repository) : System RepoOp Repository Exn Request Request :=
  ⟨handling cfg k, handling cfg k', repo⟩

/-- The system after a schedule. -/
def after (k k' : Click) (repo : Repository) (schedule : List Side) :
    System RepoOp Repository Exn Request Request :=
  run (tick store) (both cfg k k' repo) schedule

/-- The repository after one click and then another one. -/
def oneByOne (k k' : Click) (repo : Repository) : Repository :=
  (exec store (handling cfg k') (exec store (handling cfg k) repo).state).state

/-- The state a repository keeps for a request. -/
def stateIn (repo : Repository) (rid : String) : Option RequestState :=
  (repo.requests rid).map (·.state)

/-- The next call of a program takes no request out of a terminal state. -/
def Calm (p : Prog RepoOp Exn Request) (repo : Repository) : Prop :=
  ∀ rid s, stateIn repo rid = some s → isTerminal s = true →
    stateIn (advance store p repo).2 rid = some s

/-- A click is on its way on request `rid`, which was in state `s₀`: it is calm, and the request waits
at no other gate before the click is through. -/
structure Going (rid : String) (s₀ : RequestState) (p : Prog RepoOp Exn Request)
    (repo : Repository) : Prop where
  calm : Calm p repo
  present : ∃ r, repo.requests rid = some r ∧ r.id = rid ∧
    (r.state = s₀ ∨ (∀ d, r.state ≠ gateOf d) ∨ Done p)

variable {cfg} {repo : Repository} {rid : String} {s₀ : RequestState} {r x : Request}

/-! ### One click on its own -/

theorem calm_of_requests {p : Prog RepoOp Exn Request}
    (h : (advance store p repo).2.requests = repo.requests) : Calm p repo := by
  intro rid s hs _
  unfold stateIn
  rw [h]
  exact hs

theorem calm_of_done {p : Prog RepoOp Exn Request} (hp : Done p) : Calm p repo :=
  calm_of_requests (by rw [advance_of_done hp])

theorem stateIn_saveRequest (rid' : String) : stateIn (repo.saveRequest x) rid' =
    if rid' = x.id then some x.state else stateIn repo rid' := by
  unfold stateIn
  rw [Repository.requests_saveRequest]
  split_ifs <;> rfl

theorem calm_save (hr : repo.requests x.id = some r) (hs : isTerminal r.state = false)
    (next : Unit → Prog RepoOp Exn Request) : Calm (call (.saveRequest x) next) repo := by
  intro rid s hrid hterminal
  have hne : rid ≠ x.id := by
    rintro rfl
    rw [stateIn, hr, Option.map_some, Option.some.injEq] at hrid
    rw [hrid, hterminal] at hs
    cases hs
  have hstate : stateIn (repo.saveRequest x) rid =
      if rid = x.id then some x.state else stateIn repo rid := stateIn_saveRequest rid
  rw [if_neg hne] at hstate
  exact hstate.trans hrid

section going

variable {p : Prog RepoOp Exn Request} {next : Unit → Prog RepoOp Exn Request}

theorem going_of_done (hr : repo.requests rid = some r) (hid : r.id = rid) (hp : Done p) :
    Always store (Going rid s₀) p repo :=
  always_of_done hp ⟨calm_of_done hp, r, hr, hid, .inr (.inr hp)⟩

theorem always_save (hr : repo.requests rid = some r) (hid : r.id = rid) (hx : x.id = rid)
    (hs : r.state = s₀ ∨ ∀ d, r.state ≠ gateOf d) (hterminal : isTerminal r.state = false)
    (hnext : Always store (Going rid s₀) (next ()) (repo.saveRequest x)) :
    Always store (Going rid s₀) (call (.saveRequest x) next) repo := by
  refine ⟨⟨calm_save (hx ▸ hr) hterminal next, r, hr, hid, ?_⟩, hnext⟩
  rcases hs with hs | hs
  · exact .inl hs
  · exact .inr (.inl hs)

theorem always_pipeline {env : External} {now : Instant} {feedback : Option String}
    {previous : Option Json} (hp : PipelineCalls cfg env x now feedback previous p)
    (hr : repo.requests rid = some x) (hid : x.id = rid) (hs : x.state = .generating) :
    Always store (Going rid s₀) p repo := by
  have hgate := ne_gateOf (.inl hs)
  have hterminal : isTerminal x.state = false := by
    rw [hs]
    decide
  have hsaved : ∀ (repo : Repository) (y : Request), y.id = rid →
      (repo.saveRequest y).requests rid = some y := by
    intro repo y hy
    rw [Repository.requests_saveRequest, if_pos hy.symm]
  cases hp with
  | failed text tail hgen htail =>
    exact always_save hr hid hid (.inr hgate) hterminal
      (going_of_done (hsaved _ (x.moved .failed now) hid) hid htail)
  | stopped exc tail hexc htail => exact going_of_done hr hid htail
  | made p tail hp htail =>
    refine ⟨⟨calm_of_requests rfl, x, hr, hid, .inr (.inl hgate)⟩, ?_⟩
    refine always_save hr hid hid (.inr hgate) hterminal ?_
    refine always_save (hsaved _ ((bumped x).moved .rendering now) hid) hid hid
      (.inr (ne_gateOf (.inr rfl))) rfl ?_
    exact going_of_done (hsaved _ (delivered x now) hid) hid htail

theorem always_deciding {k : Click} (hr : repo.requests rid = some r) (hid : r.id = rid) :
    Always store (Going rid r.state) (deciding cfg k r) repo := by
  by_cases hgate : r.state = gateOf k.action.decision
  · obtain ⟨p, hp, hdeciding⟩ := deciding_accepted cfg hgate
    have hsaved : ∀ (repo : Repository) (y : Request), y.id = rid →
        (repo.saveRequest y).requests rid = some y := by
      intro repo y hy
      rw [Repository.requests_saveRequest, if_pos hy.symm]
    have hmoved := hsaved repo (r.moved (target k.action.decision) k.now) hid
    have hterminal : isTerminal r.state = false := by
      rw [hgate]
      exact not_terminal_gateOf _
    rw [hdeciding]
    refine always_save hr hid hid (.inl rfl) hterminal ?_
    cases hp with
    | settled tail hd htail => exact going_of_done hmoved hid htail
    | corrected tail hd htail =>
      -- a correction stays at the gate it is made at
      have hsame : target k.action.decision = r.state := by
        rw [hgate, hd]
        rfl
      refine always_save hmoved hid hid (.inl hsame) ?_ ?_
      · rw [Request.state_moved, hsame]
        exact hterminal
      · exact going_of_done (hsaved _ (withIntent _ _) hid) hid htail
    | confirmed p hd hp =>
      refine always_pipeline hp hmoved hid ?_
      rw [Request.state_moved, hd]
      rfl
    | revised next hd hnext =>
      have hs : (r.moved (target k.action.decision) k.now).state = .generating := by
        rw [Request.state_moved, hd]
        rfl
      refine ⟨⟨calm_of_requests rfl, _, hmoved, hid, .inr (.inl (ne_gateOf (.inl hs)))⟩, ?_⟩
      exact always_pipeline (hnext _) hmoved hid hs
  · rw [deciding_refused hgate]
    exact going_of_done hr hid trivial

/-- **A click on its own** is calm, and its request waits at no other gate before it is through. -/
theorem always_going (k : Click) (hr : repo.requests k.action.requestId = some r)
    (hid : r.id = k.action.requestId) :
    Always store (Going k.action.requestId r.state) (handling cfg k) repo := by
  rw [handling_eq]
  refine ⟨⟨calm_of_requests rfl, r, hr, hid, .inl rfl⟩, ?_⟩
  have hget : (store.act (.getRequest k.action.requestId) repo).1 = some r := hr
  rw [hget]
  have hrecord : (repo.recordInteraction (interactionOf k.action)).2.requests = repo.requests := by
    unfold Repository.recordInteraction
    split_ifs <;> rfl
  refine ⟨⟨calm_of_requests hrecord, r, hr, hid, .inl rfl⟩, ?_⟩
  have hr' : (repo.recordInteraction (interactionOf k.action)).2.requests k.action.requestId =
      some r := by rw [hrecord, hr]
  change Always store _ (if (repo.recordInteraction (interactionOf k.action)).1 = true then
    deciding cfg k r else ret r) (repo.recordInteraction (interactionOf k.action)).2
  split_ifs
  · exact always_deciding hr' hid
  · exact going_of_done hr' hid trivial

end going

/-! ### Recording an interaction -/

/-- The repository after the interaction of a click is recorded, if it was not there. -/
def record (k : Click) (repo : Repository) : Repository :=
  (repo.recordInteraction (interactionOf k.action)).2

/-- The operation records no interaction `id`. -/
def RecordsOther (id : String) : {γ : Type} → RepoOp γ → Prop
  | _, .recordInteraction interaction => interaction.id ≠ id
  | _, _ => True

theorem requests_record (k : Click) (repo : Repository) :
    (record k repo).requests = repo.requests := by
  unfold record Repository.recordInteraction
  split_ifs <;> rfl

theorem messages_record (k : Click) (repo : Repository) :
    (record k repo).messages = repo.messages := by
  unfold record Repository.recordInteraction
  split_ifs <;> rfl

theorem revisions_record (k : Click) (repo : Repository) :
    (record k repo).revisions = repo.revisions := by
  unfold record Repository.recordInteraction
  split_ifs <;> rfl

theorem interactions_record (k : Click) (repo : Repository) (id : String) :
    (record k repo).interactions id =
      if repo.interactions id = none ∧ id = k.action.actionId then some (interactionOf k.action)
      else repo.interactions id := by
  unfold record Repository.recordInteraction
  have hid : (interactionOf k.action).id = k.action.actionId := rfl
  rw [hid]
  by_cases h : id = k.action.actionId
  · subst h
    cases hi : repo.interactions k.action.actionId <;> simp [hi]
  · split_ifs <;> simp_all

theorem commutes_record (k : Click) : Commutes store (RecordsOther k.action.actionId) (record k) := by
  intro γ o repo ho
  cases o with
  | recordInteraction i =>
    have hne : i.id ≠ (interactionOf k.action).id := ho
    exact Repository.recordInteraction_comm hne.symm
  | _ =>
    simp only [store, RepoOp.act, record, Repository.recordInteraction]
    split_ifs <;> simp_all [Repository.saveRequest, Repository.getRequest, Repository.setMessages,
      Repository.addRevision, Repository.latestRevision]

section performs

variable {id : String} {p : Prog RepoOp Exn Request}

theorem performs_pipeline {env : External} {now : Instant} {feedback : Option String}
    {previous : Option Json} (hp : PipelineCalls cfg env x now feedback previous p) :
    Performs (RecordsOther id) p := by
  cases hp with
  | failed text tail hgen htail => exact ⟨trivial, fun _ => performs_of_done htail⟩
  | stopped exc tail hexc htail => exact performs_of_done htail
  | made p tail hp htail =>
    exact ⟨trivial, fun _ => ⟨trivial, fun _ => ⟨trivial, fun _ => performs_of_done htail⟩⟩⟩

theorem performs_deciding (k : Click) (r : Request) :
    Performs (RecordsOther id) (deciding cfg k r) := by
  by_cases hgate : r.state = gateOf k.action.decision
  · obtain ⟨p, hp, hdeciding⟩ := deciding_accepted cfg hgate
    rw [hdeciding]
    refine ⟨trivial, fun _ => ?_⟩
    cases hp with
    | settled tail hd htail => exact performs_of_done htail
    | corrected tail hd htail => exact ⟨trivial, fun _ => performs_of_done htail⟩
    | confirmed p hd hp => exact performs_pipeline hp
    | revised next hd hnext => exact ⟨trivial, fun latest => performs_pipeline (hnext latest)⟩
  · rw [deciding_refused hgate]
    trivial

theorem performs_handling {k : Click} (hne : k.action.actionId ≠ id) :
    Performs (RecordsOther id) (handling cfg k) := by
  rw [handling_eq]
  refine ⟨trivial, fun found => ?_⟩
  cases found with
  | none => trivial
  | some r =>
    refine ⟨hne, fun fresh => ?_⟩
    cases fresh with
    | false => trivial
    | true => exact performs_deciding k r

theorem interactions_advance (repo : Repository) (hp : Performs (RecordsOther id) p) :
    (advance store p repo).2.interactions id = repo.interactions id := by
  cases p with
  | ret a => rfl
  | fail e => rfl
  | call o next =>
    cases o with
    | recordInteraction i =>
      have hne : i.id ≠ id := hp.1
      change (repo.recordInteraction i).2.interactions id = repo.interactions id
      unfold Repository.recordInteraction
      split_ifs
      · rfl
      · exact Function.update_of_ne hne.symm _ _
    | _ => rfl

end performs

/-! ### A click that could not be accepted as things stand -/

/-- Once `r` is read, the click is a duplicate or refused. -/
def Turned (k : Click) (r : Request) (repo : Repository) : Prop :=
  repo.interactions k.action.actionId ≠ none ∨ r.state ≠ gateOf k.action.decision

/-- A program on its way on request `rid`, which leaves the repository `final` if left alone. -/
structure Bound (rid : String) (s₀ : RequestState) (final : Repository)
    (p : Prog RepoOp Exn Request) (repo : Repository) : Prop where
  going : Always store (Going rid s₀) p repo
  ends : (exec store p repo).state = final

variable (cfg) in
/-- **The phases of the second click**, which has not read the request; has read it, to be turned
away; has been turned away; or is handled after the first one. -/
inductive Phase (k k' : Click) (repo : Repository) (s₀ : RequestState) :
    System RepoOp Repository Exn Request Request → Prop
  | unread (p : Prog RepoOp Exn Request) (s : Repository)
      (hperforms : Performs (RecordsOther k'.action.actionId) p)
      (hp : Bound k.action.requestId s₀ (exec store (handling cfg k) repo).state p s)
      (hseen : s.interactions k'.action.actionId = repo.interactions k'.action.actionId) :
      Phase k k' repo s₀ ⟨p, handling cfg k', s⟩
  | read (p : Prog RepoOp Exn Request) (s : Repository) (x : Request)
      (hperforms : Performs (RecordsOther k'.action.actionId) p)
      (hp : Bound k.action.requestId s₀ (exec store (handling cfg k) repo).state p s)
      (hx : Turned k' x s) : Phase k k' repo s₀ ⟨p, recording cfg k' x, s⟩
  | turned (p q : Prog RepoOp Exn Request) (s : Repository) (hq : Done q)
      (hp : Bound k.action.requestId s₀ (record k' (exec store (handling cfg k) repo).state) p s) :
      Phase k k' repo s₀ ⟨p, q, s⟩
  | passed (p q : Prog RepoOp Exn Request) (s : Repository) (s₁ : RequestState) (hp : Done p)
      (hq : Bound k.action.requestId s₁ (oneByOne cfg k k' repo) q s) : Phase k k' repo s₀ ⟨p, q, s⟩

section phases

variable {k k' : Click} {p q : Prog RepoOp Exn Request} {s final : Repository}

theorem Bound.advance (h : Bound rid s₀ final p s) :
    Bound rid s₀ final (advance store p s).1 (advance store p s).2 :=
  ⟨h.going.advance, by rw [exec_advance, h.ends]⟩

theorem Bound.calm (h : Bound rid s₀ final p s) : Calm p s := h.going.here.calm

theorem Bound.record (h : Bound rid s₀ final p s)
    (hp : Performs (RecordsOther k'.action.actionId) p) :
    Bound rid s₀ (record k' final) p (record k' s) := by
  refine ⟨h.going.commute (commutes_record k') ?_ hp, ?_⟩
  · rintro p s hp ⟨hcalm, r, hr, hid, hstate⟩
    refine ⟨fun rid x hx hterminal => ?_, r, ?_, hid, hstate⟩
    · have hrecord : ∀ s, stateIn (Orchestrator.record k' s) rid = stateIn s rid := by
        intro s
        unfold stateIn
        rw [requests_record]
      rw [Commutes.advance (commutes_record k') hp, hrecord]
      exact hcalm rid x (by rwa [hrecord] at hx) hterminal
    · rw [requests_record, hr]
  · rw [exec_commute (commutes_record k') s hp, h.ends]

variable (cfg) in
theorem recording_turned (h : Turned k' x s) :
    Done (advance store (recording cfg k' x) s).1 ∧
      (advance store (recording cfg k' x) s).2 = record k' s := by
  refine ⟨?_, rfl⟩
  change Done (if (s.recordInteraction (interactionOf k'.action)).1 = true then deciding cfg k' x
    else ret x)
  split_ifs with hfresh
  · have hgate : x.state ≠ gateOf k'.action.decision := by
      refine h.resolve_left fun hseen => ?_
      have hdup : (s.recordInteraction (interactionOf k'.action)).1 = false :=
        congrArg Prod.fst (Repository.recordInteraction_seen hseen)
      rw [hdup] at hfresh
      cases hfresh
    rw [deciding_refused hgate]
    trivial
  · trivial

variable (cfg) in
theorem advance_handling (hx : s.requests k'.action.requestId = some x) :
    advance store (handling cfg k') s = (recording cfg k' x, s) := by
  have hget : (store.act (.getRequest k'.action.requestId) s).1 = some x := hx
  rw [handling_eq]
  simp only [advance, hget]
  rfl

theorem exec_turned (hx : s.requests k'.action.requestId = some x) (h : Turned k' x s) :
    (exec store (handling cfg k') s).state = record k' s := by
  obtain ⟨hdone, hstate⟩ := recording_turned cfg h
  rw [← exec_advance, advance_handling cfg hx, ← exec_advance, exec_of_done hdone, hstate]

/-- **One operation of either click** keeps to the phases. -/
theorem phase_tick (hreq : k'.action.requestId = k.action.requestId)
    (hturned : repo.interactions k'.action.actionId ≠ none ∨ s₀ ≠ gateOf k'.action.decision)
    (c : System RepoOp Repository Exn Request Request) (side : Side)
    (h : Phase cfg k k' repo s₀ c) : Phase cfg k k' repo s₀ (tick store c side) := by
  cases h with
  | unread p s hperforms hp hseen =>
    cases side with
    | left =>
      have hseen' := (interactions_advance s hperforms).trans hseen
      exact .unread _ _ hperforms.advance hp.advance hseen'
    | right =>
      obtain ⟨x, hx, hid, hstate⟩ := hp.going.here.present
      rw [← hreq] at hx hid
      have hread := advance_handling cfg hx
      have htick : tick store ⟨p, handling cfg k', s⟩ .right = ⟨p, recording cfg k' x, s⟩ := by
        simp only [tick, hread]
      rw [htick]
      by_cases hdup : repo.interactions k'.action.actionId = none
      · have hs₀ := hturned.resolve_left (not_not.mpr hdup)
        rcases hstate with hsame | hgate | hdone
        · exact .read p s x hperforms hp (.inr (hsame ▸ hs₀))
        · exact .read p s x hperforms hp (.inr (hgate _))
        · have hends : (exec store (handling cfg k') s).state = oneByOne cfg k k' repo := by
            rw [oneByOne, ← hp.ends, exec_of_done hdone]
          have hbound : Bound k.action.requestId x.state (oneByOne cfg k k' repo)
              (handling cfg k') s := ⟨hreq ▸ always_going k' hx hid, hends⟩
          have hnext := hbound.advance
          rw [hread] at hnext
          exact .passed p _ s x.state hdone hnext
      · refine .read p s x hperforms hp (.inl ?_)
        rwa [hseen]
  | read p s x hperforms hp hx =>
    cases side with
    | left =>
      refine .read _ _ x hperforms.advance hp.advance ?_
      unfold Turned
      rwa [interactions_advance s hperforms]
    | right =>
      obtain ⟨hdone, hstate⟩ := recording_turned cfg hx
      refine .turned p _ _ hdone ?_
      rw [hstate]
      exact hp.record hperforms
  | turned p q s hq hp =>
    cases side with
    | left => exact .turned _ q _ hq hp.advance
    | right =>
      have htick : tick store ⟨p, q, s⟩ .right = ⟨p, q, s⟩ := by simp only [tick, advance_of_done hq]
      rw [htick]
      exact .turned p q s hq hp
  | passed p q s s₁ hp hq =>
    cases side with
    | left =>
      have htick : tick store ⟨p, q, s⟩ .left = ⟨p, q, s⟩ := by simp only [tick, advance_of_done hp]
      rw [htick]
      exact .passed p q s s₁ hp hq
    | right => exact .passed p _ _ s₁ hp hq.advance

theorem Phase.calm {c : System RepoOp Repository Exn Request Request}
    (h : Phase cfg k k' repo s₀ c) : Calm c.left c.state ∧ Calm c.right c.state := by
  cases h with
  | unread p s hperforms hp hseen =>
    refine ⟨hp.calm, calm_of_requests ?_⟩
    rw [handling_eq]
    rfl
  | read p s x hperforms hp hx => exact ⟨hp.calm, calm_of_requests (requests_record k' s)⟩
  | turned p q s hq hp => exact ⟨hp.calm, calm_of_done hq⟩
  | passed p q s s₁ hp hq => exact ⟨calm_of_done hp, hq.calm⟩

theorem Phase.ended {c : System RepoOp Repository Exn Request Request}
    (h : Phase cfg k k' repo s₀ c) (hc : Finished c) : c.state = oneByOne cfg k k' repo ∨
      c.state = record k' (exec store (handling cfg k) repo).state := by
  cases h with
  | unread p s hperforms hp hseen =>
    have hq := hc.right
    rw [handling_eq] at hq
    cases hq
  | read p s x hperforms hp hx => cases hc.right
  | turned p q s hq hp => exact .inr (hp.ends ▸ (exec_of_done hc.left s).symm)
  | passed p q s s₁ hp hq => exact .inl (hq.ends ▸ (exec_of_done hc.right s).symm)

variable (cfg) in
/-- **Two clicks, the second of which could not be accepted as things stand**, take no request out of
a terminal state and leave what they leave one after the other. -/
theorem overtaken (hr : repo.requests k.action.requestId = some r) (hid : r.id = k.action.requestId)
    (hreq : k'.action.requestId = k.action.requestId)
    (hne : k.action.actionId ≠ k'.action.actionId) (hturned : Turned k' r repo)
    (schedule : List Side) :
    (Calm (after cfg k k' repo schedule).left (after cfg k k' repo schedule).state ∧
      Calm (after cfg k k' repo schedule).right (after cfg k k' repo schedule).state) ∧
    (Finished (after cfg k k' repo schedule) →
      (after cfg k k' repo schedule).state = oneByOne cfg k k' repo ∨
        (after cfg k k' repo schedule).state = oneByOne cfg k' k repo) := by
  have hstart : Phase cfg k k' repo r.state (both cfg k k' repo) :=
    .unread _ _ (performs_handling hne) ⟨always_going k hr hid, rfl⟩ rfl
  have hphase : Phase cfg k k' repo r.state (after cfg k k' repo schedule) :=
    schedule_inv (phase_tick hreq hturned) hstart schedule
  have hsecond : oneByOne cfg k' k repo = record k' (exec store (handling cfg k) repo).state := by
    rw [oneByOne, exec_turned (hreq ▸ hr) hturned]
    exact exec_commute (commutes_record k') repo (performs_handling hne)
  rw [hsecond]
  exact ⟨hphase.calm, hphase.ended⟩

end phases

end WappPlanner.Orchestrator
