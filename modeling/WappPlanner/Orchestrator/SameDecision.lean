import WappPlanner.Orchestrator.Clicks
import WappPlanner.Orchestrator.Intents

/-! # The same decision twice

Two clicks with one decision, both acceptable as things stand, side by side. A `Course` says what
may become of their request meanwhile and in the end; a click on the course saves it one or more
times and then rests. `course_tick` keeps the course under every operation of either click. There are
two courses: a decision that only settles the request (`settling`), where both clicks save the same, and
a correction (`correcting`), where the later one wins. -/

namespace WappPlanner.Orchestrator

open WappPlanner.Domain.Enums WappPlanner.Domain.Models WappPlanner.Errors
open WappPlanner.Hitl.Service WappPlanner.Lib.Interleave WappPlanner.Lib.Programs
open WappPlanner.Lib.Runs WappPlanner.Persistence.InMemory WappPlanner.Py.Text
open WappPlanner.Py.Values WappPlanner.Workflow.Enums WappPlanner.Workflow.StateMachine Prog

/-- What may become of a request: what it may be meanwhile, what is saved, what is saved last, and
what a click finds that comes too late. -/
structure Course (rid : String) where
  found : Request → Prop
  saved : Request → Prop
  ends : Request → Prop
  late : Request → Prop
  id_eq : ∀ {x}, found x → x.id = rid
  saved_found : ∀ {x}, saved x → found x
  ends_saved : ∀ {x}, ends x → saved x
  late_ends : ∀ {x}, late x → ends x
  late_saved : ∀ {x y}, late x → saved y → late y
  calm : ∀ {x y}, found x → saved y → isTerminal x.state = true → y.state = x.state

/-- The request is there, and is what `P` says. -/
def RequestIs (rid : String) (P : Request → Prop) (repo : Repository) : Prop :=
  ∃ x, repo.requests rid = some x ∧ P x

/-- Nothing is left to do but, perhaps, to look at the latest revision. -/
def Idle : Prog RepoOp Exn Request → Prop
  | call (.latestRevision _) next => ∀ latest, Done (next latest)
  | call _ _ => False
  | _ => True

theorem idle_of_done {p : Prog RepoOp Exn Request} (hp : Done p) : Idle p := by
  cases p with
  | call o next => cases hp
  | ret r => trivial
  | fail e => trivial

namespace Course

variable {rid : String} (C : Course rid)

/-- The program saves the request, then is idle. -/
inductive Saves : Prog RepoOp Exn Request → Prop
  | last (y : Request) (tail : Prog RepoOp Exn Request) (hy : C.ends y) (htail : Idle tail) :
      Saves (call (.saveRequest y) fun _ => tail)
  | more (y : Request) (p : Prog RepoOp Exn Request) (hy : C.saved y) (hp : Saves p) :
      Saves (call (.saveRequest y) fun _ => p)

/-- Where a click on the course is. -/
inductive Track (cfg : Config) (k : Click) : Prog RepoOp Exn Request → Repository → Prop
  | unread (s : Repository) (hfresh : s.interactions k.action.actionId = none) :
      Track cfg k (handling cfg k) s
  | read (s : Repository) (x : Request) (hfresh : s.interactions k.action.actionId = none)
      (hx : C.Saves (deciding cfg k x) ∨ RequestIs rid C.late s ∧ Done (deciding cfg k x)) :
      Track cfg k (recording cfg k x) s
  | saving (p : Prog RepoOp Exn Request) (s : Repository)
      (hrecorded : s.interactions k.action.actionId = some (interactionOf k.action))
      (hp : C.Saves p) : Track cfg k p s
  | resting (p : Prog RepoOp Exn Request) (s : Repository)
      (hrecorded : s.interactions k.action.actionId = some (interactionOf k.action))
      (hp : Idle p) : Track cfg k p s

/-- What one operation of a click on the course does. -/
inductive Effect (k : Click) (s : Repository) : Repository → Prop
  | none : Effect k s s
  | noted : Effect k s (record k s)
  | saved (y : Request) (hy : C.saved y) : Effect k s (s.saveRequest y)

/-- The repository meanwhile: nothing but the request and the two interactions is new. -/
structure Near (k k' : Click) (repo s : Repository) : Prop where
  messages : s.messages = repo.messages
  revisions : s.revisions = repo.revisions
  others : ∀ rid', rid' ≠ rid → s.requests rid' = repo.requests rid'
  request : RequestIs rid C.found s
  interactions : ∀ id, id ≠ k.action.actionId → id ≠ k'.action.actionId →
    s.interactions id = repo.interactions id

/-- A click stays on the course, whatever it finds of it. -/
def Keeps (cfg : Config) (k : Click) : Prop :=
  k.action.requestId = rid ∧
    ∀ x, C.found x → C.Saves (deciding cfg k x) ∨ C.late x ∧ Done (deciding cfg k x)

/-- Both clicks are on the course. -/
structure Holds (cfg : Config) (k k' : Click) (repo : Repository)
    (c : System RepoOp Repository Exn Request Request) : Prop where
  near : C.Near k k' repo c.state
  left : C.Track cfg k c.left c.state
  right : C.Track cfg k' c.right c.state
  ended : Idle c.left → Idle c.right → RequestIs rid C.ends c.state

variable {C} {cfg : Config} {k k' : Click} {repo s s' : Repository} {x y : Request}
  {p q : Prog RepoOp Exn Request}

/-! ### One operation -/

theorem Saves.not_idle (h : C.Saves p) : ¬ Idle p := by
  cases h with
  | last | more => exact id

theorem not_idle_handling : ¬ Idle (handling cfg k) := by
  rw [handling_eq]
  exact id

theorem not_idle_recording : ¬ Idle (recording cfg k x) := id

theorem requests_saved (hy : C.saved y) (s : Repository) :
    (s.saveRequest y).requests rid = some y := by
  rw [Repository.requests_saveRequest, if_pos (C.id_eq (C.saved_found hy)).symm]

theorem interactions_recorded (hfresh : s.interactions k.action.actionId = none) :
    (record k s).interactions k.action.actionId = some (interactionOf k.action) := by
  rw [interactions_record, if_pos ⟨hfresh, rfl⟩]

variable (cfg) in
theorem advance_recording (hfresh : s.interactions k.action.actionId = none) :
    advance store (recording cfg k x) s = (deciding cfg k x, record k s) := by
  have hrecord : s.recordInteraction (interactionOf k.action) = (true, record k s) := by
    rw [record, Repository.recordInteraction_fresh hfresh]
  have hact : store.act (.recordInteraction (interactionOf k.action)) s = (true, record k s) :=
    hrecord
  simp only [recording, advance, hact, if_true]

/-- **One operation of a click on the course**: it stays on it, and its request is settled as soon
as it rests. -/
theorem track_advance (hkeeps : C.Keeps cfg k) (hfound : RequestIs rid C.found s)
    (h : C.Track cfg k p s) :
    C.Track cfg k (advance store p s).1 (advance store p s).2 ∧
      C.Effect k s (advance store p s).2 ∧
        (Idle (advance store p s).1 →
          Idle p ∧ (advance store p s).2 = s ∨ RequestIs rid C.ends (advance store p s).2) := by
  cases h with
  | unread s hfresh =>
    obtain ⟨x, hx, hfoundx⟩ := hfound
    rw [advance_handling cfg (hkeeps.1 ▸ hx)]
    refine ⟨.read s x hfresh ?_, .none, fun hidle => absurd hidle not_idle_recording⟩
    exact (hkeeps.2 x hfoundx).imp id fun ⟨hlate, hdone⟩ => ⟨⟨x, hx, hlate⟩, hdone⟩
  | read s x hfresh hx =>
    have hrecorded := interactions_recorded hfresh
    rw [advance_recording cfg hfresh]
    rcases hx with hsaves | ⟨⟨y, hy, hlate⟩, hdone⟩
    · exact ⟨.saving _ _ hrecorded hsaves, .noted, fun hidle => absurd hidle hsaves.not_idle⟩
    · refine ⟨.resting _ _ hrecorded (idle_of_done hdone), .noted, fun _ => .inr ⟨y, ?_, ?_⟩⟩
      · dsimp only
        rw [requests_record, hy]
      · exact C.late_ends hlate
  | saving p s hrecorded hp =>
    cases hp with
    | last y tail hy htail =>
      have hsaved := C.ends_saved hy
      have hended : RequestIs rid C.ends (s.saveRequest y) := ⟨y, requests_saved hsaved s, hy⟩
      exact ⟨.resting _ _ hrecorded htail, .saved y hsaved, fun _ => .inr hended⟩
    | more y p hy hp =>
      exact ⟨.saving _ _ hrecorded hp, .saved y hy, fun hidle => absurd hidle hp.not_idle⟩
  | resting p s hrecorded hp =>
    cases p with
    | ret r => exact ⟨.resting _ _ hrecorded hp, .none, fun _ => .inl ⟨hp, rfl⟩⟩
    | fail e => exact ⟨.resting _ _ hrecorded hp, .none, fun _ => .inl ⟨hp, rfl⟩⟩
    | call o next =>
      cases o with
      | latestRevision rid' =>
        exact ⟨.resting _ _ hrecorded (idle_of_done (hp _)), .none, fun _ => .inl ⟨hp, rfl⟩⟩
      | _ => cases hp

/-! ### Interference -/

theorem Effect.interactions (h : C.Effect k s s') {id : String} (hne : id ≠ k.action.actionId) :
    s'.interactions id = s.interactions id := by
  cases h with
  | none | saved y hy => rfl
  | noted => rw [interactions_record, if_neg fun h => hne h.2]

theorem Effect.late (h : C.Effect k s s') (hs : RequestIs rid C.late s) :
    RequestIs rid C.late s' := by
  obtain ⟨x, hx, hlate⟩ := hs
  cases h with
  | none => exact ⟨x, hx, hlate⟩
  | noted => exact ⟨x, by rw [requests_record, hx], hlate⟩
  | saved y hy => exact ⟨y, requests_saved hy s, C.late_saved hlate hy⟩

theorem Effect.near (h : C.Effect k s s') (hs : C.Near k k' repo s) : C.Near k k' repo s' := by
  cases h with
  | none => exact hs
  | noted =>
    obtain ⟨x, hx, hfound⟩ := hs.request
    refine ⟨(messages_record k s).trans hs.messages, (revisions_record k s).trans hs.revisions, ?_,
      ⟨x, ?_, hfound⟩, ?_⟩
    · rw [requests_record]
      exact hs.others
    · rw [requests_record, hx]
    · intro id hk hk'
      rw [interactions_record, if_neg fun h => hk h.2, hs.interactions id hk hk']
  | saved y hy =>
    have hfound := C.saved_found hy
    refine ⟨hs.messages, hs.revisions, ?_, ⟨y, requests_saved hy s, hfound⟩, hs.interactions⟩
    intro rid' hne
    have hid := C.id_eq hfound
    rw [Repository.requests_saveRequest, if_neg (hid ▸ hne), hs.others rid' hne]

/-- **A click stays where it is** under what the other one does. -/
theorem track_stable (hne : k'.action.actionId ≠ k.action.actionId) (h : C.Track cfg k' q s)
    (heffect : C.Effect k s s') : C.Track cfg k' q s' := by
  have hid := heffect.interactions hne
  cases h with
  | unread s hfresh => exact .unread s' (hid.trans hfresh)
  | read s x hfresh hx =>
    exact .read s' x (hid.trans hfresh) (hx.imp_right fun h => ⟨heffect.late h.1, h.2⟩)
  | saving q s hrecorded hq => exact .saving q s' (hid.trans hrecorded) hq
  | resting q s hrecorded hq => exact .resting q s' (hid.trans hrecorded) hq

theorem Holds.swap {c : System RepoOp Repository Exn Request Request}
    (h : C.Holds cfg k k' repo c) : C.Holds cfg k' k repo c.swap :=
  ⟨⟨h.near.messages, h.near.revisions, h.near.others, h.near.request,
    fun id hk hk' => h.near.interactions id hk' hk⟩, h.right, h.left,
    fun hl hr => h.ended hr hl⟩

theorem holds_left (hkeeps : C.Keeps cfg k) (hne : k'.action.actionId ≠ k.action.actionId)
    {c : System RepoOp Repository Exn Request Request} (h : C.Holds cfg k k' repo c) :
    C.Holds cfg k k' repo (tick store c .left) := by
  obtain ⟨htrack, heffect, hends⟩ := track_advance hkeeps h.near.request h.left
  refine ⟨heffect.near h.near, htrack, track_stable hne h.right heffect, fun hl hr => ?_⟩
  rcases hends hl with ⟨hidle, hsame⟩ | hended
  · have hended := h.ended hidle hr
    rwa [← hsame] at hended
  · exact hended

/-- **One operation of either click** keeps both on the course. -/
theorem course_tick (hkeeps : C.Keeps cfg k) (hkeeps' : C.Keeps cfg k')
    (hne : k.action.actionId ≠ k'.action.actionId)
    (c : System RepoOp Repository Exn Request Request) (side : Side)
    (h : C.Holds cfg k k' repo c) : C.Holds cfg k k' repo (tick store c side) := by
  cases side with
  | left => exact holds_left hkeeps hne.symm h
  | right => exact (holds_left hkeeps' hne h.swap).swap

/-! ### Whole schedules -/

theorem holds_after (hkeeps : C.Keeps cfg k) (hkeeps' : C.Keeps cfg k')
    (hne : k.action.actionId ≠ k'.action.actionId) (hfound : RequestIs rid C.found repo)
    (hfresh : repo.interactions k.action.actionId = none)
    (hfresh' : repo.interactions k'.action.actionId = none) (schedule : List Side) :
    C.Holds cfg k k' repo (after cfg k k' repo schedule) := by
  have hnear : C.Near k k' repo repo := ⟨rfl, rfl, fun _ _ => rfl, hfound, fun _ _ _ => rfl⟩
  refine schedule_inv (course_tick hkeeps hkeeps' hne) ?_ schedule
  exact ⟨hnear, .unread repo hfresh, .unread repo hfresh',
    fun hidle => absurd hidle not_idle_handling⟩

theorem Track.calm (hfound : RequestIs rid C.found s) (h : C.Track cfg k p s) : Calm p s := by
  have hsave : ∀ (y : Request) (next : Unit → Prog RepoOp Exn Request), C.saved y →
      Calm (call (.saveRequest y) next) s := by
    intro y next hy rid' state hstate hterminal
    have hadvance : stateIn (s.saveRequest y) rid' =
        if rid' = y.id then some y.state else stateIn s rid' := stateIn_saveRequest rid'
    refine hadvance.trans ?_
    split_ifs with hid
    · obtain ⟨x, hx, hfoundx⟩ := hfound
      have hyid := C.id_eq (C.saved_found hy)
      rw [hid, hyid, stateIn, hx, Option.map_some, Option.some.injEq] at hstate
      rw [C.calm hfoundx hy (hstate ▸ hterminal), hstate]
    · exact hstate
  cases h with
  | unread s hfresh =>
    rw [handling_eq]
    exact calm_of_requests rfl
  | read s x hfresh hx => exact calm_of_requests (requests_record k s)
  | saving p s hrecorded hp =>
    cases hp with
    | last y tail hy htail => exact hsave y _ (C.ends_saved hy)
    | more y p hy hp => exact hsave y _ hy
  | resting p s hrecorded hp =>
    cases p with
    | ret r | fail e => exact calm_of_done trivial
    | call o next =>
      cases o with
      | latestRevision rid' => exact calm_of_requests rfl
      | _ => cases hp

theorem Track.recorded (h : C.Track cfg k p s) (hp : Done p) :
    s.interactions k.action.actionId = some (interactionOf k.action) := by
  cases h with
  | unread s hfresh => exact absurd (idle_of_done hp) not_idle_handling
  | read s x hfresh hx => exact absurd (idle_of_done hp) not_idle_recording
  | saving p s hrecorded hp' => exact absurd (idle_of_done hp) hp'.not_idle
  | resting p s hrecorded hp' => exact hrecorded

/-- What two finished systems on one course can differ in is the request. -/
theorem untimed_eq {c c' : System RepoOp Repository Exn Request Request}
    (h : C.Holds cfg k k' repo c) (hc : Finished c) (h' : C.Holds cfg k k' repo c')
    (hc' : Finished c')
    (hreq : (c.state.requests rid).map Request.untimed =
      (c'.state.requests rid).map Request.untimed) :
    c.state.untimed = c'.state.untimed := by
  have hrequests : ∀ rid', (c.state.requests rid').map Request.untimed =
      (c'.state.requests rid').map Request.untimed := by
    intro rid'
    by_cases hid : rid' = rid
    · rw [hid, hreq]
    · rw [h.near.others rid' hid, h'.near.others rid' hid]
  have hinteractions : ∀ id, c.state.interactions id = c'.state.interactions id := by
    intro id
    by_cases hk : id = k.action.actionId
    · rw [hk, h.left.recorded hc.left, h'.left.recorded hc'.left]
    · by_cases hk' : id = k'.action.actionId
      · rw [hk', h.right.recorded hc.right, h'.right.recorded hc'.right]
      · rw [h.near.interactions id hk hk', h'.near.interactions id hk hk']
  unfold Repository.untimed
  rw [h.near.messages, h'.near.messages, h.near.revisions, h'.near.revisions, funext hrequests,
    funext hinteractions]

theorem Holds.settled {c : System RepoOp Repository Exn Request Request}
    (h : C.Holds cfg k k' repo c) (hc : Finished c) : RequestIs rid C.ends c.state :=
  h.ended (idle_of_done hc.left) (idle_of_done hc.right)

theorem Holds.calm {c : System RepoOp Repository Exn Request Request}
    (h : C.Holds cfg k k' repo c) : Calm c.left c.state ∧ Calm c.right c.state :=
  ⟨h.left.calm h.near.request, h.right.calm h.near.request⟩

end Course

/-! ### A decision that only settles the request -/

section settling

variable {cfg : Config} {k k' : Click} {repo : Repository} {r x : Request} {d : OwnerDecision}

/-- Both clicks save the request in the state the decision leads to. -/
def settling (r : Request) (d : OwnerDecision) (hgate : r.state = gateOf d) : Course r.id where
  found x := x.untimed = r.untimed ∨ x.untimed = (r.moved (target d) 0).untimed
  saved y := y.untimed = (r.moved (target d) 0).untimed
  ends y := y.untimed = (r.moved (target d) 0).untimed
  late y := y.untimed = (r.moved (target d) 0).untimed
  id_eq := by
    rintro x (h | h)
    · exact congrArg (·.id) h
    · exact congrArg (·.id) h
  saved_found := .inr
  ends_saved := id
  late_ends := id
  late_saved _ hy := hy
  calm := by
    rintro x y (hx | hx) hy hterminal
    · have hstate : x.state = gateOf d := (congrArg (·.state) hx).trans hgate
      rw [hstate, not_terminal_gateOf] at hterminal
      cases hterminal
    · exact congrArg (·.state) (hy.trans hx.symm)

/-- The decision makes no revision of the request. -/
def Settles (d : OwnerDecision) (r : Request) : Prop :=
  (d = .approve ∨ d = .reject) ∨ startsPipeline d = true ∧ ¬ Actionable r.intent

theorem done_pipeline {env : External} {now : Instant} {feedback : Option String}
    {previous : Option Json} {p : Prog RepoOp Exn Request} (hi : ¬ Actionable x.intent)
    (hp : PipelineCalls cfg env x now feedback previous p) : Done p := by
  cases hp with
  | failed text tail hgen htail =>
    refine absurd hgen (Documents.Generation.Generator.generate_unasked fun intent hintent => ?_)
    by_contra hne
    have hx : x.intent = some intent := hintent
    exact hi (hx ▸ actionable_of_ne hne)
  | stopped exc tail hexc htail => exact htail
  | made p tail hp htail =>
    obtain ⟨hintent, hne⟩ := produce_ok hp
    exact absurd (hintent ▸ actionable_of_ne hne) hi

theorem idle_follow {p : Prog RepoOp Exn Request} (hd : Settles k.action.decision x)
    (hp : FollowCalls cfg k x p) : Idle p := by
  cases hp with
  | settled tail hdecision htail => exact idle_of_done htail
  | corrected tail hdecision htail =>
    rw [Settles, hdecision] at hd
    rcases hd with (hd | hd) | ⟨hd, -⟩ <;> cases hd
  | confirmed p hdecision hp =>
    rw [Settles, hdecision] at hd
    rcases hd with (hd | hd) | ⟨-, hi⟩
    · cases hd
    · cases hd
    · exact idle_of_done (done_pipeline hi hp)
  | revised next hdecision hnext =>
    rw [Settles, hdecision] at hd
    rcases hd with (hd | hd) | ⟨-, hi⟩
    · cases hd
    · cases hd
    · exact fun latest => done_pipeline hi (hnext latest)

theorem Settles.target_ne (hd : Settles d r) : target d ≠ gateOf d := by
  rcases hd with (rfl | rfl) | ⟨hd, -⟩
  · decide
  · decide
  · cases d with
    | confirm | revise => decide
    | _ => cases hd

theorem keeps_settling {hgate : r.state = gateOf d} (hreq : k.action.requestId = r.id)
    (hdecision : k.action.decision = d) (hd : Settles d r) : (settling r d hgate).Keeps cfg k := by
  refine ⟨hreq, fun x hx => ?_⟩
  subst hdecision
  rcases hx with hx | hx
  · have hstate : x.state = gateOf k.action.decision := (congrArg (·.state) hx).trans hgate
    have hintent : x.intent = r.intent := congrArg (·.intent) hx
    obtain ⟨p, hp, hdeciding⟩ := deciding_accepted cfg hstate
    rw [hdeciding]
    refine .inl (.last _ p (Request.untimed_moved hx _ _ _) (idle_follow ?_ hp))
    rwa [Settles, Request.intent_moved, hintent]
  · have hstate : x.state ≠ gateOf k.action.decision := by
      have htarget : x.state = target k.action.decision := congrArg (·.state) hx
      rw [htarget]
      exact hd.target_ne
    rw [deciding_refused hstate]
    exact .inr ⟨hx, trivial⟩

variable (cfg) in
/-- **One settling decision twice** takes no request out of a terminal state and leaves what it
leaves one after the other. -/
theorem settled_twice (hr : repo.requests r.id = some r) (hreq : k.action.requestId = r.id)
    (hreq' : k'.action.requestId = r.id) (hne : k.action.actionId ≠ k'.action.actionId)
    (hfresh : repo.interactions k.action.actionId = none)
    (hfresh' : repo.interactions k'.action.actionId = none)
    (hgate : r.state = gateOf k.action.decision) (hsame : k'.action.decision = k.action.decision)
    (hd : Settles k.action.decision r) (schedule : List Side) :
    (Calm (after cfg k k' repo schedule).left (after cfg k k' repo schedule).state ∧
      Calm (after cfg k k' repo schedule).right (after cfg k k' repo schedule).state) ∧
    (Finished (after cfg k k' repo schedule) →
      (after cfg k k' repo schedule).state.untimed = (oneByOne cfg k k' repo).untimed) := by
  have hholds : ∀ schedule, (settling r k.action.decision hgate).Holds cfg k k' repo
      (after cfg k k' repo schedule) :=
    Course.holds_after (keeps_settling hreq rfl hd) (keeps_settling hreq' hsame hd) hne
      ⟨r, hr, .inl rfl⟩ hfresh hfresh'
  refine ⟨(hholds schedule).calm, fun hfinished => ?_⟩
  obtain ⟨schedule', hfinished', hstate⟩ := sequential (h := store) (handling cfg k)
    (handling cfg k') repo
  obtain ⟨x, hx, hends⟩ := (hholds schedule).settled hfinished
  obtain ⟨y, hy, hends'⟩ := (hholds schedule').settled hfinished'
  have heq : x.untimed = y.untimed := hends.trans hends'.symm
  have hone : oneByOne cfg k k' repo = (after cfg k k' repo schedule').state := hstate.symm
  rw [hone]
  refine Course.untimed_eq (hholds schedule) hfinished (hholds schedule') hfinished' ?_
  rw [hx, hy, Option.map_some, Option.map_some, heq]

end settling

/-! ### A correction twice -/

section correcting

variable {cfg : Config} {k k' : Click} {repo s : Repository} {r x : Request} {i i' : Option Intent}

/-- Both clicks save the request where it is, each with the intent it names in the end. -/
def correcting (r : Request) (i i' : Option Intent) (hgate : r.state = .awaitingClassification) :
    Course r.id where
  found x := withIntent x.untimed none = withIntent r.untimed none
  saved x := withIntent x.untimed none = withIntent r.untimed none
  ends y := y.untimed = withIntent r.untimed i ∨ y.untimed = withIntent r.untimed i'
  late _ := False
  id_eq h := congrArg (·.id) h
  saved_found := id
  ends_saved := by
    rintro x (h | h) <;> rw [h] <;> rfl
  late_ends := False.elim
  late_saved h _ := h
  calm := by
    intro x y hx _ hterminal
    have hstate : x.state = .awaitingClassification := (congrArg (·.state) hx).trans hgate
    rw [hstate] at hterminal
    cases hterminal

theorem untimed_withIntent (now : Instant)
    (hx : withIntent x.untimed none = withIntent r.untimed none)
    (hgate : x.state = .awaitingClassification) (intent : Option Intent) :
    (withIntent (x.moved .awaitingClassification now) intent).untimed =
      withIntent r.untimed intent := by
  have hmoved : (x.moved .awaitingClassification now).untimed = x.untimed := by
    rw [← hgate]
    rfl
  have hintent := congrArg (fun r => withIntent r intent) hx
  calc (withIntent (x.moved .awaitingClassification now) intent).untimed
      = withIntent (x.moved .awaitingClassification now).untimed intent := rfl
    _ = withIntent x.untimed intent := by rw [hmoved]
    _ = withIntent r.untimed intent := hintent

theorem keeps_correcting {hgate : r.state = .awaitingClassification}
    (hreq : k.action.requestId = r.id) (hdecision : k.action.decision = .correct)
    (hi : k.action.intent = i ∨ k.action.intent = i') :
    (correcting r i i' hgate).Keeps cfg k := by
  refine ⟨hreq, fun x hx => .inl ?_⟩
  have hstate : x.state = .awaitingClassification := (congrArg (·.state) hx).trans hgate
  have hgateOf : x.state = gateOf k.action.decision := by
    rw [hdecision]
    exact hstate
  obtain ⟨p, hp, hdeciding⟩ := deciding_accepted cfg hgateOf
  have htarget : target k.action.decision = .awaitingClassification := by
    rw [hdecision]
    rfl
  rw [hdeciding, htarget]
  rw [htarget] at hp
  have hsaved : withIntent (x.moved .awaitingClassification k.now).untimed none =
      withIntent r.untimed none := untimed_withIntent k.now hx hstate none
  obtain ⟨tail, htail, rfl⟩ := hp.of_correct hdecision
  have hends := untimed_withIntent k.now hx hstate k.action.intent
  refine .more _ _ hsaved (.last _ tail ?_ (idle_of_done htail))
  rcases hi with hi | hi <;> rw [hi] at hends
  · rw [hi]
    exact .inl hends
  · rw [hi]
    exact .inr hends

variable (cfg) in
theorem exec_deciding_correct (s : Repository) (hdecision : k.action.decision = .correct)
    (hgate : x.state = .awaitingClassification) :
    (exec store (deciding cfg k x) s).state =
      (s.saveRequest (x.moved .awaitingClassification k.now)).saveRequest
        (withIntent (x.moved .awaitingClassification k.now) k.action.intent) := by
  have hgateOf : x.state = gateOf k.action.decision := by
    rw [hdecision]
    exact hgate
  have htarget : target k.action.decision = .awaitingClassification := by
    rw [hdecision]
    rfl
  obtain ⟨p, hp, hdeciding⟩ := deciding_accepted cfg hgateOf
  rw [htarget] at hp hdeciding
  rw [hdeciding]
  obtain ⟨tail, htail, rfl⟩ := hp.of_correct hdecision
  rw [exec_call, exec_call, Outcome.state_after, Outcome.state_after, exec_of_done htail]
  rfl

variable (cfg) in
theorem exec_correct (hx : s.requests k.action.requestId = some x)
    (hfresh : s.interactions k.action.actionId = none) (hdecision : k.action.decision = .correct)
    (hgate : x.state = .awaitingClassification) :
    (exec store (handling cfg k) s).state =
      ((record k s).saveRequest (x.moved .awaitingClassification k.now)).saveRequest
        (withIntent (x.moved .awaitingClassification k.now) k.action.intent) := by
  rw [← exec_advance, advance_handling cfg hx, ← exec_advance, Course.advance_recording cfg hfresh,
    exec_deciding_correct cfg _ hdecision hgate]

variable (cfg) in
/-- After two corrections, the later one stands. -/
theorem later_correction (hr : repo.requests r.id = some r) (hreq : k.action.requestId = r.id)
    (hreq' : k'.action.requestId = r.id) (hne : k.action.actionId ≠ k'.action.actionId)
    (hfresh : repo.interactions k.action.actionId = none)
    (hfresh' : repo.interactions k'.action.actionId = none)
    (hgate : r.state = .awaitingClassification) (hdecision : k.action.decision = .correct)
    (hdecision' : k'.action.decision = .correct) :
    ((oneByOne cfg k k' repo).requests r.id).map Request.untimed =
      some (withIntent r.untimed k'.action.intent) := by
  have hfirst := exec_correct cfg (hreq ▸ hr) hfresh hdecision hgate
  have hx₁ := untimed_withIntent (r := r) k.now rfl hgate k.action.intent
  generalize hx : withIntent (r.moved .awaitingClassification k.now) k.action.intent = x
    at hfirst hx₁
  have hid : x.id = r.id := by rw [← hx]; rfl
  have hstate : x.state = .awaitingClassification := by rw [← hx]; rfl
  have hrequest : (exec store (handling cfg k) repo).state.requests r.id = some x := by
    rw [hfirst, Repository.requests_saveRequest, if_pos hid.symm]
  have hfresh₁ :
      (exec store (handling cfg k) repo).state.interactions k'.action.actionId = none := by
    rw [hfirst, Repository.interactions_saveRequest, Repository.interactions_saveRequest,
      interactions_record, if_neg fun h => hne h.2.symm, hfresh']
  have hsecond := exec_correct cfg (hreq' ▸ hrequest) hfresh₁ hdecision' hstate
  have hfound : withIntent x.untimed none = withIntent r.untimed none := by rw [hx₁]; rfl
  have hid' : r.id = (withIntent (x.moved .awaitingClassification k'.now) k'.action.intent).id :=
    hid.symm
  rw [oneByOne, hsecond, Repository.requests_saveRequest, if_pos hid', Option.map_some,
    untimed_withIntent _ hfound hstate]

/-- **Two corrections** take no request out of a terminal state and leave what they leave one after
the other. -/
theorem corrected_twice (hr : repo.requests r.id = some r) (hreq : k.action.requestId = r.id)
    (hreq' : k'.action.requestId = r.id) (hne : k.action.actionId ≠ k'.action.actionId)
    (hfresh : repo.interactions k.action.actionId = none)
    (hfresh' : repo.interactions k'.action.actionId = none)
    (hgate : r.state = .awaitingClassification) (hdecision : k.action.decision = .correct)
    (hdecision' : k'.action.decision = .correct) (schedule : List Side) :
    (Calm (after cfg k k' repo schedule).left (after cfg k k' repo schedule).state ∧
      Calm (after cfg k k' repo schedule).right (after cfg k k' repo schedule).state) ∧
    (Finished (after cfg k k' repo schedule) →
      (after cfg k k' repo schedule).state.untimed = (oneByOne cfg k k' repo).untimed ∨
        (after cfg k k' repo schedule).state.untimed = (oneByOne cfg k' k repo).untimed) := by
  have hkeeps : (correcting r k.action.intent k'.action.intent hgate).Keeps cfg k :=
    keeps_correcting hreq hdecision (.inl rfl)
  have hkeeps' : (correcting r k.action.intent k'.action.intent hgate).Keeps cfg k' :=
    keeps_correcting hreq' hdecision' (.inr rfl)
  have hholds := Course.holds_after hkeeps hkeeps' hne ⟨r, hr, rfl⟩ hfresh hfresh'
  have hholds' := Course.holds_after hkeeps' hkeeps hne.symm ⟨r, hr, rfl⟩ hfresh' hfresh
  refine ⟨(hholds schedule).calm, fun hfinished => ?_⟩
  obtain ⟨x, hx, hends⟩ := (hholds schedule).settled hfinished
  rcases hends with hends | hends
  · right
    obtain ⟨schedule', hfinished', hstate⟩ := sequential (h := store) (handling cfg k')
      (handling cfg k) repo
    have hone : oneByOne cfg k' k repo = (after cfg k' k repo schedule').state := hstate.symm
    have hlast := later_correction cfg hr hreq' hreq hne.symm hfresh' hfresh hgate
      hdecision' hdecision
    rw [hone] at hlast ⊢
    have hswap := (hholds' schedule').swap
    refine (Course.untimed_eq (hholds schedule) hfinished hswap
      ⟨hfinished'.right, hfinished'.left⟩ ?_).trans rfl
    rw [hx, Option.map_some, hends]
    exact hlast.symm
  · left
    obtain ⟨schedule', hfinished', hstate⟩ := sequential (h := store) (handling cfg k)
      (handling cfg k') repo
    have hone : oneByOne cfg k k' repo = (after cfg k k' repo schedule').state := hstate.symm
    have hlast := later_correction cfg hr hreq hreq' hne hfresh hfresh' hgate
      hdecision hdecision'
    rw [hone] at hlast ⊢
    refine Course.untimed_eq (hholds schedule) hfinished (hholds schedule') hfinished' ?_
    rw [hx, Option.map_some, hends]
    exact hlast.symm

end correcting

end WappPlanner.Orchestrator
