import WappPlanner.Aggregation.Threads

/-! # Calls that do not get in each other's way

What goes wrong when the threads meet does not when the worker waits for `add` to return.

* `uninterrupted`: while `add` is left alone, no call raises, nothing is late, and between the calls
  every message that was written is in its client's open bucket or in a batch that was returned.
* `serial_refines`: calls of which one follows the other do what the aggregator does. -/

namespace WappPlanner.Aggregation.Threads

open WappPlanner.Domain.Models WappPlanner.Lib WappPlanner.Lib.Runs WappPlanner.Py.Text

/-! ### If `add` is left alone -/

/-- The client whose bucket `add` has taken out of the dictionary, or not yet put there. -/
def Receiver.between : Receiver → List String
  | .dumping call _ | .creating call _ | .putting call _ _ => [call.clientId]
  | _ => []

/-- The clients whose buckets are still to be closed. -/
def Worker.due : Worker → List String
  | .popping due _ | .dumping _ due _ => due
  | _ => []

/-- The worker moves only between calls of `add`, and lists clients that have a bucket, each once. -/
def LeftAlone (t : State) : Move → Prop
  | .add _ | .receiver => True
  | .flush listing => t.receiver = .idle ∧ ∃ due, listing = some due ∧ due.Nodup ∧
    ∀ c ∈ due, t.memory.openBuckets.get c ≠ none
  | .worker => t.receiver = .idle

/-- What `add` looked up is still there. -/
def Receiver.Finds (memory : Memory) : Receiver → Prop
  | .looked call ref | .appending call ref _ => memory.openBuckets.get call.clientId = some ref
  | .popping call => memory.openBuckets.get call.clientId ≠ none
  | _ => True

/-- Nothing went wrong, and nothing can. -/
structure Smooth (t : State) : Prop where
  refused : t.refused = []
  dropped : t.dropped = []
  alive : t.worker ≠ .dead
  inTime : ∀ e ∈ t.journal, e.late = false
  finds : t.receiver.Finds t.memory
  due : ∀ c ∈ t.worker.due, t.memory.openBuckets.get c ≠ none ∨ c ∈ t.receiver.between
  nodup : t.worker.due.Nodup

section smooth

variable {cfg : AggregatorConfig} {t : State} {c : String} {ref : ℕ} {call : Adding}

theorem smooth_initial : Smooth State.initial := by
  refine ⟨rfl, rfl, ?_, fun e he => ?_, trivial, fun c hc => ?_, List.nodup_nil⟩
  · simp [State.initial]
  · cases he
  · cases hc

namespace Smooth

theorem present (h : Smooth t) (hidle : t.receiver = .idle) :
    ∀ c ∈ t.worker.due, t.memory.openBuckets.get c ≠ none := by
  intro c hc
  have hpresent := h.due c hc
  rw [hidle] at hpresent
  simpa [Receiver.between] using hpresent

theorem add (h : Smooth t) (hidle : t.receiver = .idle) (call : Adding) : Smooth (t.add call) := by
  have hdue := h.present hidle
  unfold State.add
  cases hget : t.memory.openBuckets.get call.clientId with
  | none => exact ⟨h.refused, h.dropped, h.alive, h.inTime, trivial,
      fun c hc => .inl (hdue c hc), h.nodup⟩
  | some ref => exact ⟨h.refused, h.dropped, h.alive, h.inTime, hget,
      fun c hc => .inl (hdue c hc), h.nodup⟩

theorem receive (h : Smooth t) (hsound : Sound cfg t) : Smooth (t.receive cfg) := by
  have hfinds := h.finds
  have hdue := h.due
  unfold State.receive
  cases hat : t.receiver with
  | idle => exact h
  | looked call ref =>
    rw [hat] at hfinds hdue
    dsimp only
    cases t.memory.objects[ref]? with
    | none => exact h
    | some bucket =>
      have hopen : t.memory.openBuckets.get call.clientId = some ref := hfinds
      dsimp only
      split_ifs
      · exact ⟨h.refused, h.dropped, h.alive, h.inTime, hopen, hdue, h.nodup⟩
      · have hpresent : t.memory.openBuckets.get call.clientId ≠ none := by simp [hopen]
        exact ⟨h.refused, h.dropped, h.alive, h.inTime, hpresent, hdue, h.nodup⟩
  | popping call =>
    rw [hat] at hfinds hdue
    dsimp only
    cases hget : t.memory.openBuckets.get call.clientId with
    | none => exact absurd hget hfinds
    | some ref =>
      refine ⟨h.refused, h.dropped, h.alive, h.inTime, trivial, fun c hc => ?_, h.nodup⟩
      by_cases hcall : c = call.clientId
      · exact .inr (by simp [Receiver.between, hcall])
      · left
        simp only [Memory.pop, Dict.get_erase, if_neg hcall]
        simpa [Receiver.between] using hdue c hc
  | dumping call ref =>
    rw [hat] at hdue
    dsimp only
    cases t.memory.objects[ref]? with
    | none => exact h
    | some bucket => exact ⟨h.refused, h.dropped, h.alive, h.inTime, trivial, hdue, h.nodup⟩
  | creating call displaced =>
    rw [hat] at hdue
    exact ⟨h.refused, h.dropped, h.alive, h.inTime, trivial, hdue, h.nodup⟩
  | putting call ref displaced =>
    rw [hat] at hdue
    have hput : (t.memory.put call.clientId ref).openBuckets.get call.clientId = some ref := by
      simp [Memory.put, Dict.get_set]
    refine ⟨h.refused, h.dropped, h.alive, h.inTime, hput, fun c hc => .inl ?_, h.nodup⟩
    simp only [Memory.put, Dict.get_set]
    split_ifs with hcall
    · simp
    · simpa [Receiver.between, hcall] using hdue c hc
  | appending call ref displaced =>
    rw [hat] at hfinds hdue
    have hfresh : ref ∉ t.copied.map Prod.fst := hsound.fresh_open hfinds
    refine ⟨h.refused, h.dropped, h.alive, fun e he => ?_, trivial, hdue, h.nodup⟩
    rcases List.mem_append.mp he with he | he
    · exact h.inTime e he
    · rw [List.mem_singleton.mp he]
      exact decide_eq_false hfresh
  | touching call ref displaced =>
    rw [hat] at hdue
    exact ⟨h.refused, h.dropped, h.alive, h.inTime, trivial, hdue, h.nodup⟩

theorem work (h : Smooth t) (hidle : t.receiver = .idle) : Smooth t.work := by
  have hdue := h.present hidle
  have hfinds : ∀ memory : Memory, t.receiver.Finds memory := by
    intro memory
    rw [hidle]
    trivial
  have hnodup := h.nodup
  unfold State.work
  cases hat : t.worker with
  | idle | dead => exact h
  | popping due closed =>
    rw [hat] at hdue hnodup
    cases due with
    | nil =>
      refine ⟨h.refused, h.dropped, by simp, h.inTime, hfinds _, fun c hc => ?_, List.nodup_nil⟩
      cases hc
    | cons c due =>
      obtain ⟨hnew, hrest⟩ := List.nodup_cons.mp hnodup
      cases hget : t.memory.openBuckets.get c with
      | none => exact absurd hget (hdue c List.mem_cons_self)
      | some ref =>
        simp only [hget]
        refine ⟨h.refused, h.dropped, by simp, h.inTime, hfinds _, fun c' hc' => .inl ?_, hrest⟩
        have hne : c' ≠ c := by
          rintro rfl
          exact hnew hc'
        simp only [Memory.pop, Dict.get_erase, if_neg hne]
        exact hdue c' (List.mem_cons_of_mem _ hc')
  | dumping ref due closed =>
    rw [hat] at hdue hnodup
    dsimp only
    cases t.memory.objects[ref]? with
    | none => exact h
    | some bucket =>
      exact ⟨h.refused, h.dropped, by simp, h.inTime, hfinds _, fun c hc => .inl (hdue c hc),
        hnodup⟩

theorem step (h : Smooth t) (hsound : Sound cfg t) {move : Move} (hmove : LeftAlone t move) :
    Smooth (step cfg t move) := by
  cases move with
  | add call =>
    unfold Threads.step
    dsimp only
    split
    · rename_i hidle
      exact h.add hidle call
    · exact h
  | receiver => exact h.receive hsound
  | flush listing =>
    obtain ⟨hidle, due, rfl, hnodup, hpresent⟩ := hmove
    unfold Threads.step
    dsimp only
    split
    · refine ⟨h.refused, h.dropped, by simp [State.flush], h.inTime, ?_,
        fun c hc => .inl (hpresent c hc), hnodup⟩
      exact h.finds
    · exact h
  | worker => exact h.work hmove

end Smooth

/-- **While `add` is left alone, nothing goes wrong.** -/
theorem smooth_run {moves : List Move} (h : Along (step cfg) LeftAlone State.initial moves) :
    Smooth (run (step cfg) State.initial moves) := by
  have hinv : Sound cfg (run (step cfg) State.initial moves) ∧
      Smooth (run (step cfg) State.initial moves) :=
    run_inv (I := fun t => Sound cfg t ∧ Smooth t)
      (fun t move hI hmove => ⟨hI.1.step move, hI.2.step hI.1 hmove⟩)
      ⟨sound_initial, smooth_initial⟩ h
  exact hinv.2

/-- **Nothing is lost**: no call raised, the worker lives, and each message that was written is in its
client's open bucket or in a batch, which between the calls was returned. -/
structure Complete (cfg : AggregatorConfig) (t : State) : Prop where
  refused : t.refused = []
  dropped : t.dropped = []
  alive : t.worker ≠ .dead
  bucket : ∀ c ref, t.memory.openBuckets.get c = some ref →
    t.memory.messages ref = numbered (t.written ref)
  batch : ∀ b ∈ t.batches, ∃ ref, b.requestId = cfg.idFactory ref ∧
    b.messages = numbered (t.written ref)
  written : t.receiver = .idle → t.worker = .idle → ∀ e ∈ t.journal,
    t.memory.openBuckets.get e.call.clientId = some e.ref ∨
      ∃ b ∈ t.handed, b.requestId = cfg.idFactory e.ref

theorem Smooth.inTime_eq (h : Smooth t) (ref : ℕ) : t.inTime ref = t.written ref := by
  unfold State.inTime State.written
  refine congrArg (List.map _) (List.filter_congr fun e he => ?_)
  rw [h.inTime e he]
  simp

theorem Smooth.complete (h : Smooth t) (hall : Accounted cfg t) (hsound : Sound cfg t) :
    Complete cfg t := by
  refine ⟨h.refused, h.dropped, h.alive, fun _ ref _ => hsound.messages ref, fun b hb => ?_,
    fun hreceiver hworker e he => ?_⟩
  · obtain ⟨ref, hname, hmessages, -⟩ := hall.batch b hb
    rw [h.inTime_eq] at hmessages
    exact ⟨ref, hname, hmessages⟩
  · have hbatches : t.batches = t.handed := by
      simp [State.batches, h.dropped, hreceiver, hworker, Worker.closed, Receiver.displaced]
    have hhands : t.receiver.refs ++ t.worker.refs = [] := by
      simp [hreceiver, hworker, Receiver.refs, Worker.refs]
    have hwhere := hall.written e he
    rw [hbatches, hhands] at hwhere
    rcases hwhere with hopen | hhand | hbatch
    · exact .inl hopen
    · cases hhand
    · exact .inr hbatch

/-- **While `add` is left alone, nothing is lost**, and nothing is handed over twice or mixed up. -/
theorem uninterrupted (hids : Function.Injective cfg.idFactory) {moves : List Move}
    (h : Along (step cfg) LeftAlone State.initial moves) :
    Complete cfg (run (step cfg) State.initial moves) ∧
      Accounted cfg (run (step cfg) State.initial moves) := by
  have hsound : Sound cfg (run (step cfg) State.initial moves) := sound_run moves
  have hall := hsound.accounted hids
  exact ⟨(smooth_run h).complete hall hsound, hall⟩

end smooth

namespace Race

open Sample

/-- The worker lists `ana`'s bucket, `add` takes a message of `bea`, and the worker goes on. -/
def waited : List Move :=
  .add (adding "m1" 0) :: List.replicate 4 .receiver ++
    (.flush (some ["ana"]) :: .worker :: .add ⟨"bea", message "m2" 1, 1⟩ ::
      List.replicate 4 .receiver ++ List.replicate 2 .worker)

theorem leftAlone_waited : Along (step windows) LeftAlone State.initial waited := by
  have hlisted : LeftAlone (run (step windows) State.initial (waited.take 5))
      (.flush (some ["ana"])) :=
    ⟨rfl, ["ana"], rfl, by decide, by decide +kernel⟩
  exact ⟨trivial, trivial, trivial, trivial, trivial, hlisted, rfl, trivial, trivial, trivial, trivial,
    trivial, rfl, rfl, trivial⟩

end Race

open Race Sample in
/-- The bucket of `ana` is returned, that of `bea` is open. -/
theorem uninterrupted_waited :
    ((run (step windows) State.initial waited).handed.map (·.clientId) = ["ana"] ∧
      (run (step windows) State.initial waited).memory.openBuckets.keys = ["bea"]) ∧
      (Complete windows (run (step windows) State.initial waited) ∧
        Accounted windows (run (step windows) State.initial waited)) :=
  ⟨⟨by decide +kernel, by decide +kernel⟩, uninterrupted injective_ids leftAlone_waited⟩

/-! ### Calls of which one follows the other -/

/-- A call of `add` or of `flush_due`. -/
inductive Job
  | add (call : Adding)
  | flush (now : Instant)

/-- What the aggregator does, with the batches returned so far. -/
def Job.serve (cfg : AggregatorConfig) (s : List AggregatedRequest × Aggregator) :
    Job → List AggregatedRequest × Aggregator
  | .add call =>
    (s.1 ++ (s.2.add cfg call.clientId call.message call.now).1.toList,
      (s.2.add cfg call.clientId call.message call.now).2)
  | .flush now => (s.1 ++ (s.2.flushDue cfg now).1, (s.2.flushDue cfg now).2)

/-- The clients whose buckets are no longer active. -/
def Memory.due (cfg : AggregatorConfig) (memory : Memory) (now : Instant) : List String :=
  (memory.openBuckets.entries.filter fun e =>
    (memory.objects[e.2]?).any fun bucket => !cfg.active bucket now).map Prod.fst

/-- A call with all its operations, from its beginning to its end. -/
def Job.moves (cfg : AggregatorConfig) (t : State) : Job → List Move
  | .add call => .add call :: List.replicate 7 .receiver
  | .flush now =>
    .flush (some (t.memory.due cfg now)) ::
      List.replicate (2 * (t.memory.due cfg now).length + 1) .worker

/-- The calls one after the other. -/
def schedule (cfg : AggregatorConfig) : State → List Job → List Move
  | _, [] => []
  | t, job :: jobs => job.moves cfg t ++ schedule cfg (run (step cfg) t (job.moves cfg t)) jobs

/-- The object that a reference refers to. -/
def Memory.Holds (memory : Memory) (ref : ℕ) (bucket : OpenBucket) : Prop :=
  memory.objects[ref]? = some bucket

/-- The dictionary holds the aggregator's buckets, and what was returned is what it returned; no call of
`add` is open, and the worker is at `worker`. -/
structure Views (worker : Worker) (t : State) (s : List AggregatedRequest × Aggregator) : Prop where
  receiver : t.receiver = .idle
  worker : t.worker = worker
  handed : t.handed = s.1
  dropped : t.dropped = []
  refused : t.refused = []
  issued : t.memory.objects.length = s.2.issued
  buckets : Dict.Matches t.memory.Holds t.memory.openBuckets s.2.openBuckets

section serial

variable {cfg : AggregatorConfig} {t : State} {memory : Memory} {agg : Aggregator} {c : String}
  {ref : ℕ} {bucket : OpenBucket} {call : Adding} {now : Instant} {worker : Worker}
  {s : List AggregatedRequest × Aggregator}

theorem run_receiver (n : ℕ) :
    run (step cfg) t (List.replicate n .receiver) = (State.receive cfg)^[n] t := by
  induction n generalizing t with
  | zero => rfl
  | succ n ih =>
    rw [List.replicate_succ, run_cons, Function.iterate_succ_apply]
    exact ih

theorem run_worker (n : ℕ) : run (step cfg) t (List.replicate n .worker) = State.work^[n] t := by
  induction n generalizing t with
  | zero => rfl
  | succ n ih =>
    rw [List.replicate_succ, run_cons, Function.iterate_succ_apply]
    exact ih

theorem iterate_receive_idle (h : t.receiver = .idle) (n : ℕ) : (State.receive cfg)^[n] t = t := by
  refine Function.iterate_fixed ?_ n
  unfold State.receive
  rw [h]

theorem objects_written (memory : Memory) (ref : ℕ) (call : Adding) :
    ((memory.append ref call.message).touch ref call.now).objects =
      memory.objects.modify ref fun bucket => bucket.append call.message call.now := by
  unfold Memory.append Memory.touch
  rw [List.modify_modify_eq]
  rfl

/-! #### Writing to a bucket -/

variable (call) in
theorem matches_write (h : Dict.Matches memory.Holds memory.openBuckets agg.openBuckets)
    (hkeyed : ∀ c ref, memory.openBuckets.get c = some ref → memory.owner ref = some c)
    (hget : memory.openBuckets.get call.clientId = some ref) (hbucket : memory.Holds ref bucket) :
    Dict.Matches ((memory.append ref call.message).touch ref call.now).Holds
      ((memory.append ref call.message).touch ref call.now).openBuckets
      (agg.openBuckets.set call.clientId (bucket.append call.message call.now)) := by
  refine h.change hget ?_ ?_
  · intro e he hne bucket' hbucket'
    have hother : e.2 ≠ ref := by
      intro hsame
      have howner := hkeyed e.1 e.2 (Dict.get_eq_some.mpr he)
      rw [hsame, hkeyed _ _ hget] at howner
      exact hne (Option.some.inj howner).symm
    unfold Memory.Holds at hbucket' ⊢
    rw [objects_written, List.getElem?_modify_ne _ _ (Ne.symm hother)]
    exact hbucket'
  · unfold Memory.Holds at hbucket ⊢
    rw [objects_written, List.getElem?_modify_eq, hbucket]
    rfl

variable (cfg) in
theorem matches_start (h : Dict.Matches memory.Holds memory.openBuckets agg.openBuckets)
    (hget : memory.openBuckets.get call.clientId = none)
    (hissued : memory.objects.length = agg.issued) :
    Dict.Matches
      ((((memory.create cfg call).put call.clientId agg.issued).append agg.issued
        call.message).touch agg.issued call.now).Holds
      ((((memory.create cfg call).put call.clientId agg.issued).append agg.issued
        call.message).touch agg.issued call.now).openBuckets
      (agg.startBucket cfg call.clientId call.message call.now).openBuckets := by
  have hnew : agg.openBuckets.get call.clientId = none := by
    rcases h.get call.clientId with ⟨-, hnone⟩ | ⟨ref, -, hsome, -⟩
    · exact hnone
    · rw [hget] at hsome
      cases hsome
  refine Dict.Matches.set (h.imp ?_) hget hnew ?_
  · intro ref bucket hbucket
    have hlt : ref < agg.issued := by
      rw [← hissued]
      exact (List.getElem?_eq_some_iff.mp hbucket).1
    unfold Memory.Holds
    rw [objects_written, List.getElem?_modify_ne _ _ (by omega)]
    exact (List.getElem?_append_left (by omega)).trans hbucket
  · unfold Memory.Holds
    rw [objects_written, List.getElem?_modify_eq]
    simp [Memory.put, Memory.create, ← hissued]

variable (cfg call) in
theorem receive_creating (displaced : Option AggregatedRequest) (n : ℕ) :
    (State.receive cfg)^[n + 4] { t with receiver := .creating call displaced } =
      { t with
        memory := (((t.memory.create cfg call).put call.clientId t.memory.objects.length).append
          t.memory.objects.length call.message).touch t.memory.objects.length call.now
        receiver := .idle
        handed := t.handed ++ displaced.toList
        journal := t.journal ++ [⟨t.memory.objects.length, call,
          decide (t.memory.objects.length ∈ t.copied.map Prod.fst)⟩] } := by
  rw [Function.iterate_add_apply]
  exact iterate_receive_idle rfl n

theorem receive_active (hbucket : t.memory.Holds ref bucket)
    (hactive : cfg.active bucket call.now = true) :
    State.receive cfg { t with receiver := .looked call ref } =
      { t with receiver := .appending call ref none } := by
  unfold Memory.Holds at hbucket
  simp only [State.receive, hbucket, hactive, if_pos]

theorem receive_closing (hget : t.memory.openBuckets.get call.clientId = some ref)
    (hbucket : t.memory.Holds ref bucket) (hactive : cfg.active bucket call.now = false) :
    (State.receive cfg)^[3] { t with receiver := .looked call ref } =
      { t with
        memory := t.memory.pop call.clientId
        receiver := .creating call (some bucket.closed)
        copied := t.copied ++ [(ref, bucket.closed)] } := by
  have hpopped : (t.memory.pop call.clientId).objects[ref]? = some bucket := hbucket
  unfold Memory.Holds at hbucket
  simp only [Function.iterate_succ_apply, Function.iterate_zero_apply, State.receive, hbucket,
    hactive, Bool.false_eq_true, if_false, hget, hpopped]

theorem receive_appending (displaced : Option AggregatedRequest) (n : ℕ) :
    (State.receive cfg)^[n + 2] { t with receiver := .appending call ref displaced } =
      { t with
        memory := (t.memory.append ref call.message).touch ref call.now
        receiver := .idle
        handed := t.handed ++ displaced.toList
        journal := t.journal ++ [⟨ref, call, decide (ref ∈ t.copied.map Prod.fst)⟩] } := by
  rw [Function.iterate_add_apply]
  exact iterate_receive_idle rfl n

namespace Views

/-- **A call of `add`** does to the memory what it does to the aggregator. -/
theorem add (h : Views worker t s) (hsound : Sound cfg t) (call : Adding) :
    Views worker (run (step cfg) t (Job.moves cfg t (.add call))) (Job.serve cfg s (.add call)) := by
  have hstep : step cfg t (.add call) = t.add call := by
    unfold step
    dsimp only
    rw [h.receiver]
  unfold Job.moves
  rw [run_cons, run_receiver, hstep]
  unfold State.add Job.serve Aggregator.add
  rcases h.buckets.get call.clientId with ⟨hget, hget'⟩ | ⟨ref, bucket, hget, hget', hbucket⟩
  · have hmatch := matches_start cfg h.buckets hget h.issued
    simp only [hget, hget']
    rw [receive_creating cfg call none 3, h.issued]
    refine ⟨rfl, h.worker, ?_, h.dropped, h.refused, ?_, hmatch⟩
    · simp [h.handed]
    · simp [Memory.touch, Memory.append, Memory.put, Memory.create, Aggregator.startBucket, h.issued]
  · simp only [hget, hget']
    cases hactive : cfg.active bucket call.now with
    | true =>
      have hmatch := matches_write call h.buckets hsound.keyed hget hbucket
      rw [if_pos rfl, Function.iterate_succ_apply, receive_active hbucket hactive,
        receive_appending none 4]
      refine ⟨rfl, h.worker, ?_, h.dropped, h.refused, ?_, hmatch⟩
      · simp [h.handed]
      · simp [Memory.touch, Memory.append, h.issued]
    | false =>
      have hrest : Dict.Matches (t.memory.pop call.clientId).Holds
          (t.memory.pop call.clientId).openBuckets
          (s.2.dropBucket call.clientId).openBuckets := h.buckets.erase call.clientId
      have hmatch := matches_start cfg hrest Memory.get_pop h.issued
      have hcreating := receive_creating cfg call
        (t := { t with
          memory := t.memory.pop call.clientId
          copied := t.copied ++ [(ref, bucket.closed)] }) (some bucket.closed) 0
      rw [if_neg (by simp), Function.iterate_add_apply _ 4 3, receive_closing hget hbucket hactive,
        hcreating]
      have hlength : (t.memory.pop call.clientId).objects.length = s.2.issued := h.issued
      rw [hlength]
      refine ⟨rfl, h.worker, ?_, h.dropped, h.refused, ?_, hmatch⟩
      · simp [h.handed]
      · simp [Memory.touch, Memory.append, Memory.put, Memory.create, Memory.pop,
          Aggregator.startBucket, Aggregator.dropBucket, h.issued]

theorem close {due : List String} {closed : List AggregatedRequest}
    (h : Views (.popping (c :: due) closed) t s) (hget : s.2.openBuckets.get c = some bucket) :
    Views (.popping due (closed ++ [bucket.closed])) t.work.work (s.1, s.2.dropBucket c) := by
  rcases h.buckets.get c with ⟨-, hnone⟩ | ⟨ref, bucket', href, hbucket', hholds⟩
  · rw [hget] at hnone
    cases hnone
  · obtain rfl : bucket = bucket' := Option.some.inj (hget.symm.trans hbucket')
    have hpopped : (t.memory.pop c).objects[ref]? = some bucket := hholds
    have hpop : t.work = { t with
        memory := t.memory.pop c
        worker := .dumping ref due closed } := by
      simp only [State.work, h.worker, href]
    have hdump : t.work.work = { t with
        memory := t.memory.pop c
        worker := .popping due (closed ++ [bucket.closed])
        copied := t.copied ++ [(ref, bucket.closed)] } := by
      rw [hpop]
      simp only [State.work, hpopped]
    rw [hdump]
    exact ⟨h.receiver, rfl, h.handed, h.dropped, h.refused, h.issued, h.buckets.erase c⟩

theorem close_all : ∀ {es : List (String × OpenBucket)} {closed : List AggregatedRequest} {t : State}
    {s : List AggregatedRequest × Aggregator},
    Views (.popping (es.map Prod.fst) closed) t s → (es.map Prod.fst).Nodup →
      (∀ e ∈ es, s.2.openBuckets.get e.1 = some e.2) →
        Views .idle (State.work^[2 * es.length + 1] t)
          (s.1 ++ (closed ++ es.map fun e => e.2.closed),
            es.foldl (fun agg e => agg.dropBucket e.1) s.2)
  | [], closed, t, s, h, _, _ => by
    have hreturn : State.work^[2 * ([] : List (String × OpenBucket)).length + 1] t =
        { t with worker := .idle, handed := t.handed ++ closed } := by
      have hone : 2 * ([] : List (String × OpenBucket)).length + 1 = 1 := rfl
      rw [hone, Function.iterate_one]
      simp only [State.work, h.worker, List.map_nil]
    rw [hreturn]
    refine ⟨h.receiver, rfl, ?_, h.dropped, h.refused, h.issued, h.buckets⟩
    simp [h.handed]
  | e :: es, closed, t, s, h, hnodup, hget => by
    obtain ⟨hnew, hrest⟩ := List.nodup_cons.mp hnodup
    have hclose := h.close (hget e List.mem_cons_self)
    have hall := close_all hclose hrest (by
      intro e' he'
      have hne : e'.1 ≠ e.1 := fun hsame => hnew (hsame ▸ List.mem_map_of_mem he')
      simp only [Aggregator.dropBucket, Dict.get_erase, if_neg hne]
      exact hget e' (List.mem_cons_of_mem _ he'))
    have hlength : 2 * (e :: es).length + 1 = (2 * es.length + 1) + 2 := by
      rw [List.length_cons]
      omega
    rw [hlength, Function.iterate_add_apply]
    simpa using hall

/-- The worker lists what the aggregator finds due. -/
theorem due_eq (h : Views worker t s) (now : Instant) :
    t.memory.due cfg now = (s.2.due cfg now).map Prod.fst := by
  refine h.buckets.keys_filter fun _ ref bucket hbucket => ?_
  show (t.memory.objects[ref]?).any (fun bucket => !cfg.active bucket now) = !cfg.active bucket now
  unfold Memory.Holds at hbucket
  rw [hbucket, Option.any_some]

/-- **A call of `flush_due`** does to the memory what it does to the aggregator. -/
theorem flush (h : Views .idle t s) (now : Instant) :
    Views .idle (run (step cfg) t (Job.moves cfg t (.flush now)))
      (Job.serve cfg s (.flush now)) := by
  have hstep : step cfg t (.flush (some (t.memory.due cfg now))) =
      { t with worker := .popping (t.memory.due cfg now) [] } := by
    unfold step
    dsimp only
    rw [h.worker]
    rfl
  have hlisted : Views (.popping ((s.2.due cfg now).map Prod.fst) [])
      { t with worker := .popping (t.memory.due cfg now) [] } s :=
    ⟨h.receiver, by rw [h.due_eq], h.handed, h.dropped, h.refused, h.issued, h.buckets⟩
  have hsub : ((s.2.due cfg now).map Prod.fst).Sublist s.2.openBuckets.keys :=
    List.filter_sublist.map Prod.fst
  have hall := hlisted.close_all (hsub.nodup s.2.openBuckets.nodup)
    fun e he => Dict.get_eq_some.mpr (List.mem_of_mem_filter he)
  unfold Job.moves
  rw [run_cons, run_worker, hstep]
  simpa [h.due_eq, Job.serve, Aggregator.flushDue] using hall

end Views

theorem views_initial : Views .idle State.initial ([], Aggregator.fresh 0) :=
  ⟨rfl, rfl, rfl, rfl, rfl, rfl, .nil⟩

theorem Views.job (h : Views .idle t s) (hsound : Sound cfg t) (job : Job) :
    Views .idle (run (step cfg) t (job.moves cfg t)) (job.serve cfg s) := by
  cases job with
  | add call => exact h.add hsound call
  | flush now => exact h.flush now

theorem Views.jobs : ∀ {jobs : List Job} {t : State} {s : List AggregatedRequest × Aggregator},
    Views .idle t s → Sound cfg t →
      Views .idle (run (step cfg) t (schedule cfg t jobs)) (run (Job.serve cfg) s jobs)
  | [], _, _, h, _ => h
  | job :: jobs, t, s, h, hsound => by
    have hafter : Sound cfg (run (step cfg) t (job.moves cfg t)) :=
      run_keeps (fun _ move h => h.step move) hsound _
    rw [schedule, run_append]
    exact (h.job hsound job).jobs hafter

/-- **Calls that follow each other do what the aggregator does**: the dictionary holds its buckets, and
they return what it returns. -/
theorem serial_refines (jobs : List Job) :
    Views .idle (run (step cfg) State.initial (schedule cfg State.initial jobs))
      (run (Job.serve cfg) ([], Aggregator.fresh 0) jobs) :=
  views_initial.jobs sound_initial

end serial

end WappPlanner.Aggregation.Threads
