import WappPlanner.Aggregation.Partition
import WappPlanner.Lib.Runs
import WappPlanner.Lib.Text

/-! # Two threads at one aggregator

The server calls `add` in the thread that receives, and the worker calls `flush_due` in a thread of its
own, on the same open buckets and without a lock. Each operation on the dictionary, on a bucket or on
its list of messages is one step; what happens between two of them is up to the schedule.

* `Receiver`, `Worker`: how far the call of a thread has come.
* `Sound`: each bucket is in one place, the dictionary, the hands of one thread or the copies made.
* `accounted_run`: whatever the schedule, no bucket is handed over twice, a batch holds what was
  written to its bucket in time, all of it for one client, and what was written is open, on its way, or
  in a batch unless it was late. -/

namespace WappPlanner.Aggregation.Threads

open WappPlanner.Domain.Models WappPlanner.Lib WappPlanner.Lib.Runs WappPlanner.Py.Text

/-- The arguments of a call of `add`. -/
structure Adding where
  clientId : String
  message : Message
  now : Instant

/-- The dictionary `_open`, with references to the bucket objects that were made. -/
structure Memory where
  openBuckets : Dict String ℕ
  objects : List OpenBucket

/-- Where the receiving thread is in `add`. -/
inductive Receiver
  | idle
  | looked (call : Adding) (ref : ℕ)
  | popping (call : Adding)
  | dumping (call : Adding) (ref : ℕ)
  | creating (call : Adding) (displaced : Option AggregatedRequest)
  | putting (call : Adding) (ref : ℕ) (displaced : Option AggregatedRequest)
  | appending (call : Adding) (ref : ℕ) (displaced : Option AggregatedRequest)
  | touching (call : Adding) (ref : ℕ) (displaced : Option AggregatedRequest)

/-- Where the worker is in `flush_due`: what is still to be closed, and what was closed. -/
inductive Worker
  | idle
  | popping (due : List String) (closed : List AggregatedRequest)
  | dumping (ref : ℕ) (due : List String) (closed : List AggregatedRequest)
  | dead

/-- A message was appended to a bucket; late, if the bucket had been copied before. -/
structure Written where
  ref : ℕ
  call : Adding
  late : Bool

/-- The two threads and what they share. `handed` are the batches that calls returned, `dropped` those
that a call had closed when it raised, `refused` the calls of `add` that raised; `journal` and `copied`
record the appends and the copies. -/
structure State where
  memory : Memory
  receiver : Receiver
  worker : Worker
  handed : List AggregatedRequest
  dropped : List AggregatedRequest
  refused : List Adding
  journal : List Written
  copied : List (ℕ × AggregatedRequest)

/-- Both threads idle, and no bucket. -/
def State.initial : State := ⟨⟨Dict.empty, []⟩, .idle, .idle, [], [], [], [], []⟩

/-! ### Operations -/

namespace Memory

variable (memory : Memory)

/-- `self._open.pop(client_id)`, when it finds something. -/
def pop (clientId : String) : Memory :=
  { memory with openBuckets := memory.openBuckets.erase clientId }

/-- `OpenBucket(request_id=self._id_factory(), …)`. -/
def create (cfg : AggregatorConfig) (call : Adding) : Memory :=
  { memory with
    objects := memory.objects ++
      [⟨cfg.idFactory memory.objects.length, call.clientId, call.now, call.now, []⟩] }

/-- `self._open[client_id] = bucket`. -/
def put (clientId : String) (ref : ℕ) : Memory :=
  { memory with openBuckets := memory.openBuckets.set clientId ref }

/-- `bucket.messages.append(…)`, the message numbered by its place. -/
def append (ref : ℕ) (message : Message) : Memory :=
  { memory with
    objects := memory.objects.modify ref fun bucket =>
      { bucket with messages := bucket.messages ++ [{ message with order := bucket.messages.length }] } }

/-- `bucket.last_at = now`. -/
def touch (ref : ℕ) (now : Instant) : Memory :=
  { memory with objects := memory.objects.modify ref fun bucket => { bucket with lastAt := now } }

end Memory

namespace State

variable (cfg : AggregatorConfig) (t : State)

/-- `add` is called, and looks up the client's bucket. -/
def add (call : Adding) : State :=
  match t.memory.openBuckets.get call.clientId with
  | none => { t with receiver := .creating call none }
  | some ref => { t with receiver := .looked call ref }

/-- The next operation of `add`. -/
def receive : State :=
  match t.receiver with
  | .idle => t
  | .looked call ref =>
    match t.memory.objects[ref]? with
    | none => t
    | some bucket =>
      if cfg.active bucket call.now then { t with receiver := .appending call ref none }
      else { t with receiver := .popping call }
  | .popping call =>
    match t.memory.openBuckets.get call.clientId with
    -- `KeyError`: the worker popped the bucket
    | none => { t with receiver := .idle, refused := t.refused ++ [call] }
    | some ref => { t with memory := t.memory.pop call.clientId, receiver := .dumping call ref }
  | .dumping call ref =>
    match t.memory.objects[ref]? with
    | none => t
    | some bucket =>
      { t with
        receiver := .creating call (some bucket.closed)
        copied := t.copied ++ [(ref, bucket.closed)] }
  | .creating call displaced =>
    { t with
      memory := t.memory.create cfg call
      receiver := .putting call t.memory.objects.length displaced }
  | .putting call ref displaced =>
    { t with memory := t.memory.put call.clientId ref, receiver := .appending call ref displaced }
  | .appending call ref displaced =>
    { t with
      memory := t.memory.append ref call.message
      receiver := .touching call ref displaced
      journal := t.journal ++ [⟨ref, call, decide (ref ∈ t.copied.map Prod.fst)⟩] }
  | .touching call ref displaced =>
    { t with
      memory := t.memory.touch ref call.now
      receiver := .idle
      handed := t.handed ++ displaced.toList }

/-- `flush_due` is called, and lists the clients whose buckets it finds due. The listing reads the
dictionary and the buckets while they change, so it may be any list, or raise `RuntimeError`; then the
thread of the worker ends. -/
def flush (listing : Option (List String)) : State :=
  match listing with
  | none => { t with worker := .dead }
  | some due => { t with worker := .popping due [] }

/-- The next operation of `flush_due`. -/
def work : State :=
  match t.worker with
  | .idle | .dead => t
  | .popping [] closed => { t with worker := .idle, handed := t.handed ++ closed }
  | .popping (clientId :: due) closed =>
    match t.memory.openBuckets.get clientId with
    -- `KeyError`: the receiver popped the bucket
    | none => { t with worker := .dead, dropped := t.dropped ++ closed }
    | some ref => { t with memory := t.memory.pop clientId, worker := .dumping ref due closed }
  | .dumping ref due closed =>
    match t.memory.objects[ref]? with
    | none => t
    | some bucket =>
      { t with
        worker := .popping due (closed ++ [bucket.closed])
        copied := t.copied ++ [(ref, bucket.closed)] }

end State

/-- What the schedule picks: an idle thread is given a call, or a thread goes on with its own. -/
inductive Move
  | add (call : Adding)
  | receiver
  | flush (listing : Option (List String))
  | worker

def step (cfg : AggregatorConfig) (t : State) : Move → State
  | .add call =>
    match t.receiver with
    | .idle => t.add call
    | _ => t
  | .receiver => t.receive cfg
  | .flush listing =>
    match t.worker with
    | .idle => t.flush listing
    | _ => t
  | .worker => t.work

/-! ### What the memory says of a bucket -/

theorem map_getElem?_modify {α β : Type*} {f : α → α} {g : α → β} (h : ∀ a, g (f a) = g a)
    (l : List α) (i j : ℕ) : (l.modify i f)[j]?.map g = l[j]?.map g := by
  rw [List.getElem?_modify]
  cases l[j]? with
  | none => rfl
  | some a =>
    by_cases hij : i = j
    · simp [hij, h]
    · simp [hij]

namespace Memory

/-- The client of a bucket. -/
def owner (memory : Memory) (ref : ℕ) : Option String := memory.objects[ref]?.map (·.clientId)

/-- The messages of a bucket; none, if there is no such bucket. -/
def messages (memory : Memory) (ref : ℕ) : List Message :=
  (memory.objects[ref]?.map (·.messages)).getD []

section facts

variable {cfg : AggregatorConfig} {memory : Memory} {ref ref' : ℕ} {call : Adding} {c : String}

theorem get_pop : (memory.pop c).openBuckets.get c = none := by
  unfold pop
  rw [Dict.get_erase, if_pos rfl]

theorem lt_of_owner (h : memory.owner ref = some c) : ref < memory.objects.length := by
  obtain ⟨bucket, hbucket, -⟩ := Option.map_eq_some_iff.mp h
  exact (List.getElem?_eq_some_iff.mp hbucket).1

theorem owner_create (h : memory.owner ref = some c) : (memory.create cfg call).owner ref = some c := by
  have hlt := lt_of_owner h
  unfold owner create
  rw [List.getElem?_append_left hlt]
  exact h

theorem owner_created :
    (memory.create cfg call).owner memory.objects.length = some call.clientId := by
  simp [owner, create]

@[simp] theorem owner_append (message : Message) : (memory.append ref' message).owner ref =
    memory.owner ref := by
  refine map_getElem?_modify ?_ memory.objects ref' ref
  exact fun _ => rfl

@[simp] theorem owner_touch (now : Instant) : (memory.touch ref' now).owner ref =
    memory.owner ref := by
  refine map_getElem?_modify ?_ memory.objects ref' ref
  exact fun _ => rfl

@[simp] theorem messages_create : (memory.create cfg call).messages ref = memory.messages ref := by
  unfold messages create
  by_cases h : ref < memory.objects.length
  · rw [List.getElem?_append_left h]
  · have hold : memory.objects[ref]? = none := List.getElem?_eq_none (by omega)
    rw [List.getElem?_append_right (by omega), hold]
    cases ref - memory.objects.length <;> simp

@[simp] theorem messages_touch (now : Instant) : (memory.touch ref' now).messages ref =
    memory.messages ref := by
  unfold messages touch
  rw [map_getElem?_modify]
  exact fun _ => rfl

theorem messages_append (h : memory.owner ref = some c) (message : Message) :
    (memory.append ref message).messages ref' =
      memory.messages ref' ++ if ref' = ref then
        [{ message with order := (memory.messages ref).length }] else [] := by
  obtain ⟨bucket, hbucket, -⟩ := Option.map_eq_some_iff.mp h
  unfold messages append
  rw [List.getElem?_modify]
  by_cases hr : ref' = ref
  · subst hr
    simp [hbucket]
  · simp [hr, Ne.symm hr]

end facts

end Memory

/-! ### Where a bucket is -/

/-- The bucket in the hands of the receiving thread. -/
def Receiver.refs : Receiver → List ℕ
  | .dumping _ ref | .putting _ ref _ => [ref]
  | _ => []

/-- The batch that `add` will return. -/
def Receiver.displaced : Receiver → List AggregatedRequest
  | .creating _ displaced | .putting _ _ displaced | .appending _ _ displaced
  | .touching _ _ displaced => displaced.toList
  | _ => []

def Worker.refs : Worker → List ℕ
  | .dumping ref _ _ => [ref]
  | _ => []

/-- The batches that `flush_due` has closed. -/
def Worker.closed : Worker → List AggregatedRequest
  | .popping _ closed | .dumping _ _ closed => closed
  | _ => []

namespace State

variable (t : State)

/-- The buckets in the dictionary, in the hands of the threads, and copied. -/
def places : List ℕ :=
  t.memory.openBuckets.values ++ t.receiver.refs ++ t.worker.refs ++ t.copied.map Prod.fst

/-- The batches: returned, lost when a call raised, and about to be returned. -/
def batches : List AggregatedRequest :=
  t.handed ++ t.dropped ++ t.worker.closed ++ t.receiver.displaced

/-- What was written to a bucket. -/
def written (ref : ℕ) : List (Message × Instant) :=
  (t.journal.filter fun e => e.ref = ref).map fun e => (e.call.message, e.call.now)

/-- What was written to a bucket before it was copied. -/
def inTime (ref : ℕ) : List (Message × Instant) :=
  (t.journal.filter fun e => e.ref = ref && !e.late).map fun e => (e.call.message, e.call.now)

end State

/-- What the receiving thread knows: the bucket it refers to is its client's, and once it has found or
left no bucket of the client in the dictionary, there is none. -/
def Receiver.Knows (memory : Memory) : Receiver → Prop
  | .idle | .popping _ => True
  | .looked call ref | .appending call ref _ | .touching call ref _ =>
    memory.owner ref = some call.clientId
  | .dumping call ref | .putting call ref _ =>
    memory.owner ref = some call.clientId ∧ memory.openBuckets.get call.clientId = none
  | .creating call _ => memory.openBuckets.get call.clientId = none

/-- **Each bucket is in one place**, its messages are those that were written to it, and a copy of it
holds those that were written in time. -/
structure Sound (cfg : AggregatorConfig) (t : State) : Prop where
  places : t.places.Perm (List.range t.memory.objects.length)
  keyed : ∀ c ref, t.memory.openBuckets.get c = some ref → t.memory.owner ref = some c
  receiver : t.receiver.Knows t.memory
  named : ∀ ref bucket, t.memory.objects[ref]? = some bucket →
    bucket.requestId = cfg.idFactory ref
  messages : ∀ ref, t.memory.messages ref = numbered (t.written ref)
  clients : ∀ e ∈ t.journal, t.memory.owner e.ref = some e.call.clientId
  late : ∀ e ∈ t.journal, e.late = true → e.ref ∈ t.copied.map Prod.fst
  copies : ∀ x ∈ t.copied, t.memory.owner x.1 = some x.2.clientId ∧
    x.2.requestId = cfg.idFactory x.1 ∧ x.2.messages = numbered (t.inTime x.1)
  batches : t.batches.Perm (t.copied.map Prod.snd)

section sound

variable {cfg : AggregatorConfig} {t t' : State} {c : String} {ref : ℕ} {call : Adding}
  {bucket : OpenBucket}

theorem written_congr (h : t'.journal = t.journal) : t'.written = t.written := by
  funext ref
  unfold State.written
  rw [h]

theorem inTime_congr (h : t'.journal = t.journal) : t'.inTime = t.inTime := by
  funext ref
  unfold State.inTime
  rw [h]

theorem sound_initial : Sound cfg State.initial := by
  refine ⟨.refl _, fun c ref h => ?_, trivial, fun ref bucket h => ?_, fun ref => rfl,
    fun e he => ?_, fun e he => ?_, fun x hx => ?_, .refl _⟩
  · cases h
  · cases h
  · cases he
  · cases he
  · cases hx

namespace Sound

theorem nodup (h : Sound cfg t) : t.places.Nodup := h.places.nodup_iff.mpr List.nodup_range

theorem fresh (h : Sound cfg t) (hhand : ref ∈ t.receiver.refs ++ t.worker.refs) :
    ref ∉ t.copied.map Prod.fst := by
  intro hcopied
  have hnodup := h.nodup
  unfold State.places at hnodup
  rw [List.append_assoc, List.append_assoc, ← List.append_assoc t.receiver.refs] at hnodup
  have hdisjoint := (List.nodup_append.mp (List.nodup_append.mp hnodup).2.1).2.2
  exact hdisjoint ref hhand ref hcopied rfl

theorem fresh_open (h : Sound cfg t) (hopen : t.memory.openBuckets.get c = some ref) :
    ref ∉ t.copied.map Prod.fst := by
  intro hcopied
  have hnodup := h.nodup
  unfold State.places at hnodup
  rw [List.append_assoc, List.append_assoc, ← List.append_assoc t.receiver.refs] at hnodup
  have hvalue : ref ∈ t.memory.openBuckets.values :=
    List.mem_map.mpr ⟨(c, ref), Dict.get_eq_some.mp hopen, rfl⟩
  have hdisjoint := (List.nodup_append.mp hnodup).2.2
  exact hdisjoint ref hvalue ref (List.mem_append_right _ hcopied) rfl

/-- What was written to a bucket that was not copied was written in time. -/
theorem written_eq (h : Sound cfg t) (hfresh : ref ∉ t.copied.map Prod.fst) :
    t.written ref = t.inTime ref := by
  unfold State.written State.inTime
  refine congrArg (List.map _) (List.filter_congr fun e he => ?_)
  by_cases href : e.ref = ref
  · have hlate : e.late = false := by
      by_contra hlate
      exact hfresh (href ▸ h.late e he (by simpa using hlate))
    simp [href, hlate]
  · simp [href]

/-! ### What keeps it -/

theorem moved (h : Sound cfg t) (hobjects : t'.memory.objects = t.memory.objects)
    (hjournal : t'.journal = t.journal) (hcopied : t'.copied = t.copied)
    (hplaces : t'.places.Perm t.places)
    (hkeyed : ∀ c ref, t'.memory.openBuckets.get c = some ref → t.memory.owner ref = some c)
    (hknows : t'.receiver.Knows t'.memory) (hbatches : t'.batches.Perm t.batches) :
    Sound cfg t' := by
  have howner : t'.memory.owner = t.memory.owner := by
    funext ref
    unfold Memory.owner
    rw [hobjects]
  have hmessages : t'.memory.messages = t.memory.messages := by
    funext ref
    unfold Memory.messages
    rw [hobjects]
  refine ⟨?_, ?_, hknows, ?_, ?_, ?_, ?_, ?_, ?_⟩
  · rw [hobjects]
    exact hplaces.trans h.places
  · rw [howner]
    exact hkeyed
  · rw [hobjects]
    exact h.named
  · rw [hmessages, written_congr hjournal]
    exact h.messages
  · rw [howner, hjournal]
    exact h.clients
  · rw [hjournal, hcopied]
    exact h.late
  · rw [howner, hcopied, inTime_congr hjournal]
    exact h.copies
  · rw [hcopied]
    exact hbatches.trans h.batches

theorem copying (h : Sound cfg t) (hmemory : t'.memory = t.memory)
    (hjournal : t'.journal = t.journal) (hbucket : t.memory.objects[ref]? = some bucket)
    (hcopied : t'.copied = t.copied ++ [(ref, bucket.closed)])
    (hfresh : ref ∉ t.copied.map Prod.fst) (hplaces : t'.places.Perm t.places)
    (hknows : t'.receiver.Knows t'.memory)
    (hbatches : t'.batches.Perm (t.batches ++ [bucket.closed])) : Sound cfg t' := by
  have howner : t.memory.owner ref = some bucket.clientId := by
    unfold Memory.owner
    rw [hbucket]
    rfl
  have hmessages : bucket.messages = numbered (t.inTime ref) := by
    have hall := h.messages ref
    unfold Memory.messages at hall
    rw [hbucket, h.written_eq hfresh] at hall
    exact hall
  refine ⟨?_, ?_, hknows, ?_, ?_, ?_, ?_, ?_, ?_⟩
  · rw [hmemory]
    exact hplaces.trans h.places
  · rw [hmemory]
    exact h.keyed
  · rw [hmemory]
    exact h.named
  · rw [hmemory, written_congr hjournal]
    exact h.messages
  · rw [hmemory, hjournal]
    exact h.clients
  · intro e he hlate
    rw [hjournal] at he
    rw [hcopied, List.map_append]
    exact List.mem_append_left _ (h.late e he hlate)
  · intro x hx
    rw [hcopied] at hx
    rw [hmemory, inTime_congr hjournal]
    rcases List.mem_append.mp hx with hx | hx
    · exact h.copies x hx
    · obtain rfl := List.mem_singleton.mp hx
      exact ⟨howner, h.named ref bucket hbucket, hmessages⟩
  · rw [hcopied, List.map_append]
    exact hbatches.trans (h.batches.append_right _)

theorem keyed_pop (h : Sound cfg t) {c' : String} {ref' : ℕ}
    (hget : (t.memory.pop c).openBuckets.get c' = some ref') :
    t.memory.owner ref' = some c' := by
  unfold Memory.pop at hget
  rw [Dict.get_erase] at hget
  split_ifs at hget
  exact h.keyed c' ref' hget

theorem perm_pop (hopen : t.memory.openBuckets.get c = some ref) :
    t.memory.openBuckets.values.Perm (ref :: (t.memory.pop c).openBuckets.values) :=
  Dict.perm_values_erase hopen

/-! ### The operations of `add` -/

theorem add (h : Sound cfg t) (hidle : t.receiver = .idle) (call : Adding) :
    Sound cfg (t.add call) := by
  unfold State.add
  cases hget : t.memory.openBuckets.get call.clientId with
  | none =>
    refine h.moved rfl rfl rfl ?_ h.keyed hget ?_
    · simp [State.places, hidle, Receiver.refs]
    · simp [State.batches, hidle, Receiver.displaced]
  | some ref =>
    refine h.moved rfl rfl rfl ?_ h.keyed (h.keyed _ _ hget) ?_
    · simp [State.places, hidle, Receiver.refs]
    · simp [State.batches, hidle, Receiver.displaced]

theorem looked (h : Sound cfg t) (hat : t.receiver = .looked call ref) :
    Sound cfg (t.receive cfg) := by
  have hknows := h.receiver
  rw [hat] at hknows
  unfold State.receive
  rw [hat]
  dsimp only
  cases t.memory.objects[ref]? with
  | none => exact h
  | some bucket =>
    dsimp only
    split_ifs
    · refine h.moved rfl rfl rfl ?_ h.keyed hknows ?_
      · simp [State.places, hat, Receiver.refs]
      · simp [State.batches, hat, Receiver.displaced]
    · refine h.moved rfl rfl rfl ?_ h.keyed trivial ?_
      · simp [State.places, hat, Receiver.refs]
      · simp [State.batches, hat, Receiver.displaced]

theorem popping (h : Sound cfg t) (hat : t.receiver = .popping call) :
    Sound cfg (t.receive cfg) := by
  unfold State.receive
  rw [hat]
  dsimp only
  cases hget : t.memory.openBuckets.get call.clientId with
  | none =>
    refine h.moved rfl rfl rfl ?_ h.keyed trivial ?_
    · simp [State.places, hat, Receiver.refs]
    · simp [State.batches, hat, Receiver.displaced]
  | some ref =>
    refine h.moved rfl rfl rfl ?_ (fun _ _ => h.keyed_pop) ⟨h.keyed _ _ hget, Memory.get_pop⟩ ?_
    · have hperm := perm_pop hget
      simp only [State.places, hat, Receiver.refs]
      rw [List.perm_iff_count] at hperm ⊢
      intro a
      have hcount := hperm a
      simp only [List.count_append, List.count_cons, List.count_nil] at hcount ⊢
      omega
    · simp [State.batches, hat, Receiver.displaced]

theorem dumping (h : Sound cfg t) (hat : t.receiver = .dumping call ref) :
    Sound cfg (t.receive cfg) := by
  have hknows := h.receiver
  have hhand : ref ∈ t.receiver.refs ++ t.worker.refs := by simp [hat, Receiver.refs]
  rw [hat] at hknows
  unfold State.receive
  rw [hat]
  dsimp only
  cases hbucket : t.memory.objects[ref]? with
  | none => exact h
  | some bucket =>
    refine h.copying rfl rfl hbucket rfl (h.fresh hhand) ?_ hknows.2 ?_
    · simp only [State.places, hat, Receiver.refs, List.map_append, List.map_cons, List.map_nil]
      rw [List.perm_iff_count]
      intro a
      simp only [List.count_append, List.count_cons, List.count_nil]
      omega
    · simp [State.batches, hat, Receiver.displaced]

theorem creating (h : Sound cfg t) {displaced : Option AggregatedRequest}
    (hat : t.receiver = .creating call displaced) : Sound cfg (t.receive cfg) := by
  have hknows := h.receiver
  rw [hat] at hknows
  unfold State.receive
  rw [hat]
  refine ⟨?_, ?_, ⟨Memory.owner_created, hknows⟩, ?_, ?_, ?_, h.late, ?_, ?_⟩
  · have hperm := h.places
    simp only [State.places, hat, Receiver.refs, Memory.create, List.length_append,
      List.length_singleton, List.range_succ] at hperm ⊢
    rw [List.perm_iff_count] at hperm ⊢
    intro a
    have hcount := hperm a
    simp only [List.count_append, List.count_cons, List.count_nil] at hcount ⊢
    omega
  · exact fun c ref hget => Memory.owner_create (h.keyed c ref hget)
  · intro ref bucket hbucket
    by_cases hlt : ref < t.memory.objects.length
    · have hold : t.memory.objects[ref]? = some bucket := by
        rw [← hbucket]
        exact (List.getElem?_append_left hlt).symm
      exact h.named ref bucket hold
    · have hlast : ref = t.memory.objects.length := by
        have hlength := (List.getElem?_eq_some_iff.mp hbucket).1
        simp only [Memory.create, List.length_append, List.length_singleton] at hlength
        omega
      subst hlast
      simp only [Memory.create, List.getElem?_concat_length] at hbucket
      rw [← Option.some.inj hbucket]
  · intro ref
    rw [Memory.messages_create]
    exact h.messages ref
  · exact fun e he => Memory.owner_create (h.clients e he)
  · intro x hx
    obtain ⟨howner, hrest⟩ := h.copies x hx
    exact ⟨Memory.owner_create howner, hrest⟩
  · have hsame : (t.receive cfg).batches = t.batches := by
      simp [State.batches, State.receive, hat, Receiver.displaced]
    have hperm := hsame ▸ h.batches
    unfold State.receive at hperm
    rw [hat] at hperm
    exact hperm

theorem putting (h : Sound cfg t) {displaced : Option AggregatedRequest}
    (hat : t.receiver = .putting call ref displaced) : Sound cfg (t.receive cfg) := by
  have hknows := h.receiver
  rw [hat] at hknows
  obtain ⟨howner, hgone⟩ := hknows
  unfold State.receive
  rw [hat]
  refine h.moved rfl rfl rfl ?_ (fun c ref' hget => ?_) howner ?_
  · have hperm : (t.memory.put call.clientId ref).openBuckets.values.Perm
        (ref :: t.memory.openBuckets.values) := Dict.perm_values_set hgone
    simp only [State.places, hat, Receiver.refs]
    rw [List.perm_iff_count] at hperm ⊢
    intro a
    have hcount := hperm a
    simp only [List.count_append, List.count_cons, List.count_nil] at hcount ⊢
    omega
  · simp only [Memory.put, Dict.get_set] at hget
    split_ifs at hget with hc
    · obtain rfl := Option.some.inj hget
      rw [hc]
      exact howner
    · exact h.keyed c ref' hget
  · simp [State.batches, hat, Receiver.displaced]

theorem appending (h : Sound cfg t) {displaced : Option AggregatedRequest}
    (hat : t.receiver = .appending call ref displaced) : Sound cfg (t.receive cfg) := by
  have howner := h.receiver
  rw [hat] at howner
  have hown : t.memory.owner ref = some call.clientId := howner
  obtain ⟨e, he⟩ : ∃ e : Written, e = ⟨ref, call, decide (ref ∈ t.copied.map Prod.fst)⟩ := ⟨_, rfl⟩
  have hstep : t.receive cfg = { t with
      memory := t.memory.append ref call.message
      receiver := .touching call ref displaced
      journal := t.journal ++ [e] } := by
    rw [he]
    unfold State.receive
    rw [hat]
  rw [hstep]
  refine ⟨?_, ?_, ?_, ?_, ?_, ?_, ?_, ?_, ?_⟩
  · have hlength : (t.memory.append ref call.message).objects.length = t.memory.objects.length :=
      List.length_modify ..
    have hperm := h.places
    simp only [State.places, hat, Receiver.refs] at hperm
    rw [hlength]
    exact hperm
  · intro c ref' hget
    rw [Memory.owner_append]
    exact h.keyed c ref' hget
  · exact (Memory.owner_append _).trans hown
  · intro ref' bucket hbucket
    simp only [Memory.append, List.getElem?_modify] at hbucket
    obtain ⟨old, hold, rfl⟩ := Option.map_eq_some_iff.mp hbucket
    have hnamed := h.named ref' old hold
    split_ifs <;> exact hnamed
  · intro ref'
    rw [Memory.messages_append hown, h.messages ref', h.messages ref]
    by_cases hr : ref' = ref
    · subst hr
      simp [State.written, he, numbered_append, length_numbered]
    · simp [State.written, he, hr, Ne.symm hr]
  · intro e' he'
    rw [Memory.owner_append]
    rcases List.mem_append.mp he' with he' | he'
    · exact h.clients e' he'
    · rw [List.mem_singleton.mp he', he]
      exact hown
  · intro e' he' hlate
    rcases List.mem_append.mp he' with he' | he'
    · exact h.late e' he' hlate
    · rw [List.mem_singleton.mp he', he] at hlate ⊢
      exact of_decide_eq_true hlate
  · intro x hx
    obtain ⟨howner', hname, hmessages⟩ := h.copies x hx
    refine ⟨(Memory.owner_append _).trans howner', hname, ?_⟩
    rw [hmessages]
    have hx' : x.1 ∈ t.copied.map Prod.fst := List.mem_map_of_mem hx
    have hskip : (e.ref = x.1 && !e.late) = false := by
      rw [he]
      by_cases hr : ref = x.1
      · simp only [hr, hx', decide_true, Bool.not_true, Bool.and_false]
      · simp [hr]
    simp only [State.inTime, List.filter_append, List.filter_cons, List.filter_nil, hskip]
    simp
  · have hperm := h.batches
    simp only [State.batches, hat, Receiver.displaced] at hperm
    simpa only [State.batches, Receiver.displaced] using hperm

theorem touching (h : Sound cfg t) {displaced : Option AggregatedRequest}
    (hat : t.receiver = .touching call ref displaced) : Sound cfg (t.receive cfg) := by
  unfold State.receive
  rw [hat]
  refine ⟨?_, ?_, trivial, ?_, ?_, ?_, h.late, ?_, ?_⟩
  · have hlength : (t.memory.touch ref call.now).objects.length = t.memory.objects.length :=
      List.length_modify ..
    have hperm := h.places
    simp only [State.places, hat, Receiver.refs] at hperm
    rw [hlength]
    exact hperm
  · intro c ref' hget
    rw [Memory.owner_touch]
    exact h.keyed c ref' hget
  · intro ref' bucket hbucket
    simp only [Memory.touch, List.getElem?_modify] at hbucket
    obtain ⟨old, hold, rfl⟩ := Option.map_eq_some_iff.mp hbucket
    have hnamed := h.named ref' old hold
    split_ifs <;> exact hnamed
  · intro ref'
    rw [Memory.messages_touch]
    exact h.messages ref'
  · intro e he
    rw [Memory.owner_touch]
    exact h.clients e he
  · intro x hx
    obtain ⟨howner, hrest⟩ := h.copies x hx
    exact ⟨(Memory.owner_touch _).trans howner, hrest⟩
  · refine List.Perm.trans ?_ h.batches
    simp only [State.batches, hat, Receiver.displaced, List.append_nil, List.append_assoc]
    refine List.Perm.append_left _ ?_
    rw [← List.append_assoc t.dropped]
    exact List.perm_append_comm

/-- **Every operation of the receiving thread keeps the buckets sound.** -/
theorem receive (h : Sound cfg t) : Sound cfg (t.receive cfg) := by
  cases hat : t.receiver with
  | idle =>
    unfold State.receive
    rw [hat]
    exact h
  | looked call ref => exact h.looked hat
  | popping call => exact h.popping hat
  | dumping call ref => exact h.dumping hat
  | creating call displaced => exact h.creating hat
  | putting call ref displaced => exact h.putting hat
  | appending call ref displaced => exact h.appending hat
  | touching call ref displaced => exact h.touching hat

/-! ### The operations of `flush_due` -/

theorem knows_pop (h : Sound cfg t) (c : String) : t.receiver.Knows (t.memory.pop c) := by
  have hgone : ∀ c', t.memory.openBuckets.get c' = none →
      (t.memory.pop c).openBuckets.get c' = none := by
    intro c' hnone
    unfold Memory.pop
    rw [Dict.get_erase, hnone, ite_self]
  have hknows := h.receiver
  cases hat : t.receiver with
  | idle | popping => trivial
  | looked | appending | touching =>
    rw [hat] at hknows
    exact hknows
  | dumping | putting =>
    rw [hat] at hknows
    exact ⟨hknows.1, hgone _ hknows.2⟩
  | creating =>
    rw [hat] at hknows
    exact hgone _ hknows

theorem flush (h : Sound cfg t) (hidle : t.worker = .idle) (listing : Option (List String)) :
    Sound cfg (t.flush listing) := by
  cases listing with
  | none =>
    refine h.moved rfl rfl rfl ?_ h.keyed h.receiver ?_
    · simp [State.flush, State.places, hidle, Worker.refs]
    · simp [State.flush, State.batches, hidle, Worker.closed]
  | some due =>
    refine h.moved rfl rfl rfl ?_ h.keyed h.receiver ?_
    · simp [State.flush, State.places, hidle, Worker.refs]
    · simp [State.flush, State.batches, hidle, Worker.closed]

theorem returning (h : Sound cfg t) {closed : List AggregatedRequest}
    (hat : t.worker = .popping [] closed) : Sound cfg t.work := by
  unfold State.work
  rw [hat]
  refine h.moved rfl rfl rfl ?_ h.keyed h.receiver ?_
  · simp [State.places, hat, Worker.refs]
  · simp only [State.batches, hat, Worker.closed, List.append_nil, List.append_assoc]
    refine List.Perm.append_left _ ?_
    rw [← List.append_assoc, ← List.append_assoc]
    exact List.perm_append_comm.append_right _

theorem closing (h : Sound cfg t) {due : List String} {closed : List AggregatedRequest}
    (hat : t.worker = .popping (c :: due) closed) : Sound cfg t.work := by
  unfold State.work
  rw [hat]
  dsimp only
  cases hget : t.memory.openBuckets.get c with
  | none =>
    refine h.moved rfl rfl rfl ?_ h.keyed h.receiver ?_
    · simp [State.places, hat, Worker.refs]
    · simp [State.batches, hat, Worker.closed]
  | some ref =>
    refine h.moved rfl rfl rfl ?_ (fun _ _ => h.keyed_pop) (h.knows_pop c) ?_
    · have hperm := perm_pop hget
      simp only [State.places, hat, Worker.refs]
      rw [List.perm_iff_count] at hperm ⊢
      intro a
      have hcount := hperm a
      simp only [List.count_append, List.count_cons, List.count_nil] at hcount ⊢
      omega
    · simp [State.batches, hat, Worker.closed]

theorem saving (h : Sound cfg t) {due : List String} {closed : List AggregatedRequest}
    (hat : t.worker = .dumping ref due closed) : Sound cfg t.work := by
  have hhand : ref ∈ t.receiver.refs ++ t.worker.refs := by simp [hat, Worker.refs]
  unfold State.work
  rw [hat]
  dsimp only
  cases hbucket : t.memory.objects[ref]? with
  | none => exact h
  | some bucket =>
    refine h.copying rfl rfl hbucket rfl (h.fresh hhand) ?_ h.receiver ?_
    · simp only [State.places, hat, Worker.refs, List.map_append, List.map_cons, List.map_nil]
      rw [List.perm_iff_count]
      intro a
      simp only [List.count_append, List.count_cons, List.count_nil]
      omega
    · simp only [State.batches, hat, Worker.closed, List.append_assoc]
      refine List.Perm.append_left _ (List.Perm.append_left _ (List.Perm.append_left _ ?_))
      exact List.perm_append_comm

/-- **Every operation of the worker keeps the buckets sound.** -/
theorem work (h : Sound cfg t) : Sound cfg t.work := by
  cases hat : t.worker with
  | idle | dead =>
    unfold State.work
    rw [hat]
    exact h
  | popping due closed =>
    cases due with
    | nil => exact h.returning hat
    | cons c due => exact h.closing hat
  | dumping ref due closed => exact h.saving hat

theorem step (h : Sound cfg t) (move : Move) : Sound cfg (step cfg t move) := by
  cases move with
  | add call =>
    unfold Threads.step
    dsimp only
    split
    · rename_i hidle
      exact h.add hidle call
    · exact h
  | receiver => exact h.receive
  | flush listing =>
    unfold Threads.step
    dsimp only
    split
    · rename_i hidle
      exact h.flush hidle listing
    · exact h
  | worker => exact h.work

end Sound

/-- **Every schedule keeps the buckets sound.** -/
theorem sound_run (moves : List Move) : Sound cfg (run (step cfg) State.initial moves) :=
  run_keeps (fun _ move h => h.step move) sound_initial moves

/-! ### What became of a message -/

/-- **Nothing is handed over twice or mixed up.** Batches are named apart, and each holds what was
written in time to one bucket, all of it for one client; what was written to an open bucket is in it,
in time, and in no batch; and what was written at all is in the client's open bucket, or its bucket is
in the hands of a thread, or was copied to a batch. -/
structure Accounted (cfg : AggregatorConfig) (t : State) : Prop where
  once : (t.batches.map (·.requestId)).Nodup
  batch : ∀ b ∈ t.batches, ∃ ref, b.requestId = cfg.idFactory ref ∧
    b.messages = numbered (t.inTime ref) ∧
      ∀ e ∈ t.journal, e.ref = ref → e.call.clientId = b.clientId
  bucket : ∀ c ref, t.memory.openBuckets.get c = some ref →
    t.memory.messages ref = numbered (t.inTime ref) ∧
      (∀ e ∈ t.journal, e.ref = ref → e.late = false ∧ e.call.clientId = c) ∧
        ∀ b ∈ t.batches, b.requestId ≠ cfg.idFactory ref
  written : ∀ e ∈ t.journal, t.memory.openBuckets.get e.call.clientId = some e.ref ∨
    e.ref ∈ t.receiver.refs ++ t.worker.refs ∨ ∃ b ∈ t.batches, b.requestId = cfg.idFactory e.ref

namespace Sound

theorem mem_batches (h : Sound cfg t) {b : AggregatedRequest} :
    b ∈ t.batches ↔ ∃ ref, (ref, b) ∈ t.copied := by
  rw [h.batches.mem_iff, List.mem_map]
  constructor
  · rintro ⟨⟨ref, b'⟩, hmem, rfl⟩
    exact ⟨ref, hmem⟩
  · rintro ⟨ref, hmem⟩
    exact ⟨_, hmem, rfl⟩

theorem owner_eq (h : Sound cfg t) {e : Written} (he : e ∈ t.journal)
    (howner : t.memory.owner e.ref = some c) : e.call.clientId = c := by
  have hsame := h.clients e he
  rw [howner] at hsame
  exact (Option.some.inj hsame).symm

theorem accounted (h : Sound cfg t) (hids : Function.Injective cfg.idFactory) :
    Accounted cfg t := by
  refine ⟨?_, fun b hb => ?_, fun c ref hget => ⟨?_, fun e he href => ?_, fun b hb => ?_⟩,
    fun e he => ?_⟩
  · have hnames : (t.copied.map Prod.snd).map (·.requestId) =
        (t.copied.map Prod.fst).map cfg.idFactory := by
      rw [List.map_map, List.map_map]
      exact List.map_congr_left fun x hx => (h.copies x hx).2.1
    have hrefs : (t.copied.map Prod.fst).Nodup := by
      have hnodup := h.nodup
      unfold State.places at hnodup
      exact (List.nodup_append.mp hnodup).2.1
    rw [(h.batches.map (·.requestId)).nodup_iff, hnames]
    exact hrefs.map hids
  · obtain ⟨ref, hmem⟩ := h.mem_batches.mp hb
    obtain ⟨howner, hname, hmessages⟩ := h.copies _ hmem
    refine ⟨ref, hname, hmessages, fun e he href => ?_⟩
    subst href
    exact h.owner_eq he howner
  · rw [h.messages ref, h.written_eq (h.fresh_open hget)]
  · subst href
    refine ⟨?_, h.owner_eq he (h.keyed c e.ref hget)⟩
    by_contra hlate
    exact h.fresh_open hget (h.late e he (by simpa using hlate))
  · obtain ⟨ref', hmem⟩ := h.mem_batches.mp hb
    obtain ⟨-, hname, -⟩ := h.copies _ hmem
    intro hsame
    have href : ref' = ref := hids (hname.symm.trans hsame)
    subst href
    exact h.fresh_open hget (List.mem_map_of_mem hmem)
  · have howner := h.clients e he
    have hplace : e.ref ∈ t.places :=
      h.places.mem_iff.mpr (List.mem_range.mpr (Memory.lt_of_owner howner))
    unfold State.places at hplace
    rw [List.append_assoc, List.append_assoc, ← List.append_assoc t.receiver.refs,
      List.mem_append, List.mem_append] at hplace
    rcases hplace with hopen | hhand | hcopied
    · obtain ⟨⟨c, ref⟩, hentry, href⟩ := List.mem_map.mp hopen
      have hget : t.memory.openBuckets.get c = some e.ref := by
        rw [← href]
        exact Dict.get_eq_some.mpr hentry
      rw [h.owner_eq he (h.keyed c e.ref hget)]
      exact .inl hget
    · exact .inr (.inl hhand)
    · obtain ⟨⟨ref, b⟩, hmem, rfl⟩ := List.mem_map.mp hcopied
      exact .inr (.inr ⟨b, h.mem_batches.mpr ⟨_, hmem⟩, (h.copies _ hmem).2.1⟩)

end Sound

/-- **Whatever the schedule, nothing is handed over twice or mixed up.** -/
theorem accounted_run (hids : Function.Injective cfg.idFactory) (moves : List Move) :
    Accounted cfg (run (step cfg) State.initial moves) :=
  (sound_run moves).accounted hids

end sound

namespace Race

open Sample

theorem injective_ids : Function.Injective windows.idFactory :=
  fun _ _ h => Text.repr_injective (String.append_right_inj "r" |>.mp h)

def adding (id : String) (now : Instant) : Adding := ⟨"ana", message id now, now⟩

/-- The worker closes the bucket that `add` has just found to be active. -/
def raced : List Move :=
  .add (adding "m1" 0) :: List.replicate 4 .receiver ++
    [.add (adding "m2" 1), .receiver, .flush (some ["ana"]), .worker, .worker, .worker, .receiver,
      .receiver]

end Race

open Race Sample in
/-- The second message is late: it is in no batch, and there is no open bucket. -/
theorem accounted_run_raced :
    ((run (step windows) State.initial raced).journal.map (·.late) = [false, true] ∧
      (run (step windows) State.initial raced).handed.map (·.messages.length) = [1] ∧
        (run (step windows) State.initial raced).memory.openBuckets.keys = []) ∧
      Accounted windows (run (step windows) State.initial raced) :=
  ⟨⟨by decide +kernel, by decide +kernel, by decide +kernel⟩, accounted_run injective_ids raced⟩

end WappPlanner.Aggregation.Threads
