import WappPlanner.Ingestion.Steps
import WappPlanner.Lib.Placement
import WappPlanner.Lib.Runs

/-! # Claimed messages are held

A message id is claimed before its message is built, and a bucket is popped before its messages are
persisted, so what raises in between loses them. As long as nothing does (`NothingDropped`), every
claimed id is held exactly once, in an open bucket or by a request (`held_once_run`): the two moves of
the code, into a bucket and from a bucket to its request, keep the placement exact. -/

namespace WappPlanner.Ingestion

open WappPlanner.Aggregation WappPlanner.Domain.Models WappPlanner.Errors
open WappPlanner.Ingestion.Parser WappPlanner.Lib WappPlanner.Lib.Fallible
open WappPlanner.Lib.Placement WappPlanner.Lib.Runs WappPlanner.Orchestrator
open WappPlanner.Persistence.InMemory WappPlanner.Providers.Base WappPlanner.Py.Text
open WappPlanner.Py.Values

/-- Where a message is held. -/
inductive Place
  | bucket (clientId : String)
  | request (requestId : String)
  deriving DecidableEq

/-- The ids held at a place: by the open bucket of a client, or as the messages of a request. -/
def State.held (s : State) : Place → List String
  | .bucket clientId =>
    match s.aggregator.openBuckets.get clientId with
    | some bucket => bucket.messages.map (·.id)
    | none => []
  | .request requestId => (s.world.repo.messages requestId).map (·.id)

/-- The stored media of the messages can be read. -/
def Readable (handling : Handling) (messages : List Message) : Prop :=
  ∀ m ∈ messages, m.isMedia = true → ∀ key, m.rawRef = some key → handling.get key = .ok ()

section durability

variable (service : IngestionService)

/-- The message can be built, and the stored media of the bucket it displaces can be read. -/
def Kept (now : Instant) (s : State) (handling : Handling) (parsed : ParsedMessage) : Prop :=
  parsed.Valid ∧ ∀ bucket,
    s.aggregator.dueOf service.windows (service.registry.resolve parsed.sender).1 now = some bucket →
      Readable handling bucket.messages

/-- The stored media of all requests can be read, and the external calls of all but the last one
answer. -/
def AllKept (now : Instant) (s : State) (handling : ℕ → Handling) :
    ℕ → List AggregatedRequest → Prop
  | _, [] => True
  | n, aggregated :: rest => Readable (handling n) aggregated.messages ∧
    (rest ≠ [] → ∀ media,
      IngestionService.mediaFor (handling n) s.world aggregated.messages = .ok media →
        Answered service.orchestrator (IngestionService.batchOf s aggregated media now)
          (handling n).env) ∧
    AllKept now s handling (n + 1) rest

/-- No claimed message and no popped bucket meets what raises before it is persisted. -/
def NothingDropped (s : State) (input : Input) : Prop :=
  service.AtAccept (Kept service) s input ∧
    match input with
    | .receive .. => True
    | .flushDue now handling =>
      AllKept service now s handling 0 (s.aggregator.flushDue service.windows now).1

/-- **The ids of `X` are held**, each once. An open bucket has an issued request id of its own, under
which nothing is persisted yet, and the stored media of its messages are in the storage. -/
structure Holding (X : Finset String) (s : State) : Prop where
  exact : Exact s.held X
  keyed : s.aggregator.Keyed
  issued : ∀ key bucket, s.aggregator.openBuckets.get key = some bucket →
    (∃ i < s.aggregator.issued, bucket.requestId = service.windows.idFactory i) ∧
      s.world.repo.messages bucket.requestId = []
  requestIds : ∀ key key' bucket bucket', s.aggregator.openBuckets.get key = some bucket →
    s.aggregator.openBuckets.get key' = some bucket' →
      bucket.requestId = bucket'.requestId → key = key'
  unissued : ∀ i, s.aggregator.issued ≤ i →
    s.world.repo.messages (service.windows.idFactory i) = []
  stored : ∀ key bucket, s.aggregator.openBuckets.get key = some bucket →
    ∀ m ∈ bucket.messages, ∀ k, m.rawRef = some k → (s.world.storage k).isSome

variable {service} {s s' : State} {X : Finset String} {handling : Handling} {now : Instant}

/-! ### What succeeds -/

theorem Readable.succeeds {messages : List Message} {w : World} (h : Readable handling messages)
    (hstored : ∀ m ∈ messages, ∀ k, m.rawRef = some k → (w.storage k).isSome) :
    Succeeds (IngestionService.mediaFor handling w messages) := by
  unfold IngestionService.mediaFor
  rw [succeeds_bind]
  obtain ⟨media, hmedia⟩ : Succeeds (messages.mapM (IngestionService.mediaOf handling w)) := by
    refine succeeds_mapM.mpr fun m hm => ?_
    unfold IngestionService.mediaOf
    split
    · rename_i key hmedia hkey
      obtain ⟨object, hobject⟩ := Option.isSome_iff_exists.mp (hstored m hm key hkey)
      have hget : IngestionService.storageGet handling w key = .ok object.1 := by
        unfold IngestionService.storageGet
        rw [h m hm hmedia key hkey, hobject]
      rw [hget]
      exact succeeds_ok _
    · exact succeeds_ok _
  exact ⟨media, hmedia, succeeds_ok _⟩

theorem mediaFor_congr {w w' : World} (h : w'.storage = w.storage) (messages : List Message) :
    IngestionService.mediaFor handling w' messages =
      IngestionService.mediaFor handling w messages := by
  unfold IngestionService.mediaFor IngestionService.mediaOf IngestionService.storageGet
  rw [h]

/-! ### The two moves -/

theorem Holding.congr (h : Holding service X s) (haggregator : s'.aggregator = s.aggregator)
    (hmessages : s'.world.repo.messages = s.world.repo.messages)
    (hstorage : ∀ k, (s.world.storage k).isSome → (s'.world.storage k).isSome) :
    Holding service X s' := by
  have hheld : s'.held = s.held := by
    funext place
    cases place <;> simp only [State.held, haggregator, hmessages]
  refine ⟨hheld ▸ h.exact, haggregator ▸ h.keyed, ?_, ?_, ?_, ?_⟩
  · rw [haggregator, hmessages]
    exact h.issued
  · rw [haggregator]
    exact h.requestIds
  · rw [haggregator, hmessages]
    exact h.unissued
  · rw [haggregator]
    exact fun key bucket hb m hm k hk => hstorage k (h.stored key bucket hb m hm k hk)

/-- **A bucket becomes a request.** -/
theorem Holding.close {key : String} {bucket : OpenBucket}
    (hids : Function.Injective service.windows.idFactory) (h : Holding service X s)
    (hb : s.aggregator.openBuckets.get key = some bucket)
    (hread : Readable handling bucket.messages) :
    Holding service X (service.process handling bucket.closed now
      (s.withAggregator (s.aggregator.dropBucket key))).2 := by
  have haggregator : (service.process handling bucket.closed now
      (s.withAggregator (s.aggregator.dropBucket key))).2.aggregator =
        s.aggregator.dropBucket key := IngestionService.process_aggregator ..
  have hmessages : (service.process handling bucket.closed now
      (s.withAggregator (s.aggregator.dropBucket key))).2.world.repo.messages =
        Function.update s.world.repo.messages bucket.requestId bucket.messages :=
    IngestionService.process_messages (hread.succeeds (h.stored key bucket hb))
  have hstorage : (service.process handling bucket.closed now
      (s.withAggregator (s.aggregator.dropBucket key))).2.world.storage = s.world.storage :=
    IngestionService.process_storage
  generalize (service.process handling bucket.closed now
    (s.withAggregator (s.aggregator.dropBucket key))).2 = s' at haggregator hmessages hstorage ⊢
  have hget : ∀ key', s'.aggregator.openBuckets.get key' =
      if key' = key then none else s.aggregator.openBuckets.get key' := by
    intro key'
    rw [haggregator]
    exact Dict.get_erase
  obtain ⟨⟨i, hi, hrid⟩, hempty⟩ := h.issued key bucket hb
  have hheld : s'.held = Function.update (Function.update s.held (.bucket key) [])
      (.request bucket.requestId) (s.held (.bucket key)) := by
    funext place
    cases place with
    | bucket key' =>
      rw [Function.update_of_ne (by simp)]
      by_cases hkey : key' = key
      · subst hkey
        rw [Function.update_self, State.held, hget, if_pos rfl]
      · rw [Function.update_of_ne (by simp [hkey])]
        simp only [State.held, hget, if_neg hkey]
    | request rid =>
      by_cases hsame : rid = bucket.requestId
      · subst hsame
        rw [Function.update_self]
        simp only [State.held, hmessages, Function.update_self, hb]
      · rw [Function.update_of_ne (by simp [hsame]), Function.update_of_ne (by simp)]
        simp only [State.held, hmessages, Function.update_of_ne hsame]
  have hopen : ∀ {key' bucket'}, s'.aggregator.openBuckets.get key' = some bucket' →
      key' ≠ key ∧ s.aggregator.openBuckets.get key' = some bucket' := by
    intro key' bucket' hb'
    rw [hget] at hb'
    split_ifs at hb' with hkey
    exact ⟨hkey, hb'⟩
  refine ⟨?_, ?_, fun key' bucket' hb' => ?_, fun key' key'' b b' hb' hb'' hsame => ?_,
    fun j hj => ?_, fun key' bucket' hb' m hm k hk => ?_⟩
  · rw [hheld]
    refine h.exact.move (by simp) ?_
    rw [State.held, hempty]
    rfl
  · rw [haggregator]
    exact fun e he => h.keyed e (Dict.mem_erase.mp he).1
  · obtain ⟨hne, hb'⟩ := hopen hb'
    obtain ⟨hissued, hnone⟩ := h.issued key' bucket' hb'
    rw [haggregator, hmessages, Function.update_of_ne]
    · exact ⟨hissued, hnone⟩
    · exact fun hsame => hne (h.requestIds key' key bucket' bucket hb' hb hsame)
  · exact h.requestIds key' key'' b b' (hopen hb').2 (hopen hb'').2 hsame
  · rw [haggregator] at hj
    have hj' : s.aggregator.issued ≤ j := hj
    rw [hmessages, Function.update_of_ne, h.unissued j hj]
    intro hsame
    have hij : j = i := hids (hsame.trans hrid)
    omega
  · rw [hstorage]
    exact h.stored key' bucket' (hopen hb').2 m hm k hk

/-- **A message joins a bucket**: the open one of its key, or a new one under a new request id. -/
theorem Holding.grow {key : String} {bucket : OpenBucket} {message : Message}
    {aggregator : Aggregator} (hids : Function.Injective service.windows.idFactory)
    (h : Holding service X s) (hnew : message.id ∉ X)
    (hget : ∀ key', aggregator.openBuckets.get key' =
      if key' = key then some bucket else s.aggregator.openBuckets.get key')
    (hkeyed : aggregator.Keyed)
    (hheld : bucket.messages.map (·.id) = s.held (.bucket key) ++ [message.id])
    (hrid : (∃ old, s.aggregator.openBuckets.get key = some old ∧
        bucket.requestId = old.requestId ∧ aggregator.issued = s.aggregator.issued) ∨
      s.aggregator.openBuckets.get key = none ∧
        bucket.requestId = service.windows.idFactory s.aggregator.issued ∧
        aggregator.issued = s.aggregator.issued + 1)
    (hstored : ∀ m ∈ bucket.messages, ∀ k, m.rawRef = some k → (s.world.storage k).isSome) :
    Holding service (insert message.id X) (s.withAggregator aggregator) := by
  have hle : s.aggregator.issued ≤ aggregator.issued := by
    rcases hrid with ⟨-, -, -, hissued⟩ | ⟨-, -, hissued⟩ <;> omega
  have hplaces : (s.withAggregator aggregator).held =
      Function.update s.held (.bucket key) (s.held (.bucket key) ++ [message.id]) := by
    funext place
    cases place with
    | bucket key' =>
      by_cases hkey : key' = key
      · subst hkey
        rw [Function.update_self, ← hheld]
        simp only [State.held, State.withAggregator, hget, if_true]
      · rw [Function.update_of_ne (by simp [hkey])]
        simp only [State.held, State.withAggregator, hget, if_neg hkey]
    | request rid =>
      rw [Function.update_of_ne (by simp)]
      rfl
  -- the request id of the bucket is that of no other bucket
  have hother : ∀ key' bucket', key' ≠ key →
      s.aggregator.openBuckets.get key' = some bucket' → bucket'.requestId ≠ bucket.requestId := by
    intro key' bucket' hne hb' hsame
    rcases hrid with ⟨old, hold, hbucket, -⟩ | ⟨-, hbucket, -⟩
    · exact hne (h.requestIds key' key bucket' old hb' hold (hsame.trans hbucket))
    · obtain ⟨⟨i, hi, hrid⟩, -⟩ := h.issued key' bucket' hb'
      have heq := hids (hrid.symm.trans (hsame.trans hbucket))
      omega
  have hopen : ∀ {key' bucket'}, aggregator.openBuckets.get key' = some bucket' →
      key' = key ∧ bucket' = bucket ∨
        key' ≠ key ∧ s.aggregator.openBuckets.get key' = some bucket' := by
    intro key' bucket' hb'
    rw [hget] at hb'
    split_ifs at hb' with hkey
    · exact .inl ⟨hkey, (Option.some.inj hb').symm⟩
    · exact .inr ⟨hkey, hb'⟩
  refine ⟨?_, hkeyed, fun key' bucket' hb' => ?_, fun key' key'' b b' hb' hb'' hsame => ?_,
    fun i hi => h.unissued i (hle.trans hi), fun key' bucket' hb' m hm k hk => ?_⟩
  · rw [hplaces]
    exact h.exact.push hnew _
  · rcases hopen hb' with ⟨-, rfl⟩ | ⟨-, hb'⟩
    · rcases hrid with ⟨old, hold, hbucket, hissued⟩ | ⟨-, hbucket, hissued⟩
      · obtain ⟨⟨i, hi, hrid⟩, hnone⟩ := h.issued key old hold
        rw [hbucket]
        exact ⟨⟨i, hi.trans_le hle, hrid⟩, hnone⟩
      · rw [hbucket]
        refine ⟨⟨_, ?_, rfl⟩, h.unissued _ le_rfl⟩
        exact hissued ▸ Nat.lt_succ_self _
    · obtain ⟨⟨i, hi, hrid⟩, hnone⟩ := h.issued key' bucket' hb'
      exact ⟨⟨i, hi.trans_le hle, hrid⟩, hnone⟩
  · rcases hopen hb' with ⟨rfl, rfl⟩ | ⟨hne, hb'⟩
    · rcases hopen hb'' with ⟨rfl, -⟩ | ⟨hne', hb''⟩
      · rfl
      · exact absurd hsame.symm (hother key'' b' hne' hb'')
    · rcases hopen hb'' with ⟨rfl, rfl⟩ | ⟨-, hb''⟩
      · exact absurd hsame (hother key' b hne hb')
      · exact h.requestIds key' key'' b b' hb' hb'' hsame
  · rcases hopen hb' with ⟨-, rfl⟩ | ⟨-, hb'⟩
    · exact hstored m hm k hk
    · exact h.stored key' bucket' hb' m hm k hk

/-! ### Accepted messages -/

section accept

variable {message : Message} {key : String}

theorem Holding.start (hids : Function.Injective service.windows.idFactory)
    (h : Holding service X s) (hnew : message.id ∉ X)
    (hnone : s.aggregator.openBuckets.get key = none)
    (hstored : ∀ k, message.rawRef = some k → (s.world.storage k).isSome) :
    Holding service (insert message.id X)
      (s.withAggregator (s.aggregator.startBucket service.windows key message now)) := by
  have hadd : (s.aggregator.add service.windows key message now).2 =
      s.aggregator.startBucket service.windows key message now := by
    rw [Aggregator.add_none hnone]
    rfl
  refine h.grow hids hnew (fun key' => Dict.get_set) (hadd ▸ h.keyed.add) ?_
    (.inr ⟨hnone, rfl, rfl⟩) fun m hm k hk => ?_
  · rw [State.held, hnone]
    rfl
  · rw [List.mem_singleton.mp hm] at hk
    exact hstored k hk

/-- **Where an added message goes**, and the bucket that it displaces. -/
theorem Holding.addMessage (hids : Function.Injective service.windows.idFactory)
    (h : Holding service X s) (hnew : message.id ∉ X)
    (hread : ∀ bucket, s.aggregator.dueOf service.windows key now = some bucket →
      Readable handling bucket.messages)
    (hstored : ∀ k, message.rawRef = some k → (s.world.storage k).isSome) :
    Holding service (insert message.id X)
      (service.addMessage handling key message now s).2 := by
  unfold IngestionService.addMessage
  cases hb : s.aggregator.openBuckets.get key with
  | none =>
    rw [Aggregator.add_none hb]
    exact h.start hids hnew hb hstored
  | some bucket =>
    cases hactive : service.windows.active bucket now with
    | true =>
      have hkeyed : (s.aggregator.add service.windows key message now).2.Keyed := h.keyed.add
      rw [Aggregator.add_active hb hactive] at hkeyed ⊢
      refine h.grow hids hnew (fun key' => Dict.get_set) hkeyed ?_
        (.inl ⟨bucket, hb, rfl, rfl⟩) fun m hm k hk => ?_
      · rw [State.held, hb]
        simp [OpenBucket.append]
      · rcases List.mem_append.mp hm with hm | hm
        · exact h.stored key bucket hb m hm k hk
        · rw [List.mem_singleton.mp hm] at hk
          exact hstored k hk
    | false =>
      have hdue : s.aggregator.dueOf service.windows key now = some bucket := by
        rw [Aggregator.dueOf, hb]
        simp [Option.filter, hactive]
      have hclosed : Holding service X (service.process handling bucket.closed now
          (s.withAggregator (s.aggregator.dropBucket key))).2 := h.close hids hb (hread bucket hdue)
      have hdrop : (service.process handling bucket.closed now
          (s.withAggregator (s.aggregator.dropBucket key))).2.aggregator =
            s.aggregator.dropBucket key := IngestionService.process_aggregator ..
      have hstorage : (service.process handling bucket.closed now
          (s.withAggregator (s.aggregator.dropBucket key))).2.world.storage = s.world.storage :=
        IngestionService.process_storage
      -- the new bucket is opened first, but processing the old one does not see it
      have hprocess : service.process handling bucket.closed now (s.withAggregator
          ((s.aggregator.dropBucket key).startBucket service.windows key message now)) = _ :=
        IngestionService.process_withAggregator (s := s.withAggregator
          (s.aggregator.dropBucket key)) _
      rw [Aggregator.add_due hb hactive]
      change Holding service _ (service.process handling bucket.closed now (s.withAggregator
        ((s.aggregator.dropBucket key).startBucket service.windows key message now))).2
      rw [hprocess]
      generalize (service.process handling bucket.closed now
        (s.withAggregator (s.aggregator.dropBucket key))).2 = t at hclosed hdrop hstorage ⊢
      rw [← hdrop]
      refine hclosed.start hids hnew ?_ fun k hk => ?_
      · rw [hdrop]
        exact Dict.get_erase.trans (if_pos rfl)
      · rw [hstorage]
        exact hstored k hk

/-- **An accepted message is held.** -/
theorem Holding.accept {parsed : ParsedMessage}
    (hids : Function.Injective service.windows.idFactory) (h : Holding service s.seen s)
    (hnew : parsed.whatsappId ∉ s.seen) (hkept : Kept service now s handling parsed) :
    Holding service (service.accept handling parsed now s).2.seen
      (service.accept handling parsed now s).2 := by
  obtain ⟨hvalid, hread⟩ := hkept
  rw [IngestionService.accept_seen]
  unfold IngestionService.accept
  have hclaimed : Holding service s.seen ((s.claim parsed).resolved service.registry parsed) :=
    h.congr rfl rfl fun _ hk => hk
  have haggregator : ((s.claim parsed).resolved service.registry parsed).aggregator =
    s.aggregator := rfl
  generalize (s.claim parsed).resolved service.registry parsed = s₁ at hclaimed haggregator ⊢
  have hdownload : (service.download handling parsed s₁).2.aggregator = s₁.aggregator :=
    IngestionService.download_aggregator ..
  have hworld := service.download_world handling s₁ parsed
  have hstored : ∀ key, (service.download handling parsed s₁).1 = some key →
      ((service.download handling parsed s₁).2.world.storage key).isSome := fun _ hkey =>
    service.download_stored handling s₁ parsed hkey
  dsimp only
  generalize service.download handling parsed s₁ = downloaded at hdownload hworld hstored ⊢
  obtain ⟨rawRef, s₂⟩ := downloaded
  have hdownloaded : Holding service s.seen s₂ := by
    rcases hworld with hworld | ⟨key, content, mime, hworld⟩
    · refine hclaimed.congr hdownload ?_ fun k hk => ?_
      · rw [hworld]
      · rw [hworld]
        exact hk
    · refine hclaimed.congr hdownload ?_ fun k hk => ?_
      · rw [hworld]
        rfl
      · rw [hworld]
        simp only [World.stored, Function.update_apply]
        split
        · rfl
        · exact hk
  obtain ⟨message, hmessage⟩ : Succeeds (messageOf parsed rawRef) :=
    succeeds_messageOf.mpr hvalid
  obtain ⟨hid, href⟩ := messageOf_eq hmessage
  dsimp only
  rw [hmessage, ← hid]
  refine hdownloaded.addMessage hids (hid ▸ hnew) ?_ fun k hk => ?_
  · rw [hdownload, haggregator]
    exact hread
  · exact hstored k (href ▸ hk)

end accept

/-! ### Calls -/

section calls

variable {handling : ℕ → Handling}

theorem AllKept.congr {handling : ℕ → Handling} {t : State}
    (hworld : t.world.storage = s.world.storage) (hnames : t.names = s.names)
    (hknown : t.known = s.known) : ∀ {n : ℕ} {due : List AggregatedRequest},
      AllKept service now s handling n due → AllKept service now t handling n due
  | _, [], _ => trivial
  | n, aggregated :: rest, ⟨hread, hanswered, hrest⟩ => by
    refine ⟨hread, fun hne media hmedia => ?_, AllKept.congr hworld hnames hknown hrest⟩
    have hbatch : IngestionService.batchOf t aggregated media now =
        IngestionService.batchOf s aggregated media now := by
      unfold IngestionService.batchOf
      rw [hnames, hknown]
    rw [hbatch]
    exact hanswered hne media (mediaFor_congr hworld _ ▸ hmedia)

/-- **Popped buckets are persisted**, one after the other. -/
theorem Holding.processAll (hids : Function.Injective service.windows.idFactory) :
    ∀ {n : ℕ} {due : List (String × OpenBucket)} {s : State}, Holding service X s →
      (∀ e ∈ due, s.aggregator.openBuckets.get e.1 = some e.2) → (due.map Prod.fst).Nodup →
        AllKept service now s handling n (due.map fun e => e.2.closed) →
          Holding service X (service.processAll handling now n (due.map fun e => e.2.closed)
            (s.withAggregator (due.foldl (fun agg e => agg.dropBucket e.1) s.aggregator))).2
  | _, [], _, h, _, _, _ => h
  | n, (key, bucket) :: rest, s, h, hopen, hnodup, ⟨hread, hanswered, hrest⟩ => by
    have hb : s.aggregator.openBuckets.get key = some bucket := hopen _ List.mem_cons_self
    have hclosed : Holding service X (service.process (handling n) bucket.closed now
        (s.withAggregator (s.aggregator.dropBucket key))).2 := h.close hids hb hread
    have haggregator : (service.process (handling n) bucket.closed now
        (s.withAggregator (s.aggregator.dropBucket key))).2.aggregator =
          s.aggregator.dropBucket key := IngestionService.process_aggregator ..
    have hkept : AllKept service now (service.process (handling n) bucket.closed now
        (s.withAggregator (s.aggregator.dropBucket key))).2 handling (n + 1)
          (rest.map fun e => e.2.closed) := by
      refine hrest.congr ?_ ?_ ?_
      · rw [IngestionService.process_storage]
        rfl
      · rw [IngestionService.process_names]
        rfl
      · rw [IngestionService.process_known]
        rfl
    have hresult : rest ≠ [] → Succeeds (service.process (handling n) bucket.closed now
        (s.withAggregator (s.aggregator.dropBucket key))).1 := fun hne =>
      IngestionService.succeeds_process (hread.succeeds (h.stored key bucket hb))
        (hanswered (by simpa using hne))
    have hprocess : service.process (handling n) bucket.closed now (s.withAggregator
        (rest.foldl (fun agg e => agg.dropBucket e.1) (s.aggregator.dropBucket key))) = _ :=
      IngestionService.process_withAggregator (s := s.withAggregator
        (s.aggregator.dropBucket key)) _
    rw [List.map_cons, List.foldl_cons, IngestionService.processAll, hprocess]
    generalize service.process (handling n) bucket.closed now
      (s.withAggregator (s.aggregator.dropBucket key)) = processed
        at hclosed haggregator hkept hresult ⊢
    obtain ⟨result, t⟩ := processed
    rw [← haggregator]
    rw [List.map_cons, List.nodup_cons] at hnodup
    cases result with
    | ok =>
      refine hclosed.processAll hids (fun e he => ?_) hnodup.2 hkept
      have hne : e.1 ≠ key := fun heq => hnodup.1 (List.mem_map.mpr ⟨e, he, heq⟩)
      rw [haggregator]
      exact Dict.get_erase.trans ((if_neg hne).trans (hopen e (List.mem_cons_of_mem _ he)))
    | error exc =>
      have hnil : rest = [] := by
        by_contra hne
        exact not_succeeds_error _ (hresult hne)
      subst hnil
      exact hclosed

theorem Holding.flushDue (hids : Function.Injective service.windows.idFactory)
    (h : Holding service X s)
    (hkept : AllKept service now s handling 0 (s.aggregator.flushDue service.windows now).1) :
    Holding service X (service.flushDue now handling s).2 := by
  refine h.processAll hids (fun e he => ?_) ?_ hkept
  · exact Dict.get_eq_some.mpr (List.mem_filter.mp he).1
  · exact (List.filter_sublist.map Prod.fst).nodup s.aggregator.openBuckets.nodup

theorem Holding.step {input : Input} (hids : Function.Injective service.windows.idFactory)
    (h : Holding service s.seen s) (hkept : NothingDropped service s input) :
    Holding service (service.step s input).seen (service.step s input) := by
  obtain ⟨haccept, hdue⟩ := hkept
  cases input with
  | flushDue now handling =>
    have hflushed := h.flushDue hids hdue
    rw [← IngestionService.flushDue_seen] at hflushed
    exact hflushed
  | receive rawBody header now wall handling =>
    unfold IngestionService.step IngestionService.answer IngestionService.receive
    unfold IngestionService.AtAccept at haccept
    dsimp only at haccept ⊢
    cases hmessages : service.messagesOf rawBody header wall with
    | error exc => exact h
    | ok messages =>
      rw [hmessages] at haccept
      exact IngestionService.acceptAll_inv (I := fun s => Holding service s.seen s)
        (fun _ _ _ hs hnew hp => hs.accept hids hnew hp) h haccept

theorem Holding.initial : Holding service State.initial.seen State.initial where
  exact := exact_empty fun place => by cases place <;> rfl
  keyed _ h := by cases h
  issued _ _ h := by cases h
  requestIds _ _ _ _ h := by cases h
  unissued _ _ := rfl
  stored _ _ h := by cases h

end calls

/-- **No accepted message is lost or duplicated**, in a run where nothing is dropped: each claimed id
is held exactly once, by one open bucket or as a message of one request. -/
theorem held_once_run (service : IngestionService)
    (hids : Function.Injective service.windows.idFactory) (cs : List Input)
    (h : Along service.step (NothingDropped service) State.initial cs) :
    ∀ id ∈ (run service.step State.initial cs).seen,
      Once (run service.step State.initial cs).held id := by
  have hinv : Holding service (run service.step State.initial cs).seen
      (run service.step State.initial cs) :=
    run_inv (I := fun s => Holding service s.seen s) (fun _ _ hs hp => hs.step hids hp)
      Holding.initial h
  exact fun id hid => hinv.exact.once hid

end durability

/-! ### A storage that fails once -/

namespace Sample

open Orchestrator.Sample

/-- A photo with an id and a sender. -/
def photoMessage (id sender : String) : Json :=
  .obj [("id", .str id), ("from", .str sender), ("timestamp", .int 1781179200),
    ("type", .str "image"),
    ("image", .obj [("id", .str "media-1"), ("mime_type", .str "image/jpeg")])]

def parsedPhoto : ParsedMessage :=
  ⟨"wamid.1", "15551230000", none, .image, seconds 1781179200, .null, .null, .str "media-1",
    .str "image/jpeg", .null⟩

/-- A service that receives photos. -/
def photoService : IngestionService :=
  service [("photo", webhook [photoMessage "wamid.1" "15551230000"])]

/-- A photo, and a tick after its window, with what the storage answers to reads then. -/
def photographed (get : String → Answer Unit) : List Input :=
  [received "photo" start, .flushDue (start + seconds 600) fun _ =>
    { handling with get := get, env := external (classifierText .none) }]

theorem messagesOf_photo : photoService.messagesOf (utf8 "photo") (signed "photo")
    (fun _ => start) = .ok [parsedPhoto] :=
  messagesOf_signed (P := webhook [photoMessage "wamid.1" "15551230000"])
    (R := ⟨[parsedPhoto], []⟩) rfl rfl rfl

/-- The photo in its bucket. -/
def photoOpen : State :=
  (photoService.acceptAll (fun _ => handling) start 0 [parsedPhoto] State.initial).2

theorem step_photo : photoService.step State.initial (received "photo" start) = photoOpen := by
  have h : photoService.answer State.initial (received "photo" start) =
      photoService.acceptAll (fun _ => handling) start 0 [parsedPhoto] State.initial :=
    answer_received (P := webhook [photoMessage "wamid.1" "15551230000"])
      (R := ⟨[parsedPhoto], []⟩) rfl rfl rfl State.initial
  rw [IngestionService.step, h]
  rfl

/-- The state after a tick at which the storage cannot be read. -/
def photoLost : State :=
  (photoService.flushDue (start + seconds 600) (fun _ =>
    { handling with
      get := fun _ => .error "storage unavailable"
      env := external (classifierText .none) }) photoOpen).2

theorem idFactory_injective : Function.Injective photoService.windows.idFactory :=
  fun _ _ h => Text.repr_injective (String.append_right_inj "req-" |>.mp h)

end Sample

open Sample Orchestrator.Sample in
/-- The storage fails once, and the photo is nowhere. -/
theorem photo_lost :
    ¬∀ id ∈ (run photoService.step State.initial
        (photographed fun _ => .error "storage unavailable")).seen,
      Once (run photoService.step State.initial
        (photographed fun _ => .error "storage unavailable")).held id := by
  have hrun : run photoService.step State.initial
      (photographed fun _ => .error "storage unavailable") = photoLost := by
    rw [photographed, run_cons, run_cons, run_nil, step_photo]
    rfl
  rw [hrun]
  intro h
  obtain ⟨place, hone, -⟩ := h "wamid.1" (by decide +kernel)
  have hmem : "wamid.1" ∈ photoLost.held place := List.count_pos_iff.mp (by omega)
  cases place with
  | bucket key =>
    have hclosed : photoLost.aggregator.openBuckets.entries.isEmpty := by decide +kernel
    have hnone : photoLost.aggregator.openBuckets.get key = none := by
      rw [Dict.get, List.isEmpty_iff.mp hclosed]
      rfl
    rw [State.held, hnone] at hmem
    cases hmem
  | request rid =>
    have hempty : photoLost.world.repo.messages rid = [] := rfl
    rw [State.held, hempty] at hmem
    cases hmem

set_option linter.constructorNameAsVariable false in
open Sample Orchestrator.Sample in
/-- The storage answers, and the photo ends up in its request. -/
theorem held_once_run_photo :
    Once (run photoService.step State.initial (photographed fun _ => .ok ())).held "wamid.1" := by
  have hreceived : NothingDropped photoService State.initial (received "photo" start) := by
    unfold NothingDropped IngestionService.AtAccept received
    dsimp only
    rw [messagesOf_photo]
    refine ⟨?_, trivial⟩
    dsimp only
    rw [IngestionService.AtAcceptAll,
      if_neg (show parsedPhoto.whatsappId ∉ State.initial.seen from Finset.notMem_empty _)]
    refine ⟨⟨by unfold Parser.ParsedMessage.Valid; decide, fun bucket hdue => ?_⟩, ?_⟩
    · cases hdue
    · split <;> trivial
  have hlength : (photoOpen.aggregator.flushDue photoService.windows
      (start + seconds 600)).1.length = 1 := by
    decide +kernel
  have hticked : NothingDropped photoService (photoService.step State.initial (received "photo" start))
      (.flushDue (start + seconds 600) fun _ =>
        { handling with get := fun _ => .ok (), env := external (classifierText .none) }) := by
    rw [step_photo]
    refine ⟨trivial, ?_⟩
    dsimp only
    generalize (photoOpen.aggregator.flushDue photoService.windows _).1 = due at hlength ⊢
    obtain ⟨aggregated, rfl⟩ := List.length_eq_one_iff.mp hlength
    exact ⟨fun _ _ _ _ _ => rfl, fun hne => absurd rfl hne, trivial⟩
  have hclaimed : "wamid.1" ∈
      (run photoService.step State.initial (photographed fun _ => .ok ())).seen := by
    rw [photographed, run_cons, run_cons, run_nil, step_photo]
    apply Finset.mem_of_subset (IngestionService.subset_step photoOpen _)
    decide +kernel
  have hrun := held_once_run photoService idFactory_injective (photographed fun _ => .ok ())
    ⟨hreceived, hticked, trivial⟩
  -- no evaluation of the run
  generalize run photoService.step State.initial (photographed fun _ => .ok ()) = s
    at hrun hclaimed ⊢
  exact hrun "wamid.1" hclaimed

end WappPlanner.Ingestion
