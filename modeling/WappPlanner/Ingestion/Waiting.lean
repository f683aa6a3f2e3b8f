import WappPlanner.Ingestion.Steps

/-! # How long a bucket stays open

A bucket is handed over when it is due and not before (`Due`), and a tick leaves no bucket open that is
due. What holds of the open buckets goes on holding, if it is kept by the messages that join a bucket
and by those that open one (`Joinable`); so one invariant, `Windowed`, bounds the waiting from both
sides. -/

namespace WappPlanner.Ingestion

open WappPlanner.Aggregation WappPlanner.Domain.Models WappPlanner.Ingestion.Parser
open WappPlanner.Lib WappPlanner.Orchestrator WappPlanner.Py.Text WappPlanner.Py.Values

/-- The batch had been quiet for the inactivity window, or was as old as the maximum one. -/
def Due (windows : AggregatorConfig) (b : Batch) : Prop :=
  windows.inactivity ≤ b.now - b.aggregated.lastAt ∨
    windows.maxDuration ≤ b.now - b.aggregated.startedAt

/-- Messages that arrive at `now` under ids outside `seen` keep `P`, whether they join a bucket or
open one. -/
structure Joinable (seen : Finset String) (now : Instant) (P : OpenBucket → Prop) : Prop where
  join : ∀ bucket message, P bucket → message.id ∉ seen → P (bucket.append message now)
  opens : ∀ rid clientId (message : Message), message.id ∉ seen →
    P (OpenBucket.append ⟨rid, clientId, now, now, []⟩ message now)

/-- `P` holds of the open buckets, and what was handed over was due. -/
structure Windowed (windows : AggregatorConfig) (P : OpenBucket → Prop) (s : State) : Prop where
  opened : ∀ key bucket, s.aggregator.openBuckets.get key = some bucket → P bucket
  handed : ∀ b ∈ s.handed, Due windows b

theorem due_of_inactive {windows : AggregatorConfig} {bucket : OpenBucket} {now : Instant}
    (h : windows.active bucket now = false) :
    windows.inactivity ≤ now - bucket.lastAt ∨ windows.maxDuration ≤ now - bucket.startedAt := by
  unfold AggregatorConfig.active at h
  simpa only [Bool.and_eq_false_iff, decide_eq_false_iff_not, not_lt] using h

theorem joinable_started {seen : Finset String} {u now : Instant} (hnow : now ≤ u) :
    Joinable seen now fun bucket => bucket.startedAt ≤ u :=
  ⟨fun _ _ h _ => h, fun _ _ _ _ => hnow⟩

theorem joinable_holder {seen : Finset String} {now : Instant} {id : String} (hid : id ∈ seen)
    (began : Instant → Prop) :
    Joinable seen now fun bucket => id ∈ bucket.messages.map (·.id) → began bucket.startedAt := by
  have hother : ∀ message : Message, message.id ∉ seen → id ≠ message.id := by
    rintro message hmessage rfl
    exact hmessage hid
  constructor
  · intro bucket message h hmessage hmem
    refine h ?_
    have hsplit : id ∈ bucket.messages.map (·.id) ∨ id = message.id := by
      simpa [OpenBucket.append] using hmem
    exact hsplit.resolve_right (hother message hmessage)
  · intro rid clientId message hmessage hmem
    have hsame : id = message.id := by simpa [OpenBucket.append] using hmem
    exact absurd hsame (hother message hmessage)

section steps

variable {service : IngestionService} {P : OpenBucket → Prop} {s t : State} {seen : Finset String}
  {now : Instant} {handling : Handling}

theorem Windowed.congr (h : Windowed service.windows P s) (haggregator : t.aggregator = s.aggregator)
    (hhanded : t.handed = s.handed) : Windowed service.windows P t :=
  ⟨haggregator ▸ h.opened, hhanded ▸ h.handed⟩

theorem Windowed.process {bucket : OpenBucket} (h : Windowed service.windows P s)
    (hdue : service.windows.active bucket now = false) :
    Windowed service.windows P (service.process handling bucket.closed now s).2 := by
  rcases service.process_cases handling bucket.closed now s with ⟨exc, -, hp⟩ | ⟨media, -, hp⟩
  · rw [hp]
    exact h
  · rw [hp]
    refine ⟨h.opened, fun b hb => ?_⟩
    rcases List.mem_append.mp hb with hb | hb
    · exact h.handed b hb
    · rw [List.mem_singleton.mp hb]
      exact due_of_inactive hdue

theorem Joinable.joined (hj : Joinable seen now P) {key : String} {message : Message}
    (h : ∀ bucket, s.aggregator.openBuckets.get key = some bucket → P bucket)
    (hid : message.id ∉ seen) : P (s.aggregator.joined service.windows key message now) := by
  unfold Aggregator.joined
  split
  · exact hj.opens _ _ message hid
  · rename_i bucket hb
    split
    · exact hj.join bucket message (h bucket hb) hid
    · exact hj.opens _ _ message hid

theorem Windowed.addMessage {key : String} {message : Message} (h : Windowed service.windows P s)
    (hj : Joinable seen now P) (hid : message.id ∉ seen) :
    Windowed service.windows P (service.addMessage handling key message now s).2 := by
  have hput : Windowed service.windows P
      (s.withAggregator (s.aggregator.add service.windows key message now).2) := by
    refine ⟨fun key' bucket hb => ?_, h.handed⟩
    have hb' : (s.aggregator.add service.windows key message now).2.openBuckets.get key' =
      some bucket := hb
    rw [Aggregator.get_add] at hb'
    split_ifs at hb' with hkey
    · rw [← Option.some.inj hb']
      exact hj.joined (h.opened key) hid
    · exact h.opened key' bucket hb'
  rcases service.addMessage_cases handling key message now s with hadd | ⟨bucket, hdue, hadd⟩
  · rw [hadd]
    exact hput
  · rw [hadd]
    refine hput.process ?_
    simpa using (Option.filter_eq_some_iff.mp hdue).2

theorem Windowed.accept {parsed : ParsedMessage} (h : Windowed service.windows P s)
    (hj : Joinable seen now P) (hid : parsed.whatsappId ∉ seen) :
    Windowed service.windows P (service.accept handling parsed now s).2 := by
  unfold IngestionService.accept
  have hclaimed : Windowed service.windows P ((s.claim parsed).resolved service.registry parsed) :=
    h.congr rfl rfl
  generalize (s.claim parsed).resolved service.registry parsed = s₁ at hclaimed ⊢
  obtain ⟨world, downloads, hdownload⟩ := service.download_eq handling s₁ parsed
  dsimp only
  generalize service.download handling parsed s₁ = downloaded at hdownload ⊢
  obtain ⟨rawRef, s₂⟩ := downloaded
  obtain rfl : s₂ = { s₁ with world := world, downloads := downloads } := hdownload
  have hdownloaded : Windowed service.windows P
      { s₁ with world := world, downloads := downloads } := hclaimed.congr rfl rfl
  cases hmessage : messageOf parsed rawRef with
  | error exc => exact hdownloaded
  | ok message =>
    refine hdownloaded.addMessage hj ?_
    rw [(messageOf_eq hmessage).1]
    exact hid

theorem Windowed.receive {body : Bytes} {header : Option String} {wall : Json → Instant}
    {handling : ℕ → Handling} (h : Windowed service.windows P s) (hj : Joinable s.seen now P) :
    Windowed service.windows P (service.receive body header now wall handling s).2 := by
  unfold IngestionService.receive
  cases service.messagesOf body header wall with
  | error exc => exact h
  | ok messages =>
    refine (IngestionService.acceptAll_keeps
      (I := fun t => Windowed service.windows P t ∧ s.seen ⊆ t.seen) (fun h p _ t ht hp => ⟨?_, ?_⟩)
      ⟨h, Finset.Subset.refl _⟩).1
    · exact ht.1.accept hj fun hmem => hp (ht.2 hmem)
    · rw [IngestionService.accept_seen]
      exact ht.2.trans (Finset.subset_insert _ _)

/-- **A tick leaves the buckets open that are still active**, whatever it raises. -/
theorem Windowed.flushDue {handling : ℕ → Handling} (h : Windowed service.windows P s) :
    Windowed service.windows (fun bucket => P bucket ∧ service.windows.active bucket now = true)
      (service.flushDue now handling s).2 := by
  unfold IngestionService.flushDue
  refine service.processAll_inv
    (Q := fun aggregated _ => ∃ bucket : OpenBucket, aggregated = bucket.closed ∧
      service.windows.active bucket now = false) ?_ (fun _ _ _ _ hbucket => hbucket) ?_ ?_
  · rintro handling' - t ht ⟨bucket, rfl, hdue⟩
    exact ht.process hdue
  · refine ⟨fun key bucket hb => ?_, h.handed⟩
    have hb' : (s.aggregator.flushDue service.windows now).2.openBuckets.get key = some bucket := hb
    rw [Aggregator.get_flushDue] at hb'
    obtain ⟨hopen, hactive⟩ := Option.filter_eq_some_iff.mp hb'
    exact ⟨h.opened key bucket hopen, hactive⟩
  · intro aggregated haggregated
    obtain ⟨e, he, rfl⟩ := List.mem_map.mp haggregated
    exact ⟨e.2, rfl, by simpa using (List.mem_filter.mp he).2⟩

end steps

end WappPlanner.Ingestion
