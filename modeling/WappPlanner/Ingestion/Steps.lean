import WappPlanner.Aggregation.Partition
import WappPlanner.Ingestion.Service

/-! # One message, one bucket

A call accepts messages one after the other, or processes closed buckets one after the other, so what
it keeps is what one acceptance and one processing keep (`acceptAll_inv`).
`AtAccept P` says that `P` holds of every message a call accepts, in the state that accepts it. -/

namespace WappPlanner.Ingestion

open WappPlanner.Aggregation WappPlanner.Domain.Models WappPlanner.Errors
open WappPlanner.Ingestion.Parser WappPlanner.Lib WappPlanner.Lib.Fallible WappPlanner.Lib.Programs
open WappPlanner.Orchestrator WappPlanner.Providers.Base WappPlanner.Py.Text
open WappPlanner.Py.Values

/-! ### What an ingest leaves -/

theorem ingest_messages (cfg : Config) (w : World) (b : Batch) (env : External) :
    (outcome cfg w (.ingest b env)).state.repo.messages =
      Function.update w.repo.messages b.aggregated.requestId b.aggregated.messages := by
  have h := ingest_outcome cfg w b env
  generalize outcome cfg w (.ingest b env) = o at h ⊢
  cases h <;> rfl

theorem ingest_storage (cfg : Config) (w : World) (b : Batch) (env : External) :
    (outcome cfg w (.ingest b env)).state.storage = w.storage := by
  have h := ingest_outcome cfg w b env
  generalize outcome cfg w (.ingest b env) = o at h ⊢
  cases h <;> rfl

/-- The external calls of an ingest answer: the classifier, and the notifiers if there is something
to tell. -/
def Answered (cfg : Config) (b : Batch) (env : External) : Prop :=
  ∃ result, (classification cfg env b).1 = .ok result ∧
    ((result.isActionable = true ∨ cfg.notifyOnNone = true) →
      Succeeds (announce cfg env b result).result)

/-- **When an ingest returns.** -/
theorem succeeds_ingest {cfg : Config} {w : World} {b : Batch} {env : External} :
    Succeeds (outcome cfg w (.ingest b env)).result ↔ Answered cfg b env := by
  have h := ingest_outcome cfg w b env
  generalize outcome cfg w (.ingest b env) = o at h ⊢
  unfold Answered
  cases h with
  | unclassified exc hexc =>
    refine iff_of_false (not_succeeds_error _) ?_
    rintro ⟨result, hresult, -⟩
    rw [hexc] at hresult
    cases hresult
  | silent result hresult ha hn =>
    refine iff_of_true (succeeds_ok _) ⟨result, hresult, fun h => ?_⟩
    rw [ha, hn] at h
    simp at h
  | told result hresult ha =>
    rw [show Succeeds ((announce cfg env b result).result.map fun _ =>
      settledRequest cfg env b result) ↔ _ from succeeds_map]
    constructor
    · exact fun h => ⟨result, hresult, fun _ => h⟩
    · rintro ⟨result', hresult', h⟩
      obtain rfl := Except.ok.inj (hresult.symm.trans hresult')
      exact h ha

namespace IngestionService

variable (service : IngestionService)

/-! ### Processing a bucket -/

/-- **What processing a closed bucket does**: nothing, if its media cannot be read; else the
orchestrator is called with it. -/
theorem process_cases (handling : Handling) (aggregated : AggregatedRequest) (now : Instant)
    (s : State) :
    (∃ exc, mediaFor handling s.world aggregated.messages = .error exc ∧
      service.process handling aggregated now s = (.error exc, s)) ∨
    ∃ media, mediaFor handling s.world aggregated.messages = .ok media ∧
      service.process handling aggregated now s =
        ((outcome service.orchestrator s.world
            (.ingest (batchOf s aggregated media now) handling.env)).result.map fun _ => (),
          s.ingested (batchOf s aggregated media now)
            (outcome service.orchestrator s.world
              (.ingest (batchOf s aggregated media now) handling.env)).state) := by
  unfold process
  cases hmedia : mediaFor handling s.world aggregated.messages with
  | error exc => exact .inl ⟨exc, rfl, rfl⟩
  | ok media => exact .inr ⟨media, rfl, rfl⟩

section process

variable {service : IngestionService} {handling : Handling} {aggregated : AggregatedRequest}
  {now : Instant} {s : State}

/-- A bucket whose media can be read is persisted, whether the orchestrator returns or not. -/
theorem process_messages (h : Succeeds (mediaFor handling s.world aggregated.messages)) :
    (service.process handling aggregated now s).2.world.repo.messages =
      Function.update s.world.repo.messages aggregated.requestId aggregated.messages := by
  rcases service.process_cases handling aggregated now s with ⟨exc, hexc, -⟩ | ⟨media, -, hp⟩
  · rw [hexc] at h
    exact absurd h (not_succeeds_error _)
  · rw [hp]
    exact ingest_messages ..

theorem process_storage :
    (service.process handling aggregated now s).2.world.storage = s.world.storage := by
  rcases service.process_cases handling aggregated now s with ⟨exc, -, hp⟩ | ⟨media, -, hp⟩
  · rw [hp]
  · rw [hp]
    exact ingest_storage ..

/-- Processing does not look at the open buckets. -/
theorem process_withAggregator (aggregator : Aggregator) :
    service.process handling aggregated now (s.withAggregator aggregator) =
      ((service.process handling aggregated now s).1,
        (service.process handling aggregated now s).2.withAggregator aggregator) := by
  unfold process
  rw [show (s.withAggregator aggregator).world = s.world from rfl]
  split <;> rfl

theorem succeeds_process (hmedia : Succeeds (mediaFor handling s.world aggregated.messages))
    (hanswered : ∀ media, mediaFor handling s.world aggregated.messages = .ok media →
      Answered service.orchestrator (batchOf s aggregated media now) handling.env) :
    Succeeds (service.process handling aggregated now s).1 := by
  rcases service.process_cases handling aggregated now s with ⟨exc, hexc, -⟩ | ⟨media, hok, hp⟩
  · rw [hexc] at hmedia
    exact absurd hmedia (not_succeeds_error _)
  · rw [hp]
    exact succeeds_map.mpr (succeeds_ingest.mpr (hanswered media hok))

end process

/-- **What every processing of a closed bucket with `Q` keeps, processing many of them keeps.** -/
theorem processAll_inv {I : State → Prop} {Q : AggregatedRequest → State → Prop}
    {handling : ℕ → Handling} {now : Instant}
    (hstep : ∀ h aggregated s, I s → Q aggregated s → I (service.process h aggregated now s).2)
    (hkeep : ∀ h aggregated other s, Q other s → Q other (service.process h aggregated now s).2) :
    ∀ {n : ℕ} {due : List AggregatedRequest} {s : State}, I s →
      (∀ aggregated ∈ due, Q aggregated s) → I (service.processAll handling now n due s).2
  | _, [], _, hs, _ => hs
  | n, aggregated :: rest, s, hs, hdue => by
    have hone : I (service.process (handling n) aggregated now s).2 :=
      hstep _ _ _ hs (hdue aggregated List.mem_cons_self)
    have hrest : ∀ other ∈ rest, Q other (service.process (handling n) aggregated now s).2 :=
      fun other hother => hkeep _ _ _ _ (hdue other (List.mem_cons_of_mem _ hother))
    rw [processAll]
    rcases hp : service.process (handling n) aggregated now s with ⟨_ | _, s'⟩
    · rw [hp] at hone
      exact hone
    · rw [hp] at hone hrest
      exact processAll_inv hstep hkeep hone hrest

/-- **Where an added message goes**: its bucket is put back, and the bucket it displaces, if there is
one, is processed. -/
theorem addMessage_cases (handling : Handling) (clientId : String) (message : Message)
    (now : Instant) (s : State) :
    service.addMessage handling clientId message now s =
        (.ok (), s.withAggregator (s.aggregator.add service.windows clientId message now).2) ∨
      ∃ bucket, s.aggregator.dueOf service.windows clientId now = some bucket ∧
        service.addMessage handling clientId message now s =
          service.process handling bucket.closed now
            (s.withAggregator (s.aggregator.add service.windows clientId message now).2) := by
  have hemits : (s.aggregator.add service.windows clientId message now).1 =
      (s.aggregator.dueOf service.windows clientId now).map (·.closed) := Aggregator.add_emits
  unfold addMessage
  generalize s.aggregator.add service.windows clientId message now = added at hemits ⊢
  obtain ⟨displaced, aggregator⟩ := added
  cases displaced with
  | none => exact .inl rfl
  | some aggregated =>
    obtain ⟨bucket, hdue, rfl⟩ := Option.map_eq_some_iff.mp hemits.symm
    exact .inr ⟨bucket, hdue, rfl⟩

/-! ### The messages a call accepts -/

variable (P : Instant → State → Handling → ParsedMessage → Prop)

/-- `P` holds of the messages that are accepted, each in the state that accepts it. -/
def AtAcceptAll (handling : ℕ → Handling) (now : Instant) :
    ℕ → List ParsedMessage → State → Prop
  | _, [], _ => True
  | accepted, parsed :: rest, s =>
    if parsed.whatsappId ∈ s.seen then AtAcceptAll handling now accepted rest s
    else P now s (handling accepted) parsed ∧
      match service.accept (handling accepted) parsed now s with
      | (.ok (), s') => AtAcceptAll handling now (accepted + 1) rest s'
      | (.error _, _) => True

/-- `P` holds of the messages that a call accepts. -/
def AtAccept (s : State) : Input → Prop
  | .receive rawBody header now wall handling =>
    match service.messagesOf rawBody header wall with
    | .ok messages => service.AtAcceptAll P handling now 0 messages s
    | .error _ => True
  | .flushDue _ _ => True

variable {service P} {handling : ℕ → Handling} {now : Instant}

/-- **What every acceptance keeps, a call keeps.** -/
theorem acceptAll_inv {I : State → Prop}
    (hstep : ∀ h parsed s, I s → parsed.whatsappId ∉ s.seen → P now s h parsed →
      I (service.accept h parsed now s).2) :
    ∀ {n : ℕ} {messages : List ParsedMessage} {s : State}, I s →
      service.AtAcceptAll P handling now n messages s →
        I (service.acceptAll handling now n messages s).2
  | _, [], _, hs, _ => hs
  | n, parsed :: rest, s, hs, h => by
    rw [AtAcceptAll] at h
    rw [acceptAll]
    by_cases hmem : parsed.whatsappId ∈ s.seen
    · rw [if_pos hmem] at h ⊢
      exact acceptAll_inv hstep hs h
    · rw [if_neg hmem] at h ⊢
      have hs' := hstep (handling n) parsed s hs hmem h.1
      rcases haccept : service.accept (handling n) parsed now s with ⟨_ | _, s'⟩
      · rw [haccept] at hs'
        exact hs'
      · rw [haccept] at h hs'
        exact acceptAll_inv hstep hs' h.2

/-- What every acceptance of a message of a body keeps, receiving the body keeps. -/
theorem acceptAll_keeps {I : State → Prop} : ∀ {n : ℕ} {messages : List ParsedMessage} {s : State},
    (∀ h, ∀ parsed ∈ messages, ∀ s, I s → parsed.whatsappId ∉ s.seen →
      I (service.accept h parsed now s).2) →
        I s → I (service.acceptAll handling now n messages s).2
  | _, [], _, _, hs => hs
  | n, parsed :: rest, s, hstep, hs => by
    have hrest := fun h p hp => hstep h p (List.mem_cons_of_mem _ hp)
    rw [acceptAll]
    by_cases hmem : parsed.whatsappId ∈ s.seen
    · rw [if_pos hmem]
      exact acceptAll_keeps hrest hs
    · rw [if_neg hmem]
      have hs' := hstep (handling n) parsed List.mem_cons_self s hs hmem
      rcases haccept : service.accept (handling n) parsed now s with ⟨_ | _, s'⟩
      · rw [haccept] at hs'
        exact hs'
      · rw [haccept] at hs'
        exact acceptAll_keeps hrest hs'

end IngestionService

end WappPlanner.Ingestion
