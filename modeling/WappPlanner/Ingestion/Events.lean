import WappPlanner.Ingestion.Archive
import WappPlanner.Ingestion.AtMostOnce

/-! # What a call of the service does to the world

A call changes the world by inbound downloads and by ingests, one after the other, and the batches of
the ingests are those the call hands over (`step_does`). So a run of the service is a run of events. -/

namespace WappPlanner.Ingestion

open WappPlanner.Aggregation WappPlanner.Domain.Models WappPlanner.Hitl.Service
open WappPlanner.Ingestion.Parser WappPlanner.Lib WappPlanner.Lib.Runs WappPlanner.Orchestrator
open WappPlanner.Providers.Base WappPlanner.Py.Text WappPlanner.Py.Values

/-- The batch that an event ingests, if it is an ingest. -/
def Event.batch? : Event → Option Batch
  | call (.ingest b _) => some b
  | _ => none

/-- The owner action that an event applies, if it applies one. -/
def Event.action? : Event → Option OwnerAction
  | call (.action a _ _) => some a
  | _ => none

theorem ingested_eq (es : List Event) :
    ingested es = (es.filterMap Event.batch?).map (·.aggregated.requestId) := by
  induction es with
  | nil => rfl
  | cons e es ih =>
    unfold ingested at ih ⊢
    cases e with
    | inbound messageId mediaId source => exact ih
    | call c =>
      cases c with
      | ingest b env => exact congrArg (b.aggregated.requestId :: ·) ih
      | action a now env => exact ih

variable (service : IngestionService)

/-- The events lead from one state of the service to another, the batches among them being those that
were handed over. -/
structure Does (s t : State) (es : List Event) : Prop where
  world : t.world = run (happen service.orchestrator service.downloader service.tables) s.world es
  handed : t.handed = s.handed ++ es.filterMap Event.batch?
  actions : es.filterMap Event.action? = []

variable {service} {s t u : State} {es fs : List Event} {handling : Handling} {now : Instant}

theorem Does.nil (hworld : t.world = s.world) (hhanded : t.handed = s.handed) :
    Does service s t [] :=
  ⟨hworld, by rw [hhanded]; exact (List.append_nil _).symm, rfl⟩

theorem Does.trans (h : Does service s t es) (h' : Does service t u fs) :
    Does service s u (es ++ fs) where
  world := by rw [run_append, ← h.world, h'.world]
  handed := by rw [h'.handed, h.handed, List.filterMap_append, List.append_assoc]
  actions := by rw [List.filterMap_append, h.actions, h'.actions, List.append_nil]

theorem process_does (aggregated : AggregatedRequest) :
    ∃ es, Does service s (service.process handling aggregated now s).2 es := by
  rcases service.process_cases handling aggregated now s with ⟨exc, -, hp⟩ | ⟨media, -, hp⟩
  · rw [hp]
    exact ⟨[], .nil rfl rfl⟩
  · rw [hp]
    exact ⟨[.call (.ingest (IngestionService.batchOf s aggregated media now) handling.env)],
      rfl, rfl, rfl⟩

theorem download_does (parsed : ParsedMessage) :
    ∃ es, Does service s (service.download handling parsed s).2 es := by
  unfold IngestionService.download
  split
  · exact ⟨[], .nil rfl rfl⟩
  · refine ⟨[.inbound parsed.whatsappId (str service.tables parsed.mediaId) handling.source], ?_⟩
    dsimp only
    split <;> exact ⟨rfl, (List.append_nil _).symm, rfl⟩

theorem addMessage_does {key : String} {message : Message} :
    ∃ es, Does service s (service.addMessage handling key message now s).2 es := by
  rcases service.addMessage_cases handling key message now s with h | ⟨bucket, -, h⟩
  · rw [h]
    exact ⟨[], .nil rfl rfl⟩
  · rw [h]
    have hput : Does service s
        (s.withAggregator (s.aggregator.add service.windows key message now).2) [] := .nil rfl rfl
    obtain ⟨es, hes⟩ := process_does bucket.closed
    exact ⟨_, hput.trans hes⟩

theorem accept_does (parsed : ParsedMessage) :
    ∃ es, Does service s (service.accept handling parsed now s).2 es := by
  unfold IngestionService.accept
  have hclaimed : Does service s ((s.claim parsed).resolved service.registry parsed) [] :=
    .nil rfl rfl
  obtain ⟨es, hes⟩ : ∃ es, Does service ((s.claim parsed).resolved service.registry parsed)
    (service.download handling parsed ((s.claim parsed).resolved service.registry parsed)).2 es :=
      download_does parsed
  have hdownloaded := hclaimed.trans hes
  dsimp only
  generalize service.download handling parsed ((s.claim parsed).resolved service.registry parsed) =
    downloaded at hdownloaded ⊢
  obtain ⟨rawRef, s₂⟩ := downloaded
  dsimp only at hdownloaded ⊢
  split
  · exact ⟨_, hdownloaded⟩
  · obtain ⟨fs, hfs⟩ := addMessage_does
    exact ⟨_, hdownloaded.trans hfs⟩

/-- **Every call is a run of events**, whether it returns or raises. -/
theorem step_does (input : Input) : ∃ es, Does service s (service.step s input) es := by
  cases input with
  | receive rawBody header now wall handling =>
    unfold IngestionService.step IngestionService.answer IngestionService.receive
    dsimp only
    split
    · exact ⟨[], .nil rfl rfl⟩
    · refine IngestionService.acceptAll_keeps (I := fun t => ∃ es, Does service s t es) ?_
        ⟨[], .nil rfl rfl⟩
      rintro h parsed - t ⟨es, hes⟩ -
      obtain ⟨fs, hfs⟩ := accept_does parsed
      exact ⟨_, hes.trans hfs⟩
  | flushDue now handling =>
    refine IngestionService.processAll_inv service (I := fun t => ∃ es, Does service s t es)
      (Q := fun _ _ => True) ?_ (fun _ _ _ _ _ => trivial) ⟨[], .nil rfl rfl⟩ fun _ _ => trivial
    rintro h aggregated t ⟨es, hes⟩ -
    obtain ⟨fs, hfs⟩ := process_does aggregated
    exact ⟨_, hes.trans hfs⟩

end WappPlanner.Ingestion
