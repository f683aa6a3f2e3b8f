import WappPlanner.Aggregation.Partition
import WappPlanner.Aggregation.Threads
import WappPlanner.Aggregation.Uninterrupted
import WappPlanner.Api.Accountable
import WappPlanner.Api.Answers
import WappPlanner.Api.AtMostOnce
import WappPlanner.Api.Briefings
import WappPlanner.Api.Escapes
import WappPlanner.Api.Noise
import WappPlanner.Api.Outbox
import WappPlanner.Api.Refinement
import WappPlanner.Api.Untrusted
import WappPlanner.Api.Waiting
import WappPlanner.Bootstrap
import WappPlanner.Documents.Extraction
import WappPlanner.Documents.PlanLayout
import WappPlanner.Documents.QuoteLayout
import WappPlanner.Documents.QuoteTable
import WappPlanner.Documents.Renderer
import WappPlanner.Ingestion.Archive
import WappPlanner.Ingestion.CheckedMedia
import WappPlanner.Ingestion.Malformed
import WappPlanner.Ingestion.Parties
import WappPlanner.Ingestion.Redelivery
import WappPlanner.Ingestion.WellShaped
import WappPlanner.Media.Captions
import WappPlanner.Orchestrator.Concurrent
import WappPlanner.Orchestrator.Confirmations
import WappPlanner.Orchestrator.Context
import WappPlanner.Orchestrator.Conversation
import WappPlanner.Orchestrator.Isolation
import WappPlanner.Orchestrator.Links
import WappPlanner.Orchestrator.LiveLinks
import WappPlanner.Orchestrator.Prompted
import WappPlanner.Orchestrator.Refusals
import WappPlanner.Orchestrator.Replays
import WappPlanner.Orchestrator.Resting
import WappPlanner.Orchestrator.RevisionLog
import WappPlanner.Orchestrator.Serial
import WappPlanner.Orchestrator.StaleLinks
