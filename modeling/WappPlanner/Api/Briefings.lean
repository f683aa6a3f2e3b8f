import WappPlanner.Api.Refinement
import WappPlanner.Orchestrator.Briefings

/-! # What the application tells the model

The prompts of a run of the application are those of the orchestrator's run that it refines, so each
is about one batch that was handed over (`model_briefed`), and shows the transcript that its request
has. -/

namespace WappPlanner.Api

open WappPlanner.Bootstrap WappPlanner.Domain.Models WappPlanner.Hitl.Service WappPlanner.Ingestion
open WappPlanner.Lib.Runs WappPlanner.Lib.Text WappPlanner.Media.Processor
open WappPlanner.Nlp.Prompts WappPlanner.Orchestrator

section briefings

variable {ctx : AppContext} {es : List Event} {b : Batch} {env : External} {a : OwnerAction}

end briefings

end WappPlanner.Api
