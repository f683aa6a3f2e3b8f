import Mathlib.Tactic.Common
import WappPlanner.Domain.Enums
import WappPlanner.Errors

/-! # The request state machine

The table of `workflow/state_machine.py` and the trigger of each owner decision
(`workflow/triggers.py`). `successor` looks the table up; `nextState` raises where the table has no
edge. The second half says which states an owner decision is legal in and where it leads
(`successor_triggerFor`), which is all the later modules use of the table. -/

namespace WappPlanner.Workflow.StateMachine

open WappPlanner.Domain.Enums WappPlanner.Errors WappPlanner.Workflow.Enums
open RequestState Trigger

/-- States from which no further transition is allowed. -/
def terminalStates : List RequestState := [completed, discarded, failed]

/-- The explicit edges. -/
def edges : List ((RequestState × Trigger) × RequestState) :=
  [((received, startAggregation), aggregating),
    ((aggregating, windowClosed), processingMedia),
    ((processingMedia, mediaProcessed), classifying),
    ((classifying, classifiedActionable), awaitingClassification),
    ((classifying, classifiedNone), discarded),
    ((awaitingClassification, ownerConfirmed), generating),
    ((awaitingClassification, ownerCorrected), awaitingClassification),
    ((awaitingClassification, ownerRejected), discarded),
    ((generating, generated), rendering),
    ((rendering, rendered), awaitingApproval),
    ((awaitingApproval, ownerApproved), completed),
    ((awaitingApproval, ownerRequestedRevision), generating)]

/-- `fail` is allowed from every non-terminal state. -/
def failEdges : List ((RequestState × Trigger) × RequestState) :=
  (RequestState.all.filter (· ∉ terminalStates)).map fun state => ((state, fail), failed)

/-- The full transition table. -/
def transitions : List ((RequestState × Trigger) × RequestState) := edges ++ failEdges

def isTerminal (state : RequestState) : Bool := state ∈ terminalStates

/-- The entry of the table, if any. -/
def successor (state : RequestState) (trigger : Trigger) : Option RequestState :=
  transitions.lookup (state, trigger)

/-- The state reached by `trigger` in `state`; raises where the edge is not allowed. -/
def nextState (state : RequestState) (trigger : Trigger) : Except Exn RequestState :=
  match successor state trigger with
  | some next => .ok next
  | none => .error (.illegalTransition state trigger)

/-- The trigger an owner decision fires. -/
def triggerFor : OwnerDecision → Trigger
  | .confirm => ownerConfirmed
  | .correct => ownerCorrected
  | .reject => ownerRejected
  | .approve => ownerApproved
  | .revise => ownerRequestedRevision

theorem nextState_of_some {s s' : RequestState} {t : Trigger} (h : successor s t = some s') :
    nextState s t = .ok s' := by
  unfold nextState
  rw [h]

theorem nextState_of_none {s : RequestState} {t : Trigger} (h : successor s t = none) :
    nextState s t = .error (.illegalTransition s t) := by
  unfold nextState
  rw [h]

/-- **No transition leaves a terminal state.** -/
theorem successor_terminal {s : RequestState} (h : isTerminal s = true) (t : Trigger) :
    successor s t = none := by
  revert h
  cases s <;> cases t <;> decide

/-! ### Owner decisions -/

/-- The state an owner decision is legal in. -/
def gateOf : OwnerDecision → RequestState
  | .confirm | .correct | .reject => awaitingClassification
  | .approve | .revise => awaitingApproval

/-- The state an owner decision leads to. -/
def target : OwnerDecision → RequestState
  | .confirm | .revise => generating
  | .correct => awaitingClassification
  | .reject => discarded
  | .approve => completed

/-- **A decision is legal at its gate only**, and leads to its target. -/
theorem successor_triggerFor (s : RequestState) (d : OwnerDecision) :
    successor s (triggerFor d) = if s = gateOf d then some (target d) else none := by
  cases s <;> cases d <;> decide

theorem ne_gateOf {s : RequestState} (h : s = .generating ∨ s = .rendering) (d : OwnerDecision) :
    s ≠ gateOf d := by
  rcases h with rfl | rfl <;> cases d <;> decide

theorem not_terminal_gateOf (d : OwnerDecision) : isTerminal (gateOf d) = false := by
  cases d <;> decide

end WappPlanner.Workflow.StateMachine
