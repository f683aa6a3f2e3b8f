import WappPlanner.Lib.Pools
import WappPlanner.Orchestrator.Isolation

/-! # Requests do not see each other at once

The server runs its endpoints and the worker's tick on threads of their own. As long as the invocations
under way are on different requests, it makes no difference how their operations interleave: each of
them answers what it answers alone, after the same operations, and leaves its request as it leaves it
alone (`isolated_concurrently`). -/

namespace WappPlanner.Orchestrator

open WappPlanner.Domain.Models WappPlanner.Errors WappPlanner.Hitl.Service
open WappPlanner.Lib.Contracts WappPlanner.Lib.Pools WappPlanner.Lib.Programs
open WappPlanner.Lib.Runs WappPlanner.Py.Text

section pool

variable {ι : Type*} {cfg : Config} {owner : String → String} {rid : String} {w : World}

/-- The program of an invocation. -/
def Call.program (cfg : Config) : Call → Prog Op Exn Request
  | .ingest b _ => Orchestrator.ingest cfg b
  | .action a now _ => applyOwnerAction a now

/-- What an invocation meets outside. -/
def Call.env : Call → External
  | .ingest _ env => env
  | .action _ _ env => env

theorem outcome_eq (w : World) (c : Call) :
    outcome cfg w c = exec (handler cfg c.env) (c.program cfg) w := by
  cases c <;> rfl

theorem meets_program {c : Call} (hc : Owned owner c) :
    Meets (scope owner c.requestId) (c.program cfg) (·.id = c.requestId) := by
  cases c with
  | ingest b env => exact meets_ingest b
  | action a now env => exact meets_apply hc

theorem honours_keyed {env : External} : Honours (scope owner rid) (handler cfg env) Keyed := by
  intro β o v hv ho
  have hne : rid ≠ rid ++ "x" := by
    intro h
    have hlength := congrArg String.length h
    rw [String.length_append] at hlength
    have hone : "x".length = 1 := rfl
    omega
  have hself : Mirror owner (rid ++ "x") v v := .refl hv
  obtain ⟨hanswer, hkeyed, -⟩ := honours_elsewhere hne o v ⟨hv, hself⟩ ho
  exact ⟨hanswer, hkeyed⟩

/-- The invocations under way, each at its start. -/
def underWay (cfg : Config) (calls : ι → Call) (w : World) : Pool ι Op World Exn Request :=
  start (fun i => (calls i).program cfg) w

/-- One of them performs its next operation. -/
def proceed [DecidableEq ι] (cfg : Config) (calls : ι → Call) :
    Pool ι Op World Exn Request → ι → Pool ι Op World Exn Request :=
  turn fun i => handler cfg (calls i).env

theorem apart_calls {calls : ι → Call}
    (hdistinct : ∀ i j, i ≠ j → (calls i).requestId ≠ (calls j).requestId) :
    Apart (fun i => handler cfg (calls i).env) (fun i => scope owner (calls i).requestId) Keyed
      fun i => Mirror owner (calls i).requestId where
  own _ := alike_scope
  kept _ := honours_keyed
  others i j hne _ := honours_elsewhere (hdistinct j i hne)

end pool

variable (cfg : Config) {owner : String → String}

/-- **Requests do not see each other, at once either.** Invocations on different requests are under way
after any run, and their operations interleave under any schedule, whatever raises. Each of them ends
when its turn has come often enough; when it has ended, it has answered what it answers alone, after
the same operations, and its request is as it leaves it alone. All other requests are as they were. -/
theorem isolated_concurrently {ι : Type*} [DecidableEq ι] (cs : List Call) (calls : ι → Call)
    (howned : ∀ i, Owned owner (calls i))
    (hdistinct : ∀ i j, i ≠ j → (calls i).requestId ≠ (calls j).requestId) (schedule : List ι) :
    let w := run (step cfg) World.initial cs
    let pool := run (proceed cfg calls) (underWay cfg calls w) schedule
    (∀ i, ∃ n, (ended ((run (proceed cfg calls) pool (List.replicate n i)).tasks i).prog).isSome) ∧
      (∀ i answer, ended (pool.tasks i).prog = some answer →
        (answer, (pool.tasks i).past) = account cfg (w, calls i) ∧
          Mirror owner (calls i).requestId (step cfg w (calls i)) pool.state) ∧
        ∀ rid, (∀ i, (calls i).requestId ≠ rid) → Mirror owner rid w pool.state := by
  intro w pool
  have hkeyed : Keyed w := fun _ _ hr => (wf_run cs).id_eq hr
  have hmeets : ∀ i, Meets (scope owner (calls i).requestId) ((calls i).program cfg)
      (·.id = (calls i).requestId) := fun i => meets_program (howned i)
  refine ⟨fun i => pool_ends _ pool i, fun i answer hended => ?_, fun rid hrid => ?_⟩
  · obtain ⟨hanswer, hpast, hmirror⟩ := pool_alone (apart_calls hdistinct) hmeets hkeyed
      (fun i => Mirror.refl hkeyed) schedule i hended
    rw [← outcome_eq] at hanswer hpast hmirror
    exact ⟨Prod.ext hanswer hpast, hmirror⟩
  · exact (pool_inv (I := fun v => Keyed v ∧ Mirror owner rid w v)
      (fun i => honours_elsewhere (hrid i)) hmeets ⟨hkeyed, .refl hkeyed⟩ schedule).1.2

namespace Sample

/-- A confirmation of each of two requests. -/
def bothConfirmed : Bool → Call
  | true => .action (click "r1" "a1" .confirm 0) start (external planText)
  | false => .action (click "r2" "a2" .confirm 0) start (external planText)

end Sample

open Sample in
theorem isolated_concurrently_bothConfirmed :
    let w := run (step (config codec false)) World.initial (twoRequests.take 2)
    let pool := run (proceed (config codec false) bothConfirmed)
      (underWay (config codec false) bothConfirmed w) (List.replicate 9 [true, false]).flatten
    (∀ i, ∃ n, (ended ((run (proceed (config codec false) bothConfirmed) pool
      (List.replicate n i)).tasks i).prog).isSome) ∧
      (∀ i answer, ended (pool.tasks i).prog = some answer →
        (answer, (pool.tasks i).past) = account (config codec false) (w, bothConfirmed i) ∧
          Mirror clickOwner (bothConfirmed i).requestId
            (step (config codec false) w (bothConfirmed i)) pool.state) ∧
        ∀ rid, (∀ i, (bothConfirmed i).requestId ≠ rid) → Mirror clickOwner rid w pool.state := by
  refine isolated_concurrently (config codec false) (twoRequests.take 2) bothConfirmed (fun i => ?_)
    (fun i j hne => ?_) _
  · cases i <;> rfl
  · cases i <;> cases j <;> first | exact absurd rfl hne | decide

end WappPlanner.Orchestrator
