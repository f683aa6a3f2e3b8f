import Mathlib.Logic.Function.Basic
import WappPlanner.Lib.Contracts
import WappPlanner.Lib.Runs

/-! # Pools of programs

Any number of programs over one shared state, each with a handler of its own. A schedule picks, again
and again, whose turn it is; a turn is one operation, and an operation is atomic.

* `pool_inv`: what the programs preserve, each within its contract, every schedule preserves;
* `pool_alone`: programs that keep apart end as they do alone, after the same operations;
* `pool_ends`: a program whose turn comes often enough ends. -/

namespace WappPlanner.Lib.Pools

open WappPlanner.Lib.Contracts WappPlanner.Lib.Programs WappPlanner.Lib.Runs Prog Outcome

/-- A program on its way, with the operations it has performed. -/
structure Task (Op : Type → Type) (ε α : Type) : Type 1 where
  prog : Prog Op ε α
  past : List (Entry Op)

/-- The tasks and the state they share. -/
structure Pool (ι : Type*) (Op : Type → Type) (σ ε α : Type) where
  tasks : ι → Task Op ε α
  state : σ

variable {ι : Type*} {Op : Type → Type} {σ ε α : Type}

/-- How a program has ended, if it has. -/
def ended : Prog Op ε α → Option (Except ε α)
  | ret a => some (.ok a)
  | fail e => some (.error e)
  | call _ _ => none

/-- The next operation of a task; one that has ended does nothing. -/
def advance (h : Handler Op σ) (s : σ) : Task Op ε α → Task Op ε α × σ
  | ⟨call o next, past⟩ =>
    (⟨next (h.act o s).1, past ++ [⟨_, o, (h.act o s).1⟩]⟩, (h.act o s).2)
  | task => (task, s)

/-- All programs at their start. -/
def start (p : ι → Prog Op ε α) (s : σ) : Pool ι Op σ ε α := ⟨fun i => ⟨p i, []⟩, s⟩

section schedules

variable [DecidableEq ι]

/-- A task takes its turn. -/
def turn (h : ι → Handler Op σ) (c : Pool ι Op σ ε α) (i : ι) : Pool ι Op σ ε α :=
  ⟨Function.update c.tasks i (advance (h i) c.state (c.tasks i)).1,
    (advance (h i) c.state (c.tasks i)).2⟩

variable {h : ι → Handler Op σ} {C : ι → Contract Op} {Q : ι → α → Prop} {I : σ → Prop}

/-- **What a turn does**: nothing if the task has ended, else the task's next operation. -/
theorem turn_cases (h : ι → Handler Op σ) (c : Pool ι Op σ ε α) (i : ι) : turn h c i = c ∨
    ∃ (β : Type) (o : Op β) (next : β → Prog Op ε α) (past : List (Entry Op)),
      c.tasks i = ⟨call o next, past⟩ ∧ turn h c i =
        ⟨Function.update c.tasks i
          ⟨next ((h i).act o c.state).1, past ++ [⟨β, o, ((h i).act o c.state).1⟩]⟩,
          ((h i).act o c.state).2⟩ := by
  unfold turn
  rcases hprog : c.tasks i with ⟨a | e | ⟨o, next⟩, past⟩
  · left
    change (⟨Function.update c.tasks i ⟨ret a, past⟩, c.state⟩ : Pool ι Op σ ε α) = c
    rw [← hprog, Function.update_eq_self]
  · left
    change (⟨Function.update c.tasks i ⟨fail e, past⟩, c.state⟩ : Pool ι Op σ ε α) = c
    rw [← hprog, Function.update_eq_self]
  · exact .inr ⟨_, o, next, past, rfl, rfl⟩

/-! ### Invariants -/

/-- The state meets `I`, and the tasks keep their contracts. -/
def Keeping (C : ι → Contract Op) (Q : ι → α → Prop) (I : σ → Prop) (c : Pool ι Op σ ε α) : Prop :=
  I c.state ∧ ∀ i, Meets (C i) (c.tasks i).prog (Q i)

theorem keeping_turn (hI : ∀ i, Honours (C i) (h i) I) {c : Pool ι Op σ ε α}
    (hc : Keeping C Q I c) (i : ι) : Keeping C Q I (turn h c i) := by
  rcases turn_cases h c i with hidle | ⟨β, o, next, past, hprog, hturn⟩
  · rw [hidle]
    exact hc
  · obtain ⟨hstate, hmeets⟩ := hc
    have hi := hmeets i
    rw [hprog] at hi
    obtain ⟨hanswer, hkept⟩ := hI i o c.state hstate hi.1
    rw [hturn]
    refine ⟨hkept, fun j => ?_⟩
    by_cases hj : j = i
    · subst hj
      dsimp only
      rw [Function.update_self]
      exact hi.2 _ hanswer
    · dsimp only
      rw [Function.update_of_ne hj]
      exact hmeets j

/-- **Invariants of a pool.** -/
theorem pool_inv (hI : ∀ i, Honours (C i) (h i) I) {p : ι → Prog Op ε α} {s : σ}
    (hp : ∀ i, Meets (C i) (p i) (Q i)) (hs : I s) (schedule : List ι) :
    Keeping C Q I (run (turn h) (start p s) schedule) :=
  run_keeps (I := Keeping C Q I) (fun _ i hc => keeping_turn hI hc i) ⟨hs, hp⟩ schedule

/-! ### Programs that keep apart -/

/-- What a program does is done alike in related states, and the operations of the others leave the
state related to what it was to. -/
structure Apart (h : ι → Handler Op σ) (C : ι → Contract Op) (I : σ → Prop)
    (R : ι → σ → σ → Prop) : Prop where
  own : ∀ i, Alike (C i) (h i) (h i) (R i)
  kept : ∀ i, Honours (C i) (h i) I
  others : ∀ i j, j ≠ i → ∀ w, Honours (C j) (h j) fun v => I v ∧ R i w v

/-- The task is where the program `p` comes by itself, in a state `w` that is related to the shared
one. -/
structure OnTrack (h : Handler Op σ) (R : σ → σ → Prop) (p : Prog Op ε α) (s : σ)
    (task : Task Op ε α) (w state : σ) : Prop where
  related : R w state
  result : (exec h p s).result = (exec h task.prog w).result
  trace : (exec h p s).trace = task.past ++ (exec h task.prog w).trace
  state : (exec h p s).state = (exec h task.prog w).state

/-- Every task is on track. -/
def Tracked (h : ι → Handler Op σ) (R : ι → σ → σ → Prop) (p : ι → Prog Op ε α) (s : σ)
    (c : Pool ι Op σ ε α) : Prop :=
  ∀ i, ∃ w, OnTrack (h i) (R i) (p i) s (c.tasks i) w c.state

variable {R : ι → σ → σ → Prop} {p : ι → Prog Op ε α} {s : σ}

theorem tracked_turn (hR : Apart h C I R) {c : Pool ι Op σ ε α} (hc : Keeping C Q I c)
    (ht : Tracked h R p s c) (i : ι) : Tracked h R p s (turn h c i) := by
  rcases turn_cases h c i with hidle | ⟨β, o, next, past, hprog, hturn⟩
  · rw [hidle]
    exact ht
  · obtain ⟨hstate, hmeets⟩ := hc
    have hi := hmeets i
    rw [hprog] at hi
    rw [hturn]
    intro j
    dsimp only
    by_cases hj : j = i
    · subst hj
      obtain ⟨w, hw⟩ := ht j
      rw [hprog] at hw
      obtain ⟨-, hsame, hrelated⟩ := hR.own j o w c.state hw.related hi.1
      rw [Function.update_self, hsame]
      refine ⟨((h j).act o w).2, hrelated, ?_, ?_, ?_⟩
      · rw [hw.result, exec_call, result_after]
      · rw [hw.trace, exec_call, trace_after, List.append_assoc]
        rfl
      · rw [hw.state, exec_call, state_after]
    · rw [Function.update_of_ne hj]
      obtain ⟨w, hw⟩ := ht j
      obtain ⟨-, -, hrelated⟩ := hR.others j i (Ne.symm hj) w o c.state ⟨hstate, hw.related⟩ hi.1
      exact ⟨w, hrelated, hw.result, hw.trace, hw.state⟩

/-- **Programs that keep apart** end as they do alone, after the same operations, in a state that is
related to the one they leave alone. -/
theorem pool_alone (hR : Apart h C I R) (hp : ∀ i, Meets (C i) (p i) (Q i)) (hs : I s)
    (hrefl : ∀ i, R i s s) (schedule : List ι) (i : ι) {answer : Except ε α}
    (h' : ended ((run (turn h) (start p s) schedule).tasks i).prog = some answer) :
    answer = (exec (h i) (p i) s).result ∧
      ((run (turn h) (start p s) schedule).tasks i).past = (exec (h i) (p i) s).trace ∧
        R i (exec (h i) (p i) s).state (run (turn h) (start p s) schedule).state := by
  have hboth : Keeping C Q I (run (turn h) (start p s) schedule) ∧
      Tracked h R p s (run (turn h) (start p s) schedule) := run_keeps
    (I := fun c => Keeping C Q I c ∧ Tracked h R p s c)
    (fun c j hc => ⟨keeping_turn hR.kept hc.1 j, tracked_turn hR hc.1 hc.2 j⟩)
    ⟨⟨hs, hp⟩, fun j => ⟨s, hrefl j, rfl, rfl, rfl⟩⟩ schedule
  obtain ⟨w, hw⟩ := hboth.2 i
  generalize run (turn h) (start p s) schedule = c at h' hw ⊢
  rcases hprog : c.tasks i with ⟨a | e | ⟨o, next⟩, past⟩ <;> rw [hprog] at h' hw
  · obtain rfl := Option.some.inj h'
    rw [hw.result, hw.trace, hw.state]
    exact ⟨rfl, (List.append_nil past).symm, hw.related⟩
  · obtain rfl := Option.some.inj h'
    rw [hw.result, hw.trace, hw.state]
    exact ⟨rfl, (List.append_nil past).symm, hw.related⟩
  · cases h'

/-! ### Ends -/

variable (h) in
/-- **A task whose turn comes often enough** ends. -/
theorem pool_ends (c : Pool ι Op σ ε α) (i : ι) :
    ∃ n, (ended ((run (turn h) c (List.replicate n i)).tasks i).prog).isSome := by
  rcases hprog : c.tasks i with ⟨prog, past⟩
  induction prog generalizing c past with
  | ret a => exact ⟨0, by rw [List.replicate_zero, run_nil, hprog]; rfl⟩
  | fail e => exact ⟨0, by rw [List.replicate_zero, run_nil, hprog]; rfl⟩
  | call o next ih =>
    have hnext : (turn h c i).tasks i =
        ⟨next ((h i).act o c.state).1, past ++ [⟨_, o, ((h i).act o c.state).1⟩]⟩ := by
      unfold turn
      rw [hprog]
      exact Function.update_self ..
    obtain ⟨n, hn⟩ := ih _ (turn h c i) _ hnext
    exact ⟨n + 1, hn⟩

end schedules

end WappPlanner.Lib.Pools
