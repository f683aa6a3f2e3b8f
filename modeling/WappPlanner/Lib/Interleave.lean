import WappPlanner.Lib.Programs
import WappPlanner.Lib.Runs

/-! # Interleavings

Two programs over one shared state. A schedule picks, again and again, which of them performs its
next operation; an operation is atomic. The rules:

* `schedule_inv`: what both programs preserve holds under every schedule.
* `alone`: a schedule that only picks one program runs it as `exec` does.
* `finish`: every system can be run to its end.
* `run_swap`: the two programs change places.
* `exec_commute`: a change of the state that commutes with the operations of a program commutes with
  its run. -/

namespace WappPlanner.Lib.Interleave

open WappPlanner.Lib.Programs WappPlanner.Lib.Runs Prog

variable {Op : Type → Type} {σ ε α β : Type} (h : Handler Op σ)

/-- The next operation of a program; one that has ended does nothing. -/
def advance : Prog Op ε α → σ → Prog Op ε α × σ
  | call o next, s => (next (h.act o s).1, (h.act o s).2)
  | ret a, s => (ret a, s)
  | fail e, s => (fail e, s)

/-- The program has ended. -/
def Done : Prog Op ε α → Prop
  | call _ _ => False
  | _ => True

/-- Two programs and the state they share. -/
structure System (Op : Type → Type) (σ ε α β : Type) : Type 1 where
  left : Prog Op ε α
  right : Prog Op ε β
  state : σ

inductive Side
  | left
  | right
  deriving DecidableEq

/-- One program performs its next operation. -/
def tick (c : System Op σ ε α β) : Side → System Op σ ε α β
  | .left => ⟨(advance h c.left c.state).1, c.right, (advance h c.left c.state).2⟩
  | .right => ⟨c.left, (advance h c.right c.state).1, (advance h c.right c.state).2⟩

/-- Both programs have ended. -/
structure Finished (c : System Op σ ε α β) : Prop where
  left : Done c.left
  right : Done c.right

variable {h} {p : Prog Op ε α} {q : Prog Op ε β} {s : σ}

theorem advance_of_done (hp : Done p) (s : σ) : advance h p s = (p, s) := by
  cases p with
  | call o next => cases hp
  | ret a => rfl
  | fail e => rfl

theorem done_ofExcept (x : Except ε α) : Done (ofExcept x : Prog Op ε α) := by
  cases x <;> trivial

theorem Done.bind {k : α → Prog Op ε β} (hp : Done p) (hk : ∀ a, Done (k a)) : Done (p >>= k) := by
  cases p with
  | call o next => cases hp
  | ret a => exact hk a
  | fail e => trivial

theorem exec_of_done (hp : Done p) (s : σ) : (exec h p s).state = s := by
  cases p with
  | call o next => cases hp
  | ret a => rfl
  | fail e => rfl

/-- An operation performed changes nothing about how the run ends. -/
theorem exec_advance (p : Prog Op ε α) (s : σ) :
    (exec h (advance h p s).1 (advance h p s).2).state = (exec h p s).state := by
  cases p <;> rfl

/-! ### Rules for all schedules -/

/-- **Invariants of a system.** -/
theorem schedule_inv {I : System Op σ ε α β → Prop} (hI : ∀ c side, I c → I (tick h c side))
    {c : System Op σ ε α β} (hc : I c) (schedule : List Side) : I (run (tick h) c schedule) := by
  refine run_inv (C := fun _ _ => True) (fun c side hc _ => hI c side hc) hc ?_
  exact along_iff.mpr fun _ _ _ _ => trivial

/-! ### One program alone, and the two swapped -/

/-- **A program alone** runs to its end. -/
theorem alone (q : Prog Op ε β) : ∀ (p : Prog Op ε α) (s : σ), ∃ n p', Done p' ∧
    run (tick h) ⟨p, q, s⟩ (List.replicate n .left) = ⟨p', q, (exec h p s).state⟩
  | ret a, s => ⟨0, ret a, trivial, rfl⟩
  | fail e, s => ⟨0, fail e, trivial, rfl⟩
  | call o next, s => by
    obtain ⟨n, p', hp', hrun⟩ := alone q (next (h.act o s).1) (h.act o s).2
    exact ⟨n + 1, p', hp', hrun⟩

def Side.swap : Side → Side
  | .left => .right
  | .right => .left

def System.swap (c : System Op σ ε α β) : System Op σ ε β α := ⟨c.right, c.left, c.state⟩

/-- **The programs change places.** -/
theorem run_swap (c : System Op σ ε α β) (schedule : List Side) :
    run (tick h) c.swap schedule = (run (tick h) c (schedule.map Side.swap)).swap := by
  induction schedule generalizing c with
  | nil => rfl
  | cons side schedule ih =>
    have htick : tick h c.swap side = (tick h c side.swap).swap := by cases side <;> rfl
    rw [run_cons, htick, ih, List.map_cons, run_cons]

/-- The right program alone. -/
theorem alone_right (p : Prog Op ε α) (q : Prog Op ε β) (s : σ) : ∃ n q', Done q' ∧
    run (tick h) ⟨p, q, s⟩ (List.replicate n .right) = ⟨p, q', (exec h q s).state⟩ := by
  obtain ⟨n, q', hq', hrun⟩ := alone (h := h) p q s
  refine ⟨n, q', hq', ?_⟩
  have hswap := run_swap (h := h) ⟨q, p, s⟩ (List.replicate n .right)
  rw [List.map_replicate] at hswap
  exact hswap.trans (congrArg System.swap hrun)

theorem sequential (p : Prog Op ε α) (q : Prog Op ε β) (s : σ) : ∃ schedule,
    Finished (run (tick h) ⟨p, q, s⟩ schedule) ∧
      (run (tick h) ⟨p, q, s⟩ schedule).state = (exec h q (exec h p s).state).state := by
  obtain ⟨n, p', hp', hrun⟩ := alone (h := h) q p s
  obtain ⟨m, q', hq', hrun'⟩ := alone_right (h := h) p' q (exec h p s).state
  refine ⟨List.replicate n .left ++ List.replicate m .right, ?_, ?_⟩ <;>
    rw [run_append, hrun, hrun']
  exact ⟨hp', hq'⟩

theorem finish (c : System Op σ ε α β) : ∃ schedule, Finished (run (tick h) c schedule) := by
  obtain ⟨schedule, hfinished, -⟩ := sequential (h := h) c.left c.right c.state
  exact ⟨schedule, hfinished⟩

/-! ### All states of one program -/

variable (h) in
/-- `P` holds of the program and the state, now and after each operation of its run. -/
def Always (P : Prog Op ε α → σ → Prop) : Prog Op ε α → σ → Prop
  | call o next, s => P (call o next) s ∧ Always P (next (h.act o s).1) (h.act o s).2
  | ret a, s => P (ret a) s
  | fail e, s => P (fail e) s

theorem Always.here {P : Prog Op ε α → σ → Prop} (hP : Always h P p s) : P p s := by
  cases p with
  | call o next => exact hP.1
  | ret a => exact hP
  | fail e => exact hP

theorem Always.advance {P : Prog Op ε α → σ → Prop} (hP : Always h P p s) :
    Always h P (advance h p s).1 (advance h p s).2 := by
  cases p with
  | call o next => exact hP.2
  | ret a => exact hP
  | fail e => exact hP

theorem always_of_done {P : Prog Op ε α → σ → Prop} (hp : Done p) (hP : P p s) :
    Always h P p s := by
  cases p with
  | call o next => cases hp
  | ret a => exact hP
  | fail e => exact hP

/-! ### Changes that commute with operations -/

/-- Every operation the program may perform, whatever is answered, meets `P`. -/
def Performs (P : {γ : Type} → Op γ → Prop) : Prog Op ε α → Prop
  | call o next => P o ∧ ∀ b, Performs P (next b)
  | _ => True

variable {P : {γ : Type} → Op γ → Prop} {f : σ → σ}

theorem performs_of_done (hp : Done p) : Performs P p := by
  cases p with
  | call o next => cases hp
  | ret a => trivial
  | fail e => trivial

theorem Performs.advance (hp : Performs P p) : Performs P (advance h p s).1 := by
  cases p with
  | call o next => exact hp.2 _
  | ret a => exact hp
  | fail e => exact hp

/-- `f` commutes with the operations that meet `P`. -/
def Commutes (h : Handler Op σ) (P : {γ : Type} → Op γ → Prop) (f : σ → σ) : Prop :=
  ∀ {γ : Type} (o : Op γ) (s : σ), P o → h.act o (f s) = ((h.act o s).1, f (h.act o s).2)

theorem Commutes.advance (hf : Commutes h P f) (hp : Performs P p) (s : σ) :
    advance h p (f s) = ((advance h p s).1, f (advance h p s).2) := by
  cases p with
  | call o next =>
    simp only [Interleave.advance, hf o s hp.1]
  | ret a => rfl
  | fail e => rfl

/-- **A commuting change** may be made before a run or after it. -/
theorem exec_commute (hf : Commutes h P f) : ∀ {p : Prog Op ε α} (s : σ), Performs P p →
    (exec h p (f s)).state = f (exec h p s).state
  | ret _, _, _ => rfl
  | fail _, _, _ => rfl
  | call o next, s, hp => by
    rw [exec_call, exec_call, Outcome.state_after, Outcome.state_after, hf o s hp.1]
    exact exec_commute hf _ (hp.2 _)

theorem Always.commute {Q : Prog Op ε α → σ → Prop} (hf : Commutes h P f)
    (hQ : ∀ p s, Performs P p → Q p s → Q p (f s)) : ∀ {p : Prog Op ε α} {s : σ},
      Performs P p → Always h Q p s → Always h Q p (f s)
  | ret _, _, hp, hq => hQ _ _ hp hq
  | fail _, _, hp, hq => hQ _ _ hp hq
  | call o next, s, hp, hq => by
    refine ⟨hQ _ _ hp hq.1, ?_⟩
    rw [hf o s hp.1]
    exact Always.commute hf hQ (hp.2 _) hq.2

end WappPlanner.Lib.Interleave
