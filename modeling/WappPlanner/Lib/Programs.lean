import Mathlib.Tactic.Common

/-! # Programs over operations

A program of `Prog Op ε α` performs operations of the family `Op`, one at a time, and ends by
returning an `α` or by failing with an `ε`. What an operation answers and how it changes the state
is the business of a `Handler`, so one program can be run alone (`exec`) or, one operation at a
time, beside another one (`Interleaving`), or from two related states (`exec_related`).

`exec h p s` is the whole story of a run from `s`: the result, the state it leaves (also when it
fails: what was done before the failure stays done) and the operations performed with their
answers. -/

namespace WappPlanner.Lib.Programs

section except

variable {ε α β : Type}

@[simp] theorem ok_bind (a : α) (f : α → Except ε β) :
    (Except.ok a : Except ε α) >>= f = f a := rfl

@[simp] theorem error_bind (e : ε) (f : α → Except ε β) :
    (Except.error e : Except ε α) >>= f = .error e := rfl

end except

/-- A program: it performs operations and returns or fails. -/
inductive Prog (Op : Type → Type) (ε α : Type) : Type 1
  | ret (a : α)
  | fail (e : ε)
  | call {β : Type} (o : Op β) (next : β → Prog Op ε α)

/-- How operations are answered, and what they do to the state. -/
structure Handler (Op : Type → Type) (σ : Type) where
  act : {β : Type} → Op β → σ → β × σ

/-- An operation with its answer. -/
abbrev Entry (Op : Type → Type) : Type 1 := (β : Type) × Op β × β

/-- The result of a run, the state it leaves and the operations it performed. -/
structure Outcome (Op : Type → Type) (σ ε α : Type) : Type 1 where
  result : Except ε α
  state : σ
  trace : List (Entry Op)

variable {Op : Type → Type} {σ ε α β : Type}

namespace Prog

/-- Go on with `f` on what `p` returns. -/
def bind : Prog Op ε α → (α → Prog Op ε β) → Prog Op ε β
  | ret a, f => f a
  | fail e, _ => fail e
  | call o next, f => call o fun b => (next b).bind f

instance : Monad (Prog Op ε) where
  pure := ret
  bind := bind

/-- One operation. -/
def perform (o : Op β) : Prog Op ε β := call o ret

/-- Return or fail as `x` says. -/
def ofExcept : Except ε α → Prog Op ε α
  | .ok a => ret a
  | .error e => fail e

/-- One operation that answers with a value or an error, the error being raised. -/
def performE (o : Op (Except ε β)) : Prog Op ε β := call o ofExcept

@[simp] theorem ret_bind (a : α) (f : α → Prog Op ε β) : (ret a : Prog Op ε α) >>= f = f a := rfl

@[simp] theorem fail_bind (e : ε) (f : α → Prog Op ε β) :
    (fail e : Prog Op ε α) >>= f = fail e := rfl

@[simp] theorem call_bind {γ : Type} (o : Op γ) (next : γ → Prog Op ε α) (f : α → Prog Op ε β) :
    call o next >>= f = call o fun b => next b >>= f := rfl

@[simp] theorem perform_bind {γ : Type} (o : Op γ) (f : γ → Prog Op ε β) :
    perform o >>= f = call o f := rfl

@[simp] theorem performE_bind {γ : Type} (o : Op (Except ε γ)) (f : γ → Prog Op ε β) :
    performE o >>= f = call o fun b => ofExcept b >>= f := rfl

@[simp] theorem ofExcept_ok (a : α) : (ofExcept (.ok a) : Prog Op ε α) = ret a := rfl

@[simp] theorem ofExcept_error (e : ε) : (ofExcept (.error e) : Prog Op ε α) = fail e := rfl

theorem bind_assoc {γ : Type} (f : α → Prog Op ε β) (g : β → Prog Op ε γ) :
    ∀ p : Prog Op ε α, (p >>= f) >>= g = p >>= fun a => f a >>= g
  | ret _ => rfl
  | fail _ => rfl
  | call o next => by
    simp only [call_bind]
    congr 1
    funext b
    exact bind_assoc f g (next b)

end Prog

namespace Outcome

/-- Put an operation in front. -/
def after (e : Entry Op) (x : Outcome Op σ ε α) : Outcome Op σ ε α :=
  ⟨x.result, x.state, e :: x.trace⟩

@[simp] theorem result_after (e : Entry Op) (x : Outcome Op σ ε α) :
    (x.after e).result = x.result := rfl

@[simp] theorem state_after (e : Entry Op) (x : Outcome Op σ ε α) :
    (x.after e).state = x.state := rfl

@[simp] theorem trace_after (e : Entry Op) (x : Outcome Op σ ε α) :
    (x.after e).trace = e :: x.trace := rfl

end Outcome

open Prog Outcome

variable (h : Handler Op σ)

/-- **A run**: the result, the state left and the operations performed. -/
def exec : Prog Op ε α → σ → Outcome Op σ ε α
  | ret a, s => ⟨.ok a, s, []⟩
  | fail e, s => ⟨.error e, s, []⟩
  | call o next, s => (exec (next (h.act o s).1) (h.act o s).2).after ⟨_, o, (h.act o s).1⟩

@[simp] theorem exec_ret (a : α) (s : σ) :
    exec h (ret a : Prog Op ε α) s = ⟨.ok a, s, []⟩ := rfl

@[simp] theorem exec_pure (a : α) (s : σ) :
    exec h (pure a : Prog Op ε α) s = ⟨.ok a, s, []⟩ := rfl

@[simp] theorem exec_fail (e : ε) (s : σ) :
    exec h (fail e : Prog Op ε α) s = ⟨.error e, s, []⟩ := rfl

theorem exec_call (o : Op β) (next : β → Prog Op ε α) (s : σ) :
    exec h (call o next) s =
      (exec h (next (h.act o s).1) (h.act o s).2).after ⟨_, o, (h.act o s).1⟩ := rfl

theorem exec_ofExcept_pure (x : Except ε β) (a : α) (s : σ) :
    exec h (ofExcept x >>= fun _ => (pure a : Prog Op ε α)) s = ⟨x.map fun _ => a, s, []⟩ := by
  cases x <;> rfl

/-! ### The same program over two states -/

section related

variable {τ : Type} {h : Handler Op σ} {h' : Handler Op τ} {R : σ → τ → Prop} {A : Entry Op → Prop}

/-- **Relational runs.** If from related states every operation of the run is answered alike and leaves
related states, the program ends alike, after the same operations, in related states. -/
theorem exec_related
    (hact : ∀ {β : Type} (o : Op β) (s : σ) (t : τ), R s t → A ⟨β, o, (h.act o s).1⟩ →
      (h'.act o t).1 = (h.act o s).1 ∧ R (h.act o s).2 (h'.act o t).2) :
    ∀ (p : Prog Op ε α) {s : σ} {t : τ}, R s t → (∀ e ∈ (exec h p s).trace, A e) →
      (exec h' p t).result = (exec h p s).result ∧ (exec h' p t).trace = (exec h p s).trace ∧
        R (exec h p s).state (exec h' p t).state
  | ret _, _, _, hR, _ => ⟨rfl, rfl, hR⟩
  | fail _, _, _, hR, _ => ⟨rfl, rfl, hR⟩
  | call o next, s, t, hR, hA => by
    rw [exec_call, trace_after] at hA
    obtain ⟨hanswer, hstate⟩ := hact o s t hR (hA _ List.mem_cons_self)
    obtain ⟨hresult, htrace, hrest⟩ := exec_related hact (next (h.act o s).1) hstate
      fun e he => hA e (List.mem_cons_of_mem _ he)
    rw [exec_call, exec_call, hanswer]
    refine ⟨hresult, ?_, hrest⟩
    rw [trace_after, trace_after, htrace]

end related

end WappPlanner.Lib.Programs
