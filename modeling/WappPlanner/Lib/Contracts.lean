import WappPlanner.Lib.Programs

/-! # Contracts of programs

A contract says which operations a program may perform, and what it may rely on in their answers.
`Meets C p Q` says that `p` keeps the contract, however it is answered within it, and returns only what
satisfies `Q`. It is proved along the program, with one rule for each way of composing programs.

* `exec_meets`: what every allowed operation preserves, the program preserves;
* `exec_alike`: where allowed operations are answered alike, the program ends alike. -/

namespace WappPlanner.Lib.Contracts

open WappPlanner.Lib.Programs Prog Outcome

/-- The operations that are allowed, and the answers to expect. -/
structure Contract (Op : Type → Type) where
  allows : {β : Type} → Op β → Prop
  answers : {β : Type} → Op β → β → Prop

variable {Op : Type → Type} {σ τ ε α β γ : Type} {C : Contract Op}

variable (C) in
/-- **The program keeps the contract** and returns only what satisfies `Q`. -/
def Meets : Prog Op ε α → (α → Prop) → Prop
  | ret a, Q => Q a
  | fail _, _ => True
  | call o next, Q => C.allows o ∧ ∀ b, C.answers o b → Meets (next b) Q

section rules

variable {Q Q' : α → Prop} {S : β → Prop}

theorem meets_pure {a : α} (h : Q a) : Meets C (pure a : Prog Op ε α) Q := h

theorem meets_fail {e : ε} : Meets C (fail e : Prog Op ε α) Q := trivial

theorem meets_bind {f : α → Prog Op ε β} : ∀ {p : Prog Op ε α}, Meets C p Q →
    (∀ a, Q a → Meets C (f a) S) → Meets C (p >>= f) S
  | ret a, h, hf => hf a h
  | fail _, _, _ => trivial
  | call _ _, h, hf => ⟨h.1, fun b hb => meets_bind (h.2 b hb) hf⟩

theorem meets_perform {o : Op γ} {f : γ → Prog Op ε β} (ho : C.allows o)
    (hf : ∀ b, C.answers o b → Meets C (f b) S) : Meets C (perform o >>= f) S := ⟨ho, hf⟩

theorem meets_ofExcept {x : Except ε α} (h : ∀ a, x = .ok a → Q a) :
    Meets C (ofExcept x : Prog Op ε α) Q := by
  cases x with
  | ok a => exact h a rfl
  | error e => trivial

theorem meets_performE {o : Op (Except ε γ)} {f : γ → Prog Op ε β} (ho : C.allows o)
    (hf : ∀ a, C.answers o (.ok a) → Meets C (f a) S) : Meets C (performE o >>= f) S := by
  refine ⟨ho, fun b hb => ?_⟩
  cases b with
  | ok a => exact hf a hb
  | error e => trivial

end rules

/-! ### What a contract gives -/

variable (C) in
/-- Allowed operations are answered as the contract says, and preserve `I`. -/
def Honours (h : Handler Op σ) (I : σ → Prop) : Prop :=
  ∀ {β : Type} (o : Op β) (s : σ), I s → C.allows o →
    C.answers o (h.act o s).1 ∧ I (h.act o s).2

variable (C) in
/-- Allowed operations are answered alike in related states, as the contract says, and leave related
states. -/
def Alike (h : Handler Op σ) (h' : Handler Op τ) (R : σ → τ → Prop) : Prop :=
  ∀ {β : Type} (o : Op β) (s : σ) (t : τ), R s t → C.allows o →
    C.answers o (h.act o s).1 ∧ (h'.act o t).1 = (h.act o s).1 ∧ R (h.act o s).2 (h'.act o t).2

section runs

variable {h : Handler Op σ} {h' : Handler Op τ} {I : σ → Prop} {R : σ → τ → Prop} {Q : α → Prop}

theorem exec_keeps (hact : ∀ {β : Type} (o : Op β) (s : σ), I s → I (h.act o s).2) :
    ∀ (p : Prog Op ε α) {s : σ}, I s → I (exec h p s).state
  | ret _, _, hs => hs
  | fail _, _, hs => hs
  | call o next, s, hs => by
    rw [exec_call, state_after]
    exact exec_keeps hact (next (h.act o s).1) (hact o s hs)

/-- **What allowed operations preserve**, a program that keeps the contract preserves. -/
theorem exec_meets (hh : Honours C h I) : ∀ {p : Prog Op ε α} {s : σ}, Meets C p Q → I s →
    I (exec h p s).state
  | ret _, _, _, hs => hs
  | fail _, _, _, hs => hs
  | call o next, s, hp, hs => by
    obtain ⟨hanswer, hstate⟩ := hh o s hs hp.1
    rw [exec_call, state_after]
    exact exec_meets hh (hp.2 _ hanswer) hstate

/-- **Where allowed operations are answered alike**, a program that keeps the contract ends alike, after
the same operations. -/
theorem exec_alike (hh : Alike C h h' R) : ∀ {p : Prog Op ε α} {s : σ} {t : τ}, Meets C p Q →
    R s t → (exec h' p t).result = (exec h p s).result ∧ (exec h' p t).trace = (exec h p s).trace ∧
      R (exec h p s).state (exec h' p t).state
  | ret _, _, _, _, hR => ⟨rfl, rfl, hR⟩
  | fail _, _, _, _, hR => ⟨rfl, rfl, hR⟩
  | call o next, s, t, hp, hR => by
    obtain ⟨hanswer, hsame, hstate⟩ := hh o s t hR hp.1
    obtain ⟨hresult, htrace, hrest⟩ := exec_alike hh (hp.2 _ hanswer) hstate
    rw [exec_call, exec_call, hsame]
    refine ⟨hresult, ?_, hrest⟩
    rw [trace_after, trace_after, htrace]

end runs

end WappPlanner.Lib.Contracts
