import Mathlib.Data.List.Induction
import Mathlib.Tactic.Common

/-! # Runs of a step function

`run step s cs` is the state after the inputs `cs`; `Along step P s cs` says that `P` holds of every
state of the run and the input it meets there, and `history step s cs` lists those states and
inputs. An invariant is proved once for a step (`run_inv`, `history_inv`), and `prefixes_iff` turns a
property of all states of a run into a condition on its steps. -/

namespace WappPlanner.Lib.Runs

variable {σ κ : Type*} (step : σ → κ → σ)

/-- The state after a list of inputs. -/
def run (s : σ) (cs : List κ) : σ := cs.foldl step s

/-- `P` holds at every step of the run. -/
def Along (P : σ → κ → Prop) : σ → List κ → Prop
  | _, [] => True
  | s, c :: cs => P s c ∧ Along P (step s c) cs

@[simp] theorem run_nil (s : σ) : run step s [] = s := rfl

@[simp] theorem run_cons (s : σ) (c : κ) (cs : List κ) :
    run step s (c :: cs) = run step (step s c) cs := rfl

theorem run_append (s : σ) (cs ds : List κ) :
    run step s (cs ++ ds) = run step (run step s cs) ds := List.foldl_append

@[simp] theorem along_nil (P : σ → κ → Prop) (s : σ) : Along step P s [] := trivial

@[simp] theorem along_cons {P : σ → κ → Prop} {s : σ} {c : κ} {cs : List κ} :
    Along step P s (c :: cs) ↔ P s c ∧ Along step P (step s c) cs := Iff.rfl

variable {step}

theorem along_append {P : σ → κ → Prop} : ∀ {s : σ} {cs ds : List κ},
    Along step P s (cs ++ ds) ↔ Along step P s cs ∧ Along step P (run step s cs) ds
  | s, [], ds => by simp
  | s, c :: cs, ds => by
    rw [List.cons_append, along_cons, along_cons, along_append, run_cons, and_assoc]

theorem along_iff {P : σ → κ → Prop} {s : σ} {cs : List κ} :
    Along step P s cs ↔ ∀ pre c post, cs = pre ++ c :: post → P (run step s pre) c := by
  constructor
  · rintro h pre c post rfl
    exact (along_append.mp h).2.1
  · intro h
    induction cs generalizing s with
    | nil => trivial
    | cons c cs ih =>
      refine ⟨h [] c cs rfl, ih fun pre d post hcs => ?_⟩
      exact h (c :: pre) d post (by rw [hcs]; rfl)

variable (step) in
/-- The states a run meets, each with the input that comes next. -/
def history : σ → List κ → List (σ × κ)
  | _, [] => []
  | s, c :: cs => (s, c) :: history (step s c) cs

theorem history_append {s : σ} {cs ds : List κ} :
    history step s (cs ++ ds) = history step s cs ++ history step (run step s cs) ds := by
  induction cs generalizing s with
  | nil => rfl
  | cons c cs ih => rw [List.cons_append, history, ih, history, List.cons_append, run_cons]

theorem mem_history {s : σ} {cs : List κ} {e : σ × κ} :
    e ∈ history step s cs ↔ ∃ pre post, cs = pre ++ e.2 :: post ∧ e.1 = run step s pre := by
  induction cs generalizing s with
  | nil => simp [history]
  | cons c cs ih =>
    rw [history, List.mem_cons, ih]
    constructor
    · rintro (rfl | ⟨pre, post, rfl, he⟩)
      · exact ⟨[], cs, rfl, rfl⟩
      · exact ⟨c :: pre, post, rfl, he⟩
    · rintro ⟨pre, post, hcs, he⟩
      cases pre with
      | nil =>
        obtain ⟨rfl, -⟩ := List.cons.inj hcs
        exact .inl (Prod.ext he rfl)
      | cons d pre =>
        obtain ⟨rfl, hrest⟩ := List.cons.inj hcs
        exact .inr ⟨pre, post, hrest, he⟩

variable {I G : σ → Prop} {C P Q : σ → κ → Prop}

/-- **Invariants of a state with its history.** -/
theorem history_inv {J : σ → List (σ × κ) → Prop}
    (hstep : ∀ s h c, J s h → C s c → J (step s c) (h ++ [(s, c)])) {s : σ} {cs : List κ}
    (hs : J s []) (h : Along step C s cs) : J (run step s cs) (history step s cs) := by
  suffices hgen : ∀ (past : List (σ × κ)) (s : σ) (cs : List κ), J s past → Along step C s cs →
      J (run step s cs) (past ++ history step s cs) by
    simpa using hgen [] s cs hs h
  intro past s cs
  induction cs generalizing past s with
  | nil =>
    intro hJ _
    simpa [history] using hJ
  | cons c cs ih =>
    intro hJ hC
    have h := ih _ _ (hstep s past c hJ hC.1) hC.2
    rwa [List.append_assoc] at h

/-- **Invariants of a state with its history**, where what a step does depends on where in the run it
stands. -/
theorem history_rec {J : σ → List (σ × κ) → Prop} {s : σ} {cs : List κ} (hs : J s [])
    (hstep : ∀ pre c post, cs = pre ++ c :: post →
      J (run step s pre) (history step s pre) →
        J (step (run step s pre) c) (history step s pre ++ [(run step s pre, c)])) :
    J (run step s cs) (history step s cs) := by
  induction cs using List.reverseRecOn with
  | nil => exact hs
  | append_singleton cs c ih =>
    rw [run_append, history_append]
    refine hstep cs c [] rfl (ih fun pre d post hcs => hstep pre d (post ++ [c]) ?_)
    rw [hcs, List.append_assoc, List.cons_append]

/-- **Invariants**: what every step meeting `C` preserves holds after every run whose steps all
meet `C`. -/
theorem run_inv (hstep : ∀ s c, I s → C s c → I (step s c)) {s : σ} {cs : List κ} (hs : I s)
    (h : Along step C s cs) : I (run step s cs) := by
  induction cs generalizing s with
  | nil => exact hs
  | cons c cs ih => exact ih (hstep s c hs h.1) h.2

theorem run_keeps (hstep : ∀ s c, I s → I (step s c)) {s : σ} (hs : I s) (cs : List κ) :
    I (run step s cs) := by
  induction cs generalizing s with
  | nil => exact hs
  | cons c cs ih => exact ih (hstep s c hs)

/-- Two properties that agree at the steps the invariant allows agree on the run. -/
theorem along_congr (hstep : ∀ s c, I s → C s c → I (step s c))
    (hPQ : ∀ s c, I s → C s c → (P s c ↔ Q s c)) {s : σ} {cs : List κ} (hs : I s)
    (h : Along step C s cs) : Along step P s cs ↔ Along step Q s cs := by
  induction cs generalizing s with
  | nil => exact Iff.rfl
  | cons c cs ih =>
    rw [along_cons, along_cons, hPQ s c hs h.1, ih (hstep s c hs h.1) h.2]

/-- **Exact conditions.** If, from a good state, a step leads to a good state exactly when it meets
`Q`, then all states of a run are good exactly when all its steps meet `Q`. -/
theorem prefixes_iff (hstep : ∀ s c, I s → C s c → I (step s c))
    (hQ : ∀ s c, I s → C s c → G s → (G (step s c) ↔ Q s c)) {s : σ} {cs : List κ} (hs : I s)
    (hG : G s) (h : Along step C s cs) :
    (∀ pre, pre <+: cs → G (run step s pre)) ↔ Along step Q s cs := by
  induction cs generalizing s with
  | nil => simpa using hG
  | cons c cs ih =>
    constructor
    · intro hpre
      have hc : G (step s c) := hpre [c] (by simp)
      refine ⟨(hQ s c hs h.1 hG).mp hc, (ih (hstep s c hs h.1) hc h.2).mp fun pre hp => ?_⟩
      exact hpre (c :: pre) (by simpa using hp)
    · rintro ⟨hq, hqs⟩ pre hp
      have hc : G (step s c) := (hQ s c hs h.1 hG).mpr hq
      cases pre with
      | nil => exact hG
      | cons d pre =>
        obtain ⟨rfl, hpre⟩ := List.cons_prefix_cons.mp hp
        exact (ih (hstep s _ hs h.1) hc h.2).mpr hqs pre hpre

/-! ### Inserted inputs -/

section inserted

/-- The inputs of a run without those that were inserted, which are marked `true`. -/
def originals (ds : List (κ × Bool)) : List κ := (ds.filter fun d => !d.2).map Prod.fst

theorem originals_append (ds es : List (κ × Bool)) :
    originals (ds ++ es) = originals ds ++ originals es := by
  simp [originals]

@[simp] theorem originals_map_false (cs : List κ) : originals (cs.map (·, false)) = cs := by
  induction cs with
  | nil => rfl
  | cons c cs ih => exact congrArg (c :: ·) ih

/-- **Inserted inputs that change nothing** leave no trace: up to every place, the run is what it is
without them. -/
theorem run_originals {s : σ} {ds : List (κ × Bool)}
    (h : ∀ pre c post, ds = pre ++ (c, true) :: post →
      run step s (pre.map Prod.fst) = run step s (originals pre) →
        step (run step s (originals pre)) c = run step s (originals pre)) :
    run step s (ds.map Prod.fst) = run step s (originals ds) := by
  induction ds using List.reverseRecOn with
  | nil => rfl
  | append_singleton ds d ih =>
    have hpre : run step s (ds.map Prod.fst) = run step s (originals ds) := by
      refine ih fun pre c post hds => h pre c (post ++ [d]) ?_
      rw [hds, List.append_assoc, List.cons_append]
    obtain ⟨c, inserted⟩ := d
    rw [List.map_append, run_append, originals_append, run_append, hpre]
    cases inserted with
    | false => rfl
    | true => exact h ds c [] rfl hpre

end inserted

end WappPlanner.Lib.Runs
