import Mathlib.Tactic.Common

/-! # Sections

A list made of sections, one after the other, each of elements of one mark and possibly empty. If the
mark of a section is none of the marks that may follow it, the section ends where they begin: two
such lists that are equal have equal sections (`section_inj`). -/

namespace WappPlanner.Lib.Sections

variable {α μ : Type*} {mark : α → μ} {m : μ} {ms ms' : List μ} {xs xs' rest rest' : List α}

/-- All elements have the mark `m`. -/
def Marked (mark : α → μ) (m : μ) (xs : List α) : Prop := ∀ a ∈ xs, mark a = m

/-- The list is empty, or the mark of its first element is one of `ms`. -/
def Starts (mark : α → μ) (ms : List μ) (xs : List α) : Prop := ∀ a ∈ xs.head?, mark a ∈ ms

theorem starts_nil : Starts mark ms [] := fun _ h => by cases h

theorem starts_cons {a : α} : Starts mark ms (a :: rest) ↔ mark a ∈ ms := by
  simp [Starts]

theorem Starts.mono (h : Starts mark ms xs) (hsub : ms ⊆ ms') : Starts mark ms' xs :=
  fun a ha => hsub (h a ha)

theorem Starts.append (h : Starts mark ms rest) (hxs : Marked mark m xs) :
    Starts mark (m :: ms) (xs ++ rest) := by
  cases xs with
  | nil => exact h.mono (List.subset_cons_self m ms)
  | cons a xs =>
    have ha : mark a = m := hxs a List.mem_cons_self
    rw [List.cons_append, starts_cons, ha]
    exact List.mem_cons_self

/-- What may follow a section is not one more element of it. -/
theorem Starts.ne_cons {a : α} (h : Starts mark ms rest) (hm : m ∉ ms) (ha : mark a = m) :
    rest ≠ a :: xs := by
  rintro rfl
  rw [starts_cons, ha] at h
  exact hm h

/-- **A section ends where a mark begins that is not its own.** -/
theorem section_inj (hm : m ∉ ms) (hxs : Marked mark m xs) (hxs' : Marked mark m xs')
    (hrest : Starts mark ms rest) (hrest' : Starts mark ms rest')
    (h : xs ++ rest = xs' ++ rest') : xs = xs' ∧ rest = rest' := by
  induction xs generalizing xs' with
  | nil =>
    cases xs' with
    | nil => exact ⟨rfl, h⟩
    | cons a xs' => exact absurd h (hrest.ne_cons hm (hxs' a List.mem_cons_self))
  | cons a xs ih =>
    cases xs' with
    | nil => exact absurd h.symm (hrest'.ne_cons hm (hxs a List.mem_cons_self))
    | cons a' xs' =>
      obtain ⟨rfl, htail⟩ := List.cons.inj h
      have hxs₁ : Marked mark m xs := fun b hb => hxs b (List.mem_cons_of_mem _ hb)
      have hxs₂ : Marked mark m xs' := fun b hb => hxs' b (List.mem_cons_of_mem _ hb)
      obtain ⟨rfl, hrests⟩ := ih hxs₁ hxs₂ htail
      exact ⟨rfl, hrests⟩

end WappPlanner.Lib.Sections
