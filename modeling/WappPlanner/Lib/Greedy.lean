import Mathlib.Data.List.Chain

/-! # Greedy division of a list

A list is divided greedily when an element joins the group before it exactly if it is `near` that
group, which is decided by the group's first element, its last element and the new one. `Divides`
says so of a division without saying how it was made; `Divides.join` and `Divides.start` make one,
element by element. -/

namespace WappPlanner.Lib

variable {α : Type*}

/-- `groups` divide `xs`, and two consecutive elements of `xs` are in one group if and only if the
second is near: `together` speaks of those in one group, `apart` of those in two. -/
structure Divides (near : α → α → α → Prop) (xs : List α) (groups : List (List α)) : Prop where
  flatten : groups.flatten = xs
  nonempty : ∀ g ∈ groups, g ≠ []
  together : ∀ g ∈ groups, ∀ first ∈ g.head?, g.IsChain (near first)
  apart : groups.IsChain fun g g' =>
    ∀ first ∈ g.head?, ∀ x ∈ g.getLast?, ∀ y ∈ g'.head?, ¬ near first x y

namespace Divides

variable {near : α → α → α → Prop} {xs : List α} {gs : List (List α)} {g : List α} {y : α}

theorem nil : Divides near [] [] := ⟨rfl, by simp, by simp, .nil⟩

theorem join (h : Divides near xs (gs ++ [g]))
    (hnear : ∀ first ∈ g.head?, ∀ x ∈ g.getLast?, near first x y) :
    Divides near (xs ++ [y]) (gs ++ [g ++ [y]]) := by
  have hg : g ≠ [] := h.nonempty g (by simp)
  have hhead : (g ++ [y]).head? = g.head? := List.head?_append_of_ne_nil _ hg
  refine ⟨?_, fun g' hg' => ?_, fun g' hg' first hfirst => ?_, ?_⟩
  · rw [← h.flatten]
    simp
  · rcases List.mem_append.mp hg' with hg' | hg'
    · exact h.nonempty g' (List.mem_append_left _ hg')
    · rw [List.mem_singleton.mp hg']
      simp
  · rcases List.mem_append.mp hg' with hg' | hg'
    · exact h.together g' (List.mem_append_left _ hg') first hfirst
    · obtain rfl := List.mem_singleton.mp hg'
      rw [hhead] at hfirst
      refine List.isChain_append.mpr ⟨h.together g (by simp) first hfirst, .singleton _, ?_⟩
      intro x hx y' hy'
      obtain rfl : y = y' := by simpa using hy'
      exact hnear first hfirst x hx
  · obtain ⟨hgs, -, hlast⟩ := List.isChain_append.mp h.apart
    refine List.isChain_append.mpr ⟨hgs, .singleton _, ?_⟩
    intro g₁ hg₁ g₂ hg₂ first hfirst x hx y' hy'
    obtain rfl : g ++ [y] = g₂ := by simpa using hg₂
    rw [hhead] at hy'
    exact hlast g₁ hg₁ g (by simp) first hfirst x hx y' hy'

theorem start (h : Divides near xs gs)
    (hfar : ∀ g ∈ gs.getLast?, ∀ first ∈ g.head?, ∀ x ∈ g.getLast?, ¬ near first x y) :
    Divides near (xs ++ [y]) (gs ++ [[y]]) := by
  refine ⟨?_, fun g' hg' => ?_, fun g' hg' first hfirst => ?_, ?_⟩
  · rw [← h.flatten]
    simp
  · rcases List.mem_append.mp hg' with hg' | hg'
    · exact h.nonempty g' hg'
    · rw [List.mem_singleton.mp hg']
      simp
  · rcases List.mem_append.mp hg' with hg' | hg'
    · exact h.together g' hg' first hfirst
    · rw [List.mem_singleton.mp hg']
      exact .singleton _
  · refine List.isChain_append.mpr ⟨h.apart, .singleton _, ?_⟩
    intro g₁ hg₁ g₂ hg₂ first hfirst x hx y' hy'
    obtain rfl : [y] = g₂ := by simpa using hg₂
    obtain rfl : y = y' := by simpa using hy'
    exact hfar g₁ hg₁ first hfirst x hx

end Divides

end WappPlanner.Lib
