import Mathlib.Data.Finset.Insert
import Mathlib.Data.List.Flatten
import Mathlib.Data.List.Nodup
import Mathlib.Data.List.Pairwise
import Mathlib.Logic.Function.Basic

/-! # Placements

Each place holds a list. A placement is exact about a set when it holds the elements of the set, each
once, and nothing else; putting a new element somewhere and moving a whole list to an empty place keep
it exact. -/

namespace WappPlanner.Lib.Placement

variable {ι α : Type*}

/-- The element is held exactly once: at one place, and there once. -/
def Once [DecidableEq α] (L : ι → List α) (a : α) : Prop := ∃ i, (L i).count a = 1 ∧ ∀ j, j ≠ i → a ∉ L j

/-- The places hold the elements of the set, each once, and nothing else. -/
structure Exact (L : ι → List α) (X : Finset α) : Prop where
  nodup : ∀ i, (L i).Nodup
  apart : ∀ i j a, a ∈ L i → a ∈ L j → i = j
  mem_iff : ∀ a, a ∈ X ↔ ∃ i, a ∈ L i

variable {L : ι → List α} {X : Finset α} {a : α} {i j : ι}

theorem exact_empty (h : ∀ i, L i = []) : Exact L ∅ where
  nodup i := by rw [h i]; exact List.nodup_nil
  apart i j a ha := by rw [h i] at ha; cases ha
  mem_iff a := by simp [h]

namespace Exact

theorem once [DecidableEq α] (h : Exact L X) (ha : a ∈ X) : Once L a := by
  obtain ⟨i, hi⟩ := (h.mem_iff a).mp ha
  exact ⟨i, List.count_eq_one_of_mem (h.nodup i) hi, fun j hne hj => hne (h.apart j i a hj hi)⟩

/-- **A new element** goes to one place. -/
theorem push [DecidableEq ι] [DecidableEq α] (h : Exact L X) (ha : a ∉ X) (i : ι) :
    Exact (Function.update L i (L i ++ [a])) (insert a X) := by
  have hnone : ∀ j, a ∉ L j := fun j hj => ha ((h.mem_iff a).mpr ⟨j, hj⟩)
  have hmem : ∀ j b, b ∈ Function.update L i (L i ++ [a]) j ↔ b ∈ L j ∨ j = i ∧ b = a := by
    intro j b
    by_cases hj : j = i
    · subst hj
      simp
    · simp [hj]
  refine ⟨fun j => ?_, fun j k b hj hk => ?_, fun b => ?_⟩
  · by_cases hj : j = i
    · subst hj
      rw [Function.update_self, List.nodup_append]
      refine ⟨h.nodup j, List.nodup_singleton a, fun b hb c hc hbc => ?_⟩
      rw [List.mem_singleton.mp hc] at hbc
      exact hnone j (hbc ▸ hb)
    · rw [Function.update_of_ne hj]
      exact h.nodup j
  · rw [hmem] at hj hk
    rcases hj with hj | ⟨rfl, rfl⟩
    · rcases hk with hk | ⟨rfl, rfl⟩
      · exact h.apart j k b hj hk
      · exact absurd hj (hnone j)
    · rcases hk with hk | ⟨rfl, -⟩
      · exact absurd hk (hnone k)
      · rfl
  · simp only [hmem, Finset.mem_insert, h.mem_iff b, exists_or]
    constructor
    · rintro (rfl | hb)
      · exact .inr ⟨i, rfl, rfl⟩
      · exact .inl hb
    · rintro (hb | ⟨j, -, rfl⟩)
      · exact .inr hb
      · exact .inl rfl

/-- **A whole list** goes to an empty place. -/
theorem move [DecidableEq ι] (h : Exact L X) (hij : i ≠ j) (hj : L j = []) :
    Exact (Function.update (Function.update L i []) j (L i)) X := by
  have hat : ∀ k, Function.update (Function.update L i []) j (L i) k =
      if k = j then L i else if k = i then [] else L k := by
    intro k
    simp only [Function.update_apply]
  have hmem : ∀ k b, b ∈ Function.update (Function.update L i []) j (L i) k ↔
      k = j ∧ b ∈ L i ∨ k ≠ j ∧ k ≠ i ∧ b ∈ L k := by
    intro k b
    rw [hat]
    split_ifs with hk hk'
    · simp [hk]
    · have hne : k ≠ j := hk
      simp [hk', hk' ▸ hne]
    · simp [hk, hk']
  refine ⟨fun k => ?_, fun k l b hk hl => ?_, fun b => ?_⟩
  · rw [hat]
    split_ifs
    · exact h.nodup i
    · exact List.nodup_nil
    · exact h.nodup k
  · rw [hmem] at hk hl
    rcases hk with ⟨rfl, hk⟩ | ⟨-, hki, hk⟩
    · rcases hl with ⟨rfl, -⟩ | ⟨-, hli, hl⟩
      · rfl
      · exact absurd (h.apart l i b hl hk) hli
    · rcases hl with ⟨rfl, hl⟩ | ⟨-, -, hl⟩
      · exact absurd (h.apart k i b hk hl) hki
      · exact h.apart k l b hk hl
  · rw [h.mem_iff]
    simp only [hmem]
    constructor
    · rintro ⟨k, hk⟩
      by_cases hki : k = i
      · exact ⟨j, .inl ⟨rfl, hki ▸ hk⟩⟩
      · refine ⟨k, .inr ⟨fun hkj => ?_, hki, hk⟩⟩
        rw [hkj, hj] at hk
        cases hk
    · rintro ⟨k, ⟨-, hb⟩ | ⟨-, -, hb⟩⟩
      · exact ⟨i, hb⟩
      · exact ⟨k, hb⟩

end Exact

/-! ### Boxes

A box has a name and contents. What is kept of boxes that are apart is apart, in any order. -/

section boxes

variable {κ : Type*} {boxes : List (κ × List α)} {k : κ} {l : List α} {a : α}

/-- No two boxes have a name or an element in common, and no box has an element twice. -/
structure Apart (boxes : List (κ × List α)) : Prop where
  names : (boxes.map Prod.fst).Nodup
  contents : (boxes.flatMap Prod.snd).Nodup

namespace Apart

theorem perm {boxes' : List (κ × List α)} (h : Apart boxes) (hp : boxes.Perm boxes') :
    Apart boxes' :=
  ⟨(hp.map _).nodup_iff.mp h.names, (hp.flatMap_right _).nodup_iff.mp h.contents⟩

/-- **Some of the boxes**, in any order. -/
theorem subperm {boxes' : List (κ × List α)} (h : Apart boxes) (hs : boxes'.Subperm boxes) :
    Apart boxes' := by
  obtain ⟨l, hl, hsub⟩ := hs
  have hsome : Apart l := ⟨(hsub.map _).nodup h.names, (hsub.flatMap _).nodup h.contents⟩
  exact hsome.perm hl

theorem eq_of_mem (h : Apart boxes) {b b' : κ × List α} (hb : b ∈ boxes) (hb' : b' ∈ boxes)
    (ha : a ∈ b.2) (ha' : a ∈ b'.2) : b = b' := by
  by_contra hne
  have hdisjoint := (List.nodup_flatMap.mp h.contents).2
  have hsymm : Std.Symm (Function.onFun List.Disjoint (Prod.snd : κ × List α → List α)) :=
    ⟨fun _ _ hxy => hxy.symm⟩
  have hpair : List.Disjoint b.2 b'.2 := hdisjoint.forall hb hb' hne
  exact hpair ha ha'

theorem cons (h : Apart boxes) (hk : ∀ b ∈ boxes, b.1 ≠ k) (ha : ∀ b ∈ boxes, a ∉ b.2) :
    Apart ((k, [a]) :: boxes) := by
  refine ⟨?_, ?_⟩
  · rw [List.map_cons, List.nodup_cons]
    refine ⟨fun hmem => ?_, h.names⟩
    obtain ⟨b, hb, hbk⟩ := List.mem_map.mp hmem
    exact hk b hb hbk
  · rw [List.flatMap_cons, List.singleton_append, List.nodup_cons]
    refine ⟨fun hmem => ?_, h.contents⟩
    obtain ⟨b, hb, hab⟩ := List.mem_flatMap.mp hmem
    exact ha b hb hab

theorem put (h : Apart ((k, l) :: boxes)) (ha : ∀ b ∈ (k, l) :: boxes, a ∉ b.2) :
    Apart ((k, l ++ [a]) :: boxes) := by
  refine ⟨h.names, ?_⟩
  have hcontents : (a :: (l ++ boxes.flatMap Prod.snd)).Nodup := by
    rw [List.nodup_cons]
    refine ⟨fun hmem => ?_, h.contents⟩
    obtain ⟨b, hb, hab⟩ := List.mem_flatMap.mp
      (show a ∈ ((k, l) :: boxes).flatMap Prod.snd from hmem)
    exact ha b hb hab
  have hperm : (a :: (l ++ boxes.flatMap Prod.snd)).Perm
      (((k, l ++ [a]) :: boxes).flatMap Prod.snd) := by
    rw [List.flatMap_cons, List.append_assoc]
    exact List.perm_middle.symm
  exact hperm.nodup_iff.mp hcontents

end Apart

end boxes

end WappPlanner.Lib.Placement
