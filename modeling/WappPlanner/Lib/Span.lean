import Mathlib.Data.List.Infix
import WappPlanner.Lib.Text

/-! # The widest enclosed part of a list

`Enclosed a b l`: the list `l` begins with the mark `a` and ends with another mark `b`. The widest
enclosed part of a list goes from its first `a` to its last `b`: whatever is enclosed and occurs in
the list occurs inside it (`Widest.within`), and a list has one as soon as some `a` stands before some
`b` (`widest_or_apart`). -/

namespace WappPlanner.Lib.Span

variable {α : Type*} {a b : α} {l l' m pre post pre' post' : List α}

/-- The list begins with `a` and ends with `b`, two different places of it. -/
def Enclosed (a b : α) (l : List α) : Prop := ∃ inner, l = a :: (inner ++ [b])

/-- `m` goes from the first `a` of `pre ++ m ++ post` to the last `b`. -/
structure Widest (a b : α) (pre m post : List α) : Prop where
  enclosed : Enclosed a b m
  first : a ∉ pre
  last : b ∉ post

/-- No `a` stands before a `b`. -/
def Apart (a b : α) (l : List α) : Prop :=
  ∀ before between after, l ≠ before ++ a :: (between ++ b :: after)

theorem Widest.self (h : Enclosed a b m) : Widest a b [] m [] :=
  ⟨h, List.not_mem_nil, List.not_mem_nil⟩

/-- What stands before an element that comes first is not longer than what stands before it
elsewhere. -/
theorem length_before_le {x : α} {rest rest' : List α} (hx : x ∉ pre)
    (h : pre ++ x :: rest = pre' ++ x :: rest') : pre.length ≤ pre'.length := by
  rcases Text.before_separator hx h.symm with heq | hlonger
  · rw [heq]
  · have hlen := hlonger.length_le
    rw [List.length_append, List.length_singleton] at hlen
    omega

/-- **Whatever is enclosed lies within the widest part.** -/
theorem Widest.within (h : Widest a b pre m post) (hl : Enclosed a b l)
    (heq : pre ++ m ++ post = pre' ++ l ++ post') :
    pre.length ≤ pre'.length ∧ post.length ≤ post'.length := by
  obtain ⟨inner, rfl⟩ := h.enclosed
  obtain ⟨inner', rfl⟩ := hl
  constructor
  · have hfront : pre ++ a :: (inner ++ [b] ++ post) = pre' ++ a :: (inner' ++ [b] ++ post') := by
      simpa using heq
    exact length_before_le h.first hfront
  · have hback := congrArg List.reverse heq
    have hfront : post.reverse ++ b :: (inner.reverse ++ a :: pre.reverse) =
        post'.reverse ++ b :: (inner'.reverse ++ a :: pre'.reverse) := by simpa using hback
    have hlen := length_before_le (by simpa using h.last) hfront
    simpa using hlen

/-- A part that starts no earlier and ends no later is a part of the other one. -/
theorem infix_of_within (heq : pre ++ m ++ post = pre' ++ l ++ post')
    (hpre : pre.length ≤ pre'.length) (hpost : post.length ≤ post'.length) : l <:+: m := by
  have hlen := congrArg List.length heq
  simp only [List.length_append] at hlen
  have hm : m = ((pre' ++ l ++ post').drop pre.length).take m.length := by
    rw [← heq, List.append_assoc, List.drop_left, List.take_left]
  have hdrop : (pre' ++ l ++ post').drop pre.length = pre'.drop pre.length ++ l ++ post' := by
    rw [List.append_assoc, List.drop_append_of_le_length hpre, List.append_assoc]
  have htake : (pre'.drop pre.length ++ l).take m.length = pre'.drop pre.length ++ l := by
    refine List.take_of_length_le ?_
    simp only [List.length_append, List.length_drop]
    omega
  have hrest : m.length - (pre'.drop pre.length ++ l).length = post'.length - post.length := by
    simp only [List.length_append, List.length_drop]
    omega
  refine ⟨pre'.drop pre.length, post'.take (post'.length - post.length), ?_⟩
  rw [hm, hdrop, List.take_append, htake, hrest]

theorem Widest.infix (h : Widest a b pre m post) (hl : Enclosed a b l)
    (hocc : l <:+: pre ++ m ++ post) : l <:+: m := by
  obtain ⟨pre', post', heq⟩ := hocc
  obtain ⟨hpre, hpost⟩ := h.within hl heq.symm
  exact infix_of_within heq.symm hpre hpost

/-- **A list has a widest enclosed part**, or no `a` stands before a `b` in it. -/
theorem widest_or_apart (l : List α) :
    (∃ pre m post, l = pre ++ m ++ post ∧ Widest a b pre m post) ∨ Apart a b l := by
  by_cases hapart : Apart a b l
  · exact .inr hapart
  · left
    unfold Apart at hapart
    push Not at hapart
    obtain ⟨before, between, after, rfl⟩ := hapart
    have ha : a ∈ before ++ [a] := by simp
    obtain ⟨pre, rest, hpre, hfirst⟩ := List.eq_append_cons_of_mem ha
    have hb : b ∈ (rest ++ (between ++ b :: after)).reverse := by simp
    obtain ⟨post, inner, hpost, hlast⟩ := List.eq_append_cons_of_mem hb
    have hrest : rest ++ (between ++ b :: after) = inner.reverse ++ b :: post.reverse := by
      rw [← List.reverse_reverse (rest ++ _), hpost]
      simp
    have hlast' : b ∉ post.reverse := by simpa using hlast
    refine ⟨pre, a :: (inner.reverse ++ [b]), post.reverse, ?_, ⟨_, rfl⟩, hfirst, hlast'⟩
    calc before ++ a :: (between ++ b :: after)
        = (before ++ [a]) ++ (between ++ b :: after) := by simp
      _ = pre ++ a :: (rest ++ (between ++ b :: after)) := by rw [hpre]; simp
      _ = pre ++ a :: (inner.reverse ++ [b]) ++ post.reverse := by rw [hrest]; simp

/-- An enclosed part of a list shows that it is not apart. -/
theorem Apart.not_infix (h : Apart a b l) (hm : Enclosed a b m) : ¬ m <:+: l := by
  rintro ⟨before, after, rfl⟩
  obtain ⟨inner, rfl⟩ := hm
  exact h before inner after (by simp)

theorem split_at {i : ℕ} (h : l[i]? = some a) : l = l.take i ++ a :: l.drop (i + 1) := by
  obtain ⟨hlt, rfl⟩ := List.getElem?_eq_some_iff.mp h
  rw [← List.drop_eq_getElem_cons hlt, List.take_append_drop]

theorem Apart.le {i j : ℕ} (h : Apart a b l) (hi : l[i]? = some a)
    (hj : l[j]? = some b) : j ≤ i := by
  by_contra hlt
  have hj' : (l.drop (i + 1))[j - (i + 1)]? = some b := by
    rw [List.getElem?_drop, show i + 1 + (j - (i + 1)) = j by omega, hj]
  have hsplit := split_at hi
  rw [split_at hj'] at hsplit
  exact h _ _ _ hsplit

end WappPlanner.Lib.Span
