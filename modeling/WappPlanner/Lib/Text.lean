import Mathlib.Data.List.TakeWhile
import Mathlib.Tactic.Common

/-! # Reading back concatenations

When the parts of a concatenation can be told apart: a tail of marked elements after an unmarked
separator, the decimal digits of a number after a separator that is no digit, and what follows the
last occurrence of a mark. And, for parts that only have to be found, when one text occurs in
another. -/

namespace WappPlanner.Lib.Text

variable {α : Type*} {p : α → Bool} {sep sep' : α} {xs xs' ds ds' : List α}

theorem takeWhile_reverse_append (xs : List α) (hsep : p sep = false) (hds : ∀ d ∈ ds, p d = true) :
    (xs ++ sep :: ds).reverse.takeWhile p = ds.reverse := by
  rw [List.reverse_append, List.reverse_cons, List.append_assoc,
    List.takeWhile_append_of_pos (by simpa using hds)]
  simp [hsep]

/-- **The marked tail after the last unmarked element is determined.** -/
theorem append_tail_inj (hsep : p sep = false) (hsep' : p sep' = false) (hds : ∀ d ∈ ds, p d = true)
    (hds' : ∀ d ∈ ds', p d = true) (h : xs ++ sep :: ds = xs' ++ sep' :: ds') :
    xs = xs' ∧ sep = sep' ∧ ds = ds' := by
  have htail := takeWhile_reverse_append xs hsep hds
  rw [h, takeWhile_reverse_append xs' hsep' hds', List.reverse_inj] at htail
  subst htail
  have hlen : xs.length = xs'.length := by simpa using congrArg List.length h
  obtain ⟨hxs, hrest⟩ := List.append_inj h hlen
  exact ⟨hxs, (List.cons.inj hrest).1, rfl⟩

/-- **What stands before a separator** that the other side has not met yet: all that stands before it
there, or more. -/
theorem before_separator {c : α} {l p x y : List α} (hc : c ∉ p) (h : l ++ c :: x = p ++ c :: y) :
    l = p ∨ p ++ [c] <+: l := by
  rcases List.append_eq_append_iff.mp h with ⟨rest, hp, hrest⟩ | ⟨rest, hl, hrest⟩
  · cases rest with
    | nil => exact .inl (by simpa using hp.symm)
    | cons d rest =>
      obtain ⟨rfl, -⟩ := List.cons.inj hrest
      exact absurd (by rw [hp]; simp) hc
  · cases rest with
    | nil => exact .inl (by simpa using hl)
    | cons d rest =>
      obtain ⟨rfl, -⟩ := List.cons.inj hrest
      exact .inr ⟨rest, by rw [hl]; simp⟩

theorem isDigit_repr {n : ℕ} {c : Char} (h : c ∈ n.repr.toList) : c.isDigit = true := by
  rw [Nat.toList_repr] at h
  exact Nat.isDigit_of_mem_toDigits (by decide) (by decide) h

theorem repr_injective : Function.Injective Nat.repr := by
  intro m n h
  have hdigits := congrArg String.toList h
  rw [Nat.toList_repr, Nat.toList_repr] at hdigits
  have hread := Nat.ofDigitChars_toDigits (n := m) (show 1 < 10 by decide) le_rfl
  rw [hdigits, Nat.ofDigitChars_toDigits (by decide) le_rfl] at hread
  exact hread.symm

/-- **A number after a separator that is no digit is read back.** -/
theorem append_repr_inj {s s' : String} {m n : ℕ} {sep : Char} (hsep : sep.isDigit = false)
    (h : s ++ String.singleton sep ++ m.repr = s' ++ String.singleton sep ++ n.repr) :
    s = s' ∧ m = n := by
  have hlist := congrArg String.toList h
  simp only [String.toList_append, String.toList_singleton, List.append_assoc,
    List.singleton_append] at hlist
  obtain ⟨hs, -, hdigits⟩ := append_tail_inj (p := Char.isDigit) hsep hsep
    (fun d hd => isDigit_repr hd) (fun d hd => isDigit_repr hd) hlist
  exact ⟨String.toList_inj.mp hs, repr_injective (String.toList_inj.mp hdigits)⟩

/-! ### After the last mark -/

section marks

variable [DecidableEq α] {c : α} {mark tail : List α}

/-- What follows the last occurrence of `mark`. -/
def afterLast (mark : List α) : List α → Option (List α)
  | [] => none
  | x :: xs =>
    match afterLast mark xs with
    | some tail => some tail
    | none => if mark.isPrefixOf (x :: xs) then some ((x :: xs).drop mark.length) else none

/-- A mark does not occur where its first element does not. -/
theorem afterLast_of_notMem (h : c ∉ xs) : afterLast (c :: mark) xs = none := by
  induction xs with
  | nil => rfl
  | cons x xs ih =>
    have hx : c ≠ x := List.ne_of_not_mem_cons h
    have hxs : c ∉ xs := List.not_mem_of_not_mem_cons h
    have hstart : (c :: mark).isPrefixOf (x :: xs) = false := by
      rw [List.isPrefixOf_cons_cons, beq_false_of_ne hx, Bool.false_and]
    rw [afterLast, ih hxs]
    simp only [hstart, Bool.false_eq_true, if_false]

/-- **What follows a mark is what follows the last one**, if the mark cannot begin after it. -/
theorem afterLast_append (hmark : c ∉ mark) (htail : c ∉ tail) (pre : List α) :
    afterLast (c :: mark) (pre ++ c :: mark ++ tail) = some tail := by
  induction pre with
  | nil =>
    have hnone : afterLast (c :: mark) (mark ++ tail) = none := by
      refine afterLast_of_notMem fun h => ?_
      rcases List.mem_append.mp h with h | h
      · exact hmark h
      · exact htail h
    have hstart : (c :: mark).isPrefixOf (c :: (mark ++ tail)) = true :=
      List.isPrefixOf_iff_prefix.mpr (List.prefix_append (c :: mark) tail)
    rw [List.nil_append, List.cons_append, afterLast, hnone]
    simp only [hstart, if_true]
    rw [List.length_cons, List.drop_succ_cons, List.drop_left]
  | cons x pre ih =>
    rw [List.cons_append, List.cons_append, afterLast, ih]

end marks

/-! ### Occurrences -/

/-- A text occurs in another. -/
def Occurs (part text : String) : Prop := part.toList <:+: text.toList

instance (part text : String) : Decidable (Occurs part text) :=
  inferInstanceAs (Decidable (part.toList <:+: text.toList))

section occurs

variable {part text : String}

theorem Occurs.refl (text : String) : Occurs text text := List.infix_rfl

theorem Occurs.trans {whole : String} (h : Occurs part text) (h' : Occurs text whole) :
    Occurs part whole := List.IsInfix.trans h h'

theorem occurs_append_left (part suf : String) : Occurs part (part ++ suf) := by
  rw [Occurs, String.toList_append]
  exact List.infix_append_left

theorem occurs_append_right (pre part : String) : Occurs part (pre ++ part) := by
  rw [Occurs, String.toList_append]
  exact List.infix_append_right

theorem Occurs.append_left (h : Occurs part text) (suf : String) : Occurs part (text ++ suf) :=
  h.trans (occurs_append_left text suf)

theorem Occurs.append_right (pre : String) (h : Occurs part text) : Occurs part (pre ++ text) :=
  h.trans (occurs_append_right pre text)

theorem occurs_intercalate {sep : String} {parts : List String} (h : part ∈ parts) :
    Occurs part (sep.intercalate parts) := by
  induction parts with
  | nil => cases h
  | cons x rest ih =>
    by_cases hrest : rest = []
    · subst hrest
      obtain rfl := List.mem_singleton.mp h
      rw [String.intercalate_singleton]
      exact .refl part
    · rw [String.intercalate_cons_of_ne_nil hrest]
      rcases List.mem_cons.mp h with rfl | h
      · exact (occurs_append_left part sep).append_left _
      · exact (ih h).append_right _

end occurs

end WappPlanner.Lib.Text
