import Mathlib.Algebra.Order.Field.Rat
import Mathlib.Tactic.FieldSimp
import WappPlanner.Lib.Text

/-! # Decimal numerals

What a decimal numeral denotes: a minus sign or none, digits, with more digits after a point or without,
and an exponent or none (`read`). The lemmas read back the numerals a program prints: the digits of a
number (`read_repr`), digits with a point among them (`readDecimal_point`), a mantissa with an exponent
(`read_exponent`, `read_negExponent`). -/

namespace WappPlanner.Lib.Numeral

variable {cs whole frac mantissa : List Char} {n : ℕ}

/-- The number a list of digits denotes. -/
def value (cs : List Char) : ℕ := Nat.ofDigitChars 10 cs 0

def Digits (cs : List Char) : Prop := cs ≠ [] ∧ ∀ c ∈ cs, c.isDigit = true

instance (cs : List Char) : Decidable (Digits cs) :=
  -- named, since a search may try every character there is
  have : Decidable (∀ c ∈ cs, c.isDigit = true) := List.decidableBAll _ cs
  inferInstanceAs (Decidable (cs ≠ [] ∧ ∀ c ∈ cs, c.isDigit = true))

def readDigits (cs : List Char) : Option ℕ := if Digits cs then some (value cs) else none

/-- Digits, or digits on both sides of a point. -/
def readDecimal (cs : List Char) : Option ℚ :=
  match cs.dropWhile (· ≠ '.') with
  | [] => (readDigits cs).map Nat.cast
  | _ :: frac => do
    let whole ← readDigits (cs.takeWhile (· ≠ '.'))
    let part ← readDigits frac
    return whole + part / ((10 ^ frac.length : ℕ) : ℚ)

/-- An exponent is printed with its sign. -/
def readExponent : List Char → Option ℤ
  | '+' :: cs => (readDigits cs).map Nat.cast
  | '-' :: cs => (readDigits cs).map fun n => -(n : ℤ)
  | _ => none

/-- The number that a numeral without sign denotes. -/
def readUnsigned (cs : List Char) : Option ℚ :=
  match cs.dropWhile (· ≠ 'e') with
  | [] => readDecimal cs
  | _ :: exponent => do
    let x ← readDecimal (cs.takeWhile (· ≠ 'e'))
    let e ← readExponent exponent
    return x * ((10 : ℕ) : ℚ) ^ e

/-- The number a numeral denotes, `none` where the text is no numeral. -/
def read : List Char → Option ℚ
  | '-' :: cs => (readUnsigned cs).map (-·)
  | cs => readUnsigned cs

/-! ### Digits -/

theorem readDigits_of (h : Digits cs) : readDigits cs = some (value cs) := if_pos h

theorem Digits.ne {c : Char} (h : Digits cs) (hc : c.isDigit = false) : ∀ d ∈ cs, d ≠ c := by
  rintro d hd rfl
  rw [h.2 d hd] at hc
  cases hc

theorem digits_repr (n : ℕ) : Digits n.repr.toList := by
  refine ⟨?_, fun c hc => Text.isDigit_repr hc⟩
  rw [Nat.toList_repr]
  exact Nat.toDigits_ne_nil

theorem value_repr (n : ℕ) : value n.repr.toList = n := by
  rw [value, Nat.toList_repr]
  exact Nat.ofDigitChars_toDigits (by decide) le_rfl

theorem value_append (cs cs' : List Char) :
    value (cs ++ cs') = value cs * 10 ^ cs'.length + value cs' := by
  unfold value
  rw [Nat.ofDigitChars_append, Nat.ofDigitChars_eq_ofDigitChars_zero, Nat.mul_comm]

theorem value_zeros (k : ℕ) : value (List.replicate k '0') = 0 := by
  rw [value, Nat.ofDigitChars_replicate_zero, Nat.mul_zero]

theorem value_append_zeros (cs : List Char) (k : ℕ) :
    value (cs ++ List.replicate k '0') = value cs * 10 ^ k := by
  rw [value_append, value_zeros, List.length_replicate, Nat.add_zero]

theorem value_zeros_append (k : ℕ) (cs : List Char) :
    value (List.replicate k '0' ++ cs) = value cs := by
  rw [value_append, value_zeros, Nat.zero_mul, Nat.zero_add]

/-! ### Points and exponents -/

theorem dropWhile_ne (c : Char) (h : ∀ d ∈ cs, d ≠ c) (rest : List Char) :
    (cs ++ rest).dropWhile (· ≠ c) = rest.dropWhile (· ≠ c) ∧
      (cs ++ rest).takeWhile (· ≠ c) = cs ++ rest.takeWhile (· ≠ c) := by
  have hpos : ∀ d ∈ cs, decide (d ≠ c) = true := fun d hd => decide_eq_true (h d hd)
  exact ⟨List.dropWhile_append_of_pos hpos, List.takeWhile_append_of_pos hpos⟩

theorem readDecimal_digits (h : Digits cs) : readDecimal cs = some (value cs : ℚ) := by
  have hdrop := (dropWhile_ne '.' (h.ne (by decide)) []).1
  rw [List.append_nil] at hdrop
  rw [readDecimal, hdrop]
  simp only [List.dropWhile_nil, readDigits_of h, Option.map_some]

theorem readDecimal_none (hpoint : ∀ d ∈ cs, d ≠ '.') (h : ¬ Digits cs) : readDecimal cs = none := by
  have hdrop := (dropWhile_ne '.' hpoint []).1
  rw [List.append_nil] at hdrop
  rw [readDecimal, hdrop]
  simp only [List.dropWhile_nil, readDigits, if_neg h, Option.map_none]

theorem readDecimal_point (hw : Digits whole) (hf : Digits frac) :
    readDecimal (whole ++ '.' :: frac) =
      some (value (whole ++ frac) / ((10 ^ frac.length : ℕ) : ℚ)) := by
  obtain ⟨hdrop, htake⟩ := dropWhile_ne '.' (hw.ne (by decide)) ('.' :: frac)
  have hpos : ((10 ^ frac.length : ℕ) : ℚ) ≠ 0 := Nat.cast_ne_zero.mpr (by simp)
  rw [readDecimal, hdrop, htake]
  simp only [ne_eq, not_true_eq_false, decide_false, List.dropWhile_cons, Bool.false_eq_true,
    if_false, List.takeWhile_cons, List.append_nil, readDigits_of hw, readDigits_of hf,
    Option.bind_eq_bind, Option.bind_some, Option.pure_def]
  rw [value_append]
  push_cast at hpos ⊢
  field_simp

theorem read_unsigned (h : cs.head? ≠ some '-') : read cs = readUnsigned cs := by
  unfold read
  split
  · exact absurd rfl h
  · rfl

theorem readUnsigned_plain (h : ∀ d ∈ cs, d ≠ 'e') : readUnsigned cs = readDecimal cs := by
  have hdrop := (dropWhile_ne 'e' h []).1
  rw [List.append_nil] at hdrop
  rw [readUnsigned, hdrop]
  rfl

theorem read_minus (h : Digits cs) : read ('-' :: cs) = some (-(value cs : ℚ)) := by
  rw [read, readUnsigned_plain (h.ne (by decide)), readDecimal_digits h, Option.map_some]

/-- **The digits of a number denote it.** -/
theorem read_repr (n : ℕ) : read n.repr.toList = some (n : ℚ) := by
  have hdigits := digits_repr n
  have hhead : n.repr.toList.head? ≠ some '-' :=
    fun h => hdigits.ne (by decide) _ (List.mem_of_mem_head? h) rfl
  rw [read_unsigned hhead, readUnsigned_plain (hdigits.ne (by decide)), readDecimal_digits hdigits,
    value_repr]

section exponents

variable {x : ℚ} {e : List Char} (hm : ∀ d ∈ mantissa, d ≠ 'e')
  (hx : readDecimal mantissa = some x) (he : Digits e)

include hm hx he

/-- **A mantissa and an exponent.** -/
theorem read_exponent : readUnsigned (mantissa ++ 'e' :: '+' :: e) =
    some (x * ((10 : ℕ) : ℚ) ^ (value e : ℤ)) := by
  obtain ⟨hdrop, htake⟩ := dropWhile_ne 'e' hm ('e' :: '+' :: e)
  rw [readUnsigned, hdrop, htake]
  simp only [ne_eq, not_true_eq_false, decide_false, List.dropWhile_cons, Bool.false_eq_true,
    if_false, List.takeWhile_cons, List.append_nil, hx, readExponent, readDigits_of he,
    Option.map_some, Option.bind_eq_bind, Option.bind_some, Option.pure_def]

theorem read_negExponent : readUnsigned (mantissa ++ 'e' :: '-' :: e) =
    some (x * ((10 : ℕ) : ℚ) ^ (-(value e : ℤ))) := by
  obtain ⟨hdrop, htake⟩ := dropWhile_ne 'e' hm ('e' :: '-' :: e)
  rw [readUnsigned, hdrop, htake]
  simp only [ne_eq, not_true_eq_false, decide_false, List.dropWhile_cons, Bool.false_eq_true,
    if_false, List.takeWhile_cons, List.append_nil, hx, readExponent, readDigits_of he,
    Option.map_some, Option.bind_eq_bind, Option.bind_some, Option.pure_def]

end exponents

end WappPlanner.Lib.Numeral
