import Mathlib.Tactic.Common

/-! # URL-safe base64

`encode` writes three bytes as four characters of the URL-safe alphabet and pads the last group with
`=`. `decode` is the lenient decoder of the standard library: it skips characters outside the
alphabet, ignores padding that comes too early, stops at padding that completes a group, and fails
when the data end inside a group. Both alphabets are read.

`decode_encode` is the round trip; `repad_stripPad` says that an encoding whose padding was stripped
is restored by padding it to a multiple of four. -/

namespace WappPlanner.Lib.Base64

/-! ### The alphabet -/

/-- The character of a six-bit value. -/
def char (v : ℕ) : Char :=
  if v < 26 then Char.ofNat (65 + v)
  else if v < 52 then Char.ofNat (71 + v)
  else if v < 62 then Char.ofNat (v - 4)
  else if v = 62 then '-'
  else '_'

/-- The value of a character, of either alphabet. -/
def value (c : Char) : Option ℕ :=
  let n := c.toNat
  if 65 ≤ n ∧ n ≤ 90 then some (n - 65)
  else if 97 ≤ n ∧ n ≤ 122 then some (n - 71)
  else if 48 ≤ n ∧ n ≤ 57 then some (n + 4)
  else if c = '-' ∨ c = '+' then some 62
  else if c = '_' ∨ c = '/' then some 63
  else none

theorem value_char : ∀ v < 64, value (char v) = some v := by decide

theorem char_ne_pad : ∀ v < 64, char v ≠ '=' := by decide

/-- What is neither a letter, a digit, `-` nor `_` is not in the alphabet. -/
theorem char_ne_of_value {c : Char} (h : value c = none) : ∀ v < 64, char v ≠ c := by
  rintro v hv rfl
  rw [value_char v hv] at h
  cases h

/-! ### Encoding -/

/-- The values of three bytes. -/
def quad (a b c : UInt8) : List ℕ :=
  [a.toNat / 4, a.toNat % 4 * 16 + b.toNat / 16, b.toNat % 16 * 4 + c.toNat / 64, c.toNat % 64]

/-- The bytes as six-bit values, without padding. -/
def values : List UInt8 → List ℕ
  | a :: b :: c :: rest => quad a b c ++ values rest
  | [a, b] => (quad a b 0).take 3
  | [a] => (quad a 0 0).take 2
  | [] => []

/-- The padding that completes `n` characters. -/
def padding (n : ℕ) : List Char := List.replicate ((4 - n % 4) % 4) '='

/-- The characters without padding. -/
def stripped (bs : List UInt8) : List Char := (values bs).map char

/-- `base64.urlsafe_b64encode`. -/
def encode (bs : List UInt8) : List Char := stripped bs ++ padding (stripped bs).length

/-- `rstrip("=")`. -/
def stripPad (cs : List Char) : List Char := (cs.reverse.dropWhile (· = '=')).reverse

/-- Pad to a multiple of four. -/
def repad (cs : List Char) : List Char := cs ++ padding cs.length

theorem quad_lt (a b c : UInt8) : ∀ v ∈ quad a b c, v < 64 := by
  have ha := a.toNat_lt
  have hb := b.toNat_lt
  have hc := c.toNat_lt
  intro v hv
  simp only [quad, List.mem_cons, List.not_mem_nil, or_false] at hv
  omega

theorem values_lt : ∀ (bs : List UInt8), ∀ v ∈ values bs, v < 64
  | a :: b :: c :: rest, v, hv => by
    rcases List.mem_append.mp hv with hv | hv
    · exact quad_lt a b c v hv
    · exact values_lt rest v hv
  | [a, b], v, hv => quad_lt a b 0 v (List.mem_of_mem_take hv)
  | [a], v, hv => quad_lt a 0 0 v (List.mem_of_mem_take hv)
  | [], v, hv => by simp [values] at hv

/-- **The alphabet**: a character with no value occurs in no stripped encoding. -/
theorem notMem_stripped {c : Char} (h : value c = none) (bs : List UInt8) : c ∉ stripped bs := by
  intro hc
  obtain ⟨v, hv, rfl⟩ := List.mem_map.mp hc
  exact char_ne_of_value h v (values_lt bs v hv) rfl

theorem stripPad_append_pads (cs : List Char) (n : ℕ) (h : '=' ∉ cs) :
    stripPad (cs ++ List.replicate n '=') = cs := by
  unfold stripPad
  rw [List.reverse_append, List.reverse_replicate, List.dropWhile_append_of_pos (by simp)]
  have hself : cs.reverse.dropWhile (· = '=') = cs.reverse := by
    cases hr : cs.reverse with
    | nil => rfl
    | cons c rest =>
      have hc : c ≠ '=' := by
        rintro rfl
        exact h (List.mem_reverse.mp (by rw [hr]; exact List.mem_cons_self))
      exact List.dropWhile_cons_of_neg (by simpa using hc)
  rw [hself, List.reverse_reverse]

theorem stripPad_encode (bs : List UInt8) : stripPad (encode bs) = stripped bs :=
  stripPad_append_pads _ _ (notMem_stripped (by decide) bs)

theorem repad_stripPad (bs : List UInt8) : repad (stripPad (encode bs)) = encode bs := by
  rw [stripPad_encode]
  rfl

/-! ### Decoding -/

/-- The decoder's failures. -/
inductive DecodeError
  | oneTooMany
  | incorrectPadding
  deriving DecidableEq

/-- The decoder at position `q` of a group, with `left` bits held back and `pads` padding
characters seen since the last data character. -/
def decodeFrom (q left pads : ℕ) : List Char → Except DecodeError (List UInt8)
  | [] => if q = 0 then .ok [] else if q = 1 then .error .oneTooMany else .error .incorrectPadding
  | c :: cs =>
    if c = '=' then
      if 2 ≤ q then
        if 4 ≤ q + (pads + 1) then .ok [] else decodeFrom q left (pads + 1) cs
      else decodeFrom q left pads cs
    else
      match value c with
      | none => decodeFrom q left pads cs
      | some v =>
        if q = 0 then decodeFrom 1 v 0 cs
        else if q = 1 then (UInt8.ofNat (left * 4 + v / 16) :: ·) <$> decodeFrom 2 (v % 16) 0 cs
        else if q = 2 then (UInt8.ofNat (left * 16 + v / 4) :: ·) <$> decodeFrom 3 (v % 4) 0 cs
        else (UInt8.ofNat (left * 64 + v) :: ·) <$> decodeFrom 0 0 0 cs

/-- `base64.urlsafe_b64decode`. -/
def decode (cs : List Char) : Except DecodeError (List UInt8) := decodeFrom 0 0 0 cs

theorem decodeFrom_char {q left pads v : ℕ} (hv : v < 64) (cs : List Char) :
    decodeFrom q left pads (char v :: cs) =
      if q = 0 then decodeFrom 1 v 0 cs
      else if q = 1 then (UInt8.ofNat (left * 4 + v / 16) :: ·) <$> decodeFrom 2 (v % 16) 0 cs
      else if q = 2 then (UInt8.ofNat (left * 16 + v / 4) :: ·) <$> decodeFrom 3 (v % 4) 0 cs
      else (UInt8.ofNat (left * 64 + v) :: ·) <$> decodeFrom 0 0 0 cs := by
  rw [decodeFrom, if_neg (char_ne_pad v hv), value_char v hv]

theorem ofNat_eq {a : UInt8} {n : ℕ} (h : n = a.toNat) : UInt8.ofNat n = a := by
  rw [h, UInt8.ofNat_toNat]

/-- **The round trip.** -/
theorem decode_encode (bs : List UInt8) : decode (encode bs) = .ok bs := by
  unfold encode padding stripped
  induction bs using values.induct with
  | case1 a b c rest ih =>
    have hq := quad_lt a b c
    simp only [quad, List.mem_cons, List.not_mem_nil, or_false, forall_eq_or_imp, forall_eq] at hq
    obtain ⟨h0, h1, h2, h3⟩ := hq
    have hlen : ((quad a b c ++ values rest).map char).length % 4 =
        ((values rest).map char).length % 4 := by simp [quad]; omega
    rw [values, hlen]
    simp only [quad, List.map_cons, List.cons_append, List.nil_append]
    unfold decode at ih ⊢
    rw [decodeFrom_char h0, if_pos rfl, decodeFrom_char h1, if_neg (by decide), if_pos rfl,
      decodeFrom_char h2, if_neg (by decide), if_neg (by decide), if_pos rfl, decodeFrom_char h3,
      if_neg (by decide), if_neg (by decide), if_neg (by decide), ih]
    have ha : UInt8.ofNat (a.toNat / 4 * 4 + (a.toNat % 4 * 16 + b.toNat / 16) / 16) = a :=
      ofNat_eq (by have := b.toNat_lt; omega)
    have hb : UInt8.ofNat ((a.toNat % 4 * 16 + b.toNat / 16) % 16 * 16 +
        (b.toNat % 16 * 4 + c.toNat / 64) / 4) = b :=
      ofNat_eq (by have := b.toNat_lt; have := c.toNat_lt; omega)
    have hc : UInt8.ofNat ((b.toNat % 16 * 4 + c.toNat / 64) % 4 * 64 + c.toNat % 64) = c :=
      ofNat_eq (by have := c.toNat_lt; omega)
    rw [ha, hb, hc]
    rfl
  | case2 a b =>
    have hq := quad_lt a b 0
    simp only [quad, List.mem_cons, List.not_mem_nil, or_false, forall_eq_or_imp, forall_eq] at hq
    obtain ⟨h0, h1, h2, -⟩ := hq
    simp only [values, quad, List.take_succ_cons, List.take_zero, List.map_cons, List.map_nil,
      List.length_cons, List.length_nil, List.cons_append, List.nil_append]
    unfold decode
    rw [decodeFrom_char h0, if_pos rfl, decodeFrom_char h1, if_neg (by decide), if_pos rfl,
      decodeFrom_char h2, if_neg (by decide), if_neg (by decide), if_pos rfl]
    have ha : UInt8.ofNat (a.toNat / 4 * 4 + (a.toNat % 4 * 16 + b.toNat / 16) / 16) = a :=
      ofNat_eq (by have := b.toNat_lt; omega)
    have hb : UInt8.ofNat ((a.toNat % 4 * 16 + b.toNat / 16) % 16 * 16 +
        (b.toNat % 16 * 4 + (0 : UInt8).toNat / 64) / 4) = b :=
      ofNat_eq (by have := b.toNat_lt; simp; omega)
    rw [ha, hb]
    rfl
  | case3 a =>
    have hq := quad_lt a 0 0
    simp only [quad, List.mem_cons, List.not_mem_nil, or_false, forall_eq_or_imp, forall_eq] at hq
    obtain ⟨h0, h1, -, -⟩ := hq
    simp only [values, quad, List.take_succ_cons, List.take_zero, List.map_cons, List.map_nil,
      List.length_cons, List.length_nil, List.cons_append, List.nil_append]
    unfold decode
    rw [decodeFrom_char h0, if_pos rfl, decodeFrom_char h1, if_neg (by decide), if_pos rfl]
    have ha : UInt8.ofNat (a.toNat / 4 * 4 + (a.toNat % 4 * 16 + (0 : UInt8).toNat / 16) / 16) = a :=
      ofNat_eq (by simp; omega)
    rw [ha]
    rfl
  | case4 => rfl

/-- **Stripped encodings are read back** once padded again. -/
theorem decode_repad_stripped (bs : List UInt8) : decode (repad (stripped bs)) = .ok bs := by
  have h := repad_stripPad bs
  rw [stripPad_encode] at h
  rw [h, decode_encode]

theorem stripped_injective : Function.Injective stripped := by
  intro bs bs' h
  have h1 := decode_repad_stripped bs
  rw [h, decode_repad_stripped bs'] at h1
  exact (Except.ok.inj h1).symm

end WappPlanner.Lib.Base64
