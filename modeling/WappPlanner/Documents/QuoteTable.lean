import Mathlib.Data.Int.Log
import Mathlib.Data.NNRat.Floor
import Mathlib.Tactic.Ring
import WappPlanner.Documents.Layout
import WappPlanner.Lib.Numeral

/-! # The line items of a quote

The one table of a quote has a row for each line item, as wide as the header row, with the item's
description and unit as they are. The quantity is printed by `f"{x:g}"`, which keeps six significant
digits (`read_formatG`): so the table states the quantities, and tells different ones apart, exactly
when no integer quantity has more (`states_iff`). -/

namespace WappPlanner.Documents.QuoteTable

open WappPlanner.Documents.Content WappPlanner.Documents.Layout WappPlanner.Lib
open WappPlanner.Py.Text WappPlanner.Py.Values

/-! ### What a table states -/

/-- The tables among the blocks: headers and rows. -/
def tables (blocks : List Block) : List (List String × List (List String)) :=
  blocks.filterMap fun b =>
    match b with
    | .table headers rows => some (headers, rows)
    | _ => none

/-- The cell of a row under a header. -/
def cell (headers : List String) (name : String) (row : List String) : Option String :=
  (headers.zip row).lookup name

/-- A row as wide as the header row, with the texts of its item. -/
structure Carries (headers row : List String) (item : LineItem) : Prop where
  width : row.length = headers.length
  description : cell headers "Description" row = some item.description
  unit : cell headers "Unit" row = some item.unit

/-- The quantity of the item is the integer `n`, below `2^53`; of the two zeros each is `0`. -/
def Counts (item : LineItem) (n : ℕ) : Prop :=
  (item.quantity = .finite n ∨ item.quantity = .negZero ∧ n = 0) ∧ n < 2 ^ 53

/-- The number a cell denotes. -/
def denoted (text : Option String) : Option ℚ := text.bind fun s => Numeral.read s.toList

/-- A table of the line items. -/
structure TableOf (items : List LineItem) (headers : List String) (rows : List (List String)) :
    Prop where
  carries : List.Forall₂ (Carries headers) rows items
  quantity : ∀ p ∈ rows.zip items, ∀ n, Counts p.2 n →
    denoted (cell headers "Qty" p.1) = some (n : ℚ)
  apart : ∀ p ∈ rows.zip items, ∀ p' ∈ rows.zip items, ∀ n n', Counts p.2 n → Counts p'.2 n' →
    n ≠ n' → cell headers "Qty" p.1 ≠ cell headers "Qty" p'.1

/-- The blocks have one table, and it is a table of the line items. -/
def States (content : QuoteContent) (blocks : List Block) : Prop :=
  ∃ headers rows, tables blocks = [(headers, rows)] ∧ TableOf content.lineItems headers rows

/-- At most six significant digits. -/
def SixDigits (n : ℕ) : Prop := ∃ m < 10 ^ 6, ∃ e, n = m * 10 ^ e

/-! ### The shape of the table -/

theorem tables_append (bs bs' : List Block) : tables (bs ++ bs') = tables bs ++ tables bs' :=
  List.filterMap_append

theorem tables_whenText {x : Option String} {block : String → Block}
    (hblock : ∀ s, tables [block s] = []) : tables (whenText x block) = [] := by
  unfold whenText
  split
  · split_ifs
    · rfl
    · exact hblock _
  · rfl

theorem tables_whenItems (title : String) (items : List String) :
    tables (whenItems title items) = [] := by
  unfold whenItems
  split_ifs
  · rfl
  · rfl

def headers : List String := ["Description", "Qty", "Unit", "Unit price", "Total"]

theorem tables_quoteBlocks (content : QuoteContent) (branding : Branding) :
    tables (quoteBlocks content branding) = [(headers, content.lineItems.map itemRow)] := by
  have htext : ∀ (x : Option String) (f : String → String),
      tables (whenText x fun s => .paragraph (f s)) = [] :=
    fun x f => tables_whenText fun s => rfl
  have hbranding : tables (brandingHeader branding) = [] := by
    have haddress := htext branding.address id
    have hcontact := htext branding.contact id
    unfold brandingHeader
    rw [tables_append, tables_append]
    exact List.append_eq_nil_iff.mpr ⟨List.append_eq_nil_iff.mpr ⟨rfl, haddress⟩, hcontact⟩
  unfold quoteBlocks
  simp only [tables_append, hbranding, htext, tables_whenItems, List.nil_append, List.append_nil]
  rfl

theorem carries_itemRow (item : LineItem) : Carries headers (itemRow item) item :=
  ⟨rfl, rfl, rfl⟩

theorem cell_quantity (item : LineItem) :
    cell headers "Qty" (itemRow item) = some (formatG item.quantity) := rfl

/-- **The table carries the texts of every item**, whatever the quantities are. -/
theorem carries_rows (items : List LineItem) :
    List.Forall₂ (Carries headers) (items.map itemRow) items := by
  rw [List.forall₂_map_left_iff]
  exact List.forall₂_same.mpr fun item _ => carries_itemRow item

theorem mem_zip_itemRow {items : List LineItem} {p : List String × LineItem} :
    p ∈ (items.map itemRow).zip items ↔ p.2 ∈ items ∧ p.1 = itemRow p.2 := by
  have hzip : (items.map itemRow).zip items = items.map fun item => (itemRow item, item) := by
    induction items with
    | nil => rfl
    | cons item items ih => rw [List.map_cons, List.zip_cons_cons, ih, List.map_cons]
  rw [hzip, List.mem_map]
  constructor
  · rintro ⟨item, hitem, rfl⟩
    exact ⟨hitem, rfl⟩
  · rintro ⟨hitem, hrow⟩
    exact ⟨p.2, hitem, by rw [← hrow]⟩

/-! ### Rounding -/

theorem roundHalfEven_bounds (n d : ℕ) :
    n / d ≤ roundHalfEven n d ∧ roundHalfEven n d ≤ n / d + 1 := by
  unfold roundHalfEven
  simp only
  split_ifs <;> omega

theorem roundHalfEven_mul_eq_iff {n d : ℕ} (hd : 0 < d) : roundHalfEven n d * d = n ↔ d ∣ n := by
  constructor
  · intro h
    exact ⟨roundHalfEven n d, by rw [Nat.mul_comm, h]⟩
  · rintro ⟨q, rfl⟩
    have hr : d * q % d = 0 := Nat.mul_mod_right d q
    have hq : d * q / d = q := Nat.mul_div_cancel_left q hd
    have hlt : 2 * 0 < d := by omega
    unfold roundHalfEven
    simp only [hr, hq, hlt, if_true, Nat.mul_comm]

theorem roundHalfEven_one (n : ℕ) : roundHalfEven n 1 = n := by
  have h := (roundHalfEven_mul_eq_iff Nat.one_pos).mpr (one_dvd n)
  rwa [Nat.mul_one] at h

/-! ### What `g` prints -/

section format

variable {n m e : ℕ} {whole frac : List Char}

theorem stripZeros_append (cs : List Char) :
    ∃ k, cs = stripZeros cs ++ List.replicate k '0' := by
  have hzeros : ∀ c ∈ cs.reverse.takeWhile (· = '0'), c = '0' := fun c hc => by
    simpa using List.mem_takeWhile_imp hc
  refine ⟨(cs.reverse.takeWhile (· = '0')).length, ?_⟩
  have hsplit := congrArg List.reverse
    (List.takeWhile_append_dropWhile (p := (· = '0')) (l := cs.reverse))
  rw [List.reverse_append, List.reverse_reverse, List.eq_replicate_of_mem hzeros,
    List.reverse_replicate] at hsplit
  exact hsplit.symm

theorem readDecimal_pointed (hw : Numeral.Digits whole) (hf : ∀ c ∈ frac, c.isDigit = true) :
    Numeral.readDecimal (pointed whole frac).toList =
      some (Numeral.value (whole ++ frac) / ((10 ^ frac.length : ℕ) : ℚ)) := by
  obtain ⟨k, hk⟩ := stripZeros_append frac
  have hpow : ∀ k, ((10 ^ k : ℕ) : ℚ) ≠ 0 := fun k => Nat.cast_ne_zero.mpr (by simp)
  have hvalue : (Numeral.value (whole ++ frac) : ℚ) / ((10 ^ frac.length : ℕ) : ℚ) =
      Numeral.value (whole ++ stripZeros frac) / ((10 ^ (stripZeros frac).length : ℕ) : ℚ) := by
    rw [div_eq_div_iff (hpow _) (hpow _)]
    have hnat : Numeral.value (whole ++ frac) * 10 ^ (stripZeros frac).length =
        Numeral.value (whole ++ stripZeros frac) * 10 ^ frac.length := by
      have hlen := congrArg List.length hk
      rw [List.length_append, List.length_replicate] at hlen
      have hzeros : Numeral.value (whole ++ frac) =
          Numeral.value (whole ++ stripZeros frac) * 10 ^ k := by
        rw [← Numeral.value_append_zeros, List.append_assoc, ← hk]
      rw [hlen, hzeros]
      ring
    exact_mod_cast hnat
  rw [hvalue]
  unfold pointed
  split
  next hnone =>
    rw [hnone, List.append_nil, String.toList_ofList, Numeral.readDecimal_digits hw]
    simp
  next cs hsome =>
    have hdigits : Numeral.Digits (stripZeros frac) := by
      refine ⟨hsome, fun c hc => hf c ?_⟩
      rw [hk]
      exact List.mem_append_left _ hc
    rw [String.toList_ofList, Numeral.readDecimal_point hw hdigits]

theorem pointed_ne_exponent (hw : ∀ c ∈ whole, c.isDigit = true)
    (hf : ∀ c ∈ frac, c.isDigit = true) : ∀ c ∈ (pointed whole frac).toList, c ≠ 'e' := by
  obtain ⟨k, hk⟩ := stripZeros_append frac
  rintro c hc rfl
  unfold pointed at hc
  split at hc
  next =>
    rw [String.toList_ofList] at hc
    exact absurd (hw _ hc) (by decide)
  next =>
    rw [String.toList_ofList] at hc
    rcases List.mem_append.mp hc with hc | hc
    · exact absurd (hw _ hc) (by decide)
    · rcases List.mem_cons.mp hc with hc | hc
      · exact absurd hc (by decide)
      · refine absurd (hf 'e' ?_) (by decide)
        rw [hk]
        exact List.mem_append_left _ hc

theorem length_natText_le_iff {k : ℕ} (hk : 0 < k) : (natText n).length ≤ k ↔ n < 10 ^ k :=
  Nat.length_repr_le_iff hk

theorem toList_padded (width n : ℕ) :
    ∃ k, (padded width n).toList = List.replicate k '0' ++ (natText n).toList :=
  ⟨_, by rw [padded, String.toList_append, String.toList_ofList]⟩

theorem digits_padded (width n : ℕ) : Numeral.Digits (padded width n).toList ∧
    Numeral.value (padded width n).toList = n := by
  obtain ⟨k, hk⟩ := toList_padded width n
  have hdigits := Numeral.digits_repr n
  rw [hk]
  refine ⟨⟨by simp [natText], fun c hc => ?_⟩, ?_⟩
  · rcases List.mem_append.mp hc with hc | hc
    · rw [List.eq_of_mem_replicate hc]
      decide
    · exact hdigits.2 c hc
  · rw [Numeral.value_zeros_append]
    exact Numeral.value_repr n

/-- A mantissa of six digits and an exponent, as they are printed. -/
def printed (m : ℕ) (e : ℤ) : String :=
  if -4 ≤ e ∧ e < 6 then
    if 0 ≤ e then
      pointed ((natText m).toList.take (e.toNat + 1)) ((natText m).toList.drop (e.toNat + 1))
    else pointed ['0'] (List.replicate ((-e).toNat - 1) '0' ++ (natText m).toList)
  else
    pointed ((natText m).toList.take 1) ((natText m).toList.drop 1) ++ "e" ++
      (if e < 0 then "-" else "+") ++ padded 2 e.natAbs

theorem length_six (hlow : 10 ^ 5 ≤ m) (hhigh : m < 10 ^ 6) : (natText m).toList.length = 6 := by
  have hle := (length_natText_le_iff (n := m) (k := 6) (by decide)).mpr hhigh
  have hgt := (length_natText_le_iff (n := m) (k := 5) (by decide)).not.mpr (by omega)
  have hlen : (natText m).length = 6 := by omega
  exact hlen

theorem head_pointed (hw : Numeral.Digits whole) (rest : List Char) :
    ((pointed whole frac).toList ++ rest).head? ≠ some '-' := by
  have hfirst : ∃ c cs, (pointed whole frac).toList = c :: cs ∧ c ∈ whole := by
    obtain ⟨c, cs, hcs⟩ := List.exists_cons_of_ne_nil hw.1
    unfold pointed
    split
    · exact ⟨c, cs, by rw [String.toList_ofList, hcs], by rw [hcs]; exact List.mem_cons_self⟩
    · exact ⟨c, _, by rw [String.toList_ofList, hcs]; rfl, by rw [hcs]; exact List.mem_cons_self⟩
  obtain ⟨c, cs, hcs, hc⟩ := hfirst
  rw [hcs, List.cons_append, List.head?_cons]
  intro h
  exact hw.ne (by decide) c hc (Option.some.inj h)

/-- **What is printed denotes the mantissa times a power of ten.** -/
theorem read_printed (hlow : 10 ^ 5 ≤ m) (hhigh : m < 10 ^ 6) (e : ℤ) :
    Numeral.read (printed m e).toList = some (m * (10 : ℚ) ^ (e - 5)) := by
  have hlen := length_six hlow hhigh
  have hdigit : ∀ c ∈ (natText m).toList, c.isDigit = true := (Numeral.digits_repr m).2
  have htake : ∀ k, ∀ c ∈ (natText m).toList.take k, c.isDigit = true :=
    fun k c hc => hdigit c (List.mem_of_mem_take hc)
  have hdrop : ∀ k, ∀ c ∈ (natText m).toList.drop k, c.isDigit = true :=
    fun k c hc => hdigit c (List.mem_of_mem_drop hc)
  have hwhole : ∀ k, Numeral.Digits ((natText m).toList.take (k + 1)) := by
    refine fun k => ⟨fun h => ?_, htake _⟩
    have h0 := congrArg List.length h
    rw [List.length_take, hlen] at h0
    simp at h0
  have hvalue : Numeral.value (natText m).toList = m := Numeral.value_repr m
  have hten : (10 : ℚ) ≠ 0 := by norm_num
  -- the digits around a point, with nothing after them
  have hplain : ∀ {whole frac : List Char} {k : ℕ}, Numeral.Digits whole →
      (∀ c ∈ frac, c.isDigit = true) → Numeral.value (whole ++ frac) = m → frac.length = k →
        Numeral.read (pointed whole frac).toList = some (m * (10 : ℚ) ^ (-(k : ℤ))) := by
    intro whole frac k hw hf hv hk
    have hhead : ((pointed whole frac).toList ++ []).head? ≠ some '-' := head_pointed hw []
    rw [List.append_nil] at hhead
    rw [Numeral.read_unsigned hhead, Numeral.readUnsigned_plain (pointed_ne_exponent hw.2 hf),
      readDecimal_pointed hw hf, hv, hk, zpow_neg, zpow_natCast, div_eq_mul_inv]
    push_cast
    rfl
  unfold printed
  split_ifs with hmiddle hnonneg hneg
  · rw [hplain (k := 5 - e.toNat) (hwhole _) (hdrop _) (by rw [List.take_append_drop, hvalue])
      (by rw [List.length_drop, hlen]; omega)]
    congr 3
    omega
  · rw [hplain (k := (-e).toNat + 5) ⟨by simp, by simp⟩ ?_ ?_ ?_]
    · congr 3
      omega
    · intro c hc
      rcases List.mem_append.mp hc with hc | hc
      · rw [List.eq_of_mem_replicate hc]
        decide
      · exact hdigit c hc
    · rw [← List.append_assoc, ← List.replicate_one, ← List.replicate_add,
        Numeral.value_zeros_append, hvalue]
    · rw [List.length_append, List.length_replicate, hlen]
      omega
  all_goals
    obtain ⟨hdigits, hpower⟩ := digits_padded 2 e.natAbs
    have hmantissa := readDecimal_pointed (hwhole 0) (hdrop 1)
    rw [List.take_append_drop, List.length_drop, hlen, hvalue] at hmantissa
    have hmark := pointed_ne_exponent (hwhole 0).2 (hdrop 1)
    simp only [String.toList_append, List.append_assoc]
    rw [Numeral.read_unsigned (head_pointed (hwhole 0) _)]
  · have hread := Numeral.read_negExponent hmark hmantissa hdigits
    refine hread.trans (congrArg some ?_)
    have he : -((Numeral.value (padded 2 e.natAbs).toList : ℕ) : ℤ) = e := by omega
    rw [he, zpow_sub₀ hten]
    push_cast
    ring
  · have hread := Numeral.read_exponent hmark hmantissa hdigits
    refine hread.trans (congrArg some ?_)
    have he : ((Numeral.value (padded 2 e.natAbs).toList : ℕ) : ℤ) = e := by omega
    rw [he, zpow_sub₀ hten]
    push_cast
    ring

/-! ### Six digits of a number -/

theorem natText_length_pos (n : ℕ) : 0 < (natText n).length := Nat.length_repr_pos

theorem length_natText_bounds (hn : 0 < n) :
    10 ^ ((natText n).length - 1) ≤ n ∧ n < 10 ^ (natText n).length := by
  have hpos := natText_length_pos n
  refine ⟨?_, (length_natText_le_iff hpos).mp le_rfl⟩
  by_cases hone : (natText n).length = 1
  · rw [hone]
    exact hn
  · have hlt := (length_natText_le_iff (n := n) (k := (natText n).length - 1) (by omega)).not.mp
      (by omega)
    omega

theorem exponent_bounds {d : ℕ} (hn : 0 < n) (hd : 0 < d) :
    (∃ k : ℕ, exponent n d = k ∧ 10 ^ k * d ≤ n ∧ n < 10 ^ (k + 1) * d) ∨
      ∃ k : ℕ, exponent n d = -((k + 1 : ℕ) : ℤ) ∧ d ≤ n * 10 ^ (k + 1) ∧ n * 10 ^ k < d := by
  unfold exponent
  split_ifs with hle
  · have hquot : 0 < n / d := Nat.div_pos hle hd
    obtain ⟨hlow, hhigh⟩ := length_natText_bounds hquot
    have hpos := natText_length_pos (n / d)
    refine .inl ⟨(natText (n / d)).length - 1, rfl, (Nat.le_div_iff_mul_le hd).mp hlow, ?_⟩
    rw [Nat.sub_add_cancel hpos]
    exact (Nat.div_lt_iff_lt_mul hd).mp hhigh
  · obtain ⟨c, hc⟩ : ∃ c, (d + n - 1) / n = c := ⟨_, rfl⟩
    have hceil : c * n ≤ d + n - 1 := hc ▸ Nat.div_mul_le_self _ _
    have hceil' : d + n - 1 < (c + 1) * n := by
      rw [← hc, Nat.add_mul, Nat.one_mul]
      exact Nat.lt_div_mul_add hn
    have htwo : 2 ≤ c := by
      by_contra hsmall
      have hmul : (c + 1) * n ≤ 2 * n := Nat.mul_le_mul_right n (by omega)
      omega
    obtain ⟨hlow, hhigh⟩ := length_natText_bounds (n := c - 1) (by omega)
    have hpos := natText_length_pos (c - 1)
    rw [hc]
    refine .inr ⟨(natText (c - 1)).length - 1, by rw [Nat.sub_add_cancel hpos], ?_, ?_⟩
    · rw [Nat.sub_add_cancel hpos]
      have hmul : n * c ≤ n * 10 ^ (natText (c - 1)).length := Nat.mul_le_mul_left n (by omega)
      have hcomm : (c + 1) * n = n * c + n := by ring
      omega
    · have hmul : n * 10 ^ ((natText (c - 1)).length - 1) ≤ n * (c - 1) := Nat.mul_le_mul_left n hlow
      have hcomm : c * n = n * (c - 1) + n := by
        obtain ⟨b, rfl⟩ : ∃ b, c = b + 1 := ⟨c - 1, by omega⟩
        rw [Nat.add_sub_cancel]
        ring
      omega

theorem roundHalfEven_six {n' d' : ℕ} (hd : 0 < d') (hlow : 10 ^ 5 * d' ≤ n')
    (hhigh : n' < 10 ^ 6 * d') : 10 ^ 5 ≤ roundHalfEven n' d' ∧ roundHalfEven n' d' ≤ 10 ^ 6 := by
  obtain ⟨hdown, hup⟩ := roundHalfEven_bounds n' d'
  have hlow' := (Nat.le_div_iff_mul_le hd).mpr hlow
  have hhigh' := (Nat.div_lt_iff_lt_mul hd).mpr hhigh
  omega

theorem scaled_bounds {d : ℕ} (hn : 0 < n) (hd : 0 < d) :
    10 ^ 5 ≤ scaled n d (5 - exponent n d) ∧ scaled n d (5 - exponent n d) ≤ 10 ^ 6 := by
  have hpow : ∀ k, 0 < 10 ^ k := fun k => Nat.pow_pos (by decide)
  unfold scaled
  rcases exponent_bounds hn hd with ⟨k, hk, hlow, hhigh⟩ | ⟨k, hk, hlow, hhigh⟩
  · rw [hk]
    split_ifs with hsmall
    · obtain ⟨j, hj⟩ : ∃ j, k + j = 5 := ⟨5 - k, by omega⟩
      have hexp : (5 - (k : ℤ)).toNat = j := by omega
      rw [hexp]
      refine roundHalfEven_six hd ?_ ?_
      · calc 10 ^ 5 * d = 10 ^ k * d * 10 ^ j := by rw [← hj, pow_add]; ring
          _ ≤ n * 10 ^ j := Nat.mul_le_mul_right _ hlow
      · calc n * 10 ^ j < 10 ^ (k + 1) * d * 10 ^ j := Nat.mul_lt_mul_of_pos_right hhigh (hpow j)
          _ = 10 ^ 6 * d := by rw [show 6 = k + 1 + j by omega, pow_add]; ring
    · obtain ⟨j, hj⟩ : ∃ j, k = 5 + j := ⟨k - 5, by omega⟩
      have hexp : (-(5 - (k : ℤ))).toNat = j := by omega
      rw [hexp]
      refine roundHalfEven_six (Nat.mul_pos hd (hpow j)) ?_ ?_
      · calc 10 ^ 5 * (d * 10 ^ j) = 10 ^ k * d := by rw [hj, pow_add]; ring
          _ ≤ n := hlow
      · calc n < 10 ^ (k + 1) * d := hhigh
          _ = 10 ^ 6 * (d * 10 ^ j) := by rw [hj, show 5 + j + 1 = 6 + j by omega, pow_add]; ring
  · have hexp : (5 - exponent n d).toNat = 5 + (k + 1) := by omega
    rw [if_pos (by omega), hexp]
    refine roundHalfEven_six hd ?_ ?_
    · calc 10 ^ 5 * d ≤ 10 ^ 5 * (n * 10 ^ (k + 1)) := Nat.mul_le_mul_left _ hlow
        _ = n * 10 ^ (5 + (k + 1)) := by rw [pow_add]; ring
    · calc n * 10 ^ (5 + (k + 1)) = 10 ^ 6 * (n * 10 ^ k) := by
            rw [show 5 + (k + 1) = 6 + k by omega, pow_add]; ring
        _ < 10 ^ 6 * d := Nat.mul_lt_mul_of_pos_left hhigh (hpow 6)

/-- The nearest integer, halves to even. -/
def nearest (x : ℚ≥0) : ℕ := roundHalfEven x.num x.den

/-- The number rounded to six significant digits: to a multiple of the power of ten that the sixth
digit is worth. -/
def sixDigits (q : ℚ≥0) : ℚ≥0 :=
  nearest (q * 10 ^ (5 - Int.log 10 q)) * 10 ^ (Int.log 10 q - 5)

theorem roundHalfEven_mul_right {d c : ℕ} (hc : 0 < c) :
    roundHalfEven (n * c) (d * c) = roundHalfEven n d := by
  unfold roundHalfEven
  rw [Nat.mul_div_mul_right n d hc, Nat.mul_mod_mul_right]
  have hlow : 2 * (n % d * c) < d * c ↔ 2 * (n % d) < d := by
    rw [← Nat.mul_assoc]
    exact Nat.mul_lt_mul_right hc
  have hhigh : d * c < 2 * (n % d * c) ↔ d < 2 * (n % d) := by
    rw [← Nat.mul_assoc]
    exact Nat.mul_lt_mul_right hc
  simp only [hlow, hhigh]

theorem nearest_div (n : ℕ) {d : ℕ} (hd : 0 < d) : nearest ((n : ℚ≥0) / d) = roundHalfEven n d := by
  have hden := ((n : ℚ≥0) / d).den_pos
  have hcross : ((n : ℚ≥0) / d).num * d = n * ((n : ℚ≥0) / d).den := by
    have hquot := NNRat.num_div_den ((n : ℚ≥0) / d)
    rw [div_eq_div_iff (Nat.cast_ne_zero.mpr hden.ne') (Nat.cast_ne_zero.mpr hd.ne')] at hquot
    exact_mod_cast hquot
  rw [nearest, ← roundHalfEven_mul_right hd, hcross, Nat.mul_comm _ d, roundHalfEven_mul_right hden]

theorem scaled_eq (q : ℚ≥0) (k : ℤ) : scaled q.num q.den k = nearest (q * 10 ^ k) := by
  have hten : (10 : ℚ≥0) ≠ 0 := by norm_num
  unfold scaled
  split_ifs with hk
  · rw [← nearest_div _ q.den_pos]
    conv_rhs => rw [← NNRat.num_div_den q, ← Int.toNat_of_nonneg hk, zpow_natCast]
    push_cast
    rw [div_mul_eq_mul_div]
  · have hneg : k = -((-k).toNat : ℤ) := by omega
    rw [← nearest_div _ (Nat.mul_pos q.den_pos (Nat.pow_pos (by decide)))]
    conv_rhs => rw [← NNRat.num_div_den q, hneg, zpow_neg, zpow_natCast]
    push_cast
    rw [div_mul_eq_div_div, div_eq_mul_inv _ ((10 : ℚ≥0) ^ _)]

theorem log_eq {q : ℚ≥0} {e : ℤ} (hlow : 10 ^ e ≤ q) (hhigh : q < 10 ^ (e + 1)) :
    Int.log 10 q = e := by
  have hpos : 0 < q := (zpow_pos (by norm_num) e).trans_le hlow
  have hle := (Int.zpow_le_iff_le_log (b := 10) (by decide) hpos).mp (by exact_mod_cast hlow)
  have hlt := (Int.lt_zpow_iff_log_lt (b := 10) (by decide) hpos).mp (by exact_mod_cast hhigh)
  omega

theorem exponent_eq {q : ℚ≥0} (hq : 0 < q.num) : exponent q.num q.den = Int.log 10 q := by
  have hden : (0 : ℚ≥0) < q.den := Nat.cast_pos.mpr q.den_pos
  have hten : (10 : ℚ≥0) ≠ 0 := by norm_num
  have hquot := NNRat.num_div_den q
  rcases exponent_bounds hq q.den_pos with ⟨k, hk, hlow, hhigh⟩ | ⟨k, hk, hlow, hhigh⟩
  · rw [hk]
    refine (log_eq ?_ ?_).symm
    · rw [← hquot, le_div_iff₀ hden]
      exact_mod_cast hlow
    · rw [← hquot, div_lt_iff₀ hden]
      exact_mod_cast hhigh
  · rw [hk]
    refine (log_eq ?_ ?_).symm
    · rw [← hquot, le_div_iff₀ hden, zpow_neg, zpow_natCast, inv_mul_le_iff₀ (by positivity)]
      rw [mul_comm]
      exact_mod_cast hlow
    · have he : -((k + 1 : ℕ) : ℤ) + 1 = -(k : ℤ) := by omega
      rw [← hquot, div_lt_iff₀ hden, he, zpow_neg, zpow_natCast, lt_inv_mul_iff₀ (by positivity)]
      rw [mul_comm]
      exact_mod_cast hhigh

/-- **A number is printed by its six digits**: a mantissa and an exponent. -/
theorem formatG_printed {q : ℚ≥0} (hq : q ≠ 0) : ∃ (m : ℕ) (e : ℤ), 10 ^ 5 ≤ m ∧ m < 10 ^ 6 ∧
    (sixDigits q : ℚ) = m * (10 : ℚ) ^ (e - 5) ∧ formatG (.finite q) = printed m e := by
  have hnum : q.num ≠ 0 := by
    rw [NNRat.num, Int.natAbs_ne_zero, Rat.num_ne_zero]
    exact NNRat.coe_ne_zero.mpr hq
  have hpos := Nat.pos_of_ne_zero hnum
  obtain ⟨hlow, hhigh⟩ := scaled_bounds hpos q.den_pos
  have hten : (10 : ℚ) ≠ 0 := by norm_num
  have hsix : (sixDigits q : ℚ) = scaled q.num q.den (5 - exponent q.num q.den) *
      (10 : ℚ) ^ (exponent q.num q.den - 5) := by
    rw [sixDigits, scaled_eq, exponent_eq hpos]
    push_cast
    rfl
  by_cases hup : scaled q.num q.den (5 - exponent q.num q.den) = 10 ^ 6
  · refine ⟨10 ^ 5, exponent q.num q.den + 1, le_rfl, by decide, ?_, ?_⟩
    · rw [hsix, hup, zpow_sub₀ hten, zpow_sub₀ hten, zpow_add₀ hten]
      push_cast
      ring
    · unfold formatG printed
      simp only [hnum, if_false, hup, if_true]
  · refine ⟨scaled q.num q.den (5 - exponent q.num q.den), exponent q.num q.den, hlow, by omega,
      hsix, ?_⟩
    unfold formatG printed
    simp only [hnum, if_false, hup]

theorem sixDigits_zero : sixDigits 0 = 0 := by
  simp [sixDigits, nearest, roundHalfEven]

/-- **The printed text denotes the number to six digits.** -/
theorem read_formatG (q : ℚ≥0) :
    Numeral.read (formatG (.finite q)).toList = some (sixDigits q : ℚ) := by
  by_cases hq : q = 0
  · subst hq
    rw [sixDigits_zero]
    exact Numeral.read_repr 0
  · obtain ⟨m, e, hlow, hhigh, hvalue, htext⟩ := formatG_printed hq
    rw [htext, read_printed hlow hhigh, hvalue]

theorem read_negZero : Numeral.read (formatG .negZero).toList = some 0 := by
  have hdigits : Numeral.Digits ['0'] := by decide
  have hvalue : Numeral.value ['0'] = 0 := by decide
  have hread := Numeral.read_minus hdigits
  rwa [hvalue, Nat.cast_zero, neg_zero] at hread

/-- What six digits keep of an integer. -/
def shown (n : ℕ) : ℕ :=
  roundHalfEven n (10 ^ ((natText n).length - 6)) * 10 ^ ((natText n).length - 6)

theorem sixDigits_natCast (n : ℕ) : (sixDigits n : ℚ) = shown n := by
  by_cases h0 : n = 0
  · subst h0
    rw [Nat.cast_zero, sixDigits_zero]
    simp [shown, roundHalfEven]
  · have hpos : 0 < n := Nat.pos_of_ne_zero h0
    have hlen := natText_length_pos n
    have hten : (10 : ℚ) ≠ 0 := by norm_num
    have hexp : Int.log 10 (n : ℚ≥0) = ((natText n).length - 1 : ℕ) := by
      have hnum : 0 < (n : ℚ≥0).num := by rwa [NNRat.num_natCast]
      rw [← exponent_eq hnum, NNRat.num_natCast, NNRat.den_natCast, exponent,
        if_pos (Nat.succ_le_of_lt hpos), Nat.div_one]
    unfold sixDigits shown
    rw [← scaled_eq, NNRat.num_natCast, NNRat.den_natCast, hexp]
    unfold scaled
    split_ifs with hsmall
    · obtain ⟨j, hj⟩ : ∃ j, (natText n).length + j = 6 := ⟨6 - (natText n).length, by omega⟩
      have hk : (5 - (((natText n).length - 1 : ℕ) : ℤ)).toNat = j := by omega
      have hk' : (((natText n).length - 1 : ℕ) : ℤ) - 5 = -(j : ℤ) := by omega
      rw [hk, hk', roundHalfEven_one, show (natText n).length - 6 = 0 by omega, pow_zero,
        roundHalfEven_one, Nat.mul_one, zpow_neg, zpow_natCast]
      push_cast
      rw [mul_assoc, mul_inv_cancel₀ (pow_ne_zero _ hten), mul_one]
    · have hk : (-(5 - (((natText n).length - 1 : ℕ) : ℤ))).toNat = (natText n).length - 6 := by
        omega
      have hk' : (((natText n).length - 1 : ℕ) : ℤ) - 5 = (((natText n).length - 6 : ℕ) : ℤ) := by
        omega
      rw [hk, hk', Nat.one_mul, zpow_natCast]
      push_cast
      rfl

/-- **Six digits are enough** exactly for the numbers that have no more. -/
theorem shown_eq_iff (n : ℕ) : shown n = n ↔ SixDigits n := by
  rw [shown, roundHalfEven_mul_eq_iff (Nat.pow_pos (by decide))]
  constructor
  · rintro ⟨m, hm⟩
    refine ⟨m, ?_, (natText n).length - 6, by rw [Nat.mul_comm]; exact hm⟩
    by_contra hlarge
    have hlt : n < 10 ^ ((natText n).length - 6 + 6) :=
      (length_natText_le_iff (by omega)).mp (by omega)
    have hge : 10 ^ ((natText n).length - 6) * 10 ^ 6 ≤ n := by
      conv_rhs => rw [hm]
      exact Nat.mul_le_mul_left _ (by omega)
    rw [pow_add] at hlt
    omega
  · rintro ⟨m, hm, e, rfl⟩
    rcases Nat.eq_zero_or_pos m with rfl | hpos
    · simp
    · have hlt : m * 10 ^ e < 10 ^ (6 + e) := by
        rw [pow_add]
        exact Nat.mul_lt_mul_of_pos_right hm (Nat.pow_pos (by decide))
      have hlen := (length_natText_le_iff (by omega)).mpr hlt
      exact (pow_dvd_pow 10 (by omega)).mul_left m

end format

/-! ### The quantities -/

theorem denoted_counts {item : LineItem} {n : ℕ} (h : Counts item n) :
    denoted (some (formatG item.quantity)) = some (shown n : ℚ) := by
  rcases h.1 with hq | ⟨hq, rfl⟩
  · rw [hq, ← sixDigits_natCast]
    exact read_formatG n
  · rw [hq, ← sixDigits_natCast, Nat.cast_zero, sixDigits_zero, NNRat.cast_zero]
    exact read_negZero

/-- **A quote states its quantities**, exactly when no integer quantity needs a seventh digit. -/
theorem states_iff (content : QuoteContent) (branding : Branding) :
    States content (buildBlocks (.quote content) branding) ↔
      ∀ item ∈ content.lineItems, ∀ n, Counts item n → SixDigits n := by
  have htables : tables (buildBlocks (.quote content) branding) = _ :=
    tables_quoteBlocks content branding
  have hcell : ∀ item n, Counts item n →
      denoted (cell headers "Qty" (itemRow item)) = some (shown n : ℚ) := by
    intro item n hn
    rw [cell_quantity]
    exact denoted_counts hn
  constructor
  · rintro ⟨hs, rows, hone, htable⟩ item hitem n hn
    obtain ⟨rfl, rfl⟩ := Prod.mk.inj (List.cons.inj (htables.symm.trans hone)).1
    have hexact := htable.quantity (itemRow item, item) (mem_zip_itemRow.mpr ⟨hitem, rfl⟩) n hn
    have hshown : (shown n : ℚ) = n := Option.some.inj ((hcell item n hn).symm.trans hexact)
    exact (shown_eq_iff n).mp (Nat.cast_injective hshown)
  · intro hsix
    have hexact : ∀ p ∈ (content.lineItems.map itemRow).zip content.lineItems, ∀ n, Counts p.2 n →
        denoted (cell headers "Qty" p.1) = some (n : ℚ) := by
      intro p hp n hn
      obtain ⟨hitem, hrow⟩ := mem_zip_itemRow.mp hp
      rw [hrow, hcell p.2 n hn, (shown_eq_iff n).mpr (hsix p.2 hitem n hn)]
    refine ⟨headers, content.lineItems.map itemRow, htables, carries_rows _, hexact, ?_⟩
    intro p hp p' hp' n n' hn hn' hne hsame
    have h := hexact p hp n hn
    rw [hsame, hexact p' hp' n' hn'] at h
    exact hne (Nat.cast_injective (Option.some.inj h)).symm

/-! ### Two quantities on one quote -/

namespace Sample

def screws (n : ℕ) : LineItem := ⟨"Wood screw 4x40", .finite n, "pcs", .finite 1, .finite n⟩

def quote : QuoteContent :=
  ⟨"Quote", "Ada", "Screws.", [screws 1234567, screws 1234568], .finite 1, none, .finite 1, [], [],
    none, none⟩

def branding : Branding := ⟨"Acme", none, none, none⟩

end Sample

/-- Two items whose quantities differ by one print the same quantity, which is neither. -/
theorem quantities_confused :
    ¬ States Sample.quote (buildBlocks (.quote Sample.quote) Sample.branding) ∧
      Sample.quote.lineItems.map (fun item => cell headers "Qty" (itemRow item)) =
        [some "1.23457e+06", some "1.23457e+06"] := by
  have hprinted : ∀ n, n = 1234567 ∨ n = 1234568 →
      cell headers "Qty" (itemRow (Sample.screws n)) = some "1.23457e+06" := by
    rintro n (rfl | rfl)
    · rw [cell_quantity]
      exact congrArg some (by decide +kernel)
    · rw [cell_quantity]
      exact congrArg some (by decide +kernel)
  have hfirst := hprinted 1234567 (.inl rfl)
  have hsecond := hprinted 1234568 (.inr rfl)
  refine ⟨?_, ?_⟩
  · rintro ⟨hs, rows, hone, htable⟩
    have htables := tables_quoteBlocks Sample.quote Sample.branding
    obtain ⟨rfl, rfl⟩ := Prod.mk.inj (List.cons.inj (htables.symm.trans hone)).1
    have hne : 1234567 ≠ 1234568 := by decide
    refine htable.apart (_, Sample.screws 1234567) (mem_zip_itemRow.mpr ⟨?_, rfl⟩)
      (_, Sample.screws 1234568) (mem_zip_itemRow.mpr ⟨?_, rfl⟩) 1234567 1234568
      ⟨.inl rfl, by decide⟩ ⟨.inl rfl, by decide⟩ hne (hfirst.trans hsecond.symm)
    · exact List.mem_cons_self
    · exact List.mem_cons_of_mem _ List.mem_cons_self
  · exact congrArg₂ (fun a b => [a, b]) hfirst hsecond

end WappPlanner.Documents.QuoteTable
