import WappPlanner.Documents.PlanLayout
import WappPlanner.Documents.QuoteTable
import WappPlanner.Documents.Renderer

/-! # What the documents of a quote say

Two quotes have the same layout exactly if they are alike (`Alike`): the same up to what the layout
leaves out of a number, which is what follows the cents of an amount of money and the six significant
digits of a quantity, up to texts that are absent or empty, and up to how it is said that the tax is to
be determined. The sections of the layout are told apart as those of a plan are; the terms, which are
the branding's and have no label, stand at the end of both. What is handed to the two libraries says
as much as the layout does (`documents_alike`, for quotes and plans). -/

namespace WappPlanner.Documents.QuoteLayout

open WappPlanner.Documents.Content WappPlanner.Documents.Layout WappPlanner.Documents.PlanLayout
open WappPlanner.Documents.QuoteTable WappPlanner.Documents.Renderer WappPlanner.Lib
open WappPlanner.Lib.Sections WappPlanner.Py.Text WappPlanner.Py.Values

/-! ### Alike -/

/-- An amount of money to the cent, with its sign, `none` if it is infinite. -/
def cents : Amount → Option (Bool × ℕ)
  | .finite q => some (false, roundHalfEven (100 * q.num) q.den)
  | .negZero => some (true, 0)
  | .inf => none

/-- A quantity to six significant digits, with its sign, `none` if it is infinite. -/
def rounded : Amount → Option (Bool × ℚ≥0)
  | .finite q => some (false, sixDigits q)
  | .negZero => some (true, 0)
  | .inf => none

/-- The tax is absent, empty or said to be to be determined. -/
def TaxOpen (tax : Option String) : Prop := explicit tax = explicit none ∨ tax = some "TBD"

structure AlikeItem (item item' : LineItem) : Prop where
  description : item.description = item'.description
  quantity : rounded item.quantity = rounded item'.quantity
  unit : item.unit = item'.unit
  unitPrice : cents item.unitPrice = cents item'.unitPrice
  total : cents item.total = cents item'.total

structure Alike (content content' : QuoteContent) : Prop where
  title : content.title = content'.title
  preparedFor : content.preparedFor = content'.preparedFor
  scopeSummary : content.scopeSummary = content'.scopeSummary
  lineItems : List.Forall₂ AlikeItem content.lineItems content'.lineItems
  subtotal : cents content.subtotal = cents content'.subtotal
  tax : content.tax = content'.tax ∨ TaxOpen content.tax ∧ TaxOpen content'.tax
  total : cents content.total = cents content'.total
  assumptions : content.assumptions = content'.assumptions
  exclusions : content.exclusions = content'.exclusions
  validity : explicit content.validity = explicit content'.validity
  notes : explicit content.notes = explicit content'.notes

/-- The contents have the same documents. -/
def AlikeContent : DocumentContent → DocumentContent → Prop
  | .quote content, .quote content' => Alike content content'
  | .plan content, .plan content' => explicitPlan content = explicitPlan content'
  | _, _ => False

/-! ### Money -/

theorem filter_grouped (cs : List Char) :
    (grouped cs).filter (·.isDigit) = cs.filter (·.isDigit) := by
  induction cs using grouped.induct with
  | case1 a b c d rest ih =>
    have hcomma : (',' :: grouped (d :: rest)).filter (·.isDigit) =
        (grouped (d :: rest)).filter (·.isDigit) := List.filter_cons_of_neg (by decide)
    simp only [grouped, List.filter_cons, ih] at hcomma ⊢
    rw [hcomma]
  | case2 cs h => rw [grouped]; exact h

theorem length_padded {n : ℕ} (h : n < 100) : (padded 2 n).toList.length = 2 := by
  have hle : (natText n).length ≤ 2 := (length_natText_le_iff (by decide)).mpr h
  have hpos := natText_length_pos n
  have hlen : (padded 2 n).toList.length = 2 - (natText n).length + (natText n).length := by
    simp [padded, String.length_toList]
  omega

/-- A number of cents as a price. -/
def centsText (n : ℕ) : String :=
  String.ofList (grouped (natText (n / 100)).toList.reverse).reverse ++ "." ++ padded 2 (n % 100)

/-- **The digits of a price are its cents.** -/
theorem value_centsText (n : ℕ) :
    Numeral.value ((centsText n).toList.filter (·.isDigit)) = n := by
  have hself : ∀ {cs : List Char}, Numeral.Digits cs → cs.filter (·.isDigit) = cs :=
    fun h => List.filter_eq_self.mpr h.2
  have hdigits : Numeral.Digits (natText (n / 100)).toList := Numeral.digits_repr _
  have hvalue : Numeral.value (natText (n / 100)).toList = n / 100 := Numeral.value_repr _
  have hlen := length_padded (Nat.mod_lt n (show 0 < 100 by decide))
  obtain ⟨hdigits', hvalue'⟩ := digits_padded 2 (n % 100)
  have hpoint : ".".toList.filter (·.isDigit) = [] := by decide
  have hchars : (centsText n).toList.filter (·.isDigit) =
      (natText (n / 100)).toList ++ (padded 2 (n % 100)).toList := by
    unfold centsText
    rw [String.toList_append, String.toList_append, String.toList_ofList, List.filter_append,
      List.filter_append, List.filter_reverse, filter_grouped, List.filter_reverse,
      List.reverse_reverse, hpoint, hself hdigits, hself hdigits', List.append_nil]
  rw [hchars, Numeral.value_append, hlen, hvalue, hvalue']
  omega

theorem centsText_injective : Function.Injective centsText := fun n n' h => by
  rw [← value_centsText n, h, value_centsText]

/-- A price as the word or the digits after its sign. -/
def priceText : Option (Bool × ℕ) → String
  | some (negative, n) => (if negative then "-" else "") ++ centsText n
  | none => "inf"

theorem formatCents_eq (x : Amount) : formatCents x = priceText (cents x) := by
  cases x with
  | finite q => exact (String.empty_append).symm
  | negZero => rfl
  | inf => rfl

theorem mem_grouped {c : Char} {cs : List Char} (h : c ∈ grouped cs) : c ∈ cs ∨ c = ',' := by
  induction cs using grouped.induct with
  | case1 a b c d rest ih =>
    simp only [grouped, List.mem_cons] at h ih ⊢
    tauto
  | case2 cs hshort =>
    rw [grouped] at h
    · exact .inl h
    · exact hshort

theorem point_mem_centsText (n : ℕ) : '.' ∈ (centsText n).toList := by
  have hpoint : '.' ∈ ".".toList := by decide
  unfold centsText
  rw [String.toList_append, String.toList_append]
  exact List.mem_append_left _ (List.mem_append_right _ hpoint)

theorem minus_notMem_centsText (n : ℕ) : '-' ∉ (centsText n).toList := by
  have hdigits : ∀ {cs : List Char}, Numeral.Digits cs → '-' ∉ cs := fun h hmem =>
    h.ne (by decide) '-' hmem rfl
  have hpoint : '-' ∉ ".".toList := by decide
  unfold centsText
  rw [String.toList_append, String.toList_append, String.toList_ofList]
  intro h
  rcases List.mem_append.mp h with h | h
  · rcases List.mem_append.mp h with h | h
    · rcases mem_grouped (List.mem_reverse.mp h) with h | h
      · exact hdigits (Numeral.digits_repr _) (List.mem_reverse.mp h)
      · exact absurd h (by decide)
    · exact hpoint h
  · exact hdigits (digits_padded 2 _).1 h

theorem priceText_injective : Function.Injective priceText := by
  have hinf : ∀ negative n, priceText (some (negative, n)) ≠ priceText none := by
    intro negative n h
    have hpoint : '.' ∈ (priceText (some (negative, n))).toList := by
      rw [priceText, String.toList_append]
      exact List.mem_append_right _ (point_mem_centsText n)
    rw [h] at hpoint
    exact absurd hpoint (by decide)
  have hsign : ∀ n n', priceText (some (true, n)) ≠ priceText (some (false, n')) := by
    intro n n' h
    have hminus : '-' ∈ (priceText (some (true, n))).toList := by
      rw [priceText, String.toList_append]
      exact List.mem_append_left _ (by decide)
    rw [h, priceText, String.toList_append] at hminus
    rcases List.mem_append.mp hminus with hempty | hminus
    · exact absurd hempty (by decide)
    · exact minus_notMem_centsText n' hminus
  rintro (_ | ⟨negative, n⟩) (_ | ⟨negative', n'⟩) h
  · rfl
  · exact absurd h.symm (hinf negative' n')
  · exact absurd h (hinf negative n)
  · cases negative with
    | false =>
      cases negative' with
      | false => rw [centsText_injective (String.append_right_inj _ |>.mp h)]
      | true => exact absurd h.symm (hsign n' n)
    | true =>
      cases negative' with
      | false => exact absurd h (hsign n n')
      | true => rw [centsText_injective (String.append_right_inj _ |>.mp h)]

theorem formatCents_inj {x x' : Amount} : formatCents x = formatCents x' ↔ cents x = cents x' := by
  rw [formatCents_eq, formatCents_eq, priceText_injective.eq_iff]

theorem money_inj {x x' : Amount} : money x = money x' ↔ cents x = cents x' := by
  unfold money
  rw [String.append_right_inj, formatCents_inj]

/-! ### Quantities -/

theorem scientific_unique {m m' : ℕ} {e e' : ℤ} (hlow : 10 ^ 5 ≤ m) (hhigh : m < 10 ^ 6)
    (hlow' : 10 ^ 5 ≤ m') (hhigh' : m' < 10 ^ 6)
    (h : (m : ℚ) * 10 ^ (e - 5) = m' * 10 ^ (e' - 5)) : m = m' ∧ e = e' := by
  have hpos : ∀ k : ℤ, (0 : ℚ) < 10 ^ k := fun k => zpow_pos (by norm_num) k
  -- the number with the larger exponent is larger
  have hlt : ∀ {m m' : ℕ} {e e' : ℤ}, m < 10 ^ 6 → 10 ^ 5 ≤ m' → e < e' →
      (m : ℚ) * 10 ^ (e - 5) < m' * 10 ^ (e' - 5) := by
    intro m m' e e' hhigh hlow hlt
    have hm : (m : ℚ) < 10 ^ 6 := by exact_mod_cast hhigh
    have hm' : (10 : ℚ) ^ 5 ≤ m' := by exact_mod_cast hlow
    calc (m : ℚ) * 10 ^ (e - 5) < 10 ^ 6 * 10 ^ (e - 5) := mul_lt_mul_of_pos_right hm (hpos _)
      _ = 10 ^ (e + 1) := by
          rw [← zpow_natCast, ← zpow_add₀ (by norm_num)]
          congr 1
          omega
      _ ≤ 10 ^ e' := zpow_le_zpow_right₀ (by norm_num) (by omega)
      _ = 10 ^ 5 * 10 ^ (e' - 5) := by
          rw [← zpow_natCast, ← zpow_add₀ (by norm_num)]
          congr 1
          omega
      _ ≤ m' * 10 ^ (e' - 5) := mul_le_mul_of_nonneg_right hm' (hpos _).le
  rcases lt_trichotomy e e' with he | rfl | he
  · exact absurd h (hlt hhigh hlow' he).ne
  · exact ⟨by exact_mod_cast mul_right_cancel₀ (hpos _).ne' h, rfl⟩
  · exact absurd h (hlt hhigh' hlow he).ne'

theorem sixDigits_ne_zero {q : ℚ≥0} (hq : q ≠ 0) : sixDigits q ≠ 0 := by
  obtain ⟨m, e, hlow, -, hvalue, -⟩ := formatG_printed hq
  intro h
  rw [h, NNRat.cast_zero] at hvalue
  have hm : (m : ℚ) ≠ 0 := Nat.cast_ne_zero.mpr (by omega)
  exact mul_ne_zero hm (zpow_ne_zero _ (by norm_num)) hvalue.symm

/-- **Quantities are printed alike** exactly if they agree to six significant digits. -/
theorem formatG_finite {q q' : ℚ≥0} :
    formatG (.finite q) = formatG (.finite q') ↔ sixDigits q = sixDigits q' := by
  constructor
  · intro h
    have hread := read_formatG q
    rw [h, read_formatG q'] at hread
    exact (NNRat.cast_injective (Option.some.inj hread)).symm
  · intro h
    by_cases hq : q = 0
    · subst hq
      have hq' : q' = 0 := by
        by_contra hne
        exact sixDigits_ne_zero hne (h.symm.trans sixDigits_zero)
      rw [hq']
    · have hq' : q' ≠ 0 := by
        rintro rfl
        exact sixDigits_ne_zero hq (h.trans sixDigits_zero)
      obtain ⟨m, e, hlow, hhigh, hvalue, htext⟩ := formatG_printed hq
      obtain ⟨m', e', hlow', hhigh', hvalue', htext'⟩ := formatG_printed hq'
      rw [h, hvalue'] at hvalue
      obtain ⟨rfl, rfl⟩ := scientific_unique hlow hhigh hlow' hhigh' hvalue.symm
      rw [htext, htext']

theorem read_inf : Numeral.read (formatG .inf).toList = none := by
  have hword : (formatG .inf).toList = ['i', 'n', 'f'] := by decide
  have hdigits : ¬ Numeral.Digits ['i', 'n', 'f'] := by decide
  rw [hword, Numeral.read_unsigned (by decide), Numeral.readUnsigned_plain (by simp),
    Numeral.readDecimal_none (by simp) hdigits]

theorem formatG_ne_negZero (q : ℚ≥0) : formatG (.finite q) ≠ formatG .negZero := by
  intro h
  have hread := read_formatG q
  rw [h, read_negZero] at hread
  by_cases hq : q = 0
  · subst hq
    exact absurd h (by decide)
  · exact sixDigits_ne_zero hq (NNRat.cast_eq_zero.mp (Option.some.inj hread).symm)

theorem formatG_ne_inf (q : ℚ≥0) : formatG (.finite q) ≠ formatG .inf := by
  intro h
  have hread := read_formatG q
  rw [h, read_inf] at hread
  cases hread

theorem formatG_inj {x x' : Amount} : formatG x = formatG x' ↔ rounded x = rounded x' := by
  have hsign : ∀ q : ℚ≥0, rounded (.finite q) ≠ rounded .negZero := by
    intro q h
    cases h
  have hwords : formatG .negZero ≠ formatG .inf := by decide
  cases x with
  | finite q =>
    cases x' with
    | finite q' => rw [formatG_finite, rounded, rounded, Option.some.injEq, Prod.mk.injEq,
        eq_self_iff_true, true_and]
    | negZero => exact iff_of_false (formatG_ne_negZero q) (hsign q)
    | inf => exact iff_of_false (formatG_ne_inf q) (Option.some_ne_none _)
  | negZero =>
    cases x' with
    | finite q' => exact iff_of_false (formatG_ne_negZero q').symm (hsign q').symm
    | negZero => exact iff_of_true rfl rfl
    | inf => exact iff_of_false hwords (Option.some_ne_none _)
  | inf =>
    cases x' with
    | finite q' => exact iff_of_false (formatG_ne_inf q').symm (Option.some_ne_none _).symm
    | negZero => exact iff_of_false hwords.symm (Option.some_ne_none _).symm
    | inf => exact iff_of_true rfl rfl

theorem taxText_inj {tax tax' : Option String} :
    taxText tax = taxText tax' ↔ tax = tax' ∨ TaxOpen tax ∧ TaxOpen tax' := by
  have hopen : ∀ tax, taxText tax = "TBD" ↔ TaxOpen tax := by
    rintro (_ | s)
    · exact iff_of_true rfl (.inl rfl)
    · by_cases hs : s = ""
      · subst hs
        exact iff_of_true rfl (.inl rfl)
      · simp [taxText, TaxOpen, explicit, hs]
  have hclosed : ∀ {tax}, ¬ TaxOpen tax → tax = some (taxText tax) := by
    rintro (_ | s) h
    · exact absurd (.inl rfl) h
    · have hs : s ≠ "" := by
        rintro rfl
        exact h (.inl rfl)
      rw [taxText, if_neg hs]
  constructor
  · intro h
    by_cases htax : TaxOpen tax
    · exact .inr ⟨htax, (hopen tax').mp (h ▸ (hopen tax).mpr htax)⟩
    · have htax' : ¬ TaxOpen tax' := fun h' => htax ((hopen tax).mp (h.trans ((hopen tax').mpr h')))
      rw [hclosed htax, hclosed htax', h]
      exact .inl rfl
  · rintro (rfl | ⟨htax, htax'⟩)
    · rfl
    · rw [(hopen tax).mpr htax, (hopen tax').mpr htax']

/-! ### The rows -/

theorem itemRow_inj {item item' : LineItem} : itemRow item = itemRow item' ↔ AlikeItem item item' := by
  unfold itemRow
  simp only [List.cons.injEq, money_inj, formatG_inj, and_true]
  constructor
  · rintro ⟨hdescription, hquantity, hunit, hprice, htotal⟩
    exact ⟨hdescription, hquantity, hunit, hprice, htotal⟩
  · rintro ⟨hdescription, hquantity, hunit, hprice, htotal⟩
    exact ⟨hdescription, hquantity, hunit, hprice, htotal⟩

theorem rows_inj {items items' : List LineItem} :
    items.map itemRow = items'.map itemRow ↔ List.Forall₂ AlikeItem items items' := by
  rw [← List.forall₂_eq_eq_eq, List.forall₂_map_left_iff, List.forall₂_map_right_iff]
  simp only [itemRow_inj]

/-! ### The layout of a quote -/

/-- The sections after the totals, the terms aside. -/
def closing (content : QuoteContent) : List Block :=
  whenItems "Assumptions" content.assumptions ++ (whenItems "Exclusions" content.exclusions ++
    (texts "Validity: " content.validity ++ texts "Notes: " content.notes))

theorem closing_inj {content content' : QuoteContent} (h : closing content = closing content') :
    content.assumptions = content'.assumptions ∧ content.exclusions = content'.exclusions ∧
      explicit content.validity = explicit content'.validity ∧
      explicit content.notes = explicit content'.notes := by
  have hnotes : ∀ x, Marked markOf (.text (some 'N')) (texts "Notes: " x) :=
    marked_texts (by decide)
  have hvalidity : ∀ x, Marked markOf (.text (some 'V')) (texts "Validity: " x) :=
    marked_texts (by decide)
  have hexclusions := marked_whenItems "Exclusions"
  have hassumptions := marked_whenItems "Assumptions"
  have hlast : ∀ x, Starts markOf [.text (some 'N')] (texts "Notes: " x) := by
    intro x
    have hstarts : Starts markOf [.text (some 'N')] (texts "Notes: " x ++ []) :=
      starts_nil.append (hnotes x)
    rwa [List.append_nil] at hstarts
  unfold closing at h
  obtain ⟨hitems, h⟩ := section_inj (by decide) (hassumptions _) (hassumptions _)
    (((hlast _).append (hvalidity _)).append (hexclusions _))
    (((hlast _).append (hvalidity _)).append (hexclusions _)) h
  obtain ⟨hitems', h⟩ := section_inj (by decide) (hexclusions _) (hexclusions _)
    ((hlast _).append (hvalidity _)) ((hlast _).append (hvalidity _)) h
  obtain ⟨htext, htext'⟩ := section_inj (by decide) (hvalidity _) (hvalidity _)
    (hlast _) (hlast _) h
  exact ⟨whenItems_inj hitems, whenItems_inj hitems', texts_inj htext, texts_inj htext'⟩

theorem texts_explicit (label : String) (x : Option String) :
    texts label (explicit x) = texts label x := by
  cases x with
  | none => rfl
  | some s => rfl

theorem texts_congr {label : String} {x x' : Option String} (h : explicit x = explicit x') :
    texts label x = texts label x' := by
  rw [← texts_explicit, h, texts_explicit]

theorem quoteBlocks_sections (content : QuoteContent) (branding : Branding) :
    quoteBlocks content branding = brandingHeader branding ++
      (.heading content.title 2 :: .keyValues [("Prepared for", content.preparedFor)] ::
        .heading "Scope" 2 :: .paragraph content.scopeSummary ::
        .table headers (content.lineItems.map itemRow) ::
        .keyValues [("Subtotal", money content.subtotal), ("Tax", taxText content.tax),
          ("Total", money content.total)] ::
        (closing content ++ whenText branding.quoteTerms .paragraph)) := by
  simp [quoteBlocks, closing, texts, headers]

/-- **The layout of a quote says what the quote says**, up to what it leaves out of numbers and absent
texts. -/
theorem quoteBlocks_inj {content content' : QuoteContent} {branding : Branding} :
    quoteBlocks content branding = quoteBlocks content' branding ↔ Alike content content' := by
  rw [quoteBlocks_sections, quoteBlocks_sections, List.append_cancel_left_eq]
  simp only [List.cons.injEq, Block.heading.injEq, Block.paragraph.injEq, Block.table.injEq,
    Block.keyValues.injEq, Prod.mk.injEq, and_true, true_and, money_inj, rows_inj,
    taxText_inj, List.append_cancel_right_eq]
  constructor
  · rintro ⟨htitle, hfor, hscope, hitems, ⟨hsubtotal, htax, htotal⟩, hclosing⟩
    obtain ⟨hassumptions, hexclusions, hvalidity, hnotes⟩ := closing_inj hclosing
    exact ⟨htitle, hfor, hscope, hitems, hsubtotal, htax, htotal, hassumptions, hexclusions,
      hvalidity, hnotes⟩
  · rintro ⟨htitle, hfor, hscope, hitems, hsubtotal, htax, htotal, hassumptions, hexclusions,
      hvalidity, hnotes⟩
    refine ⟨htitle, hfor, hscope, hitems, ⟨hsubtotal, htax, htotal⟩, ?_⟩
    unfold closing
    rw [hassumptions, hexclusions, texts_congr hvalidity, texts_congr hnotes]

/-! ### The documents -/

/-- A quote goes on with key and value lines after its title, a plan with a heading. -/
theorem quoteBlocks_ne_planBlocks (content : QuoteContent) (content' : ExecutionPlanContent)
    (branding : Branding) : quoteBlocks content branding ≠ planBlocks content' branding := by
  intro h
  rw [quoteBlocks_sections, planBlocks] at h
  simp [List.append_assoc] at h

theorem buildBlocks_inj {content content' : DocumentContent} {branding : Branding} :
    buildBlocks content branding = buildBlocks content' branding ↔
      AlikeContent content content' := by
  cases content with
  | quote content =>
    cases content' with
    | quote content' => exact quoteBlocks_inj
    | plan content' => exact iff_of_false (quoteBlocks_ne_planBlocks content content' branding) id
  | plan content =>
    cases content' with
    | quote content' =>
      exact iff_of_false (quoteBlocks_ne_planBlocks content' content branding).symm id
    | plan content' =>
      constructor
      · exact plan_of_blocks branding content content'
      · intro h
        rw [← buildBlocks_explicit branding content, h, buildBlocks_explicit]

/-- **A document keeps the cents, six significant digits of a quantity and every text.** What is handed
to either library is the same for two contents exactly if they are alike. -/
theorem documents_alike (content content' : DocumentContent) (branding : Branding) :
    (story (buildBlocks content branding) = story (buildBlocks content' branding) ↔
      AlikeContent content content') ∧
    (docxBody (buildBlocks content branding) = docxBody (buildBlocks content' branding) ↔
      AlikeContent content content') := by
  have hlaid := laid_buildBlocks content branding
  have hlaid' := laid_buildBlocks content' branding
  rw [← buildBlocks_inj]
  refine ⟨⟨fun h => ?_, congrArg story⟩, fun h => ?_, congrArg docxBody⟩
  · rw [← readPdf_story hlaid, h, readPdf_story hlaid']
  · obtain ⟨body, hbody, hread⟩ := docxBody_laid hlaid
    obtain ⟨body', hbody', hread'⟩ := docxBody_laid hlaid'
    rw [hbody, hbody'] at h
    obtain rfl := Except.ok.inj h
    rw [hread] at hread'
    exact congrArg Prod.snd hread'

end WappPlanner.Documents.QuoteLayout
