import WappPlanner.Documents.Layout
import WappPlanner.Lib.Fallible
import WappPlanner.Lib.Markup
import WappPlanner.Lib.Programs

/-! # The two renderers

`documents/renderer.py`: the blocks of a document as the flowables handed to reportlab (`story`) and
as the body handed to python-docx (`docxBody`), which is where cells are filled by index and may be
missing. What the two libraries make of them comes as a parameter.

The two documents stay consistent because each of them holds all that the blocks say: `readPdf` and
`readDocx` read the blocks back (`rendered_faithfully`). In the PDF the blocks end with a spacer, and
escaping keeps a text from being taken for a tag. In the body nothing ends a block, so key and value
lines that follow one another belong to one block, and the layout never has two such blocks in a row
(`laid_buildBlocks`). -/

namespace WappPlanner.Documents.Renderer

open WappPlanner.Documents.Content WappPlanner.Documents.Layout WappPlanner.Errors
open WappPlanner.Lib.Fallible WappPlanner.Lib.Programs WappPlanner.Py.Text WappPlanner.Py.Values

/-! ### PDF -/

/-- `xml.sax.saxutils.escape`. -/
def escape (s : String) : String := String.ofList (Lib.Markup.escape s.toList)

/-- What reportlab lays out, texts being markup except in tables. -/
inductive Flowable
  | paragraph (markup style : String)
  | listFlowable (items : List (String × String)) (bulletType : String)
  | table (rows : List (List String))
  | spacer (width height : ℕ)
  deriving DecidableEq

def bodyText : String := "BodyText"

def pairMarkup (pair : String × String) : String :=
  "<b>" ++ escape pair.1 ++ ":</b> " ++ escape pair.2

def flowables : Block → List Flowable
  | .heading text level => [.paragraph (escape text) (if level = 1 then "Heading1" else "Heading2")]
  | .paragraph text => [.paragraph (escape text) bodyText]
  | .bullets title items =>
    [.paragraph (escape title) "Heading3",
      .listFlowable (items.map fun item => (escape item, bodyText)) "bullet"]
  | .table headers rows => [.table (headers :: rows)]
  | .keyValues pairs => pairs.map fun pair => .paragraph (pairMarkup pair) bodyText

def story (blocks : List Block) : List Flowable :=
  blocks.flatMap fun block => flowables block ++ [.spacer 1 8]

/-! ### Word -/

/-- What is added to the body of a Word document: paragraphs of one text, and of runs, which are bold
or not. -/
inductive Item
  | heading (text : String) (level : ℕ)
  | paragraph (text : String) (style : Option String)
  | runs (parts : List (String × Bool))
  | table (style : String) (cells : List (List String))
  deriving DecidableEq

/-- `doc.add_heading`. -/
def addHeading (text : String) (level : ℕ) : Except Exn Item :=
  if level ≤ 9 then .ok (.heading text level)
  else .error (.valueError ("level must be in range 0-9, got " ++ natText level))

/-- A row of `cols` cells, filled from the left; a cell that is not there cannot be filled. -/
def fillRow (cols : ℕ) (row : List String) : Except Exn (List String) :=
  if row.length ≤ cols then .ok (row ++ List.replicate (cols - row.length) "")
  else .error (.lookupError "tuple index out of range")

def bulletItem (item : String) : Item := .paragraph item (some "List Bullet")

def pairItem (pair : String × String) : Item := .runs [(pair.1 ++ ": ", true), (pair.2, false)]

def items : Block → Except Exn (List Item)
  | .heading text level => do return [← addHeading text level]
  | .paragraph text => return [.paragraph text none]
  | .bullets title items => do return (← addHeading title 3) :: items.map bulletItem
  | .table headers rows => do
    let cells ← (headers :: rows).mapM (fillRow headers.length)
    return [.table "Table Grid" cells]
  | .keyValues pairs => return pairs.map pairItem

def docxBody (blocks : List Block) : Except Exn (List Item) := do
  let parts ← blocks.mapM items
  return parts.flatten

/-- The renderers, over what the two libraries make of a story and of a body. -/
def renderers (build : List Flowable → Answer Bytes) (save : List Item → Answer Bytes) :
    Renderers where
  renderPdf blocks := build (story blocks)
  renderDocx blocks :=
    match docxBody blocks with
    | .ok body => save body
    | .error exc => .error exc.text

/-! ### Reading the documents -/

def unescape (markup : String) : String := String.ofList (Lib.Markup.unescape markup.toList)

/-- A key and its value: the key is bold and ends with a colon. -/
def readPair (markup : String) : String × String :=
  let cs := markup.toList.drop 3
  let key := cs.takeWhile (· ≠ '<')
  let value := (cs.dropWhile (· ≠ '<')).drop 5
  (String.ofList (Lib.Markup.unescape key.dropLast), String.ofList (Lib.Markup.unescape value))

/-- The markup of a flowable that is a paragraph. -/
def Flowable.markup : Flowable → String
  | .paragraph markup _ => markup
  | _ => ""

/-- The block of the flowables between two spacers. -/
def readGroup : List Flowable → Block
  | [.paragraph markup style] =>
    if style = "Heading1" then .heading (unescape markup) 1
    else if style = "Heading2" then .heading (unescape markup) 2
    else if markup.toList.head? = some '<' then .keyValues [readPair markup]
    else .paragraph (unescape markup)
  | [.paragraph markup _, .listFlowable items _] =>
    .bullets (unescape markup) (items.map fun item => unescape item.1)
  | [.table (headers :: rows)] => .table headers rows
  | group => .keyValues (group.map fun flowable => readPair flowable.markup)

/-- The blocks of a story, `group` being what was read since the last spacer. -/
def readPdf : List Flowable → List Flowable → List Block
  | .spacer _ _ :: rest, group => readGroup group :: readPdf rest []
  | flowable :: rest, group => readPdf rest (group ++ [flowable])
  | [], _ => []

/-- Read an item in front of the blocks that follow it, `bullets` being those not yet in a block. -/
def readItem (item : Item) (rest : List String × List Block) : List String × List Block :=
  match item with
  | .heading title 3 => ([], .bullets title rest.1 :: rest.2)
  | .heading text level => ([], .heading text level :: rest.2)
  | .table _ (headers :: rows) => ([], .table headers rows :: rest.2)
  | .paragraph text (some _) => (text :: rest.1, rest.2)
  | .paragraph text none => ([], .paragraph text :: rest.2)
  | .runs [(key, _), (value, _)] =>
    let pair := (String.ofList key.toList.dropLast.dropLast, value)
    match rest.2 with
    | .keyValues pairs :: blocks => ([], .keyValues (pair :: pairs) :: blocks)
    | blocks => ([], .keyValues [pair] :: blocks)
  | _ => rest

/-- The blocks of a body. -/
def readDocx (body : List Item) : List Block := (body.foldr readItem ([], [])).2

/-! ### The shape of a layout -/

/-- Key and value lines. -/
def Keyed : Block → Prop
  | .keyValues _ => True
  | _ => False

/-- The block has a place in both documents. -/
def Fits : Block → Prop
  | .heading _ level => level = 1 ∨ level = 2
  | .table headers rows => ∀ row ∈ rows, row.length = headers.length
  | .keyValues pairs => pairs ≠ []
  | _ => True

/-- The blocks fit, and no two blocks of key and value lines follow one another. -/
def Laid : List Block → Prop
  | [] => True
  | block :: rest => Fits block ∧ (Keyed block → ∀ next ∈ rest.head?, ¬ Keyed next) ∧ Laid rest

/-! ### The PDF is read back -/

theorem unescape_escape (s : String) : unescape (escape s) = s := by
  unfold unescape escape
  rw [String.toList_ofList, Lib.Markup.unescape_escape, String.ofList_toList]

theorem escape_head (s : String) : (escape s).toList.head? ≠ some '<' := by
  intro h
  have hmem : '<' ∈ Lib.Markup.escape s.toList := by
    unfold escape at h
    rw [String.toList_ofList] at h
    exact List.mem_of_mem_head? h
  exact Lib.Markup.escape_ne_lt hmem rfl

/-- **A key and its value are told apart**, whatever they contain. -/
theorem readPair_pairMarkup (pair : String × String) : readPair (pairMarkup pair) = pair := by
  obtain ⟨key, value⟩ := pair
  have hchars : (pairMarkup (key, value)).toList.drop 3 =
      (Lib.Markup.escape key.toList ++ [':']) ++ "</b> ".toList ++
        Lib.Markup.escape value.toList := by
    simp [pairMarkup, escape]
  have hkey : ∀ c ∈ Lib.Markup.escape key.toList ++ [':'], decide (c ≠ '<') = true := by
    intro c hc
    rcases List.mem_append.mp hc with hc | hc
    · exact decide_eq_true (Lib.Markup.escape_ne_lt hc)
    · rw [List.mem_singleton.mp hc]
      decide
  unfold readPair
  dsimp only
  rw [hchars, List.append_assoc, List.takeWhile_append_of_pos hkey,
    List.dropWhile_append_of_pos hkey]
  have htake : List.takeWhile (· ≠ '<') ("</b> ".toList ++ Lib.Markup.escape value.toList) = [] := by
    simp
  have hdrop : (List.dropWhile (· ≠ '<')
      ("</b> ".toList ++ Lib.Markup.escape value.toList)).drop 5 =
        Lib.Markup.escape value.toList := by
    simp
  rw [htake, hdrop, List.append_nil, List.dropLast_concat, Lib.Markup.unescape_escape,
    Lib.Markup.unescape_escape, String.ofList_toList, String.ofList_toList]

theorem readPdf_group {fs : List Flowable} (hfs : ∀ f ∈ fs, ∀ w h, f ≠ .spacer w h)
    (w h : ℕ) (rest group : List Flowable) :
    readPdf (fs ++ .spacer w h :: rest) group = readGroup (group ++ fs) :: readPdf rest [] := by
  induction fs generalizing group with
  | nil => rw [List.nil_append, readPdf, List.append_nil]
  | cons f fs ih =>
    have hrest := ih (fun f' hf' => hfs f' (List.mem_cons_of_mem f hf')) (group ++ [f])
    have hf := hfs f List.mem_cons_self
    rw [List.append_assoc] at hrest
    cases f with
    | spacer w' h' => exact absurd rfl (hf w' h')
    | paragraph | listFlowable | table => exact hrest

theorem flowables_ne_spacer (block : Block) : ∀ f ∈ flowables block, ∀ w h, f ≠ .spacer w h := by
  rintro f hf w h rfl
  cases block <;> simp [flowables] at hf

theorem readGroup_flowables {block : Block} (h : Fits block) :
    readGroup (flowables block) = block := by
  cases block with
  | heading text level =>
    rcases h with rfl | rfl <;> simp [flowables, readGroup, unescape_escape]
  | paragraph text =>
    simp [flowables, readGroup, bodyText, escape_head, unescape_escape]
  | bullets title items =>
    simp [flowables, readGroup, unescape_escape, Function.comp_def]
  | table headers rows => rfl
  | keyValues pairs =>
    have hhead : ∀ pair, (pairMarkup pair).toList.head? = some '<' := fun pair => by
      simp [pairMarkup]
    cases pairs with
    | nil => exact absurd rfl h
    | cons pair pairs =>
      cases pairs with
      | nil => simp [flowables, readGroup, bodyText, hhead, readPair_pairMarkup]
      | cons pair' pairs =>
        simp [flowables, readGroup, Flowable.markup, readPair_pairMarkup, Function.comp_def]

theorem readPdf_story {blocks : List Block} (h : Laid blocks) : readPdf (story blocks) [] = blocks := by
  induction blocks with
  | nil => rfl
  | cons block blocks ih =>
    obtain ⟨hfits, -, hlaid⟩ := h
    have hstory : story (block :: blocks) =
        flowables block ++ .spacer 1 8 :: story blocks := by
      rw [story, List.flatMap_cons, List.append_assoc]
      rfl
    rw [hstory, readPdf_group (flowables_ne_spacer block), List.nil_append,
      readGroup_flowables hfits, ih hlaid]

/-! ### The Word document is read back -/

theorem fillRow_eq {cols : ℕ} {row : List String} (h : row.length = cols) :
    fillRow cols row = .ok row := by
  unfold fillRow
  rw [if_pos h.le, h, Nat.sub_self, List.replicate_zero, List.append_nil]

theorem foldr_bullets (texts : List String) (rest : List Block) :
    (texts.map bulletItem).foldr readItem ([], rest) = (texts, rest) := by
  induction texts with
  | nil => rfl
  | cons text texts ih =>
    rw [List.map_cons, List.foldr_cons, ih]
    rfl

theorem dropLast_key (key : String) :
    String.ofList (key ++ ": ").toList.dropLast.dropLast = key := by
  have hchars : (key ++ ": ").toList = key.toList ++ [':'] ++ [' '] := by simp
  rw [hchars, List.dropLast_concat, List.dropLast_concat, String.ofList_toList]

theorem readItem_pair (pair : String × String) (bullets : List String) {rest : List Block}
    (h : ∀ next ∈ rest.head?, ¬ Keyed next) :
    readItem (pairItem pair) (bullets, rest) = ([], .keyValues [pair] :: rest) := by
  unfold readItem pairItem
  dsimp only
  rw [dropLast_key]
  cases rest with
  | nil => rfl
  | cons next rest =>
    cases next with
    | keyValues pairs => exact absurd trivial (h _ rfl)
    | heading | paragraph | bullets | table => rfl

theorem foldr_pairs {pairs : List (String × String)} (hne : pairs ≠ []) {rest : List Block}
    (h : ∀ next ∈ rest.head?, ¬ Keyed next) :
    (pairs.map pairItem).foldr readItem ([], rest) = ([], .keyValues pairs :: rest) := by
  induction pairs with
  | nil => exact absurd rfl hne
  | cons pair pairs ih =>
    rw [List.map_cons, List.foldr_cons]
    cases pairs with
    | nil => exact readItem_pair pair [] h
    | cons pair' pairs =>
      rw [ih (List.cons_ne_nil _ _)]
      unfold readItem pairItem
      dsimp only
      rw [dropLast_key]

/-- **A block is added without an error**, and read back in front of what follows it. -/
theorem items_fits {block : Block} (hfits : Fits block) {rest : List Block}
    (hnext : Keyed block → ∀ next ∈ rest.head?, ¬ Keyed next) :
    ∃ added, items block = .ok added ∧ added.foldr readItem ([], rest) = ([], block :: rest) := by
  cases block with
  | heading text level =>
    rcases hfits with rfl | rfl
    · exact ⟨[.heading text 1], rfl, rfl⟩
    · exact ⟨[.heading text 2], rfl, rfl⟩
  | paragraph text => exact ⟨_, rfl, rfl⟩
  | bullets title texts =>
    refine ⟨.heading title 3 :: texts.map bulletItem, rfl, ?_⟩
    rw [List.foldr_cons, foldr_bullets]
    rfl
  | table headers rows =>
    have hfill : (headers :: rows).mapM (fillRow headers.length) = .ok (headers :: rows) := by
      rw [mapM_eq_ok, List.forall₂_same]
      intro row hrow
      rcases List.mem_cons.mp hrow with rfl | hrow
      · exact fillRow_eq rfl
      · exact fillRow_eq (hfits row hrow)
    refine ⟨[.table "Table Grid" (headers :: rows)], ?_, rfl⟩
    show (headers :: rows).mapM (fillRow headers.length) >>= _ = _
    rw [hfill]
    rfl
  | keyValues pairs => exact ⟨pairs.map pairItem, rfl, foldr_pairs hfits (hnext trivial)⟩

theorem docxBody_cons (block : Block) (blocks : List Block) :
    docxBody (block :: blocks) = do return (← items block) ++ (← docxBody blocks) := by
  unfold docxBody
  rw [List.mapM_cons]
  simp only [bind_assoc, pure_bind, List.flatten_cons]

theorem docxBody_laid {blocks : List Block} (h : Laid blocks) :
    ∃ body, docxBody blocks = .ok body ∧ body.foldr readItem ([], []) = ([], blocks) := by
  induction blocks with
  | nil => exact ⟨[], rfl, rfl⟩
  | cons block blocks ih =>
    obtain ⟨hfits, hnext, hlaid⟩ := h
    obtain ⟨body, hbody, hread⟩ := ih hlaid
    obtain ⟨added, hadded, hblock⟩ := items_fits hfits hnext
    refine ⟨added ++ body, ?_, by rw [List.foldr_append, hread, hblock]⟩
    rw [docxBody_cons, hadded, hbody]
    rfl

/-! ### The layouts -/

/-- A block with a place in both documents that is not of key and value lines. -/
def Plain (block : Block) : Prop := Fits block ∧ ¬ Keyed block

theorem laid_append {blocks rest : List Block} (hplain : ∀ block ∈ blocks, Plain block)
    (hrest : Laid rest) : Laid (blocks ++ rest) := by
  induction blocks with
  | nil => exact hrest
  | cons block blocks ih =>
    obtain ⟨hfits, hkeyed⟩ := hplain block List.mem_cons_self
    exact ⟨hfits, fun h => absurd h hkeyed,
      ih fun block hblock => hplain block (List.mem_cons_of_mem _ hblock)⟩

theorem laid_plain {blocks : List Block} (hplain : ∀ block ∈ blocks, Plain block) : Laid blocks := by
  have h : Laid (blocks ++ []) := laid_append hplain trivial
  rwa [List.append_nil] at h

theorem laid_keyValues {pairs : List (String × String)} (hne : pairs ≠ []) {blocks rest : List Block}
    (hplain : ∀ block ∈ blocks, Plain block) (hrest : Laid rest)
    (hnext : blocks ≠ [] ∨ rest = []) : Laid (.keyValues pairs :: (blocks ++ rest)) := by
  refine ⟨hne, fun _ next hhead => ?_, laid_append hplain hrest⟩
  cases blocks with
  | nil =>
    rcases hnext with hnil | rfl
    · exact absurd rfl hnil
    · cases hhead
  | cons block blocks =>
    obtain rfl := Option.some.inj hhead
    exact (hplain block List.mem_cons_self).2

theorem plain_whenText (x : Option String) {block : String → Block} (h : ∀ s, Plain (block s)) :
    ∀ b ∈ whenText x block, Plain b := by
  intro b hb
  unfold whenText at hb
  split at hb
  · split_ifs at hb
    · cases hb
    · rw [List.mem_singleton.mp hb]
      exact h _
  · cases hb

theorem plain_whenItems (title : String) (texts : List String) :
    ∀ b ∈ whenItems title texts, Plain b := by
  intro b hb
  unfold whenItems at hb
  split_ifs at hb
  · cases hb
  · rw [List.mem_singleton.mp hb]
    exact ⟨trivial, id⟩

theorem plain_paragraph (text : String) : Plain (.paragraph text) := ⟨trivial, id⟩

theorem plain_brandingHeader (branding : Branding) : ∀ b ∈ brandingHeader branding, Plain b := by
  intro b hb
  unfold brandingHeader at hb
  rcases List.mem_append.mp hb with hb | hb
  · rcases List.mem_append.mp hb with hb | hb
    · rw [List.mem_singleton.mp hb]
      exact ⟨.inl rfl, id⟩
    · exact plain_whenText _ plain_paragraph b hb
  · exact plain_whenText _ plain_paragraph b hb

theorem plain_phaseBlocks (index : ℕ) (phase : Phase) : ∀ b ∈ phaseBlocks index phase, Plain b := by
  have htext : ∀ label s : String, Plain (.paragraph (label ++ s)) := fun _ _ => plain_paragraph _
  have hsafety := plain_whenText phase.safetyNotes (htext "Safety / code: ")
  have hdependencies := plain_whenItems "Dependencies" phase.dependencies
  have hduration := plain_whenText phase.estimatedDuration (htext "Estimated duration: ")
  have hfirst : ∀ b ∈ [Block.heading ("Phase " ++ natText index ++ ": " ++ phase.name) 2,
      .paragraph ("Objective: " ++ phase.objective), .bullets "Steps" phase.steps], Plain b := by
    simp [Plain, Fits, Keyed]
  unfold phaseBlocks
  simp only [List.forall_mem_append]
  exact ⟨⟨⟨hfirst, hsafety⟩, hdependencies⟩, hduration⟩

theorem plain_phasesBlocks (index : ℕ) (phases : List Phase) :
    ∀ b ∈ phasesBlocks index phases, Plain b := by
  induction phases generalizing index with
  | nil => exact fun b hb => by cases hb
  | cons phase phases ih =>
    rw [phasesBlocks, List.forall_mem_append]
    exact ⟨plain_phaseBlocks index phase, ih (index + 1)⟩

theorem laid_planBlocks (content : ExecutionPlanContent) (branding : Branding) :
    Laid (planBlocks content branding) := by
  have htext : ∀ label s : String, Plain (.paragraph (label ++ s)) := fun _ _ => plain_paragraph _
  refine laid_plain ?_
  unfold planBlocks
  simp only [List.forall_mem_append]
  refine ⟨⟨⟨⟨⟨⟨plain_brandingHeader branding, ?_⟩, plain_whenItems _ _⟩,
    plain_phasesBlocks 1 content.phases⟩, plain_whenItems _ _⟩, plain_whenText _ (htext _)⟩,
    plain_whenText _ (htext _)⟩
  simp [Plain, Fits, Keyed]

/-- The blocks after the totals of a quote. -/
def quoteEnd (content : QuoteContent) (branding : Branding) : List Block :=
  whenItems "Assumptions" content.assumptions ++ whenItems "Exclusions" content.exclusions ++
    whenText content.validity (fun s => .paragraph ("Validity: " ++ s)) ++
    whenText content.notes (fun s => .paragraph ("Notes: " ++ s)) ++
    whenText branding.quoteTerms .paragraph

theorem plain_quoteEnd (content : QuoteContent) (branding : Branding) :
    ∀ b ∈ quoteEnd content branding, Plain b := by
  have htext : ∀ label s : String, Plain (.paragraph (label ++ s)) := fun _ _ => plain_paragraph _
  unfold quoteEnd
  simp only [List.forall_mem_append]
  exact ⟨⟨⟨⟨plain_whenItems _ _, plain_whenItems _ _⟩, plain_whenText _ (htext _)⟩,
    plain_whenText _ (htext _)⟩, plain_whenText _ plain_paragraph⟩

/-- The scope of a quote and its items. -/
def quoteScope (content : QuoteContent) : List Block :=
  [.heading "Scope" 2, .paragraph content.scopeSummary,
    .table ["Description", "Qty", "Unit", "Unit price", "Total"] (content.lineItems.map itemRow)]

theorem plain_quoteScope (content : QuoteContent) : ∀ b ∈ quoteScope content, Plain b := by
  have hrows : ∀ row ∈ content.lineItems.map itemRow, row.length = 5 := by
    intro row hrow
    obtain ⟨item, -, rfl⟩ := List.mem_map.mp hrow
    rfl
  unfold quoteScope
  simp only [List.forall_mem_cons]
  exact ⟨⟨.inr rfl, id⟩, plain_paragraph _, ⟨hrows, id⟩, fun b hb => by cases hb⟩

/-- The blocks of a quote from its totals on. -/
def quoteTotals (content : QuoteContent) (branding : Branding) : List Block :=
  .keyValues [("Subtotal", money content.subtotal), ("Tax", taxText content.tax),
    ("Total", money content.total)] :: (quoteEnd content branding ++ [])

theorem quoteBlocks_eq (content : QuoteContent) (branding : Branding) :
    quoteBlocks content branding = brandingHeader branding ++ ([.heading content.title 2] ++
      .keyValues [("Prepared for", content.preparedFor)] ::
        (quoteScope content ++ quoteTotals content branding)) := by
  simp [quoteBlocks, quoteScope, quoteTotals, quoteEnd]

theorem laid_quoteBlocks (content : QuoteContent) (branding : Branding) :
    Laid (quoteBlocks content branding) := by
  have htitle : ∀ b ∈ [Block.heading content.title 2], Plain b := by
    simp [Plain, Fits, Keyed]
  have htotals : Laid (quoteTotals content branding) :=
    laid_keyValues (List.cons_ne_nil _ _) (plain_quoteEnd content branding) trivial (.inr rfl)
  have hscope : Laid (.keyValues [("Prepared for", content.preparedFor)] ::
      (quoteScope content ++ quoteTotals content branding)) :=
    laid_keyValues (List.cons_ne_nil _ _) (plain_quoteScope content) htotals
      (.inl (List.cons_ne_nil _ _))
  rw [quoteBlocks_eq]
  exact laid_append (plain_brandingHeader branding) (laid_append htitle hscope)

theorem laid_buildBlocks (content : DocumentContent) (branding : Branding) :
    Laid (buildBlocks content branding) := by
  cases content with
  | quote content => exact laid_quoteBlocks content branding
  | plan content => exact laid_planBlocks content branding

/-! ### Both documents -/

/-- **Both documents say what the blocks say.** Whatever the content and the branding, the body of the
Word document is built, a cell for every text, and what is handed to either library reads back as the
blocks of the layout: no text of the content is taken for a tag or for another block. So rendering
fails only where one of the libraries does. -/
theorem rendered_faithfully (content : DocumentContent) (branding : Branding) :
    readPdf (story (buildBlocks content branding)) [] = buildBlocks content branding ∧
      ∃ body, docxBody (buildBlocks content branding) = .ok body ∧
        readDocx body = buildBlocks content branding ∧
        ∀ build save basename, renderDocument (renderers build save) content branding basename = do
          let pdf ← (build (story (buildBlocks content branding))).lift
          let docx ← (save body).lift
          return [⟨basename ++ ".pdf", pdf, pdfMime⟩, ⟨basename ++ ".docx", docx, docxMime⟩] := by
  have hlaid := laid_buildBlocks content branding
  obtain ⟨body, hbody, hread⟩ := docxBody_laid hlaid
  refine ⟨readPdf_story hlaid, body, hbody, ?_, fun build save basename => ?_⟩
  · rw [readDocx, hread]
  · have hdocx : (renderers build save).renderDocx (buildBlocks content branding) = save body := by
      simp only [renderers, hbody]
    unfold renderDocument
    dsimp only
    rw [hdocx]
    rfl

end WappPlanner.Documents.Renderer
