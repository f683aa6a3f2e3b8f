import WappPlanner.Documents.Layout
import WappPlanner.Lib.Sections

/-! # The layout of an execution plan

The blocks of a plan are sections: what is optional is a section of its own, of at most one block, and
the mark of a block, its kind with its title or the first letter of its text, tells which section it
stands in. Phases follow one another without an end marker, but each begins with a heading, and no
optional block does. So the blocks determine the plan, absent texts and empty ones aside
(`plan_layout_lossless`). -/

namespace WappPlanner.Documents.PlanLayout

open WappPlanner.Documents.Content WappPlanner.Documents.Layout WappPlanner.Lib.Sections
open WappPlanner.Py.Text

/-- An optional text, absent and empty being the same. -/
def explicit (x : Option String) : Option String := some (x.getD "")

/-- A phase with its absent texts as empty ones. -/
def explicitPhase (phase : Phase) : Phase :=
  { phase with
    safetyNotes := explicit phase.safetyNotes
    estimatedDuration := explicit phase.estimatedDuration }

/-- A plan with its absent texts as empty ones. -/
def explicitPlan (content : ExecutionPlanContent) : ExecutionPlanContent :=
  { content with
    phases := content.phases.map explicitPhase
    cleanup := explicit content.cleanup
    notes := explicit content.notes }

/-- What tells the section of a block. -/
inductive Mark
  | heading
  | text (initial : Option Char)
  | items (title : String)
  | other
  deriving DecidableEq

def markOf : Block → Mark
  | .heading _ _ => .heading
  | .paragraph text => .text text.toList.head?
  | .bullets title _ => .items title
  | _ => .other

/-- The marks of what may follow the phases. -/
def closing : List Mark := [.items "Quality checkpoints", .text (some 'C'), .text (some 'N')]

/-- The marks of what may follow a phase. -/
def following : List Mark := .heading :: closing

variable {rest rest' : List Block}

/-! ### Optional sections -/

/-- A labelled text, as a section. -/
def texts (label : String) (x : Option String) : List Block :=
  whenText x fun s => .paragraph (label ++ s)

section optional

variable {label title : String} {c : Char}

theorem marked_texts (hlabel : label.toList.head? = some c) (x : Option String) :
    Marked markOf (.text (some c)) (texts label x) := by
  have hmark : ∀ s, markOf (.paragraph (label ++ s)) = .text (some c) := by
    intro s
    rw [markOf, String.toList_append, List.head?_append, hlabel]
    rfl
  intro b hb
  unfold texts whenText at hb
  split at hb
  · split_ifs at hb
    · cases hb
    · rw [List.mem_singleton.mp hb]
      exact hmark _
  · cases hb

theorem texts_inj {x x' : Option String} (h : texts label x = texts label x') :
    explicit x = explicit x' := by
  have hread : ∀ x : Option String, texts label x =
      if x.getD "" = "" then [] else [.paragraph (label ++ x.getD "")] := by
    intro x
    cases x with
    | none => rfl
    | some s => rfl
  rw [hread, hread] at h
  have hsame : x.getD "" = x'.getD "" := by
    by_cases hx : x.getD "" = ""
    · by_cases hx' : x'.getD "" = ""
      · rw [hx, hx']
      · rw [if_pos hx, if_neg hx'] at h
        cases h
    · by_cases hx' : x'.getD "" = ""
      · rw [if_neg hx, if_pos hx'] at h
        cases h
      · rw [if_neg hx, if_neg hx'] at h
        have htext := Block.paragraph.inj (List.cons.inj h).1
        exact (String.append_right_inj label).mp htext
  rw [explicit, explicit, hsame]

theorem marked_whenItems (title : String) (items : List String) :
    Marked markOf (.items title) (whenItems title items) := by
  intro b hb
  unfold whenItems at hb
  split_ifs at hb
  · cases hb
  · rw [List.mem_singleton.mp hb]
    rfl

theorem whenItems_inj {items items' : List String}
    (h : whenItems title items = whenItems title items') : items = items' := by
  unfold whenItems at h
  cases items with
  | nil =>
    cases items' with
    | nil => rfl
    | cons _ _ => cases h
  | cons _ _ =>
    cases items' with
    | nil => cases h
    | cons _ _ => exact (Block.bullets.inj (List.cons.inj h).1).2

end optional

/-! ### Phases -/

/-- What a phase has besides its heading, its objective and its steps. -/
def phaseOptions (phase : Phase) : List Block :=
  texts "Safety / code: " phase.safetyNotes ++ (whenItems "Dependencies" phase.dependencies ++
    texts "Estimated duration: " phase.estimatedDuration)

theorem phaseBlocks_eq (index : ℕ) (phase : Phase) : phaseBlocks index phase =
    .heading ("Phase " ++ natText index ++ ": " ++ phase.name) 2 ::
      .paragraph ("Objective: " ++ phase.objective) :: .bullets "Steps" phase.steps ::
        phaseOptions phase := by
  unfold phaseBlocks phaseOptions texts
  simp only [List.append_assoc]
  rfl

/-- The options of a phase are read back, whatever may follow a phase follows. -/
theorem phaseOptions_inj {phase phase' : Phase} (hrest : Starts markOf following rest)
    (hrest' : Starts markOf following rest')
    (h : phaseOptions phase ++ rest = phaseOptions phase' ++ rest') :
    explicit phase.safetyNotes = explicit phase'.safetyNotes ∧
      phase.dependencies = phase'.dependencies ∧
      explicit phase.estimatedDuration = explicit phase'.estimatedDuration ∧ rest = rest' := by
  have hduration : ∀ x, Marked markOf (.text (some 'E')) (texts "Estimated duration: " x) :=
    marked_texts (by decide)
  have hdependencies := marked_whenItems "Dependencies"
  have hsafety : ∀ x, Marked markOf (.text (some 'S')) (texts "Safety / code: " x) :=
    marked_texts (by decide)
  unfold phaseOptions at h
  simp only [List.append_assoc] at h
  obtain ⟨hnotes, h⟩ := section_inj (by decide) (hsafety _) (hsafety _)
    ((hrest.append (hduration _)).append (hdependencies _))
    ((hrest'.append (hduration _)).append (hdependencies _)) h
  obtain ⟨hitems, h⟩ := section_inj (by decide) (hdependencies _) (hdependencies _)
    (hrest.append (hduration _)) (hrest'.append (hduration _)) h
  obtain ⟨htime, h⟩ := section_inj (by decide) (hduration _) (hduration _) hrest hrest' h
  exact ⟨texts_inj hnotes, whenItems_inj hitems, texts_inj htime, h⟩

/-- What may follow a phase follows the phases before it. -/
theorem starts_phases (index : ℕ) (phases : List Phase) (hrest : Starts markOf closing rest) :
    Starts markOf following (phasesBlocks index phases ++ rest) := by
  cases phases with
  | nil => exact hrest.mono (List.subset_cons_self _ _)
  | cons phase phases =>
    rw [phasesBlocks, phaseBlocks_eq, List.cons_append, List.cons_append, starts_cons]
    exact List.mem_cons_self

/-- **The phases are read back**, in order and each with its own items. -/
theorem phases_inj {phases phases' : List Phase} {index : ℕ} (hrest : Starts markOf closing rest)
    (hrest' : Starts markOf closing rest')
    (h : phasesBlocks index phases ++ rest = phasesBlocks index phases' ++ rest') :
    phases.map explicitPhase = phases'.map explicitPhase ∧ rest = rest' := by
  have hnone : ∀ {index phase phases} {rest rest' : List Block}, Starts markOf closing rest →
      rest ≠ phasesBlocks index (phase :: phases) ++ rest' := by
    intro index phase phases rest rest' hrest
    have hheading : Mark.heading ∉ closing := by decide
    rw [phasesBlocks, phaseBlocks_eq]
    exact hrest.ne_cons hheading rfl
  induction phases generalizing phases' index with
  | nil =>
    cases phases' with
    | nil => exact ⟨rfl, h⟩
    | cons phase' phases' => exact absurd h (hnone hrest)
  | cons phase phases ih =>
    cases phases' with
    | nil => exact absurd h.symm (hnone hrest')
    | cons phase' phases' =>
      rw [phasesBlocks, phasesBlocks, phaseBlocks_eq, phaseBlocks_eq, List.append_assoc,
        List.append_assoc] at h
      simp only [List.cons_append, List.cons.injEq, Block.heading.injEq, Block.paragraph.injEq,
        Block.bullets.injEq, String.append_right_inj, and_true, true_and] at h
      obtain ⟨hname, hobjective, hsteps, h⟩ := h
      obtain ⟨hsafety, hdependencies, hduration, h⟩ :=
        phaseOptions_inj (starts_phases _ _ hrest) (starts_phases _ _ hrest') h
      obtain ⟨hphases, hrests⟩ := ih h
      refine ⟨?_, hrests⟩
      rw [List.map_cons, List.map_cons, hphases]
      simp only [explicitPhase, hname, hobjective, hsteps, hsafety, hdependencies, hduration]

/-! ### Plans -/

/-- What follows the phases. -/
def closingBlocks (content : ExecutionPlanContent) : List Block :=
  whenItems "Quality checkpoints" content.qualityCheckpoints ++
    (texts "Cleanup & handover: " content.cleanup ++ (texts "Notes: " content.notes ++ []))

theorem buildBlocks_explicit (branding : Branding) (content : ExecutionPlanContent) :
    buildBlocks (.plan (explicitPlan content)) branding = buildBlocks (.plan content) branding := by
  have htexts : ∀ x f, whenText (explicit x) f = whenText x f := by
    intro x f
    cases x <;> rfl
  have hphase : ∀ index phase, phaseBlocks index (explicitPhase phase) = phaseBlocks index phase := by
    intro index phase
    simp only [phaseBlocks, explicitPhase, htexts]
  have hphases : ∀ phases index,
      phasesBlocks index (phases.map explicitPhase) = phasesBlocks index phases := by
    intro phases
    induction phases with
    | nil => exact fun _ => rfl
    | cons phase phases ih =>
      intro index
      rw [List.map_cons, phasesBlocks, phasesBlocks, hphase, ih]
  simp only [buildBlocks, planBlocks, explicitPlan, htexts, hphases]

/-- Two plans with the same blocks are the same, absent texts and empty ones aside. -/
theorem plan_of_blocks (branding : Branding) (content content' : ExecutionPlanContent)
    (h : buildBlocks (.plan content) branding = buildBlocks (.plan content') branding) :
    explicitPlan content = explicitPlan content' := by
  have hnotes : ∀ x, Marked markOf (.text (some 'N')) (texts "Notes: " x) :=
    marked_texts (by decide)
  have hcleanup : ∀ x, Marked markOf (.text (some 'C')) (texts "Cleanup & handover: " x) :=
    marked_texts (by decide)
  have hcheckpoints := marked_whenItems "Quality checkpoints"
  have hmaterials := marked_whenItems "Materials & tools"
  have hend : Starts markOf [] ([] : List Block) := starts_nil
  have hclosing : ∀ content, Starts markOf closing (closingBlocks content) := fun content =>
    ((hend.append (hnotes _)).append (hcleanup _)).append (hcheckpoints _)
  have hplan : ∀ content : ExecutionPlanContent, buildBlocks (.plan content) branding =
      brandingHeader branding ++ (.heading content.title 2 :: .heading "Overview" 2 ::
        .paragraph content.overview :: (whenItems "Materials & tools" content.materials ++
          (phasesBlocks 1 content.phases ++ closingBlocks content))) := by
    intro content
    simp only [buildBlocks, planBlocks, closingBlocks, texts, List.append_assoc, List.append_nil]
    rfl
  rw [hplan, hplan, List.append_cancel_left_eq] at h
  simp only [List.cons.injEq, Block.heading.injEq, Block.paragraph.injEq, and_true,
    true_and] at h
  obtain ⟨htitle, hoverview, h⟩ := h
  obtain ⟨hitems, h⟩ := section_inj (by decide) (hmaterials _) (hmaterials _)
    (starts_phases _ _ (hclosing content)) (starts_phases _ _ (hclosing content')) h
  obtain ⟨hphases, h⟩ := phases_inj (hclosing content) (hclosing content') h
  unfold closingBlocks at h
  obtain ⟨hchecks, h⟩ := section_inj (by decide) (hcheckpoints _) (hcheckpoints _)
    ((hend.append (hnotes _)).append (hcleanup _))
    ((hend.append (hnotes _)).append (hcleanup _)) h
  obtain ⟨hclean, h⟩ := section_inj (by decide) (hcleanup _) (hcleanup _)
    (hend.append (hnotes _)) (hend.append (hnotes _)) h
  obtain ⟨hlast, -⟩ := section_inj (by decide) (hnotes _) (hnotes _) hend hend h
  simp only [explicitPlan, ExecutionPlanContent.mk.injEq]
  exact ⟨htitle, hoverview, whenItems_inj hitems, hphases, whenItems_inj hchecks,
    texts_inj hclean, texts_inj hlast⟩

/-- **The layout of a plan loses nothing**: the blocks of two plans are the same exactly if the plans
are the same in every item and its place, absent texts and empty ones aside; so the plan can be read
back from its blocks. -/
theorem plan_layout_lossless (branding : Branding) :
    (∀ content content', buildBlocks (.plan content) branding =
      buildBlocks (.plan content') branding ↔ explicitPlan content = explicitPlan content') ∧
    ∃ read : List Block → ExecutionPlanContent,
      ∀ content, read (buildBlocks (.plan content) branding) = explicitPlan content := by
  constructor
  · intro content content'
    refine ⟨plan_of_blocks branding content content', fun h => ?_⟩
    rw [← buildBlocks_explicit branding content, h, buildBlocks_explicit]
  · have hfactors : Function.FactorsThrough explicitPlan fun content =>
        buildBlocks (.plan content) branding :=
      fun content content' h => plan_of_blocks branding content content' h
    have hsome : Nonempty ExecutionPlanContent := ⟨⟨"", "", [], [], [], none, none⟩⟩
    obtain ⟨read, hread⟩ := (Function.factorsThrough_iff _).mp hfactors
    exact ⟨read, fun content => (congrFun hread content).symm⟩

end WappPlanner.Documents.PlanLayout
