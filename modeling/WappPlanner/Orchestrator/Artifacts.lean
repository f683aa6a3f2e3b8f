import WappPlanner.Orchestrator.Runs

/-! # Stored artifacts

The key of a stored file holds the id of its request twice, around its revision number and its
intent. No two files share a key, whatever the ids are: the names of the two intents differ in
length by an odd number, so what surrounds them determines them (`artifact_inj`). Hence what an
invocation stores for its request leaves the files of the other requests alone. -/

namespace WappPlanner.Orchestrator

open WappPlanner.Documents.Generation WappPlanner.Documents.Layout WappPlanner.Domain.Models
open WappPlanner.Errors WappPlanner.Hitl.Service WappPlanner.Lib WappPlanner.Lib.Programs
open WappPlanner.Py.Text WappPlanner.Py.Values WappPlanner.Workflow.Enums WappPlanner.Workflow.StateMachine

/-- What comes before the revision number in the name of a file. -/
def stem (rid : String) (n : ℕ) (intent : Intent) : String :=
  rid ++ "/r" ++ natText n ++ "/" ++ intent.value ++ "-" ++ rid ++ "-"

theorem artifactKey_eq (rid : String) (n : ℕ) (intent : Intent) (extension : String) :
    artifactKey rid n (basename intent rid n ++ extension) =
      stem rid n intent ++ String.singleton 'r' ++ natText n ++ extension := by
  have hr : ∀ s : String, "-r" ++ s = "-" ++ (String.singleton 'r' ++ s) := fun s => by
    rw [← String.append_assoc]
    rfl
  simp only [artifactKey, basename, stem, String.append_assoc, hr]

theorem length_stem (rid : String) (n : ℕ) (intent : Intent) :
    (stem rid n intent).length = 2 * rid.length + (natText n).length + intent.value.length + 5 := by
  have hr : "/r".length = 2 := by decide
  have hslash : "/".length = 1 := by decide
  have hdash : "-".length = 1 := by decide
  simp only [stem, String.length_append, hr, hslash, hdash]
  omega

/-- Stems of one revision number determine the request and the intent. -/
theorem stem_inj {rid rid' : String} {n : ℕ} {intent intent' : Intent} (hi : intent ≠ .none)
    (hi' : intent' ≠ .none) (h : stem rid n intent = stem rid' n intent') :
    rid = rid' ∧ intent = intent' := by
  have hlen := congrArg String.length h
  rw [length_stem, length_stem] at hlen
  have hparity : ∀ i i' : Intent, i ≠ .none → i' ≠ .none →
      i.value.length % 2 = i'.value.length % 2 → i = i' := by
    intro i i'
    cases i <;> cases i' <;> decide
  have hintent : intent = intent' := hparity intent intent' hi hi' (by omega)
  refine ⟨?_, hintent⟩
  rw [hintent] at hlen
  have hlists := congrArg String.toList h
  simp only [stem, String.append_assoc, String.toList_append (s := rid),
    String.toList_append (s := rid')] at hlists
  have hshort : rid.toList.length = rid'.toList.length := by
    rw [String.length_toList, String.length_toList]
    omega
  exact String.toList_inj.mp (List.append_inj hlists hshort).1

/-- **The key of a file determines it**: request, revision number, intent and extension. -/
theorem artifact_inj {rid rid' : String} {n n' : ℕ} {intent intent' : Intent}
    {extension extension' : String} (hi : intent ≠ .none) (hi' : intent' ≠ .none)
    (hext : extension ∈ [".pdf", ".docx"]) (hext' : extension' ∈ [".pdf", ".docx"])
    (h : artifactKey rid n (basename intent rid n ++ extension) =
      artifactKey rid' n' (basename intent' rid' n' ++ extension')) :
    rid = rid' ∧ n = n' ∧ intent = intent' ∧ extension = extension' := by
  rw [artifactKey_eq, artifactKey_eq] at h
  have hlast := congrArg (fun s : String => s.toList.getLast?) h
  rw [String.toList_append, String.toList_append (t := extension'), List.getLast?_append,
    List.getLast?_append] at hlast
  have hsame : extension = extension' := by
    simp only [List.mem_cons, List.not_mem_nil, or_false] at hext hext'
    rcases hext with rfl | rfl <;> rcases hext' with rfl | rfl <;>
      simp at hlast ⊢
  subst hsame
  rw [String.append_left_inj] at h
  obtain ⟨hstem, rfl⟩ := Text.append_repr_inj (by decide) h
  obtain ⟨rfl, rfl⟩ := stem_inj hi hi' hstem
  exact ⟨rfl, rfl, rfl, rfl⟩

/-- The keys of the files of a request. -/
def FileOf (rid key : String) : Prop :=
  ∃ n intent extension, intent ≠ .none ∧ extension ∈ [".pdf", ".docx"] ∧
    key = artifactKey rid n (basename intent rid n ++ extension)

theorem fileOf_pdfKey {rid : String} {n : ℕ} {intent : Intent} (hi : intent ≠ .none) :
    FileOf rid (pdfKey rid n intent) := ⟨n, intent, ".pdf", hi, by simp, rfl⟩

theorem fileOf_docxKey {rid : String} {n : ℕ} {intent : Intent} (hi : intent ≠ .none) :
    FileOf rid (docxKey rid n intent) := ⟨n, intent, ".docx", hi, by simp, rfl⟩

theorem fileOf_inj {rid rid' key : String} (h : FileOf rid key) (h' : FileOf rid' key) :
    rid = rid' := by
  obtain ⟨n, intent, extension, hi, hext, rfl⟩ := h
  obtain ⟨n', intent', extension', hi', hext', heq⟩ := h'
  exact (artifact_inj hi hi' hext hext' heq).1

theorem pdfKey_ne_docxKey {intent : Intent} (hi : intent ≠ .none) (rid : String) (n : ℕ) :
    pdfKey rid n intent ≠ docxKey rid n intent := by
  intro h
  have hext := (artifact_inj hi hi (by simp) (by simp) h).2.2.2
  exact absurd hext (by decide)

variable {cfg : Config} {env : External} {r : Request} {now : Instant} {feedback : Option String}
  {previous : Option Json} {w : World}

theorem rendered_of_produce {p : Product} (h : produce cfg env r feedback previous = .ok p) :
    Rendered cfg env r feedback previous p := by
  unfold produce at h
  cases hgen : (generated cfg env r feedback previous).result with
  | error exc =>
    rw [hgen] at h
    cases h
  | ok doc =>
    obtain ⟨intent, hi, -⟩ := Generator.generate_ok hgen
    have hintent : r.intent = some intent := hi
    rw [hgen, ok_bind, hintent] at h
    obtain ⟨pdf, hpdf, h⟩ := Answer.lift_bind_ok h
    obtain ⟨docx, hdocx, h⟩ := Answer.lift_bind_ok h
    obtain ⟨_, -, h⟩ := Answer.lift_bind_ok h
    obtain ⟨_, -, h⟩ := Answer.lift_bind_ok h
    obtain rfl := Except.ok.inj h
    exact ⟨hgen, hintent, hpdf, hdocx⟩

theorem produce_ok {p : Product} (h : produce cfg env r feedback previous = .ok p) :
    r.intent = some p.intent ∧ p.intent ≠ .none :=
  ⟨(rendered_of_produce h).2.1, (rendered_of_produce h).intent_ne⟩

variable (cfg) in
theorem refFor_refs (p : Product) (rid : String) (n : ℕ) :
    refFor pdfMime (p.refs cfg rid n) = some (cfg.storageRef (pdfKey rid n p.intent)) ∧
      refFor docxMime (p.refs cfg rid n) = some (cfg.storageRef (docxKey rid n p.intent)) := by
  have hne : (pdfMime == docxMime) = false := by decide
  simp [refFor, Product.refs, List.lookup_cons, hne]

theorem pipeline_storage {o : Outcome Op World Exn Request}
    (ho : PipelineOutcome cfg env r now feedback previous w o) {rid key : String}
    (hkey : FileOf rid key) (hne : rid ≠ r.id) : o.state.storage key = w.storage key := by
  have hother : ∀ {key'}, FileOf r.id key' → key ≠ key' := by
    rintro key' hkey' rfl
    exact hne (fileOf_inj hkey hkey')
  cases ho with
  | failed => rfl
  | stopped exc w' trace hgen hexc hrepo houtbox hstorage =>
    exact hstorage key fun intent _ hi => ⟨hother (fileOf_pdfKey hi), hother (fileOf_docxKey hi)⟩
  | made p hp =>
    obtain ⟨-, hi⟩ := produce_ok hp
    simp only [madeWorld, World.storage_posted, World.storage_saved, World.storage_withRepo,
      World.storage_stored, World.storage_asked]
    rw [Function.update_of_ne (hother (fileOf_docxKey hi)),
      Function.update_of_ne (hother (fileOf_pdfKey hi))]

/-- **An invocation leaves the files of other requests alone.** -/
theorem storage_step (hw : Wf w) {c : Call} {rid key : String} (hkey : FileOf rid key)
    (hne : rid ≠ c.requestId) : (step cfg w c).storage key = w.storage key := by
  unfold step
  cases c with
  | ingest b env =>
    have h := ingest_outcome cfg w b env
    generalize outcome cfg w (.ingest b env) = o at h ⊢
    cases h <;> rfl
  | action a now env =>
    have h := action_outcome cfg w a now env
    generalize outcome cfg w (.action a now env) = o at h ⊢
    cases h with
    | unknown | duplicate | refused => rfl
    | accepted r hr hfresh hgate o ho =>
      cases ho with
      | settled | unnamed | corrected => rfl
      | pipeline hd lookups hlookups o ho =>
        have hid : rid ≠ (r.moved (target a.decision) now).id := by
          rw [Request.id_moved, hw.id_eq hr]
          exact hne
        exact pipeline_storage ho hkey hid

end WappPlanner.Orchestrator
