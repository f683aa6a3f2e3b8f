import WappPlanner.Documents.Generation
import WappPlanner.Lib.Span

/-! # JSON in the text of a model

`extract_json_object` finds the widest part of a text that begins with an opening brace and ends with
a closing one (`extract_of_widest`), and raises where no opening brace stands before a closing one
(`extract_of_apart`). Both parsers read that part alone, so what a model writes around its JSON, the
two braces aside, changes nothing. -/

namespace WappPlanner.Documents.Extraction

open WappPlanner.Documents.Generation WappPlanner.Errors WappPlanner.Lib.Span
open WappPlanner.Nlp.Classification WappPlanner.Workflow.Enums

/-- The text begins with an opening brace and ends with a closing one. -/
def Braced (text : String) : Prop := Enclosed '\x7b' '\x7d' text.toList

/-- **The widest braced part of a text**: it stands at one place, all that is braced lies within it
and is a part of it, and nothing else that is braced is as long. -/
structure WidestPart (text json : String) : Prop where
  braced : Braced json
  place : ∃ pre post, text = pre ++ json ++ post ∧
    ∀ other pre' post', Braced other → text = pre' ++ other ++ post' →
      pre.length ≤ pre'.length ∧ post.length ≤ post'.length
  part : ∀ other, Braced other → other.toList <:+: text.toList → other.toList <:+: json.toList
  longest : ∀ other, Braced other → other.toList <:+: text.toList → other ≠ json →
    other.length < json.length

/-- The one exception of the extraction. -/
def noObject : Exn := .valueError "no JSON object found in text"

variable {text json : String} {pre m post : List Char}

theorem rfind_eq {c : Char} (hlast : c ∉ post) (before : List Char) :
    rfind c (before ++ c :: post) = some before.length := by
  have hfind : (before ++ c :: post).reverse.findIdx? (· = c) = some post.length := by
    have hnone : post.reverse.findIdx? (· = c) = none := by
      rw [List.findIdx?_eq_none_iff]
      intro x hx
      have hmem : x ∈ post := List.mem_reverse.mp hx
      simpa using fun h : x = c => hlast (h ▸ hmem)
    rw [List.reverse_append, List.reverse_cons, List.append_assoc, List.findIdx?_append, hnone]
    simp [List.findIdx?_cons]
  have hlen : (before ++ c :: post).length - 1 - post.length = before.length := by
    rw [List.length_append, List.length_cons]
    omega
  rw [rfind, hfind, Option.map_some, hlen]

theorem findIdx?_eq {c : Char} (hfirst : c ∉ pre) (after : List Char) :
    (pre ++ c :: after).findIdx? (· = c) = some pre.length := by
  have hnone : pre.findIdx? (· = c) = none := by
    rw [List.findIdx?_eq_none_iff]
    intro x hx
    simpa using fun h : x = c => hfirst (h ▸ hx)
  rw [List.findIdx?_append, hnone]
  simp [List.findIdx?_cons]

/-- **The extraction finds the widest braced part.** -/
theorem extract_of_widest (htext : text.toList = pre ++ m ++ post)
    (h : Widest '\x7b' '\x7d' pre m post) : extractJsonObject text = .ok (String.ofList m) := by
  obtain ⟨inner, hm⟩ := h.enclosed
  have hstart : text.toList.findIdx? (· = '\x7b') = some pre.length := by
    rw [htext, hm, List.append_assoc]
    exact findIdx?_eq h.first _
  have hstop : rfind '\x7d' text.toList = some (pre.length + inner.length + 1) := by
    have hsplit : text.toList = (pre ++ '\x7b' :: inner) ++ '\x7d' :: post := by
      rw [htext, hm]
      simp
    rw [hsplit, rfind_eq h.last, List.length_append, List.length_cons, Nat.add_assoc]
  have hlt : ¬ pre.length + inner.length + 1 < pre.length := by omega
  have hlen : pre.length + inner.length + 1 + 1 - pre.length = m.length := by
    rw [hm]
    simp
    omega
  unfold extractJsonObject
  simp only [hstart, hstop]
  rw [if_neg hlt, hlen, htext, List.append_assoc, List.drop_left, List.take_left]

theorem extract_of_apart (h : Apart '\x7b' '\x7d' text.toList) :
    extractJsonObject text = .error noObject := by
  unfold extractJsonObject noObject
  dsimp only
  cases hstart : text.toList.findIdx? (· = '\x7b') with
  | none => rfl
  | some start =>
    cases hstop : rfind '\x7d' text.toList with
    | none => rfl
    | some stop =>
      have hopen : text.toList[start]? = some '\x7b' := by
        obtain ⟨hlt, hfound, -⟩ := List.findIdx?_eq_some_iff_getElem.mp hstart
        rw [List.getElem?_eq_getElem hlt, of_decide_eq_true hfound]
      have hclose : text.toList[stop]? = some '\x7d' := by
        obtain ⟨j, hj, rfl⟩ := Option.map_eq_some_iff.mp hstop
        obtain ⟨hlt, hfound, -⟩ := List.findIdx?_eq_some_iff_getElem.mp hj
        rw [List.length_reverse] at hlt
        have hget := of_decide_eq_true hfound
        rw [List.getElem_reverse] at hget
        rw [List.getElem?_eq_getElem (by omega), hget]
      have hle := h.le hopen hclose
      have hne : start ≠ stop := by
        rintro rfl
        rw [hopen] at hclose
        exact absurd hclose (by decide)
      have hlt : stop < start := by omega
      dsimp only
      rw [if_pos hlt]

theorem extract_cases (text : String) :
    (∃ pre m post, text.toList = pre ++ m ++ post ∧ Widest '\x7b' '\x7d' pre m post ∧
      extractJsonObject text = .ok (String.ofList m)) ∨
    (Apart '\x7b' '\x7d' text.toList ∧ extractJsonObject text = .error noObject) := by
  rcases widest_or_apart (a := '\x7b') (b := '\x7d') text.toList with
    ⟨pre, m, post, htext, hwidest⟩ | hapart
  · exact .inl ⟨pre, m, post, htext, hwidest, extract_of_widest htext hwidest⟩
  · exact .inr ⟨hapart, extract_of_apart hapart⟩

theorem widestPart_of_widest (htext : text.toList = pre ++ m ++ post)
    (h : Widest '\x7b' '\x7d' pre m post) : WidestPart text (String.ofList m) := by
  have hpart : ∀ other, Braced other → other.toList <:+: text.toList →
      other.toList <:+: (String.ofList m).toList := by
    intro other hother hocc
    rw [htext] at hocc
    rw [String.toList_ofList]
    exact h.infix hother hocc
  refine ⟨?_, ⟨String.ofList pre, String.ofList post, ?_, ?_⟩, hpart, ?_⟩
  · rw [Braced, String.toList_ofList]
    exact h.enclosed
  · rw [← String.toList_inj, htext]
    simp
  · intro other pre' post' hother heq
    have hsame : pre ++ m ++ post = pre'.toList ++ other.toList ++ post'.toList := by
      rw [← htext, heq]
      simp
    have hwithin := h.within hother hsame
    simpa [String.length_toList] using hwithin
  · intro other hother hocc hne
    have hwithin := hpart other hother hocc
    have hle := hwithin.length_le
    have hlen : other.toList.length ≠ (String.ofList m).toList.length := by
      intro hlen
      exact hne (String.toList_inj.mp (hwithin.eq_of_length hlen))
    rw [← String.length_toList, ← String.length_toList]
    omega

theorem WidestPart.unique {json' : String} (h : WidestPart text json) (h' : WidestPart text json') :
    json = json' := by
  have hocc : ∀ {json}, WidestPart text json → json.toList <:+: text.toList := by
    intro json h
    obtain ⟨pre, post, rfl, -⟩ := h.place
    exact ⟨pre.toList, post.toList, by simp⟩
  by_contra hne
  have hlt := h.longest json' h'.braced (hocc h') (Ne.symm hne)
  have hlt' := h'.longest json h.braced (hocc h) hne
  omega

theorem extract_ok_iff : extractJsonObject text = .ok json ↔ WidestPart text json := by
  rcases extract_cases text with ⟨pre, m, post, htext, hwidest, hok⟩ | ⟨hapart, herror⟩
  · have hpart := widestPart_of_widest htext hwidest
    rw [hok]
    constructor
    · intro h
      exact Except.ok.inj h ▸ hpart
    · intro h
      rw [hpart.unique h]
  · rw [herror]
    constructor
    · intro h
      cases h
    · intro h
      obtain ⟨pre, post, rfl, -⟩ := h.place
      exact absurd ⟨pre.toList, post.toList, by simp⟩ (hapart.not_infix h.braced)

theorem extract_error_iff : extractJsonObject text = .error noObject ↔
    ∀ before between after, text ≠ before ++ "\x7b" ++ between ++ "\x7d" ++ after := by
  rcases extract_cases text with ⟨pre, m, post, htext, hwidest, hok⟩ | ⟨hapart, herror⟩
  · rw [hok]
    obtain ⟨inner, rfl⟩ := hwidest.enclosed
    constructor
    · intro h
      cases h
    intro h
    refine absurd ?_ (h (String.ofList pre) (String.ofList inner) (String.ofList post))
    rw [← String.toList_inj, htext]
    simp
  · refine ⟨fun _ before between after h => ?_, fun _ => herror⟩
    refine hapart before.toList between.toList after.toList ?_
    rw [h]
    simp

/-- What stands around a braced text, without the two braces, is left out. -/
theorem extract_around {pre suf : String} (h : Braced json) (hpre : '\x7b' ∉ pre.toList)
    (hsuf : '\x7d' ∉ suf.toList) : extractJsonObject (pre ++ json ++ suf) = .ok json := by
  have htext : (pre ++ json ++ suf).toList = pre.toList ++ json.toList ++ suf.toList := by simp
  have hok := extract_of_widest htext ⟨h, hpre, hsuf⟩
  rwa [String.ofList_toList] at hok

theorem extract_braced (h : Braced json) : extractJsonObject json = .ok json := by
  have htext : json.toList = [] ++ json.toList ++ [] := by simp
  have hok := extract_of_widest htext (Widest.self h)
  rwa [String.ofList_toList] at hok

/-- **The extraction is exact**: it returns the widest braced part of every text that has one, raises
`ValueError` on the others, and returns its own result again; and both parsers read a braced text the
same whatever stands around it, as long as no opening brace comes before it and no closing one
after it. -/
theorem extraction_exact :
    (∀ text, (∀ json, extractJsonObject text = .ok json ↔ WidestPart text json) ∧
      (∀ exc, extractJsonObject text = .error exc ↔ exc = noObject ∧
        ∀ before between after, text ≠ before ++ "\x7b" ++ between ++ "\x7d" ++ after) ∧
      ∀ json, extractJsonObject text = .ok json → extractJsonObject json = .ok json) ∧
    ∀ (classifier : Classifier) (generator : Generator) (intent : Intent) (pre json suf : String),
      Braced json → '\x7b' ∉ pre.toList → '\x7d' ∉ suf.toList →
        classifier.parse (pre ++ json ++ suf) = classifier.parse json ∧
          generator.parse (pre ++ json ++ suf) intent = generator.parse json intent := by
  constructor
  · refine fun text => ⟨fun json => extract_ok_iff, fun exc => ?_, fun json hok => ?_⟩
    · constructor
      · intro h
        have hexc : exc = noObject := by
          rcases extract_cases text with ⟨-, m, -, -, -, hok⟩ | ⟨-, herror⟩
          · rw [hok] at h
            cases h
          · rw [herror] at h
            exact (Except.error.inj h).symm
        exact ⟨hexc, extract_error_iff.mp (hexc ▸ h)⟩
      · rintro ⟨rfl, h⟩
        exact extract_error_iff.mpr h
    · exact extract_braced (extract_ok_iff.mp hok).braced
  · intro classifier generator intent pre json suf hjson hpre hsuf
    have hsame : extractJsonObject (pre ++ json ++ suf) = extractJsonObject json := by
      rw [extract_around hjson hpre hsuf, extract_braced hjson]
    unfold Classifier.parse Generator.parse
    rw [hsame]
    exact ⟨rfl, rfl⟩

end WappPlanner.Documents.Extraction
