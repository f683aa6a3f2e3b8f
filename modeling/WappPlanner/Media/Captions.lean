import WappPlanner.Lib.Text
import WappPlanner.Media.Transcript

/-! # The client's own words

A text message stands in the transcript as it is (`occurs_text`). A caption stands there only with a
photo that was described: the segments of a video and of a document do not name it, and the segment
of a failure replaces everything (`segmentsOrReason_recaptioned`). So whatever the captions say they
reach the transcript exactly if every captioned message is such a photo (`words_reach_iff`). -/

namespace WappPlanner.Media.Captions

open WappPlanner.Domain.Models WappPlanner.Errors WappPlanner.Lib.Text WappPlanner.Media.Processor
open WappPlanner.Media.Processor.MediaProcessor WappPlanner.Media.Transcript
open WappPlanner.Providers.Base WappPlanner.Py.Values WappPlanner.Workflow.Enums

/-- An image, a video or a document to which the client attached words. -/
def Captioned (msg : Message) : Prop :=
  (msg.type = .image ∨ msg.type = .video ∨ msg.type = .document) ∧ orEmpty msg.caption ≠ ""

/-- The texts and the captions of the messages occur in the rendered transcript. -/
def WordsReach (messages : List Message) (rendered : String) : Prop :=
  ∀ msg ∈ messages, (msg.type = .text → Occurs (orEmpty msg.text) rendered) ∧
    (Captioned msg → Occurs (orEmpty msg.caption) rendered)

/-- The message with another caption; without one, if it has none. -/
def Reworded (msg msg' : Message) : Prop :=
  ∃ caption, msg' = { msg with caption := caption } ∧
    (orEmpty caption = "" ↔ orEmpty msg.caption = "")

/-- Message number `n` is a photo whose bytes are there and which vision describes. -/
def Described (processor : MediaProcessor) (providers : MediaProviders)
    (media : String → Option DownloadedMedia) (n : ℕ) (msg : Message) : Prop :=
  msg.type = .image ∧ ∃ d description, media msg.id = some d ∧
    providers.describe n 0 d.content processor.visionModel d.mimeType processor.visionPrompt =
      .ok description

variable {processor : MediaProcessor} {providers : MediaProviders}
  {media : String → Option DownloadedMedia} {n : ℕ} {msg msg' : Message}
  {messages messages' sorted : List Message}

/-! ### Words that stay -/

theorem occurs_segment {seg : TranscriptSegment} (hmsg : (inOrder messages)[n]? = some msg)
    (hseg : seg ∈ processor.segmentsOrReason providers media n msg) :
    Occurs seg.content (processor.buildTranscript providers messages media).render := by
  have hgroup : processor.segmentsOrReason providers media n msg ∈
      groups processor providers media (inOrder messages) :=
    List.mem_of_getElem? (getElem?_groups hmsg)
  have hmem : seg ∈ (processor.buildTranscript providers messages media).segments := by
    rw [segments_buildTranscript]
    exact List.mem_flatten_of_mem hgroup hseg
  have hrender : Occurs seg.content seg.render := occurs_append_right _ _
  exact hrender.trans (occurs_intercalate (List.mem_map_of_mem hmem))

theorem occurs_text (hmsg : (inOrder messages)[n]? = some msg) (htype : msg.type = .text) :
    Occurs (orEmpty msg.text) (processor.buildTranscript providers messages media).render := by
  have hseg : segment msg "text" (orEmpty msg.text) ∈
      processor.segmentsOrReason providers media n msg := by
    rw [segmentsOrReason, segmentsFor, if_pos htype]
    exact List.mem_singleton_self _
  exact occurs_segment hmsg hseg

theorem occurs_labelled (label : Option String) (sep text : String) :
    Occurs (orEmpty label) (labelled label sep text) := by
  unfold labelled
  split_ifs with h
  · rw [h]
    exact List.nil_infix
  · exact (occurs_append_left _ _).append_left _

theorem occurs_caption (hmsg : (inOrder messages)[n]? = some msg)
    (hdescribed : Described processor providers media n msg) :
    Occurs (orEmpty msg.caption)
      (processor.buildTranscript providers messages media).render := by
  obtain ⟨htype, d, description, hmedia, hcall⟩ := hdescribed
  have hsegments : processor.segmentsFor providers media n msg =
      .ok [segment msg "image" (labelled msg.caption " — " description)] := by
    rw [segmentsFor_image htype hmedia, hcall]
    rfl
  have hseg : segment msg "image" (labelled msg.caption " — " description) ∈
      processor.segmentsOrReason providers media n msg := by
    rw [segmentsOrReason, hsegments]
    exact List.mem_singleton_self _
  have hbody : Occurs (segment msg "image" (labelled msg.caption " — " description)).content _ :=
    occurs_segment hmsg hseg
  exact (occurs_labelled msg.caption " — " description).trans hbody

/-! ### Words that are lost -/

theorem frameSegments_recaptioned (caption : Option String) (frames : List Bytes) (index : ℕ) :
    processor.frameSegments providers n { msg with caption := caption } index frames =
      processor.frameSegments providers n msg index frames := by
  induction frames generalizing index with
  | nil => rfl
  | cons frame frames ih =>
    rw [frameSegments, frameSegments, ih]
    rfl

theorem videoSegments_recaptioned (caption : Option String) (content : Bytes) :
    processor.videoSegments providers n { msg with caption := caption } content =
      processor.videoSegments providers n msg content := by
  unfold videoSegments
  simp only [frameSegments_recaptioned]
  rfl

/-- **A caption that is not a described photo's leaves no trace.** -/
theorem segmentsOrReason_recaptioned (caption : Option String)
    (htype : msg.type = .image ∨ msg.type = .video ∨ msg.type = .document)
    (hlost : ¬ Described processor providers media n msg) :
    processor.segmentsOrReason providers media n { msg with caption := caption } =
      processor.segmentsOrReason providers media n msg := by
  have hsame : processor.segmentsFor providers media n { msg with caption := caption } =
      processor.segmentsFor providers media n msg := by
    cases hmedia : media msg.id with
    | none =>
      have htext : msg.type ≠ .text := by
        rcases htype with h | h | h <;> simp [h]
      rw [segmentsFor_missing htext hmedia]
      exact segmentsFor_missing htext hmedia
    | some d =>
      rcases htype with htype | htype | htype
      · cases hcall : providers.describe n 0 d.content processor.visionModel d.mimeType
            processor.visionPrompt with
        | ok description => exact absurd ⟨htype, d, description, hmedia, hcall⟩ hlost
        | error e =>
          have himage : processor.segmentsFor providers media n { msg with caption := caption } =
              _ := segmentsFor_image htype hmedia
          rw [himage, segmentsFor_image htype hmedia, hcall]
          rfl
      · rw [segmentsFor_video htype hmedia, ← videoSegments_recaptioned caption]
        exact segmentsFor_video htype hmedia
      · rw [segmentsFor_document htype hmedia]
        exact segmentsFor_document htype hmedia
  unfold segmentsOrReason
  rw [hsame]
  rfl

/-- A message that gives the same segments can take the place of another. -/
theorem groups_set (hmsg : sorted[n]? = some msg)
    (hsame : processor.segmentsOrReason providers media n msg' =
      processor.segmentsOrReason providers media n msg) :
    groups processor providers media (sorted.set n msg') =
      groups processor providers media sorted := by
  refine List.ext_getElem? fun i => ?_
  by_cases hi : n = i
  · subst hi
    have hset : (sorted.set n msg')[n]? = some msg' := by
      rw [List.getElem?_set_self' , hmsg]
      rfl
    rw [getElem?_groups hset, getElem?_groups hmsg, hsame]
  · unfold groups
    rw [List.getElem?_map, List.getElem?_map, List.getElem?_zipIdx, List.getElem?_zipIdx,
      List.getElem?_set_ne hi]

theorem inOrder_of_pairwise (h : messages.Pairwise fun m m' => m.order ≤ m'.order) :
    inOrder messages = messages :=
  List.Pairwise.insertionSort_eq h

theorem Reworded.refl (msg : Message) : Reworded msg msg := ⟨msg.caption, rfl, Iff.rfl⟩

theorem Reworded.captioned (h : Reworded msg msg') (hcaptioned : Captioned msg') :
    Captioned msg := by
  obtain ⟨caption, rfl, hempty⟩ := h
  exact ⟨hcaptioned.1, fun hnone => hcaptioned.2 (hempty.mpr hnone)⟩

theorem reworded_set (hmsg : sorted[n]? = some msg) (hword : Reworded msg msg') :
    List.Forall₂ Reworded sorted (sorted.set n msg') := by
  induction sorted generalizing n with
  | nil => cases hmsg
  | cons first rest ih =>
    cases n with
    | zero =>
      obtain rfl : first = msg := Option.some.inj hmsg
      exact .cons hword (List.forall₂_same.mpr fun m _ => Reworded.refl m)
    | succ n => exact .cons (Reworded.refl first) (ih hmsg)

theorem reworded_orders {sorted' : List Message} (h : List.Forall₂ Reworded sorted sorted') :
    sorted'.map (·.order) = sorted.map (·.order) := by
  induction h with
  | nil => rfl
  | cons hword _ ih =>
    obtain ⟨caption, rfl, -⟩ := hword
    rw [List.map_cons, List.map_cons, ih]

theorem reworded_getElem? {sorted' : List Message} (h : List.Forall₂ Reworded sorted sorted')
    (hmsg : sorted'[n]? = some msg') : ∃ msg, sorted[n]? = some msg ∧ Reworded msg msg' := by
  induction h generalizing n with
  | nil => cases hmsg
  | @cons first first' _ _ hword _ ih =>
    cases n with
    | zero =>
      obtain rfl : first' = msg' := Option.some.inj hmsg
      exact ⟨first, rfl, hword⟩
    | succ n => exact ih hmsg

theorem Described.reworded (h : Described processor providers media n msg)
    (hword : Reworded msg msg') : Described processor providers media n msg' := by
  obtain ⟨caption, rfl, -⟩ := hword
  exact h

/-- A lost caption is missed when it is longer than the whole transcript, which does not depend on
it. -/
theorem caption_lost (hmsg : (inOrder messages)[n]? = some msg) (hcaptioned : Captioned msg)
    (hlost : ¬ Described processor providers media n msg) :
    ∃ messages', List.Forall₂ Reworded (inOrder messages) (inOrder messages') ∧
      ¬ WordsReach messages' (processor.buildTranscript providers messages' media).render := by
  obtain ⟨rendered, hrendered⟩ : ∃ rendered,
    (processor.buildTranscript providers messages media).render = rendered := ⟨_, rfl⟩
  obtain ⟨caption, hcaption⟩ : ∃ caption, caption = some (rendered ++ "!") := ⟨_, rfl⟩
  have hlong : orEmpty caption ≠ "" := by
    intro h
    have hlen := congrArg String.length h
    simp [hcaption, orEmpty] at hlen
  have hword : Reworded msg { msg with caption := caption } := by
    refine ⟨caption, rfl, ?_⟩
    constructor
    · intro h
      exact absurd h hlong
    · intro h
      exact absurd h hcaptioned.2
  have hset := reworded_set hmsg hword
  have horder := inOrder_of_pairwise (List.pairwise_map.mp
    ((reworded_orders hset) ▸ List.pairwise_map.mpr (pairwise_inOrder messages)))
  have hsame : (processor.buildTranscript providers
      ((inOrder messages).set n { msg with caption := caption }) media).segments =
      (processor.buildTranscript providers messages media).segments := by
    have hgroups := groups_set hmsg (segmentsOrReason_recaptioned caption hcaptioned.1 hlost)
    rw [segments_buildTranscript, segments_buildTranscript, horder, hgroups]
  refine ⟨(inOrder messages).set n { msg with caption := caption }, by rw [horder]; exact hset, ?_⟩
  intro hwords
  have hmem : { msg with caption := caption } ∈
      (inOrder messages).set n { msg with caption := caption } := by
    obtain ⟨hn, -⟩ := List.getElem?_eq_some_iff.mp hmsg
    exact List.mem_set hn _
  have hoccurs := (hwords _ hmem).2 ⟨hcaptioned.1, hlong⟩
  rw [NormalizedTranscript.render, hsame, ← NormalizedTranscript.render, hrendered] at hoccurs
  have hlen := hoccurs.length_le
  simp [hcaption, orEmpty] at hlen

/-- **The client's words reach the transcript**, whatever they are, exactly if every captioned message
is a photo that is described. -/
theorem words_reach_iff :
    (∀ messages', List.Forall₂ Reworded (inOrder messages) (inOrder messages') →
      WordsReach messages' (processor.buildTranscript providers messages' media).render) ↔
    ∀ n msg, (inOrder messages)[n]? = some msg → Captioned msg →
      Described processor providers media n msg := by
  constructor
  · intro hreach n msg hmsg hcaptioned
    by_contra hlost
    obtain ⟨messages', hwords, hmissed⟩ := caption_lost hmsg hcaptioned hlost
    exact hmissed (hreach messages' hwords)
  · intro hdescribed messages' hwords msg' hmem
    have hsorted : msg' ∈ inOrder messages' := (perm_inOrder messages').mem_iff.mpr hmem
    obtain ⟨n, hmsg'⟩ := List.getElem?_of_mem hsorted
    refine ⟨occurs_text hmsg', fun hcaptioned => occurs_caption hmsg' ?_⟩
    obtain ⟨msg, hmsg, hword⟩ := reworded_getElem? hwords hmsg'
    exact (hdescribed n msg hmsg (hword.captioned hcaptioned)).reworded hword

/-! ### A video with a caption -/

namespace Sample

def settings : MediaProcessor := ⟨"whisper", "vision", "Describe.", 1⟩

/-- Providers that answer every call. -/
def answers : MediaProviders where
  transcribe _ _ _ _ := .ok "spoken words"
  describe _ _ _ _ _ _ := .ok "a wall"
  extractAudio _ video := .ok video
  sampleFrames _ video _ := .ok [video]
  extract _ _ _ := .ok "text"

def film : Message :=
  ⟨"film", .video, 0, 0, none, some "Quote by Friday!", none, none, none, none⟩

def bytes : String → Option DownloadedMedia := fun _ => some ⟨[0xff], "video/mp4"⟩

end Sample

/-- The caption of a video is in no segment, although every provider answers. -/
theorem caption_dropped : ¬ WordsReach [Sample.film]
    (Sample.settings.buildTranscript Sample.answers [Sample.film] Sample.bytes).render := by
  intro hwords
  have hcaptioned : Captioned Sample.film := ⟨.inr (.inl rfl), by decide⟩
  have hoccurs := (hwords Sample.film List.mem_cons_self).2 hcaptioned
  have hletter : 'Q' ∈ (orEmpty Sample.film.caption).toList := by decide
  have hmissing : 'Q' ∉
      (Sample.settings.buildTranscript Sample.answers [Sample.film] Sample.bytes).render.toList := by
    decide +kernel
  exact hmissing (hoccurs.subset hletter)

end WappPlanner.Media.Captions
