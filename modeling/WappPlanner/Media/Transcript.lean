import WappPlanner.Lib.Fallible
import WappPlanner.Media.Processor

/-! # The transcript, message by message

A transcript is one group of segments for each message, in the order of the messages. A group is
complete or it is one unprocessable segment: a call of a provider that raises leaves nothing of what
the calls before it gave (`segmentsFor_cases`). No message changes the group of another one, and the
order in which the messages are listed does not matter (`transcript_exact`). -/

namespace WappPlanner.Media.Transcript

open WappPlanner.Domain.Models WappPlanner.Errors WappPlanner.Lib WappPlanner.Media.Processor
open WappPlanner.Media.Processor.MediaProcessor WappPlanner.Providers.Base WappPlanner.Py.Values
open WappPlanner.Workflow.Enums

/-- The messages by their order field. -/
def inOrder (messages : List Message) : List Message :=
  messages.insertionSort fun m m' => m.order ≤ m'.order

/-- The providers as the messages from number `n` on meet them. -/
def fromNumber (providers : MediaProviders) (n : ℕ) : MediaProviders where
  transcribe k := providers.transcribe (n + k)
  describe k := providers.describe (n + k)
  extractAudio k := providers.extractAudio (n + k)
  sampleFrames k := providers.sampleFrames (n + k)
  extract k := providers.extract (n + k)

section groups

variable (processor : MediaProcessor) (providers : MediaProviders)
  (media : String → Option DownloadedMedia) (n : ℕ) (msg : Message)

/-- A provider call for message number `n` raises, or its bytes are missing. -/
inductive Fails : Prop
  | missing (htype : msg.type ≠ .text) (hmedia : media msg.id = none)
  | speech {d : DownloadedMedia} {e : String} (htype : msg.type = .audio ∨ msg.type = .voice)
      (hmedia : media msg.id = some d)
      (hraised : providers.transcribe n d.content processor.transcriptionModel (some d.mimeType) =
        .error e)
  | image {d : DownloadedMedia} {e : String} (htype : msg.type = .image)
      (hmedia : media msg.id = some d)
      (hraised : providers.describe n 0 d.content processor.visionModel d.mimeType
        processor.visionPrompt = .error e)
  | soundtrack {d : DownloadedMedia} {e : String} (htype : msg.type = .video)
      (hmedia : media msg.id = some d) (hraised : providers.extractAudio n d.content = .error e)
  | videoSpeech {d : DownloadedMedia} {audio : Bytes} {e : String} (htype : msg.type = .video)
      (hmedia : media msg.id = some d) (haudio : providers.extractAudio n d.content = .ok audio)
      (hraised : providers.transcribe n audio processor.transcriptionModel none = .error e)
  | sampling {d : DownloadedMedia} {e : String} (htype : msg.type = .video)
      (hmedia : media msg.id = some d)
      (hraised : providers.sampleFrames n d.content processor.maxVideoFrames = .error e)
  | frame {d : DownloadedMedia} {frames : List Bytes} {i : ℕ} {f : Bytes} {e : String}
      (htype : msg.type = .video) (hmedia : media msg.id = some d)
      (hframes : providers.sampleFrames n d.content processor.maxVideoFrames = .ok frames)
      (hframe : frames[i]? = some f)
      (hraised : providers.describe n i f processor.visionModel "image/jpeg"
        processor.visionPrompt = .error e)
  | document {d : DownloadedMedia} {e : String} (htype : msg.type = .document)
      (hmedia : media msg.id = some d)
      (hraised : providers.extract n d.content d.mimeType = .error e)

/-- The descriptions of the frames of a video, one for each. -/
def Described (frames : List Bytes) (descriptions : List String) : Prop :=
  descriptions.length = frames.length ∧ ∀ i f description, frames[i]? = some f →
    descriptions[i]? = some description →
      providers.describe n i f processor.visionModel "image/jpeg" processor.visionPrompt =
        .ok description

/-- All segments of message number `n`, processed. -/
inductive Complete : List TranscriptSegment → Prop
  | text (htype : msg.type = .text) : Complete [segment msg "text" (orEmpty msg.text)]
  | speech {d : DownloadedMedia} {text : String} (htype : msg.type = .audio ∨ msg.type = .voice)
      (hmedia : media msg.id = some d)
      (htext : providers.transcribe n d.content processor.transcriptionModel (some d.mimeType) =
        .ok text) :
      Complete [segment msg "audio" text]
  | image {d : DownloadedMedia} {description : String} (htype : msg.type = .image)
      (hmedia : media msg.id = some d)
      (htext : providers.describe n 0 d.content processor.visionModel d.mimeType
        processor.visionPrompt = .ok description) :
      Complete [segment msg "image" (labelled msg.caption " — " description)]
  | video {d : DownloadedMedia} {audio : Bytes} {text : String} {frames : List Bytes}
      {descriptions : List String} (htype : msg.type = .video) (hmedia : media msg.id = some d)
      (haudio : providers.extractAudio n d.content = .ok audio)
      (htext : providers.transcribe n audio processor.transcriptionModel none = .ok text)
      (hframes : providers.sampleFrames n d.content processor.maxVideoFrames = .ok frames)
      (hdescriptions : Described processor providers n frames descriptions) :
      Complete (segment msg "video-audio" text :: descriptions.map (segment msg "video-frame"))
  | document {d : DownloadedMedia} {text : String} (htype : msg.type = .document)
      (hmedia : media msg.id = some d)
      (htext : providers.extract n d.content d.mimeType = .ok text) :
      Complete [segment msg "document" (labelled msg.filename ": " text)]

/-- What a transcript has of message number `n`. -/
inductive Group : List TranscriptSegment → Prop
  | complete {segs : List TranscriptSegment}
      (hsegs : Complete processor providers media n msg segs)
      (hok : ¬ Fails processor providers media n msg) : Group segs
  | unprocessable {reason : String} (hfails : Fails processor providers media n msg) :
      Group [segment msg msg.type.value ("[unprocessable: " ++ reason ++ "]") .unprocessable]

/-- The group of message number `n`. -/
structure GroupOf (segs : List TranscriptSegment) : Prop where
  group : Group processor providers media n msg segs
  nonempty : segs ≠ []
  uniform : (∀ seg ∈ segs, seg.status = .processed) ∨
    ∃ seg, segs = [seg] ∧ seg.status = .unprocessable
  alone : segs = (processor.buildTranscript (fromNumber providers n) [msg] media).segments

/-- The transcript of the messages is made of one group for each, in their order, and does not depend
on how they are listed. -/
def Graceful (messages : List Message) : Prop :=
  ∃ (sorted : List Message) (parts : List (List TranscriptSegment)),
    sorted.Perm messages ∧ (sorted.Pairwise fun m m' => m.order < m'.order) ∧
      (processor.buildTranscript providers messages media).segments = parts.flatten ∧
      parts.length = sorted.length ∧
      (∀ n msg segs, sorted[n]? = some msg → parts[n]? = some segs →
        GroupOf processor providers media n msg segs) ∧
      ∀ messages', messages'.Perm messages →
        processor.buildTranscript providers messages' media =
          processor.buildTranscript providers messages media

end groups

variable {processor : MediaProcessor} {providers : MediaProviders}
  {media : String → Option DownloadedMedia} {n : ℕ} {msg : Message} {messages : List Message}
  {segs : List TranscriptSegment}

/-! ### One message -/

variable (processor providers n msg) in
/-- The frames of a video are described one by one, until a call raises. -/
theorem frameSegments_cases (frames : List Bytes) (index : ℕ) :
    (∃ descriptions : List String, descriptions.length = frames.length ∧
      processor.frameSegments providers n msg index frames =
        .ok (descriptions.map (segment msg "video-frame")) ∧
      ∀ i f description, frames[i]? = some f → descriptions[i]? = some description →
        providers.describe n (index + i) f processor.visionModel "image/jpeg"
          processor.visionPrompt = .ok description) ∨
    ∃ exc i f e, processor.frameSegments providers n msg index frames = .error exc ∧
      frames[i]? = some f ∧ providers.describe n (index + i) f processor.visionModel "image/jpeg"
        processor.visionPrompt = .error e := by
  induction frames generalizing index with
  | nil =>
    refine .inl ⟨[], rfl, rfl, ?_⟩
    intro i f description hf
    simp at hf
  | cons frame frames ih =>
    cases hfirst : providers.describe n index frame processor.visionModel "image/jpeg"
        processor.visionPrompt with
    | error e =>
      refine .inr ⟨.external e, 0, frame, e, ?_, rfl, hfirst⟩
      rw [frameSegments, hfirst]
      rfl
    | ok first =>
      rcases ih (index + 1) with ⟨descriptions, hlen, hrest, hall⟩ | ⟨exc, i, f, e, hrest, hf, he⟩
      · refine .inl ⟨first :: descriptions, by simp [hlen], ?_, ?_⟩
        · rw [frameSegments, hfirst, hrest]
          rfl
        · intro i f description hf hdescription
          cases i with
          | zero =>
            have hframe : frame = f := by simpa using hf
            have htext : first = description := by simpa using hdescription
            rw [← hframe, ← htext]
            exact hfirst
          | succ i =>
            have hcall := hall i f description (by simpa using hf) (by simpa using hdescription)
            rw [show index + (i + 1) = index + 1 + i by omega]
            exact hcall
      · refine .inr ⟨exc, i + 1, f, e, ?_, by simpa using hf, ?_⟩
        · rw [frameSegments, hfirst, hrest]
          rfl
        · rw [show index + (i + 1) = index + 1 + i by omega]
          exact he

theorem bind_error {α β : Type} {x : Answer α} {f : α → Except Exn β} {exc : Exn}
    (h : x.lift >>= f = .error exc) :
    (∃ e, x = .error e) ∨ ∃ a, x = .ok a ∧ f a = .error exc := by
  cases x with
  | error e => exact .inl ⟨e, rfl⟩
  | ok a => exact .inr ⟨a, rfl, h⟩

theorem videoSegments_ok {content : Bytes}
    (h : processor.videoSegments providers n msg content = .ok segs) :
    ∃ audio text frames descriptions, providers.extractAudio n content = .ok audio ∧
      providers.transcribe n audio processor.transcriptionModel none = .ok text ∧
      providers.sampleFrames n content processor.maxVideoFrames = .ok frames ∧
      Described processor providers n frames descriptions ∧
      segs = segment msg "video-audio" text :: descriptions.map (segment msg "video-frame") := by
  obtain ⟨audio, haudio, h⟩ := Answer.lift_bind_ok h
  obtain ⟨text, htext, h⟩ := Answer.lift_bind_ok h
  obtain ⟨frames, hframes, h⟩ := Answer.lift_bind_ok h
  obtain ⟨rest, hrest, h⟩ := Fallible.bind_eq_ok.mp h
  rcases frameSegments_cases processor providers n msg frames 0 with
    ⟨descriptions, hlen, heq, hall⟩ | ⟨exc, i, f, e, hraised, -, -⟩
  · have hrests : rest = descriptions.map (segment msg "video-frame") :=
      Except.ok.inj (hrest.symm.trans heq)
    refine ⟨audio, text, frames, descriptions, haudio, htext, hframes, ⟨hlen, ?_⟩, ?_⟩
    · intro i f description hf hdescription
      have hcall := hall i f description hf hdescription
      rwa [Nat.zero_add] at hcall
    · rw [← hrests]
      exact (Except.ok.inj h).symm
  · rw [hraised] at hrest
    cases hrest

theorem videoSegments_error {d : DownloadedMedia} {exc : Exn} (htype : msg.type = .video)
    (hmedia : media msg.id = some d)
    (h : processor.videoSegments providers n msg d.content = .error exc) :
    Fails processor providers media n msg := by
  rcases bind_error h with ⟨e, haudio⟩ | ⟨audio, haudio, h⟩
  · exact .soundtrack htype hmedia haudio
  rcases bind_error h with ⟨e, htext⟩ | ⟨text, htext, h⟩
  · exact .videoSpeech htype hmedia haudio htext
  rcases bind_error h with ⟨e, hframes⟩ | ⟨frames, hframes, h⟩
  · exact .sampling htype hmedia hframes
  rcases frameSegments_cases processor providers n msg frames 0 with
    ⟨descriptions, -, heq, -⟩ | ⟨exc, i, f, e, -, hf, he⟩
  · rw [heq] at h
    cases h
  · rw [Nat.zero_add] at he
    exact .frame htype hmedia hframes hf he

section types

variable {d : DownloadedMedia}

theorem segmentsFor_missing (htype : msg.type ≠ .text) (hmedia : media msg.id = none) :
    processor.segmentsFor providers media n msg =
      .error (.lookupError "no media bytes available") := by
  rw [segmentsFor, if_neg htype, hmedia]

theorem segmentsFor_speech (htype : msg.type = .audio ∨ msg.type = .voice)
    (hmedia : media msg.id = some d) : processor.segmentsFor providers media n msg =
      (providers.transcribe n d.content processor.transcriptionModel (some d.mimeType)).lift >>=
        fun text => .ok [segment msg "audio" text] := by
  rcases htype with htype | htype
  · simp only [segmentsFor, htype, hmedia, reduceCtorEq, if_false]
    rfl
  · simp only [segmentsFor, htype, hmedia, reduceCtorEq, if_false]
    rfl

theorem segmentsFor_image (htype : msg.type = .image) (hmedia : media msg.id = some d) :
    processor.segmentsFor providers media n msg =
      (providers.describe n 0 d.content processor.visionModel d.mimeType
        processor.visionPrompt).lift >>=
        fun text => .ok [segment msg "image" (labelled msg.caption " — " text)] := by
  simp only [segmentsFor, htype, hmedia, reduceCtorEq, if_false]
  rfl

theorem segmentsFor_video (htype : msg.type = .video) (hmedia : media msg.id = some d) :
    processor.segmentsFor providers media n msg =
      processor.videoSegments providers n msg d.content := by
  simp only [segmentsFor, htype, hmedia, reduceCtorEq, if_false]

theorem segmentsFor_document (htype : msg.type = .document) (hmedia : media msg.id = some d) :
    processor.segmentsFor providers media n msg =
      (providers.extract n d.content d.mimeType).lift >>=
        fun text => .ok [segment msg "document" (labelled msg.filename ": " text)] := by
  simp only [segmentsFor, htype, hmedia, reduceCtorEq, if_false]
  rfl

end types

theorem type_cases (msg : Message) : msg.type = .text ∨ (msg.type = .audio ∨ msg.type = .voice) ∨
    msg.type = .image ∨ msg.type = .video ∨ msg.type = .document := by
  cases msg.type <;> simp

theorem complete_of_ok (h : processor.segmentsFor providers media n msg = .ok segs) :
    Complete processor providers media n msg segs := by
  by_cases htext : msg.type = .text
  · rw [segmentsFor, if_pos htext] at h
    rw [← Except.ok.inj h]
    exact .text htext
  cases hmedia : media msg.id with
  | none =>
    rw [segmentsFor_missing htext hmedia] at h
    cases h
  | some d =>
    rcases type_cases msg with htype | htype | htype | htype | htype
    · exact absurd htype htext
    · rw [segmentsFor_speech htype hmedia] at h
      obtain ⟨text, hcall, h⟩ := Answer.lift_bind_ok h
      rw [← Except.ok.inj h]
      exact .speech htype hmedia hcall
    · rw [segmentsFor_image htype hmedia] at h
      obtain ⟨description, hcall, h⟩ := Answer.lift_bind_ok h
      rw [← Except.ok.inj h]
      exact .image htype hmedia hcall
    · rw [segmentsFor_video htype hmedia] at h
      obtain ⟨audio, text, frames, descriptions, haudio, htext, hframes, hall, rfl⟩ :=
        videoSegments_ok h
      exact .video htype hmedia haudio htext hframes hall
    · rw [segmentsFor_document htype hmedia] at h
      obtain ⟨text, hcall, h⟩ := Answer.lift_bind_ok h
      rw [← Except.ok.inj h]
      exact .document htype hmedia hcall

theorem fails_of_error {exc : Exn} (h : processor.segmentsFor providers media n msg = .error exc) :
    Fails processor providers media n msg := by
  by_cases htext : msg.type = .text
  · rw [segmentsFor, if_pos htext] at h
    cases h
  cases hmedia : media msg.id with
  | none => exact .missing htext hmedia
  | some d =>
    rcases type_cases msg with htype | htype | htype | htype | htype
    · exact absurd htype htext
    · rw [segmentsFor_speech htype hmedia] at h
      rcases bind_error h with ⟨e, hcall⟩ | ⟨text, -, h⟩
      · exact .speech htype hmedia hcall
      · cases h
    · rw [segmentsFor_image htype hmedia] at h
      rcases bind_error h with ⟨e, hcall⟩ | ⟨text, -, h⟩
      · exact .image htype hmedia hcall
      · cases h
    · rw [segmentsFor_video htype hmedia] at h
      exact videoSegments_error htype hmedia h
    · rw [segmentsFor_document htype hmedia] at h
      rcases bind_error h with ⟨e, hcall⟩ | ⟨text, -, h⟩
      · exact .document htype hmedia hcall
      · cases h

/-- **A call that raises leaves no segment**, whatever the others gave. -/
theorem not_fails_of_ok (h : processor.segmentsFor providers media n msg = .ok segs) :
    ¬ Fails processor providers media n msg := by
  -- a call made with an answer has not raised
  have hcontra : ∀ {α : Type} {x : Answer α} {a : α} {e : String},
      x = .ok a → x = .error e → False := by
    rintro α x a e rfl hx
    cases hx
  intro hfails
  cases hfails with
  | missing htype hmedia =>
    rw [segmentsFor_missing htype hmedia] at h
    cases h
  | speech htype hmedia hraised =>
    rw [segmentsFor_speech htype hmedia, hraised] at h
    cases h
  | image htype hmedia hraised =>
    rw [segmentsFor_image htype hmedia, hraised] at h
    cases h
  | document htype hmedia hraised =>
    rw [segmentsFor_document htype hmedia, hraised] at h
    cases h
  | soundtrack htype hmedia hraised =>
    rw [segmentsFor_video htype hmedia] at h
    obtain ⟨audio, -, -, -, haudio, -⟩ := videoSegments_ok h
    exact hcontra haudio hraised
  | videoSpeech htype hmedia haudio hraised =>
    rw [segmentsFor_video htype hmedia] at h
    obtain ⟨audio, text, -, -, haudio', htext, -⟩ := videoSegments_ok h
    obtain rfl := Except.ok.inj (haudio.symm.trans haudio')
    exact hcontra htext hraised
  | sampling htype hmedia hraised =>
    rw [segmentsFor_video htype hmedia] at h
    obtain ⟨-, -, frames, -, -, -, hframes, -⟩ := videoSegments_ok h
    exact hcontra hframes hraised
  | @frame d frames i f e htype hmedia hframes hframe hraised =>
    rw [segmentsFor_video htype hmedia] at h
    obtain ⟨-, -, frames', descriptions, -, -, hframes', ⟨hlen, hall⟩, -⟩ := videoSegments_ok h
    obtain rfl := Except.ok.inj (hframes.symm.trans hframes')
    obtain ⟨hi, -⟩ := List.getElem?_eq_some_iff.mp hframe
    have hdescription : descriptions[i]? = some descriptions[i] := by
      rw [List.getElem?_eq_getElem]
    exact hcontra (hall i f _ hframe hdescription) hraised

theorem group_segmentsOrReason :
    Group processor providers media n msg
      (processor.segmentsOrReason providers media n msg) := by
  unfold segmentsOrReason
  split
  next segs h => exact .complete (complete_of_ok h) (not_fails_of_ok h)
  next exc h => exact .unprocessable (fails_of_error h)

theorem Complete.processed (h : Complete processor providers media n msg segs) :
    segs ≠ [] ∧ ∀ seg ∈ segs, seg.status = .processed := by
  cases h with
  | video htype hmedia haudio htext hframes hall =>
    refine ⟨List.cons_ne_nil _ _, fun seg hseg => ?_⟩
    rcases List.mem_cons.mp hseg with rfl | hseg
    · rfl
    · obtain ⟨description, -, rfl⟩ := List.mem_map.mp hseg
      rfl
  | _ =>
    refine ⟨List.cons_ne_nil _ _, fun seg hseg => ?_⟩
    rw [List.mem_singleton.mp hseg]
    rfl

theorem Group.uniform (h : Group processor providers media n msg segs) :
    segs ≠ [] ∧ ((∀ seg ∈ segs, seg.status = .processed) ∨
      ∃ seg, segs = [seg] ∧ seg.status = .unprocessable) := by
  cases h with
  | complete hsegs _ => exact ⟨hsegs.processed.1, .inl hsegs.processed.2⟩
  | unprocessable _ => exact ⟨List.cons_ne_nil _ _, .inr ⟨_, rfl, rfl⟩⟩

/-! ### One message alone -/

theorem frameSegments_from (frames : List Bytes) (index : ℕ) :
    processor.frameSegments (fromNumber providers n) 0 msg index frames =
      processor.frameSegments providers n msg index frames := by
  induction frames generalizing index with
  | nil => rfl
  | cons frame frames ih =>
    rw [frameSegments, frameSegments, ih]
    rfl

theorem segmentsFor_from :
    processor.segmentsFor (fromNumber providers n) media 0 msg =
      processor.segmentsFor providers media n msg := by
  have hvideo : ∀ content, processor.videoSegments (fromNumber providers n) 0 msg content =
      processor.videoSegments providers n msg content := by
    intro content
    unfold videoSegments
    simp only [frameSegments_from]
    rfl
  unfold segmentsFor
  simp only [hvideo]
  rfl

/-- **A message alone** has the group it has among the others. -/
theorem segmentsOrReason_alone : processor.segmentsOrReason providers media n msg =
    (processor.buildTranscript (fromNumber providers n) [msg] media).segments := by
  have hone : (processor.buildTranscript (fromNumber providers n) [msg] media).segments =
      processor.segmentsOrReason (fromNumber providers n) media 0 msg := by
    simp [buildTranscript]
  rw [hone, segmentsOrReason, segmentsOrReason, segmentsFor_from]

variable (processor providers media n msg) in
theorem groupOf_segmentsOrReason : GroupOf processor providers media n msg
    (processor.segmentsOrReason providers media n msg) := by
  have hgroup : Group processor providers media n msg _ := group_segmentsOrReason
  obtain ⟨hnonempty, huniform⟩ := hgroup.uniform
  exact ⟨hgroup, hnonempty, huniform, segmentsOrReason_alone⟩

/-! ### The messages in order -/

/-- The groups of the messages, which stand in order. -/
def groups (processor : MediaProcessor) (providers : MediaProviders)
    (media : String → Option DownloadedMedia) (sorted : List Message) :
    List (List TranscriptSegment) :=
  sorted.zipIdx.map fun (msg, n) => processor.segmentsOrReason providers media n msg

theorem segments_buildTranscript (messages : List Message) :
    (processor.buildTranscript providers messages media).segments =
      (groups processor providers media (inOrder messages)).flatten := rfl

theorem getElem?_groups {sorted : List Message} (h : sorted[n]? = some msg) :
    (groups processor providers media sorted)[n]? =
      some (processor.segmentsOrReason providers media n msg) := by
  unfold groups
  rw [List.getElem?_map, List.getElem?_zipIdx, h]
  simp

theorem perm_inOrder (messages : List Message) : (inOrder messages).Perm messages :=
  List.perm_insertionSort _ _

theorem pairwise_inOrder (messages : List Message) :
    (inOrder messages).Pairwise fun m m' => m.order ≤ m'.order := by
  have htotal : Std.Total fun m m' : Message => m.order ≤ m'.order :=
    ⟨fun m m' => Nat.le_total m.order m'.order⟩
  have htrans : IsTrans Message fun m m' => m.order ≤ m'.order :=
    ⟨fun _ _ _ => Nat.le_trans⟩
  exact List.pairwise_insertionSort _ messages

theorem strict_inOrder (hdistinct : (messages.map (·.order)).Nodup) :
    (inOrder messages).Pairwise fun m m' => m.order < m'.order := by
  have hne : (inOrder messages).Pairwise fun m m' => m.order ≠ m'.order := by
    have hnodup := ((perm_inOrder messages).map (·.order)).nodup_iff.mpr hdistinct
    exact List.pairwise_map.mp hnodup
  exact ((pairwise_inOrder messages).and hne).imp fun h => Nat.lt_of_le_of_ne h.1 h.2

theorem inOrder_perm {messages' : List Message} (hdistinct : (messages.map (·.order)).Nodup)
    (hperm : messages'.Perm messages) : inOrder messages' = inOrder messages := by
  have hdistinct' := (hperm.map (·.order)).nodup_iff.mpr hdistinct
  refine List.Perm.eq_of_pairwise ?_ (strict_inOrder hdistinct') (strict_inOrder hdistinct) ?_
  · intro m m' _ _ hlt hgt
    omega
  · exact (perm_inOrder messages').trans (hperm.trans (perm_inOrder messages).symm)

/-- **A transcript degrades message by message**, in order and all or nothing. -/
theorem transcript_exact (hdistinct : (messages.map (·.order)).Nodup) :
    Graceful processor providers media messages := by
  refine ⟨inOrder messages, groups processor providers media (inOrder messages),
    perm_inOrder messages, strict_inOrder hdistinct, segments_buildTranscript messages, ?_, ?_, ?_⟩
  · rw [groups, List.length_map, List.length_zipIdx]
  · intro n msg segs hmsg hsegs
    rw [getElem?_groups hmsg] at hsegs
    rw [← Option.some.inj hsegs]
    exact groupOf_segmentsOrReason processor providers media n msg
  · intro messages' hperm
    have hsame := inOrder_perm hdistinct hperm
    rw [NormalizedTranscript.mk.injEq, segments_buildTranscript, segments_buildTranscript, hsame]

/-! ### A photo after a video -/

namespace Sample

def settings : MediaProcessor := ⟨"whisper", "vision", "Describe.", 3⟩

/-- Vision that answers for the first picture of a message only. -/
def answers : MediaProviders where
  transcribe _ _ _ _ := .ok "spoken words"
  describe _ index _ _ _ _ := if index = 0 then .ok "a wall" else .error "vision down"
  extractAudio _ video := .ok video
  sampleFrames _ video _ := .ok [video, video]
  extract _ _ _ := .error "no text"

def message (id : String) (type : MessageType) (order : ℕ) : Message :=
  ⟨id, type, order, 0, none, none, none, none, none, none⟩

def bytes : String → Option DownloadedMedia := fun _ => some ⟨[0xff], "image/jpeg"⟩

end Sample

theorem transcript_exact_sample : Graceful Sample.settings Sample.answers Sample.bytes
    [Sample.message "photo" .image 1, Sample.message "film" .video 0] :=
  transcript_exact (by decide)

end WappPlanner.Media.Transcript
