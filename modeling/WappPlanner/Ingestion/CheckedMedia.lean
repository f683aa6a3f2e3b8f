import WappPlanner.Ingestion.Durability

/-! # Checked media

A file is downloaded and checked when its message is accepted, and handed to the orchestrator when the
bucket of the message closes; a storage key and the fields of the message lead from the one to the
other. The bytes are those that were checked, in every run (`MediaInv.handed`): the keys of two
messages differ, and no id is accepted twice. The type is not: it is taken from the payload, and agrees
with the one that was checked as long as the payload names that type (`as_checked_run`). -/

namespace WappPlanner.Ingestion

open WappPlanner.Aggregation WappPlanner.Domain.Models WappPlanner.Errors
open WappPlanner.Ingestion.Parser WappPlanner.Lib WappPlanner.Lib.Fallible WappPlanner.Lib.Runs
open WappPlanner.Orchestrator WappPlanner.Providers.Base WappPlanner.Py.Text
open WappPlanner.Py.Values WappPlanner.Workflow.Enums

/-! ### Acceptances -/

/-- A message that is accepted, and how what is outside the program behaves meanwhile. -/
abbrev Acceptance := Handling × ParsedMessage

namespace IngestionService

variable (service : IngestionService)

/-- The acceptances of a list of messages, until something raises. -/
def acceptancesAll (handling : ℕ → Handling) (now : Instant) :
    ℕ → List ParsedMessage → State → List Acceptance
  | _, [], _ => []
  | n, parsed :: rest, s =>
    if parsed.whatsappId ∈ s.seen then acceptancesAll handling now n rest s
    else (handling n, parsed) ::
      match service.accept (handling n) parsed now s with
      | (.ok (), s') => acceptancesAll handling now (n + 1) rest s'
      | (.error _, _) => []

/-- The acceptances of a call. -/
def acceptances (s : State) : Input → List Acceptance
  | .receive rawBody header now wall handling =>
    match service.messagesOf rawBody header wall with
    | .ok messages => service.acceptancesAll handling now 0 messages s
    | .error _ => []
  | .flushDue _ _ => []

/-- The acceptances of a run. -/
def acceptedIn (h : List (State × Input)) : List Acceptance :=
  h.flatMap fun e => service.acceptances e.1 e.2

end IngestionService

/-! ### What is checked, and what is handed -/

/-- The key that the file of a message is stored under. -/
def inboundKey (id : String) : String := "inbound" ++ "/" ++ id

/-- The type that a file is processed under. -/
def typeOf : Option String → String
  | some mime => if mime = "" then defaultMime else mime
  | none => defaultMime

section media

variable (service : IngestionService)

/-- The acceptance stores the file of its message. -/
structure Stores (e : Acceptance) (media : DownloadedMedia) : Prop where
  type : e.2.type ≠ .text
  mediaId : e.2.mediaId.isNone = false
  checked : service.downloader.Checked e.1.source (str service.tables e.2.mediaId) media
  put : e.1.source.put (inboundKey e.2.whatsappId) = .ok ()

/-- If the acceptance stores a file and its message is built, the payload names the type that the media
client reports for the file, or names none and that type is the default one. -/
def Declared (e : Acceptance) : Prop :=
  ∀ media, Stores service e media → e.2.Valid →
    ∀ mime, text? e.2.mimeType = some mime → typeOf mime = media.mimeType

/-- Every file handed for a message is one that was downloaded for its media id when it was accepted,
and checked. -/
def AsChecked (accepted : List Acceptance) (b : Batch) : Prop :=
  ∀ m ∈ b.aggregated.messages, ∀ media, b.media m.id = some media →
    ∃ e ∈ accepted, e.2.whatsappId = m.id ∧ ∃ mediaId, m.mediaId = some mediaId ∧
      service.downloader.Checked e.1.source mediaId media

/-- The message is built by the acceptance. -/
structure BuiltBy (e : Acceptance) (m : Message) : Prop where
  id : m.id = e.2.whatsappId
  valid : e.2.Valid
  mediaId : text? e.2.mediaId = some m.mediaId
  mimeType : text? e.2.mimeType = some m.mimeType
  rawRef : ∀ key, m.rawRef = some key → key = inboundKey m.id

/-- **What every call keeps**, the messages of `accepted` having been accepted so far. -/
structure MediaInv (accepted : List Acceptance) (s : State) : Prop where
  claimed : ∀ e ∈ accepted, e.2.whatsappId ∈ s.seen
  distinct : ∀ e ∈ accepted, ∀ e' ∈ accepted, e.2.whatsappId = e'.2.whatsappId → e = e'
  stored : ∀ id content mime, s.world.storage (inboundKey id) = some (content, mime) →
    ∃ e ∈ accepted, e.2.whatsappId = id ∧ Stores service e ⟨content, mime⟩
  open_ : ∀ key bucket, s.aggregator.openBuckets.get key = some bucket →
    ∀ m ∈ bucket.messages, ∃ e ∈ accepted, BuiltBy e m
  handed : ∀ b ∈ s.handed, ∀ m ∈ b.aggregated.messages, ∀ media, b.media m.id = some media →
    ∃ e ∈ accepted, BuiltBy e m ∧ media.mimeType = typeOf m.mimeType ∧
      ∃ mime, Stores service e ⟨media.content, mime⟩

end media

section provenance

variable {service : IngestionService} {accepted : List Acceptance} {s : State} {e : Acceptance}
  {handling : Handling} {parsed : ParsedMessage} {now : Instant} {message m : Message}

theorem inboundKey_injective : Function.Injective inboundKey :=
  fun _ _ h => String.append_right_inj ("inbound" ++ "/") |>.mp h

/-! ### Downloads -/

/-- **What a download does**: it stores a checked file under the key of its message, or nothing. -/
theorem download_cases (service : IngestionService) (handling : Handling) (parsed : ParsedMessage)
    (s : State) :
    (∃ media, Stores service (handling, parsed) media ∧
      (service.download handling parsed s).1 = some (inboundKey parsed.whatsappId) ∧
      (service.download handling parsed s).2.world =
        s.world.stored (inboundKey parsed.whatsappId) media.content media.mimeType) ∨
    (service.download handling parsed s).1 = none ∧
      (service.download handling parsed s).2.world = s.world := by
  unfold IngestionService.download
  split_ifs with hskip
  · exact .inr ⟨rfl, rfl⟩
  · have hid : parsed.mediaId.isNone = false := by
      cases h : parsed.mediaId.isNone with
      | false => rfl
      | true => exact absurd (by simp [h]) hskip
    have htype : parsed.type ≠ .text := by
      intro h
      exact absurd (by simp [h]) hskip
    dsimp only
    rcases service.downloader.fetchAndStore_cases service.tables service.orchestrator.storageRef
      handling.source "inbound" parsed.whatsappId (str service.tables parsed.mediaId) s.world with
      ⟨exc, hfetch⟩ | ⟨media, hchecked, hput, hfetch⟩
    · rw [hfetch]
      exact .inr ⟨rfl, rfl⟩
    · rw [hfetch]
      exact .inl ⟨media, ⟨htype, hid, hchecked, hput⟩, rfl, rfl⟩

theorem messageOf_fields {rawRef : Option String} (h : messageOf parsed rawRef = .ok message) :
    text? parsed.mediaId = some message.mediaId ∧
      text? parsed.mimeType = some message.mimeType := by
  unfold messageOf at h
  split at h
  next text caption mediaId mimeType filename _ _ hmedia hmime _ =>
    rw [← Except.ok.inj h]
    exact ⟨hmedia, hmime⟩
  next => cases h

/-! ### Reading the media of a bucket -/

theorem mediaFor_some {w : World} {messages : List Message} {media : String → Option DownloadedMedia}
    {id : String} {d : DownloadedMedia}
    (h : IngestionService.mediaFor handling w messages = .ok media) (hid : media id = some d) :
    ∃ m ∈ messages, m.id = id ∧ ∃ key content mime, m.rawRef = some key ∧
      w.storage key = some (content, mime) ∧ d = ⟨content, typeOf m.mimeType⟩ := by
  unfold IngestionService.mediaFor at h
  obtain ⟨found, hfound, h⟩ := bind_eq_ok.mp h
  rw [← Except.ok.inj h] at hid
  obtain ⟨pre, post, hsplit, -⟩ := List.lookup_eq_some_iff.mp hid
  have hmem : (id, d) ∈ found.filterMap (·) := by
    rw [← List.mem_reverse, hsplit]
    simp
  obtain ⟨entry, hentry, heq⟩ := List.mem_filterMap.mp hmem
  subst heq
  obtain ⟨m, hm, hof⟩ := exists_of_mem_mapM hfound hentry
  unfold IngestionService.mediaOf at hof
  split at hof
  next key _ hkey =>
    obtain ⟨content, hget, hof⟩ := bind_eq_ok.mp hof
    obtain ⟨hsame, hd⟩ := Prod.mk.inj (Option.some.inj (Except.ok.inj hof))
    unfold IngestionService.storageGet at hget
    split at hget
    · cases hget
    · split at hget
      next object mime hobject =>
        obtain rfl := Except.ok.inj hget
        exact ⟨m, hm, hsame, key, _, mime, hkey, hobject, hd.symm⟩
      next => cases hget
  next => cases hof

/-! ### Closed buckets -/

section process

variable {aggregated : AggregatedRequest}

/-- **A closed bucket is handed with what was checked**, under the types of its messages. -/
theorem MediaInv.process (h : MediaInv service accepted s)
    (hbuilt : ∀ m ∈ aggregated.messages, ∃ e ∈ accepted, BuiltBy e m) :
    MediaInv service accepted (service.process handling aggregated now s).2 := by
  rcases service.process_cases handling aggregated now s with ⟨exc, -, hp⟩ | ⟨media, hmedia, hp⟩
  · rw [hp]
    exact h
  · have hstorage : (outcome service.orchestrator s.world (.ingest
        (IngestionService.batchOf s aggregated media now) handling.env)).state.storage =
          s.world.storage := ingest_storage ..
    rw [hp]
    refine ⟨h.claimed, h.distinct, ?_, h.open_, fun b hb => ?_⟩
    · intro id content mime hobject
      refine h.stored id content mime ?_
      rw [← hstorage]
      exact hobject
    · rcases List.mem_append.mp hb with hb | hb
      · exact h.handed b hb
      · rw [List.mem_singleton.mp hb]
        intro m hm d hd
        obtain ⟨m', hm', hid, key, content, mime, hkey, hobject, rfl⟩ := mediaFor_some hmedia hd
        obtain ⟨e, he, hbuilt_m⟩ := hbuilt m hm
        obtain ⟨e', he', hbuilt_m'⟩ := hbuilt m' hm'
        rw [hbuilt_m'.rawRef key hkey] at hobject
        obtain ⟨e'', he'', hid'', hstores⟩ := h.stored m'.id content mime hobject
        -- one id, one acceptance
        have hsame : e' = e := by
          refine h.distinct e' he' e he ?_
          rw [← hbuilt_m'.id, ← hbuilt_m.id, hid]
        have hsame'' : e'' = e := by
          refine h.distinct e'' he'' e he ?_
          rw [hid'', ← hbuilt_m.id, hid]
        subst hsame hsame''
        have hmime : m'.mimeType = m.mimeType :=
          Option.some.inj (hbuilt_m'.mimeType.symm.trans hbuilt_m.mimeType)
        exact ⟨_, he, hbuilt_m, by rw [hmime], mime, hstores⟩

end process

/-! ### Accepted messages -/

theorem MediaInv.addMessage {clientId : String} (h : MediaInv service accepted s)
    (hbuilt : ∃ e ∈ accepted, BuiltBy e message) :
    MediaInv service accepted (service.addMessage handling clientId message now s).2 := by
  have hopen : ∀ key bucket,
      (s.aggregator.add service.windows clientId message now).2.openBuckets.get key = some bucket →
        ∀ m ∈ bucket.messages, ∃ e ∈ accepted, BuiltBy e m := by
    intro key bucket hb m hm
    rw [Aggregator.get_add] at hb
    split_ifs at hb
    · rw [← Option.some.inj hb] at hm
      rcases Aggregator.mem_joined hm with ⟨old, hold, hm⟩ | ⟨order, rfl⟩
      · exact h.open_ clientId old hold m hm
      · -- nothing that is recorded depends on the place
        obtain ⟨e, he, hb⟩ := hbuilt
        exact ⟨e, he, hb.id, hb.valid, hb.mediaId, hb.mimeType, hb.rawRef⟩
    · exact h.open_ key bucket hb m hm
  have hinv : MediaInv service accepted (s.withAggregator
      (s.aggregator.add service.windows clientId message now).2) :=
    ⟨h.claimed, h.distinct, h.stored, hopen, h.handed⟩
  rcases service.addMessage_cases handling clientId message now s with hp | ⟨bucket, hdue, hp⟩
  · rw [hp]
    exact hinv
  · rw [hp]
    exact hinv.process (h.open_ clientId bucket (Option.filter_eq_some_iff.mp hdue).1)

theorem MediaInv.claim (h : MediaInv service accepted s) (hnew : parsed.whatsappId ∉ s.seen) :
    MediaInv service (accepted ++ [(handling, parsed)])
      ((s.claim parsed).resolved service.registry parsed) := by
  have hmem : ∀ e ∈ accepted, e ∈ accepted ++ [(handling, parsed)] :=
    fun e he => List.mem_append_left _ he
  have hfresh : ∀ e ∈ accepted, e.2.whatsappId ≠ parsed.whatsappId :=
    fun e he hsame => hnew (hsame ▸ h.claimed e he)
  refine ⟨fun e he => ?_, fun e he e' he' hsame => ?_, fun id content mime hobject => ?_,
    fun key bucket hb m hm => ?_, fun b hb m hm media hmedia => ?_⟩
  · rcases List.mem_append.mp he with he | he
    · exact Finset.mem_insert_of_mem (h.claimed e he)
    · rw [List.mem_singleton.mp he]
      exact Finset.mem_insert_self _ _
  · rcases List.mem_append.mp he with he | he
    · rcases List.mem_append.mp he' with he' | he'
      · exact h.distinct e he e' he' hsame
      · rw [List.mem_singleton.mp he'] at hsame
        exact absurd hsame (hfresh e he)
    · rcases List.mem_append.mp he' with he' | he'
      · rw [List.mem_singleton.mp he] at hsame
        exact absurd hsame.symm (hfresh e' he')
      · rw [List.mem_singleton.mp he, List.mem_singleton.mp he']
  · obtain ⟨e, he, hstored⟩ := h.stored id content mime hobject
    exact ⟨e, hmem e he, hstored⟩
  · obtain ⟨e, he, hbuilt⟩ := h.open_ key bucket hb m hm
    exact ⟨e, hmem e he, hbuilt⟩
  · obtain ⟨e, he, hbuilt⟩ := h.handed b hb m hm media hmedia
    exact ⟨e, hmem e he, hbuilt⟩

theorem MediaInv.download (h : MediaInv service accepted s)
    (he : (handling, parsed) ∈ accepted) :
    MediaInv service accepted (service.download handling parsed s).2 := by
  obtain ⟨world, downloads, hstate⟩ := IngestionService.download_eq service handling s parsed
  have hcases := download_cases service handling parsed s
  rw [hstate] at hcases ⊢
  refine ⟨h.claimed, h.distinct, fun id content mime hobject => ?_, h.open_, h.handed⟩
  rcases hcases with ⟨media, hstores, -, hworld⟩ | ⟨-, hworld⟩
  · have hstorage : world.storage = Function.update s.world.storage
        (inboundKey parsed.whatsappId) (some (media.content, media.mimeType)) := by
      exact congrArg World.storage hworld
    have hobject : world.storage (inboundKey id) = some (content, mime) := hobject
    rw [hstorage, Function.update_apply] at hobject
    split_ifs at hobject with hkey
    · obtain ⟨rfl, rfl⟩ := Prod.mk.inj (Option.some.inj hobject)
      exact ⟨_, he, (inboundKey_injective hkey).symm, hstores⟩
    · exact h.stored id content mime hobject
  · have hstorage : world.storage = s.world.storage := congrArg World.storage hworld
    exact h.stored id content mime (hstorage ▸ hobject)

theorem MediaInv.accept (h : MediaInv service accepted s) (hnew : parsed.whatsappId ∉ s.seen) :
    MediaInv service (accepted ++ [(handling, parsed)])
      (service.accept handling parsed now s).2 := by
  have he : (handling, parsed) ∈ accepted ++ [(handling, parsed)] :=
    List.mem_append_right _ (List.mem_singleton_self _)
  have hdownloaded : MediaInv service (accepted ++ [(handling, parsed)]) (service.download handling
      parsed ((s.claim parsed).resolved service.registry parsed)).2 := (h.claim hnew).download he
  unfold IngestionService.accept
  generalize (s.claim parsed).resolved service.registry parsed = s₁ at hdownloaded ⊢
  have hkey := download_cases service handling parsed s₁
  dsimp only
  split
  · exact hdownloaded
  next message hmessage =>
    refine hdownloaded.addMessage ⟨_, he, ?_⟩
    obtain ⟨hid, hrawRef⟩ := messageOf_eq hmessage
    obtain ⟨hmediaId, hmime⟩ := messageOf_fields hmessage
    refine ⟨hid, succeeds_messageOf.mp ⟨message, hmessage⟩, hmediaId, hmime, fun key hk => ?_⟩
    rw [hrawRef] at hk
    rcases hkey with ⟨media, -, hsome, -⟩ | ⟨hnone, -⟩
    · rw [hsome] at hk
      rw [hid]
      exact (Option.some.inj hk).symm
    · rw [hnone] at hk
      cases hk

/-! ### Calls -/

section calls

variable {handling : ℕ → Handling}

theorem MediaInv.acceptAll : ∀ {n : ℕ} {messages : List ParsedMessage} {accepted : List Acceptance}
    {s : State}, MediaInv service accepted s →
      MediaInv service (accepted ++ service.acceptancesAll handling now n messages s)
        (service.acceptAll handling now n messages s).2
  | _, [], accepted, _, h => by
    rw [IngestionService.acceptancesAll, List.append_nil]
    exact h
  | n, parsed :: rest, accepted, s, h => by
    rw [IngestionService.acceptancesAll, IngestionService.acceptAll]
    by_cases hmem : parsed.whatsappId ∈ s.seen
    · rw [if_pos hmem, if_pos hmem]
      exact h.acceptAll
    · rw [if_neg hmem, if_neg hmem]
      have hone : MediaInv service (accepted ++ [(handling n, parsed)])
        (service.accept (handling n) parsed now s).2 := h.accept hmem
      rcases haccept : service.accept (handling n) parsed now s with ⟨_ | _, s'⟩
      · rw [haccept] at hone
        exact hone
      · rw [haccept] at hone
        have hrest : MediaInv service
            ((accepted ++ [(handling n, parsed)]) ++
              service.acceptancesAll handling now (n + 1) rest s')
            (service.acceptAll handling now (n + 1) rest s').2 := hone.acceptAll
        rw [List.append_assoc] at hrest
        exact hrest

theorem MediaInv.processAll {n : ℕ} {due : List AggregatedRequest} (h : MediaInv service accepted s)
    (hbuilt : ∀ aggregated ∈ due, ∀ m ∈ aggregated.messages, ∃ e ∈ accepted, BuiltBy e m) :
    MediaInv service accepted (service.processAll handling now n due s).2 := by
  refine service.processAll_inv (I := fun s => MediaInv service accepted s)
    (Q := fun aggregated _ => ∀ m ∈ aggregated.messages, ∃ e ∈ accepted, BuiltBy e m) ?_ ?_ h hbuilt
  · intro handling aggregated s hs hbuilt
    exact hs.process hbuilt
  · intro handling aggregated other s hbuilt
    exact hbuilt

theorem MediaInv.flushDue (h : MediaInv service accepted s) :
    MediaInv service accepted (service.flushDue now handling s).2 := by
  unfold IngestionService.flushDue
  refine MediaInv.processAll ⟨h.claimed, h.distinct, h.stored, fun key bucket hb => ?_, h.handed⟩
    fun aggregated ha => ?_
  · exact h.open_ key bucket (Aggregator.open_of_flushDue hb)
  · obtain ⟨key, bucket, hopen, rfl⟩ := Aggregator.open_of_mem_flushDue ha
    exact h.open_ key bucket hopen

/-- **A call keeps what is known about the media**, its acceptances added. -/
theorem MediaInv.step {input : Input} (h : MediaInv service accepted s) :
    MediaInv service (accepted ++ service.acceptances s input) (service.step s input) := by
  cases input with
  | flushDue now handling =>
    rw [IngestionService.acceptances, List.append_nil]
    exact h.flushDue
  | receive rawBody header now wall handling =>
    unfold IngestionService.step IngestionService.answer IngestionService.receive
      IngestionService.acceptances
    dsimp only
    cases hmessages : service.messagesOf rawBody header wall with
    | error exc =>
      rw [List.append_nil]
      exact h
    | ok messages => exact h.acceptAll

theorem MediaInv.initial : MediaInv service [] State.initial where
  claimed _ h := by cases h
  distinct _ h := by cases h
  stored _ _ _ h := by cases h
  open_ _ _ h := by cases h
  handed _ h := by cases h

theorem MediaInv.run (service : IngestionService) (inputs : List Input) :
    MediaInv service (service.acceptedIn (history service.step State.initial inputs))
      (run service.step State.initial inputs) := by
  refine history_inv (C := fun _ _ => True)
    (J := fun s h => MediaInv service (service.acceptedIn h) s) (fun s h input hinv _ => ?_)
    MediaInv.initial (along_iff.mpr fun _ _ _ _ => trivial)
  have haccepted : service.acceptedIn (h ++ [(s, input)]) =
      service.acceptedIn h ++ service.acceptances s input := by
    simp [IngestionService.acceptedIn]
  rw [haccepted]
  exact hinv.step

end calls

theorem Stores.checked_of_declared {media : DownloadedMedia} {mime : String}
    (h : Stores service e ⟨media.content, mime⟩) (hbuilt : BuiltBy e m)
    (htype : media.mimeType = typeOf m.mimeType) (hdeclared : Declared service e) :
    ∃ mediaId, m.mediaId = some mediaId ∧
      service.downloader.Checked e.1.source mediaId media := by
  have hsame : typeOf m.mimeType = mime := hdeclared _ h hbuilt.valid _ hbuilt.mimeType
  have hmedia : (⟨media.content, mime⟩ : DownloadedMedia) = media := by
    rw [← hsame, ← htype]
  obtain ⟨-, hsome, hchecked, -⟩ := h
  rw [hmedia] at hchecked
  have hid := hbuilt.mediaId
  cases hpayload : e.2.mediaId with
  | str mediaId =>
    rw [hpayload] at hid hchecked
    exact ⟨mediaId, (Option.some.inj hid).symm, hchecked⟩
  | null =>
    rw [hpayload] at hsome
    cases hsome
  | _ =>
    rw [hpayload] at hid
    cases hid

/-- **Media is processed as it was validated**, in a run where the payload of every accepted file names
the type that the media client reports. -/
theorem as_checked_run (service : IngestionService) (inputs : List Input)
    (hdeclared : ∀ e ∈ service.acceptedIn (history service.step State.initial inputs),
      Declared service e) :
    ∀ b ∈ (run service.step State.initial inputs).handed,
      AsChecked service (service.acceptedIn (history service.step State.initial inputs)) b := by
  intro b hb m hm media hmedia
  obtain ⟨e, he, hbuilt, htype, mime, hstores⟩ :=
    (MediaInv.run service inputs).handed b hb m hm media hmedia
  exact ⟨e, he, hbuilt.id.symm, hstores.checked_of_declared hbuilt htype (hdeclared e he)⟩

end provenance

open Sample Orchestrator.Sample in
/-- A photo whose payload names the type that the media client reports. -/
theorem as_checked_run_photo :
    (run photoService.step State.initial (photographed fun _ => .ok ())).handed.length = 1 ∧
      ∀ b ∈ (run photoService.step State.initial (photographed fun _ => .ok ())).handed,
        AsChecked photoService (photoService.acceptedIn
          (history photoService.step State.initial (photographed fun _ => .ok ()))) b := by
  refine ⟨?_, as_checked_run photoService _ fun e he => ?_⟩
  · rw [photographed, run_cons, run_cons, run_nil, step_photo]
    decide +kernel
  · have haccepted : e = (handling, parsedPhoto) := by
      obtain ⟨entry, hentry, he⟩ := List.mem_flatMap.mp he
      unfold photographed received at hentry
      rcases List.mem_cons.mp hentry with rfl | hentry
      · unfold IngestionService.acceptances at he
        dsimp only at he
        rw [messagesOf_photo] at he
        dsimp only at he
        rw [IngestionService.acceptancesAll, if_neg (show parsedPhoto.whatsappId ∉
          State.initial.seen from Finset.notMem_empty _)] at he
        rcases List.mem_cons.mp he with rfl | he
        · rfl
        · split at he <;> cases he
      · rw [List.mem_singleton.mp hentry] at he
        cases he
    subst haccepted
    intro media hstores _ mime hmime
    rw [← Except.ok.inj hstores.checked.downloaded, ← Option.some.inj hmime]
    rfl

/-! ### A photo whose payload names no type -/

namespace Sample

open Orchestrator.Sample

/-- A photo without a type. -/
def bareMessage : Json :=
  .obj [("id", .str "wamid.1"), ("from", .str "15551230000"), ("timestamp", .int 1781179200),
    ("type", .str "image"), ("image", .obj [("id", .str "media-1")])]

def parsedBare : ParsedMessage := { parsedPhoto with mimeType := .null }

/-- A service that receives the photo. -/
def bareService : IngestionService := service [("bare", webhook [bareMessage])]

/-- The photo, and a tick after its window. -/
def bareRun : List Input :=
  [received "bare" start, .flushDue (start + seconds 600) fun _ =>
    { handling with env := external (classifierText .none) }]

/-- What the run leaves. -/
def bareDone : State :=
  (bareService.flushDue (start + seconds 600)
    (fun _ => { handling with env := external (classifierText .none) })
    (bareService.acceptAll (fun _ => handling) start 0 [parsedBare] State.initial).2).2

theorem run_bare : run bareService.step State.initial bareRun = bareDone := by
  have h : bareService.answer State.initial (received "bare" start) =
      bareService.acceptAll (fun _ => handling) start 0 [parsedBare] State.initial :=
    answer_received (P := webhook [bareMessage]) (R := ⟨[parsedBare], []⟩) rfl rfl rfl
      State.initial
  unfold bareRun bareDone
  rw [run_cons, run_cons, run_nil]
  unfold IngestionService.step
  rw [h]
  rfl

end Sample

open Sample Orchestrator.Sample in
/-- The media client reports an image, which is allowed; the file is handed under the default type,
which is not. -/
theorem default_type_unchecked :
    ¬∀ b ∈ (run bareService.step State.initial bareRun).handed,
      AsChecked bareService
        (bareService.acceptedIn (history bareService.step State.initial bareRun)) b := by
  rw [run_bare]
  intro h
  have hmedia : (bareDone.handed.map fun b => b.aggregated.messages.map fun m => b.media m.id) =
      [[some ⟨utf8 "JPEG", defaultMime⟩]] := by decide +kernel
  obtain ⟨b, hhanded, hb⟩ := List.map_eq_singleton_iff.mp hmedia
  obtain ⟨m, hmessages, hm⟩ := List.map_eq_singleton_iff.mp hb
  have hb : b ∈ bareDone.handed := by
    rw [hhanded]
    exact List.mem_singleton_self b
  have hmem : m ∈ b.aggregated.messages := by
    rw [hmessages]
    exact List.mem_singleton_self m
  obtain ⟨e, -, -, mediaId, -, hchecked⟩ := h b hb m hmem _ hm
  have hallowed : bareService.downloader.allowed.any (startsWith defaultMime) = false := by
    decide +kernel
  exact Bool.false_ne_true (hallowed.symm.trans hchecked.mime)

end WappPlanner.Ingestion
