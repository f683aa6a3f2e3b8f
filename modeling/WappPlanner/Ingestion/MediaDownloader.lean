import WappPlanner.Orchestrator.Program

/-! # Inbound media

`ingestion/media_downloader.py`: a file is downloaded, its type and its size are checked, and only
then is it stored. -/

namespace WappPlanner.Ingestion

open WappPlanner.Errors WappPlanner.Orchestrator WappPlanner.Providers.Base WappPlanner.Py.Text
open WappPlanner.Py.Values

/-- The prefixes of the types accepted by default. -/
def defaultAllowedMimePrefixes : List String :=
  ["audio/", "video/", "image/", "application/pdf", "text/"]

/-- Reference to media that has been downloaded and stored. -/
structure StoredMedia where
  key : String
  ref : String
  mimeType : String
  size : ℕ
  deriving DecidableEq

/-- The bounds of a downloader. -/
structure MediaDownloader where
  maxBytes : ℤ
  allowed : List String

/-- What the media client and the storage answer to one download. -/
structure MediaSource where
  download : (mediaId : String) → Answer DownloadedMedia
  put : (key : String) → Answer Unit

/-- `s.startswith(prefix)`. -/
def startsWith (s pre : String) : Bool := pre.toList.isPrefixOf s.toList

namespace MediaDownloader

variable (downloader : MediaDownloader) (T : Tables)

def checkMime (mimeType : String) : Except Exn Unit :=
  if downloader.allowed.any (startsWith mimeType) then .ok ()
  else .error (.mediaRejected ("disallowed media type: " ++ reprText T mimeType))

/-- Download a file, validate it and store it. -/
def fetchAndStore (storageRef : String → String) (source : MediaSource)
    (requestId messageId mediaId : String) (w : World) : Except Exn StoredMedia × World :=
  match source.download mediaId with
  | .error text => (.error (.external text), w)
  | .ok media =>
    match downloader.checkMime T media.mimeType with
    | .error exc => (.error exc, w)
    | .ok () =>
      if downloader.maxBytes < media.content.length then
        (.error (.mediaTooLarge ("media " ++ natText media.content.length ++
          " bytes exceeds cap " ++ intText downloader.maxBytes)), w)
      else
        let key := requestId ++ "/" ++ messageId
        match source.put key with
        | .error text => (.error (.external text), w)
        | .ok () => (.ok ⟨key, storageRef key, media.mimeType, media.content.length⟩,
            w.stored key media.content media.mimeType)

/-- The media client gives the file for the media id, its type is allowed and its size within the
cap. -/
structure Checked (source : MediaSource) (mediaId : String) (media : DownloadedMedia) : Prop where
  downloaded : source.download mediaId = .ok media
  mime : downloader.allowed.any (startsWith media.mimeType) = true
  size : (media.content.length : ℤ) ≤ downloader.maxBytes

/-- **What a download does**: nothing, or it stores its file, which was checked, under its key. -/
theorem fetchAndStore_cases (storageRef : String → String) (source : MediaSource)
    (requestId messageId mediaId : String) (w : World) :
    (∃ exc, downloader.fetchAndStore T storageRef source requestId messageId mediaId w =
      (.error exc, w)) ∨
    ∃ media, downloader.Checked source mediaId media ∧
      source.put (requestId ++ "/" ++ messageId) = .ok () ∧
      downloader.fetchAndStore T storageRef source requestId messageId mediaId w =
        (.ok ⟨requestId ++ "/" ++ messageId, storageRef (requestId ++ "/" ++ messageId),
            media.mimeType, media.content.length⟩,
          w.stored (requestId ++ "/" ++ messageId) media.content media.mimeType) := by
  unfold fetchAndStore checkMime
  cases hmedia : source.download mediaId with
  | error text => exact .inl ⟨_, rfl⟩
  | ok media =>
    dsimp only
    by_cases hmime : downloader.allowed.any (startsWith media.mimeType) = true
    · rw [if_pos hmime]
      dsimp only
      by_cases hsize : downloader.maxBytes < media.content.length
      · rw [if_pos hsize]
        exact .inl ⟨_, rfl⟩
      · rw [if_neg hsize]
        cases hput : source.put (requestId ++ "/" ++ messageId) with
        | error text => exact .inl ⟨_, rfl⟩
        | ok _ => exact .inr ⟨media, ⟨hmedia, hmime, by omega⟩, rfl, rfl⟩
    · rw [if_neg hmime]
      exact .inl ⟨_, rfl⟩

/-- **What a download leaves**: nothing, or its file under its key. -/
theorem fetchAndStore_world (storageRef : String → String) (source : MediaSource)
    (requestId messageId mediaId : String) (w : World) :
    (downloader.fetchAndStore T storageRef source requestId messageId mediaId w).2 = w ∨
      ∃ content mime,
        (downloader.fetchAndStore T storageRef source requestId messageId mediaId w).2 =
          w.stored (requestId ++ "/" ++ messageId) content mime := by
  rcases downloader.fetchAndStore_cases T storageRef source requestId messageId mediaId w with
    ⟨exc, h⟩ | ⟨media, -, -, h⟩
  · rw [h]
    exact .inl rfl
  · rw [h]
    exact .inr ⟨media.content, media.mimeType, rfl⟩

theorem fetchAndStore_ok {storageRef : String → String} {source : MediaSource}
    {requestId messageId mediaId : String} {w : World} {media : StoredMedia}
    (h : (downloader.fetchAndStore T storageRef source requestId messageId mediaId w).1 =
      .ok media) :
    ∃ content mime,
      (downloader.fetchAndStore T storageRef source requestId messageId mediaId w).2 =
        w.stored media.key content mime := by
  rcases downloader.fetchAndStore_cases T storageRef source requestId messageId mediaId w with
    ⟨exc, hfetch⟩ | ⟨got, -, -, hfetch⟩
  · rw [hfetch] at h
    cases h
  · rw [hfetch] at h ⊢
    rw [← Except.ok.inj h]
    exact ⟨got.content, got.mimeType, rfl⟩

end MediaDownloader

end WappPlanner.Ingestion
