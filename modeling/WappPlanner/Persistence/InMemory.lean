import Mathlib.Logic.Function.Basic
import WappPlanner.Domain.Models

/-! # The in-memory repository

Its four dictionaries as finite maps from keys, the empty list standing for an absent list.
`recordInteraction` is the idempotency guard of owner responses: it answers `false` for an id it has
seen. -/

namespace WappPlanner.Persistence.InMemory

open WappPlanner.Domain.Models

/-- Process-local repository backed by dictionaries. -/
structure Repository where
  requests : String → Option Request
  messages : String → List Message
  revisions : String → List DocumentRevision
  interactions : String → Option OwnerInteraction

namespace Repository

/-- `InMemoryRequestRepository()`. -/
def empty : Repository := ⟨fun _ => none, fun _ => [], fun _ => [], fun _ => none⟩

variable (repo : Repository)

def saveRequest (request : Request) : Repository :=
  { repo with requests := Function.update repo.requests request.id (some request) }

def getRequest (requestId : String) : Option Request := repo.requests requestId

def setMessages (requestId : String) (messages : List Message) : Repository :=
  { repo with messages := Function.update repo.messages requestId messages }

def addRevision (revision : DocumentRevision) : Repository :=
  { repo with
    revisions := Function.update repo.revisions revision.requestId
      (repo.revisions revision.requestId ++ [revision]) }

def getRevisions (requestId : String) : List DocumentRevision := repo.revisions requestId

def latestRevision (requestId : String) : Option DocumentRevision :=
  (repo.revisions requestId).getLast?

/-- Record an owner interaction; `false` if its id was already seen. -/
def recordInteraction (interaction : OwnerInteraction) : Bool × Repository :=
  if (repo.interactions interaction.id).isSome then (false, repo)
  else
    (true, { repo with
      interactions := Function.update repo.interactions interaction.id (some interaction) })

@[simp] theorem messages_saveRequest (request : Request) :
    (repo.saveRequest request).messages = repo.messages := rfl

@[simp] theorem revisions_saveRequest (request : Request) :
    (repo.saveRequest request).revisions = repo.revisions := rfl

@[simp] theorem interactions_saveRequest (request : Request) :
    (repo.saveRequest request).interactions = repo.interactions := rfl

@[simp] theorem requests_setMessages (rid : String) (messages : List Message) :
    (repo.setMessages rid messages).requests = repo.requests := rfl

@[simp] theorem revisions_setMessages (rid : String) (messages : List Message) :
    (repo.setMessages rid messages).revisions = repo.revisions := rfl

@[simp] theorem interactions_setMessages (rid : String) (messages : List Message) :
    (repo.setMessages rid messages).interactions = repo.interactions := rfl

@[simp] theorem requests_addRevision (revision : DocumentRevision) :
    (repo.addRevision revision).requests = repo.requests := rfl

@[simp] theorem messages_addRevision (revision : DocumentRevision) :
    (repo.addRevision revision).messages = repo.messages := rfl

@[simp] theorem interactions_addRevision (revision : DocumentRevision) :
    (repo.addRevision revision).interactions = repo.interactions := rfl

@[simp] theorem requests_saveRequest (request : Request) (rid : String) :
    (repo.saveRequest request).requests rid =
      if rid = request.id then some request else repo.requests rid := by
  unfold saveRequest
  simp only [Function.update_apply]

@[simp] theorem revisions_addRevision (revision : DocumentRevision) (rid : String) :
    (repo.addRevision revision).revisions rid =
      if rid = revision.requestId then repo.revisions rid ++ [revision]
      else repo.revisions rid := by
  unfold addRevision
  simp only [Function.update_apply]
  split_ifs with h
  · rw [h]
  · rfl

variable {repo} {interaction : OwnerInteraction}

theorem recordInteraction_fresh (h : repo.interactions interaction.id = none) :
    repo.recordInteraction interaction =
      (true, { repo with
        interactions :=
          Function.update repo.interactions interaction.id (some interaction) }) := by
  simp [recordInteraction, h]

theorem recordInteraction_seen (h : repo.interactions interaction.id ≠ none) :
    repo.recordInteraction interaction = (false, repo) := by
  obtain ⟨i, hi⟩ := Option.ne_none_iff_exists'.mp h
  simp [recordInteraction, hi]

theorem recordInteraction_comm {i j : OwnerInteraction} (hne : i.id ≠ j.id) :
    (repo.recordInteraction i).2.recordInteraction j =
      ((repo.recordInteraction j).1, ((repo.recordInteraction j).2.recordInteraction i).2) := by
  by_cases hi : repo.interactions i.id = none
  · by_cases hj : repo.interactions j.id = none
    · rw [recordInteraction_fresh hi, recordInteraction_fresh hj, recordInteraction_fresh,
        recordInteraction_fresh]
      · simp only [Function.update_comm hne]
      · exact (Function.update_of_ne hne _ _).trans hi
      · exact (Function.update_of_ne hne.symm _ _).trans hj
    · rw [recordInteraction_fresh hi, recordInteraction_seen hj, recordInteraction_fresh hi,
        recordInteraction_seen]
      exact fun h => hj ((Function.update_of_ne hne.symm _ _).symm.trans h)
  · by_cases hj : repo.interactions j.id = none
    · rw [recordInteraction_seen hi, recordInteraction_fresh hj, recordInteraction_seen]
      exact fun h => hi ((Function.update_of_ne hne _ _).symm.trans h)
    · rw [recordInteraction_seen hi, recordInteraction_seen hj, recordInteraction_seen hi]

variable (repo) in
/-- The repository, timestamps of requests and revisions aside. -/
def untimed : Repository :=
  { repo with
    requests := fun rid => (repo.requests rid).map Request.untimed
    revisions := fun rid => (repo.revisions rid).map DocumentRevision.untimed }

end Repository

end WappPlanner.Persistence.InMemory
