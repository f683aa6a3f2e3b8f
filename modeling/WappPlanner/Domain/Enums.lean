/-! # The vocabulary of the domain

The enumerations of `domain/enums.py` that the modelled code reads. -/

namespace WappPlanner.Domain.Enums

/-- A communication channel for what is sent to the owner. -/
inductive Channel
  | email
  | whatsapp
  | both
  deriving DecidableEq, Repr

namespace Channel

def value : Channel → String
  | email => "email"
  | whatsapp => "whatsapp"
  | both => "both"

/-- Whether sending on `self` reaches the single channel `other`. -/
def includes (self other : Channel) : Bool := self = both || self = other

end Channel

/-- The single channels, in the order messages are sent. -/
def concreteChannels : List Channel := [.email, .whatsapp]

/-- Per-message outcome of media processing. -/
inductive ProcessingStatus
  | pending
  | processed
  | unprocessable
  deriving DecidableEq, Repr

/-- Which gate an owner response belongs to. -/
inductive OwnerInteractionKind
  | classification
  | approval
  deriving DecidableEq, Repr

/-- The decision an owner conveyed at a gate. -/
inductive OwnerDecision
  | confirm
  | correct
  | reject
  | approve
  | revise
  deriving DecidableEq, Repr

end WappPlanner.Domain.Enums
