import WappPlanner.Workflow.Enums

/-! # Exceptions

The exceptions the modelled code raises itself, those its language raises on a value of the wrong
type, and `external`: whatever a call that leaves the program raised. `Exn.text` is the text the
code sees when it formats a caught exception. -/

namespace WappPlanner.Errors

open WappPlanner.Workflow.Enums

inductive Exn
  | unknownRequest (requestId : String)
  | illegalTransition (state : RequestState) (trigger : Trigger)
  | generation (text : String)
  | classification (text : String)
  | unknownPromptVersion (version : String)
  | missingNotifier (text : String)
  | invalidToken (text : String)
  | expiredToken (text : String)
  | signature (text : String)
  | webhookVerification (text : String)
  | invalidPayload (text : String)
  | mediaTooLarge (text : String)
  | mediaRejected (text : String)
  /-- `json.JSONDecodeError`. -/
  | jsonDecode (text : String)
  /-- pydantic's `ValidationError`. -/
  | validation (text : String)
  | valueError (text : String)
  | typeError (text : String)
  | attributeError (text : String)
  | keyError (text : String)
  | lookupError (text : String)
  | overflowError (text : String)
  | osError (text : String)
  | recursionError (text : String)
  | external (text : String)
  deriving DecidableEq, Repr

/-- `str(exc)`. -/
def Exn.text : Exn → String
  | unknownRequest requestId => requestId
  | illegalTransition state trigger =>
    "Illegal transition: " ++ state.value ++ " cannot handle '" ++ trigger.value ++ "'"
  | unknownPromptVersion version => version
  | generation text | classification text | missingNotifier text | invalidToken text
  | expiredToken text | signature text | webhookVerification text | invalidPayload text
  | mediaTooLarge text | mediaRejected text | jsonDecode text | validation text | valueError text
  | typeError text | attributeError text | keyError text | lookupError text | overflowError text
  | osError text | recursionError text | external text => text

/-- The two exceptions by which an owner action is refused. -/
def Exn.isRefusal : Exn → Bool
  | unknownRequest _ | illegalTransition _ _ => true
  | _ => false

/-- What a call that leaves the program answers; an error is the text of what it raised. -/
abbrev Answer (α : Type) := Except String α

/-- The answer as the program meets it. -/
def Answer.lift {α : Type} : Answer α → Except Exn α := Except.mapError .external

@[simp] theorem Answer.lift_ok {α : Type} (a : α) : Answer.lift (.ok a) = .ok a := rfl

@[simp] theorem Answer.lift_error {α : Type} (text : String) :
    (Answer.lift (.error text) : Except Exn α) = .error (.external text) := rfl

theorem Answer.lift_bind_ok {α β : Type} {x : Answer α} {f : α → Except Exn β} {b : β}
    (h : x.lift >>= f = .ok b) : ∃ a, x = .ok a ∧ f a = .ok b := by
  cases x with
  | ok a => exact ⟨a, rfl, h⟩
  | error text => cases h

theorem Answer.lift_bind_error {α β : Type} {x : Answer α} {f : α → Except Exn β} {exc : Exn}
    (h : x.lift >>= f = .error exc) : (∃ text, exc = .external text) ∨ ∃ a, f a = .error exc := by
  cases x with
  | error text => exact .inl ⟨text, (Except.error.inj h).symm⟩
  | ok a => exact .inr ⟨a, h⟩

end WappPlanner.Errors
