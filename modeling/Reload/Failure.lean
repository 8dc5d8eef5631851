import Reload.Name

/-!
Why a step of loading fails, and why a definition fails. Each cause has one message.
-/

namespace Reload

/-- No resolver that was asked knows the name. -/
structure NotFound where
  name : Name
  deriving DecidableEq

def NotFound.message (missing : NotFound) : String :=
  "code unit not found: " ++ missing.name.text

/-- The cause for which one step of loading a unit fails. -/
inductive Failure where
  /-- The packer refused the unit. -/
  | packing (reason : String)
  /-- The unit is larger than the settings allow. -/
  | unitTooLarge (size max : Nat)
  /-- The host built no context from the image. -/
  | instantiation (reason : String)
  /-- The context loaded, but gave no artifact. -/
  | emptyResult
  /-- Neither the image of the context nor its parent has the name. -/
  | notFound (missing : NotFound)
  /-- The thread is defining another unit, or this one. -/
  | inFlight (running : Name)
  /-- The text is not the name of a unit. -/
  | invalidName (invalid : InvalidName)
  deriving DecidableEq

namespace Failure

def message : Failure → String
  | packing reason => "translation failed: " ++ reason
  | unitTooLarge size max =>
    "code unit too large: " ++ toString size ++ " bytes (max " ++ toString max ++ ")"
  | instantiation reason => "instantiation failed: " ++ reason
  | emptyResult => "empty load result"
  | notFound missing => missing.message
  | inFlight running => "definition of " ++ running.text ++ " already in flight on this thread"
  | invalidName invalid => invalid.message

def kind : Failure → String
  | packing _ => "Translation"
  | unitTooLarge _ _ => "UnitTooLarge"
  | instantiation _ => "Instantiation"
  | emptyResult => "EmptyResult"
  | notFound _ => "NotFound"
  | inFlight _ => "DefinitionInFlight"
  | invalidName _ => "InvalidName"

def describe : Failure → String
  | packing reason => "Translation(" ++ Text.quoted reason ++ ")"
  | unitTooLarge size max =>
    "UnitTooLarge \x7b size: " ++ toString size ++ ", max: " ++ toString max ++ " \x7d"
  | instantiation reason => "Instantiation(" ++ Text.quoted reason ++ ")"
  | emptyResult => "EmptyResult"
  | notFound missing => "NotFound(NotFound(" ++ missing.name.describe ++ "))"
  | inFlight running => "DefinitionInFlight \x7b in_flight: " ++ running.describe ++ " \x7d"
  | invalidName invalid => "InvalidName(" ++ Text.quoted invalid.text ++ ")"

/-- Whether the unit itself was refused, and not by the host. -/
def blamesUnit : Failure → Bool
  | packing _ | unitTooLarge _ _ => true
  | instantiation _ | emptyResult | notFound _ | inFlight _ | invalidName _ => false

/-- The message of what lies behind a failure. Every failure is the whole story by itself. -/
def source? : Failure → Option String := fun _ => none

end Failure

/-- A definition that failed: the name, and the cause of the step that failed. -/
structure DefinitionFailure where
  name : Name
  cause : Failure
  deriving DecidableEq

namespace DefinitionFailure

/-- The message of a failed definition ends with that of its cause. -/
def message (failure : DefinitionFailure) : String :=
  "failed to define " ++ failure.name.text ++ ": " ++ failure.cause.message

/-- Whether the unit itself was refused, and not by the host. -/
def blamesUnit (failure : DefinitionFailure) : Bool :=
  failure.cause.blamesUnit

/-- The message of what lies behind a failed definition: that of its cause. -/
def source? (failure : DefinitionFailure) : Option String :=
  some failure.cause.message

end DefinitionFailure

end Reload
