import Reload.Artifact
import Reload.Failure

/-!
The events of the journal. An event has a level and named texts, one of which is its message.
-/

namespace Reload

/-- Something that happened while units were defined or resolved. -/
inductive Event where
  /-- A definition succeeded, and its publishing swept so many dead entries. -/
  | defined (name : Name) (artifact : Artifact) (swept : Nat)
  /-- A definition removed the entry of its name. -/
  | invalidated (name : Name)
  /-- A resolution was refused because the thread is defining the name. -/
  | refusedInFlight (name : Name)
  /-- A definition was refused because the thread is defining another unit, or this one. -/
  | refusedReentrant (name running : Name)
  /-- A definition failed. -/
  | failed (name : Name) (cause : Failure)
  deriving DecidableEq

/-- How much an event matters. -/
inductive Level where
  | error | warn | info | debug
  deriving DecidableEq

def Level.word : Level → String
  | error => "ERROR"
  | warn => "WARN"
  | info => "INFO"
  | debug => "DEBUG"

namespace Event

def level : Event → Level
  | defined _ _ _ => .info
  | invalidated _ | refusedInFlight _ => .debug
  | refusedReentrant _ _ => .warn
  | failed _ _ => .error

/-- The message of an event, the same for all events of its kind. -/
def message : Event → String
  | defined _ _ _ => "Defined code unit"
  | invalidated _ => "Invalidated cached definition"
  | refusedInFlight _ => "Refusing in-flight name, forcing load from fresh image"
  | refusedReentrant _ _ => "Refusing reentrant definition"
  | failed _ _ => "Failed to define code unit"

/-- The named texts of an event besides its message. -/
def fields : Event → List (String × String)
  | defined name artifact swept =>
    [("name", name.text), ("artifact_id", "#" ++ toString artifact.id.toNat),
     ("image_size", toString artifact.imageSize), ("swept", toString swept)]
  | invalidated name | refusedInFlight name => [("name", name.text)]
  | refusedReentrant name running => [("name", name.text), ("in_flight", running.text)]
  | failed name cause => [("name", name.text), ("error", cause.message)]

end Event

end Reload
