import Reload.Action
import Reload.Resolver
import Reload.Packing

/-!
Packers turn source units into images; hosts turn images into execution contexts, which load
artifacts. Both are actions, so they may do anything in between, also call loaders again.
-/

namespace Reload

/-- An action on the shared state that may fail. -/
abbrev Attempt (ρ α : Type) : Type := ExceptT Failure (Action (System ρ)) α

/-- What turns the raw bytes of a unit into the image of a name. -/
structure Packer (ρ : Type) where
  pack : ThreadId → Name → Bytes → Attempt ρ Bytes

/-- What builds execution contexts of type `κ` from images. -/
structure Host (ρ κ : Type) where
  /-- Builds a context from an image. The context asks the parent for names. -/
  instantiate : ThreadId → (image : Bytes) → (parent : Resolver) → Attempt ρ κ
  /-- Loads a name in a context. A context may give no artifact without failing. -/
  load : ThreadId → κ → Name → Attempt ρ (Option Artifact)
  close : κ → World → World

def Packer.standard {ρ : Type} (settings : Settings) : Packer ρ where
  pack _ name raw := ExceptT.mk (pure (settings.pack name raw))

end Reload
