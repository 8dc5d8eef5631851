import Reload.Host

/-!
The host that keeps units in memory. Each image gets a context of its own. The context asks its
parent first, and loads its own unit only if the parent does not know the name; it builds that
artifact once, and holds it from then on.
-/

namespace Reload

/-- The API level of a host that was given none. -/
def defaultHostApi : UInt16 := 26

/-- A context that holds the one unit of an image. -/
structure MemoryContext where
  id : ContextId
  parent : Resolver
  unit : Name
  body : Bytes
  imageSize : Nat

namespace MemoryContext

def retain (context : MemoryContext) (w : World) : World :=
  context.parent.retain { w with contexts := context.id :: w.contexts }

/-- The context of an image in a host of this API level, with one reference for the caller. The
    bytes are checked first, then the API level, then the name. -/
def instantiate (hostApi : UInt16) (image : Bytes) (parent : Resolver) (w : World) :
    Except Failure MemoryContext × World :=
  match Image.decode image with
  | .error defect => (.error (.instantiation defect.message), w)
  | .ok decoded =>
    if hostApi < decoded.api then
      (.error (.instantiation ("image requires host API " ++ toString decoded.api.toNat
        ++ " but host provides " ++ toString hostApi.toNat)), w)
    else
      match Name.ofText decoded.name with
      | .error invalid => (.error (.instantiation invalid.message), w)
      | .ok unit =>
        let context : MemoryContext :=
          { id := ⟨w.nextContext⟩, parent, unit, body := decoded.body, imageSize := image.length }
        (.ok context, context.retain { w with nextContext := w.nextContext + 1 })

/-- The context's own artifact, with one more strong reference for the caller. It is built when it
    is first asked for. -/
def own (context : MemoryContext) (w : World) : Artifact × World :=
  match w.built context.id with
  | some artifact => (artifact, w.retain artifact)
  | none =>
    let (artifact, w) := w.create context.unit context.imageSize (.body context.body)
    (artifact, { w with built := replace w.built context.id (some artifact) }.retain artifact)

/-- The artifact under a name: the parent's, or else the context's own if the name is that of its
    unit. -/
def load (context : MemoryContext) (thread : ThreadId) (name : Name) (w : World) :
    Except Failure Artifact × World :=
  match context.parent.resolve thread name w with
  | (.ok artifact, w) => (.ok artifact, w)
  | (.error missing, w) =>
    if name = context.unit then
      let (artifact, w) := context.own w
      (.ok artifact, w)
    else (.error (.notFound missing), w)

/-- Takes one reference to a context away. With the last one the context lets go of its own
    artifact. -/
def close (context : MemoryContext) (w : World) : World :=
  let w := context.parent.release { w with contexts := w.contexts.erase context.id }
  if context.id ∈ w.contexts then w
  else
    match w.built context.id with
    | some artifact => { w with built := replace w.built context.id none }.release artifact
    | none => w

def describe (context : MemoryContext) (w : World) : String :=
  let loaded := match w.built context.id with
    | some artifact => "Some(" ++ artifact.describeId ++ ")"
    | none => "None"
  "InMemoryContext \x7b unit_name: " ++ context.unit.describe
    ++ ", image_size: " ++ toString context.imageSize ++ ", loaded: " ++ loaded ++ " \x7d"

end MemoryContext

def Host.memory {ρ : Type} (api : UInt16) : Host ρ MemoryContext where
  instantiate _ image parent :=
    ExceptT.mk (Action.onWorld fun w => MemoryContext.instantiate api image parent w)
  load thread context name :=
    some <$> ExceptT.mk (Action.onWorld fun w => context.load thread name w)
  close context w := context.close w

end Reload
