/-!
The settings of a loader and of a packer.
-/

namespace Reload

structure Settings where
  /-- The largest size in bytes of a source unit that is packed. -/
  maxUnitSize : Nat := 1048576
  /-- Whether the path that a unit declares has to be the path of its name. -/
  strictNames : Bool := false
  /-- The host API level written into every image. -/
  minHostApi : UInt16 := 26
  /-- Whether definitions of one name wait for each other. Without it the last to publish wins. -/
  serialize : Bool := false
  deriving DecidableEq

namespace Settings

/-- Whether a unit of this size is too large to be packed. -/
def isOversized (settings : Settings) (size : Nat) : Bool :=
  settings.maxUnitSize < size

def describe (settings : Settings) : String :=
  "LoaderConfig \x7b max_unit_size: " ++ toString settings.maxUnitSize
    ++ ", strict_name_check: " ++ toString settings.strictNames
    ++ ", min_host_api: " ++ toString settings.minHostApi
    ++ ", serialize_redefinitions: " ++ toString settings.serialize ++ " \x7d"

end Settings

end Reload
