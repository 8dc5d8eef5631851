import Reload.Text.Quoted

/-!
Names of code units. A name is a dotted text such as `pkg.sub.Foo`, made of segments that are
not empty. A unit addressed by path has the same segments between slashes and an extension at
the end, such as `pkg/sub/Foo.unit`. Names compare by their text alone: `pkg.Foo` and `pkg/Foo`
are different names.
-/

namespace Reload

/-- A text that is not the name of a code unit. -/
structure InvalidName where
  text : String
  deriving DecidableEq

def InvalidName.message (invalid : InvalidName) : String :=
  "invalid code unit name: " ++ Text.quoted invalid.text

namespace Name

/-- The parts of a text between its dots; the empty text has one empty segment. -/
def segments (text : String) : List (List Char) :=
  text.toList.splitOn '.'

/-- A name has no empty segment. The empty text is one empty segment, so it is no name. -/
def Valid (text : String) : Prop :=
  ∀ segment ∈ segments text, segment ≠ []

instance (text : String) : Decidable (Valid text) :=
  inferInstanceAs (Decidable (∀ segment ∈ segments text, segment ≠ []))

end Name

/-- The name of a code unit. -/
structure Name where
  text : String
  valid : Name.Valid text
  deriving DecidableEq

namespace Name

/-- The name with this text, unless a segment is empty. -/
def ofText (text : String) : Except InvalidName Name :=
  if valid : Valid text then .ok ⟨text, valid⟩ else .error ⟨text⟩

theorem ofText_text (name : Name) : ofText name.text = .ok name :=
  dif_pos name.valid

theorem ofText_eq_ok_iff {text : String} {name : Name} : ofText text = .ok name ↔ text = name.text := by
  constructor
  · intro named
    unfold ofText at named
    split at named
    · cases named
      rfl
    · cases named
  · rintro rfl
    exact ofText_text name

/-- The extension of a code unit addressed by path. -/
def extension : String := ".unit"

/-- A path less one extension at its end, if it has one. -/
def stem (path : List Char) : List Char :=
  if extension.toList.isSuffixOf path then path.take (path.length - extension.length) else path

/-- A text with every slash turned into a dot. -/
def dotted (path : List Char) : List Char :=
  path.map fun c => if c = '/' then '.' else c

/-- A text with every dot turned into a slash. -/
def slashed (text : List Char) : List Char :=
  text.map fun c => if c = '.' then '/' else c

/-- The name of the unit at a path; one extension at the end does not count. A refusal carries
    the dotted form of the path. -/
def ofPath (path : String) : Except InvalidName Name :=
  ofText (String.ofList (dotted (stem path.toList)))

/-- The path of a name: its segments between slashes, and the extension. -/
def path (name : Name) : String :=
  String.ofList (slashed name.text.toList) ++ extension

def describe (name : Name) : String :=
  "CodeName(" ++ Text.quoted name.text ++ ")"

/-- Names are ordered as their texts are, by code points. -/
instance : Ord Name := ⟨fun a b => compare a.text b.text⟩

end Name

end Reload
