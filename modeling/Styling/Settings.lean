/-!
# Settings

The marks of the style syntax, and how slots are looked up and checked.
-/

namespace Styling

structure Settings where
  /-- A value that starts with this names an entry of the named values. -/
  referenceMark : String
  /-- Stands between statements. -/
  separator : String
  /-- Stands between a key and its value. -/
  keySeparator : String
  /-- Values must fit the declared types of slots. -/
  checkTypes : Bool
  /-- Top-level modules whose classes have no slots. -/
  boundaryModules : List String
deriving DecidableEq, Repr

def Settings.standard : Settings := ⟨"$", ";", ":", true, []⟩

/-- Settings that act alike: the boundary modules may be given in any order. -/
def Settings.same (a b : Settings) : Bool :=
  { a with boundaryModules := [] } = { b with boundaryModules := [] }
    && a.boundaryModules.all b.boundaryModules.contains
    && b.boundaryModules.all a.boundaryModules.contains

end Styling
