/-!
# Style errors

The errors that reading and applying styles can end with, from the general one to the special
ones. A caller that handles an error class also handles the classes under it.
-/

namespace Styling

/-- The classes of style errors. -/
inductive ErrorClass where
  /-- Any error about a style. -/
  | style
  /-- A style text is malformed. -/
  | malformed
  /-- The value in a statement is malformed. -/
  | badValue
  /-- No target knows the key. -/
  | unknownKey
  /-- The value cannot be written to the slot. -/
  | badAssignment
deriving DecidableEq, Repr

/-- The classes above a class, nearest first. -/
def ErrorClass.ancestors : ErrorClass → List ErrorClass
  | .style => []
  | .malformed => [.style]
  | .badValue => [.malformed, .style]
  | .unknownKey => [.style]
  | .badAssignment => [.style]

/-- A style error with what it carries. -/
inductive StyleError where
  | style (message : String)
  | malformed (message : String) (statement : Option String)
  | badValue (key value reason : String)
  | unknownKey (key : String)
  | badAssignment (message : String) (key : Option String)
deriving DecidableEq, Repr

namespace StyleError

def errorClass : StyleError → ErrorClass
  | .style _ => .style
  | .malformed _ _ => .malformed
  | .badValue _ _ _ => .badValue
  | .unknownKey _ => .unknownKey
  | .badAssignment _ _ => .badAssignment

def message : StyleError → String
  | .style message => message
  | .malformed message _ => message
  | .badValue key value reason =>
    "invalid value '" ++ value ++ "' for '" ++ key ++ "'"
      ++ (if reason.isEmpty then "" else ": " ++ reason)
  | .unknownKey key => "unknown style '" ++ key ++ "'"
  | .badAssignment message _ => message

/-- The statement at fault, of the errors that can name one. -/
def statement? : StyleError → Option (Option String)
  | .malformed _ statement => some statement
  | .badValue key value _ => some (some (key ++ ": " ++ value))
  | _ => none

/-- The key at fault, of the errors that can name one. -/
def key? : StyleError → Option (Option String)
  | .badValue key _ _ => some (some key)
  | .unknownKey key => some (some key)
  | .badAssignment _ key => some key
  | _ => none

/-- The malformed value, of the errors that name one. -/
def value? : StyleError → Option String
  | .badValue _ value _ => some value
  | _ => none

end StyleError

end Styling
