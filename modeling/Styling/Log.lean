import Styling.Value.Written

/-!
# Log entries

What is reported while styles are read and applied. The entries are data; `LogEntry.line` is the
line that shows one.
-/

namespace Styling

inductive LogEntry where
  /-- A reference was replaced by the named value. -/
  | resolved (reference key : String) (value : Value)
  | applied (key : String) (value : Value)
  | reverted (key : String) (value : Value)
  /-- A style was neither text nor a mapping. -/
  | ignored (kind : String)
  /-- The slots of a class were collected. -/
  | registered (count : Nat) (owner : String)
  /-- An annotation uses a name that is not defined. -/
  | unresolved (owner field name : String)
  | assigned (slot : String) (value old : Value)

/-- Level, channel and text of an entry in one line. -/
def LogEntry.line : LogEntry → String
  | .resolved reference key value =>
    "DEBUG restyle.coerce: Resolved reference " ++ reference ++ " for " ++ key ++ ": "
      ++ value.written
  | .applied key value => "DEBUG restyle.apply: Applied style " ++ key ++ " = " ++ value.written
  | .reverted key value => "DEBUG restyle.apply: Reverted style " ++ key ++ " = " ++ value.written
  | .ignored kind => "WARNING restyle.apply: Ignoring style of unsupported type " ++ kind
  | .registered count owner =>
    "DEBUG restyle.binding: Registered " ++ toString count ++ " styleable slot(s) for " ++ owner
  | .unresolved owner field name =>
    "DEBUG restyle.binding: Cannot resolve annotation of " ++ owner ++ "." ++ field ++ ": name '"
      ++ name ++ "' is not defined"
  | .assigned slot value old =>
    "DEBUG restyle.binding: Set " ++ slot ++ " = " ++ value.written ++ " (was " ++ old.written
      ++ ")"

end Styling
