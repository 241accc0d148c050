import Styling.Log
import Styling.Rule
import Styling.Settings
import Styling.Value.Format

/-!
# Style texts

A style text is a list of statements, each a key and a value with a mark between them. `readStyle`
gives the mapping from keys to values; `formatStyle` writes a mapping as a text. Blank statements
do not count, and a key that is given again keeps its place and takes the new value.
-/

namespace Styling

open Styling.Text

/-- What the reading of a style depends on: the named values that references stand for, the rules
for all other values, and the settings. -/
structure Coercer where
  defaults : Table Value
  rules : List Rule
  settings : Settings

/-- The coercer without named values, with the built-in rules and the standard settings. -/
def Coercer.standard : Coercer := ⟨.empty, builtinRules, .standard⟩

/-- The name that a value refers to, if it is a reference. -/
def Coercer.referenceName? (c : Coercer) (raw : String) : Option String :=
  (dropPrefix? c.settings.referenceMark.toList raw.toList).map String.ofList

/-- The named value that a name stands for; null if there is none. -/
def Coercer.named (c : Coercer) (name : String) : Value := (c.defaults.get? name).getD .null

/-- The value of a text for a key: the named value as it is for a reference, and what the rules
make of it for any other text. -/
def Coercer.coerce (c : Coercer) : Converter := fun key raw =>
  match c.referenceName? raw with
  | some name => .ok (c.named name)
  | none => readValue c.rules key raw

/-- Key and value text of a trimmed statement. -/
def splitStatement (keySeparator : List Char) (s : List Char) :
    Except ReadError (String × String) :=
  if keySeparator.isEmpty then .error .emptySeparator
  else
    -- The first separator is the one that counts; the value may hold others.
    match cutAt keySeparator s with
    | none => .error (.malformed .missingColon (String.ofList s))
    | some (key, value) =>
      if (trim key).isEmpty then .error (.malformed .missingKey (String.ofList s))
      else if (trim value).isEmpty then .error (.malformed .missingValue (String.ofList s))
      else .ok (String.ofList (trim key), String.ofList (trim value))

/-- Key and value of a trimmed statement. -/
def Coercer.readStatement (c : Coercer) (s : List Char) : Except ReadError (String × Value) :=
  match splitStatement c.settings.keySeparator.toList s with
  | .error e => .error e
  | .ok (key, raw) =>
    match c.coerce key raw with
    | .error e => .error e
    | .ok value => .ok (key, value)

/-- The statements of a text, trimmed, without the blank ones. -/
def statements (separator : List Char) (text : List Char) : List (List Char) :=
  ((pieces separator text).map trim).filter fun s => !s.isEmpty

/-- Keys and values of statements, up to the first that cannot be read. -/
def Coercer.readStatements (c : Coercer) : List (List Char) →
    Except ReadError (List (String × Value))
  | [] => .ok []
  | s :: rest =>
    match c.readStatement s with
    | .error e => .error e
    | .ok entry =>
      match c.readStatements rest with
      | .error e => .error e
      | .ok entries => .ok (entry :: entries)

/-- The mapping that a style text writes; none for a text without statements. -/
def Coercer.readText (c : Coercer) (text : List Char) : Except ReadError (Option (Table Value)) :=
  if isBlankText text then .ok none
  else if c.settings.separator.isEmpty then .error .emptySeparator
  else
    match c.readStatements (statements c.settings.separator.toList text) with
    | .error e => .error e
    -- A text of separators and blanks says nothing, like a blank one.
    | .ok [] => .ok none
    | .ok entries => .ok (some (Table.ofList entries))

/-- The mapping of a style text that may be missing. -/
def Coercer.readStyle (c : Coercer) : Option String → Except ReadError (Option (Table Value))
  | none => .ok none
  | some text => c.readText text.toList

/-- The reference that a statement resolves when it is read. -/
def Coercer.statementReference? (c : Coercer) (s : List Char) : Option LogEntry :=
  match splitStatement c.settings.keySeparator.toList s with
  | .error _ => none
  | .ok (key, raw) => (c.referenceName? raw).map fun name =>
      .resolved (c.settings.referenceMark ++ name) key (c.named name)

/-- The references that are resolved while a text is read; none after the first statement that
cannot be read. -/
def Coercer.references (c : Coercer) (text : List Char) : List LogEntry :=
  if isBlankText text || c.settings.separator.isEmpty then []
  else
    ((statements c.settings.separator.toList text).takeWhile fun s =>
      (c.readStatement s).toOption.isSome).filterMap c.statementReference?

/-- The entries of a mapping as statements. -/
def formatEntries : List (String × Value) → Except FormatError (List (List Char))
  | [] => .ok []
  | (key, value) :: rest =>
    match value.formatChars with
    | .error e => .error e
    | .ok text =>
      match formatEntries rest with
      | .error e => .error e
      | .ok texts => .ok ((key.toList ++ ':' :: ' ' :: text) :: texts)

/-- A mapping as a style text. -/
def formatStyle (style : Table Value) : Except FormatError String :=
  (formatEntries style.entries).map fun texts => String.ofList (join [';', ' '] texts)

end Styling
