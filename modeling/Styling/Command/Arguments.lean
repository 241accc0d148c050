import Styling.Text.Quoted
import Styling.Text.Similar
import Styling.Text.Split

/-!
# Command line arguments

Options may be written long (`--define x=1`, `--define=x=1`) or short (`-D x=1`, `-Dx=1`), short
ones without a value also in one word. Two hyphens end the options. A name that is unknown is
reported with the known names similar to it.
-/

namespace Styling

open Styling.Text

/-- What an option asks for. -/
inductive OptionKind where
  | help | version | verbose | define
deriving DecidableEq, Repr

/-- An option of a command, with its names. -/
structure CommandOption where
  kind : OptionKind
  /-- The long name, with its hyphens. -/
  long : String
  short : Option Char
  takesValue : Bool

/-- Why arguments cannot be used. -/
inductive UsageError where
  /-- No option has the name. Options with similar names may be meant. -/
  | unknownOption (name : String) (similar : List String)
  /-- The value of the option is missing. -/
  | missingValue (name : String)
  /-- The option takes no value and has one. -/
  | needlessValue (name : String)
  | missingArgument (name : String)
  | extraArguments (arguments : List String)
  | missingCommand
  /-- No command has the name. Commands with similar names may be meant. -/
  | unknownCommand (name : String) (similar : List String)
  | badDefinition (reason : String)
deriving DecidableEq, Repr

/-- The names that may be meant, as they follow a report. -/
def suggestion : List String → String
  | [] => ""
  | [name] => " Did you mean " ++ quotedString name ++ "?"
  | names => " (Did you mean one of: " ++ String.intercalate ", " (names.map quotedString) ++ "?)"

def UsageError.message : UsageError → String
  | .unknownOption name similar =>
    "No such option " ++ quotedString name ++ "." ++ suggestion similar
  | .missingValue name => "Option " ++ quotedString name ++ " requires an argument."
  | .needlessValue name => "Option " ++ quotedString name ++ " does not take a value."
  | .missingArgument name => "Missing argument '" ++ name ++ "'."
  | .extraArguments arguments =>
    "Got unexpected extra argument" ++ (if arguments.length = 1 then "" else "s") ++ " ("
      ++ String.intercalate " " arguments ++ ")"
  | .missingCommand => "Missing command."
  | .unknownCommand name similar =>
    "No such command " ++ quotedString name ++ "." ++ suggestion similar
  | .badDefinition reason => "Invalid value for --define: " ++ reason

/-- Errors in the value of an option are shown without the usage of the command. -/
def UsageError.showsUsage : UsageError → Bool
  | .missingValue _ => false
  | .needlessValue _ => false
  | _ => true

/-- What a word of options says: options with their values, and perhaps a last option, with the
name it was written by, that takes the next argument as its value. -/
structure OptionWord where
  given : List (OptionKind × String)
  awaiting : Option (OptionKind × String)

/-- An option by its long name. -/
def readLongOption (options : List CommandOption) (name : String) (value : Option String) :
    Except UsageError OptionWord :=
  match options.find? fun o => o.long = name with
  | none => .error (.unknownOption name (similarNames (options.map CommandOption.long) name))
  | some o =>
    match o.takesValue, value with
    | true, none => .ok ⟨[], some (o.kind, name)⟩
    | true, some value => .ok ⟨[(o.kind, value)], none⟩
    | false, none => .ok ⟨[(o.kind, "")], none⟩
    | false, some _ => .error (.needlessValue name)

/-- Options by their short names. One that takes a value takes the rest of the word. Different short
names share no more than the hyphen, so none is similar to an unknown one. -/
def readShortOptions (options : List CommandOption) : List Char → Except UsageError OptionWord
  | [] => .ok ⟨[], none⟩
  | c :: rest =>
    let name := String.ofList ['-', c]
    match options.find? fun o => o.short = some c with
    | none => .error (.unknownOption name [])
    | some o =>
      if !o.takesValue then
        (readShortOptions options rest).map fun w => { w with given := (o.kind, "") :: w.given }
      else if rest.isEmpty then .ok ⟨[], some (o.kind, name)⟩
      else .ok ⟨[(o.kind, String.ofList rest)], none⟩

/-- The argument is a word of options: a hyphen and more. -/
def isOptionWord : List Char → Bool
  | '-' :: _ :: _ => true
  | _ => false

/-- Reads a word of options. -/
def readOptionWord (options : List CommandOption) (word : List Char) :
    Except UsageError OptionWord :=
  let parts := (cutAt ['='] word).map fun p => (String.ofList p.1, String.ofList p.2)
  let name := (parts.map Prod.fst).getD (String.ofList word)
  if (dropPrefix? ['-', '-'] word).isSome || options.any fun o => o.long = name then
    readLongOption options name (parts.map Prod.snd)
  else readShortOptions options word.tail

/-- Arguments taken apart: the options with their values, in order, and all others. -/
structure Arguments where
  options : List (OptionKind × String)
  others : List String

/-- Takes arguments apart, up to the first error. Unless options may be mixed with other arguments,
the first other argument ends them. -/
def scanArguments (options : List CommandOption) (mixed : Bool) :
    List String → Except UsageError Arguments
  | [] => .ok ⟨[], []⟩
  | word :: rest =>
    if word = "--" then .ok ⟨[], rest⟩
    else if isOptionWord word.toList then
      match readOptionWord options word.toList, rest with
      | .error e, _ => .error e
      | .ok ⟨given, none⟩, rest =>
        (scanArguments options mixed rest).map fun a => { a with options := given ++ a.options }
      | .ok ⟨_, some (_, name)⟩, [] => .error (.missingValue name)
      | .ok ⟨given, some (kind, _)⟩, value :: rest =>
        (scanArguments options mixed rest).map fun a =>
          { a with options := given ++ (kind, value) :: a.options }
    else if mixed then
      (scanArguments options mixed rest).map fun a => { a with others := word :: a.others }
    else .ok ⟨[], word :: rest⟩

/-- The values given to an option, in order. -/
def Arguments.valuesOf (a : Arguments) (kind : OptionKind) : List String :=
  (a.options.filter fun o => o.1 = kind).map Prod.snd

def Arguments.has (a : Arguments) (kind : OptionKind) : Bool := a.options.any fun o => o.1 = kind

/-- The first option that asks for information instead of work. -/
def Arguments.information? (a : Arguments) : Option OptionKind :=
  (a.options.map Prod.fst).find? fun kind => kind = .help || kind = .version

end Styling
