import Styling.Command.Arguments
import Styling.Statement
import Styling.Text.Terminal

/-!
# The command line

The commands `parse`, which shows the entries of a style one by one, and `format`, which writes a
style in its normal form. A style that cannot be read is reported on the error stream, as are
arguments that cannot be used; there is then no output.
-/

namespace Styling

open Styling.Text

/-- An error that ends the program without a report of its own. -/
inductive Fault where
  | read (e : ReadError)
  | format (e : FormatError)

def Fault.message : Fault → String
  | .read e => e.message
  | .format e => e.message

/-- What a run of the program leaves behind. -/
structure CommandResult where
  exitCode : Nat
  output : String
  errors : String
  fault : Option Fault

/-- A line of output. -/
def outputLine (text : String) : String :=
  String.ofList (withoutSequences text.toList) ++ "\n"

def CommandResult.success (output errors : String) : CommandResult := ⟨0, output, errors, none⟩

/-- The output as it is captured, with line feeds only. -/
def CommandResult.captured (r : CommandResult) : CommandResult :=
  { r with
    output := String.ofList (withLineFeeds r.output.toList)
    errors := String.ofList (withLineFeeds r.errors.toList) }

/-! ## Commands -/

inductive Command where
  | parse | format
deriving DecidableEq, Repr

namespace Command

def name : Command → String
  | .parse => "parse"
  | .format => "format"

def all : List Command := [parse, format]

def named? (name : String) : Option Command := all.find? fun c => c.name = name

def helpOption : CommandOption := ⟨.help, "--help", none, false⟩

def options : Command → List CommandOption
  | .parse => [⟨.define, "--define", some 'D', true⟩, helpOption]
  | .format => [helpOption]

/-- The options in front of the command. -/
def programOptions : List CommandOption :=
  [⟨.version, "--version", none, false⟩, ⟨.verbose, "--verbose", some 'v', false⟩, helpOption]

/-- The command line of a command, or of the program. -/
def usage : Option Command → String
  | some c => "Usage: restyle " ++ c.name ++ " [OPTIONS] STYLE\n"
  | none => "Usage: restyle [OPTIONS] COMMAND [ARGS]...\n"

/-- How to get help about a command, or about the program. -/
def helpHint : Option Command → String
  | some c => "Try 'restyle " ++ c.name ++ " --help' for help.\n"
  | none => "Try 'restyle --help' for help.\n"

def helpBody : Option Command → String
  | some .parse =>
    "\n  Parse a style string and print each key with its typed value.\n\n"
      ++ "  Exits with code 1 on syntax errors.\n\nOptions:\n"
      ++ "  -D, --define NAME=VALUE  Add a named value that $NAME references resolve to\n"
      ++ "                           (repeatable).\n"
      ++ "  --help                   Show this message and exit.\n"
  | some .format =>
    "\n  Parse a style string and print it in normalized form.\n\nOptions:\n"
      ++ "  --help  Show this message and exit.\n"
  | none =>
    "\n  Restyle - parse and inspect CSS-like style strings.\n\nOptions:\n"
      ++ "  --version      Show the version and exit.\n"
      ++ "  -v, --verbose  Log parse and apply details.\n"
      ++ "  --help         Show this message and exit.\n\nCommands:\n"
      ++ "  format  Parse a style string and print it in normalized form.\n"
      ++ "  parse   Parse a style string and print each key with its typed value.\n"

def help (c : Option Command) : String := usage c ++ helpBody c

def versionText : String := "restyle, version 0.1.0"

/-- The report of arguments that cannot be used. -/
def refuse (c : Option Command) (e : UsageError) : CommandResult :=
  let report := outputLine ("Error: " ++ e.message)
  ⟨2, "", if e.showsUsage then usage c ++ helpHint c ++ "\n" ++ report else report, none⟩

/-- The answer to an option that asks for information. -/
def inform (c : Option Command) : OptionKind → CommandResult
  | .version => .success (outputLine versionText) ""
  | _ => .success (help c) ""

/-! ## Defined values -/

/-- Why a definition cannot be used. -/
inductive DefinitionError where
  /-- It is no name with a value. -/
  | shape (item : String)
  | value (e : ReadError)

/-- Name and value of a definition. The value is read for its name by the built-in rules. -/
def readDefinition (item : String) : Except DefinitionError (String × Value) :=
  match cutAt ['='] item.toList with
  | none => .error (.shape item)
  | some (name, value) =>
    if (trim name).isEmpty then .error (.shape item)
    else
      match readValue builtinRules (String.ofList (trim name)) (String.ofList (trim value)) with
      | .error e => .error (.value e)
      | .ok v => .ok (String.ofList (trim name), v)

/-- Definitions in order, up to the first that cannot be used. -/
def readDefinitions : List String → Table Value → Except DefinitionError (Table Value)
  | [], defaults => .ok defaults
  | item :: items, defaults =>
    match readDefinition item with
    | .error e => .error e
    | .ok (name, value) => readDefinitions items (defaults.set name value)

/-- The report of a definition that cannot be used. -/
def refuseDefinition : DefinitionError → CommandResult
  | .shape item => refuse (some .parse) (.badDefinition ("expected NAME=VALUE, got "
      ++ quotedString item))
  | .value e =>
    match e.styleError? with
    | some s => refuse (some .parse) (.badDefinition s.message)
    | none => ⟨1, "", "", some (.read e)⟩

/-! ## Runs -/

/-- The entries of a style, one a line. -/
def showEntries (style : Table Value) : String :=
  String.join (style.entries.map fun e => outputLine (e.1 ++ " = " ++ e.2.written))

/-- The references resolved in a style text, one a line. -/
def logText (verbose : Bool) (coercer : Coercer) (style : String) : String :=
  if verbose then
    String.join ((coercer.references style.toList).map fun entry => entry.line ++ "\n")
  else ""

/-- Reads a style and writes what `present` makes of it. -/
def runStyle (verbose : Bool) (coercer : Coercer) (style : String)
    (present : Table Value → Except FormatError String) : CommandResult :=
  let log := logText verbose coercer style
  match coercer.readText style.toList with
  | .error e =>
    match e.styleError? with
    | some s => ⟨1, "", log ++ outputLine ("Syntax error: " ++ s.message), none⟩
    | none => ⟨1, "", log, some (.read e)⟩
  | .ok none => .success (outputLine "(no style)") log
  | .ok (some mapping) =>
    match present mapping with
    | .error e => ⟨1, "", log, some (.format e)⟩
    | .ok text => .success text log

def runParse (verbose : Bool) (definitions : List String) (style : String) : CommandResult :=
  match readDefinitions definitions .empty with
  | .error e => refuseDefinition e
  | .ok defaults =>
    runStyle verbose { Coercer.standard with defaults := defaults } style fun mapping =>
      .ok (showEntries mapping)

def runFormat (verbose : Bool) (style : String) : CommandResult :=
  runStyle verbose .standard style fun mapping => (formatStyle mapping).map outputLine

/-- Runs a command on its arguments. -/
def run (verbose : Bool) (c : Command) (arguments : List String) : CommandResult :=
  match scanArguments c.options true arguments with
  | .error e => refuse (some c) e
  | .ok a =>
    match a.information?, a.others with
    | some kind, _ => inform (some c) kind
    | none, [] => refuse (some c) (.missingArgument "STYLE")
    | none, [style] =>
      match c with
      | .parse => runParse verbose (a.valuesOf .define) style
      | .format => runFormat verbose style
    | none, _ :: extra => refuse (some c) (.extraArguments extra)

/-- Arguments that name no command are read once more for options. -/
def refuseCommand (name : String) (arguments : List String) : CommandResult :=
  match scanArguments programOptions false arguments with
  | .error e => refuse none e
  | .ok a =>
    match a.information? with
    | some kind => inform none kind
    | none => refuse none (.unknownCommand name (similarNames (all.map Command.name) name))

end Command

/-- Runs the program on its arguments. -/
def runProgram (arguments : List String) : CommandResult :=
  match scanArguments Command.programOptions false arguments with
  | .error e => Command.refuse none e
  | .ok a =>
    match a.information?, a.others with
    | some kind, _ => Command.inform none kind
    | none, [] =>
      if arguments.isEmpty then ⟨2, "", Command.help none, none⟩
      else Command.refuse none .missingCommand
    | none, name :: rest =>
      match Command.named? name with
      | some c => Command.run (a.has .verbose) c rest
      | none => Command.refuseCommand name (name :: rest)

end Styling
