import TestSynth.Number.Binary64
import TestSynth.Number.Decimal
import TestSynth.Text.Classes
/-!
The commands and options of the command line, and the help texts made from them. Reading and helping
both go by these tables.
-/
namespace TestSynth.CommandLine

inductive OptionName where
  | verbose
  | json
  | config
  | format
  | out
  | target
  | maxIterations
  | help
  | version
deriving DecidableEq, Repr, Inhabited

/-- An option. One with a placeholder takes a value. -/
structure OptionSpec where
  name : OptionName
  long : String
  short : Option Char := none
  placeholder : Option String := none
  about : String := ""
deriving DecidableEq, Repr, Inhabited

inductive CommandName where
  | scan
  | extract
  | plan
  | generate
  | run
deriving DecidableEq, Repr, Inhabited

/-- A command, with its options in the order in which help lists them. -/
structure CommandSpec where
  name : CommandName
  word : String
  about : String
  rootAbout : String := ""
  options : List OptionSpec
deriving DecidableEq, Repr, Inhabited

def programName : String := "covforge"

def programVersion : String := "0.3.1"

def programAbout : String := "Coverage-driven GoogleTest synthesis for C/C++ projects"

/-- The variable that names a settings file when no option does. -/
def configVariable : String := "COVFORGE_CONFIG"

def verboseOption : OptionSpec :=
  { name := .verbose, long := "verbose", short := some 'v', about := "Enable verbose output" }

def jsonOption : OptionSpec :=
  { name := .json, long := "json", about := "Emit JSON-formatted log lines" }

def configOption : OptionSpec :=
  { name := .config, long := "config", short := some 'c', placeholder := some "CONFIG"
    about := "Configuration file (TOML)" }

def formatOption : OptionSpec :=
  { name := .format, long := "format", placeholder := some "FORMAT"
    about := "[default: text] [possible values: text, json]" }

def outOption (about : String) : OptionSpec :=
  { name := .out, long := "out", short := some 'o', placeholder := some "OUT", about }

def targetOption : OptionSpec :=
  { name := .target, long := "target", placeholder := some "TARGET"
    about := "Target line coverage percentage" }

def maxIterationsOption : OptionSpec :=
  { name := .maxIterations, long := "max-iterations", placeholder := some "MAX_ITERATIONS"
    about := "Iteration budget" }

def helpOption : OptionSpec :=
  { name := .help, long := "help", short := some 'h', about := "Print help" }

def versionOption : OptionSpec :=
  { name := .version, long := "version", short := some 'V', about := "Print version" }

/-- The options before a command. -/
def generalOptions : List OptionSpec :=
  [verboseOption, jsonOption, configOption, helpOption, versionOption]

def commands : List CommandSpec :=
  [{ name := .scan, word := "scan", about := "List discovered headers and sources"
     rootAbout := "Project root"
     options := [verboseOption, jsonOption, configOption, helpOption] },
    { name := .extract, word := "extract", about := "Print the extracted model table"
      options := [formatOption, verboseOption, jsonOption, configOption, helpOption] },
    { name := .plan, word := "plan", about := "Print each class's instantiation plan"
      options := [verboseOption, jsonOption, configOption, helpOption] },
    { name := .generate, word := "generate"
      about := "Write the initial test artifacts without building them"
      options := [outOption "Output directory (default: the configured output dir)", verboseOption,
        jsonOption, configOption, helpOption] },
    { name := .run, word := "run", about := "Run the convergence loop"
      options := [targetOption, verboseOption, jsonOption, maxIterationsOption, configOption,
        outOption "Output directory", helpOption] }]

/-- Whether a text is a value of an option. -/
def OptionName.accepts (name : OptionName) (value : String) : Bool :=
  match name with
  | .format => value == "text" || value == "json"
  | .target => (Number.Binary64.parse? value.toList).isSome
  | .maxIterations => (Number.parseWord32? value.toList).isSome
  | .config | .out => !value.isEmpty
  | _ => true

/-- Fills a text with spaces up to a width. -/
def padRight (width : Nat) (s : String) : String :=
  s ++ String.ofList (List.replicate (width - s.length) ' ')

/-- An option as it is written. -/
def OptionSpec.usage (o : OptionSpec) : String :=
  (match o.short with
    | some c => "-" ++ String.singleton c ++ ", --"
    | none => "    --") ++ o.long ++
  match o.placeholder with
  | some p => " <" ++ p ++ ">"
  | none => ""

/-- What help says of an option. The variable behind one is shown with its value. -/
def OptionSpec.remark (configValue : String) (o : OptionSpec) : String :=
  if o.name == .config then o.about ++ " [env: " ++ configVariable ++ "=" ++ configValue ++ "]"
  else o.about

/-- Columns that a text takes. A control character starts a sequence that takes none, up to an
`m`. -/
def displayWidth (s : String) : Nat :=
  (s.toList.foldl (fun (inControl, width) c =>
    if c.toNat < 32 || c.toNat == 127 then (true, width)
    else if inControl then (c != 'm', width)
    else (false, width + 1)) (false, 0)).2

/-- Lines of a text, with so many spaces in front of each but the first. -/
def indented (indent : Nat) (s : String) : String :=
  Text.replaceString "\n" (String.ofList ('\n' :: List.replicate indent ' ')) s

/-- Columns of a line. -/
def lineWidth : Nat := 100

/-- Columns between a left column and what help counts on for the right one. -/
def columnGap : Nat := 12

/-- Whether a right column does not fit beside a left one that takes a large part of the line. -/
def overflows (left : Nat) (right : String) : Bool :=
  let taken := left + columnGap
  2 * lineWidth < 5 * taken && taken ≤ lineWidth && lineWidth - taken + 1 < displayWidth right

/-- Lines with a left and a right column. When one of the right does not fit, all of them stand on
lines of their own. -/
def columns (rows : List (String × String)) : List String :=
  let width := (rows.map (·.1.length)).foldl max 0
  if rows.any fun row => overflows width row.2 then
    rows.flatMap fun (left, right) => ["  " ++ left, "          " ++ indented 10 right]
  else rows.map fun (left, right) =>
    "  " ++ padRight width left ++ "  " ++ indented (width + 4) right

def optionLines (configValue : String) (options : List OptionSpec) : List String :=
  columns (options.map fun o => (o.usage, o.remark configValue))

/-- The help on one command. -/
def CommandSpec.help (configValue : String) (c : CommandSpec) : List String :=
  [c.about, "", "Usage: " ++ programName ++ " " ++ c.word ++ " [OPTIONS] [ROOT]", "", "Arguments:",
    "  [ROOT]  " ++ (if c.rootAbout.isEmpty then "" else c.rootAbout ++ " ") ++ "[default: .]", "", "Options:"] ++
  optionLines configValue c.options

/-- The command that prints help. -/
def helpWord : String := "help"

def helpAbout : String := "Print this message or the help of the given subcommand(s)"

/-- The help on the whole program. -/
def programHelp (configValue : String) : List String :=
  [programAbout, "", "Usage: " ++ programName ++ " [OPTIONS] <COMMAND>", "", "Commands:"] ++
  columns (commands.map (fun c => (c.word, c.about)) ++ [(helpWord, helpAbout)]) ++
  ["", "Options:"] ++ optionLines configValue generalOptions

/-- The help on help. -/
def helpOnHelp : List String :=
  [helpAbout, "", "Usage: " ++ programName ++ " " ++ helpWord ++ " [COMMAND]...", "", "Arguments:",
    "  [COMMAND]...  Print help for the subcommand(s)"]

end TestSynth.CommandLine
