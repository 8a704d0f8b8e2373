import TestSynth.CommandLine.Grammar
import TestSynth.Path
/-!
Reading the arguments: options before and after the command, and the root of the project.
-/
namespace TestSynth.CommandLine

/-- Why arguments give no command to carry out. -/
inductive Stop where
  | misuse
  | help (lines : List String)
  | version
deriving DecidableEq, Repr, Inhabited

/-- What was given at one level, before or after the command. -/
structure Given where
  options : List (OptionName × String) := []
  words : List String := []
deriving DecidableEq, Repr, Inhabited

/-- A level of arguments: its options, how many words it takes, and its help. -/
structure Level where
  specs : List OptionSpec
  wordLimit : Nat
  help : List String

namespace Level

/-- Takes an option with its value, which is empty for one that takes none. Help and version end
the reading; no option stands twice. -/
def takeOption (level : Level) (o : OptionSpec) (value : String) (g : Given) :
    Except Stop Given :=
  match o.name with
  | .help => .error (.help level.help)
  | .version => .error .version
  | name =>
    if (g.options.lookup name).isSome || !name.accepts value then .error .misuse
    else .ok { g with options := g.options ++ [(name, value)] }

/-- Whether an argument may be the value of the option before it. -/
def mayBeValue (word : String) : Bool := word.toList.head? != some '-' || word == "-"

/-- Takes an option written in full, without its dashes. -/
def takeLong (level : Level) (text : String) (g : Given) (rest : List String) :
    Except Stop (Given × List String) :=
  let name := String.ofList (text.toList.takeWhile (· != '='))
  let value := if text.toList.contains '=' then
      some (String.ofList (text.toList.drop (name.length + 1)))
    else none
  match level.specs.find? (·.long == name) with
  | none => .error .misuse
  | some o => match o.placeholder, value, rest with
    | none, none, rest => do return (← level.takeOption o "" g, rest)
    | none, some _, _ => .error .misuse
    | some _, some v, rest => do return (← level.takeOption o v g, rest)
    | some _, none, v :: rest =>
      if mayBeValue v then do return (← level.takeOption o v g, rest) else .error .misuse
    | some _, none, [] => .error .misuse

/-- Takes options written by their letters; what follows the letter of one that takes a value is the
value. -/
def takeShort (level : Level) (g : Given) (rest : List String) :
    List Char → Except Stop (Given × List String)
  | [] => .ok (g, rest)
  | c :: cs => match level.specs.find? (·.short == some c) with
    | none => .error .misuse
    | some o => match o.placeholder, cs, rest with
      | none, '=' :: _, _ => .error .misuse
      | none, cs, rest => do level.takeShort (← level.takeOption o "" g) rest cs
      | some _, '=' :: value, rest => do
        return (← level.takeOption o (String.ofList value) g, rest)
      | some _, c :: cs, rest => do
        return (← level.takeOption o (String.ofList (c :: cs)) g, rest)
      | some _, [], v :: rest =>
        if mayBeValue v then do return (← level.takeOption o v g, rest) else .error .misuse
      | some _, [], [] => .error .misuse

def takeWord (level : Level) (word : String) (g : Given) : Except Stop Given :=
  if g.words.length < level.wordLimit && !word.isEmpty then
    .ok { g with words := g.words ++ [word] }
  else .error .misuse

/-- Takes arguments up to the first word if the level takes none; the first argument bounds their
number. -/
def take (level : Level) : Nat → Given → List String → Except Stop (Given × List String)
  | 0, g, rest => .ok (g, rest)
  | _, g, [] => .ok (g, [])
  | n + 1, g, word :: rest =>
    match word.toList with
    | ['-', '-'] => do return (← rest.foldlM (fun g w => level.takeWord w g) g, [])
    | '-' :: '-' :: text => do
      let (g, rest) ← level.takeLong (String.ofList text) g rest
      level.take n g rest
    | '-' :: c :: cs => do
      let (g, rest) ← level.takeShort g rest (c :: cs)
      level.take n g rest
    | _ =>
      if level.wordLimit = 0 then .ok (g, word :: rest)
      else do level.take n (← level.takeWord word g) rest

end Level

/-- A command to carry out. -/
structure Request where
  command : CommandName
  root : Path := ⟨"."⟩
  config : Option Path := none
  asJson : Bool := false
  target : Option Number.Binary64 := none
  maxIterations : Option Nat := none
  out : Option Path := none
deriving DecidableEq, Repr, Inhabited

/-- What is asked with a command, by what was given before and after it and the file that is preset
in the environment. -/
def Request.ofGiven (command : CommandName) (general own : Given) (preset : Option String) :
    Request :=
  let option (name : OptionName) : Option String := own.options.lookup name
  { command
    root := ⟨own.words.headD "."⟩
    config := (((option .config).or (general.options.lookup .config)).or preset).map Path.mk
    asJson := option .format == some "json"
    target := (option .target).bind fun v => Number.Binary64.parse? v.toList
    maxIterations := (option .maxIterations).bind fun v => Number.parseWord32? v.toList
    out := (option .out).map Path.mk }

def helpOn (configValue : String) : List String → Stop
  | [] => .help (programHelp configValue)
  | [word] =>
    if word == helpWord then .help helpOnHelp
    else match commands.find? (·.word == word) with
      | some c => .help (c.help configValue)
      | none => .misuse
  | _ => .misuse

/-- Reads the arguments. An empty text is no name for a preset file. -/
def readArguments (preset : Option String) (arguments : List String) : Except Stop Request := do
  let configValue := preset.getD ""
  let general : Level :=
    { specs := generalOptions, wordLimit := 0, help := programHelp configValue }
  let (before, rest) ← general.take (arguments.length + 1) {} arguments
  match rest with
  | [] => .error .misuse
  | word :: rest =>
    if word == helpWord then .error (helpOn configValue rest)
    else match commands.find? (·.word == word) with
    | none => .error .misuse
    | some c =>
      let level : Level := { specs := c.options, wordLimit := 1, help := c.help configValue }
      let (own, _) ← level.take (rest.length + 1) {} rest
      if preset == some "" then .error .misuse
      else return Request.ofGiven c.name before own preset

end TestSynth.CommandLine
