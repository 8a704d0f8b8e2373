import TestSynth.Programs.Standard
import TestSynth.Shell.Subshell
/-!
Starting programs: standard ones, scripts, and the shell itself.
-/
namespace TestSynth.Shell

open Process Programs

/-- The names of the shell among the standard programs. -/
def shellNames : List String := [shellName, "dash", "bash"]

def isStandard (name : String) : Bool :=
  shellNames.contains name || (standardPrograms.lookup name).isSome

/-- What a shell is asked to run. -/
structure ShellRequest where
  /-- Without a script the shell reads one from its input. -/
  script : Option String := none
  file : Option String := none
  name : String := shellName
  arguments : List String := []
  options : List Char := []

/-- The letters of options that a shell takes besides those that scripts can set. -/
def startLetters : List Char := ['c', 's', 'l']

/-- Reads the arguments of a shell: options, then a script, a file or nothing. -/
def shellRequest (name : String) : Nat → List Char → List String → Except String ShellRequest
  | 0, _, _ => .error "too many options"
  | _, options, [] =>
    if options.contains 'c' then .error "-c requires an argument"
    else .ok { name, options }
  | n + 1, options, word :: rest =>
    match word.toList with
    | '-' :: '-' :: [] => finish options rest
    | ['-'] => finish options rest
    | sign :: c :: cs =>
      if sign != '-' && sign != '+' then finish options (word :: rest)
      else
        let letters := c :: cs
        match letters.find? fun l => l != 'o' && !startLetters.contains l && !optionNames.any (·.1 == l) with
        | some l => .error ("Illegal option " ++ String.ofList [sign, l])
        | none =>
          let named : List Char := if letters.contains 'o' then
              (optionNames.filter fun o => some o.2 == rest.head?).map (·.1)
            else []
          let letters := letters.filter (· != 'o') ++ named
          let rest := if (c :: cs).contains 'o' then rest.drop 1 else rest
          let options := if sign == '-' then options ++ letters
            else options.filter (!letters.contains ·)
          shellRequest name n options rest
    | _ => finish options (word :: rest)
where
  finish (options : List Char) (words : List String) : Except String ShellRequest :=
    if options.contains 'c' then
      match words with
      | [] => .error "-c requires an argument"
      | [script] => .ok { script := some script, name, options }
      | script :: name :: arguments => .ok { script := some script, name, arguments, options }
    else if options.contains 's' then .ok { name, arguments := words, options }
    else match words with
      | [] => .ok { name, options }
      | file :: arguments => .ok { file := some file, name := file, arguments, options }

/-- The variables that a shell starts with. -/
def startVariables (environment : List (String × String)) (place : String) :
    OrderedMap String Variable :=
  let own (value : String) : Variable := { value := some value }
  let inherited (value : String) : Variable := { value := some value, isExported := true }
  let defaults : OrderedMap String Variable := .ofList
    [("IFS", own " \t\n"), ("OPTIND", own "1"), ("PATH", own Executable.defaultSearch),
      ("PPID", own "1"), ("PS1", own "$ "), ("PS2", own "> "), ("PS4", own "+ ")]
  let given := environment.filter fun (name, _) => Text.isIdentifier name.toList && name != "IFS" && name != "OPTIND"
  (given.foldl (fun m (name, value) => m.insert name (inherited value)) defaults).insert "PWD"
    (inherited place)

/-- Runs a shell as the process of a session. -/
def startShell (e : Engine) (name : String) (arguments : List String) : SessionM Ending := fun session =>
  match shellRequest name (arguments.length + 1) [] arguments with
  | .error problem =>
    let (_, session) := Session.say (name ++ ": 0: " ++ problem ++ "\n") session
    (.exited 2, session)
  | .ok request =>
    let script : SessionM (Except FileError String) := do
      match request.script, request.file with
      | some text, _ => return .ok text
      | none, some file => return (← Session.readFile file).map String.ofList
      | none, none => return (← Session.readAll standardInput).map String.ofList
    let (script, session) := script session
    match script with
    | .error problem =>
      let reason := match problem with
        | .notFound | .notDirectory => "No such file"
        | problem => problem.reason
      let (_, session) := Session.say
        (name ++ ": 0: cannot open " ++ request.file.getD "" ++ ": " ++ reason ++ "\n") session
      (.exited 2, session)
    | .ok text =>
      let place := Text.spread (FileTree.absolutePath session.directory).text
      let letters := optionNames.map (·.1)
      let s : State := {
        session
        bindings := startVariables session.environment place
        name := request.name
        arguments := request.arguments
        options := letters.filter fun l => request.options.contains l ||
          (l == 's' && request.script.isNone && request.file.isNone)
        shellProcess := session.processId
        place }
      let (ending, s) := runToEnd e jobLimit (runText e text) s
      (ending, s.session)

/-- The nesting of interpreters that are scripts. -/
def interpreterLimit : Nat := 4

/-- Runs an executable as the process of a session. The second argument bounds the nesting of
interpreters. -/
def start (e : Engine) : Nat → String → Executable → List String → SessionM Ending
  | _, name, .standard program, arguments =>
    match standardPrograms.lookup program with
    | some p => p.run e.launch name arguments
    | none => startShell e name arguments
  | 0, _, _, _ => return .exited 126
  | _, _, .unnamed path, arguments => startShell e shellName (path :: arguments)
  | n + 1, _, .script path interpreter option, arguments => do
    match Executable.at_ isStandard (← get).tree interpreter with
    | .ok program => start e n interpreter program (option.toList ++ path :: arguments)
    | .error _ => return .exited 127

/-- The executable that a name leads to in a session. A script without its interpreter is none. -/
def executableIn (session : Session) (searched : Option String) (name : String) :
    Except FileError Executable := do
  let found ← Executable.find isStandard session.tree searched name
  match found with
  | .script _ interpreter _ =>
    let _ ← Executable.at_ isStandard session.tree interpreter
    return found
  | _ => return found

/-- Starts the program that words name. -/
def launchWords (e : Engine) (words : List String) : SessionM (Except FileError Ending) := do
  match words with
  | [] => return .error .notFound
  | name :: arguments =>
    let session ← get
    match executableIn session (session.valueOf? "PATH") name with
    | .error problem => return .error problem
    | .ok program => return .ok (← Session.inChild (start e interpreterLimit name program arguments))

end TestSynth.Shell
