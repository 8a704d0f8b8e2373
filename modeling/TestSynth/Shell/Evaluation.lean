import TestSynth.Shell.Builtins
import TestSynth.Shell.Expansion
import TestSynth.Shell.Invocation
/-!
Running commands, and opening and closing files around them. Recursion goes through the engine
alone, which bounds the nesting.
-/
namespace TestSynth.Shell

open Process

/-- Why a file cannot be opened, in the words of the shell. -/
def openReason (forWriting : Bool) (e : FileError) : String :=
  match e with
  | .notFound | .notDirectory => if forWriting then "Directory nonexistent" else "No such file"
  | e => e.reason

/-- What a redirection leads to, expanded. -/
structure Target where
  descriptor : Descriptor
  kind : RedirectKind
  text : String

def expandTarget (e : Engine) : Redirect → ShellM Target
  | .mk descriptor .document w => return ⟨descriptor, .document, ← expandDocument e w⟩
  | .mk descriptor kind w => return ⟨descriptor, kind, ← expandText e w⟩

def openFile (target : Target) (mode : OpenMode) : ShellM Unit := do
  let forWriting := mode.isWritten
  match ← inSession (Session.openAs target.descriptor target.text mode) with
  | .ok () => return ()
  | .error e =>
    fail ((if forWriting then "cannot create " else "cannot open ") ++ target.text ++ ": " ++
      openReason forWriting e)

/-- Carries out a redirection. -/
def redirect (target : Target) : ShellM Unit := do
  match target.kind with
  | .read => openFile target .read
  | .readWrite => openFile target .readWrite
  | .append => openFile target .append
  | .overwrite => openFile target .write
  | .write =>
    let keeps ← isSet 'C'
    let s ← get
    let isFile := match s.session.tree.find (Session.pathOf target.text) with
      | .ok (_, .file ..) => true
      | _ => false
    openFile target { OpenMode.write with isExclusive := keeps && isFile }
  | .duplicate =>
    if target.text == "-" then
      modify fun s => { s with session := s.session.closeDescriptor target.descriptor }
    else match target.text.toList with
      | [c] =>
        if !c.isDigit then fail "Syntax error: Bad fd number"
        match ← inSession (Session.duplicate target.descriptor (Number.digitValue c)) with
        | .ok () => return ()
        | .error e => fail (target.text ++ ": " ++ e.reason)
      | _ => fail "Syntax error: Bad fd number"
  | .document =>
    let (index, system) := (← get).session.system.addPipe
    let (_, system) := system.write index target.text.toList
    modify fun s => { s with
      session := { s.session with system }.setDescriptor target.descriptor index }

/-- Carries out redirections in order. If one fails, those before it are taken back, and the status
tells that. -/
def redirectAll (e : Engine) (redirects : List Redirect) : ShellM Bool := do
  let targets ← redirects.mapM (expandTarget e)
  let before := (← get).session.descriptors
  try
    targets.forM redirect
    return true
  catch problem =>
    modify fun s => { s with session.descriptors := before }
    match problem with
    | .failure => return false
    | other => throw other

/-- Runs something and sets the descriptors back afterwards. -/
def keepingDescriptors {α : Type} (body : ShellM α) : ShellM α := do
  let before := (← get).session.descriptors
  afterwards body (modify fun s => { s with session.descriptors := before })

/-- Runs something with redirections, unless one of them fails. -/
def withRedirects (e : Engine) (redirects : List Redirect) (body : ShellM Unit) : ShellM Unit :=
  keepingDescriptors do
    if ← redirectAll e redirects then body else setStatus 2

open Programs

/-- Functions that run inside each other at most. -/
def functionLimit : Nat := 1000

/-- What a word in front of a command stands for. -/
inductive Callee where
  | function (body : Command)
  | builtin (name : String)
  | program (name : String)

/-- The commands of the shell that need others to be run. -/
def controlNames : List String := ["eval", ".", "exec", "command", "type", "hash", "wait", "bg", "fg"]

def isBuiltin (name : String) : Bool :=
  controlNames.contains name || (builtins.lookup name).isSome

def calleeOf (s : State) (allowsFunctions : Bool) (name : String) : Callee :=
  match if allowsFunctions then s.functions.find? name else none with
  | some body => .function body
  | none => if isBuiltin name then .builtin name else .program name

/-- Whether assignments behind a command do not fall into fields. -/
def takesAssignments (name : String) : Bool := ["export", "readonly", "local"].contains name

/-- Sets variables back to what they were. -/
def restoreVariables (old : List (String × Option Variable)) : ShellM Unit :=
  old.forM fun (name, before) => modify fun s =>
    match before with
    | some v => s.setVariable name v
    | none => s.eraseVariable name

/-- Runs the body of a function with arguments. -/
def callFunction (e : Engine) (isTested : Bool) (body : Command) (arguments : List String) :
    ShellM Unit := do
  let outer ← get
  if functionLimit ≤ outer.functionDepth then
    fail ("Maximum function recursion depth (" ++ toString functionLimit ++ ") reached")
  set { outer with
    arguments, optionIndex := 1, optionOffset := none, loopDepth := 0
    functionDepth := outer.functionDepth + 1, saved := [] :: outer.saved }
  let restore : ShellM Unit := do
    restoreVariables ((← get).saved.headD [])
    modify fun s => { s with
      arguments := outer.arguments
      optionIndex := outer.optionIndex, optionOffset := outer.optionOffset
      loopDepth := outer.loopDepth, functionDepth := outer.functionDepth, saved := outer.saved }
  afterwards (try e.run isTested body catch
    | .return => return ()
    | other => throw other) restore

/-- Tells that a program cannot be started. -/
def refuseProgram (name : String) (problem : FileError) : ShellM Unit := do
  match problem with
  | .notFound | .notDirectory =>
    warn (name ++ ": not found")
    setStatus 127
  | .nameTooLong | .tooManyLinks =>
    warn (name ++ ": " ++ problem.reason)
    setStatus 127
  | problem =>
    warn (name ++ ": " ++ problem.reason)
    setStatus 126

/-- The session in which a program is started. -/
def sessionForPrograms : ShellM Session := do
  let s ← get
  return { s.session with environment := s.environment }

/-- Runs a program and waits for its end. -/
def runProgram (e : Engine) (searched : Option String) (name : String) (arguments : List String) :
    ShellM Unit := do
  let session ← sessionForPrograms
  match executableIn session searched name with
  | .error problem => refuseProgram name problem
  | .ok program =>
    remember name program.location
    let (ending, after) := Session.inChild (start e interpreterLimit name program arguments) session
    modify fun s => { s with session.system := after.system }
    takeEnding ending

/-- Puts a program in the place of the shell. -/
def replaceShell (e : Engine) (name : String) (arguments : List String) : ShellM Unit := do
  let session ← sessionForPrograms
  modify fun s => { s with traps := [] }
  match executableIn session (session.valueOf? "PATH") name with
  | .error problem =>
    refuseProgram name problem
    throw .exit
  | .ok program =>
    let (ending, after) := start e interpreterLimit name program arguments session
    modify fun s => { s with session.system := after.system }
    match ending with
    | .killed signal => throw (.killed signal)
    | .endless => throw .endless
    | .exited status =>
      setStatus (status % 256)
      throw .exit

/-- Runs a script from a file in the shell. -/
def runFile (e : Engine) (name : String) : ShellM Unit := do
  let s ← get
  let isPath := name.toList.contains '/'
  let found := if isPath then some name
    else ((s.valueOr "PATH" Executable.defaultSearch).splitOn ":").findSome? fun dir =>
      let path := if dir.isEmpty then name else dir ++ "/" ++ name
      match s.session.tree.find (Session.pathOf path) with
      | .ok (_, .file ..) => some path
      | _ => none
  match found with
  | none => fail (name ++ ": not found")
  | some path =>
    match ← inSession (Session.readFile path) with
    | .error problem => fail ("cannot open " ++ path ++ ": " ++ openReason false problem)
    | .ok cs =>
      setStatus 0
      speakingAs path (try runText e (String.ofList cs) catch
        | .return => return ()
        | other => throw other)

/-- What a name stands for, in the words of a person or of a script. -/
def describe (isLong : Bool) (name : String) : ShellM Bool := do
  let s ← get
  let tell (long short : String) : ShellM Bool := do
    writeOut ((if isLong then name ++ " is " ++ long else short) ++ "\n")
    return true
  if keywords.contains name then tell "a shell keyword" name
  else match s.aliases.lookup name with
    | some text => tell ("an alias for " ++ text) ("alias " ++ name ++ "=" ++ inQuotes text)
    | none =>
      if (s.functions.find? name).isSome then tell "a shell function" name
      else if specialNames.contains name then tell "a special shell builtin" name
      else if isBuiltin name then tell "a shell builtin" name
      else match Executable.find isStandard s.session.tree (s.valueOf? "PATH") name with
        | .ok program =>
          if name.toList.contains '/' then tell name name
          else
            let isTracked := s.located.any (·.1 == name)
            remember name program.location
            tell ((if isTracked then "a tracked alias for " else "") ++ program.location) program.location
        | .error _ =>
          if isLong then writeOut (name ++ ": not found\n")
          return false

/-- The place of a name in the list of programs that were found. -/
def listPlace (name : String) : Nat :=
  let codes := name.toList.map Char.toNat
  (16 * codes.headD 0 + Number.total codes) % 1 <<< 15 % 31

/-- Looks programs up without running them, or lists those that were found. -/
def hash (arguments : List String) : ShellM Nat := do
  let (options, names) ← readOptions "r" "" arguments
  if !options.isEmpty then modify fun s => { s with located := [] }
  if names.isEmpty then
    if options.isEmpty then
      let found := (← get).located
      (found.mergeSort fun a b => listPlace a.1 ≤ listPlace b.1).forM fun (_, location) =>
        writeOut (location ++ "\n")
    return 0
  let results ← names.mapM fun name => do
    let s ← get
    if isBuiltin name || (s.functions.find? name).isSome then return true
    match Executable.find isStandard s.session.tree (s.valueOf? "PATH") name with
    | .ok program =>
      remember name program.location
      return true
    | .error _ =>
      warn (name ++ ": not found")
      return false
  return if results.all id then 0 else 1

/-- Waits for jobs: for all of them, or for those that are named. -/
def wait (e : Engine) (arguments : List String) : ShellM Nat := do
  if arguments.isEmpty then
    (finishJobs e jobLimit : StateM State Unit)
    modify fun s => { s with jobs := [] }
    return 0
  let results ← arguments.mapM fun w => do
    match jobNamed? (← get) w with
    | some job =>
      let ending ← awaitJob e job.processId
      return (ending.map Ending.status).getD 127
    | none =>
      if w.toNat?.isNone then fail ("No such job: " ++ w)
      return 127
  return results.getLastD 0
where
  jobNamed? := Builtin.jobNamed?

mutual

/-- Runs a command of the shell by name. -/
def runBuiltin (e : Engine) (isTested : Bool) (name : String) (arguments : List String) :
    ShellM Unit := do
  match name, arguments with
  | "eval", words =>
    let text := String.intercalate " " words
    setStatus 0
    runText e text isTested
  | ".", file :: _ => runFile e file
  | ".", [] => fail "filename argument required"
  | "exec", [] => setStatus 0
  | "exec", program :: words => replaceShell e program words
  | "type", words =>
    let found ← words.mapM (describe true)
    setStatus (if found.all id then 0 else 127)
  | "hash", words => setStatus (← hash words)
  | "wait", words => setStatus (← wait e words)
  | "command", words => runPlain e words
  | name, words =>
    match builtins.lookup name with
    | some builtin => setStatus (← builtin words)
    | none => fail "No current job"

/-- Tells what names stand for, as `command` does with its options. -/
def runPlain (_ : Engine) (arguments : List String) : ShellM Unit := do
  let (options, words) ← readOptions "pvV" "" arguments
  match options.getLast?.map (·.1) with
  | some 'v' =>
    let found ← (words.take 1).mapM (describe false)
    setStatus (if found.all id then 0 else 127)
  | some 'V' =>
    let found ← (words.take 1).mapM (describe true)
    setStatus (if found.all id then 0 else 127)
  | _ => setStatus 0

end

/-- The words behind `command` that it runs; none if it tells what words stand for. -/
def plainWords? : List String → Option (List String)
  | "--" :: words => some words
  | "-p" :: words => plainWords? words
  | word :: words => if word.startsWith "-" then none else some (word :: words)
  | [] => none

/-- The words of a command. What follows a command that takes assignments is expanded as those. -/
def expandCommand (e : Engine) : List Word → List String → ShellM (List String)
  | [], acc => return acc
  | w :: ws, acc => do
    let isAssignment := match w with
      | .text false cs :: _ => (assignedName? cs).isSome
      | _ => false
    let fields ← if isAssignment && takesAssignments (acc.headD "") then
        pure [← expandAssignmentWord e w]
      else expandFields e w
    expandCommand e ws (acc ++ fields)
where
  expandAssignmentWord (e : Engine) (w : Word) : ShellM String := do
    match assignmentOf? w with
    | some (name, value) => return name ++ "=" ++ (← expandText e value true)
    | none => expandText e w true

/-- Writes a command as it is run, to where messages went before its redirections. -/
def trace (e : Engine) (errors : Option Nat) (words : List String) : ShellM Unit := do
  let s ← get
  if s.options.contains 'x' && !s.isTracing && !words.isEmpty then
    set { s with isTracing := true }
    let mark ← expandMark (s.valueOr "PS4" "+ ")
    modify fun s => { s with isTracing := false }
    if let some index := errors then
      let system := (← get).session.system
      let (_, system) := system.write index (mark ++ String.intercalate " " words ++ "\n").toList
      modify fun s => { s with session.system := system }
where
  /-- The mark in front of a trace, in which parameters stand for their values. -/
  expandMark (text : String) : ShellM String := do
    let reader : Reader := { text := text.toList }
    let none : Bool → ReadM Command := fun _ => return .nothing
    match ((readWord none (.document false [])).run reader).1 with
    | .ok w => expandDocument e w
    | .error _ => return text

/-- Gives variables their values for one command, and exports them. -/
def assignFor (assignments : List (String × String)) : ShellM (List (String × Option Variable)) := do
  let before := (← get).bindings
  assignments.forM fun (name, value) => assign name value true
  return assignments.map fun (name, _) => (name, before.find? name)

/-- Runs a command that is assignments, words and redirections. -/
def runSimple (e : Engine) (isTested : Bool) (line : Nat) (assignments : List (String × Word))
    (words : List Word) (redirects : List Redirect) : ShellM Unit := do
  modify fun s => { s with line, substituted := 0 }
  let fields ← expandCommand e words []
  let s ← get
  let errors := s.session.fileOf? standardError
  let before := s.session.descriptors
  let (isPlain, called) := match fields with
    | "command" :: rest => match plainWords? rest, s.functions.find? "command" with
      | some (w :: ws), none => (true, w :: ws)
      | _, _ => (false, fields)
    | _ => (false, fields)
  let name := called.headD ""
  let callee := calleeOf s (!isPlain) name
  let isSpecial := !isPlain && match callee with
    | .builtin name => specialNames.contains name
    | _ => false
  let keepsDescriptors := match callee with
    | .builtin "exec" => !called.isEmpty
    | _ => false
  let body : ShellM Unit := do
    if !(← redirectAll e redirects) then
      setStatus 2
      if isSpecial then throw .failure
    else
      let values ← assignments.mapM fun (name, w) => do
        let value ← expandText e w true
        if called.isEmpty || isSpecial then assign name value
        return (name, value)
      let shown := values.map fun (name, value) => name ++ "=" ++ value
      if called.isEmpty then
        trace e errors shown
        setStatus (← get).substituted
      else if isSpecial then
        trace e errors (shown ++ fields)
        runCalled callee called
      else
        let old ← assignFor values
        afterwards (do
          trace e errors (shown ++ fields)
          runCalled callee called) (restoreVariables old)
  afterwards body (if keepsDescriptors then return ()
    else modify fun s => { s with session.descriptors := before })
where
  runCalled (callee : Callee) (called : List String) : ShellM Unit := do
    let name := called.headD ""
    let arguments := called.drop 1
    match callee with
    | .function body => callFunction e isTested body arguments
    | .program name => runProgram e ((← get).valueOf? "PATH") name arguments
    | .builtin _ =>
      try speakingAs name (runBuiltin e isTested name arguments) catch
        | .failure =>
          if specialNames.contains name then throw .failure else return ()
        | other => throw other

/-- Runs a body for each value. -/
def runEach (e : Engine) (isTested : Bool) (name : String) (values : List String) (body : Command) :
    ShellM Unit := do
  setStatus 0
  modify fun s => { s with loopDepth := s.loopDepth + 1 }
  afterwards (go values) (modify fun s => { s with loopDepth := s.loopDepth - 1 })
where
  go : List String → ShellM Unit
    | [] => return ()
    | value :: rest => do
      assign name value
      let goesOn ← try
          e.run isTested body
          pure true
        catch
          | .leave k => if k ≤ 1 then pure false else throw (.leave (k - 1))
          | .again k => if k ≤ 1 then pure true else throw (.again (k - 1))
          | other => throw other
      if goesOn then go rest else return ()

/-- Runs a body while a condition holds, or until it does. -/
def runLoop (e : Engine) (isTested isUntil : Bool) (condition body : Command) : ShellM Unit := do
  modify fun s => { s with loopDepth := s.loopDepth + 1 }
  afterwards (go roundLimit 0) (modify fun s => { s with loopDepth := s.loopDepth - 1 })
where
  go : Nat → Nat → ShellM Unit
    | 0, _ => throw .endless
    | n + 1, last => do
      let next ← step last
      match next with
      | some last => go n last
      | none => return ()
  /-- One round; gives its status, or nothing at the end of the loop. -/
  step (last : Nat) : ShellM (Option Nat) := do
    try
      e.run true condition
      if ((← get).status == 0) == isUntil then
        setStatus last
        return none
      e.run isTested body
      return some (← get).status
    catch
      | .leave k =>
        if k ≤ 1 then return none else throw (.leave (k - 1))
      | .again k =>
        if k ≤ 1 then return some (← get).status else throw (.again (k - 1))
      | other => throw other

/-- Runs the first branch that has a pattern for a text. -/
def runChoice (e : Engine) (isTested : Bool) (text : String) :
    List (List Word × Command) → ShellM Unit
  | [] => setStatus 0
  | (patterns, body) :: rest => do
    if ← accepts patterns then
      match body with
      | .nothing => setStatus 0
      | body => e.run isTested body
    else runChoice e isTested text rest
where
  accepts : List Word → ShellM Bool
    | [] => return false
    | w :: ws => do
      if (← expandPattern e w).accepts text.toList then return true else accepts ws

/-- Runs commands with the output of each as the input of the next. -/
def runPipeline (e : Engine) (isTested : Bool) : List Command → ShellM Unit
  | [] => return ()
  | [last] => do takeEnding (← subshell e (e.run isTested last))
  | stage :: rest => do
    let (index, system) := (← get).session.system.addPipe
    modify fun s => { s with session.system := system }
    let ending ← subshell e do
      modify fun s => { s with session := s.session.setDescriptor standardOutput index }
      e.run isTested stage
    if ending == .endless then throw .endless
    keepingDescriptors do
      modify fun s => { s with session := s.session.setDescriptor standardInput index }
      runPipeline e isTested rest

/-- Notes a command as a job of its own. -/
def runInBackground (body : Command) : ShellM Unit := do
  let s ← get
  let processId := s.session.system.nextProcess
  let system : System := { s.session.system with nextProcess := processId + 1 }
  let (index, system) := system.open_ { channel := .nowhere }
  let core := { s.toCore with session := s.session.setDescriptor standardInput index }
  set { s with
    session.system := system
    lastBackground := some processId
    status := 0
    jobs := s.jobs ++ [Job.mk processId (some (core, body)) (.exited 0)] }

/-- Ends the shell after a failure that nothing tests, if it is to end then. -/
def checkFailure (isTested : Bool) (body : ShellM Unit) : ShellM Unit := do
  let checks := !isTested && (← isSet 'e')
  body
  if checks && (← get).status != 0 then throw .exit

/-- Runs a command, with the traps of signals that arrive before or in it. -/
def runCommand (e : Engine) (isTested : Bool) (command : Command) : ShellM Unit := do
  match command with
  | .nothing => return ()
  | .simple line assignments words redirects =>
    checkFailure isTested (runSimple e isTested line assignments words redirects)
    runTraps e
  | .redirected line body redirects =>
    modify fun s => { s with line }
    withRedirects e redirects (e.run isTested body)
  | .subshell line body redirects =>
    modify fun s => { s with line }
    checkFailure isTested do
      let ending ← subshell e (withRedirects e redirects (e.run isTested body))
      takeEnding ending
    runTraps e
  | .background line body redirects =>
    modify fun s => { s with line }
    runInBackground (if redirects.isEmpty then body else .redirected line body redirects)
  | .pipeline stages true => runInBackground (.pipeline stages false)
  | .pipeline stages false =>
    checkFailure isTested (runPipeline e isTested stages)
    runTraps e
  | .negation body =>
    e.run true body
    setStatus (if (← get).status = 0 then 1 else 0)
  | .both first second =>
    e.run true first
    if (← get).status = 0 then e.run isTested second
  | .either first second =>
    e.run true first
    if (← get).status ≠ 0 then e.run isTested second
  | .sequence parts => parts.forM (e.run isTested)
  | .conditional condition yes no =>
    e.run true condition
    if (← get).status = 0 then e.run isTested yes
    else
      setStatus 0
      e.run isTested no
  | .loop isUntil condition body => runLoop e isTested isUntil condition body
  | .each line name words body =>
    modify fun s => { s with line }
    let values ← words.mapM (expandFields e)
    runEach e isTested name values.flatten body
  | .choice line subject branches =>
    modify fun s => { s with line }
    let text ← expandText e subject
    runChoice e isTested text branches
  | .function name body =>
    modify fun s => { s with functions := s.functions.insert name body, status := 0 }

mutual

/-- Runs a command with so many nested ones. -/
def runWithin : Nat → Bool → Command → ShellM Unit
  | 0, _, _ => throw .endless
  | n + 1, isTested, command =>
    runCommand ⟨fun t c => runWithin n t c, fun words => launchWithin n words⟩ isTested command

/-- Starts the program that words name, with so many nested commands. -/
def launchWithin : Nat → List String → SessionM (Except FileError Ending)
  | 0, _ => return .ok .endless
  | n + 1, words =>
    launchWords ⟨fun t c => runWithin n t c, fun words => launchWithin n words⟩ words

end

/-- Commands that run inside each other at most. -/
def nestingLimit : Nat := 20000

/-- The engine with room for so many nested commands. -/
def engine (limit : Nat) : Engine := ⟨runWithin limit, launchWithin limit⟩

end TestSynth.Shell
