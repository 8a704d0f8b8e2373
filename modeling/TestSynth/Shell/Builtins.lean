import TestSynth.Programs.Condition
import TestSynth.Programs.Format
import TestSynth.Shell.Expansion
/-!
The commands of the shell itself that need no other command to be run.
-/
namespace TestSynth.Shell

open Process Programs

/-- A command of the shell: what it does with its arguments, and its status. -/
abbrev Builtin := List String → ShellM Nat

/-- The options in front of arguments, each with its letter and maybe a value, and the rest. The
letters with a value are given apart. -/
def readOptions (letters valued : String) (arguments : List String) :
    ShellM (List (Char × String) × List String) :=
  go arguments.length arguments
where
  go : Nat → List String → ShellM (List (Char × String) × List String)
    | 0, ws => return ([], ws)
    | _, [] => return ([], [])
    | n + 1, w :: ws =>
      match w.toList with
      | '-' :: c :: cs => do
        if c == '-' && cs.isEmpty then return ([], ws)
        let (found, ws) ← letterAt ws (c :: cs)
        let (more, ws) ← go n ws
        return (found ++ more, ws)
      | _ => return ([], w :: ws)
  letterAt (ws : List String) : List Char → ShellM (List (Char × String) × List String)
    | [] => return ([], ws)
    | c :: cs => do
      if valued.toList.contains c then
        if !cs.isEmpty then return ([(c, String.ofList cs)], ws)
        match ws with
        | value :: ws => return ([(c, value)], ws)
        | [] => fail ("No arg for -" ++ String.singleton c ++ " option")
      else if letters.toList.contains c then
        let (more, ws) ← letterAt ws cs
        return ((c, "") :: more, ws)
      else fail ("Illegal option -" ++ String.singleton c)

/-- A number without a sign. -/
def countOf (word : String) : ShellM Nat := do
  let cs := word.toList
  if cs.isEmpty || !cs.all Char.isDigit then fail ("Illegal number: " ++ word)
  return Number.ofDigits cs

/-- A text in single quotes, with double quotes around the single ones in it; the first argument
bounds the length. -/
def inQuotes (s : String) : String := String.ofList (go (s.length + 1) s.toList)
where
  go : Nat → List Char → List Char
    | 0, _ => []
    | n + 1, cs =>
      let front := cs.takeWhile (· != '\'')
      let behind := cs.drop front.length
      let marks := behind.takeWhile (· == '\'')
      let rest := behind.drop marks.length
      ['\''] ++ front ++ ['\''] ++
        (if marks.isEmpty then [] else ['"'] ++ marks ++ ['"']) ++
        (if rest.isEmpty then [] else go n rest)

/-- A name and the value behind its equals sign, if there is one. -/
def definition (word : String) : String × Option String :=
  let cs := word.toList
  let name := cs.takeWhile (· != '=')
  match cs.drop name.length with
  | [] => (word, none)
  | _ :: value => (String.ofList name, some (String.ofList value))

def checkName (name : String) : ShellM Unit := do
  if !Text.isIdentifier name.toList then fail (name ++ ": bad variable name")

/-- The variables that satisfy a condition, each as a command that defines it. -/
def listVariables (word : String) (wanted : Variable → Bool) : ShellM Unit := do
  let s ← get
  s.bindings.entries.forM fun (name, v) => do
    if wanted v then
      match v.value with
      | some value => writeOut (word ++ name ++ "=" ++ inQuotes value ++ "\n")
      | none => writeOut (word ++ name ++ "\n")

namespace Builtin

def echo : Builtin := fun arguments => do
  let text := String.ofList (echoEscaped arguments)
  match ← inSession (Session.writeText standardOutput text) with
  | .ok () => return 0
  | .error _ =>
    warn "I/O error"
    return 1

def printf : Builtin := fun arguments => do
  match (if arguments.head? == some "--" then arguments.drop 1 else arguments) with
  | [] => fail "usage: printf format [arg ...]"
  | format :: arguments =>
    let p := printFormat format arguments
    p.warnings.forM warn
    match p.failure with
    | some message =>
      warn message
      writeOut (String.ofList p.output.reverse)
      setStatus 2
      throw .failure
    | none =>
      match ← inSession (Session.write standardOutput p.output.reverse) with
      | .ok () => return if p.warnings.isEmpty then 0 else 1
      | .error _ =>
        warn "I/O error"
        return 1

/-- Tests a condition, which ends with a bracket if the command is one. -/
def test (inBrackets : Bool) : Builtin := fun arguments => do
  let words ← if inBrackets then
      if arguments.getLast? == some "]" then pure arguments.dropLast else fail "missing ]"
    else pure arguments
  match Condition.evaluate (← get).session.tree words with
  | .ok value => return if value then 0 else 1
  | .error message => fail message

/-- The place that a path leads to as it is written, from another place. -/
def follow (place path : String) : String :=
  let start := if path.toList.head? == some '/' then [] else ((place.splitOn "/").filter (· != "")).reverse
  let parts := (path.splitOn "/").foldl (fun acc part =>
    if part == "" || part == "." then acc
    else if part == ".." then acc.drop 1
    else part :: acc) start
  "/" ++ String.intercalate "/" parts.reverse

/-- Goes to a directory. Links on the way stay in the name of the place unless that is not
wanted. -/
def goTo (isPhysical : Bool) (path : String) : ShellM Bool := do
  let s ← get
  let target := if isPhysical then path else follow s.place path
  match s.session.tree.find (Session.pathOf target) with
  | .ok (place, .directory _) =>
    let physical := Text.spread (FileTree.absolutePath place).text
    set { s with
      session := { s.session with directory := place }
      place := if isPhysical then physical else target }
    assign "OLDPWD" s.place
    assign "PWD" (← get).place
    return true
  | _ => return false

/-- Whether a path is never looked for in the list of directories. -/
def isDirect (path : String) : Bool :=
  match path.toList with
  | '/' :: _ | ['.'] | ['.', '.'] | '.' :: '/' :: _ | '.' :: '.' :: '/' :: _ => true
  | _ => false

def cd : Builtin := fun arguments => do
  let (options, words) ← readOptions "LP" "" arguments
  let isPhysical := (options.getLast?.map (·.1)) == some 'P'
  let s ← get
  let (path, prints) := match words.head? with
    | none => (s.valueOr "HOME" "", false)
    | some "-" => (s.valueOr "OLDPWD" "", true)
    | some path => (path, false)
  let shown := path
  let path := if path.isEmpty then "." else path
  let searched := if isDirect path then none
    else ((s.valueOr "CDPATH" "").splitOn ":").find? fun dir =>
      !dir.isEmpty && s.session.tree.isDirectory (Session.pathOf (dir ++ "/" ++ path))
  let (target, prints) := match searched with
    | some dir => (dir ++ "/" ++ path, true)
    | none => (path, prints)
  if ← goTo isPhysical target then
    if prints then writeOut ((← get).place ++ "\n")
    return 0
  else fail ("can't cd to " ++ if shown.isEmpty then path else shown)

def pwd : Builtin := fun arguments => do
  let (options, _) ← readOptions "LP" "" arguments
  let s ← get
  let isPhysical := (options.getLast?.map (·.1)) == some 'P'
  writeOut ((if isPhysical then Text.spread (FileTree.absolutePath s.session.directory).text
    else s.place) ++ "\n")
  return 0

def exit : Builtin := fun arguments => do
  if let some word := arguments.head? then setStatus ((← countOf word) % 256)
  throw .exit

def return_ : Builtin := fun arguments => do
  if let some word := arguments.head? then setStatus ((← countOf word) % 256)
  throw .return

/-- The number of loops that a command leaves. -/
def loopCount (arguments : List String) : ShellM Nat := do
  let n ← match arguments.head? with
    | some word => countOf word
    | none => pure 1
  if n = 0 then fail ("Illegal number: " ++ arguments.headD "")
  return min n (← get).loopDepth

def break_ : Builtin := fun arguments => do
  let n ← loopCount arguments
  setStatus 0
  if n = 0 then return 0 else throw (.leave n)

def continue_ : Builtin := fun arguments => do
  let n ← loopCount arguments
  setStatus 0
  if n = 0 then return 0 else throw (.again n)

/-- Marks variables, after giving them values where that is asked. -/
def mark (word : String) (wanted : Variable → Bool) (change : Variable → Variable) : Builtin :=
  fun arguments => do
    let (options, words) ← readOptions "p" "" arguments
    if words.isEmpty || !options.isEmpty then
      listVariables (word ++ " ") wanted
    else
      words.forM fun w => do
        let (name, value) := definition w
        checkName name
        if let some value := value then assign name value
        modify fun s => s.setVariable name (change ((s.bindings.find? name).getD {}))
    return 0

def export_ : Builtin := mark "export" (·.isExported) fun v => { v with isExported := true }

def readonly : Builtin := mark "readonly" (·.isReadOnly) fun v => { v with isReadOnly := true }

/-- Notes what a variable was, to set it back when the function ends. -/
def saveVariable (name : String) : ShellM Unit := modify fun s =>
  match s.saved with
  | [] => s
  | scope :: others =>
    if scope.any (·.1 == name) then s
    else { s with saved := ((name, s.bindings.find? name) :: scope) :: others }

def local_ : Builtin := fun arguments => do
  if (← get).functionDepth = 0 then fail "not in a function"
  arguments.forM fun w => do
    let (name, value) := definition w
    if name == "-" then return ()
    checkName name
    saveVariable name
    if let some value := value then assign name value
  return 0

def unset : Builtin := fun arguments => do
  let (options, words) ← readOptions "fv" "" arguments
  let isFunction := options.getLast?.any (·.1 == 'f')
  words.forM fun name => do
    if isFunction then
      modify fun s => { s with functions := ⟨s.functions.entries.filter (·.1 != name)⟩ }
    else
      checkName name
      unassign name
  return 0

def shift : Builtin := fun arguments => do
  let n ← match arguments.head? with
    | some word => countOf word
    | none => pure 1
  let s ← get
  if s.arguments.length < n then fail "can't shift that many"
  set { s with arguments := s.arguments.drop n, optionIndex := 1, optionOffset := none }
  return 0

/-- The options by name, and whether each is set. -/
def listOptions (asCommands : Bool) : ShellM Unit := do
  let s ← get
  if !asCommands then writeOut "Current option settings\n"
  optionNames.forM fun (letter, name) => do
    let isOn := s.options.contains letter
    if asCommands then writeOut ("set " ++ (if isOn then "-o " else "+o ") ++ name ++ "\n")
    else writeOut (name ++ String.ofList (List.replicate (16 - name.length) ' ') ++
      (if isOn then "on" else "off") ++ "\n")

/-- Sets options in front of arguments. Gives the rest, and whether that replaces the arguments. -/
def setOptions : Nat → List String → ShellM (List String × Bool)
  | 0, ws => return (ws, true)
  | _, [] => return ([], false)
  | n + 1, w :: ws =>
    match w.toList with
    | ['-'] => do
      setOption 'x' false
      setOption 'v' false
      return (ws, !ws.isEmpty)
    | '-' :: '-' :: [] => return (ws, true)
    | sign :: c :: cs => do
      if sign != '-' && sign != '+' then return (w :: ws, true)
      let isOn := sign == '-'
      let letters := c :: cs
      (letters.filter (· != 'o')).forM fun letter =>
        if optionNames.any (·.1 == letter) then setOption letter isOn
        else fail ("Illegal option " ++ String.ofList [sign, letter])
      if !letters.contains 'o' then setOptions n ws
      else match ws with
        | [] =>
          listOptions (!isOn)
          return ([], false)
        | name :: ws =>
          match optionNames.find? (·.2 == name) with
          | some (letter, _) => setOption letter isOn
          | none => fail ("Illegal option " ++ String.singleton sign ++ "o " ++ name)
          setOptions n ws
    | _ => return (w :: ws, true)

def set : Builtin := fun arguments => do
  if arguments.isEmpty then listVariables "" (·.value.isSome)
  else
    let (words, replaces) ← setOptions (arguments.length + 1) arguments
    if replaces then
      modify fun s => { s with arguments := words, optionIndex := 1, optionOffset := none }
  return 0

/-- The fields of a line for so many names; the last name gets what is left, without the separators
that end it. A character that a backslash protects splits nothing. -/
def lineFields (separators : List Char) : Nat → Nat → List (Char × Bool) → List Char → List (List Char)
  | 0, _, _, current => [current.reverse]
  | _, _, [], current => if current.isEmpty then [] else [current.reverse]
  | n + 1, count, (c, splits) :: rest, current =>
    let isSeparator := splits && separators.contains c
    let isBlank := isSeparator && (c == ' ' || c == '\t' || c == '\n')
    if !isSeparator then lineFields separators n count rest (c :: current)
    else if isBlank && current.isEmpty then lineFields separators n count rest []
    else if count ≤ 1 then
      let (kept, _) := remainder (some current) isBlank (c :: current) rest
      [kept.reverse]
    else
      let glyphs := rest.map fun (c, splits) => (c, splits && separators.contains c)
      current.reverse :: lineFields separators n (count - 1) (dropMore isBlank glyphs rest) []
where
  /-- What the last field keeps: `cut` is where it would end now. -/
  remainder (cut : Option (List Char)) (afterBlank : Bool) (all : List Char) :
      List (Char × Bool) → List Char × Bool
    | [] => (cut.getD all, afterBlank)
    | (c, splits) :: rest =>
      if !splits then remainder cut afterBlank (c :: all) rest
      else if separators.contains c && (c == ' ' || c == '\t' || c == '\n') then
        remainder (some (cut.getD all)) afterBlank (c :: all) rest
      else if separators.contains c && afterBlank then remainder cut false (c :: all) rest
      else remainder none false (c :: all) rest
  /-- The rest of a line behind the separators that belong to the one that ended a field. -/
  dropMore : Bool → List (Char × Bool) → List (Char × Bool) → List (Char × Bool)
    | afterBlank, (c, true) :: marks, _ :: rest =>
      if c == ' ' || c == '\t' || c == '\n' then dropMore afterBlank marks rest
      else if afterBlank then dropMore false marks rest
      else (c, true) :: rest
    | _, _, rest => rest

/-- Reads a line; a backslash at its end goes on with the next one unless it stands for itself. The
second part says whether the line has an end. -/
def readLogicalLine (isRaw : Bool) : Nat → ShellM (List (Char × Bool) × Bool)
  | 0 => return ([], false)
  | n + 1 => do
    match ← inSession (Session.readLine standardInput) with
    | .error _ => return ([], false)
    | .ok line =>
      let hasEnd := line.getLast? == some '\n'
      let body := (if hasEnd then line.dropLast else line).filter (· != Char.ofNat 0)
      if isRaw then return (body.map fun c => (c, true), hasEnd)
      else
        let (marks, goesOn) := protect body
        if goesOn && hasEnd then
          let (more, ended) ← readLogicalLine isRaw n
          return (marks ++ more, ended)
        else return (marks, hasEnd)
where
  protect : List Char → List (Char × Bool) × Bool
    | [] => ([], false)
    | ['\\'] => ([], true)
    | '\\' :: c :: cs =>
      let (more, goesOn) := protect cs
      ((c, false) :: more, goesOn)
    | c :: cs =>
      let (more, goesOn) := protect cs
      ((c, true) :: more, goesOn)

def read : Builtin := fun arguments => do
  let (options, names) ← readOptions "r" "p" arguments
  if names.isEmpty then fail "arg count"
  let (marks, hasEnd) ← readLogicalLine (options.any (·.1 == 'r')) roundLimit
  let fields := lineFields (separatorsOf (← get)) marks.length names.length marks []
  (names.zip (List.range names.length)).forM fun (name, k) => do
    checkName name
    assign name (String.ofList (fields.getD k []))
  return if hasEnd then 0 else 1

/-- Writes a message without the name of the shell. -/
def tell (message : String) : ShellM Unit := inSession (Session.say (message ++ "\n"))

/-- The end of a search for options: the place of the search is kept. -/
def finishOptions (name letter : String) (index : Nat) (offset : Option Nat) (isDone : Bool) :
    ShellM Nat := do
  assign "OPTIND" (toString index)
  assign name letter
  modify fun s => { s with optionIndex := index, optionOffset := offset }
  return if isDone then 1 else 0

/-- Finds the next option among arguments. -/
def getopts : Builtin := fun arguments => do
  match arguments with
  | letters :: name :: given =>
    let s ← get
    let words := if given.isEmpty then s.arguments else given
    let inside := match s.optionOffset with
      | some offset =>
        if 1 < s.optionIndex then ((words[s.optionIndex - 2]?).getD "").toList.drop offset else []
      | none => []
    let (rest, index, offset) ← if !inside.isEmpty then
        pure (inside, s.optionIndex, s.optionOffset.getD 0)
      else match (words[s.optionIndex - 1]?).map String.toList with
        | some ('-' :: c :: cs) =>
          if c == '-' && cs.isEmpty then return ← finishOptions name "?" (s.optionIndex + 1) none true
          else pure (c :: cs, s.optionIndex + 1, 1)
        | _ => return ← finishOptions name "?" s.optionIndex none true
    let c := rest.headD '?'
    let behind := rest.drop 1
    let known := letters.toList
    let place := known.dropWhile (· != c)
    let isQuiet := known.head? == some ':'
    if place.isEmpty || c == ':' then
      if isQuiet then assign "OPTARG" (String.singleton c)
      else
        tell ("Illegal option -" ++ String.singleton c)
        unassign "OPTARG"
      finishOptions name "?" index (some (offset + 1)) false
    else if (place.drop 1).head? != some ':' then
      assign "OPTARG" ""
      finishOptions name (String.singleton c) index (some (offset + 1)) false
    else if !behind.isEmpty then
      assign "OPTARG" (String.ofList behind)
      finishOptions name (String.singleton c) index none false
    else match words[index - 1]? with
      | some value =>
        assign "OPTARG" value
        finishOptions name (String.singleton c) (index + 1) none false
      | none =>
        if isQuiet then
          assign "OPTARG" (String.singleton c)
          finishOptions name ":" index none false
        else
          tell ("No arg for -" ++ String.singleton c ++ " option")
          unassign "OPTARG"
          finishOptions name "?" index none false
  | _ => fail "Usage: getopts optstring var [arg]"

def umask : Builtin := fun arguments => do
  match arguments with
  | [] => writeOut "0022\n"
  | ["-S"] => writeOut "u=rwx,g=rx,o=rx\n"
  | _ => pure ()
  return 0

def aliasCommand (name text : String) : String := name ++ "=" ++ inQuotes text ++ "\n"

def aliases : Builtin := fun arguments => do
  if arguments.isEmpty then
    (((← get).aliases.mergeSort fun a b => decide (a.1 ≤ b.1))).forM fun (name, text) =>
      writeOut (aliasCommand name text)
    return 0
  let results ← arguments.mapM fun w => do
    match definition w with
    | (name, some text) =>
      modify fun s => { s with aliases := (name, text) :: s.aliases.filter (·.1 != name) }
      return true
    | (name, none) => match (← get).aliases.lookup name with
      | some text =>
        writeOut (aliasCommand name text)
        return true
      | none =>
        tell ("alias: " ++ name ++ " not found")
        return false
  return if results.all id then 0 else 1

def unalias : Builtin := fun arguments => do
  let (options, names) ← readOptions "a" "" arguments
  if !options.isEmpty then
    modify fun s => { s with aliases := [] }
    return 0
  let results ← names.mapM fun name => do
    if (← get).aliases.any (·.1 == name) then
      modify fun s => { s with aliases := s.aliases.filter (·.1 != name) }
      return true
    else
      tell ("unalias: " ++ name ++ " not found")
      return false
  return if results.all id then 0 else 1

/-- The signal that a word names by its number or its name. -/
def signalOf? (word : String) : Option Signal :=
  match word.toNat? with
  | some n => if n ≤ signalLimit then some n else none
  | none => signalNamed? word

def trap : Builtin := fun arguments => do
  let arguments := if arguments.head? == some "--" then arguments.drop 1 else arguments
  match arguments with
  | [] =>
    let s ← get
    ((s.traps.mergeSort fun a b => decide (a.1 ≤ b.1))).forM fun (signal, action) =>
      writeOut ("trap -- " ++ inQuotes action ++ " " ++ (signalName? signal).getD "" ++ "\n")
    return 0
  | first :: rest =>
    let (action, words) := if rest.isEmpty || first.toNat?.isSome then (none, arguments)
      else (if first == "-" then none else some first, rest)
    setTraps action words
where
  setTraps (action : Option String) : List String → ShellM Nat
    | [] => return 0
    | w :: ws => do
      match signalOf? w with
      | none =>
        tell ("trap: " ++ w ++ ": bad trap")
        return 1
      | some signal =>
        modify fun s =>
          let others := s.traps.filter (·.1 != signal)
          { s with traps := match action with
              | some a => (signal, a) :: others
              | none => others }
        setTraps action ws

/-- Sends a signal to a process. -/
def send (signal : Signal) (processId : Nat) : ShellM Bool := do
  let s ← get
  if processId == s.session.processId then
    receive signal
    return true
  match s.jobs.find? (·.processId == processId) with
  | some job =>
    if job.waiting.isNone then return false
    if !isHarmless signal then
      modify fun s => { s with jobs := s.jobs.map fun j =>
        if j.processId == processId then { j with waiting := none, ending := .killed signal } else j }
    return true
  | none =>
    if processId == s.shellProcess then
      modify fun s => { s with session.system.sent := s.session.system.sent ++ [(processId, signal)] }
      return true
    else return false

/-- The processes of the jobs by number. -/
def jobNamed? (s : State) (word : String) : Option Job :=
  match word.toList with
  | '%' :: digits =>
    if digits.isEmpty || digits == ['%'] || digits == ['+'] then s.jobs.getLast?
    else ((String.ofList digits).toNat?).bind fun n => s.jobs[n - 1]?
  | _ => (word.toNat?).bind fun n => s.jobs.find? (·.processId == n)

def kill : Builtin := fun arguments => do
  let usage : ShellM Nat :=
    fail "Usage: kill [-s sigspec | -signum | -sigspec] [pid | job]... or\nkill -l [exitstatus]"
  match arguments with
  | [] => usage
  | "-l" :: [] =>
    (List.range (signalLimit + 1)).forM fun n => do
      if 0 < n then
        if let some name := signalName? n then writeOut (name ++ "\n")
    return 0
  | "-l" :: word :: _ =>
    match (word.toNat?).bind fun n => signalName? (if 128 < n then n - 128 else n) with
    | some name =>
      writeOut (name ++ "\n")
      return 0
    | none => fail ("invalid signal number or exit status: " ++ word)
  | _ =>
    let (signal, words) ← match arguments with
      | "-s" :: name :: rest => pure (signalOf? name, rest)
      | "--" :: rest => pure (some terminate, rest)
      | first :: rest => match first.toList with
        | '-' :: name => pure (signalOf? (String.ofList name), rest)
        | _ => pure (some terminate, arguments)
      | [] => pure (none, [])
    match signal with
    | none => fail ("invalid signal number or name: " ++
        (match arguments with
          | "-s" :: name :: _ => name
          | first :: _ => String.ofList (first.toList.drop 1)
          | [] => ""))
    | some signal =>
      let words := if words.head? == some "--" then words.drop 1 else words
      if words.isEmpty then usage
      else
        let results ← words.mapM fun w => do
          match jobNamed? (← get) w with
          | some job =>
            if ← send signal job.processId then return true
            warn "No such process"
            return false
          | none => match w.toNat? with
            | some n =>
              if ← send signal n then return true
              warn "No such process"
              return false
            | none => fail ("Illegal number: " ++ w)
        return if results.all id then 0 else 1

def ulimit : Builtin := fun _ => do
  writeOut "unlimited\n"
  return 0

def times : Builtin := fun _ => do
  writeOut "0m0.000000s 0m0.000000s\n0m0.000000s 0m0.000000s\n"
  return 0

end Builtin

/-- The commands of the shell that stand on their own. -/
def builtins : List (String × Builtin) :=
  [(":", fun _ => return 0), ("true", fun _ => return 0), ("false", fun _ => return 1),
    ("echo", .echo), ("printf", .printf), ("test", .test false), ("[", .test true), ("cd", .cd),
    ("chdir", .cd), ("pwd", .pwd), ("exit", .exit), ("return", .return_), ("break", .break_),
    ("continue", .continue_), ("export", .export_), ("readonly", .readonly), ("local", .local_),
    ("unset", .unset), ("shift", .shift), ("set", .set), ("read", .read), ("getopts", .getopts),
    ("umask", .umask), ("alias", .aliases), ("unalias", .unalias), ("trap", .trap), ("kill", .kill),
    ("ulimit", .ulimit), ("times", .times), ("jobs", fun _ => return 0)]

end TestSynth.Shell
