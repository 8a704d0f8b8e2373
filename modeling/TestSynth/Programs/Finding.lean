import TestSynth.Programs.Filing
import TestSynth.Programs.Launching
import TestSynth.Regex.Parser
/-!
Finding files below directories by an expression that is evaluated for each of them.
-/
namespace TestSynth.Programs

open Process Tool

/-- What is asked of a file, or done with it. -/
inductive FileTest where
  | always (value : Bool)
  | name (pattern : Text.Pattern) (foldsCase : Bool)
  | path (pattern : Text.Pattern) (foldsCase : Bool)
  | target (pattern : Text.Pattern)
  | expression (searcher : Regex.Searcher)
  | kind (letters : List Char)
  | empty
  /-- More, less or just so many units of so many bytes. -/
  | size (order : Ordering) (count unit : Nat)
  | runs
  /-- The rights that a file has: all of some bits, any of them, or exactly them. -/
  | rights (sign : Option Char) (bits : Nat)
  | print (ending : String)
  | format (text : List Char)
  | run (index : Nat) (words : List String) (isJoined : Bool)
  | remove
  | prune
  | quit
  | not (t : FileTest)
  | both (a b : FileTest)
  | either (a b : FileTest)
  | inTurn (a b : FileTest)
deriving Inhabited

namespace FileTest

/-- What bounds a search besides its expression. -/
structure Bounds where
  least : Nat := 0
  most : Option Nat := none
  followsLinks : Bool := false
  isDepthFirst : Bool := false

structure Reading where
  rest : List String
  bounds : Bounds := {}
  /-- Commands read so far. -/
  commands : Nat := 0
  /-- Whether anything is done that makes printing needless. -/
  acts : Bool := false

abbrev ReadM := StateT Reading (Except String)

def argument (name : String) : ReadM String := do
  let s ← get
  match s.rest with
  | [] => throw ("missing argument to \x60" ++ name ++ "'")
  | w :: rest =>
    set { s with rest }
    return w

def patternOf (w : String) (foldsCase : Bool := false) : Text.Pattern :=
  Text.Pattern.ofText (if foldsCase then w.toList.map Char.toLower else w.toList)

/-- A number with a sign that asks for more or less. -/
def ordered (name word : String) : ReadM (Ordering × Nat × List Char) := do
  let (order, cs) := match word.toList with
    | '+' :: cs => (Ordering.gt, cs)
    | '-' :: cs => (Ordering.lt, cs)
    | cs => (Ordering.eq, cs)
  let digits := cs.takeWhile Char.isDigit
  if digits.isEmpty then throw ("invalid argument \x60" ++ word ++ "' to \x60" ++ name ++ "'")
  return (order, Number.ofDigits digits, cs.drop digits.length)

/-- The words of a command up to its end; the second tells whether it takes many files at once. -/
def commandWords : List String → Option (List String × Bool × List String)
  | [] => none
  | ";" :: rest => some ([], false, rest)
  | "\x7b\x7d" :: "+" :: rest => some ([], true, rest)
  | w :: rest => (commandWords rest).map fun (words, isJoined, rest) => (w :: words, isJoined, rest)

def acting (t : FileTest) : ReadM FileTest := do
  modify fun s => { s with acts := true }
  return t

/-- Bits of rights from a mode such as `-u+x`, `/111` or `644`. -/
def rightsOf (word : String) : Option (Option Char × Nat) :=
  let (sign, cs) := match word.toList with
    | '-' :: cs => (some '-', cs)
    | '/' :: cs => (some '/', cs)
    | cs => (none, cs)
  if !cs.isEmpty && cs.all (fun c => '0' ≤ c && c ≤ '7') then
    some (sign, cs.foldl (fun n c => 8 * n + Number.digitValue c) 0)
  else
    ((Text.fields (· == ',') cs).foldlM added 0).map fun bits => (sign, bits)
where
  bit (c : Char) : Option Nat :=
    match c with
    | 'r' => some 4
    | 'w' => some 2
    | 'x' => some 1
    | _ => none
  added (total : Nat) (clause : List Char) : Option Nat := do
    let who := clause.takeWhile fun c => "ugoa".toList.contains c
    match clause.drop who.length with
    | op :: letters =>
      if op != '+' && op != '=' then none
      let bits ← letters.foldlM (fun n c => (bit c).map (n ||| ·)) 0
      let all := who.isEmpty || who.contains 'a'
      return total ||| (if all || who.contains 'u' then bits * 64 else 0) |||
        (if all || who.contains 'g' then bits * 8 else 0) |||
        (if all || who.contains 'o' then bits else 0)
    | [] => none

def readSingle (name : String) : ReadM FileTest := do
  let pattern (foldsCase : Bool := false) : ReadM Text.Pattern := return patternOf (← argument name) foldsCase
  match name with
  | "-true" => return .always true
  | "-false" => return .always false
  | "-name" => return .name (← pattern) false
  | "-iname" => return .name (← pattern true) true
  | "-path" | "-wholename" => return .path (← pattern) false
  | "-ipath" | "-iwholename" => return .path (← pattern true) true
  | "-lname" => return .target (← pattern)
  | "-regex" | "-iregex" =>
    let word ← argument name
    match Regex.parse .basic word.toList with
    | .ok r => return .expression (r.asLine.searcher (name == "-iregex"))
    | .error problem => throw (problem.message)
  | "-type" | "-xtype" =>
    let word ← argument name
    let letters := (Text.fields (· == ',') word.toList).flatten
    match letters.find? fun c => !"bcdpfls".toList.contains c with
    | some c => throw ("Unknown argument to " ++ name ++ ": " ++ String.singleton c)
    | none =>
      if letters.isEmpty then throw ("Arguments to " ++ name ++ " should contain at least one letter")
      return .kind letters
  | "-empty" => return .empty
  | "-size" =>
    let word ← argument name
    let (order, count, unit) ← ordered name word
    match unit with
    | [] | ['b'] => return .size order count 512
    | ['c'] => return .size order count 1
    | ['w'] => return .size order count 2
    | ['k'] => return .size order count 1024
    | ['M'] => return .size order count (1024 * 1024)
    | ['G'] => return .size order count (1024 * 1024 * 1024)
    | _ => throw ("invalid -size type \x60" ++ String.ofList (unit.take 1) ++ "'")
  | "-executable" => return .runs
  | "-readable" | "-writable" => return .always true
  | "-user" | "-group" =>
    let word ← argument name
    return .always (word == "root" || word == "0")
  | "-nouser" | "-nogroup" => return .always false
  | "-mtime" | "-atime" | "-ctime" | "-mmin" | "-amin" | "-cmin" =>
    let (order, count, _) ← ordered name (← argument name)
    return .always (match order with
      | .gt => false
      | .eq => count == 0
      | .lt => 0 < count)
  | "-links" =>
    let (order, count, _) ← ordered name (← argument name)
    return .always (compare 1 count == order)
  | "-newer" | "-anewer" | "-cnewer" =>
    let _ ← argument name
    return .always false
  | "-perm" =>
    let word ← argument name
    match rightsOf word with
    | some (sign, bits) => return .rights sign bits
    | none => throw ("invalid mode " ++ quote word)
  | "-print" => acting (.print "\n")
  | "-print0" => acting (.print "\x00")
  | "-printf" => acting (.format (← argument name).toList)
  | "-delete" =>
    modify fun s => { s with bounds.isDepthFirst := true }
    acting .remove
  | "-prune" => return .prune
  | "-quit" => acting .quit
  | "-exec" | "-execdir" =>
    let s ← get
    match commandWords s.rest with
    | some (words, isJoined, rest) =>
      if words.isEmpty then throw ("missing argument to \x60" ++ name ++ "'")
      set { s with rest, commands := s.commands + 1 }
      acting (.run s.commands words isJoined)
    | none => throw ("missing argument to \x60" ++ name ++ "'")
  | "-maxdepth" | "-mindepth" =>
    let word ← argument name
    match count? word with
    | none => throw ("Expected a positive decimal integer argument to " ++ name ++ ", but got " ++ quote word)
    | some n =>
      modify fun s => { s with bounds := if name == "-maxdepth" then { s.bounds with most := some n }
        else { s.bounds with least := n } }
      return .always true
  | "-depth" | "-d" =>
    modify fun s => { s with bounds.isDepthFirst := true }
    return .always true
  | "-follow" =>
    modify fun s => { s with bounds.followsLinks := true }
    return .always true
  | "-mount" | "-xdev" | "-noleaf" | "-daystart" | "-ignore_readdir_race" | "-warn" | "-nowarn" =>
    return .always true
  | "-regextype" =>
    let _ ← argument name
    return .always true
  | name =>
    if name.startsWith "-" then throw ("unknown predicate \x60" ++ name ++ "'")
    else throw ("paths must precede expression: " ++ quote name)

mutual

/-- Tests separated by commas; the first argument bounds the nesting. -/
def readAll : Nat → ReadM FileTest
  | 0 => return .always true
  | n + 1 => do
    let first ← readEither n
    match (← get).rest with
    | "," :: rest =>
      modify fun s => { s with rest }
      return .inTurn first (← readAll n)
    | _ => return first

def readEither : Nat → ReadM FileTest
  | 0 => return .always true
  | n + 1 => do
    let first ← readBoth n
    match (← get).rest with
    | "-o" :: rest | "-or" :: rest =>
      modify fun s => { s with rest }
      return .either first (← readEither n)
    | _ => return first

def readBoth : Nat → ReadM FileTest
  | 0 => return .always true
  | n + 1 => do
    let first ← readNot n
    match (← get).rest with
    | "-a" :: rest | "-and" :: rest =>
      modify fun s => { s with rest }
      return .both first (← readBoth n)
    | w :: _ =>
      if ["-o", "-or", ",", ")"].contains w then return first
      return .both first (← readBoth n)
    | [] => return first

def readNot : Nat → ReadM FileTest
  | 0 => return .always true
  | n + 1 => do
    let s ← get
    match s.rest with
    | [] => throw "invalid expression; expected to find a test."
    | "!" :: rest | "-not" :: rest =>
      if rest.isEmpty then throw ("expected an expression after " ++ quote (s.rest.headD ""))
      set { s with rest }
      return .not (← readNot n)
    | "(" :: rest =>
      set { s with rest }
      let inside ← readAll n
      match (← get).rest with
      | ")" :: rest =>
        modify fun s => { s with rest }
        return inside
      | _ => throw "invalid expression; I was expecting to find a ')' somewhere but did not see one."
    | w :: rest =>
      if ["-o", "-or", "-a", "-and"].contains w then
        throw ("invalid expression; you have used a binary operator '" ++ w ++ "' with nothing before it.")
      set { s with rest }
      readSingle w

end

end FileTest

/-- What a search has done so far. -/
structure FindState where
  bounds : FileTest.Bounds
  test : FileTest
  prunes : Bool := false
  isDone : Bool := false
  /-- Files that wait for a command that takes many, by the index of the command. -/
  waiting : List (Nat × List String × List String) := []

abbrev FindM := StateT FindState ToolM

namespace FindState

/-- A file that is looked at: its name, its depth, the name it was found under, and what it is. -/
structure Visited where
  name : String
  depth : Nat
  root : String
  node : FileNode

def kindOf : FileNode → Char
  | .directory _ => 'd'
  | .file .. => 'f'
  | .link _ => 'l'

def sizeOf : FileNode → Nat
  | .file content _ => content.length
  | .link target => (Text.encode target).length
  | .directory _ => 4096

def bitsOf : FileNode → Nat
  | .file _ false => 0o644
  | .link _ => 0o777
  | _ => 0o755

/-- A format filled in; letters behind a percent sign stand for what is known of a file. -/
def filled (v : Visited) : List Char → List Char
  | '%' :: c :: rest =>
    let text := match c with
      | 'p' => v.name
      | 'f' => if v.name == "/" then "/" else baseName v.name
      | 'h' => if v.name.toList.contains '/' then directoryName v.name else "."
      | 'P' => if v.name == v.root then "" else (v.name.drop (nameIn v.root "").length).toString
      | 'H' => v.root
      | 'd' => toString v.depth
      | 's' => toString (sizeOf v.node)
      | 'y' => String.singleton (kindOf v.node)
      | 'm' => String.ofList (Nat.toDigits 8 (bitsOf v.node))
      | 'l' => match v.node with
        | .link target => Text.spread target
        | _ => ""
      | 'u' | 'g' => "root"
      | '%' => "%"
      | c => String.ofList ['%', c]
    text.toList ++ filled v rest
  | '\\' :: c :: rest =>
    let shown : List Char := match c with
      | 'n' => ['\n']
      | 't' => ['\t']
      | '0' => [Char.ofNat 0]
      | '\\' => ['\\']
      | c => ['\\', c]
    shown ++ filled v rest
  | c :: rest => c :: filled v rest
  | [] => []

def evaluate (launch : Launcher) (v : Visited) : FileTest → FindM Bool
  | .always value => return value
  | .name pattern foldsCase =>
    let last := (baseName v.name).toList
    return pattern.accepts (if foldsCase then last.map Char.toLower else last)
  | .path pattern foldsCase =>
    let cs := v.name.toList
    return pattern.accepts (if foldsCase then cs.map Char.toLower else cs)
  | .target pattern => return match v.node with
    | .link target => pattern.accepts (Text.spread target).toList
    | _ => false
  | .expression s => return s.finds v.name.toList
  | .kind letters => return letters.contains (kindOf v.node)
  | .empty => return match v.node with
    | .file content _ => content.isEmpty
    | .directory entries => entries.isEmpty
    | .link _ => false
  | .size order count unit => return compare ((sizeOf v.node + unit - 1) / unit) count == order
  | .runs => return match v.node with
    | .file _ executable => executable
    | _ => true
  | .rights sign bits =>
    let own := bitsOf v.node
    return match sign with
      | some '-' => own &&& bits == bits
      | some _ => bits == 0 || own &&& bits != 0
      | none => own == bits
  | .print ending => do
    (print (v.name ++ ending) : ToolM Unit)
    return true
  | .format text => do
    (put (filled v text) : ToolM Unit)
    return true
  | .run index words isJoined => do
    if isJoined then
      modify fun s => { s with waiting := match s.waiting.lookup index with
        | some (words, names) => (index, words, names ++ [v.name]) :: s.waiting.filter (·.1 != index)
        | none => (index, words, [v.name]) :: s.waiting }
      return true
    else
      let words := words.map (Text.replaceString "\x7b\x7d" v.name)
      match ← (launchIn launch id words : ToolM _) with
      | .ok ending => return ending.status == 0
      | .error e =>
        (say ("find: " ++ quote (words.headD "") ++ ": " ++ e.reason ++ "\n") : ToolM Unit)
        return false
  | .remove => do
    if v.name == "." then return true
    let path := Session.pathOf v.name
    (change ("cannot delete " ++ quote v.name) (fun t =>
      if v.node.isDirectory then t.removeEmptyDirectory path else t.removeFile path) : ToolM Bool)
  | .prune => do
    modify fun s => { s with prunes := true }
    return true
  | .quit => do
    modify fun s => { s with isDone := true }
    return true
  | .not t => return !(← evaluate launch v t)
  | .both a b => do
    if ← evaluate launch v a then
      if (← get).isDone then return true
      evaluate launch v b
    else return false
  | .either a b => do
    if ← evaluate launch v a then return true
    evaluate launch v b
  | .inTurn a b => do
    let _ ← evaluate launch v a
    evaluate launch v b

/-- Looks at a file and at all below it; the first argument bounds the depth. -/
def visit (launch : Launcher) (root : String) : Nat → Nat → String → FindM Unit
  | 0, _, _ => return ()
  | n + 1, depth, name => do
    if (← get).isDone then return
    let s ← get
    let path := Session.pathOf name
    let t ← (Tool.tree : ToolM FileTree)
    let found : Except FileError (Location × FileNode) :=
      if s.bounds.followsLinks then
        match t.find path with
        | .ok r => .ok r
        | .error _ => t.findItself path
      else t.findItself path
    match found with
    | .error e => (complain (quote name ++ ": " ++ e.reason) : ToolM Unit)
    | .ok (_, node) =>
      let v : Visited := { name, depth, root, node }
      let consider : FindM Unit := do
        if s.bounds.least ≤ depth then
          let _ ← evaluate launch v s.test
      let descend : FindM Unit := do
        if node.isDirectory && s.bounds.most.all (depth < ·) then
          match (← (Tool.tree : ToolM FileTree)).names path with
          | .error e => (complain (quote name ++ ": " ++ e.reason) : ToolM Unit)
          | .ok names => for child in names do
              visit launch root n (depth + 1) (nameIn name (Text.spread child))
      if s.bounds.isDepthFirst then
        descend
        if !(← get).isDone then consider
      else
        modify fun s => { s with prunes := false }
        consider
        let s ← get
        if !s.prunes && !s.isDone then descend

end FindState

/-- Levels below a directory at most. -/
def findDepth : Nat := 1000

def find : Program := fun launch arguments => do
  let options := arguments.takeWhile fun w => ["-L", "-P", "-H", "-O1", "-O2", "-O3"].contains w
  let rest := arguments.drop options.length
  let isPath (w : String) : Bool := !w.startsWith "-" && w != "(" && w != "!"
  let paths := rest.takeWhile isPath
  let words := rest.drop paths.length
  let reading : FileTest.Reading := { rest := words, bounds := { followsLinks := options.contains "-L" } }
  let read : FileTest.ReadM FileTest := do
    if words.isEmpty then return .always true
    let t ← FileTest.readAll (4 * words.length + 8)
    match (← get).rest with
    | [] => return t
    | ")" :: _ => throw "invalid expression; you have too many ')'"
    | w :: _ => throw ("paths must precede expression: " ++ quote w)
  match read.run reading with
  | .error message => abort message
  | .ok (t, reading) =>
    let test := if reading.acts then t else .both t (.print "\n")
    let state : FindState := { bounds := reading.bounds, test }
    let body : FindM Unit := do
      for path in (if paths.isEmpty then ["."] else paths) do
        FindState.visit launch path findDepth 0 path
    let (_, state) ← body.run state
    for (_, words, names) in state.waiting.reverse do
      match ← launchIn launch id (words ++ names) with
      | .ok ending => if ending.status != 0 then setStatus 1
      | .error e => complain (quote (words.headD "") ++ ": " ++ e.reason)

end TestSynth.Programs
