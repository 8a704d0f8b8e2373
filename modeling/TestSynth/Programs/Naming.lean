import TestSynth.Programs.Lines
/-!
Programs about the names of files: their parts, and where they lead.
-/
namespace TestSynth.Programs

open Process Tool

/-- A name without slashes at its end, the root apart. -/
def dropSlashes (s : String) : String :=
  match Text.dropEndWhile (· == '/') s.toList with
  | [] => if s.isEmpty then "" else "/"
  | cs => String.ofList cs

/-- The last part of a name. -/
def baseName (s : String) : String :=
  match dropSlashes s with
  | "/" => "/"
  | s => String.ofList (Text.takeEndWhile (· != '/') s.toList)

/-- What stands before the last part of a name. -/
def directoryName (s : String) : String :=
  let cs := (dropSlashes s).toList
  if cs == ['/'] then "/"
  else match Text.dropEndWhile (· == '/') (Text.dropEndWhile (· != '/') cs) with
    | [] => if cs.contains '/' then "/" else "."
    | front => String.ofList front

/-- A name in a directory. -/
def nameIn (directory name : String) : String :=
  if directory.endsWith "/" then directory ++ name else directory ++ "/" ++ name

def basename : Program := fun _ arguments => do
  let o ← ({ letters := "az", valued := "s", anywhere := false
             names := [("multiple", "a", .never), ("suffix", "s", .always), ("zero", "z", .never)] }
    : OptionTable).read arguments
  let ending := if o.has "z" then "\x00" else "\n"
  let cut (ending name : String) : String :=
    if name.endsWith ending && name != ending then (name.dropEnd ending.length).toString else name
  match o.operands with
  | [] => abortWithHint "missing operand"
  | names =>
    if o.has "a" || o.has "s" then
      for name in names do print (cut ((o.value? "s").getD "") (baseName name) ++ ending)
    else match names with
      | [name] => print (baseName name ++ ending)
      | [name, suffix] => print (cut suffix (baseName name) ++ ending)
      | _ => abortWithHint ("extra operand " ++ quote (names.getD 2 ""))

def dirname : Program := fun _ arguments => do
  let o ← ({ letters := "z", names := [("zero", "z", .never)] } : OptionTable).read arguments
  if o.operands.isEmpty then abortWithHint "missing operand"
  for name in o.operands do
    print (directoryName name ++ if o.has "z" then "\x00" else "\n")

/-- How much of a path has to be there. -/
inductive Presence where
  | all
  | allButLast
  | nothing
deriving DecidableEq, Repr

/-- The path of a place without links and points in it. -/
def resolved (t : FileTree) (presence : Presence) (name : String) : Except FileError String :=
  let path := Session.pathOf name
  match t.resolve true (FileTree.dropFinalSlashes path) with
  | .ok (.found trail) =>
    if name.endsWith "/" && !(trail.node t.root).isDirectory then .error .notDirectory
    else .ok (written trail.location)
  | .ok e =>
    match presence with
    | .all => .error .notFound
    | _ => .ok (written e.location)
  | .error e => match presence with
    | .nothing =>
      if path.text.isEmpty then .error e
      else .ok (written (plain (if path.isAbsolute then [] else t.workingDirectory.reverse)
        (Path.pieces path.text.toList)))
    | _ => .error e
where
  written (place : Location) : String := Text.spread (FileTree.absolutePath place).text
  plain (above : Location) : List (List Char) → Location
    | [] => above.reverse
    | piece :: rest =>
      if piece.isEmpty || piece == ['.'] then plain above rest
      else if piece == ['.', '.'] then plain above.tail rest
      else plain (String.ofList piece :: above) rest

/-- The way from one absolute path to another. -/
def relativeName (base name : String) : String :=
  let parts (s : String) : List String :=
    ((Path.pieces s.toList).filter (!·.isEmpty)).map String.ofList
  go (parts base) (parts name)
where
  go : List String → List String → String
    | a :: as, b :: bs =>
      if a == b then go as bs
      else String.intercalate "/" (((a :: as).map fun _ => "..") ++ b :: bs)
    | as, bs =>
      match (as.map fun _ => "..") ++ bs with
      | [] => "."
      | parts => String.intercalate "/" parts

def readlink : Program := fun _ arguments => do
  let o ← ({ letters := "femnqsvz"
             names := [("canonicalize", "f", .never), ("canonicalize-existing", "e", .never),
               ("canonicalize-missing", "m", .never), ("no-newline", "n", .never),
               ("quiet", "q", .never), ("silent", "s", .never), ("verbose", "v", .never),
               ("zero", "z", .never)] } : OptionTable).read arguments
  if o.operands.isEmpty then abortWithHint "missing operand"
  let t ← tree
  let ending := if o.has "z" then "\x00" else if o.has "n" && o.operands.length == 1 then "" else "\n"
  for name in o.operands do
    let found : Except FileError String := match o.last? ["f", "e", "m"] with
      | some "f" => resolved t .allButLast name
      | some "e" => resolved t .all name
      | some _ => resolved t .nothing name
      | none => match t.findItself (Session.pathOf name) with
        | .ok (_, .link target) => .ok (Text.spread target)
        | .ok _ => .error .invalid
        | .error e => .error e
    match found with
    | .ok text => print (text ++ ending)
    | .error e =>
      setStatus 1
      if o.has "v" then complain (quoteIfNeeded name ++ ": " ++ e.reason)

def realpath : Program := fun _ arguments => do
  let o ← ({ letters := "emqsLPz"
             names := [("canonicalize-existing", "e", .never), ("canonicalize-missing", "m", .never),
               ("quiet", "q", .never), ("strip", "s", .never), ("no-symlinks", "s", .never),
               ("relative-to", "to", .always), ("relative-base", "base", .always),
               ("zero", "z", .never)] } : OptionTable).read arguments
  if o.operands.isEmpty then abortWithHint "missing operand"
  let t ← tree
  let presence : Presence := match o.last? ["e", "m"] with
    | some "e" => .all
    | some _ => .nothing
    | none => .allButLast
  for name in o.operands do
    match resolved t presence name with
    | .error e =>
      setStatus 1
      if !o.has "q" then complain (quoteIfNeeded name ++ ": " ++ e.reason)
    | .ok text =>
      let text ← match (o.value? "to") with
        | none => pure text
        | some base => match resolved t presence base with
          | .ok base => pure (relativeName base text)
          | .error e => abort (quoteIfNeeded base ++ ": " ++ e.reason)
      print (text ++ if o.has "z" then "\x00" else "\n")

/-- Finds programs on the search path; some of them have no file in the tree. -/
def which (isStandard : String → Bool) : Program := fun _ arguments => do
  let o ← ({ letters := "as" } : OptionTable).read arguments
  let s ← get
  if o.operands.isEmpty then setStatus 1
  for name in o.operands do
    match Executable.find isStandard s.session.tree (s.session.valueOf? "PATH") name with
    | .ok e => if !o.has "s" then printLine (if name.toList.contains '/' then name else e.location)
    | .error _ => setStatus 1

end TestSynth.Programs
