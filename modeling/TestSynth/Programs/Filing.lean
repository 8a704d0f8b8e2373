import TestSynth.Programs.Naming
/-!
Making, copying, moving and removing files and directories.
-/
namespace TestSynth.Programs

open Process Tool

def mkdir : Program := fun _ arguments => do
  let o ← ({ letters := "pv", valued := "m"
             names := [("parents", "p", .never), ("verbose", "v", .never), ("mode", "m", .always)] }
    : OptionTable).read arguments
  if o.operands.isEmpty then abortWithHint "missing operand"
  for name in o.operands do
    if o.has "p" then
      if ← makeAbove (o.has "v") name then
        match (← tree).find (Session.pathOf name) with
        | .ok (_, .directory _) => pure ()
        | _ => make (o.has "v") name
    else make (o.has "v") name
where
  make (isVerbose : Bool) (name : String) : ToolM Unit := do
    if ← change ("cannot create directory " ++ quote name) (·.makeDirectory (Session.pathOf name)) then
      if isVerbose then printLine ((← get).name ++ ": created directory " ++ quote name)
  /-- Makes the directories above a name; tells whether they are there. -/
  makeAbove (isVerbose : Bool) (name : String) : ToolM Bool := do
    let parts := Path.pieces (dropSlashes name).toList
    let fronts := (List.range parts.length).map fun n => String.ofList (Text.joinWith ['/'] (parts.take n))
    for front in fronts do
      if !front.isEmpty then
        match (← tree).find (Session.pathOf front) with
        | .ok (_, .directory _) => pure ()
        | .ok _ =>
          complain ("cannot create directory " ++ quote front ++ ": Not a directory")
          return false
        | .error _ =>
          if !(← change ("cannot create directory " ++ quote front)
              (·.makeDirectory (Session.pathOf front))) then return false
          if isVerbose then printLine ((← get).name ++ ": created directory " ++ quote front)
    return true

def rmdir : Program := fun _ arguments => do
  let o ← ({ letters := "pv"
             names := [("parents", "p", .never), ("verbose", "v", .never),
               ("ignore-fail-on-non-empty", "ignore", .never)] } : OptionTable).read arguments
  if o.operands.isEmpty then abortWithHint "missing operand"
  for name in o.operands do
    if ← remove o "failed to remove " name then
      if o.has "p" then removeAbove o (Path.pieces name.toList).length (dropSlashes name)
where
  remove (o : Options) (what name : String) : ToolM Bool := do
    if o.has "v" then printLine ((← get).name ++ ": removing directory, " ++ quoteShell name)
    match ← inSession (Session.change (·.removeEmptyDirectory (Session.pathOf name))) with
    | .ok () => return true
    | .error e =>
      if !(e == .notEmpty && o.has "ignore") then complain (what ++ quoteShell name ++ ": " ++ e.reason)
      return false
  removeAbove (o : Options) : Nat → String → ToolM Unit
    | 0, _ => return ()
    | n + 1, name => do
      if name.toList.contains '/' then
        let front := directoryName name
        if front != "/" && (← remove o "failed to remove directory " front) then
          removeAbove o n front

/-- Everything in a tree, what is in a directory before the directory itself. -/
def removalOrder (name : String) (node : FileNode) : List (String × Bool) :=
  ((name, node.isDirectory) :: node.descendants.map fun (place, n) =>
    (place.foldl (fun name part => nameIn name (Text.spread part)) name, n.isDirectory)).foldr
    (fun e (acc : List (String × Bool)) =>
      let inside := acc.takeWhile fun (other, _) => other.startsWith (nameIn e.1 "")
      inside ++ e :: acc.drop inside.length) []

def rm : Program := fun _ arguments => do
  let o ← ({ letters := "rRfidvI"
             names := [("recursive", "r", .never), ("force", "f", .never), ("verbose", "v", .never),
               ("dir", "d", .never), ("no-preserve-root", "all", .never),
               ("preserve-root", "keep", .maybe), ("one-file-system", "one", .never)] }
    : OptionTable).read arguments
  if o.operands.isEmpty && !o.has "f" then abortWithHint "missing operand"
  let isDeep := o.has "r" || o.has "R"
  for name in o.operands do
    let path := Session.pathOf name
    let last := baseName name
    match (← tree).findItself path with
    | .error e =>
      if !(o.has "f" && (e == .notFound || e == .notDirectory)) then
        complain ("cannot remove " ++ quoteShell name ++ ": " ++ e.reason)
    | .ok (place, node) =>
      if node.isDirectory then
        if !isDeep then
          if !o.has "d" then complain ("cannot remove " ++ quoteShell name ++ ": Is a directory")
          else if ← change ("cannot remove " ++ quoteShell name) (·.removeEmptyDirectory path) then
            if o.has "v" then printLine ("removed directory " ++ quoteShell name)
        else if last == "." || last == ".." then
          complain ("refusing to remove '.' or '..' directory: skipping " ++ quoteShell name)
        else if place.isEmpty then
          complain ("it is dangerous to operate recursively on " ++ quoteShell name)
          complain "use --no-preserve-root to override this failsafe"
        else
          let _ ← change ("cannot remove " ++ quoteShell name) fun t => .ok (t.erase place)
          if o.has "v" then
            for (removed, isDirectory) in removalOrder name node do
              printLine ((if isDirectory then "removed directory " else "removed ") ++ quoteShell removed)
      else
        let _ ← change ("cannot remove " ++ quoteShell name) fun t => .ok (t.erase place)
        if o.has "v" then printLine ("removed " ++ quoteShell name)

def unlink : Program := fun _ arguments => do
  match arguments with
  | [] => abortWithHint "missing operand"
  | [name] =>
    let _ ← change ("cannot unlink " ++ quoteShell name) (·.removeFile (Session.pathOf name))
  | _ :: other :: _ => abortWithHint ("extra operand " ++ quote other)

/-- What is put where: sources with their destinations. -/
def destinations (o : Options) : ToolM (List (String × String)) := do
  let t ← tree
  let inside (directory : String) (sources : List String) : List (String × String) :=
    sources.map fun s => (s, nameIn directory (baseName s))
  let refuse {α : Type} (name : String) : ToolM α := do
    let reason := match t.find (Session.pathOf name) with
      | .ok _ => "Not a directory"
      | .error e => e.reason
    abort ("target " ++ quoteShell name ++ ": " ++ reason)
  match o.value? "t", o.operands with
  | some directory, sources =>
    if sources.isEmpty then abortWithHint "missing file operand"
    if !t.isDirectory (Session.pathOf directory) then
      let reason := match t.find (Session.pathOf directory) with
        | .ok _ => "Not a directory"
        | .error e => e.reason
      abort ("target directory " ++ quoteShell directory ++ ": " ++ reason)
    return inside directory sources
  | none, [] => abortWithHint "missing file operand"
  | none, [source] => abortWithHint ("missing destination file operand after " ++ quoteShell source)
  | none, operands =>
    let last := operands.getLastD ""
    let sources := operands.dropLast
    if o.has "T" then
      match sources with
      | [source] => return [(source, last)]
      | _ => abortWithHint ("extra operand " ++ quoteShell last)
    else if t.isDirectory (Session.pathOf last) then return inside last sources
    else match sources with
      | [source] => return [(source, last)]
      | _ => refuse last

/-- A node laid over another: directories are put together, files take the new content and stay as
runnable as they were. -/
def merged (keepsRights : Bool) : FileNode → Option FileNode → FileNode
  | .directory new, some (.directory old) => .directory (mergedEntries new old)
  | .file content executable, some (.file _ wasExecutable) =>
    .file content (if keepsRights then executable else wasExecutable)
  | node, _ => node
where
  mergedEntries : List (String × FileNode) → List (String × FileNode) → List (String × FileNode)
    | [], old => old
    | (name, node) :: rest, old =>
      mergedEntries rest (FileNode.insertEntry name (merged keepsRights node (old.lookup name)) old)

/-- Whether a place is at another one or below it. -/
def isInside (place above : Location) : Bool := above.isPrefixOf place

/-- Copies one file or directory. -/
def copyOne (o : Options) (source target : String) : ToolM Unit := do
  let t ← tree
  let isDeep := o.has "r" || o.has "R" || o.has "a"
  let keepsLinks := (isDeep && !o.has "L") || o.has "P" || o.has "d"
  let sourcePath := Session.pathOf source
  let targetPath := Session.pathOf target
  match (if keepsLinks then t.findItself sourcePath else t.find sourcePath) with
  | .error e => complain ("cannot stat " ++ quoteShell source ++ ": " ++ e.reason)
  | .ok (place, node) =>
    if node.isDirectory && !isDeep then
      complain ("-r not specified; omitting directory " ++ quoteShell source)
      return
    match t.find targetPath with
    | .error .notFound =>
      match t.resolve true (FileTree.dropFinalSlashes targetPath) with
      | .error e => refuseNew node e
      | .ok spot =>
        if !node.isDirectory && target.endsWith "/" then refuseNew node .notDirectory
        else
          store spot.location node none
          if node.isDirectory && isInside spot.location place then intoItself
    | .error e => complain ("cannot stat " ++ quoteShell target ++ ": " ++ e.reason)
    | .ok (spot, old) =>
      if spot == place then
        complain (quoteShell source ++ " and " ++ quoteShell target ++ " are the same file")
      else if node.isDirectory && !old.isDirectory then
        complain ("cannot overwrite non-directory " ++ quoteShell target ++ " with directory " ++
          quoteShell source)
      else if !node.isDirectory && old.isDirectory then
        complain ("cannot overwrite directory " ++ quoteShell target ++ " with non-directory")
      else if o.has "n" && !node.isDirectory then return
      else
        store spot node (some old)
        if node.isDirectory && isInside spot place then intoItself
where
  intoItself : ToolM Unit :=
    complain ("cannot copy a directory, " ++ quoteShell source ++ ", into itself, " ++ quoteShell target)
  refuseNew (node : FileNode) (e : FileError) : ToolM Unit :=
    complain ((if node.isDirectory then "cannot create directory " else "cannot create regular file ") ++
      quoteShell target ++ ": " ++ e.reason)
  store (spot : Location) (node : FileNode) (old : Option FileNode) : ToolM Unit := do
    let new := if o.has "s" then FileNode.link (Text.gather source)
      else merged (o.has "p" || o.has "a") node old
    let _ ← change target fun t => .ok (t.put spot new)
    if o.has "v" then
      printLine (quoteShell source ++ " -> " ++ quoteShell target)
      for (below, _) in node.descendants do
        let name (front : String) : String :=
          below.foldl (fun name part => nameIn name (Text.spread part)) front
        printLine (quoteShell (name source) ++ " -> " ++ quoteShell (name target))

def copyOptions : OptionTable :=
  { letters := "rRapfivnuTPLdlsHxbz", valued := "tS"
    names := [("recursive", "r", .never), ("archive", "a", .never), ("force", "f", .never),
      ("interactive", "i", .never), ("verbose", "v", .never), ("no-clobber", "n", .never),
      ("update", "u", .maybe), ("no-target-directory", "T", .never), ("no-dereference", "P", .never),
      ("dereference", "L", .never), ("target-directory", "t", .always), ("preserve", "p", .maybe),
      ("link", "l", .never), ("symbolic-link", "s", .never), ("backup", "b", .maybe)] }

def cp : Program := fun _ arguments => do
  let o ← copyOptions.read arguments
  let pairs ← destinations o
  if o.has "n" then
    say ("cp: warning: behavior of -n is non-portable and may change in future; " ++
      "use --update=none instead\n")
  for (source, target) in pairs do copyOne o source target

/-- Moves one file or directory. -/
def moveOne (o : Options) (source target : String) : ToolM Unit := do
  let t ← tree
  match t.findItself (Session.pathOf source) with
  | .error e => complain ("cannot stat " ++ quoteShell source ++ ": " ++ e.reason)
  | .ok (place, node) =>
    let targetPath := FileTree.dropFinalSlashes (Session.pathOf target)
    match t.resolve false targetPath with
    | .error .notDirectory => complain ("cannot stat " ++ quoteShell target ++ ": Not a directory")
    | .error e => cannotMove e.reason
    | .ok spot =>
      let old := spot.node? t.root
      if old.any (!·.isDirectory) && target.endsWith "/" then
        complain ("cannot stat " ++ quoteShell target ++ ": Not a directory")
      else if old.isSome && spot.location == place then
        complain (quoteShell source ++ " and " ++ quoteShell target ++ " are the same file")
      else if node.isDirectory && isInside spot.location place then
        complain ("cannot move " ++ quoteShell source ++ " to a subdirectory of itself, " ++
          quoteShell target)
      else if old.isNone && target.endsWith "/" && !node.isDirectory then cannotMove "Not a directory"
      else match old with
        | some (.directory entries) =>
          if !node.isDirectory then
            complain ("cannot overwrite directory " ++ quoteShell target ++ " with non-directory")
          else if !entries.isEmpty then
            complain ("cannot overwrite " ++ quoteShell target ++ ": Directory not empty")
          else store spot.location place node
        | some _ =>
          if node.isDirectory then
            complain ("cannot overwrite non-directory " ++ quoteShell target ++ " with directory " ++
              quoteShell source)
          else if o.has "n" then complain ("not replacing " ++ quoteShell target)
          else store spot.location place node
        | none => store spot.location place node
where
  cannotMove (reason : String) : ToolM Unit :=
    complain ("cannot move " ++ quoteShell source ++ " to " ++ quoteShell target ++ ": " ++ reason)
  store (spot place : Location) (node : FileNode) : ToolM Unit := do
    let _ ← change target fun t => .ok ((t.erase place).put spot node)
    if o.has "v" then printLine ("renamed " ++ quoteShell source ++ " -> " ++ quoteShell target)

def mv : Program := fun _ arguments => do
  let o ← ({ letters := "finuvTbZ", valued := "tS"
             names := [("force", "f", .never), ("interactive", "i", .never), ("verbose", "v", .never),
               ("no-clobber", "n", .never), ("update", "u", .maybe),
               ("no-target-directory", "T", .never), ("target-directory", "t", .always)] }
    : OptionTable).read arguments
  for (source, target) in ← destinations o do moveOne o source target

/-- Makes a link, or a further file of the same content. -/
def linkOne (o : Options) (source target : String) : ToolM Unit := do
  let t ← tree
  let isSymbolic := o.has "s"
  let what := if isSymbolic then "failed to create symbolic link " else "failed to create hard link "
  let node ← if isSymbolic then
      let written := if o.has "r" then
          match resolved t .nothing source, resolved t .nothing (directoryName target) with
          | .ok source, .ok directory => relativeName directory source
          | _, _ => source
        else source
      pure (FileNode.link (Text.gather written))
    else match t.findItself (Session.pathOf source) with
      | .error e =>
        complain ("failed to access " ++ quoteShell source ++ ": " ++ e.reason)
        return
      | .ok (_, .directory _) =>
        complain (quoteIfNeeded source ++ ": hard link not allowed for directory")
        return
      | .ok (_, node) => pure node
  let targetPath := Session.pathOf target
  if o.has "f" then
    match t.findItself targetPath with
    | .ok (place, .file ..) | .ok (place, .link _) =>
      let _ ← change target fun t => .ok (t.erase place)
    | _ => pure ()
  match ← inSession (Session.change (·.create targetPath node)) with
  | .ok () =>
    if o.has "v" then
      printLine (quoteShell target ++ (if isSymbolic then " -> " else " => ") ++ quoteShell source)
  | .error e =>
    let onto := if isSymbolic then "" else if e == .exists then "" else " => " ++ quoteShell source
    complain (what ++ quoteShell target ++ onto ++ ": " ++ e.reason)

def ln : Program := fun _ arguments => do
  let o ← ({ letters := "sfnvrTLPib", valued := "tS"
             names := [("symbolic", "s", .never), ("force", "f", .never), ("verbose", "v", .never),
               ("relative", "r", .never), ("no-dereference", "n", .never),
               ("no-target-directory", "T", .never), ("target-directory", "t", .always)] }
    : OptionTable).read arguments
  let t ← tree
  let isDirectory (name : String) : Bool :=
    if o.has "n" then ((t.findItself (Session.pathOf name)).toOption.map (·.2.isDirectory)).getD false
    else t.isDirectory (Session.pathOf name)
  match o.operands, o.has "T", o.value? "t" with
  | [], _, _ => abortWithHint "missing file operand"
  | [source], false, none => linkOne o source (nameIn "." (baseName source) |> shortened)
  | [source, target], _, none =>
    if isDirectory target && !o.has "T" then linkOne o source (nameIn target (baseName source))
    else linkOne o source target
  | operands, _, directory =>
    let (sources, target) := match directory with
      | some d => (operands, d)
      | none => (operands.dropLast, operands.getLastD "")
    if !isDirectory target then
      let reason := match t.find (Session.pathOf target) with
        | .ok _ => "Not a directory"
        | .error e => e.reason
      abort ("target " ++ quoteShell target ++ ": " ++ reason)
    for source in sources do linkOne o source (nameIn target (baseName source))
where
  shortened (s : String) : String := if s.startsWith "./" then (s.drop 2).toString else s

/-- Makes files that are not there. Times are not kept. -/
def touch : Program := fun _ arguments => do
  let o ← ({ letters := "camfh", valued := "tdr"
             names := [("no-create", "c", .never), ("date", "d", .always), ("reference", "r", .always),
               ("time", "time", .always)] } : OptionTable).read arguments
  if o.operands.isEmpty then abortWithHint "missing file operand"
  for name in o.operands do
    let path := Session.pathOf name
    match (← tree).find path with
    | .ok _ => pure ()
    | .error e =>
      if e == .notFound && o.has "c" then pure ()
      else if name.endsWith "/" then complain ("setting times of " ++ quoteShell name ++ ": " ++ e.reason)
      else
        let _ ← change ("cannot touch " ++ quoteShell name) (·.write path [])

/-- Whether a file can be run after a change of its rights; none if the text is no change. -/
def changedRunning? (mode : String) (was : Bool) : Option Bool :=
  let cs := mode.toList
  if !cs.isEmpty && cs.all Char.isDigit then
    let isOctal := cs.all fun c => c ≤ '7'
    let n := cs.foldl (fun n c => 8 * n + Number.digitValue c) 0
    if isOctal && n ≤ 4095 then some ((n / 64) % 2 == 1 || (n / 8) % 2 == 1 || n % 2 == 1) else none
  else (Text.fields (· == ',') cs).foldlM (fun was clause => applied clause was) was
where
  applied (clause : List Char) (was : Bool) : Option Bool :=
    let who := clause.takeWhile fun c => "ugoa".toList.contains c
    actions (clause.length + 1) who (clause.drop who.length) was true
  actions : Nat → List Char → List Char → Bool → Bool → Option Bool
    | 0, _, _, _, _ => none
    | _, _, [], was, isFirst => if isFirst then none else some was
    | n + 1, who, sign :: rest, was, _ =>
      if sign != '+' && sign != '-' && sign != '=' then none
      else
        let rights := rest.takeWhile fun c => "rwxXstugo".toList.contains c
        let runs := rights.contains 'x' || (rights.contains 'X' && was)
        let now := match sign with
          | '+' => was || runs
          | '-' => if runs && (who.isEmpty || who.contains 'u' || who.contains 'a') then false else was
          | _ => if who.isEmpty || who.contains 'u' || who.contains 'a' then runs else was || runs
        actions n who (rest.drop rights.length) now false

def chmod : Program := fun _ arguments => do
  let isMode (w : String) : Bool :=
    match w.toList with
    | '-' :: c :: _ => "rwxXst".toList.contains c
    | _ => false
  -- A mode may look like an option.
  let modes := arguments.filter isMode
  let o ← ({ letters := "Rvcfh", valued := ""
             names := [("recursive", "R", .never), ("verbose", "v", .never), ("changes", "c", .never),
               ("silent", "f", .never), ("quiet", "f", .never), ("reference", "reference", .always)] }
    : OptionTable).read (arguments.filter (!isMode ·))
  let operands := match modes with
    | [] => o.operands
    | m :: _ => m :: o.operands
  match operands with
  | [] => abortWithHint "missing operand"
  | [mode] => abortWithHint ("missing operand after " ++ quote mode)
  | mode :: names =>
    if (changedRunning? mode false).isNone then abortWithHint ("invalid mode: " ++ quote mode)
    for name in names do
      match (← tree).find (Session.pathOf name) with
      | .error e =>
        if o.has "f" then setStatus 1
        else complain ("cannot access " ++ quoteShell name ++ ": " ++ e.reason)
      | .ok (place, node) =>
        let set (n : FileNode) : FileNode := match n with
          | .file content was => .file content ((changedRunning? mode was).getD was)
          | n => n
        let _ ← change name fun t =>
          let t := t.put place (set node)
          .ok (if o.has "R" then node.descendants.foldl (fun t (below, n) =>
            if n.isFile then t.put (place ++ below) (set n) else t) t else t)

/-- Cuts a file or fills it with zeros to a size. -/
def truncate : Program := fun _ arguments => do
  let o ← ({ letters := "co", valued := "sr"
             names := [("no-create", "c", .never), ("size", "s", .always), ("reference", "r", .always)] }
    : OptionTable).read arguments
  match o.value? "s" with
  | none => abortWithHint "you must specify either '--size' or '--reference'"
  | some word =>
    match signedCount? word with
    | none => abort ("Invalid number: " ++ quote word)
    | some (sign, n) =>
      if o.operands.isEmpty then abortWithHint "missing file operand"
      for name in o.operands do
        let path := Session.pathOf name
        if !((← tree).pathExists path) && o.has "c" then pure ()
        else
          let _ ← change ("cannot open " ++ quoteShell name ++ " for writing") (·.update path fun bytes =>
            let size := match sign with
              | some '-' => bytes.length - n
              | some _ => bytes.length + n
              | none => n
            bytes.take size ++ List.replicate (size - bytes.length) 0)

/-- Makes a file or directory with a name of its own, which counts up. -/
def mktemp : Program := fun _ arguments => do
  let o ← ({ letters := "duqt", valued := "p"
             names := [("directory", "d", .never), ("dry-run", "u", .never), ("quiet", "q", .never),
               ("tmpdir", "p", .maybe), ("suffix", "suffix", .always)] } : OptionTable).read arguments
  let s ← get
  let template := o.operands.headD "tmp.XXXXXXXXXX"
  let marks := (Text.takeEndWhile (· == 'X') template.toList).length
  if marks < 3 then abort ("too few X's in template " ++ quote template)
  let front := (template.dropEnd marks).toString
  let directory := if o.operands.isEmpty || o.has "t" || o.has "p" then
      some (match o.value? "p" with
        | some d => if d.isEmpty then "/tmp" else d
        | none => (s.session.valueOf? "TMPDIR").getD "/tmp")
    else none
  let candidate (n : Nat) : String :=
    let name := front ++ Number.padded marks n
    directory.elim name fun d => nameIn d name
  let t ← tree
  let free := (List.range 1000).find? fun n => !t.pathExists (Session.pathOf (candidate n))
  let name := candidate (free.getD 0)
  if !o.has "u" then
    let what := if o.has "d" then "failed to create directory via template " else "failed to create file via template "
    let shown := directory.elim template fun d => nameIn d template
    if !(← change (what ++ quote shown) fun t =>
        if o.has "d" then t.makeDirectory (Session.pathOf name) else t.write (Session.pathOf name) []) then
      finish 1
  printLine name

/-- Tells about files, in a form of directives or in the usual one. -/
def stat : Program := fun _ arguments => do
  let o ← ({ letters := "Lft", valued := "c"
             names := [("format", "c", .always), ("printf", "printf", .always),
               ("dereference", "L", .never)] } : OptionTable).read arguments
  if o.operands.isEmpty then abortWithHint "missing operand"
  let t ← tree
  for name in o.operands do
    let path := Session.pathOf name
    match (if o.has "L" then t.find path else t.findItself path) with
    | .error e => complain ("cannot statx " ++ quoteShell name ++ ": " ++ e.reason)
    | .ok (_, node) =>
      let size := match node with
        | .file content _ => content.length
        | .link target => (Text.encode target).length
        | .directory _ => 4096
      let form := (o.value? "c").getD "  File: %n\n  Size: %s"
      print (String.ofList (filled name node size (form.length + 1) form.toList) ++ "\n")
where
  filled (name : String) (node : FileNode) (size : Nat) : Nat → List Char → List Char
    | 0, _ | _, [] => []
    | n + 1, '%' :: c :: rest =>
      let rights := match node with
        | .directory _ | .file _ true => ("755", "rwxr-xr-x")
        | .file _ false => ("644", "rw-r--r--")
        | .link _ => ("777", "rwxrwxrwx")
      let kind := match node with
        | .directory _ => ("directory", "d")
        | .file [] _ => ("regular empty file", "-")
        | .file .. => ("regular file", "-")
        | .link _ => ("symbolic link", "l")
      let text := match c with
        | 'n' => name
        | 'N' => match node with
          | .link target => quoteShell name ++ " -> " ++ quoteShell (Text.spread target)
          | _ => quoteShell name
        | 's' => toString size
        | 'F' => kind.1
        | 'a' => rights.1
        | 'A' => kind.2 ++ rights.2
        | 'U' | 'G' => "root"
        | 'u' | 'g' => "0"
        | 'h' => "1"
        | '%' => "%"
        | _ => "?"
      text.toList ++ filled name node size n rest
    | n + 1, c :: rest => c :: filled name node size n rest

end TestSynth.Programs
