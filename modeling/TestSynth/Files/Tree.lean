import TestSynth.Files.Node
import TestSynth.Path
/-!
A tree of files as a value, with single operations on it. An operation gives the new tree or the
cause of its refusal; a refused one changes nothing. Operations also run one after another: the
first refusal ends such an action, and what was done before it stays done.
-/
namespace TestSynth

open Text (Bytes)

/-- Why the file system refuses. -/
inductive FileError where
  | notFound
  | notDirectory
  | isDirectory
  | exists
  | notEmpty
  | nameTooLong
  | tooManyLinks
  | invalid
  | denied
  | notProgram
  | argumentsTooLong
  | badDescriptor
  | noSpace
  | notText
  | nulInPath
  | nulInArgument
deriving DecidableEq, Repr, Inhabited

def FileError.reason : FileError → String
  | .notFound => "No such file or directory"
  | .notDirectory => "Not a directory"
  | .isDirectory => "Is a directory"
  | .exists => "File exists"
  | .notEmpty => "Directory not empty"
  | .nameTooLong => "File name too long"
  | .tooManyLinks => "Too many levels of symbolic links"
  | .invalid => "Invalid argument"
  | .denied => "Permission denied"
  | .notProgram => "Exec format error"
  | .argumentsTooLong => "Argument list too long"
  | .badDescriptor => "Bad file descriptor"
  | .noSpace => "No space left on device"
  | .notText => "stream did not contain valid UTF-8"
  | .nulInPath => "file name contained an unexpected NUL byte"
  | .nulInArgument => "nul byte found in provided data"

/-- The number of a reason, if the operating system gave it. -/
def FileError.number? : FileError → Option Nat
  | .notFound => some 2
  | .argumentsTooLong => some 7
  | .notProgram => some 8
  | .badDescriptor => some 9
  | .denied => some 13
  | .exists => some 17
  | .notDirectory => some 20
  | .isDirectory => some 21
  | .invalid => some 22
  | .noSpace => some 28
  | .nameTooLong => some 36
  | .notEmpty => some 39
  | .tooManyLinks => some 40
  | .notText | .nulInPath | .nulInArgument => none

def FileError.message (e : FileError) : String :=
  match e.number? with
  | some n => e.reason ++ " (os error " ++ toString n ++ ")"
  | none => e.reason

/-- The nodes on the way down from the root, the last one first, each with its name. -/
abbrev Trail := List (String × FileNode)

namespace Trail

def location (trail : Trail) : Location := (trail.map (·.1)).reverse

def node (root : FileNode) : Trail → FileNode
  | [] => root
  | (_, node) :: _ => node

/-- The trail that follows a location from the end of another one. -/
def descend? (root : FileNode) : Location → Trail → Option Trail
  | [], trail => some trail
  | name :: rest, trail => ((trail.node root).child? name).bind fun child =>
    descend? root rest ((name, child) :: trail)

end Trail

/-- Where a path ends. -/
inductive PathEnd where
  | found (trail : Trail)
  /-- A directory that has no entry of the last name. -/
  | missing (above : Trail) (name : String)
  /-- A link on the way, with where it stands and what is left of the path. -/
  | link (above : Trail) (target : String) (rest : List (List Char))

/-- Longest name in bytes. -/
def nameLimit : Nat := 255

/-- Bytes that a path stays below. -/
def pathLimit : Nat := 4096

/-- Links that are followed at most. -/
def linkLimit : Nat := 40

namespace PathEnd

/-- Follows the pieces of a path up to its end or to a link. Whatever is followed from has to be a
directory. -/
def walk (root : FileNode) (followsLast : Bool) :
    List (List Char) → Trail → Except FileError PathEnd
  | [], trail => .ok (.found trail)
  | piece :: rest, trail =>
    if !(trail.node root).isDirectory then .error .notDirectory
    else if piece.isEmpty || piece == ['.'] then walk root followsLast rest trail
    else if piece == ['.', '.'] then walk root followsLast rest trail.tail
    else if nameLimit < Text.byteLength piece then .error .nameTooLong
    else
      let name := String.ofList piece
      match (trail.node root).child? name with
      | none => if rest.isEmpty then .ok (.missing trail name) else .error .notFound
      | some (.link target) =>
        if rest.isEmpty && !followsLast then .ok (.found ((name, .link target) :: trail))
        else .ok (.link trail target rest)
      | some child => walk root followsLast rest ((name, child) :: trail)

/-- Follows the pieces of a path and the links on the way; the first argument bounds their
number. -/
def follow (root : FileNode) (followsLast : Bool) :
    Nat → List (List Char) → Trail → Except FileError PathEnd
  | 0, _, _ => .error .tooManyLinks
  | n + 1, pieces, trail => do
    match ← walk root followsLast pieces trail with
    | .link above target rest =>
      let isAbsolute := target.toList.head? == some '/'
      follow root followsLast n (Path.pieces target.toList ++ rest) (if isAbsolute then [] else above)
    | other => return other

def location : PathEnd → Location
  | .found trail => trail.location
  | .missing above name | .link above name _ => above.location ++ [name]

def node? (root : FileNode) : PathEnd → Option FileNode
  | .found trail => some (trail.node root)
  | _ => none

end PathEnd

/-- The root directory and the working directory. -/
structure FileTree where
  root : FileNode := .emptyDirectory
  workingDirectory : Location := []
deriving Inhabited

namespace FileTree

def node? (t : FileTree) (place : Location) : Option FileNode := t.root.get? place

/-- Where the pieces of a path lead. -/
def followPieces (t : FileTree) (followsLast : Bool) (isAbsolute : Bool)
    (pieces : List (List Char)) : Except FileError PathEnd :=
  match Trail.descend? t.root (if isAbsolute then [] else t.workingDirectory) [] with
  | none => .error .notFound
  | some trail => PathEnd.follow t.root followsLast (linkLimit + 1) pieces trail

/-- What a text has to be like to be a path at all. -/
def checkPath (p : Path) : Except FileError Unit :=
  let cs := p.text.toList
  if cs.contains (Char.ofNat 0) then .error .nulInPath
  else if cs.isEmpty then .error .notFound
  else if pathLimit ≤ Text.byteLength cs then .error .nameTooLong
  else .ok ()

/-- Where a path leads from the working directory. A link at its end is followed if asked. -/
def resolve (t : FileTree) (followsLast : Bool) (p : Path) : Except FileError PathEnd := do
  checkPath p
  t.followPieces followsLast p.isAbsolute (Path.pieces p.text.toList)

/-- The location that a path leads to, with what stands there. -/
def lookUp (t : FileTree) (followsLast : Bool) (p : Path) : Except FileError (Location × FileNode) := do
  match ← t.resolve followsLast p with
  | .found trail => return (trail.location, trail.node t.root)
  | _ => .error .notFound

def find (t : FileTree) (p : Path) : Except FileError (Location × FileNode) := t.lookUp true p

/-- What stands at a path itself, be it a link. -/
def findItself (t : FileTree) (p : Path) : Except FileError (Location × FileNode) := t.lookUp false p

def pathExists (t : FileTree) (p : Path) : Bool := (t.find p).toOption.isSome

def isDirectory (t : FileTree) (p : Path) : Bool := (t.find p).toOption.any (·.2.isDirectory)

/-- The path of a location from the root. -/
def absolutePath (place : Location) : Path := ⟨"/" ++ String.intercalate "/" place⟩

/-- The absolute path of what a path leads to. -/
def canonical (t : FileTree) (p : Path) : Except FileError Path :=
  (t.find p).map fun (place, _) => absolutePath place

def read (t : FileTree) (p : Path) : Except FileError Bytes := do
  match ← t.find p with
  | (_, .file content _) => return content
  | _ => .error .isDirectory

/-- Reads a file that has to hold text. -/
def readText (t : FileTree) (p : Path) : Except FileError String := do
  match Text.decodeStrict? (← t.read p) with
  | some s => .ok s
  | none => .error .notText

def put (t : FileTree) (place : Location) (node : FileNode) : FileTree :=
  { t with root := t.root.put place node }

def erase (t : FileTree) (place : Location) : FileTree := { t with root := t.root.erase place }

/-- The pieces of a path without slashes at its end. -/
def piecesOf (p : Path) : List (List Char) :=
  ((Path.pieces p.text.toList).reverse.dropWhile List.isEmpty).reverse

/-- Whether a path can only name a directory. -/
def namesDirectory (p : Path) : Bool :=
  let last := (Path.pieces p.text.toList).getLastD []
  last.isEmpty || last == ['.'] || last == ['.', '.']

/-- Why no file can be made at a path that can only name a directory. -/
def refusalAt (t : FileTree) (p : Path) : FileError :=
  match t.followPieces true p.isAbsolute (piecesOf p).dropLast with
  | .ok (.found trail) => if (trail.node t.root).isDirectory then .isDirectory else .notDirectory
  | .ok _ => .notFound
  | .error e => e

/-- Where a file is made or changed, with what stands there. -/
def locate (t : FileTree) (p : Path) : Except FileError (Location × Option FileNode) := do
  checkPath p
  if namesDirectory p then throw (t.refusalAt p)
  let target ← t.resolve true p
  return (target.location, target.node? t.root)

/-- Changes the content of a file, which is made if it is not there. -/
def update (t : FileTree) (p : Path) (f : Bytes → Bytes) : Except FileError FileTree := do
  match ← t.locate p with
  | (place, some (.file content executable)) => return t.put place (.file (f content) executable)
  | (place, none) => return t.put place (.file (f []) false)
  | _ => .error .isDirectory

def write (t : FileTree) (p : Path) (content : Bytes) : Except FileError FileTree :=
  t.update p fun _ => content

def append (t : FileTree) (p : Path) (content : Bytes) : Except FileError FileTree :=
  t.update p (· ++ content)

def writeText (t : FileTree) (p : Path) (s : String) : Except FileError FileTree :=
  t.write p (Text.encode s)

/-- The path without slashes at its end, the root apart. -/
def dropFinalSlashes (p : Path) : Path :=
  match Text.dropEndWhile (· == '/') p.text.toList with
  | [] => p
  | cs => ⟨String.ofList cs⟩

/-- Puts something where a path leads and nothing stands yet. -/
def create (t : FileTree) (p : Path) (node : FileNode) : Except FileError FileTree := do
  match ← t.resolve false p with
  | .missing above name => return t.put (above.location ++ [name]) node
  | _ => .error .exists

/-- Makes one directory. -/
def makeDirectory (t : FileTree) (p : Path) : Except FileError FileTree := do
  checkPath p
  t.create (dropFinalSlashes p) .emptyDirectory

/-- Makes a link to a path. -/
def makeLink (t : FileTree) (p : Path) (target : String) : Except FileError FileTree :=
  t.create p (.link target)

/-- Names in a directory, in increasing order. -/
def names (t : FileTree) (p : Path) : Except FileError (List String) := do
  match ← t.find p with
  | (_, .directory entries) => return entries.map (·.1)
  | _ => .error .notDirectory

/-- Removes a directory and all below it; of a link, the link alone. -/
def removeDirectory (t : FileTree) (p : Path) : Except FileError FileTree := do
  match ← t.findItself p with
  | (place, .directory _) | (place, .link _) => return t.erase place
  | _ => .error .notDirectory

/-- Removes a directory that holds nothing. -/
def removeEmptyDirectory (t : FileTree) (p : Path) : Except FileError FileTree := do
  match ← t.findItself (dropFinalSlashes p) with
  | (place, .directory entries) =>
    if piecesOf p == [] || (piecesOf p).getLast? == some ['.'] then .error .invalid
    else if entries.isEmpty then return t.erase place
    else .error .notEmpty
  | _ => .error .notDirectory

def removeFile (t : FileTree) (p : Path) : Except FileError FileTree := do
  match ← t.findItself p with
  | (_, .directory _) => .error .isDirectory
  | (place, _) => return t.erase place

/-- Lets a file be run or not. -/
def setRunning (t : FileTree) (p : Path) (executable : Bool) : Except FileError FileTree := do
  match ← t.find p with
  | (place, .file content _) => return t.put place (.file content executable)
  | _ => return t

/-- What stands below a location, by relative path. -/
def listing (t : FileTree) (place : Location) : List String :=
  ((t.node? place).map FileNode.listing).getD []

end FileTree

abbrev FileAction (α : Type) := ExceptT FileError (StateM FileTree) α

namespace FileAction

/-- A single change. -/
def change (f : FileTree → Except FileError FileTree) : FileAction Unit := fun t =>
  match f t with
  | .ok t' => (.ok (), t')
  | .error e => (.error e, t)

/-- Looks without changing anything. -/
def look {α : Type} (f : FileTree → Except FileError α) : FileAction α := fun t => (f t, t)

/-- Makes a directory unless it is there. -/
def makeDirectory (p : Path) : FileAction Unit := fun t =>
  match t.makeDirectory p with
  | .ok t' => (.ok (), t')
  | .error e => (if t.isDirectory p then .ok () else .error e, t)

/-- Makes a directory and those above it that are missing; the first argument bounds their
number. The empty path is there already. -/
def makeDirectoriesWithin : Nat → Path → FileAction Unit
  | 0, _ => return ()
  | n + 1, p => do
    if p.components.isEmpty then return ()
    match (← get).makeDirectory p, p.parent? with
    | .error .notFound, some above =>
      makeDirectoriesWithin n above
      makeDirectory p
    | _, _ => makeDirectory p

def makeDirectories (p : Path) : FileAction Unit := makeDirectoriesWithin p.components.length p

def write (p : Path) (content : Text.Bytes) : FileAction Unit := change (·.write p content)

def writeText (p : Path) (s : String) : FileAction Unit := change (·.writeText p s)

end FileAction

end TestSynth
