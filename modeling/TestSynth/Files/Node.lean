import TestSynth.Text.Utf8
/-!
What a place in a file system holds: a file, a link or a directory with named entries. Entries are
kept in the order of their names, each name once.
-/
namespace TestSynth

open Text (Bytes)

/-- The names on the way down from a directory. -/
abbrev Location := List String

inductive FileNode where
  | file (content : Bytes) (executable : Bool)
  /-- Stands for what the path leads to. -/
  | link (target : String)
  | directory (entries : List (String × FileNode))
deriving Inhabited

namespace FileNode

abbrev Entries := List (String × FileNode)

def emptyDirectory : FileNode := .directory []

def isDirectory : FileNode → Bool
  | .directory _ => true
  | _ => false

def isFile : FileNode → Bool
  | .file .. => true
  | _ => false

/-- The entries of a directory; nothing else has any. -/
def entries : FileNode → Entries
  | .directory entries => entries
  | _ => []

/-- Puts an entry before the first one with a larger name; one of the same name is replaced. -/
def insertEntry (name : String) (node : FileNode) : Entries → Entries
  | [] => [(name, node)]
  | (n, other) :: rest =>
    if name < n then (name, node) :: (n, other) :: rest
    else if name = n then (name, node) :: rest
    else (n, other) :: insertEntry name node rest

def eraseEntry (name : String) (entries : Entries) : Entries := entries.filter (·.1 != name)

def child? (node : FileNode) (name : String) : Option FileNode := node.entries.lookup name

/-- What stands at a location below a node. -/
def get? (node : FileNode) : Location → Option FileNode
  | [] => some node
  | name :: rest => (node.child? name).bind (·.get? rest)

/-- Puts a node at a location; directories that are missing above it are made. -/
def put (node : FileNode) (place : Location) (new : FileNode) : FileNode :=
  match place with
  | [] => new
  | name :: rest =>
    .directory (insertEntry name (((node.child? name).getD emptyDirectory).put rest new) node.entries)

/-- Removes what stands at a location, with all below it. -/
def erase (node : FileNode) : Location → FileNode
  | [] => node
  | [name] => .directory (eraseEntry name node.entries)
  | name :: rest => match node.child? name with
    | none => node
    | some child => .directory (insertEntry name (child.erase rest) node.entries)

mutual

/-- What stands below a node, each with its location; a directory comes before its entries. -/
def descendants : FileNode → List (Location × FileNode)
  | .directory entries => entryDescendants entries
  | _ => []

def entryDescendants : List (String × FileNode) → List (Location × FileNode)
  | [] => []
  | (name, node) :: rest =>
    ([name], node) :: (descendants node).map (fun (place, n) => (name :: place, n)) ++
      entryDescendants rest

end

/-- Files and links below a node by relative path, and with a slash the directories that hold
nothing. -/
def listing (node : FileNode) : List String :=
  (node.descendants.filterMap fun (place, n) =>
    let path := String.intercalate "/" place
    match n with
    | .directory [] => some (path ++ "/")
    | .directory _ => none
    | _ => some path).mergeSort (· ≤ ·)

end FileNode

end TestSynth
