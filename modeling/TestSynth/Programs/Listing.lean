import TestSynth.Programs.Naming
/-!
Listing directories.
-/
namespace TestSynth.Programs

open Process Tool

/-- How a listing looks. -/
structure ListingStyle where
  /-- Shows hidden entries, and among them the directory itself and the one above it. -/
  showsHidden : Bool := false
  showsPoints : Bool := false
  isLong : Bool := false
  /-- Marks directories alone, or all that is no plain file. -/
  marks : Option Bool := none
  isReversed : Bool := false
  bySize : Bool := false
  isUnsorted : Bool := false
  isQuoted : Bool := false
  withCommas : Bool := false
  isDeep : Bool := false

/-- An entry that is listed. -/
structure ListedEntry where
  name : String
  node : FileNode

namespace ListedEntry

/-- Bytes that a node takes; a directory takes a block. -/
def sizeOf : FileNode → Nat
  | .file content _ => content.length
  | .link target => (Text.encode target).length
  | .directory _ => 4096

def rights : FileNode → String
  | .file _ true => "-rwxr-xr-x"
  | .file _ false => "-rw-r--r--"
  | .link _ => "lrwxrwxrwx"
  | .directory _ => "drwxr-xr-x"

/-- Names that lead to a node. -/
def linkCount (node : FileNode) : Nat :=
  if node.isDirectory then 2 + (node.entries.filter (·.2.isDirectory)).length else 1

/-- Blocks of a thousand bytes that a node takes. -/
def blocks : FileNode → Nat
  | .link _ => 0
  | node => (sizeOf node + 4095) / 4096 * 4

/-- The mark behind the name of a node. -/
def mark (all : Bool) : FileNode → String
  | .directory _ => "/"
  | .file _ true => if all then "*" else ""
  | .link _ => if all then "@" else ""
  | _ => ""

def order (style : ListingStyle) (a b : ListedEntry) : Bool :=
  if style.bySize && sizeOf a.node != sizeOf b.node then sizeOf b.node < sizeOf a.node
  else a.name ≤ b.name

def sort (style : ListingStyle) (entries : List ListedEntry) : List ListedEntry :=
  if style.isUnsorted then entries
  else
    let sorted := entries.mergeSort (order style)
    if style.isReversed then sorted.reverse else sorted

/-- The time shown for all files, as none is kept. -/
def timeText : String := "Jan  1 00:00"

/-- Prints entries in order. -/
def printAll (style : ListingStyle) (t : FileTree) (directory : Option String)
    (entries : List ListedEntry) : ToolM Unit := do
  let shown (s : String) : String := if style.isQuoted then "\"" ++ s ++ "\"" else s
  let marked (e : ListedEntry) : String :=
    shown e.name ++ (style.marks.elim "" fun all => mark all e.node)
  if style.isLong then
    let width (f : FileNode → Nat) : Nat :=
      (entries.map fun e => (toString (f e.node)).length).foldl max 0
    let countWidth := width linkCount
    let sizeWidth := width sizeOf
    for e in entries do
      let target := match e.node with
        | .link target =>
          let place := Path.join (Session.pathOf ((directory.map (nameIn · "")).getD "")) ⟨target⟩
          let ending := match style.marks, t.find place with
            | some all, .ok (_, node) => mark all node
            | _, _ => ""
          shown e.name ++ " -> " ++ shown (Text.spread target) ++ ending
        | _ => marked e
      printLine (rights e.node ++ " " ++ padLeft countWidth (toString (linkCount e.node)) ++
        " root root " ++ padLeft sizeWidth (toString (sizeOf e.node)) ++ " " ++ timeText ++ " " ++ target)
  else if style.withCommas then
    if !entries.isEmpty then printLine (String.intercalate ", " (entries.map marked))
  else for e in entries do printLine (marked e)

end ListedEntry

/-- Lists a directory. -/
def listDirectory (style : ListingStyle) (t : FileTree) (name : String) (place : Location)
    (node : FileNode) : ToolM Unit := do
  let own := node.entries.map fun (n, child) => ListedEntry.mk (Text.spread n) child
  let visible := if style.showsHidden then own else own.filter fun e => !e.name.startsWith "."
  let above := ((t.node? place.dropLast).getD node)
  let all := if style.showsPoints then ⟨".", node⟩ :: ⟨"..", above⟩ :: visible else visible
  if style.isLong then
    printLine ("total " ++ toString (Number.total (all.map fun e => ListedEntry.blocks e.node)))
  ListedEntry.printAll style t (some name) (ListedEntry.sort style all)

/-- The directories below one, each before those in it. -/
def directoriesBelow (style : ListingStyle) (name : String) (place : Location) (node : FileNode) :
    List (String × Location × FileNode) :=
  let below := (node.descendants.filter fun (_, n) => n.isDirectory).map fun (p, n) =>
    (p.foldl (fun name part => nameIn name (Text.spread part)) name, place ++ p, p, n)
  let kept := if style.showsHidden then below
    else below.filter fun (_, _, p, _) => !p.any (·.startsWith ".")
  (name, place, node) :: kept.map fun (name, place, _, n) => (name, place, n)

def ls : Program := fun _ arguments => do
  let o ← ({ letters := "aA1dlRrFptSUfimQCxnghoLHNbBcuksvXZG", valued := "Iw"
             names := [("all", "a", .never), ("almost-all", "A", .never), ("directory", "d", .never),
               ("classify", "F", .never), ("recursive", "R", .never), ("reverse", "r", .never),
               ("color", "color", .maybe), ("quote-name", "Q", .never), ("format", "format", .always),
               ("sort", "sort", .always), ("group-directories-first", "groups", .never),
               ("indicator-style", "style", .always), ("human-readable", "h", .never)]
             misuse := 2 } : OptionTable).read arguments
  let style : ListingStyle := {
    showsHidden := o.has "a" || o.has "A" || o.has "f"
    showsPoints := (o.last? ["a", "A", "f"]).any (· != "A")
    isLong := (o.last? ["l", "n", "g", "o", "1", "m", "C", "x"]).any ["l", "n", "g", "o"].contains ||
      (o.has "l" && o.last? ["C", "m", "x"] == none)
    marks := if o.has "F" then some true else if o.has "p" then some false else none
    isReversed := o.has "r"
    bySize := o.has "S"
    isUnsorted := o.has "U" || o.has "f"
    isQuoted := o.has "Q"
    withCommas := (o.last? ["l", "1", "m", "C", "x"]) == some "m"
    isDeep := o.has "R" }
  let t ← tree
  let follows := !(style.isLong || o.has "F" || o.has "d")
  let mut files : List ListedEntry := []
  let mut directories : List (ListedEntry × Location) := []
  let names := if o.operands.isEmpty then ["."] else o.operands
  for name in names do
    let path := Session.pathOf name
    let found : Except FileError (Location × FileNode) := match (if follows then t.find path else t.findItself path) with
      | .ok r => .ok r
      | .error e => if follows then t.findItself path else .error e
    match found with
    | .error e => complain ("cannot access " ++ quoteShell name ++ ": " ++ e.reason) 2
    | .ok (place, node) =>
      if node.isDirectory && !o.has "d" then directories := directories ++ [(⟨name, node⟩, place)]
      else files := files ++ [⟨name, node⟩]
  ListedEntry.printAll style t none (ListedEntry.sort style files)
  let sorted := (ListedEntry.sort style (directories.map (·.1))).filterMap fun e =>
    (directories.find? (·.1.name == e.name))
  let shown := sorted.flatMap fun (e, place) =>
    if style.isDeep then directoriesBelow style e.name place e.node else [(e.name, place, e.node)]
  let hasTitles := style.isDeep || 1 < names.length
  let mut isFirst := files.isEmpty
  for (name, place, node) in shown do
    if hasTitles then print ((if isFirst then "" else "\n") ++ quoteIfNeeded name ++ ":\n")
    isFirst := false
    listDirectory style t name place node

end TestSynth.Programs
