import TestSynth.Failure
import TestSynth.Header.Scan
import TestSynth.Model.Basic
/-!
Which files of a project are headers and sources, what the compiler is given of them, and how they
are found and the declarations of the headers read.
-/
namespace TestSynth

def lowerCase (s : String) : String := String.ofList (s.toList.map Char.toLower)

def headerExtensions : List String := ["h", "hh", "hpp", "hxx"]

def sourceExtensions : List String := ["c", "cc", "cpp", "cxx"]

/-- The role a file has by its extension, in any case. -/
def roleOf? (p : Path) : Option SourceRole :=
  p.extension?.bind fun extension =>
    if headerExtensions.contains (lowerCase extension) then some .header
    else if sourceExtensions.contains (lowerCase extension) then some .source
    else none

/-- Puts an element into an increasing list unless its equal is there. -/
def insertOrdered {α : Type} (order : α → α → Ordering) (x : α) : List α → List α
  | [] => [x]
  | y :: ys => match order x y with
    | .lt => x :: y :: ys
    | .eq => y :: ys
    | .gt => y :: insertOrdered order x ys

/-- The elements in increasing order, each once; of equal ones the first stays. -/
def sortedOnce {α : Type} (order : α → α → Ordering) (xs : List α) : List α :=
  xs.foldl (fun sorted x => insertOrdered order x sorted) []

/-- The directories that hold headers, and further ones. Of several spellings of one directory the
last further one stays. -/
def includeDirs (units : List SourceUnit) (extra : List Path) : List Path :=
  sortedOnce Path.order (extra.reverse ++ (units.filter (·.isHeader)).filterMap (·.path.parent?))

/-- The sources that every test is linked with. One with `main` in its name would clash with the
test runner. -/
def projectSources (units : List SourceUnit) : List Path :=
  (units.filter fun u =>
    u.role == .source && !Text.containsString "main" (lowerCase u.stem)).map (·.path)

/-- Hidden directories and excluded ones are not looked into. -/
def skipsDirectory (s : ProjectSettings) (name : String) : Bool :=
  ['.'].isPrefixOf name.toList && 1 < name.toList.length || s.excludeDirs.contains name

def unitOf? (p : Path) : Option SourceUnit := (roleOf? p).map (SourceUnit.mk p)

/-- The headers and sources below one root. -/
def scanRoot (s : ProjectSettings) (files : FileTree) (root : Path) :
    Except Failure (List SourceUnit) :=
  match files.find root with
  | .error _ => .error (.missingRoot root)
  | .ok (_, node) =>
    if node.isFile then .ok (unitOf? root).toList
    else .ok (node.descendants.filterMap fun (below, found) =>
      if found.isFile && !below.dropLast.any (skipsDirectory s) then
        unitOf? (root.join ⟨String.intercalate "/" below⟩)
      else none)

/-- The files below all roots in order, each once. Roots that do not exist are passed over. -/
def scanRoots (s : ProjectSettings) (files : FileTree) (roots : List Path) : List SourceUnit :=
  sortedOnce SourceUnit.order (roots.flatMap fun root =>
    match scanRoot s files root with
    | .ok units => units
    | .error _ => [])

def Header.Limits.ofSettings (s : SynthesisSettings) : Header.Limits :=
  ⟨s.maxFreeFunctionsPerHeader, s.includeFreeFunctions⟩

/-- The declarations of one file. Bytes that are no text are replaced. -/
def extractFile (limits : Header.Limits) (files : FileTree) (unit : SourceUnit) :
    Except Failure ModelTable :=
  match files.read unit.path with
  | .ok bytes => .ok (Header.extract limits unit (Text.decode bytes))
  | .error e => .error (.unreadable unit.path e)

/-- The declarations of all headers. Those that cannot be read are passed over. -/
def extractAll (limits : Header.Limits) (files : FileTree) (units : List SourceUnit) : ModelTable :=
  (units.filter (·.isHeader)).foldl (fun table unit =>
    match extractFile limits files unit with
    | .ok found => table.absorb found
    | .error _ => table) {}

end TestSynth
