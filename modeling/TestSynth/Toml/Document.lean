import TestSynth.Settings.Encoding
import TestSynth.Toml.Scalar
/-!
Whole TOML documents: values, keys, lines, and the settings in one. While a document is read, a
table remembers how it came about, because that decides who may add to it later.
-/
namespace TestSynth.Toml

/-- How a table came about: by its own header, by a header further down, or by a dotted key. -/
inductive Origin where
  | headed
  | implied
  | dotted
deriving DecidableEq, Repr

/-- An entry of a table: a value, a table, or tables under one repeated header. -/
inductive Item where
  | value (j : Json)
  | table (origin : Origin) (entries : List (String × Item))
  | tables (elements : List (List (String × Item)))

abbrev Entries := List (String × Item)

def lookup (key : String) (es : Entries) : Option Item := (es.find? (·.1 == key)).map (·.2)

/-- Puts an item in the place of the one under its key, or at the end. -/
def put (key : String) (item : Item) : Entries → Entries
  | [] => [(key, item)]
  | (k, i) :: rest => if k == key then (key, item) :: rest else (k, i) :: put key item rest

/-- Changes the table that a path leads to. Tables missing on the way are made. A dotted path does
not go through a table that has a header; of repeated tables the last counts. -/
def alterAt (dotted : Bool) (f : Origin → Entries → Option Entries) :
    List String → Origin → Entries → Option Entries
  | [], origin, es => f origin es
  | key :: path, _, es => match lookup key es with
    | none =>
      let origin := if dotted then Origin.dotted else .implied
      (alterAt dotted f path origin []).map fun sub => put key (.table origin sub) es
    | some (.value _) => none
    | some (.table origin sub) =>
      if dotted && origin == .headed then none
      else (alterAt dotted f path origin sub).map fun sub => put key (.table origin sub) es
    | some (.tables elements) => match elements.getLast? with
      | none => none
      | some last => (alterAt dotted f path .headed last).map fun last =>
          put key (.tables (elements.dropLast ++ [last])) es

/-- Adds a value under a key that is new. A table made by dotted keys grows by dotted keys only. -/
def addValue (isDotted : Bool) (key : String) (j : Json) (origin : Origin) (es : Entries) :
    Option Entries :=
  if (origin == .dotted) != isDotted || (lookup key es).isSome then none
  else some (put key (.value j) es)

/-- Adds a value under a dotted key of the table at hand. -/
def addAt (path : List String) (key : String) (j : Json) : Origin → Entries → Option Entries :=
  alterAt true (addValue (!path.isEmpty) key j) path

/-- Starts a table under a header. Only a table that is merely implied can be there already. -/
def startTable (key : String) (_ : Origin) (es : Entries) : Option Entries :=
  match lookup key es with
  | none => some (put key (.table .headed []) es)
  | some (.table .implied sub) => some (put key (.table .headed sub) es)
  | some _ => none

/-- Starts one more table under a repeated header. -/
def startElement (key : String) (_ : Origin) (es : Entries) : Option Entries :=
  match lookup key es with
  | none => some (put key (.tables [[]]) es)
  | some (.tables elements) => some (put key (.tables (elements ++ [[]])) es)
  | some _ => none

mutual

def Item.toJson : Item → Json
  | .value j => j
  | .table _ es => .record (entriesJson es)
  | .tables elements => .list (elementsJson elements)

def entriesJson : List (String × Item) → List (String × Json)
  | [] => []
  | (key, item) :: rest => (key, item.toJson) :: entriesJson rest

def elementsJson : List (List (String × Item)) → List Json
  | [] => []
  | es :: rest => .record (entriesJson es) :: elementsJson rest

end

/-- The value of an inline table with the given keys and values. -/
def inlineTable (pairs : List (List String × String × Json)) : Option Json :=
  (pairs.foldlM (fun es (path, key, j) => addAt path key j .headed es) []).map fun es =>
    .record (entriesJson es)

/-- A part of a key: bare, or a string on one line. -/
def readSimpleKey? : Reader String := fun cs =>
  match cs with
  | '"' :: rest => (readBasic? (rest.length + 1) rest).map fun (s, rest) => (String.ofList s, rest)
  | '\'' :: rest => (readLiteral? rest).map fun (s, rest) => (String.ofList s, rest)
  | _ =>
    let isBare (c : Char) : Bool := c.isAlphanum || c == '_' || c == '-'
    let key := cs.takeWhile isBare
    if key.isEmpty then none else some (String.ofList key, cs.dropWhile isBare)

/-- Parts that a key has at most, and levels that lists and inline tables have. -/
def nestingLimit : Nat := 79

/-- The parts of a key, up to what follows the blanks after it. The first argument bounds their
number. -/
def readParts? : Nat → Reader (List String)
  | 0, _ => none
  | n + 1, cs => do
    let (part, rest) ← readSimpleKey? (skipSpace cs)
    match skipSpace rest with
    | '.' :: rest => (readParts? n rest).map fun (parts, rest) => (part :: parts, rest)
    | rest => return ([part], rest)

def readKey? : Reader (List String) := readParts? nestingLimit

/-- A key and its value: the path, the last part, the value. -/
def readPair? (value : Reader Json) : Reader (List String × String × Json) := fun cs => do
  let (parts, rest) ← readKey? cs
  let (j, rest) ← value (skipSpace (← skip? "=" rest))
  return ((parts.dropLast, parts.getLastD "", j), rest)

/-- A comment up to the end of its line. -/
def skipComment? (cs : List Char) : Option (List Char) :=
  match cs with
  | '#' :: rest =>
    let after := rest.dropWhile isTextChar
    if after.isEmpty || (skipLineEnd? after).isSome then some after else none
  | _ => some cs

/-- Blanks, comments and line ends between the values of a list. The first argument bounds their
number. -/
def skipBetween? : Nat → List Char → Option (List Char)
  | 0, cs => some cs
  | n + 1, cs => do
    let rest ← skipComment? (skipSpace cs)
    match skipLineEnd? rest with
    | some rest => skipBetween? n rest
    | none => return rest

/-- The values of a list up to its bracket; a comma may follow the last. -/
def readItems? (value : Reader Json) : Nat → Reader (List Json)
  | 0, _ => none
  | n + 1, cs => do
    match ← skipBetween? cs.length cs with
    | ']' :: rest => return ([], rest)
    | cs => do
      let (j, rest) ← value cs
      match ← skipBetween? rest.length rest with
      | ',' :: rest => (readItems? value n rest).map fun (js, rest) => (j :: js, rest)
      | ']' :: rest => return ([j], rest)
      | _ => none

/-- The pairs of an inline table up to its brace; no comma follows the last. -/
def readPairs? (value : Reader Json) : Nat → Reader (List (List String × String × Json))
  | 0, _ => none
  | n + 1, cs => do
    let (pair, rest) ← readPair? value cs
    match skipSpace rest with
    | ',' :: rest => (readPairs? value n rest).map fun (ps, rest) => (pair :: ps, rest)
    | '}' :: rest => return ([pair], rest)
    | _ => none

/-- A value; lists and inline tables nest as deep as the first argument. -/
def readValue? : Nat → Reader Json
  | 0, cs => readScalar? cs
  | depth + 1, cs => match cs with
    | '[' :: rest => (readItems? (readValue? depth) (rest.length + 1) rest).map fun (js, rest) =>
        (.list js, rest)
    | '{' :: rest => match skipSpace rest with
      | '}' :: rest => some (.record [], rest)
      | rest => do
        let (pairs, rest) ← readPairs? (readValue? depth) (rest.length + 1) rest
        return (← inlineTable pairs, rest)
    | _ => readScalar? cs

/-- What follows the end of a line that says something. -/
def finishLine? (cs : List Char) : Option (List Char) := do
  let rest ← skipComment? (skipSpace cs)
  if rest.isEmpty then some [] else skipLineEnd? rest

/-- What is read so far and the header it stands under. -/
structure State where
  entries : Entries := []
  header : List String := []

/-- Starts the table of a header by `start`. -/
def State.enter (s : State) (path : List String)
    (start : String → Origin → Entries → Option Entries) : Option State := do
  let entries ← alterAt false (start (path.getLastD "")) path.dropLast .headed s.entries
  return ⟨entries, path⟩

def State.add (s : State) (path : List String) (key : String) (j : Json) : Option State := do
  return { s with entries := ← alterAt false (addAt path key j) s.header .headed s.entries }

/-- Takes one line; the text is not empty and starts with no blank. -/
def readLine? (s : State) (cs : List Char) : Option (State × List Char) :=
  match cs with
  | '[' :: '[' :: rest => do
    let (path, rest) ← readKey? rest
    return (← s.enter path startElement, ← finishLine? (← skip? "]]" rest))
  | '[' :: rest => do
    let (path, rest) ← readKey? rest
    return (← s.enter path startTable, ← finishLine? (← skip? "]" rest))
  | '#' :: _ | '\n' :: _ | '\r' :: _ => (finishLine? cs).map (s, ·)
  | _ => do
    let ((path, key, j), rest) ← readPair? (readValue? nestingLimit) cs
    return (← s.add path key j, ← finishLine? rest)

/-- Takes lines to the end; the first argument bounds their number. -/
def readDocument? : Nat → State → List Char → Option State
  | 0, s, _ => some s
  | n + 1, s, cs => match skipSpace cs with
    | [] => some s
    | cs => do
      let (s, rest) ← readLine? s cs
      readDocument? n s rest

/-- The document in a text, which may start with a byte order mark. -/
def parse? (text : String) : Option Json :=
  let cs := match text.toList with
    | c :: rest => if c == Char.ofNat 0xfeff then rest else c :: rest
    | [] => []
  (readDocument? (cs.length + 1) {} cs).map fun s => .record (entriesJson s.entries)

/-- A list may be longer than a structure needs, and an empty list or table is nothing. -/
def dialect : Json.Dialect where
  allowsExtraItems := true
  isNothing
    | .list [] | .record [] => true
    | _ => false

end TestSynth.Toml

namespace TestSynth

/-- The settings in a TOML document. -/
def Settings.ofToml (text : String) : Except SettingsError Settings :=
  match (Toml.parse? text).bind (Settings.ofJson? Toml.dialect) with
  | some s => .ok s
  | none => .error (.unreadable "not a settings document")

end TestSynth
