import TestSynth.Artifact.Basic
/-!
The source text of a test. Declarations come before assertions, and an assertion macro is passed a
call expression alone, whose commas stand inside its own parentheses.
-/
namespace TestSynth.Artifact

open Typing (Category)

def leftBrace : String := "\x7b"

def rightBrace : String := "\x7d"

structure TranslationUnit where
  header : String
  standInHeaders : List String := []
  notes : List String := []
  suite : String
  name : String
  body : List String := []
deriving DecidableEq, Repr, Inhabited

/-- System headers every test includes. -/
def systemHeaders : List String := ["<gtest/gtest.h>", "<limits>", "<stdexcept>", "<string>"]

def lineBlock (ls : List String) : String := String.join (ls.map (· ++ "\n"))

def includeLines (header : String) (standInHeaders : List String) : List String :=
  systemHeaders.map ("#include " ++ ·) ++
    (header :: standInHeaders).map fun h => "#include \"" ++ h ++ "\""

def includeBlock (header : String) (standInHeaders : List String) : String :=
  lineBlock (includeLines header standInHeaders)

def TranslationUnit.render (u : TranslationUnit) : String :=
  lineBlock (u.notes.map ("// " ++ ·)) ++ (if u.notes.isEmpty then "" else "\n") ++
    includeBlock u.header u.standInHeaders ++ "\nTEST(" ++ u.suite ++ ", " ++ u.name ++ ") " ++
    lineBlock ([leftBrace] ++ (u.body.map fun l => if l.isEmpty then "" else "    " ++ l) ++
      [rightBrace])

/-- A call followed by assertions on its result. A call for nothing that stands in a `try` block
is made bare, so that an exception reaches the handler. -/
def checkedCall (expression : String) (category : Category) (isGuarded : Bool) : List String :=
  match category with
  | .void =>
    if isGuarded then [expression ++ ";"] else ["EXPECT_NO_THROW(" ++ expression ++ ");"]
  | .pointer =>
    ["auto result = " ++ expression ++ ";",
      "if (result != nullptr) " ++ leftBrace,
      "    EXPECT_NE(result, nullptr);",
      rightBrace ++ " else " ++ leftBrace,
      "    EXPECT_EQ(result, nullptr);",
      rightBrace]
  | .integer | .floating =>
    ["auto result = " ++ expression ++ ";",
      "EXPECT_GE(result, std::numeric_limits<decltype(result)>::lowest());",
      "EXPECT_LE(result, std::numeric_limits<decltype(result)>::max());"]
  | .boolean => ["bool result = " ++ expression ++ ";", "(void)result;", "SUCCEED();"]
  | _ => ["auto&& result = " ++ expression ++ ";", "(void)result;", "SUCCEED();"]

/-- The statements in a `try` block that accepts any standard exception. -/
def guarded (statements : List String) : List String :=
  ["try " ++ leftBrace] ++ statements.map ("    " ++ ·) ++
    [rightBrace ++ " catch (const std::exception& e) " ++ leftBrace,
      "    SUCCEED() << e.what();",
      rightBrace]

/-- How often a repetition scenario calls. -/
def repetitions : Nat := 3

def repeated (expression : String) : List String :=
  ["for (int i = 0; i < " ++ toString repetitions ++ "; ++i) " ++ leftBrace,
    "    EXPECT_NO_THROW(" ++ expression ++ ");",
    rightBrace]

def twice (expression : String) (comparable : Bool) : List String :=
  if comparable then
    ["auto first = " ++ expression ++ ";", "auto second = " ++ expression ++ ";",
      "EXPECT_EQ(first, second);"]
  else ["(void)" ++ expression ++ ";", "(void)" ++ expression ++ ";", "SUCCEED();"]

/-- The statements of a scenario that calls a method or function. -/
def callBody (kind : ScenarioKind) (expression : String) (category : Category)
    (comparable : Bool) : List String :=
  match kind with
  | .basicUsage | .returnValue => checkedCall expression category false
  | .multipleInvocations => repeated expression
  | .edgeCases | .boundaryCheck => guarded (checkedCall expression category true)
  | .consistency | .consistentResults => twice expression comparable
  | _ => ["EXPECT_NO_THROW(" ++ expression ++ ");"]

/-- A local of a type, made from the arguments if there are any. -/
def constructed (typeName arguments name : String) : String :=
  if arguments.isEmpty then typeName ++ " " ++ name ++ leftBrace ++ rightBrace ++ ";"
  else typeName ++ " " ++ name ++ "(" ++ arguments ++ ");"

/-- The statements of a scenario that constructs. The cast keeps a construction from reading as a
declaration. -/
def constructionBody (kind : ScenarioKind) (typeName arguments : String) : List String :=
  match kind with
  | .multipleInstances =>
    [constructed typeName arguments "first", constructed typeName arguments "second",
      "(void)first;", "(void)second;", "SUCCEED();"]
  | .stackAllocation =>
    [constructed typeName arguments "instance", "(void)instance;", "SUCCEED();"]
  | _ => ["EXPECT_NO_THROW((void)" ++ typeName ++ "(" ++ arguments ++ "));"]

end TestSynth.Artifact
