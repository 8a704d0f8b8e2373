import TestSynth.Number.Binary64
import TestSynth.Regex.Search
/-!
Rules for records: what is looked for, and what is done with the records that are found. A record is
cut into fields.
-/
namespace TestSynth.Programs.Records

open Number (Binary64)

inductive Operator where
  | add
  | subtract
  | multiply
  | divide
  | remainder
  | power
deriving DecidableEq, Repr, Inhabited

inductive Comparison where
  | less
  | atMost
  | equal
  | different
  | atLeast
  | greater
deriving DecidableEq, Repr, Inhabited

/-- The functions that need no definition. -/
inductive Standard where
  | atan2
  | close
  | cos
  | exp
  | flush
  | gsub
  | index
  | int
  | length
  | log
  | search
  | random
  | sin
  | split
  | sprintf
  | sqrt
  | seed
  | sub
  | substr
  | system
  | lower
  | upper
deriving DecidableEq, Repr, Inhabited

/-- Where a record is read from besides the inputs. -/
inductive SourceKind where
  | input
  | file
  | command
deriving DecidableEq, Repr, Inhabited

inductive Expr where
  | number (x : Binary64)
  | text (s : String)
  | pattern (s : Regex.Searcher)
  | name (n : String)
  | field (index : Expr)
  | element (array : String) (index : List Expr)
  | isIn (index : List Expr) (array : String)
  | assign (target value : Expr)
  | change (target : Expr) (o : Operator) (value : Expr)
  /-- Counts a target up or down by one; the value is the new one or the old one. -/
  | count (target : Expr) (isUp givesNew : Bool)
  | choice (condition yes no : Expr)
  | both (a b : Expr)
  | either (a b : Expr)
  | not (a : Expr)
  | negative (a : Expr)
  | positive (a : Expr)
  | compute (o : Operator) (a b : Expr)
  | compare (c : Comparison) (a b : Expr)
  | matching (isNegated : Bool) (a b : Expr)
  | join (a b : Expr)
  | call (function : String) (arguments : List Expr)
  | standard (f : Standard) (arguments : List Expr)
  | getLine (kind : SourceKind) (source target : Option Expr)
  /-- An expression between parentheses. -/
  | group (a : Expr)
deriving Inhabited

/-- Where printed text goes. -/
inductive Target where
  | output
  | file (name : Expr)
  | append (name : Expr)
  | pipe (command : Expr)
deriving Inhabited

inductive Statement where
  | value (e : Expr)
  | print (values : List Expr) (target : Target)
  | format (values : List Expr) (target : Target)
  | block (body : List Statement)
  | choice (condition : Expr) (yes no : Statement)
  | loop (condition : Expr) (body : Statement)
  | loopAfter (body : Statement) (condition : Expr)
  | count (first : Statement) (condition : Option Expr) (step body : Statement)
  | each (name array : String) (body : Statement)
  | leave
  | again
  | next
  | nextInput
  | exit (status : Option Expr)
  | answer (value : Option Expr)
  /-- Removes an element, or all elements. -/
  | remove (array : String) (index : Option (List Expr))
  | nothing
deriving Inhabited

/-- When a rule applies. -/
inductive Condition where
  | start
  | finish
  | always
  | whenever (e : Expr)
  | between (first last : Expr)
deriving Inhabited

structure Rule where
  condition : Condition
  body : Statement
deriving Inhabited

structure Function where
  name : String
  parameters : List String
  /-- The parameters that are arrays. -/
  arrays : List String := []
  body : Statement
deriving Inhabited

structure Script where
  rules : List Rule := []
  functions : List Function := []
deriving Inhabited

end TestSynth.Programs.Records
