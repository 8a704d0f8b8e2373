/-!
The language of shell scripts. A script is text with one character for each byte.
-/
namespace TestSynth.Shell

/-- What is asked of a parameter between braces. A colon in front of an operator lets an empty value
count as none. -/
inductive Operation where
  | value
  | length
  | default (emptyCounts : Bool)
  | alternative (emptyCounts : Bool)
  | assign (emptyCounts : Bool)
  | demand (emptyCounts : Bool)
  | trimStart (longest : Bool)
  | trimEnd (longest : Bool)
  /-- What no operator stands for. -/
  | invalid
deriving DecidableEq, Repr, Inhabited

inductive RedirectKind where
  | read
  | write
  /-- Writes even where files are kept from being replaced. -/
  | overwrite
  | append
  | readWrite
  /-- The descriptor of that number, or none for a dash. -/
  | duplicate
  /-- The word is the input itself. -/
  | document
deriving DecidableEq, Repr, Inhabited

mutual

/-- A piece of a word. What is quoted is neither split nor matched against names. -/
inductive Piece where
  | text (isQuoted : Bool) (cs : List Char)
  | parameter (isQuoted : Bool) (name : String) (operation : Operation) (operand : List Piece)
  /-- What a script prints. -/
  | output (isQuoted : Bool) (script : Command)
  /-- The value of an expression. -/
  | value (isQuoted : Bool) (expression : List Piece)

inductive Redirect where
  | mk (descriptor : Nat) (kind : RedirectKind) (target : List Piece)

/-- A command with the line on which it starts, where its messages tell that. -/
inductive Command where
  | nothing
  | simple (line : Nat) (assignments : List (String × List Piece)) (words : List (List Piece))
    (redirects : List Redirect)
  | redirected (line : Nat) (body : Command) (redirects : List Redirect)
  | subshell (line : Nat) (body : Command) (redirects : List Redirect)
  | background (line : Nat) (body : Command) (redirects : List Redirect)
  | pipeline (stages : List Command) (inBackground : Bool)
  | negation (body : Command)
  | both (first second : Command)
  | either (first second : Command)
  | sequence (parts : List Command)
  | conditional (condition yes no : Command)
  | loop (isUntil : Bool) (condition body : Command)
  | each (line : Nat) (name : String) (words : List (List Piece)) (body : Command)
  | choice (line : Nat) (subject : List Piece) (branches : List (List (List Piece) × Command))
  | function (name : String) (body : Command)

end

instance : Inhabited Piece := ⟨.text false []⟩

instance : Inhabited Command := ⟨.nothing⟩

instance : Inhabited Redirect := ⟨.mk 0 .read []⟩

abbrev Word := List Piece

/-- A word without quotes, as it is written. -/
def Word.ofString (s : String) : Word := [.text true s.toList]

/-- The command that runs a program with arguments as they are. -/
def Command.ofWords (words : List String) : Command := .simple 1 [] (words.map Word.ofString) []

/-- The text of a word without quotes and expansions. -/
def Word.bareText? : Word → Option (List Char)
  | [.text false cs] => some cs
  | _ => none

/-- Whether any part of a word is quoted. -/
def Word.hasQuotes (w : Word) : Bool := w.any fun
  | .text q _ | .parameter q .. | .output q _ | .value q _ => q

structure SyntaxError where
  line : Nat
  message : String
deriving DecidableEq, Repr, Inhabited

end TestSynth.Shell
