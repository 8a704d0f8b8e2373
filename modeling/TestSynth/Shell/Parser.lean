import TestSynth.Shell.Tokens
/-!
The grammar of scripts. Commands are read one line at a time, since what a line does can change how
the next one reads.
-/
namespace TestSynth.Shell

open Reader

/-- Reports a token that does not belong where it stands, and the one that does. -/
def unexpected {α : Type} (token : Token) (wanted : Option Token := none) : ReadM α :=
  failure (token.name ++ " unexpected" ++
    match wanted with
    | some t => " (expecting " ++ t.name ++ ")"
    | none => "")

/-- The lines of a document as they stand, up to its limit; the first argument bounds their
number. -/
def rawDocument (stripsTabs : Bool) (limit : List Char) : Nat → List Char → List Char × List Char
  | 0, text => ([], text)
  | _, [] => ([], [])
  | n + 1, text => match limitRest? stripsTabs limit text with
    | some rest => ([], rest)
    | none =>
      let text := if stripsTabs then text.dropWhile (· == '\t') else text
      let line := text.takeWhile (· != '\n')
      match text.drop line.length with
      | [] => (line, [])
      | end_ :: rest =>
        let (more, rest) := rawDocument stripsTabs limit n rest
        (line ++ end_ :: more, rest)

/-- Reads a document from the front of the text. -/
def readDocument (script : Bool → ReadM Command) (stripsTabs expands : Bool) (limit : List Char) :
    ReadM Word := do
  let text := (← get).text
  if expands then
    match limitRest? stripsTabs limit text with
    | some rest =>
      advance rest
      return []
    | none =>
      if stripsTabs then advance (text.dropWhile (· == '\t'))
      readWord script (.document stripsTabs limit)
  else
    let (cs, rest) := rawDocument stripsTabs limit (text.length + 1) text
    let count := cs.count '\n'
    modify fun r => { r with text := rest, line := r.line + count }
    return [.text true cs]

/-- Takes the document out of the text that stands behind the current line. -/
def takeDocument (script : Bool → ReadM Command) (stripsTabs expands : Bool) (limit : List Char) :
    ReadM Word := do
  let r ← get
  let front := r.text.takeWhile (· != '\n')
  match r.text.drop front.length with
  | [] => return []
  | _ :: behind =>
    advanceLine behind
    let w ← readDocument script stripsTabs expands limit
    modify fun after => { after with
      text := front ++ after.text, line := r.line, linesTaken := after.line - r.line }
    return w

/-- The text of a limit, and whether its document is expanded. -/
def limitOf (w : Word) : List Char × Bool :=
  (w.flatMap fun
    | .text _ cs => cs
    | .parameter _ name .. => '$' :: name.toList
    | _ => [],
  !w.hasQuotes)

def redirectKind (operator : String) : RedirectKind :=
  match operator with
  | "<" => .read
  | ">" => .write
  | ">|" => .overwrite
  | ">>" => .append
  | "<>" => .readWrite
  | "<&" | ">&" => .duplicate
  | _ => .document

/-- The redirection that an operator starts. -/
def readTarget (script : Bool → ReadM Command) (descriptor : Nat) (operator : String) : ReadM Redirect := do
  let token ← readToken script {} 1
  match token with
  | .word w _ =>
    let kind := redirectKind operator
    if kind == .document then
      let (limit, expands) := limitOf w
      return .mk descriptor kind (← takeDocument script (operator == "<<-") expands limit)
    else return .mk descriptor kind w
  | other => unexpected other

/-- The assignment that a word in front of a command writes. -/
def assignmentOf? (w : Word) : Option (String × Word) :=
  match w with
  | .text false cs :: rest => (assignedName? cs).map fun (name, value) =>
    (String.ofList name, if value.isEmpty then rest else .text false value :: rest)
  | _ => none

/-- The commands that a script cannot define anew. -/
def specialNames : List String :=
  [".", ":", "break", "continue", "eval", "exec", "exit", "export", "readonly", "return", "set",
    "shift", "times", "trap", "unset"]

/-- How the commands of a list are ended. -/
inductive Listing where
  /-- By the end of the line. -/
  | line
  /-- By what ends a list, behind at least one command. -/
  | body
  /-- By what ends a list, maybe at once. -/
  | optional
deriving DecidableEq

def endsList (token : Token) : Bool :=
  match token with
  | .keyword name => ["do", "done", "elif", "else", "esac", "fi", "then", "\x7d"].contains name
  | .operator text => text == ")" || text == ";;"
  | .finish => true
  | _ => false

def asOne : List Command → Command
  | [] => .nothing
  | [only] => only
  | parts => .sequence parts

/-- A command that goes on by itself. -/
def Command.inBackground : Command → Command
  | .pipeline stages _ => .pipeline stages true
  | .redirected line body redirects => .background line body redirects
  | .simple line as ws rs => .background line (.simple line as ws rs) []
  | body => .background 0 body []

/-- The parameters, as a loop without words goes over them. -/
def allArguments : Word := [.parameter true "@" .value []]

mutual

/-- Reads commands up to the end of their list. -/
def readList : Nat → Listing → List Command → ReadM Command
  | 0, _, _ => failure "too long"
  | n + 1, listing, acc => do
    let script := readSubstitution n
    let position : Position := if listing = .line then .start else .afterNewlines
    let token ← readToken script position (n + 1)
    match token with
    | .newline => return asOne acc.reverse
    | .finish =>
      giveBack token
      return asOne acc.reverse
    | _ =>
      giveBack token
      if listing = .optional && endsList token then return asOne acc.reverse
      let listing := if listing = .body then .optional else listing
      let command ← readChoices n
      let ender ← readToken script {} (n + 1)
      match ender with
      | .operator "&" => readList n listing (command.inBackground :: acc)
      | .operator ";" => readList n listing (command :: acc)
      | .newline =>
        giveBack ender
        readList n listing (command :: acc)
      | .finish =>
        giveBack ender
        return asOne (command :: acc).reverse
      | _ =>
        if listing = .line then unexpected ender
        giveBack ender
        return asOne (command :: acc).reverse

/-- Reads the script of a substitution, with its closing parenthesis if it has one. -/
def readSubstitution : Nat → Bool → ReadM Command
  | 0, _ => failure "too long"
  | n + 1, isClosed => do
    let outer := (← get).pushed
    modify fun r => { r with pushed := none }
    let body ← readList n .optional []
    if isClosed then
      let token ← readToken (readSubstitution n) {} (n + 1)
      if token.name != (Token.operator ")").name then unexpected token (some (.operator ")"))
    modify fun r => { r with pushed := outer }
    return body

/-- Reads commands between `&&` and `||`. -/
def readChoices : Nat → ReadM Command
  | 0 => failure "too long"
  | n + 1 => do
    let first ← readPipeline n .start
    readMoreChoices n first

def readMoreChoices : Nat → Command → ReadM Command
  | 0, _ => failure "too long"
  | n + 1, first => do
    let token ← readToken (readSubstitution n) {} (n + 1)
    match token with
    | .operator "&&" =>
      let second ← readPipeline n .afterNewlines
      readMoreChoices n (.both first second)
    | .operator "||" =>
      let second ← readPipeline n .afterNewlines
      readMoreChoices n (.either first second)
    | _ =>
      giveBack token
      return first

def readPipeline : Nat → Position → ReadM Command
  | 0, _ => failure "too long"
  | n + 1, position => do
    let token ← readToken (readSubstitution n) position (n + 1)
    match token with
    | .keyword "!" => return .negation (← readStages n .start [])
    | _ =>
      giveBack token
      readStages n {} []

/-- Reads commands between bars. -/
def readStages : Nat → Position → List Command → ReadM Command
  | 0, _, _ => failure "too long"
  | n + 1, position, acc => do
    let command ← readCommand n position
    let token ← readToken (readSubstitution n) {} (n + 1)
    match token with
    | .operator "|" => readStages n .afterNewlines (command :: acc)
    | _ =>
      giveBack token
      if acc.isEmpty then return command else return .pipeline (command :: acc).reverse false

def readCommand : Nat → Position → ReadM Command
  | 0, _ => failure "too long"
  | n + 1, position => do
    let script := readSubstitution n
    let line := (← get).line
    let token ← readToken script position (n + 1)
    match token with
    | .keyword "if" => readRedirects n line (← readCondition n "fi") []
    | .keyword "while" => readRedirects n line (← readLoop n false) []
    | .keyword "until" => readRedirects n line (← readLoop n true) []
    | .keyword "for" => readRedirects n line (← readEach n line) []
    | .keyword "case" => readRedirects n line (← readCase n line) []
    | .keyword "\x7b" =>
      let body ← readList n .body []
      expect n (.keyword "\x7d")
      readRedirects n line body []
    | .operator "(" =>
      let body ← readList n .body []
      expect n (.operator ")")
      readRedirects n line (.subshell line body []) []
    | .word .. | .redirect .. =>
      giveBack token
      readSimple n (← get).line true [] [] []
    | other => unexpected other

/-- Takes the token that has to come next. -/
def expect : Nat → Token → ReadM Unit
  | 0, _ => failure "too long"
  | n + 1, wanted => do
    let token ← readToken (readSubstitution n) .start (n + 1)
    if token.name == wanted.name then return () else unexpected token (some wanted)

/-- Reads the redirections behind a command. -/
def readRedirects : Nat → Nat → Command → List Redirect → ReadM Command
  | 0, _, _, _ => failure "too long"
  | n + 1, line, body, acc => do
    let token ← readToken (readSubstitution n) .start (n + 1)
    match token with
    | .redirect descriptor operator =>
      let r ← readTarget (readSubstitution n) descriptor operator
      readRedirects n line body (r :: acc)
    | _ =>
      giveBack token
      match acc, body with
      | [], _ => return body
      | acc, .subshell line inner _ => return .subshell line inner acc.reverse
      | acc, _ => return .redirected line body acc.reverse

/-- Reads a condition with what depends on it, behind its first keyword. -/
def readCondition : Nat → String → ReadM Command
  | 0, _ => failure "too long"
  | n + 1, ender => do
    let script := readSubstitution n
    let condition ← readList n .body []
    expect n (.keyword "then")
    let yes ← readList n .body []
    let token ← readToken script .start (n + 1)
    match token with
    | .keyword "elif" => return .conditional condition yes (← readCondition n ender)
    | .keyword "else" =>
      let no ← readList n .body []
      expect n (.keyword ender)
      return .conditional condition yes no
    | .keyword "fi" => return .conditional condition yes .nothing
    | other => unexpected other (some (.keyword ender))

def readLoop : Nat → Bool → ReadM Command
  | 0, _ => failure "too long"
  | n + 1, isUntil => do
    let condition ← readList n .body []
    expect n (.keyword "do")
    let body ← readList n .body []
    expect n (.keyword "done")
    return .loop isUntil condition body

/-- Reads a loop over words. -/
def readEach : Nat → Nat → ReadM Command
  | 0, _ => failure "too long"
  | n + 1, line => do
    let script := readSubstitution n
    let token ← readToken script {} (n + 1)
    let name ← match token with
      | .word w false => match w.bareText? with
        | some cs => if Text.isIdentifier cs then pure cs else failure "Bad for loop variable"
        | none => failure "Bad for loop variable"
      | _ => failure "Bad for loop variable"
    let next ← readToken script .afterNewlines (n + 1)
    let words ← match next with
      | .keyword "in" =>
        let words ← readWords n []
        let ender ← readToken script {} (n + 1)
        match ender with
        | .newline | .operator ";" => pure words
        | other => unexpected other
      | .operator ";" => pure [allArguments]
      | other =>
        giveBack other
        pure [allArguments]
    let token ← readToken script .afterNewlines (n + 1)
    match token with
    | .keyword "do" =>
      let body ← readList n .body []
      expect n (.keyword "done")
      return .each line (String.ofList name) words body
    | other => unexpected other (some (.keyword "do"))

/-- Reads words up to the next other token. -/
def readWords : Nat → List Word → ReadM (List Word)
  | 0, _ => failure "too long"
  | n + 1, acc => do
    let token ← readToken (readSubstitution n) {} (n + 1)
    match token with
    | .word w _ => readWords n (w :: acc)
    | other =>
      giveBack other
      return acc.reverse

def readCase : Nat → Nat → ReadM Command
  | 0, _ => failure "too long"
  | n + 1, line => do
    let script := readSubstitution n
    let token ← readToken script {} (n + 1)
    match token with
    | .word subject _ =>
      let token ← readToken script .afterNewlines (n + 1)
      match token with
      | .keyword "in" => return .choice line subject (← readBranches n [])
      | other => unexpected other (some (.keyword "in"))
    | other => unexpected other (some (.word [] false))

/-- Reads the branches of a choice and its last keyword. -/
def readBranches : Nat → List (List Word × Command) → ReadM (List (List Word × Command))
  | 0, _ => failure "too long"
  | n + 1, acc => do
    let script := readSubstitution n
    let token ← readToken script ⟨true, true, false⟩ (n + 1)
    match token with
    | .keyword "esac" => return acc.reverse
    | token =>
      let first ← match token with
        | .operator "(" => readToken script {} (n + 1)
        | token => pure token
      let patterns ← readPatterns n first []
      let body ← readList n .optional []
      let ender ← readToken script ⟨true, true, false⟩ (n + 1)
      match ender with
      | .keyword "esac" => return ((patterns, body) :: acc).reverse
      | .operator ";;" => readBranches n ((patterns, body) :: acc)
      | other => unexpected other (some (.operator ";;"))

/-- Reads the patterns of a branch with the closing parenthesis; the first one was read. -/
def readPatterns : Nat → Token → List Word → ReadM (List Word)
  | 0, _, _ => failure "too long"
  | n + 1, token, acc => do
    let script := readSubstitution n
    let pattern : Word := match token with
      | .word w _ => w
      | .keyword name => [.text false name.toList]
      | _ => []
    let next ← readToken script {} (n + 1)
    match next with
    | .operator "|" =>
      let token ← readToken script {} (n + 1)
      readPatterns n token (pattern :: acc)
    | .operator ")" => return (pattern :: acc).reverse
    | other => unexpected other (some (.operator ")"))

/-- Reads a command that is words, or the definition of a function. -/
def readSimple : Nat → Nat → Bool → List (String × Word) → List Word → List Redirect → ReadM Command
  | 0, _, _, _, _, _ => failure "too long"
  | n + 1, line, inFront, assignments, words, redirects => do
    let script := readSubstitution n
    let token ← readToken script ⟨false, false, inFront⟩ (n + 1)
    match token with
    | .word w _ =>
      match if inFront then assignmentOf? w else none with
      | some a => readSimple n line true (a :: assignments) words redirects
      | none => readSimple n line false assignments (w :: words) redirects
    | .redirect descriptor operator =>
      let r ← readTarget script descriptor operator
      readSimple n line inFront assignments words (r :: redirects)
    | .operator "(" =>
      match words, assignments, redirects with
      | [name], [], [] => readFunction n name
      | _, _, _ => unexpected token
    | _ =>
      giveBack token
      return .simple line assignments.reverse words.reverse redirects.reverse

/-- Reads the definition of a function behind its opening parenthesis. -/
def readFunction : Nat → Word → ReadM Command
  | 0, _ => failure "too long"
  | n + 1, name => do
    let token ← readToken (readSubstitution n) {} (n + 1)
    match token with
    | .operator ")" =>
      let cs := (Word.bareText? name).getD []
      let isSpecial := specialNames.contains (String.ofList cs)
      if !Text.isIdentifier cs || isSpecial then failure "Bad function name"
      return .function (String.ofList cs) (← readCommand n .afterNewlines)
    | other => unexpected other (some (.operator ")"))

end

/-- More steps than reading a text with those aliases can take. -/
def readBound (r : Reader) : Nat :=
  4 * (r.text.length + Number.total (r.aliases.map fun a => 64 * (a.2.length + 1))) + 64

/-- Reads the next line of commands; none at the end of the text. -/
def readLine : ReadM (Option Command) := do
  let bound := readBound (← get)
  modify fun r => { r with pushed := none }
  let token ← readToken (readSubstitution bound) .start bound
  match token with
  | .finish => return none
  | .newline => return some .nothing
  | _ =>
    giveBack token
    return some (← readList bound .line [])

end TestSynth.Shell
