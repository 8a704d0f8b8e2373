import TestSynth.Programs.Records.Tokens
/-!
Reading rules for records. The word ahead decides what is read; where the list behind `print` can be
in parentheses, both ways are tried.
-/
namespace TestSynth.Programs.Records

/-- Where in the rules something stands. -/
inductive Surroundings where
  | edge
  | rule
  | function
deriving DecidableEq, Repr, Inhabited

/-- A call: the function in which it stands, the function that is called, and the names among its
arguments. -/
structure Reading.Pass where
  caller : String
  callee : String
  arguments : List (Option String)

/-- The word ahead with its line, what stands behind it, and what is known of the rules so far. -/
structure Reading where
  token : Token := .newline
  line : Nat := 1
  rest : List Char
  parentheses : Nat := 0
  braces : Nat := 0
  loops : Nat := 0
  place : Surroundings := .edge
  /-- The function that is being read. -/
  inside : String := ""
  functions : List String := []
  calls : List Reading.Pass := []
  /-- Names that are used as arrays, each with the function in which it stands. -/
  arrays : List (String × String) := []

abbrev ReadM := StateT Reading (Except Fault)

namespace Reading

/-- Goes on to the next word. -/
def advance : ReadM Unit := do
  let s ← get
  let behind := match s.token with
    | .newline => s.line + 1
    | _ => s.line
  let (joined, cs) := skipBlanks (s.rest.length + 1) 0 s.rest
  let line := behind + joined
  let (token, rest) ← readToken line cs
  set { s with token, line, rest }

/-- Refuses the word ahead. -/
def reject {α : Type} : ReadM α := do
  let s ← get
  match s.token with
  | .stop =>
    if 0 < s.parentheses then throw (.missing s.line ")" "end of file")
    else if 0 < s.braces then throw (.missing s.line "\x7d" "end of file")
    else throw (.near s.line "end of file")
  | .newline => throw (if 0 < s.parentheses then .missing s.line ")" "end of line"
      else .near s.line "end of line")
  | .sign ")" => throw (if s.parentheses = 0 then .refused s.line "extra ')'" else .near s.line ")")
  | .sign "\x7d" => throw (
      if s.braces = 0 then .refused s.line "extra '\x7d'"
      else if 0 < s.parentheses then .missing s.line ")" "\x7d"
      else .near s.line "\x7d")
  | .sign ";" => throw (if 0 < s.parentheses then .missing s.line ")" ";" else .near s.line ";")
  | token => throw (.near s.line token.shown)

def refuse {α : Type} (what : String) : ReadM α := do throw (.refused (← get).line what)

def isSign (text : String) : ReadM Bool := do
  match (← get).token with
  | .sign s => return s == text
  | _ => return false

def isKeyword (text : String) : ReadM Bool := do
  match (← get).token with
  | .keyword s => return s == text
  | _ => return false

/-- Goes on behind a sign if it is ahead. -/
def accept (text : String) : ReadM Bool := do
  if ← isSign text then
    advance
    return true
  else return false

def acceptKeyword (text : String) : ReadM Bool := do
  if ← isKeyword text then
    advance
    return true
  else return false

def expect (text : String) : ReadM Unit := do
  if !(← accept text) then reject

def skipNewlines : Nat → ReadM Unit
  | 0 => return ()
  | n + 1 => do
    match (← get).token with
    | .newline =>
      advance
      skipNewlines n
    | _ => return ()

/-- Goes on behind all newlines. -/
def newlines : ReadM Unit := do skipNewlines ((← get).rest.length + 1)

def openParenthesis : ReadM Unit := do
  if !(← isSign "(") then reject
  modify fun s => { s with parentheses := s.parentheses + 1 }
  advance

def closeParenthesis : ReadM Unit := do
  if !(← isSign ")") then reject
  modify fun s => { s with parentheses := s.parentheses - 1 }
  advance

/-- Reads something between parentheses. -/
def inParentheses {α : Type} (body : ReadM α) : ReadM α := do
  openParenthesis
  let a ← body
  closeParenthesis
  return a

/-- A name without a parenthesis behind it, or the same with one. -/
def name : ReadM String := do
  match (← get).token with
  | .name s | .function s =>
    advance
    return s
  | _ => reject

/-- Remembers that a name is used as an array. -/
def noteArray (array : String) : ReadM Unit :=
  modify fun s => { s with arrays := (s.inside, array) :: s.arrays }

/-- The name of an array. -/
def arrayName : ReadM String := do
  let array ← name
  noteArray array
  return array

/-- An expression that is written between slashes, of which the first was read. -/
def pattern (front : List Char) : ReadM Expr := do
  let s ← get
  match readPattern false (front ++ s.rest) with
  | none => throw (.openPattern s.line (String.ofList (((front ++ s.rest).takeWhile (· != '\n')).take 10)))
  | some (cs, rest) =>
    set { s with rest }
    match Regex.parse .quoting cs with
    | .error problem => throw (.badPattern s.line problem (String.ofList cs))
    | .ok r =>
      advance
      return .pattern (Regex.searcher r)

/-- A text that is used as an expression to search for. -/
def asPattern (e : Expr) : ReadM Expr := do
  match e with
  | .text s => match Regex.parse .quoting s.toList with
    | .error problem => throw (.badPattern (← get).line problem s)
    | .ok r => return .pattern (Regex.searcher r)
  | e => return e

/-- What may be assigned to. -/
def isTarget : Expr → Bool
  | .name _ | .field _ | .element .. => true
  | _ => false

def assignments : List (String × Option Operator) :=
  [("=", none), ("+=", some .add), ("-=", some .subtract), ("*=", some .multiply),
    ("/=", some .divide), ("%=", some .remainder), ("^=", some .power)]

def comparisons : List (String × Comparison) :=
  [("<", .less), ("<=", .atMost), ("==", .equal), ("!=", .different), (">=", .atLeast), (">", .greater)]

/-- The least and the greatest number of arguments. -/
def argumentCounts : Standard → Nat × Nat
  | .atan2 => (2, 2)
  | .close | .cos | .exp | .int | .log | .sin | .sqrt | .system | .lower | .upper => (1, 1)
  | .flush | .length | .seed => (0, 1)
  | .gsub | .sub | .split => (2, 3)
  | .index | .search => (2, 2)
  | .random => (0, 0)
  | .sprintf => (1, 255)
  | .substr => (2, 3)

/-- Makes the arguments that are searched for ready for it. What is changed has to be a place. -/
def withPatterns (f : Standard) (arguments : List Expr) : ReadM (List Expr) := do
  match f, arguments with
  | .gsub, [_, _, .assign ..] | .sub, [_, _, .assign ..] => throw (.near (← get).line "=")
  | .gsub, a :: rest | .sub, a :: rest => return (← asPattern a) :: rest
  | .search, [s, a] => return [s, ← asPattern a]
  | _, arguments => return arguments

/-- Whether a word can start an operand that is joined to the one before it. -/
def startsOperand : Token → Bool
  | .number _ | .text _ | .name _ | .function _ | .standard _ => true
  | .keyword s => s == "getline"
  | .sign s => ["$", "!", "(", "++", "--"].contains s
  | _ => false

/-- Whether a word ends the list behind `print`. -/
def endsList : Token → Bool
  | .newline | .stop => true
  | .sign s => ["\x7d", ";", ">", ">>", "|"].contains s
  | _ => false

/-- What a chain of operands between signs makes: operands are joined from the left. The first
argument bounds their number. -/
def chain {α : Type} (sign? : ReadM (Option α)) (next : α → Expr → ReadM Expr) :
    Nat → Expr → ReadM Expr
  | 0, e => return e
  | n + 1, e => do
    match ← sign? with
    | none => return e
    | some a => chain sign? next n (← next a e)

/-- The value that belongs to the sign ahead, behind which the reading goes on. -/
def signOf? {α : Type} (table : List (String × α)) : ReadM (Option α) := do
  match (← get).token with
  | .sign s => match table.lookup s with
    | some a =>
      advance
      return some a
    | none => return none
  | _ => return none

/-- Expressions by how tightly they bind. In a list that is printed, `>` and a bar end an expression
unless parentheses are around it. The first argument bounds the nesting. -/
def expression (isPrinted : Bool) : Nat → ReadM Expr
  | 0 => reject
  | n + 1 => do
    let condition ← alternatives n
    if ← accept "?" then
      newlines
      let yes ← expression isPrinted n
      newlines
      expect ":"
      newlines
      return .choice condition yes (← expression isPrinted n)
    else return condition
where
  alternatives : Nat → ReadM Expr
    | 0 => reject
    | n + 1 => do
      chain (signOf? [("||", ())]) (fun _ e => do
        newlines
        return .either e (← conditions n)) n (← conditions n)
  conditions : Nat → ReadM Expr
    | 0 => reject
    | n + 1 => do
      chain (signOf? [("&&", ())]) (fun _ e => do
        newlines
        return .both e (← memberships n)) n (← memberships n)
  memberships : Nat → ReadM Expr
    | 0 => reject
    | n + 1 => do
      let sign? : ReadM (Option Unit) := do
        return if ← acceptKeyword "in" then some () else none
      chain sign? (fun _ e => return .isIn [e] (← arrayName)) n (← matchings n)
  matchings : Nat → ReadM Expr
    | 0 => reject
    | n + 1 => do
      chain (signOf? [("~", false), ("!~", true)]) (fun isNegated e =>
        return .matching isNegated e (← asPattern (← orders n))) n (← orders n)
  orders : Nat → ReadM Expr
    | 0 => reject
    | n + 1 => do
      let table := if isPrinted then comparisons.filter (·.1 != ">") else comparisons
      chain (signOf? table) (fun c e => return .compare c e (← assigned n)) n (← assigned n)
  /-- Joined operands, or an assignment to one. -/
  assigned : Nat → ReadM Expr
    | 0 => reject
    | n + 1 => do
      let e ← joined n
      if !isTarget e then return e
      match ← signOf? assignments with
      | none => return e
      | some change =>
        newlines
        let value ← expression isPrinted n
        return match change with
          | none => .assign e value
          | some o => .change e o value
  joined : Nat → ReadM Expr
    | 0 => reject
    | n + 1 => do
      let sign? : ReadM (Option Unit) := do
        return if startsOperand (← get).token then some () else none
      chain sign? (fun _ e => return .join e (← sums n)) n (← sums n)
  sums : Nat → ReadM Expr
    | 0 => reject
    | n + 1 => do
      chain (signOf? [("+", Operator.add), ("-", .subtract)])
        (fun o e => return .compute o e (← products n)) n (← products n)
  products : Nat → ReadM Expr
    | 0 => reject
    | n + 1 => do
      chain (signOf? [("*", Operator.multiply), ("/", .divide), ("%", .remainder)])
        (fun o e => return .compute o e (← signed n)) n (← signed n)
  signed : Nat → ReadM Expr
    | 0 => reject
    | n + 1 => do
      match ← signOf? [("!", Expr.not), ("-", .negative), ("+", .positive)] with
      | some make => return make (← signed n)
      | none => commanded n
  /-- An operand that may be the command from which a line is read. -/
  commanded : Nat → ReadM Expr
    | 0 => reject
    | n + 1 => do
      let sign? : ReadM (Option Unit) := do
        if isPrinted || !(← isSign "|") then return none
        advance
        if !(← acceptKeyword "getline") then reject
        return some ()
      chain sign? (fun _ e => return .getLine .command (some e) (← target? n)) n (← powers n)
  powers : Nat → ReadM Expr
    | 0 => reject
    | n + 1 => do
      let base ← counted n
      if ← accept "^" then return .compute .power base (← exponents n) else return base
  exponents : Nat → ReadM Expr
    | 0 => reject
    | n + 1 => do
      match ← signOf? [("!", Expr.not), ("-", .negative), ("+", .positive)] with
      | some make => return make (← exponents n)
      | none => powers n
  counted : Nat → ReadM Expr
    | 0 => reject
    | n + 1 => do
      let e ← primary n
      if !isTarget e then return e
      match ← signOf? [("++", true), ("--", false)] with
      | some isUp => return .count e isUp false
      | none => return e
  /-- Where a line that is read goes, if that is said. -/
  target? : Nat → ReadM (Option Expr)
    | 0 => reject
    | n + 1 => do
      match (← get).token with
      | .name _ | .sign "$" => return some (← primary n)
      | _ => return none
  /-- The index behind a dollar sign. -/
  index : Nat → ReadM Expr
    | 0 => reject
    | n + 1 => do
      match ← signOf? [("++", some true), ("--", some false), ("-", none)] with
      | some (some isUp) => return .count (← primary n) isUp true
      | some none => return .negative (← index n)
      | none => match ← signOf? [("!", Expr.not), ("+", .positive)] with
        | some make => return make (← index n)
        | none => primary n
  primary : Nat → ReadM Expr
    | 0 => reject
    | n + 1 => do
      match (← get).token with
      | .number x =>
        advance
        return .number x
      | .text s =>
        advance
        return .text s
      | .sign "/" => pattern []
      | .sign "/=" => pattern ['=']
      | .sign "$" =>
        advance
        return .field (← index n)
      | .sign "++" | .sign "--" =>
        let isUp ← isSign "++"
        advance
        let e ← primary n
        if !isTarget e then reject
        return .count e isUp true
      | .sign "-" =>
        advance
        return .negative (← primary n)
      | .sign "(" =>
        let es ← inParentheses (list n)
        match es with
        | [e] => return .group e
        | es =>
          if ← acceptKeyword "in" then return .isIn es (← arrayName) else reject
      | .name s =>
        advance
        if ← accept "[" then
          let es ← list n
          expect "]"
          noteArray s
          return .element s es
        else if (← isSign "(") && (← get).functions.contains s then call n s
        else return .name s
      | .function s =>
        advance
        call n s
      | .standard f =>
        let line := (← get).line
        let word := (← get).token.shown
        advance
        if !(← isSign "(") then
          if f == .length then return .standard f [] else reject
        let arguments ← inParentheses (arguments n)
        let (least, most) := argumentCounts f
        if arguments.length < least || most < arguments.length then throw (.wrongCount line word)
        if let (.split, _ :: .name array :: _) := (f, arguments) then noteArray array
        return .standard f (← withPatterns f arguments)
      | .keyword "getline" =>
        advance
        let target ← target? n
        if ← accept "<" then return .getLine .file (some (← counted n)) target
        else return .getLine .input none target
      | _ => reject
  call (n : Nat) (function : String) : ReadM Expr :=
    match n with
    | 0 => reject
    | n + 1 => do
      let arguments ← inParentheses (arguments n)
      let names := arguments.map fun
        | .name s => some s
        | _ => none
      modify fun s => { s with calls := ⟨s.inside, function, names⟩ :: s.calls }
      return .call function arguments
  arguments : Nat → ReadM (List Expr)
    | 0 => reject
    | n + 1 => do
      newlines
      if ← isSign ")" then return [] else list n
  /-- Expressions between commas. Nothing here is in a list that is printed. -/
  list : Nat → ReadM (List Expr)
    | 0 => reject
    | n + 1 => do
      let e ← expression false n
      if ← accept "," then
        newlines
        return e :: (← list n)
      else return [e]

/-- Expressions that are printed, maybe all between parentheses. -/
def printed (n : Nat) : ReadM (List Expr) := do
  let s ← get
  if endsList s.token then return []
  let whole : ReadM (List Expr) := do
    let es ← inParentheses (expression.arguments n)
    if endsList (← get).token then return es else reject
  match s.token with
  | .sign "(" => match whole.run s with
    | .ok (es, s) =>
      set s
      return es
    | .error _ => open_ n
  | _ => open_ n
where
  open_ : Nat → ReadM (List Expr)
    | 0 => reject
    | n + 1 => do
      let e ← expression true n
      if ← accept "," then
        newlines
        return e :: (← open_ n)
      else return [e]

def printTarget (n : Nat) : ReadM Target := do
  match ← signOf? [(">", Target.file), (">>", .append), ("|", .pipe)] with
  | some make => return make (← expression false n)
  | none => return .output

/-- What ends a statement: a semicolon or a newline, with the newlines behind it, or what ends the
block. -/
def statementEnd : ReadM Unit := do
  match (← get).token with
  | .newline => newlines
  | .sign ";" =>
    advance
    newlines
  | .sign "\x7d" | .stop => if 0 < (← get).parentheses then reject else return ()
  | _ => reject

/-- Whether a statement ends at the word ahead. -/
def atEnd : ReadM Bool := do
  match (← get).token with
  | .newline | .stop | .sign ";" | .sign "\x7d" => return true
  | _ => return false

def inLoop (body : ReadM Statement) : ReadM Statement := do
  modify fun s => { s with loops := s.loops + 1 }
  let s ← body
  modify fun s => { s with loops := s.loops - 1 }
  return s

/-- The name, the array and the end of the head of a loop over an array, if one is ahead. -/
def eachHead? : ReadM (Option (String × String)) := do
  let s ← get
  let head : ReadM (String × String) := do
    openParenthesis
    let k ← name
    if !(← acceptKeyword "in") then reject
    let array ← arrayName
    closeParenthesis
    return (k, array)
  match head.run s with
  | .ok (found, s) =>
    set s
    return some found
  | .error _ => return none

/-- A statement that is not made of others, up to its end. -/
def simpleStatement (n : Nat) : ReadM Statement := do
  match (← get).token with
  | .keyword "print" =>
    advance
    return .print (← printed n) (← printTarget n)
  | .keyword "printf" =>
    advance
    let es ← printed n
    if es.isEmpty then refuse "no arguments in call to printf"
    return .format es (← printTarget n)
  | .keyword "delete" =>
    advance
    let array ← arrayName
    if ← accept "[" then
      let es ← expression.list n
      expect "]"
      return .remove array (some es)
    else if ← accept "(" then
      let es ← expression.list n
      expect ")"
      return .remove array (some es)
    else return .remove array none
  | .keyword "break" =>
    if (← get).loops = 0 then refuse "break statement outside of loop"
    advance
    return .leave
  | .keyword "continue" =>
    if (← get).loops = 0 then refuse "continue statement outside of loop"
    advance
    return .again
  | .keyword "next" =>
    if (← get).place != .rule then refuse "improper use of next"
    advance
    return .next
  | .keyword "nextfile" =>
    if (← get).place != .rule then refuse "improper use of nextfile"
    advance
    return .nextInput
  | .keyword "exit" =>
    advance
    if ← atEnd then return .exit none else return .exit (some (← expression false n))
  | .keyword "return" =>
    if (← get).place != .function then refuse "return outside function body"
    advance
    if ← atEnd then return .answer none else return .answer (some (← expression false n))
  | _ => return .value (← expression false n)

/-- A statement with its end and the newlines behind it. The first argument bounds the nesting. -/
def statement : Nat → ReadM Statement
  | 0 => reject
  | n + 1 => do
    match (← get).token with
    | .sign "\x7b" => return .block (← block n)
    | .sign ";" =>
      advance
      newlines
      return .nothing
    | .keyword "if" =>
      advance
      let condition ← inParentheses (expression false n)
      newlines
      let yes ← statement n
      if ← acceptKeyword "else" then
        newlines
        return .choice condition yes (← statement n)
      else return .choice condition yes .nothing
    | .keyword "while" =>
      advance
      let condition ← inParentheses (expression false n)
      if ← accept ";" then
        newlines
        return .loop condition .nothing
      newlines
      return .loop condition (← inLoop (statement n))
    | .keyword "do" =>
      advance
      newlines
      let body ← inLoop (statement n)
      if !(← acceptKeyword "while") then reject
      let condition ← inParentheses (expression false n)
      statementEnd
      return .loopAfter body condition
    | .keyword "for" =>
      advance
      match ← eachHead? with
      | some (k, array) =>
        newlines
        return .each k array (← inLoop (statement n))
      | none =>
        openParenthesis
        let first ← if ← isSign ";" then pure .nothing else simpleStatement n
        expect ";"
        newlines
        let condition ← if ← isSign ";" then pure none else some <$> expression false n
        expect ";"
        newlines
        let step ← if ← isSign ")" then pure .nothing else simpleStatement n
        closeParenthesis
        if ← accept ";" then
          newlines
          return .count first condition step .nothing
        newlines
        return .count first condition step (← inLoop (statement n))
    | _ =>
      let s ← simpleStatement n
      statementEnd
      return s
where
  /-- Statements between braces, and the newlines behind them. -/
  block : Nat → ReadM (List Statement)
    | 0 => reject
    | n + 1 => do
      modify fun s => { s with braces := s.braces + 1 }
      expect "\x7b"
      newlines
      let body ← statements n
      if !(← isSign "\x7d") then reject
      modify fun s => { s with braces := s.braces - 1 }
      advance
      if (← get).braces = 0 then
        let _ ← accept ";"
      newlines
      return body
  statements : Nat → ReadM (List Statement)
    | 0 => reject
    | n + 1 => do
      match (← get).token with
      | .sign "\x7d" | .stop => return []
      | _ => return (← statement n) :: (← statements n)

/-- The body of a rule or a function. -/
def body (n : Nat) (place : Surroundings) : ReadM Statement := do
  modify fun s => { s with place }
  let body ← statement.block n
  modify fun s => { s with place := .edge }
  return .block body

def function (n : Nat) : ReadM Function := do
  let s ← get
  let f ← name
  if s.functions.contains f then refuse ("redefinition of " ++ f)
  modify fun s => { s with functions := f :: s.functions }
  let parameters ← inParentheses do
    if ← isSign ")" then return [] else parameterNames n []
  newlines
  modify fun s => { s with inside := f }
  let body ← body n .function
  modify fun s => { s with inside := "" }
  return { name := f, parameters, body }
where
  parameterNames : Nat → List String → ReadM (List String)
    | 0, _ => reject
    | n + 1, names => do
      let next ← name
      if names.contains next then refuse (next ++ " is duplicated in argument list")
      if ← accept "," then
        newlines
        parameterNames n (names ++ [next])
      else return names ++ [next]

/-- A rule that does not start with a word for the edges of the input. -/
def rule (n : Nat) : ReadM Rule := do
  if ← isSign "\x7b" then return ⟨.always, ← body n .rule⟩
  let first ← expression false n
  let condition ← if ← accept "," then
      newlines
      pure (.between first (← expression false n))
    else pure (.whenever first)
  if ← isSign "\x7b" then return ⟨condition, ← body n .rule⟩
  if ← isSign "\x7d" then reject
  statementEnd
  return ⟨condition, .print [] .output⟩

/-- All rules and functions, the newest first. -/
def script (n : Nat) : Nat → Script → ReadM Script
  | 0, _ => reject
  | k + 1, found => do
    newlines
    match (← get).token with
    | .stop => return found
    | .keyword "function" =>
      advance
      let f ← function n
      script n k { found with functions := f :: found.functions }
    | .keyword "BEGIN" =>
      advance
      let body ← body n .edge
      script n k { found with rules := ⟨.start, body⟩ :: found.rules }
    | .keyword "END" =>
      advance
      let body ← body n .edge
      script n k { found with rules := ⟨.finish, body⟩ :: found.rules }
    | _ =>
      let r ← rule n
      script n k { found with rules := r :: found.rules }

end Reading

/-- Finds the parameters that are arrays because they are passed on as such. The second argument
bounds how far they are passed on. -/
def Script.withArrays (calls : List Reading.Pass) : Nat → List Function → List Function
  | 0, functions => functions
  | n + 1, functions =>
    let isArray (pass : Reading.Pass) (p : String) : Bool :=
      match functions.find? (·.name == pass.callee) with
      | some f => (f.parameters.zip pass.arguments).any fun (own, given) =>
        f.arrays.contains own && given == some p
      | none => false
    withArrays calls n (functions.map fun f =>
      { f with arrays := f.parameters.filter fun p =>
          f.arrays.contains p || calls.any fun pass => pass.caller == f.name && isArray pass p })

/-- Reads rules and functions. Every function that is called has to be there. -/
def Script.read (text : String) : Except Fault Script := do
  let cs := text.toList
  let cs := if cs.getLast? == some '\n' then cs else cs ++ ['\n']
  let nesting := 32 * (cs.length + 4)
  let body : ReadM Script := do
    Reading.advance
    Reading.script nesting nesting {}
  let (found, s) ← body.run { rest := cs, line := 0 }
  if let some pass := s.calls.find? fun pass => !found.functions.any (·.name == pass.callee) then
    throw (.undefined s.line pass.callee)
  let rounds := Number.total (found.functions.map fun f => f.parameters.length) + 1
  return {
    rules := found.rules.reverse
    functions := Script.withArrays s.calls rounds
      (found.functions.map fun f =>
        { f with arrays := f.parameters.filter fun p => s.arrays.contains (f.name, p) }) }

end TestSynth.Programs.Records
