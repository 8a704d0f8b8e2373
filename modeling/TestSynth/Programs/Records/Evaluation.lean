import TestSynth.Programs.Records.Format
import TestSynth.Programs.Records.Streams
/-!
Carrying out rules.
-/
namespace TestSynth.Programs.Records

open Process Number

/-- Expressions and statements inside each other at most. -/
def nestingLimit : Nat := 100000

/-- Rounds of a loop at most. -/
def roundLimit : Nat := 10000000

/-- The number whose bits a machine number has. -/
def ofMachine (x : Float) : Binary64 :=
  let bits := x.toBits.toNat
  let negative := 1 <<< 63 ≤ bits
  let exponent := bits / 1 <<< 52 % 1 <<< 11
  let fraction := bits % 1 <<< 52
  if exponent = 2047 then if fraction = 0 then .infinite negative else .undefined
  else if exponent = 0 then .finite negative fraction 0
  else .finite negative (1 <<< 52 + fraction) (exponent - 1)

def toMachine (x : Binary64) : Float := Float.ofBits x.bits.toUInt64

/-- What is left after taking a number as often as it fits; the sign is that of the first. -/
def remainder (a b : Binary64) : Binary64 :=
  match a, b with
  | .finite n m e, .finite _ m' e' =>
    let divisor := m' <<< e'
    if divisor = 0 then .undefined
    else
      let rest := m <<< e % divisor
      if rest = 0 then .finite n 0 0 else .ofUnits n rest 1
  | .finite n m e, .infinite _ => .finite n m e
  | _, _ => .undefined

/-- A power with a small whole exponent is multiplied out. -/
def compute (o : Operator) (a b : Binary64) : Binary64 :=
  match o with
  | .add => a.add b
  | .subtract => a.sub b
  | .multiply => a.mul b
  | .divide => a.div b
  | .remainder => remainder a b
  | .power => ofMachine (Float.pow (toMachine a) (toMachine b))

def holds (c : Comparison) (o : Option Ordering) : Bool :=
  match c, o with
  | .different, o => o != some .eq
  | _, none => false
  | .less, some o => o == .lt
  | .atMost, some o => o != .gt
  | .equal, some o => o == .eq
  | .atLeast, some o => o != .lt
  | .greater, some o => o == .gt

/-- Where a value can be stored. -/
inductive Spot where
  | variable (name : String)
  | field (index : Nat)
  | element (table : Nat) (key : Key)

def getSpot : Spot → RecordM Value
  | .variable name => getVariable name
  | .field index => getField index
  | .element table key => do return (← getTable table).get key

def setSpot (s : Spot) (v : Value) : RecordM Unit :=
  match s with
  | .variable name => setVariable name v
  | .field index => setField index v
  | .element table key => changeTable table fun t => t.set key v

def fieldIndex (v : Value) : RecordM Nat := do
  match v.toNumber.truncate? with
  | some n =>
    if n < 0 then failRunning ("negative field index $" ++ toString n)
    return n.toNat
  | none => failRunning ("negative field index $" ++ v.toText "%.6g")

/-- The key that values between brackets are. -/
def keyOf (values : List Value) : RecordM Key := do
  match values with
  | [v] => return Key.ofValue (formOf (← get) "CONVFMT") v
  | vs =>
    let texts ← vs.mapM textOf
    return .text (String.intercalate (← globalText "SUBSEP") texts)

/-- What a replacement puts in the place of a match: `&` stands for the match unless a backslash is
before it. -/
def replacement (found : List Char) : List Char → List Char
  | [] => []
  | '\\' :: c :: rest =>
    if c == '&' || c == '\\' then c :: replacement found rest
    else '\\' :: replacement found (c :: rest)
  | c :: rest => if c == '&' then found ++ replacement found rest else c :: replacement found rest

/-- Replaces the first match or all matches, and counts them. -/
def substitute (isGlobal : Bool) (s : Regex.Searcher) (new : List Char) (cs : List Char) :
    Nat × List Char :=
  let found := if isGlobal then s.all cs else (s.find? cs).toList
  let (output, offset) := found.foldl (fun (acc : List (List Char) × Nat) m =>
    let matched := (cs.drop m.start).take (m.stop - m.start)
    let kept := (cs.drop acc.2).take (m.start - acc.2)
    (replacement matched new :: kept :: acc.1, m.stop)) ([], 0)
  (found.length, (cs.drop offset :: output).reverse.flatten)

/-- The part of a text from a place on, counted from one, with so many characters. -/
def part (cs : List Char) (start : Binary64) (length : Option Binary64) : List Char :=
  let whole (x : Binary64) : Int := match x with
    | .undefined => -0x4000000000000000
    | .infinite negative => if negative then -0x4000000000000000 else 0x4000000000000000
    | x => (x.truncate?).getD 0
  let begin_ := whole start
  let rest := cs.drop (begin_ - 1).toNat
  match length with
  | none => rest
  | some n =>
    let count := if begin_ ≤ 0 then whole n - begin_ else whole n
    rest.take (min count rest.length).toNat

/-- The place of a text in another one, counted from one; zero if it is not there. -/
def placeOf (wanted : List Char) : Nat → List Char → Nat
  | n, [] => if wanted.isEmpty then n else 0
  | n, c :: rest => if wanted.isPrefixOf (c :: rest) then n else placeOf wanted (n + 1) rest

/-- Repeats a step as long as it says so; the first argument bounds the rounds. -/
def repeatWhile (step : RecordM Bool) : Nat → RecordM Unit
  | 0 => ofTool (throw .endless)
  | n + 1 => do if ← step then repeatWhile step n

/-- Runs the body of a loop; whether the loop goes on. -/
def runBody (body : RecordM Unit) : RecordM Bool := do
  try
    body
    return true
  catch
    | .leave => return false
    | .again => return true
    | other => throw other

/-- The value of an expression. The first argument bounds the nesting. -/
def evaluate (launch : Launcher) : Nat → Expr → RecordM Value
  | 0, _ => ofTool (throw .endless)
  | n + 1, e => do
    match e with
    | .number x => return .number x
    | .text s => return .text s
    | .pattern p => return .ofBool (p.finds (← get).record.toList)
    | .group a => evaluate launch n a
    | .name _ | .field _ | .element .. => getSpot (← spotOf n e)
    | .isIn index array =>
      let key ← keyOf (← index.mapM (evaluate launch n))
      let table ← tableOf array
      changeTable table fun t => t.use key false
      return .ofBool ((← getTable table).contains key)
    | .assign target value =>
      let spot ← spotOf n target
      let v ← evaluate launch n value
      setSpot spot v
      getSpot spot
    | .change target o value =>
      let spot ← spotOf n target
      let v ← evaluate launch n value
      let new := Value.number (compute o (← getSpot spot).toNumber v.toNumber)
      setSpot spot new
      return new
    | .count target isUp givesNew =>
      let spot ← spotOf n target
      let old := (← getSpot spot).toNumber
      let one := Binary64.ofNat 1
      let new := if isUp then old.add one else old.sub one
      setSpot spot (.number new)
      return .number (if givesNew then new else old)
    | .choice condition yes no =>
      if (← evaluate launch n condition).isTrue then evaluate launch n yes else evaluate launch n no
    | .both a b =>
      if (← evaluate launch n a).isTrue then return .ofBool (← evaluate launch n b).isTrue
      else return .ofBool false
    | .either a b =>
      if (← evaluate launch n a).isTrue then return .ofBool true
      else return .ofBool (← evaluate launch n b).isTrue
    | .not a => return .ofBool (!(← evaluate launch n a).isTrue)
    | .negative a => return .number (← evaluate launch n a).toNumber.negate
    | .positive a => return .number (← evaluate launch n a).toNumber
    | .compute o a b =>
      let x ← evaluate launch n a
      let y ← evaluate launch n b
      return .number (compute o x.toNumber y.toNumber)
    | .compare c a b =>
      let x ← evaluate launch n a
      let y ← evaluate launch n b
      return .ofBool (holds c (Value.compare (formOf (← get) "CONVFMT") x y))
    | .matching isNegated a b =>
      let text ← textOf (← evaluate launch n a)
      let p ← searcher n b
      return .ofBool (p.finds text.toList != isNegated)
    | .join a b =>
      let x ← textOf (← evaluate launch n a)
      let y ← textOf (← evaluate launch n b)
      return .text (x ++ y)
    | .call name arguments =>
      match (← get).script.functions.find? (·.name == name) with
      | none => return .none
      | some f =>
        let frame ← bind n f f.parameters arguments
        let outer := (← get).frame
        modify fun s => { s with frame }
        let result ← try
            execute n f.body
            pure Value.none
          catch
            | .answer v => pure v
            | other => throw other
        modify fun s => { s with frame := outer }
        return result
    | .standard f arguments => callStandard n f arguments
    | .getLine kind source target => getLine n kind source target
where
  /-- The place that an expression names. -/
  spotOf : Nat → Expr → RecordM Spot
    | 0, _ => ofTool (throw .endless)
    | n + 1, e => do
      match e with
      | .name s => return .variable s
      | .field index => return .field (← fieldIndex (← evaluate launch n index))
      | .element array index =>
        let key ← keyOf (← index.mapM (evaluate launch n))
        let table ← tableOf array
        changeTable table fun t => t.use key true
        return .element table key
      | _ => return .field 0
  /-- What an operand searches for. -/
  searcher : Nat → Expr → RecordM Regex.Searcher
    | 0, _ => ofTool (throw .endless)
    | n + 1, e => do
      match e with
      | .pattern p => return p
      | e => searcherOf (← textOf (← evaluate launch n e))
  /-- What the parameters of a function stand for in a call. -/
  bind : Nat → Function → List String → List Expr → RecordM (List (String × Binding))
    | 0, _, _, _ => ofTool (throw .endless)
    | _, _, [], _ => return []
    | n + 1, f, p :: ps, arguments => do
      let binding ← if f.arrays.contains p then
          match arguments.head? with
          | some (.name s) => pure (Binding.table (← tableOf s))
          | _ => pure (.table (← newTable))
        else match arguments.head? with
          | some e => pure (.value (← evaluate launch n e))
          | none => pure (.value .none)
      return (p, binding) :: (← bind n f ps (arguments.drop 1))
  getLine : Nat → SourceKind → Option Expr → Option Expr → RecordM Value
    | 0, _, _, _ => ofTool (throw .endless)
    | n + 1, kind, source, target => do
      let spot ← match target with
        | some e => some <$> spotOf n e
        | none => pure none
      let result : Except Unit (Option String) ← match kind, source with
        | .command, some e => readFrom launch true (← textOf (← evaluate launch n e))
        | .file, some e => readFrom launch false (← textOf (← evaluate launch n e))
        | _, _ => pure (.ok (← readRecord))
      match result with
      | .error () => return .number (Binary64.ofInt (-1))
      | .ok none => return .ofBool false
      | .ok (some text) =>
        match spot with
        | some spot => setSpot spot (.ofInput text)
        | none => setRecord text
        return .ofBool true
  callStandard : Nat → Standard → List Expr → RecordM Value
    | 0, _, _ => ofTool (throw .endless)
    | n + 1, f, arguments => do
      let value (index : Nat) : RecordM Value := do
        match arguments[index]? with
        | some e => evaluate launch n e
        | none => return .none
      let text (index : Nat) : RecordM String := do textOf (← value index)
      let number (index : Nat) : RecordM Binary64 := do return (← value index).toNumber
      let machine (g : Float → Float) : RecordM Value := do
        return .number (ofMachine (g (toMachine (← number 0))))
      match f with
      | .atan2 =>
        let y ← number 0
        let x ← number 1
        return .number (ofMachine (Float.atan2 (toMachine y) (toMachine x)))
      | .cos => machine Float.cos
      | .exp => machine Float.exp
      | .log => machine Float.log
      | .sin => machine Float.sin
      | .sqrt => machine Float.sqrt
      | .int =>
        match ← number 0 with
        | .finite negative m e =>
          return .number (.ofUnits negative (m <<< e / Binary64.unitsPerOne * Binary64.unitsPerOne) 1)
        | x => return .number x
      | .random => return .number (Binary64.ofUnits false Binary64.unitsPerOne 2)
      | .seed =>
        let old ← getVariable seedName
        let new ← if arguments.isEmpty then pure (Value.ofNat 0) else value 0
        modify fun s => { s with bindings := s.bindings.insert seedName new }
        return match old with
          | .none => .ofNat 0
          | old => old
      | .close => return .number (Binary64.ofInt (← close launch (← text 0)))
      | .system =>
        let command ← text 0
        flushAll
        return .ofNat (statusOf (← runCommand launch command id "sh"))
      | .flush =>
        if arguments.isEmpty then
          flushAll
          return .ofNat 0
        let name ← text 0
        if (← get).sinks.any (·.name == name) then
          flushAll
          return .ofNat 0
        else return .number (Binary64.ofInt (-1))
      | .lower => return .text ((← text 0).map Char.toLower)
      | .upper => return .text ((← text 0).map Char.toUpper)
      | .length =>
        match arguments with
        | [] => return .ofNat (← get).record.length
        | [.name s] =>
          if ← isArray s then return .ofNat (← getTable (← tableOf s)).size
          else return .ofNat (← text 0).length
        | _ => return .ofNat (← text 0).length
      | .index =>
        let cs := (← text 0).toList
        return .ofNat (placeOf (← text 1).toList 1 cs)
      | .substr =>
        let cs := (← text 0).toList
        let start ← number 1
        let length ← if arguments.length < 3 then pure none else some <$> number 2
        return .text (String.ofList (part cs start length))
      | .search =>
        let cs := (← text 0).toList
        let p ← match arguments[1]? with
          | some e => searcher n e
          | none => searcherOf ""
        let (start, length) : Nat × Int := match p.find? cs with
          | some m => (m.start + 1, (m.stop - m.start : Nat))
          | none => (0, -1)
        setVariable "RSTART" (.ofNat start)
        setVariable "RLENGTH" (.number (Binary64.ofInt length))
        return .ofNat start
      | .split =>
        let source ← text 0
        let separator : Separator ← match arguments[2]? with
          | some (Expr.pattern p) => pure (Separator.pattern p)
          | some e => separatorOf (← textOf (← evaluate launch n e))
          | none => separatorOf (← globalText "FS")
        let parts := separator.cut source
        if let some (Expr.name array) := arguments[1]? then
          let table ← tableOf array
          changeTable table fun _ => Table.ofValues (parts.map Value.ofInput)
        return .ofNat parts.length
      | .sub | .gsub =>
        let p ← match arguments.head? with
          | some e => searcher n e
          | none => searcherOf ""
        let new ← text 1
        let spot ← match arguments[2]? with
          | some e => spotOf n e
          | none => pure (Spot.field 0)
        let old ← textOf (← getSpot spot)
        let (count, result) := substitute (f == .gsub) p new.toList old.toList
        if 0 < count then setSpot spot (.text (String.ofList result))
        return .ofNat count
      | .sprintf =>
        let format ← text 0
        let values ← (arguments.drop 1).mapM (evaluate launch n)
        let (result, fault) := formatValues (formOf (← get) "CONVFMT") format values
        if let some fault := fault then failRunning (fault.message "sprintf" format)
        return .text (String.ofList result)
  seedName : String := "the seed"
  /-- Writes a text to a target. -/
  send : Nat → Target → List Char → RecordM Unit
    | 0, _, _ => ofTool (throw .endless)
    | n + 1, target, text => do
      match target with
      | .output => writeOut text
      | .file name => writeTo .replacing (← textOf (← evaluate launch n name)) text
      | .append name => writeTo .appending (← textOf (← evaluate launch n name)) text
      | .pipe command => writeTo .toCommand (← textOf (← evaluate launch n command)) text
  /-- Carries out a statement. -/
  execute : Nat → Statement → RecordM Unit
    | 0, _ => ofTool (throw .endless)
    | n + 1, s => do
      match s with
      | .nothing => return ()
      | .value e =>
        let _ ← evaluate launch n e
      | .block body => body.forM (execute n)
      | .print values target =>
        let form := formOf (← get) "OFMT"
        let texts ← if values.isEmpty then pure [(← get).record]
          else values.mapM fun e => do
            return (← evaluate launch n e).toText form
        let line := String.intercalate (← globalText "OFS") texts ++ (← globalText "ORS")
        send n target line.toList
      | .format values target =>
        let all ← values.mapM (evaluate launch n)
        let format ← textOf (all.headD .none)
        let (text, fault) := formatValues (formOf (← get) "CONVFMT") format (all.drop 1)
        send n target text
        if let some fault := fault then failRunning (fault.message "printf" format)
      | .choice condition yes no =>
        if (← evaluate launch n condition).isTrue then execute n yes else execute n no
      | .loop condition body =>
        repeatWhile (do
          if !(← evaluate launch n condition).isTrue then return false
          runBody (execute n body)) roundLimit
      | .loopAfter body condition =>
        repeatWhile (do
          if !(← runBody (execute n body)) then return false
          return (← evaluate launch n condition).isTrue) roundLimit
      | .count first condition step body =>
        execute n first
        repeatWhile (do
          if let some e := condition then
            if !(← evaluate launch n e).isTrue then return false
          if !(← runBody (execute n body)) then return false
          execute n step
          return true) roundLimit
      | .each name array body =>
        let table ← tableOf array
        -- Going through the elements puts their keys into lists.
        changeTable table Table.addTexts
        eachKey name (execute n body) (← getTable table).keys
      | .leave => throw .leave
      | .again => throw .again
      | .next => throw .next
      | .nextInput => throw .nextInput
      | .exit status =>
        if let some e := status then
          let v ← evaluate launch n e
          modify fun s => { s with status := (((v.toNumber.truncate?).getD 0) % 256).toNat }
        throw .exit
      | .answer value =>
        match value with
        | some e => throw (.answer (← evaluate launch n e))
        | none => throw (.answer .none)
      | .remove array index =>
        let table ← tableOf array
        match index with
        | none => changeTable table fun _ => {}
        | some es =>
          let key ← keyOf (← es.mapM (evaluate launch n))
          changeTable table fun t => t.erase key
  eachKey (name : String) (body : RecordM Unit) : List String → RecordM Unit
    | [] => return ()
    | key :: keys => do
      setVariable name (.text key)
      if ← runBody body then eachKey name body keys

end TestSynth.Programs.Records
