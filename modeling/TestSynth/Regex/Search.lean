import TestSynth.Regex.Basic
import TestSynth.Text.Classes
/-!
Searching for expressions: the match that starts first, and of those the longest.
-/
namespace TestSynth.Regex

/-- An expression made ready for searching. -/
structure Searcher where
  steps : Array Step
  looksBack : Bool := false
  foldsCase : Bool := false
  /-- Whether lines inside the text have a start and an end. -/
  byLines : Bool := false
deriving Inhabited

def searcher (r : Regex) (foldsCase : Bool := false) (byLines : Bool := false) : Searcher :=
  { steps := r.program, looksBack := r.looksBack, foldsCase, byLines }

/-- A place in a text: the character before it, the text behind it, and its offset. -/
structure Place where
  before : Option Char
  behind : List Char
  offset : Nat

def Place.next (p : Place) : Place :=
  match p.behind with
  | [] => p
  | c :: rest => ⟨some c, rest, p.offset + 1⟩

/-- Whether a condition holds at a place; the text may go on before it. -/
def holdsAt (byLines : Bool) (startsLine : Bool) (p : Place) (a : Anchor) : Bool :=
  let wordBefore := p.before.any Text.isWord
  let wordBehind := p.behind.head?.any Text.isWord
  match a with
  | .textStart => p.offset == 0
  | .textEnd => p.behind.isEmpty
  | .lineStart => (p.offset == 0 && startsLine) || (byLines && p.before == some '\n')
  | .lineEnd => p.behind.isEmpty || (byLines && p.behind.head? == some '\n')
  | .wordStart => !wordBefore && wordBehind
  | .wordEnd => wordBefore && !wordBehind
  | .wordEdge => wordBefore != wordBehind
  | .noWordEdge => wordBefore == wordBehind
  | .noWordBefore => !wordBefore
  | .noWordBehind => !wordBehind

abbrev Slots := List (Nat × Nat)

/-- A way through the program that is being followed. -/
structure Thread where
  step : Nat
  slots : Slots

def moved (step : Nat) (distance : Int) : Nat := ((step : Int) + distance).toNat

/-- Follows the steps that take no character. Threads come in order of preference, backwards; no
step is entered twice. The first argument bounds the steps. -/
def Searcher.follow (s : Searcher) (startsLine : Bool) (p : Place) :
    Nat → Nat → Slots → Array Bool × List Thread → Array Bool × List Thread
  | 0, _, _, acc => acc
  | n + 1, step, slots, (seen, threads) =>
    if seen.getD step true then (seen, threads)
    else
      let seen := seen.set! step true
      match s.steps.getD step .done with
      | .accept _ | .same _ | .done => (seen, ⟨step, slots⟩ :: threads)
      | .jump distance => s.follow startsLine p n (moved step distance) slots (seen, threads)
      | .split first second =>
        s.follow startsLine p n (moved step second) slots
          (s.follow startsLine p n (moved step first) slots (seen, threads))
      | .save slot =>
        s.follow startsLine p n (step + 1) ((slot, p.offset) :: slots) (seen, threads)
      | .check a =>
        if holdsAt s.byLines startsLine p a then
          s.follow startsLine p n (step + 1) slots (seen, threads)
        else (seen, threads)

/-- The threads at a place, in order of preference. -/
def Searcher.enter (s : Searcher) (startsLine : Bool) (p : Place) (from_ : List Thread) : List Thread :=
  ((from_.foldl (fun acc t => s.follow startsLine p (s.steps.size + 1) t.step t.slots acc)
    (Array.replicate s.steps.size false, [])).2).reverse

/-- Follows all threads through a text and keeps the longest match. -/
def Searcher.runThreads (s : Searcher) (startsLine : Bool) (start : Nat) :
    Option Match → List Thread → Option Char → Nat → List Char → Option Match
  | best, threads, before, offset, behind =>
    if threads.isEmpty then best
    else
      let here := s.enter startsLine ⟨before, behind, offset⟩ threads
      let finished := here.find? fun t => match s.steps.getD t.step .done with
        | .done => true
        | _ => false
      let best := match finished with
        | some t => some ⟨start, offset, t.slots⟩
        | none => best
      match behind with
      | [] => best
      | c :: rest =>
        let onward := here.filterMap fun t => match s.steps.getD t.step .done with
          | .accept test => if fits s.foldsCase test c then some ⟨t.step + 1, t.slots⟩ else none
          | _ => none
        s.runThreads startsLine start best onward (some c) (offset + 1) rest
termination_by structural _ _ _ _ behind => behind

/-- Tries the ways through the program one after the other and keeps the longest match. The first
argument bounds the steps of one way. -/
def Searcher.tryWays (s : Searcher) (startsLine : Bool) (text : List Char) (start : Nat) :
    Nat → Nat → Place → Slots → Option Match → Option Match
  | 0, _, _, _, best => best
  | n + 1, step, p, slots, best =>
    match s.steps.getD step .done with
    | .done =>
      match best with
      | some b => if b.stop < p.offset then some ⟨start, p.offset, slots⟩ else best
      | none => some ⟨start, p.offset, slots⟩
    | .jump distance => s.tryWays startsLine text start n (moved step distance) p slots best
    | .split first second =>
      let best := s.tryWays startsLine text start n (moved step first) p slots best
      s.tryWays startsLine text start n (moved step second) p slots best
    | .save slot => s.tryWays startsLine text start n (step + 1) p ((slot, p.offset) :: slots) best
    | .check a =>
      if holdsAt s.byLines startsLine p a then s.tryWays startsLine text start n (step + 1) p slots best
      else best
    | .accept test => match p.behind with
      | c :: _ =>
        if fits s.foldsCase test c then s.tryWays startsLine text start n (step + 1) p.next slots best
        else best
      | [] => best
    | .same index => match (Match.mk 0 0 slots).group? index with
      | none => best
      | some (first, last) =>
        let wanted := (text.drop first).take (last - first)
        if wanted.isPrefixOf p.behind then
          let place : Place := ⟨wanted.getLast?.or p.before, p.behind.drop wanted.length,
            p.offset + wanted.length⟩
          s.tryWays startsLine text start n (step + 1) place slots best
        else best

/-- The longest match that starts at a place of a text. -/
def Searcher.matchAt? (s : Searcher) (startsLine : Bool) (text : List Char) (p : Place) : Option Match :=
  if s.looksBack then
    s.tryWays startsLine text p.offset (4 * (text.length + s.steps.size) + 64) 0 p [] none
  else s.runThreads startsLine p.offset none [⟨0, []⟩] p.before p.offset p.behind

/-- The first match from a place on. -/
def Searcher.searchFrom? (s : Searcher) (startsLine : Bool) (text : List Char) :
    Option Char → Nat → List Char → Option Match
  | before, offset, behind =>
    match s.matchAt? startsLine text ⟨before, behind, offset⟩, behind with
    | some m, _ => some m
    | none, [] => none
    | none, c :: rest => s.searchFrom? startsLine text (some c) (offset + 1) rest
termination_by structural _ _ behind => behind

/-- The first match in a text, from an offset on. -/
def Searcher.find? (s : Searcher) (text : List Char) (offset : Nat := 0) (startsLine : Bool := true) :
    Option Match :=
  let before := if offset = 0 then none else text[offset - 1]?
  s.searchFrom? startsLine text before offset (text.drop offset)

def Searcher.finds (s : Searcher) (text : List Char) : Bool := (s.find? text).isSome

/-- All matches one behind the other. A match of nothing right behind another match does not
count. The first argument bounds their number. -/
def Searcher.allFrom (s : Searcher) (text : List Char) : Nat → Nat → Option Nat → List Match
  | 0, _, _ => []
  | n + 1, offset, lastStop =>
    if text.length < offset then []
    else match s.find? text offset with
      | none => []
      | some m =>
        if m.start == m.stop then
          if some m.start == lastStop then s.allFrom text n (offset + 1) none
          else m :: s.allFrom text n (m.stop + 1) (some m.stop)
        else m :: s.allFrom text n m.stop (some m.stop)

def Searcher.all (s : Searcher) (text : List Char) : List Match :=
  s.allFrom text (text.length + 2) 0 none

end TestSynth.Regex
