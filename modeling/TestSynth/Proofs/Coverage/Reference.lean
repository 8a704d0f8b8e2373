import Mathlib
import TestSynth.Coverage.Aggregate
import TestSynth.Proofs.OrderedMap
/-!
What a snapshot of observations should say, told from the observations alone: which lines and
functions they know, the highest count of each, and the best summary of a file that is known by
summaries only. Tallies say the same.
-/
namespace TestSynth.Coverage

variable {ι ρ : Type}

namespace Fact

def line? : Fact → Option (Nat × UInt64 × Option String)
  | .line number hits code => some (number, hits, code)
  | _ => none

def function? : Fact → Option (String × UInt64)
  | .function name calls => some (name, calls)
  | _ => none

def lineSummary? : Fact → Option Ratio
  | .lineSummary covered total => some (covered, total)
  | _ => none

def functionSummary? : Fact → Option Ratio
  | .functionSummary covered total => some (covered, total)
  | _ => none

end Fact

/-- What observations say, in their order, about one item of a file. -/
def recordsAt [DecidableEq ι] (kind : Fact → Option (ι × ρ)) (found : List Observation)
    (file : String) (item : ι) : List ρ :=
  found.filterMap fun o =>
    if o.file = file then ((kind o.fact).filter (·.1 = item)).map (·.2) else none

/-- The items that observations know, each once, by file and item. -/
def itemsOf [LinearOrder ι] (kind : Fact → Option (ι × ρ)) (found : List Observation) :
    List (String ×ₗ ι) :=
  (found.filterMap fun o => (kind o.fact).map fun r => toLex (o.file, r.1)).toFinset.sort

/-- The summaries of a file in the order of the observations. -/
def summariesOf (kind : Fact → Option Ratio) (found : List Observation) (file : String) :
    List Ratio :=
  found.filterMap fun o => if o.file = file then kind o.fact else none

/-- The summary of a file with most covered, and of such ones the first. -/
def bestSummary (kind : Fact → Option Ratio) (found : List Observation) (file : String) : Ratio :=
  ((summariesOf kind found file).argmax (·.1.toNat)).getD default

/-- The files with a summary and without any item. -/
def filesInSummary [LinearOrder ι] (items : Fact → Option (ι × ρ))
    (kind : Fact → Option Ratio) (found : List Observation) : Finset String :=
  {file ∈ ((found.filter fun o => (kind o.fact).isSome).map (·.file)).toFinset |
    ∀ k ∈ itemsOf items found, (ofLex k).1 ≠ file}

/-- The highest count of a line. -/
def hitsAt (found : List Observation) (k : String ×ₗ Nat) : UInt64 :=
  ((recordsAt Fact.line? found (ofLex k).1 (ofLex k).2).map (·.1)).foldl max 0

/-- The first code text seen for a line. -/
def codeAt (found : List Observation) (k : String ×ₗ Nat) : Option String :=
  (recordsAt Fact.line? found (ofLex k).1 (ofLex k).2).findSome? (·.2)

/-- The highest number of calls of a function. -/
def callsAt (found : List Observation) (k : String ×ₗ String) : UInt64 :=
  (recordsAt Fact.function? found (ofLex k).1 (ofLex k).2).foldl max 0

/-- The four counters of a snapshot, however large they are. -/
structure Counters where
  linesCovered : Nat
  linesTotal : Nat
  functionsCovered : Nat
  functionsTotal : Nat
deriving DecidableEq, Repr

/-- Every counter fits into a word. -/
structure Counters.Fit (c : Counters) : Prop where
  linesCovered : c.linesCovered < UInt64.size
  linesTotal : c.linesTotal < UInt64.size
  functionsCovered : c.functionsCovered < UInt64.size
  functionsTotal : c.functionsTotal < UInt64.size

instance (c : Counters) : Decidable c.Fit :=
  decidable_of_iff (c.linesCovered < UInt64.size ∧ c.linesTotal < UInt64.size ∧
      c.functionsCovered < UInt64.size ∧ c.functionsTotal < UInt64.size)
    ⟨fun ⟨h₁, h₂, h₃, h₄⟩ => ⟨h₁, h₂, h₃, h₄⟩, fun ⟨h₁, h₂, h₃, h₄⟩ => ⟨h₁, h₂, h₃, h₄⟩⟩

def countersOf (found : List Observation) : Counters where
  linesCovered := ((itemsOf Fact.line? found).filter (0 < hitsAt found ·)).length +
    ∑ file ∈ filesInSummary Fact.line? Fact.lineSummary? found,
      (bestSummary Fact.lineSummary? found file).1.toNat
  linesTotal := (itemsOf Fact.line? found).length +
    ∑ file ∈ filesInSummary Fact.line? Fact.lineSummary? found,
      (bestSummary Fact.lineSummary? found file).2.toNat
  functionsCovered := ((itemsOf Fact.function? found).filter (0 < callsAt found ·)).length +
    ∑ file ∈ filesInSummary Fact.function? Fact.functionSummary? found,
      (bestSummary Fact.functionSummary? found file).1.toNat
  functionsTotal := (itemsOf Fact.function? found).length +
    ∑ file ∈ filesInSummary Fact.function? Fact.functionSummary? found,
      (bestSummary Fact.functionSummary? found file).2.toNat

/-- The snapshot that observations should have. -/
def snapshotOf (sample : Nat) (found : List Observation) : Snapshot :=
  Snapshot.recomputed
    { linesCovered := (countersOf found).linesCovered.toUInt64
      linesTotal := (countersOf found).linesTotal.toUInt64
      functionsCovered := (countersOf found).functionsCovered.toUInt64
      functionsTotal := (countersOf found).functionsTotal.toUInt64
      uncoveredLines := (((itemsOf Fact.line? found).filter (hitsAt found · = 0)).map fun k =>
        ⟨(ofLex k).1, (ofLex k).2, (codeAt found k).getD ""⟩).take sample
      uncoveredFunctions := (((itemsOf Fact.function? found).filter (callsAt found · = 0)).map
        fun k => (ofLex k).2).take sample }

end TestSynth.Coverage
