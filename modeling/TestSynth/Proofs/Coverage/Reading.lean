import Mathlib
import TestSynth.Coverage.Aggregate
/-!
What each line of a report tells, from the line and the lines before it: a summary and a listing
are about the file named last, a trace about the file of the record that is open. Reading line by
line with a state finds the same.
-/
namespace TestSynth.Coverage

open Text (trim lines)

section
variable {σ α : Type} {line : List Char} {rest text : List (List Char)}

/-- What the lines of a text tell, each with those before it. -/
def eachLine (tell : List (List Char) → List Char → List α) (text : List (List Char)) : List α :=
  (text.mapIdx fun i line => tell (text.take i) line).flatten

theorem eachLine_cons (tell : List (List Char) → List Char → List α) :
    eachLine tell (line :: rest) =
      tell [] line ++ eachLine (fun before => tell (line :: before)) rest := by
  simp [eachLine, List.mapIdx_cons]

/-- A state that goes from line to line is what the lines before have left. -/
theorem eq_eachLine {read : σ → List (List Char) → List α} {next : σ → List Char → σ}
    {tell : σ → List Char → List α} (hnil : ∀ s, read s [] = [])
    (hcons : ∀ s line rest, read s (line :: rest) = tell s line ++ read (next s line) rest)
    (s : σ) (text : List (List Char)) :
    read s text = eachLine (fun before => tell (before.foldl next s)) text := by
  induction text generalizing s with
  | nil => exact hnil s
  | cons line rest ih =>
    rw [hcons, ih, eachLine_cons]
    rfl

/-- What was set last stays. -/
theorem foldl_getD (f : List Char → Option σ) (s : σ) (before : List (List Char)) :
    before.foldl (fun s line => (f line).getD s) s = ((before.filterMap f).getLast?).getD s := by
  induction before using List.reverseRecOn with
  | nil => rfl
  | append_singleton before line ih =>
    rw [List.foldl_append, ih, List.filterMap_append]
    cases hf : f line <;> simp [hf]

end

section Summary

/-- What a line of a summary does to the file that is named: it names one, or uses the name up. -/
def naming? (line : List Char) : Option (Option String) :=
  match summaryFile? (trim line) with
  | some file => some (some file)
  | none => (summaryNumbers? (trim line)).map fun _ => none

/-- The file that is named after some lines of a summary. -/
def namedFile? (before : List (List Char)) : Option String :=
  ((before.filterMap naming?).getLast?).getD none

/-- What a line of a summary tells if that file is named. -/
def summaryTells (named : Option String) (line : List Char) : List Observation :=
  match summaryFile? (trim line), summaryNumbers? (trim line), named with
  | none, some (percent, total), some file => ((summaryFact? percent total).map (⟨file, ·⟩)).toList
  | _, _, _ => []

theorem summaryObservations_cons (named : Option String) (line : List Char)
    (rest : List (List Char)) : summaryObservations named (line :: rest) =
      summaryTells named line ++ summaryObservations ((naming? line).getD named) rest := by
  rw [summaryObservations.eq_def]
  dsimp only [summaryTells, naming?]
  rcases summaryFile? (trim line) with _ | file
  · rcases summaryNumbers? (trim line) with _ | ⟨percent, total⟩ <;> cases named <;> rfl
  · rfl

theorem summaryObservations_eq (text : List (List Char)) : summaryObservations none text =
    eachLine (fun before line => summaryTells (namedFile? before) line) text := by
  rw [eq_eachLine (fun _ => rfl) summaryObservations_cons]
  simp only [foldl_getD, namedFile?]

end Summary

section Listing

/-- The file that a line of a listing says it is about. -/
def sourceFile? (line : List Char) : Option String :=
  match functionFact? line, listingFields? line with
  | none, some (_, 0, code) => (afterWord? "Source:" code).map fun path => String.ofList (trim path)
  | _, _ => none

/-- The file that a listing is about after some lines. -/
def listedFile (name : String) (before : List (List Char)) : String :=
  ((before.filterMap sourceFile?).getLast?).getD name

/-- What a line of a listing tells. -/
def listedFact? (line : List Char) : Option Fact :=
  match functionFact? line, listingFields? line with
  | some fact, _ => some fact
  | none, some (count, number + 1, code) =>
    if count = ['-'] then none
    else (listedHits? count).map fun hits =>
      .line (number + 1) hits (some (String.ofList (trim code)))
  | _, _ => none

theorem listingObservations_cons (file : String) (line : List Char) (rest : List (List Char)) :
    listingObservations file (line :: rest) = ((listedFact? line).map (⟨file, ·⟩)).toList ++
      listingObservations ((sourceFile? line).getD file) rest := by
  rw [listingObservations.eq_def]
  dsimp only [listedFact?, sourceFile?]
  rcases functionFact? line with _ | fact
  · rcases listingFields? line with _ | ⟨count, _ | number, code⟩
    · rfl
    · cases hpath : afterWord? "Source:" code <;> simp [hpath]
    · simp
  · rfl

theorem listingObservations_eq (name : String) (text : List (List Char)) :
    listingObservations name text = eachLine (fun before line =>
      ((listedFact? line).map (⟨listedFile name before, ·⟩)).toList) text := by
  rw [eq_eachLine (fun _ => rfl) listingObservations_cons]
  simp only [foldl_getD, listedFile]

end Listing

section Trace

/-- The tag of a line of a trace, and what follows it. -/
def tagged (line : List Char) : String × List Char :=
  let (tag, value) := (cutAtChar ':' (trim line)).getD (trim line, [])
  (String.ofList tag, value)

/-- The record that is open after some lines of a trace: the file that its first line names, and
the lines since, the last one first. -/
def openRecord? (before : List (List Char)) : Option (String × List (List Char)) :=
  let record := before.reverse.takeWhile fun line => (tagged line).1 != "SF"
  if record.any fun line => (tagged line).1 == "end_of_record" then none
  else (before.reverse.drop record.length).head?.map fun first =>
    (String.ofList (tagged first).2, record)

/-- What a record last said of a counter. -/
def lastCounter (tag : String) (record : List (List Char)) : UInt64 :=
  ((record.find? fun line => (tagged line).1 == tag).map fun line =>
    counter (tagged line).2).getD 0

def tellsLine (record : List (List Char)) : Bool :=
  record.any fun line => (tagged line).1 == "DA" && (traceLine? (tagged line).2).isSome

def tellsFunction (record : List (List Char)) : Bool :=
  record.any fun line => (tagged line).1 == "FNDA" && (traceFunction? (tagged line).2).isSome

/-- What the end of a record tells: its totals, of what the record did not tell one by one. -/
def recordSummaries (record : List (List Char)) : List Fact :=
  (if !tellsLine record && 0 < lastCounter "LF" record then
    [.lineSummary (lastCounter "LH" record) (lastCounter "LF" record)] else []) ++
  (if !tellsFunction record && 0 < lastCounter "FNF" record then
    [.functionSummary (lastCounter "FNH" record) (lastCounter "FNF" record)] else [])

/-- What a line tells of the record that it is in. -/
def recordFacts (record : List (List Char)) : String × List Char → List Fact
  | ("DA", value) => (traceLine? value).toList
  | ("FNDA", value) => (traceFunction? value).toList
  | ("end_of_record", _) => recordSummaries record
  | _ => []

/-- What a line of a trace tells if that record is open. -/
def traceTells (opened : Option (String × List (List Char))) (line : List Char) :
    List Observation :=
  match opened with
  | some (file, record) => (recordFacts record (tagged line)).map (⟨file, ·⟩)
  | none => []

/-- The state that an open record leaves behind. -/
def recordState (file : String) (record : List (List Char)) : TraceState where
  file := some file
  sawLine := tellsLine record
  sawFunction := tellsFunction record
  linesCovered := lastCounter "LH" record
  linesTotal := lastCounter "LF" record
  functionsCovered := lastCounter "FNH" record
  functionsTotal := lastCounter "FNF" record

/-- A state knows the record that is open. Without one it may have counters left over. -/
def Knows (s : TraceState) : Option (String × List (List Char)) → Prop
  | some (file, record) => s = recordState file record
  | none => s.file = none

/-- What a line does to the record that is open. -/
theorem openRecord?_concat (before : List (List Char)) (line : List Char) :
    openRecord? (before ++ [line]) =
      if (tagged line).1 = "SF" then some (String.ofList (tagged line).2, [])
      else if (tagged line).1 = "end_of_record" then none
      else (openRecord? before).map fun (file, record) => (file, line :: record) := by
  unfold openRecord?
  simp only [List.reverse_append, List.reverse_singleton, List.singleton_append,
    List.takeWhile_cons]
  by_cases hstart : (tagged line).1 = "SF"
  · simp [hstart]
  · by_cases hend : (tagged line).1 = "end_of_record"
    · simp [hend]
    · have hopen : ((tagged line).1 != "SF") = true := bne_iff_ne.2 hstart
      have hgoes : ((tagged line).1 == "end_of_record") = false := beq_false_of_ne hend
      simp only [hopen, hgoes, if_neg hstart, if_neg hend, if_true, List.any_cons,
        Bool.false_or, List.length_cons, List.drop_succ_cons]
      split
      · rfl
      · rw [Option.map_map]
        rfl

section
variable {tag : String} {line : List Char} {record : List (List Char)}

theorem tellsLine_cons : tellsLine (line :: record) =
    ((tagged line).1 == "DA" && (traceLine? (tagged line).2).isSome || tellsLine record) := rfl

theorem tellsFunction_cons : tellsFunction (line :: record) =
    ((tagged line).1 == "FNDA" && (traceFunction? (tagged line).2).isSome ||
      tellsFunction record) := rfl

theorem lastCounter_cons : lastCounter tag (line :: record) =
    if (tagged line).1 = tag then counter (tagged line).2 else lastCounter tag record := by
  unfold lastCounter
  rw [List.find?_cons]
  by_cases h : (tagged line).1 = tag
  · simp [h]
  · simp [h, beq_false_of_ne h]

end

/-- A state that knows the open record finds what a line tells, and knows the record after it. -/
theorem Knows.step {s : TraceState} {before : List (List Char)}
    (h : Knows s (openRecord? before)) (line : List Char) :
    (traceStep s (trim line)).2 = traceTells (openRecord? before) line ∧
      Knows (traceStep s (trim line)).1 (openRecord? (before ++ [line])) := by
  rw [openRecord?_concat]
  have htagged : tagged line =
      (String.ofList ((cutAtChar ':' (trim line)).getD (trim line, [])).1,
        ((cutAtChar ':' (trim line)).getD (trim line, [])).2) := rfl
  unfold traceStep traceTells
  dsimp only
  rw [htagged]
  generalize (cutAtChar ':' (trim line)).getD (trim line, []) = parts at *
  obtain ⟨cs, value⟩ := parts
  dsimp only at htagged ⊢
  generalize String.ofList cs = tag at *
  cases hopen : openRecord? before with
  | none =>
    rw [hopen] at h
    replace h : s.file = none := h
    split <;> simp [Knows, h]
    case h_1 => rfl
    case h_9 => simp_all
  | some opened =>
    obtain ⟨file, record⟩ := opened
    rw [hopen] at h
    replace h : s = recordState file record := h
    subst h
    split
    -- The start of a record and its end.
    case h_1 | h_8 => exact ⟨rfl, rfl⟩
    -- A line, and a function.
    case h_2 =>
      cases hfact : traceLine? value <;>
        simp [Knows, recordState, recordFacts, tellsLine_cons, tellsFunction_cons,
          lastCounter_cons, htagged, hfact]
    case h_3 =>
      cases hfact : traceFunction? value <;>
        simp [Knows, recordState, recordFacts, tellsLine_cons, tellsFunction_cons,
          lastCounter_cons, htagged, hfact]
    -- The counters.
    case h_4 | h_5 | h_6 | h_7 =>
      simp [Knows, recordState, recordFacts, tellsLine_cons, tellsFunction_cons,
        lastCounter_cons, htagged]
    case h_9 =>
      simp_all [Knows, recordState, recordFacts, tellsLine_cons, tellsFunction_cons,
        lastCounter_cons]

theorem knows_foldl (before : List (List Char)) :
    Knows (before.foldl (fun s line => (traceStep s (trim line)).1) {}) (openRecord? before) := by
  induction before using List.reverseRecOn with
  | nil => rfl
  | append_singleton before line ih =>
    rw [List.foldl_append]
    exact (ih.step line).2

theorem traceObservations_cons (s : TraceState) (line : List Char) (rest : List (List Char)) :
    traceObservations s (line :: rest) =
      (traceStep s (trim line)).2 ++ traceObservations (traceStep s (trim line)).1 rest := rfl

theorem traceObservations_eq (text : List (List Char)) : traceObservations {} text =
    eachLine (fun before line => traceTells (openRecord? before) line) text := by
  rw [eq_eachLine (fun _ => rfl) traceObservations_cons]
  congr 1
  funext before line
  exact ((knows_foldl before).step line).1

end Trace

/-- All that the lines of a report tell, in order. -/
def RawReport.told (r : RawReport) : List Observation :=
  eachLine (fun before line => summaryTells (namedFile? before) line) (lines r.summary.toList) ++
    r.listings.flatMap (fun (name, text) =>
      let file := String.ofList (dropListingEnding name.toList)
      eachLine (fun before line => ((listedFact? line).map (⟨listedFile file before, ·⟩)).toList)
        (lines text.toList)) ++
    r.trace.toList.flatMap fun text =>
      eachLine (fun before line => traceTells (openRecord? before) line) (lines text.toList)

theorem RawReport.observations_eq_told (r : RawReport) : r.observations = r.told := by
  rw [observations, told, summaryObservations_eq]
  simp only [listingObservations_eq, traceObservations_eq]

/-- What reports tell about files that are not left out. -/
def Aggregation.told (a : Aggregation) (reports : List RawReport) : List Observation :=
  (reports.flatMap RawReport.told).filter fun o => !a.excludes o.file

theorem Aggregation.observations_eq_told (a : Aggregation) (reports : List RawReport) :
    a.observations reports = a.told reports := by
  have heach : RawReport.observations = RawReport.told :=
    funext RawReport.observations_eq_told
  rw [observations, told, heach]

end TestSynth.Coverage
