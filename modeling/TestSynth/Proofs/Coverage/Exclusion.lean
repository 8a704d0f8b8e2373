import TestSynth.Proofs.Coverage.Reading
/-!
Files that are left out. A report falls into sections, each headed by a line that says what file it
is about. What stands inside the sections about files that are left out tells a reader nothing, and
leaves nothing behind that it could tell later: reports that are the same outside of those sections
have the same snapshot.
-/
namespace TestSynth.Coverage

open Text (trim lines)

section
variable {σ : Type} {leftOut : String → Bool} {heading? : List Char → Option (Option String)}
  {line : List Char} {before rest : List (List Char)} {about : Option String}

/-- The file that the section after some lines is about. A heading may also end a section without
the start of another. -/
def sectionFile? (heading? : List Char → Option (Option String)) (about : Option String)
    (before : List (List Char)) : Option String :=
  ((before.filterMap heading?).getLast?).getD about

/-- The lines of a text, without those inside the sections about files that are left out. -/
def outside (leftOut : String → Bool) (heading? : List Char → Option (Option String))
    (about : Option String) (text : List (List Char)) : List (List Char) :=
  eachLine (fun before line =>
    if (heading? line).isNone && (sectionFile? heading? about before).any leftOut then []
    else [line]) text

theorem sectionFile?_cons : sectionFile? heading? about (line :: before) =
    sectionFile? heading? ((heading? line).getD about) before := by
  unfold sectionFile?
  rw [← foldl_getD, ← foldl_getD]
  rfl

theorem outside_cons : outside leftOut heading? about (line :: rest) =
    (if (heading? line).isNone && about.any leftOut then [] else [line]) ++
      outside leftOut heading? ((heading? line).getD about) rest := by
  rw [outside, eachLine_cons, outside]
  simp only [sectionFile?_cons]
  rfl

theorem outside_append (before rest : List (List Char)) :
    outside leftOut heading? about (before ++ rest) = outside leftOut heading? about before ++
      outside leftOut heading? (sectionFile? heading? about before) rest := by
  induction before generalizing about with
  | nil => rfl
  | cons line before ih =>
    rw [List.cons_append, outside_cons, outside_cons, ih, sectionFile?_cons, List.append_assoc]

/-- Lines inside a section about a file that is left out make no difference. -/
theorem outside_inside {inside : List (List Char)} (hinside : ∀ line ∈ inside, heading? line = none)
    (hleft : about.any leftOut) (after : List (List Char)) :
    outside leftOut heading? about (inside ++ after) = outside leftOut heading? about after := by
  induction inside with
  | nil => rfl
  | cons line inside ih =>
    obtain ⟨hline, hinside⟩ := List.forall_mem_cons.1 hinside
    rw [List.cons_append, outside_cons, hline, hleft]
    exact ih hinside

/-- The observations about files that count. -/
def shown (leftOut : String → Bool) (found : List Observation) : List Observation :=
  found.filter fun o => !leftOut o.file

theorem shown_append (found more : List Observation) :
    shown leftOut (found ++ more) = shown leftOut found ++ shown leftOut more :=
  List.filter_append ..

/-- Nothing that is told about that file counts. -/
def Unheard (leftOut : String → Bool) (file : Option String) : Prop := ∀ f ∈ file, leftOut f

theorem unheard_of_any (h : about.any leftOut) : Unheard leftOut about := by
  rintro file rfl
  exact h

theorem Unheard.shown_eq_nil {file : Option String} (h : Unheard leftOut file)
    {found : List Observation} (hfound : ∀ o ∈ found, file = some o.file) :
    shown leftOut found = [] := by
  apply List.filter_eq_nil_iff.2
  intro o ho
  simp [h o.file (hfound o ho)]

/-- A reader that goes from line to line is blind to sections about files that are left out.
`Alike about s s'` says that in a section about that file both states come to the same. -/
structure Blind (leftOut : String → Bool) (heading? : List Char → Option (Option String))
    (read : σ → List (List Char) → List Observation) (tell : σ → List Char → List Observation)
    (next : σ → List Char → σ) (Alike : Option String → σ → σ → Prop) : Prop where
  nil : ∀ s, read s [] = []
  cons : ∀ s line rest, read s (line :: rest) = tell s line ++ read (next s line) rest
  /-- States that come to the same tell the same, and still do after any line. -/
  agrees : ∀ {about s s'} line, Alike about s s' →
    shown leftOut (tell s line) = shown leftOut (tell s' line) ∧
      Alike ((heading? line).getD about) (next s line) (next s' line)
  /-- A line inside the section tells nothing, and makes no difference to the state. -/
  skips : ∀ {about s s'} line, Alike about s s' → about.any leftOut → heading? line = none →
    shown leftOut (tell s line) = [] ∧ Alike about (next s line) s'

section
variable {read : σ → List (List Char) → List Observation} {tell : σ → List Char → List Observation}
  {next : σ → List Char → σ} {Alike : Option String → σ → σ → Prop} {s s' : σ}
  (h : Blind leftOut heading? read tell next Alike)
include h

/-- A blind reader finds the same in what is outside of those sections. -/
theorem Blind.shown_read (hs : Alike about s s') (text : List (List Char)) :
    shown leftOut (read s text) =
      shown leftOut (read s' (outside leftOut heading? about text)) := by
  -- Where a line is skipped only the first state moves on.
  induction text generalizing about s s' with
  | nil =>
    rw [h.nil]
    exact (congrArg _ (h.nil s')).symm
  | cons line rest ih =>
    rw [h.cons, shown_append, outside_cons]
    by_cases hhidden : (heading? line).isNone && about.any leftOut
    · obtain ⟨hline, hleft⟩ := Bool.and_eq_true_iff.1 hhidden
      have hline := Option.isNone_iff_eq_none.1 hline
      obtain ⟨htell, hnext⟩ := h.skips line hs hleft hline
      rw [if_pos hhidden, htell, List.nil_append, List.nil_append, hline]
      exact ih hnext
    · obtain ⟨htell, hnext⟩ := h.agrees line hs
      rw [if_neg hhidden, List.singleton_append, h.cons, shown_append, htell, ih hnext]

/-- Texts that are the same outside of those sections tell it the same. -/
theorem Blind.shown_read_congr (hs : Alike about s s) {text text' : List (List Char)}
    (htext : outside leftOut heading? about text = outside leftOut heading? about text') :
    shown leftOut (read s text) = shown leftOut (read s text') :=
  calc shown leftOut (read s text)
    _ = shown leftOut (read s (outside leftOut heading? about text)) := h.shown_read hs text
    _ = shown leftOut (read s (outside leftOut heading? about text')) := by rw [htext]
    _ = shown leftOut (read s text') := (h.shown_read hs text').symm

end

end

section Summary
variable {leftOut : String → Bool} {line : List Char} {about named named' : Option String}

/-- A line of a summary that names a file heads a section about it. -/
def summaryHeading? (line : List Char) : Option (Option String) :=
  (summaryFile? (trim line)).map some

/-- The first state knows no other file than that of the section, and where the two differ they know
none that counts. -/
def AlikeNamed (leftOut : String → Bool) (about named named' : Option String) : Prop :=
  (named = none ∨ named = about) ∧
    (named = named' ∨ Unheard leftOut named ∧ Unheard leftOut named')

theorem file_of_mem_summaryTells {o : Observation} (h : o ∈ summaryTells named line) :
    named = some o.file := by
  unfold summaryTells at h
  split at h
  · rw [Option.mem_toList, Option.map_eq_some_iff] at h
    obtain ⟨fact, -, rfl⟩ := h
    rfl
  · cases h

theorem naming?_heading (h : summaryHeading? line = some about) : naming? line = some about := by
  obtain ⟨file, hfile, rfl⟩ := Option.map_eq_some_iff.1 h
  simp [naming?, hfile]

/-- A line that is no heading leaves the name or uses it up. -/
theorem naming?_cases (h : summaryHeading? line = none) :
    naming? line = none ∨ naming? line = some none := by
  have hfile := Option.map_eq_none_iff.1 h
  cases hnumbers : summaryNumbers? (trim line) <;> simp [naming?, hfile, hnumbers]

theorem unheard_none : Unheard leftOut none := by
  intro file hfile
  cases hfile

theorem AlikeNamed.shown_eq (h : AlikeNamed leftOut about named named') (line : List Char) :
    shown leftOut (summaryTells named line) = shown leftOut (summaryTells named' line) := by
  rcases h.2 with rfl | ⟨hunheard, hunheard'⟩
  · rfl
  · rw [hunheard.shown_eq_nil fun o => file_of_mem_summaryTells,
      hunheard'.shown_eq_nil fun o => file_of_mem_summaryTells]

theorem blind_summary : Blind leftOut summaryHeading? summaryObservations summaryTells
    (fun named line => (naming? line).getD named) (AlikeNamed leftOut) where
  nil _ := rfl
  cons := summaryObservations_cons
  agrees := by
    intro about named named' line h
    refine ⟨h.shown_eq line, ?_⟩
    cases hheading : summaryHeading? line with
    | some file =>
      rw [naming?_heading hheading]
      exact ⟨.inr rfl, .inl rfl⟩
    | none =>
      rcases naming?_cases hheading with hnaming | hnaming <;> rw [hnaming]
      · exact h
      · exact ⟨.inl rfl, .inl rfl⟩
  skips := by
    intro about named named' line h hleft hheading
    have habout := unheard_of_any hleft
    have hnamed : Unheard leftOut named := by
      rcases h.1 with rfl | rfl
      · exact unheard_none
      · exact habout
    have hnamed' : Unheard leftOut named' := by
      rcases h.2 with rfl | ⟨-, hnamed'⟩
      · exact hnamed
      · exact hnamed'
    refine ⟨hnamed.shown_eq_nil fun o => file_of_mem_summaryTells, ?_⟩
    rcases naming?_cases hheading with hnaming | hnaming <;> rw [hnaming]
    · exact h
    · exact ⟨.inl rfl, .inr ⟨unheard_none, hnamed'⟩⟩

end Summary

section Listing
variable {leftOut : String → Bool}

/-- A line of a listing that names its source heads a section about it. -/
def listingHeading? (line : List Char) : Option (Option String) := (sourceFile? line).map some

theorem blind_listing : Blind leftOut listingHeading? listingObservations
    (fun file line => ((listedFact? line).map (⟨file, ·⟩)).toList)
    (fun file line => (sourceFile? line).getD file)
    (fun about file file' => about = some file ∧ file = file') where
  nil _ := rfl
  cons := listingObservations_cons
  agrees := by
    rintro about file file' line ⟨rfl, rfl⟩
    cases hsource : sourceFile? line <;> simp [listingHeading?, hsource]
  skips := by
    rintro about file file' line ⟨rfl, rfl⟩ hleft hheading
    have hsource := Option.map_eq_none_iff.1 hheading
    rw [hsource]
    refine ⟨(unheard_of_any hleft).shown_eq_nil ?_, rfl, rfl⟩
    intro o ho
    rw [Option.mem_toList, Option.map_eq_some_iff] at ho
    obtain ⟨fact, -, rfl⟩ := ho
    rfl

end Listing

section Trace
variable {leftOut : String → Bool} {s : TraceState} {line : List Char}

/-- The first line of a record heads a section about its file, and its end ends the section. -/
def traceHeading? (line : List Char) : Option (Option String) :=
  match tagged line with
  | ("SF", file) => some (some (String.ofList file))
  | ("end_of_record", _) => some none
  | _ => none

/-- Both states are in a record of that file, and they are the same if it counts. -/
def AlikeTrace (leftOut : String → Bool) (about : Option String) (s s' : TraceState) : Prop :=
  s.file = about ∧ s'.file = about ∧ (s = s' ∨ Unheard leftOut about)

/-- Whatever a line of a trace tells, it tells about the file of the record. -/
theorem file_of_mem_traceStep {o : Observation} (h : o ∈ (traceStep s line).2) :
    s.file = some o.file := by
  unfold traceStep at h
  dsimp only at h
  cases hfile : s.file with
  | none =>
    simp only [hfile] at h
    split at h <;> cases h
  | some file =>
    simp only [hfile] at h
    split at h
    -- A line, a function and the end of a record.
    case h_2 | h_3 =>
      split at h
      · obtain ⟨fact, -, rfl⟩ := List.mem_map.1 h
        rfl
      · cases h
    case h_8 =>
      obtain ⟨fact, -, rfl⟩ := List.mem_map.1 h
      rfl
    all_goals cases h

/-- A line of a trace changes the file only if it is a heading. -/
theorem file_traceStep (s : TraceState) (line : List Char) :
    (traceStep s (trim line)).1.file = (traceHeading? line).getD s.file := by
  unfold traceStep traceHeading? tagged
  dsimp only
  split
  -- A line and a function leave it, whether they can be read or not.
  case h_2 | h_3 =>
    split <;> simp_all
  all_goals simp_all

/-- The first line of a record leaves nothing of the records before it. -/
theorem traceStep_heading {file : String} (h : traceHeading? line = some (some file))
    (s : TraceState) : (traceStep s (trim line)).1 = { file := some file } := by
  unfold traceHeading? tagged at h
  unfold traceStep
  dsimp only at h ⊢
  split at h
  · next htag =>
    cases h
    simp_all
  · cases h
  · cases h

theorem blind_trace : Blind leftOut traceHeading? traceObservations
    (fun s line => (traceStep s (trim line)).2) (fun s line => (traceStep s (trim line)).1)
    (AlikeTrace leftOut) where
  nil _ := rfl
  cons := traceObservations_cons
  agrees := by
    rintro about s s' line ⟨rfl, hfile, hsame⟩
    rcases hsame with rfl | hunheard
    · exact ⟨rfl, file_traceStep s line, file_traceStep s line, .inl rfl⟩
    · have hunheard' : Unheard leftOut s'.file := hfile ▸ hunheard
      have htells : shown leftOut (traceStep s (trim line)).2 = [] :=
        hunheard.shown_eq_nil fun o => file_of_mem_traceStep
      have htells' : shown leftOut (traceStep s' (trim line)).2 = [] :=
        hunheard'.shown_eq_nil fun o => file_of_mem_traceStep
      refine ⟨htells.trans htells'.symm, file_traceStep s line, ?_, ?_⟩
      · rw [file_traceStep, hfile]
      · cases hheading : traceHeading? line with
        | none => exact .inr hunheard
        | some opened =>
          cases opened with
          | none => exact .inr unheard_none
          | some file =>
            rw [traceStep_heading hheading, traceStep_heading hheading]
            exact .inl rfl
  skips := by
    rintro about s s' line ⟨rfl, hfile, hsame⟩ hleft hheading
    have hunheard := unheard_of_any hleft
    refine ⟨hunheard.shown_eq_nil fun o => file_of_mem_traceStep, ?_, hfile, .inr hunheard⟩
    rw [file_traceStep, hheading]
    rfl

end Trace

section Reports
variable {a : Aggregation} {r r' : RawReport} {reports reports' : List RawReport}

/-- The file that a listing is about before it says anything. -/
def listingFile (name : String) : String := String.ofList (dropListingEnding name.toList)

/-- A listing outside of its sections about files that are left out. -/
def Aggregation.listingOutside (a : Aggregation) (listing : String × String) :
    String × List (List Char) :=
  (listing.1,
    outside a.excludes listingHeading? (some (listingFile listing.1)) (lines listing.2.toList))

/-- Two reports differ in nothing but lines inside sections about files that are left out. -/
structure Aggregation.AgreeOutside (a : Aggregation) (r r' : RawReport) : Prop where
  summary : outside a.excludes summaryHeading? none (lines r.summary.toList) =
    outside a.excludes summaryHeading? none (lines r'.summary.toList)
  listings : r.listings.map a.listingOutside = r'.listings.map a.listingOutside
  trace : r.trace.map (fun text => outside a.excludes traceHeading? none (lines text.toList)) =
    r'.trace.map fun text => outside a.excludes traceHeading? none (lines text.toList)

theorem shown_flatMap {α : Type} {leftOut : String → Bool} {tells : α → List Observation}
    (xs : List α) :
    shown leftOut (xs.flatMap tells) = xs.flatMap fun x => shown leftOut (tells x) :=
  List.filter_flatMap ..

/-- Lists that look the same in some way, and tell what can be told from that, tell the same. -/
theorem flatMap_congr_map {α β γ : Type} {look : α → β} {tells : α → List γ} {xs ys : List α}
    (h : xs.map look = ys.map look) (htells : ∀ x y, look x = look y → tells x = tells y) :
    xs.flatMap tells = ys.flatMap tells := by
  induction xs generalizing ys with
  | nil =>
    rw [List.map_nil] at h
    rw [List.map_eq_nil_iff.1 h.symm]
  | cons x xs ih =>
    cases ys with
    | nil => cases h
    | cons y ys =>
      obtain ⟨hhead, htail⟩ := List.cons.inj h
      rw [List.flatMap_cons, List.flatMap_cons, htells x y hhead, ih htail]

theorem Aggregation.AgreeOutside.shown_observations (h : a.AgreeOutside r r') :
    shown a.excludes r.observations = shown a.excludes r'.observations := by
  have hsummary : shown a.excludes (summaryObservations none (lines r.summary.toList)) =
      shown a.excludes (summaryObservations none (lines r'.summary.toList)) :=
    blind_summary.shown_read_congr ⟨.inl rfl, .inl rfl⟩ h.summary
  have hlisting : ∀ x y, a.listingOutside x = a.listingOutside y →
      shown a.excludes (listingObservations (listingFile x.1) (lines x.2.toList)) =
        shown a.excludes (listingObservations (listingFile y.1) (lines y.2.toList)) := by
    rintro ⟨name, text⟩ ⟨name', text'⟩ heq
    obtain ⟨rfl, htext⟩ := Prod.mk.inj heq
    exact blind_listing.shown_read_congr ⟨rfl, rfl⟩ htext
  have htrace : ∀ text text' : String,
      outside a.excludes traceHeading? none (lines text.toList) =
        outside a.excludes traceHeading? none (lines text'.toList) →
      shown a.excludes (traceObservations {} (lines text.toList)) =
        shown a.excludes (traceObservations {} (lines text'.toList)) := by
    intro text text' htext
    exact blind_trace.shown_read_congr ⟨rfl, rfl, .inl rfl⟩ htext
  have htraces := congrArg Option.toList h.trace
  rw [Option.toList_map, Option.toList_map] at htraces
  rw [RawReport.observations, RawReport.observations]
  simp only [shown_append, shown_flatMap]
  exact congrArg₂ _ (congrArg₂ _ hsummary (flatMap_congr_map h.listings hlisting))
    (flatMap_congr_map htraces htrace)

theorem Aggregation.observations_eq_flatMap (a : Aggregation) (reports : List RawReport) :
    a.observations reports = reports.flatMap fun r => shown a.excludes r.observations :=
  shown_flatMap reports

/-- Files that are left out cannot influence a snapshot. Any lines but headings may stand inside a
section about such a file without a difference outside of it; and reports that differ in no more
than that have the same snapshot, or both none. -/
theorem merge?_eq_of_agreeOutside (a : Aggregation) :
    (∀ heading? about before inside inside' after,
      (sectionFile? heading? about before).any a.excludes →
      (∀ line ∈ inside ++ inside', heading? line = none) →
        outside a.excludes heading? about (before ++ inside ++ after) =
          outside a.excludes heading? about (before ++ inside' ++ after)) ∧
    ∀ reports reports', List.Forall₂ a.AgreeOutside reports reports' →
      a.merge? reports = a.merge? reports' := by
  constructor
  · intro heading? about before inside inside' after hleft hinside
    obtain ⟨hinside, hinside'⟩ := List.forall_mem_append.1 hinside
    rw [List.append_assoc, List.append_assoc, outside_append, outside_append before,
      outside_inside hinside hleft, outside_inside hinside' hleft]
  · intro reports reports' h
    have hobservations : a.observations reports = a.observations reports' := by
      rw [a.observations_eq_flatMap, a.observations_eq_flatMap]
      induction h with
      | nil => rfl
      | cons hreport _ ih =>
        rw [List.flatMap_cons, List.flatMap_cons, hreport.shown_observations, ih]
    rw [Aggregation.merge?, Aggregation.merge?, hobservations]

/-- A report about a box and about headers of the system. The summary, the listing and the trace
each have a section about such a header before one about the box. -/
def mixed (summary listing record : String) : RawReport :=
  { summary := "File '/usr/include/vector'\n" ++ summary ++ "File 'ring.cpp'\n"
    listings := [("vector.gcov", "-:0:Source:/usr/include/vector\n" ++ listing ++
      "-:0:Source:box.cpp\n#####:5:return 10;\n")]
    trace := some ("SF:/usr/include/vector\n" ++ record ++
      "end_of_record\nLH:1\nSF:gate.cpp\nLF:4\nend_of_record\n") }

/-- Without anything in the sections about the header, and with something of every kind. -/
def quiet : RawReport := mixed "" "" ""

def loud : RawReport :=
  mixed "Lines executed:50.00% of 8\n" "function f called 0\n#####:7:grow();\n"
    "FNDA:0,f\nDA:7,0\nLH:9\nLF:9\nFNH:1\nFNF:2\n"

theorem merge?_eq_of_agreeOutside_mixed :
    List.Forall₂ ({} : Aggregation).AgreeOutside [quiet, quiet] [loud, quiet] ∧
      ({} : Aggregation).merge? [quiet, quiet] = ({} : Aggregation).merge? [loud, quiet] ∧
      (({} : Aggregation).merge? [quiet, quiet]).map (·.linesTotal) = some 5 := by
  have hloud : ({} : Aggregation).AgreeOutside quiet loud :=
    ⟨by decide +kernel, by decide +kernel, by decide +kernel⟩
  have hagree : List.Forall₂ ({} : Aggregation).AgreeOutside [quiet, quiet] [loud, quiet] :=
    .cons hloud (.cons ⟨rfl, rfl, rfl⟩ .nil)
  exact ⟨hagree, (merge?_eq_of_agreeOutside {}).2 _ _ hagree, by decide +kernel⟩

end Reports

end TestSynth.Coverage
