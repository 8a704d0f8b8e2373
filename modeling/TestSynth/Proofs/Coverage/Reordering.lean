import TestSynth.Proofs.Coverage.Membership
import TestSynth.Proofs.Coverage.Percentage
/-!
The order of reports, and reports that come again. What is covered and what is not does not depend
on the order. A total can, if two reports have summaries of a file that cover the same and differ in
the total. Reports that come again change nothing of a snapshot: they tell no new item, no higher
count and no better summary, and the first code of a line has been told before.
-/
namespace TestSynth.Coverage

variable {ι ρ : Type}

/-- The places of the uncovered lines. -/
def uncoveredPlaces (s : Snapshot) : List (String × Nat) :=
  s.uncoveredLines.map fun l => (l.file, l.line)

/-- The snapshot without the texts of the uncovered lines. -/
def withoutCode (s : Snapshot) : Snapshot :=
  { s with uncoveredLines := s.uncoveredLines.map fun l => { l with code := "" } }

/-- Of a file that is known by summaries only, a report whose best summary covers as much as the
best of all has the same total. -/
def Aggregation.Unrivalled [LinearOrder ι] (a : Aggregation) (reports : List RawReport)
    (items : Fact → Option (ι × ρ)) (kind : Fact → Option Ratio) : Prop :=
  ∀ file ∈ filesInSummary items kind (a.told reports), ∀ r ∈ reports,
    (bestSummary kind (a.told [r]) file).1 = (bestSummary kind (a.told reports) file).1 →
      (bestSummary kind (a.told [r]) file).2 = (bestSummary kind (a.told reports) file).2

section Told
variable {a : Aggregation} {reports reports' : List RawReport}

theorem mem_told_perm (h : reports.Perm reports') (o : Observation) :
    o ∈ a.told reports ↔ o ∈ a.told reports' := by
  simp only [Aggregation.told, List.mem_filter, List.mem_flatMap, h.mem_iff]

theorem summariesOf_told (kind : Fact → Option Ratio) (file : String) :
    summariesOf kind (a.told reports) file =
      reports.flatMap fun r => summariesOf kind (a.told [r]) file := by
  simp only [summariesOf, Aggregation.told, List.flatMap_singleton, List.filter_flatMap,
    List.filterMap_flatMap]

/-- The best summary of a file is the best one of a report. -/
theorem exists_bestSummary_eq [LinearOrder ι] {items : Fact → Option (ι × ρ)}
    {kind : Fact → Option Ratio} {file : String}
    (h : file ∈ filesInSummary items kind (a.told reports)) :
    ∃ r ∈ reports, bestSummary kind (a.told [r]) file = bestSummary kind (a.told reports) file := by
  have hne := List.ne_nil_of_mem (bestSummary_mem h)
  unfold bestSummary
  cases hbest : (summariesOf kind (a.told reports) file).argmax (·.1.toNat) with
  | none => exact absurd (List.argmax_eq_none.1 hbest) hne
  | some s =>
    rw [summariesOf_told] at hbest
    obtain ⟨r, hr, hs⟩ := mem_argmax_flatMap hbest
    exact ⟨r, hr, by rw [hs]⟩

/-- Nothing else than the files of observations has to be looked at. -/
theorem unrivalled_of_told [LinearOrder ι] {items : Fact → Option (ι × ρ)}
    {kind : Fact → Option Ratio}
    (h : ∀ o ∈ a.told reports, ∀ r ∈ reports,
      (bestSummary kind (a.told [r]) o.file).1 = (bestSummary kind (a.told reports) o.file).1 →
        (bestSummary kind (a.told [r]) o.file).2 = (bestSummary kind (a.told reports) o.file).2) :
    a.Unrivalled reports items kind := by
  intro file hfile
  obtain ⟨o, ho, rfl⟩ := List.mem_map.1 (List.mem_toFinset.1 (Finset.mem_filter.1 hfile).1)
  exact h o (List.mem_filter.1 ho).1

/-- A best summary without a rival is the best one in every order. -/
theorem bestSummary_perm [LinearOrder ι] {items : Fact → Option (ι × ρ)}
    {kind : Fact → Option Ratio} (h : reports.Perm reports')
    (hunrivalled : a.Unrivalled reports items kind) {file : String}
    (hfile : file ∈ filesInSummary items kind (a.told reports)) :
    bestSummary kind (a.told reports) file = bestSummary kind (a.told reports') file := by
  have hmem := mem_told_perm (a := a) h
  have hcovered := bestSummary_covered_congr hmem kind file
  have hfile' : file ∈ filesInSummary items kind (a.told reports') := by
    rwa [← filesInSummary_congr hmem]
  obtain ⟨r, hr, hbest⟩ := exists_bestSummary_eq hfile'
  have htotal := hunrivalled file hfile r (h.mem_iff.2 hr) (by rw [hbest, hcovered])
  rw [hbest] at htotal
  exact Prod.ext hcovered htotal.symm

end Told

section Snapshots
variable {found found' : List Observation} {sample : Nat}

theorem withoutCode_snapshotOf_congr (h : ∀ o, o ∈ found ↔ o ∈ found')
    (hcounters : countersOf found = countersOf found') :
    withoutCode (snapshotOf sample found) = withoutCode (snapshotOf sample found') := by
  simp only [withoutCode, snapshotOf, Snapshot.recomputed, List.map_take, List.map_map,
    Function.comp_def, hcounters, itemsOf_congr h, hitsAt_congr h, callsAt_congr h]

theorem uncoveredPlaces_snapshotOf_congr (h : ∀ o, o ∈ found ↔ o ∈ found') :
    uncoveredPlaces (snapshotOf sample found) = uncoveredPlaces (snapshotOf sample found') := by
  simp only [uncoveredPlaces, snapshotOf, Snapshot.recomputed, List.map_take, List.map_map,
    Function.comp_def, itemsOf_congr h, hitsAt_congr h]

theorem uncoveredFunctions_snapshotOf_congr (h : ∀ o, o ∈ found ↔ o ∈ found') :
    (snapshotOf sample found).uncoveredFunctions =
      (snapshotOf sample found').uncoveredFunctions := by
  simp only [snapshotOf, Snapshot.recomputed, itemsOf_congr h, callsAt_congr h]

end Snapshots

/-- Two orders of the same reports agree on all that is covered and on what is not. They have the
same snapshot but for the texts of lines, or none, unless the best summary of a file has a
rival. -/
theorem merge?_perm (a : Aggregation) {reports reports' : List RawReport}
    (h : reports.Perm reports') :
    (∀ s s', a.merge? reports = some s → a.merge? reports' = some s' →
      s.linesCovered = s'.linesCovered ∧ s.functionsCovered = s'.functionsCovered ∧
        uncoveredPlaces s = uncoveredPlaces s' ∧ s.uncoveredFunctions = s'.uncoveredFunctions) ∧
    (a.Unrivalled reports Fact.line? Fact.lineSummary? →
      a.Unrivalled reports Fact.function? Fact.functionSummary? →
        (a.merge? reports).map withoutCode = (a.merge? reports').map withoutCode) := by
  have hmem := mem_told_perm (a := a) h
  have hnil : a.told reports = [] ↔ a.told reports' = [] := by
    simp only [List.eq_nil_iff_forall_not_mem, hmem]
  rw [merge?_eq, merge?_eq, a.observations_eq_told, a.observations_eq_told]
  refine ⟨fun s s' hs hs' => ?_, fun hlines hfunctions => ?_⟩
  · by_cases hempty : a.told reports = []
    · rw [if_pos hempty] at hs
      rw [if_pos (hnil.1 hempty)] at hs'
      cases hs
      cases hs'
      exact ⟨rfl, rfl, rfl, rfl⟩
    · rw [if_neg hempty] at hs
      rw [if_neg (mt hnil.2 hempty)] at hs'
      split_ifs at hs hs'
      cases hs
      cases hs'
      exact ⟨congrArg Nat.toUInt64 (linesCovered_congr hmem),
        congrArg Nat.toUInt64 (functionsCovered_congr hmem),
        uncoveredPlaces_snapshotOf_congr hmem, uncoveredFunctions_snapshotOf_congr hmem⟩
  · have hcounters := countersOf_congr hmem (fun _ => bestSummary_perm h hlines)
      fun _ => bestSummary_perm h hfunctions
    simp only [hnil, hcounters]
    split_ifs
    · rfl
    · exact congrArg some (withoutCode_snapshotOf_congr hmem hcounters)
    · rfl

/-- A listing of one line that ran, and one of another that did not. -/
def ranHere : RawReport := { listings := [("box.cpp.gcov", "2:3:return 3;\n#####:4:return 4;\n")] }

def ranThere : RawReport :=
  { listings := [("box.cpp.gcov", "#####:3:return 3;\n#####:4:\n")]
    trace := some "SF:ring.cpp\nLH:5\nLF:10\nend_of_record\n" }

theorem merge?_perm_apart :
    [ranHere, ranThere].Perm [ranThere, ranHere] ∧
      ({} : Aggregation).Unrivalled [ranHere, ranThere] Fact.line? Fact.lineSummary? ∧
      ({} : Aggregation).Unrivalled [ranHere, ranThere] Fact.function? Fact.functionSummary? ∧
      (({} : Aggregation).merge? [ranHere, ranThere]).map withoutCode =
        (({} : Aggregation).merge? [ranThere, ranHere]).map withoutCode := by
  have hlines : ({} : Aggregation).Unrivalled [ranHere, ranThere] Fact.line? Fact.lineSummary? :=
    unrivalled_of_told (by decide +kernel)
  have hfunctions : ({} : Aggregation).Unrivalled [ranHere, ranThere] Fact.function?
      Fact.functionSummary? := unrivalled_of_told (by decide +kernel)
  exact ⟨.swap _ _ _, hlines, hfunctions, (merge?_perm {} (.swap _ _ _)).2 hlines hfunctions⟩

/-- Two reports of one file, both with five lines covered, of ten and of eight. -/
def rival (total : String) : RawReport :=
  { trace := some ("SF:ring.cpp\nLH:5\nLF:" ++ total ++ "\nend_of_record\n") }

theorem merge?_depends_on_order :
    [rival "10", rival "8"].Perm [rival "8", rival "10"] ∧
      (({} : Aggregation).merge? [rival "10", rival "8"]).map (·.linesTotal) = some 10 ∧
      (({} : Aggregation).merge? [rival "8", rival "10"]).map (·.linesTotal) = some 8 ∧
      (({} : Aggregation).merge? [rival "10", rival "8"]).map (·.percentage) ≠
        (({} : Aggregation).merge? [rival "8", rival "10"]).map (·.percentage) := by
  refine ⟨.swap _ _ _, ?_⟩
  decide +kernel

theorem Aggregation.told_append (a : Aggregation) (reports extra : List RawReport) :
    a.told (reports ++ extra) = a.told reports ++ a.told extra := by
  simp only [told, List.flatMap_append, List.filter_append]

theorem Aggregation.told_subset (a : Aggregation) {reports extra : List RawReport}
    (h : extra ⊆ reports) : a.told extra ⊆ a.told reports := by
  intro o ho
  obtain ⟨hmem, hfile⟩ := List.mem_filter.1 ho
  obtain ⟨r, hr, hor⟩ := List.mem_flatMap.1 hmem
  exact List.mem_filter.2 ⟨List.mem_flatMap.2 ⟨r, h hr, hor⟩, hfile⟩

section Again
variable {found more : List Observation} (h : more ⊆ found)
include h

theorem mem_append_iff_of_subset (o : Observation) : o ∈ found ++ more ↔ o ∈ found := by
  rw [List.mem_append]
  exact ⟨fun ho => ho.elim id fun ho => h ho, .inl⟩

theorem bestSummary_append (kind : Fact → Option Ratio) (file : String) :
    bestSummary kind (found ++ more) file = bestSummary kind found file := by
  have hsubset : summariesOf kind more file ⊆ summariesOf kind found file := by
    intro s hs
    obtain ⟨o, ho, hkind⟩ := mem_summariesOf.1 hs
    exact mem_summariesOf.2 ⟨o, h ho, hkind⟩
  have happend : summariesOf kind (found ++ more) file =
      summariesOf kind found file ++ summariesOf kind more file := List.filterMap_append
  rw [bestSummary, happend, argmax_append_of_subset hsubset, bestSummary]

theorem codeAt_append : codeAt (found ++ more) = codeAt found := by
  funext k
  have happend : recordsAt Fact.line? (found ++ more) (ofLex k).1 (ofLex k).2 =
      recordsAt Fact.line? found (ofLex k).1 (ofLex k).2 ++
        recordsAt Fact.line? more (ofLex k).1 (ofLex k).2 := List.filterMap_append
  rw [codeAt, happend, List.findSome?_append, ← codeAt]
  cases hcode : codeAt found k with
  | some code => rfl
  | none =>
    -- A line without code so far was told without code.
    refine List.findSome?_eq_none_iff.2 fun r hr => ?_
    obtain ⟨o, ho, hkind⟩ := mem_recordsAt.1 hr
    exact List.findSome?_eq_none_iff.1 hcode r (mem_recordsAt.2 ⟨o, h ho, hkind⟩)

theorem countersOf_append : countersOf (found ++ more) = countersOf found :=
  countersOf_congr (mem_append_iff_of_subset h) (fun _ _ => bestSummary_append h _ _)
    fun _ _ => bestSummary_append h _ _

theorem snapshotOf_append (sample : Nat) :
    snapshotOf sample (found ++ more) = snapshotOf sample found := by
  have hmem := mem_append_iff_of_subset h
  unfold snapshotOf
  rw [countersOf_append h, itemsOf_congr hmem, itemsOf_congr hmem, hitsAt_congr hmem,
    callsAt_congr hmem, codeAt_append h]

end Again

/-- Merging reports again that are merged already changes nothing. -/
theorem merge?_append_of_subset (a : Aggregation) {reports extra : List RawReport}
    (h : ∀ r ∈ extra, r ∈ reports) : a.merge? (reports ++ extra) = a.merge? reports := by
  have htold := a.told_subset h
  have hnil : a.told reports ++ a.told extra = [] ↔ a.told reports = [] := by
    rw [List.append_eq_nil_iff]
    refine ⟨And.left, fun hnil => ⟨hnil, ?_⟩⟩
    rw [hnil] at htold
    exact List.eq_nil_of_subset_nil htold
  simp only [merge?_eq, a.observations_eq_told, a.told_append, countersOf_append htold,
    snapshotOf_append htold, hnil]

/-- A line that did not run, by a listing. -/
def listed : RawReport := { listings := [("box.cpp.gcov", "#####:5:return 10;\n")] }

/-- The same line by a trace, which does not know its text, and two summaries of another file. -/
def traced : RawReport :=
  { summary := "File 'ring.cpp'\nLines executed:50.00% of 8\n"
    trace := some "SF:box.cpp\nDA:5,0\nend_of_record\nSF:ring.cpp\nLH:4\nLF:10\nend_of_record\n" }

theorem merge?_append_of_subset_traced :
    (∀ r ∈ [traced, listed, traced], r ∈ [listed, traced]) ∧
      ({} : Aggregation).merge? ([listed, traced] ++ [traced, listed, traced]) =
        ({} : Aggregation).merge? [listed, traced] :=
  ⟨by decide, merge?_append_of_subset {} (by decide)⟩

end TestSynth.Coverage
