import TestSynth.Proofs.Coverage.Membership
import TestSynth.Proofs.Coverage.Percentage
/-!
What is covered against what there is. Single lines and functions, and the summaries of a listing
tool, never count more covered than there is; the end of a record of a trace can, and it alone.
-/
namespace TestSynth.Coverage

open Text (lines)

variable {ι ρ α : Type} {found : List Observation}

theorem mem_eachLine {tell : List (List Char) → List Char → List α} {text : List (List Char)}
    {x : α} : x ∈ eachLine tell text ↔
      ∃ before line after, text = before ++ line :: after ∧ x ∈ tell before line := by
  rw [eachLine, List.mem_flatten]
  simp only [List.mem_mapIdx]
  constructor
  · rintro ⟨_, ⟨i, hi, rfl⟩, hx⟩
    refine ⟨text.take i, text[i], text.drop (i + 1), ?_, hx⟩
    rw [← List.drop_eq_getElem_cons hi, List.take_append_drop]
  · rintro ⟨before, line, after, rfl, hx⟩
    exact ⟨_, ⟨before.length, by simp, rfl⟩, by simpa using hx⟩

/-- The trace of a report ends that record of a file. -/
def RawReport.EndsRecord (r : RawReport) (file : String) (record : List (List Char)) : Prop :=
  ∃ text ∈ r.trace, ∃ before line after, lines text.toList = before ++ line :: after ∧
    (tagged line).1 = "end_of_record" ∧ openRecord? before = some (file, record)

/-- The best summary of a file that is known by summaries only stands at the end of a record, and
has more covered than there is. -/
def Aggregation.Overcounts [LinearOrder ι] (a : Aggregation) (reports : List RawReport)
    (items : Fact → Option (ι × ρ)) (kind : Fact → Option Ratio) (covered total : String) : Prop :=
  ∃ r ∈ reports, ∃ file record, r.EndsRecord file record ∧
    file ∈ filesInSummary items kind (a.told reports) ∧
    bestSummary kind (a.told reports) file =
      (lastCounter covered record, lastCounter total record) ∧
    lastCounter total record < lastCounter covered record

section Told
variable {r : RawReport} {o : Observation}

theorem coveredOf_le (percent : Number.Binary64) (total : UInt64) :
    coveredOf percent total ≤ total := by
  rw [coveredOf, UInt64.min_def]
  split_ifs with h
  · exact h
  · exact UInt64.le_refl total

theorem mem_summaryTells {named : Option String} {line : List Char}
    (h : o ∈ summaryTells named line) :
    ∃ covered total, o.fact = .lineSummary covered total ∧ covered ≤ total := by
  unfold summaryTells at h
  split at h
  · rw [Option.mem_toList, Option.map_eq_some_iff] at h
    obtain ⟨fact, hfact, rfl⟩ := h
    unfold summaryFact? at hfact
    split at hfact
    · cases hfact
      exact ⟨_, _, rfl, coveredOf_le _ _⟩
    · cases hfact
  · cases h

theorem listedFact?_ne_summary {line : List Char} {fact : Fact} (h : listedFact? line = some fact) :
    fact.lineSummary? = none ∧ fact.functionSummary? = none := by
  have hfunction : ∀ fact, functionFact? line = some fact →
      fact.lineSummary? = none ∧ fact.functionSummary? = none := by
    intro fact h
    unfold functionFact? at h
    obtain ⟨rest, _, h⟩ := Option.bind_eq_some_iff.1 h
    dsimp only at h
    obtain ⟨rest', _, h⟩ := Option.bind_eq_some_iff.1 h
    split at h
    · cases h
    · cases h
      exact ⟨rfl, rfl⟩
  unfold listedFact? at h
  split at h
  · next hf => exact hfunction _ (h ▸ hf)
  · split at h
    · cases h
    · obtain ⟨hits, _, rfl⟩ := Option.map_eq_some_iff.1 h
      exact ⟨rfl, rfl⟩
  · cases h

theorem mem_recordSummaries {record : List (List Char)} {fact : Fact}
    (h : fact ∈ recordSummaries record) :
    fact = .lineSummary (lastCounter "LH" record) (lastCounter "LF" record) ∨
      fact = .functionSummary (lastCounter "FNH" record) (lastCounter "FNF" record) := by
  unfold recordSummaries at h
  rcases List.mem_append.1 h with h | h <;> split at h <;> simp_all

/-- What a line of a trace says in sum, it says at the end of a record. -/
theorem mem_traceTells {opened : Option (String × List (List Char))} {line : List Char}
    (h : o ∈ traceTells opened line) :
    (o.fact.lineSummary? = none ∧ o.fact.functionSummary? = none) ∨
      (tagged line).1 = "end_of_record" ∧ ∃ record, opened = some (o.file, record) ∧
        o.fact ∈ recordSummaries record := by
  unfold traceTells at h
  split at h
  · next file record =>
    obtain ⟨fact, hfact, rfl⟩ := List.mem_map.1 h
    unfold recordFacts at hfact
    split at hfact
    · left
      rw [Option.mem_toList] at hfact
      unfold traceLine? at hfact
      split at hfact
      · simp only [Option.bind_eq_bind, Option.bind_eq_some_iff, Option.pure_def,
          Option.some.injEq] at hfact
        obtain ⟨_, _, _, _, rfl⟩ := hfact
        exact ⟨rfl, rfl⟩
      · cases hfact
    · left
      rw [Option.mem_toList, traceFunction?, Option.map_eq_some_iff] at hfact
      obtain ⟨_, _, rfl⟩ := hfact
      exact ⟨rfl, rfl⟩
    · next htag => exact .inr ⟨by rw [htag], record, rfl, hfact⟩
    · cases hfact
  · cases h

/-- A summary that a report tells has no more covered than there is, or ends a record. -/
theorem RawReport.told_summary (h : o ∈ r.told) :
    (∀ s ∈ o.fact.lineSummary?, s.1 ≤ s.2 ∨ ∃ record, r.EndsRecord o.file record ∧
      s = (lastCounter "LH" record, lastCounter "LF" record)) ∧
    (∀ s ∈ o.fact.functionSummary?, s.1 ≤ s.2 ∨ ∃ record, r.EndsRecord o.file record ∧
      s = (lastCounter "FNH" record, lastCounter "FNF" record)) := by
  unfold RawReport.told at h
  rcases List.mem_append.1 h with h | h
  · rcases List.mem_append.1 h with h | h
    · obtain ⟨_, _, _, _, h⟩ := mem_eachLine.1 h
      obtain ⟨covered, total, hfact, hle⟩ := mem_summaryTells h
      simp [hfact, Fact.lineSummary?, Fact.functionSummary?, hle]
    · obtain ⟨_, _, h⟩ := List.mem_flatMap.1 h
      obtain ⟨_, _, _, _, h⟩ := mem_eachLine.1 h
      rw [Option.mem_toList, Option.map_eq_some_iff] at h
      obtain ⟨fact, hfact, rfl⟩ := h
      obtain ⟨hline, hfunction⟩ := listedFact?_ne_summary hfact
      simp [hline, hfunction]
  · obtain ⟨text, htext, h⟩ := List.mem_flatMap.1 h
    obtain ⟨before, line, after, hlines, h⟩ := mem_eachLine.1 h
    rcases mem_traceTells h with ⟨hline, hfunction⟩ | ⟨htag, record, hopen, hfact⟩
    · simp [hline, hfunction]
    · have hends : r.EndsRecord o.file record :=
        ⟨text, Option.mem_toList.1 htext, before, line, after, hlines, htag, hopen⟩
      rcases mem_recordSummaries hfact with hfact | hfact <;> rw [hfact]
      · exact ⟨fun s hs => .inr ⟨record, hends, (Option.some.inj hs).symm⟩,
          fun s hs => nomatch hs⟩
      · exact ⟨fun s hs => (nomatch hs),
          fun s hs => .inr ⟨record, hends, (Option.some.inj hs).symm⟩⟩

end Told

section Sums
variable [LinearOrder ι] {items : Fact → Option (ι × ρ)} {kind : Fact → Option Ratio}

/-- Summaries and items together count more covered than there is only if one of the summaries
does. -/
theorem exists_of_sum_lt (counted : List α) (p : α → Bool)
    (h : counted.length + ∑ file ∈ filesInSummary items kind found,
        (bestSummary kind found file).2.toNat <
      (counted.filter p).length + ∑ file ∈ filesInSummary items kind found,
        (bestSummary kind found file).1.toNat) :
    ∃ file ∈ filesInSummary items kind found,
      (bestSummary kind found file).2 < (bestSummary kind found file).1 := by
  by_contra hall
  have hsum : ∑ file ∈ filesInSummary items kind found, (bestSummary kind found file).1.toNat ≤
      ∑ file ∈ filesInSummary items kind found, (bestSummary kind found file).2.toNat :=
    Finset.sum_le_sum fun file hfile =>
      UInt64.le_iff_toNat_le.1 (UInt64.not_lt.1 fun hlt => hall ⟨file, hfile, hlt⟩)
  have hlength := List.length_filter_le p counted
  omega

variable {a : Aggregation} {reports : List RawReport} {covered total : String}

/-- A summary that has more covered than there is was told at the end of a record. -/
theorem overcounts_of_bestSummary
    (htold : ∀ r : RawReport, ∀ o ∈ r.told, ∀ s ∈ kind o.fact, s.1 ≤ s.2 ∨
      ∃ record, r.EndsRecord o.file record ∧
        s = (lastCounter covered record, lastCounter total record))
    (h : ∃ file ∈ filesInSummary items kind (a.told reports),
      (bestSummary kind (a.told reports) file).2 < (bestSummary kind (a.told reports) file).1) :
    a.Overcounts reports items kind covered total := by
  obtain ⟨file, hfile, hlt⟩ := h
  obtain ⟨o, ho, rfl, hkind⟩ := mem_summariesOf.1 (bestSummary_mem hfile)
  obtain ⟨r, hr, ho⟩ := List.mem_flatMap.1 (List.mem_filter.1 ho).1
  rcases htold r o ho _ hkind with hle | ⟨record, hends, hbest⟩
  · exact absurd hlt (UInt64.not_lt.2 hle)
  · exact ⟨r, hr, o.file, record, hends, hfile, hbest, by rwa [hbest] at hlt⟩

theorem toNat_toUInt64 {n : Nat} (h : n < UInt64.size) : n.toUInt64.toNat = n :=
  UInt64.toNat_ofNat_of_lt' h

/-- A counter of what is covered that fits into a word, as its total does, is at most the total. -/
theorem covered_le_or (counted : List α) (p : α → Bool)
    (htold : ∀ r : RawReport, ∀ o ∈ r.told, ∀ s ∈ kind o.fact, s.1 ≤ s.2 ∨
      ∃ record, r.EndsRecord o.file record ∧
        s = (lastCounter covered record, lastCounter total record))
    (hcovered : (counted.filter p).length + ∑ file ∈ filesInSummary items kind (a.told reports),
      (bestSummary kind (a.told reports) file).1.toNat < UInt64.size)
    (htotal : counted.length + ∑ file ∈ filesInSummary items kind (a.told reports),
      (bestSummary kind (a.told reports) file).2.toNat < UInt64.size) :
    ((counted.filter p).length + ∑ file ∈ filesInSummary items kind (a.told reports),
        (bestSummary kind (a.told reports) file).1.toNat).toUInt64 ≤
      (counted.length + ∑ file ∈ filesInSummary items kind (a.told reports),
        (bestSummary kind (a.told reports) file).2.toNat).toUInt64 ∨
    a.Overcounts reports items kind covered total := by
  refine or_iff_not_imp_left.2 fun hgt => overcounts_of_bestSummary htold ?_
  replace hgt := UInt64.lt_iff_toNat_lt.1 (UInt64.not_le.1 hgt)
  rw [toNat_toUInt64 hcovered, toNat_toUInt64 htotal] at hgt
  exact exists_of_sum_lt counted p hgt

end Sums

/-- A merged snapshot is the empty one, or what was told fits into it. -/
theorem eq_empty_or_snapshotOf {a : Aggregation} {reports : List RawReport} {s : Snapshot}
    (h : a.merge? reports = some s) :
    s = {} ∨ (countersOf (a.told reports)).Fit ∧ s = snapshotOf a.sample (a.told reports) := by
  rw [merge?_eq, a.observations_eq_told] at h
  split_ifs at h with hnil hfit
  · exact .inl (Option.some.inj h).symm
  · exact .inr ⟨hfit, (Option.some.inj h).symm⟩

/-- Merging breaks off exactly if a counter does not fit into a word. A snapshot has no more covered
than there is, and percentages, unless a summary from the end of a record of a trace says
otherwise. -/
theorem merge?_within_totals (a : Aggregation) (reports : List RawReport) :
    (a.merge? reports = none ↔ ¬ (countersOf (a.told reports)).Fit) ∧
    ∀ s, a.merge? reports = some s →
      (s.linesCovered ≤ s.linesTotal ∨
        a.Overcounts reports Fact.line? Fact.lineSummary? "LH" "LF") ∧
      (s.functionsCovered ≤ s.functionsTotal ∨
        a.Overcounts reports Fact.function? Fact.functionSummary? "FNH" "FNF") ∧
      (s.linesCovered ≤ s.linesTotal → IsPercentage s.percentage s.linesTotal) ∧
      (s.functionsCovered ≤ s.functionsTotal →
        IsPercentage s.functionPercentage s.functionsTotal) := by
  refine ⟨by rw [merge?_eq_none_iff, a.observations_eq_told], fun s h => ?_⟩
  rcases eq_empty_or_snapshotOf h with rfl | ⟨hfit, rfl⟩
  · exact ⟨.inl (UInt64.le_refl _), .inl (UInt64.le_refl _), isPercentage_percentage,
      isPercentage_percentage⟩
  · have hlines := covered_le_or _ _ (fun r o ho => (r.told_summary ho).1) hfit.linesCovered
      hfit.linesTotal
    have hfunctions := covered_le_or _ _ (fun r o ho => (r.told_summary ho).2)
      hfit.functionsCovered hfit.functionsTotal
    exact ⟨hlines, hfunctions, isPercentage_percentage, isPercentage_percentage⟩

/-- A trace of one file with these counters of lines. -/
def lineTotals (covered total : String) : RawReport :=
  { trace := some ("SF:box.cpp\nLH:" ++ covered ++ "\nLF:" ++ total ++ "\nend_of_record\n") }

/-- Nine of eight lines are covered; two totals together do not fit into a word; and of a very large
file that is covered as a whole the percentage is above 100. -/
theorem merge?_beyond_totals :
    (({} : Aggregation).merge? [lineTotals "9" "8"]).map
        (fun s => (s.linesCovered, s.linesTotal, s.percentage.le (.ofNat 100))) =
      some (9, 8, false) ∧
    ({} : Aggregation).merge? [lineTotals "0" "18446744073709551615",
      { trace := some "SF:ring.cpp\nLH:0\nLF:1\nend_of_record\n" }] = none ∧
    (({} : Aggregation).merge? [lineTotals "362664390759543" "362664390759543"]).map
      (·.percentage.le (.ofNat 100)) = some false := by
  decide +kernel

end TestSynth.Coverage
