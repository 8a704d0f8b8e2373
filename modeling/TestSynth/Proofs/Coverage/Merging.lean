import TestSynth.Proofs.Coverage.Reading
import TestSynth.Proofs.Coverage.Reference
/-!
Merging gives the snapshot that the observations should have. Each map of a tally is a fold of its
own over the observations, and what stands at a key is a fold over the records of that key.
-/
namespace TestSynth.Coverage

open OrderedMap

variable {ι ρ α : Type}

section
variable [LinearOrder ι]

/-- What an observation changes in a map by file and item. -/
def noteItem (kind : Fact → Option (ι × ρ)) (step : ρ → Option α → α)
    (m : OrderedMap String (OrderedMap ι α)) (o : Observation) :
    OrderedMap String (OrderedMap ι α) :=
  match kind o.fact with
  | some (item, r) => m.alterAt o.file item (step r)
  | none => m

variable {kind : Fact → Option (ι × ρ)} {step : ρ → Option α → α}
  {m : OrderedMap String (OrderedMap ι α)} {found : List Observation}

theorem nested_noteItem (h : m.Nested) (o : Observation) : (noteItem kind step m o).Nested := by
  unfold noteItem
  split
  · exact h.alterAt
  · exact h

theorem nested_foldl_noteItem (h : m.Nested) (found : List Observation) :
    (found.foldl (noteItem kind step) m).Nested := by
  induction found generalizing m with
  | nil => exact h
  | cons o rest ih => exact ih (nested_noteItem h o)

/-- What stands at an item is made of the records of the item, in their order. -/
theorem findAt?_foldl_noteItem (h : m.Nested) (found : List Observation) (file : String)
    (item : ι) : (found.foldl (noteItem kind step) m).findAt? file item =
      (recordsAt kind found file item).foldl (fun a r => some (step r a))
        (m.findAt? file item) := by
  induction found generalizing m with
  | nil => rfl
  | cons o rest ih =>
    rw [List.foldl_cons, ih (nested_noteItem h o), recordsAt, recordsAt, List.filterMap_cons]
    unfold noteItem
    cases hkind : kind o.fact with
    | none => simp
    | some r =>
      simp only [findAt?_alterAt h]
      by_cases hfile : o.file = file
      · by_cases hitem : r.1 = item
        · simp [hfile, hitem, Option.filter]
        · simp [hfile, hitem, Ne.symm hitem, Option.filter]
      · simp [hfile, Ne.symm hfile]

theorem mem_items_iff {file : String} {item : ι} :
    toLex (file, item) ∈
        (found.filterMap fun o => (kind o.fact).map fun r => toLex (o.file, r.1)).toFinset ↔
      recordsAt kind found file item ≠ [] := by
  rw [ne_eq, recordsAt, List.filterMap_eq_nil_iff]
  simp only [List.mem_toFinset, List.mem_filterMap, Option.map_eq_some_iff,
    EmbeddingLike.apply_eq_iff_eq, Prod.mk.injEq, not_forall]
  constructor
  · rintro ⟨o, ho, r, hr, rfl, rfl⟩
    exact ⟨o, ho, by simp [hr]⟩
  · rintro ⟨o, ho, h⟩
    by_cases hfile : o.file = file
    · cases hkind : kind o.fact with
      | none => simp [hkind] at h
      | some r =>
        by_cases hitem : r.1 = item
        · exact ⟨o, ho, r, hkind, hfile, hitem⟩
        · simp [hkind, hitem] at h
    · simp [hfile] at h

theorem isSome_foldl {records : List ρ} {a : Option α} :
    (records.foldl (fun a r => some (step r a)) a).isSome ↔ records ≠ [] ∨ a.isSome := by
  induction records generalizing a with
  | nil => simp
  | cons r rest ih => simp [ih]

/-- The map of all items that observations know. -/
def itemMap (kind : Fact → Option (ι × ρ)) (step : ρ → Option α → α) (found : List Observation) :
    OrderedMap String (OrderedMap ι α) :=
  found.foldl (noteItem kind step) .empty

theorem nested_itemMap : (itemMap kind step found).Nested := nested_foldl_noteItem nested_empty _

theorem findAt?_itemMap (file : String) (item : ι) :
    (itemMap kind step found).findAt? file item =
      (recordsAt kind found file item).foldl (fun a r => some (step r a)) none :=
  findAt?_foldl_noteItem nested_empty _ _ _

/-- The map lists the items, with what is made of their records. -/
theorem flat_itemMap [Inhabited α] (kind : Fact → Option (ι × ρ)) (step : ρ → Option α → α)
    (found : List Observation) : (itemMap kind step found).flat =
    (itemsOf kind found).map fun k => ((ofLex k).1, (ofLex k).2,
      ((recordsAt kind found (ofLex k).1 (ofLex k).2).foldl (fun a r => some (step r a))
        none).getD default) := by
  have hitems : ∀ file item, toLex (file, item) ∈
      (found.filterMap fun o => (kind o.fact).map fun r => toLex (o.file, r.1)).toFinset ↔
        ((itemMap kind step found).findAt? file item).isSome := by
    intro file item
    rw [mem_items_iff, findAt?_itemMap, isSome_foldl]
    simp
  rw [flat_eq_map_sort nested_itemMap hitems, itemsOf]
  simp only [findAt?_itemMap]

theorem mem_itemsOf {file : String} {item : ι} :
    toLex (file, item) ∈ itemsOf kind found ↔ recordsAt kind found file item ≠ [] := by
  rw [itemsOf, Finset.mem_sort, mem_items_iff]

theorem mem_keys_itemMap {file : String} :
    file ∈ (itemMap kind step found).keys ↔ ∃ k ∈ itemsOf kind found, (ofLex k).1 = file := by
  rw [mem_keys_iff nested_itemMap]
  simp only [← Option.isSome_iff_exists, findAt?_itemMap, isSome_foldl, Option.isSome_none,
    Bool.false_eq_true, or_false, ← mem_itemsOf]
  constructor
  · rintro ⟨item, h⟩
    exact ⟨_, h, rfl⟩
  · rintro ⟨k, h, rfl⟩
    exact ⟨(ofLex k).2, h⟩

end

section
variable {kind : Fact → Option Ratio} {m : OrderedMap String Ratio} {found : List Observation}

/-- What an observation changes in a map of summaries. -/
def noteSummary (kind : Fact → Option Ratio) (m : OrderedMap String Ratio) (o : Observation) :
    OrderedMap String Ratio :=
  match kind o.fact with
  | some r => m.alter o.file (better r)
  | none => m

theorem ordered_noteSummary (h : m.Ordered) (o : Observation) :
    (noteSummary kind m o).Ordered := by
  unfold noteSummary
  split
  · exact h.alter
  · exact h

theorem ordered_foldl_noteSummary (h : m.Ordered) (found : List Observation) :
    (found.foldl (noteSummary kind) m).Ordered := by
  induction found generalizing m with
  | nil => exact h
  | cons o rest ih => exact ih (ordered_noteSummary h o)

theorem find?_foldl_noteSummary (h : m.Ordered) (found : List Observation) (file : String) :
    (found.foldl (noteSummary kind) m).find? file =
      (summariesOf kind found file).foldl (fun a r => some (better r a)) (m.find? file) := by
  induction found generalizing m with
  | nil => rfl
  | cons o rest ih =>
    rw [List.foldl_cons, ih (ordered_noteSummary h o), summariesOf, summariesOf,
      List.filterMap_cons]
    unfold noteSummary
    cases hkind : kind o.fact with
    | none => simp
    | some r =>
      simp only [find?_alter h]
      by_cases hfile : o.file = file
      · simp [hfile]
      · simp [hfile, Ne.symm hfile]

/-- Keeping the better summary keeps the first of the best. -/
theorem foldl_better (summaries : List Ratio) :
    summaries.foldl (fun a r => some (better r a)) none = summaries.argmax (·.1.toNat) := by
  induction summaries using List.reverseRecOn with
  | nil => rfl
  | append_singleton rest r ih =>
    rw [List.foldl_append, ih, List.argmax_concat]
    cases rest.argmax (·.1.toNat) with
    | none => rfl
    | some old =>
      simp only [List.foldl_cons, List.foldl_nil, better, UInt64.lt_iff_toNat_lt]
      split <;> rfl

/-- The map of the best summaries. -/
def summaryMap (kind : Fact → Option Ratio) (found : List Observation) : OrderedMap String Ratio :=
  found.foldl (noteSummary kind) .empty

theorem ordered_summaryMap : (summaryMap kind found).Ordered :=
  ordered_foldl_noteSummary ordered_empty _

theorem find?_summaryMap (file : String) :
    (summaryMap kind found).find? file = (summariesOf kind found file).argmax (·.1.toNat) := by
  rw [summaryMap, find?_foldl_noteSummary ordered_empty, find?_empty, foldl_better]

theorem mem_keys_summaryMap {file : String} : file ∈ (summaryMap kind found).keys ↔
    file ∈ (found.filter fun o => (kind o.fact).isSome).map (·.file) := by
  rw [← not_iff_not, ← find?_eq_none_iff, find?_summaryMap, List.argmax_eq_none, summariesOf,
    List.filterMap_eq_nil_iff]
  simp only [List.mem_map, List.mem_filter, not_exists, not_and, and_imp, ite_eq_right_iff]
  constructor
  · intro h o ho hsome hfile
    simp [h o ho hfile] at hsome
  · intro h o ho hfile
    exact Option.not_isSome_iff_eq_none.1 fun hsome => h o ho hsome hfile

/-- The sum over the summaries of files without items. -/
theorem sum_untold [LinearOrder ι] {items : Fact → Option (ι × ρ)} {step : ρ → Option α → α}
    (g : Ratio → Nat) :
    ((untold (summaryMap kind found) (itemMap items step found)).map g).sum =
      ∑ file ∈ filesInSummary items kind found, g (bestSummary kind found file) := by
  have hfiles : ∀ file, file ∈ filesInSummary items kind found ↔
      file ∈ (summaryMap kind found).keys ∧ !(itemMap items step found).contains file := by
    intro file
    rw [mem_keys_summaryMap, filesInSummary, Finset.mem_filter, List.mem_toFinset,
      Bool.not_eq_true', Bool.eq_false_iff, ne_eq, contains_iff, mem_keys_itemMap]
    simp only [not_exists, not_and, ne_eq]
  have hsum := sum_filter_entries ordered_summaryMap (fun file =>
    !(itemMap items step found).contains file) g hfiles
  simp only [find?_summaryMap] at hsum
  rw [untold, List.map_map]
  exact hsum

end

namespace Tally

/-- What is made of a record of a line. -/
def lineStep (r : UInt64 × Option String) : Option LineHit → LineHit := LineHit.add r.1 r.2

/-- What is made of a record of a function. -/
def callStep (calls : UInt64) (old : Option UInt64) : UInt64 := max (old.getD 0) calls

variable (t : Tally) (o : Observation) (found : List Observation)

theorem lines_add : (t.add o).lines = noteItem Fact.line? lineStep t.lines o := by
  obtain ⟨file, fact⟩ := o
  cases fact <;> rfl

theorem functions_add : (t.add o).functions = noteItem Fact.function? callStep t.functions o := by
  obtain ⟨file, fact⟩ := o
  cases fact <;> rfl

theorem lineSummaries_add :
    (t.add o).lineSummaries = noteSummary Fact.lineSummary? t.lineSummaries o := by
  obtain ⟨file, fact⟩ := o
  cases fact <;> rfl

theorem functionSummaries_add :
    (t.add o).functionSummaries = noteSummary Fact.functionSummary? t.functionSummaries o := by
  obtain ⟨file, fact⟩ := o
  cases fact <;> rfl

/-- The tally whose maps are made of the observations one by one. -/
def made (found : List Observation) : Tally where
  lines := itemMap Fact.line? lineStep found
  functions := itemMap Fact.function? callStep found
  lineSummaries := summaryMap Fact.lineSummary? found
  functionSummaries := summaryMap Fact.functionSummary? found

/-- A tally keeps its four maps apart. -/
theorem foldl_add_eq (t : Tally) : found.foldl Tally.add t =
    { lines := found.foldl (noteItem Fact.line? lineStep) t.lines
      functions := found.foldl (noteItem Fact.function? callStep) t.functions
      lineSummaries := found.foldl (noteSummary Fact.lineSummary?) t.lineSummaries
      functionSummaries :=
        found.foldl (noteSummary Fact.functionSummary?) t.functionSummaries } := by
  induction found generalizing t with
  | nil => rfl
  | cons o rest ih =>
    simp only [List.foldl_cons]
    rw [ih, lines_add, functions_add, lineSummaries_add, functionSummaries_add]

theorem foldl_add : found.foldl Tally.add {} = made found := foldl_add_eq found {}

theorem max_zero (n : UInt64) : max 0 n = n := by
  rw [UInt64.max_def]
  exact if_pos UInt64.zero_le

theorem foldl_lineStep_some (h : LineHit) (records : List (UInt64 × Option String)) :
    records.foldl (fun a r => some (lineStep r a)) (some h) =
      some ⟨(records.map (·.1)).foldl max h.hits,
        h.code.orElse fun _ => records.findSome? (·.2)⟩ := by
  induction records generalizing h with
  | nil => simp
  | cons r rest ih =>
    rw [List.foldl_cons, ih]
    cases hcode : h.code <;> cases hr : r.2 <;> simp [lineStep, LineHit.add, hcode, hr]

/-- A line has its highest count and its first code. -/
theorem foldl_lineStep (records : List (UInt64 × Option String)) :
    (records.foldl (fun a r => some (lineStep r a)) none).getD default =
      ⟨(records.map (·.1)).foldl max 0, records.findSome? (·.2)⟩ := by
  cases records with
  | nil => rfl
  | cons r rest =>
    rw [List.foldl_cons, foldl_lineStep_some, List.map_cons, List.foldl_cons, max_zero]
    cases hr : r.2 <;> simp [lineStep, LineHit.add, hr]

theorem foldl_callStep_some (calls : UInt64) (records : List UInt64) :
    records.foldl (fun a r => some (callStep r a)) (some calls) =
      some (records.foldl max calls) := by
  induction records generalizing calls with
  | nil => rfl
  | cons r rest ih => exact ih (max calls r)

/-- A function has its highest number of calls. -/
theorem foldl_callStep (records : List UInt64) :
    (records.foldl (fun a r => some (callStep r a)) none).getD default = records.foldl max 0 := by
  cases records with
  | nil => rfl
  | cons r rest => rw [List.foldl_cons, foldl_callStep_some, Option.getD_some]; rfl

/-- The lines with their highest counts and first codes. -/
theorem lineHits_made : (made found).lineHits = (itemsOf Fact.line? found).map fun k =>
    ((ofLex k).1, (ofLex k).2, ⟨hitsAt found k, codeAt found k⟩) := by
  refine (flat_itemMap Fact.line? lineStep found).trans ?_
  simp only [foldl_lineStep, hitsAt, codeAt]

/-- The functions with their highest numbers of calls. -/
theorem functionCalls_made : (made found).functionCalls =
    (itemsOf Fact.function? found).map fun k => ((ofLex k).2, callsAt found k) := by
  have hflat : (made found).functionCalls = (made found).functions.flat.map (·.2) := by
    rw [functionCalls, OrderedMap.values, OrderedMap.flat, List.flatMap_map, List.map_flatMap]
    simp
  rw [hflat, made, flat_itemMap, List.map_map]
  simp only [foldl_callStep, callsAt]
  rfl

end Tally

theorem total_eq_sum (ns : List Nat) : Number.total ns = ns.sum := rfl

theorem totalRatio?_eq (counts : List UInt64) (summaries : List Ratio) :
    totalRatio? counts summaries =
      if (counts.filter (0 < ·)).length + (summaries.map (·.1.toNat)).sum < UInt64.size ∧
          counts.length + (summaries.map (·.2.toNat)).sum < UInt64.size then
        some (((counts.filter (0 < ·)).length + (summaries.map (·.1.toNat)).sum).toUInt64,
          (counts.length + (summaries.map (·.2.toNat)).sum).toUInt64)
      else none := by
  unfold totalRatio? ratioOf word?
  rw [total_eq_sum, total_eq_sum]
  split_ifs <;> simp_all

section
variable (found : List Observation) (sample : Nat)

theorem lineRatio_made : totalRatio? ((Tally.made found).lineHits.map (·.2.2.hits))
    (untold (Tally.made found).lineSummaries (Tally.made found).lines) =
      if (countersOf found).linesCovered < UInt64.size ∧
          (countersOf found).linesTotal < UInt64.size then
        some ((countersOf found).linesCovered.toUInt64, (countersOf found).linesTotal.toUInt64)
      else none := by
  rw [totalRatio?_eq, Tally.lineHits_made, Tally.made, sum_untold fun r => r.1.toNat,
    sum_untold fun r => r.2.toNat, List.map_map, List.filter_map, List.length_map,
    List.length_map]
  rfl

theorem functionRatio_made : totalRatio? ((Tally.made found).functionCalls.map (·.2))
    (untold (Tally.made found).functionSummaries (Tally.made found).functions) =
      if (countersOf found).functionsCovered < UInt64.size ∧
          (countersOf found).functionsTotal < UInt64.size then
        some ((countersOf found).functionsCovered.toUInt64,
          (countersOf found).functionsTotal.toUInt64)
      else none := by
  rw [totalRatio?_eq, Tally.functionCalls_made, Tally.made, sum_untold fun r => r.1.toNat,
    sum_untold fun r => r.2.toNat, List.map_map, List.filter_map, List.length_map,
    List.length_map]
  rfl

theorem Counters.fit_iff (c : Counters) : c.Fit ↔
    (c.linesCovered < UInt64.size ∧ c.linesTotal < UInt64.size) ∧
      c.functionsCovered < UInt64.size ∧ c.functionsTotal < UInt64.size := by
  constructor
  · rintro ⟨h₁, h₂, h₃, h₄⟩
    exact ⟨⟨h₁, h₂⟩, h₃, h₄⟩
  · rintro ⟨⟨h₁, h₂⟩, h₃, h₄⟩
    exact ⟨h₁, h₂, h₃, h₄⟩

/-- A tally of observations gives the snapshot that they should have, if the counters of it fit
into words. -/
theorem snapshot?_foldl_add : (found.foldl Tally.add {}).snapshot? sample =
    if (countersOf found).Fit then some (snapshotOf sample found) else none := by
  rw [Tally.foldl_add, Tally.snapshot?, lineRatio_made, functionRatio_made,
    Tally.lineHits_made, Tally.functionCalls_made]
  by_cases hlines : (countersOf found).linesCovered < UInt64.size ∧
      (countersOf found).linesTotal < UInt64.size
  · by_cases hfunctions : (countersOf found).functionsCovered < UInt64.size ∧
        (countersOf found).functionsTotal < UInt64.size
    · have hfit := (Counters.fit_iff _).2 ⟨hlines, hfunctions⟩
      rw [if_pos hlines, if_pos hfunctions, if_pos hfit, List.filter_map, List.filter_map,
        List.map_map, List.map_map]
      rfl
    · have hfit : ¬ (countersOf found).Fit := fun h => hfunctions ((Counters.fit_iff _).1 h).2
      rw [if_pos hlines, if_neg hfunctions, if_neg hfit]
      rfl
  · have hfit : ¬ (countersOf found).Fit := fun h => hlines ((Counters.fit_iff _).1 h).1
    rw [if_neg hlines, if_neg hfit]
    rfl

end

/-- Nothing observed is nothing counted. -/
theorem countersOf_nil : countersOf [] = ⟨0, 0, 0, 0⟩ := by
  simp [countersOf, itemsOf, filesInSummary]

/-- Reports without an observation give the empty snapshot. -/
theorem merge?_eq (a : Aggregation) (reports : List RawReport) :
    a.merge? reports =
      if a.observations reports = [] then some {}
      else if (countersOf (a.observations reports)).Fit then
        some (snapshotOf a.sample (a.observations reports))
      else none := by
  unfold Aggregation.merge?
  split
  · next h => rw [if_pos h]
  · next h => rw [if_neg h, snapshot?_foldl_add]

/-- Merging breaks off exactly when a counter does not fit into a word. -/
theorem merge?_eq_none_iff {a : Aggregation} {reports : List RawReport} :
    a.merge? reports = none ↔ ¬ (countersOf (a.observations reports)).Fit := by
  rw [merge?_eq]
  split
  · next h =>
    have hfit : (Counters.mk 0 0 0 0).Fit := by decide
    simp [h, countersOf_nil, hfit]
  · split <;> simp_all

/-- The snapshot of reports is the one that what their lines tell should have: nothing if they tell
nothing, and none at all if a counter does not fit into a word. -/
theorem merge_eq_snapshotOf (a : Aggregation) (reports : List RawReport) :
    a.merge? reports =
      if a.told reports = [] then some {}
      else if (countersOf (a.told reports)).Fit then
        some (snapshotOf a.sample (a.told reports))
      else none := by
  rw [merge?_eq, a.observations_eq_told]

end TestSynth.Coverage
