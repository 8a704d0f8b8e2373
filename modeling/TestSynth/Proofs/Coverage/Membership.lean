import TestSynth.Proofs.Coverage.Merging
/-!
What of a snapshot depends on which observations there are, and not on their order or number: the
items and their counts, the files that are known by summaries only, and how much the best summary
of a file covers.
-/
namespace TestSynth.Coverage

variable {ι ρ α : Type} {found found' : List Observation}

section Highest
variable {xs ys : List UInt64} {b n : UInt64}

theorem foldl_max_le_iff : xs.foldl max b ≤ n ↔ b ≤ n ∧ ∀ x ∈ xs, x ≤ n := by
  have hmax : ∀ x y : UInt64, max x y ≤ n ↔ x ≤ n ∧ y ≤ n := by
    intro x y
    rw [UInt64.max_def]
    split_ifs with h
    · exact ⟨fun hy => ⟨UInt64.le_trans h hy, hy⟩, And.right⟩
    · exact ⟨fun hx => ⟨hx, UInt64.le_trans (UInt64.le_of_lt (UInt64.not_le.1 h)) hx⟩, And.left⟩
  induction xs generalizing b with
  | nil => simp
  | cons x rest ih => simp [ih, hmax, and_assoc]

/-- The highest of some numbers is told by which numbers they are. -/
theorem foldl_max_congr (h : ∀ x, x ∈ xs ↔ x ∈ ys) : xs.foldl max b = ys.foldl max b := by
  have hle : ∀ n, xs.foldl max b ≤ n ↔ ys.foldl max b ≤ n := by
    intro n
    simp only [foldl_max_le_iff, h]
  exact UInt64.le_antisymm ((hle _).2 (UInt64.le_refl _)) ((hle _).1 (UInt64.le_refl _))

end Highest

section Best
variable {l₁ l₂ : List α} {f : α → Nat} {m : α}

/-- The first of the best in two lists is the first of the best in one of them. -/
theorem mem_argmax_append (h : m ∈ (l₁ ++ l₂).argmax f) : m ∈ l₁.argmax f ∨ m ∈ l₂.argmax f := by
  induction l₁ generalizing m with
  | nil => exact .inr h
  | cons a rest ih =>
    rw [List.cons_append, List.argmax_cons] at h
    rw [List.argmax_cons]
    -- The best of the rest of both lists covers at least as much as the best of the first's.
    have hle : ∀ d ∈ rest.argmax f, ∃ c ∈ (rest ++ l₂).argmax f, f d ≤ f c := by
      intro d hd
      have hmem := List.mem_append_left l₂ (List.argmax_mem hd)
      cases hc : (rest ++ l₂).argmax f with
      | none => simp [List.argmax_eq_none.1 hc] at hmem
      | some c => exact ⟨c, rfl, List.le_of_mem_argmax hmem hc⟩
    cases hc : (rest ++ l₂).argmax f with
    | none =>
      have hnil := List.append_eq_nil_iff.1 (List.argmax_eq_none.1 hc)
      rw [hc] at h
      simpa [hnil.1, hnil.2] using h
    | some c =>
      rw [hc] at h
      dsimp only at h
      split_ifs at h with hlt
      · cases h
        refine (ih hc).imp_left fun hrest => ?_
        rw [hrest]
        simp [hlt]
      · cases h
        left
        cases hd : rest.argmax f with
        | none => rfl
        | some d =>
          obtain ⟨c', hc', hdc⟩ := hle d hd
          cases hc.symm.trans hc'
          have hnot : ¬ f a < f d := fun hlt' => hlt (hlt'.trans_le hdc)
          simp [hnot]

theorem mem_argmax_flatMap {β : Type} {lists : List β} {g : β → List α}
    (h : m ∈ (lists.flatMap g).argmax f) : ∃ x ∈ lists, m ∈ (g x).argmax f := by
  induction lists with
  | nil => simp at h
  | cons x rest ih =>
    rcases mem_argmax_append h with hx | hrest
    · exact ⟨x, List.mem_cons_self, hx⟩
    · obtain ⟨y, hy, hm⟩ := ih hrest
      exact ⟨y, List.mem_cons_of_mem x hy, hm⟩

/-- Repeating what was there changes nothing about the first of the best. -/
theorem argmax_append_of_subset [DecidableEq α] (h : l₂ ⊆ l₁) :
    (l₁ ++ l₂).argmax f = l₁.argmax f := by
  have hmem : ∀ a, a ∈ l₁ ++ l₂ ↔ a ∈ l₁ := by
    intro a
    rw [List.mem_append]
    exact ⟨fun ha => ha.elim id fun ha => h ha, .inl⟩
  ext m
  rw [← Option.mem_def, ← Option.mem_def, List.mem_argmax_iff, List.mem_argmax_iff]
  simp only [hmem]
  refine and_congr_right fun hm => and_congr_right fun _ => forall₂_congr fun a ha => ?_
  rw [List.idxOf_append_of_mem hm, List.idxOf_append_of_mem ha]

end Best

section Items
variable [LinearOrder ι] {kind : Fact → Option (ι × ρ)}

theorem mem_recordsAt {file : String} {item : ι} {r : ρ} :
    r ∈ recordsAt kind found file item ↔
      ∃ o ∈ found, o.file = file ∧ kind o.fact = some (item, r) := by
  rw [recordsAt, List.mem_filterMap]
  refine exists_congr fun o => and_congr_right fun _ => ?_
  by_cases hfile : o.file = file
  · rw [if_pos hfile]
    cases hkind : kind o.fact with
    | none => simp
    | some p =>
      obtain ⟨i, q⟩ := p
      by_cases hitem : i = item <;> simp [hfile, hitem, Option.filter]
  · simp [hfile]

theorem mem_summariesOf {kind : Fact → Option Ratio} {file : String} {s : Ratio} :
    s ∈ summariesOf kind found file ↔ ∃ o ∈ found, o.file = file ∧ kind o.fact = some s := by
  rw [summariesOf, List.mem_filterMap]
  refine exists_congr fun o => and_congr_right fun _ => ?_
  by_cases hfile : o.file = file <;> simp [hfile]

/-- A file in summary has a best summary. -/
theorem bestSummary_mem {items : Fact → Option (ι × ρ)} {kind : Fact → Option Ratio} {file : String}
    (h : file ∈ filesInSummary items kind found) :
    bestSummary kind found file ∈ summariesOf kind found file := by
  obtain ⟨o, ho, rfl⟩ := List.mem_map.1 (List.mem_toFinset.1 (Finset.mem_filter.1 h).1)
  obtain ⟨hmem, hsome⟩ := List.mem_filter.1 ho
  obtain ⟨s, hs⟩ := Option.isSome_iff_exists.1 hsome
  have hne : summariesOf kind found o.file ≠ [] :=
    List.ne_nil_of_mem (List.mem_filterMap.2 ⟨o, hmem, by rw [if_pos rfl, hs]⟩)
  unfold bestSummary
  cases hbest : (summariesOf kind found o.file).argmax (·.1.toNat) with
  | none => exact absurd (List.argmax_eq_none.1 hbest) hne
  | some s => exact List.argmax_mem hbest

variable (h : ∀ o, o ∈ found ↔ o ∈ found')
include h

theorem mem_recordsAt_congr (file : String) (item : ι) (r : ρ) :
    r ∈ recordsAt kind found file item ↔ r ∈ recordsAt kind found' file item := by
  simp only [mem_recordsAt, h]

theorem itemsOf_congr : itemsOf kind found = itemsOf kind found' := by
  rw [itemsOf, itemsOf]
  congr 1
  ext k
  simp only [List.mem_toFinset, List.mem_filterMap, h]

theorem hitsAt_congr : hitsAt found = hitsAt found' := by
  funext k
  refine foldl_max_congr fun x => ?_
  simp only [List.mem_map, mem_recordsAt_congr h]

theorem callsAt_congr : callsAt found = callsAt found' := by
  funext k
  exact foldl_max_congr fun x => mem_recordsAt_congr h _ _ x

theorem filesInSummary_congr {summary : Fact → Option Ratio} :
    filesInSummary kind summary found = filesInSummary kind summary found' := by
  ext file
  simp only [filesInSummary, Finset.mem_filter, List.mem_toFinset, List.mem_map, List.mem_filter,
    itemsOf_congr h, h]

/-- How much the best summary covers is told by which summaries there are. -/
theorem bestSummary_covered_congr (kind : Fact → Option Ratio) (file : String) :
    (bestSummary kind found file).1 = (bestSummary kind found' file).1 := by
  have hmem : ∀ s, s ∈ summariesOf kind found file ↔ s ∈ summariesOf kind found' file := by
    intro s
    simp only [mem_summariesOf, h]
  unfold bestSummary
  cases hb : (summariesOf kind found file).argmax (·.1.toNat) with
  | none =>
    have hnil : summariesOf kind found' file = [] :=
      List.eq_nil_iff_forall_not_mem.2 fun s hs => by
        simpa [List.argmax_eq_none.1 hb] using (hmem s).2 hs
    rw [hnil]
    rfl
  | some s =>
    have hs := (hmem s).1 (List.argmax_mem hb)
    cases hb' : (summariesOf kind found' file).argmax (·.1.toNat) with
    | none => simp [List.argmax_eq_none.1 hb'] at hs
    | some s' =>
      have hs' := (hmem s').2 (List.argmax_mem hb')
      have hle := List.le_of_mem_argmax (f := fun s : Ratio => s.1.toNat) hs hb'
      have hge := List.le_of_mem_argmax (f := fun s : Ratio => s.1.toNat) hs' hb
      exact UInt64.toNat_inj.1 (le_antisymm hle hge)

end Items

section Counters
variable (h : ∀ o, o ∈ found ↔ o ∈ found')
include h

theorem sum_bestSummary_congr [LinearOrder ι] {items : Fact → Option (ι × ρ)}
    {kind : Fact → Option Ratio} (g : Ratio → Nat)
    (hbest : ∀ file ∈ filesInSummary items kind found,
      g (bestSummary kind found file) = g (bestSummary kind found' file)) :
    ∑ file ∈ filesInSummary items kind found, g (bestSummary kind found file) =
      ∑ file ∈ filesInSummary items kind found', g (bestSummary kind found' file) := by
  rw [← filesInSummary_congr h]
  exact Finset.sum_congr rfl hbest

theorem sum_covered_congr [LinearOrder ι] (items : Fact → Option (ι × ρ))
    (kind : Fact → Option Ratio) :
    ∑ file ∈ filesInSummary items kind found, (bestSummary kind found file).1.toNat =
      ∑ file ∈ filesInSummary items kind found', (bestSummary kind found' file).1.toNat :=
  sum_bestSummary_congr h (fun s => s.1.toNat) fun file _ =>
    congrArg UInt64.toNat (bestSummary_covered_congr h kind file)

theorem linesCovered_congr :
    (countersOf found).linesCovered = (countersOf found').linesCovered := by
  unfold countersOf
  dsimp only
  rw [itemsOf_congr h, hitsAt_congr h, sum_covered_congr h]

theorem functionsCovered_congr :
    (countersOf found).functionsCovered = (countersOf found').functionsCovered := by
  unfold countersOf
  dsimp only
  rw [itemsOf_congr h, callsAt_congr h, sum_covered_congr h]

/-- Counters are told by which observations there are and by the best summaries. -/
theorem countersOf_congr
    (hlines : ∀ file ∈ filesInSummary Fact.line? Fact.lineSummary? found,
      bestSummary Fact.lineSummary? found file = bestSummary Fact.lineSummary? found' file)
    (hfunctions : ∀ file ∈ filesInSummary Fact.function? Fact.functionSummary? found,
      bestSummary Fact.functionSummary? found file =
        bestSummary Fact.functionSummary? found' file) :
    countersOf found = countersOf found' := by
  have hlines := sum_bestSummary_congr h (fun s => s.2.toNat) fun file hfile =>
    congrArg (fun s : Ratio => s.2.toNat) (hlines file hfile)
  have hfunctions := sum_bestSummary_congr h (fun s => s.2.toNat) fun file hfile =>
    congrArg (fun s : Ratio => s.2.toNat) (hfunctions file hfile)
  unfold countersOf
  rw [hlines, hfunctions, sum_covered_congr h, sum_covered_congr h, itemsOf_congr h,
    itemsOf_congr h, hitsAt_congr h, callsAt_congr h]

end Counters

end TestSynth.Coverage
