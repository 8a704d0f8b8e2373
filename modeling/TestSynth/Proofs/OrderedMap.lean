import Mathlib
import TestSynth.OrderedMap
/-!
Ordered maps stay in order, and what stands at a key is what was last made of it. Maps of maps are
listed by both keys.
-/
namespace TestSynth.OrderedMap

variable {κ ι α : Type}

section
variable [LinearOrder κ] {m : OrderedMap κ α} {key k : κ} {a : α} {f : Option α → α}
  {entries : List (κ × α)}

/-- The keys are strictly increasing. -/
def Ordered (m : OrderedMap κ α) : Prop := m.keys.Pairwise (· < ·)

theorem ordered_empty : (empty : OrderedMap κ α).Ordered := .nil

@[simp] theorem find?_empty : (empty : OrderedMap κ α).find? k = none := rfl

theorem mem_keys_alterEntries : k ∈ (alterEntries key f entries).map (·.1) ↔
    k = key ∨ k ∈ entries.map (·.1) := by
  induction entries with
  | nil => simp [alterEntries]
  | cons e rest ih =>
    rw [alterEntries]
    split
    · simp
    · split
      · next h => simp [h]
      · simp only [List.map_cons, List.mem_cons, ih]
        exact or_left_comm

theorem mem_keys_alter : k ∈ (m.alter key f).keys ↔ k = key ∨ k ∈ m.keys := mem_keys_alterEntries

theorem pairwise_alterEntries (h : (entries.map (·.1)).Pairwise (· < ·)) :
    ((alterEntries key f entries).map (·.1)).Pairwise (· < ·) := by
  induction entries with
  | nil => simp [alterEntries]
  | cons e rest ih =>
    rw [List.map_cons, List.pairwise_cons] at h
    rw [alterEntries]
    split
    · next hlt =>
      refine .cons ?_ (.cons h.1 h.2)
      intro k hk
      rcases List.mem_cons.1 hk with rfl | hk
      · exact hlt
      · exact hlt.trans (h.1 k hk)
    · next hle =>
      split
      · exact .cons h.1 h.2
      · next hne =>
        refine .cons ?_ (ih h.2)
        intro k hk
        rcases mem_keys_alterEntries.1 hk with rfl | hk
        · exact lt_of_le_of_ne (not_lt.1 hle) (Ne.symm hne)
        · exact h.1 k hk

theorem Ordered.alter (h : m.Ordered) : (m.alter key f).Ordered := pairwise_alterEntries h

theorem Ordered.nodup (h : m.Ordered) : m.keys.Nodup := h.imp ne_of_lt

theorem mem_entries_iff (h : m.Ordered) : (k, a) ∈ m.entries ↔ m.find? k = some a := by
  constructor
  · intro hmem
    obtain ⟨entries⟩ := m
    induction entries with
    | nil => cases hmem
    | cons e rest ih =>
      rcases List.mem_cons.1 hmem with rfl | hmem
      · simp [find?]
      · have hrest := List.pairwise_cons.1 h
        have hlt := hrest.1 k (List.mem_map_of_mem hmem)
        have := ih hrest.2 hmem
        simpa [find?, ne_of_lt hlt] using this
  · intro hfind
    obtain ⟨e, he, rfl⟩ := Option.map_eq_some_iff.1 hfind
    have hkey := List.find?_some he
    simp only [decide_eq_true_eq] at hkey
    subst hkey
    exact List.mem_of_find?_eq_some he

theorem contains_iff : m.contains k ↔ k ∈ m.keys := by
  simp [contains, find?, keys]

theorem find?_eq_none_iff : m.find? k = none ↔ k ∉ m.keys := by
  rw [← contains_iff, contains]
  simp

theorem find?_alterEntries (h : (entries.map (·.1)).Pairwise (· < ·)) :
    OrderedMap.find? ⟨alterEntries key f entries⟩ k =
      if k = key then some (f (OrderedMap.find? ⟨entries⟩ key))
      else OrderedMap.find? ⟨entries⟩ k := by
  induction entries with
  | nil =>
    by_cases hk : k = key
    · simp [alterEntries, find?, hk]
    · simp [alterEntries, find?, hk, Ne.symm hk]
  | cons e rest ih =>
    rw [List.map_cons, List.pairwise_cons] at h
    rw [alterEntries]
    split
    · next hlt =>
      -- The key is before all others, so that it is not there yet.
      have hnone : OrderedMap.find? ⟨(e.1, e.2) :: rest⟩ key = none := by
        refine find?_eq_none_iff.2 fun hmem => ?_
        rcases List.mem_cons.1 hmem with heq | hmem
        · exact hlt.ne heq
        · exact (hlt.trans (h.1 key hmem)).false
      rw [hnone]
      by_cases hk : k = key
      · simp [find?, hk]
      · simp [find?, hk, Ne.symm hk]
    · split
      · next heq =>
        subst heq
        by_cases hk : k = e.1
        · simp [find?, hk]
        · simp [find?, hk, Ne.symm hk]
      · next hne =>
        have ih := ih h.2
        by_cases hk : e.1 = k
        · subst hk
          simp [find?, Ne.symm hne]
        · simpa [find?, hk, Ne.symm hne] using ih

theorem find?_alter (h : m.Ordered) : (m.alter key f).find? k =
    if k = key then some (f (m.find? key)) else m.find? k := find?_alterEntries h

/-- The entries are the keys in order, each with what is found there. -/
theorem entries_eq_map [Inhabited α] (h : m.Ordered) :
    m.entries = m.keys.map fun k => (k, (m.find? k).getD default) := by
  rw [keys, List.map_map]
  refine (List.map_id _).symm.trans (List.map_congr_left ?_)
  rintro ⟨k, a⟩ hmem
  simp [(mem_entries_iff h).1 hmem]

/-- A sum over the entries with some keys is one over those keys. -/
theorem sum_filter_entries [Inhabited α] (h : m.Ordered) (p : κ → Bool) (g : α → Nat)
    {keys : Finset κ} (hkeys : ∀ k, k ∈ keys ↔ k ∈ m.keys ∧ p k) :
    ((m.entries.filter fun e => p e.1).map fun e => g e.2).sum =
      ∑ k ∈ keys, g ((m.find? k).getD default) := by
  have hlist : keys = (m.keys.filter p).toFinset := by
    ext k
    simp [hkeys]
  rw [hlist, List.sum_toFinset _ (h.nodup.filter p), entries_eq_map h, List.filter_map,
    List.map_map]
  rfl

end

section
variable {β : Type} [LinearOrder κ] {m : OrderedMap κ α} {key : β → κ} {value : β → α}

theorem Ordered.insert (h : m.Ordered) (k : κ) (a : α) : (m.insert k a).Ordered := h.alter

theorem Ordered.insertNew (h : m.Ordered) (k : κ) (a : α) : (m.insertNew k a).Ordered := h.alter

theorem find?_insert (h : m.Ordered) (k l : κ) (a : α) :
    (m.insert k a).find? l = if l = k then some a else m.find? l := find?_alter h

theorem find?_insertNew (h : m.Ordered) (k l : κ) (a : α) :
    (m.insertNew k a).find? l = if l = k then some ((m.find? k).getD a) else m.find? l :=
  find?_alter h

theorem Ordered.foldl_insert (h : m.Ordered) (as : List β) :
    (as.foldl (fun m a => m.insert (key a) (value a)) m).Ordered := by
  induction as generalizing m with
  | nil => exact h
  | cons a as ih => exact ih (h.insert _ _)

theorem Ordered.foldl_insertNew (h : m.Ordered) (as : List β) :
    (as.foldl (fun m a => m.insertNew (key a) (value a)) m).Ordered := by
  induction as generalizing m with
  | nil => exact h
  | cons a as ih => exact ih (h.insertNew _ _)

/-- Of the values that are inserted at a key the last one stays. -/
theorem find?_foldl_insert (h : m.Ordered) (as : List β) (k : κ) :
    (as.foldl (fun m a => m.insert (key a) (value a)) m).find? k =
      ((as.reverse.find? fun a => key a = k).map value).or (m.find? k) := by
  induction as generalizing m with
  | nil => rfl
  | cons a as ih =>
    rw [List.foldl_cons, ih (h.insert _ _), find?_insert h, List.reverse_cons, List.find?_append]
    cases as.reverse.find? fun a => key a = k with
    | some b => rfl
    | none =>
      by_cases hk : k = key a
      · simp [hk]
      · simp [hk, Ne.symm hk]

/-- Of the values that are inserted at a key only if there is none, the first one stays. -/
theorem find?_foldl_insertNew (h : m.Ordered) (as : List β) (k : κ) :
    (as.foldl (fun m a => m.insertNew (key a) (value a)) m).find? k =
      (m.find? k).or ((as.find? fun a => key a = k).map value) := by
  induction as generalizing m with
  | nil => simp
  | cons a as ih =>
    rw [List.foldl_cons, ih (h.insertNew _ _), find?_insertNew h, List.find?_cons]
    by_cases hk : k = key a
    · subst hk
      cases m.find? (key a) <;> simp
    · simp [hk, Ne.symm hk]

end

section
variable [LinearOrder κ] [LinearOrder ι] {m : OrderedMap κ (OrderedMap ι α)} {key k : κ}
  {place i : ι} {a : α} {f : Option α → α}

/-- A map of maps with everything in it, by both keys. -/
def flat (m : OrderedMap κ (OrderedMap ι α)) : List (κ × ι × α) :=
  m.entries.flatMap fun (k, n) => n.entries.map fun (i, a) => (k, i, a)

/-- What stands at two keys. -/
def findAt? (m : OrderedMap κ (OrderedMap ι α)) (k : κ) (i : ι) : Option α :=
  (m.find? k).bind (·.find? i)

def alterAt (m : OrderedMap κ (OrderedMap ι α)) (key : κ) (place : ι) (f : Option α → α) :
    OrderedMap κ (OrderedMap ι α) :=
  m.alter key fun n => (n.getD .empty).alter place f

/-- All maps are in order, and none of the inner ones is empty. -/
structure Nested (m : OrderedMap κ (OrderedMap ι α)) : Prop where
  ordered : m.Ordered
  inner : ∀ k n, m.find? k = some n → n.Ordered
  inhabited : ∀ k n, m.find? k = some n → ∃ i, i ∈ n.keys

theorem nested_empty : (empty : OrderedMap κ (OrderedMap ι α)).Nested :=
  ⟨ordered_empty, by simp, by simp⟩

theorem Nested.inner_getD (h : m.Nested) : ((m.find? key).getD .empty).Ordered := by
  cases hn : m.find? key with
  | none => exact ordered_empty
  | some n => exact h.inner key n hn

theorem Nested.alterAt (h : m.Nested) : (m.alterAt key place f).Nested where
  ordered := h.ordered.alter
  inner k n hn := by
    rw [OrderedMap.alterAt, find?_alter h.ordered] at hn
    split at hn
    · cases hn
      exact h.inner_getD.alter
    · exact h.inner k n hn
  inhabited k n hn := by
    rw [OrderedMap.alterAt, find?_alter h.ordered] at hn
    split at hn
    · cases hn
      exact ⟨place, mem_keys_alter.2 (.inl rfl)⟩
    · exact h.inhabited k n hn

theorem findAt?_alterAt (h : m.Nested) : (m.alterAt key place f).findAt? k i =
    if k = key ∧ i = place then some (f (m.findAt? key place)) else m.findAt? k i := by
  rw [findAt?, alterAt, find?_alter h.ordered]
  by_cases hk : k = key
  · subst hk
    simp only [if_true, true_and, Option.bind_some, find?_alter h.inner_getD, findAt?]
    cases m.find? k <;> simp
  · simp [hk, findAt?]

theorem mem_flat (h : m.Nested) : (k, i, a) ∈ m.flat ↔ m.findAt? k i = some a := by
  simp only [flat, List.mem_flatMap, List.mem_map, Prod.exists, Prod.mk.injEq, findAt?,
    Option.bind_eq_some_iff]
  constructor
  · rintro ⟨k', n, hn, i', a', ha, rfl, rfl, rfl⟩
    have hn := (mem_entries_iff h.ordered).1 hn
    exact ⟨n, hn, (mem_entries_iff (h.inner k' n hn)).1 ha⟩
  · rintro ⟨n, hn, ha⟩
    exact ⟨k, n, (mem_entries_iff h.ordered).2 hn, i, a,
      (mem_entries_iff (h.inner k n hn)).2 ha, rfl, rfl, rfl⟩

/-- A key of the outer map is one of the keys of something. -/
theorem mem_keys_iff (h : m.Nested) : k ∈ m.keys ↔ ∃ i a, m.findAt? k i = some a := by
  constructor
  · intro hk
    obtain ⟨⟨k, n⟩, hmem, rfl⟩ := List.mem_map.1 hk
    have hn := (mem_entries_iff h.ordered).1 hmem
    obtain ⟨i, hi⟩ := h.inhabited k n hn
    obtain ⟨⟨i, a⟩, hmem, rfl⟩ := List.mem_map.1 hi
    exact ⟨i, a, by simp [findAt?, hn, (mem_entries_iff (h.inner k n hn)).1 hmem]⟩
  · rintro ⟨i, a, ha⟩
    obtain ⟨n, hn, _⟩ := Option.bind_eq_some_iff.1 ha
    exact List.mem_map_of_mem ((mem_entries_iff h.ordered).2 hn)

/-- Everything is listed by the first key and then by the second. -/
theorem Nested.pairwise_flat (h : m.Nested) :
    (m.flat.map fun e => toLex (e.1, e.2.1)).Pairwise (· < ·) := by
  rw [List.pairwise_map, flat, List.pairwise_flatMap]
  constructor
  · rintro ⟨k, n⟩ hmem
    have hn := h.inner k n ((mem_entries_iff h.ordered).1 hmem)
    rw [List.pairwise_map]
    refine (List.pairwise_map.1 hn).imp fun hlt => ?_
    exact Prod.Lex.toLex_lt_toLex.2 (.inr ⟨rfl, hlt⟩)
  · refine (List.pairwise_map.1 h.ordered).imp fun hlt => ?_
    intro x hx y hy
    obtain ⟨_, _, rfl⟩ := List.mem_map.1 hx
    obtain ⟨_, _, rfl⟩ := List.mem_map.1 hy
    exact Prod.Lex.toLex_lt_toLex.2 (.inl hlt)

/-- Everything is what stands at the pairs of keys, in order. -/
theorem flat_eq_map_sort [Inhabited α] (h : m.Nested) {pairs : Finset (κ ×ₗ ι)}
    (hpairs : ∀ k i, toLex (k, i) ∈ pairs ↔ (m.findAt? k i).isSome) :
    m.flat = pairs.sort.map fun p =>
      ((ofLex p).1, (ofLex p).2, (m.findAt? (ofLex p).1 (ofLex p).2).getD default) := by
  have hlt := h.pairwise_flat
  have hset : pairs = (m.flat.map fun e => toLex (e.1, e.2.1)).toFinset := by
    ext p
    obtain ⟨⟨k, i⟩, rfl⟩ := toLex.surjective p
    simp [hpairs, mem_flat h, Option.isSome_iff_exists]
  have hsort : pairs.sort = m.flat.map fun e => toLex (e.1, e.2.1) := by
    rw [hset]
    exact (List.toFinset_sort _ (hlt.imp ne_of_lt)).2 (hlt.imp le_of_lt)
  rw [hsort, List.map_map]
  refine (List.map_id _).symm.trans (List.map_congr_left ?_)
  rintro ⟨k, i, a⟩ hmem
  simp [(mem_flat h).1 hmem]

end

end TestSynth.OrderedMap
