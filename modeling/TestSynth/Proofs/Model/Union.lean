import Mathlib
import TestSynth.Proofs.Model.Table
/-!
Tables of the classes of one header. They are told by their entries, and adding the classes of one
to another is adding the definitions it was made of.
-/
namespace TestSynth

theorem Path.order_self (p : Path) : p.order p = .eq := by
  have hcomponent : ∀ c : Path.Component, c.order c = .eq := fun c => by
    cases c <;> simp [Path.Component.order]
  rw [order]
  induction p.components with
  | nil => rfl
  | cons c cs ih => simp [orderComponents, hcomponent, ih]

theorem SourceUnit.order_self (u : SourceUnit) : u.order u = .eq := by
  simp [order, u.path.order_self]

/-- Keys of one header are ordered by their names. -/
theorem ClassKey.order_of_header {k l : ClassKey} (h : k.header = l.header) :
    k.order l = compare k.className l.className := by
  rw [order, h, l.header.order_self]
  rfl

namespace ModelTable

open ClassModel

section OneHeader
variable {header : SourceUnit} {k : ClassKey} {c : ClassModel} {cs : List ClassModel}
  {s t : ModelTable} {entries : List (ClassKey × ClassModel)}

/-- The names of the keys are strictly increasing. -/
def Sorted (entries : List (ClassKey × ClassModel)) : Prop :=
  (entries.map (·.1.className)).Pairwise (· < ·)

theorem Sorted.insertEntry (h : Sorted entries) (hheader : ∀ e ∈ entries, k.header = e.1.header)
    (hnew : ∀ e ∈ entries, e.1.className ≠ k.className) : Sorted (insertEntry k c entries) := by
  induction entries with
  | nil => exact List.pairwise_singleton _ _
  | cons e entries ih =>
    have htail := (insertEntry_perm (c := c) (List.forall_mem_cons.1 hnew).2).map (·.1.className)
    rw [Sorted, List.map_cons, List.pairwise_cons] at h
    rw [List.forall_mem_cons] at hheader hnew
    rw [ModelTable.insertEntry, ClassKey.order_of_header hheader.1]
    split
    · next hlt =>
      have hlt := compare_lt_iff_lt.1 hlt
      refine .cons ?_ (.cons h.1 h.2)
      intro x hx
      rcases List.mem_cons.1 hx with rfl | hx
      · exact hlt
      · exact hlt.trans (h.1 x hx)
    · next heq => exact absurd (compare_eq_iff_eq.1 heq).symm hnew.1
    · next hgt =>
      refine .cons ?_ (ih h.2 hheader.2 hnew.2)
      intro x hx
      rcases List.mem_cons.1 (htail.mem_iff.1 hx) with rfl | hx
      · exact compare_gt_iff_gt.1 hgt
      · exact h.1 x hx

/-- A table as the definitions in one header make it. -/
structure Listed (header : SourceUnit) (t : ModelTable) : Prop extends Keyed t where
  key : ∀ e ∈ t.classes, e.1.header = header
  model : ∀ e ∈ t.classes, e.2.header = header
  sorted : Sorted t.classes
  bases : ∀ e ∈ t.classes, e.2.bases.Ordered

theorem listed_empty : Listed header {} := ⟨keyed_empty, by simp, by simp, .nil, by simp⟩

theorem Listed.insert (h : Listed header t) (hheader : c.header = header)
    (hbases : c.bases.Ordered) : Listed header (t.insert c) where
  toKeyed := h.toKeyed.insert c
  key := h.forall_mem_insert h.key hheader fun _ _ he => he
  model := h.forall_mem_insert h.model hheader fun _ _ he => he
  sorted := by
    rcases h.mergeInto?_cases c with ⟨-, hmerge, hnew⟩ | ⟨f, -, hmerge⟩
    · rw [ModelTable.insert, hmerge]
      exact h.sorted.insertEntry (fun e he => hheader.trans (h.key e he).symm) hnew
    · rw [ModelTable.insert, hmerge, Sorted, List.map_map]
      have hnames := h.sorted
      rw [Sorted] at hnames
      convert hnames using 2
      funext e
      rw [Function.comp_apply]
      split <;> rfl
  bases := h.forall_mem_insert h.bases hbases fun _ _ he => he.union _

theorem Listed.foldl_insert (h : Listed header t)
    (hcs : ∀ c ∈ cs, c.header = header ∧ c.bases.Ordered) :
    Listed header (cs.foldl ModelTable.insert t) := by
  induction cs generalizing t with
  | nil => exact h
  | cons c cs ih =>
    rw [List.forall_mem_cons] at hcs
    exact ih (h.insert hcs.1.1 hcs.1.2) hcs.2

theorem Listed.models (h : Listed header t) :
    ∀ c ∈ t.models, c.header = header ∧ c.bases.Ordered := by
  rw [ModelTable.models, List.forall_mem_map]
  exact fun e he => ⟨h.model e he, h.bases e he⟩

/-- The classes of such a table are told by its entries. -/
theorem Listed.classes_eq (hs : Listed header s) (ht : Listed header t)
    (h : ∀ name, s.lookup? name = t.lookup? name) : s.classes = t.classes := by
  have hmem : ∀ e, e ∈ s.classes ↔ e ∈ t.classes := fun e => by
    have hsome : s.lookup? e.2.qualifiedName = some e ↔ _ := hs.lookup?_eq_some_iff
    rw [h, ht.lookup?_eq_some_iff] at hsome
    simpa using hsome.symm
  have hlt : ∀ {u : ModelTable}, Listed header u →
      u.classes.Pairwise fun e f => e.1.className < f.1.className :=
    fun hu => List.pairwise_map.1 hu.sorted
  have hne : ∀ {u : ModelTable}, Listed header u → u.classes.Nodup := fun hu =>
    (hlt hu).imp fun hlt heq => (heq ▸ hlt).ne rfl
  have hperm := (List.perm_ext_iff_of_nodup (hne hs) (hne ht)).2 hmem
  exact hperm.eq_of_pairwise (fun e f _ _ hef hfe => (lt_asymm hef hfe).elim) (hlt hs) (hlt ht)

theorem named_eq_find? (h : (cs.map (·.qualifiedName)).Nodup) (name : String) :
    named name cs = (cs.find? (·.qualifiedName == name)).toList := by
  induction cs with
  | nil => rfl
  | cons c cs ih =>
    rw [List.map_cons, List.nodup_cons] at h
    rw [named_cons, List.find?_cons]
    split
    · next hname =>
      have hrest : named name cs = [] := List.filter_eq_nil_iff.2 fun d hd heq =>
        h.1 (hname ▸ eq_of_beq heq ▸ List.mem_map_of_mem hd)
      simp [hname, hrest]
    · next hname => rw [ih h.2, beq_eq_false_iff_ne.2 hname]

theorem Keyed.named_models (h : t.Keyed) (name : String) :
    named name t.models = ((t.lookup? name).map (·.2)).toList := by
  have hnodup : (t.models.map (·.qualifiedName)).Nodup := by
    rw [models, List.map_map]
    exact h.nodup
  rw [named_eq_find? hnodup, models, List.find?_map, lookup?]
  rfl

theorem foldl_merge_merge (h : c.bases.Ordered) (d : ClassModel) (ds : List ClassModel) :
    ds.foldl merge (c.merge d) = c.merge (ds.foldl merge d) := by
  induction ds generalizing d with
  | nil => rfl
  | cons e ds ih => rw [List.foldl_cons, List.foldl_cons, merge_assoc h, ih]

/-- Adding the classes of a table is adding the definitions that it was made of. -/
theorem Listed.lookup?_foldl_models (h : Listed header t) (cs : List ClassModel) (name : String) :
    ((cs.foldl ModelTable.insert {}).models.foldl ModelTable.insert t).lookup? name =
      (cs.foldl ModelTable.insert t).lookup? name := by
  have hkeyed := keyed_empty.foldl_insert cs
  rw [h.lookup?_foldl_insert, h.lookup?_foldl_insert, hkeyed.named_models, lookup?_definitions]
  cases named name cs with
  | nil => rfl
  | cons d ds =>
    simp only [entryOf, Option.map_some, Option.toList_some, List.foldl_cons, List.foldl_nil]
    cases hfound : t.lookup? name with
    | none =>
      rw [joined, joined, foldl_joined_some, header_foldl_merge, qualifiedName_foldl_merge]
    | some e =>
      have hbases := h.bases e (h.lookup?_eq_some_iff.1 hfound).1
      rw [joined, joined, foldl_joined_some, foldl_merge_merge hbases]

end OneHeader

end ModelTable

end TestSynth
