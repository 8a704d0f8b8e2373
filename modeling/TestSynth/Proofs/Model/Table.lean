import Mathlib
import TestSynth.Model.Table
import TestSynth.Proofs.NameSet
/-!
A table holds one entry for a qualified class name: all definitions of that name as one, under the
header of the first. Whatever it is filled with, nothing is lost.
-/
namespace TestSynth

namespace ClassModel

variable {c d : ClassModel} {ds : List ClassModel} {name : String}

/-- The definitions of that name, in order. -/
def named (name : String) (ds : List ClassModel) : List ClassModel :=
  ds.filter (·.qualifiedName == name)

@[simp] theorem named_cons : named name (d :: ds) =
    if d.qualifiedName = name then d :: named name ds else named name ds := by
  simp only [named, List.filter_cons, beq_iff_eq]

theorem mem_named : c ∈ named name ds ↔ c ∈ ds ∧ c.qualifiedName = name := by
  simp [named]

@[simp] theorem qualifiedName_merge : (c.merge d).qualifiedName = c.qualifiedName := rfl

theorem qualifiedName_foldl_merge : (ds.foldl merge c).qualifiedName = c.qualifiedName := by
  induction ds generalizing c with
  | nil => rfl
  | cons d ds ih => rw [List.foldl_cons, ih, qualifiedName_merge]

theorem header_foldl_merge : (ds.foldl merge c).header = c.header := by
  induction ds generalizing c with
  | nil => rfl
  | cons d ds ih =>
    rw [List.foldl_cons, ih]
    rfl

theorem merge_assoc (h : c.bases.Ordered) (d e : ClassModel) :
    (c.merge d).merge e = c.merge (d.merge e) := by
  simp only [merge, h.union_assoc, List.append_assoc, Bool.or_assoc, Nat.add_assoc]

/-- What the definitions of a class say together. -/
structure Joins (ds : List ClassModel) (c : ClassModel) : Prop where
  methods : c.methods = ds.flatMap (·.methods)
  memberVariables : c.memberVariables = ds.flatMap (·.memberVariables)
  bases : ∀ b, b ∈ c.bases.members ↔ ∃ d ∈ ds, b ∈ d.bases.members
  hasDefaultConstructor : c.hasDefaultConstructor = ds.any (·.hasDefaultConstructor)
  isAbstract : c.isAbstract = ds.any (·.isAbstract)
  isStruct : c.isStruct = ds.any (·.isStruct)
  hasNonPublicDestructor : c.hasNonPublicDestructor = ds.any (·.hasNonPublicDestructor)
  declaredConstructors : c.declaredConstructors = (ds.map (·.declaredConstructors)).sum

theorem joins_singleton : Joins [c] c := by
  constructor <;> simp

theorem Joins.merge (h : Joins ds c) (d : ClassModel) : Joins (ds ++ [d]) (c.merge d) := by
  constructor
  · simp [ClassModel.merge, h.methods]
  · simp [ClassModel.merge, h.memberVariables]
  · intro b
    simp only [ClassModel.merge, NameSet.mem_union, h.bases, List.mem_append, List.mem_singleton,
      or_and_right, exists_or, exists_eq_left]
  · simp [ClassModel.merge, h.hasDefaultConstructor]
  · simp [ClassModel.merge, h.isAbstract]
  · simp [ClassModel.merge, h.isStruct]
  · simp [ClassModel.merge, h.hasNonPublicDestructor]
  · simp [ClassModel.merge, h.declaredConstructors]

theorem joins_foldl_merge (c : ClassModel) (ds : List ClassModel) :
    Joins (c :: ds) (ds.foldl ClassModel.merge c) := by
  induction ds using List.reverseRecOn with
  | nil => exact joins_singleton
  | append_singleton ds d ih =>
    rw [List.foldl_append, List.foldl_cons, List.foldl_nil, ← List.cons_append]
    exact ih.merge d

end ClassModel

namespace ModelTable

open ClassModel

section Entries
variable {k : ClassKey} {c : ClassModel} {entries : List (ClassKey × ClassModel)}

theorem insertEntry_perm (h : ∀ e ∈ entries, e.1.className ≠ k.className) :
    (insertEntry k c entries).Perm ((k, c) :: entries) := by
  induction entries with
  | nil => exact .refl _
  | cons e entries ih =>
    rw [List.forall_mem_cons] at h
    rw [insertEntry]
    split
    · exact .refl _
    · next heq =>
      rw [ClassKey.order, Ordering.then_eq_eq] at heq
      exact absurd (compare_eq_iff_eq.1 heq.2).symm h.1
    · exact (List.Perm.cons e (ih h.2)).trans (.swap _ _ _)

theorem mergeInto?_eq_none (h : ∀ e ∈ entries, e.2.qualifiedName ≠ c.qualifiedName) :
    mergeInto? c entries = none := by
  induction entries with
  | nil => rfl
  | cons e entries ih =>
    rw [List.forall_mem_cons] at h
    rw [mergeInto?, if_neg (by simpa using h.1), ih h.2]
    rfl

/-- Where no name has two entries, merging changes the entry of its name. -/
theorem mergeInto?_eq_some (hnodup : (entries.map (·.2.qualifiedName)).Nodup)
    (hmem : c.qualifiedName ∈ entries.map (·.2.qualifiedName)) :
    mergeInto? c entries = some (entries.map fun e =>
      if e.2.qualifiedName = c.qualifiedName then (e.1, e.2.merge c) else e) := by
  induction entries with
  | nil => cases hmem
  | cons e entries ih =>
    rw [List.map_cons, List.nodup_cons] at hnodup
    rw [mergeInto?]
    by_cases he : e.2.qualifiedName = c.qualifiedName
    · have hrest : entries.map (fun e => if e.2.qualifiedName = c.qualifiedName then
          (e.1, e.2.merge c) else e) = entries := by
        refine (List.map_congr_left fun f hf => ?_).trans (List.map_id _)
        rw [if_neg, id]
        rintro hname
        exact hnodup.1 (he ▸ hname ▸ List.mem_map_of_mem hf)
      rw [if_pos (by simpa using he), List.map_cons, if_pos he, hrest]
    · rw [List.map_cons, List.mem_cons] at hmem
      rw [if_neg (by simpa using he), ih hnodup.2 (hmem.resolve_left (Ne.symm he)), List.map_cons,
        if_neg he]
      rfl

end Entries

section Lookup
variable {t : ModelTable} {c : ClassModel} {cs ds : List ClassModel} {name : String}
  {e : ClassKey × ClassModel}

/-- The entry of a qualified name. -/
def lookup? (t : ModelTable) (name : String) : Option (ClassKey × ClassModel) :=
  t.classes.find? (·.2.qualifiedName == name)

/-- Every entry stands under its own name, and no name has two. -/
structure Keyed (t : ModelTable) : Prop where
  className : ∀ e ∈ t.classes, e.1.className = e.2.qualifiedName
  nodup : (t.classes.map (·.2.qualifiedName)).Nodup

theorem keyed_empty : Keyed {} := ⟨by simp, by simp⟩

theorem Keyed.of_classes_eq {s : ModelTable} (h : t.Keyed) (heq : s.classes = t.classes) :
    s.Keyed := by
  constructor <;> rw [heq]
  · exact h.className
  · exact h.nodup

theorem Keyed.lookup?_eq_some_iff (h : t.Keyed) :
    t.lookup? name = some e ↔ e ∈ t.classes ∧ e.2.qualifiedName = name := by
  constructor
  · intro he
    exact ⟨List.mem_of_find?_eq_some he, by simpa using List.find?_some he⟩
  · rintro ⟨hmem, hname⟩
    obtain ⟨classes, functions⟩ := t
    have hnodup := h.nodup
    clear h
    induction classes with
    | nil => cases hmem
    | cons f classes ih =>
      rw [List.map_cons, List.nodup_cons] at hnodup
      rcases List.mem_cons.1 hmem with rfl | hmem
      · simp [lookup?, hname]
      · have hf : f.2.qualifiedName ≠ name := by
          rintro hf
          exact hnodup.1 (hf ▸ hname ▸ List.mem_map_of_mem hmem)
        have := ih hmem hnodup.2
        simpa [lookup?, hf] using this

theorem lookup?_eq_none_iff :
    t.lookup? name = none ↔ name ∉ t.classes.map (·.2.qualifiedName) := by
  simp [lookup?]

/-- A definition merges into the entry of its name, or there is none and no key of that name. -/
theorem Keyed.mergeInto?_cases (h : t.Keyed) (c : ClassModel) :
    (t.lookup? c.qualifiedName = none ∧ mergeInto? c t.classes = none ∧
      ∀ e ∈ t.classes, e.1.className ≠ c.qualifiedName) ∨
    ∃ f, t.lookup? c.qualifiedName = some f ∧
      mergeInto? c t.classes = some (t.classes.map fun e =>
        if e.2.qualifiedName = c.qualifiedName then (e.1, e.2.merge c) else e) := by
  cases hfound : t.lookup? c.qualifiedName with
  | none =>
    have hnew : ∀ e ∈ t.classes, e.2.qualifiedName ≠ c.qualifiedName := fun e he heq =>
      lookup?_eq_none_iff.1 hfound (heq ▸ List.mem_map_of_mem he)
    exact .inl ⟨rfl, mergeInto?_eq_none hnew, fun e he =>
      (h.className e he).trans_ne (hnew e he)⟩
  | some f =>
    obtain ⟨hf, hname⟩ := h.lookup?_eq_some_iff.1 hfound
    exact .inr ⟨f, rfl, mergeInto?_eq_some h.nodup (List.mem_map.2 ⟨f, hf, hname⟩)⟩

/-- What a further definition makes of the entry of its name. -/
def joined (c : ClassModel) : Option (ClassKey × ClassModel) → ClassKey × ClassModel
  | some e => (e.1, e.2.merge c)
  | none => (⟨c.header, c.qualifiedName⟩, c)

theorem Keyed.mem_insert (h : t.Keyed) :
    e ∈ (t.insert c).classes ↔ e = joined c (t.lookup? c.qualifiedName) ∨
      e ∈ t.classes ∧ e.2.qualifiedName ≠ c.qualifiedName := by
  rcases h.mergeInto?_cases c with ⟨hfound, hmerge, hnew⟩ | ⟨f, hfound, hmerge⟩
  · have hperm := insertEntry_perm (c := c) (k := ⟨c.header, c.qualifiedName⟩) hnew
    rw [insert, hmerge, hfound]
    simp only [hperm.mem_iff, List.mem_cons, joined]
    exact or_congr_right (and_iff_left_of_imp fun he heq =>
      hnew e he ((h.className e he).trans heq)).symm
  · obtain ⟨hf, hname⟩ := h.lookup?_eq_some_iff.1 hfound
    rw [insert, hmerge, hfound]
    simp only [List.mem_map, joined]
    constructor
    · rintro ⟨g, hg, rfl⟩
      split
      · next heq =>
        have := (h.lookup?_eq_some_iff.2 ⟨hg, heq⟩).symm.trans hfound
        cases this
        exact .inl rfl
      · next hne => exact .inr ⟨hg, hne⟩
    · rintro (rfl | ⟨he, hne⟩)
      · exact ⟨f, hf, by rw [if_pos hname]⟩
      · exact ⟨e, he, by rw [if_neg hne]⟩

/-- What holds of new entries, and goes on to hold when a definition is merged in, is kept. -/
theorem Keyed.forall_mem_insert {motive : ClassKey × ClassModel → Prop} (h : t.Keyed)
    (hall : ∀ e ∈ t.classes, motive e) (hnew : motive (⟨c.header, c.qualifiedName⟩, c))
    (hmerge : ∀ e, e.2.qualifiedName = c.qualifiedName → motive e → motive (e.1, e.2.merge c)) :
    ∀ e ∈ (t.insert c).classes, motive e := by
  intro e he
  rcases h.mem_insert.1 he with rfl | ⟨he, -⟩
  · cases hfound : t.lookup? c.qualifiedName with
    | none => exact hnew
    | some f =>
      obtain ⟨hf, hname⟩ := h.lookup?_eq_some_iff.1 hfound
      exact hmerge f hname (hall f hf)
  · exact hall e he

theorem Keyed.insert (h : t.Keyed) (c : ClassModel) : (t.insert c).Keyed where
  className := h.forall_mem_insert h.className rfl fun _ _ he => he
  nodup := by
    rcases h.mergeInto?_cases c with ⟨hfound, hmerge, hnew⟩ | ⟨f, hfound, hmerge⟩
    · have hperm := insertEntry_perm (c := c) (k := ⟨c.header, c.qualifiedName⟩) hnew
      rw [ModelTable.insert, hmerge, (hperm.map (·.2.qualifiedName)).nodup_iff, List.map_cons,
        List.nodup_cons]
      exact ⟨lookup?_eq_none_iff.1 hfound, h.nodup⟩
    · have hnames : (t.insert c).classes.map (·.2.qualifiedName) =
          t.classes.map (·.2.qualifiedName) := by
        rw [ModelTable.insert, hmerge, List.map_map]
        refine List.map_congr_left fun e _ => ?_
        rw [Function.comp_apply]
        split <;> rfl
      rw [hnames]
      exact h.nodup

/-- A definition makes a new entry of the one of its name and leaves all others. -/
theorem Keyed.lookup?_insert (h : t.Keyed) : (t.insert c).lookup? name =
    if c.qualifiedName = name then some (joined c (t.lookup? name)) else t.lookup? name := by
  have hjoined : (joined c (t.lookup? c.qualifiedName)).2.qualifiedName = c.qualifiedName := by
    cases hfound : t.lookup? c.qualifiedName with
    | none => rfl
    | some f => exact (h.lookup?_eq_some_iff.1 hfound).2
  ext e
  rw [(h.insert c).lookup?_eq_some_iff, h.mem_insert]
  split
  · next hname =>
    subst hname
    rw [Option.some.injEq]
    constructor
    · rintro ⟨rfl | ⟨-, hne⟩, heq⟩
      · rfl
      · exact absurd heq hne
    · rintro rfl
      exact ⟨.inl rfl, hjoined⟩
  · next hname =>
    rw [h.lookup?_eq_some_iff]
    constructor
    · rintro ⟨rfl | ⟨he, -⟩, heq⟩
      · exact absurd (hjoined.symm.trans heq) hname
      · exact ⟨he, heq⟩
    · rintro ⟨he, rfl⟩
      exact ⟨.inr ⟨he, Ne.symm hname⟩, rfl⟩

theorem Keyed.foldl_insert (h : t.Keyed) (cs : List ClassModel) :
    (cs.foldl ModelTable.insert t).Keyed := by
  induction cs generalizing t with
  | nil => exact h
  | cons c cs ih => exact ih (h.insert c)

/-- Definitions change the entry of a name one after the other, as far as they are of that name. -/
theorem Keyed.lookup?_foldl_insert (h : t.Keyed) (cs : List ClassModel) (name : String) :
    (cs.foldl ModelTable.insert t).lookup? name =
      (named name cs).foldl (fun e c => some (joined c e)) (t.lookup? name) := by
  induction cs generalizing t with
  | nil => rfl
  | cons c cs ih =>
    rw [List.foldl_cons, ih (h.insert c), h.lookup?_insert, named_cons]
    split <;> rfl

theorem foldl_joined_some (ds : List ClassModel) (key : ClassKey) (c : ClassModel) :
    ds.foldl (fun e c => some (joined c e)) (some (key, c)) = some (key, ds.foldl merge c) := by
  induction ds generalizing c with
  | nil => rfl
  | cons d ds ih => exact ih (c.merge d)

/-- What the definitions of one name are as an entry. -/
def entryOf : List ClassModel → Option (ClassKey × ClassModel)
  | [] => none
  | d :: ds => some (⟨d.header, d.qualifiedName⟩, ds.foldl merge d)

/-- A table that was filled from nothing holds all definitions of a name as one. -/
theorem lookup?_definitions (cs : List ClassModel) (name : String) :
    (cs.foldl ModelTable.insert {}).lookup? name = entryOf (named name cs) := by
  rw [keyed_empty.lookup?_foldl_insert]
  cases named name cs with
  | nil => rfl
  | cons d ds => exact foldl_joined_some ds _ d

/-- Functions have no part in what classes a table holds. -/
theorem classes_foldl_insert_congr {s : ModelTable} (h : s.classes = t.classes)
    (cs : List ClassModel) :
    (cs.foldl ModelTable.insert s).classes = (cs.foldl ModelTable.insert t).classes := by
  induction cs generalizing s t with
  | nil => exact h
  | cons c cs ih =>
    refine ih ?_
    rw [insert, insert, h]
    split <;> rfl

end Lookup

end ModelTable

end TestSynth
