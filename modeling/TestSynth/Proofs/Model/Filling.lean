import Mathlib
import TestSynth.Proofs.Model.Table
/-!
Filling a table from nothing, with definitions of classes and with other tables: what is in it in
the end, and when a count of constructors breaks it off.
-/
namespace TestSynth.ModelTable

open ClassModel

/-- What a table is filled with: a definition of a class, or all of another table. -/
inductive Addition where
  | definition (c : ClassModel)
  | table (other : ModelTable)

namespace Addition

def models : Addition → List ClassModel
  | definition c => [c]
  | table other => other.models

def functions : Addition → List FreeFunction
  | definition _ => []
  | table other => other.functions

end Addition

def add (t : ModelTable) : Addition → ModelTable
  | .definition c => t.insert c
  | .table other => t.absorb other

/-- The same, unless a class would count more constructors than 64 bits can tell. -/
def add? (t : ModelTable) : Addition → Option ModelTable
  | .definition c => t.insert? c
  | .table other => (other.models.foldlM insert? t).map (other.functions.foldl absorbFunction)

/-- The table that additions make of nothing, one after the other. -/
def fill? (additions : List Addition) : Option ModelTable := additions.foldlM add? {}

section Classes
variable {s t : ModelTable} {c : ClassModel} {entries found : List (ClassKey × ClassModel)}

theorem classes_foldl_absorbFunction (t : ModelTable) (fs : List FreeFunction) :
    (fs.foldl absorbFunction t).classes = t.classes := by
  induction fs generalizing t with
  | nil => rfl
  | cons f fs ih =>
    rw [List.foldl_cons, ih, absorbFunction]
    split <;> rfl

theorem classes_add (t : ModelTable) (a : Addition) :
    (t.add a).classes = (a.models.foldl insert t).classes := by
  cases a with
  | definition c => rfl
  | table other => exact classes_foldl_absorbFunction _ _

/-- Of other tables only the definitions matter for the classes. -/
theorem classes_foldl_add (t : ModelTable) (additions : List Addition) :
    (additions.foldl add t).classes =
      ((additions.flatMap Addition.models).foldl insert t).classes := by
  induction additions generalizing t with
  | nil => rfl
  | cons a additions ih =>
    rw [List.foldl_cons, ih, List.flatMap_cons, List.foldl_append]
    exact classes_foldl_insert_congr (classes_add t a) _

theorem methods_mergeInto? (h : mergeInto? c entries = some found) :
    (found.map (·.2.methods.length)).sum =
      (entries.map (·.2.methods.length)).sum + c.methods.length := by
  induction entries generalizing found with
  | nil => cases h
  | cons e entries ih =>
    rw [mergeInto?] at h
    split at h
    · cases h
      simp only [List.map_cons, List.sum_cons, merge, List.length_append]
      omega
    · obtain ⟨rest, hrest, rfl⟩ := Option.map_eq_some_iff.1 h
      simp only [List.map_cons, List.sum_cons, ih hrest]
      omega

theorem methodCount_eq_sum (t : ModelTable) :
    t.methodCount = (t.classes.map (·.2.methods.length)).sum := by
  rw [methodCount, Number.total, models, List.map_map]
  rfl

theorem Keyed.methodCount_insert (h : t.Keyed) (c : ClassModel) :
    (t.insert c).methodCount = t.methodCount + c.methods.length := by
  rw [methodCount_eq_sum, methodCount_eq_sum, ModelTable.insert]
  rcases h.mergeInto?_cases c with ⟨-, hmerge, hnew⟩ | ⟨f, -, hmerge⟩ <;> rw [hmerge]
  · have hperm := insertEntry_perm (c := c) (k := ⟨c.header, c.qualifiedName⟩) hnew
    rw [(hperm.map _).sum_eq, List.map_cons, List.sum_cons, Nat.add_comm]
  · exact methods_mergeInto? hmerge

theorem Keyed.methodCount_foldl_insert (h : t.Keyed) (cs : List ClassModel) :
    (cs.foldl ModelTable.insert t).methodCount =
      t.methodCount + (cs.map (·.methods.length)).sum := by
  induction cs generalizing t with
  | nil => rfl
  | cons c cs ih =>
    rw [List.foldl_cons, ih (h.insert c), h.methodCount_insert, List.map_cons, List.sum_cons,
      Nat.add_assoc]

end Classes

section Functions
variable {t : ModelTable} {f : FreeFunction} {fs : List FreeFunction}

/-- What tells functions of a table apart. -/
def identity (f : FreeFunction) : String × List Parameter :=
  (f.qualifiedName, f.signature.parameters)

theorem functions_foldl_insert (t : ModelTable) (cs : List ClassModel) :
    (cs.foldl insert t).functions = t.functions := by
  induction cs generalizing t with
  | nil => rfl
  | cons c cs ih =>
    rw [List.foldl_cons, ih, insert]
    split <;> rfl

/-- A function is added unless one of its identity is there. -/
theorem functions_absorbFunction (t : ModelTable) (f : FreeFunction) :
    (t.absorbFunction f).functions =
      if identity f ∈ t.functions.map identity then t.functions else t.functions ++ [f] := by
  have hany : (t.functions.any fun g => g.qualifiedName == f.qualifiedName &&
      g.signature.parameters == f.signature.parameters) ↔
        identity f ∈ t.functions.map identity := by
    simp [identity]
  rw [absorbFunction]
  simp only [hany]
  split <;> rfl

/-- Functions of pairwise different identity, which has every function that was added. -/
structure Gathers (t : ModelTable) (fs : List FreeFunction) : Prop where
  nodup : (t.functions.map identity).Nodup
  subset : t.functions ⊆ fs
  complete : ∀ f ∈ fs, identity f ∈ t.functions.map identity

theorem Gathers.absorbFunction (h : t.Gathers fs) (f : FreeFunction) :
    (t.absorbFunction f).Gathers (fs ++ [f]) := by
  have hfunctions := functions_absorbFunction t f
  split at hfunctions
  · next hmem =>
    constructor <;> rw [hfunctions]
    · exact h.nodup
    · exact fun g hg => List.mem_append_left _ (h.subset hg)
    · rw [List.forall_mem_append, List.forall_mem_singleton]
      exact ⟨h.complete, hmem⟩
  · next hnew =>
    constructor <;> rw [hfunctions]
    · rw [List.map_append, List.nodup_append]
      refine ⟨h.nodup, List.nodup_singleton _, ?_⟩
      rintro x hx y hy rfl
      exact hnew (List.mem_singleton.1 hy ▸ hx)
    · exact List.append_subset.2 ⟨fun g hg => List.mem_append_left _ (h.subset hg), by simp⟩
    · rw [List.forall_mem_append, List.forall_mem_singleton, List.map_append]
      exact ⟨fun g hg => List.mem_append_left _ (h.complete g hg), by simp⟩

theorem Gathers.foldl_absorbFunction (h : t.Gathers fs) (gs : List FreeFunction) :
    (gs.foldl ModelTable.absorbFunction t).Gathers (fs ++ gs) := by
  induction gs generalizing t fs with
  | nil => simpa using h
  | cons g gs ih => simpa using ih (h.absorbFunction g)

theorem Gathers.add (h : t.Gathers fs) (a : Addition) : (t.add a).Gathers (fs ++ a.functions) := by
  have hinsert : ∀ cs : List ClassModel, (cs.foldl insert t).Gathers fs := fun cs => by
    obtain ⟨hnodup, hsubset, hcomplete⟩ := h
    constructor <;> rwa [functions_foldl_insert]
  cases a with
  | definition c =>
    rw [Addition.functions, List.append_nil]
    exact hinsert [c]
  | table other => exact (hinsert other.models).foldl_absorbFunction other.functions

theorem Gathers.foldl_add (h : t.Gathers fs) (additions : List Addition) :
    (additions.foldl ModelTable.add t).Gathers (fs ++ additions.flatMap Addition.functions) := by
  induction additions generalizing t fs with
  | nil => simpa using h
  | cons a additions ih => simpa using ih (h.add a)

end Functions

section Counts
variable {s t t' : ModelTable} {c : ClassModel}

/-- The constructors of every class can be counted with 64 bits. -/
def Fits (t : ModelTable) : Prop := ∀ e ∈ t.classes, e.2.declaredConstructors < UInt64.size

theorem Fits.of_classes_eq (h : t.Fits) (heq : s.classes = t.classes) : s.Fits := by
  rwa [Fits, heq]

theorem insert?_eq_some_iff : t.insert? c = some t' ↔ t' = t.insert c ∧ t'.Fits := by
  have hall : ((t.insert c).models.all (·.declaredConstructors < UInt64.size)) ↔
      (t.insert c).Fits := by
    simp [models, Fits]
  rw [insert?]
  constructor
  · intro h
    split at h
    · next hfits =>
      cases h
      exact ⟨rfl, hall.1 hfits⟩
    · cases h
  · rintro ⟨rfl, hfits⟩
    rw [if_pos (hall.2 hfits)]

/-- Definitions only add constructors. -/
theorem Keyed.fits_of_insert (h : t.Keyed) (hfits : (t.insert c).Fits) : t.Fits := by
  intro e he
  by_cases hname : e.2.qualifiedName = c.qualifiedName
  · have hfound := h.lookup?_eq_some_iff.2 ⟨he, hname⟩
    have hmem := h.mem_insert (c := c).2 (.inl rfl)
    rw [hfound] at hmem
    exact (Nat.le_add_right _ _).trans_lt (hfits _ hmem)
  · exact hfits e (h.mem_insert.2 (.inr ⟨he, hname⟩))

section Guarded
variable {σ α : Type} {kept good : σ → Prop} {step : σ → α → σ} {step? : σ → α → Option σ}
  {x y : σ}

/-- What is good after some steps was good before, if that holds of one step. -/
theorem good_of_foldl (hkept : ∀ x a, kept x → kept (step x a))
    (hback : ∀ x a, kept x → good (step x a) → good x) (as : List α) (hx : kept x)
    (h : good (as.foldl step x)) : good x := by
  induction as generalizing x with
  | nil => exact h
  | cons a as ih => exact hback x a hx (ih (hkept x a hx) h)

/-- If nothing that is not good becomes good again, steps that are taken only to what is good are
all taken if they end in what is good. -/
theorem foldlM_eq_some_iff (hkept : ∀ x a, kept x → kept (step x a))
    (hback : ∀ x a, kept x → good (step x a) → good x)
    (hstep : ∀ x a y, kept x → good x → (step? x a = some y ↔ y = step x a ∧ good y))
    (as : List α) (hx : kept x) (hgood : good x) :
    as.foldlM step? x = some y ↔ y = as.foldl step x ∧ good y := by
  induction as generalizing x with
  | nil =>
    rw [List.foldlM_nil, List.foldl_nil, Option.pure_def, Option.some.injEq, eq_comm]
    exact (and_iff_left_of_imp fun heq => heq ▸ hgood).symm
  | cons a as ih =>
    rw [List.foldlM_cons, Option.bind_eq_bind, Option.bind_eq_some_iff]
    simp only [hstep x a _ hx hgood]
    constructor
    · rintro ⟨z, ⟨rfl, hz⟩, hrest⟩
      exact (ih (hkept x a hx) hz).1 hrest
    · rintro ⟨rfl, hy⟩
      have hz := good_of_foldl hkept hback as (hkept x a hx) hy
      exact ⟨_, ⟨rfl, hz⟩, (ih (hkept x a hx) hz).2 ⟨rfl, hy⟩⟩

end Guarded

theorem Keyed.add?_eq_some_iff (h : t.Keyed) (hfits : t.Fits) (a : Addition) :
    t.add? a = some t' ↔ t' = t.add a ∧ t'.Fits := by
  cases a with
  | definition c => exact insert?_eq_some_iff
  | table other =>
    have hmodels : ∀ s, other.models.foldlM insert? t = some s ↔
        s = other.models.foldl ModelTable.insert t ∧ s.Fits := fun s =>
      foldlM_eq_some_iff (fun t c ht => ht.insert c) (fun t c ht => ht.fits_of_insert)
        (fun t c s _ _ => insert?_eq_some_iff) other.models h hfits
    simp only [add?, Option.map_eq_some_iff, hmodels]
    constructor
    · rintro ⟨s, ⟨rfl, hs⟩, rfl⟩
      exact ⟨rfl, hs.of_classes_eq (classes_foldl_absorbFunction _ _)⟩
    · rintro ⟨rfl, ht⟩
      exact ⟨_, ⟨rfl, ht.of_classes_eq (classes_foldl_absorbFunction _ _).symm⟩, rfl⟩

theorem fill?_eq_some_iff (additions : List Addition) :
    fill? additions = some t ↔ t = additions.foldl add {} ∧ t.Fits := by
  refine foldlM_eq_some_iff (fun t a ht => ?_) (fun t a ht hfits => ?_)
    (fun t a s ht hfits => ht.add?_eq_some_iff hfits a) additions keyed_empty (by simp [Fits])
  · exact (ht.foldl_insert a.models).of_classes_eq (classes_add t a)
  · exact good_of_foldl (fun t c ht => ht.insert c) (fun t c ht => ht.fits_of_insert) a.models ht
      (hfits.of_classes_eq (classes_add t a).symm)

end Counts

section Filling
variable {additions : List Addition} {name : String}

/-- How many constructors the definitions of a name declare. -/
def constructorsOf (name : String) (cs : List ClassModel) : Nat :=
  ((named name cs).map (·.declaredConstructors)).sum

theorem lookup?_fill (additions : List Addition) (name : String) :
    (additions.foldl add {}).lookup? name =
      entryOf (named name (additions.flatMap Addition.models)) := by
  rw [← lookup?_definitions, lookup?, lookup?, classes_foldl_add]

theorem keyed_fill (additions : List Addition) : (additions.foldl add {}).Keyed :=
  (keyed_empty.foldl_insert _).of_classes_eq (classes_foldl_add {} additions)

theorem entryOf_eq_some {ds : List ClassModel} {e : ClassKey × ClassModel}
    (h : entryOf ds = some e) : ∃ first rest, ds = first :: rest ∧
      e.1 = ⟨first.header, first.qualifiedName⟩ ∧ Joins ds e.2 := by
  cases ds with
  | nil => cases h
  | cons first rest =>
    cases h
    exact ⟨first, rest, rfl, rfl, joins_foldl_merge first rest⟩

theorem fits_fill_iff : (additions.foldl add {}).Fits ↔
    ∀ name, constructorsOf name (additions.flatMap Addition.models) < UInt64.size := by
  have hentry := lookup?_fill additions
  constructor
  · intro h name
    rw [constructorsOf]
    cases hnamed : named name (additions.flatMap Addition.models) with
    | nil => decide
    | cons first rest =>
      have hfound := hentry name
      rw [hnamed, entryOf, (keyed_fill additions).lookup?_eq_some_iff] at hfound
      rw [← (joins_foldl_merge first rest).declaredConstructors]
      exact h _ hfound.1
  · intro h e he
    have hfound := (keyed_fill additions).lookup?_eq_some_iff.2 ⟨he, rfl⟩
    obtain ⟨-, -, -, -, hjoins⟩ := entryOf_eq_some ((hentry _).symm.trans hfound)
    rw [hjoins.declaredConstructors]
    exact h _

/-- Filling a table breaks off exactly if the constructors of a class cannot be counted with 64
bits. Otherwise every class that was added has one entry, which holds everything that its
definitions say, in their order, under the header of the first; and every function that was added is
there once by its name and parameters. -/
theorem fill?_keeps_definitions (additions : List Addition) :
    match fill? additions with
    | none => ∃ name, UInt64.size ≤ constructorsOf name (additions.flatMap Addition.models)
    | some t =>
      (∀ name, constructorsOf name (additions.flatMap Addition.models) < UInt64.size) ∧
      (t.models.map (·.qualifiedName)).Nodup ∧
      (∀ e ∈ t.classes, ∃ first rest,
        named e.2.qualifiedName (additions.flatMap Addition.models) = first :: rest ∧
          e.1 = ⟨first.header, e.2.qualifiedName⟩ ∧ Joins (first :: rest) e.2) ∧
      (∀ c ∈ additions.flatMap Addition.models, ∃ d ∈ t.models,
        d.qualifiedName = c.qualifiedName) ∧
      t.methodCount = ((additions.flatMap Addition.models).map (·.methods.length)).sum ∧
      t.Gathers (additions.flatMap Addition.functions) := by
  split
  · next hnone =>
    by_contra hsmall
    simp only [not_exists, Nat.not_le] at hsmall
    cases hnone.symm.trans ((fill?_eq_some_iff additions).2 ⟨rfl, fits_fill_iff.2 hsmall⟩)
  · next t hsome =>
    obtain ⟨rfl, hfits⟩ := (fill?_eq_some_iff additions).1 hsome
    have hkeyed := keyed_fill additions
    have hentry := lookup?_fill additions
    refine ⟨fits_fill_iff.1 hfits, ?_, fun e he => ?_, fun c hc => ?_, ?_, ?_⟩
    · rw [models, List.map_map]
      exact hkeyed.nodup
    · have hfound := hkeyed.lookup?_eq_some_iff.2 ⟨he, rfl⟩
      obtain ⟨first, rest, hnamed, hkey, hjoins⟩ := entryOf_eq_some ((hentry _).symm.trans hfound)
      have hname : first.qualifiedName = e.2.qualifiedName :=
        (mem_named.1 (hnamed ▸ List.mem_cons_self)).2
      exact ⟨first, rest, hnamed, hname ▸ hkey, hnamed ▸ hjoins⟩
    · obtain ⟨first, rest, hnamed⟩ := List.exists_cons_of_ne_nil
        (List.ne_nil_of_mem (mem_named.2 ⟨hc, rfl⟩))
      have hfound := hentry c.qualifiedName
      rw [hnamed, entryOf, hkeyed.lookup?_eq_some_iff] at hfound
      exact ⟨_, List.mem_map_of_mem hfound.1, hfound.2⟩
    · have hcount := keyed_empty.methodCount_foldl_insert (additions.flatMap Addition.models)
      rw [methodCount_eq_sum, ← classes_foldl_add, ← methodCount_eq_sum] at hcount
      rw [hcount]
      exact Nat.zero_add _
    · have hgathers : Gathers {} [] := ⟨by simp, by simp, by simp⟩
      exact hgathers.foldl_add additions

/-- A class with that many declared constructors. -/
def widely (constructors : Nat) : ClassModel :=
  { name := "Box", scope := "", bases := .empty, methods := [], memberVariables := []
    hasDefaultConstructor := false, isAbstract := false, header := ⟨⟨"box.h"⟩, .header⟩
    isStruct := false, declaredConstructors := constructors }

/-- Two definitions whose constructors together are one more than 64 bits can count. -/
theorem fill?_breaksOff_on_counts :
    fill? [.definition (widely 18446744073709551615), .definition (widely 1)] = none ∧
      constructorsOf "Box" [widely 18446744073709551615, widely 1] = UInt64.size := by
  decide +kernel

end Filling

end TestSynth.ModelTable
