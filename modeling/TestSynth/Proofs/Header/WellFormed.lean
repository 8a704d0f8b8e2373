import Mathlib
import TestSynth.Project.Scan
import TestSynth.Proofs.Declaration.WellFormed
import TestSynth.Proofs.Header.Items
import TestSynth.Proofs.Model.Filling
/-!
What every table has that is read from headers, whatever their texts are: members are constructors
and destructors by their names, and what a class says of its members as a whole is so.
-/
namespace TestSynth

open Text Declaration

/-- A member of a class is a constructor or destructor exactly if its name says so, and has a return
type unless it is one. -/
structure Method.WellFormedIn (className : String) (m : Method) : Prop where
  constructor_iff : m.flags.isConstructor ↔ m.name = className
  destructor_iff : m.flags.isDestructor ↔ m.name = "~" ++ className
  untyped : m.flags.isConstructor → m.returnType = ""
  typed : m.flags.isConstructor = false → m.flags.isDestructor = false → m.returnType ≠ ""
  virtual_of_pure : m.flags.isPureVirtual → m.flags.isVirtual
  identifier : isIdentifier (if m.flags.isDestructor then m.name.toList.tail else m.name.toList)
  parameters : ∀ p ∈ m.parameters, p.WellFormed

/-- A function outside classes is neither of them, and no entry point. -/
structure FreeFunction.WellFormed (f : FreeFunction) : Prop where
  not_constructor : f.signature.flags.isConstructor = false
  not_destructor : f.signature.flags.isDestructor = false
  not_main : f.signature.name ≠ "main"
  typed : f.signature.returnType ≠ ""
  virtual_of_pure : f.signature.flags.isPureVirtual → f.signature.flags.isVirtual
  identifier : isIdentifier f.signature.name.toList
  parameters : ∀ p ∈ f.signature.parameters, p.WellFormed

/-- A class whose members are well-formed, and which counts its constructors and knows whether it is
abstract. -/
structure ClassModel.Accounted (c : ClassModel) : Prop where
  unqualified : ':' ∉ c.name.toList
  methods : ∀ m ∈ c.methods, m.WellFormedIn c.name
  abstract_iff : c.isAbstract ↔ ∃ m ∈ c.methods, m.flags.isPureVirtual
  constructors : c.constructors.length ≤ c.declaredConstructors

/-- A class that also knows whether it can be made without arguments. -/
structure ClassModel.WellFormed (c : ClassModel) : Prop extends Accounted c where
  default_of_none : c.declaredConstructors = 0 → c.hasDefaultConstructor
  default_of_public : c.hasPublicDefaultConstructor → c.hasDefaultConstructor

section Members
variable {className : String} {m : Method} {header : SourceUnit} {scope : String} {cs : List Char}
  {f : FreeFunction}

theorem wellFormedIn_of_reads (hclass : className.toList.head? ≠ some '~')
    (h : Reads (some className) m) : m.WellFormedIn className := by
  have hidentifier := h.identifier
  have htilde : "~" ++ className ≠ className := by
    rintro heq
    refine hclass ?_
    rw [← heq, String.toList_append]
    rfl
  cases h.kindIn with
  | construct hname htype hconstructor hdestructor =>
    rw [hname, dropWhile_tilde hclass] at hidentifier
    constructor
    · simp [hconstructor, hname]
    · simp [hdestructor, hname, htilde.symm]
    · exact fun _ => htype
    · simp [hconstructor]
    · exact h.virtual_of_pure
    · simpa [hdestructor, hname] using hidentifier
    · exact h.parameters
  | destruct hname hconstructor hdestructor =>
    have hchars : m.name.toList = '~' :: className.toList := by
      rw [hname, String.toList_append]
      rfl
    rw [hchars, List.dropWhile_cons_of_pos (by decide), dropWhile_tilde hclass] at hidentifier
    constructor
    · simp [hconstructor, hname, htilde]
    · simp [hdestructor, hname]
    · simp [hconstructor]
    · simp [hdestructor]
    · exact h.virtual_of_pure
    · simpa [hdestructor, hchars] using hidentifier
    · exact h.parameters
  | ordinary hname hnotilde htype hconstructor hdestructor =>
    rw [dropWhile_tilde hnotilde] at hidentifier
    constructor
    · simp [hconstructor, hname]
    · rw [hdestructor]
      refine iff_of_false Bool.false_ne_true ?_
      rintro heq
      refine hnotilde ?_
      rw [heq, String.toList_append]
      rfl
    · simp [hconstructor]
    · exact fun _ _ => htype
    · exact h.virtual_of_pure
    · simpa [hdestructor] using hidentifier
    · exact h.parameters

/-- A statement declares the function that it is read as, unless its name tells against that. -/
theorem function?_eq_some_iff : Header.function? header scope cs = some f ↔
    '(' ∈ cs ∧ ∃ m, parse none .everyone cs = .method m ∧
      (m.name == "main" || Header.isMacroName m.name) = false ∧ f = ⟨scope, m, header⟩ := by
  have hparen : (trim cs).contains '(' = true ↔ '(' ∈ cs := by
    rw [List.contains_iff_mem]
    refine ⟨fun hmem => ?_, mem_trim_of_mem (by decide)⟩
    obtain ⟨lead, tail, hsplit, -⟩ := trim_split cs
    rw [hsplit]
    simp [hmem]
  rw [Header.function?, parse_trim, ← hparen]
  cases (trim cs).contains '(' with
  | false => simp
  | true =>
    cases parse none .everyone cs with
    | method m =>
      simp only [method.injEq, exists_eq_left', true_and, Bool.not_true, Bool.false_eq_true,
        if_false]
      cases m.name == "main" || Header.isMacroName m.name with
      | true => simp
      | false => simp [eq_comm]
    | deleted _ => simp
    | «variable» _ _ => simp
    | skip => simp

theorem wellFormed_function? (h : Header.function? header scope cs = some f) :
    f.WellFormed ∧ f.header = header := by
  obtain ⟨-, m, hparse, hname, rfl⟩ := function?_eq_some_iff.1 h
  have hreads := reads_parse hparse
  have hidentifier := hreads.identifier
  obtain ⟨hconstructor, hdestructor, htilde, htype⟩ := hreads.ordinary
  rw [dropWhile_tilde htilde] at hidentifier
  rw [Bool.or_eq_false_iff, beq_eq_false_iff_ne] at hname
  exact ⟨⟨hconstructor, hdestructor, hname.1, htype, hreads.virtual_of_pure, hidentifier,
    hreads.parameters⟩, rfl⟩

end Members

section Classes
variable {c d : ClassModel} {head : Header.ClassHead} {cs : List Char} {isStruct : Bool}

/-- A class is named by a word. -/
structure Header.ClassHead.Named (head : Header.ClassHead) : Prop where
  head?_ne : head.name.toList.head? ≠ some '~'
  unqualified : ':' ∉ head.name.toList

theorem named_named? (h : Header.named? isStruct cs = some head) : head.Named := by
  unfold Header.named? at h
  split at h
  · next hstart =>
    obtain ⟨bases, -, rfl⟩ := Option.map_eq_some_iff.1 h
    have hword : ∀ c ∈ cs.takeWhile isWordAnywhere, isWordAnywhere c :=
      fun c hc => List.mem_takeWhile_imp hc
    constructor
    · rw [String.toList_ofList]
      intro htilde
      exact absurd (hword '~' (List.mem_of_head? htilde)) (by decide)
    · rw [String.toList_ofList]
      exact not_mem_of_holds hword (by decide)
  · cases h

theorem named_classHead? (h : Header.classHead? cs = some head) : head.Named := by
  obtain ⟨_, _, hnamed⟩ := Header.named?_of_classHead? h
  exact named_named? hnamed

theorem name_declare (access : Access) (c : ClassModel) (d : Declaration) :
    (Header.declare access c d).name = c.name := by
  cases d <;> rfl

/-- What a declaration adds to a class is accounted for. -/
theorem ClassModel.Accounted.declare (h : c.Accounted) (access : Access) (d : Declaration)
    (hd : ∀ m, d = .method m → m.WellFormedIn c.name) :
    (Header.declare access c d).Accounted := by
  cases d with
  | method m =>
    constructor
    · exact h.unqualified
    · exact List.forall_mem_append.2 ⟨h.methods, List.forall_mem_singleton.2 (hd m rfl)⟩
    · simp only [Header.declare, Bool.or_eq_true, h.abstract_iff, List.mem_append,
        List.mem_singleton, or_and_right, exists_or, exists_eq_left]
    · have hconstructors := h.constructors
      rw [ClassModel.constructors] at hconstructors ⊢
      rw [Header.declare, List.filter_append, List.length_append, List.filter_singleton]
      cases m.flags.isConstructor <;> simpa using hconstructors
  | deleted isConstructor =>
    exact ⟨h.unqualified, h.methods, h.abstract_iff, h.constructors.trans (Nat.le_add_right _ _)⟩
  | «variable» declaredType name =>
    exact ⟨h.unqualified, h.methods, h.abstract_iff, h.constructors⟩
  | skip => exact h

/-- What the sections of a body declare, one after the other. -/
theorem accounted_sections (h : head.Named) (hc : c.Accounted) (hname : c.name = head.name)
    (sections : List (Access × List Char)) :
    (sections.foldl (fun c (access, text) => (fields (· == ';') text).foldl
      (fun c text => Header.declare access c (.parse (some head.name) access text)) c)
      c).Accounted := by
  refine (List.foldlRecOn (motive := fun c : ClassModel => c.Accounted ∧ c.name = head.name)
    sections _ ⟨hc, hname⟩ fun c hc part _ => ?_).1
  refine List.foldlRecOn (motive := fun c : ClassModel => c.Accounted ∧ c.name = head.name)
    (fields (· == ';') part.2) _ hc fun c hc text _ => ?_
  obtain ⟨hc, hname⟩ := hc
  refine ⟨hc.declare part.1 _ fun m hm => ?_, (name_declare _ _ _).trans hname⟩
  rw [hname]
  exact wellFormedIn_of_reads h.head?_ne (reads_parse hm)

/-- When all is declared, it is known whether arguments are needed. -/
theorem ClassModel.Accounted.wellFormed (h : c.Accounted) :
    { c with hasDefaultConstructor := c.declaredConstructors == 0 ||
        c.constructors.any (·.callableWithoutArguments) : ClassModel }.WellFormed where
  unqualified := h.unqualified
  methods := h.methods
  abstract_iff := h.abstract_iff
  constructors := h.constructors
  default_of_none := by
    intro hnone
    simp only at hnone ⊢
    rw [hnone, beq_self_eq_true, Bool.true_or]
  default_of_public := by
    intro hpublic
    rw [hasPublicDefaultConstructor, Bool.or_eq_true] at hpublic
    rcases hpublic with hnone | hpublic
    · exact Bool.or_eq_true_iff.2 (.inl hnone)
    · obtain ⟨m, hm, hcallable⟩ := List.any_eq_true.1 hpublic
      refine Bool.or_eq_true_iff.2 (.inr (List.any_eq_true.2 ⟨m, ?_, hcallable⟩))
      exact List.mem_of_mem_filter hm

/-- Whatever stands between the braces of a class, its model is well-formed. -/
theorem wellFormed_classModel (h : head.Named) (body : List Char) (scope : String)
    (header : SourceUnit) : (Header.classModel head body scope header).WellFormed := by
  refine (accounted_sections h ?_ rfl _).wellFormed
  exact ⟨h.unqualified, nofun, by simp, Nat.le_refl _⟩

/-- The name of a class follows from its qualified name. -/
theorem ClassModel.name_of_qualifiedName (h : ':' ∉ c.name.toList) :
    takeEndWhile (· != ':') c.qualifiedName.toList = c.name.toList := by
  have hname : ∀ d ∈ c.name.toList, (d != ':') = true := by
    intro d hd
    rw [bne_iff_ne]
    rintro rfl
    exact h hd
  rw [qualifiedName, qualify]
  split
  · exact takeEndWhile_append (a := []) (by simp) hname
  · rw [String.toList_append, String.toList_append]
    exact takeEndWhile_append (by simp) hname

theorem ClassModel.WellFormed.merge (hc : c.WellFormed) (hd : d.WellFormed)
    (h : c.qualifiedName = d.qualifiedName) : (c.merge d).WellFormed := by
  have hname : d.name = c.name := by
    rw [← String.toList_inj, ← name_of_qualifiedName hd.unqualified, ← h,
      name_of_qualifiedName hc.unqualified]
  constructor
  · constructor
    · exact hc.unqualified
    · exact List.forall_mem_append.2 ⟨hc.methods, fun m hm => hname ▸ hd.methods m hm⟩
    · simp only [ClassModel.merge, Bool.or_eq_true, hc.abstract_iff, hd.abstract_iff,
        List.mem_append, or_and_right, exists_or]
    · have hconstructors := Nat.add_le_add hc.constructors hd.constructors
      rw [constructors, constructors] at hconstructors
      rwa [constructors, ClassModel.merge, List.filter_append, List.length_append]
  · intro hnone
    exact Bool.or_eq_true_iff.2 (.inl (hc.default_of_none (Nat.eq_zero_of_add_eq_zero hnone).1))
  · intro hpublic
    rw [hasPublicDefaultConstructor, Bool.or_eq_true] at hpublic
    rcases hpublic with hnone | hpublic
    · exact Bool.or_eq_true_iff.2 (.inl (hc.default_of_none
        (Nat.eq_zero_of_add_eq_zero (eq_of_beq hnone)).1))
    · rw [publicConstructors, constructors, ClassModel.merge, List.filter_append,
        List.filter_append, List.any_append, Bool.or_eq_true] at hpublic
      refine Bool.or_eq_true_iff.2 (hpublic.imp (fun h => ?_) fun h => ?_)
      · exact hc.default_of_public (Bool.or_eq_true_iff.2 (.inr h))
      · exact hd.default_of_public (Bool.or_eq_true_iff.2 (.inr h))

end Classes

namespace ModelTable

/-- A table of well-formed classes and functions, one class for a name. -/
structure WellFormed (t : ModelTable) : Prop extends Keyed t where
  classes : ∀ e ∈ t.classes, e.2.WellFormed
  functions : ∀ f ∈ t.functions, f.WellFormed

section Tables
variable {s t : ModelTable} {c : ClassModel} {cs : List ClassModel} {f : FreeFunction}
  {fs : List FreeFunction}

theorem wellFormed_empty : WellFormed {} := ⟨keyed_empty, by simp, by simp⟩

theorem WellFormed.insert (h : t.WellFormed) (hc : c.WellFormed) : (t.insert c).WellFormed where
  toKeyed := h.toKeyed.insert c
  classes := h.forall_mem_insert h.classes hc fun e hname he => he.merge hc hname
  functions := by
    have hfunctions := functions_foldl_insert t [c]
    rw [List.foldl_cons, List.foldl_nil] at hfunctions
    exact hfunctions ▸ h.functions

theorem WellFormed.foldl_insert (h : t.WellFormed) (hcs : ∀ c ∈ cs, c.WellFormed) :
    (cs.foldl ModelTable.insert t).WellFormed := by
  induction cs generalizing t with
  | nil => exact h
  | cons c cs ih =>
    rw [List.forall_mem_cons] at hcs
    exact ih (h.insert hcs.1) hcs.2

/-- The functions of a table and those absorbed into it stay in their order. -/
theorem sublist_foldl_absorbFunction (t : ModelTable) (fs : List FreeFunction) :
    (fs.foldl absorbFunction t).functions.Sublist (t.functions ++ fs) := by
  induction fs generalizing t with
  | nil => simp
  | cons f fs ih =>
    rw [List.foldl_cons]
    refine (ih _).trans ?_
    rw [functions_absorbFunction]
    split
    · exact List.Sublist.append_left (List.sublist_cons_self f fs) _
    · rw [List.append_assoc]
      exact List.Sublist.refl _

theorem sublist_absorb (t s : ModelTable) :
    (t.absorb s).functions.Sublist (t.functions ++ s.functions) := by
  have h := sublist_foldl_absorbFunction (s.models.foldl ModelTable.insert t) s.functions
  rwa [functions_foldl_insert] at h

theorem WellFormed.absorb (h : t.WellFormed) (hs : s.WellFormed) : (t.absorb s).WellFormed := by
  have hmodels : ∀ c ∈ s.models, c.WellFormed := List.forall_mem_map.2 hs.classes
  have hinsert := h.foldl_insert hmodels
  have hclasses := classes_foldl_absorbFunction (s.models.foldl ModelTable.insert t) s.functions
  constructor
  · exact hinsert.toKeyed.of_classes_eq hclasses
  · rw [ModelTable.absorb, hclasses]
    exact hinsert.classes
  · intro f hf
    rcases List.mem_append.1 ((sublist_absorb t s).subset hf) with hf | hf
    · exact h.functions f hf
    · exact hs.functions f hf

end Tables

section Headers
variable {limits : Header.Limits} {header : SourceUnit} {headers : List (SourceUnit × String)}

theorem wellFormed_of_mem_extract {text : String} {f : FreeFunction}
    (h : f ∈ (Header.extract limits header text).functions) : f.WellFormed ∧ f.header = header := by
  simp only [Header.extract, Header.ofItems] at h
  split at h
  · obtain ⟨item, hitem, hfunction⟩ := List.mem_filterMap.1 (List.mem_of_mem_take h)
    cases item with
    | classBody scope head body => cases hfunction
    | statement scope cs => exact wellFormed_function? hfunction
  · cases h

theorem wellFormed_extract (limits : Header.Limits) (header : SourceUnit) (text : String) :
    (Header.extract limits header text).WellFormed := by
  have hmodels : ∀ c ∈ (Header.items "" (sanitize text.toList)).filterMap
      (Header.itemClass? header), c.WellFormed := by
    intro c hc
    obtain ⟨item, hitem, hclass⟩ := List.mem_filterMap.1 hc
    cases item with
    | statement scope cs => cases hclass
    | classBody scope head body =>
      cases hclass
      obtain ⟨_, hhead⟩ := Header.classHead?_of_classBody hitem
      exact wellFormed_classModel (named_classHead? hhead) body scope header
  have hclasses := wellFormed_empty.foldl_insert hmodels
  exact
    { toKeyed := hclasses.toKeyed.of_classes_eq rfl
      classes := hclasses.classes
      functions := fun f hf => (wellFormed_of_mem_extract hf).1 }

/-- The classes and functions of several headers, read one after the other. -/
def readHeaders (limits : Header.Limits) (headers : List (SourceUnit × String)) : ModelTable :=
  headers.foldl (fun t (header, text) => t.absorb (Header.extract limits header text)) {}

/-- The headers of a project that can be read, with their texts. -/
def readable (files : FileTree) (units : List SourceUnit) : List (SourceUnit × String) :=
  (units.filter (·.isHeader)).filterMap fun unit => match files.read unit.path with
    | .ok bytes => some (unit, decode bytes)
    | .error _ => none

/-- The table of a project is the one of the headers that can be read. -/
theorem extractAll_eq_readHeaders (limits : Header.Limits) (files : FileTree)
    (units : List SourceUnit) :
    extractAll limits files units = readHeaders limits (readable files units) := by
  rw [extractAll, readHeaders, readable, List.foldl_filterMap]
  congr 1
  funext t unit
  rw [extractFile]
  cases files.read unit.path with
  | ok bytes => rfl
  | error e => rfl

theorem wellFormed_readHeaders (limits : Header.Limits) (headers : List (SourceUnit × String)) :
    (readHeaders limits headers).WellFormed :=
  List.foldlRecOn (motive := WellFormed) headers _ wellFormed_empty fun _ ht h _ =>
    ht.absorb (wellFormed_extract limits h.1 h.2)

/-- Functions are taken from the headers in their order. -/
theorem sublist_readHeaders (limits : Header.Limits) (headers : List (SourceUnit × String)) :
    (readHeaders limits headers).functions.Sublist
      (headers.flatMap fun h => (Header.extract limits h.1 h.2).functions) := by
  have hfold : ∀ t : ModelTable,
      (headers.foldl (fun t h => t.absorb (Header.extract limits h.1 h.2)) t).functions.Sublist
        (t.functions ++ headers.flatMap fun h => (Header.extract limits h.1 h.2).functions) := by
    intro t
    induction headers generalizing t with
    | nil => simp
    | cons h headers ih =>
      rw [List.foldl_cons, List.flatMap_cons, ← List.append_assoc]
      exact (ih _).trans ((sublist_absorb t _).append_right _)
  exact hfold {}

/-- Of the functions of headers at different places, those of one place are of one header. -/
theorem length_filter_place (limits : Header.Limits) (place : Path)
    (h : headers.Pairwise fun a b => ¬a.1.path.samePlace b.1.path) :
    ((headers.flatMap fun h => (Header.extract limits h.1 h.2).functions).filter
      (·.header.path.samePlace place)).length ≤ limits.functionsPerHeader := by
  induction headers with
  | nil => exact Nat.zero_le _
  | cons a headers ih =>
    rw [List.pairwise_cons] at h
    rw [List.flatMap_cons, List.filter_append, List.length_append]
    have hlength := Header.length_functions_extract limits a.1 a.2
    by_cases hplace : a.1.path.samePlace place
    · have hrest : (headers.flatMap fun h => (Header.extract limits h.1 h.2).functions).filter
          (·.header.path.samePlace place) = [] := by
        refine List.filter_eq_nil_iff.2 fun f hf hfplace => ?_
        obtain ⟨b, hb, hf⟩ := List.mem_flatMap.1 hf
        rw [(wellFormed_of_mem_extract hf).2] at hfplace
        refine h.1 b hb ?_
        rw [Path.samePlace, beq_iff_eq] at hplace hfplace ⊢
        exact hplace.trans hfplace.symm
      rw [hrest]
      exact (List.length_filter_le _ _).trans hlength
    · have hfirst : (Header.extract limits a.1 a.2).functions.filter
          (·.header.path.samePlace place) = [] := by
        refine List.filter_eq_nil_iff.2 fun f hf hfplace => ?_
        rw [(wellFormed_of_mem_extract hf).2] at hfplace
        exact hplace hfplace
      rw [hfirst, List.length_nil, Nat.zero_add]
      exact ih h.2

/-- Whatever texts the headers have, the classes and functions read from them are well-formed, and
no header adds more functions than it may. -/
theorem readHeaders_contents (limits : Header.Limits) (headers : List (SourceUnit × String))
    (h : headers.Pairwise fun a b => ¬a.1.path.samePlace b.1.path) :
    (∀ c ∈ (readHeaders limits headers).models, c.WellFormed) ∧
      (∀ f ∈ (readHeaders limits headers).functions, f.WellFormed) ∧
      ∀ place : Path, ((readHeaders limits headers).functions.filter
        (·.header.path.samePlace place)).length ≤ limits.functionsPerHeader := by
  have ht := wellFormed_readHeaders limits headers
  refine ⟨List.forall_mem_map.2 ht.classes, ht.functions, fun place => ?_⟩
  exact ((sublist_readHeaders limits headers).filter _).length_le.trans
    (length_filter_place limits place h)

/-- A class that is opened in two headers, with a deleted constructor, and functions beside it. -/
def gateHeaders : List (SourceUnit × String) :=
  [(⟨⟨"gate.h"⟩, .header⟩, "int main(); int open(); int shut();\n" ++
      "class Gate \x7b public: Gate(int) = delete; virtual ~Gate(); " ++
      "virtual int at(long) = 0; \x7d;"),
    (⟨⟨"wall/gate.h"⟩, .header⟩,
      "struct Gate \x7b Gate(); void Gate(); int ~Gate; \x7d; int f(;")]

theorem readHeaders_contents_gate :
    (gateHeaders.Pairwise fun a b => ¬a.1.path.samePlace b.1.path) ∧
      (∀ c ∈ (readHeaders ⟨1, true⟩ gateHeaders).models, c.WellFormed) ∧
      ((readHeaders ⟨1, true⟩ gateHeaders).models.map (·.qualifiedName)) = ["Gate"] ∧
      ((readHeaders ⟨1, true⟩ gateHeaders).functions.map (·.signature.name)) = ["open"] := by
  have h : gateHeaders.Pairwise fun a b => ¬a.1.path.samePlace b.1.path := by decide +kernel
  exact ⟨h, (readHeaders_contents ⟨1, true⟩ gateHeaders h).1, by decide +kernel⟩

end Headers

end ModelTable

end TestSynth
