import Mathlib
import TestSynth.Proofs.Header.Heads
import TestSynth.Proofs.Header.Items
import TestSynth.Proofs.Model.Table
import TestSynth.Proofs.Text.Masking
/-!
A printed header declares exactly what it was printed from.
-/
namespace TestSynth.Header

open Text Declaration

section Entries
variable {scope : String} {rest : List Char}

/-- The characters an entry of a header is written with. -/
def isEntryChar (c : Char) : Bool := isBodyChar c || c == '{' || c == '}'

theorem FunctionSyntax.chars_eq (f : FunctionSyntax) :
    f.chars = functionChars f.declared.chars f.parameters false ++ [';'] := by
  rw [FunctionSyntax.chars, FunctionSyntax.method, f.declared.signature_function]
  rfl

theorem FunctionSyntax.isMemberChar_chars (f : FunctionSyntax) :
    ∀ c ∈ functionChars f.declared.chars f.parameters false, isMemberChar c :=
  isMemberChar_functionChars
    (fun c hc => isMemberChar_of_isTypeChar (f.declared.isTypeChar_chars c hc)) f.parameters false

theorem ClassSyntax.isMemberChar_headChars (c : ClassSyntax) :
    ∀ x ∈ c.headChars, isMemberChar x := by
  have hword : ∀ x ∈ "class ".toList, isMemberChar x := by simp [isMemberChar, isWord]
  unfold ClassSyntax.headChars
  simp only [List.forall_mem_append]
  exact ⟨⟨hword, fun x hx => isMemberChar_of_isTypeChar
    (isTypeChar_of_isWord (c.name.isWord_chars x hx))⟩,
    fun x hx => isMemberChar_of_isTypeChar (isTypeChar_baseListChars c.bases x hx)⟩

theorem isMark_eq_false {c : Char} (h : isMemberChar c) : isMark c = false := by
  have hopen := ne_of_holds (d := '{') h (by decide)
  have hclose := ne_of_holds (d := '}') h (by decide)
  have hend := ne_of_holds (d := ';') h (by decide)
  simp [isMark, hopen, hclose, hend]

theorem isBodyChar_ne_brace {cs : List Char} (h : ∀ c ∈ cs, isBodyChar c) :
    ∀ c ∈ cs, c ≠ '{' ∧ c ≠ '}' := fun c hc =>
  ⟨ne_of_holds (h c hc) (by decide), ne_of_holds (h c hc) (by decide)⟩

/-- The head of a printed class is that of a definition. -/
theorem ClassSyntax.blockKind_headChars (c : ClassSyntax) :
    blockKind c.headChars = .definition c.head := by
  obtain ⟨rest, hrest⟩ : ∃ rest, c.headChars = 'c' :: rest := ⟨_, rfl⟩
  have hinline : after? "inline" ('c' :: rest) = none := rfl
  have hnamespace : namespaceName? ('c' :: rest) = none := by
    rw [namespaceName?, hinline]
    rfl
  have hlinkage : isLinkage ('c' :: rest) = false := rfl
  have hclass := classHead?_headChars c
  rw [hrest] at hclass ⊢
  rw [blockKind, hnamespace]
  simp [hlinkage, hclass]

/-- A label stands in the body. -/
theorem ClassSyntax.trim_bodyChars (c : ClassSyntax) : trim c.bodyChars ≠ [] := by
  obtain ⟨s, ss, hss⟩ := List.exists_cons_of_ne_nil c.nonempty
  obtain ⟨rest, hrest⟩ : ∃ rest, c.bodyChars = ' ' :: 'p' :: rest := by
    rw [ClassSyntax.bodyChars, hss]
    cases s with
    | mk access members => cases access <;> simp [Access.keyword]
  have hstart : trimStart (' ' :: 'p' :: rest) = 'p' :: rest := rfl
  rw [hrest, trim, hstart]
  exact dropEndWhile_cons_ne_nil (by decide)

/-- What an entry of a header is as an item. -/
def Entry.items (scope : String) : Entry → List Item
  | .definition c =>
    [.classBody scope c.head c.bodyChars, .statement scope []]
  | .function f => [.statement scope (' ' :: functionChars f.declared.chars f.parameters false)]

theorem ClassSyntax.chars_append (c : ClassSyntax) (rest : List Char) :
    ' ' :: (Entry.definition c).chars ++ rest =
      (' ' :: c.headChars ++ [' ']) ++ '{' :: (c.bodyChars ++ '}' :: ';' :: rest) := by
  simp [Entry.chars, ClassSyntax.chars]

theorem ClassSyntax.isMemberChar_spaced (c : ClassSyntax) :
    ∀ x ∈ ' ' :: c.headChars ++ [' '], isMemberChar x := by
  simp only [List.cons_append, List.forall_mem_cons, List.forall_mem_append]
  exact ⟨rfl, c.isMemberChar_headChars, rfl, List.forall_mem_nil _⟩

theorem items_entry (e : Entry) :
    items scope (' ' :: e.chars ++ rest) = e.items scope ++ items scope rest := by
  cases e with
  | definition c =>
    have hmarks : ∀ x ∈ ' ' :: c.headChars ++ [' '], isMark x = false := fun x hx =>
      isMark_eq_false (c.isMemberChar_spaced x hx)
    have hgroup : splitGroup '{' '}' 0 (c.bodyChars ++ '}' :: ';' :: rest) =
        some (c.bodyChars, ';' :: rest) :=
      splitGroup_close (isBodyChar_ne_brace c.isBodyChar_bodyChars) (by decide)
    have htrim : trim ([' '] ++ (c.headChars ++ [' '])) = c.headChars :=
      (tidy_headChars c).trim_append [' '] [' '] (by unfold ClassSyntax.headChars; simp)
        (by simp [isBlank]) (by simp [isBlank])
    have hbody := c.trim_bodyChars
    have hnil : items scope (';' :: rest) = .statement scope [] :: items scope rest :=
      items_statement (List.forall_mem_nil _) rest
    rw [List.singleton_append, ← List.cons_append] at htrim
    rw [c.chars_append, items_block hmarks hgroup, htrim, c.blockKind_headChars, hnil]
    simp [hbody, Entry.items]
  | function f =>
    have hmarks : ∀ x ∈ ' ' :: functionChars f.declared.chars f.parameters false,
        isMark x = false := by
      rw [List.forall_mem_cons]
      exact ⟨rfl, fun x hx => isMark_eq_false (f.isMemberChar_chars x hx)⟩
    simpa [Entry.chars, f.chars_eq, Entry.items] using items_statement hmarks rest

end Entries

section Namespaces
variable {scope : String} {rest : List Char}

/-- The entries of a header are its items, one after the other. -/
theorem items_entries (scope : String) (es : List Entry) (rest : List Char)
    (h : ∀ c ∈ rest, isMark c = false) :
    items scope ((es.flatMap fun e => ' ' :: e.chars) ++ rest) =
      es.flatMap (Entry.items scope) := by
  induction es with
  | nil => exact items_eq_nil h
  | cons e es ih => rw [List.flatMap_cons, List.append_assoc, items_entry, ih, List.flatMap_cons]

/-- Braces stand in pairs in the entries of a header. -/
theorem splitGroup_entries (es : List Entry) (depth : Nat) :
    splitGroup '{' '}' depth ((es.flatMap fun e => ' ' :: e.chars) ++ rest) =
      (splitGroup '{' '}' depth rest).map fun (inside, after) =>
        ((es.flatMap fun e => ' ' :: e.chars) ++ inside, after) := by
  induction es with
  | nil => simp
  | cons e es ih =>
    rw [List.flatMap_cons, List.append_assoc]
    cases e with
    | function f =>
      have hchars : ∀ c ∈ ' ' :: (Entry.function f).chars, isBodyChar c := by
        rw [Entry.chars, f.chars_eq]
        simp only [List.forall_mem_cons, List.forall_mem_append]
        exact ⟨rfl, fun c hc => isBodyChar_of_isMemberChar (f.isMemberChar_chars c hc), rfl,
          List.forall_mem_nil _⟩
      rw [splitGroup_append _ (isBodyChar_ne_brace hchars), ih]
      simp [Function.comp_def]
    | definition c =>
      have hhead : ∀ x ∈ ' ' :: c.headChars ++ [' '], isBodyChar x := fun x hx =>
        isBodyChar_of_isMemberChar (c.isMemberChar_spaced x hx)
      have hend : splitGroup '{' '}' depth (';' :: ((es.flatMap fun e => ' ' :: e.chars) ++ rest)) =
          (splitGroup '{' '}' depth ((es.flatMap fun e => ' ' :: e.chars) ++ rest)).map
            fun (inside, after) => (';' :: inside, after) :=
        splitGroup_append [';'] (by simp)
      rw [c.chars_append, splitGroup_append _ (isBodyChar_ne_brace hhead), ← List.cons_append,
        splitGroup_group (isBodyChar_ne_brace c.isBodyChar_bodyChars) (by decide), hend, ih]
      simp [Function.comp_def, Entry.chars, ClassSyntax.chars]

theorem HeaderSyntax.scope_toList (h : HeaderSyntax) :
    h.scope.toList = joinWith [':', ':'] (h.path.map fun w => w.text.toList) := by
  rw [HeaderSyntax.scope, String.toList_intercalate, intercalate_eq_joinWith, List.map_map]
  rfl

theorem HeaderSyntax.qualifiedName_scope (h : HeaderSyntax) (hpath : h.path ≠ []) :
    QualifiedName h.scope.toList :=
  ⟨_, by simpa using hpath, List.forall_mem_map.2 fun w _ => w.identifier, h.scope_toList⟩

theorem HeaderSyntax.mem_scope (h : HeaderSyntax) : ∀ c ∈ h.scope.toList, isWord c ∨ c = ':' := by
  rw [h.scope_toList]
  refine forall_mem_joinWith (by simp) ?_
  simp only [List.forall_mem_map]
  exact fun w _ c hc => .inl (w.isWord_chars c hc)

/-- The head of a namespace gives back its name. -/
theorem blockKind_namespace {name : List Char} (h : QualifiedName name) :
    blockKind ("namespace".toList ++ ' ' :: name) = .scope (String.ofList name) := by
  obtain ⟨c, rest, hcons, hc⟩ := h.starts
  have hall : name.all (fun c => isWordAnywhere c || c == ':') = true := by
    rw [List.all_eq_true]
    intro c hc
    rcases h.isWord_or_colon c hc with hc | rfl
    · simp [isWordAnywhere_of_isWord hc]
    · simp
  have hinline : after? "inline" ("namespace".toList ++ ' ' :: name) = none := rfl
  have hafter : after? "namespace" ("namespace".toList ++ ' ' :: name) = some (' ' :: name) :=
    after?_eq_some_iff.2 rfl
  have htrim : trim (' ' :: name) = name :=
    (Tidy.of_solid h.isBlank_eq_false).trim_cons (by simp [hcons])
  have hname : namespaceName? ("namespace".toList ++ ' ' :: name) = some (String.ofList name) := by
    rw [namespaceName?, hinline]
    simp only [Option.bind_none, Option.getD_none, hafter, Option.bind_some, htrim, hall]
    simp [hcons, hc, isBlank]
  rw [blockKind, hname]

theorem tidy_namespace {name : List Char} (h : QualifiedName name) :
    Tidy ("namespace".toList ++ ' ' :: name) := by
  obtain ⟨c, rest, hcons, hc⟩ := h.starts
  have hnamespace : Tidy "namespace".toList := .of_solid (by simp [isBlank])
  refine hnamespace.spaced (.of_solid h.isBlank_eq_false) (by simp) (by simp [hcons]) (by simp) ?_
  simp only [hcons, List.head?_cons, Option.mem_some_iff, forall_eq']
  exact apart_of_isWordStart hc

/-- A namespace block stands for the items inside it, in its scope. -/
theorem HeaderSyntax.items_namespace (h : HeaderSyntax) (hpath : h.path ≠ []) :
    items "" ("namespace ".toList ++ h.scope.toList ++ ' ' :: '{' :: h.bodyChars ++ [' ', '}']) =
      items h.scope (h.bodyChars ++ [' ']) := by
  have hname := h.qualifiedName_scope hpath
  obtain ⟨c, rest, hcons, -⟩ := hname.starts
  have hchars : "namespace ".toList ++ h.scope.toList ++ ' ' :: '{' :: h.bodyChars ++
      [' ', '}'] =
        ("namespace".toList ++ ' ' :: h.scope.toList ++ [' ']) ++
          '{' :: (h.bodyChars ++ [' ', '}']) := by simp
  have hmarks : ∀ x ∈ "namespace".toList ++ ' ' :: h.scope.toList ++ [' '], isMark x = false := by
    simp only [List.forall_mem_append, List.forall_mem_cons]
    refine ⟨⟨by simp [isMark], rfl, fun x hx => ?_⟩, rfl, List.forall_mem_nil _⟩
    rcases h.mem_scope x hx with hx | rfl
    · exact isMark_eq_false (by simp [isMemberChar, hx])
    · rfl
  have hgroup : splitGroup '{' '}' 0 (h.bodyChars ++ [' ', '}']) =
      some (h.bodyChars ++ [' '], []) := by
    rw [HeaderSyntax.bodyChars, splitGroup_entries]
    rfl
  have htrim := (tidy_namespace hname).trim_append [] [' '] (by simp) (by simp) (by simp [isBlank])
  rw [List.nil_append] at htrim
  have hscope : joinScopes "" h.scope = h.scope := by
    have hne : h.scope ≠ "" := by
      rw [ne_eq, ← String.toList_eq_nil_iff]
      simp [hcons]
    simp [joinScopes, hne]
  have hnil : items "" [] = [] := items_eq_nil (List.forall_mem_nil _)
  rw [hchars, items_block hmarks hgroup, htrim, blockKind_namespace hname,
    String.ofList_toList, hnil]
  simp only [hscope, List.append_nil]

/-- The items of a printed header are those of its entries, in its namespace. -/
theorem HeaderSyntax.items_chars (h : HeaderSyntax) :
    items "" h.chars = h.entries.flatMap (Entry.items h.scope) := by
  rw [HeaderSyntax.chars]
  split
  · next hpath =>
    have hscope : h.scope = "" := by
      simp [HeaderSyntax.scope, List.isEmpty_iff.1 hpath]
    have hitems := items_entries "" h.entries [] (by simp)
    rw [List.append_nil] at hitems
    rw [hscope]
    exact hitems
  · next hpath =>
    rw [h.items_namespace (by simpa using hpath)]
    exact items_entries h.scope h.entries [' '] (by simp [isMark])

end Namespaces

section Tables

/-- Classes of different names are kept apart, and none is lost. -/
theorem foldl_insert_perm (cs : List ClassModel) (t : ModelTable)
    (hnames : (cs.map (·.qualifiedName)).Nodup)
    (hkeys : ∀ e ∈ t.classes, e.1.className = e.2.qualifiedName)
    (hnew : ∀ e ∈ t.classes, ∀ c ∈ cs, e.2.qualifiedName ≠ c.qualifiedName) :
    (cs.foldl ModelTable.insert t).classes.Perm
      (t.classes ++ cs.map fun c => (⟨c.header, c.qualifiedName⟩, c)) := by
  induction cs generalizing t with
  | nil => simp
  | cons c cs ih =>
    rw [List.map_cons, List.nodup_cons] at hnames
    have hinsert : t.insert c =
        { t with classes := ModelTable.insertEntry ⟨c.header, c.qualifiedName⟩ c t.classes } := by
      rw [ModelTable.insert,
        ModelTable.mergeInto?_eq_none fun e he => hnew e he c List.mem_cons_self]
    have hperm : (t.insert c).classes.Perm ((⟨c.header, c.qualifiedName⟩, c) :: t.classes) := by
      rw [hinsert]
      refine ModelTable.insertEntry_perm fun e he => ?_
      rw [hkeys e he]
      exact hnew e he c List.mem_cons_self
    rw [List.foldl_cons]
    refine (ih (t.insert c) hnames.2 (fun e he => ?_) fun e he d hd => ?_).trans ?_
    · rcases List.mem_cons.1 (hperm.mem_iff.1 he) with rfl | he
      · rfl
      · exact hkeys e he
    · rcases List.mem_cons.1 (hperm.mem_iff.1 he) with rfl | he
      · exact fun heq => hnames.1 (heq ▸ List.mem_map_of_mem hd)
      · exact hnew e he d (List.mem_cons_of_mem _ hd)
    · rw [List.map_cons]
      exact (hperm.append_right _).trans List.perm_middle.symm

end Tables

section Extraction
variable {scope : String} {header : SourceUnit}

/-- A printed function is read back. -/
theorem FunctionSyntax.function?_chars (f : FunctionSyntax) :
    Header.function? header scope (' ' :: functionChars f.declared.chars f.parameters false) =
      some (f.model scope header) := by
  have hparen : '(' ∈ functionChars f.declared.chars f.parameters false := by
    simp [functionChars]
  have htrim : trim (' ' :: functionChars f.declared.chars f.parameters false) =
      functionChars f.declared.chars f.parameters false :=
    ((isHead_declared f.declared).legible f.parameters false).tidy.trim_cons
      (by simp [functionChars])
  have hparse : parse none .everyone (functionChars f.declared.chars f.parameters false) =
      .method f.method :=
    parse_declared f.declared (by simp) false false f.parameters [] (by simp)
  have hname : (f.method.name == "main" || isMacroName f.method.name) = false := by
    rw [Bool.or_eq_false_iff, beq_eq_false_iff_ne]
    exact ⟨f.library, f.ordinary⟩
  rw [Header.function?]
  simp only [htrim, hparse, hname, List.contains_eq_mem, hparen, decide_true, Bool.not_true,
    Bool.false_eq_true, if_false]
  rfl

theorem filterMap_itemClass? (es : List Entry) :
    (es.flatMap (Entry.items scope)).filterMap (itemClass? header) =
      (es.filterMap Entry.class?).map (·.model scope header) := by
  induction es with
  | nil => rfl
  | cons e es ih =>
    rw [List.flatMap_cons, List.filterMap_append, ih]
    cases e with
    | definition c =>
      simp [List.filterMap_cons, Entry.items, Entry.class?, itemClass?, c.classModel_bodyChars]
    | function f => simp [List.filterMap_cons, Entry.items, Entry.class?, itemClass?]

theorem filterMap_itemFunction? (es : List Entry) :
    (es.flatMap (Entry.items scope)).filterMap (itemFunction? header) =
      (es.filterMap Entry.function?).map (·.model scope header) := by
  have hempty : Header.function? header scope [] = none := rfl
  induction es with
  | nil => rfl
  | cons e es ih =>
    rw [List.flatMap_cons, List.filterMap_append, ih]
    cases e with
    | definition c =>
      simp [List.filterMap_cons, Entry.items, Entry.function?, itemFunction?, hempty]
    | function f =>
      simp [Entry.items, Entry.function?, itemFunction?, f.function?_chars]

theorem Entry.isEntryChar_chars (e : Entry) : ∀ x ∈ e.chars, isEntryChar x := by
  have hbody : ∀ {x}, isBodyChar x → isEntryChar x := fun hx => by simp [isEntryChar, hx]
  have hmember : ∀ {x}, isMemberChar x → isEntryChar x := fun hx =>
    hbody (isBodyChar_of_isMemberChar hx)
  cases e with
  | definition c =>
    simp only [Entry.chars, ClassSyntax.chars, List.forall_mem_append, List.forall_mem_cons]
    exact ⟨⟨fun x hx => hmember (c.isMemberChar_headChars x hx), rfl, rfl,
      fun x hx => hbody (c.isBodyChar_bodyChars x hx)⟩, rfl, rfl, List.forall_mem_nil _⟩
  | function f =>
    rw [Entry.chars, f.chars_eq]
    simp only [List.forall_mem_append, List.forall_mem_cons]
    exact ⟨fun x hx => hmember (f.isMemberChar_chars x hx), rfl, List.forall_mem_nil _⟩

theorem HeaderSyntax.isEntryChar_chars (h : HeaderSyntax) : ∀ x ∈ h.chars, isEntryChar x := by
  have hbody : ∀ x ∈ h.bodyChars, isEntryChar x := by
    rw [HeaderSyntax.bodyChars]
    intro x hx
    obtain ⟨e, -, hx⟩ := List.mem_flatMap.1 hx
    rcases List.mem_cons.1 hx with rfl | hx
    · rfl
    · exact e.isEntryChar_chars x hx
  rw [HeaderSyntax.chars]
  split
  · exact hbody
  · simp only [List.forall_mem_append, List.forall_mem_cons]
    refine ⟨⟨⟨?_, fun x hx => ?_⟩, rfl, rfl, hbody⟩, rfl, rfl, List.forall_mem_nil _⟩
    · simp [isEntryChar, isBodyChar, isMemberChar, isWord]
    · rcases h.mem_scope x hx with hx | rfl
      · simp [isEntryChar, isBodyChar, isMemberChar, hx]
      · rfl

/-- A printed header is code without literals, so that masking does not change it. -/
theorem HeaderSyntax.sanitize_chars (h : HeaderSyntax) : sanitize h.chars = h.chars := by
  refine sanitize_eq_self (fun c hc => ?_) (not_mem_of_holds h.isEntryChar_chars (by decide))
  have hentry := h.isEntryChar_chars c hc
  exact ⟨ne_of_holds hentry (by decide), ne_of_holds hentry (by decide),
    ne_of_holds hentry (by decide)⟩

theorem qualify_injective {a b : String} (h : qualify scope a = qualify scope b) : a = b := by
  unfold qualify at h
  split at h
  · exact h
  · simpa [← String.toList_inj] using h

/-- Reading a printed header gives the classes and the functions that it was printed from, each
with all that it declares. -/
theorem extract_chars (limits : Limits) (header : SourceUnit) (h : HeaderSyntax) :
    (extract limits header (String.ofList h.chars)).classes.Perm
        (h.classes.map fun c =>
          (⟨header, qualify h.scope c.name.text⟩, c.model h.scope header)) ∧
      (extract limits header (String.ofList h.chars)).functions =
        if limits.includeFunctions then
          (h.functions.map (·.model h.scope header)).take limits.functionsPerHeader
        else [] := by
  have hextract : extract limits header (String.ofList h.chars) =
      ofItems limits header (h.entries.flatMap (Entry.items h.scope)) := by
    rw [extract, String.toList_ofList, h.sanitize_chars, h.items_chars]
  rw [hextract, ofItems, filterMap_itemClass?, filterMap_itemFunction?]
  refine ⟨?_, rfl⟩
  have hnodup : ((h.classes.map (·.model h.scope header)).map (·.qualifiedName)).Nodup := by
    have hnames := h.distinct.map (f := qualify h.scope) fun _ _ => qualify_injective
    rw [List.map_map] at hnames ⊢
    exact hnames
  have hperm := foldl_insert_perm _ {} hnodup (by simp) (by simp)
  rw [List.nil_append, List.map_map] at hperm
  exact hperm

/-- A class with a base and two sections, and a function, in a nested namespace. -/
def ringHeader : HeaderSyntax :=
  let int : TypeSyntax .whole := .plain (.name ⟨"int", by decide, by decide⟩)
  let vector : TypeSyntax .qualified :=
    .member (.name ⟨"std", by decide, by decide⟩) ⟨"vector", by decide, by decide⟩
  let ints : TypeSyntax .whole := .declarator (.const (.applied vector (.last int))) .reference
  let items : Declared := ⟨ints, ⟨⟨"items", by decide, by decide⟩, by decide⟩⟩
  let size : Declared := ⟨int, ⟨⟨"size", by decide, by decide⟩, by decide⟩⟩
  let count : Declared := ⟨int, ⟨⟨"count", by decide, by decide⟩, by decide⟩⟩
  let ring : ClassSyntax :=
    { name := ⟨⟨"Ring", by decide, by decide⟩, by decide⟩
      bases := [.name ⟨"Base", by decide, by decide⟩]
      sections :=
        [⟨.everyone, [.constructor [items], .method false true size [] (by decide)]⟩,
          ⟨.owner, [.field count]⟩]
      nonempty := by simp }
  { path := [⟨"util", by decide, by decide⟩, ⟨"io", by decide, by decide⟩]
    entries := [.definition ring, .function ⟨size, [items], by decide, by decide⟩]
    distinct := by simp [List.filterMap_cons, Entry.class?] }

theorem extract_chars_ring :
    String.ofList ringHeader.chars =
      "namespace util::io \x7b class Ring : public Base \x7b public: " ++
        "Ring(const std::vector<int>& items); int size() const; private: int count; \x7d; " ++
        "int size(const std::vector<int>& items); \x7d" ∧
    (extract {} ⟨⟨"ring.h"⟩, .header⟩ (String.ofList ringHeader.chars)).classes =
      [(⟨⟨⟨"ring.h"⟩, .header⟩, "util::io::Ring"⟩,
        { name := "Ring", scope := "util::io", bases := ⟨["Base"]⟩
          methods :=
            [{ name := "Ring", returnType := ""
               parameters := [⟨"const std::vector<int>&", "items", false⟩]
               flags := { isConstructor := true }, access := .everyone },
              { name := "size", returnType := "int", parameters := []
                flags := { isConst := true }, access := .everyone }]
          memberVariables := [("int", "count")], hasDefaultConstructor := false
          isAbstract := false, header := ⟨⟨"ring.h"⟩, .header⟩, isStruct := false
          declaredConstructors := 1 })] ∧
    (extract {} ⟨⟨"ring.h"⟩, .header⟩ (String.ofList ringHeader.chars)).functions =
      [⟨"util::io",
        { name := "size", returnType := "int"
          parameters := [⟨"const std::vector<int>&", "items", false⟩], flags := {}
          access := .everyone }, ⟨⟨"ring.h"⟩, .header⟩⟩] := by
  obtain ⟨hclasses, hfunctions⟩ := extract_chars {} ⟨⟨"ring.h"⟩, .header⟩ ringHeader
  refine ⟨by decide +kernel, ?_, ?_⟩
  · have hmodel := List.perm_singleton.1 hclasses
    rw [hmodel]
    decide +kernel
  · rw [hfunctions]
    decide +kernel

end Extraction

end TestSynth.Header
