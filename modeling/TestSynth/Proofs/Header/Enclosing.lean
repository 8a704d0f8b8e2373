import Mathlib
import TestSynth.Proofs.Header.Members
import TestSynth.Proofs.Header.RoundTrip
/-!
Blocks around a text. A namespace puts its name before the scope of everything inside it, an unnamed
one and a linkage block leave it alone, and nothing else about the declarations changes.
-/
namespace TestSynth

section Scopes
variable {outer : String}

/-- The class in a further namespace around its own. -/
def ClassModel.within (outer : String) (c : ClassModel) : ClassModel :=
  { c with scope := Header.joinScopes outer c.scope }

def FreeFunction.within (outer : String) (f : FreeFunction) : FreeFunction :=
  { f with scope := Header.joinScopes outer f.scope }

def ClassKey.within (outer : String) (k : ClassKey) : ClassKey :=
  { k with className := qualify outer k.className }

/-- The table of the same declarations in a further namespace. -/
def ModelTable.within (outer : String) (t : ModelTable) : ModelTable :=
  { classes := t.classes.map (Prod.map (ClassKey.within outer) (ClassModel.within outer))
    functions := t.functions.map (FreeFunction.within outer) }

theorem joinScopes_empty (scope : String) : Header.joinScopes "" scope = scope := by
  rw [Header.joinScopes]
  split
  · next h => exact (String.isEmpty_iff.1 h).symm
  · rfl

theorem within_empty (t : ModelTable) : t.within "" = t := by
  have hclass : ClassModel.within "" = id := funext fun c => by
    rw [ClassModel.within, joinScopes_empty]
    rfl
  have hfunction : FreeFunction.within "" = id := funext fun f => by
    rw [FreeFunction.within, joinScopes_empty]
    rfl
  have hkey : ClassKey.within "" = id := funext fun k => rfl
  rw [ModelTable.within, hclass, hfunction, hkey, Prod.map_id, List.map_id, List.map_id]

theorem joinScopes_assoc (a b c : String) :
    Header.joinScopes (Header.joinScopes a b) c = Header.joinScopes a (Header.joinScopes b c) := by
  cases hc : c.isEmpty with
  | true => simp [Header.joinScopes, hc]
  | false =>
    cases hb : b.isEmpty with
    | true => simp [Header.joinScopes, hc, hb]
    | false =>
      cases ha : a.isEmpty with
      | true => simp [Header.joinScopes, hc, hb, ha]
      | false => simp [Header.joinScopes, hc, hb, ha, String.append_assoc]

theorem qualify_joinScopes (outer scope name : String) :
    qualify (Header.joinScopes outer scope) name = qualify outer (qualify scope name) := by
  cases hscope : scope.isEmpty with
  | true => simp [Header.joinScopes, qualify, hscope]
  | false =>
    cases houter : outer.isEmpty with
    | true => simp [Header.joinScopes, qualify, hscope, houter]
    | false => simp [Header.joinScopes, qualify, hscope, houter, String.append_assoc]

theorem qualifiedName_within (c : ClassModel) :
    (c.within outer).qualifiedName = qualify outer c.qualifiedName :=
  qualify_joinScopes outer c.scope c.name

/-- The same namespace before two names keeps their order. -/
theorem compare_qualify (outer a b : String) :
    compare (qualify outer a) (qualify outer b) = compare a b := by
  have hlt : ∀ {a b : String}, a < b → qualify outer a < qualify outer b := fun h => by
    rw [qualify, qualify]
    split
    · exact h
    · rw [String.lt_iff_toList_lt, String.toList_append, String.toList_append (s := outer ++ "::")]
      exact List.append_left_lt (String.lt_iff_toList_lt.1 h)
  rcases lt_trichotomy a b with h | rfl | h
  · rw [compare_lt_iff_lt.2 h, compare_lt_iff_lt.2 (hlt h)]
  · rw [compare_eq_iff_eq.2 rfl, compare_eq_iff_eq.2 rfl]
  · rw [compare_gt_iff_gt.2 h, compare_gt_iff_gt.2 (hlt h)]

theorem qualify_injective (outer : String) : Function.Injective (qualify outer) := fun a b h =>
  compare_eq_iff_eq.1 ((compare_qualify outer a b).symm.trans (compare_eq_iff_eq.2 h))

theorem ClassKey.order_within (k l : ClassKey) :
    (k.within outer).order (l.within outer) = k.order l :=
  congrArg (k.header.order l.header).then (compare_qualify outer k.className l.className)

namespace ModelTable

theorem insertEntry_within (k : ClassKey) (c : ClassModel)
    (entries : List (ClassKey × ClassModel)) :
    insertEntry (k.within outer) (c.within outer)
        (entries.map (Prod.map (ClassKey.within outer) (ClassModel.within outer))) =
      (insertEntry k c entries).map
        (Prod.map (ClassKey.within outer) (ClassModel.within outer)) := by
  induction entries with
  | nil => rfl
  | cons e entries ih =>
    rw [List.map_cons, insertEntry, insertEntry, Prod.map_fst, ClassKey.order_within]
    cases k.order e.1 with
    | lt | eq => rfl
    | gt => rw [ih]; rfl

theorem mergeInto?_within (c : ClassModel) (entries : List (ClassKey × ClassModel)) :
    mergeInto? (c.within outer)
        (entries.map (Prod.map (ClassKey.within outer) (ClassModel.within outer))) =
      (mergeInto? c entries).map
        (List.map (Prod.map (ClassKey.within outer) (ClassModel.within outer))) := by
  induction entries with
  | nil => rfl
  | cons e entries ih =>
    have hname : ((e.2.within outer).qualifiedName == (c.within outer).qualifiedName) =
        (e.2.qualifiedName == c.qualifiedName) := by
      rw [qualifiedName_within, qualifiedName_within, Bool.eq_iff_iff, beq_iff_eq, beq_iff_eq,
        (qualify_injective outer).eq_iff]
    rw [List.map_cons, mergeInto?, mergeInto?, Prod.map_snd, hname, ih]
    split
    · rfl
    · rw [Option.map_map, Option.map_map]; rfl

/-- Adding a definition commutes with the namespace around all of them. -/
theorem insert_within (t : ModelTable) (c : ClassModel) :
    (t.within outer).insert (c.within outer) = (t.insert c).within outer := by
  rw [insert, insert, within, mergeInto?_within]
  cases mergeInto? c t.classes with
  | some classes => rfl
  | none =>
    have hkey : ClassKey.mk (c.within outer).header (c.within outer).qualifiedName =
        (ClassKey.mk c.header c.qualifiedName).within outer := by
      rw [qualifiedName_within]
      rfl
    dsimp only [Option.map_none]
    rw [hkey, insertEntry_within]
    rfl

theorem foldl_insert_within (outer : String) (cs : List ClassModel) (t : ModelTable) :
    (cs.map (ClassModel.within outer)).foldl insert (t.within outer) =
      (cs.foldl insert t).within outer := by
  rw [List.foldl_map]
  exact List.foldl_hom (within outer) fun t c => insert_within t c

end ModelTable

end Scopes

namespace Header

open Text

section Items
variable {outer scope : String} {limits : Limits} {header : SourceUnit} {a b cs : List Char}

/-- The item in a further namespace. -/
def Item.within (outer : String) : Item → Item
  | .classBody scope head body => .classBody (joinScopes outer scope) head body
  | .statement scope text => .statement (joinScopes outer scope) text

/-- Where a text stands only shows in the scope of its items. -/
theorem items_joinScopes (outer scope : String) (cs : List Char) :
    items (joinScopes outer scope) cs = (items scope cs).map (Item.within outer) := by
  induction cs using text_induction generalizing scope with
  | unmarked s hs => rw [items_eq_nil hs, items_eq_nil hs]; rfl
  | statement s after hs ih =>
    rw [items_statement hs, items_statement hs, ih]
    rfl
  | stray s after hs ih => rw [items_stray hs, items_stray hs, ih]
  | unclosed s after hs hgroup => rw [items_unclosed hs hgroup, items_unclosed hs hgroup]; rfl
  | block s after inside rest hs hgroup hinside hrest =>
    rw [items_block hs hgroup, items_block hs hgroup, List.map_append, hrest]
    congr 1
    cases blockKind (trim s) with
    | scope name => dsimp only; rw [joinScopes_assoc, hinside]
    | linkage => exact hinside scope
    | definition head => dsimp only; split <;> rfl
    | function | other => rfl

theorem declare_within (access : Access) (c : ClassModel) (d : Declaration) :
    declare access (c.within outer) d = (declare access c d).within outer := by
  cases d <;> rfl

/-- The body of a class is read without its namespace. -/
theorem classModel_joinScopes (head : ClassHead) (body : List Char) (outer scope : String)
    (header : SourceUnit) : classModel head body (joinScopes outer scope) header =
      (classModel head body scope header).within outer := by
  have hfold : ∀ (ds : List (Access × Declaration)) (c : ClassModel),
      ds.foldl (fun c d => declare d.1 c d.2) (c.within outer) =
        (ds.foldl (fun c d => declare d.1 c d.2) c).within outer := fun ds c =>
    List.foldl_hom (ClassModel.within outer) fun c d => declare_within d.1 c d.2
  rw [classModel_eq, classModel_eq]
  exact congrArg (fun c : ClassModel => { c with hasDefaultConstructor :=
    c.declaredConstructors == 0 || c.constructors.any (·.callableWithoutArguments) }) (hfold _
      { name := head.name, scope, bases := head.bases, methods := [], memberVariables := []
        hasDefaultConstructor := false, isAbstract := false, header, isStruct := head.isStruct })

theorem function?_joinScopes (header : SourceUnit) (outer scope : String) (text : List Char) :
    function? header (joinScopes outer scope) text =
      (function? header scope text).map (FreeFunction.within outer) := by
  unfold function?
  dsimp only
  split
  · rfl
  · split
    · split <;> rfl
    · rfl

theorem filterMap_itemClass?_within (items : List Item) :
    (items.map (Item.within outer)).filterMap (itemClass? header) =
      (items.filterMap (itemClass? header)).map (ClassModel.within outer) := by
  rw [List.filterMap_map, List.map_filterMap]
  refine List.filterMap_congr fun item _ => ?_
  cases item with
  | classBody scope head body =>
    exact congrArg some (classModel_joinScopes head body outer scope header)
  | statement scope text => rfl

theorem filterMap_itemFunction?_within (items : List Item) :
    (items.map (Item.within outer)).filterMap (itemFunction? header) =
      (items.filterMap (itemFunction? header)).map (FreeFunction.within outer) := by
  rw [List.filterMap_map, List.map_filterMap]
  refine List.filterMap_congr fun item _ => ?_
  cases item with
  | classBody scope head body => rfl
  | statement scope text => exact function?_joinScopes header outer scope text

/-- The table of items in a namespace is that of the items, in the namespace. -/
theorem ofItems_within (limits : Limits) (header : SourceUnit) (outer : String)
    (items : List Item) :
    ofItems limits header (items.map (Item.within outer)) =
      (ofItems limits header items).within outer := by
  have hclasses := ModelTable.foldl_insert_within outer
    (items.filterMap (itemClass? header)) {}
  have hempty : ModelTable.within outer {} = {} := rfl
  rw [hempty] at hclasses
  rw [ofItems, ofItems, filterMap_itemClass?_within, filterMap_itemFunction?_within, hclasses]
  split
  · rw [← List.map_take]
    rfl
  · rfl

end Items

section Blocks
variable {scope name : String} {limits : Limits} {header : SourceUnit}
  {head a b cs inside : List Char}

/-- Behind the last mark nothing is an item. -/
theorem items_append_unmarked (hb : Unmarked b) (scope : String) (cs : List Char) :
    items scope (cs ++ b) = items scope cs := by
  induction cs using text_induction generalizing scope with
  | unmarked s hs =>
    rw [items_eq_nil hs, items_eq_nil (List.forall_mem_append.2 ⟨hs, hb⟩)]
  | statement s after hs ih =>
    rw [List.append_assoc, List.cons_append, items_statement hs, items_statement hs, ih]
  | stray s after hs ih =>
    rw [List.append_assoc, List.cons_append, items_stray hs, items_stray hs, ih]
  | unclosed s after hs hgroup =>
    -- A brace that closes the group would stand in front of the text without marks.
    have hgroup' : splitGroup '{' '}' 0 (after ++ b) = none := by
      rw [Option.eq_none_iff_forall_not_mem]
      rintro ⟨inside, rest⟩ hsome
      obtain ⟨hsplit, hopen⟩ := splitGroup_braces_iff.1 hsome
      rcases List.append_eq_append_iff.1 hsplit with ⟨c, -, rfl⟩ | ⟨c, rfl, hrest⟩
      · exact hb.not_mem (c := '}') rfl (by simp)
      · cases c with
        | nil =>
          rw [List.nil_append] at hrest
          exact hb.not_mem (c := '}') rfl (hrest ▸ List.mem_cons_self)
        | cons d c =>
          cases hrest
          rw [splitGroup_braces_iff.2 ⟨rfl, hopen⟩] at hgroup
          cases hgroup
    rw [List.append_assoc, List.cons_append, items_unclosed hs hgroup, items_unclosed hs hgroup']
  | block s after inside rest hs hgroup hinside ih =>
    obtain ⟨rfl, hopen⟩ := splitGroup_braces_iff.1 hgroup
    have hgroup' : splitGroup '{' '}' 0 (inside ++ '}' :: rest ++ b) = some (inside, rest ++ b) :=
      splitGroup_braces_iff.2 ⟨by simp, hopen⟩
    rw [List.append_assoc, List.cons_append, items_block hs hgroup', items_block hs hgroup, ih]

/-- Items that come to the same classes and functions come to the same table. -/
theorem ofItems_congr {is js : List Item}
    (hclasses : is.filterMap (itemClass? header) = js.filterMap (itemClass? header))
    (hfunctions : is.filterMap (itemFunction? header) = js.filterMap (itemFunction? header)) :
    ofItems limits header is = ofItems limits header js := by
  rw [ofItems, ofItems, hclasses, hfunctions]

/-- Blanks around a text say nothing. -/
theorem ofItems_blanks (limits : Limits) (header : SourceUnit) (scope : String) (cs : List Char)
    (ha : ∀ c ∈ a, isBlank c) (hb : ∀ c ∈ b, isBlank c) :
    ofItems limits header (items scope (a ++ (cs ++ b))) =
      ofItems limits header (items scope cs) := by
  have hback := items_append_unmarked (unmarked_of_blanks hb) scope cs
  refine ofItems_congr ?_ ?_
  · rw [filterMap_items_blanks (fun _ _ _ _ => rfl) ha, hback]
  · rw [filterMap_items_blanks (fun _ _ _ h => by simp only [itemFunction?, function?, h]) ha,
      hback]

/-- A block with this head around a text. -/
def enclose (head inside : List Char) : List Char :=
  head ++ ' ' :: '{' :: ' ' :: (inside ++ [' ', '}'])

/-- A text on lines of its own. -/
def onLines (cs : List Char) : List Char := '\n' :: (cs ++ ['\n'])

/-- The head of a block that is looked into, by the name it adds to the scope. -/
structure Opens (head : List Char) (name : String) : Prop where
  unmarked : Unmarked head
  kind : blockKind (trim head) = .scope name ∨ blockKind (trim head) = .linkage ∧ name = ""

/-- A block around a text, as a head and a group of braces. -/
theorem Opens.split (h : Opens head name) (hinside : bracesBalanced inside) :
    enclose head inside = (head ++ [' ']) ++ '{' :: ((' ' :: (inside ++ [' '])) ++ '}' :: []) ∧
      Unmarked (head ++ [' ']) ∧ bracesBalanced (' ' :: (inside ++ [' '])) := by
  refine ⟨by simp [enclose], ?_, ?_⟩
  · rw [Unmarked, List.forall_mem_append]
    exact ⟨h.unmarked, by simp [isMark]⟩
  · rw [bracesBalanced_cons (by decide) (by decide), bracesBalanced_append hinside]
    rfl

theorem Opens.balanced (h : Opens head name) (hinside : bracesBalanced inside) :
    bracesBalanced (enclose head inside) := by
  obtain ⟨hblock, hhead, hgroup⟩ := h.split hinside
  rw [hblock, bracesBalanced_append (bracesBalanced_of_unmarked hhead), bracesBalanced_block hgroup]
  rfl

/-- What stands in a block that is looked into counts as if it stood there in the scope that the
block opens. -/
theorem Opens.ofItems_enclose (h : Opens head name) (hinside : bracesBalanced inside) :
    ofItems limits header (items scope (enclose head inside)) =
      ofItems limits header (items (joinScopes scope name) inside) := by
  obtain ⟨hblock, hhead, hgroup⟩ := h.split hinside
  have hnil : items scope [] = [] := items_eq_nil (List.forall_mem_nil _)
  rw [hblock, items_block hhead (splitGroup_of_balanced hgroup _), hnil, List.append_nil,
    trim_append_blanks (by simp),
    ← ofItems_blanks limits header (joinScopes scope name) inside (a := [' ']) (b := [' '])
      (by simp) (by simp)]
  rcases h.kind with hkind | ⟨hkind, rfl⟩
  · rw [hkind]
    rfl
  · rw [hkind]
    rfl

end Blocks

section Headers
variable {limits : Limits} {header : SourceUnit} {text x a b : String}
  {opens : List (String × String)} {cs : List Char}

theorem ofItems_foldr_enclose (hopens : ∀ o ∈ opens, Opens o.1.toList o.2)
    (hcs : bracesBalanced cs) (scope : String) :
    bracesBalanced (((opens.map (·.1)).map String.toList).foldr enclose cs) ∧
    ofItems limits header (items scope (((opens.map (·.1)).map String.toList).foldr enclose cs)) =
      ofItems limits header (items (opens.foldl (fun s o => joinScopes s o.2) scope) cs) := by
  induction opens generalizing scope with
  | nil => exact ⟨hcs, rfl⟩
  | cons o opens ih =>
    rw [List.forall_mem_cons] at hopens
    obtain ⟨hbalanced, hitems⟩ := ih hopens.2 (joinScopes scope o.2)
    rw [List.map_cons, List.map_cons, List.foldr_cons, List.foldl_cons]
    exact ⟨hopens.1.balanced hbalanced, (hopens.1.ofItems_enclose hbalanced).trans hitems⟩

/-- A text that may stand in a block, on lines of its own: it ends in code and in no directive that
goes on, and its braces stand in pairs. -/
structure SelfStanding (x : String) : Prop where
  code : regionAfter .code none x.toList = .code
  directive : continuesDirective false (linesWithEnds (stripComments x.toList)) = false
  balanced : bracesBalanced (sanitize x.toList)

/-- A header that is masked to blocks around a masked text declares what the text does, in the scope
that the blocks open. -/
theorem extract_of_sanitize (hx : SelfStanding x) (opens : List (String × String))
    (hopens : ∀ o ∈ opens, Opens o.1.toList o.2)
    (htext : sanitize text.toList =
      ((opens.map (·.1)).map String.toList).foldr enclose (onLines (sanitize x.toList)))
    (limits : Limits) (header : SourceUnit) : extract limits header text =
      (extract limits header x).within (opens.foldl (fun s o => joinScopes s o.2) "") := by
  have hbalanced : bracesBalanced (onLines (sanitize x.toList)) := by
    rw [onLines, bracesBalanced_cons (by decide) (by decide), bracesBalanced_append hx.balanced]
    rfl
  have hblanks : ∀ scope, ofItems limits header (items scope (onLines (sanitize x.toList))) =
      ofItems limits header (items scope (sanitize x.toList)) := fun scope =>
    ofItems_blanks limits header scope _ (a := ['\n']) (b := ['\n']) (by simp [isBlank])
      (by simp [isBlank])
  have hscope := items_joinScopes (opens.foldl (fun s o => joinScopes s o.2) "") ""
    (sanitize x.toList)
  rw [extract, htext, (ofItems_foldr_enclose hopens hbalanced "").2, hblanks, extract,
    ← ofItems_within, ← hscope]
  rfl

/-- What stands in front of a text in blocks with these heads, up to the end of its line. -/
def opening (heads : List (List Char)) : List Char := heads.flatMap (· ++ [' ', '{', ' '])

theorem foldr_enclose (heads : List (List Char)) (cs : List Char) :
    heads.foldr enclose (onLines cs) = opening heads ++
      '\n' :: (cs ++ '\n' :: (List.replicate heads.length [' ', '}']).flatten) := by
  induction heads with
  | nil => simp [opening, onLines]
  | cons head heads ih =>
    rw [List.foldr_cons, ih, List.length_cons, List.replicate_succ']
    simp [enclose, opening]

/-- Blocks around a text are masked in front of it only. -/
theorem SelfStanding.sanitize_foldr_enclose (hx : SelfStanding x) (heads masked : List (List Char))
    (hlength : masked.length = heads.length)
    (hcode : regionAfter .code none (opening heads) = .code)
    (hdirective : continuesDirective false (linesWithEnds (stripComments (opening heads))) = false)
    (hmasked : sanitize (opening heads) = opening masked) :
    sanitize (heads.foldr enclose (onLines x.toList)) =
      masked.foldr enclose (onLines (sanitize x.toList)) := by
  have hback : sanitize (List.replicate heads.length [' ', '}']).flatten =
      (List.replicate heads.length [' ', '}']).flatten := by
    have hchars : ∀ c ∈ (List.replicate heads.length [' ', '}']).flatten, c = ' ' ∨ c = '}' := by
      simp
    refine sanitize_eq_self (fun c hc => ?_) fun hmem => ?_
    · rcases hchars c hc with rfl | rfl <;> decide
    · rcases hchars _ hmem with h | h <;> cases h
  rw [foldr_enclose, foldr_enclose, sanitize_line hcode hdirective,
    sanitize_line hx.code hx.directive, hmasked, hback, hlength]

/-- Characters that masking lets pass. -/
def Harmless (cs : List Char) : Prop := ∀ c ∈ cs, c ≠ '/' ∧ c ≠ '"' ∧ c ≠ '\'' ∧ c ≠ '#'

/-- A text in blocks with these heads, the outermost first, and on lines of its own. -/
def enclosed (heads : List String) (x : String) : String :=
  String.ofList ((heads.map String.toList).foldr enclose (onLines x.toList))

/-- In blocks whose heads are not masked, a text declares what it declares by itself, in their
scope. -/
theorem SelfStanding.extract_harmless (hx : SelfStanding x) (opens : List (String × String))
    (hopens : ∀ o ∈ opens, Opens o.1.toList o.2 ∧ Harmless o.1.toList) (limits : Limits)
    (header : SourceUnit) : extract limits header (enclosed (opens.map (·.1)) x) =
      (extract limits header x).within (opens.foldl (fun s o => joinScopes s o.2) "") := by
  have hharmless : Harmless (opening ((opens.map (·.1)).map String.toList)) := by
    simp only [Harmless, opening, List.forall_mem_flatMap, List.forall_mem_map,
      List.forall_mem_append]
    exact fun o ho => ⟨(hopens o ho).2, by simp⟩
  have hplain : ∀ c ∈ opening ((opens.map (·.1)).map String.toList),
      c ≠ '/' ∧ c ≠ '"' ∧ c ≠ '\'' := fun c hc =>
    ⟨(hharmless c hc).1, (hharmless c hc).2.1, (hharmless c hc).2.2.1⟩
  have hnot : '#' ∉ opening ((opens.map (·.1)).map String.toList) := fun hmem =>
    (hharmless _ hmem).2.2.2 rfl
  have hlines : ∀ line ∈
      linesWithEnds (stripComments (opening ((opens.map (·.1)).map String.toList))),
      '#' ∉ line := fun line hline hmem => by
    rw [stripComments_eq_self hplain] at hline
    have := List.mem_flatten_of_mem hline hmem
    rw [flatten_linesWithEnds] at this
    exact hnot this
  refine extract_of_sanitize hx opens (fun o ho => (hopens o ho).1) ?_ limits header
  rw [enclosed, String.toList_ofList]
  exact hx.sanitize_foldr_enclose _ _ rfl (regionAfter_code hplain)
    (continuesDirective_eq_false hlines) (sanitize_eq_self hplain hnot)

/-- A namespace block puts its name in front. -/
theorem opens_namespace (ha : QualifiedName a.toList) :
    Opens ("namespace " ++ a).toList a ∧ Harmless ("namespace " ++ a).toList := by
  have hhead : ("namespace " ++ a).toList = "namespace".toList ++ ' ' :: a.toList := by simp
  have hkeyword : ∀ c ∈ "namespace".toList, isWord c := by simp [isWord]
  have hchars : ∀ {c}, isWord c = false → c ≠ ':' → c ≠ ' ' →
      c ∉ "namespace".toList ++ ' ' :: a.toList := fun hword hcolon hspace hmem => by
    rcases List.mem_append.1 hmem with hmem | hmem
    · simpa [hword] using hkeyword _ hmem
    · rcases List.mem_cons.1 hmem with hmem | hmem
      · exact hspace hmem
      · exact ha.not_mem hword hcolon hmem
  rw [hhead]
  refine ⟨⟨fun c hc => ?_, .inl ?_⟩, fun c hc => ?_⟩
  · rw [isMark_eq_false_iff]
    refine ⟨?_, ?_, ?_⟩ <;> rintro rfl <;> exact hchars (by decide) (by decide) (by decide) hc
  · rw [(tidy_namespace ha).trim_eq, blockKind_namespace ha, String.ofList_toList]
  · refine ⟨?_, ?_, ?_, ?_⟩ <;> rintro rfl <;> exact hchars (by decide) (by decide) (by decide) hc

theorem joinScopes_identifiers (ha : isIdentifier a.toList) (hb : isIdentifier b.toList) :
    joinScopes a b = a ++ "::" ++ b := by
  have hne : ∀ {s : String}, isIdentifier s.toList → s.isEmpty = false := fun h => by
    rw [String.isEmpty_eq_false_iff]
    rintro rfl
    cases h
  rw [joinScopes, hne ha, hne hb]
  rfl

theorem SelfStanding.extract_namespace (hx : SelfStanding x) (ha : QualifiedName a.toList)
    (limits : Limits) (header : SourceUnit) :
    extract limits header (enclosed ["namespace " ++ a] x) =
      (extract limits header x).within a := by
  have hone := hx.extract_harmless [("namespace " ++ a, a)]
    (List.forall_mem_singleton.2 (opens_namespace ha)) limits header
  rw [List.foldl_cons, List.foldl_nil, joinScopes_empty] at hone
  exact hone

theorem SelfStanding.extract_unnamed (hx : SelfStanding x) (limits : Limits) (header : SourceUnit) :
    extract limits header (enclosed ["namespace"] x) = extract limits header x := by
  have hopens : Opens "namespace".toList "" ∧ Harmless "namespace".toList :=
    ⟨⟨by decide +kernel, .inl (by decide +kernel)⟩, by simp [Harmless]⟩
  have hone := hx.extract_harmless [("namespace", "")] (List.forall_mem_singleton.2 hopens) limits
    header
  rw [List.foldl_cons, List.foldl_nil, joinScopes_empty, within_empty] at hone
  exact hone

/-- The language of a linkage block is masked, and the block is still one. -/
theorem SelfStanding.extract_linkage (hx : SelfStanding x) (limits : Limits) (header : SourceUnit) :
    extract limits header (enclosed ["extern \"C\""] x) = extract limits header x := by
  have hopens : Opens "extern \" \"".toList "" :=
    ⟨by decide +kernel, .inr ⟨by decide +kernel, rfl⟩⟩
  have hmasked := hx.sanitize_foldr_enclose ["extern \"C\"".toList] ["extern \" \"".toList]
    (by simp) (by decide +kernel) (by decide +kernel) (by decide +kernel)
  have htext : sanitize (enclosed ["extern \"C\""] x).toList =
      ["extern \" \"".toList].foldr enclose (onLines (sanitize x.toList)) := by
    rw [enclosed, String.toList_ofList]
    exact hmasked
  have hone := extract_of_sanitize hx [("extern \" \"", "")] (List.forall_mem_singleton.2 hopens)
    htext limits header
  rw [List.foldl_cons, List.foldl_nil, joinScopes_empty, within_empty] at hone
  exact hone

/-- A text may stand in blocks that are looked into. In namespaces it declares what it declares by
itself, in their scope; an unnamed namespace and a linkage block change nothing. -/
theorem extract_enclosed (hx : SelfStanding x) (ha : isIdentifier a.toList)
    (hb : isIdentifier b.toList) (limits : Limits) (header : SourceUnit) :
    extract limits header (enclosed ["namespace " ++ a, "namespace " ++ b] x) =
      extract limits header (enclosed ["namespace " ++ a ++ "::" ++ b] x) ∧
    extract limits header (enclosed ["namespace"] x) = extract limits header x ∧
    extract limits header (enclosed ["extern \"C\""] x) = extract limits header x ∧
    extract limits header (enclosed ["namespace " ++ a] x) =
      (extract limits header x).within a := by
  have hab : QualifiedName (a ++ "::" ++ b).toList :=
    ⟨[a.toList, b.toList], by simp, by simp [ha, hb], by simp [joinWith]⟩
  have hname : "namespace " ++ a ++ "::" ++ b = "namespace " ++ (a ++ "::" ++ b) := by
    simp only [String.append_assoc]
  refine ⟨?_, hx.extract_unnamed limits header, hx.extract_linkage limits header,
    hx.extract_namespace (.of_isIdentifier ha) limits header⟩
  rw [hname, hx.extract_namespace hab]
  have hnested := hx.extract_harmless [("namespace " ++ a, a), ("namespace " ++ b, b)]
    (List.forall_mem_cons.2 ⟨opens_namespace (.of_isIdentifier ha),
      List.forall_mem_singleton.2 (opens_namespace (.of_isIdentifier hb))⟩) limits header
  rw [List.foldl_cons, List.foldl_cons, List.foldl_nil, joinScopes_empty,
    joinScopes_identifiers ha hb] at hnested
  exact hnested

/-- A class and a function behind a directive; the brace in the comment is none. -/
def queueText : String :=
  "#define NEXT \x7b\nstruct Ring \x7b int size; \x7d;\nint pull(Ring& ring); // \x7d\n"

theorem extract_enclosed_queue :
    SelfStanding queueText ∧ isIdentifier "io".toList ∧ isIdentifier "detail".toList ∧
      extract {} ⟨⟨"queue.h"⟩, .header⟩
          (enclosed ["namespace io", "namespace detail"] queueText) =
        extract {} ⟨⟨"queue.h"⟩, .header⟩ (enclosed ["namespace io::detail"] queueText) ∧
      ((extract {} ⟨⟨"queue.h"⟩, .header⟩ (enclosed ["namespace io"] queueText)).models.map
        (·.qualifiedName)) = ["io::Ring"] := by
  have hqueue : SelfStanding queueText :=
    { code := by decide +kernel
      directive := by decide +kernel
      balanced := by decide +kernel }
  have hio : isIdentifier "io".toList := by decide +kernel
  have hdetail : isIdentifier "detail".toList := by decide +kernel
  have hall := extract_enclosed hqueue hio hdetail {} ⟨⟨"queue.h"⟩, .header⟩
  refine ⟨hqueue, hio, hdetail, hall.1, ?_⟩
  rw [show "namespace io" = "namespace " ++ "io" from rfl, hall.2.2.2]
  decide +kernel

end Headers

end Header

end TestSynth
