import Mathlib
import TestSynth.Proofs.Header.Items
import TestSynth.Proofs.Model.Union
import TestSynth.Proofs.Text.Masking
import TestSynth.Proofs.Text.Nesting
/-!
Behind a text that leaves nothing open, a header goes on as if it started there: whatever is
appended, the classes and functions before it stay.
-/
namespace TestSynth.Header

open Text

section Settled
variable {β : Type} {f : Item → Option β} {scope : String} {a b s after blanks : List Char}
  {mark : Char}

/-- All braces of the text are closed, and only blanks stand behind its last statement or block. -/
structure Settled (cs : List Char) : Prop where
  balanced : bracesBalanced cs
  ended : ∀ c ∈ (trimEnd cs).getLast?, c = ';' ∨ c = '}'

instance (cs : List Char) : Decidable (Settled cs) :=
  decidable_of_iff (bracesBalanced cs ∧
      (trimEnd cs).getLast?.all fun c => c == ';' || c == '}')
    ⟨fun ⟨h, i⟩ => ⟨h, by simpa [Option.all_eq_true] using i⟩,
      fun ⟨h, i⟩ => ⟨h, by simpa [Option.all_eq_true] using i⟩⟩

theorem openBraces_unmarked (h : Unmarked s) (depth : Nat) (cs : List Char) :
    openBraces depth (s ++ cs) = openBraces depth cs := by
  induction s with
  | nil => rfl
  | cons c s ih =>
    rw [Unmarked, List.forall_mem_cons, isMark_eq_false_iff] at h
    obtain ⟨⟨-, hopen, hclose⟩, hs⟩ := h
    rw [List.cons_append, openBraces_cons hopen hclose, ih hs]

theorem bracesBalanced_of_unmarked (h : Unmarked a) : bracesBalanced a := by
  have := openBraces_unmarked h 0 []
  rw [List.append_nil] at this
  simp [bracesBalanced, this, openBraces]

/-- What ends a text ends every rest of it. -/
theorem ended_of_append (h : ∀ c ∈ (trimEnd (a ++ b)).getLast?, c = ';' ∨ c = '}') :
    ∀ c ∈ (trimEnd b).getLast?, c = ';' ∨ c = '}' := by
  intro c hc
  have hne : trimEnd b ≠ [] := by
    rintro hnil
    rw [hnil] at hc
    cases hc
  refine h c ?_
  rw [trimEnd, dropEndWhile_append_of_ne_nil hne, List.getLast?_append]
  exact Option.mem_def.2 (by rw [← trimEnd, Option.mem_def.1 hc]; rfl)

theorem Settled.blank (h : Settled s) (hs : Unmarked s) : ∀ c ∈ s, isBlank c := by
  rw [← dropEndWhile_eq_nil_iff]
  by_contra hne
  have hlast := List.getLast?_eq_getLast_of_ne_nil hne
  have hmem : (dropEndWhile isBlank s).getLast hne ∈ s :=
    (prefix_dropEndWhile isBlank s).subset (List.getLast_mem hne)
  have hunmarked := isMark_eq_false_iff.1 (hs _ hmem)
  rcases h.ended _ hlast with heq | heq
  · exact hunmarked.1 heq
  · exact hunmarked.2.2 heq

/-- Blanks before a text are part of its first statement, where they say nothing. -/
theorem filterMap_items_blanks (hf : ∀ scope s t, trim s = trim t →
      f (.statement scope s) = f (.statement scope t))
    (hblanks : ∀ c ∈ blanks, isBlank c) :
    (items scope (blanks ++ b)).filterMap f = (items scope b).filterMap f := by
  have htrim : ∀ s, trim (blanks ++ s) = trim s := fun s => by
    rw [trim, trimStart, List.dropWhile_append_of_pos hblanks]
    rfl
  have hunmarked : ∀ {s}, Unmarked s → Unmarked (blanks ++ s) := fun hs => by
    rw [Unmarked, List.forall_mem_append]
    exact ⟨fun c hc => isMark_of_isBlank (hblanks c hc), hs⟩
  rcases unmarked_or_mark b with hb | ⟨s, mark, after, rfl, hs, hmark⟩
  · rw [items_eq_nil hb, items_eq_nil (hunmarked hb)]
  · rw [← List.append_assoc]
    rcases mark_eq hmark with rfl | rfl | rfl
    · rw [items_statement hs, items_statement (hunmarked hs), List.filterMap_cons,
        List.filterMap_cons, hf scope _ _ (htrim s)]
    · rw [items_mark hs hmark, items_mark (hunmarked hs) hmark, htrim]
      rfl
    · rw [items_stray hs, items_stray (hunmarked hs)]

/-- The items of a text that leaves nothing open come before those of what follows. -/
theorem filterMap_items_append (hf : ∀ scope s t, trim s = trim t →
      f (.statement scope s) = f (.statement scope t)) (ha : Settled a) (b : List Char) :
    (items scope (a ++ b)).filterMap f =
      (items scope a).filterMap f ++ (items scope b).filterMap f := by
  have hrest : ∀ {s mark after}, Settled (s ++ mark :: after) →
      openBraces 0 after = some 0 → Settled after := fun {s mark after} h hbraces => by
    refine ⟨by simpa [bracesBalanced] using hbraces, ?_⟩
    have hended := h.ended
    rw [List.append_cons] at hended
    exact ended_of_append hended
  have hopened : ∀ {s after}, Unmarked s → Settled (s ++ '{' :: after) →
      openBraces 1 after = some 0 := fun {s after} hs h => by
    simpa [bracesBalanced, openBraces_unmarked hs, openBraces] using h.balanced
  induction a using text_induction generalizing scope with
  | unmarked s hs =>
    rw [items_eq_nil hs, filterMap_items_blanks hf (ha.blank hs)]
    rfl
  | statement s after hs ih =>
    have hbraces : openBraces 0 after = some 0 := by
      simpa [bracesBalanced, openBraces_unmarked hs, openBraces] using ha.balanced
    rw [List.append_assoc, List.cons_append, items_statement hs, items_statement hs,
      List.filterMap_cons, List.filterMap_cons, ih (hrest ha hbraces)]
    split <;> rfl
  | stray s after hs ih =>
    have := ha.balanced
    simp [bracesBalanced, openBraces_unmarked hs, openBraces] at this
  | unclosed s after hs hgroup =>
    obtain ⟨inside, rest, hclosed, -⟩ := splitGroup_of_openBraces (hopened hs ha)
    cases hgroup.symm.trans hclosed
  | block s after inside rest hs hgroup _ ih =>
    obtain ⟨_, _, hclosed, hbraces⟩ := splitGroup_of_openBraces (hopened hs ha)
    cases hgroup.symm.trans hclosed
    obtain ⟨rfl, hinside⟩ := splitGroup_braces_iff.1 hgroup
    have hsplit : s ++ '{' :: (inside ++ '}' :: rest) = (s ++ '{' :: inside) ++ '}' :: rest := by
      simp
    have hsettled : Settled rest := hrest (hsplit ▸ ha) hbraces
    have hgroup' : splitGroup '{' '}' 0 (inside ++ '}' :: rest ++ b) =
        some (inside, rest ++ b) :=
      splitGroup_braces_iff.2 ⟨by simp, hinside⟩
    rw [List.append_assoc, List.cons_append, items_block hs hgroup', items_block hs hgroup,
      List.filterMap_append, List.filterMap_append, ih hsettled, List.append_assoc]

theorem filterMap_itemClass?_append (header : SourceUnit) (ha : Settled a) (b : List Char) :
    (items scope (a ++ b)).filterMap (itemClass? header) =
      (items scope a).filterMap (itemClass? header) ++
        (items scope b).filterMap (itemClass? header) :=
  filterMap_items_append (fun _ _ _ _ => rfl) ha b

theorem filterMap_itemFunction?_append (header : SourceUnit) (ha : Settled a) (b : List Char) :
    (items scope (a ++ b)).filterMap (itemFunction? header) =
      (items scope a).filterMap (itemFunction? header) ++
        (items scope b).filterMap (itemFunction? header) :=
  filterMap_items_append (fun _ _ _ h => by simp only [itemFunction?, function?, h]) ha b

end Settled

section Classes
variable {header : SourceUnit} {scope : String} {cs : List Char} {isStruct : Bool}
  {head : ClassHead} {bases : NameSet} {c : ClassModel}

theorem ordered_afterName? (h : afterName? cs = some bases) : bases.Ordered := by
  unfold afterName? at h
  simp only at h
  split at h
  · cases h
    exact .nil
  · cases h
    exact NameSet.ordered_ofList _
  · cases h

theorem ordered_named? (h : named? isStruct cs = some head) : head.bases.Ordered := by
  unfold named? at h
  split at h
  · obtain ⟨bases, hbases, rfl⟩ := Option.map_eq_some_iff.1 h
    exact ordered_afterName? hbases
  · cases h

theorem ordered_classHead? (h : classHead? cs = some head) : head.bases.Ordered := by
  obtain ⟨_, _, hnamed⟩ := named?_of_classHead? h
  exact ordered_named? hnamed

/-- What a class declares leaves its bases and its header alone. -/
theorem classModel_keeps (head : ClassHead) (body : List Char) (scope : String)
    (header : SourceUnit) :
    (classModel head body scope header).header = header ∧
      (classModel head body scope header).bases = head.bases := by
  have hdeclare : ∀ (access : Access) (c : ClassModel) (d : Declaration),
      c.header = header ∧ c.bases = head.bases →
      (declare access c d).header = header ∧ (declare access c d).bases = head.bases :=
    fun access c d h => by cases d <;> exact h
  refine List.foldlRecOn (motive := fun c : ClassModel => c.header = header ∧ c.bases = head.bases)
    (sections _ (stripBodies body)) _ ⟨rfl, rfl⟩ fun c hc part _ => ?_
  exact List.foldlRecOn (motive := fun c : ClassModel => c.header = header ∧ c.bases = head.bases)
    (fields (· == ';') part.2) _ hc fun c hc _ _ => hdeclare _ c _ hc

/-- The classes of a text are of its header, with their bases in order. -/
theorem itemClass?_items {item : Item} (hitem : item ∈ items scope cs)
    (hclass : itemClass? header item = some c) : c.header = header ∧ c.bases.Ordered := by
  cases item with
  | statement scope text => cases hclass
  | classBody scope head body =>
    cases hclass
    obtain ⟨_, hhead⟩ := classHead?_of_classBody hitem
    have hkeeps := classModel_keeps head body scope header
    exact ⟨hkeeps.1, hkeeps.2 ▸ ordered_classHead? hhead⟩

theorem models_items (header : SourceUnit) (scope : String) (cs : List Char) :
    ∀ c ∈ (items scope cs).filterMap (itemClass? header),
      c.header = header ∧ c.bases.Ordered := by
  intro c hc
  obtain ⟨item, hitem, hclass⟩ := List.mem_filterMap.1 hc
  exact itemClass?_items hitem hclass

end Classes

section Seams

/-- A text behind which a header can go on: it ends with a newline in code, in no directive that
goes on, and leaves no brace and no statement open. -/
structure SelfContained (a : String) : Prop where
  line : a.toList.getLast? = some '\n'
  code : regionAfter .code none a.toList = .code
  directive : continuesDirective false (linesWithEnds (stripComments a.toList)) = false
  settled : Settled (sanitize a.toList)

/-- The table of the classes that a text defines. -/
def classTable (header : SourceUnit) (cs : List Char) : ModelTable :=
  ((items "" cs).filterMap (itemClass? header)).foldl ModelTable.insert {}

theorem listed_classTable (header : SourceUnit) (cs : List Char) :
    ModelTable.Listed header (classTable header cs) :=
  ModelTable.listed_empty.foldl_insert (models_items header "" cs)

theorem classes_extract (limits : Limits) (header : SourceUnit) (a : String) :
    (extract limits header a).classes = (classTable header (sanitize a.toList)).classes := rfl

/-- Adding the classes of a text to those of the text before it is reading both as one. -/
theorem classes_classTable_append {cs : List Char} (h : Settled cs) (header : SourceUnit)
    (ds : List Char) :
    (classTable header (cs ++ ds)).classes =
      ((classTable header ds).models.foldl ModelTable.insert (classTable header cs)).classes := by
  have hcs := listed_classTable header cs
  have hds := hcs.foldl_insert (models_items header "" ds)
  have hentries := hcs.lookup?_foldl_models ((items "" ds).filterMap (itemClass? header))
  rw [classTable, filterMap_itemClass?_append header h, List.foldl_append]
  exact hds.classes_eq (hcs.foldl_insert (listed_classTable header ds).models) fun name =>
    (hentries name).symm

/-- Behind a text that leaves nothing open, the classes and functions of any other text, broken or
not, are added to those of the first. Nothing is lost: functions stay in front, and a class stays
with the definitions of its name merged into it that follow. -/
theorem extract_append (limits : Limits) (header : SourceUnit) (a b : String)
    (h : SelfContained a) :
    (extract limits header (a ++ b)).classes =
      ((extract limits header b).models.foldl ModelTable.insert
        (extract limits header a)).classes ∧
    (extract limits header (a ++ b)).functions =
      ((extract limits header a).functions ++ (extract limits header b).functions).take
        limits.functionsPerHeader ∧
    (extract limits header a).functions <+: (extract limits header (a ++ b)).functions ∧
    ∀ e ∈ (extract limits header a).classes,
      (e.1, (ClassModel.named e.2.qualifiedName (extract limits header b).models).foldl
        ClassModel.merge e.2) ∈ (extract limits header (a ++ b)).classes := by
  have hsanitize : sanitize (a ++ b).toList = sanitize a.toList ++ sanitize b.toList := by
    rw [String.toList_append, sanitize_append h.code h.line h.directive]
  have hclasses : (extract limits header (a ++ b)).classes =
      ((extract limits header b).models.foldl ModelTable.insert
        (extract limits header a)).classes := by
    rw [classes_extract, hsanitize, classes_classTable_append h.settled]
    exact ModelTable.classes_foldl_insert_congr (classes_extract limits header a).symm _
  have hfunctions : (extract limits header (a ++ b)).functions =
      ((extract limits header a).functions ++ (extract limits header b).functions).take
        limits.functionsPerHeader := by
    simp only [extract, ofItems, hsanitize, filterMap_itemFunction?_append header h.settled]
    split
    · rw [List.take_append, List.take_append, List.take_take, List.take_take, Nat.min_self,
        List.length_take]
      congr 2
      omega
    · rw [List.append_nil, List.take_nil]
  have hlength := length_functions_extract limits header a
  refine ⟨hclasses, hfunctions, ?_, fun e he => ?_⟩
  · rw [hfunctions, List.prefix_take_iff]
    exact ⟨List.prefix_append _ _, hlength⟩
  · have hkeyed : (extract limits header a).Keyed :=
      (listed_classTable header _).toKeyed.of_classes_eq (classes_extract limits header a)
    have hentry := hkeyed.lookup?_foldl_insert (extract limits header b).models e.2.qualifiedName
    rw [hkeyed.lookup?_eq_some_iff.2 ⟨he, rfl⟩, ModelTable.foldl_joined_some,
      (hkeyed.foldl_insert _).lookup?_eq_some_iff] at hentry
    rw [hclasses]
    exact hentry.1

/-- A class and a function, with a directive, a comment and a literal, and blanks at the end. -/
def ringText : String :=
  "#define PI 3 \\\n\n// \x7b\nnamespace ring \x7b struct Ring \x7b int size; \x7d; \x7d" ++
    "\nconst char* name(char c = '\x7b');\n \n"

/-- Behind it a function is declared, and the class opened again and left open. -/
theorem extract_append_ringText :
    SelfContained ringText ∧
      (extract {} ⟨⟨"ring.h"⟩, .header⟩
          (ringText ++ "int next(); struct Ring \x7b void turn(); ")).classes =
        ((extract {} ⟨⟨"ring.h"⟩, .header⟩
            "int next(); struct Ring \x7b void turn(); ").models.foldl ModelTable.insert
          (extract {} ⟨⟨"ring.h"⟩, .header⟩ ringText)).classes := by
  have hlast : (trimEnd (sanitize ringText.toList)).getLast? = some ';' := by decide +kernel
  have h : SelfContained ringText :=
    { line := by decide +kernel
      code := by decide +kernel
      directive := by decide +kernel
      settled := ⟨by decide +kernel, by simp [hlast]⟩ }
  exact ⟨h, (extract_append {} ⟨⟨"ring.h"⟩, .header⟩ ringText _ h).1⟩

end Seams

end TestSynth.Header
