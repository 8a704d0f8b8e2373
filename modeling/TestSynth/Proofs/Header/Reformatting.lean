import Mathlib
import TestSynth.Proofs.Header.Items
import TestSynth.Proofs.Header.Respacing
import TestSynth.Proofs.Text.Masking
/-!
A header declares the same however its blanks are laid out, but for functions with a body: a block
whose head does not end in a parenthesis is read as one only if a space stands behind a closing
parenthesis of the head, where any other blank would do as well.
-/
namespace TestSynth.Header

open Text

/-- What a text holds at namespace level, with every block that is no namespace, linkage block or
class, whether it is read as a function or not. -/
inductive Piece where
  | classBody (scope : String) (head : ClassHead) (body : List Char)
  | statement (scope : String) (text : List Char)
  | block (scope : String) (head : List Char)

/-- The pieces of a text in order, cut as its items are. -/
def pieces (scope : String) (cs : List Char) : List Piece :=
  match _h : cs.dropWhile (!isMark ·) with
  | [] => []
  | mark :: after =>
    let statement := cs.takeWhile (!isMark ·)
    if mark == ';' then .statement scope statement :: pieces scope after
    else if mark == '{' then
      match _g : splitGroup '{' '}' 0 after with
      | none => []
      | some (inside, rest) =>
        (match blockKind (trim statement) with
          | .scope name => pieces (joinScopes scope name) inside
          | .linkage => pieces scope inside
          | .definition head =>
            if (trim inside).isEmpty then [] else [.classBody scope head inside]
          | _ => [.block scope (trim statement)]) ++ pieces scope rest
    else pieces scope after
termination_by cs.length
decreasing_by
  all_goals
    have hd := (List.dropWhile_suffix (!isMark ·) (l := cs)).length_le
    rw [_h] at hd
    simp only [List.length_cons] at hd
  · omega
  · have hg := splitGroup_length _g
    omega
  · have hg := splitGroup_length _g
    omega
  · have hg := splitGroup_length _g
    omega
  · omega

namespace Piece

/-- The piece with one space for every run of blanks. -/
def squeeze : Piece → Piece
  | classBody scope head body => classBody scope head (Text.squeeze body)
  | statement scope text => statement scope (Text.squeeze text)
  | block scope head => block scope (Text.squeeze head)

/-- The head of a block says that it is the body of a function. -/
def readsAsFunction (head : List Char) : Bool :=
  endsWith [')'] head || containsText [')', ' '] head

def item? : Piece → Option Item
  | classBody scope head body => some (.classBody scope head body)
  | statement scope text => some (.statement scope text)
  | block scope head => if readsAsFunction head then some (.statement scope head) else none

/-- The function that a statement declares, or the head of a block. -/
def function? (header : SourceUnit) : Piece → Option FreeFunction
  | classBody .. => none
  | statement scope text => Header.function? header scope text
  | block scope head => Header.function? header scope head

/-- The head of a block declares a function but does not read as if it did. -/
def overlooked (header : SourceUnit) : Piece → Bool
  | block scope head => (Header.function? header scope head).isSome && !readsAsFunction head
  | _ => false

end Piece

section Pieces
variable {scope : String} {cs inside after rest : List Char} {mark : Char}

theorem pieces_eq_nil (h : Unmarked cs) : pieces scope cs = [] := by
  have hdrop : cs.dropWhile (!isMark ·) = [] := by simpa [Unmarked] using h
  rw [pieces]
  split
  · rfl
  · next heq =>
    rw [hdrop] at heq
    cases heq

/-- The pieces of a text by what its first mark is. -/
theorem pieces_mark (h : Unmarked cs) (hmark : isMark mark) (after : List Char) :
    pieces scope (cs ++ mark :: after) =
      if mark == ';' then .statement scope cs :: pieces scope after
      else if mark == '{' then
        match splitGroup '{' '}' 0 after with
        | none => []
        | some (inside, rest) =>
          (match blockKind (trim cs) with
            | .scope name => pieces (joinScopes scope name) inside
            | .linkage => pieces scope inside
            | .definition head =>
              if (trim inside).isEmpty then [] else [.classBody scope head inside]
            | _ => [.block scope (trim cs)]) ++ pieces scope rest
      else pieces scope after := by
  have hdrop := dropWhile_append_mark after h hmark
  have htake := takeWhile_append_mark after h hmark
  rw [pieces]
  split
  · next heq =>
    rw [hdrop] at heq
    cases heq
  · next heq =>
    rw [hdrop] at heq
    cases heq
    simp only [htake]
    split
    · rfl
    · split
      · split
        · next hnone => rw [hnone]
        · next hsome => rw [hsome]
      · rfl

theorem pieces_statement (h : Unmarked cs) (rest : List Char) :
    pieces scope (cs ++ ';' :: rest) = .statement scope cs :: pieces scope rest := by
  rw [pieces_mark h rfl]
  rfl

theorem pieces_stray (h : Unmarked cs) (rest : List Char) :
    pieces scope (cs ++ '}' :: rest) = pieces scope rest := by
  rw [pieces_mark h rfl]
  rfl

theorem pieces_unclosed (h : Unmarked cs) (hgroup : splitGroup '{' '}' 0 after = none) :
    pieces scope (cs ++ '{' :: after) = [] := by
  rw [pieces_mark h rfl, hgroup]
  rfl

/-- The pieces of a block. -/
def blockPieces (scope : String) (head inside : List Char) : List Piece :=
  match blockKind head with
  | .scope name => pieces (joinScopes scope name) inside
  | .linkage => pieces scope inside
  | .definition head => if (trim inside).isEmpty then [] else [.classBody scope head inside]
  | _ => [.block scope head]

theorem pieces_block (h : Unmarked cs)
    (hgroup : splitGroup '{' '}' 0 after = some (inside, rest)) :
    pieces scope (cs ++ '{' :: after) =
      blockPieces scope (trim cs) inside ++ pieces scope rest := by
  rw [pieces_mark h rfl, hgroup]
  rfl

theorem readsAsFunction_of_function (h : blockKind cs = .function) :
    Piece.readsAsFunction cs = true := by
  have hread := readsAs_blockKind cs
  rw [h] at hread
  cases hread with
  | function listed => exact listed

theorem readsAsFunction_of_other (h : blockKind cs = .other) :
    Piece.readsAsFunction cs = false := by
  have hread := readsAs_blockKind cs
  rw [h] at hread
  cases hread with
  | other unlisted => exact unlisted

/-- The items of a text are its pieces but for the blocks that do not read as functions. -/
theorem items_eq_pieces (scope : String) (cs : List Char) :
    items scope cs = (pieces scope cs).filterMap Piece.item? := by
  induction cs using text_induction generalizing scope with
  | unmarked s hs => rw [items_eq_nil hs, pieces_eq_nil hs, List.filterMap_nil]
  | statement s after hs ih =>
    rw [items_statement hs, pieces_statement hs, List.filterMap_cons, ih]
    rfl
  | stray s after hs ih => rw [items_stray hs, pieces_stray hs, ih]
  | unclosed s after hs hgroup =>
    rw [items_unclosed hs hgroup, pieces_unclosed hs hgroup, List.filterMap_nil]
  | block s after inside rest hs hgroup ihinside ihrest =>
    rw [items_block hs hgroup, pieces_block hs hgroup, List.filterMap_append, ihrest, blockPieces]
    congr 1
    cases hkind : blockKind (trim s) with
    | scope name => exact ihinside (joinScopes scope name)
    | linkage => exact ihinside scope
    | definition head =>
      simp only
      split <;> rfl
    | function => simp [Piece.item?, readsAsFunction_of_function hkind]
    | other => simp [Piece.item?, readsAsFunction_of_other hkind]

end Pieces

section Squeezed
variable {scope : String} {cs : List Char}

theorem Unmarked.squeeze (h : Unmarked cs) : Unmarked (squeeze cs) := by
  intro c hc
  cases hblank : isBlank c with
  | true => exact isMark_of_isBlank hblank
  | false => exact h c ((mem_squeeze hblank).1 hc)

/-- The pieces of a block by the tests on its head that come before the one for functions. -/
theorem blockPieces_eq (scope : String) (head inside : List Char) :
    blockPieces scope head inside =
      match namespaceName? head with
      | some name => pieces (joinScopes scope name) inside
      | none =>
        if isLinkage head then pieces scope inside
        else match classHead? head with
          | some c => if (trim inside).isEmpty then [] else [.classBody scope c inside]
          | none => [.block scope head] := by
  rw [blockPieces, blockKind]
  cases namespaceName? head with
  | some name => rfl
  | none =>
    cases isLinkage head with
    | true => rfl
    | false =>
      cases classHead? head with
      | some c => rfl
      | none =>
        cases endsWith [')'] head || containsText [')', ' '] head <;> rfl

theorem blockPieces_squeeze (scope : String) (head inside : List Char)
    (h : ∀ scope, pieces scope (squeeze inside) = (pieces scope inside).map Piece.squeeze) :
    blockPieces scope (squeeze head) (squeeze inside) =
      (blockPieces scope head inside).map Piece.squeeze := by
  rw [blockPieces_eq, blockPieces_eq, namespaceName?_squeeze, isLinkage_squeeze,
    classHead?_squeeze, trim_squeeze]
  cases namespaceName? head with
  | some name => exact h _
  | none =>
    simp only [List.isEmpty_iff, squeeze_eq_nil_iff]
    split
    · exact h scope
    · cases classHead? head with
      | some c =>
        simp only
        split <;> rfl
      | none => rfl

theorem pieces_squeeze (scope : String) (cs : List Char) :
    pieces scope (squeeze cs) = (pieces scope cs).map Piece.squeeze := by
  induction cs using text_induction generalizing scope with
  | unmarked s hs => rw [pieces_eq_nil hs, pieces_eq_nil hs.squeeze, List.map_nil]
  | statement s after hs ih =>
    rw [squeeze_append s after (by decide), pieces_statement hs.squeeze, pieces_statement hs, ih]
    rfl
  | stray s after hs ih =>
    rw [squeeze_append s after (by decide), pieces_stray hs.squeeze, pieces_stray hs, ih]
  | unclosed s after hs hgroup =>
    have hnone : splitGroup '{' '}' 0 (squeeze after) = none := by
      rw [splitGroup_braces_squeeze, hgroup]
      rfl
    rw [squeeze_append s after (by decide), pieces_unclosed hs.squeeze hnone,
      pieces_unclosed hs hgroup, List.map_nil]
  | block s after inside rest hs hgroup ihinside ihrest =>
    have hsome : splitGroup '{' '}' 0 (squeeze after) = some (squeeze inside, squeeze rest) := by
      rw [splitGroup_braces_squeeze, hgroup]
      rfl
    rw [squeeze_append s after (by decide), pieces_block hs.squeeze hsome, pieces_block hs hgroup,
      List.map_append, ihrest, trim_squeeze, blockPieces_squeeze scope (trim s) inside ihinside]

/-- A piece defines the same class however it is laid out. -/
theorem itemClass?_squeeze (header : SourceUnit) (piece : Piece) :
    piece.squeeze.item?.bind (itemClass? header) = piece.item?.bind (itemClass? header) := by
  have hhead : ∀ scope head, (Piece.block scope head).item?.bind (itemClass? header) = none :=
    fun scope head => by
      rw [Piece.item?]
      split <;> rfl
  cases piece with
  | classBody scope head body =>
    exact congrArg some (classModel_squeeze head body scope header)
  | statement scope text => rfl
  | block scope head => rw [Piece.squeeze, hhead, hhead]

theorem function?_squeeze_piece (header : SourceUnit) (piece : Piece) :
    piece.squeeze.function? header = piece.function? header := by
  cases piece with
  | classBody scope head body => rfl
  | statement scope text => exact function?_squeeze header scope text
  | block scope head => exact function?_squeeze header scope head

/-- The functions of a text are those its pieces declare, but for what is overlooked. -/
theorem itemFunction?_eq (header : SourceUnit) (piece : Piece) :
    piece.item?.bind (itemFunction? header) =
      if piece.overlooked header then none else piece.function? header := by
  cases piece with
  | classBody scope head body => rfl
  | statement scope text => rfl
  | block scope head =>
    rw [Piece.item?, Piece.overlooked, Piece.function?]
    cases Piece.readsAsFunction head with
    | true => simp [itemFunction?]
    | false =>
      cases Header.function? header scope head <;> rfl

theorem classes_eq_of_squeeze {ds : List Char} (header : SourceUnit)
    (h : squeeze cs = squeeze ds) :
    (items scope cs).filterMap (itemClass? header) =
      (items scope ds).filterMap (itemClass? header) := by
  have hpieces : ∀ es, (items scope es).filterMap (itemClass? header) =
      (pieces scope (squeeze es)).filterMap (·.item?.bind (itemClass? header)) := fun es => by
    rw [pieces_squeeze, List.filterMap_map, items_eq_pieces, List.filterMap_filterMap]
    refine List.filterMap_congr fun piece _ => ?_
    exact (itemClass?_squeeze header piece).symm
  rw [hpieces, hpieces, h]

theorem functions_eq_of_squeeze {ds : List Char} (header : SourceUnit)
    (h : squeeze cs = squeeze ds)
    (hoverlooked : (pieces scope cs).map (Piece.overlooked header) =
      (pieces scope ds).map (Piece.overlooked header)) :
    (items scope cs).filterMap (itemFunction? header) =
      (items scope ds).filterMap (itemFunction? header) := by
  have hpieces : ∀ es, (items scope es).filterMap (itemFunction? header) =
      (((pieces scope es).map (Piece.overlooked header)).zip
        ((pieces scope (squeeze es)).map (Piece.function? header))).filterMap
          fun piece => if piece.1 then none else piece.2 := fun es => by
    have hfunctions : (pieces scope (squeeze es)).map (Piece.function? header) =
        (pieces scope es).map (Piece.function? header) := by
      rw [pieces_squeeze, List.map_map]
      exact List.map_congr_left fun piece _ => function?_squeeze_piece header piece
    rw [hfunctions, List.zip_map', List.filterMap_map, items_eq_pieces, List.filterMap_filterMap]
    exact List.filterMap_congr fun piece _ => itemFunction?_eq header piece
  rw [hpieces, hpieces, h, hoverlooked]

end Squeezed

section Layouts

/-- A character that starts no comment, no literal and no directive. -/
def startsNothing (c : Char) : Bool := !(['/', '"', '\'', '#'].contains c)

theorem startsNothing_of_squeeze {cs ds : List Char} (h : squeeze cs = squeeze ds)
    (hplain : ∀ c ∈ cs, startsNothing c) : ∀ c ∈ ds, startsNothing c := by
  intro c hc
  cases hblank : isBlank c with
  | true =>
    have hmarks : ∀ d ∈ ['/', '"', '\'', '#'], isBlank d = false := by simp [isBlank]
    rw [startsNothing, Bool.not_eq_true', Bool.eq_false_iff, ne_eq, List.contains_iff_mem]
    intro hmem
    cases hblank.symm.trans (hmarks c hmem)
  | false => exact hplain c ((mem_squeeze hblank).1 (h ▸ (mem_squeeze hblank).2 hc))

theorem sanitize_of_startsNothing {cs : List Char} (h : ∀ c ∈ cs, startsNothing c) :
    sanitize cs = cs :=
  sanitize_eq_self
    (fun c hc => ⟨ne_of_holds (h c hc) (by decide), ne_of_holds (h c hc) (by decide),
      ne_of_holds (h c hc) (by decide)⟩)
    (not_mem_of_holds h (by decide))

/-- Texts without comments, literals and directives that are the same but for the length and the
kind of their blanks define the same classes. They declare the same functions too if every block
that is a function is overlooked in both or in none. -/
theorem extract_eq_of_squeeze (limits : Limits) (header : SourceUnit) {s t : String}
    (h : squeeze s.toList = squeeze t.toList)
    (hplain : ∀ c ∈ s.toList, startsNothing c) :
    (extract limits header s).classes = (extract limits header t).classes ∧
      ((pieces "" s.toList).map (Piece.overlooked header) =
          (pieces "" t.toList).map (Piece.overlooked header) →
        extract limits header s = extract limits header t) := by
  have hs := sanitize_of_startsNothing hplain
  have ht := sanitize_of_startsNothing (startsNothing_of_squeeze h hplain)
  have hclasses : (items "" s.toList).filterMap (itemClass? header) = _ :=
    classes_eq_of_squeeze header h
  constructor
  · simp only [extract, ofItems, hs, ht, hclasses]
  · intro hoverlooked
    have hfunctions := functions_eq_of_squeeze header h hoverlooked
    simp only [extract, ofItems, hs, ht, hclasses, hfunctions]

/-- A class in a namespace and a function, laid out in lines. -/
def ringLines : String :=
  "namespace ring \x7b\nclass Ring : public Base\n\x7b\npublic:\n  int size() const;\n\x7d;" ++
    "\n\x7d\nint next(int x) noexcept \x7b return x; \x7d\n"

/-- The same on one line, but for the brace of the function. -/
def ringLine : String :=
  "namespace ring \x7b class Ring : public Base \x7b public: int size()\tconst; \x7d; \x7d" ++
    " int next(int\tx) noexcept\n\x7b return x; \x7d "

theorem extract_eq_of_squeeze_ring :
    squeeze ringLines.toList = squeeze ringLine.toList ∧ ringLines.toList.all startsNothing ∧
      extract {} ⟨⟨"ring.h"⟩, .header⟩ ringLines = extract {} ⟨⟨"ring.h"⟩, .header⟩ ringLine := by
  have hsqueeze : squeeze ringLines.toList = squeeze ringLine.toList := by decide +kernel
  have hplain : ringLines.toList.all startsNothing := by decide +kernel
  exact ⟨hsqueeze, hplain, (extract_eq_of_squeeze {} ⟨⟨"ring.h"⟩, .header⟩ hsqueeze
    (List.all_eq_true.1 hplain)).2 (by decide +kernel)⟩

/-- A line break in the place of the space behind the parameters loses the function. -/
theorem extract_loses_function_behind_newline :
    squeeze "int f()\nnoexcept \x7b return 1; \x7d\n".toList =
        squeeze "int f() noexcept \x7b return 1; \x7d\n".toList ∧
      "int f()\nnoexcept \x7b return 1; \x7d\n".toList.all startsNothing ∧
      (extract {} ⟨⟨"/p/a.h"⟩, .header⟩
        "int f()\nnoexcept \x7b return 1; \x7d\n").functions = [] ∧
      (extract {} ⟨⟨"/p/a.h"⟩, .header⟩
        "int f() noexcept \x7b return 1; \x7d\n").functions.map (·.qualifiedName) = ["f"] := by
  decide +kernel

end Layouts

end TestSynth.Header
