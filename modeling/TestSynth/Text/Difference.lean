/-!
What turns one list into another: the fewest elements that go and come, in order.
-/
namespace TestSynth.Text

/-- What happens to an element on the way from one list to another. -/
inductive Edit (α : Type) where
  | keep (a : α)
  | drop (a : α)
  | insert (a : α)
deriving Repr

variable {α : Type} [DecidableEq α]

/-- For each end of the second list the length of the longest list inside both it and a first list,
of which the row belongs to the end without its head. -/
def commonRow (a : α) (below : List Nat) : List α → List Nat
  | [] => [0]
  | b :: bs =>
    let row := commonRow a below.tail bs
    (if a = b then below.tail.headD 0 + 1 else max (below.headD 0) (row.headD 0)) :: row

/-- The rows of all ends of the first list, the longest end first. -/
def commonRows (bs : List α) : List α → List (List Nat)
  | [] => [bs.map (fun _ => 0) ++ [0]]
  | a :: as =>
    let rows := commonRows bs as
    commonRow a (rows.headD []) bs :: rows

/-- The edits along rows of lengths: what is equal is kept, and of two ways that keep as much the
one that drops first is taken. The first argument bounds the steps. -/
def editsAlong : Nat → List (List Nat) → List α → List α → List (Edit α)
  | 0, _, _, _ => []
  | _, _, [], bs => bs.map .insert
  | _, _, as, [] => as.map .drop
  | n + 1, rows, a :: as, b :: bs =>
    if a = b then .keep a :: editsAlong n (rows.tail.map List.tail) as bs
    else
      let afterDrop := (rows.tail.headD []).headD 0
      let afterInsert := (rows.headD []).tail.headD 0
      if afterInsert ≤ afterDrop then .drop a :: editsAlong n rows.tail as (b :: bs)
      else .insert b :: editsAlong n (rows.map List.tail) (a :: as) bs

/-- The edits from one list to another. -/
def edits (as bs : List α) : List (Edit α) :=
  editsAlong (as.length + bs.length) (commonRows bs as) as bs

namespace Edit

/-- The element before the edit. -/
def source? : Edit α → Option α
  | keep a | drop a => some a
  | insert _ => none

/-- The element after the edit. -/
def target? : Edit α → Option α
  | keep a | insert a => some a
  | drop _ => none

end Edit

theorem filterMap_source?_editsAlong (n : Nat) (rows : List (List Nat)) (as bs : List α)
    (bound : as.length + bs.length ≤ n) :
    (editsAlong n rows as bs).filterMap Edit.source? = as := by
  fun_induction editsAlong n rows as bs with
  | case1 => simp_all
  | case2 => simp [List.filterMap_map, Function.comp_def, Edit.source?]
  | case3 => simp [List.filterMap_map, Function.comp_def, Edit.source?]
  | case4 n rows a as bs ih =>
    have := ih (by simp only [List.length_cons] at bound; omega)
    simpa [Edit.source?] using this
  | case5 n rows a as b bs h _ _ _ ih =>
    have := ih (by simp only [List.length_cons] at *; omega)
    simp [Edit.source?, this]
  | case6 n rows a as b bs h _ _ _ ih =>
    have := ih (by simp only [List.length_cons] at *; omega)
    rw [List.filterMap_cons_none rfl, this]

/-- The edits start from the first list. -/
theorem filterMap_source?_edits (as bs : List α) : (edits as bs).filterMap Edit.source? = as :=
  filterMap_source?_editsAlong _ _ as bs (Nat.le_refl _)

theorem filterMap_target?_editsAlong (n : Nat) (rows : List (List Nat)) (as bs : List α)
    (bound : as.length + bs.length ≤ n) :
    (editsAlong n rows as bs).filterMap Edit.target? = bs := by
  fun_induction editsAlong n rows as bs with
  | case1 => simp_all
  | case2 => simp [List.filterMap_map, Function.comp_def, Edit.target?]
  | case3 => simp [List.filterMap_map, Function.comp_def, Edit.target?]
  | case4 n rows a as bs ih =>
    have := ih (by simp only [List.length_cons] at bound; omega)
    simpa [Edit.target?] using this
  | case5 n rows a as b bs h _ _ _ ih =>
    have := ih (by simp only [List.length_cons] at *; omega)
    rw [List.filterMap_cons_none rfl, this]
  | case6 n rows a as b bs h _ _ _ ih =>
    have := ih (by simp only [List.length_cons] at *; omega)
    simp [Edit.target?, this]

/-- The edits lead to the second list. -/
theorem filterMap_target?_edits (as bs : List α) : (edits as bs).filterMap Edit.target? = bs :=
  filterMap_target?_editsAlong _ _ as bs (Nat.le_refl _)

end TestSynth.Text
