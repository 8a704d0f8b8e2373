import Mathlib
import TestSynth.NameSet
/-!
Sets of names are told by their members, and stay in order.
-/
namespace TestSynth.NameSet

variable {s t u : NameSet} {name x : String} {names : List String}

/-- The members are strictly increasing. -/
def Ordered (s : NameSet) : Prop := s.members.Pairwise (· < ·)

theorem mem_insertInto : x ∈ insertInto name names ↔ x = name ∨ x ∈ names := by
  induction names with
  | nil => simp [insertInto]
  | cons y ys ih =>
    rw [insertInto]
    split
    · exact List.mem_cons
    · split
      · next heq => simp [heq]
      · rw [List.mem_cons, ih, List.mem_cons]
        exact or_left_comm

theorem mem_foldl_insert :
    x ∈ (names.foldl insert s).members ↔ x ∈ s.members ∨ x ∈ names := by
  induction names generalizing s with
  | nil => simp
  | cons y ys ih =>
    rw [List.foldl_cons, ih, insert, mem_insertInto, List.mem_cons]
    tauto

theorem mem_union : x ∈ (s.union t).members ↔ x ∈ s.members ∨ x ∈ t.members := mem_foldl_insert

theorem pairwise_insertInto (h : names.Pairwise (· < ·)) :
    (insertInto name names).Pairwise (· < ·) := by
  induction names with
  | nil => simp [insertInto]
  | cons y ys ih =>
    rw [List.pairwise_cons] at h
    rw [insertInto]
    split
    · next hlt =>
      refine .cons ?_ (.cons h.1 h.2)
      intro z hz
      rcases List.mem_cons.1 hz with rfl | hz
      · exact hlt
      · exact hlt.trans (h.1 z hz)
    · next hle =>
      split
      · exact .cons h.1 h.2
      · next hne =>
        refine .cons ?_ (ih h.2)
        intro z hz
        rcases mem_insertInto.1 hz with rfl | hz
        · exact lt_of_le_of_ne (not_lt.1 hle) (Ne.symm hne)
        · exact h.1 z hz

theorem Ordered.foldl_insert (h : s.Ordered) (names : List String) :
    (names.foldl insert s).Ordered := by
  induction names generalizing s with
  | nil => exact h
  | cons y ys ih => exact ih (pairwise_insertInto h)

theorem Ordered.union (h : s.Ordered) (t : NameSet) : (s.union t).Ordered :=
  h.foldl_insert t.members

theorem ordered_ofList (names : List String) : (ofList names).Ordered :=
  Ordered.foldl_insert (s := empty) .nil names

theorem Ordered.ext (hs : s.Ordered) (ht : t.Ordered) (h : ∀ x, x ∈ s.members ↔ x ∈ t.members) :
    s = t := by
  have hperm : s.members.Perm t.members :=
    (List.perm_ext_iff_of_nodup (hs.imp ne_of_lt) (ht.imp ne_of_lt)).2 h
  have heq : s.members = t.members :=
    hperm.eq_of_pairwise (fun a b _ _ hab hba => (lt_asymm hab hba).elim) hs ht
  cases s
  cases t
  exact congrArg _ heq

theorem Ordered.union_assoc (h : s.Ordered) (t u : NameSet) :
    (s.union t).union u = s.union (t.union u) :=
  ((h.union t).union u).ext (h.union _) fun x => by
    simp only [mem_union]
    exact or_assoc

end TestSynth.NameSet
