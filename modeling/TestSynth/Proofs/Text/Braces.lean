import Mathlib
import TestSynth.Proofs.Text.Bytes
import TestSynth.Proofs.Text.Squeezing
/-!
What matching, balance and the taking out of bodies say about each other. A brace is closed at the
end of the first balanced slice from there, in characters as in bytes. A balanced text is a sequence
of characters and of groups, and to take out its bodies is to replace the groups.
-/
namespace TestSynth.Text

variable {depth k first last : Nat} {c : Char} {a b cs inside rest : List Char}

section Depth

/-- Up to where a group ends, some brace is open. -/
theorem openBraces_of_unclosed (h : splitGroup '{' '}' depth cs = none) :
    ∃ k, openBraces (depth + 1) cs = some (k + 1) := by
  induction cs generalizing depth with
  | nil => exact ⟨depth, rfl⟩
  | cons c cs ih =>
    have hbraces : '{' ≠ '}' := by decide
    rcases openBraces_cases c with rfl | rfl | ⟨hopen, hclose⟩
    · rw [splitGroup_cons_open, Option.map_eq_none_iff] at h
      rw [openBraces]
      exact ih h
    · cases depth with
      | zero => simp [splitGroup] at h
      | succ depth =>
        rw [splitGroup_cons_close hbraces, Option.map_eq_none_iff] at h
        rw [openBraces]
        exact ih h
    · rw [splitGroup_cons_other hopen hclose, Option.map_eq_none_iff] at h
      rw [openBraces_cons hopen hclose]
      exact ih h

end Depth

section Matching

/-- What stands from one position up to another, both included. -/
def slice (cs : List Char) (first last : Nat) : List Char := (cs.drop first).take (last + 1 - first)

/-- A brace at the first position, and the first balanced slice from there up to the last. -/
structure ClosesAt (cs : List Char) (first last : Nat) : Prop where
  opens : cs[first]? = some '{'
  ordered : first ≤ last
  inside : last < cs.length
  balanced : bracesBalanced (slice cs first last)
  shortest : ∀ earlier, first ≤ earlier → earlier < last →
    bracesBalanced (slice cs first earlier) = false

theorem drop_eq_cons {α : Type} {xs : List α} {x : α} (h : xs[first]? = some x) :
    xs.drop first = x :: xs.drop (first + 1) := by
  obtain ⟨hlength, rfl⟩ := List.getElem?_eq_some_iff.1 h
  exact List.drop_eq_getElem_cons hlength

theorem slice_eq_cons (h : cs[first]? = some c) (hordered : first ≤ last) :
    slice cs first last = c :: (cs.drop (first + 1)).take (last - first) := by
  have hlength : last + 1 - first = last - first + 1 := by omega
  rw [slice, drop_eq_cons h, hlength, List.take_succ_cons]

/-- A bracket is matched from the text behind it. -/
theorem closingIndex_of_opens {α : Type} [BEq α] [LawfulBEq α] {opening : α} (closing : α)
    {xs : List α} (h : xs[first]? = some opening) :
    closingIndex opening closing xs first =
      (splitGroup opening closing 0 (xs.drop (first + 1))).map
        fun cut => first + cut.1.length + 1 := by
  rw [closingIndex, drop_eq_cons h]
  simp

theorem opens_of_closingIndex {α : Type} [BEq α] [LawfulBEq α] {opening closing : α} {xs : List α}
    (h : closingIndex opening closing xs first = some last) : xs[first]? = some opening := by
  rw [← List.head?_drop]
  rw [closingIndex] at h
  cases hdrop : xs.drop first with
  | nil => simp [hdrop] at h
  | cons x rest =>
    rw [hdrop] at h
    dsimp only at h
    split at h
    · next hx => simpa using hx
    · cases h

/-- In front of its last brace a group has an open brace behind every character. -/
theorem openBraces_front (h : openBraces 0 inside = some 0) (hfront : a <+: inside) :
    ∃ k, openBraces 1 a = some (k + 1) := by
  obtain ⟨b, rfl⟩ := hfront
  rw [openBraces_append_bind, Option.bind_eq_some_iff] at h
  obtain ⟨k, hk, -⟩ := h
  exact ⟨k, openBraces_add hk 1⟩

theorem closesAt_of_closingIndex (h : closingIndex '{' '}' cs first = some last) :
    ClosesAt cs first last := by
  have hopens := opens_of_closingIndex h
  rw [closingIndex_of_opens _ hopens, Option.map_eq_some_iff] at h
  obtain ⟨⟨inside, rest⟩, hcut, rfl⟩ := h
  dsimp only
  obtain ⟨hdrop, hinside⟩ := splitGroup_braces_iff.1 hcut
  have hlength := congrArg List.length hdrop
  simp only [List.length_drop, List.length_append, List.length_cons] at hlength
  refine ⟨hopens, by omega, by omega, ?_, ?_⟩
  · have hend : first + inside.length + 1 - first = inside.length + 1 := by omega
    rw [slice_eq_cons hopens (by omega), hdrop, hend, List.append_cons,
      List.take_append_of_le_length (by simp), List.take_of_length_le (by simp)]
    rw [bracesBalanced_block (by simpa [bracesBalanced] using hinside)]
    rfl
  · intro earlier hordered hearlier
    have hfront : (cs.drop (first + 1)).take (earlier - first) <+: inside := by
      rw [hdrop, List.take_append_of_le_length (by omega)]
      exact List.take_prefix _ _
    obtain ⟨k, hk⟩ := openBraces_front hinside hfront
    rw [slice_eq_cons hopens hordered, bracesBalanced, openBraces, hk]
    simp

/-- A group that ends in the front of the text ends there in the whole text. -/
theorem closingIndex_of_take {n : Nat} (hopens : cs[first]? = some '{')
    (hcut : splitGroup '{' '}' 0 ((cs.drop (first + 1)).take n) = some (inside, rest)) :
    closingIndex '{' '}' cs first = some (first + inside.length + 1) ∧ inside.length < n := by
  obtain ⟨htake, hinside⟩ := splitGroup_braces_iff.1 hcut
  have hwhole : splitGroup '{' '}' 0 (cs.drop (first + 1)) =
      some (inside, rest ++ (cs.drop (first + 1)).drop n) := by
    rw [splitGroup_braces_iff]
    refine ⟨?_, hinside⟩
    rw [← List.cons_append, ← List.append_assoc, ← htake, List.take_append_drop]
  constructor
  · rw [closingIndex_of_opens _ hopens, hwhole]
    rfl
  · have hlength := congrArg List.length htake
    simp only [List.length_take, List.length_append, List.length_cons] at hlength
    omega

/-- A brace is matched by the end of the first balanced slice from there. -/
theorem closingIndex_eq_some_iff :
    closingIndex '{' '}' cs first = some last ↔ ClosesAt cs first last := by
  constructor
  · exact closesAt_of_closingIndex
  · intro h
    have hbalanced := h.balanced
    rw [slice_eq_cons h.opens h.ordered, bracesBalanced, beq_iff_eq, openBraces] at hbalanced
    obtain ⟨inside, rest, hcut, -⟩ := splitGroup_of_openBraces hbalanced
    obtain ⟨hfound, hlength⟩ := closingIndex_of_take h.opens hcut
    -- The group found is balanced, so it is not shorter than the shortest slice.
    have hlast : last ≤ first + inside.length + 1 := by
      by_contra hshort
      have hfirst := h.shortest (first + inside.length + 1) (by omega) (by omega)
      rw [(closesAt_of_closingIndex hfound).balanced] at hfirst
      cases hfirst
    have heq : first + inside.length + 1 = last := by omega
    rw [hfound, heq]

/-- Behind each character from an opening brace on, up to the one that closes it, some brace is
open: a counter of them never goes below one. -/
theorem openBraces_slice (hopens : cs[first]? = some '{') (hordered : first ≤ last)
    (hbefore : ∀ closing, closingIndex '{' '}' cs first = some closing → last < closing) :
    ∃ k, openBraces 0 (slice cs first last) = some (k + 1) := by
  rw [slice_eq_cons hopens hordered, openBraces]
  apply openBraces_of_unclosed
  rw [← Option.not_isSome_iff_eq_none, Option.isSome_iff_exists]
  rintro ⟨⟨inside, rest⟩, hcut⟩
  obtain ⟨hfound, hlength⟩ := closingIndex_of_take hopens hcut
  have hclosing := hbefore _ hfound
  omega

end Matching

section Encoded

theorem encode_consInside (c : Char) (cut : List Char × List Char) :
    (encode (String.ofList (consInside c cut).1), encode (String.ofList (consInside c cut).2)) =
      (String.utf8EncodeChar c ++ encode (String.ofList cut.1), encode (String.ofList cut.2)) := by
  rw [consInside, encode_cons]

/-- A group in bytes is one in characters. -/
theorem splitGroup_encode (depth : Nat) (cs : List Char) :
    splitGroup 0x7b 0x7d depth (encode (String.ofList cs)) =
      (splitGroup '{' '}' depth cs).map fun cut =>
        (encode (String.ofList cut.1), encode (String.ofList cut.2)) := by
  have hopening : String.utf8EncodeChar '{' = [0x7b] := rfl
  have hclosing : String.utf8EncodeChar '}' = [0x7d] := rfl
  induction cs generalizing depth with
  | nil => simp [splitGroup]
  | cons c cs ih =>
    rw [encode_cons]
    rcases openBraces_cases c with rfl | rfl | ⟨hopen, hclose⟩
    · rw [hopening, splitGroup_cons_open, Option.map_map]
      cases depth <;> simp [splitGroup, ih, encode_consInside, hopening, Function.comp_def]
    · rw [hclosing]
      cases depth with
      | zero => simp [splitGroup]
      | succ depth =>
        rw [splitGroup_cons_close (by decide), Option.map_map]
        simp [splitGroup, ih, encode_consInside, hclosing, Function.comp_def]
    · have hbytes : ∀ b ∈ String.utf8EncodeChar c, b ≠ 0x7b ∧ b ≠ 0x7d := by
        intro b hb
        constructor
        · exact ne_of_mem_utf8EncodeChar (by decide) hopen hb
        · exact ne_of_mem_utf8EncodeChar (by decide) hclose hb
      rw [splitGroup_append _ hbytes, splitGroup_cons_other hopen hclose, ih, Option.map_map,
        Option.map_map]
      simp [encode_consInside, Function.comp_def]

/-- A brace in the text, and where its byte stands. -/
theorem split_encode (h : cs[k]? = some '{') :
    (encode (String.ofList cs))[byteLength (cs.take k)]? = some 0x7b ∧
      (encode (String.ofList cs)).drop (byteLength (cs.take k) + 1) =
        encode (String.ofList (cs.drop (k + 1))) := by
  have hopening : String.utf8EncodeChar '{' = [0x7b] := rfl
  have hcs : encode (String.ofList cs) = encode (String.ofList (cs.take k)) ++
      0x7b :: encode (String.ofList (cs.drop (k + 1))) := by
    conv_lhs => rw [← List.take_append_drop k cs]
    rw [encode_append, drop_eq_cons h, encode_cons, hopening, List.singleton_append]
  rw [hcs, ← length_encode, List.drop_append]
  simp

theorem closingIndex_encode_byteLength (h : cs[k]? = some '{') :
    closingIndex 0x7b 0x7d (encode (String.ofList cs)) (byteLength (cs.take k)) =
      (closingIndex '{' '}' cs k).map fun last => byteLength (cs.take last) := by
  obtain ⟨hbyte, hdrop⟩ := split_encode h
  rw [closingIndex_of_opens _ hbyte, hdrop, splitGroup_encode, closingIndex_of_opens _ h]
  cases hcut : splitGroup '{' '}' 0 (cs.drop (k + 1)) with
  | none => rfl
  | some cut =>
    obtain ⟨hrest, -⟩ := splitGroup_braces_iff.1 hcut
    have htake : cs.take (k + cut.1.length + 1) = cs.take k ++ '{' :: cut.1 := by
      have hlength : k + cut.1.length + 1 = k + (cut.1.length + 1) := by omega
      rw [hlength, List.take_add, drop_eq_cons h, List.take_succ_cons, hrest, List.take_left]
    have hopening : String.utf8EncodeChar '{' = [0x7b] := rfl
    have hlength : byteLength (cs.take (k + cut.1.length + 1)) =
        byteLength (cs.take k) + (encode (String.ofList cut.1)).length + 1 := by
      rw [htake, ← length_encode, ← length_encode, encode_append, encode_cons, hopening]
      simp only [List.length_append, List.length_singleton]
      omega
    simp only [Option.map_some, hlength]

/-- A brace is matched alike in characters and in bytes. -/
theorem closingIndex_encode {i j : Nat} :
    closingIndex 0x7b 0x7d (encode (String.ofList cs)) i = some j ↔
      ∃ first last, closingIndex '{' '}' cs first = some last ∧
        i = byteLength (cs.take first) ∧ j = byteLength (cs.take last) := by
  constructor
  · intro h
    obtain ⟨first, rfl, hopens⟩ := exists_of_getElem?_encode (by decide) (opens_of_closingIndex h)
    rw [closingIndex_encode_byteLength hopens, Option.map_eq_some_iff] at h
    obtain ⟨last, hlast, rfl⟩ := h
    exact ⟨first, last, hlast, rfl, rfl⟩
  · rintro ⟨first, last, h, rfl, rfl⟩
    rw [closingIndex_encode_byteLength (opens_of_closingIndex h), h, Option.map_some]

end Encoded

section Bodies

/-- What a text with balanced braces consists of outside all groups. -/
inductive BracePiece where
  | char (c : Char)
  | group (inside : List Char)

def BracePiece.WellFormed : BracePiece → Prop
  | .char c => c ≠ '{' ∧ c ≠ '}'
  | .group inside => bracesBalanced inside

def BracePiece.text : BracePiece → List Char
  | .char c => [c]
  | .group inside => '{' :: (inside ++ ['}'])

/-- The text with a semicolon for each group, or nothing where the next character that is no blank
is a comma or opens another group. -/
def replaceGroups : List BracePiece → List Char
  | [] => []
  | .char c :: pieces => c :: replaceGroups pieces
  | .group _ :: pieces =>
    let next := (pieces.flatMap BracePiece.text).find? (!isBlank ·)
    if next = some ',' ∨ next = some '{' then replaceGroups pieces
    else ';' :: replaceGroups pieces

variable {pieces : List BracePiece}

theorem head?_trimStart (cs : List Char) : (trimStart cs).head? = cs.find? (!isBlank ·) := by
  induction cs with
  | nil => rfl
  | cons c cs ih =>
    cases hc : isBlank c with
    | true => rw [trimStart, List.dropWhile_cons_of_pos hc, ← trimStart, ih]; simp [hc]
    | false => rw [trimStart_eq_self (by simpa using hc)]; simp [hc]

/-- Whatever the braces of a text, none that opens is left. -/
theorem not_mem_stripBodies (cs : List Char) : '{' ∉ stripBodies cs := by
  induction hn : cs.length using Nat.strong_induction_on generalizing cs with
  | _ n ih =>
    subst hn
    cases cs with
    | nil => simp [stripBodies]
    | cons c cs =>
      by_cases hc : c = '{'
      · subst hc
        cases hcut : splitGroup '{' '}' 0 cs with
        | none => simp [stripBodies_group_none hcut]
        | some cut =>
          have hlength := splitGroup_length hcut
          have hafter := ih cut.2.length (by simp only [List.length_cons]; omega) cut.2 rfl
          have hmark : '{' ∉ bodyMark cut.2 := by
            rw [bodyMark]
            split <;> decide
          rw [stripBodies_group hcut, List.mem_append, not_or]
          exact ⟨hmark, hafter⟩
      · rw [stripBodies_cons hc, List.mem_cons, not_or]
        exact ⟨Ne.symm hc, ih cs.length (Nat.lt_succ_self _) cs rfl⟩

/-- To take out the bodies is to replace the groups. -/
theorem stripBodies_pieces (h : ∀ piece ∈ pieces, piece.WellFormed) :
    stripBodies (pieces.flatMap BracePiece.text) = replaceGroups pieces := by
  induction pieces with
  | nil => simp [stripBodies, replaceGroups]
  | cons piece pieces ih =>
    rw [List.forall_mem_cons] at h
    rw [List.flatMap_cons]
    cases piece with
    | char c =>
      obtain ⟨hopen, -⟩ := h.1
      rw [BracePiece.text, List.singleton_append, stripBodies_cons hopen, ih h.2, replaceGroups]
    | group inside =>
      have hcut := splitGroup_of_balanced h.1 (pieces.flatMap BracePiece.text)
      rw [BracePiece.text, List.cons_append, List.append_assoc, List.singleton_append,
        stripBodies_group hcut, ih h.2, replaceGroups, bodyMark, head?_trimStart]
      split
      · next hnext => simp [hnext]
      · next hnext => simp [hnext]
      · next hcomma hopen => rw [if_neg (not_or.2 ⟨hcomma, hopen⟩), List.singleton_append]

theorem not_mem_replaceGroups (h : ∀ piece ∈ pieces, piece.WellFormed) :
    '}' ∉ replaceGroups pieces := by
  induction pieces with
  | nil => simp [replaceGroups]
  | cons piece pieces ih =>
    rw [List.forall_mem_cons] at h
    cases piece with
    | char c =>
      obtain ⟨-, hclose⟩ := h.1
      rw [replaceGroups, List.mem_cons, not_or]
      exact ⟨Ne.symm hclose, ih h.2⟩
    | group inside =>
      rw [replaceGroups]
      split
      · exact ih h.2
      · rw [List.mem_cons, not_or]
        exact ⟨by decide, ih h.2⟩

/-- The texts with balanced braces are the sequences of such pieces. -/
theorem bracesBalanced_iff :
    bracesBalanced cs ↔ ∃ pieces : List BracePiece,
      (∀ piece ∈ pieces, piece.WellFormed) ∧ pieces.flatMap BracePiece.text = cs := by
  constructor
  · refine balanced_induction ⟨[], by simp, rfl⟩ ?_ ?_
    · rintro inside _ hinside - ⟨pieces, hpieces, rfl⟩
      refine ⟨.group inside :: pieces, List.forall_mem_cons.2 ⟨hinside, hpieces⟩, ?_⟩
      simp [BracePiece.text]
    · rintro c _ hopen hclose - ⟨pieces, hpieces, rfl⟩
      refine ⟨.char c :: pieces, List.forall_mem_cons.2 ⟨⟨hopen, hclose⟩, hpieces⟩, ?_⟩
      simp [BracePiece.text]
  · rintro ⟨pieces, h, rfl⟩
    induction pieces with
    | nil => rfl
    | cons piece pieces ih =>
      rw [List.forall_mem_cons] at h
      rw [List.flatMap_cons]
      cases piece with
      | char c =>
        obtain ⟨hopen, hclose⟩ := h.1
        rw [BracePiece.text, List.singleton_append, bracesBalanced_cons hopen hclose]
        exact ih h.2
      | group inside =>
        rw [BracePiece.text, List.cons_append, List.append_assoc, List.singleton_append,
          bracesBalanced_block h.1]
        exact ih h.2

end Bodies

/-- How matching, balance and the taking out of bodies agree, for any text. -/
theorem braces_agree (cs : List Char) :
    (∀ first last, closingIndex '{' '}' cs first = some last ↔ ClosesAt cs first last) ∧
    (∀ first, closingIndex '{' '}' cs first = none ↔ ∀ last, ¬ ClosesAt cs first last) ∧
    (∀ first last, cs[first]? = some '{' → first ≤ last →
      (∀ closing, closingIndex '{' '}' cs first = some closing → last < closing) →
        ∃ k, openBraces 0 (slice cs first last) = some (k + 1)) ∧
    (∀ i j, closingIndex 0x7b 0x7d (encode (String.ofList cs)) i = some j ↔
      ∃ first last, closingIndex '{' '}' cs first = some last ∧
        i = byteLength (cs.take first) ∧ j = byteLength (cs.take last)) ∧
    '{' ∉ stripBodies cs ∧
    (bracesBalanced cs → '}' ∉ stripBodies cs ∧
      (∃ pieces : List BracePiece,
        (∀ piece ∈ pieces, piece.WellFormed) ∧ pieces.flatMap BracePiece.text = cs) ∧
      ∀ pieces : List BracePiece,
        (∀ piece ∈ pieces, piece.WellFormed) → pieces.flatMap BracePiece.text = cs →
        stripBodies cs = replaceGroups pieces) := by
  have hnone : ∀ first,
      closingIndex '{' '}' cs first = none ↔ ∀ last, ¬ ClosesAt cs first last := by
    intro first
    rw [Option.eq_none_iff_forall_ne_some]
    exact forall_congr' fun last => not_congr closingIndex_eq_some_iff
  refine ⟨fun _ _ => closingIndex_eq_some_iff, hnone, fun _ _ => openBraces_slice,
    fun _ _ => closingIndex_encode, not_mem_stripBodies cs, fun hbalanced => ?_⟩
  obtain ⟨pieces, hpieces, rfl⟩ := bracesBalanced_iff.1 hbalanced
  refine ⟨?_, ⟨pieces, hpieces, rfl⟩, ?_⟩
  · rw [stripBodies_pieces hpieces]
    exact not_mem_replaceGroups hpieces
  · intro others hothers htext
    rw [← htext, stripBodies_pieces hothers]

end TestSynth.Text
