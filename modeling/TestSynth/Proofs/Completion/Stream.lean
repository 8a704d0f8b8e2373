import TestSynth.Completion.Stream
/-!
A reply in pieces says what the whole reply says. Where it is cut does not matter, also inside a
line or a character; its text is told from its lines alone, up to the last fragment.
-/
namespace TestSynth

open Text (Bytes)

/-- The bytes between the line ends of a reply. What follows the last end is a line as well. -/
def replyLines (reply : Bytes) : List Bytes := reply.splitOn 10

/-- The fragments that some lines hold. A line that is blank or cannot be read holds none. -/
def fragments (lines : List Bytes) : List Fragment := lines.filterMap Fragment.ofLine?

/-- A text with what the fragments before the last one add to it. -/
def textAfter (text : String) (fs : List Fragment) : String :=
  (fs.takeWhile (!·.isLast)).foldl (fun text f => text ++ f.text) text

/-- What a reply says. -/
def replyText (reply : Bytes) : String := textAfter "" (fragments (replyLines reply))

/-- A blank line holds no fragment. -/
theorem Fragment.ofLine?_blank {line : Bytes} (h : Text.trimString (Text.decode line) = "") :
    Fragment.ofLine? line = none := by
  have hempty : Json.parseText? "" = none := by decide +kernel
  rw [ofLine?, h, hempty]
  rfl

theorem fragments_append (lines more : List Bytes) :
    fragments (lines ++ more) = fragments lines ++ fragments more :=
  List.filterMap_append

section Text
variable {text : String} {fs gs : List Fragment}

/-- After the last fragment nothing is added. -/
theorem textAfter_append_of_last (h : fs.any (·.isLast) = true) :
    textAfter text (fs ++ gs) = textAfter text fs := by
  induction fs generalizing text with
  | nil => simp at h
  | cons f fs ih =>
    cases hf : f.isLast with
    | true => simp [textAfter, hf]
    | false =>
      rw [List.any_cons, hf, Bool.false_or] at h
      have hrest : textAfter (text ++ f.text) (fs ++ gs) = textAfter (text ++ f.text) fs := ih h
      simpa [textAfter, hf] using hrest

theorem textAfter_append (h : fs.any (·.isLast) = false) :
    textAfter text (fs ++ gs) = textAfter (textAfter text fs) gs := by
  have hall : ∀ f ∈ fs, (!f.isLast) = true := by
    intro f hf
    have := List.any_eq_false.1 h f hf
    simpa using this
  have hfs : fs.takeWhile (!·.isLast) = fs := by
    have hnil : (fs ++ []).takeWhile (!·.isLast) = fs ++ [] := List.takeWhile_append_of_pos hall
    rwa [List.append_nil] at hnil
  rw [textAfter, List.takeWhile_append_of_pos hall, List.foldl_append, textAfter, textAfter, hfs]

end Text

namespace StreamDecoder

section Cutting

theorem splitLines_end (rest : Bytes) :
    splitLines (10 :: rest) = ([] :: (splitLines rest).1, (splitLines rest).2) := rfl

section
variable {b : UInt8} {rest last line : Bytes} {lines : List Bytes}

/-- A byte that ends no line is the first of what comes next: of what has not ended. -/
theorem splitLines_cons_unended (hb : b ≠ 10) (h : splitLines rest = ([], last)) :
    splitLines (b :: rest) = ([], b :: last) := by
  simp [splitLines, h, hb]

/-- It is the first of the next line, if there is one. -/
theorem splitLines_cons_line (hb : b ≠ 10) (h : splitLines rest = (line :: lines, last)) :
    splitLines (b :: rest) = ((b :: line) :: lines, last) := by
  simp [splitLines, h, hb]

end

/-- The lines of a reply are those that end and what follows them. -/
theorem replyLines_eq (reply : Bytes) :
    replyLines reply = (splitLines reply).1 ++ [(splitLines reply).2] := by
  induction reply with
  | nil => rfl
  | cons b rest ih =>
    have hcons : replyLines (b :: rest) = if b == 10 then [] :: replyLines rest
        else (replyLines rest).modifyHead (b :: ·) := by
      rw [replyLines, List.splitOn, List.splitOnP_cons_eq_if_modifyHead]
      rfl
    rw [hcons, ih]
    by_cases hb : b = 10
    · subst hb
      rw [splitLines_end]
      rfl
    · rw [if_neg (by simpa using hb)]
      rcases h : splitLines rest with ⟨_ | ⟨line, lines⟩, last⟩
      · rw [splitLines_cons_unended hb h]
        rfl
      · rw [splitLines_cons_line hb h]
        rfl

/-- What a part leaves without an end stands before what follows the part. -/
theorem splitLines_append (p q : Bytes) :
    splitLines (p ++ q) = ((splitLines p).1 ++ (splitLines ((splitLines p).2 ++ q)).1,
      (splitLines ((splitLines p).2 ++ q)).2) := by
  induction p with
  | nil => rfl
  | cons b p ih =>
    rw [List.cons_append]
    by_cases hb : b = 10
    · subst hb
      rw [splitLines_end, splitLines_end, ih]
      rfl
    · rcases h : splitLines p with ⟨_ | ⟨line, lines⟩, last⟩
      · have hpq : splitLines (p ++ q) = splitLines (last ++ q) := by
          rw [ih, h]
          rfl
        rw [splitLines_cons_unended hb h, splitLines, hpq]
        rfl
      · rw [h] at ih
        rw [splitLines_cons_line hb h, splitLines_cons_line hb ih]
        rfl

end Cutting

section Lines
variable {d : StreamDecoder} {lines : List Bytes}

theorem takeLines_of_done (h : d.done = true) (lines : List Bytes) : d.takeLines lines = d := by
  induction lines with
  | nil => rfl
  | cons line lines ih =>
    rw [takeLines, List.foldl_cons, if_pos h]
    exact ih

/-- Lines add the text of their fragments, up to the last one. -/
theorem takeLines_eq (h : d.done = false) (lines : List Bytes) : d.takeLines lines =
    { pending := d.pending
      text := textAfter d.text (fragments lines)
      done := (fragments lines).any (·.isLast) } := by
  induction lines generalizing d with
  | nil => exact congrArg (StreamDecoder.mk d.pending d.text) h
  | cons line lines ih =>
    have hcons : d.takeLines (line :: lines) = (d.takeLine line).takeLines lines := by
      rw [takeLines, List.foldl_cons, h]
      rfl
    rw [hcons, takeLine, fragments, List.filterMap_cons]
    cases hf : Fragment.ofLine? line with
    | none => exact ih h
    | some f =>
      cases hlast : f.isLast with
      | true =>
        simp only [hlast, if_true]
        rw [takeLines_of_done rfl]
        simp [textAfter, hlast]
      | false =>
        simp only [hlast, Bool.false_eq_true, if_false]
        have hrest := ih (d := { d with text := d.text ++ f.text }) h
        rw [hrest]
        simp [textAfter, hlast, fragments]

end Lines

section Feeding
variable {d : StreamDecoder}

theorem feed_of_done (h : d.done = true) (piece : Bytes) : d.feed piece = d := by
  rw [feed, if_pos h]

/-- A piece ends some lines, and leaves bytes for later unless one of them has the last fragment. -/
theorem feed_of_not_done (h : d.done = false) (piece : Bytes) : d.feed piece =
    let cut := splitLines (d.pending ++ piece)
    { pending := if (fragments cut.1).any (·.isLast) then [] else cut.2
      text := textAfter d.text (fragments cut.1)
      done := (fragments cut.1).any (·.isLast) } := by
  rw [feed, h, if_neg Bool.false_ne_true]
  simp only [takeLines_eq h]

/-- A cut between two pieces does not matter. -/
theorem feed_append (d : StreamDecoder) (p q : Bytes) :
    (d.feed p).feed q = d.feed (p ++ q) := by
  cases hd : d.done with
  | true => rw [feed_of_done hd, feed_of_done hd, feed_of_done hd]
  | false =>
    have hcut := splitLines_append (d.pending ++ p) q
    rw [List.append_assoc] at hcut
    rw [feed_of_not_done hd, feed_of_not_done hd, hcut]
    simp only [fragments_append, List.any_append]
    cases hlast : (fragments (splitLines (d.pending ++ p)).1).any (·.isLast) with
    | true =>
      rw [feed_of_done rfl, textAfter_append_of_last hlast]
      rfl
    | false =>
      rw [feed_of_not_done rfl, textAfter_append hlast]
      rfl

/-- Pieces tell what they make up together. -/
theorem foldl_feed (pieces : List Bytes) :
    pieces.foldl feed {} = feed {} pieces.flatten := by
  have hfrom : ∀ d : StreamDecoder, d.feed [] = d →
      pieces.foldl feed d = d.feed pieces.flatten := by
    induction pieces with
    | nil => exact fun d h => h.symm
    | cons piece pieces ih =>
      intro d _
      have hnothing : (d.feed piece).feed [] = d.feed piece := by
        rw [feed_append, List.append_nil]
      rw [List.foldl_cons, ih _ hnothing, feed_append, List.flatten_cons]
  exact hfrom {} rfl

/-- What has not ended is a line in the end. -/
theorem finish_of_not_done (h : d.done = false) :
    d.finish = textAfter d.text (fragments [d.pending]) := by
  have hline : (d.takeLine d.pending).text = textAfter d.text (fragments [d.pending]) := by
    have htake := takeLines_eq h [d.pending]
    rw [takeLines, List.foldl_cons, h] at htake
    exact congrArg StreamDecoder.text htake
  rw [finish, h, Bool.false_or]
  cases hp : d.pending with
  | nil =>
    have hblank : Text.trimString (Text.decode []) = "" := by decide +kernel
    have hnone : fragments [[]] = [] := by
      rw [fragments, List.filterMap_cons, Fragment.ofLine?_blank hblank]
      rfl
    rw [hnone]
    rfl
  | cons b rest =>
    rw [if_neg (by simp), ← hp]
    exact hline

theorem finish_feed (reply : Bytes) : (feed {} reply).finish = replyText reply := by
  rw [replyText, replyLines_eq, fragments_append, feed_of_not_done rfl]
  dsimp only
  rw [List.nil_append]
  cases hlast : (fragments (splitLines reply).1).any (·.isLast) with
  | true => rw [textAfter_append_of_last hlast, finish, Bool.true_or, if_pos rfl]
  | false =>
    rw [finish_of_not_done rfl, textAfter_append hlast]
    rfl

end Feeding

/-- However a reply is cut into pieces, characters included, they are read as the whole reply is.
In the end there is the text of its fragments up to the last one; the last one is seen exactly when
its line has ended, and from then on no piece changes anything. -/
theorem foldl_feed_pieces (pieces : List Bytes) :
    let reply := pieces.flatten
    let d := pieces.foldl feed {}
    d = feed {} reply ∧ d.finish = replyText reply ∧
      (d.done ↔ ∃ line ∈ (replyLines reply).dropLast, ∃ f ∈ Fragment.ofLine? line, f.isLast) ∧
      (d.done → ∀ piece, d.feed piece = d) ∧
      ∀ line, Text.trimString (Text.decode line) = "" → Fragment.ofLine? line = none := by
  intro reply d
  have hwhole : d = feed {} reply := foldl_feed pieces
  refine ⟨hwhole, ?_, ?_, fun h piece => feed_of_done h piece, fun _ => Fragment.ofLine?_blank⟩
  · rw [hwhole]
    exact finish_feed reply
  · have hdone : d.done = (fragments (replyLines reply).dropLast).any (·.isLast) := by
      rw [hwhole, feed_of_not_done rfl, replyLines_eq, List.dropLast_concat]
      rfl
    rw [hdone, List.any_eq_true]
    constructor
    · rintro ⟨f, hf, hlast⟩
      obtain ⟨line, hline, hf⟩ := List.mem_filterMap.1 hf
      exact ⟨line, hline, f, hf, hlast⟩
    · rintro ⟨line, hline, f, hf, hlast⟩
      exact ⟨f, List.mem_filterMap.2 ⟨line, hline, hf⟩, hlast⟩

end StreamDecoder

end TestSynth
