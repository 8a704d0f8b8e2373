import Mathlib
import TestSynth.Header.Scan
import TestSynth.Proofs.Text.Masking
/-!
What stands in comments and in literals is not seen: blanks in the place of a comment, or another
literal of the same length, change nothing in what a header declares.
-/
namespace TestSynth.Header

open Text

/-- The text with a space for every character but the newlines. -/
def blanked (s : String) : String := String.ofList (s.toList.map blankOut)

section Masked
variable {previous : Option Char} {cs ds after : List Char}

theorem blankOut_eq (c : Char) : blankOut c = '\n' ∨ blankOut c = ' ' := by
  unfold blankOut
  split
  · exact .inl rfl
  · exact .inr rfl

/-- Blanks are not masked, and code starts anew behind them. -/
theorem maskFrom_blanks (hne : cs ≠ []) :
    maskFrom .code previous (cs.map blankOut ++ after) =
      cs.map blankOut ++ maskFrom .code none after := by
  have hplain : ∀ c ∈ cs.map blankOut, c ≠ '/' ∧ c ≠ '"' ∧ c ≠ '\'' := by
    rw [List.forall_mem_map]
    intro c _
    rcases blankOut_eq c with h | h <;> simp [h]
  rw [maskFrom_code_append hplain, List.getLast?_map]
  refine congrArg _ (maskFrom_previous ?_)
  rw [List.getLast?_eq_getLast_of_ne_nil hne]
  rcases blankOut_eq (cs.getLast hne) with h | h <;> simp [h]

/-- A block comment is masked like its blanks. -/
theorem maskFrom_code_blockComment (h : ¬ ['*', '/'] <:+: cs) :
    maskFrom .code previous ('/' :: '*' :: (cs ++ '*' :: '/' :: after)) =
      maskFrom .code previous (('/' :: '*' :: (cs ++ ['*', '/'])).map blankOut ++ after) := by
  have hslash : maskFrom .code (some '/') after = maskFrom .code none after :=
    maskFrom_previous rfl
  rw [maskFrom_blanks (List.cons_ne_nil _ _), maskFrom, maskFrom_blockComment h, hslash]
  simp [blankOut]

/-- A line comment is masked like its blanks. -/
theorem maskFrom_code_lineComment (h : '\n' ∉ cs) :
    maskFrom .code previous ('/' :: '/' :: (cs ++ '\n' :: after)) =
      maskFrom .code previous (('/' :: '/' :: cs).map blankOut ++ '\n' :: after) := by
  rw [maskFrom_blanks (List.cons_ne_nil _ _), maskFrom, maskFrom_lineComment h,
    maskFrom_code_cons (by decide) (by decide) (fun hc => absurd hc (by decide))]
  simp [blankOut]

/-- Of a literal its length is left. -/
theorem maskFrom_code_literal (previous : Option Char) (after : List Char)
    (h : ∀ c ∈ cs, c ≠ '"' ∧ c ≠ '\\' ∧ c ≠ '\n') :
    maskFrom .code previous ('"' :: (cs ++ '"' :: after)) =
      '"' :: (List.replicate cs.length ' ' ++ '"' :: maskFrom .code (some '"') after) := by
  have hblank : cs.map blankOut = List.replicate cs.length ' ' :=
    List.map_eq_replicate_iff.2 fun c hc => by simp [blankOut, (h c hc).2.2]
  rw [maskFrom, maskFrom_literal h, hblank]

end Masked

section Sources
variable {a s t : String}

/-- What masking makes alike in code can be exchanged where a text ends in code. -/
theorem extract_eq_of_masked (limits : Limits) (header : SourceUnit)
    (hcode : regionAfter .code none a.toList = .code) (hlast : a.toList.getLast? ≠ some '/')
    (h : ∀ previous, maskFrom .code previous s.toList = maskFrom .code previous t.toList) :
    extract limits header (a ++ s) = extract limits header (a ++ t) := by
  have hstrip : stripComments (a ++ s).toList = stripComments (a ++ t).toList := by
    rw [String.toList_append, String.toList_append, stripComments, stripComments,
      maskFrom_append hcode hlast, maskFrom_append hcode hlast, h]
  rw [extract, extract, sanitize, sanitize, hstrip]

/-- Comments and the contents of literals are invisible wherever they stand in code. -/
theorem extract_ignores_comments_and_literals (limits : Limits) (header : SourceUnit) (a b : String)
    (hcode : regionAfter .code none a.toList = .code) (hlast : a.toList.getLast? ≠ some '/') :
    (∀ c : String, ¬ "*/".toList <:+: c.toList →
      extract limits header (a ++ ("/*" ++ c ++ "*/" ++ b)) =
        extract limits header (a ++ (blanked ("/*" ++ c ++ "*/") ++ b))) ∧
    (∀ c : String, '\n' ∉ c.toList →
      extract limits header (a ++ ("//" ++ c ++ "\n" ++ b)) =
        extract limits header (a ++ (blanked ("//" ++ c ++ "\n") ++ b))) ∧
    (∀ s t : String, s.length = t.length →
      (∀ c ∈ s.toList ++ t.toList, c ≠ '"' ∧ c ≠ '\\' ∧ c ≠ '\n') →
      extract limits header (a ++ ("\"" ++ s ++ "\"" ++ b)) =
        extract limits header (a ++ ("\"" ++ t ++ "\"" ++ b))) := by
  refine ⟨fun c hc => ?_, fun c hc => ?_, fun s t hlength hst => ?_⟩
  · refine extract_eq_of_masked limits header hcode hlast fun previous => ?_
    simpa [blanked] using maskFrom_code_blockComment hc
  · refine extract_eq_of_masked limits header hcode hlast fun previous => ?_
    simpa [blanked, blankOut] using maskFrom_code_lineComment hc
  · refine extract_eq_of_masked limits header hcode hlast fun previous => ?_
    rw [List.forall_mem_append] at hst
    have hs := maskFrom_code_literal previous b.toList hst.1
    have ht := maskFrom_code_literal previous b.toList hst.2
    rw [String.length_toList, hlength, ← String.length_toList, ← ht] at hs
    simpa using hs

/-- A class that is still open, with grouped digits and a literal of an apostrophe. -/
def openGate : String := "struct Gate \x7b int size = 1'000; char mark = '\\'';"

/-- A comment with a brace, a quote and the start of another comment, before a class that closes and
a literal that does not. -/
theorem extract_ignores_comments_and_literals_openGate :
    regionAfter .code none openGate.toList = .code ∧ openGate.toList.getLast? ≠ some '/' ∧
      ¬ "*/".toList <:+: " \x7d \" /* ".toList ∧
      extract {} ⟨⟨"gate.h"⟩, .header⟩
          (openGate ++ ("/*" ++ " \x7d \" /* " ++ "*/" ++ "void open(); \x7d;\nauto name = \"x\n")) =
        extract {} ⟨⟨"gate.h"⟩, .header⟩
          (openGate ++ (blanked ("/*" ++ " \x7d \" /* " ++ "*/") ++
            "void open(); \x7d;\nauto name = \"x\n")) := by
  have hcode : regionAfter .code none openGate.toList = .code := by decide
  have hlast : openGate.toList.getLast? ≠ some '/' := by decide
  have hcomment : ¬ "*/".toList <:+: " \x7d \" /* ".toList := by decide
  exact ⟨hcode, hlast, hcomment,
    (extract_ignores_comments_and_literals _ _ _ _ hcode hlast).1 _ hcomment⟩

end Sources

end TestSynth.Header
