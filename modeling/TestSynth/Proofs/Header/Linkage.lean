import Mathlib
import TestSynth.Proofs.Declaration.Operators
import TestSynth.Proofs.Header.Enclosing
import TestSynth.Proofs.Header.WellFormed
/-!
Linkage of one declaration. In a linkage block a declaration is read as by itself. Behind the word
and the literal it is read as the same function, but the quotes of the literal, which masking
leaves, stand in its return type.
-/
namespace TestSynth.Declaration

open Text

section Linkage
variable {access : Access} {lead before parameters after cs : List Char} {m : Method}

/-- A mark that the words in front of the name hold stays in the return type. -/
theorem mem_returnedType {ws : List (List Char)} {w : List Char} {c : Char}
    (hword : isWord c = false) (hblank : isBlank c = false) (hw : w ∈ ws) (hmem : c ∈ w)
    (suffix : Suffix) :
    returnedType (spelledType ws) suffix = spelledType ws ∧ c ∈ spelledType ws := by
  have hkept : w ∈ ws.filter (!isModifier ·) := by
    rw [List.mem_filter, Bool.not_eq_true']
    refine ⟨hw, Bool.eq_false_iff.2 fun hmodifier => ?_⟩
    rw [(isReserved_of_isModifier hmodifier).2 c hmem] at hword
    cases hword
  have hspelled : c ∈ spelledType ws := (mem_tidyType hblank).2 (mem_joinWith hkept hmem)
  have hauto : (spelledType ws == "auto".toList) = false := by
    rw [beq_eq_false_iff_ne]
    intro heq
    have hletters : ∀ d ∈ "auto".toList, isWord d := by simp [isWord]
    rw [hletters c (heq ▸ hspelled)] at hword
    cases hword
  have hempty : (spelledType ws).isEmpty = false := by
    rw [Bool.eq_false_iff, Ne, List.isEmpty_iff]
    exact List.ne_nil_of_mem hspelled
  refine ⟨?_, hspelled⟩
  rw [returnedType, hauto, hempty]
  split <;> rfl

/-- A trailing type only stands for a missing one. -/
theorem returnedType_cases (spelled : List Char) (suffix : Suffix) :
    returnedType spelled suffix = spelled ∨ spelled = "auto".toList ∨ spelled = [] := by
  rw [returnedType]
  split
  · split
    · next hstands =>
      rw [Bool.or_eq_true, beq_iff_eq, List.isEmpty_iff] at hstands
      exact .inr hstands
    · exact .inl rfl
  · exact .inl rfl

/-- Outside classes a function is one whatever it returns. -/
theorem specialKind?_none_iff {name returnType : List Char} {kind : Bool × Bool} :
    specialKind? none name returnType = some kind ↔
      returnType ≠ [] ∧ name.head? ≠ some '~' ∧ kind = (false, false) := by
  rw [specialKind?]
  split
  · next hnone =>
    rw [Bool.or_eq_true, List.isEmpty_iff, beq_iff_eq] at hnone
    rcases hnone with h | h <;> simp [h]
  · next hsome =>
    rw [Bool.or_eq_true, List.isEmpty_iff, beq_iff_eq, not_or] at hsome
    simp [hsome, eq_comm]

/-- The word for a linkage and its literal, which is masked. -/
def linkageMark : List Char := "extern \" \"".toList

theorem linkageMark_eq : linkageMark = "extern \" ".toList ++ ['"'] := by decide

theorem words_linkageMark : words linkageMark = ["extern".toList, ['"'], ['"']] := by
  decide

/-- The mark stays in front of what is classified. -/
theorem subject_linkageMark (cs : List Char) : ∃ lead, (∀ c ∈ lead, isBlank c) ∧
    subject (linkageMark ++ ' ' :: cs) = linkageMark ++
      if stripped cs = [] then [] else ' ' :: (lead ++ stripped cs) := by
  have htrim : ∀ x, trim (linkageMark ++ x) = linkageMark ++ trimEnd x := fun x => by
    have hstart : trimStart "extern \" ".toList = "extern \" ".toList := by decide
    rw [linkageMark_eq, List.append_assoc, List.singleton_append, trim_append_cons (by decide),
      hstart, List.append_assoc, List.singleton_append]
  have hmarks : ∀ x, (linkageMark ++ x).dropWhile (fun c => c == ',' || c == ':') =
      linkageMark ++ x := fun x => by
    have hfirst : linkageMark = 'e' :: "xtern \" \"".toList := by decide
    rw [hfirst, List.cons_append, List.dropWhile_cons_of_neg (by decide)]
  have hspaces : normalizeSpaces (linkageMark ++ ' ' :: cs) = linkageMark ++ spaced (words cs) := by
    have hmark : linkageMark = "extern".toList ++ spaced [['"'], ['"']] := by decide
    rw [normalizeSpaces, words_append_cons isBlank_space, words_linkageMark, hmark]
    simp [joinWith_eq_spaced, spaced]
  have hsubject : subject (linkageMark ++ ' ' :: cs) =
      linkageMark ++ trimEnd (stripAttributes (spaced (words cs))) := by
    rw [subject, stripped, hspaces, stripAttributes_append (by decide), htrim, hmarks, ← htrim,
      trim_trim]
  rw [hsubject, stripped]
  cases hwords : words cs with
  | nil =>
    refine ⟨[], by simp, ?_⟩
    rw [normalizeSpaces, hwords]
    rfl
  | cons w ws =>
    have hspaced : spaced (w :: ws) = [' '] ++ normalizeSpaces cs := by
      rw [normalizeSpaces, hwords, joinWith_eq_spaced]
      rfl
    rw [hspaced, stripAttributes_append (by decide)]
    obtain ⟨lead, tail, hsplit, hlead, htail, -, hend⟩ :=
      trim_split (stripAttributes (normalizeSpaces cs))
    refine ⟨lead, hlead, congrArg (linkageMark ++ ·) ?_⟩
    conv_lhs => rw [hsplit]
    split
    · next hnil =>
      rw [trimEnd, dropEndWhile_eq_nil_iff, hnil]
      simp only [List.append_nil, List.singleton_append, List.forall_mem_cons,
        List.forall_mem_append]
      exact ⟨isBlank_space, hlead, htail⟩
    · next hne =>
      rw [← List.append_assoc, trimEnd, dropEndWhile_append (fun c hc => ?_) htail]
      · rfl
      · rw [← List.append_assoc, List.getLast?_append_of_ne_nil _ hne] at hc
        exact hend c hc

section Reading
variable (hlead : ∀ c ∈ lead, isBlank c)

include hlead

/-- What is cut at no blank is cut behind the mark as by itself. -/
theorem cutBy_linkageMark {stops : Nat × Bool → Char → Option Char → Bool}
    {next : Nat × Bool → Char → Nat × Bool} (hblank : CutBetweenBlanks stops next)
    (hlook : ∀ s c look, stops s c look → stops s c none)
    (hmark : cutBy stops next (0, false) linkageMark = none)
    (hstate : next (linkageMark.foldl next (0, false)) ' ' = (0, false))
    (hspace : next (0, false) ' ' = (0, false)) (cs : List Char) :
    cutBy stops next (0, false) (linkageMark ++ ' ' :: (lead ++ cs)) =
      (cutBy stops next (0, false) cs).map fun cut =>
        (linkageMark ++ ' ' :: (lead ++ cut.1), cut.2) := by
  rw [cutBy_append_of_none hlook hmark, cutBy_blank hblank isBlank_space, hstate,
    hblank.cutBy_blanks_append hspace hlead, Option.map_map, Option.map_map]
  rfl

theorem cutAtParen_linkageMark (cs : List Char) :
    cutAtParen 0 none (linkageMark ++ ' ' :: (lead ++ cs)) =
      (cutAtParen 0 none cs).map fun cut => (linkageMark ++ ' ' :: (lead ++ cut.1), cut.2) := by
  have hnone : ((none : Option Char) == some '-') = false := rfl
  rw [cutAtParen_eq_cutBy, cutAtParen_eq_cutBy, hnone]
  exact cutBy_linkageMark hlead parens_between_blanks parenStops_look (by decide)
    (by decide) rfl cs

theorem cutAtAssign_linkageMark (cs : List Char) :
    cutAtAssign 0 none (linkageMark ++ ' ' :: (lead ++ cs)) =
      (cutAtAssign 0 none cs).map fun cut => (linkageMark ++ ' ' :: (lead ++ cut.1), cut.2) := by
  rw [cutAtAssign_eq_cutBy, cutAtAssign_eq_cutBy]
  exact cutBy_linkageMark hlead assigns_between_blanks assignStops_look (by decide)
    (by decide) rfl cs

theorem mem_tokens_linkageMark (cs : List Char) :
    "operator".toList ∈ tokens (linkageMark ++ ' ' :: (lead ++ cs)) ↔
      "operator".toList ∈ tokens cs := by
  have hmark : "operator".toList ∉ tokens linkageMark := by decide
  have hsplit : tokens (linkageMark ++ ' ' :: (lead ++ cs)) =
      tokens linkageMark ++ tokens (lead ++ cs) := fields_append_cons (by decide)
  rw [hsplit, List.mem_append, or_iff_right hmark]
  exact mem_tokens_blanks_append hlead (by decide)

end Reading

/-- Behind the mark the same methods are read, of what is read then from their parts. -/
theorem parse_linkageMark_iff {raw : List Char} (hlead : ∀ c ∈ lead, isBlank c)
    (hraw : subject raw = linkageMark ++ ' ' :: (lead ++ cs)) : parse none access raw = .method m ↔
      ∃ before rest parameters after, cutAtParen 0 none cs = some (before, rest) ∧
        "operator".toList ∉ tokens before ∧ cutAtAssign 0 none before = none ∧
        splitGroup '(' ')' 0 rest = some (parameters, after) ∧
        parseFunction none access (linkageMark ++ ' ' :: (lead ++ before)) parameters after =
          .method m := by
  have hfirst : (linkageMark ++ ' ' :: (lead ++ cs)).takeWhile isWord = "extern".toList := by
    rw [takeWhile_append_of_mem (c := '"') (by decide) (by decide)]
    decide
  have hkept : skippedWords.contains (String.ofList "extern".toList) = false := by decide
  rw [parse_eq_method_iff, hraw, hfirst, cutAtParen_linkageMark hlead]
  constructor
  · rintro ⟨-, before, rest, parameters, after, hcut, hoperator, hassign, hgroup, h⟩
    obtain ⟨⟨before, rest⟩, hinner, heq⟩ := Option.map_eq_some_iff.1 hcut
    cases heq
    rw [mem_tokens_linkageMark hlead] at hoperator
    rw [cutAtAssign_linkageMark hlead, Option.map_eq_none_iff] at hassign
    exact ⟨before, rest, parameters, after, hinner, hoperator, hassign, hgroup, h⟩
  · rintro ⟨before, rest, parameters, after, hcut, hoperator, hassign, hgroup, h⟩
    refine ⟨hkept, linkageMark ++ ' ' :: (lead ++ before), rest, parameters, after, ?_, ?_, ?_,
      hgroup, h⟩
    · rw [hcut]
      rfl
    · rwa [mem_tokens_linkageMark hlead]
    · rw [cutAtAssign_linkageMark hlead, hassign]
      rfl

/-- The words in front of a name, behind the mark. -/
theorem leadingWords_linkageMark (hlead : ∀ c ∈ lead, isBlank c) (hne : trimEnd before ≠ []) :
    takeEndWhile isNamePart (trimEnd (linkageMark ++ ' ' :: (lead ++ before))) =
        takeEndWhile isNamePart (trimEnd before) ∧
      leadingWords (linkageMark ++ ' ' :: (lead ++ before)) =
        ["extern".toList, ['"'], ['"']] ++ leadingWords before := by
  have hlast : ∀ c ∈ (linkageMark ++ ' ' :: lead).getLast?, isNamePart c = false := by
    intro c hc
    rw [List.getLast?_append_of_ne_nil _ (List.cons_ne_nil _ _)] at hc
    rcases List.mem_cons.1 (List.mem_of_getLast? hc) with rfl | hmem
    · decide
    · exact Prototype.isNamePart_of_isBlank (hlead c hmem)
  have htrim : trimEnd (linkageMark ++ ' ' :: (lead ++ before)) =
      (linkageMark ++ ' ' :: lead) ++ trimEnd before := by
    have hsplit : linkageMark ++ ' ' :: (lead ++ before) =
        (linkageMark ++ ' ' :: lead) ++ before := by simp
    rw [trimEnd, hsplit, dropEndWhile_append_of_ne_nil hne, trimEnd]
  obtain ⟨hname, hfront⟩ := takeEndWhile_append_of_getLast? hlast (trimEnd before)
  rw [leadingWords, htrim]
  refine ⟨hname, ?_⟩
  rw [hfront, List.append_assoc, List.cons_append, words_append_cons isBlank_space,
    words_linkageMark, words_blanks_append hlead, leadingWords]

theorem spelledType_linkageMark (ws : List (List Char)) :
    spelledType (["extern".toList, ['"'], ['"']] ++ ws) =
      tidyType ("\" \" ".toList ++ joinWith [' '] (ws.filter (!isModifier ·))) := by
  have hfront : ["extern".toList, ['"'], ['"']].filter (!isModifier ·) = [['"'], ['"']] := by
    decide
  rw [spelledType, List.filter_append, hfront]
  cases ws.filter (!isModifier ·) with
  | nil => decide
  | cons w ws => simp [joinWith_eq_spaced, spaced]

/-- Whatever is read as a function behind the mark has the quotes in its return type. -/
theorem quote_mem_returnType (h : parse none access (linkageMark ++ ' ' :: cs) = .method m) :
    '"' ∈ m.returnType.toList := by
  obtain ⟨lead, hlead, hsubject⟩ := subject_linkageMark cs
  split at hsubject
  · rw [parse_eq_method_iff, hsubject, List.append_nil] at h
    obtain ⟨-, _, _, _, _, hcut, -⟩ := h
    have hnone : cutAtParen 0 none linkageMark = none := by decide
    rw [hnone] at hcut
    cases hcut
  · obtain ⟨before, rest, parameters, after, -, -, -, -, hfunction⟩ :=
      (parse_linkageMark_iff hlead hsubject).1 h
    have hquote : '"' ∈
        dropEndWhile isNamePart (trimEnd (linkageMark ++ ' ' :: (lead ++ before))) := by
      rw [linkageMark_eq, List.append_assoc, List.singleton_append, trimEnd_append_cons (by decide),
        (takeEndWhile_append_cons (by decide) _ _).2]
      simp
    obtain ⟨w, hw, hmem⟩ := exists_mem_words (by decide) hquote
    rw [← leadingWords] at hw
    obtain ⟨name, kind, ps, -, -, -, -, -, -, -, rfl⟩ := parseFunction_eq_method_iff.1 hfunction
    obtain ⟨hreturned, hspelled⟩ := mem_returnedType (by decide) (by decide) hw hmem
      (parseSuffix after)
    rw [String.toList_ofList, hreturned]
    exact hspelled

/-- Behind the mark a function is read with all its parts, its return type apart. -/
theorem parseFunction_linkageMark (hlead : ∀ c ∈ lead, isBlank c)
    (h : parseFunction none access before parameters after = .method m) :
    ∃ written, parseFunction none access (linkageMark ++ ' ' :: (lead ++ before)) parameters after =
        .method { m with returnType := String.ofList (tidyType ("\" \" ".toList ++ written)) } ∧
      (m.returnType = String.ofList (tidyType written) ∨ tidyType written = "auto".toList ∨
        tidyType written = []) := by
  obtain ⟨name, kind, ps, hnamed, hdirect, hname, hidentifier, hdeleted, hkind, hparameters, rfl⟩ :=
    parseFunction_eq_method_iff.1 h
  have hne : trimEnd before ≠ [] := by
    intro hnil
    rw [hnil] at hnamed
    exact hnamed rfl
  obtain ⟨hqualified, hwords⟩ := leadingWords_linkageMark hlead hne
  have hquote : ['"'] ∈ ["extern".toList, ['"'], ['"']] ++ leadingWords before := by simp
  obtain ⟨hreturned, hspelled⟩ := mem_returnedType (by decide) (by decide) hquote
    List.mem_cons_self (parseSuffix after)
  refine ⟨joinWith [' '] ((leadingWords before).filter (!isModifier ·)), ?_, ?_⟩
  · rw [parseFunction_eq_method_iff, hqualified, hwords, hreturned]
    refine ⟨name, kind, ps, hnamed, hdirect, hname, hidentifier, hdeleted, ?_, hparameters, ?_⟩
    · rw [specialKind?_none_iff] at hkind ⊢
      exact ⟨List.ne_nil_of_mem hspelled, hkind.2⟩
    · have hother : ∀ w, w ∉ ["extern".toList, ['"'], ['"']] →
          (["extern".toList, ['"'], ['"']] ++ leadingWords before).contains w =
            (leadingWords before).contains w := fun w hw => by
        rw [Bool.eq_iff_iff, List.contains_iff_mem, List.contains_iff_mem, List.mem_append,
          or_iff_right hw]
      rw [hother _ (by decide), hother _ (by decide), spelledType_linkageMark]
  · rcases returnedType_cases (spelledType (leadingWords before)) (parseSuffix after) with h | h
    · exact .inl (congrArg String.ofList h)
    · exact .inr h

end Linkage

end TestSynth.Declaration

namespace TestSynth.Header

open Text Declaration

section Functions
variable {header : SourceUnit} {scope : String} {cs : List Char} {f : FreeFunction}

/-- A function that is read behind the mark has the quotes in its return type. -/
theorem quote_mem_function? (h : function? header scope (linkageMark ++ ' ' :: cs) = some f) :
    '"' ∈ f.signature.returnType.toList := by
  obtain ⟨-, m, hparse, -, rfl⟩ := function?_eq_some_iff.1 h
  exact quote_mem_returnType hparse

/-- A function stays one behind the mark, under its name and with its parameters and flags. -/
theorem function?_linkageMark (hstart : ∀ c ∈ (stripped cs).head?, c ≠ ',' ∧ c ≠ ':')
    (h : function? header scope cs = some f) :
    ∃ written, function? header scope (linkageMark ++ ' ' :: cs) =
        some { f with signature := { f.signature with
          returnType := String.ofList (tidyType ("\" \" ".toList ++ written)) } } ∧
      (f.signature.returnType = String.ofList (tidyType written) ∨
        tidyType written = "auto".toList ∨ tidyType written = []) := by
  obtain ⟨hparen, m, hparse, hname, rfl⟩ := function?_eq_some_iff.1 h
  have hsubject : subject cs = stripped cs := by
    rw [subject]
    cases hchars : stripped cs with
    | nil => rfl
    | cons c rest =>
      obtain ⟨hcomma, hcolon⟩ := hstart c (by rw [hchars]; rfl)
      rw [List.dropWhile_cons_of_neg (by simp [hcomma, hcolon]), ← hchars, stripped, trim_trim]
  obtain ⟨-, before, rest, parameters, after, hcut, hoperator, hassign, hgroup, hfunction⟩ :=
    parse_eq_method_iff.1 hparse
  rw [hsubject] at hcut
  obtain ⟨lead, hlead, hlinked⟩ := subject_linkageMark cs
  rw [if_neg (fun hnil => by rw [hnil] at hcut; cases hcut)] at hlinked
  obtain ⟨written, hwritten, htype⟩ := parseFunction_linkageMark hlead hfunction
  refine ⟨written, function?_eq_some_iff.2 ⟨by simp [hparen],
    { m with returnType := String.ofList (tidyType ("\" \" ".toList ++ written)) }, ?_, hname, rfl⟩,
    htype⟩
  exact (parse_linkageMark_iff hlead hlinked).2
    ⟨before, rest, parameters, after, hcut, hoperator, hassign, hgroup, hwritten⟩

end Functions

section Statements
variable {text : String} {limits : Limits} {header : SourceUnit}

/-- The text of one declaration: it ends in code, and without its comments and literals it holds no
directive and nothing that ends a statement or stands around a block. -/
structure OneStatement (text : String) : Prop where
  code : regionAfter .code none text.toList = .code
  undirected : '#' ∉ stripComments text.toList
  whole : Unmarked (stripComments text.toList)

/-- A declaration behind a linkage. -/
def linkageStatement (text : String) : String := "extern \"C\" " ++ text ++ ";"

/-- A declaration in a linkage block. -/
def linkageBlock (text : String) : String := "extern \"C\" \x7b " ++ text ++ "; \x7d"

/-- What stands around a declaration is masked by itself. -/
theorem OneStatement.sanitize_eq (h : OneStatement text) {a b : List Char}
    (ha : regionAfter .code none a = .code)
    (hlast : a.getLast?.any Char.isAlphanum = false ∧ a.getLast? ≠ some '/')
    (hundirected : '#' ∉ stripComments a) (hb : Harmless b) (hhead : b.head? = some ';') :
    sanitize (a ++ (text.toList ++ b)) =
      stripComments a ++ (stripComments text.toList ++ b) := by
  have hseam : Unjoined text.toList b := fun _ => by
    rw [hhead]
    simp
  have hbehind : maskFrom .code (text.toList.getLast?.or none) b = b := by
    have hplain := @maskFrom_code_append (text.toList.getLast?.or none) b []
      fun c hc => ⟨(hb c hc).1, (hb c hc).2.1, (hb c hc).2.2.1⟩
    simpa [maskFrom] using hplain
  have hstrip : stripComments (a ++ (text.toList ++ b)) =
      stripComments a ++ (stripComments text.toList ++ b) := by
    rw [stripComments, maskFrom_append ha hlast.2, Option.or_none,
      maskFrom_previous (q := none) hlast.1, maskFrom_seam h.code hseam, hbehind]
    rfl
  have hnone : '#' ∉ stripComments a ++ (stripComments text.toList ++ b) := by
    rw [List.mem_append, List.mem_append, not_or, not_or]
    exact ⟨hundirected, h.undirected, fun hmem => (hb _ hmem).2.2.2 rfl⟩
  rw [sanitize, hstrip, blankPreprocessor_eq_self hnone]

theorem OneStatement.sanitize_semicolon (h : OneStatement text) :
    sanitize (text ++ ";").toList = stripComments text.toList ++ [';'] := by
  have hmasked := h.sanitize_eq (a := []) (b := [';']) rfl (by decide) (by decide)
    (by simp [Harmless]) rfl
  rw [String.toList_append]
  exact hmasked

theorem OneStatement.sanitize_linkageStatement (h : OneStatement text) :
    sanitize (linkageStatement text).toList =
      (linkageMark ++ ' ' :: stripComments text.toList) ++ [';'] := by
  have hmasked := h.sanitize_eq (a := "extern \"C\" ".toList) (b := [';']) (by decide)
    (by decide) (by decide) (by simp [Harmless]) rfl
  have hmark : stripComments "extern \"C\" ".toList = linkageMark ++ [' '] := by decide
  rw [hmark] at hmasked
  rw [linkageStatement, String.toList_append, String.toList_append, List.append_assoc]
  simpa using hmasked

theorem OneStatement.sanitize_linkageBlock (h : OneStatement text) :
    sanitize (linkageBlock text).toList =
      enclose linkageMark (stripComments text.toList ++ [';']) := by
  have hmasked := h.sanitize_eq (a := "extern \"C\" \x7b ".toList) (b := "; \x7d".toList)
    (by decide) (by decide) (by decide) (by simp [Harmless]) rfl
  have hmark : stripComments "extern \"C\" \x7b ".toList = linkageMark ++ [' ', '{', ' '] := by
    decide
  rw [hmark] at hmasked
  rw [linkageBlock, String.toList_append, String.toList_append, List.append_assoc, enclose]
  simpa using hmasked

/-- The functions of one statement. -/
theorem functions_statement {s : List Char} (hs : Unmarked s) :
    (ofItems limits header (items "" (s ++ [';']))).functions =
      if limits.includeFunctions then
        (function? header "" s).toList.take limits.functionsPerHeader
      else [] := by
  rw [items_statement hs, items_eq_nil (List.forall_mem_nil _), ofItems]
  cases hfunction : function? header "" s <;> simp [itemFunction?, hfunction]

/-- In a linkage block a declaration is read as by itself. Behind the word and the literal it is
read as the same function, whose return type has the quotes of the literal in front. -/
theorem extract_linkage_statement (h : OneStatement text) (limits : Limits)
    (header : SourceUnit) :
    extract limits header (linkageBlock text) = extract limits header (text ++ ";") ∧
    (∀ f ∈ (extract limits header (linkageStatement text)).functions,
      '"' ∈ f.signature.returnType.toList) ∧
    ((∀ c ∈ (stripped (stripComments text.toList)).head?, c ≠ ',' ∧ c ≠ ':') →
      ∀ f ∈ (extract limits header (linkageBlock text)).functions, ∃ written,
        (extract limits header (linkageStatement text)).functions =
          [{ f with signature := { f.signature with
              returnType := String.ofList (tidyType ("\" \" ".toList ++ written)) } }] ∧
        (f.signature.returnType = String.ofList (tidyType written) ∨
          tidyType written = "auto".toList ∨ tidyType written = [])) := by
  have hopens : Opens linkageMark "" :=
    ⟨by decide, .inr ⟨by decide, rfl⟩⟩
  have hbalanced : bracesBalanced (stripComments text.toList ++ [';']) := by
    rw [bracesBalanced_append (bracesBalanced_of_unmarked h.whole)]
    rfl
  have hblock : extract limits header (linkageBlock text) =
      extract limits header (text ++ ";") := by
    rw [extract, h.sanitize_linkageBlock, hopens.ofItems_enclose hbalanced, extract,
      h.sanitize_semicolon]
    rfl
  have hunmarked : Unmarked (linkageMark ++ ' ' :: stripComments text.toList) := by
    have hmark : Unmarked linkageMark := by decide
    rw [Unmarked, List.forall_mem_append, List.forall_mem_cons]
    exact ⟨hmark, by decide, h.whole⟩
  have hbehind : (extract limits header (linkageStatement text)).functions =
      if limits.includeFunctions then
        (function? header "" (linkageMark ++ ' ' :: stripComments text.toList)).toList.take
          limits.functionsPerHeader
      else [] := by
    rw [extract, h.sanitize_linkageStatement, functions_statement hunmarked]
  have halone : (extract limits header (text ++ ";")).functions =
      if limits.includeFunctions then
        (function? header "" (stripComments text.toList)).toList.take limits.functionsPerHeader
      else [] := by
    rw [extract, h.sanitize_semicolon, functions_statement h.whole]
  refine ⟨hblock, fun f hf => ?_, fun hstart f hf => ?_⟩
  · rw [hbehind] at hf
    split at hf
    · exact quote_mem_function? (Option.mem_toList.1 (List.mem_of_mem_take hf))
    · cases hf
  · rw [hblock, halone] at hf
    split at hf
    next hinclude =>
      obtain ⟨written, hwritten, htype⟩ :=
        function?_linkageMark hstart (Option.mem_toList.1 (List.mem_of_mem_take hf))
      refine ⟨written, ?_, htype⟩
      have hpositive : limits.functionsPerHeader ≠ 0 := by
        intro hzero
        rw [hzero] at hf
        cases hf
      rw [hbehind, if_pos hinclude, hwritten]
      exact List.take_of_length_le (by simpa [Nat.one_le_iff_ne_zero])
    · cases hf

theorem extract_linkage_statement_twice :
    OneStatement "int twice(int x)" ∧
      ∃ f ∈ (extract {} ⟨⟨"twice.h"⟩, .header⟩ (linkageBlock "int twice(int x)")).functions,
        ∃ written, (extract {} ⟨⟨"twice.h"⟩, .header⟩
            (linkageStatement "int twice(int x)")).functions =
          [{ f with signature := { f.signature with
              returnType := String.ofList (tidyType ("\" \" ".toList ++ written)) } }] := by
  have htwice : OneStatement "int twice(int x)" :=
    { code := by decide
      undirected := by decide
      whole := by decide }
  obtain ⟨hblock, -, hbehind⟩ := extract_linkage_statement htwice {} ⟨⟨"twice.h"⟩, .header⟩
  obtain ⟨f, hf⟩ : ∃ f, f ∈ (extract {} ⟨⟨"twice.h"⟩, .header⟩
      (linkageBlock "int twice(int x)")).functions :=
    List.exists_mem_of_ne_nil _ (by decide +kernel)
  have hfirst : (stripped (stripComments "int twice(int x)".toList)).head? = some 'i' := by
    decide
  have hstart : ∀ c ∈ (stripped (stripComments "int twice(int x)".toList)).head?,
      c ≠ ',' ∧ c ≠ ':' := by
    rw [hfirst]
    simp
  obtain ⟨written, hwritten, -⟩ := hbehind hstart f hf
  exact ⟨htwice, f, hf, written, hwritten⟩

/-- The same function returns something else behind the word and the literal. -/
theorem extract_linkage_quotes :
    ((extract {} ⟨⟨"/p/a.h"⟩, .header⟩ (linkageBlock "int twice(int x)")).functions.map
        (·.signature.returnType)) = ["int"] ∧
      ((extract {} ⟨⟨"/p/a.h"⟩, .header⟩ (linkageStatement "int twice(int x)")).functions.map
        (·.signature.returnType)) = ["\" \" int"] := by
  decide +kernel

end Statements

end TestSynth.Header
