import Mathlib
import TestSynth.Convergence.RunDirectory
import TestSynth.Proofs.Files.Tree
import TestSynth.Proofs.Text.Bytes
import TestSynth.Proofs.Text.Words
/-!
The history of a run is read whole or not at all. Wherever writing one ends, what is read afterwards
is the history of before, the new one, or nothing: the digest beside it tells, as long as no two of
the contents share their digest.
-/
namespace TestSynth

open Text (Bytes IsAscii isBlank)

section DigestText
variable {b content : Bytes} {c : Char}

theorem Number.length_hexDigits (width n : Nat) : (hexDigits width n).length = width := by
  induction width generalizing n with
  | zero => rfl
  | succ width ih => rw [hexDigits, List.length_append, ih, List.length_singleton]

theorem Number.mem_hexDigits {width n : Nat} (h : c ∈ hexDigits width n) :
    ∃ m < 16, c = hexDigit m := by
  induction width generalizing n with
  | zero => cases h
  | succ width ih =>
    rw [hexDigits, List.mem_append, List.mem_singleton] at h
    rcases h with h | rfl
    · exact ih h
    · exact ⟨n % 16, Nat.mod_lt n (by decide), rfl⟩

namespace Digest

theorem length_ofBytes (b : Bytes) : (ofBytes b).toList.length = 64 := by
  simp [ofBytes, State.words, Number.length_hexDigits]

/-- A digest is written in ASCII without blanks. -/
theorem mem_ofBytes (h : c ∈ (ofBytes b).toList) : IsAscii c ∧ isBlank c = false := by
  have hdigits : ∀ m < 16,
      (Number.hexDigit m).toNat < 0x80 ∧ isBlank (Number.hexDigit m) = false := by
    decide
  rw [ofBytes, String.toList_ofList, List.mem_flatMap] at h
  obtain ⟨w, -, hc⟩ := h
  obtain ⟨m, hm, rfl⟩ := Number.mem_hexDigits hc
  exact hdigits m hm

/-- The front of a digest is read as it stands. -/
theorem read_front {front : List Char} (h : front <+: (ofBytes b).toList) :
    Text.decodeStrict? (Text.encode (String.ofList front)) = some (String.ofList front) ∧
      Text.trimString (String.ofList front) = String.ofList front := by
  have hfront : ∀ c ∈ front, IsAscii c ∧ isBlank c = false := fun c hc => mem_ofBytes (h.subset hc)
  constructor
  · exact Text.decodeStrict?_of_isAscii fun c hc => (hfront c hc).1
  · rw [Text.trimString, String.toList_ofList, Text.trim, Text.trimStart_eq_self,
      Text.trimEnd_eq_self]
    · exact fun c hc => (hfront c (List.mem_of_getLast? hc)).2
    · exact fun c hc => (hfront c (List.mem_of_mem_head? hc)).2

theorem read_ofBytes (b : Bytes) :
    Text.decodeStrict? (Text.encode (ofBytes b)) = some (ofBytes b) ∧
      Text.trimString (ofBytes b) = ofBytes b := by
  have h := @read_front b _ List.prefix_rfl
  rwa [String.ofList_toList] at h

/-- The front of the bytes is the front of the text. -/
theorem exists_front (h : content <+: Text.encode (ofBytes b)) :
    ∃ front, front <+: (ofBytes b).toList ∧ content = Text.encode (String.ofList front) := by
  have hascii : ∀ c ∈ (ofBytes b).toList, IsAscii c := fun c hc => (mem_ofBytes hc).1
  have hencode := Text.encode_of_isAscii hascii
  rw [String.ofList_toList] at hencode
  refine ⟨(ofBytes b).toList.take content.length, List.take_prefix _ _, ?_⟩
  rw [Text.encode_of_isAscii fun c hc => hascii c (List.mem_of_mem_take hc), List.map_take,
    ← hencode]
  exact List.prefix_iff_eq_take.1 h

end Digest

end DigestText

namespace RunDirectory

open FileNode (Entries insertEntry lookup_insertEntry)
open FileTree

variable {d : RunDirectory} {t t' made : FileTree} {entries : Entries} {r : RunReport}
  {old : Option RunReport} {b content : Bytes} {s : String}

section Reading

theorem readText_of_read {p : Path} (h : t.read p = .ok content)
    (hs : Text.decodeStrict? content = some s) : t.readText p = .ok s := by
  rw [FileTree.readText, h]
  simp only [bind, Except.bind, hs]

theorem readText_congr {p : Path} (h : t.read p = t'.read p) : t.readText p = t'.readText p := by
  rw [FileTree.readText, FileTree.readText, h]

theorem readHistory_of_unread {e : FileError} (h : t.read d.historyPath = .error e) :
    d.readHistory t = .error (.file e) := by
  rw [readHistory, h]
  rfl

theorem readHistory_of_unread_digest {e : FileError} (hread : t.read d.historyPath = .ok b)
    (h : t.readText d.digestPath = .error e) : d.readHistory t = .error (.file e) := by
  rw [readHistory, hread, h]
  rfl

/-- The digest beside the history is that of its bytes, or it tells on them. -/
theorem readHistory_of_read (hread : t.read d.historyPath = .ok b)
    (htext : t.readText d.digestPath = .ok s) : d.readHistory t =
      if Text.trimString s = Digest.ofBytes b then
        match decodeHistory? b with
        | some r => .ok r
        | none => .error .malformedData
      else .error (.digestMismatch (Text.trimString s) (Digest.ofBytes b)) := by
  rw [readHistory, hread, htext]
  by_cases hdigest : Text.trimString s = Digest.ofBytes b
  · simp only [Failure.ofFile, Except.mapError, bind, Except.bind, hdigest, bne_self_eq_false,
      Bool.false_eq_true, if_false, if_true]
    rfl
  · have hne : (Text.trimString s != Digest.ofBytes b) = true := by simpa using hdigest
    simp only [Failure.ofFile, Except.mapError, bind, Except.bind, hne, hdigest, if_true, if_false]
    rfl

/-- A history is read if its digest is the one beside it. -/
theorem readHistory_eq_ok_iff : d.readHistory t = .ok r ↔
    ∃ b s, t.read d.historyPath = .ok b ∧ t.readText d.digestPath = .ok s ∧
      Text.trimString s = Digest.ofBytes b ∧ decodeHistory? b = some r := by
  constructor
  · intro h
    cases hread : t.read d.historyPath with
    | error e =>
      rw [readHistory_of_unread hread] at h
      cases h
    | ok b =>
      cases htext : t.readText d.digestPath with
      | error e =>
        rw [readHistory_of_unread_digest hread htext] at h
        cases h
      | ok s =>
        rw [readHistory_of_read hread htext] at h
        split at h
        · next hdigest =>
          cases hdecode : decodeHistory? b with
          | none =>
            rw [hdecode] at h
            cases h
          | some report =>
            rw [hdecode] at h
            cases h
            exact ⟨b, s, rfl, rfl, hdigest, hdecode⟩
        · cases h
  · rintro ⟨b, s, hread, htext, hdigest, hdecode⟩
    rw [readHistory_of_read hread htext, if_pos hdigest, hdecode]

end Reading

section Writing

/-- The two files of a history. -/
def historyFiles : List String := [historyFile, digestFile]

/-- A history can be written: the root is a directory, in which the names of the two files are free
or those of files, and their paths are not too long. -/
structure Ready (d : RunDirectory) (t : FileTree) : Prop where
  holds : ∃ entries, t.LeadsTo d.root (.directory entries) ∧
    ∀ name ∈ historyFiles, ∀ node ∈ entries.lookup name, node.isFile
  short : ∀ name ∈ historyFiles, Text.byteLength (d.root.join ⟨name⟩).text.toList < pathLimit

theorem isEntryName_of_mem : ∀ name ∈ historyFiles, IsEntryName name := by
  decide +kernel

theorem Ready.makeDirectories_eq (h : d.Ready t) :
    FileAction.makeDirectories d.root t = (.ok (), t) := by
  obtain ⟨entries, hleads, -⟩ := h.holds
  exact hleads.makeDirectories_eq

/-- A file of the history is written; the other one stays. -/
theorem Ready.write {name : String} (h : d.Ready t) (hname : name ∈ historyFiles)
    (content : Bytes) :
    ∃ t', t.write (d.root.join ⟨name⟩) content = .ok t' ∧ d.Ready t' ∧
      t'.read (d.root.join ⟨name⟩) = .ok content ∧
      ∀ other ∈ historyFiles, other ≠ name →
        t'.read (d.root.join ⟨other⟩) = t.read (d.root.join ⟨other⟩) := by
  obtain ⟨entries, hleads, hfiles⟩ := h.holds
  obtain ⟨t', executable, hwrite, hleads'⟩ := hleads.write_entry (isEntryName_of_mem name hname)
    (h.short name hname) (hfiles name hname) content
  have hlookup := lookup_insertEntry name (.file content executable) entries
  refine ⟨t', hwrite, ⟨⟨_, hleads', ?_⟩, h.short⟩, ?_, ?_⟩
  · intro other hother node hnode
    rw [hlookup] at hnode
    split at hnode
    · cases hnode
      rfl
    · exact hfiles other hother node hnode
  · apply hleads'.read_entry (isEntryName_of_mem name hname) (h.short name hname)
    rw [hlookup, if_pos rfl]
  · intro other hother hne
    have hsame := hlookup other
    rw [if_neg hne] at hsame
    have hentry := isEntryName_of_mem other hother
    cases hnode : entries.lookup other with
    | none =>
      rw [hleads'.read_missing hentry (h.short other hother) (hsame.trans hnode),
        hleads.read_missing hentry (h.short other hother) hnode]
    | some node =>
      cases node with
      | file old run =>
        rw [hleads'.read_entry hentry (h.short other hother) (hsame.trans hnode),
          hleads.read_entry hentry (h.short other hother) hnode]
      | link target => cases hfiles other hother _ hnode
      | directory below => cases hfiles other hother _ hnode

theorem Ready.write_history (h : d.Ready t) (content : Bytes) :
    ∃ t', t.write d.historyPath content = .ok t' ∧ d.Ready t' ∧
      t'.read d.historyPath = .ok content ∧ t'.read d.digestPath = t.read d.digestPath := by
  have hhistory : historyFile ∈ historyFiles := by decide
  obtain ⟨t', hwrite, hready, hread, hother⟩ := h.write hhistory content
  exact ⟨t', hwrite, hready, hread, hother digestFile (by decide) (by decide)⟩

theorem Ready.write_digest (h : d.Ready t) (content : Bytes) :
    ∃ t', t.write d.digestPath content = .ok t' ∧
      t'.read d.digestPath = .ok content ∧ t'.read d.historyPath = t.read d.historyPath := by
  have hdigest : digestFile ∈ historyFiles := by decide
  obtain ⟨t', hwrite, -, hread, hother⟩ := h.write hdigest content
  exact ⟨t', hwrite, hread, hother historyFile (by decide) (by decide)⟩

/-- The bytes that a report is stored as. -/
def historyBytes (r : RunReport) : Bytes := Text.encode r.toJson.pretty

/-- What is kept of a history before one is written: that of a report, with its digest, or nothing,
the digest missing from the directory once that is made. -/
inductive Keeps (d : RunDirectory) (t : FileTree) : Option RunReport → Prop
  | stored {r : RunReport} : d.Ready t → d.readHistory t = .ok r → Keeps d t (some r)
  | nothing {made : FileTree} {failure : Failure} {e : FileError} :
    d.readHistory t = .error failure →
    FileAction.makeDirectories d.root t = (.ok (), made) → d.Ready made →
    made.read d.digestPath = .error e → Keeps d t none

/-- Where the writing of a history can end: before it, once the directories are made, with the front
of the bytes in the first file, or with the front of the digest in the second one too. By then the
first file need not hold all of its bytes yet. -/
inductive Interrupted (d : RunDirectory) (r : RunReport) (t : FileTree) : FileTree → Prop
  | begun : Interrupted d r t t
  | directories {made : FileTree} :
    FileAction.makeDirectories d.root t = (.ok (), made) → Interrupted d r t made
  | history {made t' : FileTree} {front : Bytes} :
    FileAction.makeDirectories d.root t = (.ok (), made) →
    front <+: historyBytes r → made.write d.historyPath front = .ok t' → Interrupted d r t t'
  | digest {made t' t'' : FileTree} {front text : Bytes} :
    FileAction.makeDirectories d.root t = (.ok (), made) →
    front <+: historyBytes r → made.write d.historyPath front = .ok t' →
    text <+: Text.encode (Digest.ofBytes (historyBytes r)) →
    t'.write d.digestPath text = .ok t'' → Interrupted d r t t''

/-- The contents of the history that a digest may have to tell apart. -/
def contents (d : RunDirectory) (r : RunReport) (t t' : FileTree) : Set Bytes :=
  {b | t.read d.historyPath = .ok b ∨ t'.read d.historyPath = .ok b ∨ b = historyBytes r}

/-- A digest that is there before the history is written is the one of the report kept. -/
theorem Keeps.ready (h : d.Keeps t old) :
    ∃ made, FileAction.makeDirectories d.root t = (.ok (), made) ∧ d.Ready made ∧
      ∀ s, made.readText d.digestPath = .ok s → ∃ r ∈ old, ∃ b,
        t.read d.historyPath = .ok b ∧ Text.trimString s = Digest.ofBytes b ∧
          decodeHistory? b = some r := by
  cases h with
  | @stored r hready hread =>
    refine ⟨t, hready.makeDirectories_eq, hready, fun s hs => ?_⟩
    obtain ⟨b, s', hb, hs', hdigest, hdecode⟩ := readHistory_eq_ok_iff.1 hread
    obtain rfl : s' = s := Except.ok.inj (hs'.symm.trans hs)
    exact ⟨r, rfl, b, hb, hdigest, hdecode⟩
  | @nothing made failure e _ hmade hready hmissing =>
    refine ⟨made, hmade, hready, fun s hs => ?_⟩
    rw [FileTree.readText, hmissing] at hs
    cases hs

/-- A history that is read where writing ended is the one kept before or the new one. -/
theorem Interrupted.eq_of_readHistory {report : RunReport} (hkeeps : d.Keeps t old)
    (hdecode : decodeHistory? (historyBytes r) = some r) (h : d.Interrupted r t t')
    (hdistinct : Set.InjOn Digest.ofBytes (d.contents r t t'))
    (hread : d.readHistory t' = .ok report) : report ∈ old ∨ report = r := by
  obtain ⟨made, hmade, hready, hkept⟩ := hkeeps.ready
  obtain ⟨b, s, hb, hs, hdigest, hreport⟩ := readHistory_eq_ok_iff.1 hread
  have hpresent : b ∈ d.contents r t t' := .inr (.inl hb)
  have hold : made.readText d.digestPath = .ok s → report ∈ old := by
    intro hs
    obtain ⟨first, hfirst, b', hb', hdigest', hdecode'⟩ := hkept s hs
    obtain rfl : b' = b := hdistinct (.inl hb') hpresent (hdigest'.symm.trans hdigest)
    obtain rfl : first = report := Option.some.inj (hdecode'.symm.trans hreport)
    exact hfirst
  cases h with
  | begun =>
    cases hkeeps with
    | stored _ hstored => exact .inl (congrArg some (Except.ok.inj (hstored.symm.trans hread)))
    | nothing hfailed => cases hfailed.symm.trans hread
  | directories hmade' =>
    obtain ⟨-, rfl⟩ := Prod.mk.inj (hmade'.symm.trans hmade)
    exact .inl (hold hs)
  | history hmade' _ hwrite =>
    obtain ⟨-, rfl⟩ := Prod.mk.inj (hmade'.symm.trans hmade)
    obtain ⟨t₁, hwrite', -, -, hdigestFile⟩ := hready.write_history _
    obtain rfl : t' = t₁ := Except.ok.inj (hwrite.symm.trans hwrite')
    exact .inl (hold (readText_congr hdigestFile ▸ hs))
  | digest hmade' _ hwrite htext hwriteDigest =>
    obtain ⟨-, rfl⟩ := Prod.mk.inj (hmade'.symm.trans hmade)
    obtain ⟨t₁, hwrite', hready', -, -⟩ := hready.write_history _
    obtain rfl := Except.ok.inj (hwrite.symm.trans hwrite')
    obtain ⟨t₂, hwriteDigest', hdigestFile, -⟩ := hready'.write_digest _
    obtain rfl : t' = t₂ := Except.ok.inj (hwriteDigest.symm.trans hwriteDigest')
    obtain ⟨front, hfront, rfl⟩ := Digest.exists_front htext
    obtain ⟨hdecodes, htrim⟩ := Digest.read_front hfront
    have hs' := readText_of_read hdigestFile hdecodes
    obtain rfl : String.ofList front = s := Except.ok.inj (hs'.symm.trans hs)
    -- Only the whole digest is as long as the one it has to agree with.
    have hwhole : String.ofList front = Digest.ofBytes (historyBytes r) := by
      apply String.toList_inj.1
      rw [String.toList_ofList]
      apply hfront.eq_of_length
      rw [Digest.length_ofBytes, ← Digest.length_ofBytes b, ← hdigest, htrim,
        String.toList_ofList]
    obtain rfl : historyBytes r = b :=
      hdistinct (.inr (.inr rfl)) hpresent (hwhole.symm.trans (htrim.symm.trans hdigest))
    exact .inr (Option.some.inj (hreport.symm.trans hdecode))

/-- A history is written to its end, with its digest beside it. -/
theorem Keeps.writeHistory_eq (h : d.Keeps t old) (r : RunReport) :
    ∃ t', d.writeHistory r t = (.ok d.historyPath, t') ∧ d.Interrupted r t t' ∧
      t'.read d.historyPath = .ok (historyBytes r) ∧
      t'.read d.digestPath = .ok (Text.encode (Digest.ofBytes (historyBytes r))) := by
  obtain ⟨made, hmade, hready, -⟩ := h.ready
  obtain ⟨t₁, hwrite, hready₁, hhistory, -⟩ := hready.write_history (historyBytes r)
  obtain ⟨t₂, hwriteDigest, hdigest, hsame⟩ :=
    hready₁.write_digest (Text.encode (Digest.ofBytes (historyBytes r)))
  refine ⟨t₂, ?_, ?_, hsame.trans hhistory, hdigest⟩
  · have hfirst : FileAction.write d.historyPath (historyBytes r) made = (.ok (), t₁) := by
      rw [FileAction.write, FileAction.change, hwrite]
    have hsecond : FileAction.writeText d.digestPath (Digest.ofBytes (historyBytes r)) t₁ =
        (.ok (), t₂) := by
      rw [FileAction.writeText, FileAction.change, FileTree.writeText, hwriteDigest]
    rw [writeHistory]
    refine (FileAction.bind_of_ok _ hmade).trans ?_
    refine (FileAction.bind_of_ok _ hfirst).trans ?_
    exact FileAction.bind_of_ok _ hsecond
  · exact .digest hmade List.prefix_rfl hwrite List.prefix_rfl hwriteDigest

/-- A history is read whole or not at all, as long as the digest tells the contents apart. -/
theorem readHistory_whole (hkeeps : d.Keeps t old)
    (hdecode : decodeHistory? (historyBytes r) = some r) :
    (∀ t', d.Interrupted r t t' → Set.InjOn Digest.ofBytes (d.contents r t t') →
      (∃ failure, d.readHistory t' = .error failure) ∨
        (∃ report ∈ old, d.readHistory t' = .ok report) ∨ d.readHistory t' = .ok r) ∧
    ∃ t', d.writeHistory r t = (.ok d.historyPath, t') ∧ d.Interrupted r t t' ∧
      d.readHistory t' = .ok r ∧
      ∀ later b, later.read d.historyPath = .ok b →
        later.read d.digestPath = t'.read d.digestPath →
        b ≠ historyBytes r → Set.InjOn Digest.ofBytes {b, historyBytes r} →
          d.readHistory later = .error
            (.digestMismatch (Digest.ofBytes (historyBytes r)) (Digest.ofBytes b)) := by
  constructor
  · intro t' hinterrupted hdistinct
    cases hread : d.readHistory t' with
    | error failure => exact .inl ⟨failure, rfl⟩
    | ok report =>
      rcases hinterrupted.eq_of_readHistory hkeeps hdecode hdistinct hread with hold | rfl
      · exact .inr (.inl ⟨report, hold, rfl⟩)
      · exact .inr (.inr rfl)
  · obtain ⟨hdecodes, htrim⟩ := Digest.read_ofBytes (historyBytes r)
    obtain ⟨t', hwrite, hinterrupted, hhistory, hdigest⟩ := hkeeps.writeHistory_eq r
    refine ⟨t', hwrite, hinterrupted, ?_, ?_⟩
    · exact readHistory_eq_ok_iff.2
        ⟨_, _, hhistory, readText_of_read hdigest hdecodes, htrim, hdecode⟩
    · intro later b hb hlater hne hdistinct
      have htext := readText_of_read (hlater.trans hdigest) hdecodes
      have hmismatch : Digest.ofBytes (historyBytes r) ≠ Digest.ofBytes b := fun heq =>
        hne (hdistinct (by simp) (by simp) heq.symm)
      rw [readHistory_of_read hb htext, htrim, if_neg hmismatch]

/-- A run that met its target without measuring. -/
def shortRun (id : String) : RunReport := ⟨id, .satisfied, [], ⟨0, 0⟩, ⟨60, 0⟩⟩

/-- A directory that keeps a history. -/
def keptEntries (r : RunReport) : Entries :=
  [(digestFile, .file (Text.encode (Digest.ofBytes (historyBytes r))) false),
    (historyFile, .file (historyBytes r) false)]

def keptTree (r : RunReport) : FileTree :=
  { root := .directory [("out", .directory (keptEntries r))] }

theorem keptTree_leads (r : RunReport) :
    (keptTree r).LeadsTo ⟨"out"⟩ (.directory (keptEntries r)) where
  nonempty := by decide
  unended := by decide
  short := by decide
  down := by decide
  stands := rfl
  direct := fun _ h => by cases h
  ended := fun _ _ _ => rfl

theorem keptTree_ready (r : RunReport) : Ready ⟨⟨"out"⟩⟩ (keptTree r) where
  holds := by
    refine ⟨keptEntries r, keptTree_leads r, ?_⟩
    simp [historyFiles, keptEntries, historyFile, digestFile, List.lookup_cons, FileNode.isFile]
  short := by decide +kernel

theorem keptTree_read (r : RunReport) :
    (keptTree r).read (historyPath ⟨⟨"out"⟩⟩) = .ok (historyBytes r) ∧
      (keptTree r).read (digestPath ⟨⟨"out"⟩⟩) =
        .ok (Text.encode (Digest.ofBytes (historyBytes r))) := by
  have hready := keptTree_ready r
  have hleads := keptTree_leads r
  constructor
  · exact hleads.read_entry (isEntryName_of_mem _ (by decide)) (hready.short _ (by decide)) rfl
  · exact hleads.read_entry (isEntryName_of_mem _ (by decide)) (hready.short _ (by decide)) rfl

theorem keptTree_keeps (hdecode : decodeHistory? (historyBytes r) = some r) :
    Keeps ⟨⟨"out"⟩⟩ (keptTree r) (some r) := by
  obtain ⟨hdecodes, htrim⟩ := Digest.read_ofBytes (historyBytes r)
  obtain ⟨hhistory, hdigest⟩ := keptTree_read r
  exact .stored (keptTree_ready r) (readHistory_eq_ok_iff.2
    ⟨_, _, hhistory, readText_of_read hdigest hdecodes, htrim, hdecode⟩)

/-- Two such runs are read back, and their histories have digests of their own. -/
theorem shortRun_histories :
    decodeHistory? (historyBytes (shortRun "run-1")) = some (shortRun "run-1") ∧
      decodeHistory? (historyBytes (shortRun "run-2")) = some (shortRun "run-2") ∧
      Digest.ofBytes (historyBytes (shortRun "run-1")) ≠
        Digest.ofBytes (historyBytes (shortRun "run-2")) := by
  simp only [historyBytes, Text.encode_eq, shortRun, RunReport.toJson, Outcome.toJson,
    Timestamp.toJson, Json.pretty, Json.prettyAt, Json.prettyFields, Json.quoted, List.map_nil,
    String.toList_append, String.toList_ofList, String.reduceToList]
  decide +kernel

/-- One run's history is written over another's: also with all of the new one beside the digest of
the old one, and then to the end. -/
theorem readHistory_whole_shortRun :
    Keeps ⟨⟨"out"⟩⟩ (keptTree (shortRun "run-1")) (some (shortRun "run-1")) ∧
    decodeHistory? (historyBytes (shortRun "run-2")) = some (shortRun "run-2") ∧
    (∃ t', Interrupted ⟨⟨"out"⟩⟩ (shortRun "run-2") (keptTree (shortRun "run-1")) t' ∧
      t'.read (historyPath ⟨⟨"out"⟩⟩) = .ok (historyBytes (shortRun "run-2")) ∧
      ((∃ failure, readHistory ⟨⟨"out"⟩⟩ t' = .error failure) ∨
        (∃ report ∈ some (shortRun "run-1"), readHistory ⟨⟨"out"⟩⟩ t' = .ok report) ∨
        readHistory ⟨⟨"out"⟩⟩ t' = .ok (shortRun "run-2"))) ∧
    ∃ t', writeHistory ⟨⟨"out"⟩⟩ (shortRun "run-2") (keptTree (shortRun "run-1")) =
        (.ok (historyPath ⟨⟨"out"⟩⟩), t') ∧
      readHistory ⟨⟨"out"⟩⟩ t' = .ok (shortRun "run-2") := by
  obtain ⟨hfirst, hsecond, hdigests⟩ := shortRun_histories
  have hkeeps := keptTree_keeps hfirst
  have hready := keptTree_ready (shortRun "run-1")
  obtain ⟨hwhole, t₂, hwrite, -, hread, -⟩ := readHistory_whole hkeeps hsecond
  obtain ⟨t₁, hhistory, -, hb, -⟩ := hready.write_history (historyBytes (shortRun "run-2"))
  have hinterrupted := Interrupted.history hready.makeDirectories_eq List.prefix_rfl hhistory
  refine ⟨hkeeps, hsecond, ⟨t₁, hinterrupted, hb, hwhole t₁ hinterrupted ?_⟩, t₂, hwrite, hread⟩
  have hcontents : ∀ b ∈ contents ⟨⟨"out"⟩⟩ (shortRun "run-2") (keptTree (shortRun "run-1")) t₁,
      b = historyBytes (shortRun "run-1") ∨ b = historyBytes (shortRun "run-2") := by
    rintro b (hold | hnew | rfl)
    · exact .inl (Except.ok.inj (hold.symm.trans (keptTree_read _).1))
    · exact .inr (Except.ok.inj (hnew.symm.trans hb))
    · exact .inr rfl
  intro a ha b hb hab
  rcases hcontents a ha with rfl | rfl <;> rcases hcontents b hb with rfl | rfl
  · rfl
  · exact absurd hab hdigests
  · exact absurd hab.symm hdigests
  · rfl

end Writing

end RunDirectory

end TestSynth
