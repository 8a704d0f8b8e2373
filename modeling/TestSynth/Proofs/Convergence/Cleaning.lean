import Mathlib
import TestSynth.Convergence.RunDirectory
import TestSynth.Proofs.Files.Tree
/-!
What cleaning does to the directory of a run: which entries go, which stay, and what ends it early.
-/
namespace TestSynth.RunDirectory

open FileNode FileTree

variable {d : RunDirectory} {t t' : FileTree} {entries : Entries} {todo : List String}
  {name : String} {node : FileNode} {e : String × FileNode}

/-- The files that tell a whole run. -/
def runFiles : List String := [historyFile, digestFile, summaryFile]

/-- An entry that a run writes: the directory of an iteration, counted from one, or a file that
tells the run. -/
inductive Written : String × FileNode → Prop
  | iteration {n : Nat} (entries : Entries) (h : 1 ≤ n) :
    Written (iterationName n, .directory entries)
  | runFile {name : String} (content : Text.Bytes) (executable : Bool) (h : name ∈ runFiles) :
    Written (name, .file content executable)

/-- A directory whose name starts like the one of an iteration. -/
def isMarked (e : String × FileNode) : Bool :=
  iterationMark.toList.isPrefixOf e.1.toList && e.2.isDirectory

/-- What cleaning takes away, unless it ends before. -/
def isSwept (e : String × FileNode) : Bool := isMarked e || runFiles.contains e.1

/-- A directory with the name of a file of the run, which is not removed as a file. -/
def isBlocking (e : String × FileNode) : Bool := runFiles.contains e.1 && e.2.isDirectory

section Treatment

theorem treatment_eq (e : String × FileNode) : treatment e.1 e.2.isDirectory =
    if isMarked e then .removeDirectory else if runFiles.contains e.1 then .removeFile else .keep :=
  rfl

theorem not_isMarked (h : runFiles.contains e.1) : isMarked e = false := by
  have hmark : ∀ name ∈ runFiles, iterationMark.toList.isPrefixOf name.toList = false := by decide
  rw [isMarked, hmark e.1 (List.contains_iff_mem.1 h), Bool.false_and]

theorem not_isBlocking (h : isMarked e) : isBlocking e = false := by
  rw [isBlocking, Bool.and_eq_false_iff]
  left
  rw [Bool.eq_false_iff]
  intro hfile
  rw [not_isMarked hfile] at h
  cases h

theorem Written.isSwept (h : Written e) : isSwept e := by
  cases h with
  | iteration entries h =>
    simp [RunDirectory.isSwept, isMarked, iterationName, FileNode.isDirectory]
  | runFile content executable h =>
    rw [RunDirectory.isSwept, List.contains_iff_mem.2 h, Bool.or_true]

/-- All that goes was written by a run, directories apart that only start like an iteration. -/
theorem isSwept_iff (hlink : ∀ target, e.2 ≠ .link target) (hblocking : isBlocking e = false) :
    isSwept e ↔ Written e ∨ isMarked e ∧ ∀ n, 1 ≤ n → e.1 ≠ iterationName n := by
  obtain ⟨name, node⟩ := e
  constructor
  · intro h
    rcases Bool.or_eq_true_iff.1 h with hmarked | hfile
    · by_cases hname : ∃ n, 1 ≤ n ∧ name = iterationName n
      · obtain ⟨n, hn, rfl⟩ := hname
        obtain ⟨-, hdirectory⟩ := Bool.and_eq_true_iff.1 hmarked
        cases node with
        | directory entries => exact .inl (.iteration entries hn)
        | file content executable => cases hdirectory
        | link target => cases hdirectory
      · exact .inr ⟨hmarked, fun n hn heq => hname ⟨n, hn, heq⟩⟩
    · rw [isBlocking, hfile, Bool.true_and] at hblocking
      cases node with
      | directory entries => cases hblocking
      | file content executable =>
        exact .inl (.runFile content executable (List.contains_iff_mem.1 hfile))
      | link target => exact absurd rfl (hlink target)
  · rintro (h | ⟨h, -⟩)
    · exact h.isSwept
    · rw [RunDirectory.isSwept, h, Bool.true_or]

end Treatment

/-- The root is a directory of files and directories whose paths the file system takes. -/
structure Holds (d : RunDirectory) (t : FileTree) (entries : Entries) : Prop where
  leads : t.LeadsTo d.root (.directory entries)
  distinct : (entries.map (·.1)).Nodup
  named : ∀ e ∈ entries, IsEntryName e.1
  short : ∀ e ∈ entries, Text.byteLength (d.root.join ⟨e.1⟩).text.toList < pathLimit
  unlinked : ∀ e ∈ entries, ∀ target, e.2 ≠ .link target

/-- The second tree differs from the first one in the entries of the root alone. -/
structure Leaves (d : RunDirectory) (t t' : FileTree) (entries : Entries) : Prop where
  working : t'.workingDirectory = t.workingDirectory
  root : t'.node? (t.placeOf d.root) = some (.directory entries)
  apart : ∀ other, ¬ t.placeOf d.root <+: other → ¬ other <+: t.placeOf d.root →
    t'.node? other = t.node? other

theorem Leaves.refl (h : d.Holds t entries) : d.Leaves t t entries where
  working := rfl
  root := h.leads.stands
  apart := fun _ _ _ => rfl

theorem Leaves.placeOf_eq (h : d.Leaves t t' entries) (p : Path) : t'.placeOf p = t.placeOf p := by
  rw [placeOf, placeOf, h.working]

theorem Leaves.trans {t'' : FileTree} {others : Entries} (h : d.Leaves t t' others)
    (h' : d.Leaves t' t'' entries) : d.Leaves t t'' entries where
  working := h'.working.trans h.working
  root := h.placeOf_eq d.root ▸ h'.root
  apart := by
    intro other hbelow habove
    rw [← h.apart other hbelow habove]
    exact h'.apart other (h.placeOf_eq d.root ▸ hbelow) (h.placeOf_eq d.root ▸ habove)

/-- Fewer entries in the root are as good. -/
theorem Holds.of_leaves {others : Entries} (h : d.Holds t entries) (hleaves : d.Leaves t t' others)
    (hothers : others.Sublist entries) : d.Holds t' others where
  leads := { h.leads.toDescending with
    stands := (hleaves.placeOf_eq d.root).symm ▸ hleaves.root
    direct := fun _ hlink => by cases hlink
    ended := fun _ _ _ => rfl }
  distinct := h.distinct.sublist (hothers.map _)
  named := fun e he => h.named e (hothers.subset he)
  short := fun e he => h.short e (hothers.subset he)
  unlinked := fun e he => h.unlinked e (hothers.subset he)

theorem Holds.lookup_eq (h : d.Holds t entries) (he : e ∈ entries) :
    entries.lookup e.1 = some e.2 := by
  obtain ⟨before, after, rfl⟩ := List.append_of_mem he
  refine List.lookup_eq_some_iff.2 ⟨before, after, rfl, fun other hother => ?_⟩
  have hdistinct := h.distinct
  rw [List.map_append, List.map_cons, List.nodup_append] at hdistinct
  have hne : other.1 ≠ e.1 :=
    hdistinct.2.2 _ (List.mem_map_of_mem hother) _ List.mem_cons_self
  simpa using hne.symm

/-- The root without one entry is left when the entry is erased. -/
theorem Holds.leaves_erase (h : d.Holds t entries) (name : String) :
    d.Leaves t (t.erase (t.placeOf d.root ++ [name])) (eraseEntry name entries) := by
  have hput : t.erase (t.placeOf d.root ++ [name]) =
      t.put (t.placeOf d.root) (.directory (eraseEntry name entries)) := by
    rw [FileTree.erase, erase_eq_put h.leads.stands]
    rfl
  rw [hput]
  exact {
    working := rfl
    root := get?_put t.root _ _
    apart := fun _ hbelow habove => get?_put_of_apart t.root _ hbelow habove }

/-- One entry is treated: the cleaning ends there, or the entry goes, or it stays. -/
theorem Holds.cleanEntry_eq (h : d.Holds t entries) (he : e ∈ entries) : d.cleanEntry e.1 t =
    if isBlocking e then (.error .isDirectory, t)
    else if isSwept e then (.ok (), t.erase (t.placeOf d.root ++ [e.1]))
    else (.ok (), t) := by
  obtain ⟨hleads, hplace⟩ :=
    h.leads.entry (h.named e he) (h.short e he) (h.lookup_eq he) (h.unlinked e he)
  simp only [cleanEntry, FileAction.change, hleads.isDirectory_eq, treatment_eq]
  by_cases hmarked : isMarked e = true
  · obtain ⟨name, node⟩ := e
    obtain ⟨-, hdirectory⟩ := Bool.and_eq_true_iff.1 hmarked
    cases node with
    | directory below =>
      simp [hmarked, not_isBlocking hmarked, isSwept, hleads.removeDirectory_eq, hplace]
    | file content executable => cases hdirectory
    | link target => cases hdirectory
  · cases hfile : runFiles.contains e.1 with
    | true =>
      rw [if_neg hmarked, if_pos rfl, hleads.removeFile_eq, hplace, isBlocking, isSwept, hfile]
      cases e.2.isDirectory <;> simp
    | false => simp only [hmarked, hfile, isBlocking, isSwept, Bool.false_and, Bool.or_self,
        Bool.false_eq_true, if_false]

theorem Holds.eq_of_name (h : d.Holds t entries) {e other : String × FileNode} (he : e ∈ entries)
    (hother : other ∈ entries) (hname : other.1 = e.1) : other = e :=
  List.inj_on_of_nodup_map h.distinct hother he hname

/-- What is left of the entries once some names are treated. -/
def remaining (todo : List String) (entries : Entries) : Entries :=
  entries.filter fun e => !(todo.contains e.1 && isSwept e)

theorem Holds.remaining_cons (h : d.Holds t entries) (he : e ∈ entries) (todo : List String) :
    remaining (e.1 :: todo) entries =
      remaining todo (if isSwept e then eraseEntry e.1 entries else entries) := by
  have hone : ∀ other ∈ entries, other.1 = e.1 → isSwept other = isSwept e :=
    fun other hother hname => by rw [h.eq_of_name he hother hname]
  split
  · next hswept =>
    rw [remaining, remaining, eraseEntry, List.filter_filter]
    refine List.filter_congr fun other hother => ?_
    by_cases hname : other.1 = e.1
    · simp [hname, hone other hother hname, hswept]
    · simp [hname]
  · next hstays =>
    rw [remaining, remaining]
    refine List.filter_congr fun other hother => ?_
    by_cases hname : other.1 = e.1
    · simp [hone other hother hname, hstays]
    · simp [hname]

theorem mem_eraseEntry (he : e ∈ entries) (hname : e.1 ≠ name) : e ∈ eraseEntry name entries :=
  List.mem_filter.2 ⟨he, bne_iff_ne.2 hname⟩

/-- Entries that do not block are treated in any order, and those that are swept go. -/
theorem Holds.forM_cleanEntry_of_free (h : d.Holds t entries) (hdistinct : todo.Nodup)
    (htodo : ∀ name ∈ todo, ∃ e ∈ entries, e.1 = name ∧ isBlocking e = false) :
    ∃ t', todo.forM d.cleanEntry t = (.ok (), t') ∧ d.Leaves t t' (remaining todo entries) := by
  induction todo generalizing t entries with
  | nil => exact ⟨t, rfl, by simpa [remaining] using Leaves.refl h⟩
  | cons name todo ih =>
    obtain ⟨hname, hlater⟩ := List.nodup_cons.1 hdistinct
    obtain ⟨⟨e, he, rfl, hfree⟩, hleft⟩ := List.forall_mem_cons.1 htodo
    have hone := h.cleanEntry_eq he
    rw [hfree, if_neg (by simp)] at hone
    rw [h.remaining_cons he, List.forM]
    split at hone
    · next hswept =>
      have hleaves := h.leaves_erase e.1
      have hkept : ∀ name ∈ todo, ∃ other ∈ eraseEntry e.1 entries,
          other.1 = name ∧ isBlocking other = false := by
        intro name hmem
        obtain ⟨other, hother, rfl, hblocking⟩ := hleft name hmem
        have hne : other.1 ≠ e.1 := fun heq => hname (heq ▸ hmem)
        exact ⟨other, mem_eraseEntry hother hne, rfl, hblocking⟩
      obtain ⟨t', hrun, hrest⟩ := ih (h.of_leaves hleaves List.filter_sublist) hlater hkept
      rw [if_pos hswept]
      exact ⟨t', (FileAction.bind_of_ok _ hone).trans hrun, hleaves.trans hrest⟩
    · next hstays =>
      obtain ⟨t', hrun, hrest⟩ := ih h hlater hleft
      rw [if_neg hstays]
      exact ⟨t', (FileAction.bind_of_ok _ hone).trans hrun, hrest⟩

/-- An entry that blocks ends the cleaning when its turn comes. -/
theorem Holds.forM_cleanEntry_of_isBlocking (h : d.Holds t entries) (hdistinct : todo.Nodup)
    (htodo : ∀ name ∈ todo, ∃ e ∈ entries, e.1 = name)
    (he : e ∈ entries) (hmem : e.1 ∈ todo) (hblocking : isBlocking e) :
    ∃ t', todo.forM d.cleanEntry t = (.error .isDirectory, t') := by
  induction todo generalizing t entries with
  | nil => cases hmem
  | cons name todo ih =>
    obtain ⟨hname, hlater⟩ := List.nodup_cons.1 hdistinct
    obtain ⟨⟨first, hfirst, rfl⟩, hleft⟩ := List.forall_mem_cons.1 htodo
    have hone := h.cleanEntry_eq hfirst
    rw [List.forM]
    split at hone
    · exact ⟨t, FileAction.bind_of_error _ hone⟩
    · next hfree =>
      have hne : e.1 ≠ first.1 := fun heq => hfree (h.eq_of_name hfirst he heq ▸ hblocking)
      have hmem : e.1 ∈ todo := (List.mem_cons.1 hmem).resolve_left hne
      split at hone
      · have hkept : ∀ name ∈ todo, ∃ other ∈ eraseEntry first.1 entries, other.1 = name := by
          intro name hmem
          obtain ⟨other, hother, rfl⟩ := hleft name hmem
          have hne : other.1 ≠ first.1 := fun heq => hname (heq ▸ hmem)
          exact ⟨other, mem_eraseEntry hother hne, rfl⟩
        obtain ⟨t', hrun⟩ := ih (h.of_leaves (h.leaves_erase first.1) List.filter_sublist) hlater
          hkept (mem_eraseEntry he hne) hmem
        exact ⟨t', (FileAction.bind_of_ok _ hone).trans hrun⟩
      · obtain ⟨t', hrun⟩ := ih h hlater hleft he hmem
        exact ⟨t', (FileAction.bind_of_ok _ hone).trans hrun⟩

/-- A directory that is there is not changed unless cleaning is asked for. -/
theorem Holds.prepare_eq (h : d.Holds t entries) (clean : Bool) : d.prepare clean t =
    if clean then (entries.map (·.1)).reverse.forM d.cleanEntry t else (.ok (), t) := by
  rw [prepare, FileAction.bind_of_ok _ h.leads.makeDirectories_eq]
  cases clean with
  | false => rfl
  | true =>
    have hlook : FileAction.look (·.names d.root) t = (.ok (entries.map (·.1)), t) := by
      rw [FileAction.look, h.leads.names_eq]
    exact FileAction.bind_of_ok _ hlook

/-- Cleaning takes away what runs have written in the root, and all other directories whose names
start like the one of an iteration. It ends early only where a directory has the name of a file of
the run. Nothing goes without being asked for. -/
theorem prepare_removes (h : d.Holds t entries) :
    d.prepare false t = (.ok (), t) ∧
    ((d.prepare true t).1 = .ok () ↔ ∀ e ∈ entries, isBlocking e = false) ∧
    ((d.prepare true t).1 = .ok () →
      d.Leaves t (d.prepare true t).2 (entries.filter fun e => !isSwept e) ∧
      ∀ e ∈ entries, isSwept e ↔
        Written e ∨ isMarked e ∧ ∀ n, 1 ≤ n → e.1 ≠ iterationName n) := by
  have hnames : ∀ name ∈ (entries.map (·.1)).reverse, ∃ e ∈ entries, e.1 = name := by
    intro name hname
    exact List.mem_map.1 (List.mem_reverse.1 hname)
  have hdistinct := List.nodup_reverse.2 h.distinct
  have hiff : (d.prepare true t).1 = .ok () ↔ ∀ e ∈ entries, isBlocking e = false := by
    rw [h.prepare_eq, if_pos rfl]
    constructor
    · intro hok e he
      rw [Bool.eq_false_iff]
      intro hblocking
      have hmem : e.1 ∈ (entries.map (·.1)).reverse :=
        List.mem_reverse.2 (List.mem_map_of_mem he)
      obtain ⟨t', hrun⟩ := h.forM_cleanEntry_of_isBlocking hdistinct hnames he hmem hblocking
      rw [hrun] at hok
      cases hok
    · intro hfree
      obtain ⟨t', hrun, -⟩ := h.forM_cleanEntry_of_free hdistinct fun name hname =>
        (hnames name hname).imp fun e he => ⟨he.1, he.2, hfree e he.1⟩
      rw [hrun]
  refine ⟨h.prepare_eq false, hiff, fun hok => ⟨?_, fun e he => ?_⟩⟩
  · obtain ⟨t', hrun, hleaves⟩ := h.forM_cleanEntry_of_free hdistinct fun name hname =>
      (hnames name hname).imp fun e he => ⟨he.1, he.2, hiff.1 hok e he.1⟩
    have hall : remaining (entries.map (·.1)).reverse entries =
        entries.filter fun e => !isSwept e := by
      rw [remaining]
      refine List.filter_congr fun e he => ?_
      have hmem : (entries.map (·.1)).reverse.contains e.1 = true :=
        List.contains_iff_mem.2 (List.mem_reverse.2 (List.mem_map_of_mem he))
      rw [hmem, Bool.true_and]
    rw [h.prepare_eq, if_pos rfl, hrun, ← hall]
    exact hleaves
  · exact isSwept_iff (h.unlinked e he) (hiff.1 hok e he)

/-- A directory of a run that notes were put into as well. -/
def notedEntries : Entries :=
  [("history.json", .file [123, 125] false), ("iter-001", .directory []),
    ("iter-notes", .directory [("todo.txt", .file [107] false)]), ("notes.txt", .file [] false)]

def notedTree : FileTree := { root := .directory [("out", .directory notedEntries)] }

theorem noted_holds : Holds ⟨⟨"out"⟩⟩ notedTree notedEntries where
  leads := {
    nonempty := by decide
    unended := by decide
    short := by decide
    down := by decide
    stands := rfl
    direct := fun _ h => by cases h
    ended := fun _ _ _ => rfl }
  distinct := by decide
  named := by decide +kernel
  short := by decide +kernel
  unlinked := by simp [notedEntries]

theorem prepare_removes_noted :
    Holds ⟨⟨"out"⟩⟩ notedTree notedEntries ∧
    prepare ⟨⟨"out"⟩⟩ false notedTree = (.ok (), notedTree) ∧
    (prepare ⟨⟨"out"⟩⟩ true notedTree).1 = .ok () ∧
    Leaves ⟨⟨"out"⟩⟩ notedTree (prepare ⟨⟨"out"⟩⟩ true notedTree).2
      [("notes.txt", .file [] false)] := by
  obtain ⟨hkept, hiff, hleft⟩ := prepare_removes noted_holds
  have hfree : ∀ e ∈ notedEntries, isBlocking e = false := by decide +kernel
  have hok := hiff.2 hfree
  exact ⟨noted_holds, hkept, hok, (hleft hok).1⟩

theorem isDigit_padded {c : Char} {width n : Nat} (hc : c ∈ (Number.padded width n).toList) :
    c.isDigit := by
  rw [Number.padded, String.toList_append, String.toList_ofList, List.mem_append] at hc
  rcases hc with hc | hc
  · rw [List.eq_of_mem_replicate hc]
    rfl
  · rw [Nat.toString_eq_repr, Nat.toList_repr] at hc
    exact Nat.isDigit_of_mem_toDigits (by omega) (by omega) hc

theorem not_iterationName (n : Nat) : "iter-notes" ≠ iterationName n := by
  intro hname
  have hpadded : "notes".toList = (Number.padded 3 n).toList := by
    have hlist := congrArg String.toList hname
    rw [iterationName, String.toList_append] at hlist
    exact List.append_cancel_left (show iterationMark.toList ++ "notes".toList = _ from hlist)
  have hmem : 'n' ∈ (Number.padded 3 n).toList := by
    rw [← hpadded]
    decide
  exact absurd (isDigit_padded hmem) (by decide)

/-- Notes on iterations are taken away as if they were an iteration. -/
theorem prepare_removes_notes :
    (prepare ⟨⟨"out"⟩⟩ true notedTree).1 = .ok () ∧
    (∀ n, "iter-notes" ≠ iterationName n) ∧
    notedTree.pathExists ⟨"out/iter-notes/todo.txt"⟩ = true ∧
    (prepare ⟨⟨"out"⟩⟩ true notedTree).2.pathExists ⟨"out/iter-notes/todo.txt"⟩ = false := by
  have hok : (prepare ⟨⟨"out"⟩⟩ true notedTree).1 = .ok () := by decide +kernel
  refine ⟨hok, not_iterationName, ?_, ?_⟩
  · decide +kernel
  · decide +kernel

end TestSynth.RunDirectory
