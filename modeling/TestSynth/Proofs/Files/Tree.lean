import Mathlib
import TestSynth.Files.Tree
import TestSynth.Proofs.Path
/-!
Trees of files under single changes, and where paths lead that only go down: from the root or the
working directory through names alone, past no link.
-/
namespace TestSynth

theorem Text.byteLength_append (cs ds : List Char) :
    byteLength (cs ++ ds) = byteLength cs + byteLength ds := by
  have hsum : ∀ (cs : List Char) (n : Nat),
      cs.foldl (fun n c => n + c.utf8Size) n = n + (cs.map Char.utf8Size).sum := by
    intro cs
    induction cs with
    | nil => simp
    | cons c cs ih => simp [ih, Nat.add_assoc]
  simp [byteLength, hsum]

namespace FileNode

variable {node new child : FileNode} {name : String} {entries : Entries} {place other : Location}

theorem lookup_insertEntry (name : String) (new : FileNode) (entries : Entries) (key : String) :
    (insertEntry name new entries).lookup key =
      if key = name then some new else entries.lookup key := by
  induction entries with
  | nil =>
    by_cases hkey : key = name
    · simp [insertEntry, hkey]
    · simp [insertEntry, List.lookup_cons, hkey, beq_eq_false_iff_ne.2 hkey]
  | cons e entries ih =>
    obtain ⟨first, node⟩ := e
    rw [insertEntry]
    split
    · by_cases hkey : key = name
      · simp [hkey]
      · simp [List.lookup_cons, hkey, beq_eq_false_iff_ne.2 hkey]
    · split
      · next hname =>
        subst hname
        by_cases hkey : key = name
        · simp [hkey]
        · simp [List.lookup_cons, hkey, beq_eq_false_iff_ne.2 hkey]
      · next hname =>
        rw [List.lookup_cons, List.lookup_cons, ih]
        by_cases hkey : key = name
        · simp [hkey, beq_eq_false_iff_ne.2 hname]
        · simp [hkey]

/-- What has a child is a directory. -/
theorem isDirectory_of_child? (h : node.child? name = some child) : node.isDirectory := by
  cases node with
  | directory entries => rfl
  | file content executable => simp [child?, FileNode.entries] at h
  | link target => simp [child?, FileNode.entries] at h

/-- Below a link there is nothing. -/
theorem eq_link_of_get? {target : String} (h : (link target).get? place = some node) :
    node = .link target := by
  cases place with
  | nil => exact (Option.some.inj h).symm
  | cons name place => simp [get?, child?, FileNode.entries] at h

theorem get?_append (node : FileNode) (place rest : Location) :
    node.get? (place ++ rest) = (node.get? place).bind (·.get? rest) := by
  induction place generalizing node with
  | nil => rfl
  | cons name place ih =>
    rw [List.cons_append, get?, get?]
    cases node.child? name with
    | none => rfl
    | some child => exact ih child

theorem get?_put (node : FileNode) (place : Location) (new : FileNode) :
    (node.put place new).get? place = some new := by
  induction place generalizing node with
  | nil => simp [put, get?]
  | cons name place ih => simp [put, get?, child?, entries, lookup_insertEntry, ih]

/-- What stands neither above a place nor below it does not see a change there. -/
theorem get?_put_of_apart (node new : FileNode) (hbelow : ¬ place <+: other)
    (habove : ¬ other <+: place) : (node.put place new).get? other = node.get? other := by
  induction place generalizing node other with
  | nil => exact absurd List.nil_prefix hbelow
  | cons name place ih =>
    cases other with
    | nil => exact absurd List.nil_prefix habove
    | cons key other =>
      rw [put, get?, get?, child?, entries, lookup_insertEntry]
      by_cases hkey : key = name
      · subst hkey
        rw [if_pos rfl, Option.bind_some, ih]
        · cases hchild : node.child? key with
          | some child => rfl
          | none =>
            -- Below a missing entry there is nothing, and in an empty directory neither.
            cases other with
            | nil => exact absurd (List.cons_prefix_cons.2 ⟨rfl, List.nil_prefix⟩) habove
            | cons key' other => simp [emptyDirectory, get?, child?, entries]
        · exact fun h => hbelow (List.cons_prefix_cons.2 ⟨rfl, h⟩)
        · exact fun h => habove (List.cons_prefix_cons.2 ⟨rfl, h⟩)
      · rw [if_neg hkey]
        rfl

/-- To remove an entry of a directory is to put the directory there without it. -/
theorem erase_eq_put (h : node.get? place = some (.directory entries)) (name : String) :
    node.erase (place ++ [name]) = node.put place (.directory (eraseEntry name entries)) := by
  induction place generalizing node with
  | nil =>
    obtain rfl : node = .directory entries := Option.some.inj h
    rfl
  | cons first place ih =>
    obtain ⟨child, hchild, h⟩ := Option.bind_eq_some_iff.1 h
    have hrest : place ++ [name] ≠ [] := by simp
    rw [List.cons_append, put, hchild, Option.getD_some, ← ih h]
    obtain ⟨second, rest, hcons⟩ := List.exists_cons_of_ne_nil hrest
    rw [hcons, erase, hchild]
    simp

end FileNode

section Walking

variable {root node : FileNode} {trail : Trail} {place : Location}

namespace Path

/-- The name that a piece of a path stands for. Nothing and a single point stand for none. -/
def pieceName? (piece : List Char) : Option String :=
  if piece.isEmpty || piece == ['.'] then none else some (String.ofList piece)

/-- The names on the way that a path describes. -/
def names (cs : List Char) : List String := (pieces cs).filterMap pieceName?

/-- A path that only goes down, by names that a file system takes. -/
structure Descending (p : Path) : Prop where
  nonempty : p.text.toList ≠ []
  unended : Char.ofNat 0 ∉ p.text.toList
  short : Text.byteLength p.text.toList < pathLimit
  down : ∀ piece ∈ pieces p.text.toList,
    piece ≠ ['.', '.'] ∧ Text.byteLength piece ≤ nameLimit

theorem Descending.checkPath_eq {p : Path} (h : p.Descending) :
    FileTree.checkPath p = .ok () := by
  have hlength : ¬ pathLimit ≤ Text.byteLength p.text.toList := by
    have := h.short
    omega
  simp [FileTree.checkPath, h.nonempty, h.unended, hlength]

end Path

theorem Trail.location_cons (name : String) (node : FileNode) (trail : Trail) :
    Trail.location ((name, node) :: trail) = trail.location ++ [name] := by
  simp [Trail.location]

theorem Trail.descend?_eq (h : (trail.node root).get? place = some node) :
    ∃ trail', Trail.descend? root place trail = some trail' ∧
      trail'.location = trail.location ++ place ∧ trail'.node root = node := by
  induction place generalizing trail with
  | nil => exact ⟨trail, rfl, by simp, Option.some.inj h⟩
  | cons name place ih =>
    rw [FileNode.get?] at h
    obtain ⟨child, hchild, hget⟩ := Option.bind_eq_some_iff.1 h
    obtain ⟨trail', hdescend, hlocation, hnode⟩ := @ih ((name, child) :: trail) hget
    refine ⟨trail', ?_, ?_, hnode⟩
    · rw [Trail.descend?, hchild, Option.bind_some, hdescend]
    · rw [hlocation, Trail.location_cons, List.append_assoc, List.singleton_append]

/-- Where a path starts is a directory, if one that ends in no name has to end at a directory. -/
theorem isDirectory_of_pieces {start : FileNode} {piece : List Char} {rest : List (List Char)}
    (hget : start.get? ((piece :: rest).filterMap Path.pieceName?) = some node)
    (hend : ∀ last ∈ (piece :: rest).getLast?, Path.pieceName? last = none → node.isDirectory) :
    start.isDirectory := by
  cases hnames : (piece :: rest).filterMap Path.pieceName? with
  | nil =>
    rw [hnames] at hget
    obtain rfl : start = node := Option.some.inj hget
    have hlast := List.getLast?_eq_some_getLast (List.cons_ne_nil piece rest)
    exact hend _ hlast (List.filterMap_eq_nil_iff.1 hnames _ (List.mem_of_getLast? hlast))
  | cons name names =>
    rw [hnames, FileNode.get?] at hget
    obtain ⟨child, hchild, -⟩ := Option.bind_eq_some_iff.1 hget
    exact FileNode.isDirectory_of_child? hchild

/-- Names lead to what stands at their location, and the way goes on from there. The end is no link,
and a path that ends in no name has to end at a directory. -/
theorem PathEnd.walk_append {pieces more : List (List Char)} (follows : Bool)
    (hdown : ∀ piece ∈ pieces, piece ≠ ['.', '.'] ∧ Text.byteLength piece ≤ nameLimit)
    (hget : (trail.node root).get? (pieces.filterMap Path.pieceName?) = some node)
    (hlink : ∀ target, node ≠ .link target)
    (hend : ∀ piece ∈ pieces.getLast?, Path.pieceName? piece = none → node.isDirectory) :
    ∃ trail', PathEnd.walk root follows (pieces ++ more) trail =
        PathEnd.walk root follows more trail' ∧
      trail'.location = trail.location ++ pieces.filterMap Path.pieceName? ∧
      trail'.node root = node := by
  induction pieces generalizing trail with
  | nil => exact ⟨trail, rfl, by simp, Option.some.inj hget⟩
  | cons piece rest ih =>
    obtain ⟨⟨hparent, hlength⟩, hrest⟩ := List.forall_mem_cons.1 hdown
    have hrestEnd : ∀ piece ∈ rest.getLast?, Path.pieceName? piece = none → node.isDirectory := by
      intro last hlast
      apply hend last
      rw [List.getLast?_cons, Option.mem_def.1 hlast]
      rfl
    have hdirectory : (trail.node root).isDirectory := isDirectory_of_pieces hget hend
    rw [List.cons_append, PathEnd.walk, hdirectory]
    by_cases hskip : (piece.isEmpty || piece == ['.']) = true
    · have hnone : Path.pieceName? piece = none := by rw [Path.pieceName?, if_pos hskip]
      rw [List.filterMap_cons_none hnone] at hget ⊢
      rw [if_neg (by simp), if_pos hskip]
      exact ih hrest hget hrestEnd
    · have hsome : Path.pieceName? piece = some (String.ofList piece) := by
        rw [Path.pieceName?, if_neg hskip]
      rw [List.filterMap_cons_some hsome, FileNode.get?] at hget
      obtain ⟨child, hchild, hget⟩ := Option.bind_eq_some_iff.1 hget
      obtain ⟨trail', hwalk, hlocation, hnode⟩ :=
        @ih ((String.ofList piece, child) :: trail) hrest hget hrestEnd
      refine ⟨trail', ?_, ?_, hnode⟩
      · rw [if_neg (by simp), if_neg hskip, if_neg (by simpa using hparent), if_neg (by omega)]
        simp only [hchild]
        cases child with
        | file content executable => exact hwalk
        | directory entries => exact hwalk
        | link target => exact absurd (FileNode.eq_link_of_get? hget) (hlink target)
      · rw [hlocation, Trail.location_cons, List.filterMap_cons_some hsome, List.append_assoc,
          List.singleton_append]

end Walking

namespace FileAction

variable {α β : Type} {action : FileAction α} {t t' : FileTree}

theorem get_bind (f : FileTree → FileAction α) (t : FileTree) :
    (get >>= f : FileAction α) t = f t t := rfl

theorem bind_of_ok {a : α} (f : α → FileAction β) (h : action t = (.ok a, t')) :
    (action >>= f) t = f a t' := by
  simp only [bind, ExceptT.bind, ExceptT.mk, StateT.bind, h]
  rfl

theorem bind_of_error {e : FileError} (f : α → FileAction β) (h : action t = (.error e, t')) :
    (action >>= f) t = (.error e, t') := by
  simp only [bind, ExceptT.bind, ExceptT.mk, StateT.bind, h]
  rfl

end FileAction

namespace FileTree

variable {t : FileTree} {p : Path} {node : FileNode} {entries : FileNode.Entries} {name : String}

/-- The location that the names of a path stand for. -/
def placeOf (t : FileTree) (p : Path) : Location :=
  (if p.isAbsolute then [] else t.workingDirectory) ++ Path.names p.text.toList

/-- A path that goes down leads to the location of its names. -/
structure LeadsTo (t : FileTree) (p : Path) (node : FileNode) : Prop extends p.Descending where
  stands : t.node? (t.placeOf p) = some node
  direct : ∀ target, node ≠ .link target
  ended : ∀ piece ∈ (Path.pieces p.text.toList).getLast?, Path.pieceName? piece = none →
    node.isDirectory

theorem LeadsTo.resolve_eq (h : t.LeadsTo p node) (follows : Bool) :
    ∃ trail, t.resolve follows p = .ok (.found trail) ∧ trail.location = t.placeOf p ∧
      trail.node t.root = node := by
  have hstands := h.stands
  rw [node?, placeOf, FileNode.get?_append, Option.bind_eq_some_iff] at hstands
  obtain ⟨start, hstart, hget⟩ := hstands
  obtain ⟨trail, hdescend, hlocation, hnode⟩ :=
    @Trail.descend?_eq t.root start [] _ hstart
  rw [← hnode] at hget
  obtain ⟨trail', hwalk, hlocation', hnode'⟩ :=
    @PathEnd.walk_append _ _ _ _ [] follows h.down hget h.direct h.ended
  refine ⟨trail', ?_, ?_, hnode'⟩
  · have hfollow : PathEnd.follow t.root follows (linkLimit + 1) (Path.pieces p.text.toList) trail =
        .ok (.found trail') := by
      rw [List.append_nil] at hwalk
      rw [PathEnd.follow, hwalk]
      rfl
    rw [resolve, h.toDescending.checkPath_eq]
    simp only [followPieces, hdescend]
    exact hfollow
  · rw [hlocation', hlocation, placeOf, Path.names]
    rfl

theorem LeadsTo.lookUp_eq (h : t.LeadsTo p node) (follows : Bool) :
    t.lookUp follows p = .ok (t.placeOf p, node) := by
  obtain ⟨trail, hresolve, hlocation, hnode⟩ := h.resolve_eq follows
  rw [lookUp, hresolve, ← hlocation, ← hnode]
  rfl

theorem LeadsTo.isDirectory_eq (h : t.LeadsTo p node) : t.isDirectory p = node.isDirectory := by
  rw [isDirectory, find, h.lookUp_eq]
  rfl

theorem LeadsTo.names_eq (h : t.LeadsTo p (.directory entries)) :
    t.names p = .ok (entries.map (·.1)) := by
  rw [names, find, h.lookUp_eq]
  rfl

theorem LeadsTo.removeDirectory_eq (h : t.LeadsTo p (.directory entries)) :
    t.removeDirectory p = .ok (t.erase (t.placeOf p)) := by
  rw [removeDirectory, findItself, h.lookUp_eq]
  rfl

/-- A file is removed, a directory is not removed as one. -/
theorem LeadsTo.removeFile_eq (h : t.LeadsTo p node) :
    t.removeFile p =
      if node.isDirectory then .error .isDirectory else .ok (t.erase (t.placeOf p)) := by
  rw [removeFile, findItself, h.lookUp_eq]
  cases node <;> rfl

/-- A name that an entry of a directory can have. -/
@[mk_iff]
structure IsEntryName (name : String) : Prop where
  nonempty : name ≠ ""
  apart : name ≠ "." ∧ name ≠ ".."
  unended : Char.ofNat 0 ∉ name.toList
  whole : '/' ∉ name.toList
  short : Text.byteLength name.toList ≤ nameLimit

instance (name : String) : Decidable (IsEntryName name) :=
  decidable_of_iff' _ (isEntryName_iff name)

theorem IsEntryName.pieces_eq (h : IsEntryName name) : Path.pieces name.toList = [name.toList] := by
  refine Text.fields_eq_singleton fun c hc => beq_eq_false_iff_ne.2 ?_
  rintro rfl
  exact h.whole hc

theorem IsEntryName.toList_ne (h : IsEntryName name) :
    name.toList ≠ ['.'] ∧ name.toList ≠ ['.', '.'] :=
  ⟨fun heq => h.apart.1 (String.toList_inj.1 heq), fun heq => h.apart.2 (String.toList_inj.1 heq)⟩

theorem IsEntryName.pieceName?_eq (h : IsEntryName name) :
    Path.pieceName? name.toList = some name := by
  simp [Path.pieceName?, h.toList_ne, h.nonempty]

/-- The path of an entry of a directory, piece by piece. -/
theorem IsEntryName.pieces_join (h : IsEntryName name) (hp : p.text.toList ≠ []) :
    ∃ front, (p.join ⟨name⟩).text.toList.head? = p.text.toList.head? ∧
      (∀ c ∈ (p.join ⟨name⟩).text.toList, c ∈ p.text.toList ∨ c ∈ name.toList ∨ c = '/') ∧
      Path.pieces (p.join ⟨name⟩).text.toList = front ++ [name.toList] ∧
      (Path.pieces p.text.toList = front ∨ Path.pieces p.text.toList = front ++ [[]]) := by
  have habsolute : Path.isAbsolute ⟨name⟩ = false := by
    rw [Path.isAbsolute, beq_eq_false_iff_ne]
    exact fun hhead => h.whole (List.mem_of_mem_head? hhead)
  have hempty : p.text.isEmpty = false := by simpa using hp
  rw [Path.join, habsolute, if_neg (by simp), hempty, Bool.false_or]
  split
  · next hend =>
    obtain ⟨cs, hcs⟩ := List.getLast?_eq_some_iff.1 (eq_of_beq hend)
    refine ⟨Path.pieces cs, ?_, ?_, ?_, .inr ?_⟩
    · rw [String.toList_append, List.head?_append_of_ne_nil _ hp]
    · intro c hc
      rw [String.toList_append, List.mem_append] at hc
      exact hc.imp_right .inl
    · rw [String.toList_append, hcs, List.append_assoc, List.singleton_append, Path.pieces_append,
        h.pieces_eq]
    · rw [hcs, Path.pieces_append]
      rfl
  · refine ⟨Path.pieces p.text.toList, ?_, ?_, ?_, .inl rfl⟩
    · rw [String.toList_append, String.toList_append, List.append_assoc,
        List.head?_append_of_ne_nil _ hp]
    · intro c hc
      simp only [String.toList_append, List.mem_append] at hc
      rcases hc with (hc | hc) | hc
      · exact .inl hc
      · exact .inr (.inr (by simpa using hc))
      · exact .inr (.inl hc)
    · have htext : (p.text ++ "/" ++ name).toList = p.text.toList ++ '/' :: name.toList := by simp
      rw [htext, Path.pieces_append, h.pieces_eq]

/-- A slash at the end of a path names nothing. -/
theorem names_front {front : List (List Char)}
    (h : Path.pieces p.text.toList = front ∨ Path.pieces p.text.toList = front ++ [[]]) :
    Path.names p.text.toList = front.filterMap Path.pieceName? := by
  rw [Path.names]
  rcases h with h | h
  · rw [h]
  · rw [h, List.filterMap_append]
    simp [Path.pieceName?]

/-- The path of an entry of a directory goes down to its name. -/
theorem LeadsTo.join (h : t.LeadsTo p (.directory entries)) (hname : IsEntryName name)
    (hshort : Text.byteLength (p.join ⟨name⟩).text.toList < pathLimit) :
    (p.join ⟨name⟩).Descending ∧ t.placeOf (p.join ⟨name⟩) = t.placeOf p ++ [name] := by
  obtain ⟨front, hhead, hchars, hpieces, hfront⟩ := hname.pieces_join h.nonempty
  have hnames : Path.names (p.join ⟨name⟩).text.toList = Path.names p.text.toList ++ [name] := by
    rw [names_front hfront, Path.names, hpieces, List.filterMap_append,
      List.filterMap_cons_some hname.pieceName?_eq, List.filterMap_nil]
  refine ⟨{ nonempty := ?_, unended := ?_, short := hshort, down := ?_ }, ?_⟩
  · intro hnil
    rw [hnil] at hhead
    exact h.nonempty (List.head?_eq_none_iff.1 hhead.symm)
  · intro hmem
    rcases hchars _ hmem with hmem | hmem | hslash
    · exact h.unended hmem
    · exact hname.unended hmem
    · exact absurd hslash (by decide)
  · intro piece hpiece
    rw [hpieces, List.mem_append, List.mem_singleton] at hpiece
    rcases hpiece with hpiece | rfl
    · apply h.down
      rcases hfront with hfront | hfront
      · rwa [hfront]
      · rw [hfront]
        exact List.mem_append_left _ hpiece
    · exact ⟨hname.toList_ne.2, hname.short⟩
  · rw [placeOf, placeOf, Path.isAbsolute, Path.isAbsolute, hhead, hnames, List.append_assoc]

theorem IsEntryName.getLast?_pieces_join (h : IsEntryName name) (hp : p.text.toList ≠ []) :
    (Path.pieces (p.join ⟨name⟩).text.toList).getLast? = some name.toList := by
  obtain ⟨front, -, -, hpieces, -⟩ := h.pieces_join hp
  rw [hpieces, List.getLast?_concat]

/-- An entry of a directory stands at the path of the directory with its name. -/
theorem LeadsTo.entry (h : t.LeadsTo p (.directory entries)) (hname : IsEntryName name)
    (hshort : Text.byteLength (p.join ⟨name⟩).text.toList < pathLimit)
    (hnode : entries.lookup name = some node) (hlink : ∀ target, node ≠ .link target) :
    t.LeadsTo (p.join ⟨name⟩) node ∧ t.placeOf (p.join ⟨name⟩) = t.placeOf p ++ [name] := by
  obtain ⟨hdescending, hplace⟩ := h.join hname hshort
  have hstands : t.node? (t.placeOf (p.join ⟨name⟩)) = some node := by
    have hdirectory := h.stands
    rw [node?] at hdirectory ⊢
    rw [hplace, FileNode.get?_append, hdirectory, Option.bind_some, FileNode.get?,
      FileNode.child?, FileNode.entries, hnode, Option.bind_some, FileNode.get?]
  refine ⟨{ hdescending with stands := hstands, direct := hlink, ended := ?_ }, hplace⟩
  intro piece hpiece hnone
  rw [hname.getLast?_pieces_join h.nonempty, Option.mem_some] at hpiece
  rw [← hpiece, hname.pieceName?_eq] at hnone
  cases hnone

/-- Slashes at the end of a path name nothing. -/
theorem names_append_slashes {slashes : List Char} (h : ∀ c ∈ slashes, c = '/') (cs : List Char) :
    Path.names (cs ++ slashes) = Path.names cs := by
  have hnil : ∀ {slashes : List Char}, (∀ c ∈ slashes, c = '/') → Path.names slashes = [] := by
    intro slashes h
    induction slashes with
    | nil => rfl
    | cons c slashes ih =>
      obtain ⟨rfl, hslashes⟩ := List.forall_mem_cons.1 h
      have hcons : Path.pieces ('/' :: slashes) = [] :: Path.pieces slashes :=
        Text.fields_cons_of_pos rfl
      rw [Path.names, hcons, List.filterMap_cons_none rfl]
      exact ih hslashes
  cases slashes with
  | nil => rw [List.append_nil]
  | cons c slashes =>
    obtain ⟨rfl, hslashes⟩ := List.forall_mem_cons.1 h
    rw [Path.names, Path.pieces_append, List.filterMap_append]
    exact (congrArg _ (hnil hslashes)).trans (List.append_nil _)

/-- A directory is there without the slashes at the end of its path as well. -/
theorem LeadsTo.dropFinalSlashes (h : t.LeadsTo p (.directory entries)) :
    t.LeadsTo (FileTree.dropFinalSlashes p) (.directory entries) := by
  rw [FileTree.dropFinalSlashes]
  obtain ⟨slashes, hsplit, hslashes, -⟩ := Text.dropEndWhile_split (· == '/') p.text.toList
  cases hdrop : Text.dropEndWhile (· == '/') p.text.toList with
  | nil => exact h
  | cons c cs =>
    rw [hdrop] at hsplit
    have hall : ∀ c ∈ slashes, c = '/' := fun c hc => eq_of_beq (hslashes c hc)
    have hpieces : ∀ piece ∈ Path.pieces (c :: cs), piece ∈ Path.pieces p.text.toList := by
      intro piece hpiece
      rw [hsplit]
      cases slashes with
      | nil => rwa [List.append_nil]
      | cons d slashes =>
        obtain rfl : d = '/' := hall d List.mem_cons_self
        rw [Path.pieces_append]
        exact List.mem_append_left _ hpiece
    have hplace : t.placeOf ⟨String.ofList (c :: cs)⟩ = t.placeOf p := by
      rw [placeOf, placeOf, Path.isAbsolute, Path.isAbsolute, String.toList_ofList, hsplit,
        names_append_slashes hall]
      rfl
    refine { nonempty := ?_, unended := ?_, short := ?_, down := ?_, stands := ?_,
             direct := h.direct, ended := fun _ _ _ => rfl }
    · simp
    · rw [String.toList_ofList]
      intro hmem
      exact h.unended (hsplit ▸ List.mem_append_left _ hmem)
    · have hshort := h.short
      rw [hsplit, Text.byteLength_append] at hshort
      rw [String.toList_ofList]
      omega
    · rw [String.toList_ofList]
      exact fun piece hpiece => h.down piece (hpieces piece hpiece)
    · rw [hplace]
      exact h.stands

theorem LeadsTo.makeDirectory_eq (h : t.LeadsTo p (.directory entries)) :
    t.makeDirectory p = .error .exists := by
  obtain ⟨trail, hresolve, -, -⟩ := h.dropFinalSlashes.resolve_eq false
  rw [makeDirectory, h.toDescending.checkPath_eq]
  simp only [create, hresolve]
  rfl

/-- A directory that is there is not made again. -/
theorem LeadsTo.makeDirectories_eq (h : t.LeadsTo p (.directory entries)) :
    FileAction.makeDirectories p t = (.ok (), t) := by
  have hone : FileAction.makeDirectory p t = (.ok (), t) := by
    rw [FileAction.makeDirectory, h.makeDirectory_eq]
    simp only [h.isDirectory_eq]
    rfl
  rw [FileAction.makeDirectories]
  cases hlength : p.components.length with
  | zero => rfl
  | succ n =>
    rw [FileAction.makeDirectoriesWithin]
    split
    · rfl
    · -- The first try says that it is there, so nothing is made above it.
      refine Eq.trans ?_ hone
      rw [FileAction.get_bind, h.makeDirectory_eq]

end FileTree

section Entries

open FileNode (Entries insertEntry)

variable {t : FileTree} {p : Path} {entries : Entries} {name : String} {content : Text.Bytes}
  {executable : Bool}

/-- To put something into a directory is to put the directory there with it. -/
theorem FileNode.put_eq_put {node : FileNode} {place : Location}
    (h : node.get? place = some (.directory entries)) (name : String) (new : FileNode) :
    node.put (place ++ [name]) new =
      node.put place (.directory (insertEntry name new entries)) := by
  induction place generalizing node with
  | nil =>
    obtain rfl : node = .directory entries := Option.some.inj h
    rfl
  | cons first place ih =>
    obtain ⟨child, hchild, h⟩ := Option.bind_eq_some_iff.1 h
    rw [List.cons_append, put, put, hchild, Option.getD_some, ih h]

namespace FileTree

/-- A name that a directory has no entry of is missing there. -/
theorem LeadsTo.resolve_missing (h : t.LeadsTo p (.directory entries)) (hname : IsEntryName name)
    (hshort : Text.byteLength (p.join ⟨name⟩).text.toList < pathLimit)
    (hnone : entries.lookup name = none) (follows : Bool) :
    ∃ above, t.resolve follows (p.join ⟨name⟩) = .ok (.missing above name) ∧
      above.location = t.placeOf p := by
  obtain ⟨front, hhead, -, hpieces, hfront⟩ := hname.pieces_join h.nonempty
  have hdescending := (h.join hname hshort).1
  have hnames : Path.names p.text.toList = front.filterMap Path.pieceName? := names_front hfront
  have hdown : ∀ piece ∈ front, piece ≠ ['.', '.'] ∧ Text.byteLength piece ≤ nameLimit := by
    intro piece hpiece
    apply hdescending.down
    rw [hpieces]
    exact List.mem_append_left _ hpiece
  have hstands := h.stands
  rw [node?, placeOf, FileNode.get?_append, Option.bind_eq_some_iff] at hstands
  obtain ⟨start, hstart, hget⟩ := hstands
  obtain ⟨trail, hdescend, hlocation, hnode⟩ := @Trail.descend?_eq t.root start [] _ hstart
  rw [← hnode, hnames] at hget
  obtain ⟨above, hwalk, hlocation', hnode'⟩ := @PathEnd.walk_append _ _ _ _ [name.toList] follows
    hdown hget h.direct fun _ _ _ => rfl
  refine ⟨above, ?_, ?_⟩
  · have hlast : PathEnd.walk t.root follows [name.toList] above = .ok (.missing above name) := by
      have hlength : ¬ nameLimit < Text.byteLength name.toList := Nat.not_lt.2 hname.short
      rw [PathEnd.walk, hnode']
      simp [FileNode.isDirectory, FileNode.child?, FileNode.entries, hname.toList_ne,
        hname.nonempty, hlength, hnone]
    have habsolute : Path.isAbsolute (p.join ⟨name⟩) = p.isAbsolute := by
      rw [Path.isAbsolute, Path.isAbsolute, hhead]
    rw [resolve, hdescending.checkPath_eq, habsolute, hpieces]
    simp only [followPieces, hdescend]
    rw [PathEnd.follow, hwalk, hlast]
    rfl
  · rw [hlocation', hlocation, placeOf, hnames]
    rfl

/-- An entry of a directory is written: a file that is there, or a new one. -/
theorem LeadsTo.locate_entry (h : t.LeadsTo p (.directory entries)) (hname : IsEntryName name)
    (hshort : Text.byteLength (p.join ⟨name⟩).text.toList < pathLimit)
    (hlink : ∀ target, entries.lookup name ≠ some (.link target)) :
    t.locate (p.join ⟨name⟩) = .ok (t.placeOf p ++ [name], entries.lookup name) := by
  have hlast : namesDirectory (p.join ⟨name⟩) = false := by
    rw [namesDirectory, List.getLastD_eq_getLast?, hname.getLast?_pieces_join h.nonempty]
    simp [hname.nonempty, hname.toList_ne]
  obtain ⟨hdescending, hplace⟩ := h.join hname hshort
  rw [locate, hdescending.checkPath_eq]
  simp only [hlast, Bool.false_eq_true, if_false]
  cases hnode : entries.lookup name with
  | none =>
    obtain ⟨above, hresolve, hlocation⟩ := h.resolve_missing hname hshort hnode true
    rw [hresolve, ← hlocation]
    rfl
  | some node =>
    have hdirect : ∀ target, node ≠ .link target := by
      rintro target rfl
      exact hlink target hnode
    obtain ⟨hentry, -⟩ := h.entry hname hshort hnode hdirect
    obtain ⟨trail, hresolve, hlocation, hfound⟩ := hentry.resolve_eq true
    rw [hresolve, ← hplace, ← hlocation, ← hfound]
    rfl

/-- To write an entry changes the directory in that entry alone. -/
theorem LeadsTo.write_entry (h : t.LeadsTo p (.directory entries)) (hname : IsEntryName name)
    (hshort : Text.byteLength (p.join ⟨name⟩).text.toList < pathLimit)
    (hfile : ∀ node ∈ entries.lookup name, node.isFile) (content : Text.Bytes) :
    ∃ t' executable, t.write (p.join ⟨name⟩) content = .ok t' ∧
      t'.LeadsTo p (.directory (insertEntry name (.file content executable) entries)) := by
  have hput : ∀ executable, (t.put (t.placeOf p ++ [name]) (.file content executable)).LeadsTo p
      (.directory (insertEntry name (.file content executable) entries)) := by
    intro executable
    refine { h.toDescending with stands := ?_, direct := ?_, ended := fun _ _ _ => rfl }
    · have hroot := FileNode.put_eq_put h.stands name (.file content executable)
      change (t.root.put (t.placeOf p ++ [name]) _).get? (t.placeOf p) = _
      rw [hroot, FileNode.get?_put]
    · intro target hlink
      cases hlink
  have hlocate := h.locate_entry hname hshort (by
    intro target hnode
    have hlink := hfile _ hnode
    cases hlink)
  cases hnode : entries.lookup name with
  | none =>
    rw [hnode] at hlocate
    refine ⟨_, false, ?_, hput false⟩
    rw [write, update, hlocate]
    rfl
  | some node =>
    cases node with
    | file old executable =>
      rw [hnode] at hlocate
      refine ⟨_, executable, ?_, hput executable⟩
      rw [write, update, hlocate]
      rfl
    | link target => cases hfile _ hnode
    | directory below => cases hfile _ hnode

theorem LeadsTo.read_entry (h : t.LeadsTo p (.directory entries)) (hname : IsEntryName name)
    (hshort : Text.byteLength (p.join ⟨name⟩).text.toList < pathLimit)
    (hnode : entries.lookup name = some (.file content executable)) :
    t.read (p.join ⟨name⟩) = .ok content := by
  obtain ⟨hentry, -⟩ := h.entry hname hshort hnode (by simp)
  rw [read, find, hentry.lookUp_eq]
  rfl

theorem LeadsTo.read_missing (h : t.LeadsTo p (.directory entries)) (hname : IsEntryName name)
    (hshort : Text.byteLength (p.join ⟨name⟩).text.toList < pathLimit)
    (hnone : entries.lookup name = none) : t.read (p.join ⟨name⟩) = .error .notFound := by
  obtain ⟨above, hresolve, -⟩ := h.resolve_missing hname hshort hnone true
  rw [read, find, lookUp, hresolve]
  rfl

end FileTree

end Entries

end TestSynth
