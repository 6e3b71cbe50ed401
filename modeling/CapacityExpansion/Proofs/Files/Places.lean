import CapacityExpansion.Files.Access
import CapacityExpansion.Proofs.Data.Lookup
import CapacityExpansion.Proofs.Data.Success

/-!
# Paths and places

A path leads to a place by way of folders only, so that where it leads depends on
which places are folders, and on nothing else. A name joined to the path of a
folder leads to the place right below it. Writing a file changes what is at the
place which its path leads to; it makes no folder and leaves none away, so all
paths lead where they led before.

* `IsName`: a name which something in a folder can have;
* `read_ok_iff`, `list_ok_iff`, `exists_of_write`: what it takes to read a file, to
  list a folder and to write a file;
* `eq_of_locate_join`: the place of a name in a folder;
* `SameFolders.locate_ok_iff`: with the same folders, paths lead to the same places;
* `Takes`, `Takes.write_eq`: the names under which a folder takes files.
-/

namespace CapacityExpansion

namespace Files

/-! ## Names and the pieces of a path -/

/-- A name which something in a folder can have. -/
structure IsName (name : String) : Prop where
  ne_empty : name ≠ ""
  ne_dot : name ≠ "."
  ne_dots : name ≠ ".."
  no_slash : '/' ∉ name.toList

instance (name : String) : Decidable (IsName name) :=
  decidable_of_iff (name ≠ "" ∧ name ≠ "." ∧ name ≠ ".." ∧ '/' ∉ name.toList)
    ⟨fun ⟨h, h', h'', h'''⟩ => ⟨h, h', h'', h'''⟩, fun ⟨h, h', h'', h'''⟩ => ⟨h, h', h'', h'''⟩⟩

variable {folder name : String}

theorem IsName.split_eq (h : IsName name) : Text.split '/' name = [name] := by
  rw [Text.split, Text.splitChars_of_notMem '/' h.no_slash, List.map_singleton,
    String.ofList_toList]

theorem IsName.isAbsolute_eq_false (h : IsName name) : isAbsolute name = false := by
  rw [isAbsolute, beq_eq_false_iff_ne]
  exact fun e => h.no_slash (List.mem_of_head? e)

/-- A path from a folder is behind the pieces of the folder, as what comes after the last slash. -/
theorem exists_split_join {path : String} (hfolder : folder ≠ "") (h : isAbsolute path = false) :
    ∃ pieces, pieces.filter (· ≠ "") = (Text.split '/' folder).filter (· ≠ "") ∧
      Text.split '/' (join folder path) = pieces ++ Text.split '/' path := by
  have hempty : folder.isEmpty = false := by simpa using hfolder
  rw [join, h, hempty, Bool.or_false, if_neg Bool.false_ne_true]
  -- Behind a slash at the end of the folder there is an empty piece, which the path takes the
  -- place of.
  by_cases hslash : folder.toList.getLast? = some '/'
  · obtain ⟨before, hbefore⟩ := List.getLast?_eq_some_iff.1 hslash
    rw [if_pos (beq_iff_eq.2 hslash)]
    refine ⟨(Text.splitChars '/' before).map String.ofList, ?_, ?_⟩
    · rw [Text.split, hbefore, Text.splitChars_append_cons, List.map_append, List.filter_append]
      exact (List.append_nil _).symm
    · rw [Text.split, Text.split, String.toList_append, hbefore, List.append_assoc,
        List.singleton_append, Text.splitChars_append_cons, List.map_append]
  · rw [if_neg fun e => hslash (beq_iff_eq.1 e)]
    refine ⟨Text.split '/' folder, rfl, ?_⟩
    rw [Text.split, Text.split, Text.split, String.toList_append, String.toList_append,
      List.append_assoc]
    exact (congrArg _ (Text.splitChars_append_cons '/' folder.toList path.toList)).trans
      List.map_append

/-- The pieces of a path from a folder come after those of the folder. -/
theorem pieces_join {path : String} (hfolder : folder ≠ "") (h : isAbsolute path = false) :
    (Path.ofText (join folder path)).pieces =
      (Path.ofText folder).pieces ++ (Path.ofText path).pieces := by
  obtain ⟨pieces, hpieces, hsplit⟩ := exists_split_join hfolder h
  rw [Path.ofText, Path.ofText, Path.ofText]
  dsimp only
  rw [hsplit, List.filter_append, hpieces]

theorem IsName.pieces_eq (h : IsName name) : (Path.ofText name).pieces = [name] := by
  rw [Path.ofText]
  dsimp only
  rw [h.split_eq, List.filter_singleton, decide_eq_true h.ne_empty, cond_true]

theorem isAbsolute_join {path : String} (hfolder : folder ≠ "") (h : isAbsolute path = false) :
    isAbsolute (join folder path) = isAbsolute folder := by
  have hempty : folder.isEmpty = false := by simpa using hfolder
  have hhead (text : String) : (folder ++ text).toList.head? = folder.toList.head? := by
    rw [String.toList_append, List.head?_append_of_ne_nil]
    simpa using hfolder
  rw [join, h, hempty, Bool.or_false, if_neg Bool.false_ne_true]
  split
  · rw [isAbsolute, isAbsolute, hhead]
  · rw [isAbsolute, isAbsolute, String.append_assoc, hhead]

theorem join_empty (name : String) : join "" name = name := if_pos (Bool.or_true _)

/-- A name in a folder is the last piece of its path, whatever the path of the folder. -/
theorem pieces_join_of_isName (h : IsName name) :
    (Path.ofText (join folder name)).pieces = (Path.ofText folder).pieces ++ [name] := by
  by_cases hfolder : folder = ""
  · subst hfolder
    rw [join_empty, h.pieces_eq]
    rfl
  · rw [pieces_join hfolder h.isAbsolute_eq_false, h.pieces_eq]

theorem endsInSlash_join_of_isName (h : IsName name) :
    (Path.ofText (join folder name)).endsInSlash = false := by
  rw [Path.ofText]
  dsimp only
  by_cases hfolder : folder = ""
  · subst hfolder
    rw [join_empty, h.split_eq, List.getLast?_singleton]
    simpa using h.ne_empty
  · obtain ⟨pieces, -, hsplit⟩ := exists_split_join hfolder h.isAbsolute_eq_false
    rw [hsplit, h.split_eq, List.getLast?_concat]
    simpa using h.ne_empty

theorem isAbsolute_join_of_isName (h : IsName name) :
    isAbsolute (join folder name) = isAbsolute folder := by
  by_cases hfolder : folder = ""
  · subst hfolder
    rw [join_empty, h.isAbsolute_eq_false]
    rfl
  · exact isAbsolute_join hfolder h.isAbsolute_eq_false

/-! ## What is at a place -/

namespace Tree

variable {t : Tree} {place : Place} {node : Node}

theorem ne_root_of_ne_folder (h : t.node? place ≠ some .folder) : place ≠ [] := fun e =>
  h (if_pos e)

theorem node?_put (h : place ≠ []) (other : Place) :
    (t.put place node).node? other = if other = place then some node else t.node? other := by
  rw [node?, node?, put, OrderedMap.get?_insert]
  by_cases hother : other = place
  · rw [if_pos hother, if_neg fun e => h (hother ▸ e), if_pos hother]
  · rw [if_neg hother, if_neg hother]

/-- The names in a folder are those under which there is something. -/
theorem mem_children_iff (folder : Place) (name : String) :
    name ∈ t.children folder ↔ ∃ node, t.node? (folder ++ [name]) = some node := by
  have hname (place : Place) : childName? folder place = some name ↔ place = folder ++ [name] := by
    rcases List.eq_nil_or_concat place with rfl | ⟨above, last, rfl⟩
    · simp [childName?]
    · simp [childName?, and_comm]
  rw [children, List.mem_filterMap]
  simp only [hname, node?, List.append_eq_nil_iff, List.cons_ne_nil, and_false, if_false,
    ← OrderedMap.mem_entries_iff]
  constructor
  · rintro ⟨⟨_, node⟩, hmem, rfl⟩
    exact ⟨node, hmem⟩
  · rintro ⟨node, hmem⟩
    exact ⟨_, hmem, rfl⟩

/-- Everything below the root has names which it can have. -/
def Named (t : Tree) : Prop := ∀ place ∈ t.nodes.keys, ∀ name ∈ place, IsName name

instance (t : Tree) : Decidable t.Named :=
  inferInstanceAs (Decidable (∀ place ∈ t.nodes.keys, ∀ name ∈ place, IsName name))

theorem Named.isName_of_mem_children (h : t.Named) {folder : Place} {name : String}
    (hname : name ∈ t.children folder) : IsName name := by
  obtain ⟨node, hnode⟩ := (mem_children_iff folder name).1 hname
  rw [node?, if_neg (List.append_ne_nil_of_right_ne_nil folder (List.cons_ne_nil name [])),
    ← OrderedMap.mem_entries_iff] at hnode
  exact h _ (List.mem_map_of_mem hnode) name (List.mem_append_right _ List.mem_cons_self)

end Tree

/-! ## What a path leads to -/

section Operations

variable {f f' : Files} {path : String} {place : Place} {content : Content}

theorem find_ok_iff {node : Node} :
    f.find path = .ok (place, node) ↔ f.locate path = .ok place ∧ f.tree.node? place = some node ∧
      ((Path.ofText path).endsInSlash = true → node = .folder) := by
  rw [find, bind_ok_iff]
  constructor
  · rintro ⟨q, hq, h⟩
    rcases hnode : f.tree.node? q with _ | n
    · rw [hnode] at h
      cases h
    · cases n with
      | folder =>
        rw [hnode] at h
        cases h
        exact ⟨hq, hnode, fun _ => rfl⟩
      | file c =>
        rw [hnode] at h
        dsimp only at h
        split at h
        · cases h
        · next hslash =>
          cases h
          exact ⟨hq, hnode, fun e => absurd e hslash⟩
  · rintro ⟨hplace, hnode, hslash⟩
    refine ⟨place, hplace, ?_⟩
    rw [hnode]
    cases node with
    | folder => rfl
    | file c => exact if_neg fun e => nomatch hslash e

/-- A file can be read if its path leads to it and does not end in a slash. -/
theorem read_ok_iff :
    f.read path = .ok content ↔ (Path.ofText path).endsInSlash = false ∧
      ∃ place, f.locate path = .ok place ∧ f.tree.node? place = some (.file content) := by
  rw [read, bind_ok_iff]
  constructor
  · rintro ⟨⟨place, node⟩, hfind, h⟩
    cases node with
    | folder => cases h
    | file c =>
      cases h
      obtain ⟨hplace, hnode, hslash⟩ := find_ok_iff.1 hfind
      exact ⟨Bool.eq_false_iff.2 fun e => (nomatch hslash e), place, hplace, hnode⟩
  · rintro ⟨hslash, place, hplace, hnode⟩
    refine ⟨(place, .file content), find_ok_iff.2 ⟨hplace, hnode, ?_⟩, rfl⟩
    rw [hslash]
    exact nofun

theorem readText_ok_iff {text : String} :
    f.readText path = .ok text ↔ f.read path = .ok (.text text) := by
  rw [readText, bind_ok_iff]
  constructor
  · rintro ⟨content, hread, h⟩
    cases content with
    | text s =>
      cases h
      exact hread
    | binary bytes => cases h
  · exact fun h => ⟨_, h, rfl⟩

/-- What can be read is what is a file. -/
theorem isFile_iff : f.isFile path = true ↔ ∃ content, f.read path = .ok content := by
  rw [isFile, read]
  rcases f.find path with problem | ⟨place, _ | _⟩
  · exact ⟨nofun, fun ⟨_, e⟩ => nomatch e⟩
  · exact ⟨fun _ => ⟨_, rfl⟩, fun _ => rfl⟩
  · exact ⟨nofun, fun ⟨_, e⟩ => nomatch e⟩

/-- A folder can be listed if its path leads to it. -/
theorem list_ok_iff {names : List String} :
    f.list path = .ok names ↔ ∃ place, f.locate path = .ok place ∧
      f.tree.node? place = some .folder ∧ f.tree.children place = names := by
  rw [list, bind_ok_iff]
  constructor
  · rintro ⟨⟨place, node⟩, hfind, h⟩
    cases node with
    | file c => cases h
    | folder =>
      cases h
      obtain ⟨hplace, hnode, -⟩ := find_ok_iff.1 hfind
      exact ⟨place, hplace, hnode, rfl⟩
  · rintro ⟨place, hplace, hnode, rfl⟩
    exact ⟨(place, .folder), find_ok_iff.2 ⟨hplace, hnode, fun _ => rfl⟩, rfl⟩

/-- What is written is at the place which the path leads to, which was no folder. -/
theorem exists_of_write (h : f.write path content = .ok f') :
    ∃ place, f.locate path = .ok place ∧ f.tree.node? place ≠ some .folder ∧
      f' = { f with tree := f.tree.put place (.file content) } := by
  rw [write] at h
  split at h
  · obtain ⟨_, -, h⟩ := bind_ok_iff.1 h
    cases h
  · rw [bind_ok_iff] at h
    obtain ⟨place, hplace, h⟩ := h
    by_cases hfolder : f.tree.node? place = some .folder
    · rw [hfolder] at h
      cases h
    · refine ⟨place, hplace, hfolder, ?_⟩
      dsimp only at h
      rw [if_neg fun e => hfolder (beq_iff_eq.1 e)] at h
      split at h
      · exact (Except.ok.inj h).symm
      · cases h
      · cases h

theorem copy_ok_iff {source target : String} :
    f.copy source target = .ok f' ↔
      ∃ content, f.read source = .ok content ∧ f.write target content = .ok f' := by
  rw [copy, read]
  rcases f.find source with problem | ⟨place, _ | _⟩
  · exact ⟨nofun, fun ⟨_, e, _⟩ => nomatch e⟩
  · exact ⟨fun h => ⟨_, rfl, h⟩, fun ⟨_, e, h⟩ => Except.ok.inj e ▸ h⟩
  · exact ⟨nofun, fun ⟨_, e, _⟩ => nomatch e⟩

/-! ## Names in a folder -/

theorem eq_of_enter {name : String} (h : IsName name) {q : Place} (hq : enter place name = .ok q) :
    q = place ++ [name] := by
  rw [enter, if_neg h.ne_dot, if_neg h.ne_dots] at hq
  split at hq
  · exact (Except.ok.inj hq).symm
  · cases hq

/-- All pieces but the last one must lead to folders. -/
theorem walk_cons_ok_iff {t : Tree} {first second : String} {pieces : List String}
    {start q : Place} : walk t start (first :: second :: pieces) = .ok q ↔
      ∃ next, enter start first = .ok next ∧ t.node? next = some .folder ∧
        walk t next (second :: pieces) = .ok q := by
  rw [walk, bind_ok_iff]
  · refine exists_congr fun next => and_congr_right fun _ => ?_
    rcases t.node? next with _ | _ | _
    · exact ⟨nofun, fun h => nomatch h.1⟩
    · exact ⟨nofun, fun h => nomatch h.1⟩
    · exact ⟨fun h => ⟨rfl, h⟩, And.right⟩
  · exact List.cons_ne_nil _ _

/-- A path leads to where its last piece leads from the folder which the other ones lead to. -/
theorem walk_concat_ok_iff {t : Tree} {pieces : List String} {piece : String} {start q : Place} :
    walk t start (pieces ++ [piece]) = .ok q ↔ ∃ place, walk t start pieces = .ok place ∧
      (pieces ≠ [] → t.node? place = some .folder) ∧ enter place piece = .ok q := by
  induction pieces generalizing start with
  | nil =>
    constructor
    · exact fun h => ⟨start, rfl, fun e => absurd rfl e, h⟩
    · rintro ⟨place, hplace, -, h⟩
      cases hplace
      exact h
  | cons first pieces ih =>
    rcases pieces with _ | ⟨second, pieces⟩
    · rw [List.cons_append, List.nil_append, walk_cons_ok_iff]
      exact exists_congr fun next => and_congr_right fun _ =>
        and_congr_left fun _ => ⟨fun h _ => h, fun h => h (List.cons_ne_nil _ _)⟩
    · simp only [List.cons_append, walk_cons_ok_iff]
      simp only [← List.cons_append, ih]
      constructor
      · rintro ⟨next, hnext, hnode, place, hplace, hfolder, h⟩
        exact ⟨place, ⟨next, hnext, hnode, hplace⟩,
          fun _ => hfolder (List.cons_ne_nil _ _), h⟩
      · rintro ⟨place, ⟨next, hnext, hnode, hplace⟩, hfolder, h⟩
        exact ⟨next, hnext, hnode, place, hplace, fun _ => hfolder (List.cons_ne_nil _ _), h⟩

/-- After the pieces of a path, the next one is looked for where they lead. -/
theorem enter_of_walk {t : Tree} {pieces : List String} {piece : String} {start q : Place}
    (h : walk t start pieces = .ok place) (hq : walk t start (pieces ++ [piece]) = .ok q) :
    enter place piece = .ok q := by
  obtain ⟨place', hplace, -, hq⟩ := walk_concat_ok_iff.1 hq
  rwa [Except.ok.inj (h.symm.trans hplace)]

/-- Where there are the same folders and perhaps others, a path leads where it leads without
    these. -/
theorem walk_ok_of_folders {t t' : Tree} {pieces : List String} {start q : Place}
    (h : ∀ place, t.node? place = some .folder → t'.node? place = some .folder)
    (hq : walk t start pieces = .ok q) : walk t' start pieces = .ok q := by
  induction pieces generalizing start with
  | nil => exact hq
  | cons first pieces ih =>
    rcases pieces with _ | ⟨second, pieces⟩
    · exact hq
    · obtain ⟨next, hnext, hnode, hq⟩ := walk_cons_ok_iff.1 hq
      exact walk_cons_ok_iff.2 ⟨next, hnext, h next hnode, ih hq⟩

theorem follow_ok_iff {pieces : List String} :
    f.follow path pieces = .ok place ↔
      path ≠ "" ∧ '\x00' ∉ path.toList ∧ path.utf8ByteSize < pathLimit ∧
        walk f.tree (f.start (.ofText path)) pieces = .ok place := by
  rw [follow]
  by_cases hpath : path = ""
  · subst hpath
    simp
  · by_cases hnull : '\x00' ∈ path.toList
    · simp [hpath, hnull]
    · by_cases hlimit : pathLimit ≤ path.utf8ByteSize
      · simp [hpath, hnull, hlimit, Nat.not_lt.2 hlimit]
      · simp [hpath, hnull, hlimit, Nat.lt_of_not_le hlimit]

/-- Names in a folder are looked for in the same place. -/
theorem start_join_of_isName (f : Files) (h : IsName name) :
    f.start (.ofText (join folder name)) = f.start (.ofText folder) := by
  rw [start, start]
  exact congrArg (fun absolute : Bool => if absolute then [] else f.current)
    (isAbsolute_join_of_isName h)

theorem join_ne_empty (h : IsName name) : join folder name ≠ "" := by
  intro e
  have hpieces : (Path.ofText (join folder name)).pieces = _ := pieces_join_of_isName h
  rw [e] at hpieces
  exact List.append_ne_nil_of_right_ne_nil _ (List.cons_ne_nil name []) hpieces.symm

/-- A name joined to the path of a folder leads to the place right below the folder. -/
theorem eq_of_locate_join (h : IsName name) {q : Place} (hplace : f.locate folder = .ok place)
    (hq : f.locate (join folder name) = .ok q) : q = place ++ [name] := by
  rw [locate, follow_ok_iff] at hplace hq
  obtain ⟨-, -, -, hplace⟩ := hplace
  obtain ⟨-, -, -, hq⟩ := hq
  rw [pieces_join_of_isName h, start_join_of_isName f h] at hq
  exact eq_of_enter h (enter_of_walk hplace hq)

/-- The path with a name in a folder may be used: nothing is too long, and there is no null
    character. -/
def Usable (folder name : String) : Prop :=
  name.utf8ByteSize ≤ nameLimit ∧ '\x00' ∉ (join folder name).toList ∧
    (join folder name).utf8ByteSize < pathLimit

instance (folder name : String) : Decidable (Usable folder name) :=
  inferInstanceAs (Decidable (_ ∧ _ ∧ _))

theorem usable_of (hfolder : '\x00' ∉ folder.toList) (hname : '\x00' ∉ name.toList)
    (hsize : name.utf8ByteSize ≤ nameLimit)
    (hlimit : folder.utf8ByteSize + 1 + name.utf8ByteSize < pathLimit) : Usable folder name := by
  have hslash : "/".utf8ByteSize = 1 := by decide
  refine ⟨hsize, ?_, ?_⟩ <;> rw [join]
  · split_ifs <;> simp [hfolder, hname]
  · split_ifs
    · omega
    · rw [String.utf8ByteSize_append]
      omega
    · rw [String.utf8ByteSize_append, String.utf8ByteSize_append, hslash]
      omega

/-- A path with a name in a folder which may be used leads somewhere. -/
theorem locate_join (h : IsName name) (husable : Usable folder name)
    (hplace : f.locate folder = .ok place) (hfolder : f.tree.node? place = some .folder) :
    f.locate (join folder name) = .ok (place ++ [name]) := by
  obtain ⟨hname, hnull, hlimit⟩ := husable
  have henter : enter place name = .ok (place ++ [name]) := by
    rw [enter, if_neg h.ne_dot, if_neg h.ne_dots, if_pos hname]
  rw [locate, follow_ok_iff] at hplace ⊢
  rw [pieces_join_of_isName h, start_join_of_isName f h]
  exact ⟨join_ne_empty h, hnull, hlimit,
    walk_concat_ok_iff.2 ⟨place, hplace.2.2.2, fun _ => hfolder, henter⟩⟩

/-- What can be read in a folder is listed there. -/
theorem mem_list_of_read (hname : IsName name) {names : List String}
    (hlist : f.list folder = .ok names) (hread : f.read (join folder name) = .ok content) :
    name ∈ names := by
  obtain ⟨place, hplace, -, rfl⟩ := list_ok_iff.1 hlist
  obtain ⟨-, q, hq, hnode⟩ := read_ok_iff.1 hread
  rw [eq_of_locate_join hname hplace hq] at hnode
  exact (Tree.mem_children_iff place name).2 ⟨_, hnode⟩

/-! ## Files with the same folders -/

/-- The same places are folders, seen from the same one. -/
structure SameFolders (f f' : Files) : Prop where
  current : f.current = f'.current
  node? : ∀ place, f.tree.node? place = some .folder ↔ f'.tree.node? place = some .folder

namespace SameFolders

theorem refl (f : Files) : SameFolders f f := ⟨rfl, fun _ => .rfl⟩

theorem symm (h : SameFolders f f') : SameFolders f' f :=
  ⟨h.current.symm, fun place => (h.node? place).symm⟩

theorem trans {f'' : Files} (h : SameFolders f f') (h' : SameFolders f' f'') : SameFolders f f'' :=
  ⟨h.current.trans h'.current, fun place => (h.node? place).trans (h'.node? place)⟩

/-- To write a file changes no folder. -/
theorem of_write (h : f.write path content = .ok f') : SameFolders f f' := by
  obtain ⟨place, -, hnode, rfl⟩ := exists_of_write h
  refine ⟨rfl, fun other => ?_⟩
  rw [Tree.node?_put (Tree.ne_root_of_ne_folder hnode)]
  by_cases hother : other = place
  · subst hother
    rw [if_pos rfl]
    exact ⟨fun e => absurd e hnode, nofun⟩
  · rw [if_neg hother]

theorem walk_ok (h : SameFolders f f') {start q : Place} {pieces : List String}
    (hq : walk f.tree start pieces = .ok q) : walk f'.tree start pieces = .ok q :=
  walk_ok_of_folders (fun place => (h.node? place).1) hq

/-- With the same folders, a path leads to the same place. -/
theorem locate_ok_iff (h : SameFolders f f') :
    f.locate path = .ok place ↔ f'.locate path = .ok place := by
  have hstart : f.start (.ofText path) = f'.start (.ofText path) := by
    rw [start, start, h.current]
  rw [locate, locate, follow_ok_iff, follow_ok_iff, hstart]
  exact and_congr_right fun _ => and_congr_right fun _ => and_congr_right fun _ =>
    ⟨h.walk_ok, h.symm.walk_ok⟩

end SameFolders

/-! ## Names which can be written to -/

/-- A folder takes a file with a name: the path with it leads to the place right below the folder,
    where there is no other folder. -/
structure Takes (f : Files) (folder : String) (place : Place) (name : String) : Prop where
  isName : IsName name
  locate : f.locate (join folder name) = .ok (place ++ [name])
  isFolder : f.tree.node? place = some .folder
  free : f.tree.node? (place ++ [name]) ≠ some .folder

namespace Takes

variable {folder name : String}

theorem write_eq (h : f.Takes folder place name) (content : Content) :
    f.write (join folder name) content =
      .ok { f with tree := f.tree.put (place ++ [name]) (.file content) } := by
  rw [write, endsInSlash_join_of_isName h.isName, if_neg Bool.false_ne_true]
  refine bind_ok_iff.2 ⟨_, h.locate, ?_⟩
  dsimp only
  rw [if_neg fun e => h.free (beq_iff_eq.1 e), List.dropLast_concat, h.isFolder]
  rfl

/-- With the same folders, the same names are taken. -/
theorem of_sameFolders (h : f.Takes folder place name) (hsame : SameFolders f f') :
    f'.Takes folder place name where
  isName := h.isName
  locate := hsame.locate_ok_iff.1 h.locate
  isFolder := (hsame.node? place).1 h.isFolder
  free := fun e => h.free ((hsame.node? _).2 e)

end Takes

end Operations

end Files

end CapacityExpansion
