import CapacityExpansion.Files.Records
import CapacityExpansion.Proofs.Files.Filling

/-!
# Files which grow

To create folders, and to write files where nothing was, changes nothing that there
is. So what a path leads to is still there afterwards, and whoever has read some files
reads the same again. But a path which led nowhere may now lead to something: to one of
the new folders, or to one of the new files.

* `Tree.Rooted`: everything is in a folder;
* `Grows`: what is new are folders, and files at some places;
* `Grows.createFolders`, `Grows.write_new`: the operations;
* `Grows.read`: what could be read can be read;
* `Grows.exists_of_doesExist_join`: what a name in a folder leads to if it is new;
* `SameAt`, `Grows.sameAt_join`: the same can be read under a path.
-/

namespace CapacityExpansion

namespace Files

variable {f f' g : Files} {added : List Place} {place : Place} {path folder name : String}
  {content : Content}

/-! ## Trees in which everything is in a folder -/

/-- Everything is in a folder. -/
def Tree.Rooted (t : Tree) : Prop := ∀ place ∈ t.nodes.keys, t.node? place.dropLast = some .folder

instance (t : Tree) : Decidable t.Rooted :=
  inferInstanceAs (Decidable (∀ place ∈ t.nodes.keys, t.node? place.dropLast = some .folder))

/-- Below a place with nothing there is nothing. -/
theorem Tree.Rooted.node?_append {t : Tree} (h : t.Rooted) (hplace : t.node? place = none)
    (name : String) : t.node? (place ++ [name]) = none := by
  by_contra hnode
  obtain ⟨node, hnode⟩ := Option.ne_none_iff_exists'.1 hnode
  rw [Tree.node?, if_neg (by simp), ← OrderedMap.mem_entries_iff] at hnode
  have hfolder := h _ (List.mem_map_of_mem hnode)
  rw [List.dropLast_concat, hplace] at hfolder
  cases hfolder

/-- A folder with some files, each with a text. -/
def Tree.fill (t : Tree) (folder : Place) (files : List (String × String)) : Tree :=
  files.foldl (fun t file => t.put (folder ++ [file.1]) (.file (.text file.2))) t

theorem Tree.node?_fill_of_notMem {t : Tree} {folder : Place} {files : List (String × String)}
    (h : name ∉ files.map Prod.fst) :
    (t.fill folder files).node? (folder ++ [name]) = t.node? (folder ++ [name]) := by
  induction files generalizing t with
  | nil => rfl
  | cons file files ih =>
    rw [List.map_cons, List.mem_cons, not_or] at h
    rw [fill, List.foldl_cons, ← fill, ih h.2, node?_put (by simp), if_neg (by simpa using h.1)]

theorem Tree.node?_fill_of_mem {t : Tree} {folder : Place} {files : List (String × String)}
    {text : String} (hnodup : (files.map Prod.fst).Nodup) (h : (name, text) ∈ files) :
    (t.fill folder files).node? (folder ++ [name]) = some (.file (.text text)) := by
  induction files generalizing t with
  | nil => exact absurd h List.not_mem_nil
  | cons file files ih =>
    rw [List.map_cons, List.nodup_cons] at hnodup
    rw [fill, List.foldl_cons, ← fill]
    obtain rfl | h := List.mem_cons.1 h
    · rw [node?_fill_of_notMem hnodup.1, node?_put (by simp), if_pos rfl]
    · exact ih hnodup.2 h

/-! ## Growing -/

/-- What there was is there. What is new are folders, and files at some places. -/
structure Grows (added : List Place) (f f' : Files) : Prop where
  current : f'.current = f.current
  node?_of_ne : ∀ place, f.tree.node? place ≠ none → f'.tree.node? place = f.tree.node? place
  new : ∀ place, f.tree.node? place = none → f'.tree.node? place ≠ none →
    f'.tree.node? place = some .folder ∨ place ∈ added

namespace Grows

theorem refl (added : List Place) (f : Files) : Grows added f f :=
  ⟨rfl, fun _ _ => rfl, fun _ h h' => absurd h h'⟩

theorem trans (h : Grows added f g) (h' : Grows added g f') : Grows added f f' where
  current := h'.current.trans h.current
  node?_of_ne place hplace := by
    rw [h'.node?_of_ne place (h.node?_of_ne place hplace ▸ hplace), h.node?_of_ne place hplace]
  new place hnone hplace := by
    by_cases hmiddle : g.tree.node? place = none
    · exact h'.new place hmiddle hplace
    · rw [h'.node?_of_ne place hmiddle]
      exact h.new place hnone hmiddle

theorem mono {more : List Place} (h : Grows added f f') (hadded : added ⊆ more) :
    Grows more f f' :=
  ⟨h.current, h.node?_of_ne, fun place hnone hplace =>
    (h.new place hnone hplace).imp_right (hadded ·)⟩

/-- Something is put where nothing was. -/
theorem put {node : Node} (hroot : place ≠ []) (hplace : f.tree.node? place = none)
    (hnode : node = .folder ∨ place ∈ added) :
    Grows added f { f with tree := f.tree.put place node } where
  current := rfl
  node?_of_ne other hother := by
    rw [Tree.node?_put hroot, if_neg]
    rintro rfl
    exact hother hplace
  new other hnone hother := by
    rw [Tree.node?_put hroot] at hother ⊢
    split
    · next h =>
      subst h
      exact hnode.imp_left (congrArg some)
    · next h =>
      rw [if_neg h] at hother
      exact absurd hnone hother

/-! ### Folders -/

theorem createAt (h : f.createAt place = .ok f') : Grows added f f' := by
  rw [Files.createAt] at h
  split at h
  · cases h
  · next hplace =>
    split at h
    · cases h
      exact put (Tree.ne_root_of_ne_folder (by rw [hplace]; exact nofun)) hplace (.inl rfl)
    · cases h
    · cases h

theorem createFolder (h : f.createFolder path = .ok f') : Grows added f f' := by
  obtain ⟨place, -, h⟩ := bind_ok_iff.1 h
  exact createAt h

theorem ensureFolder (h : f.ensureFolder path = .ok f') : Grows added f f' := by
  rw [Files.ensureFolder] at h
  split at h
  · split at h
    · cases h
      exact refl added f
    · cases h
  · next created =>
    exact createFolder h

theorem ensureChain (f : Files) (paths : List String) : Grows added f (f.ensureChain paths).1 := by
  induction paths generalizing f with
  | nil => exact refl added f
  | cons path above ih =>
    rw [Files.ensureChain]
    split
    · next hok => exact ensureFolder hok
    · -- The folder is missing: first those above it are created, then the folder itself.
      split
      · next g hchain =>
        have habove : Grows added f g := by simpa [hchain] using ih f
        split
        · next hok => exact habove.trans (ensureFolder hok)
        · exact habove
      · exact ih f
    · exact refl added f

theorem createFolders (f : Files) (path : String) : Grows added f (f.createFolders path).1 := by
  rw [Files.createFolders]
  split
  · exact refl added f
  · exact ensureChain f _

/-- A file is written to a folder where nothing was. -/
theorem write_new (h : Grows added f g) (hrooted : f.tree.Rooted)
    (hfree : f.tree.node? place = none) (hname : IsName name)
    (hplace : g.locate folder = .ok place) (hadded : place ++ [name] ∉ added)
    (hwrite : g.write (join folder name) content = .ok f') :
    Grows (added ++ [place ++ [name]]) f f' := by
  obtain ⟨hnode, rfl⟩ := put_of_write hname hplace hwrite
  have hnone : g.tree.node? (place ++ [name]) = none := by
    by_contra hsome
    exact (h.new _ (hrooted.node?_append hfree name) hsome).elim hnode hadded
  exact (h.mono (List.subset_append_left _ _)).trans (put (Tree.ne_root_of_ne_folder hnode) hnone
    (.inr (List.mem_append_right _ List.mem_cons_self)))

/-! ### Paths -/

theorem walk_ok (h : Grows added f f') {start q : Place} {pieces : List String}
    (hq : walk f.tree start pieces = .ok q) : walk f'.tree start pieces = .ok q :=
  walk_ok_of_folders (fun place hplace =>
    (h.node?_of_ne place (by rw [hplace]; exact nofun)).trans hplace) hq

theorem start_eq (h : Grows added f f') (p : Path) : f'.start p = f.start p := by
  rw [start, start, h.current]

theorem locate (h : Grows added f f') (hplace : f.locate path = .ok place) :
    f'.locate path = .ok place := by
  rw [Files.locate, follow_ok_iff] at hplace ⊢
  rw [h.start_eq]
  exact ⟨hplace.1, hplace.2.1, hplace.2.2.1, h.walk_ok hplace.2.2.2⟩

/-- What a path leads to is still there. -/
theorem find {node : Node} (h : Grows added f f') (hfind : f.find path = .ok (place, node)) :
    f'.find path = .ok (place, node) := by
  obtain ⟨hplace, hnode, hslash⟩ := find_ok_iff.1 hfind
  refine find_ok_iff.2 ⟨h.locate hplace, ?_, hslash⟩
  rw [h.node?_of_ne place (by rw [hnode]; exact nofun), hnode]

theorem read (h : Grows added f f') (hread : f.read path = .ok content) :
    f'.read path = .ok content := by
  rw [Files.read, bind_ok_iff] at hread ⊢
  obtain ⟨⟨place, node⟩, hfind, hread⟩ := hread
  exact ⟨(place, node), h.find hfind, hread⟩

theorem readText (h : Grows added f f') {text : String} (hread : f.readText path = .ok text) :
    f'.readText path = .ok text :=
  readText_ok_iff.2 (h.read (readText_ok_iff.1 hread))

end Grows

/-! ## Names in a folder -/

namespace Grows

variable {other : String} {q : Place}

/-- A name in a folder leads where it has led before, if some other name has led anywhere. -/
theorem locate_of_locate_join (h : Grows added f f') (hname : IsName name) (hother : IsName other)
    (hfolder : f.locate (join folder other) = .ok place)
    (hq : f'.locate (join folder name) = .ok q) :
    f.locate (join folder name) = .ok q ∧ ∃ folderPlace, q = folderPlace ++ [name] := by
  rw [Files.locate, follow_ok_iff, pieces_join_of_isName hother, start_join_of_isName f hother,
    walk_concat_ok_iff] at hfolder
  rw [Files.locate, follow_ok_iff, pieces_join_of_isName hname, start_join_of_isName f' hname,
    h.start_eq, walk_concat_ok_iff] at hq
  obtain ⟨-, -, -, p, hp, hfolder, -⟩ := hfolder
  obtain ⟨hne, hnull, hlimit, p', hp', -, henter⟩ := hq
  obtain rfl := Except.ok.inj ((h.walk_ok hp).symm.trans hp')
  refine ⟨?_, p, eq_of_enter hname henter⟩
  rw [Files.locate, follow_ok_iff, pieces_join_of_isName hname, start_join_of_isName f hname,
    walk_concat_ok_iff]
  exact ⟨hne, hnull, hlimit, p, hp, hfolder, henter⟩

/-- A name in a folder which stands for nothing, and then for something, stands for a folder or for
    one of the new files. -/
theorem exists_of_doesExist_join (h : Grows added f f') (hname : IsName name)
    (hother : IsName other) (hfolder : f.locate (join folder other) = .ok place)
    (hbefore : f.doesExist (join folder name) = false)
    (hafter : f'.doesExist (join folder name) = true) :
    ∃ q node, f'.find (join folder name) = .ok (q, node) ∧ (node = .folder ∨
      q ∈ added ∧ ∃ folderPlace, q = folderPlace ++ [name]) := by
  rw [Files.doesExist] at hbefore hafter
  rcases hfind : f'.find (join folder name) with problem | ⟨q, node⟩
  · rw [hfind] at hafter
    cases hafter
  · obtain ⟨hq, hnode, -⟩ := find_ok_iff.1 hfind
    obtain ⟨hq, hlast⟩ := h.locate_of_locate_join hname hother hfolder hq
    have hnone : f.tree.node? q = none := by
      by_contra hsome
      obtain ⟨old, hold⟩ := Option.ne_none_iff_exists'.1 hsome
      have hslash : (Path.ofText (join folder name)).endsInSlash = false :=
        endsInSlash_join_of_isName hname
      rw [find_ok_iff.2 ⟨hq, hold, by rw [hslash]; exact nofun⟩] at hbefore
      cases hbefore
    refine ⟨q, node, rfl, ?_⟩
    rcases h.new q hnone (by rw [hnode]; exact nofun) with hnew | hnew
    · exact .inl (Option.some.inj (hnode.symm.trans hnew))
    · exact .inr ⟨hnew, hlast⟩

end Grows

/-! ## Paths which say the same -/

/-- The same can be read under a path in some files as in other ones: the path stands for the same,
    or for nothing to start with, and then for nothing or for a folder. -/
inductive SameAt (f f' : Files) (path : String) : Prop
  | found (h : f'.find path = f.find path)
  | missing (h : f.doesExist path = false) (h' : f'.doesExist path = false)
  | folder (h : f.doesExist path = false) (place : Place) (h' : f'.find path = .ok (place, .folder))

/-- A name in a folder which is none of those of the new files says the same. -/
theorem Grows.sameAt_join {other : String} (h : Grows added f f') (hname : IsName name)
    (hother : IsName other) (hfolder : f.locate (join folder other) = .ok place)
    (hadded : ∀ folderPlace, folderPlace ++ [name] ∉ added) : SameAt f f' (join folder name) := by
  rcases hfind : f.find (join folder name) with problem | found
  · have hmissing : f.doesExist (join folder name) = false := by
      rw [doesExist, hfind]
      rfl
    cases hafter : f'.doesExist (join folder name) with
    | false => exact .missing hmissing hafter
    | true =>
      obtain ⟨q, node, hfind', rfl | ⟨hmem, folderPlace, rfl⟩⟩ :=
        h.exists_of_doesExist_join hname hother hfolder hmissing hafter
      · exact .folder hmissing q hfind'
      · exact absurd hmem (hadded folderPlace)
  · exact .found ((h.find hfind).trans hfind.symm)

theorem doesExist_of_find {found : Place × Node} (h : f.find path = .ok found) :
    f.doesExist path = true := by
  rw [doesExist, h]
  rfl

theorem readAny_of_read {α : Type} {read : Csv.Table → Except Csv.Problem (List α)}
    (h : f.read path = .ok content) : f.readAny read path =
      Attempt.within (Failure.reading path) (Attempt.ofTable (read content.table)) := by
  rw [Files.read, bind_ok_iff] at h
  obtain ⟨⟨place, node⟩, hfind, h⟩ := h
  cases node with
  | file c =>
    cases h
    rw [Files.readAny, if_pos (doesExist_of_find hfind), readTable, hfind]
    rfl
  | folder => cases h

/-- A folder has no records. -/
theorem readAny_of_folder {schema : Csv.Schema} (h : f.find path = .ok (place, .folder)) :
    f.readAny (Csv.readRows schema) path = .ok [] := by
  rw [Files.readAny, if_pos (doesExist_of_find h), readTable, h]
  rfl

theorem readAny_of_missing {α : Type} {read : Csv.Table → Except Csv.Problem (List α)}
    (h : f.doesExist path = false) : f.readAny read path = .ok [] := by
  rw [Files.readAny, h]
  rfl

theorem SameAt.readAny (h : SameAt f f' path) (schema : Csv.Schema) :
    f'.readAny (Csv.readRows schema) path = f.readAny (Csv.readRows schema) path := by
  cases h with
  | found h => rw [Files.readAny, Files.readAny, doesExist, doesExist, readTable, readTable, h]
  | missing h h' => rw [readAny_of_missing h, readAny_of_missing h']
  | folder h place h' => rw [readAny_of_missing h, readAny_of_folder h']

/-- A name under which there is nothing in a folder stands for nothing. -/
theorem doesExist_join_eq_false (hname : IsName name) (hfolder : f.locate folder = .ok place)
    (hnone : f.tree.node? (place ++ [name]) = none) : f.doesExist (join folder name) = false := by
  rw [doesExist]
  rcases hfind : f.find (join folder name) with problem | ⟨q, node⟩
  · rfl
  · obtain ⟨hq, hnode, -⟩ := find_ok_iff.1 hfind
    rw [eq_of_locate_join hname hfolder hq, hnone] at hnode
    cases hnode

end Files

end CapacityExpansion
