import CapacityExpansion.Proofs.Files.Growing
import CapacityExpansion.Proofs.Files.Lexical

/-!
# Files outside of a folder

To create folders changes nothing that there is. To write a file, or to remove a folder,
changes what is at the place which its path leads to, or below; so if the path leads, lexically,
strictly below some folder, then nothing is changed outside of that folder.

* `Spares`: nothing that there is outside of a folder is changed;
* `Spares.write`, `Spares.removeFolder`, `Grows.spares`: the operations;
* `Sparing`: an action after which this is so, whether or not it succeeds;
* `Sparing.bind`: actions in a row.
-/

namespace CapacityExpansion

namespace Files

/-! ## Trees without a folder -/

namespace Tree

variable {t t' : Tree} {place other : Place}

theorem node?_eq_of_entries
    (h : ∀ node, (other, node) ∈ t'.nodes.entries ↔ (other, node) ∈ t.nodes.entries) :
    t'.node? other = t.node? other := by
  rw [node?, node?]
  split
  · rfl
  · exact Option.ext fun node => by
      rw [← OrderedMap.mem_entries_iff, ← OrderedMap.mem_entries_iff, h]

/-- To clear a folder removes nothing but what is below it. -/
theorem node?_clear (h : ¬place <+: other) : (t.clear place).node? other = t.node? other := by
  refine node?_eq_of_entries fun node => ?_
  rw [clear, List.mem_filter, Bool.not_eq_true', Bool.and_eq_false_iff, ← Bool.not_eq_true,
    List.isPrefixOf_iff_prefix]
  exact and_iff_left (.inl h)

theorem node?_remove (h : ¬place <+: other) : (t.remove place).node? other = t.node? other := by
  refine node?_eq_of_entries fun node => ?_
  rw [remove, List.mem_filter, Bool.not_eq_true', ← Bool.not_eq_true, List.isPrefixOf_iff_prefix]
  exact and_iff_left h

end Tree

variable {f f' g : Files} {added : List Place} {folder place : Place} {base : Lexical}
  {path : String} {content : Content}

/-! ## What is outside of a folder -/

/-- What there is, but for what is below a folder, is left as it is. -/
structure Spares (folder : Place) (f f' : Files) : Prop where
  current : f'.current = f.current
  node?_eq : ∀ place, f.tree.node? place ≠ none → ¬(folder <+: place ∧ folder ≠ place) →
    f'.tree.node? place = f.tree.node? place

namespace Spares

theorem refl (folder : Place) (f : Files) : Spares folder f f := ⟨rfl, fun _ _ _ => rfl⟩

theorem trans (h : Spares folder f g) (h' : Spares folder g f') : Spares folder f f' where
  current := h'.current.trans h.current
  node?_eq place hplace houtside := by
    have hmiddle := h.node?_eq place hplace houtside
    rw [h'.node?_eq place (hmiddle ▸ hplace) houtside, hmiddle]

/-- A tree is spared which is changed at and below a place in a folder only. -/
theorem of_node?_eq {t : Tree} {rest : Place} (hrest : rest ≠ [])
    (h : ∀ place, ¬folder ++ rest <+: place → t.node? place = f.tree.node? place) :
    Spares folder f { f with tree := t } where
  current := rfl
  node?_eq place _ houtside := by
    refine h place fun hprefix => houtside ⟨(List.prefix_append folder rest).trans hprefix, ?_⟩
    rintro rfl
    have hlength := hprefix.length_le
    rw [List.length_append] at hlength
    exact hrest (List.length_eq_zero_iff.1 (by omega))

end Spares

/-- Where files only grow, everything is spared. -/
theorem Grows.spares (h : Grows added f f') (folder : Place) : Spares folder f f' :=
  ⟨h.current, fun place hplace _ => h.node?_of_ne place hplace⟩

/-! ## Operations below a folder -/

section Below

variable (hpath : (Lexical.ofText path).Below base)

include hpath

/-- A path which leads strictly below a folder leads to a place below that of the folder. -/
theorem exists_append_of_locate (h : f.locate path = .ok place) :
    ∃ rest ≠ [], place = base.place f.current ++ rest := by
  rw [place_eq_of_locate h]
  exact hpath.exists_place_eq_append f.current

theorem Spares.write (h : f.write path content = .ok f') :
    Spares (base.place f.current) f f' := by
  obtain ⟨place, hplace, hnode, rfl⟩ := exists_of_write h
  obtain ⟨rest, hrest, rfl⟩ := exists_append_of_locate hpath hplace
  refine of_node?_eq hrest fun other hother => ?_
  rw [Tree.node?_put (Tree.ne_root_of_ne_folder hnode), if_neg]
  rintro rfl
  exact hother List.prefix_rfl

theorem Spares.removeFolder : Spares (base.place f.current) f (f.removeFolder path).1 := by
  rw [Files.removeFolder]
  split
  · exact refl _ f
  · exact refl _ f
  · next place hfind =>
    obtain ⟨hplace, -, -⟩ := find_ok_iff.1 hfind
    obtain ⟨rest, hrest, rfl⟩ := exists_append_of_locate hpath hplace
    have hclear : Spares (base.place f.current) f
        { f with tree := f.tree.clear (base.place f.current ++ rest) } :=
      of_node?_eq hrest fun other hother => Tree.node?_clear hother
    -- The folder itself is removed, unless its path does not allow that.
    rw [removeEmpty]
    split
    · exact hclear
    · exact hclear
    · exact hclear
    · exact hclear
    · refine of_node?_eq hrest fun other hother => ?_
      rw [Tree.node?_remove hother, Tree.node?_clear hother]

end Below

end Files

/-! ## Actions -/

/-- An action spares what is outside of a folder in the files of its state, whether or not it
    succeeds. -/
def Sparing {σ α : Type} (files : σ → Files) (base : Files.Lexical)
    (action : ExceptT Failure (StateM σ) α) : Prop :=
  ∀ s, Files.Spares (base.place (files s).current) (files s) (files (action s).2)

namespace Sparing

variable {σ α β : Type} {files : σ → Files} {base : Files.Lexical} {path : String}
  {action : ExceptT Failure (StateM σ) α} {next : α → ExceptT Failure (StateM σ) β}

theorem pure (a : α) : Sparing files base (pure a) := fun s => .refl _ (files s)

theorem throw (failure : Failure) :
    Sparing files base (throw failure : ExceptT Failure (StateM σ) α) := fun s => .refl _ (files s)

theorem bind (h : Sparing files base action) (h' : ∀ a, Sparing files base (next a)) :
    Sparing files base (action >>= next) := by
  intro s
  have hfirst := h s
  change Files.Spares _ _ (files (ExceptT.bindCont next (action s).1 (action s).2).2)
  rcases hrun : action s with ⟨failure | a, middle⟩
  · rw [hrun] at hfirst
    exact hfirst
  · rw [hrun] at hfirst
    have hnext := h' a middle
    rw [hfirst.current] at hnext
    exact hfirst.trans hnext

theorem forM {one : α → ExceptT Failure (StateM σ) PUnit} {l : List α}
    (h : ∀ a ∈ l, Sparing files base (one a)) : Sparing files base (l.forM one) := by
  induction l with
  | nil => exact pure _
  | cons a l ih =>
    rw [List.forall_mem_cons] at h
    exact h.1.bind fun _ => ih h.2

/-! ### Actions on files -/

theorem look (attempt : Files → Attempt α) : Sparing id base (FileAction.look attempt) :=
  fun f => .refl _ f

theorem within {action : FileAction α} (h : Sparing id base action) (context : String) :
    Sparing id base (FileAction.within context action) := h

theorem writeText (h : (Files.Lexical.ofText path).Below base) (text : String) :
    Sparing id base (FileAction.writeText path text) := by
  intro f
  rw [FileAction.writeText, FileAction.change]
  split
  · next changed hwrite => exact .write h hwrite
  · exact .refl _ f

theorem removeFolder (h : (Files.Lexical.ofText path).Below base) :
    Sparing id base (FileAction.removeFolder path) := fun _ => .removeFolder h

theorem createFolders (path : String) : Sparing id base (FileAction.createFolders path) := by
  intro f
  have hgrows : Files.Grows [] f (f.createFolders path).1 := .createFolders f path
  exact hgrows.spares _

end Sparing

end CapacityExpansion
