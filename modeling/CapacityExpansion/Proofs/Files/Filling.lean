import CapacityExpansion.Files.Action
import CapacityExpansion.Proofs.Files.Places

/-!
# Filling a folder

An action writes files into a folder, one after the other and perhaps several times
under the same name. In the end, there is under each name what was written last, and
everything outside of the folder is as it was; so are the files in another folder,
whichever of the two may be in the other one.

* `FileAction.Runs`: an action succeeds;
* `Fills`: some files are written into a folder, and nothing else is changed;
* `Fills.read_last`: what was written last under a name is there;
* `Fills.read_join_iff`: the files in another folder are as they were.
-/

namespace CapacityExpansion

namespace FileAction

variable {α β : Type} {f f' : Files}

/-- An action succeeds with a result, and leaves some files behind. -/
def Runs (action : FileAction α) (f : Files) (a : α) (f' : Files) : Prop := action f = (.ok a, f')

theorem runs_of_isOk {action : FileAction Unit} (h : (action f).1.isOk) :
    action.Runs f () (action f).2 := by
  obtain ⟨_, hok⟩ := exists_of_isOk h
  exact Prod.ext hok rfl

theorem pure_runs_iff {a b : α} : (pure a : FileAction α).Runs f b f' ↔ a = b ∧ f = f' := by
  rw [Runs, show (pure a : FileAction α) f = (.ok a, f) from rfl, Prod.mk.injEq, Except.ok.injEq]

/-- Actions in a row succeed if each one does on what those before it leave behind. -/
theorem bind_runs_iff {action : FileAction α} {next : α → FileAction β} {b : β} :
    (action >>= next).Runs f b f' ↔ ∃ a g, action.Runs f a g ∧ (next a).Runs g b f' := by
  have hbind : (action >>= next) f = ExceptT.bindCont next (action f).1 (action f).2 := rfl
  rw [Runs, hbind]
  simp only [Runs]
  rcases action f with ⟨failure | a, g⟩
  · constructor
    · exact fun e => nomatch e
    · rintro ⟨_, _, e, -⟩
      cases e
  · constructor
    · exact fun h => ⟨a, g, rfl, h⟩
    · rintro ⟨_, _, e, h⟩
      cases e
      exact h

theorem look_runs_iff {attempt : Files → Attempt α} {a : α} :
    (look attempt).Runs f a f' ↔ attempt f = .ok a ∧ f = f' := by
  rw [Runs, look, Prod.mk.injEq]

theorem ask_runs_iff {query : Files → Except Files.Problem α} {a : α} :
    (ask query).Runs f a f' ↔ query f = .ok a ∧ f = f' := by
  rw [ask, look_runs_iff, Attempt.ofFiles, mapError_ok_iff]

theorem change_runs_iff {change : Files → Except Files.Problem Files} :
    (FileAction.change change).Runs f () f' ↔ change f = .ok f' := by
  rw [Runs, FileAction.change]
  rcases change f with problem | g
  · exact ⟨fun e => (nomatch e), fun e => (nomatch e)⟩
  · exact ⟨fun e => congrArg Except.ok (Prod.mk.inj e).2, fun e => by rw [Except.ok.inj e]⟩

theorem within_runs_iff {context : String} {action : FileAction α} {a : α} :
    (within context action).Runs f a f' ↔ action.Runs f a f' := by
  rw [Runs, Runs, within]
  rcases action f with ⟨result, g⟩
  rw [Prod.mk.injEq, Prod.mk.injEq, Attempt.within, mapError_ok_iff]

end FileAction

namespace Files

/-! ## Files written into a folder -/

/-- Some files are written into a folder, one after the other, each one under its name. -/
inductive Fills (folder : String) : Files → List (String × Content) → Files → Prop
  | nil (f : Files) : Fills folder f [] f
  | cons {f g f' : Files} {name : String} {content : Content} {rest : List (String × Content)} :
    IsName name → f.write (join folder name) content = .ok g → Fills folder g rest f' →
      Fills folder f ((name, content) :: rest) f'

/-- What is written under a name in a folder is at the place of this name. -/
theorem put_of_write {f f' : Files} {folder name : String} {place : Place} {content : Content}
    (hname : IsName name) (hplace : f.locate folder = .ok place)
    (h : f.write (join folder name) content = .ok f') :
    f.tree.node? (place ++ [name]) ≠ some .folder ∧
      f' = { f with tree := f.tree.put (place ++ [name]) (.file content) } := by
  obtain ⟨q, hq, hnode, rfl⟩ := exists_of_write h
  rw [eq_of_locate_join hname hplace hq] at hnode ⊢
  exact ⟨hnode, rfl⟩

namespace Fills

variable {folder : String} {place : Place} {f g f' : Files} {written more : List (String × Content)}

theorem singleton {name : String} {content : Content} (hname : IsName name)
    (h : f.write (join folder name) content = .ok f') : Fills folder f [(name, content)] f' :=
  .cons hname h (.nil f')

theorem append (h : Fills folder f written g) (h' : Fills folder g more f') :
    Fills folder f (written ++ more) f' := by
  induction h with
  | nil => exact h'
  | cons hname hwrite _ ih => exact .cons hname hwrite (ih h')

theorem sameFolders (h : Fills folder f written f') : SameFolders f f' := by
  induction h with
  | nil f => exact .refl f
  | cons _ hwrite _ ih => exact (SameFolders.of_write hwrite).trans ih

/-- What is at another place than those of the written files is as it was. -/
theorem node?_of_ne (h : Fills folder f written f') (hplace : f.locate folder = .ok place)
    {other : Place} (hother : ∀ file ∈ written, other ≠ place ++ [file.1]) :
    f'.tree.node? other = f.tree.node? other := by
  induction h with
  | nil => rfl
  | cons hname hwrite _ ih =>
    rw [List.forall_mem_cons] at hother
    rw [ih ((SameFolders.of_write hwrite).locate_ok_iff.1 hplace) hother.2]
    obtain ⟨hnode, rfl⟩ := put_of_write hname hplace hwrite
    rw [Tree.node?_put (Tree.ne_root_of_ne_folder hnode), if_neg hother.1]

/-- Under a name there is what was written last. -/
theorem read_last {name : String} {content : Content} (hplace : f.locate folder = .ok place)
    (h : Fills folder f (written ++ (name, content) :: more) f')
    (hmore : ∀ file ∈ more, file.1 ≠ name) : f'.read (join folder name) = .ok content := by
  induction written generalizing f with
  | nil =>
    obtain _ | ⟨hname, hwrite, hrest⟩ := h
    obtain ⟨q, hq, -⟩ := exists_of_write hwrite
    have hsame := SameFolders.of_write hwrite
    -- All that is written afterwards goes to other places.
    have hother : ∀ file ∈ more, place ++ [name] ≠ place ++ [file.1] := fun file hfile e =>
      hmore file hfile (List.singleton_inj.1 (List.append_cancel_left e)).symm
    refine read_ok_iff.2 ⟨endsInSlash_join_of_isName hname, q,
      (hsame.trans hrest.sameFolders).locate_ok_iff.1 hq, ?_⟩
    rw [eq_of_locate_join hname hplace hq,
      hrest.node?_of_ne (hsame.locate_ok_iff.1 hplace) hother]
    obtain ⟨hnode, rfl⟩ := put_of_write hname hplace hwrite
    rw [Tree.node?_put (Tree.ne_root_of_ne_folder hnode), if_pos rfl]
  | cons file written ih =>
    obtain _ | ⟨-, hwrite, hrest⟩ := h
    exact ih ((SameFolders.of_write hwrite).locate_ok_iff.1 hplace) hrest

/-- If all that was written under a name is the same, then this is there. -/
theorem read_of_forall {name : String} {content : Content} (hplace : f.locate folder = .ok place)
    (h : Fills folder f written f') (hname : ∃ file ∈ written, file.1 = name)
    (hcontent : ∀ file ∈ written, file.1 = name → file.2 = content) :
    f'.read (join folder name) = .ok content := by
  induction written generalizing f with
  | nil => exact absurd hname (by simp)
  | cons file written ih =>
    rw [List.forall_mem_cons] at hcontent
    by_cases hlater : ∃ file ∈ written, file.1 = name
    · obtain _ | ⟨-, hwrite, hrest⟩ := h
      exact ih ((SameFolders.of_write hwrite).locate_ok_iff.1 hplace) hrest hlater hcontent.2
    · obtain ⟨first, content'⟩ := file
      obtain rfl := ((List.exists_mem_cons_iff ..).1 hname).resolve_right hlater
      obtain rfl := hcontent.1 rfl
      rw [← List.nil_append ((first, content') :: written)] at h
      exact read_last hplace h fun file hfile e => hlater ⟨file, hfile, e⟩

/-- The files in another folder are as they were. -/
theorem read_join_iff (h : Fills folder f written f') (hplace : f.locate folder = .ok place)
    {other name : String} {place' : Place} {content : Content}
    (hother : f.locate other = .ok place') (hne : place' ≠ place) (hname : IsName name) :
    f'.read (join other name) = .ok content ↔ f.read (join other name) = .ok content := by
  rw [read_ok_iff, read_ok_iff]
  simp only [← h.sameFolders.locate_ok_iff]
  refine and_congr_right fun _ => exists_congr fun q => and_congr_right fun hq => ?_
  rw [eq_of_locate_join hname hother hq, h.node?_of_ne hplace]
  exact fun file _ e => hne (List.append_inj_left' e rfl)

/-- So is what is listed in another folder. -/
theorem mem_children_iff (h : Fills folder f written f') (hplace : f.locate folder = .ok place)
    {place' : Place} (hne : place' ≠ place) (name : String) :
    name ∈ f'.tree.children place' ↔ name ∈ f.tree.children place' := by
  rw [Tree.mem_children_iff, Tree.mem_children_iff, h.node?_of_ne hplace]
  exact fun file _ e => hne (List.append_inj_left' e rfl)

end Fills

end Files

end CapacityExpansion
