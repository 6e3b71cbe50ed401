import CapacityExpansion.Proofs.Data.Failure
import CapacityExpansion.Proofs.Data.Lookup
import CapacityExpansion.Store.Loading

/-!
# Stores which are loaded

What holds of every store which is loaded from a folder, whatever the folder has:
it is *made of rows*, which have been accepted one after the other. So the
operational characteristics of a fragment are kept under the project they are
about, since that is where a row of the file puts them, and so are fragments
registered under their identifiers. An entity which is assigned zones has at
least one, since there is a row for it.

* `Store.MadeOfRows`, `Store.madeOfRows_of_load`: loaded stores are made of rows;
* `Store.KeyedByProject`: characteristics are kept under their projects;
* `Store.KeyedById`: fragments are registered under their identifiers;
* `Store.Zoned`: entities which are assigned zones have one.
-/

namespace CapacityExpansion

theorem ProjectCategory.mem_all (category : ProjectCategory) : category ∈ all := by
  cases category <;> decide

/-- Fragments are registered under their identifiers. -/
def FragmentsKeyed (registry : OrderedMap Nat Fragment) : Prop :=
  ∀ entry ∈ registry.entries, entry.2.id = entry.1

/-- Operational characteristics are kept under the projects they are about. -/
def CharsKeyed (chars : OrderedMap EntityName OperationalChars) : Prop :=
  ∀ entry ∈ chars.entries, entry.2.project = entry.1

/-- Entities which are assigned zones have at least one. -/
def ZonesGiven (zones : ZoneMap) : Prop := ∀ entry ∈ zones.entries, entry.2.elements ≠ []

namespace Store

/-- All fragments of the store are registered under their identifiers. -/
def KeyedById (store : Store) : Prop :=
  ∀ registry ∈ store.fragments.entries, FragmentsKeyed registry.2

/-- All operational characteristics of the store are kept under the projects they are about. -/
def KeyedByProject (store : Store) : Prop :=
  ∀ fragment ∈ store.operationalChars.entries, CharsKeyed fragment.2

/-- The entities which any fragment of the store assigns zones to have at least one. -/
def Zoned (store : Store) : Prop := ∀ fragment ∈ store.zones.entries, ZonesGiven fragment.2

/-- All parts of the store but its temporal tables are what some rows make. -/
structure MadeOfRows (store : Store) : Prop where
  fragments : ∀ registry ∈ store.fragments.entries, ∃ rows, fragmentsOfRows rows = .ok registry.2
  members : ∃ rows, membersOfRows rows = .ok store.members
  zones : ∃ rows, zonesOfRows rows = .ok store.zones
  operationalChars : ∃ rows, charsOfRows rows = .ok store.operationalChars
  projectFragments : ∀ registry ∈ store.projectFragments.entries,
    ∃ rows, projectFragmentsOfRows rows = .ok registry.2
  heatRateCurves : ∃ rows, curvesOfRows rows = .ok store.heatRateCurves

/-! ## What rows make -/

section OfRows

variable {all all' : OrderedMap Nat (OrderedMap EntityName OperationalChars)}
  {zones zones' : OrderedMap Selector ZoneMap}

/-- A further fragment is registered under its identifier. -/
theorem fragmentsKeyed_of_addFragment {registry registry' : OrderedMap Nat Fragment}
    {fragment : Fragment} (h : FragmentsKeyed registry)
    (hok : addFragment registry fragment = .ok registry') : FragmentsKeyed registry' := by
  obtain ⟨-, -, rfl⟩ := addFragment_ok_iff.1 hok
  exact OrderedMap.forall_entries_insert (fun id (fragment : Fragment) => fragment.id = id) h rfl

theorem fragmentsKeyed_of_fragmentsOfRows {registry : OrderedMap Nat Fragment}
    {rows : List Fragment} (hok : fragmentsOfRows rows = .ok registry) : FragmentsKeyed registry :=
  foldlM_invariant FragmentsKeyed (fun _ h _ _ _ => fragmentsKeyed_of_addFragment h)
    OrderedMap.forall_entries_empty hok

/-- A further row keeps its characteristics under its project. -/
theorem forall_charsKeyed_of_addChars {row : CharsRow}
    (h : ∀ fragment ∈ all.entries, CharsKeyed fragment.2) (hok : addChars all row = .ok all') :
    ∀ fragment ∈ all'.entries, CharsKeyed fragment.2 := by
  simp only [addChars, OrderedMap.insertNew, seq_ok_iff, pure_ok_iff] at hok
  obtain ⟨-, -, rfl⟩ := hok
  have hkeyed : CharsKeyed ((all.get? row.fragment).getD ∅) :=
    OrderedMap.forall_getD h OrderedMap.forall_entries_empty _
  have hnew : CharsKeyed (((all.get? row.fragment).getD ∅).insert row.chars.project row.chars) :=
    OrderedMap.forall_entries_insert (fun project (chars : OperationalChars) =>
      chars.project = project) hkeyed rfl
  exact OrderedMap.forall_entries_insert (fun _ map => CharsKeyed map) h hnew

theorem forall_charsKeyed_of_charsOfRows {rows : List CharsRow} (hok : charsOfRows rows = .ok all) :
    ∀ fragment ∈ all.entries, CharsKeyed fragment.2 :=
  foldlM_invariant (fun all => ∀ fragment ∈ all.entries, CharsKeyed fragment.2)
    (fun _ h _ _ _ => forall_charsKeyed_of_addChars h)
    OrderedMap.forall_entries_empty hok

/-- A further row gives its entity a zone. -/
theorem forall_zonesGiven_of_addZone {row : ZoneRow}
    (h : ∀ fragment ∈ zones.entries, ZonesGiven fragment.2) (hok : addZone zones row = .ok zones') :
    ∀ fragment ∈ zones'.entries, ZonesGiven fragment.2 := by
  simp only [addZone, seq_ok_iff, pure_ok_iff] at hok
  obtain ⟨-, -, rfl⟩ := hok
  have hgiven : ZonesGiven ((zones.get? row.selector).getD ∅) :=
    OrderedMap.forall_getD h OrderedMap.forall_entries_empty _
  refine OrderedMap.forall_entries_insert (fun _ map => ZonesGiven map) h ?_
  refine OrderedMap.forall_entries_insert (fun _ (set : OrderedSet EntityName) => set.elements ≠ [])
    hgiven ?_
  exact List.ne_nil_of_mem (OrderedSet.mem_insert.2 (.inr rfl))

theorem forall_zonesGiven_of_zonesOfRows {rows : List ZoneRow} (hok : zonesOfRows rows = .ok zones) :
    ∀ fragment ∈ zones.entries, ZonesGiven fragment.2 :=
  foldlM_invariant (fun zones => ∀ fragment ∈ zones.entries, ZonesGiven fragment.2)
    (fun _ h _ _ _ => forall_zonesGiven_of_addZone h)
    OrderedMap.forall_entries_empty hok

end OfRows

namespace MadeOfRows

variable {store : Store} (h : store.MadeOfRows)
include h

/-- What is made of rows has operational characteristics under the projects they are about. -/
theorem keyedByProject : store.KeyedByProject := by
  obtain ⟨rows, hrows⟩ := h.operationalChars
  exact forall_charsKeyed_of_charsOfRows hrows

/-- What is made of rows has fragments under their identifiers. -/
theorem keyedById : store.KeyedById := by
  intro registry hregistry
  obtain ⟨rows, hrows⟩ := h.fragments registry hregistry
  exact fragmentsKeyed_of_fragmentsOfRows hrows

theorem zoned : store.Zoned := by
  obtain ⟨rows, hrows⟩ := h.zones
  exact forall_zonesGiven_of_zonesOfRows hrows

end MadeOfRows

/-! ## What is loaded -/

/-- What is loaded from a file is made of rows. -/
theorem exists_rows_of_loadFile {α β : Type} {files : Files} {folder name : String}
    {schema : Csv.Schema} {ofRow : Csv.Row schema.columns → α}
    {ofRows : List α → Except RowProblem β} {b : β}
    (hok : loadFile files folder name schema ofRow ofRows = .ok b) :
    ∃ rows, ofRows rows = .ok b := by
  simp only [loadFile, Attempt.within, bind_ok_iff, mapError_ok_iff] at hok
  obtain ⟨rows, -, hok⟩ := hok
  exact ⟨rows.map ofRow, hok⟩

/-- What holds of each registry which is loaded holds of all which are kept. -/
theorem forall_registry_of_foldlM {κ ι : Type} [DecidableEq κ]
    {P : OrderedMap ι Fragment → Prop} {loadOne : κ → Attempt (OrderedMap ι Fragment)}
    {keys : List κ} {registries : OrderedMap κ (OrderedMap ι Fragment)}
    (hP : ∀ key registry, loadOne key = .ok registry → P registry)
    (hok : keys.foldlM (fun (registries : OrderedMap κ (OrderedMap ι Fragment)) key => do
      let registry ← loadOne key
      return if registry.isEmpty then registries else registries.insert key registry) ∅ =
        .ok registries) : ∀ registry ∈ registries.entries, P registry.2 := by
  refine foldlM_invariant (fun registries => ∀ registry ∈ registries.entries, P registry.2)
    (fun before hbefore key _ after hafter => ?_) OrderedMap.forall_entries_empty hok
  rw [bind_ok_iff] at hafter
  obtain ⟨registry, hregistry, hafter⟩ := hafter
  rw [pure_ok_iff] at hafter
  subst hafter
  split
  · exact hbefore
  · exact OrderedMap.forall_entries_insert (fun _ registry => P registry) hbefore
      (hP key registry hregistry)

/-- Loaded stores are made of rows. -/
theorem madeOfRows_of_load {files : Files} {folder : String} {store : Store}
    (hok : load files folder = .ok store) : store.MadeOfRows := by
  simp only [load, bind_ok_iff, pure_ok_iff] at hok
  obtain ⟨_, hfragments, _, hmembers, _, hzones, _, hchars, _, hproject, _, hcurves, _, -, rfl⟩ := hok
  exact {
    fragments := forall_registry_of_foldlM (fun _ _ => exists_rows_of_loadFile) hfragments
    members := exists_rows_of_loadFile hmembers
    zones := exists_rows_of_loadFile hzones
    operationalChars := exists_rows_of_loadFile hchars
    projectFragments := forall_registry_of_foldlM (fun _ _ => exists_rows_of_loadFile) hproject
    heatRateCurves := exists_rows_of_loadFile hcurves }

/-- Loaded stores keep operational characteristics under the projects they are about. -/
theorem keyedByProject_of_load {files : Files} {folder : String} {store : Store}
    (hok : load files folder = .ok store) : store.KeyedByProject :=
  (madeOfRows_of_load hok).keyedByProject

/-- All fragments are registered under their identifiers if those of each category are. -/
theorem keyedById_iff {store : Store} :
    store.KeyedById ↔ ∀ category, FragmentsKeyed (store.registry category) := by
  constructor
  · intro h category
    exact OrderedMap.forall_getD h OrderedMap.forall_entries_empty category
  · rintro h ⟨category, fragments⟩ he
    have hkeyed := h category
    rwa [registry, OrderedMap.mem_entries_iff.1 he, Option.getD_some] at hkeyed

/-- A registered fragment has the identifier it is looked up by. -/
theorem KeyedById.id_eq {store : Store} (h : store.KeyedById) {selector : Selector}
    {fragment : Fragment} (hfragment : store.fragment? selector = some fragment) :
    fragment.id = selector.id :=
  keyedById_iff.1 h selector.category (selector.id, fragment)
    (OrderedMap.mem_entries_iff.2 hfragment)

end Store

end CapacityExpansion
