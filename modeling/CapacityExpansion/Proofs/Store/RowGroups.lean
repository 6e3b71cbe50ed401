import CapacityExpansion.Proofs.Data.Grouping
import CapacityExpansion.Proofs.Store.Loading

/-!
# The rows of a store, grouped

The loaders of a store are strict: they take rows exactly if the names in them are
not empty, the numbers are in range and no row repeats an earlier one. And they lose
nothing: what they make holds each row under its own key, with the rows of each key
in their order, and there is no key without rows. The zones are grouped twice, by
fragment and then by entity, and so are operational characteristics, by fragment and
then by project.

* `HoldsFragments`, `HoldsMembers`, `HoldsZoneMaps`, `HoldsChars`,
  `HoldsProjectFragments`, `HoldsCurves`: the parts of a store hold some rows;
* `gathers_fragmentsOfRows` and so on: which rows each loader takes, and that what it
  makes holds them;
* `forall_entry_of_fragmentsOfRows` and so on: what holds of all entries, therefore.
-/

namespace CapacityExpansion.Store

/-! ## What each part of a store holds -/

/-- A registry holds each fragment under its identifier. -/
def HoldsFragments : List Fragment → OrderedMap Nat Fragment → Prop :=
  Groups Fragment.id fun own fragment => own = [fragment]

/-- The sets hold the entities of each fragment. -/
def HoldsMembers : List MemberRow → OrderedMap Selector (OrderedSet EntityName) → Prop :=
  Groups MemberRow.selector fun own set => set.elements = own.map MemberRow.entity

/-- An assignment holds the zones of each entity. -/
def HoldsZones : List ZoneRow → ZoneMap → Prop :=
  Groups ZoneRow.entity fun own set => set.elements = own.map ZoneRow.zone

/-- The assignments hold the zones of each entity in each fragment. -/
def HoldsZoneMaps : List ZoneRow → OrderedMap Selector ZoneMap → Prop :=
  Groups ZoneRow.selector HoldsZones

/-- The characteristics of a fragment are held under their projects. -/
def HoldsProjects : List CharsRow → OrderedMap EntityName OperationalChars → Prop :=
  Groups (fun row => row.chars.project) fun own chars => own.map CharsRow.chars = [chars]

/-- The characteristics of each fragment are held under their projects. -/
def HoldsChars : List CharsRow → OrderedMap Nat (OrderedMap EntityName OperationalChars) → Prop :=
  Groups CharsRow.fragment HoldsProjects

/-- A registry holds each project fragment under its project and its identifier. -/
def HoldsProjectFragments :
    List ProjectFragmentRow → OrderedMap (EntityName × Nat) Fragment → Prop :=
  Groups (fun row => (row.project, row.fragment.id)) fun own fragment =>
    own.map ProjectFragmentRow.fragment = [fragment]

/-- The curves hold the points of each of them. -/
def HoldsCurves : List CurveRow → OrderedMap (EntityName × Nat) (List HeatRatePoint) → Prop :=
  Groups (fun row => (row.project, row.curve)) fun own points => points = own.map CurveRow.point

/-! ## Loaders -/

theorem gathers_fragmentsOfRows :
    Gathers fragmentsOfRows
      (fun rows => (∀ row ∈ rows, row.name ≠ "") ∧ (rows.map Fragment.id).Nodup)
      HoldsFragments := by
  refine gathers_distinct (fun registry row => registry.insert row.id row) .nil ?_ ?_
  · intro done registry row h registry'
    rw [addFragment_ok_iff, OrderedMap.contains, Option.isSome_eq_false_iff,
      Option.isNone_iff_eq_none, h.get?_eq_none_iff, and_assoc, eq_comm]
  · intro done registry row h hnew
    refine h.insert ?_
    rw [filter_key_eq_nil_iff.2 hnew]
    rfl

theorem addMember_ok_iff {members members' : OrderedMap Selector (OrderedSet EntityName)}
    {row : MemberRow} : addMember members row = .ok members' ↔
      (row.entity ≠ "" ∧ row.entity ∉ ((members.get? row.selector).getD ∅).elements) ∧
        members.upsert row.selector ∅ (·.insert row.entity) = members' := by
  simp only [addMember, seq_ok_iff, require_ok_iff, pure_ok_iff, and_assoc, OrderedMap.upsert]

theorem gathers_membersOfRows :
    Gathers membersOfRows
      (fun rows => (∀ row ∈ rows, row.entity ≠ "") ∧
        (rows.map fun row => (row.selector, row.entity)).Nodup)
      HoldsMembers := by
  refine gathers_distinct
    (fun members row => members.upsert row.selector ∅ (·.insert row.entity)) .nil ?_ ?_
  · intro done members row h members'
    rw [addMember_ok_iff, h.content_getD rfl row.selector, mem_map_filter_key_iff]
  · intro done members row h hnew
    refine h.upsert rfl fun set hset => ?_
    rw [← mem_map_filter_key_iff, ← hset] at hnew
    rw [OrderedSet.elements_insert, if_neg hnew, hset, List.map_append, List.map_singleton]

theorem addZone_ok_iff {zones zones' : OrderedMap Selector ZoneMap} {row : ZoneRow} :
    addZone zones row = .ok zones' ↔
      ((row.entity ≠ "" ∧ row.zone ≠ "") ∧ row.zone ∉
        ((((zones.get? row.selector).getD ∅).get? row.entity).getD ∅).elements) ∧
      zones.upsert row.selector ∅ (·.upsert row.entity ∅ (·.insert row.zone)) = zones' := by
  simp only [addZone, seq_ok_iff, require_ok_iff, pure_ok_iff, and_assoc, OrderedMap.upsert]

theorem gathers_zonesOfRows :
    Gathers zonesOfRows
      (fun rows => (∀ row ∈ rows, row.entity ≠ "" ∧ row.zone ≠ "") ∧
        (rows.map fun row => (row.selector, row.entity, row.zone)).Nodup)
      HoldsZoneMaps := by
  refine gathers_distinct (fun zones row =>
    zones.upsert row.selector ∅ (·.upsert row.entity ∅ (·.insert row.zone))) .nil ?_ ?_
  · intro done zones row h zones'
    have hmap := h.content_getD .nil row.selector
    rw [addZone_ok_iff, hmap.content_getD rfl row.entity, mem_map_filter_key_iff,
      mem_map_filter_key_iff]
  · intro done zones row h hnew
    refine h.upsert .nil fun map hmap => hmap.upsert rfl fun set hset => ?_
    rw [← mem_map_filter_key_iff, ← mem_map_filter_key_iff, ← hset] at hnew
    rw [OrderedSet.elements_insert, if_neg hnew, hset, List.map_append, List.map_singleton]

theorem addChars_ok_iff {all all' : OrderedMap Nat (OrderedMap EntityName OperationalChars)}
    {row : CharsRow} : addChars all row = .ok all' ↔
      (row.chars.operationalType ≠ "" ∧
        ((all.get? row.fragment).getD ∅).get? row.chars.project = none) ∧
      all.upsert row.fragment ∅ (·.insert row.chars.project row.chars) = all' := by
  simp only [addChars, OrderedMap.insertNew, seq_ok_iff, require_ok_iff, pure_ok_iff, and_assoc,
    Bool.not_eq_true', OrderedMap.contains, Option.isSome_eq_false_iff, Option.isNone_iff_eq_none,
    OrderedMap.upsert]

theorem gathers_charsOfRows :
    Gathers charsOfRows
      (fun rows => (∀ row ∈ rows, row.chars.operationalType ≠ "") ∧
        (rows.map fun row => (row.fragment, row.chars.project)).Nodup)
      HoldsChars := by
  refine gathers_distinct
    (fun all row => all.upsert row.fragment ∅ (·.insert row.chars.project row.chars)) .nil ?_ ?_
  · intro done all row h all'
    have hmap := h.content_getD .nil row.fragment
    rw [addChars_ok_iff, hmap.get?_eq_none_iff, mem_map_filter_key_iff]
  · intro done all row h hnew
    refine h.upsert .nil fun map hmap => hmap.insert ?_
    rw [← mem_map_filter_key_iff] at hnew
    rw [filter_key_eq_nil_iff.2 hnew]
    rfl

theorem addProjectFragment_ok_iff {registry registry' : OrderedMap (EntityName × Nat) Fragment}
    {row : ProjectFragmentRow} : addProjectFragment registry row = .ok registry' ↔
      registry.get? (row.project, row.fragment.id) = none ∧
        registry.insert (row.project, row.fragment.id) row.fragment = registry' := by
  simp only [addProjectFragment, OrderedMap.insertNew, seq_ok_iff, require_ok_iff, pure_ok_iff,
    Bool.not_eq_true', OrderedMap.contains, Option.isSome_eq_false_iff, Option.isNone_iff_eq_none]

theorem gathers_projectFragmentsOfRows :
    Gathers projectFragmentsOfRows
      (fun rows => (rows.map fun row => (row.project, row.fragment.id)).Nodup)
      HoldsProjectFragments := by
  have h : Gathers projectFragmentsOfRows
      (fun rows => (∀ row ∈ rows, True) ∧
        (rows.map fun row => (row.project, row.fragment.id)).Nodup) HoldsProjectFragments := by
    refine gathers_distinct (fun registry row =>
      registry.insert (row.project, row.fragment.id) row.fragment) .nil ?_ ?_
    · intro done registry row h registry'
      rw [addProjectFragment_ok_iff, h.get?_eq_none_iff, true_and]
    · intro done registry row h hnew
      refine h.insert ?_
      rw [filter_key_eq_nil_iff.2 hnew]
      rfl
  exact h.congr fun rows => and_iff_right fun _ _ => trivial

theorem addPoint_ok_iff {curves curves' : OrderedMap (EntityName × Nat) (List HeatRatePoint)}
    {row : CurveRow} : addPoint curves row = .ok curves' ↔
      ((0 < row.point.loadFraction ∧ row.point.loadFraction ≤ 1) ∧
        row.point.heatRate.isFinite = true ∧ 0 < row.point.heatRate) ∧
      curves.upsert (row.project, row.curve) [] (· ++ [row.point]) = curves' := by
  simp only [addPoint, seq_ok_iff, require_ok_iff, pure_ok_iff, and_assoc]

theorem gathers_curvesOfRows :
    Gathers curvesOfRows
      (fun rows => ∀ row ∈ rows, (0 < row.point.loadFraction ∧ row.point.loadFraction ≤ 1) ∧
        row.point.heatRate.isFinite = true ∧ 0 < row.point.heatRate)
      HoldsCurves := by
  refine (gathers_foldlM (fun curves row =>
    curves.upsert (row.project, row.curve) [] (· ++ [row.point])) .nil ?_ ?_).congr
      fun _ => inOrder_forall_iff
  · intro done curves row _ curves'
    exact addPoint_ok_iff
  · intro done curves row h _
    refine h.upsert rfl fun points hpoints => ?_
    rw [hpoints, List.map_append, List.map_singleton]

/-! ## Where the rows are -/

/-- Each fragment is registered under its own identifier. -/
theorem HoldsFragments.get?_eq {rows : List Fragment} {registry : OrderedMap Nat Fragment}
    (h : HoldsFragments rows registry) {row : Fragment} (hrow : row ∈ rows) :
    registry.get? row.id = some row := by
  obtain ⟨fragment, own, hfragment, hmem, rfl⟩ := Groups.exists_get? h hrow
  rw [hfragment, List.mem_singleton.1 hmem]

/-- Each project has its characteristics in their own fragment. -/
theorem HoldsChars.exists_get? {rows : List CharsRow}
    {all : OrderedMap Nat (OrderedMap EntityName OperationalChars)} (h : HoldsChars rows all)
    {row : CharsRow} (hrow : row ∈ rows) : ∃ projects, all.get? row.fragment = some projects ∧
      projects.get? row.chars.project = some row.chars := by
  obtain ⟨projects, own, hprojects, hmem, hown⟩ := Groups.exists_get? h hrow
  obtain ⟨chars, own', hchars, hmem', hown'⟩ := Groups.exists_get? hown hmem
  have heq : row.chars ∈ [chars] := hown' ▸ List.mem_map_of_mem hmem'
  exact ⟨projects, hprojects, hchars.trans (congrArg some (List.mem_singleton.1 heq).symm)⟩

/-! ## What holds of all entries -/

theorem forall_entry_of_fragmentsOfRows {rows : List Fragment} {registry : OrderedMap Nat Fragment}
    (h : fragmentsOfRows rows = .ok registry) :
    ∀ entry ∈ registry.entries, entry.2.id = entry.1 ∧ entry.2.name ≠ "" := by
  rintro ⟨id, fragment⟩ hmem
  obtain ⟨hnames, -⟩ := (gathers_fragmentsOfRows.accepts rows).1 ⟨_, h⟩
  obtain ⟨own, -, hrows, rfl⟩ := (gathers_fragmentsOfRows.makes rows _ h).exists_rows_of_mem hmem
  obtain ⟨hrow, hid⟩ := hrows fragment List.mem_cons_self
  exact ⟨hid, hnames fragment hrow⟩

theorem forall_entry_of_membersOfRows {rows : List MemberRow}
    {members : OrderedMap Selector (OrderedSet EntityName)}
    (h : membersOfRows rows = .ok members) :
    ∀ fragment ∈ members.entries, fragment.2.elements ≠ [] ∧ "" ∉ fragment.2.elements := by
  rintro ⟨selector, set⟩ hmem
  obtain ⟨hnames, -⟩ := (gathers_membersOfRows.accepts rows).1 ⟨_, h⟩
  obtain ⟨own, hne, hrows, hset⟩ := (gathers_membersOfRows.makes rows _ h).exists_rows_of_mem hmem
  rw [hset]
  refine ⟨fun e => hne (List.map_eq_nil_iff.1 e), fun hempty => ?_⟩
  obtain ⟨row, hrow, hname⟩ := List.mem_map.1 hempty
  exact hnames row (hrows row hrow).1 hname

theorem forall_entry_of_zonesOfRows {rows : List ZoneRow} {zones : OrderedMap Selector ZoneMap}
    (h : zonesOfRows rows = .ok zones) :
    ∀ fragment ∈ zones.entries, fragment.2.isEmpty = false ∧ ∀ entry ∈ fragment.2.entries,
      entry.1 ≠ "" ∧ entry.2.elements ≠ [] ∧ "" ∉ entry.2.elements := by
  rintro ⟨selector, map⟩ hmem
  obtain ⟨hnames, -⟩ := (gathers_zonesOfRows.accepts rows).1 ⟨_, h⟩
  obtain ⟨own, hne, hrows, hmap⟩ := (gathers_zonesOfRows.makes rows _ h).exists_rows_of_mem hmem
  refine ⟨hmap.isEmpty_eq_false hne, ?_⟩
  rintro ⟨entity, set⟩ hentry
  obtain ⟨own', hne', hrows', hset⟩ := hmap.exists_rows_of_mem hentry
  have hnames' : ∀ row ∈ own', row.entity = entity ∧ row.entity ≠ "" ∧ row.zone ≠ "" :=
    fun row hrow => ⟨(hrows' row hrow).2, hnames row (hrows row (hrows' row hrow).1).1⟩
  obtain ⟨first, hfirst⟩ := List.exists_mem_of_ne_nil own' hne'
  rw [hset]
  refine ⟨(hnames' first hfirst).1 ▸ (hnames' first hfirst).2.1, fun e => hne' (List.map_eq_nil_iff.1 e), ?_⟩
  intro hempty
  obtain ⟨row, hrow, hname⟩ := List.mem_map.1 hempty
  exact (hnames' row hrow).2.2 hname

theorem forall_entry_of_charsOfRows {rows : List CharsRow}
    {all : OrderedMap Nat (OrderedMap EntityName OperationalChars)}
    (h : charsOfRows rows = .ok all) :
    ∀ fragment ∈ all.entries, fragment.2.isEmpty = false ∧ ∀ entry ∈ fragment.2.entries,
      entry.2.project = entry.1 ∧ entry.2.operationalType ≠ "" := by
  rintro ⟨fragment, projects⟩ hmem
  obtain ⟨htypes, -⟩ := (gathers_charsOfRows.accepts rows).1 ⟨_, h⟩
  obtain ⟨own, hne, hrows, hprojects⟩ :=
    (gathers_charsOfRows.makes rows _ h).exists_rows_of_mem hmem
  refine ⟨hprojects.isEmpty_eq_false hne, ?_⟩
  rintro ⟨project, chars⟩ hentry
  obtain ⟨own', -, hrows', hown⟩ := hprojects.exists_rows_of_mem hentry
  obtain ⟨row, hrow, rfl⟩ := List.mem_map.1 (hown ▸ List.mem_singleton_self chars)
  obtain ⟨hrow', hproject⟩ := hrows' row hrow
  exact ⟨hproject, htypes row (hrows row hrow').1⟩

theorem forall_entry_of_projectFragmentsOfRows {rows : List ProjectFragmentRow}
    {registry : OrderedMap (EntityName × Nat) Fragment}
    (h : projectFragmentsOfRows rows = .ok registry) :
    ∀ entry ∈ registry.entries, entry.2.id = entry.1.2 := by
  rintro ⟨key, fragment⟩ hmem
  obtain ⟨own, -, hrows, hown⟩ :=
    (gathers_projectFragmentsOfRows.makes rows _ h).exists_rows_of_mem hmem
  obtain ⟨row, hrow, rfl⟩ := List.mem_map.1 (hown ▸ List.mem_singleton_self fragment)
  exact congrArg Prod.snd (hrows row hrow).2

theorem forall_entry_of_curvesOfRows {rows : List CurveRow}
    {curves : OrderedMap (EntityName × Nat) (List HeatRatePoint)}
    (h : curvesOfRows rows = .ok curves) :
    ∀ curve ∈ curves.entries, curve.2 ≠ [] ∧
      ∀ point ∈ curve.2, (0 < point.loadFraction ∧ point.loadFraction ≤ 1) ∧
        point.heatRate.isFinite = true ∧ 0 < point.heatRate := by
  rintro ⟨key, points⟩ hmem
  have hrange := (gathers_curvesOfRows.accepts rows).1 ⟨_, h⟩
  obtain ⟨own, hne, hrows, rfl⟩ := (gathers_curvesOfRows.makes rows _ h).exists_rows_of_mem hmem
  refine ⟨fun e => hne (List.map_eq_nil_iff.1 e), fun point hpoint => ?_⟩
  obtain ⟨row, hrow, rfl⟩ := List.mem_map.1 hpoint
  exact hrange row (hrows row hrow).1

end CapacityExpansion.Store
