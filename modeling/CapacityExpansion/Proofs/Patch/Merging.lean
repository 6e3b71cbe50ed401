import CapacityExpansion.Patch.Store
import CapacityExpansion.Proofs.Toml.Documents

/-!
# What a patch does to a table

A patch of a table has values at the ends of some paths of keys. Where it has one
which is no table, the patched table has this value. A path which goes on beyond
such a value ends nowhere in the patched table, whatever was there before. At all
other paths, the patched table is as before, but for what the patch names further
down.

So a patch only has to be applied once: after that, all it names is there. All this
is said of patches in which no key occurs twice, as it is the case of every patch of
the scenarios of a store.

* `Patch.Blocks`: a path goes on beyond a value of the patch;
* `valueAt?_mergeTables`: the value at the end of a path in a patched table;
* `mergeTables_mergeTables`: applying a patch twice is applying it once;
* `StorePatch.keyed_of_withScenarios`: no key of a patch of scenarios occurs twice;
* `mergeTables_overrides`: a patch overrides exactly what it names.
-/

namespace CapacityExpansion.Patch

open Toml (Value Table Keyed isTable lookUp? setEntry)

/-! ## Values at the ends of paths -/

/-- The value at the end of a path which starts at a value. -/
def valueFrom? (path : List String) : Value → Option Value
  | .table t => valueAt? t path
  | v => if path = [] then some v else none

theorem valueAt?_nil (t : Table) : valueAt? t [] = some (.table t) := by rw [valueAt?]

theorem valueFrom?_nil (v : Value) : valueFrom? [] v = some v := by
  cases v with
  | table t => exact valueAt?_nil t
  | _ => rfl

theorem valueFrom?_of_not_isTable {v : Value} (h : ¬isTable v) (path : List String) :
    valueFrom? path v = if path = [] then some v else none := by
  cases v with
  | table t => exact absurd rfl h
  | _ => rfl

theorem valueAt?_cons (t : Table) (key : String) (path : List String) :
    valueAt? t (key :: path) = (lookUp? t key).bind (valueFrom? path) := by
  by_cases hpath : path = []
  · subst hpath
    rw [valueAt?, funext valueFrom?_nil, Option.bind_fun_some]
  · rw [valueAt?]
    · rcases lookUp? t key with _ | v
      · rfl
      · cases v with
        | table inner => rfl
        | _ => exact (if_neg hpath).symm
    · exact hpath

theorem bind_valueFrom?_eq_none {v : Option Value} (h : ∀ t, v ≠ some (.table t))
    {path : List String} (hpath : path ≠ []) : v.bind (valueFrom? path) = none := by
  rcases v with _ | v
  · rfl
  · cases v with
    | table t => exact absurd rfl (h t)
    | _ => exact if_neg hpath

/-- A value of the patch, which is no table, is at a place which the path goes on beyond. -/
def Blocks (patch : Table) (path : List String) : Prop :=
  ∃ above v, above <+: path ∧ above ≠ path ∧ valueAt? patch above = some v ∧ ¬isTable v

theorem not_blocks_nil (patch : Table) : ¬Blocks patch [] := by
  rintro ⟨above, v, hprefix, hne, -⟩
  exact hne (List.prefix_nil.1 hprefix)

section Cons

variable {patch inner : Table} {key : String} {path : List String} {v : Value}

/-- What blocks a path is found under its first key. -/
theorem blocks_cons_iff :
    Blocks patch (key :: path) ↔ ∃ v, lookUp? patch key = some v ∧
      ((¬isTable v ∧ path ≠ []) ∨ ∃ inner, v = .table inner ∧ Blocks inner path) := by
  constructor
  · rintro ⟨above, w, hprefix, hne, hw, hleaf⟩
    rcases above with _ | ⟨first, above⟩
    · rw [valueAt?_nil, Option.some.injEq] at hw
      subst hw
      exact absurd rfl hleaf
    · rw [List.cons_prefix_cons] at hprefix
      obtain ⟨rfl, hprefix⟩ := hprefix
      rw [valueAt?_cons, Option.bind_eq_some_iff] at hw
      obtain ⟨v, hv, hw⟩ := hw
      refine ⟨v, hv, ?_⟩
      cases v with
      | table inner =>
        exact .inr ⟨inner, rfl, above, w, hprefix, fun e => hne (e ▸ rfl), hw, hleaf⟩
      | _ =>
        refine .inl ⟨nofun, fun hpath => hne ?_⟩
        subst hpath
        rw [List.prefix_nil.1 hprefix]
  · rintro ⟨v, hv, ⟨hleaf, hpath⟩ | ⟨inner, rfl, above, w, hprefix, hne, hw, hleaf⟩⟩
    · refine ⟨[key], v, List.cons_prefix_cons.2 ⟨rfl, List.nil_prefix⟩, ?_, ?_, hleaf⟩
      · exact fun e => hpath (List.cons.inj e).2.symm
      · rw [valueAt?_cons, hv, Option.bind_some, valueFrom?_nil]
    · refine ⟨key :: above, w, List.cons_prefix_cons.2 ⟨rfl, hprefix⟩, ?_, ?_, hleaf⟩
      · exact fun e => hne (List.cons.inj e).2
      · rw [valueAt?_cons, hv, Option.bind_some]
        exact hw

theorem not_blocks_cons_of_none (h : lookUp? patch key = none) : ¬Blocks patch (key :: path) := by
  simp [blocks_cons_iff, h]

theorem blocks_cons_iff_of_table (h : lookUp? patch key = some (.table inner)) :
    Blocks patch (key :: path) ↔ Blocks inner path := by
  simp [blocks_cons_iff, h, isTable]

theorem blocks_cons_iff_of_not_isTable (h : lookUp? patch key = some v) (hleaf : ¬isTable v) :
    Blocks patch (key :: path) ↔ path ≠ [] := by
  have hnot (inner : Table) : v ≠ .table inner := fun e => hleaf (e ▸ rfl)
  simp [blocks_cons_iff, h, hleaf, hnot]

end Cons

/-- A path which is blocked ends nowhere in the patch. -/
theorem valueAt?_eq_none_of_blocks {patch : Table} {path : List String} (h : Blocks patch path) :
    valueAt? patch path = none := by
  induction path generalizing patch with
  | nil => exact absurd h (not_blocks_nil patch)
  | cons key path ih =>
    rw [valueAt?_cons]
    obtain ⟨v, hv, ⟨hleaf, hpath⟩ | ⟨inner, rfl, hinner⟩⟩ := blocks_cons_iff.1 h
    · rw [hv, Option.bind_some, valueFrom?_of_not_isTable hleaf, if_neg hpath]
    · rw [hv, Option.bind_some]
      exact ih hinner

/-! ## The patched table -/

theorem mergeValue_of_not_isTable {v : Value} (h : ¬isTable v) (base : Option Value) :
    mergeValue base v = v := by
  cases v with
  | table t => exact absurd rfl h
  | _ => simp [mergeValue]

/-- Where there was no table before, there is the value of the patch. -/
theorem mergeValue_of_ne_table {base : Option Value} (h : ∀ t, base ≠ some (.table t)) (v : Value) :
    mergeValue base v = v := by
  cases v with
  | table patch =>
    rw [mergeValue]
    exact fun t e => h t e
  | _ => simp [mergeValue]

/-- Only a value of the patch which is no table becomes one which is none. -/
theorem mergeValue_eq_iff {base : Option Value} {v w : Value} (hleaf : ¬isTable v) :
    mergeValue base w = v ↔ w = v := by
  cases w with
  | table patch =>
    have hnot (t : Table) : .table t ≠ v := fun e => hleaf (e ▸ rfl)
    by_cases hbase : ∃ t, base = some (.table t)
    · obtain ⟨t, rfl⟩ := hbase
      rw [mergeValue]
      exact ⟨fun e => absurd e (hnot _), fun e => absurd e (hnot _)⟩
    · rw [mergeValue_of_ne_table (not_exists.1 hbase)]
  | _ => simp only [mergeValue]

theorem mergeTables_cons (base : Table) (key : String) (v : Value) (patch : Table) :
    mergeTables base ((key, v) :: patch) =
      mergeTables (setEntry key (mergeValue (lookUp? base key) v) base) patch := by
  rw [mergeTables]

/-- A key which the patch has gets the value of the patch, merged with the one it had before. -/
theorem lookUp?_mergeTables {patch : Table} (hpatch : (patch.map Prod.fst).Nodup) (base : Table)
    (key : String) :
    lookUp? (mergeTables base patch) key =
      (lookUp? patch key).elim (lookUp? base key) fun v => some (mergeValue (lookUp? base key) v) := by
  induction patch generalizing base with
  | nil =>
    rw [mergeTables]
    rfl
  | cons entry patch ih =>
    rw [List.map_cons, List.nodup_cons] at hpatch
    rw [mergeTables_cons, ih hpatch.2, Toml.lookUp?_setEntry, Toml.lookUp?_cons]
    by_cases hkey : key = entry.1
    · subst hkey
      rw [Toml.lookUp?_eq_none_iff.2 hpatch.1, if_pos rfl, if_pos rfl]
      rfl
    · rw [if_neg hkey, if_neg (Ne.symm hkey)]

/-- At the end of a path which is not blocked, there is the value of the patch, merged with the one
    which was there before, or that one if the patch has none. -/
theorem valueAt?_mergeTables {patch : Table} (hpatch : Keyed patch) (base : Table)
    {path : List String} (hpath : ¬Blocks patch path) :
    valueAt? (mergeTables base patch) path = (valueAt? patch path).elim (valueAt? base path)
      fun v => some (mergeValue (valueAt? base path) v) := by
  induction path generalizing base patch with
  | nil => rw [valueAt?_nil, valueAt?_nil, valueAt?_nil, Option.elim_some, mergeValue]
  | cons key path ih =>
    rw [valueAt?_cons, valueAt?_cons, valueAt?_cons, lookUp?_mergeTables hpatch.nodup]
    rcases hv : lookUp? patch key with _ | v
    · rfl
    · rw [Option.elim_some, Option.bind_some, Option.bind_some]
      by_cases hnil : path = []
      · subst hnil
        rw [valueFrom?_nil, valueFrom?_nil, Option.elim_some, funext valueFrom?_nil,
          Option.bind_fun_some]
      · cases v with
        | table inner =>
          rw [blocks_cons_iff_of_table hv] at hpath
          by_cases hbase : ∃ t, lookUp? base key = some (.table t)
          · obtain ⟨t, ht⟩ := hbase
            rw [ht, mergeValue]
            exact ih (hpatch.inner hv) t hpath
          · -- There was no table, so that there is nothing to merge with further down.
            rw [not_exists] at hbase
            rw [mergeValue_of_ne_table hbase, bind_valueFrom?_eq_none hbase hnil]
            rcases valueFrom? path (.table inner) with _ | w
            · rfl
            · rw [Option.elim_some, mergeValue_of_ne_table]
              exact nofun
        | _ => exact absurd ((blocks_cons_iff_of_not_isTable hv nofun).2 hnil) hpath

/-- A path which is blocked ends nowhere in the patched table. -/
theorem valueAt?_mergeTables_of_blocks {patch : Table} (hpatch : Keyed patch) (base : Table)
    {path : List String} (hpath : Blocks patch path) :
    valueAt? (mergeTables base patch) path = none := by
  induction path generalizing base patch with
  | nil => exact absurd hpath (not_blocks_nil patch)
  | cons key path ih =>
    obtain ⟨v, hv, hrest⟩ := blocks_cons_iff.1 hpath
    rw [valueAt?_cons, lookUp?_mergeTables hpatch.nodup, hv, Option.elim_some, Option.bind_some]
    rcases hrest with ⟨hleaf, hnil⟩ | ⟨inner, rfl, hinner⟩
    · rw [mergeValue_of_not_isTable hleaf, valueFrom?_of_not_isTable hleaf, if_neg hnil]
    · by_cases hbase : ∃ t, lookUp? base key = some (.table t)
      · obtain ⟨t, ht⟩ := hbase
        rw [ht, mergeValue]
        exact ih (hpatch.inner hv) t hinner
      · rw [mergeValue_of_ne_table (not_exists.1 hbase)]
        exact valueAt?_eq_none_of_blocks hinner

theorem nodup_mergeTables {base : Table} (hbase : (base.map Prod.fst).Nodup) (patch : Table) :
    ((mergeTables base patch).map Prod.fst).Nodup := by
  induction patch generalizing base with
  | nil => rwa [mergeTables]
  | cons entry patch ih =>
    rw [mergeTables_cons]
    exact ih (Toml.nodup_setEntry hbase)

/-- Patched tables have no key twice if neither the table nor the patch has one. -/
theorem keyed_mergeTables {base patch : Table} (hbase : Keyed base) (hpatch : Keyed patch) :
    Keyed (mergeTables base patch) := by
  induction hpatch generalizing base with
  | @intro patch hnodup hinner ih =>
    refine .intro (nodup_mergeTables hbase.nodup patch) fun key t ht => ?_
    rw [lookUp?_mergeTables hnodup] at ht
    rcases hv : lookUp? patch key with _ | v
    · rw [hv] at ht
      exact hbase.inner ht
    · rw [hv, Option.elim_some, Option.some.injEq] at ht
      by_cases htable : ∃ inner, lookUp? base key = some (.table inner)
      · obtain ⟨before, hkey⟩ := htable
        cases v with
        | table inner =>
          rw [hkey, mergeValue, Value.table.injEq] at ht
          exact ht ▸ ih key inner hv (hbase.inner hkey)
        | _ => simp only [mergeValue, reduceCtorEq] at ht
      · rw [mergeValue_of_ne_table (not_exists.1 htable)] at ht
        exact hinner key t (ht ▸ hv)

/-! ## Applying a patch twice -/

/-- A table which has all that a patch gives it is not changed by it. -/
theorem mergeTables_eq_self {base patch : Table}
    (h : ∀ entry ∈ patch,
      lookUp? base entry.1 = some (mergeValue (lookUp? base entry.1) entry.2)) :
    mergeTables base patch = base := by
  induction patch with
  | nil => rw [mergeTables]
  | cons entry patch ih =>
    rw [List.forall_mem_cons] at h
    rw [mergeTables_cons, Toml.setEntry_of_lookUp? h.1, ih h.2]

/-- A patch does not change itself. -/
theorem mergeTables_self {patch : Table} (hpatch : Keyed patch) : mergeTables patch patch = patch := by
  induction hpatch with
  | @intro patch hnodup _ ih =>
    refine mergeTables_eq_self fun (key, v) hentry => ?_
    rw [← Toml.lookUp?_eq_some_iff hnodup] at hentry
    dsimp only
    rw [hentry]
    cases v with
    | table inner => rw [mergeValue, ih key inner hentry]
    | _ => simp only [mergeValue]

/-- A patch which has been applied does not change anything when it is applied again. -/
theorem mergeTables_mergeTables {patch : Table} (hpatch : Keyed patch) (base : Table) :
    mergeTables (mergeTables base patch) patch = mergeTables base patch := by
  induction hpatch generalizing base with
  | @intro patch hnodup hinner ih =>
    refine mergeTables_eq_self fun (key, v) hentry => ?_
    rw [← Toml.lookUp?_eq_some_iff hnodup] at hentry
    dsimp only
    rw [lookUp?_mergeTables hnodup, hentry, Option.elim_some, Option.some.injEq]
    cases v with
    | table inner =>
      by_cases hbase : ∃ t, lookUp? base key = some (.table t)
      · obtain ⟨t, ht⟩ := hbase
        rw [ht, mergeValue, mergeValue, ih key inner hentry]
      · -- There is a copy of the table in the patch now, and a patch does not change itself.
        rw [mergeValue_of_ne_table (not_exists.1 hbase), mergeValue,
          mergeTables_self (hinner key inner hentry)]
    | _ => simp only [mergeValue]

/-- A patch of scenarios, as it is read from a text, has no key twice. -/
theorem StorePatch.keyed_of_withScenarios {patch after : StorePatch} {text : String}
    (h : patch.withScenarios text = .ok after) : ∃ t, after.scenarios = some t ∧ Keyed t := by
  rw [withScenarios] at h
  split at h
  · cases h
  · split at h
    · next t ht =>
      cases h
      exact ⟨t, rfl, Toml.keyed_of_readText ht⟩
    · cases h

/-- A patch of a table overrides exactly what it names. At the end of a path there is a value which
    is no table if the patch has it there, or if it was there before and the patch neither has
    anything there nor blocks the path. What was at the end of a path, a table or not, is unchanged
    if the patch has nothing there and does not block the path. To apply the patch a second time
    changes nothing. A patched table is a table again, with no key twice. -/
theorem mergeTables_overrides (base : Table) {patch : Table} (hpatch : Keyed patch) :
    (∀ path v, ¬isTable v →
      (valueAt? (mergeTables base patch) path = some v ↔
        valueAt? patch path = some v ∨
        valueAt? base path = some v ∧ valueAt? patch path = none ∧ ¬Blocks patch path)) ∧
    (∀ path v, valueAt? base path = some v → valueAt? patch path = none → ¬Blocks patch path →
      valueAt? (mergeTables base patch) path = some v) ∧
    mergeTables (mergeTables base patch) patch = mergeTables base patch ∧
    (Keyed base → Keyed (mergeTables base patch)) := by
  refine ⟨fun path v hleaf => ?_, fun path v hbase hnone hpath => ?_,
    mergeTables_mergeTables hpatch base, fun hbase => keyed_mergeTables hbase hpatch⟩
  · by_cases hpath : Blocks patch path
    · rw [valueAt?_mergeTables_of_blocks hpatch base hpath, valueAt?_eq_none_of_blocks hpath]
      simp [hpath]
    · rw [valueAt?_mergeTables hpatch base hpath]
      rcases valueAt? patch path with _ | w
      · simp [hpath]
      · rw [Option.elim_some, Option.some.injEq, Option.some.injEq, mergeValue_eq_iff hleaf]
        simp
  · rw [valueAt?_mergeTables hpatch base hpath, hnone]
    exact hbase

/-- A scenario with a description and the fragments which it selects. -/
def baseScenario : Table :=
  [("base", .table [("description", .string "Base case"),
    ("subscenarios", .table [("temporal", .integer 1), ("load", .integer 1)])])]

/-- A patch which selects another fragment for it, and describes a further scenario. -/
def highLoad : Table :=
  [("base", .table [("subscenarios", .table [("load", .integer 2)])]),
    ("high_load", .table [("description", .string "More load")])]

theorem keyed_highLoad : Keyed highLoad := by
  have hload : Keyed [("load", .integer 2)] := .cons (by decide) nofun .nil
  have hbase : Keyed [("subscenarios", .table [("load", .integer 2)])] :=
    .cons (by decide) (by rintro _ ⟨⟩; exact hload) .nil
  have hnew : Keyed [("description", .string "More load")] := .cons (by decide) nofun .nil
  refine .cons (by decide) (by rintro _ ⟨⟩; exact hbase) (.cons (by decide) ?_ .nil)
  rintro _ ⟨⟩
  exact hnew

/-- What the patch names is there, what it does not name is as before, and it is not changed by the
    patch a second time. -/
theorem mergeTables_overrides_highLoad :
    valueAt? (mergeTables baseScenario highLoad) ["base", "subscenarios", "load"] =
        some (.integer 2) ∧
      valueAt? (mergeTables baseScenario highLoad) ["base", "subscenarios", "temporal"] =
        some (.integer 1) ∧
      mergeTables (mergeTables baseScenario highLoad) highLoad =
        mergeTables baseScenario highLoad := by
  obtain ⟨hleaf, hkept, htwice, -⟩ := mergeTables_overrides baseScenario keyed_highLoad
  have hpath : ¬Blocks highLoad ["base", "subscenarios", "temporal"] := by
    rw [blocks_cons_iff_of_table rfl, blocks_cons_iff_of_table rfl]
    exact not_blocks_cons_of_none rfl
  have hload : ¬isTable (.integer 2) := Bool.false_ne_true
  exact ⟨(hleaf _ _ hload).2 (.inl rfl), hkept _ _ rfl rfl hpath, htwice⟩

end CapacityExpansion.Patch
