import CapacityExpansion.Toml.Statement

/-!
# Merging tables

A patch of a table names what it changes. Where both have a table under a key,
these are merged; everything else which the patch names replaces what was there,
and what it does not name stays as it is.

* `mergeTables`: a table with a patch applied;
* `valueAt?`: the value at the end of a path of keys.
-/

namespace CapacityExpansion.Patch

open Toml (Value Table)

/-- The value at the end of a path of keys, which goes through tables. -/
def valueAt? (t : Table) : List String → Option Value
  | [] => some (.table t)
  | [key] => Toml.lookUp? t key
  | key :: path =>
    match Toml.lookUp? t key with
    | some (.table inner) => valueAt? inner path
    | _ => none

mutual

/-- What there is under a key after a patch names it, given what was there before. -/
def mergeValue (base : Option Value) : (patch : Value) → Value
  | .table patch =>
    match base with
    | some (.table inner) => .table (mergeTables inner patch)
    | _ => .table patch
  | value => value

/-- A table with a patch applied. -/
def mergeTables (base : Table) : (patch : Table) → Table
  | [] => base
  | (key, value) :: rest =>
    mergeTables (Toml.setEntry key (mergeValue (Toml.lookUp? base key) value) base) rest

end

end CapacityExpansion.Patch
