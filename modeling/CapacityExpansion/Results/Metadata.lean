import CapacityExpansion.Assembly.Resolved
import CapacityExpansion.Toml.Printing

/-!
# Metadata of results

With the results goes a file which says where they come from: the store and the
scenario, the sizes of what was resolved, and the program and the machine that
did it.
-/

namespace CapacityExpansion.Results

open Toml (Value Table)

/-- What made the results, and when. -/
structure Provenance where
  /-- The date and the time. -/
  time : String
  /-- The program. -/
  build : Table
  /-- The machine. -/
  platform : Table

/-- A size. -/
def size (n : Nat) : Value := .integer n

/-- The sizes of a resolved scenario. -/
def summary (r : ResolvedScenario) : Table :=
  [("temporal_scenario_id", size r.temporal.fragment),
    ("periods", size r.temporal.periods.length),
    ("subproblems", size r.temporal.subproblems.length),
    ("stages", size r.stageGrids.length),
    ("timepoints", size (r.stageGrids.foldl (fun n grid => n + grid.stage.timepoints.length) 0)),
    ("enabled_features", .array (r.features.map fun feature => .string feature.name)),
    ("warnings", size r.warnings.size)]

/-- The metadata of a resolved scenario. -/
def metadata (provenance : Provenance) (store : String) (r : ResolvedScenario) : Table :=
  [("assembly", .table [("store_path", .string store), ("scenario", .string r.name),
      ("datetime", .string provenance.time)]),
    ("scenario", .table (summary r)),
    ("build", .table provenance.build),
    ("platform", .table provenance.platform)]

/-- The file of the metadata. -/
def metadataFile : String := "metadata.toml"

end CapacityExpansion.Results
