import CapacityExpansion.Bundled.Simple

/-!
# The catalog of bundled stores

All stores which come with the program.
-/

namespace CapacityExpansion.Bundled

/-- The bundled stores, in order of their names. -/
def catalog : List BundledStore := [{ name := "simple", files := Simple.files }]

/-- The bundled store with a name. -/
def find (name : String) : Attempt BundledStore :=
  match catalog.find? (·.name == name) with
  | some store => .ok store
  | none => .error (.stated ("Example '" ++ name ++ "' not found"))

end CapacityExpansion.Bundled
