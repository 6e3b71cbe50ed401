import CapacityExpansion.Failure

/-!
# Files with documents

Reading the document in a file.
-/

namespace CapacityExpansion.Files

/-- What the document in a file stands for. -/
def readDocument {α : Type} (f : Files) (decode : Toml.Table → Except Toml.Problem α)
    (path : String) : Attempt α :=
  Attempt.within (Failure.reading path) do
    let text ← Attempt.ofFiles (f.readText path)
    Attempt.ofDocument (Toml.readText decode text)

end CapacityExpansion.Files
