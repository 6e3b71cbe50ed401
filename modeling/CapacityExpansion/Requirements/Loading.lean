import CapacityExpansion.Files.Documents
import CapacityExpansion.Requirements.Format

/-!
# Loading requirements

The requirements of a text or of a file. Without a file the bundled ones apply.
-/

namespace CapacityExpansion.Requirements

/-- The requirements given by names, as an attempt. -/
def attemptNames (named : Named) : Attempt Requirements :=
  (ofNames named).mapError fun problem => Failure.ofMessages problem.messages

/-- The requirements of a text. -/
def ofText (text : String) : Attempt Requirements := do
  let named ← Attempt.within "Could not parse feature requirements" <|
    Attempt.ofDocument (Toml.readText format.ofTable text)
  attemptNames named

/-- The requirements of a file, or the bundled ones. -/
def load (files : Files) : (path : Option String) → Attempt Requirements
  | none => return bundled
  | some path => do
    let named ← files.readDocument format.ofTable path
    Attempt.within (Failure.reading path) (attemptNames named)

end CapacityExpansion.Requirements
