import CapacityExpansion.Toml.DateTime

/-!
# Values of a configuration file

What a configuration file holds: a table of values, some of which are tables
again. The keys of a table are in the order they were defined.
-/

namespace CapacityExpansion.Toml

/-- A value. -/
inductive Value where
  /-- A text. -/
  | string (s : String)
  /-- An integer. -/
  | integer (n : Int)
  /-- A real number. -/
  | real (x : Float)
  /-- A truth value. -/
  | boolean (b : Bool)
  /-- A date, a time of day, or both. -/
  | dateTime (d : DateTime)
  /-- A list of values. -/
  | array (elements : List Value)
  /-- A table: its keys and their values. -/
  | table (entries : List (String × Value))

instance : Inhabited Value := ⟨.boolean false⟩

/-- A table: its keys and their values. -/
abbrev Table := List (String × Value)

/-- The integers there are: 64 bits with a sign. -/
def integerBound : Nat := Nat.pow 2 63

end CapacityExpansion.Toml
