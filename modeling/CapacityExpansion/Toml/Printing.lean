import CapacityExpansion.Data.Sorting
import CapacityExpansion.Decimal.Layout
import CapacityExpansion.Toml.Statement

/-!
# Writing configuration files

The text of a table: first the keys with plain values, a line for each, then the
tables in it, each with its header, and the arrays of tables, each element with
its header. Tables inside of other arrays are written inline.

* `write`: the text of a table;
* `arrange`: a table whose keys have no order of their own, in that of the text.
-/

namespace CapacityExpansion.Toml

/-- A character with its number, in four hexadecimal digits. -/
def numberedChar (c : Char) : String :=
  let digits := Nat.toDigits 16 c.toNat
  "\\u" ++ String.ofList (List.replicate (4 - digits.length) '0' ++ digits)

/-- A character between quotation marks. -/
def writeChar (c : Char) : String :=
  match c with
  | '\x08' => "\\b"
  | '\t' => "\\t"
  | '\n' => "\\n"
  | '\x0c' => "\\f"
  | '\r' => "\\r"
  | '"' => "\\\""
  | '\\' => "\\\\"
  | c => if isCommentChar c then c.toString else numberedChar c

/-- A text between quotation marks. -/
def writeString (s : String) : String := "\"" ++ String.join (s.toList.map writeChar) ++ "\""

/-- A key. -/
def writeKey (key : String) : String :=
  if key.toList.all isBareChar && !key.isEmpty then key else writeString key

/-- A real number, which shows that it is none of the integers. -/
def writeReal (x : Float) : String :=
  if x.isNaN then "nan" else Decimal.cells.write x

mutual

/-- A value in a line. -/
def writeInline : Value → String
  | .string s => writeString s
  | .integer n => toString n
  | .real x => writeReal x
  | .boolean b => toString b
  | .dateTime d => d.text
  | .array l => "[" ++ ", ".intercalate (writeElements l) ++ "]"
  | .table t => "\x7b" ++ ", ".intercalate (writePairs t) ++ "\x7d"

/-- The elements of an array in a line. -/
def writeElements : List Value → List String
  | [] => []
  | v :: rest => writeInline v :: writeElements rest

/-- The entries of a table in a line. -/
def writePairs : Table → List String
  | [] => []
  | (key, v) :: rest => (writeKey key ++ " = " ++ writeInline v) :: writePairs rest

end

/-- Whether a value is a table. -/
def isTable : Value → Bool
  | .table _ => true
  | _ => false

/-- Whether a value has headers of its own: a table, or an array of tables which has some. -/
def hasHeader : Value → Bool
  | .table _ => true
  | .array l => !l.isEmpty && l.all isTable
  | _ => false

/-- The lines of the keys with plain values. -/
def plainLines (t : Table) : List String :=
  t.filterMap fun (key, v) =>
    if hasHeader v then none else some (writeKey key ++ " = " ++ writeInline v)

/-- The keys of a header. -/
def headerText (path : List String) : String := ".".intercalate (path.map writeKey)

mutual

/-- The lines of the tables in a table at a path, and of their entries. -/
def tableLines (path : List String) : Table → List String
  | [] => []
  | (key, v) :: rest => valueLines (path ++ [key]) v ++ tableLines path rest

/-- The lines of a value with headers at a path. -/
def valueLines (path : List String) : Value → List String
  | .table t => ["", "[" ++ headerText path ++ "]"] ++ plainLines t ++ tableLines path t
  | .array l => if hasHeader (.array l) then elementLines path l else []
  | _ => []

/-- The lines of the elements of an array of tables at a path. -/
def elementLines (path : List String) : List Value → List String
  | [] => []
  | .table t :: rest =>
    ["", "[[" ++ headerText path ++ "]]"] ++ plainLines t ++ tableLines path t ++
      elementLines path rest
  | _ :: rest => elementLines path rest

end

/-- The text of a table. -/
def write (t : Table) : String :=
  let lines := plainLines t ++ tableLines [] t
  let lines := if lines.head? = some "" then lines.tail else lines
  String.join (lines.map (· ++ "\n"))

/-! ## Tables without an order -/

/-- The entries in the order of their keys. -/
def sortKeys : Table → Table := sortBy fun a b => decide (a.1 < b.1) || a.1 == b.1

/-- Where a value stands among the ones of its table: tables come last, and before them the arrays
    with tables in them. -/
def rank : Value → Nat
  | .table _ => 2
  | .array l => if l.any isTable then 1 else 0
  | _ => 0

mutual

/-- A value with the keys of all tables in it in order. -/
def arrangeValue : Value → Value
  | .table t => .table (sortOn (fun entry => rank entry.2) (sortKeys (arrangeEntries t)))
  | .array l => .array (arrangeValues l)
  | v => v

/-- The entries of a table, the values of which are arranged. -/
def arrangeEntries : Table → Table
  | [] => []
  | (key, v) :: rest => (key, arrangeValue v) :: arrangeEntries rest

/-- The values of an array, which are arranged. -/
def arrangeValues : List Value → List Value
  | [] => []
  | v :: rest => arrangeValue v :: arrangeValues rest

end

/-- A table with the keys of it and of all tables in it in order. -/
def arrange (t : Table) : Table := sortKeys (arrangeEntries t)

end CapacityExpansion.Toml
