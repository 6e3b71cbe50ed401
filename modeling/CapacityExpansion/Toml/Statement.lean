import CapacityExpansion.Toml.Scalar
import CapacityExpansion.Toml.Strings

/-!
# Statements of a configuration file

A configuration file is a list of statements, one to a line: the header of a
table or of an element of an array of tables, or a key path with its value. A
value is a string, a scalar, an array, which may have line breaks and comments
in it, or an inline table, which may not. Arrays and inline tables nest to a
limited depth, and key paths have a limited length.

Nothing here says that the statements fit together: that two of them do not
define the same key is for `CapacityExpansion.Toml.Document`.

* `readStatements`: the statements of a text.
-/

namespace CapacityExpansion.Toml

/-- What reads the start of a text and leaves the rest, or finds something else there. -/
abbrev Reader := StateT (List Char) Option

namespace Reader

variable {α : Type}

/-- Something else was found. -/
def nothing : Reader α := fun _ => none

/-- The next character, which stays where it is. -/
def peek : Reader Char := do
  match ← get with
  | c :: _ => return c
  | [] => nothing

/-- A character. -/
def char (c : Char) : Reader Unit := do
  match ← get with
  | d :: rest => if d = c then set rest else nothing
  | [] => nothing

/-- The characters up to the first one of another kind. -/
def charsWhile (p : Char → Bool) : Reader (List Char) := do
  let text ← get
  set (text.dropWhile p)
  return text.takeWhile p

/-- What is read by a function on texts. -/
def ofRead (read : List Char → Option (α × List Char)) : Reader α := read

/-- What is read if there is one. -/
def orNone (reader : Reader α) : Reader (Option α) := (some <$> reader) <|> pure none

/-- As many items as there are, up to a number. -/
def upTo (item : Reader α) : Nat → Reader (List α)
  | 0 => return []
  | n + 1 => do
    match ← orNone item with
    | some a => return a :: (← upTo item n)
    | none => return []

/-- As many items as there are. Each of them has a character at least, so there are not more than
    characters. -/
def many (item : Reader α) : Reader (List α) := do upTo item (← get).length

/-- One item or more, with a character between them. -/
def separated (mark : Char) (item : Reader α) : Reader (List α) := do
  let first ← item
  return first :: (← many (char mark *> item))

end Reader

open Reader

/-! ## Blanks and comments -/

/-- Blanks other than line breaks. -/
def blanks : Reader Unit := do let _ ← charsWhile isBlank

/-- A comment, up to the end of its line. -/
def comment : Reader Unit := do
  char '#'
  let _ ← charsWhile isCommentChar

/-- The end of a line or of the text. -/
def lineEnd : Reader Unit := do
  match ← get with
  | [] => return
  | '\n' :: rest => set rest
  | _ => nothing

/-- What may follow a statement in its line. -/
def trailing : Reader Unit := do
  blanks
  let _ ← orNone comment
  lineEnd

/-- Blanks, line breaks and comments. -/
def gap : Reader Unit := do
  blanks
  let _ ← many do
    let _ ← orNone comment
    char '\n'
    blanks

/-! ## Keys -/

/-- Whether a character may stand in a key without quotation marks. -/
def isBareChar (c : Char) : Bool := c.isAlphanum || c == '_' || c == '-'

/-- A key. -/
def key : Reader String := do
  let c ← peek
  if c = '"' ∨ c = '\'' then ofRead readLineString
  else
    let bare ← charsWhile isBareChar
    if bare.isEmpty then nothing else return String.ofList bare

/-- The depth which arrays and inline tables, and the length which key paths do not reach. -/
def nestingLimit : Nat := 80

/-- A path of keys. -/
def keyPath : Reader (List String) := do
  let path ← separated '.' (blanks *> key <* blanks)
  if path.length < nestingLimit then return path else nothing

/-! ## Values -/

/-- A key path and its value. -/
structure Assignment where
  /-- The keys before the last one. -/
  path : List String
  /-- The last key. -/
  key : String
  /-- The value. -/
  value : Value

/-- A key path and its value, given how values are read. -/
def assignment (value : Reader Value) : Reader Assignment := do
  let path ← keyPath
  char '='
  blanks
  let value ← value
  return { path := path.dropLast, key := path.getLast?.getD "", value }

/-- The elements of an array, given how they are read. -/
def elements (value : Reader Value) : Reader (List Value) := do
  match ← orNone (separated ',' (gap *> value <* gap)) with
  | none => return []
  | some elements =>
    let _ ← orNone (char ',')
    return elements

/-- The assignments of an inline table, given how values are read. -/
def assignments (value : Reader Value) : Reader (List Assignment) := do
  blanks
  match ← orNone (separated ',' (assignment value <* blanks)) with
  | none => return []
  | some list => return list

/-! ## Inline tables -/

/-- An inline table which is being read. -/
inductive Inline where
  /-- A value. -/
  | value (v : Value)
  /-- A table defined by key paths. -/
  | dotted (entries : List (String × Inline))

/-- The entry of a key. -/
def lookUp? {α : Type} (entries : List (String × α)) (key : String) : Option α :=
  (entries.find? (·.1 == key)).map Prod.snd

/-- The entries with another one for a key, in its place, or at the end if the key is new. -/
def setEntry {α : Type} (key : String) (value : α) : List (String × α) → List (String × α)
  | [] => [(key, value)]
  | (k, v) :: rest => if k = key then (key, value) :: rest else (k, v) :: setEntry key value rest

/-- An inline table with a further value. -/
def addInline (key : String) (value : Value) : (path : List String) → List (String × Inline) →
    Option (List (String × Inline))
  | [], entries =>
    if (lookUp? entries key).isSome then none else some (entries ++ [(key, .value value)])
  | k :: path, entries =>
    match lookUp? entries k with
    | some (.value _) => none
    | some (.dotted inner) => do return setEntry k (.dotted (← addInline key value path inner)) entries
    | none => do return setEntry k (.dotted (← addInline key value path [])) entries

mutual

/-- The value of a part of an inline table. -/
def Inline.toValue : Inline → Value
  | .value v => v
  | .dotted entries => .table (Inline.toEntries entries)

/-- The entries of an inline table. -/
def Inline.toEntries : List (String × Inline) → Table
  | [] => []
  | (key, part) :: rest => (key, part.toValue) :: Inline.toEntries rest

end

/-- The table which assignments between braces define. -/
def inlineTable? (list : List Assignment) : Option Table :=
  (list.foldlM (fun entries a => addInline a.key a.value a.path entries) []).map Inline.toEntries

/-! ## Values and statements -/

/-- A value with arrays and inline tables up to a depth. -/
def value : (depth : Nat) → Reader Value
  | 0 => do
    let c ← peek
    if c = '"' ∨ c = '\'' then Value.string <$> ofRead readString else ofRead readScalar
  | depth + 1 => do
    let c ← peek
    if c = '[' then
      char '['
      let list ← elements (value depth)
      gap
      char ']'
      return .array list
    else if c = '\x7b' then
      char '\x7b'
      let list ← assignments (value depth)
      blanks
      char '\x7d'
      match inlineTable? list with
      | some table => return .table table
      | none => nothing
    else if c = '"' ∨ c = '\'' then Value.string <$> ofRead readString
    else ofRead readScalar

/-- A statement. -/
inductive Statement where
  /-- The header of a table. -/
  | table (path : List String)
  /-- The header of an element of an array of tables. -/
  | element (path : List String)
  /-- A key path with its value. -/
  | assign (assignment : Assignment)

/-- The header of a table or of an element. -/
def header : Reader Statement := do
  char '['
  match ← get with
  | '[' :: rest =>
    set rest
    let path ← keyPath
    char ']'
    char ']'
    return .element path
  | _ =>
    let path ← keyPath
    char ']'
    return .table path

/-- A line which is not the last one, or not empty, with its statement if it has one. -/
def line : Reader (Option Statement) := do
  blanks
  let c ← peek
  let statement ←
    if c = '\n' ∨ c = '#' then pure none
    else if c = '[' then some <$> header
    else (some ∘ Statement.assign) <$> assignment (value (nestingLimit - 1))
  trailing
  return statement

/-- A text with line feeds in the place of carriage returns followed by line feeds. -/
def normalizeBreaks : List Char → List Char
  | '\r' :: '\n' :: rest => '\n' :: normalizeBreaks rest
  | c :: rest => c :: normalizeBreaks rest
  | [] => []

/-- A text without the byte order mark at its start. -/
def dropMark : List Char → List Char
  | '\uFEFF' :: rest => rest
  | text => text

/-- The statements of a text, if it consists of statements. -/
def readStatements (text : String) : Option (List Statement) := do
  let (lines, rest) ← (many line <* blanks).run (normalizeBreaks (dropMark text.toList))
  guard rest.isEmpty
  return lines.filterMap id

end CapacityExpansion.Toml
