import CapacityExpansion.Toml.Statement

/-!
# Documents

The statements of a configuration file define one table. A header opens a table,
and the assignments up to the next header go into it; the tables above it are
implied and may be opened later on, once. A table defined by key paths cannot be
opened, and one opened by a header cannot be extended by key paths. No key is
defined twice.

An implied table which is opened moves to the end of the table it is in.

* `Document.ofStatements?`: the table which statements define;
* `ofText?`: the table which a text defines.
-/

namespace CapacityExpansion.Toml

/-- What a table is defined by. -/
inductive Origin where
  /-- By its own header. -/
  | opened
  /-- By the header of something in it. -/
  | implied
  /-- By a key path. -/
  | dotted
  deriving DecidableEq, Repr

/-- What belongs to a key while a document is being read. -/
inductive Item where
  /-- A value. -/
  | value (v : Value)
  /-- A table. -/
  | table (origin : Origin) (entries : List (String × Item))
  /-- The elements of an array of tables, the latest first. -/
  | elements (tables : List (List (String × Item)))

/-- The entries of a table while a document is being read. -/
abbrev Items := List (String × Item)

/-- The items with those at a path replaced by their image. Tables on the way which are not there
    have the origin `created`; a key path does not go through an opened table. -/
def descend (created : Origin) (f : Origin → Items → Option Items) :
    (path : List String) → Origin → Items → Option Items
  | [], origin, items => f origin items
  | key :: path, _, items => do
    let item ← match lookUp? items key with
      | none => (descend created f path created []).map (Item.table created)
      | some (.table origin inner) => do
        guard (created ≠ .dotted ∨ origin ≠ .opened)
        (descend created f path origin inner).map (Item.table origin)
      | some (.elements (last :: earlier)) =>
        (descend created f path .opened last).map fun last => Item.elements (last :: earlier)
      | some (.elements []) | some (.value _) => none
    return setEntry key item items

/-- The items with a value for a new key, in the table which the assignment's path ends in. -/
def assign (a : Assignment) (items : Items) : Option Items :=
  descend .dotted (fun origin items => do
    guard (a.path = [] ∨ origin = .dotted)
    guard (lookUp? items a.key).isNone
    return items ++ [(a.key, .value a.value)]) a.path .opened items

/-- The items with all values of some assignments. -/
def assignAll (list : List Assignment) (items : Items) : Option Items :=
  list.foldlM (fun items a => assign a items) items

/-- What opens a section. -/
inductive Opening where
  /-- The start of the document. -/
  | root
  /-- The header of a table. -/
  | table (path : List String)
  /-- The header of an element of an array of tables. -/
  | element (path : List String)

/-- A section: the assignments after an opening. -/
structure Section where
  /-- What opens it. -/
  opening : Opening
  /-- The assignments. -/
  assignments : List Assignment

/-- The sections of a document, given what opens the first one and its assignments so far,
    backwards. -/
def sections (opening : Opening) (soFar : List Assignment) : List Statement → List Section
  | [] => [⟨opening, soFar.reverse⟩]
  | .assign a :: rest => sections opening (a :: soFar) rest
  | .table path :: rest => ⟨opening, soFar.reverse⟩ :: sections (.table path) [] rest
  | .element path :: rest => ⟨opening, soFar.reverse⟩ :: sections (.element path) [] rest

/-- The items of a table with a further table, which is new or has only been implied. -/
def openTable (key : String) (list : List Assignment) (items : Items) : Option Items := do
  let inner ← match lookUp? items key with
    | none => some []
    | some (.table .implied inner) => some inner
    | some _ => none
  return items.filter (·.1 ≠ key) ++ [(key, .table .opened (← assignAll list inner))]

/-- The items of a table with a further element of an array of tables. -/
def openElement (key : String) (list : List Assignment) (items : Items) : Option Items := do
  let earlier ← match lookUp? items key with
    | none => some []
    | some (.elements earlier) => some earlier
    | some _ => none
  return setEntry key (.elements ((← assignAll list []) :: earlier)) items

/-- The items of a document with a further section. -/
def addSection (items : Items) (s : Section) : Option Items :=
  match s.opening with
  | .root => assignAll s.assignments items
  | .table path =>
    let open? (_ : Origin) := openTable (path.getLast?.getD "") s.assignments
    descend .implied open? path.dropLast .opened items
  | .element path =>
    let open? (_ : Origin) := openElement (path.getLast?.getD "") s.assignments
    descend .implied open? path.dropLast .opened items

mutual

/-- The value of an item. -/
def Item.toValue : Item → Value
  | .value v => v
  | .table _ entries => .table (Item.toTable entries)
  | .elements tables => .array (Item.toValues tables).reverse

/-- The table of some items. -/
def Item.toTable : Items → Table
  | [] => []
  | (key, item) :: rest => (key, item.toValue) :: Item.toTable rest

/-- The tables of an array of tables. -/
def Item.toValues : List Items → List Value
  | [] => []
  | entries :: rest => .table (Item.toTable entries) :: Item.toValues rest

end

/-- The table which statements define. -/
def ofStatements? (statements : List Statement) : Option Table :=
  ((sections .root [] statements).foldlM addSection []).map Item.toTable

/-- The table which a text defines. -/
def ofText? (text : String) : Option Table := (readStatements text).bind ofStatements?

end CapacityExpansion.Toml
