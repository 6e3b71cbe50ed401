import CapacityExpansion.Decimal.Layout
import CapacityExpansion.Decimal.Reading
import CapacityExpansion.Text.Quoted
import CapacityExpansion.Toml.Document

/-!
# Reading values

What the values of a configuration file stand for. A record is a table with
known keys, or an array with the values of its fields in order; its entries are
read in the order of the file, so the first problem is the one a reader would
find, and only then is something missed. A date or a time is seen as a table
with one key.

* `Decoder`: how a value is read;
* `Format.decoder`: the decoder of a record;
* `anyTable`: a table read for its own sake.
-/

namespace CapacityExpansion.Toml

/-- What is wrong with a document. -/
inductive Problem where
  /-- It is no document, or something in it cannot be taken for anything. -/
  | malformed
  /-- A record has no such field. -/
  | unknownField (name : String) (expected : List String)
  /-- There is no such name. -/
  | unknownVariant (name : String) (expected : List String)
  /-- A record lacks a field. -/
  | missingField (name : String)
  /-- A value is of the wrong kind. -/
  | invalidType (found expected : String)
  /-- A value is of the right kind but out of range. -/
  | invalidValue (found expected : String)
  deriving DecidableEq, Repr

/-- A name as it is shown. -/
def ticked (name : String) : String := "\x60" ++ name ++ "\x60"

/-- The names which were expected. -/
def oneOf : List String → String
  | [] => "there are no fields"
  | [a] => "expected " ++ ticked a
  | [a, b] => "expected " ++ ticked a ++ " or " ++ ticked b
  | names => "expected one of " ++ ", ".intercalate (names.map ticked)

/-- The message of a problem. -/
def Problem.message : Problem → String
  | .malformed => "toml syntax"
  | .unknownField name expected =>
    "toml data: unknown field " ++ ticked name ++ ", " ++ oneOf expected
  | .unknownVariant name expected =>
    "toml data: unknown variant " ++ ticked name ++ ", " ++ oneOf expected
  | .missingField name => "toml data: missing field " ++ ticked name
  | .invalidType found expected => s!"toml data: invalid type: {found}, expected {expected}"
  | .invalidValue found expected => s!"toml data: invalid value: {found}, expected {expected}"

/-- An integer as it is shown. -/
def shownInteger (n : Int) : String := "integer " ++ ticked (toString n)

/-- A value as it is shown where another one was expected. -/
def shown : Value → String
  | .string s => "string " ++ Text.quote s
  | .integer n => shownInteger n
  | .real x => "floating point " ++ ticked (Decimal.markedMessages.write x)
  | .boolean b => "boolean " ++ ticked (toString b)
  | .dateTime _ => "map"
  | .array _ => "sequence"
  | .table _ => "map"

/-- How a value is read. -/
abbrev Decoder (α : Type) := Value → Except Problem α

/-- The key under which a date or a time is found. -/
def dateTimeKey : String := "$__toml_private_datetime"

/-- The table which a value is or can be seen as. -/
def asTable? : Value → Option Table
  | .table t => some t
  | .dateTime d => some [(dateTimeKey, .string d.text)]
  | _ => none

/-! ## Single values -/

/-- A text. -/
def string : Decoder String
  | .string s => .ok s
  | v => .error (.invalidType (shown v) "a string")

/-- A path. -/
def path : Decoder String
  | .string s => .ok s
  | v => .error (.invalidType (shown v) "path string")

/-- A truth value. -/
def boolean : Decoder Bool
  | .boolean b => .ok b
  | v => .error (.invalidType (shown v) "a boolean")

/-- An identifier. -/
def identifier : Decoder Nat
  | .integer n =>
    if Decimal.identifiers.least ≤ n ∧ n ≤ Decimal.identifiers.greatest then .ok n.toNat
    else .error (.invalidValue (shownInteger n) "u32")
  | v => .error (.invalidType (shown v) "u32")

/-- One of several names, alone or as the only key of a table which has nothing in it. -/
def variant {α : Type} (variants : List (String × α)) : Decoder α :=
  let lookUp (name : String) : Except Problem α :=
    match lookUp? variants name with
    | some a => .ok a
    | none => .error (.unknownVariant name (variants.map Prod.fst))
  fun
    | .string name => lookUp name
    | .table [(name, content)] => do
      let a ← lookUp name
      match content with
      | .table [] | .array [] => return a
      | _ => throw .malformed
    | _ => .error .malformed

/-! ## Several values -/

/-- A list. -/
def list {α : Type} (element : Decoder α) : Decoder (List α)
  | .array l => l.mapM element
  | v => .error (.invalidType (shown v) "a sequence")

/-- The entries of a table. -/
def entries {α : Type} (value : Decoder α) (t : Table) : Except Problem (List (String × α)) :=
  t.mapM fun (key, v) => do return (key, ← value v)

/-- A table with any keys. -/
def mapping {α : Type} (value : Decoder α) : Decoder (List (String × α)) := fun v =>
  match asTable? v with
  | some t => entries value t
  | none => .error (.invalidType (shown v) "a map")

/-- A field of a record. -/
structure Field (σ : Type) where
  /-- Its name. -/
  name : String
  /-- The record with the field given by a value. -/
  set : Value → σ → Except Problem σ

/-- A field which is read and then put into the record. -/
def field {σ α : Type} (name : String) (decoder : Decoder α) (put : α → σ → σ) : Field σ where
  name := name
  set v record := (decoder v).map fun a => put a record

/-- A kind of record. -/
structure Format (σ : Type) where
  /-- Its name in messages. -/
  title : String
  /-- Its fields. -/
  fields : List (Field σ)
  /-- The record before any field is given. -/
  initial : σ
  /-- Whether other fields are refused. -/
  closed : Bool := true
  /-- The fields which must be given. -/
  needed : List String := []

namespace Format

variable {σ : Type} (format : Format σ)

/-- The record with the field of a key given by a value. -/
def setField (record : σ) (entry : String × Value) : Except Problem σ :=
  match format.fields.find? (·.name == entry.1) with
  | some field => field.set entry.2 record
  | none =>
    if format.closed then .error (.unknownField entry.1 (format.fields.map Field.name))
    else .ok record

/-- The record of a table. -/
def ofTable (t : Table) : Except Problem σ := do
  let record ← t.foldlM format.setField format.initial
  match format.needed.find? fun name => (lookUp? t name).isNone with
  | some name => throw (.missingField name)
  | none => return record

/-- The record with the values of its fields in order, the last ones of which may be left out. -/
def ofArray (values : List Value) : Except Problem σ :=
  (format.fields.zip values).foldlM (fun record p => p.1.set p.2 record) format.initial

/-- How a record is read. -/
def decoder : Decoder σ := fun v =>
  match v, asTable? v with
  | .array l, _ => format.ofArray l
  | _, some t => format.ofTable t
  | v, none => .error (.invalidType (shown v) ("struct " ++ format.title))

end Format

/-! ## Any values -/

/-- A text which stands for a date or a time. -/
def dateTime : Decoder DateTime
  | .string s =>
    match DateTime.ofChars? s.toList with
    | some d => .ok d
    | none => .error .malformed
  | v => .error (.invalidType (shown v) "string containing a datetime")

mutual

/-- Any value. As a date or a time is seen as a table with one key, a table which starts with that
    key is seen as a date or a time. -/
def anyValue : Value → Except Problem Value
  | .table ((key, v) :: rest) =>
    if key = dateTimeKey then (dateTime v).map Value.dateTime
    else do
      let first ← anyValue v
      return .table ((key, first) :: (← anyTable rest))
  | .array l => (anyValues l).map Value.array
  | v => .ok v

/-- A table with any values. -/
def anyTable : Table → Except Problem Table
  | [] => .ok []
  | (key, v) :: rest => do
    let first ← anyValue v
    return (key, first) :: (← anyTable rest)

/-- A list of any values. -/
def anyValues : List Value → Except Problem (List Value)
  | [] => .ok []
  | v :: rest => do
    let first ← anyValue v
    return first :: (← anyValues rest)

end

/-- The table of a document, read in one way or another. -/
def readText {α : Type} (decode : Table → Except Problem α) (text : String) : Except Problem α :=
  match ofText? text with
  | some t => decode t
  | none => .error .malformed

end CapacityExpansion.Toml
