import CapacityExpansion.Text.Encoding

/-!
# Separated values

How a text of comma-separated values splits into records and cells. A record
ends at a line feed or a carriage return, and blank lines are no records. A cell
which starts with a quotation mark goes on to the next one; a quotation mark in
it is written twice, and what follows the closing one up to the comma belongs to
the cell too. A quotation mark anywhere else stands for itself.

The symbols are the characters of a text, or the bytes of a file which is no
text as a whole: only commas, quotation marks and line breaks matter, and each of
these is a single byte.

* `records`: the records of a text;
* `dropMark`: a text without the byte order mark some programs put before it.
-/

namespace CapacityExpansion.Csv

/-- The symbols a file is made of. -/
class Symbol (σ : Type) where
  /-- The symbol of a character which is stored in a single byte. -/
  ofChar : Char → σ
  /-- The text which some symbols are, if they are one. -/
  text? : List σ → Option String
  /-- The byte order mark. -/
  mark : List σ

instance : Symbol Char where
  ofChar := id
  text? cs := some (String.ofList cs)
  mark := ['\uFEFF']

instance : Symbol UInt8 where
  ofChar c := c.toNat.toUInt8
  text? := Text.text?
  mark := [0xEF, 0xBB, 0xBF]

/-- A record: its cells. -/
abbrev Record (σ : Type) := List (List σ)

variable {σ : Type} [Symbol σ] [DecidableEq σ]

open CapacityExpansion.Csv.Symbol

/-- Whether a symbol ends a record. -/
def isBreak (s : σ) : Bool := s == ofChar '\n' || s == ofChar '\r'

/-- Where in a record the next symbol is. -/
inductive Place where
  /-- At the start of a record, or in the blank lines before it. -/
  | lineStart
  /-- At the start of a cell which is not the first one. -/
  | cellStart
  /-- In a cell, outside quotation marks. -/
  | plain
  /-- In a cell, inside quotation marks. -/
  | quoted
  /-- After a quotation mark which closes the quoted part unless another one follows. -/
  | closing
  deriving DecidableEq, Repr

/-- What the next symbol means. -/
inductive Action where
  /-- It belongs to no cell. -/
  | skip (next : Place)
  /-- It belongs to the cell. -/
  | keep (next : Place)
  /-- It ends the cell. -/
  | endCell
  /-- It ends the record. -/
  | endRecord
  deriving DecidableEq, Repr

/-- What a symbol outside quotation marks means. -/
def plainAction (s : σ) : Action :=
  if s = ofChar ',' then .endCell else if isBreak s then .endRecord else .keep .plain

/-- What a symbol means at a place. -/
def action (place : Place) (s : σ) : Action :=
  match place with
  | .lineStart =>
    if isBreak s then .skip .lineStart
    else if s = ofChar '"' then .skip .quoted
    else plainAction s
  | .cellStart => if s = ofChar '"' then .skip .quoted else plainAction s
  | .plain => plainAction s
  | .quoted => if s = ofChar '"' then .skip .closing else .keep .quoted
  | .closing => if s = ofChar '"' then .keep .quoted else plainAction s

/-- The records of a text, given the cell and the record read so far, both backwards. -/
def scan : Place → (cell : List σ) → (record : Record σ) → List σ → List (Record σ)
  | place, cell, record, [] =>
    if place = .lineStart then [] else [(cell.reverse :: record).reverse]
  | place, cell, record, s :: rest =>
    match action place s with
    | .skip next => scan next cell record rest
    | .keep next => scan next (s :: cell) record rest
    | .endCell => scan .cellStart [] (cell.reverse :: record) rest
    | .endRecord => (cell.reverse :: record).reverse :: scan .lineStart [] [] rest

/-- The records of a text. -/
def records (text : List σ) : List (Record σ) := scan .lineStart [] [] text

/-- A text without the byte order mark at its start. -/
def dropMark (text : List σ) : List σ :=
  if (mark : List σ).isPrefixOf text then text.drop (mark : List σ).length else text

end CapacityExpansion.Csv
