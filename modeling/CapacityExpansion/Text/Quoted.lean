import CapacityExpansion.Text.Unprintable

/-!
# Quoted text

Messages quote names which may hold anything: between quotation marks, with a
backslash before quotation marks and backslashes, the usual letters for line
breaks and tabs, and the hexadecimal number of every other character which
cannot be shown on its own.
-/

namespace CapacityExpansion.Text

/-- The hexadecimal number of a character. -/
def hexNumber (c : Char) : String := String.ofList (Nat.toDigits 16 c.toNat)

/-- A character inside quotation marks. -/
def quoteChar (c : Char) : String :=
  match c with
  | '\x00' => "\\0"
  | '\t' => "\\t"
  | '\r' => "\\r"
  | '\n' => "\\n"
  | '"' => "\\\""
  | '\\' => "\\\\"
  | c => if isUnprintable c then "\\u\x7b" ++ hexNumber c ++ "\x7d" else c.toString

/-- A text between quotation marks. -/
def quote (s : String) : String := "\"" ++ String.join (s.toList.map quoteChar) ++ "\""

end CapacityExpansion.Text
