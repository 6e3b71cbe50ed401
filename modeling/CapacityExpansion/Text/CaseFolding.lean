/-!
# Case folding

Comparison of a text with an ASCII name regardless of case. Unicode case folding
takes more than the capital letters to ASCII: the long s, the sign of the
kelvin, the sharp s and the ligatures fold to ASCII letters too. All other
characters fold to something which no ASCII name contains.
-/

namespace CapacityExpansion.Text

/-- The folding of a character, as far as it is ASCII. -/
def foldChar (c : Char) : List Char :=
  match c with
  | '\u017F' => ['s']
  | '\u212A' => ['k']
  | '\u00DF' => ['s', 's']
  | '\u1E9E' => ['s', 's']
  | '\uFB00' => ['f', 'f']
  | '\uFB01' => ['f', 'i']
  | '\uFB02' => ['f', 'l']
  | '\uFB03' => ['f', 'f', 'i']
  | '\uFB04' => ['f', 'f', 'l']
  | '\uFB05' => ['s', 't']
  | '\uFB06' => ['s', 't']
  | c => [c.toLower]

/-- Whether a text is a name in lower case, but for its case. -/
def foldsTo (s name : String) : Bool := s.toList.flatMap foldChar == name.toList

end CapacityExpansion.Text
