import CapacityExpansion.Decimal.Shortest

/-!
# Writing numbers

The shortest decimal of a double laid out as text. A style says which numbers
are written without an exponent, what marks a whole number, and which way a tie
between two shortest decimals goes.

* `messages`: the style of messages, which never uses an exponent;
* `cells`: the style of the cells of a file, where every number shows that it
  is not an integer and very large or small ones have an exponent.
-/

namespace CapacityExpansion.Decimal

/-- How numbers are laid out. -/
structure Style where
  /-- Which way a tie between two shortest decimals goes. -/
  tie : Tie
  /-- Whether a number is written without an exponent, given the place of its decimal point
      counted from its first significant digit. -/
  plain : Int → Bool
  /-- What follows a whole number written without an exponent. -/
  wholeMark : String

/-- The style of messages: no exponent, and nothing marks a whole number. -/
def messages : Style := ⟨.up, fun _ => true, ""⟩

/-- The style of messages about numbers which must not be taken for integers. -/
def markedMessages : Style := ⟨.up, fun _ => true, ".0"⟩

/-- The style of cells: an exponent from sixteen digits before the point and from five zeros
    after it, and `.0` after a whole number. -/
def cells : Style := ⟨.even, fun point => -5 < point && point ≤ 16, ".0"⟩

/-- A text of `n` zeros. -/
def zeros (n : Nat) : String := String.ofList (List.replicate n '0')

/-- A decimal without an exponent. -/
def plainText (digits : List Char) (place point : Int) (wholeMark : String) : String :=
  if 0 ≤ place then String.ofList digits ++ zeros place.toNat ++ wholeMark
  else if 0 < point then
    String.ofList (digits.take point.toNat) ++ "." ++ String.ofList (digits.drop point.toNat)
  else "0." ++ zeros (-point).toNat ++ String.ofList digits

/-- A decimal with an exponent: one digit before the point, and no point after a single digit. -/
def scientificText (digits : List Char) (point : Int) : String :=
  let fraction := digits.drop 1
  String.ofList (digits.take 1) ++ (if fraction.isEmpty then "" else "." ++ String.ofList fraction)
    ++ "e" ++ toString (point - 1)

/-- The text of a decimal. -/
def Style.decimalText (style : Style) (decimal : Shortest) : String :=
  let digits := Nat.toDigits 10 decimal.digits
  let point := decimal.place + digits.length
  if style.plain point then plainText digits decimal.place point style.wholeMark
  else scientificText digits point

/-- The text of a double. -/
def Style.write (style : Style) (x : Float) : String :=
  match Binary.ofFloat x with
  | .nan => "NaN"
  | .infinite negative => if negative then "-inf" else "inf"
  | .finite negative mantissa exponent =>
    (if negative then "-" else "") ++
      if mantissa = 0 then "0" ++ style.wholeMark
      else style.decimalText (shortest mantissa exponent style.tie)

end CapacityExpansion.Decimal
