/-!
# Text in bytes

The contents of a file are bytes; a text is stored in UTF-8. Bytes which are no
text still have characters in them. What is between these falls into pieces, each
as long as it could be the start of a character, and otherwise a single byte.

* `decode`: the characters of some bytes, `none` for each piece which is none;
* `text?`: the text which the bytes are, if they are one;
* `shownText`: a text which shows the bytes, whatever they are.
-/

namespace CapacityExpansion.Text

/-- The value of a byte which continues a character. -/
def continuation? (b : UInt8) : Option Nat :=
  if 0x80 ≤ b ∧ b < 0xC0 then some (b.toNat - 0x80) else none

/-- The character of a number, if it is one and not below a bound. -/
def charFrom? (least n : Nat) : Option Char :=
  if h : least ≤ n ∧ n.isValidChar then some (Char.ofNatAux n h.2) else none

/-- The character of a first byte and those after it, and how many of these belong to it. -/
def character? (first : UInt8) (rest : List UInt8) : Option (Char × Nat) :=
  let lead := first.toNat
  match rest.take 3 |>.map continuation? with
  | some x :: more =>
    if lead < 0xE0 then (charFrom? 0x80 ((lead - 0xC0) * 64 + x)).map (·, 1)
    else match more with
      | some y :: more =>
        if lead < 0xF0 then (charFrom? 0x800 (((lead - 0xE0) * 64 + x) * 64 + y)).map (·, 2)
        else match more with
          | some z :: _ =>
            (charFrom? 0x10000 ((((lead - 0xF0) * 64 + x) * 64 + y) * 64 + z)).map (·, 3)
          | _ => none
      | _ => none
  | _ => none

/-- How many bytes continue a first byte as if there was a character, which does not end. -/
def startedLength (first : UInt8) (rest : List UInt8) : Nat :=
  let isStart (length : Nat) : Bool :=
    (character? first (rest.take length ++ List.replicate 3 0x80)).isSome
  if isStart 2 then 2 else if isStart 1 then 1 else 0

/-- The characters of some bytes, each piece which is no character being `none`. -/
def decode : List UInt8 → List (Option Char)
  | [] => []
  | first :: rest =>
    if first < 0x80 then some (Char.ofNat first.toNat) :: decode rest
    else match character? first rest with
      | some (c, n) => some c :: decode (rest.drop n)
      | none => none :: decode (rest.drop (startedLength first rest))
termination_by bytes => bytes.length
decreasing_by
  · simp
  · simp only [List.length_drop, List.length_cons]; omega
  · simp only [List.length_drop, List.length_cons]; omega

/-- The text of characters, unless some piece is none. -/
def textOf? (characters : List (Option Char)) : Option String :=
  (characters.mapM id).map String.ofList

/-- The text which some bytes are, if they are one. -/
def text? (bytes : List UInt8) : Option String := textOf? (decode bytes)

/-- The text which shows some bytes, with the replacement character for what is no character. -/
def shownText (bytes : List UInt8) : String :=
  String.ofList ((decode bytes).map fun c => c.getD '\uFFFD')

example : decode [0xE2, 0x82, 0x41, 0xE0, 0x9F, 0x80] = [none, some 'A', none, none, none] := by
  decide +kernel

end CapacityExpansion.Text
