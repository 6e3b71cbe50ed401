/-!
# Strings of a configuration file

A string is written in one of four ways. Between quotation marks a backslash
starts an escape; between apostrophes every character stands for itself. With
the mark written three times a string may have several lines: a line break just
after the opening mark does not belong to it, up to two marks next to the
closing one do, and between quotation marks a backslash at the end of a line
joins it with the next text.

The functions here read what follows the opening mark, and give the characters
of the string and what follows the closing mark. Line breaks are line feeds.

* `readString`: the string at the start of a text.
-/

namespace CapacityExpansion.Toml

/-- A blank which is no line break. -/
def isBlank (c : Char) : Bool := c == ' ' || c == '\t'

/-- Whether a character may stand in a comment: no control characters but tabs. -/
def isCommentChar (c : Char) : Bool := c == '\t' || (' ' ≤ c && c != '\x7f')

/-- Whether a character stands for itself between quotation marks. -/
def isBasicChar (c : Char) : Bool := isCommentChar c && c != '"' && c != '\\'

/-- Whether a character stands for itself between apostrophes. -/
def isLiteralChar (c : Char) : Bool := isCommentChar c && c != '\''

/-- The character which a letter after a backslash stands for. -/
def simpleEscape? : Char → Option Char
  | 'b' => some '\x08'
  | 't' => some '\t'
  | 'n' => some '\n'
  | 'f' => some '\x0c'
  | 'r' => some '\r'
  | '"' => some '"'
  | '\\' => some '\\'
  | _ => none

/-- The value of a hexadecimal digit. -/
def hexDigit? (c : Char) : Option Nat :=
  if '0' ≤ c ∧ c ≤ '9' then some (c.toNat - '0'.toNat)
  else if 'a' ≤ c ∧ c ≤ 'f' then some (c.toNat - 'a'.toNat + 10)
  else if 'A' ≤ c ∧ c ≤ 'F' then some (c.toNat - 'A'.toNat + 10)
  else none

/-- The character with a hexadecimal number. -/
def hexChar? (digits : List Char) : Option Char := do
  let values ← digits.mapM hexDigit?
  let n := values.foldl (fun n d => 16 * n + d) 0
  if h : n.isValidChar then some (Char.ofNatAux n h) else none

/-- The character an escape stands for, given what follows the backslash, and what follows the
    escape. -/
def readEscape : List Char → Option (Char × List Char)
  | 'u' :: rest => do return (← hexChar? (← exactly 4 rest), rest.drop 4)
  | 'U' :: rest => do return (← hexChar? (← exactly 8 rest), rest.drop 8)
  | c :: rest => do return (← simpleEscape? c, rest)
  | [] => none
where
  /-- The first characters of a text, if it has that many. -/
  exactly (n : Nat) (text : List Char) : Option (List Char) :=
    if n ≤ text.length then some (text.take n) else none

/-- An escape uses up characters. -/
theorem length_of_readEscape {text rest : List Char} {c : Char}
    (h : readEscape text = some (c, rest)) : rest.length < text.length := by
  unfold readEscape at h
  split at h
  all_goals simp only [Option.pure_def, Option.bind_eq_bind, Option.bind_eq_some_iff,
    Option.some.injEq, Prod.mk.injEq, reduceCtorEq] at h
  · obtain ⟨_, _, _, _, _, rfl⟩ := h
    simp only [List.length_drop, List.length_cons]; omega
  · obtain ⟨_, _, _, _, _, rfl⟩ := h
    simp only [List.length_drop, List.length_cons]; omega
  · obtain ⟨_, _, _, rfl⟩ := h
    simp

/-- What is read of a string: its characters, and what follows it. -/
abbrev StringRead := Option (List Char × List Char)

/-- What is read of a string which starts with a character. -/
def StringRead.cons (c : Char) (read : StringRead) : StringRead :=
  read.map fun (text, rest) => (c :: text, rest)

/-! ## One line -/

/-- A string between quotation marks. -/
def readBasic (text : List Char) : StringRead :=
  match text with
  | [] => none
  | '"' :: rest => some ([], rest)
  | '\\' :: rest =>
    match h : readEscape rest with
    | none => none
    | some (c, after) =>
      have : after.length < rest.length := length_of_readEscape h
      StringRead.cons c (readBasic after)
  | c :: rest => if isBasicChar c then StringRead.cons c (readBasic rest) else none
termination_by text.length

/-- A string between apostrophes. -/
def readLiteral : List Char → StringRead
  | [] => none
  | '\'' :: rest => some ([], rest)
  | c :: rest => if isLiteralChar c then StringRead.cons c (readLiteral rest) else none

/-! ## Several lines -/

/-- Where in a string of several lines the next character is. -/
inductive LinePlace where
  /-- In the text. -/
  | text
  /-- After a backslash, before the end of the line. -/
  | lineEnd
  /-- After such a line, before the text goes on. -/
  | margin
  deriving DecidableEq, Repr

/-- How many marks there are at the start of a text. -/
def countMarks (mark : Char) (text : List Char) : Nat := (text.takeWhile (· == mark)).length

/-- The end of a string of several lines: the marks which belong to it, if at least three follow
    each other, and what follows the closing one. -/
def closing? (mark : Char) (text : List Char) : StringRead :=
  let marks := min 5 (countMarks mark text)
  if 3 ≤ marks then some (List.replicate (marks - 3) mark, text.drop marks) else none

/-- A string of several lines between quotation marks. -/
def readBasicLines (place : LinePlace) (text : List Char) : StringRead :=
  match text with
  | [] => none
  | c :: rest =>
    if place = .lineEnd then
      if c = '\n' then readBasicLines .margin rest
      else if isBlank c then readBasicLines .lineEnd rest
      else none
    else if place = .margin && (isBlank c || c == '\n') then readBasicLines .margin rest
    else if c = '"' then
      match closing? '"' (c :: rest) with
      | some closing => some closing
      | none => StringRead.cons '"' (readBasicLines .text rest)
    else if c = '\\' then
      if rest.head?.any fun d => isBlank d || d == '\n' then readBasicLines .lineEnd rest
      else match h : readEscape rest with
        | none => none
        | some (d, after) =>
          have : after.length < rest.length := length_of_readEscape h
          StringRead.cons d (readBasicLines .text after)
    else if isBasicChar c || c == '\n' then StringRead.cons c (readBasicLines .text rest)
    else none
termination_by text.length

/-- A string of several lines between apostrophes. -/
def readLiteralLines : List Char → StringRead
  | [] => none
  | c :: rest =>
    if c = '\'' then
      match closing? '\'' (c :: rest) with
      | some closing => some closing
      | none => StringRead.cons c (readLiteralLines rest)
    else if isLiteralChar c || c == '\n' then StringRead.cons c (readLiteralLines rest)
    else none

/-- A text without the line break at its start. -/
def dropBreak : List Char → List Char
  | '\n' :: rest => rest
  | text => text

/-- The characters of a string as text. -/
def asText (read : StringRead) : Option (String × List Char) :=
  read.map fun (text, rest) => (String.ofList text, rest)

/-- The string of one line at the start of a text, and what follows it. -/
def readLineString : List Char → Option (String × List Char)
  | '"' :: rest => asText (readBasic rest)
  | '\'' :: rest => asText (readLiteral rest)
  | _ => none

/-- The string at the start of a text, and what follows it. -/
def readString : List Char → Option (String × List Char)
  | '"' :: '"' :: '"' :: rest => asText (readBasicLines .text (dropBreak rest))
  | '\'' :: '\'' :: '\'' :: rest => asText (readLiteralLines (dropBreak rest))
  | text => readLineString text

end CapacityExpansion.Toml
