/-!
# Splitting text

A text split at every occurrence of a character, so that joining the pieces with
that character gives the text back.

* `joinChars_splitChars`: joining undoes splitting;
* `splitChars_append_cons`, `splitChars_of_notMem`: where a text is split.
-/

namespace CapacityExpansion.Text

/-- The pieces of some characters between the occurrences of one. -/
def splitChars (separator : Char) : List Char → List (List Char)
  | [] => [[]]
  | c :: rest =>
    if c = separator then [] :: splitChars separator rest
    else match splitChars separator rest with
      | [] => [[c]]
      | piece :: pieces => (c :: piece) :: pieces

/-- Pieces joined with a character between every two of them. -/
def joinChars (separator : Char) : List (List Char) → List Char
  | [] => []
  | [piece] => piece
  | piece :: next :: pieces => piece ++ separator :: joinChars separator (next :: pieces)

/-- The pieces of a text between the occurrences of a character. -/
def split (separator : Char) (s : String) : List String :=
  (splitChars separator s.toList).map String.ofList

theorem splitChars_ne_nil (separator : Char) (cs : List Char) : splitChars separator cs ≠ [] := by
  cases cs with
  | nil => simp [splitChars]
  | cons c rest =>
    rw [splitChars]
    split
    · simp
    · split <;> simp

/-- Joining undoes splitting. -/
theorem joinChars_splitChars (separator : Char) (cs : List Char) :
    joinChars separator (splitChars separator cs) = cs := by
  induction cs with
  | nil => rfl
  | cons c rest ih =>
    cases h : splitChars separator rest with
    | nil => exact absurd h (splitChars_ne_nil _ _)
    | cons piece pieces =>
      rw [h] at ih
      by_cases hc : c = separator
      · subst hc
        simp [splitChars, h, joinChars, ih]
      · cases pieces with
        | nil => simp [splitChars, h, hc, joinChars] at ih ⊢; exact ih
        | cons next pieces => simp [splitChars, h, hc, joinChars] at ih ⊢; exact ih

/-- What is split at an occurrence of the character can be split on both sides of it. -/
theorem splitChars_append_cons (separator : Char) (cs rest : List Char) :
    splitChars separator (cs ++ separator :: rest) =
      splitChars separator cs ++ splitChars separator rest := by
  induction cs with
  | nil => simp [splitChars]
  | cons c cs ih =>
    rw [List.cons_append, splitChars, splitChars, ih]
    split
    · rfl
    · rcases h : splitChars separator cs with _ | ⟨piece, pieces⟩
      · exact absurd h (splitChars_ne_nil separator cs)
      · rfl

theorem splitChars_of_notMem (separator : Char) {piece : List Char} (h : separator ∉ piece) :
    splitChars separator piece = [piece] := by
  induction piece with
  | nil => rfl
  | cons c piece ih =>
    rw [List.mem_cons, not_or] at h
    simp [splitChars, Ne.symm h.1, ih h.2]

end CapacityExpansion.Text
