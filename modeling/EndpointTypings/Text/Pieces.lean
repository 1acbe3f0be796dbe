/-!
# Cutting texts into pieces

Texts are cut at a separator character (`split`, which the lines of a text, the segments of a
path and the parts of a dotted name share) and searched for a word (`occurs`). Both work on the
characters of a text, and both are plain recursions on them.
-/

namespace EndpointTypings.Text

/-- The pieces of a text between the occurrences of a separator. There is always at least one,
and pieces may be empty: `n` separators make `n + 1` pieces. -/
def split (separator : Char) : List Char → List (List Char)
  | [] => [[]]
  | c :: cs =>
    if c = separator then
      [] :: split separator cs
    else
      match split separator cs with
      | [] => [[c]]
      | piece :: pieces => (c :: piece) :: pieces

/-- The pieces of a text with the separator put back between them. -/
def unsplit (separator : Char) : List (List Char) → List Char
  | [] => []
  | [piece] => piece
  | piece :: pieces => piece ++ separator :: unsplit separator pieces

/-- Splitting makes at least one piece. -/
theorem split_ne_nil (separator : Char) (cs : List Char) : split separator cs ≠ [] := by
  cases cs with
  | nil => simp [split]
  | cons c cs =>
    simp only [split]
    split
    · simp
    · split <;> simp

/-- Putting the separators back gives the text that was split. -/
theorem unsplit_split (separator : Char) (cs : List Char) :
    unsplit separator (split separator cs) = cs := by
  induction cs with
  | nil => rfl
  | cons c cs ih =>
    simp only [split]
    split
    · next h =>
      subst h
      cases hs : split c cs with
      | nil => exact absurd hs (split_ne_nil c cs)
      | cons piece pieces =>
        rw [hs] at ih
        simp [unsplit, ih]
    · cases hs : split separator cs with
      | nil => exact absurd hs (split_ne_nil separator cs)
      | cons piece pieces =>
        rw [hs] at ih
        cases pieces <;> simp_all [unsplit]

/-- Whether a word stands somewhere in a text. -/
def occurs (word : List Char) : List Char → Bool
  | [] => word.isEmpty
  | c :: cs => word.isPrefixOf (c :: cs) || occurs word cs

/-- Whether a word stands somewhere in a text, for strings. -/
def contains (s word : String) : Bool :=
  occurs word.toList s.toList

end EndpointTypings.Text
