/-!
# White space

The white space of Unicode, as far as a program that trims or tests text for blankness can see
it: `isBlank` is the property `White_Space` of one character, and `isBlankText` says that a text
holds nothing else. A text that is all white space is exactly one that trims to nothing, so no
trimming function is needed.
-/

namespace EndpointTypings.Text

/-- The ranges of code points with the Unicode property `White_Space`, both ends included. -/
def blankRanges : List (Nat × Nat) :=
  [(0x09, 0x0D), (0x20, 0x20), (0x85, 0x85), (0xA0, 0xA0), (0x1680, 0x1680), (0x2000, 0x200A),
    (0x2028, 0x2029), (0x202F, 0x202F), (0x205F, 0x205F), (0x3000, 0x3000)]

/-- Whether a character is white space. -/
def isBlank (c : Char) : Bool :=
  blankRanges.any fun range => range.1 ≤ c.toNat && c.toNat ≤ range.2

/-- Whether a text is empty once the white space at its ends is gone. -/
def isBlankText (s : String) : Bool :=
  s.toList.all isBlank

/-- The white space of the ASCII range that core knows is white space here. -/
theorem isBlank_of_isWhitespace {c : Char} (h : c.isWhitespace = true) : isBlank c = true := by
  simp only [Char.isWhitespace, Bool.or_eq_true, decide_eq_true_eq] at h
  rcases h with ((h | h) | h) | h <;> subst h <;> decide

end EndpointTypings.Text
