/-
`Text/Blank.lean` -- which characters count as blank, and how a text is trimmed.

Colour values, hex digits and program names are accepted with blank characters
around them, and a colour name may hold none. "Blank" is the Unicode property
`White_Space`, not the ASCII blanks alone, so the table below is the whole of the
property: 25 characters in ten ranges.
-/
set_option autoImplicit false

namespace Galley.Text

/-! ## The property -/

/-- The ranges of code points with the property `White_Space`, ends included. -/
def blankRanges : List (Nat × Nat) :=
  [(0x0009, 0x000D), (0x0020, 0x0020), (0x0085, 0x0085), (0x00A0, 0x00A0),
   (0x1680, 0x1680), (0x2000, 0x200A), (0x2028, 0x2029), (0x202F, 0x202F),
   (0x205F, 0x205F), (0x3000, 0x3000)]

/-- Whether a character has the property `White_Space`. -/
def isBlank (c : Char) : Bool :=
  blankRanges.any fun range => range.1 ≤ c.toNat && c.toNat ≤ range.2

/-! ## Trimming -/

/-- The characters without the blank ones at either end. -/
def trimBlanks (cs : List Char) : List Char :=
  ((cs.dropWhile isBlank).reverse.dropWhile isBlank).reverse

/-- The text without the blank characters at either end. -/
def trim (s : String) : String :=
  String.ofList (trimBlanks s.toList)

end Galley.Text
