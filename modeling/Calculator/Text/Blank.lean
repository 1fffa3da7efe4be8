import Calculator.Text.Ranges

/-!
# White space

White space is every character that only separates: the controls for tabs, line ends and
separators, and the spaces and line separators of Unicode.

## Main definitions

* `isBlank` — white space.
* `trim`, `trimEnd` — a text without the white space at both ends, or at its end.

## Main results

* `isBlank_iff` — a character is white space if one of the ranges covers it.
-/

namespace Calculator

/-- The code points of white space. -/
def blankTable : RangeTable where
  ranges := [(0x09, 0x0D), (0x1C, 0x20), (0x85, 0x85), (0xA0, 0xA0), (0x1680, 0x1680),
    (0x2000, 0x200A), (0x2028, 0x2029), (0x202F, 0x202F), (0x205F, 0x205F), (0x3000, 0x3000)]
  ascending := by decide

/-- Whether a character is white space. -/
def isBlank (c : Char) : Bool := blankTable.covers c.toNat

/-- The characters without the white space at their end. -/
def trimEnd (cs : List Char) : List Char := (cs.reverse.dropWhile isBlank).reverse

/-- The characters without the white space at both ends. -/
def trim (cs : List Char) : List Char := trimEnd (cs.dropWhile isBlank)

theorem isBlank_iff {c : Char} :
    isBlank c = true ↔ ∃ r ∈ blankTable.ranges, r.1 ≤ c.toNat ∧ c.toNat ≤ r.2 :=
  blankTable.covers_iff c.toNat

end Calculator
