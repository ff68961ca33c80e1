/-!
# White space

Field identifiers and action lists are trimmed by the Unicode property `White_Space`. The trimming
functions work on lists of characters; what they cut is blank, and what they leave starts or ends
with a character that is not.
-/

namespace FormRules.Text

/-- The property `White_Space`. -/
def isBlank (c : Char) : Bool :=
  let n := c.toNat
  (9 ≤ n && n ≤ 13) || n == 0x20 || n == 0x85 || n == 0xA0 || n == 0x1680 ||
    (0x2000 ≤ n && n ≤ 0x200A) || n == 0x2028 || n == 0x2029 || n == 0x202F || n == 0x205F ||
    n == 0x3000

/-- Cuts the blanks at the start. -/
def trimStart (cs : List Char) : List Char := cs.dropWhile isBlank

/-- Cuts the blanks at the end. -/
def trimEnd (cs : List Char) : List Char := (cs.reverse.dropWhile isBlank).reverse

/-- Cuts the blanks at both ends. -/
def trim (cs : List Char) : List Char := trimEnd (trimStart cs)

end FormRules.Text
