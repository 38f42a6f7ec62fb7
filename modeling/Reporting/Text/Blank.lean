/-!
# Text/Blank — which characters are white space

A line of a record file that holds nothing but white space carries no record, and dates may be
written with white space around their parts.  Both mean the Unicode property `White_Space`, which
is wider than the four characters JSON skips.
-/

namespace Reporting.Text

/-- The characters with the Unicode property `White_Space`. -/
def isBlank (c : Char) : Bool :=
  let n := c.toNat
  (9 ≤ n && n ≤ 13) || n == 0x20 || n == 0x85 || n == 0xA0 || n == 0x1680 ||
    (0x2000 ≤ n && n ≤ 0x200A) || n == 0x2028 || n == 0x2029 || n == 0x202F || n == 0x205F ||
    n == 0x3000

/-- A text without its leading white space. -/
def trimStart (cs : List Char) : List Char := cs.dropWhile isBlank

end Reporting.Text
