/-!
# Blanks

**The blank characters are those of the Unicode property `White_Space`**, twenty-five of them, which is
more than the four that JSON knows and more than the ASCII ones. Values from the environment and the
parts of a written time may be surrounded by any of them.
-/

set_option autoImplicit false

namespace TupleSync.Text

/-- The code points of the property, as ranges with both ends. -/
def blankRanges : List (Nat × Nat) :=
  [(0x09, 0x0D), (0x20, 0x20), (0x85, 0x85), (0xA0, 0xA0), (0x1680, 0x1680), (0x2000, 0x200A),
   (0x2028, 0x2029), (0x202F, 0x202F), (0x205F, 0x205F), (0x3000, 0x3000)]

def isBlank (c : Char) : Bool :=
  blankRanges.any fun (low, high) => low ≤ c.toNat && c.toNat ≤ high

/-- Without the blanks in front. -/
def trimStart (cs : List Char) : List Char := cs.dropWhile isBlank

/-- Without the blanks on either side. -/
def trimChars (cs : List Char) : List Char := ((trimStart cs).reverse.dropWhile isBlank).reverse

/-- Without the blanks on either side. -/
def trim (s : String) : String := String.ofList (trimChars s.toList)

end TupleSync.Text
