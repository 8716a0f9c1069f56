/-!
# Decimal digits

Numbers as runs of ASCII digits: **writing pads to a width and never cuts; reading takes a bounded run
and never skips**.
-/

set_option autoImplicit false

namespace TupleSync.Text

def isDigit (c : Char) : Bool := '0' ≤ c && c ≤ '9'

def digitValue (c : Char) : Nat := c.toNat - 48

/-- The number written by digits. -/
def digitsValue (ds : List Char) : Nat := ds.foldl (fun n c => n * 10 + digitValue c) 0

/-- The digits of a number, with zeros in front up to the width. -/
def padded (width n : Nat) : List Char :=
  let ds := Nat.toDigits 10 n
  List.replicate (width - ds.length) '0' ++ ds

/-- The decimal text of a whole number: its digits, with a sign if it is negative. -/
def ofInt (n : Int) : String :=
  let ds := Nat.toDigits 10 n.natAbs
  String.ofList (if n < 0 then '-' :: ds else ds)

/-- Reads an unsigned number below the bound: digits only, but for one `+` that may stand in front. -/
def natBelow? (bound : Nat) (s : String) : Option Nat :=
  let ds := match s.toList with
    | '+' :: rest => rest
    | cs => cs
  if !ds.isEmpty && ds.all isDigit && digitsValue ds < bound then some (digitsValue ds) else none

end TupleSync.Text
