import TupleSync.Text.Hidden

/-!
# Texts in quotes

**A text is shown between double quotes so that nothing of it is lost to the eye**: quotes and
backslashes get a backslash, five control characters their letters, and every hidden character its
code point in hexadecimal digits.
-/

set_option autoImplicit false

namespace TupleSync.Text

/-- How a character stands between double quotes. -/
def showChar (c : Char) : List Char :=
  match c with
  | '\x00' => ['\\', '0']
  | '\t' => ['\\', 't']
  | '\n' => ['\\', 'n']
  | '\r' => ['\\', 'r']
  | '\x22' => ['\\', '\x22']
  | '\\' => ['\\', '\\']
  | c =>
    if isHidden c then '\\' :: 'u' :: '\x7b' :: (Nat.toDigits 16 c.toNat ++ ['\x7d']) else [c]

/-- The text in double quotes. -/
def inQuotes (s : String) : String :=
  String.ofList ('\x22' :: (s.toList.flatMap showChar ++ ['\x22']))

end TupleSync.Text
