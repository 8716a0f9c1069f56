import TupleSync.Time.Date
import TupleSync.Text.Blank
import TupleSync.Text.Digits

/-!
# Instants and their text

**An instant is a date and a time of day in UTC**, down to the nanosecond. The sixtieth second is kept as
it is: a leap second is a second of its own, and no table says where one may stand.

The writer has one form. The reader takes many: blanks around the parts, one-digit parts, a space for
the `T`, and any offset below a day, which it folds into the date and the time of day. An offset moves
an instant by less than a day, so at most to a neighbouring date.
-/

set_option autoImplicit false

namespace TupleSync

/-- A moment in UTC. -/
structure Instant where
  date : Date
  hour : Nat
  minute : Nat
  /-- The second within the minute; `60` is a leap second. -/
  second : Nat
  nano : Nat
  hour_lt : hour < 24
  minute_lt : minute < 60
  second_le : second ≤ 60
  nano_lt : nano < 1000000000
  deriving DecidableEq

namespace Instant

open Text

/-! ## Writing -/

/-- Four digits, or a sign and at least four digits for a year that has not got exactly four. -/
def yearText (year : Int) : List Char :=
  if 0 ≤ year ∧ year ≤ 9999 then padded 4 year.natAbs
  else (if year < 0 then '-' else '+') :: padded 4 year.natAbs

/-- The fraction of a second: nothing, or the fewest of three, six or nine digits that are exact. -/
def fractionText (nano : Nat) : List Char :=
  if nano = 0 then []
  else if nano % 1000000 = 0 then '.' :: padded 3 (nano / 1000000)
  else if nano % 1000 = 0 then '.' :: padded 6 (nano / 1000)
  else '.' :: padded 9 nano

/-- The text of an instant. -/
def text (t : Instant) : String :=
  String.ofList
    (yearText t.date.year ++ '-' :: padded 2 t.date.month ++ '-' :: padded 2 t.date.day ++
      'T' :: padded 2 t.hour ++ ':' :: padded 2 t.minute ++ ':' :: padded 2 t.second ++
      fractionText t.nano ++ ['Z'])

/-! ## Reading -/

/-- A reader of characters that may refuse. -/
abbrev Scan := StateT (List Char) Option

namespace Scan

def blanks : Scan Unit := modify trimStart

/-- Exactly this character. -/
def char (c : Char) : Scan Unit := do
  match ← get with
  | c' :: rest => if c' = c then set rest else failure
  | [] => failure

/-- One to `most` digits; digits after them are left. -/
def number (most : Nat) : Scan Nat := do
  let cs ← get
  let ds := (cs.take most).takeWhile isDigit
  if ds.isEmpty then failure
  set (cs.drop ds.length)
  return digitsValue ds

/-- As many digits as there are, but at least one. -/
def anyNumber : Scan Nat := do number (← get).length

/-- One or two digits, blanks in front allowed. -/
def twoDigits : Scan Nat := do
  blanks
  number 2

/-- A separator, blanks in front allowed. -/
def separator (c : Char) : Scan Unit := do
  blanks
  char c

/-- A year: up to four digits, or a sign and any number of digits. -/
def year : Scan Int := do
  blanks
  match ← get with
  | '-' :: rest =>
    set rest
    return -(Int.ofNat (← anyNumber))
  | '+' :: rest =>
    set rest
    return Int.ofNat (← anyNumber)
  | _ => return Int.ofNat (← number 4)

/-- The fraction of a second in nanoseconds; digits after the ninth are dropped. -/
def fraction : Scan Nat := do
  match ← get with
  | '.' :: rest =>
    set rest
    let ds := (rest.take 9).takeWhile isDigit
    let n ← number 9
    modify (·.dropWhile isDigit)
    return n * Nat.pow 10 (9 - ds.length)
  | _ => return 0

/-- The mark between date and time. -/
def mark : Scan Unit := do
  match ← get with
  | c :: rest => if c = 'T' ∨ c = 't' ∨ c = ' ' then set rest else failure
  | [] => failure

/-- Exactly two digits. -/
def digitPair : Scan Nat := do
  match ← get with
  | a :: b :: rest =>
    if isDigit a && isDigit b then
      set rest
      return digitsValue [a, b]
    else failure
  | _ => failure

/-- An offset of hours and minutes: between them may stand any run of colons and blanks. -/
def hoursAndMinutes : Scan Nat := do
  let hours ← digitPair
  modify (·.dropWhile fun c => c == ':' || isBlank c)
  let minutes ← digitPair
  if minutes < 60 then return hours * 60 + minutes else failure

/-- The offset from UTC in minutes. -/
def zone : Scan Int := do
  match ← get with
  | 'Z' :: rest => do set rest; return 0
  | 'z' :: rest => do set rest; return 0
  | '+' :: rest => do set rest; return Int.ofNat (← hoursAndMinutes)
  | '-' :: rest => do set rest; return -(Int.ofNat (← hoursAndMinutes))
  | '\u2212' :: rest => do set rest; return -(Int.ofNat (← hoursAndMinutes))
  | u :: t :: c :: rest =>
    if u.toUpper = 'U' ∧ t.toUpper = 'T' ∧ c.toUpper = 'C' then
      set rest
      return 0
    else failure
  | _ => failure

/-- Nothing but blanks. -/
def finish : Scan Unit := do
  if ((← get).dropWhile isBlank).isEmpty then pure () else failure

end Scan

/-- The instant of a local time that is `offset` minutes ahead of UTC. -/
def ofLocal? (date : Date) (hour minute second nano : Nat) (offset : Int) : Option Instant := do
  if h : hour < 24 ∧ minute < 60 ∧ second ≤ 60 ∧ nano < 1000000000 ∧ offset.natAbs < 24 * 60 then
    let m : Int := hour * 60 + minute - offset
    let date ← if m < 0 then date.prev? else if m < 24 * 60 then some date else date.next?
    let r := (m % (24 * 60)).toNat
    have hr : r < 24 * 60 := by omega
    some ⟨date, r / 60, r % 60, second, nano, by omega, by omega, h.2.2.1, h.2.2.2.1⟩
  else none

/-- Reads an instant. -/
def read : Scan Instant := do
  let year ← Scan.year
  Scan.separator '-'
  let month ← Scan.twoDigits
  Scan.separator '-'
  let day ← Scan.twoDigits
  Scan.mark
  let hour ← Scan.twoDigits
  Scan.separator ':'
  let minute ← Scan.twoDigits
  Scan.separator ':'
  let second ← Scan.twoDigits
  let nano ← Scan.fraction
  Scan.blanks
  let offset ← Scan.zone
  Scan.finish
  let date ← Date.of? year month day
  ofLocal? date hour minute second nano offset

/-- The instant that a text names, if it names one. -/
def parse? (s : String) : Option Instant := (read s.toList).map Prod.fst

end Instant

end TupleSync
