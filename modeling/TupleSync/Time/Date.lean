/-!
# Calendar dates

**A date is a year, a month and a day that exist**, in the Gregorian calendar continued in both
directions. The years have bounds, far outside of what records hold; a step over either bound has no
result.
-/

set_option autoImplicit false

namespace TupleSync

def minYear : Int := -262143

def maxYear : Int := 262142

def isLeapYear (year : Int) : Bool := year % 4 == 0 && (year % 100 != 0 || year % 400 == 0)

/-- The days of a month; there are none in a month that does not exist. -/
def daysIn (year : Int) (month : Nat) : Nat :=
  match month with
  | 1 | 3 | 5 | 7 | 8 | 10 | 12 => 31
  | 4 | 6 | 9 | 11 => 30
  | 2 => if isLeapYear year then 29 else 28
  | _ => 0

/-- A day of the calendar. -/
structure Date where
  year : Int
  month : Nat
  day : Nat
  year_mem : minYear ≤ year ∧ year ≤ maxYear
  day_mem : 1 ≤ day ∧ day ≤ daysIn year month
  deriving DecidableEq

namespace Date

/-- The date of that year, month and day, if there is one. -/
def of? (year : Int) (month day : Nat) : Option Date :=
  if hy : minYear ≤ year ∧ year ≤ maxYear then
    if hd : 1 ≤ day ∧ day ≤ daysIn year month then some ⟨year, month, day, hy, hd⟩ else none
  else none

/-- The day after. -/
def next? (d : Date) : Option Date :=
  of? d.year d.month (d.day + 1) <|> of? d.year (d.month + 1) 1 <|> of? (d.year + 1) 1 1

/-- The day before. -/
def prev? (d : Date) : Option Date :=
  if 1 < d.day then of? d.year d.month (d.day - 1)
  else if 1 < d.month then of? d.year (d.month - 1) (daysIn d.year (d.month - 1))
  else of? (d.year - 1) 12 31

@[simp] theorem of?_self (d : Date) : of? d.year d.month d.day = some d := by
  simp [of?, d.year_mem, d.day_mem]

end Date

end TupleSync
