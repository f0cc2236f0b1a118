namespace CertAuthority

structure Civil where
  year : Nat
  month : Nat
  day : Nat
  hour : Nat
  minute : Nat
  second : Nat
deriving DecidableEq, Repr

namespace Civil

/-- Whether a year has a 29th of February. -/
def isLeap (year : Nat) : Bool := year % 4 == 0 && (year % 100 != 0 || year % 400 == 0)

def monthLengths (year : Nat) : List Nat :=
  [31, if isLeap year then 29 else 28, 31, 30, 31, 30, 31, 31, 30, 31, 30, 31]

/-- The days from the start of the year zero to the start of a year. -/
def daysBefore (year : Nat) : Nat :=
  365 * year + (year + 3) / 4 - (year + 99) / 100 + (year + 399) / 400

def epochDay : Nat := daysBefore 1970

/-- The year of a day. The average length of a year leads to it or to a neighbour. -/
def yearOf (day : Nat) : Nat :=
  let guess := day * 400 / 146097
  if daysBefore (guess + 1) ≤ day then guess + 1
  else if day < daysBefore guess then guess - 1
  else guess

/-- How many months lie wholly before a day, and the days left in the month it is in. -/
def monthOf : List Nat → Nat → Nat × Nat
  | [], day => (0, day)
  | length :: rest, day =>
    if day < length then (0, day)
    else
      let (months, left) := monthOf rest (day - length)
      (months + 1, left)

def ofDay (day n : Nat) : Civil :=
  let year := yearOf day
  let date := monthOf (monthLengths year) (day - daysBefore year)
  ⟨year, date.1 + 1, date.2 + 1, n / 3600 % 24, n / 60 % 60, n % 60⟩

def ofSeconds (n : Nat) : Civil := ofDay (n / 86400 + epochDay) n

/-- The days from the start of the year zero to a date. -/
def toDay (c : Civil) : Nat :=
  daysBefore c.year + ((monthLengths c.year).take (c.month - 1)).foldr (· + ·) 0 + (c.day - 1)

/-- The seconds up to a date and a time of day, none of them before 1970. -/
def toSeconds (c : Civil) : Nat :=
  (c.toDay - epochDay) * 86400 + c.hour * 3600 + c.minute * 60 + c.second

end Civil

end CertAuthority
