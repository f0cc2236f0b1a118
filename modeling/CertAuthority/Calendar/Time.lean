import CertAuthority.Calendar.Instant
import CertAuthority.Der.Primitive
import CertAuthority.Fault

namespace CertAuthority

inductive DateForm
  /-- Two digits for a year from 1950 to 2049. -/
  | utc
  /-- Four digits for a year. -/
  | general
deriving DecidableEq, Repr

/-- A date and time of day, in seconds from the start of 1970 on, in one of the forms. -/
structure Time where
  form : DateForm
  seconds : Nat
deriving DecidableEq, Repr

namespace Time

/-- The first second that takes four digits for its year: the start of 2050. -/
def generalFrom : Nat := 2524608000

def limit : Nat := 253402300800

def twoDigits (n : Nat) : Bytes := [UInt8.ofNat (48 + n / 10 % 10), UInt8.ofNat (48 + n % 10)]

def tail (c : Civil) : Bytes :=
  twoDigits c.month ++ twoDigits c.day ++ twoDigits c.hour ++ twoDigits c.minute
    ++ twoDigits c.second ++ [0x5a]

def content (t : Time) : Bytes :=
  let c := Civil.ofSeconds t.seconds
  match t.form with
  | .utc => twoDigits (c.year % 100) ++ tail c
  | .general => twoDigits (c.year / 100) ++ twoDigits (c.year % 100) ++ tail c

def tag : DateForm → UInt8
  | .utc => Der.Tag.utcTime
  | .general => Der.Tag.generalizedTime

def element (t : Time) : Der.Element := ⟨tag t.form, t.content⟩

def pair (x y : UInt8) : Nat := (x.toNat - 48) * 10 + (y.toNat - 48)

def century (yy : Nat) : Nat := if 50 ≤ yy then 1900 + yy else 2000 + yy

/-- The seconds that a text would stand for, digit by digit, in the given form. -/
def spelled? (form : DateForm) (b : Bytes) : Option Nat :=
  match form, b with
  | .utc, [y1, y2, m1, m2, d1, d2, h1, h2, i1, i2, s1, s2, _] =>
    some (Civil.toSeconds ⟨century (pair y1 y2), pair m1 m2, pair d1 d2, pair h1 h2, pair i1 i2,
      pair s1 s2⟩)
  | .general, [c1, c2, y1, y2, m1, m2, d1, d2, h1, h2, i1, i2, s1, s2, _] =>
    some (Civil.toSeconds ⟨pair c1 c2 * 100 + pair y1 y2, pair m1 m2, pair d1 d2, pair h1 h2,
      pair i1 i2, pair s1 s2⟩)
  | _, _ => none

/-- Whether a form has a text for a date. -/
def isSound (t : Time) : Bool :=
  match t.form with
  | .utc => t.seconds < generalFrom
  | .general => t.seconds < limit

def ofContent? (form : DateForm) (b : Bytes) : Option Time := do
  let t : Time := ⟨form, ← spelled? form b⟩
  if t.isSound ∧ t.content = b then some t else none

def ofElement? (e : Der.Element) : Option Time :=
  if e.tag = Der.Tag.utcTime then ofContent? .utc e.content
  else if e.tag = Der.Tag.generalizedTime then ofContent? .general e.content
  else none

def instant (t : Time) : Instant := .ofSeconds t.seconds

/-- The form of an instant: two digits while the local clock shows a year before 2050. -/
def formOf (t : Instant) : DateForm := if t.localSeconds < generalFrom then .utc else .general

/-- The date of an instant, without the fraction of its second. There is none before 1970 nor
behind the last second of 9999, and none behind 2049 in two digits. -/
def ofInstant (t : Instant) : Except Fault Time :=
  let time : Time := ⟨formOf t, t.seconds.toNat⟩
  if 0 ≤ t.nanos ∧ t.nanos ≤ Instant.lastSecond * Duration.perSecond ∧ time.isSound then .ok time
  else .error .malformed

end Time

end CertAuthority
