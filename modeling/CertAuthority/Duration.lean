import CertAuthority.Bytes
import CertAuthority.Text.Numeral

namespace CertAuthority

structure Duration where
  nanos : Int
deriving DecidableEq, Repr

namespace Duration

def perSecond : Int := 1000000000

def maxSeconds : Int := Int64.maxValue.toInt

def minSeconds : Int := Int64.minValue.toInt

/-- Whole seconds, toward zero. -/
def seconds (d : Duration) : Int := d.nanos.tdiv perSecond

/-- The duration of seconds and nanoseconds; the whole seconds must fit. -/
def ofParts? (seconds nanos : Int) : Option Duration :=
  let d : Duration := ⟨seconds * perSecond + nanos⟩
  if minSeconds ≤ d.seconds ∧ d.seconds ≤ maxSeconds then some d else none

/-- The duration of a number of days of 86400 seconds. -/
def days? (n : Int) : Option Duration := ofParts? (n * 86400) 0

/-- A count with its unit, or nothing for zero. -/
def item (n : Nat) (unit : String) : String := if n = 0 then "" else Numeral.decimal n ++ unit

/-- Days, hours, minutes, seconds and the fractions of a second, without the parts that are zero. -/
def text (d : Duration) : String :=
  if d.nanos = 0 then "0s"
  else
    let n := d.nanos.natAbs
    let s := n / 1000000000
    (if d.nanos < 0 then "-" else "") ++ item (s / 86400) "d" ++ item (s / 3600 % 24) "h"
      ++ item (s / 60 % 60) "m" ++ item (s % 60) "s" ++ item (n / 1000000 % 1000) "ms"
      ++ item (n / 1000 % 1000) "µs" ++ item (n % 1000) "ns"

end Duration

end CertAuthority
