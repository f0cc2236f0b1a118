import CertAuthority.Calendar.Civil
import CertAuthority.Duration

namespace CertAuthority

/-- Nanoseconds from the start of 1970 in UTC, and the seconds by which the local clock is
ahead. -/
structure Instant where
  nanos : Int
  offset : Int
deriving DecidableEq, Repr

namespace Instant

def firstSecond : Int := -377705116800

def lastSecond : Int := 253402300799

/-- Whole seconds from the start of 1970 in UTC, rounded down. -/
def seconds (t : Instant) : Int := t.nanos.fdiv Duration.perSecond

def localSeconds (t : Instant) : Int := t.seconds + t.offset

def inRange (t : Instant) : Bool := firstSecond ≤ t.localSeconds && t.localSeconds ≤ lastSecond

def ofSeconds (s : Int) : Instant := ⟨s * Duration.perSecond, 0⟩

def maxOffset : Int := 93599

/-- The instant a length of time later, if it has a date. -/
def add? (t : Instant) (d : Duration) : Option Instant :=
  let later : Instant := ⟨t.nanos + d.nanos, t.offset⟩
  if later.inRange then some later else none

def since (later earlier : Instant) : Duration := ⟨later.nanos - earlier.nanos⟩

end Instant

end CertAuthority
