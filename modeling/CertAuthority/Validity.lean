import CertAuthority.Calendar.Instant
import CertAuthority.Fault

namespace CertAuthority

/-- The first and the last instant at which a certificate is good. -/
structure Validity where
  notBefore : Instant
  notAfter : Instant
deriving DecidableEq, Repr

namespace Validity

/-- The span from now on for a length of time. Its end must have a date. -/
def startingAt (now : Instant) (length : Duration) : Except Fault Validity :=
  match now.add? length with
  | some last => .ok ⟨now, last⟩
  | none => .error (.input (.expiration length))

def daysLong (days : Int) : Except Fault Duration :=
  match Duration.days? days with
  | some d => .ok d
  | none => .error .durationOverflow

def forDays (now : Instant) (days : Int) : Except Fault Validity := do
  startingAt now (← daysLong days)

def length (v : Validity) : Duration := v.notAfter.since v.notBefore

end Validity

end CertAuthority
