import CertAuthority.Proofs.Calendar
import CertAuthority.Proofs.Chain.Operation
import CertAuthority.Proofs.Config

namespace CertAuthority

namespace Duration

/-- The greatest number of days whose seconds fit a signed 64-bit number. -/
def maxDays : Int := 106751991167300

/-- Whether there is a duration of a number of days. -/
def IsCountable (days : Int) : Prop := -maxDays ≤ days ∧ days ≤ maxDays

def ofDays (days : Int) : Duration := ⟨days * 86400 * perSecond⟩

theorem seconds_ofDays (days : Int) : (ofDays days).seconds = days * 86400 :=
  Int.mul_tdiv_cancel _ (by decide)

theorem days?_eq_some_iff {days : Int} {d : Duration} :
    days? days = some d ↔ IsCountable days ∧ d = ofDays days := by
  have whole : (⟨days * 86400 * perSecond + 0⟩ : Duration) = ofDays days := by
    rw [ofDays, Int.add_zero]
  have fits : minSeconds ≤ days * 86400 ∧ days * 86400 ≤ maxSeconds ↔ IsCountable days := by
    have least : minSeconds = -9223372036854775808 := by decide
    have most : maxSeconds = 9223372036854775807 := by decide
    simp only [IsCountable, least, most, maxDays]
    omega
  rw [days?, ofParts?, whole, seconds_ofDays]
  split
  next h => simp [← fits, h, eq_comm]
  next h => simp [← fits, h]

end Duration

open Duration

namespace Instant

/-- The instant a number of days later, whether or not it has a date. -/
def daysLater (t : Instant) (days : Int) : Instant := ⟨t.nanos + (ofDays days).nanos, t.offset⟩

theorem add?_ofDays (t : Instant) (days : Int) : t.add? (ofDays days)
    = if (t.daysLater days).inRange then some (t.daysLater days) else none := rfl

theorem seconds_daysLater (t : Instant) (days : Int) :
    (t.daysLater days).seconds = t.seconds + days * 86400 := by
  have before := t.seconds_eq
  have after := (t.daysLater days).seconds_eq
  have nanos : (t.daysLater days).nanos = t.nanos + days * 86400 * perSecond := rfl
  rw [nanos] at after
  simp only [perSecond] at before after
  omega

/-- The calendar is shorter than the longest durations. -/
theorem isCountable_of_inRange {t : Instant} {days : Int} (dated : t.inRange = true)
    (later : (t.daysLater days).inRange = true) : IsCountable days := by
  have seconds := t.seconds_daysLater days
  have place : (t.daysLater days).offset = t.offset := rfl
  simp only [inRange, Bool.and_eq_true, decide_eq_true_eq] at dated later
  simp only [localSeconds, firstSecond, lastSecond, seconds, place] at dated later
  simp only [IsCountable, maxDays]
  omega

end Instant

namespace Validity

theorem daysLong_eq_ok {days : Int} {d : Duration} :
    daysLong days = .ok d ↔ IsCountable days ∧ d = ofDays days := by
  rw [← days?_eq_some_iff, daysLong]
  cases days? days <;> simp

theorem daysLong_of_not_isCountable {days : Int} (h : ¬IsCountable days) :
    daysLong days = .error .durationOverflow := by
  cases length : days? days with
  | none => rw [daysLong, length]
  | some d => exact absurd (days?_eq_some_iff.mp length).1 h

theorem daysLong_eq_error {days : Int} {e : Fault} :
    daysLong days = .error e ↔ ¬IsCountable days ∧ e = .durationOverflow := by
  by_cases h : IsCountable days
  · rw [daysLong_eq_ok.mpr ⟨h, rfl⟩]
    simp [h]
  · rw [daysLong_of_not_isCountable h]
    simp [h, eq_comm]

/-- What becomes of a span of a number of days from an instant on: it ends within the calendar or
is refused, unless there are too many days to count. -/
structure ForDaysIffCountable (now : Instant) (days : Int) : Prop where
  ok_iff : ∀ v, forDays now days = .ok v ↔
    IsCountable days ∧ (now.daysLater days).inRange = true ∧ v = ⟨now, now.daysLater days⟩
  input_iff : ∀ reason, forDays now days = .error (.input reason) ↔
    IsCountable days ∧ (now.daysLater days).inRange = false ∧ reason = .expiration (ofDays days)
  overflow_iff : forDays now days = .error .durationOverflow ↔ ¬IsCountable days
  /-- From an instant with a date on, every end with a date can be counted. -/
  countable : now.inRange = true → (now.daysLater days).inRange = true → IsCountable days

theorem forDays_of_isCountable (now : Instant) {days : Int} (h : IsCountable days) :
    forDays now days = startingAt now (ofDays days) := by
  rw [forDays, daysLong_eq_ok.mpr ⟨h, rfl⟩, ok_bind]

theorem forDays_iff_countable (now : Instant) (days : Int) : ForDaysIffCountable now days := by
  have countable := @Instant.isCountable_of_inRange now days
  by_cases count : IsCountable days
  · have span := forDays_of_isCountable now count
    rw [startingAt, Instant.add?_ofDays] at span
    cases range : (now.daysLater days).inRange with
    | true =>
      rw [range, if_pos rfl] at span
      refine ⟨fun v => ?_, fun reason => ?_, ?_, countable⟩ <;> rw [span]
      · exact ⟨by rintro ⟨⟩; exact ⟨count, range, rfl⟩, by rintro ⟨-, -, rfl⟩; rfl⟩
      · exact ⟨nofun, fun h => absurd (h.2.1.symm.trans range) Bool.false_ne_true⟩
      · exact ⟨nofun, fun many => absurd count many⟩
    | false =>
      rw [range, if_neg Bool.false_ne_true] at span
      refine ⟨fun v => ?_, fun reason => ?_, ?_, countable⟩ <;> rw [span]
      · exact ⟨nofun, fun h => absurd (range.symm.trans h.2.1) Bool.false_ne_true⟩
      · exact ⟨by rintro ⟨⟩; exact ⟨count, range, rfl⟩, by rintro ⟨-, -, rfl⟩; rfl⟩
      · exact ⟨nofun, fun many => absurd count many⟩
  · have span : forDays now days = .error .durationOverflow := by
      rw [forDays, daysLong_of_not_isCountable count]
      rfl
    refine ⟨fun v => ?_, fun reason => ?_, ?_, countable⟩ <;> rw [span]
    · exact ⟨nofun, fun h => absurd h.1 count⟩
    · exact ⟨nofun, fun h => absurd h.1 count⟩
    · exact ⟨fun _ => count, fun _ => rfl⟩

end Validity

open Chain in
/-- What becomes of an expiration that is configured in days. -/
structure Config.ExpirationIffCountable (expiration : Except Fault Duration) (days : Int) :
    Prop where
  ok_iff : ∀ d, expiration = .ok d ↔ IsCountable days ∧ d = ofDays days
  error_iff : ∀ e, expiration = .error e ↔ ¬IsCountable days ∧ e = .durationOverflow
  /-- An operation takes it if the certificate ends within the calendar and all else passes. -/
  taken : ∀ (o : Operation) (now : Instant), expiration = .ok o.expiration →
    (now.daysLater days).inRange = true → o.NamesPass → o.signer.data.isSome = true →
    (∀ p ∈ o.parent, o.signer.publicKey = some p.certificate.publicKey) →
    ∃ publicKey, o.plan now = .ok (o.template ⟨now, now.daysLater days⟩, publicKey)
  /-- Otherwise the operation is refused, before any backend is asked. -/
  refused : ∀ (o : Operation) (now : Instant), expiration = .ok o.expiration →
    (now.daysLater days).inRange = false → ∃ reason, ∀ {m : Type → Type} [Monad m] [LawfulMonad m]
      (backend : Backend m), (o.perform backend now).run = pure (.error (.input reason))

namespace Config

theorem expiration_iff_countable (days : Int) :
    ExpirationIffCountable (Validity.daysLong days) days where
  ok_iff _ := Validity.daysLong_eq_ok
  error_iff _ := Validity.daysLong_eq_error
  taken o now length range names data parent := by
    have later : now.add? o.expiration = some (now.daysLater days) := by
      rw [(Validity.daysLong_eq_ok.mp length).2, Instant.add?_ofDays, if_pos range]
    obtain ⟨⟨t, publicKey⟩, planned⟩ :=
      (o.plan_decides now).exists_ok ⟨names, by rw [later]; rfl, data, parent⟩
    obtain ⟨validity, span, rfl, -⟩ := o.plan_eq_ok planned
    obtain ⟨last, ends, rfl⟩ := Validity.startingAt_eq_ok.mp span
    cases Option.some.inj (later.symm.trans ends)
    exact ⟨publicKey, planned⟩
  refused o now length range := by
    have beyond : now.add? o.expiration = none := by
      rw [(Validity.daysLong_eq_ok.mp length).2, Instant.add?_ofDays, range]
      exact if_neg Bool.false_ne_true
    have fails : ¬o.Passes now := fun passes => by
      have time := passes.time
      rw [beyond] at time
      cases time
    obtain ⟨reason, planned⟩ := (o.plan_decides now).exists_input fails
    exact ⟨reason, fun _ => Chain.Operation.run_perform_of_refused planned⟩

end Config

/-- Spans of any number of days, and the expirations of every configuration, each of which is
accepted. -/
theorem expirations_counted (now : Instant) (days : Int) (c : Config) :
    Validity.ForDaysIffCountable now days ∧ Config.parse c.render = .ok c
      ∧ Config.ExpirationIffCountable c.rootExpiration c.rootDays.toInt
      ∧ Config.ExpirationIffCountable c.intermediateExpiration c.intermediateDays.toInt
      ∧ Config.ExpirationIffCountable c.leafExpiration c.leafDays.toInt :=
  ⟨Validity.forDays_iff_countable now days, Config.parse_text (Json.isTextOf_render _),
    Config.expiration_iff_countable _, Config.expiration_iff_countable _,
    Config.expiration_iff_countable _⟩

/-- The greatest number of days is accepted where it is configured. -/
def Config.sampleEndless : Config := { rootDays := Int64.maxValue }

/-- The greatest number of days is no span, and it is not refused either. -/
theorem not_counted_sample :
    Validity.forDays ⟨0, 0⟩ Int64.maxValue.toInt = .error .durationOverflow
      ∧ Config.parse Config.sampleEndless.render = .ok Config.sampleEndless
      ∧ Config.sampleEndless.rootExpiration = .error .durationOverflow :=
  ⟨rfl, Config.parse_text (Json.isTextOf_render _), rfl⟩

end CertAuthority
