import CertAuthority.Proofs.Chain.Profile
import CertAuthority.Proofs.ClockOffset

namespace CertAuthority

/-- Whether an instant is the start, in UTC, of the second in which another one lies. -/
structure Instant.IsStartOfSecond (start t : Instant) : Prop where
  utc : start.offset = 0
  whole : Duration.perSecond ∣ start.nanos
  before : start.nanos ≤ t.nanos
  within : t.nanos < start.nanos + Duration.perSecond

/-- Whether a length of time differs from another one by a fraction of a second only, and not at all
if that is one of whole seconds. -/
structure Duration.IsNear (d asked : Duration) : Prop where
  equal : d = asked ↔ Duration.perSecond ∣ asked.nanos
  near : |d.nanos - asked.nanos| < Duration.perSecond

namespace Instant

theorem ofSeconds_isStartOfSecond (t : Instant) : (ofSeconds t.seconds).IsStartOfSecond t where
  utc := rfl
  whole := Int.dvd_mul_left _ _
  before := by
    have second := t.seconds_eq
    simp only [ofSeconds, Duration.perSecond] at second ⊢
    omega
  within := by
    have second := t.seconds_eq
    simp only [ofSeconds, Duration.perSecond] at second ⊢
    omega

theorem add?_nanos {t later : Instant} {d : Duration} (h : t.add? d = some later) :
    later.nanos = t.nanos + d.nanos := by
  simp only [add?] at h
  split at h
  next => rw [← Option.some.inj h]
  next => cases h

end Instant

/-- Between two instants there are as many whole seconds as between the seconds in which they lie,
give or take one. -/
theorem Validity.length_wholeSeconds (v : Validity) : v.wholeSeconds.length.IsNear v.length := by
  have first := v.notBefore.seconds_eq
  have last := v.notAfter.seconds_eq
  have cut : v.wholeSeconds.length
      = ⟨v.notAfter.seconds * Duration.perSecond - v.notBefore.seconds * Duration.perSecond⟩ := rfl
  have whole : v.length = ⟨v.notAfter.nanos - v.notBefore.nanos⟩ := rfl
  simp only [Duration.perSecond] at first last cut
  rw [cut, whole]
  constructor
  · simp only [Duration.mk.injEq, Duration.perSecond]
    constructor
    · intro same
      omega
    · rintro ⟨n, even⟩
      omega
  · simp only [Duration.perSecond, abs_lt]
    omega

namespace Time

/-- What a date has to do with an instant whose date it is: it has two digits for a year before 2050
and else four, and what is read from its bytes is the second in which the instant lies. -/
structure IsDateOf (time : Time) (t : Instant) : Prop where
  form : time.form = .utc ↔ t.utcYear < 2050
  digits : time.content.length = if time.form = .utc then 13 else 15
  read : (Der.Element.ofBytes? time.element.encode).bind ofElement? = some time
  second : time.instant.IsStartOfSecond t

theorem content_length (time : Time) :
    time.content.length = if time.form = .utc then 13 else 15 := by
  unfold content
  cases time.form <;> rfl

theorem element_fits (time : Time) : time.element.Fits := by
  have short : time.content.length ≤ 15 := by
    rw [content_length]
    split <;> omega
  exact Nat.le_trans short (by decide)

theorem read_encode {time : Time} (sound : time.isSound = true) :
    (Der.Element.ofBytes? time.element.encode).bind ofElement? = some time := by
  rw [Der.Element.ofBytes?_encode ⟨time.element_known, time.element_fits⟩, Option.bind_some,
    ofElement?_element sound]

theorem isDateOf_of_ofInstant {t : Instant} {time : Time} (range : t.IsDatable)
    (utc : t.offset = 0) (dated : ofInstant t = .ok time) : time.IsDateOf t := by
  have side : t.OnOneSide := by
    have clock : t.localSeconds = t.seconds := by rw [Instant.localSeconds, utc, Int.add_zero]
    rw [Instant.OnOneSide, Instant.localYear, clock, Instant.utcYear]
  obtain ⟨time', dated', -, form⟩ := (Instant.isDated_iff range).mpr side
  cases Except.ok.inj (dated.symm.trans dated')
  refine ⟨form, time.content_length, read_encode (ofInstant_eq_ok dated).1, ?_⟩
  rw [instant_of_ofInstant dated]
  exact t.ofSeconds_isStartOfSecond

theorem exists_isDateOf {t : Instant} (utc : t.offset = 0) (range : t.IsDatable) :
    ∃ time, ofInstant t = .ok time ∧ time.IsDateOf t := by
  have dated := (ofInstant_eq_draft_iff utc).mpr range
  exact ⟨_, dated, isDateOf_of_ofInstant range utc dated⟩

theorem ofInstant_of_neg {t : Instant} (early : t.nanos < 0) :
    ofInstant t = .error .malformed :=
  if_neg fun range => absurd range.1 (Int.not_le.mpr early)

end Time

namespace Chain.Operation

/-- A certificate that was handed out lasts as long as was asked for. -/
theorem Issued.length_isNear {o : Operation} {now : Instant} {c : IssuedCertificate}
    (h : o.Issued now c) : c.certificate.contents.validity.length.IsNear o.expiration := by
  obtain ⟨validity, publicKey, key, nonce, span, -, -, reflected⟩ := h.reflected
  obtain ⟨last, sum, rfl⟩ := Validity.startingAt_eq_ok.mp span
  have asked : (Validity.mk now last).length = o.expiration := by
    show Duration.mk (last.nanos - now.nanos) = _
    rw [Instant.add?_nanos sum, add_sub_cancel_left]
  rw [reflected.validity, template_validity, ← asked]
  exact Validity.length_wholeSeconds _

/-- An instant of UTC from 1970 to the last second of 9999 has a date that keeps its second, and an
earlier one has none. A certificate lasts as long as was asked for, which is exact for whole seconds
and else for less than a second more or less. -/
theorem seconds_kept :
    (∀ t : Instant, t.offset = 0 → t.IsDatable →
        ∃ time, Time.ofInstant t = .ok time ∧ time.IsDateOf t)
      ∧ (∀ t : Instant, t.nanos < 0 → Time.ofInstant t = .error .malformed)
      ∧ ∀ {σ : Type} (random : RandomSource (StateM σ)) (nonces : StateM σ Nat) (now : Instant)
          (o : Operation) (c : IssuedCertificate) (s s' : σ),
          (o.perform (.standard random nonces) now).run.run s = (.ok c, s') →
          c.certificate.contents.validity.length.IsNear o.expiration := by
  refine ⟨fun t => Time.exists_isDateOf, fun t => Time.ofInstant_of_neg, ?_⟩
  intro σ random nonces now o c s s' h
  exact (issued_of_perform h).length_isNear

/-- A root that is to last for an hour and seven tenths of a second. -/
def fractionRoot : Operation :=
  .root sampleRoot.organization "Root" (.ofKeyPair 1 Template.sampleKey) ⟨3600700000000⟩

set_option maxRecDepth 100000 in
/-- Issued half a second into a second, that root lasts for a fraction of a second more or less. -/
theorem seconds_kept_sample :
    (∃ time, Time.ofInstant ⟨253402300798999999999, 0⟩ = .ok time
        ∧ time.IsDateOf ⟨253402300798999999999, 0⟩)
      ∧ Time.ofInstant ⟨-1, 0⟩ = .error .malformed
      ∧ ∃ c, (fractionRoot.perform sampleBackend ⟨1500000000, 0⟩).run.run () = (.ok c, ())
        ∧ c.certificate.contents.validity.length.IsNear fractionRoot.expiration
        ∧ c.certificate.contents.validity.length ≠ fractionRoot.expiration := by
  have works : ((fractionRoot.perform sampleBackend ⟨1500000000, 0⟩).run.run ()).1.isOk
      = true := by decide +kernel
  obtain ⟨c, hc⟩ := exists_of_isOk works
  have run : (fractionRoot.perform sampleBackend ⟨1500000000, 0⟩).run.run ()
      = (.ok c, ()) := Prod.ext hc rfl
  have near := seconds_kept.2.2 sampleSource (pure 1) ⟨1500000000, 0⟩ fractionRoot c () () run
  exact ⟨seconds_kept.1 _ rfl (by decide), seconds_kept.2.1 _ (by decide), c, run, near,
    mt near.equal.mp (by decide)⟩

end Chain.Operation

end CertAuthority
