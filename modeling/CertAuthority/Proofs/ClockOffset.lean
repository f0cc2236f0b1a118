import CertAuthority.Proofs.Certificate.Decode

namespace CertAuthority

namespace Civil

/-- Just the seconds before the start of 2050 lie in a year before it. -/
theorem year_lt_iff (n : Nat) : (ofSeconds n).year < 2050 ↔ n < Time.generalFrom := by
  constructor
  · intro early
    by_contra late
    have start := Time.generalFrom_eq
    have day : daysBefore 2050 ≤ n / 86400 + epochDay := by omega
    have high := (yearOf_spec (n / 86400 + epochDay)).2
    have year : 2050 ≤ (ofSeconds n).year := (ofDay_year day high).1
    omega
  · intro early
    rw [Time.generalFrom_eq] at early
    exact (ofSeconds_year early).2

end Civil

namespace Instant

/-- Whether an instant lies between the start of 1970 and the last second of 9999. -/
def IsDatable (t : Instant) : Prop := 0 ≤ t.nanos ∧ t.nanos ≤ lastSecond * Duration.perSecond

/-- The same instant, seen from a place whose clock is ahead by another offset. -/
def movedTo (t : Instant) (offset : Int) : Instant := ⟨t.nanos, offset⟩

def utcYear (t : Instant) : Nat := (Civil.ofSeconds t.seconds.toNat).year

/-- The year that the local clock shows, or 1970 if it shows an earlier one. -/
def localYear (t : Instant) : Nat := (Civil.ofSeconds t.localSeconds.toNat).year

/-- Whether local clock and UTC are on one side of the start of 2050. -/
def OnOneSide (t : Instant) : Prop := t.localYear < 2050 ↔ t.utcYear < 2050

instance (t : Instant) : Decidable t.IsDatable := inferInstanceAs (Decidable (_ ∧ _))

instance (t : Instant) : Decidable t.OnOneSide := inferInstanceAs (Decidable (_ ↔ _))

/-- Whether an instant is so far from the start of 2050 that no clock is on the other side. -/
def IsFar (t : Instant) : Prop :=
  t.seconds + maxOffset < Time.generalFrom ∨ Time.generalFrom + maxOffset ≤ t.seconds

/-- Whether an instant has a date, in two digits of a year exactly if its year in UTC is one before
2050. -/
def IsDated (t : Instant) : Prop :=
  ∃ time, Time.ofInstant t = .ok time ∧ (time.seconds : Int) = t.seconds
    ∧ (time.form = .utc ↔ t.utcYear < 2050)

theorem localYear_lt_iff (t : Instant) :
    t.localYear < 2050 ↔ t.localSeconds < Time.generalFrom := by
  rw [localYear, Civil.year_lt_iff, Time.generalFrom]
  omega

theorem utcYear_lt_iff (t : Instant) : t.utcYear < 2050 ↔ t.seconds < Time.generalFrom := by
  rw [utcYear, Civil.year_lt_iff, Time.generalFrom]
  omega

variable {t : Instant}

theorem IsDatable.seconds_bounds (h : t.IsDatable) : 0 ≤ t.seconds ∧ t.seconds ≤ lastSecond := by
  obtain ⟨low, high⟩ := h
  have whole : t.seconds = t.nanos / 1000000000 := Int.fdiv_eq_ediv_of_nonneg _ (by decide)
  simp only [lastSecond, Duration.perSecond] at high ⊢
  omega

/-- The date of an instant, by the years that the local clock and UTC show. -/
theorem ofInstant_eq (h : t.IsDatable) : Time.ofInstant t
    = if t.localYear < 2050 then
        if t.utcYear < 2050 then .ok ⟨.utc, t.seconds.toNat⟩ else .error .malformed
      else .ok ⟨.general, t.seconds.toNat⟩ := by
  obtain ⟨low, high⟩ := h.seconds_bounds
  simp only [localYear_lt_iff, utcYear_lt_iff]
  by_cases early : t.localSeconds < Time.generalFrom
  · have form : Time.formOf t = .utc := if_pos early
    by_cases before : t.seconds < Time.generalFrom
    · have sound : (⟨.utc, t.seconds.toNat⟩ : Time).isSound = true :=
        decide_eq_true (show t.seconds.toNat < Time.generalFrom by omega)
      rw [if_pos early, if_pos before, Time.ofInstant, form]
      exact if_pos ⟨h.1, h.2, sound⟩
    · have unsound : (⟨.utc, t.seconds.toNat⟩ : Time).isSound = false :=
        decide_eq_false (show ¬ t.seconds.toNat < Time.generalFrom by omega)
      rw [if_pos early, if_neg before, Time.ofInstant, form]
      exact if_neg fun range => absurd range.2.2 (by simp [unsound])
  · have form : Time.formOf t = .general := if_neg early
    have sound : (⟨.general, t.seconds.toNat⟩ : Time).isSound = true := by
      apply decide_eq_true
      show t.seconds.toNat < Time.limit
      simp only [lastSecond, Time.limit] at high ⊢
      omega
    rw [if_neg early, Time.ofInstant, form]
    exact if_pos ⟨h.1, h.2, sound⟩

theorem isDated_iff (h : t.IsDatable) : t.IsDated ↔ t.OnOneSide := by
  have whole : ((t.seconds.toNat : Nat) : Int) = t.seconds := Int.toNat_of_nonneg h.seconds_bounds.1
  rw [IsDated, OnOneSide, ofInstant_eq h]
  by_cases early : t.localYear < 2050
  · by_cases before : t.utcYear < 2050
    · simp [early, before, whole]
    · simp [early, before]
  · by_cases before : t.utcYear < 2050
    · simp [early, before]
    · simp [early, before, whole]

/-- Two clocks that are on the same side of the start of 2050 as UTC give an instant one date. -/
theorem ofInstant_movedTo (h : t.IsDatable) {offset : Int} (here : t.OnOneSide)
    (there : (t.movedTo offset).OnOneSide) :
    Time.ofInstant (t.movedTo offset) = Time.ofInstant t := by
  have utc : (t.movedTo offset).utcYear = t.utcYear := rfl
  have seconds : (t.movedTo offset).seconds = t.seconds := rfl
  have moved : (t.movedTo offset).IsDatable := h
  rw [OnOneSide] at here there
  rw [ofInstant_eq h, ofInstant_eq moved, utc, seconds]
  simp only [here, there, utc]

theorem onOneSide_everywhere_iff (t : Instant) :
    (∀ offset, -maxOffset ≤ offset → offset ≤ maxOffset → (t.movedTo offset).OnOneSide)
      ↔ t.IsFar := by
  have utc (offset : Int) : (t.movedTo offset).seconds = t.seconds := rfl
  have clock (offset : Int) : (t.movedTo offset).localSeconds = t.seconds + offset := rfl
  simp only [OnOneSide, localYear_lt_iff, utcYear_lt_iff, utc, clock, IsFar]
  constructor
  · intro everywhere
    have ahead := everywhere maxOffset (by decide) (by decide)
    have behind := everywhere (-maxOffset) (by decide) (by decide)
    omega
  · intro far offset low high
    omega

end Instant

namespace Validity

def bounds (v : Validity) : List Instant := [v.notBefore, v.notAfter]

/-- The same span, its instants seen at other offsets. -/
def movedTo (v : Validity) (first last : Int) : Validity :=
  ⟨v.notBefore.movedTo first, v.notAfter.movedTo last⟩

/-- What the offsets, at which the bounds of a span are given, have to do with its encoding. -/
structure DatedIffOnOneSide (v : Validity) (first last : Int) : Prop where
  dated : ∀ t ∈ v.bounds ++ (v.movedTo first last).bounds, t.IsDated ↔ t.OnOneSide
  everywhere : ∀ t ∈ v.bounds,
    (∀ offset, -Instant.maxOffset ≤ offset → offset ≤ Instant.maxOffset →
      (t.movedTo offset).IsDated) ↔ t.IsFar
  encode : (∀ t ∈ v.bounds ++ (v.movedTo first last).bounds, t.OnOneSide) → ∀ c : Contents,
    { c with validity := v.movedTo first last }.encode = { c with validity := v }.encode

/-- A bound of a span has a date in the form for its year just where local clock and UTC are on one
side of the start of 2050. If both bounds are, at either offsets, the encodings are the same. -/
theorem dated_iff_onOneSide (v : Validity) (first last : Int)
    (range : ∀ t ∈ v.bounds, t.IsDatable) : v.DatedIffOnOneSide first last := by
  obtain ⟨notBefore, notAfter⟩ : v.notBefore.IsDatable ∧ v.notAfter.IsDatable :=
    ⟨range _ (by simp [bounds]), range _ (by simp [bounds])⟩
  have moved : ∀ t ∈ (v.movedTo first last).bounds, t.IsDatable := by
    simp only [bounds, movedTo, List.mem_cons, List.not_mem_nil, or_false]
    rintro t (rfl | rfl)
    · exact notBefore
    · exact notAfter
  refine ⟨fun t ht => ?_, fun t ht => ?_, fun sides c => ?_⟩
  · rcases List.mem_append.mp ht with ht | ht
    · exact Instant.isDated_iff (range t ht)
    · exact Instant.isDated_iff (moved t ht)
  · rw [← Instant.onOneSide_everywhere_iff]
    have law (offset : Int) : (t.movedTo offset).IsDated ↔ (t.movedTo offset).OnOneSide :=
      Instant.isDated_iff (t := t.movedTo offset) (range t ht)
    simp only [law]
  · obtain ⟨here, there⟩ := List.forall_mem_append.mp sides
    have one : Time.ofInstant (v.notBefore.movedTo first) = Time.ofInstant v.notBefore :=
      Instant.ofInstant_movedTo notBefore (here _ (by simp [bounds]))
        (there _ (by simp [bounds, movedTo]))
    have two : Time.ofInstant (v.notAfter.movedTo last) = Time.ofInstant v.notAfter :=
      Instant.ofInstant_movedTo notAfter (here _ (by simp [bounds]))
        (there _ (by simp [bounds, movedTo]))
    simp only [Contents.encode, Contents.toTbs, movedTo, one, two]

/-- From noon of the last day of 2049 to noon of the first day of 2050. -/
def turn : Validity := ⟨⟨2524564800 * Duration.perSecond, 0⟩, ⟨2524651200 * Duration.perSecond, 0⟩⟩

theorem dated_iff_onOneSide_sample :
    (∀ t ∈ turn.bounds, t.IsDatable)
      ∧ (∀ t ∈ turn.bounds ++ (turn.movedTo 36000 (-36000)).bounds, t.OnOneSide ∧ t.IsDated)
      ∧ ∃ der, { Contents.sample (.ofArcs [1, 2, 3, 4]) with validity := turn }.encode = .ok der
        ∧ { Contents.sample (.ofArcs [1, 2, 3, 4]) with
          validity := turn.movedTo 36000 (-36000) }.encode = .ok der := by
  have range : ∀ t ∈ turn.bounds, t.IsDatable := by decide
  have sides : ∀ t ∈ turn.bounds ++ (turn.movedTo 36000 (-36000)).bounds, t.OnOneSide := by
    decide +kernel
  have works : { Contents.sample (.ofArcs [1, 2, 3, 4]) with validity := turn }.encode.isOk
      = true := by decide +kernel
  obtain ⟨der, encoded⟩ := exists_of_isOk works
  have law := dated_iff_onOneSide turn 36000 (-36000) range
  refine ⟨range, fun t ht => ⟨sides t ht, (law.dated t ht).mpr (sides t ht)⟩, der, encoded, ?_⟩
  rw [law.encode sides, encoded]

/-- The first second of 2050 has no date where the clock is an hour behind, and the last second of
2049 has one with four digits of the year where the clock is an hour ahead. -/
theorem not_isDated_sample :
    (∀ t ∈ [Instant.ofSeconds 2524608000, .ofSeconds 2524607999], t.IsDatable ∧ t.IsDated)
      ∧ Time.ofInstant ((Instant.ofSeconds 2524608000).movedTo (-3600)) = .error .malformed
      ∧ Time.ofInstant ((Instant.ofSeconds 2524607999).movedTo 3600) = .ok ⟨.general, 2524607999⟩
      ∧ ¬ ((Instant.ofSeconds 2524608000).movedTo (-3600)).IsDated
      ∧ ¬ ((Instant.ofSeconds 2524607999).movedTo 3600).IsDated := by
  have range : ∀ t ∈ [Instant.ofSeconds 2524608000, .ofSeconds 2524607999], t.IsDatable := by
    decide
  have sides : ∀ t ∈ [Instant.ofSeconds 2524608000, .ofSeconds 2524607999], t.OnOneSide := by
    decide +kernel
  have behind : ¬ ((Instant.ofSeconds 2524608000).movedTo (-3600)).OnOneSide := by decide +kernel
  have ahead : ¬ ((Instant.ofSeconds 2524607999).movedTo 3600).OnOneSide := by decide +kernel
  refine ⟨fun t ht => ⟨range t ht, (Instant.isDated_iff (range t ht)).mpr (sides t ht)⟩,
    by decide +kernel, by decide +kernel, ?_, ?_⟩
  · exact mt (Instant.isDated_iff (by decide)).mp behind
  · exact mt (Instant.isDated_iff (by decide)).mp ahead

end Validity

end CertAuthority
