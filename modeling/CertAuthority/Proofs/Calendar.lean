import CertAuthority.Calendar.Time
import CertAuthority.Proofs.Der.Primitive
import Mathlib.Order.Monotone.Basic

namespace CertAuthority

namespace Civil

/-- Rounding up by a divisor moves on exactly behind its multiples. -/
theorem ceil_succ (year k : Nat) :
    (year + (k + 1)) / (k + 1) = (year + k) / (k + 1) + if year % (k + 1) = 0 then 1 else 0 := by
  have next : year + (k + 1) = year + k + 1 := by omega
  rw [next, Nat.succ_div]
  congr 1
  have whole : k + 1 ∣ year + k + 1 ↔ year % (k + 1) = 0 := by
    rw [← next, Nat.dvd_add_self_right, Nat.dvd_iff_mod_eq_zero]
  by_cases h : year % (k + 1) = 0
  · rw [if_pos (whole.mpr h), if_pos h]
  · rw [if_neg (mt whole.mp h), if_neg h]

theorem sum_monthLengths (year : Nat) :
    (monthLengths year).sum = if isLeap year then 366 else 365 := by
  unfold monthLengths
  cases isLeap year <;> rfl

theorem daysBefore_succ (year : Nat) :
    daysBefore (year + 1) = daysBefore year + (monthLengths year).sum := by
  have h4 := ceil_succ year 3
  have h100 := ceil_succ year 99
  have h400 := ceil_succ year 399
  have few : (year + 99) / 100 ≤ (year + 3) / 4 := by omega
  have hundred : year % 400 = 0 → year % 100 = 0 := by omega
  have four : year % 100 = 0 → year % 4 = 0 := by omega
  simp only [sum_monthLengths, isLeap, daysBefore]
  simp only [Nat.reduceAdd, Nat.add_assoc, Nat.reduceAdd] at h4 h100 h400 ⊢
  generalize (year + 3) / 4 = a at *
  generalize (year + 99) / 100 = b at *
  generalize (year + 399) / 400 = c at *
  rw [h4, h100, h400]
  -- A quotient grows by one at the multiples of its divisor.
  by_cases m4 : year % 4 = 0
  · by_cases m100 : year % 100 = 0
    · by_cases m400 : year % 400 = 0
      · simp [m4, m100, m400]
        omega
      · simp [m4, m100, m400]
        omega
    · simp [m4, m100, mt hundred m100]
      omega
  · simp [m4, mt four m4, mt hundred (mt four m4)]
    omega

theorem daysBefore_mono : Monotone daysBefore :=
  monotone_nat_of_le_succ fun year => (daysBefore_succ year).symm ▸ Nat.le_add_right _ _

/-- A year takes 365 days and 97 four-hundredths of a day on the average. -/
theorem daysBefore_bounds (year : Nat) :
    146097 * year ≤ 400 * daysBefore year + 396 ∧ 400 * daysBefore year ≤ 146097 * year + 699 := by
  unfold daysBefore
  omega

/-- The year of a day is the one between whose start and the next it lies. -/
theorem yearOf_spec (day : Nat) :
    daysBefore (yearOf day) ≤ day ∧ day < daysBefore (yearOf day + 1) := by
  have guess : day * 400 / 146097 * 146097 ≤ day * 400
      ∧ day * 400 < day * 400 / 146097 * 146097 + 146097 := by omega
  unfold yearOf
  simp only
  generalize day * 400 / 146097 = g at guess ⊢
  -- The bounds leave no room for a guess that is off by two years.
  split
  next late => exact ⟨late, by have := daysBefore_bounds (g + 1 + 1); omega⟩
  next =>
    split
    next early =>
      cases g with
      | zero =>
        have : daysBefore 0 = 0 := rfl
        omega
      | succ g => exact ⟨by have := daysBefore_bounds g; rw [Nat.add_sub_cancel]; omega, early⟩
    next => omega

theorem monthOf_sum (lengths : List Nat) (day : Nat) :
    (lengths.take (monthOf lengths day).1).sum + (monthOf lengths day).2 = day := by
  induction lengths generalizing day with
  | nil => simp [monthOf]
  | cons length rest ih =>
    by_cases h : day < length
    · simp [monthOf, h]
    · have := ih (day - length)
      simp only [monthOf, h, if_false, List.take_succ_cons, List.sum_cons]
      omega

theorem monthOf_lt {lengths : List Nat} {day : Nat} (h : day < lengths.sum) :
    (monthOf lengths day).1 < lengths.length
      ∧ ∃ length ∈ lengths, (monthOf lengths day).2 < length := by
  induction lengths generalizing day with
  | nil => simp at h
  | cons length rest ih =>
    by_cases hd : day < length
    · exact ⟨by simp [monthOf, hd], length, by simp, by simp [monthOf, hd]⟩
    · rw [List.sum_cons] at h
      obtain ⟨month, l, hl, left⟩ := ih (show day - length < rest.sum by omega)
      refine ⟨?_, l, List.mem_cons_of_mem _ hl, ?_⟩
      · simp only [monthOf, hd, if_false, List.length_cons]
        omega
      · simpa only [monthOf, hd, if_false] using left

theorem monthLengths_le {year length : Nat} (h : length ∈ monthLengths year) : length ≤ 31 := by
  have all : (monthLengths year).all (· ≤ 31) = true := by
    unfold monthLengths
    cases isLeap year <;> rfl
  exact of_decide_eq_true (List.all_eq_true.mp all length h)

/-- A day of a year lies in one of twelve months, none of them longer than 31 days. -/
theorem monthOf_year {year day : Nat} (h : day < (monthLengths year).sum) :
    (monthOf (monthLengths year) day).1 < 12 ∧ (monthOf (monthLengths year) day).2 < 31 := by
  obtain ⟨month, length, member, left⟩ := monthOf_lt h
  exact ⟨month, left.trans_le (monthLengths_le member)⟩

theorem ofDay_month_day (day n : Nat) : (ofDay day n).month ≤ 12 ∧ (ofDay day n).day ≤ 31 := by
  obtain ⟨low, high⟩ := yearOf_spec day
  rw [daysBefore_succ] at high
  exact monthOf_year (Nat.sub_lt_left_of_lt_add low high)

theorem toDay_ofDay (day n : Nat) : (ofDay day n).toDay = day := by
  obtain ⟨low, -⟩ := yearOf_spec day
  have sum := monthOf_sum (monthLengths (yearOf day)) (day - daysBefore (yearOf day))
  rw [List.sum_eq_foldr] at sum
  simp only [ofDay, toDay, Nat.add_sub_cancel]
  omega

theorem ofDay_year {day n first last : Nat} (low : daysBefore first ≤ day)
    (high : day < daysBefore last) : first ≤ (ofDay day n).year ∧ (ofDay day n).year < last := by
  obtain ⟨start, stop⟩ := yearOf_spec day
  have year : (ofDay day n).year = yearOf day := rfl
  rw [year]
  constructor
  · by_contra h
    have := daysBefore_mono (show yearOf day + 1 ≤ first by omega)
    omega
  · by_contra h
    have := daysBefore_mono (show last ≤ yearOf day by omega)
    omega

theorem toSeconds_ofSeconds (n : Nat) : (ofSeconds n).toSeconds = n := by
  have second := Nat.div_add_mod n 60
  have minute := Nat.div_add_mod (n / 60) 60
  have hour := Nat.div_add_mod (n / 3600) 24
  rw [Nat.div_div_eq_div_mul] at minute hour
  rw [toSeconds, ofSeconds, toDay_ofDay, Nat.add_sub_cancel]
  change n / 86400 * 86400 + n / 3600 % 24 * 3600 + n / 60 % 60 * 60 + n % 60 = n
  simp only [Nat.reduceMul] at minute hour
  omega

theorem ofSeconds_year {n last : Nat} (h : n < (daysBefore last - epochDay) * 86400) :
    1970 ≤ (ofSeconds n).year ∧ (ofSeconds n).year < last :=
  ofDay_year (Nat.le_add_left _ _) (Nat.add_lt_of_lt_sub (Nat.div_lt_of_lt_mul (by omega)))

end Civil

theorem Instant.seconds_eq (t : Instant) : t.seconds = t.nanos / Duration.perSecond :=
  Int.fdiv_eq_ediv_of_nonneg _ (by decide)

theorem Instant.add?_offset {t later : Instant} {d : Duration} (h : t.add? d = some later) :
    later.offset = t.offset := by
  simp only [Instant.add?] at h
  split at h
  next => rw [← Option.some.inj h]
  next => cases h

namespace Time

theorem pair_twoDigits {n : Nat} (h : n < 100) :
    pair (UInt8.ofNat (48 + n / 10 % 10)) (UInt8.ofNat (48 + n % 10)) = n := by
  unfold pair
  rw [toNat_ofNat_mod, toNat_ofNat_mod]
  omega

theorem century_of_range {year : Nat} (low : 1970 ≤ year) (high : year < 2050) :
    century (year % 100) = year := by
  unfold century
  split <;> omega

theorem generalFrom_eq : generalFrom = (Civil.daysBefore 2050 - Civil.epochDay) * 86400 := by decide

theorem limit_eq : limit = (Civil.daysBefore 10000 - Civil.epochDay) * 86400 := by decide

/-- The years that a form has room for. -/
theorem year_of_isSound {t : Time} (h : t.isSound = true) :
    1970 ≤ (Civil.ofSeconds t.seconds).year
      ∧ (Civil.ofSeconds t.seconds).year < if t.form = .utc then 2050 else 10000 := by
  unfold isSound at h
  cases hf : t.form with
  | utc =>
    rw [hf] at h
    exact Civil.ofSeconds_year (generalFrom_eq ▸ of_decide_eq_true h)
  | general =>
    rw [hf] at h
    exact Civil.ofSeconds_year (limit_eq ▸ of_decide_eq_true h)

/-- The text of a date spells the seconds that it was made from. -/
theorem spelled?_content {t : Time} (h : t.isSound = true) :
    spelled? t.form t.content = some t.seconds := by
  obtain ⟨hmonth, hday⟩ : (Civil.ofSeconds t.seconds).month ≤ 12
      ∧ (Civil.ofSeconds t.seconds).day ≤ 31 := Civil.ofDay_month_day _ _
  obtain ⟨low, high⟩ := year_of_isSound h
  have hour : (Civil.ofSeconds t.seconds).hour < 24 := Nat.mod_lt _ (by decide)
  have minute : (Civil.ofSeconds t.seconds).minute < 60 := Nat.mod_lt _ (by decide)
  have second : (Civil.ofSeconds t.seconds).second < 60 := Nat.mod_lt _ (by decide)
  have whole := Civil.toSeconds_ofSeconds t.seconds
  cases hf : t.form with
  | utc =>
    simp only [hf, if_true] at high
    simp only [content, hf, twoDigits, tail, List.cons_append, List.nil_append, spelled?]
    rw [pair_twoDigits (Nat.mod_lt _ (by decide)), century_of_range low high,
      pair_twoDigits (by omega), pair_twoDigits (by omega), pair_twoDigits (by omega),
      pair_twoDigits (by omega), pair_twoDigits (by omega), whole]
  | general =>
    simp only [hf, reduceCtorEq, if_false] at high
    simp only [content, hf, twoDigits, tail, List.cons_append, List.nil_append, spelled?]
    rw [pair_twoDigits (by omega), pair_twoDigits (Nat.mod_lt _ (by decide)),
      pair_twoDigits (by omega), pair_twoDigits (by omega), pair_twoDigits (by omega),
      pair_twoDigits (by omega), pair_twoDigits (by omega), Nat.mul_comm, Nat.div_add_mod, whole]

theorem ofContent?_content {t : Time} (h : t.isSound = true) :
    ofContent? t.form t.content = some t := by
  rw [ofContent?, spelled?_content h]
  exact if_pos ⟨h, rfl⟩

theorem ofElement?_element {t : Time} (h : t.isSound = true) : ofElement? t.element = some t := by
  have hc := ofContent?_content h
  cases hf : t.form with
  | utc =>
    rw [hf] at hc
    simpa only [ofElement?, element, hf, tag, if_true] using hc
  | general =>
    rw [hf] at hc
    have other : ¬ Der.Tag.generalizedTime = Der.Tag.utcTime := by decide
    simpa only [ofElement?, element, hf, tag, if_neg other, if_true] using hc

theorem ofInstant_eq_ok {i : Instant} {t : Time} (h : ofInstant i = .ok t) :
    t.isSound = true ∧ (t.seconds : Int) = i.seconds := by
  simp only [ofInstant] at h
  split at h
  next range =>
    cases Except.ok.inj h
    refine ⟨range.2.2, ?_⟩
    have : 0 ≤ i.seconds := by
      rw [Instant.seconds, Int.fdiv_eq_ediv_of_nonneg _ (by decide)]
      exact Int.ediv_nonneg range.1 (by decide)
    exact Int.toNat_of_nonneg this
  next => simp at h

/-- What is read back from the date of an instant is the instant without the fraction of its
second. -/
theorem instant_of_ofInstant {i : Instant} {t : Time} (h : ofInstant i = .ok t) :
    t.instant = .ofSeconds i.seconds := by
  rw [instant, (ofInstant_eq_ok h).2]

/-- The date of an instant, whether it is in the range of dates or not. -/
def draft (i : Instant) : Time := ⟨formOf i, i.seconds.toNat⟩

theorem eq_draft_of_ofInstant {i : Instant} {t : Time} (h : ofInstant i = .ok t) : t = draft i := by
  simp only [ofInstant] at h
  split at h
  next => exact (Except.ok.inj h).symm
  next => cases h

theorem draft_isSound {i : Instant} (utc : i.offset = 0) (low : 0 ≤ i.nanos)
    (high : i.nanos ≤ Instant.lastSecond * Duration.perSecond) : (draft i).isSound = true := by
  have whole : i.seconds = i.nanos / 1000000000 := Int.fdiv_eq_ediv_of_nonneg _ (by decide)
  simp only [Instant.lastSecond, Duration.perSecond] at high
  unfold isSound draft formOf
  split
  next early =>
    split at early
    next before =>
      rw [Instant.localSeconds, utc] at before
      simp only [generalFrom] at before
      apply decide_eq_true
      show i.seconds.toNat < 2524608000
      omega
    next => cases early
  next =>
    apply decide_eq_true
    show i.seconds.toNat < 253402300800
    omega

/-- An instant of UTC has a date exactly from the start of 1970 to the last second of 9999. -/
theorem ofInstant_eq_draft_iff {i : Instant} (utc : i.offset = 0) : ofInstant i = .ok (draft i)
    ↔ 0 ≤ i.nanos ∧ i.nanos ≤ Instant.lastSecond * Duration.perSecond := by
  simp only [ofInstant]
  constructor
  · intro h
    split at h
    next range => exact ⟨range.1, range.2.1⟩
    next => cases h
  · rintro ⟨low, high⟩
    exact if_pos ⟨low, high, draft_isSound utc low high⟩

theorem element_known (t : Time) : Der.Tag.isKnown t.element.tag = true := by
  unfold element tag
  cases t.form <;> rfl

end Time

end CertAuthority
