import TrafficMeter.Proofs.Marking
import TrafficMeter.Proofs.Optimum

/-!
# Rates that are read back

What a meter was configured with can be read off its record, as a number of whole units in a second. This is
the second time that a rate is rounded. The first time it was rounded when it was encoded, and the two errors
could add up.

They do not add up to more than one would allow: a pace credits at most a two-thousandth too little
(`Pace.le_choose_credit`), so that a rate of more than two thousand can afford to lose the fraction of a unit
too, and a smaller one loses no more than this fraction, which is one unit (`Pace.abs_rate_sub_le`).

## Main results

* `Pace.abs_rate_sub_le`: by how much a rate is off when it is read back;
* `Profile.ofRecord_after`: packets do not change what is read;
* `profiles_are_read_back`: what follows for profiles.
-/

namespace TrafficMeter

namespace Pace

/-- The pace chosen for `rate` credits at most a thousandth too much. -/
theorem choose_credit_le (resolution rate : Nat) :
    1000 * ((choose resolution rate).2 * nanosPerSecond) ≤ 1001 * (rate * (choose resolution rate).1) := by
  have hprecise := choose_precise resolution rate
  generalize choose resolution rate = chosen at *
  have hmore := le_abs_self ((chosen.2 * nanosPerSecond : Int) - rate * chosen.1)
  simp only [ratePrecision, Nat.cast_ofNat] at hprecise
  zify
  linarith

/-- The pace chosen for `rate` credits at most a two-thousandth too little. -/
theorem le_choose_credit (resolution : Nat) {rate : Nat} (hrate : 0 < rate) :
    1999 * (rate * (choose resolution rate).1) ≤ 2000 * ((choose resolution rate).2 * nanosPerSecond) := by
  rcases choose_cases resolution rate with ⟨-, hzero⟩ | ⟨hchosen, -⟩ | ⟨⟨period, hchosen, hperiod⟩, -⟩
  · exact absurd hzero hrate.ne'
  · -- The period of a single unit was rounded down, so nothing is lost at all.
    have hmul := Nat.mul_div_le nanosPerSecond rate
    rw [hchosen]
    dsimp only
    omega
  · rw [hchosen]
    dsimp only
    rcases min_choice (exactPeriod resolution rate) (precisePeriod resolution rate) with hmin | hmin
    · have hunits := unitsIn_mul_eq_of_dvd (dvd_rate_mul_exactPeriod resolution rate)
      rw [hperiod, hmin, hunits]
      omega
    · -- Half a unit is lost out of a thousand.
      have hround := (abs_le.mp (abs_unitsIn_sub_le rate (precisePeriod resolution rate))).1
      have hlong := le_rate_mul_precisePeriod resolution hrate
      rw [hperiod, hmin]
      simp only [ratePrecision, nanosPerSecond] at *
      omega

/-- If `credit` is near to `rate * period`, then `credit / period` is near to `rate`. -/
theorem div_near {credit period rate : Nat} (hperiod : 0 < period)
    (hless : 1999 * (rate * period) ≤ 2000 * credit) (hmore : 1000 * credit ≤ 1001 * (rate * period)) :
    1999 * rate < 2000 * (credit / period + 1) ∧ 1000 * (credit / period) ≤ 1001 * rate := by
  have hle := Nat.div_mul_le_self credit period
  have hlt := Nat.lt_div_mul_add (a := credit) hperiod
  generalize credit / period = quotient at *
  constructor
  · apply Nat.lt_of_mul_lt_mul_right (a := period)
    linarith
  · apply Nat.le_of_mul_le_mul_right _ hperiod
    linarith

/-- If the integer `shown` is so near to `rate`, then it differs from it by a thousandth at most, or by one. -/
theorem abs_sub_le_of_near {shown rate : Nat} (hbelow : 1999 * rate < 2000 * (shown + 1))
    (habove : 1000 * shown ≤ 1001 * rate) :
    1000 * |(shown : ℤ) - rate| ≤ max (rate : ℤ) 1000 := by
  rcases lt_or_ge rate 2000 with hsmall | hlarge
  · have hone : |(shown : ℤ) - rate| ≤ 1 := by
      rw [abs_le]
      omega
    linarith [le_max_right (rate : ℤ) 1000]
  · refine le_trans ?_ (le_max_left _ _)
    rw [abs_eq_max_neg]
    omega

theorem toNat_rate (pace : Pace) :
    pace.rate.toNat =
      min (UInt64.size - 1) (pace.quantum.toNat * nanosPerSecond / pace.period.toNat) :=
  UInt64.toNat_ofNat_of_lt' ((min_le_left _ _).trans_lt (by decide))

variable {timer : Timer} {tier : Tier} {rate : UInt64} {pace : Pace}

/-- The pace of a `rate` that is not zero has a period. -/
theorem period_pos (h : ofRate timer tier rate = .ok pace) (hrate : 0 < rate.toNat) : 0 < pace.period.toNat := by
  have hresolution : 0 < timer.resolution.toNat := UInt64.le_iff_toNat_le.mp timer.resolution_pos
  have hle := le_choose timer.resolution.toNat hrate
  rw [toNat_ofRate h] at hle
  exact hresolution.trans_le hle

/-- A `rate` is read back up to a thousandth, or up to one unit. -/
theorem abs_rate_sub_le (h : ofRate timer tier rate = .ok pace) :
    1000 * |(pace.rate.toNat : ℤ) - rate.toNat| ≤ max (rate.toNat : ℤ) 1000 := by
  have hchosen := toNat_ofRate h
  have hword := rate.toNat_lt_size
  rw [toNat_rate]
  rcases Nat.eq_zero_or_pos rate.toNat with hzero | hrate
  · -- A rate of zero has no period, and a quotient by zero is zero.
    rw [hzero] at hchosen ⊢
    obtain ⟨hperiod, hquantum⟩ := Prod.mk.inj hchosen
    rw [← hperiod, ← hquantum]
    decide
  · have hless := le_choose_credit timer.resolution.toNat hrate
    have hmore := choose_credit_le timer.resolution.toNat rate.toNat
    rw [hchosen] at hless hmore
    obtain ⟨hbelow, habove⟩ := div_near (period_pos h hrate) hless hmore
    -- What is cut off at the largest word lies beyond the rate, which is a word itself.
    apply abs_sub_le_of_near
    · simp only [UInt64.size] at *
      omega
    · exact (Nat.mul_le_mul_left _ (min_le_right _ _)).trans habove

/-- A `rate` that was encoded without rounding is read back. -/
theorem rate_eq_of_exact (h : ofRate timer tier rate = .ok pace)
    (hexact : pace.quantum.toNat * 10 ^ 9 = rate.toNat * pace.period.toNat) : pace.rate = rate := by
  have hsecond : nanosPerSecond = 10 ^ 9 := rfl
  rw [← UInt64.toNat_inj, toNat_rate, hsecond, hexact]
  rcases Nat.eq_zero_or_pos rate.toNat with hzero | hrate
  · rw [hzero, Nat.zero_mul, Nat.zero_div, Nat.min_zero]
  · rw [Nat.mul_div_cancel _ (period_pos h hrate), min_eq_right (Nat.le_sub_one_of_lt rate.toNat_lt_size)]

/-- A `rate` that was encoded by single units is read back as no less than it was. -/
theorem le_rate_of_allowsSingleUnits (h : ofRate timer tier rate = .ok pace) (hrate : 0 < rate.toNat)
    (hsingle : allowsSingleUnits timer.resolution.toNat rate.toNat) : rate ≤ pace.rate := by
  have hchosen := toNat_ofRate h
  rw [choose_of_allowsSingleUnits hrate hsingle] at hchosen
  obtain ⟨hperiod, hquantum⟩ := Prod.mk.inj hchosen
  rw [UInt64.le_iff_toNat_le, toNat_rate, ← hquantum, Nat.one_mul]
  refine le_min (Nat.le_sub_one_of_lt rate.toNat_lt_size) ((Nat.le_div_iff_mul_le (period_pos h hrate)).mpr ?_)
  rw [← hperiod]
  exact Nat.mul_div_le _ _

end Pace

namespace Profile

/-- The limit that is read for a `tier` is that of its bucket. -/
theorem limit_ofRecord (record : Record) (tier : Tier) :
    (ofRecord record).limit tier = Limit.ofBucket (record.bucket tier) := by
  cases tier <;> rfl

/-- A `packet` does not change the profile of a meter. -/
theorem ofRecord_receive (record : Record) (packet : Packet) :
    ofRecord (record.receive packet).2 = ofRecord record := by
  have htier (tier : Tier) : Limit.ofBucket ((record.receive packet).2.bucket tier) =
      Limit.ofBucket (record.bucket tier) := by
    -- Refilling and paying change the level and the stamp only.
    rw [Record.bucket_receive]
    rfl
  exact congrArg₂ Profile.mk (htier .peak) (htier .committed)

/-- A run of `packets` does not change the profile of a meter. -/
theorem ofRecord_after (record : Record) (packets : List Packet) :
    ofRecord (record.after packets) = ofRecord record := by
  induction packets generalizing record with
  | nil => rfl
  | cons packet rest ih => exact (ih _).trans (ofRecord_receive record packet)

/-- The bucket of each `tier` of a new `record` is refilled at the pace of the rate of its limit and has the
burst for its capacity. -/
theorem bucket_of_toRecord {timer : Timer} {profile : Profile} {record : Record}
    (h : profile.toRecord timer = .ok record) (tier : Tier) :
    Pace.ofRate timer tier (profile.limit tier).rate = .ok (record.bucket tier).pace ∧
      (record.bucket tier).capacity = (profile.limit tier).burst := by
  have hbucket : (profile.limit tier).toBucket timer tier = .ok (record.bucket tier) := by
    obtain ⟨hpeak, hcommitted⟩ := toRecord_eq_ok_iff.mp h
    cases tier with
    | peak => exact hpeak
    | committed => exact hcommitted
  obtain ⟨hcapacity, -, -, hpace⟩ := Limit.toBucket_eq_ok hbucket
  exact ⟨Pace.ofRate_eq_ok_iff.mpr hpace, hcapacity⟩

end Profile

/-- What a meter was configured with is read back from its `record`:

- the bursts are read back as they were;
- the rates are read back up to a thousandth, or up to one unit if that is more: without any error if the
  encoding is exact, and not below what they were if they are encoded by single units;
- packets do not change what is read. -/
theorem profiles_are_read_back (resolution : UInt64) (profile : Profile) (record : Record)
    (h : profile.toRecord (.ofResolution resolution) = .ok record) :
    (∀ tier : Tier,
      let given := profile.limit tier
      let shown := (Profile.ofRecord record).limit tier
      let bucket := record.bucket tier
      let rate : ℕ := given.rate.toNat
      shown.burst = given.burst ∧
      1000 * |(shown.rate.toNat : ℤ) - rate| ≤ max (rate : ℤ) 1000 ∧
      (bucket.quantum.toNat * 10 ^ 9 = rate * bucket.period.toNat → shown.rate = given.rate) ∧
      (0 < rate ∧ max resolution.toNat 1 ≤ 10 ^ 9 / rate ∧ (rate ∣ 10 ^ 9 ∨ 1000 ≤ 10 ^ 9 / rate) →
        given.rate ≤ shown.rate)) ∧
    ∀ packets : List Packet, Profile.ofRecord (record.after packets) = Profile.ofRecord record := by
  refine ⟨fun tier => ?_, Profile.ofRecord_after record⟩
  intro given shown bucket rate
  obtain ⟨hpace, hcapacity⟩ := Profile.bucket_of_toRecord h tier
  have hshown : shown = Limit.ofBucket bucket := Profile.limit_ofRecord record tier
  rw [hshown]
  refine ⟨hcapacity, Pace.abs_rate_sub_le hpace, fun hexact => ?_, fun hsingle => ?_⟩
  · exact Pace.rate_eq_of_exact hpace hexact
  · apply Pace.le_rate_of_allowsSingleUnits hpace hsingle.1
    rw [Pace.allowsSingleUnits_iff, Timer.toNat_ofResolution]
    exact hsingle.2

/-- For a very coarse timer a rate of three is encoded by a little less and read back as two. A rate of zero is
read back exactly. -/
theorem profiles_are_read_back_coarse :
    let record : Record := ⟨⟨1000000000000000001, 3000000000, 5, 5, 0⟩, ⟨0, 0, 7, 7, 0⟩⟩
    Profile.toRecord (.ofResolution 1000000000000000001) ⟨⟨3, 5⟩, ⟨0, 7⟩⟩ = .ok record ∧
      Profile.ofRecord record = ⟨⟨2, 5⟩, ⟨0, 7⟩⟩ ∧ 1000 * |(2 : ℤ) - 3| ≤ max 3 1000 ∧
      Profile.ofRecord (record.after [⟨.green, 4, 1⟩, ⟨.yellow, 9, 0⟩]) = ⟨⟨2, 5⟩, ⟨0, 7⟩⟩ := by
  intro record
  have hrecord : Profile.toRecord (.ofResolution 1000000000000000001) ⟨⟨3, 5⟩, ⟨0, 7⟩⟩ = .ok record := by
    decide +kernel
  have hprofile : Profile.ofRecord record = ⟨⟨2, 5⟩, ⟨0, 7⟩⟩ := by decide +kernel
  obtain ⟨htiers, hruns⟩ := profiles_are_read_back _ _ _ hrecord
  obtain ⟨-, hnear, -⟩ := htiers .peak
  rw [hprofile] at hnear
  exact ⟨hrecord, hprofile, hnear, (hruns _).trans hprofile⟩

end TrafficMeter
