import TrafficMeter.Profile
import TrafficMeter.Proofs.Outcome
import Mathlib.Tactic.Linarith
import Mathlib.Tactic.Ring

/-!
# Precision of paces

The pace that is chosen for a rate credits the rate up to a thousandth, whichever of the three periods is
taken: one unit in a period that divides the second or is long enough to be rounded down, a whole number of
units in an exact period, or about a thousand units, rounded, in a precise one (`Pace.choose_precise`). No
period is shorter than the resolution of the timer (`Pace.le_choose`), and none credits nothing
(`Pace.choose_quantum_pos`), so a bucket is idle only if it was given no rate.

## Main results

* `Pace.choose_precise`: the error of a chosen pace is at most a thousandth;
* `rates_are_encoded_precisely`: what follows for rates and for meters that are given a profile.
-/

namespace TrafficMeter

namespace Pace

/-- `exactPeriod` is a multiple of the step between exact periods, so that it credits a whole number of units. -/
theorem dvd_rate_mul_exactPeriod (resolution rate : Nat) :
    nanosPerSecond ∣ rate * exactPeriod resolution rate := by
  set g := Nat.gcd rate nanosPerSecond with hg
  have hgrate : g ∣ rate := Nat.gcd_dvd_left _ _
  have hgnanos : g ∣ nanosPerSecond := Nat.gcd_dvd_right _ _
  have hstep : nanosPerSecond ∣ rate * (nanosPerSecond / g) := by
    rw [← Nat.mul_div_assoc _ hgnanos, Nat.mul_comm, Nat.mul_div_assoc _ hgrate]
    exact Nat.dvd_mul_right _ _
  rw [exactPeriod, ← Nat.mul_assoc, Nat.mul_right_comm]
  exact Nat.dvd_trans hstep (Nat.dvd_mul_right _ _)

/-- `precisePeriod` has room for at least a thousand units. -/
theorem le_rate_mul_precisePeriod (resolution : Nat) {rate : Nat} (hrate : 0 < rate) :
    ratePrecision * nanosPerSecond ≤ rate * precisePeriod resolution rate := by
  have hceil : ratePrecision * nanosPerSecond ≤
      rate * ((ratePrecision * nanosPerSecond + rate - 1) / rate) := by
    have hdiv := Nat.div_add_mod (ratePrecision * nanosPerSecond + rate - 1) rate
    have hmod := Nat.mod_lt (ratePrecision * nanosPerSecond + rate - 1) hrate
    omega
  exact hceil.trans (Nat.mul_le_mul_left _ (le_max_right _ _))

/-- The units that `unitsIn` rounds to are off by at most half a unit. -/
theorem abs_unitsIn_sub_le (rate period : Nat) :
    |(unitsIn rate period * nanosPerSecond : Int) - rate * period| ≤ nanosPerSecond / 2 := by
  have hdiv := Nat.div_add_mod (rate * period + nanosPerSecond / 2) nanosPerSecond
  have hmod := Nat.mod_lt (rate * period + nanosPerSecond / 2) (show 0 < nanosPerSecond by decide)
  rw [abs_le, unitsIn]
  simp only [nanosPerSecond] at *
  constructor <;> omega

/-- Units are not rounded if `period` credits a whole number of them. -/
theorem unitsIn_mul_eq_of_dvd {rate period : Nat} (h : nanosPerSecond ∣ rate * period) :
    unitsIn rate period * nanosPerSecond = rate * period := by
  obtain ⟨units, hunits⟩ := h
  rw [unitsIn, hunits, Nat.mul_comm, Nat.mul_add_div (by decide)]
  rfl

/-- A single unit in a period that is allowed for it is off by at most a thousandth. -/
theorem single_unit_precise {resolution rate : Nat} (hrate : 0 < rate)
    (h : allowsSingleUnits resolution rate) :
    ratePrecision * |(nanosPerSecond : Int) - rate * (nanosPerSecond / rate : Nat)| ≤
      rate * (nanosPerSecond / rate : Nat) := by
  have hdiv := Nat.div_add_mod nanosPerSecond rate
  have hmod := Nat.mod_lt nanosPerSecond hrate
  simp only [allowsSingleUnits, Bool.and_eq_true, Bool.or_eq_true, decide_eq_true_eq, beq_iff_eq] at h
  -- What is lost by rounding the period down is the remainder of the division.
  generalize nanosPerSecond / rate = period at *
  generalize nanosPerSecond % rate = rest at *
  have hrest : (nanosPerSecond : Int) - rate * period = rest := by
    rw [← hdiv]
    push_cast
    ring
  rw [hrest, abs_of_nonneg (Int.natCast_nonneg _)]
  norm_cast
  rcases h.2 with hexact | hlong
  · rw [hexact, Nat.mul_zero]
    exact Nat.zero_le _
  · rw [Nat.mul_comm rate]
    exact Nat.mul_le_mul hlong hmod.le

/-- The period and the quantum chosen for `rate` credit it up to a thousandth. -/
theorem choose_precise (resolution rate : Nat) :
    ratePrecision *
        |((choose resolution rate).2 * nanosPerSecond : Int) - rate * (choose resolution rate).1| ≤
      rate * (choose resolution rate).1 := by
  rw [choose]
  split
  next hzero => simp [hzero]
  next hzero =>
    have hrate := Nat.pos_of_ne_zero hzero
    split
    next hsingle => simpa using single_unit_precise hrate hsingle
    next =>
      rcases min_choice (exactPeriod resolution rate) (precisePeriod resolution rate) with hmin | hmin
      · -- An exact period credits whole units, so nothing is rounded.
        have hexact := unitsIn_mul_eq_of_dvd (dvd_rate_mul_exactPeriod resolution rate)
        simp only [hmin]
        rw [← Nat.cast_mul, ← Nat.cast_mul, hexact, sub_self, abs_zero, mul_zero]
        exact Int.natCast_nonneg _
      · -- Half a unit is less than a thousandth of the thousand units that a precise period credits.
        have hround := abs_unitsIn_sub_le rate (precisePeriod resolution rate)
        have hlong := le_rate_mul_precisePeriod resolution hrate
        simp only [hmin]
        zify at hlong
        simp only [ratePrecision, nanosPerSecond] at *
        push_cast at *
        linarith

/-- `exactPeriod` is no shorter than `resolution`. -/
theorem le_exactPeriod (resolution rate : Nat) : resolution ≤ exactPeriod resolution rate := by
  rw [exactPeriod]
  set step := nanosPerSecond / Nat.gcd rate nanosPerSecond
  show resolution ≤ (resolution + step - 1) / step * step
  -- The greatest common divisor divides the second, so there is a step between exact periods.
  have hstep : 0 < step := Nat.div_gcd_pos_of_pos_right rate (by decide)
  have hdiv := Nat.div_add_mod' (resolution + step - 1) step
  have hmod := Nat.mod_lt (resolution + step - 1) hstep
  omega

/-- The period chosen for `rate` is no shorter than `resolution`. -/
theorem le_choose (resolution : Nat) {rate : Nat} (hrate : 0 < rate) :
    resolution ≤ (choose resolution rate).1 := by
  rw [choose, if_neg hrate.ne']
  split
  next hsingle =>
    simp only [allowsSingleUnits, Bool.and_eq_true, decide_eq_true_eq] at hsingle
    exact hsingle.1
  next => exact le_min (le_exactPeriod resolution rate) (le_max_left _ _)

/-- The quantum chosen for `rate` is at least one unit. -/
theorem choose_quantum_pos {resolution rate : Nat} (hresolution : 0 < resolution) (hrate : 0 < rate) :
    0 < (choose resolution rate).2 := by
  have hperiod := hresolution.trans_le (le_choose resolution hrate)
  have hprecise := choose_precise resolution rate
  generalize choose resolution rate = chosen at hperiod hprecise ⊢
  -- A quantum of zero would be off by the whole rate, and that is more than a thousandth of it.
  by_contra hzero
  have hnothing : chosen.2 = 0 := Nat.eq_zero_of_not_pos hzero
  have hunits : (0 : Int) < rate * chosen.1 := by positivity
  rw [hnothing, Nat.cast_zero, zero_mul, zero_sub, abs_neg, abs_of_pos hunits, ratePrecision,
    Nat.cast_ofNat] at hprecise
  linarith

/-- A `pace` that fits into words is the chosen one. -/
theorem toNat_ofRate {timer : Timer} {tier : Tier} {rate : UInt64} {pace : Pace}
    (h : ofRate timer tier rate = .ok pace) :
    choose timer.resolution.toNat rate.toNat = (pace.period.toNat, pace.quantum.toNat) := by
  rw [ofRate] at h
  split at h
  next hfits =>
    cases h
    rw [UInt64.toNat_ofNat_of_lt' hfits.1, UInt64.toNat_ofNat_of_lt' hfits.2]
  next => cases h

end Pace

/-- A `resolution` of zero stands for one. -/
theorem Timer.toNat_ofResolution (resolution : UInt64) :
    (ofResolution resolution).resolution.toNat = max resolution.toNat 1 := by
  rw [ofResolution]
  split
  next hpos => exact (max_eq_left (UInt64.le_iff_toNat_le.mp hpos)).symm
  next hzero =>
    rw [UInt64.le_iff_toNat_le, not_le] at hzero
    exact (max_eq_right hzero.le).symm

/-- A new `bucket` is full and has the burst of its `limit` for capacity and the chosen pace for its rate. -/
theorem Limit.toBucket_eq_ok {timer : Timer} {tier : Tier} {limit : Limit} {bucket : Bucket}
    (h : limit.toBucket timer tier = .ok bucket) :
    bucket.capacity = limit.burst ∧ bucket.level = limit.burst ∧ bucket.stamp = 0 ∧
      Pace.choose timer.resolution.toNat limit.rate.toNat = (bucket.period.toNat, bucket.quantum.toNat) := by
  obtain ⟨pace, hpace, hbucket⟩ := bind_eq_ok_iff.mp h
  cases hbucket
  exact ⟨rfl, rfl, rfl, Pace.toNat_ofRate hpace⟩

/-- A new `bucket` gains no tokens exactly if the rate of its `limit` is zero. -/
theorem Limit.isIdle_toBucket_iff {timer : Timer} {tier : Tier} {limit : Limit} {bucket : Bucket}
    (h : limit.toBucket timer tier = .ok bucket) : bucket.isIdle ↔ limit.rate = 0 := by
  obtain ⟨-, -, -, hpace⟩ := toBucket_eq_ok h
  have hresolution : 0 < timer.resolution.toNat := UInt64.le_iff_toNat_le.mp timer.resolution_pos
  simp only [Bucket.isIdle, Bool.or_eq_true, beq_iff_eq, ← UInt64.toNat_inj, UInt64.toNat_zero]
  constructor
  · intro hidle
    by_contra hrate
    have hpos := Nat.pos_of_ne_zero hrate
    have hperiod := hresolution.trans_le (Pace.le_choose timer.resolution.toNat hpos)
    have hquantum := Pace.choose_quantum_pos hresolution hpos
    rw [hpace] at hperiod hquantum
    omega
  · intro hrate
    rw [hrate] at hpace
    exact .inl (Prod.mk.inj hpace).1.symm

namespace Profile

/-- The limit of a tier. -/
def limit (profile : Profile) : Tier → Limit
  | .peak => profile.peak
  | .committed => profile.committed

/-- The buckets of a new `record` are those of the two limits. -/
theorem toRecord_eq_ok_iff {timer : Timer} {profile : Profile} {record : Record} :
    profile.toRecord timer = .ok record ↔
      profile.peak.toBucket timer .peak = .ok record.peak ∧
        profile.committed.toBucket timer .committed = .ok record.committed := by
  rw [toRecord, bind_eq_ok_iff]
  constructor
  · rintro ⟨peak, hpeak, hrest⟩
    obtain ⟨committed, hcommitted, hrecord⟩ := bind_eq_ok_iff.mp hrest
    cases hrecord
    exact ⟨hpeak, hcommitted⟩
  · rintro ⟨hpeak, hcommitted⟩
    exact ⟨_, hpeak, by simp [hcommitted]⟩

end Profile

/-- A rate that is not zero and does not overflow is encoded by a period that is no shorter than `resolution` and
at least one unit in it, and these credit the rate up to a thousandth. So a meter that was given a profile is
unconfigured only if both rates of the profile are zero. -/
theorem rates_are_encoded_precisely (resolution : UInt64) :
    (∀ (tier : Tier) (rate : UInt64) (pace : Pace), 0 < rate →
      Pace.ofRate (.ofResolution resolution) tier rate = .ok pace →
        max resolution.toNat 1 ≤ pace.period.toNat ∧ 1 ≤ pace.quantum.toNat ∧
          1000 * |(pace.quantum.toNat * 10 ^ 9 : Int) - rate.toNat * pace.period.toNat| ≤
            rate.toNat * pace.period.toNat) ∧
    ∀ (profile : Profile) (record : Record), profile.toRecord (.ofResolution resolution) = .ok record →
      (record.isUnconfigured ↔ profile.peak.rate = 0 ∧ profile.committed.rate = 0) := by
  constructor
  · intro tier rate pace hrate hpace
    have hchosen := Pace.toNat_ofRate hpace
    rw [Timer.toNat_ofResolution] at hchosen
    have hpos : 0 < rate.toNat := UInt64.lt_iff_toNat_lt.mp hrate
    have hperiod := Pace.le_choose (max resolution.toNat 1) hpos
    have hquantum := Pace.choose_quantum_pos (le_max_right resolution.toNat 1) hpos
    have hprecise := Pace.choose_precise (max resolution.toNat 1) rate.toNat
    rw [hchosen] at hperiod hquantum hprecise
    exact ⟨hperiod, hquantum, hprecise⟩
  · intro profile record hrecord
    obtain ⟨hpeak, hcommitted⟩ := Profile.toRecord_eq_ok_iff.mp hrecord
    rw [Record.isUnconfigured, Bool.and_eq_true, Limit.isIdle_toBucket_iff hpeak,
      Limit.isIdle_toBucket_iff hcommitted]

/-- A rate whose units are rounded, for a timer of no resolution, and a profile of which only the committed
rate is zero. -/
theorem rates_are_encoded_precisely_rounded :
    Pace.ofRate (.ofResolution 0) .peak 123456789 = .ok ⟨8101, 1000⟩ ∧
      1000 * |(1000 * 10 ^ 9 : Int) - 123456789 * 8101| ≤ 123456789 * 8101 ∧
      Profile.toRecord (.ofResolution 0) { peak := ⟨3, 5⟩ } = .ok { peak := ⟨333333333, 1, 5, 5, 0⟩ } ∧
      ¬ ({ peak := ⟨333333333, 1, 5, 5, 0⟩ } : Record).isUnconfigured := by
  have hpace : Pace.ofRate (.ofResolution 0) .peak 123456789 = .ok ⟨8101, 1000⟩ := by decide
  have hrecord : Profile.toRecord (.ofResolution 0) { peak := ⟨3, 5⟩ } =
      .ok { peak := ⟨333333333, 1, 5, 5, 0⟩ } := by decide
  obtain ⟨hrates, hprofiles⟩ := rates_are_encoded_precisely 0
  refine ⟨hpace, (hrates .peak 123456789 _ (by decide) hpace).2.2, hrecord, ?_⟩
  rw [hprofiles _ _ hrecord]
  decide

end TrafficMeter
