import TrafficMeter.Proofs.Pace
import Mathlib.Algebra.Order.Floor.Div
import Mathlib.Algebra.Order.Round
import Mathlib.Data.Rat.Floor

/-!
# Paces as optima

A rate can be encoded in many ways, and the one that is chosen is the best of its kind. Where single units are
too coarse, the period is the shorter of two, and each of these is an optimum that can be said without a look
at how it is computed:

- `Pace.isLeast_exactPeriod`: no shorter period that the timer supports credits a whole number of units. The
  periods that do are the multiples of one step (`Pace.dvd_rate_mul_iff`), and the computed period is the first
  of them that is long enough;
- `Pace.precisePeriod_eq_max_ceil`: no shorter period that the timer supports has room for a thousand units;
- `Pace.unitsIn_eq_round`: the units of a period are the nearest whole number.
-/

namespace TrafficMeter

namespace Pace

/-- A `period` credits a whole number of units exactly if it is a multiple of the step `nanosPerSecond / Nat.gcd
rate nanosPerSecond`. -/
theorem dvd_rate_mul_iff (rate period : Nat) :
    nanosPerSecond ∣ rate * period ↔ nanosPerSecond / Nat.gcd rate nanosPerSecond ∣ period := by
  have hgcd : 0 < Nat.gcd rate nanosPerSecond := Nat.gcd_pos_of_pos_right _ (by decide)
  rw [Nat.div_dvd_iff_dvd_mul (Nat.gcd_dvd_right _ _) hgcd, Nat.gcd_comm, Nat.dvd_gcd_mul_iff_dvd_mul]

/-- No `period` that the timer supports and that credits a whole number of units is shorter than `exactPeriod`.
-/
theorem exactPeriod_le {resolution rate period : Nat} (hresolution : resolution ≤ period)
    (hexact : nanosPerSecond ∣ rate * period) : exactPeriod resolution rate ≤ period := by
  have hstep : 0 < nanosPerSecond / Nat.gcd rate nanosPerSecond :=
    Nat.div_gcd_pos_of_pos_right rate (by decide)
  obtain ⟨count, rfl⟩ := (dvd_rate_mul_iff rate period).mp hexact
  -- The number of steps is rounded up, so it is the least that reaches the resolution.
  have hcount := (ceilDiv_le_iff_le_mul hstep).mpr hresolution
  rw [Nat.ceilDiv_eq_add_pred_div] at hcount
  rw [exactPeriod, Nat.mul_comm]
  exact Nat.mul_le_mul_left _ hcount

/-- `exactPeriod` is the least of all integers that are no less than `resolution` and make the units of a period
whole. -/
theorem isLeast_exactPeriod (resolution rate : Nat) :
    IsLeast {period : ℤ | resolution ≤ period ∧ 10 ^ 9 ∣ rate * period} (exactPeriod resolution rate) := by
  constructor
  · exact ⟨by exact_mod_cast le_exactPeriod resolution rate,
      by exact_mod_cast dvd_rate_mul_exactPeriod resolution rate⟩
  · rintro period ⟨hresolution, hexact⟩
    -- An integer that is no less than the resolution is a natural number.
    lift period to ℕ using (Int.natCast_nonneg _).trans hresolution
    exact_mod_cast exactPeriod_le (by exact_mod_cast hresolution) (by exact_mod_cast hexact)

/-- `precisePeriod` is `resolution` or the time of a thousand units, rounded up, whichever is longer. -/
theorem precisePeriod_eq_max_ceil (resolution : Nat) {rate : Nat} (hrate : 0 < rate) :
    precisePeriod resolution rate = max resolution ⌈(10 ^ 12 / rate : ℚ)⌉₊ := by
  have hceil : ratePrecision * nanosPerSecond ⌈/⌉ rate = ⌈(10 ^ 12 / rate : ℚ)⌉₊ := by
    refine eq_of_forall_ge_iff fun bound => ?_
    have hpos : (0 : ℚ) < rate := by exact_mod_cast hrate
    rw [ceilDiv_le_iff_le_mul hrate, Nat.ceil_le, div_le_iff₀' hpos]
    exact_mod_cast Iff.rfl
  rw [precisePeriod, ← Nat.ceilDiv_eq_add_pred_div, hceil]

/-- `unitsIn` rounds the units of a `period` to the nearest integer, and up at a tie. -/
theorem unitsIn_eq_round (rate period : Nat) :
    (unitsIn rate period : ℤ) = round (rate * period / 10 ^ 9 : ℚ) := by
  have hhalf : (rate * period / 10 ^ 9 + 1 / 2 : ℚ) =
      ((rate * period + nanosPerSecond / 2 : ℕ) : ℚ) / (nanosPerSecond : ℕ) := by
    simp only [nanosPerSecond]
    push_cast
    ring
  rw [round_eq, hhalf, Rat.floor_natCast_div_natCast, unitsIn, Int.natCast_ediv]

/-- Single units are allowed exactly if their period is supported and either divides the second or is long enough
to be rounded down. -/
theorem allowsSingleUnits_iff (resolution rate : Nat) :
    allowsSingleUnits resolution rate ↔
      resolution ≤ 10 ^ 9 / rate ∧ (rate ∣ 10 ^ 9 ∨ 1000 ≤ 10 ^ 9 / rate) := by
  rw [allowsSingleUnits, Bool.and_eq_true, Bool.or_eq_true, decide_eq_true_eq, decide_eq_true_eq, beq_iff_eq,
    ← Nat.dvd_iff_mod_eq_zero]
  rfl

theorem choose_of_allowsSingleUnits {resolution rate : Nat} (hrate : 0 < rate)
    (h : allowsSingleUnits resolution rate) : choose resolution rate = (nanosPerSecond / rate, 1) := by
  rw [choose, if_neg hrate.ne', if_pos h]

theorem choose_of_not_allowsSingleUnits {resolution rate : Nat} (hrate : 0 < rate)
    (h : ¬ allowsSingleUnits resolution rate) :
    choose resolution rate =
      let period := min (exactPeriod resolution rate) (precisePeriod resolution rate)
      (period, unitsIn rate period) := by
  rw [choose, if_neg hrate.ne', if_neg h]

/-- The three ways in which `choose` picks a period and a quantum. -/
theorem choose_cases (resolution rate : Nat) :
    choose resolution rate = (0, 0) ∧ rate = 0 ∨
    choose resolution rate = (nanosPerSecond / rate, 1) ∧ 0 < rate ∨
    (∃ period, choose resolution rate = (period, unitsIn rate period) ∧
      period = min (exactPeriod resolution rate) (precisePeriod resolution rate)) ∧ 0 < rate := by
  rcases Nat.eq_zero_or_pos rate with hzero | hrate
  · exact .inl ⟨if_pos hzero, hzero⟩
  · by_cases hsingle : allowsSingleUnits resolution rate
    · exact .inr (.inl ⟨choose_of_allowsSingleUnits hrate hsingle, hrate⟩)
    · exact .inr (.inr ⟨⟨_, choose_of_not_allowsSingleUnits hrate hsingle, rfl⟩, hrate⟩)

/-- `pace` is given for `rate` exactly if it is the chosen one. -/
theorem ofRate_eq_ok_iff {timer : Timer} {tier : Tier} {rate : UInt64} {pace : Pace} :
    ofRate timer tier rate = .ok pace ↔
      choose timer.resolution.toNat rate.toNat = (pace.period.toNat, pace.quantum.toNat) := by
  refine ⟨toNat_ofRate, fun h => ?_⟩
  rw [ofRate, h, if_pos ⟨pace.period.toNat_lt_size, pace.quantum.toNat_lt_size⟩, UInt64.ofNat_toNat,
    UInt64.ofNat_toNat]

end Pace

/-- A `rate` is encoded in the best way:

- if the time of one unit, rounded down, is no shorter than the resolution and either exact or at least a
  thousand nanoseconds, then the pace is one unit in this time;
- otherwise, unless it overflows, its period is the smaller of two: the least integer that is no less than the
  resolution and in which the rate credits a whole number of units, and the larger of the resolution and the time
  of a thousand units, rounded up;
- its quantum is then what the rate credits in this period, rounded to the nearest and up at a tie, and nothing
  is rounded if the first period is no longer than the second. -/
theorem rates_are_encoded_optimally (resolution rate : UInt64) (tier : Tier) (hrate : 0 < rate) :
    let least : ℕ := max resolution.toNat 1
    let single : ℕ := 10 ^ 9 / rate.toNat
    (least ≤ single ∧ (rate.toNat ∣ 10 ^ 9 ∨ 1000 ≤ single) →
      ∃ pace, Pace.ofRate (.ofResolution resolution) tier rate = .ok pace ∧
        pace.period.toNat = single ∧ pace.quantum.toNat = 1) ∧
    (¬ (least ≤ single ∧ (rate.toNat ∣ 10 ^ 9 ∨ 1000 ≤ single)) →
      ∀ pace, Pace.ofRate (.ofResolution resolution) tier rate = .ok pace →
        ∃ exact : ℕ, IsLeast {period : ℤ | least ≤ period ∧ 10 ^ 9 ∣ rate.toNat * period} exact ∧
          let precise : ℕ := max least ⌈(10 ^ 12 / rate.toNat : ℚ)⌉₊
          pace.period.toNat = min exact precise ∧
            (pace.quantum.toNat : ℤ) = round (rate.toNat * pace.period.toNat / 10 ^ 9 : ℚ) ∧
            (exact ≤ precise → pace.quantum.toNat * 10 ^ 9 = rate.toNat * pace.period.toNat)) := by
  intro least single
  have hpos : 0 < rate.toNat := UInt64.lt_iff_toNat_lt.mp hrate
  have hleast : (Timer.ofResolution resolution).resolution.toNat = least :=
    Timer.toNat_ofResolution resolution
  rw [← Pace.allowsSingleUnits_iff]
  constructor
  · intro hsingle
    -- The period of a single unit is at most a second, and so it is a word.
    have hfits : single < UInt64.size := (Nat.div_le_self _ _).trans_lt (by decide)
    refine ⟨⟨UInt64.ofNat single, 1⟩, Pace.ofRate_eq_ok_iff.mpr ?_, UInt64.toNat_ofNat_of_lt' hfits, rfl⟩
    rw [hleast, Pace.choose_of_allowsSingleUnits hpos hsingle, UInt64.toNat_ofNat_of_lt' hfits]
    rfl
  · intro hsingle pace hpace
    have hchosen := Pace.ofRate_eq_ok_iff.mp hpace
    rw [hleast, Pace.choose_of_not_allowsSingleUnits hpos hsingle] at hchosen
    obtain ⟨hperiod, hquantum⟩ := Prod.mk.inj hchosen
    rw [hperiod] at hquantum
    refine ⟨Pace.exactPeriod least rate.toNat, Pace.isLeast_exactPeriod _ _, ?_, ?_, ?_⟩
    · rw [← hperiod, Pace.precisePeriod_eq_max_ceil _ hpos]
    · rw [← hquantum, Pace.unitsIn_eq_round]
    · intro hexact
      rw [← Pace.precisePeriod_eq_max_ceil _ hpos] at hexact
      rw [min_eq_left hexact] at hperiod
      rw [← hquantum, ← hperiod]
      exact Pace.unitsIn_mul_eq_of_dvd (Pace.dvd_rate_mul_exactPeriod _ _)

/-- Three units in five nanoseconds, for a timer that does not support five: the period is doubled and no longer.
A rate of three is encoded by single units. -/
theorem rates_are_encoded_optimally_doubled :
    Pace.ofRate (.ofResolution 7) .peak 600000000 = .ok ⟨10, 6⟩ ∧
      IsLeast {period : ℤ | 7 ≤ period ∧ 10 ^ 9 ∣ 600000000 * period} 10 ∧
      (6 : ℤ) = round (600000000 * 10 / 10 ^ 9 : ℚ) ∧
      ∃ pace, Pace.ofRate (.ofResolution 7) .committed 3 = .ok pace ∧ pace.period.toNat = 333333333 := by
  have hpace : Pace.ofRate (.ofResolution 7) .peak 600000000 = .ok ⟨10, 6⟩ := by decide
  obtain ⟨-, hother⟩ := rates_are_encoded_optimally 7 600000000 .peak (by decide)
  obtain ⟨hsingle, -⟩ := rates_are_encoded_optimally 7 3 .committed (by decide)
  obtain ⟨pace, hpace', hperiod', -⟩ := hsingle (by decide)
  obtain ⟨exact, hexact, hperiod, hround, -⟩ := hother (by decide) _ hpace
  -- The other period is of more than a thousand nanoseconds, so the chosen one is exact.
  have hten : exact = 10 := by
    have hrate : (600000000 : UInt64).toNat = 600000000 := rfl
    have hceil : 1000 < ⌈(10 ^ 12 / (600000000 : UInt64).toNat : ℚ)⌉₊ := by
      rw [hrate, Nat.lt_ceil]
      norm_num
    have hmin : 10 = min exact (max 7 ⌈(10 ^ 12 / (600000000 : UInt64).toNat : ℚ)⌉₊) := hperiod
    omega
  subst hten
  exact ⟨hpace, hexact, hround, pace, hpace', hperiod'⟩

end TrafficMeter
