import TrafficMeter.Proofs.Optimum

/-!
# Rates in words

A pace is defined by numbers without bounds. Here it is computed once more in the words of a machine: the rate
and the resolution have 64 bits, products are taken in 128 bits, the greatest common divisor is found by
Euclid's algorithm, and every step that a machine cannot carry out ends the computation (`Pace.compute?`).

No step is ever refused, and the result is the pace that was defined, or the same error
(`Pace.compute?_eq_some`). The closest call is the product of the largest rate and the largest period, which
leaves just enough room for the half second that is added before rounding. So a rate is refused only because
its units need more than a word (`Pace.ofRate_eq_error_iff`), and never if the timer is not coarser than a
second (`Pace.unitsIn_choose_le`).

## Main definitions

* `Wide`: words of 128 bits, with operations that are `none` where they overflow;
* `Pace.compute?`: the pace of a rate in words.

## Main results

* `Pace.compute?_eq_some`: every step can be carried out, and the result is the pace that was defined;
* `Pace.ofRate_eq_error_iff`: which rates are refused;
* `rates_overflow_by_units_only`: both, with the bound for timers that are not coarser than a second.
-/

namespace TrafficMeter

/-- A word of 128 bits. -/
abbrev Wide := BitVec 128

namespace Wide

/-- `word` as a wide one. -/
def ofWord (word : UInt64) : Wide :=
  word.toBitVec.setWidth 128

/-- `wide` as a word of 64 bits, or `error` if it has more. -/
def toWord (error : Error) (wide : Wide) : Except Error UInt64 :=
  if wide.toNat < UInt64.size then .ok (UInt64.ofNat wide.toNat) else .error error

/-- The sum of `a` and `b`, unless it overflows. -/
def add? (a b : Wide) : Option Wide :=
  if a.uaddOverflow b then none else some (a + b)

/-- The product of `a` and `b`, unless it overflows. -/
def mul? (a b : Wide) : Option Wide :=
  if a.umulOverflow b then none else some (a * b)

/-- The quotient of `a` and `b`, rounded down, unless `b` is zero. -/
def div? (a b : Wide) : Option Wide :=
  if b = 0#128 then none else some (a / b)

/-- The quotient of `a` and `b`, rounded up: one is added if there is a remainder. -/
def divUp? (a b : Wide) : Option Wide := do
  let quotient ← a.div? b
  if a % b = 0#128 then return quotient
  quotient.add? 1#128

@[simp]
theorem toNat_ofWord (word : UInt64) : (ofWord word).toNat = word.toNat :=
  BitVec.toNat_setWidth_of_le (by decide)

variable {a b : Wide}

theorem add?_eq_some (h : a.toNat + b.toNat < 2 ^ 128) :
    ∃ sum, a.add? b = some sum ∧ sum.toNat = a.toNat + b.toNat := by
  have hfits : ¬ a.uaddOverflow b := by simpa [BitVec.uaddOverflow] using h
  exact ⟨a + b, if_neg hfits, BitVec.toNat_add_of_not_uaddOverflow hfits⟩

theorem mul?_eq_some (h : a.toNat * b.toNat < 2 ^ 128) :
    ∃ product, a.mul? b = some product ∧ product.toNat = a.toNat * b.toNat := by
  have hfits : ¬ a.umulOverflow b := by simpa [BitVec.umulOverflow] using h
  exact ⟨a * b, if_neg hfits, BitVec.toNat_mul_of_not_umulOverflow hfits⟩

theorem div?_eq_some (h : 0 < b.toNat) :
    ∃ quotient, a.div? b = some quotient ∧ quotient.toNat = a.toNat / b.toNat := by
  have hne : b ≠ 0#128 := fun hzero => by simp [hzero] at h
  exact ⟨a / b, if_neg hne, BitVec.toNat_udiv⟩

/-- Rounding up never overflows, because a divisor `b` that leaves a remainder at least halves `a`. -/
theorem divUp?_eq_some (h : 0 < b.toNat) :
    ∃ quotient, a.divUp? b = some quotient ∧ quotient.toNat = (a.toNat + b.toNat - 1) / b.toNat := by
  obtain ⟨quotient, hquotient, hvalue⟩ := div?_eq_some (a := a) h
  have hmod : (a % b).toNat = a.toNat % b.toNat := BitVec.toNat_umod
  have hlt : (a % b).toNat < b.toNat := hmod ▸ Nat.mod_lt _ h
  have hdivision : quotient.toNat * b.toNat + (a % b).toNat = a.toNat := by
    rw [hvalue, hmod, Nat.div_add_mod']
  by_cases hexact : a % b = 0#128
  · -- Without a remainder there is nothing to round.
    refine ⟨quotient, by simp [divUp?, hquotient, hexact], ?_⟩
    rw [hexact, BitVec.toNat_zero, Nat.add_zero] at hdivision
    rw [eq_comm, Nat.div_eq_iff h, hdivision]
    omega
  · have hrest : 0 < (a % b).toNat := Nat.pos_of_ne_zero fun hzero => hexact (BitVec.eq_of_toNat_eq hzero)
    have hhalf : quotient.toNat * 2 ≤ quotient.toNat * b.toNat := Nat.mul_le_mul_left _ (by omega)
    have hroom : quotient.toNat + (1#128).toNat < 2 ^ 128 := by
      rw [BitVec.toNat_ofNat]
      omega
    obtain ⟨next, hnext, hsum⟩ := add?_eq_some hroom
    refine ⟨next, by simp [divUp?, hquotient, hexact, hnext], ?_⟩
    rw [BitVec.toNat_ofNat, Nat.mod_eq_of_lt (by decide)] at hsum
    rw [eq_comm, Nat.div_eq_iff h, hsum, Nat.add_one_mul]
    omega

theorem toNat_ite_min : (if a ≤ b then a else b).toNat = min a.toNat b.toNat := by
  rw [Nat.min_def, apply_ite BitVec.toNat]
  rfl

theorem toNat_ite_max : (if a ≤ b then b else a).toNat = max a.toNat b.toNat := by
  rw [Nat.max_def, apply_ite BitVec.toNat]
  rfl

end Wide

/-- Euclid's algorithm on words. -/
def euclid (a b : UInt64) : UInt64 :=
  if b = 0 then a else euclid b (a % b)
termination_by b.toNat
decreasing_by
  rw [UInt64.toNat_mod]
  exact Nat.mod_lt _ (Nat.pos_of_ne_zero fun h => ‹¬ b = 0› (UInt64.toNat_inj.mp h))

/-- `euclid` ends with the greatest common divisor of `a` and `b`. -/
theorem toNat_euclid (a b : UInt64) : (euclid a b).toNat = Nat.gcd a.toNat b.toNat := by
  fun_induction euclid a b with
  | case1 a => simp
  | case2 a b _ ih => rw [ih, UInt64.toNat_mod, Nat.gcd_comm, ← Nat.gcd_rec, Nat.gcd_comm]

namespace Pace

/-! ### The computation -/

/-- The nanoseconds of a second as a word. -/
def secondWord : UInt64 := 1000000000

/-- The shortest period, at least `resolution`, in which `rate` credits a whole number of units. -/
def exactWide? (resolution rate : UInt64) : Option Wide := do
  let step ← (Wide.ofWord secondWord).div? (.ofWord (euclid rate secondWord))
  let steps ← (Wide.ofWord resolution).divUp? step
  steps.mul? step

/-- The time of about a thousand units at `rate`, at least `resolution`. -/
def preciseWide? (resolution rate : UInt64) : Option Wide := do
  let thousand ← (Wide.ofWord 1000).mul? (.ofWord secondWord)
  let needed ← thousand.divUp? (.ofWord rate)
  return if needed ≤ .ofWord resolution then .ofWord resolution else needed

/-- The units that `rate` credits in `period`. Half a second is added so that the division rounds to the nearest.
-/
def unitsWide? (rate : UInt64) (period : Wide) : Option Wide := do
  let product ← (Wide.ofWord rate).mul? period
  let half ← (Wide.ofWord secondWord).div? (.ofWord 2)
  let raised ← product.add? half
  raised.div? (.ofWord secondWord)

/-- The pace for `rate`, or the error that it overflows. The result is `none` if a step of the computation cannot
be carried out. -/
def compute? (timer : Timer) (tier : Tier) (rate : UInt64) : Option (Except Error Pace) :=
  let single := secondWord / rate
  if rate = 0 then some (.ok {})
  else if timer.resolution ≤ single ∧ (secondWord % rate = 0 ∨ 1000 ≤ single) then some (.ok ⟨single, 1⟩)
  else do
    let exact ← exactWide? timer.resolution rate
    let precise ← preciseWide? timer.resolution rate
    -- The exact period may need more than 64 bits, and the precise one is then taken.
    let period := if exact ≤ precise then exact else precise
    let units ← unitsWide? rate period
    let overflow := Error.rateOverflow tier rate timer.resolution
    return do
      let period ← period.toWord overflow
      let quantum ← units.toWord overflow
      return { period, quantum }

/-! ### How large the numbers get -/

/-- `exactPeriod` is less than a second longer than `resolution`. -/
theorem exactPeriod_lt (resolution rate : Nat) :
    exactPeriod resolution rate < resolution + nanosPerSecond := by
  rw [exactPeriod]
  set step := nanosPerSecond / Nat.gcd rate nanosPerSecond with hstep
  show (resolution + step - 1) / step * step < resolution + nanosPerSecond
  have hpos : 0 < step := Nat.div_gcd_pos_of_pos_right rate (by decide)
  have hle : step ≤ nanosPerSecond := Nat.div_le_self _ _
  have hmul := Nat.div_mul_le_self (resolution + step - 1) step
  omega

/-- `precisePeriod` fits into a word if `resolution` does. -/
theorem precisePeriod_lt {resolution rate : Nat} (hresolution : resolution < UInt64.size) (hrate : 0 < rate) :
    precisePeriod resolution rate < UInt64.size := by
  have hneeded : (ratePrecision * nanosPerSecond + rate - 1) / rate ≤ ratePrecision * nanosPerSecond := by
    rw [← Nat.ceilDiv_eq_add_pred_div, ceilDiv_le_iff_le_mul hrate]
    exact Nat.le_mul_of_pos_left _ hrate
  exact max_lt hresolution (hneeded.trans_lt (by decide))

/-- The chosen period fits into a word if `resolution` does. -/
theorem choose_period_lt {resolution : Nat} (rate : Nat) (hresolution : resolution < UInt64.size) :
    (choose resolution rate).1 < UInt64.size := by
  rcases choose_cases resolution rate with ⟨h, -⟩ | ⟨h, -⟩ | ⟨⟨period, h, rfl⟩, hrate⟩
  · rw [h]
    decide
  · rw [h]
    exact (Nat.div_le_self _ _).trans_lt (by decide)
  · rw [h]
    exact (min_le_right _ _).trans_lt (precisePeriod_lt hresolution hrate)

/-- The product of two words `rate` and `period` leaves room for half a second in a wide word. -/
theorem mul_add_half_lt {rate period : Nat} (hrate : rate < UInt64.size) (hperiod : period < UInt64.size) :
    rate * period + nanosPerSecond / 2 < 2 ^ 128 := by
  have hmul : rate * period ≤ (UInt64.size - 1) * (UInt64.size - 1) :=
    Nat.mul_le_mul (Nat.le_pred_of_lt hrate) (Nat.le_pred_of_lt hperiod)
  calc rate * period + nanosPerSecond / 2
      ≤ (UInt64.size - 1) * (UInt64.size - 1) + nanosPerSecond / 2 := Nat.add_le_add_right hmul _
    _ < 2 ^ 128 := by decide

/-! ### No step is refused -/

variable {resolution rate : UInt64}

theorem toNat_wide_second : (Wide.ofWord secondWord).toNat = nanosPerSecond :=
  Wide.toNat_ofWord _

theorem exactWide?_eq_some (resolution : UInt64) (hrate : 0 < rate.toNat) :
    ∃ exact, exactWide? resolution rate = some exact ∧
      exact.toNat = exactPeriod resolution.toNat rate.toNat := by
  have hgcd : (Wide.ofWord (euclid rate secondWord)).toNat = Nat.gcd rate.toNat nanosPerSecond := by
    rw [Wide.toNat_ofWord, toNat_euclid]
    rfl
  obtain ⟨step, hstep, hstepval⟩ := Wide.div?_eq_some (a := Wide.ofWord secondWord)
    (hgcd ▸ Nat.gcd_pos_of_pos_left _ hrate)
  rw [toNat_wide_second, hgcd] at hstepval
  have hpos : 0 < step.toNat := hstepval ▸ Nat.div_gcd_pos_of_pos_right _ (by decide)
  obtain ⟨steps, hsteps, hstepsval⟩ := Wide.divUp?_eq_some (a := Wide.ofWord resolution) hpos
  -- The product of the steps may have more than 64 bits, but by less than a second.
  have hproduct : steps.toNat * step.toNat = exactPeriod resolution.toNat rate.toNat := by
    rw [hstepsval, hstepval, Wide.toNat_ofWord]
    rfl
  have hlt : steps.toNat * step.toNat < 2 ^ 128 := by
    have hexact := exactPeriod_lt resolution.toNat rate.toNat
    have hword := resolution.toNat_lt_size
    simp only [UInt64.size, nanosPerSecond] at *
    omega
  obtain ⟨exact, hexact, hexactval⟩ := Wide.mul?_eq_some hlt
  exact ⟨exact, by simp [exactWide?, hstep, hsteps, hexact], hexactval.trans hproduct⟩

theorem preciseWide?_eq_some (resolution : UInt64) (hrate : 0 < rate.toNat) :
    ∃ precise, preciseWide? resolution rate = some precise ∧
      precise.toNat = precisePeriod resolution.toNat rate.toNat := by
  obtain ⟨thousand, hthousand, hthousandval⟩ :=
    Wide.mul?_eq_some (a := Wide.ofWord 1000) (b := Wide.ofWord secondWord) (by decide)
  obtain ⟨needed, hneeded, hneededval⟩ :=
    Wide.divUp?_eq_some (a := thousand) (b := Wide.ofWord rate) (by rwa [Wide.toNat_ofWord])
  refine ⟨_, by simp [preciseWide?, hthousand, hneeded]; rfl, ?_⟩
  rw [Wide.toNat_ite_max, hneededval, hthousandval, toNat_wide_second, Wide.toNat_ofWord, Wide.toNat_ofWord,
    Wide.toNat_ofWord, max_comm]
  rfl

theorem unitsWide?_eq_some (rate : UInt64) {period : Wide} (hperiod : period.toNat < UInt64.size) :
    ∃ units, unitsWide? rate period = some units ∧ units.toNat = unitsIn rate.toNat period.toNat := by
  have hroom := mul_add_half_lt rate.toNat_lt_size hperiod
  obtain ⟨product, hproduct, hproductval⟩ := Wide.mul?_eq_some (a := Wide.ofWord rate) (b := period)
    (by rw [Wide.toNat_ofWord]; omega)
  obtain ⟨half, hhalf, hhalfval⟩ :=
    Wide.div?_eq_some (a := Wide.ofWord secondWord) (b := Wide.ofWord 2) (by decide)
  have hhalfeq : half.toNat = nanosPerSecond / 2 := hhalfval
  obtain ⟨raised, hraised, hraisedval⟩ := Wide.add?_eq_some (a := product) (b := half)
    (by rw [hproductval, hhalfeq, Wide.toNat_ofWord]; exact hroom)
  obtain ⟨units, hunits, hunitsval⟩ :=
    Wide.div?_eq_some (a := raised) (b := Wide.ofWord secondWord) (by decide)
  refine ⟨units, by simp [unitsWide?, hproduct, hhalf, hraised, hunits], ?_⟩
  rw [hunitsval, hraisedval, hproductval, hhalfeq, toNat_wide_second, Wide.toNat_ofWord]
  rfl

/-- Words tell whether single units are allowed as numbers do. -/
theorem allowsSingleUnits_iff_words :
    allowsSingleUnits resolution.toNat rate.toNat ↔
      resolution ≤ secondWord / rate ∧ (secondWord % rate = 0 ∨ 1000 ≤ secondWord / rate) := by
  rw [allowsSingleUnits_iff, Nat.dvd_iff_mod_eq_zero, UInt64.le_iff_toNat_le, UInt64.le_iff_toNat_le,
    ← UInt64.toNat_inj, UInt64.toNat_div, UInt64.toNat_mod]
  rfl

/-- The computation in words is always carried out to its end, and it gives the pace or the error of `ofRate`. -/
theorem compute?_eq_some (timer : Timer) (tier : Tier) (rate : UInt64) :
    compute? timer tier rate = some (ofRate timer tier rate) := by
  by_cases hzero : rate = 0
  · subst hzero
    rfl
  have hrate : 0 < rate.toNat := Nat.pos_of_ne_zero fun h => hzero (UInt64.toNat_inj.mp h)
  unfold compute?
  rw [if_neg hzero]
  by_cases hsingle : allowsSingleUnits timer.resolution.toNat rate.toNat
  · have hpace : ofRate timer tier rate = .ok ⟨secondWord / rate, 1⟩ := by
      rw [ofRate_eq_ok_iff, choose_of_allowsSingleUnits hrate hsingle, UInt64.toNat_div]
      rfl
    rw [if_pos (allowsSingleUnits_iff_words.mp hsingle), hpace]
  · rw [if_neg (mt allowsSingleUnits_iff_words.mpr hsingle)]
    obtain ⟨exact, hexact, hexactval⟩ := exactWide?_eq_some timer.resolution hrate
    obtain ⟨precise, hprecise, hpreciseval⟩ := preciseWide?_eq_some timer.resolution hrate
    have hperiod : (if exact ≤ precise then exact else precise).toNat =
        min (exactPeriod timer.resolution.toNat rate.toNat)
          (precisePeriod timer.resolution.toNat rate.toNat) := by
      rw [Wide.toNat_ite_min, hexactval, hpreciseval]
    have hchosen : choose timer.resolution.toNat rate.toNat = (_, unitsIn rate.toNat _) :=
      choose_of_not_allowsSingleUnits hrate hsingle
    have hfits := choose_period_lt rate.toNat timer.resolution.toNat_lt_size
    rw [← hperiod] at hchosen
    rw [hchosen] at hfits
    -- From here on the period is any wide word with the value of the chosen one.
    simp only [hexact, hprecise, Option.bind_eq_bind, Option.bind_some]
    generalize (if exact ≤ precise then exact else precise) = period at *
    obtain ⟨units, hunits, hunitsval⟩ := unitsWide?_eq_some rate hfits
    rw [← hunitsval] at hchosen
    -- The period is a word, so only the units decide between the pace and the error.
    simp only [hunits, Option.bind_some, ofRate, hchosen, Wide.toWord, hfits, true_and, if_true]
    split <;> rfl

/-! ### When a rate is refused -/

/-- The units of the chosen period fit into a word exactly if the chosen quantum does. -/
theorem choose_quantum_lt_iff (resolution rate : Nat) :
    (choose resolution rate).2 < UInt64.size ↔ unitsIn rate (choose resolution rate).1 < UInt64.size := by
  rcases choose_cases resolution rate with ⟨h, rfl⟩ | ⟨h, -⟩ | ⟨⟨period, h, -⟩, -⟩
  · rw [h]
    decide
  · -- The period of a single unit has room for one unit and no second one.
    have hunits : unitsIn rate (nanosPerSecond / rate) ≤ 1 := by
      have hmul := Nat.mul_div_le nanosPerSecond rate
      rw [unitsIn]
      simp only [nanosPerSecond] at *
      omega
    have hone : 1 < UInt64.size := by decide
    rw [h]
    exact iff_of_true hone (hunits.trans_lt hone)
  · rw [h]

/-- A `rate` is refused exactly if the rounded units of the chosen period need more than a word, and the error
names the tier, the rate and the resolution. -/
theorem ofRate_eq_error_iff {timer : Timer} {tier : Tier} {rate : UInt64} {error : Error} :
    ofRate timer tier rate = .error error ↔
      error = .rateOverflow tier rate timer.resolution ∧
        UInt64.size ≤ unitsIn rate.toNat (choose timer.resolution.toNat rate.toNat).1 := by
  have hperiod := choose_period_lt rate.toNat timer.resolution.toNat_lt_size
  rw [← not_lt, ← choose_quantum_lt_iff, ofRate]
  split
  next hfits => simp [hfits.2]
  next hfits =>
    have hquantum : ¬ (choose timer.resolution.toNat rate.toNat).2 < UInt64.size :=
      fun hlt => hfits ⟨hperiod, hlt⟩
    simp [hquantum, eq_comm]

/-- If `resolution` is at most a second, then so is the chosen period, in which `rate` credits at most `rate`
units. -/
theorem unitsIn_choose_le {resolution : Nat} (rate : Nat) (h : resolution ≤ nanosPerSecond) :
    unitsIn rate (choose resolution rate).1 ≤ rate := by
  have hperiod : (choose resolution rate).1 ≤ nanosPerSecond := by
    rcases choose_cases resolution rate with ⟨hchosen, -⟩ | ⟨hchosen, -⟩ | ⟨⟨period, hchosen, rfl⟩, -⟩
    · rw [hchosen]
      exact Nat.zero_le _
    · rw [hchosen]
      exact Nat.div_le_self _ _
    · -- A second is an exact period of every rate.
      rw [hchosen]
      exact (min_le_left _ _).trans (exactPeriod_le h (Nat.dvd_mul_left _ _))
  have hmul := Nat.mul_le_mul_left rate hperiod
  rw [unitsIn]
  simp only [nanosPerSecond] at *
  omega

end Pace

/-- A `profile` is refused for its peak rate, or for its committed rate if the peak rate is accepted. -/
theorem Profile.toRecord_eq_error_iff {timer : Timer} {profile : Profile} {error : Error} :
    profile.toRecord timer = .error error ↔
      Pace.ofRate timer .peak profile.peak.rate = .error error ∨
        (∃ pace, Pace.ofRate timer .peak profile.peak.rate = .ok pace) ∧
          Pace.ofRate timer .committed profile.committed.rate = .error error := by
  unfold toRecord Limit.toBucket
  cases Pace.ofRate timer .peak profile.peak.rate with
  | error refusal => simp
  | ok pace => cases Pace.ofRate timer .committed profile.committed.rate <;> simp

/-- Rates overflow in one way only:

- when a rate is encoded, no operation on words of 128 bits overflows and no divisor is zero, and the chosen
  period fits into a word;
- the rate is refused exactly if the units of this period, rounded to the nearest, exceed the largest word, and
  never if `resolution` is at most a second;
- a profile is refused exactly if one of its rates is, with the error of the peak rate first. -/
theorem rates_overflow_by_units_only (resolution : UInt64) :
    let timer := Timer.ofResolution resolution
    (∀ (tier : Tier) (rate : UInt64),
      let period : ℕ := (Pace.choose timer.resolution.toNat rate.toNat).1
      Pace.compute? timer tier rate = some (Pace.ofRate timer tier rate) ∧
      period < 2 ^ 64 ∧
      (∀ pace, Pace.ofRate timer tier rate = .ok pace → pace.period.toNat = period) ∧
      (∀ error, Pace.ofRate timer tier rate = .error error ↔
        error = .rateOverflow tier rate timer.resolution ∧
          2 ^ 64 - 1 < (rate.toNat * period + 5 * 10 ^ 8) / 10 ^ 9) ∧
      (resolution.toNat ≤ 10 ^ 9 → ∃ pace, Pace.ofRate timer tier rate = .ok pace)) ∧
    ∀ (profile : Profile) (error : Error),
      profile.toRecord timer = .error error ↔
        Pace.ofRate timer .peak profile.peak.rate = .error error ∨
          (∃ pace, Pace.ofRate timer .peak profile.peak.rate = .ok pace) ∧
            Pace.ofRate timer .committed profile.committed.rate = .error error := by
  intro timer
  refine ⟨fun tier rate => ?_, fun _ _ => Profile.toRecord_eq_error_iff⟩
  intro period
  refine ⟨Pace.compute?_eq_some timer tier rate, Pace.choose_period_lt _ timer.resolution.toNat_lt_size,
    fun pace hpace => ?_, fun _ => Pace.ofRate_eq_error_iff, fun hcoarse => ?_⟩
  · exact (congrArg Prod.fst (Pace.toNat_ofRate hpace)).symm
  · cases hpace : Pace.ofRate timer tier rate with
    | ok pace => exact ⟨pace, rfl⟩
    | error error =>
      have hunits := (Pace.ofRate_eq_error_iff.mp hpace).2
      have hresolution : timer.resolution.toNat ≤ nanosPerSecond := by
        rw [Timer.toNat_ofResolution]
        exact max_le hcoarse (by decide)
      have hle := Pace.unitsIn_choose_le rate.toNat hresolution
      exact absurd rate.toNat_lt_size (not_lt.mpr (hunits.trans hle))

/-- The largest rate is refused by the coarsest timer, which would have accepted the committed rate, and not by
a timer that ticks once in a second. -/
theorem rates_overflow_by_units_only_largest :
    Pace.ofRate (.ofResolution 18446744073709551615) .peak 18446744073709551615 =
        .error (.rateOverflow .peak 18446744073709551615 18446744073709551615) ∧
      Profile.toRecord (.ofResolution 18446744073709551615) ⟨⟨18446744073709551615, 1⟩, ⟨100, 1⟩⟩ =
        .error (.rateOverflow .peak 18446744073709551615 18446744073709551615) ∧
      ∃ pace, Pace.ofRate (.ofResolution 1000000000) .peak 18446744073709551615 = .ok pace := by
  obtain ⟨hrates, hprofiles⟩ := rates_overflow_by_units_only 18446744073709551615
  obtain ⟨-, -, -, herrors, -⟩ := hrates .peak 18446744073709551615
  have herror := (herrors _).mpr ⟨rfl, by decide⟩
  obtain ⟨hrates', -⟩ := rates_overflow_by_units_only 1000000000
  exact ⟨herror, (hprofiles _ _).mpr (.inl herror), (hrates' .peak _).2.2.2.2 (by decide)⟩

end TrafficMeter
