/-!
# The two tiers of a meter

Every meter polices two rates, the peak rate and the committed rate below it. `Tier` tells them apart.
-/

namespace TrafficMeter

/-- One of the two rates of a meter. -/
inductive Tier where
  /-- The rate above which packets are red. -/
  | peak
  /-- The rate above which packets are no longer green. -/
  | committed
deriving DecidableEq, Repr

namespace Tier

/-- The customary short name of the rate of a tier. -/
def rateName : Tier → String
  | peak => "pir"
  | committed => "cir"

/-- The customary short name of the tokens left in the bucket of a tier. -/
def levelName : Tier → String
  | peak => "pbs_left"
  | committed => "cbs_left"

end Tier

end TrafficMeter
