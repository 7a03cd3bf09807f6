import Mathlib.Algebra.Order.Ring.Abs
import Mathlib.Data.List.Sort
import TaoSubnet.LlmKey.Poll

/-!
# From scores to submitted weights

`set_weights` and `_apply_burn_allocation` of `template/base/validator.py`, with the helpers of
`template/base/utils/weight_utils.py`. Arrays are lists over the uids `0 … n - 1` of the metagraph,
which `resync_metagraph` keeps as long as the scores; arithmetic is exact.
-/

namespace TaoSubnet

open Py

/-- `np.nan_to_num(…, nan=0.0, posinf=0.0, neginf=0.0)`, entry by entry. -/
def nanToNum : PyFloat → ℚ
  | .fin q => q
  | _ => 0

/-- `_blended_weight_array`, of scores that may be anything a float may be. -/
def blendScores (v : Validator) (scores : List PyFloat) : List ℚ :=
  (scores.map nanToNum).mapIdx fun uid score =>
    if 0 < score ∧ hasLlmKeyEvidence v uid = false then 0 else score

/-! ## Parameters -/

/-- What the chain asks of a weight vector. -/
structure ChainLimits where
  minAllowedWeights : Nat
  maxWeightLimit : ℚ

/-- `BURN_UID` and `BURN_PERCENTAGE`, with the defaults of `masxai/constants.py`. -/
structure Burn where
  uid : Nat := 25
  percentage : ℚ := 1

/-! ## Chain limits -/

/-- The weights beside their uids. -/
def indexed (weights : List ℚ) : List (Nat × ℚ) := weights.mapIdx fun uid weight => (uid, weight)

/-- `weights / weights.sum()`. A sum of zero makes a NaN of every entry: there is no array then. -/
def scaled (weights : List ℚ) : Option (List ℚ) :=
  if weights.sum = 0 then none else some (weights.map fun weight => weight / weights.sum)

/-- `np.ones(n) / n`. -/
def uniform (n : Nat) : List ℚ := List.replicate n (1 / n)

/-- `np.cumsum`, from `total` on. -/
def cumsum (total : ℚ) : List ℚ → List ℚ
  | [] => []
  | value :: rest => (total + value) :: cumsum (total + value) rest

def EPSILON : ℚ := 1 / 10000000

/-- The cutoff of `normalize_max_weight`. An index of -1 reads the last entry. -/
def cutoffOf (weights : List ℚ) (limit : ℚ) : ℚ :=
  let values := weights.insertionSort (· ≤ ·)
  let n := values.length
  let estimation := values.map fun value => value / values.sum
  let sums := cumsum 0 estimation
  let nValues := ((estimation.zip sums).mapIdx fun i (e, sum) =>
    e / (((n : ℚ) - i - 1) * e + sum + EPSILON)).countP fun ratio => ratio < limit
  let last := if nValues = 0 then n - 1 else nValues - 1
  (limit * sums.getD last 0 - EPSILON) / (1 - limit * ((n : ℚ) - nValues)) * values.sum

/-- `weights[weights > cutoff] = cutoff`. -/
def clip (cutoff : ℚ) (weights : List ℚ) : List ℚ :=
  weights.map fun weight => if cutoff < weight then cutoff else weight

def normalizeMaxWeight (weights : List ℚ) (limit : ℚ) : Option (List ℚ) :=
  if weights.sum = 0 ∨ weights.length * limit ≤ 1 then some (uniform weights.length)
  else if weights.all fun weight => weight / weights.sum ≤ limit then scaled weights
  else scaled (clip (cutoffOf weights limit) weights)

/-- `np.ones(n) * 1e-5`, to which the positive weights are added. -/
def lift (weight : ℚ) : ℚ := if 0 < weight then 1 / 100000 + weight else 1 / 100000

/-- `process_weights_for_netuid`, whose quantile is the smallest of the positive weights. -/
def processWeightsForNetuid (limits : ChainLimits) (weights : List ℚ) : Option (List (Nat × ℚ)) :=
  let nonZero := (indexed weights).filter fun p => 0 < p.2
  if nonZero.isEmpty ∨ weights.length < limits.minAllowedWeights then
    some (indexed (uniform weights.length))
  else if nonZero.length < limits.minAllowedWeights then
    (normalizeMaxWeight (weights.map lift) limits.maxWeightLimit).map indexed
  else
    let lowest := ((nonZero.map Prod.snd).min?).getD 0
    let kept := nonZero.filter fun p => lowest ≤ p.2
    (normalizeMaxWeight (kept.map Prod.snd) limits.maxWeightLimit).map fun normalized =>
      (kept.map Prod.fst).zip normalized

/-! ## The burn -/

/-- The `ValueError`s of `_apply_burn_allocation`. -/
inductive BurnError
  | notPresent (burnUid n : Nat)
  | outOfRange (percentage : ℚ)
  | notPositive (sum : ℚ)
  deriving DecidableEq, Repr

/-- What the miners share, and `BURN_UID` gets. No comparison with a NaN holds, so an array that is
    not there burns everything. -/
def burnAllocation (burn : Burn) (weights : Option (List (Nat × ℚ))) : List (Nat × ℚ) :=
  let minerPercentage := 1 - burn.percentage
  match weights with
  | none => [(burn.uid, 1)]
  | some weights =>
    let miners := weights.filter fun p => p.1 ≠ burn.uid
    let minerSum := (miners.map Prod.snd).sum
    if miners ≠ [] ∧ 0 < minerSum ∧ 0 < minerPercentage then
      (miners.map fun p => (p.1, p.2 / minerSum * minerPercentage)) ++ [(burn.uid, burn.percentage)]
    else [(burn.uid, 1)]

def applyBurnAllocation (burn : Burn) (n : Nat) (weights : Option (List (Nat × ℚ))) :
    Except BurnError (List (Nat × ℚ)) :=
  if ¬ burn.uid < n then .error (.notPresent burn.uid n)
  else if ¬ (0 ≤ burn.percentage ∧ burn.percentage ≤ 1) then .error (.outOfRange burn.percentage)
  else
    let final := burnAllocation burn weights
    let sum := (final.map Prod.snd).sum
    if sum ≤ 0 then .error (.notPositive sum)
    else .ok (final.map fun p => (p.1, p.2 / sum))

/-! ## The chain's integers -/

def U16_MAX : ℚ := 65535

/-- `convert_weights_and_uids_for_emit`; `none` is the `ValueError` of a negative weight. -/
def convertWeightsAndUidsForEmit (weights : List (Nat × ℚ)) : Option (List (Nat × Int)) :=
  if weights.any fun p => p.2 < 0 then none
  else if (weights.map Prod.snd).sum = 0 then some []
  else
    let maxWeight := ((weights.map Prod.snd).max?).getD 0
    let converted := weights.map fun p => (p.1, PyFloat.roundEven (p.2 / maxWeight * U16_MAX))
    some (converted.filter fun p => p.2 ≠ 0)

/-! ## `set_weights` of the base class -/

/-- `self.scores / norm`, with a norm of one for a vector of zeros. -/
def rawWeights (scores : List ℚ) : List ℚ :=
  let norm := (scores.map fun score => |score|).sum
  let norm := if norm = 0 then 1 else norm
  scores.map fun score => score / norm

/-- The weights before the burn. With no earner there is nothing to process. -/
def processedWeights (limits : ChainLimits) (scores : List ℚ) : Option (List (Nat × ℚ)) :=
  let raw := rawWeights scores
  if raw.any fun weight => 0 < weight then processWeightsForNetuid limits raw
  else some (indexed (List.replicate scores.length 0))

/-- What `set_weights` hands to the chain: nothing if the burn is not to be allocated, or a weight
    cannot be emitted. -/
def submittedWeights (burn : Burn) (limits : ChainLimits) (scores : List ℚ) :
    Option (List (Nat × Int)) :=
  match applyBurnAllocation burn scores.length (processedWeights limits scores) with
  | .ok weights => convertWeightsAndUidsForEmit weights
  | .error _ => none

/-- `Validator.set_weights`: the scores are brought up to date, and what they blend to is submitted. -/
def setWeightsOnChain (cfg : LlmKeyConfig) (chain : Option ChainReads) (burn : Burn)
    (limits : ChainLimits) : Method (Option (List (Nat × Int))) := do
  return submittedWeights burn limits (← setWeights cfg chain)

end TaoSubnet
