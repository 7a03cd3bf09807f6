import TaoSubnet.Lib.Float
import TaoSubnet.Lib.Prog
import TaoSubnet.Lib.Text

/-!
# The value of a usage window

`masxai/scoring.py` with the constants of `masxai/constants.py` it reads. Finite floats are
rationals here, so the composite is exact; what is *not* idealised is which inputs count as usable
(`sanitizeLatencyMs`, `sanitizeQualityScore` see the raw float) and where a conversion raises.
-/

namespace TaoSubnet

open Py

/-! ## Constants (`masxai/constants.py`) -/

def LLM_KEY_RELIABILITY_WEIGHT : ℚ := 0.4
def LLM_KEY_QUALITY_WEIGHT : ℚ := 0.2
def LLM_KEY_LATENCY_WEIGHT : ℚ := 0.2
def LLM_KEY_LATENCY_CEILING_SECONDS : ℚ := 5
def LLM_KEY_VOLUME_WEIGHT : ℚ := 0.2
def LLM_KEY_VOLUME_TARGET_CALLS : Int := 50
def LLM_KEY_MIN_CALLS_FOR_SCORING : Int := 5
def LLM_KEY_RELIABILITY_HARD_FLOOR : ℚ := 0.5
def LLM_KEY_QUALITY_HARD_FLOOR : ℚ := 0.35
def LLM_KEY_QUALITY_FLOOR_MIN_GRADED : Int := 3
def LLM_KEY_MODEL_TIER_DEFAULT_WEIGHT : ℚ := 0.5

def LLM_KEY_MODEL_TIER_WEIGHTS : List (String × ℚ) :=
  [("openai/gpt-4o", 1), ("openai/gpt-4o-mini", 0.6),
   ("anthropic/claude-3-5-sonnet-20241022", 1), ("anthropic/claude-3-5-haiku-20241022", 0.6),
   ("deepseek/deepseek-chat", 0.5)]

def LLM_KEY_FATAL_ERROR_CATEGORIES : List String :=
  ["invalid_key", "no_funds_or_budget", "permission_or_region", "authenticationerror",
   "permissiondeniederror"]

/-- The settings an operator can override, as `_env_float` and `_env_int` deliver them: an integer
    is an integer, a float may be a NaN or an infinity. -/
structure LlmKeyConfig where
  minCallsForScoring : Int := LLM_KEY_MIN_CALLS_FOR_SCORING
  reliabilityHardFloor : PyFloat := .fin LLM_KEY_RELIABILITY_HARD_FLOOR
  qualityHardFloor : PyFloat := .fin LLM_KEY_QUALITY_HARD_FLOOR
  qualityFloorMinGraded : Int := LLM_KEY_QUALITY_FLOOR_MIN_GRADED
  reportPollIntervalSeconds : ℚ := 600
  reportPollFailureBackoffSeconds : ℚ := 30
  hotkeyStatusEvictionGraceSeconds : ℚ := 86400

/-- `LLM_KEY_MODEL_TIER_WEIGHTS.get(key, LLM_KEY_MODEL_TIER_DEFAULT_WEIGHT)`. -/
def modelTier (key : String) : ℚ :=
  (LLM_KEY_MODEL_TIER_WEIGHTS.lookup key).getD LLM_KEY_MODEL_TIER_DEFAULT_WEIGHT

/-! ## Sanitizers -/

/-- `sanitize_latency_ms`: not reported and malformed collapse to `none`. -/
def sanitizeLatencyMs : Option PyFloat → Option ℚ
  | some (.fin q) => if q < 0 then none else some q
  | _ => none

/-- `sanitize_quality_score`: the same, plus the range. -/
def sanitizeQualityScore : Option PyFloat → Option ℚ
  | some (.fin q) => if 0 ≤ q ∧ q ≤ 1 then some q else none
  | _ => none

/-- `has_fatal_error_category`, over the keys of the row's `error_categories`. -/
def hasFatalErrorCategory (errorCategories : List String) : Bool :=
  errorCategories.any fun category =>
    LLM_KEY_FATAL_ERROR_CATEGORIES.contains (lower (strip category))

/-! ## Arithmetic that can raise -/

def overflowError (message : String) : Exc := ⟨.overflowError, message⟩

def zeroDivisionError : Exc := ⟨.zeroDivisionError, "division by zero"⟩

/-- `q * n` of a float and an integer. -/
def mulInt (q : ℚ) (n : Int) : Except Exc ℚ :=
  if fitsDouble n then .ok (q * n) else .error (overflowError "int too large to convert to float")

/-- `q / n` of a float and an integer. -/
def divInt (q : ℚ) (n : Int) : Except Exc ℚ :=
  if fitsDouble n then
    if n = 0 then .error zeroDivisionError else .ok (q / n)
  else .error (overflowError "int too large to convert to float")

/-- `a / b` of two integers: correctly rounded, so only the *quotient* can be out of range. -/
def intTrueDiv (a b : Int) : Except Exc ℚ :=
  if b = 0 then .error zeroDivisionError
  else if |(a : ℚ) / b| < 2 ^ 1024 - 2 ^ 970 then .ok ((a : ℚ) / b)
  else .error (overflowError "integer division result too large for a float")

/-! ## The efficiency score -/

/-- A non-finite floor falls back to the default. -/
def finiteFloor (floor : PyFloat) (fallback : ℚ) : ℚ :=
  match floor with
  | .fin q => q
  | _ => fallback

/-- `llm_key_efficiency_score`. `none` is "nothing to score". -/
def llmKeyEfficiencyScore (successCount failureCount : Int) (avgLatencyS : Option PyFloat)
    (keyActive : Bool) (qualityScore : Option PyFloat) (modelTierWeight : PyFloat)
    (minCallsForScoring : Int) (qualityCallCount : Option Int) (reliabilityFloor : PyFloat)
    (qualityFloor : PyFloat) (qualityFloorMinGraded : Int) : Except Exc (Option ℚ) := do
  if !keyActive then return some 0
  if successCount < 0 ∨ failureCount < 0 then return none
  let total := successCount + failureCount
  if total < minCallsForScoring then return none
  let reliability ← intTrueDiv successCount total
  let reliabilityFloor := finiteFloor reliabilityFloor LLM_KEY_RELIABILITY_HARD_FLOOR
  if reliability < reliabilityFloor then return some 0
  let qualityScore := sanitizeQualityScore qualityScore
  let quality := qualityScore.getD 0.5
  let qualityFloor := finiteFloor qualityFloor LLM_KEY_QUALITY_HARD_FLOOR
  let graded := match qualityCallCount with
    | none => true
    | some n => decide (qualityFloorMinGraded ≤ n)
  if (match qualityScore with | none => false | some q => decide (q < qualityFloor)) && graded then
    return some 0
  let latencyScore := match sanitizeLatencyMs avgLatencyS with
    | none => 0.5
    | some l => max 0 (min 1 (1 - l / LLM_KEY_LATENCY_CEILING_SECONDS))
  let volume ← intTrueDiv successCount LLM_KEY_VOLUME_TARGET_CALLS
  let volumeScore := min 1 volume
  let composite := LLM_KEY_RELIABILITY_WEIGHT * reliability + LLM_KEY_QUALITY_WEIGHT * quality +
    LLM_KEY_LATENCY_WEIGHT * latencyScore + LLM_KEY_VOLUME_WEIGHT * volumeScore
  let tier := max 0 (min 1 (finiteFloor modelTierWeight LLM_KEY_MODEL_TIER_DEFAULT_WEIGHT))
  return some (composite * tier)

end TaoSubnet
