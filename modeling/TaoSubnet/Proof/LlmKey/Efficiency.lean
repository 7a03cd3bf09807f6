import TaoSubnet.Proof.LlmKey.Bounds

/-!
# A better window is worth no less

`llm_key_efficiency_score` has five axes, and two floors that stand in front of them. Each part of the
composite is monotone in its own axis; the reliability, which two of the counts go into, is the part
of a whole. Past the floors the value is a product of monotone parts, and a floor that a window
clears is cleared by every better one.
-/

namespace TaoSubnet

open Py

/-- What a window is scored by, for a key that is active. -/
structure Figures where
  successCount : Int
  failureCount : Int
  avgLatencyS : Option PyFloat
  qualityScore : Option PyFloat
  modelTierWeight : PyFloat
  minCallsForScoring : Int
  qualityCallCount : Option Int
  reliabilityFloor : PyFloat
  qualityFloor : PyFloat
  qualityFloorMinGraded : Int

namespace Figures

def score (x : Figures) : Except Exc (Option ℚ) :=
  llmKeyEfficiencyScore x.successCount x.failureCount x.avgLatencyS true x.qualityScore
    x.modelTierWeight x.minCallsForScoring x.qualityCallCount x.reliabilityFloor x.qualityFloor
    x.qualityFloorMinGraded

/-- Counts that can be scored. -/
structure Scorable (x : Figures) : Prop where
  success : 0 ≤ x.successCount
  failure : 0 ≤ x.failureCount
  minCalls : 1 ≤ x.minCallsForScoring
  enough : x.minCallsForScoring ≤ x.successCount + x.failureCount

/-! ## The parts -/

def reliability (x : Figures) : ℚ :=
  (x.successCount : ℚ) / (x.successCount + x.failureCount : Int)

def quality (x : Figures) : ℚ := (sanitizeQualityScore x.qualityScore).getD 0.5

def latencyScore (x : Figures) : ℚ :=
  match sanitizeLatencyMs x.avgLatencyS with
  | none => 0.5
  | some l => max 0 (min 1 (1 - l / LLM_KEY_LATENCY_CEILING_SECONDS))

def volumeScore (x : Figures) : ℚ := min 1 ((x.successCount : ℚ) / LLM_KEY_VOLUME_TARGET_CALLS)

def tier (x : Figures) : ℚ :=
  max 0 (min 1 (finiteFloor x.modelTierWeight LLM_KEY_MODEL_TIER_DEFAULT_WEIGHT))

def composite (x : Figures) : ℚ :=
  LLM_KEY_RELIABILITY_WEIGHT * x.reliability + LLM_KEY_QUALITY_WEIGHT * x.quality +
    LLM_KEY_LATENCY_WEIGHT * x.latencyScore + LLM_KEY_VOLUME_WEIGHT * x.volumeScore

/-- The window fails most of its calls. -/
def Unreliable (x : Figures) : Prop :=
  x.reliability < finiteFloor x.reliabilityFloor LLM_KEY_RELIABILITY_HARD_FLOOR

instance (x : Figures) : Decidable x.Unreliable := inferInstanceAs (Decidable (_ < _))

/-- Enough calls were graded for the quality floor to count. -/
def graded (x : Figures) : Bool :=
  match x.qualityCallCount with
  | none => true
  | some n => decide (x.qualityFloorMinGraded ≤ n)

/-- A measured quality is below its floor. -/
def lowQuality (x : Figures) : Bool :=
  match sanitizeQualityScore x.qualityScore with
  | none => false
  | some q => decide (q < finiteFloor x.qualityFloor LLM_KEY_QUALITY_HARD_FLOOR)

/-- A hard floor is tripped. -/
def Floored (x : Figures) : Prop := x.Unreliable ∨ (x.lowQuality && x.graded) = true

instance (x : Figures) : Decidable x.Floored := inferInstanceAs (Decidable (_ ∨ _ = true))

/-- What the window is worth. -/
def value (x : Figures) : ℚ := if x.Floored then 0 else x.composite * x.tier

/-- A part of a whole is in the float range. -/
theorem one_lt_range : (1 : ℚ) < 2 ^ 1024 - 2 ^ 970 := by
  have hone : (1 : ℚ) ≤ 2 ^ 970 := one_le_pow₀ (by norm_num)
  have hsplit : (2 : ℚ) ^ 1024 = 2 ^ 54 * 2 ^ 970 := by rw [← pow_add]
  rw [hsplit]
  generalize (2 : ℚ) ^ 970 = unit at hone ⊢
  norm_num
  linarith

/-- The part that succeeded is a quotient in the range. -/
theorem intTrueDiv_part {success failure : Int} (hsuccess : 0 ≤ success) (hfailure : 0 ≤ failure)
    (hpositive : 0 < success + failure) :
    intTrueDiv success (success + failure) = .ok ((success : ℚ) / (success + failure : Int)) := by
  have hpart := inUnit_part hsuccess hfailure
  unfold intTrueDiv
  rw [if_neg hpositive.ne', if_pos]
  rw [abs_of_nonneg hpart.1]
  exact hpart.2.trans_lt one_lt_range

/-- The function, by its parts. Only the volume may still raise past the floors. -/
theorem score_eq {x : Figures} (h : x.Scorable) : x.score =
    if x.Floored then .ok (some 0)
    else (intTrueDiv x.successCount LLM_KEY_VOLUME_TARGET_CALLS).map fun _ => some x.value := by
  have hpositive : 0 < x.successCount + x.failureCount := by
    have := h.minCalls
    have := h.enough
    omega
  have hreliability : intTrueDiv x.successCount (x.successCount + x.failureCount) =
      .ok x.reliability := intTrueDiv_part h.success h.failure hpositive
  have hcounts : ¬ (x.successCount < 0 ∨ x.failureCount < 0) := by
    have := h.success
    have := h.failure
    omega
  have hvalue : ¬ x.Floored → x.value = x.composite * x.tier := fun hclear => if_neg hclear
  unfold score llmKeyEfficiencyScore
  simp only [Bool.not_true, Bool.false_eq_true, if_false]
  rw [if_neg hcounts, if_neg (not_lt.mpr h.enough), hreliability]
  show (if x.Unreliable then _ else _) = _
  by_cases hunreliable : x.Unreliable
  · rw [if_pos hunreliable, if_pos (show x.Floored from .inl hunreliable)]
    rfl
  · rw [if_neg hunreliable]
    show (if (x.lowQuality && x.graded) = true then _ else _) = _
    by_cases hlow : (x.lowQuality && x.graded) = true
    · rw [if_pos hlow, if_pos (show x.Floored from .inr hlow)]
      rfl
    · have hclear : ¬ x.Floored := by
        intro hfloored
        exact hfloored.elim hunreliable hlow
      rw [if_neg hlow, if_neg hclear, hvalue hclear]
      unfold intTrueDiv
      rw [if_neg (by decide)]
      split
      · rfl
      · rfl

theorem value_of_floored {x : Figures} (h : x.Floored) : x.value = 0 := if_pos h

theorem value_of_clear {x : Figures} (h : ¬ x.Floored) : x.value = x.composite * x.tier := if_neg h

/-- Whatever is returned is what the window is worth. -/
theorem eq_value {x : Figures} (h : x.Scorable) {r : Option ℚ} (hr : x.score = .ok r) :
    r = some x.value := by
  rw [score_eq h] at hr
  split at hr
  · rename_i hfloored
    rw [value_of_floored hfloored]
    exact (Except.ok.inj hr).symm
  · cases hvolume : intTrueDiv x.successCount LLM_KEY_VOLUME_TARGET_CALLS with
    | error e =>
      rw [hvolume] at hr
      cases hr
    | ok volume =>
      rw [hvolume] at hr
      exact (Except.ok.inj hr).symm

/-- Nothing is raised over a volume that a float holds. -/
theorem score_returns {x : Figures} (h : x.Scorable)
    (hvolume : (x.successCount : ℚ) / LLM_KEY_VOLUME_TARGET_CALLS < 2 ^ 1024 - 2 ^ 970) :
    x.score = .ok (some x.value) := by
  have hnonneg : (0 : ℚ) ≤ x.successCount := by exact_mod_cast h.success
  have hdiv : intTrueDiv x.successCount LLM_KEY_VOLUME_TARGET_CALLS =
      .ok ((x.successCount : ℚ) / LLM_KEY_VOLUME_TARGET_CALLS) := by
    unfold intTrueDiv
    rw [if_neg (by decide), if_pos]
    rw [abs_of_nonneg (div_nonneg hnonneg (by norm_num [LLM_KEY_VOLUME_TARGET_CALLS]))]
    exact hvolume
  rw [score_eq h, hdiv]
  split
  · rename_i hfloored
    rw [value_of_floored hfloored]
  · rfl

/-! ## The range -/

theorem inUnit_reliability {x : Figures} (h : x.Scorable) : InUnit x.reliability :=
  inUnit_part h.success h.failure

theorem inUnit_latencyScore (x : Figures) : InUnit x.latencyScore := by
  unfold latencyScore
  split
  · exact inUnit_half
  · exact inUnit_clamp _

theorem inUnit_volumeScore {x : Figures} (h : x.Scorable) : InUnit x.volumeScore := by
  have hnonneg : (0 : ℚ) ≤ x.successCount := by exact_mod_cast h.success
  refine ⟨le_min zero_le_one ?_, min_le_left 1 _⟩
  exact div_nonneg hnonneg (by norm_num [LLM_KEY_VOLUME_TARGET_CALLS])

theorem inUnit_parts {x : Figures} (h : x.Scorable) : InUnit x.composite :=
  inUnit_composite (inUnit_reliability h) (inUnit_sanitized _) (inUnit_latencyScore x)
    (inUnit_volumeScore h)

theorem inUnit_value {x : Figures} (h : x.Scorable) : InUnit x.value := by
  unfold value
  split
  · exact inUnit_zero
  · exact (inUnit_parts h).mul (inUnit_clamp _)

/-! ## The order -/

/-- `m` is a measured latency no longer than `l`, or nothing has changed. -/
def NoSlower (l m : Option PyFloat) : Prop :=
  l = m ∨ ∃ p q : ℚ, l = some (.fin p) ∧ m = some (.fin q) ∧ 0 ≤ q ∧ q ≤ p

/-- `m` is a measured grade no lower than `l`, or nothing has changed. -/
def NoLowerGrade (l m : Option PyFloat) : Prop :=
  l = m ∨ ∃ p q : ℚ, l = some (.fin p) ∧ m = some (.fin q) ∧ 0 ≤ p ∧ p ≤ q ∧ q ≤ 1

def NoLowerTier (l m : PyFloat) : Prop := l = m ∨ ∃ p q : ℚ, l = .fin p ∧ m = .fin q ∧ p ≤ q

/-- `y` is no worse than `x` on any axis, under the same rules. -/
structure NoBetter (x y : Figures) : Prop where
  success : x.successCount ≤ y.successCount
  failure : y.failureCount ≤ x.failureCount
  latency : NoSlower x.avgLatencyS y.avgLatencyS
  quality : NoLowerGrade x.qualityScore y.qualityScore
  tier : NoLowerTier x.modelTierWeight y.modelTierWeight
  minCalls : x.minCallsForScoring = y.minCallsForScoring
  gradedCalls : x.qualityCallCount = y.qualityCallCount
  reliabilityFloor : x.reliabilityFloor = y.reliabilityFloor
  qualityFloor : x.qualityFloor = y.qualityFloor
  minGraded : x.qualityFloorMinGraded = y.qualityFloorMinGraded

/-- Of two windows, the one with more successes and fewer failures has the larger part of them. -/
theorem part_mono {s f t g : Int} (hs : 0 ≤ s) (hg : 0 ≤ g) (hst : s ≤ t) (hgf : g ≤ f)
    (hpositive : 0 < s + f) (hpositive' : 0 < t + g) :
    (s : ℚ) / (s + f : Int) ≤ (t : ℚ) / (t + g : Int) := by
  have hden : (0 : ℚ) < (s + f : Int) := by exact_mod_cast hpositive
  have hden' : (0 : ℚ) < (t + g : Int) := by exact_mod_cast hpositive'
  rw [div_le_div_iff₀ hden hden']
  have hcross : s * (t + g) ≤ t * (s + f) := by
    have hmul : s * g ≤ t * f := mul_le_mul hst hgf hg (hs.trans hst)
    linarith [mul_comm s t]
  exact_mod_cast hcross

section Order

variable {x y : Figures}

theorem reliability_mono (h : NoBetter x y) (hx : x.Scorable) (hy : y.Scorable) :
    x.reliability ≤ y.reliability := by
  have hpositive := hx.minCalls.trans hx.enough
  have hpositive' := hy.minCalls.trans hy.enough
  exact part_mono hx.success hy.failure h.success h.failure (by omega) (by omega)

theorem volumeScore_mono (h : NoBetter x y) : x.volumeScore ≤ y.volumeScore := by
  have hsuccess : (x.successCount : ℚ) ≤ y.successCount := by exact_mod_cast h.success
  have hdiv : (x.successCount : ℚ) / LLM_KEY_VOLUME_TARGET_CALLS ≤
      y.successCount / LLM_KEY_VOLUME_TARGET_CALLS :=
    div_le_div_of_nonneg_right hsuccess (by norm_num [LLM_KEY_VOLUME_TARGET_CALLS])
  exact min_le_min_left 1 hdiv

theorem sanitizeLatencyMs_fin {q : ℚ} (h : 0 ≤ q) : sanitizeLatencyMs (some (.fin q)) = some q :=
  if_neg (not_lt.mpr h)

theorem sanitizeQualityScore_fin {q : ℚ} (h : 0 ≤ q) (h' : q ≤ 1) :
    sanitizeQualityScore (some (.fin q)) = some q := if_pos ⟨h, h'⟩

theorem latencyScore_mono (h : NoBetter x y) : x.latencyScore ≤ y.latencyScore := by
  unfold latencyScore
  rcases h.latency with hsame | ⟨p, q, hp, hq, hnonneg, hle⟩
  · rw [hsame]
  · rw [hp, hq, sanitizeLatencyMs_fin hnonneg, sanitizeLatencyMs_fin (hnonneg.trans hle)]
    have hdiv : q / LLM_KEY_LATENCY_CEILING_SECONDS ≤ p / LLM_KEY_LATENCY_CEILING_SECONDS :=
      div_le_div_of_nonneg_right hle (by norm_num [LLM_KEY_LATENCY_CEILING_SECONDS])
    exact max_le_max_left 0 (min_le_min_left 1 (sub_le_sub_left hdiv 1))

theorem quality_mono (h : NoBetter x y) : x.quality ≤ y.quality := by
  unfold quality
  rcases h.quality with hsame | ⟨p, q, hp, hq, hnonneg, hle, hone⟩
  · rw [hsame]
  · rw [hp, hq, sanitizeQualityScore_fin hnonneg (hle.trans hone),
      sanitizeQualityScore_fin (hnonneg.trans hle) hone]
    exact hle

theorem tier_mono (h : NoBetter x y) : x.tier ≤ y.tier := by
  unfold tier
  rcases h.tier with hsame | ⟨p, q, hp, hq, hle⟩
  · rw [hsame]
  · rw [hp, hq]
    exact max_le_max_left 0 (min_le_min_left 1 hle)

theorem composite_mono (h : NoBetter x y) (hx : x.Scorable) (hy : y.Scorable) :
    x.composite ≤ y.composite := by
  have hreliability := reliability_mono h hx hy
  have hquality := quality_mono h
  have hlatency := latencyScore_mono h
  have hvolume := volumeScore_mono h
  unfold composite LLM_KEY_RELIABILITY_WEIGHT LLM_KEY_QUALITY_WEIGHT LLM_KEY_LATENCY_WEIGHT
    LLM_KEY_VOLUME_WEIGHT
  linarith

/-- A low grade of the better window is a low grade of the other. -/
theorem lowQuality_anti (h : NoBetter x y) (hlow : y.lowQuality = true) : x.lowQuality = true := by
  unfold lowQuality at hlow ⊢
  rw [h.qualityFloor]
  rcases h.quality with hsame | ⟨p, q, hp, hq, hnonneg, hle, hone⟩
  · rw [hsame]
    exact hlow
  · rw [hq, sanitizeQualityScore_fin (hnonneg.trans hle) hone] at hlow
    rw [hp, sanitizeQualityScore_fin hnonneg (hle.trans hone)]
    dsimp only at hlow ⊢
    rw [decide_eq_true_eq] at hlow ⊢
    exact hle.trans_lt hlow

/-- A floor that the better window trips is tripped by the other. -/
theorem floored_anti (h : NoBetter x y) (hx : x.Scorable) (hy : y.Scorable) (hfloored : y.Floored) :
    x.Floored := by
  rcases hfloored with hunreliable | hlow
  · left
    unfold Unreliable at hunreliable ⊢
    rw [h.reliabilityFloor]
    exact (reliability_mono h hx hy).trans_lt hunreliable
  · right
    rw [Bool.and_eq_true] at hlow ⊢
    have hgraded : x.graded = y.graded := by
      unfold graded
      rw [h.gradedCalls, h.minGraded]
    rw [hgraded]
    exact ⟨lowQuality_anti h hlow.1, hlow.2⟩

theorem value_mono (h : NoBetter x y) (hx : x.Scorable) (hy : y.Scorable) : x.value ≤ y.value := by
  by_cases hfloored : x.Floored
  · rw [value_of_floored hfloored]
    exact (inUnit_value hy).1
  · -- The better window is past the floors too, and every part of it is no smaller.
    have hclear : ¬ y.Floored := fun hy' => hfloored (floored_anti h hx hy hy')
    rw [value_of_clear hfloored, value_of_clear hclear]
    exact mul_le_mul (composite_mono h hx hy) (tier_mono h) (inUnit_clamp _).1 (inUnit_parts hy).1

end Order

/-- **The score is a share, and monotone on each of its axes.** It is returned whenever the volume is
    one that a float holds. -/
theorem score_rises {x y : Figures} (hx : x.Scorable) (hy : y.Scorable) (h : NoBetter x y) :
    (∀ r, x.score = .ok r → ∃ p, r = some p ∧ 0 ≤ p ∧ p ≤ 1) ∧
      (∀ p q, x.score = .ok (some p) → y.score = .ok (some q) → p ≤ q) ∧
      ((x.successCount : ℚ) / LLM_KEY_VOLUME_TARGET_CALLS < 2 ^ 1024 - 2 ^ 970 →
        ∃ p, x.score = .ok (some p)) := by
  refine ⟨?_, ?_, ?_⟩
  · intro r hr
    exact ⟨x.value, eq_value hx hr, inUnit_value hx⟩
  · intro p q hp hq
    rw [Option.some.inj (eq_value hx hp), Option.some.inj (eq_value hy hq)]
    exact value_mono h hx hy
  · intro hvolume
    exact ⟨x.value, score_returns hx hvolume⟩

/-- Half of ten calls failed. -/
def halfFailed : Figures where
  successCount := 5
  failureCount := 5
  avgLatencyS := some (.fin 2)
  qualityScore := some (.fin 0.4)
  modelTierWeight := .fin 0.6
  minCallsForScoring := 5
  qualityCallCount := some 10
  reliabilityFloor := .fin 0.5
  qualityFloor := .fin 0.35
  qualityFloorMinGraded := 3

/-- None of eleven did, of a better model. -/
def noneFailed : Figures :=
  { halfFailed with
    successCount := 11
    failureCount := 0
    avgLatencyS := some (.fin 1)
    qualityScore := some (.fin 0.8)
    modelTierWeight := .fin 1 }

theorem score_rises_none_failed : halfFailed.value ≤ noneFailed.value := by
  have hx : halfFailed.Scorable := ⟨by decide, by decide, by decide, by decide⟩
  have hy : noneFailed.Scorable := ⟨by decide, by decide, by decide, by decide⟩
  have h : NoBetter halfFailed noneFailed := by
    refine ⟨by decide, by decide, ?_, ?_, ?_, rfl, rfl, rfl, rfl, rfl⟩
    · exact .inr ⟨2, 1, rfl, rfl, by norm_num, by norm_num⟩
    · exact .inr ⟨0.4, 0.8, rfl, rfl, by norm_num, by norm_num, by norm_num⟩
    · exact .inr ⟨0.6, 1, rfl, rfl, by norm_num⟩
  have hvolume : ((noneFailed.successCount : ℚ) / LLM_KEY_VOLUME_TARGET_CALLS) <
      2 ^ 1024 - 2 ^ 970 :=
    lt_trans (by norm_num [noneFailed, LLM_KEY_VOLUME_TARGET_CALLS]) one_lt_range
  have hvolume' : ((halfFailed.successCount : ℚ) / LLM_KEY_VOLUME_TARGET_CALLS) <
      2 ^ 1024 - 2 ^ 970 :=
    lt_trans (by norm_num [halfFailed, LLM_KEY_VOLUME_TARGET_CALLS]) one_lt_range
  exact (score_rises hx hy h).2.1 _ _ (score_returns hx hvolume') (score_returns hy hvolume)

end Figures

end TaoSubnet
