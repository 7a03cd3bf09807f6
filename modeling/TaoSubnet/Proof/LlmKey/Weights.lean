import Mathlib.Algebra.BigOperators.Ring.List
import Mathlib.Algebra.Order.BigOperators.Group.List
import Mathlib.Tactic.FieldSimp
import Mathlib.Tactic.Linarith
import TaoSubnet.LlmKey.Weights

/-!
# Who is submitted with weight

Two branches of the chain's limits give every uid a weight, the burn scales it down, and what is small
enough beside the largest weight rounds to zero. Relative to a uid without a score, the limits leave
each uid a share; whether such a uid is submitted is a matter of the shares and the burn alone.
-/

namespace TaoSubnet

open Py

/-! ## Arrays over the uids -/

theorem mem_indexed {weights : List ℚ} {p : Nat × ℚ} :
    p ∈ indexed weights ↔ weights[p.1]? = some p.2 := by
  obtain ⟨uid, weight⟩ := p
  unfold indexed
  rw [List.mem_mapIdx]
  constructor
  · rintro ⟨i, hi, hp⟩
    cases hp
    exact List.getElem?_eq_getElem hi
  · intro h
    obtain ⟨hi, hweight⟩ := List.getElem?_eq_some_iff.mp h
    exact ⟨uid, hi, by rw [hweight]⟩

theorem indexed_map (f : ℚ → ℚ) (weights : List ℚ) :
    indexed (weights.map f) = (indexed weights).map fun p => (p.1, f p.2) := by
  unfold indexed
  apply List.ext_getElem?
  intro i
  cases h : weights[i]? with
  | none => simp [h]
  | some weight => simp [h]

theorem indexed_snd (weights : List ℚ) : (indexed weights).map Prod.snd = weights := by
  unfold indexed
  apply List.ext_getElem?
  intro i
  cases h : weights[i]? with
  | none => simp [h]
  | some weight => simp [h]

/-- The uids other than the burn's. -/
def others (burn : Burn) (weights : List ℚ) : List (Nat × ℚ) :=
  (indexed weights).filter fun p => p.1 ≠ burn.uid

theorem mem_others {burn : Burn} {weights : List ℚ} {p : Nat × ℚ} :
    p ∈ others burn weights ↔ weights[p.1]? = some p.2 ∧ p.1 ≠ burn.uid := by
  unfold others
  rw [List.mem_filter, mem_indexed, decide_eq_true_eq]

theorem others_map (burn : Burn) (f : ℚ → ℚ) (weights : List ℚ) :
    others burn (weights.map f) = (others burn weights).map fun p => (p.1, f p.2) := by
  unfold others
  rw [indexed_map, List.filter_map]
  rfl

/-! ## Emission -/

variable {weights : List (Nat × ℚ)} {emitted : List (Nat × Int)}

/-- What is emitted: the weights that do not round to zero beside the largest. -/
theorem convert_eq (hnonneg : ∀ p ∈ weights, 0 ≤ p.2) (hsum : (weights.map Prod.snd).sum ≠ 0) :
    ∃ top, (∀ p ∈ weights, p.2 ≤ top) ∧ (∃ p ∈ weights, p.2 = top) ∧ 0 < top ∧
      convertWeightsAndUidsForEmit weights = some ((weights.map fun p =>
        (p.1, PyFloat.roundEven (p.2 / top * U16_MAX))).filter fun p => p.2 ≠ 0) := by
  have hne : weights.map Prod.snd ≠ [] := by
    intro hempty
    rw [hempty] at hsum
    exact hsum rfl
  obtain ⟨top, htop⟩ := Option.ne_none_iff_exists'.mp (fun h => hne (List.max?_eq_none_iff.mp h))
  obtain ⟨hmem, hle⟩ := List.max?_eq_some_iff.mp htop
  obtain ⟨p, hp, hsame⟩ := List.mem_map.mp hmem
  have hbound : ∀ p ∈ weights, p.2 ≤ top := fun p hp => hle _ (List.mem_map_of_mem hp)
  refine ⟨top, hbound, ⟨p, hp, hsame⟩, ?_, ?_⟩
  · -- Were the largest zero, the sum would be.
    by_contra hnot
    apply hsum
    apply List.sum_eq_zero
    intro weight hweight
    obtain ⟨q, hq, rfl⟩ := List.mem_map.mp hweight
    exact le_antisymm ((hbound q hq).trans (not_lt.mp hnot)) (hnonneg q hq)
  · unfold convertWeightsAndUidsForEmit
    rw [if_neg, if_neg hsum, htop]
    · rfl
    · rw [List.any_eq_true]
      rintro ⟨q, hq, hneg⟩
      exact absurd (hnonneg q hq) (not_le.mpr (of_decide_eq_true hneg))

/-- A weight rounds to zero if the largest is 131070 times as much. -/
theorem roundEven_share {weight top : ℚ} (hweight : 0 ≤ weight) (htop : 0 < top) :
    0 < PyFloat.roundEven (weight / top * U16_MAX) ↔ top < 131070 * weight := by
  have hnonneg : 0 ≤ weight / top * U16_MAX :=
    mul_nonneg (div_nonneg hweight htop.le) (by norm_num [U16_MAX])
  have hzero := PyFloat.roundEven_eq_zero_iff hnonneg
  have hfloor : 0 ≤ ⌊weight / top * U16_MAX⌋ := Int.floor_nonneg.mpr hnonneg
  have hbounds := PyFloat.roundEven_bounds (weight / top * U16_MAX)
  have hscale : weight / top * U16_MAX ≤ 1 / 2 ↔ 131070 * weight ≤ top := by
    unfold U16_MAX
    rw [div_mul_eq_mul_div, div_le_iff₀ htop]
    constructor
    · intro h
      linarith
    · intro h
      linarith
  have hne : PyFloat.roundEven (weight / top * U16_MAX) ≠ 0 ↔ top < 131070 * weight := by
    rw [ne_eq, hzero, hscale, not_le]
  rw [← hne]
  omega

/-- Who is emitted with a positive weight. -/
theorem emitted_iff (hnonneg : ∀ p ∈ weights, 0 ≤ p.2) (hsum : (weights.map Prod.snd).sum ≠ 0)
    (h : convertWeightsAndUidsForEmit weights = some emitted) (uid : Nat) :
    (∃ k, (uid, k) ∈ emitted ∧ 0 < k) ↔
      ∃ weight, (uid, weight) ∈ weights ∧ ∀ p ∈ weights, p.2 < 131070 * weight := by
  obtain ⟨top, hbound, ⟨largest, hlargest, hsame⟩, htop, hconvert⟩ := convert_eq hnonneg hsum
  rw [h, Option.some.injEq] at hconvert
  subst hconvert
  constructor
  · rintro ⟨k, hmem, hk⟩
    obtain ⟨p, hp, hpair⟩ := List.mem_map.mp (List.mem_filter.mp hmem).1
    obtain ⟨rfl, rfl⟩ := Prod.mk.inj hpair
    refine ⟨p.2, hp, ?_⟩
    intro q hq
    exact (hbound q hq).trans_lt ((roundEven_share (hnonneg p hp) htop).mp hk)
  · rintro ⟨weight, hmem, hall⟩
    have hk := (roundEven_share (hnonneg _ hmem) htop).mpr (hsame ▸ hall largest hlargest)
    refine ⟨_, List.mem_filter.mpr ⟨List.mem_map_of_mem hmem, ?_⟩, hk⟩
    exact decide_eq_true (ne_of_gt hk)

/-- Nobody is emitted who had no weight. -/
theorem mem_of_emitted (h : convertWeightsAndUidsForEmit weights = some emitted) {p : Nat × Int}
    (hp : p ∈ emitted) : ∃ weight, (p.1, weight) ∈ weights := by
  unfold convertWeightsAndUidsForEmit at h
  split at h
  · cases h
  · split at h
    · cases h
      cases hp
    · cases h
      obtain ⟨q, hq, rfl⟩ := List.mem_map.mp (List.mem_filter.mp hp).1
      exact ⟨q.2, hq⟩

/-! ## Earners -/

/-- The uid's entry is positive. -/
def Earns (scores : List ℚ) (uid : Nat) : Prop := ∃ score, scores[uid]? = some score ∧ 0 < score

/-- The scores are divided by something positive that none of them exceeds. -/
theorem rawWeights_eq (scores : List ℚ) : ∃ norm, 0 < norm ∧ (∀ score ∈ scores, score ≤ norm) ∧
    rawWeights scores = scores.map fun score => score / norm := by
  have hnonneg : ∀ size ∈ scores.map fun score => |score|, 0 ≤ size := by
    intro size hsize
    obtain ⟨score, -, rfl⟩ := List.mem_map.mp hsize
    exact abs_nonneg score
  have hle : ∀ score ∈ scores, score ≤ (scores.map fun score => |score|).sum := by
    intro score hscore
    exact (le_abs_self score).trans
      (List.single_le_sum hnonneg _ (List.mem_map_of_mem hscore))
  by_cases hzero : (scores.map fun score => |score|).sum = 0
  · refine ⟨1, one_pos, ?_, ?_⟩
    · intro score hscore
      exact ((hle score hscore).trans_eq hzero).trans zero_le_one
    · simp [rawWeights, hzero]
  · refine ⟨_, lt_of_le_of_ne (List.sum_nonneg hnonneg) (Ne.symm hzero), hle, ?_⟩
    simp only [rawWeights, if_neg hzero]

theorem earns_rawWeights {scores : List ℚ} {uid : Nat} :
    Earns (rawWeights scores) uid ↔ Earns scores uid := by
  obtain ⟨norm, hnorm, -, hraw⟩ := rawWeights_eq scores
  unfold Earns
  rw [hraw, List.getElem?_map]
  constructor
  · rintro ⟨weight, hweight, hpos⟩
    obtain ⟨score, hscore, rfl⟩ := Option.map_eq_some_iff.mp hweight
    refine ⟨score, hscore, ?_⟩
    by_contra hnot
    exact absurd hpos (not_lt.mpr (div_nonpos_of_nonpos_of_nonneg (not_lt.mp hnot) hnorm.le))
  · rintro ⟨score, hscore, hpos⟩
    exact ⟨score / norm, by rw [hscore]; rfl, div_pos hpos hnorm⟩

theorem rawWeights_le_one {scores : List ℚ} {weight : ℚ} (h : weight ∈ rawWeights scores) :
    weight ≤ 1 := by
  obtain ⟨norm, hnorm, hle, hraw⟩ := rawWeights_eq scores
  rw [hraw] at h
  obtain ⟨score, hscore, rfl⟩ := List.mem_map.mp h
  exact (div_le_one hnorm).mpr (hle score hscore)

theorem length_rawWeights (scores : List ℚ) : (rawWeights scores).length = scores.length := by
  simp [rawWeights]

/-! ## The burn -/

/-- What is allocated adds up to one. -/
theorem burnAllocation_sum (burn : Burn) (weights : Option (List (Nat × ℚ))) :
    ((burnAllocation burn weights).map Prod.snd).sum = 1 := by
  unfold burnAllocation
  cases weights with
  | none => simp
  | some weights =>
    dsimp only
    split
    · rename_i hmixed
      obtain ⟨-, hsum, -⟩ := hmixed
      rw [List.map_append, List.sum_append, List.map_map]
      have hparts : (Prod.snd ∘ fun p : Nat × ℚ => (p.1, p.2 /
          ((weights.filter fun p => p.1 ≠ burn.uid).map Prod.snd).sum * (1 - burn.percentage))) =
          fun p => p.2 * ((((weights.filter fun p => p.1 ≠ burn.uid).map Prod.snd).sum)⁻¹ *
            (1 - burn.percentage)) := by
        funext p
        simp only [Function.comp_apply]
        rw [div_eq_mul_inv, mul_assoc]
      rw [hparts, List.sum_map_mul_right, ← mul_assoc, mul_inv_cancel₀ hsum.ne']
      simp
    · simp

theorem applyBurnAllocation_ok {burn : Burn} {n : Nat} (huid : burn.uid < n)
    (hrange : 0 ≤ burn.percentage ∧ burn.percentage ≤ 1) (weights : Option (List (Nat × ℚ))) :
    applyBurnAllocation burn n weights = .ok (burnAllocation burn weights) := by
  unfold applyBurnAllocation
  rw [if_neg (not_not.mpr huid), if_neg (not_not.mpr hrange)]
  simp only [burnAllocation_sum]
  rw [if_neg (by norm_num)]
  simp

/-- Nobody but the burn is allocated anything that had no weight. -/
theorem mem_of_allocated {burn : Burn} {weights : Option (List (Nat × ℚ))} {p : Nat × ℚ}
    (hp : p ∈ burnAllocation burn weights) (hother : p.1 ≠ burn.uid) :
    ∃ found weight, weights = some found ∧ (p.1, weight) ∈ found := by
  unfold burnAllocation at hp
  cases weights with
  | none =>
    rw [List.mem_singleton.mp hp] at hother
    exact absurd rfl hother
  | some found =>
    dsimp only at hp
    split at hp
    · rcases List.mem_append.mp hp with hminer | hburn
      · obtain ⟨q, hq, rfl⟩ := List.mem_map.mp hminer
        exact ⟨found, q.2, rfl, (List.mem_filter.mp hq).1⟩
      · rw [List.mem_singleton.mp hburn] at hother
        exact absurd rfl hother
    · rw [List.mem_singleton.mp hp] at hother
      exact absurd rfl hother

/-! ## What is submitted -/

/-- Every uid but the burn's that is submitted with weight has a positive score. -/
def PaysOnlyEarners (burn : Burn) (limits : ChainLimits) (scores : List ℚ) : Prop :=
  ∀ emitted, submittedWeights burn limits scores = some emitted →
    ∀ p ∈ emitted, p.1 ≠ burn.uid → 0 < p.2 → Earns scores p.1

variable {burn : Burn} {limits : ChainLimits} {scores : List ℚ}

theorem submittedWeights_ok (huid : burn.uid < scores.length)
    (hrange : 0 ≤ burn.percentage ∧ burn.percentage ≤ 1) :
    submittedWeights burn limits scores =
      convertWeightsAndUidsForEmit (burnAllocation burn (processedWeights limits scores)) := by
  unfold submittedWeights
  rw [applyBurnAllocation_ok huid hrange]

/-- The burn is allocated, and the rest is submitted. -/
def Allocates (burn : Burn) (n : Nat) : Prop :=
  burn.uid < n ∧ 0 ≤ burn.percentage ∧ burn.percentage ≤ 1

theorem pays_of_skipped (h : ¬ Allocates burn scores.length) : PaysOnlyEarners burn limits scores := by
  intro emitted hemitted
  exfalso
  unfold submittedWeights applyBurnAllocation at hemitted
  by_cases huid : burn.uid < scores.length
  · have hrange : ¬ (0 ≤ burn.percentage ∧ burn.percentage ≤ 1) := fun hrange => h ⟨huid, hrange⟩
    rw [if_neg (not_not.mpr huid), if_pos hrange] at hemitted
    cases hemitted
  · rw [if_pos huid] at hemitted
    cases hemitted

/-- Whoever is submitted had a weight before the burn. -/
theorem pays_of_processed (h : ∀ weights, processedWeights limits scores = some weights →
    ∀ p ∈ weights, p.1 ≠ burn.uid → Earns scores p.1) : PaysOnlyEarners burn limits scores := by
  by_cases hallocates : Allocates burn scores.length
  · intro emitted hemitted p hp hother _
    rw [submittedWeights_ok hallocates.1 hallocates.2] at hemitted
    obtain ⟨weight, hweight⟩ := mem_of_emitted hemitted hp
    obtain ⟨found, processed, hfound, hmem⟩ := mem_of_allocated hweight hother
    exact h found hfound _ hmem hother
  · exact pays_of_skipped hallocates

/-- Where everything burns, nobody else is submitted. -/
theorem pays_of_burned (h : burnAllocation burn (processedWeights limits scores) = [(burn.uid, 1)]) :
    PaysOnlyEarners burn limits scores := by
  by_cases hallocates : Allocates burn scores.length
  · intro emitted hemitted p hp hother _
    rw [submittedWeights_ok hallocates.1 hallocates.2, h] at hemitted
    obtain ⟨weight, hweight⟩ := mem_of_emitted hemitted hp
    exact absurd (congrArg Prod.fst (List.mem_singleton.mp hweight)) hother
  · exact pays_of_skipped hallocates

/-! ## Weights for everybody -/

/-- What the others make of shares that are scaled down together. -/
theorem burnAllocation_shares {raw : List ℚ} {f : ℚ → ℚ} {total : ℚ} (htotal : 0 < total)
    (hf : ∀ weight ∈ raw, 1 ≤ f weight) (hothers : others burn raw ≠ [])
    (hpercentage : burn.percentage < 1) :
    0 < ((others burn raw).map fun p => f p.2).sum ∧
      burnAllocation burn (some (indexed (raw.map fun weight => f weight / total))) =
        ((others burn raw).map fun p => (p.1, f p.2 /
          ((others burn raw).map fun p => f p.2).sum * (1 - burn.percentage))) ++
          [(burn.uid, burn.percentage)] := by
  have hpos : 0 < ((others burn raw).map fun p => f p.2).sum := by
    apply List.sum_pos
    · intro weight hweight
      obtain ⟨p, hp, rfl⟩ := List.mem_map.mp hweight
      exact zero_lt_one.trans_le (hf p.2 (List.mem_of_getElem? (mem_others.mp hp).1))
    · simpa using hothers
  refine ⟨hpos, ?_⟩
  have hminers : (indexed (raw.map fun weight => f weight / total)).filter
      (fun p => p.1 ≠ burn.uid) = (others burn raw).map fun p => (p.1, f p.2 / total) :=
    others_map burn _ raw
  have hsum : (((others burn raw).map fun p => (p.1, f p.2 / total)).map Prod.snd).sum =
      ((others burn raw).map fun p => f p.2).sum / total := by
    rw [List.map_map, div_eq_mul_inv, ← List.sum_map_mul_right]
    rfl
  unfold burnAllocation
  simp only [hminers, hsum]
  rw [if_pos]
  · congr 1
    rw [List.map_map]
    apply List.map_congr_left
    intro p _
    simp only [Function.comp_apply]
    rw [div_div_div_cancel_right₀ htotal.ne']
  · exact ⟨by simpa using hothers, div_pos hpos htotal, by linarith⟩

/-- Who is no miner's weight has nothing to allocate. -/
theorem burnAllocation_alone (raw : List ℚ) (g : ℚ → ℚ)
    (h : others burn raw = [] ∨ 1 ≤ burn.percentage) :
    burnAllocation burn (some (indexed (raw.map g))) = [(burn.uid, 1)] := by
  have hminers : (indexed (raw.map g)).filter (fun p => p.1 ≠ burn.uid) =
      (others burn raw).map fun p => (p.1, g p.2) := others_map burn g raw
  unfold burnAllocation
  simp only [hminers]
  rw [if_neg]
  rintro ⟨hminers, -, hpercentage⟩
  rcases h with hnone | hall
  · rw [hnone] at hminers
    exact hminers rfl
  · linarith

/-- **Shares decide**: with a share of one for who has no score, and less than 131070 for everybody,
    those without a score are left out if there are none, or the burn outweighs the shares. -/
theorem pays_shares {f : ℚ → ℚ} {total : ℚ} (hallocates : Allocates burn scores.length)
    (htotal : 0 < total) (hf : ∀ weight ∈ rawWeights scores, 1 ≤ f weight ∧ f weight < 131070)
    (hone : ∀ weight, weight ≤ 0 → f weight = 1)
    (hprocessed : processedWeights limits scores =
      some (indexed ((rawWeights scores).map fun weight => f weight / total))) :
    PaysOnlyEarners burn limits scores ↔
      (∀ p ∈ others burn (rawWeights scores), 0 < p.2) ∨ 131070 * (1 - burn.percentage) ≤
        burn.percentage * ((others burn (rawWeights scores)).map fun p => f p.2).sum := by
  obtain ⟨huid, hlow, hhigh⟩ := hallocates
  have hmem : ∀ p ∈ others burn (rawWeights scores), 1 ≤ f p.2 ∧ f p.2 < 131070 :=
    fun p hp => hf p.2 (List.mem_of_getElem? (mem_others.mp hp).1)
  by_cases hothers : others burn (rawWeights scores) = []
  · have hburned := burnAllocation_alone (rawWeights scores) (fun weight => f weight / total) (.inl hothers)
    rw [← hprocessed] at hburned
    refine iff_of_true (pays_of_burned hburned) (.inl ?_)
    rw [hothers]
    intro p hp
    cases hp
  by_cases hfull : 1 ≤ burn.percentage
  · have hburned := burnAllocation_alone (rawWeights scores) (fun weight => f weight / total)
      (.inr hfull)
    rw [← hprocessed] at hburned
    refine iff_of_true (pays_of_burned hburned) (.inr ?_)
    have hnonneg : 0 ≤ ((others burn (rawWeights scores)).map fun p => f p.2).sum := by
      apply List.sum_nonneg
      intro weight hweight
      obtain ⟨p, hp, rfl⟩ := List.mem_map.mp hweight
      exact zero_le_one.trans (hmem p hp).1
    have hscaled : 0 ≤ burn.percentage *
        ((others burn (rawWeights scores)).map fun p => f p.2).sum := mul_nonneg hlow hnonneg
    linarith
  obtain ⟨hpos, hallocation⟩ := burnAllocation_shares htotal (fun weight hweight => (hf weight hweight).1)
    hothers (not_le.mp hfull)
  rw [← hprocessed] at hallocation
  generalize ((others burn (rawWeights scores)).map fun p => f p.2).sum = sum at hpos hallocation ⊢
  have hminer : 0 < 1 - burn.percentage := by linarith
  have hsum := burnAllocation_sum burn (processedWeights limits scores)
  have hsubmitted : submittedWeights burn limits scores = _ := submittedWeights_ok huid ⟨hlow, hhigh⟩
  rw [hallocation] at hsum hsubmitted
  have hnonneg : ∀ p ∈ ((others burn (rawWeights scores)).map fun p =>
      (p.1, f p.2 / sum * (1 - burn.percentage))) ++ [(burn.uid, burn.percentage)], 0 ≤ p.2 := by
    intro p hp
    rcases List.mem_append.mp hp with hminers | hburn
    · obtain ⟨q, hq, rfl⟩ := List.mem_map.mp hminers
      have hshare : 0 ≤ f q.2 := zero_le_one.trans (hmem q hq).1
      exact mul_nonneg (div_nonneg hshare hpos.le) hminer.le
    · rw [List.mem_singleton.mp hburn]
      exact hlow
  obtain ⟨top, -, -, -, hconvert⟩ := convert_eq hnonneg (hsum.trans_ne one_ne_zero)
  have hemitted := emitted_iff hnonneg (hsum.trans_ne one_ne_zero) hconvert
  rw [hconvert] at hsubmitted
  constructor
  · intro hpays
    by_contra hnot
    rw [not_or, not_forall, not_le] at hnot
    obtain ⟨⟨p, hp⟩, hburn⟩ := hnot
    rw [Classical.not_imp, not_lt] at hp
    obtain ⟨hp, hunearned⟩ := hp
    -- The share of who has no score is one, and nothing is 131070 times as much.
    obtain ⟨k, hk, hkpos⟩ := (hemitted p.1).mpr ⟨f p.2 / sum * (1 - burn.percentage),
      List.mem_append_left _ (List.mem_map_of_mem hp), by
        rw [hone p.2 hunearned]
        intro q hq
        rcases List.mem_append.mp hq with hminers | hburns
        · obtain ⟨other, hother, rfl⟩ := List.mem_map.mp hminers
          have hshare := (hmem other hother).2
          have hscale : 0 < 1 / sum * (1 - burn.percentage) :=
            mul_pos (one_div_pos.mpr hpos) hminer
          calc f other.2 / sum * (1 - burn.percentage)
              = f other.2 * (1 / sum * (1 - burn.percentage)) := by ring
            _ < 131070 * (1 / sum * (1 - burn.percentage)) :=
              mul_lt_mul_of_pos_right hshare hscale
        · rw [List.mem_singleton.mp hburns]
          rw [show (131070 : ℚ) * (1 / sum * (1 - burn.percentage)) =
            131070 * (1 - burn.percentage) / sum by ring, lt_div_iff₀ hpos]
          exact hburn⟩
    obtain ⟨weight, hweight, hweightPos⟩ := earns_rawWeights.mpr
      (hpays _ hsubmitted _ hk (mem_others.mp hp).2 hkpos)
    rw [(mem_others.mp hp).1] at hweight
    cases hweight
    exact absurd hweightPos (not_lt.mpr hunearned)
  · intro hcase found hfound p hp hother hppos
    rw [hsubmitted, Option.some.injEq] at hfound
    subst hfound
    obtain ⟨weight, hweight, hlargest⟩ := (hemitted p.1).mp ⟨p.2, hp, hppos⟩
    rcases List.mem_append.mp hweight with hminers | hburns
    · obtain ⟨q, hq, hsame⟩ := List.mem_map.mp hminers
      obtain ⟨huids, rfl⟩ := Prod.mk.inj hsame
      have hraw := (mem_others.mp hq).1
      rw [huids] at hraw
      apply earns_rawWeights.mp
      refine ⟨q.2, hraw, ?_⟩
      rcases hcase with hall | hburn
      · exact hall q hq
      · by_contra hunearned
        rw [hone q.2 (not_lt.mp hunearned)] at hlargest
        have hbelow := hlargest (burn.uid, burn.percentage)
          (List.mem_append_right _ (List.mem_singleton_self _))
        dsimp only at hbelow
        rw [show (131070 : ℚ) * (1 / sum * (1 - burn.percentage)) =
          131070 * (1 - burn.percentage) / sum by ring, lt_div_iff₀ hpos] at hbelow
        linarith
    · exact absurd (congrArg Prod.fst (List.mem_singleton.mp hburns)) hother

/-! ## What the chain's limits leave -/

/-- The limits leave everybody the same. -/
def Flat (limits : ChainLimits) (raw : List ℚ) : Prop :=
  raw.length < limits.minAllowedWeights ∨ raw.length * limits.maxWeightLimit ≤ 1

/-- Nobody's lifted weight is over the limit. -/
def Fits (limits : ChainLimits) (raw : List ℚ) : Prop :=
  ∀ weight ∈ raw.map lift, weight / (raw.map lift).sum ≤ limits.maxWeightLimit

instance (limits : ChainLimits) (raw : List ℚ) : Decidable (Flat limits raw) := by
  unfold Flat
  infer_instance

instance (limits : ChainLimits) (raw : List ℚ) : Decidable (Fits limits raw) := by
  unfold Fits
  infer_instance

/-- The cutoff of the lifted weights, where there is one. -/
def Cuts (limits : ChainLimits) (raw : List ℚ) (cutoff : ℚ) : Prop :=
  ¬ Flat limits raw ∧ ¬ Fits limits raw ∧
    cutoff = cutoffOf (raw.map lift) limits.maxWeightLimit

/-- What a weight is left, for each unit that a uid without a score is left. -/
def share (limits : ChainLimits) (raw : List ℚ) (weight : ℚ) : ℚ :=
  if Flat limits raw then 1
  else if Fits limits raw then lift weight / lift 0
  else if cutoffOf (raw.map lift) limits.maxWeightLimit ≤ lift 0 then 1
  else min (lift weight) (cutoffOf (raw.map lift) limits.maxWeightLimit) / lift 0

theorem lift_unearned {weight : ℚ} (h : weight ≤ 0) : lift weight = lift 0 := by
  unfold lift
  rw [if_neg (not_lt.mpr h), if_neg (lt_irrefl 0)]

theorem lift_le {weight : ℚ} : lift 0 ≤ lift weight := by
  unfold lift
  rw [if_neg (lt_irrefl 0)]
  split
  · linarith
  · exact le_rfl

theorem lift_zero_pos : 0 < lift 0 := by norm_num [lift]

theorem share_unearned {raw : List ℚ} {weight : ℚ} (h : weight ≤ 0) : share limits raw weight = 1 := by
  unfold share
  rw [lift_unearned h]
  split_ifs with hflat hfits hcut
  · rfl
  · exact div_self lift_zero_pos.ne'
  · rfl
  · rw [min_eq_left (not_le.mp hcut).le, div_self lift_zero_pos.ne']

theorem one_le_share (raw : List ℚ) (weight : ℚ) : 1 ≤ share limits raw weight := by
  unfold share
  split_ifs with hflat hfits hcut
  · exact le_rfl
  · rw [le_div_iff₀ lift_zero_pos, one_mul]
    exact lift_le
  · exact le_rfl
  · rw [le_div_iff₀ lift_zero_pos, one_mul]
    exact le_min lift_le (not_le.mp hcut).le

theorem share_pos (raw : List ℚ) (weight : ℚ) : 0 < share limits raw weight :=
  zero_lt_one.trans_le (one_le_share raw weight)

theorem share_lt {raw : List ℚ} {weight : ℚ} (h : weight ≤ 1) :
    share limits raw weight < 131070 := by
  have hsmall : lift weight < 131070 * lift 0 := by
    unfold lift
    rw [if_neg (lt_irrefl 0)]
    split
    · linarith
    · norm_num
  unfold share
  split_ifs with hflat hfits hcut
  · norm_num
  · rw [div_lt_iff₀ lift_zero_pos]
    exact hsmall
  · norm_num
  · rw [div_lt_iff₀ lift_zero_pos]
    exact (min_le_left _ _).trans_lt hsmall

/-- Weights that are in proportion to shares are scaled to them. -/
theorem scaled_shares {raw : List ℚ} {f g : ℚ → ℚ} {unit : ℚ} (hunit : unit ≠ 0) (hraw : raw ≠ [])
    (hg : ∀ weight ∈ raw, 0 < g weight) (hf : ∀ weight ∈ raw, f weight = g weight * unit) :
    0 < (raw.map g).sum ∧
      scaled (raw.map f) = some (raw.map fun weight => g weight / (raw.map g).sum) := by
  have hpos : 0 < (raw.map g).sum := by
    apply List.sum_pos
    · intro weight hweight
      obtain ⟨w, hw, rfl⟩ := List.mem_map.mp hweight
      exact hg w hw
    · simpa using hraw
  refine ⟨hpos, ?_⟩
  have hsum : (raw.map f).sum = (raw.map g).sum * unit := by
    rw [← List.sum_map_mul_right]
    exact congrArg List.sum (List.map_congr_left hf)
  unfold scaled
  rw [hsum, if_neg (mul_ne_zero hpos.ne' hunit), List.map_map]
  congr 1
  apply List.map_congr_left
  intro weight hweight
  simp only [Function.comp_apply]
  rw [hf weight hweight, mul_div_mul_right _ _ hunit]

theorem uniform_shares {raw : List ℚ} {g : ℚ → ℚ} (hg : ∀ weight ∈ raw, g weight = 1) :
    uniform raw.length = raw.map fun weight => g weight / (raw.map g).sum := by
  have hones : raw.map g = List.replicate raw.length 1 := by
    apply List.eq_replicate_iff.mpr
    simpa using hg
  unfold uniform
  rw [hones, List.sum_replicate]
  symm
  apply List.eq_replicate_iff.mpr
  simp only [List.length_map, List.mem_map, true_and]
  rintro weight ⟨w, hw, rfl⟩
  rw [hg w hw]
  simp

/-- What is clipped at a cutoff that is not over the least weight is the cutoff. -/
theorem clip_low {raw : List ℚ} {cutoff : ℚ} (h : cutoff ≤ lift 0) :
    clip cutoff (raw.map lift) = raw.map fun _ => cutoff := by
  unfold clip
  rw [List.map_map]
  apply List.map_congr_left
  intro weight _
  simp only [Function.comp_apply]
  split
  · rfl
  · rename_i hnot
    exact le_antisymm (not_lt.mp hnot) (h.trans lift_le)

/-- What is clipped is the lesser of the weight and the cutoff. -/
theorem clip_min {raw : List ℚ} (cutoff : ℚ) :
    clip cutoff (raw.map lift) = raw.map fun weight => min (lift weight) cutoff := by
  unfold clip
  rw [List.map_map]
  apply List.map_congr_left
  intro weight _
  simp only [Function.comp_apply]
  split
  · rename_i hlt
    exact (min_eq_right hlt.le).symm
  · rename_i hnot
    exact (min_eq_left (not_lt.mp hnot)).symm

/-- Lifted weights that are not made equal are scaled, after they are cut where they do not fit. -/
theorem normalize_eq {raw : List ℚ} (hflat : ¬ Flat limits raw) (hraw : raw ≠ []) :
    normalizeMaxWeight (raw.map lift) limits.maxWeightLimit =
      if Fits limits raw then scaled (raw.map lift)
      else scaled (clip (cutoffOf (raw.map lift) limits.maxWeightLimit) (raw.map lift)) := by
  have hsum : 0 < (raw.map lift).sum := by
    apply List.sum_pos
    · intro weight hweight
      obtain ⟨w, -, rfl⟩ := List.mem_map.mp hweight
      exact lift_zero_pos.trans_le lift_le
    · simpa using hraw
  have hall : ((raw.map lift).all fun weight =>
      weight / (raw.map lift).sum ≤ limits.maxWeightLimit) = true ↔ Fits limits raw := by
    rw [List.all_eq_true]
    simp only [decide_eq_true_eq]
    rfl
  unfold normalizeMaxWeight
  rw [if_neg]
  · simp only [hall]
  · rintro (hzero | hsmall)
    · exact absurd hzero hsum.ne'
    · rw [List.length_map] at hsmall
      exact hflat (.inr hsmall)

/-- The lifted weights, limited: everybody's share of the total, or an array of NaNs. -/
theorem normalize_lifted {raw : List ℚ} (hraw : raw ≠ [])
    (hmin : ¬ raw.length < limits.minAllowedWeights) :
    (Cuts limits raw 0 → normalizeMaxWeight (raw.map lift) limits.maxWeightLimit = none) ∧
    (¬ Cuts limits raw 0 → ∃ total, 0 < total ∧
      normalizeMaxWeight (raw.map lift) limits.maxWeightLimit =
        some (raw.map fun weight => share limits raw weight / total)) := by
  constructor
  · rintro ⟨hflat, hfits, hzero⟩
    rw [normalize_eq hflat hraw, if_neg hfits, ← hzero, clip_low lift_zero_pos.le]
    simp [scaled]
  intro hcuts
  -- It is enough that the limited weights are in proportion to the shares.
  have hscaled : ∀ f unit, unit ≠ 0 → (∀ weight ∈ raw, f weight = share limits raw weight * unit) →
      ∃ total, 0 < total ∧ scaled (raw.map f) =
        some (raw.map fun weight => share limits raw weight / total) := by
    intro f unit hunit hf
    obtain ⟨hpos, hsame⟩ := scaled_shares hunit hraw (fun weight _ => share_pos raw weight) hf
    exact ⟨_, hpos, hsame⟩
  have hzero : lift 0 ≠ 0 := lift_zero_pos.ne'
  by_cases hflat : Flat limits raw
  · have hsmall : (raw.map lift).length * limits.maxWeightLimit ≤ 1 := by
      rw [List.length_map]
      exact hflat.resolve_left hmin
    have hones : ∀ weight ∈ raw, share limits raw weight = 1 := fun _ _ => if_pos hflat
    unfold normalizeMaxWeight
    rw [if_pos (.inr hsmall), List.length_map, uniform_shares hones]
    obtain ⟨hpos, -⟩ := scaled_shares one_ne_zero hraw (fun weight _ => share_pos raw weight)
      (f := fun weight => share limits raw weight * 1) (fun _ _ => rfl)
    exact ⟨_, hpos, rfl⟩
  by_cases hfits : Fits limits raw
  · rw [normalize_eq hflat hraw, if_pos hfits]
    apply hscaled lift (lift 0) hzero
    intro weight _
    unfold share
    rw [if_neg hflat, if_pos hfits, div_mul_cancel₀ _ hzero]
  rw [normalize_eq hflat hraw, if_neg hfits]
  by_cases hcut : cutoffOf (raw.map lift) limits.maxWeightLimit ≤ lift 0
  · rw [clip_low hcut]
    refine hscaled _ (cutoffOf (raw.map lift) limits.maxWeightLimit) ?_ ?_
    · intro hsame
      exact hcuts ⟨hflat, hfits, hsame.symm⟩
    · intro weight _
      unfold share
      rw [if_neg hflat, if_neg hfits, if_pos hcut, one_mul]
  · rw [clip_min]
    apply hscaled _ (lift 0) hzero
    intro weight _
    unfold share
    rw [if_neg hflat, if_neg hfits, if_neg hcut, div_mul_cancel₀ _ hzero]

/-! ## Branch by branch -/

theorem length_nonZero (weights : List ℚ) :
    ((indexed weights).filter fun p => 0 < p.2).length = weights.countP fun weight => 0 < weight := by
  conv_rhs => rw [← indexed_snd weights]
  rw [List.countP_map, List.countP_eq_length_filter]
  rfl

theorem earners_rawWeights (scores : List ℚ) :
    (rawWeights scores).countP (fun weight => 0 < weight) = scores.countP fun score => 0 < score := by
  obtain ⟨norm, hnorm, -, hraw⟩ := rawWeights_eq scores
  rw [hraw, List.countP_map]
  apply List.countP_congr
  intro score _
  simp [div_pos_iff_of_pos_right hnorm]

theorem mem_rawWeights_pos {weight : ℚ} (hmem : weight ∈ rawWeights scores) (hpos : 0 < weight) :
    ∃ uid, Earns scores uid := by
  obtain ⟨uid, huid⟩ := List.getElem?_of_mem hmem
  exact ⟨uid, earns_rawWeights.mp ⟨weight, huid, hpos⟩⟩

/-- Nobody earns. -/
theorem pays_of_none (h : ∀ uid, ¬ Earns scores uid) : PaysOnlyEarners burn limits scores := by
  have hany : ((rawWeights scores).any fun weight => 0 < weight) = false := by
    rw [List.any_eq_false]
    intro weight hweight hpos
    obtain ⟨uid, huid⟩ := mem_rawWeights_pos hweight (of_decide_eq_true hpos)
    exact h uid huid
  apply pays_of_burned
  have hzeros : processedWeights limits scores = some (indexed (List.replicate scores.length 0)) := by
    unfold processedWeights
    simp only [hany, Bool.false_eq_true, if_false]
  rw [hzeros]
  unfold burnAllocation
  dsimp only
  rw [if_neg]
  rintro ⟨-, hsum, -⟩
  apply hsum.ne'
  apply List.sum_eq_zero
  intro weight hweight
  obtain ⟨p, hp, rfl⟩ := List.mem_map.mp hweight
  have hzero := mem_indexed.mp (List.mem_filter.mp hp).1
  exact (List.mem_replicate.mp (List.mem_of_getElem? hzero)).2

/-- With an earner the chain's limits are applied, and some weight is positive. -/
theorem processed_of_earner (hearner : ∃ uid, Earns scores uid) :
    processedWeights limits scores = processWeightsForNetuid limits (rawWeights scores) ∧
      ((indexed (rawWeights scores)).filter fun p => 0 < p.2).isEmpty = false := by
  obtain ⟨uid, huid⟩ := hearner
  obtain ⟨weight, hweight, hpos⟩ := earns_rawWeights.mpr huid
  have hany : ((rawWeights scores).any fun weight => 0 < weight) = true :=
    List.any_eq_true.mpr ⟨weight, List.mem_of_getElem? hweight, decide_eq_true hpos⟩
  have hmem : (uid, weight) ∈ (indexed (rawWeights scores)).filter fun p => 0 < p.2 :=
    List.mem_filter.mpr ⟨mem_indexed.mpr hweight, decide_eq_true hpos⟩
  constructor
  · unfold processedWeights
    simp only [hany, if_true]
  · rw [List.isEmpty_eq_false_iff]
    exact List.ne_nil_of_mem hmem

/-- Some earner, and enough of them for the chain: only they are processed. -/
theorem pays_of_enough (h : limits.minAllowedWeights ≤ scores.countP fun score => 0 < score) :
    PaysOnlyEarners burn limits scores := by
  by_cases hearner : ∃ uid, Earns scores uid
  swap
  · exact pays_of_none (not_exists.mp hearner)
  obtain ⟨hprocessed, hnonZero⟩ : processedWeights limits scores = _ ∧ _ :=
    processed_of_earner hearner
  have hlength := (length_nonZero (rawWeights scores)).trans (earners_rawWeights scores)
  have hle : scores.countP (fun score => 0 < score) ≤ scores.length := List.countP_le_length
  apply pays_of_processed
  intro weights hweights p hp _
  rw [hprocessed, processWeightsForNetuid] at hweights
  have hlong : ¬ (rawWeights scores).length < limits.minAllowedWeights := by
    rw [length_rawWeights]
    omega
  have hmany : ¬ ((indexed (rawWeights scores)).filter fun p => 0 < p.2).length <
      limits.minAllowedWeights := by
    rw [hlength]
    omega
  simp only [hnonZero, hlong, hmany, Bool.false_eq_true, or_self, if_false] at hweights
  obtain ⟨normalized, -, rfl⟩ := Option.map_eq_some_iff.mp hweights
  obtain ⟨q, hq, hsame⟩ := List.mem_map.mp (List.of_mem_zip hp).1
  have hkept := List.mem_filter.mp (List.mem_filter.mp hq).1
  apply earns_rawWeights.mp
  refine ⟨q.2, ?_, of_decide_eq_true hkept.2⟩
  rw [← hsame]
  exact mem_indexed.mp hkept.1

/-- Some earner, but not enough of them: everybody is processed, each with its share. -/
theorem processed_shares (hearner : ∃ uid, Earns scores uid)
    (hfew : scores.countP (fun score => 0 < score) < limits.minAllowedWeights) :
    (Cuts limits (rawWeights scores) 0 → processedWeights limits scores = none) ∧
    (¬ Cuts limits (rawWeights scores) 0 → ∃ total, 0 < total ∧ processedWeights limits scores =
      some (indexed ((rawWeights scores).map fun weight =>
        share limits (rawWeights scores) weight / total))) := by
  obtain ⟨hprocessed, hnonZero⟩ : processedWeights limits scores = _ ∧ _ :=
    processed_of_earner hearner
  have hraw : rawWeights scores ≠ [] := by
    intro hempty
    rw [hempty] at hnonZero
    cases hnonZero
  rw [hprocessed, processWeightsForNetuid]
  by_cases hshort : (rawWeights scores).length < limits.minAllowedWeights
  · simp only [hshort, or_true, if_true]
    constructor
    · intro hcuts
      exact absurd (.inl hshort) hcuts.1
    · intro _
      have hones : ∀ weight ∈ rawWeights scores, share limits (rawWeights scores) weight = 1 :=
        fun _ _ => if_pos (.inl hshort)
      obtain ⟨hpos, -⟩ := scaled_shares one_ne_zero hraw
        (fun weight _ => (share_pos (rawWeights scores) weight : 0 < share limits _ weight))
        (f := fun weight => share limits (rawWeights scores) weight * 1) (fun _ _ => rfl)
      exact ⟨_, hpos, by rw [uniform_shares hones]⟩
  · have hlength := (length_nonZero (rawWeights scores)).trans (earners_rawWeights scores)
    have hmany : ((indexed (rawWeights scores)).filter fun p => 0 < p.2).length <
        limits.minAllowedWeights := by
      rw [hlength]
      exact hfew
    simp only [hnonZero, hshort, hmany, Bool.false_eq_true, or_self, if_false, if_true]
    obtain ⟨hnone, hsome⟩ := normalize_lifted hraw hshort
    constructor
    · intro hcuts
      rw [hnone hcuts, Option.map_none]
    · intro hcuts
      obtain ⟨total, htotal, hnormalize⟩ := hsome hcuts
      exact ⟨total, htotal, by rw [hnormalize, Option.map_some]⟩

/-! ## The condition -/

/-- The burn is so much larger than the shares of the others that a share of one rounds to zero. -/
def BurnCovers (burn : Burn) (limits : ChainLimits) (raw : List ℚ) : Prop :=
  131070 * (1 - burn.percentage) ≤
    burn.percentage * ((others burn raw).map fun p => share limits raw p.2).sum

/-- When nobody without a score is submitted with weight. -/
inductive EarnersAlone (burn : Burn) (limits : ChainLimits) (scores : List ℚ) : Prop
  /-- `BURN_UID` is no uid, or `BURN_PERCENTAGE` no percentage: nothing is submitted. -/
  | skipped (h : ¬ Allocates burn scores.length)
  /-- Everything burns. -/
  | nobody (h : ∀ uid, ¬ Earns scores uid)
  | everybody (h : ∀ uid < scores.length, uid ≠ burn.uid → Earns scores uid)
  /-- The chain asks for no more weights than there are earners. -/
  | enough (h : limits.minAllowedWeights ≤ scores.countP fun score => 0 < score)
  /-- The cutoff is zero, and leaves an array of NaNs: everything burns. -/
  | cut (h : Cuts limits (rawWeights scores) 0)
  | covered (h : BurnCovers burn limits (rawWeights scores))

theorem others_earn : (∀ p ∈ others burn (rawWeights scores), 0 < p.2) ↔
    ∀ uid < scores.length, uid ≠ burn.uid → Earns scores uid := by
  constructor
  · intro h uid huid hother
    rw [← length_rawWeights] at huid
    have hweight : (rawWeights scores)[uid]? = some (rawWeights scores)[uid] :=
      List.getElem?_eq_getElem huid
    exact earns_rawWeights.mp ⟨_, hweight, h (uid, _) (mem_others.mpr ⟨hweight, hother⟩)⟩
  · intro h p hp
    obtain ⟨hweight, hother⟩ := mem_others.mp hp
    have huid := (List.getElem?_eq_some_iff.mp hweight).1
    rw [length_rawWeights] at huid
    obtain ⟨weight, hsame, hpos⟩ := earns_rawWeights.mpr (h p.1 huid hother)
    rw [hweight] at hsame
    cases hsame
    exact hpos

theorem pays_iff (burn : Burn) (limits : ChainLimits) (scores : List ℚ) :
    PaysOnlyEarners burn limits scores ↔ EarnersAlone burn limits scores := by
  by_cases hallocates : Allocates burn scores.length
  swap
  · exact iff_of_true (pays_of_skipped hallocates) (.skipped hallocates)
  by_cases hearner : ∃ uid, Earns scores uid
  swap
  · have hnone : ∀ uid, ¬ Earns scores uid := not_exists.mp hearner
    exact iff_of_true (pays_of_none hnone) (.nobody hnone)
  by_cases henough : limits.minAllowedWeights ≤ scores.countP fun score => 0 < score
  · exact iff_of_true (pays_of_enough henough) (.enough henough)
  obtain ⟨hcut, hshares⟩ := processed_shares hearner (not_le.mp henough)
  by_cases hcuts : Cuts limits (rawWeights scores) 0
  · refine iff_of_true (pays_of_burned ?_) (.cut hcuts)
    rw [hcut hcuts]
    rfl
  obtain ⟨total, htotal, hprocessed⟩ := hshares hcuts
  have hpays := pays_shares hallocates htotal
    (fun weight hweight => ⟨one_le_share (rawWeights scores) weight,
      share_lt (rawWeights_le_one hweight)⟩)
    (fun weight hweight => share_unearned hweight) hprocessed
  rw [hpays, others_earn]
  constructor
  · rintro (hearn | hcovers)
    · exact .everybody hearn
    · exact .covered hcovers
  · intro h
    cases h with
    | skipped hnot => exact absurd hallocates hnot
    | nobody hnone =>
      obtain ⟨uid, huid⟩ := hearner
      exact absurd huid (hnone uid)
    | everybody hearn => exact .inl hearn
    | enough hmany => exact absurd hmany henough
    | cut hzero => exact absurd hzero hcuts
    | covered hcovers => exact .inr hcovers

/-! ## `Validator.set_weights` -/

theorem blendedWeightArray_eq (v : Validator) :
    blendedWeightArray v = blendScores v (v.scores.map PyFloat.fin) := by
  unfold blendedWeightArray blendScores
  rw [List.map_map]
  congr 1
  exact (List.map_id v.scores).symm

/-- What `set_weights` submits comes of the scores it leaves. -/
theorem setWeightsOnChain_ok {cfg : LlmKeyConfig} {chain : Option ChainReads} {v v' : Validator}
    {submitted : Option (List (Nat × Int))}
    (h : setWeightsOnChain cfg chain burn limits v = (.ok submitted, v')) :
    submitted = submittedWeights burn limits (blendScores v' (v'.scores.map PyFloat.fin)) := by
  obtain ⟨blended, v₁, hset, hreturn⟩ := Prog.bind_eq_ok h
  cases hreturn
  unfold setWeights at hset
  obtain ⟨_, v₂, -, hrest⟩ := Prog.bind_eq_ok hset
  obtain ⟨_, v₃, -, hlast⟩ := Prog.bind_eq_ok hrest
  obtain ⟨v₄, v₅, hget, hblended⟩ := Prog.bind_eq_ok hlast
  cases hget
  cases hblended
  rw [blendedWeightArray_eq]

/-- **Who is submitted with weight**: a uid other than the burn's without a positive blended score
    is, unless the burn, the chain's limits and the earners come to one of six cases. -/
theorem only_earners_submitted_iff (v : Validator) (scores : List PyFloat) (burn : Burn)
    (limits : ChainLimits) :
    (∀ emitted, submittedWeights burn limits (blendScores v scores) = some emitted →
      ∀ p ∈ emitted, p.1 ≠ burn.uid → 0 < p.2 → Earns (blendScores v scores) p.1) ↔
      EarnersAlone burn limits (blendScores v scores) :=
  pays_iff burn limits (blendScores v scores)

/-- A subnet that is smaller than the chain asks for, with one earner. -/
def smallSubnet : Validator where
  metagraphHotkeys := ["5A", "5B", "5V"]
  llmKeyHotkeyStatus := (∅ : Dict String HotkeyStatus).insert "5A"
    { uid := some 0, lastReportAt := some 1 }

/-- A miner without a score is submitted with the weight of the earner. -/
theorem registered_is_submitted :
    ¬ ∀ (v : Validator) (scores : List PyFloat) (burn : Burn) (limits : ChainLimits),
      0 ≤ burn.percentage → burn.percentage ≤ 1 →
        ∀ emitted, submittedWeights burn limits (blendScores v scores) = some emitted →
          ∀ p ∈ emitted, p.1 ≠ burn.uid → 0 < p.2 → Earns (blendScores v scores) p.1 := by
  intro h
  have hemitted : submittedWeights { uid := 2, percentage := 19 / 20 } ⟨4, 1⟩
      (blendScores smallSubnet [.fin 1, .fin 0, .fin 0]) =
        some [(0, 1725), (1, 1725), (2, 65535)] := by decide +kernel
  obtain ⟨score, hscore, hpos⟩ := h _ _ _ _ (by norm_num) (by norm_num) _ hemitted (1, 1725)
    (by simp) (by decide) (by decide)
  have hzero : blendScores smallSubnet [.fin 1, .fin 0, .fin 0] = [1, 0, 0] := by decide +kernel
  rw [hzero] at hscore
  cases hscore
  exact lt_irrefl 0 hpos

end TaoSubnet
