import TaoSubnet.Proof.LlmKey.Efficiency

/-!
# One more success, and the junk gate

A failed call that had succeeded leaves every sum of its key's sub-window alone but two counts. Where
the key is pooled either way, the pooled window is better and worth no less. The gate stands before
the pool: a key that trips a floor on its own rows is left out, and the success that lifts it over
the floor brings its failures into the pool with it.
-/

namespace TaoSubnet

open Py

/-- A sub-window in which one failed call became a successful one. -/
def SubWindow.promoted (sub : SubWindow) : SubWindow :=
  { sub with successCount := sub.successCount + 1, failureCount := sub.failureCount - 1 }

/-- The paid windows of a hotkey, in `w` with one more success of one key. All its keys are alive. The
    counts are as a fold leaves them, which drops a row with a negative one. -/
structure OneMoreSuccess (hotkey : String) (v w : Validator) (sub : SubWindow) : Prop where
  metagraph : w.metagraphHotkeys = v.metagraphHotkeys
  scores : w.scores.length = v.scores.length
  weight : modelTierWeight w hotkey = modelTierWeight v hotkey
  entries : ∃ before subKey after, paidEntries v hotkey = before ++ (subKey, sub) :: after ∧
    paidEntries w hotkey = before ++ (subKey, sub.promoted) :: after
  failed : 1 ≤ sub.failureCount
  counts : ∀ p ∈ paidEntries v hotkey, 0 ≤ p.2.successCount ∧ 0 ≤ p.2.failureCount
  live : ∀ p ∈ paidEntries v hotkey, isLive v hotkey p.1 = true
  live' : ∀ p ∈ paidEntries w hotkey, isLive w hotkey p.1 = true

/-! ## The gate -/

/-- The quality floor of a sub-window; success does not enter it. -/
def qualityFloorReason (cfg : LlmKeyConfig) (sub : SubWindow) : Except Exc (Option String) := do
  let qcount := sub.qualityWeightedCount
  if cfg.qualityFloorMinGraded ≤ qcount then
    let avgQuality ← divInt sub.qualityWeightedSum qcount
    if PyFloat.lt (.fin avgQuality) cfg.qualityHardFloor then
      return some ("per-key quality floor (avg quality " ++ fixed2 avgQuality ++ " over " ++
        toString qcount ++ " graded)")
  return none

/-- The floors, once there are calls enough for them. -/
theorem subWindowFloorReason_eq {sub : SubWindow} (hsuccess : 0 ≤ sub.successCount)
    (hfailure : 0 ≤ sub.failureCount) : subWindowFloorReason {} sub 5 =
      if sub.calls < 5 then .ok none
      else if (sub.successCount : ℚ) / sub.calls < LLM_KEY_RELIABILITY_HARD_FLOOR then
        .ok (some ("per-key reliability floor (" ++ toString sub.successCount ++ " ok / " ++
          toString sub.failureCount ++ " failed)"))
      else qualityFloorReason {} sub := by
  unfold subWindowFloorReason SubWindow.calls
  dsimp only
  by_cases hfew : sub.successCount + sub.failureCount < 5
  · rw [if_pos hfew, if_pos hfew]
    rfl
  · have hdiv := Figures.intTrueDiv_part hsuccess hfailure (by omega)
    rw [if_neg hfew, if_neg hfew, hdiv]
    show (if PyFloat.lt _ _ = true then _ else _) = _
    unfold qualityFloorReason
    simp only [PyFloat.lt_fin, decide_eq_true_eq]
    generalize divInt sub.qualityWeightedSum sub.qualityWeightedCount = average
    split
    · rfl
    · rfl

variable {sub : SubWindow}

theorem promoted_calls (sub : SubWindow) : sub.promoted.calls = sub.calls := by
  unfold SubWindow.calls SubWindow.promoted
  dsimp only
  omega

/-- A success never brings a floor down on its key. -/
theorem passes_promoted (hsuccess : 0 ≤ sub.successCount) (hfailure : 1 ≤ sub.failureCount)
    (h : passes {} sub = true) : passes {} sub.promoted = true := by
  have hsuccess' : 0 ≤ sub.promoted.successCount := Int.add_nonneg hsuccess (by decide)
  have hfailure' : 0 ≤ sub.promoted.failureCount := Int.sub_nonneg_of_le hfailure
  have hcfg : ({} : LlmKeyConfig).minCallsForScoring = 5 := rfl
  unfold passes at h ⊢
  rw [hcfg, subWindowFloorReason_eq hsuccess (by omega)] at h
  rw [hcfg, subWindowFloorReason_eq hsuccess' hfailure', promoted_calls]
  by_cases hfew : sub.calls < 5
  · rw [if_pos hfew]
  · rw [if_neg hfew] at h ⊢
    by_cases hunreliable : (sub.successCount : ℚ) / sub.calls < LLM_KEY_RELIABILITY_HARD_FLOOR
    · rw [if_pos hunreliable] at h
      cases h
    · -- The part of successes has grown, and the grades are the same.
      have hcalls : (0 : ℚ) < sub.calls := by exact_mod_cast (by omega : (0 : Int) < sub.calls)
      have hgrown : (sub.successCount : ℚ) ≤ sub.promoted.successCount := by
        exact_mod_cast (by unfold SubWindow.promoted; dsimp only; omega :
          sub.successCount ≤ sub.promoted.successCount)
      have hreliable : ¬ (sub.promoted.successCount : ℚ) / sub.calls <
          LLM_KEY_RELIABILITY_HARD_FLOOR := by
        intro hless
        exact hunreliable ((div_le_div_of_nonneg_right hgrown hcalls.le).trans_lt hless)
      rw [if_neg hunreliable] at h
      rw [if_neg hreliable]
      exact h

/-! ## The pool -/

/-- What a pool is scored by. -/
def Pool.figures (pool : Pool) (latency quality : Option ℚ) (tier : ℚ) : Figures where
  successCount := pool.successCount
  failureCount := pool.failureCount
  avgLatencyS := latency.map fun l => .fin (l / 1000)
  qualityScore := quality.map .fin
  modelTierWeight := .fin tier
  minCallsForScoring := 1
  qualityCallCount := some pool.qualityCount
  reliabilityFloor := .fin LLM_KEY_RELIABILITY_HARD_FLOOR
  qualityFloor := .fin LLM_KEY_QUALITY_HARD_FLOOR
  qualityFloorMinGraded := LLM_KEY_QUALITY_FLOOR_MIN_GRADED

theorem Pool.scorable {pool : Pool} (hsuccess : 0 ≤ pool.successCount)
    (hfailure : 0 ≤ pool.failureCount) (hcalls : 1 ≤ pool.successCount + pool.failureCount)
    (latency quality : Option ℚ) (tier : ℚ) : (pool.figures latency quality tier).Scorable :=
  ⟨hsuccess, hfailure, le_refl 1, hcalls⟩

/-- A reward is the value of the pool's figures. -/
theorem Pool.reward_ok {pool : Pool} {blended : Except Exc ℚ} {r : ℚ}
    (hsuccess : 0 ≤ pool.successCount) (hfailure : 0 ≤ pool.failureCount)
    (hcalls : 1 ≤ pool.successCount + pool.failureCount) (h : pool.reward {} blended = .ok r) :
    ∃ latency quality tier, weightedMean pool.latencySum pool.latencyCount = .ok latency ∧
      weightedMean pool.qualitySum pool.qualityCount = .ok quality ∧ blended = .ok tier ∧
      r = (pool.figures latency quality tier).value := by
  unfold Pool.reward at h
  obtain ⟨latency, hlatency, h⟩ := except_bind_ok h
  obtain ⟨quality, hquality, h⟩ := except_bind_ok h
  obtain ⟨tier, htier, h⟩ := except_bind_ok h
  obtain ⟨scored, hscored, h⟩ := except_bind_ok h
  refine ⟨latency, quality, tier, hlatency, hquality, htier, ?_⟩
  have hvalue := Figures.eq_value (Pool.scorable hsuccess hfailure hcalls latency quality tier) hscored
  rw [hvalue] at h
  exact (Except.ok.inj h).symm

/-- Two pools that differ in one call, failed in the first, succeeded in the second. -/
structure Pool.Promotes (pool pool' : Pool) : Prop where
  success : pool'.successCount = pool.successCount + 1
  failure : pool'.failureCount = pool.failureCount - 1
  latencySum : pool'.latencySum = pool.latencySum
  latencyCount : pool'.latencyCount = pool.latencyCount
  qualitySum : pool'.qualitySum = pool.qualitySum
  qualityCount : pool'.qualityCount = pool.qualityCount

/-- The better pool is worth no less. -/
theorem Pool.reward_mono {pool pool' : Pool} {blended : Except Exc ℚ} {r r' : ℚ}
    (h : pool.Promotes pool') (hsuccess : 0 ≤ pool.successCount) (hfailure : 1 ≤ pool.failureCount)
    (hr : pool.reward {} blended = .ok r) (hr' : pool'.reward {} blended = .ok r') : r ≤ r' := by
  have hsuccess' := h.success
  have hfailure' := h.failure
  obtain ⟨latency, quality, tier, hlatency, hquality, htier, hvalue⟩ :=
    Pool.reward_ok hsuccess (by omega) (by omega) hr
  obtain ⟨latency', quality', tier', hlatency', hquality', htier', hvalue'⟩ :=
    Pool.reward_ok (by omega) (by omega) (by omega) hr'
  -- The means and the tier are taken over the same sums.
  rw [h.latencySum, h.latencyCount, hlatency] at hlatency'
  rw [h.qualitySum, h.qualityCount, hquality] at hquality'
  rw [htier] at htier'
  cases hlatency'
  cases hquality'
  cases htier'
  rw [hvalue, hvalue']
  apply Figures.value_mono
  · refine ⟨?_, ?_, .inl rfl, .inl rfl, .inl rfl, rfl, ?_, rfl, rfl, rfl⟩
    · show pool.successCount ≤ pool'.successCount
      omega
    · show pool'.failureCount ≤ pool.failureCount
      omega
    · show some pool.qualityCount = some pool'.qualityCount
      rw [h.qualityCount]
  · exact Pool.scorable hsuccess (by omega) (by omega) _ _ _
  · exact Pool.scorable (by omega) (by omega) (by omega) _ _ _

theorem Pool.promotes (before after : List SubWindow) (sub : SubWindow) :
    (Pool.of (before ++ sub :: after)).Promotes (Pool.of (before ++ sub.promoted :: after)) := by
  constructor
  all_goals
    simp only [Pool.of, SubWindow.promoted, List.map_append, List.map_cons, List.sum_append,
      List.sum_cons]
  · omega
  · omega

theorem blendedTier_promoted (v : Validator) (hotkey : String) (before after : List SubWindow)
    (sub : SubWindow) : blendedTier v hotkey (before ++ sub.promoted :: after) =
      blendedTier v hotkey (before ++ sub :: after) := by
  have hpromotes := Pool.promotes before after sub
  have htotal : ((before ++ sub.promoted :: after).map SubWindow.successCount).sum +
      ((before ++ sub.promoted :: after).map SubWindow.failureCount).sum =
      ((before ++ sub :: after).map SubWindow.successCount).sum +
        ((before ++ sub :: after).map SubWindow.failureCount).sum := by
    have hsuccess := hpromotes.success
    have hfailure := hpromotes.failure
    unfold Pool.of at hsuccess hfailure
    dsimp only at hsuccess hfailure
    omega
  have htier : subTier v hotkey sub.promoted = subTier v hotkey sub := rfl
  unfold blendedTier
  rw [htotal, List.mapM_append, List.mapM_append, List.mapM_cons, List.mapM_cons, htier,
    promoted_calls]

/-! ## The score -/

/-- What scoring leaves at the uid of a hotkey. -/
theorem score_of_hotkey {cfg : LlmKeyConfig} {v v' : Validator}
    (h : scoreLastEpoch cfg v = (.ok (), v')) (hotkey : String) :
    v'.scores[v.metagraphHotkeys.idxOf hotkey]?.getD 0 =
      if v.metagraphHotkeys.idxOf hotkey < v.scores.length ∧ hotkey ∈ v.metagraphHotkeys then
        reward cfg v hotkey
      else 0 := by
  rw [scoreLastEpoch_scores cfg h, List.getElem?_map]
  by_cases huid : v.metagraphHotkeys.idxOf hotkey < v.scores.length
  · rw [List.getElem?_range huid, Option.map_some, Option.getD_some]
    unfold rewardAt
    by_cases hmem : hotkey ∈ v.metagraphHotkeys
    · have hget : v.metagraphHotkeys[v.metagraphHotkeys.idxOf hotkey]? = some hotkey :=
        List.getElem?_idxOf hmem
      rw [hget, if_pos ⟨huid, hmem⟩]
      dsimp only
      rw [if_pos rfl]
    · have hnone : v.metagraphHotkeys[v.metagraphHotkeys.idxOf hotkey]? = none := by
        rw [List.idxOf_eq_length hmem]
        exact List.getElem?_eq_none (le_refl _)
      rw [hnone, if_neg fun hboth => hmem hboth.2]
  · have hnone : (List.range v.scores.length)[v.metagraphHotkeys.idxOf hotkey]? = none := by
      rw [List.getElem?_eq_none_iff, List.length_range]
      omega
    rw [hnone, if_neg fun hboth => huid hboth.1]
    rfl

namespace OneMoreSuccess

variable {hotkey : String} {v w : Validator}

/-- With all keys alive, what is pooled is what the gate lets through. -/
theorem scoredSubs_eq {u : Validator} (hlive : ∀ p ∈ paidEntries u hotkey,
    isLive u hotkey p.1 = true) :
    scoredSubs {} u hotkey = ((paidEntries u hotkey).map Prod.snd).filter (passes {}) := by
  unfold scoredSubs
  rw [List.filter_map]
  congr 1
  apply List.filter_congr
  intro p hp
  rw [hlive p hp, Bool.and_true]
  rfl

/-- The pools, by what the gate says of the key before and after. -/
theorem pools (h : OneMoreSuccess hotkey v w sub) : ∃ before after : List SubWindow,
    (∀ s ∈ before ++ after, 0 ≤ s.successCount ∧ 0 ≤ s.failureCount) ∧
    scoredSubs {} v hotkey = before ++ (if passes {} sub then [sub] else []) ++ after ∧
    scoredSubs {} w hotkey =
      before ++ (if passes {} sub.promoted then [sub.promoted] else []) ++ after := by
  obtain ⟨before, subKey, after, hv, hw⟩ := h.entries
  refine ⟨(before.map Prod.snd).filter (passes {}), (after.map Prod.snd).filter (passes {}),
    ?_, ?_, ?_⟩
  · intro s hs
    rw [← List.filter_append, ← List.map_append] at hs
    obtain ⟨p, hp, rfl⟩ := List.mem_map.mp (List.mem_of_mem_filter hs)
    apply h.counts
    rw [hv]
    rcases List.mem_append.mp hp with hp | hp
    · exact List.mem_append_left _ hp
    · exact List.mem_append_right _ (List.mem_cons_of_mem _ hp)
  · rw [scoredSubs_eq h.live, hv]
    cases hpass : passes {} sub with
    | true => simp [hpass]
    | false => simp [hpass]
  · rw [scoredSubs_eq h.live', hw]
    cases hpass : passes {} sub.promoted with
    | true => simp [hpass]
    | false => simp [hpass]

/-- Where the key is pooled in both windows, the second pool is worth no less. -/
theorem pooled_mono (h : OneMoreSuccess hotkey v w sub) {before after : List SubWindow}
    (hcounts : ∀ s ∈ before ++ after, 0 ≤ s.successCount ∧ 0 ≤ s.failureCount)
    (hsub : 0 ≤ sub.successCount) {r r' : ℚ}
    (hr : pooledWindowReward {} v hotkey (before ++ sub :: after) = .ok r)
    (hr' : pooledWindowReward {} w hotkey (before ++ sub.promoted :: after) = .ok r') : r ≤ r' := by
  rw [pooledWindowReward_congr {} h.weight, pooledWindowReward_eq, blendedTier_promoted] at hr'
  rw [pooledWindowReward_eq] at hr
  have hfailed := h.failed
  have hsums : 0 ≤ (before.map SubWindow.successCount).sum ∧
      0 ≤ (after.map SubWindow.successCount).sum ∧
      0 ≤ (before.map SubWindow.failureCount).sum ∧ 0 ≤ (after.map SubWindow.failureCount).sum := by
    refine ⟨List.sum_nonneg ?_, List.sum_nonneg ?_, List.sum_nonneg ?_, List.sum_nonneg ?_⟩
    all_goals
      intro n hn
      obtain ⟨s, hs, rfl⟩ := List.mem_map.mp hn
    · exact (hcounts s (List.mem_append_left _ hs)).1
    · exact (hcounts s (List.mem_append_right _ hs)).1
    · exact (hcounts s (List.mem_append_left _ hs)).2
    · exact (hcounts s (List.mem_append_right _ hs)).2
  refine Pool.reward_mono (Pool.promotes before after sub) ?_ ?_ hr hr'
  · simp only [Pool.of, List.map_append, List.map_cons, List.sum_append, List.sum_cons]
    omega
  · simp only [Pool.of, List.map_append, List.map_cons, List.sum_append, List.sum_cons]
    omega

theorem reward_mono (h : OneMoreSuccess hotkey v w sub)
    (hgate : passes {} sub = false → passes {} sub.promoted = true → scoredSubs {} v hotkey = [])
    (hends : Scorable {} w hotkey) (hrange : InRange w hotkey) :
    reward {} v hotkey ≤ reward {} w hotkey := by
  have hearned := inUnit_reward {} w hotkey
  obtain ⟨before, after, hcounts, hpool, hpool'⟩ := h.pools
  by_cases hempty : scoredSubs {} v hotkey = []
  · have hnothing : reward {} v hotkey = 0 := if_pos hempty
    rw [hnothing]
    exact hearned.1
  · have hsub : 0 ≤ sub.successCount := by
      obtain ⟨before, subKey, after, hv, -⟩ := h.entries
      refine (h.counts (subKey, sub) ?_).1
      rw [hv]
      exact List.mem_append_right _ List.mem_cons_self
    cases hpass : passes {} sub with
    | true =>
      have hpass' := passes_promoted hsub h.failed hpass
      rw [hpass, if_pos rfl, List.append_assoc] at hpool
      rw [hpass', if_pos rfl, List.append_assoc] at hpool'
      have hpooled' : scoredSubs {} w hotkey ≠ [] := by
        rw [hpool']
        simp
      obtain ⟨r', hr'⟩ := hends.2 hpooled' hrange
      unfold reward
      rw [if_neg hempty, if_neg hpooled', hr']
      cases hr : pooledWindowReward {} v hotkey (scoredSubs {} v hotkey) with
      | error e =>
        unfold reward at hearned
        rw [if_neg hpooled', hr'] at hearned
        exact hearned.1
      | ok r =>
        rw [hpool] at hr
        rw [hpool'] at hr'
        exact h.pooled_mono hcounts hsub hr hr'
    | false =>
      have hpass' : passes {} sub.promoted = false := by
        by_contra hlifted
        exact hempty (hgate hpass (Bool.eq_true_of_not_eq_false hlifted))
      -- The gate leaves the key out of both pools, which are then one and the same.
      have hsame : scoredSubs {} w hotkey = scoredSubs {} v hotkey := by
        rw [hpool, hpool', hpass, hpass', if_neg Bool.false_ne_true, if_neg Bool.false_ne_true]
      unfold reward
      rw [hsame, pooledWindowReward_congr {} h.weight]

end OneMoreSuccess

/-- **One more success pays no less**, unless it lifts its key over a floor of its own while other keys
    of the hotkey are pooled. -/
theorem extra_success_pays {hotkey : String} {v w v' w' : Validator}
    (h : OneMoreSuccess hotkey v w sub)
    (hgate : passes {} sub = false → passes {} sub.promoted = true → scoredSubs {} v hotkey = [])
    (hv : scoreLastEpoch {} v = (.ok (), v')) (hw : scoreLastEpoch {} w = (.ok (), w')) :
    v'.scores[v.metagraphHotkeys.idxOf hotkey]?.getD 0 ≤
      w'.scores[v.metagraphHotkeys.idxOf hotkey]?.getD 0 := by
  have hscore := score_of_hotkey hv hotkey
  have hscore' := score_of_hotkey hw hotkey
  rw [h.metagraph, h.scores] at hscore'
  rw [hscore, hscore']
  split
  · rename_i hrange
    have hpaid : hotkey ∈ w.llmKeyLastEpochCalls.keys := by
      by_contra habsent
      have hnone : w.llmKeyLastEpochCalls.get? hotkey = none := by
        by_contra hsome
        obtain ⟨acc, hacc⟩ := Option.ne_none_iff_exists'.mp hsome
        exact habsent (Dict.mem_keys_iff.mpr ⟨acc, hacc⟩)
      obtain ⟨before, subKey, after, -, hentries⟩ := h.entries
      unfold paidEntries at hentries
      rw [hnone] at hentries
      simp at hentries
    have hends : Scorable {} w hotkey :=
      (scoreLastEpoch_ok_iff {} w).mp (congrArg Prod.fst hw) hotkey hpaid
    apply h.reward_mono hgate hends
    unfold InRange
    rw [h.metagraph, h.scores]
    exact ⟨List.idxOf_lt_length_of_mem hrange.2, hrange.1⟩
  · exact le_refl 0

/-- One hotkey with two keys: one that never failed, and `sub`. -/
def besideReliable (sub : SubWindow) : Validator :=
  { metagraphHotkeys := ["5Miner"]
    scores := [0]
    llmKeyLastEpochCalls := Dict.ofList
      [("5Miner", ⟨Dict.ofList [("1", { successCount := 50 }), ("2", sub)], 0, 0⟩)] }

/-- A key with calls enough for its floors. -/
def fiveCalls (failed : Nat) : SubWindow :=
  { successCount := 5 - failed, failureCount := failed }

theorem besideReliable_promoted {failed : Nat} (h : 1 ≤ failed) (h' : failed ≤ 5) :
    OneMoreSuccess "5Miner" (besideReliable (fiveCalls failed))
      (besideReliable (fiveCalls failed).promoted) (fiveCalls failed) where
  metagraph := rfl
  scores := rfl
  weight := rfl
  entries := ⟨[("1", { successCount := 50 })], "2", [], rfl, rfl⟩
  failed := by
    show (1 : Int) ≤ failed
    exact_mod_cast h
  counts := by
    have hsuccess : (0 : Int) ≤ 5 - failed := by omega
    have hentries : paidEntries (besideReliable (fiveCalls failed)) "5Miner" =
        [("1", { successCount := 50 }), ("2", fiveCalls failed)] := rfl
    rw [hentries]
    intro p hp
    rcases List.mem_cons.mp hp with rfl | hp
    · exact ⟨by decide, by decide⟩
    · obtain rfl := List.mem_singleton.mp hp
      exact ⟨hsuccess, Int.natCast_nonneg failed⟩
  live := fun _ _ => rfl
  live' := fun _ _ => rfl

/-- Two of five failed, then one: the key is pooled either way. -/
theorem extra_success_pays_pooled :
    ((scoreLastEpoch {} (besideReliable (fiveCalls 2))).2.scores[0]?.getD 0) ≤
      (scoreLastEpoch {} (besideReliable (fiveCalls 2).promoted)).2.scores[0]?.getD 0 := by
  refine extra_success_pays (besideReliable_promoted (by decide) (by decide)) ?_
    (Prod.ext ?_ rfl) (Prod.ext ?_ rfl)
  · intro hkilled
    have hpasses : passes {} (fiveCalls 2) = true := by decide +kernel
    rw [hpasses] at hkilled
    cases hkilled
  · decide +kernel
  · decide +kernel

/-- Three of five failed, then two: the key comes over its floor and takes its failures into the pool of
    a hotkey that had none. -/
theorem lifted_key_lowers_score :
    ¬ ∀ (hotkey : String) (v w v' w' : Validator) (sub : SubWindow),
      OneMoreSuccess hotkey v w sub →
      scoreLastEpoch {} v = (.ok (), v') → scoreLastEpoch {} w = (.ok (), w') →
      v'.scores[v.metagraphHotkeys.idxOf hotkey]?.getD 0 ≤
        w'.scores[v.metagraphHotkeys.idxOf hotkey]?.getD 0 := by
  intro hclaim
  have hv : scoreLastEpoch {} (besideReliable (fiveCalls 3)) =
      (.ok (), (scoreLastEpoch {} (besideReliable (fiveCalls 3))).2) :=
    Prod.ext (by decide +kernel) rfl
  have hw : scoreLastEpoch {} (besideReliable (fiveCalls 3).promoted) =
      (.ok (), (scoreLastEpoch {} (besideReliable (fiveCalls 3).promoted)).2) :=
    Prod.ext (by decide +kernel) rfl
  have hless := hclaim "5Miner" _ _ _ _ _ (besideReliable_promoted (by decide) (by decide)) hv hw
  exact absurd hless (by decide +kernel)

end TaoSubnet
