import Mathlib.Tactic.Linarith
import TaoSubnet.Proof.LlmKey.Scores

/-!
# Scores are shares, and only the float range stops them

The composite is a weighted mean of parts in the unit range, and the tier that multiplies it is
clamped, so nothing that reaches a window can leave the range; and nothing is divided by zero, since
each division stands behind a count that is positive there. What can raise is a number past the
float range, and then the scores stay as they are.
-/

namespace TaoSubnet

open Py

/-! ## The unit range -/

def InUnit (q : ℚ) : Prop := 0 ≤ q ∧ q ≤ 1

theorem inUnit_zero : InUnit 0 := ⟨le_refl 0, zero_le_one⟩

theorem inUnit_half : InUnit 0.5 := by
  constructor
  · norm_num
  · norm_num

theorem inUnit_clamp (q : ℚ) : InUnit (max 0 (min 1 q)) :=
  ⟨le_max_left 0 _, max_le zero_le_one (min_le_left 1 q)⟩

theorem InUnit.mul {p q : ℚ} (hp : InUnit p) (hq : InUnit q) : InUnit (p * q) :=
  ⟨mul_nonneg hp.1 hq.1, mul_le_one₀ hp.2 hq.1 hq.2⟩

/-- A part of a whole. -/
theorem inUnit_part {success failure : Int} (hsuccess : 0 ≤ success) (hfailure : 0 ≤ failure) :
    InUnit ((success : ℚ) / (success + failure : Int)) := by
  have hpart : (success : ℚ) ≤ ((success + failure : Int) : ℚ) := by
    exact_mod_cast le_add_of_nonneg_right hfailure
  have hnonneg : (0 : ℚ) ≤ success := by exact_mod_cast hsuccess
  exact ⟨div_nonneg hnonneg (hnonneg.trans hpart), div_le_one_of_le₀ hpart (hnonneg.trans hpart)⟩

/-- The weights of the composite sum to one. -/
theorem inUnit_composite {reliability quality latency volume : ℚ} (hr : InUnit reliability)
    (hq : InUnit quality) (hl : InUnit latency) (hv : InUnit volume) :
    InUnit (LLM_KEY_RELIABILITY_WEIGHT * reliability + LLM_KEY_QUALITY_WEIGHT * quality +
      LLM_KEY_LATENCY_WEIGHT * latency + LLM_KEY_VOLUME_WEIGHT * volume) := by
  obtain ⟨hr₀, hr₁⟩ := hr
  obtain ⟨hq₀, hq₁⟩ := hq
  obtain ⟨hl₀, hl₁⟩ := hl
  obtain ⟨hv₀, hv₁⟩ := hv
  unfold InUnit LLM_KEY_RELIABILITY_WEIGHT LLM_KEY_QUALITY_WEIGHT LLM_KEY_LATENCY_WEIGHT
    LLM_KEY_VOLUME_WEIGHT
  constructor
  · linarith
  · linarith

theorem inUnit_sanitized (score : Option PyFloat) :
    InUnit ((sanitizeQualityScore score).getD 0.5) := by
  cases hq : sanitizeQualityScore score with
  | none => exact inUnit_half
  | some q =>
    unfold sanitizeQualityScore at hq
    split at hq
    · split at hq
      · rename_i hrange
        cases hq
        exact hrange
      · cases hq
    · cases hq

/-! ## Computations that only the float range stops -/

/-- A normal end is in `Q`, and a raise is an `OverflowError`. -/
structure Ends {α : Type} (Q : α → Prop) (x : Except Exc α) : Prop where
  value : ∀ a, x = .ok a → Q a
  raised : ∀ e, x = .error e → e.cls = .overflowError

namespace Ends

variable {α β : Type} {Q : α → Prop} {R : β → Prop}

theorem ret {a : α} (h : Q a) : Ends Q (pure a : Except Exc α) := by
  constructor
  · intro b hb
    cases hb
    exact h
  · intro e he
    cases he

theorem overflow (message : String) : Ends Q (.error (overflowError message)) := by
  constructor
  · intro a ha
    cases ha
  · intro e he
    cases he
    rfl

theorem bind {x : Except Exc α} {f : α → Except Exc β} (hx : Ends Q x)
    (hf : ∀ a, Q a → Ends R (f a)) : Ends R (x >>= f) := by
  cases x with
  | error e =>
    constructor
    · intro b hb
      cases hb
    · intro e' he
      cases he
      exact hx.raised e rfl
  | ok a => exact hf a (hx.value a rfl)

theorem ite {c : Prop} [Decidable c] {x y : Except Exc α} (hx : Ends Q x) (hy : Ends Q y) :
    Ends Q (if c then x else y) := by
  split
  · exact hx
  · exact hy

theorem mapM {f : α → Except Exc β} (h : ∀ a, Ends (fun _ => True) (f a)) (xs : List α) :
    Ends (fun _ => True) (xs.mapM f) := by
  induction xs with
  | nil => exact ret trivial
  | cons a rest ih =>
    rw [List.mapM_cons]
    refine (h a).bind fun b _ => ?_
    exact ih.bind fun _ _ => ret trivial

end Ends

theorem mulInt_ends (q : ℚ) (n : Int) : Ends (fun _ => True) (mulInt q n) := by
  unfold mulInt
  cases fitsDouble n with
  | false => exact .overflow _
  | true => exact .ret trivial

theorem divInt_ends (q : ℚ) {n : Int} (h : n ≠ 0) : Ends (fun _ => True) (divInt q n) := by
  unfold divInt
  rw [if_neg h]
  cases fitsDouble n with
  | false => exact .overflow _
  | true => exact .ret trivial

theorem intTrueDiv_ends (a : Int) {b : Int} (h : b ≠ 0) :
    Ends (fun q => q = (a : ℚ) / b) (intTrueDiv a b) := by
  unfold intTrueDiv
  rw [if_neg h]
  by_cases hrange : |(a : ℚ) / b| < 2 ^ 1024 - 2 ^ 970
  · rw [if_pos hrange]
    exact .ret rfl
  · rw [if_neg hrange]
    exact .overflow _

theorem weightedMean_ends (sum : ℚ) (count : Int) :
    Ends (fun _ => True) (weightedMean sum count) := by
  unfold weightedMean
  split
  · rename_i hcount
    have hne : count ≠ 0 := by omega
    exact (divInt_ends sum hne).bind fun _ _ => .ret trivial
  · exact .ret trivial

theorem blendedTier_ends (v : Validator) (hotkey : String) (subs : List SubWindow) :
    Ends (fun _ => True) (blendedTier v hotkey subs) := by
  unfold blendedTier
  dsimp only
  split
  · rename_i htotal
    refine (Ends.mapM (fun sub => mulInt_ends _ _) subs).bind fun parts _ => ?_
    exact divInt_ends _ (by omega)
  · exact .ret trivial

/-- The efficiency score, wherever its call floor is positive. -/
theorem llmKeyEfficiencyScore_ends (success failure : Int) (latency : Option PyFloat)
    (active : Bool) (quality : Option PyFloat) (tier : PyFloat) {minCalls : Int} (h : 0 < minCalls)
    (graded : Option Int) (reliabilityFloor qualityFloor : PyFloat) (minGraded : Int) :
    Ends (fun score => InUnit (score.getD 0)) (llmKeyEfficiencyScore success failure latency active
      quality tier minCalls graded reliabilityFloor qualityFloor minGraded) := by
  unfold llmKeyEfficiencyScore
  cases active with
  | false => exact .ret inUnit_zero
  | true =>
    simp only [Bool.not_true]
    rw [if_neg (by decide)]
    split
    · exact .ret inUnit_zero
    · rename_i hcounts
      split
      · exact .ret inUnit_zero
      · rename_i htotal
        have hne : success + failure ≠ 0 := by omega
        refine (intTrueDiv_ends success hne).bind fun reliability hreliability => ?_
        have hr : InUnit reliability := by
          rw [hreliability]
          exact inUnit_part (by omega) (by omega)
        split
        · exact .ret inUnit_zero
        · -- the two ways past the quality floor end alike
          refine Ends.ite (.ret inUnit_zero) ?_
          have htarget : LLM_KEY_VOLUME_TARGET_CALLS ≠ 0 := by decide
          refine (intTrueDiv_ends success htarget).bind fun volume hvolume => .ret ?_
          have hv : InUnit (min 1 volume) := by
            refine ⟨le_min zero_le_one ?_, min_le_left 1 volume⟩
            rw [hvolume]
            have hsuccess : (0 : ℚ) ≤ success := by exact_mod_cast (by omega : 0 ≤ success)
            exact div_nonneg hsuccess (by norm_num [LLM_KEY_VOLUME_TARGET_CALLS])
          have hq := inUnit_sanitized quality
          cases sanitizeLatencyMs latency with
          | none => exact (inUnit_composite hr hq inUnit_half hv).mul (inUnit_clamp _)
          | some l => exact (inUnit_composite hr hq (inUnit_clamp _) hv).mul (inUnit_clamp _)

theorem pooledWindowReward_ends (cfg : LlmKeyConfig) (v : Validator) (hotkey : String)
    (subs : List SubWindow) : Ends InUnit (pooledWindowReward cfg v hotkey subs) := by
  rw [pooledWindowReward_eq]
  unfold Pool.reward
  refine (weightedMean_ends _ _).bind fun latency _ => ?_
  refine (weightedMean_ends _ _).bind fun quality _ => ?_
  refine (blendedTier_ends v hotkey subs).bind fun tier _ => ?_
  have hcalls : (0 : Int) < 1 := by decide
  exact (llmKeyEfficiencyScore_ends _ _ _ _ _ _ hcalls _ _ _ _).bind fun score hscore => .ret hscore

/-- A floor asks for a number of calls before it divides by them. -/
theorem subWindowFloorReason_ends {cfg : LlmKeyConfig} (hgraded : 0 < cfg.qualityFloorMinGraded)
    (sub : SubWindow) {minCalls : Int} (hcalls : 0 < minCalls) :
    Ends (fun _ => True) (subWindowFloorReason cfg sub minCalls) := by
  unfold subWindowFloorReason
  dsimp only
  split
  · exact .ret trivial
  · rename_i htotal
    have hne : sub.successCount + sub.failureCount ≠ 0 := by omega
    refine (intTrueDiv_ends sub.successCount hne).bind fun reliability _ => ?_
    refine Ends.ite (.ret trivial) ?_
    split
    · rename_i hqcount
      have hne' : sub.qualityWeightedCount ≠ 0 := by omega
      refine (divInt_ends sub.qualityWeightedSum hne').bind fun quality _ => ?_
      exact Ends.ite (.ret trivial) (.ret trivial)
    · exact .ret trivial

theorem addLatency_ends (sub : SubWindow) (report : LLMKeyUsageReport) :
    Ends (fun _ => True) (sub.addLatency report) := by
  unfold SubWindow.addLatency
  cases sanitizeLatencyMs report.avgLatencyMs with
  | none => exact .ret trivial
  | some latency =>
    refine Ends.ite ?_ (.ret trivial)
    exact (mulInt_ends _ _).bind fun _ _ => .ret trivial

theorem addQuality_ends (sub : SubWindow) (report : LLMKeyUsageReport) :
    Ends (fun _ => True) (sub.addQuality report) := by
  unfold SubWindow.addQuality
  cases sanitizeQualityScore report.avgQualityScore with
  | none => exact .ret trivial
  | some quality =>
    refine Ends.ite ?_ (.ret trivial)
    exact (mulInt_ends _ _).bind fun _ _ => .ret trivial

/-! ## The scores of a state -/

/-- The configuration with the call counts of the defaults, its floors anything. -/
def defaultCounts (cfg : LlmKeyConfig) : LlmKeyConfig :=
  { cfg with
    minCallsForScoring := LLM_KEY_MIN_CALLS_FOR_SCORING
    qualityFloorMinGraded := LLM_KEY_QUALITY_FLOOR_MIN_GRADED }

theorem inUnit_reward (cfg : LlmKeyConfig) (v : Validator) (hotkey : String) :
    InUnit (reward cfg v hotkey) := by
  unfold reward
  split
  · exact inUnit_zero
  · have hpooled := pooledWindowReward_ends cfg v hotkey (scoredSubs cfg v hotkey)
    cases hreward : pooledWindowReward cfg v hotkey (scoredSubs cfg v hotkey) with
    | error e => exact inUnit_zero
    | ok earned => exact hpooled.value earned hreward

/-- Every score is a share. -/
def UnitScores (v : Validator) : Prop := ∀ score ∈ v.scores, InUnit score

/-- Only a uid whose current hotkey has a live row in the paid window has a score. -/
def ScoresEarned (v : Validator) : Prop :=
  ∀ (uid : Nat) (score : ℚ), v.scores[uid]? = some score → score ≠ 0 →
    ∃ hotkey, v.metagraphHotkeys[uid]? = some hotkey ∧ liveOf v hotkey ≠ []

theorem unitScores_scored {cfg : LlmKeyConfig} {v v' : Validator}
    (h : scoreLastEpoch cfg v = (.ok (), v')) : UnitScores v' := by
  unfold UnitScores
  rw [scoreLastEpoch_scores cfg h]
  intro score hscore
  obtain ⟨uid, -, rfl⟩ := List.mem_map.mp hscore
  unfold rewardAt
  split
  · split
    · exact inUnit_reward cfg v _
    · exact inUnit_zero
  · exact inUnit_zero

/-- A key of the window is live after scoring if it was live before, and no floor killed it. -/
theorem liveOf_scored {cfg : LlmKeyConfig} {v v' : Validator}
    (h : scoreLastEpoch cfg v = (.ok (), v')) {hotkey : String}
    (hmem : hotkey ∈ v.llmKeyLastEpochCalls.keys) : liveOf v' hotkey = scoredSubs cfg v hotkey := by
  rcases scoreLastEpoch_cases cfg v with ⟨-, v'', hrun, hscored⟩ | ⟨-, e, v'', hrun, -⟩
  · rw [hrun] at h
    cases h
    exact hscored.live hotkey hmem
  · rw [hrun] at h
    cases h

theorem metagraph_scored {cfg : LlmKeyConfig} {v v' : Validator}
    (h : scoreLastEpoch cfg v = (.ok (), v')) : v'.metagraphHotkeys = v.metagraphHotkeys := by
  rcases scoreLastEpoch_cases cfg v with ⟨-, v'', hrun, hscored⟩ | ⟨-, e, v'', hrun, -⟩
  · rw [hrun] at h
    cases h
    exact hscored.metagraph
  · rw [hrun] at h
    cases h

theorem scoresEarned_scored {cfg : LlmKeyConfig} {v v' : Validator}
    (h : scoreLastEpoch cfg v = (.ok (), v')) : ScoresEarned v' := by
  intro uid score hscore hne
  rw [scoreLastEpoch_scores cfg h, List.getElem?_map] at hscore
  obtain ⟨place, hplace, hearned⟩ := Option.map_eq_some_iff.mp hscore
  have huid : place = uid := by
    obtain ⟨hlt, hget⟩ := List.getElem?_eq_some_iff.mp hplace
    rw [List.getElem_range] at hget
    exact hget.symm
  rw [huid] at hearned
  rw [metagraph_scored h]
  unfold rewardAt at hearned
  cases hhotkey : v.metagraphHotkeys[uid]? with
  | none =>
    rw [hhotkey] at hearned
    exact absurd hearned.symm hne
  | some hotkey =>
    rw [hhotkey] at hearned
    refine ⟨hotkey, rfl, ?_⟩
    dsimp only at hearned
    split at hearned
    · intro hempty
      apply hne
      rw [← hearned]
      by_cases hmem : hotkey ∈ v.llmKeyLastEpochCalls.keys
      · rw [liveOf_scored h hmem] at hempty
        rw [reward, if_pos hempty]
      · exact reward_of_not_mem cfg hmem
    · exact absurd hearned.symm hne

/-! ## Everything that writes the state -/

/-- A statement about the scores that scoring keeps, place by place. -/
structure ScoresInvariant (I : Validator → Prop) : Prop where
  frame : ∀ {v v' : Validator}, I v → v'.scores = v.scores → I v'
  zeros : ∀ v, I (zeroed v)
  set : ∀ {v : Validator} (uid : Nat) {q : ℚ}, I v → InUnit q →
    I { v with scores := v.scores.set uid q }
  resync : ∀ {v : Validator} (hotkeys : List String) (axonsChanged : Bool), I v →
    I (resyncMetagraph v hotkeys axonsChanged)

theorem scoresInvariant_true : ScoresInvariant fun _ => True where
  frame _ _ := trivial
  zeros _ := trivial
  set _ _ _ _ := trivial
  resync _ _ _ := trivial

theorem scoresInvariant_unit : ScoresInvariant UnitScores where
  frame := by
    intro v v' h hscores
    unfold UnitScores
    rw [hscores]
    exact h
  zeros := by
    intro v score hscore
    rw [List.eq_of_mem_replicate hscore]
    exact inUnit_zero
  set := by
    intro v uid q h hq score hscore
    rcases List.mem_or_eq_of_mem_set hscore with hold | hnew
    · exact h score hold
    · rw [hnew]
      exact hq
  resync := by
    intro v hotkeys axonsChanged h
    unfold resyncMetagraph
    cases axonsChanged with
    | false => exact h
    | true =>
      intro score hscore
      rcases List.mem_append.mp hscore with hkept | hadded
      · obtain ⟨uid, huid, hplace⟩ := List.mem_mapIdx.mp (List.mem_of_mem_take hkept)
        split at hplace
        · rw [← hplace]
          exact inUnit_zero
        · rw [← hplace]
          exact h _ (List.getElem_mem huid)
      · rw [List.eq_of_mem_replicate hadded]
        exact inUnit_zero

/-- A method keeps `I`, and raises an `OverflowError` if anything. -/
def Overflows {α : Type} (I : Validator → Prop) (x : Method α) : Prop :=
  Prog.Spec I x (fun _ => I) fun e v => e.cls = .overflowError ∧ I v

namespace ScoresInvariant

variable {I : Validator → Prop} (hI : ScoresInvariant I)

include hI

theorem modify {f : Validator → Validator} (h : ∀ v, (f v).scores = v.scores) :
    Overflows I (Prog.modify f : Method Unit) := by
  intro v hv
  exact hI.frame hv (h v)

omit hI in
theorem ret {α : Type} (a : α) : Overflows I (pure a : Method α) := Prog.Spec.ret fun _ hv => hv

omit hI in
theorem get_bind {α : Type} {f : Validator → Method α} (h : ∀ v, Overflows I (f v)) :
    Overflows I (Prog.get >>= f) := by
  intro v hv
  rw [Prog.bind_ok (Prog.get_run v)]
  exact h v v hv

omit hI in
theorem ofExcept_bind {α β : Type} {Q : α → Prop} {x : Except Exc α} (hx : Ends Q x)
    {f : α → Method β} (h : ∀ a, Q a → Overflows I (f a)) :
    Overflows I (Prog.ofExcept x >>= f) := by
  intro v hv
  cases x with
  | error e =>
    rw [Prog.bind_error (Prog.ofExcept_run _ v)]
    exact ⟨hx.raised e rfl, hv⟩
  | ok a =>
    rw [Prog.bind_ok (Prog.ofExcept_run _ v)]
    exact h a (hx.value a rfl) v hv

theorem kill (hotkey subKey reason : String) :
    Overflows I (Prog.modify fun v => killHotkeyKey v hotkey subKey reason : Method Unit) :=
  hI.modify fun _ => rfl

theorem scoreHotkey (cfg : LlmKeyConfig) (hotkey : String) :
    Overflows I (scoreHotkey (defaultCounts cfg) hotkey) := by
  have hgraded : 0 < (defaultCounts cfg).qualityFloorMinGraded := by
    show 0 < LLM_KEY_QUALITY_FLOOR_MIN_GRADED
    decide
  have hcalls : 0 < (defaultCounts cfg).minCallsForScoring := by
    show 0 < LLM_KEY_MIN_CALLS_FOR_SCORING
    decide
  have hfloors : ∀ keys, Overflows I (killFlooredKeys (defaultCounts cfg) hotkey keys) := by
    intro keys
    refine Prog.Spec.forEach _ fun p _ => ?_
    refine ofExcept_bind (subWindowFloorReason_ends hgraded p.2 hcalls) fun floored _ => ?_
    cases floored with
    | none => exact ret ()
    | some reason => exact hI.kill hotkey p.1 reason
  refine get_bind fun v => Prog.Spec.bind (hfloors _) fun _ => get_bind fun v => ?_
  cases v.llmKeyLastEpochCalls.get? hotkey with
  | none => exact ret ()
  | some acc =>
    refine Prog.Spec.bind (hI.modify fun _ => rfl) fun _ => ?_
    refine Prog.Spec.ite (ret ()) ?_
    refine Prog.Spec.ite ?_ (ret ())
    refine Prog.Spec.ite (ret ()) ?_
    refine ofExcept_bind (pooledWindowReward_ends _ v hotkey _) fun earned hearned => ?_
    intro w hw
    exact hI.set _ hw hearned

theorem scoreLastEpoch (cfg : LlmKeyConfig) :
    Overflows I (scoreLastEpoch (defaultCounts cfg)) := by
  intro before hbefore
  unfold TaoSubnet.scoreLastEpoch
  rw [Prog.bind_ok (Prog.get_run before)]
  -- the handler puts the scores back that were there
  have hbody : Prog.Spec I (do
      Prog.modify fun v => { v with scores := List.replicate v.scores.length 0 }
      Prog.forEach before.llmKeyLastEpochCalls.keys (TaoSubnet.scoreHotkey (defaultCounts cfg)))
      (fun _ => I) fun e v => e.cls = .overflowError ∧ I v := by
    refine Prog.Spec.bind (Q := fun _ => I) (fun v _ => hI.zeros v) fun _ => ?_
    exact Prog.Spec.forEach _ fun hotkey _ => hI.scoreHotkey cfg hotkey
  refine Prog.Spec.tryExcept hbody (fun e => ?_) before hbefore
  intro v hv
  exact ⟨hv.1, hI.frame hbefore rfl⟩

theorem roll (cfg : LlmKeyConfig) (chain : Option ChainReads) :
    Overflows I (rollEpochIfNeeded (defaultCounts cfg) chain) := by
  intro v hv
  rcases roll_cases (defaultCounts cfg) chain v with ⟨-, hr⟩ | ⟨start, -, -, -, hr⟩ |
    ⟨start, -, -, -, hr⟩
  · rw [hr]
    exact hv
  · rw [hr]
    exact hI.frame hv rfl
  · rw [hr]
    exact hI.scoreLastEpoch cfg _ (hI.frame hv rfl)

theorem fold (hotkey : String) (report : LLMKeyUsageReport) (now : ℚ) :
    Overflows I (foldReportIntoPending hotkey report now) := by
  refine Prog.Spec.ite (ret ()) (get_bind fun v => ?_)
  refine Prog.Spec.bind (hI.modify fun _ => rfl) fun _ => ?_
  refine ofExcept_bind (addLatency_ends _ report) fun sub _ => ?_
  refine Prog.Spec.bind (hI.modify fun _ => rfl) fun _ => ?_
  refine ofExcept_bind (addQuality_ends _ report) fun sub' _ => ?_
  refine Prog.Spec.bind (hI.modify fun _ => rfl) fun _ => ?_
  exact Prog.Spec.ite (hI.modify fun _ => rfl) (ret ())

theorem processReport (now : ℚ) (report : LLMKeyUsageReport) :
    Overflows I (processReport now report) := by
  refine get_bind fun v => Prog.Spec.ite ?_ (ret ())
  refine Prog.Spec.bind (hI.modify fun _ => rfl) fun _ => ?_
  refine Prog.Spec.ite (hI.kill _ _ _) ?_
  exact Prog.Spec.ite (hI.kill _ _ _) (hI.fold _ _ _)

theorem pollRoster (answer : Except Exc (List LLMKeyRosterEntry)) :
    Overflows I (pollLlmKeyRoster answer) := by
  cases answer with
  | error e => exact ret ()
  | ok roster =>
    refine Prog.Spec.forEach _ fun entry _ => Prog.Spec.ite ?_ (ret ())
    exact get_bind fun v => Prog.Spec.ite (hI.kill _ _ _) (ret ())

omit hI in
theorem scores_prune (cfg : LlmKeyConfig) (now : ℚ) (v : Validator) :
    (pruneLlmKeyHotkeyStatus cfg now v).scores = v.scores := by
  have haside : Aside fun w => w.scores = v.scores := fun h hsame => hsame.2.2.trans h
  exact haside.prune cfg now rfl

theorem pollReports (cfg : LlmKeyConfig) (input : PollInput) :
    Overflows I (pollReports (defaultCounts cfg) input) := by
  unfold TaoSubnet.pollReports
  cases input.reports with
  | error e => exact hI.modify fun _ => rfl
  | ok answer =>
    have hrows : Overflows I (Prog.forEach answer.1 (TaoSubnet.processReport input.now)) :=
      Prog.Spec.forEach _ fun report _ => hI.processReport input.now report
    refine Prog.Spec.bind hrows fun _ => ?_
    refine Prog.Spec.bind (hI.pollRoster _) fun _ => ?_
    refine Prog.Spec.bind (hI.modify (scores_prune _ input.now)) fun _ => ?_
    exact Prog.Spec.bind (hI.scoreLastEpoch cfg) fun _ => hI.modify fun _ => rfl

theorem run (cfg : LlmKeyConfig) (op : Op) : Overflows I (op.run (defaultCounts cfg)) := by
  cases op with
  | poll input =>
    refine get_bind fun v => Prog.Spec.ite (ret ()) ?_
    exact Prog.Spec.bind (hI.roll cfg input.chain) fun _ => hI.pollReports cfg input
  | roll chain => exact hI.roll cfg chain
  | setWeights chain =>
    have hweights : Overflows I (setWeights (defaultCounts cfg) chain) := by
      refine Prog.Spec.bind (hI.roll cfg chain) fun _ => ?_
      exact Prog.Spec.bind (hI.scoreLastEpoch cfg) fun _ => get_bind fun v => ret _
    exact Prog.Spec.bind hweights fun _ => ret ()
  | score => exact hI.scoreLastEpoch cfg
  | kill hotkey subKey reason => exact hI.kill hotkey subKey reason
  | prune now => exact hI.modify (scores_prune _ now)
  | submission hotkey uid accepted status reason results now => exact hI.modify fun _ => rfl
  | resync hotkeys axonsChanged =>
    intro v hv
    exact hI.resync hotkeys axonsChanged hv

theorem runOps (cfg : LlmKeyConfig) {v : Validator} (h : I v) (ops : List Op) :
    I (runOps (defaultCounts cfg) v ops) := by
  induction ops generalizing v with
  | nil => exact h
  | cons op rest ih =>
    have hstep := hI.run cfg op v h
    have hnext : I (op.run (defaultCounts cfg) v).2 := by
      rcases hrun : op.run (defaultCounts cfg) v with ⟨e | _, v'⟩
      · rw [hrun] at hstep
        exact hstep.2
      · rw [hrun] at hstep
        exact hstep
    exact ih hnext

end ScoresInvariant

end TaoSubnet
