import Mathlib.Tactic.Linarith
import TaoSubnet.Security.TaskScore

/-!
# What a task score rewards

A score rests on the first finding that carries the canary, and pays for the others that name a safe
endpoint. A finding added at the end comes after every canary there is, so it can only add to what is
paid.
-/

namespace TaoSubnet

open Py

variable {u : Unicode} {challenge : Challenge}

def Finding.carries (challenge : Challenge) (finding : Finding) : Bool :=
  match finding.canary with
  | some canary => !canary.isEmpty && canary == PyStr.ofString challenge.canary
  | none => false

/-- The finding names an endpoint known to be safe. -/
def Finding.NamesSafe (u : Unicode) (challenge : Challenge) (finding : Finding) : Prop :=
  normalizeEndpoint u finding.endpoint ∈
    challenge.safeEndpoints.map fun e => normalizeEndpoint u (PyStr.ofString e)

instance (finding : Finding) : Decidable (finding.NamesSafe u challenge) :=
  inferInstanceAs (Decidable (_ ∈ _))

/-- The report with one finding more, at its end. -/
def Findings.adding (findings : Findings) (finding : Finding) : Findings :=
  { findings with findings := findings.findings ++ [finding] }

/-- What a run has earned before false positives are taken off. -/
def TaskResult.base (result : TaskResult) (replayConfirmed : Bool) : ℚ :=
  if result.canaryFound = false then 0
  else if replayConfirmed = false then SCORE_CANARY_ONLY
  else if result.located = false then SCORE_CANARY_AND_REPLAY
  else SCORE_FULL

/-! ## One report -/

theorem score_eq (findings : Findings) (replayConfirmed : Bool) :
    (scoreTask u challenge findings replayConfirmed).score =
      max 0 ((scoreTask u challenge findings replayConfirmed).base replayConfirmed -
        (scoreTask u challenge findings replayConfirmed).falsePositives *
          FALSE_POSITIVE_PENALTY) := by
  have hbase : ∀ found located : Bool,
      (if (!found) = true then (0 : ℚ) else if (!replayConfirmed) = true then SCORE_CANARY_ONLY
        else if (!located) = true then SCORE_CANARY_AND_REPLAY else SCORE_FULL) =
      if found = false then 0 else if replayConfirmed = false then SCORE_CANARY_ONLY
        else if located = false then SCORE_CANARY_AND_REPLAY else SCORE_FULL := by
    intro found located
    simp only [Bool.not_eq_true']
  unfold scoreTask TaskResult.base
  dsimp only
  rw [hbase]

theorem base_range (result : TaskResult) (replayConfirmed : Bool) :
    0 ≤ result.base replayConfirmed ∧ result.base replayConfirmed ≤ 1 := by
  unfold TaskResult.base SCORE_CANARY_ONLY SCORE_CANARY_AND_REPLAY SCORE_FULL
  split_ifs <;> norm_num

theorem penalty_nonneg (n : Nat) : 0 ≤ (n : ℚ) * FALSE_POSITIVE_PENALTY :=
  mul_nonneg (Nat.cast_nonneg n) (by norm_num [FALSE_POSITIVE_PENALTY])

/-- A score is at most what was earned. -/
theorem score_le_base (findings : Findings) (replayConfirmed : Bool) :
    (scoreTask u challenge findings replayConfirmed).score ≤
      (scoreTask u challenge findings replayConfirmed).base replayConfirmed := by
  rw [score_eq]
  apply max_le
  · exact (base_range _ _).1
  · have hpenalty := penalty_nonneg (scoreTask u challenge findings replayConfirmed).falsePositives
    linarith

theorem matchedIndex_eq (findings : List Finding) :
    matchedIndex challenge findings = findings.findIdx? (Finding.carries challenge) := rfl

/-- Nothing is earned without a finding that carries the canary. -/
theorem carries_of_pos {findings : Findings} {replayConfirmed : Bool}
    (h : 0 < (scoreTask u challenge findings replayConfirmed).score) :
    ∃ finding ∈ findings.findings, finding.carries challenge = true := by
  have hearned := h.trans_le (score_le_base findings replayConfirmed)
  cases hmatched : matchedIndex challenge findings.findings with
  | none =>
    have hfound : (scoreTask u challenge findings replayConfirmed).canaryFound = false := by
      show (matchedIndex challenge findings.findings).isSome = false
      rw [hmatched]
      rfl
    unfold TaskResult.base at hearned
    rw [if_pos hfound] at hearned
    exact absurd hearned (lt_irrefl 0)
  | some i =>
    rw [matchedIndex_eq, List.findIdx?_eq_some_iff_getElem] at hmatched
    obtain ⟨hi, hcarries, -⟩ := hmatched
    exact ⟨_, List.getElem_mem hi, hcarries⟩

theorem score_unconfirmed (findings : Findings) :
    (scoreTask u challenge findings false).score ≤ SCORE_CANARY_ONLY := by
  refine (score_le_base findings false).trans ?_
  unfold TaskResult.base
  split
  · norm_num [SCORE_CANARY_ONLY]
  · rw [if_pos rfl]

/-- A replay is looked at in the base alone. -/
theorem score_confirmed (findings : Findings) :
    (scoreTask u challenge findings false).score ≤ (scoreTask u challenge findings true).score := by
  rw [score_eq, score_eq]
  have hfound : (scoreTask u challenge findings false).canaryFound =
      (scoreTask u challenge findings true).canaryFound := rfl
  have hpositives : (scoreTask u challenge findings false).falsePositives =
      (scoreTask u challenge findings true).falsePositives := rfl
  rw [hpositives]
  apply max_le_max_left
  apply sub_le_sub_right
  unfold TaskResult.base
  rw [hfound]
  unfold SCORE_CANARY_ONLY SCORE_CANARY_AND_REPLAY SCORE_FULL
  split_ifs <;> norm_num at *

/-! ## One finding more -/

section Adding

variable {findings : Findings} {finding : Finding}

theorem matchedIndex_adding (h : finding.carries challenge = false) :
    matchedIndex challenge (findings.adding finding).findings =
      matchedIndex challenge findings.findings := by
  unfold Findings.adding
  rw [matchedIndex_eq, matchedIndex_eq, List.findIdx?_append]
  cases findings.findings.findIdx? (Finding.carries challenge) with
  | none => simp [List.findIdx?_cons, h]
  | some i => rfl

/-- The place after the last finding is not the matched one. -/
theorem matchedIndex_ne_length (challenge : Challenge) (findings : List Finding) :
    some findings.length ≠ matchedIndex challenge findings := by
  intro hlast
  rw [matchedIndex_eq, eq_comm, List.findIdx?_eq_some_iff_getElem] at hlast
  obtain ⟨hlt, -⟩ := hlast
  exact lt_irrefl _ hlt

theorem falsePositives_adding (h : finding.carries challenge = false) :
    (scoreTask u challenge (findings.adding finding) replayConfirmed).falsePositives =
      (scoreTask u challenge findings replayConfirmed).falsePositives +
        if finding.NamesSafe u challenge then 1 else 0 := by
  show falsePositives u challenge (findings.adding finding).findings
      (matchedIndex challenge (findings.adding finding).findings) =
    falsePositives u challenge findings.findings (matchedIndex challenge findings.findings) + _
  rw [matchedIndex_adding h]
  have hlast := matchedIndex_ne_length challenge findings.findings
  unfold falsePositives Findings.adding
  dsimp only
  rw [List.zipIdx_append, List.filter_append, List.length_append, Nat.zero_add,
    List.zipIdx_singleton]
  congr 1
  by_cases hsafe : finding.NamesSafe u challenge
  · rw [if_pos hsafe]
    refine (congrArg List.length (List.filter_cons_of_pos ?_)).trans rfl
    exact decide_eq_true ⟨hlast, hsafe⟩
  · have hcounted : ¬ (some findings.findings.length ≠ matchedIndex challenge findings.findings ∧
        finding.NamesSafe u challenge) := fun h => hsafe h.2
    rw [if_neg hsafe]
    refine (congrArg List.length (List.filter_cons_of_neg ?_)).trans rfl
    exact fun h => hcounted (of_decide_eq_true h)

/-- What is found of the canary is found without the finding. -/
theorem base_adding (h : finding.carries challenge = false) (replayConfirmed : Bool) :
    (scoreTask u challenge (findings.adding finding) replayConfirmed).base replayConfirmed =
      (scoreTask u challenge findings replayConfirmed).base replayConfirmed := by
  have hmatched : matchedIndex challenge (findings.adding finding).findings =
      matchedIndex challenge findings.findings := matchedIndex_adding h
  have hfound : ((matchedIndex challenge (findings.adding finding).findings).bind fun i =>
      (findings.adding finding).findings[i]?) =
      (matchedIndex challenge findings.findings).bind fun i => findings.findings[i]? := by
    rw [hmatched]
    cases hi : matchedIndex challenge findings.findings with
    | none => rfl
    | some i =>
      rw [matchedIndex_eq, List.findIdx?_eq_some_iff_getElem] at hi
      obtain ⟨hlt, -⟩ := hi
      exact List.getElem?_append_left hlt
  have hcanary : (scoreTask u challenge (findings.adding finding) replayConfirmed).canaryFound =
      (scoreTask u challenge findings replayConfirmed).canaryFound := congrArg Option.isSome hmatched
  have hlocated : (scoreTask u challenge (findings.adding finding) replayConfirmed).located =
      (scoreTask u challenge findings replayConfirmed).located := by
    unfold scoreTask
    dsimp only
    rw [hfound]
  unfold TaskResult.base
  rw [hcanary, hlocated]

/-- What a finding without the canary takes off. -/
theorem score_adding (h : finding.carries challenge = false) (replayConfirmed : Bool) :
    (scoreTask u challenge (findings.adding finding) replayConfirmed).score =
      max 0 ((scoreTask u challenge findings replayConfirmed).score -
        if finding.NamesSafe u challenge then FALSE_POSITIVE_PENALTY else 0) := by
  have hpenalty : (0 : ℚ) ≤ FALSE_POSITIVE_PENALTY := by norm_num [FALSE_POSITIVE_PENALTY]
  rw [score_eq, base_adding h, falsePositives_adding h, score_eq]
  generalize (scoreTask u challenge findings replayConfirmed).base replayConfirmed = base
  generalize (scoreTask u challenge findings replayConfirmed).falsePositives = positives
  by_cases hsafe : finding.NamesSafe u challenge
  · rw [if_pos hsafe, if_pos hsafe]
    push_cast
    rcases le_total 0 (base - positives * FALSE_POSITIVE_PENALTY) with hpositive | hnone
    · rw [max_eq_right hpositive]
      congr 1
      ring
    · rw [max_eq_left hnone, max_eq_left (by linarith), max_eq_left (by linarith)]
  · rw [if_neg hsafe, if_neg hsafe, sub_zero, Nat.add_zero, max_eq_right (le_max_left 0 _)]

end Adding

/-- **What a score rewards.** It is a share, and nothing without the exact canary; a replay never
    lowers it, and without one it is at most a half. A finding more that does not carry the canary
    never raises it, and costs the penalty, down to nothing, when it names a safe endpoint. -/
theorem score_rewards_the_canary (u : Unicode) (challenge : Challenge) (findings : Findings)
    (replayConfirmed : Bool) :
    (0 ≤ (scoreTask u challenge findings replayConfirmed).score ∧
      (scoreTask u challenge findings replayConfirmed).score ≤ 1) ∧
    (0 < (scoreTask u challenge findings replayConfirmed).score →
      ∃ finding ∈ findings.findings, finding.carries challenge = true) ∧
    (scoreTask u challenge findings false).score ≤ 1 / 2 ∧
    (∀ finding : Finding, finding.carries challenge = false →
      (scoreTask u challenge (findings.adding finding) replayConfirmed).score ≤
        (scoreTask u challenge findings replayConfirmed).score ∧
      (finding.NamesSafe u challenge →
        (scoreTask u challenge (findings.adding finding) replayConfirmed).score =
          max 0 ((scoreTask u challenge findings replayConfirmed).score -
            FALSE_POSITIVE_PENALTY))) ∧
    (scoreTask u challenge findings false).score ≤ (scoreTask u challenge findings true).score := by
  have hnonneg : 0 ≤ (scoreTask u challenge findings replayConfirmed).score := by
    rw [score_eq]
    exact le_max_left 0 _
  have hhalf : SCORE_CANARY_ONLY = 1 / 2 := by norm_num [SCORE_CANARY_ONLY]
  refine ⟨⟨hnonneg, ?_⟩, carries_of_pos, ?_, ?_, score_confirmed findings⟩
  · exact (score_le_base findings replayConfirmed).trans (base_range _ _).2
  · rw [← hhalf]
    exact score_unconfirmed findings
  · intro finding hcarries
    have hadding : (scoreTask u challenge (findings.adding finding) replayConfirmed).score =
        max 0 ((scoreTask u challenge findings replayConfirmed).score -
          if finding.NamesSafe u challenge then FALSE_POSITIVE_PENALTY else 0) :=
      score_adding hcarries replayConfirmed
    rw [hadding]
    constructor
    · have hpenalty : (0 : ℚ) ≤ FALSE_POSITIVE_PENALTY := by norm_num [FALSE_POSITIVE_PENALTY]
      apply max_le hnonneg
      split_ifs <;> linarith
    · intro hsafe
      rw [if_pos hsafe]

end TaoSubnet
