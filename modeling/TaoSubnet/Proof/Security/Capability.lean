import Mathlib.Algebra.BigOperators.Group.List.Basic
import Mathlib.Tactic.FieldSimp
import Mathlib.Tactic.Linarith
import TaoSubnet.Security.Capability

/-!
# Solving more, and paying for it

Capability is a mean over all runs times a factor of the solved ones. A run that fails can only lower
the mean; a run that is solved raises the mean and may lower the factor, and which of the two weighs
more is a matter of its score and its requests.
-/

namespace TaoSubnet

open Py

/-- What the runs earned together. -/
def earned (runs : List CapabilityRun) : ℚ := (runs.map CapabilityRun.effectiveScore).sum

/-- The mean number of requests of a solved run. -/
def requestsPerSolve (runs : List CapabilityRun) : ℚ :=
  let accepted := runs.filter CapabilityRun.accepted
  if accepted.length = 0 then 0
  else ((accepted.map CapabilityRun.requestCount).sum : Int) / accepted.length

/-- What the mean is multiplied with. -/
def efficiencyFactor (runs : List CapabilityRun) : ℚ :=
  1 - EFFICIENCY_WEIGHT + EFFICIENCY_WEIGHT * efficiencyOf (requestsPerSolve runs)

/-- A run that broke no rule, with a score that is a share. -/
structure CapabilityRun.Sound (run : CapabilityRun) : Prop where
  safe : run.safe = true
  nonneg : 0 ≤ run.taskScore
  le_one : run.taskScore ≤ 1

/-! ## The two factors -/

theorem capability_eq {runs : List CapabilityRun} (h : ∀ run ∈ runs, run.safe = true) :
    (aggregateCapability runs).capability =
      earned runs / runs.length * efficiencyFactor runs := by
  have hunsafe : (runs.any fun r => !r.safe) = false := by
    rw [List.any_eq_false]
    intro run hrun
    rw [h run hrun]
    decide
  unfold aggregateCapability
  dsimp only
  by_cases hnone : runs.length = 0
  · rw [if_pos hnone, hnone, Nat.cast_zero, div_zero, zero_mul]
  · rw [if_neg hnone, hunsafe]
    rfl

theorem efficiencyOf_range (avgRequests : ℚ) :
    0 ≤ efficiencyOf avgRequests ∧ efficiencyOf avgRequests ≤ 1 := by
  unfold efficiencyOf
  split
  · exact ⟨zero_le_one, le_refl 1⟩
  · rename_i hpositive
    refine ⟨le_min zero_le_one ?_, min_le_left _ _⟩
    exact div_nonneg (by norm_num [EFFICIENCY_REQUEST_BUDGET]) (not_le.mp hpositive).le

/-- Within the budget nothing is taken off. -/
theorem efficiencyOf_budget {avgRequests : ℚ} (h : avgRequests ≤ EFFICIENCY_REQUEST_BUDGET) :
    efficiencyOf avgRequests = 1 := by
  unfold efficiencyOf
  split
  · rfl
  · rename_i hpositive
    exact min_eq_left ((one_le_div (not_le.mp hpositive)).mpr h)

/-- More requests are worth no more. -/
theorem efficiencyOf_anti {few many : ℚ} (h : few ≤ many) :
    efficiencyOf many ≤ efficiencyOf few := by
  have hfew : efficiencyOf many ≤ 1 := (efficiencyOf_range many).2
  unfold efficiencyOf at hfew ⊢
  by_cases hnone : few ≤ 0
  · rw [if_pos hnone]
    exact hfew
  · have hsome : 0 < few := not_le.mp hnone
    have hmany : ¬ many ≤ 0 := not_le.mpr (hsome.trans_le h)
    rw [if_neg hnone, if_neg hmany]
    apply min_le_min_left
    exact div_le_div_of_nonneg_left (by norm_num [EFFICIENCY_REQUEST_BUDGET]) hsome h

theorem efficiencyFactor_range (runs : List CapabilityRun) :
    0 < efficiencyFactor runs ∧ efficiencyFactor runs ≤ 1 := by
  obtain ⟨hlow, hhigh⟩ := efficiencyOf_range (requestsPerSolve runs)
  unfold efficiencyFactor EFFICIENCY_WEIGHT
  constructor
  · linarith
  · linarith

theorem efficiencyFactor_anti {runs runs' : List CapabilityRun}
    (h : requestsPerSolve runs' ≤ requestsPerSolve runs) :
    efficiencyFactor runs ≤ efficiencyFactor runs' := by
  have heff := efficiencyOf_anti h
  unfold efficiencyFactor EFFICIENCY_WEIGHT
  linarith

theorem efficiencyFactor_budget {runs : List CapabilityRun}
    (h : requestsPerSolve runs ≤ EFFICIENCY_REQUEST_BUDGET) : efficiencyFactor runs = 1 := by
  unfold efficiencyFactor
  rw [efficiencyOf_budget h]
  ring

theorem earned_append (runs runs' : List CapabilityRun) :
    earned (runs ++ runs') = earned runs + earned runs' := by
  unfold earned
  rw [List.map_append, List.sum_append]

theorem earned_range {runs : List CapabilityRun} (h : ∀ run ∈ runs, run.Sound) :
    0 ≤ earned runs ∧ earned runs ≤ runs.length := by
  induction runs with
  | nil => exact ⟨le_refl 0, le_refl 0⟩
  | cons run rest ih =>
    obtain ⟨hlow, hhigh⟩ := ih fun r hr => h r (List.mem_cons_of_mem _ hr)
    obtain ⟨-, hnonneg, hone⟩ := h run List.mem_cons_self
    have hcons : earned (run :: rest) = run.effectiveScore + earned rest := rfl
    have hscore : 0 ≤ run.effectiveScore ∧ run.effectiveScore ≤ 1 := by
      unfold CapabilityRun.effectiveScore
      split
      · exact ⟨hnonneg, hone⟩
      · exact ⟨le_refl 0, zero_le_one⟩
    rw [hcons, List.length_cons]
    push_cast
    constructor
    · linarith [hscore.1]
    · linarith [hscore.2]

/-! ## The order of the runs -/

theorem earned_perm {runs runs' : List CapabilityRun} (h : runs.Perm runs') :
    earned runs = earned runs' := (h.map _).sum_eq

theorem efficiencyFactor_perm {runs runs' : List CapabilityRun} (h : runs.Perm runs') :
    efficiencyFactor runs = efficiencyFactor runs' := by
  have haccepted := h.filter CapabilityRun.accepted
  unfold efficiencyFactor requestsPerSolve
  dsimp only
  rw [haccepted.length_eq, (haccepted.map CapabilityRun.requestCount).sum_eq]

theorem capability_perm {runs runs' : List CapabilityRun}
    (hsafe : ∀ run ∈ runs, run.safe = true) (h : runs.Perm runs') :
    (aggregateCapability runs').capability = (aggregateCapability runs).capability := by
  have hsafe' : ∀ run ∈ runs', run.safe = true := fun run hrun => hsafe run (h.mem_iff.mpr hrun)
  rw [capability_eq hsafe, capability_eq hsafe', earned_perm h, efficiencyFactor_perm h,
    h.length_eq]

/-! ## One run more, and one run solved -/

/-- A failed run enters the mean and nothing else. -/
theorem capability_failed {runs : List CapabilityRun} {failed : CapabilityRun}
    (h : ∀ run ∈ runs, run.Sound) (hfailed : failed.accepted = false)
    (hsafe : failed.safe = true) :
    (aggregateCapability (runs ++ [failed])).capability ≤
      (aggregateCapability runs).capability := by
  have hearned : earned (runs ++ [failed]) = earned runs := by
    rw [earned_append]
    show earned runs + (failed.effectiveScore + 0) = earned runs
    unfold CapabilityRun.effectiveScore
    rw [hfailed]
    simp
  have hfactor : efficiencyFactor (runs ++ [failed]) = efficiencyFactor runs := by
    have hfilter : (runs ++ [failed]).filter CapabilityRun.accepted =
        runs.filter CapabilityRun.accepted := by
      rw [List.filter_append, List.filter_cons_of_neg (by rw [hfailed]; exact Bool.false_ne_true),
        List.filter_nil, List.append_nil]
    unfold efficiencyFactor requestsPerSolve
    rw [hfilter]
  have hall : ∀ run ∈ runs ++ [failed], run.safe = true := by
    intro run hrun
    rcases List.mem_append.mp hrun with hold | hnew
    · exact (h run hold).safe
    · rw [List.mem_singleton.mp hnew]
      exact hsafe
  rw [capability_eq hall, capability_eq fun run hrun => (h run hrun).safe, hearned, hfactor,
    List.length_append, List.length_singleton]
  apply mul_le_mul_of_nonneg_right _ (efficiencyFactor_range runs).1.le
  -- the same sum over one run more
  by_cases hnone : runs.length = 0
  · have hnil : earned [] = 0 := rfl
    rw [List.length_eq_zero_iff.mp hnone, hnil, zero_div, zero_div]
  · have hsome : (0 : ℚ) < runs.length := Nat.cast_pos.mpr (Nat.pos_of_ne_zero hnone)
    apply div_le_div_of_nonneg_left (earned_range h).1 hsome
    exact_mod_cast Nat.le_succ runs.length

/-- What solving a failed run brings: its score at the new factor, for the old sum's loss of factor. -/
theorem capability_solved {before after : List CapabilityRun} {failed solved : CapabilityRun}
    (h : ∀ run ∈ before ++ failed :: after, run.Sound) (hfailed : failed.accepted = false)
    (hsolved : solved.accepted = true) (hsound : solved.Sound) :
    (aggregateCapability (before ++ failed :: after)).capability ≤
        (aggregateCapability (before ++ solved :: after)).capability ↔
      earned (before ++ failed :: after) *
          (efficiencyFactor (before ++ failed :: after) -
            efficiencyFactor (before ++ solved :: after)) ≤
        solved.taskScore * efficiencyFactor (before ++ solved :: after) := by
  have hall : ∀ run ∈ before ++ solved :: after, run.safe = true := by
    intro run hrun
    rcases List.mem_append.mp hrun with hold | hnew
    · exact (h run (List.mem_append_left _ hold)).safe
    · rcases List.mem_cons.mp hnew with rfl | hlater
      · exact hsound.safe
      · exact (h run (List.mem_append_right _ (List.mem_cons_of_mem _ hlater))).safe
  have hearned : earned (before ++ solved :: after) =
      earned (before ++ failed :: after) + solved.taskScore := by
    rw [earned_append, earned_append]
    show earned before + (solved.effectiveScore + earned after) =
      earned before + (failed.effectiveScore + earned after) + solved.taskScore
    unfold CapabilityRun.effectiveScore
    rw [hfailed, hsolved, if_pos rfl, if_neg Bool.false_ne_true]
    ring
  have hlength : (before ++ solved :: after).length = (before ++ failed :: after).length := by
    simp
  have hsome : (0 : ℚ) < (before ++ failed :: after).length := by
    rw [List.length_append, List.length_cons]
    exact Nat.cast_pos.mpr (by omega)
  rw [capability_eq fun run hrun => (h run hrun).safe, capability_eq hall, hearned, hlength]
  generalize earned (before ++ failed :: after) = sum
  generalize efficiencyFactor (before ++ failed :: after) = factor
  generalize efficiencyFactor (before ++ solved :: after) = factor'
  rw [div_mul_eq_mul_div, div_mul_eq_mul_div, div_le_div_iff_of_pos_right hsome]
  constructor
  · intro hle
    linarith
  · intro hle
    linarith

/-- **Capability is a share, whatever the order of the runs, and a failed run never raises it.** A
    failed run that becomes a solved one lowers it exactly when what the sum so far loses by the new
    factor is more than the run's score brings at it. That is never so while the solved runs keep to
    the request budget, or make no more requests on average than before. -/
theorem capability_of_sound_runs {runs : List CapabilityRun} (h : ∀ run ∈ runs, run.Sound) :
    (0 ≤ (aggregateCapability runs).capability ∧ (aggregateCapability runs).capability ≤ 1) ∧
    (∀ runs' : List CapabilityRun, runs.Perm runs' →
      (aggregateCapability runs').capability = (aggregateCapability runs).capability) ∧
    (∀ failed : CapabilityRun, failed.accepted = false → failed.safe = true →
      (aggregateCapability (runs ++ [failed])).capability ≤
        (aggregateCapability runs).capability) ∧
    ∀ (before after : List CapabilityRun) (failed solved : CapabilityRun),
      runs = before ++ failed :: after → failed.accepted = false → solved.accepted = true →
      solved.Sound →
      ((aggregateCapability runs).capability ≤
          (aggregateCapability (before ++ solved :: after)).capability ↔
        earned runs * (efficiencyFactor runs - efficiencyFactor (before ++ solved :: after)) ≤
          solved.taskScore * efficiencyFactor (before ++ solved :: after)) ∧
      (requestsPerSolve (before ++ solved :: after) ≤
          max EFFICIENCY_REQUEST_BUDGET (requestsPerSolve runs) →
        (aggregateCapability runs).capability ≤
          (aggregateCapability (before ++ solved :: after)).capability) := by
  have hsafe : ∀ run ∈ runs, run.safe = true := fun run hrun => (h run hrun).safe
  refine ⟨?_, fun runs' => capability_perm hsafe, fun failed => capability_failed h, ?_⟩
  · obtain ⟨hlow, hhigh⟩ := earned_range h
    obtain ⟨hpositive, hone⟩ := efficiencyFactor_range runs
    have hmean : 0 ≤ earned runs / runs.length ∧ earned runs / runs.length ≤ 1 :=
      ⟨div_nonneg hlow (Nat.cast_nonneg _), div_le_one_of_le₀ hhigh (Nat.cast_nonneg _)⟩
    rw [capability_eq hsafe]
    exact ⟨mul_nonneg hmean.1 hpositive.le, mul_le_one₀ hmean.2 hpositive.le hone⟩
  · intro before after failed solved hruns hfailed hsolved hsound
    subst hruns
    have hiff := capability_solved h hfailed hsolved hsound
    refine ⟨hiff, fun hrequests => hiff.mpr ?_⟩
    have hfactor : efficiencyFactor (before ++ failed :: after) ≤
        efficiencyFactor (before ++ solved :: after) := by
      rcases le_max_iff.mp hrequests with hbudget | hfewer
      · rw [efficiencyFactor_budget hbudget]
        exact (efficiencyFactor_range _).2
      · exact efficiencyFactor_anti hfewer
    have hloss := mul_nonpos_of_nonneg_of_nonpos (earned_range h).1 (sub_nonpos.mpr hfactor)
    exact hloss.trans (mul_nonneg hsound.nonneg (efficiencyFactor_range _).1.le)

/-- A cheap solve, and a run that failed. -/
def oneSolvedOneFailed : List CapabilityRun :=
  [{ accepted := true, taskScore := 1, requestCount := 10 }, {}]

theorem oneSolvedOneFailed_sound : ∀ run ∈ oneSolvedOneFailed, run.Sound := by
  intro run hrun
  rcases List.mem_cons.mp hrun with rfl | hrun
  · exact ⟨rfl, zero_le_one, le_refl 1⟩
  · rw [List.mem_singleton.mp hrun]
    exact ⟨rfl, le_refl 0, zero_le_one⟩

theorem one_solved_one_failed_range :
    0 ≤ (aggregateCapability oneSolvedOneFailed).capability ∧
      (aggregateCapability oneSolvedOneFailed).capability ≤ 1 :=
  (capability_of_sound_runs oneSolvedOneFailed_sound).1

/-- The failed run is solved after all, for nothing, by a hundred thousand requests. -/
theorem costly_solve_worth_less :
    ¬ ∀ (before after : List CapabilityRun) (failed solved : CapabilityRun),
      (∀ run ∈ before ++ failed :: after, run.Sound) → failed.accepted = false →
      solved.accepted = true → solved.Sound →
      (aggregateCapability (before ++ failed :: after)).capability ≤
        (aggregateCapability (before ++ solved :: after)).capability := by
  intro h
  have hless := h [{ accepted := true, taskScore := 1, requestCount := 10 }] [] {}
    { accepted := true, taskScore := 0, requestCount := 100000 }
    oneSolvedOneFailed_sound rfl rfl
    ⟨rfl, le_refl 0, zero_le_one⟩
  revert hless
  decide +kernel

end TaoSubnet
