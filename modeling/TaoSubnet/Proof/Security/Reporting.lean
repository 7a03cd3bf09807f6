import Mathlib.Data.List.Perm.Basic
import TaoSubnet.Security.Job

/-!
# Reporting violations

Nothing that was seen is lost on its way into a report, and nothing is counted twice: neither when
repeated violations are collapsed into rows, nor when the blocking ones are moved to the front. The
rows come out of `Dict.collect`; the front comes out of an equality test that, on violations of one
log, is the severity test again.
-/

namespace TaoSubnet

open Py

/-! ## Rows -/

/-- What the rows say of the violations they stand for. -/
structure GroupedBy (violations : List Violation) (rows : List ViolationGroup) : Prop where
  distinct : (rows.map ViolationGroup.key).Nodup
  covers : ∀ key, key ∈ rows.map ViolationGroup.key ↔ key ∈ violations.map Violation.key
  counts : ∀ row ∈ rows, row.count = (violations.map Violation.key).count row.key
  total : (rows.map ViolationGroup.count).sum = violations.length
  /-- The critical rows, then the high ones, then the medium ones. -/
  ordered : rows.Pairwise fun a b => a.severity.order ≤ b.severity.order

theorem group_counts : Dict.Counts Violation.group ViolationGroup.again ViolationGroup.count where
  start _ := rfl
  more _ _ := rfl

theorem key_foldl_again (g : ViolationGroup) (violations : List Violation) :
    (violations.foldl ViolationGroup.again g).key = g.key := by
  induction violations generalizing g with
  | nil => rfl
  | cons v rest ih =>
    rw [List.foldl_cons, ih]
    rfl

/-- The groups of a list, before they are sorted. -/
abbrev groupsOf (violations : List Violation) : Dict (Severity × String) ViolationGroup :=
  Dict.collect Violation.key Violation.group ViolationGroup.again violations

/-- A row stands under its own key. -/
theorem key_of_get? {violations : List Violation} {key : Severity × String} {g : ViolationGroup}
    (h : (groupsOf violations).get? key = some g) : g.key = key := by
  rw [Dict.get?_collect] at h
  cases hfilter : violations.filter fun v => v.key = key with
  | nil =>
    rw [hfilter] at h
    cases h
  | cons v rest =>
    have hv : v ∈ violations.filter fun v => v.key = key := by simp [hfilter]
    rw [hfilter] at h
    cases h
    rw [key_foldl_again]
    exact of_decide_eq_true (List.mem_filter.mp hv).2

theorem key_values (violations : List Violation) :
    (groupsOf violations).values.map ViolationGroup.key = (groupsOf violations).keys := by
  unfold Dict.values Dict.keys
  rw [List.map_map]
  refine List.map_congr_left fun p hp => ?_
  exact key_of_get? (Dict.mem_entries_iff.mp hp)

theorem groupViolations_perm (violations : List Violation) :
    (groupViolations violations).Perm (groupsOf violations).values := List.mergeSort_perm _ _

/-! ## The order of the rows -/

theorem before_total (a b : ViolationGroup) : (a.before b || b.before a) = true := by
  simp only [ViolationGroup.before, Bool.or_eq_true, Bool.and_eq_true, decide_eq_true_eq]
  rcases Nat.lt_trichotomy a.severity.order b.severity.order with h | h | h
  · exact .inl (.inl h)
  · rcases String.le_total a.kind b.kind with hk | hk
    · exact .inl (.inr ⟨h, hk⟩)
    · exact .inr (.inr ⟨h.symm, hk⟩)
  · exact .inr (.inl h)

theorem before_trans (a b c : ViolationGroup) (hab : a.before b = true) (hbc : b.before c = true) :
    a.before c = true := by
  simp only [ViolationGroup.before, Bool.or_eq_true, Bool.and_eq_true, decide_eq_true_eq] at *
  rcases hab with hab | ⟨hab, hkab⟩
  · rcases hbc with hbc | ⟨hbc, -⟩
    · exact .inl (hab.trans hbc)
    · exact .inl (hbc ▸ hab)
  · rcases hbc with hbc | ⟨hbc, hkbc⟩
    · exact .inl (hab ▸ hbc)
    · exact .inr ⟨hab.trans hbc, String.le_trans hkab hkbc⟩

theorem order_le_of_before {a b : ViolationGroup} (h : a.before b = true) :
    a.severity.order ≤ b.severity.order := by
  simp only [ViolationGroup.before, Bool.or_eq_true, Bool.and_eq_true, decide_eq_true_eq] at h
  rcases h with h | ⟨h, -⟩
  · exact h.le
  · exact h.le

/-- Collapsing loses nothing and counts nothing twice. -/
theorem groupViolations_groups (violations : List Violation) :
    GroupedBy violations (groupViolations violations) where
  distinct := by
    rw [((groupViolations_perm violations).map _).nodup_iff, key_values]
    exact (groupsOf violations).nodupKeys
  covers key := by
    rw [((groupViolations_perm violations).map _).mem_iff, key_values, Dict.mem_keys_collect,
      List.mem_map]
  counts row hrow := by
    rw [(groupViolations_perm violations).mem_iff] at hrow
    obtain ⟨⟨key, _⟩, hentry, rfl⟩ := List.mem_map.mp hrow
    have hget := Dict.mem_entries_iff.mp hentry
    rw [Dict.count_of_get? group_counts hget, key_of_get? hget, List.count, List.countP_map]
    refine List.countP_congr fun v _ => ?_
    simp
  total := by
    rw [((groupViolations_perm violations).map _).sum_eq]
    exact Dict.sum_collect group_counts violations
  ordered := by
    have hsorted := List.pairwise_mergeSort before_trans before_total (groupsOf violations).values
    exact hsorted.imp order_le_of_before

/-! ## Blocking violations first -/

/-- What a report makes of the violations that were found. -/
structure MergedReport (behaviourAvailable : Bool) (found reported : List Violation) : Prop where
  keeps : reported.Perm ((if behaviourAvailable then [] else [monitoringUnavailable]) ++ found)
  blockingFirst : reported.Pairwise fun a b => b.isBlocking = true → a.isBlocking = true

/-- Among violations of one report, the blocking list contains those of a blocking severity. -/
theorem contains_blocking {found extra : List Violation} {v : Violation} (hv : v ∈ found)
    (hextra : ∀ w ∈ extra, w.isBlocking = true) :
    (extra ++ found.filter Violation.isBlocking).contains v = v.isBlocking := by
  rw [Bool.eq_iff_iff, List.contains_iff_mem, List.mem_append, List.mem_filter]
  constructor
  · intro h
    rcases h with h | h
    · exact hextra v h
    · exact h.2
  · intro h
    exact .inr ⟨hv, h⟩

/-- The merge: the blocking list, then whatever is not in it. -/
theorem merged {found extra : List Violation} (hextra : ∀ w ∈ extra, w.isBlocking = true) :
    let blocking := extra ++ found.filter Violation.isBlocking
    let reported := blocking ++ found.filter fun v => !blocking.contains v
    reported.Perm (extra ++ found) ∧
      reported.Pairwise fun a b => b.isBlocking = true → a.isBlocking = true := by
  intro blocking reported
  have hothers : (found.filter fun v => !blocking.contains v) =
      found.filter fun v => !v.isBlocking := by
    refine List.filter_congr fun v hv => ?_
    rw [contains_blocking hv hextra]
  have hblocking : ∀ v ∈ blocking, v.isBlocking = true := by
    intro v hv
    rcases List.mem_append.mp hv with h | h
    · exact hextra v h
    · exact (List.mem_filter.mp h).2
  have hreported : reported = blocking ++ found.filter fun v => !v.isBlocking := by
    rw [← hothers]
  rw [hreported]
  constructor
  · rw [List.append_assoc]
    exact (List.filter_append_perm _ _).append_left extra
  · rw [List.pairwise_append]
    refine ⟨?_, ?_, ?_⟩
    · exact List.pairwise_of_forall_mem_list fun a ha b _ _ => hblocking a ha
    · refine List.pairwise_of_forall_mem_list fun a _ b hb hbb => ?_
      have hnot := (List.mem_filter.mp hb).2
      rw [hbb] at hnot
      cases hnot
    · exact fun a ha b _ _ => hblocking a ha

/-- What a graded run reports is what the log's analysis found. -/
theorem assembleResult_merges {py : Interpreter} {runId : String} {challenge : Challenge}
    {findingsRaw : List UInt8} {behaviourText : String} {measured : Measured}
    {replayConfirmed behaviourAvailable : Bool} {r : JobResult}
    (h : assembleResult py runId challenge findingsRaw behaviourText measured replayConfirmed
      behaviourAvailable = .ok r) :
    MergedReport behaviourAvailable (analyze py.unicode behaviourText).violations r.violations := by
  unfold assembleResult at h
  cases hgraded : gradeFindings py runId challenge findingsRaw replayConfirmed with
  | error e =>
    rw [hgraded] at h
    cases h
  | ok graded =>
    rw [hgraded] at h
    cases h
    cases behaviourAvailable with
    | true =>
      have hnone : ∀ w ∈ ([] : List Violation), w.isBlocking = true := by simp
      obtain ⟨hperm, hfirst⟩ := merged hnone
      exact ⟨hperm, hfirst⟩
    | false =>
      have hours : ∀ w ∈ [monitoringUnavailable], w.isBlocking = true := by
        intro w hw
        rw [List.mem_singleton.mp hw]
        rfl
      obtain ⟨hperm, hfirst⟩ := merged hours
      exact ⟨hperm, hfirst⟩

/-- **Nothing is lost or doubled on the way into a report**: the rows of any list of violations
    stand for it, and a graded run reports what its log showed, the blocking violations first. -/
theorem reports_keep_violations (violations : List Violation) {py : Interpreter} {runId : String}
    {challenge : Challenge} {findingsRaw : List UInt8} {behaviourText : String}
    {measured : Measured} {replayConfirmed behaviourAvailable : Bool} {r : JobResult}
    (h : assembleResult py runId challenge findingsRaw behaviourText measured replayConfirmed
      behaviourAvailable = .ok r) :
    GroupedBy violations (groupViolations violations) ∧
      MergedReport behaviourAvailable (analyze py.unicode behaviourText).violations r.violations :=
  ⟨groupViolations_groups violations, assembleResult_merges h⟩

def reportedChallenge : Challenge where
  canary := "c4n4ry"
  secretTable := "vault"
  secretColumn := "token"
  vulnerableEndpoint := "/items"
  vulnerableParameter := "q"

/-- A run without a log, and with nothing in its findings file. -/
theorem reports_keep_violations_unmonitored :
    ∃ r, assembleResult cpython "r" reportedChallenge [] "" ⟨none, false, 0⟩ false false = .ok r ∧
      GroupedBy [monitoringUnavailable, monitoringUnavailable]
        (groupViolations [monitoringUnavailable, monitoringUnavailable]) ∧
      MergedReport false (analyze cpython.unicode "").violations r.violations := by
  have hends : (assembleResult cpython "r" reportedChallenge [] "" ⟨none, false, 0⟩ false
      false).isOk = true := by decide +kernel
  cases hrun : assembleResult cpython "r" reportedChallenge [] "" ⟨none, false, 0⟩ false false with
  | error e =>
    rw [hrun] at hends
    cases hends
  | ok r => exact ⟨r, rfl, reports_keep_violations _ hrun⟩

end TaoSubnet
