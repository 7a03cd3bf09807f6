import TaoSubnet.Lib.Runs
import TaoSubnet.Proof.LlmKey.Scores

/-!
# How often a row is folded

The rows of a poll are folded one by one, and the cursor moves at the very end of the round: what
raises in between leaves rows in the accumulators that the next poll is answered again.
`polls_fold_once` is the condition under which no round does.
-/

namespace TaoSubnet

open Py

/-! ## What a round leaves alone -/

/-- The metagraph and what is remembered of the polls. -/
def SameRest (v v' : Validator) : Prop :=
  v'.metagraphHotkeys = v.metagraphHotkeys ∧
  v'.lastLlmKeyReportCursor = v.lastLlmKeyReportCursor

variable (cfg : LlmKeyConfig) {v₀ : Validator}

theorem rest_modify {f : Validator → Validator} (h : ∀ v, SameRest v (f v)) :
    Prog.Keeps (SameRest v₀) (Prog.modify f : Method Unit) := by
  apply Prog.Keeps.modify
  intro v hv
  exact ⟨(h v).1.trans hv.1, (h v).2.trans hv.2⟩

theorem aside_rest : Aside (SameRest v₀) := by
  intro v v' h hsame
  exact ⟨hsame.1.trans h.1, hsame.2.1.trans h.2⟩

theorem rest_scoreHotkey (hotkey : String) :
    Prog.Keeps (SameRest v₀) (scoreHotkey cfg hotkey) := by
  refine Prog.Keeps.bind Prog.Keeps.get fun v => ?_
  have hfloors : ∀ keys, Prog.Keeps (SameRest v₀) (killFlooredKeys cfg hotkey keys) := by
    intro keys
    refine Prog.Keeps.forEach _ fun p _ => ?_
    refine Prog.Keeps.bind (Prog.Keeps.ofExcept _) fun floored => ?_
    cases floored with
    | none => exact Prog.Keeps.ret ()
    | some reason => exact aside_rest.keeps_kill hotkey p.1 reason
  refine Prog.Keeps.bind (hfloors _) fun _ => ?_
  refine Prog.Keeps.bind Prog.Keeps.get fun v => ?_
  cases v.llmKeyLastEpochCalls.get? hotkey with
  | none => exact Prog.Keeps.ret ()
  | some acc =>
    refine Prog.Keeps.bind (rest_modify fun _ => ⟨rfl, rfl⟩) fun _ => ?_
    refine Prog.Keeps.ite (Prog.Keeps.ret ()) ?_
    refine Prog.Keeps.ite ?_ (Prog.Keeps.ret ())
    refine Prog.Keeps.ite (Prog.Keeps.ret ()) ?_
    refine Prog.Keeps.bind (Prog.Keeps.ofExcept _) fun reward => ?_
    exact rest_modify fun _ => ⟨rfl, rfl⟩

theorem rest_scoreLastEpoch : Prog.Keeps (SameRest v₀) (scoreLastEpoch cfg) := by
  refine Prog.Keeps.bind Prog.Keeps.get fun before => ?_
  refine Prog.Keeps.tryExcept ?_ fun e => ?_
  · refine Prog.Keeps.bind (rest_modify fun _ => ⟨rfl, rfl⟩) fun _ => ?_
    refine Prog.Keeps.forEach _ fun hotkey _ => ?_
    exact rest_scoreHotkey cfg hotkey
  · exact Prog.Keeps.bind (rest_modify fun _ => ⟨rfl, rfl⟩) fun _ => Prog.Keeps.raise e

theorem rest_roll (chain : Option ChainReads) :
    Prog.Keeps (SameRest v₀) (rollEpochIfNeeded cfg chain) := by
  intro v h
  rcases roll_cases cfg chain v with ⟨-, hr⟩ | ⟨start, -, -, -, hr⟩ | ⟨start, -, -, -, hr⟩
  · rw [hr]
    exact h
  · rw [hr]
    exact h
  · rw [hr]
    exact rest_scoreLastEpoch cfg _ h

/-! ## The rows of a round -/

/-- The row is added to the accumulators: its hotkey is registered, its key works, and its counts
    are counts. -/
def Folds (v : Validator) (report : LLMKeyUsageReport) : Prop :=
  v.metagraphHotkeys.idxOf report.hotkey < v.metagraphHotkeys.length ∧ report.keyActive = true ∧
    hasFatalErrorCategory report.errorCategories = false ∧
    0 ≤ report.successCount ∧ 0 ≤ report.failureCount

instance (v : Validator) : DecidablePred (Folds v) := fun report => by
  unfold Folds
  infer_instance

/-- The row's calls are multiplied with a latency or a grade. -/
def Weighs (report : LLMKeyUsageReport) : Prop :=
  0 < rowCalls report ∧ (sanitizeLatencyMs report.avgLatencyMs ≠ none ∨
    sanitizeQualityScore report.avgQualityScore ≠ none)

theorem addLatency_total {sub : SubWindow} {report : LLMKeyUsageReport}
    (h : Weighs report → fitsDouble (rowCalls report) = true) :
    ∃ sub', sub.addLatency report = .ok sub' := by
  unfold SubWindow.addLatency
  cases hlatency : sanitizeLatencyMs report.avgLatencyMs with
  | none => exact ⟨sub, rfl⟩
  | some latency =>
    dsimp only
    split
    · rename_i hcalls
      have hfits := h ⟨hcalls, .inl (by rw [hlatency]; exact Option.some_ne_none latency)⟩
      rw [mulInt_fits hfits]
      exact ⟨_, rfl⟩
    · exact ⟨sub, rfl⟩

theorem addQuality_total {sub : SubWindow} {report : LLMKeyUsageReport}
    (h : Weighs report → fitsDouble (rowCalls report) = true) :
    ∃ sub', sub.addQuality report = .ok sub' := by
  unfold SubWindow.addQuality
  cases hquality : sanitizeQualityScore report.avgQualityScore with
  | none => exact ⟨sub, rfl⟩
  | some quality =>
    dsimp only
    split
    · rename_i hcalls
      have hfits := h ⟨hcalls, .inr (by rw [hquality]; exact Option.some_ne_none quality)⟩
      rw [mulInt_fits hfits]
      exact ⟨_, rfl⟩
    · exact ⟨sub, rfl⟩

/-- A fold whose products fit a float does not raise. -/
theorem fold_total {report : LLMKeyUsageReport}
    (h : 0 ≤ report.successCount → 0 ≤ report.failureCount → Weighs report →
      fitsDouble (rowCalls report) = true) (hotkey : String) (now : ℚ) (v : Validator) :
    ∃ v', foldReportIntoPending hotkey report now v = (.ok (), v') := by
  unfold foldReportIntoPending
  by_cases hnegative : report.successCount < 0 ∨ report.failureCount < 0
  · rw [if_pos hnegative]
    exact ⟨v, rfl⟩
  · have hfits := h (by omega) (by omega)
    rw [if_neg hnegative, Prog.bind_ok (Prog.get_run v)]
    simp only [subWindowFor]
    rw [Prog.bind_ok (Prog.modify_run _ _)]
    generalize hsub : SubWindow.addCounts _ report = sub
    obtain ⟨sub₁, hlatency⟩ : ∃ sub₁, sub.addLatency report = .ok sub₁ := addLatency_total hfits
    rw [hlatency, Prog.bind_ok (Prog.ofExcept_run _ _), Prog.bind_ok (Prog.modify_run _ _)]
    obtain ⟨sub₂, hquality⟩ : ∃ sub₂, sub₁.addQuality report = .ok sub₂ := addQuality_total hfits
    rw [hquality, Prog.bind_ok (Prog.ofExcept_run _ _), Prog.bind_ok (Prog.modify_run _ _)]
    split
    · exact ⟨_, rfl⟩
    · exact ⟨_, rfl⟩

/-- A row that is folded without a raise, if it is folded at all. -/
def RowFits (v : Validator) (report : LLMKeyUsageReport) : Prop :=
  Folds v report → Weighs report → fitsDouble (rowCalls report) = true

theorem processReport_total {v : Validator} {report : LLMKeyUsageReport} (h : RowFits v report)
    (now : ℚ) : ∃ v', processReport now report v = (.ok (), v') := by
  unfold processReport
  rw [Prog.bind_ok (Prog.get_run v)]
  dsimp only
  split
  · rename_i hregistered
    rw [Prog.bind_ok (Prog.modify_run _ _)]
    split
    · exact ⟨_, rfl⟩
    · rename_i hactive
      split
      · exact ⟨_, rfl⟩
      · rename_i hfatal
        refine fold_total (fun hsuccess hfailure hweighs => h ?_ hweighs) _ _ _
        exact ⟨hregistered, by simpa using hactive, by simpa using hfatal, hsuccess, hfailure⟩
  · exact ⟨v, rfl⟩

/-- A row that is not to be folded is not, wherever the round goes. -/
theorem processReport_unfolded {v : Validator} {report : LLMKeyUsageReport} (h : ¬ Folds v report)
    (now : ℚ) :
    foldedRows (processReport now report v).2.history = foldedRows v.history := by
  have hI := folded_invariant (foldedRows v.history)
  unfold processReport
  rw [Prog.bind_ok (Prog.get_run v)]
  dsimp only
  split
  · rename_i hregistered
    rw [Prog.bind_ok (Prog.modify_run _ _)]
    split
    · exact hI.kill _ _ _ _ rfl
    · rename_i hactive
      split
      · exact hI.kill _ _ _ _ rfl
      · rename_i hfatal
        have hnegative : report.successCount < 0 ∨ report.failureCount < 0 := by
          by_contra hcounts
          apply h
          exact ⟨hregistered, by simpa using hactive, by simpa using hfatal, by omega, by omega⟩
        unfold foldReportIntoPending
        rw [if_pos hnegative]
        rfl
  · rfl

/-- A row that is to be folded is, also where the fold raises later. -/
theorem processReport_folded {v : Validator} {report : LLMKeyUsageReport} (h : Folds v report)
    (now : ℚ) : foldedRows (processReport now report v).2.history =
      foldedRows v.history ++ [report] := by
  obtain ⟨hregistered, hactive, hfatal, hsuccess, hfailure⟩ := h
  unfold processReport
  rw [Prog.bind_ok (Prog.get_run v)]
  dsimp only
  rw [if_pos hregistered, Prog.bind_ok (Prog.modify_run _ _), hactive, hfatal]
  show foldedRows (foldReportIntoPending report.hotkey report now _).2.history = _
  rcases fold_cases report.hotkey report now
      (recordReport v report (v.metagraphHotkeys.idxOf report.hotkey) now) with
    ⟨hnegative, -⟩ | ⟨hhistory, -, -⟩
  · omega
  · rw [hhistory]
    simp [foldedRows, recordReport]

theorem addLatency_raises {sub : SubWindow} {report : LLMKeyUsageReport}
    (hcalls : 0 < rowCalls report) (hlatency : sanitizeLatencyMs report.avgLatencyMs ≠ none)
    (h : fitsDouble (rowCalls report) = false) : ∃ e, sub.addLatency report = .error e := by
  obtain ⟨latency, hsome⟩ := Option.ne_none_iff_exists'.mp hlatency
  unfold SubWindow.addLatency
  rw [hsome]
  dsimp only
  rw [if_pos hcalls, mulInt, h]
  exact ⟨_, rfl⟩

theorem addQuality_raises {sub : SubWindow} {report : LLMKeyUsageReport}
    (hcalls : 0 < rowCalls report) (hquality : sanitizeQualityScore report.avgQualityScore ≠ none)
    (h : fitsDouble (rowCalls report) = false) : ∃ e, sub.addQuality report = .error e := by
  obtain ⟨quality, hsome⟩ := Option.ne_none_iff_exists'.mp hquality
  unfold SubWindow.addQuality
  rw [hsome]
  dsimp only
  rw [if_pos hcalls, mulInt, h]
  exact ⟨_, rfl⟩

/-- A row whose products fit no float raises, after its counts were stored. -/
theorem processReport_raises {v : Validator} {report : LLMKeyUsageReport} (h : Folds v report)
    (hweighs : Weighs report) (hfits : fitsDouble (rowCalls report) = false) (now : ℚ) :
    ∃ e v', processReport now report v = (.error e, v') := by
  obtain ⟨hregistered, hactive, hfatal, hsuccess, hfailure⟩ := h
  obtain ⟨hcalls, hweighs⟩ := hweighs
  unfold processReport
  rw [Prog.bind_ok (Prog.get_run v)]
  dsimp only
  rw [if_pos hregistered, Prog.bind_ok (Prog.modify_run _ _), hactive, hfatal]
  show ∃ e v', foldReportIntoPending report.hotkey report now _ = (.error e, v')
  unfold foldReportIntoPending
  rw [if_neg (by omega), Prog.bind_ok (Prog.get_run _)]
  simp only [subWindowFor]
  rw [Prog.bind_ok (Prog.modify_run _ _)]
  generalize SubWindow.addCounts _ report = sub
  by_cases hlatency : sanitizeLatencyMs report.avgLatencyMs = none
  · have hkept : sub.addLatency report = .ok sub := by
      unfold SubWindow.addLatency
      rw [hlatency]
    obtain ⟨e, hraises⟩ : ∃ e, sub.addQuality report = .error e :=
      addQuality_raises hcalls (hweighs.resolve_left (not_not.mpr hlatency)) hfits
    rw [hkept, Prog.bind_ok (Prog.ofExcept_run _ _), Prog.bind_ok (Prog.modify_run _ _), hraises]
    exact ⟨e, _, Prog.bind_error (Prog.ofExcept_run _ _)⟩
  · obtain ⟨e, hraises⟩ : ∃ e, sub.addLatency report = .error e :=
      addLatency_raises hcalls hlatency hfits
    rw [hraises]
    exact ⟨e, _, Prog.bind_error (Prog.ofExcept_run _ _)⟩

theorem folds_congr {v v' : Validator} (h : SameRest v v') (report : LLMKeyUsageReport) :
    Folds v' report ↔ Folds v report := by
  unfold Folds
  rw [h.1]

/-- The rows of a batch raise nothing exactly when each fits. -/
theorem processReports_ok_iff (reports : List LLMKeyUsageReport) (now : ℚ) (v : Validator) :
    (Prog.forEach reports (processReport now) v).1 = .ok () ↔
      ∀ report ∈ reports, RowFits v report := by
  induction reports generalizing v with
  | nil => exact iff_of_true rfl (List.forall_mem_nil _)
  | cons report rest ih =>
    show ((processReport now report >>= fun _ => Prog.forEach rest (processReport now)) v).1 = _ ↔ _
    rw [List.forall_mem_cons]
    by_cases hfirst : RowFits v report
    · obtain ⟨v₁, hrun⟩ := processReport_total hfirst now
      have hrest : SameRest v v₁ := (aside_rest.keeps_processReport now report).run ⟨rfl, rfl⟩ hrun
      rw [Prog.bind_ok hrun, ih v₁, and_iff_right hfirst]
      apply forall₂_congr
      intro other _
      unfold RowFits
      rw [folds_congr hrest]
    · have hraises : Folds v report ∧ Weighs report ∧ fitsDouble (rowCalls report) = false := by
        unfold RowFits at hfirst
        simpa using hfirst
      obtain ⟨e, v₁, hrun⟩ := processReport_raises hraises.1 hraises.2.1 hraises.2.2 now
      rw [Prog.bind_error hrun]
      exact iff_of_false (fun h => by cases h) fun h => hfirst h.1

/-- The rows of a batch fold nothing exactly when none of them is to be folded. -/
theorem processReports_folds_nothing_iff (reports : List LLMKeyUsageReport) (now : ℚ)
    (v : Validator) :
    foldedRows (Prog.forEach reports (processReport now) v).2.history = foldedRows v.history ↔
      ∀ report ∈ reports, ¬ Folds v report := by
  induction reports generalizing v with
  | nil => exact iff_of_true rfl (List.forall_mem_nil _)
  | cons report rest ih =>
    show foldedRows ((processReport now report >>=
      fun _ => Prog.forEach rest (processReport now)) v).2.history = _ ↔ _
    rw [List.forall_mem_cons]
    by_cases hfirst : Folds v report
    · refine iff_of_false (fun heq => ?_) fun h => h.1 hfirst
      obtain ⟨later, -, hlater⟩ : ∃ later, later.Sublist rest ∧
          foldedRows ((processReport now report >>=
            fun _ => Prog.forEach rest (processReport now)) v).2.history =
          foldedRows v.history ++ [report] ++ later := by
        have hfolded := processReport_folded hfirst now
        rcases hrun : processReport now report v with ⟨e | _, v₁⟩
        · rw [hrun] at hfolded
          rw [Prog.bind_error hrun]
          exact ⟨[], List.nil_sublist _, by rw [List.append_nil]; exact hfolded⟩
        · rw [hrun] at hfolded
          rw [Prog.bind_ok hrun, ← show foldedRows v₁.history = _ from hfolded]
          exact processReports_fold now rest v₁
      rw [hlater] at heq
      simp at heq
    · have hunfolded := processReport_unfolded hfirst now
      obtain ⟨v₁, hrun⟩ := processReport_total (fun h => absurd h hfirst : RowFits v report) now
      have hrest : SameRest v v₁ := (aside_rest.keeps_processReport now report).run ⟨rfl, rfl⟩ hrun
      rw [hrun] at hunfolded
      rw [Prog.bind_ok hrun, ← show foldedRows v₁.history = _ from hunfolded, ih v₁,
        and_iff_right hfirst]
      apply forall₂_congr
      intro other _
      rw [folds_congr hrest]

/-! ## A round -/

/-- The rows, the roster and the prune: a round between its roll and its recompute. -/
def absorb (input : PollInput) (reports : List LLMKeyUsageReport) : Method Unit := do
  Prog.forEach reports (processReport input.now)
  pollLlmKeyRoster input.roster
  Prog.modify (pruneLlmKeyHotkeyStatus cfg input.now)

/-- The end of a round. -/
def advance (input : PollInput) (nextSince : Option String) (v : Validator) : Validator :=
  { v with
    lastLlmKeyReportCursor := match nextSince with
      | some c => if c = "" then v.lastLlmKeyReportCursor else c
      | none => v.lastLlmKeyReportCursor
    lastLlmKeyReportPollAt := input.now }

/-- A round whose request is answered. -/
theorem pollReports_answered {input : PollInput} {reports : List LLMKeyUsageReport}
    {nextSince : Option String} (h : input.reports = .ok (reports, nextSince)) :
    pollReports cfg input = absorb cfg input reports >>= fun _ =>
      scoreLastEpoch cfg >>= fun _ => Prog.modify (advance input nextSince) := by
  unfold pollReports absorb
  rw [h]
  simp only [Prog.bind_assoc]
  rfl

theorem rest_absorb (input : PollInput) (reports : List LLMKeyUsageReport) :
    Prog.Keeps (SameRest v₀) (absorb cfg input reports) := by
  refine Prog.Keeps.bind (Prog.Keeps.forEach _ fun report _ => ?_) fun _ => ?_
  · exact aside_rest.keeps_processReport input.now report
  · refine Prog.Keeps.bind (aside_rest.keeps_pollRoster _) fun _ => ?_
    exact Prog.Keeps.modify fun v hv => aside_rest.prune cfg input.now hv

theorem processRosterEntry_total (entry : LLMKeyRosterEntry) (v : Validator) :
    ∃ v', processRosterEntry entry v = (.ok (), v') := by
  unfold processRosterEntry
  split
  · rw [Prog.bind_ok (Prog.get_run v)]
    split
    · exact ⟨_, rfl⟩
    · exact ⟨_, rfl⟩
  · exact ⟨v, rfl⟩

theorem pollLlmKeyRoster_total (answer : Except Exc (List LLMKeyRosterEntry)) (v : Validator) :
    ∃ v', pollLlmKeyRoster answer v = (.ok (), v') := by
  cases answer with
  | error e => exact ⟨v, rfl⟩
  | ok roster =>
    show ∃ v', Prog.forEach roster processRosterEntry v = (.ok (), v')
    induction roster generalizing v with
    | nil => exact ⟨v, rfl⟩
    | cons entry rest ih =>
      obtain ⟨v₁, hfirst⟩ := processRosterEntry_total entry v
      obtain ⟨v₂, hrest⟩ := ih v₁
      exact ⟨v₂, (Prog.bind_ok hfirst).trans hrest⟩

/-- The roster and the prune raise nothing. -/
theorem absorb_ok_iff (input : PollInput) (reports : List LLMKeyUsageReport) (v : Validator) :
    (absorb cfg input reports v).1 = .ok () ↔
      (Prog.forEach reports (processReport input.now) v).1 = .ok () := by
  unfold absorb
  rcases hrows : Prog.forEach reports (processReport input.now) v with ⟨e | _, v₁⟩
  · rw [Prog.bind_error hrows]
  · obtain ⟨v₂, hroster⟩ := pollLlmKeyRoster_total input.roster v₁
    rw [Prog.bind_ok hrows, Prog.bind_ok hroster]
    rfl

/-- How an answered round ends: before its last two lines, or with the cursor moved. -/
theorem pollReports_cases {input : PollInput} {reports : List LLMKeyUsageReport}
    {nextSince : Option String} (h : input.reports = .ok (reports, nextSince)) (v : Validator) :
    (((absorb cfg input reports v).1 = .ok () ∧
        ∀ hotkey ∈ (absorb cfg input reports v).2.llmKeyLastEpochCalls.keys,
          Scorable cfg (absorb cfg input reports v).2 hotkey) ∧
      ∃ v', SameRest v v' ∧ pollReports cfg input v = (.ok (), advance input nextSince v')) ∨
    (¬ ((absorb cfg input reports v).1 = .ok () ∧
        ∀ hotkey ∈ (absorb cfg input reports v).2.llmKeyLastEpochCalls.keys,
          Scorable cfg (absorb cfg input reports v).2 hotkey) ∧
      ∃ e v', SameRest v v' ∧ pollReports cfg input v = (.error e, v')) := by
  have habsorb : SameRest v (absorb cfg input reports v).2 :=
    rest_absorb cfg input reports v ⟨rfl, rfl⟩
  rw [pollReports_answered cfg h]
  rcases hrun : absorb cfg input reports v with ⟨e | _, v₁⟩
  · rw [hrun] at habsorb
    right
    refine ⟨fun hok => ?_, e, v₁, habsorb, Prog.bind_error hrun⟩
    cases hok.1
  · rw [hrun] at habsorb
    rw [Prog.bind_ok hrun]
    have hscore : SameRest v (scoreLastEpoch cfg v₁).2 := rest_scoreLastEpoch cfg v₁ habsorb
    have hok := scoreLastEpoch_ok_iff cfg v₁
    rcases hrun' : scoreLastEpoch cfg v₁ with ⟨e | _, v₂⟩
    · rw [hrun'] at hok hscore
      right
      refine ⟨fun hall => ?_, e, v₂, hscore, Prog.bind_error hrun'⟩
      cases hok.mpr hall.2
    · rw [hrun'] at hok hscore
      left
      refine ⟨⟨rfl, hok.mp rfl⟩, v₂, hscore, ?_⟩
      rw [Prog.bind_ok hrun']
      rfl

/-- Only the rows of an answered round are folded in it. -/
theorem pollReports_folds {input : PollInput} {reports : List LLMKeyUsageReport}
    {nextSince : Option String} (h : input.reports = .ok (reports, nextSince)) (v : Validator) :
    foldedRows (pollReports cfg input v).2.history =
      foldedRows (Prog.forEach reports (processReport input.now) v).2.history := by
  unfold pollReports
  rw [h]
  dsimp only
  rcases hrows : Prog.forEach reports (processReport input.now) v with ⟨e | _, v₁⟩
  · rw [Prog.bind_error hrows]
  · rw [Prog.bind_ok hrows]
    have hI := folded_invariant (foldedRows v₁.history)
    refine Prog.Keeps.bind (hI.keeps_pollRoster _) (fun _ => ?_) v₁ rfl
    refine Prog.Keeps.bind (Prog.Keeps.modify fun _ hw => hI.prune cfg input.now hw) fun _ => ?_
    refine Prog.Keeps.bind (hI.keeps_scoreLastEpoch cfg) fun _ => ?_
    exact hI.keeps_modify fun _ => ⟨rfl, rfl, rfl, rfl⟩

/-! ## A backend that keeps a list of rows -/

/-- How cursors name positions of the list: the empty cursor is its beginning, and the one the backend
    gives out after `n` rows leads behind them. -/
structure Cursors where
  position : String → Nat
  cursorOf : Nat → String
  position_empty : position "" = 0
  position_cursorOf : ∀ n, position (cursorOf n) = n

/-- The validator and the rows the backend has so far. -/
structure Polling where
  validator : Validator
  feed : List LLMKeyUsageReport

/-- What happens: rows are appended, the validator polls, or does anything else. An answer is a
    failure, or as many of the rows behind the cursor as the backend hands out at once. -/
inductive PollAction
  | publish (rows : List LLMKeyUsageReport)
  | poll (now : ℚ) (chain : Option ChainReads) (answer : Except Exc Nat)
      (roster : Except Exc (List LLMKeyRosterEntry))
  | other (op : Op)

variable (c : Cursors)

def Polling.position (s : Polling) : Nat := c.position s.validator.lastLlmKeyReportCursor

/-- The rows of an answer. -/
def Polling.batch (s : Polling) (limit : Nat) : List LLMKeyUsageReport :=
  (s.feed.drop (s.position c)).take limit

/-- The next cursor of an answer; there is none where there are no rows. -/
def Polling.nextSince (s : Polling) (limit : Nat) : Option String :=
  if (s.batch c limit).isEmpty then none
  else some (c.cursorOf (s.position c + (s.batch c limit).length))

def Polling.input (s : Polling) (now : ℚ) (chain : Option ChainReads) (answer : Except Exc Nat)
    (roster : Except Exc (List LLMKeyRosterEntry)) : PollInput where
  now := now
  chain := chain
  reports := answer.map fun limit => (s.batch c limit, s.nextSince c limit)
  roster := roster

def Op.isPoll : Op → Bool
  | .poll _ => true
  | _ => false

def Polling.step (s : Polling) : PollAction → Option Polling
  | .publish rows => some { s with feed := s.feed ++ rows }
  | .poll now chain answer roster =>
    some { s with validator :=
      (llmKeyReportPollRound cfg (s.input c now chain answer roster) s.validator).2 }
  | .other op => if op.isPoll then none else some { s with validator := (op.run cfg s.validator).2 }

/-- Every row is folded at most once, and only if the cursor is behind it. -/
def FoldedOnce (s : Polling) : Prop :=
  (foldedRows s.validator.history).Sublist (s.feed.take (s.position c))

/-- What a transition folds, its end of the cursor has left behind and its start had not. -/
def FoldsBehindCursor (t : Machine.Transition Polling PollAction) : Prop :=
  ∃ new, foldedRows t.after.validator.history = foldedRows t.before.validator.history ++ new ∧
    new.Sublist ((t.after.feed.take (t.after.position c)).drop (t.before.position c))

/-- The round gets as far as the rows of an answer. -/
def GetsRows (input : PollInput) (v : Validator) (reports : List LLMKeyUsageReport)
    (nextSince : Option String) : Prop :=
  input.reports = .ok (reports, nextSince) ∧ ¬ (Op.poll input).waits cfg v ∧
    (rollEpochIfNeeded cfg input.chain v).1 = .ok ()

/-- The state its recompute meets. -/
def met (input : PollInput) (v : Validator) (reports : List LLMKeyUsageReport) : Validator :=
  (absorb cfg input reports (rollEpochIfNeeded cfg input.chain v).2).2

/-- A batch leaves nothing half done: nothing of it is to be folded, or every row of it fits and the
    recompute after it meets no hotkey that cannot be scored. -/
def Settles (input : PollInput) (v : Validator) (reports : List LLMKeyUsageReport) : Prop :=
  (∀ report ∈ reports, ¬ Folds v report) ∨
    ((∀ report ∈ reports, RowFits v report) ∧
      ∀ hotkey ∈ (met cfg input v reports).llmKeyLastEpochCalls.keys,
        Scorable cfg (met cfg input v reports) hotkey)

/-- The same of a transition. -/
def SettlesAt (t : Machine.Transition Polling PollAction) : Prop :=
  ∀ now chain limit roster, t.action = .poll now chain (.ok limit) roster →
    let input := t.before.input c now chain (.ok limit) roster
    GetsRows cfg input t.before.validator (t.before.batch c limit) (t.before.nextSince c limit) →
    Settles cfg input t.before.validator (t.before.batch c limit)

theorem roll_folds (chain : Option ChainReads) (v : Validator) :
    foldedRows (rollEpochIfNeeded cfg chain v).2.history = foldedRows v.history := by
  obtain ⟨new, hnew, hfolded⟩ := run_folds cfg (.roll chain) v
  rw [List.sublist_nil.mp hnew, List.append_nil] at hfolded
  exact hfolded

/-- A round that gets no rows folds none and leaves the cursor. -/
theorem poll_gets_none {input : PollInput} {v : Validator}
    (h : ∀ reports nextSince, ¬ GetsRows cfg input v reports nextSince) :
    foldedRows (llmKeyReportPollRound cfg input v).2.history = foldedRows v.history ∧
      (llmKeyReportPollRound cfg input v).2.lastLlmKeyReportCursor = v.lastLlmKeyReportCursor := by
  have hroll := roll_folds cfg input.chain v
  have hrest : SameRest v (rollEpochIfNeeded cfg input.chain v).2 :=
    rest_roll cfg input.chain v ⟨rfl, rfl⟩
  rcases poll_cases cfg input v with ⟨-, hrun⟩ | ⟨-, e, v', hrun', hrun⟩ | ⟨hwaits, v', hrun', hrun⟩
  · rw [hrun]
    exact ⟨rfl, rfl⟩
  · rw [hrun'] at hroll hrest
    rw [hrun]
    exact ⟨hroll, hrest.2⟩
  · rw [hrun'] at hroll hrest
    rw [hrun]
    unfold pollReports
    cases hreports : input.reports with
    | error e => exact ⟨hroll, hrest.2⟩
    | ok answer =>
      exfalso
      apply h answer.1 answer.2
      exact ⟨hreports, hwaits, by rw [hrun']⟩

/-- A round that gets rows folds some of them, and none exactly when none is to be folded. It moves
    the cursor exactly when it raises nothing. -/
theorem poll_gets_rows {input : PollInput} {v : Validator} {reports : List LLMKeyUsageReport}
    {nextSince : Option String} (h : GetsRows cfg input v reports nextSince) :
    (∃ new, new.Sublist reports ∧ (new = [] ↔ ∀ report ∈ reports, ¬ Folds v report) ∧
      foldedRows (llmKeyReportPollRound cfg input v).2.history = foldedRows v.history ++ new) ∧
    ((((∀ report ∈ reports, RowFits v report) ∧
        ∀ hotkey ∈ (met cfg input v reports).llmKeyLastEpochCalls.keys,
          Scorable cfg (met cfg input v reports) hotkey) ∧
      (llmKeyReportPollRound cfg input v).2.lastLlmKeyReportCursor =
        (advance input nextSince v).lastLlmKeyReportCursor) ∨
    (¬ ((∀ report ∈ reports, RowFits v report) ∧
        ∀ hotkey ∈ (met cfg input v reports).llmKeyLastEpochCalls.keys,
          Scorable cfg (met cfg input v reports) hotkey) ∧
      (llmKeyReportPollRound cfg input v).2.lastLlmKeyReportCursor = v.lastLlmKeyReportCursor)) := by
  obtain ⟨hreports, hwaits, hok⟩ := h
  have hroll := roll_folds cfg input.chain v
  have hrest : SameRest v (rollEpochIfNeeded cfg input.chain v).2 :=
    rest_roll cfg input.chain v ⟨rfl, rfl⟩
  unfold met
  rcases poll_cases cfg input v with ⟨hwait, -⟩ | ⟨-, e, v', hrun', -⟩ | ⟨-, v', hrun', hrun⟩
  · exact absurd hwait hwaits
  · rw [hrun'] at hok
    cases hok
  · rw [hrun'] at hroll hrest ⊢
    rw [hrun, ← hroll, pollReports_folds cfg hreports]
    have hfits : (absorb cfg input reports v').1 = .ok () ↔ ∀ report ∈ reports, RowFits v report := by
      rw [absorb_ok_iff, processReports_ok_iff]
      apply forall₂_congr
      intro report _
      unfold RowFits
      rw [folds_congr hrest]
    constructor
    · obtain ⟨new, hnew, hfolded⟩ := processReports_fold input.now reports v'
      refine ⟨new, hnew, ?_, hfolded⟩
      have hnothing := processReports_folds_nothing_iff reports input.now v'
      rw [hfolded, List.append_right_eq_self] at hnothing
      rw [hnothing]
      apply forall₂_congr
      intro report _
      rw [folds_congr hrest]
    · rw [← hfits]
      rcases pollReports_cases cfg hreports v' with ⟨hends, v'', hrest', hend⟩ |
        ⟨hends, e, v'', hrest', hend⟩
      · left
        refine ⟨hends, ?_⟩
        rw [hend]
        unfold advance
        dsimp only
        rw [hrest'.2, hrest.2]
      · right
        refine ⟨hends, ?_⟩
        rw [hend]
        exact hrest'.2.trans hrest.2

/-! ## Runs -/

theorem cursor_other {op : Op} (h : op.isPoll = false) (v : Validator) :
    (op.run cfg v).2.lastLlmKeyReportCursor = v.lastLlmKeyReportCursor := by
  have hroll : ∀ chain, SameRest v (rollEpochIfNeeded cfg chain v).2 :=
    fun chain => rest_roll cfg chain v ⟨rfl, rfl⟩
  cases op with
  | poll input => cases h
  | roll chain => exact (hroll chain).2
  | setWeights chain =>
    rw [run_setWeights]
    refine (Prog.Keeps.bind (rest_roll cfg chain) (fun _ => ?_) v ⟨rfl, rfl⟩ : SameRest v _).2
    refine Prog.Keeps.bind (rest_scoreLastEpoch cfg) fun _ => ?_
    exact Prog.Keeps.bind Prog.Keeps.get fun _ => Prog.Keeps.ret _
  | score => exact (rest_scoreLastEpoch cfg v ⟨rfl, rfl⟩ : SameRest v _).2
  | kill hotkey subKey reason => rfl
  | prune now => exact (aside_rest.prune cfg now ⟨rfl, rfl⟩ : SameRest v _).2
  | submission hotkey uid accepted status reason results now => rfl
  | resync hotkeys axonsChanged =>
    show (resyncMetagraph v hotkeys axonsChanged).lastLlmKeyReportCursor = _
    cases axonsChanged
    · rfl
    · rfl

theorem folds_other {op : Op} (h : op.isPoll = false) (v : Validator) :
    foldedRows (op.run cfg v).2.history = foldedRows v.history := by
  obtain ⟨new, hnew, hfolded⟩ := run_folds cfg op v
  have hnone : op.delivered = [] := by
    cases op with
    | poll input => cases h
    | _ => rfl
  rw [hnone] at hnew
  rw [List.sublist_nil.mp hnew, List.append_nil] at hfolded
  exact hfolded

/-- The cursor of an answer leads behind its rows. -/
theorem position_advance (s : Polling) (input : PollInput) (limit : Nat) :
    c.position (advance input (s.nextSince c limit) s.validator).lastLlmKeyReportCursor =
      s.position c + (s.batch c limit).length := by
  unfold advance Polling.nextSince
  generalize hn : s.position c + (s.batch c limit).length = n
  cases hbatch : (s.batch c limit).isEmpty with
  | true =>
    rw [List.isEmpty_iff.mp hbatch] at hn
    exact hn
  | false =>
    show c.position (if c.cursorOf n = "" then _ else _) = n
    split
    · rename_i hempty
      -- the empty cursor is that of position zero, where the poll began
      have hzero : n = 0 := by
        rw [← c.position_cursorOf n, hempty, c.position_empty]
      have hstart : s.position c = 0 := by omega
      rw [hzero]
      exact hstart
    · exact c.position_cursorOf n

/-- The rows between the start of an answer and its end are the answer. -/
theorem rows_of_batch (s : Polling) (limit : Nat) :
    (s.feed.take (s.position c + (s.batch c limit).length)).drop (s.position c) =
      s.batch c limit := by
  rw [List.drop_take, Nat.add_sub_cancel_left]
  exact (List.prefix_iff_eq_take.mp (List.take_prefix limit _)).symm

/-- A round that gets rows, from the backend's side. -/
theorem rows_moves {s s' : Polling} {a : PollAction} {input : PollInput} {limit : Nat}
    (hstep : s' = { s with validator := (llmKeyReportPollRound cfg input s.validator).2 })
    (h : GetsRows cfg input s.validator (s.batch c limit) (s.nextSince c limit)) :
    s.position c ≤ s'.position c ∧
      (FoldsBehindCursor c ⟨s, a, s'⟩ ↔ Settles cfg input s.validator (s.batch c limit)) := by
  obtain ⟨⟨new, hnew, hnothing, hfolded⟩, hends⟩ := poll_gets_rows cfg h
  have hposition : s'.position c =
      c.position (llmKeyReportPollRound cfg input s.validator).2.lastLlmKeyReportCursor := by
    rw [hstep]
    rfl
  have hfeed : s'.feed = s.feed := by rw [hstep]
  have hown : FoldsBehindCursor c ⟨s, a, s'⟩ ↔
      new.Sublist ((s.feed.take (s'.position c)).drop (s.position c)) := by
    unfold FoldsBehindCursor
    rw [hfeed, hstep]
    dsimp only
    rw [hfolded]
    constructor
    · rintro ⟨other, hsame, hother⟩
      rw [List.append_cancel_left hsame]
      exact hother
    · intro hbehind
      exact ⟨new, rfl, hbehind⟩
  rw [hown]
  rcases hends with ⟨hsettled, hcursor⟩ | ⟨hunsettled, hcursor⟩
  · -- the round ended, and its cursor is behind the batch
    rw [hposition, hcursor, position_advance, rows_of_batch]
    exact ⟨Nat.le_add_right _ _, iff_of_true hnew (.inr hsettled)⟩
  · -- the round raised, and its cursor is where it was
    have hsame : s'.position c = s.position c := by
      rw [hposition, hcursor]
      rfl
    rw [hsame, List.drop_eq_nil_of_le (List.length_take_le _ _), List.sublist_nil, hnothing]
    refine ⟨le_refl _, ?_⟩
    unfold Settles
    rw [or_iff_left hunsettled]

/-- What happens to the cursor, the rows and the folds in one transition. -/
theorem step_moves {s s' : Polling} {a : PollAction} (h : s.step cfg c a = some s') :
    s.feed <+: s'.feed ∧ s.position c ≤ s'.position c ∧
      (FoldsBehindCursor c ⟨s, a, s'⟩ ↔ SettlesAt cfg c ⟨s, a, s'⟩) := by
  cases a with
  | publish rows =>
    cases h
    refine ⟨List.prefix_append _ _, le_refl _, iff_of_true ?_ ?_⟩
    · exact ⟨[], (List.append_nil _).symm, List.nil_sublist _⟩
    · intro now chain limit roster heq
      cases heq
  | other op =>
    change (if op.isPoll then none else
      some { s with validator := (op.run cfg s.validator).2 }) = some s' at h
    cases hpoll : op.isPoll with
    | true =>
      rw [hpoll] at h
      cases h
    | false =>
      rw [hpoll] at h
      cases h
      refine ⟨List.prefix_rfl, ?_, iff_of_true ?_ ?_⟩
      · unfold Polling.position
        dsimp only
        rw [cursor_other cfg hpoll]
      · refine ⟨[], ?_, List.nil_sublist _⟩
        rw [List.append_nil]
        exact folds_other cfg hpoll s.validator
      · intro now chain limit roster heq
        cases heq
  | poll now chain answer roster =>
    cases h
    by_cases hanswered : ∃ reports nextSince,
        GetsRows cfg (s.input c now chain answer roster) s.validator reports nextSince
    · obtain ⟨reports, nextSince, hanswered⟩ := hanswered
      cases answer with
      | error e =>
        cases hanswered.1
      | ok limit =>
        have hreports : (s.batch c limit, s.nextSince c limit) = (reports, nextSince) :=
          Except.ok.inj hanswered.1
        obtain ⟨rfl, rfl⟩ := Prod.mk.inj hreports
        obtain ⟨hposition, hfolds⟩ := rows_moves cfg c rfl hanswered
        refine ⟨List.prefix_rfl, hposition, hfolds.trans ⟨?_, ?_⟩⟩
        · intro hsettles now' chain' limit' roster' heq
          cases heq
          intro input _
          exact hsettles
        · intro hsettles
          exact hsettles now chain limit roster rfl hanswered
    · have hnone : ∀ reports nextSince,
          ¬ GetsRows cfg (s.input c now chain answer roster) s.validator reports nextSince :=
        fun reports nextSince hno => hanswered ⟨reports, nextSince, hno⟩
      obtain ⟨hfolded, hcursor⟩ := poll_gets_none cfg hnone
      refine ⟨List.prefix_rfl, ?_, iff_of_true ?_ ?_⟩
      · unfold Polling.position
        dsimp only
        rw [hcursor]
      · refine ⟨[], ?_, List.nil_sublist _⟩
        rw [List.append_nil]
        exact hfolded
      · intro now' chain' limit roster' heq
        cases heq
        intro input hyes
        exact absurd hyes (hnone _ _)

theorem foldedOnce_step {s s' : Polling} {a : PollAction} (hfeed : s.feed <+: s'.feed)
    (hposition : s.position c ≤ s'.position c) (hfolds : FoldsBehindCursor c ⟨s, a, s'⟩)
    (h : FoldedOnce c s) : FoldedOnce c s' := by
  obtain ⟨new, hfolded, hnew⟩ := hfolds
  unfold FoldedOnce at h ⊢
  have hfront : s.feed.take (s.position c) <+: (s'.feed.take (s'.position c)).take (s.position c) := by
    rw [List.take_take, min_eq_left hposition]
    exact hfeed.take _
  have hrows : s'.feed.take (s'.position c) = (s'.feed.take (s'.position c)).take (s.position c) ++
      (s'.feed.take (s'.position c)).drop (s.position c) := (List.take_append_drop _ _).symm
  rw [show foldedRows s'.validator.history = _ from hfolded, hrows]
  exact (h.trans hfront.sublist).append hnew

/-- A cursor that counts in its length. -/
def tally : Cursors where
  position := String.length
  cursorOf n := String.ofList (List.replicate n 'x')
  position_empty := rfl
  position_cursorOf n := by rw [String.length_ofList, List.length_replicate]

def emptyFeed : Polling := ⟨freshValidator, []⟩

/-- A row of one key, and two polls. -/
def publishAndPoll (row : LLMKeyUsageReport) : List PollAction :=
  [.publish [row], .poll 5 none (.ok 10) (.ok []), .poll 1000 none (.ok 10) (.ok [])]

def gradedRow : LLMKeyUsageReport :=
  { hotkey := "hk", keyId := some 7, successCount := 20, avgLatencyMs := some (.fin 100) }

instance (s : Polling) : Decidable (FoldedOnce c s) :=
  inferInstanceAs (Decidable (List.Sublist _ _))

/-- More calls than any float, with a latency to multiply them with. -/
def hugeRow : LLMKeyUsageReport :=
  { hotkey := "hk", keyId := some 7, successCount := 2 ^ 1024, avgLatencyMs := some (.fin 100) }

end TaoSubnet
