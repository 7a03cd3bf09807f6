import TaoSubnet.LlmKey.Poll

/-!
# What can happen to the windows

Two windows, an epoch record and the history: apart from a roll, three kinds of write reach them —
a kill, an eviction and a fold. `WindowInvariant I` is what `I` has to survive for all of the code
below the roll to keep it, and the lemmas after it are the code, function by function. Whatever is
proved about windows over runs (`Clock`, `Accounts`) is an instance.

A fold can raise half way, with the counts of its row already stored. It is therefore not part of
`WindowInvariant`: `spec_pollReports` takes what is known about a fold as a hypothesis.
-/

namespace TaoSubnet

open Py

variable (cfg : LlmKeyConfig)

/-- The windows, the record and the history read the same. -/
def SameWindows (v v' : Validator) : Prop :=
  v'.llmKeyPendingCalls = v.llmKeyPendingCalls ∧
  v'.llmKeyLastEpochCalls = v.llmKeyLastEpochCalls ∧
  v'.llmKeyEpochStartBlock = v.llmKeyEpochStartBlock ∧
  v'.history = v.history

/-- What an eviction writes to the windows. -/
def evict (v : Validator) (hotkey : String) : Validator :=
  { v with
    llmKeyPendingCalls := v.llmKeyPendingCalls.erase hotkey
    history := v.history ++ [.evicted hotkey] }

/-- A statement about windows that kills and evictions keep. -/
structure WindowInvariant (I : Validator → Prop) : Prop where
  frame : ∀ {v v' : Validator}, I v → SameWindows v v' → I v'
  kill : ∀ (v : Validator) (hotkey subKey reason : String), I v →
    I (killHotkeyKey v hotkey subKey reason)
  evict : ∀ (v : Validator) (hotkey : String), I v → I (evict v hotkey)

namespace WindowInvariant

variable {I : Validator → Prop} (hI : WindowInvariant I)

include hI

/-- An update of anything but the windows. -/
theorem keeps_modify {f : Validator → Validator} (h : ∀ v, SameWindows v (f v)) :
    Prog.Keeps I (Prog.modify f : Method Unit) :=
  Prog.Keeps.modify fun v hv => hI.frame hv (h v)

theorem keeps_kill (hotkey subKey reason : String) :
    Prog.Keeps I (Prog.modify fun v => killHotkeyKey v hotkey subKey reason : Method Unit) :=
  Prog.Keeps.modify fun v hv => hI.kill v hotkey subKey reason hv

theorem keeps_killFlooredKeys (hotkey : String) (keys : List (String × SubWindow)) :
    Prog.Keeps I (killFlooredKeys cfg hotkey keys) := by
  refine Prog.Keeps.forEach keys fun entry _ => ?_
  obtain ⟨subKey, sub⟩ := entry
  refine Prog.Keeps.bind (Prog.Keeps.ofExcept _) fun reason => ?_
  cases reason with
  | none => exact Prog.Keeps.ret ()
  | some reason => exact hI.keeps_kill hotkey subKey reason

theorem keeps_scoreHotkey (hotkey : String) : Prog.Keeps I (scoreHotkey cfg hotkey) := by
  refine Prog.Keeps.bind Prog.Keeps.get fun v => ?_
  refine Prog.Keeps.bind (hI.keeps_killFlooredKeys cfg hotkey _) fun _ => ?_
  refine Prog.Keeps.bind Prog.Keeps.get fun v => ?_
  cases v.llmKeyLastEpochCalls.get? hotkey with
  | none => exact Prog.Keeps.ret ()
  | some acc =>
    refine Prog.Keeps.bind (hI.keeps_modify fun _ => ⟨rfl, rfl, rfl, rfl⟩) fun _ => ?_
    refine Prog.Keeps.ite (Prog.Keeps.ret ()) ?_
    refine Prog.Keeps.ite ?_ (Prog.Keeps.ret ())
    refine Prog.Keeps.ite (Prog.Keeps.ret ()) ?_
    refine Prog.Keeps.bind (Prog.Keeps.ofExcept _) fun reward => ?_
    exact hI.keeps_modify fun _ => ⟨rfl, rfl, rfl, rfl⟩

/-- Scoring only ever kills, also where it raises. -/
theorem keeps_scoreLastEpoch : Prog.Keeps I (scoreLastEpoch cfg) := by
  refine Prog.Keeps.bind Prog.Keeps.get fun before => ?_
  refine Prog.Keeps.tryExcept ?_ fun e => ?_
  · refine Prog.Keeps.bind (hI.keeps_modify fun _ => ⟨rfl, rfl, rfl, rfl⟩) fun _ => ?_
    exact Prog.Keeps.forEach _ fun hotkey _ => hI.keeps_scoreHotkey cfg hotkey
  · refine Prog.Keeps.bind (hI.keeps_modify fun _ => ⟨rfl, rfl, rfl, rfl⟩) fun _ => ?_
    exact Prog.Keeps.raise e

theorem keeps_pollRoster (roster : Except Exc (List LLMKeyRosterEntry)) :
    Prog.Keeps I (pollLlmKeyRoster roster) := by
  cases roster with
  | error e => exact Prog.Keeps.ret ()
  | ok roster =>
    refine Prog.Keeps.forEach roster fun entry _ => ?_
    refine Prog.Keeps.ite ?_ (Prog.Keeps.ret ())
    refine Prog.Keeps.bind Prog.Keeps.get fun v => ?_
    exact Prog.Keeps.ite (hI.keeps_kill _ _ _) (Prog.Keeps.ret ())

theorem pruneHotkey (now : ℚ) {v : Validator} (hotkey : String) (h : I v) :
    I (pruneHotkey cfg now v hotkey) := by
  unfold TaoSubnet.pruneHotkey
  split
  · exact h
  · split
    · exact hI.frame h ⟨rfl, rfl, rfl, rfl⟩
    · split
      · exact hI.frame h ⟨rfl, rfl, rfl, rfl⟩
      · split
        · exact hI.frame (hI.evict v hotkey h) ⟨rfl, rfl, rfl, rfl⟩
        · exact h

theorem prune (now : ℚ) {v : Validator} (h : I v) : I (pruneLlmKeyHotkeyStatus cfg now v) := by
  unfold pruneLlmKeyHotkeyStatus
  generalize v.llmKeyHotkeyStatus.keys = hotkeys
  induction hotkeys generalizing v with
  | nil => exact h
  | cons hotkey rest ih => exact ih (hI.pruneHotkey cfg now hotkey h)

theorem resync {v : Validator} (hotkeys : List String) (axonsChanged : Bool) (h : I v) :
    I (resyncMetagraph v hotkeys axonsChanged) := by
  unfold resyncMetagraph
  cases axonsChanged
  · exact hI.frame h ⟨rfl, rfl, rfl, rfl⟩
  · exact hI.frame h ⟨rfl, rfl, rfl, rfl⟩

theorem spec_modify {E : Exc → Validator → Prop} (hE : ∀ e v, I v → E e v)
    {f : Validator → Validator} (h : ∀ v, SameWindows v (f v)) :
    Prog.Spec I (Prog.modify f : Method Unit) (fun _ => I) E :=
  (hI.keeps_modify h).spec hE

/-- One row of a poll, given what a fold does. -/
theorem spec_processReport {E : Exc → Validator → Prop} (hE : ∀ e v, I v → E e v)
    (hfold : ∀ hotkey report now,
      Prog.Spec I (foldReportIntoPending hotkey report now) (fun _ => I) E)
    (now : ℚ) (report : LLMKeyUsageReport) :
    Prog.Spec I (processReport now report) (fun _ => I) E := by
  refine Prog.Spec.bind (Prog.Keeps.get.spec hE) fun v => ?_
  refine Prog.Spec.ite ?_ ((Prog.Keeps.ret ()).spec hE)
  refine Prog.Spec.bind (hI.spec_modify hE fun _ => ⟨rfl, rfl, rfl, rfl⟩) fun _ => ?_
  refine Prog.Spec.ite ((hI.keeps_kill _ _ _).spec hE) ?_
  exact Prog.Spec.ite ((hI.keeps_kill _ _ _).spec hE) (hfold report.hotkey report now)

/-- Everything a poll does after its roll. -/
theorem spec_pollReports {E : Exc → Validator → Prop} (hE : ∀ e v, I v → E e v)
    (hfold : ∀ hotkey report now,
      Prog.Spec I (foldReportIntoPending hotkey report now) (fun _ => I) E)
    (input : PollInput) : Prog.Spec I (pollReports cfg input) (fun _ => I) E := by
  unfold pollReports
  split
  · exact hI.spec_modify hE fun _ => ⟨rfl, rfl, rfl, rfl⟩
  · refine Prog.Spec.bind (Prog.Spec.forEach _ fun report _ =>
      hI.spec_processReport hE hfold input.now report) fun _ => ?_
    refine Prog.Spec.bind ((hI.keeps_pollRoster _).spec hE) fun _ => ?_
    refine Prog.Spec.bind
      ((Prog.Keeps.modify fun _ hv => hI.prune cfg input.now hv).spec hE) fun _ => ?_
    refine Prog.Spec.bind ((hI.keeps_scoreLastEpoch cfg).spec hE) fun _ => ?_
    exact hI.spec_modify hE fun _ => ⟨rfl, rfl, rfl, rfl⟩

end WindowInvariant

/-! ## A fold -/

/-- What a fold can leave behind, also where it raises: nothing, for a malformed row, or one row more
    in the history and an open window that is not the old one. -/
theorem fold_cases (hotkey : String) (report : LLMKeyUsageReport) (now : ℚ) (v : Validator) :
    ((report.successCount < 0 ∨ report.failureCount < 0) ∧
        (foldReportIntoPending hotkey report now v).2 = v) ∨
      ((foldReportIntoPending hotkey report now v).2.history = v.history ++
          [.folded hotkey (reportSubKey report) report (tierForReport v hotkey report)] ∧
        (foldReportIntoPending hotkey report now v).2.llmKeyLastEpochCalls =
          v.llmKeyLastEpochCalls ∧
        (foldReportIntoPending hotkey report now v).2.llmKeyEpochStartBlock =
          v.llmKeyEpochStartBlock) := by
  unfold foldReportIntoPending
  split
  · rename_i hnegative
    exact .inl ⟨hnegative, rfl⟩
  · right
    rw [Prog.bind_ok (Prog.get_run v)]
    simp only [subWindowFor]
    rw [Prog.bind_ok (Prog.modify_run _ _)]
    generalize (v.llmKeyPendingCalls.get? hotkey).getD ⟨∅, now, now⟩ = acc
    generalize hs : SubWindow.addLatency (SubWindow.addCounts _ report) report = latency
    cases latency with
    | error e => exact ⟨rfl, rfl, rfl⟩
    | ok sub =>
      rw [Prog.bind_ok (Prog.ofExcept_run _ _), Prog.bind_ok (Prog.modify_run _ _)]
      cases sub.addQuality report with
      | error e => exact ⟨rfl, rfl, rfl⟩
      | ok sub' =>
        rw [Prog.bind_ok (Prog.ofExcept_run _ _), Prog.bind_ok (Prog.modify_run _ _)]
        split <;> exact ⟨rfl, rfl, rfl⟩

/-! ## What is aside of the windows -/

/-- The metagraph, the cursor and the scores read the same. -/
def SameAside (v v' : Validator) : Prop :=
  v'.metagraphHotkeys = v.metagraphHotkeys ∧
  v'.lastLlmKeyReportCursor = v.lastLlmKeyReportCursor ∧
  v'.scores = v.scores

/-- A statement about these three. The rows, the roster and the prune of a round keep it. -/
def Aside (I : Validator → Prop) : Prop := ∀ {v v' : Validator}, I v → SameAside v v' → I v'

namespace Aside

variable {I : Validator → Prop} (hI : Aside I)

include hI

theorem keeps_modify {f : Validator → Validator} (h : ∀ v, SameAside v (f v)) :
    Prog.Keeps I (Prog.modify f : Method Unit) :=
  Prog.Keeps.modify fun v hv => hI hv (h v)

theorem keeps_kill (hotkey subKey reason : String) :
    Prog.Keeps I (Prog.modify fun v => killHotkeyKey v hotkey subKey reason : Method Unit) :=
  hI.keeps_modify fun _ => ⟨rfl, rfl, rfl⟩

theorem keeps_fold (hotkey : String) (report : LLMKeyUsageReport) (now : ℚ) :
    Prog.Keeps I (foldReportIntoPending hotkey report now) := by
  refine Prog.Keeps.ite (Prog.Keeps.ret ()) ?_
  refine Prog.Keeps.bind Prog.Keeps.get fun v => ?_
  refine Prog.Keeps.bind (hI.keeps_modify fun _ => ⟨rfl, rfl, rfl⟩) fun _ => ?_
  refine Prog.Keeps.bind (Prog.Keeps.ofExcept _) fun sub => ?_
  refine Prog.Keeps.bind (hI.keeps_modify fun _ => ⟨rfl, rfl, rfl⟩) fun _ => ?_
  refine Prog.Keeps.bind (Prog.Keeps.ofExcept _) fun sub' => ?_
  refine Prog.Keeps.bind (hI.keeps_modify fun _ => ⟨rfl, rfl, rfl⟩) fun _ => ?_
  exact Prog.Keeps.ite (hI.keeps_modify fun _ => ⟨rfl, rfl, rfl⟩) (Prog.Keeps.ret ())

theorem keeps_processReport (now : ℚ) (report : LLMKeyUsageReport) :
    Prog.Keeps I (processReport now report) := by
  refine Prog.Keeps.bind Prog.Keeps.get fun v => ?_
  refine Prog.Keeps.ite ?_ (Prog.Keeps.ret ())
  refine Prog.Keeps.bind (hI.keeps_modify fun _ => ⟨rfl, rfl, rfl⟩) fun _ => ?_
  refine Prog.Keeps.ite (hI.keeps_kill _ _ _) ?_
  exact Prog.Keeps.ite (hI.keeps_kill _ _ _) (hI.keeps_fold _ _ _)

theorem keeps_pollRoster (roster : Except Exc (List LLMKeyRosterEntry)) :
    Prog.Keeps I (pollLlmKeyRoster roster) := by
  cases roster with
  | error e => exact Prog.Keeps.ret ()
  | ok roster =>
    refine Prog.Keeps.forEach _ fun entry _ => ?_
    refine Prog.Keeps.ite ?_ (Prog.Keeps.ret ())
    refine Prog.Keeps.bind Prog.Keeps.get fun v => ?_
    exact Prog.Keeps.ite (hI.keeps_kill _ _ _) (Prog.Keeps.ret ())

theorem pruneHotkey (now : ℚ) {v : Validator} (hotkey : String) (h : I v) :
    I (pruneHotkey cfg now v hotkey) := by
  refine hI h ?_
  unfold TaoSubnet.pruneHotkey
  split
  · exact ⟨rfl, rfl, rfl⟩
  · split
    · exact ⟨rfl, rfl, rfl⟩
    · split
      · exact ⟨rfl, rfl, rfl⟩
      · split
        · exact ⟨rfl, rfl, rfl⟩
        · exact ⟨rfl, rfl, rfl⟩

theorem prune (now : ℚ) {v : Validator} (h : I v) : I (pruneLlmKeyHotkeyStatus cfg now v) := by
  unfold pruneLlmKeyHotkeyStatus
  generalize v.llmKeyHotkeyStatus.keys = hotkeys
  induction hotkeys generalizing v with
  | nil => exact h
  | cons hotkey rest ih => exact ih (hI.pruneHotkey cfg now hotkey h)

end Aside

/-! ## One roll -/

/-- **What a roll can do**: nothing (unreadable, or the same epoch), fold a sliver, or move the
    windows and score. -/
theorem roll_cases (chain : Option ChainReads) (v : Validator) :
    ((currentEpochStartBlock chain = none ∨
        ∃ start, currentEpochStartBlock chain = some start ∧
          some start = v.llmKeyEpochStartBlock) ∧
      rollEpochIfNeeded cfg chain v = (.ok (), v)) ∨
    (∃ start, currentEpochStartBlock chain = some start ∧ some start ≠ v.llmKeyEpochStartBlock ∧
      isSliver v.llmKeyEpochStartBlock (epochLengthBlocks chain) start = true ∧
      rollEpochIfNeeded cfg chain v = (.ok (), { v with llmKeyEpochStartBlock := some start })) ∨
    (∃ start, currentEpochStartBlock chain = some start ∧ some start ≠ v.llmKeyEpochStartBlock ∧
      isSliver v.llmKeyEpochStartBlock (epochLengthBlocks chain) start = false ∧
      rollEpochIfNeeded cfg chain v = scoreLastEpoch cfg (moveWindows v start
        (isContiguous v.llmKeyEpochStartBlock (epochLengthBlocks chain) start))) := by
  unfold rollEpochIfNeeded
  rw [Prog.bind_ok (Prog.get_run v)]
  cases hs : currentEpochStartBlock chain with
  | none =>
    left
    exact ⟨.inl rfl, rfl⟩
  | some start =>
    by_cases hp : some start = v.llmKeyEpochStartBlock
    · left
      refine ⟨.inr ⟨start, rfl, hp⟩, ?_⟩
      simp only [hp, if_true]
      rfl
    · right
      cases hv : isSliver v.llmKeyEpochStartBlock (epochLengthBlocks chain) start with
      | true =>
        left
        refine ⟨start, rfl, hp, hv, ?_⟩
        simp only [hp, hv, if_true, if_false]
        rfl
      | false =>
        right
        refine ⟨start, rfl, hp, hv, ?_⟩
        simp only [hp, hv, if_false]
        rfl

/-! ## One operation -/

/-- A poll inside its interval returns before it reads anything. -/
def Op.waits (cfg : LlmKeyConfig) (v : Validator) : Op → Prop
  | .poll input => v.lastLlmKeyReportPollAt ≠ 0 ∧
      input.now - v.lastLlmKeyReportPollAt < max 0 cfg.reportPollIntervalSeconds
  | _ => False

instance (v : Validator) : DecidablePred (Op.waits cfg v) := fun op => by
  cases op <;> unfold Op.waits <;> infer_instance

/-- **What a poll round can do**: wait, end in its roll, or go on after it. -/
theorem poll_cases (input : PollInput) (v : Validator) :
    ((Op.poll input).waits cfg v ∧ llmKeyReportPollRound cfg input v = (.ok (), v)) ∨
    (¬ (Op.poll input).waits cfg v ∧ ∃ e v', rollEpochIfNeeded cfg input.chain v = (.error e, v') ∧
      llmKeyReportPollRound cfg input v = (.error e, v')) ∨
    (¬ (Op.poll input).waits cfg v ∧ ∃ v', rollEpochIfNeeded cfg input.chain v = (.ok (), v') ∧
      llmKeyReportPollRound cfg input v = pollReports cfg input v') := by
  unfold llmKeyReportPollRound
  rw [Prog.bind_ok (Prog.get_run v)]
  by_cases hw : (Op.poll input).waits cfg v
  · left
    refine ⟨hw, ?_⟩
    rw [if_pos (show v.lastLlmKeyReportPollAt ≠ 0 ∧ _ from hw)]
    rfl
  · right
    rw [if_neg (show ¬ (v.lastLlmKeyReportPollAt ≠ 0 ∧ _) from hw)]
    rcases hr : rollEpochIfNeeded cfg input.chain v with ⟨e | _, v'⟩
    · left
      exact ⟨hw, e, v', rfl, Prog.bind_error hr⟩
    · right
      exact ⟨hw, v', rfl, Prog.bind_ok hr⟩

theorem run_setWeights (chain : Option ChainReads) (v : Validator) :
    (Op.run cfg (.setWeights chain) v).2 = (setWeights cfg chain v).2 := by
  show ((setWeights cfg chain >>= fun _ => (pure () : Method Unit)) v).2 = _
  rcases hr : setWeights cfg chain v with ⟨e | _, v'⟩
  · rw [Prog.bind_error hr]
  · rw [Prog.bind_ok hr]
    rfl

/-- A run: the operations in order, each from the state the one before it left, also when that
    one raised. -/
def runOps (v : Validator) (ops : List Op) : Validator :=
  ops.foldl (fun v op => (op.run cfg v).2) v

/-! ## A small validator -/

/-- A chain inside the epoch that began at `start`, at the nominal length `length`. -/
def chainAt (length start : Int) : Option ChainReads :=
  some
    { getCurrentBlock := .ok (some start)
      blocksSinceLastStep := fun _ => .ok (some 0)
      tempo := .ok (some (length - 1)) }

/-- One miner, nothing recorded yet. -/
def freshValidator : Validator := { metagraphHotkeys := ["hk"], scores := [0] }

/-- Twenty good calls of one key, folded in the epoch that began at block 1000. -/
def goodPoll : Op :=
  .poll
    { now := 5
      chain := chainAt 361 1000
      reports := .ok ([{ hotkey := "hk", keyId := some 7, successCount := 20 }], none)
      roster := .ok [] }

end TaoSubnet
