import TaoSubnet.Proof.LlmKey.Scores
import TaoSubnet.Proof.LlmKey.Windows

/-!
# The score vector is a cache

`_score_last_epoch` fills a vector of zeros from the windows and the record, so nothing but the length
of the old vector has a part in the new one. Two validators that differ in their scores alone do the
same ever after, and submit the same weights.
-/

namespace TaoSubnet

open Py

/-- The same validator, up to the values of its score vector. -/
def SameButScores (v w : Validator) : Prop :=
  ∃ scores, scores.length = v.scores.length ∧ w = { v with scores := scores }

theorem SameButScores.refl (v : Validator) : SameButScores v v := ⟨v.scores, rfl, rfl⟩

variable (cfg : LlmKeyConfig)

/-! ## Scoring -/

theorem zeroed_sameButScores {v w : Validator} (h : SameButScores v w) : zeroed w = zeroed v := by
  obtain ⟨scores, hlength, rfl⟩ := h
  unfold zeroed
  rw [hlength]

/-- The loop over the hotkeys of the paid window, from a vector of zeros. -/
def scoreAll (v : Validator) : Except Exc Unit × Validator :=
  Prog.forEach v.llmKeyLastEpochCalls.keys (scoreHotkey cfg) (zeroed v)

theorem scoreLastEpoch_of_ok {v w : Validator} (h : scoreAll cfg v = (.ok (), w)) :
    scoreLastEpoch cfg v = (.ok (), w) := by
  unfold scoreLastEpoch
  rw [Prog.bind_ok (Prog.get_run v)]
  apply Prog.tryExcept_ok
  exact (Prog.bind_ok (Prog.modify_run _ v)).trans h

theorem scoreLastEpoch_of_error {v w : Validator} {e : Exc} (h : scoreAll cfg v = (.error e, w)) :
    scoreLastEpoch cfg v = (.error e, { w with scores := v.scores }) := by
  unfold scoreLastEpoch
  rw [Prog.bind_ok (Prog.get_run v),
    Prog.tryExcept_error ((Prog.bind_ok (Prog.modify_run _ v)).trans h)]
  rfl

theorem scoreAll_sameButScores {v w : Validator} (h : SameButScores v w) :
    scoreAll cfg w = scoreAll cfg v := by
  have hzeroed := zeroed_sameButScores h
  obtain ⟨scores, -, rfl⟩ := h
  unfold scoreAll
  rw [hzeroed]

/-- Scoring makes one state of the two, or raises alike. -/
theorem scoreLastEpoch_sameButScores {v w : Validator} (h : SameButScores v w) :
    (∃ scored, scoreLastEpoch cfg v = (.ok (), scored) ∧ scoreLastEpoch cfg w = (.ok (), scored)) ∨
    (∃ e v' w', scoreLastEpoch cfg v = (.error e, v') ∧ scoreLastEpoch cfg w = (.error e, w') ∧
      SameButScores v' w') := by
  have hsame := scoreAll_sameButScores cfg h
  rcases hrun : scoreAll cfg v with ⟨e | done, scored⟩
  · rw [hrun] at hsame
    obtain ⟨scores, hlength, rfl⟩ := h
    exact .inr ⟨e, _, _, scoreLastEpoch_of_error cfg hrun, scoreLastEpoch_of_error cfg hsame, scores,
      hlength, rfl⟩
  · rw [hrun] at hsame
    exact .inl ⟨scored, scoreLastEpoch_of_ok cfg hrun, scoreLastEpoch_of_ok cfg hsame⟩

theorem rescored_scoreLastEpoch :
    Prog.Rel SameButScores (scoreLastEpoch cfg) (scoreLastEpoch cfg) := by
  intro v w h
  rcases scoreLastEpoch_sameButScores cfg h with ⟨scored, hv, hw⟩ | ⟨e, v', w', hv, hw, hsame⟩
  · rw [hv, hw]
    exact ⟨rfl, .refl scored⟩
  · rw [hv, hw]
    exact ⟨rfl, hsame⟩

/-! ## The operations -/

/-- A write that neither reads nor touches the scores. -/
theorem rescored_modify {f : Validator → Validator}
    (h : ∀ v scores, f { v with scores := scores } = { f v with scores := scores })
    (hscores : ∀ v, (f v).scores = v.scores) :
    Prog.Rel SameButScores (Prog.modify f : Method Unit) (Prog.modify f) := by
  refine Prog.Rel.modify ?_
  rintro v _ ⟨scores, hlength, rfl⟩
  refine ⟨scores, ?_, h v scores⟩
  rw [hscores, hlength]

theorem rescored_roll (chain : Option ChainReads) :
    Prog.Rel SameButScores (rollEpochIfNeeded cfg chain) (rollEpochIfNeeded cfg chain) := by
  refine Prog.Rel.get_bind ?_
  rintro v _ ⟨scores, hlength, rfl⟩
  dsimp only
  cases currentEpochStartBlock chain with
  | none => exact Prog.Rel.ret ()
  | some start =>
    dsimp only
    by_cases hsame : some start = v.llmKeyEpochStartBlock
    · rw [if_pos hsame]
      exact Prog.Rel.ret ()
    · rw [if_neg hsame]
      by_cases hsliver : isSliver v.llmKeyEpochStartBlock (epochLengthBlocks chain) start
      · rw [if_pos hsliver]
        exact rescored_modify (fun _ _ => rfl) fun _ => rfl
      · rw [if_neg hsliver]
        exact Prog.Rel.bind (rescored_modify (fun _ _ => rfl) fun _ => rfl) fun _ =>
          rescored_scoreLastEpoch cfg

theorem rescored_fold (hotkey : String) (report : LLMKeyUsageReport) (now : ℚ) :
    Prog.Rel SameButScores (foldReportIntoPending hotkey report now)
      (foldReportIntoPending hotkey report now) := by
  unfold foldReportIntoPending
  split
  · exact Prog.Rel.ret ()
  · refine Prog.Rel.get_bind ?_
    rintro v _ ⟨scores, hlength, rfl⟩
    refine Prog.Rel.bind (rescored_modify (fun _ _ => rfl) fun _ => rfl) fun _ => ?_
    refine Prog.Rel.bind (Prog.Rel.ofExcept _) fun latency => ?_
    refine Prog.Rel.bind (rescored_modify (fun _ _ => rfl) fun _ => rfl) fun _ => ?_
    refine Prog.Rel.bind (Prog.Rel.ofExcept _) fun quality => ?_
    refine Prog.Rel.bind (rescored_modify (fun _ _ => rfl) fun _ => rfl) fun _ => ?_
    split
    · exact rescored_modify (fun _ _ => rfl) fun _ => rfl
    · exact Prog.Rel.ret ()

theorem rescored_processReport (now : ℚ) (report : LLMKeyUsageReport) :
    Prog.Rel SameButScores (processReport now report) (processReport now report) := by
  refine Prog.Rel.get_bind ?_
  rintro v _ ⟨scores, hlength, rfl⟩
  dsimp only
  split
  · refine Prog.Rel.bind (rescored_modify (fun _ _ => rfl) fun _ => rfl) fun _ => ?_
    split
    · exact rescored_modify (fun _ _ => rfl) fun _ => rfl
    · split
      · exact rescored_modify (fun _ _ => rfl) fun _ => rfl
      · exact rescored_fold report.hotkey report now
  · exact Prog.Rel.ret ()

theorem rescored_roster (roster : Except Exc (List LLMKeyRosterEntry)) :
    Prog.Rel SameButScores (pollLlmKeyRoster roster) (pollLlmKeyRoster roster) := by
  cases roster with
  | error e => exact Prog.Rel.ret ()
  | ok entries =>
    refine Prog.Rel.forEach entries fun entry _ => ?_
    unfold processRosterEntry
    split
    · refine Prog.Rel.get_bind ?_
      rintro v _ ⟨scores, hlength, rfl⟩
      dsimp only
      split
      · exact rescored_modify (fun _ _ => rfl) fun _ => rfl
      · exact Prog.Rel.ret ()
    · exact Prog.Rel.ret ()

/-- One entry of the record, looked at by the prune. -/
theorem sameButScores_pruneHotkey (now : ℚ) (hotkey : String) {v w : Validator}
    (h : SameButScores v w) :
    SameButScores (pruneHotkey cfg now v hotkey) (pruneHotkey cfg now w hotkey) := by
  obtain ⟨scores, hlength, rfl⟩ := h
  unfold pruneHotkey
  dsimp only
  cases v.llmKeyHotkeyStatus.get? hotkey with
  | none => exact ⟨scores, hlength, rfl⟩
  | some status =>
    dsimp only
    split
    · exact ⟨scores, hlength, rfl⟩
    · cases status.missingSince with
      | none => exact ⟨scores, hlength, rfl⟩
      | some since =>
        dsimp only
        split
        · exact ⟨scores, hlength, rfl⟩
        · exact ⟨scores, hlength, rfl⟩

theorem sameButScores_prune (now : ℚ) {v w : Validator} (h : SameButScores v w) :
    SameButScores (pruneLlmKeyHotkeyStatus cfg now v) (pruneLlmKeyHotkeyStatus cfg now w) := by
  have hkeys : w.llmKeyHotkeyStatus.keys = v.llmKeyHotkeyStatus.keys := by
    obtain ⟨scores, -, rfl⟩ := h
    rfl
  unfold pruneLlmKeyHotkeyStatus
  rw [hkeys]
  clear hkeys
  generalize v.llmKeyHotkeyStatus.keys = hotkeys
  induction hotkeys generalizing v w with
  | nil => exact h
  | cons hotkey rest ih => exact ih (sameButScores_pruneHotkey cfg now hotkey h)

theorem rescored_pollReports (input : PollInput) :
    Prog.Rel SameButScores (pollReports cfg input) (pollReports cfg input) := by
  unfold pollReports
  cases input.reports with
  | error e => exact rescored_modify (fun _ _ => rfl) fun _ => rfl
  | ok answer =>
    obtain ⟨reports, nextSince⟩ := answer
    dsimp only
    refine Prog.Rel.bind (Prog.Rel.forEach reports fun report _ =>
      rescored_processReport input.now report) fun _ => ?_
    refine Prog.Rel.bind (rescored_roster input.roster) fun _ => ?_
    refine Prog.Rel.bind (Prog.Rel.modify fun v w => sameButScores_prune cfg input.now) fun _ => ?_
    refine Prog.Rel.bind (rescored_scoreLastEpoch cfg) fun _ => ?_
    exact rescored_modify (fun _ _ => rfl) fun _ => rfl

theorem rescored_pollRound (input : PollInput) :
    Prog.Rel SameButScores (llmKeyReportPollRound cfg input) (llmKeyReportPollRound cfg input) := by
  refine Prog.Rel.get_bind ?_
  rintro v _ ⟨scores, hlength, rfl⟩
  dsimp only
  split
  · exact Prog.Rel.ret ()
  · exact Prog.Rel.bind (rescored_roll cfg input.chain) fun _ => rescored_pollReports cfg input

/-- A sync zeroes, cuts and pads by place: the lengths stay the same. -/
theorem sameButScores_resync (hotkeys : List String) (axonsChanged : Bool) {v w : Validator}
    (h : SameButScores v w) : SameButScores (resyncMetagraph v hotkeys axonsChanged)
      (resyncMetagraph w hotkeys axonsChanged) := by
  obtain ⟨scores, hlength, rfl⟩ := h
  unfold resyncMetagraph
  cases axonsChanged with
  | false => exact ⟨scores, hlength, rfl⟩
  | true =>
    refine ⟨_, ?_, rfl⟩
    simp [hlength]

/-! ## Submissions -/

/-- **What is submitted does not come from the old scores.** -/
theorem setWeights_sameButScores (chain : Option ChainReads) {v w : Validator}
    (h : SameButScores v w) : (setWeights cfg chain w).1 = (setWeights cfg chain v).1 ∧
      SameButScores (setWeights cfg chain v).2 (setWeights cfg chain w).2 := by
  obtain ⟨hend, hsame⟩ := rescored_roll cfg chain v w h
  unfold setWeights
  rcases hv : rollEpochIfNeeded cfg chain v with ⟨e | done, v'⟩ <;>
    rcases hw : rollEpochIfNeeded cfg chain w with ⟨e' | done', w'⟩ <;> rw [hv, hw] at hend hsame
  · rw [Prog.bind_error hv, Prog.bind_error hw]
    exact ⟨congrArg Except.error (Except.error.inj hend).symm, hsame⟩
  · cases hend
  · cases hend
  · rw [Prog.bind_ok hv, Prog.bind_ok hw]
    rcases scoreLastEpoch_sameButScores cfg hsame with ⟨scored, hv, hw⟩ | ⟨e, v₂, w₂, hv, hw, hsame⟩
    · rw [Prog.bind_ok hv, Prog.bind_ok hw]
      exact ⟨rfl, .refl scored⟩
    · rw [Prog.bind_error hv, Prog.bind_error hw]
      exact ⟨rfl, hsame⟩

theorem sameButScores_op (op : Op) {v w : Validator} (h : SameButScores v w) :
    SameButScores (op.run cfg v).2 (op.run cfg w).2 := by
  cases op with
  | poll input => exact (rescored_pollRound cfg input v w h).2
  | roll chain => exact (rescored_roll cfg chain v w h).2
  | setWeights chain =>
    rw [run_setWeights, run_setWeights]
    exact (setWeights_sameButScores cfg chain h).2
  | score => exact (rescored_scoreLastEpoch cfg v w h).2
  | kill hotkey subKey reason =>
    obtain ⟨scores, hlength, rfl⟩ := h
    exact ⟨scores, hlength, rfl⟩
  | prune now => exact sameButScores_prune cfg now h
  | submission hotkey uid accepted status reason results now =>
    obtain ⟨scores, hlength, rfl⟩ := h
    exact ⟨scores, hlength, rfl⟩
  | resync hotkeys axonsChanged => exact sameButScores_resync hotkeys axonsChanged h

/-- A run later the two still differ in their scores alone. -/
theorem sameButScores_run (ops : List Op) {v w : Validator} (h : SameButScores v w) :
    SameButScores (runOps cfg v ops) (runOps cfg w ops) := by
  induction ops generalizing v w with
  | nil => exact h
  | cons op rest ih => exact ih (sameButScores_op cfg op h)

end TaoSubnet
