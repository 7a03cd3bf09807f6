import TaoSubnet.LlmKey.Epoch

/-!
# The report poll, the weight array, and the validator as a system

`neurons/validator.py`, `llm_key_report_poll_round` with what it calls, `_blended_weight_array` and
`set_weights`, and `resync_metagraph` of `template/base/validator.py`. `Op` lists everything that
writes the LLM-key state once it is loaded; a run of the validator is a list of them.
-/

namespace TaoSubnet

open Py

/-! ## Inside a poll round -/

/-- The status update every known row makes, whatever becomes of its counts. -/
def recordReport (v : Validator) (report : LLMKeyUsageReport) (uid : Nat) (now : ℚ) : Validator :=
  let status := (v.llmKeyHotkeyStatus.get? report.hotkey).getD {}
  { v with
    llmKeyHotkeyStatus := v.llmKeyHotkeyStatus.insert report.hotkey
      { status with
        uid := some uid, lastReportAt := some now, keyActive := some report.keyActive } }

/-- The body of the loop over the rows of one poll. -/
def processReport (now : ℚ) (report : LLMKeyUsageReport) : Method Unit := do
  let v ← Prog.get
  let uid := v.metagraphHotkeys.idxOf report.hotkey
  if uid < v.metagraphHotkeys.length then
    Prog.modify fun v => recordReport v report uid now
    let subKey := reportSubKey report
    if !report.keyActive then
      Prog.modify fun v => killHotkeyKey v report.hotkey subKey "report row marked key inactive"
    else if hasFatalErrorCategory report.errorCategories then
      Prog.modify fun v => killHotkeyKey v report.hotkey subKey
        ("fatal error category in usage report: " ++
          reprStrList (report.errorCategories.mergeSort (· ≤ ·)))
    else foldReportIntoPending report.hotkey report now
  -- otherwise an unknown or deregistered hotkey: skipped rather than guessed

/-- One roster entry: only a confirmed-gone key of a hotkey already on file is cut. -/
def processRosterEntry (entry : LLMKeyRosterEntry) : Method Unit := do
  if entry.status = "DEAD" ∨ entry.status = "REVOKED" then
    let v ← Prog.get
    if v.llmKeyHotkeyStatus.contains entry.hotkey then
      Prog.modify fun v => killHotkeyKey v entry.hotkey
        (subKeyOf entry.keyId entry.provider entry.model)
        ("roster reports key " ++ entry.status)

/-- `_poll_llm_key_roster`: a failed request leaves everything alone. -/
def pollLlmKeyRoster : Except Exc (List LLMKeyRosterEntry) → Method Unit
  | .error _ => pure ()
  | .ok roster => Prog.forEach roster processRosterEntry

/-- One status entry of `_prune_llm_key_hotkey_status`. -/
def pruneHotkey (cfg : LlmKeyConfig) (now : ℚ) (v : Validator) (hotkey : String) : Validator :=
  match v.llmKeyHotkeyStatus.get? hotkey with
  | none => v
  | some status =>
    if v.metagraphHotkeys.contains hotkey then
      { v with
        llmKeyHotkeyStatus := v.llmKeyHotkeyStatus.insert hotkey { status with missingSince := none } }
    else
      match status.missingSince with
      | none =>
        { v with
          llmKeyHotkeyStatus :=
            v.llmKeyHotkeyStatus.insert hotkey { status with missingSince := some now } }
      | some since =>
        if max 0 cfg.hotkeyStatusEvictionGraceSeconds ≤ now - since then
          { v with
            llmKeyHotkeyStatus := v.llmKeyHotkeyStatus.erase hotkey
            llmKeyPendingCalls := v.llmKeyPendingCalls.erase hotkey
            history := v.history ++ [.evicted hotkey] }
        else v

/-- `_prune_llm_key_hotkey_status`. -/
def pruneLlmKeyHotkeyStatus (cfg : LlmKeyConfig) (now : ℚ) (v : Validator) : Validator :=
  v.llmKeyHotkeyStatus.keys.foldl (pruneHotkey cfg now) v

/-! ## `llm_key_report_poll_round` -/

/-- What one poll round meets: the clock, the chain and the backend's two answers. -/
structure PollInput where
  now : ℚ
  chain : Option ChainReads
  /-- The rows since the cursor and the next cursor. -/
  reports : Except Exc (List LLMKeyUsageReport × Option String)
  roster : Except Exc (List LLMKeyRosterEntry)

/-- The second half of a round, after the roll: the request, the rows, the roster, the prune and
    the recompute. A request that fails only backs off. -/
def pollReports (cfg : LlmKeyConfig) (input : PollInput) : Method Unit := do
  let interval := max 0 cfg.reportPollIntervalSeconds
  match input.reports with
  | .error _ =>
    let backoff := min (max 0 cfg.reportPollFailureBackoffSeconds) interval
    Prog.modify fun v => { v with lastLlmKeyReportPollAt := input.now - interval + backoff }
  | .ok (reports, nextSince) =>
    Prog.forEach reports (processReport input.now)
    pollLlmKeyRoster input.roster
    Prog.modify (pruneLlmKeyHotkeyStatus cfg input.now)
    scoreLastEpoch cfg
    Prog.modify fun v => { v with
      lastLlmKeyReportCursor := match nextSince with
        | some c => if c = "" then v.lastLlmKeyReportCursor else c
        | none => v.lastLlmKeyReportCursor
      lastLlmKeyReportPollAt := input.now }

def llmKeyReportPollRound (cfg : LlmKeyConfig) (input : PollInput) : Method Unit := do
  let v ← Prog.get
  let interval := max 0 cfg.reportPollIntervalSeconds
  if v.lastLlmKeyReportPollAt ≠ 0 ∧ input.now - v.lastLlmKeyReportPollAt < interval then
    return ()
  rollEpochIfNeeded cfg input.chain
  pollReports cfg input

/-! ## Weights -/

/-- `_has_llm_key_evidence`. -/
def hasLlmKeyEvidence (v : Validator) (uid : Nat) : Bool :=
  match v.metagraphHotkeys[uid]? with
  | none => false
  | some hotkey =>
    match v.llmKeyHotkeyStatus.get? hotkey with
    | none => false
    | some status =>
      decide (status.uid = some uid) && status.lastReportAt.isSome &&
        match status.keys with
        | none => true
        | some keys =>
          keys.isEmpty || keys.values.any fun state => state.alive.getD true

/-- `_blended_weight_array`: a positive score without evidence is dropped from what is submitted. -/
def blendedWeightArray (v : Validator) : List ℚ :=
  v.scores.mapIdx fun uid score =>
    if 0 < score ∧ hasLlmKeyEvidence v uid = false then 0 else score

/-- `set_weights` up to the base class: the array `super().set_weights()` is handed. `self.scores`
    is restored after the submission, so it ends as the scores left it. -/
def setWeights (cfg : LlmKeyConfig) (chain : Option ChainReads) : Method (List ℚ) := do
  rollEpochIfNeeded cfg chain
  scoreLastEpoch cfg
  let v ← Prog.get
  return blendedWeightArray v

/-- `resync_metagraph` of the base class, for a metagraph that delivers `hotkeys`. Nothing is
    touched when no axon changed; otherwise a replaced uid is zeroed and the vector resized. -/
def resyncMetagraph (v : Validator) (hotkeys : List String) (axonsChanged : Bool) : Validator :=
  let v := { v with metagraphHotkeys := hotkeys }
  if !axonsChanged then v
  else
    let overlap := min v.hotkeys.length hotkeys.length
    let zeroed := v.scores.mapIdx fun uid score =>
      if uid < overlap ∧ v.hotkeys[uid]? ≠ hotkeys[uid]? then 0 else score
    let resized :=
      zeroed.take hotkeys.length ++ List.replicate (hotkeys.length - zeroed.length) 0
    { v with scores := resized, hotkeys := hotkeys }

/-! ## Submissions -/

/-- One slot of the protocol's answer to a relayed batch. -/
structure LLMKeySubmitKeyResult where
  slot : Int
  keyId : Option Int
  provider : String
  model : String
  accepted : Bool
  status : String
  reason : Option String

/-- What `llm_key_submission_round` writes for one hotkey once its batch was relayed. -/
def recordSubmission (v : Validator) (hotkey : String) (uid : Nat) (accepted : Bool)
    (status : String) (reason : Option String) (results : List LLMKeySubmitKeyResult) (now : ℚ) :
    Validator :=
  let entry := (v.llmKeyHotkeyStatus.get? hotkey).getD {}
  let keys := results.foldl (fun (keys : Dict String KeyState) r =>
    match r.keyId with
    | none => keys  -- a rejected slot has no stored key row to track
    | some id =>
      let state := (keys.get? (toString id)).getD {}
      let state := { state with
        slot := some r.slot, provider := some r.provider, model := some r.model,
        accepted := some r.accepted, status := some r.status, reason := r.reason }
      keys.insert (toString id)
        (if r.accepted then { state with alive := some true, killedReason := none } else state))
    (entry.keys.getD ∅)
  { v with
    llmKeyHotkeyStatus := v.llmKeyHotkeyStatus.insert hotkey
      { entry with
        uid := some uid, accepted := some accepted, status := some status, reason := reason,
        submittedAt := some now, keys := some keys } }

/-! ## The validator as a system -/

/-- Everything that writes the LLM-key state. -/
inductive Op
  | poll (input : PollInput)
  | roll (chain : Option ChainReads)
  | setWeights (chain : Option ChainReads)
  | score
  | kill (hotkey subKey reason : String)
  | prune (now : ℚ)
  | submission (hotkey : String) (uid : Nat) (accepted : Bool) (status : String)
      (reason : Option String) (results : List LLMKeySubmitKeyResult) (now : ℚ)
  | resync (hotkeys : List String) (axonsChanged : Bool)

/-- What one operation does to the state; the weight array it may return is dropped. -/
def Op.run (cfg : LlmKeyConfig) : Op → Method Unit
  | .poll input => llmKeyReportPollRound cfg input
  | .roll chain => rollEpochIfNeeded cfg chain
  | .setWeights chain => do
    let _ ← TaoSubnet.setWeights cfg chain
    return ()
  | .score => scoreLastEpoch cfg
  | .kill hotkey subKey reason => Prog.modify fun v => killHotkeyKey v hotkey subKey reason
  | .prune now => Prog.modify (pruneLlmKeyHotkeyStatus cfg now)
  | .submission hotkey uid accepted status reason results now =>
    Prog.modify fun v => recordSubmission v hotkey uid accepted status reason results now
  | .resync hotkeys axonsChanged => Prog.modify fun v => resyncMetagraph v hotkeys axonsChanged

end TaoSubnet
