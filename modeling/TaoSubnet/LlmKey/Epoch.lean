import TaoSubnet.LlmKey.State

/-!
# Epochs: reading them, rolling the windows, scoring the paid one

`neurons/validator.py`, from `_current_epoch_start_block` to `_score_last_epoch`. The chain is a
value here (`ChainReads`): each of the three remote reads may raise, return nothing or return a
number, independently of the others. `rollEpochIfNeeded` keeps the source's branches in the
source's order; its comparisons with `epoch_length / 2` and `1.5 * epoch_length` are exact.
-/

namespace TaoSubnet

open Py

/-! ## Reading the chain -/

/-- What the subtensor connection answers. A read that returns `None` is `.ok none`. -/
structure ChainReads where
  getCurrentBlock : Except Exc (Option Int)
  /-- `blocks_since_last_step(netuid, block=block)`. -/
  blocksSinceLastStep : Int → Except Exc (Option Int)
  tempo : Except Exc (Option Int)

/-- `_current_epoch_start_block`. No connection, a raise and a missing answer are all `none`:
    `int(None)` raises inside the same `try`. -/
def currentEpochStartBlock : Option ChainReads → Option Int
  | none => none
  | some chain =>
    match chain.getCurrentBlock with
    | .ok (some block) =>
      match chain.blocksSinceLastStep block with
      | .ok (some since) => some (block - since)
      | _ => none
    | _ => none

/-- `_epoch_length_blocks`: tempo + 1; a tempo of 0 counts as unreadable. -/
def epochLengthBlocks : Option ChainReads → Option Int
  | none => none
  | some chain =>
    match chain.tempo with
    | .ok (some tempo) => if tempo = 0 then none else some (tempo + 1)
    | _ => none

/-- `previous is not None and epoch_length is not None and 0 < start - previous < epoch_length / 2`. -/
def isSliver (previous epochLength : Option Int) (start : Int) : Bool :=
  match previous, epochLength with
  | some previous, some length =>
    decide (0 < start - previous ∧ ((start - previous : Int) : ℚ) < (length : ℚ) / 2)
  | _, _ => false

/-- `previous is not None and epoch_length is not None and 0 < start - previous <= 1.5 * epoch_length`. -/
def isContiguous (previous epochLength : Option Int) (start : Int) : Bool :=
  match previous, epochLength with
  | some previous, some length =>
    decide (0 < start - previous ∧ ((start - previous : Int) : ℚ) ≤ 1.5 * (length : ℚ))
  | _, _ => false

/-! ## Scoring one window -/

/-- `_sub_window_floor_reason`. -/
def subWindowFloorReason (cfg : LlmKeyConfig) (sub : SubWindow) (minCalls : Int) :
    Except Exc (Option String) := do
  let total := sub.successCount + sub.failureCount
  if total < minCalls then return none
  let reliability ← intTrueDiv sub.successCount total
  if PyFloat.lt (.fin reliability) cfg.reliabilityHardFloor then
    return some ("per-key reliability floor (" ++ toString sub.successCount ++ " ok / " ++
      toString sub.failureCount ++ " failed)")
  let qcount := sub.qualityWeightedCount
  if cfg.qualityFloorMinGraded ≤ qcount then
    let avgQuality ← divInt sub.qualityWeightedSum qcount
    if PyFloat.lt (.fin avgQuality) cfg.qualityHardFloor then
      return some ("per-key quality floor (avg quality " ++ fixed2 avgQuality ++ " over " ++
        toString qcount ++ " graded)")
  return none

/-- `sum / count if count > 0 else None`. -/
def weightedMean (sum : ℚ) (count : Int) : Except Exc (Option ℚ) :=
  if 0 < count then do return some (← divInt sum count) else return none

/-- `_pooled_window_reward`, over the live keys of one hotkey. -/
def pooledWindowReward (cfg : LlmKeyConfig) (v : Validator) (hotkey : String)
    (subs : List SubWindow) : Except Exc ℚ := do
  let successCount := (subs.map SubWindow.successCount).sum
  let failureCount := (subs.map SubWindow.failureCount).sum
  let total := successCount + failureCount
  let latencySum := (subs.map SubWindow.latencyMsWeightedSum).sum
  let latencyCount := (subs.map SubWindow.latencyWeightedCount).sum
  let qualitySum := (subs.map SubWindow.qualityWeightedSum).sum
  let qualityCount := (subs.map SubWindow.qualityWeightedCount).sum
  let avgLatencyMs ← weightedMean latencySum latencyCount
  let avgQuality ← weightedMean qualitySum qualityCount
  let subTier (sub : SubWindow) : ℚ := sub.tier.getD (modelTierWeight v hotkey)
  let blendedTier ←
    if 0 < total then do
      let parts ← subs.mapM fun s => mulInt (subTier s) (s.successCount + s.failureCount)
      divInt parts.sum total
    else pure (modelTierWeight v hotkey)
  let reward ← llmKeyEfficiencyScore successCount failureCount
    (avgLatencyMs.map fun l => .fin (l / 1000)) true (avgQuality.map .fin) (.fin blendedTier)
    1 (some qualityCount) cfg.reliabilityHardFloor cfg.qualityHardFloor cfg.qualityFloorMinGraded
  return reward.getD 0

/-- The sub-windows of one hotkey that are not locally dead. -/
def liveSubs (v : Validator) (hotkey : String) (acc : Window) : List SubWindow :=
  let keyStates := ((v.llmKeyHotkeyStatus.get? hotkey).bind HotkeyStatus.keys).getD ∅
  (acc.keys.entries.filter fun p => ((keyStates.get? p.1).getD {}).alive.getD true).map Prod.snd

/-! ## `_score_last_epoch` -/

/-- The first loop of one hotkey: every key that trips a floor on its own evidence is killed. -/
def killFlooredKeys (cfg : LlmKeyConfig) (hotkey : String) (keys : List (String × SubWindow)) :
    Method Unit :=
  Prog.forEach keys fun (subKey, sub) => do
    match ← Prog.ofExcept (subWindowFloorReason cfg sub cfg.minCallsForScoring) with
    | some reason => Prog.modify fun v => killHotkeyKey v hotkey subKey reason
    | none => pure ()

/-- One hotkey of the paid window: its floors, then its pooled reward at its current uid. The
    vector being filled is the state's `scores`. -/
def scoreHotkey (cfg : LlmKeyConfig) (hotkey : String) : Method Unit := do
  let v ← Prog.get
  let acc := (v.llmKeyLastEpochCalls.get? hotkey).getD ⟨∅, 0, 0⟩
  killFlooredKeys cfg hotkey acc.keys.entries
  let v ← Prog.get
  match v.llmKeyLastEpochCalls.get? hotkey with
  | none => pure ()  -- everything this window held was killed
  | some acc =>
    -- `_hotkey_key_states` creates the entry it reads.
    Prog.modify fun v =>
      let status := (v.llmKeyHotkeyStatus.get? hotkey).getD {}
      { v with
        llmKeyHotkeyStatus :=
          v.llmKeyHotkeyStatus.insert hotkey { status with keys := some (status.keys.getD ∅) } }
    let subs := liveSubs v hotkey acc
    if subs.isEmpty then return ()
    if v.metagraphHotkeys.idxOf hotkey < v.metagraphHotkeys.length then
      let uid := v.metagraphHotkeys.idxOf hotkey
      if v.scores.length ≤ uid then return ()  -- metagraph resize race
      let reward ← Prog.ofExcept (pooledWindowReward cfg v hotkey subs)
      Prog.modify fun v => { v with scores := v.scores.set uid reward }
    -- otherwise deregistered since its rows arrived

/-- `_score_last_epoch`. The new vector replaces `self.scores` only at the end: a raise in the
    middle leaves the old one in place. -/
def scoreLastEpoch (cfg : LlmKeyConfig) : Method Unit := do
  let before ← Prog.get
  let hotkeys := before.llmKeyLastEpochCalls.keys
  Prog.tryExcept
    (do
      Prog.modify fun v => { v with scores := List.replicate v.scores.length 0 }
      Prog.forEach hotkeys (scoreHotkey cfg))
    (fun e => do
      Prog.modify fun v => { v with scores := before.scores }
      Prog.raise e)

/-! ## `_roll_epoch_if_needed` -/

/-- The event of a roll that moves the windows. -/
def rollEvent (previous : Option Int) (start : Int) (contiguous : Bool) : WindowEvent :=
  match previous with
  | some previous => if contiguous then .closed previous start else .discarded start
  | none => .discarded start

/-- What a roll that is not a fold writes before it scores. -/
def moveWindows (v : Validator) (start : Int) (contiguous : Bool) : Validator :=
  { v with
    llmKeyLastEpochCalls := if contiguous then v.llmKeyPendingCalls else ∅
    llmKeyPendingCalls := ∅
    llmKeyEpochStartBlock := some start
    history := v.history ++ [rollEvent v.llmKeyEpochStartBlock start contiguous] }

def rollEpochIfNeeded (cfg : LlmKeyConfig) (chain : Option ChainReads) : Method Unit := do
  let v ← Prog.get
  let previous := v.llmKeyEpochStartBlock
  match currentEpochStartBlock chain with
  | none => return ()
  | some start =>
    if some start = previous then return ()
    let epochLength := epochLengthBlocks chain
    if isSliver previous epochLength start then
      -- A sliver is not an epoch of work: its rows carry into the epoch that just started.
      Prog.modify fun v => { v with llmKeyEpochStartBlock := some start }
    else
      -- 1.5x tolerates an irregular boundary; a farther start drops the accumulator.
      let contiguous := isContiguous previous epochLength start
      Prog.modify fun v => moveWindows v start contiguous
      scoreLastEpoch cfg

end TaoSubnet
