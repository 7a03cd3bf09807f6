import TaoSubnet.Lib.Dict
import TaoSubnet.LlmKey.Scoring

/-!
# The LLM-key validator's state, and the two writes that touch a window

`neurons/validator.py`: the collecting window (`llmKeyPendingCalls`), the paid window
(`llmKeyLastEpochCalls`) and the status map, with `_fold_report_into_pending` and
`_kill_hotkey_key`, the only two functions that write *inside* a window. Everything else moves a
window as a whole.

`history` is the one field the source does not have. It lists, in order, what happened to the
windows; nothing reads it back, and it is there so that "which rows are in this window" can be
said at all (`TaoSubnet.Proof.LlmKey.Accounts`).
-/

namespace TaoSubnet

open Py

/-! ## Rows and accumulators -/

/-- One row of `GET /llm-keys/reports`. Of `error_categories` only the keys are ever read. -/
structure LLMKeyUsageReport where
  hotkey : String
  keyId : Option Int := none
  provider : Option String := none
  model : Option String := none
  successCount : Int := 0
  failureCount : Int := 0
  avgLatencyMs : Option PyFloat := none
  avgQualityScore : Option PyFloat := none
  errorCategories : List String := []
  keyActive : Bool := true
  deriving DecidableEq, Repr

/-- One key of `GET /llm-keys/roster`. -/
structure LLMKeyRosterEntry where
  hotkey : String
  keyId : Option Int := none
  provider : Option String := none
  model : Option String := none
  status : String
  deriving DecidableEq, Repr

/-- One key's sub-accumulator. `tier` is `none` only in a window migrated from the one-key shape. -/
structure SubWindow where
  successCount : Int := 0
  failureCount : Int := 0
  latencyMsWeightedSum : ℚ := 0
  latencyWeightedCount : Int := 0
  qualityWeightedSum : ℚ := 0
  qualityWeightedCount : Int := 0
  tier : Option ℚ := none
  deriving DecidableEq, Repr

/-- One hotkey's accumulator. -/
structure Window where
  keys : Dict String SubWindow
  firstSeenAt : ℚ
  lastSeenAt : ℚ
  deriving DecidableEq, Repr

abbrev Windows := Dict String Window

/-- What is remembered of one key. `alive` is absent until something is known. -/
structure KeyState where
  alive : Option Bool := none
  killedReason : Option String := none
  slot : Option Int := none
  provider : Option String := none
  model : Option String := none
  accepted : Option Bool := none
  status : Option String := none
  reason : Option String := none
  deriving DecidableEq, Repr

/-- What is remembered of one hotkey. `provider`/`model` are left from the one-key days. -/
structure HotkeyStatus where
  uid : Option Nat := none
  lastReportAt : Option ℚ := none
  keyActive : Option Bool := none
  accepted : Option Bool := none
  status : Option String := none
  reason : Option String := none
  submittedAt : Option ℚ := none
  provider : Option String := none
  model : Option String := none
  keys : Option (Dict String KeyState) := none
  missingSince : Option ℚ := none
  deriving DecidableEq, Repr

/-- What happened to the windows, one event for each write. A close says which epoch the
    accumulator was collected in and which epoch start it was closed at. -/
inductive WindowEvent
  | folded (hotkey subKey : String) (report : LLMKeyUsageReport) (tier : ℚ)
  | killed (hotkey subKey : String)
  | evicted (hotkey : String)
  | closed (collectedIn start : Int)
  | discarded (start : Int)
  deriving DecidableEq, Repr

/-- The validator, as far as the LLM-key track reads or writes it. `hotkeys` is the base class's
    own copy; `metagraphHotkeys` is what the last metagraph sync delivered. -/
structure Validator where
  hotkeys : List String := []
  metagraphHotkeys : List String := []
  llmKeyHotkeyStatus : Dict String HotkeyStatus := ∅
  llmKeyPendingCalls : Windows := ∅
  llmKeyLastEpochCalls : Windows := ∅
  llmKeyEpochStartBlock : Option Int := none
  lastLlmKeyReportPollAt : ℚ := 0
  lastLlmKeyReportCursor : String := ""
  scores : List ℚ := []
  history : List WindowEvent := []
  deriving DecidableEq, Repr

/-- A validator method: it writes `self` and may raise. -/
abbrev Method (α : Type) := Prog Validator Exc α

/-! ## Keys and tiers -/

/-- `if provider and model`: both there and not blank. -/
def bothNonEmpty : Option String → Option String → Option (String × String)
  | some p, some m => if p ≠ "" ∧ m ≠ "" then some (p, m) else none
  | _, _ => none

/-- `_report_sub_key`; the roster names a key the same way. -/
def subKeyOf (keyId : Option Int) (provider model : Option String) : String :=
  match keyId with
  | some id => toString id
  | none =>
    match bothNonEmpty provider model with
    | some (p, m) => p ++ "/" ++ m
    | none => "legacy"

def reportSubKey (report : LLMKeyUsageReport) : String :=
  subKeyOf report.keyId report.provider report.model

/-- `_model_tier_weight`: the submission-time fallback. -/
def modelTierWeight (v : Validator) (hotkey : String) : ℚ :=
  let status := (v.llmKeyHotkeyStatus.get? hotkey).getD {}
  modelTier (status.provider.getD "" ++ "/" ++ status.model.getD "")

/-- `_tier_for_report`: the row's own model, when it names one. -/
def tierForReport (v : Validator) (hotkey : String) (report : LLMKeyUsageReport) : ℚ :=
  match bothNonEmpty report.provider report.model with
  | some (p, m) => modelTier (p ++ "/" ++ m)
  | none => modelTierWeight v hotkey

/-- `_hotkey_key_states(hotkey).setdefault(sub_key, {})`, then `f` of that entry. -/
def updateKeyState (v : Validator) (hotkey subKey : String) (f : KeyState → KeyState) : Validator :=
  let status := (v.llmKeyHotkeyStatus.get? hotkey).getD {}
  let keys := status.keys.getD ∅
  let entry := (keys.get? subKey).getD {}
  { v with
    llmKeyHotkeyStatus :=
      v.llmKeyHotkeyStatus.insert hotkey { status with keys := some (keys.insert subKey (f entry)) } }

/-! ## `_kill_hotkey_key` -/

/-- Drops one key's rows from one window; a hotkey left without keys goes with it. -/
def dropSubKey (windows : Windows) (hotkey subKey : String) : Windows :=
  match windows.get? hotkey with
  | none => windows
  | some acc =>
    let keys := acc.keys.erase subKey
    if keys.isEmpty then windows.erase hotkey else windows.insert hotkey { acc with keys := keys }

/-- Marks a key dead, keeping the reason of its first kill. -/
def markDead (reason : String) (entry : KeyState) : KeyState :=
  if entry.alive = some false then entry
  else { entry with alive := some false, killedReason := some reason }

def killHotkeyKey (v : Validator) (hotkey subKey reason : String) : Validator :=
  let v := updateKeyState v hotkey subKey (markDead reason)
  { v with
    llmKeyPendingCalls := dropSubKey v.llmKeyPendingCalls hotkey subKey
    llmKeyLastEpochCalls := dropSubKey v.llmKeyLastEpochCalls hotkey subKey
    history := v.history ++ [.killed hotkey subKey] }

/-! ## `_fold_report_into_pending` -/

/-- The counts of a row, the part of the fold that cannot raise. -/
def SubWindow.addCounts (sub : SubWindow) (report : LLMKeyUsageReport) : SubWindow :=
  { sub with
    successCount := sub.successCount + report.successCount
    failureCount := sub.failureCount + report.failureCount }

def rowCalls (report : LLMKeyUsageReport) : Int := report.successCount + report.failureCount

/-- The latency of a row, weighted by its calls. The product is formed before anything of it is
    stored, so a raise leaves the sums alone. -/
def SubWindow.addLatency (sub : SubWindow) (report : LLMKeyUsageReport) : Except Exc SubWindow :=
  match sanitizeLatencyMs report.avgLatencyMs with
  | none => .ok sub
  | some latency =>
    if 0 < rowCalls report then do
      let product ← mulInt latency (rowCalls report)
      return { sub with
        latencyMsWeightedSum := sub.latencyMsWeightedSum + product
        latencyWeightedCount := sub.latencyWeightedCount + rowCalls report }
    else .ok sub

/-- The quality grade of a row, weighted the same way. -/
def SubWindow.addQuality (sub : SubWindow) (report : LLMKeyUsageReport) : Except Exc SubWindow :=
  match sanitizeQualityScore report.avgQualityScore with
  | none => .ok sub
  | some quality =>
    if 0 < rowCalls report then do
      let product ← mulInt quality (rowCalls report)
      return { sub with
        qualityWeightedSum := sub.qualityWeightedSum + product
        qualityWeightedCount := sub.qualityWeightedCount + rowCalls report }
    else .ok sub

/-- The sub-accumulator a row goes to, created when absent. -/
def subWindowFor (v : Validator) (hotkey subKey : String) (now : ℚ) : Window × SubWindow :=
  let acc := (v.llmKeyPendingCalls.get? hotkey).getD ⟨∅, now, now⟩
  (acc, (acc.keys.get? subKey).getD {})

/-- Stores a row's sub-accumulator back into the collecting window. -/
def putSubWindow (v : Validator) (hotkey subKey : String) (acc : Window) (sub : SubWindow) :
    Validator :=
  { v with
    llmKeyPendingCalls :=
      v.llmKeyPendingCalls.insert hotkey { acc with keys := acc.keys.insert subKey sub } }

/-- A successful row is evidence that the key works: it records the row's model and undoes a
    local kill. -/
def reviveKey (report : LLMKeyUsageReport) (entry : KeyState) : KeyState :=
  let entry := match report.provider with
    | some p => if p ≠ "" then { entry with provider := some p, model := report.model } else entry
    | none => entry
  if entry.alive = some false then { entry with alive := some true, killedReason := none } else entry

def foldReportIntoPending (hotkey : String) (report : LLMKeyUsageReport) (now : ℚ) :
    Method Unit := do
  if report.successCount < 0 ∨ report.failureCount < 0 then
    return ()  -- malformed: dropped entirely
  let v ← Prog.get
  let subKey := reportSubKey report
  let (acc, sub) := subWindowFor v hotkey subKey now
  let tier := tierForReport v hotkey report
  let sub := ({ sub with tier := some tier } : SubWindow).addCounts report
  -- Each statement writes through to the window, so a raise keeps what came before it.
  Prog.modify fun v => { putSubWindow v hotkey subKey acc sub with
    history := v.history ++ [.folded hotkey subKey report tier] }
  let sub ← Prog.ofExcept (sub.addLatency report)
  Prog.modify fun v => putSubWindow v hotkey subKey acc sub
  let sub ← Prog.ofExcept (sub.addQuality report)
  Prog.modify fun v => putSubWindow v hotkey subKey { acc with lastSeenAt := now } sub
  if 0 < report.successCount then
    Prog.modify fun v => updateKeyState v hotkey subKey (reviveKey report)

end TaoSubnet
