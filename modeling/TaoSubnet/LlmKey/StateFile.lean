import TaoSubnet.Lib.Dumps
import TaoSubnet.Lib.Numbers
import TaoSubnet.LlmKey.Poll
import TaoSubnet.Security.Registry

/-!
# The validator's state file

`neurons/validator.py`, `load_masxai_state` with what it calls, and `save_masxai_state`. What is read
from the file keeps the shape it has there: an entry of the status map or of a window is the JSON
object it was saved as.
-/

namespace TaoSubnet

open Py

/-- The items of a dict. -/
abbrev Items := List (PyStr × Json)

/-- The fields that are saved, as they stand in memory. -/
@[ext] structure MasxaiState where
  participationScores : Dict Int PyFloat := ∅
  llmKeyHotkeyStatus : Dict PyStr Items := ∅
  llmKeyPendingCalls : Dict PyStr Items := ∅
  lastLlmKeyAskAt : PyFloat := .fin 0
  lastLlmKeyReportPollAt : PyFloat := .fin 0
  lastLlmKeyReportCursor : PyStr := []
  llmKeyLastEpochCalls : Dict PyStr Items := ∅
  llmKeyEpochStartBlock : Option Int := none
  scores : List PyFloat := []

/-! ## What is outside -/

structure NdArray where
  shape : List Nat
  values : List PyFloat

/-- What is taken from numpy. -/
structure Numpy where
  /-- `np.array(value, dtype=np.float32)`. -/
  array32 : Json → Except Exc NdArray
  /-- `n = min(len(arr), len(scores)); scores[:n] = arr[:n]`. -/
  overlap : List PyFloat → NdArray → Except Exc (List PyFloat)

/-- What a load runs on: the interpreter, numpy, and the hotkeys of the metagraph. -/
structure Loader where
  py : Interpreter
  numpy : Numpy
  hotkeys : List PyStr

/-- The state file: none, or what reading its bytes gives. -/
inductive StateFile
  | missing
  | present (contents : Except Exc (List UInt8))

/-- What a load reports. -/
inductive LoadReport
  | notFound
  | loaded
  | startingFresh (e : Exc)
  deriving DecidableEq

/-! ## The fields of the document -/

/-- A value that is used as a dict, by way of the method `name`. -/
def itemsOf (name : String) : Json → Except Exc Items
  | .obj items => .ok items
  | value => .error (Json.noAttribute value name)

/-- `s.get(key, {}).items()`. -/
def getItems (s : Items) (key : String) : Except Exc Items :=
  match Json.get? s key with
  | none => .ok []
  | some value => itemsOf "items" value

/-- `float(s.get(key, 0.0))`. -/
def getFloat (u : Unicode) (s : Items) (key : String) : Except Exc PyFloat :=
  match Json.get? s key with
  | none => .ok (.fin 0)
  | some value => Json.toFloat u value

/-- The items that are dicts themselves. -/
def dictsOf (items : Items) : List (PyStr × Items) :=
  items.filterMap fun p => match p.2 with
    | .obj entry => some (p.1, entry)
    | _ => none

def readParticipation (u : Unicode) (s : Items) : Except Exc (Dict Int PyFloat) := do
  let items ← getItems s "participation_scores"
  items.foldlM (fun scores p => do
    return scores.insert (← PyStr.toInt u p.1) (← Json.toFloat u p.2)) ∅

def readStatus (s : Items) : Except Exc (Dict PyStr Items) := do
  return Dict.ofList (dictsOf (← getItems s "llm_key_hotkey_status"))

/-- `entry.get(key, default)`. -/
def getOr (entry : Items) (key : String) (default : Json) : Json :=
  (Json.get? entry key).getD default

def item (key : String) (value : Json) : PyStr × Json := (PyStr.ofString key, value)

/-- `_migrate_pending_entry`. -/
def migratePendingEntry (entry : Items) : Items :=
  let seen := [item "first_seen_at" (getOr entry "first_seen_at" (.float (.fin 0))),
    item "last_seen_at" (getOr entry "last_seen_at" (.float (.fin 0)))]
  if (Json.get? entry "keys").isSome then entry
  else if (Json.get? entry "success_count").isNone then item "keys" (.obj []) :: seen
  else
    let legacy := [
      item "success_count" (getOr entry "success_count" (.int 0)),
      item "failure_count" (getOr entry "failure_count" (.int 0)),
      item "latency_ms_weighted_sum" (getOr entry "latency_ms_weighted_sum" (.float (.fin 0))),
      item "latency_weighted_count" (getOr entry "latency_weighted_count" (.int 0)),
      item "quality_weighted_sum" (getOr entry "quality_weighted_sum" (.float (.fin 0))),
      item "quality_weighted_count" (getOr entry "quality_weighted_count" (.int 0)),
      item "tier" .null]
    item "keys" (.obj [item "legacy" (.obj legacy)]) :: seen

/-- Either window. -/
def readWindows (s : Items) (key : String) : Except Exc (Dict PyStr Items) := do
  let entries := dictsOf (← getItems s key)
  return Dict.ofList (entries.map fun p => (p.1, migratePendingEntry p.2))

/-- `str(s.get("last_llm_key_report_cursor", ""))`. -/
def readCursor (py : Interpreter) (s : Items) : PyStr :=
  match Json.get? s "last_llm_key_report_cursor" with
  | none => []
  | some value => strValue py value

def readEpochStart (u : Unicode) (s : Items) : Except Exc (Option Int) :=
  match Json.get? s "llm_key_epoch_start_block" with
  | none => .ok none
  | some .null => .ok none
  | some value => (intOf u value).map some

/-- The restored vector; one of another length is copied where they overlap. -/
def readScores (numpy : Numpy) (s : Items) (scores : List PyFloat) : Except Exc (List PyFloat) :=
  match Json.get? s "scores" with
  | none => .ok scores
  | some .null => .ok scores
  | some value => do
    let arr ← numpy.array32 value
    if arr.shape = [scores.length] then return arr.values else numpy.overlap scores arr

/-! ## `_drop_unbacked_scores` -/

/-- `any(state.get("alive", True) for state in key_states.values())`. -/
def anyAlive : Items → Except Exc Bool
  | [] => .ok false
  | (_, state) :: rest => do
    let state ← itemsOf "get" state
    if (getOr state "alive" (.bool true)).truthy then return true else anyAlive rest

/-- `_has_llm_key_evidence`, of a status as it was loaded. -/
def loadedEvidence (u : Unicode) (hotkeys : List PyStr) (status : Dict PyStr Items) (uid : Nat) :
    Except Exc Bool :=
  match hotkeys[uid]? with
  | none => .ok false
  | some hotkey =>
    match status.get? hotkey with
    | none | some [] => .ok false
    | some entry =>
      match Json.get? entry "uid" with
      | none | some .null => .ok false
      | some recordedUid => do
        if (← intOf u recordedUid) ≠ uid then return false
        match Json.get? entry "last_report_at" with
        | none | some .null => return false
        | some _ =>
          let keyStates := getOr entry "keys" .null
          if keyStates.truthy then anyAlive (← itemsOf "values" keyStates) else return true

/-- The vector without the positive scores that nothing backs. All are looked at before any is
    dropped. -/
def dropUnbackedScores (u : Unicode) (hotkeys : List PyStr) (status : Dict PyStr Items)
    (scores : List PyFloat) : Except Exc (List PyFloat) :=
  scores.zipIdx.mapM fun p => do
    if PyFloat.lt (.fin 0) p.1 then
      if ← loadedEvidence u hotkeys status p.2 then return p.1 else return .fin 0
    else return p.1

/-! ## `load_masxai_state` -/

/-- `json.load(f)`, as the dict that the first `s.get` takes it for. -/
def readDocument (r : Loader) (contents : Except Exc (List UInt8)) : Except Exc Items := do
  let text ← Json.readText (← contents)
  itemsOf "get" (← Json.loadsText r.py.recursionLimit text)

/-- One conversion and the assignment of what it gives. -/
def assign {α : Type} (value : MasxaiState → Except Exc α) (set : α → MasxaiState → MasxaiState) :
    Prog MasxaiState Exc Unit := do
  let state ← Prog.get
  let a ← Prog.ofExcept (value state)
  Prog.modify (set a)

/-- The body of the `try`, after the document is read. -/
def installFields (r : Loader) (s : Items) : Prog MasxaiState Exc Unit := do
  let u := r.py.unicode
  assign (fun _ => readParticipation u s) fun x v => { v with participationScores := x }
  assign (fun _ => readStatus s) fun x v => { v with llmKeyHotkeyStatus := x }
  assign (fun _ => readWindows s "llm_key_pending_calls") fun x v => { v with llmKeyPendingCalls := x }
  assign (fun _ => getFloat u s "last_llm_key_ask_at") fun x v => { v with lastLlmKeyAskAt := x }
  assign (fun _ => getFloat u s "last_llm_key_report_poll_at") fun x v =>
    { v with lastLlmKeyReportPollAt := x }
  assign (fun _ => .ok (readCursor r.py s)) fun x v => { v with lastLlmKeyReportCursor := x }
  assign (fun _ => readWindows s "llm_key_last_epoch_calls") fun x v =>
    { v with llmKeyLastEpochCalls := x }
  assign (fun _ => readEpochStart u s) fun x v => { v with llmKeyEpochStartBlock := x }
  assign (fun v => readScores r.numpy s v.scores) fun x v => { v with scores := x }
  assign (fun v => dropUnbackedScores u r.hotkeys v.llmKeyHotkeyStatus v.scores) fun x v =>
    { v with scores := x }

/-- `load_masxai_state`, once the attributes are there. -/
def loadMasxaiState (r : Loader) (file : StateFile) (state : MasxaiState) :
    LoadReport × MasxaiState :=
  match file with
  | .missing => (.notFound, state)
  | .present contents =>
    match (Prog.ofExcept (readDocument r contents) >>= installFields r) state with
    | (.ok _, state) => (.loaded, state)
    | (.error e, state) => (.startingFresh e, state)

/-! ## `save_masxai_state` -/

/-- A dict of dicts, as `json.dump` finds it. -/
def dictItems (d : Dict PyStr Items) : Items := d.entries.map fun p => (p.1, .obj p.2)

/-- `{str(uid): score for uid, score in self.participation_scores.items()}`. -/
def participationItems (scores : Dict Int PyFloat) : Except Exc Items :=
  scores.entries.mapM fun p => do return (← intText p.1, .float p.2)

/-- The dict that is handed to `json.dump`. -/
def stateDocument (s : MasxaiState) : Except Exc Items := do
  let participation ← participationItems s.participationScores
  return [
    item "participation_scores" (.obj participation),
    item "llm_key_hotkey_status" (.obj (dictItems s.llmKeyHotkeyStatus)),
    item "llm_key_pending_calls" (.obj (dictItems s.llmKeyPendingCalls)),
    item "last_llm_key_ask_at" (.float s.lastLlmKeyAskAt),
    item "last_llm_key_report_poll_at" (.float s.lastLlmKeyReportPollAt),
    item "last_llm_key_report_cursor" (.str s.lastLlmKeyReportCursor),
    item "llm_key_last_epoch_calls" (.obj (dictItems s.llmKeyLastEpochCalls)),
    item "llm_key_epoch_start_block" ((s.llmKeyEpochStartBlock.map Json.int).getD .null),
    item "scores" (.arr (s.scores.map .float))]

/-- `float.__repr__`, and the names that `json` has for the other three. -/
def floatText (py : Interpreter) : PyFloat → PyStr
  | .fin q => py.strOf (.float (.fin q))
  | .inf => PyStr.ofString "Infinity"
  | .ninf => PyStr.ofString "-Infinity"
  | .nan => PyStr.ofString "NaN"

/-- `save_masxai_state`: the text that replaces the file. Whatever is raised before that is logged, and
    the file stays as it is. -/
def saveMasxaiState (py : Interpreter) (s : MasxaiState) : Except Exc PyStr := do
  Json.dumps (floatText py) (.obj (← stateDocument s))

end TaoSubnet
