import TaoSubnet.LlmKey.StateFile

/-!
# The matrix as it was loaded

`secqurityVali/category_scores.py` once more, over what the score file may hold. `load` looks at the
two outermost levels; a row and a cell are whatever JSON the file has for them, and every operation
meets them as they are. `_recompute_all_scores` of `neurons/security_validator.py` is the loop that
ends every round.
-/

namespace TaoSubnet

open Py

/-- The cells by hotkey, a row as it stands in memory. -/
structure JsonScores where
  alpha : PyFloat
  cells : Dict PyStr Json := ∅

namespace JsonScores

/-! ## Loading -/

/-- `json.load` of the opened file. -/
def readScoreFile (recursionLimit : Nat) : StateFile → Except Exc Json
  | .missing => .error ⟨.fileNotFoundError, "[Errno 2] No such file or directory"⟩
  | .present contents => do
    let text ← Json.readText (← contents)
    Json.loadsText recursionLimit text

/-- `data.get("cells", {})` of a dict, where that is a dict too. -/
def cellsOf (data : Json) : Dict PyStr Json :=
  match data with
  | .obj items =>
    match Json.get? items "cells" with
    | some (.obj cells) => Dict.ofList cells
    | _ => ∅
  | _ => ∅

/-- `load`. A file that cannot be read, or is not JSON, gives an empty matrix. -/
def load (recursionLimit : Nat) (file : StateFile) (alpha : PyFloat) : Except Exc JsonScores :=
  match readScoreFile recursionLimit file with
  | .ok data => .ok { alpha := alpha, cells := cellsOf data }
  | .error e =>
    if e.cls.isOSError ∨ e.cls.isValueError then .ok { alpha := alpha } else .error e

/-! ## The operations -/

variable (u : Unicode)

/-- `cell[name]`. -/
def subscript (cell : Json) (name : String) : Except Exc Json :=
  match cell with
  | .obj fields =>
    match Json.get? fields name with
    | some value => .ok value
    | none => .error ⟨.keyError, "'" ++ name ++ "'"⟩
  | .str _ => .error ⟨.typeError, "string indices must be integers, not 'str'"⟩
  | .arr _ => .error ⟨.typeError, "list indices must be integers or slices, not str"⟩
  | value => .error ⟨.typeError, "'" ++ value.typeName ++ "' object is not subscriptable"⟩

/-- `float(cell[name])`. -/
def floatAt (cell : Json) (name : String) : Except Exc PyFloat := do
  Json.toFloat u (← subscript cell name)

/-- `cells.get(hotkey, {})`, used as a dict. -/
def row (m : JsonScores) (hotkey : PyStr) : Except Exc (Dict PyStr Json) := do
  return Dict.ofList (← itemsOf "get" ((m.cells.get? hotkey).getD (.obj [])))

/-- `by_cat.get(category)`, where a null is no cell. -/
def cellIn (byCat : Dict PyStr Json) (category : PyStr) : Option Json :=
  match byCat.get? category with
  | some .null => none
  | cell => cell

/-- What an observation makes of a cell. -/
def newScore (m : JsonScores) (cell : Option Json) (value : PyFloat) : Except Exc PyFloat :=
  match cell with
  | none => .ok value
  | some cell => do
    let score ← floatAt u cell "score"
    return PyFloat.add (PyFloat.mul m.alpha value)
      (PyFloat.mul (PyFloat.sub (.fin 1) m.alpha) score)

/-- `update`. -/
def update (m : JsonScores) (hotkey category : PyStr) (value now : PyFloat) :
    Except Exc JsonScores := do
  let byCat ← m.row hotkey
  let new ← m.newScore u (cellIn byCat category) value
  let cell := Json.obj [item "score" (.float new), item "updated_at" (.float now)]
  return { m with cells := m.cells.insert hotkey (.obj (byCat.insert category cell).entries) }

/-- `category_score`. -/
def categoryScore (m : JsonScores) (hotkey category : PyStr) : Except Exc (Option PyFloat) := do
  let byCat ← m.row hotkey
  match cellIn byCat category with
  | none => return none
  | some cell => return some (← floatAt u cell "score")

/-- One turn of `aggregate`'s loop. -/
def addCategory (m : JsonScores) (hotkey : PyStr) (now : PyFloat) (freshnessS : Option PyFloat)
    (total : PyFloat) (category : PyStr) : Except Exc PyFloat := do
  let byCat ← m.row hotkey
  match cellIn byCat category with
  | none => return total
  | some cell =>
    match freshnessS with
    | none => return PyFloat.add total (← floatAt u cell "score")
    | some window =>
      let updatedAt ← floatAt u cell "updated_at"
      if PyFloat.lt window (PyFloat.sub now updatedAt) then return total
      else return PyFloat.add total (← floatAt u cell "score")

/-- `aggregate`. -/
def aggregate (m : JsonScores) (hotkey : PyStr) (categories : List PyStr) (now : PyFloat)
    (freshnessS : Option PyFloat) : Except Exc PyFloat :=
  if categories.isEmpty then .ok (.fin 0)
  else do
    let total ← categories.foldlM (m.addCategory u hotkey now freshnessS) (.fin 0)
    return PyFloat.divNat total categories.length

/-- `prune`. -/
def prune (m : JsonScores) (validHotkeys : List PyStr) : JsonScores :=
  { m with cells := (m.cells.keys.filter (!validHotkeys.contains ·)).foldl Dict.erase m.cells }

/-- `{hk: i for i, hk in enumerate(hotkeys)}`. -/
def hotkeyToUid (hotkeys : List PyStr) : Dict PyStr Nat := Dict.ofList hotkeys.zipIdx

/-- One turn of the loop of `_recompute_all_scores`: a hotkey that left the metagraph is passed over. -/
def recomputeTurn (m : JsonScores) (hotkeys categories : List PyStr) (now freshnessS : PyFloat)
    (out : Dict Nat PyFloat) (hotkey : PyStr) : Except Exc (Dict Nat PyFloat) :=
  match (hotkeyToUid hotkeys).get? hotkey with
  | none => .ok out
  | some uid => do
    return out.insert uid (← m.aggregate u hotkey categories now (some freshnessS))

/-- `_recompute_all_scores`, over the hotkeys of the metagraph. -/
def recomputeAllScores (m : JsonScores) (hotkeys categories : List PyStr) (now freshnessS : PyFloat) :
    Except Exc (Dict Nat PyFloat) :=
  m.cells.keys.foldlM (m.recomputeTurn u hotkeys categories now freshnessS) ∅

/-- A later operation on the matrix. -/
inductive Op
  | update (hotkey category : PyStr) (value now : PyFloat)
  | categoryScore (hotkey category : PyStr)
  | aggregate (hotkey : PyStr) (categories : List PyStr) (now : PyFloat) (freshnessS : Option PyFloat)
  | prune (validHotkeys : List PyStr)
  | recomputeAllScores (hotkeys categories : List PyStr) (now freshnessS : PyFloat)

/-- The matrix after an operation, or what the operation raises. -/
def apply (m : JsonScores) : Op → Except Exc JsonScores
  | .update hotkey category value now => m.update u hotkey category value now
  | .categoryScore hotkey category => do
    let _ ← m.categoryScore u hotkey category
    return m
  | .aggregate hotkey categories now freshnessS => do
    let _ ← m.aggregate u hotkey categories now freshnessS
    return m
  | .prune validHotkeys => .ok (m.prune validHotkeys)
  | .recomputeAllScores hotkeys categories now freshnessS => do
    let _ ← m.recomputeAllScores u hotkeys categories now freshnessS
    return m

def run (m : JsonScores) (ops : List Op) : Except Exc JsonScores := ops.foldlM (apply u) m

end JsonScores

end TaoSubnet
