import TaoSubnet.Lib.Json

/-!
# The findings file

`secqurityVali/eval/findings.py`: bytes an agent wrote, turned into a `Findings` or refused. A refusal
is a `FindingsError`; anything else that is raised on the way is the interpreter's, and no clause of
this module catches it: a document nested past the recursion limit, an integer too long to convert,
an integer too large for a float, a digit that `isdigit` knows and `int` does not.
-/

namespace TaoSubnet

open Py

/-! ## Data -/

def MAX_FILE_BYTES : Nat := 1024 * 1024

def MAX_FINDINGS : Nat := 200

def MAX_STRING : Nat := 8192

structure Finding where
  endpoint : PyStr
  parameter : PyStr
  injectionType : PyStr
  payload : PyStr
  severity : PyStr
  confidence : PyFloat
  canary : Option PyStr := none
  responseExcerpt : PyStr := []
  deriving DecidableEq, Repr

structure ReproStep where
  findingIndex : Int
  method : PyStr
  path : PyStr
  query : List (PyStr × PyStr) := []
  deriving DecidableEq, Repr

structure Findings where
  runId : PyStr
  findings : List Finding
  reproduction : List ReproStep
  schemaVersion : PyStr
  agentName : PyStr
  agentVersion : PyStr
  deriving DecidableEq, Repr

/-- What parsing may raise: a refusal, or whatever escapes from the interpreter. -/
inductive FindingsFailure
  | findingsError (message : String)
  | raised (e : Exc)
  deriving DecidableEq, Repr

abbrev Parse (α : Type) := Except FindingsFailure α

/-! ## Defensive primitives -/

def require (cond : Bool) (message : String) : Parse Unit :=
  if cond then .ok () else .error (.findingsError message)

/-- `_str` of what a dictionary gave for a key; a missing key reads as null. -/
def strField (value : Option Json) (fieldName : String) (required : Bool := true)
    (default : String := "") : Parse PyStr :=
  match value with
  | none | some .null => do
    require (!required) (fieldName ++ " is required")
    return PyStr.ofString default
  | some (.str s) => do
    require (s.length ≤ MAX_STRING) (fieldName ++ " exceeds " ++ toString MAX_STRING ++ " chars")
    return s
  | some _ => .error (.findingsError (fieldName ++ " must be a string"))

def floatTooLarge : Exc := ⟨.overflowError, "int too large to convert to float"⟩

/-- `_float01`. -/
def float01 (value : Option Json) (fieldName : String) : Parse PyFloat :=
  let inRange (x : PyFloat) : Parse PyFloat := do
    require (PyFloat.le (.fin 0) x && PyFloat.le x (.fin 1)) (fieldName ++ " must be within [0, 1]")
    return x
  match value with
  | none | some .null => .ok (.fin 0)
  | some (.int n) =>
    if fitsDouble n then inRange (PyFloat.ofRat n) else .error (.raised floatTooLarge)
  | some (.float x) => inRange x
  | some _ => .error (.findingsError (fieldName ++ " must be a number"))

/-! ## Parsing -/

/-- `x or None` of a string. -/
def orNone (s : PyStr) : Option PyStr := if s.isEmpty then none else some s

/-- A value that is there and is not null. -/
def present (value : Option Json) : Bool :=
  match value with
  | none | some .null => false
  | some _ => true

/-- `_extract_canary`: at the finding, or under its evidence. -/
def extractCanary (item : List (PyStr × Json)) (index : Nat) : Parse (Option PyStr) :=
  let name := "finding " ++ toString index
  if present (Json.get? item "canary") then do
    return orNone (← strField (Json.get? item "canary") (name ++ " canary") false)
  else match Json.get? item "evidence" with
    | some (.obj evidence) =>
      if present (Json.get? evidence "canary") then do
        return orNone (← strField (Json.get? evidence "canary") (name ++ " evidence.canary") false)
      else .ok none
    | _ => .ok none

/-- `_parse_finding`. -/
def parseFinding (item : Json) (index : Nat) : Parse Finding :=
  let name := "finding " ++ toString index
  match item with
  | .obj item => do
    let endpoint ← strField (Json.get? item "endpoint") (name ++ " endpoint")
    let parameter ← strField (Json.get? item "parameter") (name ++ " parameter")
    let injectionType ← strField (Json.get? item "injection_type") (name ++ " injection_type") false
      "sql_injection"
    let payload ← strField (Json.get? item "payload") (name ++ " payload") false
    let severity ← strField (Json.get? item "severity") (name ++ " severity") false "unknown"
    let confidence ← float01 (Json.get? item "confidence") (name ++ " confidence")
    let canary ← extractCanary item index
    let excerpt ← strField (Json.get? item "response_excerpt") (name ++ " response_excerpt") false
    return ⟨endpoint, parameter, injectionType, payload, severity, confidence, canary,
      excerpt.take MAX_STRING⟩
  | _ => .error (.findingsError (name ++ " must be an object"))

/-- `item.get("finding_index", item.get("finding_id"))`, an `f1`-style id mapped to its position. -/
def findingIndexOf (u : Unicode) (item : List (PyStr × Json)) (index : Nat) : Parse Int :=
  let bad : Parse Int :=
    .error (.findingsError ("reproduction " ++ toString index ++ " finding_index must be an int"))
  match (Json.get? item "finding_index").or (Json.get? item "finding_id") with
  | some (.str s) =>
    let digits := PyStr.lstripOf 102 s
    if PyStr.isdigit u digits then
      match PyStr.toInt u digits with
      | .ok n => .ok (n - 1)
      | .error e => .error (.raised e)
    else bad
  | some (.int n) => .ok n
  | some (.bool b) => .ok (if b then 1 else 0)
  | _ => bad

/-- `{key: value for key, value in query.items()}` with both sides checked, the key first. -/
def cleanQuery (name : String) : List (PyStr × Json) → Parse (List (PyStr × PyStr))
  | [] => .ok []
  | (k, v) :: rest => do
    let key ← strField (some (.str k)) (name ++ " query key")
    let value ← strField (some v) (name ++ " query value") false
    return (key, value) :: (← cleanQuery name rest)

/-- `_parse_repro`. -/
def parseRepro (u : Unicode) (item : Json) (index nFindings : Nat) : Parse ReproStep :=
  let name := "reproduction " ++ toString index
  match item with
  | .obj item => do
    let findingIndex ← findingIndexOf u item index
    require (0 ≤ findingIndex && findingIndex < max nFindings 1) (name ++ " points at no finding")
    let method := u.upper (← strField (Json.get? item "method") (name ++ " method") false "GET")
    require (method = PyStr.ofString "GET" || method = PyStr.ofString "POST")
      (name ++ " method must be GET or POST")
    -- `item.get("query") or {}`: whatever is falsy is an empty query.
    let query : Option (List (PyStr × Json)) := match Json.get? item "query" with
      | some (.obj query) => some query
      | some v => if v.truthy then none else some []
      | none => some []
    match query with
    | none => .error (.findingsError (name ++ " query must be an object"))
    | some query => do
      require (query.length ≤ 32) (name ++ " has too many query params")
      let clean ← cleanQuery name query
      let path ← strField (Json.get? item "path") (name ++ " path")
      return ⟨findingIndex, method, path, clean⟩
  | _ => .error (.findingsError (name ++ " must be an object"))

/-- `[parse(item, i) for i, item in enumerate(items)]`. -/
def parseItems {α : Type} (parse : Json → Nat → Parse α) (i : Nat) : List Json → Parse (List α)
  | [] => .ok []
  | item :: rest => do
    let first ← parse item i
    return first :: (← parseItems parse (i + 1) rest)

/-- A list a document may leave out. -/
def listField (value : Option Json) (message : String) : Parse (List Json) :=
  match value with
  | none => .ok []
  | some (.arr items) => .ok items
  | some _ => .error (.findingsError message)

/-- Everything after the bytes were read as JSON. -/
def parseDocument (u : Unicode) (doc : Json) (expectedRunId : Option String) : Parse Findings :=
  match doc with
  | .obj data => do
    let runId ← strField (Json.get? data "run_id") "run_id"
    match expectedRunId with
    | some expected =>
      require (runId = PyStr.ofString expected) "run_id does not match this run"
    | none => pure ()
    let rawFindings ← listField (Json.get? data "findings") "findings must be a list"
    require (rawFindings.length ≤ MAX_FINDINGS)
      ("more than " ++ toString MAX_FINDINGS ++ " findings")
    let findings ← parseItems parseFinding 0 rawFindings
    let rawRepro ← listField (Json.get? data "reproduction") "reproduction must be a list"
    require (rawRepro.length ≤ MAX_FINDINGS) "too many reproduction steps"
    let reproduction ← parseItems (fun item i => parseRepro u item i findings.length) 0 rawRepro
    let agent : List (PyStr × Json) := match Json.get? data "agent" with
      | some (.obj agent) => agent
      | _ => []
    let schemaVersion ← strField (Json.get? data "schema_version") "schema_version" false
    let agentName ← strField (Json.get? agent "name") "agent.name" false
    let agentVersion ← strField (Json.get? agent "version") "agent.version" false
    return ⟨runId, findings, reproduction, schemaVersion, agentName, agentVersion⟩
  | _ => .error (.findingsError "top level must be a JSON object")

/-- `json.loads(raw or b"{}")` with the two decoding errors turned into a refusal. -/
def loadFindings (py : Interpreter) (raw : List UInt8) : Parse Json :=
  match Json.loads py.recursionLimit (if raw.isEmpty then "{}".toUTF8.toList else raw) with
  | .ok doc => .ok doc
  | .error e =>
    if e.cls = .jsonDecodeError ∨ e.cls = .unicodeDecodeError then
      .error (.findingsError ("not valid JSON: " ++ e.cls.name))
    else .error (.raised e)

def parseFindingsBytes (py : Interpreter) (raw : List UInt8) (expectedRunId : Option String) :
    Parse Findings := do
  require (raw.length ≤ MAX_FILE_BYTES) "findings file is too large"
  parseDocument py.unicode (← loadFindings py raw) expectedRunId

end TaoSubnet
