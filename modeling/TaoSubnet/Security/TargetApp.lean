import TaoSubnet.Lib.Query
import TaoSubnet.Security.Replay

/-!
# The target

`secqurityVali/targets/sqli_v1/app.py`: what it reads from its environment, its database, and its
answer to a request. The SQL engine is a parameter, and so is what `urlparse` holds against the
authority of a target that names one. A request is a method and the target of its request line.
-/

namespace TaoSubnet

open Py

/-! ## The per-run challenge, from the environment -/

structure TargetConfig where
  canary : PyStr
  secretTable : PyStr
  secretColumn : PyStr
  vulnEndpoint : PyStr
  vulnParam : PyStr
  allEndpoints : Json
  errorTrapEndpoint : PyStr
  variant : PyStr
  listenHost : PyStr
  listenPort : Int

/-- `os.getenv(key, default)`. -/
def getenv (env : List (PyStr × PyStr)) (key default : String) : PyStr :=
  (env.lookup (PyStr.ofString key)).getD (PyStr.ofString default)

def DEFAULT_ENDPOINTS : String :=
  "[\"/api/products\", \"/api/search\", \"/api/users\", \"/api/orders\", " ++
    "\"/api/lookup\", \"/api/items\", \"/api/inventory\"]"

/-- The constants of the module, as they are when it is imported. -/
def readConfig (py : Interpreter) (env : List (PyStr × PyStr)) : Except Exc TargetConfig := do
  let allEndpoints ← Json.loadsText py.recursionLimit
    (getenv env "SQLI_ALL_ENDPOINTS" DEFAULT_ENDPOINTS)
  let listenPort ← PyStr.toInt py.unicode (getenv env "SQLI_PORT" "8000")
  return {
    canary := getenv env "SQLI_CANARY" "dev-canary-0000000000000000"
    secretTable := getenv env "SQLI_SECRET_TABLE" "vault_dev"
    secretColumn := getenv env "SQLI_SECRET_COLUMN" "secret_dev"
    vulnEndpoint := getenv env "SQLI_VULN_ENDPOINT" "/api/products"
    vulnParam := getenv env "SQLI_VULN_PARAM" "q"
    allEndpoints := allEndpoints
    errorTrapEndpoint := getenv env "SQLI_ERROR_TRAP" "/api/report"
    variant := getenv env "SQLI_VARIANT" "union"
    listenHost := getenv env "SQLI_HOST" "0.0.0.0"
    listenPort := listenPort }

/-! ## The database -/

inductive ResultCell
  | null
  | int (n : Int)
  | real (x : PyFloat)
  | text (s : PyStr)
  | blob (bytes : List UInt8)

abbrev ResultRow := List ResultCell

structure Database where
  products : List ResultRow
  secretTable : PyStr
  secretColumn : PyStr
  canary : PyStr

def PRODUCTS : List ResultRow :=
  [[.int 1, .text (PyStr.ofString "Widget"), .real (PyFloat.ofRat 9.99)],
    [.int 2, .text (PyStr.ofString "Gadget"), .real (PyFloat.ofRat 19.99)],
    [.int 3, .text (PyStr.ofString "Sprocket"), .real (PyFloat.ofRat 4.5)],
    [.int 4, .text (PyStr.ofString "Cog"), .real (PyFloat.ofRat 2.25)]]

/-- `build_db`. -/
def buildDb (config : TargetConfig) : Database where
  products := PRODUCTS
  secretTable := config.secretTable
  secretColumn := config.secretColumn
  canary := config.canary

/-- What a request may raise: a `sqlite3.Error`, or something else. -/
inductive TargetError
  | sqlite (message : PyStr)
  | other (e : Exc)

/-- What raises no `sqlite3.Error`. -/
def builtin {α : Type} (x : Except Exc α) : Except TargetError α := x.mapError .other

/-- The engine: `execute(query, parameters)` with `fetchall()` and with `fetchone()`. -/
structure Sqlite where
  fetchall : Database → PyStr → List PyStr → Except TargetError (List ResultRow)
  fetchone : Database → PyStr → List PyStr → Except TargetError (Option ResultRow)

/-- What the app runs on. -/
structure TargetHost where
  py : Interpreter
  floatText : PyFloat → PyStr
  checkNetloc : PyStr → Except Exc Unit
  sqlite : Sqlite
  /-- What `http.server` answers to a method that the handler does not have. -/
  unsupported : PyStr → HttpResponse

structure TargetApp where
  host : TargetHost
  config : TargetConfig

/-- The counter, and what was printed. -/
structure TargetState where
  requestCount : Nat := 0
  printed : List PyStr := []

namespace TargetApp

variable (app : TargetApp)

def db : Database := buildDb app.config

/-- `_json`. The body is made before anything is sent. -/
def json (status : Nat) (payload : Json) : Except TargetError HttpResponse := do
  return ⟨status, asciiBytes (← builtin (Json.dumps app.host.floatText payload))⟩

def item (key : String) (value : Json) : PyStr × Json := (PyStr.ofString key, value)

/-- `_count_request`. -/
def countRequest : Prog TargetState TargetError Unit :=
  Prog.modify fun s =>
    { requestCount := s.requestCount + 1
      printed := s.printed ++ [PyStr.ofString ("REQUESTS:" ++ toString (s.requestCount + 1))] }

/-! ## The planted vulnerability -/

inductive Technique
  | union
  | boolean
  deriving DecidableEq

inductive SqlContext
  | string
  | numeric
  deriving DecidableEq

def techniqueOf (variant : PyStr) : Technique :=
  if (PyStr.ofString "boolean").isPrefixOf variant then .boolean else .union

def contextOf (variant : PyStr) : SqlContext :=
  if (PyStr.ofString "numeric").isSuffixOf variant then .numeric else .string

/-- The statement of `_vuln_union`. -/
def unionQuery (context : SqlContext) (value : PyStr) : PyStr :=
  match context with
  | .numeric => PyStr.ofString "SELECT id, name, price FROM products WHERE id = " ++ value
  | .string =>
    PyStr.ofString "SELECT id, name, price FROM products WHERE name LIKE '%" ++ value ++
      PyStr.ofString "%'"

/-- The statement of `_vuln_boolean`. -/
def booleanQuery (context : SqlContext) (value : PyStr) : PyStr :=
  match context with
  | .numeric =>
    PyStr.ofString "SELECT 1 FROM products WHERE id = " ++ value ++ PyStr.ofString " LIMIT 1"
  | .string =>
    PyStr.ofString "SELECT 1 FROM products WHERE name = '" ++ value ++ PyStr.ofString "' LIMIT 1"

/-- A cell, as `json.dumps` takes it. -/
def cellJson : ResultCell → Except Exc Json
  | .null => .ok .null
  | .int n => .ok (.int n)
  | .real x => .ok (.float x)
  | .text s => .ok (.str s)
  | .blob _ => .error ⟨.typeError, "Object of type bytes is not JSON serializable"⟩

/-- `[list(r) for r in rows]`. -/
def rowsJson (rows : List ResultRow) : Except Exc Json := do
  return .arr (← rows.mapM fun row => do return .arr (← row.mapM cellJson))

def sqlError (message : PyStr) : Json := .str (PyStr.ofString "sql error: " ++ message)

/-- `_vuln_union`. -/
def vulnUnion (value : PyStr) (context : SqlContext) : Except TargetError HttpResponse :=
  let query := unionQuery context value
  match app.host.sqlite.fetchall app.db query [] with
  | .error (.sqlite message) =>
    app.json 200 (.obj [item "error" (sqlError message), item "query" (.str query)])
  | .error e => .error e
  | .ok rows => do app.json 200 (.obj [item "results" (← builtin (rowsJson rows))])

/-- `_vuln_boolean`. -/
def vulnBoolean (value : PyStr) (context : SqlContext) : Except TargetError HttpResponse :=
  match app.host.sqlite.fetchone app.db (booleanQuery context value) [] with
  | .error (.sqlite message) => app.json 200 (.obj [item "error" (sqlError message)])
  | .error e => .error e
  | .ok row => app.json 200 (.obj [item "found" (.bool row.isSome)])

/-- `params.get(name, [""])[0]`. -/
def firstOf (params : Dict PyStr (List PyStr)) (name : PyStr) : PyStr :=
  ((params.get? name).getD [[]]).headD []

/-- `_vulnerable_search`. -/
def vulnerableSearch (params : Dict PyStr (List PyStr)) : Except TargetError HttpResponse :=
  let value := firstOf params app.config.vulnParam
  let context := contextOf app.config.variant
  match techniqueOf app.config.variant with
  | .boolean => app.vulnBoolean value context
  | .union => app.vulnUnion value context

/-! ## The decoys -/

def SAFE_QUERY : PyStr := PyStr.ofString "SELECT id, name, price FROM products WHERE name LIKE ?"

def SAFE_PARAMS : List PyStr := ["q", "id", "name", "filter", "search", "query"].map PyStr.ofString

/-- The parameter a safe endpoint searches for: the first of those it knows. -/
def safeValue (params : Dict PyStr (List PyStr)) : PyStr :=
  match SAFE_PARAMS.find? fun name => params.contains name with
  | some name => firstOf params name
  | none => []

/-- `_safe_search`. Nothing of what executing it raises is caught. -/
def safeSearch (path : PyStr) (params : Dict PyStr (List PyStr)) : Except TargetError HttpResponse := do
  let rows ← app.host.sqlite.fetchall app.db SAFE_QUERY [[37] ++ safeValue params ++ [37]]
  app.json 200 (.obj [item "endpoint" (.str path), item "results" (← builtin (rowsJson rows))])

/-- `_error_trap`. -/
def errorTrap (params : Dict PyStr (List PyStr)) : Except TargetError HttpResponse :=
  let value := firstOf params (PyStr.ofString "q")
  if 39 ∈ value ∨ 34 ∈ value ∨ isInfixPy (PyStr.ofString "--") value then
    app.json 200 (.obj [
      item "error" (.str (PyStr.ofString "SQL syntax error near unexpected token; query aborted")),
      item "code" (.str (PyStr.ofString "ER_PARSE_ERROR"))])
  else
    app.json 200 (.obj [item "endpoint" (.str app.config.errorTrapEndpoint), item "results" (.arr [])])

/-- `e.rstrip("/")`. -/
def knownPath : Json → Except Exc PyStr
  | .str e => .ok (rstripSlash e)
  | value => .error (Json.noAttribute value "rstrip")

/-- `[e.rstrip("/") for e in ALL_ENDPOINTS]`. -/
def knownPaths : Json → Except Exc (List PyStr)
  | .arr items => items.mapM knownPath
  | .obj items => .ok (items.map fun p => rstripSlash p.1)
  | .str s => .ok (s.map fun c => rstripSlash [c])
  | value => .error ⟨.typeError, "'" ++ value.typeName ++ "' object is not iterable"⟩

/-! ## Requests -/

/-- `parsed.path.rstrip("/") or "/"`. -/
def servedPath (path : PyStr) : PyStr := if rstripSlash path = [] then [47] else rstripSlash path

/-- What is not a health check. -/
def dispatch (path : PyStr) (params : Dict PyStr (List PyStr)) : Except TargetError HttpResponse := do
  if path = rstripSlash app.config.vulnEndpoint then app.vulnerableSearch params
  else if path = rstripSlash app.config.errorTrapEndpoint then app.errorTrap params
  else if path ∈ (← builtin (knownPaths app.config.allEndpoints)) then app.safeSearch path params
  else app.json 404 (.obj [item "error" (.str (PyStr.ofString "no such endpoint"))])

/-- `do_GET`, once the target is parsed. -/
def respond (path : PyStr) (params : Dict PyStr (List PyStr)) :
    Prog TargetState TargetError HttpResponse := do
  if path = [47] ∨ path = PyStr.ofString "/health" then
    Prog.ofExcept (app.json 200 (.obj [item "ok" (.bool true),
      item "service" (.str (PyStr.ofString "sqli-target"))]))
  else
    countRequest
    Prog.ofExcept (app.dispatch path params)

/-- `do_GET`. -/
def doGet (target : PyStr) : Prog TargetState TargetError HttpResponse := do
  let parsed ← Prog.ofExcept (builtin (Url.urlparse app.host.checkNetloc target))
  app.respond (servedPath parsed.1) (Url.parseQs parsed.2)

/-- One request: a method, and the target of its request line. -/
def handle (method target : PyStr) : Prog TargetState TargetError HttpResponse :=
  if method = PyStr.ofString "GET" then app.doGet target
  else return app.host.unsupported method

end TargetApp

end TaoSubnet
