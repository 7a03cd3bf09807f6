import Mathlib.Data.Vector.Defs
import TaoSubnet.Lib.Text

/-!
# The answer key, and the target built from it

`secqurityVali/eval/challenge.py` and `secqurityVali/targets/sqli_v1/provision.py`. The random choices
of `generate_challenge` are made outside and come in as `Draws`.
-/

namespace TaoSubnet

def INJECTION_TYPE : String := "sql_injection"

def CATEGORY_SQLI : String := "sqli"

structure Challenge where
  canary : String
  secretTable : String
  secretColumn : String
  vulnerableEndpoint : String
  vulnerableParameter : String
  injectionType : String := INJECTION_TYPE
  category : String := CATEGORY_SQLI
  variant : String := "union"
  safeEndpoints : List String := []
  errorTrapEndpoint : String := ""
  deriving DecidableEq, Repr

/-! ## Drawing a challenge -/

def SECRET_HOLDERS : List String := ["vault", "store", "cache", "registry", "ledger", "safe", "locker"]

def COLUMN_NOUNS : List String :=
  ["value", "data", "content", "payload", "detail", "field", "note", "secret"]

def CANDIDATE_ENDPOINTS : List String :=
  ["/api/products", "/api/search", "/api/users", "/api/orders", "/api/lookup", "/api/items",
    "/api/inventory", "/api/report", "/api/accounts", "/api/catalog"]

def VULNERABLE_PARAMETERS : List String := ["q", "id", "name", "filter", "query"]

def SQLI_VARIANTS : List String := ["union", "union_numeric", "boolean", "boolean_numeric"]

def CANARY_BYTES : Nat := 16

/-- What `generate_challenge` draws: bytes for `token_hex`, choices, and the endpoints in the order that
    `shuffle` leaves them in. -/
structure Draws where
  canary : List.Vector UInt8 CANARY_BYTES
  holder : Fin SECRET_HOLDERS.length
  tableSuffix : List.Vector UInt8 2
  noun : Fin COLUMN_NOUNS.length
  columnSuffix : List.Vector UInt8 2
  vulnerable : String
  safe : List String
  shuffled : (vulnerable :: safe).Perm CANDIDATE_ENDPOINTS
  trap : Fin safe.length
  parameter : Fin VULNERABLE_PARAMETERS.length
  variant : Fin SQLI_VARIANTS.length

/-- `secrets.token_hex`, of the bytes that were drawn. -/
def tokenHex (bytes : List UInt8) : String :=
  String.ofList (bytes.flatMap fun b => Py.hex2 b.toNat)

/-- `generate_challenge`. -/
def generateChallenge (draws : Draws) : Challenge where
  canary := tokenHex draws.canary.toList
  secretTable := SECRET_HOLDERS.get draws.holder ++ "_" ++ tokenHex draws.tableSuffix.toList
  secretColumn := COLUMN_NOUNS.get draws.noun ++ "_" ++ tokenHex draws.columnSuffix.toList
  vulnerableEndpoint := draws.vulnerable
  vulnerableParameter := VULNERABLE_PARAMETERS.get draws.parameter
  variant := SQLI_VARIANTS.get draws.variant
  safeEndpoints := draws.safe
  errorTrapEndpoint := draws.safe.get draws.trap

/-! ## The target's environment -/

/-- The tag the target is built as. -/
def TARGET_IMAGE : String := "secqurityvali-target-sqli:v1"

def TARGET_PORT : Nat := 8000

/-- One character of `json.dumps` with `ensure_ascii`. -/
def dumpsChar (c : Char) : List Char :=
  let u (n : Nat) : List Char := '\\' :: 'u' :: (Py.hex2 (n / 256) ++ Py.hex2 n)
  let n := c.toNat
  if c = '"' then ['\\', '"']
  else if c = '\\' then ['\\', '\\']
  else if c = '\n' then ['\\', 'n']
  else if c = '\r' then ['\\', 'r']
  else if c = '\t' then ['\\', 't']
  else if n = 8 then ['\\', 'b']
  else if n = 12 then ['\\', 'f']
  else if 32 ≤ n ∧ n < 127 then [c]
  else if n < 0x10000 then u n
  else u (0xD800 + (n - 0x10000) / 0x400) ++ u (0xDC00 + (n - 0x10000) % 0x400)

/-- `json.dumps` of a list of strings. -/
def dumpsStrList (l : List String) : String :=
  "[" ++ ", ".intercalate (l.map fun s =>
    "\"" ++ String.ofList (s.toList.flatMap dumpsChar) ++ "\"") ++ "]"

def targetEnv (challenge : Challenge) : List (String × String) :=
  [("SQLI_CANARY", challenge.canary),
   ("SQLI_SECRET_TABLE", challenge.secretTable),
   ("SQLI_SECRET_COLUMN", challenge.secretColumn),
   ("SQLI_VULN_ENDPOINT", challenge.vulnerableEndpoint),
   ("SQLI_VULN_PARAM", challenge.vulnerableParameter),
   ("SQLI_ALL_ENDPOINTS",
     dumpsStrList (challenge.vulnerableEndpoint :: challenge.safeEndpoints)),
   ("SQLI_ERROR_TRAP", challenge.errorTrapEndpoint),
   ("SQLI_VARIANT", challenge.variant),
   ("SQLI_PORT", toString TARGET_PORT),
   ("SQLI_HOST", "0.0.0.0")]

def dockerEnvArgs (challenge : Challenge) : List String :=
  (targetEnv challenge).flatMap fun (key, value) => ["-e", key ++ "=" ++ value]

end TaoSubnet
