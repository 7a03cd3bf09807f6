import TaoSubnet.Lib.Attempts
import TaoSubnet.Lib.Numbers

/-!
# The client of the key protocol

`masxai/llm_key_client.py`: the constructor, and `_request_json` with the wait between two requests.
What the transport makes of each request is an outcome; the body of a request is already bytes.
-/

namespace TaoSubnet

open Py

def LLM_KEY_MAX_RETRIES : Int := 3

def LLM_KEY_VALIDATOR_TOKEN_ENV : String := "MASXAI_LLM_KEY_VALIDATOR_TOKEN"

/-! ## What the transport does -/

structure HttpxResponse where
  statusCode : Nat
  /-- The `Retry-After` header. -/
  retryAfter : Option PyStr := none
  content : List UInt8 := []
  deriving DecidableEq

/-- `is_success`, what `raise_for_status` lets through. -/
def HttpxResponse.isSuccess (r : HttpxResponse) : Bool := 200 ≤ r.statusCode && r.statusCode ≤ 299

/-- `429`, or a server error. -/
def HttpxResponse.isTransient (r : HttpxResponse) : Bool :=
  r.statusCode == 429 || (500 ≤ r.statusCode && r.statusCode < 600)

/-- What one `client.request` comes to. -/
inductive HttpxOutcome
  | response (r : HttpxResponse)
  /-- `httpx.RequestError`: no usable answer came back. -/
  | requestError (message : String)
  /-- Anything else it may raise. -/
  | raised (e : Exc)

structure HttpxRequest where
  method : String
  path : String
  headers : List (String × String)
  content : Option (List UInt8)
  deriving DecidableEq

/-! ## The client -/

/-- An `LLMKeyClient`: it makes at least one request, and its URL does not end in a slash. -/
structure LLMKeyClient where
  baseUrl : String
  validatorToken : String
  maxRetries : Nat
  retries_pos : 1 ≤ maxRetries

/-- `max(1, max_retries)`. -/
def clampRetries (maxRetries : Int) : Nat := (max 1 maxRetries).toNat

theorem clampRetries_cast (maxRetries : Int) : (clampRetries maxRetries : Int) = max 1 maxRetries :=
  Int.toNat_of_nonneg (le_trans (by decide) (le_max_left 1 maxRetries))

theorem clampRetries_pos (maxRetries : Int) : 1 ≤ clampRetries maxRetries := by
  have hcast := clampRetries_cast maxRetries
  have hone := le_max_left 1 maxRetries
  omega

/-- `url.rstrip("/")`. -/
def rstripUrl (url : String) : String := String.ofList (url.toList.rdropWhile (· = '/'))

/-- `LLMKeyClient.__init__`. -/
def LLMKeyClient.init (baseUrl validatorToken : String) (maxRetries : Int) :
    Except Exc LLMKeyClient :=
  if baseUrl = "" then .error ⟨.valueError, "LLM-key protocol base_url is required"⟩
  else if validatorToken = "" then
    .error ⟨.valueError, "LLM-key protocol validator_token is required; set " ++
      LLM_KEY_VALIDATOR_TOKEN_ENV⟩
  else .ok {
    baseUrl := rstripUrl baseUrl
    validatorToken := validatorToken
    maxRetries := clampRetries maxRetries
    retries_pos := clampRetries_pos maxRetries }

namespace LLMKeyClient

/-- `_auth_headers`. -/
def authHeaders (client : LLMKeyClient) : List (String × String) :=
  if client.validatorToken = "" then [] else [("X-Validator-Key", client.validatorToken)]

/-- The request each attempt makes; a body that is empty is none. -/
def request (client : LLMKeyClient) (method path : String) (body : List UInt8) : HttpxRequest where
  method := method
  path := path
  headers := client.authHeaders ++
    if body.isEmpty then [] else [("Content-Type", "application/json")]
  content := if body.isEmpty then none else some body

end LLMKeyClient

/-! ## A request and its retries -/

/-- What the waits and the decoder run on. -/
structure ClientHost where
  py : Interpreter
  /-- `LLM_KEY_RETRY_AFTER_MAX_SECONDS`, as the environment sets it. -/
  ceiling : PyFloat := .fin 30

/-- `min(a, b)`. -/
def pyMin (a b : PyFloat) : PyFloat := if PyFloat.lt b a then b else a

/-- `max(a, b)`. -/
def pyMax (a b : PyFloat) : PyFloat := if PyFloat.lt a b then b else a

/-- The seconds of a `Retry-After` header; one that is no number is ignored. -/
def retryAfterSeconds (host : ClientHost) (retryAfter : Option PyStr) : Option PyFloat :=
  match retryAfter with
  | none => none
  | some text => if text.isEmpty then none else (PyStr.toFloat host.py.unicode text).toOption

/-- `_sleep_for_retry`: how long it sleeps. -/
def sleepForRetry (host : ClientHost) (retryAfter : Option PyStr) (attempt : Nat) :
    Except Exc PyFloat :=
  match retryAfterSeconds host retryAfter with
  | some seconds => .ok (pyMin (pyMax (.fin 0) seconds) host.ceiling)
  | none => backoff 3 attempt

/-- What `_request_json` raises. -/
inductive RequestFailure
  /-- `httpx.HTTPStatusError`. -/
  | httpStatus (statusCode : Nat)
  | requestError (message : String)
  | raised (e : Exc)
  deriving DecidableEq

/-- The body of a response that is a success: nothing is read as an empty object. -/
def HttpxResponse.decode (host : ClientHost) (r : HttpxResponse) : Except Exc Json :=
  if r.content.isEmpty then .ok (.obj []) else Json.loads host.py.recursionLimit r.content

/-- `raise_for_status`, then the body. -/
def HttpxResponse.settle (host : ClientHost) (r : HttpxResponse) : Except RequestFailure Json :=
  if r.isSuccess then (r.decode host).mapError .raised else .error (.httpStatus r.statusCode)

/-- Another attempt, once the wait before it is over. -/
def afterWait (wait : Except Exc PyFloat) : Attempt (Except RequestFailure Json) :=
  match wait with
  | .ok _ => .again
  | .error e => .stop (.error (.raised e))

/-- One turn of the loop. -/
def requestTurn (host : ClientHost) (maxRetries : Nat) (outcome : HttpxOutcome) (attempt : Nat) :
    Attempt (Except RequestFailure Json) :=
  match outcome with
  | .response r =>
    if r.isTransient && attempt < maxRetries then
      afterWait (sleepForRetry host r.retryAfter attempt)
    else .stop (r.settle host)
  | .requestError message =>
    if maxRetries ≤ attempt then .stop (.error (.requestError message))
    else afterWait (sleepForRetry host none attempt)
  | .raised e => .stop (.error (.raised e))

/-- What a call of `_request_json` did: the requests it sent, and how its loop ended, if not by
    running out of attempts. -/
structure Exchange where
  requests : List HttpxRequest
  ended : Option (Except RequestFailure Json)

/-- The value of the call. After the loop comes `return {}`. -/
def Exchange.result (exchange : Exchange) : Except RequestFailure Json :=
  exchange.ended.getD (.ok (.obj []))

/-- `_request_json`, where `outcomes` numbers the requests from one. -/
def requestJson (host : ClientHost) (client : LLMKeyClient) (method path : String)
    (body : List UInt8) (outcomes : Nat → HttpxOutcome) : Exchange :=
  let run := attempts (fun attempt => requestTurn host client.maxRetries (outcomes attempt) attempt)
    1 client.maxRetries
  { requests := List.replicate run.1 (client.request method path body), ended := run.2 }

end TaoSubnet
