import TaoSubnet.Lib.Substring
import TaoSubnet.LlmKey.Client
import TaoSubnet.Security.Marketplace

/-!
# What leaves for the marketplace

`masxai/marketplace_client.py` from `assert_publishable` on: the check of a payload, which is any nesting
of dicts, lists and tuples, and the push. A call of `assert_publishable` takes a frame of the
interpreter's stack, and so does every call it makes in turn.
-/

namespace TaoSubnet

open Py

/-- The categories that are scored, and so the keys of a record's `category_scores`. -/
def SECURITY_ACTIVE_CATEGORIES : List String := ["sqli"]

def MARKETPLACE_MAX_RETRIES : Int := 3

def MARKETPLACE_AGENTS_PATH : String := "/api/internal/agents"

/-! ## Payloads -/

/-- A key of a dict, of whatever type: `str(key)` and `repr(key)`. -/
structure PayloadKey where
  text : PyStr
  repr : PyStr
  deriving DecidableEq

/-- A key that is a string. -/
def PayloadKey.ofString (s : String) : PayloadKey where
  text := PyStr.ofString s
  repr := PyStr.ofString (Py.reprStr s)

/-- A payload. What is no container is a leaf, and never looked at. -/
inductive Payload (β : Type)
  | dict (items : List (PayloadKey × Payload β))
  | list (items : List (Payload β))
  | tuple (items : List (Payload β))
  | leaf (value : β)

/-! ## The check -/

/-- What `assert_publishable` raises. -/
inductive PublishError
  /-- `ValueError`: the path to the key, the key, and the fragment it matches. -/
  | forbidden (path : PyStr) (key : PayloadKey) (fragment : String)
  | recursion

/-- `str(e)` of the `ValueError`. -/
def PublishError.message : PublishError → PyStr
  | .forbidden path key fragment =>
    PyStr.ofString "marketplace payload must not carry " ++ path ++ key.repr ++
      PyStr.ofString (" (matches forbidden fragment " ++ Py.reprStr fragment ++ ")")
  | .recursion => PyStr.ofString "maximum recursion depth exceeded"

/-- The first forbidden fragment in a key. -/
def forbiddenFragment (u : Unicode) (key : PayloadKey) : Option String :=
  FORBIDDEN_KEY_FRAGMENTS.find? fun fragment =>
    occursIn (PyStr.ofString fragment) (u.lower key.text)

/-- The loop over the fragments. -/
def checkKey (u : Unicode) (path : PyStr) (key : PayloadKey) : Except PublishError Unit :=
  match forbiddenFragment u key with
  | some fragment => .error (.forbidden path key fragment)
  | none => .ok ()

/-- `assert_publishable`, with so many frames left on the stack. -/
def assertPublishable {β : Type} (u : Unicode) : Nat → Payload β → PyStr → Except PublishError Unit
  | 0, _, _ => .error .recursion
  | frames + 1, .dict items, path => items.forM fun item => do
    checkKey u path item.1
    assertPublishable u frames item.2 (path ++ item.1.text ++ [46])
  | frames + 1, .list items, path => items.forM fun item => assertPublishable u frames item path
  | frames + 1, .tuple items, path => items.forM fun item => assertPublishable u frames item path
  | _ + 1, .leaf _, _ => .ok ()

/-! ## A record as a payload -/

def RunPayload.record (run : RunPayload) : Payload Json :=
  .dict [
    (.ofString "run_id", .leaf (.str (PyStr.ofString run.runId))),
    (.ofString "category", .leaf (.str (PyStr.ofString run.category))),
    (.ofString "variant", .leaf (.str (PyStr.ofString run.variant))),
    (.ofString "score", .leaf (.float (.fin run.score))),
    (.ofString "safe", .leaf (.bool run.safe)),
    (.ofString "accepted", .leaf (.bool run.accepted)),
    (.ofString "requests", .leaf (.int run.requests)),
    (.ofString "duration_ms", .leaf (.int run.durationMs)),
    (.ofString "evaluated_at", .leaf (.float (.fin run.evaluatedAt)))]

def AgentPayload.record (payload : AgentPayload) : Payload Json :=
  .dict [
    (.ofString "agent_id", .leaf (.str (PyStr.ofString payload.agentId))),
    (.ofString "miner_hotkey", .leaf (.str (PyStr.ofString payload.minerHotkey))),
    (.ofString "miner_uid", .leaf (.int payload.minerUid)),
    (.ofString "netuid", .leaf (.int payload.netuid)),
    (.ofString "mechid", .leaf (.int payload.mechid)),
    (.ofString "validator_hotkey", .leaf (.str (PyStr.ofString payload.validatorHotkey))),
    (.ofString "name", .leaf (.str payload.name)),
    (.ofString "version", .leaf (.str payload.version)),
    (.ofString "overall_score", .leaf (.float (.fin payload.overallScore))),
    (.ofString "category_scores", .dict (payload.categoryScores.map fun p =>
      (.ofString p.1, .leaf (.float (.fin p.2))))),
    (.ofString "run", payload.run.record)]

/-! ## The push -/

/-- A `MarketplaceClient`: it makes at least one request. -/
structure MarketplaceClient where
  baseUrl : String
  token : String
  maxRetries : Nat
  retries_pos : 1 ≤ maxRetries

/-- `MarketplaceClient.__init__`. -/
def MarketplaceClient.init (baseUrl token : String) (maxRetries : Int) :
    Except Exc MarketplaceClient :=
  if baseUrl = "" then .error ⟨.valueError, "marketplace base_url is required"⟩
  else if token = "" then
    .error ⟨.valueError, "marketplace token is required; set MASXAI_MARKETPLACE_TOKEN"⟩
  else .ok {
    baseUrl := rstripUrl baseUrl
    token := token
    maxRetries := clampRetries maxRetries
    retries_pos := clampRetries_pos maxRetries }

/-- What a push runs on: the host, the frames its call of the check finds on the stack, and the
    bytes `json.dumps` makes of a payload. -/
structure PushHost (β : Type) where
  host : ClientHost
  frames : Nat
  dumps : Payload β → Except Exc (List UInt8)

def MarketplaceClient.request (client : MarketplaceClient) (body : List UInt8) : HttpxRequest where
  method := "POST"
  path := MARKETPLACE_AGENTS_PATH
  headers := [("Authorization", "Bearer " ++ client.token), ("Content-Type", "application/json")]
  content := some body

/-- `_backoff`: how long it sleeps. -/
def pushBackoff (host : ClientHost) (retryAfter : Option PyStr) (attempt : Nat) :
    Except Exc PyFloat :=
  match retryAfterSeconds host retryAfter with
  | some seconds => .ok (pyMin (pyMax (.fin 0) seconds) (.fin 5))
  | none => backoff 2 attempt

/-- Another attempt, once the wait before it is over; a wait that raises ends the push. -/
def pushAfterWait (wait : Except Exc PyFloat) : Attempt Bool :=
  match wait with
  | .ok _ => .again
  | .error _ => .stop false

/-- One turn of the loop, inside the handler that turns every exception into `False`. -/
def pushTurn (host : ClientHost) (maxRetries : Nat) (outcome : HttpxOutcome) (attempt : Nat) :
    Attempt Bool :=
  match outcome with
  | .requestError _ =>
    if maxRetries ≤ attempt then .stop false else pushAfterWait (pushBackoff host none attempt)
  | .response r =>
    if r.isSuccess then .stop true
    else if (r.statusCode == 429 || 500 ≤ r.statusCode) && attempt < maxRetries then
      pushAfterWait (pushBackoff host r.retryAfter attempt)
    else .stop false
  | .raised _ => .stop false

/-- `push_agent`: the requests it sends, and what it returns. The check's `ValueError` is caught;
    what else the check raises, or `json.dumps`, is not. -/
def pushAgent {β : Type} (h : PushHost β) (client : MarketplaceClient) (payload : Payload β)
    (outcomes : Nat → HttpxOutcome) : Except Exc (List HttpxRequest × Bool) :=
  match assertPublishable h.host.py.unicode h.frames payload [] with
  | .error (.forbidden ..) => .ok ([], false)
  | .error .recursion => .error ⟨.recursionError, "maximum recursion depth exceeded"⟩
  | .ok () =>
    match h.dumps payload with
    | .error e => .error e
    | .ok body =>
      let run := attempts
        (fun attempt => pushTurn h.host client.maxRetries (outcomes attempt) attempt) 1
        client.maxRetries
      .ok (List.replicate run.1 (client.request body), run.2.getD false)

end TaoSubnet
