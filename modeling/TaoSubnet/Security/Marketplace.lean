import TaoSubnet.Security.Job

/-!
# What is published of an agent

`masxai/marketplace_client.py`: who qualifies, and the record that is sent. The time of an
evaluation stays a number; on the wire it is rendered as a date.
-/

namespace TaoSubnet

open Py

def MARKETPLACE_MIN_SCORE : ℚ := 1

def MARKETPLACE_SCORE_TOLERANCE : ℚ := 1 / 1000

def FORBIDDEN_KEY_FRAGMENTS : List String :=
  ["blob", "image", "ciphertext", "layer", "digest", "entrypoint", "repo_tag", "log", "findings",
    "payload", "url"]

def isForbiddenKey (key : String) : Bool :=
  FORBIDDEN_KEY_FRAGMENTS.any fun fragment => isIn fragment (lower key)

/-- `_display`: no control characters, and at most 64. -/
def display (text : PyStr) : PyStr :=
  (PyStr.strip (text.filter fun n => !(n ≤ 0x1f || n == 0x7f))).take 64

/-- `round(x, 4)`. -/
def round4 (x : ℚ) : ℚ := PyFloat.roundEven (x * 10000) / 10000

/-- `should_publish`. -/
def shouldPublish (aggregate : ℚ) (agentId : Option String) (listed : List String)
    (minScore tolerance : ℚ) : Bool :=
  match agentId with
  | none => false
  | some id =>
    if id = "" then false
    else if listed.contains id then true
    else minScore ≤ aggregate + tolerance

/-- The run of a record. -/
structure RunPayload where
  runId : String
  category : String
  variant : String
  score : ℚ
  safe : Bool
  accepted : Bool
  requests : Int
  durationMs : Int
  evaluatedAt : ℚ
  deriving DecidableEq

structure AgentPayload where
  agentId : String
  minerHotkey : String
  minerUid : Nat
  netuid : Int
  mechid : Int
  validatorHotkey : String
  name : PyStr
  version : PyStr
  overallScore : ℚ
  categoryScores : List (String × ℚ)
  run : RunPayload
  deriving DecidableEq

/-- The keys of a record; those of its category scores are the categories. -/
def AgentPayload.keys (payload : AgentPayload) : List String :=
  ["agent_id", "miner_hotkey", "miner_uid", "netuid", "mechid", "validator_hotkey", "name",
    "version", "overall_score", "category_scores"] ++ payload.categoryScores.map Prod.fst ++
  ["run", "run_id", "category", "variant", "score", "safe", "accepted", "requests", "duration_ms",
    "evaluated_at"]

/-- `assert_publishable` of a record. -/
def AgentPayload.publishable (payload : AgentPayload) : Bool := !payload.keys.any isForbiddenKey

/-- What the caller of `build_agent_payload` fixes: the agent, its miner, and where it was scored. -/
structure PayloadContext where
  agentId : String
  minerHotkey : String
  minerUid : Nat
  netuid : Int
  mechid : Int
  validatorHotkey : String

/-- `build_agent_payload`; `none` where its last check raises. -/
def buildAgentPayload (context : PayloadContext) (overallScore : ℚ)
    (categoryScores : List (String × ℚ)) (job : JobResult) (evaluatedAt : ℚ) :
    Option AgentPayload :=
  let payload : AgentPayload := {
    agentId := context.agentId
    minerHotkey := context.minerHotkey
    minerUid := context.minerUid
    netuid := context.netuid
    mechid := context.mechid
    validatorHotkey := context.validatorHotkey
    name := display job.agentName
    version := display job.agentVersion
    overallScore := round4 overallScore
    categoryScores := categoryScores.map fun p => (p.1, round4 p.2)
    run := {
      runId := job.runId
      category := job.category
      variant := job.variant
      score := match job.task with
        | some task => round4 task.score
        | none => 0
      safe := job.safe
      accepted := job.accepted
      requests := job.requestCount
      durationMs := job.durationMs
      evaluatedAt := evaluatedAt } }
  if payload.publishable then some payload else none

theorem minerHotkey_buildAgentPayload {context : PayloadContext} {overallScore evaluatedAt : ℚ}
    {categoryScores : List (String × ℚ)} {job : JobResult} {payload : AgentPayload}
    (h : buildAgentPayload context overallScore categoryScores job evaluatedAt = some payload) :
    payload.minerHotkey = context.minerHotkey := by
  unfold buildAgentPayload at h
  obtain ⟨-, hpayload⟩ := Option.ite_none_right_eq_some.mp h
  rw [← Option.some.inj hpayload]

end TaoSubnet
