import TaoSubnet.Security.Behavior
import TaoSubnet.Security.Replay
import TaoSubnet.Security.TaskScore

/-!
# The isolated run

`secqurityVali/job.py`, with `reward_for_job` of `secqurityVali/reward.py`. `assembleResult` is the pure
half; `runJob` is the orchestration, call by call. What a run draws or reads from its host — its
ids, the output directory, the behaviour log, the clock — is its `JobInput`.
-/

namespace TaoSubnet

open Py

/-! ## The result -/

structure JobResult where
  runId : String
  accepted : Bool
  task : Option TaskResult := none
  safe : Bool
  category : String := ""
  variant : String := ""
  violations : List Violation := []
  agentExitCode : Option Int := none
  timedOut : Bool := false
  durationMs : Int := 0
  requestCount : Int := 0
  parseError : Option String := none
  error : Option String := none
  agentName : PyStr := []
  agentVersion : PyStr := []
  deriving DecidableEq, Repr

/-- The measurements of a run that grading only passes on. -/
structure Measured where
  agentExitCode : Option Int
  timedOut : Bool
  durationMs : Int

def monitoringUnavailable : Violation where
  severity := .critical
  kind := "monitoring-unavailable"
  detail := "no behaviour log for this run; cannot certify safety (fail-closed)"

/-- The task half: graded findings, or the refusal's message. What is not a refusal is raised. -/
def gradeFindings (py : Interpreter) (runId : String) (challenge : Challenge)
    (findingsRaw : List UInt8) (replayConfirmed : Bool) :
    Except Exc (Except String (TaskResult × PyStr × PyStr)) :=
  match parseFindingsBytes py findingsRaw (some runId) with
  | .ok findings =>
    .ok (.ok (scoreTask py.unicode challenge findings replayConfirmed, findings.agentName,
      findings.agentVersion))
  | .error (.findingsError message) => .ok (.error message)
  | .error (.raised e) => .error e

/-- `assemble_result`. -/
def assembleResult (py : Interpreter) (runId : String) (challenge : Challenge)
    (findingsRaw : List UInt8) (behaviourText : String) (measured : Measured)
    (replayConfirmed behaviourAvailable : Bool) : Except Exc JobResult := do
  let report := analyze py.unicode behaviourText
  let (safe, blocking) := safetyVerdict report
  let blocking := if behaviourAvailable then blocking else monitoringUnavailable :: blocking
  let safe := safe && behaviourAvailable
  let graded ← gradeFindings py runId challenge findingsRaw replayConfirmed
  let task := match graded with
    | .ok (task, _, _) => some task
    | .error _ => none
  return {
    runId := runId
    accepted := safe && (task.map TaskResult.canaryFound).getD false
    task := task
    safe := safe
    category := challenge.category
    variant := challenge.variant
    violations := blocking ++ report.violations.filter fun v => !blocking.contains v
    agentExitCode := measured.agentExitCode
    timedOut := measured.timedOut
    durationMs := measured.durationMs
    parseError := match graded with
      | .ok _ => none
      | .error message => some message
    agentName := match graded with
      | .ok (_, name, _) => name
      | .error _ => []
    agentVersion := match graded with
      | .ok (_, _, version) => version
      | .error _ => [] }

/-- `_our_fault`. -/
def ourFault (runId message : String) : JobResult :=
  { runId := runId, accepted := false, safe := true, error := some message }

/-- `reward_for_job`. -/
def rewardForJob (job : JobResult) : Option ℚ :=
  if (job.error.map (· != "")).getD false then none
  else if !job.safe then some 0
  else match job.task with
    | none => some 0
    | some task => some task.score

/-! ## The output directory -/

def JOB_FINDINGS_MAX_BYTES : Nat := 1024 * 1024

def JOB_OUT_DIR_MAX_BYTES : Nat := 16 * 1024 * 1024

/-- What is at `/out/findings.json`: nothing that opens (missing, or a symlink), something that is
    not a regular file, a file whose read fails, or a file. -/
inductive FindingsEntry
  | unopenable
  | notRegular
  | unreadable
  | regular (content : List UInt8)

/-- The output directory: the sizes of the regular files under it, and the findings entry. -/
structure OutDir where
  sizes : List Nat
  findings : FindingsEntry

/-- `_read_findings`. -/
def readFindings (out : OutDir) : List UInt8 :=
  if JOB_OUT_DIR_MAX_BYTES < out.sizes.sum then []
  else match out.findings with
    | .regular content => content.take JOB_FINDINGS_MAX_BYTES
    | _ => []

/-! ## The docker commands -/

structure JobInput where
  runId : String
  outDir : String
  challenge : Challenge
  timeoutS : Nat := 180
  durationMs : Int := 0
  out : OutDir
  /-- The boot logs of the container ids that begin with this one. -/
  bootLog : String → String
  replay : ReplaySeed

namespace JobInput

def short (input : JobInput) : String := String.ofList (input.runId.toList.take 12)

def network (input : JobInput) : String := "secval-job-" ++ input.short

def targetName (input : JobInput) : String := "secval-tgt-" ++ input.short

def agentName (input : JobInput) : String := "secval-agt-" ++ input.short

end JobInput

def networkCreateArgs (name : String) : List String := ["network", "create", "--internal", name]

def networkRemoveArgs (name : String) : List String := ["network", "rm", name]

def targetRunArgs (input : JobInput) : List String :=
  ["run", "-d", "--name", input.targetName, "--network", input.network,
    "--runtime", JOB_TARGET_RUNTIME] ++ dockerEnvArgs input.challenge ++ [TARGET_IMAGE]

def containerIpArgs (name network : String) : List String :=
  ["inspect", "-f",
    "\x7b\x7b(index .NetworkSettings.Networks \"" ++ network ++ "\").IPAddress\x7d\x7d", name]

def JOB_AGENT_RUNTIME : String := "runsc-monitor"

def JOB_OUTPUT_MOUNT : String := "/out"

def JOB_FINDINGS_NAME : String := "findings.json"

/-- `_agent_create_args`. -/
def agentCreateArgs (name network agentImage targetIp outDir runId : String) (timeoutS : Nat) :
    List String :=
  ["create", "--name", name,
    "--runtime", JOB_AGENT_RUNTIME,
    "--network", network,
    "--dns", "127.0.0.1",
    "--memory", "512m",
    "--memory-swap", "512m",
    "--cpus", "1.0",
    "--pids-limit", "128",
    "--read-only",
    "--tmpfs", "/tmp:rw,noexec,nosuid,size=64m",
    "--mount", "type=bind,src=" ++ outDir ++ ",dst=" ++ JOB_OUTPUT_MOUNT,
    "--cap-drop", "ALL",
    "--security-opt", "no-new-privileges",
    "--label", "secqurityvali=1",
    "-e", "TARGET_URL=http://" ++ targetIp ++ ":" ++ toString TARGET_PORT,
    "-e", "OUTPUT_PATH=" ++ JOB_OUTPUT_MOUNT ++ "/" ++ JOB_FINDINGS_NAME,
    "-e", "RUN_ID=" ++ runId,
    "-e", "TIME_BUDGET_S=" ++ toString timeoutS,
    agentImage]

def startArgs (name : String) : List String := ["start", name]

def waitArgs (name : String) : List String := ["wait", name]

def killArgs (name : String) : List String := ["kill", name]

def exitCodeArgs (name : String) : List String :=
  ["inspect", "-f", "\x7b\x7b.State.ExitCode\x7d\x7d", name]

def logsArgs (name : String) : List String := ["logs", name]

/-! ## `run_job` -/

section

variable {δ : Type} (o : Outside δ) (py : Interpreter)

/-- `_container_ip`. -/
def containerIp (name network : String) : Prog (World δ) Exc String := do
  let res ← docker o (containerIpArgs name network)
  return strip res.stdout

/-- `docker wait`, killed when its time is up: did it time out? -/
def waitOrKill (name : String) : Prog (World δ) Exc Bool :=
  Prog.tryExcept
    (do
      let _ ← docker o (waitArgs name)
      return false)
    (fun e =>
      if e.cls = .timeoutExpired then do
        let _ ← docker o (killArgs name)
        return true
      else Prog.raise e)

/-- `_exit_code`. -/
def exitCode (name : String) : Prog (World δ) Exc (Option Int) := do
  let res ← docker o (exitCodeArgs name)
  return (PyStr.toInt py.unicode (PyStr.ofString res.stdout)).toOption

/-- The count a `REQUESTS:<n>` line of the target's log reports. -/
def reportedRequests (line : List Char) : Option Int := do
  let rest ← dropPrefix? "REQUESTS:".toList (stripChars line)
  (PyStr.toInt py.unicode (rest.map Char.toNat)).toOption

/-- `_read_request_count`. -/
def readRequestCount (targetName : String) : Prog (World δ) Exc Int := do
  let res ← docker o (logsArgs targetName)
  let lines := splitLinesChars [] false (res.stdout ++ res.stderr).toList
  return (lines.filterMap (reportedRequests py)).foldl max 0

/-- `_maybe_replay`. -/
def maybeReplay (seed : ReplaySeed) (challenge : Challenge) (findingsRaw : List UInt8) :
    Prog (World δ) Exc Bool :=
  match parseFindingsBytes py findingsRaw none with
  | .error _ => return false
  | .ok findings =>
    if findings.reproduction.isEmpty then return false
    else runReplay o py seed challenge findings.reproduction

/-- Everything after the agent was created, up to the result. -/
def observeAgent (input : JobInput) (agentCid : String) : Prog (World δ) Exc JobResult := do
  let _ ← docker o (startArgs input.agentName)
  let timedOut ← waitOrKill o input.agentName
  let code ← exitCode o py input.agentName
  let findingsRaw := readFindings input.out
  let behaviourText := if agentCid = "" then "" else input.bootLog agentCid
  let behaviourAvailable := strip behaviourText ≠ ""
  let replayConfirmed ← maybeReplay o py input.replay input.challenge findingsRaw
  let requestCount ← readRequestCount o py input.targetName
  let result ← Prog.ofExcept (assembleResult py input.runId input.challenge findingsRaw
    behaviourText ⟨code, timedOut, input.durationMs⟩ replayConfirmed behaviourAvailable)
  return { result with requestCount := requestCount }

/-- The first 300 characters of what a failed command wrote. -/
def firstOfStderr (res : CompletedProcess) : String :=
  String.ofList ((strip res.stderr).toList.take 300)

/-- The body of the `try`. Of the exit codes, only those of the two containers' creation are
    looked at. -/
def jobBody (input : JobInput) (agentImage : String) : Prog (World δ) Exc JobResult := do
  let _ ← docker o (networkCreateArgs input.network)
  let tgt ← docker o (targetRunArgs input)
  if tgt.returncode ≠ 0 then
    return ourFault input.runId ("target start failed: " ++ firstOfStderr tgt)
  let targetIp ← containerIp o input.targetName input.network
  if targetIp = "" then
    return ourFault input.runId "could not determine target IP on the job network"
  let created ← docker o (agentCreateArgs input.agentName input.network agentImage targetIp
    input.outDir input.runId input.timeoutS)
  if created.returncode ≠ 0 then
    return ourFault input.runId ("agent create failed: " ++ firstOfStderr created)
  observeAgent o py input (strip created.stdout)

/-- The two `except` clauses. -/
def jobFault (runId : String) (e : Exc) : JobResult :=
  if e.cls = .timeoutExpired then ourFault runId ("docker call timed out: " ++ e.message)
  else ourFault runId (e.cls.name ++ ": " ++ e.message)

/-- The `finally` clause of a run that keeps nothing. -/
def teardown (input : JobInput) : Prog (World δ) Exc Unit := do
  let _ ← docker o (rmContainerArgs input.agentName)
  let _ ← docker o (rmContainerArgs input.targetName)
  let _ ← docker o (networkRemoveArgs input.network)
  rmtree input.outDir

def runJob (input : JobInput) (agentImage : String) (keep : Bool := false) :
    Prog (World δ) Exc JobResult :=
  Prog.tryFinally
    (Prog.tryExcept (jobBody o py input agentImage) fun e => return jobFault input.runId e)
    (if keep then return () else teardown o input)

end

end TaoSubnet
