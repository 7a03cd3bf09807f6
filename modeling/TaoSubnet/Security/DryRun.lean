import TaoSubnet.Security.DockerOps

/-!
# Stage DRY_RUN

`secqurityVali/dry_run.py`: the image run once under hard limits, then destroyed. How long it ran is
read from a clock, and comes in as `durationMs`.
-/

namespace TaoSubnet

open Py

structure DryRunResult where
  exitCode : Option Int
  durationMs : Int
  logExcerpt : String
  timedOut : Bool := false
  deriving DecidableEq, Repr

/-! ## What a container hands back -/

/-- `^[0-9a-f]{12,64}$`. -/
def isSafeContainerId (cid : String) : Bool :=
  let s := cid.toList
  let body := if s.getLast? = some '\n' then s.dropLast else s
  12 ≤ body.length && body.length ≤ 64 &&
    body.all fun c => ('0' ≤ c && c ≤ '9') || ('a' ≤ c && c ≤ 'f')

/-- The length of an ANSI escape sequence that begins here: `ESC [`, parameters, intermediate
    characters, a final one. -/
def ansiLength (s : List Char) : Option Nat := do
  let rest ← dropPrefix? ['\x1b', '['] s
  let afterParams := rest.dropWhile fun c => ('0' ≤ c && c ≤ '9') || c == ';' || c == '?'
  match afterParams.dropWhile fun c => ' ' ≤ c && c ≤ '/' with
  | c :: tail => if '@' ≤ c ∧ c ≤ '~' then some (s.length - tail.length) else none
  | [] => none

/-- The text without its escape sequences; `skip` characters of one are still to be dropped. -/
def stripAnsi (skip : Nat) : List Char → List Char
  | [] => []
  | c :: rest =>
    match skip with
    | n + 1 => stripAnsi n rest
    | 0 =>
      match ansiLength (c :: rest) with
      | some n => stripAnsi (n - 1) rest
      | none => c :: stripAnsi 0 rest

/-- `[\x00-\x08\x0b-\x0c\x0e-\x1f\x7f]`. -/
def isControlChar (c : Char) : Bool :=
  let n := c.toNat
  n ≤ 8 || n == 11 || n == 12 || (14 ≤ n && n ≤ 31) || n == 127

def DRY_RUN_LOG_EXCERPT_BYTES : Nat := 8192

def sanitizeOutput (text : String) : String :=
  let cleaned := (stripAnsi 0 text.toList).filter fun c => !isControlChar c
  if DRY_RUN_LOG_EXCERPT_BYTES < cleaned.length then
    String.ofList (cleaned.take DRY_RUN_LOG_EXCERPT_BYTES) ++ "\n... [truncated]"
  else String.ofList cleaned

/-! ## The run -/

def dryRunCreateArgs (ref : String) : List String :=
  ["create", "--runtime", "runsc",
    "--network", "none",
    "--memory", "512m",
    "--memory-swap", "512m",
    "--cpus", "1.0",
    "--pids-limit", "128",
    "--ulimit", "nofile=1024:1024",
    "--read-only",
    "--tmpfs", "/tmp:rw,noexec,nosuid,size=64m",
    "--cap-drop", "ALL",
    "--security-opt", "no-new-privileges",
    "--label", "secqurityvali=1",
    ref]

def DRY_RUN_TIMEOUT_S : Nat := 30

section

variable {δ : Type} (o : Outside δ) (py : Interpreter)

def assertSafeContainerId (cid : String) : Prog (World δ) Halt String :=
  if isSafeContainerId cid then return cid
  else failStage .createFailed (some ("unsafe container id from docker: " ++ Py.reprStr cid))

/-- `_create_container`. -/
def createContainer (ref : String) : Prog (World δ) Halt String := do
  let result ← runDocker o (dryRunCreateArgs ref) DOCKER_CLI_TIMEOUT_S .createFailed
  if result.returncode ≠ 0 then failStage .createFailed (some (excerpt result.stderr))
  else assertSafeContainerId (strip result.stdout)

/-- `_container_logs`. -/
def containerLogs (cid : String) : Prog (World δ) Halt String :=
  bestEffort "" (do
    let result ← runDocker o ["logs", cid] DOCKER_CLI_TIMEOUT_S .internalError
    return sanitizeOutput (result.stdout ++ result.stderr))

/-- `_force_kill`. -/
def forceKill (cid : String) : Prog (World δ) Halt Unit :=
  bestEffort () (do
    let _ ← runDocker o ["kill", cid] DOCKER_CLI_TIMEOUT_S .internalError
    return ())

def removeContainer (cid : String) : Prog (World δ) Halt Bool :=
  bestEffort false (do
    let _ ← assertSafeContainerId cid
    let result ← runDocker o ["rm", "--force", "--volumes", cid] DOCKER_CLI_TIMEOUT_S .internalError
    return result.returncode == 0)

/-- `_parse_exit_code`. -/
def parseExitCode (stdout : String) : Option Int := do
  let last ← (splitLines (strip stdout)).getLast?
  (PyStr.toInt py.unicode (PyStr.ofString last)).toOption

/-- `docker wait`: the exit code, or the clock ran out and the container was killed. -/
def waitContainer (cid : String) : Prog (World δ) Halt (Option Int × Bool) :=
  Prog.tryExcept
    (do
      let waited ← runDocker o ["wait", cid] DRY_RUN_TIMEOUT_S .dryRunTimeout
      return (parseExitCode py waited.stdout, false))
    (fun e => match e with
      | .stage failure =>
        if failure.reason ≠ .dryRunTimeout then Prog.raise (.stage failure)
        else do
          forceKill o cid
          return (none, true)
      | .raised e => Prog.raise (.raised e))

def dryRun (ref : String) (durationMs : Int) : Prog (World δ) Halt DryRunResult := do
  let _ ← assertSafeImageRef ref
  let cid ← createContainer o ref
  Prog.tryFinally
    (do
      let result ← runDocker o ["start", cid] DOCKER_CLI_TIMEOUT_S .startFailed
      if result.returncode ≠ 0 then failStage .startFailed (some (excerpt result.stderr))
      else
        let (exitCode, timedOut) ← waitContainer o py cid
        let logExcerpt ← containerLogs o cid
        return ⟨exitCode, durationMs, logExcerpt, timedOut⟩)
    (do
      let _ ← removeContainer o cid
      return ())

end

def checkDryRun (result : DryRunResult) : Except StageFailure Unit :=
  if result.timedOut then
    .error ⟨.dryRunTimeout, some ("killed after " ++ toString result.durationMs ++
      " ms without exiting")⟩
  else if result.exitCode ≠ some 0 then
    .error ⟨.dryRunNonzeroExit, some ("exited with code " ++ match result.exitCode with
      | some code => toString code
      | none => "None")⟩
  else .ok ()

end TaoSubnet
