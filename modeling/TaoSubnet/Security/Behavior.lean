import TaoSubnet.Lib.PyStr
import TaoSubnet.Lib.Tally

/-!
# The behaviour log

`secqurityVali/behavior.py`: gVisor's strace log, read line by line, and the catalogue that turns an
event into a violation. The line pattern has no choice in it — every repetition is followed by a
character it cannot contain — so matching at a position is a straight reading from left to right,
and `search` is the first position where it succeeds.
-/

namespace TaoSubnet

open Py

structure SyscallEvent where
  comm : String
  /-- `'E'`, the attempt, or `'X'`, the result. -/
  phase : Char
  syscall : String
  args : String
  deriving DecidableEq, Repr

/-- `str(event)`. -/
def SyscallEvent.text (e : SyscallEvent) : String :=
  e.comm ++ " " ++ e.phase.toString ++ " " ++ e.syscall ++ "(" ++
    String.ofList (e.args.toList.take 120) ++ ")"

/-- `_STRACE_RE` matched at the beginning of `s`. -/
def matchStrace (u : Unicode) (s : List Char) : Option SyscallEvent := do
  let s ← dropPrefix? "strace.go:".toList s
  let (_, s) ← span1 (fun c => (u.decimal c.toNat).isSome) s
  let s ← expect ']' s
  let (_, s) ← span1 isSpace s
  let s ← expect '[' s
  let s ← expect ']' (s.dropWhile (· ≠ ']'))
  let (_, s) ← span1 isSpace s
  let (comm, s) ← span1 (fun c => !isSpace c) s
  let (_, s) ← span1 isSpace s
  let (phase, s) ← match s with
    | 'E' :: rest => some ('E', rest)
    | 'X' :: rest => some ('X', rest)
    | _ => none
  let (_, s) ← span1 isSpace s
  let (syscall, s) ← span1 (fun c => u.isWord c.toNat) s
  let rest ← expect '(' s
  return {
    comm := String.ofList comm
    phase := phase
    syscall := String.ofList syscall
    args := String.ofList (rstripChars rest) }

def parseStraceLog (u : Unicode) (text : String) : List SyscallEvent :=
  (splitLinesChars [] false text.toList).filterMap fun line =>
    line.tails.findSome? (matchStrace u)

/-! ## The violation catalogue -/

inductive Severity
  | critical
  | high
  | medium
  /-- Another word: the catalogue has none, but a `Violation` may carry any. -/
  | other (word : String) (fresh : word ∉ ["critical", "high", "medium"])
  deriving DecidableEq, Repr

structure Violation where
  severity : Severity
  kind : String
  detail : String
  evidence : String := ""
  deriving DecidableEq, Repr

structure BehaviorReport where
  totalEvents : Nat
  keptEvents : List SyscallEvent
  violations : List Violation

def SENSITIVE_PATHS : List (String × Severity × String) :=
  [("/var/run/docker.sock", .critical, "docker-socket"),
   ("docker.sock", .critical, "docker-socket"),
   ("/etc/shadow", .high, "read-shadow"),
   ("/proc/1/environ", .high, "read-init-environ"),
   ("/host", .critical, "host-path"),
   ("/var/lib/docker", .critical, "host-path")]

def SENSITIVE_ADDRS : List (String × Severity × String) :=
  [("169.254.169.254", .critical, "cloud-metadata")]

def SUSPICIOUS_BINARIES : List String := ["nc", "ncat", "netcat", "socat", "ssh", "telnet", "nmap"]

def NETWORK_SYSCALLS : List String := ["socket", "connect", "sendto", "sendmsg"]

def OPEN_SYSCALLS : List String := ["open", "openat", "openat2"]

/-- The first entry of a catalogue whose needle occurs in the arguments. -/
def firstIn (catalogue : List (String × Severity × String)) (args : String) :
    Option (String × Severity × String) :=
  catalogue.find? fun entry => isIn entry.1 args

/-- The name as a path component or a quoted token:
    `(^|[/"' ])name(["' ]|$)` searched in the arguments. -/
def namesBinary (binary args : String) : Bool :=
  let after (s : List Char) : Bool := match dropPrefix? binary.toList s with
    | some [] => true
    | some (c :: _) => c == '"' || c == '\'' || c == ' '
    | none => false
  let s := args.toList
  after s || s.tails.any fun t => match t with
    | c :: rest => (c == '/' || c == '"' || c == '\'' || c == ' ') && after rest
    | [] => false

/-- `_violation_for`. -/
def violationFor (event : SyscallEvent) : Option Violation :=
  let sc := event.syscall
  let args := event.args
  if event.phase ≠ 'E' then none
  else if OPEN_SYSCALLS.contains sc then
    (firstIn SENSITIVE_PATHS args).map fun (needle, severity, kind) =>
      ⟨severity, kind, sc ++ " of " ++ needle, event.text⟩
  else if NETWORK_SYSCALLS.contains sc then
    match firstIn SENSITIVE_ADDRS args with
    | some (addr, severity, kind) => some ⟨severity, kind, sc ++ " toward " ++ addr, event.text⟩
    | none =>
      -- Talking to the target is the job: a generic socket is recorded, not blocking.
      if sc = "socket" ∧ (isIn "AF_INET" args ∨ isIn "AF_INET6" args) then
        some ⟨.medium, "network-socket", "opened an internet socket", event.text⟩
      else if sc = "connect" ∨ sc = "sendto" ∨ sc = "sendmsg" then
        some ⟨.medium, "network-connect", sc ++ " attempt", event.text⟩
      else none
  else if sc = "execve" then
    (SUSPICIOUS_BINARIES.find? fun binary => namesBinary binary args).map fun binary =>
      ⟨.high, "suspicious-exec", "execve of " ++ binary, event.text⟩
  else none

def analyze (u : Unicode) (text : String) : BehaviorReport :=
  let events := parseStraceLog u text
  { totalEvents := events.length
    keptEvents := events.filter fun e => (violationFor e).isSome
    violations := events.filterMap violationFor }

/-- `severity in BLOCKING_SEVERITIES`. -/
def Violation.isBlocking (v : Violation) : Bool := v.severity == .critical || v.severity == .high

/-- `safety_verdict`: safe, and the blocking violations. -/
def safetyVerdict (report : BehaviorReport) : Bool × List Violation :=
  let blocking := report.violations.filter Violation.isBlocking
  (blocking.isEmpty, blocking)

/-! ## Grouping -/

/-- `order.get(severity, 9)`. -/
def Severity.order : Severity → Nat
  | .critical => 0
  | .high => 1
  | .medium => 2
  | .other .. => 9

/-- One row of the report. `detail` is the `example` of the row. -/
structure ViolationGroup where
  severity : Severity
  kind : String
  count : Nat
  detail : String
  deriving DecidableEq, Repr

def Violation.key (v : Violation) : Severity × String := (v.severity, v.kind)

def ViolationGroup.key (g : ViolationGroup) : Severity × String := (g.severity, g.kind)

/-- The row a violation opens. -/
def Violation.group (v : Violation) : ViolationGroup := ⟨v.severity, v.kind, 1, v.detail⟩

/-- `g["count"] += 1`. -/
def ViolationGroup.again (g : ViolationGroup) (_ : Violation) : ViolationGroup :=
  { g with count := g.count + 1 }

/-- `(order.get(g["severity"], 9), g["kind"])`, compared. -/
def ViolationGroup.before (a b : ViolationGroup) : Bool :=
  a.severity.order < b.severity.order || (a.severity.order = b.severity.order && a.kind ≤ b.kind)

/-- `group_violations`. -/
def groupViolations (violations : List Violation) : List ViolationGroup :=
  (Dict.collect Violation.key Violation.group ViolationGroup.again violations).values.mergeSort
    ViolationGroup.before

end TaoSubnet
