import TaoSubnet.Security.Pipeline

/-!
# Checks side by side

The security neuron, the CLI and the API worker share one database. A call of `check_and_record` is at
most five statements on it: the file's row, the agent's row, the submission that agent was first
accepted by, the verdict that is written, the agent that is registered. Each is committed on its
own, with the work of the check in between. So a call is a process here, and a step of it is one
statement with the work around it; the steps of the calls come in any order.
-/

namespace TaoSubnet

open Py

section

variable {δ : Type} (o : Outside δ) (py : Interpreter)

/-! ## A check, cut at its statements -/

/-- A file up to the image that is loaded from it, unless the file's row settles it. -/
def loadFile (input : CheckInput) : Check δ (Verdict ⊕ String) := do
  let info ← orFail (checkFile py input.submission.filePath input.content)
  addEvidence { fileSha256 := some info.sha256, fileSize := some info.size }
  match settledByFile input info.sha256 (← Prog.get) with
  | some verdict => return .inl verdict
  | none =>
    enterStage .structure
    let structure_ ← Prog.ofExcept (checkStructure py input.archive)
    addEvidence { repoTags := listOrNone structure_.repoTags, layerCount := structure_.layerCount }
    enterStage .load
    let ref ← inWorld (loadImage o input.submission.filePath)
    holdImage ref
    return .inr ref

/-- A reference up to the image that is pulled for it. -/
def pullReference (input : CheckInput) : Check δ (Verdict ⊕ String) := do
  addEvidence { source := some SOURCE_REGISTRY }
  let pulled ← inWorld (pullImage o py input.submission.filePath)
  holdImage pulled.digestRef
  addEvidence { imageRef := some pulled.digestRef }
  return .inr pulled.digestRef

def reachImage (input : CheckInput) (fromRegistry : Bool) : Check δ (Verdict ⊕ String) :=
  if fromRegistry then pullReference o py input else loadFile o py input

/-- Where a check begins. -/
def checkStart (fromRegistry : Bool) (w : World δ) : CheckState δ where
  world := w
  stage := if fromRegistry then .load else .file

/-- Up to the agent that is looked up, with the image it was found in. -/
def identify (input : CheckInput) (fromRegistry : Bool) :
    Check δ (Verdict ⊕ (String × Option String)) := do
  match ← reachImage o py input fromRegistry with
  | .inl verdict => return .inl verdict
  | .inr ref =>
    let agentDigest ← inspectStage o py ref
    return .inr (ref, agentDigest)

/-- From the lookup of the agent on. -/
def ruleOn (input : CheckInput) (ref : String) (agentDigest : Option String) : Check δ Verdict := do
  match settledByDigest input agentDigest (← Prog.get) with
  | some verdict => return verdict
  | none =>
    if input.skipDryRun then
      return accept input.submission .inspect (← Prog.get).evidence
    else
      dryRunStage o py ref input.dryRunMs
      return accept input.submission .dryRun (← Prog.get).evidence

/-- What the handlers and the clean-up make of the stages. -/
def closeCheck (input : CheckInput) (stages : Except Halt Verdict × CheckState δ) :
    Except Halt Verdict × World δ :=
  let closed := Prog.tryFinally
    (Prog.tryExcept (fun _ => stages) (haltVerdict input.submission))
    (dropImage o input.keepImage) stages.2
  (closed.1, closed.2.world)

/-! ## Calls -/

/-- How far a call has got. -/
inductive Phase (δ : Type)
  | started
  | identified (ref : String) (agentDigest : Option String) (check : CheckState δ)
  /-- With the agents there were when its agent was looked up. -/
  | agentLooked (ref : String) (agentDigest : Option String) (agents : List AgentRow)
      (check : CheckState δ)
  | ruled (verdict : Verdict)
  | recorded (id : Nat) (verdict : Verdict)
  | ended (result : Except Halt (Nat × Verdict))

structure Call (δ : Type) where
  input : CheckInput
  fromRegistry : Bool
  phase : Phase δ

/-- The database, and the calls that were made on it. -/
structure Shared (δ : Type) where
  db : Db := {}
  calls : List (Call δ) := []

/-- Where the stages of a check leave its call. -/
def afterStages (input : CheckInput) (stages : Except Halt Verdict × CheckState δ) : Phase δ :=
  match (closeCheck o input stages).1 with
  | .ok verdict => .ruled verdict
  | .error e => .ended (.error e)

/-- The file's row, with the work before it and up to the agent's digest. -/
def identifyStep (input : CheckInput) (fromRegistry : Bool) (db : Db) (d : δ) : Phase δ :=
  match identify o py input fromRegistry (checkStart fromRegistry { outside := d, db := db }) with
  | (.ok (.inr (ref, agentDigest)), check) => .identified ref agentDigest check
  | (.ok (.inl verdict), check) => afterStages o input (.ok verdict, check)
  | (.error e, check) => afterStages o input (.error e, check)

/-- The submission an agent was first accepted by, looked up after the agent, and the rest of the
    check. -/
def ruleStep (input : CheckInput) (ref : String) (agentDigest : Option String)
    (agents : List AgentRow) (check : CheckState δ) (db : Db) (d : δ) : Phase δ :=
  afterStages o input (ruleOn o py input ref agentDigest { check with
    world := { check.world with
      outside := d
      db := { submissions := db.submissions, agents := agents } } })

/-- A step of a call; `d` is the outside as the call finds it. -/
inductive CallAction (δ : Type)
  | start (input : CheckInput) (fromRegistry : Bool)
  | identify (i : Nat) (d : δ)
  | lookAgent (i : Nat)
  | rule (i : Nat) (d : δ)
  | record (i : Nat)
  | register (i : Nat)

/-- The call `i`, in another phase. -/
def Shared.enter (s : Shared δ) (i : Nat) (call : Call δ) (phase : Phase δ) : Shared δ :=
  { s with calls := s.calls.set i { call with phase := phase } }

def Shared.step (s : Shared δ) : CallAction δ → Option (Shared δ)
  | .start input fromRegistry =>
    if input.dedupe then some { s with calls := s.calls ++ [⟨input, fromRegistry, .started⟩] }
    else none
  | .identify i d => do
    let call ← s.calls[i]?
    match call.phase with
    | .started => some (s.enter i call (identifyStep o py call.input call.fromRegistry s.db d))
    | _ => none
  | .lookAgent i => do
    let call ← s.calls[i]?
    match call.phase with
    | .identified ref digest check => some (s.enter i call (.agentLooked ref digest s.db.agents check))
    | _ => none
  | .rule i d => do
    let call ← s.calls[i]?
    match call.phase with
    | .agentLooked ref digest agents check =>
      some (s.enter i call (ruleStep o py call.input ref digest agents check s.db d))
    | _ => none
  | .record i => do
    let call ← s.calls[i]?
    match call.phase with
    | .ruled verdict =>
      let (id, db) := s.db.recordVerdict verdict
      some ({ s with db := db }.enter i call (.recorded id verdict))
    | _ => none
  | .register i => do
    let call ← s.calls[i]?
    match call.phase with
    | .recorded id verdict =>
      let db := if verdict.fromCache then s.db else s.db.registerAgent verdict id
      some ({ s with db := db }.enter i call (.ended (.ok (id, verdict))))
    | _ => none

end

end TaoSubnet
