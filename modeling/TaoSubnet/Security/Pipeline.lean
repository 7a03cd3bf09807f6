import TaoSubnet.Security.DryRun
import TaoSubnet.Security.Registry
import TaoSubnet.Security.Structure

/-!
# The pipeline

`secqurityVali/pipeline.py`. A check's locals — the stage it is in, its evidence, the image it has
loaded — outlive a raise, because the handlers read them: they are part of the state here
(`CheckState`), beside the world.
-/

namespace TaoSubnet

open Py

/-! ## Replays and duplicates -/

/-- `_cached_verdict`: the outcome of the earlier row, with the facts of this run. -/
def cachedVerdict (row : SubmissionRow) (s : Submission) (measured : Evidence) : Verdict :=
  let old := row.verdict
  let facts : Evidence := {
    fileSha256 := old.fileSha256
    fileSize := old.fileSize
    imageId := old.imageId
    repoTags := some old.repoTags
    arch := old.arch
    osName := old.osName
    layerCount := old.layerCount
    imageSize := old.imageSize
    entrypoint := some old.entrypoint
    imageUser := old.imageUser
    agentDigest := old.agentDigest }
  { (facts.add measured).verdict s old.status old.stageReached with
    rejectReason := old.rejectReason
    dryRunExitCode := old.dryRunExitCode
    dryRunMs := old.dryRunMs
    logExcerpt := old.logExcerpt
    duplicateOf := some row.id
    fromCache := true
    errorDetail := old.errorDetail }

/-- `_duplicate_verdict`. -/
def duplicateVerdict (s : Submission) (stage : Stage) (owner : String) (submissionId : Nat)
    (evidence : Evidence) : Verdict :=
  reject s stage .duplicateAgent
    (some ("already submitted by " ++ owner ++ " (submission " ++ toString submissionId ++ ")"))
    evidence (some submissionId)

/-! ## A check's state -/

structure CheckState (δ : Type) where
  world : World δ
  stage : Stage
  evidence : Evidence := {}
  imageRef : Option String := none

abbrev Check (δ α : Type) := Prog (CheckState δ) Halt α

section

variable {δ : Type}

/-- A program of the world, inside a check. -/
def inWorld {α : Type} (x : Prog (World δ) Halt α) : Check δ α := fun c =>
  ((x c.world).1, { c with world := (x c.world).2 })

def enterStage (stage : Stage) : Check δ Unit := Prog.modify fun c => { c with stage := stage }

def addEvidence (new : Evidence) : Check δ Unit :=
  Prog.modify fun c => { c with evidence := c.evidence.add new }

def holdImage (ref : String) : Check δ Unit :=
  Prog.modify fun c => { c with imageRef := some ref }

def failWith {α : Type} (failure : StageFailure) : Check δ α := Prog.raise (.stage failure)

/-- A gate's failure, raised. -/
def orFail {α : Type} (r : Except StageFailure α) : Check δ α :=
  match r with
  | .ok a => return a
  | .error failure => failWith failure

/-- What stops a check, as the verdict its handlers make of it. -/
def haltVerdict (s : Submission) (e : Halt) : Check δ Verdict := do
  let c ← Prog.get
  match e with
  | .stage failure => return reject s c.stage failure.reason failure.detail c.evidence
  | .raised e =>
    return reject s c.stage .internalError (some (e.cls.name ++ ": " ++ e.message)) c.evidence

/-- Runs a check from `stage`, its verdict or what its clean-up raised. -/
def runCheck (stage : Stage) (check : Check δ Verdict) : Prog (World δ) Halt Verdict := fun w =>
  ((check { world := w, stage := stage }).1, (check { world := w, stage := stage }).2.world)

end

/-! ## The stages -/

/-- What the caller of a check fixes, and what it reads from its host: the file's bytes, the members
    of the archive, and how long a dry run takes. -/
structure CheckInput where
  submission : Submission
  content : Option (List UInt8) := none
  archive : TarStream := ⟨[], none⟩
  dryRunMs : Int := 0
  keepImage : Bool := false
  skipDryRun : Bool := false
  /-- `registry is not None`. -/
  dedupe : Bool := true

section

variable {δ : Type} (o : Outside δ) (py : Interpreter)

/-- The earlier verdict a file's bytes settle, before Docker is asked anything. -/
def settledByFile (input : CheckInput) (sha256 : String) (c : CheckState δ) : Option Verdict := do
  let seen ← if input.dedupe then c.world.db.findByFileSha256 sha256 else none
  if seen.verdict.minerId = input.submission.minerId then
    some (cachedVerdict seen input.submission c.evidence)
  else if seen.verdict.status = .accepted then
    some (duplicateVerdict input.submission .file seen.verdict.minerId seen.id c.evidence)
  else none

/-- The earlier verdict an agent's digest settles. -/
def settledByDigest (input : CheckInput) (agentDigest : Option String) (c : CheckState δ) :
    Option Verdict := do
  let digest ← agentDigest
  let known ← if input.dedupe && digest ≠ "" then c.world.db.findAgent digest else none
  if known.ownerMinerId ≠ input.submission.minerId then
    some (duplicateVerdict input.submission .inspect known.ownerMinerId known.firstSubmission
      c.evidence)
  else
    let previous ← c.world.db.findSubmission known.firstSubmission
    some (cachedVerdict previous input.submission c.evidence)

/-- `x or None` of a list. -/
def listOrNone {α : Type} (items : List α) : Option (List α) :=
  if items.isEmpty then none else some items

/-- Stage INSPECT, and the identity of the agent. -/
def inspectStage (ref : String) : Check δ (Option String) := do
  enterStage .inspect
  let image ← inWorld (inspectImage o py ref)
  addEvidence {
    imageId := some image.imageId
    repoTags := listOrNone image.repoTags
    arch := image.arch
    osName := image.osName
    layerCount := image.layerCount
    imageSize := image.imageSize
    imageUser := image.imageUser }
  orFail (checkImage py image)
  addEvidence { entrypoint := some (← orFail (entrypointOf image)) }
  let agentDigest ← inWorld (orRaise (agentDigestOf py image))
  addEvidence { agentDigest := agentDigest }
  return agentDigest

/-- Stage DRY_RUN. -/
def dryRunStage (ref : String) (durationMs : Int) : Check δ Unit := do
  enterStage .dryRun
  let outcome ← inWorld (dryRun o py ref durationMs)
  addEvidence {
    dryRunExitCode := outcome.exitCode
    dryRunMs := some outcome.durationMs
    logExcerpt := if outcome.logExcerpt = "" then none else some (PyStr.ofString outcome.logExcerpt) }
  orFail (checkDryRun outcome)

/-- From the image on: INSPECT, the dedupe by digest, and DRY_RUN unless it is skipped. -/
def checkLoaded (input : CheckInput) (ref : String) : Check δ Verdict := do
  let agentDigest ← inspectStage o py ref
  match settledByDigest input agentDigest (← Prog.get) with
  | some verdict => return verdict
  | none =>
    if input.skipDryRun then
      return accept input.submission .inspect (← Prog.get).evidence
    else
      dryRunStage o py ref input.dryRunMs
      return accept input.submission .dryRun (← Prog.get).evidence

/-- The `finally` of both checks: the image that was loaded goes, unless it is to be kept. -/
def dropImage (keepImage : Bool) : Check δ Unit := do
  match (← Prog.get).imageRef with
  | some ref =>
    if ref = "" ∨ keepImage then return ()
    else
      let _ ← inWorld (removeImage o ref)
      return ()
  | none => return ()

/-- The `try` of `check_submission`. -/
def submissionStages (input : CheckInput) : Check δ Verdict := do
  let info ← orFail (checkFile py input.submission.filePath input.content)
  addEvidence { fileSha256 := some info.sha256, fileSize := some info.size }
  match settledByFile input info.sha256 (← Prog.get) with
  | some verdict => return verdict
  | none =>
    enterStage .structure
    let structure_ ← Prog.ofExcept (checkStructure py input.archive)
    addEvidence { repoTags := listOrNone structure_.repoTags, layerCount := structure_.layerCount }
    enterStage .load
    let ref ← inWorld (loadImage o input.submission.filePath)
    holdImage ref
    checkLoaded o py input ref

def checkSubmission (input : CheckInput) : Prog (World δ) Halt Verdict :=
  runCheck .file
    (Prog.tryFinally (Prog.tryExcept (submissionStages o py input) (haltVerdict input.submission))
      (dropImage o input.keepImage))

/-- The `try` of `check_registry_submission`; `file_path` is the reference. -/
def registryStages (input : CheckInput) : Check δ Verdict := do
  addEvidence { source := some SOURCE_REGISTRY }
  let pulled ← inWorld (pullImage o py input.submission.filePath)
  holdImage pulled.digestRef
  addEvidence { imageRef := some pulled.digestRef }
  checkLoaded o py input pulled.digestRef

def checkRegistrySubmission (input : CheckInput) : Prog (World δ) Halt Verdict :=
  runCheck .load
    (Prog.tryFinally (Prog.tryExcept (registryStages o py input) (haltVerdict input.submission))
      (dropImage o input.keepImage))

/-! ## `check_and_record` -/

/-- The verdict written, and its agent registered unless it was replayed. -/
def recordAndRegister (dedupe : Bool) (verdict : Verdict) (db : Db) : Nat × Db :=
  let (id, db) := db.recordVerdict verdict
  (id, if dedupe && !verdict.fromCache then db.registerAgent verdict id else db)

def checkAndRecord (input : CheckInput) (fromRegistry : Bool) :
    Prog (World δ) Halt (Nat × Verdict) := do
  let verdict ← if fromRegistry then checkRegistrySubmission o py input
    else checkSubmission o py input
  let w ← Prog.get
  let (id, db) := recordAndRegister input.dedupe verdict w.db
  Prog.modify fun w => { w with db := db }
  return (id, verdict)

end

end TaoSubnet
