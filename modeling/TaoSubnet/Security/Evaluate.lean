import TaoSubnet.Security.Job
import TaoSubnet.Security.Pipeline

/-!
# Evaluating one submission

`_evaluate` and `_evaluate_blob` of `neurons/security_validator.py`: intake, and for what it accepts
the isolated run. The summary line of an outcome is only logged, and is left out.
-/

namespace TaoSubnet

open Py

structure EvalOutcome where
  reward : Option ℚ
  category : Option String := none
  agentId : Option String := none
  job : Option JobResult := none

/-- The outcome of an intake that did not accept: no job ran. -/
def intakeOutcome (verdict : Verdict) : EvalOutcome where
  reward := rewardForVerdict verdict
  agentId := verdict.agentDigest

def jobOutcome (verdict : Verdict) (job : JobResult) : EvalOutcome where
  reward := rewardForJob job
  category := if job.category = "" then none else some job.category
  agentId := verdict.agentDigest
  job := some job

section

variable {δ : Type} (o : Outside δ) (py : Interpreter)

/-- `run_job`, whose exceptions are the interpreter's. -/
def runJobHere (input : JobInput) (agentImage : String) : Prog (World δ) Halt JobResult :=
  Prog.mapError Halt.raised (runJob o py input agentImage)

/-! ## A registry reference -/

structure RefInput where
  imageRef : String
  minerId : String
  receivedAt : String
  job : JobInput

def RefInput.check (input : RefInput) : CheckInput where
  submission := ⟨input.minerId, input.imageRef, input.receivedAt⟩
  skipDryRun := true

/-- `_evaluate`. The run is given the reference as it was submitted. -/
def evaluate (input : RefInput) : Prog (World δ) Halt EvalOutcome := do
  let (_, verdict) ← checkAndRecord o py input.check true
  if !verdict.accepted then return intakeOutcome verdict
  else
    let job ← runJobHere o py input.job input.imageRef
    return jobOutcome verdict job

/-! ## An encrypted blob -/

/-- A blob's submission: what the download, the key and the tar library make of it. -/
structure BlobInput where
  download : Except Exc (List UInt8)
  ciphertextSha256 : String
  decrypt : List UInt8 → Option (List UInt8)
  tarPath : String
  readTar : List UInt8 → TarStream
  minerId : String
  receivedAt : String
  job : JobInput

def BlobInput.check (input : BlobInput) (tar : List UInt8) : CheckInput where
  submission := ⟨input.minerId, input.tarPath, input.receivedAt⟩
  content := some tar
  archive := input.readTar tar
  skipDryRun := true

/-- The decrypted archive, or the outcome that ends the evaluation before any intake. -/
def BlobInput.tar (py : Interpreter) (input : BlobInput) : Except EvalOutcome (List UInt8) :=
  match input.download with
  | .error _ => .error { reward := none }
  | .ok blob =>
    if input.ciphertextSha256 ≠ "" ∧ py.sha256 (blob.map UInt8.toNat) ≠ input.ciphertextSha256 then
      .error { reward := none }
    else match input.decrypt blob with
      | none => .error { reward := some 0 }
      | some tar => .ok tar

/-- The run of an accepted archive: it is loaded again, and removed whatever happens. -/
def runLoaded (input : BlobInput) (verdict : Verdict) : Prog (World δ) Halt EvalOutcome := do
  let imageRef ← loadImage o input.tarPath
  Prog.tryFinally
    (do
      let job ← runJobHere o py input.job imageRef
      return jobOutcome verdict job)
    (do
      let _ ← removeImage o imageRef
      return ())

/-- `_evaluate_blob`. -/
def evaluateBlob (input : BlobInput) : Prog (World δ) Halt EvalOutcome :=
  match input.tar py with
  | .error outcome => return outcome
  | .ok tar => do
    let (_, verdict) ← checkAndRecord o py (input.check tar) false
    if !verdict.accepted then return intakeOutcome verdict
    else runLoaded o py input verdict

end

end TaoSubnet
