import TaoSubnet.Lib.Json

/-!
# Verdicts

`secqurityVali/models.py`, and `reward_for_verdict` of `secqurityVali/reward.py`: what a submission
comes to, accepted or rejected, with the evidence of the stages it got through.
-/

namespace TaoSubnet

open Py

inductive Stage
  | file : Stage
  | structure : Stage
  | load : Stage
  | inspect : Stage
  | dryRun : Stage
  deriving DecidableEq, Repr

def Stage.value : Stage → String
  | .file => "file"
  | .structure => "structure"
  | .load => "load"
  | .inspect => "inspect"
  | .dryRun => "dry_run"

inductive RejectReason
  | fileMissing
  | fileEmpty
  | fileTooLarge
  | notAnArchive
  | notADockerImage
  | unsafeTarEntry
  | malformedArchive
  | malformedManifest
  | multipleImages
  | decompressionBomb
  | tooManyEntries
  | loadFailed
  | badImageRef
  | pullFailed
  | registryUnauthorized
  | imageNotFound
  | digestUnresolved
  | archMismatch
  | osMismatch
  | noEntrypoint
  | tooManyLayers
  | imageTooLarge
  | createFailed
  | startFailed
  | dryRunTimeout
  | dryRunNonzeroExit
  | duplicateAgent
  | dockerUnavailable
  | internalError
  deriving DecidableEq, Repr

def RejectReason.value : RejectReason → String
  | .fileMissing => "file_missing"
  | .fileEmpty => "file_empty"
  | .fileTooLarge => "file_too_large"
  | .notAnArchive => "not_an_archive"
  | .notADockerImage => "not_a_docker_image"
  | .unsafeTarEntry => "unsafe_tar_entry"
  | .malformedArchive => "malformed_archive"
  | .malformedManifest => "malformed_manifest"
  | .multipleImages => "multiple_images"
  | .decompressionBomb => "decompression_bomb"
  | .tooManyEntries => "too_many_entries"
  | .loadFailed => "load_failed"
  | .badImageRef => "bad_image_ref"
  | .pullFailed => "pull_failed"
  | .registryUnauthorized => "registry_unauthorized"
  | .imageNotFound => "image_not_found"
  | .digestUnresolved => "digest_unresolved"
  | .archMismatch => "arch_mismatch"
  | .osMismatch => "os_mismatch"
  | .noEntrypoint => "no_entrypoint"
  | .tooManyLayers => "too_many_layers"
  | .imageTooLarge => "image_too_large"
  | .createFailed => "create_failed"
  | .startFailed => "start_failed"
  | .dryRunTimeout => "dry_run_timeout"
  | .dryRunNonzeroExit => "dry_run_nonzero_exit"
  | .duplicateAgent => "duplicate_agent"
  | .dockerUnavailable => "docker_unavailable"
  | .internalError => "internal_error"

def VALIDATOR_FAULT_REASONS : List RejectReason := [.dockerUnavailable, .internalError]

structure StageFailure where
  reason : RejectReason
  detail : Option String := none
  deriving DecidableEq, Repr

/-- What ends a stage: the failure it raised, or an exception it did not expect. -/
inductive Halt
  | stage (failure : StageFailure)
  | raised (e : Exc)
  deriving DecidableEq, Repr

inductive Status
  | accepted
  | rejected
  deriving DecidableEq, Repr

def Status.value : Status → String
  | .accepted => "accepted"
  | .rejected => "rejected"

def SOURCE_FILE : String := "file"

def SOURCE_REGISTRY : String := "registry"

/-- A submission's record. What Docker reported of an image is kept as it came: its architecture,
    system and user are whatever JSON value stood there. -/
structure Verdict where
  minerId : String
  filePath : String
  status : Status
  stageReached : Stage
  source : String := SOURCE_FILE
  imageRef : Option String := none
  receivedAt : String
  rejectReason : Option RejectReason := none
  fileSha256 : Option String := none
  fileSize : Option Nat := none
  imageId : Option PyStr := none
  repoTags : List PyStr := []
  arch : Option Json := none
  osName : Option Json := none
  layerCount : Option Nat := none
  imageSize : Option Int := none
  entrypoint : List PyStr := []
  imageUser : Option Json := none
  dryRunExitCode : Option Int := none
  dryRunMs : Option Int := none
  logExcerpt : Option PyStr := none
  agentDigest : Option String := none
  duplicateOf : Option Nat := none
  fromCache : Bool := false
  errorDetail : Option String := none

def Verdict.accepted (v : Verdict) : Bool := v.status = .accepted

def Verdict.validatorFault (v : Verdict) : Bool :=
  match v.rejectReason with
  | some reason => VALIDATOR_FAULT_REASONS.contains reason
  | none => false

/-- `_Evidence`: what was established so far; what a stage could not determine is absent. -/
structure Evidence where
  source : Option String := none
  imageRef : Option String := none
  fileSha256 : Option String := none
  fileSize : Option Nat := none
  imageId : Option PyStr := none
  repoTags : Option (List PyStr) := none
  arch : Option Json := none
  osName : Option Json := none
  layerCount : Option Nat := none
  imageSize : Option Int := none
  entrypoint : Option (List PyStr) := none
  imageUser : Option Json := none
  dryRunExitCode : Option Int := none
  dryRunMs : Option Int := none
  logExcerpt : Option PyStr := none
  agentDigest : Option String := none

/-- `add`: newer values replace older ones, absent ones replace nothing. -/
def Evidence.add (e new : Evidence) : Evidence where
  source := new.source.or e.source
  imageRef := new.imageRef.or e.imageRef
  fileSha256 := new.fileSha256.or e.fileSha256
  fileSize := new.fileSize.or e.fileSize
  imageId := new.imageId.or e.imageId
  repoTags := new.repoTags.or e.repoTags
  arch := new.arch.or e.arch
  osName := new.osName.or e.osName
  layerCount := new.layerCount.or e.layerCount
  imageSize := new.imageSize.or e.imageSize
  entrypoint := new.entrypoint.or e.entrypoint
  imageUser := new.imageUser.or e.imageUser
  dryRunExitCode := new.dryRunExitCode.or e.dryRunExitCode
  dryRunMs := new.dryRunMs.or e.dryRunMs
  logExcerpt := new.logExcerpt.or e.logExcerpt
  agentDigest := new.agentDigest.or e.agentDigest

/-- What a check is about: who submitted what, and when its verdict is made. -/
structure Submission where
  minerId : String
  filePath : String
  receivedAt : String

/-- A verdict with the fields of its evidence. -/
def Evidence.verdict (e : Evidence) (s : Submission) (status : Status) (stage : Stage) : Verdict where
  minerId := s.minerId
  filePath := s.filePath
  status := status
  stageReached := stage
  source := e.source.getD SOURCE_FILE
  imageRef := e.imageRef
  receivedAt := s.receivedAt
  fileSha256 := e.fileSha256
  fileSize := e.fileSize
  imageId := e.imageId
  repoTags := e.repoTags.getD []
  arch := e.arch
  osName := e.osName
  layerCount := e.layerCount
  imageSize := e.imageSize
  entrypoint := e.entrypoint.getD []
  imageUser := e.imageUser
  dryRunExitCode := e.dryRunExitCode
  dryRunMs := e.dryRunMs
  logExcerpt := e.logExcerpt
  agentDigest := e.agentDigest

def reject (s : Submission) (stage : Stage) (reason : RejectReason) (errorDetail : Option String)
    (e : Evidence) (duplicateOf : Option Nat := none) : Verdict :=
  { e.verdict s .rejected stage with
    rejectReason := some reason, errorDetail := errorDetail, duplicateOf := duplicateOf }

def accept (s : Submission) (stage : Stage) (e : Evidence) : Verdict := e.verdict s .accepted stage

def REWARD_PASS : ℚ := 1

def REWARD_FAIL : ℚ := 0

def rewardForVerdict (verdict : Verdict) : Option ℚ :=
  if verdict.validatorFault then none
  else if verdict.accepted then some REWARD_PASS else some REWARD_FAIL

end TaoSubnet
