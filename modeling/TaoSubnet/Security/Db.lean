import TaoSubnet.Security.Verdict

/-!
# The submissions database

`secqurityVali/db.py`, as far as the pipeline uses it: the append-only `submissions`, and the `agents`
keyed by digest. A row is the verdict it was written from; ids count up from one.
-/

namespace TaoSubnet

open Py

structure SubmissionRow where
  id : Nat
  verdict : Verdict

structure AgentRow where
  agentDigest : String
  ownerMinerId : String
  firstSubmission : Nat
  firstSeenAt : String
  imageId : Option PyStr
  repoTags : List PyStr
  entrypoint : List PyStr
  deriving DecidableEq, Repr

/-- Submissions oldest first. -/
structure Db where
  submissions : List SubmissionRow := []
  agents : List AgentRow := []

namespace Db

/-- `record_verdict`: the new row's id, and the database with it. -/
def recordVerdict (db : Db) (verdict : Verdict) : Nat × Db :=
  let id := db.submissions.length + 1
  (id, { db with submissions := db.submissions ++ [⟨id, verdict⟩] })

/-- `get_submission`. -/
def findSubmission (db : Db) (id : Nat) : Option SubmissionRow :=
  db.submissions.find? fun row => row.id == id

/-- A verdict that may be replayed: one that was checked, and is no failure of ours. -/
def isReplayable (fileSha256 : String) (verdict : Verdict) : Bool :=
  verdict.fileSha256 == some fileSha256 && !verdict.fromCache && !verdict.validatorFault

/-- `latest_checked_for_sha256`. -/
def findByFileSha256 (db : Db) (fileSha256 : String) : Option SubmissionRow :=
  db.submissions.reverse.find? fun row => isReplayable fileSha256 row.verdict

/-- `get_agent`. -/
def findAgent (db : Db) (agentDigest : String) : Option AgentRow :=
  db.agents.find? fun row => row.agentDigest == agentDigest

/-- `SqliteRegistry.register_agent`: an accepted agent once, by its first submission. -/
def registerAgent (db : Db) (verdict : Verdict) (submissionId : Nat) : Db :=
  match verdict.agentDigest with
  | none => db
  | some digest =>
    if digest = "" ∨ verdict.status ≠ .accepted ∨ (db.findAgent digest).isSome then db
    else { db with agents := db.agents ++ [{
      agentDigest := digest
      ownerMinerId := verdict.minerId
      firstSubmission := submissionId
      firstSeenAt := verdict.receivedAt
      imageId := verdict.imageId
      repoTags := verdict.repoTags
      entrypoint := verdict.entrypoint }] }

end Db

end TaoSubnet
