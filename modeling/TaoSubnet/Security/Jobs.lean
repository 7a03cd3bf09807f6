import Mathlib.Logic.Basic

/-!
# The job queue of the API

The `jobs` table of `secqurityVali/db.py`, and the `Worker` of `secqurityVali/api.py`. Several API
processes may share the table: a worker is one of theirs, and a step of it is one statement. Jobs are
updated in place and never deleted; ids count up from one.
-/

namespace TaoSubnet

inductive JobState
  | queued
  | running
  | done
  | failed
  deriving DecidableEq, Repr

structure JobRow where
  id : Nat
  minerId : String
  imageRef : String
  state : JobState
  submissionId : Option Nat := none
  createdAt : String
  startedAt : Option String := none
  finishedAt : Option String := none
  error : Option String := none
  deriving DecidableEq, Repr

/-! ## The table -/

/-- `UPDATE jobs SET … WHERE …`: how many rows changed, and the table with them changed. -/
def updateJobs (selected : JobRow → Bool) (set : JobRow → JobRow) (jobs : List JobRow) :
    Nat × List JobRow :=
  (jobs.countP selected, jobs.map fun row => if selected row then set row else row)

def createJob (jobs : List JobRow) (minerId imageRef now : String) : Nat × List JobRow :=
  let id := jobs.length + 1
  (id, jobs ++ [{ id, minerId, imageRef, state := .queued, createdAt := now }])

def getJob (jobs : List JobRow) (id : Nat) : Option JobRow := jobs.find? fun row => row.id == id

/-- The first statement of `claim_next_job`: the oldest job that is queued. -/
def nextJob (jobs : List JobRow) : Option JobRow := jobs.find? fun row => row.state == .queued

/-- The second: the job that was seen is taken, if it is still queued. -/
def takeJob (jobs : List JobRow) (id : Nat) (now : String) : Nat × List JobRow :=
  updateJobs (fun row => row.id == id && row.state == .queued)
    (fun row => { row with state := .running, startedAt := some now }) jobs

/-- `finish_job`, which does not ask what state the job is in. -/
def finishJob (jobs : List JobRow) (id : Nat) (submissionId : Option Nat) (error : Option String)
    (now : String) : List JobRow :=
  (updateJobs (fun row => row.id == id)
    (fun row => { row with
      state := if error.getD "" ≠ "" then .failed else .done
      submissionId := submissionId
      finishedAt := some now
      error := error }) jobs).2

def requeueRunningJobs (jobs : List JobRow) : Nat × List JobRow :=
  updateJobs (fun row => row.state == .running)
    (fun row => { row with state := .queued, startedAt := none }) jobs

/-! ## Workers -/

/-- Where a worker is in its loop. -/
inductive Worker
  | idle
  /-- Between the two statements of `claim_next_job`. -/
  | selected (id : Nat)
  | executing (job : JobRow)
  | dead
  deriving DecidableEq, Repr

/-- One table, and the workers of every process that uses it. -/
structure Queue where
  jobs : List JobRow := []
  workers : List Worker := []
  deriving DecidableEq, Repr

inductive QueueAction
  | create (minerId imageRef now : String)
  /-- A worker starts up: it requeues what is running. -/
  | startUp
  | select (w : Nat)
  | claim (w : Nat) (now : String)
  /-- `check_and_record` is over: it returned a submission, or raised. -/
  | finish (w : Nat) (outcome : Except String Nat) (now : String)
  /-- The process of the worker dies, or the worker stops. -/
  | die (w : Nat)

/-- The worker `w`, somewhere else. -/
def Queue.enter (q : Queue) (w : Nat) (worker : Worker) : Queue :=
  { q with workers := q.workers.set w worker }

/-- What `_run_job` leaves of a job. -/
def closeJob (jobs : List JobRow) (id : Nat) (now : String) : Except String Nat → List JobRow
  | .ok submissionId => finishJob jobs id (some submissionId) none now
  | .error detail => finishJob jobs id none (some detail) now

def Queue.step (q : Queue) : QueueAction → Option Queue
  | .create minerId imageRef now => some { q with jobs := (createJob q.jobs minerId imageRef now).2 }
  | .startUp => some {
      jobs := (requeueRunningJobs q.jobs).2
      workers := q.workers ++ [.idle] }
  | .select w => do
    match ← q.workers[w]? with
    | .idle => some <| match nextJob q.jobs with
      | some job => q.enter w (.selected job.id)
      | none => q
    | _ => none
  | .claim w now => do
    match ← q.workers[w]? with
    | .selected id =>
      let (changed, jobs) := takeJob q.jobs id now
      some <| { q with jobs := jobs }.enter w <|
        if changed = 0 then .idle
        else match getJob jobs id with
          | some job => .executing job
          | none => .idle
    | _ => none
  | .finish w outcome now => do
    match ← q.workers[w]? with
    | .executing job =>
      some ({ q with jobs := closeJob q.jobs job.id now outcome }.enter w .idle)
    | _ => none
  | .die w => if w < q.workers.length then some (q.enter w .dead) else none

end TaoSubnet
