import Mathlib.Data.List.Nodup
import TaoSubnet.Lib.Runs
import TaoSubnet.Security.Jobs

/-!
# Who executes a job

A job that is running is taken to be orphaned whenever a worker starts up, and whoever finishes it
does so without asking whether it is still running. So a job has one worker at a time, and keeps the
outcome it got, in every run in which no worker starts up while a live one is executing a job.
-/

namespace TaoSubnet

open Machine

/-! ## The table -/

variable {jobs : List JobRow} {id : Nat} {row : JobRow}

theorem getJob_some (h : getJob jobs id = some row) : row ∈ jobs ∧ row.id = id := by
  unfold getJob at h
  have hid := List.find?_some h
  rw [beq_iff_eq] at hid
  exact ⟨List.mem_of_find?_eq_some h, hid⟩

/-- An update that keeps the ids is seen row by row. -/
theorem getJob_updateJobs {selected : JobRow → Bool} {set : JobRow → JobRow}
    (hset : ∀ row, (set row).id = row.id) (jobs : List JobRow) (id : Nat) :
    getJob (updateJobs selected set jobs).2 id =
      (getJob jobs id).map fun row => if selected row then set row else row := by
  unfold getJob updateJobs
  induction jobs with
  | nil => rfl
  | cons first rest ih =>
    have hid : (if selected first then set first else first).id = first.id := by
      split
      · exact hset first
      · rfl
    dsimp only at ih ⊢
    rw [List.map_cons, List.find?_cons, List.find?_cons, hid]
    cases first.id == id with
    | true => rfl
    | false => exact ih

theorem ids_updateJobs (selected : JobRow → Bool) {set : JobRow → JobRow}
    (hset : ∀ row, (set row).id = row.id) (jobs : List JobRow) :
    (updateJobs selected set jobs).2.map (fun row => row.id) = jobs.map fun row => row.id := by
  unfold updateJobs
  simp only [List.map_map]
  apply List.map_congr_left
  intro row _
  simp only [Function.comp_apply]
  split
  · exact hset row
  · rfl

/-- A new row does not hide an old one. -/
theorem getJob_createJob {minerId imageRef now : String} (h : getJob jobs id = some row) :
    getJob (createJob jobs minerId imageRef now).2 id = some row := by
  show (jobs ++ _).find? _ = _
  rw [List.find?_append]
  unfold getJob at h
  rw [h, Option.some_or]

/-- Jobs are numbered from one. -/
def Numbered (jobs : List JobRow) : Prop :=
  jobs.map (fun row => row.id) = List.range' 1 jobs.length

theorem Numbered.createJob (h : Numbered jobs) (minerId imageRef now : String) :
    Numbered (createJob jobs minerId imageRef now).2 := by
  unfold Numbered TaoSubnet.createJob at *
  simp [h, List.range'_concat, Nat.add_comm]

theorem Numbered.updateJobs (h : Numbered jobs) {selected : JobRow → Bool} {set : JobRow → JobRow}
    (hset : ∀ row, (set row).id = row.id) : Numbered (updateJobs selected set jobs).2 := by
  have hids := ids_updateJobs selected hset jobs
  unfold Numbered at *
  rw [hids, h]
  simp [TaoSubnet.updateJobs]

/-- A row is the one its id finds. -/
theorem Numbered.getJob (h : Numbered jobs) (hrow : row ∈ jobs) :
    getJob jobs row.id = some row := by
  have hnodup : (jobs.map fun row => row.id).Nodup := by
    rw [h]
    exact List.nodup_range'
  cases hfound : TaoSubnet.getJob jobs row.id with
  | none =>
    unfold TaoSubnet.getJob at hfound
    have := List.find?_eq_none.mp hfound row hrow
    simp at this
  | some found =>
    obtain ⟨hmem, hid⟩ := getJob_some hfound
    rw [List.inj_on_of_nodup_map hnodup hmem hrow hid]

/-- A job that is taken was queued, and is running now. -/
theorem Numbered.takeJob (h : Numbered jobs) {now : String} (htaken : (takeJob jobs id now).1 ≠ 0) :
    ∃ row, TaoSubnet.getJob jobs id = some row ∧ row.state = .queued ∧
      TaoSubnet.getJob (takeJob jobs id now).2 id =
        some { row with state := .running, startedAt := some now } := by
  obtain ⟨row, hrow, hqueued⟩ := List.countP_pos_iff.mp (Nat.pos_of_ne_zero htaken)
  simp only [Bool.and_eq_true, beq_iff_eq] at hqueued
  obtain ⟨hid, hstate⟩ := hqueued
  have hfound : TaoSubnet.getJob jobs id = some row := by
    rw [← hid]
    exact h.getJob hrow
  refine ⟨row, hfound, hstate, ?_⟩
  refine (getJob_updateJobs (by intro row; rfl) jobs id).trans ?_
  rw [hfound]
  simp [hid, hstate]

/-- A table in which nothing was taken is what it was. -/
theorem takeJob_missed {now : String} (hmissed : (takeJob jobs id now).1 = 0) :
    (takeJob jobs id now).2 = jobs := by
  unfold takeJob updateJobs at *
  dsimp only at *
  rw [List.countP_eq_zero] at hmissed
  refine (List.map_congr_left ?_).trans (List.map_id' jobs)
  intro row hrow
  exact if_neg (hmissed row hrow)

/-! ## One step -/

/-- What a step of the queue can do. -/
inductive QueueMoved (q : Queue) : QueueAction → Queue → Prop
  | created {minerId imageRef now : String} :
    QueueMoved q (.create minerId imageRef now)
      { q with jobs := (createJob q.jobs minerId imageRef now).2 }
  | startedUp : QueueMoved q .startUp
      { jobs := (requeueRunningJobs q.jobs).2, workers := q.workers ++ [.idle] }
  | selected {w : Nat} {job : JobRow} (hworker : q.workers[w]? = some .idle) :
    QueueMoved q (.select w) (q.enter w (.selected job.id))
  | waited {w : Nat} : QueueMoved q (.select w) q
  | missed {w id : Nat} {now : String} (hworker : q.workers[w]? = some (.selected id)) :
    QueueMoved q (.claim w now) (q.enter w .idle)
  /-- The job that was seen is taken, if it is still queued. -/
  | claimed {w id : Nat} {now : String} {row job : JobRow}
      (hworker : q.workers[w]? = some (.selected id)) (hrow : getJob q.jobs id = some row)
      (hqueued : row.state = .queued)
      (hjob : getJob (takeJob q.jobs id now).2 id = some job) (hrunning : job.state = .running) :
    QueueMoved q (.claim w now)
      ({ q with jobs := (takeJob q.jobs id now).2 }.enter w (.executing job))
  | finished {w : Nat} {job : JobRow} {outcome : Except String Nat} {now : String}
      (hworker : q.workers[w]? = some (.executing job)) :
    QueueMoved q (.finish w outcome now)
      ({ q with jobs := closeJob q.jobs job.id now outcome }.enter w .idle)
  | died {w : Nat} : QueueMoved q (.die w) (q.enter w .dead)

theorem queueMoved {q q' : Queue} {action : QueueAction} (hnumbered : Numbered q.jobs)
    (hstep : q.step action = some q') : QueueMoved q action q' := by
  cases action with
  | create minerId imageRef now =>
    cases hstep
    exact .created
  | startUp =>
    cases hstep
    exact .startedUp
  | select w =>
    obtain ⟨worker, hworker, hstep⟩ := Option.bind_eq_some_iff.mp hstep
    cases worker with
    | idle =>
      cases hnext : nextJob q.jobs with
      | none =>
        rw [hnext] at hstep
        cases hstep
        exact .waited
      | some job =>
        rw [hnext] at hstep
        cases hstep
        exact .selected hworker
    | selected id => cases hstep
    | executing job => cases hstep
    | dead => cases hstep
  | claim w now =>
    obtain ⟨worker, hworker, hstep⟩ := Option.bind_eq_some_iff.mp hstep
    cases worker with
    | idle => cases hstep
    | selected id =>
      by_cases hmissed : (takeJob q.jobs id now).1 = 0
      · simp only [hmissed, if_true, takeJob_missed hmissed] at hstep
        cases hstep
        exact .missed hworker
      · obtain ⟨row, hrow, hqueued, hjob⟩ := hnumbered.takeJob hmissed
        simp only [hmissed, if_false, hjob] at hstep
        cases hstep
        exact .claimed hworker hrow hqueued hjob rfl
    | executing job => cases hstep
    | dead => cases hstep
  | finish w outcome now =>
    obtain ⟨worker, hworker, hstep⟩ := Option.bind_eq_some_iff.mp hstep
    cases worker with
    | idle => cases hstep
    | selected id => cases hstep
    | executing job =>
      cases hstep
      exact .finished hworker
    | dead => cases hstep
  | die w =>
    unfold Queue.step at hstep
    dsimp only at hstep
    split at hstep
    · cases hstep
      exact .died
    · cases hstep

/-! ## One worker for each job -/

/-- The worker is live, and executes the job. -/
def Queue.Executes (q : Queue) (w id : Nat) : Prop :=
  ∃ job, q.workers[w]? = some (.executing job) ∧ job.id = id

/-- A job that is over. -/
def JobRow.Finished (row : JobRow) : Prop := row.state = .done ∨ row.state = .failed

/-- What a queue is while no worker's job is taken from it. -/
structure Served (q : Queue) : Prop where
  numbered : Numbered q.jobs
  running : ∀ w id, q.Executes w id → ∃ row, getJob q.jobs id = some row ∧ row.state = .running
  alone : ∀ w w' id, q.Executes w id → q.Executes w' id → w = w'

/-- No worker starts up while a live one is executing a job. -/
def QuietStart (t : Transition Queue QueueAction) : Prop :=
  t.action = .startUp → ∀ w id, ¬ t.before.Executes w id

variable {q : Queue} {w v id' : Nat} {worker : Worker}

theorem executes_enter (h : (q.enter w worker).Executes v id) :
    (v = w ∧ ∃ job, worker = .executing job ∧ job.id = id) ∨ (v ≠ w ∧ q.Executes v id) := by
  obtain ⟨job, hjob, hid⟩ := h
  unfold Queue.enter at hjob
  rw [List.getElem?_set] at hjob
  split at hjob
  · rename_i hsame
    left
    split at hjob
    · exact ⟨hsame.symm, job, Option.some.inj hjob, hid⟩
    · cases hjob
  · rename_i hother
    right
    exact ⟨fun hsame => hother hsame.symm, job, hjob, hid⟩

/-- Who does not begin a job executes what was executed before, by others. -/
theorem executes_other (hworker : ∀ job, worker ≠ .executing job)
    (h : (q.enter w worker).Executes v id) : v ≠ w ∧ q.Executes v id := by
  rcases executes_enter h with ⟨-, job, hjob, -⟩ | hother
  · exact absurd hjob (hworker job)
  · exact hother

theorem executes_startUp {jobs : List JobRow}
    (h : ({ jobs := jobs, workers := q.workers ++ [.idle] } : Queue).Executes w id) :
    q.Executes w id := by
  obtain ⟨job, hjob, hid⟩ := h
  refine ⟨job, ?_, hid⟩
  rw [List.getElem?_append] at hjob
  split at hjob
  · exact hjob
  · rw [List.getElem?_singleton] at hjob
    split at hjob
    · cases hjob
    · cases hjob

/-- An update leaves the rows alone that it does not select. -/
theorem getJob_unselected {selected : JobRow → Bool} {set : JobRow → JobRow}
    (hset : ∀ row, (set row).id = row.id) (h : getJob jobs id = some row)
    (hrow : selected row = false) : getJob (updateJobs selected set jobs).2 id = some row := by
  rw [getJob_updateJobs hset, h, Option.map_some, if_neg]
  rw [hrow]
  exact Bool.false_ne_true

theorem getJob_takeJob {now : String} (h : getJob jobs id' = some row) (hrow : row.state ≠ .queued) :
    getJob (takeJob jobs id now).2 id' = some row := by
  apply getJob_unselected (by intro row; rfl) h
  simp [hrow]

theorem getJob_requeue (h : getJob jobs id = some row) (hrow : row.state ≠ .running) :
    getJob (requeueRunningJobs jobs).2 id = some row := by
  apply getJob_unselected (by intro row; rfl) h
  simp [hrow]

theorem getJob_closeJob {now : String} {outcome : Except String Nat} (h : getJob jobs id' = some row)
    (hother : id' ≠ id) : getJob (closeJob jobs id now outcome) id' = some row := by
  obtain ⟨-, hid⟩ := getJob_some h
  have hrow : (row.id == id) = false := by
    rw [hid]
    exact beq_false_of_ne hother
  cases outcome with
  | ok submissionId => exact getJob_unselected (by intro row; rfl) h hrow
  | error detail => exact getJob_unselected (by intro row; rfl) h hrow

theorem Numbered.closeJob (h : Numbered jobs) (id : Nat) (now : String)
    (outcome : Except String Nat) : Numbered (closeJob jobs id now outcome) := by
  cases outcome with
  | ok submissionId => exact h.updateJobs (by intro row; rfl)
  | error detail => exact h.updateJobs (by intro row; rfl)

/-- A worker that does not begin a job changes nothing for the others. -/
theorem Served.enter (h : Served q) (w : Nat) (hworker : ∀ job, worker ≠ .executing job) :
    Served (q.enter w worker) where
  numbered := h.numbered
  running := by
    intro v id hv
    exact h.running v id (executes_other hworker hv).2
  alone := by
    intro v v' id hv hv'
    exact h.alone v v' id (executes_other hworker hv).2 (executes_other hworker hv').2

/-- A job that is queued is executed by nobody. -/
theorem Served.idle (h : Served q) (hrow : getJob q.jobs id = some row)
    (hstate : row.state ≠ .running) : ¬ q.Executes w id := by
  intro hw
  obtain ⟨found, hfound, hrunning⟩ := h.running w id hw
  rw [hrow] at hfound
  cases hfound
  exact hstate hrunning

theorem served_step (t : Transition Queue QueueAction) (hstep : t.before.step t.action = some t.after)
    (h : Served t.before) (hquiet : QuietStart t) : Served t.after := by
  obtain ⟨q, action, q'⟩ := t
  have hmoved : QueueMoved q action q' := queueMoved h.numbered hstep
  dsimp only at h ⊢
  cases hmoved with
  | created =>
    refine ⟨h.numbered.createJob _ _ _, ?_, h.alone⟩
    intro w id hw
    obtain ⟨row, hrow, hrunning⟩ := h.running w id hw
    exact ⟨row, getJob_createJob hrow, hrunning⟩
  | startedUp =>
    have hnone : ∀ w id, ¬ q.Executes w id := hquiet rfl
    refine ⟨h.numbered.updateJobs (by intro row; rfl), ?_, ?_⟩
    · intro w id hw
      exact absurd (executes_startUp hw) (hnone w id)
    · intro w w' id hw
      exact absurd (executes_startUp hw) (hnone w id)
  | selected hworker => exact h.enter _ (by simp)
  | waited => exact h
  | missed hworker => exact h.enter _ (by simp)
  | @claimed w id now row job hworker hrow hqueued hjob hrunning =>
    obtain ⟨-, hid⟩ := getJob_some hjob
    refine ⟨h.numbered.updateJobs (by intro row; rfl), ?_, ?_⟩
    · intro v id' hv
      rcases executes_enter hv with ⟨rfl, found, hfound, rfl⟩ | ⟨-, hv⟩
      · cases hfound
        rw [hid]
        exact ⟨job, hjob, hrunning⟩
      · obtain ⟨other, hother, hstate⟩ := h.running v id' hv
        refine ⟨other, getJob_takeJob hother ?_, hstate⟩
        simp [hstate]
    · -- Nobody executed the job, because it was queued.
      have hfree : ∀ v, ¬ q.Executes v id := fun v => h.idle hrow (by simp [hqueued])
      intro v v' id' hv hv'
      rcases executes_enter hv with ⟨rfl, found, hfound, rfl⟩ | ⟨-, hold⟩
      · cases hfound
        rcases executes_enter hv' with ⟨rfl, -⟩ | ⟨-, hold'⟩
        · rfl
        · rw [hid] at hold'
          exact absurd hold' (hfree v')
      · rcases executes_enter hv' with ⟨rfl, found, hfound, rfl⟩ | ⟨-, hold'⟩
        · cases hfound
          rw [hid] at hold
          exact absurd hold (hfree v)
        · exact h.alone v v' id' hold hold'
  | @finished w job outcome now hworker =>
    have hw : q.Executes w job.id := ⟨job, hworker, rfl⟩
    refine ⟨h.numbered.closeJob _ _ _, ?_, ?_⟩
    · intro v id' hv
      obtain ⟨hne, hv⟩ := executes_other (by simp) hv
      obtain ⟨row, hrow, hrunning⟩ := h.running v id' hv
      refine ⟨row, getJob_closeJob hrow ?_, hrunning⟩
      intro hsame
      subst hsame
      exact hne (h.alone v w _ hv hw)
    · intro v v' id' hv hv'
      exact h.alone v v' id' (executes_other (by simp) hv).2 (executes_other (by simp) hv').2
  | died => exact h.enter _ (by simp)

/-! ## Outcomes -/

/-- What a finished job came to is what it comes to later. -/
def OutcomesKept (q q' : Queue) : Prop :=
  ∀ id row, getJob q.jobs id = some row → row.Finished → ∃ row', getJob q'.jobs id = some row' ∧
    row'.state = row.state ∧ row'.submissionId = row.submissionId ∧ row'.error = row.error

theorem OutcomesKept.trans {q₁ q₂ q₃ : Queue} (h : OutcomesKept q₁ q₂) (h' : OutcomesKept q₂ q₃) :
    OutcomesKept q₁ q₃ := by
  intro id row hrow hfinished
  obtain ⟨row₂, hrow₂, hstate₂, hsubmission₂, herror₂⟩ := h id row hrow hfinished
  have hfinished₂ : row₂.Finished := by
    unfold JobRow.Finished at *
    rw [hstate₂]
    exact hfinished
  obtain ⟨row₃, hrow₃, hstate₃, hsubmission₃, herror₃⟩ := h' id row₂ hrow₂ hfinished₂
  exact ⟨row₃, hrow₃, hstate₃.trans hstate₂, hsubmission₃.trans hsubmission₂,
    herror₃.trans herror₂⟩

theorem outcomes_step (t : Transition Queue QueueAction)
    (hstep : t.before.step t.action = some t.after) (h : Served t.before) :
    OutcomesKept t.before t.after := by
  obtain ⟨q, action, q'⟩ := t
  have hmoved : QueueMoved q action q' := queueMoved h.numbered hstep
  dsimp only at h ⊢
  intro id row hrow hfinished
  have hnotQueued : row.state ≠ .queued := by
    intro hqueued
    simp [JobRow.Finished, hqueued] at hfinished
  have hnotRunning : row.state ≠ .running := by
    intro hrunning
    simp [JobRow.Finished, hrunning] at hfinished
  suffices hsame : getJob q'.jobs id = some row from ⟨row, hsame, rfl, rfl, rfl⟩
  cases hmoved with
  | created => exact getJob_createJob hrow
  | startedUp => exact getJob_requeue hrow hnotRunning
  | selected hworker => exact hrow
  | waited => exact hrow
  | missed hworker => exact hrow
  | claimed => exact getJob_takeJob hrow hnotQueued
  | @finished w job outcome now hworker =>
    apply getJob_closeJob hrow
    intro hsame
    subst hsame
    exact h.idle hrow hnotRunning ⟨job, hworker, rfl⟩
  | died => exact hrow

/-! ## Every interleaving -/

/-- **One worker for each job, and one outcome**, in every run whose workers start up while no job is
    being executed. -/
theorem jobs_kept {actions : List QueueAction}
    (hquiet : ∀ t ∈ transitions Queue.step {} actions, QuietStart t) :
    (∀ t ∈ transitions Queue.step {} actions, ∀ w w' id,
      t.after.Executes w id → t.after.Executes w' id → w = w') ∧
    (transitions Queue.step {} actions).Pairwise fun t t' => OutcomesKept t.after t'.after := by
  have hstart : Served {} := {
    numbered := rfl
    running := by
      rintro w id ⟨job, hjob, -⟩
      cases hjob
    alone := by
      rintro w w' id ⟨job, hjob, -⟩
      cases hjob }
  have hserved := invariant served_step hstart hquiet
  constructor
  · intro t ht
    exact (served_step t (step_of_mem t ht) (hserved t ht) (hquiet t ht)).alone
  · apply pairwise_after OutcomesKept OutcomesKept.trans
    intro t ht
    exact outcomes_step t (step_of_mem t ht) (hserved t ht)

/-! ## A worker that dies, and one that does not -/

/-- `QuietStart`, to be evaluated. -/
def isQuietStart (t : Transition Queue QueueAction) : Bool :=
  match t.action with
  | .startUp => t.before.workers.all fun worker =>
    match worker with
    | .executing _ => false
    | _ => true
  | _ => true

theorem quietStart_of_isQuietStart {t : Transition Queue QueueAction} (h : isQuietStart t = true) :
    QuietStart t := by
  rintro haction w id ⟨job, hjob, -⟩
  unfold isQuietStart at h
  rw [haction] at h
  have hworker := List.all_eq_true.mp h _ (List.mem_of_getElem? hjob)
  cases hworker

/-- A job whose first worker dies; the second starts up after that. -/
def afterACrash : List QueueAction :=
  [.create "5A" "ghcr.io/a/agent:1" "t0", .startUp, .select 0, .claim 0 "t1", .die 0, .startUp,
    .select 1, .claim 1 "t2", .finish 1 (.ok 7) "t3", .startUp]

theorem jobs_kept_after_a_crash :
    (transitions Queue.step {} afterACrash).length = afterACrash.length ∧
      (∀ t ∈ transitions Queue.step {} afterACrash, ∀ w w' id,
        t.after.Executes w id → t.after.Executes w' id → w = w') ∧
      (transitions Queue.step {} afterACrash).Pairwise fun t t' =>
        OutcomesKept t.after t'.after := by
  refine ⟨rfl, jobs_kept ?_⟩
  have hall : (transitions Queue.step {} afterACrash).all isQuietStart = true := by decide
  intro t ht
  exact quietStart_of_isQuietStart (List.all_eq_true.mp hall t ht)

/-- A second worker starts up while the first is executing the job: it takes the job too, and its
    failure replaces the verdict of the first. -/
def takenTwice : List QueueAction :=
  [.create "5A" "ghcr.io/a/agent:1" "t0", .startUp, .select 0, .claim 0 "t1", .startUp,
    .select 1, .claim 1 "t2", .finish 0 (.ok 7) "t3", .finish 1 (.error "Traceback") "t4"]

theorem job_taken_twice :
    (¬ ∀ actions : List QueueAction, ∀ t ∈ transitions Queue.step {} actions, ∀ w w' id,
      t.after.Executes w id → t.after.Executes w' id → w = w') ∧
    ¬ ∀ actions : List QueueAction, (transitions Queue.step {} actions).Pairwise fun t t' =>
      OutcomesKept t.after t'.after := by
  constructor
  · intro h
    -- After the second claim both workers execute job 1.
    have hboth := h takenTwice _
      (List.get_mem (transitions Queue.step {} takenTwice) ⟨6, by decide⟩) 0 1 1
    have hsame := hboth ⟨_, rfl, rfl⟩ ⟨_, rfl, rfl⟩
    cases hsame
  · intro h
    -- It is done after the first worker's report, and failed after the second's.
    have hpair := List.pairwise_iff_getElem.mp (h takenTwice) 7 8 (by decide) (by decide) (by decide)
    obtain ⟨row, hrow, hstate, -⟩ := hpair 1 _ rfl (.inl rfl)
    have hfailed : row.state = .failed := by
      rw [← Option.some.inj hrow]
      rfl
    rw [hfailed] at hstate
    cases hstate

end TaoSubnet
