import TaoSubnet.Proof.Security.FindingsErrors
import TaoSubnet.Proof.Security.Teardown

/-!
# A run, by the answers to its calls

A run makes each of its docker calls at most once, so how Docker behaves during one run is an answer
to each call. `Completes` says which answers take the body of the run to its result; all others end
it in a fault of the validator's.
-/

namespace TaoSubnet

open Py

/-! ## Calls and answers -/

/-- The docker calls of a run, in the order they are made. -/
inductive JobCall
  | networkCreate
  | targetRun
  | targetInspect
  | agentCreate
  | agentStart
  | agentWait
  | agentKill
  | agentInspect
  | replayRun
  | replayRemove
  | targetLogs
  | agentRemove
  | targetRemove
  | networkRemove
  deriving DecidableEq, Repr

namespace JobCall

def all : List JobCall :=
  [networkCreate, targetRun, targetInspect, agentCreate, agentStart, agentWait, agentKill,
    agentInspect, replayRun, replayRemove, targetLogs, agentRemove, targetRemove, networkRemove]

def position (call : JobCall) : Nat := all.idxOf call

def args (input : JobInput) (agentImage targetIp : String) : JobCall → List String
  | networkCreate => networkCreateArgs input.network
  | targetRun => targetRunArgs input
  | targetInspect => containerIpArgs input.targetName input.network
  | agentCreate => agentCreateArgs input.agentName input.network agentImage targetIp input.outDir
      input.runId input.timeoutS
  | agentStart => startArgs input.agentName
  | agentWait => waitArgs input.agentName
  | agentKill => killArgs input.agentName
  | agentInspect => exitCodeArgs input.agentName
  | replayRun =>
    replayTargetArgs input.replay { input.challenge with canary := input.replay.canary }
  | replayRemove => rmContainerArgs input.replay.name
  | targetLogs => logsArgs input.targetName
  | agentRemove => rmContainerArgs input.agentName
  | targetRemove => rmContainerArgs input.targetName
  | networkRemove => networkRemoveArgs input.network

end JobCall

/-- Docker gives each call of the run its answer, whatever the state it is in. -/
def Answers {δ : Type} (o : Outside δ) (input : JobInput) (agentImage : String)
    (answer : JobCall → Outcome) : Prop :=
  ∀ d call targetIp, (o.docker d (call.args input agentImage targetIp)).1 = answer call

/-- The command came back, with whatever exit code. -/
def Answered (r : Outcome) : Prop := ∃ res, r = .ok res

def Succeeded (r : Outcome) : Prop := ∃ res, r = .ok res ∧ res.returncode = 0

def TimedOut (r : Outcome) : Prop := ∃ e, r = .error e ∧ e.cls = .timeoutExpired

theorem Succeeded.answered {r : Outcome} (h : Succeeded r) : Answered r := by
  obtain ⟨res, hres, -⟩ := h
  exact ⟨res, hres⟩

/-- The agent asked for its findings to be replayed. -/
def ReplayAsked (py : Interpreter) (input : JobInput) : Prop :=
  ∃ findings, parseFindingsBytes py (readFindings input.out) none = .ok findings ∧
    findings.reproduction ≠ []

/-- What a run needs from the start of its agent on. -/
structure Observes (py : Interpreter) (input : JobInput) (answer : JobCall → Outcome) : Prop where
  started : Answered (answer .agentStart)
  waited : Answered (answer .agentWait) ∨
    TimedOut (answer .agentWait) ∧ Answered (answer .agentKill)
  inspected : Answered (answer .agentInspect)
  replayed : ReplayAsked py input → Answered (answer .replayRemove)
  logged : Answered (answer .targetLogs)
  graded : ¬ FindingsEscape py input.runId (readFindings input.out)

/-- The answers, and the findings, with which the body of a run ends in a result. -/
structure Completes (py : Interpreter) (input : JobInput) (answer : JobCall → Outcome) : Prop where
  network : Answered (answer .networkCreate)
  target : Succeeded (answer .targetRun)
  targetIp : ∃ res, answer .targetInspect = .ok res ∧ strip res.stdout ≠ ""
  agent : Succeeded (answer .agentCreate)
  observes : Observes py input answer

/-- The behaviour log the run reads: the one of the container id that the creation printed. -/
def agentLog (input : JobInput) (answer : JobCall → Outcome) : String :=
  match answer .agentCreate with
  | .ok created => if strip created.stdout = "" then "" else input.bootLog (strip created.stdout)
  | .error _ => ""

/-- A result that is the validator's fault. -/
def IsFault (result : JobResult) : Prop :=
  ∃ runId message, result = ourFault runId message ∧ message ≠ ""

/-- What the evidence comes to, once a run has all of it. -/
def IsGraded (py : Interpreter) (input : JobInput) (log : String) (result : JobResult) : Prop :=
  ∃ measured replayConfirmed requestCount graded,
    assembleResult py input.runId input.challenge (readFindings input.out) log measured
      replayConfirmed (decide (strip log ≠ "")) = .ok graded ∧
    result = { graded with requestCount := requestCount }

/-! ## Faults -/

theorem append_ne_empty {s t : String} (h : s ≠ "") : s ++ t ≠ "" := by
  intro hst
  apply h
  have := congrArg String.toList hst
  simp only [String.toList_append] at this
  exact String.toList_inj.mp (List.append_eq_nil_iff.mp this).1

theorem isFault_ourFault {runId message : String} (h : message ≠ "") :
    IsFault (ourFault runId message) := ⟨runId, message, rfl, h⟩

theorem isFault_jobFault (runId : String) (e : Exc) : IsFault (jobFault runId e) := by
  unfold jobFault
  split
  · exact isFault_ourFault (append_ne_empty (by decide))
  · refine isFault_ourFault (append_ne_empty (append_ne_empty ?_))
    cases e.cls <;> decide

theorem rewardForJob_fault {result : JobResult} (h : IsFault result) :
    rewardForJob result = none := by
  obtain ⟨runId, message, rfl, hne⟩ := h
  simp [rewardForJob, ourFault, hne]

/-! ## Grading -/

theorem readFindings_length (out : OutDir) : (readFindings out).length ≤ MAX_FILE_BYTES := by
  unfold readFindings
  split
  · exact Nat.zero_le _
  · split
    · exact List.length_take_le _ _
    · exact Nat.zero_le _

theorem gradeFindings_error (py : Interpreter) (runId : String) (challenge : Challenge)
    (raw : List UInt8) (replayConfirmed : Bool) :
    (∃ e, gradeFindings py runId challenge raw replayConfirmed = .error e) ↔
      Escapes (parseFindingsBytes py raw (some runId)) := by
  unfold gradeFindings
  split
  · rename_i h
    simp [h]
  · rename_i h
    simp [h]
  · rename_i h
    simp [h]

/-- Grading ends with a result, or raises what escapes the findings parser. -/
theorem assembleResult_error {py : Interpreter} {runId : String} {challenge : Challenge}
    {raw : List UInt8} {log : String} {measured : Measured} {replayConfirmed available : Bool} :
    (∃ e, assembleResult py runId challenge raw log measured replayConfirmed available = .error e) ↔
      Escapes (parseFindingsBytes py raw (some runId)) := by
  rw [← gradeFindings_error py runId challenge raw replayConfirmed]
  unfold assembleResult
  rcases hg : gradeFindings py runId challenge raw replayConfirmed with e | graded
  · simp [bind, Except.bind]
  · simp [bind, Except.bind, pure, Except.pure]

/-- The parts of a graded result that the verdict rests on. -/
theorem assembleResult_ok {py : Interpreter} {runId : String} {challenge : Challenge}
    {raw : List UInt8} {log : String} {measured : Measured} {replayConfirmed available : Bool}
    {result : JobResult}
    (h : assembleResult py runId challenge raw log measured replayConfirmed available = .ok result) :
    result.error = none ∧
    result.safe = ((safetyVerdict (analyze py.unicode log)).1 && available) ∧
    (monitoringUnavailable ∈ result.violations →
      available = false ∨ monitoringUnavailable ∈ (analyze py.unicode log).violations) ∧
    (available = false → monitoringUnavailable ∈ result.violations) := by
  unfold assembleResult at h
  rcases hg : gradeFindings py runId challenge raw replayConfirmed with e | graded
  · rw [hg] at h
    cases h
  · rw [hg] at h
    cases h
    refine ⟨rfl, rfl, ?_, ?_⟩
    · intro hmem
      cases available with
      | false => exact .inl rfl
      | true =>
        rcases List.mem_append.mp hmem with hmem | hmem
        · exact .inr (List.mem_filter.mp hmem).1
        · exact .inr (List.mem_filter.mp hmem).1
    · intro havail
      simp [havail]

theorem isGraded_error {py : Interpreter} {input : JobInput} {log : String} {result : JobResult}
    (h : IsGraded py input log result) : result.error = none := by
  obtain ⟨_, _, _, graded, hok, rfl⟩ := h
  exact (assembleResult_ok hok).1

theorem isGraded_safe {py : Interpreter} {input : JobInput} {log : String} {result : JobResult}
    (h : IsGraded py input log result) :
    result.safe = ((safetyVerdict (analyze py.unicode log)).1 && decide (strip log ≠ "")) := by
  obtain ⟨_, _, _, graded, hok, rfl⟩ := h
  exact (assembleResult_ok hok).2.1

/-! ## The body, call by call -/

section

variable {δ : Type} {o : Outside δ} {py : Interpreter} {input : JobInput} {agentImage : String}
variable {answer : JobCall → Outcome}

theorem docker_returns (call : JobCall) (ip : String) (ha : Answers o input agentImage answer)
    {res : CompletedProcess} (h : answer call = .ok res) :
    Prog.Returns (docker o (call.args input agentImage ip)) (· = res) := by
  intro w
  rw [docker_ok o ((ha w.outside call ip).trans h)]
  exact ⟨res, rfl, rfl⟩

theorem docker_raises (call : JobCall) (ip : String) (ha : Answers o input agentImage answer)
    (h : ¬ Answered (answer call)) :
    Prog.Raises (docker o (call.args input agentImage ip)) := by
  intro w
  rcases he : answer call with e | res
  · rw [docker_error o ((ha w.outside call ip).trans he)]
    exact ⟨e, rfl⟩
  · exact absurd ⟨res, he⟩ h

/-- A call whose value is not used. -/
theorem docker_then_returns {α : Type} {V : α → Prop} (call : JobCall) (ip : String)
    (ha : Answers o input agentImage answer) (h : Answered (answer call))
    {rest : Prog (World δ) Exc α} (hrest : Prog.Returns rest V) :
    Prog.Returns (docker o (call.args input agentImage ip) >>= fun _ => rest) V := by
  obtain ⟨res, hres⟩ := h
  exact (docker_returns call ip ha hres).bind fun _ _ => hrest

theorem waitOrKill_returns (ha : Answers o input agentImage answer)
    (h : Answered (answer .agentWait) ∨
      TimedOut (answer .agentWait) ∧ Answered (answer .agentKill)) :
    Prog.Returns (waitOrKill o input.agentName) fun _ => True := by
  rcases h with h | ⟨⟨e, he, hcls⟩, hkill⟩
  · exact (docker_then_returns .agentWait "" ha h (.ret trivial)).tryExcept _
  · intro w
    have hwait : docker o (waitArgs input.agentName) w = (.error e, _) :=
      docker_error o ((ha w.outside .agentWait "").trans he)
    have hk : Prog.Returns (docker o (killArgs input.agentName) >>= fun _ => pure true)
        fun _ => True := docker_then_returns .agentKill "" ha hkill (.ret trivial)
    unfold waitOrKill
    rw [Prog.tryExcept_error (Prog.bind_error hwait), if_pos hcls]
    exact hk _

theorem waitOrKill_raises (ha : Answers o input agentImage answer)
    (h : ¬ (Answered (answer .agentWait) ∨
      TimedOut (answer .agentWait) ∧ Answered (answer .agentKill))) :
    Prog.Raises (waitOrKill o input.agentName) := by
  rw [not_or, not_and] at h
  obtain ⟨hwait, hkill⟩ := h
  intro w
  rcases he : answer .agentWait with e | res
  · have hw : docker o (waitArgs input.agentName) w = (.error e, _) :=
      docker_error o ((ha w.outside .agentWait "").trans he)
    unfold waitOrKill
    rw [Prog.tryExcept_error (Prog.bind_error hw)]
    by_cases hcls : e.cls = .timeoutExpired
    · rw [if_pos hcls]
      have hk : Prog.Raises (docker o (killArgs input.agentName)) :=
        docker_raises .agentKill "" ha (hkill ⟨e, he, hcls⟩)
      exact hk.bind _ _
    · rw [if_neg hcls]
      exact ⟨e, rfl⟩
  · exact absurd ⟨res, he⟩ hwait

/-- Inside a replay, only the removal of its container can raise. -/
theorem runReplay_returns (ha : Answers o input agentImage answer)
    (h : Answered (answer .replayRemove)) (steps : List ReproStep) :
    Prog.Returns (runReplay o py input.replay input.challenge steps) fun _ => True := by
  unfold runReplay
  split
  · exact .ret trivial
  · refine .tryFinally (.tryExcept_any _ fun _ => .ret trivial) ?_
    exact docker_then_returns .replayRemove "" ha h (.ret trivial)

theorem runReplay_raises (ha : Answers o input agentImage answer)
    (h : ¬ Answered (answer .replayRemove)) {steps : List ReproStep} (hsteps : steps ≠ []) :
    Prog.Raises (runReplay o py input.replay input.challenge steps) := by
  unfold runReplay
  rw [if_neg (by simpa using hsteps)]
  have hrm : Prog.Raises (docker o (rmContainerArgs input.replay.name)) :=
    docker_raises .replayRemove "" ha h
  exact .tryFinally _ (hrm.bind _)

theorem maybeReplay_returns (ha : Answers o input agentImage answer)
    (h : ReplayAsked py input → Answered (answer .replayRemove)) :
    Prog.Returns (maybeReplay o py input.replay input.challenge (readFindings input.out))
      fun _ => True := by
  unfold maybeReplay
  split
  · exact .ret trivial
  · rename_i findings hparse
    split
    · exact .ret trivial
    · rename_i hsome
      exact runReplay_returns ha (h ⟨findings, hparse, by simpa using hsome⟩) _

theorem maybeReplay_raises (ha : Answers o input agentImage answer) (hask : ReplayAsked py input)
    (h : ¬ Answered (answer .replayRemove)) :
    Prog.Raises (maybeReplay o py input.replay input.challenge (readFindings input.out)) := by
  obtain ⟨findings, hparse, hsome⟩ := hask
  unfold maybeReplay
  rw [hparse]
  dsimp only
  rw [if_neg (by simpa using hsome)]
  exact runReplay_raises ha h hsome

theorem exitCode_returns (ha : Answers o input agentImage answer)
    (h : Answered (answer .agentInspect)) :
    Prog.Returns (exitCode o py input.agentName) fun _ => True := by
  obtain ⟨res, hres⟩ := h
  exact (docker_returns .agentInspect "" ha hres).bind fun _ _ => .ret trivial

theorem readRequestCount_returns (ha : Answers o input agentImage answer)
    (h : Answered (answer .targetLogs)) :
    Prog.Returns (readRequestCount o py input.targetName) fun _ => True := by
  obtain ⟨res, hres⟩ := h
  exact (docker_returns .targetLogs "" ha hres).bind fun _ _ => .ret trivial

theorem observeAgent_returns (ha : Answers o input agentImage answer)
    (h : Observes py input answer) (agentCid : String) :
    Prog.Returns (observeAgent o py input agentCid)
      (IsGraded py input (if agentCid = "" then "" else input.bootLog agentCid)) := by
  unfold observeAgent
  refine docker_then_returns .agentStart "" ha h.started ?_
  refine (waitOrKill_returns ha h.waited).bind fun timedOut _ => ?_
  refine (exitCode_returns ha h.inspected).bind fun code _ => ?_
  refine (maybeReplay_returns ha h.replayed).bind fun replayConfirmed _ => ?_
  refine (readRequestCount_returns ha h.logged).bind fun requestCount _ => ?_
  rcases hg : assembleResult py input.runId input.challenge (readFindings input.out)
    (if agentCid = "" then "" else input.bootLog agentCid) ⟨code, timedOut, input.durationMs⟩
    replayConfirmed (decide (strip (if agentCid = "" then "" else input.bootLog agentCid) ≠ ""))
    with e | graded
  · have hesc := assembleResult_error.mp ⟨e, hg⟩
    rw [escapes_parseFindingsBytes (readFindings_length input.out)] at hesc
    exact absurd hesc h.graded
  · refine Prog.Returns.bind (V := (· = graded)) (.ofExcept rfl) ?_
    rintro _ rfl
    exact .ret ⟨_, replayConfirmed, requestCount, _, hg, rfl⟩

theorem observeAgent_raises (ha : Answers o input agentImage answer)
    (h : ¬ Observes py input answer) (agentCid : String) :
    Prog.Raises (observeAgent o py input agentCid) := by
  unfold observeAgent
  by_cases hstart : Answered (answer .agentStart)
  swap
  · have hx : Prog.Raises (docker o (startArgs input.agentName)) :=
      docker_raises .agentStart "" ha hstart
    exact hx.bind _
  obtain ⟨res, hres⟩ := hstart
  refine (docker_returns .agentStart "" ha hres).bind_raises fun _ _ => ?_
  by_cases hwait : Answered (answer .agentWait) ∨
    TimedOut (answer .agentWait) ∧ Answered (answer .agentKill)
  swap
  · exact (waitOrKill_raises ha hwait).bind _
  refine (waitOrKill_returns ha hwait).bind_raises fun timedOut _ => ?_
  by_cases hexit : Answered (answer .agentInspect)
  swap
  · have hx : Prog.Raises (docker o (exitCodeArgs input.agentName)) :=
      docker_raises .agentInspect "" ha hexit
    exact (hx.bind _).bind _
  refine (exitCode_returns ha hexit).bind_raises fun code _ => ?_
  by_cases hreplay : ReplayAsked py input → Answered (answer .replayRemove)
  swap
  · rw [Classical.not_imp] at hreplay
    exact (maybeReplay_raises ha hreplay.1 hreplay.2).bind _
  refine (maybeReplay_returns ha hreplay).bind_raises fun replayConfirmed _ => ?_
  by_cases hlogs : Answered (answer .targetLogs)
  swap
  · have hx : Prog.Raises (docker o (logsArgs input.targetName)) :=
      docker_raises .targetLogs "" ha hlogs
    exact (hx.bind _).bind _
  refine (readRequestCount_returns ha hlogs).bind_raises fun requestCount _ => ?_
  -- Every call came back, so it is the grading that raises.
  have hesc : FindingsEscape py input.runId (readFindings input.out) := by
    by_contra hgraded
    exact h ⟨⟨res, hres⟩, hwait, hexit, hreplay, hlogs, hgraded⟩
  rw [← escapes_parseFindingsBytes (readFindings_length input.out)] at hesc
  obtain ⟨e, he⟩ := assembleResult_error.mpr hesc
  refine Prog.Raises.bind _ ?_
  rw [he]
  exact .ofExcept e

theorem jobBody_returns (ha : Answers o input agentImage answer)
    (h : Completes py input answer) :
    Prog.Returns (jobBody o py input agentImage) (IsGraded py input (agentLog input answer)) := by
  obtain ⟨tgt, htgt, htgt0⟩ := h.target
  obtain ⟨res, hres, hip⟩ := h.targetIp
  obtain ⟨created, hcreated, hcreated0⟩ := h.agent
  unfold jobBody
  refine docker_then_returns .networkCreate "" ha h.network ?_
  refine (docker_returns .targetRun "" ha htgt).bind ?_
  rintro _ rfl
  rw [if_neg (by simpa using htgt0)]
  have hcip : Prog.Returns (containerIp o input.targetName input.network)
      (· = strip res.stdout) := by
    refine (docker_returns .targetInspect "" ha hres).bind ?_
    rintro _ rfl
    exact .ret rfl
  refine hcip.bind ?_
  rintro _ rfl
  rw [if_neg hip]
  refine (docker_returns .agentCreate _ ha hcreated).bind ?_
  rintro _ rfl
  rw [if_neg (by simpa using hcreated0)]
  refine (observeAgent_returns ha h.observes _).mono fun result hresult => ?_
  rw [agentLog, hcreated]
  exact hresult

/-- The body ends in a fault: it returns one, or raises what its handlers make one. -/
def Faults (x : Prog (World δ) Exc JobResult) : Prop := Prog.Raises x ∨ Prog.Returns x IsFault

theorem faults_after {α : Type} {x : Prog (World δ) Exc α} {a : α}
    {f : α → Prog (World δ) Exc JobResult} (hx : Prog.Returns x (· = a)) (hf : Faults (f a)) :
    Faults (x >>= f) := by
  rcases hf with hf | hf
  · exact .inl (hx.bind_raises fun _ hb => hb ▸ hf)
  · exact .inr (hx.bind fun _ hb => hb ▸ hf)

theorem jobBody_faults (ha : Answers o input agentImage answer)
    (h : ¬ Completes py input answer) : Faults (jobBody o py input agentImage) := by
  unfold jobBody
  by_cases hnet : Answered (answer .networkCreate)
  swap
  · exact .inl ((docker_raises .networkCreate "" ha hnet).bind _)
  obtain ⟨net, hnet⟩ := hnet
  refine faults_after (docker_returns .networkCreate "" ha hnet) ?_
  rcases htgt : answer .targetRun with e | tgt
  · exact .inl ((docker_raises .targetRun "" ha (by simp [Answered, htgt])).bind _)
  refine faults_after (docker_returns .targetRun "" ha htgt) ?_
  by_cases htgt0 : tgt.returncode = 0
  swap
  · rw [if_pos htgt0]
    exact .inr (.ret (isFault_ourFault (append_ne_empty (by decide))))
  rw [if_neg (by simpa using htgt0)]
  rcases hres : answer .targetInspect with e | res
  · have hx := docker_raises .targetInspect "" ha (by simp [Answered, hres])
    exact .inl ((hx.bind _).bind _)
  have hcip : Prog.Returns (containerIp o input.targetName input.network)
      (· = strip res.stdout) := by
    refine (docker_returns .targetInspect "" ha hres).bind ?_
    rintro _ rfl
    exact .ret rfl
  refine faults_after hcip ?_
  by_cases hip : strip res.stdout = ""
  · rw [if_pos hip]
    exact .inr (.ret (isFault_ourFault (by decide)))
  rw [if_neg hip]
  rcases hcreated : answer .agentCreate with e | created
  · exact .inl ((docker_raises .agentCreate _ ha (by simp [Answered, hcreated])).bind _)
  refine faults_after (docker_returns .agentCreate _ ha hcreated) ?_
  by_cases hcreated0 : created.returncode = 0
  swap
  · rw [if_pos hcreated0]
    exact .inr (.ret (isFault_ourFault (append_ne_empty (by decide))))
  rw [if_neg (by simpa using hcreated0)]
  refine .inl (observeAgent_raises ha (fun hobs => h ?_) _)
  exact ⟨⟨net, hnet⟩, ⟨tgt, htgt, htgt0⟩, ⟨res, hres, hip⟩, ⟨created, hcreated, hcreated0⟩, hobs⟩

/-! ## The run -/

/-- The three removals come back. -/
def RemovalsAnswered (answer : JobCall → Outcome) : Prop :=
  Answered (answer .agentRemove) ∧ Answered (answer .targetRemove) ∧
    Answered (answer .networkRemove)

theorem teardown_returns (ha : Answers o input agentImage answer) (h : RemovalsAnswered answer) :
    Prog.Returns (teardown o input) fun _ => True := by
  obtain ⟨h1, h2, h3⟩ := h
  unfold teardown
  refine docker_then_returns .agentRemove "" ha h1 ?_
  refine docker_then_returns .targetRemove "" ha h2 ?_
  refine docker_then_returns .networkRemove "" ha h3 ?_
  exact fun w => ⟨(), rfl, trivial⟩

theorem teardown_raises (ha : Answers o input agentImage answer) (h : ¬ RemovalsAnswered answer) :
    Prog.Raises (teardown o input) := by
  unfold teardown
  by_cases h1 : Answered (answer .agentRemove)
  swap
  · exact (docker_raises .agentRemove "" ha h1).bind _
  obtain ⟨r1, hr1⟩ := h1
  refine (docker_returns .agentRemove "" ha hr1).bind_raises fun _ _ => ?_
  by_cases h2 : Answered (answer .targetRemove)
  swap
  · exact (docker_raises .targetRemove "" ha h2).bind _
  obtain ⟨r2, hr2⟩ := h2
  refine (docker_returns .targetRemove "" ha hr2).bind_raises fun _ _ => ?_
  have h3 : ¬ Answered (answer .networkRemove) := fun h3 => h ⟨⟨r1, hr1⟩, ⟨r2, hr2⟩, h3⟩
  exact (docker_raises .networkRemove "" ha h3).bind _

theorem runJob_graded (ha : Answers o input agentImage answer) (hrm : RemovalsAnswered answer)
    (h : Completes py input answer) :
    Prog.Returns (runJob o py input agentImage) (IsGraded py input (agentLog input answer)) := by
  unfold runJob
  exact .tryFinally ((jobBody_returns ha h).tryExcept _) (teardown_returns ha hrm)

theorem runJob_faults (ha : Answers o input agentImage answer) (hrm : RemovalsAnswered answer)
    (h : ¬ Completes py input answer) : Prog.Returns (runJob o py input agentImage) IsFault := by
  unfold runJob
  refine .tryFinally ?_ (teardown_returns ha hrm)
  rcases jobBody_faults ha h with hx | hx
  · exact hx.tryExcept fun e => .ret (isFault_jobFault input.runId e)
  · exact hx.tryExcept _

theorem runJob_raises (ha : Answers o input agentImage answer) (h : ¬ RemovalsAnswered answer) :
    Prog.Raises (runJob o py input agentImage) := by
  unfold runJob
  exact .tryFinally _ (teardown_raises ha h)

end

end TaoSubnet
