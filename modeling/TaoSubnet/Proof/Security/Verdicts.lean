import TaoSubnet.Proof.Security.Calls

/-!
# Vetoes and faults

Two boundaries of a run's verdict. A vetoed run earns nothing, unless the findings escape their
parser: then it is the validator's fault, and is not scored. A run that loses its daemon is the
validator's fault, unless it loses it after the agent was created and never meets a raise: then
the missing log is the agent's.
-/

namespace TaoSubnet

open Py

/-! ## Answers that can be given -/

/-- The call a command belongs to. -/
def JobCall.ofArgs (input : JobInput) : List String → JobCall
  | verb :: rest =>
    if verb = "network" then
      if rest.head? = some "create" then .networkCreate else .networkRemove
    else if verb = "run" then
      if rest[2]? = some input.targetName then .targetRun else .replayRun
    else if verb = "inspect" then
      if rest[1]? = (exitCodeArgs input.agentName)[2]? then .agentInspect else .targetInspect
    else if verb = "create" then .agentCreate
    else if verb = "start" then .agentStart
    else if verb = "wait" then .agentWait
    else if verb = "kill" then .agentKill
    else if verb = "logs" then .targetLogs
    else if rest[2]? = some input.agentName then .agentRemove
    else if rest[2]? = some input.targetName then .targetRemove
    else .replayRemove
  | [] => .networkCreate

/-- A Docker that answers each call of a run as it is told to. -/
def scripted (input : JobInput) (answer : JobCall → Outcome) : Outside Unit where
  docker _ args := (answer (JobCall.ofArgs input args), ())
  http _ _ := (.error ⟨.osError, "unreachable"⟩, ())

theorem agentName_ne_targetName (input : JobInput) : input.agentName ≠ input.targetName := by
  intro h
  have := congrArg (fun s : String => s.toList[7]?) h
  simp [JobInput.agentName, JobInput.targetName] at this

theorem containerIp_format (input : JobInput) :
    (containerIpArgs input.targetName input.network)[2]? ≠ (exitCodeArgs input.agentName)[2]? := by
  intro h
  have := congrArg (fun s : Option String => (s.getD "").toList[2]?) h
  simp [containerIpArgs, exitCodeArgs] at this

/-- Any answers can be given, as long as the replay has a container name of its own. -/
theorem scripted_answers {input : JobInput} (agentImage : String) (answer : JobCall → Outcome)
    (hagent : input.replay.name ≠ input.agentName)
    (htarget : input.replay.name ≠ input.targetName) :
    Answers (scripted input answer) input agentImage answer := by
  have hnames := (agentName_ne_targetName input).symm
  have hformat := containerIp_format input
  intro d call ip
  have hof : JobCall.ofArgs input (call.args input agentImage ip) = call := by
    cases call
    case targetInspect =>
      simp only [containerIpArgs] at hformat
      simpa [JobCall.ofArgs, JobCall.args, containerIpArgs] using hformat
    all_goals simp_all [JobCall.ofArgs, JobCall.args, networkCreateArgs, networkRemoveArgs,
      targetRunArgs, agentCreateArgs, startArgs, waitArgs, killArgs, exitCodeArgs,
      replayTargetArgs, rmContainerArgs, logsArgs]
  simp only [scripted, hof]

/-! ## The veto -/

/-- The log convicts the agent, or there is none. -/
def Vetoed (u : Unicode) (log : String) : Prop :=
  (∃ v ∈ (analyze u log).violations, v.isBlocking = true) ∨ strip log = ""

theorem vetoed_unsafe {u : Unicode} {log : String} (h : Vetoed u log) :
    ((safetyVerdict (analyze u log)).1 && decide (strip log ≠ "")) = false := by
  rcases h with ⟨v, hv, hblocking⟩ | hblank
  · have hne : (analyze u log).violations.filter Violation.isBlocking ≠ [] :=
      List.ne_nil_of_mem (List.mem_filter.mpr ⟨hv, hblocking⟩)
    have hverdict : (safetyVerdict (analyze u log)).1 = false := by
      simpa [safetyVerdict] using hne
    rw [hverdict, Bool.false_and]
  · simp [hblank]

theorem rewardForJob_unsafe {result : JobResult} (herror : result.error = none)
    (hsafe : result.safe = false) : rewardForJob result = some 0 := by
  simp [rewardForJob, herror, hsafe]

theorem rewardForJob_graded {result : JobResult} (herror : result.error = none) :
    rewardForJob result ≠ none := by
  unfold rewardForJob
  simp only [herror, Option.map_none, Option.getD_none, Bool.false_eq_true, if_false]
  split
  · simp
  · split <;> simp

section

variable {δ : Type} {o : Outside δ} {py : Interpreter} {input : JobInput} {agentImage : String}
variable {answer : JobCall → Outcome}

/-- Every call of the run succeeds; only the wait for the agent may run out of its time. -/
def AllSucceed (answer : JobCall → Outcome) : Prop :=
  ∀ call, Succeeded (answer call) ∨ call = .agentWait ∧ TimedOut (answer call)

theorem AllSucceed.succeeded (h : AllSucceed answer) {call : JobCall} (hne : call ≠ .agentWait) :
    Succeeded (answer call) := (h call).resolve_right fun hw => hne hw.1

theorem AllSucceed.removals (h : AllSucceed answer) : RemovalsAnswered answer :=
  ⟨(h.succeeded (by decide)).answered, (h.succeeded (by decide)).answered,
    (h.succeeded (by decide)).answered⟩

/-- With all calls successful, what decides is whether the findings escape. -/
theorem AllSucceed.completes_iff (h : AllSucceed answer)
    (hip : ∃ res, answer .targetInspect = .ok res ∧ strip res.stdout ≠ "") :
    Completes py input answer ↔ ¬ FindingsEscape py input.runId (readFindings input.out) := by
  constructor
  · exact fun hc => hc.observes.graded
  · intro hgraded
    have hwait : Answered (answer .agentWait) ∨
        TimedOut (answer .agentWait) ∧ Answered (answer .agentKill) := by
      rcases h .agentWait with hok | ⟨-, htimed⟩
      · exact .inl hok.answered
      · exact .inr ⟨htimed, (h.succeeded (by decide)).answered⟩
    exact {
      network := (h.succeeded (by decide)).answered
      target := h.succeeded (by decide)
      targetIp := hip
      agent := h.succeeded (by decide)
      observes := {
        started := (h.succeeded (by decide)).answered
        waited := hwait
        inspected := (h.succeeded (by decide)).answered
        replayed := fun _ => (h.succeeded (by decide)).answered
        logged := (h.succeeded (by decide)).answered
        graded := hgraded } }

/-- **A vetoed run earns exactly nothing, unless its findings escape their parser.** -/
theorem vetoed_run_earns_zero_iff (ha : Answers o input agentImage answer)
    (hcalls : AllSucceed answer)
    (hip : ∃ res, answer .targetInspect = .ok res ∧ strip res.stdout ≠ "")
    (hveto : Vetoed py.unicode (agentLog input answer)) (d : δ) :
    (runJob o py input agentImage false { outside := d }).1.map rewardForJob = .ok (some 0) ↔
      ¬ FindingsEscape py input.runId (readFindings input.out) := by
  rw [← hcalls.completes_iff hip]
  constructor
  · intro hreward
    by_contra hne
    obtain ⟨result, hrun, hfault⟩ := runJob_faults ha hcalls.removals hne { outside := d }
    rw [hrun, Except.map, rewardForJob_fault hfault] at hreward
    cases hreward
  · intro hc
    obtain ⟨result, hrun, hgraded⟩ := runJob_graded ha hcalls.removals hc { outside := d }
    have hsafe : result.safe = false := by
      rw [isGraded_safe hgraded]
      exact vetoed_unsafe hveto
    rw [hrun, Except.map, rewardForJob_unsafe (isGraded_error hgraded) hsafe]

/-- All calls succeed, and say what they have to say. -/
def calmAnswer : JobCall → Outcome
  | .targetInspect => .ok ⟨0, "172.18.0.2\n", ""⟩
  | .agentCreate => .ok ⟨0, "c0ffee\n", ""⟩
  | _ => .ok ⟨0, "", ""⟩

theorem calmAnswer_succeeds : AllSucceed calmAnswer := by
  intro call
  left
  cases call <;> exact ⟨_, rfl, rfl⟩

theorem calmAnswer_targetIp :
    ∃ res, calmAnswer .targetInspect = .ok res ∧ strip res.stdout ≠ "" :=
  ⟨_, rfl, by decide⟩

/-- The run id, no findings, and a reproduction of the finding `²`: `isdigit`, and no integer. -/
def superscriptFindings : List UInt8 :=
  "\x7b\"run_id\":\"0123456789abcdef\",\"reproduction\":[\x7b\"finding_id\":\"²\"\x7d]\x7d".toUTF8.toList

theorem vetoed_run_earns_zero_plain :
    AllSucceed calmAnswer ∧ Vetoed cpython.unicode (agentLog plainInput calmAnswer) ∧
      ((runJob (scripted plainInput calmAnswer) cpython plainInput "miner/agent:1" false
          { outside := () }).1.map rewardForJob = .ok (some 0) ↔
        ¬ FindingsEscape cpython plainInput.runId (readFindings plainInput.out)) :=
  have hveto : Vetoed cpython.unicode (agentLog plainInput calmAnswer) := .inr (by decide)
  ⟨calmAnswer_succeeds, hveto,
    vetoed_run_earns_zero_iff
      (scripted_answers "miner/agent:1" calmAnswer (by decide) (by decide))
      calmAnswer_succeeds calmAnswer_targetIp hveto ()⟩

/-- The superscript turns a run with no log at all into one that is not scored. -/
theorem superscript_escapes_veto :
    ¬ ∀ (py : Interpreter) (input : JobInput) (agentImage : String) (answer : JobCall → Outcome),
      AllSucceed answer →
      (∃ res, answer .targetInspect = .ok res ∧ strip res.stdout ≠ "") →
      Vetoed py.unicode (agentLog input answer) →
      (runJob (scripted input answer) py input agentImage false { outside := () }).1.map
        rewardForJob = .ok (some 0) := by
  intro h
  have hzero := h cpython { plainInput with out := ⟨[69], .regular superscriptFindings⟩ }
    "miner/agent:1" calmAnswer calmAnswer_succeeds calmAnswer_targetIp (.inr (by decide))
  have hnone : (runJob (scripted plainInput calmAnswer) cpython
      { plainInput with out := ⟨[69], .regular superscriptFindings⟩ } "miner/agent:1" false
      { outside := () }).1.map rewardForJob = .ok none := by decide +kernel
  exact absurd (hzero.symm.trans hnone) (by decide)

end

section

variable {δ : Type} {o : Outside δ} {py : Interpreter} {input : JobInput} {agentImage : String}
variable {answer : JobCall → Outcome}

/-! ## The lost daemon -/

/-- From this call on, no call of the run succeeds. -/
def LostFrom (lost : JobCall) (answer : JobCall → Outcome) : Prop :=
  ∀ call : JobCall, lost.position ≤ call.position → ¬ Succeeded (answer call)

/-- The agent's log is blank, the run comes to its end, and nothing of it raised. -/
def UnstartedAgentBlamed (py : Interpreter) (input : JobInput) (answer : JobCall → Outcome) : Prop :=
  RemovalsAnswered answer ∧ Completes py input answer ∧ strip (agentLog input answer) = "" ∧
    ¬ Succeeded (answer .agentStart)

theorem LostFrom.not_completes {lost : JobCall} (h : LostFrom lost answer)
    (hearly : lost.position ≤ JobCall.agentCreate.position) : ¬ Completes py input answer :=
  fun hc => h .agentCreate hearly hc.agent

theorem reward_none_iff (ha : Answers o input agentImage answer) (d : δ) :
    (runJob o py input agentImage false { outside := d }).1.map rewardForJob = .ok none ↔
      RemovalsAnswered answer ∧ ¬ Completes py input answer := by
  constructor
  · intro hreward
    have hrm : RemovalsAnswered answer := by
      by_contra hne
      have hraises : Prog.Raises (runJob o py input agentImage) := runJob_raises ha hne
      obtain ⟨e, hrun⟩ := hraises { outside := d }
      rw [hrun] at hreward
      cases hreward
    refine ⟨hrm, fun hc => ?_⟩
    obtain ⟨result, hrun, hgraded⟩ := runJob_graded ha hrm hc { outside := d }
    rw [hrun, Except.map] at hreward
    exact rewardForJob_graded (isGraded_error hgraded) (Except.ok.inj hreward)
  · rintro ⟨hrm, hne⟩
    obtain ⟨result, hrun, hfault⟩ := runJob_faults ha hrm hne { outside := d }
    rw [hrun, Except.map, rewardForJob_fault hfault]

/-- Every violation shows the event it came from; missing evidence shows none. -/
theorem violationFor_evidence {event : SyscallEvent} {v : Violation}
    (h : violationFor event = some v) : v.evidence = event.text := by
  have hmap {α : Type} {x : Option α} {f : α → Violation} (hf : ∀ a, (f a).evidence = event.text)
      (hx : x.map f = some v) : v.evidence = event.text := by
    obtain ⟨a, -, rfl⟩ := Option.map_eq_some_iff.mp hx
    exact hf a
  unfold violationFor at h
  dsimp only at h
  split at h
  · cases h
  split at h
  · exact hmap (fun _ => rfl) h
  split at h
  · split at h
    · cases h
      rfl
    · split at h
      · cases h
        rfl
      · split at h
        · cases h
          rfl
        · cases h
  split at h
  · exact hmap (fun _ => rfl) h
  · cases h

theorem monitoringUnavailable_not_analyzed (u : Unicode) (log : String) :
    monitoringUnavailable ∉ (analyze u log).violations := by
  intro hmem
  obtain ⟨event, -, hv⟩ := List.mem_filterMap.mp hmem
  have htext : event.text = "" := (violationFor_evidence hv).symm
  have hlength := congrArg String.length htext
  simp [SyscallEvent.text] at hlength

theorem isGraded_missing_iff {result : JobResult} {log : String}
    (h : IsGraded py input log result) :
    monitoringUnavailable ∈ result.violations ↔ strip log = "" := by
  obtain ⟨_, _, _, graded, hok, rfl⟩ := h
  obtain ⟨-, -, hmem, hblank⟩ := assembleResult_ok hok
  constructor
  · intro hm
    rcases hmem hm with h | h
    · simpa using h
    · exact absurd h (monitoringUnavailable_not_analyzed _ _)
  · intro hlog
    exact hblank (by simp [hlog])

theorem missing_implies_started_iff (ha : Answers o input agentImage answer) (d : δ) :
    (∀ result, (runJob o py input agentImage false { outside := d }).1 = .ok result →
      monitoringUnavailable ∈ result.violations → Succeeded (answer .agentStart)) ↔
    ¬ UnstartedAgentBlamed py input answer := by
  constructor
  · rintro h ⟨hrm, hc, hblank, hnot⟩
    obtain ⟨result, hrun, hgraded⟩ := runJob_graded ha hrm hc { outside := d }
    exact hnot (h result hrun ((isGraded_missing_iff hgraded).mpr hblank))
  · intro h result hrun hmem
    by_contra hnot
    have hrm : RemovalsAnswered answer := by
      by_contra hne
      have hraises : Prog.Raises (runJob o py input agentImage) := runJob_raises ha hne
      obtain ⟨e, hraised⟩ := hraises { outside := d }
      rw [hrun] at hraised
      cases hraised
    by_cases hc : Completes py input answer
    · obtain ⟨result', hrun', hgraded⟩ := runJob_graded ha hrm hc { outside := d }
      obtain rfl : result = result' := Except.ok.inj (hrun.symm.trans hrun')
      exact h ⟨hrm, hc, (isGraded_missing_iff hgraded).mp hmem, hnot⟩
    · -- A fault has no violations at all.
      obtain ⟨result', hrun', runId, message, rfl, -⟩ := runJob_faults ha hrm hc { outside := d }
      obtain rfl : result = _ := Except.ok.inj (hrun.symm.trans hrun')
      cases hmem

/-- **A run that loses its daemon is the validator's fault exactly when its clean-up does not raise
    and it is not brought to a result all the same; and a missing log is held against an agent that
    was not started exactly in the runs of `UnstartedAgentBlamed`.** -/
theorem lost_daemon_is_fault_iff (ha : Answers o input agentImage answer) (d : δ) :
    (∀ lost, LostFrom lost answer →
      ((runJob o py input agentImage false { outside := d }).1.map rewardForJob = .ok none ↔
        RemovalsAnswered answer ∧
          (lost.position ≤ JobCall.agentCreate.position ∨ ¬ Completes py input answer))) ∧
    ((∀ result, (runJob o py input agentImage false { outside := d }).1 = .ok result →
      monitoringUnavailable ∈ result.violations → Succeeded (answer .agentStart)) ↔
        ¬ UnstartedAgentBlamed py input answer) := by
  refine ⟨fun lost hlost => ?_, missing_implies_started_iff ha d⟩
  rw [reward_none_iff ha d]
  refine and_congr_right fun _ => ?_
  constructor
  · exact .inr
  · rintro (hearly | hne)
    · exact hlost.not_completes hearly
    · exact hne

end

/-- The daemon goes away between the creation of the agent and its start; the client says so with
    its exit code. -/
def lostAtStart (call : JobCall) : Outcome :=
  if call.position < JobCall.agentStart.position then calmAnswer call
  else .ok ⟨1, "", "Cannot connect to the Docker daemon"⟩

theorem lost_daemon_is_fault_plain :
    (∀ lost, LostFrom lost lostAtStart →
      ((runJob (scripted plainInput lostAtStart) cpython plainInput "miner/agent:1" false
          { outside := () }).1.map rewardForJob = .ok none ↔
        RemovalsAnswered lostAtStart ∧
          (lost.position ≤ JobCall.agentCreate.position ∨
            ¬ Completes cpython plainInput lostAtStart))) ∧
    ((∀ result, (runJob (scripted plainInput lostAtStart) cpython plainInput "miner/agent:1" false
        { outside := () }).1 = .ok result →
      monitoringUnavailable ∈ result.violations → Succeeded (lostAtStart .agentStart)) ↔
        ¬ UnstartedAgentBlamed cpython plainInput lostAtStart) :=
  lost_daemon_is_fault_iff
    (scripted_answers "miner/agent:1" lostAtStart (by decide) (by decide)) ()

/-- An agent that was never started is scored zero for leaving no log. -/
theorem unstarted_agent_scored :
    ¬ ∀ (py : Interpreter) (input : JobInput) (agentImage : String) (answer : JobCall → Outcome)
      (lost : JobCall), LostFrom lost answer →
      (runJob (scripted input answer) py input agentImage false { outside := () }).1.map
        rewardForJob = .ok none := by
  intro h
  have hlost : LostFrom .agentStart lostAtStart := by
    rintro call hposition ⟨res, hres, hzero⟩
    rw [lostAtStart, if_neg (by omega)] at hres
    cases hres
    cases hzero
  have hnone := h cpython plainInput "miner/agent:1" lostAtStart .agentStart hlost
  have hzero : (runJob (scripted plainInput lostAtStart) cpython plainInput "miner/agent:1" false
      { outside := () }).1.map rewardForJob = .ok (some 0) := by decide +kernel
  exact absurd (hnone.symm.trans hzero) (by decide)

end TaoSubnet
