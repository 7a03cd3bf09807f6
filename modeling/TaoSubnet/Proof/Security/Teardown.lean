import TaoSubnet.Security.Job

/-!
# What a run leaves behind

The `finally` clause of `run_job` is four steps in a row, and each of the first three may raise. So
the run returns, and has tried all four, exactly when none of the three does — whatever the body
before them did, and whatever exit codes they ended with.
-/

namespace TaoSubnet

open Py

variable {δ : Type} (o : Outside δ) (py : Interpreter)

/-! ## A command, run -/

theorem docker_ok {args : List String} {w : World δ} {res : CompletedProcess}
    (h : (o.docker w.outside args).1 = .ok res) :
    docker o args w = (.ok res,
      { w with
        outside := (o.docker w.outside args).2
        trace := w.trace ++ [.docker w.outside args] }) := by
  simp [docker, h]

theorem docker_error {args : List String} {w : World δ} {e : Exc}
    (h : (o.docker w.outside args).1 = .error e) :
    docker o args w = (.error e,
      { w with
        outside := (o.docker w.outside args).2
        trace := w.trace ++ [.docker w.outside args] }) := by
  simp [docker, h]

/-- The commands, issued one after the other from `d`, are all answered: none of them raises. -/
def AllAnswered : δ → List (List String) → Prop
  | _, [] => True
  | d, args :: rest =>
    (∃ res, (o.docker d args).1 = .ok res) ∧ AllAnswered (o.docker d args).2 rest

/-! ## The four steps -/

def removalCommands (input : JobInput) : List (List String) :=
  [rmContainerArgs input.agentName, rmContainerArgs input.targetName,
    networkRemoveArgs input.network]

/-- Every clean-up step was tried: the three removals, and the deletion of the directory. -/
def TornDown (input : JobInput) (trace : List (Event δ)) : Prop :=
  (∀ args ∈ removalCommands input, ∃ d, Event.docker d args ∈ trace) ∧
    Event.rmtree input.outDir ∈ trace

/-- The outside as the body of the run leaves it, where the clean-up begins. -/
def outsideAfterBody (input : JobInput) (agentImage : String) (d : δ) : δ :=
  (Prog.tryExcept (jobBody o py input agentImage) (fun e => return jobFault input.runId e)
    { outside := d }).2.outside

/-- Answered removals let the clean-up run to its end. -/
theorem teardown_ok {input : JobInput} {w : World δ}
    (h : AllAnswered o w.outside (removalCommands input)) :
    ∃ w', teardown o input w = (.ok (), w') ∧ TornDown input w'.trace := by
  obtain ⟨⟨r1, h1⟩, ⟨r2, h2⟩, ⟨r3, h3⟩, -⟩ := h
  unfold teardown
  rw [Prog.bind_ok (docker_ok o h1), Prog.bind_ok (docker_ok o h2), Prog.bind_ok (docker_ok o h3)]
  refine ⟨_, rfl, ?_, ?_⟩
  · intro args hargs
    simp only [removalCommands, List.mem_cons, List.not_mem_nil, or_false] at hargs
    rcases hargs with rfl | rfl | rfl
    · exact ⟨w.outside, by simp⟩
    · exact ⟨(o.docker w.outside (rmContainerArgs input.agentName)).2, by simp⟩
    · exact ⟨(o.docker (o.docker w.outside (rmContainerArgs input.agentName)).2
        (rmContainerArgs input.targetName)).2, by simp⟩
  · simp

/-- The first removal that is not answered ends the clean-up with its raise. -/
theorem teardown_error {input : JobInput} {w : World δ}
    (h : ¬ AllAnswered o w.outside (removalCommands input)) :
    ∃ e w', teardown o input w = (.error e, w') := by
  unfold teardown
  rcases h1 : (o.docker w.outside (rmContainerArgs input.agentName)).1 with e | r1
  · exact ⟨e, _, Prog.bind_error (docker_error o h1)⟩
  rw [Prog.bind_ok (docker_ok o h1)]
  generalize hw1 : (World.mk _ _ _ : World δ) = w1
  rcases h2 : (o.docker w1.outside (rmContainerArgs input.targetName)).1 with e | r2
  · exact ⟨e, _, Prog.bind_error (docker_error o h2)⟩
  rw [Prog.bind_ok (docker_ok o h2)]
  generalize hw2 : (World.mk _ _ _ : World δ) = w2
  rcases h3 : (o.docker w2.outside (networkRemoveArgs input.network)).1 with e | r3
  · exact ⟨e, _, Prog.bind_error (docker_error o h3)⟩
  -- All three were answered, against the hypothesis.
  subst hw1 hw2
  exact absurd ⟨⟨r1, h1⟩, ⟨r2, h2⟩, ⟨r3, h3⟩, trivial⟩ h

/-- The guarded body always returns: its handler catches everything. -/
theorem guarded_body_returns (input : JobInput) (agentImage : String) (w : World δ) :
    ∃ result w', Prog.tryExcept (jobBody o py input agentImage)
      (fun e => return jobFault input.runId e) w = (.ok result, w') :=
  Prog.tryExcept_total (fun e s => ⟨jobFault input.runId e, s, rfl⟩) w

/-- **A run returns and cleans up exactly when its three removals are answered.** -/
theorem returns_and_tears_down_iff (input : JobInput) (agentImage : String) (d : δ) :
    (∃ result w, runJob o py input agentImage false { outside := d } = (.ok result, w) ∧
      TornDown input w.trace) ↔
    AllAnswered o (outsideAfterBody o py input agentImage d) (removalCommands input) := by
  obtain ⟨result, w, hbody⟩ := guarded_body_returns o py input agentImage { outside := d }
  have hafter : outsideAfterBody o py input agentImage d = w.outside := by
    rw [outsideAfterBody, hbody]
  rw [hafter]
  constructor
  · rintro ⟨_, _, hrun, -⟩
    by_contra hne
    obtain ⟨e, w', he⟩ := teardown_error o hne
    simp [runJob, Prog.tryFinally, hbody, he] at hrun
  · intro h
    obtain ⟨w', hok, htorn⟩ := teardown_ok o h
    exact ⟨result, w', by simp [runJob, Prog.tryFinally, hbody, hok], htorn⟩

/-! ## A removal that hangs -/

/-- A daemon that answers every command with exit code 1, and hangs on the removal of a container. -/
def hangingRemovals : Outside Unit where
  docker _ args :=
    (if args.head? = some "rm" then .error ⟨.timeoutExpired, "docker rm"⟩ else .ok ⟨1, "", ""⟩, ())
  http _ _ := (.error ⟨.osError, "unreachable"⟩, ())

/-- A run in which the agent leaves nothing. -/
def plainInput : JobInput where
  runId := "0123456789abcdef"
  outDir := "/tmp/secval-out-0"
  challenge := {
    canary := "CANARY"
    secretTable := "t_secret"
    secretColumn := "c_token"
    vulnerableEndpoint := "/search"
    vulnerableParameter := "q" }
  out := ⟨[], .unopenable⟩
  bootLog := fun _ => ""
  replay := ⟨"CANARY2", "secval-replay-0", 9000⟩

/-- The target does not start, and the clean-up stops at its first step: the run raises. -/
theorem hanging_removal_escapes :
    ¬ ∀ (o : Outside Unit) (py : Interpreter) (input : JobInput) (agentImage : String),
      ∃ result w, runJob o py input agentImage false { outside := () } = (.ok result, w) ∧
        TornDown input w.trace := by
  intro h
  obtain ⟨result, w, hrun, -⟩ := h hangingRemovals cpython plainInput "miner/agent:1"
  have hraised : (runJob hangingRemovals cpython plainInput "miner/agent:1" false
      { outside := () }).1 = .error ⟨.timeoutExpired, "docker rm"⟩ := by decide +kernel
  rw [hrun] at hraised
  cases hraised

end TaoSubnet
