import TaoSubnet.Security.Evaluate

/-!
# What an evaluation leaves alone

An invariant of the world that survives the commands a program issues, its HTTP requests and the
deletion of a directory, survives the program. One lemma per function, so that an invariant has to
be looked at once for each command and never for a program.
-/

namespace TaoSubnet

open Py

variable {δ : Type} {o : Outside δ} {py : Interpreter} {I : World δ → Prop}

/-! ## The isolated run -/

/-- The first words of the commands a run issues. -/
def RUN_VERBS : List String :=
  ["network", "run", "inspect", "create", "start", "wait", "kill", "logs", "rm"]

/-- `I` survives everything a run does to its outside. -/
structure SurvivesRun (o : Outside δ) (I : World δ → Prop) : Prop where
  docker : ∀ args, args.headD "" ∈ RUN_VERBS → Prog.Keeps I (docker o args)
  http : ∀ request, Prog.Keeps I (urlopen o request)
  rmtree : ∀ path, Prog.Keeps I (rmtree path : Prog (World δ) Exc Unit)

namespace SurvivesRun

theorem reproductionSteps (h : SurvivesRun o I) (baseUrl canary : PyStr) (steps : List ReproStep) :
    Prog.Keeps I (reproductionSteps o baseUrl canary steps) := by
  induction steps with
  | nil => exact .ret _
  | cons step rest ih =>
    unfold TaoSubnet.reproductionSteps
    refine .bind ?_ fun found => .ite (.ret _) ih
    unfold reproductionStep
    refine .bind (.ofExcept _) fun query => .tryExcept ?_ fun _ => .ret _
    exact .bind (h.http _) fun _ => .ret _

theorem executeReproduction (h : SurvivesRun o I) (baseUrl : PyStr) (steps : List ReproStep)
    (canary : PyStr) : Prog.Keeps I (executeReproduction o baseUrl steps canary) := by
  unfold TaoSubnet.executeReproduction
  exact .ite (.ret _) (h.reproductionSteps _ _ _)

theorem waitReady (h : SurvivesRun o I) (baseUrl : PyStr) (attempts : Nat) :
    Prog.Keeps I (waitReady o baseUrl attempts) := by
  induction attempts with
  | zero => exact .ret _
  | succ n ih =>
    unfold TaoSubnet.waitReady
    refine .bind (.tryExcept ?_ fun _ => .ret _) fun ready => .ite (.ret _) ih
    exact .bind (h.http _) fun _ => .ret _

theorem btest (h : SurvivesRun o I) (url : PyStr) (attempts : Nat) :
    Prog.Keeps I (btest o py url attempts) := by
  induction attempts with
  | zero => exact .ret _
  | succ n ih =>
    unfold TaoSubnet.btest
    refine .bind (.tryExcept ?_ fun _ => .ret _) fun answer => ?_
    · refine .bind (h.http _) fun response => .bind (.ofExcept _) fun doc => ?_
      cases doc with
      | obj items => exact .ret _
      | _ => exact .raise _
    · cases answer with
      | some found => exact .ret _
      | none => exact ih

theorem confirmedDigit (h : SurvivesRun o I) (urlOf : Char → Except Exc PyStr)
    (digits : List Char) : Prog.Keeps I (confirmedDigit o py urlOf digits) := by
  induction digits with
  | nil => exact .ret _
  | cons c rest ih =>
    unfold TaoSubnet.confirmedDigit
    exact .bind (.ofExcept _) fun url => .bind (h.btest url 3) fun found => .ite (.ret _) ih

theorem extractDigits (h : SurvivesRun o I) (urlOf : Nat → Char → Except Exc PyStr)
    (length : Nat) : ∀ i, Prog.Keeps I (extractDigits o py urlOf i length) := by
  induction length with
  | zero => exact fun i => .ret _
  | succ n ih =>
    intro i
    unfold TaoSubnet.extractDigits
    refine .bind (h.confirmedDigit (urlOf i) HEX) fun digit => ?_
    cases digit with
    | none => exact .ret _
    | some c => exact .bind (ih (i + 1)) fun _ => .ret _

theorem replayAgainst (h : SurvivesRun o I) (seed : ReplaySeed) (challenge : Challenge)
    (steps : List ReproStep) : Prog.Keeps I (replayAgainst o py seed challenge steps) := by
  unfold TaoSubnet.replayAgainst
  refine .bind (h.waitReady _ _) fun ready => .ite (.ret _) (.ite ?_ (h.executeReproduction _ _ _))
  exact .bind (.bind (h.extractDigits _ _ _) fun _ => .ret _) fun _ => .ret _

theorem runReplay (h : SurvivesRun o I) (seed : ReplaySeed) (challenge : Challenge)
    (steps : List ReproStep) : Prog.Keeps I (runReplay o py seed challenge steps) := by
  unfold TaoSubnet.runReplay
  refine .ite (.ret _) (.tryFinally (.tryExcept ?_ fun _ => .ret _) ?_)
  · exact .bind (h.docker _ (by simp [replayTargetArgs, RUN_VERBS])) fun run => .ite (.ret _) (h.replayAgainst _ _ _)
  · exact .bind (h.docker _ (by simp [rmContainerArgs, RUN_VERBS])) fun _ => .ret _

theorem maybeReplay (h : SurvivesRun o I) (seed : ReplaySeed) (challenge : Challenge)
    (findingsRaw : List UInt8) : Prog.Keeps I (maybeReplay o py seed challenge findingsRaw) := by
  unfold TaoSubnet.maybeReplay
  split
  · exact .ret _
  · exact .ite (.ret _) (h.runReplay _ _ _)

theorem waitOrKill (h : SurvivesRun o I) (name : String) : Prog.Keeps I (waitOrKill o name) := by
  unfold TaoSubnet.waitOrKill
  refine .tryExcept (.bind (h.docker _ (by simp [waitArgs, RUN_VERBS])) fun _ => .ret _) fun e => ?_
  exact .ite (.bind (h.docker _ (by simp [killArgs, RUN_VERBS])) fun _ => .ret _) (.raise _)

theorem observeAgent (h : SurvivesRun o I) (input : JobInput) (agentCid : String) :
    Prog.Keeps I (observeAgent o py input agentCid) := by
  unfold TaoSubnet.observeAgent
  refine .bind (h.docker _ (by simp [startArgs, RUN_VERBS])) fun _ => ?_
  refine .bind (h.waitOrKill _) fun timedOut => ?_
  refine .bind (.bind (h.docker _ (by simp [exitCodeArgs, RUN_VERBS])) fun _ => .ret _) fun code => ?_
  refine .bind (h.maybeReplay _ _ _) fun replayConfirmed => ?_
  refine .bind (.bind (h.docker _ (by simp [logsArgs, RUN_VERBS])) fun _ => .ret _) fun count => ?_
  exact .bind (.ofExcept _) fun _ => .ret _

theorem jobBody (h : SurvivesRun o I) (input : JobInput) (agentImage : String) :
    Prog.Keeps I (jobBody o py input agentImage) := by
  unfold TaoSubnet.jobBody
  refine .bind (h.docker _ (by simp [networkCreateArgs, RUN_VERBS])) fun _ => ?_
  refine .bind (h.docker _ (by simp [targetRunArgs, RUN_VERBS])) fun tgt => .ite (.ret _) ?_
  refine .bind (.bind (h.docker _ (by simp [containerIpArgs, RUN_VERBS])) fun _ => .ret _) fun ip => ?_
  refine .ite (.ret _) ?_
  refine .bind (h.docker _ (by simp [agentCreateArgs, RUN_VERBS])) fun created => .ite (.ret _) ?_
  exact h.observeAgent _ _

theorem teardown (h : SurvivesRun o I) (input : JobInput) :
    Prog.Keeps I (teardown o input) := by
  unfold TaoSubnet.teardown
  refine .bind (h.docker _ (by simp [rmContainerArgs, RUN_VERBS])) fun _ => ?_
  refine .bind (h.docker _ (by simp [rmContainerArgs, RUN_VERBS])) fun _ => ?_
  refine .bind (h.docker _ (by simp [networkRemoveArgs, RUN_VERBS])) fun _ => ?_
  exact h.rmtree _

/-- A whole run. -/
theorem runJob (h : SurvivesRun o I) (input : JobInput) (agentImage : String) (keep : Bool) :
    Prog.Keeps I (runJob o py input agentImage keep) := by
  unfold TaoSubnet.runJob
  refine .tryFinally (.tryExcept (h.jobBody _ _) fun _ => .ret _) ?_
  exact .ite (.ret _) (h.teardown _)

end SurvivesRun

/-! ## A command's answer -/

/-- What `run_docker` makes of an answer. -/
def dockerResult (args : List String) (timeoutS : Nat) (timeoutReason : RejectReason)
    (answer : Outcome) : Except Halt CompletedProcess :=
  match answer with
  | .error e => .error (dockerFailure args timeoutS timeoutReason e)
  | .ok result =>
    if result.returncode ≠ 0 ∧ looksLikeDaemonDown result.stderr then
      .error (.stage ⟨.dockerUnavailable, some (excerpt result.stderr)⟩)
    else .ok result

theorem runDocker_eq (o : Outside δ) (args : List String) (timeoutS : Nat)
    (reason : RejectReason) (w : World δ) :
    runDocker o args timeoutS reason w =
      (dockerResult args timeoutS reason (o.docker w.outside args).1,
        { w with
          outside := (o.docker w.outside args).2
          trace := w.trace ++ [.docker w.outside args] }) := by
  unfold runDocker dockerResult docker
  cases (o.docker w.outside args).1 with
  | error e => rfl
  | ok result =>
    dsimp only
    split
    · rfl
    · rfl

/-- The world after a command. -/
def commanded (o : Outside δ) (args : List String) (w : World δ) : World δ :=
  { w with
    outside := (o.docker w.outside args).2
    trace := w.trace ++ [.docker w.outside args] }

theorem runDocker_commanded (args : List String) (timeoutS : Nat) (reason : RejectReason)
    (w : World δ) : runDocker o args timeoutS reason w =
      (dockerResult args timeoutS reason (o.docker w.outside args).1, commanded o args w) :=
  runDocker_eq o args timeoutS reason w

theorem dockerResult_head {args₁ args₂ : List String} (h : args₁.headD "" = args₂.headD "")
    (timeoutS : Nat) (reason : RejectReason) (answer : Outcome) :
    dockerResult args₁ timeoutS reason answer = dockerResult args₂ timeoutS reason answer := by
  unfold dockerResult dockerFailure
  rw [h]

/-- What `run_docker` expects is a failure of the stage. -/
theorem dockerResult_expected {answer : Outcome}
    (h : ∀ e, answer = .error e → e.cls = .timeoutExpired ∨ e.cls.isOSError = true)
    (args : List String) (timeoutS : Nat) (reason : RejectReason) :
    (∃ result, dockerResult args timeoutS reason answer = .ok result) ∨
      ∃ failure, dockerResult args timeoutS reason answer = .error (.stage failure) := by
  unfold dockerResult
  cases answer with
  | ok result =>
    dsimp only
    split
    · exact .inr ⟨_, rfl⟩
    · exact .inl ⟨_, rfl⟩
  | error e =>
    dsimp only [dockerFailure]
    by_cases htimeout : e.cls = .timeoutExpired
    · rw [if_pos htimeout]
      exact .inr ⟨_, rfl⟩
    · rw [if_neg htimeout, if_pos ((h e rfl).resolve_left htimeout)]
      exact .inr ⟨_, rfl⟩

/-! ## Intake -/

theorem keeps_runDocker {args : List String} {timeoutS : Nat} {reason : RejectReason}
    (h : Prog.Keeps I (docker o args)) : Prog.Keeps I (runDocker o args timeoutS reason) := by
  intro w hw
  have h' := h w hw
  unfold runDocker
  rcases hd : docker o args w with ⟨e | result, w'⟩
  · rw [hd] at h'
    exact h'
  · rw [hd] at h'
    dsimp only
    split
    · exact h'
    · exact h'

theorem keeps_failStage {α : Type} (reason : RejectReason) (detail : Option String) :
    Prog.Keeps I (failStage reason detail : Prog (World δ) Halt α) := .raise _

theorem keeps_assertSafeImageRef (ref : String) :
    Prog.Keeps I (assertSafeImageRef ref : Prog (World δ) Halt String) :=
  .ite (.ret _) (keeps_failStage _ _)

theorem keeps_assertSubmittableRef (ref : String) :
    Prog.Keeps I (assertSubmittableRef ref : Prog (World δ) Halt String) :=
  .ite (.ret _) (keeps_failStage _ _)

theorem keeps_orRaise {α : Type} (r : Except Exc α) :
    Prog.Keeps I (orRaise r : Prog (World δ) Halt α) := by
  cases r with
  | ok a => exact .ret _
  | error e => exact .raise _

theorem keeps_bestEffort {α : Type} {default : α} {x : Prog (World δ) Halt α}
    (h : Prog.Keeps I x) : Prog.Keeps I (bestEffort default x) := by
  refine .tryExcept h fun e => ?_
  cases e with
  | stage failure => exact .ret _
  | raised e => exact .raise _

theorem keeps_removeImage {ref : String} (h : Prog.Keeps I (docker o (imageRemoveArgs ref))) :
    Prog.Keeps I (removeImage o ref) :=
  keeps_bestEffort (.bind (keeps_assertSafeImageRef ref) fun _ =>
    .bind (keeps_runDocker h) fun _ => .ret _)

theorem keeps_inspectImage {ref : String} (h : Prog.Keeps I (docker o (inspectArgs ref))) :
    Prog.Keeps I (inspectImage o py ref) := by
  unfold inspectImage
  refine .bind (keeps_assertSafeImageRef ref) fun _ => .bind (keeps_runDocker h) fun result => ?_
  refine .ite (keeps_failStage _ _) ?_
  split
  · exact .ite (keeps_failStage _ _) (.raise _)
  · split
    · exact .raise _
    · split
      · exact .raise _
      · exact .ret _

theorem keeps_loadImage {path : String} (h : Prog.Keeps I (docker o (loadArgs path))) :
    Prog.Keeps I (loadImage o path) := by
  unfold loadImage
  refine .bind (keeps_runDocker h) fun result => .ite (keeps_failStage _ _) ?_
  split
  · exact keeps_assertSafeImageRef _
  · exact keeps_failStage _ _

theorem keeps_manifestJson {ref : String} (h : Prog.Keeps I (docker o (manifestArgs ref))) :
    Prog.Keeps I (manifestJson o py ref) := by
  unfold manifestJson
  refine .bind (keeps_runDocker h) fun result => .ite (.ret _) ?_
  split
  · exact .ret _
  · exact .ret _
  · exact .ite (.ret _) (.raise _)

theorem keeps_manifestTotalSize {ref : String}
    (h : ∀ name, Prog.Keeps I (docker o (manifestArgs name))) :
    Prog.Keeps I (manifestTotalSize o py ref) := by
  unfold manifestTotalSize
  refine .bind (keeps_manifestJson (h ref)) fun data => ?_
  split
  · exact .ret _
  refine .bind (keeps_orRaise _) fun direct => ?_
  split
  · exact .ret _
  split
  · refine .bind (keeps_orRaise _) fun digest => ?_
    split
    · exact .ret _
    · refine .bind (keeps_orRaise _) fun sub => ?_
      refine .bind (keeps_manifestJson (h sub)) fun manifest => ?_
      split
      · exact .ret _
      · exact .ite (.ret _) (keeps_orRaise _)
  · exact .ret _

theorem keeps_boundDownload {ref : String}
    (h : ∀ name, Prog.Keeps I (docker o (manifestArgs name))) :
    Prog.Keeps I (boundDownload o py ref) := by
  unfold boundDownload
  refine .bind (keeps_manifestTotalSize h) fun declared => ?_
  split
  · exact .ret _
  · exact .ite (.ite (.raise _) (keeps_failStage _ _)) (.ret _)

theorem keeps_digestRefOf {ref : String} (h : Prog.Keeps I (docker o (repoDigestArgs ref))) :
    Prog.Keeps I (digestRefOf o ref) := by
  unfold digestRefOf
  refine .ite (.ret _) (.bind ?_ fun found => ?_)
  · unfold repoDigestOf
    exact .bind (keeps_runDocker h) fun result => .ite (.ret _) (.ret _)
  · cases found with
    | none => exact keeps_failStage _ _
    | some digestRef => exact .ite (keeps_failStage _ _) (.ret _)

/-- The commands about a container. -/
def containerCommands (cid : String) : List (List String) :=
  [["start", cid], ["wait", cid], ["kill", cid], ["logs", cid], ["rm", "--force", "--volumes", cid]]

/-- A dry run issues the commands about the container it has created. -/
theorem keeps_dryRun_of {ref : String} {durationMs : Int} {V : String → Prop}
    (hcreate : Prog.Yields I (createContainer o ref) V)
    (h : ∀ cid, V cid → ∀ args ∈ containerCommands cid, Prog.Keeps I (docker o args)) :
    Prog.Keeps I (dryRun o py ref durationMs) := by
  unfold dryRun
  refine .bind (keeps_assertSafeImageRef ref) fun _ => hcreate.bind fun cid hcid => ?_
  have hrun : ∀ args ∈ containerCommands cid, ∀ {timeoutS reason},
      Prog.Keeps I (runDocker o args timeoutS reason) :=
    fun args hargs _ _ => keeps_runDocker (h cid hcid args hargs)
  refine .tryFinally ?_ ?_
  · refine .bind (hrun _ (by simp [containerCommands])) fun result => ?_
    refine .ite (keeps_failStage _ _) (.bind ?_ ?_)
    · refine .tryExcept (.bind (hrun _ ?_) fun _ => .ret _) fun e => ?_
      · simp [containerCommands]
      cases e with
      | stage failure =>
        refine .ite (.raise _) (.bind (keeps_bestEffort ?_) fun _ => .ret _)
        exact .bind (hrun _ (by simp [containerCommands])) fun _ => .ret _
      | raised e => exact .raise _
    · intro waited
      refine .bind (keeps_bestEffort ?_) fun logExcerpt => .ret _
      exact .bind (hrun _ (by simp [containerCommands])) fun _ => .ret _
  · refine .bind (keeps_bestEffort ?_) fun _ => .ret _
    refine .bind (.ite (.ret _) (keeps_failStage _ _)) fun _ => ?_
    exact .bind (hrun _ (by simp [containerCommands])) fun _ => .ret _

/-- The first words of the commands about a container. -/
def CONTAINER_VERBS : List String := ["start", "wait", "kill", "logs", "rm"]

theorem container_verb {cid : String} {args : List String} (h : args ∈ containerCommands cid) :
    args.headD "" ∈ CONTAINER_VERBS := by
  simp only [containerCommands, List.mem_cons, List.not_mem_nil, or_false] at h
  rcases h with rfl | rfl | rfl | rfl | rfl <;> simp [CONTAINER_VERBS]

theorem keeps_dryRun {ref : String} {durationMs : Int}
    (hcreate : Prog.Keeps I (docker o (dryRunCreateArgs ref)))
    (h : ∀ args, args.headD "" ∈ CONTAINER_VERBS → Prog.Keeps I (docker o args)) :
    Prog.Keeps I (dryRun o py ref durationMs) := by
  refine keeps_dryRun_of (V := fun _ => True) ?_ fun _ _ args hargs => h args (container_verb hargs)
  unfold createContainer
  refine (keeps_runDocker hcreate).yields fun result => .ite (.raise _) ?_
  unfold assertSafeContainerId
  split
  · exact .ret trivial
  · exact .raise _

/-! ## Inside a check -/

/-- An invariant of the world and of the image that is held, seen from inside a check. -/
def InCheck (I : World δ → Prop) (K : Option String → Prop) (c : CheckState δ) : Prop :=
  I c.world ∧ K c.imageRef

variable {K : Option String → Prop}

theorem keeps_inWorld {α : Type} {x : Prog (World δ) Halt α} (h : Prog.Keeps I x) :
    Prog.Keeps (InCheck I K) (inWorld x) := fun c hc => ⟨h c.world hc.1, hc.2⟩

theorem keeps_orFail {α : Type} {J : CheckState δ → Prop} (r : Except StageFailure α) :
    Prog.Keeps J (orFail r : Check δ α) := by
  cases r with
  | ok a => exact .ret _
  | error failure => exact .raise _

theorem keeps_haltVerdict {J : CheckState δ → Prop} (s : Submission) (e : Halt) :
    Prog.Keeps J (haltVerdict s e) := by
  unfold haltVerdict
  refine .bind .get fun c => ?_
  cases e with
  | stage failure => exact .ret _
  | raised e => exact .ret _

theorem keeps_inspectStage {ref : String} (h : Prog.Keeps I (docker o (inspectArgs ref))) :
    Prog.Keeps (InCheck I K) (inspectStage o py ref) := by
  unfold inspectStage
  refine .bind (.modify fun _ hc => hc) fun _ => ?_
  refine .bind (keeps_inWorld (keeps_inspectImage h)) fun image => ?_
  refine .bind (.modify fun _ hc => hc) fun _ => ?_
  refine .bind (keeps_orFail _) fun _ => ?_
  refine .bind (keeps_orFail _) fun entrypoint => ?_
  refine .bind (.modify fun _ hc => hc) fun _ => ?_
  refine .bind (keeps_inWorld (keeps_orRaise _)) fun agentDigest => ?_
  exact .bind (.modify fun _ hc => hc) fun _ => .ret _

/-- From the image on, as long as it is not dry-run. -/
theorem keeps_checkLoaded {input : CheckInput} {ref : String} (hskip : input.skipDryRun = true)
    (h : Prog.Keeps I (docker o (inspectArgs ref))) :
    Prog.Keeps (InCheck I K) (checkLoaded o py input ref) := by
  unfold checkLoaded
  refine .bind (keeps_inspectStage h) fun agentDigest => .bind .get fun c => ?_
  split
  · exact .ret _
  · rw [if_pos hskip]
    exact .bind .get fun _ => .ret _

/-- From the image on, with its dry run. -/
theorem keeps_checkLoaded_of {input : CheckInput} {ref : String}
    (hinspect : Prog.Keeps I (docker o (inspectArgs ref)))
    (hdry : Prog.Keeps I (dryRun o py ref input.dryRunMs)) :
    Prog.Keeps (InCheck I K) (checkLoaded o py input ref) := by
  unfold checkLoaded
  refine .bind (keeps_inspectStage hinspect) fun agentDigest => .bind .get fun c => ?_
  split
  · exact .ret _
  · refine .ite (.bind .get fun _ => .ret _) (.bind ?_ fun _ => .bind .get fun _ => .ret _)
    unfold dryRunStage
    refine .bind (.modify fun _ hc => hc) fun _ => ?_
    refine .bind (keeps_inWorld hdry) fun outcome => ?_
    exact .bind (.modify fun _ hc => hc) fun _ => keeps_orFail _

/-- From the image on, whatever its dry run does. -/
theorem keeps_checkLoaded_held {input : CheckInput} {ref : String}
    (hinspect : Prog.Keeps I (docker o (inspectArgs ref)))
    (hcreate : Prog.Keeps I (docker o (dryRunCreateArgs ref)))
    (h : ∀ args, args.headD "" ∈ CONTAINER_VERBS → Prog.Keeps I (docker o args)) :
    Prog.Keeps (InCheck I K) (checkLoaded o py input ref) :=
  keeps_checkLoaded_of hinspect (keeps_dryRun hcreate h)

/-- The clean-up, where what is held can be removed. -/
theorem keeps_dropImage
    (h : ∀ ref, K (some ref) → Prog.Keeps I (docker o (imageRemoveArgs ref))) (keepImage : Bool) :
    Prog.Keeps (InCheck I K) (dropImage o keepImage) := by
  intro c hc
  unfold dropImage
  rw [Prog.bind_ok (Prog.get_run c)]
  cases hheld : c.imageRef with
  | none => exact hc
  | some ref =>
    have hrm : Prog.Keeps (InCheck I K) (inWorld (removeImage o ref)) :=
      keeps_inWorld (keeps_removeImage (h ref (hheld ▸ hc.2)))
    exact Prog.Keeps.ite (.ret _) (hrm.bind fun _ => .ret _) c hc

/-! ## A whole check

For an invariant that no command disturbs, whatever a check comes to and whichever image it holds. -/

section

variable (h : ∀ args, Prog.Keeps I (docker o args))
include h

theorem keeps_pullImage (ref : String) : Prog.Keeps I (pullImage o py ref) := by
  unfold pullImage
  refine .bind (keeps_assertSubmittableRef ref) fun _ => ?_
  refine .bind (keeps_boundDownload fun _ => h _) fun _ => ?_
  refine .bind (keeps_runDocker (h _)) fun result => .ite (keeps_failStage _ _) ?_
  refine .bind (keeps_digestRefOf (h _)) fun digestRef => ?_
  exact .bind (keeps_assertSafeImageRef _) fun _ => .ret _

theorem keeps_checkLoaded_dry (input : CheckInput) (ref : String) :
    Prog.Keeps (InCheck I fun _ => True) (checkLoaded o py input ref) :=
  keeps_checkLoaded_held (h _) (h _) fun args _ => h args

theorem keeps_submissionStages_all (input : CheckInput) :
    Prog.Keeps (InCheck I fun _ => True) (submissionStages o py input) := by
  unfold submissionStages
  refine .bind (keeps_orFail _) fun info => .bind (.modify fun _ hc => hc) fun _ => ?_
  refine .bind .get fun c => ?_
  split
  · exact .ret _
  refine .bind (.modify fun _ hc => hc) fun _ => .bind (.ofExcept _) fun info => ?_
  refine .bind (.modify fun _ hc => hc) fun _ => .bind (.modify fun _ hc => hc) fun _ => ?_
  refine .bind (keeps_inWorld (keeps_loadImage (h _))) fun ref => ?_
  exact .bind (.modify fun _ hc => ⟨hc.1, trivial⟩) fun _ => keeps_checkLoaded_dry h input ref

theorem keeps_registryStages (input : CheckInput) :
    Prog.Keeps (InCheck I fun _ => True) (registryStages o py input) := by
  unfold registryStages
  refine .bind (.modify fun _ hc => hc) fun _ => ?_
  refine .bind (keeps_inWorld (keeps_pullImage h _)) fun pulled => ?_
  refine .bind (.modify fun _ hc => ⟨hc.1, trivial⟩) fun _ => ?_
  exact .bind (.modify fun _ hc => hc) fun _ => keeps_checkLoaded_dry h input _

/-- The check of a file, or of a reference. -/
theorem keeps_entry (input : CheckInput) (fromRegistry : Bool) :
    Prog.Keeps I (if fromRegistry then checkRegistrySubmission o py input
      else checkSubmission o py input) := by
  have hdrop : Prog.Keeps (InCheck I fun _ => True) (dropImage o input.keepImage) :=
    keeps_dropImage (fun ref _ => h _) _
  have hcheck : ∀ stages : Check δ Verdict, Prog.Keeps (InCheck I fun _ => True) stages →
      Prog.Keeps (InCheck I fun _ => True) (Prog.tryFinally
        (Prog.tryExcept stages (haltVerdict input.submission)) (dropImage o input.keepImage)) :=
    fun stages hstages => .tryFinally (.tryExcept hstages fun e => keeps_haltVerdict _ e) hdrop
  refine .ite (fun w hw => ?_) (fun w hw => ?_)
  · exact (hcheck _ (keeps_registryStages h input) { world := w, stage := .load } ⟨hw, trivial⟩).1
  · exact (hcheck _ (keeps_submissionStages_all h input) { world := w, stage := .file }
      ⟨hw, trivial⟩).1

end

end TaoSubnet
