import TaoSubnet.Proof.Security.Dedupe

/-!
# Two ways in

A file and a registry reference are checked by two functions, of which everything from INSPECT on is
the same text with another name for the image. Where Docker answers alike about the two images, the
two run side by side from there: the same verdict up to the facts of how the image came in, and one
removal each.
-/

namespace TaoSubnet

open Py

/-! ## The second text -/

/-- The `try` of `check_registry_submission`, with INSPECT and DRY_RUN written out as they stand
    there. -/
def registryStagesInFull {δ : Type} (o : Outside δ) (py : Interpreter) (input : CheckInput) :
    Check δ Verdict := do
  addEvidence { source := some SOURCE_REGISTRY }
  let pulled ← inWorld (pullImage o py input.submission.filePath)
  holdImage pulled.digestRef
  addEvidence { imageRef := some pulled.digestRef }
  enterStage .inspect
  let image ← inWorld (inspectImage o py pulled.digestRef)
  addEvidence {
    imageId := some image.imageId
    repoTags := listOrNone image.repoTags
    arch := image.arch
    osName := image.osName
    layerCount := image.layerCount
    imageSize := image.imageSize
    imageUser := image.imageUser }
  orFail (checkImage py image)
  addEvidence { entrypoint := some (← orFail (entrypointOf image)) }
  let agentDigest ← inWorld (orRaise (agentDigestOf py image))
  addEvidence { agentDigest := agentDigest }
  match settledByDigest input agentDigest (← Prog.get) with
  | some verdict => return verdict
  | none =>
    if input.skipDryRun then
      return accept input.submission .inspect (← Prog.get).evidence
    else
      enterStage .dryRun
      let outcome ← inWorld (dryRun o py pulled.digestRef input.dryRunMs)
      addEvidence {
        dryRunExitCode := outcome.exitCode
        dryRunMs := some outcome.durationMs
        logExcerpt := if outcome.logExcerpt = "" then none
          else some (PyStr.ofString outcome.logExcerpt) }
      orFail (checkDryRun outcome)
      return accept input.submission .dryRun (← Prog.get).evidence

theorem registryStages_in_full {δ : Type} (o : Outside δ) (py : Interpreter) (input : CheckInput) :
    registryStages o py input = registryStagesInFull o py input := by
  unfold registryStages registryStagesInFull checkLoaded inspectStage dryRunStage
  simp only [Prog.bind_assoc, Prog.pure_bind]
  all_goals rfl

/-! ## Docker answers alike -/

/-- The same command about two images, its removal aside. -/
inductive Corresponds (ref₁ ref₂ : String) : List String → List String → Prop
  | inspect : Corresponds ref₁ ref₂ (inspectArgs ref₁) (inspectArgs ref₂)
  | create : Corresponds ref₁ ref₂ (dryRunCreateArgs ref₁) (dryRunCreateArgs ref₂)
  | container {args : List String} (h : args.headD "" ∈ CONTAINER_VERBS) :
    Corresponds ref₁ ref₂ args args

/-- One command each: the same answer, and the outsides stay related. -/
def AnswersAlike {δ₁ δ₂ : Type} (B : δ₁ → δ₂ → Prop) (o₁ : Outside δ₁) (o₂ : Outside δ₂)
    (args₁ args₂ : List String) : Prop :=
  ∀ d₁ d₂, B d₁ d₂ → (o₁.docker d₁ args₁).1 = (o₂.docker d₂ args₂).1 ∧
    B (o₁.docker d₁ args₁).2 (o₂.docker d₂ args₂).2

/-- What Docker reports of the two images, and how their dry runs and removals go, is the same. -/
structure SameImages {δ₁ δ₂ : Type} (B : δ₁ → δ₂ → Prop) (o₁ : Outside δ₁) (o₂ : Outside δ₂)
    (ref₁ ref₂ : String) : Prop where
  checked : ∀ {args₁ args₂}, Corresponds ref₁ ref₂ args₁ args₂ → AnswersAlike B o₁ o₂ args₁ args₂
  removed : AnswersAlike B o₁ o₂ (imageRemoveArgs ref₁) (imageRemoveArgs ref₂)

/-- How often a trace removes an image. -/
def removals {δ : Type} (ref : String) (trace : List (Event δ)) : Nat :=
  trace.countP fun e => match e with
    | .docker _ args => args == imageRemoveArgs ref
    | .rmtree _ => false

theorem removals_append {δ : Type} (ref : String) (trace : List (Event δ)) (d : δ)
    (args : List String) :
    removals ref (trace ++ [.docker d args]) =
      removals ref trace + if args = imageRemoveArgs ref then 1 else 0 := by
  unfold removals
  rw [List.countP_append, List.countP_singleton]
  simp

/-- A check only ever removes an image to clean up. -/
theorem Corresponds.no_removal {ref₁ ref₂ : String} {args₁ args₂ : List String}
    (h : Corresponds ref₁ ref₂ args₁ args₂) (ref : String) :
    args₁ ≠ imageRemoveArgs ref ∧ args₂ ≠ imageRemoveArgs ref := by
  cases h with
  | inspect => simp [inspectArgs, imageRemoveArgs]
  | create => simp [dryRunCreateArgs, imageRemoveArgs]
  | container hverb =>
    have hne : args₁ ≠ imageRemoveArgs ref := by
      intro heq
      rw [heq] at hverb
      exact absurd hverb (by simp [imageRemoveArgs, CONTAINER_VERBS])
    exact ⟨hne, hne⟩

/-- And the two begin with the same word. -/
theorem Corresponds.head {ref₁ ref₂ : String} {args₁ args₂ : List String}
    (h : Corresponds ref₁ ref₂ args₁ args₂) : args₁.headD "" = args₂.headD "" := by
  cases h with
  | inspect => rfl
  | create => rfl
  | container => rfl

section Worlds

variable {δ₁ δ₂ : Type} {o₁ : Outside δ₁} {o₂ : Outside δ₂} {B : δ₁ → δ₂ → Prop}
  {ref₁ ref₂ : String} {n₁ n₂ : Nat} {py : Interpreter}

/-- Two worlds side by side, in which the images have been removed so often. -/
structure SideBySide (B : δ₁ → δ₂ → Prop) (ref₁ ref₂ : String) (n₁ n₂ : Nat) (w₁ : World δ₁)
    (w₂ : World δ₂) : Prop where
  outside : B w₁.outside w₂.outside
  db : w₁.db = w₂.db
  removals₁ : removals ref₁ w₁.trace = n₁
  removals₂ : removals ref₂ w₂.trace = n₂

/-- The removal's ways to fail are those that `run_docker` expects. -/
def Removable {δ : Type} (o : Outside δ) (ref : String) : Prop :=
  ∀ d e, (o.docker d (imageRemoveArgs ref)).1 = .error e →
    e.cls = .timeoutExpired ∨ e.cls.isOSError = true

/-- The same end twice. -/
theorem endsAlike_refl {ε α : Type} (r : Except ε α) : Prog.EndsAlike Eq r r := by
  cases r with
  | ok a => exact .ok rfl
  | error e => exact .error e

section Sims

variable {R : World δ₁ → World δ₂ → Prop}

/-- One command each, whose ends and worlds stay related. -/
def Alongside (R : World δ₁ → World δ₂ → Prop) (o₁ : Outside δ₁) (o₂ : Outside δ₂)
    (args₁ args₂ : List String) : Prop :=
  ∀ timeoutS reason, Prog.Sim R Eq (runDocker o₁ args₁ timeoutS reason)
    (runDocker o₂ args₂ timeoutS reason)

theorem sim_assertSafeImageRef (hsafe₁ : isSafeImageRef ref₁ = true)
    (hsafe₂ : isSafeImageRef ref₂ = true) :
    Prog.Sim R (fun _ _ => True) (assertSafeImageRef ref₁ : Prog (World δ₁) Halt String)
      (assertSafeImageRef ref₂) := by
  unfold assertSafeImageRef
  rw [if_pos hsafe₁, if_pos hsafe₂]
  exact .ret trivial

/-! ### INSPECT -/

/-- Two reports of one image, which may go by two names. -/
def SameReport (image₁ image₂ : ImageInfo) : Prop := ∃ id, image₂ = { image₁ with imageId := id }

theorem imageInfoOf_alike (py : Interpreter) (ref₁ ref₂ : String) (items : List (PyStr × Json)) :
    Prog.EndsAlike SameReport (imageInfoOf py ref₁ items) (imageInfoOf py ref₂ items) := by
  unfold imageInfoOf
  cases getObject items "Config" with
  | error e => exact .error e
  | ok config =>
    cases getObject items "RootFS" with
    | error e => exact .error e
    | ok rootfs =>
      cases sizeOf (Json.get? items "Size") with
      | error e => exact .error e
      | ok size => exact .ok ⟨_, rfl⟩

theorem sim_inspectImage (hrun : Alongside R o₁ o₂ (inspectArgs ref₁) (inspectArgs ref₂))
    (hsafe₁ : isSafeImageRef ref₁ = true) (hsafe₂ : isSafeImageRef ref₂ = true) :
    Prog.Sim R SameReport (inspectImage o₁ py ref₁) (inspectImage o₂ py ref₂) := by
  unfold inspectImage
  refine .bind (sim_assertSafeImageRef hsafe₁ hsafe₂) fun _ _ _ => ?_
  refine .bind (hrun _ _) fun result _ heq => ?_
  subst heq
  split
  · exact .raise _
  · split
    · split
      · exact .raise _
      · exact .raise _
    · split
      · exact .raise _
      · rename_i items _
        have halike := imageInfoOf_alike py ref₁ ref₂ items
        generalize imageInfoOf py ref₁ items = info₁ at halike
        generalize imageInfoOf py ref₂ items = info₂ at halike
        cases halike with
        | ok hsame => exact .ret hsame
        | error e => exact .raise _

/-! ### DRY_RUN -/

theorem sim_bestEffort {α : Type} {default : α} {x : Prog (World δ₁) Halt α}
    {y : Prog (World δ₂) Halt α} (hxy : Prog.Sim R Eq x y) :
    Prog.Sim R Eq (bestEffort default x) (bestEffort default y) := by
  refine .tryExcept hxy fun e => ?_
  cases e with
  | stage failure => exact .ret rfl
  | raised e => exact .raise _

theorem sim_createContainer (hrun : Alongside R o₁ o₂ (dryRunCreateArgs ref₁) (dryRunCreateArgs ref₂)) :
    Prog.Sim R Eq (createContainer o₁ ref₁) (createContainer o₂ ref₂) := by
  unfold createContainer
  refine .bind (hrun _ _) fun result _ heq => ?_
  subst heq
  split
  · exact .raise _
  · unfold assertSafeContainerId
    split
    · exact .ret rfl
    · exact .raise _

theorem sim_waitContainer {cid : String} (hwait : Alongside R o₁ o₂ ["wait", cid] ["wait", cid])
    (hkill : Alongside R o₁ o₂ ["kill", cid] ["kill", cid]) :
    Prog.Sim R Eq (waitContainer o₁ py cid) (waitContainer o₂ py cid) := by
  unfold waitContainer
  refine .tryExcept ?_ fun e => ?_
  · refine .bind (hwait _ _) fun waited _ heq => ?_
    subst heq
    exact .ret rfl
  · cases e with
    | raised e => exact .raise _
    | stage failure =>
      dsimp only
      split
      · exact .raise _
      · refine .bind (sim_bestEffort ?_) fun _ _ _ => .ret rfl
        exact .bind (hkill _ _) fun _ _ _ => .ret rfl

theorem sim_containerLogs {cid : String} (hlogs : Alongside R o₁ o₂ ["logs", cid] ["logs", cid]) :
    Prog.Sim R Eq (containerLogs o₁ cid) (containerLogs o₂ cid) := by
  unfold containerLogs
  refine sim_bestEffort (.bind (hlogs _ _) ?_)
  intro result _ heq
  subst heq
  exact .ret rfl

theorem sim_removeContainer {cid : String} (hrm : Alongside R o₁ o₂
    ["rm", "--force", "--volumes", cid] ["rm", "--force", "--volumes", cid]) :
    Prog.Sim R Eq (removeContainer o₁ cid) (removeContainer o₂ cid) := by
  unfold removeContainer assertSafeContainerId
  refine sim_bestEffort (.bind (V := fun _ _ => True) ?_ fun _ _ _ => ?_)
  · split
    · exact .ret trivial
    · exact .raise _
  · refine .bind (hrm _ _) fun result _ heq => ?_
    subst heq
    exact .ret rfl

variable (h : SameImages B o₁ o₂ ref₁ ref₂)
include h

theorem sim_runDocker {args₁ args₂ : List String} (hargs : Corresponds ref₁ ref₂ args₁ args₂) :
    Alongside (SideBySide B ref₁ ref₂ n₁ n₂) o₁ o₂ args₁ args₂ := by
  intro timeoutS reason w₁ w₂ hw
  obtain ⟨hanswer, hB⟩ := h.checked hargs _ _ hw.outside
  rw [runDocker_eq, runDocker_eq]
  constructor
  · rw [hanswer, dockerResult_head hargs.head]
    exact endsAlike_refl _
  · refine ⟨hB, hw.db, ?_, ?_⟩
    · rw [removals_append, if_neg (hargs.no_removal ref₁).1]
      exact hw.removals₁
    · rw [removals_append, if_neg (hargs.no_removal ref₂).2]
      exact hw.removals₂

theorem sim_container {cid : String} {args : List String} (hargs : args ∈ containerCommands cid) :
    Alongside (SideBySide B ref₁ ref₂ n₁ n₂) o₁ o₂ args args :=
  sim_runDocker h (.container (container_verb hargs))

theorem sim_dryRun (hsafe₁ : isSafeImageRef ref₁ = true) (hsafe₂ : isSafeImageRef ref₂ = true)
    (durationMs : Int) :
    Prog.Sim (SideBySide B ref₁ ref₂ n₁ n₂) Eq (dryRun o₁ py ref₁ durationMs)
      (dryRun o₂ py ref₂ durationMs) := by
  unfold dryRun
  refine .bind (sim_assertSafeImageRef hsafe₁ hsafe₂) fun _ _ _ => ?_
  refine .bind (sim_createContainer (sim_runDocker h .create)) fun cid _ hcid => ?_
  subst hcid
  have hcontainer : ∀ args ∈ containerCommands cid,
      Alongside (SideBySide B ref₁ ref₂ n₁ n₂) o₁ o₂ args args :=
    fun args hargs => sim_container h hargs
  refine .tryFinally ?_ ?_
  · refine .bind (hcontainer _ (by simp [containerCommands]) _ _) fun result _ heq => ?_
    subst heq
    split
    · exact .raise _
    · refine .bind (sim_waitContainer (hcontainer _ ?_) (hcontainer _ ?_)) fun waited _ hwaited => ?_
      · simp [containerCommands]
      · simp [containerCommands]
      subst hwaited
      refine .bind (sim_containerLogs (hcontainer _ ?_)) fun logs _ hlogs => ?_
      · simp [containerCommands]
      subst hlogs
      exact .ret rfl
  · refine .bind (sim_removeContainer (hcontainer _ ?_)) fun _ _ _ => .ret trivial
    simp [containerCommands]

end Sims

/-! ## The two checks -/

/-- The facts that the ruling is made of. -/
structure SameEvidence (e₁ e₂ : Evidence) : Prop where
  agentDigest : e₁.agentDigest = e₂.agentDigest
  dryRunExitCode : e₁.dryRunExitCode = e₂.dryRunExitCode
  dryRunMs : e₁.dryRunMs = e₂.dryRunMs
  logExcerpt : e₁.logExcerpt = e₂.logExcerpt

theorem SameEvidence.add {e₁ e₂ new₁ new₂ : Evidence} (h : SameEvidence e₁ e₂)
    (hnew : SameEvidence new₁ new₂) : SameEvidence (e₁.add new₁) (e₂.add new₂) := by
  obtain ⟨hdigest, hcode, hms, hlog⟩ := h
  obtain ⟨hdigest', hcode', hms', hlog'⟩ := hnew
  exact ⟨by rw [Evidence.add, Evidence.add, hdigest, hdigest'],
    by rw [Evidence.add, Evidence.add, hcode, hcode'],
    by rw [Evidence.add, Evidence.add, hms, hms'],
    by rw [Evidence.add, Evidence.add, hlog, hlog']⟩

/-- Two verdicts that say the same of the agent. -/
structure SameRuling (v₁ v₂ : Verdict) : Prop where
  status : v₁.status = v₂.status
  stageReached : v₁.stageReached = v₂.stageReached
  rejectReason : v₁.rejectReason = v₂.rejectReason
  agentDigest : v₁.agentDigest = v₂.agentDigest
  duplicateOf : v₁.duplicateOf = v₂.duplicateOf
  fromCache : v₁.fromCache = v₂.fromCache
  dryRunExitCode : v₁.dryRunExitCode = v₂.dryRunExitCode
  dryRunMs : v₁.dryRunMs = v₂.dryRunMs
  logExcerpt : v₁.logExcerpt = v₂.logExcerpt

/-- Two checks side by side, each holding its image. -/
structure Abreast (B : δ₁ → δ₂ → Prop) (ref₁ ref₂ : String) (n₁ n₂ : Nat) (c₁ : CheckState δ₁)
    (c₂ : CheckState δ₂) : Prop where
  worlds : SideBySide B ref₁ ref₂ n₁ n₂ c₁.world c₂.world
  stage : c₁.stage = c₂.stage
  evidence : SameEvidence c₁.evidence c₂.evidence
  held₁ : c₁.imageRef = some ref₁
  held₂ : c₂.imageRef = some ref₂

/-- The same was asked of both. -/
structure SameRequest (input₁ input₂ : CheckInput) : Prop where
  minerId : input₁.submission.minerId = input₂.submission.minerId
  skipDryRun : input₁.skipDryRun = input₂.skipDryRun
  dedupe : input₁.dedupe = input₂.dedupe
  keepImage : input₁.keepImage = input₂.keepImage
  dryRunMs : input₁.dryRunMs = input₂.dryRunMs

section Verdicts

variable {s₁ s₂ : Submission} {e₁ e₂ : Evidence} (he : SameEvidence e₁ e₂)
include he

theorem sameRuling_accept (stage : Stage) : SameRuling (accept s₁ stage e₁) (accept s₂ stage e₂) :=
  ⟨rfl, rfl, rfl, he.agentDigest, rfl, rfl, he.dryRunExitCode, he.dryRunMs, he.logExcerpt⟩

theorem sameRuling_reject (stage : Stage) (reason : RejectReason) (detail : Option String)
    (duplicateOf : Option Nat) : SameRuling (reject s₁ stage reason detail e₁ duplicateOf)
      (reject s₂ stage reason detail e₂ duplicateOf) :=
  ⟨rfl, rfl, rfl, he.agentDigest, rfl, rfl, he.dryRunExitCode, he.dryRunMs, he.logExcerpt⟩

theorem sameRuling_cached (row : SubmissionRow) :
    SameRuling (cachedVerdict row s₁ e₁) (cachedVerdict row s₂ e₂) :=
  ⟨rfl, rfl, rfl, congrArg (Option.or · row.verdict.agentDigest) he.agentDigest, rfl, rfl, rfl, rfl,
    rfl⟩

end Verdicts

theorem sim_inWorld {α β : Type} {V : α → β → Prop} {x : Prog (World δ₁) Halt α}
    {y : Prog (World δ₂) Halt β} (hxy : Prog.Sim (SideBySide B ref₁ ref₂ n₁ n₂) V x y) :
    Prog.Sim (Abreast B ref₁ ref₂ n₁ n₂) V (inWorld x) (inWorld y) := by
  intro c₁ c₂ hc
  obtain ⟨hend, hw⟩ := hxy _ _ hc.worlds
  exact ⟨hend, hw, hc.stage, hc.evidence, hc.held₁, hc.held₂⟩

theorem sim_enterStage (stage : Stage) :
    Prog.Sim (Abreast B ref₁ ref₂ n₁ n₂) (fun _ _ => True) (enterStage stage) (enterStage stage) :=
  .modify fun _ _ hc => ⟨hc.worlds, rfl, hc.evidence, hc.held₁, hc.held₂⟩

theorem sim_addEvidence {new₁ new₂ : Evidence} (hnew : SameEvidence new₁ new₂) :
    Prog.Sim (Abreast B ref₁ ref₂ n₁ n₂) (fun _ _ => True) (addEvidence new₁) (addEvidence new₂) :=
  .modify fun _ _ hc => ⟨hc.worlds, hc.stage, hc.evidence.add hnew, hc.held₁, hc.held₂⟩

theorem sim_orFail {α : Type} (r : Except StageFailure α) :
    Prog.Sim (Abreast B ref₁ ref₂ n₁ n₂) Eq (orFail r : Check δ₁ α) (orFail r) := by
  cases r with
  | ok a => exact .ret rfl
  | error failure => exact .raise _

theorem sim_orRaise {α : Type} {R : World δ₁ → World δ₂ → Prop} (r : Except Exc α) :
    Prog.Sim R Eq (orRaise r : Prog (World δ₁) Halt α) (orRaise r) := by
  cases r with
  | ok a => exact .ret rfl
  | error e => exact .raise _

theorem sim_haltVerdict {s₁ s₂ : Submission} (e : Halt) :
    Prog.Sim (Abreast B ref₁ ref₂ n₁ n₂) SameRuling (haltVerdict s₁ e) (haltVerdict s₂ e) := by
  unfold haltVerdict
  refine .get_bind fun c₁ c₂ hc => ?_
  cases e with
  | stage failure =>
    rw [hc.stage]
    exact .ret (sameRuling_reject hc.evidence _ _ _ _)
  | raised e =>
    rw [hc.stage]
    exact .ret (sameRuling_reject hc.evidence _ _ _ _)

theorem haltVerdict_returns {δ : Type} (s : Submission) (e : Halt) :
    Prog.Returns (haltVerdict s e : Check δ Verdict) fun _ => True := by
  intro c
  cases e with
  | stage failure => exact ⟨_, rfl, trivial⟩
  | raised e => exact ⟨_, rfl, trivial⟩

/-- What an agent's digest settles, it settles alike. -/
theorem settledByDigest_alike {input₁ input₂ : CheckInput} (hinput : SameRequest input₁ input₂)
    (digest : Option String) {c₁ : CheckState δ₁} {c₂ : CheckState δ₂}
    (hc : Abreast B ref₁ ref₂ n₁ n₂ c₁ c₂) :
    Option.Rel SameRuling (settledByDigest input₁ digest c₁) (settledByDigest input₂ digest c₂) := by
  unfold settledByDigest
  cases digest with
  | none => exact .none
  | some name =>
    rw [hinput.dedupe, hinput.minerId, hc.worlds.db]
    dsimp only [bind, Option.bind]
    split
    · cases c₂.world.db.findAgent name with
      | none => exact .none
      | some known =>
        dsimp only
        split
        · exact .some (sameRuling_reject hc.evidence _ _ _ _)
        · cases c₂.world.db.findSubmission known.firstSubmission with
          | none => exact .none
          | some previous => exact .some (sameRuling_cached hc.evidence previous)
    · exact .none

section Checks

variable (h : SameImages B o₁ o₂ ref₁ ref₂) (hsafe₁ : isSafeImageRef ref₁ = true)
  (hsafe₂ : isSafeImageRef ref₂ = true)
include h hsafe₁ hsafe₂

theorem sim_inspectStage :
    Prog.Sim (Abreast B ref₁ ref₂ n₁ n₂) Eq (inspectStage o₁ py ref₁) (inspectStage o₂ py ref₂) := by
  unfold inspectStage
  refine .bind (sim_enterStage _) fun _ _ _ => ?_
  refine .bind (sim_inWorld (sim_inspectImage (sim_runDocker h .inspect) hsafe₁ hsafe₂))
    fun image _ himage => ?_
  obtain ⟨id, rfl⟩ := himage
  refine .bind (sim_addEvidence ⟨rfl, rfl, rfl, rfl⟩) fun _ _ _ => ?_
  refine .bind (sim_orFail (checkImage py image)) fun _ _ _ => ?_
  refine .bind (sim_orFail (entrypointOf image)) fun entrypoint _ heq => ?_
  subst heq
  refine .bind (sim_addEvidence ⟨rfl, rfl, rfl, rfl⟩) fun _ _ _ => ?_
  refine .bind (sim_inWorld (sim_orRaise (agentDigestOf py image))) fun digest _ hdigest => ?_
  subst hdigest
  exact .bind (sim_addEvidence ⟨rfl, rfl, rfl, rfl⟩) fun _ _ _ => .ret rfl

theorem sim_dryRunStage (durationMs : Int) :
    Prog.Sim (Abreast B ref₁ ref₂ n₁ n₂) (fun _ _ => True) (dryRunStage o₁ py ref₁ durationMs)
      (dryRunStage o₂ py ref₂ durationMs) := by
  unfold dryRunStage
  refine .bind (sim_enterStage _) fun _ _ _ => ?_
  refine .bind (sim_inWorld (sim_dryRun h hsafe₁ hsafe₂ durationMs)) fun outcome _ heq => ?_
  subst heq
  refine .bind (sim_addEvidence ⟨rfl, rfl, rfl, rfl⟩) fun _ _ _ => ?_
  exact (sim_orFail (checkDryRun outcome)).mono fun _ _ _ => trivial

theorem sim_checkLoaded {input₁ input₂ : CheckInput} (hinput : SameRequest input₁ input₂) :
    Prog.Sim (Abreast B ref₁ ref₂ n₁ n₂) SameRuling (checkLoaded o₁ py input₁ ref₁)
      (checkLoaded o₂ py input₂ ref₂) := by
  have haccept : ∀ stage, Prog.Sim (Abreast B ref₁ ref₂ n₁ n₂) SameRuling
      (Prog.get >>= fun c : CheckState δ₁ =>
        (return accept input₁.submission stage c.evidence : Check δ₁ Verdict))
      (Prog.get >>= fun c : CheckState δ₂ =>
        (return accept input₂.submission stage c.evidence : Check δ₂ Verdict)) :=
    fun stage => .get_bind fun c₁ c₂ hc => .ret (sameRuling_accept hc.evidence stage)
  unfold checkLoaded
  refine .bind (sim_inspectStage h hsafe₁ hsafe₂) fun digest _ hdigest => ?_
  subst hdigest
  refine .get_bind fun c₁ c₂ hc => ?_
  have hsettled := settledByDigest_alike hinput digest hc
  generalize settledByDigest input₁ digest c₁ = settled₁ at hsettled
  generalize settledByDigest input₂ digest c₂ = settled₂ at hsettled
  cases hsettled with
  | some hsame => exact .ret hsame
  | none =>
    dsimp only
    rw [hinput.skipDryRun]
    split
    · exact haccept _
    · rw [hinput.dryRunMs]
      exact .bind (sim_dryRunStage h hsafe₁ hsafe₂ _) fun _ _ _ => haccept _

/-! ### The clean-up -/

omit hsafe₁ hsafe₂ in
theorem runDocker_remove {w₁ : World δ₁} {w₂ : World δ₂} (hw : SideBySide B ref₁ ref₂ n₁ n₂ w₁ w₂)
    (timeoutS : Nat) (reason : RejectReason) :
    (runDocker o₁ (imageRemoveArgs ref₁) timeoutS reason w₁).1 =
        (runDocker o₂ (imageRemoveArgs ref₂) timeoutS reason w₂).1 ∧
      SideBySide B ref₁ ref₂ (n₁ + 1) (n₂ + 1)
        (runDocker o₁ (imageRemoveArgs ref₁) timeoutS reason w₁).2
        (runDocker o₂ (imageRemoveArgs ref₂) timeoutS reason w₂).2 := by
  obtain ⟨hanswer, hB⟩ := h.removed _ _ hw.outside
  rw [runDocker_eq, runDocker_eq]
  refine ⟨?_, hB, hw.db, ?_, ?_⟩
  · rw [hanswer]
    exact dockerResult_head rfl _ _ _
  · rw [removals_append, if_pos rfl, hw.removals₁]
  · rw [removals_append, if_pos rfl, hw.removals₂]

theorem removeImage_alike {w₁ : World δ₁} {w₂ : World δ₂}
    (hw : SideBySide B ref₁ ref₂ n₁ n₂ w₁ w₂) :
    Prog.EndsAlike (fun _ _ => True) (removeImage o₁ ref₁ w₁).1 (removeImage o₂ ref₂ w₂).1 ∧
      SideBySide B ref₁ ref₂ (n₁ + 1) (n₂ + 1) (removeImage o₁ ref₁ w₁).2
        (removeImage o₂ ref₂ w₂).2 := by
  obtain ⟨hsame, hafter⟩ := runDocker_remove h hw DOCKER_CLI_TIMEOUT_S .internalError
  unfold removeImage bestEffort assertSafeImageRef Prog.tryExcept
  rw [if_pos hsafe₁, if_pos hsafe₂, Prog.pure_bind, Prog.pure_bind, Prog.bind_run, Prog.bind_run]
  generalize runDocker o₁ (imageRemoveArgs ref₁) DOCKER_CLI_TIMEOUT_S .internalError w₁ = run₁
    at hsame hafter ⊢
  generalize runDocker o₂ (imageRemoveArgs ref₂) DOCKER_CLI_TIMEOUT_S .internalError w₂ = run₂
    at hsame hafter ⊢
  obtain ⟨r₁, w₁'⟩ := run₁
  obtain ⟨r₂, w₂'⟩ := run₂
  dsimp only at hsame hafter
  subst hsame
  cases r₁ with
  | ok result => exact ⟨.ok trivial, hafter⟩
  | error e =>
    cases e with
    | stage failure => exact ⟨.ok trivial, hafter⟩
    | raised e => exact ⟨.error _, hafter⟩

/-- How often the clean-up removes the image. -/
def cleanupRemovals (keepImage : Bool) : Nat := if keepImage then 0 else 1

omit h hsafe₂ in
theorem safe_ne_empty : ref₁ ≠ "" := by
  intro hempty
  rw [hempty] at hsafe₁
  exact absurd hsafe₁ (by decide)

theorem dropImage_alike (keepImage : Bool) {c₁ : CheckState δ₁} {c₂ : CheckState δ₂}
    (hc : Abreast B ref₁ ref₂ n₁ n₂ c₁ c₂) :
    Prog.EndsAlike (fun _ _ => True) (dropImage o₁ keepImage c₁).1 (dropImage o₂ keepImage c₂).1 ∧
      SideBySide B ref₁ ref₂ (n₁ + cleanupRemovals keepImage) (n₂ + cleanupRemovals keepImage)
        (dropImage o₁ keepImage c₁).2.world (dropImage o₂ keepImage c₂).2.world := by
  have hne₁ := safe_ne_empty hsafe₁
  have hne₂ := safe_ne_empty hsafe₂
  unfold dropImage
  rw [Prog.bind_ok (Prog.get_run c₁), Prog.bind_ok (Prog.get_run c₂), hc.held₁, hc.held₂]
  dsimp only
  cases keepImage with
  | true =>
    rw [if_pos (.inr rfl), if_pos (.inr rfl)]
    exact ⟨.ok trivial, hc.worlds⟩
  | false =>
    have hkeep : ¬ (false = true) := Bool.false_ne_true
    rw [if_neg (not_or.mpr ⟨hne₁, hkeep⟩), if_neg (not_or.mpr ⟨hne₂, hkeep⟩)]
    obtain ⟨hend, hafter⟩ := removeImage_alike h hsafe₁ hsafe₂ hc.worlds
    rw [Prog.bind_run, Prog.bind_run]
    unfold inWorld
    generalize removeImage o₁ ref₁ c₁.world = run₁ at hend hafter ⊢
    generalize removeImage o₂ ref₂ c₂.world = run₂ at hend hafter ⊢
    obtain ⟨r₁, w₁'⟩ := run₁
    obtain ⟨r₂, w₂'⟩ := run₂
    dsimp only at hend hafter
    cases hend with
    | ok _ => exact ⟨.ok trivial, hafter⟩
    | error e => exact ⟨.error e, hafter⟩

omit h hsafe₂ in
theorem removeImage_returns (hremovable : Removable o₁ ref₁) (w : World δ₁) :
    ∃ done, (removeImage o₁ ref₁ w).1 = .ok done := by
  unfold removeImage bestEffort assertSafeImageRef Prog.tryExcept
  rw [if_pos hsafe₁, Prog.pure_bind, Prog.bind_run, runDocker_eq]
  have hexpected := dockerResult_expected (hremovable w.outside) (imageRemoveArgs ref₁)
    DOCKER_CLI_TIMEOUT_S .internalError
  rcases hexpected with ⟨result, hresult⟩ | ⟨failure, hresult⟩
  · rw [hresult]
    exact ⟨_, rfl⟩
  · rw [hresult]
    exact ⟨_, rfl⟩

omit h hsafe₂ in
theorem dropImage_returns (hremovable : Removable o₁ ref₁) (keepImage : Bool) {c : CheckState δ₁}
    (hheld : c.imageRef = some ref₁) : ∃ c', dropImage o₁ keepImage c = (.ok (), c') := by
  unfold dropImage
  rw [Prog.bind_ok (Prog.get_run c), hheld]
  dsimp only
  split
  · exact ⟨c, rfl⟩
  · obtain ⟨done, hdone⟩ := removeImage_returns hsafe₁ hremovable c.world
    rw [Prog.bind_run]
    unfold inWorld
    rw [hdone]
    exact ⟨_, rfl⟩

/-- From the image on, the clean-up included. -/
theorem checks_alike (py : Interpreter) {input₁ input₂ : CheckInput} (hinput : SameRequest input₁ input₂)
    {c₁ : CheckState δ₁} {c₂ : CheckState δ₂} (hc : Abreast B ref₁ ref₂ n₁ n₂ c₁ c₂) :
    let run₁ := Prog.tryFinally (Prog.tryExcept (checkLoaded o₁ py input₁ ref₁)
      (haltVerdict input₁.submission)) (dropImage o₁ input₁.keepImage) c₁
    let run₂ := Prog.tryFinally (Prog.tryExcept (checkLoaded o₂ py input₂ ref₂)
      (haltVerdict input₂.submission)) (dropImage o₂ input₂.keepImage) c₂
    Prog.EndsAlike SameRuling run₁.1 run₂.1 ∧
      SideBySide B ref₁ ref₂ (n₁ + cleanupRemovals input₁.keepImage)
        (n₂ + cleanupRemovals input₂.keepImage) run₁.2.world run₂.2.world ∧
      (Removable o₁ ref₁ → ∃ verdict, run₁.1 = .ok verdict) := by
  have hguarded : Prog.Sim (Abreast B ref₁ ref₂ n₁ n₂) SameRuling
      (Prog.tryExcept (checkLoaded o₁ py input₁ ref₁) (haltVerdict input₁.submission))
      (Prog.tryExcept (checkLoaded o₂ py input₂ ref₂) (haltVerdict input₂.submission)) :=
    (sim_checkLoaded h hsafe₁ hsafe₂ hinput).tryExcept fun e => sim_haltVerdict e
  dsimp only
  rw [hinput.keepImage]
  obtain ⟨hend, hafter⟩ := Prog.Sim.tryFinally_to
    (S := fun c₁ c₂ => SideBySide B ref₁ ref₂ (n₁ + cleanupRemovals input₂.keepImage)
      (n₂ + cleanupRemovals input₂.keepImage) c₁.world c₂.world)
    hguarded (fun _ _ hst => dropImage_alike h hsafe₁ hsafe₂ input₂.keepImage hst) hc
  refine ⟨hend, hafter, ?_⟩
  intro hremovable
  have hreturns : Prog.Returns (Prog.tryExcept (checkLoaded o₁ py input₁ ref₁)
      (haltVerdict input₁.submission)) fun _ => True :=
    .tryExcept_any _ fun e => haltVerdict_returns _ e
  obtain ⟨verdict, c, hverdict, -⟩ := hreturns.run c₁
  have hheld := (hguarded c₁ c₂ hc).2.held₁
  rw [hverdict] at hheld
  obtain ⟨c', hdropped⟩ := dropImage_returns hsafe₁ hremovable input₂.keepImage hheld
  rw [Prog.tryFinally_ok hverdict hdropped]
  exact ⟨verdict, rfl⟩

end Checks

end Worlds

/-! ## Up to the image -/

section Loading

variable {δ : Type} {o : Outside δ} {py : Interpreter}

theorem pullImage_safe {ref : String} {pulled : PulledImage} {w w' : World δ}
    (h : pullImage o py ref w = (.ok pulled, w')) : isSafeImageRef pulled.digestRef = true := by
  unfold pullImage at h
  obtain ⟨_, w₁, -, h⟩ := Prog.bind_eq_ok h
  obtain ⟨_, w₂, -, h⟩ := Prog.bind_eq_ok h
  obtain ⟨result, w₃, -, h⟩ := Prog.bind_eq_ok h
  split at h
  · cases h
  · obtain ⟨digestRef, w₄, -, h⟩ := Prog.bind_eq_ok h
    obtain ⟨_, w₅, hassert, h⟩ := Prog.bind_eq_ok h
    cases h
    exact (assertSafeImageRef_ok hassert).2

/-- Of what is guarded only the end matters. -/
theorem guarded_congr {body body' : Check δ Verdict} {c c' : CheckState δ} (h : body c = body' c')
    (handler : Halt → Check δ Verdict) (cleanup : Check δ Unit) :
    Prog.tryFinally (Prog.tryExcept body handler) cleanup c =
      Prog.tryFinally (Prog.tryExcept body' handler) cleanup c' := by
  unfold Prog.tryFinally Prog.tryExcept
  rw [h]

/-- A check at LOAD, with the evidence it has. -/
def loadingState (evidence : Evidence) (imageRef : Option String) (w : World δ) : CheckState δ where
  world := w
  stage := .load
  evidence := evidence
  imageRef := imageRef

/-- What a file check knows at LOAD. -/
def fileEvidence (info : FileInfo) (found : StructureInfo) : Evidence :=
  Evidence.add { fileSha256 := some info.sha256, fileSize := some info.size }
    { repoTags := listOrNone found.repoTags, layerCount := found.layerCount }

/-- And a registry check, before and after it has the image. -/
def registryEvidence : Evidence := Evidence.add {} { source := some SOURCE_REGISTRY }

def pulledEvidence (pulled : PulledImage) : Evidence :=
  registryEvidence.add { imageRef := some pulled.digestRef }

theorem inWorld_loading {α : Type} {x : Prog (World δ) Halt α} {a : α} {w w' : World δ}
    (h : x w = (.ok a, w')) (evidence : Evidence) (imageRef : Option String) :
    inWorld x (loadingState evidence imageRef w) = (.ok a, loadingState evidence imageRef w') := by
  show ((x w).1, _) = _
  rw [h]
  show (_, loadingState evidence imageRef (x w).2) = _
  rw [h]

theorem submissionStages_loaded {input : CheckInput} {info : FileInfo} {found : StructureInfo}
    {ref : String} {w w' : World δ}
    (hfile : checkFile py input.submission.filePath input.content = .ok info)
    (hunsettled : settledByFile input info.sha256 (afterFile info w) = none)
    (hstructure : checkStructure py input.archive = .ok found)
    (hload : loadImage o input.submission.filePath w = (.ok ref, w')) :
    submissionStages o py input { world := w, stage := .file } =
      checkLoaded o py input ref (loadingState (fileEvidence info found) (some ref) w') := by
  rw [submissionStages_eq hfile, hunsettled]
  show fromStructure o py input (afterFile info w) = _
  unfold fromStructure
  rw [hstructure]
  show (inWorld (loadImage o input.submission.filePath) >>= fun ref =>
    holdImage ref >>= fun _ => checkLoaded o py input ref : Check δ Verdict)
      (loadingState (fileEvidence info found) none w) = _
  rw [Prog.bind_ok (inWorld_loading hload _ _)]
  rfl

theorem registryStages_pulled {input : CheckInput} {pulled : PulledImage} {w w' : World δ}
    (hpull : pullImage o py input.submission.filePath w = (.ok pulled, w')) :
    registryStages o py input { world := w, stage := .load } =
      checkLoaded o py input pulled.digestRef
        (loadingState (pulledEvidence pulled) (some pulled.digestRef) w') := by
  show (inWorld (pullImage o py input.submission.filePath) >>= fun pulled =>
    holdImage pulled.digestRef >>= fun _ => addEvidence { imageRef := some pulled.digestRef } >>=
      fun _ => checkLoaded o py input pulled.digestRef : Check δ Verdict)
        (loadingState registryEvidence none w) = _
  rw [Prog.bind_ok (inWorld_loading hpull _ _)]
  rfl

/-- **A file and a reference are ruled alike from the image on.** Where Docker answers alike about the
    two images, the two checks end alike, their verdicts agreeing on everything that is said of the
    agent, and each has removed its image once, unless it was to be kept. Both come back with a
    verdict where no removal fails in a way that is not expected. -/
theorem checks_agree {δ' : Type} {o' : Outside δ'} {B : δ → δ' → Prop} {input input' : CheckInput}
    (hinput : SameRequest input input') {w loaded : World δ} {w' loaded' : World δ'}
    (hdb : w.db = w'.db) {info : FileInfo} {found : StructureInfo} {ref : String}
    (hfile : checkFile py input.submission.filePath input.content = .ok info)
    (hnew : w.db.findByFileSha256 info.sha256 = none)
    (hstructure : checkStructure py input.archive = .ok found)
    (hload : loadImage o input.submission.filePath w = (.ok ref, loaded))
    {pulled : PulledImage}
    (hpull : pullImage o' py input'.submission.filePath w' = (.ok pulled, loaded'))
    (hstart : B loaded.outside loaded'.outside) (himages : SameImages B o o' ref pulled.digestRef) :
    Prog.EndsAlike SameRuling (checkSubmission o py input w).1
        (checkRegistrySubmission o' py input' w').1 ∧
      removals ref (checkSubmission o py input w).2.trace =
        removals ref loaded.trace + cleanupRemovals input.keepImage ∧
      removals pulled.digestRef (checkRegistrySubmission o' py input' w').2.trace =
        removals pulled.digestRef loaded'.trace + cleanupRemovals input.keepImage ∧
      (Removable o ref → ∃ verdict verdict', (checkSubmission o py input w).1 = .ok verdict ∧
        (checkRegistrySubmission o' py input' w').1 = .ok verdict' ∧
        SameRuling verdict verdict') := by
  have hunsettled : settledByFile input info.sha256 (afterFile info w) = none := by
    rw [settledByFile_eq]
    have hrow : fileRow input (some info.sha256) (afterFile info w).world.db = none := by
      unfold fileRow
      split
      · exact hnew
      · rfl
    rw [hrow, Option.bind_none]
  have hloadedDb : loaded.db = w.db :=
    (keeps_loadImage (I := fun v : World δ => v.db = w.db) fun _ hv => hv).run rfl hload
  have hpulledDb : loaded'.db = w'.db :=
    (keeps_pullImage (I := fun v : World δ' => v.db = w'.db) (fun _ _ hv => hv) _).run rfl hpull
  have habreast : Abreast B ref pulled.digestRef (removals ref loaded.trace)
      (removals pulled.digestRef loaded'.trace)
      (loadingState (fileEvidence info found) (some ref) loaded)
      (loadingState (pulledEvidence pulled) (some pulled.digestRef) loaded') :=
    ⟨⟨hstart, by rw [loadingState, loadingState, hloadedDb, hpulledDb, hdb], rfl, rfl⟩, rfl,
      ⟨rfl, rfl, rfl, rfl⟩, rfl, rfl⟩
  obtain ⟨_, -, -, -, hsafe⟩ := loadImage_ok hload
  obtain ⟨hend, hafter, hreturns⟩ :=
    checks_alike himages hsafe (pullImage_safe hpull) py hinput habreast
  have hsubmission := guarded_congr (submissionStages_loaded hfile hunsettled hstructure hload)
    (haltVerdict input.submission) (dropImage o input.keepImage)
  have hregistry := guarded_congr (registryStages_pulled hpull) (haltVerdict input'.submission)
    (dropImage o' input'.keepImage)
  rw [← hsubmission, ← hregistry] at hend hafter
  rw [← hsubmission] at hreturns
  have hend' : Prog.EndsAlike SameRuling (checkSubmission o py input w).1
      (checkRegistrySubmission o' py input' w').1 := hend
  refine ⟨hend', hafter.removals₁, hinput.keepImage ▸ hafter.removals₂, ?_⟩
  intro hremovable
  obtain ⟨verdict, hverdict⟩ := hreturns hremovable
  have hverdict' : (checkSubmission o py input w).1 = .ok verdict := hverdict
  rw [hverdict'] at hend'
  generalize hother : (checkRegistrySubmission o' py input' w').1 = other at hend'
  cases hend' with
  | ok hsame => exact ⟨verdict, _, hverdict', rfl, hsame⟩

end Loading

/-! ## One agent, twice -/

/-- A Docker to which every image is the same agent. -/
def oneAgent : Outside Unit where
  docker _ args :=
    (.ok (match args with
      | "load" :: _ => ⟨0, "Loaded image: miner/agent:1", ""⟩
      | "manifest" :: _ => ⟨1, "", ""⟩
      | ["image", "inspect", "--format", format, _] =>
        if format = "\x7b\x7bjson .\x7d\x7d" then
          ⟨0, "\x7b\"Id\":\"sha256:beef\",\"RootFS\":\x7b\"Layers\":[\"l\"]\x7d," ++
            "\"Config\":\x7b\"Cmd\":[\"/agent\"]\x7d\x7d", ""⟩
        else ⟨0, "miner/agent@sha256:" ++ String.ofList (List.replicate 64 '0'), ""⟩
      | "create" :: _ => ⟨0, "0123456789ab", ""⟩
      | "wait" :: _ => ⟨0, "0", ""⟩
      | _ => ⟨0, "", ""⟩), ())
  http _ _ := (.error ⟨.osError, "unreachable"⟩, ())

theorem oneAgent_same (ref₁ ref₂ : String) :
    SameImages (fun _ _ => True) oneAgent oneAgent ref₁ ref₂ where
  checked hargs := by
    intro _ _ _
    cases hargs with
    | inspect => exact ⟨rfl, trivial⟩
    | create => exact ⟨rfl, trivial⟩
    | container => exact ⟨rfl, trivial⟩
  removed := fun _ _ _ => ⟨rfl, trivial⟩

/-- The agent as a file, and as a reference. -/
def agentFile : CheckInput := { plainFile "5A" with skipDryRun := false }

def agentReference : CheckInput where
  submission := ⟨"5A", "miner/agent:1", "2025-01-01T00:00:00+00:00"⟩

theorem oneAgent_agrees : ∃ verdict verdict',
    (checkSubmission oneAgent plainInterpreter agentFile { outside := () }).1 = .ok verdict ∧
    (checkRegistrySubmission oneAgent plainInterpreter agentReference { outside := () }).1 =
      .ok verdict' ∧ SameRuling verdict verdict' := by
  have hload : (loadImage oneAgent agentFile.submission.filePath { outside := () }).1 =
      .ok "miner/agent:1" := by decide +kernel
  have hpull : (pullImage oneAgent plainInterpreter agentReference.submission.filePath
      { outside := () }).1.isOk = true := by decide +kernel
  have hstructure : (checkStructure plainInterpreter agentFile.archive).isOk = true := by
    decide +kernel
  have hfile : (checkFile plainInterpreter agentFile.submission.filePath agentFile.content).isOk =
      true := by decide +kernel
  cases hfile' : checkFile plainInterpreter agentFile.submission.filePath agentFile.content with
  | error failure =>
    rw [hfile'] at hfile
    cases hfile
  | ok info =>
    cases hstructure' : checkStructure plainInterpreter agentFile.archive with
    | error e =>
      rw [hstructure'] at hstructure
      cases hstructure
    | ok found =>
      cases hpull' : (pullImage oneAgent plainInterpreter agentReference.submission.filePath
          { outside := () }).1 with
      | error e =>
        rw [hpull'] at hpull
        cases hpull
      | ok pulled =>
        have hinput : SameRequest agentFile agentReference := ⟨rfl, rfl, rfl, rfl, rfl⟩
        have hagree := checks_agree (B := fun _ _ => True) hinput rfl hfile' rfl hstructure'
          (Prod.ext hload rfl) (Prod.ext hpull' rfl) trivial (oneAgent_same _ _)
        apply hagree.2.2.2
        intro d e he
        cases he

end TaoSubnet
