import TaoSubnet.Proof.Security.Frames
import TaoSubnet.Security.Concurrent

/-!
# How a check rules

A check that comes back has ruled in one of six ways, from what it had looked up in the database by
then (`Lookups`). `Ruling` lists them, and everything about verdicts follows from it: no later proof
goes through the stages again. A check writes nothing, so its lookups may have been made at
different times; `lookupsIn` is the case of a database that stood still.
-/

namespace TaoSubnet

open Py

/-! ## What a check looked up -/

/-- The file's hash and the row it found; the agent's digest, the agent it found, and the submission
    that agent was first accepted by. -/
structure Lookups where
  sha256 : Option String := none
  file : Option SubmissionRow := none
  digest : Option String := none
  agent : Option AgentRow := none
  previous : Option SubmissionRow := none

/-- The hash a file is known by, where it gets past the checks of a file. -/
def submittedHash (py : Interpreter) (input : CheckInput) : Option String :=
  match checkFile py input.submission.filePath input.content with
  | .ok info => some info.sha256
  | .error _ => none

theorem submittedHash_some {input : CheckInput} {sha256 : String}
    (h : submittedHash py input = some sha256) :
    ∃ info, checkFile py input.submission.filePath input.content = .ok info ∧
      info.sha256 = sha256 := by
  unfold submittedHash at h
  cases hfile : checkFile py input.submission.filePath input.content with
  | error failure =>
    rw [hfile] at h
    cases h
  | ok info =>
    rw [hfile] at h
    exact ⟨info, rfl, Option.some.inj h⟩

/-- The hash that is looked up: a reference has none. -/
def lookedUpHash (py : Interpreter) (input : CheckInput) (fromRegistry : Bool) : Option String :=
  if fromRegistry then none else submittedHash py input

/-- `get_agent` of a digest, where there is one to look for. -/
def Db.agentOf (db : Db) (digest : Option String) : Option AgentRow :=
  digest.bind fun digest => if digest = "" then none else db.findAgent digest

/-- The file's row, as a check looks it up. -/
def fileRow (input : CheckInput) (sha256 : Option String) (db : Db) : Option SubmissionRow :=
  if input.dedupe then sha256.bind db.findByFileSha256 else none

/-- The agent's row, as a check looks it up. -/
def agentRow (input : CheckInput) (digest : Option String) (db : Db) : Option AgentRow :=
  if input.dedupe then db.agentOf digest else none

/-- The submission an agent was first accepted by. -/
def previousRow (known : Option AgentRow) (db : Db) : Option SubmissionRow :=
  known.bind fun known => db.findSubmission known.firstSubmission

/-- All the lookups of a check, in one database. -/
def lookupsIn (db : Db) (input : CheckInput) (sha256 digest : Option String) : Lookups where
  sha256 := sha256
  file := fileRow input sha256 db
  digest := digest
  agent := agentRow input digest db
  previous := previousRow (agentRow input digest db) db

theorem findByFileSha256_mem {db : Db} {sha256 : String} {row : SubmissionRow}
    (h : db.findByFileSha256 sha256 = some row) :
    row ∈ db.submissions ∧ row.verdict.fileSha256 = some sha256 ∧ row.verdict.fromCache = false := by
  unfold Db.findByFileSha256 at h
  have hmem := List.mem_of_find?_eq_some h
  have hrow := List.find?_some h
  simp only [Db.isReplayable, Bool.and_eq_true, beq_iff_eq, Bool.not_eq_true'] at hrow
  exact ⟨List.mem_reverse.mp hmem, hrow.1.1, hrow.1.2⟩

theorem agentRow_some {input : CheckInput} {digest : Option String} {db : Db} {known : AgentRow}
    (h : agentRow input digest db = some known) :
    ∃ name, digest = some name ∧ name ≠ "" ∧ db.findAgent name = some known := by
  unfold agentRow at h
  split at h
  · obtain ⟨name, rfl, hfound⟩ := Option.bind_eq_some_iff.mp h
    clear h
    split at hfound
    · cases hfound
    · rename_i hne
      exact ⟨name, rfl, hne, hfound⟩
  · cases h

theorem agentRow_find {input : CheckInput} {name : String} (db : Db) (hdedupe : input.dedupe = true)
    (hne : name ≠ "") : agentRow input (some name) db = db.findAgent name := by
  rw [agentRow, if_pos hdedupe, Db.agentOf, Option.bind_some, if_neg hne]

theorem fileRow_some {input : CheckInput} {sha256 : Option String} {db : Db} {row : SubmissionRow}
    (h : fileRow input sha256 db = some row) :
    sha256 = row.verdict.fileSha256 ∧ row ∈ db.submissions ∧ row.verdict.fromCache = false := by
  unfold fileRow at h
  split at h
  · obtain ⟨known, rfl, h⟩ := Option.bind_eq_some_iff.mp h
    obtain ⟨hmem, hhash, hfresh⟩ := findByFileSha256_mem h
    exact ⟨hhash.symm, hmem, hfresh⟩
  · cases h

/-- The row of the file's bytes, if there is one, settles nothing. -/
def Unsettled (input : CheckInput) (l : Lookups) : Prop :=
  ∀ row, l.file = some row →
    row.verdict.minerId ≠ input.submission.minerId ∧ row.verdict.status ≠ .accepted

/-- The verdicts a check may come to. -/
inductive Ruling (input : CheckInput) (l : Lookups) : Verdict → Prop
  /-- A stage failed. -/
  | failed {stage : Stage} {reason : RejectReason} {detail : Option String} {evidence : Evidence} :
    Ruling input l (reject input.submission stage reason detail evidence)
  /-- The miner's own bytes again. -/
  | replayedFile {row : SubmissionRow} {evidence : Evidence} (hrow : l.file = some row)
      (hminer : row.verdict.minerId = input.submission.minerId)
      (hdigest : evidence.agentDigest = none) :
    Ruling input l (cachedVerdict row input.submission evidence)
  /-- The bytes of another miner's accepted agent. -/
  | copiedFile {row : SubmissionRow} {evidence : Evidence} (hrow : l.file = some row)
      (hminer : row.verdict.minerId ≠ input.submission.minerId)
      (haccepted : row.verdict.status = .accepted) :
    Ruling input l (duplicateVerdict input.submission .file row.verdict.minerId row.id evidence)
  /-- Another miner's agent. -/
  | copiedAgent {known : AgentRow} {evidence : Evidence} (hknown : l.agent = some known)
      (howner : known.ownerMinerId ≠ input.submission.minerId) :
    Ruling input l
      (duplicateVerdict input.submission .inspect known.ownerMinerId known.firstSubmission evidence)
  /-- The miner's own agent again. -/
  | replayedAgent {known : AgentRow} {previous : SubmissionRow} {evidence : Evidence}
      (hfile : Unsettled input l) (hknown : l.agent = some known)
      (howner : known.ownerMinerId = input.submission.minerId)
      (hprevious : l.previous = some previous) (hdigest : evidence.agentDigest = l.digest) :
    Ruling input l (cachedVerdict previous input.submission evidence)
  /-- A new agent, dry-run unless that is skipped. -/
  | accepted {stage : Stage} {evidence : Evidence} (hfile : Unsettled input l)
      (hunknown : ∀ known, l.agent = some known →
        known.ownerMinerId = input.submission.minerId ∧ l.previous = none)
      (hdigest : evidence.agentDigest = l.digest)
      (hskipped : input.skipDryRun = true → stage = .inspect)
      (hran : input.skipDryRun = false → stage = .dryRun ∧ evidence.dryRunExitCode = some 0) :
    Ruling input l (accept input.submission stage evidence)

theorem Ruling.minerId {input : CheckInput} {l : Lookups} {verdict : Verdict}
    (h : Ruling input l verdict) : verdict.minerId = input.submission.minerId := by
  cases h with
  | failed => rfl
  | replayedFile => rfl
  | copiedFile => rfl
  | copiedAgent => rfl
  | replayedAgent => rfl
  | accepted => rfl

/-! ## Stage by stage -/

variable {δ : Type} {o : Outside δ} {py : Interpreter}

theorem inWorld_ok {α : Type} {x : Prog (World δ) Halt α} {c c' : CheckState δ} {a : α}
    (h : inWorld x c = (.ok a, c')) :
    ∃ w, x c.world = (.ok a, w) ∧ c' = { c with world := w } := by
  obtain ⟨hvalue, rfl⟩ := Prod.mk.inj h
  exact ⟨(x c.world).2, Prod.ext hvalue rfl, rfl⟩

theorem orRaise_ok {α : Type} {r : Except Exc α} {w w' : World δ} {a : α}
    (h : orRaise r w = (.ok a, w')) : r = .ok a ∧ w' = w := by
  cases r with
  | error e => cases h
  | ok found =>
    cases h
    exact ⟨rfl, rfl⟩

theorem orFail_eq_ok {α : Type} {r : Except StageFailure α} {c c' : CheckState δ} {a : α}
    (h : orFail r c = (.ok a, c')) : r = .ok a ∧ c' = c := by
  cases r with
  | error failure => cases h
  | ok found =>
    cases h
    exact ⟨rfl, rfl⟩

theorem orFail_ok {α : Type} {r : Except StageFailure α} {c c' : CheckState δ} {a : α}
    (h : orFail r c = (.ok a, c')) : c' = c := (orFail_eq_ok h).2

/-- Stage INSPECT leaves in the evidence the reference it found there, and adds the agent's digest. -/
theorem inspectStage_ok {name : String} {c c' : CheckState δ} {agentDigest : Option String}
    (h : inspectStage o py name c = (.ok agentDigest, c')) :
    c'.evidence.imageRef = c.evidence.imageRef ∧
      c'.evidence.agentDigest = agentDigest.or c.evidence.agentDigest ∧
      ∃ info, inspectImage o py name c.world = (.ok info, c'.world) ∧
        agentDigestOf py info = .ok agentDigest := by
  unfold inspectStage at h
  obtain ⟨_, c₁, henter, h⟩ := Prog.bind_eq_ok h
  cases henter
  obtain ⟨info, c₂, himage, h⟩ := Prog.bind_eq_ok h
  obtain ⟨w₂, hinspect, rfl⟩ := inWorld_ok himage
  obtain ⟨_, c₃, hadd, h⟩ := Prog.bind_eq_ok h
  cases hadd
  obtain ⟨_, c₄, hcheck, h⟩ := Prog.bind_eq_ok h
  obtain rfl := orFail_ok hcheck
  obtain ⟨entrypoint, c₅, hentrypoint, h⟩ := Prog.bind_eq_ok h
  obtain rfl := orFail_ok hentrypoint
  obtain ⟨_, c₆, hadd, h⟩ := Prog.bind_eq_ok h
  cases hadd
  obtain ⟨digest, c₇, hagent, h⟩ := Prog.bind_eq_ok h
  obtain ⟨w₇, hraise, rfl⟩ := inWorld_ok hagent
  obtain ⟨hdigest, rfl⟩ := orRaise_ok hraise
  obtain ⟨_, c₈, hadd, h⟩ := Prog.bind_eq_ok h
  cases hadd
  cases h
  exact ⟨rfl, rfl, info, hinspect, hdigest⟩

/-- A dry run that passes has left its exit code, and nothing else that identifies the agent. -/
theorem dryRunStage_ok {name : String} {durationMs : Int} {c c' : CheckState δ}
    (h : dryRunStage o py name durationMs c = (.ok (), c')) :
    c'.evidence.agentDigest = c.evidence.agentDigest ∧ c'.evidence.dryRunExitCode = some 0 := by
  unfold dryRunStage at h
  obtain ⟨_, c₁, henter, h⟩ := Prog.bind_eq_ok h
  cases henter
  obtain ⟨outcome, c₂, hrun, h⟩ := Prog.bind_eq_ok h
  obtain ⟨w₂, hrun, rfl⟩ := inWorld_ok hrun
  obtain ⟨_, c₃, hadd, h⟩ := Prog.bind_eq_ok h
  cases hadd
  cases hcheck : checkDryRun outcome with
  | error failure =>
    rw [hcheck] at h
    cases h
  | ok _ =>
    rw [hcheck] at h
    cases h
    refine ⟨rfl, ?_⟩
    unfold checkDryRun at hcheck
    split at hcheck
    · cases hcheck
    · split at hcheck
      · cases hcheck
      · rename_i hcode
        have hzero : outcome.exitCode = some 0 := not_not.mp hcode
        simp [Evidence.add, hzero]

/-! ## What the lookups settle -/

variable {input : CheckInput} {c : CheckState δ} {verdict : Verdict}

theorem settledByFile_eq (input : CheckInput) (sha256 : String) (c : CheckState δ) :
    settledByFile input sha256 c = (fileRow input (some sha256) c.world.db).bind fun row =>
      if row.verdict.minerId = input.submission.minerId then
        some (cachedVerdict row input.submission c.evidence)
      else if row.verdict.status = .accepted then
        some (duplicateVerdict input.submission .file row.verdict.minerId row.id c.evidence)
      else none := by
  unfold settledByFile fileRow
  cases input.dedupe with
  | false => rfl
  | true => rfl

theorem settledByDigest_eq (input : CheckInput) (digest : Option String) (c : CheckState δ) :
    settledByDigest input digest c = (agentRow input digest c.world.db).bind fun known =>
      if known.ownerMinerId ≠ input.submission.minerId then
        some (duplicateVerdict input.submission .inspect known.ownerMinerId known.firstSubmission
          c.evidence)
      else (c.world.db.findSubmission known.firstSubmission).map fun previous =>
        cachedVerdict previous input.submission c.evidence := by
  unfold settledByDigest agentRow Db.agentOf
  cases digest with
  | none => cases input.dedupe <;> rfl
  | some digest =>
    cases input.dedupe with
    | false => rfl
    | true =>
      by_cases hempty : digest = ""
      · subst hempty
        rfl
      · simp only [hempty, ne_eq, not_false_eq_true, decide_true, Bool.and_self, if_true,
          if_false, Option.bind_eq_bind, Option.bind_some]
        congr 1
        funext known
        split
        · rfl
        · cases c.world.db.findSubmission known.firstSubmission <;> rfl

/-- A file that is settled is settled by its row. -/
theorem ruling_settledByFile {l : Lookups} {sha256 : String}
    (h : settledByFile input sha256 c = some verdict)
    (hl : l.file = fileRow input (some sha256) c.world.db)
    (hfresh : c.evidence.agentDigest = none) : Ruling input l verdict := by
  rw [settledByFile_eq, ← hl] at h
  obtain ⟨row, hrow, h⟩ := Option.bind_eq_some_iff.mp h
  split at h
  · rename_i hminer
    cases h
    exact .replayedFile hrow hminer hfresh
  · rename_i hminer
    obtain ⟨haccepted, h⟩ := Option.ite_none_right_eq_some.mp h
    cases h
    exact .copiedFile hrow hminer haccepted

theorem unsettled_of_none {l : Lookups} {sha256 : String}
    (h : settledByFile input sha256 c = none)
    (hl : l.file = fileRow input (some sha256) c.world.db) : Unsettled input l := by
  intro row hrow
  rw [settledByFile_eq, ← hl, hrow, Option.bind_some] at h
  split at h
  · cases h
  · rename_i hminer
    split at h
    · cases h
    · rename_i haccepted
      exact ⟨hminer, haccepted⟩

/-- From the lookup of the agent on: the rulings of a check whose file settled nothing. -/
theorem ruling_ruleOn {c' : CheckState δ} {name : String} (sha256 digest : Option String)
    (hdigest : c.evidence.agentDigest = digest)
    (hfile : Unsettled input (lookupsIn c.world.db input sha256 digest))
    (h : ruleOn o py input name digest c = (.ok verdict, c')) :
    Ruling input (lookupsIn c.world.db input sha256 digest) verdict := by
  unfold ruleOn at h
  obtain ⟨c₂, c₃, hget, h⟩ := Prog.bind_eq_ok h
  cases hget
  cases hsettled : settledByDigest input digest c with
  | some known =>
    rw [hsettled] at h
    cases h
    rw [settledByDigest_eq] at hsettled
    obtain ⟨known, hknown, hsettled⟩ := Option.bind_eq_some_iff.mp hsettled
    split at hsettled
    · rename_i howner
      cases hsettled
      exact .copiedAgent hknown howner
    · rename_i howner
      obtain ⟨previous, hprevious, rfl⟩ := Option.map_eq_some_iff.mp hsettled
      refine .replayedAgent hfile hknown (not_not.mp howner) ?_ hdigest
      rw [lookupsIn, hknown]
      exact hprevious
  | none =>
    rw [hsettled] at h
    rw [settledByDigest_eq] at hsettled
    have hunknown : ∀ known, agentRow input digest c.world.db = some known →
        known.ownerMinerId = input.submission.minerId ∧
          previousRow (agentRow input digest c.world.db) c.world.db = none := by
      intro known hknown
      rw [hknown, Option.bind_some] at hsettled
      split at hsettled
      · cases hsettled
      · rename_i howner
        refine ⟨not_not.mp howner, ?_⟩
        rw [hknown]
        exact Option.map_eq_none_iff.mp hsettled
    dsimp only at h
    split at h
    · rename_i hskip
      obtain ⟨c₄, c₅, hget, h⟩ := Prog.bind_eq_ok h
      cases hget
      cases h
      refine .accepted hfile hunknown hdigest (fun _ => rfl) fun hran => ?_
      rw [hskip] at hran
      cases hran
    · rename_i hskip
      obtain ⟨_, c₄, hdry, h⟩ := Prog.bind_eq_ok h
      obtain ⟨c₅, c₆, hget, h⟩ := Prog.bind_eq_ok h
      cases hget
      cases h
      obtain ⟨hdigest', hcode⟩ := dryRunStage_ok hdry
      refine .accepted hfile hunknown (hdigest'.trans hdigest) (fun hskip' => ?_)
        fun _ => ⟨rfl, hcode⟩
      exact absurd hskip' hskip

/-- Stage INSPECT, and what is looked up and ruled after it. -/
theorem checkLoaded_eq (o : Outside δ) (py : Interpreter) (input : CheckInput) (name : String) :
    checkLoaded o py input name = inspectStage o py name >>= ruleOn o py input name := rfl

/-- From the image on: the rulings of a check whose file settled nothing. -/
theorem ruling_checkLoaded {c' : CheckState δ} {name : String} (sha256 : Option String)
    (hfresh : c.evidence.agentDigest = none)
    (hfile : ∀ digest, Unsettled input (lookupsIn c.world.db input sha256 digest))
    (h : checkLoaded o py input name c = (.ok verdict, c')) :
    ∃ digest, Ruling input (lookupsIn c.world.db input sha256 digest) verdict := by
  rw [checkLoaded_eq] at h
  obtain ⟨digest, c₁, hinspect, h⟩ := Prog.bind_eq_ok h
  refine ⟨digest, ?_⟩
  have hdb : c₁.world.db = c.world.db := by
    have hkeep : Prog.Keeps (InCheck (fun w : World δ => w.db = c.world.db) fun _ => True)
        (inspectStage o py name) := keeps_inspectStage fun _ hw => hw
    exact (hkeep.run ⟨rfl, trivial⟩ hinspect).1
  obtain ⟨-, hdigest, -⟩ := inspectStage_ok hinspect
  rw [hfresh, Option.or_none] at hdigest
  rw [← hdb] at hfile ⊢
  exact ruling_ruleOn sha256 digest hdigest (hfile digest) h

/-! ## Whole checks -/

variable {w w' : World δ}

/-- What stopped a check becomes a rejection. -/
theorem haltVerdict_ok {s : Submission} {e : Halt} {c c' : CheckState δ} {verdict : Verdict}
    (h : haltVerdict s e c = (.ok verdict, c')) :
    ∃ stage reason detail evidence, verdict = reject s stage reason detail evidence := by
  unfold haltVerdict at h
  obtain ⟨c₁, c₂, hget, h⟩ := Prog.bind_eq_ok h
  cases e with
  | stage failure =>
    cases h
    exact ⟨_, _, _, _, rfl⟩
  | raised e =>
    cases h
    exact ⟨_, _, _, _, rfl⟩

/-- A check that comes back has ruled as its stages did, or rejected what stopped them. -/
theorem runCheck_ok {stage : Stage} {stages : Check δ Verdict} {cleanup : Check δ Unit}
    {s : Submission} (h : runCheck stage (Prog.tryFinally (Prog.tryExcept stages (haltVerdict s))
      cleanup) w = (.ok verdict, w')) :
    (∃ c, stages { world := w, stage := stage } = (.ok verdict, c)) ∨
      ∃ stage reason detail evidence, verdict = reject s stage reason detail evidence := by
  obtain ⟨hvalue, -⟩ := Prod.mk.inj h
  obtain ⟨c, hstages, -⟩ := Prog.tryFinally_eq_ok (Prod.ext hvalue rfl)
  rcases Prog.tryExcept_eq_ok hstages with hstages | ⟨e, c₁, -, hhalt⟩
  · exact .inl ⟨c, hstages⟩
  · exact .inr (haltVerdict_ok hhalt)

theorem ruling_submissionStages {c' : CheckState δ} (hfresh : c.evidence.agentDigest = none)
    (h : submissionStages o py input c = (.ok verdict, c')) :
    ∃ digest, Ruling input (lookupsIn c.world.db input (submittedHash py input) digest) verdict := by
  unfold submissionStages at h
  obtain ⟨info, c₁, hfile, hrest⟩ := Prog.bind_eq_ok h
  clear h
  obtain ⟨hchecked, rfl⟩ := orFail_eq_ok hfile
  obtain ⟨_, c₂, hadd, h⟩ := Prog.bind_eq_ok hrest
  cases hadd
  obtain ⟨c₃, c₄, hget, h⟩ := Prog.bind_eq_ok h
  cases hget
  rw [submittedHash, hchecked]
  rcases hsettled : settledByFile input info.sha256 _ with _ | settled
  case some =>
    rw [hsettled] at h
    cases h
    exact ⟨none, ruling_settledByFile hsettled rfl hfresh⟩
  case none =>
    rw [hsettled] at h
    obtain ⟨_, c₅, henter, h⟩ := Prog.bind_eq_ok h
    cases henter
    obtain ⟨structure_, c₆, hstructure, h⟩ := Prog.bind_eq_ok h
    obtain ⟨-, rfl⟩ := Prod.mk.inj hstructure
    obtain ⟨_, c₇, hadd, h⟩ := Prog.bind_eq_ok h
    cases hadd
    obtain ⟨_, c₈, henter, h⟩ := Prog.bind_eq_ok h
    cases henter
    obtain ⟨ref, c₉, hloaded, hrest⟩ := Prog.bind_eq_ok h
    obtain ⟨w₉, hload, rfl⟩ := inWorld_ok hloaded
    obtain ⟨_, c₁₀, hhold, h⟩ := Prog.bind_eq_ok hrest
    cases hhold
    have hdb : w₉.db = c₁.world.db := by
      have hkeep : Prog.Keeps (fun w : World δ => w.db = c₁.world.db)
          (loadImage o input.submission.filePath) := keeps_loadImage fun _ hw => hw
      exact hkeep.run rfl hload
    have hunsettled : ∀ digest, Unsettled input (lookupsIn w₉.db input (some info.sha256) digest) :=
      fun digest => unsettled_of_none hsettled (congrArg (fileRow input _) hdb)
    have hruling := ruling_checkLoaded _ (by exact hfresh) hunsettled h
    dsimp only at hruling
    rw [hdb] at hruling
    exact hruling

theorem ruling_registryStages {c' : CheckState δ} (hfresh : c.evidence.agentDigest = none)
    (h : registryStages o py input c = (.ok verdict, c')) :
    ∃ digest, Ruling input (lookupsIn c.world.db input none digest) verdict := by
  unfold registryStages at h
  obtain ⟨_, c₁, hadd, h⟩ := Prog.bind_eq_ok h
  cases hadd
  obtain ⟨pulled, c₂, hpulled, hrest⟩ := Prog.bind_eq_ok h
  obtain ⟨w₂, hpull, rfl⟩ := inWorld_ok hpulled
  obtain ⟨_, c₃, hhold, h⟩ := Prog.bind_eq_ok hrest
  cases hhold
  obtain ⟨_, c₄, hadd, h⟩ := Prog.bind_eq_ok h
  cases hadd
  have hdb : w₂.db = c.world.db := by
    have hkeep : Prog.Keeps (fun w : World δ => w.db = c.world.db)
        (pullImage o py input.submission.filePath) := keeps_pullImage (fun _ _ hw => hw) _
    exact hkeep.run rfl hpull
  have hfile : ∀ db digest, Unsettled input (lookupsIn db input none digest) := by
    intro db digest row hrow
    simp [lookupsIn, fileRow] at hrow
  have hruling := ruling_checkLoaded none ?_ (fun digest => hfile _ digest) h
  · dsimp only at hruling
    rw [hdb] at hruling
    exact hruling
  · exact hfresh

/-- The check of a file, or of a reference. -/
def checkEntry (o : Outside δ) (py : Interpreter) (input : CheckInput) (fromRegistry : Bool) :
    Prog (World δ) Halt Verdict :=
  if fromRegistry then checkRegistrySubmission o py input else checkSubmission o py input

/-- What `check_and_record` does with a verdict. -/
def recordStep (input : CheckInput) (verdict : Verdict) : Prog (World δ) Halt (Nat × Verdict) :=
  fun w => (.ok ((recordAndRegister input.dedupe verdict w.db).1, verdict),
    { w with db := (recordAndRegister input.dedupe verdict w.db).2 })

theorem checkAndRecord_eq (input : CheckInput) (fromRegistry : Bool) :
    checkAndRecord o py input fromRegistry = checkEntry o py input fromRegistry >>= recordStep input := by
  cases fromRegistry with
  | true => rfl
  | false => rfl

theorem db_checkEntry {fromRegistry : Bool} {r : Except Halt Verdict}
    (h : checkEntry o py input fromRegistry w = (r, w')) : w'.db = w.db :=
  (keeps_entry (I := fun w' : World δ => w'.db = w.db) (fun _ _ hw => hw) input
    fromRegistry).run rfl h

/-- The rulings of a check, from lookups in the database it was called on. -/
theorem ruling_checkEntry {fromRegistry : Bool}
    (h : checkEntry o py input fromRegistry w = (.ok verdict, w')) :
    ∃ digest, Ruling input (lookupsIn w.db input (lookedUpHash py input fromRegistry) digest)
      verdict := by
  cases fromRegistry with
  | true =>
    rcases runCheck_ok h with ⟨c, hstages⟩ | ⟨stage, reason, detail, evidence, rfl⟩
    · exact ruling_registryStages rfl hstages
    · exact ⟨none, .failed⟩
  | false =>
    rcases runCheck_ok h with ⟨c, hstages⟩ | ⟨stage, reason, detail, evidence, rfl⟩
    · exact ruling_submissionStages rfl hstages
    · exact ⟨none, .failed⟩

/-- **The rulings of `check_and_record`**: what it returns is ruled from lookups in the database it
    was called on, and written to that database. -/
theorem checkAndRecord_ok {fromRegistry : Bool} {id : Nat}
    (h : checkAndRecord o py input fromRegistry w = (.ok (id, verdict), w')) :
    (∃ digest, Ruling input (lookupsIn w.db input (lookedUpHash py input fromRegistry) digest)
      verdict) ∧
      recordAndRegister input.dedupe verdict w.db = (id, w'.db) := by
  rw [checkAndRecord_eq] at h
  obtain ⟨found, w₁, hcheck, h⟩ := Prog.bind_eq_ok h
  have hdb := db_checkEntry hcheck
  cases h
  exact ⟨ruling_checkEntry hcheck, by rw [hdb]⟩

/-- A check that raises has written nothing. -/
theorem checkAndRecord_error {fromRegistry : Bool} {e : Halt}
    (h : checkAndRecord o py input fromRegistry w = (.error e, w')) : w'.db = w.db := by
  rw [checkAndRecord_eq] at h
  rcases hcheck : checkEntry o py input fromRegistry w with ⟨e' | found, w₁⟩
  · rw [Prog.bind_error hcheck] at h
    cases h
    exact db_checkEntry hcheck
  · rw [Prog.bind_ok hcheck] at h
    cases h

end TaoSubnet
