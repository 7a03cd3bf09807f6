import TaoSubnet.Lib.Runs
import TaoSubnet.Proof.Security.Records
import TaoSubnet.Proof.Security.Target

/-!
# The same bytes again

The first checkpoint knows a file by its hash, and asks the newest row of it that is neither a replay
nor a failure of ours. A copier who is turned away leaves such a row too. So the owner is recognised,
and the next copier turned away, exactly as long as that row is an acceptance, or the submitter's own
rejection as a copier.
-/

namespace TaoSubnet

open Py Machine

variable {δ : Type} {o : Outside δ} {py : Interpreter}

/-! ## Histories -/

/-- One call of `check_and_record` after the other, each of them deduped. -/
def callStep (o : Outside δ) (py : Interpreter) (w : World δ) (call : CheckInput × Bool) :
    Option (World δ) :=
  if call.1.dedupe then some (checkAndRecord o py call.1 call.2 w).2 else none

/-- Submissions of files. -/
def submitFile (o : Outside δ) (py : Interpreter) (w : World δ) (input : CheckInput) :
    Option (World δ) := callStep o py w (input, false)

theorem submitFile_some {input : CheckInput} {w w' : World δ}
    (h : submitFile o py w input = some w') :
    input.dedupe = true ∧ w' = (checkAndRecord o py input false w).2 := by
  unfold submitFile callStep at h
  dsimp only at h
  split at h
  · rename_i hdedupe
    cases h
    exact ⟨hdedupe, rfl⟩
  · cases h

/-! ## What the log says of some bytes -/

/-- The bytes were accepted for `miner`. -/
def AcceptedFor (db : Db) (sha256 miner : String) : Prop :=
  ∃ row ∈ db.submissions, row.verdict.fileSha256 = some sha256 ∧
    row.verdict.status = .accepted ∧ row.verdict.minerId = miner

/-- A rejection as a copy, naming a submission of `owner`. -/
def CopyOf (db : Db) (owner : String) (verdict : Verdict) : Prop :=
  verdict.status = .rejected ∧ verdict.rejectReason = some .duplicateAgent ∧
    ∃ row ∈ db.submissions, row.verdict.minerId = owner ∧ verdict.errorDetail =
      some ("already submitted by " ++ owner ++ " (submission " ++ toString row.id ++ ")")

/-- The newest row of the bytes that a lookup may return is an acceptance, or the submitter's own
    rejection as a copy of `owner`'s. -/
def Recognised (db : Db) (sha256 miner owner : String) : Prop :=
  ∃ row, db.findByFileSha256 sha256 = some row ∧ (row.verdict.status = .accepted ∨
    (row.verdict.minerId = miner ∧ miner ≠ owner ∧ CopyOf db owner row.verdict))

/-- A call that came back with `verdict` without asking Docker anything, and settled at stage FILE. -/
def SettledAtFile (o : Outside δ) (py : Interpreter)
    (t : Transition (World δ) CheckInput) (verdict : Verdict) : Prop :=
  (∃ id, (checkAndRecord o py t.action false t.before).1 = .ok (id, verdict)) ∧
    t.after.trace = t.before.trace ∧
    (verdict.fromCache = true ∨ verdict.stageReached = .file)

/-- The owner's submission is replayed from cache, and everyone else's is rejected as a copy of it. -/
def SettledFor (o : Outside δ) (py : Interpreter) (t : Transition (World δ) CheckInput)
    (owner : String) : Prop :=
  ∃ verdict, SettledAtFile o py t verdict ∧
    if t.action.submission.minerId = owner then
      verdict.fromCache = true ∧ verdict.status = .accepted
    else CopyOf t.before.db owner verdict

/-! ## A check of a file, up to the lookup -/

variable {input : CheckInput} {info : FileInfo} {w w' : World δ}

/-- The state of a check that has looked at its file. -/
def afterFile (info : FileInfo) (w : World δ) : CheckState δ where
  world := w
  stage := .file
  evidence := { fileSha256 := some info.sha256, fileSize := some info.size }

/-- The rest of a check, once its file settled nothing. -/
def fromStructure (o : Outside δ) (py : Interpreter) (input : CheckInput) : Check δ Verdict := do
  enterStage .structure
  let structure_ ← Prog.ofExcept (checkStructure py input.archive)
  addEvidence { repoTags := listOrNone structure_.repoTags, layerCount := structure_.layerCount }
  enterStage .load
  let ref ← inWorld (loadImage o input.submission.filePath)
  holdImage ref
  checkLoaded o py input ref

theorem submissionStages_eq (h : checkFile py input.submission.filePath input.content = .ok info) :
    submissionStages o py input { world := w, stage := .file } =
      (match settledByFile input info.sha256 (afterFile info w) with
        | some verdict => return verdict
        | none => fromStructure o py input : Check δ Verdict) (afterFile info w) := by
  unfold submissionStages
  rw [h]
  rfl

/-- A file that is settled has asked Docker nothing. -/
theorem checkSubmission_settled {verdict : Verdict}
    (h : checkFile py input.submission.filePath input.content = .ok info)
    (hsettled : settledByFile input info.sha256 (afterFile info w) = some verdict) :
    checkSubmission o py input w = (.ok verdict, w) := by
  have hstages : submissionStages o py input { world := w, stage := .file } =
      (.ok verdict, afterFile info w) := by
    rw [submissionStages_eq h, hsettled]
    rfl
  unfold checkSubmission runCheck
  rw [Prog.tryFinally, Prog.tryExcept_ok hstages]
  rfl

/-! ## From the lookup on -/

/-- More commands were issued than `n`. -/
def Asked (n : Nat) (w : World δ) : Prop := n < w.trace.length

theorem asked_docker (n : Nat) (args : List String) :
    Prog.Keeps (Asked n) (docker o args) := by
  intro w hw
  show n < (w.trace ++ _).length
  rw [List.length_append]
  exact Nat.lt_add_right _ hw

theorem asked_runDocker (args : List String) (timeoutS : Nat) (reason : RejectReason) (w : World δ) :
    Asked w.trace.length (runDocker o args timeoutS reason w).2 := by
  have hasked : Asked w.trace.length (docker o args w).2 := by
    show w.trace.length < (w.trace ++ _).length
    rw [List.length_append]
    exact Nat.lt_succ_self _
  unfold runDocker
  rcases hd : docker o args w with ⟨e | result, w'⟩ <;> rw [hd] at hasked
  · exact hasked
  · dsimp only
    split
    · exact hasked
    · exact hasked

theorem asked_loadImage (path : String) (w : World δ) :
    Asked w.trace.length (loadImage o path w).2 := by
  have hasked := asked_runDocker (o := o) (loadArgs path) DOCKER_LOAD_TIMEOUT_S .loadFailed w
  unfold loadImage
  rcases hr : runDocker o (loadArgs path) DOCKER_LOAD_TIMEOUT_S .loadFailed w with ⟨e | result, w'⟩
  · rw [hr] at hasked
    rw [Prog.bind_error hr]
    exact hasked
  · rw [hr] at hasked
    rw [Prog.bind_ok hr]
    -- nothing after the load asks Docker
    refine Prog.Keeps.ite (keeps_failStage _ _) ?_ w' hasked
    cases reportedRef result with
    | some ref => exact keeps_assertSafeImageRef _
    | none => exact keeps_failStage _ _

/-- The load is the first command of a check, and what follows it only adds to the trace. -/
theorem asked_fromStructure {found : StructureInfo} (n : Nat)
    (h : checkStructure py input.archive = .ok found) :
    Prog.Spec (fun c : CheckState δ => c.world.trace.length = n) (fromStructure o py input)
      (fun _ => InCheck (Asked n) fun _ => True) fun _ => InCheck (Asked n) fun _ => True := by
  unfold fromStructure
  rw [h]
  refine .bind (Q := fun _ (c : CheckState δ) => c.world.trace.length = n) (fun _ hc => hc) fun _ => ?_
  refine .bind (Q := fun _ (c : CheckState δ) => c.world.trace.length = n) (fun _ hc => hc) fun structure_ => ?_
  refine .bind (Q := fun _ (c : CheckState δ) => c.world.trace.length = n) (fun _ hc => hc) fun _ => ?_
  refine .bind (Q := fun _ (c : CheckState δ) => c.world.trace.length = n) (fun _ hc => hc) fun _ => ?_
  refine .bind (Q := fun _ => InCheck (Asked n) fun _ => True) ?_ fun ref => ?_
  · intro c hc
    have hload := asked_loadImage (o := o) input.submission.filePath c.world
    rw [hc] at hload
    unfold inWorld
    rcases hl : loadImage o input.submission.filePath c.world with ⟨e | ref, w₁⟩
    · rw [hl] at hload
      exact ⟨hload, trivial⟩
    · rw [hl] at hload
      exact ⟨hload, trivial⟩
  · refine Prog.Keeps.spec ?_ fun _ _ hc => hc
    refine .bind (.modify fun _ hc => ⟨hc.1, trivial⟩) fun _ => ?_
    exact keeps_checkLoaded_dry (asked_docker n) input ref

/-- A structure that is refused is what an unsettled file ends with. -/
theorem submissionStages_misstructured {e : Halt}
    (h : checkFile py input.submission.filePath input.content = .ok info)
    (hsettled : settledByFile input info.sha256 (afterFile info w) = none)
    (hstructure : checkStructure py input.archive = .error e) :
    submissionStages o py input { world := w, stage := .file } =
      (.error e, { afterFile info w with stage := .structure }) := by
  rw [submissionStages_eq h, hsettled]
  show fromStructure o py input (afterFile info w) = _
  unfold fromStructure
  rw [hstructure]
  rfl

/-- A file that is not settled is asked of Docker, or was rejected for its structure. -/
theorem checkSubmission_unsettled
    (h : checkFile py input.submission.filePath input.content = .ok info)
    (hsettled : settledByFile input info.sha256 (afterFile info w) = none) :
    Asked w.trace.length (checkSubmission o py input w).2 ∨
      ∃ verdict, (checkSubmission o py input w).1 = .ok verdict ∧ verdict.fromCache = false ∧
        verdict.stageReached = .structure := by
  have hstages := submissionStages_eq (o := o) (w := w) h
  rw [hsettled] at hstages
  cases hstructure : checkStructure py input.archive with
  | error e =>
    right
    have hraised := submissionStages_misstructured (o := o) h hsettled hstructure
    unfold checkSubmission runCheck
    rw [Prog.tryFinally, Prog.tryExcept_error hraised]
    cases e with
    | stage failure => exact ⟨_, rfl, rfl, rfl⟩
    | raised e => exact ⟨_, rfl, rfl, rfl⟩
  | ok found =>
    left
    have hasked : Prog.Spec (fun c : CheckState δ => c = { world := w, stage := .file })
        (submissionStages o py input) (fun _ => InCheck (Asked w.trace.length) fun _ => True)
        fun _ => InCheck (Asked w.trace.length) fun _ => True := by
      intro c hc
      rw [hc, hstages]
      exact asked_fromStructure w.trace.length hstructure (afterFile info w) rfl
    have hhalt := hasked.tryExcept fun e =>
      (keeps_haltVerdict input.submission e).spec fun _ _ hc => hc
    have hdrop : Prog.Keeps (InCheck (Asked w.trace.length) fun _ => True)
        (dropImage o input.keepImage : Check δ Unit) :=
      keeps_dropImage (fun ref _ => asked_docker _ _) _
    have hwhole := hhalt.tryFinally (fun _ => hdrop.spec fun _ _ hc => hc)
      fun _ => hdrop.spec fun _ _ hc => hc
    have hend := hwhole _ rfl
    unfold checkSubmission runCheck
    split at hend
    · rename_i hrun
      rw [hrun]
      exact hend.1
    · rename_i hrun
      rw [hrun]
      exact hend.1

/-! ## The hash that is recorded -/

/-- The hash a check established stays in its evidence. -/
def HasHash (sha256 : String) (c : CheckState δ) : Prop := c.evidence.fileSha256 = some sha256

theorem keeps_hash_add {sha256 : String} {new : Evidence} (h : new.fileSha256 = none) :
    Prog.Keeps (HasHash sha256) (addEvidence new : Check δ Unit) := by
  intro c hc
  show (c.evidence.add new).fileSha256 = some sha256
  rw [Evidence.add, h, Option.none_or]
  exact hc

theorem keeps_hash_inspectStage (sha256 name : String) :
    Prog.Keeps (HasHash sha256) (inspectStage o py name) := by
  unfold inspectStage
  refine .bind (.modify fun _ hc => hc) fun _ => ?_
  refine .bind (fun _ hc => hc) fun image => ?_
  refine .bind (keeps_hash_add rfl) fun _ => ?_
  refine .bind (keeps_orFail _) fun _ => ?_
  refine .bind (keeps_orFail _) fun entrypoint => ?_
  refine .bind (keeps_hash_add rfl) fun _ => ?_
  refine .bind (fun _ hc => hc) fun agentDigest => ?_
  exact .bind (keeps_hash_add rfl) fun _ => .ret _

theorem keeps_hash_dryRunStage (py : Interpreter) (sha256 name : String) (durationMs : Int) :
    Prog.Keeps (HasHash sha256) (dryRunStage o py name durationMs) := by
  unfold dryRunStage
  refine .bind (.modify fun _ hc => hc) fun _ => ?_
  refine .bind (fun _ hc => hc) fun outcome => ?_
  exact .bind (keeps_hash_add rfl) fun _ => keeps_orFail _

theorem hash_cachedVerdict {row : SubmissionRow} {s : Submission} {measured : Evidence}
    {sha256 : String} (h : measured.fileSha256 = some sha256) :
    (cachedVerdict row s measured).fileSha256 = some sha256 := by
  show measured.fileSha256.or row.verdict.fileSha256 = some sha256
  rw [h, Option.some_or]

theorem hash_settledByFile {sha256 known : String} {c : CheckState δ} {verdict : Verdict}
    (hc : HasHash sha256 c) (h : settledByFile input known c = some verdict) :
    verdict.fileSha256 = some sha256 := by
  rw [settledByFile_eq] at h
  obtain ⟨row, -, h⟩ := Option.bind_eq_some_iff.mp h
  split at h
  · cases h
    exact hash_cachedVerdict hc
  · obtain ⟨-, h⟩ := Option.ite_none_right_eq_some.mp h
    cases h
    exact hc

theorem hash_settledByDigest {sha256 : String} {digest : Option String} {c : CheckState δ}
    {verdict : Verdict} (hc : HasHash sha256 c)
    (h : settledByDigest input digest c = some verdict) : verdict.fileSha256 = some sha256 := by
  rw [settledByDigest_eq] at h
  obtain ⟨known, -, h⟩ := Option.bind_eq_some_iff.mp h
  split at h
  · cases h
    exact hc
  · obtain ⟨row, -, rfl⟩ := Option.map_eq_some_iff.mp h
    exact hash_cachedVerdict hc

/-- A check of a loaded image rules on the file with the hash it has. -/
theorem hash_checkLoaded (sha256 name : String) :
    Prog.Spec (HasHash sha256) (checkLoaded o py input name)
      (fun verdict _ => verdict.fileSha256 = some sha256) fun _ _ => True := by
  unfold checkLoaded
  refine .bind ((keeps_hash_inspectStage sha256 name).spec fun _ _ _ => trivial) fun digest => ?_
  refine .bind (Q := fun c₀ c => HasHash sha256 c₀ ∧ HasHash sha256 c) (fun _ hc => ⟨hc, hc⟩)
    fun c₀ => ?_
  cases hsettled : settledByDigest input digest c₀ with
  | some verdict => exact .ret fun _ hc => hash_settledByDigest hc.1 hsettled
  | none =>
    have haccept : ∀ stage, Prog.Spec (HasHash sha256)
        (Prog.get >>= fun c : CheckState δ =>
          (return accept input.submission stage c.evidence : Check δ Verdict))
        (fun verdict _ => verdict.fileSha256 = some sha256) fun _ _ => True := by
      intro stage c hc
      exact hc
    refine .ite ((haccept _).conseq (fun _ hc => hc.2) (fun _ _ h => h) fun _ _ h => h) ?_
    refine .bind (Q := fun _ => HasHash sha256) ?_ fun _ => haccept _
    have hkeep := keeps_hash_dryRunStage (o := o) py sha256 name input.dryRunMs
    exact (hkeep.spec fun _ _ _ => trivial).conseq (fun _ hc => hc.2) (fun _ _ h => h)
      fun _ _ h => h

/-- What is accepted from a file is recorded under the hash of that file. -/
theorem hash_of_accepted {verdict : Verdict} (h : checkSubmission o py input w = (.ok verdict, w'))
    (haccepted : verdict.status = .accepted) :
    ∃ sha256, submittedHash py input = some sha256 ∧ verdict.fileSha256 = some sha256 := by
  rcases runCheck_ok h with ⟨c, hstages⟩ | ⟨stage, reason, detail, evidence, rfl⟩
  · cases hfile : checkFile py input.submission.filePath input.content with
    | error failure =>
      unfold submissionStages at hstages
      rw [hfile] at hstages
      cases hstages
    | ok info =>
      refine ⟨info.sha256, by rw [submittedHash, hfile], ?_⟩
      rw [submissionStages_eq hfile] at hstages
      have hhash : HasHash info.sha256 (afterFile info w) := rfl
      cases hsettled : settledByFile input info.sha256 (afterFile info w) with
      | some settled =>
        rw [hsettled] at hstages
        cases hstages
        exact hash_settledByFile hhash hsettled
      | none =>
        rw [hsettled] at hstages
        have hrest : Prog.Spec (HasHash info.sha256) (fromStructure o py input)
            (fun verdict _ => verdict.fileSha256 = some info.sha256) fun _ _ => True := by
          have htrue : ∀ {α : Type} {x : Check δ α}, Prog.Keeps (HasHash info.sha256) x →
              Prog.Spec (HasHash info.sha256) x (fun _ => HasHash info.sha256) fun _ _ => True :=
            fun hx => hx.spec fun _ _ _ => trivial
          unfold fromStructure
          refine .bind (htrue (.modify fun _ hc => hc)) fun _ => ?_
          refine .bind (htrue (.ofExcept _)) fun found => ?_
          refine .bind (htrue (keeps_hash_add rfl)) fun _ => ?_
          refine .bind (htrue (.modify fun _ hc => hc)) fun _ => ?_
          refine .bind (htrue fun _ hc => hc) fun ref => ?_
          exact .bind (htrue (.modify fun _ hc => hc)) fun _ => hash_checkLoaded _ ref
        have hran : fromStructure o py input (afterFile info w) = (.ok verdict, c) := hstages
        have hend := hrest _ hhash
        rw [hran] at hend
        exact hend
  · cases haccepted

/-! ## One submission -/

/-- `check_and_record` of a file issues the commands of its check. -/
theorem checkAndRecord_file (py : Interpreter) (input : CheckInput) (w : World δ) :
    (checkAndRecord o py input false w).2.trace = (checkSubmission o py input w).2.trace ∧
      ((∃ e, (checkSubmission o py input w).1 = .error e ∧
          (checkAndRecord o py input false w).1 = .error e) ∨
        ∃ id verdict, (checkSubmission o py input w).1 = .ok verdict ∧
          (checkAndRecord o py input false w).1 = .ok (id, verdict)) := by
  rw [checkAndRecord_eq]
  show ((checkSubmission o py input >>= recordStep input) w).2.trace = _ ∧ _
  rcases hcheck : checkSubmission o py input w with ⟨e | verdict, w'⟩
  · have hentry : checkEntry o py input false w = (.error e, w') := hcheck
    rw [Prog.bind_error hcheck, Prog.bind_error hentry]
    exact ⟨rfl, .inl ⟨e, rfl, rfl⟩⟩
  · have hentry : checkEntry o py input false w = (.ok verdict, w') := hcheck
    rw [Prog.bind_ok hcheck, Prog.bind_ok hentry]
    exact ⟨rfl, .inr ⟨_, verdict, rfl, rfl⟩⟩

variable {t : Transition (World δ) CheckInput} {sha256 owner : String}

/-- **What a lookup settles**, in the words of the log. -/
theorem settledFor_of_recognised (hstep : submitFile o py t.before t.action = some t.after)
    (hhash : submittedHash py t.action = some sha256)
    (howner : ∀ miner, AcceptedFor t.before.db sha256 miner → miner = owner)
    (h : Recognised t.before.db sha256 t.action.submission.minerId owner) :
    SettledFor o py t owner := by
  obtain ⟨hdedupe, hafter⟩ := submitFile_some hstep
  obtain ⟨info, hfile, rfl⟩ := submittedHash_some hhash
  obtain ⟨row, hrow, hcase⟩ := h
  obtain ⟨hmem, hrowHash, -⟩ := findByFileSha256_mem hrow
  have hlookup := settledByFile_eq t.action info.sha256 (afterFile info t.before)
  have hfound : fileRow t.action (some info.sha256) (afterFile info t.before).world.db =
      some row := by
    rw [fileRow, if_pos hdedupe]
    exact hrow
  rw [hfound, Option.bind_some] at hlookup
  -- A check that is settled here returns at once.
  have hsettled : ∀ verdict, settledByFile t.action info.sha256 (afterFile info t.before) =
      some verdict → (verdict.fromCache = true ∨ verdict.stageReached = .file) →
      SettledAtFile o py t verdict := by
    intro verdict hverdict hstage
    have hcheck := checkSubmission_settled (o := o) hfile hverdict
    obtain ⟨htrace, hresult⟩ := checkAndRecord_file (o := o) py t.action t.before
    rw [hcheck] at htrace hresult
    refine ⟨?_, ?_, hstage⟩
    · rcases hresult with ⟨e, he, -⟩ | ⟨id, found, hfound, hresult⟩
      · cases he
      · cases hfound
        exact ⟨id, hresult⟩
    · rw [hafter]
      exact htrace
  by_cases hown : row.verdict.minerId = t.action.submission.minerId
  · rw [if_pos hown] at hlookup
    refine ⟨_, hsettled _ hlookup (.inl rfl), ?_⟩
    rcases hcase with haccepted | ⟨-, hother, hcopy⟩
    · have hminer := howner _ ⟨row, hmem, hrowHash, haccepted, rfl⟩
      rw [if_pos (hown.symm.trans hminer)]
      exact ⟨rfl, haccepted⟩
    · rw [if_neg hother]
      exact hcopy
  · rw [if_neg hown] at hlookup
    rcases hcase with haccepted | ⟨hself, -⟩
    · rw [if_pos haccepted] at hlookup
      refine ⟨_, hsettled _ hlookup (.inr rfl), ?_⟩
      have hminer := howner _ ⟨row, hmem, hrowHash, haccepted, rfl⟩
      have hother : t.action.submission.minerId ≠ owner := by
        intro h
        exact hown (hminer.trans h.symm)
      rw [if_neg hother]
      refine ⟨rfl, rfl, row, hmem, hminer, ?_⟩
      rw [← hminer]
      rfl
    · exact absurd hself hown

theorem recognised_of_settledFor (hstep : submitFile o py t.before t.action = some t.after)
    (hhash : submittedHash py t.action = some sha256) (h : SettledFor o py t owner) :
    Recognised t.before.db sha256 t.action.submission.minerId owner := by
  obtain ⟨hdedupe, hafter⟩ := submitFile_some hstep
  obtain ⟨info, hfile, rfl⟩ := submittedHash_some hhash
  obtain ⟨verdict, ⟨⟨id, hran⟩, hquiet, hstage⟩, hverdict⟩ := h
  obtain ⟨htrace, hresult⟩ := checkAndRecord_file (o := o) py t.action t.before
  have hcheck : (checkSubmission o py t.action t.before).1 = .ok verdict := by
    rcases hresult with ⟨e, -, he⟩ | ⟨id', found, hfound, hresult⟩
    · rw [hran] at he
      cases he
    · rw [hran] at hresult
      cases hresult
      exact hfound
  cases hsettled : settledByFile t.action info.sha256 (afterFile info t.before) with
  | none =>
    rcases checkSubmission_unsettled (o := o) hfile hsettled with
      hasked | ⟨found, hfound, hfresh, hreached⟩
    · rw [hafter, htrace] at hquiet
      rw [Asked, hquiet] at hasked
      exact absurd hasked (Nat.lt_irrefl _)
    · rw [hcheck] at hfound
      cases hfound
      rw [hfresh, hreached] at hstage
      rcases hstage with hcached | hfileStage
      · cases hcached
      · cases hfileStage
  | some settled =>
    rw [checkSubmission_settled hfile hsettled] at hcheck
    cases hcheck
    rw [settledByFile_eq, fileRow, if_pos hdedupe] at hsettled
    obtain ⟨row, hrow, hsettled⟩ := Option.bind_eq_some_iff.mp hsettled
    refine ⟨row, hrow, ?_⟩
    split at hsettled
    · rename_i hown
      cases hsettled
      split at hverdict
      · exact .inl hverdict.2
      · rename_i hother
        exact .inr ⟨hown, hother, hverdict⟩
    · obtain ⟨haccepted, -⟩ := Option.ite_none_right_eq_some.mp hsettled
      exact .inl haccepted

/-! ## Whole histories -/

/-- No two miners had the same bytes accepted. -/
def OneOwner (db : Db) : Prop :=
  ∀ sha256 miner miner', AcceptedFor db sha256 miner → AcceptedFor db sha256 miner' → miner = miner'

/-- What a submission adds to the acceptances on record is its own. -/
theorem acceptedFor_after (hstep : submitFile o py t.before t.action = some t.after)
    {miner : String} (h : AcceptedFor t.after.db sha256 miner) :
    AcceptedFor t.before.db sha256 miner ∨
      (submittedHash py t.action = some sha256 ∧ t.action.submission.minerId = miner ∧
        ∃ id verdict, (checkAndRecord o py t.action false t.before).1 = .ok (id, verdict) ∧
          verdict.status = .accepted) := by
  obtain ⟨-, hafter⟩ := submitFile_some hstep
  rcases hrun : checkAndRecord o py t.action false t.before with ⟨e | ⟨id, verdict⟩, w'⟩
  · rw [hafter, hrun] at h
    dsimp only at h
    rw [checkAndRecord_error hrun] at h
    exact .inl h
  · obtain ⟨row, hrow, hhash, haccepted, hminer⟩ := h
    obtain ⟨⟨_, hruling⟩, hdb⟩ := checkAndRecord_ok hrun
    have hrows := recordAndRegister_submissions t.action.dedupe verdict t.before.db
    rw [hdb] at hrows
    rw [hafter, hrun, hrows] at hrow
    rcases List.mem_append.mp hrow with hold | hnew
    · exact .inl ⟨row, hold, hhash, haccepted, hminer⟩
    · cases List.mem_singleton.mp hnew
      right
      have hentry := hrun
      rw [checkAndRecord_eq] at hentry
      obtain ⟨found, w₁, hcheck, hrecord⟩ := Prog.bind_eq_ok hentry
      cases hrecord
      obtain ⟨known, hknown, hsame⟩ := hash_of_accepted hcheck haccepted
      rw [hsame] at hhash
      cases hhash
      exact ⟨hknown, hruling.minerId.symm.trans hminer, _, _, rfl, haccepted⟩

/-- The condition on a submission: its bytes are recognised, if they were accepted before. -/
def RecognisedIn (py : Interpreter) (t : Transition (World δ) CheckInput) : Prop :=
  ∀ sha256 owner, submittedHash py t.action = some sha256 → AcceptedFor t.before.db sha256 owner →
    Recognised t.before.db sha256 t.action.submission.minerId owner

theorem oneOwner_step (t : Transition (World δ) CheckInput)
    (hstep : submitFile o py t.before t.action = some t.after) (hone : OneOwner t.before.db)
    (hrec : RecognisedIn py t) : OneOwner t.after.db := by
  -- A new acceptance is the owner's, where there is one.
  have hnew : ∀ sha256 miner, submittedHash py t.action = some sha256 →
      AcceptedFor t.before.db sha256 miner →
      (∃ id verdict, (checkAndRecord o py t.action false t.before).1 = .ok (id, verdict) ∧
        verdict.status = .accepted) → t.action.submission.minerId = miner := by
    rintro sha256 miner hhash hold ⟨id, verdict, hran, haccepted⟩
    obtain ⟨settled, ⟨⟨id', hran'⟩, -⟩, hsettled⟩ := settledFor_of_recognised hstep hhash
      (fun _ hother => hone _ _ _ hother hold) (hrec _ _ hhash hold)
    rw [hran] at hran'
    cases hran'
    by_contra hother
    rw [if_neg hother] at hsettled
    rw [hsettled.1] at haccepted
    cases haccepted
  intro sha256 miner miner' h h'
  rcases acceptedFor_after hstep h with hold | ⟨hhash, hminer, hran⟩
  · rcases acceptedFor_after hstep h' with hold' | ⟨hhash, hminer', hran⟩
    · exact hone _ _ _ hold hold'
    · exact (hnew _ _ hhash hold hran).symm.trans hminer'
  · rcases acceptedFor_after hstep h' with hold' | ⟨-, hminer', -⟩
    · exact hminer.symm.trans (hnew _ _ hhash hold' hran)
    · exact hminer.symm.trans hminer'

/-- **Bytes that were accepted are settled at stage FILE**, for their owner and for every copier, in
    exactly the histories in which each of their later submissions is recognised. -/
theorem settled_at_file_iff (o : Outside δ) (py : Interpreter) (d : δ) (actions : List CheckInput) :
    (∀ t ∈ transitions (submitFile o py) { outside := d } actions, ∀ sha256 owner,
      submittedHash py t.action = some sha256 → AcceptedFor t.before.db sha256 owner →
        SettledFor o py t owner) ↔
      ∀ t ∈ transitions (submitFile o py) { outside := d } actions, RecognisedIn py t := by
  constructor
  · intro h t ht sha256 owner hhash haccepted
    exact recognised_of_settledFor (step_of_mem t ht) hhash (h t ht sha256 owner hhash haccepted)
  · intro h t ht sha256 owner hhash haccepted
    have hstart : OneOwner ({ outside := d } : World δ).db := by
      rintro sha256 miner miner' ⟨row, hrow, -⟩
      cases hrow
    have hone : OneOwner t.before.db :=
      invariant (I := fun w : World δ => OneOwner w.db) (G := RecognisedIn py)
        (fun t hstep => oneOwner_step t hstep) hstart h t ht
    exact settledFor_of_recognised (step_of_mem t ht) hhash
      (fun miner hminer => hone _ _ _ hminer haccepted) (h t ht sha256 owner hhash haccepted)

/-! ## A copier in between -/

/-- Who had an accepted file when Docker was asked about the hash `sha256` of another one. -/
def askedAgain (py : Interpreter) (t : Transition (World δ) CheckInput) : List (Option String × String) :=
  if t.before.trace.length < t.after.trace.length then
    (t.before.db.submissions.filter fun row => row.verdict.accepted &&
      row.verdict.fileSha256 == submittedHash py t.action).map fun row =>
        (submittedHash py t.action, row.verdict.minerId)
  else []

/-- The owner's own bytes go through Docker again once a copier was turned away. -/
theorem copier_hides_owner :
    ¬ ∀ (o : Outside BoundTags) (py : Interpreter) (d : BoundTags) (actions : List CheckInput),
      ∀ t ∈ transitions (submitFile o py) { outside := d } actions, ∀ sha256 owner,
        submittedHash py t.action = some sha256 → AcceptedFor t.before.db sha256 owner →
          SettledFor o py t owner := by
  intro h
  let run := transitions (submitFile plainOutside plainInterpreter) { outside := [] }
    [plainFile "5A", plainFile "5B", plainFile "5A"]
  have hasked : run.any (fun t => askedAgain plainInterpreter t ==
      [(some "1930a0e0964dfcbe526f4e42e5a9fd34deebcd31e1e4519d7ede4b2cf7c08618", "5A")]) = true := by
    decide +kernel
  obtain ⟨t, hmem, ht⟩ := List.any_eq_true.mp hasked
  rw [beq_iff_eq] at ht
  unfold askedAgain at ht
  split at ht
  · rename_i hgrown
    obtain ⟨row, hrow, hsame⟩ := List.mem_map.mp (ht ▸ List.mem_singleton_self _)
    obtain ⟨hold, haccepted⟩ := List.mem_filter.mp hrow
    rw [Bool.and_eq_true, beq_iff_eq] at haccepted
    obtain ⟨hhash, hminer⟩ := Prod.mk.inj hsame
    have haccepted' : row.verdict.status = .accepted := by
      have := haccepted.1
      unfold Verdict.accepted at this
      simpa using this
    obtain ⟨verdict, ⟨-, hquiet, -⟩, -⟩ := h _ _ _ _ t hmem _ "5A" hhash
      ⟨row, hold, haccepted.2.trans hhash, haccepted', hminer⟩
    rw [hquiet] at hgrown
    exact absurd hgrown (Nat.lt_irrefl _)
  · cases ht

end TaoSubnet
