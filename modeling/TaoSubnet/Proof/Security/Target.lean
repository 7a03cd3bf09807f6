import TaoSubnet.Proof.Security.Frames
import TaoSubnet.Proof.Security.Teardown

/-!
# The target's tag

Every run starts its target by tag, and every submission's archive is loaded with the tags its
author wrote in it. What Docker does with tags is assumed here (`TagLaws`). Under it, the tag stays
with the validator's own image through any sequence of archives none of which carries that tag —
and an archive that does carry it takes it.
-/

namespace TaoSubnet

open Py

variable {δ ι : Type} {o : Outside δ} {py : Interpreter}

/-- Docker's way with the target's tag: `bound` is the image it stands for, `own` the validator's
    own, with the id `ownId`. `contents` is what lies at a path, `tagsOf` the tags Docker binds when
    it loads an archive, `idOf` the id of the image in it. -/
structure TagLaws (o : Outside δ) (bound : δ → Option ι) (own : ι) (ownId : String)
    (contents : String → List UInt8) (tagsOf : List UInt8 → List String)
    (idOf : List UInt8 → String) : Prop where
  http : ∀ d request, bound (o.http d request).2 = bound d
  run : ∀ d args, args.headD "" ∈ RUN_VERBS → bound d = some own →
    bound (o.docker d args).2 = some own
  inspect : ∀ d ref, bound (o.docker d (inspectArgs ref)).2 = bound d
  /-- A load binds the tags of the archive, and no others. -/
  load : ∀ d path, TARGET_IMAGE ∉ tagsOf (contents path) →
    bound (o.docker d (loadArgs path)).2 = bound d
  /-- It reports one of them, or the id of an image that has none. -/
  report : ∀ d path result ref, (o.docker d (loadArgs path)).1 = .ok result →
    reportedRef result = some ref → ref ∈ tagsOf (contents path) ∨ ref = idOf (contents path)
  /-- Removing another tag, or another image by its id, leaves the target's tag alone. -/
  remove : ∀ d ref, ref ≠ TARGET_IMAGE → ref ≠ ownId → bound d = some own →
    bound (o.docker d (imageRemoveArgs ref)).2 = some own

/-- The command starts a target container. -/
def startsTarget (args : List String) : Bool :=
  args.head? = some "run" && args.getLast? = some TARGET_IMAGE

theorem startsTarget_targetRunArgs (input : JobInput) : startsTarget (targetRunArgs input) = true := by
  have hlast : (targetRunArgs input).getLast? = some TARGET_IMAGE := by
    rw [targetRunArgs, List.getLast?_append]
    rfl
  rw [startsTarget, hlast]
  rfl

theorem startsTarget_replayTargetArgs (seed : ReplaySeed) (challenge : Challenge) :
    startsTarget (replayTargetArgs seed challenge) = true := by
  have hlast : (replayTargetArgs seed challenge).getLast? = some TARGET_IMAGE := by
    rw [replayTargetArgs, List.getLast?_append]
    rfl
  rw [startsTarget, hlast]
  rfl

/-- Submissions one after the other, as a round takes them: what one of them raises ends only its
    own evaluation. -/
def evaluateBlobs (o : Outside δ) (py : Interpreter) (inputs : List BlobInput) :
    Prog (World δ) Halt Unit :=
  Prog.forEach inputs fun input =>
    Prog.tryExcept
      (do
        let _ ← evaluateBlob o py input
        return ())
      (fun _ => return ())

/-! ## The invariant -/

/-- The tag stands for the validator's own image, and did whenever a command was issued. -/
def TargetOwn (bound : δ → Option ι) (own : ι) (w : World δ) : Prop :=
  bound w.outside = some own ∧ ∀ d args, Event.docker d args ∈ w.trace → bound d = some own

/-- A reference whose removal cannot concern the target. -/
def Foreign (ownId ref : String) : Prop := ref ≠ TARGET_IMAGE ∧ ref ≠ ownId

/-- An archive with neither the target's tag nor its id among its names. -/
def Harmless (ownId : String) (tagsOf : List UInt8 → List String) (idOf : List UInt8 → String)
    (tar : List UInt8) : Prop := ∀ name ∈ idOf tar :: tagsOf tar, Foreign ownId name

variable {bound : δ → Option ι} {own : ι} {ownId : String} {contents : String → List UInt8}
variable {tagsOf : List UInt8 → List String} {idOf : List UInt8 → String}

theorem targetOwn_docker {args : List String}
    (h : ∀ d, bound d = some own → bound (o.docker d args).2 = some own) :
    Prog.Keeps (TargetOwn bound own) (docker o args) := by
  rintro w ⟨hnow, hthen⟩
  refine ⟨h w.outside hnow, ?_⟩
  intro d args' hmem
  rcases List.mem_append.mp hmem with hold | hnew
  · exact hthen d args' hold
  · simp only [List.mem_singleton, Event.docker.injEq] at hnew
    obtain ⟨rfl, -⟩ := hnew
    exact hnow

theorem runDocker_ok {args : List String} {timeoutS : Nat} {reason : RejectReason}
    {w w' : World δ} {result : CompletedProcess}
    (h : runDocker o args timeoutS reason w = (.ok result, w')) :
    (o.docker w.outside args).1 = .ok result := by
  unfold runDocker docker at h
  rcases hd : (o.docker w.outside args).1 with e | r <;> rw [hd] at h
  · cases h
  · dsimp only at h
    split at h
    · cases h
    · cases h
      rfl

theorem assertSafeImageRef_ok {ref found : String} {w w' : World δ}
    (h : assertSafeImageRef ref w = (.ok found, w')) : found = ref ∧ isSafeImageRef ref = true := by
  unfold assertSafeImageRef at h
  split at h
  · rename_i hsafe
    cases h
    exact ⟨rfl, hsafe⟩
  · cases h

/-- A load that returns a reference was reported it by a command that ended well. -/
theorem loadImage_ok {path : String} {w w' : World δ} {ref : String}
    (h : loadImage o path w = (.ok ref, w')) :
    ∃ result, (o.docker w.outside (loadArgs path)).1 = .ok result ∧ result.returncode = 0 ∧
      reportedRef result = some ref ∧ isSafeImageRef ref = true := by
  unfold loadImage at h
  obtain ⟨result, w₁, hrun, h⟩ := Prog.bind_eq_ok h
  refine ⟨result, runDocker_ok hrun, ?_⟩
  split at h
  · cases h
  · rename_i hzero
    refine ⟨not_not.mp hzero, ?_⟩
    cases hreported : reportedRef result with
    | none =>
      rw [hreported] at h
      cases h
    | some reported =>
      rw [hreported] at h
      obtain ⟨rfl, hsafe⟩ := assertSafeImageRef_ok h
      exact ⟨rfl, hsafe⟩

namespace TagLaws

theorem survivesRun (laws : TagLaws o bound own ownId contents tagsOf idOf) :
    SurvivesRun o (TargetOwn bound own) where
  docker args hargs := targetOwn_docker fun d => laws.run d args hargs
  http request w hw := ⟨(laws.http w.outside request).trans hw.1, hw.2⟩
  rmtree path := by
    refine Prog.Keeps.modify fun w hw => ⟨hw.1, fun d args hmem => hw.2 d args ?_⟩
    simpa using hmem

theorem keeps_inspect (laws : TagLaws o bound own ownId contents tagsOf idOf) (ref : String) :
    Prog.Keeps (TargetOwn bound own) (docker o (inspectArgs ref)) :=
  targetOwn_docker fun d hd => (laws.inspect d ref).trans hd

theorem keeps_remove (laws : TagLaws o bound own ownId contents tagsOf idOf) {ref : String}
    (h : Foreign ownId ref) : Prog.Keeps (TargetOwn bound own) (docker o (imageRemoveArgs ref)) :=
  targetOwn_docker fun d hd => laws.remove d ref h.1 h.2 hd

/-- A load of a harmless archive keeps the tag, and what it reports can be removed. -/
theorem spec_loadImage (laws : TagLaws o bound own ownId contents tagsOf idOf) {path : String}
    (h : Harmless ownId tagsOf idOf (contents path)) :
    Prog.Spec (TargetOwn bound own) (loadImage o path)
      (fun ref w => TargetOwn bound own w ∧ Foreign ownId ref) fun _ => TargetOwn bound own := by
  have hload : Prog.Keeps (TargetOwn bound own) (docker o (loadArgs path)) := by
    refine targetOwn_docker fun d hd => (laws.load d path fun hmem => ?_).trans hd
    exact (h _ (List.mem_cons_of_mem _ hmem)).1 rfl
  intro w hw
  have hkeep := keeps_loadImage hload w hw
  rcases hl : loadImage o path w with ⟨e | ref, w'⟩ <;> rw [hl] at hkeep
  · exact hkeep
  refine ⟨hkeep, ?_⟩
  -- A reference comes back only when Docker reported it.
  obtain ⟨result, hresult, -, hreported, -⟩ := loadImage_ok hl
  rcases laws.report w.outside path result ref hresult hreported with htag | hid
  · exact h ref (List.mem_cons_of_mem _ htag)
  · exact h ref (hid ▸ List.mem_cons_self)

end TagLaws

/-! ## One submission -/

/-- What a check holds is foreign to the target. -/
def HoldsForeign (ownId : String) (held : Option String) : Prop :=
  ∀ ref, held = some ref → Foreign ownId ref

theorem keeps_submissionStages (laws : TagLaws o bound own ownId contents tagsOf idOf)
    {input : CheckInput} (hskip : input.skipDryRun = true)
    (h : Harmless ownId tagsOf idOf (contents input.submission.filePath)) :
    Prog.Keeps (InCheck (TargetOwn bound own) (HoldsForeign ownId))
      (submissionStages o py input) := by
  unfold submissionStages
  refine .bind (keeps_orFail _) fun info => .bind (.modify fun _ hc => hc) fun _ => ?_
  refine .bind .get fun c => ?_
  split
  · exact .ret _
  refine .bind (.modify fun _ hc => hc) fun _ => .bind (.ofExcept _) fun info => ?_
  refine .bind (.modify fun _ hc => hc) fun _ => .bind (.modify fun _ hc => hc) fun _ => ?_
  -- The image that is loaded is held from here on.
  apply Prog.Spec.keeps
  refine Prog.Spec.bind (Q := fun ref c => InCheck (TargetOwn bound own) (HoldsForeign ownId) c ∧
    Foreign ownId ref) ?_ fun ref => ?_
  · intro c hc
    have hload := laws.spec_loadImage h c.world hc.1
    unfold inWorld
    rcases hl : loadImage o input.submission.filePath c.world with ⟨e | ref, w'⟩ <;>
      rw [hl] at hload
    · exact ⟨hload, hc.2⟩
    · exact ⟨⟨hload.1, hc.2⟩, hload.2⟩
  · refine Prog.Spec.bind (Q := fun _ c => InCheck (TargetOwn bound own) (HoldsForeign ownId) c) ?_
      fun _ => (keeps_checkLoaded hskip (laws.keeps_inspect ref)).spec fun _ _ hc => hc
    rintro c ⟨hc, hforeign⟩
    exact ⟨hc.1, fun r hr => Option.some.inj hr ▸ hforeign⟩

theorem keeps_checkSubmission (laws : TagLaws o bound own ownId contents tagsOf idOf)
    {input : CheckInput} (hskip : input.skipDryRun = true)
    (h : Harmless ownId tagsOf idOf (contents input.submission.filePath)) :
    Prog.Keeps (TargetOwn bound own) (checkSubmission o py input) := by
  intro w hw
  have hcheck : Prog.Keeps (InCheck (TargetOwn bound own) (HoldsForeign ownId))
      (Prog.tryFinally (Prog.tryExcept (submissionStages o py input)
        (haltVerdict input.submission)) (dropImage o input.keepImage)) :=
    .tryFinally (.tryExcept (keeps_submissionStages laws hskip h) fun e => keeps_haltVerdict _ e)
      (keeps_dropImage (fun ref hheld => laws.keeps_remove (hheld ref rfl)) _)
  exact (hcheck { world := w, stage := .file } ⟨hw, fun _ hnone => by cases hnone⟩).1

theorem keeps_checkAndRecord (laws : TagLaws o bound own ownId contents tagsOf idOf)
    {input : CheckInput} (hskip : input.skipDryRun = true)
    (h : Harmless ownId tagsOf idOf (contents input.submission.filePath)) :
    Prog.Keeps (TargetOwn bound own) (checkAndRecord o py input false) := by
  unfold checkAndRecord
  refine .bind ?_ fun verdict => .bind .get fun w => .bind (.modify fun _ hw => hw) fun _ => .ret _
  exact keeps_checkSubmission laws hskip h

theorem keeps_runLoaded (laws : TagLaws o bound own ownId contents tagsOf idOf)
    {input : BlobInput} {verdict : Verdict}
    (h : Harmless ownId tagsOf idOf (contents input.tarPath)) :
    Prog.Keeps (TargetOwn bound own) (runLoaded o py input verdict) := by
  unfold runLoaded
  apply Prog.Spec.keeps
  refine (laws.spec_loadImage h).bind fun ref => ?_
  rintro w ⟨hw, hforeign⟩
  have hrun : Prog.Keeps (TargetOwn bound own) (Prog.tryFinally
      (do
        let job ← runJobHere o py input.job ref
        return jobOutcome verdict job)
      (do
        let _ ← removeImage o ref
        return ())) :=
    .tryFinally (.bind (.mapError _ (laws.survivesRun.runJob _ _ _)) fun _ => .ret _)
      (.bind (keeps_removeImage (laws.keeps_remove hforeign)) fun _ => .ret _)
  exact hrun.spec (fun _ _ hs => hs) w hw

/-- One submission of a harmless archive. -/
theorem keeps_evaluateBlob (laws : TagLaws o bound own ownId contents tagsOf idOf)
    {input : BlobInput}
    (h : ∀ tar, input.tar py = .ok tar → Harmless ownId tagsOf idOf (contents input.tarPath)) :
    Prog.Keeps (TargetOwn bound own) (evaluateBlob o py input) := by
  unfold evaluateBlob
  split
  · exact .ret _
  · rename_i tar htar
    refine .bind (keeps_checkAndRecord laws rfl (h tar htar)) fun recorded => ?_
    exact .ite (.ret _) (keeps_runLoaded laws (h tar htar))

/-- **Through any sequence of submissions whose archives are harmless, every target container is
    started from the validator's own image.** Each archive lies at its path as it was decrypted. -/
theorem target_stays_own (laws : TagLaws o bound own ownId contents tagsOf idOf)
    (inputs : List BlobInput)
    (hwritten : ∀ input ∈ inputs, ∀ tar, input.tar py = .ok tar → contents input.tarPath = tar)
    (hharmless : ∀ input ∈ inputs, ∀ tar, input.tar py = .ok tar →
      Harmless ownId tagsOf idOf tar)
    (d : δ) (db : Db) (hown : bound d = some own) :
    ∀ d' args, Event.docker d' args ∈
        (evaluateBlobs o py inputs { outside := d, db := db }).2.trace →
      startsTarget args = true → bound d' = some own := by
  have hkeeps : Prog.Keeps (TargetOwn bound own) (evaluateBlobs o py inputs) := by
    refine .forEach inputs fun input hmem => .tryExcept (.bind ?_ fun _ => .ret _) fun _ => .ret _
    refine keeps_evaluateBlob laws fun tar htar => ?_
    rw [hwritten input hmem tar htar]
    exact hharmless input hmem tar htar
  have hend := hkeeps { outside := d, db := db } ⟨hown, fun _ _ hmem => by cases hmem⟩
  exact fun d' args hmem _ => hend.2 d' args hmem

/-! ## A Docker of tags -/

/-- A Docker that is nothing but its tags, each with the id of its image: a load binds the tags of
    the archive and reports them, a removal unbinds. -/
def tagDocker (contents : String → List UInt8) (tagsOf : List UInt8 → List String)
    (idOf : List UInt8 → String) : Outside (List (String × String)) where
  docker s args :=
    if args.headD "" = "load" then
      let tar := contents (args.getLastD "")
      let lines := (tagsOf tar).map fun tag => "Loaded image: " ++ tag ++ "\n"
      (.ok ⟨0, if lines.isEmpty then "Loaded image ID: " ++ idOf tar ++ "\n" else String.join lines,
          ""⟩,
        (tagsOf tar).map (fun tag => (tag, idOf tar)) ++ s.filter fun b => b.1 ∉ tagsOf tar)
    else if args.headD "" = "image" then
      let ref := args.getLastD ""
      if args[1]? = some "rm" then (.ok ⟨0, "", ""⟩, s.filter fun b => b.1 ≠ ref ∧ b.2 ≠ ref)
      else (.ok ⟨0, agentReport, ""⟩, s)
    else if args.headD "" = "inspect" then (.ok ⟨0, "172.18.0.2\n", ""⟩, s)
    else if args.headD "" = "create" then (.ok ⟨0, "c0ffee\n", ""⟩, s)
    else (.ok ⟨0, "", ""⟩, s)
  http s _ := (.error ⟨.osError, "unreachable"⟩, s)
where
  agentReport : String :=
    "\x7b\"Id\":\"sha256:beef\",\"Architecture\":\"amd64\",\"Os\":\"linux\",\"Size\":1," ++
    "\"RootFS\":\x7b\"Layers\":[\"sha256:1111\"]\x7d," ++
    "\"Config\":\x7b\"Entrypoint\":[\"/agent\"]\x7d\x7d"

def boundIn (s : List (String × String)) : Option String := s.lookup TARGET_IMAGE

/-- The least that is a tar to its magic bytes. -/
def plainTar : List UInt8 := List.replicate 257 0 ++ TAR_MAGIC

abbrev BoundTags := List (String × String)

/-- A Docker that finds one agent in every archive. -/
def plainOutside : Outside BoundTags :=
  tagDocker (fun _ => plainTar) (fun _ => ["miner/agent:1"]) fun _ => "sha256:beef"

/-- A submission of `plainTar`, in which the tar library finds a manifest with the tag `tag`. -/
def plainBlob (tag : String) : BlobInput where
  download := .ok plainTar
  ciphertextSha256 := ""
  decrypt := some
  tarPath := "/tmp/secval-agent-0.tar"
  readTar _ := ⟨[{
    name := DOCKER_ARCHIVE_MANIFEST
    type := .regular
    size := 80
    data := .ok ("[\x7b\"Config\":\"c.json\",\"RepoTags\":[\"" ++ tag ++
      "\"],\"Layers\":[\"l.tar\"]\x7d]").toUTF8.toList }], none⟩
  minerId := "5Miner"
  receivedAt := "2025-01-01T00:00:00+00:00"
  job := plainInput

/-- `plainTar`, submitted by `miner`. -/
def plainFile (miner : String) : CheckInput where
  submission := ⟨miner, "/tmp/agent.tar", "2025-01-01T00:00:00+00:00"⟩
  content := some plainTar
  archive := (plainBlob "miner/agent:1").readTar plainTar
  skipDryRun := true

/-- An interpreter, with the two digests a check of `plainTar` asks for. -/
def plainInterpreter : Interpreter :=
  { cpython with sha256 := fun bytes =>
    if bytes.length = 262 then "1930a0e0964dfcbe526f4e42e5a9fd34deebcd31e1e4519d7ede4b2cf7c08618"
    else "6b86f22ab1510389f4c0de81e9754aea6d0321a2794665ba71c39cc84344b4d7" }

/-- Tags of one's own leave the target's alone. -/
theorem tagDocker_laws :
    TagLaws (tagDocker (fun _ => plainTar) (fun _ => ["miner/agent:1"]) fun _ => "sha256:beef") boundIn
      "sha256:0a" "sha256:0a" (fun _ => plainTar) (fun _ => ["miner/agent:1"])
      fun _ => "sha256:beef" where
  http d request := rfl
  run d args hverb hbound := by
    have hload : args.headD "" ≠ "load" := fun h => absurd (h ▸ hverb) (by decide)
    have himage : args.headD "" ≠ "image" := fun h => absurd (h ▸ hverb) (by decide)
    simp only [tagDocker, if_neg hload, if_neg himage]
    split
    · exact hbound
    · split
      · exact hbound
      · exact hbound
  inspect d ref := rfl
  load d path _ := by
    have hother : (TARGET_IMAGE == "miner/agent:1") = false := by decide
    simp only [tagDocker, loadArgs, List.headD_cons, if_true, List.map_cons, List.map_nil,
      List.cons_append, List.nil_append, boundIn, List.lookup_cons, hother]
    exact Dict.lookup_filter (fun _ => rfl) d
  report d path result ref hresult hreported := by
    cases hresult
    left
    have hreport : reportedRef ⟨0, String.join ["Loaded image: miner/agent:1\n"], ""⟩ =
        some "miner/agent:1" := by decide +kernel
    obtain rfl : ref = "miner/agent:1" := Option.some.inj (hreported.symm.trans hreport)
    exact List.mem_singleton.mpr rfl
  remove d ref htag hid hbound := by
    refine Dict.lookup_filter_some ?_ d hbound
    simp [imageRemoveArgs, htag.symm, hid.symm]

/-- The target's container is started, in a state in which its tag stands for `image`. -/
def startedFrom (image : Option String) (trace : List (Event (List (String × String)))) : Bool :=
  trace.any fun event => match event with
    | .docker d args => startsTarget args && boundIn d == image
    | .rmtree _ => false

theorem target_stays_own_one :
    startedFrom (some "sha256:0a") (evaluateBlobs
      (tagDocker (fun _ => plainTar) (fun _ => ["miner/agent:1"]) fun _ => "sha256:beef")
      plainInterpreter [plainBlob "miner/agent:1"]
      { outside := [(TARGET_IMAGE, "sha256:0a")] }).2.trace = true ∧
    ∀ d' args, Event.docker d' args ∈ (evaluateBlobs
        (tagDocker (fun _ => plainTar) (fun _ => ["miner/agent:1"]) fun _ => "sha256:beef")
        plainInterpreter [plainBlob "miner/agent:1"]
        { outside := [(TARGET_IMAGE, "sha256:0a")] }).2.trace →
      startsTarget args = true → boundIn d' = some "sha256:0a" := by
  refine ⟨by decide +kernel, target_stays_own tagDocker_laws _ ?_ ?_ _ {} rfl⟩
  · intro input hinput tar htar
    obtain rfl := List.mem_singleton.mp hinput
    cases htar
    rfl
  · intro input hinput tar htar name hname
    simp only [List.mem_cons, List.not_mem_nil, or_false] at hname
    rcases hname with rfl | rfl <;> exact ⟨by decide, by decide⟩

/-- An archive that carries the target's own tag: the run's target is the miner's image. -/
theorem tag_carrier_takes_target :
    ¬ ∀ (contents : String → List UInt8) (tagsOf : List UInt8 → List String)
      (idOf : List UInt8 → String) (py : Interpreter) (inputs : List BlobInput)
      (d : List (String × String)) (own : String), boundIn d = some own →
      ∀ d' args, Event.docker d' args ∈
          (evaluateBlobs (tagDocker contents tagsOf idOf) py inputs { outside := d }).2.trace →
        startsTarget args = true → boundIn d' = some own := by
  intro h
  have hown := h (fun _ => plainTar) (fun _ => [TARGET_IMAGE]) (fun _ => "sha256:beef")
    plainInterpreter [plainBlob TARGET_IMAGE] [(TARGET_IMAGE, "sha256:0a")] "sha256:0a" rfl
  have hstarted : startedFrom (some "sha256:beef") (evaluateBlobs
      (tagDocker (fun _ => plainTar) (fun _ => [TARGET_IMAGE]) fun _ => "sha256:beef")
      plainInterpreter [plainBlob TARGET_IMAGE]
      { outside := [(TARGET_IMAGE, "sha256:0a")] }).2.trace = true := by decide +kernel
  obtain ⟨event, hmem, hevent⟩ := List.any_eq_true.mp hstarted
  cases event with
  | docker d' args =>
    simp only [Bool.and_eq_true, beq_iff_eq] at hevent
    have := (hown d' args hmem hevent.1).symm.trans hevent.2
    exact absurd this (by decide)
  | rmtree path => cases hevent

end TaoSubnet
