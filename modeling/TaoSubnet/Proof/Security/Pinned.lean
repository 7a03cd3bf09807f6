import TaoSubnet.Proof.Security.Records
import TaoSubnet.Proof.Security.Target

/-!
# The image a job runs

Intake pulls a reference, asks Docker for the digest of what came, and records the digest; the run is
given the reference again. What Docker and the registry do with names is assumed here
(`RegistryLaws`): a digest names one image for ever, a tag whatever it stands for at the time. Under
it, the run executes the image that was validated exactly when the reference stands for the image it
stood for when its digest was asked.
-/

namespace TaoSubnet

open Py

variable {δ ι : Type} {o : Outside δ} {py : Interpreter}

/-- `info` is what `docker image inspect` reports of `ref` in `stdout`. -/
def Describes (py : Interpreter) (ref stdout : String) (info : ImageInfo) : Prop :=
  ∃ data items, Json.loadsText py.recursionLimit (PyStr.ofString stdout) = .ok data ∧
    reportOf data = .ok items ∧ imageInfoOf py ref items = .ok info

/-- The parts of an image its agent's digest is made of. -/
def SameAgent (info info' : ImageInfo) : Prop :=
  info.rootfsLayers = info'.rootfsLayers ∧ info.entrypoint = info'.entrypoint ∧
    info.cmd = info'.cmd

theorem SameAgent.agentDigestOf {info info' : ImageInfo} (h : SameAgent info info') :
    agentDigestOf py info = agentDigestOf py info' := by
  obtain ⟨hlayers, hentrypoint, hcmd⟩ := h
  unfold TaoSubnet.agentDigestOf
  rw [hlayers, hentrypoint, hcmd]

/-- Docker's way with names: `names d ref` is the image that `ref` stands for in the state `d`,
    `content ref` the one that a digest-pinned `ref` is the digest of, `facts` what an image is made
    of. Tags may move with every call. -/
structure RegistryLaws (o : Outside δ) (py : Interpreter) (names : δ → String → Option ι)
    (content : String → Option ι) (facts : ι → ImageInfo) : Prop where
  /-- A digest names the image it is the digest of, or nothing. -/
  pinned : ∀ d ref img, isDigestPinned ref = true → names d ref = some img →
    content ref = some img
  /-- The digests recorded for a reference are those of the image it stands for. -/
  digests : ∀ d ref result line, (o.docker d (repoDigestArgs ref)).1 = .ok result →
    result.returncode = 0 → line ∈ (splitLines result.stdout).map strip →
    isDigestPinned line = true → ∃ img, names d ref = some img ∧ content line = some img
  /-- An inspection reports the image the reference stands for. -/
  inspect : ∀ d ref result info, (o.docker d (inspectArgs ref)).1 = .ok result →
    result.returncode = 0 → Describes py ref result.stdout info →
    ∃ img, names d ref = some img ∧ SameAgent info (facts img)

/-- The command creates a container from `ref`. -/
def createsFrom (ref : String) (args : List String) : Bool :=
  args.head? = some "create" && args.getLast? = some ref

theorem createsFrom_agentCreateArgs (name network agentImage targetIp outDir runId : String)
    (timeoutS : Nat) :
    createsFrom agentImage (agentCreateArgs name network agentImage targetIp outDir runId timeoutS) =
      true := by
  simp [createsFrom, agentCreateArgs]

section

variable (names : δ → String → Option ι) (content : String → Option ι) (facts : ι → ImageInfo)

/-- Whatever image the agent's container is created from is the one of the digest on record, and its
    agent is the one the outcome names. -/
def RunsValidated (py : Interpreter) (ref : String) (outcome : EvalOutcome) (w : World δ) : Prop :=
  ∀ d args img, Event.docker d args ∈ w.trace → createsFrom ref args = true →
    names d ref = some img →
    ∃ row digestRef, w.db.submissions.getLast? = some row ∧
      row.verdict.imageRef = some digestRef ∧ content digestRef = some img ∧
      agentDigestOf py (facts img) = .ok outcome.agentId

/-- Docker was asked for the digests of `ref`, in the state `d`. -/
def AskedDigest (ref : String) (w : World δ) (d : δ) : Prop :=
  Event.docker d (repoDigestArgs ref) ∈ w.trace

/-- When the agent's container is created, the reference stands for the image it stood for when its
    digest was asked. -/
def TagStayed (ref : String) (w : World δ) : Prop :=
  ∀ d args img, Event.docker d args ∈ w.trace → createsFrom ref args = true →
    names d ref = some img → ∀ d₀, AskedDigest ref w d₀ → names d₀ ref = some img

end

/-! ## Who asks for a digest -/

/-- Docker was asked for the digests of `ref` in the states of `S`, and in no others. -/
def AskedIn (ref : String) (S : δ → Prop) (w : World δ) : Prop := ∀ d, AskedDigest ref w d ↔ S d

variable {ref : String} {S : δ → Prop}

theorem askedIn_docker {args : List String} (h : args ≠ repoDigestArgs ref) :
    Prog.Keeps (AskedIn ref S) (docker o args) := by
  intro w hw d
  rw [← hw d]
  constructor
  · intro hasked
    rcases List.mem_append.mp hasked with hold | hnew
    · exact hold
    · simp only [List.mem_singleton, Event.docker.injEq] at hnew
      exact absurd hnew.2.symm h
  · intro hasked
    exact List.mem_append_left _ hasked

theorem survivesRun_askedIn (o : Outside δ) (ref : String) (S : δ → Prop) :
    SurvivesRun o (AskedIn ref S) where
  docker args hargs := by
    refine askedIn_docker ?_
    intro h
    rw [h] at hargs
    simp [repoDigestArgs, RUN_VERBS] at hargs
  http request w hw := hw
  rmtree path := by
    refine .modify fun w hw d => ?_
    rw [← hw d]
    simp [AskedDigest]

/-- A first question is the only one. -/
theorem askedIn_runDocker {timeoutS : Nat} {reason : RejectReason} {w w' : World δ}
    {result : CompletedProcess} (hw : AskedIn ref (fun _ => False) w)
    (h : runDocker o (repoDigestArgs ref) timeoutS reason w = (.ok result, w')) :
    AskedIn ref (· = w.outside) w' := by
  obtain rfl : w' = (docker o (repoDigestArgs ref) w).2 := by
    have hstate : (runDocker o (repoDigestArgs ref) timeoutS reason w).2 =
        (docker o (repoDigestArgs ref) w).2 := by
      unfold runDocker
      rcases docker o (repoDigestArgs ref) w with ⟨e | result, w''⟩
      · rfl
      · dsimp only
        split
        · rfl
        · rfl
    rw [← hstate, h]
  intro d
  constructor
  · intro hasked
    rcases List.mem_append.mp hasked with hold | hnew
    · exact absurd hold ((hw d).not.mpr id)
    · simp only [List.mem_singleton, Event.docker.injEq] at hnew
      exact hnew.1
  · rintro rfl
    exact List.mem_append_right _ (List.mem_singleton.mpr rfl)

theorem askedIn_boundDownload (args : String) :
    Prog.Keeps (AskedIn ref S) (boundDownload o py args) :=
  keeps_boundDownload fun _ => askedIn_docker (by simp [manifestArgs, repoDigestArgs])

theorem askedIn_inspectImage (name : String) :
    Prog.Keeps (AskedIn ref S) (inspectImage o py name) :=
  keeps_inspectImage (askedIn_docker (by simp [inspectArgs, repoDigestArgs]))

theorem askedIn_removeImage (name : String) :
    Prog.Keeps (AskedIn ref S) (removeImage o name) :=
  keeps_removeImage (askedIn_docker (by simp [imageRemoveArgs, repoDigestArgs]))

/-! ## What intake establishes -/

variable {names : δ → String → Option ι} {content : String → Option ι} {facts : ι → ImageInfo}

/-- What is pinned is a digest: of the reference's own name, or of the image it stood for. -/
theorem digestRefOf_ok (laws : RegistryLaws o py names content facts) {w w' : World δ}
    {digestRef : String} (hw : AskedIn ref (fun _ => False) w)
    (h : digestRefOf o ref w = (.ok digestRef, w')) :
    isDigestPinned digestRef = true ∧
      (digestRef = ref ∧ AskedIn ref (fun _ => False) w' ∨
        ∃ d img, AskedIn ref (· = d) w' ∧ names d ref = some img ∧
          content digestRef = some img) := by
  unfold digestRefOf at h
  split at h
  · rename_i hpinned
    cases h
    exact ⟨hpinned, .inl ⟨rfl, hw⟩⟩
  · obtain ⟨found, w₁, hfound, h⟩ := Prog.bind_eq_ok h
    unfold repoDigestOf at hfound
    obtain ⟨result, w₂, hresult, hfound⟩ := Prog.bind_eq_ok hfound
    cases found with
    | none => cases h
    | some line =>
      dsimp only at h
      split at h
      · cases h
      cases h
      split at hfound
      · cases hfound
      rename_i hzero
      -- The line is one of those Docker printed for the image.
      obtain ⟨hfind, rfl⟩ := Prod.mk.inj hfound
      have hline := Except.ok.inj hfind
      have hpinned := List.find?_some hline
      obtain ⟨img, hnames, hcontent⟩ := laws.digests w.outside ref result digestRef
        (runDocker_ok hresult) (not_not.mp hzero) (List.mem_of_find?_eq_some hline) hpinned
      exact ⟨hpinned, .inr ⟨w.outside, img, askedIn_runDocker hw hresult, hnames, hcontent⟩⟩

/-- A pulled image is known by a digest of what the reference stood for. -/
theorem pullImage_ok (laws : RegistryLaws o py names content facts) {w w' : World δ}
    {pulled : PulledImage} (hw : AskedIn ref (fun _ => False) w)
    (h : pullImage o py ref w = (.ok pulled, w')) :
    isDigestPinned pulled.digestRef = true ∧
      (pulled.digestRef = ref ∧ AskedIn ref (fun _ => False) w' ∨
        ∃ d img, AskedIn ref (· = d) w' ∧ names d ref = some img ∧
          content pulled.digestRef = some img) := by
  unfold pullImage at h
  obtain ⟨_, w₁, hsafe, h⟩ := Prog.bind_eq_ok h
  obtain ⟨_, w₂, hbound, h⟩ := Prog.bind_eq_ok h
  obtain ⟨result, w₃, hpull, h⟩ := Prog.bind_eq_ok h
  split at h
  · cases h
  obtain ⟨digestRef, w₄, hdigest, h⟩ := Prog.bind_eq_ok h
  obtain ⟨_, w₅, hsafe', h⟩ := Prog.bind_eq_ok h
  cases h
  -- Nothing before the pull asks for a digest, and nor does the pull.
  have hw₁ := (keeps_assertSubmittableRef ref).run hw hsafe
  have hw₂ := (askedIn_boundDownload ref).run hw₁ hbound
  have hpullArgs : pullArgs ref ≠ repoDigestArgs ref := by simp [pullArgs, repoDigestArgs]
  have hw₃ := (keeps_runDocker (askedIn_docker hpullArgs)).run hw₂ hpull
  obtain ⟨hpinned, hfrom⟩ := digestRefOf_ok laws hw₃ hdigest
  refine ⟨hpinned, hfrom.imp ?_ ?_⟩
  · rintro ⟨heq, hasked⟩
    exact ⟨heq, (keeps_assertSafeImageRef _).run hasked hsafe'⟩
  · rintro ⟨d, img, hasked, hnames⟩
    exact ⟨d, img, (keeps_assertSafeImageRef _).run hasked hsafe', hnames⟩

/-- An inspection that succeeds has described the image its reference stands for. -/
theorem inspectImage_ok {name : String} {w w' : World δ} {info : ImageInfo}
    (h : inspectImage o py name w = (.ok info, w')) :
    ∃ d result, (o.docker d (inspectArgs name)).1 = .ok result ∧ result.returncode = 0 ∧
      Describes py name result.stdout info := by
  unfold inspectImage at h
  obtain ⟨_, w₁, hsafe, h⟩ := Prog.bind_eq_ok h
  obtain ⟨result, w₂, hresult, h⟩ := Prog.bind_eq_ok h
  split at h
  · cases h
  rename_i hzero
  refine ⟨w₁.outside, result, runDocker_ok hresult, not_not.mp hzero, ?_⟩
  cases hdata : Json.loadsText py.recursionLimit (PyStr.ofString result.stdout) with
  | error e =>
    rw [hdata] at h
    dsimp only at h
    split at h
    · cases h
    · cases h
  | ok data =>
    rw [hdata] at h
    dsimp only at h
    cases hitems : reportOf data with
    | error failure =>
      rw [hitems] at h
      cases h
    | ok items =>
      rw [hitems] at h
      dsimp only at h
      cases hinfo : imageInfoOf py name items with
      | error e =>
        rw [hinfo] at h
        cases h
      | ok found =>
        rw [hinfo] at h
        cases h
        exact ⟨data, items, hdata, hitems, hinfo⟩

/-- A cached verdict stands for what this run measured. -/
theorem settledByDigest_accepted {input : CheckInput} {agentDigest : Option String}
    {c : CheckState δ} {verdict : Verdict}
    (h : settledByDigest input agentDigest c = some verdict) (haccepted : verdict.accepted = true) :
    agentDigest.isSome = true ∧ verdict.imageRef = c.evidence.imageRef ∧
      ∃ old, verdict.agentDigest = c.evidence.agentDigest.or old := by
  unfold settledByDigest at h
  cases agentDigest with
  | none => cases h
  | some digest =>
    refine ⟨rfl, ?_⟩
    simp only [Option.bind_eq_bind, Option.bind_some] at h
    split at h
    swap
    · cases h
    obtain ⟨known, hknown, h⟩ := Option.bind_eq_some_iff.mp h
    split at h
    · cases h
      cases haccepted
    · obtain ⟨previous, hprevious, h⟩ := Option.bind_eq_some_iff.mp h
      cases h
      refine ⟨?_, previous.verdict.agentDigest, rfl⟩
      simp [cachedVerdict, Evidence.verdict, Evidence.add]

/-- What is accepted has on record the reference it was inspected by, and that image's agent. -/
theorem checkLoaded_accepted {input : CheckInput} {name : String} {c c' : CheckState δ}
    {verdict : Verdict} (hskip : input.skipDryRun = true)
    (h : checkLoaded o py input name c = (.ok verdict, c'))
    (hfresh : c.evidence.agentDigest = none) (haccepted : verdict.accepted = true) :
    verdict.imageRef = c.evidence.imageRef ∧
      ∃ info, inspectImage o py name c.world = (.ok info, c'.world) ∧
        agentDigestOf py info = .ok verdict.agentDigest := by
  unfold checkLoaded at h
  obtain ⟨agentDigest, c₁, hinspect, h⟩ := Prog.bind_eq_ok h
  obtain ⟨href, hdigest, info, himage, hagent⟩ := inspectStage_ok hinspect
  rw [hfresh, Option.or_none] at hdigest
  obtain ⟨c₂, c₃, hget, h⟩ := Prog.bind_eq_ok h
  cases hget
  cases hsettled : settledByDigest input agentDigest c₁ with
  | some known =>
    rw [hsettled] at h
    cases h
    obtain ⟨hsome, hknownRef, old, hknownDigest⟩ := settledByDigest_accepted hsettled haccepted
    refine ⟨hknownRef.trans href, info, himage, ?_⟩
    rw [hknownDigest, hdigest, Option.or_of_isSome hsome]
    exact hagent
  | none =>
    rw [hsettled] at h
    simp only [hskip, if_true] at h
    obtain ⟨c₄, c₅, hget, h⟩ := Prog.bind_eq_ok h
    cases hget
    cases h
    refine ⟨href, info, himage, ?_⟩
    rw [hagent]
    exact congrArg Except.ok hdigest.symm

/-- What an accepted reference comes to: a digest on record, of an image whose agent is on record too,
    and that image is what the reference stood for whenever its digest was asked. -/
structure Settled (names : δ → String → Option ι) (content : String → Option ι)
    (facts : ι → ImageInfo) (py : Interpreter) (ref : String) (verdict : Verdict) (w : World δ) :
    Prop where
  image : ∃ digestRef img, verdict.imageRef = some digestRef ∧ content digestRef = some img ∧
    agentDigestOf py (facts img) = .ok verdict.agentDigest ∧
    (isDigestPinned ref = true ∧ digestRef = ref ∧ AskedIn ref (fun _ => False) w ∨
      ∃ d, AskedIn ref (· = d) w ∧ names d ref = some img)

theorem registryStages_accepted (laws : RegistryLaws o py names content facts) {input : CheckInput}
    (hskip : input.skipDryRun = true) {c c' : CheckState δ} {verdict : Verdict}
    (hw : AskedIn input.submission.filePath (fun _ => False) c.world)
    (hfresh : c.evidence.agentDigest = none)
    (h : registryStages o py input c = (.ok verdict, c')) (haccepted : verdict.accepted = true) :
    Settled names content facts py input.submission.filePath verdict c'.world := by
  unfold registryStages at h
  obtain ⟨_, c₁, hadd, h⟩ := Prog.bind_eq_ok h
  cases hadd
  obtain ⟨pulled, c₂, hpulled, h⟩ := Prog.bind_eq_ok h
  obtain ⟨w₂, hpull, rfl⟩ := inWorld_ok hpulled
  obtain ⟨_, c₃, hhold, h⟩ := Prog.bind_eq_ok h
  cases hhold
  obtain ⟨_, c₄, hadd, h⟩ := Prog.bind_eq_ok h
  cases hadd
  obtain ⟨hpinned, hfrom⟩ := pullImage_ok laws hw hpull
  obtain ⟨href, info, himage, hagent⟩ := checkLoaded_accepted hskip h hfresh haccepted
  obtain ⟨d, result, hresult, hzero, hdescribes⟩ := inspectImage_ok himage
  obtain ⟨img, hnames, hsame⟩ := laws.inspect d _ result info hresult hzero hdescribes
  have hcontent := laws.pinned d _ img hpinned hnames
  refine ⟨pulled.digestRef, img, href, hcontent, hsame.agentDigestOf ▸ hagent, hfrom.imp ?_ ?_⟩
  · rintro ⟨heq, hasked⟩
    exact ⟨heq ▸ hpinned, heq, (askedIn_inspectImage _).run hasked himage⟩
  · rintro ⟨d', img', hasked, hnames', hcontent'⟩
    refine ⟨d', (askedIn_inspectImage _).run hasked himage, ?_⟩
    rw [hnames', ← hcontent, hcontent']

theorem settled_keeps {verdict : Verdict} {ε α : Type} {x : Prog (World δ) ε α}
    (h : ∀ S, Prog.Keeps (AskedIn ref S) x) :
    Prog.Keeps (Settled names content facts py ref verdict) x := by
  rintro w ⟨digestRef, img, href, hcontent, hagent, hfrom⟩
  refine ⟨digestRef, img, href, hcontent, hagent, hfrom.imp ?_ ?_⟩
  · rintro ⟨hpinned, heq, hasked⟩
    exact ⟨hpinned, heq, h _ w hasked⟩
  · rintro ⟨d, hasked, hnames⟩
    exact ⟨d, h _ w hasked, hnames⟩

theorem checkRegistrySubmission_accepted (laws : RegistryLaws o py names content facts)
    {input : CheckInput} (hskip : input.skipDryRun = true) {w w' : World δ} {verdict : Verdict}
    (hw : AskedIn input.submission.filePath (fun _ => False) w)
    (h : checkRegistrySubmission o py input w = (.ok verdict, w'))
    (haccepted : verdict.accepted = true) :
    Settled names content facts py input.submission.filePath verdict w' := by
  obtain ⟨hvalue, rfl⟩ := Prod.mk.inj h
  obtain ⟨c, hstages, hdrop⟩ := Prog.tryFinally_eq_ok (Prod.ext hvalue rfl)
  -- A failure of the stages ends in a rejection.
  rcases Prog.tryExcept_eq_ok hstages with hstages | ⟨e, c₁, -, hhalt⟩
  · have hsettled := registryStages_accepted laws hskip hw rfl hstages haccepted
    have hremove : ∀ name, Prog.Keeps (Settled names content facts py input.submission.filePath
        verdict) (docker o (imageRemoveArgs name)) :=
      fun name => settled_keeps fun S =>
        askedIn_docker (by simp [imageRemoveArgs, repoDigestArgs])
    have hkeep : Prog.Keeps (InCheck (Settled names content facts py input.submission.filePath
        verdict) fun _ => True) (dropImage o input.keepImage) :=
      keeps_dropImage (fun name _ => hremove name) _
    exact (hkeep.run ⟨hsettled, trivial⟩ hdrop).1
  · obtain ⟨c₂, c₃, hget, hhalt⟩ := Prog.bind_eq_ok hhalt
    cases e with
    | stage failure =>
      cases hhalt
      cases haccepted
    | raised e =>
      cases hhalt
      cases haccepted

theorem checkAndRecord_accepted (laws : RegistryLaws o py names content facts)
    {input : CheckInput} (hskip : input.skipDryRun = true) {w w' : World δ} {id : Nat}
    {verdict : Verdict} (hw : AskedIn input.submission.filePath (fun _ => False) w)
    (h : checkAndRecord o py input true w = (.ok (id, verdict), w'))
    (haccepted : verdict.accepted = true) :
    Settled names content facts py input.submission.filePath verdict w' ∧
      ∃ row, w'.db.submissions.getLast? = some row ∧ row.verdict = verdict := by
  unfold checkAndRecord at h
  simp only [if_true] at h
  obtain ⟨found, w₁, hcheck, h⟩ := Prog.bind_eq_ok h
  obtain ⟨w₂, w₃, hget, h⟩ := Prog.bind_eq_ok h
  cases hget
  obtain ⟨_, w₄, hmodify, h⟩ := Prog.bind_eq_ok h
  cases hmodify
  cases h
  have hsettled := checkRegistrySubmission_accepted laws hskip hw hcheck haccepted
  refine ⟨?_, _, by rw [recordAndRegister_submissions, List.getLast?_concat], rfl⟩
  obtain ⟨digestRef, img, hrest⟩ := hsettled
  exact ⟨digestRef, img, hrest⟩

/-! ## The run -/

/-- A run of an accepted image: its intake, and the job after it. -/
theorem evaluate_ok {input : RefInput} {w w' : World δ} {outcome : EvalOutcome}
    (h : evaluate o py input w = (.ok outcome, w')) (hjob : outcome.job.isSome = true) :
    ∃ id verdict w₁ job, checkAndRecord o py input.check true w = (.ok (id, verdict), w₁) ∧
      verdict.accepted = true ∧ runJobHere o py input.job input.imageRef w₁ = (.ok job, w') ∧
      outcome = jobOutcome verdict job := by
  unfold evaluate at h
  obtain ⟨⟨id, verdict⟩, w₁, hrecord, h⟩ := Prog.bind_eq_ok h
  dsimp only at h
  split at h
  · cases h
    cases hjob
  · rename_i haccepted
    obtain ⟨job, w₂, hrun, h⟩ := Prog.bind_eq_ok h
    cases h
    exact ⟨id, verdict, w₁, job, hrecord, by simpa using haccepted, hrun, rfl⟩

/-- **A job runs the image that was validated and recorded exactly when the reference stands for the
    image it stood for when its digest was asked.** -/
theorem runs_validated_iff (laws : RegistryLaws o py names content facts) (input : RefInput) (d : δ)
    (db : Db) {outcome : EvalOutcome} {w : World δ}
    (h : evaluate o py input { outside := d, db := db } = (.ok outcome, w))
    (hjob : outcome.job.isSome = true) :
    RunsValidated names content facts py input.imageRef outcome w ↔
      TagStayed names input.imageRef w := by
  obtain ⟨id, verdict, w₁, job, hrecord, haccepted, hrun, rfl⟩ := evaluate_ok h hjob
  have hnone : AskedIn input.imageRef (fun _ => False) ({ outside := d, db := db } : World δ) := by
    intro d
    simp [AskedDigest]
  obtain ⟨hsettled, row, hrow, hverdict⟩ := checkAndRecord_accepted laws rfl hnone hrecord haccepted
  -- The job asks for no digest, and records nothing.
  have hdb : w.db = w₁.db := (db_runJobHere input.job input.imageRef w₁.db).run rfl hrun
  have hkeep : Prog.Keeps (Settled names content facts py input.imageRef verdict)
      (runJobHere o py input.job input.imageRef) :=
    settled_keeps fun S => .mapError _ ((survivesRun_askedIn o input.imageRef S).runJob _ _ _)
  obtain ⟨digestRef, img, href, hcontent, hagent, hfrom⟩ := hkeep.run hsettled hrun
  rw [← hdb] at hrow
  constructor
  · intro hruns d args img' hevent hcreates hnames d₀ hasked
    obtain ⟨row', digestRef', hrow', href', hcontent', -⟩ := hruns d args img' hevent hcreates hnames
    obtain rfl : row = row' := Option.some.inj (hrow.symm.trans hrow')
    obtain rfl : digestRef = digestRef' := by
      rw [hverdict, href] at href'
      exact Option.some.inj href'
    obtain rfl : img = img' := Option.some.inj (hcontent.symm.trans hcontent')
    rcases hfrom with ⟨-, -, hnever⟩ | ⟨d₁, honce, hnames₁⟩
    · exact False.elim ((hnever d₀).mp hasked)
    · obtain rfl : d₀ = d₁ := (honce d₀).mp hasked
      exact hnames₁
  · intro hstayed d args img' hevent hcreates hnames
    suffices himg : img' = img by
      subst himg
      exact ⟨row, digestRef, hrow, hverdict ▸ href, hcontent, hagent⟩
    rcases hfrom with ⟨hpinned, rfl, -⟩ | ⟨d₁, honce, hnames₁⟩
    · exact Option.some.inj ((laws.pinned d _ img' hpinned hnames).symm.trans hcontent)
    · have hasked : AskedDigest input.imageRef w d₁ := (honce d₁).mpr rfl
      have hnames' := hstayed d args img' hevent hcreates hnames d₁ hasked
      exact Option.some.inj (hnames'.symm.trans hnames₁)

/-! ## A registry whose tag moves -/

def movingTag : String := "m/agent:1"

/-- The digests of the two images the tag may stand for. -/
def digestOf (image : Bool) : String :=
  "m/agent@sha256:" ++ String.ofList (List.replicate 64 (if image then 'b' else 'a'))

def layerOf (image : Bool) : String := if image then "sha256:02" else "sha256:01"

def namesIn (stands : δ → Bool) (d : δ) (ref : String) : Option Bool :=
  if ref = movingTag then some (stands d)
  else if ref = digestOf false then some false
  else if ref = digestOf true then some true
  else none

def contentIn (ref : String) : Option Bool :=
  if ref = digestOf false then some false else if ref = digestOf true then some true else none

def factsOf (image : Bool) : ImageInfo where
  imageId := PyStr.ofString movingTag
  cmd := [PyStr.ofString "/agent"]
  rootfsLayers := [PyStr.ofString (layerOf image)]

/-- A Docker that answers from its registry, in which `movingTag` stands for the image `stands d`;
    with the removal of an image the state becomes `moved`. -/
def movingDocker (stands : δ → Bool) (moved : δ → δ) : Outside δ where
  docker d args :=
    if args.headD "" = "image" then
      if args[1]? = some "rm" then (.ok ⟨0, "", ""⟩, moved d)
      else match namesIn stands d (args.getLastD "") with
        | none => (.ok ⟨1, "", "Error: No such image\n"⟩, d)
        | some image =>
          if args[3]? = some "\x7b\x7bjson .\x7d\x7d" then (.ok ⟨0, report image, ""⟩, d)
          else (.ok ⟨0, digestOf image ++ "\n", ""⟩, d)
    else if args.headD "" = "manifest" then (.ok ⟨1, "", "no such manifest\n"⟩, d)
    else if args.headD "" = "inspect" then (.ok ⟨0, "172.18.0.2\n", ""⟩, d)
    else if args.headD "" = "create" then (.ok ⟨0, "c0ffee\n", ""⟩, d)
    else (.ok ⟨0, "", ""⟩, d)
  http d _ := (.error ⟨.osError, "unreachable"⟩, d)
where
  report (image : Bool) : String :=
    "\x7b\"Os\":\"linux\",\"RootFS\":\x7b\"Layers\":[\"" ++ layerOf image ++
    "\"]\x7d,\"Config\":\x7b\"Cmd\":[\"/agent\"]\x7d\x7d"

/-- What a report says of its agent. -/
def describedAgent (py : Interpreter) (ref stdout : String) :
    Option (List PyStr × List PyStr × List PyStr) := do
  let data ← (Json.loadsText py.recursionLimit (PyStr.ofString stdout)).toOption
  let items ← (reportOf data).toOption
  let info ← (imageInfoOf py ref items).toOption
  return (info.rootfsLayers, info.entrypoint, info.cmd)

theorem Describes.describedAgent {stdout : String} {info : ImageInfo}
    (h : Describes py ref stdout info) :
    describedAgent py ref stdout = some (info.rootfsLayers, info.entrypoint, info.cmd) := by
  obtain ⟨data, items, hdata, hitems, hinfo⟩ := h
  simp [TaoSubnet.describedAgent, hdata, hitems, hinfo, Except.toOption]

/-- The reference an image was inspected by shows only in its id. -/
theorem describedAgent_ref (ref ref' stdout : String) :
    describedAgent py ref stdout = describedAgent py ref' stdout := by
  unfold describedAgent
  cases Json.loadsText py.recursionLimit (PyStr.ofString stdout) with
  | error e => rfl
  | ok data =>
    cases hitems : reportOf data with
    | error failure => simp [Except.toOption, hitems]
    | ok items =>
      simp only [Except.toOption, hitems, Option.bind_eq_bind, Option.bind_some]
      unfold imageInfoOf
      cases getObject items "Config" with
      | error e => rfl
      | ok config =>
        cases getObject items "RootFS" with
        | error e => rfl
        | ok rootfs =>
          cases sizeOf (Json.get? items "Size") with
          | error e => simp [bind, Except.bind]
          | ok size => simp [bind, Except.bind, pure, Except.pure]

theorem movingDocker_laws (stands : δ → Bool) (moved : δ → δ) :
    RegistryLaws (movingDocker stands moved) plainInterpreter (namesIn stands) contentIn factsOf where
  pinned d ref img hpinned hnames := by
    have htag : ref ≠ movingTag := by
      intro h
      rw [h] at hpinned
      exact absurd hpinned (by decide +kernel)
    rw [namesIn, if_neg htag] at hnames
    exact hnames
  digests d ref result line hresult hzero hline _ := by
    have hasked : (movingDocker stands moved).docker d (repoDigestArgs ref) =
        match namesIn stands d ref with
        | none => (.ok ⟨1, "", "Error: No such image\n"⟩, d)
        | some image => (.ok ⟨0, digestOf image ++ "\n", ""⟩, d) := rfl
    rw [hasked] at hresult
    cases hnames : namesIn stands d ref with
    | none =>
      rw [hnames] at hresult
      cases hresult
      exact absurd hzero (by decide)
    | some image =>
      rw [hnames] at hresult
      cases hresult
      have hlines : (splitLines (digestOf image ++ "\n")).map strip = [digestOf image] := by
        cases image <;> decide +kernel
      rw [hlines] at hline
      obtain rfl := List.mem_singleton.mp hline
      refine ⟨image, rfl, ?_⟩
      cases image <;> decide +kernel
  inspect d ref result info hresult hzero hdescribes := by
    have hasked : (movingDocker stands moved).docker d (inspectArgs ref) =
        match namesIn stands d ref with
        | none => (.ok ⟨1, "", "Error: No such image\n"⟩, d)
        | some image => (.ok ⟨0, movingDocker.report image, ""⟩, d) := rfl
    rw [hasked] at hresult
    cases hnames : namesIn stands d ref with
    | none =>
      rw [hnames] at hresult
      cases hresult
      exact absurd hzero (by decide)
    | some image =>
      rw [hnames] at hresult
      cases hresult
      refine ⟨image, rfl, ?_⟩
      have hagent := hdescribes.describedAgent
      have hreport : describedAgent plainInterpreter movingTag (movingDocker.report image) =
          some ((factsOf image).rootfsLayers, (factsOf image).entrypoint, (factsOf image).cmd) := by
        cases image <;> decide +kernel
      rw [describedAgent_ref ref movingTag, hreport] at hagent
      simp only [Option.some.injEq, Prod.mk.injEq] at hagent
      exact ⟨hagent.1.symm, hagent.2.1.symm, hagent.2.2.symm⟩

/-- A reference, submitted by its tag. -/
def movingInput : RefInput where
  imageRef := movingTag
  minerId := "5Miner"
  receivedAt := "2025-01-01T00:00:00+00:00"
  job := plainInput

/-- A job ran, its container was created while the tag stood for `image`, and the digest on record is
    `digestRef`. -/
def ranAs (stands : δ → Bool) (image : Bool) (digestRef : String)
    (run : Except Halt EvalOutcome × World δ) : Bool :=
  match run with
  | (.ok outcome, w) =>
    outcome.job.isSome &&
      (w.trace.any fun event => match event with
        | .docker d args => stands d == image && createsFrom movingTag args
        | .rmtree _ => false) &&
      (w.db.submissions.getLast?.bind fun row => row.verdict.imageRef) == some digestRef
  | _ => false

theorem runs_validated_iff_still :
    ∃ outcome w, evaluate (movingDocker (fun _ : Unit => false) id) plainInterpreter movingInput
        { outside := () } = (.ok outcome, w) ∧
      RunsValidated (namesIn fun _ => false) contentIn factsOf plainInterpreter movingTag outcome w := by
  have hran : ranAs (fun _ => false) false (digestOf false) (evaluate
      (movingDocker (fun _ : Unit => false) id) plainInterpreter movingInput { outside := () }) =
      true := by decide +kernel
  rcases hrun : evaluate (movingDocker (fun _ : Unit => false) id) plainInterpreter movingInput
      { outside := () } with ⟨e | outcome, w⟩
  · rw [hrun] at hran
    cases hran
  rw [hrun] at hran
  simp only [ranAs, Bool.and_eq_true] at hran
  refine ⟨outcome, w, rfl, ?_⟩
  exact (runs_validated_iff (movingDocker_laws _ _) movingInput () {} hrun hran.1.1).mpr
    fun d args img _ _ hnames d₀ _ => hnames

/-- A tag that moves once intake has removed the image: another image is run in its place. -/
theorem moved_tag_runs_unvalidated :
    ¬ ∀ (stands : Bool → Bool) (moved : Bool → Bool) (input : RefInput) (d : Bool)
      (outcome : EvalOutcome) (w : World Bool),
      evaluate (movingDocker stands moved) plainInterpreter input { outside := d } =
        (.ok outcome, w) → outcome.job.isSome = true →
      RunsValidated (namesIn stands) contentIn factsOf plainInterpreter input.imageRef outcome w := by
  intro h
  have hran : ranAs id true (digestOf false) (evaluate (movingDocker id fun _ => true)
      plainInterpreter movingInput { outside := false }) = true := by decide +kernel
  rcases hrun : evaluate (movingDocker id fun _ => true) plainInterpreter movingInput
      { outside := false } with ⟨e | outcome, w⟩
  · rw [hrun] at hran
    cases hran
  rw [hrun] at hran
  simp only [ranAs, Bool.and_eq_true, beq_iff_eq] at hran
  obtain ⟨⟨hjob, hcreated⟩, hrecorded⟩ := hran
  obtain ⟨event, hmem, hevent⟩ := List.any_eq_true.mp hcreated
  cases event with
  | rmtree path => cases hevent
  | docker d args =>
    simp only [Bool.and_eq_true, beq_iff_eq] at hevent
    have hnames : namesIn id d movingTag = some true := by
      rw [namesIn, if_pos rfl, hevent.1]
    obtain ⟨row, digestRef, hrow, href, hcontent, -⟩ :=
      h id (fun _ => true) movingInput false outcome w hrun hjob d args true hmem hevent.2 hnames
    rw [hrow, Option.bind_some, href, Option.some.injEq] at hrecorded
    rw [hrecorded] at hcontent
    exact absurd hcontent (by decide +kernel)

end TaoSubnet
