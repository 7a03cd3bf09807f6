import TaoSubnet.Proof.Security.Archives
import TaoSubnet.Proof.Security.Dedupe

/-!
# Whose fault the metadata is

`check_structure` blames the miner for what it finds in `manifest.json` and `index.json`, or returns. It
raises instead where `json.loads` raises something other than a decoding error, and where the
annotations of an OCI manifest are neither falsy nor an object. What it raises becomes an
INTERNAL_ERROR one level up, the validator's own fault.
-/

namespace TaoSubnet

open Py

/-- A failure that is the miner's. -/
def Blames (e : Halt) : Prop := ∃ failure, e = .stage failure ∧ failure.reason ∉ VALIDATOR_FAULT_REASONS

theorem blames_stage {reason : RejectReason} (h : reason ∉ VALIDATOR_FAULT_REASONS)
    (detail : Option String) : Blames (.stage ⟨reason, detail⟩) := ⟨_, rfl, h⟩

theorem not_blames_raised (e : Exc) : ¬ Blames (.raised e) := by
  intro ⟨failure, h, _⟩
  cases h

/-- Reading the archive raises nothing unexpected. -/
structure ReadsCleanly (archive : TarStream) : Prop where
  stream : ∀ e, archive.failure ≠ some (.raised e)
  members : ∀ m ∈ archive.members, ∀ e, m.data ≠ .error (.raised e)

/-! ## The scan -/

theorem assertSafeMember_error {m : TarMember} {failure : StageFailure}
    (h : assertSafeMember m = .error failure) : failure.reason = .unsafeTarEntry := by
  unfold assertSafeMember at h
  split at h
  · cases h
    rfl
  · split at h
    · cases h
      rfl
    · split at h
      · cases h
        rfl
      · cases h

theorem readMetadata_error {m : TarMember} {e : Halt} (hclean : ∀ e, m.data ≠ .error (.raised e))
    (h : readMetadata m = .error e) : Blames e := by
  unfold readMetadata at h
  split at h
  · cases h
    exact blames_stage (by decide) _
  · split at h
    · cases h
    · rename_i failure hdata
      cases h
      cases failure with
      | archiveError message => exact blames_stage (by decide) _
      | raised e => exact absurd hdata (hclean e)

theorem scanMember_error {scan : Scan} {m : TarMember} {e : Halt}
    (hclean : ∀ e, m.data ≠ .error (.raised e)) (h : scanMember scan m = .error e) : Blames e := by
  have hread : ∀ {done : List UInt8 → Scan},
      (do return done (← readMetadata m) : Except Halt Scan) = .error e → Blames e := by
    intro done hdone
    cases hbytes : readMetadata m with
    | error e' =>
      rw [hbytes] at hdone
      cases hdone
      exact readMetadata_error hclean hbytes
    | ok bytes =>
      rw [hbytes] at hdone
      cases hdone
  unfold scanMember at h
  dsimp only at h
  split at h
  · cases h
    exact blames_stage (by decide) _
  · split at h
    · rename_i failure hunsafe
      cases h
      refine ⟨failure, rfl, ?_⟩
      rw [assertSafeMember_error hunsafe]
      decide
    · split at h
      · cases h
        exact blames_stage (by decide) _
      · split at h
        · cases h
        · split at h
          · exact hread h
          · split at h
            · exact hread h
            · cases h

theorem scan_error {members : List TarMember} {scan : Scan} {e : Halt}
    (hclean : ∀ m ∈ members, ∀ e, m.data ≠ .error (.raised e))
    (h : members.foldlM scanMember scan = .error e) : Blames e := by
  induction members generalizing scan with
  | nil => cases h
  | cons m rest ih =>
    rw [List.foldlM_cons] at h
    cases hscan : scanMember scan m with
    | error e' =>
      rw [hscan] at h
      cases h
      exact scanMember_error (hclean m List.mem_cons_self) hscan
    | ok after =>
      rw [hscan] at h
      exact ih (fun other hother => hclean other (List.mem_cons_of_mem m hother)) h

/-! ## The two parsers -/

/-- `json.loads` raises what is no decoding error: it is nested too deep, or holds an integer too
    long. -/
def LoadsRaise (py : Interpreter) (raw : List UInt8) : Prop :=
  ∃ e, Json.loads py.recursionLimit raw = .error e ∧
    (e = Json.recursionError ∨ ∃ n, PyStr.maxIntDigits < n ∧ e = PyStr.intTooLong n)

/-- The only manifest of an index has annotations that are neither falsy nor an object. -/
def AnnotationsClash (py : Interpreter) (raw : List UInt8) : Prop :=
  ∃ data first value, Json.loads py.recursionLimit raw = .ok (.obj data) ∧
    Json.get? data "manifests" = some (.arr [.obj first]) ∧
    truthyOrNone (Json.get? first "annotations") = some value ∧ ∀ items, value ≠ .obj items

theorem loadMetadata_cases (py : Interpreter) (name : String) (raw : List UInt8) :
    (∃ data, Json.loads py.recursionLimit raw = .ok data ∧ loadMetadata py name raw = .ok data) ∨
    (∃ failure, loadMetadata py name raw = .error (.stage failure) ∧
      failure.reason = .malformedManifest ∧ ¬ LoadsRaise py raw ∧
      ∀ data, Json.loads py.recursionLimit raw ≠ .ok data) ∨
    ∃ e, loadMetadata py name raw = .error (.raised e) ∧ LoadsRaise py raw := by
  unfold loadMetadata LoadsRaise
  cases hload : Json.loads py.recursionLimit raw with
  | ok data => exact .inl ⟨data, rfl, rfl⟩
  | error e =>
    dsimp only
    by_cases hexpected : e.cls = .jsonDecodeError ∨ e.cls = .unicodeDecodeError
    · rw [if_pos hexpected]
      refine .inr (.inl ⟨_, rfl, rfl, ?_, ?_⟩)
      · intro ⟨e', he', hraised⟩
        obtain rfl := Except.error.inj he'
        rcases hraised with rfl | ⟨n, -, rfl⟩
        · exact absurd hexpected (by decide)
        · exact absurd hexpected (show ¬ (_ ∨ _) by simp [PyStr.intTooLong])
      · intro data hdata
        cases hdata
    · rw [if_neg hexpected]
      refine .inr (.inr ⟨e, rfl, e, rfl, ?_⟩)
      rw [not_or] at hexpected
      rcases Json.loads_raises hload with hunicode | hraisable
      · exact absurd hunicode hexpected.2
      · cases hraisable with
        | malformed m => exact absurd rfl hexpected.1
        | depth => exact .inl rfl
        | digits hn => exact .inr ⟨_, hn, rfl⟩

/-- A result, or the miner's failure. -/
def Rules {α : Type} (result : Except Halt α) : Prop :=
  (∃ a, result = .ok a) ∨ ∃ e, result = .error e ∧ Blames e

theorem not_rules_raised {α : Type} (e : Exc) : ¬ Rules (.error (.raised e) : Except Halt α) := by
  intro h
  rcases h with ⟨a, h⟩ | ⟨e', h, hblames⟩
  · cases h
  · cases h
    exact not_blames_raised e hblames

theorem rules_stage {α : Type} {failure : StageFailure}
    (h : failure.reason ∉ VALIDATOR_FAULT_REASONS) : Rules (.error (.stage failure) : Except Halt α) :=
  .inr ⟨_, rfl, failure, rfl, h⟩

/-- What is done with the document after it was loaded. -/
theorem rules_loaded_iff {α : Type} {py : Interpreter} {name : String} {raw : List UInt8}
    {parse : Json → Except Halt α} {C : Json → Prop}
    (hparse : ∀ data, Rules (parse data) ↔ ¬ C data) :
    Rules (loadMetadata py name raw >>= parse) ↔
      ¬ (LoadsRaise py raw ∨ ∃ data, Json.loads py.recursionLimit raw = .ok data ∧ C data) := by
  rcases loadMetadata_cases py name raw with ⟨data, hload, hresult⟩ |
    ⟨failure, hresult, hreason, hnot, hnone⟩ | ⟨e, hresult, hraise⟩
  · rw [hresult]
    have hnot : ¬ LoadsRaise py raw := by
      intro ⟨e, he, _⟩
      rw [hload] at he
      cases he
    refine (hparse data).trans (not_congr ?_)
    constructor
    · intro hclash
      exact .inr ⟨data, hload, hclash⟩
    · intro h
      rcases h with h | ⟨other, hother, hclash⟩
      · exact absurd h hnot
      · rw [hload] at hother
        obtain rfl := Except.ok.inj hother
        exact hclash
  · rw [hresult]
    refine iff_of_true (rules_stage ?_) ?_
    · rw [hreason]
      decide
    · intro h
      rcases h with h | ⟨other, hother, -⟩
      · exact hnot h
      · exact hnone other hother
  · rw [hresult]
    refine iff_of_false (not_rules_raised e) ?_
    intro h
    exact h (.inl hraise)

theorem rules_stageError {α : Type} {reason : RejectReason} {detail : String}
    (h : reason ∉ VALIDATOR_FAULT_REASONS) : Rules (stageError reason detail : Except Halt α) :=
  rules_stage h

theorem rules_parseDockerManifest {py : Interpreter} {raw : List UInt8} :
    Rules (parseDockerManifest py raw) ↔ ¬ LoadsRaise py raw := by
  unfold parseDockerManifest
  refine (rules_loaded_iff (C := fun _ => False) fun data => iff_of_true ?_ id).trans ?_
  · split
    · split
      · split
        · exact rules_stageError (by decide)
        · exact .inl ⟨_, rfl⟩
      · exact rules_stageError (by decide)
    · exact rules_stageError (by decide)
    · exact rules_stageError (by decide)
  · simp

theorem getObject_cases (items : List (PyStr × Json)) (key : String) :
    (∃ found, getObject items key = .ok found ∧
      ∀ value, truthyOrNone (Json.get? items key) = some value → ∃ items', value = .obj items') ∨
    ∃ e value, getObject items key = .error e ∧ truthyOrNone (Json.get? items key) = some value ∧
      ∀ items', value ≠ .obj items' := by
  unfold getObject
  cases hvalue : truthyOrNone (Json.get? items key) with
  | none =>
    left
    refine ⟨[], rfl, ?_⟩
    intro value h
    cases h
  | some value =>
    cases value with
    | obj items' =>
      left
      refine ⟨items', rfl, ?_⟩
      intro value h
      exact ⟨items', (Option.some.inj h).symm⟩
    | _ =>
      right
      refine ⟨_, _, rfl, rfl, ?_⟩
      intro items' h
      cases h

/-- The document's only manifest has annotations that clash. -/
def ClashesIn (document : Json) : Prop :=
  ∃ data first value, document = .obj data ∧ Json.get? data "manifests" = some (.arr [.obj first]) ∧
    truthyOrNone (Json.get? first "annotations") = some value ∧ ∀ items, value ≠ .obj items

theorem rules_parseOciIndex {py : Interpreter} {raw : List UInt8} :
    Rules (parseOciIndex py raw) ↔ ¬ (LoadsRaise py raw ∨ AnnotationsClash py raw) := by
  have hclash : (∃ document, Json.loads py.recursionLimit raw = .ok document ∧ ClashesIn document) ↔
      AnnotationsClash py raw := by
    constructor
    · intro ⟨document, hload, data, first, value, hdocument, h⟩
      exact ⟨data, first, value, hdocument ▸ hload, h⟩
    · intro ⟨data, first, value, hload, h⟩
      exact ⟨.obj data, hload, data, first, value, rfl, h⟩
  have hplain : ∀ {document : Json}, (∀ data first, document = .obj data →
      Json.get? data "manifests" ≠ some (.arr [.obj first])) → ¬ ClashesIn document := by
    intro document hno ⟨data, first, value, hdocument, hmanifests, _⟩
    exact hno data first hdocument hmanifests
  unfold parseOciIndex
  refine (rules_loaded_iff (C := ClashesIn) fun document => ?_).trans (by rw [hclash])
  cases document with
  | obj data =>
    dsimp only
    split
    · rename_i first hmanifests
      cases first with
      | obj first =>
        rcases getObject_cases first "annotations" with ⟨annotations, hfound, hobjects⟩ |
          ⟨e, value, hraised, hvalue, hnot⟩
        · refine iff_of_true ?_ ?_
          · dsimp only
            rw [hfound]
            exact .inl ⟨_, rfl⟩
          · intro ⟨data', first', value, hdocument, hmanifests', hvalue, hnot⟩
            cases hdocument
            rw [hmanifests] at hmanifests'
            cases hmanifests'
            obtain ⟨items, hitems⟩ := hobjects value hvalue
            exact hnot items hitems
        · refine iff_of_false ?_ ?_
          · dsimp only
            rw [hraised]
            exact not_rules_raised e
          · intro hno
            exact hno ⟨data, first, value, rfl, hmanifests, hvalue, hnot⟩
      | _ =>
        refine iff_of_true (.inl ⟨_, rfl⟩) (hplain ?_)
        intro data' first' hdocument hmanifests'
        cases hdocument
        rw [hmanifests] at hmanifests'
        cases hmanifests'
    · rename_i hmanifests
      refine iff_of_true (rules_stageError (by decide)) (hplain ?_)
      intro data' first' hdocument hmanifests'
      cases hdocument
      rw [hmanifests] at hmanifests'
      cases hmanifests'
    · rename_i hone _
      refine iff_of_true (rules_stageError (by decide)) (hplain ?_)
      intro data' first' hdocument hmanifests'
      cases hdocument
      exact hone _ hmanifests'
  | _ =>
    refine iff_of_true (rules_stageError (by decide)) (hplain ?_)
    intro data' first' hdocument
    cases hdocument

/-! ## The stage -/

/-- The metadata that decides is such that reading it raises: the last `manifest.json`, or, without one
    and with the OCI marker, the last `index.json`. -/
def MetadataRaises (py : Interpreter) (members : List TarMember) : Prop :=
  (∃ raw, (lastNamed DOCKER_ARCHIVE_MANIFEST members).bind metadataOf = some raw ∧
    LoadsRaise py raw) ∨
  ((lastNamed DOCKER_ARCHIVE_MANIFEST members).bind metadataOf = none ∧
    (members.any fun m => normalizeName m.name == OCI_LAYOUT_MARKER) = true ∧
    ∃ raw, (lastNamed OCI_INDEX members).bind metadataOf = some raw ∧
      (LoadsRaise py raw ∨ AnnotationsClash py raw))

/-- An archive whose members are all taken, and whose metadata raises. -/
structure ArchiveRaises (py : Interpreter) (archive : TarStream) : Prop where
  scannable : Scannable archive.members
  whole : archive.failure = none
  metadata : MetadataRaises py archive.members

/-- What a finished parse is made into changes nothing. -/
theorem rules_bind_iff {α β : Type} {x : Except Halt α} {f : α → Except Halt β}
    (hf : ∀ a, ∃ b, f a = .ok b) : Rules (x >>= f) ↔ Rules x := by
  cases x with
  | error e =>
    have hsame : ∀ {γ : Type}, Rules (.error e : Except Halt γ) ↔ Blames e := by
      intro γ
      constructor
      · intro h
        rcases h with ⟨a, h⟩ | ⟨e', h, hblames⟩
        · cases h
        · cases h
          exact hblames
      · intro h
        exact .inr ⟨e, rfl, h⟩
    exact hsame.trans hsame.symm
  | ok a =>
    obtain ⟨b, hb⟩ := hf a
    exact iff_of_true (.inl ⟨b, hb⟩) (.inl ⟨a, rfl⟩)

/-- Of an archive that tarfile reads, the stage makes a result or the miner's failure, unless its metadata
    raises. -/
theorem rules_checkStructure_iff {py : Interpreter} {archive : TarStream}
    (hclean : ReadsCleanly archive) :
    Rules (checkStructure py archive) ↔ ¬ ArchiveRaises py archive := by
  unfold checkStructure
  cases hscan : archive.members.foldlM scanMember {} with
  | error e =>
    refine iff_of_true (.inr ⟨e, rfl, scan_error hclean.members hscan⟩) ?_
    intro hraises
    rw [scan_ok_iff.mpr ⟨hraises.scannable, rfl⟩] at hscan
    cases hscan
  | ok scan =>
    obtain ⟨hscannable, rfl⟩ := scan_ok_iff.mp hscan
    show Rules (pure (scanned archive.members) >>= _) ↔ _
    rw [pure_bind]
    cases hfailure : archive.failure with
    | some failure =>
      have hhalt : Rules (.error failure.halt : Except Halt StructureInfo) := by
        cases failure with
        | archiveError message => exact .inr ⟨_, rfl, blames_stage (by decide) _⟩
        | raised e => exact absurd hfailure (hclean.stream e)
      refine iff_of_true hhalt ?_
      intro hraises
      rw [hraises.whole] at hfailure
      cases hfailure
    | none =>
      have hraises : ArchiveRaises py archive ↔ MetadataRaises py archive.members :=
        ⟨fun h => h.metadata, fun h => ⟨hscannable, hfailure, h⟩⟩
      rw [hraises]
      dsimp only
      by_cases hempty : (scanned archive.members).entryCount = 0
      · rw [if_pos hempty]
        refine iff_of_true (rules_stageError (by decide)) ?_
        have hnone : archive.members = [] := List.length_eq_zero_iff.mp hempty
        rw [hnone]
        intro h
        rcases h with ⟨raw, hraw, -⟩ | ⟨-, hmarker, -⟩
        · cases hraw
        · cases hmarker
      · rw [if_neg hempty]
        unfold MetadataRaises
        have hmanifests : (scanned archive.members).manifestRaw =
          (lastNamed DOCKER_ARCHIVE_MANIFEST archive.members).bind metadataOf := rfl
        have hindexes : (scanned archive.members).indexRaw =
          (lastNamed OCI_INDEX archive.members).bind metadataOf := rfl
        rw [hmanifests, hindexes]
        cases hmanifest : (lastNamed DOCKER_ARCHIVE_MANIFEST archive.members).bind metadataOf with
        | some raw =>
          dsimp only
          refine (rules_bind_iff fun a => ⟨_, rfl⟩).trans ?_
          rw [rules_parseDockerManifest]
          simp
        | none =>
          cases hindex : (lastNamed OCI_INDEX archive.members).bind metadataOf with
          | none =>
            refine iff_of_true (rules_stageError (by decide)) ?_
            simp
          | some raw =>
            dsimp only
            have hmarker : (scanned archive.members).sawOciLayout =
              archive.members.any fun m => normalizeName m.name == OCI_LAYOUT_MARKER := rfl
            rw [hmarker]
            cases archive.members.any fun m => normalizeName m.name == OCI_LAYOUT_MARKER with
            | false =>
              refine iff_of_true (rules_stageError (by decide)) ?_
              simp
            | true =>
              rw [if_pos rfl]
              refine (rules_bind_iff fun a => ⟨_, rfl⟩).trans ?_
              rw [rules_parseOciIndex]
              simp

/-- A failure that is raised as one is the miner's. -/
def StagesBlame {α : Type} (x : Except Halt α) : Prop :=
  ∀ failure, x = .error (.stage failure) → failure.reason ∉ VALIDATOR_FAULT_REASONS

section StagesBlame

variable {α β : Type}

theorem stagesBlame_ok (a : α) : StagesBlame (.ok a : Except Halt α) := by
  intro failure h
  cases h

theorem stagesBlame_raised (e : Exc) : StagesBlame (.error (.raised e) : Except Halt α) := by
  intro failure h
  cases h

theorem stagesBlame_stageError {reason : RejectReason} (h : reason ∉ VALIDATOR_FAULT_REASONS)
    (detail : String) : StagesBlame (stageError reason detail : Except Halt α) := by
  intro failure hfailure
  cases hfailure
  exact h

theorem Blames.stagesBlame {e : Halt} (h : Blames e) : StagesBlame (.error e : Except Halt α) := by
  intro failure hfailure
  obtain ⟨failure', rfl, hreason⟩ := h
  cases hfailure
  exact hreason

theorem stagesBlame_bind {x : Except Halt α} {f : α → Except Halt β} (hx : StagesBlame x)
    (hf : ∀ a, StagesBlame (f a)) : StagesBlame (x >>= f) := by
  intro failure h
  cases x with
  | error e =>
    cases h
    exact hx failure rfl
  | ok a => exact hf a failure h

theorem stagesBlame_loadMetadata (py : Interpreter) (name : String) (raw : List UInt8) :
    StagesBlame (loadMetadata py name raw) := by
  rcases loadMetadata_cases py name raw with ⟨data, -, hresult⟩ | ⟨failure, hresult, hreason, -, -⟩ |
    ⟨e, hresult, -⟩
  · rw [hresult]
    exact stagesBlame_ok data
  · rw [hresult]
    intro failure' h
    cases h
    rw [hreason]
    decide
  · rw [hresult]
    exact stagesBlame_raised e

theorem stagesBlame_parseDockerManifest (py : Interpreter) (raw : List UInt8) :
    StagesBlame (parseDockerManifest py raw) := by
  refine stagesBlame_bind (stagesBlame_loadMetadata _ _ _) fun data => ?_
  split
  · split
    · split
      · exact stagesBlame_stageError (by decide) _
      · exact stagesBlame_ok _
    · exact stagesBlame_stageError (by decide) _
  · exact stagesBlame_stageError (by decide) _
  · exact stagesBlame_stageError (by decide) _

theorem stagesBlame_parseOciIndex (py : Interpreter) (raw : List UInt8) :
    StagesBlame (parseOciIndex py raw) := by
  refine stagesBlame_bind (stagesBlame_loadMetadata _ _ _) fun data => ?_
  split
  · split
    · dsimp only
      split
      · split
        · exact stagesBlame_ok _
        · exact stagesBlame_raised _
      · exact stagesBlame_ok _
    · exact stagesBlame_stageError (by decide) _
    · exact stagesBlame_stageError (by decide) _
  · exact stagesBlame_stageError (by decide) _

theorem stagesBlame_checkStructure {py : Interpreter} {archive : TarStream}
    (hclean : ReadsCleanly archive) : StagesBlame (checkStructure py archive) := by
  unfold checkStructure
  refine stagesBlame_bind ?_ fun scan => ?_
  · intro failure h
    exact (scan_error hclean.members h).stagesBlame (α := Scan) failure rfl
  · split
    · rename_i failure hfailure
      cases failure with
      | archiveError message => exact stagesBlame_stageError (by decide) message
      | raised e => exact absurd hfailure (hclean.stream e)
    · split
      · exact stagesBlame_stageError (by decide) _
      · split
        · exact stagesBlame_bind (stagesBlame_parseDockerManifest py _) fun _ => stagesBlame_ok _
        · split
          · exact stagesBlame_bind (stagesBlame_parseOciIndex py _) fun _ => stagesBlame_ok _
          · exact stagesBlame_stageError (by decide) _
        · exact stagesBlame_stageError (by decide) _

end StagesBlame

/-! ## The verdict -/

/-- The stage fails, and the check records it. -/
theorem checkSubmission_structure {δ : Type} {o : Outside δ} {py : Interpreter} {input : CheckInput}
    {info : FileInfo} {w : World δ} {e : Halt}
    (hfile : checkFile py input.submission.filePath input.content = .ok info)
    (hunsettled : settledByFile input info.sha256 (afterFile info w) = none)
    (he : checkStructure py input.archive = .error e) :
    ∃ verdict, (checkSubmission o py input w).1 = .ok verdict ∧ verdict.stageReached = .structure ∧
      verdict.rejectReason = some (match e with
        | .stage failure => failure.reason
        | .raised _ => .internalError) := by
  have hraised := submissionStages_misstructured (o := o) hfile hunsettled he
  unfold checkSubmission runCheck
  rw [Prog.tryFinally, Prog.tryExcept_error hraised]
  cases e with
  | stage failure => exact ⟨_, rfl, rfl, rfl⟩
  | raised e => exact ⟨_, rfl, rfl, rfl⟩

/-- **The stage blames the miner or returns, and a check records no INTERNAL_ERROR for it, exactly where
    the metadata that decides does not raise.** The check is of a file that no earlier row settles. -/
theorem metadata_blames_iff {py : Interpreter} {archive : TarStream} (hclean : ReadsCleanly archive) :
    (Rules (checkStructure py archive) ↔ ¬ ArchiveRaises py archive) ∧
    ∀ {δ : Type} (o : Outside δ) (input : CheckInput) (info : FileInfo) (w : World δ),
      input.archive = archive →
      checkFile py input.submission.filePath input.content = .ok info →
      settledByFile input info.sha256 (afterFile info w) = none →
      (∀ found, checkStructure py archive ≠ .ok found) →
      ∃ verdict, (checkSubmission o py input w).1 = .ok verdict ∧
        verdict.stageReached = .structure ∧
        (verdict.rejectReason = some .internalError ↔ ArchiveRaises py archive) := by
  have hrules : Rules (checkStructure py archive) ↔ ¬ ArchiveRaises py archive :=
    rules_checkStructure_iff hclean
  refine ⟨hrules, ?_⟩
  intro δ o input info w harchive hfile hunsettled hfails
  subst harchive
  cases he : checkStructure py input.archive with
  | ok found => exact absurd he (hfails found)
  | error e =>
    obtain ⟨verdict, hverdict, hstage, hreason⟩ :=
      checkSubmission_structure (o := o) hfile hunsettled he
    refine ⟨verdict, hverdict, hstage, ?_⟩
    rw [he] at hrules
    rw [hreason]
    cases e with
    | raised e => exact iff_of_true rfl (not_not.mp fun hnot => not_rules_raised e (hrules.mpr hnot))
    | stage failure =>
      have hblames := stagesBlame_checkStructure hclean failure he
      refine iff_of_false ?_ fun hraises => hrules.mp (rules_stage hblames) hraises
      intro hinternal
      have hreason' : failure.reason = .internalError := Option.some.inj hinternal
      rw [hreason'] at hblames
      exact hblames (by decide)

/-! ## Two archives -/

def textFile (name text : String) : TarMember where
  name := PyStr.ofString name
  type := .regular
  size := text.toUTF8.size
  data := .ok text.toUTF8.toList

theorem readsCleanly_textFiles (files : List (String × String)) :
    ReadsCleanly ⟨files.map fun f => textFile f.1 f.2, none⟩ := by
  constructor
  · intro e h
    cases h
  · intro m hm e h
    obtain ⟨f, -, rfl⟩ := List.mem_map.mp hm
    cases h

/-- The manifest of one image. -/
def oneImage : String := "[\x7b\"Config\":\"c\",\"Layers\":[]\x7d]"

theorem metadata_blames_one_image :
    Rules (checkStructure cpython ⟨[("manifest.json", oneImage)].map fun f => textFile f.1 f.2, none⟩) := by
  refine (metadata_blames_iff (readsCleanly_textFiles _)).1.mpr ?_
  intro hraises
  have hbytes : (lastNamed DOCKER_ARCHIVE_MANIFEST
      ([("manifest.json", oneImage)].map fun f => textFile f.1 f.2)).bind metadataOf =
        some oneImage.toUTF8.toList := by decide +kernel
  rcases hraises.metadata with ⟨raw, hraw, e, he, -⟩ | ⟨hnone, -⟩
  · rw [hbytes] at hraw
    obtain rfl := Option.some.inj hraw
    have hloads : (Json.loads cpython.recursionLimit oneImage.toUTF8.toList).isOk = true := by
      decide +kernel
    rw [he] at hloads
    cases hloads
  · rw [hbytes] at hnone
    cases hnone

/-- The annotations of the only manifest are a list. -/
def listAnnotations : TarStream :=
  ⟨[("oci-layout", "\x7b\x7d"),
    ("index.json", "\x7b\"manifests\":[\x7b\"annotations\":[1]\x7d]\x7d")].map fun f =>
      textFile f.1 f.2, none⟩

theorem listAnnotations_raise : checkStructure cpython listAnnotations =
    .error (.raised ⟨.attributeError, "object has no attribute 'get'"⟩) := by decide +kernel

theorem list_annotations_fault :
    ¬ ∀ (py : Interpreter) (archive : TarStream), ReadsCleanly archive →
      Rules (checkStructure py archive) := by
  intro hclaim
  have hrules := hclaim cpython listAnnotations (readsCleanly_textFiles _)
  rw [listAnnotations_raise] at hrules
  exact not_rules_raised _ hrules

end TaoSubnet
