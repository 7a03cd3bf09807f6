import TaoSubnet.Lib.Named
import TaoSubnet.Proof.Security.Twins

/-!
# What a check leaves in Docker

A load binds every tag of an archive and reports each on a line of its own. `load_image` hands back
the first line's name, and the `finally` clause removes that one. So a check leaves Docker's images
and tags as they were only where taking that one name away undoes the load.
-/

namespace TaoSubnet

open Py Named

/-! ## What a load prints -/

/-- A name with nothing blank in it. -/
structure IsWord (s : String) : Prop where
  nonempty : s.toList ≠ []
  solid : ∀ c ∈ s.toList, isSpace c = false

/-- One line a tag, or one for the id if there is none. -/
def loadReport (tags : List String) (id : String) : String :=
  if tags.isEmpty then "Loaded image ID: " ++ id ++ "\n"
  else String.join (tags.map fun tag => "Loaded image: " ++ tag ++ "\n")

/-- What the two labels begin with. -/
def loadedImage : List Char := ['L', 'o', 'a', 'd', 'e', 'd', ' ', 'i', 'm', 'a', 'g', 'e']

theorem idLabel_toList : "Loaded image ID:".toList = loadedImage ++ [' ', 'I', 'D', ':'] := by
  decide +kernel

theorem tagLabel_toList : "Loaded image:".toList = loadedImage ++ [':'] := by decide +kernel

/-- The lines of some tags, and the empty one that `load_image` adds. -/
def tagLines : List String → List Char
  | [] => ['\n']
  | tag :: rest => (loadedImage ++ [':']) ++ ' ' :: (tag.toList ++ '\n' :: tagLines rest)

/-- A label, a blank and a word on a line: the word is read. -/
theorem loadedRefAt_word {label word : String} (hword : IsWord word) (rest : List Char) :
    loadedRefAt label (label.toList ++ ' ' :: (word.toList ++ '\n' :: rest)) = some word := by
  have hblank : (' ' :: (word.toList ++ '\n' :: rest)).dropWhile isSpace =
      word.toList ++ '\n' :: rest := by
    obtain ⟨c, more, hc⟩ := List.exists_cons_of_ne_nil hword.nonempty
    have hsolid : isSpace c = false := hword.solid c (by rw [hc]; exact List.mem_cons_self)
    rw [List.dropWhile_cons_of_pos (by decide), hc, List.cons_append,
      List.dropWhile_cons_of_neg (by simp [hsolid])]
  have hspan : span1 (fun c => !isSpace c) (word.toList ++ '\n' :: rest) =
      some (word.toList, '\n' :: rest) := by
    apply span1_append hword.nonempty
    · intro c hc
      simp [hword.solid c hc]
    · intro c hc
      obtain rfl := Option.some.inj hc
      decide
  have hline : ('\n' :: rest).takeWhile isSpace = '\n' :: rest.takeWhile isSpace :=
    List.takeWhile_cons_of_pos (by decide)
  unfold loadedRefAt
  rw [dropPrefix?_append]
  show (span1 _ (List.dropWhile isSpace _)).bind _ = _
  rw [hblank, hspan]
  simp [hline]

/-- A newline is in a line's end only. -/
theorem after_newline {line rest t : List Char} (hline : '\n' ∉ line)
    (h : '\n' :: t <:+ line ++ '\n' :: rest) : t = rest ∨ '\n' :: t <:+ rest := by
  induction line with
  | nil =>
    rcases List.suffix_cons_iff.mp h with heq | hrest
    · injection heq with _ heq
      exact .inl heq
    · exact .inr hrest
  | cons c line ih =>
    rcases List.suffix_cons_iff.mp h with heq | hrest
    · injection heq with heq _
      exact absurd (heq ▸ List.mem_cons_self) hline
    · exact ih (fun hmem => hline (List.mem_cons_of_mem c hmem)) hrest

theorem mem_fromLineStarts {s t : List Char} (h : t ∈ fromLineStarts s) :
    t = s ∨ '\n' :: t <:+ s := by
  unfold fromLineStarts at h
  rcases List.mem_cons.mp h with h | h
  · exact .inl h
  · obtain ⟨u, hu, ht⟩ := List.mem_filterMap.mp h
    split at ht
    · obtain rfl := Option.some.inj ht
      exact .inr ((List.mem_tails _ _).mp hu)
    · cases ht

/-- Each line of the report begins as those of tags do, or is empty. -/
theorem tagLines_starts {tags : List String} (hwords : ∀ tag ∈ tags, IsWord tag) {t : List Char}
    (h : '\n' :: t <:+ tagLines tags) : t = [] ∨ ∃ later, t = tagLines later := by
  induction tags with
  | nil =>
    rcases List.suffix_cons_iff.mp h with heq | hrest
    · injection heq with _ heq
      exact .inl heq
    · exact absurd (List.suffix_nil.mp hrest) (List.cons_ne_nil _ _)
  | cons tag rest ih =>
    have hline : '\n' ∉ (loadedImage ++ [':']) ++ ' ' :: tag.toList := by
      intro hmem
      rcases List.mem_append.mp hmem with hmem | hmem
      · exact absurd hmem (by decide)
      · rcases List.mem_cons.mp hmem with heq | hmem
        · exact absurd heq (by decide)
        · have hsolid := (hwords tag List.mem_cons_self).solid '\n' hmem
          exact absurd hsolid (by decide)
    have hsplit : tagLines (tag :: rest) =
        ((loadedImage ++ [':']) ++ ' ' :: tag.toList) ++ '\n' :: tagLines rest := by
      simp only [tagLines, List.append_assoc, List.cons_append]
    rw [hsplit] at h
    rcases after_newline hline h with heq | hrest
    · exact .inr ⟨rest, heq⟩
    · exact ih (fun other hother => hwords other (List.mem_cons_of_mem tag hother)) hrest

theorem idLabel_none (later : List String) : loadedRefAt "Loaded image ID:" (tagLines later) = none := by
  have hdrop : ∀ (common : List Char) (c d : Char) (xs ys : List Char), c ≠ d →
      dropPrefix? (common ++ c :: xs) (common ++ d :: ys) = none := by
    intro common c d xs ys hne
    induction common with
    | nil => exact dropPrefix?_eq_none hne
    | cons e common ih =>
      rw [List.cons_append, List.cons_append, dropPrefix?, if_pos rfl, ih]
  have hnone : dropPrefix? "Loaded image ID:".toList (tagLines later) = none := by
    rw [idLabel_toList]
    cases later with
    | nil => rfl
    | cons tag rest =>
      rw [tagLines, List.append_assoc]
      exact hdrop loadedImage ' ' ':' _ _ (by decide)
  unfold loadedRefAt
  rw [hnone]
  rfl

theorem newline_toList : "\n".toList = ['\n'] := by decide +kernel

theorem tagLines_eq (tags : List String) :
    (String.join (tags.map fun tag => "Loaded image: " ++ tag ++ "\n")).toList ++ ['\n'] =
      tagLines tags := by
  have hlabel : "Loaded image: ".toList = (loadedImage ++ [':']) ++ [' '] := by decide +kernel
  induction tags with
  | nil => rfl
  | cons tag rest ih =>
    rw [tagLines, ← ih, List.map_cons, String.join_cons, String.toList_append, String.toList_append,
      String.toList_append, hlabel]
    simp only [List.append_assoc, List.cons_append, List.nil_append, newline_toList]

/-- **What `load_image` reads of a load's report** is the name on its first line. -/
theorem reportedRef_report {tags : List String} {id : String} {result : CompletedProcess}
    (hwords : ∀ tag ∈ tags, IsWord tag) (hid : IsWord id)
    (hstdout : result.stdout = loadReport tags id) (hstderr : result.stderr = "") :
    reportedRef result = some (tags.headD id) := by
  unfold reportedRef
  rw [hstdout, hstderr]
  cases tags with
  | nil =>
    have htext : (loadReport [] id ++ "\n" ++ "").toList =
        "Loaded image ID:".toList ++ ' ' :: (id.toList ++ '\n' :: ['\n']) := by
      have hlabel : "Loaded image ID: ".toList = "Loaded image ID:".toList ++ [' '] := by decide
      simp [loadReport, hlabel]
    have hfound : loadedRef "Loaded image ID:" (loadReport [] id ++ "\n" ++ "") = some id := by
      unfold loadedRef fromLineStarts
      rw [htext, List.findSome?_cons, loadedRefAt_word hid]
    dsimp only
    rw [hfound]
    rfl
  | cons tag rest =>
    have htext : (loadReport (tag :: rest) id ++ "\n" ++ "").toList = tagLines (tag :: rest) := by
      rw [← tagLines_eq]
      simp [loadReport]
    have hnone : loadedRef "Loaded image ID:" (loadReport (tag :: rest) id ++ "\n" ++ "") = none := by
      unfold loadedRef
      rw [htext]
      apply List.findSome?_eq_none_iff.mpr
      intro t ht
      rcases mem_fromLineStarts ht with rfl | hsuffix
      · exact idLabel_none (tag :: rest)
      · rcases tagLines_starts hwords hsuffix with rfl | ⟨later, rfl⟩
        · decide
        · exact idLabel_none later
    have hfound : loadedRef "Loaded image:" (loadReport (tag :: rest) id ++ "\n" ++ "") = some tag := by
      unfold loadedRef fromLineStarts
      rw [htext, List.findSome?_cons, tagLines, ← tagLabel_toList,
        loadedRefAt_word (hwords tag List.mem_cons_self)]
    dsimp only
    rw [hnone, hfound]
    rfl

/-! ## Docker's images and tags -/

abbrev ImageStore := Store String String

/-- Docker's way with the images and the tags it has, for an archive at `path` with the given tags
    and an image of the given id. -/
structure StoreLaws {δ : Type} (o : Outside δ) (store : δ → ImageStore) (path : String)
    (tags : List String) (id : String) : Prop where
  words : ∀ tag ∈ tags, IsWord tag
  idWord : IsWord id
  /-- A load binds every tag of the archive, and reports a line for each. -/
  load : ∀ d result, (o.docker d (loadArgs path)).1 = .ok result → result.returncode = 0 →
    store (o.docker d (loadArgs path)).2 = (store d).load tags id ∧
      result.stdout = loadReport tags id ∧ result.stderr = ""
  loadFailed : ∀ d, (∀ result, (o.docker d (loadArgs path)).1 = .ok result → result.returncode ≠ 0) →
    store (o.docker d (loadArgs path)).2 = store d
  /-- Removing a tag removes the image only when it was the last. -/
  removeTag : ∀ d tag, (store d).bound tag ≠ none →
    store (o.docker d (imageRemoveArgs tag)).2 = (store d).release tag
  removeId : ∀ d, (store d).bound id = none → id ∈ (store d).present →
    store (o.docker d (imageRemoveArgs id)).2 = (store d).delete id
  inspect : ∀ d ref, store (o.docker d (inspectArgs ref)).2 = store d
  create : ∀ d ref, store (o.docker d (dryRunCreateArgs ref)).2 = store d
  container : ∀ d args, args.headD "" ∈ CONTAINER_VERBS → store (o.docker d args).2 = store d

/-- What a load and the removal of what it reports first come to. -/
def afterCheck (s : ImageStore) (tags : List String) (id : String) : ImageStore :=
  if isSafeImageRef (tags.headD id) then
    match tags with
    | [] => (s.load [] id).delete id
    | first :: rest => (s.load (first :: rest) id).release first
  else s.load tags id

/-- The load is undone: the first tag was free, the others were the image's already, and the image had
    a tag if it was there; without tags, it was not there. A name that is not removed has to have been
    there. -/
def Undone (s : ImageStore) (tags : List String) (id : String) : Prop :=
  if isSafeImageRef (tags.headD id) then
    match tags with
    | [] => id ∉ s.present
    | first :: rest => s.bound first = none ∧
        (∀ tag ∈ first :: rest, tag ≠ first → s.bound tag = some id) ∧
        (id ∈ s.present → ∃ tag, s.bound tag = some id)
  else id ∈ s.present ∧ ∀ tag ∈ tags, s.bound tag = some id

theorem afterCheck_eq_iff (s : ImageStore) (tags : List String) (id : String) :
    afterCheck s tags id = s ↔ Undone s tags id := by
  unfold afterCheck Undone
  split
  · cases tags with
    | nil => exact Store.delete_load_iff
    | cons first rest => exact Store.release_load_iff List.mem_cons_self
  · exact Store.load_eq_self_iff

/-! ## The check -/

section Check

variable {δ : Type} {o : Outside δ} {py : Interpreter} {input : CheckInput}

/-- The check gets as far as loading, and the load ends well. -/
def Loads (o : Outside δ) (py : Interpreter) (input : CheckInput) (w : World δ) : Prop :=
  ∃ info found result, checkFile py input.submission.filePath input.content = .ok info ∧
    settledByFile input info.sha256 (afterFile info w) = none ∧
    checkStructure py input.archive = .ok found ∧
    (o.docker w.outside (loadArgs input.submission.filePath)).1 = .ok result ∧ result.returncode = 0

theorem assertSafeImageRef_state (ref : String) (w : World δ) :
    (assertSafeImageRef ref w).2 = w := by
  unfold assertSafeImageRef
  split
  · rfl
  · rfl

theorem loadImage_outside (path : String) (w : World δ) :
    (loadImage o path w).2.outside = (o.docker w.outside (loadArgs path)).2 := by
  unfold loadImage
  rw [Prog.bind_run, runDocker_eq]
  cases dockerResult (loadArgs path) DOCKER_LOAD_TIMEOUT_S .loadFailed
      (o.docker w.outside (loadArgs path)).1 with
  | error e => rfl
  | ok result =>
    dsimp only
    split
    · rfl
    · cases reportedRef result with
      | none => rfl
      | some ref => exact congrArg World.outside (assertSafeImageRef_state ref _)

/-- Of a load that ended well, what it reports first comes back, if it is safe. -/
theorem loadImage_reported {path ref : String} {w : World δ} {result : CompletedProcess}
    (hanswer : (o.docker w.outside (loadArgs path)).1 = .ok result) (hzero : result.returncode = 0)
    (hreported : reportedRef result = some ref) :
    (loadImage o path w).1 = if isSafeImageRef ref then .ok ref else
      .error (.stage ⟨.loadFailed, some ("unsafe image reference from docker: " ++
        Py.reprStr ref)⟩) := by
  have hresult : dockerResult (loadArgs path) DOCKER_LOAD_TIMEOUT_S .loadFailed (.ok result) =
      .ok result := by
    unfold dockerResult
    exact if_neg (fun h => h.1 hzero)
  unfold loadImage
  rw [Prog.bind_run, runDocker_eq, hanswer, hresult]
  dsimp only
  rw [if_neg (not_not.mpr hzero), hreported]
  dsimp only
  unfold assertSafeImageRef
  split
  · rfl
  · rfl

/-- A check that holds no image at its end cleans nothing up. -/
theorem checkSubmission_unheld {w : World δ} {r : Except Halt Verdict} {c : CheckState δ}
    (h : submissionStages o py input { world := w, stage := .file } = (r, c))
    (hheld : c.imageRef = none) : (checkSubmission o py input w).2 = c.world := by
  have hdrop : dropImage o input.keepImage c = (.ok (), c) := by
    unfold dropImage
    rw [Prog.bind_ok (Prog.get_run c), hheld]
    rfl
  unfold checkSubmission runCheck
  cases r with
  | ok verdict => rw [Prog.tryFinally_ok (Prog.tryExcept_ok h) hdrop]
  | error e =>
    have hhalt : ∃ verdict, haltVerdict input.submission e c = (.ok verdict, c) := by
      cases e with
      | stage failure => exact ⟨_, rfl⟩
      | raised e => exact ⟨_, rfl⟩
    obtain ⟨verdict, hverdict⟩ := hhalt
    rw [Prog.tryFinally_ok ((Prog.tryExcept_error h).trans hverdict) hdrop]

/-- The cleanup ends where it is run from the body's end. -/
theorem tryFinally_state {σ ε α : Type} (body : Prog σ ε α) (cleanup : Prog σ ε Unit) (s : σ) :
    (Prog.tryFinally body cleanup s).2 = (cleanup (body s).2).2 := by
  unfold Prog.tryFinally
  rcases body s with ⟨r, s'⟩
  dsimp only
  rcases cleanup s' with ⟨e | done, s''⟩
  · rfl
  · rfl

theorem submissionStages_unloaded {info : FileInfo} {found : StructureInfo} {e : Halt}
    {w w' : World δ} (hfile : checkFile py input.submission.filePath input.content = .ok info)
    (hunsettled : settledByFile input info.sha256 (afterFile info w) = none)
    (hstructure : checkStructure py input.archive = .ok found)
    (hload : loadImage o input.submission.filePath w = (.error e, w')) :
    submissionStages o py input { world := w, stage := .file } =
      (.error e, loadingState (fileEvidence info found) none w') := by
  have hin : inWorld (loadImage o input.submission.filePath)
      (loadingState (fileEvidence info found) none w) =
        (.error e, loadingState (fileEvidence info found) none w') := by
    unfold inWorld loadingState
    dsimp only
    rw [hload]
  rw [submissionStages_eq hfile, hunsettled]
  show fromStructure o py input (afterFile info w) = _
  unfold fromStructure
  rw [hstructure]
  show (inWorld (loadImage o input.submission.filePath) >>= fun ref =>
    holdImage ref >>= fun _ => checkLoaded o py input ref : Check δ Verdict)
      (loadingState (fileEvidence info found) none w) = _
  rw [Prog.bind_error hin]

variable {store : δ → ImageStore} {tags : List String} {id : String}

/-- Removing the name a load reports first takes Docker where `afterCheck` says. -/
theorem StoreLaws.removed (laws : StoreLaws o store input.submission.filePath tags id)
    (hsafe : isSafeImageRef (tags.headD id) = true) {s : ImageStore} (hname : s.bound id = none)
    {d : δ} (hd : store d = s.load tags id) :
    store (o.docker d (imageRemoveArgs (tags.headD id))).2 = afterCheck s tags id := by
  unfold afterCheck
  rw [if_pos hsafe]
  cases tags with
  | nil =>
    show store (o.docker d (imageRemoveArgs id)).2 = (s.load [] id).delete id
    have hpresent : id ∈ (store d).present := by
      rw [hd]
      exact .inl rfl
    have hfree : (store d).bound id = none := by
      rw [hd]
      exact hname
    rw [laws.removeId d hfree hpresent, hd]
  | cons first rest =>
    show store (o.docker d (imageRemoveArgs first)).2 = (s.load (first :: rest) id).release first
    have hbound : (store d).bound first = some id := by
      rw [hd]
      exact if_pos List.mem_cons_self
    rw [laws.removeTag d first (by rw [hbound]; exact Option.some_ne_none id), hd]

/-- Nothing between the load and the clean-up changes the images or their tags. -/
theorem StoreLaws.keeps_checkLoaded (laws : StoreLaws o store input.submission.filePath tags id)
    (ref : String) (s : ImageStore) :
    Prog.Keeps (InCheck (fun w => store w.outside = s) (· = some ref))
      (checkLoaded o py input ref) :=
  keeps_checkLoaded_held (fun w hw => (laws.inspect w.outside ref).trans hw)
    (fun w hw => (laws.create w.outside ref).trans hw)
    fun args hargs w hw => (laws.container w.outside args hargs).trans hw

theorem removeImage_outside {ref : String} (hsafe : isSafeImageRef ref = true) (w : World δ) :
    (removeImage o ref w).2.outside = (o.docker w.outside (imageRemoveArgs ref)).2 := by
  unfold removeImage bestEffort assertSafeImageRef Prog.tryExcept
  rw [if_pos hsafe, Prog.pure_bind, Prog.bind_run, runDocker_eq]
  cases dockerResult (imageRemoveArgs ref) DOCKER_CLI_TIMEOUT_S .internalError
      (o.docker w.outside (imageRemoveArgs ref)).1 with
  | ok result => rfl
  | error e =>
    cases e with
    | stage failure => rfl
    | raised e => rfl

theorem dropImage_outside {ref : String} (hsafe : isSafeImageRef ref = true) {c : CheckState δ}
    (hheld : c.imageRef = some ref) :
    (dropImage o false c).2.world.outside =
      (o.docker c.world.outside (imageRemoveArgs ref)).2 := by
  have hne : ¬ (ref = "" ∨ false = true) := by
    intro h
    exact h.elim (safe_ne_empty hsafe) Bool.false_ne_true
  unfold dropImage
  rw [Prog.bind_ok (Prog.get_run c), hheld]
  dsimp only
  rw [if_neg hne, ← removeImage_outside hsafe, Prog.bind_run]
  unfold inWorld
  generalize removeImage o ref c.world = run
  obtain ⟨r, w'⟩ := run
  cases r with
  | ok done => rfl
  | error e => rfl

/-- A check whose load does not end well changes nothing. -/
theorem StoreLaws.not_loaded (laws : StoreLaws o store input.submission.filePath tags id)
    {w : World δ} (h : ¬ Loads o py input w) :
    store (checkSubmission o py input w).2.outside = store w.outside := by
  cases hfile : checkFile py input.submission.filePath input.content with
  | error failure =>
    have hstages : submissionStages o py input { world := w, stage := .file } =
        (.error (.stage failure), { world := w, stage := .file }) := by
      unfold submissionStages
      rw [hfile]
      rfl
    rw [checkSubmission_unheld hstages rfl]
  | ok info =>
    cases hsettled : settledByFile input info.sha256 (afterFile info w) with
    | some verdict => rw [checkSubmission_settled hfile hsettled]
    | none =>
      cases hstructure : checkStructure py input.archive with
      | error e =>
        have hraised := submissionStages_misstructured (o := o) hfile hsettled hstructure
        rw [checkSubmission_unheld hraised rfl]
        rfl
      | ok found =>
        rcases hload : loadImage o input.submission.filePath w with ⟨e | ref, loaded⟩
        · have hraised := submissionStages_unloaded hfile hsettled hstructure hload
          have houtside := loadImage_outside (o := o) input.submission.filePath w
          rw [checkSubmission_unheld hraised rfl]
          show store loaded.outside = store w.outside
          rw [hload] at houtside
          rw [houtside]
          apply laws.loadFailed
          intro result hanswer hzero
          exact h ⟨info, found, result, hfile, hsettled, hstructure, hanswer, hzero⟩
        · obtain ⟨result, hanswer, hzero, -, -⟩ := loadImage_ok hload
          exact absurd ⟨info, found, result, hfile, hsettled, hstructure, hanswer, hzero⟩ h

/-- A check whose load ends well leaves what the load and one removal come to. -/
theorem StoreLaws.loaded (laws : StoreLaws o store input.submission.filePath tags id)
    (hkeep : input.keepImage = false) {w : World δ} (hname : (store w.outside).bound id = none)
    (h : Loads o py input w) :
    store (checkSubmission o py input w).2.outside = afterCheck (store w.outside) tags id := by
  obtain ⟨info, found, result, hfile, hsettled, hstructure, hanswer, hzero⟩ := h
  obtain ⟨hstore, hstdout, hstderr⟩ := laws.load _ _ hanswer hzero
  have hreported := reportedRef_report laws.words laws.idWord hstdout hstderr
  have houtside := loadImage_outside (o := o) input.submission.filePath w
  have hvalue := loadImage_reported hanswer hzero hreported
  rcases hload : loadImage o input.submission.filePath w with ⟨e | ref, loaded⟩
  · have hraised := submissionStages_unloaded hfile hsettled hstructure hload
    rw [hload] at houtside hvalue
    rw [checkSubmission_unheld hraised rfl]
    show store loaded.outside = _
    have hunsafe : ¬ isSafeImageRef (tags.headD id) = true := by
      intro hsafe
      rw [if_pos hsafe] at hvalue
      cases hvalue
    rw [houtside, hstore]
    unfold afterCheck
    rw [if_neg hunsafe]
  · obtain ⟨_, -, -, -, hsafe⟩ := loadImage_ok hload
    have hstages := submissionStages_loaded hfile hsettled hstructure hload
    rw [hload] at houtside hvalue
    have href : ref = tags.headD id := by
      split at hvalue
      · exact Except.ok.inj hvalue
      · cases hvalue
    subst href
    have hrun := guarded_congr hstages (haltVerdict input.submission) (dropImage o input.keepImage)
    -- The guarded check holds the image at its end, in the store that the load left.
    have hguarded : Prog.Keeps
        (InCheck (fun w' => store w'.outside = (store w.outside).load tags id)
          (· = some (tags.headD id)))
        (Prog.tryExcept (checkLoaded o py input (tags.headD id)) (haltVerdict input.submission)) :=
      .tryExcept (laws.keeps_checkLoaded _ _) fun e => keeps_haltVerdict _ e
    have hstart : store loaded.outside = (store w.outside).load tags id := by
      rw [← hstore]
      exact congrArg store houtside
    obtain ⟨hend, hheld⟩ := hguarded
      (loadingState (fileEvidence info found) (some (tags.headD id)) loaded) ⟨hstart, rfl⟩
    have hdropped := dropImage_outside (o := o) hsafe hheld
    have hafter : store (checkSubmission o py input w).2.outside =
        store (o.docker (Prog.tryExcept (checkLoaded o py input (tags.headD id))
          (haltVerdict input.submission)
          (loadingState (fileEvidence info found) (some (tags.headD id)) loaded)).2.world.outside
            (imageRemoveArgs (tags.headD id))).2 := by
      rw [← hdropped]
      unfold checkSubmission runCheck
      dsimp only
      rw [hrun, hkeep]
      apply congrArg (fun c : CheckState δ => store c.world.outside)
      exact tryFinally_state _ _ _
    rw [hafter]
    exact laws.removed hsafe hname hend

/-- **A check leaves Docker's images and tags as they were exactly if it loads nothing, or its load is
    undone by removing the one name it reports first.** The image's id is nobody's tag. -/
theorem nothing_left_iff (laws : StoreLaws o store input.submission.filePath tags id)
    (hkeep : input.keepImage = false) (w : World δ) (hname : (store w.outside).bound id = none) :
    store (checkSubmission o py input w).2.outside = store w.outside ↔
      (Loads o py input w → Undone (store w.outside) tags id) := by
  by_cases hloads : Loads o py input w
  · rw [laws.loaded hkeep hname hloads, afterCheck_eq_iff]
    exact ⟨fun h _ => h, fun h => h hloads⟩
  · exact iff_of_true (laws.not_loaded hloads) fun h => absurd h hloads

end Check

/-! ## An archive of one tag, and one of two -/

/-- A Docker that is its images and their tags, and finds the same tags in every archive. -/
def storeDocker (tags : List String) (id : String) : Outside ImageStore where
  docker s args :=
    if args.headD "" = "load" then (.ok ⟨0, loadReport tags id, ""⟩, s.load tags id)
    else if args = imageRemoveArgs (args.getLastD "") then
      (.ok ⟨0, "", ""⟩, match s.bound (args.getLastD "") with
        | some _ => s.release (args.getLastD "")
        | none => s.delete (args.getLastD ""))
    else (.ok ⟨0, tagDocker.agentReport, ""⟩, s)
  http s _ := (.error ⟨.osError, "unreachable"⟩, s)

theorem storeDocker_remove {tags : List String} {id ref : String} {s : ImageStore} :
    ((storeDocker tags id).docker s (imageRemoveArgs ref)).2 = match s.bound ref with
      | some _ => s.release ref
      | none => s.delete ref := by
  have hlast : (imageRemoveArgs ref).getLastD "" = ref := rfl
  unfold storeDocker
  dsimp only
  rw [if_neg (by simp [imageRemoveArgs]), hlast, if_pos rfl]

theorem storeDocker_other {tags : List String} {id : String} {s : ImageStore} {args : List String}
    (hload : args.headD "" ≠ "load") (hremove : ∀ ref, args ≠ imageRemoveArgs ref) :
    ((storeDocker tags id).docker s args).2 = s := by
  unfold storeDocker
  dsimp only
  rw [if_neg hload, if_neg (hremove _)]

theorem storeDocker_laws {tags : List String} {id : String} (hwords : ∀ tag ∈ tags, IsWord tag)
    (hid : IsWord id) (path : String) :
    StoreLaws (storeDocker tags id) (fun s => s) path tags id where
  words := hwords
  idWord := hid
  load d result hanswer _ := by
    obtain rfl : (⟨0, loadReport tags id, ""⟩ : CompletedProcess) = result := Except.ok.inj hanswer
    exact ⟨rfl, rfl, rfl⟩
  loadFailed d hfailed := absurd rfl (hfailed ⟨0, loadReport tags id, ""⟩ rfl)
  removeTag d tag hbound := by
    rw [storeDocker_remove]
    cases htag : d.bound tag with
    | none => exact absurd htag hbound
    | some other => rfl
  removeId d hfree _ := by
    rw [storeDocker_remove, hfree]
  inspect d ref := storeDocker_other (by simp [inspectArgs])
    fun other => by simp [inspectArgs, imageRemoveArgs]
  create d ref := storeDocker_other (by simp [dryRunCreateArgs])
    fun other => by simp [dryRunCreateArgs, imageRemoveArgs]
  container d args hverb := by
    apply storeDocker_other
    · intro hhead
      rw [hhead] at hverb
      exact absurd hverb (by decide)
    · intro ref heq
      rw [heq] at hverb
      exact absurd hverb (by simp [imageRemoveArgs, CONTAINER_VERBS])

/-- No images, no tags. -/
def noImages : ImageStore where
  present := ∅
  bound _ := none
  bound_present := by
    intro k i h
    cases h

theorem isWord_of {s : String} (h : (!s.toList.isEmpty && s.toList.all fun c => !isSpace c) = true) :
    IsWord s := by
  obtain ⟨hempty, hall⟩ := Bool.and_eq_true_iff.mp h
  refine ⟨?_, ?_⟩
  · intro heq
    rw [heq] at hempty
    cases hempty
  · intro c hc
    simpa using List.all_eq_true.mp hall c hc

theorem one_tag_leaves_nothing :
    (checkSubmission (storeDocker ["miner/agent:1"] "sha256:beef") plainInterpreter (plainFile "5A")
      { outside := noImages }).2.outside = noImages := by
  have hwords : ∀ tag ∈ ["miner/agent:1"], IsWord tag := by
    intro tag htag
    rw [List.mem_singleton.mp htag]
    exact isWord_of (by decide +kernel)
  have hlaws := storeDocker_laws hwords (isWord_of (s := "sha256:beef") (by decide +kernel))
    (plainFile "5A").submission.filePath
  refine (nothing_left_iff hlaws rfl _ rfl).mpr fun _ => ?_
  have hsafe : isSafeImageRef (["miner/agent:1"].headD "sha256:beef") = true := by decide +kernel
  unfold Undone
  rw [if_pos hsafe]
  refine ⟨rfl, ?_, ?_⟩
  · intro tag htag hne
    exact absurd (List.mem_singleton.mp htag) hne
  · intro hpresent
    cases hpresent

/-- The second tag of an archive outlives the check of it. -/
theorem second_tag_stays :
    ¬ ∀ (o : Outside ImageStore) (py : Interpreter) (input : CheckInput) (tags : List String)
      (id : String), StoreLaws o (fun s => s) input.submission.filePath tags id →
      input.keepImage = false → ∀ w : World ImageStore, w.outside.bound id = none →
        (checkSubmission o py input w).2.outside = w.outside := by
  intro hclaim
  let tags := ["miner/agent:1", "miner/agent:2"]
  have hwords : ∀ tag ∈ tags, IsWord tag := by
    intro tag htag
    rcases List.mem_cons.mp htag with rfl | htag
    · exact isWord_of (by decide +kernel)
    · rw [List.mem_singleton.mp htag]
      exact isWord_of (by decide +kernel)
  have hlaws := storeDocker_laws hwords (isWord_of (s := "sha256:beef") (by decide +kernel))
    (plainFile "5A").submission.filePath
  have hsame := hclaim _ plainInterpreter (plainFile "5A") tags "sha256:beef" hlaws rfl
    { outside := noImages } rfl
  have hfile : (checkFile plainInterpreter (plainFile "5A").submission.filePath
      (plainFile "5A").content).isOk = true := by decide +kernel
  have hstructure : (checkStructure plainInterpreter (plainFile "5A").archive).isOk = true := by
    decide +kernel
  have hsafe : isSafeImageRef (tags.headD "sha256:beef") = true := by decide +kernel
  cases hinfo : checkFile plainInterpreter (plainFile "5A").submission.filePath
      (plainFile "5A").content with
  | error failure =>
    rw [hinfo] at hfile
    cases hfile
  | ok info =>
    cases hfound : checkStructure plainInterpreter (plainFile "5A").archive with
    | error e =>
      rw [hfound] at hstructure
      cases hstructure
    | ok found =>
      have hloads : Loads (storeDocker tags "sha256:beef") plainInterpreter (plainFile "5A")
          { outside := noImages } := ⟨info, found, _, hinfo, rfl, hfound, rfl, rfl⟩
      rw [hlaws.loaded rfl rfl hloads] at hsame
      have hundone := (afterCheck_eq_iff _ _ _).mp hsame
      unfold Undone at hundone
      rw [if_pos hsafe] at hundone
      have hsecond := hundone.2.1 "miner/agent:2" (by decide) (by decide)
      cases hsecond

end TaoSubnet
