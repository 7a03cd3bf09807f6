import TaoSubnet.Proof.Security.DownloadBound

/-!
# What a check hands to Docker

A reference is checked before it is used, with a pattern whose `$` lets a line feed follow. What Docker
reports has been split at its white space by then, so nothing follows it. What was submitted has
not, and the reference made of a registry's index is not checked at all.
-/

namespace TaoSubnet

open Py

variable {δ : Type} {o : Outside δ} {py : Interpreter}

/-! ## The pattern, matched in full -/

/-- `[A-Za-z0-9][A-Za-z0-9._:/@-]{0,255}`, from one end of a text to the other. -/
def matchesSafe (name : String) : Bool :=
  match name.toList with
  | [] => false
  | c :: rest => isRefStart c && rest.length ≤ 255 && rest.all isRefChar

theorem matchesSafe_iff (name : String) : matchesSafe name = true ↔
    ∃ c rest, name.toList = c :: rest ∧ isRefStart c = true ∧ rest.length ≤ 255 ∧
      ∀ d ∈ rest, isRefChar d = true := by
  unfold matchesSafe
  cases name.toList with
  | nil => simp
  | cons c rest => simp [and_assoc]

theorem isRefChar_visible {c : Char} (h : isRefChar c = true) : 32 < c.toNat ∧ c.toNat < 127 := by
  have hle : ∀ {a b : Char}, a ≤ b → a.toNat ≤ b.toNat := fun hab => hab
  simp only [isRefChar, isRefStart, Bool.or_eq_true, Bool.and_eq_true, decide_eq_true_eq,
    beq_iff_eq] at h
  rcases h with (((((((h | h) | h) | h) | h) | h) | h) | h) | h
  · exact ⟨lt_of_lt_of_le (by decide) (hle h.1), lt_of_le_of_lt (hle h.2) (by decide)⟩
  · exact ⟨lt_of_lt_of_le (by decide) (hle h.1), lt_of_le_of_lt (hle h.2) (by decide)⟩
  · exact ⟨lt_of_lt_of_le (by decide) (hle h.1), lt_of_le_of_lt (hle h.2) (by decide)⟩
  all_goals
    rw [h]
    decide

/-- What matches is short, begins with a letter or a digit, and has no blank and no control character
    in it. -/
theorem matchesSafe_clean {name : String} (h : matchesSafe name = true) :
    (∃ c, name.toList.head? = some c ∧ isRefStart c = true) ∧ name.toList.length ≤ 256 ∧
      ∀ c ∈ name.toList, isSpace c = false ∧ 32 < c.toNat ∧ c.toNat < 127 := by
  obtain ⟨c, rest, hname, hstart, hlength, hrest⟩ := (matchesSafe_iff name).mp h
  rw [hname]
  refine ⟨⟨c, rfl, hstart⟩, ?_, ?_⟩
  · rw [List.length_cons]
    omega
  · intro d hd
    have hchar : isRefChar d = true := by
      rcases List.mem_cons.mp hd with rfl | hmem
      · simp [isRefChar, hstart]
      · exact hrest d hmem
    obtain ⟨hlow, hhigh⟩ := isRefChar_visible hchar
    refine ⟨?_, hlow, hhigh⟩
    simp only [isSpace, isSpaceCode, Bool.or_eq_false_iff, Bool.and_eq_false_iff,
      decide_eq_false_iff_not, beq_eq_false_iff_ne]
    omega

/-! ## Where a name comes from -/

/-- A name with no line feed at its end is matched in full. -/
theorem matchesSafe_of_ref {name : String} (h : isSafeImageRef name = true)
    (hend : name.toList.getLast? ≠ some '\n') : matchesSafe name = true := by
  unfold isSafeImageRef at h
  unfold matchesSafe
  cases hname : name.toList with
  | nil =>
    rw [hname] at h
    cases h
  | cons c rest =>
    rw [hname] at h hend
    have hrest : rest.getLast? ≠ some '\n' := by
      intro hlast
      cases rest with
      | nil => cases hlast
      | cons d rest =>
        rw [List.getLast?_cons_cons] at hend
        exact hend hlast
    dsimp only at h
    rw [if_neg hrest] at h
    exact h

theorem matchesSafe_of_id {cid : String} (h : isSafeContainerId cid = true)
    (hend : cid.toList.getLast? ≠ some '\n') : matchesSafe cid = true := by
  unfold isSafeContainerId at h
  dsimp only at h
  rw [if_neg hend, Bool.and_eq_true, Bool.and_eq_true, decide_eq_true_eq, decide_eq_true_eq,
    List.all_eq_true] at h
  obtain ⟨⟨hlong, hshort⟩, hchars⟩ := h
  have hstart : ∀ c ∈ cid.toList, isRefStart c = true := by
    intro c hc
    have hhex := hchars c hc
    simp only [Bool.or_eq_true, Bool.and_eq_true, decide_eq_true_eq] at hhex
    simp only [isRefStart, Bool.or_eq_true, Bool.and_eq_true, decide_eq_true_eq]
    rcases hhex with hdigit | hletter
    · exact .inr hdigit
    · exact .inl (.inr ⟨hletter.1, Char.le_trans hletter.2 (by decide : 'f' ≤ 'z')⟩)
  rw [matchesSafe_iff]
  cases hcid : cid.toList with
  | nil =>
    rw [hcid] at hlong
    exact absurd hlong (by decide)
  | cons c rest =>
    rw [hcid, List.length_cons] at hshort
    rw [hcid] at hstart
    refine ⟨c, rest, rfl, hstart c List.mem_cons_self, by omega, ?_⟩
    intro d hd
    have hd' := hstart d (List.mem_cons_of_mem c hd)
    simp [isRefChar, hd']

/-- A stripped text does not end in a line feed. -/
theorem strip_end (s : String) : (strip s).toList.getLast? ≠ some '\n' := by
  unfold strip stripChars rstripChars
  rw [String.toList_ofList, List.getLast?_reverse]
  intro hlast
  have hhead := List.head?_dropWhile_not isSpace (s.toList.dropWhile isSpace).reverse
  rw [hlast] at hhead
  exact absurd hhead (by decide)

theorem loadedRefAt_end {label : String} {s : List Char} {ref : String}
    (h : loadedRefAt label s = some ref) : ref.toList.getLast? ≠ some '\n' := by
  unfold loadedRefAt at h
  obtain ⟨rest, _, h⟩ := Option.bind_eq_some_iff.mp h
  obtain ⟨found, hspan, h⟩ := Option.bind_eq_some_iff.mp h
  obtain ⟨word, rest'⟩ := found
  obtain ⟨_, hword, _⟩ := span1_some hspan
  dsimp only at h
  split at h
  · cases h
    rw [String.toList_ofList]
    intro hlast
    exact absurd (hword '\n' (List.mem_of_getLast? hlast)) (by decide)
  · cases h

theorem reportedRef_end {result : CompletedProcess} {ref : String}
    (h : reportedRef result = some ref) : ref.toList.getLast? ≠ some '\n' := by
  have hloaded : ∀ {label text}, loadedRef label text = some ref →
      ref.toList.getLast? ≠ some '\n' := by
    intro label text hfound
    obtain ⟨line, _, hline⟩ := List.exists_of_findSome?_eq_some hfound
    exact loadedRefAt_end hline
  unfold reportedRef at h
  rcases Option.or_eq_some_iff.mp h with hid | hname
  · exact hloaded hid
  · exact hloaded hname.2

/-! ## Safe commands -/

/-- The commands about an image. -/
def imageCommands (name : String) : List (List String) :=
  [manifestArgs name, pullArgs name, repoDigestArgs name, inspectArgs name, dryRunCreateArgs name,
    imageRemoveArgs name]

/-- A command that holds nothing foreign but the path of the archive, or one name that matches. -/
inductive SafeCommand (path : String) : List String → Prop
  | load : SafeCommand path (loadArgs path)
  | image {name : String} {args : List String} (hname : matchesSafe name = true)
      (hargs : args ∈ imageCommands name) : SafeCommand path args
  | container {cid : String} {args : List String} (hcid : matchesSafe cid = true)
      (hargs : args ∈ containerCommands cid) : SafeCommand path args

/-- Every command from `w₀` on is safe. -/
def SafeSince (path : String) (w₀ w : World δ) : Prop :=
  ∃ issued, w.trace = w₀.trace ++ issued ∧
    ∀ d args, Event.docker d args ∈ issued → SafeCommand path args

theorem manifest_safe {path name : String} (h : SafeCommand path (manifestArgs name)) :
    matchesSafe name = true := by
  generalize hargs : manifestArgs name = args at h
  cases h with
  | load => simp [manifestArgs, loadArgs] at hargs
  | image hname himage =>
    rw [← hargs] at himage
    simp [imageCommands, manifestArgs, pullArgs, repoDigestArgs, inspectArgs, dryRunCreateArgs,
      imageRemoveArgs] at himage
    rw [himage]
    exact hname
  | container hcid hcontainer =>
    rw [← hargs] at hcontainer
    simp [containerCommands, manifestArgs] at hcontainer

section Keeping

variable {path : String} {w₀ : World δ}

theorem safeSince_docker {args : List String} (h : SafeCommand path args) :
    Prog.Keeps (SafeSince path w₀) (docker o args) := by
  intro w hw
  obtain ⟨issued, htrace, hsafe⟩ := hw
  refine ⟨issued ++ [.docker w.outside args], ?_, ?_⟩
  · show w.trace ++ _ = _
    rw [htrace, List.append_assoc]
  · intro d args' hmem
    rcases List.mem_append.mp hmem with hold | hnew
    · exact hsafe d args' hold
    · cases List.mem_singleton.mp hnew
      exact h

theorem safeSince_image {name : String} (hname : matchesSafe name = true) {args : List String}
    (hargs : args ∈ imageCommands name) : Prog.Keeps (SafeSince path w₀) (docker o args) :=
  safeSince_docker (.image hname hargs)

/-- What a load reports is matched in full. -/
theorem loadImage_yields :
    Prog.Yields (SafeSince path w₀) (loadImage o path) fun ref => matchesSafe ref = true := by
  unfold loadImage
  refine (keeps_runDocker (safeSince_docker .load)).yields fun result => .ite (.raise _) ?_
  cases hreported : reportedRef result with
  | none => exact .raise _
  | some ref =>
    unfold assertSafeImageRef
    by_cases hsafe : isSafeImageRef ref = true
    · dsimp only
      rw [if_pos hsafe]
      exact .ret (matchesSafe_of_ref hsafe (reportedRef_end hreported))
    · dsimp only
      rw [if_neg hsafe]
      exact .raise _

theorem createContainer_yields {ref : String} (href : matchesSafe ref = true) :
    Prog.Yields (SafeSince path w₀) (createContainer o ref) fun cid => matchesSafe cid = true := by
  unfold createContainer
  have hcreate : Prog.Keeps (SafeSince path w₀) (docker o (dryRunCreateArgs ref)) :=
    safeSince_image href (by simp [imageCommands])
  refine (keeps_runDocker hcreate).yields fun result => .ite (.raise _) ?_
  unfold assertSafeContainerId
  split
  · rename_i hsafe
    exact .ret (matchesSafe_of_id hsafe (strip_end _))
  · exact .raise _

/-- From the image on. -/
theorem safeSince_checkLoaded {K : Option String → Prop} {input : CheckInput} {ref : String}
    (href : matchesSafe ref = true) :
    Prog.Keeps (InCheck (SafeSince path w₀) K) (checkLoaded o py input ref) := by
  refine keeps_checkLoaded_of (safeSince_image href (by simp [imageCommands])) ?_
  exact keeps_dryRun_of (createContainer_yields href) fun cid hcid args hargs =>
    safeSince_docker (.container hcid hargs)

theorem matchesSafe_end {name : String} (h : matchesSafe name = true) :
    name.toList.getLast? ≠ some '\n' := by
  intro hlast
  have hclean := (matchesSafe_clean h).2.2 '\n' (List.mem_of_getLast? hlast)
  exact absurd hclean.2.1 (by decide)

/-- The digest a pull is pinned to: what was submitted, or a line of what Docker recorded. -/
theorem digestRefOf_yields {ref : String} (href : matchesSafe ref = true) :
    Prog.Yields (SafeSince path w₀) (digestRefOf o ref) fun name =>
      name.toList.getLast? ≠ some '\n' := by
  have hfound : Prog.Yields (SafeSince path w₀) (repoDigestOf o ref) fun found =>
      ∀ name, found = some name → name.toList.getLast? ≠ some '\n' := by
    unfold repoDigestOf
    have hasked : Prog.Keeps (SafeSince path w₀) (docker o (repoDigestArgs ref)) :=
      safeSince_image href (by simp [imageCommands])
    refine (keeps_runDocker hasked).yields fun result => .ite (.ret ?_) (.ret ?_)
    · intro name hname
      cases hname
    · intro name hname
      obtain ⟨line, _, hline⟩ := List.mem_map.mp (List.mem_of_find?_eq_some hname)
      rw [← hline]
      exact strip_end line
  unfold digestRefOf
  refine .ite (.ret (matchesSafe_end href)) ?_
  refine Prog.Spec.bind hfound fun found w hw => ?_
  obtain ⟨hname, hw⟩ := hw
  cases found with
  | none => exact hw
  | some name =>
    dsimp only
    by_cases hempty : name = ""
    · rw [if_pos hempty]
      exact hw
    · rw [if_neg hempty]
      exact ⟨hname name rfl, hw⟩

/-- From `docker pull` on. -/
theorem fetchPinned_yields {ref : String} (href : matchesSafe ref = true) :
    Prog.Yields (SafeSince path w₀) (fetchPinned o ref) fun pulled =>
      matchesSafe pulled.digestRef = true := by
  unfold fetchPinned
  have hpull : Prog.Keeps (SafeSince path w₀) (docker o (pullArgs ref)) :=
    safeSince_image href (by simp [imageCommands])
  refine (keeps_runDocker hpull).yields fun result => .ite (.raise _) ?_
  refine Prog.Spec.bind (digestRefOf_yields href) fun name w hw => ?_
  unfold assertSafeImageRef
  by_cases hsafe : isSafeImageRef name = true
  · rw [if_pos hsafe]
    exact ⟨matchesSafe_of_ref hsafe hw.1, hw.2⟩
  · rw [if_neg hsafe]
    exact hw.2

theorem manifestJson_state (ref : String) (w : World δ) :
    (manifestJson o py ref w).2 = commanded o (manifestArgs ref) w := by
  unfold manifestJson
  rcases hrun : runDocker o (manifestArgs ref) DOCKER_CLI_TIMEOUT_S .pullFailed w with ⟨r, w'⟩
  have hw' : w' = commanded o (manifestArgs ref) w := by
    rw [runDocker_commanded] at hrun
    exact (Prod.mk.inj hrun).2.symm
  rw [← hw']
  cases r with
  | error e => rw [Prog.bind_error hrun]
  | ok result =>
    rw [Prog.bind_ok hrun]
    split
    · rfl
    · cases Json.loadsText py.recursionLimit (PyStr.ofString result.stdout) with
      | error e =>
        dsimp only
        split
        · rfl
        · rfl
      | ok value => cases value <;> rfl

theorem totalOfPlatform_keeps {I : World δ → Prop} (found : Option (List (PyStr × Json))) :
    Prog.Keeps I (totalOfPlatform py found) := by
  cases found with
  | none => exact .ret _
  | some manifest => exact .ite (.ret _) (keeps_orRaise _)

/-- The reads before a pull. -/
theorem safeSince_manifestTotalSize {ref : String} (href : matchesSafe ref = true) {w : World δ}
    (hsub : ∀ sub, SubAsked o py ref w.outside sub → matchesSafe sub = true)
    (hw : SafeSince path w₀ w) : SafeSince path w₀ (manifestTotalSize o py ref w).2 := by
  have hread : ∀ {name w}, matchesSafe name = true → SafeSince path w₀ w →
      SafeSince path w₀ (manifestJson o py name w).2 :=
    fun hname => keeps_manifestJson (safeSince_image hname (by simp [imageCommands])) _
  have hw' := hread href hw
  rw [manifestTotalSize_eq]
  rcases hfound : manifestJson o py ref w with ⟨e | found, w'⟩
  · rw [Prog.bind_error hfound]
    rw [hfound] at hw'
    exact hw'
  rw [Prog.bind_ok hfound]
  rw [hfound] at hw'
  cases found with
  | none => exact hw'
  | some data =>
    obtain ⟨hgives, hw₁⟩ := manifestJson_some_iff.mp hfound
    unfold totalOfRead
    dsimp only
    cases hdirect : layersTotal py.unicode data with
    | error e => exact hw'
    | ok direct =>
      rw [Prog.bind_ok (orRaise_of_ok rfl w')]
      cases direct with
      | some total => exact hw'
      | none =>
        dsimp only
        by_cases hlist : ∃ manifests, Json.get? data "manifests" = some (.arr manifests)
        · obtain ⟨manifests, hmanifests⟩ := hlist
          rw [hmanifests]
          unfold totalOfEntries totalOfIndex
          dsimp only
          cases hdigest : platformDigest manifests with
          | error e => exact hw'
          | ok found =>
            rw [Prog.bind_ok (orRaise_of_ok rfl w')]
            cases found with
            | none => exact hw'
            | some digest =>
              dsimp only
              cases hname : subRef py ref digest with
              | error e => exact hw'
              | ok sub =>
                rw [Prog.bind_ok (orRaise_of_ok rfl w')]
                -- The one command whose reference was never checked.
                have hplatforms := (platformDigest_ok_iff manifests).mp ⟨_, hdigest⟩
                have hsafe := hsub sub ⟨data, manifests, digest, hgives, layersTotal_none hdirect,
                  hmanifests, hplatforms, (platformDigest_some_iff digest hplatforms).mp hdigest,
                  hname⟩
                exact Prog.Keeps.bind (keeps_manifestJson (safeSince_image hsafe
                  (by simp [imageCommands]))) (fun found => totalOfPlatform_keeps found) w' hw'
        · rw [totalOfEntries_other fun manifests hmanifests => hlist ⟨manifests, hmanifests⟩]
          exact hw'

end Keeping

/-! ## A check -/

/-- A command has been issued since `w₀`. -/
def AskedSince (args : List String) (w₀ w : World δ) : Prop :=
  ∃ issued, w.trace = w₀.trace ++ issued ∧ ∃ d, Event.docker d args ∈ issued

theorem not_safeSince {args : List String} {path : String} {w₀ w : World δ}
    (hasked : AskedSince args w₀ w) (hforeign : ¬ SafeCommand path args) :
    ¬ SafeSince path w₀ w := by
  obtain ⟨issued, htrace, d, hmem⟩ := hasked
  intro hsafe
  obtain ⟨issued', htrace', hsafe⟩ := hsafe
  rw [htrace] at htrace'
  cases List.append_cancel_left htrace'
  exact hforeign (hsafe d args hmem)

/-- What has been asked stays asked. -/
theorem askedSince_docker {args : List String} {w₀ : World δ} (args' : List String) :
    Prog.Keeps (AskedSince args w₀) (docker o args') := by
  intro w hw
  obtain ⟨issued, htrace, d, hmem⟩ := hw
  refine ⟨issued ++ [.docker w.outside args'], ?_, d, List.mem_append_left _ hmem⟩
  show w.trace ++ _ = _
  rw [htrace, List.append_assoc]

theorem askedSince_commanded (args : List String) {w₀ w : World δ}
    (h : ∃ issued, w.trace = w₀.trace ++ issued) : AskedSince args w₀ (commanded o args w) := by
  obtain ⟨issued, htrace⟩ := h
  refine ⟨issued ++ [.docker w.outside args], ?_, w.outside,
    List.mem_append_right _ (List.mem_singleton.mpr rfl)⟩
  show w.trace ++ _ = _
  rw [htrace, List.append_assoc]

/-- A read asks, and what is made of it does not take that back. -/
theorem asked_of_read {α : Type} {name : String} {w₀ w : World δ}
    {f : Option (List (PyStr × Json)) → Prog (World δ) Halt α}
    (hw : ∃ issued, w.trace = w₀.trace ++ issued)
    (hf : ∀ found, Prog.Keeps (AskedSince (manifestArgs name) w₀) (f found)) :
    AskedSince (manifestArgs name) w₀ ((manifestJson o py name >>= f) w).2 := by
  refine Prog.Spec.state (P := (· = w)) ?_ rfl
  refine .bind (Q := fun _ => AskedSince (manifestArgs name) w₀) (.of_state ?_) fun found =>
    (hf found).spec fun _ _ hw => hw
  intro w' hw'
  rw [hw', manifestJson_state]
  exact askedSince_commanded _ hw

theorem totalOfRead_keeps {I : World δ → Prop} (h : ∀ args, Prog.Keeps I (docker o args))
    (ref : String) (found : Option (List (PyStr × Json))) :
    Prog.Keeps I (totalOfRead o py ref found) := by
  cases found with
  | none => exact .ret _
  | some data =>
    refine .bind (keeps_orRaise _) fun direct => ?_
    cases direct with
    | some total => exact .ret _
    | none =>
      dsimp only
      unfold totalOfEntries
      split
      · refine .bind (keeps_orRaise _) fun digest => ?_
        cases digest with
        | none => exact .ret _
        | some digest =>
          exact .bind (keeps_orRaise _) fun sub => .bind (keeps_manifestJson (h _)) fun found =>
            totalOfPlatform_keeps found
      · exact .ret _

section Registry

variable {I : World δ → Prop} {input : CheckInput}

/-- Where a registry check gets to, once the pull has got there. -/
theorem registry_state {K : Option String → Prop} {w : World δ} {V : PulledImage → Prop}
    (hpull : Prog.Spec (· = w) (pullImage o py input.submission.filePath)
      (fun pulled w' => V pulled ∧ I w') fun _ => I)
    (hnone : K none) (hheld : ∀ pulled, V pulled → K (some pulled.digestRef))
    (hloaded : ∀ pulled, V pulled →
      Prog.Keeps (InCheck I K) (checkLoaded o py input pulled.digestRef))
    (hdrop : ∀ ref, K (some ref) → Prog.Keeps I (docker o (imageRemoveArgs ref))) :
    I (checkRegistrySubmission o py input w).2 := by
  have hcheck : Prog.Spec (fun c : CheckState δ => c.world = w ∧ c.imageRef = none)
      (Prog.tryFinally (Prog.tryExcept (registryStages o py input) (haltVerdict input.submission))
        (dropImage o input.keepImage)) (fun _ => InCheck I K) fun _ => InCheck I K := by
    have hclean := keeps_dropImage (o := o) (I := I) (K := K) hdrop input.keepImage
    refine .tryFinally (Q := fun _ => InCheck I K) (E := fun _ => InCheck I K) ?_
      (fun _ => hclean.spec fun _ _ hc => hc) (fun _ => hclean.spec fun _ _ hc => hc)
    have hhalt : ∀ e, Prog.Spec (InCheck I K) (haltVerdict input.submission e)
        (fun _ => InCheck I K) fun _ => InCheck I K :=
      fun e => (keeps_haltVerdict _ e).spec fun _ _ hc => hc
    refine .tryExcept ?_ hhalt
    unfold registryStages
    refine .bind (Q := fun _ (c : CheckState δ) => c.world = w ∧ c.imageRef = none)
      (fun c hc => hc) fun _ => ?_
    refine .bind (Q := fun pulled (c : CheckState δ) => V pulled ∧ InCheck I K c) ?_
      fun pulled => ?_
    · intro c hc
      have hrun := hpull c.world hc.1
      unfold inWorld
      rcases hresult : pullImage o py input.submission.filePath c.world with ⟨e | pulled, w'⟩
      · rw [hresult] at hrun
        refine ⟨hrun, ?_⟩
        show K c.imageRef
        rw [hc.2]
        exact hnone
      · rw [hresult] at hrun
        refine ⟨hrun.1, hrun.2, ?_⟩
        show K c.imageRef
        rw [hc.2]
        exact hnone
    · refine .bind (Q := fun _ (c : CheckState δ) => V pulled ∧ InCheck I K c)
        (fun c hc => ⟨hc.1, hc.2.1, hheld pulled hc.1⟩) fun _ => ?_
      refine .bind (Q := fun _ (c : CheckState δ) => V pulled ∧ InCheck I K c)
        (fun c hc => hc) fun _ c hc => ?_
      exact (hloaded pulled hc.1).spec (fun _ _ hc => hc) c hc.2
  exact (hcheck.state (s := { world := w, stage := .load }) ⟨rfl, rfl⟩).1

/-- A command of the size check is one of the whole check. -/
theorem asked_in_registry_check {args : List String} {w : World δ}
    (hsafe : isSafeImageRef input.submission.filePath = true)
    (hasked : AskedSince args w (manifestTotalSize o py input.submission.filePath w).2) :
    AskedSince args w (checkRegistrySubmission o py input w).2 := by
  have hall : ∀ args', Prog.Keeps (AskedSince args w) (docker o args') := askedSince_docker
  refine registry_state (K := fun _ => True) (V := fun _ => True) ?_ trivial (fun _ _ => trivial)
    (fun pulled _ => keeps_checkLoaded_dry hall input pulled.digestRef) (fun ref _ => hall _)
  have hbound : AskedSince args w (boundDownload o py input.submission.filePath w).2 := by
    unfold boundDownload
    rcases htold : manifestTotalSize o py input.submission.filePath w with ⟨e | found, w'⟩
    · rw [Prog.bind_error htold]
      rw [htold] at hasked
      exact hasked
    · rw [Prog.bind_ok htold]
      rw [htold] at hasked
      cases found with
      | none => exact hasked
      | some declared =>
        dsimp only
        split
        · split
          · exact hasked
          · exact hasked
        · exact hasked
  have hfetch : Prog.Keeps (AskedSince args w) (fetchPinned o input.submission.filePath) := by
    unfold fetchPinned
    refine .bind (keeps_runDocker (hall _)) fun result => .ite (keeps_failStage _ _) ?_
    refine .bind (keeps_digestRefOf (hall _)) fun digestRef => ?_
    exact .bind (keeps_assertSafeImageRef _) fun _ => .ret _
  rw [pullImage_eq hsafe]
  refine .bind (Q := fun _ => AskedSince args w) (.of_state ?_) fun _ =>
    (hfetch.spec fun _ _ hw => hw).conseq (fun _ hw => hw) (fun _ _ hw => ⟨trivial, hw⟩)
      fun _ _ hw => hw
  intro w' hw'
  rw [hw']
  exact hbound

end Registry

/-- What a registry check asks about is matched in full: what was submitted, and the manifest an index
    leads to. -/
structure AsksSafely (o : Outside δ) (py : Interpreter) (ref : String) (d : δ) : Prop where
  submitted : matchesSafe ref = true
  sub : ∀ sub, SubAsked o py ref d sub → matchesSafe sub = true

theorem safeSince_refl (path : String) (w : World δ) : SafeSince path w w := by
  refine ⟨[], (List.append_nil _).symm, ?_⟩
  intro d args hmem
  cases hmem

theorem safeSince_checkSubmission (input : CheckInput) (w : World δ) :
    SafeSince input.submission.filePath w (checkSubmission o py input w).2 := by
  have hdrop : ∀ ref, (∀ name, some ref = some name → matchesSafe name = true) →
      Prog.Keeps (SafeSince input.submission.filePath w) (docker o (imageRemoveArgs ref)) :=
    fun ref href => safeSince_image (href ref rfl) (by simp [imageCommands])
  have hclean := keeps_dropImage (o := o)
    (K := fun held => ∀ name, held = some name → matchesSafe name = true) hdrop input.keepImage
  have hstages : Prog.Keeps (InCheck (SafeSince input.submission.filePath w)
      fun held => ∀ name, held = some name → matchesSafe name = true)
      (submissionStages o py input) := by
    unfold submissionStages
    refine .bind (keeps_orFail _) fun info => .bind (.modify fun _ hc => hc) fun _ => ?_
    refine .bind .get fun c => ?_
    split
    · exact .ret _
    refine .bind (.modify fun _ hc => hc) fun _ => .bind (.ofExcept _) fun info => ?_
    refine .bind (.modify fun _ hc => hc) fun _ => .bind (.modify fun _ hc => hc) fun _ => ?_
    have hload : Prog.Yields (InCheck (SafeSince input.submission.filePath w)
        fun held => ∀ name, held = some name → matchesSafe name = true)
        (inWorld (loadImage o input.submission.filePath)) fun ref => matchesSafe ref = true := by
      intro c hc
      have hyields : Prog.Yields (SafeSince input.submission.filePath w)
          (loadImage o input.submission.filePath) fun ref => matchesSafe ref = true :=
        loadImage_yields
      have hrun := hyields c.world hc.1
      unfold inWorld
      rcases hresult : loadImage o input.submission.filePath c.world with ⟨e | ref, w'⟩
      · rw [hresult] at hrun
        exact ⟨hrun, hc.2⟩
      · rw [hresult] at hrun
        exact ⟨hrun.1, hrun.2, hc.2⟩
    refine hload.bind fun ref href => ?_
    refine .bind (.modify fun c hc => ⟨hc.1, ?_⟩) fun _ => safeSince_checkLoaded href
    intro name hname
    cases hname
    exact href
  refine ((Prog.Keeps.tryFinally (Prog.Keeps.tryExcept hstages fun e => keeps_haltVerdict _ e)
    hclean) { world := w, stage := .file } ⟨safeSince_refl _ w, ?_⟩).1
  intro name hname
  cases hname

theorem safeSince_checkRegistrySubmission {input : CheckInput} {w : World δ}
    (h : isSafeImageRef input.submission.filePath = true →
      AsksSafely o py input.submission.filePath w.outside) :
    SafeSince input.submission.filePath w (checkRegistrySubmission o py input w).2 := by
  refine registry_state (V := fun pulled => matchesSafe pulled.digestRef = true)
    (K := fun held => ∀ name, held = some name → matchesSafe name = true) ?_ ?_ ?_
    (fun pulled hpulled => safeSince_checkLoaded hpulled)
    (fun ref href => safeSince_image (href ref rfl) (by simp [imageCommands]))
  · intro w' hw'
    rw [hw']
    by_cases hsafe : isSafeImageRef input.submission.filePath = true
    · obtain ⟨hsubmitted, hsub⟩ := h hsafe
      rw [pullImage_eq hsafe]
      refine Prog.Spec.bind (P := (· = w)) (Q := fun _ => SafeSince input.submission.filePath w)
        (.of_state ?_) (fun _ => fetchPinned_yields hsubmitted) w rfl
      intro w'' hw''
      rw [hw'']
      have hbound := safeSince_manifestTotalSize hsubmitted hsub
        (safeSince_refl input.submission.filePath w)
      unfold boundDownload
      rcases htold : manifestTotalSize o py input.submission.filePath w with ⟨e | found, w₁⟩
      · rw [Prog.bind_error htold]
        rw [htold] at hbound
        exact hbound
      · rw [Prog.bind_ok htold]
        rw [htold] at hbound
        cases found with
        | none => exact hbound
        | some declared =>
          dsimp only
          split
          · split
            · exact hbound
            · exact hbound
          · exact hbound
    · unfold pullImage assertSubmittableRef
      rw [if_neg hsafe]
      exact safeSince_refl _ w
  · intro name hname
    cases hname
  · intro pulled hpulled name hname
    cases hname
    exact hpulled

/-- Every command of a check is safe, of a file always, and of a reference exactly when what the check
    asks the registry about is matched in full. -/
theorem commands_safe_iff (input : CheckInput) (fromRegistry : Bool) (w : World δ) :
    SafeSince input.submission.filePath w
        ((if fromRegistry then checkRegistrySubmission o py input else checkSubmission o py input)
          w).2 ↔
      (fromRegistry = true → isSafeImageRef input.submission.filePath = true →
        AsksSafely o py input.submission.filePath w.outside) := by
  cases fromRegistry with
  | false =>
    refine iff_of_true (safeSince_checkSubmission input w) ?_
    intro hfalse
    cases hfalse
  | true =>
    constructor
    · intro hrun _ hsafe
      have hmatches : ∀ name, AskedSince (manifestArgs name) w
          (manifestTotalSize o py input.submission.filePath w).2 → matchesSafe name = true := by
        intro name hasked
        by_contra hforeign
        exact not_safeSince (asked_in_registry_check hsafe hasked)
          (fun hcommand => hforeign (manifest_safe hcommand)) hrun
      refine ⟨hmatches _ ?_, fun sub hsub => hmatches sub ?_⟩
      · rw [manifestTotalSize_eq]
        exact asked_of_read ⟨[], (List.append_nil _).symm⟩ (totalOfRead_keeps askedSince_docker _)
      · rw [manifestTotalSize_index hsub]
        exact asked_of_read ⟨_, rfl⟩ totalOfPlatform_keeps
    · intro h
      exact safeSince_checkRegistrySubmission (h rfl)

/-! ### The two ways to ask about something else -/

/-- The commands of a trace. -/
def commandsIn (trace : List (Event δ)) : List (List String) :=
  trace.filterMap fun e => match e with
    | .docker _ args => some args
    | .rmtree _ => none

theorem askedSince_of_commandsIn {args : List String} {w₀ w : World δ} (hfresh : w₀.trace = [])
    (h : args ∈ commandsIn w.trace) : AskedSince args w₀ w := by
  obtain ⟨e, he, hargs⟩ := List.mem_filterMap.mp h
  refine ⟨w.trace, by rw [hfresh, List.nil_append], ?_⟩
  cases e with
  | rmtree path => cases hargs
  | docker d args' =>
    cases hargs
    exact ⟨d, he⟩

def submittedFrom (ref : String) : CheckInput where
  submission := { minerId := "miner", filePath := ref, receivedAt := "" }

/-- An index whose entry for the platform has a blank in its digest. -/
def blankDigest : Outcome :=
  .ok ⟨0, "\x7b\"manifests\":[\x7b\"digest\":\"a b\",\"platform\":" ++
    "\x7b\"architecture\":\"amd64\",\"os\":\"linux\"\x7d\x7d]\x7d", ""⟩

/-- A reference that ends in a line feed is asked about, and so is whatever an index leads to. -/
theorem line_feed_asked :
    ¬ SafeSince "org/agent:1\n" firstWorld (checkRegistrySubmission (servesManifests nullSize)
        cpython (submittedFrom "org/agent:1\n") firstWorld).2 ∧
      ¬ SafeSince "org/agent:1" firstWorld (checkRegistrySubmission (servesManifests blankDigest)
        cpython (submittedFrom "org/agent:1") firstWorld).2 := by
  constructor
  · refine not_safeSince (?_ : AskedSince (manifestArgs "org/agent:1\n") _ _) fun h => ?_
    · exact asked_in_registry_check (by decide +kernel)
        (askedSince_of_commandsIn rfl (by decide +kernel))
    · exact absurd (manifest_safe h) (by decide +kernel)
  · refine not_safeSince (?_ : AskedSince (manifestArgs "org/agent@a b") _ _) fun h => ?_
    · exact asked_in_registry_check (by decide +kernel)
        (askedSince_of_commandsIn rfl (by decide +kernel))
    · exact absurd (manifest_safe h) (by decide +kernel)

end TaoSubnet
