import TaoSubnet.Proof.Security.Twins

/-!
# What a container prints

A dry run reads the container's output between its exit code and its verdict, and the output is only
evidence: two checks for which Docker answers alike but for `docker logs` rule alike. That is so as
long as the read fails in a way `run_docker` expects. One it does not, such as output that is no UTF-8,
is an internal error instead of the ruling.
-/

namespace TaoSubnet

open Py

/-! ## Answers that are not expected -/

/-- An exception that `run_docker` does not turn into a failure of the stage. -/
def Unexpected (answer : Outcome) : Prop :=
  ∃ e, answer = .error e ∧ e.cls ≠ .timeoutExpired ∧ e.cls.isOSError = false

def isLogs (args : List String) : Bool := args.headD "" == "logs"

/-- The removal of a container or of an image. -/
def isRemoval (args : List String) : Bool := args.headD "" == "rm" || args.take 2 == ["image", "rm"]

section Raising

variable {δ : Type}

/-- A command of the kind was answered with an exception that is not expected. -/
def Raised (o : Outside δ) (kind : List String → Bool) (events : List (Event δ)) : Prop :=
  ∃ d args, Event.docker d args ∈ events ∧ kind args = true ∧ Unexpected (o.docker d args).1

/-- What a run has added to the trace. -/
def issuedSince (w w' : World δ) : List (Event δ) := w'.trace.drop w.trace.length

theorem raised_append (o : Outside δ) (kind : List String → Bool) (events : List (Event δ)) (d : δ)
    (args : List String) : Raised o kind (events ++ [.docker d args]) ↔
      Raised o kind events ∨ (kind args = true ∧ Unexpected (o.docker d args).1) := by
  constructor
  · intro h
    obtain ⟨d', args', hmem, hkind, hraised⟩ := h
    rcases List.mem_append.mp hmem with hold | hnew
    · exact .inl ⟨d', args', hold, hkind, hraised⟩
    · cases List.mem_singleton.mp hnew
      exact .inr ⟨hkind, hraised⟩
  · intro h
    rcases h with hold | hnew
    · obtain ⟨d', args', hmem, hkind, hraised⟩ := hold
      exact ⟨d', args', List.mem_append_left _ hmem, hkind, hraised⟩
    · exact ⟨d, args, List.mem_append_right _ (List.mem_singleton.mpr rfl), hnew.1, hnew.2⟩

/-- A command under `bestEffort`: it comes back, unless the answer is not expected. -/
theorem bestEffort_ends {α : Type} {o : Outside δ} (args : List String) (timeoutS : Nat)
    (reason : RejectReason) (default : α) (f : CompletedProcess → α) (w : World δ) :
    (¬ Unexpected (o.docker w.outside args).1 ∧ ∃ a, bestEffort default (do
        let result ← runDocker o args timeoutS reason
        return f result) w = (.ok a, commanded o args w)) ∨
      ∃ e, (o.docker w.outside args).1 = .error e ∧ Unexpected (o.docker w.outside args).1 ∧
        bestEffort default (do
          let result ← runDocker o args timeoutS reason
          return f result) w = (.error (.raised e), commanded o args w) := by
  have hrun := runDocker_commanded (o := o) args timeoutS reason w
  unfold bestEffort
  cases hanswer : (o.docker w.outside args).1 with
  | ok result =>
    refine .inl ⟨?_, ?_⟩
    · intro hraised
      obtain ⟨e, he, _⟩ := hraised
      cases he
    · rw [hanswer] at hrun
      unfold dockerResult at hrun
      dsimp only at hrun
      split at hrun
      · exact ⟨default, by rw [Prog.tryExcept_error (Prog.bind_error hrun)]; rfl⟩
      · have hbody : (do
            let result ← runDocker o args timeoutS reason
            return f result) w = (.ok (f result), commanded o args w) := by
          rw [Prog.bind_ok hrun]
          rfl
        exact ⟨f result, Prog.tryExcept_ok hbody⟩
  | error e =>
    rw [hanswer] at hrun
    unfold dockerResult dockerFailure at hrun
    dsimp only at hrun
    by_cases htimeout : e.cls = .timeoutExpired
    · rw [if_pos htimeout] at hrun
      refine .inl ⟨?_, default, by rw [Prog.tryExcept_error (Prog.bind_error hrun)]; rfl⟩
      intro hraised
      obtain ⟨e', he', hclass, _⟩ := hraised
      cases he'
      exact hclass htimeout
    · rw [if_neg htimeout] at hrun
      by_cases hos : e.cls.isOSError = true
      · rw [if_pos hos] at hrun
        refine .inl ⟨?_, default, by rw [Prog.tryExcept_error (Prog.bind_error hrun)]; rfl⟩
        intro hraised
        obtain ⟨e', he', _, hno⟩ := hraised
        cases he'
        rw [hos] at hno
        cases hno
      · rw [if_neg hos] at hrun
        refine .inr ⟨e, rfl, ⟨e, rfl, htimeout, Bool.eq_false_iff.mpr hos⟩, ?_⟩
        rw [Prog.tryExcept_error (Prog.bind_error hrun)]
        rfl

end Raising

/-! ## Two outsides that differ in what is printed -/

/-- Docker answers alike, but for what a container printed. -/
structure AlikeButLogs {δ₁ δ₂ : Type} (B : δ₁ → δ₂ → Prop) (o₁ : Outside δ₁) (o₂ : Outside δ₂) :
    Prop where
  other : ∀ args, isLogs args = false → AnswersAlike B o₁ o₂ args args
  logs : ∀ args, isLogs args = true → ∀ d₁ d₂, B d₁ d₂ →
    B (o₁.docker d₁ args).2 (o₂.docker d₂ args).2

/-! ## Ends that rule alike -/

section Ends

variable {α β : Type}

/-- Values of `V`, the same raise, or an exception each. -/
inductive RulesAlike (V : α → β → Prop) : Except Halt α → Except Halt β → Prop
  | ok {a : α} {b : β} (h : V a b) : RulesAlike V (.ok a) (.ok b)
  | error (e : Halt) : RulesAlike V (.error e) (.error e)
  | raised (e e' : Exc) : RulesAlike V (.error (.raised e)) (.error (.raised e'))

/-- A value of `P`, or a failure that is not ruled as an exception is. -/
def Fine (P : α → Prop) (r : Except Halt α) : Prop :=
  (∀ a, r = .ok a → P a) ∧
    ∀ e, r = .error e → ∃ failure, e = .stage failure ∧ failure.reason ≠ .internalError

/-- One ends with an exception, and the other does not. -/
inductive OneRaised (P : α → Prop) (Q : β → Prop) : Except Halt α → Except Halt β → Prop
  | first (e : Exc) {r : Except Halt β} (h : Fine Q r) : OneRaised P Q (.error (.raised e)) r
  | second (e : Exc) {r : Except Halt α} (h : Fine P r) : OneRaised P Q r (.error (.raised e))

theorem fine_ok {P : α → Prop} {a : α} (h : P a) : Fine P (.ok a : Except Halt α) := by
  refine ⟨?_, ?_⟩
  · intro b hb
    cases hb
    exact h
  · intro e he
    cases he

theorem fine_error {P : α → Prop} {Q : β → Prop} {e : Halt} (h : Fine P (.error e)) :
    Fine Q (.error e) := by
  refine ⟨?_, ?_⟩
  · intro b hb
    cases hb
  · intro e' he'
    cases he'
    exact h.2 e rfl

variable {σ τ : Type}

/-- Two runs end alike (`A`), and the reads of the output were both raised from or neither, or a removal
    was; or they end apart (`D`), and one of the reads was. -/
def EndsPaired (R : Prop → Prop → Prop → σ → τ → Prop) (A D : Except Halt α → Except Halt β → Prop)
    (x : Except Halt α × σ) (y : Except Halt β × τ) : Prop :=
  (A x.1 y.1 ∧ ∃ L₁ L₂ C, R L₁ L₂ C x.2 y.2 ∧ (C ∨ (L₁ ↔ L₂))) ∨
    (D x.1 y.1 ∧ ∃ L₁ L₂, R L₁ L₂ False x.2 y.2 ∧ ¬ (L₁ ↔ L₂))

/-- Two clean-ups that both come back, or raise the same; a raise is on record. -/
def CleanAlike (R : Prop → σ → τ → Prop) (C : Prop) (x : Prog σ Halt α) (y : Prog τ Halt β) : Prop :=
  ∀ s t, R C s t → (∃ a b s' t', x s = (.ok a, s') ∧ y t = (.ok b, t') ∧ R C s' t') ∨
    ∃ e s' t', x s = (.error e, s') ∧ y t = (.error e, t') ∧ R True s' t'

variable {α' β' : Type} {R : Prop → Prop → Prop → σ → τ → Prop} {V : α → β → Prop}
  {W : α' → β' → Prop} {D : Except Halt α' → Except Halt β' → Prop}

/-- Up to the read of the output the two runs are in step. -/
theorem settles_bind {x : Prog σ Halt α} {y : Prog τ Halt β} {f : α → Prog σ Halt α'}
    {g : β → Prog τ Halt β'} (hxy : Prog.Sim (R False False False) V x y)
    (hfg : ∀ a b, V a b → ∀ s t, R False False False s t →
      EndsPaired R (RulesAlike W) D (f a s) (g b t))
    {s : σ} {t : τ} (hst : R False False False s t) :
    EndsPaired R (RulesAlike W) D ((x >>= f) s) ((y >>= g) t) := by
  obtain ⟨hend, hafter⟩ := hxy s t hst
  rcases hx : x s with ⟨r, s'⟩
  rcases hy : y t with ⟨q, t'⟩
  rw [hx, hy] at hend hafter
  cases hend with
  | ok hab =>
    rw [Prog.bind_ok hx, Prog.bind_ok hy]
    exact hfg _ _ hab s' t' hafter
  | error e =>
    rw [Prog.bind_error hx, Prog.bind_error hy]
    exact .inl ⟨.error e, False, False, False, hafter, .inr Iff.rfl⟩

/-- What a clean-up raises takes the place of either end. -/
theorem settles_tryFinally {A D : Except Halt α → Except Halt β → Prop}
    (hA : ∀ e, A (.error e) (.error e)) {x : Prog σ Halt α} {y : Prog τ Halt β}
    {c : Prog σ Halt Unit} {d : Prog τ Halt Unit} {s : σ} {t : τ} (hxy : EndsPaired R A D (x s) (y t))
    (hcd : ∀ {L₁ L₂ C}, CleanAlike (R L₁ L₂) C c d) :
    EndsPaired R A D (Prog.tryFinally x c s) (Prog.tryFinally y d t) := by
  rcases hx : x s with ⟨r, s'⟩
  rcases hy : y t with ⟨q, t'⟩
  rw [hx, hy] at hxy
  unfold Prog.tryFinally
  rw [hx, hy]
  dsimp only
  rcases hxy with ⟨halike, L₁, L₂, C, hR, hrecord⟩ | ⟨hraised, L₁, L₂, hR, hrecord⟩
  · rcases hcd s' t' hR with ⟨_, _, s'', t'', hc, hd, hR'⟩ | ⟨e, s'', t'', hc, hd, hR'⟩
    · rw [hc, hd]
      exact .inl ⟨halike, L₁, L₂, C, hR', hrecord⟩
    · rw [hc, hd]
      exact .inl ⟨hA e, L₁, L₂, True, hR', .inl trivial⟩
  · rcases hcd s' t' hR with ⟨_, _, s'', t'', hc, hd, hR'⟩ | ⟨e, s'', t'', hc, hd, hR'⟩
    · rw [hc, hd]
      exact .inr ⟨hraised, L₁, L₂, hR', hrecord⟩
    · rw [hc, hd]
      exact .inl ⟨hA e, L₁, L₂, True, hR', .inl trivial⟩

end Ends

section Worlds

variable {δ₁ δ₂ : Type} {B : δ₁ → δ₂ → Prop} {o₁ : Outside δ₁} {o₂ : Outside δ₂}
  {s₁ : World δ₁} {s₂ : World δ₂} {L₁ L₂ C : Prop} {py : Interpreter}

/-- Two worlds side by side since `s₁` and `s₂`, in which the read of the output has been raised from
    (`L₁`, `L₂`), and a removal (`C`). -/
structure Paced (B : δ₁ → δ₂ → Prop) (o₁ : Outside δ₁) (o₂ : Outside δ₂) (s₁ : World δ₁)
    (s₂ : World δ₂) (L₁ L₂ C : Prop) (w₁ : World δ₁) (w₂ : World δ₂) : Prop where
  outside : B w₁.outside w₂.outside
  db : w₁.db = w₂.db
  grown₁ : s₁.trace.length ≤ w₁.trace.length
  grown₂ : s₂.trace.length ≤ w₂.trace.length
  logs₁ : Raised o₁ isLogs (issuedSince s₁ w₁) ↔ L₁
  logs₂ : Raised o₂ isLogs (issuedSince s₂ w₂) ↔ L₂
  removal₁ : Raised o₁ isRemoval (issuedSince s₁ w₁) ↔ C
  removal₂ : Raised o₂ isRemoval (issuedSince s₂ w₂) ↔ C

theorem paced_refl (hB : B s₁.outside s₂.outside) (hdb : s₁.db = s₂.db) :
    Paced B o₁ o₂ s₁ s₂ False False False s₁ s₂ := by
  have hnothing : ∀ {δ : Type} (o : Outside δ) (kind : List String → Bool) (w : World δ),
      Raised o kind (issuedSince w w) ↔ False := by
    intro δ o kind w
    refine iff_false_intro ?_
    intro h
    obtain ⟨d, args, hmem, _⟩ := h
    unfold issuedSince at hmem
    rw [List.drop_length] at hmem
    cases hmem
  exact ⟨hB, hdb, le_refl _, le_refl _, hnothing _ _ _, hnothing _ _ _, hnothing _ _ _,
    hnothing _ _ _⟩

theorem issuedSince_commanded {δ : Type} {s w : World δ} (o : Outside δ) (args : List String)
    (h : s.trace.length ≤ w.trace.length) :
    issuedSince s (commanded o args w) = issuedSince s w ++ [.docker w.outside args] :=
  List.drop_append_of_le_length h

/-- A removal is no read of the output. -/
theorem isLogs_of_isRemoval {args : List String} (h : isRemoval args = true) :
    isLogs args = false := by
  unfold isRemoval at h
  unfold isLogs
  rcases Bool.or_eq_true _ _ |>.mp h with hrm | himage
  · rw [eq_of_beq hrm]
    decide
  · have hhead : args.headD "" = "image" := by
      have htake := eq_of_beq himage
      cases args with
      | nil => cases htake
      | cons first rest => exact (List.cons.inj htake).1
    rw [hhead]
    decide

variable (h : AlikeButLogs B o₁ o₂)
include h

/-- One command in both. -/
theorem paced_command {w₁ : World δ₁} {w₂ : World δ₂}
    (hw : Paced B o₁ o₂ s₁ s₂ L₁ L₂ C w₁ w₂) (args : List String) :
    Paced B o₁ o₂ s₁ s₂ (L₁ ∨ (isLogs args = true ∧ Unexpected (o₁.docker w₁.outside args).1))
      (L₂ ∨ (isLogs args = true ∧ Unexpected (o₂.docker w₂.outside args).1))
      (C ∨ (isRemoval args = true ∧ Unexpected (o₁.docker w₁.outside args).1))
      (commanded o₁ args w₁) (commanded o₂ args w₂) where
  outside := by
    cases hlogs : isLogs args with
    | true => exact h.logs args hlogs _ _ hw.outside
    | false => exact (h.other args hlogs _ _ hw.outside).2
  db := hw.db
  grown₁ := by
    show _ ≤ (w₁.trace ++ [_]).length
    rw [List.length_append]
    exact Nat.le_add_right_of_le hw.grown₁
  grown₂ := by
    show _ ≤ (w₂.trace ++ [_]).length
    rw [List.length_append]
    exact Nat.le_add_right_of_le hw.grown₂
  logs₁ := by rw [issuedSince_commanded o₁ args hw.grown₁, raised_append, hw.logs₁]
  logs₂ := by rw [issuedSince_commanded o₂ args hw.grown₂, raised_append, hw.logs₂]
  removal₁ := by rw [issuedSince_commanded o₁ args hw.grown₁, raised_append, hw.removal₁]
  removal₂ := by
    rw [issuedSince_commanded o₂ args hw.grown₂, raised_append, hw.removal₂]
    refine or_congr_right (and_congr_right fun hremoval => ?_)
    rw [(h.other args (isLogs_of_isRemoval hremoval) _ _ hw.outside).1]

/-- A command that neither reads the output nor removes anything. -/
theorem paced_alongside {args : List String} (hlogs : isLogs args = false)
    (hremoval : isRemoval args = false) :
    Alongside (Paced B o₁ o₂ s₁ s₂ L₁ L₂ C) o₁ o₂ args args := by
  intro timeoutS reason w₁ w₂ hw
  rw [runDocker_commanded, runDocker_commanded, (h.other args hlogs _ _ hw.outside).1]
  refine ⟨endsAlike_refl _, ?_⟩
  have hafter := paced_command h hw args
  rw [hlogs, hremoval] at hafter
  simpa using hafter

/-! ### Clean-ups -/

theorem removal_alike {α : Type} {args : List String} (hremoval : isRemoval args = true)
    (timeoutS : Nat) (reason : RejectReason) (default : α) (f : CompletedProcess → α) :
    CleanAlike (Paced B o₁ o₂ s₁ s₂ L₁ L₂) C
      (bestEffort default (do
        let result ← runDocker o₁ args timeoutS reason
        return f result))
      (bestEffort default (do
        let result ← runDocker o₂ args timeoutS reason
        return f result)) := by
  intro w₁ w₂ hw
  have hlogs := isLogs_of_isRemoval hremoval
  have hsame := (h.other args hlogs _ _ hw.outside).1
  have hafter := paced_command h hw args
  rw [hlogs, hremoval] at hafter
  rcases bestEffort_ends (o := o₁) args timeoutS reason default f w₁ with
    ⟨hexpected, a, ha⟩ | ⟨e, he, hraised, hend⟩
  · rcases bestEffort_ends (o := o₂) args timeoutS reason default f w₂ with
      ⟨_, b, hb⟩ | ⟨e', _, hraised', _⟩
    · refine .inl ⟨a, b, _, _, ha, hb, ?_⟩
      simpa [hexpected] using hafter
    · rw [← hsame] at hraised'
      exact absurd hraised' hexpected
  · rcases bestEffort_ends (o := o₂) args timeoutS reason default f w₂ with
      ⟨hexpected', _, _⟩ | ⟨e', he', _, hend'⟩
    · rw [← hsame] at hexpected'
      exact absurd hraised hexpected'
    · rw [← hsame, he] at he'
      cases he'
      refine .inr ⟨_, _, _, hend, hend', ?_⟩
      simpa [hraised] using hafter

theorem removeContainer_alike (cid : String) :
    CleanAlike (Paced B o₁ o₂ s₁ s₂ L₁ L₂) C (removeContainer o₁ cid) (removeContainer o₂ cid) := by
  unfold removeContainer assertSafeContainerId
  by_cases hsafe : isSafeContainerId cid = true
  · simp only [if_pos hsafe, Prog.pure_bind]
    exact removal_alike h (by rfl) _ _ _ _
  · intro w₁ w₂ hw
    simp only [if_neg hsafe]
    exact .inl ⟨false, false, w₁, w₂, rfl, rfl, hw⟩

theorem removeImage_cleans (ref : String) :
    CleanAlike (Paced B o₁ o₂ s₁ s₂ L₁ L₂) C (removeImage o₁ ref) (removeImage o₂ ref) := by
  unfold removeImage assertSafeImageRef
  by_cases hsafe : isSafeImageRef ref = true
  · simp only [if_pos hsafe, Prog.pure_bind]
    exact removal_alike h (by rfl) _ _ _ _
  · intro w₁ w₂ hw
    simp only [if_neg hsafe]
    exact .inl ⟨false, false, w₁, w₂, rfl, rfl, hw⟩

/-! ### A dry run -/

omit h in
/-- A dry run up to the exit code. -/
def startAndWait {δ : Type} (o : Outside δ) (py : Interpreter) (cid : String) :
    Prog (World δ) Halt (Option Int × Bool) := do
  let result ← runDocker o ["start", cid] DOCKER_CLI_TIMEOUT_S .startFailed
  if result.returncode ≠ 0 then failStage .startFailed (some (excerpt result.stderr))
  else waitContainer o py cid

omit h in
/-- What is left of it, with the container there. -/
def finishRun {δ : Type} (o : Outside δ) (cid : String) (durationMs : Int)
    (ended : Option Int × Bool) : Prog (World δ) Halt DryRunResult := do
  let logExcerpt ← containerLogs o cid
  return ⟨ended.1, durationMs, logExcerpt, ended.2⟩

omit h in
theorem dryRun_eq {δ : Type} (o : Outside δ) (py : Interpreter) (ref : String) (durationMs : Int) :
    dryRun o py ref durationMs = (do
      let _ ← assertSafeImageRef ref
      let cid ← createContainer o ref
      Prog.tryFinally (startAndWait o py cid >>= finishRun o cid durationMs)
        (do
          let _ ← removeContainer o cid
          return ())) := by
  unfold dryRun startAndWait
  refine congrArg (assertSafeImageRef ref >>= ·) (funext fun _ => ?_)
  refine congrArg (createContainer o ref >>= ·) (funext fun cid => ?_)
  refine congrArg (Prog.tryFinally · _) ?_
  rw [Prog.bind_assoc]
  refine congrArg (runDocker o ["start", cid] _ _ >>= ·) (funext fun result => ?_)
  split
  · rfl
  · rfl

theorem startAndWait_alike (cid : String) :
    Prog.Sim (Paced B o₁ o₂ s₁ s₂ L₁ L₂ C) Eq (startAndWait o₁ py cid) (startAndWait o₂ py cid) := by
  unfold startAndWait
  refine .bind (paced_alongside h rfl rfl _ _) fun result _ heq => ?_
  subst heq
  split
  · exact .raise _
  · exact sim_waitContainer (paced_alongside h rfl rfl) (paced_alongside h rfl rfl)

omit h in
/-- Two results of a dry run that differ in the output. -/
def SameRun (result₁ result₂ : DryRunResult) : Prop :=
  ∃ logExcerpt, result₂ = { result₁ with logExcerpt := logExcerpt }

theorem finishRun_settles (cid : String) (durationMs : Int) (ended : Option Int × Bool)
    {w₁ : World δ₁} {w₂ : World δ₂} (hw : Paced B o₁ o₂ s₁ s₂ False False False w₁ w₂) :
    EndsPaired (Paced B o₁ o₂ s₁ s₂) (RulesAlike SameRun)
      (OneRaised (fun _ => True) fun _ => True) (finishRun o₁ cid durationMs ended w₁)
      (finishRun o₂ cid durationMs ended w₂) := by
  have hafter := paced_command h hw ["logs", cid]
  have hlogs : isLogs ["logs", cid] = true := rfl
  have hremoval : isRemoval ["logs", cid] = false := rfl
  rw [hlogs, hremoval] at hafter
  unfold finishRun containerLogs
  rcases bestEffort_ends (o := o₁) ["logs", cid] DOCKER_CLI_TIMEOUT_S .internalError ""
      (fun result => sanitizeOutput (result.stdout ++ result.stderr)) w₁ with
    ⟨hexpected₁, logs₁, hrun₁⟩ | ⟨e₁, _, hraised₁, hrun₁⟩ <;>
  rcases bestEffort_ends (o := o₂) ["logs", cid] DOCKER_CLI_TIMEOUT_S .internalError ""
      (fun result => sanitizeOutput (result.stdout ++ result.stderr)) w₂ with
    ⟨hexpected₂, logs₂, hrun₂⟩ | ⟨e₂, _, hraised₂, hrun₂⟩
  · rw [Prog.bind_ok hrun₁, Prog.bind_ok hrun₂]
    refine .inl ⟨.ok ⟨logs₂, rfl⟩, False, False, False, ?_, .inr Iff.rfl⟩
    simpa [hexpected₁, hexpected₂] using hafter
  · rw [Prog.bind_ok hrun₁, Prog.bind_error hrun₂]
    refine .inr ⟨.second e₂ (fine_ok trivial), False, True, ?_, fun hiff => hiff.mpr trivial⟩
    simpa [hexpected₁, hraised₂] using hafter
  · rw [Prog.bind_error hrun₁, Prog.bind_ok hrun₂]
    refine .inr ⟨.first e₁ (fine_ok trivial), True, False, ?_, fun hiff => hiff.mp trivial⟩
    simpa [hraised₁, hexpected₂] using hafter
  · rw [Prog.bind_error hrun₁, Prog.bind_error hrun₂]
    refine .inl ⟨.raised e₁ e₂, True, True, False, ?_, .inr Iff.rfl⟩
    simpa [hraised₁, hraised₂] using hafter

theorem dryRun_settles (ref : String) (durationMs : Int) {w₁ : World δ₁} {w₂ : World δ₂}
    (hw : Paced B o₁ o₂ s₁ s₂ False False False w₁ w₂) :
    EndsPaired (Paced B o₁ o₂ s₁ s₂) (RulesAlike SameRun)
      (OneRaised (fun _ => True) fun _ => True) (dryRun o₁ py ref durationMs w₁)
      (dryRun o₂ py ref durationMs w₂) := by
  have hassert : Prog.Sim (Paced B o₁ o₂ s₁ s₂ False False False) (fun _ _ => True)
      (assertSafeImageRef ref : Prog (World δ₁) Halt String) (assertSafeImageRef ref) := by
    unfold assertSafeImageRef
    split
    · exact .ret trivial
    · exact .raise _
  rw [dryRun_eq, dryRun_eq]
  refine settles_bind hassert ?_ hw
  intro _ _ _ v₁ v₂ hv
  refine settles_bind (sim_createContainer (paced_alongside h rfl rfl)) ?_ hv
  intro cid _ hcid u₁ u₂ hu
  subst hcid
  refine settles_tryFinally (fun e => .error e) ?_ ?_
  · refine settles_bind (startAndWait_alike h cid) ?_ hu
    intro ended _ hended v₁ v₂ hv
    subst hended
    exact finishRun_settles h cid durationMs ended hv
  · intro L₁ L₂ C v₁ v₂ hv
    rcases removeContainer_alike h cid v₁ v₂ hv with
      ⟨a, b, v₁', v₂', ha, hb, hv'⟩ | ⟨e, v₁', v₂', he₁, he₂, hv'⟩
    · rw [Prog.bind_ok ha, Prog.bind_ok hb]
      exact .inl ⟨(), (), v₁', v₂', rfl, rfl, hv'⟩
    · rw [Prog.bind_error he₁, Prog.bind_error he₂]
      exact .inr ⟨e, v₁', v₂', rfl, rfl, hv'⟩

/-! ### A check -/

omit h in
/-- Two verdicts with one ruling. -/
structure SameVerdict (v₁ v₂ : Verdict) : Prop where
  status : v₁.status = v₂.status
  stageReached : v₁.stageReached = v₂.stageReached
  rejectReason : v₁.rejectReason = v₂.rejectReason

omit h in
/-- A verdict that gives no reason. -/
def Unreasoned (v : Verdict) : Prop := v.rejectReason = none

omit h in
/-- Two checks side by side: the evidence may differ, what is ruled from may not. -/
structure Beside (B : δ₁ → δ₂ → Prop) (o₁ : Outside δ₁) (o₂ : Outside δ₂) (s₁ : World δ₁)
    (s₂ : World δ₂) (L₁ L₂ C : Prop) (c₁ : CheckState δ₁) (c₂ : CheckState δ₂) : Prop where
  worlds : Paced B o₁ o₂ s₁ s₂ L₁ L₂ C c₁.world c₂.world
  stage : c₁.stage = c₂.stage
  imageRef : c₁.imageRef = c₂.imageRef

omit h in
theorem inWorld_eq {δ α : Type} {x : Prog (World δ) Halt α} {r : Except Halt α} {c : CheckState δ}
    {w : World δ} (hx : x c.world = (r, w)) : inWorld x c = (r, { c with world := w }) := by
  unfold inWorld
  rw [hx]

omit h in
theorem beside_inWorld {α β : Type} {V : α → β → Prop} {x : Prog (World δ₁) Halt α}
    {y : Prog (World δ₂) Halt β} (hxy : Prog.Sim (Paced B o₁ o₂ s₁ s₂ L₁ L₂ C) V x y) :
    Prog.Sim (Beside B o₁ o₂ s₁ s₂ L₁ L₂ C) V (inWorld x) (inWorld y) := by
  intro c₁ c₂ hc
  obtain ⟨hend, hw⟩ := hxy _ _ hc.worlds
  exact ⟨hend, hw, hc.stage, hc.imageRef⟩

omit h in
theorem beside_addEvidence (new₁ new₂ : Evidence) :
    Prog.Sim (Beside B o₁ o₂ s₁ s₂ L₁ L₂ C) (fun _ _ => True) (addEvidence new₁)
      (addEvidence new₂) :=
  .modify fun _ _ hc => ⟨hc.worlds, hc.stage, hc.imageRef⟩

omit h in
theorem beside_enterStage (stage : Stage) :
    Prog.Sim (Beside B o₁ o₂ s₁ s₂ L₁ L₂ C) (fun _ _ => True) (enterStage stage)
      (enterStage stage) :=
  .modify fun _ _ hc => ⟨hc.worlds, rfl, hc.imageRef⟩

omit h in
theorem beside_holdImage (ref : String) :
    Prog.Sim (Beside B o₁ o₂ s₁ s₂ L₁ L₂ C) (fun _ _ => True) (holdImage ref) (holdImage ref) :=
  .modify fun _ _ hc => ⟨hc.worlds, hc.stage, rfl⟩

omit h in
theorem sim_same {α : Type} {R : CheckState δ₁ → CheckState δ₂ → Prop} (r : Except StageFailure α) :
    Prog.Sim R Eq (orFail r : Check δ₁ α) (orFail r) := by
  cases r with
  | ok a => exact .ret rfl
  | error failure => exact .raise _

theorem loadImage_alike (path : String) :
    Prog.Sim (Paced B o₁ o₂ s₁ s₂ L₁ L₂ C) Eq (loadImage o₁ path) (loadImage o₂ path) := by
  unfold loadImage
  refine .bind (paced_alongside h rfl rfl _ _) fun result _ heq => ?_
  subst heq
  split
  · exact .raise _
  · split
    · unfold assertSafeImageRef
      split
      · exact .ret rfl
      · exact .raise _
    · exact .raise _

theorem inspectStage_alike (ref : String) :
    Prog.Sim (Beside B o₁ o₂ s₁ s₂ L₁ L₂ C) Eq (inspectStage o₁ py ref) (inspectStage o₂ py ref) := by
  have hinspect : Prog.Sim (Paced B o₁ o₂ s₁ s₂ L₁ L₂ C) SameReport (inspectImage o₁ py ref)
      (inspectImage o₂ py ref) := by
    by_cases hsafe : isSafeImageRef ref = true
    · exact sim_inspectImage (paced_alongside h rfl rfl) hsafe hsafe
    · unfold inspectImage assertSafeImageRef
      rw [if_neg hsafe, if_neg hsafe]
      exact .bind (V := fun _ _ => False) (.raise _) fun _ _ hnever => hnever.elim
  unfold inspectStage
  refine .bind (beside_enterStage _) fun _ _ _ => ?_
  refine .bind (beside_inWorld hinspect) fun image _ himage => ?_
  obtain ⟨id, rfl⟩ := himage
  refine .bind (beside_addEvidence _ _) fun _ _ _ => ?_
  refine .bind (sim_same (checkImage py image)) fun _ _ _ => ?_
  refine .bind (sim_same (entrypointOf image)) fun entrypoint _ heq => ?_
  subst heq
  refine .bind (beside_addEvidence _ _) fun _ _ _ => ?_
  refine .bind (beside_inWorld (sim_orRaise (agentDigestOf py image))) fun digest _ hdigest => ?_
  subst hdigest
  exact .bind (beside_addEvidence _ _) fun _ _ _ => .ret rfl

omit h in
/-- The facts of a dry run. -/
def runEvidence (outcome : DryRunResult) : Evidence where
  dryRunExitCode := outcome.exitCode
  dryRunMs := some outcome.durationMs
  logExcerpt := if outcome.logExcerpt = "" then none else some (PyStr.ofString outcome.logExcerpt)

omit h in
/-- What is made of a dry run's result. -/
def ruleRun {δ : Type} (submission : Submission) (outcome : DryRunResult) : Check δ Verdict := do
  addEvidence (runEvidence outcome)
  orFail (checkDryRun outcome)
  return accept submission .dryRun (← Prog.get).evidence

omit h in
/-- An acceptance, or the failure of the gate. -/
def rulingOf (submission : Submission) (outcome : DryRunResult) (evidence : Evidence) :
    Except Halt Verdict :=
  match checkDryRun outcome with
  | .ok _ => .ok (accept submission .dryRun evidence)
  | .error failure => .error (.stage failure)

omit h in
/-- The ruling leaves the world alone. -/
theorem ruleRun_run {δ : Type} (submission : Submission) (outcome : DryRunResult)
    (c : CheckState δ) : ruleRun submission outcome c =
      (rulingOf submission outcome (c.evidence.add (runEvidence outcome)),
        { c with evidence := c.evidence.add (runEvidence outcome) }) := by
  have hadd : addEvidence (runEvidence outcome) c =
      (.ok (), { c with evidence := c.evidence.add (runEvidence outcome) }) := rfl
  unfold ruleRun rulingOf
  rw [Prog.bind_ok hadd]
  cases checkDryRun outcome with
  | ok u => rfl
  | error failure => rfl

omit h in
theorem checkDryRun_fine {outcome : DryRunResult} {failure : StageFailure}
    (hfails : checkDryRun outcome = .error failure) : failure.reason ≠ .internalError := by
  unfold checkDryRun at hfails
  split at hfails
  · cases hfails
    exact RejectReason.noConfusion
  · split at hfails
    · cases hfails
      exact RejectReason.noConfusion
    · cases hfails

omit h in
theorem ruleRun_fine {δ : Type} (submission : Submission) (outcome : DryRunResult)
    (c : CheckState δ) : Fine Unreasoned (ruleRun submission outcome c).1 := by
  rw [ruleRun_run]
  unfold rulingOf
  cases hcheck : checkDryRun outcome with
  | ok u => exact fine_ok rfl
  | error failure =>
    refine ⟨?_, ?_⟩
    · intro v hv
      cases hv
    · intro e he
      cases he
      exact ⟨failure, rfl, checkDryRun_fine hcheck⟩

omit h in
/-- The gate does not look at the output. -/
theorem rulingOf_alike (submission : Submission) {outcome₁ outcome₂ : DryRunResult}
    (hsame : SameRun outcome₁ outcome₂) (evidence₁ evidence₂ : Evidence) :
    RulesAlike SameVerdict (rulingOf submission outcome₁ evidence₁)
      (rulingOf submission outcome₂ evidence₂) := by
  obtain ⟨logExcerpt, rfl⟩ := hsame
  have hcheck : checkDryRun { outcome₁ with logExcerpt := logExcerpt } = checkDryRun outcome₁ := rfl
  unfold rulingOf
  rw [hcheck]
  cases checkDryRun outcome₁ with
  | ok u => exact .ok ⟨rfl, rfl, rfl⟩
  | error failure => exact .error _

/-- The dry run of a check, and its ruling. -/
theorem dryRunStage_settles (submission : Submission) (ref : String) (durationMs : Int)
    {c₁ : CheckState δ₁} {c₂ : CheckState δ₂}
    (hc : Beside B o₁ o₂ s₁ s₂ False False False c₁ c₂) :
    EndsPaired (Beside B o₁ o₂ s₁ s₂) (RulesAlike SameVerdict)
      (OneRaised Unreasoned Unreasoned)
      ((inWorld (dryRun o₁ py ref durationMs) >>= ruleRun submission) c₁)
      ((inWorld (dryRun o₂ py ref durationMs) >>= ruleRun submission) c₂) := by
  have hrun : EndsPaired (Paced B o₁ o₂ s₁ s₂) (RulesAlike SameRun)
      (OneRaised (fun _ => True) fun _ => True) (dryRun o₁ py ref durationMs c₁.world)
      (dryRun o₂ py ref durationMs c₂.world) := dryRun_settles h ref durationMs hc.worlds
  rcases hdry₁ : dryRun o₁ py ref durationMs c₁.world with ⟨r₁, w₁⟩
  rcases hdry₂ : dryRun o₂ py ref durationMs c₂.world with ⟨r₂, w₂⟩
  rw [hdry₁, hdry₂] at hrun
  have hin₁ := inWorld_eq hdry₁
  have hin₂ := inWorld_eq hdry₂
  rcases hrun with ⟨halike, L₁, L₂, C, hw, hrecord⟩ | ⟨hraised, L₁, L₂, hw, hrecord⟩
  · have hc' : Beside B o₁ o₂ s₁ s₂ L₁ L₂ C { c₁ with world := w₁ } { c₂ with world := w₂ } :=
      ⟨hw, hc.stage, hc.imageRef⟩
    cases halike with
    | ok hsame =>
      rw [Prog.bind_ok hin₁, Prog.bind_ok hin₂, ruleRun_run, ruleRun_run]
      exact .inl ⟨rulingOf_alike submission hsame _ _, L₁, L₂, C, ⟨hw, hc.stage, hc.imageRef⟩, hrecord⟩
    | error e =>
      rw [Prog.bind_error hin₁, Prog.bind_error hin₂]
      exact .inl ⟨.error e, L₁, L₂, C, hc', hrecord⟩
    | raised e e' =>
      rw [Prog.bind_error hin₁, Prog.bind_error hin₂]
      exact .inl ⟨.raised e e', L₁, L₂, C, hc', hrecord⟩
  · have hc' : Beside B o₁ o₂ s₁ s₂ L₁ L₂ False { c₁ with world := w₁ } { c₂ with world := w₂ } :=
      ⟨hw, hc.stage, hc.imageRef⟩
    -- One run has an exception; the other has its ruling, or the failure it had before.
    have hother : ∀ {δ : Type} {x : Check δ DryRunResult} {r : Except Halt DryRunResult}
        {c c' : CheckState δ}, x c = (r, c') → Fine (fun _ => True) r →
          c'.world = ((x >>= ruleRun submission) c).2.world ∧
          c'.stage = ((x >>= ruleRun submission) c).2.stage ∧
          c'.imageRef = ((x >>= ruleRun submission) c).2.imageRef ∧
          Fine Unreasoned ((x >>= ruleRun submission) c).1 := by
      intro δ x r c c' hx hfine
      cases r with
      | ok outcome =>
        rw [Prog.bind_ok hx]
        refine ⟨?_, ?_, ?_, ruleRun_fine submission outcome c'⟩ <;> rw [ruleRun_run]
      | error e =>
        rw [Prog.bind_error hx]
        exact ⟨rfl, rfl, rfl, fine_error hfine⟩
    cases hraised with
    | first e hfine =>
      obtain ⟨hworld, hstage, href, hfine'⟩ := hother hin₂ hfine
      rw [Prog.bind_error hin₁]
      refine .inr ⟨.first e hfine', L₁, L₂, ⟨?_, ?_, ?_⟩, hrecord⟩
      · exact hworld ▸ hw
      · exact hc.stage.trans hstage
      · exact hc.imageRef.trans href
    | second e hfine =>
      obtain ⟨hworld, hstage, href, hfine'⟩ := hother hin₁ hfine
      rw [Prog.bind_error hin₂]
      refine .inr ⟨.second e hfine', L₁, L₂, ⟨?_, ?_, ?_⟩, hrecord⟩
      · exact hworld ▸ hw
      · exact hstage.symm.trans hc.stage
      · exact href.symm.trans hc.imageRef

omit h in
theorem dryRunStage_eq {δ : Type} (o : Outside δ) (py : Interpreter) (submission : Submission)
    (ref : String) (durationMs : Int) :
    (do
      dryRunStage o py ref durationMs
      return accept submission .dryRun (← Prog.get).evidence : Check δ Verdict) =
      enterStage .dryRun >>= fun _ =>
        inWorld (dryRun o py ref durationMs) >>= ruleRun submission := by
  unfold dryRunStage ruleRun runEvidence
  simp only [Prog.bind_assoc]

omit h in
/-- An earlier verdict settles both. -/
theorem settled_alike {c₁ : CheckState δ₁} {c₂ : CheckState δ₂} (hdb : c₁.world.db = c₂.world.db)
    (input : CheckInput) (digest : Option String) :
    Option.Rel SameVerdict (settledByDigest input digest c₁) (settledByDigest input digest c₂) := by
  unfold settledByDigest
  cases digest with
  | none => exact .none
  | some name =>
    rw [hdb]
    dsimp only [bind, Option.bind]
    split
    · cases c₂.world.db.findAgent name with
      | none => exact .none
      | some known =>
        dsimp only
        split
        · exact .some ⟨rfl, rfl, rfl⟩
        · cases c₂.world.db.findSubmission known.firstSubmission with
          | none => exact .none
          | some previous => exact .some ⟨rfl, rfl, rfl⟩
    · exact .none

omit h in
theorem settledByFile_alike {c₁ : CheckState δ₁} {c₂ : CheckState δ₂}
    (hdb : c₁.world.db = c₂.world.db) (input : CheckInput) (sha256 : String) :
    Option.Rel SameVerdict (settledByFile input sha256 c₁) (settledByFile input sha256 c₂) := by
  unfold settledByFile
  rw [hdb]
  dsimp only [bind, Option.bind]
  split
  · cases c₂.world.db.findByFileSha256 sha256 with
    | none => exact .none
    | some seen =>
      dsimp only
      split
      · exact .some ⟨rfl, rfl, rfl⟩
      · split
        · exact .some ⟨rfl, rfl, rfl⟩
        · exact .none
  · exact .none

omit h in
theorem settles_ret {c₁ : CheckState δ₁} {c₂ : CheckState δ₂}
    (hc : Beside B o₁ o₂ s₁ s₂ False False False c₁ c₂) {v₁ v₂ : Verdict}
    (hv : SameVerdict v₁ v₂) : EndsPaired (Beside B o₁ o₂ s₁ s₂) (RulesAlike SameVerdict)
      (OneRaised Unreasoned Unreasoned)
      ((pure v₁ : Check δ₁ Verdict) c₁) ((pure v₂ : Check δ₂ Verdict) c₂) :=
  .inl ⟨.ok hv, False, False, False, hc, .inr Iff.rfl⟩

theorem checkLoaded_settles (input : CheckInput) (ref : String) {c₁ : CheckState δ₁}
    {c₂ : CheckState δ₂} (hc : Beside B o₁ o₂ s₁ s₂ False False False c₁ c₂) :
    EndsPaired (Beside B o₁ o₂ s₁ s₂) (RulesAlike SameVerdict)
      (OneRaised Unreasoned Unreasoned) (checkLoaded o₁ py input ref c₁)
      (checkLoaded o₂ py input ref c₂) := by
  unfold checkLoaded
  refine settles_bind (inspectStage_alike h ref) ?_ hc
  intro digest _ hdigest c₁ c₂ hc
  subst hdigest
  rw [Prog.bind_ok (Prog.get_run c₁), Prog.bind_ok (Prog.get_run c₂)]
  have hsettled := settled_alike hc.worlds.db input digest
  generalize settledByDigest input digest c₁ = settled₁ at hsettled
  generalize settledByDigest input digest c₂ = settled₂ at hsettled
  cases hsettled with
  | some hsame => exact settles_ret hc hsame
  | none =>
    dsimp only
    split
    · exact settles_ret hc ⟨rfl, rfl, rfl⟩
    · rw [dryRunStage_eq, dryRunStage_eq]
      refine settles_bind (beside_enterStage .dryRun) ?_ hc
      intro _ _ _ c₁ c₂ hc
      exact dryRunStage_settles h input.submission ref input.dryRunMs hc

theorem submissionStages_settles (input : CheckInput) {c₁ : CheckState δ₁} {c₂ : CheckState δ₂}
    (hc : Beside B o₁ o₂ s₁ s₂ False False False c₁ c₂) :
    EndsPaired (Beside B o₁ o₂ s₁ s₂) (RulesAlike SameVerdict)
      (OneRaised Unreasoned Unreasoned)
      (submissionStages o₁ py input c₁) (submissionStages o₂ py input c₂) := by
  unfold submissionStages
  refine settles_bind (sim_same _) ?_ hc
  intro info _ hinfo c₁ c₂ hc
  subst hinfo
  refine settles_bind (beside_addEvidence _ _) ?_ hc
  intro _ _ _ c₁ c₂ hc
  rw [Prog.bind_ok (Prog.get_run c₁), Prog.bind_ok (Prog.get_run c₂)]
  have hsettled := settledByFile_alike hc.worlds.db input info.sha256
  generalize settledByFile input info.sha256 c₁ = settled₁ at hsettled
  generalize settledByFile input info.sha256 c₂ = settled₂ at hsettled
  cases hsettled with
  | some hsame => exact settles_ret hc hsame
  | none =>
    dsimp only
    refine settles_bind (beside_enterStage .structure) ?_ hc
    intro _ _ _ c₁ c₂ hc
    have hstructure : Prog.Sim (Beside B o₁ o₂ s₁ s₂ False False False) Eq
        (Prog.ofExcept (checkStructure py input.archive) : Check δ₁ StructureInfo)
        (Prog.ofExcept (checkStructure py input.archive)) :=
      fun _ _ hst => ⟨endsAlike_refl _, hst⟩
    refine settles_bind hstructure ?_ hc
    intro found _ hfound c₁ c₂ hc
    subst hfound
    refine settles_bind (beside_addEvidence _ _) ?_ hc
    intro _ _ _ c₁ c₂ hc
    refine settles_bind (beside_enterStage .load) ?_ hc
    intro _ _ _ c₁ c₂ hc
    refine settles_bind (beside_inWorld (loadImage_alike h _)) ?_ hc
    intro ref _ href c₁ c₂ hc
    subst href
    refine settles_bind (beside_holdImage ref) ?_ hc
    intro _ _ _ c₁ c₂ hc
    exact checkLoaded_settles h input ref hc

omit h in
/-- Two verdicts that rule differently. -/
def RulesApart (r₁ r₂ : Except Halt Verdict) : Prop :=
  ∃ v₁ v₂, r₁ = .ok v₁ ∧ r₂ = .ok v₂ ∧ v₁.rejectReason ≠ v₂.rejectReason

omit h in
/-- The reason a check gives for what stopped it. -/
def haltReason : Halt → RejectReason
  | .stage failure => failure.reason
  | .raised _ => .internalError

omit h in
theorem haltVerdict_run {δ : Type} (submission : Submission) (e : Halt) (c : CheckState δ) :
    ∃ v, haltVerdict submission e c = (.ok v, c) ∧ v.status = .rejected ∧
      v.stageReached = c.stage ∧ v.rejectReason = some (haltReason e) := by
  unfold haltVerdict
  rw [Prog.bind_ok (Prog.get_run c)]
  cases e with
  | stage failure => exact ⟨_, rfl, rfl, rfl, rfl⟩
  | raised e => exact ⟨_, rfl, rfl, rfl, rfl⟩

omit h in
/-- What is not an exception is not ruled as one. -/
theorem fine_handled {δ : Type} {x : Check δ Verdict} {r : Except Halt Verdict} {c c' : CheckState δ}
    (hx : x c = (r, c')) (hfine : Fine Unreasoned r) (submission : Submission) :
    ∃ v, Prog.tryExcept x (haltVerdict submission) c = (.ok v, c') ∧
      v.rejectReason ≠ some .internalError := by
  cases r with
  | ok v =>
    refine ⟨v, Prog.tryExcept_ok hx, ?_⟩
    rw [hfine.1 v rfl]
    intro hnone
    cases hnone
  | error e =>
    obtain ⟨failure, hfailure, hreason⟩ := hfine.2 e rfl
    obtain ⟨v, hv, _, _, hvReason⟩ := haltVerdict_run submission e c'
    refine ⟨v, (Prog.tryExcept_error hx).trans hv, ?_⟩
    rw [hvReason, hfailure]
    intro hsame
    exact hreason (Option.some.inj hsame)

omit h in
theorem handled_settles {x : Check δ₁ Verdict} {y : Check δ₂ Verdict} {c₁ : CheckState δ₁}
    {c₂ : CheckState δ₂} (submission : Submission)
    (hxy : EndsPaired (Beside B o₁ o₂ s₁ s₂) (RulesAlike SameVerdict) (OneRaised Unreasoned Unreasoned)
      (x c₁) (y c₂)) :
    EndsPaired (Beside B o₁ o₂ s₁ s₂) (Prog.EndsAlike SameVerdict) RulesApart
      (Prog.tryExcept x (haltVerdict submission) c₁)
      (Prog.tryExcept y (haltVerdict submission) c₂) := by
  rcases hx : x c₁ with ⟨r, c₁'⟩
  rcases hy : y c₂ with ⟨q, c₂'⟩
  rw [hx, hy] at hxy
  rcases hxy with ⟨halike, L₁, L₂, C, hc, hrecord⟩ | ⟨hraised, L₁, L₂, hc, hrecord⟩
  · -- The two are stopped in the same stage.
    have hstopped : ∀ {e e'}, haltReason e = haltReason e' → x c₁ = (.error e, c₁') →
        y c₂ = (.error e', c₂') → EndsPaired (Beside B o₁ o₂ s₁ s₂) (Prog.EndsAlike SameVerdict)
          RulesApart (Prog.tryExcept x (haltVerdict submission) c₁)
          (Prog.tryExcept y (haltVerdict submission) c₂) := by
      intro e e' hreason he he'
      obtain ⟨v, hv, hstatus, hstage, hvReason⟩ := haltVerdict_run submission e c₁'
      obtain ⟨v', hv', hstatus', hstage', hvReason'⟩ := haltVerdict_run submission e' c₂'
      rw [Prog.tryExcept_error he, Prog.tryExcept_error he', hv, hv']
      refine .inl ⟨.ok ⟨?_, ?_, ?_⟩, L₁, L₂, C, hc, hrecord⟩
      · rw [hstatus, hstatus']
      · rw [hstage, hstage', hc.stage]
      · rw [hvReason, hvReason', hreason]
    cases halike with
    | ok hsame =>
      rw [Prog.tryExcept_ok hx, Prog.tryExcept_ok hy]
      exact .inl ⟨.ok hsame, L₁, L₂, C, hc, hrecord⟩
    | error e => exact hstopped rfl hx hy
    | raised e e' =>
      have hreason : haltReason (.raised e) = haltReason (.raised e') := rfl
      exact hstopped hreason hx hy
  · cases hraised with
    | first e hfine =>
      obtain ⟨v, hv, _, _, hreason⟩ := haltVerdict_run submission (.raised e) c₁'
      obtain ⟨v', hv', hreason'⟩ := fine_handled hy hfine submission
      rw [Prog.tryExcept_error hx, hv, hv']
      refine .inr ⟨⟨v, v', rfl, rfl, ?_⟩, L₁, L₂, hc, hrecord⟩
      rw [hreason]
      exact hreason'.symm
    | second e hfine =>
      obtain ⟨v, hv, _, _, hreason⟩ := haltVerdict_run submission (.raised e) c₂'
      obtain ⟨v', hv', hreason'⟩ := fine_handled hx hfine submission
      rw [Prog.tryExcept_error hy, hv, hv']
      refine .inr ⟨⟨v', v, rfl, rfl, ?_⟩, L₁, L₂, hc, hrecord⟩
      rw [hreason]
      exact hreason'

theorem dropImage_cleans (keepImage : Bool) :
    CleanAlike (Beside B o₁ o₂ s₁ s₂ L₁ L₂) C (dropImage o₁ keepImage) (dropImage o₂ keepImage) := by
  intro c₁ c₂ hc
  unfold dropImage
  rw [Prog.bind_ok (Prog.get_run c₁), Prog.bind_ok (Prog.get_run c₂), hc.imageRef]
  cases c₂.imageRef with
  | none => exact .inl ⟨(), (), c₁, c₂, rfl, rfl, hc⟩
  | some ref =>
    dsimp only
    split
    · exact .inl ⟨(), (), c₁, c₂, rfl, rfl, hc⟩
    · rcases removeImage_cleans h ref c₁.world c₂.world hc.worlds with
        ⟨a, b, w₁, w₂, ha, hb, hw⟩ | ⟨e, w₁, w₂, he₁, he₂, hw⟩
      · rw [Prog.bind_ok (inWorld_eq ha), Prog.bind_ok (inWorld_eq hb)]
        exact .inl ⟨(), (), _, _, rfl, rfl, hw, hc.stage, hc.imageRef⟩
      · rw [Prog.bind_error (inWorld_eq he₁), Prog.bind_error (inWorld_eq he₂)]
        exact .inr ⟨e, _, _, rfl, rfl, hw, hc.stage, hc.imageRef⟩

/-- **The output of a container decides nothing, as long as it is read.** Two checks for which Docker
    answers alike but for `docker logs` end alike exactly when the read of the output is answered by
    an exception `run_docker` does not expect in both of them or in neither, or a removal is. -/
theorem logs_decide_iff (input : CheckInput) {w₁ : World δ₁} {w₂ : World δ₂}
    (hB : B w₁.outside w₂.outside) (hdb : w₁.db = w₂.db) :
    Prog.EndsAlike SameVerdict (checkSubmission o₁ py input w₁).1
        (checkSubmission o₂ py input w₂).1 ↔
      Raised o₁ isRemoval (issuedSince w₁ (checkSubmission o₁ py input w₁).2) ∨
        (Raised o₁ isLogs (issuedSince w₁ (checkSubmission o₁ py input w₁).2) ↔
          Raised o₂ isLogs (issuedSince w₂ (checkSubmission o₂ py input w₂).2)) := by
  have hstart : Beside B o₁ o₂ w₁ w₂ False False False { world := w₁, stage := .file }
      { world := w₂, stage := .file } := ⟨paced_refl hB hdb, rfl, rfl⟩
  have hloaded : EndsPaired (Beside B o₁ o₂ w₁ w₂) (RulesAlike SameVerdict)
      (OneRaised Unreasoned Unreasoned)
      (submissionStages o₁ py input { world := w₁, stage := .file })
      (submissionStages o₂ py input { world := w₂, stage := .file }) :=
    submissionStages_settles h input hstart
  have hstages := handled_settles input.submission hloaded
  have hcheck := settles_tryFinally (fun e => .error e) hstages
    fun {L₁ L₂ C} => dropImage_cleans h input.keepImage
  have hends : EndsPaired (fun L₁ L₂ C => Paced B o₁ o₂ w₁ w₂ L₁ L₂ C) (Prog.EndsAlike SameVerdict)
      RulesApart (checkSubmission o₁ py input w₁) (checkSubmission o₂ py input w₂) := by
    rcases hcheck with ⟨halike, L₁, L₂, C, hc, hrecord⟩ | ⟨hapart, L₁, L₂, hc, hrecord⟩
    · exact .inl ⟨halike, L₁, L₂, C, hc.worlds, hrecord⟩
    · exact .inr ⟨hapart, L₁, L₂, hc.worlds, hrecord⟩
  rcases hends with ⟨halike, L₁, L₂, C, hw, hrecord⟩ | ⟨hapart, L₁, L₂, hw, hrecord⟩
  · rw [hw.removal₁, hw.logs₁, hw.logs₂]
    exact iff_of_true halike hrecord
  · rw [hw.removal₁, hw.logs₁, hw.logs₂]
    refine iff_of_false ?_ (fun hor => hrecord (hor.resolve_left id))
    intro halike
    obtain ⟨v₁, v₂, hv₁, hv₂, hreason⟩ := hapart
    rw [hv₁, hv₂] at halike
    cases halike with
    | ok hsame => exact hreason hsame.rejectReason

end Worlds

/-! ## An agent that prints -/

/-- A Docker to which every image is the same agent, which prints this. -/
def printing (answer : Outcome) : Outside Unit where
  docker d args := if isLogs args then (answer, ()) else oneAgent.docker d args
  http := oneAgent.http

theorem printing_alike (answer₁ answer₂ : Outcome) :
    AlikeButLogs (fun _ _ => True) (printing answer₁) (printing answer₂) where
  other args hlogs := by
    intro d₁ d₂ _
    refine ⟨?_, trivial⟩
    unfold printing
    dsimp only
    rw [hlogs]
    rfl
  logs := fun _ _ _ _ _ => trivial

theorem printing_expected {answer : Outcome} (hanswer : ¬ Unexpected answer)
    (kind : List String → Bool) (events : List (Event Unit)) :
    ¬ Raised (printing answer) kind events := by
  intro hraised
  obtain ⟨d, args, _, _, hunexpected⟩ := hraised
  unfold printing at hunexpected
  dsimp only at hunexpected
  split at hunexpected
  · exact hanswer hunexpected
  · obtain ⟨e, he, _⟩ := hunexpected
    cases he

/-- The world both are checked in. -/
def quietWorld : World Unit where
  outside := ()

def printsHello : Outcome := .ok ⟨0, "hello", ""⟩

/-- An agent whose output is read, and one whose output is not there in time. -/
theorem late_output_rules_alike :
    Prog.EndsAlike SameVerdict
      (checkSubmission (printing printsHello) plainInterpreter agentFile quietWorld).1
      (checkSubmission (printing (.error ⟨.timeoutExpired, ""⟩)) plainInterpreter agentFile
        quietWorld).1 := by
  refine (logs_decide_iff (printing_alike _ _) agentFile trivial rfl).mpr
    (.inr (iff_of_false ?_ ?_))
  · refine printing_expected ?_ _ _
    intro hunexpected
    obtain ⟨e, he, _⟩ := hunexpected
    cases he
  · refine printing_expected ?_ _ _
    intro hunexpected
    obtain ⟨e, he, hclass, _⟩ := hunexpected
    cases he
    exact hclass rfl

/-- The ruling of a check that comes back. -/
def ruledAs : Except Halt Verdict → Option (Status × Stage × Option RejectReason)
  | .ok v => some (v.status, v.stageReached, v.rejectReason)
  | .error _ => none

/-- Output that is no UTF-8 turns the acceptance of the same agent into an internal error. -/
theorem undecodable_output_decides :
    ruledAs (checkSubmission (printing printsHello) plainInterpreter agentFile quietWorld).1 =
        some (.accepted, .dryRun, none) ∧
      ruledAs (checkSubmission (printing (.error ⟨.unicodeDecodeError, ""⟩)) plainInterpreter
        agentFile quietWorld).1 = some (.rejected, .dryRun, some .internalError) ∧
      ¬ Prog.EndsAlike SameVerdict
        (checkSubmission (printing printsHello) plainInterpreter agentFile quietWorld).1
        (checkSubmission (printing (.error ⟨.unicodeDecodeError, ""⟩)) plainInterpreter agentFile
          quietWorld).1 := by
  have haccepted : ruledAs (checkSubmission (printing printsHello) plainInterpreter agentFile
      quietWorld).1 = some (.accepted, .dryRun, none) := by decide +kernel
  have hrejected : ruledAs (checkSubmission (printing (.error ⟨.unicodeDecodeError, ""⟩))
      plainInterpreter agentFile quietWorld).1 =
        some (.rejected, .dryRun, some .internalError) := by decide +kernel
  refine ⟨haccepted, hrejected, ?_⟩
  intro halike
  generalize (checkSubmission (printing printsHello) plainInterpreter agentFile quietWorld).1 = r
    at haccepted halike
  generalize (checkSubmission (printing (.error ⟨.unicodeDecodeError, ""⟩)) plainInterpreter
    agentFile quietWorld).1 = q at hrejected halike
  cases halike with
  | error e => cases haccepted
  | ok hsame =>
    have hnone := (Prod.mk.inj (Prod.mk.inj (Option.some.inj haccepted)).2).2
    have hsome := (Prod.mk.inj (Prod.mk.inj (Option.some.inj hrejected)).2).2
    rw [← hsame.rejectReason, hnone] at hsome
    cases hsome

end TaoSubnet
