import TaoSubnet.Lib.Runs
import TaoSubnet.Proof.Security.Rulings

/-!
# A call, statement by statement

A call that is left alone does what `check_and_record` does (`runs_alone`): cutting a check at its
statements changes nothing but what may come between them. What a single step of a call can do is
said once (`Moved`), and what it rules when others have written in between.
-/

namespace TaoSubnet

open Py Machine

variable {δ : Type} {o : Outside δ} {py : Interpreter}

/-! ## The pieces are the check -/

/-- The stages of either check. -/
def stagesOf (o : Outside δ) (py : Interpreter) (input : CheckInput) (fromRegistry : Bool) :
    Check δ Verdict :=
  if fromRegistry then registryStages o py input else submissionStages o py input

/-- What follows the first piece. -/
def ruleFound (o : Outside δ) (py : Interpreter) (input : CheckInput)
    (found : Verdict ⊕ (String × Option String)) : Check δ Verdict :=
  match found with
  | .inl verdict => return verdict
  | .inr (ref, agentDigest) => ruleOn o py input ref agentDigest

theorem stages_eq (input : CheckInput) (fromRegistry : Bool) :
    stagesOf o py input fromRegistry =
      identify o py input fromRegistry >>= ruleFound o py input := by
  have hloaded : ∀ ref, (inspectStage o py ref >>= fun agentDigest =>
      ruleFound o py input (.inr (ref, agentDigest))) = checkLoaded o py input ref := fun _ => rfl
  cases fromRegistry with
  | true =>
    unfold stagesOf identify reachImage pullReference registryStages
    simp only [if_true, Prog.bind_assoc, Prog.pure_bind, hloaded]
  | false =>
    unfold stagesOf identify reachImage loadFile submissionStages
    simp only [Bool.false_eq_true, if_false, Prog.bind_assoc]
    congr 1
    funext info
    congr 1
    funext _
    congr 1
    funext c
    cases settledByFile input info.sha256 c with
    | some verdict => rfl
    | none => simp only [Prog.bind_assoc, Prog.pure_bind, hloaded]

theorem checkEntry_eq (input : CheckInput) (fromRegistry : Bool) (w : World δ) :
    checkEntry o py input fromRegistry w =
      closeCheck o input (stagesOf o py input fromRegistry (checkStart fromRegistry w)) := by
  cases fromRegistry with
  | true => rfl
  | false => rfl

/-! ## A call that is left alone -/

/-- What a call leaves behind, and returns, once its check came to `result`. -/
def written (db : Db) (result : Except Halt Verdict) : Except Halt (Nat × Verdict) × Db :=
  match result with
  | .ok verdict =>
    (.ok ((recordAndRegister true verdict db).1, verdict), (recordAndRegister true verdict db).2)
  | .error e => (.error e, db)

theorem checkAndRecord_written (py : Interpreter) {input : CheckInput}
    (hdedupe : input.dedupe = true) (fromRegistry : Bool) (w : World δ) :
    ((checkAndRecord o py input fromRegistry w).1, (checkAndRecord o py input fromRegistry w).2.db) =
      written w.db (checkEntry o py input fromRegistry w).1 := by
  rw [checkAndRecord_eq]
  rcases hcheck : checkEntry o py input fromRegistry w with ⟨e | verdict, w'⟩
  · rw [Prog.bind_error hcheck, ← db_checkEntry hcheck]
    rfl
  · rw [Prog.bind_ok hcheck, ← db_checkEntry hcheck]
    unfold recordStep written
    rw [hdedupe]

variable {s s' : Shared δ} {i : Nat} {call : Call δ}

theorem calls_enter (s : Shared δ) (i : Nat) (call : Call δ) (phase : Phase δ) :
    (s.enter i call phase).calls = s.calls.set i { call with phase := phase } := rfl

/-- A call whose stages are over records and registers. -/
theorem reaches_end (py : Interpreter) {stages : Except Halt Verdict × CheckState δ}
    (hcall : s.calls[i]? = some call)
    (hphase : call.phase = afterStages o call.input stages) :
    ∃ s', Reachable (Shared.step o py) s s' ∧
      s'.db = (written s.db (closeCheck o call.input stages).1).2 ∧
      s'.calls = s.calls.set i
        { call with phase := .ended (written s.db (closeCheck o call.input stages).1).1 } := by
  unfold afterStages at hphase
  cases hclosed : (closeCheck o call.input stages).1 with
  | error e =>
    rw [hclosed] at hphase
    refine ⟨s, .start, rfl, ?_⟩
    obtain ⟨hlt, hget⟩ := List.getElem?_eq_some_iff.mp hcall
    have hsame : { call with phase := .ended (.error e) } = s.calls[i] := by
      rw [hget]
      cases call
      simp only [Call.mk.injEq, true_and]
      exact hphase.symm
    show s.calls = s.calls.set i { call with phase := .ended (.error e) }
    rw [hsame, List.set_getElem_self]
  | ok verdict =>
    rw [hclosed] at hphase
    let s₁ : Shared δ := { s with db := (s.db.recordVerdict verdict).2 }.enter i call
      (.recorded (s.db.recordVerdict verdict).1 verdict)
    have hrecord : s.step o py (.record i) = some s₁ := by
      simp only [Shared.step, hcall, Option.bind_eq_bind, Option.bind_some]
      rw [hphase]
    have hlt : i < s.calls.length := (List.getElem?_eq_some_iff.mp hcall).1
    have hcall₁ : s₁.calls[i]? = some { call with
        phase := .recorded (s.db.recordVerdict verdict).1 verdict } := by
      show (s.calls.set i _)[i]? = _
      rw [List.getElem?_set_self hlt]
    have hregister : s₁.step o py (.register i) = some ({ s₁ with
        db := (recordAndRegister true verdict s.db).2 }.enter i
          { call with phase := .recorded (s.db.recordVerdict verdict).1 verdict }
          (.ended (.ok ((recordAndRegister true verdict s.db).1, verdict)))) := by
      simp only [Shared.step, hcall₁, Option.bind_eq_bind, Option.bind_some]
      unfold recordAndRegister
      cases verdict.fromCache with
      | true => rfl
      | false => rfl
    refine ⟨_, (Reachable.start.next hrecord).next hregister, rfl, ?_⟩
    show (s.calls.set i _).set i _ = _
    rw [List.set_set]
    rfl

theorem keeps_identify {I : World δ → Prop} (h : ∀ args, Prog.Keeps I (docker o args))
    (input : CheckInput) (fromRegistry : Bool) :
    Prog.Keeps (InCheck I fun _ => True) (identify o py input fromRegistry) := by
  have hload : Prog.Keeps (InCheck I fun _ => True) (loadFile o py input) := by
    unfold loadFile
    refine .bind (keeps_orFail _) fun info => .bind (.modify fun _ hc => hc) fun _ => ?_
    refine .bind .get fun c => ?_
    split
    · exact .ret _
    · refine .bind (.modify fun _ hc => hc) fun _ => .bind (.ofExcept _) fun found => ?_
      refine .bind (.modify fun _ hc => hc) fun _ => .bind (.modify fun _ hc => hc) fun _ => ?_
      refine .bind (keeps_inWorld (keeps_loadImage (h _))) fun ref => ?_
      exact .bind (.modify fun _ hc => ⟨hc.1, trivial⟩) fun _ => .ret _
  have hpull : Prog.Keeps (InCheck I fun _ => True) (pullReference o py input) := by
    unfold pullReference
    refine .bind (.modify fun _ hc => hc) fun _ => ?_
    refine .bind (keeps_inWorld (keeps_pullImage h _)) fun pulled => ?_
    refine .bind (.modify fun _ hc => ⟨hc.1, trivial⟩) fun _ => ?_
    exact .bind (.modify fun _ hc => hc) fun _ => .ret _
  have hfirst : Prog.Keeps (InCheck I fun _ => True) (reachImage o py input fromRegistry) :=
    .ite hpull hload
  unfold identify
  refine .bind hfirst fun found => ?_
  cases found with
  | inl verdict => exact .ret _
  | inr ref => exact .bind (keeps_inspectStage (h _)) fun agentDigest => .ret _

/-- The phase of a call that is left alone, once its stages are over. -/
theorem reaches_afterStages (py : Interpreter) (s : Shared δ) {input : CheckInput}
    (hdedupe : input.dedupe = true) (fromRegistry : Bool) (d : δ) :
    ∃ s', Reachable (Shared.step o py) s s' ∧ s'.db = s.db ∧
      s'.calls = s.calls ++ [⟨input, fromRegistry, afterStages o input
        (stagesOf o py input fromRegistry
          (checkStart fromRegistry { outside := d, db := s.db }))⟩] := by
  have hlast : ∀ call : Call δ, (s.calls ++ [call])[s.calls.length]? = some call := by simp
  have hset : ∀ call call' : Call δ,
      (s.calls ++ [call]).set s.calls.length call' = s.calls ++ [call'] := by simp
  have hstart : s.step o py (.start input fromRegistry) =
      some { s with calls := s.calls ++ [⟨input, fromRegistry, .started⟩] } := by
    rw [Shared.step, if_pos hdedupe]
  have hidentify : Shared.step o py { s with calls := s.calls ++ [⟨input, fromRegistry, .started⟩] }
      (.identify s.calls.length d) = some { s with calls := s.calls ++
        [⟨input, fromRegistry, identifyStep o py input fromRegistry s.db d⟩] } := by
    simp only [Shared.step, hlast, Option.bind_eq_bind, Option.bind_some, Shared.enter, hset]
  have hreached := (Reachable.start.next hstart).next hidentify
  rcases hfound : identify o py input fromRegistry
      (checkStart fromRegistry { outside := d, db := s.db }) with ⟨e | verdict | ⟨ref, digest⟩, c₁⟩
  · refine ⟨_, hreached, rfl, ?_⟩
    rw [stages_eq, Prog.bind_error hfound]
    unfold identifyStep
    rw [hfound]
  · refine ⟨_, hreached, rfl, ?_⟩
    rw [stages_eq, Prog.bind_ok hfound]
    unfold identifyStep
    rw [hfound]
    rfl
  · have hphase : identifyStep o py input fromRegistry s.db d = .identified ref digest c₁ := by
      unfold identifyStep
      rw [hfound]
    rw [hphase] at hreached
    have hlook : Shared.step o py { s with calls := s.calls ++
        [⟨input, fromRegistry, .identified ref digest c₁⟩] } (.lookAgent s.calls.length) =
        some { s with calls := s.calls ++
          [⟨input, fromRegistry, .agentLooked ref digest s.db.agents c₁⟩] } := by
      simp only [Shared.step, hlast, Option.bind_eq_bind, Option.bind_some, Shared.enter, hset]
    have hrule : Shared.step o py { s with calls := s.calls ++
        [⟨input, fromRegistry, .agentLooked ref digest s.db.agents c₁⟩] }
        (.rule s.calls.length c₁.world.outside) =
        some { s with calls := s.calls ++ [⟨input, fromRegistry,
          ruleStep o py input ref digest s.db.agents c₁ s.db c₁.world.outside⟩] } := by
      simp only [Shared.step, hlast, Option.bind_eq_bind, Option.bind_some, Shared.enter, hset]
    refine ⟨_, (hreached.next hlook).next hrule, rfl, ?_⟩
    -- Nobody has written in between: the check sees the database it began with.
    have hdb : c₁.world.db = s.db :=
      ((keeps_identify (I := fun w : World δ => w.db = s.db) (fun _ _ hw => hw) input
        fromRegistry).run ⟨rfl, trivial⟩ hfound).1
    have hsame : ({ c₁ with world := { c₁.world with
        outside := c₁.world.outside
        db := { submissions := s.db.submissions, agents := s.db.agents } } } : CheckState δ) = c₁ := by
      rw [← hdb]
    rw [stages_eq, Prog.bind_ok hfound, ruleStep, hsame]
    rfl

/-- **A call that is left alone is `check_and_record`.** -/
theorem runs_alone (s : Shared δ) {input : CheckInput} (hdedupe : input.dedupe = true)
    (fromRegistry : Bool) (d : δ) :
    ∃ s', Reachable (Shared.step o py) s s' ∧
      s'.db = (checkAndRecord o py input fromRegistry { outside := d, db := s.db }).2.db ∧
      s'.calls = s.calls ++ [⟨input, fromRegistry,
        .ended (checkAndRecord o py input fromRegistry { outside := d, db := s.db }).1⟩] := by
  obtain ⟨s₁, hreached, hdb₁, hcalls₁⟩ :=
    reaches_afterStages (o := o) py s hdedupe fromRegistry d
  have hcall : s₁.calls[s.calls.length]? = some ⟨input, fromRegistry, afterStages o input
      (stagesOf o py input fromRegistry
        (checkStart fromRegistry { outside := d, db := s.db }))⟩ := by
    rw [hcalls₁]
    simp
  obtain ⟨s', hend, hdb, hcalls⟩ := reaches_end py hcall rfl
  have hwritten := checkAndRecord_written (o := o) py hdedupe fromRegistry
    { outside := d, db := s.db }
  rw [checkEntry_eq] at hwritten
  dsimp only at hdb hcalls hwritten
  rw [hdb₁, ← hwritten] at hdb hcalls
  refine ⟨s', hreached.trans hend, hdb, ?_⟩
  rw [hcalls, hcalls₁]
  simp

/-! ## One step -/

/-- What a step of a call can do. -/
inductive Moved (o : Outside δ) (py : Interpreter) (s : Shared δ) : CallAction δ → Shared δ → Prop
  | start {input : CheckInput} {fromRegistry : Bool} (hdedupe : input.dedupe = true) :
    Moved o py s (.start input fromRegistry)
      { s with calls := s.calls ++ [⟨input, fromRegistry, .started⟩] }
  | identify {i : Nat} {d : δ} {call : Call δ} (hcall : s.calls[i]? = some call)
      (hphase : call.phase = .started) :
    Moved o py s (.identify i d)
      (s.enter i call (identifyStep o py call.input call.fromRegistry s.db d))
  | lookAgent {i : Nat} {call : Call δ} {ref : String} {digest : Option String}
      {check : CheckState δ} (hcall : s.calls[i]? = some call)
      (hphase : call.phase = .identified ref digest check) :
    Moved o py s (.lookAgent i) (s.enter i call (.agentLooked ref digest s.db.agents check))
  | rule {i : Nat} {d : δ} {call : Call δ} {ref : String} {digest : Option String}
      {agents : List AgentRow} {check : CheckState δ} (hcall : s.calls[i]? = some call)
      (hphase : call.phase = .agentLooked ref digest agents check) :
    Moved o py s (.rule i d)
      (s.enter i call (ruleStep o py call.input ref digest agents check s.db d))
  | record {i : Nat} {call : Call δ} {verdict : Verdict} (hcall : s.calls[i]? = some call)
      (hphase : call.phase = .ruled verdict) :
    Moved o py s (.record i) ({ s with db := (s.db.recordVerdict verdict).2 }.enter i call
      (.recorded (s.db.recordVerdict verdict).1 verdict))
  | register {i : Nat} {call : Call δ} {id : Nat} {verdict : Verdict}
      (hcall : s.calls[i]? = some call) (hphase : call.phase = .recorded id verdict) :
    Moved o py s (.register i) ({ s with
      db := if verdict.fromCache then s.db else s.db.registerAgent verdict id }.enter i call
        (.ended (.ok (id, verdict))))

theorem moved {action : CallAction δ} (h : s.step o py action = some s') : Moved o py s action s' := by
  cases action with
  | start input fromRegistry =>
    rw [Shared.step] at h
    split at h
    · rename_i hdedupe
      cases h
      exact .start hdedupe
    · cases h
  | identify i d =>
    obtain ⟨call, hcall, hnext⟩ := Option.bind_eq_some_iff.mp h
    clear h
    split at hnext
    · rename_i hphase
      cases hnext
      exact .identify hcall hphase
    · cases hnext
  | lookAgent i =>
    obtain ⟨call, hcall, hnext⟩ := Option.bind_eq_some_iff.mp h
    clear h
    split at hnext
    · rename_i hphase
      cases hnext
      exact .lookAgent hcall hphase
    · cases hnext
  | rule i d =>
    obtain ⟨call, hcall, hnext⟩ := Option.bind_eq_some_iff.mp h
    clear h
    split at hnext
    · rename_i hphase
      cases hnext
      exact .rule hcall hphase
    · cases hnext
  | record i =>
    obtain ⟨call, hcall, hnext⟩ := Option.bind_eq_some_iff.mp h
    clear h
    split at hnext
    · rename_i hphase
      cases hnext
      exact .record hcall hphase
    · cases hnext
  | register i =>
    obtain ⟨call, hcall, hnext⟩ := Option.bind_eq_some_iff.mp h
    clear h
    split at hnext
    · rename_i hphase
      cases hnext
      exact .register hcall hphase
    · cases hnext

/-! ## What a step rules -/

variable {input : CheckInput} {fromRegistry : Bool} {verdict : Verdict} {db : Db} {d : δ}

/-- A call whose stages are over has ruled, unless its clean-up raised. -/
theorem afterStages_cases (o : Outside δ) (input : CheckInput)
    (stages : Except Halt Verdict × CheckState δ) :
    (∃ verdict, afterStages o input stages = .ruled verdict) ∨
      ∃ e, afterStages o input stages = .ended (.error e) := by
  unfold afterStages
  cases (closeCheck o input stages).1 with
  | ok verdict => exact .inl ⟨verdict, rfl⟩
  | error e => exact .inr ⟨e, rfl⟩

/-- What the handlers hand back is the stages' verdict, or a rejection. -/
theorem afterStages_ruled {stages : Except Halt Verdict × CheckState δ}
    (h : afterStages o input stages = .ruled verdict) : stages.1 = .ok verdict ∨
      ∃ stage reason detail evidence, verdict = reject input.submission stage reason detail evidence := by
  unfold afterStages at h
  split at h
  · rename_i hclosed
    cases h
    have hclosed' : (Prog.tryFinally (Prog.tryExcept (fun _ => stages)
        (haltVerdict input.submission)) (dropImage o input.keepImage) stages.2).1 = .ok verdict :=
      hclosed
    obtain ⟨c, hstages, -⟩ := Prog.tryFinally_eq_ok (Prod.ext hclosed' rfl)
    rcases Prog.tryExcept_eq_ok hstages with hran | ⟨e, c₁, -, hhalt⟩
    · left
      rw [hran]
    · exact .inr (haltVerdict_ok hhalt)
  · cases h

/-- No agent was identified yet. -/
def NoDigest (c : CheckState δ) : Prop := c.evidence.agentDigest = none

theorem keeps_noDigest_add {new : Evidence} (h : new.agentDigest = none) :
    Prog.Keeps NoDigest (addEvidence new : Check δ Unit) := by
  intro c hc
  show (c.evidence.add new).agentDigest = none
  rw [Evidence.add, h, Option.none_or]
  exact hc

theorem keeps_noDigest_reachImage (input : CheckInput) (fromRegistry : Bool) :
    Prog.Keeps NoDigest (reachImage o py input fromRegistry) := by
  have hload : Prog.Keeps NoDigest (loadFile o py input) := by
    unfold loadFile
    refine .bind (keeps_orFail _) fun info => .bind (keeps_noDigest_add rfl) fun _ => ?_
    refine .bind .get fun c => ?_
    split
    · exact .ret _
    · refine .bind (.modify fun _ hc => hc) fun _ => .bind (.ofExcept _) fun found => ?_
      refine .bind (keeps_noDigest_add rfl) fun _ => .bind (.modify fun _ hc => hc) fun _ => ?_
      refine .bind (fun _ hc => hc) fun ref => ?_
      exact .bind (.modify fun _ hc => hc) fun _ => .ret _
  have hpull : Prog.Keeps NoDigest (pullReference o py input) := by
    unfold pullReference
    refine .bind (keeps_noDigest_add rfl) fun _ => .bind (fun _ hc => hc) fun pulled => ?_
    refine .bind (.modify fun _ hc => hc) fun _ => ?_
    exact .bind (keeps_noDigest_add rfl) fun _ => .ret _
  exact .ite hpull hload

/-- What the first piece finds out of the agent is in its evidence. -/
theorem identify_found {c c' : CheckState δ} {ref : String} {digest : Option String}
    (h : identify o py input fromRegistry c = (.ok (.inr (ref, digest)), c')) (hc : NoDigest c) :
    c'.evidence.agentDigest = digest := by
  unfold identify at h
  obtain ⟨found, c₁, hreach, h⟩ := Prog.bind_eq_ok h
  have hnone : NoDigest c₁ := (keeps_noDigest_reachImage input fromRegistry).run hc hreach
  cases found with
  | inl verdict => cases h
  | inr name =>
    obtain ⟨agentDigest, c₂, hinspect, h⟩ := Prog.bind_eq_ok h
    cases h
    obtain ⟨-, hdigest, -⟩ := inspectStage_ok hinspect
    rw [hdigest, show c₁.evidence.agentDigest = none from hnone, Option.or_none]

/-- The first piece is settled by a row of the file, and in no other way. -/
theorem identify_settled {c c' : CheckState δ}
    (h : identify o py input fromRegistry c = (.ok (.inl verdict), c')) (hc : NoDigest c) :
    ∃ sha256 evidence, evidence.agentDigest = none ∧
      settledByFile input sha256 { c with evidence := evidence } = some verdict := by
  unfold identify at h
  obtain ⟨found, c₁, hreach, h⟩ := Prog.bind_eq_ok h
  cases found with
  | inr name =>
    obtain ⟨agentDigest, c₂, -, h⟩ := Prog.bind_eq_ok h
    cases h
  | inl settled =>
    cases h
    unfold reachImage at hreach
    split at hreach
    · obtain ⟨_, c₂, -, hreach⟩ := Prog.bind_eq_ok hreach
      obtain ⟨pulled, c₃, -, hreach⟩ := Prog.bind_eq_ok hreach
      obtain ⟨_, c₄, -, hreach⟩ := Prog.bind_eq_ok hreach
      obtain ⟨_, c₅, -, hreach⟩ := Prog.bind_eq_ok hreach
      cases hreach
    · unfold loadFile at hreach
      obtain ⟨info, c₂, hfile, hrest⟩ := Prog.bind_eq_ok hreach
      clear hreach
      obtain rfl := orFail_ok hfile
      obtain ⟨_, c₃, hadd, hreach⟩ := Prog.bind_eq_ok hrest
      cases hadd
      obtain ⟨c₄, c₅, hget, hreach⟩ := Prog.bind_eq_ok hreach
      cases hget
      let found : Evidence := { fileSha256 := some info.sha256, fileSize := some info.size }
      have hnone : (c₂.evidence.add found).agentDigest = none := keeps_noDigest_add rfl c₂ hc
      refine ⟨info.sha256, c₂.evidence.add found, hnone, ?_⟩
      dsimp only at hreach
      rcases hsettled : settledByFile input info.sha256
        { c₂ with evidence := c₂.evidence.add found } with _ | settled
      · rw [hsettled] at hreach
        obtain ⟨_, c₆, -, hreach⟩ := Prog.bind_eq_ok hreach
        obtain ⟨_, c₇, -, hreach⟩ := Prog.bind_eq_ok hreach
        obtain ⟨_, c₈, -, hreach⟩ := Prog.bind_eq_ok hreach
        obtain ⟨_, c₉, -, hreach⟩ := Prog.bind_eq_ok hreach
        obtain ⟨_, c₁₀, -, hreach⟩ := Prog.bind_eq_ok hreach
        obtain ⟨_, c₁₁, -, hreach⟩ := Prog.bind_eq_ok hreach
        cases hreach
      · rw [hsettled] at hreach
        cases hreach
        rfl

/-- A call that is ruled by its file is rejected, or replays a row of its own miner's. -/
theorem identifyStep_ruled (h : identifyStep o py input fromRegistry db d = .ruled verdict) :
    verdict.minerId = input.submission.minerId ∧ (verdict.status = .rejected ∨
      ∃ row ∈ db.submissions, row.verdict.minerId = input.submission.minerId ∧
        verdict.fromCache = true ∧ verdict.status = row.verdict.status ∧
        verdict.agentDigest = row.verdict.agentDigest) := by
  unfold identifyStep at h
  rcases hfound : identify o py input fromRegistry (checkStart fromRegistry { outside := d, db := db })
    with ⟨e | settled | ⟨ref, digest⟩, c₁⟩ <;> rw [hfound] at h
  · rcases afterStages_ruled h with hran | ⟨_, _, _, _, rfl⟩
    · cases hran
    · exact ⟨rfl, .inl rfl⟩
  · rcases afterStages_ruled h with hran | ⟨_, _, _, _, rfl⟩
    · cases hran
      obtain ⟨sha256, evidence, hnone, hsettled⟩ := identify_settled hfound rfl
      rw [settledByFile_eq] at hsettled
      obtain ⟨row, hrow, hsettled⟩ := Option.bind_eq_some_iff.mp hsettled
      split at hsettled
      · rename_i hminer
        cases hsettled
        refine ⟨rfl, .inr ⟨row, ?_, hminer, rfl, rfl, ?_⟩⟩
        · exact (fileRow_some hrow).2.1
        · show evidence.agentDigest.or row.verdict.agentDigest = _
          rw [hnone, Option.none_or]
      · obtain ⟨-, hsettled⟩ := Option.ite_none_right_eq_some.mp hsettled
        cases hsettled
        exact ⟨rfl, .inl rfl⟩
    · exact ⟨rfl, .inl rfl⟩
  · cases h

/-- Where the first piece leaves a call. -/
theorem identifyStep_cases (o : Outside δ) (py : Interpreter) (input : CheckInput)
    (fromRegistry : Bool) (db : Db) (d : δ) :
    (∃ ref digest check, identifyStep o py input fromRegistry db d = .identified ref digest check ∧
      check.evidence.agentDigest = digest) ∨
    (∃ verdict, identifyStep o py input fromRegistry db d = .ruled verdict) ∨
      ∃ e, identifyStep o py input fromRegistry db d = .ended (.error e) := by
  unfold identifyStep
  rcases hfound : identify o py input fromRegistry (checkStart fromRegistry { outside := d, db := db })
    with ⟨e | settled | ⟨ref, digest⟩, c₁⟩
  · exact .inr (afterStages_cases o input _)
  · exact .inr (afterStages_cases o input _)
  · exact .inl ⟨ref, digest, c₁, rfl, identify_found hfound rfl⟩

/-- A call that is ruled after its agent was looked up: the agents are those of that time, the
    submissions those of now. -/
theorem ruleStep_ruled {ref : String} {digest : Option String} {agents : List AgentRow}
    {check : CheckState δ} (hdigest : check.evidence.agentDigest = digest)
    (h : ruleStep o py input ref digest agents check db d = .ruled verdict) :
    Ruling input (lookupsIn { submissions := db.submissions, agents := agents } input none digest)
      verdict := by
  unfold ruleStep at h
  rcases hruled : ruleOn o py input ref digest { check with
    world := { check.world with
      outside := d
      db := { submissions := db.submissions, agents := agents } } } with ⟨result, c₁⟩
  rw [hruled] at h
  rcases afterStages_ruled h with hran | ⟨_, _, _, _, rfl⟩
  · cases hran
    refine ruling_ruleOn none digest (by exact hdigest) ?_ hruled
    intro row hrow
    simp [lookupsIn, fileRow] at hrow
  · exact .failed

end TaoSubnet
