import TaoSubnet.Proof.Security.Rulings

/-!
# What a submission leaves in the database

One row at most, and one agent at most, both of the miner it was evaluated for.
-/

namespace TaoSubnet

open Py

variable {δ : Type} {o : Outside δ} {py : Interpreter}

/-! ## The tables -/

theorem registerAgent_submissions (db : Db) (verdict : Verdict) (id : Nat) :
    (db.registerAgent verdict id).submissions = db.submissions := by
  unfold Db.registerAgent
  cases verdict.agentDigest with
  | none => rfl
  | some digest =>
    dsimp only
    split
    · rfl
    · rfl

/-- The table grows by the new agent, or not at all. -/
theorem registerAgent_agents (db : Db) (verdict : Verdict) (id : Nat) :
    (db.registerAgent verdict id).agents = db.agents ∨
      ∃ agent, (db.registerAgent verdict id).agents = db.agents ++ [agent] ∧
        verdict.agentDigest = some agent.agentDigest ∧ verdict.status = .accepted ∧
        db.findAgent agent.agentDigest = none ∧ agent.ownerMinerId = verdict.minerId ∧
        agent.firstSubmission = id := by
  unfold Db.registerAgent
  cases hdigest : verdict.agentDigest with
  | none => exact .inl rfl
  | some digest =>
    dsimp only
    split
    · exact .inl rfl
    · rename_i hnew
      simp only [not_or, not_not, Bool.not_eq_true, Option.isSome_eq_false_iff,
        Option.isNone_iff_eq_none] at hnew
      exact .inr ⟨_, rfl, rfl, hnew.2.1, hnew.2.2, rfl, rfl⟩

theorem recordAndRegister_submissions (dedupe : Bool) (verdict : Verdict) (db : Db) :
    (recordAndRegister dedupe verdict db).2.submissions =
      db.submissions ++ [⟨(recordAndRegister dedupe verdict db).1, verdict⟩] := by
  unfold recordAndRegister Db.recordVerdict
  dsimp only
  split
  · rw [registerAgent_submissions]
  · rfl

/-! ## What the tables say of each other -/

/-- An agent that is found was there before, or is the one that is registered. -/
theorem findAgent_registerAgent {db : Db} {verdict : Verdict} {id : Nat} {digest : String}
    {known : AgentRow} (h : (db.registerAgent verdict id).findAgent digest = some known) :
    db.findAgent digest = some known ∨ (verdict.agentDigest = some digest ∧
      verdict.status = .accepted ∧ known.ownerMinerId = verdict.minerId ∧
      known.firstSubmission = id) := by
  rcases registerAgent_agents db verdict id with
    hsame | ⟨agent, hagents, hdigest, haccepted, -, howner, hfirst⟩
  · rw [Db.findAgent, hsame] at h
    exact .inl h
  · rw [Db.findAgent, hagents, List.find?_append] at h
    rcases Option.or_eq_some_iff.mp h with hold | ⟨-, hnew⟩
    · exact .inl hold
    · have hmem := List.mem_singleton.mp (List.mem_of_find?_eq_some hnew)
      have hfound := List.find?_some hnew
      subst hmem
      rw [beq_iff_eq] at hfound
      rw [hfound] at hdigest
      exact .inr ⟨hdigest, haccepted, howner, hfirst⟩

theorem findAgent_prefix {db before : Db} {digest : String} {known : AgentRow}
    (hagents : before.agents <+: db.agents) (h : before.findAgent digest = some known) :
    db.findAgent digest = some known := by
  obtain ⟨rest, hsame⟩ := hagents
  rw [Db.findAgent, ← hsame, List.find?_append]
  exact Option.or_eq_some_iff.mpr (.inl h)

theorem agents_prefix_registerAgent (db : Db) (verdict : Verdict) (id : Nat) :
    db.agents <+: (db.registerAgent verdict id).agents := by
  rcases registerAgent_agents db verdict id with hsame | ⟨agent, hagents, -⟩
  · exact ⟨[], by rw [hsame, List.append_nil]⟩
  · exact ⟨[agent], hagents.symm⟩

/-- Who is registered stays registered. -/
theorem findAgent_mono {db : Db} {digest : String} {known : AgentRow} (verdict : Verdict) (id : Nat)
    (h : db.findAgent digest = some known) :
    (db.registerAgent verdict id).findAgent digest = some known :=
  findAgent_prefix (agents_prefix_registerAgent db verdict id) h

theorem findAgent_registered {db : Db} {verdict : Verdict} {digest : String} (id : Nat)
    (hdigest : verdict.agentDigest = some digest) (hne : digest ≠ "")
    (haccepted : verdict.status = .accepted) :
    ∃ known, (db.registerAgent verdict id).findAgent digest = some known := by
  cases hfound : db.findAgent digest with
  | some known => exact ⟨known, findAgent_mono verdict id hfound⟩
  | none =>
    unfold Db.registerAgent
    rw [hdigest]
    dsimp only
    rw [if_neg (by simp [hne, haccepted, hfound]), Db.findAgent, List.find?_append]
    unfold Db.findAgent at hfound
    rw [hfound, Option.none_or, List.find?_cons_of_pos (by simp)]
    exact ⟨_, rfl⟩

theorem findSubmission_mono {db : Db} {id : Nat} {row : SubmissionRow} (verdict : Verdict)
    (h : db.findSubmission id = some row) :
    (db.recordVerdict verdict).2.findSubmission id = some row := by
  show (db.submissions ++ _).find? _ = _
  rw [List.find?_append]
  exact Option.or_eq_some_iff.mpr (.inl h)

/-- Ids count up, and the submission an agent was first accepted by is on record. -/
structure Consistent (db : Db) : Prop where
  numbered : ∀ row ∈ db.submissions, row.id ≤ db.submissions.length
  firsts : ∀ digest known, db.findAgent digest = some known →
    ∃ row, db.findSubmission known.firstSubmission = some row ∧ row.verdict.fromCache = false ∧
      row.verdict.status = .accepted ∧ row.verdict.agentDigest = some digest ∧
      row.verdict.minerId = known.ownerMinerId

theorem Consistent.empty : Consistent {} where
  numbered row hrow := by cases hrow
  firsts digest known h := by cases h

/-- The row that is written is found by its id. -/
theorem Consistent.findSubmission_new {db : Db} (h : Consistent db) (verdict : Verdict) :
    (db.recordVerdict verdict).2.findSubmission (db.recordVerdict verdict).1 =
      some ⟨(db.recordVerdict verdict).1, verdict⟩ := by
  show (db.submissions ++ [_]).find? _ = _
  rw [List.find?_append]
  have hnone : db.submissions.find? (fun row => row.id == db.submissions.length + 1) = none := by
    rw [List.find?_eq_none]
    intro row hrow
    have := h.numbered row hrow
    rw [beq_iff_eq]
    omega
  rw [show (db.recordVerdict verdict).1 = db.submissions.length + 1 from rfl, hnone,
    Option.none_or, List.find?_cons_of_pos (by simp)]

theorem Consistent.recordVerdict {db : Db} (h : Consistent db) (verdict : Verdict) :
    Consistent (db.recordVerdict verdict).2 where
  numbered row hrow := by
    have hlength : (db.recordVerdict verdict).2.submissions.length = db.submissions.length + 1 := by
      show (db.submissions ++ [_]).length = _
      rw [List.length_append, List.length_singleton]
    rw [hlength]
    rcases List.mem_append.mp hrow with hold | hnew
    · exact Nat.le_succ_of_le (h.numbered row hold)
    · rw [List.mem_singleton.mp hnew]
  firsts digest known hknown := by
    obtain ⟨row, hrow, hrest⟩ := h.firsts digest known hknown
    exact ⟨row, findSubmission_mono verdict hrow, hrest⟩

/-- An accepted submission that is on record may be registered. -/
theorem Consistent.registerAgent {db : Db} (h : Consistent db) {verdict : Verdict} {id : Nat}
    (hrow : db.findSubmission id = some ⟨id, verdict⟩) (hfresh : verdict.fromCache = false) :
    Consistent (db.registerAgent verdict id) where
  numbered row hmem := by
    rw [registerAgent_submissions] at hmem ⊢
    exact h.numbered row hmem
  firsts digest known hknown := by
    rw [Db.findSubmission, registerAgent_submissions]
    rcases findAgent_registerAgent hknown with hold | ⟨hdigest, haccepted, howner, hfirst⟩
    · exact h.firsts digest known hold
    · rw [hfirst]
      exact ⟨_, hrow, hfresh, haccepted, hdigest, howner.symm⟩

theorem Consistent.recordAndRegister {db : Db} (h : Consistent db) (dedupe : Bool)
    (verdict : Verdict) : Consistent (recordAndRegister dedupe verdict db).2 := by
  unfold TaoSubnet.recordAndRegister
  dsimp only
  split
  · rename_i hfresh
    rw [Bool.and_eq_true, Bool.not_eq_true'] at hfresh
    exact (h.recordVerdict verdict).registerAgent (h.findSubmission_new verdict) hfresh.2
  · exact h.recordVerdict verdict

/-! ## One submission -/

/-- What was added to the database is of `miner`. -/
structure Recorded (miner : String) (db db' : Db) : Prop where
  submissions : ∃ rows, db'.submissions = db.submissions ++ rows ∧
    ∀ row ∈ rows, row.verdict.minerId = miner
  agents : ∃ agents, db'.agents = db.agents ++ agents ∧ ∀ agent ∈ agents, agent.ownerMinerId = miner

theorem Recorded.refl (miner : String) (db : Db) : Recorded miner db db :=
  ⟨⟨[], (List.append_nil _).symm, by simp⟩, ⟨[], (List.append_nil _).symm, by simp⟩⟩

theorem recorded_recordAndRegister (dedupe : Bool) (verdict : Verdict) (db : Db) :
    Recorded verdict.minerId db (recordAndRegister dedupe verdict db).2 := by
  refine ⟨⟨_, recordAndRegister_submissions dedupe verdict db, ?_⟩, ?_⟩
  · intro row hrow
    rw [List.mem_singleton.mp hrow]
  · unfold recordAndRegister Db.recordVerdict
    dsimp only
    split
    · rcases registerAgent_agents _ verdict _ with hsame | ⟨agent, hagents, -, -, -, howner, -⟩
      · exact ⟨[], by rw [hsame, List.append_nil], by simp⟩
      · refine ⟨[agent], hagents, ?_⟩
        intro other hother
        rw [List.mem_singleton.mp hother, howner]
    · exact ⟨[], (List.append_nil _).symm, by simp⟩

theorem recorded_checkAndRecord (input : CheckInput) (fromRegistry : Bool) (w : World δ) :
    Recorded input.submission.minerId w.db (checkAndRecord o py input fromRegistry w).2.db := by
  rcases h : checkAndRecord o py input fromRegistry w with ⟨e | ⟨id, verdict⟩, w'⟩
  · rw [checkAndRecord_error h]
    exact .refl _ _
  · obtain ⟨⟨digest, hruling⟩, hdb⟩ := checkAndRecord_ok h
    rw [← hruling.minerId]
    have hrecorded := recorded_recordAndRegister input.dedupe verdict w.db
    rw [hdb] at hrecorded
    exact hrecorded

/-- A run leaves the database alone. -/
theorem survivesRun_db (o : Outside δ) (db : Db) : SurvivesRun o fun w => w.db = db where
  docker _ _ _ hw := hw
  http _ _ hw := hw
  rmtree _ _ hw := hw

theorem db_runJobHere (input : JobInput) (agentImage : String) (db : Db) :
    Prog.Keeps (fun w : World δ => w.db = db) (runJobHere o py input agentImage) :=
  .mapError _ ((survivesRun_db o db).runJob _ _ _)

/-- A program after an intake that leaves the database alone. -/
theorem recorded_after {α : Type} (input : CheckInput) (fromRegistry : Bool)
    {rest : Nat × Verdict → Prog (World δ) Halt α}
    (hrest : ∀ recorded db, Prog.Keeps (fun w : World δ => w.db = db) (rest recorded)) (w : World δ) :
    Recorded input.submission.minerId w.db
      ((checkAndRecord o py input fromRegistry >>= rest) w).2.db := by
  have hrecorded : Recorded _ _ (checkAndRecord o py input fromRegistry w).2.db :=
    recorded_checkAndRecord input fromRegistry w
  rcases h : checkAndRecord o py input fromRegistry w with ⟨e | recorded, w'⟩
  · rw [h] at hrecorded
    rw [Prog.bind_error h]
    exact hrecorded
  · rw [h] at hrecorded
    rw [Prog.bind_ok h, hrest recorded w'.db w' rfl]
    exact hrecorded

theorem recorded_evaluate (input : RefInput) (w : World δ) :
    Recorded input.minerId w.db (evaluate o py input w).2.db := by
  unfold evaluate
  refine recorded_after input.check true (fun recorded db => ?_) w
  exact .ite (.ret _) (.bind (db_runJobHere _ _ _) fun _ => .ret _)

theorem recorded_evaluateBlob (input : BlobInput) (w : World δ) :
    Recorded input.minerId w.db (evaluateBlob o py input w).2.db := by
  unfold evaluateBlob
  cases input.tar py with
  | error outcome => exact .refl _ _
  | ok tar =>
    refine recorded_after (input.check tar) false (fun recorded db => ?_) w
    refine .ite (.ret _) ?_
    unfold runLoaded
    refine .bind (keeps_loadImage fun _ hw => hw) fun imageRef => .tryFinally ?_ ?_
    · exact .bind (db_runJobHere _ _ _) fun _ => .ret _
    · exact .bind (keeps_removeImage fun _ hw => hw) fun _ => .ret _

end TaoSubnet
