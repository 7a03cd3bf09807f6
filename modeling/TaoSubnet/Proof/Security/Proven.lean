import TaoSubnet.Proof.Security.Dedupe

/-!
# What an acceptance proves

Some calls accept an agent that was never run: they skip the dry run. The others may replay such an
acceptance, by the hash of the file or by the digest of the agent, as one that is "already proven".
So an acceptance they return is backed by a dry run on record, unless all there is on record of the
agent are acceptances that skipped it.
-/

namespace TaoSubnet

open Py Machine

variable {δ : Type} {o : Outside δ} {py : Interpreter}

/-! ## The records of an agent -/

/-- The agent has a name of its own, its digest. -/
def Identified (verdict : Verdict) : Prop :=
  ∃ digest, verdict.agentDigest = some digest ∧ digest ≠ ""

/-- The row is about the agent of the verdict; an agent that has no name is known by its file. -/
def AboutAgentOf (verdict : Verdict) (row : SubmissionRow) : Prop :=
  row.verdict.agentDigest = verdict.agentDigest ∧
    (¬ Identified verdict → row.verdict.fileSha256 = verdict.fileSha256)

/-- A submission of the agent was dry-run, to exit code 0. -/
def DryRunOnRecord (db : Db) (verdict : Verdict) : Prop :=
  ∃ row ∈ db.submissions, row.verdict.fromCache = false ∧ row.verdict.dryRunExitCode = some 0 ∧
    AboutAgentOf verdict row

/-- The agent was accepted before, and never dry-run. Without a name it has to be found by its file
    to be known. -/
def OnlySkipped (py : Interpreter) (call : CheckInput × Bool) (db : Db) (verdict : Verdict) : Prop :=
  ¬ DryRunOnRecord db verdict ∧ ∃ row ∈ db.submissions, row.verdict.fromCache = false ∧
    row.verdict.status = .accepted ∧ AboutAgentOf verdict row ∧
    (¬ Identified verdict → fileRow call.1 (lookedUpHash py call.1 call.2) db = some row)

/-- A log whose agents are all registered. -/
structure Registered (db : Db) : Prop where
  consistent : Consistent db
  named : ∀ row ∈ db.submissions, row.verdict.fromCache = false → row.verdict.status = .accepted →
    ∀ digest, row.verdict.agentDigest = some digest → digest ≠ "" →
      ∃ known, db.findAgent digest = some known

theorem Registered.recordAndRegister {db : Db} (h : Registered db) (verdict : Verdict) :
    Registered (recordAndRegister true verdict db).2 where
  consistent := h.consistent.recordAndRegister true verdict
  named := by
    intro row hrow hfresh haccepted digest hdigest hne
    rw [recordAndRegister_submissions] at hrow
    unfold TaoSubnet.recordAndRegister
    dsimp only
    rcases List.mem_append.mp hrow with hold | hnew
    · obtain ⟨known, hknown⟩ := h.named row hold hfresh haccepted digest hdigest hne
      refine ⟨known, ?_⟩
      split
      · exact findAgent_mono verdict _ hknown
      · exact hknown
    · rw [List.mem_singleton.mp hnew] at hfresh haccepted hdigest
      rw [hfresh]
      exact findAgent_registered _ hdigest hne haccepted

theorem registered_step {call : CheckInput × Bool} {w w' : World δ}
    (hstep : callStep o py w call = some w') (h : Registered w.db) : Registered w'.db := by
  unfold callStep at hstep
  split at hstep
  · rename_i hdedupe
    cases hstep
    rcases hrun : checkAndRecord o py call.1 call.2 w with ⟨e | ⟨id, verdict⟩, w'⟩
    · rw [checkAndRecord_error hrun]
      exact h
    · obtain ⟨-, hdb⟩ := checkAndRecord_ok hrun
      have hnext := h.recordAndRegister verdict
      rw [hdedupe] at hdb
      rw [hdb] at hnext
      exact hnext
  · cases hstep

/-! ## One call -/

variable {call : CheckInput × Bool} {db db' : Db} {verdict : Verdict} {id : Nat}

/-- A replay proves what the row it was replayed from does. -/
theorem proven_of_replay {row : SubmissionRow} (hcached : verdict.fromCache = true)
    (hrows : db'.submissions = db.submissions ++ [⟨id, verdict⟩]) (hrow : row ∈ db.submissions)
    (hfresh : row.verdict.fromCache = false) (haccepted : row.verdict.status = .accepted)
    (habout : AboutAgentOf verdict row)
    (hfile : ¬ Identified verdict → fileRow call.1 (lookedUpHash py call.1 call.2) db = some row) :
    DryRunOnRecord db' verdict ↔ ¬ OnlySkipped py call db verdict := by
  constructor
  · rintro ⟨proof, hmem, hproof, hzero, hsame⟩ ⟨hnone, -⟩
    rw [hrows] at hmem
    rcases List.mem_append.mp hmem with hold | hnew
    · exact hnone ⟨proof, hold, hproof, hzero, hsame⟩
    · rw [List.mem_singleton.mp hnew, hcached] at hproof
      cases hproof
  · intro hnot
    by_contra hnone
    refine hnot ⟨fun hold => hnone ?_, row, hrow, hfresh, haccepted, habout, hfile⟩
    obtain ⟨proof, hmem, hproof⟩ := hold
    exact ⟨proof, by rw [hrows]; exact List.mem_append_left _ hmem, hproof⟩

/-- A call that accepts without skipping the dry run, on a database that is in order. -/
theorem proven_step {w w' : World δ} (hdedupe : call.1.dedupe = true) (h : Registered w.db)
    (hskip : call.1.skipDryRun = false)
    (hrun : checkAndRecord o py call.1 call.2 w = (.ok (id, verdict), w'))
    (haccepted : verdict.status = .accepted) :
    DryRunOnRecord w'.db verdict ↔ ¬ OnlySkipped py call w.db verdict := by
  obtain ⟨⟨digest, hruling⟩, hdb⟩ := checkAndRecord_ok hrun
  have hrows := recordAndRegister_submissions call.1.dedupe verdict w.db
  rw [hdb] at hrows
  -- A file is recorded under the hash it was looked up by.
  have hhash : call.2 = false → verdict.fileSha256 = lookedUpHash py call.1 call.2 := by
    intro hfile
    rw [hfile, checkAndRecord_eq] at hrun
    obtain ⟨found, w₁, hcheck, hrecord⟩ := Prog.bind_eq_ok hrun
    cases hrecord
    obtain ⟨sha256, hsubmitted, hsame⟩ := hash_of_accepted hcheck haccepted
    rw [hfile, hsame, lookedUpHash, ← hsubmitted]
    rfl
  cases hruling with
  | failed => cases haccepted
  | copiedFile => cases haccepted
  | copiedAgent => cases haccepted
  | @replayedFile row evidence hrow hminer hnone =>
    obtain ⟨hsame, hmem, hfresh⟩ := fileRow_some hrow
    refine proven_of_replay rfl hrows hmem hfresh haccepted ⟨?_, fun _ => ?_⟩ fun _ => hrow
    · show row.verdict.agentDigest = evidence.agentDigest.or row.verdict.agentDigest
      rw [hnone, Option.none_or]
    · cases hentry : call.2 with
      | true =>
        unfold lookedUpHash at hsame
        rw [hentry] at hsame
        have hno : fileRow call.1 (lookedUpHash py call.1 call.2) w.db = none := by
          rw [lookedUpHash, hentry, fileRow]
          simp
        exact absurd (hno.symm.trans hrow) (by simp)
      | false =>
        rw [hhash hentry]
        exact hsame.symm
  | @replayedAgent known previous evidence hfile hknown howner hprevious hsame =>
    obtain ⟨name, rfl, hne, hfound⟩ := agentRow_some hknown
    obtain ⟨row, hrow, hfresh, hfirst, hdigest, -⟩ := h.consistent.firsts name known hfound
    have hagent : agentRow call.1 (some name) w.db = some known := hknown
    have hlookup : previousRow (agentRow call.1 (some name) w.db) w.db = some previous := hprevious
    rw [hagent, previousRow, Option.bind_some, hrow] at hlookup
    cases hlookup
    have hname : (cachedVerdict previous call.1.submission evidence).agentDigest = some name := by
      show evidence.agentDigest.or previous.verdict.agentDigest = some name
      rw [hsame]
      rfl
    have hidentified : Identified (cachedVerdict previous call.1.submission evidence) :=
      ⟨name, hname, hne⟩
    exact proven_of_replay rfl hrows (List.mem_of_find?_eq_some hrow) hfresh hfirst
      ⟨hdigest.trans hname.symm, fun hnot => absurd hidentified hnot⟩
      fun hnot => absurd hidentified hnot
  | @accepted stage evidence hfile hunknown hsame hskipped hran =>
    obtain ⟨-, hzero⟩ := hran hskip
    refine iff_of_true ?_ ?_
    · refine ⟨_, by rw [hrows]; exact List.mem_append_right _ (List.mem_singleton_self _), rfl, hzero,
        rfl, fun _ => rfl⟩
    · rintro ⟨-, row, hmem, hfresh, hfirst, ⟨hdigest, -⟩, hfound⟩
      by_cases hidentified : Identified (accept call.1.submission stage evidence)
      · -- An agent with a name that was accepted before is registered, and would be replayed.
        obtain ⟨name, hname, hne⟩ := hidentified
        obtain ⟨known, hknown⟩ := h.named row hmem hfresh hfirst name (hdigest.trans hname) hne
        have hagent : (lookupsIn w.db call.1 (lookedUpHash py call.1 call.2) digest).agent =
            some known := by
          have hdigest' : digest = some name := hsame.symm.trans hname
          rw [lookupsIn, hdigest', agentRow_find w.db hdedupe hne]
          exact hknown
        obtain ⟨-, hprevious⟩ := hunknown known hagent
        obtain ⟨previous, hfound', -⟩ := h.consistent.firsts name known hknown
        have hlookup : previousRow (some known) w.db = none := by
          rw [← hagent]
          exact hprevious
        rw [previousRow, Option.bind_some, hfound'] at hlookup
        cases hlookup
      · exact (hfile row (hfound hidentified)).2 hfirst

/-! ## Whole histories -/

/-- **What an acceptance proves**: in every history, a call that does not skip the dry run returns an
    acceptance with a dry run of the agent on record exactly if the agent was not on record with
    nothing but acceptances that skipped it. -/
theorem accepted_is_proven_iff (o : Outside δ) (py : Interpreter) (d : δ)
    (actions : List (CheckInput × Bool)) :
    ∀ t ∈ transitions (callStep o py) { outside := d } actions, t.action.1.skipDryRun = false →
      ∀ id verdict,
        (checkAndRecord o py t.action.1 t.action.2 t.before).1 = .ok (id, verdict) →
        verdict.status = .accepted →
        (DryRunOnRecord t.after.db verdict ↔ ¬ OnlySkipped py t.action t.before.db verdict) := by
  intro t ht hskip id verdict hran haccepted
  have hstart : Registered ({ outside := d } : World δ).db :=
    ⟨.empty, fun row hrow => by cases hrow⟩
  have hregistered : Registered t.before.db :=
    invariant (I := fun w : World δ => Registered w.db) (G := fun _ => True)
      (fun t hstep h _ => registered_step hstep h) hstart (fun _ _ => trivial) t ht
  have hstep := step_of_mem t ht
  unfold callStep at hstep
  split at hstep
  · rename_i hdedupe
    have hafter := Option.some.inj hstep
    exact proven_step hdedupe hregistered hskip (Prod.ext hran hafter) haccepted
  · cases hstep

/-! ## The neuron first, then the API -/

/-- `plainOutside`, with a container that exits with code 0. -/
def runningOutside : Outside BoundTags where
  docker s args :=
    if args.headD "" = "create" then (.ok ⟨0, "c0ffeec0ffee\n", ""⟩, s)
    else if args.headD "" = "wait" then (.ok ⟨0, "0\n", ""⟩, s)
    else plainOutside.docker s args
  http := plainOutside.http

/-- The same file twice from the same miner; the first call skips the dry run if `skip` says so. -/
def twice (skip : Bool) : List (CheckInput × Bool) :=
  [({ plainFile "5A" with skipDryRun := skip }, false),
    ({ plainFile "5A" with skipDryRun := false }, false)]

/-- A call that does not skip the dry run replays an acceptance; the exit codes then on record. -/
def replayedCodes (o : Outside δ) (py : Interpreter) (t : Transition (World δ) (CheckInput × Bool)) :
    List (Option Int) :=
  match (checkAndRecord o py t.action.1 t.action.2 t.before).1 with
  | .ok (_, verdict) =>
    if t.action.1.skipDryRun = false ∧ verdict.status = .accepted ∧ verdict.fromCache = true then
      t.after.db.submissions.map fun row => row.verdict.dryRunExitCode
    else []
  | .error _ => []

theorem replayedCodes_ne {t : Transition (World δ) (CheckInput × Bool)} {codes : List (Option Int)}
    (h : replayedCodes o py t = codes) (hne : codes ≠ []) : t.action.1.skipDryRun = false ∧
      ∃ id verdict, (checkAndRecord o py t.action.1 t.action.2 t.before).1 = .ok (id, verdict) ∧
        verdict.status = .accepted ∧
        t.after.db.submissions.map (fun row => row.verdict.dryRunExitCode) = codes := by
  subst h
  unfold replayedCodes at hne ⊢
  split at hne
  · rename_i id verdict hran
    split at hne
    · rename_i hcall
      exact ⟨hcall.1, id, verdict, hran, hcall.2.1, (if_pos hcall).symm⟩
    · exact absurd rfl hne
  · exact absurd rfl hne

theorem accepted_is_proven_iff_twice :
    ∃ t ∈ transitions (callStep runningOutside plainInterpreter) { outside := [] } (twice false),
      ∃ id verdict, (checkAndRecord runningOutside plainInterpreter t.action.1 t.action.2 t.before).1 =
          .ok (id, verdict) ∧ verdict.status = .accepted ∧
        (DryRunOnRecord t.after.db verdict ↔
          ¬ OnlySkipped plainInterpreter t.action t.before.db verdict) := by
  have hreplayed : (transitions (callStep runningOutside plainInterpreter) { outside := [] }
      (twice false)).any (fun t => replayedCodes runningOutside plainInterpreter t ==
        [some 0, some 0]) = true := by decide +kernel
  obtain ⟨t, hmem, ht⟩ := List.any_eq_true.mp hreplayed
  rw [beq_iff_eq] at ht
  obtain ⟨hskip, id, verdict, hran, haccepted, -⟩ := replayedCodes_ne ht (by simp)
  exact ⟨t, hmem, id, verdict, hran, haccepted,
    accepted_is_proven_iff _ _ _ _ t hmem hskip id verdict hran haccepted⟩

/-- The API replays what the neuron accepted without running it. -/
theorem skipped_run_replayed :
    ¬ ∀ (o : Outside BoundTags) (py : Interpreter) (d : BoundTags)
      (actions : List (CheckInput × Bool)),
      ∀ t ∈ transitions (callStep o py) { outside := d } actions, t.action.1.skipDryRun = false →
        ∀ id verdict,
          (checkAndRecord o py t.action.1 t.action.2 t.before).1 = .ok (id, verdict) →
          verdict.status = .accepted → DryRunOnRecord t.after.db verdict := by
  intro h
  have hreplayed : (transitions (callStep runningOutside plainInterpreter) { outside := [] }
      (twice true)).any (fun t => replayedCodes runningOutside plainInterpreter t ==
        [none, none]) = true := by decide +kernel
  obtain ⟨t, hmem, ht⟩ := List.any_eq_true.mp hreplayed
  rw [beq_iff_eq] at ht
  obtain ⟨hskip, id, verdict, hran, haccepted, hcodes⟩ := replayedCodes_ne ht (by simp)
  obtain ⟨row, hrow, -, hzero, -⟩ := h _ _ _ _ t hmem hskip id verdict hran haccepted
  have hcode : some 0 ∈ [none, (none : Option Int)] := by
    rw [← hcodes, ← hzero]
    exact List.mem_map_of_mem hrow
  simp at hcode

end TaoSubnet
