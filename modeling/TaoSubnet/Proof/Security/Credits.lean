import TaoSubnet.Lib.Runs
import TaoSubnet.Proof.Security.Records
import TaoSubnet.Proof.Security.Target
import TaoSubnet.Security.Round

/-!
# Whom a response is credited to

A response is asked of an axon, and credited to a hotkey: in the matrix, in the database, and in the
record that is published. The hotkey is read when the response is taken up, after the ask was
awaited, and maybe other evaluations. So it is the hotkey of the axon that answered in every run in
which the metagraph, whenever a response is taken up, still has that hotkey at its uid.
-/

namespace TaoSubnet

open Py Machine

variable {δ : Type} {o : Outside δ} {py : Interpreter} {cfg : SecuritySettings}

/-! ## Credits -/

def RoundState.pending : RoundState → List AgentPayload
  | .looping locals _ => locals.pendingPushes
  | .evaluating locals _ _ _ => locals.pendingPushes
  | .publishing locals => locals.pendingPushes
  | _ => []

/-- The records that were sent, and those that wait to be. -/
def SecurityValidator.records (v : SecurityValidator δ) : List AgentPayload :=
  v.published ++ v.round.pending

/-- Between `v` and `v'` nobody is credited with anything but the hotkeys of `who`. A pruned row
    credits nobody. -/
structure Credits (who : String → Prop) (v v' : SecurityValidator δ) : Prop where
  cells : ∀ hotkey, ¬ who hotkey →
    v'.catScores.cells.get? hotkey = v.catScores.cells.get? hotkey ∨
      v'.catScores.cells.get? hotkey = none
  submissions : ∃ rows, v'.world.db.submissions = v.world.db.submissions ++ rows ∧
    ∀ row ∈ rows, who row.verdict.minerId
  agents : ∃ agents, v'.world.db.agents = v.world.db.agents ++ agents ∧
    ∀ agent ∈ agents, who agent.ownerMinerId
  records : ∀ record ∈ v'.records, record ∈ v.records ∨ who record.minerHotkey

/-- The hotkey under which the response that is evaluated was taken up. -/
def TakenAs (v : SecurityValidator δ) (action : RoundAction) (hotkey : String) : Prop :=
  ∃ host locals answer rest, action = .evaluated host ∧
    v.round = .evaluating locals hotkey answer rest

/-- The hotkey of the axon that gave the response that is evaluated. -/
def Sender (v : SecurityValidator δ) (action : RoundAction) (hotkey : String) : Prop :=
  ∃ host locals taken answer rest, action = .evaluated host ∧
    v.round = .evaluating locals taken answer rest ∧ hotkey = answer.axon.hotkey

variable {who : String → Prop} {v v' : SecurityValidator δ}

/-- A step that touches neither the matrix nor the database, and publishes nothing new. -/
theorem credits_of_same (hcells : v'.catScores = v.catScores) (hdb : v'.world.db = v.world.db)
    (hrecords : ∀ record ∈ v'.records, record ∈ v.records) : Credits who v v' where
  cells hotkey _ := .inl (by rw [hcells])
  submissions := ⟨[], by rw [hdb, List.append_nil], by simp⟩
  agents := ⟨[], by rw [hdb, List.append_nil], by simp⟩
  records record hrecord := .inl (hrecords record hrecord)

theorem Credits.mono {who' : String → Prop} (h : Credits who v v')
    (hsub : ∀ hotkey, who hotkey → who' hotkey) : Credits who' v v' where
  cells hotkey hother := h.cells hotkey fun hwho => hother (hsub hotkey hwho)
  submissions := by
    obtain ⟨rows, hrows, hwho⟩ := h.submissions
    exact ⟨rows, hrows, fun row hrow => hsub _ (hwho row hrow)⟩
  agents := by
    obtain ⟨agents, hagents, hwho⟩ := h.agents
    exact ⟨agents, hagents, fun agent hagent => hsub _ (hwho agent hagent)⟩
  records record hrecord := (h.records record hrecord).imp_right (hsub _)

theorem Credits.trans {v'' : SecurityValidator δ} (h : Credits who v v')
    (h' : Credits who v' v'') : Credits who v v'' where
  cells hotkey hother := by
    rcases h'.cells hotkey hother with hsame | hnone
    · rw [hsame]
      exact h.cells hotkey hother
    · exact .inr hnone
  submissions := by
    obtain ⟨rows, hrows, hwho⟩ := h.submissions
    obtain ⟨rows', hrows', hwho'⟩ := h'.submissions
    refine ⟨rows ++ rows', by rw [hrows', hrows, List.append_assoc], ?_⟩
    intro row hrow
    rcases List.mem_append.mp hrow with hold | hnew
    · exact hwho row hold
    · exact hwho' row hnew
  agents := by
    obtain ⟨agents, hagents, hwho⟩ := h.agents
    obtain ⟨agents', hagents', hwho'⟩ := h'.agents
    refine ⟨agents ++ agents', by rw [hagents', hagents, List.append_assoc], ?_⟩
    intro agent hagent
    rcases List.mem_append.mp hagent with hold | hnew
    · exact hwho agent hold
    · exact hwho' agent hnew
  records record hrecord := by
    rcases h'.records record hrecord with hold | hnew
    · exact h.records record hold
    · exact .inr hnew

/-! ## The pieces that credit nobody -/

theorem credits_prune (validHotkeys : List String) :
    Credits who v { v with catScores := v.catScores.prune validHotkeys } where
  cells hotkey _ := by
    dsimp only
    rw [v.catScores.cells_prune validHotkeys hotkey]
    split
    · exact .inl rfl
    · exact .inr rfl
  submissions := ⟨[], (List.append_nil _).symm, by simp⟩
  agents := ⟨[], (List.append_nil _).symm, by simp⟩
  records _ hrecord := .inl hrecord

theorem credits_conclude (now : ℚ) : Credits who v (v.conclude cfg now) := by
  refine credits_of_same rfl rfl ?_
  intro record hrecord
  simp only [SecurityValidator.records, SecurityValidator.conclude, RoundState.pending,
    List.append_nil] at hrecord
  exact List.mem_append_left _ hrecord

theorem credits_beginRound (now : ℚ) (hidle : v.round = .idle) :
    Credits who v (v.beginRound cfg now) := by
  unfold SecurityValidator.beginRound
  split
  · exact credits_of_same rfl rfl fun _ h => h
  · dsimp only
    split
    · exact credits_of_same rfl rfl fun _ h => h
    · refine credits_of_same rfl rfl fun record hrecord => ?_
      simpa [SecurityValidator.records, RoundState.pending, hidle] using hrecord

theorem credits_takeAnswers {now : ℚ} {uids : List Nat} {axons : List Axon}
    {responses : Option (List SecurityAgentResponse)} (hasking : v.round = .asking now uids axons) :
    Credits who v (v.takeAnswers now uids axons responses) := by
  unfold SecurityValidator.takeAnswers
  cases responses with
  | none =>
    refine credits_of_same rfl rfl fun record hrecord => ?_
    simpa [SecurityValidator.records, RoundState.pending, hasking] using hrecord
  | some responses =>
    refine credits_of_same rfl rfl fun record hrecord => ?_
    simpa [SecurityValidator.records, RoundState.pending, hasking] using hrecord

/-- The end of the loop prunes rows, and sends what was waiting. -/
theorem credits_endLoop {locals : RoundLocals} {rest : List Answer}
    (hlooping : v.round = .looping locals rest) : Credits who v (v.endLoop cfg locals) := by
  have hend : ∀ u : SecurityValidator δ, u.round = .looping locals rest →
      Credits who u (if cfg.marketplace.isNone || locals.pendingPushes.isEmpty then
        u.conclude cfg locals.now
      else { u with
        published := u.published ++ locals.pendingPushes
        round := .publishing locals }) := by
    intro u hu
    split
    · exact credits_conclude locals.now
    · refine credits_of_same rfl rfl fun record hrecord => ?_
      simpa [SecurityValidator.records, RoundState.pending, hu] using hrecord
  unfold SecurityValidator.endLoop
  dsimp only
  by_cases hnothing : (locals.rewards.isEmpty && locals.skipped.isEmpty) = true
  · rw [if_pos hnothing]
    exact hend v hlooping
  · rw [if_neg hnothing]
    exact (credits_prune v.metagraph.hotkeys).trans (hend _ hlooping)

theorem credits_nextAnswer {locals : RoundLocals} {rest : List Answer} {elapsed : ℚ}
    (hlooping : v.round = .looping locals rest) :
    Credits who v (v.nextAnswer cfg locals rest elapsed) := by
  have hsame : ∀ round : RoundState, (∀ record ∈ round.pending, record ∈ locals.pendingPushes) →
      Credits who v { v with round := round } := by
    intro round hround
    refine credits_of_same rfl rfl fun record hrecord => ?_
    rcases List.mem_append.mp hrecord with hsent | hwaiting
    · exact List.mem_append_left _ hsent
    · rw [SecurityValidator.records, hlooping]
      exact List.mem_append_right _ (hround record hwaiting)
  unfold SecurityValidator.nextAnswer
  cases rest with
  | nil => exact credits_endLoop hlooping
  | cons answer rest =>
    dsimp only
    split
    · exact credits_endLoop hlooping
    split
    · exact hsame _ fun _ h => h
    split
    · exact hsame _ fun _ h => by cases h
    · split
      · exact hsame _ fun _ h => h
      · exact hsame _ fun _ h => h

theorem credits_resyncMetagraph (metagraph : Metagraph) :
    Credits who v (v.resyncMetagraph metagraph) := by
  unfold SecurityValidator.resyncMetagraph
  split
  · exact credits_of_same rfl rfl fun _ h => h
  · exact credits_of_same rfl rfl fun _ h => h

/-! ## The pieces that credit somebody -/

theorem recorded_evaluation (hotkey : String) (response : SecurityAgentResponse)
    (host : EvaluationHost) (w : World δ) :
    Recorded hotkey w.db
      (SecurityValidator.evaluation o py cfg hotkey response host w).2.db := by
  unfold SecurityValidator.evaluation
  split
  · exact recorded_evaluateBlob (SecurityValidator.blobInput cfg hotkey response host) w
  · exact recorded_evaluate (SecurityValidator.refInput hotkey response host) w

/-- A record that is queued is of the hotkey it is queued for. -/
theorem minerHotkey_queueMarketplacePush {uid : Nat} {hotkey : String} {outcome : EvalOutcome}
    {aggregate now : ℚ} {record : AgentPayload}
    (h : (v.queueMarketplacePush cfg uid hotkey outcome aggregate now).2 = some record) :
    record.minerHotkey = hotkey := by
  unfold SecurityValidator.queueMarketplacePush at h
  split at h
  · split at h
    · exact minerHotkey_buildAgentPayload h
    · cases h
  · cases h

/-- An outcome is folded into the row of `hotkey`, and its record is of `hotkey`. -/
theorem scoreOutcome_credits (cfg : SecuritySettings) (v : SecurityValidator δ)
    (locals : RoundLocals) (hotkey : String) (uid : Nat) (outcome : EvalOutcome)
    (reward updatedAt : ℚ) :
    let scored := v.scoreOutcome cfg locals hotkey uid outcome reward updatedAt
    (∀ other, other ≠ hotkey →
      scored.1.catScores.cells.get? other = v.catScores.cells.get? other) ∧
    scored.1.world = v.world ∧ scored.1.published = v.published ∧
    ∀ record ∈ scored.2.pendingPushes, record ∈ locals.pendingPushes ∨
      record.minerHotkey = hotkey := by
  unfold SecurityValidator.scoreOutcome
  dsimp only
  refine ⟨?_, ?_, ?_, ?_⟩
  · intro other hother
    cases outcome.category with
    | none => rfl
    | some category => simp [hother]
  · cases outcome.category <;> rfl
  · cases outcome.category <;> rfl
  · intro record hrecord
    rcases List.mem_append.mp hrecord with hold | hnew
    · exact .inl hold
    · exact .inr (minerHotkey_queueMarketplacePush (Option.mem_toList.mp hnew))

theorem credits_takeOutcome {locals : RoundLocals} {hotkey : String} {answer : Answer}
    {rest : List Answer} {host : EvaluationHost}
    (hevaluating : v.round = .evaluating locals hotkey answer rest) :
    Credits (· = hotkey) v (v.takeOutcome o py cfg locals hotkey answer rest host) := by
  have hrecorded : Recorded hotkey v.world.db
      (SecurityValidator.evaluation o py cfg hotkey answer.response host v.world).2.db :=
    recorded_evaluation hotkey answer.response host v.world
  have hrecords : ∀ u : SecurityValidator δ, u.published = v.published →
      (∀ record ∈ u.round.pending, record ∈ locals.pendingPushes ∨ record.minerHotkey = hotkey) →
      ∀ record ∈ u.records, record ∈ v.records ∨ record.minerHotkey = hotkey := by
    intro u hpublished hpending record hrecord
    rw [SecurityValidator.records, hevaluating]
    rcases List.mem_append.mp hrecord with hsent | hwaiting
    · exact .inl (List.mem_append_left _ (hpublished ▸ hsent))
    · exact (hpending record hwaiting).imp_left fun h => List.mem_append_right _ h
  unfold SecurityValidator.takeOutcome
  rcases hresult : SecurityValidator.evaluation o py cfg hotkey answer.response host v.world with
    ⟨e | outcome, w⟩ <;> rw [hresult] at hrecorded <;> dsimp only
  · exact ⟨fun _ _ => .inl rfl, hrecorded.submissions, hrecorded.agents,
      hrecords _ rfl fun _ h => .inl h⟩
  · cases outcome.reward with
    | none =>
      exact ⟨fun _ _ => .inl rfl, hrecorded.submissions, hrecorded.agents,
        hrecords _ rfl fun _ h => .inl h⟩
    | some reward =>
      obtain ⟨hcells, hworld, hpublished, hpending⟩ := scoreOutcome_credits cfg
        { v with world := w } locals hotkey answer.uid outcome reward host.updatedAt
      refine ⟨fun other hother => .inl (hcells other hother), ?_, ?_,
        hrecords _ hpublished hpending⟩
      · dsimp only
        rw [hworld]
        exact hrecorded.submissions
      · dsimp only
        rw [hworld]
        exact hrecorded.agents

/-! ## Runs -/

theorem credits_step {action : RoundAction} (h : v.step o py cfg action = some v') :
    Credits (TakenAs v action) v v' := by
  cases SecurityValidator.stepped h with
  | begin now hround => exact credits_beginRound now hround
  | answered responses hround => exact credits_takeAnswers hround
  | next elapsed hround => exact credits_nextAnswer hround
  | evaluated host hround =>
    -- The one step that credits somebody.
    refine (credits_takeOutcome hround).mono ?_
    intro credited hcredited
    exact ⟨host, _, _, _, rfl, hcredited ▸ hround⟩
  | sent hround => exact credits_conclude _
  | resync metagraph => exact credits_resyncMetagraph metagraph

theorem endLoop_not_evaluating (locals : RoundLocals) {locals' : RoundLocals} {hotkey : String}
    {answer : Answer} {rest : List Answer} :
    (v.endLoop cfg locals).round ≠ .evaluating locals' hotkey answer rest := by
  unfold SecurityValidator.endLoop
  dsimp only
  intro hround
  split at hround
  · cases hround
  · cases hround

theorem takeOutcome_round (v : SecurityValidator δ) (locals : RoundLocals) (hotkey : String)
    (answer : Answer) (rest : List Answer) (host : EvaluationHost) :
    ∃ after, (v.takeOutcome o py cfg locals hotkey answer rest host).round =
      .looping after rest := by
  unfold SecurityValidator.takeOutcome
  rcases SecurityValidator.evaluation o py cfg hotkey answer.response host v.world with
    ⟨e | outcome, w⟩
  · exact ⟨locals, rfl⟩
  · dsimp only
    cases outcome.reward with
    | none => exact ⟨_, rfl⟩
    | some reward => exact ⟨_, rfl⟩

/-- An evaluation that is going on was going on, or its response has just been taken up. -/
theorem evaluating_of_step {action : RoundAction} {locals : RoundLocals} {hotkey : String}
    {answer : Answer} {rest : List Answer} (h : v.step o py cfg action = some v')
    (hround' : v'.round = .evaluating locals hotkey answer rest) :
    v.round = .evaluating locals hotkey answer rest ∨
      ∃ elapsed, action = .next elapsed ∧ v.round = .looping locals (answer :: rest) ∧
        elapsed ≤ cfg.roundBudgetS ∧ answer.response.usable = true ∧
        v.metagraph.hotkeys[answer.uid]? = some hotkey := by
  cases SecurityValidator.stepped h with
  | begin now hround =>
    unfold SecurityValidator.beginRound at hround'
    split at hround'
    · rw [hround] at hround'
      cases hround'
    · dsimp only at hround'
      split at hround'
      · rw [hround] at hround'
        cases hround'
      · cases hround'
  | answered responses hround => cases responses <;> cases hround'
  | @next locals' rest' elapsed hround =>
    right
    unfold SecurityValidator.nextAnswer at hround'
    cases rest' with
    | nil => exact absurd hround' (endLoop_not_evaluating locals')
    | cons answer' rest' =>
      dsimp only at hround'
      split at hround'
      · exact absurd hround' (endLoop_not_evaluating locals')
      rename_i hbudget
      split at hround'
      · cases hround'
      split at hround'
      · cases hround'
      rename_i hotkey' hhotkey
      split at hround'
      · rename_i husable
        cases hround'
        exact ⟨elapsed, rfl, hround, not_lt.mp hbudget, husable, hhotkey⟩
      · cases hround'
  | @evaluated locals' hotkey' answer' rest' host hround =>
    obtain ⟨after, hafter⟩ :
        ∃ after, (v.takeOutcome o py cfg locals' hotkey' answer' rest' host).round =
          .looping after rest' := takeOutcome_round v locals' hotkey' answer' rest' host
    rw [hafter] at hround'
    cases hround'
  | sent hround => cases hround'
  | resync metagraph =>
    unfold SecurityValidator.resyncMetagraph at hround'
    split at hround'
    · exact .inl hround'
    · exact .inl hround'

/-- The response that is evaluated was taken up under the hotkey of the axon that gave it. -/
def TakenFromSender (v : SecurityValidator δ) : Prop :=
  ∀ locals hotkey answer rest, v.round = .evaluating locals hotkey answer rest →
    hotkey = answer.axon.hotkey

/-- The response that is taken up here. -/
def takenUp (cfg : SecuritySettings) (t : Transition (SecurityValidator δ) RoundAction) :
    Option Answer :=
  match t.action, t.before.round with
  | .next elapsed, .looping _ (answer :: _) =>
    if elapsed ≤ cfg.roundBudgetS ∧ answer.response.usable = true then some answer else none
  | _, _ => none

/-- If a response is taken up here, no other hotkey has its uid than the one whose axon gave it. -/
def SameAtTakeUp (cfg : SecuritySettings) (t : Transition (SecurityValidator δ) RoundAction) :
    Prop :=
  ∀ answer ∈ takenUp cfg t, ∀ hotkey ∈ t.before.metagraph.hotkeys[answer.uid]?,
    hotkey = answer.axon.hotkey

instance (t : Transition (SecurityValidator δ) RoundAction) : Decidable (SameAtTakeUp cfg t) :=
  inferInstanceAs (Decidable (∀ answer ∈ takenUp cfg t,
    ∀ hotkey ∈ t.before.metagraph.hotkeys[answer.uid]?, hotkey = answer.axon.hotkey))

theorem takenFromSender_step (t : Transition (SecurityValidator δ) RoundAction)
    (h : t.before.step o py cfg t.action = some t.after) (htaken : TakenFromSender t.before)
    (hsame : SameAtTakeUp cfg t) : TakenFromSender t.after := by
  intro locals hotkey answer rest hround
  rcases evaluating_of_step h hround with hwas | ⟨elapsed, haction, hlooping, hbudget, husable, hat⟩
  · exact htaken locals hotkey answer rest hwas
  · have htakenUp : takenUp cfg t = some answer := by
      unfold takenUp
      rw [haction, hlooping]
      exact if_pos ⟨hbudget, husable⟩
    exact hsame answer htakenUp hotkey hat

/-- Where the uid of a response still has the hotkey that was asked whenever the response is taken
    up, whatever resyncs come in between, nobody but the sender of a response is credited with it. -/
theorem credited_to_sender {v₀ : SecurityValidator δ} {actions : List RoundAction}
    (hidle : v₀.round = .idle)
    (hsame : ∀ t ∈ transitions (SecurityValidator.step o py cfg) v₀ actions, SameAtTakeUp cfg t) :
    ∀ t ∈ transitions (SecurityValidator.step o py cfg) v₀ actions,
      Credits (Sender t.before t.action) t.before t.after := by
  intro t ht
  have hstart : TakenFromSender v₀ := by
    intro locals hotkey answer rest hround
    rw [hidle] at hround
    cases hround
  have htaken : TakenFromSender t.before := invariant takenFromSender_step hstart hsame t ht
  refine (credits_step (step_of_mem t ht)).mono ?_
  rintro credited ⟨host, locals, answer, rest, haction, hround⟩
  exact ⟨host, locals, credited, answer, rest, haction, hround, htaken _ _ _ _ hround⟩

/-! ## A round with a resync in it -/

def lonelyMetagraph (hotkey : String) : Metagraph where
  neurons := [⟨⟨hotkey, "10.0.0.1", 8091⟩, false⟩]
  nodup := List.nodup_singleton _

def plainSettings : SecuritySettings where
  ownHotkey := "5Validator"
  decrypt := some

/-- A round in which the one miner there is answers with a blob, and the metagraph changes to
    `metagraph` before its answer is taken up. -/
def resyncedRound (metagraph : Metagraph) : List RoundAction :=
  [.begin 1, .resync metagraph, .answered (some [⟨some true, "b", "", ""⟩]), .next 0,
    .evaluated {
      download := .ok plainTar
      tarPath := "/tmp/secval-agent-0.tar"
      readTar := (plainBlob "miner/agent:1").readTar
      job := plainInput },
    .next 0]

/-- The owners on record before and after the evaluation of a response, and its sender. -/
def ownersAfter (t : Transition (SecurityValidator δ) RoundAction) :
    Option (List String × List String × String) :=
  match t.action, t.before.round with
  | .evaluated _, .evaluating _ _ answer _ => some (
      t.before.world.db.agents.map AgentRow.ownerMinerId,
      t.after.world.db.agents.map AgentRow.ownerMinerId, answer.axon.hotkey)
  | _, _ => none

def plainStart : SecurityValidator BoundTags where
  metagraph := lonelyMetagraph "5Old"
  hotkeys := ["5Old"]
  scores := [0]
  world := { outside := [] }

theorem credited_to_sender_one :
    let run := transitions (SecurityValidator.step plainOutside plainInterpreter plainSettings)
      plainStart (resyncedRound (lonelyMetagraph "5Old"))
    run.filterMap ownersAfter = [([], ["5Old"], "5Old")] ∧
      ∀ t ∈ run, Credits (Sender t.before t.action) t.before t.after :=
  ⟨by decide +kernel, credited_to_sender rfl (by decide +kernel)⟩

/-- The uid changes hands while its miner is asked: the agent is registered to the newcomer. -/
theorem newcomer_credited :
    ¬ ∀ (o : Outside BoundTags) (py : Interpreter) (cfg : SecuritySettings)
      (v₀ : SecurityValidator BoundTags) (actions : List RoundAction), v₀.round = .idle →
      ∀ t ∈ transitions (SecurityValidator.step o py cfg) v₀ actions,
        Credits (Sender t.before t.action) t.before t.after := by
  intro h
  have hcredits := h plainOutside plainInterpreter plainSettings plainStart
    (resyncedRound (lonelyMetagraph "5New")) rfl
  have howners : (transitions (SecurityValidator.step plainOutside plainInterpreter plainSettings)
      plainStart (resyncedRound (lonelyMetagraph "5New"))).any
        (fun t => ownersAfter t == some ([], ["5New"], "5Old")) = true := by decide +kernel
  obtain ⟨t, hmem, ht⟩ := List.any_eq_true.mp howners
  obtain ⟨agents, hagents, hsender⟩ := (hcredits t hmem).agents
  rw [beq_iff_eq] at ht
  unfold ownersAfter at ht
  split at ht
  · rename_i hround
    simp only [Option.some.injEq, Prod.mk.injEq, List.map_eq_nil_iff] at ht
    obtain ⟨hnone, hnew, hold⟩ := ht
    rw [hagents, hnone, List.nil_append] at hnew
    obtain ⟨agent, hagent, howner⟩ : ∃ agent ∈ agents, agent.ownerMinerId = "5New" := by
      apply List.mem_map.mp
      rw [hnew]
      exact List.mem_singleton_self _
    obtain ⟨_, _, _, _, _, _, hround', hsame⟩ := hsender agent hagent
    cases hround.symm.trans hround'
    rw [howner, hold] at hsame
    exact absurd hsame (by decide)
  · cases ht

end TaoSubnet
