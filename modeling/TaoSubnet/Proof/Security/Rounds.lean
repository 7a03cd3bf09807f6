import Mathlib.Tactic.Linarith
import Mathlib.Tactic.NormNum
import TaoSubnet.Lib.Runs
import TaoSubnet.Proof.Security.Teardown
import TaoSubnet.Security.Round

/-!
# What a round leaves behind in the scores

A round that runs to its end recomputes the score of every miner with history, so that a miner who
went idle decays to nothing. It does not where there is nobody to ask: that round ends early, and
every score stays as it is. The decay asks for no reason. A miner whose evaluations the validator
itself spoils loses what goes stale meanwhile.
-/

namespace TaoSubnet

open Py Machine

variable {δ : Type} {o : Outside δ} {py : Interpreter} {cfg : SecuritySettings}
variable {v v' : SecurityValidator δ} {action : RoundAction}

/-! ## The scores of a step -/

/-- The validator's own copies are those of its metagraph. -/
structure Synced (v : SecurityValidator δ) : Prop where
  hotkeys : v.hotkeys = v.metagraph.hotkeys
  scores : v.scores.length = v.metagraph.neurons.length

/-- A step that leaves the metagraph and the scores alone. -/
structure SameScores (v v' : SecurityValidator δ) : Prop where
  metagraph : v'.metagraph = v.metagraph
  hotkeys : v'.hotkeys = v.hotkeys
  scores : v'.scores = v.scores

theorem SameScores.synced (h : SameScores v v') (hsynced : Synced v) : Synced v' where
  hotkeys := by
    rw [h.hotkeys, h.metagraph]
    exact hsynced.hotkeys
  scores := by
    rw [h.scores, h.metagraph]
    exact hsynced.scores

theorem length_hotkeys (m : Metagraph) : m.hotkeys.length = m.neurons.length := List.length_map _

theorem length_updateFromRewards (rewards : List (Nat × ℚ)) (scores : List ℚ) :
    (SecurityValidator.updateFromRewards rewards scores).length = scores.length := by
  unfold SecurityValidator.updateFromRewards
  induction rewards generalizing scores with
  | nil => rfl
  | cons p rest ih =>
    rw [List.foldl_cons, ih]
    exact List.length_set

/-- Where every reward of a uid is the same, that is its score after. -/
theorem updateFromRewards_get {uid : Nat} {x : ℚ} (rewards : List (Nat × ℚ)) (scores : List ℚ)
    (hsame : ∀ p ∈ rewards, p.1 = uid → p.2 = x) (huid : uid < scores.length) :
    (SecurityValidator.updateFromRewards rewards scores)[uid]? =
      if uid ∈ rewards.map Prod.fst then some x else scores[uid]? := by
  unfold SecurityValidator.updateFromRewards
  induction rewards generalizing scores with
  | nil => simp
  | cons p rest ih =>
    have hrest : ∀ q ∈ rest, q.1 = uid → q.2 = x := fun q hq => hsame q (List.mem_cons_of_mem _ hq)
    rw [List.foldl_cons, ih (scores.set p.1 p.2) hrest (by rw [List.length_set]; exact huid)]
    by_cases hmem : uid ∈ rest.map Prod.fst
    · simp [hmem]
    · by_cases hp : p.1 = uid
      · have hx : p.2 = x := hsame p List.mem_cons_self hp
        simp [hmem, hp, hx, huid]
      · simp [hmem, hp, Ne.symm hp]

/-- After a resync the copies are those of the new metagraph. -/
theorem synced_resync (metagraph : Metagraph) (hsynced : Synced v) :
    Synced (v.resyncMetagraph metagraph) := by
  unfold SecurityValidator.resyncMetagraph
  by_cases haxons : v.metagraph.axons = metagraph.axons
  · rw [if_pos haxons]
    have hhotkeys : v.metagraph.hotkeys = metagraph.hotkeys := by
      have hmap := congrArg (List.map Axon.hotkey) haxons
      simpa [Metagraph.axons, Metagraph.hotkeys, Function.comp_def] using hmap
    constructor
    · show v.hotkeys = metagraph.hotkeys
      rw [hsynced.hotkeys, hhotkeys]
    · show v.scores.length = metagraph.neurons.length
      rw [hsynced.scores, ← length_hotkeys, hhotkeys, length_hotkeys]
  · rw [if_neg haxons]
    constructor
    · rfl
    · show ((List.take metagraph.neurons.length _).rightpad metagraph.neurons.length 0).length =
        metagraph.neurons.length
      rw [List.length_rightpad, List.length_take]
      exact max_eq_left (min_le_left _ _)

/-- The loop ends with the records to be sent, or with the round. -/
theorem endLoop_cases (cfg : SecuritySettings) (v : SecurityValidator δ) (locals : RoundLocals) :
    ∃ u : SecurityValidator δ, SameScores v u ∧
      (u.catScores = v.catScores ∨ u.catScores = v.catScores.prune v.metagraph.hotkeys) ∧
      u.lastSecurityRoundAt = v.lastSecurityRoundAt ∧
      (u.round = .publishing locals ∧ v.endLoop cfg locals = u ∨
        v.endLoop cfg locals = u.conclude cfg locals.now) := by
  unfold SecurityValidator.endLoop
  generalize hpruned : (if (locals.rewards.isEmpty && locals.skipped.isEmpty) = true then v
    else { v with catScores := v.catScores.prune v.metagraph.hotkeys }) = u
  have hu : SameScores v u ∧
      (u.catScores = v.catScores ∨ u.catScores = v.catScores.prune v.metagraph.hotkeys) ∧
      u.lastSecurityRoundAt = v.lastSecurityRoundAt := by
    rw [← hpruned]
    split
    · exact ⟨⟨rfl, rfl, rfl⟩, .inl rfl, rfl⟩
    · exact ⟨⟨rfl, rfl, rfl⟩, .inr rfl, rfl⟩
  obtain ⟨hsame, hcells, hlast⟩ := hu
  dsimp only
  split
  · exact ⟨u, hsame, hcells, hlast, .inr rfl⟩
  · exact ⟨{ u with
      published := u.published ++ locals.pendingPushes
      round := .publishing locals }, ⟨hsame.metagraph, hsame.hotkeys, hsame.scores⟩, hcells, hlast,
      .inl ⟨rfl, rfl⟩⟩

/-! ## The end of a round -/

def RoundState.isIdle : RoundState → Bool
  | .idle => true
  | _ => false

/-- When the round that this round is, or none, was begun. -/
def RoundState.startedAt : RoundState → Option ℚ
  | .idle => none
  | .asking now _ _ => some now
  | .looping locals _ => some locals.now
  | .evaluating locals _ _ _ => some locals.now
  | .publishing locals => some locals.now

/-- Is it too early for another round? -/
def SecurityValidator.gated (cfg : SecuritySettings) (v : SecurityValidator δ) (now : ℚ) : Prop :=
  v.lastSecurityRoundAt ≠ 0 ∧ now - v.lastSecurityRoundAt < max 0 cfg.intervalS

instance (now : ℚ) : Decidable (v.gated cfg now) :=
  inferInstanceAs (Decidable (v.lastSecurityRoundAt ≠ 0 ∧
    now - v.lastSecurityRoundAt < max 0 cfg.intervalS))

/-- The time of the round that comes to its end here: nobody is to be asked, the loop is over with
    nothing to send, or everything was sent. A round that raised does not come to its end. -/
def endedAt (cfg : SecuritySettings) (t : Transition (SecurityValidator δ) RoundAction) :
    Option ℚ :=
  match t.action, t.before.round with
  | .begin now, _ => if ¬ t.before.gated cfg now ∧ t.after.round.isIdle then some now else none
  | .next elapsed, .looping locals rest =>
    if (rest.isEmpty ∨ cfg.roundBudgetS < elapsed) ∧ t.after.round.isIdle then some locals.now
    else none
  | .sent, .publishing locals => some locals.now
  | _, _ => none

/-- A round is begun here, and nobody is to be asked. -/
def NobodyAsked (cfg : SecuritySettings) (t : Transition (SecurityValidator δ) RoundAction) :
    Prop :=
  match t.action with
  | .begin now => ¬ t.before.gated cfg now ∧ t.before.minerUids cfg = []
  | _ => False

instance (t : Transition (SecurityValidator δ) RoundAction) : Decidable (NobodyAsked cfg t) := by
  unfold NobodyAsked
  split <;> infer_instance

/-- The hotkey that is given a reward here. -/
def rewardedTo (o : Outside δ) (py : Interpreter) (cfg : SecuritySettings)
    (t : Transition (SecurityValidator δ) RoundAction) : Option String :=
  match t.action, t.before.round with
  | .evaluated host, .evaluating _ hotkey answer _ =>
    match (SecurityValidator.evaluation o py cfg hotkey answer.response host t.before.world).1 with
    | .ok outcome => outcome.reward.map fun _ => hotkey
    | .error _ => none
  | _, _ => none

/-- A piece of a round, up to its recompute. -/
structure Piece (o : Outside δ) (py : Interpreter) (cfg : SecuritySettings) (action : RoundAction)
    (v v' u : SecurityValidator δ) : Prop where
  same : SameScores v u
  rows : ∀ hotkey ∈ v.metagraph.hotkeys, rewardedTo o py cfg ⟨v, action, v'⟩ ≠ some hotkey →
    u.catScores.cells.get? hotkey = v.catScores.cells.get? hotkey
  ends : v' = u ∧ (endedAt cfg ⟨v, action, v'⟩ = none ∨ NobodyAsked cfg ⟨v, action, v'⟩) ∨
    ∃ now, v' = u.conclude cfg now ∧ v.round.startedAt = some now ∧
      endedAt cfg ⟨v, action, v'⟩ = some now ∧ ¬ NobodyAsked cfg ⟨v, action, v'⟩

theorem beginRound_eq (now : ℚ) : v.beginRound cfg now =
    if v.gated cfg now then v
    else if (v.minerUids cfg).isEmpty then { v with lastSecurityRoundAt := now }
    else
      { v with
        round := .asking now (v.minerUids cfg)
          ((v.minerUids cfg).filterMap fun uid => v.metagraph.axons[uid]?) } := rfl

theorem piece_begin (now : ℚ) :
    Piece o py cfg (.begin now) v (v.beginRound cfg now) (v.beginRound cfg now) := by
  rw [beginRound_eq]
  by_cases hgated : v.gated cfg now
  · rw [if_pos hgated]
    refine ⟨⟨rfl, rfl, rfl⟩, fun _ _ _ => rfl, .inl ⟨rfl, .inl ?_⟩⟩
    simp [endedAt, hgated]
  · rw [if_neg hgated]
    by_cases hnobody : (v.minerUids cfg).isEmpty = true
    · rw [if_pos hnobody]
      refine ⟨⟨rfl, rfl, rfl⟩, fun _ _ _ => rfl, .inl ⟨rfl, .inr ?_⟩⟩
      exact ⟨hgated, List.isEmpty_iff.mp hnobody⟩
    · rw [if_neg hnobody]
      refine ⟨⟨rfl, rfl, rfl⟩, fun _ _ _ => rfl, .inl ⟨rfl, .inl ?_⟩⟩
      simp [endedAt, RoundState.isIdle]

theorem piece_answered {now : ℚ} {uids : List Nat} {axons : List Axon}
    (responses : Option (List SecurityAgentResponse)) :
    Piece o py cfg (.answered responses) v (v.takeAnswers now uids axons responses)
      (v.takeAnswers now uids axons responses) := by
  unfold SecurityValidator.takeAnswers
  cases responses with
  | none => exact ⟨⟨rfl, rfl, rfl⟩, fun _ _ _ => rfl, .inl ⟨rfl, .inl rfl⟩⟩
  | some responses => exact ⟨⟨rfl, rfl, rfl⟩, fun _ _ _ => rfl, .inl ⟨rfl, .inl rfl⟩⟩

/-- The loop's last turn: its rows are those of the metagraph. -/
theorem piece_endLoop {locals : RoundLocals} {rest : List Answer} {elapsed : ℚ}
    (hround : v.round = .looping locals rest)
    (hover : rest.isEmpty = true ∨ cfg.roundBudgetS < elapsed) :
    ∃ u, Piece o py cfg (.next elapsed) v (v.endLoop cfg locals) u := by
  obtain ⟨u, hsame, hcells, -, hend⟩ := endLoop_cases cfg v locals
  refine ⟨u, hsame, ?_, ?_⟩
  · intro hotkey hmember _
    rcases hcells with hcells | hcells
    · rw [hcells]
    · rw [hcells, CategoryScores.cells_prune, if_pos hmember]
  · rcases hend with ⟨hpublishing, hend⟩ | hend
    · refine .inl ⟨hend, .inl ?_⟩
      simp [endedAt, hround, hend, hpublishing, RoundState.isIdle]
    · refine .inr ⟨locals.now, hend, by rw [hround]; rfl, ?_, id⟩
      unfold endedAt
      rw [hround, hend]
      exact if_pos ⟨hover, rfl⟩

theorem piece_next {locals : RoundLocals} {rest : List Answer} (elapsed : ℚ)
    (hround : v.round = .looping locals rest) :
    ∃ u, Piece o py cfg (.next elapsed) v (v.nextAnswer cfg locals rest elapsed) u := by
  unfold SecurityValidator.nextAnswer
  cases rest with
  | nil => exact piece_endLoop hround (.inl rfl)
  | cons answer rest =>
    dsimp only
    by_cases hbudget : cfg.roundBudgetS < elapsed
    · rw [if_pos hbudget]
      exact piece_endLoop hround (.inr hbudget)
    rw [if_neg hbudget]
    -- Whatever the turn does, it only moves on in the round.
    have hturn : ∀ round : RoundState,
        Piece o py cfg (.next elapsed) v { v with round := round } { v with round := round } := by
      intro round
      refine ⟨⟨rfl, rfl, rfl⟩, fun _ _ _ => rfl, .inl ⟨rfl, .inl ?_⟩⟩
      simp [endedAt, hround, hbudget]
    split
    · exact ⟨_, hturn _⟩
    split
    · exact ⟨_, hturn _⟩
    split
    · exact ⟨_, hturn _⟩
    · exact ⟨_, hturn _⟩

theorem same_takeOutcome (locals : RoundLocals) (hotkey : String) (answer : Answer)
    (rest : List Answer) (host : EvaluationHost) :
    SameScores v (v.takeOutcome o py cfg locals hotkey answer rest host) := by
  unfold SecurityValidator.takeOutcome
  rcases SecurityValidator.evaluation o py cfg hotkey answer.response host v.world with
    ⟨e | outcome, w⟩
  · exact ⟨rfl, rfl, rfl⟩
  · dsimp only
    cases outcome.reward with
    | none => exact ⟨rfl, rfl, rfl⟩
    | some reward =>
      unfold SecurityValidator.scoreOutcome
      cases outcome.category <;> exact ⟨rfl, rfl, rfl⟩

/-- Only the row of the hotkey that is rewarded may change. -/
theorem rows_takeOutcome {locals : RoundLocals} {hotkey : String} {answer : Answer}
    {rest : List Answer} {host : EvaluationHost} {other : String}
    (hround : v.round = .evaluating locals hotkey answer rest)
    (hother : rewardedTo o py cfg ⟨v, .evaluated host, v'⟩ ≠ some other) :
    (v.takeOutcome o py cfg locals hotkey answer rest host).catScores.cells.get? other =
      v.catScores.cells.get? other := by
  unfold SecurityValidator.takeOutcome
  rcases hresult : SecurityValidator.evaluation o py cfg hotkey answer.response host v.world with
    ⟨e | outcome, w⟩
  · rfl
  · dsimp only
    cases hreward : outcome.reward with
    | none => rfl
    | some reward =>
      have hne : other ≠ hotkey := by
        intro h
        apply hother
        simp [rewardedTo, hround, hresult, hreward, h]
      unfold SecurityValidator.scoreOutcome
      cases outcome.category with
      | none => rfl
      | some category => simp [hne]

theorem piece_evaluated {locals : RoundLocals} {hotkey : String} {answer : Answer}
    {rest : List Answer} (host : EvaluationHost)
    (hround : v.round = .evaluating locals hotkey answer rest) :
    Piece o py cfg (.evaluated host) v (v.takeOutcome o py cfg locals hotkey answer rest host)
      (v.takeOutcome o py cfg locals hotkey answer rest host) where
  same := same_takeOutcome locals hotkey answer rest host
  rows _ _ hother := rows_takeOutcome hround hother
  ends := .inl ⟨rfl, .inl rfl⟩

/-- A step is a resync, or a piece of the round. -/
theorem piece_of_step (h : v.step o py cfg action = some v') :
    (∃ metagraph, action = .resync metagraph ∧ v' = v.resyncMetagraph metagraph) ∨
      ∃ u, Piece o py cfg action v v' u := by
  cases SecurityValidator.stepped h with
  | begin now hround => exact .inr ⟨_, piece_begin now⟩
  | answered responses hround => exact .inr ⟨_, piece_answered responses⟩
  | next elapsed hround => exact .inr (piece_next elapsed hround)
  | evaluated host hround => exact .inr ⟨_, piece_evaluated host hround⟩
  | sent hround =>
    right
    refine ⟨v, ⟨rfl, rfl, rfl⟩, fun _ _ _ => rfl, .inr ⟨_, rfl, ?_, ?_, id⟩⟩
    · rw [hround]
      rfl
    · simp [endedAt, hround]
  | resync metagraph => exact .inl ⟨metagraph, rfl, rfl⟩

/-! ## The recompute -/

/-- The aggregate of a hotkey's cells, those that are fresh at `now`. -/
def SecurityValidator.freshAggregate (cfg : SecuritySettings) (v : SecurityValidator δ)
    (hotkey : String) (now : ℚ) : ℚ :=
  v.catScores.aggregate hotkey cfg.activeCategories now (some cfg.freshnessS)

theorem uid_of_hotkey (m : Metagraph) {uid : Nat} {hotkey : String} :
    m.hotkeys.idxOf? hotkey = some uid ↔ m.hotkeys[uid]? = some hotkey := by
  rw [List.idxOf?_eq_some_iff, List.getElem?_eq_some_iff]
  constructor
  · intro h
    obtain ⟨hlt, hget, -⟩ := h
    exact ⟨hlt, hget⟩
  · intro h
    obtain ⟨hlt, hget⟩ := h
    refine ⟨hlt, hget, ?_⟩
    intro j hj heq
    have hindex : j = uid := m.nodup.getElem_inj_iff.mp (heq.trans hget.symm)
    omega

/-- A hotkey's score is the aggregate of its cells, if it has any, and stays as it was otherwise. -/
theorem scores_conclude {uid : Nat} {hotkey : String} (now : ℚ) (hsynced : Synced v)
    (hat : v.metagraph.hotkeys[uid]? = some hotkey) :
    (v.conclude cfg now).scores[uid]? =
      if hotkey ∈ v.catScores.cells.keys then some (v.freshAggregate cfg hotkey now)
      else v.scores[uid]? := by
  have hpair : ∀ other uid', v.metagraph.hotkeys.idxOf? other = some uid' → uid' = uid →
      other = hotkey := by
    intro other uid' hidx huid
    subst huid
    exact Option.some.inj (((uid_of_hotkey _).mp hidx).symm.trans hat)
  -- A uid has one hotkey, so no other row is written to it.
  have hsame : ∀ p ∈ v.recomputeAllScores cfg now, p.1 = uid →
      p.2 = v.freshAggregate cfg hotkey now := by
    intro p hp huid
    obtain ⟨other, -, hother⟩ := List.mem_filterMap.mp hp
    obtain ⟨uid', hidx, rfl⟩ := Option.map_eq_some_iff.mp hother
    rw [hpair other uid' hidx huid]
    rfl
  have hmem : uid ∈ (v.recomputeAllScores cfg now).map Prod.fst ↔
      hotkey ∈ v.catScores.cells.keys := by
    constructor
    · intro h
      obtain ⟨p, hp, huid⟩ := List.mem_map.mp h
      obtain ⟨other, hkey, hother⟩ := List.mem_filterMap.mp hp
      obtain ⟨uid', hidx, rfl⟩ := Option.map_eq_some_iff.mp hother
      exact hpair other uid' hidx huid ▸ hkey
    · intro h
      refine List.mem_map.mpr ⟨(uid, v.freshAggregate cfg hotkey now), ?_, rfl⟩
      refine List.mem_filterMap.mpr ⟨hotkey, h, ?_⟩
      rw [(uid_of_hotkey _).mpr hat]
      rfl
  have huid : uid < v.scores.length := by
    rw [hsynced.scores, ← length_hotkeys]
    exact (List.getElem?_eq_some_iff.mp hat).1
  show (SecurityValidator.updateFromRewards _ _)[uid]? = _
  rw [updateFromRewards_get _ _ hsame huid]
  simp only [hmem]

theorem synced_conclude (now : ℚ) (hsynced : Synced v) : Synced (v.conclude cfg now) where
  hotkeys := hsynced.hotkeys
  scores := by
    show (SecurityValidator.updateFromRewards _ _).length = _
    rw [length_updateFromRewards]
    exact hsynced.scores

theorem synced_step (h : v.step o py cfg action = some v') (hsynced : Synced v) : Synced v' := by
  rcases piece_of_step h with ⟨metagraph, -, rfl⟩ | ⟨u, piece⟩
  · exact synced_resync metagraph hsynced
  · rcases piece.ends with ⟨rfl, -⟩ | ⟨now, rfl, -⟩
    · exact piece.same.synced hsynced
    · exact synced_conclude now (piece.same.synced hsynced)

theorem synced_initial (metagraph : Metagraph) (catScores : CategoryScores)
    (listedAgents : List String) (world : World δ) :
    Synced (SecurityValidator.initial metagraph catScores listedAgents world) where
  hotkeys := rfl
  scores := List.length_replicate

/-- The score of everyone with history is the aggregate of the cells that are fresh at `now`. -/
def Recomputed (cfg : SecuritySettings) (v : SecurityValidator δ) (now : ℚ) : Prop :=
  ∀ (uid : Nat) (hotkey : String), v.metagraph.hotkeys[uid]? = some hotkey →
    hotkey ∈ v.catScores.cells.keys → v.scores[uid]? = some (v.freshAggregate cfg hotkey now)

/-- A round that asked somebody ends with its recompute. -/
theorem conclude_of_ended {t : Transition (SecurityValidator δ) RoundAction} {now : ℚ}
    (h : t.before.step o py cfg t.action = some t.after) (hended : endedAt cfg t = some now)
    (hasked : ¬ NobodyAsked cfg t) : ∃ u, SameScores t.before u ∧ t.after = u.conclude cfg now := by
  obtain ⟨v, action, v'⟩ := t
  rcases piece_of_step h with ⟨metagraph, rfl, -⟩ | ⟨u, piece⟩
  · cases hended
  rcases piece.ends with ⟨-, hnone | hnobody⟩ | ⟨now', hconclude, -, hnow, -⟩
  · cases hnone.symm.trans hended
  · exact absurd hnobody hasked
  · cases hnow.symm.trans hended
    exact ⟨u, piece.same, hconclude⟩

/-- Where a round that asked somebody ends, the scores are those of the recompute. -/
theorem recomputed_of_ended {t : Transition (SecurityValidator δ) RoundAction} {now : ℚ}
    (h : t.before.step o py cfg t.action = some t.after) (hsynced : Synced t.before)
    (hended : endedAt cfg t = some now) (hasked : ¬ NobodyAsked cfg t) :
    Recomputed cfg t.after now := by
  obtain ⟨u, hsame, hconclude⟩ := conclude_of_ended h hended hasked
  rw [hconclude]
  intro uid hotkey hat hkey
  exact (scores_conclude now (hsame.synced hsynced) hat).trans (if_pos hkey)

/-- Who has history, and nothing fresh, has no score. -/
theorem stale_scores_zero {now : ℚ} {uid : Nat} {hotkey : String} (h : Recomputed cfg v now)
    (hat : v.metagraph.hotkeys[uid]? = some hotkey) (hkey : hotkey ∈ v.catScores.cells.keys)
    (hstale : ∀ category cell, v.catScores.cell hotkey category = some cell →
      cfg.freshnessS < now - cell.updatedAt) : v.scores[uid]? = some 0 := by
  rw [h uid hotkey hat hkey, SecurityValidator.freshAggregate]
  rw [CategoryScores.aggregate_stale fun category _ => hstale category]

/-- If every round that is begun finds somebody to ask, every round that comes to its end leaves
    the fresh aggregates in the scores, and nothing for who has nothing fresh. -/
theorem ended_rounds_recompute {metagraph : Metagraph} {catScores : CategoryScores}
    {listedAgents : List String} {world : World δ} {actions : List RoundAction}
    (hasked : ∀ t ∈ transitions (SecurityValidator.step o py cfg)
      (SecurityValidator.initial metagraph catScores listedAgents world) actions,
      ¬ NobodyAsked cfg t) :
    ∀ t ∈ transitions (SecurityValidator.step o py cfg)
        (SecurityValidator.initial metagraph catScores listedAgents world) actions,
      ∀ now, endedAt cfg t = some now →
        Recomputed cfg t.after now ∧
        ∀ (uid : Nat) (hotkey : String), t.after.metagraph.hotkeys[uid]? = some hotkey →
          hotkey ∈ t.after.catScores.cells.keys →
          (∀ category cell, t.after.catScores.cell hotkey category = some cell →
            cfg.freshnessS < now - cell.updatedAt) → t.after.scores[uid]? = some 0 := by
  intro t ht now hended
  have hsynced : Synced t.before :=
    invariant (fun _ hstep hs _ => synced_step hstep hs)
      (synced_initial metagraph catScores listedAgents world) hasked t ht
  have hrecomputed : Recomputed cfg t.after now :=
    recomputed_of_ended (step_of_mem t ht) hsynced hended (hasked t ht)
  exact ⟨hrecomputed, fun uid hotkey hat hkey => stale_scores_zero hrecomputed hat hkey⟩

/-- A metagraph of one neuron, at `ip`. -/
def oneNeuron (ip : String) : Metagraph where
  neurons := [⟨⟨"5Miner", ip, 8091⟩, false⟩]
  nodup := List.nodup_singleton _

def calmOutside : Outside Unit where
  docker _ _ := (.error ⟨.fileNotFoundError, "docker"⟩, ())
  http _ _ := (.error ⟨.osError, "unreachable"⟩, ())

def roundSettings : SecuritySettings where
  ownHotkey := "5Validator"
  decrypt := some

/-- The miner was observed once, at the time 100, and earned a half. -/
def observedOnce : CategoryScores where
  cells := Dict.ofList [("5Miner", Dict.ofList [("sqli", ⟨1 / 2, 100⟩)])]

/-- A validator that starts with that matrix. -/
def roundStart : SecurityValidator Unit :=
  SecurityValidator.initial (oneNeuron "10.0.0.1") observedOnce [] { outside := () }

/-- A round in which the miner declines. -/
def declinedRound (now : ℚ) : List RoundAction :=
  [.begin now, .answered (some [⟨some false, "", "", ""⟩]), .next 0, .next 0]

theorem ended_rounds_recompute_declined :
    let run := transitions (SecurityValidator.step calmOutside cpython roundSettings) roundStart
      (declinedRound 200 ++ declinedRound 9000)
    (run.filterMap fun t => (endedAt roundSettings t).map fun now => (now, t.after.scores)) =
        [(200, [1 / 2]), (9000, [0])] ∧
      ∀ t ∈ run, ∀ now, endedAt roundSettings t = some now →
        Recomputed roundSettings t.after now ∧
        ∀ (uid : Nat) (hotkey : String), t.after.metagraph.hotkeys[uid]? = some hotkey →
          hotkey ∈ t.after.catScores.cells.keys →
          (∀ category cell, t.after.catScores.cell hotkey category = some cell →
            roundSettings.freshnessS < now - cell.updatedAt) → t.after.scores[uid]? = some 0 :=
  ⟨by decide +kernel, ended_rounds_recompute (by decide +kernel)⟩

/-- Once no neuron serves, the rounds still end, and the stale score stays. -/
theorem unasked_score_stays :
    ¬ ∀ (o : Outside Unit) (py : Interpreter) (cfg : SecuritySettings) (metagraph : Metagraph)
      (catScores : CategoryScores) (listedAgents : List String) (world : World Unit)
      (actions : List RoundAction),
      ∀ t ∈ transitions (SecurityValidator.step o py cfg)
          (SecurityValidator.initial metagraph catScores listedAgents world) actions,
        ∀ now, endedAt cfg t = some now → Recomputed cfg t.after now := by
  intro h
  have hends := h calmOutside cpython roundSettings (oneNeuron "10.0.0.1") observedOnce []
    { outside := () } (declinedRound 200 ++ [.resync (oneNeuron "0.0.0.0"), .begin 9000])
  have hkept : (transitions (SecurityValidator.step calmOutside cpython roundSettings) roundStart
      (declinedRound 200 ++ [.resync (oneNeuron "0.0.0.0"), .begin 9000])).any (fun t =>
        endedAt roundSettings t == some 9000 && t.after.scores == [1 / 2] &&
        t.after.metagraph.hotkeys == ["5Miner"] && t.after.catScores == observedOnce) = true := by
    decide +kernel
  obtain ⟨t, hmem, ht⟩ := List.any_eq_true.mp hkept
  simp only [Bool.and_eq_true, beq_iff_eq] at ht
  obtain ⟨⟨⟨hended, hscores⟩, hhotkeys⟩, hcells⟩ := ht
  have hrecomputed := hends t hmem 9000 hended 0 "5Miner" (by rw [hhotkeys]; rfl)
    (by rw [hcells]; decide +kernel)
  rw [hscores, SecurityValidator.freshAggregate, hcells] at hrecomputed
  exact absurd hrecomputed (by decide +kernel)

/-! ## An outage -/

/-- Since `t₀` the clock has only gone on: for the last round, and for the one that is running. -/
structure ClockFrom (t₀ : ℚ) (v : SecurityValidator δ) : Prop where
  last : t₀ ≤ v.lastSecurityRoundAt
  running : ∀ now, v.round.startedAt = some now → t₀ ≤ now

theorem clock_conclude {t₀ now : ℚ} (h : t₀ ≤ now) : ClockFrom t₀ (v.conclude cfg now) where
  last := h
  running _ hnow := by cases hnow

theorem clock_begin {t₀ now : ℚ} (ht₀ : 0 < t₀) (hclock : ClockFrom t₀ v) :
    ClockFrom t₀ (v.beginRound cfg now) := by
  rw [beginRound_eq]
  by_cases hgated : v.gated cfg now
  · rw [if_pos hgated]
    exact hclock
  rw [if_neg hgated]
  -- Past the gate, the interval has passed since a round that was after `t₀`.
  have hnow : t₀ ≤ now := by
    have hlast := hclock.last
    have hne : v.lastSecurityRoundAt ≠ 0 := by linarith
    have hpassed : max 0 cfg.intervalS ≤ now - v.lastSecurityRoundAt := by
      by_contra hearly
      exact hgated ⟨hne, not_le.mp hearly⟩
    have hpos : (0 : ℚ) ≤ max 0 cfg.intervalS := le_max_left _ _
    linarith
  split
  · refine ⟨hnow, ?_⟩
    intro started hstarted
    exact hclock.running started hstarted
  · refine ⟨hclock.last, ?_⟩
    intro started hstarted
    cases hstarted
    exact hnow

theorem clock_endLoop {t₀ : ℚ} {locals : RoundLocals} (hclock : ClockFrom t₀ v)
    (hnow : t₀ ≤ locals.now) : ClockFrom t₀ (v.endLoop cfg locals) := by
  obtain ⟨u, -, -, hlast, hend⟩ := endLoop_cases cfg v locals
  rcases hend with ⟨hpublishing, hend⟩ | hend
  · rw [hend]
    refine ⟨by rw [hlast]; exact hclock.last, ?_⟩
    intro started hstarted
    rw [hpublishing] at hstarted
    cases hstarted
    exact hnow
  · rw [hend]
    exact clock_conclude hnow

theorem clock_takeOutcome {t₀ : ℚ} {locals : RoundLocals} {hotkey : String} {answer : Answer}
    {rest : List Answer} {host : EvaluationHost} (hclock : ClockFrom t₀ v)
    (hnow : t₀ ≤ locals.now) :
    ClockFrom t₀ (v.takeOutcome o py cfg locals hotkey answer rest host) := by
  unfold SecurityValidator.takeOutcome
  rcases SecurityValidator.evaluation o py cfg hotkey answer.response host v.world with
    ⟨e | outcome, w⟩
  · refine ⟨hclock.last, ?_⟩
    intro started hstarted
    cases hstarted
    exact hnow
  · dsimp only
    cases outcome.reward with
    | none =>
      refine ⟨hclock.last, ?_⟩
      intro started hstarted
      cases hstarted
      exact hnow
    | some reward =>
      unfold SecurityValidator.scoreOutcome
      refine ⟨?_, ?_⟩
      · cases outcome.category <;> exact hclock.last
      · intro started hstarted
        cases hstarted
        exact hnow

theorem clock_step_round {t₀ : ℚ} (ht₀ : 0 < t₀) (h : v.step o py cfg action = some v')
    (hclock : ClockFrom t₀ v) : ClockFrom t₀ v' := by
  cases SecurityValidator.stepped h with
  | begin now hround => exact clock_begin ht₀ hclock
  | answered responses hround =>
    have hnow := hclock.running
    rw [hround] at hnow
    cases responses with
    | none => exact ⟨hclock.last, fun _ h => by cases h⟩
    | some responses => exact ⟨hclock.last, hnow⟩
  | @next locals rest elapsed hround =>
    have hrunning := hclock.running
    rw [hround] at hrunning
    have hnow : t₀ ≤ locals.now := hrunning _ rfl
    unfold SecurityValidator.nextAnswer
    cases rest with
    | nil => exact clock_endLoop hclock hnow
    | cons answer rest =>
      dsimp only
      split
      · exact clock_endLoop hclock hnow
      split
      · exact ⟨hclock.last, hrunning⟩
      split
      · exact ⟨hclock.last, fun _ h => by cases h⟩
      split
      · exact ⟨hclock.last, hrunning⟩
      · exact ⟨hclock.last, hrunning⟩
  | evaluated host hround =>
    have hrunning := hclock.running
    rw [hround] at hrunning
    exact clock_takeOutcome hclock (hrunning _ rfl)
  | sent hround =>
    have hrunning := hclock.running
    rw [hround] at hrunning
    exact clock_conclude (hrunning _ rfl)
  | resync metagraph =>
    unfold SecurityValidator.resyncMetagraph
    split
    · exact ⟨hclock.last, hclock.running⟩
    · exact ⟨hclock.last, hclock.running⟩

/-- A uid that keeps its hotkey keeps its score. -/
theorem zeroReplaced_get {uid : Nat} {hotkey : String} :
    ∀ {olds news : List String} (scores : List ℚ), olds[uid]? = some hotkey →
      news[uid]? = some hotkey →
      (SecurityValidator.zeroReplaced olds news scores)[uid]? = scores[uid]? := by
  induction uid with
  | zero =>
    intro olds news scores hold hnew
    cases olds with
    | nil => cases hold
    | cons old olds =>
      cases news with
      | nil => cases hnew
      | cons new news =>
        cases hold
        cases hnew
        cases scores with
        | nil => rfl
        | cons score scores => simp [SecurityValidator.zeroReplaced]
  | succ uid ih =>
    intro olds news scores hold hnew
    cases olds with
    | nil => cases hold
    | cons old olds =>
      cases news with
      | nil => cases hnew
      | cons new news =>
        cases scores with
        | nil => rfl
        | cons score scores =>
          simp only [SecurityValidator.zeroReplaced, List.getElem?_cons_succ]
          exact ih scores hold hnew

theorem scores_resync {uid : Nat} {hotkey : String} (metagraph : Metagraph) (hsynced : Synced v)
    (hat : v.metagraph.hotkeys[uid]? = some hotkey)
    (hstays : metagraph.hotkeys[uid]? = some hotkey) :
    (v.resyncMetagraph metagraph).scores[uid]? = v.scores[uid]? := by
  unfold SecurityValidator.resyncMetagraph
  split
  · rfl
  · have hlt : uid < metagraph.neurons.length := by
      rw [← length_hotkeys]
      exact (List.getElem?_eq_some_iff.mp hstays).1
    have huid : uid < v.scores.length := by
      rw [hsynced.scores, ← length_hotkeys]
      exact (List.getElem?_eq_some_iff.mp hat).1
    have hzeroed := zeroReplaced_get v.scores (hsynced.hotkeys ▸ hat) hstays
    have hlong : uid < (SecurityValidator.zeroReplaced v.hotkeys metagraph.hotkeys v.scores).length := by
      rw [List.getElem?_eq_getElem huid] at hzeroed
      exact (List.getElem?_eq_some_iff.mp hzeroed).1
    show ((List.take _ _).rightpad _ _)[uid]? = _
    rw [List.rightpad, List.getElem?_append_left (by rw [List.length_take]; exact lt_min hlt hlong),
      List.getElem?_take_of_lt hlt, hzeroed]

/-- Of the cells of `hotkey` that earned something and were fresh at `t₀`, each is so at `now`. -/
def StaysFresh (cfg : SecuritySettings) (hotkey : String) (t₀ now : ℚ)
    (v : SecurityValidator δ) : Prop :=
  ∀ category ∈ cfg.activeCategories, ∀ cell ∈ v.catScores.cell hotkey category,
    0 < cell.score → t₀ - cell.updatedAt ≤ cfg.freshnessS → now - cell.updatedAt ≤ cfg.freshnessS

instance (hotkey : String) (t₀ now : ℚ) : Decidable (StaysFresh cfg hotkey t₀ now v) :=
  inferInstanceAs (Decidable (∀ category ∈ cfg.activeCategories,
    ∀ cell ∈ v.catScores.cell hotkey category, 0 < cell.score →
      t₀ - cell.updatedAt ≤ cfg.freshnessS → now - cell.updatedAt ≤ cfg.freshnessS))

theorem cell_of_row {hotkey : String} (category : String)
    (hrow : v'.catScores.cells.get? hotkey = v.catScores.cells.get? hotkey) :
    v'.catScores.cell hotkey category = v.catScores.cell hotkey category := by
  unfold CategoryScores.cell
  rw [hrow]

/-- Cells that stay as they are count for less only if they go stale. -/
theorem freshAggregate_mono {t₀ now : ℚ} {hotkey : String}
    (hrow : v'.catScores.cells.get? hotkey = v.catScores.cells.get? hotkey) (hnow : t₀ ≤ now)
    (hfresh : StaysFresh cfg hotkey t₀ now v') :
    v.freshAggregate cfg hotkey t₀ ≤ v'.freshAggregate cfg hotkey now := by
  apply CategoryScores.aggregate_mono
  intro category hactive
  unfold CategoryScores.counted
  rw [← cell_of_row category hrow]
  cases hc : v'.catScores.cell hotkey category with
  | none => exact le_refl _
  | some cell =>
    dsimp only
    by_cases hold : cfg.freshnessS < t₀ - cell.updatedAt
    · -- What was stale stays stale.
      have hstale : cfg.freshnessS < now - cell.updatedAt := by linarith
      rw [if_pos hold, if_pos hstale]
    · rw [if_neg hold]
      split
      · rename_i hstale
        by_contra hpos
        have hkept := hfresh category hactive cell hc (not_le.mp hpos) (not_lt.mp hold)
        linarith
      · exact le_refl _

/-- What an outage keeps, of the miner `hotkey` at `uid` with the score `s` at its start. -/
structure Kept (start : SecurityValidator δ) (t₀ : ℚ) (uid : Nat) (hotkey : String)
    (v : SecurityValidator δ) : Prop where
  synced : Synced v
  clock : ClockFrom t₀ v
  at_uid : v.metagraph.hotkeys[uid]? = some hotkey
  row : v.catScores.cells.get? hotkey = start.catScores.cells.get? hotkey
  score : ∃ s s', start.scores[uid]? = some s ∧ v.scores[uid]? = some s' ∧ s ≤ s'

/-- The miner stays where it is, earns nothing, and nothing of its goes stale. -/
structure Outage (o : Outside δ) (py : Interpreter) (cfg : SecuritySettings) (t₀ : ℚ) (uid : Nat)
    (hotkey : String) (t : Transition (SecurityValidator δ) RoundAction) : Prop where
  stays : t.after.metagraph.hotkeys[uid]? = some hotkey
  faulted : rewardedTo o py cfg t ≠ some hotkey
  fresh : ∀ now ∈ endedAt cfg t, ¬ NobodyAsked cfg t → StaysFresh cfg hotkey t₀ now t.before

instance (t₀ : ℚ) (uid : Nat) (hotkey : String)
    (t : Transition (SecurityValidator δ) RoundAction) :
    Decidable (Outage o py cfg t₀ uid hotkey t) :=
  decidable_of_iff (t.after.metagraph.hotkeys[uid]? = some hotkey ∧
      rewardedTo o py cfg t ≠ some hotkey ∧
      ∀ now ∈ endedAt cfg t, ¬ NobodyAsked cfg t → StaysFresh cfg hotkey t₀ now t.before)
    ⟨fun h => ⟨h.1, h.2.1, h.2.2⟩, fun h => ⟨h.stays, h.faulted, h.fresh⟩⟩

/-- The score of the miner is covered by the cells that were fresh at `t₀`. -/
def Covered (cfg : SecuritySettings) (t₀ : ℚ) (uid : Nat) (hotkey : String)
    (v : SecurityValidator δ) : Prop :=
  hotkey ∈ v.catScores.cells.keys →
    ∀ s, v.scores[uid]? = some s → s ≤ v.freshAggregate cfg hotkey t₀

theorem kept_step {start : SecurityValidator δ} {t₀ : ℚ} {uid : Nat} {hotkey : String}
    (ht₀ : 0 < t₀) (hcovered : Covered cfg t₀ uid hotkey start) (h : v.step o py cfg action = some v') (hkept : Kept start t₀ uid hotkey v)
    (houtage : Outage o py cfg t₀ uid hotkey ⟨v, action, v'⟩) : Kept start t₀ uid hotkey v' := by
  have hsynced' : Synced v' := synced_step h hkept.synced
  have hclock' : ClockFrom t₀ v' := clock_step_round ht₀ h hkept.clock
  obtain ⟨s, s', hs, hs', hle⟩ := hkept.score
  rcases piece_of_step h with ⟨metagraph, rfl, rfl⟩ | ⟨u, piece⟩
  · refine ⟨hsynced', hclock', houtage.stays, ?_, s, s', hs, ?_, hle⟩
    · rw [← hkept.row]
      unfold SecurityValidator.resyncMetagraph
      split <;> rfl
    · have hstays : metagraph.hotkeys[uid]? = some hotkey := by
        have hafter : (v.resyncMetagraph metagraph).metagraph = metagraph := by
          unfold SecurityValidator.resyncMetagraph
          split <;> rfl
        rw [← hafter]
        exact houtage.stays
      rw [scores_resync metagraph hkept.synced hkept.at_uid hstays]
      exact hs'
  have hmember : hotkey ∈ v.metagraph.hotkeys := List.mem_of_getElem? hkept.at_uid
  have hrow : u.catScores.cells.get? hotkey = start.catScores.cells.get? hotkey :=
    (piece.rows hotkey hmember houtage.faulted).trans hkept.row
  have hscore : u.scores[uid]? = some s' := by
    rw [piece.same.scores]
    exact hs'
  rcases piece.ends with ⟨rfl, -⟩ | ⟨now, rfl, hstarted, hended, hasked⟩
  · exact ⟨hsynced', hclock', houtage.stays, hrow, s, s', hs, hscore, hle⟩
  refine ⟨hsynced', hclock', houtage.stays, hrow, s, ?_⟩
  rw [scores_conclude now (piece.same.synced hkept.synced) houtage.stays]
  by_cases hkey : hotkey ∈ u.catScores.cells.keys
  · have hkey₀ : hotkey ∈ start.catScores.cells.keys := by
      rw [Dict.mem_keys_iff] at hkey ⊢
      rwa [← hrow]
    have hfresh : StaysFresh cfg hotkey t₀ now u := by
      intro category hactive cell hcell
      rw [cell_of_row category (hrow.trans hkept.row.symm)] at hcell
      exact houtage.fresh now hended hasked category hactive cell hcell
    refine ⟨_, hs, if_pos hkey, (hcovered hkey₀ s hs).trans ?_⟩
    exact freshAggregate_mono hrow (hkept.clock.running now hstarted) hfresh
  · exact ⟨s', hs, (if_neg hkey).trans hscore, hle⟩

/-- After a round that asked somebody, every score is covered by what was fresh then. -/
theorem covered_of_ended {t : Transition (SecurityValidator δ) RoundAction} {t₀ : ℚ} {uid : Nat}
    {hotkey : String} (h : t.before.step o py cfg t.action = some t.after)
    (hsynced : Synced t.before) (hended : endedAt cfg t = some t₀) (hasked : ¬ NobodyAsked cfg t)
    (hat : t.after.metagraph.hotkeys[uid]? = some hotkey) :
    ClockFrom t₀ t.after ∧ Covered cfg t₀ uid hotkey t.after := by
  constructor
  · obtain ⟨u, -, hconclude⟩ := conclude_of_ended h hended hasked
    rw [hconclude]
    exact clock_conclude (le_refl t₀)
  · intro hkey s hs
    have hrecomputed := recomputed_of_ended h hsynced hended hasked uid hotkey hat hkey
    exact le_of_eq (Option.some.inj (hs.symm.trans hrecomputed))

/-- A miner whose every evaluation the validator itself spoils keeps its score, in a run in which no
    cell that earned it something goes stale. -/
theorem outage_keeps_score {metagraph : Metagraph} {catScores : CategoryScores}
    {listedAgents : List String} {world : World δ} {v₀ : SecurityValidator δ}
    {actions : List RoundAction} {t₀ : ℚ} {uid : Nat} {hotkey : String}
    (hreached : Reachable (SecurityValidator.step o py cfg)
      (SecurityValidator.initial metagraph catScores listedAgents world) v₀)
    (ht₀ : 0 < t₀) (hclock : ClockFrom t₀ v₀) (hcovered : Covered cfg t₀ uid hotkey v₀)
    (hat : v₀.metagraph.hotkeys[uid]? = some hotkey)
    (houtage : ∀ t ∈ transitions (SecurityValidator.step o py cfg) v₀ actions,
      Outage o py cfg t₀ uid hotkey t) :
    ∀ t ∈ transitions (SecurityValidator.step o py cfg) v₀ actions,
      ∃ s s', v₀.scores[uid]? = some s ∧ t.after.scores[uid]? = some s' ∧ s ≤ s' := by
  have hsynced : Synced v₀ :=
    hreached.keeps (synced_initial metagraph catScores listedAgents world) synced_step
  have hlt : uid < v₀.scores.length := by
    rw [hsynced.scores, ← length_hotkeys]
    exact (List.getElem?_eq_some_iff.mp hat).1
  have hkept₀ : Kept v₀ t₀ uid hotkey v₀ :=
    ⟨hsynced, hclock, hat, rfl, _, _, List.getElem?_eq_getElem hlt, List.getElem?_eq_getElem hlt,
      le_refl _⟩
  intro t ht
  have hkept : Kept v₀ t₀ uid hotkey t.before :=
    invariant (fun _ h hk hG => kept_step ht₀ hcovered h hk hG) hkept₀ houtage t ht
  exact (kept_step ht₀ hcovered (step_of_mem t ht) hkept (houtage t ht)).score

/-- A round in which the miner answers with a blob, and the download fails. -/
def spoiledRound (now : ℚ) : List RoundAction :=
  [.begin now, .answered (some [⟨some true, "b", "", ""⟩]), .next 0,
    .evaluated { download := .error ⟨.osError, "unreachable"⟩, job := plainInput }, .next 0]

theorem outage_keeps_score_short :
    let step := SecurityValidator.step calmOutside cpython roundSettings
    let run := transitions step roundStart (declinedRound 200)
    (run.filterMap fun t => (endedAt roundSettings t).map fun now => (now, t.after.scores)) =
        [(200, [1 / 2])] ∧
      ∀ start ∈ run, endedAt roundSettings start = some 200 →
        ∀ t ∈ transitions step start.after (spoiledRound 600),
          ∃ s s', start.after.scores[0]? = some s ∧ t.after.scores[0]? = some s' ∧ s ≤ s' := by
  have hrun : ∀ start ∈ transitions (SecurityValidator.step calmOutside cpython roundSettings)
      roundStart (declinedRound 200), endedAt roundSettings start = some 200 →
      ¬ NobodyAsked roundSettings start ∧
        start.after.metagraph.hotkeys[0]? = some "5Miner" ∧
        ∀ t ∈ transitions (SecurityValidator.step calmOutside cpython roundSettings) start.after
          (spoiledRound 600), Outage calmOutside cpython roundSettings 200 0 "5Miner" t := by
    decide +kernel
  refine ⟨by decide +kernel, ?_⟩
  intro start hstart hended
  obtain ⟨hasked, hat, houtage⟩ := hrun start hstart hended
  have hsynced : Synced start.before :=
    invariant (fun _ h hs _ => synced_step h hs) (synced_initial _ _ _ _) (fun _ _ => trivial) start
      hstart
  obtain ⟨hclock, hcovered⟩ :=
    covered_of_ended (step_of_mem start hstart) hsynced hended hasked hat
  exact outage_keeps_score (reachable_of_mem .start start hstart) (by norm_num) hclock hcovered hat
    houtage

/-- An outage that outlasts the window: the miner's score is gone. -/
theorem long_outage_loses_score :
    ¬ ∀ (o : Outside Unit) (py : Interpreter) (cfg : SecuritySettings) (metagraph : Metagraph)
      (catScores : CategoryScores) (listedAgents : List String) (world : World Unit)
      (v₀ : SecurityValidator Unit) (actions : List RoundAction) (uid : Nat) (hotkey : String),
      Reachable (SecurityValidator.step o py cfg)
        (SecurityValidator.initial metagraph catScores listedAgents world) v₀ →
      v₀.metagraph.hotkeys[uid]? = some hotkey →
      (∀ t ∈ transitions (SecurityValidator.step o py cfg) v₀ actions,
        t.after.metagraph.hotkeys[uid]? = some hotkey ∧ rewardedTo o py cfg t ≠ some hotkey) →
      ∀ t ∈ transitions (SecurityValidator.step o py cfg) v₀ actions,
        ∃ s s', v₀.scores[uid]? = some s ∧ t.after.scores[uid]? = some s' ∧ s ≤ s' := by
  intro h
  have hlost : (transitions (SecurityValidator.step calmOutside cpython roundSettings) roundStart
      (declinedRound 200)).any (fun start => start.after.scores == [1 / 2] &&
        start.after.metagraph.hotkeys == ["5Miner"] &&
        let run := transitions (SecurityValidator.step calmOutside cpython roundSettings) start.after
          (spoiledRound 9000)
        run.all (fun t => t.after.metagraph.hotkeys == ["5Miner"] &&
          rewardedTo calmOutside cpython roundSettings t == none) &&
        run.any fun t => t.after.scores == [0]) = true := by decide +kernel
  obtain ⟨start, hstart, hfacts⟩ := List.any_eq_true.mp hlost
  simp only [Bool.and_eq_true, beq_iff_eq, List.all_eq_true, List.any_eq_true] at hfacts
  obtain ⟨⟨hscores, hhotkeys⟩, hspoiled, t, hmem, hzero⟩ := hfacts
  obtain ⟨s, s', hs, hs', hle⟩ := h calmOutside cpython roundSettings (oneNeuron "10.0.0.1")
    observedOnce [] { outside := () } start.after (spoiledRound 9000) 0 "5Miner"
    (reachable_of_mem .start start hstart) (by rw [hhotkeys]; rfl)
    (fun t ht => ⟨by rw [(hspoiled t ht).1]; rfl, by rw [(hspoiled t ht).2]; simp⟩) t hmem
  rw [hscores] at hs
  rw [hzero] at hs'
  have hbefore : 1 / 2 = s := Option.some.inj hs
  have hafter : 0 = s' := Option.some.inj hs'
  rw [← hbefore, ← hafter] at hle
  exact absurd hle (by norm_num)

end TaoSubnet
