import TaoSubnet.Security.CategoryScores
import TaoSubnet.Security.Evaluate
import TaoSubnet.Security.Marketplace

/-!
# A security round, and what runs beside it

`security_round` of `neurons/security_validator.py`, with `resync_metagraph` of
`template/base/validator.py`. The round is a task of its own: at each of its awaits the event loop
goes on, and the base class may resync the metagraph. So a round is a machine here. Its states are
the awaits and the turns of its loop; an action is one piece of code that runs without an await,
together with what it is answered. A resync is enabled only while the round is not running.
-/

namespace TaoSubnet

open Py

/-! ## The metagraph -/

structure Axon where
  hotkey : String
  ip : String
  port : Nat
  deriving DecidableEq, Repr

def Axon.isServing (axon : Axon) : Bool := axon.ip != "0.0.0.0"

structure Neuron where
  axon : Axon
  validatorPermit : Bool
  deriving DecidableEq, Repr

/-- The neurons by uid. A hotkey is registered once. -/
structure Metagraph where
  neurons : List Neuron
  nodup : (neurons.map fun neuron => neuron.axon.hotkey).Nodup

namespace Metagraph

def axons (m : Metagraph) : List Axon := m.neurons.map Neuron.axon

def hotkeys (m : Metagraph) : List String := m.neurons.map fun neuron => neuron.axon.hotkey

end Metagraph

/-! ## The validator -/

/-- An answer to the ask. `hasAgent` is absent where the miner was never reached. -/
structure SecurityAgentResponse where
  hasAgent : Option Bool
  blobUrl : String := ""
  ciphertextSha256 : String := ""
  imageRef : String := ""
  deriving DecidableEq, Repr

/-- Has the answer an agent, and something to fetch it by? -/
def SecurityAgentResponse.usable (response : SecurityAgentResponse) : Bool :=
  response.hasAgent = some true &&
    (strip response.blobUrl != "" || strip response.imageRef != "")

/-- What the loop has still to look at: a uid, the axon that was asked there, and its answer. -/
structure Answer where
  uid : Nat
  axon : Axon
  response : SecurityAgentResponse

/-- The locals of a round that its loop writes. -/
structure RoundLocals where
  now : ℚ
  rewards : List (Nat × ℚ) := []
  skipped : List Nat := []
  pendingPushes : List AgentPayload := []

/-- Where a round is. In `asking`, `evaluating` and `publishing` it awaits. -/
inductive RoundState
  | idle
  | asking (now : ℚ) (uids : List Nat) (axons : List Axon)
  | looping (locals : RoundLocals) (rest : List Answer)
  | evaluating (locals : RoundLocals) (hotkey : String) (answer : Answer) (rest : List Answer)
  | publishing (locals : RoundLocals)

/-- Does the round await something, or not run at all? -/
def RoundState.suspended : RoundState → Bool
  | .looping _ _ => false
  | _ => true

/-- `hotkeys` is the base class's own copy; `published` are the records that were sent. -/
structure SecurityValidator (δ : Type) where
  metagraph : Metagraph
  hotkeys : List String
  scores : List ℚ
  catScores : CategoryScores := {}
  world : World δ
  listedAgents : List String := []
  published : List AgentPayload := []
  lastSecurityRoundAt : ℚ := 0
  round : RoundState := .idle

/-- What is fixed for the life of a validator. `marketplace` is absent where none is configured:
    the score an agent enters at, and the tolerance. -/
structure SecuritySettings where
  ownHotkey : String
  queryValidators : Bool := false
  intervalS : ℚ := 300
  roundBudgetS : ℚ := 240
  activeCategories : List String := ["sqli"]
  freshnessS : ℚ := 1800
  marketplace : Option (ℚ × ℚ) := none
  netuid : Int := 0
  mechid : Int := 1
  decrypt : List UInt8 → Option (List UInt8)

/-- What an evaluation meets on its host. -/
structure EvaluationHost where
  download : Except Exc (List UInt8) := .ok []
  tarPath : String := ""
  readTar : List UInt8 → TarStream := fun _ => ⟨[], none⟩
  receivedAt : String := ""
  job : JobInput
  /-- The clock when the outcome is folded in. -/
  updatedAt : ℚ := 0

/-- The pieces of a round, and a resync. -/
inductive RoundAction
  | begin (now : ℚ)
  /-- The ask returned; `none` where it raised. -/
  | answered (responses : Option (List SecurityAgentResponse))
  | next (elapsed : ℚ)
  | evaluated (host : EvaluationHost)
  | sent
  | resync (metagraph : Metagraph)

namespace SecurityValidator

variable {δ : Type} (o : Outside δ) (py : Interpreter) (cfg : SecuritySettings)

/-- `__init__`: nobody has a score yet; the matrix and the listed agents are those of the last
    process. -/
def initial (metagraph : Metagraph) (catScores : CategoryScores) (listedAgents : List String)
    (world : World δ) : SecurityValidator δ where
  metagraph := metagraph
  hotkeys := metagraph.hotkeys
  scores := List.replicate metagraph.neurons.length 0
  catScores := catScores
  world := world
  listedAgents := listedAgents
  published := []

/-! ## The ask -/

/-- `get_miner_uids`. -/
def minerUids (v : SecurityValidator δ) : List Nat :=
  (v.metagraph.neurons.zipIdx.filter fun p =>
    p.1.axon.isServing && p.1.axon.hotkey != cfg.ownHotkey &&
      (cfg.queryValidators || !p.1.validatorPermit)).map Prod.snd

/-- The round up to its ask: nothing while the interval runs, and nothing but the time of the round
    where nobody is to be asked. -/
def beginRound (v : SecurityValidator δ) (now : ℚ) : SecurityValidator δ :=
  if v.lastSecurityRoundAt ≠ 0 ∧ now - v.lastSecurityRoundAt < max 0 cfg.intervalS then v
  else
    let uids := v.minerUids cfg
    if uids.isEmpty then { v with lastSecurityRoundAt := now }
    else { v with round := .asking now uids (uids.filterMap fun uid => v.metagraph.axons[uid]?) }

/-- `zip(miner_uids, responses)`, each with the axon that answered. -/
def answersOf (uids : List Nat) (axons : List Axon) (responses : List SecurityAgentResponse) :
    List Answer :=
  (uids.zip (axons.zip responses)).map fun p => ⟨p.1, p.2.1, p.2.2⟩

/-- The ask is back. What it raises ends the round. -/
def takeAnswers (v : SecurityValidator δ) (now : ℚ) (uids : List Nat) (axons : List Axon)
    (responses : Option (List SecurityAgentResponse)) : SecurityValidator δ :=
  match responses with
  | none => { v with round := .idle }
  | some responses => { v with round := .looping { now := now } (answersOf uids axons responses) }

/-! ## The end of a round -/

/-- `_recompute_all_scores`: the aggregate of every hotkey with history that has a uid. -/
def recomputeAllScores (v : SecurityValidator δ) (now : ℚ) : List (Nat × ℚ) :=
  v.catScores.cells.keys.filterMap fun hotkey =>
    (v.metagraph.hotkeys.idxOf? hotkey).map fun uid =>
      (uid, v.catScores.aggregate hotkey cfg.activeCategories now (some cfg.freshnessS))

/-- `_update_from_rewards`: written where there is a score to write. -/
def updateFromRewards (rewards : List (Nat × ℚ)) (scores : List ℚ) : List ℚ :=
  rewards.foldl (fun scores p => scores.set p.1 p.2) scores

/-- After the records were sent. -/
def conclude (v : SecurityValidator δ) (now : ℚ) : SecurityValidator δ :=
  { v with
    scores := updateFromRewards (v.recomputeAllScores cfg now) v.scores
    lastSecurityRoundAt := now
    round := .idle }

/-- The loop is over: the matrix is pruned if anything was folded in, and the records are sent. -/
def endLoop (v : SecurityValidator δ) (locals : RoundLocals) : SecurityValidator δ :=
  let v := if locals.rewards.isEmpty && locals.skipped.isEmpty then v
    else { v with catScores := v.catScores.prune v.metagraph.hotkeys }
  if cfg.marketplace.isNone || locals.pendingPushes.isEmpty then v.conclude cfg locals.now
  else { v with
    published := v.published ++ locals.pendingPushes
    round := .publishing locals }

/-! ## The loop -/

/-- The head of the loop. The hotkey is read from the metagraph of this moment; where the uid is
    gone, the read raises, and the round ends there. -/
def nextAnswer (v : SecurityValidator δ) (locals : RoundLocals) (rest : List Answer) (elapsed : ℚ) :
    SecurityValidator δ :=
  match rest with
  | [] => v.endLoop cfg locals
  | answer :: rest =>
    if cfg.roundBudgetS < elapsed then v.endLoop cfg locals
    else if answer.response.hasAgent ≠ some true then { v with round := .looping locals rest }
    else match v.metagraph.hotkeys[answer.uid]? with
      | none => { v with round := .idle }
      | some hotkey =>
        if answer.response.usable then { v with round := .evaluating locals hotkey answer rest }
        else { v with round := .looping locals rest }

def blobInput (hotkey : String) (response : SecurityAgentResponse) (host : EvaluationHost) :
    BlobInput where
  download := host.download
  ciphertextSha256 := strip response.ciphertextSha256
  decrypt := cfg.decrypt
  tarPath := host.tarPath
  readTar := host.readTar
  minerId := hotkey
  receivedAt := host.receivedAt
  job := host.job

def refInput (hotkey : String) (response : SecurityAgentResponse) (host : EvaluationHost) :
    RefInput where
  imageRef := strip response.imageRef
  minerId := hotkey
  receivedAt := host.receivedAt
  job := host.job

/-- The blob or the reference, evaluated for `hotkey`. The blob wins where both are given. -/
def evaluation (hotkey : String) (response : SecurityAgentResponse) (host : EvaluationHost) :
    Prog (World δ) Halt EvalOutcome :=
  if strip response.blobUrl ≠ "" then evaluateBlob o py (blobInput cfg hotkey response host)
  else evaluate o py (refInput hotkey response host)

/-- `_queue_marketplace_push`: the listed agents, and the record, if this evaluation has one. -/
def queueMarketplacePush (v : SecurityValidator δ) (uid : Nat) (hotkey : String)
    (outcome : EvalOutcome) (aggregate now : ℚ) : List String × Option AgentPayload :=
  match cfg.marketplace, outcome.job with
  | some (minScore, tolerance), some job =>
    if shouldPublish aggregate outcome.agentId v.listedAgents minScore tolerance then
      let agentId := outcome.agentId.getD ""
      let categoryScores := cfg.activeCategories.filterMap fun category =>
        (v.catScores.categoryScore hotkey category).map fun score => (category, score)
      let context : PayloadContext :=
        ⟨agentId, hotkey, uid, cfg.netuid, cfg.mechid, cfg.ownHotkey⟩
      (if v.listedAgents.contains agentId then v.listedAgents else v.listedAgents ++ [agentId],
        buildAgentPayload context aggregate categoryScores job now)
    else (v.listedAgents, none)
  | _, _ => (v.listedAgents, none)

/-- An outcome with a reward, folded in: the cell, the miner's aggregate, and the record. -/
def scoreOutcome (v : SecurityValidator δ) (locals : RoundLocals) (hotkey : String) (uid : Nat)
    (outcome : EvalOutcome) (reward updatedAt : ℚ) : SecurityValidator δ × RoundLocals :=
  let v := match outcome.category with
    | some category => { v with catScores := v.catScores.update hotkey category reward updatedAt }
    | none => v
  let aggregate :=
    v.catScores.aggregate hotkey cfg.activeCategories locals.now (some cfg.freshnessS)
  let (listed, record) := v.queueMarketplacePush cfg uid hotkey outcome aggregate locals.now
  ({ v with listedAgents := listed },
    { locals with
      rewards := locals.rewards ++ [(uid, aggregate)]
      pendingPushes := locals.pendingPushes ++ record.toList })

/-- An evaluation is over. What it raises, the loop passes over. -/
def takeOutcome (v : SecurityValidator δ) (locals : RoundLocals) (hotkey : String)
    (answer : Answer) (rest : List Answer) (host : EvaluationHost) : SecurityValidator δ :=
  let (result, world) := evaluation o py cfg hotkey answer.response host v.world
  let v := { v with world := world }
  match result with
  | .error _ => { v with round := .looping locals rest }
  | .ok outcome =>
    match outcome.reward with
    | none =>
      { v with round := .looping { locals with skipped := locals.skipped ++ [answer.uid] } rest }
    | some reward =>
      let (v, locals) := v.scoreOutcome cfg locals hotkey answer.uid outcome reward host.updatedAt
      { v with round := .looping locals rest }

/-! ## The base class -/

/-- The scores of the uids whose hotkey was replaced, zeroed. -/
def zeroReplaced : List String → List String → List ℚ → List ℚ
  | old :: olds, new :: news, score :: scores =>
    (if old ≠ new then 0 else score) :: zeroReplaced olds news scores
  | _, _, scores => scores

/-- `resync_metagraph`. -/
def resyncMetagraph (v : SecurityValidator δ) (metagraph : Metagraph) : SecurityValidator δ :=
  if v.metagraph.axons = metagraph.axons then { v with metagraph := metagraph }
  else
    let scores := zeroReplaced v.hotkeys metagraph.hotkeys v.scores
    { v with
      metagraph := metagraph
      scores := (scores.take metagraph.neurons.length).rightpad metagraph.neurons.length 0
      hotkeys := metagraph.hotkeys }

/-! ## The machine -/

/-- One piece of a round, or a resync; `none` where it cannot happen. -/
def step (v : SecurityValidator δ) (action : RoundAction) : Option (SecurityValidator δ) :=
  match action, v.round with
  | .begin now, .idle => some (v.beginRound cfg now)
  | .answered responses, .asking now uids axons => some (v.takeAnswers now uids axons responses)
  | .next elapsed, .looping locals rest => some (v.nextAnswer cfg locals rest elapsed)
  | .evaluated host, .evaluating locals hotkey answer rest =>
    some (v.takeOutcome o py cfg locals hotkey answer rest host)
  | .sent, .publishing locals => some (v.conclude cfg locals.now)
  | .resync metagraph, round => if round.suspended then some (v.resyncMetagraph metagraph) else none
  | _, _ => none

/-- What a step does, with the state of the round it needs. -/
inductive Stepped (v : SecurityValidator δ) : RoundAction → SecurityValidator δ → Prop
  | begin (now : ℚ) (hround : v.round = .idle) : Stepped v (.begin now) (v.beginRound cfg now)
  | answered {now : ℚ} {uids : List Nat} {axons : List Axon}
      (responses : Option (List SecurityAgentResponse)) (hround : v.round = .asking now uids axons) :
      Stepped v (.answered responses) (v.takeAnswers now uids axons responses)
  | next {locals : RoundLocals} {rest : List Answer} (elapsed : ℚ)
      (hround : v.round = .looping locals rest) :
      Stepped v (.next elapsed) (v.nextAnswer cfg locals rest elapsed)
  | evaluated {locals : RoundLocals} {hotkey : String} {answer : Answer} {rest : List Answer}
      (host : EvaluationHost) (hround : v.round = .evaluating locals hotkey answer rest) :
      Stepped v (.evaluated host) (v.takeOutcome o py cfg locals hotkey answer rest host)
  | sent {locals : RoundLocals} (hround : v.round = .publishing locals) :
      Stepped v .sent (v.conclude cfg locals.now)
  | resync (metagraph : Metagraph) : Stepped v (.resync metagraph) (v.resyncMetagraph metagraph)

variable {o py cfg}

theorem stepped {v v' : SecurityValidator δ} {action : RoundAction}
    (h : v.step o py cfg action = some v') : Stepped o py cfg v action v' := by
  unfold step at h
  cases action with
  | resync metagraph =>
    dsimp only at h
    split at h
    · cases h
      exact .resync metagraph
    · cases h
  | begin now =>
    cases hround : v.round <;> rw [hround] at h <;> cases h
    exact .begin now hround
  | answered responses =>
    cases hround : v.round <;> rw [hround] at h <;> cases h
    exact .answered responses hround
  | next elapsed =>
    cases hround : v.round <;> rw [hround] at h <;> cases h
    exact .next elapsed hround
  | evaluated host =>
    cases hround : v.round <;> rw [hround] at h <;> cases h
    exact .evaluated host hround
  | sent =>
    cases hround : v.round <;> rw [hround] at h <;> cases h
    exact .sent hround

end SecurityValidator

end TaoSubnet
