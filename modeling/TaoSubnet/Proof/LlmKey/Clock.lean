import TaoSubnet.Proof.LlmKey.Windows

/-!
# The epoch clock

What a roll decides depends on two things only: the epoch start the validator has on record and
the two chain answers. `EpochClock` is that decision on its own — the recorded start and the list
of window moves made so far — and `EpochClock.tick` is one observed epoch start.

`run_clock` connects it to the code: over any list of operations the validator's clock is the
clock of the epoch starts its rolls observed. Everything else an operation does (folding rows,
killing keys, pruning, scoring, a raise in the middle of any of them) leaves the clock alone, so
what is proved about `tick` on a list of integers is proved about the validator.
-/

namespace TaoSubnet

open Py

/-! ## The abstract clock -/

def WindowEvent.isMove : WindowEvent → Bool
  | .closed _ _ => true
  | .discarded _ => true
  | _ => false

/-- The recorded epoch start and the moves of the windows, oldest first. -/
structure EpochClock where
  recorded : Option Int
  moves : List WindowEvent

/-- One observed epoch start: a repeat is nothing, a sliver moves the record and keeps the
    windows, anything else moves both. -/
def EpochClock.tick (length : Option Int) (c : EpochClock) (start : Int) : EpochClock :=
  if some start = c.recorded then c
  else if isSliver c.recorded length start then { c with recorded := some start }
  else
    { recorded := some start
      moves := c.moves ++ [rollEvent c.recorded start (isContiguous c.recorded length start)] }

namespace EpochClock

variable {length : Option Int} {c : EpochClock} {start : Int}

theorem tick_same (h : some start = c.recorded) : c.tick length start = c := by
  rw [tick, if_pos h]

theorem tick_sliver (hp : some start ≠ c.recorded)
    (hv : isSliver c.recorded length start = true) :
    c.tick length start = { c with recorded := some start } := by
  rw [tick, if_neg hp, if_pos hv]

theorem tick_move (hp : some start ≠ c.recorded) (hv : isSliver c.recorded length start = false) :
    c.tick length start = ⟨some start,
      c.moves ++ [rollEvent c.recorded start (isContiguous c.recorded length start)]⟩ := by
  rw [tick, if_neg hp, if_neg (by rw [hv]; decide)]

end EpochClock

def Validator.clock (v : Validator) : EpochClock :=
  ⟨v.llmKeyEpochStartBlock, v.history.filter WindowEvent.isMove⟩

variable (cfg : LlmKeyConfig)

/-! ## What leaves the clock alone -/

/-- Kills and evictions are no moves. -/
theorem clock_invariant (c : EpochClock) : WindowInvariant fun v => v.clock = c where
  frame := by
    rintro v v' rfl ⟨-, -, hs, hh⟩
    simp only [Validator.clock, hs, hh]
  kill := by
    rintro v hotkey subKey reason rfl
    simp [Validator.clock, killHotkeyKey, updateKeyState, WindowEvent.isMove]
  evict := by
    rintro v hotkey rfl
    simp [Validator.clock, evict, WindowEvent.isMove]

/-- Nor is a fold, wherever it ends. -/
theorem clock_fold {c : EpochClock} (hotkey : String) (report : LLMKeyUsageReport) (now : ℚ) :
    Prog.Keeps (fun v => v.clock = c) (foldReportIntoPending hotkey report now) := by
  rintro v rfl
  rcases fold_cases hotkey report now v with ⟨-, h⟩ | ⟨hh, -, hs⟩
  · rw [h]
  · simp only [Validator.clock, hh, hs, List.filter_append]
    simp [WindowEvent.isMove]

/-! ## Runs -/

/-- The chain an operation's roll reads; an operation that does not roll reads none. -/
def Op.chain : Op → Option ChainReads
  | .poll input => input.chain
  | .roll chain => chain
  | .setWeights chain => chain
  | _ => none

/-- The epoch start an operation observes, if it gets to read one. -/
def observedStart (v : Validator) (op : Op) : Option Int :=
  if op.waits cfg v then none else currentEpochStartBlock op.chain

/-- The epoch starts observed along a run. -/
def observed (v : Validator) : List Op → List Int
  | [] => []
  | op :: rest => (observedStart cfg v op).toList ++ observed (op.run cfg v).2 rest

def EpochClock.ticks (length : Option Int) (c : EpochClock) (starts : List Int) : EpochClock :=
  starts.foldl (EpochClock.tick length) c

theorem clock_moveWindows (v : Validator) (start : Int) (contiguous : Bool) :
    (moveWindows v start contiguous).clock =
      ⟨some start, v.clock.moves ++ [rollEvent v.llmKeyEpochStartBlock start contiguous]⟩ := by
  have hm : (rollEvent v.llmKeyEpochStartBlock start contiguous).isMove = true := by
    unfold rollEvent
    cases v.llmKeyEpochStartBlock <;> cases contiguous <;> rfl
  simp [Validator.clock, moveWindows, hm]

/-- One roll is one tick, at whatever length the chain gives there. -/
theorem clock_roll (chain : Option ChainReads) (v : Validator) :
    (rollEpochIfNeeded cfg chain v).2.clock =
      v.clock.ticks (epochLengthBlocks chain) (currentEpochStartBlock chain).toList := by
  rcases roll_cases cfg chain v with ⟨h | ⟨start, hs, hp⟩, hr⟩ | ⟨start, hs, hp, hv, hr⟩ |
    ⟨start, hs, hp, hv, hr⟩
  · rw [hr, h]
    rfl
  · rw [hr, hs]
    exact (EpochClock.tick_same (c := v.clock) hp).symm
  · rw [hr, hs]
    exact (EpochClock.tick_sliver (c := v.clock) hp hv).symm
  · rw [hr, hs]
    refine .trans ?_ (EpochClock.tick_move (c := v.clock) hp hv).symm
    exact ((clock_invariant _).keeps_scoreLastEpoch cfg _ rfl).trans (clock_moveWindows v start _)

/-- After its roll a poll round leaves the clock alone, whatever the backend answers and wherever
    the round aborts. -/
theorem clock_pollReports (input : PollInput) (v : Validator) :
    (pollReports cfg input v).2.clock = v.clock :=
  Prog.Spec.keeps ((clock_invariant v.clock).spec_pollReports cfg (fun _ _ hv => hv)
    (fun hotkey report now => (clock_fold hotkey report now).spec fun _ _ hv => hv) input) v rfl

theorem clock_setWeights (chain : Option ChainReads) (v : Validator) :
    (setWeights cfg chain v).2.clock = (rollEpochIfNeeded cfg chain v).2.clock := by
  unfold setWeights
  rcases hr : rollEpochIfNeeded cfg chain v with ⟨e | _, v'⟩
  · rw [Prog.bind_error hr]
  · rw [Prog.bind_ok hr]
    refine Prog.Keeps.bind (I := fun w => w.clock = v'.clock)
      ((clock_invariant v'.clock).keeps_scoreLastEpoch cfg) (fun _ => ?_) v' rfl
    exact Prog.Keeps.bind Prog.Keeps.get fun _ => Prog.Keeps.ret _

/-- **One operation is at most one tick.** -/
theorem clock_step (op : Op) (v : Validator) :
    (op.run cfg v).2.clock =
      v.clock.ticks (epochLengthBlocks op.chain) (observedStart cfg v op).toList := by
  cases op with
  | poll input =>
    rcases poll_cases cfg input v with ⟨hw, hr⟩ | ⟨hw, e, v', hroll, hr⟩ | ⟨hw, v', hroll, hr⟩
    · rw [observedStart, if_pos hw]
      show (llmKeyReportPollRound cfg input v).2.clock = v.clock
      rw [hr]
    · rw [observedStart, if_neg hw]
      refine .trans ?_ (clock_roll cfg input.chain v)
      show (llmKeyReportPollRound cfg input v).2.clock = _
      rw [hr, hroll]
    · rw [observedStart, if_neg hw]
      refine .trans ?_ (clock_roll cfg input.chain v)
      show (llmKeyReportPollRound cfg input v).2.clock = _
      rw [hr, hroll, clock_pollReports]
  | roll chain => exact clock_roll cfg chain v
  | setWeights chain =>
    refine .trans ?_ (clock_roll cfg chain v)
    rw [run_setWeights, clock_setWeights]
  | score => exact (clock_invariant _).keeps_scoreLastEpoch cfg v rfl
  | kill hotkey subKey reason => exact (clock_invariant _).kill v hotkey subKey reason rfl
  | prune now => exact (clock_invariant _).prune cfg now rfl
  | submission hotkey uid accepted status reason results now => rfl
  | resync hotkeys axonsChanged => exact (clock_invariant _).resync hotkeys axonsChanged rfl

/-- Every epoch start an operation list can read comes with the length `length`. -/
def LengthIs (length : Int) (ops : List Op) : Prop :=
  ∀ op ∈ ops, currentEpochStartBlock op.chain ≠ none → epochLengthBlocks op.chain = some length

/-- **The validator refines the clock**: a run's clock is the clock of what the run observed. -/
theorem run_clock {length : Int} :
    ∀ (ops : List Op) (v : Validator), LengthIs length ops →
      (runOps cfg v ops).clock = v.clock.ticks (some length) (observed cfg v ops)
  | [], _, _ => rfl
  | op :: rest, v, h => by
    have hstep : (op.run cfg v).2.clock =
        v.clock.ticks (some length) (observedStart cfg v op).toList := by
      rw [clock_step]
      cases ho : observedStart cfg v op with
      | none => rfl
      | some start =>
        have hne : currentEpochStartBlock op.chain ≠ none := by
          intro hn
          rw [observedStart, hn] at ho
          split at ho <;> cases ho
        rw [h op List.mem_cons_self hne]
    show (runOps cfg (op.run cfg v).2 rest).clock = _
    rw [run_clock rest _ fun o ho => h o (List.mem_cons_of_mem _ ho), hstep, observed,
      EpochClock.ticks, EpochClock.ticks, EpochClock.ticks, List.foldl_append]

end TaoSubnet
