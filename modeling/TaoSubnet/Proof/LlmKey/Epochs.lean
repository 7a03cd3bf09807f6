import Mathlib.Data.List.Chain
import Mathlib.Tactic.Linarith
import TaoSubnet.Proof.LlmKey.Clock

/-!
# What a roll promises

Three promises the epoch code makes in its comments and in `docs/`, each with the exact condition
under which it is kept:

* an unreadable chain changes nothing — `roll_unreadable_iff`;
* a closed window is paid for one epoch and at most a sliver — `paid_window_age_iff`;
* only the immediately preceding epoch is ever paid — `closed_is_preceding_iff`.

The last two are about whole runs, and are proved on the `EpochClock` of the run (`run_clock`).
-/

namespace TaoSubnet

open Py

variable (cfg : LlmKeyConfig)

/-! ## An unreadable chain -/

/-- The read raised, or returned nothing. -/
def Unreadable (answer : Except Exc (Option Int)) : Prop := ∀ n, answer ≠ .ok (some n)

/-- At least one of the three reads of a roll fails; a validator without a connection has none. -/
def SomeReadFails : Option ChainReads → Prop
  | none => True
  | some chain =>
    Unreadable chain.getCurrentBlock ∨
    (∃ block, chain.getCurrentBlock = .ok (some block) ∧
      Unreadable (chain.blocksSinceLastStep block)) ∨
    Unreadable chain.tempo

/-- The four fields an unreadable roll is to leave alone. -/
def Untouched (v v' : Validator) : Prop :=
  v'.llmKeyPendingCalls = v.llmKeyPendingCalls ∧
  v'.llmKeyLastEpochCalls = v.llmKeyLastEpochCalls ∧
  v'.llmKeyEpochStartBlock = v.llmKeyEpochStartBlock ∧
  v'.scores = v.scores

/-- The start of the epoch is readable and has moved, and only the tempo is not readable. -/
def OnlyTempoFails (v : Validator) (chain : Option ChainReads) : Prop :=
  ∃ reads start, chain = some reads ∧ currentEpochStartBlock chain = some start ∧
    some start ≠ v.llmKeyEpochStartBlock ∧ Unreadable reads.tempo

theorem epochLength_of_unreadable {reads : ChainReads} (h : Unreadable reads.tempo) :
    epochLengthBlocks (some reads) = none := by
  cases ht : reads.tempo with
  | error e => simp only [epochLengthBlocks, ht]
  | ok answer =>
    cases answer with
    | none => simp only [epochLengthBlocks, ht]
    | some n => exact absurd ht (h n)

/-- A start is read exactly when both of its reads answer. -/
theorem currentEpochStart_some {reads : ChainReads} {start : Int}
    (h : currentEpochStartBlock (some reads) = some start) :
    ∃ block since, reads.getCurrentBlock = .ok (some block) ∧
      reads.blocksSinceLastStep block = .ok (some since) ∧ start = block - since := by
  simp only [currentEpochStartBlock] at h
  split at h
  · rename_i block hb
    split at h
    · rename_i since hs
      exact ⟨block, since, hb, hs, (Option.some.inj h).symm⟩
    · cases h
  · cases h

/-- Where the start is readable, a failed read is a failed read of the tempo. -/
theorem tempo_of_someReadFails {reads : ChainReads} {start : Int}
    (hs : currentEpochStartBlock (some reads) = some start) (h : SomeReadFails (some reads)) :
    Unreadable reads.tempo := by
  obtain ⟨block, since, hb, hsince, -⟩ := currentEpochStart_some hs
  rcases h with hf | ⟨block', hb', hf⟩ | ht
  · exact absurd hb (hf block)
  · rw [hb] at hb'
    cases hb'
    exact absurd hsince (hf since)
  · exact ht

theorem isSliver_unreadable (previous : Option Int) (start : Int) :
    isSliver previous none start = false := by
  cases previous <;> rfl

theorem isContiguous_unreadable (previous : Option Int) (start : Int) :
    isContiguous previous none start = false := by
  cases previous <;> rfl

/-- Scoring an empty window visits no hotkey. -/
theorem scoreLastEpoch_empty {v : Validator} (h : v.llmKeyLastEpochCalls = ∅) :
    scoreLastEpoch cfg v = (.ok (), { v with scores := List.replicate v.scores.length 0 }) := by
  have hk : v.llmKeyLastEpochCalls.keys = [] := by
    rw [h]
    rfl
  unfold scoreLastEpoch
  rw [Prog.bind_ok (Prog.get_run v)]
  simp only [hk]
  exact Prog.tryExcept_ok rfl

/-- **A moved start with an unreadable tempo empties both windows**, whatever was in them. -/
theorem roll_onlyTempoFails {v : Validator} {chain : Option ChainReads} {start : Int}
    {reads : ChainReads} (hc : chain = some reads) (hs : currentEpochStartBlock chain = some start)
    (hp : some start ≠ v.llmKeyEpochStartBlock) (ht : Unreadable reads.tempo) :
    rollEpochIfNeeded cfg chain v =
      (.ok (), { moveWindows v start false with
        scores := List.replicate v.scores.length 0 }) := by
  subst hc
  have hlen : epochLengthBlocks (some reads) = none := epochLength_of_unreadable ht
  rcases roll_cases cfg (some reads) v with ⟨hn | ⟨s, hs', hp'⟩, -⟩ | ⟨s, hs', -, hv, -⟩ |
    ⟨s, hs', -, -, hr⟩
  · rw [hs] at hn
    cases hn
  · rw [hs] at hs'
    cases hs'
    exact absurd hp' hp
  · rw [hlen, isSliver_unreadable] at hv
    cases hv
  · rw [hs] at hs'
    cases hs'
    rw [hr, hlen, isContiguous_unreadable]
    exact scoreLastEpoch_empty cfg rfl

/-- **When an unreadable chain changes nothing**: in every state and for every combination of
    failing reads, except that the tempo alone fails at a moved start. -/
theorem roll_unreadable_iff (v : Validator) (chain : Option ChainReads) :
    (SomeReadFails chain → Untouched v (rollEpochIfNeeded cfg chain v).2) ↔
      ¬ OnlyTempoFails v chain := by
  constructor
  · rintro h ⟨reads, start, hc, hs, hp, ht⟩
    have hr := roll_onlyTempoFails cfg hc hs hp ht
    subst hc
    obtain ⟨-, -, he, -⟩ := h (.inr (.inr ht))
    rw [hr] at he
    exact hp he
  · intro h hf
    rcases roll_cases cfg chain v with ⟨-, hr⟩ | ⟨start, hs, hp, -, -⟩ | ⟨start, hs, hp, -, -⟩
    · rw [hr]
      exact ⟨rfl, rfl, rfl, rfl⟩
    all_goals
      cases chain with
      | none => cases hs
      | some reads => exact absurd ⟨reads, start, rfl, hs, hp, tempo_of_someReadFails hs hf⟩ h

/-- A validator at epoch 1000 that has folded one row of two calls. -/
def collecting : Validator :=
  { llmKeyEpochStartBlock := some 1000
    llmKeyPendingCalls := Dict.empty.insert "hk"
      ⟨Dict.empty.insert "1" { successCount := 2 }, 5, 5⟩ }

/-- Block 1361 begins the next epoch; `tempo` raises. -/
def tempoRaises : ChainReads where
  getCurrentBlock := .ok (some 1370)
  blocksSinceLastStep := fun _ => .ok (some 9)
  tempo := .error ⟨.timeoutExpired, "rpc"⟩

/-- The collected row is lost. -/
theorem roll_loses_row_when_tempo_raises :
    ¬ ∀ (cfg : LlmKeyConfig) (v : Validator) (chain : Option ChainReads),
      SomeReadFails chain → Untouched v (rollEpochIfNeeded cfg chain v).2 := by
  intro h
  have hf : Unreadable tempoRaises.tempo := fun _ hn => by cases hn
  obtain ⟨hpending, -⟩ := h {} collecting (some tempoRaises) (.inr (.inr hf))
  exact absurd hpending (by decide)

/-! ## The clock on a list of epoch starts -/

theorem isSliver_iff {previous length start : Int} :
    isSliver (some previous) (some length) start = true ↔
      previous < start ∧ 2 * (start - previous) < length := by
  simp only [isSliver, decide_eq_true_eq, sub_pos, lt_div_iff₀ (two_pos : (0 : ℚ) < 2)]
  refine and_congr_right fun _ => ?_
  rw [mul_comm]
  exact_mod_cast Iff.rfl

theorem isContiguous_iff {previous length start : Int} :
    isContiguous (some previous) (some length) start = true ↔
      previous < start ∧ 2 * (start - previous) ≤ 3 * length := by
  simp only [isContiguous, decide_eq_true_eq, sub_pos]
  refine and_congr_right fun _ => ?_
  have hq : ((start - previous : Int) : ℚ) ≤ 1.5 * (length : ℚ) ↔
      ((2 * (start - previous) : Int) : ℚ) ≤ ((3 * length : Int) : ℚ) := by
    push_cast
    constructor <;> intro h <;> linarith
  rw [hq]
  exact_mod_cast Iff.rfl

namespace EpochClock

variable {length : Int} {c : EpochClock}

/-- The clock of a validator that has never rolled. -/
def fresh : EpochClock := ⟨none, []⟩

/-- Whatever a tick decides, it records the start it was given. -/
@[simp] theorem tick_recorded (l : Option Int) (c : EpochClock) (start : Int) :
    (c.tick l start).recorded = some start := by
  unfold tick
  split
  · rename_i h
    exact h.symm
  · split <;> rfl

theorem ticks_cons (start : Int) (rest : List Int) :
    c.ticks (some length) (start :: rest) = (c.tick (some length) start).ticks (some length) rest :=
  rfl

theorem ticks_append (xs ys : List Int) :
    c.ticks (some length) (xs ++ ys) = (c.ticks (some length) xs).ticks (some length) ys :=
  List.foldl_append ..

theorem ticks_concat (xs : List Int) (start : Int) :
    c.ticks (some length) (xs ++ [start]) =
      (c.ticks (some length) xs).tick (some length) start :=
  ticks_append xs [start]

theorem ticks_recorded (xs : List Int) (start : Int) :
    (c.ticks (some length) (xs ++ [start])).recorded = some start := by
  rw [ticks_concat, tick_recorded]

/-- A repeat or a sliver: the next observed start, less than half an epoch on. -/
def Short (length : Int) (a b : Int) : Prop := a ≤ b ∧ 2 * (b - a) < length

theorem tick_moves_of_short {previous start : Int} (hc : c.recorded = some previous)
    (h : Short length previous start) : (c.tick (some length) start).moves = c.moves := by
  by_cases hp : some start = c.recorded
  · rw [tick_same hp]
  · have hlt : previous < start := by
      rcases Int.lt_or_eq_of_le h.1 with hlt | rfl
      · exact hlt
      · exact absurd hc.symm hp
    rw [tick_sliver hp (by rw [hc]; exact isSliver_iff.mpr ⟨hlt, h.2⟩)]

/-- Any number of short epochs in a row leaves the windows as they are. -/
theorem ticks_moves_of_short {previous : Int} :
    ∀ {rest : List Int} {c : EpochClock}, c.recorded = some previous →
      (previous :: rest).IsChain (Short length) →
      (c.ticks (some length) rest).moves = c.moves := by
  intro rest
  induction rest generalizing previous with
  | nil => intro c _ _; rfl
  | cons start rest ih =>
    intro c hc h
    rw [List.isChain_cons_cons] at h
    rw [ticks_cons, ih (tick_recorded _ c start) h.2, tick_moves_of_short hc h.1]

/-- A start half an epoch on, or farther, moves the windows. -/
theorem tick_of_long {previous start : Int} (hl : 0 < length) (hc : c.recorded = some previous)
    (h : length ≤ 2 * (start - previous)) :
    c.tick (some length) start = ⟨some start, c.moves ++
      [if 2 * (start - previous) ≤ 3 * length then .closed previous start
        else .discarded start]⟩ := by
  have hp : some start ≠ c.recorded := by
    rw [hc]
    intro he
    cases he
    omega
  have hv : isSliver c.recorded (some length) start = false := by
    rw [hc, Bool.eq_false_iff]
    intro ht
    have := (isSliver_iff.mp ht).2
    omega
  rw [tick_move hp hv, hc]
  have hlt : previous < start := by omega
  by_cases hk : 2 * (start - previous) ≤ 3 * length
  · rw [isContiguous_iff.mpr ⟨hlt, hk⟩, if_pos hk]
    rfl
  · rw [Bool.eq_false_iff.mpr fun ht => hk (isContiguous_iff.mp ht).2, if_neg hk]
    rfl

/-- The last thing that happened to the windows as a whole. -/
def lastMove (c : EpochClock) : Option WindowEvent := c.moves.getLast?

/-- **Where the paid window comes from.** The starts observed so far end in a run of short gaps,
    and the window was moved at the head of that run: closed from the start before it, or
    discarded. -/
theorem lastMove_of_ticks (hl : 0 < length) (starts : List Int) :
    starts ≠ [] → starts.Pairwise (· ≤ ·) →
      ∃ before head rest, starts = before ++ head :: rest ∧
        (head :: rest).IsChain (Short length) ∧
        ((fresh.ticks (some length) starts).lastMove = some (.discarded head) ∨
          ∃ before' previous, before = before' ++ [previous] ∧
            length ≤ 2 * (head - previous) ∧ 2 * (head - previous) ≤ 3 * length ∧
            (fresh.ticks (some length) starts).lastMove = some (.closed previous head)) := by
  induction starts using List.reverseRecOn with
  | nil => intro h; exact absurd rfl h
  | append_singleton xs start ih =>
    intro _ hord
    rcases List.eq_nil_or_concat' xs with rfl | ⟨ys, previous, rfl⟩
    · exact ⟨[], start, [], rfl, List.isChain_singleton _, .inl rfl⟩
    · have hrec : (fresh.ticks (some length) (ys ++ [previous])).recorded = some previous :=
        ticks_recorded ys previous
      have hle : previous ≤ start :=
        (List.pairwise_append.mp hord).2.2 previous (by simp) start (by simp)
      by_cases hs : 2 * (start - previous) < length
      · -- one more short gap: the run of short gaps grows at its end
        have hsh : Short length previous start := ⟨hle, hs⟩
        obtain ⟨before, head, rest, heq, hchain, hmove⟩ :=
          ih (by simp) (List.pairwise_append.mp hord).1
        have hlast : (head :: rest).getLast? = some previous := by
          have := congrArg List.getLast? heq
          simpa [List.getLast?_append] using this.symm
        refine ⟨before, head, rest ++ [start], by rw [heq]; simp, ?_, ?_⟩
        · rw [← List.cons_append]
          refine List.isChain_append.mpr ⟨hchain, List.isChain_singleton _, fun x hx y hy => ?_⟩
          rw [hlast] at hx
          cases hx
          cases hy
          exact hsh
        · rw [ticks_concat, lastMove, tick_moves_of_short hrec hsh]
          exact hmove
      · -- a long gap: a new run begins here
        refine ⟨ys ++ [previous], start, [], by simp, List.isChain_singleton _, ?_⟩
        have htick := tick_of_long hl hrec (not_lt.mp hs)
        rw [ticks_concat, htick]
        by_cases hk : 2 * (start - previous) ≤ 3 * length
        · right
          refine ⟨ys, previous, rfl, not_lt.mp hs, hk, ?_⟩
          rw [if_pos hk, lastMove, List.getLast?_concat]
        · left
          rw [if_neg hk, lastMove, List.getLast?_concat]

/-- The other way round: a close followed by short gaps only is still what is paid. -/
theorem lastMove_of_close (hl : 0 < length) {before rest : List Int} {previous head : Int}
    (hlo : length ≤ 2 * (head - previous)) (hhi : 2 * (head - previous) ≤ 3 * length)
    (h : (head :: rest).IsChain (Short length)) :
    (fresh.ticks (some length) (before ++ previous :: head :: rest)).lastMove =
      some (.closed previous head) := by
  have hsplit : before ++ previous :: head :: rest = (before ++ [previous]) ++ head :: rest := by
    simp
  have hrec : (fresh.ticks (some length) (before ++ [previous])).recorded = some previous :=
    ticks_recorded before previous
  rw [hsplit, ticks_append, ticks_cons, lastMove, ticks_moves_of_short (tick_recorded ..) h,
    tick_of_long hl hrec hlo, if_pos hhi, List.getLast?_concat]

end EpochClock

/-! ## The age of the paid window -/

/-- The window being paid was collected in one epoch and closed at the start of another. After a
    discard, and before the first roll, there is none. -/
def PaidFrom (v : Validator) (collectedIn closedAt : Int) : Prop :=
  v.clock.lastMove = some (.closed collectedIn closedAt)

/-- A validator that has never rolled. -/
def Fresh (v : Validator) : Prop := v.clock = EpochClock.fresh

theorem observed_append (v : Validator) (xs ys : List Op) :
    observed cfg v (xs ++ ys) = observed cfg v xs ++ observed cfg (runOps cfg v xs) ys := by
  induction xs generalizing v with
  | nil => rfl
  | cons op rest ih =>
    rw [List.cons_append, observed, observed, ih, List.append_assoc]
    rfl

theorem observed_setWeights {v : Validator} {ops : List Op} {chain : Option ChainReads}
    {start : Int} (hs : currentEpochStartBlock chain = some start) :
    observed cfg v (ops ++ [.setWeights chain]) = observed cfg v ops ++ [start] := by
  rw [observed_append]
  simp only [observed, observedStart, Op.waits, if_false, Op.chain, hs, Option.toList]
  rfl

/-- No window outlives its epoch by a sliver: after every close, the epochs that followed it in
    half-epoch steps have not got half an epoch away from it. -/
def NoLongSliverRun (length start : Int) (starts : List Int) : Prop :=
  ∀ before previous head rest, starts = before ++ previous :: head :: rest →
    length ≤ 2 * (head - previous) → 2 * (head - previous) ≤ 3 * length →
    (head :: rest).IsChain (EpochClock.Short length) → 2 * (start - head) < length

/-- **How old the paid window can be when weights are set.** In every run of a fresh validator on
    a chain whose epochs come in order, the window being paid was closed less than half an epoch
    before the start of the current one exactly when no run of slivers has got that far. -/
theorem paid_window_age_iff {length start : Int} (hl : 0 < length) {v : Validator}
    (hv : Fresh v) {ops : List Op} {chain : Option ChainReads}
    (hs : currentEpochStartBlock chain = some start)
    (hlen : LengthIs length (ops ++ [.setWeights chain]))
    (hord : (observed cfg v (ops ++ [.setWeights chain])).Pairwise (· ≤ ·)) :
    (∀ collectedIn closedAt,
        PaidFrom (runOps cfg v (ops ++ [.setWeights chain])) collectedIn closedAt →
        2 * (start - closedAt) < length) ↔
      NoLongSliverRun length start (observed cfg v (ops ++ [.setWeights chain])) := by
  have hclock := run_clock cfg (ops ++ [.setWeights chain]) v hlen
  rw [hv] at hclock
  have hne : observed cfg v (ops ++ [.setWeights chain]) ≠ [] := by
    rw [observed_setWeights cfg hs]
    simp
  constructor
  · intro h before previous head rest heq hlo hhi hchain
    refine h previous head ?_
    rw [PaidFrom, hclock, heq]
    exact EpochClock.lastMove_of_close hl hlo hhi hchain
  · intro h collectedIn closedAt hpaid
    rw [PaidFrom, hclock] at hpaid
    obtain ⟨before, head, rest, heq, hchain, hmove⟩ :=
      EpochClock.lastMove_of_ticks hl _ hne hord
    rcases hmove with hd | ⟨before', previous, rfl, hlo, hhi, hc⟩
    · rw [hd] at hpaid
      cases hpaid
    · rw [hc] at hpaid
      cases hpaid
      exact h before' collectedIn closedAt rest (by rw [heq]; simp) hlo hhi hchain

theorem fresh_freshValidator : Fresh freshValidator := rfl

/-- The epoch of the good calls closes at 1361; the owner then ends three epochs early. -/
def sliverRun : List Op :=
  [goodPoll, .roll (chainAt 361 1361), .roll (chainAt 361 1461), .roll (chainAt 361 1561)]

theorem paid_window_age_iff_one_sliver :
    (∀ collectedIn closedAt,
        PaidFrom (runOps {} freshValidator ([goodPoll, .roll (chainAt 361 1361)] ++
          [.setWeights (chainAt 361 1461)])) collectedIn closedAt →
        2 * (1461 - closedAt) < 361) ↔
      NoLongSliverRun 361 1461 (observed {} freshValidator
        ([goodPoll, .roll (chainAt 361 1361)] ++ [.setWeights (chainAt 361 1461)])) :=
  paid_window_age_iff {} (by decide) fresh_freshValidator rfl
    (by
      intro op hop _
      simp only [List.cons_append, List.nil_append, List.mem_cons, List.not_mem_nil, or_false] at hop
      rcases hop with rfl | rfl | rfl <;> rfl)
    (by decide)

/-- Three slivers in a row, and the old window is still paid 300 blocks after it was closed. -/
theorem window_outlives_slivers :
    ¬ ∀ (cfg : LlmKeyConfig) (length start : Int) (v : Validator) (ops : List Op)
      (chain : Option ChainReads), 0 < length → Fresh v →
      currentEpochStartBlock chain = some start →
      LengthIs length (ops ++ [.setWeights chain]) →
      (observed cfg v (ops ++ [.setWeights chain])).Pairwise (· ≤ ·) →
      ∀ collectedIn closedAt,
        PaidFrom (runOps cfg v (ops ++ [.setWeights chain])) collectedIn closedAt →
        2 * (start - closedAt) < length := by
  intro h
  have hlen : LengthIs 361 (sliverRun ++ [.setWeights (chainAt 361 1661)]) := by
    intro op hop _
    simp only [sliverRun, List.cons_append, List.nil_append, List.mem_cons, List.not_mem_nil,
      or_false] at hop
    rcases hop with rfl | rfl | rfl | rfl | rfl <;> rfl
  have hpaid : PaidFrom (runOps {} freshValidator
      (sliverRun ++ [.setWeights (chainAt 361 1661)])) 1000 1361 := by
    unfold PaidFrom
    decide +kernel
  exact absurd (h {} 361 1661 freshValidator sliverRun (chainAt 361 1661) (by decide) rfl rfl hlen
    (by decide +kernel) 1000 1361 hpaid) (by decide)

/-- ... and it earns. -/
example : (blendedWeightArray (runOps {} freshValidator sliverRun)).any (0 < ·) = true := by
  decide +kernel

/-! ## Skipped epochs -/

namespace EpochClock

/-- Which closes a run of observed starts makes, when every gap is at least half an epoch: one for
    each pair of neighbours at most one and a half epochs apart. -/
theorem closed_mem_ticks {length : Int} (hl : 0 < length) {a b : Int} :
    ∀ {rest : List Int} {previous : Int} {c : EpochClock}, c.recorded = some previous →
      (previous :: rest).IsChain (fun p q => p = q ∨ length ≤ 2 * (q - p)) →
      (.closed a b ∈ (c.ticks (some length) rest).moves ↔ .closed a b ∈ c.moves ∨
        ((a, b) ∈ (previous :: rest).zip rest ∧ a ≠ b ∧ 2 * (b - a) ≤ 3 * length)) := by
  intro rest
  induction rest with
  | nil => intro previous c _ _; simp [ticks]
  | cons start rest ih =>
    intro previous c hc h
    rw [List.isChain_cons_cons] at h
    rw [ticks_cons, ih (tick_recorded _ c start) h.2]
    simp only [List.zip_cons_cons, List.mem_cons, Prod.mk.injEq]
    rcases h.1 with rfl | hlong
    · rw [tick_same hc.symm]
      refine or_congr_right (and_congr_left fun hne => ⟨.inr, ?_⟩)
      rintro (⟨rfl, rfl⟩ | hm)
      · exact absurd rfl hne.1
      · exact hm
    · rw [tick_of_long hl hc hlong]
      have hne : previous ≠ start := by
        rintro rfl
        omega
      by_cases hk : 2 * (start - previous) ≤ 3 * length
      · rw [if_pos hk]
        simp only [List.mem_append, List.mem_singleton, WindowEvent.closed.injEq]
        constructor
        · rintro ((hm | ⟨rfl, rfl⟩) | hm)
          · exact .inl hm
          · exact .inr ⟨.inl ⟨rfl, rfl⟩, hne, hk⟩
          · exact .inr ⟨.inr hm.1, hm.2⟩
        · rintro (hm | ⟨⟨rfl, rfl⟩ | hm, h2⟩)
          · exact .inl (.inl hm)
          · exact .inl (.inr ⟨rfl, rfl⟩)
          · exact .inr ⟨hm, h2⟩
      · rw [if_neg hk]
        simp only [List.mem_append, List.mem_singleton, reduceCtorEq, or_false]
        constructor
        · rintro (hm | hm)
          · exact .inl hm
          · exact .inr ⟨.inr hm.1, hm.2⟩
        · rintro (hm | ⟨⟨rfl, rfl⟩ | hm, h2⟩)
          · exact .inl hm
          · exact absurd h2.2 hk
          · exact .inr ⟨hm, h2⟩

end EpochClock

/-- Neighbours in a chain are related. -/
theorem rel_of_mem_neighbours {α : Type} {R : α → α → Prop} {a b : α} :
    ∀ {l : List α}, l.IsChain R → (a, b) ∈ l.zip l.tail → R a b := by
  intro l
  induction l with
  | nil => intro _ h; cases h
  | cons x rest ih =>
    intro hc h
    cases rest with
    | nil => cases h
    | cons y rest =>
      rw [List.isChain_cons_cons] at hc
      rcases List.mem_cons.mp h with heq | hm
      · cases heq
        exact hc.1
      · exact ih hc.2 hm

/-- A chain whose epochs all last between half a nominal length and one and a half. -/
def Schedule (length : Int) (epoch : ℕ → Int) : Prop :=
  ∀ n, length ≤ 2 * (epoch (n + 1) - epoch n) ∧ 2 * (epoch (n + 1) - epoch n) ≤ 3 * length

theorem Schedule.gap {length : Int} {epoch : ℕ → Int} (hl : 0 < length)
    (h : Schedule length epoch) {p q : ℕ} (hpq : p < q) :
    length ≤ 2 * (epoch q - epoch p) := by
  induction q, hpq using Nat.le_induction with
  | base => exact (h p).1
  | succ q hq ih =>
    have := (h q).1
    omega

theorem Schedule.injective {length : Int} {epoch : ℕ → Int} (hl : 0 < length)
    (h : Schedule length epoch) {p q : ℕ} (heq : epoch p = epoch q) : p = q := by
  rcases lt_trichotomy p q with hlt | rfl | hlt
  · have := h.gap hl hlt
    omega
  · rfl
  · have := h.gap hl hlt
    omega

/-- Two observed epochs with an unobserved one between them. -/
def Skips (visited : List ℕ) (p q : ℕ) : Prop := (p, q) ∈ visited.zip visited.tail ∧ p + 2 ≤ q

/-- **Which epochs are paid.** On such a chain, whatever epochs the validator is up to observe,
    every window it ever pays was collected in the immediately preceding epoch exactly when the
    epochs it skipped never fit in one and a half nominal lengths. -/
theorem closed_is_preceding_iff {length : Int} (hl : 0 < length) {epoch : ℕ → Int}
    (hsched : Schedule length epoch) {v : Validator} (hv : Fresh v) {ops : List Op}
    (hlen : LengthIs length ops) {visited : List ℕ} (hord : visited.Pairwise (· ≤ ·))
    (hobs : observed cfg v ops = visited.map epoch) :
    (∀ a b, .closed a b ∈ (runOps cfg v ops).history → ∃ n, a = epoch n ∧ b = epoch (n + 1)) ↔
      ∀ p q, Skips visited p q → 3 * length < 2 * (epoch q - epoch p) := by
  have hclock := run_clock cfg ops v hlen
  rw [hv, hobs] at hclock
  have hmem : ∀ a b, WindowEvent.closed a b ∈ (runOps cfg v ops).history ↔
      ∃ p q, (p, q) ∈ visited.zip visited.tail ∧ a = epoch p ∧ b = epoch q ∧ p ≠ q ∧
        2 * (epoch q - epoch p) ≤ 3 * length := by
    intro a b
    have hfilter : WindowEvent.closed a b ∈ (runOps cfg v ops).history ↔
        WindowEvent.closed a b ∈ (runOps cfg v ops).clock.moves := by
      simp [Validator.clock, WindowEvent.isMove]
    rw [hfilter, hclock]
    cases visited with
    | nil => simp [EpochClock.ticks, EpochClock.fresh]
    | cons n rest =>
      have hchain : (epoch n :: rest.map epoch).IsChain
          (fun p q => p = q ∨ length ≤ 2 * (q - p)) := by
        rw [← List.map_cons, List.isChain_map]
        refine (List.Pairwise.isChain hord).imp fun p q hpq => ?_
        rcases Nat.lt_or_eq_of_le hpq with hlt | rfl
        · exact .inr (hsched.gap hl hlt)
        · exact .inl rfl
      rw [List.map_cons, EpochClock.ticks_cons,
        EpochClock.closed_mem_ticks hl (EpochClock.tick_recorded ..) hchain, ← List.map_cons,
        List.zip_map, List.tail_cons]
      have hfirst : (EpochClock.fresh.tick (some length) (epoch n)).moves =
          [.discarded (epoch n)] := rfl
      rw [hfirst]
      simp only [List.mem_singleton, reduceCtorEq, false_or, List.mem_map, Prod.map, Prod.exists,
        Prod.mk.injEq]
      constructor
      · rintro ⟨⟨p, q, hm, rfl, rfl⟩, hne, hk⟩
        exact ⟨p, q, hm, rfl, rfl, fun hpq => hne (congrArg epoch hpq), hk⟩
      · rintro ⟨p, q, hm, rfl, rfl, hne, hk⟩
        exact ⟨⟨p, q, hm, rfl, rfl⟩, fun he => hne (hsched.injective hl he), hk⟩
  constructor
  · rintro h p q ⟨hm, hskip⟩
    by_contra hk
    obtain ⟨n, hp, hq⟩ := h _ _ ((hmem _ _).mpr ⟨p, q, hm, rfl, rfl, by omega, not_lt.mp hk⟩)
    have h1 := hsched.injective hl hp
    have h2 := hsched.injective hl hq
    omega
  · intro h a b hab
    obtain ⟨p, q, hm, rfl, rfl, hne, hk⟩ := (hmem a b).mp hab
    have hle : p ≤ q := rel_of_mem_neighbours (List.Pairwise.isChain hord) hm
    have hq : q = p + 1 := by
      by_contra hne'
      have := h p q ⟨hm, by omega⟩
      omega
    exact ⟨p, rfl, by rw [hq]⟩

theorem closed_is_preceding_iff_nominal :
    (∀ a b, .closed a b ∈ (runOps {} freshValidator
        [.roll (chainAt 361 1000), .roll (chainAt 361 1361)]).history →
        ∃ n : ℕ, a = 1000 + 361 * (n : Int) ∧ b = 1000 + 361 * ((n + 1 : ℕ) : Int)) ↔
      ∀ p q, Skips [0, 1] p q →
        3 * 361 < 2 * ((1000 + 361 * (q : Int)) - (1000 + 361 * (p : Int))) :=
  closed_is_preceding_iff {} (by decide) (fun n => by push_cast; omega) fresh_freshValidator
    (by
      intro op hop _
      simp only [List.mem_cons, List.not_mem_nil, or_false] at hop
      rcases hop with rfl | rfl <;> rfl)
    (by decide) rfl

/-- Two epochs of 181 blocks fit in one and a half nominal ones: the first of them is paid during
    the third. -/
theorem skipped_epoch_is_paid :
    ¬ ∀ (cfg : LlmKeyConfig) (length : Int) (epoch : ℕ → Int) (v : Validator) (ops : List Op)
      (visited : List ℕ), 0 < length → Schedule length epoch → Fresh v → LengthIs length ops →
      visited.Pairwise (· ≤ ·) → observed cfg v ops = visited.map epoch →
      ∀ a b, .closed a b ∈ (runOps cfg v ops).history →
        ∃ n, a = epoch n ∧ b = epoch (n + 1) := by
  intro h
  have hlen : LengthIs 361 [.roll (chainAt 361 1000), .roll (chainAt 361 1362)] := by
    intro op hop _
    simp only [List.mem_cons, List.not_mem_nil, or_false] at hop
    rcases hop with rfl | rfl <;> rfl
  obtain ⟨n, h1, h2⟩ := h {} 361 (fun n => 1000 + 181 * (n : Int)) freshValidator
    [.roll (chainAt 361 1000), .roll (chainAt 361 1362)] [0, 2] (by decide)
    (fun n => by push_cast; omega) rfl hlen (by decide) rfl 1000 1362 (by decide +kernel)
  push_cast at h2
  omega

end TaoSubnet
