import Mathlib.Algebra.BigOperators.Group.List.Basic
import Mathlib.Algebra.Order.BigOperators.Group.List
import Mathlib.Data.List.Perm.Basic
import Mathlib.Tactic.Linarith
import Mathlib.Tactic.Ring
import TaoSubnet.Proof.LlmKey.Accounts

/-!
# The tier a window is paid at

The pooled reward blends the tiers of a window's keys, each weighted by its calls. A key's
sub-window holds one tier, and every row writes it anew, so that the last row decides for all the
calls of its key. The blend is the mean over the rows, whatever their order, exactly when no key
with calls has rows of two tiers.
-/

namespace TaoSubnet

open Py

/-! ## The blend, by name -/

/-- The tier of a sub-window; one that was migrated falls back on the submission. -/
def subTier (v : Validator) (hotkey : String) (sub : SubWindow) : ℚ :=
  sub.tier.getD (modelTierWeight v hotkey)

def SubWindow.calls (sub : SubWindow) : Int := sub.successCount + sub.failureCount

/-- `blended_tier` of `_pooled_window_reward`. -/
def blendedTier (v : Validator) (hotkey : String) (subs : List SubWindow) : Except Exc ℚ :=
  let total := (subs.map SubWindow.successCount).sum + (subs.map SubWindow.failureCount).sum
  if 0 < total then do
    let parts ← subs.mapM fun s => mulInt (subTier v hotkey s) s.calls
    divInt parts.sum total
  else pure (modelTierWeight v hotkey)

/-- The sums that the reward is made of, besides the tier. -/
structure Pool where
  successCount : Int
  failureCount : Int
  latencySum : ℚ
  latencyCount : Int
  qualitySum : ℚ
  qualityCount : Int

def Pool.of (subs : List SubWindow) : Pool where
  successCount := (subs.map SubWindow.successCount).sum
  failureCount := (subs.map SubWindow.failureCount).sum
  latencySum := (subs.map SubWindow.latencyMsWeightedSum).sum
  latencyCount := (subs.map SubWindow.latencyWeightedCount).sum
  qualitySum := (subs.map SubWindow.qualityWeightedSum).sum
  qualityCount := (subs.map SubWindow.qualityWeightedCount).sum

def Pool.reward (cfg : LlmKeyConfig) (pool : Pool) (blended : Except Exc ℚ) : Except Exc ℚ := do
  let avgLatencyMs ← weightedMean pool.latencySum pool.latencyCount
  let avgQuality ← weightedMean pool.qualitySum pool.qualityCount
  let blendedTier ← blended
  let reward ← llmKeyEfficiencyScore pool.successCount pool.failureCount
    (avgLatencyMs.map fun l => .fin (l / 1000)) true (avgQuality.map .fin) (.fin blendedTier)
    1 (some pool.qualityCount) cfg.reliabilityHardFloor cfg.qualityHardFloor
    cfg.qualityFloorMinGraded
  return reward.getD 0

/-- The reward is a function of the sums and of the blended tier. -/
theorem pooledWindowReward_eq (cfg : LlmKeyConfig) (v : Validator) (hotkey : String)
    (subs : List SubWindow) : pooledWindowReward cfg v hotkey subs =
      (Pool.of subs).reward cfg (blendedTier v hotkey subs) := by
  unfold pooledWindowReward Pool.reward blendedTier
  dsimp only [Pool.of]
  split
  · simp only [bind_assoc]
    rfl
  · rfl

/-! ## One row -/

/-- A row the fold does not drop, of a number of calls that a float can hold. -/
def WellFormed (report : LLMKeyUsageReport) : Prop :=
  0 ≤ report.successCount ∧ 0 ≤ report.failureCount ∧ fitsDouble (rowCalls report) = true

theorem mulInt_fits {q : ℚ} {n : Int} (h : fitsDouble n = true) : mulInt q n = .ok (q * n) := by
  unfold mulInt
  rw [if_pos h]

theorem divInt_fits {q : ℚ} {n : Int} (h : fitsDouble n = true) (hne : n ≠ 0) :
    divInt q n = .ok (q / n) := by
  unfold divInt
  rw [if_pos h, if_neg hne]

theorem addLatency_fits {sub : SubWindow} {report : LLMKeyUsageReport}
    (h : fitsDouble (rowCalls report) = true) :
    sub.addLatency report = .ok (sub.plusLatency report) := by
  unfold SubWindow.addLatency SubWindow.plusLatency
  cases sanitizeLatencyMs report.avgLatencyMs with
  | none => rfl
  | some latency =>
    dsimp only
    split
    · rw [mulInt_fits h]
      rfl
    · rfl

theorem addQuality_fits {sub : SubWindow} {report : LLMKeyUsageReport}
    (h : fitsDouble (rowCalls report) = true) :
    sub.addQuality report = .ok (sub.plusQuality report) := by
  unfold SubWindow.addQuality SubWindow.plusQuality
  cases sanitizeQualityScore report.avgQualityScore with
  | none => rfl
  | some quality =>
    dsimp only
    split
    · rw [mulInt_fits h]
      rfl
    · rfl

/-- The sub-windows of one hotkey. -/
def keysOf (v : Validator) (hotkey : String) : Dict String SubWindow :=
  ((v.llmKeyPendingCalls.get? hotkey).map Window.keys).getD ∅

def keyStatesOf (v : Validator) (hotkey : String) : Dict String KeyState :=
  ((v.llmKeyHotkeyStatus.get? hotkey).bind HotkeyStatus.keys).getD ∅

/-- No key of the hotkey is locally dead. -/
def NoneKilled (v : Validator) (hotkey : String) : Prop :=
  ∀ subKey entry, (keyStatesOf v hotkey).get? subKey = some entry → entry.alive ≠ some false

/-- The sub-windows with one row more. -/
def addRow (keys : Dict String SubWindow) (row : FoldedRow) : Dict String SubWindow :=
  keys.insert (reportSubKey row.1) (((keys.get? (reportSubKey row.1)).getD {}).add row)

theorem reviveKey_alive (report : LLMKeyUsageReport) (entry : KeyState) :
    (reviveKey report entry).alive ≠ some false := by
  have hrevived : ∀ named : KeyState, (if named.alive = some false then
      { named with alive := some true, killedReason := none } else named).alive ≠ some false := by
    intro named
    split
    · simp
    · assumption
  exact hrevived _

theorem keyStatesOf_updateKeyState (v : Validator) (hotkey subKey : String)
    (f : KeyState → KeyState) : keyStatesOf (updateKeyState v hotkey subKey f) hotkey =
      (keyStatesOf v hotkey).insert subKey (f (((keyStatesOf v hotkey).get? subKey).getD {})) := by
  unfold keyStatesOf updateKeyState
  cases hstatus : v.llmKeyHotkeyStatus.get? hotkey with
  | none => simp
  | some status => simp

theorem modelTierWeight_updateKeyState (v : Validator) (hotkey subKey : String)
    (f : KeyState → KeyState) :
    modelTierWeight (updateKeyState v hotkey subKey f) hotkey = modelTierWeight v hotkey := by
  simp [modelTierWeight, updateKeyState]

theorem noneKilled_revive {v : Validator} {hotkey : String} (subKey : String)
    (report : LLMKeyUsageReport) (h : NoneKilled v hotkey) :
    NoneKilled (updateKeyState v hotkey subKey (reviveKey report)) hotkey := by
  intro other entry hentry
  rw [keyStatesOf_updateKeyState, Dict.get?_insert] at hentry
  split at hentry
  · cases hentry
    exact reviveKey_alive report _
  · exact h other entry hentry

/-- What a well-formed row does. The model of the submission is not touched by it. -/
theorem fold_wellFormed {report : LLMKeyUsageReport} (hwell : WellFormed report) (hotkey : String)
    (now : ℚ) (v : Validator) : ∃ v', foldReportIntoPending hotkey report now v = (.ok (), v') ∧
      keysOf v' hotkey = addRow (keysOf v hotkey) (report, tierForReport v hotkey report) ∧
      modelTierWeight v' hotkey = modelTierWeight v hotkey ∧
      (NoneKilled v hotkey → NoneKilled v' hotkey) := by
  obtain ⟨hsuccess, hfailure, hfits⟩ := hwell
  unfold foldReportIntoPending
  rw [if_neg (by omega), Prog.bind_ok (Prog.get_run v)]
  simp only [subWindowFor]
  rw [Prog.bind_ok (Prog.modify_run _ _)]
  generalize hacc : (v.llmKeyPendingCalls.get? hotkey).getD ⟨∅, now, now⟩ = acc
  rw [addLatency_fits hfits, Prog.bind_ok (Prog.ofExcept_run _ _),
    Prog.bind_ok (Prog.modify_run _ _), addQuality_fits hfits, Prog.bind_ok (Prog.ofExcept_run _ _),
    Prog.bind_ok (Prog.modify_run _ _)]
  have hkeys : acc.keys = keysOf v hotkey := by
    rw [← hacc, keysOf]
    cases v.llmKeyPendingCalls.get? hotkey <;> rfl
  split
  · refine ⟨_, rfl, ?_, ?_, ?_⟩
    · rw [addRow, ← hkeys]
      simp [keysOf, updateKeyState, putSubWindow]
      rfl
    · rw [modelTierWeight_updateKeyState]
      rfl
    · intro halive
      exact noneKilled_revive _ _ halive
  · refine ⟨_, rfl, ?_, rfl, fun halive => halive⟩
    rw [addRow, ← hkeys]
    simp [keysOf, putSubWindow]
    rfl

/-! ## The rows of an epoch -/

/-- The rows of one hotkey, each folded at its own time. -/
def foldRows (hotkey : String) (rows : List (LLMKeyUsageReport × ℚ)) : Method Unit :=
  Prog.forEach rows fun row => foldReportIntoPending hotkey row.1 row.2

/-- A row with the tier that is its own. -/
def ownTier (v : Validator) (hotkey : String) (row : LLMKeyUsageReport × ℚ) : FoldedRow :=
  (row.1, tierForReport v hotkey row.1)

theorem tierForReport_congr {v v' : Validator} {hotkey : String} (report : LLMKeyUsageReport)
    (h : modelTierWeight v' hotkey = modelTierWeight v hotkey) :
    tierForReport v' hotkey report = tierForReport v hotkey report := by
  unfold tierForReport
  rw [h]

theorem foldRows_run (hotkey : String) {rows : List (LLMKeyUsageReport × ℚ)}
    (hwell : ∀ row ∈ rows, WellFormed row.1) (v : Validator) :
    ∃ v', foldRows hotkey rows v = (.ok (), v') ∧
      keysOf v' hotkey = (rows.map (ownTier v hotkey)).foldl addRow (keysOf v hotkey) ∧
      modelTierWeight v' hotkey = modelTierWeight v hotkey ∧
      (NoneKilled v hotkey → NoneKilled v' hotkey) := by
  unfold foldRows
  induction rows generalizing v with
  | nil => exact ⟨v, rfl, rfl, rfl, fun halive => halive⟩
  | cons row rest ih =>
    obtain ⟨v₁, hrun₁, hkeys₁, hweight₁, halive₁⟩ :=
      fold_wellFormed (hwell row List.mem_cons_self) hotkey row.2 v
    obtain ⟨v₂, hrun₂, hkeys₂, hweight₂, halive₂⟩ :=
      ih (fun other hother => hwell other (List.mem_cons_of_mem _ hother)) v₁
    have hown : ownTier v₁ hotkey = ownTier v hotkey := by
      funext other
      exact congrArg (Prod.mk other.1) (tierForReport_congr other.1 hweight₁)
    refine ⟨v₂, ?_, ?_, hweight₂.trans hweight₁, fun halive => halive₂ (halive₁ halive)⟩
    · exact (Prog.bind_ok hrun₁).trans hrun₂
    · rw [hkeys₂, hkeys₁, hown]
      rfl

/-- The sub-windows that are pooled when the hotkey's window is paid. -/
def subsOf (v : Validator) (hotkey : String) : List SubWindow :=
  match v.llmKeyPendingCalls.get? hotkey with
  | none => []
  | some acc => liveSubs v hotkey acc

/-- With no key killed, they are all there. -/
theorem subsOf_eq {v : Validator} {hotkey : String} (h : NoneKilled v hotkey) :
    subsOf v hotkey = (keysOf v hotkey).values := by
  unfold subsOf keysOf
  cases v.llmKeyPendingCalls.get? hotkey with
  | none => rfl
  | some acc =>
    show liveSubs v hotkey acc = acc.keys.values
    unfold liveSubs Dict.values
    refine congrArg _ (List.filter_eq_self.mpr ?_)
    intro p _
    show ((((keyStatesOf v hotkey).get? p.1).getD {}).alive.getD true) = true
    cases hentry : (keyStatesOf v hotkey).get? p.1 with
    | none => rfl
    | some entry =>
      have halive := h p.1 entry hentry
      rcases hflag : entry.alive with _ | flag
      · simp [hflag]
      · cases flag with
        | true => simp [hflag]
        | false => exact absurd hflag halive

/-! ## Buckets -/

/-- The sub-windows of an epoch's rows. -/
def fill (rows : List FoldedRow) : Dict String SubWindow := rows.foldl addRow ∅

/-- The rows of one key. -/
def keyRows (rows : List FoldedRow) (subKey : String) : List FoldedRow :=
  rows.filter fun row => reportSubKey row.1 = subKey

theorem fill_concat (rows : List FoldedRow) (row : FoldedRow) :
    fill (rows ++ [row]) = addRow (fill rows) row := List.foldl_concat ..

/-- A sub-window is the sum of its key's rows. -/
theorem get?_fill (rows : List FoldedRow) (subKey : String) :
    (fill rows).get? subKey = summary (keyRows rows subKey) := by
  induction rows using List.reverseRecOn with
  | nil => rfl
  | append_singleton rows row ih =>
    rw [fill_concat, addRow, Dict.get?_insert, keyRows, List.filter_append]
    by_cases hkey : subKey = reportSubKey row.1
    · subst hkey
      rw [if_pos rfl, ih]
      simp only [List.filter_cons, decide_true, if_true, List.filter_nil, summary_concat]
      rfl
    · rw [if_neg hkey, ih]
      simp [keyRows, Ne.symm hkey]

/-- The counts and the tier: what a latency and a grade leave alone. -/
def SubWindow.tally (sub : SubWindow) : Int × Int × Option ℚ :=
  (sub.successCount, sub.failureCount, sub.tier)

theorem tally_plusLatency (sub : SubWindow) (report : LLMKeyUsageReport) :
    (sub.plusLatency report).tally = sub.tally := by
  unfold SubWindow.plusLatency
  split
  · rfl
  · split <;> rfl

theorem tally_plusQuality (sub : SubWindow) (report : LLMKeyUsageReport) :
    (sub.plusQuality report).tally = sub.tally := by
  unfold SubWindow.plusQuality
  split
  · rfl
  · split <;> rfl

theorem tally_add (sub : SubWindow) (row : FoldedRow) :
    (sub.add row).tally = (sub.successCount + row.1.successCount,
      sub.failureCount + row.1.failureCount, some row.2) := by
  unfold SubWindow.add
  rw [tally_plusQuality, tally_plusLatency]
  rfl

theorem calls_add (sub : SubWindow) (row : FoldedRow) :
    (sub.add row).calls = sub.calls + rowCalls row.1 := by
  have htally := tally_add sub row
  simp only [SubWindow.tally, Prod.mk.injEq] at htally
  unfold SubWindow.calls rowCalls
  rw [htally.1, htally.2.1]
  ring

theorem calls_foldl (rows : List FoldedRow) (sub : SubWindow) :
    (rows.foldl SubWindow.add sub).calls = sub.calls + (rows.map fun row => rowCalls row.1).sum := by
  induction rows generalizing sub with
  | nil => simp
  | cons row rest ih =>
    rw [List.foldl_cons, ih, calls_add, List.map_cons, List.sum_cons]
    ring

/-- The tier of a sub-window is that of its key's last row. -/
theorem tier_summary {rows : List FoldedRow} {sub : SubWindow} (h : summary rows = some sub) :
    ∃ row ∈ rows, sub.tier = some row.2 := by
  unfold summary at h
  split at h
  · cases h
  · rename_i hne
    cases h
    obtain ⟨front, last, rfl⟩ := (List.eq_nil_or_concat rows).resolve_left hne
    refine ⟨last, by simp, ?_⟩
    have htally := tally_add (front.foldl SubWindow.add {}) last
    simp only [SubWindow.tally, Prod.mk.injEq] at htally
    rw [List.concat_eq_append, List.foldl_concat]
    exact htally.2.2

/-! ## Sums over the sub-windows -/

/-- What a row adds to a sum, it adds whatever its sub-window holds already. -/
def Additive {M : Type} [AddCommGroup M] (f : SubWindow → M) : Prop :=
  f {} = 0 ∧ ∀ (sub : SubWindow) (row : FoldedRow), f (sub.add row) = f sub + f (({} : SubWindow).add row)

theorem sum_fill {M : Type} [AddCommGroup M] {f : SubWindow → M} (hf : Additive f)
    (rows : List FoldedRow) : ((fill rows).values.map f).sum =
      (rows.map fun row => f (({} : SubWindow).add row)).sum := by
  induction rows using List.reverseRecOn with
  | nil => rfl
  | append_singleton rows row ih =>
    rw [fill_concat, addRow, Dict.sum_values_insert, ih, List.map_append, List.sum_append, hf.2]
    cases hold : (fill rows).get? (reportSubKey row.1) with
    | none => simp [hf.1]
    | some sub =>
      simp
      abel

/-- Every sum of the pool is of that kind. The tier is not. -/
theorem additive_pool : Additive SubWindow.successCount ∧ Additive SubWindow.failureCount ∧
    Additive SubWindow.latencyMsWeightedSum ∧ Additive SubWindow.latencyWeightedCount ∧
    Additive SubWindow.qualityWeightedSum ∧ Additive SubWindow.qualityWeightedCount := by
  refine ⟨⟨rfl, ?_⟩, ⟨rfl, ?_⟩, ⟨rfl, ?_⟩, ⟨rfl, ?_⟩, ⟨rfl, ?_⟩, ⟨rfl, ?_⟩⟩ <;>
  · intro sub row
    unfold SubWindow.add SubWindow.plusQuality SubWindow.plusLatency SubWindow.addCounts
    by_cases hcalls : 0 < rowCalls row.1 <;>
      cases sanitizeLatencyMs row.1.avgLatencyMs <;>
        cases sanitizeQualityScore row.1.avgQualityScore <;> simp [hcalls]

/-- The sums do not depend on the order of the rows. -/
theorem pool_perm {rows rows' : List FoldedRow} (h : rows'.Perm rows) :
    Pool.of (fill rows').values = Pool.of (fill rows).values := by
  obtain ⟨hs, hf, hl, hlc, hq, hqc⟩ := additive_pool
  have hsum : ∀ {M : Type} [AddCommGroup M] {f : SubWindow → M}, Additive f →
      ((fill rows').values.map f).sum = ((fill rows).values.map f).sum := by
    intro M _ f hadd
    rw [sum_fill hadd, sum_fill hadd]
    exact (h.map _).sum_eq
  unfold Pool.of
  rw [hsum hs, hsum hf, hsum hl, hsum hlc, hsum hq, hsum hqc]

/-! ## The weighted tiers -/

/-- What a sub-window contributes to the blend. -/
def tierMass (fallback : ℚ) (sub : SubWindow) : ℚ := sub.tier.getD fallback * sub.calls

/-- No key with calls has rows of two tiers. -/
def OneTierPerKey (rows : List FoldedRow) : Prop :=
  ∀ row ∈ rows, ∀ other ∈ rows, ∀ worked ∈ rows,
    reportSubKey other.1 = reportSubKey row.1 → reportSubKey worked.1 = reportSubKey row.1 →
    0 < rowCalls worked.1 → other.2 = row.2

instance (rows : List FoldedRow) : Decidable (OneTierPerKey rows) :=
  inferInstanceAs (Decidable (∀ row ∈ rows, ∀ other ∈ rows, ∀ worked ∈ rows,
    reportSubKey other.1 = reportSubKey row.1 → reportSubKey worked.1 = reportSubKey row.1 →
    0 < rowCalls worked.1 → other.2 = row.2))

/-- The counts of a row are no less than nothing. -/
def Counted (rows : List FoldedRow) : Prop := ∀ row ∈ rows, 0 ≤ rowCalls row.1

/-- A row's own tier, for each of its calls. -/
def rowMass (row : FoldedRow) : ℚ := row.2 * (rowCalls row.1 : ℚ)

def ownMass (rows : List FoldedRow) : ℚ := (rows.map rowMass).sum

/-- Of a key with calls, some row has calls. -/
theorem exists_worked {rows : List FoldedRow} {sub : SubWindow} (hcounted : Counted rows)
    (h : summary rows = some sub) (hcalls : sub.calls ≠ 0) :
    ∃ worked ∈ rows, 0 < rowCalls worked.1 := by
  by_contra hnone
  apply hcalls
  have hzero : ∀ row ∈ rows, rowCalls row.1 = 0 := by
    intro row hrow
    have hle : ¬ 0 < rowCalls row.1 := fun hpos => hnone ⟨row, hrow, hpos⟩
    have hge := hcounted row hrow
    omega
  unfold summary at h
  split at h
  · cases h
  · cases h
    rw [calls_foldl, List.sum_eq_zero]
    · rfl
    · intro n hn
      obtain ⟨row, hrow, rfl⟩ := List.mem_map.mp hn
      exact hzero row hrow

/-- A row writes its tier over all the calls of its key. -/
theorem mass_add (fallback : ℚ) (sub : SubWindow) (row : FoldedRow) :
    tierMass fallback (sub.add row) = row.2 * ((sub.calls + rowCalls row.1 : Int) : ℚ) := by
  have htally := tally_add sub row
  simp only [SubWindow.tally, Prod.mk.injEq] at htally
  rw [tierMass, htally.2.2, calls_add, Option.getD_some]

/-- With one tier a key, the sub-windows weigh what the rows weigh. -/
theorem mass_fill (fallback : ℚ) {rows : List FoldedRow} (hcounted : Counted rows)
    (hone : OneTierPerKey rows) :
    ((fill rows).values.map (tierMass fallback)).sum = ownMass rows := by
  induction rows using List.reverseRecOn with
  | nil => rfl
  | append_singleton rows row ih =>
    have hsub : ∀ r ∈ rows, r ∈ rows ++ [row] := fun r hr => List.mem_append_left _ hr
    have hrow : row ∈ rows ++ [row] := by simp
    have ih := ih (fun r hr => hcounted r (hsub r hr))
      (fun r hr s hs w hw => hone r (hsub r hr) s (hsub s hs) w (hsub w hw))
    have hown : ownMass (rows ++ [row]) = ownMass rows + rowMass row := by
      simp [ownMass]
    rw [fill_concat, addRow, Dict.sum_values_insert, ih, mass_add, hown, rowMass,
      Int.cast_add]
    cases hold : (fill rows).get? (reportSubKey row.1) with
    | none => simp [SubWindow.calls]
    | some sub =>
      rw [get?_fill] at hold
      -- The tier the row overwrites is its own, or weighs nothing.
      have hmass : tierMass fallback sub = row.2 * sub.calls := by
        by_cases hcalls : sub.calls = 0
        · rw [tierMass, hcalls, Int.cast_zero, mul_zero, mul_zero]
        obtain ⟨worked, hworked, hpos⟩ :=
          exists_worked (fun r hr => hcounted r (hsub r (List.mem_of_mem_filter hr))) hold hcalls
        obtain ⟨last, hlast, htier⟩ := tier_summary hold
        have hworked' := List.mem_filter.mp hworked
        have hlast' := List.mem_filter.mp hlast
        have hsame : last.2 = row.2 :=
          hone row hrow last (hsub last hlast'.1) worked (hsub worked hworked'.1)
            (by simpa using hlast'.2) (by simpa using hworked'.2) hpos
        rw [tierMass, htier, Option.getD_some, hsame]
      simp only [Option.map_some, Option.getD_some, hmass]
      ring

theorem fill_pair (rows : List FoldedRow) {row other : FoldedRow}
    (hkey : reportSubKey other.1 = reportSubKey row.1) :
    fill (rows ++ [row, other]) = (fill rows).insert (reportSubKey row.1)
      (((((fill rows).get? (reportSubKey row.1)).getD {}).add row).add other) := by
  have hsplit : rows ++ [row, other] = (rows ++ [row]) ++ [other] := by simp
  rw [hsplit, fill_concat, fill_concat, addRow, addRow, hkey, Dict.get?_insert, if_pos rfl,
    Option.getD_some, Dict.insert_insert]

/-- Two rows of one key, folded last in either order: the later one's tier is on all its calls. -/
theorem mass_pair (fallback : ℚ) (rows : List FoldedRow) {row other : FoldedRow}
    (hkey : reportSubKey other.1 = reportSubKey row.1) :
    ((fill (rows ++ [row, other])).values.map (tierMass fallback)).sum -
        ((fill (rows ++ [other, row])).values.map (tierMass fallback)).sum =
      (other.2 - row.2) *
        (((keyRows (rows ++ [row, other]) (reportSubKey row.1)).map fun r => rowCalls r.1).sum : ℚ) := by
  have hget := get?_fill (rows ++ [row, other]) (reportSubKey row.1)
  rw [fill_pair rows hkey, Dict.get?_insert, if_pos rfl] at hget
  have hcalls : ((keyRows (rows ++ [row, other]) (reportSubKey row.1)).map
      fun r => rowCalls r.1).sum =
      (((fill rows).get? (reportSubKey row.1)).getD {}).calls + rowCalls row.1 +
        rowCalls other.1 := by
    unfold summary at hget
    split at hget
    · cases hget
    · have hsum := congrArg SubWindow.calls (Option.some.inj hget)
      rw [calls_foldl, calls_add, calls_add] at hsum
      rw [hsum]
      exact (zero_add _).symm
  rw [fill_pair rows hkey, fill_pair rows hkey.symm, hkey, Dict.sum_values_insert,
    Dict.sum_values_insert, mass_add, mass_add, calls_add, calls_add, hcalls]
  push_cast
  ring

/-! ## The blend -/

def totalCalls (rows : List FoldedRow) : Int := (rows.map fun row => rowCalls row.1).sum

theorem calls_nonneg {rows : List FoldedRow} (hcounted : Counted rows) {sub : SubWindow}
    (h : sub ∈ (fill rows).values) : 0 ≤ sub.calls := by
  obtain ⟨⟨subKey, _⟩, hentry, rfl⟩ := List.mem_map.mp h
  have hget := Dict.mem_entries_iff.mp hentry
  rw [get?_fill] at hget
  unfold summary at hget
  split at hget
  · cases hget
  · cases hget
    dsimp only
    rw [calls_foldl]
    refine add_nonneg (le_refl 0) (List.sum_nonneg ?_)
    intro n hn
    obtain ⟨row, hrow, rfl⟩ := List.mem_map.mp hn
    exact hcounted row (List.mem_of_mem_filter hrow)

theorem sum_calls_fill (rows : List FoldedRow) :
    ((fill rows).values.map SubWindow.calls).sum = totalCalls rows := by
  have hadd : Additive SubWindow.calls := by
    refine ⟨rfl, fun sub row => ?_⟩
    rw [calls_add, calls_add, show ({} : SubWindow).calls = 0 from rfl, zero_add]
  rw [sum_fill hadd, totalCalls]
  refine congrArg List.sum (List.map_congr_left fun row _ => ?_)
  rw [calls_add]
  exact zero_add _

theorem total_fill (rows : List FoldedRow) :
    ((fill rows).values.map SubWindow.successCount).sum +
      ((fill rows).values.map SubWindow.failureCount).sum = totalCalls rows := by
  rw [← sum_calls_fill, ← List.sum_map_add]
  rfl

theorem fitsDouble_mono {m n : Int} (hm : 0 ≤ m) (hle : m ≤ n) (h : fitsDouble n = true) :
    fitsDouble m = true := by
  unfold fitsDouble at h ⊢
  rw [decide_eq_true_eq] at h ⊢
  omega

/-- The tier of a window that has calls is the weight of its sub-windows over its calls. -/
theorem blendedTier_fill (v : Validator) (hotkey : String) {rows : List FoldedRow}
    (hcounted : Counted rows) (hfits : fitsDouble (totalCalls rows) = true) :
    blendedTier v hotkey (fill rows).values =
      if 0 < totalCalls rows then
        .ok (((fill rows).values.map (tierMass (modelTierWeight v hotkey))).sum / totalCalls rows)
      else .ok (modelTierWeight v hotkey) := by
  unfold blendedTier
  dsimp only
  rw [total_fill]
  by_cases hpos : 0 < totalCalls rows
  · rw [if_pos hpos, if_pos hpos]
    have hparts : ∀ s ∈ (fill rows).values, mulInt (subTier v hotkey s) s.calls =
        .ok (tierMass (modelTierWeight v hotkey) s) := by
      intro s hs
      have hle : s.calls ≤ totalCalls rows := by
        rw [← sum_calls_fill]
        refine List.single_le_sum ?_ _ (List.mem_map_of_mem hs)
        intro n hn
        obtain ⟨other, hother, rfl⟩ := List.mem_map.mp hn
        exact calls_nonneg hcounted hother
      rw [mulInt_fits (fitsDouble_mono (calls_nonneg hcounted hs) hle hfits)]
      rfl
    rw [mapM_ok hparts]
    simp only [bind, Except.bind]
    rw [divInt_fits hfits (ne_of_gt hpos)]
  · rw [if_neg hpos, if_neg hpos]
    rfl

/-! ## Every order of the rows -/

/-- The rows of an epoch: none that the fold drops, and no more calls than a float can hold. -/
structure WellFormedRows (rows : List (LLMKeyUsageReport × ℚ)) : Prop where
  counts : ∀ row ∈ rows, 0 ≤ row.1.successCount ∧ 0 ≤ row.1.failureCount
  fits : fitsDouble ((rows.map fun row => rowCalls row.1).sum) = true

theorem WellFormedRows.each {rows : List (LLMKeyUsageReport × ℚ)} (h : WellFormedRows rows) :
    ∀ row ∈ rows, WellFormed row.1 := by
  intro row hrow
  obtain ⟨hsuccess, hfailure⟩ := h.counts row hrow
  refine ⟨hsuccess, hfailure, fitsDouble_mono (add_nonneg hsuccess hfailure) ?_ h.fits⟩
  refine List.single_le_sum ?_ _ (List.mem_map_of_mem (f := fun r => rowCalls r.1) hrow)
  intro n hn
  obtain ⟨other, hother, rfl⟩ := List.mem_map.mp hn
  exact add_nonneg (h.counts other hother).1 (h.counts other hother).2

theorem WellFormedRows.perm {rows rows' : List (LLMKeyUsageReport × ℚ)} (h : WellFormedRows rows)
    (hperm : rows'.Perm rows) : WellFormedRows rows' where
  counts row hrow := h.counts row (hperm.mem_iff.mp hrow)
  fits := by
    rw [(hperm.map fun row => rowCalls row.1).sum_eq]
    exact h.fits

theorem counted_own {v : Validator} {hotkey : String} {rows : List (LLMKeyUsageReport × ℚ)}
    (hwell : WellFormedRows rows) : Counted (rows.map (ownTier v hotkey)) := by
  intro row hrow
  obtain ⟨row', hrow', rfl⟩ := List.mem_map.mp hrow
  exact add_nonneg (hwell.counts row' hrow').1 (hwell.counts row' hrow').2

/-- The mean of the rows' own tiers, each weighted by its calls. -/
def meanTier (rows : List FoldedRow) : ℚ := ownMass rows / totalCalls rows

/-- The validator after the rows of an epoch. -/
def after (v : Validator) (hotkey : String) (rows : List (LLMKeyUsageReport × ℚ)) : Validator :=
  (foldRows hotkey rows v).2

/-- The blend and the reward, of the sub-windows that the rows leave. -/
theorem after_rows (cfg : LlmKeyConfig) {v : Validator} {hotkey : String}
    {rows : List (LLMKeyUsageReport × ℚ)} (hnew : v.llmKeyPendingCalls.get? hotkey = none)
    (halive : NoneKilled v hotkey) (hwell : WellFormedRows rows) :
    let own := rows.map (ownTier v hotkey)
    let blended : Except Exc ℚ := if 0 < totalCalls own then
        .ok (((fill own).values.map (tierMass (modelTierWeight v hotkey))).sum / totalCalls own)
      else .ok (modelTierWeight v hotkey)
    blendedTier (after v hotkey rows) hotkey (subsOf (after v hotkey rows) hotkey) = blended ∧
      pooledWindowReward cfg (after v hotkey rows) hotkey (subsOf (after v hotkey rows) hotkey) =
        (Pool.of (fill own).values).reward cfg blended := by
  obtain ⟨v', hrun, hkeys, hweight, halive'⟩ := foldRows_run hotkey hwell.each v
  have hafter : after v hotkey rows = v' := by rw [after, hrun]
  have hempty : keysOf v hotkey = ∅ := by rw [keysOf, hnew]; rfl
  rw [hempty] at hkeys
  have hsubs : subsOf v' hotkey = (fill (rows.map (ownTier v hotkey))).values := by
    rw [subsOf_eq (halive' halive), hkeys]
    rfl
  have hcounted : Counted (rows.map (ownTier v hotkey)) := counted_own hwell
  have htotal : totalCalls (rows.map (ownTier v hotkey)) =
      (rows.map fun row => rowCalls row.1).sum := by
    rw [totalCalls, List.map_map]
    rfl
  have hblended := blendedTier_fill v' hotkey hcounted (htotal ▸ hwell.fits)
  dsimp only
  rw [pooledWindowReward_eq, hafter, hsubs, hblended, hweight]
  exact ⟨rfl, rfl⟩

theorem OneTierPerKey.perm {rows rows' : List FoldedRow} (h : OneTierPerKey rows)
    (hperm : rows'.Perm rows) : OneTierPerKey rows' := by
  intro row hrow other hother worked hworked
  exact h row (hperm.mem_iff.mp hrow) other (hperm.mem_iff.mp hother) worked
    (hperm.mem_iff.mp hworked)

theorem totalCalls_perm {rows rows' : List FoldedRow} (hperm : rows'.Perm rows) :
    totalCalls rows' = totalCalls rows :=
  (hperm.map fun row : FoldedRow => rowCalls row.1).sum_eq

/-- Two members of a list can be brought to its end, in either order. -/
theorem exists_pair_last {α : Type} [DecidableEq α] {l : List α} {a b : α} (ha : a ∈ l) (hb : b ∈ l)
    (hne : b ≠ a) : ∃ front, (front ++ [a, b]).Perm l ∧ (front ++ [b, a]).Perm l := by
  have hb' : b ∈ l.erase a := (List.mem_erase_of_ne hne).mpr hb
  have hback : (a :: b :: (l.erase a).erase b).Perm l :=
    ((List.perm_cons_erase hb').symm.cons a).trans (List.perm_cons_erase ha).symm
  refine ⟨(l.erase a).erase b, ?_, ?_⟩
  · have hfront : ((l.erase a).erase b ++ [a, b]).Perm (a :: b :: (l.erase a).erase b) :=
      List.perm_append_comm
    exact hfront.trans hback
  · have hfront : ((l.erase a).erase b ++ [b, a]).Perm (b :: a :: (l.erase a).erase b) :=
      List.perm_append_comm
    exact hfront.trans ((List.Perm.swap a b _).trans hback)

/-- Rows of two tiers in a key with calls: the last of them decides the blend. -/
theorem one_tier_of_blend {v : Validator} {hotkey : String} {rows : List (LLMKeyUsageReport × ℚ)}
    (hwell : WellFormedRows rows)
    (hmass : ∀ rows' : List (LLMKeyUsageReport × ℚ), rows'.Perm rows → 0 < totalCalls (rows.map (ownTier v hotkey)) →
      ((fill (rows'.map (ownTier v hotkey))).values.map
        (tierMass (modelTierWeight v hotkey))).sum = ownMass (rows.map (ownTier v hotkey))) :
    OneTierPerKey (rows.map (ownTier v hotkey)) := by
  intro row hrow other hother worked hworked hkey hkey' hpos
  by_contra htiers
  have hcounted : Counted (rows.map (ownTier v hotkey)) := counted_own hwell
  obtain ⟨r, hr, rfl⟩ := List.mem_map.mp hrow
  obtain ⟨s, hs, rfl⟩ := List.mem_map.mp hother
  have hne : s ≠ r := by
    intro hsame
    exact htiers (by rw [hsame])
  have htotal : 0 < totalCalls (rows.map (ownTier v hotkey)) := by
    have hle : rowCalls worked.1 ≤ totalCalls (rows.map (ownTier v hotkey)) := by
      refine List.single_le_sum ?_ _ (List.mem_map_of_mem (f := fun p : FoldedRow => rowCalls p.1)
        hworked)
      intro n hn
      obtain ⟨p, hp, rfl⟩ := List.mem_map.mp hn
      exact hcounted p hp
    omega
  obtain ⟨front, hpair, hpair'⟩ := exists_pair_last hr hs hne
  have hsame := (hmass _ hpair htotal).trans (hmass _ hpair' htotal).symm
  rw [List.map_append, List.map_append] at hsame
  have hdiff := mass_pair (modelTierWeight v hotkey)
    (front.map (ownTier v hotkey)) hkey
  rw [← sub_eq_zero] at hsame
  rw [show [ownTier v hotkey r, ownTier v hotkey s] = [r, s].map (ownTier v hotkey) from rfl,
    show [ownTier v hotkey s, ownTier v hotkey r] = [s, r].map (ownTier v hotkey) from rfl,
    hsame] at hdiff
  have hcalls : 0 < ((keyRows (front.map (ownTier v hotkey) ++ [r, s].map (ownTier v hotkey))
      (reportSubKey r.1)).map fun p => rowCalls p.1).sum := by
    rw [← List.map_append]
    have hin : worked ∈ keyRows ((front ++ [r, s]).map (ownTier v hotkey))
        (reportSubKey r.1) :=
      List.mem_filter.mpr ⟨(hpair.map _).mem_iff.mpr hworked, decide_eq_true hkey'⟩
    refine lt_of_lt_of_le hpos (List.single_le_sum ?_ _ (List.mem_map_of_mem (f := fun p : FoldedRow =>
      rowCalls p.1) hin))
    intro n hn
    obtain ⟨p, hp, rfl⟩ := List.mem_map.mp hn
    exact hcounted p ((hpair.map _).mem_iff.mp (List.mem_of_mem_filter hp))
  have hzero := mul_eq_zero.mp hdiff.symm
  rcases hzero with hzero | hzero
  · exact htiers (sub_eq_zero.mp hzero)
  · exact absurd hzero (by exact_mod_cast ne_of_gt hcalls)

/-- In every order of the rows the blend is the mean of their own tiers, and the reward is the same,
    exactly when no key with calls has rows of two tiers. -/
theorem blend_is_mean_iff (cfg : LlmKeyConfig) {v : Validator} {hotkey : String}
    {rows : List (LLMKeyUsageReport × ℚ)} (hnew : v.llmKeyPendingCalls.get? hotkey = none)
    (halive : NoneKilled v hotkey) (hwell : WellFormedRows rows) :
    (∀ rows', rows'.Perm rows →
      (0 < totalCalls (rows.map (ownTier v hotkey)) →
        blendedTier (after v hotkey rows') hotkey (subsOf (after v hotkey rows') hotkey) =
          .ok (meanTier (rows.map (ownTier v hotkey)))) ∧
      pooledWindowReward cfg (after v hotkey rows') hotkey (subsOf (after v hotkey rows') hotkey) =
        pooledWindowReward cfg (after v hotkey rows) hotkey (subsOf (after v hotkey rows) hotkey)) ↔
      OneTierPerKey (rows.map (ownTier v hotkey)) := by
  constructor
  · intro h
    apply one_tier_of_blend hwell
    intro rows' hperm hpos
    have hblended := (h rows' hperm).1 hpos
    rw [(after_rows cfg hnew halive (hwell.perm hperm)).1, totalCalls_perm (hperm.map _),
      if_pos hpos, meanTier] at hblended
    have hne : (totalCalls (rows.map (ownTier v hotkey)) : ℚ) ≠ 0 := by
      exact_mod_cast ne_of_gt hpos
    exact (div_left_inj' hne).mp (Except.ok.inj hblended)
  · intro hone rows' hperm
    have hperm' : (rows'.map (ownTier v hotkey)).Perm (rows.map (ownTier v hotkey)) := hperm.map _
    have hwell' := hwell.perm hperm
    have hmass := mass_fill (modelTierWeight v hotkey) (counted_own hwell) hone
    have hmass' := mass_fill (modelTierWeight v hotkey) (counted_own hwell') (hone.perm hperm')
    have hown : ownMass (rows'.map (ownTier v hotkey)) = ownMass (rows.map (ownTier v hotkey)) :=
      (hperm'.map rowMass).sum_eq
    obtain ⟨hblended, hreward⟩ := after_rows cfg hnew halive hwell
    obtain ⟨hblended', hreward'⟩ := after_rows cfg hnew halive hwell'
    rw [hmass', hown, totalCalls_perm hperm'] at hblended' hreward'
    rw [hmass] at hblended hreward
    constructor
    · intro hpos
      rw [hblended', if_pos hpos]
      rfl
    · rw [hreward', hreward, pool_perm hperm']

/-- A row of the key `keyId`, of ten calls that a model answered. -/
def tenCalls (keyId : Int) (provider model : String) : LLMKeyUsageReport × ℚ :=
  ({ hotkey := "5Miner", keyId := some keyId, provider := some provider, model := some model,
     successCount := 10 }, 0)

/-- Two keys, each with the calls of one model. -/
def twoKeys : List (LLMKeyUsageReport × ℚ) :=
  [tenCalls 1 "openai" "gpt-4o", tenCalls 2 "deepseek" "deepseek-chat",
    tenCalls 1 "openai" "gpt-4o"]

theorem noneKilled_new (hotkey : String) : NoneKilled {} hotkey := by
  intro subKey entry h
  cases h

theorem blend_is_mean_two_keys :
    OneTierPerKey (twoKeys.map (ownTier {} "5Miner")) ∧
      meanTier (twoKeys.map (ownTier {} "5Miner")) = 5 / 6 ∧
      ∀ rows', rows'.Perm twoKeys →
        (0 < totalCalls (twoKeys.map (ownTier {} "5Miner")) →
          blendedTier (after {} "5Miner" rows') "5Miner" (subsOf (after {} "5Miner" rows') "5Miner") =
            .ok (meanTier (twoKeys.map (ownTier {} "5Miner")))) ∧
        pooledWindowReward {} (after {} "5Miner" rows') "5Miner"
            (subsOf (after {} "5Miner" rows') "5Miner") =
          pooledWindowReward {} (after {} "5Miner" twoKeys) "5Miner"
            (subsOf (after {} "5Miner" twoKeys) "5Miner") := by
  have hone : OneTierPerKey (twoKeys.map (ownTier {} "5Miner")) := by decide +kernel
  have hwell : WellFormedRows twoKeys := ⟨by decide, by decide +kernel⟩
  exact ⟨hone, by decide +kernel,
    (blend_is_mean_iff {} rfl (noneKilled_new "5Miner") hwell).mpr hone⟩

/-- A slot whose key was replaced: the calls of the first model are paid at the tier of the second. -/
theorem replaced_key_overwrites_tier :
    ¬ ∀ (v : Validator) (hotkey : String) (rows : List (LLMKeyUsageReport × ℚ)),
      v.llmKeyPendingCalls.get? hotkey = none → NoneKilled v hotkey → WellFormedRows rows →
      0 < totalCalls (rows.map (ownTier v hotkey)) →
      blendedTier (after v hotkey rows) hotkey (subsOf (after v hotkey rows) hotkey) =
        .ok (meanTier (rows.map (ownTier v hotkey))) := by
  intro h
  have hmean := h {} "5Miner"
    [tenCalls 1 "openai" "gpt-4o", tenCalls 1 "deepseek" "deepseek-chat"] rfl
    (noneKilled_new "5Miner") ⟨by decide, by decide +kernel⟩ (by decide +kernel)
  exact absurd hmean (by decide +kernel)

end TaoSubnet
