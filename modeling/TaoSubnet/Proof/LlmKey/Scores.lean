import TaoSubnet.Proof.LlmKey.Tiers

/-!
# What scoring the paid window computes

`_score_last_epoch` kills keys while it scores, hotkey by hotkey, and stops at the first raise. None of
that is visible from outside: it ends normally exactly when every hotkey of the window can be scored
on its own (`scoreLastEpoch_ok_iff`), and then every uid has the reward of its own hotkey, as a function
of the state before (`scoreLastEpoch_scores`).
-/

namespace TaoSubnet

open Py

/-! ## What is read of one hotkey -/

/-- The paid sub-windows of a hotkey, by key. -/
def paidEntries (v : Validator) (hotkey : String) : List (String × SubWindow) :=
  ((v.llmKeyLastEpochCalls.get? hotkey).map fun acc => acc.keys.entries).getD []

/-- The key is not locally dead. -/
def isLive (v : Validator) (hotkey subKey : String) : Bool :=
  (((keyStatesOf v hotkey).get? subKey).getD {}).alive.getD true

/-- The live sub-windows of the paid window. -/
def liveOf (v : Validator) (hotkey : String) : List SubWindow :=
  ((paidEntries v hotkey).filter fun p => isLive v hotkey p.1).map Prod.snd

/-- No floor kills the key. -/
def passes (cfg : LlmKeyConfig) (sub : SubWindow) : Bool :=
  match subWindowFloorReason cfg sub cfg.minCallsForScoring with
  | .ok (some _) => false
  | _ => true

/-- The sub-windows whose rows are pooled. -/
def scoredSubs (cfg : LlmKeyConfig) (v : Validator) (hotkey : String) : List SubWindow :=
  ((paidEntries v hotkey).filter fun p => passes cfg p.2 && isLive v hotkey p.1).map Prod.snd

/-- The hotkey has a uid, and the score vector a place for it. -/
def InRange (v : Validator) (hotkey : String) : Prop :=
  v.metagraphHotkeys.idxOf hotkey < v.metagraphHotkeys.length ∧
    v.metagraphHotkeys.idxOf hotkey < v.scores.length

/-- The hotkey can be scored: each of its floors can be computed, and so can the reward, if there is
    something to pool and somebody to pay. -/
def Scorable (cfg : LlmKeyConfig) (v : Validator) (hotkey : String) : Prop :=
  (∀ p ∈ paidEntries v hotkey, ∃ reason,
    subWindowFloorReason cfg p.2 cfg.minCallsForScoring = .ok reason) ∧
  (scoredSubs cfg v hotkey ≠ [] → InRange v hotkey → ∃ reward,
    pooledWindowReward cfg v hotkey (scoredSubs cfg v hotkey) = .ok reward)

/-- What a hotkey earns. -/
def reward (cfg : LlmKeyConfig) (v : Validator) (hotkey : String) : ℚ :=
  if scoredSubs cfg v hotkey = [] then 0
  else match pooledWindowReward cfg v hotkey (scoredSubs cfg v hotkey) with
    | .ok reward => reward
    | .error _ => 0

/-- The rows and the record of a hotkey are the same. -/
structure SameHotkey (hotkey : String) (v v' : Validator) : Prop where
  paid : v'.llmKeyLastEpochCalls.get? hotkey = v.llmKeyLastEpochCalls.get? hotkey
  collecting : v'.llmKeyPendingCalls.get? hotkey = v.llmKeyPendingCalls.get? hotkey
  status : v'.llmKeyHotkeyStatus.get? hotkey = v.llmKeyHotkeyStatus.get? hotkey

namespace SameHotkey

variable {hotkey : String} {v v' v'' : Validator}

theorem refl (hotkey : String) (v : Validator) : SameHotkey hotkey v v := ⟨rfl, rfl, rfl⟩

theorem trans (h : SameHotkey hotkey v v') (h' : SameHotkey hotkey v' v'') :
    SameHotkey hotkey v v'' :=
  ⟨h'.paid.trans h.paid, h'.collecting.trans h.collecting, h'.status.trans h.status⟩

theorem paidEntries (h : SameHotkey hotkey v v') :
    TaoSubnet.paidEntries v' hotkey = TaoSubnet.paidEntries v hotkey := by
  unfold TaoSubnet.paidEntries
  rw [h.paid]

theorem keyStatesOf (h : SameHotkey hotkey v v') :
    TaoSubnet.keyStatesOf v' hotkey = TaoSubnet.keyStatesOf v hotkey := by
  unfold TaoSubnet.keyStatesOf
  rw [h.status]

theorem isLive (h : SameHotkey hotkey v v') (subKey : String) :
    TaoSubnet.isLive v' hotkey subKey = TaoSubnet.isLive v hotkey subKey := by
  unfold TaoSubnet.isLive
  rw [h.keyStatesOf]

theorem modelTierWeight (h : SameHotkey hotkey v v') :
    TaoSubnet.modelTierWeight v' hotkey = TaoSubnet.modelTierWeight v hotkey := by
  unfold TaoSubnet.modelTierWeight
  rw [h.status]

theorem scoredSubs (cfg : LlmKeyConfig) (h : SameHotkey hotkey v v') :
    TaoSubnet.scoredSubs cfg v' hotkey = TaoSubnet.scoredSubs cfg v hotkey := by
  unfold TaoSubnet.scoredSubs
  rw [h.paidEntries]
  simp only [h.isLive]

end SameHotkey

/-- The pooled reward reads the submission's model and nothing else of the state. -/
theorem pooledWindowReward_congr (cfg : LlmKeyConfig) {v v' : Validator} {hotkey : String}
    (h : modelTierWeight v' hotkey = modelTierWeight v hotkey) (subs : List SubWindow) :
    pooledWindowReward cfg v' hotkey subs = pooledWindowReward cfg v hotkey subs := by
  unfold pooledWindowReward
  rw [h]

theorem liveSubs_eq {v : Validator} {hotkey : String} {acc : Window}
    (h : v.llmKeyLastEpochCalls.get? hotkey = some acc) :
    liveSubs v hotkey acc = liveOf v hotkey := by
  unfold liveSubs liveOf paidEntries
  rw [h]
  rfl

theorem nodup_paidEntries (v : Validator) (hotkey : String) :
    ((paidEntries v hotkey).map Prod.fst).Nodup := by
  unfold paidEntries
  cases v.llmKeyLastEpochCalls.get? hotkey with
  | none => exact List.nodup_nil
  | some acc => exact acc.keys.nodupKeys

/-! ## A kill -/

section Kill

variable (v : Validator) (hotkey subKey reason : String)

@[simp] theorem kill_metagraphHotkeys :
    (killHotkeyKey v hotkey subKey reason).metagraphHotkeys = v.metagraphHotkeys := rfl

@[simp] theorem kill_scores : (killHotkeyKey v hotkey subKey reason).scores = v.scores := rfl

theorem get?_dropSubKey_ne (windows : Windows) {other : String} (h : other ≠ hotkey) :
    (dropSubKey windows hotkey subKey).get? other = windows.get? other := by
  unfold dropSubKey
  cases windows.get? hotkey with
  | none => rfl
  | some acc =>
    dsimp only
    split
    · simp [h]
    · simp [h]

theorem sameHotkey_kill {other : String} (h : other ≠ hotkey) :
    SameHotkey other v (killHotkeyKey v hotkey subKey reason) where
  paid := get?_dropSubKey_ne hotkey subKey v.llmKeyLastEpochCalls h
  collecting := get?_dropSubKey_ne hotkey subKey v.llmKeyPendingCalls h
  status := by
    show ((updateKeyState v hotkey subKey (markDead reason)).llmKeyHotkeyStatus).get? other = _
    simp [updateKeyState, h]

/-- The entries of a hotkey that is left without keys are none, just as its entry is gone. -/
theorem paidEntries_kill : paidEntries (killHotkeyKey v hotkey subKey reason) hotkey =
    (paidEntries v hotkey).filter fun p => p.1 ≠ subKey := by
  show (((dropSubKey v.llmKeyLastEpochCalls hotkey subKey).get? hotkey).map
    fun acc => acc.keys.entries).getD [] = _
  unfold paidEntries dropSubKey
  cases hacc : v.llmKeyLastEpochCalls.get? hotkey with
  | none => simp [hacc]
  | some acc =>
    have hentries : (acc.keys.erase subKey).entries =
        acc.keys.entries.filter fun p => p.1 ≠ subKey := rfl
    dsimp only
    rw [Option.map_some, Option.getD_some, ← hentries]
    split
    · rename_i hempty
      have hnone : (acc.keys.erase subKey).entries = [] := List.isEmpty_iff.mp hempty
      rw [Dict.get?_erase, if_pos rfl, hnone]
      rfl
    · rw [Dict.get?_insert, if_pos rfl]
      rfl

theorem isLive_kill_ne {other : String} (h : other ≠ subKey) :
    isLive (killHotkeyKey v hotkey subKey reason) hotkey other = isLive v hotkey other := by
  have hkeys : keyStatesOf (killHotkeyKey v hotkey subKey reason) hotkey =
      keyStatesOf (updateKeyState v hotkey subKey (markDead reason)) hotkey := rfl
  unfold isLive
  rw [hkeys, keyStatesOf_updateKeyState, Dict.get?_insert, if_neg h]

theorem modelTierWeight_kill : modelTierWeight (killHotkeyKey v hotkey subKey reason) hotkey =
    modelTierWeight v hotkey :=
  modelTierWeight_updateKeyState v hotkey subKey (markDead reason)

end Kill

/-! ## The floors of one hotkey -/

variable (cfg : LlmKeyConfig)

/-- One key: killed, if a floor says so. -/
def killFloored (hotkey : String) (v : Validator) (p : String × SubWindow) : Validator :=
  match subWindowFloorReason cfg p.2 cfg.minCallsForScoring with
  | .ok (some reason) => killHotkeyKey v hotkey p.1 reason
  | _ => v

theorem killFloored_cases (hotkey : String) (v : Validator) (p : String × SubWindow) :
    (passes cfg p.2 = true ∧ killFloored cfg hotkey v p = v) ∨
    (passes cfg p.2 = false ∧ ∃ reason, killFloored cfg hotkey v p =
      killHotkeyKey v hotkey p.1 reason) := by
  unfold killFloored passes
  split
  · rename_i reason _
    exact .inr ⟨rfl, reason, rfl⟩
  · exact .inl ⟨rfl, rfl⟩

/-- Where every floor can be computed, the first loop is a fold. -/
theorem killFlooredKeys_ok {hotkey : String} {keys : List (String × SubWindow)}
    (h : ∀ p ∈ keys, ∃ reason, subWindowFloorReason cfg p.2 cfg.minCallsForScoring = .ok reason)
    (v : Validator) :
    killFlooredKeys cfg hotkey keys v = (.ok (), keys.foldl (killFloored cfg hotkey) v) := by
  unfold killFlooredKeys
  induction keys generalizing v with
  | nil => rfl
  | cons p rest ih =>
    obtain ⟨floored, hfloor⟩ := h p List.mem_cons_self
    rw [List.foldl_cons]
    refine (Prog.bind_ok (?_ : _ = (Except.ok (), killFloored cfg hotkey v p))).trans ?_
    · show (Prog.ofExcept (subWindowFloorReason cfg p.2 cfg.minCallsForScoring) >>= _) v = _
      unfold killFloored
      rw [hfloor, Prog.bind_ok (Prog.ofExcept_run _ _)]
      cases floored with
      | none => rfl
      | some reason => rfl
    · exact ih (fun q hq => h q (List.mem_cons_of_mem p hq)) _

/-- It raises where one of them cannot. -/
theorem killFlooredKeys_error {hotkey : String} {keys : List (String × SubWindow)}
    (h : ¬ ∀ p ∈ keys, ∃ reason,
      subWindowFloorReason cfg p.2 cfg.minCallsForScoring = .ok reason) (v : Validator) :
    ∃ e v', killFlooredKeys cfg hotkey keys v = (.error e, v') := by
  unfold killFlooredKeys
  induction keys generalizing v with
  | nil =>
    exfalso
    apply h
    intro p hp
    cases hp
  | cons p rest ih =>
    cases hfloor : subWindowFloorReason cfg p.2 cfg.minCallsForScoring with
    | error e =>
      refine ⟨e, v, Prog.bind_error ?_⟩
      show (Prog.ofExcept (subWindowFloorReason cfg p.2 cfg.minCallsForScoring) >>= _) v = _
      rw [hfloor]
      exact Prog.bind_error (Prog.ofExcept_run _ _)
    | ok floored =>
      have hrest : ¬ ∀ q ∈ rest, ∃ reason,
          subWindowFloorReason cfg q.2 cfg.minCallsForScoring = .ok reason := by
        intro hall
        apply h
        intro q hq
        rcases List.mem_cons.mp hq with rfl | hq
        · exact ⟨floored, hfloor⟩
        · exact hall q hq
      obtain ⟨e, v', hlater⟩ := ih hrest (killFloored cfg hotkey v p)
      refine ⟨e, v', (Prog.bind_ok (?_ : _ = (Except.ok (), killFloored cfg hotkey v p))).trans hlater⟩
      show (Prog.ofExcept (subWindowFloorReason cfg p.2 cfg.minCallsForScoring) >>= _) v = _
      unfold killFloored
      rw [hfloor, Prog.bind_ok (Prog.ofExcept_run _ _)]
      cases floored with
      | none => rfl
      | some reason => rfl

/-- What the floors leave of everything else. -/
structure FlooredFrame (hotkey : String) (v v' : Validator) : Prop where
  others : ∀ other ≠ hotkey, SameHotkey other v v'
  metagraph : v'.metagraphHotkeys = v.metagraphHotkeys
  scores : v'.scores = v.scores
  weight : modelTierWeight v' hotkey = modelTierWeight v hotkey

theorem flooredFrame_foldl (hotkey : String) (keys : List (String × SubWindow)) (v : Validator) :
    FlooredFrame hotkey v (keys.foldl (killFloored cfg hotkey) v) := by
  induction keys generalizing v with
  | nil => exact ⟨fun other _ => .refl other v, rfl, rfl, rfl⟩
  | cons p rest ih =>
    have hfirst : FlooredFrame hotkey v (killFloored cfg hotkey v p) := by
      rcases killFloored_cases cfg hotkey v p with ⟨-, hsame⟩ | ⟨-, reason, hkill⟩
      · rw [hsame]
        exact ⟨fun other _ => .refl other v, rfl, rfl, rfl⟩
      · rw [hkill]
        exact ⟨fun other hne => sameHotkey_kill v hotkey p.1 reason hne, rfl, rfl,
          modelTierWeight_kill v hotkey p.1 reason⟩
    have hrest := ih (killFloored cfg hotkey v p)
    exact ⟨fun other hne => (hfirst.others other hne).trans (hrest.others other hne),
      hrest.metagraph.trans hfirst.metagraph, hrest.scores.trans hfirst.scores,
      hrest.weight.trans hfirst.weight⟩

/-- The key is not among those a floor kills. -/
def spared (keys : List (String × SubWindow)) (subKey : String) : Bool :=
  keys.all fun p => passes cfg p.2 || p.1 ≠ subKey

theorem spared_cons (p : String × SubWindow) (rest : List (String × SubWindow)) (subKey : String) :
    spared cfg (p :: rest) subKey = ((passes cfg p.2 || p.1 ≠ subKey) && spared cfg rest subKey) :=
  rfl

theorem paidEntries_floored (hotkey : String) (keys : List (String × SubWindow)) (v : Validator) :
    paidEntries (keys.foldl (killFloored cfg hotkey) v) hotkey =
      (paidEntries v hotkey).filter fun p => spared cfg keys p.1 := by
  induction keys generalizing v with
  | nil => simp [spared]
  | cons p rest ih =>
    have hfirst : paidEntries (killFloored cfg hotkey v p) hotkey =
        (paidEntries v hotkey).filter fun q => passes cfg p.2 || p.1 ≠ q.1 := by
      rcases killFloored_cases cfg hotkey v p with ⟨hpass, hsame⟩ | ⟨hpass, reason, hkill⟩
      · rw [hsame, hpass]
        simp
      · rw [hkill, hpass, paidEntries_kill]
        apply List.filter_congr
        intro q _
        simp [eq_comm]
    rw [List.foldl_cons, ih, hfirst, List.filter_filter]
    apply List.filter_congr
    intro q _
    rw [spared_cons, Bool.and_comm]

theorem isLive_floored (hotkey : String) (keys : List (String × SubWindow)) (v : Validator)
    {subKey : String} (h : spared cfg keys subKey = true) :
    isLive (keys.foldl (killFloored cfg hotkey) v) hotkey subKey = isLive v hotkey subKey := by
  induction keys generalizing v with
  | nil => rfl
  | cons p rest ih =>
    rw [spared_cons, Bool.and_eq_true] at h
    rw [List.foldl_cons, ih _ h.2]
    rcases killFloored_cases cfg hotkey v p with ⟨-, hsame⟩ | ⟨hpass, reason, hkill⟩
    · rw [hsame]
    · rw [hkill]
      have hne : subKey ≠ p.1 := by
        intro heq
        rw [hpass, heq] at h
        simp at h
      exact isLive_kill_ne v hotkey p.1 reason hne

/-- A key of the window is spared exactly when it passes itself. -/
theorem spared_iff {keys : List (String × SubWindow)} (hnodup : (keys.map Prod.fst).Nodup)
    {p : String × SubWindow} (hp : p ∈ keys) : spared cfg keys p.1 = passes cfg p.2 := by
  rw [Bool.eq_iff_iff]
  unfold spared
  rw [List.all_eq_true]
  constructor
  · intro h
    have hown := h p hp
    simpa using hown
  · intro hpass q hq
    by_cases heq : q.1 = p.1
    · have hsame : q = p := List.inj_on_of_nodup_map hnodup hq hp heq
      rw [hsame, hpass, Bool.true_or]
    · simp [heq]

/-- After its floors, the live sub-windows of a hotkey are those that are pooled. -/
theorem live_after_floors (v : Validator) (hotkey : String) :
    liveOf ((paidEntries v hotkey).foldl (killFloored cfg hotkey) v) hotkey =
      scoredSubs cfg v hotkey := by
  unfold liveOf scoredSubs
  rw [paidEntries_floored, List.filter_filter]
  refine congrArg _ (List.filter_congr ?_)
  intro p hp
  have hspared := spared_iff cfg (nodup_paidEntries v hotkey) hp
  rw [hspared]
  cases hpass : passes cfg p.2 with
  | false => simp
  | true => rw [isLive_floored cfg hotkey _ v (hspared.trans hpass), Bool.and_comm]

/-! ## One hotkey -/

/-- What scoring a hotkey does to the state. -/
structure Scored (hotkey : String) (v v' : Validator) : Prop where
  others : ∀ other ≠ hotkey, SameHotkey other v v'
  metagraph : v'.metagraphHotkeys = v.metagraphHotkeys
  weight : modelTierWeight v' hotkey = modelTierWeight v hotkey
  live : liveOf v' hotkey = scoredSubs cfg v hotkey
  scores : (InRange v hotkey ∧
      v'.scores = v.scores.set (v.metagraphHotkeys.idxOf hotkey) (reward cfg v hotkey)) ∨
    ((scoredSubs cfg v hotkey = [] ∨ ¬ InRange v hotkey) ∧ v'.scores = v.scores)

/-- `_hotkey_key_states` creates the entry it reads. -/
def createKeys (hotkey : String) (v : Validator) : Validator :=
  let status := (v.llmKeyHotkeyStatus.get? hotkey).getD {}
  { v with
    llmKeyHotkeyStatus :=
      v.llmKeyHotkeyStatus.insert hotkey { status with keys := some (status.keys.getD ∅) } }

/-- What it creates says nothing. -/
theorem keyStatesOf_createKeys (v : Validator) (hotkey : String) :
    keyStatesOf (createKeys hotkey v) hotkey = keyStatesOf v hotkey := by
  unfold keyStatesOf createKeys
  cases v.llmKeyHotkeyStatus.get? hotkey with
  | none => simp
  | some status => simp

theorem modelTierWeight_createKeys (v : Validator) (hotkey : String) :
    modelTierWeight (createKeys hotkey v) hotkey = modelTierWeight v hotkey := by
  simp [modelTierWeight, createKeys]

theorem sameHotkey_createKeys {v : Validator} {hotkey other : String} (h : other ≠ hotkey) :
    SameHotkey other v (createKeys hotkey v) :=
  ⟨rfl, rfl, by simp [createKeys, h]⟩

/-- The second half of `scoreHotkey`, after the floors. -/
def rewardHotkey (hotkey : String) : Method Unit := do
  let v ← Prog.get
  match v.llmKeyLastEpochCalls.get? hotkey with
  | none => pure ()
  | some acc =>
    Prog.modify (createKeys hotkey)
    let subs := liveSubs v hotkey acc
    if subs.isEmpty then return ()
    if v.metagraphHotkeys.idxOf hotkey < v.metagraphHotkeys.length then
      let uid := v.metagraphHotkeys.idxOf hotkey
      if v.scores.length ≤ uid then return ()
      let reward ← Prog.ofExcept (pooledWindowReward cfg v hotkey subs)
      Prog.modify fun v => { v with scores := v.scores.set uid reward }

theorem scoreHotkey_eq (hotkey : String) (v : Validator) : scoreHotkey cfg hotkey v =
    (killFlooredKeys cfg hotkey (paidEntries v hotkey) >>= fun _ => rewardHotkey cfg hotkey) v := by
  have hentries : ((v.llmKeyLastEpochCalls.get? hotkey).getD ⟨∅, 0, 0⟩).keys.entries =
      paidEntries v hotkey := by
    unfold paidEntries
    cases v.llmKeyLastEpochCalls.get? hotkey <;> rfl
  rw [← hentries]
  rfl

/-- What the second half can do. -/
theorem rewardHotkey_cases (hotkey : String) (v : Validator) :
    ((liveOf v hotkey = [] ∨ ¬ InRange v hotkey) ∧ ∃ v', (v' = v ∨ v' = createKeys hotkey v) ∧
      rewardHotkey cfg hotkey v = (.ok (), v')) ∨
    (liveOf v hotkey ≠ [] ∧ InRange v hotkey ∧
      ((∃ reward, pooledWindowReward cfg v hotkey (liveOf v hotkey) = .ok reward ∧
        rewardHotkey cfg hotkey v = (.ok (), { createKeys hotkey v with
          scores := v.scores.set (v.metagraphHotkeys.idxOf hotkey) reward })) ∨
      (∃ e, pooledWindowReward cfg v hotkey (liveOf v hotkey) = .error e ∧
        rewardHotkey cfg hotkey v = (.error e, createKeys hotkey v)))) := by
  unfold rewardHotkey
  rw [Prog.bind_ok (Prog.get_run v)]
  cases hacc : v.llmKeyLastEpochCalls.get? hotkey with
  | none =>
    have hempty : liveOf v hotkey = [] := by
      unfold liveOf paidEntries
      rw [hacc]
      rfl
    exact .inl ⟨.inl hempty, v, .inl rfl, rfl⟩
  | some acc =>
    have hlive : liveSubs v hotkey acc = liveOf v hotkey := liveSubs_eq hacc
    dsimp only
    rw [Prog.bind_ok (Prog.modify_run _ v), hlive]
    by_cases hempty : liveOf v hotkey = []
    · left
      refine ⟨.inl hempty, createKeys hotkey v, .inr rfl, ?_⟩
      rw [hempty]
      rfl
    · rw [if_neg (by simpa using hempty)]
      by_cases hregistered : v.metagraphHotkeys.idxOf hotkey < v.metagraphHotkeys.length
      · rw [if_pos hregistered]
        by_cases hplace : v.metagraphHotkeys.idxOf hotkey < v.scores.length
        · right
          refine ⟨hempty, ⟨hregistered, hplace⟩, ?_⟩
          rw [if_neg (not_le.mpr hplace)]
          cases hreward : pooledWindowReward cfg v hotkey (liveOf v hotkey) with
          | error e => exact .inr ⟨e, rfl, rfl⟩
          | ok reward => exact .inl ⟨reward, rfl, rfl⟩
        · left
          refine ⟨.inr fun hrange => hplace hrange.2, createKeys hotkey v, .inr rfl, ?_⟩
          rw [if_pos (not_lt.mp hplace)]
          rfl
      · left
        refine ⟨.inr fun hrange => hregistered hrange.1, createKeys hotkey v, .inr rfl, ?_⟩
        rw [if_neg hregistered]
        rfl

/-- A created entry changes nothing that is read. -/
theorem liveOf_createKeys (v : Validator) (hotkey : String) :
    liveOf (createKeys hotkey v) hotkey = liveOf v hotkey := by
  have hentries : paidEntries (createKeys hotkey v) hotkey = paidEntries v hotkey := rfl
  unfold liveOf isLive
  rw [hentries, keyStatesOf_createKeys]

theorem flooredFrame_createKeys {hotkey : String} {v v' : Validator}
    (h : FlooredFrame hotkey v v') : FlooredFrame hotkey v (createKeys hotkey v') where
  others other hne := (h.others other hne).trans (sameHotkey_createKeys hne)
  metagraph := h.metagraph
  scores := h.scores
  weight := (modelTierWeight_createKeys v' hotkey).trans h.weight

theorem inRange_congr {v v' : Validator} (hmetagraph : v'.metagraphHotkeys = v.metagraphHotkeys)
    (hlength : v'.scores.length = v.scores.length) (hotkey : String) :
    InRange v' hotkey ↔ InRange v hotkey := by
  unfold InRange
  rw [hmetagraph, hlength]

theorem scoreHotkey_cases (hotkey : String) (v : Validator) :
    (Scorable cfg v hotkey ∧ ∃ v', scoreHotkey cfg hotkey v = (.ok (), v') ∧
      Scored cfg hotkey v v') ∨
    (¬ Scorable cfg v hotkey ∧ ∃ e v', scoreHotkey cfg hotkey v = (.error e, v')) := by
  rw [scoreHotkey_eq]
  by_cases hfloors : ∀ p ∈ paidEntries v hotkey, ∃ reason,
      subWindowFloorReason cfg p.2 cfg.minCallsForScoring = .ok reason
  · rw [Prog.bind_ok (killFlooredKeys_ok cfg hfloors v)]
    have hframe := flooredFrame_foldl cfg hotkey (paidEntries v hotkey) v
    have hlive := live_after_floors cfg v hotkey
    generalize (paidEntries v hotkey).foldl (killFloored cfg hotkey) v = floored at hframe hlive
    have hrange : InRange floored hotkey ↔ InRange v hotkey :=
      inRange_congr hframe.metagraph (congrArg List.length hframe.scores) hotkey
    have hreward := pooledWindowReward_congr cfg hframe.weight (scoredSubs cfg v hotkey)
    rcases rewardHotkey_cases cfg hotkey floored with ⟨hnothing, v', hv', hrun⟩ |
      ⟨hsubs, hplace, ⟨earned, hpooled, hrun⟩ | ⟨e, hpooled, hrun⟩⟩
    · -- nothing to pool, or nobody to pay
      rw [hlive, hrange] at hnothing
      have hframe' : FlooredFrame hotkey v v' := by
        rcases hv' with rfl | rfl
        · exact hframe
        · exact flooredFrame_createKeys hframe
      have hlive' : liveOf v' hotkey = scoredSubs cfg v hotkey := by
        rcases hv' with rfl | rfl
        · exact hlive
        · rw [liveOf_createKeys, hlive]
      left
      refine ⟨⟨hfloors, fun hsubs hplace => ?_⟩, v', hrun, hframe'.others, hframe'.metagraph,
        hframe'.weight, hlive', .inr ⟨hnothing, hframe'.scores⟩⟩
      exact (hnothing.elim hsubs fun hno => hno hplace).elim
    · rw [hlive, hreward] at hpooled
      rw [hlive] at hsubs
      rw [hrange] at hplace
      have hframe' := flooredFrame_createKeys hframe
      have hearned : reward cfg v hotkey = earned := by
        unfold reward
        rw [if_neg hsubs, hpooled]
      left
      refine ⟨⟨hfloors, fun _ _ => ⟨earned, hpooled⟩⟩, _, hrun, ?_, hframe'.metagraph, ?_, ?_,
        .inl ⟨hplace, ?_⟩⟩
      · intro other hne
        exact (hframe'.others other hne).trans ⟨rfl, rfl, rfl⟩
      · exact hframe'.weight
      · exact (liveOf_createKeys floored hotkey).trans hlive
      · show floored.scores.set _ earned = _
        rw [hframe.scores, hframe.metagraph, hearned]
    · rw [hlive, hreward] at hpooled
      rw [hlive] at hsubs
      rw [hrange] at hplace
      right
      refine ⟨fun hscorable => ?_, e, _, hrun⟩
      obtain ⟨earned, hearned⟩ := hscorable.2 hsubs hplace
      rw [hpooled] at hearned
      cases hearned
  · obtain ⟨e, v', hrun⟩ := killFlooredKeys_error cfg hfloors v
    right
    exact ⟨fun hscorable => hfloors hscorable.1, e, v', Prog.bind_error hrun⟩

/-- Scoring one hotkey leaves the others as they are to be scored. -/
theorem Scored.scorable {hotkey other : String} {v v' : Validator} (h : Scored cfg hotkey v v')
    (hne : other ≠ hotkey) : (Scorable cfg v' other ↔ Scorable cfg v other) ∧
      reward cfg v' other = reward cfg v other ∧ scoredSubs cfg v' other = scoredSubs cfg v other := by
  have hsame := h.others other hne
  have hlength : v'.scores.length = v.scores.length := by
    rcases h.scores with ⟨-, hset⟩ | ⟨-, hkept⟩
    · rw [hset, List.length_set]
    · rw [hkept]
  have hpooled := pooledWindowReward_congr cfg hsame.modelTierWeight (scoredSubs cfg v other)
  refine ⟨?_, ?_, hsame.scoredSubs cfg⟩
  · unfold Scorable
    rw [hsame.paidEntries, hsame.scoredSubs cfg, hpooled, inRange_congr h.metagraph hlength]
  · unfold reward
    rw [hsame.scoredSubs cfg, hpooled]

/-! ## The hotkeys of a window, one after the other -/

/-- Two registered hotkeys do not share a uid. -/
theorem idxOf_ne {v : Validator} {hotkey other : String}
    (h : v.metagraphHotkeys.idxOf hotkey < v.metagraphHotkeys.length) (hne : other ≠ hotkey) :
    v.metagraphHotkeys.idxOf other ≠ v.metagraphHotkeys.idxOf hotkey := by
  intro heq
  have hmem : hotkey ∈ v.metagraphHotkeys := List.idxOf_lt_length_iff.mp h
  exact hne ((List.idxOf_inj hmem).mp heq.symm).symm

/-- What scoring some hotkeys does to the state. -/
structure AllScored (hotkeys : List String) (v v' : Validator) : Prop where
  others : ∀ other ∉ hotkeys, SameHotkey other v v'
  metagraph : v'.metagraphHotkeys = v.metagraphHotkeys
  length : v'.scores.length = v.scores.length
  weight : ∀ hotkey, modelTierWeight v' hotkey = modelTierWeight v hotkey
  live : ∀ hotkey ∈ hotkeys, liveOf v' hotkey = scoredSubs cfg v hotkey
  unpaid : ∀ uid, (∀ hotkey ∈ hotkeys, InRange v hotkey → v.metagraphHotkeys.idxOf hotkey ≠ uid) →
    v'.scores[uid]? = v.scores[uid]?
  paid : ∀ hotkey ∈ hotkeys, InRange v hotkey →
    v.scores[v.metagraphHotkeys.idxOf hotkey]? = some 0 →
    v'.scores[v.metagraphHotkeys.idxOf hotkey]? = some (reward cfg v hotkey)

theorem SameHotkey.liveOf {hotkey : String} {v v' : Validator} (h : SameHotkey hotkey v v') :
    TaoSubnet.liveOf v' hotkey = TaoSubnet.liveOf v hotkey := by
  unfold TaoSubnet.liveOf
  rw [h.paidEntries]
  simp only [h.isLive]

theorem AllScored.nil (v : Validator) : AllScored cfg [] v v where
  others other _ := .refl other v
  metagraph := rfl
  length := rfl
  weight _ := rfl
  live := List.forall_mem_nil _
  unpaid _ _ := rfl
  paid := List.forall_mem_nil _

/-- One hotkey more. -/
theorem AllScored.cons {hotkey : String} {rest : List String} {v v' v'' : Validator}
    (hfirst : Scored cfg hotkey v v') (hnot : hotkey ∉ rest) (hrest : AllScored cfg rest v' v'') :
    AllScored cfg (hotkey :: rest) v v'' := by
  have hlength : v'.scores.length = v.scores.length := by
    rcases hfirst.scores with ⟨-, hset⟩ | ⟨-, hkept⟩
    · rw [hset, List.length_set]
    · rw [hkept]
  have helsewhere : ∀ uid, (InRange v hotkey → v.metagraphHotkeys.idxOf hotkey ≠ uid) →
      v'.scores[uid]? = v.scores[uid]? := by
    intro uid hne
    rcases hfirst.scores with ⟨hrange, hset⟩ | ⟨-, hkept⟩
    · rw [hset, List.getElem?_set_ne (hne hrange)]
    · rw [hkept]
  constructor
  · intro other hother
    have hne : other ≠ hotkey := fun heq => hother (heq ▸ List.mem_cons_self)
    have hlater : other ∉ rest := fun hmem => hother (List.mem_cons_of_mem hotkey hmem)
    exact (hfirst.others other hne).trans (hrest.others other hlater)
  · exact hrest.metagraph.trans hfirst.metagraph
  · exact hrest.length.trans hlength
  · intro other
    rw [hrest.weight]
    by_cases hne : other = hotkey
    · rw [hne, hfirst.weight]
    · exact (hfirst.others other hne).modelTierWeight
  · intro other hother
    by_cases hne : other = hotkey
    · rw [hne, (hrest.others hotkey hnot).liveOf, hfirst.live]
    · rw [hrest.live other ((List.mem_cons.mp hother).resolve_left hne),
        (hfirst.scorable cfg hne).2.2]
  · intro uid hno
    rw [hrest.unpaid uid fun other hother hrange => ?_,
      helsewhere uid (hno hotkey List.mem_cons_self)]
    rw [hfirst.metagraph]
    exact hno other (List.mem_cons_of_mem hotkey hother)
      ((inRange_congr hfirst.metagraph hlength other).mp hrange)
  · intro other hother hrange hzero
    by_cases hne : other = hotkey
    · -- its own place, which no later hotkey has
      subst hne
      rw [hrest.unpaid _ fun later hlater _ => ?_]
      · rcases hfirst.scores with ⟨-, hset⟩ | ⟨hnothing, hkept⟩
        · rw [hset, List.getElem?_set_self hrange.2]
        · have hnone : scoredSubs cfg v other = [] := hnothing.resolve_right fun hno => hno hrange
          rw [hkept, hzero, reward, if_pos hnone]
      · rw [hfirst.metagraph]
        apply idxOf_ne hrange.1
        rintro rfl
        exact hnot hlater
    · have hplace := idxOf_ne hrange.1 (Ne.symm hne)
      have hpaid := hrest.paid other ((List.mem_cons.mp hother).resolve_left hne)
        ((inRange_congr hfirst.metagraph hlength other).mpr hrange)
      rw [hfirst.metagraph, helsewhere _ fun _ => hplace] at hpaid
      rw [hpaid hzero, (hfirst.scorable cfg hne).2.1]

theorem scoreHotkeys_cases {hotkeys : List String} (hnodup : hotkeys.Nodup) (v : Validator) :
    ((∀ hotkey ∈ hotkeys, Scorable cfg v hotkey) ∧ ∃ v',
      Prog.forEach hotkeys (scoreHotkey cfg) v = (.ok (), v') ∧ AllScored cfg hotkeys v v') ∨
    ((¬ ∀ hotkey ∈ hotkeys, Scorable cfg v hotkey) ∧ ∃ e v',
      Prog.forEach hotkeys (scoreHotkey cfg) v = (.error e, v')) := by
  induction hotkeys generalizing v with
  | nil =>
    left
    exact ⟨List.forall_mem_nil _, v, rfl, .nil cfg v⟩
  | cons hotkey rest ih =>
    obtain ⟨hnot, hrest⟩ := List.nodup_cons.mp hnodup
    rcases scoreHotkey_cases cfg hotkey v with ⟨hscorable, v', hrun, hscored⟩ | ⟨hno, e, v', hrun⟩
    · have hsame : (∀ other ∈ rest, Scorable cfg v' other) ↔ ∀ other ∈ rest, Scorable cfg v other := by
        apply forall₂_congr
        intro other hother
        refine (hscored.scorable cfg ?_).1
        rintro rfl
        exact hnot hother
      rcases ih hrest v' with ⟨hall, v'', hrun', hallScored⟩ | ⟨hno, e, v'', hrun'⟩
      · left
        refine ⟨?_, v'', (Prog.bind_ok hrun).trans hrun', hallScored.cons cfg hscored hnot⟩
        exact List.forall_mem_cons.mpr ⟨hscorable, hsame.mp hall⟩
      · right
        refine ⟨fun hall => hno (hsame.mpr fun other hother => ?_), e, v'',
          (Prog.bind_ok hrun).trans hrun'⟩
        exact hall other (List.mem_cons_of_mem hotkey hother)
    · right
      exact ⟨fun hall => hno (hall hotkey List.mem_cons_self), e, v', Prog.bind_error hrun⟩

/-! ## `_score_last_epoch` -/

/-- The state the first hotkey is scored in. -/
def zeroed (v : Validator) : Validator := { v with scores := List.replicate v.scores.length 0 }

theorem inRange_zeroed (v : Validator) (hotkey : String) :
    InRange (zeroed v) hotkey ↔ InRange v hotkey := by
  have hmetagraph : (zeroed v).metagraphHotkeys = v.metagraphHotkeys := rfl
  have hlength : (zeroed v).scores.length = v.scores.length := List.length_replicate
  exact inRange_congr hmetagraph hlength hotkey

theorem scorable_zeroed (v : Validator) (hotkey : String) :
    Scorable cfg (zeroed v) hotkey ↔ Scorable cfg v hotkey := by
  have hrange := inRange_zeroed v hotkey
  unfold Scorable
  rw [hrange]
  rfl

theorem scoreLastEpoch_cases (v : Validator) :
    ((∀ hotkey ∈ v.llmKeyLastEpochCalls.keys, Scorable cfg v hotkey) ∧ ∃ v',
      scoreLastEpoch cfg v = (.ok (), v') ∧
      AllScored cfg v.llmKeyLastEpochCalls.keys (zeroed v) v') ∨
    ((¬ ∀ hotkey ∈ v.llmKeyLastEpochCalls.keys, Scorable cfg v hotkey) ∧ ∃ e v',
      scoreLastEpoch cfg v = (.error e, v') ∧ v'.scores = v.scores) := by
  unfold scoreLastEpoch
  rw [Prog.bind_ok (Prog.get_run v)]
  have hnodup : v.llmKeyLastEpochCalls.keys.Nodup := v.llmKeyLastEpochCalls.nodupKeys
  have hscorable : (∀ hotkey ∈ v.llmKeyLastEpochCalls.keys, Scorable cfg (zeroed v) hotkey) ↔
      ∀ hotkey ∈ v.llmKeyLastEpochCalls.keys, Scorable cfg v hotkey :=
    forall₂_congr fun hotkey _ => scorable_zeroed cfg v hotkey
  rcases scoreHotkeys_cases cfg hnodup (zeroed v) with ⟨hall, v', hrun, hscored⟩ |
    ⟨hno, e, v', hrun⟩
  · left
    refine ⟨hscorable.mp hall, v', ?_, hscored⟩
    apply Prog.tryExcept_ok
    exact (Prog.bind_ok (Prog.modify_run _ v)).trans hrun
  · right
    refine ⟨fun hall => hno (hscorable.mpr hall), e, { v' with scores := v.scores }, ?_, rfl⟩
    rw [Prog.tryExcept_error ((Prog.bind_ok (Prog.modify_run _ v)).trans hrun)]
    rfl

/-- Scoring ends normally exactly when each hotkey of the window can be scored on its own. -/
theorem scoreLastEpoch_ok_iff (v : Validator) : (scoreLastEpoch cfg v).1 = .ok () ↔
    ∀ hotkey ∈ v.llmKeyLastEpochCalls.keys, Scorable cfg v hotkey := by
  rcases scoreLastEpoch_cases cfg v with ⟨hall, v', hrun, -⟩ | ⟨hno, e, v', hrun, -⟩
  · rw [hrun]
    exact iff_of_true rfl hall
  · rw [hrun]
    exact iff_of_false (fun h => by cases h) hno

/-- What a uid has earned. -/
def rewardAt (v : Validator) (uid : Nat) : ℚ :=
  match v.metagraphHotkeys[uid]? with
  | some hotkey => if v.metagraphHotkeys.idxOf hotkey = uid then reward cfg v hotkey else 0
  | none => 0

/-- A hotkey without a paid window earns nothing. -/
theorem reward_of_not_mem {v : Validator} {hotkey : String}
    (h : hotkey ∉ v.llmKeyLastEpochCalls.keys) : reward cfg v hotkey = 0 := by
  have hnone : v.llmKeyLastEpochCalls.get? hotkey = none := by
    by_contra hsome
    obtain ⟨acc, hacc⟩ := Option.ne_none_iff_exists'.mp hsome
    exact h (Dict.mem_keys_iff.mpr ⟨acc, hacc⟩)
  have hempty : scoredSubs cfg v hotkey = [] := by
    unfold scoredSubs paidEntries
    rw [hnone]
    rfl
  rw [reward, if_pos hempty]

/-- Where scoring ends normally, every uid has what its hotkey earned. -/
theorem scoreLastEpoch_scores {v v' : Validator} (h : scoreLastEpoch cfg v = (.ok (), v')) :
    v'.scores = (List.range v.scores.length).map (rewardAt cfg v) := by
  rcases scoreLastEpoch_cases cfg v with ⟨hall, v'', hrun, hscored⟩ | ⟨-, e, v'', hrun, -⟩
  · rw [hrun] at h
    cases h
    have hlength : v'.scores.length = v.scores.length := by
      rw [hscored.length]
      exact List.length_replicate
    apply List.ext_getElem?
    intro uid
    by_cases huid : uid < v.scores.length
    · rw [List.getElem?_map, List.getElem?_range huid, Option.map_some]
      have hzero : (zeroed v).scores[uid]? = some 0 := by simp [zeroed, huid]
      unfold rewardAt
      have hunpaid : (∀ hotkey ∈ v.llmKeyLastEpochCalls.keys, InRange v hotkey →
          v.metagraphHotkeys.idxOf hotkey ≠ uid) → v'.scores[uid]? = some 0 := by
        intro hno
        rw [← hzero]
        apply hscored.unpaid
        intro hotkey hmem hrange
        exact hno hotkey hmem ((inRange_zeroed v hotkey).mp hrange)
      cases hhotkey : v.metagraphHotkeys[uid]? with
      | none =>
        rw [hunpaid fun other _ hrange heq => ?_]
        rw [← heq, List.getElem?_eq_none_iff] at hhotkey
        exact absurd hrange.1 (by omega)
      | some hotkey =>
        dsimp only
        by_cases hfirst : v.metagraphHotkeys.idxOf hotkey = uid
        · rw [if_pos hfirst]
          obtain ⟨hregistered, -⟩ := List.getElem?_eq_some_iff.mp hhotkey
          by_cases hmem : hotkey ∈ v.llmKeyLastEpochCalls.keys
          · have hrange : InRange v hotkey := by
              unfold InRange
              rw [hfirst]
              exact ⟨hregistered, huid⟩
            have hpaid := hscored.paid hotkey hmem ((inRange_zeroed v hotkey).mpr hrange)
            have hplace : (zeroed v).metagraphHotkeys.idxOf hotkey = uid := hfirst
            rw [hplace] at hpaid
            exact hpaid hzero
          · rw [reward_of_not_mem cfg hmem]
            apply hunpaid
            intro other hother hrange heq
            have hsame : other = hotkey := by
              have hmember : hotkey ∈ v.metagraphHotkeys := List.mem_of_getElem? hhotkey
              exact ((List.idxOf_inj hmember).mp (hfirst.trans heq.symm)).symm
            rw [hsame] at hother
            exact hmem hother
        · rw [if_neg hfirst]
          apply hunpaid
          intro other _ hrange heq
          -- the uid is that of the hotkey that stands there
          have hat : v.metagraphHotkeys[uid]? = some other := by
            rw [← heq]
            exact List.getElem?_idxOf (List.idxOf_lt_length_iff.mp hrange.1)
          rw [hhotkey] at hat
          cases hat
          exact hfirst heq
    · have hout : v'.scores[uid]? = none := List.getElem?_eq_none (by omega)
      rw [hout, List.getElem?_eq_none (by simpa using huid)]
  · rw [hrun] at h
    cases h

/-! ## What scoring reads -/

/-- Two states that are scored alike: the same uids, the same paid rows, and of the keys that have
    rows the same ones live. -/
structure SameScoring (v w : Validator) : Prop where
  metagraph : w.metagraphHotkeys = v.metagraphHotkeys
  scores : w.scores = v.scores
  weight : ∀ hotkey, modelTierWeight w hotkey = modelTierWeight v hotkey
  entries : ∀ hotkey, paidEntries w hotkey = paidEntries v hotkey
  live : ∀ hotkey, ∀ p ∈ paidEntries v hotkey, isLive w hotkey p.1 = isLive v hotkey p.1

namespace SameScoring

variable {cfg} {v w : Validator} (h : SameScoring v w)

include h

theorem scoredSubs (hotkey : String) :
    TaoSubnet.scoredSubs cfg w hotkey = TaoSubnet.scoredSubs cfg v hotkey := by
  unfold TaoSubnet.scoredSubs
  rw [h.entries]
  refine congrArg _ (List.filter_congr ?_)
  intro p hp
  rw [h.live hotkey p hp]

theorem scorable (hotkey : String) : Scorable cfg w hotkey ↔ Scorable cfg v hotkey := by
  have hpooled := pooledWindowReward_congr cfg (h.weight hotkey) (TaoSubnet.scoredSubs cfg v hotkey)
  unfold Scorable
  rw [h.entries, h.scoredSubs, hpooled,
    inRange_congr h.metagraph (congrArg List.length h.scores) hotkey]

theorem reward (hotkey : String) : TaoSubnet.reward cfg w hotkey = TaoSubnet.reward cfg v hotkey := by
  unfold TaoSubnet.reward
  rw [h.scoredSubs, pooledWindowReward_congr cfg (h.weight hotkey)]

theorem rewardAt (uid : Nat) : TaoSubnet.rewardAt cfg w uid = TaoSubnet.rewardAt cfg v uid := by
  unfold TaoSubnet.rewardAt
  rw [h.metagraph]
  cases v.metagraphHotkeys[uid]? with
  | none => rfl
  | some hotkey =>
    dsimp only
    rw [h.reward]

end SameScoring

/-- A hotkey without a window has nothing that could not be scored. -/
theorem scorable_of_not_mem {v : Validator} {hotkey : String}
    (h : hotkey ∉ v.llmKeyLastEpochCalls.keys) : Scorable cfg v hotkey := by
  have hentries : paidEntries v hotkey = [] := by
    unfold paidEntries
    cases hacc : v.llmKeyLastEpochCalls.get? hotkey with
    | none => rfl
    | some acc => exact absurd (Dict.mem_keys_iff.mpr ⟨acc, hacc⟩) h
  have hsubs : scoredSubs cfg v hotkey = [] := by
    unfold scoredSubs
    rw [hentries]
    rfl
  constructor
  · rw [hentries]
    exact List.forall_mem_nil _
  · intro hne
    exact absurd hsubs hne

theorem scoreLastEpoch_ok_iff_all (v : Validator) : (scoreLastEpoch cfg v).1 = .ok () ↔
    ∀ hotkey, Scorable cfg v hotkey := by
  rw [scoreLastEpoch_ok_iff]
  constructor
  · intro h hotkey
    by_cases hmem : hotkey ∈ v.llmKeyLastEpochCalls.keys
    · exact h hotkey hmem
    · exact scorable_of_not_mem cfg hmem
  · intro h hotkey _
    exact h hotkey

/-- **Scoring is a function of what it reads**: states that are scored alike are scored the same, also
    where neither can be. -/
theorem SameScoring.scoreLastEpoch {v w : Validator} (h : SameScoring v w) :
    ((scoreLastEpoch cfg w).1 = .ok () ↔ (scoreLastEpoch cfg v).1 = .ok ()) ∧
      (scoreLastEpoch cfg w).2.scores = (scoreLastEpoch cfg v).2.scores := by
  have hok : (TaoSubnet.scoreLastEpoch cfg w).1 = .ok () ↔
      (TaoSubnet.scoreLastEpoch cfg v).1 = .ok () := by
    rw [scoreLastEpoch_ok_iff_all, scoreLastEpoch_ok_iff_all]
    exact forall_congr' fun hotkey => h.scorable hotkey
  refine ⟨hok, ?_⟩
  rcases scoreLastEpoch_cases cfg v with ⟨-, v', hrun, -⟩ | ⟨-, e, v', hrun, hscores⟩
  · have hrun' : (TaoSubnet.scoreLastEpoch cfg w).1 = .ok () := by
      rw [hok, hrun]
    rcases hw : TaoSubnet.scoreLastEpoch cfg w with ⟨e | _, w'⟩
    · rw [hw] at hrun'
      cases hrun'
    · rw [hrun]
      show w'.scores = v'.scores
      rw [scoreLastEpoch_scores cfg hw, scoreLastEpoch_scores cfg hrun, h.scores]
      exact List.map_congr_left fun uid _ => h.rewardAt uid
  · rcases scoreLastEpoch_cases cfg w with ⟨-, w', hw, -⟩ | ⟨-, e', w', hw, hscores'⟩
    · rw [hw, hrun] at hok
      cases hok.mp rfl
    · rw [hw, hrun]
      exact hscores'.trans (h.scores.trans hscores.symm)

end TaoSubnet
