import TaoSubnet.Proof.LlmKey.Scores

/-!
# What a kill takes away

One key's rows, from both windows, and its life; everything else is read as before. Scores see
nothing else of it: they are those of a window in which the key never had a row.
-/

namespace TaoSubnet

open Py

/-! ## Windows without a key -/

/-- A hotkey's window without the rows of one key; there is no window without rows. -/
def cutWindow (subKey : String) (window : Option Window) : Option Window :=
  window.bind fun acc =>
    if (acc.keys.erase subKey).isEmpty then none else some { acc with keys := acc.keys.erase subKey }

theorem get?_dropSubKey (windows : Windows) (hotkey subKey other : String) :
    (dropSubKey windows hotkey subKey).get? other =
      if other = hotkey then cutWindow subKey (windows.get? hotkey) else windows.get? other := by
  by_cases hother : other = hotkey
  · subst hother
    rw [if_pos rfl]
    unfold dropSubKey cutWindow
    cases hacc : windows.get? other with
    | none => exact hacc
    | some acc =>
      dsimp only [Option.bind_some]
      split
      · simp
      · simp
  · rw [if_neg hother]
    exact get?_dropSubKey_ne hotkey subKey windows hother

theorem cutWindow_idem (subKey : String) (window : Option Window) :
    cutWindow subKey (cutWindow subKey window) = cutWindow subKey window := by
  cases window with
  | none => rfl
  | some acc =>
    unfold cutWindow
    dsimp only [Option.bind_some]
    split
    · rfl
    · rename_i hkeys
      dsimp only [Option.bind_some]
      rw [Dict.erase_erase, if_neg hkeys]

/-- Keys are cut in either order: a window that one cut empties has nothing for the other. -/
theorem cutWindow_comm (subKey subKey' : String) (window : Option Window) :
    cutWindow subKey' (cutWindow subKey window) = cutWindow subKey (cutWindow subKey' window) := by
  have hboth : ∀ k k' : String, cutWindow k' (cutWindow k window) = window.bind fun acc =>
      if ((acc.keys.erase k).erase k').isEmpty then none
      else some { acc with keys := (acc.keys.erase k).erase k' } := by
    intro k k'
    cases window with
    | none => rfl
    | some acc =>
      unfold cutWindow
      dsimp only [Option.bind_some]
      split
      · rename_i hempty
        have hnone : ((acc.keys.erase k).erase k').isEmpty = true := by
          rw [Dict.isEmpty_iff] at hempty ⊢
          intro other
          rw [Dict.get?_erase, hempty]
          simp
        rw [if_pos hnone]
        rfl
      · rfl
  rw [hboth, hboth]
  simp only [Dict.erase_comm _ subKey subKey']

/-! ## What is read of a state -/

/-- What is remembered of one key. -/
def keyState (v : Validator) (bucket : Bucket) : Option KeyState :=
  (keyStatesOf v bucket.1).get? bucket.2

/-- What is remembered of a hotkey besides its keys. -/
def record (v : Validator) (hotkey : String) : Option HotkeyStatus :=
  (v.llmKeyHotkeyStatus.get? hotkey).map fun status => { status with keys := none }

/-- Two states that read the same, up to what `see` leaves out of the state of a key. -/
structure SameState (see : KeyState → KeyState) (v w : Validator) : Prop where
  collecting : ∀ hotkey, w.llmKeyPendingCalls.get? hotkey = v.llmKeyPendingCalls.get? hotkey
  paid : ∀ hotkey, w.llmKeyLastEpochCalls.get? hotkey = v.llmKeyLastEpochCalls.get? hotkey
  record : ∀ hotkey, record w hotkey = record v hotkey
  keyState : ∀ bucket, (keyState w bucket).map see = (keyState v bucket).map see
  metagraph : w.metagraphHotkeys = v.metagraphHotkeys ∧ w.hotkeys = v.hotkeys
  scores : w.scores = v.scores
  clock : w.llmKeyEpochStartBlock = v.llmKeyEpochStartBlock
  polls : w.lastLlmKeyReportPollAt = v.lastLlmKeyReportPollAt ∧
    w.lastLlmKeyReportCursor = v.lastLlmKeyReportCursor

/-- All of a key's state but the reason it was killed for. -/
def withoutReason (state : KeyState) : KeyState := { state with killedReason := none }

variable (v : Validator) (hotkey subKey reason : String)

theorem record_kill (other : String) : record (killHotkeyKey v hotkey subKey reason) other =
    if other = hotkey then some ((record v hotkey).getD {}) else record v other := by
  show ((updateKeyState v hotkey subKey (markDead reason)).llmKeyHotkeyStatus.get? other).map _ = _
  unfold updateKeyState record
  by_cases hother : other = hotkey
  · rw [if_pos hother, hother]
    cases v.llmKeyHotkeyStatus.get? hotkey with
    | none => simp
    | some status => simp
  · rw [if_neg hother]
    simp [hother]

theorem keyState_kill (bucket : Bucket) : keyState (killHotkeyKey v hotkey subKey reason) bucket =
    if bucket = (hotkey, subKey) then some (markDead reason ((keyState v bucket).getD {}))
    else keyState v bucket := by
  obtain ⟨other, otherKey⟩ := bucket
  unfold keyState
  by_cases hother : other = hotkey
  · subst hother
    have hkeys : keyStatesOf (killHotkeyKey v other subKey reason) other =
        keyStatesOf (updateKeyState v other subKey (markDead reason)) other := rfl
    rw [hkeys, keyStatesOf_updateKeyState, Dict.get?_insert]
    by_cases hkey : otherKey = subKey
    · subst hkey
      rw [if_pos rfl, if_pos rfl]
    · rw [if_neg hkey, if_neg]
      intro heq
      exact hkey (congrArg Prod.snd heq)
  · have hsame := sameHotkey_kill v hotkey subKey reason hother
    rw [if_neg fun heq => hother (congrArg Prod.fst heq)]
    exact congrArg (fun keys => keys.get? otherKey) hsame.keyStatesOf

theorem markDead_markDead (reason reason' : String) (state : KeyState) :
    markDead reason' (markDead reason state) = markDead reason state := by
  by_cases halive : state.alive = some false
  · simp [markDead, halive]
  · simp [markDead, halive]

theorem withoutReason_markDead (reason : String) (state : KeyState) :
    withoutReason (markDead reason state) = { withoutReason state with alive := some false } := by
  by_cases halive : state.alive = some false
  · simp [markDead, withoutReason, halive]
  · simp [markDead, withoutReason, halive]

/-- A second kill of the same key changes nothing. -/
theorem kill_idem (reason' : String) : SameState id (killHotkeyKey v hotkey subKey reason)
    (killHotkeyKey (killHotkeyKey v hotkey subKey reason) hotkey subKey reason') where
  collecting other := by
    show (dropSubKey (dropSubKey v.llmKeyPendingCalls hotkey subKey) hotkey subKey).get? other =
      (dropSubKey v.llmKeyPendingCalls hotkey subKey).get? other
    simp only [get?_dropSubKey, if_true]
    split
    · exact cutWindow_idem subKey _
    · rfl
  paid other := by
    show (dropSubKey (dropSubKey v.llmKeyLastEpochCalls hotkey subKey) hotkey subKey).get? other =
      (dropSubKey v.llmKeyLastEpochCalls hotkey subKey).get? other
    simp only [get?_dropSubKey, if_true]
    split
    · exact cutWindow_idem subKey _
    · rfl
  record other := by
    simp only [record_kill, if_true]
    split
    · rfl
    · rfl
  keyState bucket := by
    simp only [keyState_kill]
    split
    · simp only [Option.getD_some, markDead_markDead]
    · rfl
  metagraph := ⟨rfl, rfl⟩
  scores := rfl
  clock := rfl
  polls := ⟨rfl, rfl⟩

/-- Two cuts of windows commute, whatever they cut. -/
theorem dropSubKey_comm (windows : Windows) (hotkey' subKey' other : String) :
    (dropSubKey (dropSubKey windows hotkey subKey) hotkey' subKey').get? other =
      (dropSubKey (dropSubKey windows hotkey' subKey') hotkey subKey).get? other := by
  simp only [get?_dropSubKey]
  by_cases hfirst : other = hotkey
  · by_cases hsecond : other = hotkey'
    · rw [← hfirst, ← hsecond]
      simp only [if_true]
      exact cutWindow_comm subKey subKey' _
    · rw [← hfirst]
      simp only [if_true, if_neg hsecond]
  · simp only [if_neg hfirst]
    split
    · rename_i hsecond
      rw [← hsecond, if_neg hfirst]
    · rfl

/-- So do two kills, up to what two kills of one key do not agree on. -/
theorem kill_comm {see : KeyState → KeyState} {hotkey' subKey' reason' : String}
    (h : (hotkey', subKey') = (hotkey, subKey) → ∀ state,
      see (markDead reason' (markDead reason state)) = see (markDead reason (markDead reason' state))) :
    SameState see
      (killHotkeyKey (killHotkeyKey v hotkey' subKey' reason') hotkey subKey reason)
      (killHotkeyKey (killHotkeyKey v hotkey subKey reason) hotkey' subKey' reason') where
  collecting other := dropSubKey_comm hotkey subKey v.llmKeyPendingCalls hotkey' subKey' other
  paid other := dropSubKey_comm hotkey subKey v.llmKeyLastEpochCalls hotkey' subKey' other
  record other := by
    simp only [record_kill]
    split
    · rename_i hsecond
      rw [← hsecond]
      split
      · rename_i hfirst
        rw [← hfirst, if_pos rfl]
      · rfl
    · split
      · rename_i hsecond hfirst
        rw [← hfirst, if_neg hsecond]
      · rfl
  keyState bucket := by
    simp only [keyState_kill]
    by_cases hfirst : bucket = (hotkey, subKey)
    · by_cases hsecond : bucket = (hotkey', subKey')
      · -- one key, killed for two reasons
        simp only [if_pos hfirst, if_pos hsecond, Option.getD_some, Option.map_some]
        exact congrArg some (h (hsecond.symm.trans hfirst) _)
      · simp only [if_pos hfirst, if_neg hsecond]
    · simp only [if_neg hfirst]
  metagraph := ⟨rfl, rfl⟩
  scores := rfl
  clock := rfl
  polls := ⟨rfl, rfl⟩

/-! ## Scores after a kill -/

/-- The state in which the key never had a row in the paid window. -/
def withoutPaidRows : Validator :=
  { v with llmKeyLastEpochCalls := dropSubKey v.llmKeyLastEpochCalls hotkey subKey }

/-- Scoring reads of the kill that the rows are gone: the key it marked dead has none left. -/
theorem sameScoring_kill : SameScoring (withoutPaidRows v hotkey subKey)
    (killHotkeyKey v hotkey subKey reason) where
  metagraph := rfl
  scores := rfl
  weight other := by
    show modelTierWeight (killHotkeyKey v hotkey subKey reason) other = modelTierWeight v other
    by_cases hother : other = hotkey
    · rw [hother]
      exact modelTierWeight_kill v hotkey subKey reason
    · exact (sameHotkey_kill v hotkey subKey reason hother).modelTierWeight
  entries other := rfl
  live other p hp := by
    show isLive (killHotkeyKey v hotkey subKey reason) other p.1 = isLive v other p.1
    by_cases hother : other = hotkey
    · subst hother
      have hentries : p ∈ paidEntries (killHotkeyKey v other subKey reason) other := hp
      rw [paidEntries_kill, List.mem_filter] at hentries
      exact isLive_kill_ne v other subKey reason (by simpa using hentries.2)
    · exact (sameHotkey_kill v hotkey subKey reason hother).isLive p.1

/-- The key's rows in both windows, and what is remembered of it. -/
structure SameKey (bucket : Bucket) (v v' : Validator) : Prop where
  collecting : subWindow? v'.llmKeyPendingCalls bucket = subWindow? v.llmKeyPendingCalls bucket
  paid : subWindow? v'.llmKeyLastEpochCalls bucket = subWindow? v.llmKeyLastEpochCalls bucket
  state : keyState v' bucket = keyState v bucket

theorem sameKey_kill {bucket : Bucket} (h : bucket ≠ (hotkey, subKey)) :
    SameKey bucket v (killHotkeyKey v hotkey subKey reason) where
  collecting := by
    show subWindow? (dropSubKey v.llmKeyPendingCalls hotkey subKey) bucket = _
    rw [subWindow?_dropSubKey, if_neg h]
  paid := by
    show subWindow? (dropSubKey v.llmKeyLastEpochCalls hotkey subKey) bucket = _
    rw [subWindow?_dropSubKey, if_neg h]
  state := by rw [keyState_kill, if_neg h]

/-- **A kill cuts one key**: the scores are those of a window without it, other keys and hotkeys keep
    their rows and their lives, a second kill of the key does nothing, and any two kills commute, up
    to the reason where both are of the same key. -/
theorem kill_cuts_one_key (cfg : LlmKeyConfig) :
    (scoreLastEpoch cfg (killHotkeyKey v hotkey subKey reason)).2.scores =
      (scoreLastEpoch cfg (withoutPaidRows v hotkey subKey)).2.scores ∧
    ((scoreLastEpoch cfg (killHotkeyKey v hotkey subKey reason)).1 = .ok () ↔
      (scoreLastEpoch cfg (withoutPaidRows v hotkey subKey)).1 = .ok ()) ∧
    (∀ bucket ≠ (hotkey, subKey), SameKey bucket v (killHotkeyKey v hotkey subKey reason)) ∧
    (∀ other ≠ hotkey, SameHotkey other v (killHotkeyKey v hotkey subKey reason)) ∧
    (∀ reason', SameState id (killHotkeyKey v hotkey subKey reason)
      (killHotkeyKey (killHotkeyKey v hotkey subKey reason) hotkey subKey reason')) ∧
    (∀ hotkey' subKey' reason',
      SameState withoutReason
        (killHotkeyKey (killHotkeyKey v hotkey' subKey' reason') hotkey subKey reason)
        (killHotkeyKey (killHotkeyKey v hotkey subKey reason) hotkey' subKey' reason') ∧
      ((hotkey', subKey') ≠ (hotkey, subKey) ∨ reason' = reason → SameState id
        (killHotkeyKey (killHotkeyKey v hotkey' subKey' reason') hotkey subKey reason)
        (killHotkeyKey (killHotkeyKey v hotkey subKey reason) hotkey' subKey' reason'))) := by
  have hscores := (sameScoring_kill v hotkey subKey reason).scoreLastEpoch cfg
  refine ⟨hscores.2, hscores.1, ?_, ?_, ?_, ?_⟩
  · intro bucket hbucket
    exact sameKey_kill v hotkey subKey reason hbucket
  · intro other hother
    exact sameHotkey_kill v hotkey subKey reason hother
  · intro reason'
    exact kill_idem v hotkey subKey reason reason'
  · intro hotkey' subKey' reason'
    constructor
    · apply kill_comm
      intro _ state
      simp only [withoutReason_markDead]
    · intro hdiffer
      apply kill_comm
      intro hsame state
      rcases hdiffer with hne | heq
      · exact absurd hsame hne
      · rw [heq]

end TaoSubnet
