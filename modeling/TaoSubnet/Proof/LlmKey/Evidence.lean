import TaoSubnet.Proof.LlmKey.Bounds
import TaoSubnet.Proof.LlmKey.Kills

/-!
# The gate, and weight that was earned

A score is given to the hotkey's current uid, and `_has_llm_key_evidence` asks for the uid that was on
record when the hotkey was last reported or its keys submitted. The rest of what it asks for, a report
and a key that is not dead, is there for whoever has earned anything: a row is recorded before it is
folded, and a key is put on file by its first success.
-/

namespace TaoSubnet

open Py

/-! ## What is on record -/

/-- The uid the hotkey was last seen at. -/
def uidOnRecord (v : Validator) (hotkey : String) : Option Nat :=
  (v.llmKeyHotkeyStatus.get? hotkey).bind HotkeyStatus.uid

def missingSince (v : Validator) (hotkey : String) : Option ℚ :=
  (v.llmKeyHotkeyStatus.get? hotkey).bind HotkeyStatus.missingSince

/-- A report of the hotkey is on record. -/
def Reported (v : Validator) (hotkey : String) : Prop :=
  ((v.llmKeyHotkeyStatus.get? hotkey).bind HotkeyStatus.lastReportAt).isSome = true

/-- The key is on record, dead or alive. -/
def Known (v : Validator) (bucket : Bucket) : Prop := (keyState v bucket).isSome = true

/-- Neither window has a row of the hotkey. -/
def Rowless (v : Validator) (hotkey : String) : Prop :=
  v.llmKeyPendingCalls.get? hotkey = none ∧ v.llmKeyLastEpochCalls.get? hotkey = none

/-- Nothing that is on record is lost. -/
structure KeepsRecord (v w : Validator) : Prop where
  reported : ∀ hotkey, Reported v hotkey → Reported w hotkey
  known : ∀ bucket, Known v bucket → Known w bucket

theorem KeepsRecord.refl (v : Validator) : KeepsRecord v v := ⟨fun _ h => h, fun _ h => h⟩

theorem KeepsRecord.trans {v w x : Validator} (h : KeepsRecord v w) (h' : KeepsRecord w x) :
    KeepsRecord v x :=
  ⟨fun hotkey hr => h'.reported hotkey (h.reported hotkey hr),
    fun bucket hk => h'.known bucket (h.known bucket hk)⟩

/-- One hotkey's record is written anew. -/
def putStatus (v : Validator) (hotkey : String) (status : HotkeyStatus) : Validator :=
  { v with llmKeyHotkeyStatus := v.llmKeyHotkeyStatus.insert hotkey status }

/-- The record that is on file; nothing is on file of a new hotkey. -/
def statusOf (v : Validator) (hotkey : String) : HotkeyStatus :=
  (v.llmKeyHotkeyStatus.get? hotkey).getD {}

section
variable (v : Validator) (hotkey : String)

theorem uidOnRecord_eq : uidOnRecord v hotkey = (statusOf v hotkey).uid := by
  unfold uidOnRecord statusOf
  cases v.llmKeyHotkeyStatus.get? hotkey with
  | none => rfl
  | some status => rfl

theorem missingSince_eq : missingSince v hotkey = (statusOf v hotkey).missingSince := by
  unfold missingSince statusOf
  cases v.llmKeyHotkeyStatus.get? hotkey with
  | none => rfl
  | some status => rfl

theorem reported_iff : Reported v hotkey ↔ (statusOf v hotkey).lastReportAt.isSome = true := by
  unfold Reported statusOf
  cases v.llmKeyHotkeyStatus.get? hotkey with
  | none => exact Iff.rfl
  | some status => exact Iff.rfl

theorem known_iff (subKey : String) : Known v (hotkey, subKey) ↔
    (((statusOf v hotkey).keys.getD ∅).get? subKey).isSome = true := by
  unfold Known keyState keyStatesOf statusOf
  cases v.llmKeyHotkeyStatus.get? hotkey with
  | none => exact Iff.rfl
  | some status => exact Iff.rfl

theorem statusOf_putStatus (status : HotkeyStatus) (other : String) :
    statusOf (putStatus v hotkey status) other =
      if other = hotkey then status else statusOf v other := by
  unfold statusOf putStatus
  rw [Dict.get?_insert]
  split
  · rfl
  · rfl

end

/-- A record that keeps its report and its keys. -/
structure Grows (old new : HotkeyStatus) : Prop where
  reported : old.lastReportAt.isSome = true → new.lastReportAt.isSome = true
  known : ∀ subKey, ((old.keys.getD ∅).get? subKey).isSome = true →
    ((new.keys.getD ∅).get? subKey).isSome = true

theorem keepsRecord_putStatus {v : Validator} {hotkey : String} {status : HotkeyStatus}
    (h : Grows (statusOf v hotkey) status) : KeepsRecord v (putStatus v hotkey status) := by
  constructor
  · intro other hreported
    rw [reported_iff, statusOf_putStatus]
    rw [reported_iff] at hreported
    split
    · rename_i hsame
      rw [hsame] at hreported
      exact h.reported hreported
    · exact hreported
  · intro bucket hknown
    obtain ⟨other, subKey⟩ := bucket
    rw [known_iff, statusOf_putStatus]
    rw [known_iff] at hknown
    split
    · rename_i hsame
      rw [hsame] at hknown
      exact h.known subKey hknown
    · exact hknown

/-- More keys on file. -/
theorem grows_keys (status : HotkeyStatus) {keys : Dict String KeyState}
    (h : ∀ subKey, ((status.keys.getD ∅).get? subKey).isSome = true →
      (keys.get? subKey).isSome = true) : Grows status { status with keys := some keys } := by
  constructor
  · intro hreported
    exact hreported
  · intro subKey hknown
    exact h subKey hknown

theorem isSome_insert {keys : Dict String KeyState} {subKey other : String} {state : KeyState}
    (h : (keys.get? other).isSome = true) :
    ((keys.insert subKey state).get? other).isSome = true := by
  rw [Dict.get?_insert]
  split
  · rfl
  · exact h

/-! ## What backs the windows -/

/-- The counts of a key are counts, and a key with a success is on record. Only a row that no float
    could count is stored without. -/
structure CountsBacked (v : Validator) (bucket : Bucket) (sub : SubWindow) : Prop where
  success : 0 ≤ sub.successCount
  failure : 0 ≤ sub.failureCount
  known : 0 < sub.successCount → fitsDouble sub.calls = true → Known v bucket

structure WindowsBacked (v : Validator) (windows : Windows) : Prop where
  reported : ∀ hotkey, windows.get? hotkey ≠ none → Reported v hotkey
  counts : ∀ bucket sub, subWindow? windows bucket = some sub → CountsBacked v bucket sub

/-- The windows hold what is on record, and no more. -/
structure Backed (v : Validator) : Prop where
  pending : WindowsBacked v v.llmKeyPendingCalls
  paid : WindowsBacked v v.llmKeyLastEpochCalls

theorem windowsBacked_empty (v : Validator) : WindowsBacked v ∅ := by
  constructor
  · intro hotkey h
    exact absurd rfl h
  · intro bucket sub h
    cases h

theorem WindowsBacked.mono {v w : Validator} {windows : Windows} (h : WindowsBacked v windows)
    (hrecord : KeepsRecord v w) : WindowsBacked w windows := by
  constructor
  · intro hotkey hrows
    exact hrecord.reported hotkey (h.reported hotkey hrows)
  · intro bucket sub hsub
    have hcounts : CountsBacked v bucket sub := h.counts bucket sub hsub
    refine ⟨hcounts.success, hcounts.failure, ?_⟩
    intro hpos hfits
    exact hrecord.known bucket (hcounts.known hpos hfits)

theorem WindowsBacked.drop {v : Validator} {windows : Windows} (h : WindowsBacked v windows)
    (hotkey subKey : String) : WindowsBacked v (dropSubKey windows hotkey subKey) := by
  constructor
  · intro other hrows
    apply h.reported
    intro hnone
    apply hrows
    rw [get?_dropSubKey]
    split
    · rename_i hsame
      rw [hsame] at hnone
      rw [hnone]
      rfl
    · exact hnone
  · intro bucket sub hsub
    rw [subWindow?_dropSubKey] at hsub
    split at hsub
    · cases hsub
    · exact h.counts bucket sub hsub

theorem WindowsBacked.erase {v w : Validator} {windows : Windows} (h : WindowsBacked v windows)
    (hotkey : String) (hreported : ∀ other ≠ hotkey, Reported v other → Reported w other)
    (hknown : ∀ other subKey, other ≠ hotkey → Known v (other, subKey) → Known w (other, subKey)) :
    WindowsBacked w (windows.erase hotkey) := by
  constructor
  · intro other hrows
    rw [Dict.get?_erase] at hrows
    split at hrows
    · exact absurd rfl hrows
    · rename_i hne
      exact hreported other hne (h.reported other hrows)
  · intro bucket sub hsub
    obtain ⟨other, subKey⟩ := bucket
    unfold subWindow? at hsub
    rw [Dict.get?_erase] at hsub
    split at hsub
    · cases hsub
    · rename_i hne
      have hcounts : CountsBacked v (other, subKey) sub := h.counts (other, subKey) sub hsub
      refine ⟨hcounts.success, hcounts.failure, ?_⟩
      intro hpos hfits
      exact hknown other subKey hne (hcounts.known hpos hfits)

/-- The records are the same. -/
theorem keepsRecord_of_eq {v w : Validator} (h : w.llmKeyHotkeyStatus = v.llmKeyHotkeyStatus) :
    KeepsRecord v w := by
  constructor
  · intro hotkey hreported
    unfold Reported
    rw [h]
    exact hreported
  · intro bucket hknown
    unfold Known keyState keyStatesOf
    rw [h]
    exact hknown

theorem Backed.frame {v w : Validator} (h : Backed v)
    (hstatus : w.llmKeyHotkeyStatus = v.llmKeyHotkeyStatus)
    (hpending : w.llmKeyPendingCalls = v.llmKeyPendingCalls)
    (hpaid : w.llmKeyLastEpochCalls = v.llmKeyLastEpochCalls) : Backed w := by
  have hrecord : KeepsRecord v w := keepsRecord_of_eq hstatus
  constructor
  · rw [hpending]
    exact h.pending.mono hrecord
  · rw [hpaid]
    exact h.paid.mono hrecord

/-! ## What a round carries along -/

/-- Up to its prune, a round keeps what backs the windows, and gives no rows to who is not registered. -/
structure Carries (v w : Validator) : Prop where
  metagraph : w.metagraphHotkeys = v.metagraphHotkeys
  missing : ∀ hotkey, missingSince w hotkey = missingSince v hotkey
  rowless : ∀ hotkey, hotkey ∉ v.metagraphHotkeys → Rowless v hotkey → Rowless w hotkey
  backed : Backed v → Backed w

theorem Carries.refl (v : Validator) : Carries v v := ⟨rfl, fun _ => rfl, fun _ _ h => h, fun h => h⟩

theorem Carries.trans {v w x : Validator} (h : Carries v w) (h' : Carries w x) : Carries v x where
  metagraph := h'.metagraph.trans h.metagraph
  missing := fun hotkey => (h'.missing hotkey).trans (h.missing hotkey)
  rowless := by
    intro hotkey hnot hrowless
    apply h'.rowless hotkey _ (h.rowless hotkey hnot hrowless)
    rw [h.metagraph]
    exact hnot
  backed := fun hbacked => h'.backed (h.backed hbacked)

/-- Whatever leaves the windows, the metagraph and the records alone. -/
theorem Carries.frame {v w : Validator} (hmetagraph : w.metagraphHotkeys = v.metagraphHotkeys)
    (hstatus : w.llmKeyHotkeyStatus = v.llmKeyHotkeyStatus)
    (hpending : w.llmKeyPendingCalls = v.llmKeyPendingCalls)
    (hpaid : w.llmKeyLastEpochCalls = v.llmKeyLastEpochCalls) : Carries v w := by
  constructor
  · exact hmetagraph
  · intro hotkey
    unfold missingSince
    rw [hstatus]
  · intro hotkey _ hrowless
    unfold Rowless
    rw [hpending, hpaid]
    exact hrowless
  · intro hbacked
    exact hbacked.frame hstatus hpending hpaid

theorem missingSince_putStatus {v : Validator} {hotkey : String} {status : HotkeyStatus}
    (h : status.missingSince = (statusOf v hotkey).missingSince) (other : String) :
    missingSince (putStatus v hotkey status) other = missingSince v other := by
  rw [missingSince_eq, missingSince_eq, statusOf_putStatus]
  split
  · rename_i hsame
    rw [h, hsame]
  · rfl

theorem carries_putStatus {v : Validator} {hotkey : String} {status : HotkeyStatus}
    (hgrows : Grows (statusOf v hotkey) status)
    (hmissing : status.missingSince = (statusOf v hotkey).missingSince) :
    Carries v (putStatus v hotkey status) where
  metagraph := rfl
  missing := missingSince_putStatus hmissing
  rowless := fun _ _ h => h
  backed := fun h =>
    ⟨h.pending.mono (keepsRecord_putStatus hgrows), h.paid.mono (keepsRecord_putStatus hgrows)⟩

/-- The record after one key of it is written. -/
theorem grows_updateKeyState (v : Validator) (hotkey subKey : String) (f : KeyState → KeyState) :
    Grows (statusOf v hotkey) { statusOf v hotkey with
      keys := some (((statusOf v hotkey).keys.getD ∅).insert subKey
        (f ((((statusOf v hotkey).keys.getD ∅).get? subKey).getD {}))) } := by
  apply grows_keys
  intro other hknown
  exact isSome_insert hknown

theorem carries_updateKeyState (v : Validator) (hotkey subKey : String) (f : KeyState → KeyState) :
    Carries v (updateKeyState v hotkey subKey f) :=
  carries_putStatus (grows_updateKeyState v hotkey subKey f) rfl

theorem known_updateKeyState (v : Validator) (hotkey subKey : String) (f : KeyState → KeyState) :
    Known (updateKeyState v hotkey subKey f) (hotkey, subKey) := by
  unfold Known keyState
  rw [keyStatesOf_updateKeyState, Dict.get?_insert, if_pos rfl]
  rfl

theorem carries_createKeys (v : Validator) (hotkey : String) : Carries v (createKeys hotkey v) := by
  have hgrows : Grows (statusOf v hotkey)
      { statusOf v hotkey with keys := some ((statusOf v hotkey).keys.getD ∅) } := by
    apply grows_keys
    intro subKey hknown
    exact hknown
  exact carries_putStatus hgrows rfl

theorem rowless_drop {windows : Windows} {hotkey : String} (other subKey : String)
    (h : windows.get? hotkey = none) : (dropSubKey windows other subKey).get? hotkey = none := by
  rw [get?_dropSubKey]
  split
  · rename_i hsame
    rw [← hsame, h]
    rfl
  · exact h

theorem carries_kill (v : Validator) (hotkey subKey reason : String) :
    Carries v (killHotkeyKey v hotkey subKey reason) := by
  have hmarked := carries_updateKeyState v hotkey subKey (markDead reason)
  constructor
  · rfl
  · exact hmarked.missing
  · intro other _ hrowless
    exact ⟨rowless_drop hotkey subKey hrowless.1, rowless_drop hotkey subKey hrowless.2⟩
  · intro hbacked
    have hrecord : Backed (updateKeyState v hotkey subKey (markDead reason)) := hmarked.backed hbacked
    -- What is backed by the records reads nothing else of the state.
    have hsame : ∀ windows, WindowsBacked (updateKeyState v hotkey subKey (markDead reason)) windows →
        WindowsBacked (killHotkeyKey v hotkey subKey reason) windows := by
      intro windows h
      exact h.mono ⟨fun _ hr => hr, fun _ hk => hk⟩
    exact ⟨hsame _ (hrecord.pending.drop hotkey subKey), hsame _ (hrecord.paid.drop hotkey subKey)⟩

theorem carries_recordReport (v : Validator) (report : LLMKeyUsageReport) (uid : Nat) (now : ℚ) :
    Carries v (recordReport v report uid now) := by
  have hgrows : Grows (statusOf v report.hotkey) { statusOf v report.hotkey with
      uid := some uid, lastReportAt := some now, keyActive := some report.keyActive } := by
    constructor
    · intro _
      rfl
    · intro subKey hknown
      exact hknown
  exact carries_putStatus hgrows rfl

theorem reported_recordReport (v : Validator) (report : LLMKeyUsageReport) (uid : Nat) (now : ℚ) :
    Reported (recordReport v report uid now) report.hotkey := by
  unfold Reported recordReport
  rw [Dict.get?_insert, if_pos rfl]
  rfl

theorem carries_moveWindows (v : Validator) (start : Int) (contiguous : Bool) :
    Carries v (moveWindows v start contiguous) := by
  have hsame : ∀ windows, WindowsBacked v windows →
      WindowsBacked (moveWindows v start contiguous) windows := by
    intro windows h
    exact h.mono ⟨fun _ hr => hr, fun _ hk => hk⟩
  constructor
  · rfl
  · intro hotkey
    rfl
  · intro hotkey _ hrowless
    cases contiguous with
    | true => exact ⟨rfl, hrowless.1⟩
    | false => exact ⟨rfl, rfl⟩
  · intro hbacked
    refine ⟨hsame _ (windowsBacked_empty v), ?_⟩
    cases contiguous with
    | true => exact hsame _ hbacked.pending
    | false => exact hsame _ (windowsBacked_empty v)

/-! ## A fold -/

/-- The collecting window of the hotkey, as a fold finds it. -/
def foundWindow (v : Validator) (hotkey : String) (now : ℚ) : Window :=
  (v.llmKeyPendingCalls.get? hotkey).getD ⟨∅, now, now⟩

/-- The key's sub-window in it. -/
def foundSub (v : Validator) (hotkey subKey : String) (now : ℚ) : SubWindow :=
  ((foundWindow v hotkey now).keys.get? subKey).getD {}

/-- The row's counts are stored in its key's sub-window, and nothing else is written but times and
    the history. -/
structure Stores (v : Validator) (hotkey : String) (report : LLMKeyUsageReport) (now : ℚ)
    (w : Validator) : Prop where
  metagraph : w.metagraphHotkeys = v.metagraphHotkeys
  status : w.llmKeyHotkeyStatus = v.llmKeyHotkeyStatus
  paid : w.llmKeyLastEpochCalls = v.llmKeyLastEpochCalls
  pending : ∃ sub firstSeenAt lastSeenAt,
    sub.successCount =
      (foundSub v hotkey (reportSubKey report) now).successCount + report.successCount ∧
    sub.failureCount =
      (foundSub v hotkey (reportSubKey report) now).failureCount + report.failureCount ∧
    w.llmKeyPendingCalls = v.llmKeyPendingCalls.insert hotkey
      ⟨(foundWindow v hotkey now).keys.insert (reportSubKey report) sub, firstSeenAt, lastSeenAt⟩

/-- A success puts the key on record, unless its calls are too many for a float. -/
def LeavesUnknown (report : LLMKeyUsageReport) : Prop :=
  report.successCount = 0 ∨ fitsDouble (rowCalls report) = false

/-- What a fold comes to, also where it raises. -/
theorem fold_stores (hotkey : String) (report : LLMKeyUsageReport) (now : ℚ) (v : Validator) :
    (foldReportIntoPending hotkey report now v).2 = v ∨
    (0 ≤ report.successCount ∧ 0 ≤ report.failureCount ∧ ∃ w, Stores v hotkey report now w ∧
      ((LeavesUnknown report ∧ (foldReportIntoPending hotkey report now v).2 = w) ∨
        (foldReportIntoPending hotkey report now v).2 =
          updateKeyState w hotkey (reportSubKey report) (reviveKey report))) := by
  unfold foldReportIntoPending
  split
  · left
    rfl
  rename_i hcounts
  right
  refine ⟨by omega, by omega, ?_⟩
  rw [Prog.bind_ok (Prog.get_run v)]
  have hfound : subWindowFor v hotkey (reportSubKey report) now =
      (foundWindow v hotkey now, foundSub v hotkey (reportSubKey report) now) := rfl
  simp only [hfound]
  rw [Prog.bind_ok (Prog.modify_run _ _)]
  have hsuccess : ({ foundSub v hotkey (reportSubKey report) now with
      tier := some (tierForReport v hotkey report) }.addCounts report).successCount =
        (foundSub v hotkey (reportSubKey report) now).successCount + report.successCount := rfl
  have hfailure : ({ foundSub v hotkey (reportSubKey report) now with
      tier := some (tierForReport v hotkey report) }.addCounts report).failureCount =
        (foundSub v hotkey (reportSubKey report) now).failureCount + report.failureCount := rfl
  generalize ({ foundSub v hotkey (reportSubKey report) now with
    tier := some (tierForReport v hotkey report) } : SubWindow).addCounts report = counted
    at hsuccess hfailure ⊢
  cases hlatency : counted.addLatency report with
  | error e =>
    -- A raise leaves the sub-window that was stored last.
    refine ⟨_, ?_, .inl ⟨.inr ?_, rfl⟩⟩
    · exact ⟨rfl, rfl, rfl, counted, _, _, hsuccess, hfailure, rfl⟩
    · rw [← Bool.not_eq_true]
      intro hfits
      rw [addLatency_fits hfits] at hlatency
      cases hlatency
  | ok sub =>
    rw [Prog.bind_ok (Prog.ofExcept_run _ _), Prog.bind_ok (Prog.modify_run _ _)]
    have htally : sub.tally = counted.tally := by
      rw [SubWindow.addLatency_ok hlatency]
      exact tally_plusLatency counted report
    cases hquality : sub.addQuality report with
    | error e =>
      refine ⟨_, ?_, .inl ⟨.inr ?_, rfl⟩⟩
      · exact ⟨rfl, rfl, rfl, sub, _, _, (congrArg Prod.fst htally).trans hsuccess,
          (congrArg (fun tally => tally.2.1) htally).trans hfailure, Dict.insert_insert _ _ _ _⟩
      · rw [← Bool.not_eq_true]
        intro hfits
        rw [addQuality_fits hfits] at hquality
        cases hquality
    | ok sub' =>
      rw [Prog.bind_ok (Prog.ofExcept_run _ _), Prog.bind_ok (Prog.modify_run _ _)]
      have htally' : sub'.tally = counted.tally := by
        rw [SubWindow.addQuality_ok hquality, tally_plusQuality]
        exact htally
      have hsuccess' := (congrArg Prod.fst htally').trans hsuccess
      have hfailure' := (congrArg (fun tally => tally.2.1) htally').trans hfailure
      split
      · refine ⟨_, ?_, .inr rfl⟩
        exact ⟨rfl, rfl, rfl, sub', _, _, hsuccess', hfailure',
          (Dict.insert_insert _ _ _ _).trans (Dict.insert_insert _ _ _ _)⟩
      · rename_i hnone
        refine ⟨_, ?_, .inl ⟨.inl (by omega), rfl⟩⟩
        exact ⟨rfl, rfl, rfl, sub', _, _, hsuccess', hfailure',
          (Dict.insert_insert _ _ _ _).trans (Dict.insert_insert _ _ _ _)⟩

/-- The rows a fold found are backed as they were. -/
theorem foundSub_backed {v : Validator} {hotkey subKey : String} {now : ℚ}
    (h : WindowsBacked v v.llmKeyPendingCalls) :
    CountsBacked v (hotkey, subKey) (foundSub v hotkey subKey now) := by
  have hnew : CountsBacked v (hotkey, subKey) {} := by
    refine ⟨le_rfl, le_rfl, ?_⟩
    intro hpos
    exact absurd hpos (lt_irrefl 0)
  unfold foundSub foundWindow
  cases hacc : v.llmKeyPendingCalls.get? hotkey with
  | none => exact hnew
  | some acc =>
    rw [Option.getD_some]
    cases hsub : acc.keys.get? subKey with
    | none => exact hnew
    | some sub =>
      apply h.counts
      unfold subWindow?
      rw [hacc]
      exact hsub

/-- A state that stored a row, and knows its key where it has to. -/
theorem carries_of_stores {v w x : Validator} {hotkey : String} {report : LLMKeyUsageReport} {now : ℚ}
    (hstores : Stores v hotkey report now w) (hsuccess : 0 ≤ report.successCount)
    (hfailure : 0 ≤ report.failureCount) (hregistered : hotkey ∈ v.metagraphHotkeys)
    (hreported : Reported v hotkey)
    (hsame : x.metagraphHotkeys = w.metagraphHotkeys ∧
      x.llmKeyPendingCalls = w.llmKeyPendingCalls ∧ x.llmKeyLastEpochCalls = w.llmKeyLastEpochCalls)
    (hrecord : KeepsRecord v x) (hmissing : ∀ other, missingSince x other = missingSince v other)
    (hknown : LeavesUnknown report ∨ Known x (hotkey, reportSubKey report)) : Carries v x := by
  obtain ⟨hmetagraph, hpending, hpaid⟩ := hsame
  obtain ⟨sub, firstSeenAt, lastSeenAt, hsub, hsub', hwindow⟩ := hstores.pending
  rw [hwindow] at hpending
  rw [hstores.paid] at hpaid
  constructor
  · exact hmetagraph.trans hstores.metagraph
  · exact hmissing
  · intro other hnot hrowless
    have hne : other ≠ hotkey := by
      rintro rfl
      exact hnot hregistered
    unfold Rowless
    rw [hpending, hpaid, Dict.get?_insert, if_neg hne]
    exact hrowless
  · intro hbacked
    have hold : WindowsBacked x v.llmKeyPendingCalls := hbacked.pending.mono hrecord
    have hfound : CountsBacked v (hotkey, reportSubKey report)
        (foundSub v hotkey (reportSubKey report) now) := foundSub_backed hbacked.pending
    have hfoundSuccess := hfound.success
    have hfoundFailure := hfound.failure
    have hcounts : CountsBacked x (hotkey, reportSubKey report) sub := by
      refine ⟨by omega, by omega, ?_⟩
      intro hpos hfits
      rcases hknown with hleaves | hknown
      · unfold SubWindow.calls at hfits
        rcases hleaves with hnone | htoo
        · -- The success is an older row's.
          have holder : 0 < (foundSub v hotkey (reportSubKey report) now).successCount := by omega
          apply hrecord.known
          apply hfound.known holder
          apply fitsDouble_mono _ _ hfits
          · unfold SubWindow.calls
            omega
          · unfold SubWindow.calls
            omega
        · exfalso
          have hrow : fitsDouble (rowCalls report) = true := by
            apply fitsDouble_mono _ _ hfits
            · unfold rowCalls
              omega
            · unfold rowCalls
              omega
          rw [hrow] at htoo
          cases htoo
      · exact hknown
    constructor
    · rw [hpending]
      constructor
      · intro other hrows
        rw [Dict.get?_insert] at hrows
        split at hrows
        · rename_i heq
          rw [heq]
          exact hrecord.reported hotkey hreported
        · exact hold.reported other hrows
      · intro bucket other hother
        obtain ⟨holder, subKey⟩ := bucket
        unfold subWindow? at hother
        rw [Dict.get?_insert] at hother
        split at hother
        · rename_i heq
          dsimp only at heq
          subst heq
          rw [Option.bind_some, Dict.get?_insert] at hother
          split at hother
          · rename_i hkey
            cases hother
            rw [show subKey = reportSubKey report from hkey]
            exact hcounts
          · -- Another key of the same hotkey.
            apply hold.counts
            unfold foundWindow at hother
            unfold subWindow?
            cases hacc : v.llmKeyPendingCalls.get? holder with
            | none =>
              rw [hacc] at hother
              cases hother
            | some acc =>
              rw [hacc] at hother
              exact hother
        · exact hold.counts (holder, subKey) other hother
    · rw [hpaid]
      exact hbacked.paid.mono hrecord

theorem carries_fold {v : Validator} {hotkey : String} (report : LLMKeyUsageReport) (now : ℚ)
    (hregistered : hotkey ∈ v.metagraphHotkeys) (hreported : Reported v hotkey) :
    Carries v (foldReportIntoPending hotkey report now v).2 := by
  rcases fold_stores hotkey report now v with hsame | ⟨hsuccess, hfailure, w, hstores, hend⟩
  · rw [hsame]
    exact .refl v
  have hrecord : KeepsRecord v w := keepsRecord_of_eq hstores.status
  have hmissing : ∀ other, missingSince w other = missingSince v other := by
    intro other
    unfold missingSince
    rw [hstores.status]
  rcases hend with ⟨hleaves, hrun⟩ | hrun
  · rw [hrun]
    exact carries_of_stores hstores hsuccess hfailure hregistered hreported ⟨rfl, rfl, rfl⟩ hrecord
      hmissing (.inl hleaves)
  · rw [hrun]
    refine carries_of_stores hstores hsuccess hfailure hregistered hreported ⟨rfl, rfl, rfl⟩ ?_ ?_ ?_
    · apply hrecord.trans
      exact keepsRecord_putStatus (grows_updateKeyState w hotkey (reportSubKey report) (reviveKey report))
    · intro other
      rw [(carries_updateKeyState w hotkey (reportSubKey report) (reviveKey report)).missing]
      exact hmissing other
    · right
      exact known_updateKeyState w hotkey (reportSubKey report) (reviveKey report)

/-! ## The parts of a round -/

/-- What a roll, and scoring, may do to a state. -/
structure RollInvariant (I : Validator → Prop) : Prop where
  kill : ∀ (v : Validator) (hotkey subKey reason : String), I v →
    I (killHotkeyKey v hotkey subKey reason)
  createKeys : ∀ (v : Validator) (hotkey : String), I v → I (createKeys hotkey v)
  scores : ∀ (v : Validator) (scores : List ℚ), I v → I { v with scores := scores }
  epoch : ∀ (v : Validator) (start : Int), I v → I { v with llmKeyEpochStartBlock := some start }
  move : ∀ (v : Validator) (start : Int) (contiguous : Bool), I v → I (moveWindows v start contiguous)

namespace RollInvariant

variable {I : Validator → Prop} (hI : RollInvariant I) (cfg : LlmKeyConfig)

include hI

theorem keeps_killFlooredKeys (hotkey : String) (keys : List (String × SubWindow)) :
    Prog.Keeps I (killFlooredKeys cfg hotkey keys) := by
  refine Prog.Keeps.forEach keys fun entry _ => ?_
  obtain ⟨subKey, sub⟩ := entry
  refine Prog.Keeps.bind (Prog.Keeps.ofExcept _) fun reason => ?_
  cases reason with
  | none => exact Prog.Keeps.ret ()
  | some reason => exact Prog.Keeps.modify fun v hv => hI.kill v hotkey subKey reason hv

theorem keeps_scoreHotkey (hotkey : String) : Prog.Keeps I (scoreHotkey cfg hotkey) := by
  refine Prog.Keeps.bind Prog.Keeps.get fun v => ?_
  refine Prog.Keeps.bind (hI.keeps_killFlooredKeys cfg hotkey _) fun _ => ?_
  refine Prog.Keeps.bind Prog.Keeps.get fun v => ?_
  cases v.llmKeyLastEpochCalls.get? hotkey with
  | none => exact Prog.Keeps.ret ()
  | some acc =>
    refine Prog.Keeps.bind (Prog.Keeps.modify fun w hw => hI.createKeys w hotkey hw) fun _ => ?_
    refine Prog.Keeps.ite (Prog.Keeps.ret ()) ?_
    refine Prog.Keeps.ite ?_ (Prog.Keeps.ret ())
    refine Prog.Keeps.ite (Prog.Keeps.ret ()) ?_
    refine Prog.Keeps.bind (Prog.Keeps.ofExcept _) fun reward => ?_
    exact Prog.Keeps.modify fun w hw => hI.scores w _ hw

theorem keeps_scoreLastEpoch : Prog.Keeps I (scoreLastEpoch cfg) := by
  refine Prog.Keeps.bind Prog.Keeps.get fun before => ?_
  refine Prog.Keeps.tryExcept ?_ fun e => ?_
  · refine Prog.Keeps.bind (Prog.Keeps.modify fun w hw => hI.scores w _ hw) fun _ => ?_
    exact Prog.Keeps.forEach _ fun hotkey _ => hI.keeps_scoreHotkey cfg hotkey
  · refine Prog.Keeps.bind (Prog.Keeps.modify fun w hw => hI.scores w _ hw) fun _ => ?_
    exact Prog.Keeps.raise e

theorem keeps_roll (chain : Option ChainReads) : Prog.Keeps I (rollEpochIfNeeded cfg chain) := by
  intro v hv
  rcases roll_cases cfg chain v with ⟨-, hr⟩ | ⟨start, -, -, -, hr⟩ | ⟨start, -, -, -, hr⟩
  · rw [hr]
    exact hv
  · rw [hr]
    exact hI.epoch v start hv
  · rw [hr]
    exact hI.keeps_scoreLastEpoch cfg _ (hI.move v start _ hv)

theorem keeps_setWeights (chain : Option ChainReads) : Prog.Keeps I (setWeights cfg chain) := by
  refine Prog.Keeps.bind (hI.keeps_roll cfg chain) fun _ => ?_
  refine Prog.Keeps.bind (hI.keeps_scoreLastEpoch cfg) fun _ => ?_
  exact Prog.Keeps.bind Prog.Keeps.get fun v => Prog.Keeps.ret _

end RollInvariant

/-- Up to its prune, a round carries along whatever it started with. -/
theorem rollInvariant_carries (v : Validator) : RollInvariant (Carries v) where
  kill w hotkey subKey reason h := h.trans (carries_kill w hotkey subKey reason)
  createKeys w hotkey h := h.trans (carries_createKeys w hotkey)
  scores _ _ h := h.trans (.frame rfl rfl rfl rfl)
  epoch _ _ h := h.trans (.frame rfl rfl rfl rfl)
  move w start contiguous h := h.trans (carries_moveWindows w start contiguous)

/-- The uid on record is not touched by a roll, nor by scoring. -/
theorem rollInvariant_uid (hotkey : String) (uid : Option Nat) :
    RollInvariant fun v => uidOnRecord v hotkey = uid := by
  have hput : ∀ (v : Validator) (other : String) (keys : Dict String KeyState),
      uidOnRecord v hotkey = uid →
        uidOnRecord (putStatus v other { statusOf v other with keys := some keys }) hotkey = uid := by
    intro v other keys h
    rw [uidOnRecord_eq, statusOf_putStatus]
    rw [uidOnRecord_eq] at h
    split
    · rename_i hsame
      rw [hsame] at h
      exact h
    · exact h
  constructor
  · intro v other subKey reason h
    exact hput v other _ h
  · intro v other h
    exact hput v other _ h
  · intro v scores h
    exact h
  · intro v start h
    exact h
  · intro v start contiguous h
    exact h

/-- The rows of a round. -/
theorem carries_processReport (v : Validator) (now : ℚ) (report : LLMKeyUsageReport) :
    Prog.Keeps (Carries v) (processReport now report) := by
  intro w hw
  apply hw.trans
  unfold processReport
  rw [Prog.bind_ok (Prog.get_run w)]
  dsimp only
  split
  · rename_i huid
    rw [Prog.bind_ok (Prog.modify_run _ w)]
    apply (carries_recordReport w report (w.metagraphHotkeys.idxOf report.hotkey) now).trans
    split
    · exact carries_kill _ _ _ _
    · split
      · exact carries_kill _ _ _ _
      · apply carries_fold report now
        · exact List.idxOf_lt_length_iff.mp huid
        · exact reported_recordReport w report _ now
  · exact .refl w

theorem carries_pollRoster (v : Validator) (roster : Except Exc (List LLMKeyRosterEntry)) :
    Prog.Keeps (Carries v) (pollLlmKeyRoster roster) := by
  cases roster with
  | error e => exact Prog.Keeps.ret ()
  | ok roster =>
    refine Prog.Keeps.forEach roster fun entry _ => ?_
    refine Prog.Keeps.ite ?_ (Prog.Keeps.ret ())
    refine Prog.Keeps.bind Prog.Keeps.get fun w => ?_
    refine Prog.Keeps.ite ?_ (Prog.Keeps.ret ())
    exact Prog.Keeps.modify fun x hx => hx.trans (carries_kill x _ _ _)

/-! ## The prune -/

/-- A prune at `now` drops the record of the hotkey. -/
def Expires (cfg : LlmKeyConfig) (now : ℚ) (v : Validator) (hotkey : String) : Prop :=
  hotkey ∉ v.metagraphHotkeys ∧ ∃ since, missingSince v hotkey = some since ∧
    max 0 cfg.hotkeyStatusEvictionGraceSeconds ≤ now - since

/-- No record is dropped of a hotkey that has rows. -/
def SparesRows (cfg : LlmKeyConfig) (now : ℚ) (v : Validator) : Prop :=
  ∀ hotkey, Expires cfg now v hotkey → Rowless v hotkey

theorem Carries.spares {cfg : LlmKeyConfig} {now : ℚ} {v w : Validator} (h : Carries v w)
    (hspares : SparesRows cfg now v) : SparesRows cfg now w := by
  intro hotkey hexpires
  obtain ⟨hnot, since, hsince, hgrace⟩ := hexpires
  rw [h.metagraph] at hnot
  rw [h.missing] at hsince
  exact h.rowless hotkey hnot (hspares hotkey ⟨hnot, since, hsince, hgrace⟩)

/-- What is read of every other hotkey is the same. -/
structure Elsewhere (hotkey : String) (v w : Validator) : Prop where
  metagraph : w.metagraphHotkeys = v.metagraphHotkeys
  missing : ∀ other ≠ hotkey, missingSince w other = missingSince v other
  rowless : ∀ other ≠ hotkey, Rowless v other → Rowless w other

theorem elsewhere_putStatus (v : Validator) (hotkey : String) (status : HotkeyStatus) :
    Elsewhere hotkey v (putStatus v hotkey status) := by
  constructor
  · rfl
  · intro other hne
    rw [missingSince_eq, missingSince_eq, statusOf_putStatus, if_neg hne]
  · intro other _ hrowless
    exact hrowless

/-- When it was first missed is written of the hotkey, and no more. -/
theorem backed_missed {v : Validator} {hotkey : String} {status : HotkeyStatus}
    (hstatus : v.llmKeyHotkeyStatus.get? hotkey = some status) (missed : Option ℚ) (h : Backed v) :
    Backed (putStatus v hotkey { status with missingSince := missed }) := by
  have hsame : statusOf v hotkey = status := by
    unfold statusOf
    rw [hstatus]
    rfl
  have hgrows : Grows (statusOf v hotkey) { status with missingSince := missed } := by
    rw [hsame]
    constructor
    · intro hreported
      exact hreported
    · intro subKey hknown
      exact hknown
  exact ⟨h.pending.mono (keepsRecord_putStatus hgrows), h.paid.mono (keepsRecord_putStatus hgrows)⟩

/-- The record and the collecting rows of the hotkey are dropped. -/
def dropRecord (v : Validator) (hotkey : String) : Validator :=
  { v with
    llmKeyHotkeyStatus := v.llmKeyHotkeyStatus.erase hotkey
    llmKeyPendingCalls := v.llmKeyPendingCalls.erase hotkey
    history := v.history ++ [.evicted hotkey] }

theorem get?_dropRecord (v : Validator) {hotkey other : String} (h : other ≠ hotkey) :
    (dropRecord v hotkey).llmKeyHotkeyStatus.get? other = v.llmKeyHotkeyStatus.get? other := by
  unfold dropRecord
  rw [Dict.get?_erase, if_neg h]

theorem elsewhere_dropRecord (v : Validator) (hotkey : String) :
    Elsewhere hotkey v (dropRecord v hotkey) := by
  constructor
  · rfl
  · intro other hne
    unfold missingSince
    rw [get?_dropRecord v hne]
  · intro other hne hrowless
    refine ⟨?_, hrowless.2⟩
    show (v.llmKeyPendingCalls.erase hotkey).get? other = none
    rw [Dict.get?_erase, if_neg hne]
    exact hrowless.1

theorem backed_dropRecord {v : Validator} {hotkey : String} (hrowless : Rowless v hotkey)
    (h : Backed v) : Backed (dropRecord v hotkey) := by
  have hreported : ∀ other ≠ hotkey, Reported v other → Reported (dropRecord v hotkey) other := by
    intro other hne hr
    unfold Reported
    rw [get?_dropRecord v hne]
    exact hr
  have hknown : ∀ other subKey, other ≠ hotkey → Known v (other, subKey) →
      Known (dropRecord v hotkey) (other, subKey) := by
    intro other subKey hne hk
    unfold Known keyState keyStatesOf
    rw [get?_dropRecord v hne]
    exact hk
  constructor
  · exact h.pending.erase hotkey hreported hknown
  · -- The paid window is left as it is: it had no row of the hotkey.
    constructor
    · intro other hrows
      apply hreported other _ (h.paid.reported other hrows)
      rintro rfl
      exact hrows hrowless.2
    · intro bucket sub hsub
      obtain ⟨other, subKey⟩ := bucket
      have hcounts : CountsBacked v (other, subKey) sub := h.paid.counts (other, subKey) sub hsub
      refine ⟨hcounts.success, hcounts.failure, ?_⟩
      intro hpos hfits
      apply hknown other subKey _ (hcounts.known hpos hfits)
      rintro rfl
      have hnone : subWindow? v.llmKeyLastEpochCalls (other, subKey) = none := by
        unfold subWindow?
        rw [hrowless.2]
        rfl
      rw [show subWindow? v.llmKeyLastEpochCalls (other, subKey) = some sub from hsub] at hnone
      cases hnone

theorem backed_pruneHotkey (cfg : LlmKeyConfig) (now : ℚ) {v : Validator} {hotkey : String}
    (hspares : Expires cfg now v hotkey → Rowless v hotkey) (h : Backed v) :
    Backed (pruneHotkey cfg now v hotkey) ∧ Elsewhere hotkey v (pruneHotkey cfg now v hotkey) := by
  unfold pruneHotkey
  split
  · exact ⟨h, rfl, fun _ _ => rfl, fun _ _ hr => hr⟩
  rename_i status hstatus
  split
  · exact ⟨backed_missed hstatus none h, elsewhere_putStatus v hotkey _⟩
  rename_i hnot
  split
  · exact ⟨backed_missed hstatus (some now) h, elsewhere_putStatus v hotkey _⟩
  rename_i since hsince
  split
  · rename_i hgrace
    have hexpires : Expires cfg now v hotkey := by
      refine ⟨by simpa using hnot, since, ?_, hgrace⟩
      unfold missingSince
      rw [hstatus]
      exact hsince
    exact ⟨backed_dropRecord (hspares hexpires) h, elsewhere_dropRecord v hotkey⟩
  · exact ⟨h, rfl, fun _ _ => rfl, fun _ _ hr => hr⟩

theorem backed_prune (cfg : LlmKeyConfig) (now : ℚ) {v : Validator} (hspares : SparesRows cfg now v)
    (h : Backed v) : Backed (pruneLlmKeyHotkeyStatus cfg now v) := by
  unfold pruneLlmKeyHotkeyStatus
  have hnodup : v.llmKeyHotkeyStatus.keys.Nodup := v.llmKeyHotkeyStatus.nodupKeys
  have hkeys : ∀ hotkey ∈ v.llmKeyHotkeyStatus.keys, Expires cfg now v hotkey → Rowless v hotkey :=
    fun hotkey _ => hspares hotkey
  generalize v.llmKeyHotkeyStatus.keys = hotkeys at hnodup hkeys
  clear hspares
  induction hotkeys generalizing v with
  | nil => exact h
  | cons hotkey rest ih =>
    obtain ⟨hnew, hrest⟩ := List.nodup_cons.mp hnodup
    obtain ⟨hbacked, helsewhere⟩ := backed_pruneHotkey cfg now (hkeys hotkey List.mem_cons_self) h
    apply ih hbacked hrest
    intro other hother hexpires
    have hne : other ≠ hotkey := by
      rintro rfl
      exact hnew hother
    obtain ⟨hnot, since, hsince, hgrace⟩ := hexpires
    rw [helsewhere.metagraph] at hnot
    rw [helsewhere.missing other hne] at hsince
    apply helsewhere.rowless other hne
    exact hkeys other (List.mem_cons_of_mem hotkey hother) ⟨hnot, since, hsince, hgrace⟩

/-! ## Runs -/

/-- The operation drops no record of a hotkey that has rows. -/
def Op.Spares (cfg : LlmKeyConfig) (v : Validator) : Op → Prop
  | .poll input => SparesRows cfg input.now v
  | .prune now => SparesRows cfg now v
  | _ => True

/-- No operation of the run does. -/
def RunSpares (cfg : LlmKeyConfig) (v : Validator) : List Op → Prop
  | [] => True
  | op :: rest => op.Spares cfg v ∧ RunSpares cfg (op.run cfg v).2 rest

theorem backed_pollReports (cfg : LlmKeyConfig) (input : PollInput) {v w : Validator}
    (hspares : SparesRows cfg input.now v) (hbacked : Backed v) (hcarries : Carries v w) :
    Backed (pollReports cfg input w).2 := by
  have hraised : ∀ (e : Exc) x, Carries v x → Backed x := fun _ _ hx => hx.backed hbacked
  have hspec : Prog.Spec (Carries v) (pollReports cfg input) (fun _ => Backed) fun _ => Backed := by
    unfold pollReports
    cases input.reports with
    | error e => exact fun x hx => (hx.backed hbacked).frame rfl rfl rfl
    | ok answer =>
      have hrows : Prog.Keeps (Carries v) (Prog.forEach answer.1 (processReport input.now)) :=
        Prog.Keeps.forEach _ fun report _ => carries_processReport v input.now report
      refine Prog.Spec.bind (hrows.spec hraised) fun _ => ?_
      refine Prog.Spec.bind ((carries_pollRoster v input.roster).spec hraised) fun _ => ?_
      refine Prog.Spec.bind (Q := fun _ => Backed) ?_ fun _ => ?_
      · intro x hx
        exact backed_prune cfg input.now (hx.spares hspares) (hx.backed hbacked)
      · have hscore : Prog.Keeps Backed (scoreLastEpoch cfg) := by
          intro x hx
          exact ((rollInvariant_carries x).keeps_scoreLastEpoch cfg x (.refl x)).backed hx
        refine Prog.Spec.bind (hscore.spec fun _ _ hx => hx) fun _ => ?_
        exact fun x hx => hx.frame rfl rfl rfl
  have hend := hspec w hcarries
  rcases hrun : pollReports cfg input w with ⟨e | _, x⟩
  · rw [hrun] at hend
    exact hend
  · rw [hrun] at hend
    exact hend

/-- What one slot of an answer leaves on file. -/
def recordResult (keys : Dict String KeyState) (r : LLMKeySubmitKeyResult) : Dict String KeyState :=
  match r.keyId with
  | none => keys
  | some id =>
    let state := (keys.get? (toString id)).getD {}
    let state := { state with
      slot := some r.slot, provider := some r.provider, model := some r.model,
      accepted := some r.accepted, status := some r.status, reason := r.reason }
    keys.insert (toString id)
      (if r.accepted then { state with alive := some true, killedReason := none } else state)

theorem backed_submission {v : Validator} (hotkey : String) (uid : Nat) (accepted : Bool)
    (status : String) (reason : Option String) (results : List LLMKeySubmitKeyResult) (now : ℚ)
    (h : Backed v) : Backed (recordSubmission v hotkey uid accepted status reason results now) := by
  have hkeys : ∀ (answers : List LLMKeySubmitKeyResult) (keys : Dict String KeyState) (subKey : String),
      (keys.get? subKey).isSome = true →
        ((answers.foldl recordResult keys).get? subKey).isSome = true := by
    intro answers
    induction answers with
    | nil => exact fun _ _ hknown => hknown
    | cons answer rest ih =>
      intro keys subKey hknown
      apply ih
      unfold recordResult
      cases answer.keyId with
      | none => exact hknown
      | some id => exact isSome_insert hknown
  have hgrows : Grows (statusOf v hotkey) { statusOf v hotkey with
      uid := some uid, accepted := some accepted, status := some status, reason := reason,
      submittedAt := some now,
      keys := some (results.foldl recordResult ((statusOf v hotkey).keys.getD ∅)) } := by
    constructor
    · intro hreported
      exact hreported
    · intro subKey hknown
      exact hkeys results _ subKey hknown
  exact (carries_putStatus hgrows rfl).backed h

theorem backed_run (cfg : LlmKeyConfig) (op : Op) {v : Validator} (hspares : op.Spares cfg v)
    (h : Backed v) : Backed (op.run cfg v).2 := by
  have hroll : ∀ chain, Carries v (rollEpochIfNeeded cfg chain v).2 := by
    intro chain
    exact (rollInvariant_carries v).keeps_roll cfg chain v (.refl v)
  cases op with
  | poll input =>
    show Backed (llmKeyReportPollRound cfg input v).2
    have hcarries := hroll input.chain
    rcases poll_cases cfg input v with ⟨-, hr⟩ | ⟨-, e, w, hw, hr⟩ | ⟨-, w, hw, hr⟩
    · rw [hr]
      exact h
    · rw [hw] at hcarries
      rw [hr]
      exact hcarries.backed h
    · rw [hw] at hcarries
      rw [hr]
      exact backed_pollReports cfg input hspares h hcarries
  | roll chain => exact (hroll chain).backed h
  | setWeights chain =>
    rw [run_setWeights]
    exact ((rollInvariant_carries v).keeps_setWeights cfg chain v (.refl v)).backed h
  | score => exact ((rollInvariant_carries v).keeps_scoreLastEpoch cfg v (.refl v)).backed h
  | kill hotkey subKey reason => exact (carries_kill v hotkey subKey reason).backed h
  | prune now => exact backed_prune cfg now hspares h
  | submission hotkey uid accepted status reason results now =>
    exact backed_submission hotkey uid accepted status reason results now h
  | resync hotkeys axonsChanged =>
    show Backed (resyncMetagraph v hotkeys axonsChanged)
    unfold resyncMetagraph
    cases axonsChanged with
    | false => exact h.frame rfl rfl rfl
    | true => exact h.frame rfl rfl rfl

theorem backed_runOps (cfg : LlmKeyConfig) (ops : List Op) {v : Validator}
    (hspares : RunSpares cfg v ops) (h : Backed v) : Backed (runOps cfg v ops) := by
  induction ops generalizing v with
  | nil => exact h
  | cons op rest ih => exact ih hspares.2 (backed_run cfg op hspares.1 h)

/-! ## A positive reward -/

/-- The reliability floor in force; one that is no number is replaced by the default. -/
def reliabilityFloor (cfg : LlmKeyConfig) : ℚ :=
  finiteFloor cfg.reliabilityHardFloor LLM_KEY_RELIABILITY_HARD_FLOOR

/-- Over a positive floor, only successes are worth something. -/
theorem efficiency_succeeds {success failure : Int} {latency quality : Option PyFloat}
    {tier : PyFloat} {minCalls : Int} {graded : Option Int} {floor qualityFloor : PyFloat}
    {minGraded : Int} {score : Option ℚ}
    (h : llmKeyEfficiencyScore success failure latency true quality tier minCalls graded floor
      qualityFloor minGraded = .ok score) (hcalls : 0 < minCalls)
    (hfloor : 0 < finiteFloor floor LLM_KEY_RELIABILITY_HARD_FLOOR) (hpos : 0 < score.getD 0) :
    0 < success ∧ 0 ≤ failure := by
  unfold llmKeyEfficiencyScore at h
  simp only [Bool.not_true] at h
  rw [if_neg (by decide)] at h
  split at h
  · cases h
    exact absurd hpos (lt_irrefl 0)
  rename_i hcounts
  split at h
  · cases h
    exact absurd hpos (lt_irrefl 0)
  rename_i htotal
  have hne : success + failure ≠ 0 := by omega
  cases hdiv : intTrueDiv success (success + failure) with
  | error e =>
    rw [hdiv] at h
    cases h
  | ok reliability =>
    have hvalue := (intTrueDiv_ends success hne).value reliability hdiv
    rw [hdiv] at h
    change (if reliability < finiteFloor floor LLM_KEY_RELIABILITY_HARD_FLOOR then _ else _) = _ at h
    split at h
    · cases h
      exact absurd hpos (lt_irrefl 0)
    rename_i hreliable
    refine ⟨?_, by omega⟩
    -- Without a success the reliability is zero, under the floor.
    by_contra hnone
    have hzero : success = 0 := by omega
    apply hreliable
    rw [hvalue, hzero, Int.cast_zero, zero_div]
    exact hfloor

/-- Something pooled for a positive reward succeeded, in calls that a float can count. -/
theorem pooled_succeeds {cfg : LlmKeyConfig} {v : Validator} {hotkey : String}
    {subs : List SubWindow} {earned : ℚ} (hfloor : 0 < reliabilityFloor cfg)
    (h : pooledWindowReward cfg v hotkey subs = .ok earned) (hpos : 0 < earned) :
    ∃ sub ∈ subs, 0 < sub.successCount ∧ fitsDouble sub.calls = true := by
  rw [pooledWindowReward_eq] at h
  obtain ⟨latency, -, h⟩ := except_bind_ok h
  obtain ⟨quality, -, h⟩ := except_bind_ok h
  obtain ⟨tier, htier, h⟩ := except_bind_ok h
  obtain ⟨score, hscore, hearned⟩ := except_bind_ok h
  cases hearned
  obtain ⟨hsuccess, hfailure⟩ := efficiency_succeeds hscore one_pos hfloor hpos
  have hsum : 0 < (subs.map SubWindow.successCount).sum := hsuccess
  have hsum' : 0 ≤ (subs.map SubWindow.failureCount).sum := hfailure
  -- Somebody's successes are positive, or the sum would not be.
  have hsome : ∃ sub ∈ subs, 0 < sub.successCount := by
    by_contra hnone
    apply hsum.not_ge
    have hle : ∀ sub ∈ subs, sub.successCount ≤ 0 := by
      intro sub hsub
      by_contra hpositive
      exact hnone ⟨sub, hsub, not_le.mp hpositive⟩
    calc (subs.map SubWindow.successCount).sum ≤ (subs.map fun _ => (0 : Int)).sum :=
          List.sum_le_sum hle
      _ = 0 := by simp
  obtain ⟨sub, hsub, hpositive⟩ := hsome
  refine ⟨sub, hsub, hpositive, ?_⟩
  unfold blendedTier at htier
  dsimp only at htier
  rw [if_pos (by omega)] at htier
  obtain ⟨parts, hparts, -⟩ := except_bind_ok htier
  obtain ⟨part, hpart⟩ := mapM_mem hparts sub hsub
  cases hfits : fitsDouble sub.calls with
  | true => rfl
  | false =>
    unfold mulInt at hpart
    rw [hfits] at hpart
    cases hpart

/-! ## The gate -/

/-- The live rows of the last completed epoch are worth something. -/
structure Earned (cfg : LlmKeyConfig) (v : Validator) (hotkey : String) (earned : ℚ) : Prop where
  live : liveOf v hotkey ≠ []
  pooled : pooledWindowReward cfg v hotkey (liveOf v hotkey) = .ok earned
  positive : 0 < earned

theorem mem_liveOf {v : Validator} {hotkey : String} {sub : SubWindow} (h : sub ∈ liveOf v hotkey) :
    ∃ subKey, subWindow? v.llmKeyLastEpochCalls (hotkey, subKey) = some sub ∧
      isLive v hotkey subKey = true := by
  unfold liveOf paidEntries at h
  obtain ⟨p, hp, rfl⟩ := List.mem_map.mp h
  obtain ⟨hmem, hlive⟩ := List.mem_filter.mp hp
  refine ⟨p.1, ?_, hlive⟩
  unfold subWindow?
  cases hacc : v.llmKeyLastEpochCalls.get? hotkey with
  | none =>
    rw [hacc] at hmem
    cases hmem
  | some acc =>
    rw [hacc] at hmem
    exact Dict.mem_entries_iff.mp hmem

/-- Whoever has earned something passes the gate exactly at the uid on record. -/
theorem evidence_iff {cfg : LlmKeyConfig} {v : Validator} {hotkey : String} {earned : ℚ} {uid : Nat}
    (hfloor : 0 < reliabilityFloor cfg) (hbacked : Backed v) (hearned : Earned cfg v hotkey earned)
    (huid : v.metagraphHotkeys[uid]? = some hotkey) :
    hasLlmKeyEvidence v uid = true ↔ uidOnRecord v hotkey = some uid := by
  obtain ⟨sub, hsub, hsuccess, hfits⟩ := pooled_succeeds hfloor hearned.pooled hearned.positive
  obtain ⟨subKey, hwindow, hlive⟩ := mem_liveOf hsub
  have hknown := (hbacked.paid.counts (hotkey, subKey) sub hwindow).known hsuccess hfits
  have hrows : v.llmKeyLastEpochCalls.get? hotkey ≠ none := by
    intro hnone
    unfold subWindow? at hwindow
    rw [hnone] at hwindow
    cases hwindow
  have hreported := hbacked.paid.reported hotkey hrows
  unfold hasLlmKeyEvidence uidOnRecord
  unfold Reported at hreported
  unfold Known keyState keyStatesOf at hknown
  unfold isLive keyStatesOf at hlive
  rw [huid]
  dsimp only
  cases hstatus : v.llmKeyHotkeyStatus.get? hotkey with
  | none =>
    rw [hstatus] at hreported
    cases hreported
  | some status =>
    rw [hstatus] at hreported hknown hlive
    dsimp only [Option.bind_some] at hreported hknown hlive ⊢
    rw [hreported]
    cases hkeys : status.keys with
    | none =>
      rw [hkeys] at hknown
      cases hknown
    | some keys =>
      rw [hkeys, Option.getD_some] at hknown hlive
      obtain ⟨state, hstate⟩ := Option.isSome_iff_exists.mp hknown
      rw [hstate, Option.getD_some] at hlive
      have hany : (keys.values.any fun state => state.alive.getD true) = true := by
        apply List.any_eq_true.mpr
        refine ⟨state, ?_, hlive⟩
        exact List.mem_map_of_mem (f := Prod.snd) (Dict.mem_entries_iff.mpr hstate)
      simp [hany]

/-! ## `set_weights` -/

/-- Scoring puts what a hotkey has earned at its uid. -/
theorem scored_at {cfg : LlmKeyConfig} {v v' : Validator} {hotkey : String} {earned : ℚ}
    (h : scoreLastEpoch cfg v = (.ok (), v')) (hrange : InRange v' hotkey)
    (hearned : Earned cfg v' hotkey earned) :
    v'.scores[v'.metagraphHotkeys.idxOf hotkey]? = some earned := by
  rcases scoreLastEpoch_cases cfg v with ⟨-, v'', hrun, hscored⟩ | ⟨-, e, v'', hrun, -⟩
  swap
  · rw [hrun] at h
    cases h
  rw [hrun] at h
  cases h
  have hmem : hotkey ∈ v.llmKeyLastEpochCalls.keys := by
    by_contra hnot
    apply hearned.live
    have hnone : v.llmKeyLastEpochCalls.get? hotkey = none := by
      cases hacc : v.llmKeyLastEpochCalls.get? hotkey with
      | none => rfl
      | some acc => exact absurd (Dict.mem_keys_iff.mpr ⟨acc, hacc⟩) hnot
    rw [(hscored.others hotkey hnot).liveOf]
    show ((((v.llmKeyLastEpochCalls.get? hotkey).map fun acc => acc.keys.entries).getD []).filter
      _).map Prod.snd = []
    rw [hnone]
    rfl
  have hsubs : liveOf v' hotkey = scoredSubs cfg v hotkey := hscored.live hotkey hmem
  have hreward : reward cfg v hotkey = earned := by
    have hpooled := hearned.pooled
    have hlive := hearned.live
    rw [pooledWindowReward_congr cfg (hscored.weight hotkey), hsubs] at hpooled
    rw [hsubs] at hlive
    unfold reward
    rw [if_neg hlive, show pooledWindowReward cfg v hotkey (scoredSubs cfg v hotkey) = .ok earned
      from hpooled]
  have hrange' : InRange (zeroed v) hotkey :=
    (inRange_congr hscored.metagraph hscored.length hotkey).mp hrange
  have hzero : (zeroed v).scores[(zeroed v).metagraphHotkeys.idxOf hotkey]? = some 0 := by
    have hlt := ((inRange_zeroed v hotkey).mp hrange').2
    show (List.replicate v.scores.length (0 : ℚ))[v.metagraphHotkeys.idxOf hotkey]? = some 0
    simp [hlt]
  have hpaid := hscored.paid hotkey hmem hrange' hzero
  rw [show reward cfg (zeroed v) hotkey = reward cfg v hotkey from rfl, hreward] at hpaid
  rw [hscored.metagraph]
  exact hpaid

theorem getElem?_blended {v : Validator} {uid : Nat} {score : ℚ} (h : v.scores[uid]? = some score) :
    (blendedWeightArray v)[uid]? =
      some (if 0 < score ∧ hasLlmKeyEvidence v uid = false then 0 else score) := by
  unfold blendedWeightArray
  rw [List.getElem?_mapIdx, h]
  rfl

/-- **When weight that was earned is submitted**: after any run that drops no record of a hotkey with
    rows, the array `set_weights` submits has what the hotkey earned at the hotkey's uid, if and only
    if that is the uid on record. -/
theorem earned_weight_submitted_iff {cfg : LlmKeyConfig} (hfloor : 0 < reliabilityFloor cfg)
    {v v' : Validator} (hnew : v.llmKeyPendingCalls = ∅ ∧ v.llmKeyLastEpochCalls = ∅)
    {ops : List Op} (hspares : RunSpares cfg v ops) {chain : Option ChainReads} {array : List ℚ}
    (h : setWeights cfg chain (runOps cfg v ops) = (.ok array, v')) {hotkey : String} {earned : ℚ}
    (hrange : InRange v' hotkey) (hearned : Earned cfg v' hotkey earned) :
    array[v'.metagraphHotkeys.idxOf hotkey]? = some earned ↔
      uidOnRecord (runOps cfg v ops) hotkey =
        some ((runOps cfg v ops).metagraphHotkeys.idxOf hotkey) := by
  have hstart : Backed v := by
    constructor
    · rw [hnew.1]
      exact windowsBacked_empty v
    · rw [hnew.2]
      exact windowsBacked_empty v
  have hbefore : Backed (runOps cfg v ops) := backed_runOps cfg ops hspares hstart
  have hcarries : Carries (runOps cfg v ops) v' :=
    ((rollInvariant_carries _).keeps_setWeights cfg chain).run (.refl _) h
  have huid : uidOnRecord v' hotkey = uidOnRecord (runOps cfg v ops) hotkey :=
    ((rollInvariant_uid hotkey _).keeps_setWeights cfg chain).run rfl h
  rw [← hcarries.metagraph, ← huid]
  -- What is submitted is the score, where the gate lets it pass.
  unfold setWeights at h
  obtain ⟨_, v₁, -, h⟩ := Prog.bind_eq_ok h
  obtain ⟨_, v₂, hscore, h⟩ := Prog.bind_eq_ok h
  obtain ⟨_, v₃, hget, hreturn⟩ := Prog.bind_eq_ok h
  cases hget
  cases hreturn
  have hplace : v'.metagraphHotkeys[v'.metagraphHotkeys.idxOf hotkey]? = some hotkey :=
    List.getElem?_idxOf (List.idxOf_lt_length_iff.mp hrange.1)
  rw [getElem?_blended (scored_at hscore hrange hearned),
    ← evidence_iff hfloor (hcarries.backed hbefore) hearned hplace]
  cases hasLlmKeyEvidence v' (v'.metagraphHotkeys.idxOf hotkey) with
  | true => simp
  | false =>
    rw [if_pos ⟨hearned.positive, rfl⟩, Option.some.injEq]
    exact iff_of_false hearned.positive.ne (by decide)

/-- Two miners, nothing recorded yet. -/
def twoMiners : Validator where
  hotkeys := ["5A", "5B"]
  metagraphHotkeys := ["5A", "5B"]
  scores := [0, 0]

/-- Twenty good calls of the first one. -/
def firstReported : Op :=
  .poll
    { now := 5
      chain := chainAt 361 1000
      reports := .ok ([{ hotkey := "5A", keyId := some 7, successCount := 20 }], none)
      roster := .ok [] }

/-- The state after the weights of the next epoch. -/
def nextWeights (ops : List Op) : Except Exc (List ℚ) × Validator :=
  setWeights {} (chainAt 361 1361) (runOps {} twoMiners ops)

theorem earned_weight_submitted_iff_stayed :
    ([17 / 50, 0] : List ℚ)[0]? = some (17 / 50) ↔
      uidOnRecord (runOps {} twoMiners [firstReported]) "5A" = some 0 := by
  have hspares : RunSpares {} twoMiners [firstReported] := by
    refine ⟨?_, trivial⟩
    rintro hotkey ⟨-, since, hsince, -⟩
    cases hsince
  have hrun : setWeights {} (chainAt 361 1361) (runOps {} twoMiners [firstReported]) =
      (.ok [17 / 50, 0], (nextWeights [firstReported]).2) := by decide +kernel
  have hearned : Earned {} (nextWeights [firstReported]).2 "5A" (17 / 50) := by
    constructor
    · decide +kernel
    · decide +kernel
    · norm_num
  have hrange : InRange (nextWeights [firstReported]).2 "5A" := by
    unfold InRange
    decide +kernel
  have hiff := earned_weight_submitted_iff (by norm_num [reliabilityFloor, finiteFloor,
    LLM_KEY_RELIABILITY_HARD_FLOOR]) ⟨rfl, rfl⟩ hspares hrun hrange hearned
  have huid : (nextWeights [firstReported]).2.metagraphHotkeys.idxOf "5A" = 0 := by decide +kernel
  have huid' : (runOps {} twoMiners [firstReported]).metagraphHotkeys.idxOf "5A" = 0 := by
    decide +kernel
  rw [huid, huid'] at hiff
  exact hiff

/-- What the gate is to leave alone. -/
def PaysEarned (cfg : LlmKeyConfig) (chain : Option ChainReads) (v : Validator) : Prop :=
  ∀ array v', setWeights cfg chain v = (.ok array, v') → ∀ hotkey earned, InRange v' hotkey →
    Earned cfg v' hotkey earned → array[v'.metagraphHotkeys.idxOf hotkey]? = some earned

/-- The first miner is deregistered, and registered again at the other uid. -/
def movedRun : List Op := [firstReported, .resync ["5C", "5B"] true, .resync ["5C", "5A"] true]

/-- It is not paid for the epoch before. -/
theorem moved_hotkey_unpaid :
    ¬ ∀ (ops : List Op) (chain : Option ChainReads), PaysEarned {} chain (runOps {} twoMiners ops) := by
  intro h
  have hrun : setWeights {} (chainAt 361 1361) (runOps {} twoMiners movedRun) =
      (.ok [0, 0], (nextWeights movedRun).2) := by decide +kernel
  have hearned : Earned {} (nextWeights movedRun).2 "5A" (17 / 50) := by
    constructor
    · decide +kernel
    · decide +kernel
    · norm_num
  have hrange : InRange (nextWeights movedRun).2 "5A" := by
    unfold InRange
    decide +kernel
  have hpaid := h movedRun _ _ _ hrun "5A" (17 / 50) hrange hearned
  have huid : (nextWeights movedRun).2.metagraphHotkeys.idxOf "5A" = 1 := by decide +kernel
  rw [huid] at hpaid
  norm_num at hpaid

end TaoSubnet
