import TaoSubnet.Lib.Ledger
import TaoSubnet.Proof.LlmKey.Windows

/-!
# Which rows a window holds

The two windows hold sums, not rows. `Validator.ledger` is the ledger of the validator's history:
every folded row with the position of its arrival, in the open book while its epoch collects and
in the paid book while it is paid. `Accounts` says that a window is nothing but the sums over the
rows of its book, bucket by bucket, every counter of every key.

`keeps_balanced_*` follow the code function by function; `run_balanced` is the run. What the
ledger then says about rows (one book at most, in by a close, out for good) is said about counts.
-/

namespace TaoSubnet

open Py

/-! ## Rows and what they add -/

/-- A folded row, with the tier the fold gave it. -/
abbrev FoldedRow := LLMKeyUsageReport × ℚ

/-- A bucket is one key of one hotkey. -/
abbrev Bucket := String × String

abbrev Book := List (Nat × Bucket × FoldedRow)

/-- What a row's latency adds when nothing raises. -/
def SubWindow.plusLatency (sub : SubWindow) (report : LLMKeyUsageReport) : SubWindow :=
  match sanitizeLatencyMs report.avgLatencyMs with
  | none => sub
  | some latency =>
    if 0 < rowCalls report then
      { sub with
        latencyMsWeightedSum := sub.latencyMsWeightedSum + latency * rowCalls report
        latencyWeightedCount := sub.latencyWeightedCount + rowCalls report }
    else sub

def SubWindow.plusQuality (sub : SubWindow) (report : LLMKeyUsageReport) : SubWindow :=
  match sanitizeQualityScore report.avgQualityScore with
  | none => sub
  | some quality =>
    if 0 < rowCalls report then
      { sub with
        qualityWeightedSum := sub.qualityWeightedSum + quality * rowCalls report
        qualityWeightedCount := sub.qualityWeightedCount + rowCalls report }
    else sub

/-- A row is added: its tier, its counts, its latency and its grade. -/
def SubWindow.add (sub : SubWindow) (row : FoldedRow) : SubWindow :=
  ((({ sub with tier := some row.2 } : SubWindow).addCounts row.1).plusLatency row.1).plusQuality
    row.1

/-- The rows of one bucket, oldest first. -/
def rowsOf (book : Book) (bucket : Bucket) : List FoldedRow :=
  (book.filter fun row => row.2.1 = bucket).map fun row => row.2.2

/-- The sub-window a bucket's rows add up to; no rows, no sub-window. -/
def summary (rows : List FoldedRow) : Option SubWindow :=
  if rows = [] then none else some (rows.foldl SubWindow.add {})

/-- The sub-window a window holds for a bucket. -/
def subWindow? (windows : Windows) (bucket : Bucket) : Option SubWindow :=
  (windows.get? bucket.1).bind fun acc => acc.keys.get? bucket.2

/-- The window is the sums over the book. -/
def Accounts (windows : Windows) (book : Book) : Prop :=
  ∀ bucket, subWindow? windows bucket = summary (rowsOf book bucket)

/-! ## The ledger of a validator -/

/-- What an event of the windows is to the books. -/
def WindowEvent.toLedger : WindowEvent → Ledger.Event Bucket FoldedRow
  | .folded hotkey subKey report tier => .arrive (hotkey, subKey) (report, tier)
  | .killed hotkey subKey => .drop fun bucket => bucket = (hotkey, subKey)
  | .evicted hotkey => .dropOpen fun bucket => bucket.1 = hotkey
  | .closed _ _ => .close
  | .discarded _ => .discard

def ledgerOf (history : List WindowEvent) : Ledger Bucket FoldedRow :=
  Ledger.replay (history.map WindowEvent.toLedger)

def Validator.ledger (v : Validator) : Ledger Bucket FoldedRow := ledgerOf v.history

/-- Both windows are accounted for. -/
def Balanced (v : Validator) : Prop :=
  Accounts v.llmKeyPendingCalls v.ledger.openRows ∧
  Accounts v.llmKeyLastEpochCalls v.ledger.paidRows

theorem ledgerOf_concat (history : List WindowEvent) (e : WindowEvent) :
    ledgerOf (history ++ [e]) = Ledger.apply history.length (ledgerOf history) e.toLedger := by
  rw [ledgerOf, List.map_append, List.map_singleton, Ledger.replay_concat, List.length_map]
  rfl

/-! ## Books and windows, one write at a time -/

theorem rowsOf_strike (p : Bucket → Bool) (book : Book) (bucket : Bucket) :
    rowsOf (Ledger.strike p book) bucket = if p bucket then [] else rowsOf book bucket := by
  unfold rowsOf Ledger.strike
  rw [List.filter_filter]
  split
  · rename_i hp
    rw [List.map_eq_nil_iff, List.filter_eq_nil_iff]
    rintro ⟨tag, b, row⟩ - h
    simp only [Bool.and_eq_true, decide_eq_true_eq, Bool.not_eq_true'] at h
    rw [h.1, hp] at h
    cases h.2
  · rename_i hp
    refine congrArg _ (List.filter_congr ?_)
    rintro ⟨tag, b, row⟩ -
    by_cases hb : b = bucket
    · subst hb
      simp [hp]
    · simp [hb]

theorem rowsOf_concat (book : Book) (tag : Nat) (bucket other : Bucket) (row : FoldedRow) :
    rowsOf (book ++ [(tag, bucket, row)]) other =
      if bucket = other then rowsOf book other ++ [row] else rowsOf book other := by
  unfold rowsOf
  rw [List.filter_append, List.map_append]
  split <;> rename_i h <;> simp [h]

theorem summary_concat (rows : List FoldedRow) (row : FoldedRow) :
    summary (rows ++ [row]) = some (((summary rows).getD {}).add row) := by
  unfold summary
  rw [if_neg (by simp), List.foldl_concat]
  split
  · rename_i h
    subst h
    rfl
  · rfl

@[simp] theorem subWindow?_empty (bucket : Bucket) : subWindow? ∅ bucket = none := rfl

theorem accounts_nil : Accounts ∅ [] := fun _ => rfl

theorem subWindow?_dropSubKey (windows : Windows) (hotkey subKey : String) (bucket : Bucket) :
    subWindow? (dropSubKey windows hotkey subKey) bucket =
      if bucket = (hotkey, subKey) then none else subWindow? windows bucket := by
  obtain ⟨h, k⟩ := bucket
  cases hw : windows.get? hotkey with
  | none =>
    simp only [dropSubKey, hw]
    split
    · rename_i heq
      cases heq
      simp [subWindow?, hw]
    · rfl
  | some acc =>
    simp only [dropSubKey, hw]
    split
    · -- the key was the last one of its hotkey
      rename_i hempty
      have hall : ∀ x, x ≠ subKey → acc.keys.get? x = none := by
        intro x hx
        have := Dict.isEmpty_iff.mp hempty x
        rwa [Dict.get?_erase, if_neg hx] at this
      by_cases hh : h = hotkey
      · subst hh
        have hk : k ≠ subKey → acc.keys.get? k = none := hall k
        by_cases hks : k = subKey
        · simp [subWindow?, hks]
        · simp [subWindow?, hks, hw, hk]
      · simp [subWindow?, hh]
    · by_cases hh : h = hotkey
      · subst hh
        by_cases hks : k = subKey <;> simp [subWindow?, hks, hw]
      · simp [subWindow?, hh]

theorem Accounts.drop {windows : Windows} {book : Book} (h : Accounts windows book)
    (hotkey subKey : String) :
    Accounts (dropSubKey windows hotkey subKey)
      (Ledger.strike (fun bucket => bucket = (hotkey, subKey)) book) := by
  intro bucket
  rw [subWindow?_dropSubKey, rowsOf_strike]
  by_cases hb : bucket = (hotkey, subKey)
  · simp [hb, summary]
  · simp [hb, h bucket]

theorem Accounts.eraseHotkey {windows : Windows} {book : Book} (h : Accounts windows book)
    (hotkey : String) :
    Accounts (windows.erase hotkey) (Ledger.strike (fun bucket => bucket.1 = hotkey) book) := by
  intro bucket
  rw [rowsOf_strike]
  by_cases hb : bucket.1 = hotkey
  · simp [subWindow?, hb, summary]
  · simp [subWindow?, hb]
    exact h bucket

/-- Storing a row's sub-window where its bucket's was. -/
theorem Accounts.arrive {windows : Windows} {book : Book} (h : Accounts windows book)
    {hotkey subKey : String} {row : FoldedRow} {acc : Window} (tag : Nat)
    (hacc : ∀ k, acc.keys.get? k = subWindow? windows (hotkey, k)) {seen : ℚ} :
    Accounts (windows.insert hotkey
        ⟨acc.keys.insert subKey (((acc.keys.get? subKey).getD {}).add row), acc.firstSeenAt, seen⟩)
      (book ++ [(tag, (hotkey, subKey), row)]) := by
  rintro ⟨h', k'⟩
  rw [rowsOf_concat]
  by_cases hh : h' = hotkey
  · subst hh
    by_cases hk : k' = subKey
    · subst hk
      rw [if_pos rfl, summary_concat, ← h, ← hacc]
      simp [subWindow?]
    · have hne : ((h', subKey) : Bucket) ≠ (h', k') := by
        intro he
        exact hk (Prod.mk.inj he).2.symm
      rw [if_neg hne, ← h, ← hacc]
      simp [subWindow?, hk]
  · have hne : ((hotkey, subKey) : Bucket) ≠ (h', k') := by
      intro he
      exact hh (Prod.mk.inj he).1.symm
    rw [if_neg hne, ← h]
    simp [subWindow?, hh]

/-! ## The code, function by function -/

theorem mulInt_ok {q p : ℚ} {n : Int} (h : mulInt q n = .ok p) : p = q * n := by
  unfold mulInt at h
  split at h
  · exact (Except.ok.inj h).symm
  · cases h

theorem SubWindow.addLatency_ok {sub sub' : SubWindow} {report : LLMKeyUsageReport}
    (h : sub.addLatency report = .ok sub') : sub' = sub.plusLatency report := by
  unfold SubWindow.addLatency at h
  unfold SubWindow.plusLatency
  cases hl : sanitizeLatencyMs report.avgLatencyMs with
  | none =>
    simp only [hl] at h
    exact (Except.ok.inj h).symm
  | some latency =>
    simp only [hl] at h ⊢
    split at h
    · cases hm : mulInt latency (rowCalls report) with
      | error e =>
        rw [hm] at h
        cases h
      | ok product =>
        rw [hm] at h
        rw [if_pos ‹_›, ← mulInt_ok hm]
        exact (Except.ok.inj h).symm
    · rw [if_neg ‹_›]
      exact (Except.ok.inj h).symm

theorem SubWindow.addQuality_ok {sub sub' : SubWindow} {report : LLMKeyUsageReport}
    (h : sub.addQuality report = .ok sub') : sub' = sub.plusQuality report := by
  unfold SubWindow.addQuality at h
  unfold SubWindow.plusQuality
  cases hl : sanitizeQualityScore report.avgQualityScore with
  | none =>
    simp only [hl] at h
    exact (Except.ok.inj h).symm
  | some quality =>
    simp only [hl] at h ⊢
    split at h
    · cases hm : mulInt quality (rowCalls report) with
      | error e =>
        rw [hm] at h
        cases h
      | ok product =>
        rw [hm] at h
        rw [if_pos ‹_›, ← mulInt_ok hm]
        exact (Except.ok.inj h).symm
    · rw [if_neg ‹_›]
      exact (Except.ok.inj h).symm

/-- Kills and evictions strike the same rows from a book as they drop from its window. -/
theorem balanced_invariant : WindowInvariant Balanced where
  frame := by
    rintro v v' h ⟨hp, hl, -, hh⟩
    unfold Balanced Validator.ledger at h ⊢
    rw [hp, hl, hh]
    exact h
  kill := by
    intro v hotkey subKey reason h
    unfold Balanced Validator.ledger
    show Accounts _ (ledgerOf (v.history ++ [_])).openRows ∧
      Accounts _ (ledgerOf (v.history ++ [_])).paidRows
    rw [ledgerOf_concat]
    exact ⟨h.1.drop hotkey subKey, h.2.drop hotkey subKey⟩
  evict := by
    intro v hotkey h
    unfold Balanced Validator.ledger
    show Accounts _ (ledgerOf (v.history ++ [_])).openRows ∧
      Accounts _ (ledgerOf (v.history ++ [_])).paidRows
    rw [ledgerOf_concat]
    exact ⟨h.1.eraseHotkey hotkey, h.2⟩

/-- A close hands the open book over with the window; a discard throws both away. -/
theorem Balanced.moveWindows {v : Validator} (h : Balanced v) (start : Int) (contiguous : Bool)
    (hprev : contiguous = true → v.llmKeyEpochStartBlock ≠ none) :
    Balanced (moveWindows v start contiguous) := by
  unfold Balanced Validator.ledger
  show Accounts ∅ (ledgerOf (v.history ++ [rollEvent v.llmKeyEpochStartBlock start contiguous])).openRows ∧
    Accounts (if contiguous then v.llmKeyPendingCalls else ∅)
      (ledgerOf (v.history ++ [rollEvent v.llmKeyEpochStartBlock start contiguous])).paidRows
  rw [ledgerOf_concat]
  cases contiguous with
  | true =>
    cases hs : v.llmKeyEpochStartBlock with
    | none => exact absurd hs (hprev rfl)
    | some previous => exact ⟨accounts_nil, h.1⟩
  | false =>
    cases v.llmKeyEpochStartBlock <;> exact ⟨accounts_nil, accounts_nil⟩

/-- **A fold that does not raise adds exactly its row**, to the open window only. -/
theorem fold_ok {hotkey : String} {report : LLMKeyUsageReport} {now : ℚ} {v v' : Validator}
    (h : foldReportIntoPending hotkey report now v = (.ok (), v')) :
    v' = v ∨
      (v'.history = v.history ++
          [.folded hotkey (reportSubKey report) report (tierForReport v hotkey report)] ∧
        v'.llmKeyLastEpochCalls = v.llmKeyLastEpochCalls ∧
        ∃ acc : Window, acc = (v.llmKeyPendingCalls.get? hotkey).getD ⟨∅, now, now⟩ ∧
          v'.llmKeyPendingCalls = v.llmKeyPendingCalls.insert hotkey
            ⟨acc.keys.insert (reportSubKey report) (((acc.keys.get? (reportSubKey report)).getD {}).add
              (report, tierForReport v hotkey report)), acc.firstSeenAt, now⟩) := by
  unfold foldReportIntoPending at h
  split at h
  · left
    exact (Prod.mk.inj h).2.symm
  · right
    rw [Prog.bind_ok (Prog.get_run v)] at h
    simp only [subWindowFor] at h
    rw [Prog.bind_ok (Prog.modify_run _ _)] at h
    generalize hacc : (v.llmKeyPendingCalls.get? hotkey).getD ⟨∅, now, now⟩ = acc at h
    cases hl : SubWindow.addLatency
        (({ (acc.keys.get? (reportSubKey report)).getD {} with
            tier := some (tierForReport v hotkey report) } : SubWindow).addCounts report) report with
    | error e =>
      rw [hl] at h
      cases h
    | ok sub =>
      rw [hl, Prog.bind_ok (Prog.ofExcept_run _ _), Prog.bind_ok (Prog.modify_run _ _)] at h
      cases hq : sub.addQuality report with
      | error e =>
        rw [hq] at h
        cases h
      | ok sub' =>
        rw [hq, Prog.bind_ok (Prog.ofExcept_run _ _), Prog.bind_ok (Prog.modify_run _ _)] at h
        have hsub : sub' = ((acc.keys.get? (reportSubKey report)).getD {}).add
            (report, tierForReport v hotkey report) := by
          rw [SubWindow.addQuality_ok hq, SubWindow.addLatency_ok hl]
          rfl
        split at h
        · cases h
          refine ⟨rfl, rfl, acc, rfl, ?_⟩
          rw [← hsub]
          simp [updateKeyState, putSubWindow]
        · cases h
          refine ⟨rfl, rfl, acc, rfl, ?_⟩
          rw [← hsub]
          simp [putSubWindow]

theorem balanced_fold (hotkey : String) (report : LLMKeyUsageReport) (now : ℚ) :
    Prog.Spec Balanced (foldReportIntoPending hotkey report now) (fun _ => Balanced)
      (fun _ _ => True) := by
  intro v h
  rcases hr : foldReportIntoPending hotkey report now v with ⟨e | _, v'⟩
  · trivial
  · show Balanced v'
    rcases fold_ok hr with rfl | ⟨hh, hl, acc, hacc, hp⟩
    · exact h
    · unfold Balanced Validator.ledger
      rw [hh, hl, hp, ledgerOf_concat]
      refine ⟨h.1.arrive _ fun k => ?_, h.2⟩
      rw [hacc, subWindow?]
      cases v.llmKeyPendingCalls.get? hotkey <;> rfl

theorem keeps_balanced_roll (cfg : LlmKeyConfig) (chain : Option ChainReads) :
    Prog.Keeps Balanced (rollEpochIfNeeded cfg chain) := by
  intro v h
  rcases roll_cases cfg chain v with ⟨-, hr⟩ | ⟨start, -, -, -, hr⟩ | ⟨start, -, -, -, hr⟩
  · rw [hr]
    exact h
  · rw [hr]
    exact ⟨h.1, h.2⟩
  · rw [hr]
    refine balanced_invariant.keeps_scoreLastEpoch cfg _ (h.moveWindows start _ fun hc hn => ?_)
    rw [hn] at hc
    cases hc

/-! ## One operation -/

variable (cfg : LlmKeyConfig)

/-- The history up to here is a beginning of every later one. -/
theorem prefix_invariant (front : List WindowEvent) :
    WindowInvariant fun v => front <+: v.history where
  frame := by
    rintro v v' h ⟨-, -, -, hh⟩
    rwa [hh]
  kill := fun _ _ _ _ h => h.trans (List.prefix_append ..)
  evict := fun _ _ h => h.trans (List.prefix_append ..)

/-- The rows of the folds in a history. -/
def foldedRows (history : List WindowEvent) : List LLMKeyUsageReport :=
  history.filterMap fun
    | .folded _ _ report _ => some report
    | _ => none

theorem folded_invariant (rows : List LLMKeyUsageReport) :
    WindowInvariant fun v => foldedRows v.history = rows where
  frame := by
    rintro v v' h ⟨-, -, -, hh⟩
    rwa [hh]
  kill := fun v hotkey subKey reason h => by simpa [killHotkeyKey, updateKeyState, foldedRows] using h
  evict := fun v hotkey h => by simpa [TaoSubnet.evict, foldedRows] using h

/-- A statement about windows that a roll and the rest of a poll keep is kept by every
    operation. -/
theorem WindowInvariant.run {I : Validator → Prop} (hI : WindowInvariant I) {op : Op}
    (hroll : ∀ chain, Prog.Keeps I (rollEpochIfNeeded cfg chain))
    (hpoll : ∀ input, op = .poll input → Prog.Keeps I (pollReports cfg input)) :
    Prog.Keeps I (op.run cfg) := by
  intro v h
  cases op with
  | poll input =>
    show I (llmKeyReportPollRound cfg input v).2
    rcases poll_cases cfg input v with ⟨-, hr⟩ | ⟨-, e, v', hroll', hr⟩ | ⟨-, v', hroll', hr⟩
    · rw [hr]
      exact h
    · have := hroll input.chain v h
      rw [hroll'] at this
      rw [hr]
      exact this
    · have := hroll input.chain v h
      rw [hroll'] at this
      rw [hr]
      exact hpoll input rfl v' this
  | roll chain => exact hroll chain v h
  | setWeights chain =>
    rw [run_setWeights]
    refine Prog.Keeps.bind (hroll chain) (fun _ => ?_) v h
    refine Prog.Keeps.bind (hI.keeps_scoreLastEpoch cfg) fun _ => ?_
    exact Prog.Keeps.bind Prog.Keeps.get fun _ => Prog.Keeps.ret _
  | score => exact hI.keeps_scoreLastEpoch cfg v h
  | kill hotkey subKey reason => exact hI.kill v hotkey subKey reason h
  | prune now => exact hI.prune cfg now h
  | submission hotkey uid accepted status reason results now =>
    exact hI.frame h ⟨rfl, rfl, rfl, rfl⟩
  | resync hotkeys axonsChanged => exact hI.resync hotkeys axonsChanged h

theorem keeps_prefix_roll (front : List WindowEvent) (chain : Option ChainReads) :
    Prog.Keeps (fun v => front <+: v.history) (rollEpochIfNeeded cfg chain) := by
  intro v h
  rcases roll_cases cfg chain v with ⟨-, hr⟩ | ⟨start, -, -, -, hr⟩ | ⟨start, -, -, -, hr⟩
  · rw [hr]
    exact h
  · rw [hr]
    exact h
  · rw [hr]
    exact (prefix_invariant front).keeps_scoreLastEpoch cfg _ (h.trans (List.prefix_append ..))

/-- An operation only ever adds to the history. -/
theorem history_grows (op : Op) (v : Validator) : v.history <+: (op.run cfg v).2.history := by
  refine (prefix_invariant v.history).run cfg (keeps_prefix_roll cfg v.history)
    (fun input _ => ?_) v (List.prefix_refl _)
  refine Prog.Spec.keeps ((prefix_invariant v.history).spec_pollReports cfg (fun _ _ h => h)
    (fun hotkey report now => Prog.Keeps.spec (fun w hw => ?_) fun _ _ h => h) input)
  rcases fold_cases hotkey report now w with ⟨-, hf⟩ | ⟨hh, -, -⟩
  · rw [hf]
    exact hw
  · show v.history <+: (foldReportIntoPending hotkey report now w).2.history
    rw [hh]
    exact hw.trans (List.prefix_append ..)

theorem history_grows_run :
    ∀ (ops : List Op) (v : Validator), v.history <+: (runOps cfg v ops).history
  | [], _ => List.prefix_refl _
  | op :: rest, v => (history_grows cfg op v).trans (history_grows_run rest (op.run cfg v).2)

theorem runOps_append (v : Validator) (xs ys : List Op) :
    runOps cfg v (xs ++ ys) = runOps cfg (runOps cfg v xs) ys := List.foldl_append ..

/-- No poll of the run raises. -/
def NoPollAborts (v : Validator) : List Op → Prop
  | [] => True
  | op :: rest =>
    (∀ input, op = .poll input → (llmKeyReportPollRound cfg input v).1 = .ok ()) ∧
      NoPollAborts (op.run cfg v).2 rest

/-- **Every window stays accounted for.** -/
theorem run_balanced : ∀ (ops : List Op) (v : Validator), NoPollAborts cfg v ops → Balanced v →
    Balanced (runOps cfg v ops)
  | [], _, _, h => h
  | op :: rest, v, hok, h => by
    refine run_balanced rest (op.run cfg v).2 hok.2 ?_
    cases op with
    | poll input =>
      show Balanced (llmKeyReportPollRound cfg input v).2
      have hend := hok.1 input rfl
      rcases poll_cases cfg input v with ⟨-, hr⟩ | ⟨-, e, v', hroll, hr⟩ | ⟨-, v', hroll, hr⟩
      · rw [hr]
        exact h
      · rw [hr] at hend
        cases hend
      · have hroll' := keeps_balanced_roll cfg input.chain v h
        have hspec := balanced_invariant.spec_pollReports cfg (fun _ _ _ => trivial)
          balanced_fold input v' (by rwa [hroll] at hroll')
        rw [hr] at hend ⊢
        rcases hp : pollReports cfg input v' with ⟨e | _, v''⟩ <;> rw [hp] at hend hspec
        · cases hend
        · exact hspec
    | _ =>
      exact balanced_invariant.run cfg (keeps_balanced_roll cfg)
        (fun input hop => by cases hop) v h

/-! ## Arrivals -/

/-- The rows the backend delivers to an operation. -/
def Op.delivered : Op → List LLMKeyUsageReport
  | .poll input =>
    match input.reports with
    | .ok (reports, _) => reports
    | .error _ => []
  | _ => []

/-- A row is folded once at most, and nothing is folded in its name. -/
theorem processReport_folds (now : ℚ) (report : LLMKeyUsageReport) (v : Validator) :
    ∃ new, new.Sublist [report] ∧
      foldedRows (processReport now report v).2.history = foldedRows v.history ++ new := by
  have hnone : ∀ {w : Validator}, foldedRows w.history = foldedRows v.history →
      ∃ new, new.Sublist [report] ∧ foldedRows w.history = foldedRows v.history ++ new :=
    fun h => ⟨[], List.nil_sublist _, by rw [h, List.append_nil]⟩
  have hI := folded_invariant (foldedRows v.history)
  unfold processReport
  rw [Prog.bind_ok (Prog.get_run v)]
  simp only
  split
  · rw [Prog.bind_ok (Prog.modify_run _ _)]
    have hrec : foldedRows (recordReport v report (v.metagraphHotkeys.idxOf report.hotkey)
        now).history = foldedRows v.history := rfl
    split
    · exact hnone (hI.kill _ _ _ _ hrec)
    · split
      · exact hnone (hI.kill _ _ _ _ hrec)
      · rcases fold_cases report.hotkey report now
            (recordReport v report (v.metagraphHotkeys.idxOf report.hotkey) now) with ⟨-, h⟩ | ⟨h, -, -⟩
        · rw [h]
          exact hnone hrec
        · refine ⟨[report], List.Sublist.refl _, ?_⟩
          rw [h, foldedRows, List.filterMap_append]
          rfl
  · exact hnone rfl

theorem processReports_fold (now : ℚ) :
    ∀ (reports : List LLMKeyUsageReport) (v : Validator), ∃ new, new.Sublist reports ∧
      foldedRows (Prog.forEach reports (processReport now) v).2.history =
        foldedRows v.history ++ new
  | [], v => ⟨[], List.nil_sublist _, (List.append_nil _).symm⟩
  | report :: rest, v => by
    obtain ⟨first, hsub, heq⟩ := processReport_folds now report v
    rcases hr : processReport now report v with ⟨e | _, v'⟩
    · refine ⟨first, hsub.trans (List.singleton_sublist.mpr List.mem_cons_self), ?_⟩
      rw [hr] at heq
      show foldedRows ((processReport now report >>= fun _ => _) v).2.history = _
      rw [Prog.bind_error hr]
      exact heq
    · obtain ⟨later, hsub', heq'⟩ := processReports_fold now rest v'
      refine ⟨first ++ later, hsub.append hsub', ?_⟩
      rw [hr] at heq
      show foldedRows ((processReport now report >>= fun _ => _) v).2.history = _
      rw [Prog.bind_ok hr, heq', heq, List.append_assoc]

theorem foldedRows_rollEvent (previous : Option Int) (start : Int) (contiguous : Bool) :
    foldedRows [rollEvent previous start contiguous] = [] := by
  unfold rollEvent
  cases previous with
  | none => rfl
  | some previous => cases contiguous <;> rfl

/-- An operation folds rows delivered to it, in their order, none of them twice. -/
theorem run_folds (op : Op) (v : Validator) : ∃ new, new.Sublist op.delivered ∧
    foldedRows (op.run cfg v).2.history = foldedRows v.history ++ new := by
  have hroll : ∀ rows chain, Prog.Keeps (fun w => foldedRows w.history = rows)
      (rollEpochIfNeeded cfg chain) := by
    intro rows chain w hw
    rcases roll_cases cfg chain w with ⟨-, hr⟩ | ⟨start, -, -, -, hr⟩ | ⟨start, -, -, -, hr⟩
    · rw [hr]
      exact hw
    · rw [hr]
      exact hw
    · rw [hr]
      refine (folded_invariant rows).keeps_scoreLastEpoch cfg _ ?_
      rw [← hw, moveWindows, foldedRows, List.filterMap_append]
      show foldedRows w.history ++ foldedRows [rollEvent _ _ _] = _
      rw [foldedRows_rollEvent, List.append_nil]
  cases op with
  | poll input =>
    show ∃ new, _ ∧ foldedRows (llmKeyReportPollRound cfg input v).2.history = _
    rcases poll_cases cfg input v with ⟨-, hr⟩ | ⟨-, e, v', hroll', hr⟩ | ⟨-, v', hroll', hr⟩
    · exact ⟨[], List.nil_sublist _, by rw [hr, List.append_nil]⟩
    · have hk := hroll (foldedRows v.history) input.chain v rfl
      rw [hroll'] at hk
      refine ⟨[], List.nil_sublist _, ?_⟩
      rw [hr, List.append_nil]
      exact hk
    · have hk := hroll (foldedRows v.history) input.chain v rfl
      rw [hroll'] at hk
      rw [hr, ← show foldedRows v'.history = foldedRows v.history from hk]
      unfold pollReports
      cases hrep : input.reports with
      | error e => exact ⟨[], List.nil_sublist _, (List.append_nil _).symm⟩
      | ok answer =>
        obtain ⟨reports, nextSince⟩ := answer
        obtain ⟨new, hsub, heq⟩ := processReports_fold input.now reports v'
        refine ⟨new, by simpa only [Op.delivered, hrep] using hsub, ?_⟩
        simp only
        rcases hf : Prog.forEach reports (processReport input.now) v' with ⟨e | _, w⟩
        · rw [hf] at heq
          rw [Prog.bind_error hf]
          exact heq
        · rw [hf] at heq
          rw [Prog.bind_ok hf]
          have hI := folded_invariant (foldedRows v'.history ++ new)
          refine Prog.Keeps.bind (hI.keeps_pollRoster _) (fun _ => ?_) w heq
          refine Prog.Keeps.bind (Prog.Keeps.modify fun _ hw => hI.prune cfg input.now hw)
            fun _ => ?_
          refine Prog.Keeps.bind (hI.keeps_scoreLastEpoch cfg) fun _ => ?_
          exact hI.keeps_modify fun _ => ⟨rfl, rfl, rfl, rfl⟩
  | _ =>
    refine ⟨[], List.nil_sublist _, ?_⟩
    rw [List.append_nil]
    exact (folded_invariant (foldedRows v.history)).run cfg (hroll _)
      (fun input hop => by cases hop) v rfl

/-- **The tags are arrivals**: the folds of a run are among the rows it was delivered, in order. -/
theorem run_arrivals : ∀ (ops : List Op) (v : Validator), ∃ new,
    new.Sublist (ops.flatMap Op.delivered) ∧
      foldedRows (runOps cfg v ops).history = foldedRows v.history ++ new
  | [], v => ⟨[], List.nil_sublist _, (List.append_nil _).symm⟩
  | op :: rest, v => by
    obtain ⟨first, hsub, heq⟩ := run_folds cfg op v
    obtain ⟨later, hsub', heq'⟩ := run_arrivals rest (op.run cfg v).2
    refine ⟨first ++ later, hsub.append hsub', ?_⟩
    show foldedRows (runOps cfg (op.run cfg v).2 rest).history = _
    rw [heq', heq, List.append_assoc]

/-! ## Scores read the paid window only -/

/-- The same validator, up to its open window and its history. -/
def SamePaid (v w : Validator) : Prop :=
  ∃ pending history, w = { v with llmKeyPendingCalls := pending, history := history }

theorem rel_killFlooredKeys (hotkey : String) (keys : List (String × SubWindow)) :
    Prog.Rel SamePaid (killFlooredKeys cfg hotkey keys) (killFlooredKeys cfg hotkey keys) := by
  refine Prog.Rel.forEach keys fun entry _ => ?_
  obtain ⟨subKey, sub⟩ := entry
  refine Prog.Rel.bind (Prog.Rel.ofExcept _) fun reason => ?_
  cases reason with
  | none => exact Prog.Rel.ret ()
  | some reason =>
    refine Prog.Rel.modify ?_
    rintro v _ ⟨pending, history, rfl⟩
    exact ⟨_, _, rfl⟩

theorem rel_scoreHotkey (hotkey : String) :
    Prog.Rel SamePaid (scoreHotkey cfg hotkey) (scoreHotkey cfg hotkey) := by
  refine Prog.Rel.get_bind ?_
  rintro v _ ⟨pending, history, rfl⟩
  refine Prog.Rel.bind (rel_killFlooredKeys cfg hotkey _) fun _ => ?_
  refine Prog.Rel.get_bind ?_
  rintro v _ ⟨pending, history, rfl⟩
  simp only
  cases v.llmKeyLastEpochCalls.get? hotkey with
  | none => exact Prog.Rel.ret ()
  | some acc =>
    refine Prog.Rel.bind (Prog.Rel.modify ?_) fun _ => ?_
    · rintro v _ ⟨pending, history, rfl⟩
      exact ⟨_, _, rfl⟩
    · -- the live keys and the pooled reward are read from what both validators share
      have hlive : liveSubs { v with llmKeyPendingCalls := pending, history := history } hotkey acc =
          liveSubs v hotkey acc := rfl
      have hpool : pooledWindowReward cfg
          { v with llmKeyPendingCalls := pending, history := history } hotkey =
            pooledWindowReward cfg v hotkey := rfl
      rw [hlive, hpool]
      split
      · exact Prog.Rel.ret ()
      · split
        · split
          · exact Prog.Rel.ret ()
          · refine Prog.Rel.bind (Prog.Rel.ofExcept _) fun reward => Prog.Rel.modify ?_
            rintro v _ ⟨pending, history, rfl⟩
            exact ⟨_, _, rfl⟩
        · exact Prog.Rel.ret ()

theorem rel_scoreLastEpoch :
    Prog.Rel SamePaid (scoreLastEpoch cfg) (scoreLastEpoch cfg) := by
  refine Prog.Rel.get_bind ?_
  rintro v _ ⟨pending, history, rfl⟩
  refine Prog.Rel.tryExcept ?_ fun e => ?_
  · refine Prog.Rel.bind (Prog.Rel.modify ?_) fun _ =>
      Prog.Rel.forEach _ fun hotkey _ => rel_scoreHotkey cfg hotkey
    rintro v _ ⟨pending, history, rfl⟩
    exact ⟨_, _, rfl⟩
  · refine Prog.Rel.bind (Prog.Rel.modify ?_) fun _ => Prog.Rel.raise e
    rintro v _ ⟨pending, history, rfl⟩
    exact ⟨_, _, rfl⟩

/-- Whatever the open window holds, the scores are the same. -/
theorem scores_ignore_pending {v w : Validator} (h : SamePaid v w) :
    (scoreLastEpoch cfg w).2.scores = (scoreLastEpoch cfg v).2.scores := by
  obtain ⟨pending, history, heq⟩ := (rel_scoreLastEpoch cfg v w h).2
  rw [heq]

/-! ## Rows over a run -/

/-- A validator that has collected nothing yet. -/
def Unused (v : Validator) : Prop :=
  v.llmKeyPendingCalls = ∅ ∧ v.llmKeyLastEpochCalls = ∅ ∧ v.history = []

theorem Unused.balanced {v : Validator} (h : Unused v) : Balanced v := by
  unfold Balanced Validator.ledger
  rw [h.1, h.2.1, h.2.2]
  exact ⟨accounts_nil, accounts_nil⟩

/-- The ledger of a run, by what its history adds to an earlier one. -/
theorem ledger_run (v : Validator) (ops : List Op) : ∃ new : List WindowEvent,
    (runOps cfg v ops).history = v.history ++ new := by
  obtain ⟨new, hnew⟩ := history_grows_run cfg ops v
  exact ⟨new, hnew.symm⟩

/-- **Where rows are over a run in which no poll aborts.** Both windows are the sums over the
    books of the history, and the arrivals in it are rows the backend delivered, each once at
    most. No row is on the books twice; a row comes into the paid window by a close of the open
    window it was in; one that left the paid window is in neither, ever after; and the scores
    read the paid window alone. -/
theorem rows_over_run {v : Validator} (hv : Unused v) {ops : List Op}
    (hok : NoPollAborts cfg v ops) :
    Balanced (runOps cfg v ops) ∧
    (foldedRows (runOps cfg v ops).history).Sublist (ops.flatMap Op.delivered) ∧
    ((runOps cfg v ops).ledger.rows.map Prod.fst).Nodup ∧
    (∀ (more : List Op) (row : Nat × Bucket × FoldedRow),
      row ∉ (runOps cfg v ops).ledger.paidRows →
      row ∈ (runOps cfg v (ops ++ more)).ledger.paidRows →
      ∃ mid rest collectedIn start,
        (runOps cfg v (ops ++ more)).history =
          (runOps cfg v ops).history ++ mid ++ .closed collectedIn start :: rest ∧
        row ∈ (ledgerOf ((runOps cfg v ops).history ++ mid)).openRows) ∧
    (∀ (more later : List Op) (row : Nat × Bucket × FoldedRow),
      row ∈ (runOps cfg v ops).ledger.paidRows →
      row ∉ (runOps cfg v (ops ++ more)).ledger.paidRows →
      row ∉ (runOps cfg v (ops ++ more ++ later)).ledger.rows) ∧
    (∀ w, SamePaid (runOps cfg v ops) w →
      (scoreLastEpoch cfg w).2.scores = (scoreLastEpoch cfg (runOps cfg v ops)).2.scores) := by
  refine ⟨run_balanced cfg ops v hok hv.balanced, ?_, Ledger.nodup_tags _, ?_, ?_,
    fun w hw => scores_ignore_pending cfg hw⟩
  · obtain ⟨new, hsub, heq⟩ := run_arrivals cfg ops v
    rw [heq, hv.2.2]
    exact hsub
  · intro more row hout hin
    rw [runOps_append] at hin ⊢
    obtain ⟨new, hnew⟩ := ledger_run cfg (runOps cfg v ops) more
    rw [Validator.ledger, hnew, ledgerOf, List.map_append] at hin
    obtain ⟨mid, rest, heq, ho⟩ := Ledger.paid_enters hout hin
    obtain ⟨mid', tail', rfl, rfl, htail⟩ := List.map_eq_append_iff.mp heq
    obtain ⟨e, rest', rfl, he, -⟩ := List.map_eq_cons_iff.mp htail
    cases e with
    | closed collectedIn start =>
      refine ⟨mid', rest', collectedIn, start, ?_, ?_⟩
      · rw [hnew, List.append_assoc]
      · rw [ledgerOf, List.map_append]
        exact ho
    | _ => cases he
  · intro more later row hin hout
    rw [runOps_append] at hout
    obtain ⟨new, hnew⟩ := ledger_run cfg (runOps cfg v ops) more
    rw [runOps_append, runOps_append]
    obtain ⟨new', hnew'⟩ := ledger_run cfg (runOps cfg (runOps cfg v ops) more) later
    rw [Validator.ledger, hnew, ledgerOf, List.map_append] at hout
    have hgone := Ledger.gone_of_left_paid hin hout
    have harrived := Ledger.tag_lt _ row (List.mem_append_right _ hin)
    rw [Validator.ledger, hnew', hnew, ledgerOf, List.map_append, List.map_append]
    refine Ledger.gone_stays_gone hgone ?_
    rw [List.length_append]
    omega

theorem rows_over_run_one_row :
    Balanced (runOps {} freshValidator [goodPoll, .roll (chainAt 361 1361)]) ∧
    (runOps {} freshValidator [goodPoll, .roll (chainAt 361 1361)]).ledger.paidRows ≠ [] := by
  have hv : Unused freshValidator := ⟨rfl, rfl, rfl⟩
  have hok : NoPollAborts {} freshValidator [goodPoll, .roll (chainAt 361 1361)] := by
    refine ⟨fun input h => ?_, fun input h => ?_, trivial⟩
    · cases h
      rfl
    · cases h
  refine ⟨(rows_over_run {} hv hok).1, ?_⟩
  decide +kernel

end TaoSubnet
