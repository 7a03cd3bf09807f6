import TaoSubnet.LlmKey.StateFile

/-!
# What a failed load leaves behind

The fields are converted and assigned in turn, in one `try`: a conversion that raises leaves those
before it assigned and those after it as they were. `load_all_or_nothing_iff` says exactly when that
cannot be told from a load that did nothing.
-/

namespace TaoSubnet

open Py

def Fails {α : Type} (x : Except Exc α) : Prop := ∃ e, x = .error e

theorem fails_error {α : Type} (e : Exc) : Fails (.error e : Except Exc α) := ⟨e, rfl⟩

theorem not_fails_ok {α : Type} (a : α) : ¬ Fails (.ok a : Except Exc α) := by
  intro h
  obtain ⟨e, he⟩ := h
  cases he

/-! ## One field after the other -/

/-- One field of the file: its conversion raises, or gives what the state holds already. -/
structure FieldRead where
  fails : Prop
  same : Prop

def FieldRead.of {α : Type} (value : Except Exc α) (old : α) : FieldRead where
  fails := Fails value
  same := value = .ok old

/-- A conversion raises, and those before it give what the state holds already. -/
def StopsClean : List FieldRead → Prop
  | [] => False
  | field :: rest => field.fails ∨ (field.same ∧ StopsClean rest)

theorem stopsClean_cons (field : FieldRead) (rest : List FieldRead) :
    StopsClean (field :: rest) ↔ field.fails ∨ (field.same ∧ StopsClean rest) := Iff.rfl

/-- What the scores of the file come to, once those that nothing backs are dropped. -/
def readBackedScores (r : Loader) (s : Items) (scores : List PyFloat) : Except Exc (List PyFloat) := do
  let status ← readStatus s
  let restored ← readScores r.numpy s scores
  dropUnbackedScores r.py.unicode r.hotkeys status restored

theorem readBackedScores_eq {r : Loader} {s : Items} {scores restored : List PyFloat}
    {status : Dict PyStr Items} (hstatus : readStatus s = .ok status)
    (hscores : readScores r.numpy s scores = .ok restored) : readBackedScores r s scores =
      dropUnbackedScores r.py.unicode r.hotkeys status restored := by
  unfold readBackedScores
  rw [hstatus, hscores]
  rfl

/-- The fields in the order in which they are assigned. The last one reads what was assigned of the
    status and the scores. -/
def fieldReads (r : Loader) (s : Items) (v : MasxaiState) : List FieldRead :=
  let u := r.py.unicode
  [.of (readParticipation u s) v.participationScores,
    .of (readStatus s) v.llmKeyHotkeyStatus,
    .of (readWindows s "llm_key_pending_calls") v.llmKeyPendingCalls,
    .of (getFloat u s "last_llm_key_ask_at") v.lastLlmKeyAskAt,
    .of (getFloat u s "last_llm_key_report_poll_at") v.lastLlmKeyReportPollAt,
    .of (.ok (readCursor r.py s)) v.lastLlmKeyReportCursor,
    .of (readWindows s "llm_key_last_epoch_calls") v.llmKeyLastEpochCalls,
    .of (readEpochStart u s) v.llmKeyEpochStartBlock,
    .of (readScores r.numpy s v.scores) v.scores,
    .of (readBackedScores r s v.scores) v.scores]

/-- Every field is what the file has for it. -/
structure InstalledFrom (r : Loader) (s : Items) (v v' : MasxaiState) : Prop where
  participation : readParticipation r.py.unicode s = .ok v'.participationScores
  status : readStatus s = .ok v'.llmKeyHotkeyStatus
  collecting : readWindows s "llm_key_pending_calls" = .ok v'.llmKeyPendingCalls
  askAt : getFloat r.py.unicode s "last_llm_key_ask_at" = .ok v'.lastLlmKeyAskAt
  pollAt : getFloat r.py.unicode s "last_llm_key_report_poll_at" = .ok v'.lastLlmKeyReportPollAt
  cursor : readCursor r.py s = v'.lastLlmKeyReportCursor
  paid : readWindows s "llm_key_last_epoch_calls" = .ok v'.llmKeyLastEpochCalls
  epochStart : readEpochStart r.py.unicode s = .ok v'.llmKeyEpochStartBlock
  scores : ∃ restored, readScores r.numpy s v.scores = .ok restored ∧
    dropUnbackedScores r.py.unicode r.hotkeys v'.llmKeyHotkeyStatus restored = .ok v'.scores

/-- How a sequence of assignments ends that began with `v₀` and has come to `v`: with every field
    converted, or before the first that is not. -/
def Installs (v₀ v : MasxaiState) (prog : Prog MasxaiState Exc Unit) (fields : List FieldRead)
    (Whole : MasxaiState → Prop) : Prop :=
  ((∀ field ∈ fields, ¬ field.fails) ∧ ∃ v', prog v = (.ok (), v') ∧ Whole v') ∨
  ((¬ ∀ field ∈ fields, ¬ field.fails) ∧
    ∃ e v', prog v = (.error e, v') ∧ (v' = v₀ ↔ v = v₀ ∧ StopsClean fields))

section Step

variable {α : Type} {value : MasxaiState → Except Exc α} {set : α → MasxaiState → MasxaiState}
  {v₀ v : MasxaiState} {Whole : MasxaiState → Prop}

theorem assign_ok {a : α} (h : value v = .ok a) : assign value set v = (.ok (), set a v) := by
  unfold assign
  rw [Prog.bind_ok (Prog.get_run v), h, Prog.bind_ok (Prog.ofExcept_run _ v)]
  rfl

theorem assign_error {e : Exc} (h : value v = .error e) : assign value set v = (.error e, v) := by
  unfold assign
  rw [Prog.bind_ok (Prog.get_run v), h]
  exact Prog.bind_error (Prog.ofExcept_run _ v)

/-- One assignment more, in front. -/
theorem Installs.step {old : α} {rest : Prog MasxaiState Exc Unit} {fields : List FieldRead}
    {x : Except Exc α} (hx : value v = x) (hset : ∀ a, set a v = v₀ ↔ v = v₀ ∧ a = old)
    (hrest : ∀ a, x = .ok a → Installs v₀ (set a v) rest fields Whole) :
    Installs v₀ v (assign value set >>= fun _ => rest) (.of x old :: fields) Whole := by
  cases x with
  | error e =>
    right
    have hfails : (FieldRead.of (.error e : Except Exc α) old).fails := fails_error e
    refine ⟨fun hall => hall _ List.mem_cons_self hfails, e, v, ?_, ?_⟩
    · exact Prog.bind_error (assign_error hx)
    · exact (and_iff_left (.inl hfails)).symm
  | ok a =>
    have hworks : ¬ (FieldRead.of (.ok a) old).fails := not_fails_ok a
    have hsame : (FieldRead.of (.ok a : Except Exc α) old).same ↔ a = old := by
      show (Except.ok a : Except Exc α) = .ok old ↔ a = old
      exact Except.ok.injEq a old ▸ Iff.rfl
    unfold Installs
    rw [Prog.bind_ok (assign_ok hx), List.forall_mem_cons, and_iff_right hworks]
    rcases hrest a rfl with ⟨hall, hend⟩ | ⟨hnot, e, v', hrun, hclean⟩
    · exact .inl ⟨hall, hend⟩
    · right
      refine ⟨hnot, e, v', hrun, ?_⟩
      rw [hclean, hset, and_assoc, stopsClean_cons, or_iff_right hworks, hsame]

end Step

/-- The last assignment. Nothing fails after it, so it may write what was written before. -/
theorem Installs.last {α : Type} {value : MasxaiState → Except Exc α}
    {set : α → MasxaiState → MasxaiState} {v₀ v : MasxaiState} {Whole : MasxaiState → Prop} {old : α}
    {x : Except Exc α} (hx : value v = x) (hwhole : ∀ a, x = .ok a → Whole (set a v)) :
    Installs v₀ v (assign value set) [.of x old] Whole := by
  cases x with
  | error e =>
    right
    have hfails : (FieldRead.of (.error e : Except Exc α) old).fails := fails_error e
    refine ⟨fun hall => hall _ List.mem_cons_self hfails, e, v, assign_error hx, ?_⟩
    exact (and_iff_left (.inl hfails)).symm
  | ok a =>
    left
    refine ⟨?_, set a v, assign_ok hx, hwhole a rfl⟩
    exact List.forall_mem_singleton.mpr (not_fails_ok a)

/-- How the body of the `try` ends. -/
theorem installs (r : Loader) (s : Items) (v : MasxaiState) :
    Installs v v (installFields r s) (fieldReads r s v) (InstalledFrom r s v) := by
  unfold installFields fieldReads
  refine Installs.step rfl (fun x => by simp [MasxaiState.ext_iff]) fun x₁ h₁ => ?_
  refine Installs.step rfl (fun x => by simp [MasxaiState.ext_iff]) fun x₂ h₂ => ?_
  refine Installs.step rfl (fun x => by simp [MasxaiState.ext_iff, and_assoc]) fun x₃ h₃ => ?_
  refine Installs.step rfl (fun x => by simp [MasxaiState.ext_iff, and_assoc]) fun x₄ h₄ => ?_
  refine Installs.step rfl (fun x => by simp [MasxaiState.ext_iff, and_assoc]) fun x₅ h₅ => ?_
  refine Installs.step rfl (fun x => by simp [MasxaiState.ext_iff, and_assoc]) fun x₆ h₆ => ?_
  refine Installs.step rfl (fun x => by simp [MasxaiState.ext_iff, and_assoc]) fun x₇ h₇ => ?_
  refine Installs.step rfl (fun x => by simp [MasxaiState.ext_iff, and_assoc]) fun x₈ h₈ => ?_
  refine Installs.step rfl (fun x => by simp [MasxaiState.ext_iff, and_assoc]) fun x₉ h₉ => ?_
  have hbacked := readBackedScores_eq h₂ h₉
  refine Installs.last hbacked.symm fun x₁₀ h₁₀ => ?_
  exact ⟨h₁, h₂, h₃, h₄, h₅, Except.ok.inj h₆, h₇, h₈, x₉, h₉, hbacked.symm.trans h₁₀⟩

theorem load_of_ok {r : Loader} {contents : Except Exc (List UInt8)} {v v' : MasxaiState} {s : Items}
    (hdocument : readDocument r contents = .ok s) (hrun : installFields r s v = (.ok (), v')) :
    loadMasxaiState r (.present contents) v = (.loaded, v') := by
  have hbody : (Prog.ofExcept (readDocument r contents) >>= installFields r) v = (.ok (), v') := by
    rw [hdocument, Prog.bind_ok (Prog.ofExcept_run _ v), hrun]
  unfold loadMasxaiState
  dsimp only
  rw [hbody]

theorem load_of_error {r : Loader} {contents : Except Exc (List UInt8)} {v v' : MasxaiState} {e : Exc}
    (hbody : (Prog.ofExcept (readDocument r contents) >>= installFields r) v = (.error e, v')) :
    loadMasxaiState r (.present contents) v = (.startingFresh e, v') := by
  unfold loadMasxaiState
  dsimp only
  rw [hbody]

/-- Either every field is installed, or nothing is. -/
def AllOrNothing (r : Loader) (contents : Except Exc (List UInt8)) (v : MasxaiState) : Prop :=
  let result := loadMasxaiState r (.present contents) v
  (result.1 = .loaded ∧ ∃ s, readDocument r contents = .ok s ∧ InstalledFrom r s v result.2) ∨
    (∃ e, result.1 = .startingFresh e ∧ result.2 = v)

/-- **A load is all or nothing exactly when** the document cannot be read, or every field of it can be
    converted, or the fields before the first that cannot are what the state holds already. -/
theorem load_all_or_nothing_iff (r : Loader) (contents : Except Exc (List UInt8))
    (v : MasxaiState) : AllOrNothing r contents v ↔
      ∀ s, readDocument r contents = .ok s →
        (∀ field ∈ fieldReads r s v, ¬ field.fails) ∨ StopsClean (fieldReads r s v) := by
  unfold AllOrNothing
  cases hdocument : readDocument r contents with
  | error e =>
    have hload : loadMasxaiState r (.present contents) v = (.startingFresh e, v) := by
      apply load_of_error
      rw [hdocument]
      exact Prog.bind_error (Prog.ofExcept_run _ v)
    rw [hload]
    refine iff_of_true (.inr ⟨e, rfl, rfl⟩) ?_
    intro s hs
    cases hs
  | ok s =>
    have hforall : (∀ s', (Except.ok s : Except Exc Items) = .ok s' →
        (∀ field ∈ fieldReads r s' v, ¬ field.fails) ∨ StopsClean (fieldReads r s' v)) ↔
        ((∀ field ∈ fieldReads r s v, ¬ field.fails) ∨ StopsClean (fieldReads r s v)) := by
      constructor
      · intro h
        exact h s rfl
      · intro h s' hs'
        cases hs'
        exact h
    rw [hforall]
    rcases installs r s v with ⟨hall, v', hrun, hwhole⟩ | ⟨hnot, e, v', hrun, hclean⟩
    · rw [load_of_ok hdocument hrun]
      exact iff_of_true (.inl ⟨rfl, s, rfl, hwhole⟩) (.inl hall)
    · have hload : loadMasxaiState r (.present contents) v = (.startingFresh e, v') := by
        apply load_of_error
        rw [hdocument, Prog.bind_ok (Prog.ofExcept_run _ v), hrun]
      rw [and_iff_right rfl] at hclean
      rw [hload, or_iff_right hnot, ← hclean]
      constructor
      · rintro (⟨hloaded, -⟩ | ⟨e', -, hsame⟩)
        · cases hloaded
        · exact hsame
      · intro hsame
        exact .inr ⟨e, rfl, hsame⟩

/-- A loader whose files have no scores. -/
def scorelessLoader : Loader where
  py := cpython
  numpy :=
    { array32 := fun _ => .ok ⟨[0], []⟩
      overlap := fun scores _ => .ok scores }
  hotkeys := []

/-- A cursor, and an epoch start that is no number. -/
def cursorFile : List UInt8 :=
  "\x7b\"last_llm_key_report_cursor\": \"c9\", \"llm_key_epoch_start_block\": \"?\"\x7d".toList.map
    fun c => UInt8.ofNat c.toNat

/-- The cursor is the file's, and no window it belongs to is. -/
theorem load_keeps_cursor_only : ¬ ∀ r contents v, AllOrNothing r contents v := by
  intro h
  have hcursor : (loadMasxaiState scorelessLoader (.present (.ok cursorFile)) {}).2.lastLlmKeyReportCursor
      = PyStr.ofString "c9" := by decide +kernel
  rcases h scorelessLoader (.ok cursorFile) {} with ⟨hloaded, -⟩ | ⟨e, -, hsame⟩
  · have hreport : (loadMasxaiState scorelessLoader (.present (.ok cursorFile)) {}).1 ≠ .loaded := by
      decide +kernel
    exact hreport hloaded
  · rw [hsame] at hcursor
    cases hcursor

end TaoSubnet
