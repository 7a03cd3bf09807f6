import TaoSubnet.Security.ScoreFile

/-!
# Which score files can be worked with

An operation fails on a row that is no dict and on a cell that lacks a number, and on nothing else;
what it writes it can read again. So whether anything ever fails is decided when the file is loaded.
-/

namespace TaoSubnet

open Py

namespace JsonScores

variable {u : Unicode} {m : JsonScores}

/-- Both numbers of a cell can be read. -/
def CellUsable (u : Unicode) (cell : Json) : Prop :=
  (∃ score, floatAt u cell "score" = .ok score) ∧
    ∃ updatedAt, floatAt u cell "updated_at" = .ok updatedAt

/-- A dict whose values are null or cells with both numbers. -/
def RowUsable (u : Unicode) (byCat : Dict PyStr Json) : Prop :=
  ∀ category cell, cellIn byCat category = some cell → CellUsable u cell

def MatrixUsable (u : Unicode) (cells : Dict PyStr Json) : Prop :=
  ∀ hotkey row, cells.get? hotkey = some row →
    ∃ items, row = .obj items ∧ RowUsable u (Dict.ofList items)

/-- The file cannot be read or is not JSON, as far as `load` expects that, or what it has for cells is
    usable. -/
def FileUsable (u : Unicode) (recursionLimit : Nat) (file : StateFile) : Prop :=
  match readScoreFile recursionLimit file with
  | .ok data => MatrixUsable u (cellsOf data)
  | .error e => e.cls.isOSError = true ∨ e.cls.isValueError = true

/-! ## One operation -/

theorem row_usable (h : MatrixUsable u m.cells) (hotkey : PyStr) :
    ∃ byCat, m.row hotkey = .ok byCat ∧ RowUsable u byCat := by
  unfold row
  cases hget : m.cells.get? hotkey with
  | none =>
    refine ⟨Dict.ofList [], rfl, ?_⟩
    intro category cell hcell
    cases hcell
  | some value =>
    obtain ⟨items, hvalue, husable⟩ := h hotkey value hget
    rw [hvalue]
    exact ⟨Dict.ofList items, rfl, husable⟩

/-- A cell that was written is read back. -/
theorem written_usable (u : Unicode) (new now : PyFloat) :
    CellUsable u (.obj [item "score" (.float new), item "updated_at" (.float now)]) :=
  ⟨⟨new, rfl⟩, now, rfl⟩

theorem insert_usable {byCat : Dict PyStr Json} {cell : Json} (h : RowUsable u byCat)
    (hcell : CellUsable u cell) (category : PyStr) :
    RowUsable u (byCat.insert category cell) := by
  intro other found hfound
  unfold cellIn at hfound
  rw [Dict.get?_insert] at hfound
  by_cases hother : other = category
  · rw [if_pos hother] at hfound
    split at hfound
    · cases hfound
    · cases hfound
      exact hcell
  · rw [if_neg hother] at hfound
    exact h other found hfound

theorem update_usable (h : MatrixUsable u m.cells) (hotkey category : PyStr) (value now : PyFloat) :
    ∃ m', m.update u hotkey category value now = .ok m' ∧ MatrixUsable u m'.cells := by
  obtain ⟨byCat, hrow, husable⟩ := row_usable h hotkey
  have hnew : ∃ new, m.newScore u (cellIn byCat category) value = .ok new := by
    cases hcell : cellIn byCat category with
    | none => exact ⟨value, rfl⟩
    | some cell =>
      obtain ⟨score, hscore⟩ := (husable category cell hcell).1
      exact ⟨_, ok_bind hscore rfl⟩
  obtain ⟨new, hnew⟩ := hnew
  refine ⟨_, ok_bind hrow (ok_bind hnew rfl), ?_⟩
  intro other found hfound
  rw [Dict.get?_insert] at hfound
  by_cases hother : other = hotkey
  · rw [if_pos hother] at hfound
    cases hfound
    refine ⟨_, rfl, ?_⟩
    rw [Dict.ofList_entries]
    exact insert_usable husable (written_usable u new now) category
  · rw [if_neg hother] at hfound
    exact h other found hfound

theorem categoryScore_usable (h : MatrixUsable u m.cells) (hotkey category : PyStr) :
    ∃ score, m.categoryScore u hotkey category = .ok score := by
  obtain ⟨byCat, hrow, husable⟩ := row_usable h hotkey
  unfold categoryScore
  cases hcell : cellIn byCat category with
  | none =>
    refine ⟨none, ok_bind hrow ?_⟩
    rw [hcell]
    rfl
  | some cell =>
    obtain ⟨score, hscore⟩ := (husable category cell hcell).1
    refine ⟨some score, ok_bind hrow ?_⟩
    rw [hcell]
    exact ok_bind hscore rfl

theorem addCategory_usable (h : MatrixUsable u m.cells) (hotkey : PyStr) (now : PyFloat)
    (freshnessS : Option PyFloat) (total : PyFloat) (category : PyStr) :
    ∃ total', m.addCategory u hotkey now freshnessS total category = .ok total' := by
  obtain ⟨byCat, hrow, husable⟩ := row_usable h hotkey
  unfold addCategory
  cases hcell : cellIn byCat category with
  | none =>
    refine ⟨total, ok_bind hrow ?_⟩
    rw [hcell]
    rfl
  | some cell =>
    obtain ⟨score, hscore⟩ := (husable category cell hcell).1
    obtain ⟨updatedAt, hupdated⟩ := (husable category cell hcell).2
    cases freshnessS with
    | none =>
      refine ⟨PyFloat.add total score, ok_bind hrow ?_⟩
      rw [hcell]
      exact ok_bind hscore rfl
    | some window =>
      by_cases hstale : PyFloat.lt window (PyFloat.sub now updatedAt) = true
      · refine ⟨total, ok_bind hrow ?_⟩
        rw [hcell]
        refine ok_bind hupdated ?_
        rw [if_pos hstale]
        rfl
      · refine ⟨PyFloat.add total score, ok_bind hrow ?_⟩
        rw [hcell]
        refine ok_bind hupdated ?_
        rw [if_neg hstale]
        exact ok_bind hscore rfl

theorem aggregate_usable (h : MatrixUsable u m.cells) (hotkey : PyStr) (categories : List PyStr)
    (now : PyFloat) (freshnessS : Option PyFloat) :
    ∃ total, m.aggregate u hotkey categories now freshnessS = .ok total := by
  unfold aggregate
  split
  · exact ⟨_, rfl⟩
  · have hturns : ∀ total, ∀ category ∈ categories, True →
        ∃ total', m.addCategory u hotkey now freshnessS total category = .ok total' ∧ True := by
      intro total category _ _
      obtain ⟨total', htotal'⟩ := addCategory_usable h hotkey now freshnessS total category
      exact ⟨total', htotal', trivial⟩
    obtain ⟨total, htotal, _⟩ := foldlM_keeps hturns (.fin 0) trivial
    exact ⟨_, ok_bind htotal rfl⟩

theorem recomputeTurn_usable (h : MatrixUsable u m.cells) (hotkeys categories : List PyStr)
    (now freshnessS : PyFloat) (out : Dict Nat PyFloat) (hotkey : PyStr) :
    ∃ out', m.recomputeTurn u hotkeys categories now freshnessS out hotkey = .ok out' := by
  unfold recomputeTurn
  cases (hotkeyToUid hotkeys).get? hotkey with
  | none => exact ⟨out, rfl⟩
  | some uid =>
    obtain ⟨score, hscore⟩ := aggregate_usable h hotkey categories now (some freshnessS)
    exact ⟨_, ok_bind hscore rfl⟩

theorem recomputeAllScores_usable (h : MatrixUsable u m.cells) (hotkeys categories : List PyStr)
    (now freshnessS : PyFloat) :
    ∃ out, m.recomputeAllScores u hotkeys categories now freshnessS = .ok out := by
  have hturns : ∀ out, ∀ hotkey ∈ m.cells.keys, True → ∃ out',
      m.recomputeTurn u hotkeys categories now freshnessS out hotkey = .ok out' ∧ True := by
    intro out hotkey _ _
    obtain ⟨out', hout'⟩ := recomputeTurn_usable h hotkeys categories now freshnessS out hotkey
    exact ⟨out', hout', trivial⟩
  obtain ⟨out, hout, _⟩ := foldlM_keeps hturns ∅ trivial
  exact ⟨out, hout⟩

theorem prune_usable (h : MatrixUsable u m.cells) (validHotkeys : List PyStr) :
    MatrixUsable u (m.prune validHotkeys).cells := by
  intro hotkey row hrow
  unfold prune at hrow
  rw [Dict.get?_foldl_erase] at hrow
  split at hrow
  · cases hrow
  · exact h hotkey row hrow

/-- An operation on a usable matrix goes through and leaves a usable one. -/
theorem apply_usable (h : MatrixUsable u m.cells) (op : Op) :
    ∃ m', m.apply u op = .ok m' ∧ MatrixUsable u m'.cells := by
  cases op with
  | update hotkey category value now => exact update_usable h hotkey category value now
  | categoryScore hotkey category =>
    obtain ⟨score, hscore⟩ := categoryScore_usable h hotkey category
    exact ⟨m, ok_bind hscore rfl, h⟩
  | aggregate hotkey categories now freshnessS =>
    obtain ⟨total, htotal⟩ := aggregate_usable h hotkey categories now freshnessS
    exact ⟨m, ok_bind htotal rfl, h⟩
  | prune validHotkeys => exact ⟨_, rfl, prune_usable h validHotkeys⟩
  | recomputeAllScores hotkeys categories now freshnessS =>
    obtain ⟨out, hout⟩ := recomputeAllScores_usable h hotkeys categories now freshnessS
    exact ⟨m, ok_bind hout rfl, h⟩

/-! ## All later operations -/

/-- Every sequence of operations goes through. -/
def Completes (u : Unicode) (m : JsonScores) : Prop := ∀ ops, ∃ m', m.run u ops = .ok m'

theorem completes_of_usable (h : MatrixUsable u m.cells) : Completes u m := by
  intro ops
  have hturns : ∀ m : JsonScores, ∀ op ∈ ops, MatrixUsable u m.cells →
      ∃ m', m.apply u op = .ok m' ∧ MatrixUsable u m'.cells :=
    fun m op _ hm => apply_usable hm op
  obtain ⟨m', hrun, _⟩ := foldlM_keeps hturns m h
  exact ⟨m', hrun⟩

theorem run_single (m : JsonScores) (op : Op) : m.run u [op] = m.apply u op := by
  unfold run
  rw [List.foldlM_cons]
  cases m.apply u op with
  | error e => rfl
  | ok m' => rfl

theorem itemsOf_ok {name : String} {value : Json} {items : Items}
    (h : itemsOf name value = .ok items) : value = .obj items := by
  cases value with
  | obj items' =>
    cases h
    rfl
  | null => cases h
  | bool b => cases h
  | int n => cases h
  | float x => cases h
  | str s => cases h
  | arr values => cases h

/-- Reading a category tells whether its row is a dict and its cell has a score; aggregating it with
    a window, whether the cell has a time. -/
theorem usable_of_completes (h : Completes u m) : MatrixUsable u m.cells := by
  have hread : ∀ hotkey category, ∃ score, m.categoryScore u hotkey category = .ok score := by
    intro hotkey category
    obtain ⟨m', hrun⟩ := h [.categoryScore hotkey category]
    rw [run_single] at hrun
    obtain ⟨score, hscore, _⟩ := except_bind_ok hrun
    exact ⟨score, hscore⟩
  have haged : ∀ hotkey category, ∃ total,
      m.aggregate u hotkey [category] (.fin 0) (some (.fin 0)) = .ok total := by
    intro hotkey category
    obtain ⟨m', hrun⟩ := h [.aggregate hotkey [category] (.fin 0) (some (.fin 0))]
    rw [run_single] at hrun
    obtain ⟨total, htotal, _⟩ := except_bind_ok hrun
    exact ⟨total, htotal⟩
  intro hotkey value hvalue
  have hrow : m.row hotkey = itemsOf "get" value >>= fun items => pure (Dict.ofList items) := by
    unfold row
    rw [hvalue]
    rfl
  have hitems : ∃ items, value = .obj items := by
    obtain ⟨score, hscore⟩ := hread hotkey []
    obtain ⟨byCat, hbyCat, _⟩ := except_bind_ok hscore
    rw [hrow] at hbyCat
    obtain ⟨items, hitems, _⟩ := except_bind_ok hbyCat
    exact ⟨items, itemsOf_ok hitems⟩
  obtain ⟨items, hitems⟩ := hitems
  rw [hitems] at hrow
  refine ⟨items, hitems, ?_⟩
  intro category cell hcell
  constructor
  · obtain ⟨score, hscore⟩ := hread hotkey category
    unfold categoryScore at hscore
    rw [hrow] at hscore
    obtain ⟨byCat, hbyCat, hscore⟩ := except_bind_ok hscore
    cases hbyCat
    rw [hcell] at hscore
    obtain ⟨x, hx, _⟩ := except_bind_ok hscore
    exact ⟨x, hx⟩
  · obtain ⟨total, htotal⟩ := haged hotkey category
    obtain ⟨sum, hsum, _⟩ := except_bind_ok htotal
    obtain ⟨sum', hsum', _⟩ := except_bind_ok hsum
    unfold addCategory at hsum'
    rw [hrow] at hsum'
    obtain ⟨byCat, hbyCat, hsum'⟩ := except_bind_ok hsum'
    cases hbyCat
    rw [hcell] at hsum'
    obtain ⟨x, hx, _⟩ := except_bind_ok hsum'
    exact ⟨x, hx⟩

/-- **What `load` returns can be worked with exactly when** the file cannot be read or is not JSON (and
    is not too deep to tell), or each of its rows is a dict of nulls and of cells with a score and a
    time that `float` takes. -/
theorem load_completes_iff (u : Unicode) (recursionLimit : Nat) (file : StateFile) (alpha : PyFloat) :
    (∃ m, load recursionLimit file alpha = .ok m ∧ Completes u m) ↔
      FileUsable u recursionLimit file := by
  unfold load FileUsable
  cases hread : readScoreFile recursionLimit file with
  | ok data =>
    constructor
    · intro h
      obtain ⟨m, hload, hcompletes⟩ := h
      cases hload
      exact usable_of_completes hcompletes
    · intro h
      exact ⟨_, rfl, completes_of_usable h⟩
  | error e =>
    dsimp only
    by_cases hcaught : e.cls.isOSError = true ∨ e.cls.isValueError = true
    · rw [if_pos hcaught]
      refine iff_of_true ⟨_, rfl, completes_of_usable ?_⟩ hcaught
      intro hotkey row hrow
      cases hrow
    · rw [if_neg hcaught]
      refine iff_of_false ?_ hcaught
      intro h
      obtain ⟨m, hload, _⟩ := h
      cases hload

/-- `{"cells": {"hk": []}}`. -/
def listRow : List UInt8 :=
  "\x7b\"cells\": \x7b\"hk\": []\x7d\x7d".toList.map fun c => UInt8.ofNat c.toNat

/-- The miner's row is a list, and the end of every round raises. -/
theorem list_row_stops_rounds : ¬ ∀ (u : Unicode) (recursionLimit : Nat) (file : StateFile)
    (alpha : PyFloat), ∃ m, load recursionLimit file alpha = .ok m ∧ Completes u m := by
  intro h
  obtain ⟨m, hload, hcompletes⟩ := h Unicode.latin1 1000 (.present (.ok listRow)) (.fin (1 / 2))
  have hcells : (load 1000 (.present (.ok listRow)) (.fin (1 / 2))).toOption.all (fun m =>
      (m.run Unicode.latin1 [.recomputeAllScores [PyStr.ofString "hk"] [PyStr.ofString "sqli"]
        (.fin 0) (.fin 0)]).toOption.isNone) = true := by decide +kernel
  rw [hload] at hcells
  obtain ⟨m', hrun⟩ := hcompletes [.recomputeAllScores [PyStr.ofString "hk"] [PyStr.ofString "sqli"]
    (.fin 0) (.fin 0)]
  have hnone : (m.run Unicode.latin1 [.recomputeAllScores [PyStr.ofString "hk"]
      [PyStr.ofString "sqli"] (.fin 0) (.fin 0)]).toOption.isNone = true := hcells
  rw [hrun] at hnone
  cases hnone

end JsonScores

end TaoSubnet
