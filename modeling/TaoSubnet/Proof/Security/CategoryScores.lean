import Mathlib.Data.List.Count
import Mathlib.Tactic.FieldSimp
import Mathlib.Tactic.Linarith
import TaoSubnet.Security.CategoryScores

/-!
# The matrix over its whole history

What a cell says is told by the values observed for it since its row was last pruned: it is one of
them at first and an average of them later. Bounds on the mean follow from bounds on the cells.
-/

namespace TaoSubnet

open Py

/-- A call on the matrix. -/
inductive ScoreOp
  | update (hotkey category : String) (value now : ℚ)
  | prune (validHotkeys : List String)
  | aggregate (hotkey : String) (categories : List String) (now : ℚ) (freshnessS : Option ℚ)
  deriving DecidableEq, Repr

namespace ScoreOp

/-- Observed values are shares. -/
def Sound : ScoreOp → Prop
  | .update _ _ value _ => 0 ≤ value ∧ value ≤ 1
  | .prune _ => True
  | .aggregate _ _ _ _ => True

def isUpdate : ScoreOp → Bool
  | .update _ _ _ _ => true
  | .prune _ => false
  | .aggregate _ _ _ _ => false

/-- What the call adds to the values observed for a cell, or that they are forgotten. -/
def observe (hotkey category : String) (seen : List ℚ) : ScoreOp → List ℚ
  | .update hk cat value _ => if hotkey = hk ∧ category = cat then seen ++ [value] else seen
  | .prune validHotkeys => if hotkey ∈ validHotkeys then seen else []
  | .aggregate _ _ _ _ => seen

end ScoreOp

/-- The values observed for a cell since its row was last pruned, in order. -/
def valuesSeen (ops : List ScoreOp) (hotkey category : String) : List ℚ :=
  ops.foldl (ScoreOp.observe hotkey category) []

namespace CategoryScores

/-- What a call makes of the matrix. An aggregation only reads it. -/
def apply (m : CategoryScores) : ScoreOp → CategoryScores
  | .update hotkey category value now => m.update hotkey category value now
  | .prune validHotkeys => m.prune validHotkeys
  | .aggregate _ _ _ _ => m

def run (m : CategoryScores) (ops : List ScoreOp) : CategoryScores := ops.foldl apply m

/-- A cell that still counts at `now`. -/
def hasFresh (m : CategoryScores) (hotkey : String) (now : ℚ) (freshnessS : Option ℚ)
    (category : String) : Bool :=
  match m.cell hotkey category with
  | none => false
  | some cell => freshnessS.all fun window => decide (now - cell.updatedAt ≤ window)

variable {m : CategoryScores} {hotkey category : String}

/-! ## One call -/

theorem cell_update (m : CategoryScores) (hotkey category : String) (value now : ℚ)
    (hk cat : String) :
    (m.update hotkey category value now).cell hk cat =
      if hk = hotkey ∧ cat = category then some (m.fold (m.cell hotkey category) value now)
      else m.cell hk cat := by
  show (((m.update hotkey category value now).cells.get? hk).getD ∅).get? cat = _
  rw [cells_update]
  by_cases hhk : hk = hotkey
  · rw [if_pos hhk, Option.getD_some, Dict.get?_insert]
    by_cases hcat : cat = category
    · rw [if_pos hcat, if_pos ⟨hhk, hcat⟩]
    · rw [if_neg hcat, if_neg (fun h => hcat h.2), hhk]
      rfl
  · rw [if_neg hhk, if_neg (fun h => hhk h.1)]
    rfl

theorem cell_prune (m : CategoryScores) (validHotkeys : List String) (hk cat : String) :
    (m.prune validHotkeys).cell hk cat = if hk ∈ validHotkeys then m.cell hk cat else none := by
  show (((m.prune validHotkeys).cells.get? hk).getD ∅).get? cat = _
  rw [cells_prune]
  by_cases hvalid : hk ∈ validHotkeys
  · rw [if_pos hvalid, if_pos hvalid]
    rfl
  · rw [if_neg hvalid, if_neg hvalid]
    rfl

@[simp] theorem alpha_apply (m : CategoryScores) (op : ScoreOp) : (m.apply op).alpha = m.alpha := by
  cases op <;> rfl

/-! ## What a cell says -/

/-- Between the smallest and the largest of `seen`. -/
def Spans (seen : List ℚ) (x : ℚ) : Prop := ∃ lo ∈ seen, ∃ hi ∈ seen, lo ≤ x ∧ x ≤ hi

theorem spans_last (seen : List ℚ) (value : ℚ) : Spans (seen ++ [value]) value :=
  have hlast : value ∈ seen ++ [value] := List.mem_append_right seen List.mem_cons_self
  ⟨value, hlast, value, hlast, le_refl value, le_refl value⟩

/-- An average of a value in the span and the newest one is in the span they have together. -/
theorem Spans.blend {seen : List ℚ} {x alpha : ℚ} (h : Spans seen x) (h₀ : 0 ≤ alpha)
    (h₁ : alpha ≤ 1) (value : ℚ) :
    Spans (seen ++ [value]) (alpha * value + (1 - alpha) * x) := by
  obtain ⟨lo, hlo, hi, hhi, hlox, hxhi⟩ := h
  have hlast : value ∈ seen ++ [value] := List.mem_append_right seen List.mem_cons_self
  have hlo' : lo ∈ seen ++ [value] := List.mem_append_left [value] hlo
  have hhi' : hi ∈ seen ++ [value] := List.mem_append_left [value] hhi
  have hrest : 0 ≤ 1 - alpha := sub_nonneg.mpr h₁
  have hlower : alpha * value + (1 - alpha) * lo ≤ alpha * value + (1 - alpha) * x :=
    add_le_add (le_refl _) (mul_le_mul_of_nonneg_left hlox hrest)
  have hupper : alpha * value + (1 - alpha) * x ≤ alpha * value + (1 - alpha) * hi :=
    add_le_add (le_refl _) (mul_le_mul_of_nonneg_left hxhi hrest)
  -- The newest value is the new bound where it lies outside the old ones.
  have hbelow : ∃ lo' ∈ seen ++ [value], lo' ≤ alpha * value + (1 - alpha) * x := by
    rcases le_total value lo with hle | hle
    · refine ⟨value, hlast, le_trans ?_ hlower⟩
      have := mul_le_mul_of_nonneg_left hle hrest
      linarith
    · refine ⟨lo, hlo', le_trans ?_ hlower⟩
      have := mul_le_mul_of_nonneg_left hle h₀
      linarith
  have habove : ∃ hi' ∈ seen ++ [value], alpha * value + (1 - alpha) * x ≤ hi' := by
    rcases le_total value hi with hle | hle
    · refine ⟨hi, hhi', le_trans hupper ?_⟩
      have := mul_le_mul_of_nonneg_left hle h₀
      linarith
    · refine ⟨value, hlast, le_trans hupper ?_⟩
      have := mul_le_mul_of_nonneg_left hle hrest
      linarith
  obtain ⟨lo', hlo', hle⟩ := hbelow
  obtain ⟨hi', hhi', hge⟩ := habove
  exact ⟨lo', hlo', hi', hhi', hle, hge⟩

/-- A cell is there exactly when something was observed, and lies within what was. -/
def Tracks (seen : List ℚ) : Option Cell → Prop
  | none => seen = []
  | some cell => Spans seen cell.score

theorem tracks_fold {seen : List ℚ} {old : Option Cell} (h₀ : 0 ≤ m.alpha) (h₁ : m.alpha ≤ 1)
    (h : Tracks seen old) (value now : ℚ) :
    Tracks (seen ++ [value]) (some (m.fold old value now)) := by
  cases old with
  | none => exact spans_last seen value
  | some cell => exact Spans.blend h h₀ h₁ value

theorem tracks_apply {seen : List ℚ} (h₀ : 0 ≤ m.alpha) (h₁ : m.alpha ≤ 1) (op : ScoreOp)
    (h : Tracks seen (m.cell hotkey category)) :
    Tracks (op.observe hotkey category seen) ((m.apply op).cell hotkey category) := by
  cases op with
  | update hk cat value now =>
    show Tracks (if hotkey = hk ∧ category = cat then seen ++ [value] else seen)
      ((m.update hk cat value now).cell hotkey category)
    rw [cell_update]
    by_cases hcell : hotkey = hk ∧ category = cat
    · rw [if_pos hcell, if_pos hcell, ← hcell.1, ← hcell.2]
      exact tracks_fold h₀ h₁ h value now
    · rw [if_neg hcell, if_neg hcell]
      exact h
  | prune validHotkeys =>
    show Tracks (if hotkey ∈ validHotkeys then seen else [])
      ((m.prune validHotkeys).cell hotkey category)
    rw [cell_prune]
    by_cases hvalid : hotkey ∈ validHotkeys
    · rw [if_pos hvalid, if_pos hvalid]
      exact h
    · rw [if_neg hvalid, if_neg hvalid]
      rfl
  | aggregate hk categories now freshnessS => exact h

theorem tracks_run (ops : List ScoreOp) :
    ∀ {m : CategoryScores} {seen : List ℚ}, 0 ≤ m.alpha → m.alpha ≤ 1 →
      Tracks seen (m.cell hotkey category) →
      Tracks (ops.foldl (ScoreOp.observe hotkey category) seen)
        ((m.run ops).cell hotkey category) := by
  induction ops with
  | nil => exact fun _ _ h => h
  | cons op rest ih =>
    intro m seen h₀ h₁ h
    apply ih
    · rw [alpha_apply]
      exact h₀
    · rw [alpha_apply]
      exact h₁
    · exact tracks_apply h₀ h₁ op h

/-- What was observed for a cell are values that were observed. -/
theorem valuesSeen_sound {ops : List ScoreOp} (h : ∀ op ∈ ops, op.Sound) :
    ∀ {seen : List ℚ}, (∀ x ∈ seen, 0 ≤ x ∧ x ≤ 1) →
      ∀ x ∈ ops.foldl (ScoreOp.observe hotkey category) seen, 0 ≤ x ∧ x ≤ 1 := by
  induction ops with
  | nil => exact fun hseen => hseen
  | cons op rest ih =>
    intro seen hseen
    apply ih fun other hother => h other (List.mem_cons_of_mem op hother)
    have hop : op.Sound := h op List.mem_cons_self
    cases op with
    | update hk cat value now =>
      show ∀ x ∈ (if hotkey = hk ∧ category = cat then seen ++ [value] else seen), 0 ≤ x ∧ x ≤ 1
      split
      · intro x hx
        rcases List.mem_append.mp hx with hold | hnew
        · exact hseen x hold
        · rw [List.mem_singleton.mp hnew]
          exact hop
      · exact hseen
    | prune validHotkeys =>
      show ∀ x ∈ (if hotkey ∈ validHotkeys then seen else []), 0 ≤ x ∧ x ≤ 1
      split
      · exact hseen
      · intro x hx
        cases hx
    | aggregate hk categories now freshnessS => exact hseen

/-! ## What the mean says -/

/-- Every cell is a share. -/
def Bounded (m : CategoryScores) : Prop :=
  ∀ hotkey category cell, m.cell hotkey category = some cell → 0 ≤ cell.score ∧ cell.score ≤ 1

theorem bounded_run {alpha : ℚ} (h₀ : 0 ≤ alpha) (h₁ : alpha ≤ 1) {ops : List ScoreOp}
    (hops : ∀ op ∈ ops, op.Sound) :
    Bounded (run { alpha := alpha } ops) := by
  intro hotkey category cell hcell
  have hspan : Tracks (valuesSeen ops hotkey category)
      ((run { alpha := alpha } ops).cell hotkey category) := tracks_run ops h₀ h₁ rfl
  rw [hcell] at hspan
  obtain ⟨lo, hlo, hi, hhi, hle, hge⟩ := hspan
  have hseen : ∀ x ∈ valuesSeen ops hotkey category, 0 ≤ x ∧ x ≤ 1 :=
    valuesSeen_sound hops (by simp)
  exact ⟨le_trans (hseen lo hlo).1 hle, le_trans hge (hseen hi hhi).2⟩

/-- A category counts for nothing or for its cell, which is then fresh. -/
theorem counted_bounds (h : Bounded m) (hotkey category : String) (now : ℚ)
    (freshnessS : Option ℚ) :
    0 ≤ m.counted hotkey now freshnessS category ∧
      m.counted hotkey now freshnessS category ≤
        if m.hasFresh hotkey now freshnessS category then 1 else 0 := by
  unfold counted hasFresh
  cases hcell : m.cell hotkey category with
  | none => exact ⟨le_refl 0, le_refl 0⟩
  | some cell =>
    have hshare := h hotkey category cell hcell
    cases freshnessS with
    | none => exact hshare
    | some window =>
      by_cases hstale : window < now - cell.updatedAt
      · have hout : decide (now - cell.updatedAt ≤ window) = false :=
          decide_eq_false (not_le.mpr hstale)
        simp only [Option.all_some, hout, if_pos hstale, Bool.false_eq_true, if_false]
        exact ⟨le_refl 0, le_refl 0⟩
      · have hin : decide (now - cell.updatedAt ≤ window) = true := decide_eq_true (not_lt.mp hstale)
        simp only [Option.all_some, hin, if_neg hstale, if_true]
        exact hshare

theorem foldl_counted (h : Bounded m) (hotkey : String) (now : ℚ) (freshnessS : Option ℚ)
    (categories : List String) :
    ∀ total : ℚ,
      total ≤ categories.foldl (fun t c => t + m.counted hotkey now freshnessS c) total ∧
        categories.foldl (fun t c => t + m.counted hotkey now freshnessS c) total ≤
          total + categories.countP (m.hasFresh hotkey now freshnessS) := by
  induction categories with
  | nil =>
    intro total
    simp
  | cons c rest ih =>
    intro total
    obtain ⟨hnonneg, hfresh⟩ := counted_bounds h hotkey c now freshnessS
    obtain ⟨hlower, hupper⟩ := ih (total + m.counted hotkey now freshnessS c)
    rw [List.foldl_cons, List.countP_cons, Nat.cast_add]
    constructor
    · linarith
    · have hcast : ((if m.hasFresh hotkey now freshnessS c = true then 1 else 0 : ℕ) : ℚ) =
          if m.hasFresh hotkey now freshnessS c then 1 else 0 := by
        split <;> simp
      rw [hcast]
      linarith

theorem aggregate_bounds (h : Bounded m) (hotkey : String) (now : ℚ) (freshnessS : Option ℚ)
    {categories : List String} (hne : categories ≠ []) :
    0 ≤ m.aggregate hotkey categories now freshnessS ∧
      m.aggregate hotkey categories now freshnessS ≤
        categories.countP (m.hasFresh hotkey now freshnessS) / categories.length := by
  have hpos : (0 : ℚ) < categories.length := Nat.cast_pos.mpr (List.length_pos_of_ne_nil hne)
  have hsome : ¬ categories.isEmpty = true := fun hempty => hne (List.isEmpty_iff.mp hempty)
  obtain ⟨hlower, hupper⟩ := foldl_counted h hotkey now freshnessS categories 0
  unfold aggregate
  rw [if_neg hsome]
  constructor
  · exact div_nonneg hlower (le_of_lt hpos)
  · rw [zero_add] at hupper
    exact div_le_div_of_nonneg_right hupper (le_of_lt hpos)

/-- The breadth is at most everything. -/
theorem breadth_le_one (categories : List String) (p : String → Bool) :
    (categories.countP p : ℚ) / categories.length ≤ 1 :=
  div_le_one_of_le₀ (Nat.cast_le.mpr List.countP_le_length) (Nat.cast_nonneg _)

/-! ## As time passes -/

/-- A call that observes nothing keeps each cell or drops it. -/
theorem cell_apply_quiet {op : ScoreOp} (h : op.isUpdate = false) (m : CategoryScores)
    (hotkey category : String) :
    (m.apply op).cell hotkey category = m.cell hotkey category ∨
      (m.apply op).cell hotkey category = none := by
  cases op with
  | update hk cat value now => cases h
  | prune validHotkeys =>
    show (m.prune validHotkeys).cell hotkey category = _ ∨
      (m.prune validHotkeys).cell hotkey category = none
    rw [cell_prune]
    split
    · exact .inl rfl
    · exact .inr rfl
  | aggregate hk categories now freshnessS => exact .inl rfl

theorem cell_run_quiet {ops : List ScoreOp} (h : ∀ op ∈ ops, op.isUpdate = false) :
    ∀ m : CategoryScores, (m.run ops).cell hotkey category = m.cell hotkey category ∨
      (m.run ops).cell hotkey category = none := by
  induction ops with
  | nil => exact fun m => .inl rfl
  | cons op rest ih =>
    intro m
    have hrest := ih (fun other hother => h other (List.mem_cons_of_mem op hother)) (m.apply op)
    rcases hrest with hkept | hgone
    · rcases cell_apply_quiet (h op List.mem_cons_self) m hotkey category with hkept' | hgone'
      · exact .inl (hkept.trans hkept')
      · exact .inr (hkept.trans hgone')
    · exact .inr hgone

/-- A share that goes stale, or is dropped, counts for less. -/
theorem counted_antitone {m' : CategoryScores} {now now' : ℚ} {freshnessS : Option ℚ}
    (h : Bounded m) (hnow : now ≤ now')
    (hcell : m'.cell hotkey category = m.cell hotkey category ∨ m'.cell hotkey category = none) :
    m'.counted hotkey now' freshnessS category ≤ m.counted hotkey now freshnessS category := by
  have hnonneg := (counted_bounds h hotkey category now freshnessS).1
  rcases hcell with hkept | hgone
  · unfold counted at hnonneg ⊢
    rw [hkept]
    cases hc : m.cell hotkey category with
    | none => exact le_refl 0
    | some cell =>
      cases freshnessS with
      | none => exact le_refl cell.score
      | some window =>
        dsimp only
        rw [hc] at hnonneg
        by_cases hstale : window < now' - cell.updatedAt
        · rw [if_pos hstale]
          exact hnonneg
        · -- What is fresh later was fresh before.
          have hfresh : ¬ window < now - cell.updatedAt := by linarith
          rw [if_neg hstale, if_neg hfresh]
  · have hzero : m'.counted hotkey now' freshnessS category = 0 := by
      unfold counted
      rw [hgone]
    rw [hzero]
    exact hnonneg

end CategoryScores

open CategoryScores

end TaoSubnet
