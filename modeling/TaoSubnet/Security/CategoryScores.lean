import Mathlib.Algebra.Order.Field.Rat
import TaoSubnet.Lib.Dict

/-!
# A miner's capability, category by category

`secqurityVali/category_scores.py`. Scores are exact rationals; reading and writing the file is left
out.
-/

namespace TaoSubnet

open Py

structure Cell where
  score : ℚ
  updatedAt : ℚ
  deriving DecidableEq, Repr

/-- `alpha` is the weight of the newest observation; the cells are by hotkey, then by category. -/
structure CategoryScores where
  alpha : ℚ := 1 / 2
  cells : Dict String (Dict String Cell) := ∅
  deriving DecidableEq

namespace CategoryScores

/-- The cell of a hotkey in a category, if it was ever observed there. -/
def cell (m : CategoryScores) (hotkey category : String) : Option Cell :=
  ((m.cells.get? hotkey).getD ∅).get? category

/-- What an observation makes of a cell. -/
def fold (m : CategoryScores) (old : Option Cell) (value now : ℚ) : Cell :=
  match old with
  | none => ⟨value, now⟩
  | some cell => ⟨m.alpha * value + (1 - m.alpha) * cell.score, now⟩

/-- `update`. -/
def update (m : CategoryScores) (hotkey category : String) (value now : ℚ) : CategoryScores :=
  let byCat := (m.cells.get? hotkey).getD ∅
  let byCat := byCat.insert category (m.fold (m.cell hotkey category) value now)
  { m with cells := m.cells.insert hotkey byCat }

def categoryScore (m : CategoryScores) (hotkey category : String) : Option ℚ :=
  (m.cell hotkey category).map Cell.score

/-- What a category adds to the aggregate: an untested one nothing, and a stale one neither. -/
def counted (m : CategoryScores) (hotkey : String) (now : ℚ) (freshnessS : Option ℚ)
    (category : String) : ℚ :=
  match m.cell hotkey category with
  | none => 0
  | some cell =>
    match freshnessS with
    | some window => if window < now - cell.updatedAt then 0 else cell.score
    | none => cell.score

/-- `aggregate`: the mean over the categories. -/
def aggregate (m : CategoryScores) (hotkey : String) (categories : List String) (now : ℚ)
    (freshnessS : Option ℚ) : ℚ :=
  if categories.isEmpty then 0
  else categories.foldl (fun total category => total + m.counted hotkey now freshnessS category) 0 /
    categories.length

/-- `prune`. -/
def prune (m : CategoryScores) (validHotkeys : List String) : CategoryScores :=
  { m with cells := (m.cells.keys.filter (!validHotkeys.contains ·)).foldl Dict.erase m.cells }

/-! ## The mean -/

theorem counted_stale {m : CategoryScores} {hotkey category : String} {now window : ℚ}
    (h : ∀ cell, m.cell hotkey category = some cell → window < now - cell.updatedAt) :
    m.counted hotkey now (some window) category = 0 := by
  unfold counted
  cases hcell : m.cell hotkey category with
  | none => rfl
  | some cell => exact if_pos (h cell hcell)

/-- The mean of what is nothing everywhere. -/
theorem aggregate_stale {m : CategoryScores} {hotkey : String} {categories : List String}
    {now window : ℚ}
    (h : ∀ category ∈ categories, ∀ cell, m.cell hotkey category = some cell →
      window < now - cell.updatedAt) :
    m.aggregate hotkey categories now (some window) = 0 := by
  have hfold : categories.foldl
      (fun total category => total + m.counted hotkey now (some window) category) 0 = 0 := by
    induction categories with
    | nil => rfl
    | cons category rest ih =>
      rw [List.foldl_cons, counted_stale (h category List.mem_cons_self), add_zero]
      exact ih fun other hother => h other (List.mem_cons_of_mem _ hother)
  unfold aggregate
  rw [hfold, zero_div, ite_self]

/-- The mean grows with what it counts. -/
theorem aggregate_mono {m m' : CategoryScores} {hotkey : String} {categories : List String}
    {now now' : ℚ} {freshnessS : Option ℚ}
    (h : ∀ category ∈ categories, m.counted hotkey now freshnessS category ≤
      m'.counted hotkey now' freshnessS category) :
    m.aggregate hotkey categories now freshnessS ≤
      m'.aggregate hotkey categories now' freshnessS := by
  have hfold : ∀ total total' : ℚ, total ≤ total' →
      categories.foldl (fun t category => t + m.counted hotkey now freshnessS category) total ≤
        categories.foldl (fun t category => t + m'.counted hotkey now' freshnessS category)
          total' := by
    induction categories with
    | nil => exact fun _ _ hle => hle
    | cons category rest ih =>
      intro total total' hle
      rw [List.foldl_cons, List.foldl_cons]
      apply ih fun other hother => h other (List.mem_cons_of_mem _ hother)
      exact add_le_add hle (h category List.mem_cons_self)
  unfold aggregate
  split
  · exact le_refl _
  · exact div_le_div_of_nonneg_right (hfold 0 0 (le_refl 0)) (Nat.cast_nonneg _)

/-! ## Whose rows change -/

@[simp] theorem cells_update (m : CategoryScores) (hotkey category : String) (value now : ℚ)
    (other : String) :
    (m.update hotkey category value now).cells.get? other =
      if other = hotkey then some (((m.cells.get? hotkey).getD ∅).insert category
        (m.fold (m.cell hotkey category) value now))
      else m.cells.get? other := by
  simp [update]

/-- The rows that stay are those of the valid hotkeys. -/
theorem cells_prune (m : CategoryScores) (validHotkeys : List String) (hotkey : String) :
    (m.prune validHotkeys).cells.get? hotkey =
      if hotkey ∈ validHotkeys then m.cells.get? hotkey else none := by
  unfold prune
  rw [Dict.get?_foldl_erase]
  by_cases hvalid : hotkey ∈ validHotkeys
  · simp [hvalid]
  · simp only [List.mem_filter, hvalid, List.contains_eq_mem, decide_false, Bool.not_false,
      and_true, if_false, ite_eq_left_iff]
    intro hkey
    rw [Dict.mem_keys_iff] at hkey
    cases hget : m.cells.get? hotkey with
    | none => rfl
    | some row => exact absurd ⟨row, hget⟩ hkey

end CategoryScores

end TaoSubnet
