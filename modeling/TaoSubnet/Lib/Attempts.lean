import TaoSubnet.Lib.Float
import TaoSubnet.Lib.Prog

/-!
# `attempts` — trying again, a bounded number of times

`for attempt in range(first, first + left)`, whose body either goes on to the next attempt or ends
the loop with a result. `attempts_cases` is the one fact a proof about such a loop needs: it ends
in the first attempt that stops, or every attempt goes on and it falls through.
-/

namespace Py

/-- What one attempt comes to. -/
inductive Attempt (β : Type)
  | again
  | stop (b : β)

variable {β : Type}

/-- How many attempts were made, and the result if one of them stopped. -/
def attempts (turn : Nat → Attempt β) : Nat → Nat → Nat × Option β
  | _, 0 => (0, none)
  | first, left + 1 =>
    match turn first with
    | .stop b => (1, some b)
    | .again => ((attempts turn (first + 1) left).1 + 1, (attempts turn (first + 1) left).2)

theorem stop_ne_again (b : β) : Attempt.stop b ≠ .again := by
  intro h
  cases h

/-- **How the loop ends.** -/
theorem attempts_cases (turn : Nat → Attempt β) (first left : Nat) :
    (∃ k b, k < left ∧ (∀ j < k, turn (first + j) = .again) ∧ turn (first + k) = .stop b ∧
      attempts turn first left = (k + 1, some b)) ∨
    ((∀ j < left, turn (first + j) = .again) ∧ attempts turn first left = (left, none)) := by
  induction left generalizing first with
  | zero => exact .inr ⟨fun j hj => absurd hj (Nat.not_lt_zero j), rfl⟩
  | succ left ih =>
    unfold attempts
    cases hturn : turn first with
    | stop b => exact .inl ⟨0, b, left.succ_pos, fun j hj => absurd hj (Nat.not_lt_zero j), hturn, rfl⟩
    | again =>
      have hshift : ∀ m, (∀ j < m, turn (first + 1 + j) = .again) →
          ∀ j < m + 1, turn (first + j) = .again := by
        intro m hm j hj
        cases j with
        | zero => exact hturn
        | succ j =>
          rw [show first + (j + 1) = first + 1 + j by omega]
          exact hm j (by omega)
      rcases ih (first + 1) with ⟨k, b, hk, hagain, hstop, hrun⟩ | ⟨hagain, hrun⟩
      · refine .inl ⟨k + 1, b, by omega, hshift k hagain, ?_, ?_⟩
        · rw [show first + (k + 1) = first + 1 + k by omega, hstop]
        · simp only [hrun]
      · refine .inr ⟨hshift left hagain, ?_⟩
        simp only [hrun]

/-- A loop whose last attempt always stops does not fall through. -/
theorem attempts_of_last (turn : Nat → Attempt β) {first left : Nat} (hpos : 0 < left)
    (hlast : turn (first + (left - 1)) ≠ .again) :
    ∃ k b, k < left ∧ (∀ j < k, turn (first + j) = .again) ∧ turn (first + k) = .stop b ∧
      attempts turn first left = (k + 1, some b) := by
  rcases attempts_cases turn first left with h | ⟨hagain, -⟩
  · exact h
  · exact absurd (hagain (left - 1) (by omega)) hlast

/-! ## Waiting in between -/

def intTooLargeForFloat : Exc := ⟨.overflowError, "int too large to convert to float"⟩

/-- `min(cap, 0.25 * (2 ** (attempt - 1)))`. The power is an integer, and has to be a float before
    it is multiplied. -/
def backoff (cap : ℚ) (attempt : Nat) : Except Exc PyFloat :=
  if fitsDouble (2 ^ (attempt - 1)) then .ok (.fin (min cap (2 ^ (attempt - 1) / 4)))
  else .error intTooLargeForFloat

theorem lt_of_two_pow_lt_sub {n m c : Nat} (h : 2 ^ n < 2 ^ m - c) : n < m :=
  (Nat.pow_lt_pow_iff_right (by decide)).mp (lt_of_lt_of_le h (Nat.sub_le _ _))

theorem two_pow_lt_sub {n m c : Nat} (h : n ≤ m) (hc : c < m) : 2 ^ n < 2 ^ (m + 1) - 2 ^ c := by
  have hle : 2 ^ n ≤ 2 ^ m := Nat.pow_le_pow_right (by decide) h
  have hlt : 2 ^ c < 2 ^ m := Nat.pow_lt_pow_right (by decide) hc
  rw [Nat.pow_succ]
  omega

theorem fitsDouble_two_pow {n : Nat} : fitsDouble (2 ^ n) = true ↔ n < 1024 := by
  unfold fitsDouble
  rw [decide_eq_true_eq, Int.natAbs_pow]
  constructor
  · intro h
    exact lt_of_two_pow_lt_sub h
  · intro h
    rw [show 1024 = 1023 + 1 from rfl]
    exact two_pow_lt_sub (Nat.le_of_lt_succ h) (by decide)

/-- Up to the 1024th attempt there is a wait; from the next one on the power is too large. -/
theorem backoff_ok_iff {cap : ℚ} {attempt : Nat} :
    (∃ delay, backoff cap attempt = .ok delay) ↔ attempt ≤ 1024 := by
  unfold backoff
  split
  · rename_i h
    rw [fitsDouble_two_pow] at h
    exact iff_of_true ⟨_, rfl⟩ (by omega)
  · rename_i h
    rw [fitsDouble_two_pow] at h
    refine iff_of_false ?_ (by omega)
    intro hok
    obtain ⟨delay, hdelay⟩ := hok
    cases hdelay

end Py
