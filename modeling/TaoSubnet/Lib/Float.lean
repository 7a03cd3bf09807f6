import Mathlib.Data.Rat.Floor

/-!
# `PyFloat` — binary64 values, with exact finite arithmetic

A float that reaches a program from outside may be a NaN or an infinity, and the comparisons a
program makes on it decide what happens next. So the four kinds are kept apart here and compared
as IEEE 754 compares them. A *finite* value is a rational: sums and products of finite values are
exact, which is the reading under which bounds and order are stated.

The range of a double is not idealised. Reading a literal rounds to the nearest double
(`PyFloat.ofRat`), and an integer that meets a float must fit a double (`fitsDouble`); beyond it
the conversion raises.
-/

namespace Py

/-- A double: finite, infinite of either sign, or not a number. -/
inductive PyFloat
  | fin (q : ℚ)
  | inf
  | ninf
  | nan
  deriving DecidableEq, Repr, Inhabited

namespace PyFloat

/-- `math.isnan`. -/
def isNaN : PyFloat → Bool
  | .nan => true
  | _ => false

/-- `math.isinf`. -/
def isInf : PyFloat → Bool
  | .inf => true
  | .ninf => true
  | _ => false

/-- `a < b`: false as soon as a NaN is on either side. -/
def lt : PyFloat → PyFloat → Bool
  | .nan, _ => false
  | _, .nan => false
  | .inf, _ => false
  | _, .ninf => false
  | .ninf, _ => true
  | _, .inf => true
  | .fin a, .fin b => a < b

/-- `a <= b`. -/
def le : PyFloat → PyFloat → Bool
  | .nan, _ => false
  | _, .nan => false
  | .ninf, _ => true
  | _, .inf => true
  | .inf, _ => false
  | _, .ninf => false
  | .fin a, .fin b => a ≤ b

@[simp] theorem lt_fin (a b : ℚ) : lt (.fin a) (.fin b) = decide (a < b) := rfl

@[simp] theorem le_fin (a b : ℚ) : le (.fin a) (.fin b) = decide (a ≤ b) := rfl

@[simp] theorem lt_nan (x : PyFloat) : lt x .nan = false := by cases x <;> rfl

/-! ## Arithmetic -/

def neg : PyFloat → PyFloat
  | .fin q => .fin (-q)
  | .inf => .ninf
  | .ninf => .inf
  | .nan => .nan

/-- `a + b`. -/
def add : PyFloat → PyFloat → PyFloat
  | .fin a, .fin b => .fin (a + b)
  | .nan, _ => .nan
  | _, .nan => .nan
  | .inf, .ninf => .nan
  | .ninf, .inf => .nan
  | .inf, _ => .inf
  | .ninf, _ => .ninf
  | _, b => b

/-- `a - b`. -/
def sub (a b : PyFloat) : PyFloat := add a (neg b)

/-- An infinity of the sign of `q`, and none for zero. -/
def scaleInf (q : ℚ) : PyFloat := if 0 < q then .inf else if q < 0 then .ninf else .nan

/-- `a * b`. -/
def mul : PyFloat → PyFloat → PyFloat
  | .fin a, .fin b => .fin (a * b)
  | .nan, _ => .nan
  | _, .nan => .nan
  | .fin a, .inf => scaleInf a
  | .fin a, .ninf => scaleInf (-a)
  | .inf, .fin b => scaleInf b
  | .ninf, .fin b => scaleInf (-b)
  | .inf, .inf => .inf
  | .ninf, .ninf => .inf
  | _, _ => .ninf

/-- `a / n` for a positive `n`. -/
def divNat : PyFloat → Nat → PyFloat
  | .fin q, n => .fin (q / n)
  | x, _ => x

/-- The nearest integer, a tie going to the even one. -/
def roundEven (q : ℚ) : Int :=
  let f := ⌊q⌋
  let r := q - f
  if r < 1 / 2 then f
  else if 1 / 2 < r then f + 1
  else if f % 2 = 0 then f
  else f + 1

/-- The nearest integer is the floor, or the one after it. -/
theorem roundEven_bounds (q : ℚ) : ⌊q⌋ ≤ roundEven q ∧ roundEven q ≤ ⌊q⌋ + 1 := by
  unfold roundEven
  dsimp only
  split_ifs <;> omega

/-- Rounding keeps the order. -/
theorem roundEven_mono {q r : ℚ} (h : q ≤ r) : roundEven q ≤ roundEven r := by
  have hfloors : ⌊q⌋ ≤ ⌊r⌋ := Int.floor_le_floor h
  have hq := roundEven_bounds q
  have hr := roundEven_bounds r
  rcases hfloors.lt_or_eq with hlt | hsame
  · omega
  · -- Over one floor the remainders are in order, and a tie goes the same way for both.
    have hrest : q - ⌊q⌋ ≤ r - ⌊r⌋ := by
      rw [hsame]
      exact sub_le_sub_right h _
    unfold roundEven
    dsimp only
    rw [hsame] at hrest ⊢
    split_ifs <;> first | omega | linarith

@[simp] theorem roundEven_intCast (n : Int) : roundEven n = n := by
  simp [roundEven]

/-- What is rounded to zero. -/
theorem roundEven_eq_zero_iff {q : ℚ} (h : 0 ≤ q) : roundEven q = 0 ↔ q ≤ 1 / 2 := by
  have hfloor : 0 ≤ ⌊q⌋ := Int.floor_nonneg.mpr h
  have hbounds := roundEven_bounds q
  by_cases hsmall : q < 1
  · have hzero : ⌊q⌋ = 0 := Int.floor_eq_zero_iff.mpr ⟨h, hsmall⟩
    unfold roundEven
    simp only [hzero, Int.cast_zero, sub_zero]
    split_ifs with hlow hhigh hodd
    · exact iff_of_true rfl hlow.le
    · exact iff_of_false (by decide) (not_le.mpr hhigh)
    · exact iff_of_true rfl (not_lt.mp hhigh)
    · exact absurd (by decide) hodd
  · have hone : 1 ≤ ⌊q⌋ := Int.le_floor.mpr (by simpa using not_lt.mp hsmall)
    apply iff_of_false
    · omega
    · intro hhalf
      linarith [not_lt.mp hsmall]

/-- The exponent `e` with `2 ^ e ≤ q < 2 ^ (e + 1)`, for a positive `q`. -/
def exponent (q : ℚ) : Int :=
  let e : Int := (q.num.natAbs.log2 : Int) - (q.den.log2 : Int)
  if (2 : ℚ) ^ e ≤ q then e else e - 1

/-- The double nearest to `q`: 53 bits of precision down to the subnormal quantum, and an
    infinity past the largest finite double. -/
def ofRat (q : ℚ) : PyFloat :=
  if q = 0 then .fin 0
  else
    let quantum : ℚ := (2 : ℚ) ^ (max (exponent |q| - 52) (-1074))
    let a : ℚ := roundEven (|q| / quantum) * quantum
    if (2 : ℚ) ^ 1024 ≤ a then (if q < 0 then .ninf else .inf)
    else .fin (if q < 0 then -a else a)

end PyFloat

/-- An integer that `float(n)` converts: past this it rounds to `2 ^ 1024` and the conversion
    raises `OverflowError`. -/
def fitsDouble (n : Int) : Bool := n.natAbs < 2 ^ 1024 - 2 ^ 970

/-- `f"{q:.2f}"` of a finite value. -/
def fixed2 (q : ℚ) : String :=
  let n := PyFloat.roundEven (|q| * 100)
  let cents := n.natAbs % 100
  (if q < 0 then "-" else "") ++ toString (n.natAbs / 100) ++ "." ++
    (if cents < 10 then "0" else "") ++ toString cents

end Py
