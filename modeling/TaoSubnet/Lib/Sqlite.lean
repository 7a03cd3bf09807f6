import TaoSubnet.Lib.Dumps

/-!
# What an SQLite cell makes of a value

`sqlite3`, as far as one parameter of a statement goes: the value is bound, the column's affinity may
change what was bound, and a later read gives back a Python value. An integer has 64 bits, a truth
value becomes a number, and a column of text turns numbers into text.
-/

namespace Py

/-- What a cell holds. -/
inductive SqlValue
  | null
  | integer (n : Int)
  | real (x : PyFloat)
  | text (s : PyStr)

/-- What executing a statement may raise. -/
inductive SqlError
  /-- `OverflowError`: the integer does not have 64 bits. -/
  | overflow
  /-- `UnicodeEncodeError`: the text has no UTF-8. -/
  | encode
  /-- `sqlite3.ProgrammingError`: the type cannot be bound. -/
  | unsupported
  /-- `sqlite3.IntegrityError`: a constraint of the table fails. -/
  | integrity
  deriving DecidableEq

/-- A text without surrogates. -/
def storable (s : PyStr) : Bool := s.all fun c => c < 0xD800 || (0xDFFF < c && c < 0x110000)

def fitsInt64 (n : Int) : Bool := -2 ^ 63 ≤ n && n < 2 ^ 63

/-- Binding a parameter. A NaN is bound as a null. -/
def bindValue : Json → Except SqlError SqlValue
  | .null => .ok .null
  | .bool b => .ok (.integer (if b then 1 else 0))
  | .int n => if fitsInt64 n then .ok (.integer n) else .error .overflow
  | .float .nan => .ok .null
  | .float x => .ok (.real x)
  | .str s => if storable s then .ok (.text s) else .error .encode
  | .arr _ => .error .unsupported
  | .obj _ => .error .unsupported

inductive Affinity
  | text
  | integer

namespace SqlValue

/-- What a column of the affinity keeps; `realText` is how a real is written. A column of integers is
    taken to be given nothing that it would change. -/
def store (realText : PyFloat → PyStr) : Affinity → SqlValue → SqlValue
  | .text, .integer n => .text (intDigitsText n)
  | .text, .real x => .text (realText x)
  | _, value => value

/-- Reading a cell. -/
def toPy : SqlValue → Json
  | .null => .null
  | .integer n => .int n
  | .real x => .float x
  | .text s => .str s

end SqlValue

/-- A value that a column of the affinity gives back as it is. -/
def Affinity.Keeps : Affinity → Json → Prop
  | _, .null => True
  | .text, .str s => storable s = true
  | .integer, .int n => fitsInt64 n = true
  | _, _ => False

section Cells

theorem cell_of_kept {affinity : Affinity} {value : Json} (realText : PyFloat → PyStr)
    (h : affinity.Keeps value) :
    ∃ bound, bindValue value = .ok bound ∧ (bound.store realText affinity).toPy = value := by
  cases value with
  | null =>
    refine ⟨.null, rfl, ?_⟩
    cases affinity with
    | text => rfl
    | integer => rfl
  | str s =>
    cases affinity with
    | text =>
      have hstorable : storable s = true := h
      exact ⟨.text s, by rw [bindValue, if_pos hstorable], rfl⟩
    | integer => cases h
  | int n =>
    cases affinity with
    | text => cases h
    | integer =>
      have hfits : fitsInt64 n = true := h
      exact ⟨.integer n, by rw [bindValue, if_pos hfits], rfl⟩
  | bool b => cases affinity <;> cases h
  | float x => cases affinity <;> cases h
  | arr items => cases affinity <;> cases h
  | obj items => cases affinity <;> cases h

variable {realText : PyFloat → PyStr}

/-- A column of text gives back nulls and texts only. -/
theorem kept_of_text {value : Json} {bound : SqlValue} (hbind : bindValue value = .ok bound)
    (h : (bound.store realText .text).toPy = value) : Affinity.Keeps .text value := by
  cases value with
  | null => trivial
  | str s =>
    rw [bindValue] at hbind
    split at hbind
    · assumption
    · cases hbind
  | int n =>
    rw [bindValue] at hbind
    split at hbind
    · cases hbind
      cases h
    · cases hbind
  | bool b =>
    cases hbind
    cases h
  | float x =>
    cases x with
    | nan =>
      cases hbind
      cases h
    | fin q =>
      cases hbind
      cases h
    | inf =>
      cases hbind
      cases h
    | ninf =>
      cases hbind
      cases h
  | arr items => cases hbind
  | obj items => cases hbind

theorem fitsInt64_of_bind {n : Int} {bound : SqlValue} (h : bindValue (.int n) = .ok bound) :
    fitsInt64 n = true := by
  rw [bindValue] at h
  split at h
  · assumption
  · cases h

end Cells

end Py
