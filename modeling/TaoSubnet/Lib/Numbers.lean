import TaoSubnet.Lib.Json

/-!
# `float` of a text or of a JSON value, and text files

`float(s)` reads decimal digits of any script, an underscore between two of them, a point, an exponent
and the three names, in any case; what is read is rounded once. A file opened in text mode is UTF-8
without surrogates.
-/

namespace Py

namespace PyStr

/-- A sign, and the rest. -/
def splitSign : PyStr → Bool × PyStr
  | 43 :: rest => (false, rest)
  | 45 :: rest => (true, rest)
  | other => (false, other)

/-- The digits on one side of a point, where there may be none. -/
def sideDigits (u : Unicode) (s : PyStr) : Option (List Nat) :=
  if s.isEmpty then some [] else intDigits u s

/-- The exponent after its mark. -/
def exponentOf (u : Unicode) (s : PyStr) : Option Int :=
  let (negative, body) := splitSign s
  (intDigits u body).map fun digits =>
    let n : Int := ofDigits digits
    if negative then -n else n

/-- An unsigned decimal literal. -/
def decimalOf (u : Unicode) (s : PyStr) : Option ℚ :=
  let isMark (c : Nat) : Bool := c == 101 || c == 69
  let mantissa := s.takeWhile fun c => !isMark c
  let whole := mantissa.takeWhile (· ≠ 46)
  match sideDigits u whole, sideDigits u ((mantissa.dropWhile (· ≠ 46)).drop 1) with
  | some whole, some fraction =>
    if whole.isEmpty && fraction.isEmpty then none
    else
      let exponent : Option Int := match s.dropWhile fun c => !isMark c with
        | [] => some 0
        | _ :: rest => exponentOf u rest
      exponent.map fun (e : Int) => (ofDigits (whole ++ fraction) : ℚ) * (10 : ℚ) ^ (e - fraction.length)
  | _, _ => none

/-- `float(s)`. -/
def toFloat (u : Unicode) (s : PyStr) : Except Exc PyFloat :=
  let (negative, body) := splitSign (strip s)
  let name := body.map fun c => if 65 ≤ c ∧ c ≤ 90 then c + 32 else c
  if name = ofString "inf" ∨ name = ofString "infinity" then
    .ok (if negative then .ninf else .inf)
  else if name = ofString "nan" then .ok .nan
  else match decimalOf u body with
    | some q => .ok (PyFloat.ofRat (if negative then -q else q))
    | none => .error ⟨.valueError, "could not convert string to float: " ++ repr s⟩

end PyStr

namespace Json

def typeName : Json → String
  | .null => "NoneType"
  | .bool _ => "bool"
  | .int _ => "int"
  | .float _ => "float"
  | .str _ => "str"
  | .arr _ => "list"
  | .obj _ => "dict"

/-- `value.name` of a value that has no such attribute. -/
def noAttribute (value : Json) (name : String) : Exc :=
  ⟨.attributeError, "'" ++ value.typeName ++ "' object has no attribute '" ++ name ++ "'"⟩

/-- `float(value)`. -/
def toFloat (u : Unicode) : Json → Except Exc PyFloat
  | .float x => .ok x
  | .int n =>
    if fitsDouble n then .ok (PyFloat.ofRat n)
    else .error ⟨.overflowError, "int too large to convert to float"⟩
  | .bool b => .ok (.fin (if b then 1 else 0))
  | .str s => PyStr.toFloat u s
  | value => .error ⟨.typeError,
    "float() argument must be a string or a real number, not '" ++ value.typeName ++ "'"⟩

/-- `open(path).read()`. -/
def readText (bytes : List UInt8) : Except Exc PyStr :=
  match (bytes.map UInt8.toNat).foldlM (utf8Step false) {} with
  | some s =>
    if s.left = 0 then .ok s.text.reverse else .error ⟨.unicodeDecodeError, "invalid bytes"⟩
  | none => .error ⟨.unicodeDecodeError, "invalid bytes"⟩

end Json

end Py
