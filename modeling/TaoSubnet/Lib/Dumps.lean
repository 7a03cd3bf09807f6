import Mathlib.Data.Nat.Digits.Defs
import TaoSubnet.Lib.Json

/-!
# `json.dumps`

The writer that goes with the decoder of `TaoSubnet.Lib.Json`: ASCII only, one blank after each comma
and colon. What a float looks like is a parameter, `floatText`. An integer of more than 4300 digits
cannot be written.
-/

namespace Py

/-- An integer with more digits than a conversion may have. -/
def tooLong (n : Int) : Bool := 10 ^ PyStr.maxIntDigits ≤ n.natAbs

def intUnwritable : Exc :=
  ⟨.valueError, "Exceeds the limit (4300 digits) for integer string conversion; " ++
    "use sys.set_int_max_str_digits() to increase the limit"⟩

def natText (n : Nat) : PyStr := (Nat.toDigits 10 n).map Char.toNat

/-- The digits of an integer, after its sign. -/
def intDigitsText (n : Int) : PyStr := if n < 0 then 45 :: natText n.natAbs else natText n.natAbs

/-- `str(n)`. -/
def intText (n : Int) : Except Exc PyStr :=
  if tooLong n then .error intUnwritable else .ok (intDigitsText n)

namespace Json

def hexDigit (n : Nat) : Nat := if n < 10 then 48 + n else 87 + n

/-- `\uXXXX`. -/
def unitText (n : Nat) : PyStr :=
  [92, 117, hexDigit (n / 4096 % 16), hexDigit (n / 256 % 16), hexDigit (n / 16 % 16),
    hexDigit (n % 16)]

/-- One character of a string. -/
def charText (n : Nat) : PyStr :=
  if n = 34 then [92, 34]
  else if n = 92 then [92, 92]
  else if n = 10 then [92, 110]
  else if n = 13 then [92, 114]
  else if n = 9 then [92, 116]
  else if n = 12 then [92, 102]
  else if n = 8 then [92, 98]
  else if 32 ≤ n ∧ n ≤ 126 then [n]
  else if n < 0x10000 then unitText n
  else unitText (0xD800 + (n - 0x10000) / 1024) ++ unitText (0xDC00 + (n - 0x10000) % 1024)

def strText (s : PyStr) : PyStr := 34 :: s.flatMap charText ++ [34]

mutual

/-- `json.dumps(value)`. -/
def dumps (floatText : PyFloat → PyStr) : Json → Except Exc PyStr
  | .null => .ok (PyStr.ofString "null")
  | .bool true => .ok (PyStr.ofString "true")
  | .bool false => .ok (PyStr.ofString "false")
  | .int n => intText n
  | .float x => .ok (floatText x)
  | .str s => .ok (strText s)
  | .arr items => do return 91 :: (← dumpsItems floatText items) ++ [93]
  | .obj items => do return 123 :: (← dumpsFields floatText items) ++ [125]

def dumpsItems (floatText : PyFloat → PyStr) : List Json → Except Exc PyStr
  | [] => .ok []
  | x :: rest => do
    let text ← dumps floatText x
    match rest with
    | [] => return text
    | _ => return text ++ 44 :: 32 :: (← dumpsItems floatText rest)

def dumpsFields (floatText : PyFloat → PyStr) : List (PyStr × Json) → Except Exc PyStr
  | [] => .ok []
  | (key, x) :: rest => do
    let text ← dumps floatText x
    let field := strText key ++ 58 :: 32 :: text
    match rest with
    | [] => return field
    | _ => return field ++ 44 :: 32 :: (← dumpsFields floatText rest)

end

end Json

/-! ## Reading an integer back -/

theorem ofString_injective : Function.Injective PyStr.ofString := by
  intro s t h
  have hchars : s.toList = t.toList := by
    refine List.map_injective_iff.mpr ?_ h
    intro c d hcd
    exact Char.toNat_inj.mp hcd
  exact String.toList_inj.mp hchars

theorem toNat_of_digit {c : Char} (h : c.isDigit = true) : 48 ≤ c.toNat ∧ c.toNat ≤ 57 := by
  simp only [Char.isDigit, Bool.and_eq_true, decide_eq_true_eq] at h
  exact h

/-- A character database that knows the ASCII digits. -/
def KnowsDigits (u : Unicode) : Prop := ∀ d < 10, u.decimal (48 + d) = some d

/-- The value of each digit character. -/
def digitValues (digits : List Char) : List Nat := digits.map fun c => c.toNat - 48

theorem intDigits_text {u : Unicode} (hu : KnowsDigits u) {digits : List Char} (hne : digits ≠ [])
    (h : ∀ c ∈ digits, c.isDigit = true) :
    PyStr.intDigits u (digits.map Char.toNat) = some (digitValues digits) := by
  induction digits with
  | nil => exact absurd rfl hne
  | cons c rest ih =>
    have hc := toNat_of_digit (h c List.mem_cons_self)
    have hdecimal : u.decimal c.toNat = some (c.toNat - 48) := by
      have hvalue := hu (c.toNat - 48) (by omega)
      rwa [Nat.add_sub_cancel' hc.1] at hvalue
    cases rest with
    | nil => simp [PyStr.intDigits, digitValues, hdecimal]
    | cons d rest =>
      have hd := toNat_of_digit (h d (by simp))
      have hrest := ih (by simp) fun x hx => h x (List.mem_cons_of_mem c hx)
      have hunderscore : d.toNat ≠ 95 := by omega
      simp only [List.map_cons] at hrest ⊢
      simp [PyStr.intDigits, hdecimal, hunderscore, hrest, digitValues]

theorem ofDigits_digitValues (digits : List Char) (n : Nat) :
    (digitValues digits).foldl (fun n d => 10 * n + d) n = Nat.ofDigitChars 10 digits n := by
  induction digits generalizing n with
  | nil => simp [digitValues]
  | cons c rest ih =>
    rw [Nat.ofDigitChars_cons, ← ih]
    rfl

theorem isDigit_natText {n : Nat} {c : Char} (h : c ∈ Nat.toDigits 10 n) : c.isDigit = true :=
  Nat.isDigit_of_mem_toDigits (by decide) (by decide) h

/-- The digits of a number are read back as it. -/
theorem intDigits_natText {u : Unicode} (hu : KnowsDigits u) (n : Nat) :
    ∃ digits, PyStr.intDigits u (natText n) = some digits ∧ PyStr.ofDigits digits = n ∧
      digits.length = (Nat.toDigits 10 n).length := by
  refine ⟨digitValues (Nat.toDigits 10 n), ?_, ?_, ?_⟩
  · exact intDigits_text hu Nat.toDigits_ne_nil fun c hc => isDigit_natText hc
  · unfold PyStr.ofDigits
    rw [ofDigits_digitValues, Nat.ofDigitChars_ten_toDigits]
  · exact List.length_map ..

theorem length_digits_le {n : Int} (h : tooLong n = false) :
    (Nat.toDigits 10 n.natAbs).length ≤ PyStr.maxIntDigits := by
  refine Nat.toDigits_length 10 _ _ (by decide) ?_
  unfold tooLong at h
  rw [decide_eq_false_iff_not, not_le] at h
  exact h

/-- A character of a number is neither blank nor a sign. -/
theorem natText_range {n c : Nat} (h : c ∈ natText n) : 48 ≤ c ∧ c ≤ 57 := by
  obtain ⟨d, hd, rfl⟩ := List.mem_map.mp h
  exact toNat_of_digit (isDigit_natText hd)

theorem isSpaceCode_of_range {c : Nat} (h : 45 ≤ c ∧ c ≤ 57) : isSpaceCode c = false := by
  simp only [isSpaceCode, Bool.or_eq_false_iff, Bool.and_eq_false_iff, decide_eq_false_iff_not,
    beq_eq_false_iff_ne]
  omega

theorem strip_intDigitsText (n : Int) : PyStr.strip (intDigitsText n) = intDigitsText n := by
  apply PyStr.strip_of_no_space
  intro c hc
  apply isSpaceCode_of_range
  unfold intDigitsText at hc
  split at hc
  · rcases List.mem_cons.mp hc with rfl | hdigit
    · decide
    · have hrange := natText_range hdigit
      omega
  · have hrange := natText_range hc
    omega

/-- A number that begins with a digit has no sign to be split off. -/
theorem toInt_unsigned {u : Unicode} {text : PyStr} {digits : List Nat}
    (hstrip : PyStr.strip text = text) (hrange : ∀ c ∈ text, 48 ≤ c ∧ c ≤ 57)
    (hdigits : PyStr.intDigits u text = some digits)
    (hshort : ¬ PyStr.maxIntDigits < digits.length) :
    PyStr.toInt u text = .ok (PyStr.ofDigits digits) := by
  unfold PyStr.toInt
  rw [hstrip]
  split
  rename_i negative body hsplit
  split at hsplit
  · have hplus := hrange 43 List.mem_cons_self
    omega
  · have hminus := hrange 45 List.mem_cons_self
    omega
  · cases hsplit
    simp only [hdigits, if_neg hshort]
    rfl

theorem toInt_negative {u : Unicode} {text : PyStr} {digits : List Nat}
    (hstrip : PyStr.strip (45 :: text) = 45 :: text)
    (hdigits : PyStr.intDigits u text = some digits)
    (hshort : ¬ PyStr.maxIntDigits < digits.length) :
    PyStr.toInt u (45 :: text) = .ok (-(PyStr.ofDigits digits : Int)) := by
  unfold PyStr.toInt
  rw [hstrip]
  simp only [hdigits, if_neg hshort]
  rfl

/-- **`int(str(n))`** is `n`, for every integer that `str` writes. -/
theorem toInt_intText {u : Unicode} (hu : KnowsDigits u) {n : Int} {text : PyStr}
    (h : intText n = .ok text) : PyStr.toInt u text = .ok n := by
  unfold intText at h
  cases hlong : tooLong n with
  | true =>
    rw [hlong] at h
    cases h
  | false =>
    rw [hlong] at h
    cases h
    obtain ⟨digits, hdigits, hvalue, hlength⟩ := intDigits_natText hu n.natAbs
    have hshort : ¬ PyStr.maxIntDigits < digits.length := by
      rw [hlength]
      exact not_lt.mpr (length_digits_le hlong)
    have hstrip := strip_intDigitsText n
    clear hlong
    unfold intDigitsText at hstrip ⊢
    by_cases hneg : n < 0
    · rw [if_pos hneg] at hstrip ⊢
      rw [toInt_negative hstrip hdigits hshort, hvalue, Int.ofNat_natAbs_of_nonpos hneg.le, neg_neg]
    · rw [if_neg hneg] at hstrip ⊢
      rw [toInt_unsigned hstrip (fun c hc => natText_range hc) hdigits hshort, hvalue,
        Int.natAbs_of_nonneg (not_lt.mp hneg)]

end Py
