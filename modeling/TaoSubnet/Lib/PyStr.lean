import Mathlib.Data.List.DropRight
import TaoSubnet.Lib.Prog
import TaoSubnet.Lib.Text

/-!
# `PyStr` — strings as code points, and what Unicode says about them

A string that was decoded from JSON may hold a lone surrogate, which a `Char` cannot be. So text
of that origin is a list of code points. What depends on the character database — which
characters are word characters, which are digits, what upper and lower case are — is a parameter,
`Unicode`: a program is modelled for every database, and run on `Unicode.latin1`, which is the real
one below U+0100.
-/

namespace Py

/-- A string of code points, surrogates included. -/
abbrev PyStr := List Nat

-- by name: a membership test between texts then decides by one and the same instance everywhere
instance PyStr.lawfulBEq : LawfulBEq PyStr := inferInstance

def PyStr.ofString (s : String) : PyStr := s.toList.map Char.toNat

/-- The character database. -/
structure Unicode where
  /-- `\w` of a text pattern. -/
  isWord : Nat → Bool
  /-- `str.isdigit` of one character: the decimal digits, and digits like the superscripts. -/
  isDigit : Nat → Bool
  /-- The value of a decimal digit, the only digits `int` and `\d` know. -/
  decimal : Nat → Option Nat
  upper : PyStr → PyStr
  lower : PyStr → PyStr

namespace Unicode

/-- The database below U+0100; above it, nothing has a class or a case. -/
def latin1 : Unicode where
  isWord n := (48 ≤ n && n ≤ 57) || (65 ≤ n && n ≤ 90) || n == 95 || (97 ≤ n && n ≤ 122) ||
    n == 0xAA || n == 0xB2 || n == 0xB3 || n == 0xB5 || n == 0xB9 || n == 0xBA ||
    (0xBC ≤ n && n ≤ 0xBE) || (0xC0 ≤ n && n ≤ 0xFF && n != 0xD7 && n != 0xF7)
  isDigit n := (48 ≤ n && n ≤ 57) || n == 0xB2 || n == 0xB3 || n == 0xB9
  decimal n := if 48 ≤ n ∧ n ≤ 57 then some (n - 48) else none
  upper s := s.flatMap fun n =>
    if 97 ≤ n ∧ n ≤ 122 then [n - 32]
    else if n = 0xB5 then [0x39C]
    else if n = 0xDF then [83, 83]
    else if 0xE0 ≤ n ∧ n ≤ 0xFE ∧ n ≠ 0xF7 then [n - 32]
    else if n = 0xFF then [0x178]
    else [n]
  lower s := s.map fun n =>
    if 65 ≤ n ∧ n ≤ 90 then n + 32
    else if 0xC0 ≤ n ∧ n ≤ 0xDE ∧ n ≠ 0xD7 then n + 32
    else n

end Unicode

/-- The UTF-8 bytes of a code point; a surrogate has none. -/
def utf8Bytes (n : Nat) : Option (List Nat) :=
  if n < 0x80 then some [n]
  else if n < 0x800 then some [0xC0 + n / 64, 0x80 + n % 64]
  else if 0xD800 ≤ n ∧ n ≤ 0xDFFF then none
  else if n < 0x10000 then some [0xE0 + n / 4096, 0x80 + n / 64 % 64, 0x80 + n % 64]
  else some [0xF0 + n / 262144, 0x80 + n / 4096 % 64, 0x80 + n / 64 % 64, 0x80 + n % 64]

/-- `s.encode("utf-8")`. -/
def encodeUtf8 (s : PyStr) : Except Exc (List Nat) :=
  match s.mapM utf8Bytes with
  | some bytes => .ok bytes.flatten
  | none => .error ⟨.unicodeEncodeError, "surrogates not allowed"⟩

/-! ## UTF-8 has one reading -/

/-- The first byte says how many bytes a code point has, so that a text has one reading. -/
theorem utf8Bytes_prefix {m n : Nat} {bs cs r t : List Nat} (hm : utf8Bytes m = some bs)
    (hn : utf8Bytes n = some cs) (h : bs ++ r = cs ++ t) : m = n ∧ r = t := by
  unfold utf8Bytes at hm hn
  split_ifs at hm hn
  all_goals
    obtain rfl := Option.some.inj hm
    obtain rfl := Option.some.inj hn
    simp only [List.cons_append, List.nil_append, List.cons.injEq] at h
    refine ⟨?_, ?_⟩
    · omega
    · first
        | exact h.2
        | exact h.2.2
        | exact h.2.2.2
        | exact h.2.2.2.2
        | omega

theorem utf8Bytes_ne_nil {n : Nat} {bs : List Nat} (h : utf8Bytes n = some bs) : bs ≠ [] := by
  unfold utf8Bytes at h
  split_ifs at h
  all_goals
    obtain rfl := Option.some.inj h
    exact List.cons_ne_nil _ _

theorem mapM_utf8Bytes_cons {n : Nat} {s : PyStr} {bytes : List (List Nat)}
    (h : (n :: s).mapM utf8Bytes = some bytes) : ∃ first rest, utf8Bytes n = some first ∧
      s.mapM utf8Bytes = some rest ∧ bytes = first :: rest := by
  rw [List.mapM_cons] at h
  obtain ⟨first, hfirst, h⟩ := Option.bind_eq_some_iff.mp h
  obtain ⟨rest, hrest, h⟩ := Option.bind_eq_some_iff.mp h
  exact ⟨first, rest, hfirst, hrest, (Option.some.inj h).symm⟩

/-- Two texts with the same bytes are the same. -/
theorem encodeUtf8_inj {s t : PyStr} {bytes : List Nat} (hs : encodeUtf8 s = .ok bytes)
    (ht : encodeUtf8 t = .ok bytes) : s = t := by
  unfold encodeUtf8 at hs ht
  cases hss : s.mapM utf8Bytes with
  | none =>
    rw [hss] at hs
    cases hs
  | some bs =>
    cases htt : t.mapM utf8Bytes with
    | none =>
      rw [htt] at ht
      cases ht
    | some cs =>
      rw [hss] at hs
      rw [htt] at ht
      have hflat : bs.flatten = cs.flatten := (Except.ok.inj hs).trans (Except.ok.inj ht).symm
      clear hs ht
      induction s generalizing t bs cs with
      | nil =>
        obtain rfl := Option.some.inj hss
        cases t with
        | nil => rfl
        | cons n t =>
          obtain ⟨first, rest, hfirst, -, rfl⟩ := mapM_utf8Bytes_cons htt
          have hnil : first ++ rest.flatten = [] := hflat.symm
          exact absurd (List.append_eq_nil_iff.mp hnil).1 (utf8Bytes_ne_nil hfirst)
      | cons m s ih =>
        obtain ⟨first, rest, hfirst, hrest, rfl⟩ := mapM_utf8Bytes_cons hss
        cases t with
        | nil =>
          obtain rfl := Option.some.inj htt
          have hnil : first ++ rest.flatten = [] := hflat
          exact absurd (List.append_eq_nil_iff.mp hnil).1 (utf8Bytes_ne_nil hfirst)
        | cons n t =>
          obtain ⟨first', rest', hfirst', hrest', rfl⟩ := mapM_utf8Bytes_cons htt
          rw [List.flatten_cons, List.flatten_cons] at hflat
          obtain ⟨hmn, hflat'⟩ := utf8Bytes_prefix hfirst hfirst' hflat
          rw [hmn, ih rest hrest rest' hrest' hflat']

/-- A text of scalar values has bytes, and each of its code points has. -/
theorem encodeUtf8_ok_iff {s : PyStr} :
    (∃ bytes, encodeUtf8 s = .ok bytes) ↔ ∀ n ∈ s, ∃ bytes, utf8Bytes n = some bytes := by
  unfold encodeUtf8
  induction s with
  | nil => simp
  | cons n s ih =>
    rw [List.forall_mem_cons, ← ih, List.mapM_cons]
    cases utf8Bytes n with
    | none => simp
    | some first =>
      cases s.mapM utf8Bytes with
      | none => simp
      | some rest => simp

/-! ## Base64 -/

/-- The character of six bits. -/
def base64Char (n : Nat) : Nat :=
  if n < 26 then 65 + n
  else if n < 52 then 71 + n
  else if n < 62 then n - 4
  else if n = 62 then 43
  else 47

/-- `base64.b64encode(bytes).decode("ascii")`. -/
def b64encode : List UInt8 → PyStr
  | [] => []
  | [a] => [base64Char (a.toNat / 4), base64Char (a.toNat % 4 * 16), 61, 61]
  | [a, b] =>
    [base64Char (a.toNat / 4), base64Char (a.toNat % 4 * 16 + b.toNat / 16),
      base64Char (b.toNat % 16 * 4), 61]
  | a :: b :: c :: rest =>
    base64Char (a.toNat / 4) :: base64Char (a.toNat % 4 * 16 + b.toNat / 16) ::
      base64Char (b.toNat % 16 * 4 + c.toNat / 64) :: base64Char (c.toNat % 64) :: b64encode rest

theorem base64Char_not_space (n : Nat) : isSpaceCode (base64Char n) = false := by
  have hrange : (65 ≤ base64Char n ∧ base64Char n ≤ 122) ∨ (43 ≤ base64Char n ∧ base64Char n ≤ 57) := by
    unfold base64Char
    split_ifs <;> omega
  simp only [isSpaceCode, Bool.or_eq_false_iff, Bool.and_eq_false_iff, decide_eq_false_iff_not,
    beq_eq_false_iff_ne]
  omega

theorem b64encode_not_space : ∀ (bytes : List UInt8), ∀ c ∈ b64encode bytes, isSpaceCode c = false
  | [], c, hc => by cases hc
  | [a], c, hc => by
    simp only [b64encode, List.mem_cons, List.not_mem_nil, or_false] at hc
    rcases hc with rfl | rfl | rfl | rfl
    · exact base64Char_not_space _
    · exact base64Char_not_space _
    · rfl
    · rfl
  | [a, b], c, hc => by
    simp only [b64encode, List.mem_cons, List.not_mem_nil, or_false] at hc
    rcases hc with rfl | rfl | rfl | rfl
    · exact base64Char_not_space _
    · exact base64Char_not_space _
    · exact base64Char_not_space _
    · rfl
  | a :: b :: d :: rest, c, hc => by
    simp only [b64encode, List.mem_cons] at hc
    rcases hc with rfl | rfl | rfl | rfl | hrest
    · exact base64Char_not_space _
    · exact base64Char_not_space _
    · exact base64Char_not_space _
    · exact base64Char_not_space _
    · exact b64encode_not_space rest c hrest

theorem b64encode_ne_nil {bytes : List UInt8} (h : bytes ≠ []) : b64encode bytes ≠ [] := by
  match bytes, h with
  | [_], _ => simp [b64encode]
  | [_, _], _ => simp [b64encode]
  | _ :: _ :: _ :: _, _ => simp [b64encode]

namespace PyStr

/-- `s.strip()`. -/
def strip (s : PyStr) : PyStr :=
  ((s.dropWhile isSpaceCode).reverse.dropWhile isSpaceCode).reverse

/-- `s.lstrip(c)` for one character. -/
def lstripOf (c : Nat) (s : PyStr) : PyStr := s.dropWhile (· == c)

/-- `s.strip(c)` for one character. -/
def stripOf (c : Nat) (s : PyStr) : PyStr := (((s.dropWhile (· == c)).reverse).dropWhile (· == c)).reverse

/-- `s.isdigit()`. -/
def isdigit (u : Unicode) (s : PyStr) : Bool := !s.isEmpty && s.all u.isDigit

/-- The digits of an integer literal: decimal digits, a single underscore between two of them. -/
def intDigits (u : Unicode) : PyStr → Option (List Nat)
  | [] => none
  | [c] => (u.decimal c).map ([·])
  | c :: d :: rest =>
    match u.decimal c with
    | none => none
    | some x =>
      if d = 95 then (intDigits u rest).map (x :: ·) else (intDigits u (d :: rest)).map (x :: ·)

/-- The interpreter's limit on the digits of an integer conversion. -/
def maxIntDigits : Nat := 4300

def ofDigits (digits : List Nat) : Nat := digits.foldl (fun n d => 10 * n + d) 0

def intTooLong (digits : Nat) : Exc :=
  ⟨.valueError, "Exceeds the limit (4300 digits) for integer string conversion: value has " ++
    toString digits ++ " digits; use sys.set_int_max_str_digits() to increase the limit"⟩

def invalidInt : Exc := ⟨.valueError, "invalid literal for int() with base 10"⟩

/-- `int(s)`. -/
def toInt (u : Unicode) (s : PyStr) : Except Exc Int :=
  let (negative, body) : Bool × PyStr := match strip s with
    | 43 :: rest => (false, rest)
    | 45 :: rest => (true, rest)
    | other => (false, other)
  match intDigits u body with
  | none => .error invalidInt
  | some digits =>
    if maxIntDigits < digits.length then .error (intTooLong digits.length)
    else
      let n : Int := ofDigits digits
      .ok (if negative then -n else n)

/-- `repr(s)`: as `reprStr`, with a lone surrogate escaped. -/
def repr (s : PyStr) : String :=
  let quote : Char := if s.contains 39 && !s.contains 34 then '"' else '\''
  String.ofList (quote :: (s.flatMap fun n =>
    if 0xD800 ≤ n ∧ n ≤ 0xDFFF then '\\' :: 'u' :: (hex2 (n / 256) ++ hex2 n)
    else reprChar quote (Char.ofNat n)) ++ [quote])

/-! ## Trimmed strings -/

theorem strip_eq_rdropWhile (s : PyStr) :
    strip s = List.rdropWhile isSpaceCode (List.dropWhile isSpaceCode s) := rfl

/-- Cutting the end off leaves the beginning as it was. -/
theorem dropWhile_rdropWhile {α : Type} (p : α → Bool) (s : List α) (hs : s.dropWhile p = s) :
    (s.rdropWhile p).dropWhile p = s.rdropWhile p := by
  rcases hcut : s.rdropWhile p with _ | ⟨c, rest⟩
  · rfl
  · -- what is left begins as `s` does, and `s` begins outside `p`
    obtain ⟨tail, htail⟩ := List.rdropWhile_prefix p s
    rw [hcut] at htail
    rw [← htail, List.cons_append, List.dropWhile_cons] at hs
    split at hs
    · have hshort := List.length_dropWhile_le p (rest ++ tail)
      rw [hs, List.length_cons] at hshort
      omega
    · rename_i hc
      rw [List.dropWhile_cons, if_neg hc]

/-- A stripped text is stripped already. -/
@[simp] theorem strip_strip (s : PyStr) : strip (strip s) = strip s := by
  rw [strip_eq_rdropWhile (strip s), strip_eq_rdropWhile s,
    dropWhile_rdropWhile isSpaceCode _ (List.dropWhile_idempotent isSpaceCode s),
    List.rdropWhile_idempotent]

/-- Without whitespace there is nothing to strip. -/
theorem strip_of_no_space {s : PyStr} (h : ∀ c ∈ s, isSpaceCode c = false) : strip s = s := by
  have hhead : List.dropWhile isSpaceCode s = s := by
    cases s with
    | nil => rfl
    | cons c rest =>
      have hc := h c List.mem_cons_self
      simp [hc]
  rw [strip_eq_rdropWhile, hhead, List.rdropWhile_eq_self_iff]
  intro hne
  simp [h _ (List.getLast_mem hne)]

end PyStr

end Py
