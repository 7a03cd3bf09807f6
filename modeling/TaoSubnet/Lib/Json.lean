import TaoSubnet.Lib.Dict
import TaoSubnet.Lib.Float
import TaoSubnet.Lib.PyStr

/-!
# `Json` — what `json.loads` makes of bytes

The decoder is a pushdown machine: `step` takes one code point, the stack holds the containers that
are open, and `loads` runs the machine over the decoded text. Two of its failures are not decoding
errors, and a caller that catches decoding errors only will meet them:

* opening one container more than the interpreter's recursion limit allows, `RecursionError`;
* an integer of more than 4300 digits, a plain `ValueError`.

Whichever comes first in the text is the one raised. Bytes are decoded first, as a whole, with the
encoding `json.detect_encoding` guesses and lone surrogates let through.
-/

namespace Py

/-- A JSON document. The items of an object are in the order of their first appearance, each key
    with its last value. -/
inductive Json
  | null
  | bool (b : Bool)
  | int (n : Int)
  | float (x : PyFloat)
  | str (s : PyStr)
  | arr (items : List Json)
  | obj (items : List (PyStr × Json))
  deriving Repr, Inhabited

namespace Json

/-- `d.get(key)` of an object's items. -/
def get? (items : List (PyStr × Json)) (key : String) : Option Json :=
  items.lookup (PyStr.ofString key)

/-- `bool(value)`. -/
def truthy : Json → Bool
  | .null => false
  | .bool b => b
  | .int n => n ≠ 0
  | .float (.fin q) => q ≠ 0
  | .float _ => true
  | .str s => !s.isEmpty
  | .arr items => !items.isEmpty
  | .obj items => !items.isEmpty

/-! ## Bytes to text -/

/-- The next byte of a UTF-8 sequence has to lie between `low` and `high`, and `left` more bytes
    are owed; `value` is what was read of the code point. -/
structure Utf8State where
  left : Nat := 0
  low : Nat := 0x80
  high : Nat := 0xBF
  value : Nat := 0
  text : PyStr := []

/-- One byte; `surrogates` lets encoded surrogates through. -/
def utf8Step (surrogates : Bool) (s : Utf8State) (b : Nat) : Option Utf8State :=
  if s.left = 0 then
    if b < 0x80 then some { text := b :: s.text }
    else if 0xC2 ≤ b ∧ b ≤ 0xDF then some ⟨1, 0x80, 0xBF, b % 32, s.text⟩
    else if b = 0xE0 then some ⟨2, 0xA0, 0xBF, 0, s.text⟩
    else if b = 0xED then some ⟨2, 0x80, if surrogates then 0xBF else 0x9F, 13, s.text⟩
    else if 0xE1 ≤ b ∧ b ≤ 0xEF then some ⟨2, 0x80, 0xBF, b % 16, s.text⟩
    else if b = 0xF0 then some ⟨3, 0x90, 0xBF, 0, s.text⟩
    else if 0xF1 ≤ b ∧ b ≤ 0xF3 then some ⟨3, 0x80, 0xBF, b % 8, s.text⟩
    else if b = 0xF4 then some ⟨3, 0x80, 0x8F, 4, s.text⟩
    else none
  else if s.low ≤ b ∧ b ≤ s.high then
    let value := 64 * s.value + b % 64
    if s.left = 1 then some { text := value :: s.text }
    else some ⟨s.left - 1, 0x80, 0xBF, value, s.text⟩
  else none

/-- `bytes.decode("utf-8", "surrogatepass")`. -/
def utf8 (bytes : List Nat) : Option PyStr :=
  match bytes.foldlM (utf8Step true) {} with
  | some s => if s.left = 0 then some s.text.reverse else none
  | none => none

/-- `bytes.decode("utf-8", "replace")`: U+FFFD for each sequence that cannot be continued. -/
def utf8Replace (bytes : List Nat) : PyStr :=
  let s := bytes.foldl (fun (s : Utf8State) b =>
    match utf8Step false s b with
    | some s => s
    | none =>
      if s.left = 0 then { text := 0xFFFD :: s.text }
      else match utf8Step false { text := 0xFFFD :: s.text } b with
        | some s => s
        | none => { text := 0xFFFD :: 0xFFFD :: s.text }) {}
  (if s.left = 0 then s.text else 0xFFFD :: s.text).reverse

def isHighSurrogate (n : Nat) : Bool := 0xD800 ≤ n && n ≤ 0xDBFF

def isLowSurrogate (n : Nat) : Bool := 0xDC00 ≤ n && n ≤ 0xDFFF

def joinPair (high low : Nat) : Nat := 0x10000 + (high - 0xD800) * 0x400 + (low - 0xDC00)

/-- A high surrogate and the low one after it are one code point. -/
def joinSurrogates : List Nat → PyStr
  | a :: b :: rest =>
    if isHighSurrogate a && isLowSurrogate b then joinPair a b :: joinSurrogates rest
    else a :: joinSurrogates (b :: rest)
  | units => units

/-- Two bytes to a unit. -/
def utf16 (bigEndian : Bool) (bytes : List Nat) : Option PyStr :=
  let rec units : List Nat → Option (List Nat)
    | [] => some []
    | [_] => none
    | a :: b :: rest => (units rest).map ((if bigEndian then 256 * a + b else 256 * b + a) :: ·)
  (units bytes).map joinSurrogates

/-- Four bytes to a code point. -/
def utf32 (bigEndian : Bool) : List Nat → Option PyStr
  | [] => some []
  | a :: b :: c :: d :: rest =>
    let n := if bigEndian then ((a * 256 + b) * 256 + c) * 256 + d
      else ((d * 256 + c) * 256 + b) * 256 + a
    if 0x110000 ≤ n then none else (utf32 bigEndian rest).map (n :: ·)
  | _ => none

/-- `b.decode(detect_encoding(b), 'surrogatepass')`. The byte order marks come first, then the
    pattern of zeros among the first four bytes. -/
def decodeBytes : List Nat → Option PyStr
  | 0 :: 0 :: 0xFE :: 0xFF :: rest => utf32 true rest
  | 0xFF :: 0xFE :: 0 :: 0 :: rest => utf32 false rest
  | 0xFE :: 0xFF :: rest => utf16 true rest
  | 0xFF :: 0xFE :: rest => utf16 false rest
  | 0xEF :: 0xBB :: 0xBF :: rest => utf8 rest
  | [a, b] =>
    if a = 0 then utf16 true [a, b] else if b = 0 then utf16 false [a, b] else utf8 [a, b]
  | a :: b :: c :: d :: rest =>
    let bytes := a :: b :: c :: d :: rest
    if a = 0 then (if b ≠ 0 then utf16 true bytes else utf32 true bytes)
    else if b = 0 then (if c ≠ 0 ∨ d ≠ 0 then utf16 false bytes else utf32 false bytes)
    else utf8 bytes
  | bytes => utf8 bytes

/-! ## Text to a document -/

def decodeError (message : String) : Exc := ⟨.jsonDecodeError, message⟩

def recursionError : Exc :=
  ⟨.recursionError, "maximum recursion depth exceeded while decoding a JSON document"⟩

/-- How far a number has been read. -/
inductive NumPhase
  | sign
  | zero
  | digits
  | point
  | fraction
  | mark
  | markSign
  | exponent
  deriving DecidableEq

/-- A number being read, its digits last first. -/
structure Num where
  phase : NumPhase
  negative : Bool := false
  whole : List Nat := []
  fraction : List Nat := []
  negativeExponent : Bool := false
  exponent : List Nat := []

/-- What is expected next. The strings under construction are last character first. -/
inductive Mode
  | value
  | arrayFirst
  | arrayNext
  | objectFirst
  | objectKey
  | objectColon
  | objectNext
  /-- `high`: the last character was written as an escaped high surrogate. -/
  | string (isKey : Bool) (acc : PyStr) (high : Bool)
  | escape (isKey : Bool) (acc : PyStr) (high : Bool)
  | hex (isKey : Bool) (acc : PyStr) (high : Bool) (left value : Nat)
  | number (num : Num)
  | literal (rest : PyStr) (value : Json)
  | done (value : Json)

/-- An open container, its items last first in an array; `key` is the key whose value is awaited. -/
inductive Frame
  | arr (items : List Json)
  | obj (items : List (PyStr × Json)) (key : PyStr)

structure State where
  mode : Mode
  stack : List Frame

def isBlank (c : Nat) : Bool := c == 32 || c == 9 || c == 10 || c == 13

def isDigitChar (c : Nat) : Bool := 48 ≤ c && c ≤ 57

def hexValue (c : Nat) : Option Nat :=
  if 48 ≤ c ∧ c ≤ 57 then some (c - 48)
  else if 97 ≤ c ∧ c ≤ 102 then some (c - 87)
  else if 65 ≤ c ∧ c ≤ 70 then some (c - 55)
  else none

/-- A value was read to its end. -/
def complete (value : Json) : List Frame → State
  | [] => ⟨.done value, []⟩
  | .arr items :: rest => ⟨.arrayNext, .arr (value :: items) :: rest⟩
  | .obj items key :: rest => ⟨.objectNext, .obj (Dict.put key value items) key :: rest⟩

/-- The integer read so far; the one conversion that can raise. -/
def intValue (num : Num) : Except Exc Json :=
  if PyStr.maxIntDigits < num.whole.length then .error (PyStr.intTooLong num.whole.length)
  else
    let n : Int := PyStr.ofDigits num.whole.reverse
    .ok (.int (if num.negative then -n else n))

def floatValue (num : Num) : Json :=
  let mantissa : ℚ := PyStr.ofDigits (num.whole.reverse ++ num.fraction.reverse)
  let e : Int := PyStr.ofDigits num.exponent.reverse
  let q := mantissa * (10 : ℚ) ^ ((if num.negativeExponent then -e else e) - num.fraction.length)
  .float (PyFloat.ofRat (if num.negative then -q else q))

/-- A number ends where its next character does not continue it. A point or an exponent mark with
    no digit after it is not part of the number, and cannot follow one either. -/
def finishNumber (num : Num) : Except Exc Json :=
  match num.phase with
  | .sign => .error (decodeError "Expecting value")
  | .zero => intValue num
  | .digits => intValue num
  | .point => do
    let _ ← intValue num
    .error (decodeError "Extra data")
  | .fraction => .ok (floatValue num)
  | .mark | .markSign =>
    if num.fraction.isEmpty then do
      let _ ← intValue num
      .error (decodeError "Extra data")
    else .error (decodeError "Extra data")
  | .exponent => .ok (floatValue num)

/-- The number with one more character, when that continues it. -/
def extendNumber (num : Num) (c : Nat) : Option Num :=
  match num.phase with
  | .sign =>
    if c = 48 then some { num with phase := .zero, whole := [0] }
    else if isDigitChar c then some { num with phase := .digits, whole := [c - 48] }
    else none
  | .zero =>
    if c = 46 then some { num with phase := .point }
    else if c = 101 ∨ c = 69 then some { num with phase := .mark }
    else none
  | .digits =>
    if isDigitChar c then some { num with whole := (c - 48) :: num.whole }
    else if c = 46 then some { num with phase := .point }
    else if c = 101 ∨ c = 69 then some { num with phase := .mark }
    else none
  | .point =>
    if isDigitChar c then some { num with phase := .fraction, fraction := [c - 48] } else none
  | .fraction =>
    if isDigitChar c then some { num with fraction := (c - 48) :: num.fraction }
    else if c = 101 ∨ c = 69 then some { num with phase := .mark }
    else none
  | .mark =>
    if isDigitChar c then some { num with phase := .exponent, exponent := [c - 48] }
    else if c = 43 then some { num with phase := .markSign }
    else if c = 45 then some { num with phase := .markSign, negativeExponent := true }
    else none
  | .markSign =>
    if isDigitChar c then some { num with phase := .exponent, exponent := [c - 48] } else none
  | .exponent =>
    if isDigitChar c then some { num with exponent := (c - 48) :: num.exponent } else none

/-- The first character of a value. Opening a container is what meets the recursion limit. -/
def startValue (limit : Nat) (stack : List Frame) (c : Nat) : Except Exc State :=
  if c = 34 then .ok ⟨.string false [] false, stack⟩
  else if c = 123 then
    if limit ≤ stack.length then .error recursionError else .ok ⟨.objectFirst, .obj [] [] :: stack⟩
  else if c = 91 then
    if limit ≤ stack.length then .error recursionError else .ok ⟨.arrayFirst, .arr [] :: stack⟩
  else if c = 110 then .ok ⟨.literal (PyStr.ofString "ull") .null, stack⟩
  else if c = 116 then .ok ⟨.literal (PyStr.ofString "rue") (.bool true), stack⟩
  else if c = 102 then .ok ⟨.literal (PyStr.ofString "alse") (.bool false), stack⟩
  else if c = 78 then .ok ⟨.literal (PyStr.ofString "aN") (.float .nan), stack⟩
  else if c = 73 then .ok ⟨.literal (PyStr.ofString "nfinity") (.float .inf), stack⟩
  else if c = 45 then .ok ⟨.number { phase := .sign, negative := true }, stack⟩
  else match extendNumber { phase := .sign } c with
    | some num => .ok ⟨.number num, stack⟩
    | none => .error (decodeError "Expecting value")

/-- A character after a complete value. -/
def afterValue (s : State) (c : Nat) : Except Exc State :=
  if isBlank c then .ok s
  else match s.mode, s.stack with
    | .arrayNext, .arr items :: rest =>
      if c = 44 then .ok ⟨.value, s.stack⟩
      else if c = 93 then .ok (complete (.arr items.reverse) rest)
      else .error (decodeError "Expecting ',' delimiter")
    | .objectNext, .obj items _ :: rest =>
      if c = 44 then .ok ⟨.objectKey, s.stack⟩
      else if c = 125 then .ok (complete (.obj items) rest)
      else .error (decodeError "Expecting ',' delimiter")
    | _, _ => .error (decodeError "Extra data")

/-- The end of a string: a key waits for its colon, a value is complete. -/
def endString (isKey : Bool) (text : PyStr) : List Frame → State
  | .obj items key :: rest =>
    if isKey then ⟨.objectColon, .obj items text :: rest⟩
    else complete (.str text) (.obj items key :: rest)
  | stack => complete (.str text) stack

/-- The character a simple escape stands for. -/
def simpleEscape (c : Nat) : Option Nat :=
  if c = 34 ∨ c = 92 ∨ c = 47 then some c
  else if c = 98 then some 8
  else if c = 102 then some 12
  else if c = 110 then some 10
  else if c = 114 then some 13
  else if c = 116 then some 9
  else none

/-- A `\uXXXX` was read: a low surrogate completes the escaped high one just before it. -/
def pushUnit (isKey : Bool) (acc : PyStr) (high : Bool) (unit : Nat) : Mode :=
  match acc, high && isLowSurrogate unit with
  | before :: rest, true => .string isKey (joinPair before unit :: rest) false
  | _, _ => .string isKey (unit :: acc) (isHighSurrogate unit)

/-- One code point. -/
def step (limit : Nat) (s : State) (c : Nat) : Except Exc State :=
  match s.mode with
  | .value => if isBlank c then .ok s else startValue limit s.stack c
  | .arrayFirst =>
    if isBlank c then .ok s
    else if c = 93 then .ok (complete (.arr []) s.stack.tail)
    else startValue limit s.stack c
  | .objectFirst =>
    if isBlank c then .ok s
    else if c = 125 then .ok (complete (.obj []) s.stack.tail)
    else if c = 34 then .ok ⟨.string true [] false, s.stack⟩
    else .error (decodeError "Expecting property name enclosed in double quotes")
  | .objectKey =>
    if isBlank c then .ok s
    else if c = 34 then .ok ⟨.string true [] false, s.stack⟩
    else .error (decodeError "Expecting property name enclosed in double quotes")
  | .objectColon =>
    if isBlank c then .ok s
    else if c = 58 then .ok ⟨.value, s.stack⟩
    else .error (decodeError "Expecting ':' delimiter")
  | .string isKey acc high =>
    if c = 34 then .ok (endString isKey acc.reverse s.stack)
    else if c = 92 then .ok ⟨.escape isKey acc high, s.stack⟩
    else if c < 32 then .error (decodeError "Invalid control character at")
    else .ok ⟨.string isKey (c :: acc) false, s.stack⟩
  | .escape isKey acc high =>
    if c = 117 then .ok ⟨.hex isKey acc high 4 0, s.stack⟩
    else match simpleEscape c with
      | some d => .ok ⟨.string isKey (d :: acc) false, s.stack⟩
      | none => .error (decodeError "Invalid \\escape")
  | .hex isKey acc high left value =>
    match hexValue c with
    | none => .error (decodeError "Invalid \\uXXXX escape")
    | some d =>
      if left ≤ 1 then .ok ⟨pushUnit isKey acc high (16 * value + d), s.stack⟩
      else .ok ⟨.hex isKey acc high (left - 1) (16 * value + d), s.stack⟩
  | .number num =>
    match extendNumber num c with
    | some num => .ok ⟨.number num, s.stack⟩
    | none =>
      if num.phase = .sign ∧ c = 73 then
        .ok ⟨.literal (PyStr.ofString "nfinity") (.float .ninf), s.stack⟩
      else do
        let value ← finishNumber num
        afterValue (complete value s.stack) c
  | .literal rest value =>
    match rest with
    | [] => afterValue (complete value s.stack) c
    | [d] => if c = d then .ok (complete value s.stack) else .error (decodeError "Expecting value")
    | d :: rest =>
      if c = d then .ok ⟨.literal rest value, s.stack⟩ else .error (decodeError "Expecting value")
  | _ => afterValue s c

/-- The end of the text. -/
def finish (s : State) : Except Exc Json :=
  match s.mode, s.stack with
  | .done value, _ => .ok value
  | .number num, stack => do
    let value ← finishNumber num
    match stack with
    | [] => .ok value
    | _ => .error (decodeError "Expecting ',' delimiter")
  | .string .., _ => .error (decodeError "Unterminated string starting at")
  | .escape .., _ => .error (decodeError "Unterminated string starting at")
  | .hex .., _ => .error (decodeError "Invalid \\uXXXX escape")
  | .arrayNext, _ => .error (decodeError "Expecting ',' delimiter")
  | .objectNext, _ => .error (decodeError "Expecting ',' delimiter")
  | .objectColon, _ => .error (decodeError "Expecting ':' delimiter")
  | .objectFirst, _ =>
    .error (decodeError "Expecting property name enclosed in double quotes")
  | .objectKey, _ => .error (decodeError "Expecting property name enclosed in double quotes")
  | _, _ => .error (decodeError "Expecting value")

/-- `json.loads(text)`; `limit` is how many containers may be open at once. -/
def loadsText (limit : Nat) (text : PyStr) : Except Exc Json := do
  finish (← text.foldlM (step limit) ⟨.value, []⟩)

/-- `json.loads(bytes)`. -/
def loads (limit : Nat) (bytes : List UInt8) : Except Exc Json :=
  match decodeBytes (bytes.map UInt8.toNat) with
  | none => .error ⟨.unicodeDecodeError, "invalid bytes"⟩
  | some text => loadsText limit text

/-! ## What it may raise -/

/-- What the decoder of a text may raise. -/
inductive Raisable : Exc → Prop
  | malformed (message : String) : Raisable (decodeError message)
  | depth : Raisable recursionError
  | digits {n : Nat} (h : PyStr.maxIntDigits < n) : Raisable (PyStr.intTooLong n)

theorem intValue_raises {num : Num} {e : Exc} (h : intValue num = .error e) : Raisable e := by
  unfold intValue at h
  split at h
  · rename_i hlong
    cases h
    exact .digits hlong
  · cases h

theorem finishNumber_raises {num : Num} {e : Exc} (h : finishNumber num = .error e) :
    Raisable e := by
  have hint : ∀ m, (do let _ ← intValue num; .error (decodeError m) : Except Exc Json) = .error e →
      Raisable e := by
    intro m hm
    rcases hv : intValue num with e' | v <;> rw [hv] at hm <;> cases hm
    · exact intValue_raises hv
    · exact .malformed m
  unfold finishNumber at h
  split at h
  · cases h; exact .malformed _
  · exact intValue_raises h
  · exact intValue_raises h
  · exact hint _ h
  · cases h
  · split at h
    · exact hint _ h
    · cases h; exact .malformed _
  · split at h
    · exact hint _ h
    · cases h; exact .malformed _
  · cases h

theorem startValue_raises {limit : Nat} {stack : List Frame} {c : Nat} {e : Exc}
    (h : startValue limit stack c = .error e) : Raisable e := by
  unfold startValue at h
  repeat' split at h
  all_goals cases h
  all_goals first | exact .depth | exact .malformed _

theorem afterValue_raises {s : State} {c : Nat} {e : Exc} (h : afterValue s c = .error e) :
    Raisable e := by
  unfold afterValue at h
  repeat' split at h
  all_goals cases h
  all_goals exact .malformed _

theorem step_raises {limit : Nat} {s : State} {c : Nat} {e : Exc}
    (h : step limit s c = .error e) : Raisable e := by
  cases hm : s.mode <;> simp only [step, hm] at h
  case number num =>
    cases hx : extendNumber num c with
    | some num' => rw [hx] at h; cases h
    | none =>
      simp only [hx] at h
      split at h
      · cases h
      · rcases hv : finishNumber num with e' | v <;> rw [hv] at h
        · cases h; exact finishNumber_raises hv
        · exact afterValue_raises h
  case hex isKey acc high left value =>
    cases hx : hexValue c with
    | none => rw [hx] at h; cases h; exact .malformed _
    | some d => simp only [hx] at h; split at h <;> cases h
  all_goals repeat' split at h
  all_goals first
    | (cases h; done)
    | exact afterValue_raises h
    | exact startValue_raises h
    | (cases h; exact .malformed _)

theorem finish_raises {s : State} {e : Exc} (h : finish s = .error e) : Raisable e := by
  cases hm : s.mode <;> simp only [finish, hm] at h
  case number num =>
    rcases hv : finishNumber num with e' | v <;> simp only [hv, bind, Except.bind] at h
    · cases h; exact finishNumber_raises hv
    · split at h
      · cases h
      · cases h; exact .malformed _
  all_goals first
    | (cases h; done)
    | (cases h; exact .malformed _)

theorem run_raises {limit : Nat} {e : Exc} :
    ∀ {text : PyStr} {s : State}, text.foldlM (step limit) s = .error e → Raisable e
  | [], s, h => by cases h
  | c :: rest, s, h => by
    rw [List.foldlM_cons] at h
    rcases hs : step limit s c with e' | s' <;> rw [hs] at h
    · cases h; exact step_raises hs
    · exact run_raises h

theorem loadsText_raises {limit : Nat} {text : PyStr} {e : Exc}
    (h : loadsText limit text = .error e) : Raisable e := by
  unfold loadsText at h
  rcases hr : text.foldlM (step limit) ⟨.value, []⟩ with e' | s <;> rw [hr] at h
  · cases h; exact run_raises hr
  · exact finish_raises h

theorem loads_raises {limit : Nat} {bytes : List UInt8} {e : Exc}
    (h : loads limit bytes = .error e) : e.cls = .unicodeDecodeError ∨ Raisable e := by
  unfold loads at h
  split at h
  · cases h
    exact .inl rfl
  · exact .inr (loadsText_raises h)

end Json

/-- What a program takes from its interpreter: the character database, how many JSON containers can
    be open before it raises, what `str` makes of a JSON value that is no string, and the digest of
    `hashlib.sha256` in hexadecimal. -/
structure Interpreter where
  unicode : Unicode
  recursionLimit : Nat
  strOf : Json → PyStr := fun _ => []
  sha256 : List Nat → String := fun _ => ""

def cpython : Interpreter where
  unicode := Unicode.latin1
  recursionLimit := 1000

/-- `str(value)`. -/
def strValue (py : Interpreter) : Json → PyStr
  | .str s => s
  | value => py.strOf value

end Py
