import Mathlib.Data.List.Chain
import TaoSubnet.Lib.Dumps

/-!
# What `json.dumps` writes, `json.loads` reads

The machine of `TaoSubnet.Lib.Json` over a text of `TaoSubnet.Lib.Dumps`. A value's text takes it from
the state that awaits a value to the state in which that value is complete, whatever containers are
open; only a number waits for the character after it. The one thing a text does not carry over is a
string in which a high surrogate stands before a low one: it is read as the pair.
-/

namespace Py.Json

/-! ## Runs of the machine -/

/-- The machine reads the text from one state to the other. -/
def Runs (limit : Nat) (s : State) (text : PyStr) (s' : State) : Prop :=
  text.foldlM (step limit) s = .ok s'

variable {limit : Nat} {s s₁ s₂ : State} {text rest : PyStr} {stack : List Frame}

theorem Runs.nil : Runs limit s [] s := rfl

theorem Runs.cons {c : Nat} (h : step limit s c = .ok s₁) (hrest : Runs limit s₁ rest s₂) :
    Runs limit s (c :: rest) s₂ := by
  unfold Runs at hrest ⊢
  rw [List.foldlM_cons, h]
  exact hrest

theorem Runs.one {c : Nat} (h : step limit s c = .ok s₁) : Runs limit s [c] s₁ := .cons h .nil

theorem Runs.append (h : Runs limit s text s₁) (hrest : Runs limit s₁ rest s₂) :
    Runs limit s (text ++ rest) s₂ := by
  unfold Runs at h hrest ⊢
  rw [List.foldlM_append, h]
  exact hrest

theorem Runs.snoc {c : Nat} (h : Runs limit s text s₁) (hc : step limit s₁ c = .ok s₂) :
    Runs limit s (text ++ [c]) s₂ := h.append (.one hc)

theorem Runs.step_eq {c : Nat} (h : Runs limit s (c :: rest) s₂) (hc : step limit s c = step limit s₁ c) :
    Runs limit s₁ (c :: rest) s₂ := by
  unfold Runs at h ⊢
  rw [List.foldlM_cons, ← hc]
  exact h

/-! ## Strings -/

theorem hexValue_hexDigit {d : Nat} (h : d < 16) : hexValue (hexDigit d) = some d := by
  unfold hexDigit hexValue
  split_ifs <;> first | omega | (simp only [Option.some.injEq]; omega)

section Strings

variable {isKey : Bool} {acc : PyStr} {high : Bool}

/-- An escape that names its character. -/
theorem Runs.escape {c d : Nat} (hu : d ≠ 117) (hd : simpleEscape d = some c) :
    Runs limit ⟨.string isKey acc high, stack⟩ [92, d] ⟨.string isKey (c :: acc) false, stack⟩ := by
  refine .cons rfl (.one ?_)
  unfold step
  dsimp only
  rw [if_neg hu, hd]

theorem step_hex {left value k : Nat} :
    step limit ⟨.hex isKey acc high left value, stack⟩ (hexDigit (k % 16)) =
      if left ≤ 1 then .ok ⟨pushUnit isKey acc high (16 * value + k % 16), stack⟩
      else .ok ⟨.hex isKey acc high (left - 1) (16 * value + k % 16), stack⟩ := by
  unfold step
  dsimp only
  rw [hexValue_hexDigit (Nat.mod_lt k (by decide))]

/-- An escape that gives the number of a UTF-16 unit. -/
theorem Runs.unit {n : Nat} (h : n < 0x10000) :
    Runs limit ⟨.string isKey acc high, stack⟩ (unitText n) ⟨pushUnit isKey acc high n, stack⟩ := by
  have hvalue : 16 * (16 * (16 * (16 * 0 + n / 4096 % 16) + n / 256 % 16) + n / 16 % 16) + n % 16 = n := by
    omega
  have hmore (left value k : Nat) (hleft : 1 < left) :
      step limit ⟨.hex isKey acc high left value, stack⟩ (hexDigit (k % 16)) =
        .ok ⟨.hex isKey acc high (left - 1) (16 * value + k % 16), stack⟩ := by
    rw [step_hex, if_neg (by omega)]
  refine .cons rfl (.cons rfl (.cons (hmore 4 0 (n / 4096) (by decide))
    (.cons (hmore 3 _ (n / 256) (by decide)) (.cons (hmore 2 _ (n / 16) (by decide)) (.one ?_)))))
  rw [step_hex, if_pos (by decide), hvalue]

theorem pushUnit_single {n : Nat} (h : (high && isLowSurrogate n) = false) :
    pushUnit isKey acc high n = .string isKey (n :: acc) (isHighSurrogate n) := by
  unfold pushUnit
  rw [h]
  cases acc <;> rfl

theorem pushUnit_pair {before unit : Nat} (h : isLowSurrogate unit = true) :
    pushUnit isKey (before :: acc) true unit =
      .string isKey (joinPair before unit :: acc) false := by
  unfold pushUnit
  rw [h]
  rfl

/-- How a character is written: by an escape of its own, as it is, or by the numbers of its UTF-16
    units. -/
inductive CharForm (n : Nat) : PyStr → Prop
  | escaped {d : Nat} (hd : simpleEscape d = some n) (hu : d ≠ 117) (hlow : n < 128 ∧ d < 128) :
      CharForm n [92, d]
  | plain (hquote : n ≠ 34) (hslash : n ≠ 92) (hrange : 32 ≤ n ∧ n ≤ 126) : CharForm n [n]
  | unit (h : n < 0x10000) : CharForm n (unitText n)
  | pair (h : 0x10000 ≤ n) : CharForm n
      (unitText (0xD800 + (n - 0x10000) / 1024) ++ unitText (0xDC00 + (n - 0x10000) % 1024))

theorem charForm (n : Nat) : CharForm n (charText n) := by
  by_cases hnamed : n ∈ [34, 92, 10, 13, 9, 12, 8]
  · simp only [List.mem_cons, List.not_mem_nil, or_false] at hnamed
    rcases hnamed with rfl | rfl | rfl | rfl | rfl | rfl | rfl
    all_goals exact .escaped rfl (by decide) (by decide)
  · simp only [List.mem_cons, List.not_mem_nil, or_false, not_or] at hnamed
    obtain ⟨h34, h92, h10, h13, h9, h12, h8⟩ := hnamed
    unfold charText
    rw [if_neg h34, if_neg h92, if_neg h10, if_neg h13, if_neg h9, if_neg h12, if_neg h8]
    by_cases hplain : 32 ≤ n ∧ n ≤ 126
    · rw [if_pos hplain]
      exact .plain h34 h92 hplain
    · rw [if_neg hplain]
      by_cases hunit : n < 0x10000
      · rw [if_pos hunit]
        exact .unit hunit
      · rw [if_neg hunit]
        exact .pair (by omega)

/-- **One character**, unless it is a low surrogate that a high one is waiting for. -/
theorem Runs.char {n : Nat} (hn : n < 0x110000) (hpair : (high && isLowSurrogate n) = false) :
    Runs limit ⟨.string isKey acc high, stack⟩ (charText n)
      ⟨.string isKey (n :: acc) (isHighSurrogate n), stack⟩ := by
  have hlow (h : n < 0xD800 ∨ 0x10000 ≤ n) : isHighSurrogate n = false := by
    simp only [isHighSurrogate, Bool.and_eq_false_iff, decide_eq_false_iff_not]
    omega
  have hform := charForm n
  generalize charText n = text at hform ⊢
  cases hform with
  | escaped hd hu hrange =>
    rw [hlow (by omega)]
    exact .escape hu hd
  | plain hquote hslash hrange =>
    rw [hlow (by omega)]
    refine .one ?_
    unfold step
    dsimp only
    rw [if_neg hquote, if_neg hslash, if_neg (by omega)]
  | unit h =>
    rw [← pushUnit_single hpair]
    exact .unit h
  | pair h =>
    -- above the units: a pair of them, which is put together again
    rw [hlow (by omega)]
    generalize hhi : 0xD800 + (n - 0x10000) / 1024 = hi
    generalize hlo : 0xDC00 + (n - 0x10000) % 1024 = lo
    have hhigh : isHighSurrogate hi = true := by
      simp only [isHighSurrogate, Bool.and_eq_true, decide_eq_true_eq]
      omega
    have hnot : isLowSurrogate hi = false := by
      simp only [isLowSurrogate, Bool.and_eq_false_iff, decide_eq_false_iff_not]
      omega
    have hlast : isLowSurrogate lo = true := by
      simp only [isLowSurrogate, Bool.and_eq_true, decide_eq_true_eq]
      omega
    have hjoin : joinPair hi lo = n := by
      unfold joinPair
      omega
    refine .append (.unit (by omega)) ?_
    rw [pushUnit_single (by rw [hnot, Bool.and_false]), hhigh]
    rw [← hjoin, ← pushUnit_pair hlast]
    exact .unit (by omega)

/-- A string that is read as it was written: no high surrogate stands before a low one. -/
def Unsplit (s : PyStr) : Prop :=
  (∀ c ∈ s, c < 0x110000) ∧ s.IsChain fun a b => (isHighSurrogate a && isLowSurrogate b) = false

theorem Runs.chars {text : PyStr} (htext : Unsplit text)
    (hfirst : ∀ c ∈ text.head?, (high && isLowSurrogate c) = false) :
    ∃ high', Runs limit ⟨.string isKey acc high, stack⟩ (text.flatMap charText)
      ⟨.string isKey (text.reverse ++ acc) high', stack⟩ := by
  induction text generalizing acc high with
  | nil => exact ⟨high, .nil⟩
  | cons c rest ih =>
    obtain ⟨hrange, hchain⟩ := htext
    rw [List.isChain_cons] at hchain
    have hchar : Runs limit ⟨.string isKey acc high, stack⟩ (charText c)
        ⟨.string isKey (c :: acc) (isHighSurrogate c), stack⟩ :=
      .char (hrange c List.mem_cons_self) (hfirst c rfl)
    have hrest : Unsplit rest := ⟨fun d hd => hrange d (List.mem_cons_of_mem c hd), hchain.2⟩
    obtain ⟨high', hruns⟩ := @ih (c :: acc) (isHighSurrogate c) hrest hchain.1
    refine ⟨high', ?_⟩
    rw [List.flatMap_cons, List.reverse_cons, List.append_assoc]
    exact hchar.append hruns

/-- **A string**, after its opening quote. -/
theorem Runs.string {text : PyStr} (htext : Unsplit text) :
    Runs limit ⟨.string isKey [] false, stack⟩ (text.flatMap charText ++ [34])
      (endString isKey text stack) := by
  have hchars : ∃ high', Runs limit ⟨.string isKey [] false, stack⟩ (text.flatMap charText)
      ⟨.string isKey (text.reverse ++ []) high', stack⟩ :=
    Runs.chars htext (by simp)
  obtain ⟨high', hruns⟩ := hchars
  refine hruns.snoc ?_
  unfold step
  dsimp only
  rw [if_pos rfl, List.append_nil, List.reverse_reverse]

end Strings

/-! ## Numbers -/

theorem digitChar_ne_zero : ∀ d < 10, d ≠ 0 → Nat.digitChar d ≠ '0' := by decide

theorem toDigits_head_ne_zero (n : Nat) (hn : n ≠ 0) :
    ∃ c rest, Nat.toDigits 10 n = c :: rest ∧ c ≠ '0' := by
  induction n using Nat.strongRecOn with
  | ind n ih =>
    by_cases hsmall : n < 10
    · exact ⟨n.digitChar, [], Nat.toDigits_of_lt_base hsmall, digitChar_ne_zero n hsmall hn⟩
    · obtain ⟨c, rest, hdigits, hc⟩ := ih (n / 10) (by omega) (by omega)
      refine ⟨c, rest ++ [(n % 10).digitChar], ?_, hc⟩
      rw [Nat.toDigits_of_base_le (by decide) (by omega), hdigits, List.cons_append]

theorem isDigitChar_toNat {c : Char} (h : c.isDigit = true) : isDigitChar c.toNat = true := by
  simp only [isDigitChar, Bool.and_eq_true, decide_eq_true_eq]
  exact toNat_of_digit h

theorem step_number {num num' : Num} {c : Nat} (h : extendNumber num c = some num') :
    step limit ⟨.number num, stack⟩ c = .ok ⟨.number num', stack⟩ := by
  unfold step
  dsimp only
  rw [h]

/-- More digits of a number that has one which is no zero. -/
theorem Runs.digits {digits : List Char} (h : ∀ c ∈ digits, c.isDigit = true) {num : Num}
    (hphase : num.phase = .digits) :
    Runs limit ⟨.number num, stack⟩ (digits.map Char.toNat)
      ⟨.number { num with whole := (digitValues digits).reverse ++ num.whole }, stack⟩ := by
  induction digits generalizing num with
  | nil => exact .nil
  | cons c rest ih =>
    have hdigit : extendNumber num c.toNat = some { num with whole := (c.toNat - 48) :: num.whole } := by
      unfold extendNumber
      rw [hphase]
      dsimp only
      rw [if_pos (isDigitChar_toNat (h c List.mem_cons_self))]
    have hnext : ({ num with whole := (c.toNat - 48) :: num.whole } : Num).phase = .digits := hphase
    have hrest := ih (fun d hd => h d (List.mem_cons_of_mem c hd)) hnext
    have hwhole : (digitValues (c :: rest)).reverse ++ num.whole =
        (digitValues rest).reverse ++ (c.toNat - 48) :: num.whole := by
      simp [digitValues]
    rw [hwhole]
    exact .cons (step_number hdigit) hrest

/-- A number that has been read to its last digit. -/
structure Whole (negative : Bool) (n : Nat) (num : Num) : Prop where
  ends : finishNumber num = intValue num
  sign : num.negative = negative
  digits : num.whole.reverse = digitValues (Nat.toDigits 10 n)

theorem Runs.natText (negative : Bool) (n : Nat) :
    ∃ num, Runs limit ⟨.number { phase := .sign, negative := negative }, stack⟩ (Py.natText n)
      ⟨.number num, stack⟩ ∧ Whole negative n num := by
  unfold Py.natText
  by_cases hn : n = 0
  · subst hn
    rw [Nat.toDigits_zero]
    exact ⟨{ phase := .zero, negative := negative, whole := [0] }, .one rfl, rfl, rfl, rfl⟩
  · obtain ⟨c, rest, hdigits, hc⟩ := toDigits_head_ne_zero n hn
    have hall : ∀ d ∈ c :: rest, d.isDigit = true := by
      intro d hd
      exact isDigit_natText (hdigits ▸ hd)
    have hzero : c.toNat ≠ 48 := fun h => hc (Char.toNat_inj.mp h)
    have hfirst : Runs limit ⟨.number { phase := .sign, negative := negative }, stack⟩ [c.toNat]
        ⟨.number { phase := .digits, negative := negative, whole := [c.toNat - 48] }, stack⟩ := by
      refine .one (step_number ?_)
      unfold extendNumber
      dsimp only
      rw [if_neg hzero, if_pos (isDigitChar_toNat (hall c List.mem_cons_self))]
    have hrest : ∀ d ∈ rest, d.isDigit = true := fun d hd => hall d (List.mem_cons_of_mem c hd)
    rw [hdigits, List.map_cons]
    refine ⟨_, hfirst.append (.digits hrest rfl), rfl, rfl, ?_⟩
    simp [hdigits, digitValues]

theorem intValue_whole {negative : Bool} {n : Nat} {num : Num} (h : Whole negative n num)
    (hshort : (Nat.toDigits 10 n).length ≤ PyStr.maxIntDigits) :
    finishNumber num = .ok (.int (if negative then -(n : Int) else n)) := by
  have hlength : num.whole.length = (Nat.toDigits 10 n).length := by
    rw [← List.length_reverse, h.digits]
    exact List.length_map ..
  have hvalue : PyStr.ofDigits num.whole.reverse = n := by
    rw [h.digits]
    unfold PyStr.ofDigits
    rw [ofDigits_digitValues, Nat.ofDigitChars_ten_toDigits]
  rw [h.ends]
  unfold intValue
  rw [if_neg (by omega), hvalue, h.sign]

/-! ## Values -/

/-- A value has been read: it is complete, or a number that the next character completes. -/
inductive Settled (v : Json) (stack : List Frame) : State → Prop
  | complete : Settled v stack (complete v stack)
  | number {num : Num} (h : finishNumber num = .ok v) : Settled v stack ⟨.number num, stack⟩

/-- What may stand after a value. -/
def Delimits (c : Nat) : Prop := c = 44 ∨ c = 93 ∨ c = 125

theorem extendNumber_of_delimits {c : Nat} (hc : Delimits c) (num : Num) :
    extendNumber num c = none := by
  unfold extendNumber
  rcases hc with rfl | rfl | rfl
  all_goals cases num.phase <;> rfl

theorem Settled.step {v : Json} {c : Nat} (h : Settled v stack s) (hc : Delimits c) :
    step limit s c = afterValue (Json.complete v stack) c := by
  cases h with
  | complete =>
    cases stack with
    | nil => rfl
    | cons frame rest =>
      cases frame with
      | arr items => rfl
      | obj items key => rfl
  | @number num h =>
    have hletter : ¬ (num.phase = .sign ∧ c = 73) := by
      intro hand
      rcases hc with rfl | rfl | rfl
      all_goals exact absurd hand.2 (by decide)
    unfold Json.step
    dsimp only
    rw [extendNumber_of_delimits hc]
    dsimp only
    rw [if_neg hletter, h]
    rfl

theorem Settled.finish {v : Json} (h : Settled v [] s) : finish s = .ok v := by
  cases h with
  | complete => rfl
  | number h =>
    unfold Json.finish
    dsimp only
    rw [h]
    rfl

/-- A text that the machine reads as the value, with so many containers in it one in the other. -/
structure Reads (limit depth : Nat) (text : PyStr) (v : Json) : Prop where
  starts : ∃ c rest, text = c :: rest ∧ isBlank c = false ∧ c ≠ 93
  settles : ∀ stack : List Frame, stack.length + depth ≤ limit →
    ∃ s, Runs limit ⟨.value, stack⟩ text s ∧ Settled v stack s

theorem Reads.loads {depth : Nat} {v : Json} (h : Reads limit depth text v) (hdepth : depth ≤ limit) :
    loadsText limit text = .ok v := by
  obtain ⟨s, hruns, hsettled⟩ := h.settles [] (by simpa using hdepth)
  unfold loadsText
  unfold Runs at hruns
  rw [hruns]
  exact hsettled.finish

/-! ### Values without items -/

theorem reads_null : Reads limit 0 (PyStr.ofString "null") .null :=
  ⟨⟨110, PyStr.ofString "ull", rfl, rfl, by decide⟩, fun _ _ => ⟨_, rfl, .complete⟩⟩

theorem reads_true : Reads limit 0 (PyStr.ofString "true") (.bool true) :=
  ⟨⟨116, PyStr.ofString "rue", rfl, rfl, by decide⟩, fun _ _ => ⟨_, rfl, .complete⟩⟩

theorem reads_false : Reads limit 0 (PyStr.ofString "false") (.bool false) :=
  ⟨⟨102, PyStr.ofString "alse", rfl, rfl, by decide⟩, fun _ _ => ⟨_, rfl, .complete⟩⟩

theorem endString_value (text : PyStr) (stack : List Frame) :
    endString false text stack = complete (.str text) stack := by
  cases stack with
  | nil => rfl
  | cons frame rest =>
    cases frame with
    | arr items => rfl
    | obj items key => rfl

theorem reads_str {text : PyStr} (h : Unsplit text) : Reads limit 0 (strText text) (.str text) := by
  refine ⟨⟨34, _, rfl, rfl, by decide⟩, fun stack _ => ⟨complete (.str text) stack, ?_, .complete⟩⟩
  rw [← endString_value]
  exact .cons rfl (.string h)

theorem digit_cases {c : Nat} (h : 48 ≤ c ∧ c ≤ 57) : c = 48 ∨ c = 49 ∨ c = 50 ∨ c = 51 ∨ c = 52 ∨
    c = 53 ∨ c = 54 ∨ c = 55 ∨ c = 56 ∨ c = 57 := by
  omega

/-- A digit begins a number, whether it is the first character or comes after the sign. -/
theorem step_digit {c : Nat} (h : 48 ≤ c ∧ c ≤ 57) :
    step limit ⟨.number { phase := .sign }, stack⟩ c = step limit ⟨.value, stack⟩ c := by
  rcases digit_cases h with rfl | rfl | rfl | rfl | rfl | rfl | rfl | rfl | rfl | rfl
  all_goals rfl

theorem natText_cons (n : Nat) : ∃ c rest, natText n = c :: rest ∧ 48 ≤ c ∧ c ≤ 57 := by
  cases h : natText n with
  | nil => exact absurd (List.map_eq_nil_iff.mp h) Nat.toDigits_ne_nil
  | cons c rest =>
    refine ⟨c, rest, rfl, natText_range (n := n) ?_⟩
    rw [h]
    exact List.mem_cons_self

theorem reads_int {n : Int} {text : PyStr} (h : intText n = .ok text) :
    Reads limit 0 text (.int n) := by
  unfold intText at h
  cases hlong : tooLong n with
  | true =>
    rw [hlong] at h
    cases h
  | false =>
    rw [hlong] at h
    obtain rfl := Except.ok.inj h
    have hshort := length_digits_le hlong
    have hsettled {negative : Bool} {num : Num} (hwhole : Whole negative n.natAbs num) :=
      intValue_whole hwhole hshort
    unfold intDigitsText
    by_cases hneg : n < 0
    · rw [if_pos hneg]
      refine ⟨⟨45, _, rfl, rfl, by decide⟩, fun stack _ => ?_⟩
      obtain ⟨num, hruns, hwhole⟩ := @Runs.natText limit stack true n.natAbs
      have hvalue : -(n.natAbs : Int) = n := by omega
      have hend := hsettled hwhole
      rw [if_pos rfl, hvalue] at hend
      exact ⟨_, .cons rfl hruns, .number hend⟩
    · rw [if_neg hneg]
      obtain ⟨c, rest, htext, hrange⟩ := natText_cons n.natAbs
      refine ⟨⟨c, rest, htext, ?_, by omega⟩, fun stack _ => ?_⟩
      · simp only [isBlank, Bool.or_eq_false_iff, beq_eq_false_iff_ne]
        omega
      · obtain ⟨num, hruns, hwhole⟩ := @Runs.natText limit stack false n.natAbs
        have hvalue : (n.natAbs : Int) = n := by omega
        have hend := hsettled hwhole
        rw [if_neg (by decide), hvalue] at hend
        rw [htext] at hruns ⊢
        exact ⟨_, hruns.step_eq (step_digit hrange), .number hend⟩

/-! ### Arrays and objects -/

/-- What `dumps` writes of a list of items that are all read. -/
inductive ReadsItems (limit depth : Nat) : PyStr → List Json → Prop
  | last {text : PyStr} {v : Json} (h : Reads limit depth text v) : ReadsItems limit depth text [v]
  | more {text rest : PyStr} {v : Json} {items : List Json} (h : Reads limit depth text v)
      (hrest : ReadsItems limit depth rest items) :
      ReadsItems limit depth (text ++ 44 :: 32 :: rest) (v :: items)

theorem ReadsItems.runs {depth : Nat} {items acc : List Json} (h : ReadsItems limit depth text items)
    (hdepth : stack.length + 1 + depth ≤ limit) :
    Runs limit ⟨.value, .arr acc :: stack⟩ (text ++ [93])
      (complete (.arr (acc.reverse ++ items)) stack) := by
  induction h generalizing acc with
  | @last text v h =>
    obtain ⟨s, hruns, hsettled⟩ := h.settles (.arr acc :: stack) (by simpa using hdepth)
    refine hruns.snoc ?_
    rw [hsettled.step (.inr (.inl rfl)), ← List.reverse_cons]
    rfl
  | @more text rest v items h hrest ih =>
    obtain ⟨s, hruns, hsettled⟩ := h.settles (.arr acc :: stack) (by simpa using hdepth)
    have hcomma : step limit s 44 = .ok ⟨.value, .arr (v :: acc) :: stack⟩ := by
      rw [hsettled.step (.inl rfl)]
      rfl
    have hitems := @ih (v :: acc)
    rw [List.reverse_cons, List.append_assoc] at hitems
    rw [List.append_assoc]
    exact hruns.append (.cons hcomma (.cons rfl hitems))

theorem ReadsItems.starts {depth : Nat} {items : List Json} (h : ReadsItems limit depth text items) :
    ∃ c rest, text = c :: rest ∧ isBlank c = false ∧ c ≠ 93 := by
  cases h with
  | last h => exact h.starts
  | more h _ =>
    obtain ⟨c, rest, rfl, hblank, hc⟩ := h.starts
    exact ⟨c, _, rfl, hblank, hc⟩

/-- A container may be opened. -/
theorem step_open {c : Nat} {mode : Mode} {frame : Frame} (hroom : stack.length < limit)
    (h : (c = 91 ∧ mode = .arrayFirst ∧ frame = .arr []) ∨
      (c = 123 ∧ mode = .objectFirst ∧ frame = .obj [] [])) :
    step limit ⟨.value, stack⟩ c = .ok ⟨mode, frame :: stack⟩ := by
  have hopen (s : State) :
      (if limit ≤ stack.length then .error recursionError else .ok s) = (.ok s : Except Exc State) :=
    if_neg (by omega)
  rcases h with ⟨rfl, rfl, rfl⟩ | ⟨rfl, rfl, rfl⟩
  · exact hopen _
  · exact hopen _

theorem reads_arr_nil : Reads limit 1 [91, 93] (.arr []) := by
  refine ⟨⟨91, _, rfl, rfl, by decide⟩, fun stack hdepth => ⟨complete (.arr []) stack, ?_, .complete⟩⟩
  exact .cons (step_open (by omega) (.inl ⟨rfl, rfl, rfl⟩)) (.one rfl)

theorem reads_arr {depth : Nat} {items : List Json} (h : ReadsItems limit depth text items) :
    Reads limit (depth + 1) (91 :: (text ++ [93])) (.arr items) := by
  refine ⟨⟨91, _, rfl, rfl, by decide⟩, fun stack hdepth => ⟨complete (.arr items) stack, ?_, .complete⟩⟩
  obtain ⟨c, rest, rfl, hblank, hc⟩ := h.starts
  -- the first item is read as a value, since it does not close the array
  have hfirst : step limit ⟨.value, .arr [] :: stack⟩ c =
      step limit ⟨.arrayFirst, .arr [] :: stack⟩ c := by
    unfold step
    dsimp only
    rw [hblank, if_neg hc]
    rfl
  have hitems : Runs limit ⟨.value, .arr [] :: stack⟩ (c :: (rest ++ [93]))
      (complete (.arr items) stack) := h.runs (by omega)
  exact .cons (step_open (by omega) (.inl ⟨rfl, rfl, rfl⟩)) (hitems.step_eq hfirst)

/-- What `dumps` writes of the fields of an object. -/
inductive ReadsFields (limit depth : Nat) : PyStr → List (PyStr × Json) → Prop
  | last {key text : PyStr} {v : Json} (hkey : Unsplit key) (h : Reads limit depth text v) :
      ReadsFields limit depth (strText key ++ 58 :: 32 :: text) [(key, v)]
  | more {key text rest : PyStr} {v : Json} {items : List (PyStr × Json)} (hkey : Unsplit key)
      (h : Reads limit depth text v) (hrest : ReadsFields limit depth rest items) :
      ReadsFields limit depth ((strText key ++ 58 :: 32 :: text) ++ 44 :: 32 :: rest)
        ((key, v) :: items)

theorem Runs.key {key k : PyStr} {acc : List (PyStr × Json)} (hkey : Unsplit key) :
    Runs limit ⟨.objectKey, .obj acc k :: stack⟩ (strText key)
      ⟨.objectColon, .obj acc key :: stack⟩ :=
  .cons rfl (.string hkey)

theorem Runs.field {key text : PyStr} {v : Json} {depth : Nat} (k : PyStr)
    (acc : List (PyStr × Json)) (hkey : Unsplit key) (h : Reads limit depth text v)
    (hdepth : stack.length + 1 + depth ≤ limit) :
    ∃ s, Runs limit ⟨.objectKey, .obj acc k :: stack⟩ (strText key ++ 58 :: 32 :: text) s ∧
      Settled v (.obj acc key :: stack) s := by
  obtain ⟨s, hruns, hsettled⟩ := h.settles (.obj acc key :: stack) (by simpa using hdepth)
  exact ⟨s, (Runs.key hkey).append (.cons rfl (.cons rfl hruns)), hsettled⟩

/-- A key that is not there yet goes to the end. -/
theorem put_of_fresh {key : PyStr} {v : Json} {acc items : List (PyStr × Json)}
    (h : ((acc ++ (key, v) :: items).map Prod.fst).Nodup) :
    Dict.put key v acc = acc ++ [(key, v)] := by
  refine Dict.put_of_not_mem fun hin => ?_
  rw [List.map_append, List.nodup_append] at h
  exact h.2.2 key hin key (by simp) rfl

theorem ReadsFields.runs {depth : Nat} {items acc : List (PyStr × Json)} {k : PyStr}
    (h : ReadsFields limit depth text items) (hnodup : ((acc ++ items).map Prod.fst).Nodup)
    (hdepth : stack.length + 1 + depth ≤ limit) :
    Runs limit ⟨.objectKey, .obj acc k :: stack⟩ (text ++ [125])
      (complete (.obj (acc ++ items)) stack) := by
  induction h generalizing acc k with
  | @last key text v hkey h =>
    obtain ⟨s, hruns, hsettled⟩ := Runs.field k acc hkey h hdepth
    have hput := put_of_fresh hnodup
    refine hruns.snoc ?_
    rw [hsettled.step (.inr (.inr rfl)), ← hput]
    rfl
  | @more key text rest v items hkey h hrest ih =>
    obtain ⟨s, hruns, hsettled⟩ := Runs.field k acc hkey h hdepth
    have hput := put_of_fresh hnodup
    have hsplit : acc ++ (key, v) :: items = (acc ++ [(key, v)]) ++ items := by simp
    rw [hsplit] at hnodup ⊢
    have hcomma : step limit s 44 = .ok ⟨.objectKey, .obj (acc ++ [(key, v)]) key :: stack⟩ := by
      rw [hsettled.step (.inl rfl), ← hput]
      rfl
    rw [List.append_assoc]
    exact hruns.append (.cons hcomma (.cons rfl (ih hnodup)))

theorem ReadsFields.starts {depth : Nat} {items : List (PyStr × Json)}
    (h : ReadsFields limit depth text items) : ∃ rest, text = 34 :: rest := by
  cases h with
  | last _ _ => exact ⟨_, rfl⟩
  | more _ _ _ => exact ⟨_, rfl⟩

theorem reads_obj_nil : Reads limit 1 [123, 125] (.obj []) := by
  refine ⟨⟨123, _, rfl, rfl, by decide⟩, fun stack hdepth => ⟨complete (.obj []) stack, ?_, .complete⟩⟩
  exact .cons (step_open (by omega) (.inr ⟨rfl, rfl, rfl⟩)) (.one rfl)

theorem reads_obj {depth : Nat} {items : List (PyStr × Json)}
    (h : ReadsFields limit depth text items) (hnodup : (items.map Prod.fst).Nodup) :
    Reads limit (depth + 1) (123 :: (text ++ [125])) (.obj items) := by
  refine ⟨⟨123, _, rfl, rfl, by decide⟩, fun stack hdepth => ⟨complete (.obj items) stack, ?_, .complete⟩⟩
  obtain ⟨rest, rfl⟩ := h.starts
  have hfields : Runs limit ⟨.objectKey, .obj [] [] :: stack⟩ (34 :: (rest ++ [125]))
      (complete (.obj items) stack) := h.runs hnodup (by omega)
  exact .cons (step_open (by omega) (.inr ⟨rfl, rfl, rfl⟩)) (hfields.step_eq rfl)

/-! ## Documents -/

theorem Reads.mono {depth depth' : Nat} {v : Json} (h : Reads limit depth text v)
    (hle : depth ≤ depth') : Reads limit depth' text v :=
  ⟨h.starts, fun stack hdepth => h.settles stack (by omega)⟩

theorem ReadsItems.mono {depth depth' : Nat} {items : List Json}
    (h : ReadsItems limit depth text items) (hle : depth ≤ depth') :
    ReadsItems limit depth' text items := by
  induction h with
  | last h => exact .last (h.mono hle)
  | more h _ ih => exact .more (h.mono hle) ih

theorem ReadsFields.mono {depth depth' : Nat} {items : List (PyStr × Json)}
    (h : ReadsFields limit depth text items) (hle : depth ≤ depth') :
    ReadsFields limit depth' text items := by
  induction h with
  | last hkey h => exact .last hkey (h.mono hle)
  | more hkey h _ ih => exact .more hkey (h.mono hle) ih

mutual

/-- How many containers are open at once in a document. -/
def depth : Json → Nat
  | .arr items => depthItems items + 1
  | .obj items => depthFields items + 1
  | _ => 0

def depthItems : List Json → Nat
  | [] => 0
  | v :: rest => max (depth v) (depthItems rest)

def depthFields : List (PyStr × Json) → Nat
  | [] => 0
  | (_, v) :: rest => max (depth v) (depthFields rest)

end

section Documents

variable (limit : Nat) (floatText : PyFloat → PyStr)

mutual

/-- A document whose text can be read back: no string is split, each float's text is read as the float,
    and no object has a key twice. -/
def Legible : Json → Prop
  | .float x => Reads limit 0 (floatText x) (.float x)
  | .str s => Unsplit s
  | .arr items => LegibleItems items
  | .obj items => (items.map Prod.fst).Nodup ∧ LegibleFields items
  | _ => True

def LegibleItems : List Json → Prop
  | [] => True
  | v :: rest => Legible v ∧ LegibleItems rest

def LegibleFields : List (PyStr × Json) → Prop
  | [] => True
  | (key, v) :: rest => Unsplit key ∧ Legible v ∧ LegibleFields rest

end

end Documents

variable {floatText : PyFloat → PyStr}

theorem dumpsItems_cons {v : Json} {items : List Json}
    (h : dumpsItems floatText (v :: items) = .ok text) : ∃ first, dumps floatText v = .ok first ∧
      ((items = [] ∧ text = first) ∨ (items ≠ [] ∧ ∃ rest, dumpsItems floatText items = .ok rest ∧
        text = first ++ 44 :: 32 :: rest)) := by
  rw [dumpsItems] at h
  cases hfirst : dumps floatText v with
  | error e =>
    rw [hfirst] at h
    cases h
  | ok first =>
    rw [hfirst] at h
    refine ⟨first, rfl, ?_⟩
    cases items with
    | nil => exact .inl ⟨rfl, (Except.ok.inj h).symm⟩
    | cons next items =>
      cases hrest : dumpsItems floatText (next :: items) with
      | error e => simp [hrest, bind, Except.bind] at h
      | ok rest =>
        simp only [hrest, bind, Except.bind, pure, Except.pure, Except.ok.injEq] at h
        exact .inr ⟨List.cons_ne_nil _ _, rest, rfl, h.symm⟩

theorem dumpsFields_cons {key : PyStr} {v : Json} {items : List (PyStr × Json)}
    (h : dumpsFields floatText ((key, v) :: items) = .ok text) :
    ∃ value, dumps floatText v = .ok value ∧
      ((items = [] ∧ text = strText key ++ 58 :: 32 :: value) ∨
        (items ≠ [] ∧ ∃ rest, dumpsFields floatText items = .ok rest ∧
          text = (strText key ++ 58 :: 32 :: value) ++ 44 :: 32 :: rest)) := by
  rw [dumpsFields] at h
  cases hvalue : dumps floatText v with
  | error e =>
    rw [hvalue] at h
    cases h
  | ok value =>
    rw [hvalue] at h
    refine ⟨value, rfl, ?_⟩
    cases items with
    | nil => exact .inl ⟨rfl, (Except.ok.inj h).symm⟩
    | cons next items =>
      cases hrest : dumpsFields floatText (next :: items) with
      | error e => simp [hrest, bind, Except.bind] at h
      | ok rest =>
        simp only [hrest, bind, Except.bind, pure, Except.pure, Except.ok.injEq] at h
        exact .inr ⟨List.cons_ne_nil _ _, rest, rfl, h.symm⟩

theorem dumps_bracket {text : PyStr} {x : Except Exc PyStr} {f : PyStr → PyStr}
    (h : (do return f (← x) : Except Exc PyStr) = .ok text) :
    ∃ inner, x = .ok inner ∧ text = f inner := by
  cases x with
  | error e => cases h
  | ok inner => exact ⟨inner, rfl, (Except.ok.inj h).symm⟩

mutual

/-- **A text that `dumps` writes** is read as the document it was written of. -/
theorem reads_dumps : ∀ (v : Json), Legible limit floatText v → ∀ {text : PyStr},
    dumps floatText v = .ok text → Reads limit v.depth text v
  | .null => by
    intro _ text h
    rw [dumps] at h
    obtain rfl := Except.ok.inj h
    exact reads_null
  | .bool true => by
    intro _ text h
    rw [dumps] at h
    obtain rfl := Except.ok.inj h
    exact reads_true
  | .bool false => by
    intro _ text h
    rw [dumps] at h
    obtain rfl := Except.ok.inj h
    exact reads_false
  | .int n => by
    intro _ text h
    rw [dumps] at h
    exact reads_int h
  | .float x => by
    intro hv text h
    rw [dumps] at h
    obtain rfl := Except.ok.inj h
    rw [Legible] at hv
    exact hv
  | .str s => by
    intro hv text h
    rw [dumps] at h
    obtain rfl := Except.ok.inj h
    rw [Legible] at hv
    exact reads_str hv
  | .arr items => by
    intro hv text h
    rw [dumps] at h
    rw [Legible] at hv
    obtain ⟨inner, hinner, rfl⟩ := dumps_bracket h
    rcases readsItems_dumps items hv hinner with ⟨rfl, rfl⟩ | hitems
    · exact reads_arr_nil
    · exact reads_arr hitems
  | .obj items => by
    intro hv text h
    rw [dumps] at h
    rw [Legible] at hv
    obtain ⟨inner, hinner, rfl⟩ := dumps_bracket h
    rcases readsFields_dumps items hv.2 hinner with ⟨rfl, rfl⟩ | hfields
    · exact reads_obj_nil
    · exact reads_obj hfields hv.1

theorem readsItems_dumps : ∀ (items : List Json), LegibleItems limit floatText items →
    ∀ {text : PyStr}, dumpsItems floatText items = .ok text →
      (items = [] ∧ text = []) ∨ ReadsItems limit (depthItems items) text items
  | [] => by
    intro _ text h
    rw [dumpsItems] at h
    exact .inl ⟨rfl, (Except.ok.inj h).symm⟩
  | v :: items => by
    intro hv text h
    rw [LegibleItems] at hv
    right
    obtain ⟨first, hfirst, hend⟩ := dumpsItems_cons h
    have hread := (reads_dumps v hv.1 hfirst).mono (le_max_left v.depth (depthItems items))
    rcases hend with ⟨rfl, rfl⟩ | ⟨hne, rest, hrest, rfl⟩
    · exact .last hread
    · rcases readsItems_dumps items hv.2 hrest with ⟨hnil, -⟩ | hitems
      · exact absurd hnil hne
      · exact .more hread (hitems.mono (le_max_right ..))

theorem readsFields_dumps : ∀ (items : List (PyStr × Json)), LegibleFields limit floatText items →
    ∀ {text : PyStr}, dumpsFields floatText items = .ok text →
      (items = [] ∧ text = []) ∨ ReadsFields limit (depthFields items) text items
  | [] => by
    intro _ text h
    rw [dumpsFields] at h
    exact .inl ⟨rfl, (Except.ok.inj h).symm⟩
  | (key, v) :: items => by
    intro hv text h
    rw [LegibleFields] at hv
    right
    obtain ⟨value, hvalue, hend⟩ := dumpsFields_cons h
    have hread := (reads_dumps v hv.2.1 hvalue).mono (le_max_left v.depth (depthFields items))
    rcases hend with ⟨rfl, rfl⟩ | ⟨hne, rest, hrest, rfl⟩
    · exact .last hv.1 hread
    · rcases readsFields_dumps items hv.2.2 hrest with ⟨hnil, -⟩ | hfields
      · exact absurd hnil hne
      · exact .more hv.1 hread (hfields.mono (le_max_right ..))

end

/-- **`json.loads(json.dumps(v))`** is `v`. -/
theorem loads_dumps {v : Json} {text : PyStr} (hv : Legible limit floatText v)
    (hdepth : v.depth ≤ limit) (h : dumps floatText v = .ok text) : loadsText limit text = .ok v :=
  (reads_dumps v hv h).loads hdepth

/-! ## Lists of strings -/

theorem hexDigit_ascii (n : Nat) : hexDigit (n % 16) < 128 := by
  unfold hexDigit
  split <;> omega

theorem unitText_ascii (n : Nat) : ∀ c ∈ unitText n, c < 128 := by
  intro c hc
  simp only [unitText, List.mem_cons, List.not_mem_nil, or_false] at hc
  rcases hc with rfl | rfl | rfl | rfl | rfl | rfl
  · decide
  · decide
  · exact hexDigit_ascii _
  · exact hexDigit_ascii _
  · exact hexDigit_ascii _
  · exact hexDigit_ascii _

theorem charText_ascii (n : Nat) : ∀ c ∈ charText n, c < 128 := by
  intro c hc
  have hform := charForm n
  generalize charText n = text at hform hc
  cases hform with
  | escaped hd hu hlow =>
    simp only [List.mem_cons, List.not_mem_nil, or_false] at hc
    omega
  | plain hquote hslash hrange =>
    obtain rfl := List.mem_singleton.mp hc
    omega
  | unit h => exact unitText_ascii n c hc
  | pair h =>
    rcases List.mem_append.mp hc with h | h
    · exact unitText_ascii _ c h
    · exact unitText_ascii _ c h

theorem strText_ascii (s : PyStr) : ∀ c ∈ strText s, c < 128 := by
  intro c hc
  rcases List.mem_append.mp hc with hc | hc
  · rcases List.mem_cons.mp hc with rfl | hc
    · decide
    · obtain ⟨n, -, hn⟩ := List.mem_flatMap.mp hc
      exact charText_ascii n c hn
  · obtain rfl := List.mem_singleton.mp hc
    decide

theorem dumpsItems_strings (floatText : PyFloat → PyStr) (items : List PyStr) : ∃ text,
    dumpsItems floatText (items.map .str) = .ok text ∧ ∀ c ∈ text, c < 128 := by
  induction items with
  | nil => exact ⟨[], rfl, fun c hc => by cases hc⟩
  | cons s rest ih =>
    obtain ⟨text, htext, hascii⟩ := ih
    cases rest with
    | nil => exact ⟨strText s, rfl, strText_ascii s⟩
    | cons next rest =>
      refine ⟨strText s ++ 44 :: 32 :: text, ?_, ?_⟩
      · rw [List.map_cons, dumpsItems, dumps]
        rw [List.map_cons] at htext ⊢
        simp [htext, bind, Except.bind, pure, Except.pure]
      · intro c hc
        simp only [List.mem_append, List.mem_cons] at hc
        rcases hc with hc | rfl | rfl | hc
        · exact strText_ascii s c hc
        · decide
        · decide
        · exact hascii c hc

/-- A list of strings has a text, and it is ASCII. -/
theorem dumps_strings (floatText : PyFloat → PyStr) (items : List PyStr) : ∃ text,
    dumps floatText (.arr (items.map .str)) = .ok (91 :: text) ∧ ∀ c ∈ 91 :: text, c < 128 := by
  obtain ⟨text, htext, hascii⟩ := dumpsItems_strings floatText items
  refine ⟨text ++ [93], ?_, ?_⟩
  · rw [dumps, htext]
    rfl
  · intro c hc
    simp only [List.mem_cons, List.mem_append, List.not_mem_nil, or_false] at hc
    rcases hc with rfl | hc | rfl
    · decide
    · exact hascii c hc
    · decide

theorem legible_strings {items : List PyStr} (h : ∀ s ∈ items, Unsplit s) :
    Legible limit floatText (.arr (items.map .str)) := by
  rw [Legible]
  induction items with
  | nil => trivial
  | cons s rest ih =>
    rw [List.map_cons, LegibleItems, Legible]
    exact ⟨h s List.mem_cons_self, ih fun t ht => h t (List.mem_cons_of_mem s ht)⟩

theorem depth_strings (items : List PyStr) : depth (.arr (items.map .str)) = 1 := by
  have hitems : depthItems (items.map .str) = 0 := by
    induction items with
    | nil => rfl
    | cons s rest ih =>
      rw [List.map_cons, depthItems, ih]
      rfl
  rw [depth, hitems]

end Py.Json
