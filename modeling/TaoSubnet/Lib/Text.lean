import Mathlib.Data.List.DropRight
import Mathlib.Data.List.TakeDrop
import TaoSubnet.Lib.Substring

/-!
# Text — the string operations programs split their input with

`isSpace` is the whitespace of `str.strip`, `str.split` and of `\s` in a text pattern;
`isLineBreak` is the larger set `str.splitlines` cuts at. Everything works on lists of characters, so a
statement about "every string" is an induction over a list; `strip`, `splitLines` and `isInfixOf`
on `String` are the same functions seen from outside.
-/

namespace Py

/-- `chr(n).isspace()`. -/
def isSpaceCode (n : Nat) : Bool :=
  (9 ≤ n && n ≤ 13) || (28 ≤ n && n ≤ 32) || n == 0x85 || n == 0xA0 || n == 0x1680 ||
    (0x2000 ≤ n && n ≤ 0x200A) || n == 0x2028 || n == 0x2029 || n == 0x202F || n == 0x205F ||
    n == 0x3000

def isSpace (c : Char) : Bool := isSpaceCode c.toNat

/-- The characters `str.splitlines` ends a line at. -/
def isLineBreak (c : Char) : Bool :=
  let n := c.toNat
  (10 ≤ n && n ≤ 13) || (28 ≤ n && n ≤ 30) || n == 0x85 || n == 0x2028 || n == 0x2029

/-- `s.rstrip()`. -/
def rstripChars (s : List Char) : List Char := (s.reverse.dropWhile isSpace).reverse

/-- `s.strip()`. -/
def stripChars (s : List Char) : List Char := rstripChars (s.dropWhile isSpace)

/-- `s.splitlines()`: `cur` is the line being read, reversed, and a final line is kept only when
    it is not empty. `cr` says that a carriage return has just ended a line, so that a line feed
    after it ends no second one. -/
def splitLinesChars (cur : List Char) (cr : Bool) : List Char → List (List Char)
  | [] => if cur.isEmpty then [] else [cur.reverse]
  | c :: rest =>
    if c = '\n' ∧ cr = true then splitLinesChars cur false rest
    else if isLineBreak c then cur.reverse :: splitLinesChars [] (c == '\r') rest
    else splitLinesChars (c :: cur) false rest

/-- `needle in haystack`. -/
def isSubstring (needle haystack : List Char) : Bool :=
  haystack.tails.any fun t => needle.isPrefixOf t

/-- The longest beginning of characters in `p`, when there is one, and the rest. -/
def span1 (p : Char → Bool) (s : List Char) : Option (List Char × List Char) :=
  match s.span p with
  | ([], _) => none
  | found => some found

/-- What follows one given character. -/
def expect (c : Char) : List Char → Option (List Char)
  | d :: rest => if d = c then some rest else none
  | [] => none

/-- What follows a given beginning. -/
def dropPrefix? : List Char → List Char → Option (List Char)
  | [], s => some s
  | _ :: _, [] => none
  | p :: ps, c :: cs => if p = c then dropPrefix? ps cs else none

/-- `s.strip()`. -/
def strip (s : String) : String := String.ofList (stripChars s.toList)

/-- `s.splitlines()`. -/
def splitLines (s : String) : List String := (splitLinesChars [] false s.toList).map String.ofList

/-- `needle in haystack`. -/
def isIn (needle haystack : String) : Bool := isSubstring needle.toList haystack.toList

/-- Two lower-case hexadecimal digits. -/
def hex2 (n : Nat) : List Char :=
  let digit (d : Nat) : Char := if d < 10 then Char.ofNat (48 + d) else Char.ofNat (87 + d)
  [digit (n / 16 % 16), digit (n % 16)]

/-- One character between quotes. -/
def reprChar (quote c : Char) : List Char :=
  if c = '\\' then ['\\', '\\']
  else if c = quote then ['\\', c]
  else if c = '\n' then ['\\', 'n']
  else if c = '\r' then ['\\', 'r']
  else if c = '\t' then ['\\', 't']
  else if c.toNat < 32 ∨ c.toNat = 127 then '\\' :: 'x' :: hex2 c.toNat
  else [c]

/-- `repr(s)`: single quotes unless only they occur, ASCII control characters escaped. -/
def reprStr (s : String) : String :=
  let quote : Char := if s.toList.contains '\'' && !s.toList.contains '"' then '"' else '\''
  String.ofList (quote :: s.toList.flatMap (reprChar quote) ++ [quote])

/-- `repr` of a list of strings. -/
def reprStrList (l : List String) : String :=
  "[" ++ ", ".intercalate (l.map reprStr) ++ "]"

/-- `c.lower()`, exact wherever the result is ASCII: besides `A`-`Z` only the Kelvin sign
    lowercases into ASCII, and every other character stays outside it either way. -/
def lowerChar (c : Char) : Char :=
  if 'A' ≤ c ∧ c ≤ 'Z' then Char.ofNat (c.toNat + 32)
  else if c.toNat = 0x212A then 'k'
  else c

/-- `s.lower()`, for comparing with ASCII text. -/
def lower (s : String) : String := String.ofList (s.toList.map lowerChar)

/-! ## Reading a text from the left -/

theorem dropPrefix?_append (label rest : List Char) :
    dropPrefix? label (label ++ rest) = some rest := by
  induction label with
  | nil => rfl
  | cons c label ih =>
    rw [List.cons_append, dropPrefix?, if_pos rfl, ih]

/-- What is found begins with the first character of the label. -/
theorem dropPrefix?_eq_none {c d : Char} {label rest : List Char} (h : c ≠ d) :
    dropPrefix? (c :: label) (d :: rest) = none := by
  rw [dropPrefix?, if_neg h]

/-- A word is read to its end when the character after it cannot belong to it. -/
theorem span1_append {p : Char → Bool} {word rest : List Char} (hne : word ≠ [])
    (hword : ∀ c ∈ word, p c = true) (hrest : ∀ c, rest.head? = some c → p c = false) :
    span1 p (word ++ rest) = some (word, rest) := by
  have htake : (word ++ rest).takeWhile p = word := by
    rw [List.takeWhile_append_of_pos hword]
    cases rest with
    | nil => simp
    | cons c rest =>
      have hc := hrest c rfl
      simp [hc]
  have hdrop : (word ++ rest).dropWhile p = rest := by
    rw [List.dropWhile_append_of_pos hword]
    cases rest with
    | nil => rfl
    | cons c rest =>
      have hc := hrest c rfl
      simp [hc]
  unfold span1
  rw [List.span_eq_takeWhile_dropWhile, htake, hdrop]
  cases word with
  | nil => exact absurd rfl hne
  | cons c word => rfl

/-- Nothing is read where the first character does not belong. -/
theorem span1_eq_none {p : Char → Bool} {c : Char} {rest : List Char} (h : p c = false) :
    span1 p (c :: rest) = none := by
  unfold span1
  rw [List.span_eq_takeWhile_dropWhile, List.takeWhile_cons, if_neg (by simp [h])]

/-- What was read: some characters of the kind, and the rest. -/
theorem span1_some {p : Char → Bool} {s word rest : List Char} (h : span1 p s = some (word, rest)) :
    word ≠ [] ∧ (∀ c ∈ word, p c = true) ∧ s = word ++ rest := by
  unfold span1 at h
  rw [List.span_eq_takeWhile_dropWhile] at h
  split at h
  · cases h
  · rename_i found hnonempty
    cases h
    refine ⟨fun hempty => hnonempty (s.dropWhile p) (by rw [hempty]),
      fun c hc => List.mem_takeWhile_imp hc, ?_⟩
    exact List.takeWhile_append_dropWhile.symm

theorem expect_cons (c : Char) (rest : List Char) : expect c (c :: rest) = some rest := by
  simp [expect]

/-! ## Line breaks -/

theorem isSpace_of_isLineBreak {c : Char} (h : isLineBreak c = true) : isSpace c = true := by
  simp only [isLineBreak, isSpace, isSpaceCode, Bool.or_eq_true, Bool.and_eq_true,
    decide_eq_true_eq, beq_iff_eq] at h ⊢
  omega

/-- The lines of a text that has no line feed: what `splitlines` makes of it once it is ended. -/
def pieces (line : List Char) : List (List Char) := splitLinesChars [] false (line ++ ['\n'])

/-- A line feed ends what is being read, whatever comes after it. -/
theorem splitLinesChars_append {line : List Char} (h : '\n' ∉ line) {cur : List Char} {cr : Bool}
    (hcur : cr = true → cur = []) (rest : List Char) :
    splitLinesChars cur cr (line ++ '\n' :: rest) =
      splitLinesChars cur cr (line ++ ['\n']) ++ splitLinesChars [] false rest := by
  induction line generalizing cur cr with
  | nil =>
    cases cr with
    | true =>
      rw [hcur rfl]
      simp [splitLinesChars]
    | false => simp [splitLinesChars, isLineBreak]
  | cons c line ih =>
    have hc : c ≠ '\n' := fun hsame => h (hsame ▸ List.mem_cons_self)
    have hline : '\n' ∉ line := fun hmem => h (List.mem_cons_of_mem c hmem)
    simp only [List.cons_append, splitLinesChars, hc, false_and, if_false]
    split
    · rw [ih hline (fun _ => rfl), List.cons_append]
    · exact ih hline (fun hcr => absurd hcr Bool.false_ne_true)

theorem splitLinesChars_line {line : List Char} (h : '\n' ∉ line) (rest : List Char) :
    splitLinesChars [] false (line ++ '\n' :: rest) =
      pieces line ++ splitLinesChars [] false rest :=
  splitLinesChars_append h (fun _ => rfl) rest

/-- A piece has no breaks, and nothing that was not read. -/
theorem mem_splitLinesChars {s : List Char} {cur : List Char} {cr : Bool}
    (hcur : ∀ c ∈ cur, isLineBreak c = false) :
    ∀ piece ∈ splitLinesChars cur cr s, ∀ c ∈ piece,
      (c ∈ cur ∨ c ∈ s) ∧ isLineBreak c = false := by
  induction s generalizing cur cr with
  | nil =>
    intro piece hpiece c hc
    rw [splitLinesChars] at hpiece
    split at hpiece
    · cases hpiece
    · rw [List.mem_singleton.mp hpiece, List.mem_reverse] at hc
      exact ⟨.inl hc, hcur c hc⟩
  | cons d s ih =>
    intro piece hpiece c hc
    rw [splitLinesChars] at hpiece
    split at hpiece
    · obtain ⟨hfrom, hbreak⟩ := ih hcur piece hpiece c hc
      exact ⟨hfrom.imp_right (List.mem_cons_of_mem d), hbreak⟩
    · split at hpiece
      · rcases List.mem_cons.mp hpiece with rfl | hlater
        · have hmem := List.mem_reverse.mp hc
          exact ⟨.inl hmem, hcur c hmem⟩
        · obtain ⟨hfrom, hbreak⟩ := ih (by simp) piece hlater c hc
          refine ⟨.inr (List.mem_cons_of_mem d ?_), hbreak⟩
          exact hfrom.resolve_left List.not_mem_nil
      · rename_i hbreaks
        obtain ⟨hfrom, hbreak⟩ := ih (by simpa [hbreaks] using hcur) piece hpiece c hc
        refine ⟨?_, hbreak⟩
        rcases hfrom with hcurrent | hrest
        · rcases List.mem_cons.mp hcurrent with rfl | hold
          · exact .inr List.mem_cons_self
          · exact .inl hold
        · exact .inr (List.mem_cons_of_mem d hrest)

/-- The first piece goes up to the first break; the others lie after it. -/
theorem splitLinesChars_first {line : List Char} (cur : List Char) : ∃ others,
    splitLinesChars cur false (line ++ ['\n']) =
      (cur.reverse ++ line.takeWhile fun c => !isLineBreak c) :: others ∧
    ∀ piece ∈ others, ∀ c ∈ piece, c ∈ line.dropWhile fun c => !isLineBreak c := by
  induction line generalizing cur with
  | nil => exact ⟨[], by simp [splitLinesChars, isLineBreak], by simp⟩
  | cons d line ih =>
    cases hbreak : isLineBreak d with
    | true =>
      refine ⟨splitLinesChars [] (d == '\r') (line ++ ['\n']), by simp [splitLinesChars, hbreak], ?_⟩
      intro piece hpiece c hc
      obtain ⟨hfrom, hkept⟩ := mem_splitLinesChars (by simp) piece hpiece c hc
      have hmem := hfrom.resolve_left List.not_mem_nil
      rcases List.mem_append.mp hmem with hline | hend
      · simp [hbreak, hline]
      · -- the line feed at the end is in no piece
        rw [List.mem_singleton.mp hend] at hkept
        exact absurd hkept (by decide)
    | false =>
      obtain ⟨others, hsplit, hothers⟩ := ih (d :: cur)
      refine ⟨others, ?_, ?_⟩
      · rw [List.cons_append, splitLinesChars, if_neg (by simp), if_neg (by simp [hbreak]), hsplit]
        simp [hbreak]
      · simpa [hbreak] using hothers

theorem pieces_first (line : List Char) : ∃ others,
    pieces line = (line.takeWhile fun c => !isLineBreak c) :: others ∧
    ∀ piece ∈ others, ∀ c ∈ piece, c ∈ line.dropWhile fun c => !isLineBreak c :=
  splitLinesChars_first []

/-! ## Trailing whitespace -/

theorem rstripChars_eq (s : List Char) : rstripChars s = s.rdropWhile isSpace := rfl

/-- A text is what is left of it by `rstrip`, and whitespace. -/
theorem rstripChars_append (s : List Char) :
    ∃ blank, s = rstripChars s ++ blank ∧ ∀ c ∈ blank, isSpace c = true :=
  ⟨s.rtakeWhile isSpace, (List.rdropWhile_append_rtakeWhile).symm, fun _ hc =>
    List.mem_rtakeWhile_imp hc⟩

theorem rstripChars_of_blank {s blank : List Char} (h : ∀ c ∈ blank, isSpace c = true) :
    rstripChars (s ++ blank) = rstripChars s := by
  unfold rstripChars
  rw [List.reverse_append, List.dropWhile_append_of_pos]
  intro c hc
  exact h c (List.mem_reverse.mp hc)

/-- Cutting a text at its first break leaves its `rstrip` alone just when only whitespace comes
    after that break. -/
theorem rstripChars_first_piece {s : List Char} :
    rstripChars (s.takeWhile fun c => !isLineBreak c) = rstripChars s ↔
      ∀ c ∈ rstripChars s, isLineBreak c = false := by
  constructor
  · intro h c hc
    rw [← h] at hc
    have hmem := (List.rdropWhile_prefix isSpace _).subset hc
    simpa using List.mem_takeWhile_imp hmem
  · intro h
    obtain ⟨blank, hs, hblank⟩ := rstripChars_append s
    have htake : s.takeWhile (fun c => !isLineBreak c) =
        rstripChars s ++ blank.takeWhile fun c => !isLineBreak c := by
      conv_lhs => rw [hs]
      apply List.takeWhile_append_of_pos
      intro c hc
      simp [h c hc]
    rw [htake, rstripChars_of_blank fun c hc => hblank c (List.takeWhile_subset _ hc)]
    exact List.rdropWhile_idempotent isSpace s

/-- What lies after the first break is whitespace then. -/
theorem blank_after_first_piece {s : List Char} (h : ∀ c ∈ rstripChars s, isLineBreak c = false) :
    ∀ c ∈ s.dropWhile (fun c => !isLineBreak c), isSpace c = true := by
  obtain ⟨blank, hs, hblank⟩ := rstripChars_append s
  have hdrop : s.dropWhile (fun c => !isLineBreak c) =
      blank.dropWhile fun c => !isLineBreak c := by
    conv_lhs => rw [hs]
    apply List.dropWhile_append_of_pos
    intro c hc
    simp [h c hc]
  rw [hdrop]
  intro c hc
  exact hblank c ((List.dropWhile_suffix _).subset hc)

/-! ## Substrings -/

theorem isSubstring_iff {needle haystack : List Char} :
    isSubstring needle haystack = true ↔ needle <:+: haystack :=
  occursIn_iff

/-- A beginning without a separator ends before the separator. -/
theorem prefix_append_cons {needle a b : List Char} {c : Char} (h : c ∉ needle) :
    needle <+: a ++ c :: b ↔ needle <+: a := by
  induction needle generalizing a with
  | nil => simp
  | cons d needle ih =>
    have hd : d ≠ c := fun hsame => h (hsame ▸ List.mem_cons_self)
    have hneedle : c ∉ needle := fun hmem => h (List.mem_cons_of_mem d hmem)
    cases a with
    | nil => simp [hd]
    | cons e a =>
      rw [List.cons_append, List.cons_prefix_cons, List.cons_prefix_cons, ih hneedle]

/-- A text without a separator stands on one side of it. -/
theorem infix_append_cons {needle a b : List Char} {c : Char} (h : c ∉ needle) :
    needle <:+: a ++ c :: b ↔ needle <:+: a ∨ needle <:+: b := by
  induction a with
  | nil =>
    have hhere : needle <+: c :: b ↔ needle <+: [] := prefix_append_cons (a := []) h
    rw [List.nil_append, List.infix_cons_iff, hhere, List.prefix_nil, List.infix_nil]
  | cons d a ih =>
    have hhere : needle <+: d :: (a ++ c :: b) ↔ needle <+: d :: a :=
      prefix_append_cons (a := d :: a) h
    rw [List.cons_append, List.infix_cons_iff, List.infix_cons_iff, ih, hhere, or_assoc]

theorem infix_cons_skip {needle b : List Char} {c : Char} (hne : needle ≠ []) (h : c ∉ needle) :
    needle <:+: c :: b ↔ needle <:+: b := by
  have hside := infix_append_cons (a := []) (b := b) h
  rw [List.nil_append, List.infix_nil, or_iff_right hne] at hside
  exact hside

/-- A text that begins with a separator is not found before the first one. -/
theorem cons_infix_append {rest a b : List Char} {c : Char} (h : c ∉ a) :
    c :: rest <:+: a ++ b ↔ c :: rest <:+: b := by
  induction a with
  | nil => rfl
  | cons d a ih =>
    have hd : c ≠ d := fun hsame => h (hsame ▸ List.mem_cons_self)
    have hno : ¬ c :: rest <+: d :: (a ++ b) := fun hbegin =>
      hd (List.cons_prefix_cons.mp hbegin).1
    rw [List.cons_append, List.infix_cons_iff, or_iff_right hno,
      ih fun hmem => h (List.mem_cons_of_mem d hmem)]

/-- Two words before the same separator are compared whole. -/
theorem append_cons_prefix {a b x y : List Char} {c : Char} (ha : c ∉ a) (hb : c ∉ b) :
    a ++ c :: x <+: b ++ c :: y ↔ a = b ∧ x <+: y := by
  induction a generalizing b with
  | nil =>
    cases b with
    | nil => simp
    | cons e b =>
      have he : c ≠ e := fun hsame => hb (hsame ▸ List.mem_cons_self)
      simp [List.cons_prefix_cons, he]
  | cons d a ih =>
    have hd : d ≠ c := fun hsame => ha (hsame ▸ List.mem_cons_self)
    have hrest : c ∉ a := fun hmem => ha (List.mem_cons_of_mem d hmem)
    cases b with
    | nil => simp [hd]
    | cons e b =>
      have hother : c ∉ b := fun hmem => hb (List.mem_cons_of_mem e hmem)
      rw [List.cons_append, List.cons_append, List.cons_prefix_cons, ih hrest hother,
        List.cons.injEq, and_assoc]

end Py
