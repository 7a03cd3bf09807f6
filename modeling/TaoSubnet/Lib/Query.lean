import TaoSubnet.Lib.Dict
import TaoSubnet.Lib.JsonFile
import TaoSubnet.Lib.Url

/-!
# What a server reads of a URL

`urllib.parse` from the other end: the request target taken apart, a query string taken apart, and
percent-encoding undone. Whatever was escaped byte by byte is read as the text it was.
-/

namespace Py

/-! ## UTF-8 is read as it was written -/

namespace Json

theorem utf8Step_more {left low high value b : Nat} (h : low ≤ b ∧ b ≤ high) (text : PyStr) :
    utf8Step false ⟨left + 2, low, high, value, text⟩ b =
      some ⟨left + 1, 0x80, 0xBF, 64 * value + b % 64, text⟩ := by
  unfold utf8Step
  rw [if_neg (Nat.succ_ne_zero _), if_pos h]
  rfl

theorem utf8Step_last {low high value b : Nat} (h : low ≤ b ∧ b ≤ high) (text : PyStr) :
    utf8Step false ⟨1, low, high, value, text⟩ b = some { text := (64 * value + b % 64) :: text } := by
  unfold utf8Step
  rw [if_neg Nat.one_ne_zero, if_pos h]
  rfl

/-- The first of three bytes, and what it asks of the second. -/
theorem utf8Step_three {n : Nat} (hlow : 0x800 ≤ n) (hhigh : n < 0x10000)
    (hsurrogate : ¬ (0xD800 ≤ n ∧ n ≤ 0xDFFF)) (text : PyStr) :
    ∃ low high, utf8Step false { text := text } (0xE0 + n / 4096) =
      some ⟨2, low, high, n / 4096, text⟩ ∧
      low ≤ 0x80 + n / 64 % 64 ∧ 0x80 + n / 64 % 64 ≤ high := by
  unfold utf8Step
  dsimp only
  rw [if_pos rfl, if_neg (by omega), if_neg (by omega)]
  by_cases hfirst : n / 4096 = 0
  · refine ⟨0xA0, 0xBF, ?_, by omega, by omega⟩
    rw [if_pos (by omega), hfirst]
  · rw [if_neg (by omega)]
    by_cases hlast : n / 4096 = 13
    · refine ⟨0x80, 0x9F, ?_, by omega, by omega⟩
      rw [if_pos (by omega), hlast]
      rfl
    · refine ⟨0x80, 0xBF, ?_, by omega, by omega⟩
      have hvalue : (0xE0 + n / 4096) % 16 = n / 4096 := by omega
      rw [if_neg (by omega), if_pos (by omega), hvalue]

/-- The first of four bytes, and what it asks of the second. -/
theorem utf8Step_four {n : Nat} (hlow : 0x10000 ≤ n) (hhigh : n < 0x110000) (text : PyStr) :
    ∃ low high, utf8Step false { text := text } (0xF0 + n / 262144) =
      some ⟨3, low, high, n / 262144, text⟩ ∧
      low ≤ 0x80 + n / 4096 % 64 ∧ 0x80 + n / 4096 % 64 ≤ high := by
  unfold utf8Step
  dsimp only
  rw [if_pos rfl, if_neg (by omega), if_neg (by omega), if_neg (by omega), if_neg (by omega),
    if_neg (by omega)]
  by_cases hfirst : n / 262144 = 0
  · refine ⟨0x90, 0xBF, ?_, by omega, by omega⟩
    rw [if_pos (by omega), hfirst]
  · rw [if_neg (by omega)]
    by_cases hlast : n / 262144 = 4
    · refine ⟨0x80, 0x8F, ?_, by omega, by omega⟩
      rw [if_neg (by omega), if_pos (by omega), hlast]
    · refine ⟨0x80, 0xBF, ?_, by omega, by omega⟩
      have hvalue : (0xF0 + n / 262144) % 8 = n / 262144 := by omega
      rw [if_pos (by omega), hvalue]

/-- The bytes of a code point, met where a sequence may begin. -/
theorem foldlM_utf8Bytes {n : Nat} {bytes : List Nat} (h : utf8Bytes n = some bytes)
    (hn : n < 0x110000) (text : PyStr) :
    bytes.foldlM (utf8Step false) { text := text } = some { text := n :: text } := by
  unfold utf8Bytes at h
  split_ifs at h with hone htwo hsurrogate hthree
  · obtain rfl := Option.some.inj h
    exact foldlM_utf8_ascii (List.forall_mem_singleton.mpr hone) text
  · obtain rfl := Option.some.inj h
    have hlead : utf8Step false { text := text } (0xC0 + n / 64) =
        some ⟨1, 0x80, 0xBF, n / 64, text⟩ := by
      have hvalue : (0xC0 + n / 64) % 32 = n / 64 := by omega
      unfold utf8Step
      dsimp only
      rw [if_pos rfl, if_neg (by omega), if_pos (by omega), hvalue]
    have hcode : 64 * (n / 64) + (0x80 + n % 64) % 64 = n := by omega
    rw [List.foldlM_cons, hlead]
    show [0x80 + n % 64].foldlM (utf8Step false) _ = _
    rw [List.foldlM_cons, utf8Step_last (by omega), hcode]
    rfl
  · obtain rfl := Option.some.inj h
    obtain ⟨low, high, hlead, hsecond⟩ := utf8Step_three (by omega) hthree hsurrogate text
    have hcode : 64 * (64 * (n / 4096) + (0x80 + n / 64 % 64) % 64) + (0x80 + n % 64) % 64 = n := by
      omega
    rw [List.foldlM_cons, hlead]
    show [0x80 + n / 64 % 64, 0x80 + n % 64].foldlM (utf8Step false) _ = _
    rw [List.foldlM_cons, utf8Step_more hsecond]
    show [0x80 + n % 64].foldlM (utf8Step false) _ = _
    rw [List.foldlM_cons, utf8Step_last (by omega), hcode]
    rfl
  · obtain rfl := Option.some.inj h
    obtain ⟨low, high, hlead, hsecond⟩ := utf8Step_four (by omega) hn text
    have hcode : 64 * (64 * (64 * (n / 262144) + (0x80 + n / 4096 % 64) % 64) +
        (0x80 + n / 64 % 64) % 64) + (0x80 + n % 64) % 64 = n := by
      omega
    rw [List.foldlM_cons, hlead]
    show [0x80 + n / 4096 % 64, 0x80 + n / 64 % 64, 0x80 + n % 64].foldlM (utf8Step false) _ = _
    rw [List.foldlM_cons, utf8Step_more hsecond]
    show [0x80 + n / 64 % 64, 0x80 + n % 64].foldlM (utf8Step false) _ = _
    rw [List.foldlM_cons, utf8Step_more (by omega)]
    show [0x80 + n % 64].foldlM (utf8Step false) _ = _
    rw [List.foldlM_cons, utf8Step_last (by omega), hcode]
    rfl

/-- What `encode` writes, `decode` reads, whatever stands before it. -/
theorem foldlM_encodeUtf8 {s : PyStr} {bytes : List (List Nat)} (h : s.mapM utf8Bytes = some bytes)
    (hs : ∀ n ∈ s, n < 0x110000) (text : PyStr) :
    bytes.flatten.foldlM (utf8Step false) { text := text } = some { text := s.reverse ++ text } := by
  induction s generalizing bytes text with
  | nil =>
    obtain rfl := Option.some.inj h
    rfl
  | cons n s ih =>
    obtain ⟨first, rest, hfirst, hrest, rfl⟩ := mapM_utf8Bytes_cons h
    obtain ⟨hn, hs⟩ := List.forall_mem_cons.mp hs
    rw [List.flatten_cons, List.foldlM_append, foldlM_utf8Bytes hfirst hn]
    show rest.flatten.foldlM (utf8Step false) { text := n :: text } = _
    rw [ih hrest hs, List.reverse_cons, List.append_assoc]
    rfl

/-- A loop that may give up, and one that goes on instead, when neither is needed. -/
theorem foldl_of_foldlM {σ α : Type} {f : σ → α → σ} {g : σ → α → Option σ}
    (hstep : ∀ s a s', g s a = some s' → f s a = s') {l : List α} {s t : σ}
    (h : l.foldlM g s = some t) : l.foldl f s = t := by
  induction l generalizing s with
  | nil => exact Option.some.inj h
  | cons a rest ih =>
    rw [List.foldlM_cons] at h
    obtain ⟨next, hnext, h⟩ := Option.bind_eq_some_iff.mp h
    rw [List.foldl_cons, hstep s a next hnext]
    exact ih h

/-- Bytes of which none has to be replaced. -/
theorem utf8Replace_of_valid {bytes : List Nat} {s : Utf8State}
    (h : bytes.foldlM (utf8Step false) {} = some s) (hleft : s.left = 0) :
    utf8Replace bytes = s.text.reverse := by
  unfold utf8Replace
  dsimp only
  rw [foldl_of_foldlM ?_ h, if_pos hleft]
  intro begun b next hnext
  rw [hnext]

theorem utf8Replace_encodeUtf8 {s : PyStr} {bytes : List (List Nat)}
    (h : s.mapM utf8Bytes = some bytes) (hs : ∀ n ∈ s, n < 0x110000) :
    utf8Replace bytes.flatten = s := by
  rw [utf8Replace_of_valid (foldlM_encodeUtf8 h hs []) rfl]
  simp

end Json

namespace Url

/-! ## Percent-encoding -/

def hexValue (c : Nat) : Option Nat :=
  if 48 ≤ c ∧ c ≤ 57 then some (c - 48)
  else if 65 ≤ c ∧ c ≤ 70 then some (c - 55)
  else if 97 ≤ c ∧ c ≤ 102 then some (c - 87)
  else none

/-- The byte that a `%` stands for, when two digits follow it. -/
def escapeAt (c : Nat) (rest : List Nat) : Option Nat :=
  if c = 37 then
    match rest with
    | a :: b :: _ => do return 16 * (← hexValue a) + (← hexValue b)
    | _ => none
  else none

/-- `unquote_to_bytes`, of ASCII: a `%` that no two digits follow stays. `skip` characters have been
    read already. -/
def unquoteBytes (skip : Nat) : List Nat → List Nat
  | [] => []
  | c :: rest =>
    match skip with
    | skip + 1 => unquoteBytes skip rest
    | 0 =>
      match escapeAt c rest with
      | some b => b :: unquoteBytes 2 rest
      | none => c :: unquoteBytes 0 rest

/-- `unquote`: each stretch of ASCII is decoded on its own, and what is between stays. -/
def unquote (s : PyStr) : PyStr :=
  if 37 ∈ s then
    let decode (run : PyStr) : PyStr := Json.utf8Replace (unquoteBytes 0 run)
    let parts := s.foldr (fun c (parts : PyStr × PyStr) =>
      if c < 128 then (c :: parts.1, parts.2) else ([], c :: decode parts.1 ++ parts.2)) ([], [])
    decode parts.1 ++ parts.2
  else s

/-- `s.replace("+", " ")`. -/
def plusToSpace (s : PyStr) : PyStr := s.map fun c => if c = 43 then 32 else c

/-! ## Query strings -/

/-- `name_value.split("=", 1)`, when there are two. -/
def splitPair (part : PyStr) : Option (PyStr × PyStr) :=
  match part.dropWhile (· != 61) with
  | [] => none
  | _ :: value => some (part.takeWhile (· != 61), value)

/-- One field of a query; one without a value is left out. -/
def readField (part : PyStr) : Option (PyStr × PyStr) :=
  match splitPair part with
  | none => none
  | some (_, []) => none
  | some (name, value) => some (unquote (plusToSpace name), unquote (plusToSpace value))

/-- `parse_qsl(query)`. -/
def parseQsl (query : PyStr) : List (PyStr × PyStr) := (query.splitOn 38).filterMap readField

/-- `parse_qs(query)`: the values of each name in their order. -/
def parseQs (query : PyStr) : Dict PyStr (List PyStr) :=
  (parseQsl query).foldl (fun fields p =>
    fields.insert p.1 ((fields.get? p.1).getD [] ++ [p.2])) ∅

/-! ### What was escaped byte by byte -/

/-- A character that may stand for itself in a field. -/
def Plain (c : Nat) : Prop := 32 < c ∧ c < 127 ∧ c ≠ 35 ∧ c ≠ 37 ∧ c ≠ 38 ∧ c ≠ 43 ∧ c ≠ 61

/-- The text that stands for a byte. -/
inductive Escaped : Nat → PyStr → Prop
  | plain {b : Nat} (h : Plain b) : Escaped b [b]
  | space : Escaped 32 [43]
  | percent {a c high low : Nat} (ha : hexValue a = some high) (hc : hexValue c = some low) :
      Escaped (16 * high + low) [37, a, c]

inductive EscapedText : List Nat → PyStr → Prop
  | nil : EscapedText [] []
  | cons {b : Nat} {bytes : List Nat} {first rest : PyStr} (h : Escaped b first)
      (hrest : EscapedText bytes rest) : EscapedText (b :: bytes) (first ++ rest)

/-- The text that stands for a text: its UTF-8 bytes, escaped one by one. -/
def Encodes (s text : PyStr) : Prop :=
  (∀ n ∈ s, n < 0x110000) ∧
    ∃ bytes, s.mapM utf8Bytes = some bytes ∧ EscapedText bytes.flatten text

/-- A character of an escaped field: nothing that ends a field, a query or a request line. -/
def InField (c : Nat) : Prop := 32 < c ∧ c < 127 ∧ c ≠ 35 ∧ c ≠ 38 ∧ c ≠ 61

theorem hexValue_range {c d : Nat} (h : hexValue c = some d) :
    (48 ≤ c ∧ c ≤ 57) ∨ (65 ≤ c ∧ c ≤ 70) ∨ (97 ≤ c ∧ c ≤ 102) := by
  unfold hexValue at h
  split_ifs at h with hdigit hupper hlower
  · exact .inl hdigit
  · exact .inr (.inl hupper)
  · exact .inr (.inr hlower)

theorem Escaped.inField {b : Nat} {text : PyStr} (h : Escaped b text) : ∀ c ∈ text, InField c := by
  cases h with
  | plain h =>
    refine List.forall_mem_singleton.mpr ?_
    obtain ⟨hlow, hhigh, htag, -, hamp, -, heq⟩ := h
    exact ⟨hlow, hhigh, htag, hamp, heq⟩
  | space => exact List.forall_mem_singleton.mpr (by unfold InField; decide)
  | percent ha hc =>
    have hdigit {c d : Nat} (h : hexValue c = some d) : InField c := by
      have hrange := hexValue_range h
      unfold InField
      omega
    intro c hmem
    rcases List.mem_cons.mp hmem with rfl | hmem
    · unfold InField
      decide
    · rcases List.mem_cons.mp hmem with rfl | hmem
      · exact hdigit ha
      · exact List.mem_singleton.mp hmem ▸ hdigit hc

theorem EscapedText.inField {bytes : List Nat} {text : PyStr} (h : EscapedText bytes text) :
    ∀ c ∈ text, InField c := by
  induction h with
  | nil => exact List.forall_mem_nil _
  | cons h _ ih => exact List.forall_mem_append.mpr ⟨h.inField, ih⟩

theorem EscapedText.append {bytes bytes' : List Nat} {text text' : PyStr}
    (h : EscapedText bytes text) (h' : EscapedText bytes' text') :
    EscapedText (bytes ++ bytes') (text ++ text') := by
  induction h with
  | nil => exact h'
  | cons hfirst _ ih =>
    rw [List.append_assoc]
    exact .cons hfirst ih

theorem unquoteBytes_cons {c : Nat} (h : c ≠ 37) (rest : List Nat) :
    unquoteBytes 0 (c :: rest) = c :: unquoteBytes 0 rest := by
  have hnone : escapeAt c rest = none := if_neg h
  rw [unquoteBytes, hnone]

/-- One byte is read back. -/
theorem Escaped.unquote {b : Nat} {text : PyStr} (h : Escaped b text) (rest : PyStr) :
    unquoteBytes 0 (plusToSpace (text ++ rest)) = b :: unquoteBytes 0 (plusToSpace rest) := by
  unfold plusToSpace
  rw [List.map_append]
  cases h with
  | plain h =>
    obtain ⟨-, -, -, hpercent, -, hplus, -⟩ := h
    rw [List.map_singleton, if_neg hplus, List.singleton_append, unquoteBytes_cons hpercent]
  | space => exact unquoteBytes_cons (by decide) _
  | @percent a c high low ha hc =>
    have hdigit {c d : Nat} (h : hexValue c = some d) : (if c = 43 then 32 else c) = c := by
      have hrange := hexValue_range h
      exact if_neg (by omega)
    have hescape (rest : List Nat) : escapeAt 37 (a :: c :: rest) = some (16 * high + low) := by
      unfold escapeAt
      rw [if_pos rfl]
      dsimp only
      rw [ha, hc]
      rfl
    show unquoteBytes 0 (37 :: (if a = 43 then 32 else a) :: (if c = 43 then 32 else c) :: _) = _
    rw [hdigit ha, hdigit hc, unquoteBytes, hescape]
    rfl

theorem EscapedText.unquoteBytes {bytes : List Nat} {text : PyStr} (h : EscapedText bytes text) :
    Url.unquoteBytes 0 (plusToSpace text) = bytes := by
  induction h with
  | nil => rfl
  | cons h _ ih => rw [h.unquote, ih]

theorem unquoteBytes_of_not_mem {s : PyStr} (h : 37 ∉ s) : unquoteBytes 0 s = s := by
  induction s with
  | nil => rfl
  | cons c rest ih =>
    have hc : c ≠ 37 := fun heq => h (heq ▸ List.mem_cons_self)
    rw [unquoteBytes_cons hc, ih fun hmem => h (List.mem_cons_of_mem c hmem)]

theorem utf8Replace_ascii {s : PyStr} (h : ∀ c ∈ s, c < 128) : Json.utf8Replace s = s := by
  rw [Json.utf8Replace_of_valid (Json.foldlM_utf8_ascii h []) rfl, List.append_nil,
    List.reverse_reverse]

/-- A text of ASCII is one stretch. -/
theorem unquote_ascii {s : PyStr} (h : ∀ c ∈ s, c < 128) :
    unquote s = Json.utf8Replace (unquoteBytes 0 s) := by
  have hparts {step : Nat → PyStr × PyStr → PyStr × PyStr}
      (hstep : ∀ c parts, c < 128 → step c parts = (c :: parts.1, parts.2)) :
      s.foldr step ([], []) = (s, []) := by
    induction s with
    | nil => rfl
    | cons c rest ih =>
      obtain ⟨hc, hrest⟩ := List.forall_mem_cons.mp h
      rw [List.foldr_cons, ih hrest, hstep c _ hc]
  unfold unquote
  by_cases hmem : 37 ∈ s
  · rw [if_pos hmem]
    dsimp only
    rw [hparts fun c parts hc => if_pos hc, List.append_nil]
  · rw [if_neg hmem, unquoteBytes_of_not_mem hmem, utf8Replace_ascii h]

/-- **A field is read as the text it was.** -/
theorem Encodes.unquote {s text : PyStr} (h : Encodes s text) :
    Url.unquote (plusToSpace text) = s := by
  obtain ⟨hs, bytes, hbytes, htext⟩ := h
  have hascii : ∀ c ∈ plusToSpace text, c < 128 := by
    intro c hc
    obtain ⟨d, hd, rfl⟩ := List.mem_map.mp hc
    have hrange := htext.inField d hd
    unfold InField at hrange
    split_ifs
    · decide
    · omega
  rw [unquote_ascii hascii, htext.unquoteBytes, Json.utf8Replace_encodeUtf8 hbytes hs]

/-! ### Fields and queries -/

theorem takeWhile_append_stop {p : Nat → Bool} {front : PyStr} {c : Nat} (rest : PyStr)
    (hfront : ∀ d ∈ front, p d = true) (hc : p c = false) :
    (front ++ c :: rest).takeWhile p = front ∧ (front ++ c :: rest).dropWhile p = c :: rest := by
  refine ⟨?_, ?_⟩
  · rw [List.takeWhile_append_of_pos hfront, List.takeWhile_cons_of_neg (by simp [hc]),
      List.append_nil]
  · rw [List.dropWhile_append_of_pos hfront, List.dropWhile_cons_of_neg (by simp [hc])]

theorem splitPair_of {name value : PyStr} (h : ∀ c ∈ name, c ≠ 61) :
    splitPair (name ++ 61 :: value) = some (name, value) := by
  have hname : ∀ c ∈ name, (c != 61) = true := fun c hc => bne_iff_ne.mpr (h c hc)
  obtain ⟨htake, hdrop⟩ := takeWhile_append_stop value hname (bne_self_eq_false 61)
  unfold splitPair
  rw [hdrop, htake]

theorem Encodes.inField {s text : PyStr} (h : Encodes s text) : ∀ c ∈ text, InField c := by
  obtain ⟨-, bytes, -, htext⟩ := h
  exact htext.inField

theorem EscapedText.eq_nil_iff {bytes : List Nat} {text : PyStr} (h : EscapedText bytes text) :
    text = [] ↔ bytes = [] := by
  cases h with
  | nil => exact Iff.rfl
  | cons hfirst _ =>
    refine iff_of_false ?_ (List.cons_ne_nil _ _)
    intro hnil
    have hempty := (List.append_eq_nil_iff.mp hnil).1
    cases hfirst with
    | plain => cases hempty
    | space => cases hempty
    | percent => cases hempty

theorem Encodes.eq_nil_iff {s text : PyStr} (h : Encodes s text) : text = [] ↔ s = [] := by
  obtain ⟨-, bytes, hbytes, htext⟩ := h
  rw [htext.eq_nil_iff]
  cases s with
  | nil =>
    obtain rfl := Option.some.inj hbytes
    exact Iff.rfl
  | cons n s =>
    obtain ⟨first, rest, hfirst, -, rfl⟩ := mapM_utf8Bytes_cons hbytes
    refine iff_of_false ?_ (List.cons_ne_nil _ _)
    intro hnil
    exact utf8Bytes_ne_nil hfirst (List.append_eq_nil_iff.mp hnil).1

/-- A field with a value is read; one without is passed over. -/
theorem readField_encodes {name value nameText valueText : PyStr} (hname : Encodes name nameText)
    (hvalue : Encodes value valueText) :
    readField (nameText ++ 61 :: valueText) = if value = [] then none else some (name, value) := by
  have hpair : splitPair (nameText ++ 61 :: valueText) = some (nameText, valueText) :=
    splitPair_of fun c hc => (hname.inField c hc).2.2.2.2
  unfold readField
  rw [hpair]
  by_cases hnil : value = []
  · rw [if_pos hnil, hvalue.eq_nil_iff.mpr hnil]
  · have hne : valueText ≠ [] := fun h => hnil (hvalue.eq_nil_iff.mp h)
    obtain ⟨c, rest, htext⟩ := List.exists_cons_of_ne_nil hne
    have hread : (Url.unquote (plusToSpace nameText), Url.unquote (plusToSpace valueText)) =
        (name, value) := by
      rw [hname.unquote, hvalue.unquote]
    rw [if_neg hnil, ← hread, htext]

/-- The text of a field. -/
def FieldText (field : PyStr × PyStr) (text : PyStr) : Prop :=
  ∃ name value, Encodes field.1 name ∧ Encodes field.2 value ∧ text = name ++ 61 :: value

theorem FieldText.no_ampersand {field : PyStr × PyStr} {text : PyStr} (h : FieldText field text) :
    38 ∉ text := by
  obtain ⟨name, value, hname, hvalue, rfl⟩ := h
  intro hmem
  rcases List.mem_append.mp hmem with hmem | hmem
  · exact (hname.inField 38 hmem).2.2.2.1 rfl
  · have hvalueMem : 38 ∈ value := (List.mem_cons.mp hmem).resolve_left (by decide)
    exact (hvalue.inField 38 hvalueMem).2.2.2.1 rfl

/-- **A query is read as the fields it was written of**, but for those without a value. -/
theorem parseQsl_joined {fields : List (PyStr × PyStr)} {texts : List PyStr}
    (h : List.Forall₂ FieldText fields texts) :
    parseQsl ([38].intercalate texts) = fields.filter fun p => p.2 ≠ [] := by
  have hparts : texts.filterMap readField = fields.filter fun p => p.2 ≠ [] := by
    induction h with
    | nil => rfl
    | @cons field text fields texts hfirst _ ih =>
      obtain ⟨name, value, hname, hvalue, rfl⟩ := hfirst
      rw [List.filterMap_cons, readField_encodes hname hvalue, ih]
      by_cases hnil : field.2 = []
      · simp [hnil]
      · simp [hnil]
  have hclean : ∀ text ∈ texts, 38 ∉ text := by
    clear hparts
    induction h with
    | nil => exact List.forall_mem_nil _
    | cons hfirst _ ih => exact List.forall_mem_cons.mpr ⟨hfirst.no_ampersand, ih⟩
  unfold parseQsl
  by_cases hnil : texts = []
  · subst hnil
    cases h
    rfl
  · rw [List.splitOn_intercalate 38 hclean hnil, hparts]

/-- The values of a name are those of its fields, in their order. -/
theorem get?_parseQs (query : PyStr) (name : PyStr) :
    ((parseQs query).get? name).getD [] =
      ((parseQsl query).filter fun p => p.1 = name).map Prod.snd := by
  have hrun (fields : List (PyStr × PyStr)) (read : Dict PyStr (List PyStr)) :
      ((fields.foldl (fun fields p =>
        fields.insert p.1 ((fields.get? p.1).getD [] ++ [p.2])) read).get? name).getD [] =
        (read.get? name).getD [] ++ (fields.filter fun p => p.1 = name).map Prod.snd := by
    induction fields generalizing read with
    | nil => simp
    | cons p rest ih =>
      rw [List.foldl_cons, ih]
      by_cases hname : p.1 = name
      · subst hname
        simp
      · simp [hname, Ne.symm hname]
  exact hrun _ ∅

/-! ## Request targets -/

/-- `urlsplit` drops these in front of a URL. -/
def isControlOrSpace (c : Nat) : Bool := c ≤ 32

/-- `urlsplit` drops these anywhere. -/
def isUnsafe (c : Nat) : Bool := c == 9 || c == 10 || c == 13

def isAsciiAlpha (c : Nat) : Bool := (65 ≤ c && c ≤ 90) || (97 ≤ c && c ≤ 122)

/-- A character of a scheme. -/
def isSchemeChar (c : Nat) : Bool :=
  isAsciiAlpha c || (48 ≤ c && c ≤ 57) || c == 43 || c == 45 || c == 46

/-- The scheme in lower case, and what follows it. -/
def splitScheme (url : PyStr) : PyStr × PyStr :=
  let front := url.takeWhile (· != 58)
  match url.drop front.length with
  | _ :: rest =>
    if ((front.head?.map isAsciiAlpha).getD false) && front.all isSchemeChar then
      (front.map fun c => if 65 ≤ c ∧ c ≤ 90 then c + 32 else c, rest)
    else ([], url)
  | [] => ([], url)

/-- `uses_params`. -/
def USES_PARAMS : List PyStr :=
  ["", "ftp", "hdl", "prospero", "http", "https", "shttp", "rtsp", "rtspu", "sip", "sips", "mms", "sftp",
    "tel"].map PyStr.ofString

/-- `_splitparams`, without the parameters: they begin at the first `;` of the last segment. -/
def splitParams (path : PyStr) : PyStr :=
  let last := (path.reverse.takeWhile (· != 47)).reverse
  path.take (path.length - last.length) ++ last.takeWhile (· != 59)

/-- The path and the query of `urlparse(url)`. `checkNetloc` is what it holds against an authority. -/
def urlparse (checkNetloc : PyStr → Except Exc Unit) (url : PyStr) : Except Exc (PyStr × PyStr) := do
  let url := (url.dropWhile isControlOrSpace).filter fun c => !isUnsafe c
  let (scheme, url) := splitScheme url
  let url ←
    if url.take 2 = [47, 47] then do
      checkNetloc ((url.drop 2).takeWhile fun c => !isDelimiter c)
      pure ((url.drop 2).dropWhile fun c => !isDelimiter c)
    else pure url
  let url := url.takeWhile (· != 35)
  let path := url.takeWhile (· != 63)
  let query := (url.drop path.length).drop 1
  return (if scheme ∈ USES_PARAMS ∧ 59 ∈ path then splitParams path else path, query)

/-- What follows the authority, with a slash in front. -/
def rooted (suffix : PyStr) : PyStr := if suffix.head? = some 47 then suffix else 47 :: suffix

/-- `_splithost`, without the authority. -/
def splitSelector : PyStr → Option PyStr
  | 47 :: 47 :: rest => some (rooted (rest.dropWhile fun c => !isDelimiter c))
  | _ => none

/-- The target that `Request(url)` puts into its request line. -/
def selectorOf (url : PyStr) : Option PyStr :=
  (splitType (splitTag (unwrap url))).bind fun parts => splitSelector parts.2

/-! ### A path and a query -/

/-- A character that goes through every step as part of the path. -/
def InPath (c : Nat) : Prop := 32 < c ∧ c < 127 ∧ c ≠ 35 ∧ c ≠ 59 ∧ c ≠ 63

variable {path query : PyStr}

theorem not_control_of_visible {c : Nat} (h : 32 < c) : isControlOrSpace c = false := by
  unfold isControlOrSpace
  exact decide_eq_false (by omega)

theorem not_unsafe_of_visible {c : Nat} (h : 32 < c) : (!isUnsafe c) = true := by
  have hne (d : Nat) (hd : d ≤ 32) : (c == d) = false := beq_eq_false_iff_ne.mpr (by omega)
  unfold isUnsafe
  rw [hne 9 (by decide), hne 10 (by decide), hne 13 (by decide)]
  rfl

/-- A target that begins with a slash has no scheme. -/
theorem splitScheme_slash (rest : PyStr) : splitScheme (47 :: rest) = ([], 47 :: rest) := by
  unfold splitScheme
  dsimp only
  split
  · rfl
  · rfl

/-- **A path with a query is taken apart as it was put together.** -/
theorem urlparse_target (checkNetloc : PyStr → Except Exc Unit) {rest : PyStr}
    (hpath : ∀ c ∈ 47 :: rest, InPath c) (hrest : rest.head? ≠ some 47)
    (hquery : ∀ c ∈ query, 32 < c ∧ c ≠ 35) :
    urlparse checkNetloc (47 :: rest ++ 63 :: query) = .ok (47 :: rest, query) := by
  have hvisible : ∀ c ∈ 47 :: rest ++ 63 :: query, 32 < c ∧ (c != 35) = true := by
    refine List.forall_mem_append.mpr ⟨fun c hc => ?_, List.forall_mem_cons.mpr ⟨by decide, ?_⟩⟩
    · exact ⟨(hpath c hc).1, bne_iff_ne.mpr (hpath c hc).2.2.1⟩
    · intro c hc
      exact ⟨(hquery c hc).1, bne_iff_ne.mpr (hquery c hc).2⟩
  have hcleaned : ((47 :: rest ++ 63 :: query).dropWhile isControlOrSpace).filter
      (fun c => !isUnsafe c) = 47 :: rest ++ 63 :: query := by
    rw [List.cons_append, List.dropWhile_cons_of_neg (by decide), List.filter_eq_self]
    exact fun c hc => not_unsafe_of_visible (hvisible c hc).1
  have hscheme : splitScheme (47 :: rest ++ 63 :: query) = ([], 47 :: rest ++ 63 :: query) :=
    splitScheme_slash _
  have hnetloc : (47 :: rest ++ 63 :: query).take 2 ≠ [47, 47] := by
    cases rest with
    | nil => exact fun h => nomatch h
    | cons c rest =>
      intro h
      exact hrest (congrArg some (List.cons.inj (List.cons.inj h).2).1)
  have htag : (47 :: rest ++ 63 :: query).takeWhile (· != 35) = 47 :: rest ++ 63 :: query :=
    List.takeWhile_eq_self_iff.mpr fun c hc => (hvisible c hc).2
  have hmark : ∀ c ∈ 47 :: rest, (c != 63) = true := fun c hc => bne_iff_ne.mpr (hpath c hc).2.2.2.2
  have hparams : ¬ (([] : PyStr) ∈ USES_PARAMS ∧ 59 ∈ 47 :: rest) :=
    fun h => (hpath 59 h.2).2.2.2.1 rfl
  unfold urlparse
  dsimp only
  rw [hcleaned, hscheme]
  dsimp only
  rw [if_neg hnetloc]
  show Except.ok _ = _
  rw [htag, (takeWhile_append_stop query hmark (bne_self_eq_false 63)).1, if_neg hparams,
    List.drop_left]
  rfl

theorem not_space_of_visible {c : Nat} (h : 32 < c ∧ c < 127) : isSpaceCode c = false := by
  unfold isSpaceCode
  simp only [Bool.or_eq_false_iff, Bool.and_eq_false_iff, decide_eq_false_iff_not, beq_eq_false_iff_ne]
  omega

/-- **The target of a URL is what follows its authority.** -/
theorem selectorOf_target {authority rest : PyStr} (hne : authority ≠ [])
    (hauthority : ∀ c ∈ authority, isDelimiter c = false ∧ isSpaceCode c = false)
    (hrest : ∀ c ∈ rest, 32 < c ∧ c < 127 ∧ c ≠ 35) :
    selectorOf (httpScheme ++ authority ++ 47 :: rest) = some (47 :: rest) := by
  have hsuffix : ∀ c ∈ 47 :: rest, isSpaceCode c = false ∧ c ≠ 35 := by
    refine List.forall_mem_cons.mpr ⟨by decide, fun c hc => ?_⟩
    obtain ⟨hlow, hhigh, htag⟩ := hrest c hc
    exact ⟨not_space_of_visible ⟨hlow, hhigh⟩, htag⟩
  have hlast : isSpaceCode (authority.getLast hne) = false := (hauthority _ (List.getLast_mem hne)).2
  have hrstrip : rstrip (47 :: rest) = 47 :: rest := by
    refine List.rdropWhile_eq_self_iff.mpr fun hl => ?_
    rw [(hsuffix _ (List.getLast_mem hl)).1]
    exact Bool.false_ne_true
  have htag : ¬ (httpScheme ++ authority ++ 47 :: rest).contains 35 = true := by
    rw [List.contains_iff_mem, List.mem_append, List.mem_append]
    rintro ((hmem | hmem) | hmem)
    · exact absurd hmem (by decide)
    · exact absurd (hauthority 35 hmem).1 (by decide)
    · exact (hsuffix 35 hmem).2 rfl
  have htype : splitType (httpScheme ++ authority ++ 47 :: rest) =
      some ([104, 116, 116, 112], 47 :: 47 :: (authority ++ 47 :: rest)) := by
    rw [List.append_assoc]
    rfl
  have hstop : ∀ c ∈ authority, (!isDelimiter c) = true := by
    intro c hc
    rw [(hauthority c hc).1]
    rfl
  unfold selectorOf
  rw [unwrap_httpScheme hne hlast, hrstrip, splitTag, if_neg htag, htype]
  show some (rooted ((authority ++ 47 :: rest).dropWhile fun c => !isDelimiter c)) = _
  rw [(takeWhile_append_stop rest hstop rfl).2]
  rfl

end Url

end Py
