import TaoSubnet.Lib.JsonText
import TaoSubnet.Lib.Numbers

/-!
# A document in a text file

`json.dump` to a file and `json.load` of it. `dumps` escapes what is not ASCII, so the bytes of its text
are its characters, and the file is decoded to the text again whatever the strings were.
-/

namespace Py

/-- The bytes of a text of ASCII. -/
def asciiBytes (text : PyStr) : List UInt8 := text.map UInt8.ofNat

/-! ## Integers by their texts -/

theorem natText_injective : Function.Injective natText := by
  intro m n h
  have hdigits : Nat.toDigits 10 m = Nat.toDigits 10 n :=
    List.map_injective_iff.mpr (fun _ _ hcd => Char.toNat_inj.mp hcd) h
  calc m = Nat.ofDigitChars 10 (Nat.toDigits 10 m) 0 := Nat.ofDigitChars_ten_toDigits.symm
    _ = Nat.ofDigitChars 10 (Nat.toDigits 10 n) 0 := by rw [hdigits]
    _ = n := Nat.ofDigitChars_ten_toDigits

theorem minus_not_mem_natText (n : Nat) : 45 ∉ natText n := by
  intro hmem
  have hrange := natText_range hmem
  omega

theorem intDigitsText_injective : Function.Injective intDigitsText := by
  intro m n h
  unfold intDigitsText at h
  split_ifs at h with hm hn hn
  · have habs := natText_injective (List.cons.inj h).2
    omega
  · exact absurd (h ▸ List.mem_cons_self) (minus_not_mem_natText n.natAbs)
  · exact absurd (h.symm ▸ List.mem_cons_self) (minus_not_mem_natText m.natAbs)
  · have habs := natText_injective h
    omega

namespace Json

/-! ## Files -/

theorem foldlM_utf8_ascii {text : PyStr} (h : ∀ c ∈ text, c < 128) (read : PyStr) :
    text.foldlM (utf8Step false) { text := read } = some { text := text.reverse ++ read } := by
  induction text generalizing read with
  | nil => rfl
  | cons c rest ih =>
    have hc : utf8Step false { text := read } c = some { text := c :: read } := by
      unfold utf8Step
      rw [if_pos rfl, if_pos (h c List.mem_cons_self)]
    rw [List.foldlM_cons, hc]
    show rest.foldlM (utf8Step false) { text := c :: read } = _
    rw [ih (fun d hd => h d (List.mem_cons_of_mem c hd)), List.reverse_cons, List.append_assoc]
    rfl

/-- A file of ASCII is read as its text. -/
theorem readText_ascii {text : PyStr} (h : ∀ c ∈ text, c < 128) :
    readText (asciiBytes text) = .ok text := by
  have hbytes : (asciiBytes text).map UInt8.toNat = text := by
    unfold asciiBytes
    rw [List.map_map]
    refine List.map_congr_left (fun c hc => ?_) |>.trans (List.map_id text)
    have hlt := h c hc
    show (UInt8.ofNat c).toNat = c
    rw [UInt8.toNat_ofNat']
    omega
  unfold readText
  rw [hbytes, foldlM_utf8_ascii h]
  show Except.ok (text.reverse ++ []).reverse = _
  rw [List.append_nil, List.reverse_reverse]

theorem unsplit_ascii {s : PyStr} (h : ∀ c ∈ s, c < 128) : Unsplit s := by
  refine ⟨fun c hc => (h c hc).trans (by decide), ?_⟩
  induction s with
  | nil => exact List.isChain_nil
  | cons a rest ih =>
    rw [List.isChain_cons]
    refine ⟨fun b _ => ?_, ih fun c hc => h c (List.mem_cons_of_mem a hc)⟩
    have ha := h a List.mem_cons_self
    have hnot : isHighSurrogate a = false := by
      simp only [isHighSurrogate, Bool.and_eq_false_iff, decide_eq_false_iff_not]
      omega
    rw [hnot, Bool.false_and]

theorem legibleItems_iff {limit : Nat} {floatText : PyFloat → PyStr} {items : List Json} :
    LegibleItems limit floatText items ↔ ∀ v ∈ items, Legible limit floatText v := by
  induction items with
  | nil => simp [LegibleItems]
  | cons v rest ih => rw [LegibleItems, ih, List.forall_mem_cons]

theorem legibleFields_iff {limit : Nat} {floatText : PyFloat → PyStr} {items : List (PyStr × Json)} :
    LegibleFields limit floatText items ↔
      ∀ p ∈ items, Unsplit p.1 ∧ Legible limit floatText p.2 := by
  induction items with
  | nil => simp [LegibleFields]
  | cons p rest ih =>
    obtain ⟨key, v⟩ := p
    rw [LegibleFields, ih, List.forall_mem_cons, and_assoc]

/-! ## The text is ASCII -/

theorem natText_ascii (n : Nat) : ∀ c ∈ natText n, c < 128 := by
  intro c hc
  have hrange := natText_range hc
  omega

theorem intText_ascii {n : Int} {text : PyStr} (h : intText n = .ok text) : ∀ c ∈ text, c < 128 := by
  unfold intText at h
  split at h
  · cases h
  · obtain rfl := Except.ok.inj h
    unfold intDigitsText
    split
    · intro c hc
      rcases List.mem_cons.mp hc with rfl | hc
      · decide
      · exact natText_ascii _ c hc
    · exact natText_ascii _

theorem ascii_joined {text rest : PyStr} (h : ∀ c ∈ text, c < 128) (hrest : ∀ c ∈ rest, c < 128) :
    ∀ c ∈ text ++ 44 :: 32 :: rest, c < 128 := by
  intro c hc
  simp only [List.mem_append, List.mem_cons] at hc
  rcases hc with hc | rfl | rfl | hc
  · exact h c hc
  · decide
  · decide
  · exact hrest c hc

theorem ascii_field {key value : PyStr} (hkey : ∀ c ∈ key, c < 128) (h : ∀ c ∈ value, c < 128) :
    ∀ c ∈ key ++ 58 :: 32 :: value, c < 128 := by
  intro c hc
  simp only [List.mem_append, List.mem_cons] at hc
  rcases hc with hc | rfl | rfl | hc
  · exact hkey c hc
  · decide
  · decide
  · exact h c hc

variable {floatText : PyFloat → PyStr}

mutual

/-- **What `dumps` writes** is ASCII. -/
theorem dumps_ascii (hfloat : ∀ x, ∀ c ∈ floatText x, c < 128) : ∀ (v : Json) {text : PyStr},
    dumps floatText v = .ok text → ∀ c ∈ text, c < 128
  | .null => by
    intro h
    rw [dumps] at h
    obtain rfl := Except.ok.inj h
    decide
  | .bool true => by
    intro h
    rw [dumps] at h
    obtain rfl := Except.ok.inj h
    decide
  | .bool false => by
    intro h
    rw [dumps] at h
    obtain rfl := Except.ok.inj h
    decide
  | .int n => by
    intro h
    rw [dumps] at h
    exact intText_ascii h
  | .float x => by
    intro h
    rw [dumps] at h
    obtain rfl := Except.ok.inj h
    exact hfloat x
  | .str s => by
    intro h
    rw [dumps] at h
    obtain rfl := Except.ok.inj h
    exact strText_ascii s
  | .arr items => by
    intro h
    rw [dumps] at h
    obtain ⟨inner, hinner, rfl⟩ := dumps_bracket h
    have hitems := dumpsItems_ascii hfloat items hinner
    intro c hc
    simp only [List.cons_append, List.mem_cons, List.mem_append, List.not_mem_nil, or_false] at hc
    rcases hc with rfl | hc | rfl
    · decide
    · exact hitems c hc
    · decide
  | .obj items => by
    intro h
    rw [dumps] at h
    obtain ⟨inner, hinner, rfl⟩ := dumps_bracket h
    have hfields := dumpsFields_ascii hfloat items hinner
    intro c hc
    simp only [List.cons_append, List.mem_cons, List.mem_append, List.not_mem_nil, or_false] at hc
    rcases hc with rfl | hc | rfl
    · decide
    · exact hfields c hc
    · decide

theorem dumpsItems_ascii (hfloat : ∀ x, ∀ c ∈ floatText x, c < 128) : ∀ (items : List Json)
    {text : PyStr}, dumpsItems floatText items = .ok text → ∀ c ∈ text, c < 128
  | [] => by
    intro h
    rw [dumpsItems] at h
    obtain rfl := Except.ok.inj h
    exact fun c hc => by cases hc
  | v :: items => by
    intro h
    obtain ⟨first, hfirst, hend⟩ := dumpsItems_cons h
    have hv := dumps_ascii hfloat v hfirst
    rcases hend with ⟨-, rfl⟩ | ⟨-, rest, hrest, rfl⟩
    · exact hv
    · exact ascii_joined hv (dumpsItems_ascii hfloat items hrest)

theorem dumpsFields_ascii (hfloat : ∀ x, ∀ c ∈ floatText x, c < 128) :
    ∀ (items : List (PyStr × Json)) {text : PyStr},
      dumpsFields floatText items = .ok text → ∀ c ∈ text, c < 128
  | [] => by
    intro h
    rw [dumpsFields] at h
    obtain rfl := Except.ok.inj h
    exact fun c hc => by cases hc
  | (key, v) :: items => by
    intro h
    obtain ⟨value, hvalue, hend⟩ := dumpsFields_cons h
    have hv := ascii_field (strText_ascii key) (dumps_ascii hfloat v hvalue)
    rcases hend with ⟨-, rfl⟩ | ⟨-, rest, hrest, rfl⟩
    · exact hv
    · exact ascii_joined hv (dumpsFields_ascii hfloat items hrest)

end

/-- **A document that was written to a file** is read from it. -/
theorem load_dumped {limit : Nat} {v : Json} {text : PyStr} (hv : Legible limit floatText v)
    (hdepth : v.depth ≤ limit) (hfloat : ∀ x, ∀ c ∈ floatText x, c < 128)
    (h : dumps floatText v = .ok text) :
    readText (asciiBytes text) = .ok text ∧ loadsText limit text = .ok v :=
  ⟨readText_ascii (dumps_ascii hfloat v h), loads_dumps hv hdepth h⟩

end Json

end Py
