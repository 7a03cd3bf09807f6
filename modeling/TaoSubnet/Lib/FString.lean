import Mathlib.Data.List.Chain
import TaoSubnet.Lib.Dumps
import TaoSubnet.Lib.Substring

/-!
# Text put together from pieces

An f-string is a list of parts: text of the program's own, text an expression came to, and integers.
Where no two parts meet in characters of a word on both sides, the word is looked for in each part on
its own, and a cut of the whole is a cut of the parts.
-/

namespace Py

variable {α : Type}

/-! ## Pieces a word cannot reach across -/

/-- Where one piece ends and the next begins, there is a character that the word does not contain. -/
def Apart (w p q : List α) : Prop := (∃ c ∈ p.getLast?, c ∉ w) ∨ ∃ c ∈ q.head?, c ∉ w

/-- What the first `n` characters of the whole keep of each piece. -/
def cutAll : Nat → List (List α) → List (List α)
  | _, [] => []
  | n, p :: rest => p.take n :: cutAll (n - p.length) rest

theorem infix_append_iff_of_last {w p rest : List α} (hne : w ≠ []) (h : ∃ c ∈ p.getLast?, c ∉ w) :
    w <:+: p ++ rest ↔ w <:+: p ∨ w <:+: rest := by
  obtain ⟨c, hlast, hc⟩ := h
  obtain ⟨front, rfl⟩ := List.getLast?_eq_some_iff.mp hlast
  have hfront := infix_append_cons_iff (b := []) (a := front) hne hc
  rw [List.append_assoc, List.singleton_append, infix_append_cons_iff hne hc, hfront,
    List.infix_nil, or_iff_left hne]

theorem infix_append_iff_of_head {w p rest : List α} (hne : w ≠ []) (h : ∀ c ∈ rest.head?, c ∉ w) :
    w <:+: p ++ rest ↔ w <:+: p ∨ w <:+: rest := by
  cases rest with
  | nil => rw [List.append_nil, List.infix_nil, or_iff_left hne]
  | cons c rest =>
    have hc : c ∉ w := h c rfl
    have hrest := infix_append_cons_iff (b := rest) (a := []) hne hc
    rw [List.nil_append, List.infix_nil, or_iff_right hne] at hrest
    rw [infix_append_cons_iff hne hc, hrest]

/-- What is kept of the rest, once the first piece is cut to its part of the room. -/
theorem take_flatten_cons (n : Nat) (p : List α) (rest : List (List α)) :
    (p :: rest).flatten.take n = p.take n ++ rest.flatten.take (n - p.length) := by
  rw [List.flatten_cons, List.take_append]

theorem head?_take {n : Nat} {l : List α} {c : α} (h : c ∈ (l.take n).head?) : c ∈ l.head? := by
  rw [List.head?_take] at h
  split at h
  · cases h
  · exact h

/-- **A word in what is kept of the whole** is in what is kept of one piece. -/
theorem infix_take_flatten_iff {w : List α} {pieces : List (List α)} (hne : w ≠ [])
    (hapart : pieces.IsChain (Apart w)) (n : Nat) :
    w <:+: pieces.flatten.take n ↔ ∃ p ∈ cutAll n pieces, w <:+: p := by
  induction pieces generalizing n with
  | nil => simp [cutAll, hne]
  | cons p rest ih =>
    rw [List.isChain_cons] at hapart
    obtain ⟨hjoint, hrest⟩ := hapart
    have hsplit : w <:+: p.take n ++ rest.flatten.take (n - p.length) ↔
        w <:+: p.take n ∨ w <:+: rest.flatten.take (n - p.length) := by
      -- a piece that does not fit leaves no room for what follows it
      rcases Nat.lt_or_ge n p.length with hshort | hlong
      · rw [Nat.sub_eq_zero_of_le hshort.le, List.take_zero, List.append_nil, List.infix_nil,
          or_iff_left hne]
      · rw [List.take_of_length_le hlong]
        cases rest with
        | nil => simp [hne]
        | cons q rest =>
          rcases hjoint q rfl with hlast | ⟨c, hhead, hc⟩
          · exact infix_append_iff_of_last hne hlast
          · refine infix_append_iff_of_head hne ?_
            intro d hd
            have hwhole : d ∈ (q :: rest).flatten.head? := head?_take hd
            rw [List.flatten_cons, List.head?_append, Option.mem_def.mp hhead] at hwhole
            obtain rfl := Option.some.inj hwhole
            exact hc
    rw [take_flatten_cons, hsplit, ih hrest]
    simp [cutAll]

/-! ## f-strings -/

/-- A part of an f-string. -/
inductive Segment
  /-- Text of the program's own. -/
  | own (s : String)
  | text (s : PyStr)
  | int (n : Int)

namespace Segment

/-- What a part comes to, if its integer has not too many digits. -/
def written : Segment → PyStr
  | .own s => PyStr.ofString s
  | .text s => s
  | .int n => intDigitsText n

/-- `str` raises for it. -/
def unwritable : Segment → Bool
  | .int n => tooLong n
  | _ => false

end Segment

def fstring (parts : List Segment) : Except Exc PyStr :=
  if parts.any Segment.unwritable then .error intUnwritable
  else .ok (parts.map Segment.written).flatten

/-- `"\n".join(lines)`. -/
def joinLines : List (List Segment) → List Segment
  | [] => []
  | [line] => line
  | line :: rest => line ++ .own "\n" :: joinLines rest

/-- What the first `n` characters keep of each text that is not the program's own. -/
def keptTexts : Nat → List Segment → List PyStr
  | _, [] => []
  | n, .text s :: rest => s.take n :: keptTexts (n - s.length) rest
  | n, .own s :: rest => keptTexts (n - (Segment.own s).written.length) rest
  | n, .int i :: rest => keptTexts (n - (Segment.int i).written.length) rest

/-! ## Words in an f-string -/

section Words

variable (words : List PyStr)

namespace Segment

/-- It begins with a character of its own that no word contains. -/
def opens : Segment → Bool
  | .own s => (PyStr.ofString s).head?.any fun c => !words.flatten.contains c
  | _ => false

/-- It ends with such a character. -/
def closes : Segment → Bool
  | .own s => (PyStr.ofString s).getLast?.any fun c => !words.flatten.contains c
  | _ => false

/-- No word is in what the program itself writes. -/
def clean : Segment → Bool
  | .own s => words.all fun w => !occursIn w (PyStr.ofString s)
  | _ => true

end Segment

/-- The program's own text is clean, and keeps what it stands between apart. -/
def fenced : List Segment → Bool
  | [] => true
  | [p] => p.clean words
  | p :: q :: rest => p.clean words && (p.closes words || q.opens words) && fenced (q :: rest)

/-- Whatever it follows is kept apart from it. -/
def opensAll (parts : List Segment) : Bool := parts.head?.all (Segment.opens words)

end Words

variable {words : List PyStr}

theorem fenced_cons {p : Segment} {rest : List Segment} : fenced words (p :: rest) = true ↔
    p.clean words = true ∧ (∀ q ∈ rest.head?, (p.closes words || q.opens words) = true) ∧
      fenced words rest = true := by
  cases rest with
  | nil => simp [fenced]
  | cons q rest => simp [fenced, and_assoc]

theorem fenced_append {xs ys : List Segment} (hx : fenced words xs = true)
    (hy : fenced words ys = true) (hopens : opensAll words ys = true) :
    fenced words (xs ++ ys) = true := by
  induction xs with
  | nil => exact hy
  | cons p rest ih =>
    obtain ⟨hclean, hjoint, hrest⟩ := fenced_cons.mp hx
    rw [List.cons_append]
    refine fenced_cons.mpr ⟨hclean, ?_, ih hrest⟩
    intro q hq
    cases rest with
    | nil =>
      rw [List.nil_append] at hq
      unfold opensAll at hopens
      rw [Option.mem_def.mp hq] at hopens
      have hq : q.opens words = true := hopens
      rw [hq, Bool.or_true]
    | cons r rest => exact hjoint q hq

/-- Lines put together are fenced when each is, since a line feed keeps them apart. -/
theorem fenced_joinLines {lines : List (List Segment)}
    (hclean : (Segment.own "\n").clean words = true)
    (hopens : (Segment.own "\n").opens words = true)
    (hlines : ∀ line ∈ lines, fenced words line = true) :
    fenced words (joinLines lines) = true := by
  induction lines with
  | nil => rfl
  | cons line rest ih =>
    have hline := hlines line List.mem_cons_self
    have hrest := ih fun l hl => hlines l (List.mem_cons_of_mem line hl)
    cases rest with
    | nil => exact hline
    | cons next rest =>
      refine fenced_append hline (fenced_cons.mpr ⟨hclean, ?_, hrest⟩) hopens
      intro q _
      -- one character: where it ends is where it begins
      have hcloses : (Segment.own "\n").closes words = true := hopens
      rw [hcloses, Bool.true_or]

/-! What is fenced has its words in the texts of others only. -/

theorem not_mem_of_flatten {w : PyStr} (hw : w ∈ words) {c : Nat}
    (h : (!words.flatten.contains c) = true) : c ∉ w := by
  intro hc
  rw [Bool.not_eq_true', ← Bool.not_eq_true, List.contains_iff_mem] at h
  exact h (List.mem_flatten.mpr ⟨w, hw, hc⟩)

theorem apart_of_fence {w : PyStr} (hw : w ∈ words) {p q : Segment}
    (h : (p.closes words || q.opens words) = true) : Apart w p.written q.written := by
  rcases Bool.or_eq_true_iff.mp h with hp | hq
  · left
    cases p with
    | own s =>
      obtain ⟨c, hlast, hc⟩ := (Option.any_eq_true _ _).mp hp
      exact ⟨c, hlast, not_mem_of_flatten hw hc⟩
    | text s => cases hp
    | int n => cases hp
  · right
    cases q with
    | own s =>
      obtain ⟨c, hhead, hc⟩ := (Option.any_eq_true _ _).mp hq
      exact ⟨c, hhead, not_mem_of_flatten hw hc⟩
    | text s => cases hq
    | int n => cases hq

theorem apart_of_fenced {w : PyStr} (hw : w ∈ words) {parts : List Segment}
    (h : fenced words parts = true) : (parts.map Segment.written).IsChain (Apart w) := by
  induction parts with
  | nil => exact List.isChain_nil
  | cons p rest ih =>
    obtain ⟨-, hjoint, hrest⟩ := fenced_cons.mp h
    rw [List.map_cons, List.isChain_cons]
    refine ⟨?_, ih hrest⟩
    intro q hq
    rw [List.head?_map] at hq
    obtain ⟨r, hr, rfl⟩ := Option.mem_map.mp hq
    exact apart_of_fence hw (hjoint r hr)

/-- A word with a character that no number has. -/
def Wordy (w : PyStr) : Prop := ∃ c ∈ w, c ≠ 45 ∧ ¬ (48 ≤ c ∧ c ≤ 57)

theorem not_infix_intDigitsText {w : PyStr} (hw : Wordy w) {n : Int} {k : Nat} :
    ¬ w <:+: (intDigitsText n).take k := by
  intro hin
  obtain ⟨c, hc, hsign, hdigit⟩ := hw
  have hmem : c ∈ intDigitsText n := List.mem_of_mem_take (hin.subset hc)
  unfold intDigitsText at hmem
  split at hmem
  · rcases List.mem_cons.mp hmem with rfl | hmem
    · exact hsign rfl
    · exact hdigit (natText_range hmem)
  · exact hdigit (natText_range hmem)

/-- Only the texts of others count among the pieces that are kept. -/
theorem kept_iff {w : PyStr} (hw : w ∈ words) (hwordy : Wordy w) {parts : List Segment}
    (h : fenced words parts = true) (n : Nat) :
    (∃ p ∈ cutAll n (parts.map Segment.written), w <:+: p) ↔ ∃ t ∈ keptTexts n parts, w <:+: t := by
  induction parts generalizing n with
  | nil => rfl
  | cons p rest ih =>
    obtain ⟨hclean, -, hrest⟩ := fenced_cons.mp h
    have ih := ih hrest (n - p.written.length)
    rw [List.map_cons, cutAll, List.exists_mem_cons_iff, ih]
    cases p with
    | own s =>
      have hnot : ¬ w <:+: (PyStr.ofString s).take n := by
        intro hin
        have hall := List.all_eq_true.mp hclean w hw
        rw [Bool.not_eq_true', ← Bool.not_eq_true, occursIn_iff] at hall
        exact hall (hin.trans (List.take_prefix n _).isInfix)
      exact or_iff_right hnot
    | text s => exact (List.exists_mem_cons_iff _ _ _).symm
    | int i => exact or_iff_right (not_infix_intDigitsText hwordy)

/-- **A word in the first `n` characters** of a fenced text is in one of the texts of others, as much
    of it as is kept. -/
theorem infix_take_fstring {w full : PyStr} {parts : List Segment} (hw : w ∈ words)
    (hwordy : Wordy w) (hfenced : fenced words parts = true) (h : fstring parts = .ok full) (n : Nat) :
    w <:+: full.take n ↔ ∃ t ∈ keptTexts n parts, w <:+: t := by
  have hne : w ≠ [] := by
    obtain ⟨c, hc, -⟩ := hwordy
    exact List.ne_nil_of_mem hc
  unfold fstring at h
  split at h
  · cases h
  · obtain rfl := Except.ok.inj h
    rw [infix_take_flatten_iff hne (apart_of_fenced hw hfenced), kept_iff hw hwordy hfenced]

end Py
