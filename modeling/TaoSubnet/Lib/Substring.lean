import Mathlib.Data.List.Infix

/-!
# Substrings

`needle in haystack` over any characters. A word cannot reach across a character it does not
contain, so that in a text put together from pieces it is looked for piece by piece.
-/

namespace Py

variable {α : Type}

/-- `needle in haystack`. -/
def occursIn [DecidableEq α] (needle haystack : List α) : Bool :=
  haystack.tails.any fun t => needle.isPrefixOf t

theorem occursIn_iff [DecidableEq α] {needle haystack : List α} :
    occursIn needle haystack = true ↔ needle <:+: haystack := by
  unfold occursIn
  rw [List.any_eq_true]
  constructor
  · intro h
    obtain ⟨t, ht, hbegin⟩ := h
    exact (List.isPrefixOf_iff_prefix.mp hbegin).isInfix.trans ((List.mem_tails t _).mp ht).isInfix
  · intro h
    obtain ⟨before, after, rfl⟩ := h
    refine ⟨needle ++ after, ?_, List.isPrefixOf_iff_prefix.mpr (List.prefix_append needle after)⟩
    rw [List.mem_tails, List.append_assoc]
    exact List.suffix_append before (needle ++ after)

/-- An occurrence around a character that the word does not contain lies on one side of it. -/
theorem infix_append_cons_iff {w a b : List α} {c : α} (hne : w ≠ []) (hc : c ∉ w) :
    w <:+: a ++ c :: b ↔ w <:+: a ∨ w <:+: b := by
  constructor
  · intro h
    obtain ⟨s, t, h⟩ := h
    rw [List.append_assoc, List.append_eq_append_iff] at h
    rcases h with ⟨x, ha, hwt⟩ | ⟨x, hs, hcb⟩
    · rcases List.append_eq_append_iff.mp hwt with ⟨y, hx, -⟩ | ⟨y, hw, hyt⟩
      · exact .inl ⟨s, y, by rw [ha, hx, List.append_assoc]⟩
      · cases y with
        | nil => exact .inl ⟨s, [], by rw [ha, hw, List.append_nil, List.append_nil]⟩
        | cons d y =>
          rw [List.cons_append] at hyt
          obtain ⟨rfl, -⟩ := List.cons.inj hyt
          exact absurd (by simp [hw]) hc
    · cases x with
      | nil =>
        cases w with
        | nil => exact absurd rfl hne
        | cons d w =>
          obtain ⟨rfl, -⟩ := List.cons.inj hcb
          exact absurd List.mem_cons_self hc
      | cons d x =>
        rw [List.cons_append] at hcb
        obtain ⟨-, rfl⟩ := List.cons.inj hcb
        exact .inr ⟨x, t, by rw [List.append_assoc]⟩
  · intro h
    rcases h with h | h
    · exact h.trans (List.prefix_append a (c :: b)).isInfix
    · exact h.trans ((List.suffix_cons c b).trans (List.suffix_append a (c :: b))).isInfix

/-! ## Text that keeps words apart -/

/-- A piece no occurrence of the word touches: it begins and ends with characters the word does not
    contain, and the word is not inside. -/
structure Separates (w s : List α) : Prop where
  head : ∀ c ∈ s.head?, c ∉ w
  last : ∀ c ∈ s.getLast?, c ∉ w
  clean : ¬ w <:+: s
  nonempty : s ≠ []

/-- Around a piece that keeps apart, the word is on one side or the other. -/
theorem Separates.infix_iff {w s a b : List α} (h : Separates w s) (hne : w ≠ []) :
    w <:+: a ++ s ++ b ↔ w <:+: a ∨ w <:+: b := by
  obtain ⟨hhead, hlast, hclean, hs⟩ := h
  rcases List.eq_nil_or_concat s with rfl | ⟨middle, d, rfl⟩
  · exact absurd rfl hs
  · have hd : d ∉ w := hlast d (by simp)
    have hab : a ++ (middle ++ [d]) ++ b = (a ++ middle) ++ d :: b := by simp
    rw [List.concat_eq_append, hab, infix_append_cons_iff hne hd]
    cases middle with
    | nil => rw [List.append_nil]
    | cons c middle =>
      have hc : c ∉ w := hhead c (by simp)
      have hnot : ¬ w <:+: middle := by
        intro hin
        exact hclean (hin.trans ⟨[c], [d], by simp⟩)
      rw [infix_append_cons_iff hne hc, or_iff_left hnot]

/-- The beginning of such a piece adds no occurrence. -/
theorem Separates.infix_append_prefix_iff {w s p a : List α} (h : Separates w s) (hne : w ≠ [])
    (hp : p <+: s) : w <:+: a ++ p ↔ w <:+: a := by
  cases p with
  | nil => rw [List.append_nil]
  | cons c p =>
    have hc : c ∉ w := by
      refine h.head c ?_
      obtain ⟨rest, rfl⟩ := hp
      simp
    have hnot : ¬ w <:+: p := by
      intro hin
      exact h.clean (hin.trans ((List.suffix_cons c p).isInfix.trans hp.isInfix))
    rw [infix_append_cons_iff hne hc, or_iff_left hnot]

instance [DecidableEq α] (w s : List α) : Decidable (Separates w s) :=
  decidable_of_iff ((∀ c ∈ s.head?, c ∉ w) ∧ (∀ c ∈ s.getLast?, c ∉ w) ∧ occursIn w s = false ∧
      s ≠ []) <| by
    rw [← Bool.not_eq_true, occursIn_iff]
    exact ⟨fun ⟨hh, hl, hc, hn⟩ => ⟨hh, hl, hc, hn⟩, fun ⟨hh, hl, hc, hn⟩ => ⟨hh, hl, hc, hn⟩⟩

/-! ## Windows -/

/-- The substrings of one length, at every place that one can begin at; the last are shorter. -/
def windows (n : Nat) (s : List α) : List (List α) :=
  (List.range s.length).map fun i => (s.drop i).take n

@[simp] theorem length_windows (n : Nat) (s : List α) : (windows n s).length = s.length := by
  unfold windows
  rw [List.length_map, List.length_range]

theorem mem_windows {t s : List α} (hne : t ≠ []) (h : t <:+: s) : t ∈ windows t.length s := by
  obtain ⟨before, after, rfl⟩ := h
  have hpos : 0 < t.length := List.length_pos_of_ne_nil hne
  refine List.mem_map.mpr ⟨before.length, List.mem_range.mpr ?_, ?_⟩
  · rw [List.length_append, List.length_append]
    omega
  · rw [List.append_assoc, List.drop_left, List.take_left]

end Py
