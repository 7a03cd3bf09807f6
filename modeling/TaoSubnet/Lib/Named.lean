import Mathlib.Data.Set.Insert

/-!
# Things under names

A store of things, some of them under names, each name with one thing at most. A thing may have many
names, or none. What is put in under new names comes out again with a name only if that was its
last: `release_load_iff` says when the store is then as it was.
-/

namespace Named

variable {κ ι : Type}

/-- What there is, and what each name stands for. -/
@[ext] structure Store (κ ι : Type) where
  present : Set ι
  bound : κ → Option ι
  bound_present : ∀ k i, bound k = some i → i ∈ present

namespace Store

/-- Two stores are the same when they hold the same things under the same names. -/
theorem eq_iff {s t : Store κ ι} :
    s = t ↔ (∀ j, j ∈ s.present ↔ j ∈ t.present) ∧ ∀ k, s.bound k = t.bound k := by
  constructor
  · intro h
    subst h
    exact ⟨fun _ => Iff.rfl, fun _ => rfl⟩
  · intro ⟨hpresent, hbound⟩
    exact Store.ext (Set.ext hpresent) (funext hbound)

variable [DecidableEq κ]

/-- Puts a thing in, under the names. -/
def load (s : Store κ ι) (names : List κ) (i : ι) : Store κ ι where
  present := insert i s.present
  bound k := if k ∈ names then some i else s.bound k
  bound_present := by
    intro k j h
    split at h
    · exact .inl (Option.some.inj h).symm
    · exact .inr (s.bound_present k j h)

/-- Takes a name away, and what it stood for if it has no other. -/
def release (s : Store κ ι) (k : κ) : Store κ ι where
  present := {i ∈ s.present | s.bound k = some i → ∃ k', k' ≠ k ∧ s.bound k' = some i}
  bound k' := if k' = k then none else s.bound k'
  bound_present := by
    intro k' j h
    split at h
    · cases h
    · rename_i hne
      exact ⟨s.bound_present k' j h, fun _ => ⟨k', hne, h⟩⟩

variable {s : Store κ ι} {names : List κ} {i : ι}

/-- Putting in what is there, under the names it has. -/
theorem load_eq_self_iff : s.load names i = s ↔ i ∈ s.present ∧ ∀ k ∈ names, s.bound k = some i := by
  rw [eq_iff]
  constructor
  · intro ⟨hpresent, hbound⟩
    refine ⟨(hpresent i).mp (.inl rfl), ?_⟩
    intro k hk
    rw [← hbound k]
    exact if_pos hk
  · intro ⟨hpresent, hbound⟩
    constructor
    · intro j
      constructor
      · intro hj
        rcases hj with rfl | hj
        · exact hpresent
        · exact hj
      · exact .inr
    · intro k
      show (if k ∈ names then some i else s.bound k) = s.bound k
      split
      · rename_i hk
        exact (hbound k hk).symm
      · rfl

/-- **One name of a load taken away again leaves the store as it was**, exactly if that name was free,
    the others stood for the thing already, and the thing, if it was there, had a name. -/
theorem release_load_iff {first : κ} (hfirst : first ∈ names) :
    (s.load names i).release first = s ↔
      s.bound first = none ∧ (∀ k ∈ names, k ≠ first → s.bound k = some i) ∧
        (i ∈ s.present → ∃ k, s.bound k = some i) := by
  have hloaded : ∀ k, (s.load names i).bound k = if k ∈ names then some i else s.bound k :=
    fun _ => rfl
  have hreleased : ∀ k, ((s.load names i).release first).bound k =
      if k = first then none else (s.load names i).bound k := fun _ => rfl
  have hkept : ∀ j, j ∈ ((s.load names i).release first).present ↔ j ∈ (s.load names i).present ∧
      ((s.load names i).bound first = some j →
        ∃ k, k ≠ first ∧ (s.load names i).bound k = some j) := fun _ => Iff.rfl
  have hone : (s.load names i).bound first = some i := (hloaded first).trans (if_pos hfirst)
  rw [eq_iff]
  constructor
  · intro ⟨hpresent, hbound⟩
    have hfree : s.bound first = none := by
      rw [← hbound first, hreleased, if_pos rfl]
    refine ⟨hfree, ?_, ?_⟩
    · intro k hk hne
      rw [← hbound k, hreleased, if_neg hne, hloaded, if_pos hk]
    · intro hi
      obtain ⟨k, hne, hk⟩ := ((hkept i).mp ((hpresent i).mpr hi)).2 hone
      refine ⟨k, ?_⟩
      rw [← hbound k, hreleased, if_neg hne, hk]
  · intro ⟨hfree, hothers, hnamed⟩
    have hsame : ∀ k, k ≠ first → (s.load names i).bound k = s.bound k := by
      intro k hne
      rw [hloaded]
      split
      · rename_i hk
        exact (hothers k hk hne).symm
      · rfl
    constructor
    · intro j
      rw [hkept]
      constructor
      · intro ⟨hj, hother⟩
        rcases hj with rfl | hj
        · obtain ⟨k, hne, hk⟩ := hother hone
          rw [hsame k hne] at hk
          exact s.bound_present k j hk
        · exact hj
      · intro hj
        refine ⟨.inr hj, ?_⟩
        intro hfirst'
        rw [hone] at hfirst'
        obtain rfl := Option.some.inj hfirst'
        obtain ⟨k, hk⟩ := hnamed hj
        have hne : k ≠ first := by
          intro heq
          rw [heq, hfree] at hk
          cases hk
        exact ⟨k, hne, (hsame k hne).trans hk⟩
    · intro k
      rw [hreleased]
      split
      · rename_i heq
        rw [heq, hfree]
      · rename_i hne
        exact hsame k hne

variable [DecidableEq ι]

/-- Takes a thing away, with all its names. -/
def delete (s : Store κ ι) (i : ι) : Store κ ι where
  present := {j ∈ s.present | j ≠ i}
  bound k := if s.bound k = some i then none else s.bound k
  bound_present := by
    intro k j h
    split at h
    · cases h
    · rename_i hother
      refine ⟨s.bound_present k j h, ?_⟩
      intro heq
      rw [heq] at h
      exact hother h

/-- What was put in under no name and taken away again leaves the store as it was, exactly if it was
    not there. -/
theorem delete_load_iff : (s.load [] i).delete i = s ↔ i ∉ s.present := by
  rw [eq_iff]
  constructor
  · intro ⟨hpresent, _⟩ hi
    exact ((hpresent i).mpr hi).2 rfl
  · intro hi
    constructor
    · intro j
      constructor
      · intro ⟨hj, hne⟩
        exact hj.resolve_left hne
      · intro hj
        refine ⟨.inr hj, ?_⟩
        intro heq
        exact hi (heq ▸ hj)
    · intro k
      show (if s.bound k = some i then none else s.bound k) = s.bound k
      split
      · rename_i hk
        exact absurd (s.bound_present k i hk) hi
      · rfl

end Store

end Named
