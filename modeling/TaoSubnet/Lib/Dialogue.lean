import Mathlib.Data.Finset.Card
import Mathlib.Data.Finset.Image

/-!
# Dialogues

A client asks a server question after question, knowing every exchange so far. Servers that answer
questions of a kind alike are one server to a client that asks nothing else, and what such a client
names at the end, it names for few of them.
-/

namespace Py

section

variable {σ τ Q A : Type}

/-- The next question, from the exchanges so far, oldest first; the client may stop. -/
abbrev Client (Q A : Type) := List (Q × A) → Option Q

/-- An answer, and the state it leaves the server in. -/
abbrev Server (σ Q A : Type) := σ → Q → A × σ

/-- The exchanges after at most so many more questions. -/
def dialogue (ask : Client Q A) (serve : Server σ Q A) : Nat → σ → List (Q × A) → List (Q × A)
  | 0, _, past => past
  | n + 1, s, past =>
    match ask past with
    | none => past
    | some q => dialogue ask serve n (serve s q).2 (past ++ [(q, (serve s q).1)])

variable {ask : Client Q A} {serve : Server σ Q A}

theorem dialogue_stop {n : Nat} {s : σ} {past : List (Q × A)} (h : ask past = none) :
    dialogue ask serve (n + 1) s past = past := by
  rw [dialogue, h]

theorem dialogue_ask {n : Nat} {s : σ} {past : List (Q × A)} {q : Q} (h : ask past = some q) :
    dialogue ask serve (n + 1) s past =
      dialogue ask serve n (serve s q).2 (past ++ [(q, (serve s q).1)]) := by
  rw [dialogue, h]

/-- What was exchanged stays exchanged. -/
theorem prefix_dialogue (n : Nat) (s : σ) (past : List (Q × A)) :
    past <+: dialogue ask serve n s past := by
  induction n generalizing s past with
  | zero => exact List.prefix_refl past
  | succ n ih =>
    cases hask : ask past with
    | none =>
      rw [dialogue_stop hask]
    | some q =>
      rw [dialogue_ask hask]
      exact (List.prefix_append past _).trans (ih _ _)

/-- Two servers answer the questions of a kind alike, from states that they keep related. -/
def AnswerAlike (kind : Q → Prop) (R : σ → τ → Prop) (serve : Server σ Q A) (serve' : Server τ Q A) :
    Prop :=
  ∀ s t q, R s t → kind q → (serve s q).1 = (serve' t q).1 ∧ R (serve s q).2 (serve' t q).2

/-- A client that asked one server questions of the kind only had the same dialogue with the other. -/
theorem dialogue_same {kind : Q → Prop} {R : σ → τ → Prop} {serve' : Server τ Q A}
    (halike : AnswerAlike kind R serve serve') {n : Nat} {s : σ} {t : τ} {past : List (Q × A)}
    (hrel : R s t) (hkind : ∀ e ∈ dialogue ask serve n s past, kind e.1) :
    dialogue ask serve' n t past = dialogue ask serve n s past := by
  induction n generalizing s t past with
  | zero => rfl
  | succ n ih =>
    cases hask : ask past with
    | none => rw [dialogue_stop hask, dialogue_stop hask]
    | some q =>
      rw [dialogue_ask hask] at hkind ⊢
      -- the question is part of the dialogue it begins
      have hasked : (q, (serve s q).1) ∈ dialogue ask serve n (serve s q).2 (past ++ [(q, (serve s q).1)]) :=
        (prefix_dialogue n _ _).subset (List.mem_append_right past List.mem_cons_self)
      obtain ⟨hanswer, hnext⟩ := halike s t q hrel (hkind _ hasked)
      rw [dialogue_ask hask, ← hanswer]
      exact ih hnext hkind

end

section

variable {S T β : Type} [DecidableEq β]

/-- Secrets that all have one view, and that are each among the few that the view makes one name, are
    few. -/
theorem card_named_le (view : S → T) (names : T → List β) (tag : S → β) {hit : Finset S} {bound : Nat}
    (htag : Function.Injective tag) (hsame : ∀ s ∈ hit, ∀ t ∈ hit, view t = view s)
    (hnamed : ∀ s ∈ hit, tag s ∈ names (view s)) (hfew : ∀ s ∈ hit, (names (view s)).length ≤ bound) :
    hit.card ≤ bound := by
  rcases hit.eq_empty_or_nonempty with rfl | ⟨s, hs⟩
  · exact Nat.zero_le bound
  · have hsubset : hit.image tag ⊆ (names (view s)).toFinset := by
      intro b hb
      obtain ⟨t, ht, rfl⟩ := Finset.mem_image.mp hb
      rw [List.mem_toFinset, ← hsame s hs t ht]
      exact hnamed t ht
    calc hit.card = (hit.image tag).card := (Finset.card_image_of_injective hit htag).symm
      _ ≤ (names (view s)).toFinset.card := Finset.card_le_card hsubset
      _ ≤ (names (view s)).length := List.toFinset_card_le _
      _ ≤ bound := hfew s hs

end

end Py
