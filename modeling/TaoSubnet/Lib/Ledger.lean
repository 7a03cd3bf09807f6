import Mathlib.Data.List.Induction
import Mathlib.Data.List.Nodup

/-!
# `Ledger` — which arrivals are where

Rows arrive one at a time into an open book; the open book is closed as a whole and becomes the
paid book, replacing what was there; rows can be dropped from either by what they are about.
A row is known by its `tag`, the position of its arrival in the history, so two rows that read
the same are still two rows.

Three facts hold of every history: a tag is in one book at most, and once
(`nodup_tags`); a row gets into the paid book by a close and in no other way (`paid_enters`); and
a row that is in neither book after it arrived is in neither book ever after (`gone_stays_gone`).

A program that keeps *sums* over its books, and no rows, is accounted for by proving that its sums
are the sums over the books of its history.
-/

/-- The two books. -/
structure Ledger (β ρ : Type) where
  openRows : List (Nat × β × ρ)
  paidRows : List (Nat × β × ρ)

namespace Ledger

variable {β ρ : Type}

/-- What can happen to the books. `drop` strikes from both, `dropOpen` from the open one. -/
inductive Event (β ρ : Type)
  | arrive (bucket : β) (row : ρ)
  | drop (p : β → Bool)
  | dropOpen (p : β → Bool)
  | close
  | discard

def empty : Ledger β ρ := ⟨[], []⟩

/-- The rows of a book that are not about `p`. -/
def strike (p : β → Bool) (rows : List (Nat × β × ρ)) : List (Nat × β × ρ) :=
  rows.filter fun row => !p row.2.1

/-- One event; `n` is its position in the history, and the tag of what arrives. -/
def apply (n : Nat) (l : Ledger β ρ) : Event β ρ → Ledger β ρ
  | .arrive bucket row => ⟨l.openRows ++ [(n, bucket, row)], l.paidRows⟩
  | .drop p => ⟨strike p l.openRows, strike p l.paidRows⟩
  | .dropOpen p => ⟨strike p l.openRows, l.paidRows⟩
  | .close => ⟨[], l.openRows⟩
  | .discard => ⟨[], []⟩

/-- The books after a history that is continued at position `n`. -/
def replayFrom (n : Nat) (l : Ledger β ρ) : List (Event β ρ) → Ledger β ρ
  | [] => l
  | e :: rest => replayFrom (n + 1) (apply n l e) rest

/-- The books after a history. -/
def replay (history : List (Event β ρ)) : Ledger β ρ := replayFrom 0 empty history

/-- All rows on the books. -/
def rows (l : Ledger β ρ) : List (Nat × β × ρ) := l.openRows ++ l.paidRows

theorem replayFrom_concat (e : Event β ρ) :
    ∀ (history : List (Event β ρ)) (n : Nat) (l : Ledger β ρ),
      replayFrom n l (history ++ [e]) =
        apply (n + history.length) (replayFrom n l history) e := by
  intro history
  induction history with
  | nil => intro n l; rfl
  | cons first rest ih =>
    intro n l
    rw [List.cons_append, replayFrom, ih, replayFrom, List.length_cons,
      Nat.add_right_comm n 1, Nat.add_assoc]

@[simp] theorem replay_concat (history : List (Event β ρ)) (e : Event β ρ) :
    replay (history ++ [e]) = apply history.length (replay history) e := by
  rw [replay, replayFrom_concat, Nat.zero_add]
  rfl

theorem mem_strike {p : β → Bool} {rows : List (Nat × β × ρ)} {row : Nat × β × ρ} :
    row ∈ strike p rows ↔ row ∈ rows ∧ p row.2.1 = false := by
  rw [strike, List.mem_filter, Bool.not_eq_true']

theorem strike_sublist (p : β → Bool) (rows : List (Nat × β × ρ)) :
    (strike p rows).Sublist rows := List.filter_sublist

/-! ## One event -/

/-- What is on the books after an event was there before, or is what just arrived. -/
theorem mem_rows_apply {n : Nat} {l : Ledger β ρ} {e : Event β ρ} {row : Nat × β × ρ}
    (h : row ∈ (apply n l e).rows) : row ∈ l.rows ∨ row.1 = n := by
  unfold rows at h ⊢
  rw [List.mem_append] at h ⊢
  cases e with
  | arrive bucket r =>
    rcases h with h | h
    · rcases List.mem_append.mp h with h | h
      · exact .inl (.inl h)
      · rw [List.mem_singleton] at h
        exact .inr (by rw [h])
    · exact .inl (.inr h)
  | drop p => exact .inl (h.imp (fun h => (mem_strike.mp h).1) fun h => (mem_strike.mp h).1)
  | dropOpen p => exact .inl (h.imp_left fun h => (mem_strike.mp h).1)
  | close =>
    rcases h with h | h
    · cases h
    · exact .inl (.inl h)
  | discard => rcases h with h | h <;> cases h

/-- **A row gets into the paid book by a close**, and out of the open one. -/
theorem paid_apply {n : Nat} {l : Ledger β ρ} {e : Event β ρ} {row : Nat × β × ρ}
    (h : row ∈ (apply n l e).paidRows) (hn : row ∉ l.paidRows) :
    e = .close ∧ row ∈ l.openRows := by
  cases e with
  | arrive bucket r => exact absurd h hn
  | drop p => exact absurd (mem_strike.mp h).1 hn
  | dropOpen p => exact absurd h hn
  | close => exact ⟨rfl, h⟩
  | discard => cases h

/-- An event keeps the tags distinct, as long as they are all older than it. -/
theorem nodup_apply {n : Nat} {l : Ledger β ρ} (e : Event β ρ)
    (hold : ∀ row ∈ l.rows, row.1 < n) (h : (l.rows.map Prod.fst).Nodup) :
    ((apply n l e).rows.map Prod.fst).Nodup := by
  cases e with
  | arrive bucket r =>
    have hrows : (apply n l (.arrive bucket r)).rows =
        l.openRows ++ (n, bucket, r) :: l.paidRows := List.append_assoc ..
    have hperm : ((apply n l (.arrive bucket r)).rows.map Prod.fst).Perm
        (n :: l.rows.map Prod.fst) := by
      rw [hrows]
      exact List.perm_middle.map Prod.fst
    refine hperm.nodup_iff.mpr (List.nodup_cons.mpr ⟨fun hm => ?_, h⟩)
    obtain ⟨row, hrow, hn⟩ := List.mem_map.mp hm
    exact absurd (hold row hrow) (by omega)
  | drop p =>
    exact h.sublist (((strike_sublist p _).append (strike_sublist p _)).map Prod.fst)
  | dropOpen p =>
    exact h.sublist (((strike_sublist p _).append (List.Sublist.refl _)).map Prod.fst)
  | close => exact h.sublist ((List.sublist_append_left _ _).map Prod.fst)
  | discard => exact List.nodup_nil

/-! ## Every history -/

theorem tag_lt (history : List (Event β ρ)) :
    ∀ row ∈ (replay history).rows, row.1 < history.length := by
  induction history using List.reverseRecOn with
  | nil => intro row h; cases h
  | append_singleton rest e ih =>
    intro row h
    rw [replay_concat] at h
    rw [List.length_append, List.length_singleton]
    rcases mem_rows_apply h with h | h
    · exact Nat.lt_succ_of_lt (ih row h)
    · omega

/-- **One book at most, and once.** -/
theorem nodup_tags (history : List (Event β ρ)) :
    ((replay history).rows.map Prod.fst).Nodup := by
  induction history using List.reverseRecOn with
  | nil => exact List.nodup_nil
  | append_singleton rest e ih =>
    rw [replay_concat]
    exact nodup_apply e (tag_lt rest) ih

/-- What is on the books was there at every earlier time after its arrival. -/
theorem mem_of_later {before after : List (Event β ρ)} {row : Nat × β × ρ}
    (h : row ∈ (replay (before ++ after)).rows) (harrived : row.1 < before.length) :
    row ∈ (replay before).rows := by
  induction after using List.reverseRecOn with
  | nil => rwa [List.append_nil] at h
  | append_singleton rest e ih =>
    rw [← List.append_assoc, replay_concat] at h
    rcases mem_rows_apply h with h | h
    · exact ih h
    · rw [List.length_append] at h
      omega

/-- **A row that left the books never comes back.** -/
theorem gone_stays_gone {before after : List (Event β ρ)} {row : Nat × β × ρ}
    (h : row ∉ (replay before).rows) (harrived : row.1 < before.length) :
    row ∉ (replay (before ++ after)).rows :=
  fun hm => h (mem_of_later hm harrived)

/-- A row that left the paid book is on no book: it cannot be back in the open one. -/
theorem gone_of_left_paid {before after : List (Event β ρ)} {row : Nat × β × ρ}
    (hin : row ∈ (replay before).paidRows) (hout : row ∉ (replay (before ++ after)).paidRows) :
    row ∉ (replay (before ++ after)).rows := by
  induction after using List.reverseRecOn with
  | nil => exact absurd hin (by rwa [List.append_nil] at hout)
  | append_singleton rest e ih =>
    have harrived : row.1 < (before ++ rest).length := by
      have := tag_lt before row (List.mem_append_right _ hin)
      rw [List.length_append]
      omega
    rw [← List.append_assoc] at hout ⊢
    by_cases hp : row ∈ (replay (before ++ rest)).paidRows
    · -- it leaves with this very event, and was not in the open book before it
      have hdisj : row ∉ (replay (before ++ rest)).openRows := by
        intro ho
        have hnd := nodup_tags (before ++ rest)
        rw [rows, List.map_append, List.nodup_append] at hnd
        exact hnd.2.2 _ (List.mem_map_of_mem ho) _ (List.mem_map_of_mem hp) rfl
      intro hm
      rcases List.mem_append.mp hm with ho | hpaid
      · rw [replay_concat] at ho
        cases e with
        | arrive bucket r =>
          rcases List.mem_append.mp ho with ho | ho
          · exact hdisj ho
          · rw [List.mem_singleton] at ho
            rw [ho] at harrived
            exact absurd harrived (Nat.lt_irrefl _)
        | drop p => exact hdisj (mem_strike.mp ho).1
        | dropOpen p => exact hdisj (mem_strike.mp ho).1
        | close => cases ho
        | discard => cases ho
      · exact hout hpaid
    · exact gone_stays_gone (ih hp) harrived

/-- **The paid book is entered by a close**: between a time a row was not in it and a later time
    it is, there is a close at which it was in the open book. -/
theorem paid_enters {before after : List (Event β ρ)} {row : Nat × β × ρ}
    (hout : row ∉ (replay before).paidRows)
    (hin : row ∈ (replay (before ++ after)).paidRows) :
    ∃ mid rest, after = mid ++ .close :: rest ∧ row ∈ (replay (before ++ mid)).openRows := by
  induction after using List.reverseRecOn with
  | nil => exact absurd hin (by rwa [List.append_nil])
  | append_singleton front e ih =>
    by_cases hp : row ∈ (replay (before ++ front)).paidRows
    · obtain ⟨mid, rest, rfl, ho⟩ := ih hp
      exact ⟨mid, rest ++ [e], by simp, ho⟩
    · rw [← List.append_assoc, replay_concat] at hin
      obtain ⟨rfl, ho⟩ := paid_apply hin hp
      exact ⟨front, [], rfl, ho⟩

end Ledger
