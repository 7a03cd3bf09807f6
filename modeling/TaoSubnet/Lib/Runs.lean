import Mathlib.Logic.Basic

/-!
# Runs of a machine

A machine is a partial step: an action that is not enabled takes it nowhere. The transitions of a
list of actions are those it takes up to the first that is not enabled, so that what holds of the
transitions of every list holds of every finite run, whatever the order of its actions.
-/

namespace Machine

variable {σ α : Type}

structure Transition (σ α : Type) where
  before : σ
  action : α
  after : σ

/-- The transitions from `s` on. -/
def transitions (step : σ → α → Option σ) (s : σ) : List α → List (Transition σ α)
  | [] => []
  | a :: rest => match step s a with
    | none => []
    | some s' => ⟨s, a, s'⟩ :: transitions step s' rest

variable {step : σ → α → Option σ}

theorem transitions_cons {s s' : σ} {a : α} {rest : List α} (h : step s a = some s') :
    transitions step s (a :: rest) = ⟨s, a, s'⟩ :: transitions step s' rest := by
  rw [transitions, h]

/-- A transition is a step of the machine. -/
theorem step_of_mem {actions : List α} :
    ∀ {s : σ}, ∀ t ∈ transitions step s actions, step t.before t.action = some t.after := by
  induction actions with
  | nil =>
    intro s t ht
    cases ht
  | cons a rest ih =>
    intro s t ht
    cases hs : step s a with
    | none =>
      rw [transitions, hs] at ht
      cases ht
    | some s' =>
      rw [transitions_cons hs] at ht
      rcases List.mem_cons.mp ht with rfl | hrest
      · exact hs
      · exact ih t hrest

/-- The rule of invariants, under a condition `G` on the transitions: what the start has and every
    step that meets `G` keeps, holds before every transition of a run whose transitions meet `G`. -/
theorem invariant {I : σ → Prop} {G : Transition σ α → Prop}
    (hstep : ∀ t : Transition σ α, step t.before t.action = some t.after → I t.before → G t →
      I t.after) {actions : List α} :
    ∀ {s : σ}, I s → (∀ t ∈ transitions step s actions, G t) →
      ∀ t ∈ transitions step s actions, I t.before := by
  induction actions with
  | nil =>
    intro s _ _ t ht
    cases ht
  | cons a rest ih =>
    intro s hs hG t ht
    cases hs' : step s a with
    | none =>
      rw [transitions, hs'] at ht
      cases ht
    | some s' =>
      rw [transitions_cons hs'] at hG ht
      rcases List.mem_cons.mp ht with rfl | hrest
      · exact hs
      · have hnext : I s' := hstep ⟨s, a, s'⟩ hs' hs (hG _ List.mem_cons_self)
        exact ih hnext (fun t' ht' => hG t' (List.mem_cons_of_mem _ ht')) t hrest

/-- What every transition relates, the start and the end of every transition of the run are. -/
theorem relates_start (R : σ → σ → Prop)
    (htrans : ∀ {s₁ s₂ s₃ : σ}, R s₁ s₂ → R s₂ s₃ → R s₁ s₃) {actions : List α} :
    ∀ {s : σ}, (∀ t ∈ transitions step s actions, R t.before t.after) →
      ∀ t ∈ transitions step s actions, R s t.after := by
  induction actions with
  | nil =>
    intro s _ t ht
    cases ht
  | cons a rest ih =>
    intro s hR t ht
    cases hs : step s a with
    | none =>
      rw [transitions, hs] at ht
      cases ht
    | some s' =>
      rw [transitions_cons hs] at hR ht
      have hfirst : R s s' := hR _ List.mem_cons_self
      rcases List.mem_cons.mp ht with rfl | hrest
      · exact hfirst
      · exact htrans hfirst (ih (fun t' ht' => hR t' (List.mem_cons_of_mem _ ht')) t hrest)

/-- What every transition relates, any two states of the run are, the earlier to the later. -/
theorem pairwise_after (R : σ → σ → Prop)
    (htrans : ∀ {s₁ s₂ s₃ : σ}, R s₁ s₂ → R s₂ s₃ → R s₁ s₃) {actions : List α} :
    ∀ {s : σ}, (∀ t ∈ transitions step s actions, R t.before t.after) →
      (transitions step s actions).Pairwise fun t t' => R t.after t'.after := by
  induction actions with
  | nil =>
    intro s _
    exact .nil
  | cons a rest ih =>
    intro s hR
    cases hs : step s a with
    | none =>
      rw [transitions, hs]
      exact .nil
    | some s' =>
      rw [transitions_cons hs] at hR ⊢
      have hrest : ∀ t ∈ transitions step s' rest, R t.before t.after :=
        fun t ht => hR t (List.mem_cons_of_mem _ ht)
      have hlater : ∀ t ∈ transitions step s' rest, R s' t.after := relates_start R htrans hrest
      exact .cons hlater (ih hrest)

/-! ## Reachable states -/

/-- The states that runs from `s₀` come to. -/
inductive Reachable (step : σ → α → Option σ) (s₀ : σ) : σ → Prop
  | start : Reachable step s₀ s₀
  | next {s s' : σ} {a : α} (h : Reachable step s₀ s) (hs : step s a = some s') :
    Reachable step s₀ s'

theorem Reachable.trans {s₀ s₁ s : σ} (h : Reachable step s₀ s₁) (h' : Reachable step s₁ s) :
    Reachable step s₀ s := by
  induction h' with
  | start => exact h
  | next _ hs ih => exact ih.next hs

/-- What the start has and every step keeps, every reachable state has. -/
theorem Reachable.keeps {s₀ s : σ} {I : σ → Prop} (h : Reachable step s₀ s) (h₀ : I s₀)
    (hstep : ∀ {s s' : σ} {a : α}, step s a = some s' → I s → I s') : I s := by
  induction h with
  | start => exact h₀
  | next _ hs ih => exact hstep hs ih

theorem reachable_of_mem {s₀ : σ} {actions : List α} :
    ∀ {s : σ}, Reachable step s₀ s → ∀ t ∈ transitions step s actions,
      Reachable step s₀ t.after := by
  induction actions with
  | nil =>
    intro s _ t ht
    cases ht
  | cons a rest ih =>
    intro s hs t ht
    cases hs' : step s a with
    | none =>
      rw [transitions, hs'] at ht
      cases ht
    | some s' =>
      rw [transitions_cons hs'] at ht
      rcases List.mem_cons.mp ht with rfl | hrest
      · exact hs.next hs'
      · exact ih (hs.next hs') t hrest

end Machine
