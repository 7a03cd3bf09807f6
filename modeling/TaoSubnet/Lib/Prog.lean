import Mathlib.Logic.Basic

/-!
# `Prog` — stateful programs that may raise

A program over a state `σ` that ends with a value or with a raised `ε`. The state is threaded
*outside* the result, so what was written before a raise stays written: the order a language
with `try`/`except`/`finally` has, and the opposite of `StateT` over `Except`, which rolls back.

`Prog.Spec P x Q E` is the rule of pre- and postconditions for it: from a state in `P`, a normal
end is in `Q` and a raise is in `E`. The rules below follow the constructors one by one, and
`Prog.Keeps` is the special case everything about invariants is proved with. `Prog.Rel` runs two
programs side by side.
-/

namespace Py

/-! ## Exceptions -/

/-- The built-in exception classes a program can tell apart. -/
inductive ExcClass
  | osError
  | fileNotFoundError
  | timeoutExpired
  | valueError
  | jsonDecodeError
  | unicodeDecodeError
  | unicodeEncodeError
  | recursionError
  | overflowError
  | zeroDivisionError
  | typeError
  | attributeError
  | keyError
  | indexError
  deriving DecidableEq, Repr

/-- `type(exc).__name__`. -/
def ExcClass.name : ExcClass → String
  | .osError => "OSError"
  | .fileNotFoundError => "FileNotFoundError"
  | .timeoutExpired => "TimeoutExpired"
  | .valueError => "ValueError"
  | .jsonDecodeError => "JSONDecodeError"
  | .unicodeDecodeError => "UnicodeDecodeError"
  | .unicodeEncodeError => "UnicodeEncodeError"
  | .recursionError => "RecursionError"
  | .overflowError => "OverflowError"
  | .zeroDivisionError => "ZeroDivisionError"
  | .typeError => "TypeError"
  | .attributeError => "AttributeError"
  | .keyError => "KeyError"
  | .indexError => "IndexError"

/-- An `except OSError` clause catches the missing-file error too. -/
def ExcClass.isOSError : ExcClass → Bool
  | .osError => true
  | .fileNotFoundError => true
  | _ => false

/-- An `except ValueError` clause catches the decoding and encoding errors too. -/
def ExcClass.isValueError : ExcClass → Bool
  | .valueError => true
  | .jsonDecodeError => true
  | .unicodeDecodeError => true
  | .unicodeEncodeError => true
  | _ => false

/-- A raised built-in exception: its class and `str(exc)`. -/
structure Exc where
  cls : ExcClass
  message : String
  deriving DecidableEq, Repr

/-! ## Programs -/

/-- A program over `σ` that ends with an `α` or raises an `ε`. -/
def Prog (σ ε α : Type) : Type := σ → Except ε α × σ

namespace Prog

variable {σ ε α β : Type}

/-- Ends at once with `a`. -/
def ret (a : α) : Prog σ ε α := fun s => (.ok a, s)

/-- Runs `x`, then `f` on its value; a raise of `x` skips `f`. -/
def andThen (x : Prog σ ε α) (f : α → Prog σ ε β) : Prog σ ε β := fun s =>
  match x s with
  | (.ok a, s') => f a s'
  | (.error e, s') => (.error e, s')

instance : Monad (Prog σ ε) where
  pure := ret
  bind := andThen

/-- `raise e`. -/
def raise (e : ε) : Prog σ ε α := fun s => (.error e, s)

/-- The current state. -/
def get : Prog σ ε σ := fun s => (.ok s, s)

/-- Replaces the state by `f` of it. -/
def modify (f : σ → σ) : Prog σ ε Unit := fun s => (.ok (), f s)

/-- Raises or returns what a pure computation does. -/
def ofExcept (r : Except ε α) : Prog σ ε α := fun s => (r, s)

/-- `try: body except e: handler e`. The handler may raise again. -/
def tryExcept (body : Prog σ ε α) (handler : ε → Prog σ ε α) : Prog σ ε α := fun s =>
  match body s with
  | (.ok a, s') => (.ok a, s')
  | (.error e, s') => handler e s'

/-- `try: body finally: cleanup`. The cleanup runs on every path, and what it raises replaces
    the value, or the exception, of the body. -/
def tryFinally (body : Prog σ ε α) (cleanup : Prog σ ε Unit) : Prog σ ε α := fun s =>
  match body s with
  | (r, s') =>
    match cleanup s' with
    | (.ok _, s'') => (r, s'')
    | (.error e, s'') => (.error e, s'')

/-- `for a in xs: body a`. -/
def forEach : List α → (α → Prog σ ε Unit) → Prog σ ε Unit
  | [], _ => ret ()
  | a :: rest, body => andThen (body a) fun _ => forEach rest body

/-- `x`, its exceptions seen as those of a larger program. -/
def mapError {ε' : Type} (f : ε → ε') (x : Prog σ ε α) : Prog σ ε' α := fun s =>
  ((x s).1.mapError f, (x s).2)

/-! ## Running -/

@[simp] theorem pure_run (a : α) (s : σ) : (pure a : Prog σ ε α) s = (.ok a, s) := rfl

theorem bind_run (x : Prog σ ε α) (f : α → Prog σ ε β) (s : σ) :
    (x >>= f) s = match x s with
      | (.ok a, s') => f a s'
      | (.error e, s') => (.error e, s') := rfl

/-- A normal end of the first half hands its value and state to the second. -/
theorem bind_ok {x : Prog σ ε α} {f : α → Prog σ ε β} {s s' : σ} {a : α}
    (h : x s = (.ok a, s')) : (x >>= f) s = f a s' := by
  rw [bind_run, h]

/-- A raise of the first half ends the whole. -/
theorem bind_error {x : Prog σ ε α} {f : α → Prog σ ε β} {s s' : σ} {e : ε}
    (h : x s = (.error e, s')) : (x >>= f) s = (.error e, s') := by
  rw [bind_run, h]

/-- A whole that ends normally is made of two halves that do. -/
theorem bind_eq_ok {x : Prog σ ε α} {f : α → Prog σ ε β} {s s' : σ} {b : β}
    (h : (x >>= f) s = (.ok b, s')) : ∃ a s₁, x s = (.ok a, s₁) ∧ f a s₁ = (.ok b, s') := by
  rcases hx : x s with ⟨e | a, s₁⟩
  · rw [bind_error hx] at h
    cases h
  · rw [bind_ok hx] at h
    exact ⟨a, s₁, rfl, h⟩

theorem pure_bind (a : α) (f : α → Prog σ ε β) : (pure a : Prog σ ε α) >>= f = f a := rfl

theorem bind_assoc {γ : Type} (x : Prog σ ε α) (f : α → Prog σ ε β) (g : β → Prog σ ε γ) :
    (x >>= f) >>= g = x >>= fun a => f a >>= g := by
  funext s
  rcases hx : x s with ⟨e | a, s₁⟩
  · rw [bind_error (bind_error hx), bind_error hx]
  · rw [bind_ok hx, bind_run (x >>= f) g, bind_ok hx]
    rfl

@[simp] theorem raise_run (e : ε) (s : σ) : (raise e : Prog σ ε α) s = (.error e, s) := rfl

@[simp] theorem get_run (s : σ) : (get : Prog σ ε σ) s = (.ok s, s) := rfl

@[simp] theorem modify_run (f : σ → σ) (s : σ) :
    (modify f : Prog σ ε Unit) s = (.ok (), f s) := rfl

@[simp] theorem ofExcept_run (r : Except ε α) (s : σ) : (ofExcept r) s = (r, s) := rfl

/-- A body that ends normally never meets its handler. -/
theorem tryExcept_ok {body : Prog σ ε α} {handler : ε → Prog σ ε α} {s s' : σ} {a : α}
    (h : body s = (.ok a, s')) : tryExcept body handler s = (.ok a, s') := by
  rw [tryExcept, h]

/-- A raise of the body is handed to the handler, at the state the body left. -/
theorem tryExcept_error {body : Prog σ ε α} {handler : ε → Prog σ ε α} {s s' : σ} {e : ε}
    (h : body s = (.error e, s')) : tryExcept body handler s = handler e s' := by
  rw [tryExcept, h]

/-- A handler that never raises makes the whole end normally. -/
theorem tryExcept_total {body : Prog σ ε α} {handler : ε → Prog σ ε α}
    (hh : ∀ e s, ∃ a s', handler e s = (.ok a, s')) (s : σ) :
    ∃ a s', tryExcept body handler s = (.ok a, s') := by
  rcases hb : body s with ⟨_ | a, s'⟩
  · rw [tryExcept_error hb]
    exact hh _ _
  · exact ⟨a, s', tryExcept_ok hb⟩

/-- A normal end under a handler is the body's, or the handler's after a raise. -/
theorem tryExcept_eq_ok {body : Prog σ ε α} {handler : ε → Prog σ ε α} {s s' : σ} {a : α}
    (h : tryExcept body handler s = (.ok a, s')) :
    body s = (.ok a, s') ∨ ∃ e s₁, body s = (.error e, s₁) ∧ handler e s₁ = (.ok a, s') := by
  rcases hb : body s with ⟨e | b, s₁⟩
  · rw [tryExcept_error hb] at h
    exact .inr ⟨e, s₁, rfl, h⟩
  · rw [tryExcept_ok hb] at h
    exact .inl h

/-- A cleanup that ends normally leaves the body's end as it is. -/
theorem tryFinally_ok {body : Prog σ ε α} {cleanup : Prog σ ε Unit} {s s₁ s₂ : σ}
    {r : Except ε α} (hbody : body s = (r, s₁)) (hcleanup : cleanup s₁ = (.ok (), s₂)) :
    tryFinally body cleanup s = (r, s₂) := by
  simp only [tryFinally, hbody, hcleanup]

/-- A normal end of a body with a cleanup is one of both. -/
theorem tryFinally_eq_ok {body : Prog σ ε α} {cleanup : Prog σ ε Unit} {s s' : σ} {a : α}
    (h : tryFinally body cleanup s = (.ok a, s')) :
    ∃ s₁, body s = (.ok a, s₁) ∧ cleanup s₁ = (.ok (), s') := by
  rcases hb : body s with ⟨r, s₁⟩
  rcases hc : cleanup s₁ with ⟨e | u, s₂⟩ <;> simp only [tryFinally, hb, hc, Prod.mk.injEq] at h
  · cases h.1
  · obtain ⟨rfl, rfl⟩ := h
    exact ⟨s₁, rfl, hc⟩

/-! ## Pre- and postconditions -/

/-- From a state in `P`, a normal end of `x` is in `Q` and a raise is in `E`. -/
def Spec (P : σ → Prop) (x : Prog σ ε α) (Q : α → σ → Prop) (E : ε → σ → Prop) : Prop :=
  ∀ s, P s → match x s with
    | (.ok a, s') => Q a s'
    | (.error e, s') => E e s'

variable {P P' : σ → Prop} {Q Q' : α → σ → Prop} {E E' : ε → σ → Prop}

theorem Spec.conseq {x : Prog σ ε α} (h : Spec P x Q E) (hP : ∀ s, P' s → P s)
    (hQ : ∀ a s, Q a s → Q' a s) (hE : ∀ e s, E e s → E' e s) : Spec P' x Q' E' := by
  intro s hs
  have := h s (hP s hs)
  rcases hx : x s with ⟨_ | a, s'⟩ <;> rw [hx] at this
  · exact hE _ _ this
  · exact hQ _ _ this

theorem Spec.ret {a : α} (h : ∀ s, P s → Q a s) : Spec P (pure a : Prog σ ε α) Q E :=
  fun s hs => h s hs

theorem Spec.raise {e : ε} (h : ∀ s, P s → E e s) : Spec P (raise e : Prog σ ε α) Q E :=
  fun s hs => h s hs

theorem Spec.bind {x : Prog σ ε α} {f : α → Prog σ ε β} {R : β → σ → Prop}
    (hx : Spec P x Q E) (hf : ∀ a, Spec (Q a) (f a) R E) : Spec P (x >>= f) R E := by
  intro s hs
  have h1 := hx s hs
  rcases hr : x s with ⟨e | a, s'⟩ <;> rw [hr] at h1
  · rw [bind_error hr]
    exact h1
  · rw [bind_ok hr]
    exact hf a s' h1

theorem Spec.tryExcept {body : Prog σ ε α} {handler : ε → Prog σ ε α}
    (hb : Spec P body Q E') (hh : ∀ e, Spec (E' e) (handler e) Q E) :
    Spec P (tryExcept body handler) Q E := by
  intro s hs
  have h1 := hb s hs
  rcases hr : body s with ⟨e | a, s'⟩ <;> rw [hr] at h1
  · rw [tryExcept_error hr]
    exact hh e s' h1
  · rw [tryExcept_ok hr]
    exact h1

/-- The cleanup is run from wherever the body ended, and may itself raise. -/
theorem Spec.tryFinally {body : Prog σ ε α} {cleanup : Prog σ ε Unit}
    (hb : Spec P body Q E) (hq : ∀ a, Spec (Q a) cleanup (fun _ => Q' a) E')
    (he : ∀ e, Spec (E e) cleanup (fun _ => E' e) E') :
    Spec P (tryFinally body cleanup) Q' E' := by
  intro s hs
  have h1 := hb s hs
  rcases hr : body s with ⟨e | a, s'⟩ <;> rw [hr] at h1
  · have h2 := he e s' h1
    rcases hc : cleanup s' with ⟨_ | _, s''⟩ <;> rw [hc] at h2 <;>
      simpa [Prog.tryFinally, hr, hc] using h2
  · have h2 := hq a s' h1
    rcases hc : cleanup s' with ⟨_ | _, s''⟩ <;> rw [hc] at h2 <;>
      simpa [Prog.tryFinally, hr, hc] using h2

/-! ## Invariants -/

/-- `x` keeps `I`, however it ends. -/
def Keeps (I : σ → Prop) (x : Prog σ ε α) : Prop := ∀ s, I s → I (x s).2

variable {I : σ → Prop}

/-- Where a run from `I` gets to. -/
theorem Keeps.run {x : Prog σ ε α} (h : Keeps I x) {s s' : σ} {r : Except ε α} (hs : I s)
    (hx : x s = (r, s')) : I s' := by
  have h1 := h s hs
  rw [hx] at h1
  exact h1

theorem Keeps.ret (a : α) : Keeps I (pure a : Prog σ ε α) := fun _ hs => hs

theorem Keeps.raise (e : ε) : Keeps I (Prog.raise e : Prog σ ε α) := fun _ hs => hs

theorem Keeps.get : Keeps I (Prog.get : Prog σ ε σ) := fun _ hs => hs

theorem Keeps.ofExcept (r : Except ε α) : Keeps I (Prog.ofExcept r : Prog σ ε α) :=
  fun _ hs => hs

theorem Keeps.modify {f : σ → σ} (h : ∀ s, I s → I (f s)) :
    Keeps I (Prog.modify f : Prog σ ε Unit) := h

theorem Keeps.bind {x : Prog σ ε α} {f : α → Prog σ ε β} (hx : Keeps I x)
    (hf : ∀ a, Keeps I (f a)) : Keeps I (x >>= f) := by
  intro s hs
  have h1 := hx s hs
  rcases hr : x s with ⟨e | a, s'⟩ <;> rw [hr] at h1
  · rw [bind_error hr]
    exact h1
  · rw [bind_ok hr]
    exact hf a s' h1

theorem Keeps.tryExcept {body : Prog σ ε α} {handler : ε → Prog σ ε α} (hb : Keeps I body)
    (hh : ∀ e, Keeps I (handler e)) : Keeps I (Prog.tryExcept body handler) := by
  intro s hs
  have h1 := hb s hs
  rcases hr : body s with ⟨e | a, s'⟩ <;> rw [hr] at h1
  · rw [tryExcept_error hr]
    exact hh e s' h1
  · rw [tryExcept_ok hr]
    exact h1

theorem Keeps.tryFinally {body : Prog σ ε α} {cleanup : Prog σ ε Unit} (hb : Keeps I body)
    (hc : Keeps I cleanup) : Keeps I (Prog.tryFinally body cleanup) := by
  intro s hs
  have h1 := hc _ (hb s hs)
  rcases hr : body s with ⟨r, s'⟩
  rw [hr] at h1
  rcases hc' : cleanup s' with ⟨_ | _, s''⟩ <;> rw [hc'] at h1 <;>
    simpa [Prog.tryFinally, hr, hc'] using h1

theorem Keeps.mapError {ε' : Type} (f : ε → ε') {x : Prog σ ε α} (h : Keeps I x) :
    Keeps I (Prog.mapError f x) := h

theorem Keeps.forEach {body : α → Prog σ ε Unit} :
    ∀ (xs : List α), (∀ a ∈ xs, Keeps I (body a)) → Keeps I (Prog.forEach xs body)
  | [], _ => Keeps.ret ()
  | a :: rest, h =>
    Keeps.bind (h a List.mem_cons_self)
      fun _ => Keeps.forEach rest fun b hb => h b (List.mem_cons_of_mem _ hb)

/-- Keeping an invariant is a postcondition, and stays one when a raise may end anywhere. -/
theorem Keeps.spec {x : Prog σ ε α} (h : Keeps I x) (hE : ∀ e s, I s → E e s) :
    Spec I x (fun _ => I) E := by
  intro s hs
  have h1 := h s hs
  rcases hx : x s with ⟨e | a, s'⟩ <;> rw [hx] at h1
  · exact hE e s' h1
  · exact h1

/-- Where every run from `P` ends up, however it ends. -/
theorem Spec.of_state {x : Prog σ ε α} (h : ∀ s, P s → I (x s).2) :
    Spec P x (fun _ => I) fun _ => I := by
  intro s hs
  have h1 := h s hs
  rcases hx : x s with ⟨e | a, s'⟩ <;> rw [hx] at h1
  · exact h1
  · exact h1

theorem Spec.state {x : Prog σ ε α} (h : Spec P x (fun _ => I) fun _ => I) {s : σ} (hs : P s) :
    I (x s).2 := by
  have h1 := h s hs
  rcases hx : x s with ⟨e | a, s'⟩ <;> rw [hx] at h1
  · exact h1
  · exact h1

/-- A postcondition that a raise meets too is an invariant. -/
theorem Spec.keeps {x : Prog σ ε α} (h : Spec I x (fun _ => I) fun _ => I) : Keeps I x :=
  fun _ hs => h.state hs

theorem Spec.ite {c : Prop} [Decidable c] {x y : Prog σ ε α} (hx : Spec P x Q E)
    (hy : Spec P y Q E) : Spec P (if c then x else y) Q E := by
  split
  · exact hx
  · exact hy

theorem Spec.forEach {body : α → Prog σ ε Unit} :
    ∀ (xs : List α), (∀ a ∈ xs, Spec I (body a) (fun _ => I) E) →
      Spec I (Prog.forEach xs body) (fun _ => I) E
  | [], _ => Spec.ret fun _ hs => hs
  | a :: rest, h =>
    Spec.bind (h a List.mem_cons_self)
      fun _ => Spec.forEach rest fun b hb => h b (List.mem_cons_of_mem _ hb)

theorem Keeps.ite {c : Prop} [Decidable c] {x y : Prog σ ε α} (hx : Keeps I x)
    (hy : Keeps I y) : Keeps I (if c then x else y) := by
  split
  · exact hx
  · exact hy

/-- `x` keeps `I`, and what it returns is in `V`. -/
def Yields (I : σ → Prop) (x : Prog σ ε α) (V : α → Prop) : Prop :=
  Spec I x (fun a s => V a ∧ I s) fun _ => I

section Yields

variable {V : α → Prop}

theorem Yields.ret {a : α} (h : V a) : Yields I (pure a : Prog σ ε α) V :=
  Spec.ret fun _ hs => ⟨h, hs⟩

theorem Yields.raise (e : ε) : Yields I (Prog.raise e : Prog σ ε α) V := Spec.raise fun _ hs => hs

theorem Yields.ite {c : Prop} [Decidable c] {x y : Prog σ ε α} (hx : Yields I x V)
    (hy : Yields I y V) : Yields I (if c then x else y) V := Spec.ite hx hy

/-- What the first half returns is known to the second. -/
theorem Yields.bind {x : Prog σ ε α} {f : α → Prog σ ε β} (hx : Yields I x V)
    (hf : ∀ a, V a → Keeps I (f a)) : Keeps I (x >>= f) :=
  (Spec.bind hx fun a s hs => (hf a hs.1).spec (fun _ _ hs => hs) s hs.2).keeps

/-- What the whole returns is what its second half does. -/
theorem Keeps.yields {x : Prog σ ε α} {f : α → Prog σ ε β} {W : β → Prop} (hx : Keeps I x)
    (hf : ∀ a, Yields I (f a) W) : Yields I (x >>= f) W :=
  Spec.bind (hx.spec fun _ _ hs => hs) hf

end Yields

/-! ## Ends that do not depend on the state -/

/-- From every state `x` ends with a value in `Q`. -/
def Returns (x : Prog σ ε α) (Q : α → Prop) : Prop := ∀ s, ∃ a, (x s).1 = .ok a ∧ Q a

/-- From every state `x` raises. -/
def Raises (x : Prog σ ε α) : Prop := ∀ s, ∃ e, (x s).1 = .error e

variable {V V' : α → Prop}

theorem Returns.mono {x : Prog σ ε α} (h : Returns x V) (hV : ∀ a, V a → V' a) :
    Returns x V' := by
  intro s
  obtain ⟨a, ha, hv⟩ := h s
  exact ⟨a, ha, hV a hv⟩

theorem Returns.ret {a : α} (h : V a) : Returns (pure a : Prog σ ε α) V := fun _ => ⟨a, rfl, h⟩

theorem Returns.ofExcept {a : α} (h : V a) : Returns (Prog.ofExcept (.ok a) : Prog σ ε α) V :=
  fun _ => ⟨a, rfl, h⟩

theorem Raises.ofExcept (e : ε) : Raises (Prog.ofExcept (.error e) : Prog σ ε α) :=
  fun _ => ⟨e, rfl⟩

theorem Raises.raise (e : ε) : Raises (Prog.raise e : Prog σ ε α) := fun _ => ⟨e, rfl⟩

theorem Returns.run {x : Prog σ ε α} (h : Returns x V) (s : σ) :
    ∃ a s', x s = (.ok a, s') ∧ V a := by
  obtain ⟨a, ha, hv⟩ := h s
  exact ⟨a, (x s).2, Prod.ext ha rfl, hv⟩

theorem Raises.run {x : Prog σ ε α} (h : Raises x) (s : σ) : ∃ e s', x s = (.error e, s') := by
  obtain ⟨e, he⟩ := h s
  exact ⟨e, (x s).2, Prod.ext he rfl⟩

theorem Returns.bind {x : Prog σ ε α} {f : α → Prog σ ε β} {W : β → Prop} (hx : Returns x V)
    (hf : ∀ a, V a → Returns (f a) W) : Returns (x >>= f) W := by
  intro s
  obtain ⟨a, s', hr, hv⟩ := hx.run s
  rw [bind_ok hr]
  exact hf a hv s'

theorem Raises.bind {x : Prog σ ε α} (f : α → Prog σ ε β) (hx : Raises x) : Raises (x >>= f) := by
  intro s
  obtain ⟨e, s', hr⟩ := hx.run s
  rw [bind_error hr]
  exact ⟨e, rfl⟩

/-- The first half returns; the second raises on whatever it returned. -/
theorem Returns.bind_raises {x : Prog σ ε α} {f : α → Prog σ ε β} (hx : Returns x V)
    (hf : ∀ a, V a → Raises (f a)) : Raises (x >>= f) := by
  intro s
  obtain ⟨a, s', hr, hv⟩ := hx.run s
  rw [bind_ok hr]
  exact hf a hv s'

theorem Returns.tryExcept {body : Prog σ ε α} (hb : Returns body V)
    (handler : ε → Prog σ ε α) : Returns (Prog.tryExcept body handler) V := by
  intro s
  obtain ⟨a, s', hr, hv⟩ := hb.run s
  rw [tryExcept_ok hr]
  exact ⟨a, rfl, hv⟩

theorem Raises.tryExcept {body : Prog σ ε α} {handler : ε → Prog σ ε α} (hb : Raises body)
    (hh : ∀ e, Returns (handler e) V) : Returns (Prog.tryExcept body handler) V := by
  intro s
  obtain ⟨e, s', hr⟩ := hb.run s
  rw [tryExcept_error hr]
  exact hh e s'

/-- Where the handler returns, the whole returns, whatever the body does. -/
theorem Returns.tryExcept_any (body : Prog σ ε α) {handler : ε → Prog σ ε α}
    (hh : ∀ e, Returns (handler e) fun _ => True) :
    Returns (Prog.tryExcept body handler) fun _ => True := by
  intro s
  rcases hr : body s with ⟨e | a, s'⟩
  · rw [tryExcept_error hr]
    exact hh e s'
  · rw [tryExcept_ok hr]
    exact ⟨a, rfl, trivial⟩

theorem Returns.tryFinally {body : Prog σ ε α} {cleanup : Prog σ ε Unit} (hb : Returns body V)
    (hc : Returns cleanup fun _ => True) : Returns (Prog.tryFinally body cleanup) V := by
  intro s
  obtain ⟨a, s', hr, hv⟩ := hb.run s
  obtain ⟨_, s'', hq, -⟩ := hc.run s'
  exact ⟨a, by rw [Prog.tryFinally, hr]; simp only [hq], hv⟩

/-- What the cleanup raises is what the whole raises. -/
theorem Raises.tryFinally (body : Prog σ ε α) {cleanup : Prog σ ε Unit} (hc : Raises cleanup) :
    Raises (Prog.tryFinally body cleanup) := by
  intro s
  rcases hr : body s with ⟨r, s'⟩
  obtain ⟨e, s'', hq⟩ := hc.run s'
  exact ⟨e, by rw [Prog.tryFinally, hr]; simp only [hq]⟩

/-! ## Two runs side by side -/

/-- From related states `x` and `y` end alike, in related states. -/
def Rel (R : σ → σ → Prop) (x y : Prog σ ε α) : Prop :=
  ∀ s t, R s t → (x s).1 = (y t).1 ∧ R (x s).2 (y t).2

variable {R : σ → σ → Prop}

theorem Rel.ret (a : α) : Rel R (pure a : Prog σ ε α) (pure a) := fun _ _ h => ⟨rfl, h⟩

theorem Rel.raise (e : ε) : Rel R (Prog.raise e : Prog σ ε α) (Prog.raise e) :=
  fun _ _ h => ⟨rfl, h⟩

theorem Rel.ofExcept (r : Except ε α) : Rel R (Prog.ofExcept r : Prog σ ε α) (Prog.ofExcept r) :=
  fun _ _ h => ⟨rfl, h⟩

theorem Rel.modify {f g : σ → σ} (h : ∀ s t, R s t → R (f s) (g t)) :
    Rel R (Prog.modify f : Prog σ ε Unit) (Prog.modify g) := fun s t hst => ⟨rfl, h s t hst⟩

theorem Rel.bind {x y : Prog σ ε α} {f g : α → Prog σ ε β} (hx : Rel R x y)
    (hf : ∀ a, Rel R (f a) (g a)) : Rel R (x >>= f) (y >>= g) := by
  intro s t hst
  obtain ⟨h1, h2⟩ := hx s t hst
  rcases hr : x s with ⟨e | a, s'⟩ <;> rcases hq : y t with ⟨e' | a', t'⟩ <;>
    rw [hr, hq] at h1 h2
  · rw [bind_error hr, bind_error hq]
    exact ⟨congrArg Except.error (Except.error.inj h1), h2⟩
  · cases h1
  · cases h1
  · rw [bind_ok hr, bind_ok hq, Except.ok.inj h1]
    exact hf a' s' t' h2

/-- Reading the state: what is read differs, and the rest has to make up for it. -/
theorem Rel.get_bind {f g : σ → Prog σ ε β} (h : ∀ s t, R s t → Rel R (f s) (g t)) :
    Rel R (Prog.get >>= f) (Prog.get >>= g) := by
  intro s t hst
  rw [bind_ok (get_run s), bind_ok (get_run t)]
  exact h s t hst s t hst

theorem Rel.tryExcept {x y : Prog σ ε α} {f g : ε → Prog σ ε α} (hx : Rel R x y)
    (hf : ∀ e, Rel R (f e) (g e)) : Rel R (Prog.tryExcept x f) (Prog.tryExcept y g) := by
  intro s t hst
  obtain ⟨h1, h2⟩ := hx s t hst
  rcases hr : x s with ⟨e | a, s'⟩ <;> rcases hq : y t with ⟨e' | a', t'⟩ <;>
    rw [hr, hq] at h1 h2
  · rw [tryExcept_error hr, tryExcept_error hq, Except.error.inj h1]
    exact hf e' s' t' h2
  · cases h1
  · cases h1
  · rw [tryExcept_ok hr, tryExcept_ok hq]
    exact ⟨h1, h2⟩

theorem Rel.forEach {body body' : α → Prog σ ε Unit} :
    ∀ (xs : List α), (∀ a ∈ xs, Rel R (body a) (body' a)) →
      Rel R (Prog.forEach xs body) (Prog.forEach xs body')
  | [], _ => Rel.ret ()
  | a :: rest, h =>
    Rel.bind (h a List.mem_cons_self)
      fun _ => Rel.forEach rest fun b hb => h b (List.mem_cons_of_mem _ hb)

/-! ## Two programs of different states and values -/

/-- Two ends that are the same raise, or values of `V`. -/
inductive EndsAlike (V : α → β → Prop) : Except ε α → Except ε β → Prop
  | ok {a : α} {b : β} (h : V a b) : EndsAlike V (.ok a) (.ok b)
  | error (e : ε) : EndsAlike V (.error e) (.error e)

section Sim

variable {τ α' β' : Type} {R : σ → τ → Prop} {V : α → β → Prop}

/-- From related states `x` and `y` end alike, in related states. -/
def Sim (R : σ → τ → Prop) (V : α → β → Prop) (x : Prog σ ε α) (y : Prog τ ε β) : Prop :=
  ∀ s t, R s t → EndsAlike V (x s).1 (y t).1 ∧ R (x s).2 (y t).2

theorem Sim.ret {a : α} {b : β} (h : V a b) : Sim R V (pure a : Prog σ ε α) (pure b : Prog τ ε β) :=
  fun _ _ hst => ⟨.ok h, hst⟩

theorem Sim.raise (e : ε) : Sim R V (Prog.raise e : Prog σ ε α) (Prog.raise e : Prog τ ε β) :=
  fun _ _ hst => ⟨.error e, hst⟩

theorem Sim.modify {f : σ → σ} {g : τ → τ} (h : ∀ s t, R s t → R (f s) (g t)) :
    Sim R (fun _ _ => True) (Prog.modify f : Prog σ ε Unit) (Prog.modify g) :=
  fun s t hst => ⟨.ok trivial, h s t hst⟩

theorem Sim.mono {V' : α → β → Prop} {x : Prog σ ε α} {y : Prog τ ε β} (h : Sim R V x y)
    (hV : ∀ a b, V a b → V' a b) : Sim R V' x y := by
  intro s t hst
  obtain ⟨hend, hR⟩ := h s t hst
  refine ⟨?_, hR⟩
  generalize (x s).1 = r at hend ⊢
  generalize (y t).1 = q at hend ⊢
  cases hend with
  | ok hab => exact .ok (hV _ _ hab)
  | error e => exact .error e

theorem Sim.bind {W : α' → β' → Prop} {x : Prog σ ε α} {y : Prog τ ε β} {f : α → Prog σ ε α'}
    {g : β → Prog τ ε β'} (hx : Sim R V x y) (hf : ∀ a b, V a b → Sim R W (f a) (g b)) :
    Sim R W (x >>= f) (y >>= g) := by
  intro s t hst
  obtain ⟨hend, hR⟩ := hx s t hst
  rcases hr : x s with ⟨r, s'⟩
  rcases hq : y t with ⟨q, t'⟩
  rw [hr, hq] at hend hR
  cases hend with
  | ok hab =>
    rw [bind_ok hr, bind_ok hq]
    exact hf _ _ hab s' t' hR
  | error e =>
    rw [bind_error hr, bind_error hq]
    exact ⟨.error e, hR⟩

theorem Sim.get_bind {f : σ → Prog σ ε α} {g : τ → Prog τ ε β}
    (h : ∀ s t, R s t → Sim R V (f s) (g t)) : Sim R V (Prog.get >>= f) (Prog.get >>= g) := by
  intro s t hst
  rw [bind_ok (get_run s), bind_ok (get_run t)]
  exact h s t hst s t hst

theorem Sim.tryExcept {x : Prog σ ε α} {y : Prog τ ε β} {f : ε → Prog σ ε α} {g : ε → Prog τ ε β}
    (hx : Sim R V x y) (hf : ∀ e, Sim R V (f e) (g e)) :
    Sim R V (Prog.tryExcept x f) (Prog.tryExcept y g) := by
  intro s t hst
  obtain ⟨hend, hR⟩ := hx s t hst
  rcases hr : x s with ⟨r, s'⟩
  rcases hq : y t with ⟨q, t'⟩
  rw [hr, hq] at hend hR
  cases hend with
  | ok hab =>
    rw [tryExcept_ok hr, tryExcept_ok hq]
    exact ⟨.ok hab, hR⟩
  | error e =>
    rw [tryExcept_error hr, tryExcept_error hq]
    exact hf e s' t' hR

/-- The cleanup may take the states on to another relation. -/
theorem Sim.tryFinally_to {S : σ → τ → Prop} {x : Prog σ ε α} {y : Prog τ ε β}
    {c : Prog σ ε Unit} {d : Prog τ ε Unit} (hx : Sim R V x y)
    (hc : ∀ s t, R s t → EndsAlike (fun _ _ => True) (c s).1 (d t).1 ∧ S (c s).2 (d t).2)
    {s : σ} {t : τ} (hst : R s t) :
    EndsAlike V (Prog.tryFinally x c s).1 (Prog.tryFinally y d t).1 ∧
      S (Prog.tryFinally x c s).2 (Prog.tryFinally y d t).2 := by
  obtain ⟨hend, hR⟩ := hx s t hst
  rcases hr : x s with ⟨r, s'⟩
  rcases hq : y t with ⟨q, t'⟩
  rw [hr, hq] at hend hR
  obtain ⟨hend', hS⟩ := hc s' t' hR
  rcases hcs : c s' with ⟨u, s''⟩
  rcases hdt : d t' with ⟨v, t''⟩
  rw [hcs, hdt] at hend' hS
  cases hend' with
  | ok _ =>
    rw [tryFinally_ok hr hcs, tryFinally_ok hq hdt]
    exact ⟨hend, hS⟩
  | error e =>
    simp only [Prog.tryFinally, hr, hq, hcs, hdt]
    exact ⟨.error e, hS⟩

theorem Sim.tryFinally {x : Prog σ ε α} {y : Prog τ ε β} {c : Prog σ ε Unit} {d : Prog τ ε Unit}
    (hx : Sim R V x y) (hc : Sim R (fun _ _ => True) c d) :
    Sim R V (Prog.tryFinally x c) (Prog.tryFinally y d) :=
  fun _ _ hst => hx.tryFinally_to hc hst

end Sim

end Prog

/-! ## Computations that may raise -/

section Raising

variable {ε α β : Type}

theorem except_bind_ok {x : Except ε α} {f : α → Except ε β} {b : β} (h : x >>= f = .ok b) :
    ∃ a, x = .ok a ∧ f a = .ok b := by
  cases x with
  | error e => cases h
  | ok a => exact ⟨a, rfl, h⟩

theorem ok_bind {x : Except ε α} {f : α → Except ε β} {a : α} {b : β} (hx : x = .ok a)
    (hf : f a = .ok b) : x >>= f = .ok b := by
  rw [hx]
  exact hf

/-- A loop whose turns all go through, and keep `P`. -/
theorem foldlM_keeps {P : β → Prop} {f : β → α → Except ε β} {l : List α} :
    (∀ b, ∀ a ∈ l, P b → ∃ b', f b a = .ok b' ∧ P b') →
      ∀ b, P b → ∃ b', l.foldlM f b = .ok b' ∧ P b' := by
  induction l with
  | nil => exact fun _ b hb => ⟨b, rfl, hb⟩
  | cons a rest ih =>
    intro h b hb
    obtain ⟨next, hnext, hkept⟩ := h b a List.mem_cons_self hb
    obtain ⟨last, hlast, hend⟩ :=
      ih (fun b' a' ha' => h b' a' (List.mem_cons_of_mem a ha')) next hkept
    rw [List.foldlM_cons]
    exact ⟨last, ok_bind hnext hlast, hend⟩

theorem mapM_ok {f : α → Except ε β} {g : α → β} :
    ∀ {l : List α}, (∀ a ∈ l, f a = .ok (g a)) → l.mapM f = .ok (l.map g) := by
  intro l
  induction l with
  | nil =>
    intro _
    rfl
  | cons a rest ih =>
    intro h
    rw [List.mapM_cons, h a List.mem_cons_self, ih fun b hb => h b (List.mem_cons_of_mem _ hb)]
    rfl

theorem mapM_cons_ok {f : α → Except ε β} {a : α} {rest : List α} {ys : List β}
    (h : (a :: rest).mapM f = .ok ys) :
    ∃ b bs, f a = .ok b ∧ rest.mapM f = .ok bs ∧ ys = b :: bs := by
  rw [List.mapM_cons] at h
  obtain ⟨b, hb, h⟩ := except_bind_ok h
  obtain ⟨bs, hbs, h⟩ := except_bind_ok h
  exact ⟨b, bs, hb, hbs, (Except.ok.inj h).symm⟩

theorem mapM_mem {f : α → Except ε β} {xs : List α} {ys : List β} (h : xs.mapM f = .ok ys) :
    ∀ a ∈ xs, ∃ b, f a = .ok b := by
  induction xs generalizing ys with
  | nil =>
    intro a ha
    cases ha
  | cons x rest ih =>
    obtain ⟨b, bs, hb, hbs, -⟩ := mapM_cons_ok h
    intro a ha
    rcases List.mem_cons.mp ha with rfl | hmem
    · exact ⟨b, hb⟩
    · exact ih hbs a hmem

end Raising

end Py
