import Mathlib.Data.List.Nodup
import Mathlib.Tactic.Abel
import Mathlib.Data.List.Basic

/-!
# `Dict` — an insertion-ordered dictionary

Keys are unique by construction. Writing a key that is present replaces its value *in place*;
writing a new key appends it, so iteration follows the order of first insertion. Reading is
`get?`, and `get?_insert`/`get?_erase` are all a proof about a program that uses one needs.
-/

namespace Py

/-- An insertion-ordered dictionary. -/
structure Dict (κ ν : Type) where
  /-- The items, in the order their keys were first written. -/
  entries : List (κ × ν)
  nodupKeys : (entries.map Prod.fst).Nodup
  deriving Repr

namespace Dict

variable {κ ν : Type}

/-- Two dictionaries with the same items are the same. -/
theorem eq_of_entries {d d' : Dict κ ν} (h : d.entries = d'.entries) : d = d' := by
  cases d
  cases d'
  simp only at h
  subst h
  rfl

instance [DecidableEq κ] [DecidableEq ν] : DecidableEq (Dict κ ν) := fun d d' =>
  decidable_of_iff (d.entries = d'.entries) ⟨eq_of_entries, fun h => h ▸ rfl⟩

/-- `{}`. -/
def empty : Dict κ ν := ⟨[], List.nodup_nil⟩

instance : EmptyCollection (Dict κ ν) := ⟨empty⟩
instance : Inhabited (Dict κ ν) := ⟨empty⟩

/-- The keys in order. -/
def keys (d : Dict κ ν) : List κ := d.entries.map Prod.fst

/-- The values in order. -/
def values (d : Dict κ ν) : List ν := d.entries.map Prod.snd

/-- `not d`. -/
def isEmpty (d : Dict κ ν) : Bool := d.entries.isEmpty

/-- `len(d)`. -/
def size (d : Dict κ ν) : Nat := d.entries.length

variable [DecidableEq κ]

/-- `d.get(k)`. -/
def get? (d : Dict κ ν) (k : κ) : Option ν := d.entries.lookup k

/-- `k in d`. -/
def contains (d : Dict κ ν) (k : κ) : Bool := (d.get? k).isSome

/-- Writes `k`, in place when it is present. -/
def put (k : κ) (v : ν) : List (κ × ν) → List (κ × ν)
  | [] => [(k, v)]
  | (k', v') :: rest => if k' = k then (k', v) :: rest else (k', v') :: put k v rest

/-- Drops `k`. -/
def drop (k : κ) (l : List (κ × ν)) : List (κ × ν) := l.filter fun p => p.1 ≠ k

theorem mem_keys_put {k : κ} {v : ν} {x : κ} :
    ∀ {l : List (κ × ν)}, x ∈ (put k v l).map Prod.fst ↔ x = k ∨ x ∈ l.map Prod.fst := by
  intro l
  induction l with
  | nil => simp [put]
  | cons p rest ih =>
    obtain ⟨k', v'⟩ := p
    by_cases hk : k' = k
    · subst hk
      simp [put]
    · simp only [put, if_neg hk, List.map_cons, List.mem_cons, ih]
      tauto

theorem nodup_put {k : κ} {v : ν} :
    ∀ {l : List (κ × ν)}, (l.map Prod.fst).Nodup → ((put k v l).map Prod.fst).Nodup := by
  intro l
  induction l with
  | nil => simp [put]
  | cons p rest ih =>
    obtain ⟨k', v'⟩ := p
    intro h
    by_cases hk : k' = k
    · subst hk
      simpa [put] using h
    · simp only [List.map_cons, List.nodup_cons] at h
      simp only [put, if_neg hk, List.map_cons, List.nodup_cons, mem_keys_put, not_or]
      exact ⟨⟨hk, h.1⟩, ih h.2⟩

theorem nodup_drop {k : κ} {l : List (κ × ν)} (h : (l.map Prod.fst).Nodup) :
    ((drop k l).map Prod.fst).Nodup :=
  h.sublist (List.filter_sublist.map Prod.fst)

/-- `d[k] = v`. -/
def insert (d : Dict κ ν) (k : κ) (v : ν) : Dict κ ν := ⟨put k v d.entries, nodup_put d.nodupKeys⟩

/-- `d.pop(k, None)`, without the value. -/
def erase (d : Dict κ ν) (k : κ) : Dict κ ν := ⟨drop k d.entries, nodup_drop d.nodupKeys⟩

/-- `dict(pairs)`: a later pair overwrites an earlier one of its key. -/
def ofList (l : List (κ × ν)) : Dict κ ν := l.foldl (fun d p => d.insert p.1 p.2) empty

theorem put_put (k : κ) (v v' : ν) : ∀ l : List (κ × ν), put k v' (put k v l) = put k v' l := by
  intro l
  induction l with
  | nil => simp [put]
  | cons p rest ih =>
    obtain ⟨x, w⟩ := p
    by_cases hx : x = k
    · simp [put, hx]
    · simp [put, hx, ih]

/-- Writing a key twice is writing it once. -/
@[simp] theorem insert_insert (d : Dict κ ν) (k : κ) (v v' : ν) :
    (d.insert k v).insert k v' = d.insert k v' := eq_of_entries (put_put k v v' d.entries)

/-! ## Reading back -/

@[simp] theorem get?_empty (k : κ) : (empty : Dict κ ν).get? k = none := rfl

theorem lookup_cons_ite (k k' : κ) (v : ν) (l : List (κ × ν)) :
    ((k', v) :: l).lookup k = if k = k' then some v else l.lookup k := by
  by_cases h : k = k'
  · simp [h]
  · have hb : (k == k') = false := by simpa using h
    rw [List.lookup_cons, hb, if_neg h]

theorem lookup_put (k : κ) (v : ν) (x : κ) :
    ∀ l : List (κ × ν), (put k v l).lookup x = if x = k then some v else l.lookup x := by
  intro l
  induction l with
  | nil => simp [put, lookup_cons_ite]
  | cons p rest ih =>
    obtain ⟨k', v'⟩ := p
    by_cases hk : k' = k
    · subst hk
      simp only [put, if_pos, lookup_cons_ite]
      by_cases hx : x = k' <;> simp [hx]
    · by_cases hx : x = k'
      · subst hx
        simp [put, hk]
      · simp [put, hk, hx, lookup_cons_ite, ih]

theorem lookup_drop (k x : κ) :
    ∀ l : List (κ × ν), (drop k l).lookup x = if x = k then none else l.lookup x := by
  intro l
  induction l with
  | nil => simp [drop]
  | cons p rest ih =>
    obtain ⟨k', v'⟩ := p
    by_cases hk : k' = k
    · subst hk
      have hd : drop k' ((k', v') :: rest) = drop k' rest := by simp [drop]
      rw [hd, ih, lookup_cons_ite]
      by_cases hx : x = k' <;> simp [hx]
    · have hd : drop k ((k', v') :: rest) = (k', v') :: drop k rest := by simp [drop, hk]
      rw [hd, lookup_cons_ite, lookup_cons_ite, ih]
      by_cases hx : x = k'
      · subst hx
        simp [hk]
      · simp [hx]

@[simp] theorem get?_insert (d : Dict κ ν) (k x : κ) (v : ν) :
    (d.insert k v).get? x = if x = k then some v else d.get? x := lookup_put k v x d.entries

@[simp] theorem get?_erase (d : Dict κ ν) (k x : κ) :
    (d.erase k).get? x = if x = k then none else d.get? x := lookup_drop k x d.entries

@[simp] theorem erase_erase (d : Dict κ ν) (k : κ) : (d.erase k).erase k = d.erase k := by
  apply eq_of_entries
  show drop k (drop k d.entries) = drop k d.entries
  simp [drop]

theorem erase_comm (d : Dict κ ν) (k k' : κ) : (d.erase k).erase k' = (d.erase k').erase k := by
  apply eq_of_entries
  show drop k' (drop k d.entries) = drop k (drop k' d.entries)
  unfold drop
  rw [List.filter_comm]

/-- Filtering out no item of a key leaves its lookup alone. -/
theorem lookup_filter {p : κ × ν → Bool} {k : κ} (h : ∀ v, p (k, v) = true) (l : List (κ × ν)) :
    (l.filter p).lookup k = l.lookup k := by
  induction l with
  | nil => rfl
  | cons b rest ih =>
    obtain ⟨k', v'⟩ := b
    by_cases hk : k = k'
    · subst hk
      simp [h v']
    · by_cases hp : p (k', v') = true
      · simp [hp, lookup_cons_ite, hk, ih]
      · simp [hp, lookup_cons_ite, hk, ih]

/-- The item that is found is found after a filter it passes. -/
theorem lookup_filter_some {p : κ × ν → Bool} {k : κ} {v : ν} (hp : p (k, v) = true)
    (l : List (κ × ν)) (h : l.lookup k = some v) : (l.filter p).lookup k = some v := by
  induction l with
  | nil => cases h
  | cons b rest ih =>
    obtain ⟨k', v'⟩ := b
    rw [lookup_cons_ite] at h
    by_cases hk : k = k'
    · subst hk
      rw [if_pos rfl] at h
      cases h
      simp [hp]
    · rw [if_neg hk] at h
      by_cases hp' : p (k', v') = true
      · simp [hp', lookup_cons_ite, hk, ih h]
      · simp [hp', ih h]

theorem lookup_of_mem {k : κ} {v : ν} : ∀ {l : List (κ × ν)}, (l.map Prod.fst).Nodup →
    (k, v) ∈ l → l.lookup k = some v := by
  intro l
  induction l with
  | nil => simp
  | cons p rest ih =>
    obtain ⟨k', v'⟩ := p
    intro hn hm
    simp only [List.map_cons, List.nodup_cons] at hn
    rcases List.mem_cons.mp hm with h | h
    · simp only [Prod.mk.injEq] at h
      simp [h.1, h.2]
    · have hne : k ≠ k' := by
        rintro rfl
        exact hn.1 (List.mem_map_of_mem (f := Prod.fst) h)
      rw [lookup_cons_ite, if_neg hne]
      exact ih hn.2 h

theorem mem_of_lookup {k : κ} {v : ν} :
    ∀ {l : List (κ × ν)}, l.lookup k = some v → (k, v) ∈ l := by
  intro l
  induction l with
  | nil => simp
  | cons p rest ih =>
    obtain ⟨k', v'⟩ := p
    intro h
    rw [lookup_cons_ite] at h
    by_cases hk : k = k'
    · subst hk
      simp only [if_true, Option.some.injEq] at h
      simp [h]
    · rw [if_neg hk] at h
      exact List.mem_cons_of_mem _ (ih h)

/-- An item is listed exactly when its key reads as its value. -/
theorem mem_entries_iff {d : Dict κ ν} {k : κ} {v : ν} :
    (k, v) ∈ d.entries ↔ d.get? k = some v :=
  ⟨lookup_of_mem d.nodupKeys, mem_of_lookup⟩

theorem mem_keys_iff {d : Dict κ ν} {k : κ} : k ∈ d.keys ↔ ∃ v, d.get? k = some v := by
  constructor
  · intro h
    obtain ⟨⟨_, v⟩, hmem, rfl⟩ := List.mem_map.mp h
    exact ⟨v, mem_entries_iff.mp hmem⟩
  · intro h
    obtain ⟨v, hv⟩ := h
    exact List.mem_map_of_mem (mem_entries_iff.mpr hv)

theorem get?_foldl_erase (ks : List κ) (d : Dict κ ν) (x : κ) :
    (ks.foldl erase d).get? x = if x ∈ ks then none else d.get? x := by
  induction ks generalizing d with
  | nil => simp
  | cons k rest ih =>
    rw [List.foldl_cons, ih, get?_erase]
    by_cases hx : x = k
    · simp [hx]
    · simp [hx]

/-! ## From a list of items -/

theorem put_of_not_mem {k : κ} {v : ν} {l : List (κ × ν)} (h : k ∉ l.map Prod.fst) :
    put k v l = l ++ [(k, v)] := by
  induction l with
  | nil => rfl
  | cons p rest ih =>
    obtain ⟨k', v'⟩ := p
    simp only [List.map_cons, List.mem_cons, not_or] at h
    rw [put, if_neg (Ne.symm h.1), ih h.2, List.cons_append]

/-- Items with new and distinct keys are appended. -/
theorem entries_foldl_insert {l : List (κ × ν)} {d : Dict κ ν}
    (h : ((d.entries ++ l).map Prod.fst).Nodup) :
    (l.foldl (fun d p => d.insert p.1 p.2) d).entries = d.entries ++ l := by
  induction l generalizing d with
  | nil => simp
  | cons p rest ih =>
    have hnew : p.1 ∉ d.entries.map Prod.fst := by
      rw [List.map_append, List.map_cons, List.nodup_append] at h
      intro hmem
      exact h.2.2 p.1 hmem p.1 List.mem_cons_self rfl
    have happended : (d.insert p.1 p.2).entries = d.entries ++ [p] := put_of_not_mem hnew
    have hassoc : (d.insert p.1 p.2).entries ++ rest = d.entries ++ p :: rest := by
      rw [happended, List.append_assoc, List.singleton_append]
    rw [List.foldl_cons, ih (by rwa [hassoc]), hassoc]

/-- `dict(d.items())`. -/
@[simp] theorem ofList_entries (d : Dict κ ν) : ofList d.entries = d :=
  eq_of_entries (entries_foldl_insert (d := empty) d.nodupKeys)

/-! ## Sums over the values -/

theorem sum_put {M : Type*} [AddCommGroup M] (f : ν → M) (k : κ) (v : ν) :
    ∀ l : List (κ × ν), ((put k v l).map fun p => f p.2).sum =
      (l.map fun p => f p.2).sum - ((l.lookup k).map f).getD 0 + f v := by
  intro l
  induction l with
  | nil => simp [put]
  | cons p rest ih =>
    obtain ⟨k', v'⟩ := p
    rw [lookup_cons_ite]
    by_cases hk : k = k'
    · subst hk
      simp [put]
      abel
    · simp only [put, if_neg hk, if_neg (Ne.symm hk), List.map_cons, List.sum_cons, ih]
      abel

/-- Writing a key takes its old value out of a sum and puts the new one in. -/
theorem sum_values_insert {M : Type*} [AddCommGroup M] (f : ν → M) (d : Dict κ ν) (k : κ) (v : ν) :
    ((d.insert k v).values.map f).sum =
      (d.values.map f).sum - ((d.get? k).map f).getD 0 + f v := by
  have h := sum_put f k v d.entries
  simpa [values, insert, get?, List.map_map, Function.comp_def] using h

/-- A dictionary is empty exactly when nothing reads from it. -/
theorem isEmpty_iff {d : Dict κ ν} : d.isEmpty = true ↔ ∀ k, d.get? k = none := by
  rw [isEmpty, List.isEmpty_iff]
  constructor
  · intro h k
    rw [get?, h]
    rfl
  · intro h
    cases he : d.entries with
    | nil => rfl
    | cons p rest =>
      have hp := h p.1
      rw [get?, he, lookup_cons_ite] at hp
      simp at hp

/-! ## Two dictionaries that stand for each other -/

section Related

variable {κ' ν' : Type} [DecidableEq κ'] {f : κ' → κ} {R : ν → ν' → Prop}

/-- The keys are renamed one to one, and the values related: then so is what is found. -/
theorem rel_lookup (hf : Function.Injective f) {l : List (κ × ν)} {l' : List (κ' × ν')}
    (h : List.Forall₂ (fun p q => p.1 = f q.1 ∧ R p.2 q.2) l l') (k : κ') :
    Option.Rel R (l.lookup (f k)) (l'.lookup k) := by
  induction h with
  | nil => exact .none
  | @cons p q l l' hpq _ ih =>
    obtain ⟨key, value⟩ := p
    obtain ⟨key', value'⟩ := q
    obtain ⟨hkey, hvalue⟩ := hpq
    dsimp only at hkey hvalue
    subst hkey
    rw [lookup_cons_ite, lookup_cons_ite]
    by_cases hk : k = key'
    · rw [if_pos (congrArg f hk), if_pos hk]
      exact .some hvalue
    · rw [if_neg fun hsame => hk (hf hsame), if_neg hk]
      exact ih

end Related

end Dict

end Py
