import TaoSubnet.Lib.Dict

/-!
# `Dict.collect` — one entry for each key of a list

The loop that groups a list: the first element of a key opens an entry, every later one adds to it.
`get?_collect` says what stands under a key in the end, and everything else about the loop — which
keys there are, what the entries count up to — is read off it.
-/

namespace Py.Dict

variable {α κ ν : Type} [DecidableEq κ]

section

variable (key : α → κ) (start : α → ν) (more : ν → α → ν)

/-- One element of the loop. -/
def collectOne (d : Dict κ ν) (a : α) : Dict κ ν :=
  match d.get? (key a) with
  | none => d.insert (key a) (start a)
  | some v => d.insert (key a) (more v a)

def collect (as : List α) : Dict κ ν := as.foldl (collectOne key start more) ∅

end

variable {key : α → κ} {start : α → ν} {more : ν → α → ν}

/-- An element changes the entry of its own key only. -/
theorem get?_collectOne (d : Dict κ ν) (a : α) (k : κ) :
    (collectOne key start more d a).get? k =
      if k = key a then some (((d.get? (key a)).map fun v => more v a).getD (start a))
      else d.get? k := by
  unfold collectOne
  cases d.get? (key a) with
  | none => simp
  | some v => simp

/-- Over a dictionary that has the key, the elements of the key are all added to its entry. -/
theorem get?_foldl_some {k : κ} {v : ν} (as : List α) {d : Dict κ ν} (h : d.get? k = some v) :
    (as.foldl (collectOne key start more) d).get? k =
      some ((as.filter fun a => key a = k).foldl more v) := by
  induction as generalizing d v with
  | nil => simpa using h
  | cons a rest ih =>
    rw [List.foldl_cons]
    by_cases hk : key a = k
    · have hone : (collectOne key start more d a).get? k = some (more v a) := by
        rw [get?_collectOne, hk, h]
        simp
      rw [ih hone, List.filter_cons_of_pos (by simpa using hk), List.foldl_cons]
    · have hone : (collectOne key start more d a).get? k = some v := by
        rw [get?_collectOne, if_neg (Ne.symm hk), h]
      rw [ih hone, List.filter_cons_of_neg (by simpa using hk)]

/-- Over one that does not, the first of them opens it. -/
theorem get?_foldl_none {k : κ} (as : List α) {d : Dict κ ν} (h : d.get? k = none) :
    (as.foldl (collectOne key start more) d).get? k =
      match as.filter fun a => key a = k with
      | [] => none
      | a :: rest => some (rest.foldl more (start a)) := by
  induction as generalizing d with
  | nil => simpa using h
  | cons a rest ih =>
    rw [List.foldl_cons]
    by_cases hk : key a = k
    · have hone : (collectOne key start more d a).get? k = some (start a) := by
        rw [get?_collectOne, hk, h]
        simp
      rw [get?_foldl_some rest hone, List.filter_cons_of_pos (by simpa using hk)]
    · have hone : (collectOne key start more d a).get? k = none := by
        rw [get?_collectOne, if_neg (Ne.symm hk), h]
      rw [ih hone, List.filter_cons_of_neg (by simpa using hk)]

/-- **The entry of a key**: opened by its first element, with the others added in their order. -/
theorem get?_collect (as : List α) (k : κ) :
    (collect key start more as).get? k =
      match as.filter fun a => key a = k with
      | [] => none
      | a :: rest => some (rest.foldl more (start a)) :=
  get?_foldl_none as (get?_empty k)

/-- An entry for every key that occurs, and no other. -/
theorem mem_keys_collect {as : List α} {k : κ} :
    k ∈ (collect key start more as).keys ↔ ∃ a ∈ as, key a = k := by
  rw [mem_keys_iff, get?_collect]
  cases hfilter : as.filter fun a => key a = k with
  | nil =>
    have hnone : ∀ a ∈ as, ¬ key a = k := by simpa using hfilter
    simp only [reduceCtorEq, exists_false, false_iff, not_exists, not_and]
    exact hnone
  | cons a rest =>
    have hmem : a ∈ as.filter fun a => key a = k := by simp [hfilter]
    rw [List.mem_filter] at hmem
    exact ⟨fun _ => ⟨a, hmem.1, by simpa using hmem.2⟩, fun _ => ⟨_, rfl⟩⟩

/-! ## Counting -/

/-- A measure that begins at one and goes up by one. -/
structure Counts (start : α → ν) (more : ν → α → ν) (count : ν → Nat) : Prop where
  start : ∀ a, count (start a) = 1
  more : ∀ v a, count (more v a) = count v + 1

variable {count : ν → Nat}

theorem Counts.foldl (h : Counts start more count) (as : List α) (v : ν) :
    count (as.foldl more v) = count v + as.length := by
  induction as generalizing v with
  | nil => simp
  | cons a rest ih =>
    rw [List.foldl_cons, ih, h.more, List.length_cons]
    omega

/-- What an entry counts is how often its key occurs. -/
theorem count_of_get? (h : Counts start more count) {as : List α} {k : κ} {v : ν}
    (hv : (collect key start more as).get? k = some v) :
    count v = as.countP fun a => key a = k := by
  rw [get?_collect] at hv
  rw [List.countP_eq_length_filter]
  cases hfilter : as.filter fun a => key a = k with
  | nil =>
    rw [hfilter] at hv
    cases hv
  | cons a rest =>
    rw [hfilter] at hv
    cases hv
    rw [h.foldl, h.start, List.length_cons]
    omega

/-- One element adds one to the total. -/
theorem sum_collectOne (h : Counts start more count) (d : Dict κ ν) (a : α) :
    ((collectOne key start more d a).values.map count).sum = (d.values.map count).sum + 1 := by
  -- over the integers, where the entry that is replaced can be taken out of the sum
  have hcast : ∀ vs : List ν, ((vs.map count).sum : ℤ) = (vs.map fun v => (count v : ℤ)).sum := by
    intro vs
    induction vs with
    | nil => rfl
    | cons v rest ih => simp [ih]
  have hint : ((collectOne key start more d a).values.map fun v => (count v : ℤ)).sum =
      (d.values.map fun v => (count v : ℤ)).sum + 1 := by
    unfold collectOne
    cases hget : d.get? (key a) with
    | none =>
      simp only [sum_values_insert, hget, h.start]
      simp
    | some v =>
      simp only [sum_values_insert, hget, h.more, Option.map_some, Option.getD_some]
      omega
  have hnat := hcast (collectOne key start more d a).values
  rw [hint, ← hcast d.values] at hnat
  exact_mod_cast hnat

/-- **The entries count up to the length of the list.** -/
theorem sum_collect (h : Counts start more count) (as : List α) :
    ((collect key start more as).values.map count).sum = as.length := by
  have hrun : ∀ d : Dict κ ν, ((as.foldl (collectOne key start more) d).values.map count).sum =
      (d.values.map count).sum + as.length := by
    induction as with
    | nil => simp
    | cons a rest ih =>
      intro d
      rw [List.foldl_cons, ih, sum_collectOne h, List.length_cons]
      omega
  have hempty := hrun ∅
  rw [show (∅ : Dict κ ν).values = [] from rfl] at hempty
  simpa [collect] using hempty

end Py.Dict
