import Mathlib.Order.Monotone.Defs
import TaoSubnet.Proof.LlmKey.Weights

/-!
# The weights keep the order of the scores

From the scores to the integers that are submitted, every step is one of three: entries are left out
from below, the ones that stay are mapped by a function that rises with them, and the burn's entry is
taken out and put back. None of them turns two uids round, and what is left out counts as zero.
-/

namespace TaoSubnet

open Py

/-! ## Reading a list of weights -/

section
variable {α β : Type}

theorem keys_map (f : Nat × α → β) (entries : List (Nat × α)) :
    (entries.map fun p => (p.1, f p)).map Prod.fst = entries.map Prod.fst := by
  rw [List.map_map]
  rfl

theorem nodup_filter {entries : List (Nat × α)} (keep : Nat × α → Bool)
    (hn : (entries.map Prod.fst).Nodup) : ((entries.filter keep).map Prod.fst).Nodup :=
  (List.filter_sublist.map Prod.fst).nodup hn

variable [Zero α] [Zero β]

/-- What the uid is given; a uid that is not listed is given nothing. -/
def valueAt (entries : List (Nat × α)) (uid : Nat) : α := (entries.lookup uid).getD 0

theorem valueAt_of_mem {entries : List (Nat × α)} {uid : Nat} {value : α}
    (hn : (entries.map Prod.fst).Nodup) (h : (uid, value) ∈ entries) :
    valueAt entries uid = value := by
  unfold valueAt
  rw [Dict.lookup_of_mem hn h]
  rfl

theorem valueAt_of_absent {entries : List (Nat × α)} {uid : Nat}
    (h : uid ∉ entries.map Prod.fst) : valueAt entries uid = 0 := by
  unfold valueAt
  cases hlookup : entries.lookup uid with
  | none => rfl
  | some value => exact absurd (List.mem_map_of_mem (f := Prod.fst) (Dict.mem_of_lookup hlookup)) h

/-- Either the uid is listed with its value, or it is not listed. -/
theorem valueAt_cases {entries : List (Nat × α)} (hn : (entries.map Prod.fst).Nodup) (uid : Nat) :
    (uid, valueAt entries uid) ∈ entries ∨
      uid ∉ entries.map Prod.fst ∧ valueAt entries uid = 0 := by
  by_cases hmem : uid ∈ entries.map Prod.fst
  · obtain ⟨⟨uid, value⟩, hp, rfl⟩ := List.mem_map.mp hmem
    rw [valueAt_of_mem hn hp]
    exact .inl hp
  · exact .inr ⟨hmem, valueAt_of_absent hmem⟩

/-- Values that change one by one are read changed, as long as nothing stays nothing. -/
theorem valueAt_map {entries : List (Nat × α)} {f : α → β} (hn : (entries.map Prod.fst).Nodup)
    (hzero : f 0 = 0) (uid : Nat) :
    valueAt (entries.map fun p => (p.1, f p.2)) uid = f (valueAt entries uid) := by
  have hkeys := keys_map (fun p : Nat × α => f p.2) entries
  rcases valueAt_cases hn uid with hmem | ⟨habsent, hnothing⟩
  · apply valueAt_of_mem
    · rw [hkeys]
      exact hn
    · exact List.mem_map_of_mem (f := fun p : Nat × α => (p.1, f p.2)) hmem
  · rw [hnothing, hzero]
    apply valueAt_of_absent
    rw [hkeys]
    exact habsent

/-- Who stays listed is read as before. -/
theorem valueAt_filter {entries : List (Nat × α)} {keep : Nat × α → Bool} {uid : Nat}
    (hn : (entries.map Prod.fst).Nodup) (h : ∀ value ≠ 0, keep (uid, value) = true) :
    valueAt (entries.filter keep) uid = valueAt entries uid := by
  rcases valueAt_cases (nodup_filter keep hn) uid with hmem | ⟨habsent, hnothing⟩
  · exact (valueAt_of_mem hn (List.mem_filter.mp hmem).1).symm
  · rw [hnothing]
    rcases valueAt_cases hn uid with hlisted | ⟨-, hsame⟩
    · -- It is listed, and left out: it had nothing.
      by_contra hne
      apply habsent
      exact List.mem_map_of_mem (f := Prod.fst)
        (List.mem_filter.mpr ⟨hlisted, h _ (Ne.symm hne)⟩)
    · exact hsame.symm

theorem valueAt_append_singleton {entries : List (Nat × α)} {last : Nat × α} {uid : Nat}
    (h : uid ≠ last.1) : valueAt (entries ++ [last]) uid = valueAt entries uid := by
  unfold valueAt
  rw [List.lookup_append]
  obtain ⟨key, value⟩ := last
  cases entries.lookup uid with
  | some value => rfl
  | none =>
    rw [Option.none_or, Dict.lookup_cons_ite, if_neg h]
    rfl

end

theorem indexed_fst (weights : List ℚ) :
    (indexed weights).map Prod.fst = List.range weights.length := by
  unfold indexed
  apply List.ext_getElem?
  intro i
  rw [List.getElem?_map, List.getElem?_mapIdx]
  by_cases hi : i < weights.length
  · rw [List.getElem?_eq_getElem hi, List.getElem?_range hi]
    rfl
  · rw [List.getElem?_eq_none (not_lt.mp hi), List.getElem?_eq_none (by simpa using hi)]
    rfl

theorem nodup_indexed (weights : List ℚ) : ((indexed weights).map Prod.fst).Nodup := by
  rw [indexed_fst]
  exact List.nodup_range

/-! ## Functions that rise -/

/-- The function rises with the weights, and is not negative on them. -/
structure Rises (g : ℚ → ℚ) (weights : List ℚ) : Prop where
  nonneg : ∀ weight ∈ weights, 0 ≤ g weight
  mono : ∀ weight ∈ weights, ∀ other ∈ weights, weight ≤ other → g weight ≤ g other

theorem Rises.const {value : ℚ} (h : 0 ≤ value) (weights : List ℚ) :
    Rises (fun _ => value) weights where
  nonneg := fun _ _ => h
  mono := fun _ _ _ _ _ => le_rfl

theorem Rises.div {g : ℚ → ℚ} {weights : List ℚ} {total : ℚ} (h : Rises g weights)
    (htotal : 0 ≤ total) : Rises (fun weight => g weight / total) weights := by
  constructor
  · intro weight hmem
    exact div_nonneg (h.nonneg weight hmem) htotal
  · intro weight hmem other hother hle
    exact div_le_div_of_nonneg_right (h.mono weight hmem other hother hle) htotal

theorem Rises.comp_map {f g : ℚ → ℚ} {weights : List ℚ} (h : Rises g (weights.map f))
    (hf : ∀ weight other, weight ≤ other → f weight ≤ f other) :
    Rises (fun weight => g (f weight)) weights := by
  constructor
  · intro weight hmem
    exact h.nonneg _ (List.mem_map_of_mem hmem)
  · intro weight hmem other hother hle
    apply h.mono _ (List.mem_map_of_mem hmem) _ (List.mem_map_of_mem hother)
    exact hf weight other hle

variable {weights normalized : List ℚ} {limit : ℚ}

theorem scaled_eq {f : ℚ → ℚ} (h : scaled (weights.map f) = some normalized) :
    normalized = weights.map fun weight => f weight / (weights.map f).sum := by
  unfold scaled at h
  split at h
  · cases h
  · cases h
    rw [List.map_map]
    rfl

theorem uniform_eq (weights : List ℚ) :
    uniform weights.length = weights.map fun _ => 1 / (weights.length : ℚ) := by
  unfold uniform
  rw [List.map_const']

/-- What is clipped at a positive cutoff is the lesser of the two; at any other, everything is. -/
theorem scaled_clip (hpos : ∀ weight ∈ weights, 0 < weight) {cutoff : ℚ}
    (h : scaled (clip cutoff weights) = some normalized) :
    ∃ g, Rises g weights ∧ normalized = weights.map g := by
  by_cases hcutoff : 0 < cutoff
  · refine ⟨_, ?_, scaled_eq h⟩
    apply Rises.div
    · constructor
      · intro weight hmem
        split
        · exact hcutoff.le
        · exact (hpos weight hmem).le
      · intro weight _ other _ hle
        split_ifs with hclipped hother hother
        · exact le_rfl
        · exact hclipped.le.trans hle
        · exact not_lt.mp hclipped
        · exact hle
    · apply List.sum_nonneg
      intro value hvalue
      obtain ⟨weight, hmem, rfl⟩ := List.mem_map.mp hvalue
      split
      · exact hcutoff.le
      · exact (hpos weight hmem).le
  · -- Every weight is over the cutoff, so they come out equal.
    have hall : clip cutoff weights = weights.map fun _ => cutoff := by
      unfold clip
      apply List.map_congr_left
      intro weight hmem
      exact if_pos ((not_lt.mp hcutoff).trans_lt (hpos weight hmem))
    rw [hall] at h
    refine ⟨_, Rises.const ?_ weights, scaled_eq h⟩
    apply div_nonneg_of_nonpos (not_lt.mp hcutoff)
    rw [List.map_const', List.sum_replicate, nsmul_eq_mul]
    exact mul_nonpos_of_nonneg_of_nonpos (Nat.cast_nonneg _) (not_lt.mp hcutoff)

/-- `normalize_max_weight` of positive weights rises with them, in each of its branches. -/
theorem normalize_rises (hpos : ∀ weight ∈ weights, 0 < weight)
    (h : normalizeMaxWeight weights limit = some normalized) :
    ∃ g, Rises g weights ∧ normalized = weights.map g := by
  unfold normalizeMaxWeight at h
  split at h
  · rw [Option.some.injEq, uniform_eq] at h
    refine ⟨_, Rises.const ?_ weights, h.symm⟩
    exact one_div_nonneg.mpr (Nat.cast_nonneg _)
  · split at h
    · rw [show weights = weights.map fun weight => weight from (List.map_id' weights).symm] at h
      refine ⟨_, ?_, scaled_eq h⟩
      apply Rises.div
      · exact ⟨fun _ hmem => (hpos _ hmem).le, fun _ _ _ _ hle => hle⟩
      · rw [List.map_id']
        exact List.sum_nonneg fun weight hmem => (hpos weight hmem).le
    · exact scaled_clip hpos h

theorem lift_mono {weight other : ℚ} (h : weight ≤ other) : lift weight ≤ lift other := by
  by_cases hpos : 0 < weight
  · unfold lift
    rw [if_pos hpos, if_pos (hpos.trans_le h)]
    linarith
  · rw [lift_unearned (not_lt.mp hpos)]
    exact lift_le

/-! ## The chain's limits -/

/-- Who weighs as much as someone that stays, stays, and what they are given rises with the weight. -/
def Shaped (raw : List ℚ) (weights : List (Nat × ℚ)) : Prop :=
  ∃ (keep : ℚ → Bool) (g : ℚ → ℚ),
    (∀ weight other, weight ≤ other → keep weight = true → keep other = true) ∧
    Rises g (raw.filter keep) ∧
    weights = ((indexed raw).filter fun p => keep p.2).map fun p => (p.1, g p.2)

theorem shaped_indexed {raw : List ℚ} {g : ℚ → ℚ} (hg : Rises g raw) :
    Shaped raw (indexed (raw.map g)) := by
  refine ⟨fun _ => true, g, fun _ _ _ h => h, ?_, ?_⟩
  · rw [List.filter_true]
    exact hg
  · rw [List.filter_true, indexed_map]

theorem map_filter_indexed (raw : List ℚ) (keep : ℚ → Bool) :
    ((indexed raw).filter fun p => keep p.2).map Prod.snd = raw.filter keep := by
  conv_rhs => rw [← indexed_snd raw]
  rw [List.filter_map]
  rfl

/-- The weights that stay, normalized, beside the uids that stay. -/
theorem shaped_zip {raw normalized : List ℚ} (keep : ℚ → Bool)
    (hup : ∀ weight other, weight ≤ other → keep weight = true → keep other = true)
    (hpos : ∀ weight, keep weight = true → 0 < weight)
    (h : normalizeMaxWeight (((indexed raw).filter fun p => keep p.2).map Prod.snd) limit =
      some normalized) :
    Shaped raw ((((indexed raw).filter fun p => keep p.2).map Prod.fst).zip normalized) := by
  rw [map_filter_indexed] at h
  have hkept : ∀ weight ∈ raw.filter keep, 0 < weight := by
    intro weight hmem
    exact hpos weight (List.mem_filter.mp hmem).2
  obtain ⟨g, hg, rfl⟩ := normalize_rises hkept h
  refine ⟨keep, g, hup, hg, ?_⟩
  rw [← map_filter_indexed, List.map_map, List.zip_map']
  rfl

/-- The chain's limits keep the shape, in every branch. -/
theorem processWeights_shaped {limits : ChainLimits} {raw : List ℚ} {weights : List (Nat × ℚ)}
    (h : processWeightsForNetuid limits raw = some weights) : Shaped raw weights := by
  unfold processWeightsForNetuid at h
  dsimp only at h
  split at h
  · -- Too few uids for the chain, or nobody to weigh.
    cases h
    rw [uniform_eq]
    exact shaped_indexed (Rises.const (one_div_nonneg.mpr (Nat.cast_nonneg _)) raw)
  · split at h
    · -- Too few earners: everybody is lifted.
      obtain ⟨normalized, hnormalized, rfl⟩ := Option.map_eq_some_iff.mp h
      have hlifted : ∀ weight ∈ raw.map lift, 0 < weight := by
        intro weight hmem
        obtain ⟨below, -, rfl⟩ := List.mem_map.mp hmem
        exact lift_zero_pos.trans_le lift_le
      obtain ⟨g, hg, rfl⟩ := normalize_rises hlifted hnormalized
      rw [List.map_map]
      exact shaped_indexed (hg.comp_map fun _ _ => lift_mono)
    · -- Enough earners: those from the lowest up.
      obtain ⟨normalized, hnormalized, rfl⟩ := Option.map_eq_some_iff.mp h
      rw [List.filter_filter] at hnormalized ⊢
      refine shaped_zip (fun weight => decide (_ ≤ weight) && decide (0 < weight)) ?_ ?_ hnormalized
      · intro weight other hle hkeep
        rw [Bool.and_eq_true, decide_eq_true_eq, decide_eq_true_eq] at hkeep ⊢
        exact ⟨hkeep.1.trans hle, hkeep.2.trans_le hle⟩
      · intro weight hkeep
        rw [Bool.and_eq_true, decide_eq_true_eq, decide_eq_true_eq] at hkeep
        exact hkeep.2

theorem processed_shaped {limits : ChainLimits} {scores : List ℚ} {weights : List (Nat × ℚ)}
    (h : processedWeights limits scores = some weights) : Shaped (rawWeights scores) weights := by
  unfold processedWeights at h
  dsimp only at h
  split at h
  · exact processWeights_shaped h
  · cases h
    rw [← length_rawWeights scores, ← List.map_const']
    exact shaped_indexed (Rises.const le_rfl _)

/-! ## The order -/

/-- Of two uids other than the burn's, the one with the higher score is given no less. -/
def InOrder {α : Type} [LE α] (burn : Burn) (scores : List ℚ) (given : Nat → α) : Prop :=
  ∀ uid other score higher, uid ≠ burn.uid → other ≠ burn.uid →
    scores[uid]? = some score → scores[other]? = some higher → score ≤ higher →
      given uid ≤ given other

theorem valueAt_nonneg {weights : List (Nat × ℚ)} (hn : (weights.map Prod.fst).Nodup)
    (hnonneg : ∀ p ∈ weights, 0 ≤ p.2) (uid : Nat) : 0 ≤ valueAt weights uid := by
  rcases valueAt_cases hn uid with hmem | ⟨-, hnothing⟩
  · exact hnonneg _ hmem
  · exact hnothing.ge

/-- Each uid is listed once, with a weight that is not negative. -/
structure Listed (weights : List (Nat × ℚ)) : Prop where
  nodup : (weights.map Prod.fst).Nodup
  nonneg : ∀ p ∈ weights, 0 ≤ p.2

theorem Shaped.listed {raw : List ℚ} {weights : List (Nat × ℚ)} (h : Shaped raw weights) :
    Listed weights := by
  obtain ⟨keep, g, -, hg, rfl⟩ := h
  constructor
  · rw [keys_map fun p : Nat × ℚ => g p.2]
    exact nodup_filter _ (nodup_indexed raw)
  · intro p hp
    obtain ⟨q, hq, rfl⟩ := List.mem_map.mp hp
    obtain ⟨hmem, hkeep⟩ := List.mem_filter.mp hq
    apply hg.nonneg
    exact List.mem_filter.mpr ⟨List.mem_of_getElem? (mem_indexed.mp hmem), hkeep⟩

theorem Shaped.inOrder {raw : List ℚ} {weights : List (Nat × ℚ)} (burn : Burn)
    (h : Shaped raw weights) : InOrder burn raw (valueAt weights) := by
  have hlisted : Listed weights := h.listed
  obtain ⟨keep, g, hup, hg, rfl⟩ := h
  have hkept : ∀ uid weight, raw[uid]? = some weight → keep weight = true →
      weight ∈ raw.filter keep ∧
      valueAt (((indexed raw).filter fun p => keep p.2).map fun p => (p.1, g p.2)) uid =
        g weight := by
    intro uid weight hweight hkeep
    refine ⟨List.mem_filter.mpr ⟨List.mem_of_getElem? hweight, hkeep⟩, ?_⟩
    have hlist : (uid, weight) ∈ (indexed raw).filter fun p => keep p.2 :=
      List.mem_filter.mpr ⟨mem_indexed.mpr hweight, hkeep⟩
    apply valueAt_of_mem hlisted.nodup
    exact List.mem_map_of_mem (f := fun p : Nat × ℚ => (p.1, g p.2)) hlist
  intro uid other score higher _ _ hscore hhigher hle
  by_cases hkeep : keep score = true
  · obtain ⟨hmem, hvalue⟩ := hkept uid score hscore hkeep
    obtain ⟨hmem', hvalue'⟩ := hkept other higher hhigher (hup score higher hle hkeep)
    rw [hvalue, hvalue']
    exact hg.mono score hmem higher hmem' hle
  · -- Who is left out is given nothing, and nobody is given less.
    have habsent : uid ∉ (((indexed raw).filter fun p => keep p.2).map fun p =>
        (p.1, g p.2)).map Prod.fst := by
      rw [keys_map fun p : Nat × ℚ => g p.2]
      intro hmem
      obtain ⟨p, hp, rfl⟩ := List.mem_map.mp hmem
      obtain ⟨hlist, hkeep'⟩ := List.mem_filter.mp hp
      rw [mem_indexed.mp hlist, Option.some.injEq] at hscore
      rw [hscore] at hkeep'
      exact hkeep hkeep'
    rw [valueAt_of_absent habsent]
    exact valueAt_nonneg hlisted.nodup hlisted.nonneg other

/-! ## The burn -/

/-- Somebody but the burn has a positive weight, and the burn leaves something. -/
def MinersShare (burn : Burn) (weights : Option (List (Nat × ℚ))) : Prop :=
  burn.percentage < 1 ∧ ∃ found, weights = some found ∧ ∃ p ∈ found, p.1 ≠ burn.uid ∧ 0 < p.2

/-- What the miners' weights add up to. -/
def minerSum (burn : Burn) (weights : List (Nat × ℚ)) : ℚ :=
  ((weights.filter fun p => p.1 ≠ burn.uid).map Prod.snd).sum

variable {burn : Burn} {weights : List (Nat × ℚ)}

theorem minerSum_pos_iff (hlisted : Listed weights) :
    0 < minerSum burn weights ↔ ∃ p ∈ weights, p.1 ≠ burn.uid ∧ 0 < p.2 := by
  have hnonneg : ∀ weight ∈ (weights.filter fun p => p.1 ≠ burn.uid).map Prod.snd, 0 ≤ weight := by
    intro weight hweight
    obtain ⟨p, hp, rfl⟩ := List.mem_map.mp hweight
    exact hlisted.nonneg p (List.mem_filter.mp hp).1
  unfold minerSum
  constructor
  · intro hpos
    by_contra hnone
    apply hpos.ne'
    apply List.sum_eq_zero
    intro weight hweight
    obtain ⟨p, hp, rfl⟩ := List.mem_map.mp hweight
    obtain ⟨hmem, hother⟩ := List.mem_filter.mp hp
    apply le_antisymm
    · by_contra hp'
      exact hnone ⟨p, hmem, of_decide_eq_true hother, not_le.mp hp'⟩
    · exact hlisted.nonneg p hmem
  · rintro ⟨p, hp, hother, hpos⟩
    have hmem : p ∈ weights.filter fun p => p.1 ≠ burn.uid :=
      List.mem_filter.mpr ⟨hp, decide_eq_true hother⟩
    exact hpos.trans_le (List.single_le_sum hnonneg _ (List.mem_map_of_mem hmem))

/-- What is allocated where something is left for the miners. -/
theorem burnAllocation_shared (hlisted : Listed weights) (h : MinersShare burn (some weights)) :
    burnAllocation burn (some weights) =
      ((weights.filter fun p => p.1 ≠ burn.uid).map fun p =>
        (p.1, p.2 / minerSum burn weights * (1 - burn.percentage))) ++
        [(burn.uid, burn.percentage)] := by
  obtain ⟨hpercentage, found, hfound, hpositive⟩ := h
  cases hfound
  have hpos : 0 < minerSum burn weights := (minerSum_pos_iff hlisted).mpr hpositive
  obtain ⟨p, hp, hother, -⟩ := hpositive
  unfold burnAllocation
  dsimp only
  apply if_pos
  refine ⟨?_, hpos, sub_pos.mpr hpercentage⟩
  exact List.ne_nil_of_mem (List.mem_filter.mpr ⟨hp, decide_eq_true hother⟩)

/-- What is allocated everywhere else. -/
theorem burnAllocation_burned {found : Option (List (Nat × ℚ))}
    (hlisted : ∀ weights, found = some weights → Listed weights) (h : ¬ MinersShare burn found) :
    burnAllocation burn found = [(burn.uid, 1)] := by
  cases found with
  | none => rfl
  | some weights =>
    unfold burnAllocation
    dsimp only
    apply if_neg
    rintro ⟨-, hpos, hpercentage⟩
    apply h
    refine ⟨sub_pos.mp hpercentage, weights, rfl, ?_⟩
    exact (minerSum_pos_iff (hlisted weights rfl)).mp hpos

/-- The burn leaves the others what they had, on a scale. -/
structure Allocated (burn : Burn) (found : Option (List (Nat × ℚ))) (final : List (Nat × ℚ)) :
    Prop where
  listed : Listed final
  sum : (final.map Prod.snd).sum = 1
  /-- `BURN_UID` holds the percentage, next to somebody with a weight. -/
  shared : MinersShare burn found → valueAt final burn.uid = burn.percentage
  /-- `BURN_UID` holds everything. -/
  burned : ¬ MinersShare burn found → final = [(burn.uid, 1)]

theorem burn_absent (weights : List (Nat × ℚ)) (f : Nat × ℚ → ℚ) :
    burn.uid ∉ ((weights.filter fun p => p.1 ≠ burn.uid).map fun p => (p.1, f p)).map Prod.fst := by
  rw [keys_map f]
  intro hmem
  obtain ⟨p, hp, hsame⟩ := List.mem_map.mp hmem
  exact of_decide_eq_true (List.mem_filter.mp hp).2 hsame

theorem allocated {found : Option (List (Nat × ℚ))}
    (hrange : 0 ≤ burn.percentage ∧ burn.percentage ≤ 1)
    (hlisted : ∀ weights, found = some weights → Listed weights) :
    Allocated burn found (burnAllocation burn found) := by
  by_cases hshared : MinersShare burn found
  · obtain ⟨weights, hfound, -⟩ := hshared.2
    subst hfound
    have hweights : Listed weights := hlisted weights rfl
    have heq := burnAllocation_shared hweights hshared
    have habsent : burn.uid ∉ ((weights.filter fun p => p.1 ≠ burn.uid).map fun p =>
        (p.1, p.2 / minerSum burn weights * (1 - burn.percentage))).map Prod.fst :=
      burn_absent weights fun p => p.2 / minerSum burn weights * (1 - burn.percentage)
    have hnodup : ((burnAllocation burn (some weights)).map Prod.fst).Nodup := by
      rw [heq, List.map_append]
      apply List.Nodup.append
      · rw [keys_map fun p : Nat × ℚ => p.2 / minerSum burn weights * (1 - burn.percentage)]
        exact nodup_filter _ hweights.nodup
      · exact List.nodup_singleton _
      · intro uid hminers hburn
        rw [List.map_singleton, List.mem_singleton] at hburn
        rw [hburn] at hminers
        exact habsent hminers
    constructor
    · refine ⟨hnodup, ?_⟩
      rw [heq]
      intro p hp
      rcases List.mem_append.mp hp with hminer | hburn
      · obtain ⟨q, hq, rfl⟩ := List.mem_map.mp hminer
        have hsum : 0 < minerSum burn weights := by
          obtain ⟨same, hsame, hpositive⟩ := hshared.2
          cases hsame
          exact (minerSum_pos_iff hweights).mpr hpositive
        apply mul_nonneg
        · exact div_nonneg (hweights.nonneg q (List.mem_filter.mp hq).1) hsum.le
        · exact sub_nonneg.mpr hrange.2
      · rw [List.mem_singleton.mp hburn]
        exact hrange.1
    · exact burnAllocation_sum burn (some weights)
    · intro _
      apply valueAt_of_mem hnodup
      rw [heq]
      exact List.mem_append_right _ (List.mem_singleton_self _)
    · intro hnot
      exact absurd hshared hnot
  · have heq := burnAllocation_burned hlisted hshared
    constructor
    · rw [heq]
      refine ⟨List.nodup_singleton _, ?_⟩
      intro p hp
      rw [List.mem_singleton.mp hp]
      exact zero_le_one
    · exact burnAllocation_sum burn found
    · intro h
      exact absurd h hshared
    · intro _
      exact heq

/-- Where everything burns, the others are given the same. -/
theorem inOrder_burned {scores : List ℚ} {final : List (Nat × ℚ)} (h : final = [(burn.uid, 1)]) :
    InOrder burn scores (valueAt final) := by
  have hnothing : ∀ uid ≠ burn.uid, valueAt final uid = 0 := by
    intro uid hother
    apply valueAt_of_absent
    rw [h]
    intro hmem
    exact hother (List.mem_singleton.mp hmem)
  intro uid other _ _ huid hother _ _ _
  rw [hnothing uid huid, hnothing other hother]

/-- The burn turns nobody round. -/
theorem inOrder_allocated {scores : List ℚ} (hpercentage : burn.percentage ≤ 1)
    (hlisted : Listed weights) (h : InOrder burn scores (valueAt weights)) :
    InOrder burn scores (valueAt (burnAllocation burn (some weights))) := by
  have hlookup : ∀ uid ≠ burn.uid,
      valueAt (weights.filter fun p => p.1 ≠ burn.uid) uid = valueAt weights uid := by
    intro uid hother
    exact valueAt_filter hlisted.nodup fun _ _ => decide_eq_true hother
  by_cases hshared : MinersShare burn (some weights)
  · obtain ⟨same, hsame, hpositive⟩ := hshared.2
    cases hsame
    have hsum : 0 < minerSum burn weights := (minerSum_pos_iff hlisted).mpr hpositive
    have hvalue : ∀ uid ≠ burn.uid, valueAt (burnAllocation burn (some weights)) uid =
        valueAt weights uid / minerSum burn weights * (1 - burn.percentage) := by
      intro uid hother
      rw [burnAllocation_shared hlisted hshared, valueAt_append_singleton hother,
        ← hlookup uid hother]
      apply valueAt_map (f := fun weight => weight / minerSum burn weights * (1 - burn.percentage))
      · exact nodup_filter _ hlisted.nodup
      · rw [zero_div, zero_mul]
    intro uid other score higher huid hother hscore hhigher hle
    rw [hvalue uid huid, hvalue other hother]
    have hweight := h uid other score higher huid hother hscore hhigher hle
    apply mul_le_mul_of_nonneg_right
    · exact div_le_div_of_nonneg_right hweight hsum.le
    · exact sub_nonneg.mpr hpercentage
  · apply inOrder_burned
    refine burnAllocation_burned ?_ hshared
    intro same hsame
    cases hsame
    exact hlisted

/-! ## The integers -/

/-- What is emitted for a uid: its weight beside the largest, rounded. -/
theorem valueAt_emitted (hlisted : Listed weights) (hsum : (weights.map Prod.snd).sum = 1) :
    ∃ top emitted, 0 < top ∧ (∀ p ∈ weights, p.2 ≤ top) ∧
      convertWeightsAndUidsForEmit weights = some emitted ∧
      ∀ uid, valueAt emitted uid =
        PyFloat.roundEven (valueAt weights uid / top * U16_MAX) := by
  obtain ⟨top, hbound, -, htop, hconvert⟩ :=
    convert_eq hlisted.nonneg (hsum.trans_ne one_ne_zero)
  refine ⟨top, _, htop, hbound, hconvert, ?_⟩
  intro uid
  rw [valueAt_filter]
  · apply valueAt_map (f := fun weight => PyFloat.roundEven (weight / top * U16_MAX)) hlisted.nodup
    rw [zero_div, zero_mul]
    exact PyFloat.roundEven_intCast 0
  · rw [keys_map fun p : Nat × ℚ => PyFloat.roundEven (p.2 / top * U16_MAX)]
    exact hlisted.nodup
  · intro value hne
    exact decide_eq_true hne

/-- Rounding beside the largest turns nobody round, and fits sixteen bits. -/
theorem emitted_inOrder {scores : List ℚ} (hlisted : Listed weights)
    (hsum : (weights.map Prod.snd).sum = 1) (h : InOrder burn scores (valueAt weights)) :
    ∃ emitted, convertWeightsAndUidsForEmit weights = some emitted ∧
      InOrder burn scores (valueAt emitted) ∧
      ∀ uid, 0 ≤ valueAt emitted uid ∧ valueAt emitted uid ≤ 65535 := by
  obtain ⟨top, emitted, htop, hbound, hconvert, hvalue⟩ := valueAt_emitted hlisted hsum
  refine ⟨emitted, hconvert, ?_, ?_⟩
  · intro uid other score higher huid hother hscore hhigher hle
    rw [hvalue uid, hvalue other]
    have hweight := h uid other score higher huid hother hscore hhigher hle
    apply PyFloat.roundEven_mono
    apply mul_le_mul_of_nonneg_right
    · exact div_le_div_of_nonneg_right hweight htop.le
    · norm_num [U16_MAX]
  · intro uid
    rw [hvalue uid]
    have hnonneg : 0 ≤ valueAt weights uid := valueAt_nonneg hlisted.nodup hlisted.nonneg uid
    have hle : valueAt weights uid ≤ top := by
      rcases valueAt_cases hlisted.nodup uid with hmem | ⟨-, hnothing⟩
      · exact hbound _ hmem
      · rw [hnothing]
        exact htop.le
    constructor
    · rw [← PyFloat.roundEven_intCast 0]
      apply PyFloat.roundEven_mono
      rw [Int.cast_zero]
      exact mul_nonneg (div_nonneg hnonneg htop.le) (by norm_num [U16_MAX])
    · rw [← PyFloat.roundEven_intCast 65535]
      apply PyFloat.roundEven_mono
      have hshare : valueAt weights uid / top ≤ 1 := (div_le_one htop).mpr hle
      calc valueAt weights uid / top * U16_MAX ≤ 1 * U16_MAX :=
            mul_le_mul_of_nonneg_right hshare (by norm_num [U16_MAX])
        _ = ((65535 : Int) : ℚ) := by norm_num [U16_MAX]

/-! ## From the scores -/

variable {limits : ChainLimits} {scores : List ℚ}

theorem inOrder_rawWeights {α : Type} [LE α] {given : Nat → α}
    (h : InOrder burn (rawWeights scores) given) : InOrder burn scores given := by
  obtain ⟨norm, hnorm, -, hraw⟩ := rawWeights_eq scores
  have hread : ∀ (uid : Nat) (score : ℚ), scores[uid]? = some score →
      (rawWeights scores)[uid]? = some (score / norm) := by
    intro uid score hscore
    rw [hraw, List.getElem?_map, hscore]
    rfl
  intro uid other score higher huid hother hscore hhigher hle
  apply h uid other _ _ huid hother (hread uid score hscore) (hread other higher hhigher)
  exact div_le_div_of_nonneg_right hle hnorm.le

/-- **The weights keep the order of the scores, and are all there**: they are allocated and
    submitted; each uid is listed once; the burn has its percentage, or everything; and of two other
    uids the one with the higher score is submitted with no less. -/
theorem weights_keep_order (burn : Burn) (limits : ChainLimits) (scores : List ℚ)
    (huid : burn.uid < scores.length) (hrange : 0 ≤ burn.percentage ∧ burn.percentage ≤ 1) :
    ∃ final emitted,
      applyBurnAllocation burn scores.length (processedWeights limits scores) = .ok final ∧
      submittedWeights burn limits scores = some emitted ∧
      Allocated burn (processedWeights limits scores) final ∧
      InOrder burn scores (valueAt emitted) ∧
      ∀ uid, 0 ≤ valueAt emitted uid ∧ valueAt emitted uid ≤ 65535 := by
  have hshaped : ∀ weights, processedWeights limits scores = some weights →
      Shaped (rawWeights scores) weights := fun weights h => processed_shaped h
  have hallocated : Allocated burn (processedWeights limits scores) _ :=
    allocated hrange fun weights h => (hshaped weights h).listed
  have hinOrder : InOrder burn scores
      (valueAt (burnAllocation burn (processedWeights limits scores))) := by
    cases hprocessed : processedWeights limits scores with
    | none => exact inOrder_burned rfl
    | some weights =>
      have hshape : Shaped (rawWeights scores) weights := hshaped weights hprocessed
      apply inOrder_allocated hrange.2 hshape.listed
      exact inOrder_rawWeights (hshape.inOrder burn)
  obtain ⟨emitted, hconvert, hemitted, hrange'⟩ :=
    emitted_inOrder hallocated.listed hallocated.sum hinOrder
  refine ⟨_, emitted, applyBurnAllocation_ok huid hrange _, ?_, hallocated, hemitted, hrange'⟩
  rw [submittedWeights_ok huid hrange]
  exact hconvert

/-- Three miners beside the burn, the lower two with one score. -/
theorem weights_keep_order_burned :
    ∃ final emitted,
      applyBurnAllocation { uid := 3, percentage := 1 / 2 } 4
        (processedWeights ⟨1, 1⟩ [1, 1, 2, 0]) = .ok final ∧
      submittedWeights { uid := 3, percentage := 1 / 2 } ⟨1, 1⟩ [1, 1, 2, 0] = some emitted ∧
      Allocated { uid := 3, percentage := 1 / 2 } (processedWeights ⟨1, 1⟩ [1, 1, 2, 0]) final ∧
      InOrder { uid := 3, percentage := 1 / 2 } [1, 1, 2, 0] (valueAt emitted) ∧
      ∀ uid, 0 ≤ valueAt emitted uid ∧ valueAt emitted uid ≤ 65535 :=
  weights_keep_order { uid := 3, percentage := 1 / 2 } ⟨1, 1⟩ [1, 1, 2, 0] (by decide) (by norm_num)

example : submittedWeights { uid := 3, percentage := 1 / 2 } ⟨1, 1⟩ [1, 1, 2, 0] =
    some [(0, 16384), (1, 16384), (2, 32768), (3, 65535)] := by decide +kernel

end TaoSubnet
