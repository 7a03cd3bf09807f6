import TaoSubnet.Security.Publishing

/-!
# What the check lets through

`assert_publishable` walks every container it meets, so that what it lets through has no forbidden key
at any level. It walks on the interpreter's stack: a payload that is nested deeper than the frames
that are left is not judged at all.
-/

namespace TaoSubnet

open Py

variable {β : Type} {u : Unicode}

/-! ## Keys at any level -/

/-- The key stands in a dict somewhere in the payload. -/
inductive Payload.HasKey (key : PayloadKey) : Payload β → Prop
  | here {items : List (PayloadKey × Payload β)} {value : Payload β} (h : (key, value) ∈ items) :
    HasKey key (.dict items)
  | inDict {items : List (PayloadKey × Payload β)} {item : PayloadKey × Payload β}
    (h : item ∈ items) (hkey : HasKey key item.2) : HasKey key (.dict items)
  | inList {items : List (Payload β)} {item : Payload β} (h : item ∈ items)
    (hkey : HasKey key item) : HasKey key (.list items)
  | inTuple {items : List (Payload β)} {item : Payload β} (h : item ∈ items)
    (hkey : HasKey key item) : HasKey key (.tuple items)

/-- The payload is nested at most so deep, a leaf being one level. -/
inductive Payload.Within : Nat → Payload β → Prop
  | dict {n : Nat} {items : List (PayloadKey × Payload β)} (h : ∀ item ∈ items, Within n item.2) :
    Within (n + 1) (.dict items)
  | list {n : Nat} {items : List (Payload β)} (h : ∀ item ∈ items, Within n item) :
    Within (n + 1) (.list items)
  | tuple {n : Nat} {items : List (Payload β)} (h : ∀ item ∈ items, Within n item) :
    Within (n + 1) (.tuple items)
  | leaf {n : Nat} (value : β) : Within (n + 1) (.leaf value)

theorem within_dict {n : Nat} {items : List (PayloadKey × Payload β)} :
    (Payload.dict items).Within (n + 1) ↔ ∀ item ∈ items, item.2.Within n := by
  constructor
  · intro h
    cases h
    assumption
  · exact .dict

theorem within_list {n : Nat} {items : List (Payload β)} :
    (Payload.list items).Within (n + 1) ↔ ∀ item ∈ items, item.Within n := by
  constructor
  · intro h
    cases h
    assumption
  · exact .list

theorem within_tuple {n : Nat} {items : List (Payload β)} :
    (Payload.tuple items).Within (n + 1) ↔ ∀ item ∈ items, item.Within n := by
  constructor
  · intro h
    cases h
    assumption
  · exact .tuple

theorem not_within_zero (payload : Payload β) : ¬ payload.Within 0 := by
  intro h
  cases h

/-- A fragment occurs in the key, whatever the case of its letters. -/
def PayloadKey.Forbidden (u : Unicode) (key : PayloadKey) : Prop :=
  ∃ fragment ∈ FORBIDDEN_KEY_FRAGMENTS, PyStr.ofString fragment <:+: u.lower key.text

/-- No key at any level is forbidden. -/
def Payload.Clean (u : Unicode) (payload : Payload β) : Prop :=
  ∀ key, payload.HasKey key → ¬ key.Forbidden u

theorem clean_dict {items : List (PayloadKey × Payload β)} :
    (Payload.dict items).Clean u ↔
      ∀ item ∈ items, ¬ item.1.Forbidden u ∧ item.2.Clean u := by
  constructor
  · intro h item hitem
    exact ⟨h item.1 (.here hitem), fun key hkey => h key (.inDict hitem hkey)⟩
  · intro h key hkey
    cases hkey with
    | here hitem => exact (h _ hitem).1
    | inDict hitem hkey => exact (h _ hitem).2 key hkey

theorem clean_list {items : List (Payload β)} :
    (Payload.list items).Clean u ↔ ∀ item ∈ items, item.Clean u := by
  constructor
  · intro h item hitem key hkey
    exact h key (.inList hitem hkey)
  · intro h key hkey
    cases hkey with
    | inList hitem hkey => exact h _ hitem key hkey

theorem clean_tuple {items : List (Payload β)} :
    (Payload.tuple items).Clean u ↔ ∀ item ∈ items, item.Clean u := by
  constructor
  · intro h item hitem key hkey
    exact h key (.inTuple hitem hkey)
  · intro h key hkey
    cases hkey with
    | inTuple hitem hkey => exact h _ hitem key hkey

theorem clean_leaf (value : β) : (Payload.leaf value).Clean u := by
  intro key hkey
  cases hkey

/-! ## The walk -/

/-- A loop that only checks goes through when every turn does. -/
theorem forM_ok_iff {ε α : Type} {f : α → Except ε Unit} {items : List α} :
    items.forM f = .ok () ↔ ∀ item ∈ items, f item = .ok () := by
  induction items with
  | nil => simp [List.forM, pure, Except.pure]
  | cons item rest ih =>
    rw [List.forall_mem_cons, ← ih]
    show (f item >>= fun _ => rest.forM f) = .ok () ↔ _
    cases f item with
    | error e => simp [bind, Except.bind]
    | ok _ => simp [bind, Except.bind]

theorem checkKey_ok_iff (path : PyStr) {key : PayloadKey} :
    checkKey u path key = .ok () ↔ ¬ key.Forbidden u := by
  have hnone : forbiddenFragment u key = none ↔ ¬ key.Forbidden u := by
    unfold forbiddenFragment PayloadKey.Forbidden
    rw [List.find?_eq_none]
    simp only [occursIn_iff, not_exists, not_and]
  rw [← hnone]
  unfold checkKey
  cases forbiddenFragment u key with
  | none => simp
  | some fragment => simp

theorem checkItem_ok_iff {path path' : PyStr} {key : PayloadKey} {frames : Nat} {item : Payload β} :
    (do checkKey u path key; assertPublishable u frames item path') = .ok () ↔
      ¬ key.Forbidden u ∧ assertPublishable u frames item path' = .ok () := by
  rw [← checkKey_ok_iff (u := u) path]
  cases checkKey u path key with
  | error e => simp [bind, Except.bind]
  | ok _ => simp [bind, Except.bind]

/-- **The check returns normally** for what is clean and not nested too deep. By induction on the
    frames: each container hands its items one frame less. -/
theorem assertPublishable_ok_iff {frames : Nat} {payload : Payload β} {path : PyStr} :
    assertPublishable u frames payload path = .ok () ↔ payload.Within frames ∧ payload.Clean u := by
  induction frames generalizing payload path with
  | zero =>
    refine iff_of_false ?_ fun h => not_within_zero payload h.1
    intro h
    cases h
  | succ frames ih =>
    cases payload with
    | dict items =>
      unfold assertPublishable
      rw [forM_ok_iff, within_dict, clean_dict, ← forall₂_and]
      refine forall₂_congr fun item _ => ?_
      rw [checkItem_ok_iff, ih]
      tauto
    | list items =>
      unfold assertPublishable
      rw [forM_ok_iff, within_list, clean_list, ← forall₂_and]
      exact forall₂_congr fun item _ => ih
    | tuple items =>
      unfold assertPublishable
      rw [forM_ok_iff, within_tuple, clean_tuple, ← forall₂_and]
      exact forall₂_congr fun item _ => ih
    | leaf value => exact iff_of_true rfl ⟨.leaf value, clean_leaf value⟩

/-! ## What is refused -/

/-- A loop that raises raises what one of its turns does. -/
theorem forM_error {ε α : Type} {f : α → Except ε Unit} {items : List α} {e : ε}
    (h : items.forM f = .error e) : ∃ item ∈ items, f item = .error e := by
  induction items with
  | nil => cases h
  | cons item rest ih =>
    change (f item >>= fun _ => rest.forM f) = .error e at h
    cases hitem : f item with
    | error e' =>
      rw [hitem] at h
      cases h
      exact ⟨item, List.mem_cons_self, hitem⟩
    | ok _ =>
      rw [hitem] at h
      obtain ⟨other, hother, herror⟩ := ih h
      exact ⟨other, List.mem_cons_of_mem item hother, herror⟩

theorem checkKey_error {path path' : PyStr} {key key' : PayloadKey} {fragment : String}
    (h : checkKey u path key = .error (.forbidden path' key' fragment)) :
    key' = key ∧ fragment ∈ FORBIDDEN_KEY_FRAGMENTS ∧
      PyStr.ofString fragment <:+: u.lower key.text := by
  unfold checkKey at h
  cases hfound : forbiddenFragment u key with
  | none =>
    rw [hfound] at h
    cases h
  | some found =>
    rw [hfound] at h
    cases h
    unfold forbiddenFragment at hfound
    have hoccurs := List.find?_some hfound
    exact ⟨rfl, List.mem_of_find?_eq_some hfound, occursIn_iff.mp hoccurs⟩

/-- A refusal names a key of the payload, and a fragment that is in it. -/
theorem assertPublishable_names {frames : Nat} {payload : Payload β} {path path' : PyStr}
    {key : PayloadKey} {fragment : String}
    (h : assertPublishable u frames payload path = .error (.forbidden path' key fragment)) :
    payload.HasKey key ∧ fragment ∈ FORBIDDEN_KEY_FRAGMENTS ∧
      PyStr.ofString fragment <:+: u.lower key.text := by
  induction frames generalizing payload path with
  | zero => cases h
  | succ frames ih =>
    cases payload with
    | dict items =>
      unfold assertPublishable at h
      obtain ⟨item, hitem, herror⟩ := forM_error h
      cases hkey : checkKey u path item.1 with
      | error e =>
        rw [hkey] at herror
        cases herror
        obtain ⟨rfl, hfragment⟩ := checkKey_error hkey
        exact ⟨.here hitem, hfragment⟩
      | ok _ =>
        rw [hkey] at herror
        obtain ⟨hhas, hfragment⟩ := ih herror
        exact ⟨.inDict hitem hhas, hfragment⟩
    | list items =>
      unfold assertPublishable at h
      obtain ⟨item, hitem, herror⟩ := forM_error h
      obtain ⟨hhas, hfragment⟩ := ih herror
      exact ⟨.inList hitem hhas, hfragment⟩
    | tuple items =>
      unfold assertPublishable at h
      obtain ⟨item, hitem, herror⟩ := forM_error h
      obtain ⟨hhas, hfragment⟩ := ih herror
      exact ⟨.inTuple hitem hhas, hfragment⟩
    | leaf value => cases h

/-! ## What is sent -/

/-- A push that sends anything sends a payload that was let through. -/
theorem clean_of_push {h : PushHost β} {client : MarketplaceClient} {payload : Payload β}
    {outcomes : Nat → HttpxOutcome} {requests : List HttpxRequest} {published : Bool}
    (hpush : pushAgent h client payload outcomes = .ok (requests, published))
    (hsent : requests ≠ []) : payload.Clean h.host.py.unicode := by
  unfold pushAgent at hpush
  cases hcheck : assertPublishable h.host.py.unicode h.frames payload [] with
  | ok _ => exact (assertPublishable_ok_iff.mp hcheck).2
  | error e =>
    rw [hcheck] at hpush
    cases e with
    | forbidden path key fragment =>
      cases hpush
      exact absurd rfl hsent
    | recursion => cases hpush

/-! ## The records -/

/-- A character database in which lower-case ASCII letters, and underscores, are lower case. -/
def LowersAscii (u : Unicode) : Prop :=
  ∀ s : PyStr, (∀ c ∈ s, (97 ≤ c ∧ c ≤ 122) ∨ c = 95) → u.lower s = s

/-- The keys of a record, with the categories that are scored. -/
def RECORD_KEYS : List String :=
  ["agent_id", "miner_hotkey", "miner_uid", "netuid", "mechid", "validator_hotkey", "name",
    "version", "overall_score", "category_scores", "run", "run_id", "category", "variant", "score",
    "safe", "accepted", "requests", "duration_ms", "evaluated_at"] ++ SECURITY_ACTIVE_CATEGORIES

theorem not_forbidden_of_mem (hu : LowersAscii u) {key : String} (h : key ∈ RECORD_KEYS) :
    ¬ (PayloadKey.ofString key).Forbidden u := by
  have hlower : ∀ key ∈ RECORD_KEYS, ∀ c ∈ PyStr.ofString key, (97 ≤ c ∧ c ≤ 122) ∨ c = 95 := by
    decide +kernel
  have hnone : ∀ key ∈ RECORD_KEYS, ∀ fragment ∈ FORBIDDEN_KEY_FRAGMENTS,
      occursIn (PyStr.ofString fragment) (PyStr.ofString key) = false := by decide +kernel
  intro hforbidden
  obtain ⟨fragment, hfragment, hin⟩ := hforbidden
  rw [PayloadKey.ofString, hu _ (hlower key h), ← occursIn_iff, hnone key h fragment hfragment] at hin
  cases hin

theorem clean_dict_of_keys (hu : LowersAscii u) {items : List (PayloadKey × Payload β)}
    (h : ∀ item ∈ items, (∃ key ∈ RECORD_KEYS, item.1 = .ofString key) ∧ item.2.Clean u) :
    (Payload.dict items).Clean u := by
  rw [clean_dict]
  intro item hitem
  obtain ⟨⟨key, hkey, hitem1⟩, hvalue⟩ := h item hitem
  rw [hitem1]
  exact ⟨not_forbidden_of_mem hu hkey, hvalue⟩

theorem run_record_clean (hu : LowersAscii u) (run : RunPayload) : run.record.Clean u := by
  apply clean_dict_of_keys hu
  intro item hitem
  simp only [List.mem_cons, List.not_mem_nil, or_false] at hitem
  rcases hitem with rfl | rfl | rfl | rfl | rfl | rfl | rfl | rfl | rfl
  all_goals exact ⟨⟨_, by decide, rfl⟩, clean_leaf _⟩

/-- The categories of a record are among those that are scored. -/
def AgentPayload.Configured (payload : AgentPayload) : Prop :=
  ∀ p ∈ payload.categoryScores, p.1 ∈ SECURITY_ACTIVE_CATEGORIES

theorem categoryScores_clean (hu : LowersAscii u) {payload : AgentPayload}
    (h : payload.Configured) :
    (Payload.dict (payload.categoryScores.map fun p =>
      (PayloadKey.ofString p.1, Payload.leaf (Json.float (.fin p.2))))).Clean u := by
  apply clean_dict_of_keys hu
  intro item hitem
  obtain ⟨p, hp, rfl⟩ := List.mem_map.mp hitem
  exact ⟨⟨p.1, List.mem_append_right _ (h p hp), rfl⟩, clean_leaf _⟩

theorem record_clean (hu : LowersAscii u) {payload : AgentPayload} (h : payload.Configured) :
    payload.record.Clean u := by
  apply clean_dict_of_keys hu
  intro item hitem
  simp only [List.mem_cons, List.not_mem_nil, or_false] at hitem
  rcases hitem with rfl | rfl | rfl | rfl | rfl | rfl | rfl | rfl | rfl | rfl | rfl
  case inr.inr.inr.inr.inr.inr.inr.inr.inr.inl =>
    exact ⟨⟨_, by decide, rfl⟩, categoryScores_clean hu h⟩
  case inr.inr.inr.inr.inr.inr.inr.inr.inr.inr =>
    exact ⟨⟨_, by decide, rfl⟩, run_record_clean hu payload.run⟩
  all_goals exact ⟨⟨_, by decide, rfl⟩, clean_leaf _⟩

/-! ## The contract -/

/-- What is promised of a payload: the check decides whether it is clean, it is sent only if it is,
    and a record that was built for scored categories passes. -/
structure PublishContract (h : PushHost Json) (payload : Payload Json) : Prop where
  decides : assertPublishable h.host.py.unicode h.frames payload [] = .ok () ↔
    payload.Clean h.host.py.unicode
  sends : ∀ client outcomes requests published,
    pushAgent h client payload outcomes = .ok (requests, published) → requests ≠ [] →
      payload.Clean h.host.py.unicode
  builds : ∀ context overallScore categoryScores job evaluatedAt agentPayload,
    buildAgentPayload context overallScore categoryScores job evaluatedAt = some agentPayload →
      agentPayload.Configured → agentPayload.record = payload →
      assertPublishable h.host.py.unicode h.frames payload [] = .ok ()

/-- **The contract holds** exactly for the payloads that have a forbidden key, or are nested no deeper
    than the stack lets the check walk. -/
theorem publish_contract_iff {h : PushHost Json} (hu : LowersAscii h.host.py.unicode)
    (payload : Payload Json) :
    PublishContract h payload ↔
      (payload.Clean h.host.py.unicode → payload.Within h.frames) := by
  constructor
  · intro hcontract hclean
    exact (assertPublishable_ok_iff.mp (hcontract.decides.mpr hclean)).1
  · intro hwithin
    refine ⟨?_, ?_, ?_⟩
    · rw [assertPublishable_ok_iff]
      exact ⟨fun hok => hok.2, fun hclean => ⟨hwithin hclean, hclean⟩⟩
    · intro client outcomes requests published hpush hsent
      exact clean_of_push hpush hsent
    · intro context overallScore categoryScores job evaluatedAt agentPayload _ hconfigured hrecord
      have hclean : payload.Clean h.host.py.unicode := hrecord ▸ record_clean hu hconfigured
      exact assertPublishable_ok_iff.mpr ⟨hwithin hclean, hclean⟩

/-! ## A payload that is nested too deep -/

/-- Lists in a list, so many of them. -/
def nestedLists : Nat → Payload Json
  | 0 => .leaf .null
  | n + 1 => .list [nestedLists n]

theorem nestedLists_clean (n : Nat) : (nestedLists n).Clean u := by
  induction n with
  | zero => exact clean_leaf _
  | succ n ih =>
    rw [nestedLists, clean_list]
    intro item hitem
    rw [List.mem_singleton.mp hitem]
    exact ih

theorem nestedLists_within {n m : Nat} : (nestedLists n).Within m ↔ n < m := by
  induction n generalizing m with
  | zero =>
    cases m with
    | zero => exact iff_of_false (not_within_zero _) (lt_irrefl 0)
    | succ m => exact iff_of_true (.leaf _) m.succ_pos
  | succ n ih =>
    cases m with
    | zero => exact iff_of_false (not_within_zero _) (Nat.not_lt_zero _)
    | succ m =>
      rw [nestedLists, within_list, Nat.succ_lt_succ_iff, ← ih]
      simp

theorem lowersAscii_latin1 : LowersAscii Unicode.latin1 := by
  intro s hs
  conv_rhs => rw [← List.map_id s]
  refine List.map_congr_left fun c hc => ?_
  have hrange := hs c hc
  rw [if_neg (by omega), if_neg (by omega), id_eq]

/-- The stack of a fresh interpreter, and what `json.dumps` makes of `[[None]]`. -/
def freshPush : PushHost Json where
  host := { py := cpython }
  frames := 1000
  dumps := fun _ => .ok [91, 91, 110, 117, 108, 108, 93, 93]

/-- `[[None]]` is judged, and would be sent. -/
theorem publish_contract_shallow : PublishContract freshPush (nestedLists 2) :=
  (publish_contract_iff lowersAscii_latin1 (nestedLists 2)).mpr
    fun _ => nestedLists_within.mpr (by decide)

/-- A thousand lists in each other, with no key at all: the check does not return. -/
theorem deep_lists_break_contract : ¬ PublishContract freshPush (nestedLists 1000) := by
  intro h
  have hok := h.decides.mpr (nestedLists_clean 1000)
  have hwithin := (assertPublishable_ok_iff.mp hok).1
  exact absurd (nestedLists_within.mp hwithin) (lt_irrefl 1000)

end TaoSubnet
