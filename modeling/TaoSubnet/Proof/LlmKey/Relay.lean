import TaoSubnet.Proof.LlmKey.Contribution

/-!
# What the validator relays of any batch

`_validate_miner_keys` over whatever JSON a miner sends. An item is let in for its own sake or not
at all, except that its slot must be unused; and with five slots to use, the cap on the batch never
turns away an item that the slots would have let in. What the checks look at is `str(value)`, which
is where values of other types come through.
-/

namespace TaoSubnet

open Py

/-- The texts a key must have are not blank. -/
structure Nonblank (provider model blob pubkeyId : PyStr) : Prop where
  provider : provider.strip ≠ []
  model : model.strip ≠ []
  blob : blob.strip ≠ []
  pubkeyId : pubkeyId.strip ≠ []

/-- An object as the synapse declares it: the slot is an integer in range, and the four texts that
    are required are texts. -/
structure Declared (items : List (PyStr × Json)) (slot : Int)
    (provider model blob pubkeyId : PyStr) : Prop where
  slot_int : Json.get? items "slot" = some (.int slot)
  provider_text : Json.get? items "provider" = some (.str provider)
  model_text : Json.get? items "model" = some (.str model)
  blob_text : Json.get? items "encrypted_key_blob" = some (.str blob)
  pubkeyId_text : Json.get? items "pubkey_id_used" = some (.str pubkeyId)
  in_range : 0 ≤ slot ∧ slot < LLM_KEY_MAX_KEYS_PER_HOTKEY
  nonblank : Nonblank provider model blob pubkeyId

/-- `key` is the sanitized form of an item with the declared types. -/
def DeclaredKey (py : Interpreter) (item : Json) (slot : Int) (key : Json) : Prop :=
  ∃ items provider model blob pubkeyId, item = .obj items ∧
    Declared items slot provider model blob pubkeyId ∧
    key = keyEntry (.int slot) provider.strip model.strip blob.strip
      (getText py items "blob_encoding" blobEncoding) pubkeyId.strip

/-- The items of what was sent; anything but a list has none. -/
def entriesOf : Json → List Json
  | .arr items => items
  | _ => []

def keySlot : Json → Option Int
  | .obj items => intSlot (Json.get? items "slot")
  | _ => none

/-- What the relay promises of a batch. -/
structure RelayContract (py : Interpreter) (raw : Json) : Prop where
  capped : (validateMinerKeys py raw).length ≤ LLM_KEY_MAX_KEYS_PER_HOTKEY
  /-- In order, each key is the sanitized form of an item. -/
  sublist : ∃ chosen, chosen.Sublist (entriesOf raw) ∧
    List.Forall₂ (fun item key => ∃ slot, DeclaredKey py item slot key) chosen
      (validateMinerKeys py raw)
  /-- An item adds nothing to what is relayed of those before it, or it has the declared types and
      a slot unused so far and adds its sanitized form. -/
  each : ∀ before item after, entriesOf raw = before ++ item :: after →
    validateMinerKeys py (.arr (before ++ [item])) = validateMinerKeys py (.arr before) ∨
      ∃ slot key, DeclaredKey py item slot key ∧
        (∀ other ∈ validateMinerKeys py (.arr before), keySlot other ≠ some slot) ∧
        validateMinerKeys py (.arr (before ++ [item])) = validateMinerKeys py (.arr before) ++ [key]
  idempotent : validateMinerKeys py (.arr (validateMinerKeys py raw)) = validateMinerKeys py raw

/-- Of the items that the checks let in with one slot, the first has the declared types. -/
def FirstOfSlotDeclared (py : Interpreter) (raw : Json) : Prop :=
  ∀ before item after, entriesOf raw = before ++ item :: after →
    ∀ slot key, sanitizeKey py [] item = some (slot, key) →
      (∀ other ∈ before, ∀ key', sanitizeKey py [] other ≠ some (slot, key')) →
        DeclaredKey py item slot key

/-! ## One item -/

variable {py : Interpreter} {item key : Json} {slot : Int} {seen : List Int}

/-- What the checks look at. -/
theorem sanitizeKey_iff : sanitizeKey py seen item = some (slot, key) ↔
    ∃ items value, item = .obj items ∧ Json.get? items "slot" = some value ∧
      intSlot (some value) = some slot ∧ (0 ≤ slot ∧ slot < LLM_KEY_MAX_KEYS_PER_HOTKEY) ∧
      slot ∉ seen ∧
      Nonblank (getText py items "provider") (getText py items "model")
        (getText py items "encrypted_key_blob") (getText py items "pubkey_id_used") ∧
      key = keyEntry value (getText py items "provider").strip (getText py items "model").strip
        (getText py items "encrypted_key_blob").strip
        (getText py items "blob_encoding" blobEncoding)
        (getText py items "pubkey_id_used").strip := by
  constructor
  · intro h
    cases item with
    | obj items =>
      simp only [sanitizeKey] at h
      split at h
      · rename_i value n hvalue hn
        split at h
        · cases h
        · rename_i hpasses
          cases h
          simp only [List.isEmpty_iff, not_or, not_not, List.contains_iff_mem] at hpasses
          obtain ⟨hrange, hfresh, hprovider, hmodel, hblob, hpubkeyId⟩ := hpasses
          rw [hvalue] at hn
          exact ⟨items, value, rfl, hvalue, hn, hrange, hfresh,
            ⟨hprovider, hmodel, hblob, hpubkeyId⟩, rfl⟩
      · cases h
    | null => cases h
    | bool b => cases h
    | int n => cases h
    | float x => cases h
    | str s => cases h
    | arr items => cases h
  · intro h
    obtain ⟨items, value, hitem, hvalue, hn, hrange, hfresh, htexts, hkey⟩ := h
    subst hitem hkey
    simp only [sanitizeKey, hvalue, hn]
    apply if_neg
    simp only [List.isEmpty_iff, not_or, not_not, List.contains_iff_mem]
    exact ⟨hrange, hfresh, htexts.provider, htexts.model, htexts.blob, htexts.pubkeyId⟩

/-- Beside its own form, only its slot decides on an item. -/
theorem sanitizeKey_seen_iff : sanitizeKey py seen item = some (slot, key) ↔
    sanitizeKey py [] item = some (slot, key) ∧ slot ∉ seen := by
  constructor
  · intro h
    obtain ⟨items, value, hitem, hvalue, hn, hrange, hfresh, hrest⟩ := sanitizeKey_iff.mp h
    exact ⟨sanitizeKey_iff.mpr ⟨items, value, hitem, hvalue, hn, hrange, List.not_mem_nil, hrest⟩,
      hfresh⟩
  · intro h
    obtain ⟨items, value, hitem, hvalue, hn, hrange, _, hrest⟩ := sanitizeKey_iff.mp h.1
    exact sanitizeKey_iff.mpr ⟨items, value, hitem, hvalue, hn, hrange, h.2, hrest⟩

theorem sanitizeKey_range (h : sanitizeKey py [] item = some (slot, key)) :
    0 ≤ slot ∧ slot < LLM_KEY_MAX_KEYS_PER_HOTKEY := by
  obtain ⟨items, value, hitem, hvalue, hn, hrange, hrest⟩ := sanitizeKey_iff.mp h
  exact hrange

theorem sanitizeKey_keySlot (h : sanitizeKey py [] item = some (slot, key)) :
    keySlot item = some slot := by
  obtain ⟨items, value, hitem, hvalue, hn, hrest⟩ := sanitizeKey_iff.mp h
  subst hitem
  show intSlot (Json.get? items "slot") = some slot
  rw [hvalue]
  exact hn

/-- A sanitized key is let in as it is. -/
theorem sanitizeKey_self (h : sanitizeKey py [] item = some (slot, key)) :
    sanitizeKey py [] key = some (slot, key) := by
  obtain ⟨items, value, hitem, hvalue, hn, hrange, hfresh, htexts, hkey⟩ := sanitizeKey_iff.mp h
  refine sanitizeKey_iff.mpr ⟨_, value, hkey, rfl, hn, hrange, hfresh, ?_, ?_⟩
  · -- The texts are read back as they were written, and stripped they were not blank.
    show Nonblank (getText py items "provider").strip (getText py items "model").strip
      (getText py items "encrypted_key_blob").strip (getText py items "pubkey_id_used").strip
    constructor
    · rw [PyStr.strip_strip]
      exact htexts.provider
    · rw [PyStr.strip_strip]
      exact htexts.model
    · rw [PyStr.strip_strip]
      exact htexts.blob
    · rw [PyStr.strip_strip]
      exact htexts.pubkeyId
  · show key = keyEntry value (getText py items "provider").strip.strip
      (getText py items "model").strip.strip (getText py items "encrypted_key_blob").strip.strip
      (getText py items "blob_encoding" blobEncoding)
      (getText py items "pubkey_id_used").strip.strip
    rw [PyStr.strip_strip, PyStr.strip_strip, PyStr.strip_strip, PyStr.strip_strip]
    exact hkey

/-- The text of a field that holds one. -/
theorem getText_str {items : List (PyStr × Json)} {name : String} {s : PyStr} (default : PyStr)
    (h : Json.get? items name = some (.str s)) : getText py items name default = s := by
  unfold getText
  rw [h]
  rfl

theorem DeclaredKey.sanitize (h : DeclaredKey py item slot key) :
    sanitizeKey py [] item = some (slot, key) := by
  obtain ⟨items, provider, model, blob, pubkeyId, hitem, hdeclared, hkey⟩ := h
  refine sanitizeKey_iff.mpr ⟨items, .int slot, hitem, hdeclared.slot_int, rfl, hdeclared.in_range,
    List.not_mem_nil, ?_, ?_⟩
  · rw [getText_str [] hdeclared.provider_text, getText_str [] hdeclared.model_text,
      getText_str [] hdeclared.blob_text, getText_str [] hdeclared.pubkeyId_text]
    exact hdeclared.nonblank
  · rw [getText_str [] hdeclared.provider_text, getText_str [] hdeclared.model_text,
      getText_str [] hdeclared.blob_text, getText_str [] hdeclared.pubkeyId_text]
    exact hkey

/-! ## The loop without the cap -/

/-- One turn of the loop, the payload and the used slots in hand. -/
def relayStep (py : Interpreter) (state : List Json × List Int) (item : Json) :
    List Json × List Int :=
  match sanitizeKey py state.2 item with
  | none => state
  | some (slot, key) => (state.1 ++ [key], slot :: state.2)

def relayState (py : Interpreter) (items : List Json) : List Json × List Int :=
  items.foldl (relayStep py) ([], [])

theorem relayStep_none {state : List Json × List Int} (h : sanitizeKey py state.2 item = none) :
    relayStep py state item = state := by
  unfold relayStep
  rw [h]

theorem relayStep_some {state : List Json × List Int}
    (h : sanitizeKey py state.2 item = some (slot, key)) :
    relayStep py state item = (state.1 ++ [key], slot :: state.2) := by
  unfold relayStep
  rw [h]

theorem relayState_concat (items : List Json) (item : Json) :
    relayState py (items ++ [item]) = relayStep py (relayState py items) item := by
  unfold relayState
  rw [List.foldl_append]
  rfl

/-- The payload and the used slots, once `items` have been looked at. -/
structure Relays (py : Interpreter) (items : List Json) (state : List Json × List Int) : Prop where
  nodup : state.2.Nodup
  in_range : ∀ n ∈ state.2, 0 ≤ n ∧ n < LLM_KEY_MAX_KEYS_PER_HOTKEY
  used : ∀ n, n ∈ state.2 ↔ ∃ item ∈ items, ∃ key, sanitizeKey py [] item = some (n, key)
  chosen : ∃ chosen, chosen.Sublist items ∧
    List.Forall₂ (fun item key => ∃ slot, sanitizeKey py [] item = some (slot, key) ∧
      ∃ before after, items = before ++ item :: after ∧
        ∀ other ∈ before, ∀ key', sanitizeKey py [] other ≠ some (slot, key')) chosen state.1
  own : List.Forall₂ (fun slot key => sanitizeKey py [] key = some (slot, key)) state.2.reverse
    state.1

theorem relays_nil : Relays py [] ([], []) where
  nodup := List.nodup_nil
  in_range := by simp
  used := by simp
  chosen := ⟨[], List.Sublist.refl [], .nil⟩
  own := .nil

/-- One slot to a key. -/
theorem Relays.length_eq {items : List Json} {state : List Json × List Int}
    (h : Relays py items state) : state.2.length = state.1.length := by
  rw [← List.length_reverse]
  exact h.own.length_eq

/-- The used slots are among the five. -/
theorem Relays.subperm {items : List Json} {state : List Json × List Int}
    (h : Relays py items state) : state.2.Subperm [0, 1, 2, 3, 4] := by
  apply List.subperm_of_subset h.nodup
  intro n hn
  have hrange := h.in_range n hn
  simp only [LLM_KEY_MAX_KEYS_PER_HOTKEY] at hrange
  simp
  omega

/-- The slot of a relayed key is a used one. -/
theorem Relays.keySlot_mem {items : List Json} {state : List Json × List Int}
    (h : Relays py items state) (hkey : key ∈ state.1) (hslot : keySlot key = some slot) :
    slot ∈ state.2 := by
  obtain ⟨i, hi, hget⟩ := List.mem_iff_getElem.mp hkey
  have hi' : i < state.2.reverse.length := by
    rw [List.length_reverse, h.length_eq]
    exact hi
  have hown : sanitizeKey py [] state.1[i] = some (state.2.reverse[i], state.1[i]) :=
    h.own.get hi' hi
  rw [hget] at hown
  rw [sanitizeKey_keySlot hown] at hslot
  cases hslot
  exact List.mem_reverse.mp (List.getElem_mem hi')

/-- Five slots are used once five keys are relayed. -/
theorem Relays.full {items : List Json} {state : List Json × List Int} (h : Relays py items state)
    (hfull : LLM_KEY_MAX_KEYS_PER_HOTKEY ≤ state.1.length)
    (hslot : 0 ≤ slot ∧ slot < LLM_KEY_MAX_KEYS_PER_HOTKEY) : slot ∈ state.2 := by
  have hperm : state.2.Perm [0, 1, 2, 3, 4] := by
    apply h.subperm.perm_of_length_le
    rw [h.length_eq]
    exact hfull
  rw [hperm.mem_iff]
  simp only [LLM_KEY_MAX_KEYS_PER_HOTKEY] at hslot
  simp
  omega

theorem Relays.step {items : List Json} {state : List Json × List Int} (h : Relays py items state)
    (item : Json) : Relays py (items ++ [item]) (relayStep py state item) := by
  cases hitem : sanitizeKey py state.2 item with
  | none =>
    rw [relayStep_none hitem]
    obtain ⟨chosen, hsublist, hchosen⟩ := h.chosen
    refine ⟨h.nodup, h.in_range, ?_, ?_, h.own⟩
    · intro n
      rw [h.used n]
      constructor
      · intro hused
        obtain ⟨other, hother, key, hkey⟩ := hused
        exact ⟨other, List.mem_append_left [item] hother, key, hkey⟩
      · intro hused
        obtain ⟨other, hother, key, hkey⟩ := hused
        rcases List.mem_append.mp hother with hold | hnew
        · exact ⟨other, hold, key, hkey⟩
        · -- What is turned away has a slot that was used, or none.
          rw [List.mem_singleton.mp hnew] at hkey
          rw [← h.used n]
          by_contra hfresh
          have hpasses := sanitizeKey_seen_iff.mpr ⟨hkey, hfresh⟩
          rw [hitem] at hpasses
          cases hpasses
    · refine ⟨chosen, hsublist.trans (List.sublist_append_left items [item]), ?_⟩
      apply hchosen.imp
      intro other key hother
      obtain ⟨slot, hslot, before, after, hitems, hfirst⟩ := hother
      refine ⟨slot, hslot, before, after ++ [item], ?_, hfirst⟩
      rw [hitems, List.append_assoc, List.cons_append]
  | some kept =>
    obtain ⟨slot, key⟩ := kept
    rw [relayStep_some hitem]
    obtain ⟨hpasses, hfresh⟩ := sanitizeKey_seen_iff.mp hitem
    obtain ⟨chosen, hsublist, hchosen⟩ := h.chosen
    refine ⟨List.nodup_cons.mpr ⟨hfresh, h.nodup⟩, ?_, ?_, ?_, ?_⟩
    · intro n hn
      rcases List.mem_cons.mp hn with rfl | hold
      · exact sanitizeKey_range hpasses
      · exact h.in_range n hold
    · intro n
      rw [List.mem_cons, h.used n]
      constructor
      · intro hused
        rcases hused with rfl | hold
        · exact ⟨item, List.mem_append_right items List.mem_cons_self, key, hpasses⟩
        · obtain ⟨other, hother, key', hkey'⟩ := hold
          exact ⟨other, List.mem_append_left [item] hother, key', hkey'⟩
      · intro hused
        obtain ⟨other, hother, key', hkey'⟩ := hused
        rcases List.mem_append.mp hother with hold | hnew
        · exact .inr ⟨other, hold, key', hkey'⟩
        · rw [List.mem_singleton.mp hnew, hpasses] at hkey'
          cases hkey'
          exact .inl rfl
    · refine ⟨chosen ++ [item], hsublist.append (List.Sublist.refl [item]), ?_⟩
      apply List.rel_append
      · apply hchosen.imp
        intro other key' hother
        obtain ⟨slot', hslot', before, after, hitems, hfirst⟩ := hother
        refine ⟨slot', hslot', before, after ++ [item], ?_, hfirst⟩
        rw [hitems, List.append_assoc, List.cons_append]
      · refine .cons ⟨slot, hpasses, items, [], rfl, ?_⟩ .nil
        intro other hother key' hkey'
        exact hfresh ((h.used slot).mpr ⟨other, hother, key', hkey'⟩)
    · rw [List.reverse_cons]
      exact List.rel_append h.own (.cons (sanitizeKey_self hpasses) .nil)

theorem relays_state (items : List Json) : Relays py items (relayState py items) := by
  induction items using List.reverseRecOn with
  | nil => exact relays_nil
  | append_singleton before item ih =>
    rw [relayState_concat]
    exact ih.step item

theorem Relays.full_none {items : List Json} {state : List Json × List Int}
    (h : Relays py items state) (hfull : LLM_KEY_MAX_KEYS_PER_HOTKEY ≤ state.1.length)
    (item : Json) : sanitizeKey py state.2 item = none := by
  cases hitem : sanitizeKey py state.2 item with
  | none => rfl
  | some kept =>
    obtain ⟨slot, key⟩ := kept
    obtain ⟨hpasses, hfresh⟩ := sanitizeKey_seen_iff.mp hitem
    exact absurd (h.full hfull (sanitizeKey_range hpasses)) hfresh

theorem sanitizeKeys_full {payload : List Json}
    (hfull : LLM_KEY_MAX_KEYS_PER_HOTKEY ≤ payload.length) (rest : List Json) :
    sanitizeKeys py rest payload seen = payload := by
  cases rest with
  | nil => rfl
  | cons item rest => rw [sanitizeKeys, if_pos hfull]

/-- The cap stops the loop only where the slots do. -/
theorem sanitizeKeys_eq (rest : List Json) :
    ∀ {items : List Json} {state : List Json × List Int}, Relays py items state →
      sanitizeKeys py rest state.1 state.2 = (rest.foldl (relayStep py) state).1 := by
  induction rest with
  | nil => exact fun _ => rfl
  | cons item rest ih =>
    intro items state h
    have hnext := ih (h.step item)
    rw [List.foldl_cons, ← hnext, sanitizeKeys]
    by_cases hfull : LLM_KEY_MAX_KEYS_PER_HOTKEY ≤ state.1.length
    · rw [if_pos hfull, relayStep_none (h.full_none hfull item), sanitizeKeys_full hfull]
    · rw [if_neg hfull]
      cases hitem : sanitizeKey py state.2 item with
      | none => rw [relayStep_none hitem]
      | some kept => rw [relayStep_some hitem]

theorem validateMinerKeys_arr (items : List Json) :
    validateMinerKeys py (.arr items) = (relayState py items).1 :=
  sanitizeKeys_eq items relays_nil

theorem validateMinerKeys_eq (raw : Json) :
    validateMinerKeys py raw = (relayState py (entriesOf raw)).1 := by
  cases raw with
  | arr items => exact validateMinerKeys_arr items
  | null => rfl
  | bool b => rfl
  | int n => rfl
  | float x => rfl
  | str s => rfl
  | obj items => rfl

/-! ## The batch -/

theorem length_relayState (items : List Json) :
    (relayState py items).1.length ≤ LLM_KEY_MAX_KEYS_PER_HOTKEY := by
  rw [← (relays_state items).length_eq]
  exact (relays_state items).subperm.length_le

/-- Keys that are let in as they are, each with a slot of its own, all come through. -/
theorem foldl_relayStep_own {slots : List Int} {keys : List Json}
    (hown : List.Forall₂ (fun slot key => sanitizeKey py [] key = some (slot, key)) slots keys) :
    ∀ {state : List Json × List Int}, slots.Nodup → (∀ slot ∈ slots, slot ∉ state.2) →
      (keys.foldl (relayStep py) state).1 = state.1 ++ keys := by
  induction hown with
  | nil =>
    intro state _ _
    exact (List.append_nil state.1).symm
  | @cons slot key slots keys hkey _ ih =>
    intro state hnodup hfresh
    rw [List.nodup_cons] at hnodup
    have hstep : relayStep py state key = (state.1 ++ [key], slot :: state.2) :=
      relayStep_some (sanitizeKey_seen_iff.mpr ⟨hkey, hfresh slot List.mem_cons_self⟩)
    rw [List.foldl_cons, hstep, ih hnodup.2]
    · exact List.append_assoc state.1 [key] keys
    · intro other hother
      rw [List.mem_cons, not_or]
      refine ⟨?_, hfresh other (List.mem_cons_of_mem slot hother)⟩
      intro heq
      rw [heq] at hother
      exact hnodup.1 hother

theorem relayState_idempotent (items : List Json) :
    (relayState py (relayState py items).1).1 = (relayState py items).1 := by
  have h : Relays py items (relayState py items) := relays_state items
  have hnodup : (relayState py items).2.reverse.Nodup := List.nodup_reverse.mpr h.nodup
  exact foldl_relayStep_own h.own hnodup fun _ _ => List.not_mem_nil

/-- What an item adds to what is relayed of those before it. -/
theorem relayState_fresh {before : List Json}
    (h : sanitizeKey py [] item = some (slot, key))
    (hfirst : ∀ other ∈ before, ∀ key', sanitizeKey py [] other ≠ some (slot, key')) :
    (relayState py (before ++ [item])).1 = (relayState py before).1 ++ [key] := by
  have hfresh : slot ∉ (relayState py before).2 := by
    rw [(relays_state before).used slot]
    intro hused
    obtain ⟨other, hother, key', hkey'⟩ := hused
    exact hfirst other hother key' hkey'
  rw [relayState_concat, relayStep_some (sanitizeKey_seen_iff.mpr ⟨h, hfresh⟩)]

/-- The relay keeps what it promises of exactly the batches in which, for each slot, the first item
    that the checks let in has the declared types. -/
theorem relay_contract_iff (py : Interpreter) (raw : Json) :
    RelayContract py raw ↔ FirstOfSlotDeclared py raw := by
  constructor
  · intro h before item after hitems slot key hpasses hfirst
    have hadds := relayState_fresh hpasses hfirst
    rw [← validateMinerKeys_arr, ← validateMinerKeys_arr] at hadds
    rcases h.each before item after hitems with hnothing | hdeclared
    · rw [hadds] at hnothing
      exact absurd hnothing (by simp)
    · obtain ⟨slot', key', hdeclared, _, _⟩ := hdeclared
      have hsame := hdeclared.sanitize
      rw [hpasses] at hsame
      cases hsame
      exact hdeclared
  · intro h
    refine ⟨?_, ?_, ?_, ?_⟩
    · rw [validateMinerKeys_eq]
      exact length_relayState (entriesOf raw)
    · obtain ⟨chosen, hsublist, hchosen⟩ := (relays_state (entriesOf raw)).chosen
      refine ⟨chosen, hsublist, ?_⟩
      rw [validateMinerKeys_eq]
      apply hchosen.imp
      intro item key hitem
      obtain ⟨slot, hpasses, before, after, hitems, hfirst⟩ := hitem
      exact ⟨slot, h before item after hitems slot key hpasses hfirst⟩
    · intro before item after hitems
      rw [validateMinerKeys_arr, validateMinerKeys_arr]
      have hbefore : Relays py before (relayState py before) := relays_state before
      cases hitem : sanitizeKey py (relayState py before).2 item with
      | none =>
        left
        rw [relayState_concat, relayStep_none hitem]
      | some kept =>
        right
        obtain ⟨slot, key⟩ := kept
        obtain ⟨hpasses, hfresh⟩ := sanitizeKey_seen_iff.mp hitem
        have hfirst : ∀ other ∈ before, ∀ key', sanitizeKey py [] other ≠ some (slot, key') := by
          intro other hother key' hkey'
          exact hfresh ((hbefore.used slot).mpr ⟨other, hother, key', hkey'⟩)
        refine ⟨slot, key, h before item after hitems slot key hpasses hfirst, ?_,
          relayState_fresh hpasses hfirst⟩
        intro other hother hslot
        exact hfresh (hbefore.keySlot_mem hother hslot)
    · rw [validateMinerKeys_arr, validateMinerKeys_eq]
      exact relayState_idempotent (entriesOf raw)

/-- CPython's names for the JSON constants. -/
def namesConstants : Interpreter :=
  { cpython with
    strOf := fun value =>
      match value with
      | .null => PyStr.ofString "None"
      | .bool true => PyStr.ofString "True"
      | .bool false => PyStr.ofString "False"
      | _ => [] }

/-- A key for no provider in particular. -/
def nullProvider : Json :=
  .obj [(PyStr.ofString "slot", .int 0), (PyStr.ofString "provider", .null),
    (PyStr.ofString "model", .str (PyStr.ofString "gpt-4o")),
    (PyStr.ofString "encrypted_key_blob", .str (PyStr.ofString "blob")),
    (PyStr.ofString "pubkey_id_used", .str (PyStr.ofString "v1"))]

/-- The key is relayed for the provider `None`. -/
theorem null_provider_relayed : ¬ RelayContract namesConstants (.arr [nullProvider]) := by
  intro h
  have hrelayed : validateMinerKeys namesConstants (.arr [nullProvider]) =
      [keyEntry (.int 0) (PyStr.ofString "None") (PyStr.ofString "gpt-4o") (PyStr.ofString "blob")
        blobEncoding (PyStr.ofString "v1")] := rfl
  rcases h.each [] nullProvider [] rfl with hnothing | hadds
  · rw [List.nil_append, hrelayed] at hnothing
    cases hnothing
  · obtain ⟨slot, key, hdeclared, _, _⟩ := hadds
    obtain ⟨items, provider, model, blob, pubkeyId, hitem, hdeclared, _⟩ := hdeclared
    cases hitem
    -- The provider is read as it was sent, and that is no text.
    have hnull : some Json.null = some (Json.str provider) := hdeclared.provider_text
    cases hnull

end TaoSubnet
