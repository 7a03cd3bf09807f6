import Mathlib.Data.Finset.Card
import TaoSubnet.Proof.LlmKey.Contribution

/-!
# One entry is edited, and the other slots

The slot of a key is its place among the *distinct complete* keys, not its place in the document. So an
entry pushes those behind it along by one slot, if its key is new where it stands and not yet among
the keys in front of them. Editing an entry leaves the others in their slots exactly when both
versions push them alike.
-/

namespace TaoSubnet

open Py

/-! ## The slot of an entry -/

/-- The physical keys of the complete entries. -/
def physicalKeys (py : Interpreter) (entries : List Json) : Finset PyStr :=
  ((entries.filterMap (completeKey py)).map KeyConfig.apiKey).toFinset

/-- Entry `i` is complete, and the first with its physical key. -/
def Supplies (py : Interpreter) (entries : List Json) (i : Nat) (config : KeyConfig) : Prop :=
  ∃ entry, entries[i]? = some entry ∧ completeKey py entry = some config ∧
    config.apiKey ∉ physicalKeys py (entries.take i)

section Loop

variable {py : Interpreter}

@[simp] theorem physicalKeys_nil : physicalKeys py [] = ∅ := rfl

theorem physicalKeys_cons (entry : Json) (rest : List Json) : physicalKeys py (entry :: rest) =
    match completeKey py entry with
    | none => physicalKeys py rest
    | some config => insert config.apiKey (physicalKeys py rest) := by
  unfold physicalKeys
  cases hkey : completeKey py entry with
  | none => rw [List.filterMap_cons_none hkey]
  | some config => rw [List.filterMap_cons_some hkey, List.map_cons, List.toFinset_cons]

theorem physicalKeys_append (xs ys : List Json) :
    physicalKeys py (xs ++ ys) = physicalKeys py xs ∪ physicalKeys py ys := by
  unfold physicalKeys
  rw [List.filterMap_append, List.map_append, List.toFinset_append]

/-- A key that the loop has not seen is not among the configs so far. -/
theorem not_mem_of_unseen {configs : List KeyConfig} {seen : List PyStr} {config : KeyConfig}
    (hseen : seen.toFinset = (configs.map KeyConfig.apiKey).toFinset)
    (h : config.apiKey ∉ seen.toFinset) : config ∉ configs := by
  intro hmem
  apply h
  rw [hseen, List.mem_toFinset]
  exact List.mem_map_of_mem hmem

/-- The slots that are filled stay as they are. -/
theorem collectConfigs_old {rest : List Json} {configs : List KeyConfig} {seen : List PyStr} {slot : Nat}
    (h : slot < configs.length) : (collectConfigs py rest configs seen)[slot]? = configs[slot]? := by
  rw [collectConfigs_eq, List.getElem?_append_left h]

/-- The slots to come go to keys that are new, and are within the limit. -/
theorem collectConfigs_later {rest : List Json} {configs : List KeyConfig} {seen : List PyStr}
    {slot : Nat} {config : KeyConfig} (hslot : configs.length ≤ slot)
    (h : (collectConfigs py rest configs seen)[slot]? = some config) :
    config.apiKey ∉ seen ∧ slot < LLM_KEY_MAX_KEYS_PER_HOTKEY := by
  have hnone : configs[slot]? = none := List.getElem?_eq_none hslot
  induction rest generalizing configs seen with
  | nil =>
    rw [collectConfigs, hnone] at h
    cases h
  | cons first rest ih =>
    rw [collectConfigs_cons] at h
    split at h
    · rw [hnone] at h
      cases h
    · rename_i hroom
      cases hkey : completeKey py first with
      | none =>
        rw [hkey] at h
        exact ih hslot h hnone
      | some new =>
        rw [hkey] at h
        dsimp only at h
        split at h
        · exact ih hslot h hnone
        · rename_i hunseen
          have hfresh : new.apiKey ∉ seen := by simpa using hunseen
          rcases hslot.eq_or_lt with heq | hlt
          · -- the slot of the new key itself
            have hlength : slot < (configs ++ [new]).length := by
              rw [List.length_append, List.length_singleton]
              omega
            rw [collectConfigs_old hlength, ← heq, List.getElem?_concat_length] at h
            obtain rfl := Option.some.inj h
            exact ⟨hfresh, by omega⟩
          · have hlength : (configs ++ [new]).length ≤ slot := by
              rw [List.length_append, List.length_singleton]
              omega
            obtain ⟨hlater, hmax⟩ := ih hlength h (List.getElem?_eq_none hlength)
            exact ⟨fun hmem => hlater (List.mem_cons_of_mem new.apiKey hmem), hmax⟩

/-- Where the loop puts the key of an entry still to come: after the distinct keys in front of it, if
    there is room. -/
theorem collectConfigs_slot {rest : List Json} {configs : List KeyConfig} {seen : List PyStr}
    (hseen : seen.toFinset = (configs.map KeyConfig.apiKey).toFinset)
    (hcard : seen.toFinset.card = configs.length) {i : Nat} {entry : Json} {config : KeyConfig}
    (hentry : rest[i]? = some entry) (hkey : completeKey py entry = some config)
    (hnew : config.apiKey ∉ seen.toFinset ∪ physicalKeys py (rest.take i)) (slot : Nat) :
    (collectConfigs py rest configs seen)[slot]? = some config ↔
      slot = (seen.toFinset ∪ physicalKeys py (rest.take i)).card ∧
        slot < LLM_KEY_MAX_KEYS_PER_HOTKEY := by
  induction rest generalizing configs seen i with
  | nil => cases hentry
  | cons first rest ih =>
    have hunseen : config.apiKey ∉ seen.toFinset := fun hmem => hnew (Finset.mem_union_left _ hmem)
    have habsent := not_mem_of_unseen hseen hunseen
    rw [collectConfigs_cons]
    by_cases hfull : LLM_KEY_MAX_KEYS_PER_HOTKEY ≤ configs.length
    · -- No key is taken any more, and the keys in front of this one fill the slots.
      rw [if_pos hfull]
      have hcount : configs.length ≤
          (seen.toFinset ∪ physicalKeys py ((first :: rest).take i)).card := by
        rw [← hcard]
        exact Finset.card_le_card Finset.subset_union_left
      constructor
      · intro hget
        exact absurd (List.mem_of_getElem? hget) habsent
      · intro hslot
        omega
    · rw [if_neg hfull]
      cases i with
      | zero =>
        obtain rfl := Option.some.inj hentry
        have hcontains : seen.contains config.apiKey = false := by
          rw [List.contains_eq_mem, decide_eq_false_iff_not, ← List.mem_toFinset]
          exact hunseen
        rw [hkey]
        dsimp only
        rw [hcontains, if_neg Bool.false_ne_true, List.take_zero, physicalKeys_nil,
          Finset.union_empty, hcard]
        have hlength : (configs ++ [config]).length = configs.length + 1 := by
          rw [List.length_append, List.length_singleton]
        constructor
        · intro hget
          rcases Nat.lt_or_ge slot (configs.length + 1) with hlt | hge
          · rw [collectConfigs_old (hlength ▸ hlt)] at hget
            rcases Nat.lt_succ_iff_lt_or_eq.mp hlt with hold | heq
            · rw [List.getElem?_append_left hold] at hget
              exact absurd (List.mem_of_getElem? hget) habsent
            · exact ⟨heq, by omega⟩
          · exact absurd List.mem_cons_self (collectConfigs_later (hlength ▸ hge) hget).1
        · intro hslot
          rw [collectConfigs_old (by omega), hslot.1, List.getElem?_concat_length]
      | succ i =>
        rw [List.take_succ_cons, physicalKeys_cons] at hnew ⊢
        rw [List.getElem?_cons_succ] at hentry
        cases hfirst : completeKey py first with
        | none =>
          rw [hfirst] at hnew
          exact ih hseen hcard hentry hnew
        | some other =>
          rw [hfirst] at hnew
          dsimp only at hnew ⊢
          split
          · rename_i hold
            have hmem : other.apiKey ∈ seen.toFinset := by
              rw [List.mem_toFinset]
              simpa using hold
            have hsame : seen.toFinset ∪ insert other.apiKey (physicalKeys py (rest.take i)) =
                seen.toFinset ∪ physicalKeys py (rest.take i) := by
              rw [Finset.union_insert, Finset.insert_eq_of_mem (Finset.mem_union_left _ hmem)]
            rw [hsame] at hnew ⊢
            exact ih hseen hcard hentry hnew
          · rename_i hfresh
            have hnotmem : other.apiKey ∉ seen.toFinset := by
              rw [List.mem_toFinset]
              simpa using hfresh
            have hsame : seen.toFinset ∪ insert other.apiKey (physicalKeys py (rest.take i)) =
                (other.apiKey :: seen).toFinset ∪ physicalKeys py (rest.take i) := by
              rw [List.toFinset_cons, Finset.union_insert, Finset.insert_union]
            rw [hsame] at hnew ⊢
            refine ih ?_ ?_ hentry hnew
            · rw [List.toFinset_cons, hseen, List.map_append, List.toFinset_append, List.map_singleton,
                Finset.union_comm]
              rfl
            · rw [List.toFinset_cons, Finset.card_insert_of_notMem hnotmem, hcard, List.length_append,
                List.length_singleton]

theorem offeredKeys_slot {entries : List Json} {i : Nat} {config : KeyConfig}
    (h : Supplies py entries i config) (slot : Nat) : (offeredKeys py entries)[slot]? = some config ↔
      slot = (physicalKeys py (entries.take i)).card ∧ slot < LLM_KEY_MAX_KEYS_PER_HOTKEY := by
  obtain ⟨entry, hentry, hkey, hnew⟩ := h
  have hslot : (collectConfigs py entries [] [])[slot]? = some config ↔
      slot = (([] : List PyStr).toFinset ∪ physicalKeys py (entries.take i)).card ∧
        slot < LLM_KEY_MAX_KEYS_PER_HOTKEY :=
    collectConfigs_slot rfl rfl hentry hkey (by simpa using hnew) slot
  rw [collectConfigs_offeredKeys] at hslot
  simpa using hslot

end Loop

/-! ## What is sent -/

/-- The slot a sent key carries. -/
def slotOf : Json → Option Int
  | .obj items => intSlot (Json.get? items "slot")
  | _ => none

@[simp] theorem slotOf_keyEntry (slot : Nat) (provider model blob encoding pubkeyId : PyStr) :
    slotOf (keyEntry (.int slot) provider model blob encoding pubkeyId) = some (slot : Int) := rfl

/-- The slots of a batch are those of the keys that are let in. -/
theorem slots_encryptKeys {nacl : Nacl} {ask : LLMKeySynapse} {configs : List KeyConfig} {first : Nat}
    {keys : List Json} (h : encryptKeys nacl ask first configs = .ok keys) (slot : Nat) :
    (slot : Int) ∈ keys.filterMap slotOf ↔
      ∃ k config, slot = first + k ∧ configs[k]? = some config ∧ ask.allows config = true := by
  induction configs generalizing first keys with
  | nil =>
    cases h
    simp
  | cons config rest ih =>
    have hlater : (∃ k other, slot = first + 1 + k ∧ rest[k]? = some other ∧
        ask.allows other = true) ↔ ∃ k other, slot = first + (k + 1) ∧
          (config :: rest)[k + 1]? = some other ∧ ask.allows other = true := by
      simp only [List.getElem?_cons_succ, Nat.add_assoc, Nat.add_comm 1]
    constructor
    · intro hslot
      cases hallows : ask.allows config with
      | false =>
        rw [encryptKeys_skip hallows] at h
        obtain ⟨k, other, hother⟩ := hlater.mp ((ih h).mp hslot)
        exact ⟨k + 1, other, hother⟩
      | true =>
        obtain ⟨blob, others, -, hothers, rfl⟩ := encryptKeys_take hallows h
        rw [List.filterMap_cons_some (slotOf_keyEntry _ _ _ _ _ _), List.mem_cons] at hslot
        rcases hslot with heq | hslot
        · exact ⟨0, config, by omega, rfl, hallows⟩
        · obtain ⟨k, other, hother⟩ := hlater.mp ((ih hothers).mp hslot)
          exact ⟨k + 1, other, hother⟩
    · intro ⟨k, other, hslot, hget, hother⟩
      cases hallows : ask.allows config with
      | false =>
        rw [encryptKeys_skip hallows] at h
        cases k with
        | zero =>
          obtain rfl := Option.some.inj hget
          rw [hallows] at hother
          cases hother
        | succ k => exact (ih h).mpr (hlater.mpr ⟨k, other, hslot, hget, hother⟩)
      | true =>
        obtain ⟨blob, others, -, hothers, rfl⟩ := encryptKeys_take hallows h
        rw [List.filterMap_cons_some (slotOf_keyEntry _ _ _ _ _ _), List.mem_cons]
        cases k with
        | zero => exact .inl (by omega)
        | succ k => exact .inr ((ih hothers).mpr (hlater.mpr ⟨k, other, hslot, hget, hother⟩))

/-- The miner sends the key of entry `i` of its document under a slot. -/
def SentFrom (nacl : Nacl) (py : Interpreter) (env : MinerEnv) (now : String) (ask : LLMKeySynapse)
    (entries : List Json) (i slot : Nat) : Prop :=
  ∃ configs config, llmKeyContribConfigs py env = .ok configs ∧ Supplies py entries i config ∧
    configs[slot]? = some config ∧
    (slot : Int) ∈ (Miner.forward nacl py env now ask).keys.filterMap slotOf

section Sent

variable {nacl : Nacl} {py : Interpreter} {env : MinerEnv} {now : String} {ask : LLMKeySynapse}
  {entries : List Json}

/-- The document a miner that contributes has read. -/
theorem configuredKeys_loaded
    (hload : Json.loadsText py.recursionLimit env.keysJson.strip = .ok (.arr entries))
    (hsome : configuredKeys py env ≠ []) : configuredKeys py env = offeredKeys py entries := by
  unfold configuredKeys at hsome ⊢
  split
  · rename_i hflag
    rw [if_pos hflag] at hsome
    exact absurd rfl hsome
  · split
    · rename_i hblank
      rw [List.isEmpty_iff.mp hblank] at hload
      cases hload
    · rw [hload]

theorem sentFrom_iff
    (hload : Json.loadsText py.recursionLimit env.keysJson.strip = .ok (.arr entries))
    (hyes : (Miner.forward nacl py env now ask).hasKey = some true) (i slot : Nat) :
    SentFrom nacl py env now ask entries i slot ↔
      ∃ config, Supplies py entries i config ∧ ask.allows config = true ∧
        slot = (physicalKeys py (entries.take i)).card ∧ slot < LLM_KEY_MAX_KEYS_PER_HOTKEY := by
  obtain ⟨henough, -, keys, -, hkeys, hanswer⟩ := forward_yes hyes
  have hsome : configuredKeys py env ≠ [] := by
    intro hnone
    rw [hnone] at henough
    exact absurd henough (by decide)
  have hoffered := configuredKeys_loaded hload hsome
  have hslots := slots_encryptKeys hkeys slot
  unfold SentFrom
  rw [hanswer]
  constructor
  · intro hfrom
    obtain ⟨configs, config, hread, hsupplies, hget, hsent⟩ := hfrom
    have hconfigs := llmKeyContribConfigs_ok hread
    rw [enoughConfigs, if_neg (Nat.not_lt.mpr henough)] at hconfigs
    rw [hconfigs] at hget
    obtain ⟨k, other, hk, hother, hallows⟩ := hslots.mp hsent
    rw [Nat.zero_add] at hk
    subst hk
    rw [hget] at hother
    obtain rfl := Option.some.inj hother
    rw [hoffered] at hget
    exact ⟨config, hsupplies, hallows, (offeredKeys_slot hsupplies slot).mp hget⟩
  · intro hcomes
    obtain ⟨config, hsupplies, hallows, hslot⟩ := hcomes
    have hget := (offeredKeys_slot hsupplies slot).mpr hslot
    rw [← hoffered] at hget
    cases hread : llmKeyContribConfigs py env with
    | error e => exact absurd (llmKeyContribConfigs_error hread) hsome
    | ok configs =>
      have hconfigs := llmKeyContribConfigs_ok hread
      rw [enoughConfigs, if_neg (Nat.not_lt.mpr henough)] at hconfigs
      refine ⟨configs, config, rfl, hsupplies, hconfigs ▸ hget, ?_⟩
      exact hslots.mpr ⟨slot, config, (Nat.zero_add slot).symm, hget, hallows⟩

end Sent

/-! ## Two documents -/

/-- Two miners whose documents differ in one entry, `a` or `b`, and in nothing else. -/
structure Edited (py : Interpreter) (env env' : MinerEnv) (pre : List Json) (a b : Json)
    (post : List Json) : Prop where
  rest : env' = { env with keysJson := env'.keysJson }
  loads : Json.loadsText py.recursionLimit env.keysJson.strip = .ok (.arr (pre ++ a :: post))
  loads' : Json.loadsText py.recursionLimit env'.keysJson.strip = .ok (.arr (pre ++ b :: post))

/-- An entry in front of which stand `keys` brings one that is not among them. -/
def Brings (py : Interpreter) (entry : Json) (keys : Finset PyStr) : Prop :=
  ∃ config, completeKey py entry = some config ∧ config.apiKey ∉ keys

def HasKey (py : Interpreter) (entry : Json) (key : PyStr) : Prop :=
  ∃ config, completeKey py entry = some config ∧ config.apiKey = key

/-- Both versions of the entry push alike. An entry behind, with a key that is let in and new to the
    document without the edited entry, has the keys in front of it; while there is room behind those, the
    two versions bring a new one to them or neither does; and while there is room behind that too, they
    bring the entry's own key or neither does. -/
def PushAlike (py : Interpreter) (ask : LLMKeySynapse) (pre : List Json) (a b : Json)
    (post : List Json) : Prop :=
  ∀ m config, Supplies py (pre ++ post) (pre.length + m) config → ask.allows config = true →
    let keys := physicalKeys py (pre ++ post.take m)
    keys.card < LLM_KEY_MAX_KEYS_PER_HOTKEY → (Brings py a keys ↔ Brings py b keys) ∧
      (keys.card + 1 < LLM_KEY_MAX_KEYS_PER_HOTKEY → Brings py a keys →
        (HasKey py a config.apiKey ↔ HasKey py b config.apiKey))

section Push

variable {py : Interpreter} {pre post : List Json} {entry : Json}

theorem take_before {i : Nat} (h : i < pre.length) :
    (pre ++ entry :: post).take i = pre.take i ∧ (pre ++ entry :: post)[i]? = pre[i]? :=
  ⟨List.take_append_of_le_length h.le, List.getElem?_append_left h⟩

theorem take_behind (m : Nat) : (pre ++ entry :: post).take (pre.length + (m + 1)) =
    pre ++ entry :: post.take m := by
  rw [List.take_length_add_append, List.take_succ_cons]

theorem getElem?_behind (m : Nat) : (pre ++ entry :: post)[pre.length + (m + 1)]? = post[m]? := by
  rw [List.getElem?_append_right (by omega), Nat.add_sub_cancel_left, List.getElem?_cons_succ]

theorem physicalKeys_behind (m : Nat) : physicalKeys py (pre ++ entry :: post.take m) =
    match completeKey py entry with
    | none => physicalKeys py (pre ++ post.take m)
    | some config => insert config.apiKey (physicalKeys py (pre ++ post.take m)) := by
  rw [physicalKeys_append, physicalKeys_cons, physicalKeys_append]
  cases completeKey py entry with
  | none => rfl
  | some config => exact Finset.union_insert _ _ _

/-- The keys in front of an entry behind: one more, if the entry brings it. -/
theorem card_behind (m : Nat) : (physicalKeys py (pre ++ entry :: post.take m)).card =
      (physicalKeys py (pre ++ post.take m)).card ∧
        ¬ Brings py entry (physicalKeys py (pre ++ post.take m)) ∨
    (physicalKeys py (pre ++ entry :: post.take m)).card =
      (physicalKeys py (pre ++ post.take m)).card + 1 ∧
        Brings py entry (physicalKeys py (pre ++ post.take m)) := by
  rw [physicalKeys_behind]
  cases hkey : completeKey py entry with
  | none =>
    left
    refine ⟨rfl, ?_⟩
    intro ⟨config, hconfig, _⟩
    rw [hkey] at hconfig
    cases hconfig
  | some config =>
    dsimp only
    by_cases hmem : config.apiKey ∈ physicalKeys py (pre ++ post.take m)
    · left
      refine ⟨by rw [Finset.insert_eq_of_mem hmem], ?_⟩
      intro ⟨other, hother, hnew⟩
      rw [hkey] at hother
      obtain rfl := Option.some.inj hother
      exact hnew hmem
    · right
      exact ⟨Finset.card_insert_of_notMem hmem, config, hkey, hmem⟩

/-- An entry behind still supplies its key, unless the edited entry has it. -/
theorem supplies_behind (m : Nat) (config : KeyConfig) :
    Supplies py (pre ++ entry :: post) (pre.length + (m + 1)) config ↔
      Supplies py (pre ++ post) (pre.length + m) config ∧ ¬ HasKey py entry config.apiKey := by
  have hkeys : config.apiKey ∉ physicalKeys py (pre ++ entry :: post.take m) ↔
      config.apiKey ∉ physicalKeys py (pre ++ post.take m) ∧ ¬ HasKey py entry config.apiKey := by
    rw [physicalKeys_behind]
    unfold HasKey
    cases completeKey py entry with
    | none => simp
    | some other =>
      simp only [Finset.mem_insert, not_or, Option.some.injEq, exists_eq_left', eq_comm]
      exact and_comm
  unfold Supplies
  rw [getElem?_behind, take_behind, hkeys, List.take_length_add_append,
    List.getElem?_append_right (by omega), Nat.add_sub_cancel_left]
  constructor
  · intro ⟨found, hfound, hkey, hnew, hnot⟩
    exact ⟨⟨found, hfound, hkey, hnew⟩, hnot⟩
  · intro ⟨⟨found, hfound, hkey, hnew⟩, hnot⟩
    exact ⟨found, hfound, hkey, hnew, hnot⟩

theorem supplies_before {i : Nat} (h : i < pre.length) (config : KeyConfig) :
    Supplies py (pre ++ entry :: post) i config ↔ Supplies py pre i config := by
  unfold Supplies
  rw [(take_before h).1, (take_before h).2]

/-- A supplied key is not among those in front of it. -/
theorem brings_of_hasKey {m : Nat} {config : KeyConfig}
    (hsupplies : Supplies py (pre ++ post) (pre.length + m) config)
    (h : HasKey py entry config.apiKey) : Brings py entry (physicalKeys py (pre ++ post.take m)) := by
  obtain ⟨found, -, -, hnew⟩ := hsupplies
  rw [List.take_length_add_append] at hnew
  obtain ⟨own, hown, hsame⟩ := h
  exact ⟨own, hown, hsame ▸ hnew⟩

theorem supplies_unique {entries : List Json} {i : Nat} {config config' : KeyConfig}
    (h : Supplies py entries i config) (h' : Supplies py entries i config') : config = config' := by
  obtain ⟨found, hfound, hkey, -⟩ := h
  obtain ⟨found', hfound', hkey', -⟩ := h'
  rw [hfound] at hfound'
  obtain rfl := Option.some.inj hfound'
  rw [hkey] at hkey'
  exact Option.some.inj hkey'

end Push

/-! ## The edit -/

section Edit

variable {nacl : Nacl} {py : Interpreter} {env env' : MinerEnv} {now now' : String}
  {ask : LLMKeySynapse} {pre post : List Json} {a b : Json}

/-- What is sent from an entry behind. -/
theorem sent_behind
    (hload : Json.loadsText py.recursionLimit env.keysJson.strip = .ok (.arr (pre ++ a :: post)))
    (hyes : (Miner.forward nacl py env now ask).hasKey = some true) {m : Nat} {config : KeyConfig}
    (hsupplies : Supplies py (pre ++ post) (pre.length + m) config)
    (hallows : ask.allows config = true) (slot : Nat) :
    SentFrom nacl py env now ask (pre ++ a :: post) (pre.length + (m + 1)) slot ↔
      ¬ HasKey py a config.apiKey ∧ slot < LLM_KEY_MAX_KEYS_PER_HOTKEY ∧
        slot = (physicalKeys py (pre ++ a :: post.take m)).card := by
  rw [sentFrom_iff hload hyes, take_behind]
  constructor
  · intro ⟨other, hother, _, hslot, hroom⟩
    obtain ⟨hsupplies', hnot⟩ := (supplies_behind m other).mp hother
    obtain rfl := supplies_unique hsupplies hsupplies'
    exact ⟨hnot, hroom, hslot⟩
  · intro ⟨hnot, hroom, hslot⟩
    exact ⟨config, (supplies_behind m config).mpr ⟨hsupplies, hnot⟩, hallows, hslot, hroom⟩

/-- The slots of the other entries are the same in both runs. -/
def KeepsOthers (nacl : Nacl) (py : Interpreter) (env env' : MinerEnv) (now now' : String)
    (ask : LLMKeySynapse) (pre : List Json) (a b : Json) (post : List Json) : Prop :=
  ∀ i slot, i ≠ pre.length → (SentFrom nacl py env now ask (pre ++ a :: post) i slot ↔
    SentFrom nacl py env' now' ask (pre ++ b :: post) i slot)

/-- Two versions of an entry, each with its number of keys in front of another one, and that one's slots in
    the two runs. -/
theorem slots_agree_iff {hasKey hasKey' brings brings' : Prop} {front front' room n : Nat}
    (hfront : front = n ∧ ¬ brings ∨ front = n + 1 ∧ brings)
    (hfront' : front' = n ∧ ¬ brings' ∨ front' = n + 1 ∧ brings')
    (hown : hasKey → brings) (hown' : hasKey' → brings') :
    (∀ slot, (¬ hasKey ∧ slot < room ∧ slot = front) ↔ (¬ hasKey' ∧ slot < room ∧ slot = front')) ↔
      (n < room → (brings ↔ brings') ∧ (n + 1 < room → brings → (hasKey ↔ hasKey'))) := by
  rcases hfront with ⟨rfl, hno⟩ | ⟨rfl, hbrings⟩
  · rcases hfront' with ⟨rfl, hno'⟩ | ⟨rfl, hbrings'⟩
    · -- Neither version stands in front with a new key.
      have hnot : ¬ hasKey := fun h => hno (hown h)
      have hnot' : ¬ hasKey' := fun h => hno' (hown' h)
      simp [hno, hno', hnot, hnot']
    · have hnot : ¬ hasKey := fun h => hno (hown h)
      constructor
      · intro hslots hroom
        have hslot := (hslots front).mp ⟨hnot, hroom, rfl⟩
        omega
      · intro halike slot
        constructor
        · intro hslot
          exact absurd ((halike (by omega)).1.mpr hbrings') hno
        · intro hslot
          exact absurd ((halike (by omega)).1.mpr hbrings') hno
  · rcases hfront' with ⟨rfl, hno'⟩ | ⟨rfl, hbrings'⟩
    · have hnot' : ¬ hasKey' := fun h => hno' (hown' h)
      constructor
      · intro hslots hroom
        have hslot := (hslots front').mpr ⟨hnot', hroom, rfl⟩
        omega
      · intro halike slot
        constructor
        · intro hslot
          exact absurd ((halike (by omega)).1.mp hbrings) hno'
        · intro hslot
          exact absurd ((halike (by omega)).1.mp hbrings) hno'
    · constructor
      · intro hslots hroom
        refine ⟨iff_of_true hbrings hbrings', ?_⟩
        intro hroom' _
        have hslot := hslots (n + 1)
        tauto
      · intro halike slot
        constructor
        · intro ⟨hnot, hroom, heq⟩
          have hsame := (halike (by omega)).2 (by omega) hbrings
          exact ⟨fun h => hnot (hsame.mpr h), hroom, heq⟩
        · intro ⟨hnot, hroom, heq⟩
          have hsame := (halike (by omega)).2 (by omega) hbrings
          exact ⟨fun h => hnot (hsame.mp h), hroom, heq⟩

/-- **Editing an entry leaves the other keys in their slots exactly when both versions push alike.** -/
theorem edit_keeps_others_iff (h : Edited py env env' pre a b post)
    (hyes : (Miner.forward nacl py env now ask).hasKey = some true)
    (hyes' : (Miner.forward nacl py env' now' ask).hasKey = some true) :
    KeepsOthers nacl py env env' now now' ask pre a b post ↔ PushAlike py ask pre a b post := by
  constructor
  · intro hkeeps m config hsupplies hallows keys hroom
    have hslots : ∀ slot, _ ↔ _ := fun slot => hkeeps (pre.length + (m + 1)) slot (by omega)
    simp only [sent_behind h.loads hyes hsupplies hallows,
      sent_behind h.loads' hyes' hsupplies hallows] at hslots
    exact (slots_agree_iff (card_behind m) (card_behind m) (brings_of_hasKey hsupplies)
      (brings_of_hasKey hsupplies)).mp hslots hroom
  · intro halike i slot hne
    rcases Nat.lt_or_gt_of_ne hne with hbefore | hbehind
    · -- Nothing has changed in front of an entry before.
      rw [sentFrom_iff h.loads hyes, sentFrom_iff h.loads' hyes', (take_before hbefore).1,
        (take_before hbefore).1]
      simp only [supplies_before hbefore]
    · obtain ⟨m, rfl⟩ : ∃ m, i = pre.length + (m + 1) := ⟨i - pre.length - 1, by omega⟩
      by_cases hsent : ∃ config, Supplies py (pre ++ post) (pre.length + m) config ∧
          ask.allows config = true
      · obtain ⟨config, hsupplies, hallows⟩ := hsent
        rw [sent_behind h.loads hyes hsupplies hallows, sent_behind h.loads' hyes' hsupplies hallows]
        exact (slots_agree_iff (card_behind m) (card_behind m) (brings_of_hasKey hsupplies)
          (brings_of_hasKey hsupplies)).mpr (halike m config hsupplies hallows) slot
      · rw [sentFrom_iff h.loads hyes, sentFrom_iff h.loads' hyes']
        constructor
        · intro ⟨config, hsupplies, hallows, _⟩
          exact absurd ⟨config, ((supplies_behind m config).mp hsupplies).1, hallows⟩ hsent
        · intro ⟨config, hsupplies, hallows, _⟩
          exact absurd ⟨config, ((supplies_behind m config).mp hsupplies).1, hallows⟩ hsent

end Edit

/-! ## Two edits -/

/-- The entry of a key for the model `p/m`, as it is read. -/
def entryOf (apiKey : Nat) : Json :=
  .obj [(PyStr.ofString "provider", .str [112]), (PyStr.ofString "model", .str [109]),
    (PyStr.ofString "api_key", .str [apiKey])]

/-- A document of these entries. -/
def documentOf (entries : List PyStr) : MinerEnv where
  contribEnabled := some (PyStr.ofString "true")
  keysJson := [91] ++ [44].intercalate entries ++ [93]

/-- A document of keys in front of which an entry stands. -/
def behindEntry (first : PyStr) : MinerEnv :=
  documentOf (first :: [98, 99, 100, 101, 102].map (plainEntry 109))

/-- A document of keys, and one behind them. -/
def beforeKey (last : Nat) : MinerEnv := documentOf ([97, 98, 99, 100, last].map (plainEntry 109))

set_option maxRecDepth 4096 in
theorem edited_last : Edited cpython (beforeKey 101) (beforeKey 102) ([97, 98, 99, 100].map entryOf)
    (entryOf 101) (entryOf 102) [] := ⟨rfl, rfl, rfl⟩

set_option maxRecDepth 4096 in
theorem edited_first : Edited cpython (behindEntry (plainEntry 109 97)) (behindEntry [55]) []
    (entryOf 97) (.int 7) ([98, 99, 100, 101, 102].map entryOf) := ⟨rfl, rfl, rfl⟩

theorem edit_keeps_others_last :
    KeepsOthers plainNacl cpython (beforeKey 101) (beforeKey 102) "now" "later" plainAsk
      ([97, 98, 99, 100].map entryOf) (entryOf 101) (entryOf 102) [] := by
  refine (edit_keeps_others_iff edited_last (by decide +kernel) (by decide +kernel)).mpr ?_
  intro m config hsupplies
  obtain ⟨found, hfound, -⟩ := hsupplies
  rw [List.append_nil, List.getElem?_eq_none (by simp)] at hfound
  cases hfound

/-- The first of six entries is a key, then a number: every key behind it moves down by one slot. -/
theorem dropped_entry_moves_slots :
    ¬ ∀ (nacl : Nacl) (py : Interpreter) (env env' : MinerEnv) (now now' : String) (ask : LLMKeySynapse)
      (pre : List Json) (a b : Json) (post : List Json), Edited py env env' pre a b post →
      (Miner.forward nacl py env now ask).hasKey = some true →
      (Miner.forward nacl py env' now' ask).hasKey = some true →
      KeepsOthers nacl py env env' now now' ask pre a b post := by
  intro hclaim
  have hyes : (Miner.forward plainNacl cpython (behindEntry (plainEntry 109 97)) "now"
      plainAsk).hasKey = some true := by decide +kernel
  have hyes' : (Miner.forward plainNacl cpython (behindEntry [55]) "now" plainAsk).hasKey =
      some true := by decide +kernel
  have hkeeps := hclaim plainNacl cpython _ _ "now" "now" plainAsk _ _ _ _ edited_first hyes hyes' 1 0
    (by decide)
  rw [sentFrom_iff edited_first.loads hyes, sentFrom_iff edited_first.loads' hyes'] at hkeeps
  obtain ⟨config, -, -, hslot, -⟩ := hkeeps.mpr
    ⟨⟨[112], [109], [98]⟩, ⟨entryOf 98, rfl, rfl, by decide⟩, by decide, by decide, by decide⟩
  exact absurd hslot (by decide)

end TaoSubnet
