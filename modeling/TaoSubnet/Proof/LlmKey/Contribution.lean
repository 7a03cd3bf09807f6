import TaoSubnet.LlmKey.Contribution

/-!
# What an honest miner offers, and what the validator relays of it

The miner collects keys, checks their number, drops those the ask does not let in, and answers. The
validator sanitizes what it gets and checks the number again. The two agree on the fields of every
key (`sanitizeKeys_encryptKeys`); they do not agree on the number, which the miner checks before
the ask's models are looked at, nor on the key id, which only the validator looks at.
-/

namespace TaoSubnet

open Py

/-! ## The configuration, said without the loop -/

/-- Text that a strip leaves as it is, and that a check for blanks lets through. -/
structure Trimmed (s : PyStr) : Prop where
  nonblank : s ≠ []
  stripped : s.strip = s

theorem trimmed_strip {s : PyStr} (h : s.strip ≠ []) : Trimmed s.strip :=
  ⟨h, PyStr.strip_strip s⟩

/-- The key of an entry that has all three fields. -/
def completeKey (py : Interpreter) : Json → Option KeyConfig
  | .obj items =>
    let config : KeyConfig :=
      ⟨(getText py items "provider").strip, (getText py items "model").strip,
        (getText py items "api_key").strip⟩
    if config.provider.isEmpty || config.model.isEmpty || config.apiKey.isEmpty then none
    else some config
  | _ => none

/-- The keys a document offers: those of its complete entries, each physical key where it stands
    first, and no more than may be sent. -/
def offeredKeys (py : Interpreter) (entries : List Json) : List KeyConfig :=
  ((entries.filterMap (completeKey py)).eraseDupsBy fun a b => a.apiKey == b.apiKey).take
    LLM_KEY_MAX_KEYS_PER_HOTKEY

/-- The keys that are configured; none when the miner has not opted in or the document is no list. -/
def configuredKeys (py : Interpreter) (env : MinerEnv) : List KeyConfig :=
  if envFlag py.unicode env.contribEnabled false = false then []
  else if env.keysJson.strip.isEmpty then legacyConfigs env
  else match Json.loadsText py.recursionLimit env.keysJson.strip with
    | .ok (.arr entries) => offeredKeys py entries
    | _ => []

theorem collectConfigs_cons (py : Interpreter) (entry : Json) (rest : List Json)
    (configs : List KeyConfig) (seen : List PyStr) :
    collectConfigs py (entry :: rest) configs seen =
      if LLM_KEY_MAX_KEYS_PER_HOTKEY ≤ configs.length then configs
      else match completeKey py entry with
        | none => collectConfigs py rest configs seen
        | some config =>
          if seen.contains config.apiKey then collectConfigs py rest configs seen
          else collectConfigs py rest (configs ++ [config]) (config.apiKey :: seen) := by
  cases entry with
  | obj items =>
    by_cases hblank : ((getText py items "provider").strip.isEmpty ||
        (getText py items "model").strip.isEmpty || (getText py items "api_key").strip.isEmpty) = true
    · have hkey : completeKey py (.obj items) = none := if_pos hblank
      rw [collectConfigs, hkey]
      simp only [if_pos hblank]
    · have hkey : completeKey py (.obj items) = some _ := if_neg hblank
      rw [collectConfigs, hkey]
      simp only [if_neg hblank]
  | null => simp only [collectConfigs, completeKey]
  | bool b => simp only [collectConfigs, completeKey]
  | int n => simp only [collectConfigs, completeKey]
  | float x => simp only [collectConfigs, completeKey]
  | str s => simp only [collectConfigs, completeKey]
  | arr items => simp only [collectConfigs, completeKey]

/-- The loop, from any point on: the keys it had, then the new ones it still has room for. -/
theorem collectConfigs_eq (py : Interpreter) (entries : List Json) (configs : List KeyConfig)
    (seen : List PyStr) :
    collectConfigs py entries configs seen = configs ++
      (((entries.filterMap (completeKey py)).filter fun c => !seen.contains c.apiKey).eraseDupsBy
        fun a b => a.apiKey == b.apiKey).take (LLM_KEY_MAX_KEYS_PER_HOTKEY - configs.length) := by
  induction entries generalizing configs seen with
  | nil => simp [collectConfigs]
  | cons entry rest ih =>
    rw [collectConfigs_cons]
    split
    · rename_i hfull
      rw [Nat.sub_eq_zero_of_le hfull, List.take_zero, List.append_nil]
    · rename_i hroom
      cases hkey : completeKey py entry with
      | none =>
        rw [List.filterMap_cons_none hkey]
        exact ih configs seen
      | some config =>
        rw [List.filterMap_cons_some hkey]
        by_cases hseen : seen.contains config.apiKey = true
        · simp only [hseen, if_true]
          rw [ih configs seen, List.filter_cons_of_neg (by simpa using hseen)]
        · -- the key is new: it is the next one taken, and later copies of it go
          have hleft : LLM_KEY_MAX_KEYS_PER_HOTKEY - configs.length =
              LLM_KEY_MAX_KEYS_PER_HOTKEY - (configs ++ [config]).length + 1 := by
            rw [List.length_append, List.length_singleton]
            omega
          have hfilter : ∀ c : KeyConfig, (!(config.apiKey :: seen).contains c.apiKey) =
              (decide ((c.apiKey == config.apiKey) = false) && !seen.contains c.apiKey) := by
            intro c
            rw [List.contains_cons]
            cases c.apiKey == config.apiKey <;> simp
          simp only [hseen, if_false, Bool.false_eq_true]
          rw [ih, List.filter_cons_of_pos (by simpa using hseen), List.eraseDupsBy_cons, hleft,
            List.take_succ_cons, List.filter_filter, List.append_assoc, List.singleton_append]
          simp only [hfilter]

theorem collectConfigs_offeredKeys (py : Interpreter) (entries : List Json) :
    collectConfigs py entries [] [] = offeredKeys py entries := by
  rw [collectConfigs_eq, offeredKeys]
  simp

/-- What the miner reads is what is configured, unless that is too little. -/
theorem llmKeyContribConfigs_ok {py : Interpreter} {env : MinerEnv} {configs : List KeyConfig}
    (h : llmKeyContribConfigs py env = .ok configs) :
    configs = enoughConfigs (configuredKeys py env) := by
  unfold llmKeyContribConfigs at h
  unfold configuredKeys
  split at h
  · rename_i hflag
    rw [if_pos hflag]
    cases h
    rfl
  · rename_i hflag
    rw [if_neg hflag]
    simp only at h
    split at h
    · rename_i hblank
      rw [if_pos hblank]
      cases h
      rfl
    · rename_i hblank
      rw [if_neg hblank]
      split at h
      · rename_i hload
        rw [hload]
        split at h
        · cases h
          rfl
        · cases h
      · rename_i entries hload
        rw [hload]
        cases h
        exact congrArg enoughConfigs (collectConfigs_offeredKeys py entries)
      · rename_i document hlist hload
        rw [hload]
        cases h
        cases document with
        | arr entries => exact absurd rfl (hlist entries)
        | null => rfl
        | bool b => rfl
        | int n => rfl
        | float x => rfl
        | str s => rfl
        | obj items => rfl

/-- A document that raises configures nothing. -/
theorem llmKeyContribConfigs_error {py : Interpreter} {env : MinerEnv} {e : Exc}
    (h : llmKeyContribConfigs py env = .error e) : configuredKeys py env = [] := by
  unfold llmKeyContribConfigs at h
  unfold configuredKeys
  split at h
  · cases h
  · rename_i hflag
    rw [if_neg hflag]
    simp only at h
    split at h
    · cases h
    · rename_i hblank
      rw [if_neg hblank]
      split at h
      · rename_i hload
        rw [hload]
      · cases h
      · cases h

/-! ## What a configured key looks like -/

/-- The two fields that are sent in the clear. -/
def KeyConfig.Clean (config : KeyConfig) : Prop := Trimmed config.provider ∧ Trimmed config.model

theorem completeKey_clean {py : Interpreter} {entry : Json} {config : KeyConfig}
    (h : completeKey py entry = some config) : config.Clean := by
  cases entry with
  | obj items =>
    simp only [completeKey] at h
    split at h
    · cases h
    · rename_i hblank
      cases h
      simp only [Bool.or_eq_true, List.isEmpty_iff, not_or] at hblank
      exact ⟨trimmed_strip hblank.1.1, trimmed_strip hblank.1.2⟩
  | null => cases h
  | bool b => cases h
  | int n => cases h
  | float x => cases h
  | str s => cases h
  | arr items => cases h

theorem collectConfigs_clean {py : Interpreter} {entries : List Json} {configs : List KeyConfig}
    {seen : List PyStr} (h : ∀ config ∈ configs, config.Clean) :
    ∀ config ∈ collectConfigs py entries configs seen, config.Clean := by
  induction entries generalizing configs seen with
  | nil => exact h
  | cons entry rest ih =>
    rw [collectConfigs_cons]
    split
    · exact h
    · cases hkey : completeKey py entry with
      | none => exact ih h
      | some config =>
        simp only
        split
        · exact ih h
        · apply ih
          intro other hother
          rcases List.mem_append.mp hother with hold | hnew
          · exact h other hold
          · rw [List.mem_singleton.mp hnew]
            exact completeKey_clean hkey

theorem legacyConfigs_clean {env : MinerEnv} : ∀ config ∈ legacyConfigs env, config.Clean := by
  intro config hconfig
  simp only [legacyConfigs] at hconfig
  split at hconfig
  · rename_i hfull
    simp only [Bool.and_eq_true, Bool.not_eq_true', List.isEmpty_eq_false_iff] at hfull
    rw [List.mem_singleton.mp hconfig]
    exact ⟨trimmed_strip hfull.1.1, trimmed_strip hfull.1.2⟩
  · cases hconfig

theorem configuredKeys_clean {py : Interpreter} {env : MinerEnv} :
    ∀ config ∈ configuredKeys py env, config.Clean := by
  intro config hconfig
  unfold configuredKeys at hconfig
  split at hconfig
  · cases hconfig
  · split at hconfig
    · exact legacyConfigs_clean config hconfig
    · split at hconfig
      · rw [← collectConfigs_offeredKeys] at hconfig
        exact collectConfigs_clean (by simp) config hconfig
      · cases hconfig

theorem configuredKeys_length (py : Interpreter) (env : MinerEnv) :
    (configuredKeys py env).length ≤ LLM_KEY_MAX_KEYS_PER_HOTKEY := by
  unfold configuredKeys
  split
  · exact Nat.zero_le _
  · split
    · unfold legacyConfigs
      simp only
      split
      · simp [LLM_KEY_MAX_KEYS_PER_HOTKEY]
      · exact Nat.zero_le _
    · split
      · exact List.length_take_le _ _
      · exact Nat.zero_le _

/-! ## The batch the miner encrypts -/

/-- The key id of an entry, as the other side reads it. -/
def pubkeyIdOf : Json → Option Json
  | .obj items => Json.get? items "pubkey_id_used"
  | _ => none

@[simp] theorem pubkeyIdOf_keyEntry (slot : Json) (provider model blob encoding pubkeyId : PyStr) :
    pubkeyIdOf (keyEntry slot provider model blob encoding pubkeyId) = some (.str pubkeyId) := rfl

/-- No sealed text is empty. -/
def Nacl.Seals (nacl : Nacl) : Prop :=
  ∀ call key plain ciphertext, nacl.encrypt call key plain = .ok ciphertext → ciphertext ≠ []

theorem encryptForProtocol_trimmed {nacl : Nacl} (hnacl : nacl.Seals) {call : Nat}
    {rawKey pubkey blob : PyStr} (h : encryptForProtocol nacl call rawKey pubkey = .ok blob) :
    Trimmed blob := by
  unfold encryptForProtocol at h
  split at h
  · cases h
  · split at h
    · cases h
    · split at h
      · cases h
      · rename_i ciphertext hsealed
        cases h
        exact ⟨b64encode_ne_nil (hnacl _ _ _ _ hsealed),
          PyStr.strip_of_no_space (b64encode_not_space ciphertext)⟩

theorem encryptKeys_skip {nacl : Nacl} {synapse : LLMKeySynapse} {slot : Nat} {config : KeyConfig}
    {rest : List KeyConfig} (h : synapse.allows config = false) :
    encryptKeys nacl synapse slot (config :: rest) = encryptKeys nacl synapse (slot + 1) rest := by
  rw [encryptKeys, if_pos h]

/-- A batch that starts with a key that is let in: its blob, and the batch of the others. -/
theorem encryptKeys_take {nacl : Nacl} {synapse : LLMKeySynapse} {slot : Nat} {config : KeyConfig}
    {rest : List KeyConfig} {keys : List Json} (hallows : synapse.allows config = true)
    (h : encryptKeys nacl synapse slot (config :: rest) = .ok keys) :
    ∃ blob others, encryptForProtocol nacl slot config.apiKey synapse.protocolPubkeyB64 = .ok blob ∧
      encryptKeys nacl synapse (slot + 1) rest = .ok others ∧
      keys = keyEntry (.int slot) config.provider config.model blob blobEncoding
        synapse.protocolPubkeyId :: others := by
  rw [encryptKeys, if_neg (by simp [hallows])] at h
  split at h
  · cases h
  · rename_i blob hblob
    split at h
    · cases h
    · rename_i others hothers
      cases h
      exact ⟨blob, others, hblob, hothers, rfl⟩

/-- One key for each that is let in. -/
theorem encryptKeys_length {nacl : Nacl} {synapse : LLMKeySynapse} {configs : List KeyConfig}
    {slot : Nat} {keys : List Json} (h : encryptKeys nacl synapse slot configs = .ok keys) :
    keys.length = configs.countP synapse.allows := by
  induction configs generalizing slot keys with
  | nil =>
    cases h
    rfl
  | cons config rest ih =>
    cases hallows : synapse.allows config with
    | false =>
      rw [encryptKeys_skip hallows] at h
      rw [ih h, List.countP_cons_of_neg (by simp [hallows])]
    | true =>
      obtain ⟨blob, others, -, hothers, rfl⟩ := encryptKeys_take hallows h
      rw [List.length_cons, ih hothers, List.countP_cons_of_pos hallows]

/-- Each carries the key id of the ask, as it came. -/
theorem encryptKeys_pubkeyId {nacl : Nacl} {synapse : LLMKeySynapse} {configs : List KeyConfig}
    {slot : Nat} {keys : List Json} (h : encryptKeys nacl synapse slot configs = .ok keys) :
    ∀ key ∈ keys, pubkeyIdOf key = some (.str synapse.protocolPubkeyId) := by
  induction configs generalizing slot keys with
  | nil =>
    cases h
    intro key hkey
    cases hkey
  | cons config rest ih =>
    cases hallows : synapse.allows config with
    | false =>
      rw [encryptKeys_skip hallows] at h
      exact ih h
    | true =>
      obtain ⟨blob, others, -, hothers, rfl⟩ := encryptKeys_take hallows h
      intro key hkey
      rcases List.mem_cons.mp hkey with rfl | hother
      · exact pubkeyIdOf_keyEntry _ _ _ _ _ _
      · exact ih hothers key hother

/-- Every key that is let in can be encrypted, in the slot it is configured in. -/
def Encrypts (nacl : Nacl) (synapse : LLMKeySynapse) (slot : Nat) (configs : List KeyConfig) : Prop :=
  ∀ entry ∈ configs.zipIdx slot, synapse.allows entry.1 = true →
    ∃ blob, encryptForProtocol nacl entry.2 entry.1.apiKey synapse.protocolPubkeyB64 = .ok blob

theorem encryptKeys_ok_iff {nacl : Nacl} {synapse : LLMKeySynapse} {configs : List KeyConfig}
    {slot : Nat} : (∃ keys, encryptKeys nacl synapse slot configs = .ok keys) ↔
      Encrypts nacl synapse slot configs := by
  induction configs generalizing slot with
  | nil =>
    constructor
    · intro _ entry hentry
      cases hentry
    · intro _
      exact ⟨[], rfl⟩
  | cons config rest ih =>
    have hcons : Encrypts nacl synapse slot (config :: rest) ↔
        (synapse.allows config = true → ∃ blob,
          encryptForProtocol nacl slot config.apiKey synapse.protocolPubkeyB64 = .ok blob) ∧
        Encrypts nacl synapse (slot + 1) rest := by
      simp only [Encrypts, List.zipIdx_cons, List.forall_mem_cons]
    rw [hcons, ← ih]
    cases hallows : synapse.allows config with
    | false =>
      rw [encryptKeys_skip hallows]
      simp
    | true =>
      constructor
      · intro ⟨keys, hkeys⟩
        obtain ⟨blob, others, hblob, hothers, -⟩ := encryptKeys_take hallows hkeys
        exact ⟨fun _ => ⟨blob, hblob⟩, others, hothers⟩
      · intro ⟨hblob, others, hothers⟩
        obtain ⟨blob, hblob⟩ := hblob rfl
        refine ⟨keyEntry (.int slot) config.provider config.model blob blobEncoding
          synapse.protocolPubkeyId :: others, ?_⟩
        rw [encryptKeys, if_neg (by simp [hallows]), hblob]
        simp only [hothers]

/-! ## The batch the validator sanitizes -/

/-- An entry of trimmed texts in a fresh slot passes as it is. -/
theorem sanitizeKey_keyEntry (py : Interpreter) {seen : List Int} {slot : Nat}
    {provider model blob pubkeyId : PyStr} (hslot : slot < LLM_KEY_MAX_KEYS_PER_HOTKEY)
    (hfresh : (slot : Int) ∉ seen) (hprovider : Trimmed provider) (hmodel : Trimmed model)
    (hblob : Trimmed blob) (hpubkeyId : Trimmed pubkeyId) :
    sanitizeKey py seen (keyEntry (.int slot) provider model blob blobEncoding pubkeyId) =
      some ((slot : Int), keyEntry (.int slot) provider model blob blobEncoding pubkeyId) := by
  have hpasses : ¬ (¬ ((0 : Int) ≤ slot ∧ (slot : Int) < LLM_KEY_MAX_KEYS_PER_HOTKEY) ∨
      seen.contains (slot : Int) ∨ provider.strip.isEmpty ∨ model.strip.isEmpty ∨
      blob.strip.isEmpty ∨ pubkeyId.strip.isEmpty) := by
    rw [hprovider.stripped, hmodel.stripped, hblob.stripped, hpubkeyId.stripped]
    simp only [List.isEmpty_iff, List.contains_iff_mem, hfresh, hprovider.nonblank,
      hmodel.nonblank, hblob.nonblank, hpubkeyId.nonblank, or_false, not_not]
    omega
  apply (if_neg hpasses).trans
  show some ((slot : Int), keyEntry (.int slot) provider.strip model.strip blob.strip blobEncoding
    pubkeyId.strip) = _
  rw [hprovider.stripped, hmodel.stripped, hblob.stripped, hpubkeyId.stripped]

/-- What is kept of an item carries a key id that is trimmed. -/
theorem sanitizeKey_pubkeyId {py : Interpreter} {seen : List Int} {item key : Json} {slot : Int}
    (h : sanitizeKey py seen item = some (slot, key)) :
    ∃ pubkeyId, Trimmed pubkeyId ∧ pubkeyIdOf key = some (.str pubkeyId) := by
  cases item with
  | obj items =>
    simp only [sanitizeKey] at h
    split at h
    · split at h
      · cases h
      · rename_i hpasses
        cases h
        simp only [List.isEmpty_iff, not_or] at hpasses
        exact ⟨_, trimmed_strip hpasses.2.2.2.2.2, rfl⟩
    · cases h
  | null => cases h
  | bool b => cases h
  | int n => cases h
  | float x => cases h
  | str s => cases h
  | arr items => cases h

theorem sanitizeKeys_pubkeyId {py : Interpreter} {items payload : List Json} {seen : List Int} :
    ∀ key ∈ sanitizeKeys py items payload seen, key ∈ payload ∨
      ∃ pubkeyId, Trimmed pubkeyId ∧ pubkeyIdOf key = some (.str pubkeyId) := by
  induction items generalizing payload seen with
  | nil =>
    intro key hkey
    exact .inl hkey
  | cons item rest ih =>
    intro key hkey
    rw [sanitizeKeys] at hkey
    split at hkey
    · exact .inl hkey
    · split at hkey
      · exact ih key hkey
      · rename_i slot kept hkept
        rcases ih key hkey with hpayload | hrest
        · rcases List.mem_append.mp hpayload with hold | hnew
          · exact .inl hold
          · rw [List.mem_singleton.mp hnew]
            exact .inr (sanitizeKey_pubkeyId hkept)
        · exact .inr hrest

/-- The two filters agree on the fields: a batch encrypted under a trimmed key id passes whole. The
    slots still to come are above all that were seen. -/
theorem sanitizeKeys_encryptKeys {nacl : Nacl} (hnacl : nacl.Seals) {py : Interpreter}
    {synapse : LLMKeySynapse} (hid : Trimmed synapse.protocolPubkeyId) {configs : List KeyConfig}
    {slot : Nat} {keys payload : List Json} {seen : List Int}
    (hclean : ∀ config ∈ configs, config.Clean)
    (hslots : slot + configs.length ≤ LLM_KEY_MAX_KEYS_PER_HOTKEY) (hpayload : payload.length ≤ slot)
    (hseen : ∀ n ∈ seen, n < slot) (h : encryptKeys nacl synapse slot configs = .ok keys) :
    sanitizeKeys py keys payload seen = payload ++ keys := by
  induction configs generalizing slot keys payload seen with
  | nil =>
    cases h
    rw [sanitizeKeys, List.append_nil]
  | cons config rest ih =>
    rw [List.length_cons] at hslots
    have hrest : ∀ other ∈ rest, other.Clean := fun other hother =>
      hclean other (List.mem_cons_of_mem config hother)
    cases hallows : synapse.allows config with
    | false =>
      rw [encryptKeys_skip hallows] at h
      apply ih hrest (by omega) (by omega) _ h
      intro n hn
      have := hseen n hn
      omega
    | true =>
      obtain ⟨blob, others, hblob, hothers, rfl⟩ := encryptKeys_take hallows h
      have hconfig := hclean config List.mem_cons_self
      have hkept := sanitizeKey_keyEntry py (by omega)
        (fun hmem => lt_irrefl _ (hseen slot hmem)) hconfig.1 hconfig.2
        (encryptForProtocol_trimmed hnacl hblob) hid
      rw [sanitizeKeys, if_neg (by omega), hkept]
      simp only
      rw [ih hrest (by omega) (by rw [List.length_append, List.length_singleton]; omega) _ hothers,
        List.append_assoc, List.singleton_append]
      intro n hn
      rcases List.mem_cons.mp hn with rfl | hold
      · omega
      · have := hseen n hold
        omega

/-! ## The answer -/

/-- The miner has a batch to offer: enough keys, a key to encrypt them for, one at least that the
    ask lets in, and none that is let in fails to encrypt. -/
structure Offers (nacl : Nacl) (py : Interpreter) (env : MinerEnv) (ask : LLMKeySynapse) : Prop where
  enough : LLM_KEY_MIN_KEYS_PER_HOTKEY ≤ (configuredKeys py env).length
  pubkey : ask.protocolPubkeyB64 ≠ []
  some_allowed : ∃ config ∈ configuredKeys py env, ask.allows config = true
  encrypts : Encrypts nacl ask 0 (configuredKeys py env)

/-- The ask takes a whole batch: it lets in every key that is configured, and its key id is trimmed. -/
structure TakesAll (py : Interpreter) (env : MinerEnv) (ask : LLMKeySynapse) : Prop where
  all_allowed : ∀ config ∈ configuredKeys py env, ask.allows config = true
  key_id : Trimmed ask.protocolPubkeyId

/-- The validator keeps the batch as it was sent, finds it large enough, and relays it. -/
structure Accepted (py : Interpreter) (ask answer : LLMKeySynapse) : Prop where
  unchanged : validateMinerKeys py (.arr answer.keys) = answer.keys
  enough : LLM_KEY_MIN_KEYS_PER_HOTKEY ≤ (validateMinerKeys py (.arr answer.keys)).length
  relayed : relayedKeys py ask answer = some answer.keys

theorem enoughConfigs_ne_nil {configs : List KeyConfig} (h : enoughConfigs configs ≠ []) :
    LLM_KEY_MIN_KEYS_PER_HOTKEY ≤ configs.length ∧ enoughConfigs configs = configs := by
  unfold enoughConfigs at h ⊢
  split
  · rename_i hfew
    rw [if_pos hfew] at h
    exact absurd rfl h
  · rename_i henough
    exact ⟨Nat.le_of_not_lt henough, rfl⟩

/-- What a yes was made of. -/
theorem forward_yes {nacl : Nacl} {py : Interpreter} {env : MinerEnv} {now : String}
    {ask : LLMKeySynapse} (h : (Miner.forward nacl py env now ask).hasKey = some true) :
    LLM_KEY_MIN_KEYS_PER_HOTKEY ≤ (configuredKeys py env).length ∧ ask.protocolPubkeyB64 ≠ [] ∧
      ∃ keys, keys ≠ [] ∧ encryptKeys nacl ask 0 (configuredKeys py env) = .ok keys ∧
        Miner.forward nacl py env now ask = { ask with keys, hasKey := some true, timestamp := now } := by
  unfold Miner.forward tryForward at h ⊢
  cases hread : llmKeyContribConfigs py env with
  | error e =>
    rw [hread] at h
    cases h
  | ok configs =>
    simp only [hread] at h ⊢
    have hconfigs := llmKeyContribConfigs_ok hread
    by_cases hnone : (configs.isEmpty || ask.protocolPubkeyB64.isEmpty) = true
    · rw [if_pos hnone] at h
      cases h
    · rw [if_neg hnone] at h ⊢
      simp only [Bool.or_eq_true, List.isEmpty_iff, not_or] at hnone
      obtain ⟨henough, hall⟩ := enoughConfigs_ne_nil (hconfigs ▸ hnone.1)
      rw [hall] at hconfigs
      subst hconfigs
      refine ⟨henough, hnone.2, ?_⟩
      cases hkeys : encryptKeys nacl ask 0 (configuredKeys py env) with
      | error e =>
        rw [hkeys] at h
        cases h
      | ok keys =>
        simp only [hkeys, Option.some.injEq, Bool.not_eq_true', List.isEmpty_eq_false_iff] at h ⊢
        refine ⟨keys, h, rfl, ?_⟩
        simp [h]

/-- A yes is an offer. -/
theorem forward_yes_iff {nacl : Nacl} {py : Interpreter} {env : MinerEnv} (now : String)
    {ask : LLMKeySynapse} :
    (Miner.forward nacl py env now ask).hasKey = some true ↔ Offers nacl py env ask := by
  constructor
  · intro h
    obtain ⟨henough, hpubkey, keys, hne, hkeys, -⟩ := forward_yes h
    refine ⟨henough, hpubkey, ?_, encryptKeys_ok_iff.mp ⟨keys, hkeys⟩⟩
    have hlength := encryptKeys_length hkeys
    have hpos := List.length_pos_iff.mpr hne
    rw [hlength] at hpos
    exact List.countP_pos_iff.mp hpos
  · intro hoffers
    cases hread : llmKeyContribConfigs py env with
    | error e =>
      have hfew := hoffers.enough
      rw [llmKeyContribConfigs_error hread] at hfew
      exact absurd hfew (by decide)
    | ok configs =>
      have hconfigs : configs = configuredKeys py env := by
        rw [llmKeyContribConfigs_ok hread, enoughConfigs, if_neg (Nat.not_lt.mpr hoffers.enough)]
      obtain ⟨keys, hkeys⟩ := encryptKeys_ok_iff.mpr hoffers.encrypts
      have hlength := encryptKeys_length hkeys
      have hpos := List.countP_pos_iff.mpr hoffers.some_allowed
      obtain ⟨config, hmem, -⟩ := hoffers.some_allowed
      have hsome : configuredKeys py env ≠ [] := List.ne_nil_of_mem hmem
      have hne : keys ≠ [] := List.length_pos_iff.mp (by rw [hlength]; exact hpos)
      simp [Miner.forward, tryForward, hread, hconfigs, hkeys, hsome, hoffers.pubkey, hne]

/-- The batch of an offer has one key for each that is let in. -/
theorem accepted_iff {nacl : Nacl} (hnacl : nacl.Seals) {py : Interpreter} {env : MinerEnv}
    {now : String} {ask : LLMKeySynapse}
    (h : (Miner.forward nacl py env now ask).hasKey = some true) :
    Accepted py ask (Miner.forward nacl py env now ask) ↔ TakesAll py env ask := by
  obtain ⟨henough, -, keys, hne, hkeys, hanswer⟩ := forward_yes h
  have hcount := encryptKeys_length hkeys
  have hmost := configuredKeys_length py env
  rw [hanswer]
  constructor
  · intro haccepted
    have hunchanged : validateMinerKeys py (.arr keys) = keys := haccepted.unchanged
    constructor
    · -- a batch of the smallest size has room for no key that was dropped
      have hlarge : LLM_KEY_MIN_KEYS_PER_HOTKEY ≤ (validateMinerKeys py (.arr keys)).length :=
        haccepted.enough
      rw [hunchanged, hcount] at hlarge
      have hfull : (configuredKeys py env).countP ask.allows = (configuredKeys py env).length :=
        le_antisymm List.countP_le_length (le_trans hmost hlarge)
      exact List.countP_eq_length.mp hfull
    · obtain ⟨key, rest, hcons⟩ := List.exists_cons_of_ne_nil hne
      have hmem : key ∈ keys := hcons ▸ List.mem_cons_self
      have hkept : key ∈ sanitizeKeys py keys [] [] := by
        rw [show sanitizeKeys py keys [] [] = keys from hunchanged]
        exact hmem
      rcases sanitizeKeys_pubkeyId key hkept with hnone | ⟨pubkeyId, htrimmed, hid⟩
      · cases hnone
      · rw [encryptKeys_pubkeyId hkeys key hmem] at hid
        cases hid
        exact htrimmed
  · intro htakes
    have hunchanged : validateMinerKeys py (.arr keys) = keys :=
      sanitizeKeys_encryptKeys hnacl htakes.key_id configuredKeys_clean (by omega) (le_refl 0)
        (by simp) hkeys
    have hlarge : LLM_KEY_MIN_KEYS_PER_HOTKEY ≤ keys.length := by
      rw [hcount, List.countP_eq_length.mpr htakes.all_allowed]
      exact henough
    refine ⟨hunchanged, hunchanged.symm ▸ hlarge, ?_⟩
    simp [relayedKeys, hunchanged, Nat.not_lt.mpr hlarge]

/-- A yes is relayed just when the miner offers nothing or the ask takes all it has configured. -/
theorem yes_is_relayed_iff {nacl : Nacl} (hnacl : nacl.Seals) (py : Interpreter) (env : MinerEnv)
    (now : String) (ask : LLMKeySynapse) :
    ((Miner.forward nacl py env now ask).hasKey = some true →
      Accepted py ask (Miner.forward nacl py env now ask)) ↔
    (Offers nacl py env ask → TakesAll py env ask) := by
  rw [← forward_yes_iff now]
  constructor
  · intro haccepted hyes
    exact (accepted_iff hnacl hyes).mp (haccepted hyes)
  · intro htakes hyes
    exact (accepted_iff hnacl hyes).mpr (htakes hyes)

/-! ## One configuration -/

/-- A PyNaCl that knows one public key. What it returns is as long as a sealed text: a key, a tag
    of 16 bytes, and as many bytes as the text has. -/
def plainNacl : Nacl where
  publicKey encoded :=
    if encoded = PyStr.ofString "CQAAAAAAAAAAAAAAAAAAAAAAAAAAAAAAAAAAAAAAAAA=" then
      .ok (9 :: List.replicate 31 0)
    else .error ⟨.valueError, "The public key must be exactly 32 bytes long"⟩
  encrypt _ key plain := .ok (key ++ List.replicate 16 0 ++ plain.map UInt8.ofNat)

theorem plainNacl_seals : plainNacl.Seals := by
  intro call key plain ciphertext h hempty
  cases h
  simp at hempty

def plainEntry (model apiKey : Nat) : PyStr :=
  PyStr.ofString "\x7b\"provider\":\"p\",\"model\":\"" ++ [model] ++
    PyStr.ofString "\",\"api_key\":\"" ++ [apiKey] ++ PyStr.ofString "\"\x7d"

/-- Five keys `a` to `e`, the first four for the model `p/m`. -/
def fiveKeys (lastModel : Nat) : MinerEnv where
  contribEnabled := some (PyStr.ofString "true")
  keysJson := [91] ++ [44].intercalate [plainEntry 109 97, plainEntry 109 98, plainEntry 109 99,
    plainEntry 109 100, plainEntry lastModel 101] ++ [93]

/-- An ask for keys of the model `p/m`. -/
def plainAsk : LLMKeySynapse where
  protocolPubkeyId := PyStr.ofString "v1"
  protocolPubkeyB64 := PyStr.ofString "CQAAAAAAAAAAAAAAAAAAAAAAAAAAAAAAAAAAAAAAAAA="
  allowedModels := [PyStr.ofString "p/m"]

theorem five_keys_relayed :
    (Miner.forward plainNacl cpython (fiveKeys 109) "now" plainAsk).hasKey = some true ∧
    Accepted cpython plainAsk (Miner.forward plainNacl cpython (fiveKeys 109) "now" plainAsk) := by
  have hyes : (Miner.forward plainNacl cpython (fiveKeys 109) "now" plainAsk).hasKey = some true := by
    decide +kernel
  refine ⟨hyes, (yes_is_relayed_iff plainNacl_seals cpython (fiveKeys 109) "now" plainAsk).mpr ?_ hyes⟩
  intro _
  have hall : (configuredKeys cpython (fiveKeys 109)).all plainAsk.allows = true := by decide +kernel
  exact ⟨List.all_eq_true.mp hall, by decide, by decide⟩

/-- The last of five keys is for a model the ask does not let in: the miner says yes with four, and
    the validator relays none. -/
theorem yes_with_four_keys :
    ¬ ∀ (nacl : Nacl) (py : Interpreter) (env : MinerEnv) (now : String) (ask : LLMKeySynapse),
      nacl.Seals → (Miner.forward nacl py env now ask).hasKey = some true →
        Accepted py ask (Miner.forward nacl py env now ask) := by
  intro h
  have hyes : (Miner.forward plainNacl cpython (fiveKeys 110) "now" plainAsk).hasKey = some true := by
    decide +kernel
  have hdropped : (validateMinerKeys cpython (.arr (Miner.forward plainNacl cpython (fiveKeys 110) "now"
      plainAsk).keys)).length = 4 := by decide +kernel
  have haccepted := h plainNacl cpython (fiveKeys 110) "now" plainAsk plainNacl_seals hyes
  have henough := haccepted.enough
  rw [hdropped] at henough
  exact absurd henough (by decide)

end TaoSubnet
