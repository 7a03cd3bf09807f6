import TaoSubnet.Lib.Json

/-!
# Contributing LLM keys, from the miner's configuration to the relay

`neurons/miner.py` and `masxai/llm_key_crypto.py` on one side, `_validate_miner_keys` and the turn
of `llm_key_submission_round` that calls it on the other. Both filter the same keys, and neither
calls the other.
-/

namespace TaoSubnet

open Py

def LLM_KEY_MAX_KEYS_PER_HOTKEY : Nat := 5

def LLM_KEY_MIN_KEYS_PER_HOTKEY : Nat := 5

def SYNAPSE_VERSION : Int := 6

/-! ## The wire -/

/-- What both sides read or write of the synapse. -/
structure LLMKeySynapse where
  protocolPubkeyId : PyStr := []
  protocolPubkeyB64 : PyStr := []
  allowedModels : List PyStr := []
  version : Int := SYNAPSE_VERSION
  hasKey : Option Bool := none
  keys : List Json := []
  timestamp : String := ""
  deriving Inhabited

/-- One key of the batch, with the items in the order both sides write them. -/
def keyEntry (slot : Json) (provider model blob encoding pubkeyId : PyStr) : Json :=
  .obj [(PyStr.ofString "slot", slot), (PyStr.ofString "provider", .str provider),
    (PyStr.ofString "model", .str model), (PyStr.ofString "encrypted_key_blob", .str blob),
    (PyStr.ofString "blob_encoding", .str encoding), (PyStr.ofString "pubkey_id_used", .str pubkeyId)]

/-- `str(d.get(key, default))`. -/
def getText (py : Interpreter) (items : List (PyStr × Json)) (key : String) (default : PyStr := []) :
    PyStr :=
  match Json.get? items key with
  | some value => strValue py value
  | none => default

/-! ## The miner's configuration -/

/-- The environment variables that are read: the flag, `MASXAI_LLM_KEYS_JSON` and the one-key
    triple. An unset variable other than the flag is an empty one. -/
structure MinerEnv where
  contribEnabled : Option PyStr := none
  keysJson : PyStr := []
  contribProvider : PyStr := []
  contribModel : PyStr := []
  contribApiKey : PyStr := []

/-- `_env_flag`. -/
def envFlag (u : Unicode) (value : Option PyStr) (default : Bool := true) : Bool :=
  match value with
  | none => default
  | some text =>
    !(["0", "false", "no", "off"].map PyStr.ofString).contains (u.lower (PyStr.strip text))

/-- A configured key. -/
structure KeyConfig where
  provider : PyStr
  model : PyStr
  apiKey : PyStr
  deriving DecidableEq, Repr

/-- The loop over the entries of the document. -/
def collectConfigs (py : Interpreter) :
    List Json → List KeyConfig → List PyStr → List KeyConfig
  | [], configs, _ => configs
  | entry :: rest, configs, seenApiKeys =>
    if LLM_KEY_MAX_KEYS_PER_HOTKEY ≤ configs.length then configs
    else match entry with
      | .obj items =>
        let provider := (getText py items "provider").strip
        let model := (getText py items "model").strip
        let apiKey := (getText py items "api_key").strip
        if provider.isEmpty || model.isEmpty || apiKey.isEmpty then
          collectConfigs py rest configs seenApiKeys
        else if seenApiKeys.contains apiKey then collectConfigs py rest configs seenApiKeys
        else
          collectConfigs py rest (configs ++ [⟨provider, model, apiKey⟩]) (apiKey :: seenApiKeys)
      | _ => collectConfigs py rest configs seenApiKeys

/-- The one-key triple. -/
def legacyConfigs (env : MinerEnv) : List KeyConfig :=
  let provider := env.contribProvider.strip
  let model := env.contribModel.strip
  let apiKey := env.contribApiKey.strip
  if !provider.isEmpty && !model.isEmpty && !apiKey.isEmpty then [⟨provider, model, apiKey⟩] else []

/-- The minimum, checked once the keys are collected. -/
def enoughConfigs (configs : List KeyConfig) : List KeyConfig :=
  if configs.length < LLM_KEY_MIN_KEYS_PER_HOTKEY then [] else configs

/-- `_llm_key_contrib_configs`. A document that is too deep, or holds too long an integer, is not a
    decoding error and is not caught here. -/
def llmKeyContribConfigs (py : Interpreter) (env : MinerEnv) : Except Exc (List KeyConfig) :=
  if envFlag py.unicode env.contribEnabled false = false then .ok []
  else
    let rawJson := env.keysJson.strip
    if rawJson.isEmpty then .ok (enoughConfigs (legacyConfigs env))
    else match Json.loadsText py.recursionLimit rawJson with
      | .error e => if e.cls = .jsonDecodeError then .ok [] else .error e
      | .ok (.arr entries) => .ok (enoughConfigs (collectConfigs py entries [] []))
      | .ok _ => .ok []

/-! ## Encryption -/

/-- What is taken from PyNaCl. `publicKey` is `PublicKey(base64.b64decode(key, validate=True))`;
    `encrypt` is `SealedBox.encrypt`, which draws a fresh key pair each time, so that a call is told
    from the others by its number. -/
structure Nacl where
  publicKey (encoded : PyStr) : Except Exc (List UInt8)
  encrypt (call : Nat) (key : List UInt8) (plain : List Nat) : Except Exc (List UInt8)

/-- `LLMKeyEncryptError`, a `ValueError`. -/
def llmKeyEncryptError (e : Exc) : Exc :=
  ⟨.valueError, "invalid protocol_pubkey_b64: " ++ e.message⟩

/-- `encrypt_for_protocol`. -/
def encryptForProtocol (nacl : Nacl) (call : Nat) (rawKey protocolPubkeyB64 : PyStr) :
    Except Exc PyStr :=
  match nacl.publicKey protocolPubkeyB64 with
  | .error e => .error (llmKeyEncryptError e)
  | .ok pubkey =>
    match encodeUtf8 rawKey with
    | .error e => .error e
    | .ok plain =>
      match nacl.encrypt call pubkey plain with
      | .error e => .error e
      | .ok ciphertext => .ok (b64encode ciphertext)

/-! ## The miner's answer -/

/-- `f"{provider}/{model}"`. -/
def KeyConfig.label (config : KeyConfig) : PyStr := config.provider ++ [47] ++ config.model

/-- The ask lets a key in: every key when it lists no models. -/
def LLMKeySynapse.allows (synapse : LLMKeySynapse) (config : KeyConfig) : Bool :=
  synapse.allowedModels.isEmpty || synapse.allowedModels.contains config.label

def blobEncoding : PyStr := PyStr.ofString "nacl-sealedbox-v1"

/-- The loop of `forward`, from `slot` on. A key that is let in is encrypted once, so its slot
    numbers the call. -/
def encryptKeys (nacl : Nacl) (synapse : LLMKeySynapse) :
    Nat → List KeyConfig → Except Exc (List Json)
  | _, [] => .ok []
  | slot, config :: rest =>
    if synapse.allows config = false then encryptKeys nacl synapse (slot + 1) rest
    else
      match encryptForProtocol nacl slot config.apiKey synapse.protocolPubkeyB64 with
      | .error e => .error e
      | .ok blob =>
        match encryptKeys nacl synapse (slot + 1) rest with
        | .error e => .error e
        | .ok keys =>
          .ok (keyEntry (.int slot) config.provider config.model blob blobEncoding
            synapse.protocolPubkeyId :: keys)

/-- What `forward` does inside its `try`. -/
def tryForward (nacl : Nacl) (py : Interpreter) (env : MinerEnv) (now : String)
    (synapse : LLMKeySynapse) : Except Exc LLMKeySynapse :=
  match llmKeyContribConfigs py env with
  | .error e => .error e
  | .ok configs =>
    if configs.isEmpty || synapse.protocolPubkeyB64.isEmpty then
      .ok { synapse with hasKey := some false }
    else
      match encryptKeys nacl synapse 0 configs with
      | .error e => .error e
      | .ok keys => .ok { synapse with keys, hasKey := some (!keys.isEmpty), timestamp := now }

/-- `Miner.forward`: any exception declines the round. -/
def Miner.forward (nacl : Nacl) (py : Interpreter) (env : MinerEnv) (now : String)
    (synapse : LLMKeySynapse) : LLMKeySynapse :=
  match tryForward nacl py env now synapse with
  | .ok answer => answer
  | .error _ => { synapse with hasKey := some false, keys := [] }

/-! ## The validator's side -/

/-- A slot that is an `int`; a `bool` is one. -/
def intSlot : Option Json → Option Int
  | some (.int n) => some n
  | some (.bool b) => some (if b then 1 else 0)
  | _ => none

/-- What becomes of one item: the sanitized key with its slot, or nothing. -/
def sanitizeKey (py : Interpreter) (seenSlots : List Int) : Json → Option (Int × Json)
  | .obj items =>
    let provider := (getText py items "provider").strip
    let model := (getText py items "model").strip
    let blob := (getText py items "encrypted_key_blob").strip
    let pubkeyId := (getText py items "pubkey_id_used").strip
    match Json.get? items "slot", intSlot (Json.get? items "slot") with
    | some slot, some n =>
      if ¬ (0 ≤ n ∧ n < LLM_KEY_MAX_KEYS_PER_HOTKEY) ∨ seenSlots.contains n ∨ provider.isEmpty ∨
          model.isEmpty ∨ blob.isEmpty ∨ pubkeyId.isEmpty then none
      else some (n, keyEntry slot provider model blob
        (getText py items "blob_encoding" blobEncoding) pubkeyId)
    | _, _ => none
  | _ => none

/-- The loop of `_validate_miner_keys`. -/
def sanitizeKeys (py : Interpreter) : List Json → List Json → List Int → List Json
  | [], payload, _ => payload
  | item :: rest, payload, seenSlots =>
    if LLM_KEY_MAX_KEYS_PER_HOTKEY ≤ payload.length then payload
    else match sanitizeKey py seenSlots item with
      | none => sanitizeKeys py rest payload seenSlots
      | some (slot, key) => sanitizeKeys py rest (payload ++ [key]) (slot :: seenSlots)

/-- `_validate_miner_keys`. -/
def validateMinerKeys (py : Interpreter) : Json → List Json
  | .arr items => sanitizeKeys py items [] []
  | _ => []

/-- The batch `llm_key_submission_round` hands to `submit_keys` for one answer, if any. -/
def relayedKeys (py : Interpreter) (synapse response : LLMKeySynapse) : Option (List Json) :=
  if response.hasKey = none then none
  else if response.version ≠ synapse.version then none
  else if response.hasKey = some false then none
  else
    let keysPayload := validateMinerKeys py (.arr response.keys)
    if keysPayload.length < LLM_KEY_MIN_KEYS_PER_HOTKEY then none else some keysPayload

end TaoSubnet
