import TaoSubnet.Lib.Dict
import TaoSubnet.Lib.Prog
import TaoSubnet.Lib.Query

/-!
# The miner's encrypted agent

`neurons/security_miner.py`, `masxai/agent_blob.py` and `_download_blob` of the validator. The box that
archives are sealed in is a library's, and so is what docker makes of an image. Log lines are left out.
-/

namespace TaoSubnet

open Py

/-- `masxai/agent_crypto.py`. `encrypt_agent` and `decrypt_agent` have no value where they raise. -/
structure AgentCrypto where
  /-- The last argument is what the ephemeral key is drawn from. -/
  encryptAgent : (tar : List UInt8) → (pubkey : PyStr) → (seed : Nat) → Option (List UInt8)
  decryptAgent : (blob : List UInt8) → (privateKey : PyStr) → Option (List UInt8)
  publicKey : (privateKey : PyStr) → List UInt8

/-- `public_key_b64`. -/
def AgentCrypto.publicKeyB64 (crypto : AgentCrypto) (privateKey : PyStr) : PyStr :=
  b64encode (crypto.publicKey privateKey)

/-- The exceptions that `forward` tells apart: an `AgentBlobError` or `AgentCryptoError`, and the rest. -/
inductive AgentFault
  | agent
  | other
  deriving DecidableEq, Repr

/-! ## The archive -/

/-- A run of `docker save`. -/
inductive SaveRun
  | notFound
  | timedOut
  | raised
  | exited (returncode : Int) (stdout : List UInt8) (stderr : String)

/-- What docker makes of the image: a first `docker save`, a `docker pull`, of which only an exception
    that is not caught is seen, and another `docker save`. -/
structure SavedImage where
  first : SaveRun
  pullRaises : Bool := false
  second : SaveRun := .raised

/-- `_docker_save`. -/
def dockerSave : SaveRun → Except AgentFault (Option (List UInt8))
  | .notFound => .error .agent
  | .timedOut => .error .agent
  | .raised => .error .other
  | .exited returncode stdout stderr =>
    if returncode ≠ 0 then
      if isIn "no such image" (lower (strip stderr)) then .ok none else .error .agent
    else if stdout.isEmpty then .error .agent
    else .ok (some stdout)

/-- `_docker_pull`. -/
def dockerPull (image : SavedImage) : Except AgentFault Unit :=
  if image.pullRaises then .error .other else .ok ()

/-- `save_image_tar`. -/
def saveImageTar (image : SavedImage) : Except AgentFault (List UInt8) := do
  let some tar ← dockerSave image.first | do
    dockerPull image
    let some tar ← dockerSave image.second | throw .agent
    return tar
  return tar

/-! ## The files -/

/-- The names on the way from the root. -/
abbrev Location := List PyStr

/-- A disk without links: the directories, which the miner does not change, and the files. -/
structure Disk where
  isDir : Location → Bool
  files : Location → Option (List UInt8) := fun _ => none

def currentDir : PyStr := [46]

def parentDir : PyStr := [46, 46]

/-- Where a path leads from a directory, when every part of it is one. -/
def Disk.walk (disk : Disk) : Location → List PyStr → Option Location
  | here, [] => some here
  | here, part :: rest =>
    if part = [] ∨ part = currentDir then disk.walk here rest
    else if part = parentDir then disk.walk here.dropLast rest
    else if disk.isDir (here ++ [part]) then disk.walk (here ++ [part]) rest
    else none

/-- The file that `directory / name` is opened as for writing. -/
def Disk.target (disk : Disk) (directory : Location) (name : PyStr) : Option Location := do
  let parts := name.splitOn 47
  let parent ← disk.walk (if name.head? = some 47 then [] else directory) parts.dropLast
  let last ← parts.getLast?
  if last ∈ [[], currentDir, parentDir] ∨ 0 ∈ name ∨ disk.isDir (parent ++ [last]) then none
  else some (parent ++ [last])

def Disk.write (disk : Disk) (file : Location) (data : List UInt8) : Disk :=
  { disk with files := fun l => if l = file then some data else disk.files l }

/-- The server's directory, and where the validators find it. -/
structure BlobServer where
  advertisedHost : PyStr
  port : Nat
  directory : Location

namespace BlobServer

def address (server : BlobServer) : PyStr :=
  server.advertisedHost ++ 58 :: PyStr.ofString (toString server.port)

/-- `url_for`. -/
def urlFor (server : BlobServer) (name : PyStr) : PyStr :=
  PyStr.ofString "http://" ++ server.address ++ 47 :: name

/-- `posixpath.normpath` of a path from the root, in its parts. -/
def normParts (parts : List PyStr) : List PyStr :=
  parts.foldl (fun kept part =>
    if part = [] ∨ part = currentDir then kept
    else if part = parentDir then kept.dropLast
    else kept ++ [part]) []

/-- `translate_path` and `send_head` of `SimpleHTTPRequestHandler`, for a file. A directory's listing, and
    the errors, are no file's content. -/
def serve (server : BlobServer) (disk : Disk) (target : PyStr) : Option (List UInt8) :=
  let path := (target.takeWhile (· != 63)).takeWhile (· != 35)
  if (Url.rstrip path).getLast? = some 47 then none
  else disk.files (server.directory ++ normParts ((Url.unquote path).splitOn 47))

/-- What a GET of the URL is answered with, when it comes to this server. -/
def fetch (server : BlobServer) (disk : Disk) (url : PyStr) : Option (List UInt8) :=
  if Url.authorityOf url = some server.address then (Url.selectorOf url).bind (server.serve disk)
  else none

end BlobServer

/-! ## The miner -/

/-- The fields of a `SecurityAgentSynapse` that the miner reads or writes. -/
structure SecuritySynapse where
  validatorPubkeyB64 : PyStr := []
  pubkeyId : PyStr := []
  hasAgent : Option Bool := none
  blobUrl : PyStr := []
  ciphertextSha256 : String := ""
  blobEncoding : String := ""
  pubkeyIdUsed : PyStr := []
  imageRef : PyStr := []
  timestamp : String := ""
  deriving DecidableEq

/-- One ask: the request, the two variables of the environment, and what docker, the clock, the draw of
    the ephemeral key and the disk are then. -/
structure AgentAsk where
  synapse : SecuritySynapse
  enabled : Option PyStr
  image : Option PyStr
  saved : SavedImage
  now : String
  seed : Nat
  /-- The bytes after which a write fails, when it does. -/
  room : Option Nat := none

/-- `_env_flag`, whose default here is false. -/
def agentEnabled (py : Interpreter) : Option PyStr → Bool
  | none => false
  | some value =>
    py.unicode.lower (PyStr.strip value) ∉ ["0", "false", "no", "off"].map PyStr.ofString

/-- The image that is configured. -/
def AgentAsk.imageRef (ask : AgentAsk) : PyStr := PyStr.strip (ask.image.getD [])

/-- The key that came with the ask. -/
def AgentAsk.pubkey (ask : AgentAsk) : PyStr := PyStr.strip ask.synapse.validatorPubkeyB64

def AgentAsk.offers (py : Interpreter) (ask : AgentAsk) : Bool :=
  agentEnabled py ask.enabled && !ask.imageRef.isEmpty

structure AgentMiner where
  blobServer : Option BlobServer
  disk : Disk
  agentTar : Option (List UInt8) := none
  agentTarImage : Option PyStr := none
  agentBlobs : Dict (PyStr × String) (PyStr × String) := Dict.empty

/-- `sha256_hex`. -/
def sha256Hex (py : Interpreter) (data : List UInt8) : String := py.sha256 (data.map UInt8.toNat)

/-- `(pubkey_id or 'k')[:16]`. -/
def fileId (pubkeyId : PyStr) : PyStr := (if pubkeyId = [] then [107] else pubkeyId).take 16

def blobName (pubkeyId : PyStr) (tarSha : String) : PyStr :=
  fileId pubkeyId ++ 45 :: (PyStr.ofString tarSha).take 12 ++ PyStr.ofString ".enc"

namespace AgentMiner

variable (crypto : AgentCrypto) (py : Interpreter)

/-- `publish`. A write that fails leaves what was written. -/
def publish (server : BlobServer) (room : Option Nat) (data : List UInt8) (name : PyStr) :
    Prog AgentMiner AgentFault PyStr := fun s =>
  match s.disk.target server.directory name with
  | none => (.error .other, s)
  | some file => match room with
    | some n => (.error .other, { s with disk := s.disk.write file (data.take n) })
    | none => (.ok (server.urlFor name), { s with disk := s.disk.write file data })

/-- The archive that is kept, when it is of this image. -/
def keptTar (s : AgentMiner) (imageRef : PyStr) : Option (List UInt8) :=
  if s.agentTarImage = some imageRef then s.agentTar else none

/-- The archive of the image, saved when none of it is kept. -/
def agentTarFor (ask : AgentAsk) (imageRef : PyStr) : Prog AgentMiner AgentFault (List UInt8) := do
  let s ← Prog.get
  match s.keptTar imageRef with
  | some tar => return tar
  | none =>
    let tar ← Prog.ofExcept (saveImageTar ask.saved)
    Prog.modify fun s =>
      { s with agentTar := some tar, agentTarImage := some imageRef, agentBlobs := Dict.empty }
    return tar

/-- `_agent_blob_for`. -/
def agentBlobFor (ask : AgentAsk) (server : BlobServer) (imageRef pubkey pubkeyId : PyStr) :
    Prog AgentMiner AgentFault (PyStr × String) := do
  let tar ← agentTarFor ask imageRef
  let tarSha := sha256Hex py tar
  let s ← Prog.get
  match s.agentBlobs.get? (pubkey, tarSha) with
  | some cached => return cached
  | none =>
    let blob ← Prog.ofExcept ((crypto.encryptAgent tar pubkey ask.seed).elim (.error .agent) .ok)
    let cipherSha := sha256Hex py blob
    let url ← publish server ask.room blob (blobName pubkeyId tarSha)
    Prog.modify fun s =>
      { s with agentBlobs := s.agentBlobs.insert (pubkey, tarSha) (url, cipherSha) }
    return (url, cipherSha)

/-- The answer that names a blob. -/
def blobAnswer (ask : AgentAsk) (blobUrl : PyStr) (cipherSha : String) : SecuritySynapse :=
  { ask.synapse with
    blobUrl := blobUrl, ciphertextSha256 := cipherSha, blobEncoding := "nacl-sealedbox-v1",
    pubkeyIdUsed := ask.synapse.pubkeyId, hasAgent := some true, timestamp := ask.now }

/-- The body of the `try` of `forward`. -/
def answer (ask : AgentAsk) : Prog AgentMiner AgentFault SecuritySynapse := do
  if !ask.offers py then return { ask.synapse with hasAgent := some false }
  else
    let s ← Prog.get
    match if ask.pubkey = [] then none else s.blobServer with
    | some server =>
      let (blobUrl, cipherSha) ←
        agentBlobFor crypto py ask server ask.imageRef ask.pubkey ask.synapse.pubkeyId
      return blobAnswer ask blobUrl cipherSha
    | none =>
      return { ask.synapse with imageRef := ask.imageRef, hasAgent := some true, timestamp := ask.now }

/-- `forward`. -/
def forward (ask : AgentAsk) (s : AgentMiner) : SecuritySynapse × AgentMiner :=
  match answer crypto py ask s with
  | (.ok synapse, s') => (synapse, s')
  | (.error .agent, s') => ({ ask.synapse with hasAgent := some false }, s')
  | (.error .other, s') =>
    ({ ask.synapse with hasAgent := some false, blobUrl := [], imageRef := [] }, s')

/-- The miner after these asks, one after the other. -/
def run (asks : List AgentAsk) (s : AgentMiner) : AgentMiner :=
  asks.foldl (fun s ask => (forward crypto py ask s).2) s

end AgentMiner

/-! ## The validator -/

/-- `_pubkey_id`, of the key in base64. -/
def agentKeyId (py : Interpreter) (pubkeyB64 : PyStr) : PyStr :=
  (PyStr.ofString (py.sha256 pubkeyB64)).take 16

/-- The request of `security_round`. -/
def agentRequest (py : Interpreter) (pubkeyB64 : PyStr) : SecuritySynapse where
  validatorPubkeyB64 := pubkeyB64
  pubkeyId := agentKeyId py pubkeyB64

def SECURITY_BLOB_MAX_BYTES : Nat := 2 * 1024 ^ 3 + 16 * 1024 ^ 2

/-- The loop of `_download_blob`, over the chunks that the response is read in. -/
def readBlob (total : Nat) : List (List UInt8) → Except Exc (List UInt8)
  | [] => .ok []
  | chunk :: rest =>
    if chunk.isEmpty then .ok []
    else if SECURITY_BLOB_MAX_BYTES < total + chunk.length then
      .error ⟨.valueError, "blob exceeds " ++ toString SECURITY_BLOB_MAX_BYTES ++ " bytes"⟩
    else (readBlob (total + chunk.length) rest).map (chunk ++ ·)

end TaoSubnet
