import TaoSubnet.Security.Outside
import TaoSubnet.Security.Verdict

/-!
# Stages LOAD and INSPECT

`secqurityVali/docker_ops.py`. Every command goes through `runDocker`, which turns the ways it can fail
the validator into a failure of its own. References that Docker reports are checked before they
are handed back to it.
-/

namespace TaoSubnet

open Py

variable {δ : Type} (o : Outside δ) (py : Interpreter)

/-! ## Running a command -/

def DAEMON_DOWN_MARKERS : List String :=
  ["cannot connect to the docker daemon", "error during connect", "is the docker daemon running",
    "open //./pipe/docker", "dial unix /var/run/docker.sock"]

def looksLikeDaemonDown (stderr : String) : Bool :=
  DAEMON_DOWN_MARKERS.any fun marker => isIn marker (lower stderr)

def excerpt (text : String) (limit : Nat := 2000) : String :=
  let text := strip text
  if text.length ≤ limit then text
  else String.ofList (text.toList.take limit) ++ "... [truncated]"

def failStage {α : Type} (reason : RejectReason) (detail : Option String := none) :
    Prog (World δ) Halt α := Prog.raise (.stage ⟨reason, detail⟩)

/-- What `run_docker` makes of an exception: only the three it catches become failures. -/
def dockerFailure (args : List String) (timeoutS : Nat) (timeoutReason : RejectReason) (e : Exc) :
    Halt :=
  if e.cls = .timeoutExpired then
    .stage ⟨timeoutReason, some ("docker " ++ args.headD "" ++ " timed out after " ++
      toString timeoutS ++ "s")⟩
  else if e.cls.isOSError then .stage ⟨.dockerUnavailable, some e.message⟩
  else .raised e

def runDocker (args : List String) (timeoutS : Nat) (timeoutReason : RejectReason) :
    Prog (World δ) Halt CompletedProcess := fun w =>
  match docker o args w with
  | (.error e, w') => (.error (dockerFailure args timeoutS timeoutReason e), w')
  | (.ok result, w') =>
    if result.returncode ≠ 0 ∧ looksLikeDaemonDown result.stderr then
      (.error (.stage ⟨.dockerUnavailable, some (excerpt result.stderr)⟩), w')
    else (.ok result, w')

/-! ## References -/

def isRefStart (c : Char) : Bool :=
  ('A' ≤ c && c ≤ 'Z') || ('a' ≤ c && c ≤ 'z') || ('0' ≤ c && c ≤ '9')

def isRefChar (c : Char) : Bool :=
  isRefStart c || c == '.' || c == '_' || c == ':' || c == '/' || c == '@' || c == '-'

/-- `^[A-Za-z0-9][A-Za-z0-9._:/@-]{0,255}$`, where `$` lets one line feed follow. -/
def isSafeImageRef (ref : String) : Bool :=
  match ref.toList with
  | [] => false
  | c :: rest =>
    let body := if rest.getLast? = some '\n' then rest.dropLast else rest
    isRefStart c && body.length ≤ 255 && body.all isRefChar

def assertSafeImageRef (ref : String) : Prog (World δ) Halt String :=
  if isSafeImageRef ref then return ref
  else failStage .loadFailed (some ("unsafe image reference from docker: " ++ Py.reprStr ref))

/-! ## LOAD -/

/-- `label\s*(\S+)\s*$` matched here: the word, when a line or the text ends after it. -/
def loadedRefAt (label : String) (s : List Char) : Option String := do
  let rest ← dropPrefix? label.toList s
  let (word, rest) ← span1 (fun c => !isSpace c) (rest.dropWhile isSpace)
  let blank := rest.takeWhile isSpace
  if blank.contains '\n' || blank.length = rest.length then some (String.ofList word) else none

/-- The text from the beginning of each of its lines on. -/
def fromLineStarts : List Char → List (List Char)
  | s => s :: (s.tails.filterMap fun t => match t with
    | '\n' :: rest => some rest
    | _ => none)

/-- `^label\s*(\S+)\s*$` searched in a text. -/
def loadedRef (label text : String) : Option String :=
  (fromLineStarts text.toList).findSome? (loadedRefAt label)

/-- The reference a finished load reports, an id rather than a tag. -/
def reportedRef (result : CompletedProcess) : Option String :=
  let output := result.stdout ++ "\n" ++ result.stderr
  (loadedRef "Loaded image ID:" output).or (loadedRef "Loaded image:" output)

def loadArgs (path : String) : List String := ["load", "--input", path]

def DOCKER_LOAD_TIMEOUT_S : Nat := 600

def loadImage (path : String) : Prog (World δ) Halt String := do
  let result ← runDocker o (loadArgs path) DOCKER_LOAD_TIMEOUT_S .loadFailed
  if result.returncode ≠ 0 then failStage .loadFailed (some (excerpt result.stderr))
  else match reportedRef result with
    | some ref => assertSafeImageRef ref
    | none =>
      failStage .loadFailed (some ("docker load reported no image: " ++
        excerpt (result.stdout ++ "\n" ++ result.stderr) 500))

/-! ## INSPECT -/

structure ImageInfo where
  imageId : PyStr
  repoTags : List PyStr := []
  arch : Option Json := none
  osName : Option Json := none
  layerCount : Option Nat := none
  imageSize : Option Int := none
  entrypoint : List PyStr := []
  cmd : List PyStr := []
  imageUser : Option Json := none
  rootfsLayers : List PyStr := []

/-- `_as_str_list`. -/
def asStrList (value : Option Json) : List PyStr :=
  match value with
  | some (.arr items) => items.map (strValue py)
  | some (.str s) => if s.isEmpty then [] else [s]
  | _ => []

/-- `d.get(key)`, where a null is no different from a missing key. -/
def notNull (value : Option Json) : Option Json :=
  match value with
  | some .null => none
  | value => value

/-- `value or None`. -/
def truthyOrNone (value : Option Json) : Option Json := value.filter Json.truthy

/-- `data.get(key) or {}`, of which only `.get` is used afterwards. -/
def getObject (data : List (PyStr × Json)) (key : String) : Except Exc (List (PyStr × Json)) :=
  match truthyOrNone (Json.get? data key) with
  | none => .ok []
  | some (.obj items) => .ok items
  | some _ => .error ⟨.attributeError, "object has no attribute 'get'"⟩

/-- `int(size) if isinstance(size, (int, float)) else None`. -/
def sizeOf (value : Option Json) : Except Exc (Option Int) :=
  match value with
  | some (.int n) => .ok (some n)
  | some (.bool b) => .ok (some (if b then 1 else 0))
  | some (.float (.fin q)) => .ok (some (if 0 ≤ q then q.floor else q.ceil))
  | some (.float .nan) => .error ⟨.valueError, "cannot convert float NaN to integer"⟩
  | some (.float _) => .error ⟨.overflowError, "cannot convert float infinity to integer"⟩
  | _ => .ok none

/-- The image a report of `docker image inspect` describes. -/
def imageInfoOf (ref : String) (data : List (PyStr × Json)) : Except Exc ImageInfo := do
  let config ← getObject data "Config"
  let rootfs ← getObject data "RootFS"
  let layers := Json.get? rootfs "Layers"
  let imageSize ← sizeOf (Json.get? data "Size")
  return {
    imageId := match truthyOrNone (Json.get? data "Id") with
      | some value => strValue py value
      | none => PyStr.ofString ref
    repoTags := match truthyOrNone (Json.get? data "RepoTags") with
      | some (.arr tags) => tags.map (strValue py)
      | _ => []
    arch := notNull (Json.get? data "Architecture")
    osName := notNull (Json.get? data "Os")
    layerCount := match layers with
      | some (.arr items) => some items.length
      | _ => none
    imageSize := imageSize
    entrypoint := asStrList py (Json.get? config "Entrypoint")
    cmd := asStrList py (Json.get? config "Cmd")
    imageUser := truthyOrNone (Json.get? config "User")
    rootfsLayers := asStrList py layers }

/-- The report itself: an object, or the first element of a list. -/
def reportOf (data : Json) : Except StageFailure (List (PyStr × Json)) :=
  let object (data : Json) : Except StageFailure (List (PyStr × Json)) :=
    match data with
    | .obj items => .ok items
    | _ => .error ⟨.internalError, some "docker inspect returned no object"⟩
  match data with
  | .arr [] => .error ⟨.loadFailed, some "docker inspect returned nothing"⟩
  | .arr (first :: _) => object first
  | data => object data

def inspectArgs (ref : String) : List String :=
  ["image", "inspect", "--format", "\x7b\x7bjson .\x7d\x7d", ref]

def inspectImage (ref : String) : Prog (World δ) Halt ImageInfo := do
  let _ ← assertSafeImageRef ref
  let result ← runDocker o (inspectArgs ref) DOCKER_CLI_TIMEOUT_S .dockerUnavailable
  if result.returncode ≠ 0 then failStage .loadFailed (some (excerpt result.stderr))
  else match Json.loadsText py.recursionLimit (PyStr.ofString result.stdout) with
    | .error e =>
      if e.cls = .jsonDecodeError then
        failStage .internalError (some ("could not parse docker inspect output: " ++ e.message))
      else Prog.raise (.raised e)
    | .ok data =>
      match reportOf data with
      | .error failure => Prog.raise (.stage failure)
      | .ok items =>
        match imageInfoOf py ref items with
        | .error e => Prog.raise (.raised e)
        | .ok info => return info

/-- `agent_digest_of`. -/
def agentDigestOf (info : ImageInfo) : Except Exc (Option String) :=
  if info.rootfsLayers.isEmpty then .ok none
  else do
    let joined (label : String) (items : List PyStr) : PyStr :=
      PyStr.ofString label ++ [10].intercalate items
    let text := [0].intercalate [joined "layers:" info.rootfsLayers,
      joined "entrypoint:" info.entrypoint, joined "cmd:" info.cmd]
    return some (py.sha256 (← encodeUtf8 text))

def EXPECTED_ARCH : String := "amd64"

def EXPECTED_OS : String := "linux"

def MAX_IMAGE_LAYERS : Nat := 128

def MAX_IMAGE_SIZE_BYTES : Int := 4 * 1024 ^ 3

/-- `value and value != expected`. -/
def mismatches (value : Option Json) (expected : String) : Bool :=
  match value with
  | some (.str s) => !s.isEmpty && s != PyStr.ofString expected
  | some value => value.truthy
  | none => false

/-- How a value reads in a message. -/
def shown (value : Option Json) : String :=
  String.ofList (((value.map (strValue py)).getD []).map Char.ofNat)

/-- `check_image`. -/
def checkImage (info : ImageInfo) : Except StageFailure Unit :=
  if mismatches info.arch EXPECTED_ARCH then
    .error ⟨.archMismatch, some ("image is " ++ shown py info.arch ++ ", validator runs " ++
      EXPECTED_ARCH)⟩
  else if mismatches info.osName EXPECTED_OS then
    .error ⟨.osMismatch, some ("image targets " ++ shown py info.osName ++ ", validator runs " ++
      EXPECTED_OS)⟩
  else if MAX_IMAGE_LAYERS < info.layerCount.getD 0 then
    .error ⟨.tooManyLayers, some (toString (info.layerCount.getD 0) ++ " layers exceeds " ++
      toString MAX_IMAGE_LAYERS)⟩
  else if MAX_IMAGE_SIZE_BYTES < info.imageSize.getD 0 then
    .error ⟨.imageTooLarge, some (toString (info.imageSize.getD 0) ++ " bytes unpacked exceeds " ++
      toString MAX_IMAGE_SIZE_BYTES)⟩
  else .ok ()

/-- `entrypoint_of`. -/
def entrypointOf (info : ImageInfo) : Except StageFailure (List PyStr) :=
  if !info.entrypoint.isEmpty then .ok info.entrypoint
  else if !info.cmd.isEmpty then .ok info.cmd
  else .error ⟨.noEntrypoint, some "image declares neither Entrypoint nor Cmd"⟩

/-! ## Removal -/

def imageRemoveArgs (ref : String) : List String := ["image", "rm", "--force", ref]

/-- A stage failure of `x` is no more than `default`; any other exception goes on. -/
def bestEffort {α : Type} (default : α) (x : Prog (World δ) Halt α) : Prog (World δ) Halt α :=
  Prog.tryExcept x fun e => match e with
    | .stage _ => return default
    | .raised e => Prog.raise (.raised e)

def removeImage (ref : String) : Prog (World δ) Halt Bool :=
  bestEffort false (do
    let _ ← assertSafeImageRef ref
    let result ← runDocker o (imageRemoveArgs ref) DOCKER_CLI_TIMEOUT_S .internalError
    return result.returncode == 0)

end TaoSubnet
