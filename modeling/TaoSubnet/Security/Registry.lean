import TaoSubnet.Security.DockerOps
import TaoSubnet.Lib.Dumps

/-!
# Stage LOAD, from a registry

`secqurityVali/registry.py`: the submitted reference is checked, its manifest bounded, and the image
pulled and pinned to a digest.
-/

namespace TaoSubnet

open Py

structure PulledImage where
  requestedRef : String
  digestRef : String
  imageId : String
  deriving DecidableEq, Repr

def UNAUTHORIZED_MARKERS : List String :=
  ["unauthorized", "authentication required", "denied", "forbidden",
    "access to the resource is denied"]

def NOT_FOUND_MARKERS : List String :=
  ["manifest unknown", "not found", "repository does not exist", "no such manifest"]

/-- `^(?P<repo>[^@\s]+)@(?P<digest>sha256:[0-9a-f]{64})$`. -/
def isDigestPinned (ref : String) : Bool :=
  let (repo, rest) := ref.toList.span (· ≠ '@')
  match dropPrefix? "@sha256:".toList rest with
  | none => false
  | some digest =>
    let hex := if digest.getLast? = some '\n' then digest.dropLast else digest
    !repo.isEmpty && !repo.any isSpace && hex.length == 64 &&
      hex.all fun c => ('0' ≤ c && c ≤ '9') || ('a' ≤ c && c ≤ 'f')

/-- `_classify_pull_failure`. -/
def classifyPullFailure (stderr : String) : RejectReason :=
  let lowered := lower stderr
  if UNAUTHORIZED_MARKERS.any fun marker => isIn marker lowered then .registryUnauthorized
  else if NOT_FOUND_MARKERS.any fun marker => isIn marker lowered then .imageNotFound
  else .pullFailed

/-- `_repo_of`: a reference without its tag or digest. -/
def repoOf (ref : String) : String :=
  let s := ref.toList
  if s.contains '@' then String.ofList (s.takeWhile (· ≠ '@'))
  else
    let tail := (s.reverse.takeWhile (· ≠ '/')).reverse
    if tail.contains ':' then
      String.ofList (s.take (s.length - tail.length) ++ tail.takeWhile (· ≠ ':'))
    else ref

/-! ## Sizes a registry declares -/

/-- `int(value)` of a JSON value. -/
def intOf (u : Unicode) (value : Json) : Except Exc Int :=
  match value with
  | .int n => .ok n
  | .bool b => .ok (if b then 1 else 0)
  | .float (.fin q) => .ok (if 0 ≤ q then q.floor else q.ceil)
  | .float .nan => .error ⟨.valueError, "cannot convert float NaN to integer"⟩
  | .float _ => .error ⟨.overflowError, "cannot convert float infinity to integer"⟩
  | .str s => PyStr.toInt u s
  | .null => .error ⟨.typeError,
    "int() argument must be a string, a bytes-like object or a real number, not 'NoneType'"⟩
  | .arr _ => .error ⟨.typeError,
    "int() argument must be a string, a bytes-like object or a real number, not 'list'"⟩
  | .obj _ => .error ⟨.typeError,
    "int() argument must be a string, a bytes-like object or a real number, not 'dict'"⟩

/-- `int(d.get("size", 0))`. -/
def declaredSize (u : Unicode) (items : List (PyStr × Json)) : Except Exc Int :=
  match Json.get? items "size" with
  | some value => intOf u value
  | none => .ok 0

/-- The sizes of the layers that are objects, summed in order. -/
def sumSizes (u : Unicode) (total : Int) : List Json → Except Exc Int
  | [] => .ok total
  | .obj layer :: rest => do sumSizes u (total + (← declaredSize u layer)) rest
  | _ :: rest => sumSizes u total rest

/-- `_layers_total`. -/
def layersTotal (u : Unicode) (manifest : List (PyStr × Json)) : Except Exc (Option Int) :=
  match Json.get? manifest "layers" with
  | some (.arr layers) => do
    let total ← sumSizes u 0 layers
    match Json.get? manifest "config" with
    | some (.obj config) => return some (total + (← declaredSize u config))
    | _ => return some total
  | _ => .ok none

/-- The digest of the first entry of an index for the expected platform. -/
def platformDigest : List Json → Except Exc (Option Json)
  | [] => .ok none
  | .obj m :: rest => do
    let platform ← getObject m "platform"
    let is (key expected : String) : Bool := match Json.get? platform key with
      | some (.str s) => s == PyStr.ofString expected
      | _ => false
    if is "architecture" EXPECTED_ARCH && is "os" EXPECTED_OS then
      return truthyOrNone (Json.get? m "digest")
    else platformDigest rest
  | _ :: rest => platformDigest rest

/-- A surrogate that stands for a byte that is no UTF-8. -/
def isEscapedByte (n : Nat) : Bool := 0xDC80 ≤ n && n ≤ 0xDCFF

/-- A text as a command argument: no other surrogate can be in one, and no NUL. Such a byte reads as
    U+FFFD. -/
def argumentOf (s : PyStr) : Except Exc String :=
  if s.any fun n => 0xD800 ≤ n && n ≤ 0xDFFF && !isEscapedByte n then
    .error ⟨.unicodeEncodeError, "surrogates not allowed"⟩
  else if s.contains 0 then .error ⟨.valueError, "embedded null byte"⟩
  else .ok (String.ofList (s.map fun n => if isEscapedByte n then '\uFFFD' else Char.ofNat n))

/-! ## Pulling -/

def manifestArgs (ref : String) : List String := ["manifest", "inspect", ref]

def pullArgs (ref : String) : List String := ["pull", "--quiet", ref]

def repoDigestArgs (ref : String) : List String :=
  ["image", "inspect", "--format",
    "\x7b\x7brange .RepoDigests\x7d\x7d\x7b\x7b.\x7d\x7d\n\x7b\x7bend\x7d\x7d", ref]

def REGISTRY_PULL_TIMEOUT_S : Nat := 900

def REGISTRY_MAX_MANIFEST_BYTES : Int := 2 * 1024 ^ 3

section

variable {δ : Type} (o : Outside δ) (py : Interpreter)

/-- An exception no clause of the stage expects. -/
def orRaise {α : Type} (r : Except Exc α) : Prog (World δ) Halt α :=
  match r with
  | .ok a => return a
  | .error e => Prog.raise (.raised e)

def assertSubmittableRef (ref : String) : Prog (World δ) Halt String :=
  if isSafeImageRef ref then return ref
  else failStage .badImageRef (some ("unsafe image reference from docker: " ++ Py.reprStr ref))

/-- `_repo_digest_of`: the first digest-pinned line of what Docker recorded. -/
def repoDigestOf (ref : String) : Prog (World δ) Halt (Option String) := do
  let result ← runDocker o (repoDigestArgs ref) DOCKER_CLI_TIMEOUT_S .dockerUnavailable
  if result.returncode ≠ 0 then return none
  else return ((splitLines result.stdout).map strip).find? isDigestPinned

/-- `_manifest_json`. -/
def manifestJson (ref : String) : Prog (World δ) Halt (Option (List (PyStr × Json))) := do
  let result ← runDocker o (manifestArgs ref) DOCKER_CLI_TIMEOUT_S .pullFailed
  if result.returncode ≠ 0 then return none
  else match Json.loadsText py.recursionLimit (PyStr.ofString result.stdout) with
    | .ok (.obj data) => return some data
    | .ok _ => return none
    | .error e => if e.cls.isValueError then return none else Prog.raise (.raised e)

/-- `_manifest_total_size`. -/
def manifestTotalSize (ref : String) : Prog (World δ) Halt (Option Int) := do
  match ← manifestJson o py ref with
  | none => return none
  | some data =>
    match ← orRaise (layersTotal py.unicode data) with
    | some direct => return some direct
    | none =>
      match Json.get? data "manifests" with
      | some (.arr manifests) =>
        match ← orRaise (platformDigest manifests) with
        | none => return none
        | some digest =>
          let sub ← orRaise (argumentOf (PyStr.ofString (repoOf ref) ++ [64] ++ strValue py digest))
          match ← manifestJson o py sub with
          | none => return none
          | some manifest =>
            if manifest.isEmpty then return none else orRaise (layersTotal py.unicode manifest)
      | _ => return none

/-- The manifest's size is checked before anything is fetched. -/
def boundDownload (ref : String) : Prog (World δ) Halt Unit := do
  match ← manifestTotalSize o py ref with
  | none => return ()
  | some declared =>
    if REGISTRY_MAX_MANIFEST_BYTES < declared then
      -- A sum can have more digits than the message may write.
      if tooLong declared then Prog.raise (.raised intUnwritable)
      else
        failStage .imageTooLarge (some ("manifest declares " ++ toString declared ++
          " bytes, over the " ++ toString REGISTRY_MAX_MANIFEST_BYTES ++ "-byte pull cap"))
    else return ()

/-- The name of what was pulled: the reference itself when it is pinned, else its repo digest. -/
def digestRefOf (ref : String) : Prog (World δ) Halt String :=
  if isDigestPinned ref then return ref
  else do
    match ← repoDigestOf o ref with
    | some digestRef => if digestRef = "" then unresolved else return digestRef
    | none => unresolved
where
  unresolved : Prog (World δ) Halt String :=
    failStage .digestUnresolved (some ("no repo digest recorded for " ++ Py.reprStr ref ++
      "; refusing to validate an unpinnable image"))

def pullImage (ref : String) : Prog (World δ) Halt PulledImage := do
  let _ ← assertSubmittableRef ref
  boundDownload o py ref
  let result ← runDocker o (pullArgs ref) REGISTRY_PULL_TIMEOUT_S .pullFailed
  if result.returncode ≠ 0 then
    failStage (classifyPullFailure result.stderr) (some (excerpt result.stderr))
  else
    let digestRef ← digestRefOf o ref
    let _ ← assertSafeImageRef digestRef
    return ⟨ref, digestRef, digestRef⟩

end

end TaoSubnet
