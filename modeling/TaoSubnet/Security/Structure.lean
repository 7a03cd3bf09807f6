import TaoSubnet.Security.DockerOps

/-!
# Stages FILE and STRUCTURE

`secqurityVali/file_checks.py` and `secqurityVali/structure.py`. Reading a tar is the library's: an
archive comes as the members its stream yields, up to where the stream ends or fails.
-/

namespace TaoSubnet

open Py

/-! ## FILE -/

structure FileInfo where
  size : Nat
  sha256 : String
  compression : String
  deriving DecidableEq, Repr

def MAX_FILE_SIZE_BYTES : Nat := 2 * 1024 ^ 3

def MAGIC_SNIFF_BYTES : Nat := 512

def GZIP_MAGIC : List UInt8 := [0x1F, 0x8B]

def TAR_MAGIC_OFFSET : Nat := 257

def TAR_MAGIC : List UInt8 := "ustar".toUTF8.toList

def sniffCompression (head : List UInt8) : Option String :=
  if GZIP_MAGIC.isPrefixOf head then some "gzip"
  else if (head.drop TAR_MAGIC_OFFSET).take TAR_MAGIC.length = TAR_MAGIC then some "none"
  else none

/-- `check_file`; a path with no regular file at it has no content. -/
def checkFile (py : Interpreter) (path : String) (content : Option (List UInt8)) :
    Except StageFailure FileInfo :=
  match content with
  | none => .error ⟨.fileMissing, some ("no such file: " ++ path)⟩
  | some bytes =>
    if bytes.length = 0 then .error ⟨.fileEmpty, some "submission is 0 bytes"⟩
    else if MAX_FILE_SIZE_BYTES < bytes.length then
      .error ⟨.fileTooLarge, some (toString bytes.length ++ " bytes exceeds cap of " ++
        toString MAX_FILE_SIZE_BYTES)⟩
    else match sniffCompression (bytes.take MAGIC_SNIFF_BYTES) with
      | none => .error ⟨.notAnArchive, some "magic bytes are neither gzip nor tar"⟩
      | some compression => .ok ⟨bytes.length, py.sha256 (bytes.map UInt8.toNat), compression⟩

/-! ## Members -/

inductive TarType
  | regular
  | oldRegular
  | directory
  | symlink
  | hardlink
  /-- Any other type, with its `repr`. -/
  | other (shown : String)
  deriving DecidableEq, Repr

/-- How reading an archive fails: one of the errors the stage expects, or any other. -/
inductive TarFailure
  | archiveError (message : String)
  | raised (e : Exc)
  deriving DecidableEq, Repr

structure TarMember where
  name : PyStr
  type : TarType
  linkname : PyStr := []
  size : Int := 0
  /-- What reading it gives. -/
  data : Except TarFailure (List UInt8) := .ok []

structure TarStream where
  members : List TarMember
  failure : Option TarFailure := none

def TarMember.isFile (m : TarMember) : Bool := m.type = .regular || m.type = .oldRegular

def TarMember.isLink (m : TarMember) : Bool := m.type = .symlink || m.type = .hardlink

/-- `_normalize`. -/
def normalizeName : PyStr → PyStr
  | 46 :: 47 :: rest => rest
  | name => name

/-- `name.split("/")`. -/
def splitSlash : PyStr → List PyStr
  | [] => [[]]
  | 47 :: rest => [] :: splitSlash rest
  | c :: rest =>
    match splitSlash rest with
    | part :: parts => (c :: part) :: parts
    | [] => [[c]]

def isUnsafePath (name : PyStr) : Bool :=
  match name with
  | [] => true
  | c :: rest =>
    c == 47 || c == 92 ||
      (((65 ≤ c && c ≤ 90) || (97 ≤ c && c ≤ 122)) && rest.head? == some 58) ||
      (splitSlash name).contains [46, 46]

/-- `_assert_safe_member`. -/
def assertSafeMember (m : TarMember) : Except StageFailure Unit :=
  match m.type with
  | .other shown =>
    .error ⟨.unsafeTarEntry, some ("entry " ++ PyStr.repr m.name ++ " has disallowed type " ++ shown)⟩
  | _ =>
    if isUnsafePath m.name then
      .error ⟨.unsafeTarEntry, some ("entry " ++ PyStr.repr m.name ++ " escapes the archive root")⟩
    else if m.isLink && isUnsafePath m.linkname then
      .error ⟨.unsafeTarEntry, some ("link " ++ PyStr.repr m.name ++ " -> " ++
        PyStr.repr m.linkname ++ " escapes the archive root")⟩
    else .ok ()

/-! ## Metadata -/

structure StructureInfo where
  imageFormat : String
  entryCount : Nat
  declaredSize : Int
  repoTags : List PyStr := []
  layerCount : Option Nat := none
  configEntry : Option PyStr := none
  deriving DecidableEq, Repr

def MAX_UNCOMPRESSED_BYTES : Int := 4 * 1024 ^ 3

def MAX_TAR_ENTRIES : Nat := 20000

def MAX_METADATA_BYTES : Int := 4 * 1024 * 1024

def stageError {α : Type} (reason : RejectReason) (detail : String) : Except Halt α :=
  .error (.stage ⟨reason, some detail⟩)

/-- The expected errors of an archive are a malformed archive. -/
def TarFailure.halt : TarFailure → Halt
  | .archiveError message => .stage ⟨.malformedArchive, some message⟩
  | .raised e => .raised e

/-- `_read_metadata`. -/
def readMetadata (m : TarMember) : Except Halt (List UInt8) :=
  if MAX_METADATA_BYTES < m.size then
    stageError .malformedManifest (String.ofList (m.name.map Char.ofNat) ++ " is " ++
      toString m.size ++ " bytes; metadata cap is " ++ toString MAX_METADATA_BYTES)
  else match m.data with
    | .ok bytes => .ok (bytes.take MAX_METADATA_BYTES.toNat)
    | .error failure => .error failure.halt

/-- `json.loads(raw)`, the two decoding errors being a malformed manifest. -/
def loadMetadata (py : Interpreter) (name : String) (raw : List UInt8) : Except Halt Json :=
  match Json.loads py.recursionLimit raw with
  | .ok data => .ok data
  | .error e =>
    if e.cls = .jsonDecodeError ∨ e.cls = .unicodeDecodeError then
      stageError .malformedManifest (name ++ ": " ++ e.message)
    else .error (.raised e)

/-- `_parse_docker_manifest`. -/
def parseDockerManifest (py : Interpreter) (raw : List UInt8) :
    Except Halt (List PyStr × Option Nat × Option PyStr) := do
  match ← loadMetadata py "manifest.json" raw with
  | .arr [entry] =>
    match entry with
    | .obj entry =>
      if (Json.get? entry "Config").isNone || (Json.get? entry "Layers").isNone then
        stageError .malformedManifest "manifest entry lacks Config/Layers"
      else
        return (match truthyOrNone (Json.get? entry "RepoTags") with
            | some (.arr tags) => tags.map (strValue py)
            | _ => [],
          match Json.get? entry "Layers" with
            | some (.arr layers) => some layers.length
            | _ => none,
          match Json.get? entry "Config" with
            | some (.str config) => some config
            | _ => none)
    | _ => stageError .malformedManifest "manifest entry lacks Config/Layers"
  | .arr (first :: second :: rest) =>
    stageError .multipleImages ("archive holds " ++ toString (first :: second :: rest).length ++
      " images; exactly one expected")
  | _ => stageError .malformedManifest "manifest.json is not a non-empty list"

/-- `_parse_oci_index`. -/
def parseOciIndex (py : Interpreter) (raw : List UInt8) : Except Halt (List PyStr) := do
  match ← loadMetadata py "index.json" raw with
  | .obj data =>
    match Json.get? data "manifests" with
    | some (.arr [first]) =>
      let annotations ← match first with
        | .obj first =>
          match getObject first "annotations" with
          | .ok annotations => .ok annotations
          | .error e => .error (.raised e)
        | _ => .ok []
      return match truthyOrNone (Json.get? annotations "org.opencontainers.image.ref.name") with
        | some name => [strValue py name]
        | none => []
    | some (.arr (first :: second :: rest)) =>
      stageError .multipleImages ("OCI index holds " ++
        toString (first :: second :: rest).length ++ " manifests; exactly one expected")
    | _ => stageError .malformedManifest "index.json lists no manifests"
  | _ => stageError .malformedManifest "index.json is not an object"

/-! ## STRUCTURE -/

/-- What has been seen of the archive so far. -/
structure Scan where
  entryCount : Nat := 0
  declaredSize : Int := 0
  manifestRaw : Option (List UInt8) := none
  indexRaw : Option (List UInt8) := none
  sawOciLayout : Bool := false

def DOCKER_ARCHIVE_MANIFEST : PyStr := PyStr.ofString "manifest.json"

def OCI_LAYOUT_MARKER : PyStr := PyStr.ofString "oci-layout"

def OCI_INDEX : PyStr := PyStr.ofString "index.json"

/-- One member. -/
def scanMember (scan : Scan) (m : TarMember) : Except Halt Scan := do
  let scan := { scan with entryCount := scan.entryCount + 1 }
  if MAX_TAR_ENTRIES < scan.entryCount then
    stageError .tooManyEntries ("archive exceeds " ++ toString MAX_TAR_ENTRIES ++ " entries")
  else match assertSafeMember m with
    | .error failure => .error (.stage failure)
    | .ok () =>
      let scan := { scan with declaredSize := scan.declaredSize + max m.size 0 }
      if MAX_UNCOMPRESSED_BYTES < scan.declaredSize then
        stageError .decompressionBomb ("declared contents exceed " ++
          toString MAX_UNCOMPRESSED_BYTES ++ " bytes")
      else
        let name := normalizeName m.name
        -- A member that is no file counts only as the OCI marker, by its name.
        if !m.isFile then
          return { scan with sawOciLayout := scan.sawOciLayout || name == OCI_LAYOUT_MARKER }
        else if name = DOCKER_ARCHIVE_MANIFEST then
          return { scan with manifestRaw := some (← readMetadata m) }
        else if name = OCI_INDEX then
          return { scan with indexRaw := some (← readMetadata m) }
        else
          return { scan with sawOciLayout := scan.sawOciLayout || name == OCI_LAYOUT_MARKER }

def NO_IMAGE : String := "no manifest.json (docker-archive) and no oci-layout + index.json (OCI)"

def checkStructure (py : Interpreter) (archive : TarStream) : Except Halt StructureInfo := do
  let scan ← archive.members.foldlM scanMember {}
  match archive.failure with
  | some failure => .error failure.halt
  | none =>
    if scan.entryCount = 0 then stageError .malformedArchive "archive is empty"
    else match scan.manifestRaw, scan.indexRaw with
      | some raw, _ =>
        let (repoTags, layerCount, configEntry) ← parseDockerManifest py raw
        return {
          imageFormat := "docker-archive"
          entryCount := scan.entryCount
          declaredSize := scan.declaredSize
          repoTags := repoTags
          layerCount := layerCount
          configEntry := configEntry }
      | none, some raw =>
        if scan.sawOciLayout then
          return {
            imageFormat := "oci"
            entryCount := scan.entryCount
            declaredSize := scan.declaredSize
            repoTags := ← parseOciIndex py raw }
        else stageError .notADockerImage NO_IMAGE
      | none, none => stageError .notADockerImage NO_IMAGE

end TaoSubnet
